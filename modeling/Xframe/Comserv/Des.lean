import Mathlib.Tactic

/-! DES and triple DES of `des.C`: a byte is taken apart into eight `char`s that are 0 or 1, and the tables
count the places of an array from 1. -/

namespace Xframe.Comserv.Des

abbrev Block := Vector UInt8 8

def pc_1_c : List ℕ :=
  [57, 49, 41, 33, 25, 17, 9,
    1, 58, 50, 42, 34, 26, 18,
    10, 2, 59, 51, 43, 35, 27,
    19, 11, 3, 60, 52, 44, 36]

def pc_1_d : List ℕ :=
  [63, 55, 47, 39, 31, 23, 15,
    7, 62, 54, 46, 38, 30, 22,
    14, 6, 61, 53, 45, 37, 29,
    21, 13, 5, 28, 20, 12, 4]

def pc_2 : List ℕ :=
  [14, 17, 11, 24, 1, 5,
    3, 28, 15, 6, 21, 10,
    23, 19, 12, 4, 26, 8,
    16, 7, 27, 20, 13, 2,
    41, 52, 31, 37, 47, 55,
    30, 40, 51, 45, 33, 48,
    44, 49, 39, 56, 34, 53,
    46, 42, 50, 36, 29, 32]

def ls_count : List ℕ := [1, 1, 2, 2, 2, 2, 2, 2, 1, 2, 2, 2, 2, 2, 2, 1]

def ip_tab : List ℕ :=
  [58, 50, 42, 34, 26, 18, 10, 2,
    60, 52, 44, 36, 28, 20, 12, 4,
    62, 54, 46, 38, 30, 22, 14, 6,
    64, 56, 48, 40, 32, 24, 16, 8,
    57, 49, 41, 33, 25, 17, 9, 1,
    59, 51, 43, 35, 27, 19, 11, 3,
    61, 53, 45, 37, 29, 21, 13, 5,
    63, 55, 47, 39, 31, 23, 15, 7]

/-- `_ip_tab` -/
def ip_tab_1 : List ℕ :=
  [40, 8, 48, 16, 56, 24, 64, 32,
    39, 7, 47, 15, 55, 23, 63, 31,
    38, 6, 46, 14, 54, 22, 62, 30,
    37, 5, 45, 13, 53, 21, 61, 29,
    36, 4, 44, 12, 52, 20, 60, 28,
    35, 3, 43, 11, 51, 19, 59, 27,
    34, 2, 42, 10, 50, 18, 58, 26,
    33, 1, 41, 9, 49, 17, 57, 25]

def e_r : List ℕ :=
  [32, 1, 2, 3, 4, 5, 4, 5, 6, 7, 8, 9,
    8, 9, 10, 11, 12, 13, 12, 13, 14, 15, 16, 17,
    16, 17, 18, 19, 20, 21, 20, 21, 22, 23, 24, 25,
    24, 25, 26, 27, 28, 29, 28, 29, 30, 31, 32, 1]

def P : List ℕ :=
  [16, 7, 20, 21, 29, 12, 28, 17,
    1, 15, 23, 26, 5, 18, 31, 10,
    2, 8, 24, 14, 32, 27, 3, 9,
    19, 13, 30, 6, 22, 11, 4, 25]

def SSS : List (List (List UInt8)) :=
  [[[14, 4, 13, 1, 2, 15, 11, 8, 3, 10, 6, 12, 5, 9, 0, 7],
    [0, 15, 7, 4, 14, 2, 13, 1, 10, 6, 12, 11, 9, 5, 3, 8],
    [4, 1, 14, 8, 13, 6, 2, 11, 15, 12, 9, 7, 3, 10, 5, 0],
    [15, 12, 8, 2, 4, 9, 1, 7, 5, 11, 3, 14, 10, 0, 6, 13]],
   [[15, 1, 8, 14, 6, 11, 3, 4, 9, 7, 2, 13, 12, 0, 5, 10],
    [3, 13, 4, 7, 15, 2, 8, 14, 12, 0, 1, 10, 6, 9, 11, 5],
    [0, 14, 7, 11, 10, 4, 13, 1, 5, 8, 12, 6, 9, 3, 2, 15],
    [13, 8, 10, 1, 3, 15, 4, 2, 11, 6, 7, 12, 0, 5, 14, 9]],
   [[10, 0, 9, 14, 6, 3, 15, 5, 1, 13, 12, 7, 11, 4, 2, 8],
    [13, 7, 0, 9, 3, 4, 6, 10, 2, 8, 5, 14, 12, 11, 15, 1],
    [13, 6, 4, 9, 8, 15, 3, 0, 11, 1, 2, 12, 5, 10, 14, 7],
    [1, 10, 13, 0, 6, 9, 8, 7, 4, 15, 14, 3, 11, 5, 2, 12]],
   [[7, 13, 14, 3, 0, 6, 9, 10, 1, 2, 8, 5, 11, 12, 4, 15],
    [13, 8, 11, 5, 6, 15, 0, 3, 4, 7, 2, 12, 1, 10, 14, 9],
    [10, 6, 9, 0, 12, 11, 7, 13, 15, 1, 3, 14, 5, 2, 8, 4],
    [3, 15, 0, 6, 10, 1, 13, 8, 9, 4, 5, 11, 12, 7, 2, 14]],
   [[2, 12, 4, 1, 7, 10, 11, 6, 8, 5, 3, 15, 13, 0, 14, 9],
    [14, 11, 2, 12, 4, 7, 13, 1, 5, 0, 15, 10, 3, 9, 8, 6],
    [4, 2, 1, 11, 10, 13, 7, 8, 15, 9, 12, 5, 6, 3, 0, 14],
    [11, 8, 12, 7, 1, 14, 2, 13, 6, 15, 0, 9, 10, 4, 5, 3]],
   [[12, 1, 10, 15, 9, 2, 6, 8, 0, 13, 3, 4, 14, 7, 5, 11],
    [10, 15, 4, 2, 7, 12, 9, 5, 6, 1, 13, 14, 0, 11, 3, 8],
    [9, 14, 15, 5, 2, 8, 12, 3, 7, 0, 4, 10, 1, 13, 11, 6],
    [4, 3, 2, 12, 9, 5, 15, 10, 11, 14, 1, 7, 6, 0, 8, 13]],
   [[4, 11, 2, 14, 15, 0, 8, 13, 3, 12, 9, 7, 5, 10, 6, 1],
    [13, 0, 11, 7, 4, 9, 1, 10, 14, 3, 5, 12, 2, 15, 8, 6],
    [1, 4, 11, 13, 12, 3, 7, 14, 10, 15, 6, 8, 0, 5, 9, 2],
    [6, 11, 13, 8, 1, 4, 10, 7, 9, 5, 0, 15, 14, 2, 3, 12]],
   [[13, 2, 8, 4, 6, 15, 11, 1, 10, 9, 3, 14, 5, 0, 12, 7],
    [1, 15, 13, 8, 10, 3, 7, 4, 12, 5, 6, 11, 0, 14, 9, 2],
    [7, 11, 4, 1, 9, 12, 14, 2, 0, 6, 10, 13, 15, 3, 5, 8],
    [2, 1, 14, 7, 4, 10, 8, 13, 15, 12, 9, 0, 3, 5, 6, 11]]]

def pick (table : List ℕ) (bits : List UInt8) : List UInt8 := table.map fun j => bits.getD (j - 1) 0

def expandByte : ℕ → UInt8 → UInt8 → List UInt8
  | 0, _, _ => []
  | n + 1, divide, c => ((c / divide) &&& 1) :: expandByte n (divide / 2) c

def expand0 (inp : List UInt8) : List UInt8 := inp.flatMap (expandByte 8 0x80)

def compressByte : List UInt8 → UInt8 → UInt8 → UInt8
  | [], _, c => c
  | b :: bits, times, c => compressByte bits (times / 2) (c + b * times)

def compress0 (out : List UInt8) : Block :=
  Vector.ofFn fun i => compressByte ((out.drop (8 * i)).take 8) 0x80 0

def nibble (aa : List UInt8) (i : ℕ) : List UInt8 :=
  let bit := fun k => aa.getD (6 * i + k) 0
  let y := bit 0 * 2 + bit 5
  let z := bit 1 * 8 + bit 2 * 4 + bit 3 * 2 + bit 4
  expandByte 4 0x08 (((SSS.getD i []).getD y.toNat []).getD z.toNat 0)

def s_box (aa : List UInt8) : List UInt8 := (List.range 8).flatMap (nibble aa)

def LS (bits : List UInt8) (count : ℕ) : List UInt8 := (List.range 28).map fun i => bits.getD ((i + count) % 28) 0

def son (cc dd : List UInt8) : List UInt8 := pick pc_2 (cc ++ dd)

def addBits (a b : List UInt8) : List UInt8 := List.zipWith (fun x y => (x + y) &&& 1) a b

/-- The static arrays `C`, `D` and `K`, by rows. They keep what the last call left in them. -/
structure KeyStar where
  C : ℕ → List UInt8
  D : ℕ → List UInt8
  K : ℕ → List UInt8

namespace KeyStar

def shift (s : KeyStar) (j : ℕ) : KeyStar :=
  let c := LS (s.C j) (ls_count.getD j 0)
  let d := LS (s.D j) (ls_count.getD j 0)
  ⟨Function.update s.C (j + 1) c, Function.update s.D (j + 1) d, Function.update s.K (j + 1) (son c d)⟩

def first (s : KeyStar) (bits : List UInt8) : KeyStar :=
  { s with C := Function.update s.C 0 (pick pc_1_c bits), D := Function.update s.D 0 (pick pc_1_d bits) }

def setkeystar (s : KeyStar) (bits : List UInt8) : KeyStar := (List.range 16).foldl shift (s.first bits)

def mask (s : KeyStar) (n : ℕ) (rr : List UInt8) : List UInt8 := pick P (s_box (addBits (pick e_r rr) (s.K n)))

def F (s : KeyStar) (n : ℕ) (b : List UInt8 × List UInt8) : List UInt8 × List UInt8 :=
  (b.2, addBits (s.mask n b.2) b.1)

end KeyStar

def ip (text : Block) : List UInt8 × List UInt8 :=
  let buffer := expand0 text.toList
  (pick (ip_tab.take 32) buffer, pick (ip_tab.drop 32) buffer)

def ip_1 (ll rr : List UInt8) : List UInt8 := pick ip_tab_1 (ll ++ rr)

namespace KeyStar

def encrypt0 (s : KeyStar) (text : Block) : Block :=
  let b := (List.range 16).foldl (fun b i => s.F (i + 1) b) (ip text)
  compress0 (ip_1 b.2 b.1)

def discrypt0 (s : KeyStar) (mtext : Block) : Block :=
  let b := (List.range 16).foldl (fun b i => s.F (16 - i) b) (ip mtext)
  compress0 (ip_1 b.2 b.1)

end KeyStar

def DES (s : KeyStar) (key text : Block) : Block × KeyStar :=
  let s := s.setkeystar (expand0 key.toList)
  (s.encrypt0 text, s)

def DES_1 (s : KeyStar) (key text : Block) : Block × KeyStar :=
  let s := s.setkeystar (expand0 key.toList)
  (s.discrypt0 text, s)

def keyL (key16 : Vector UInt8 16) : Block := Vector.ofFn fun i => key16[i]

def keyR (key16 : Vector UInt8 16) : Block := Vector.ofFn fun i => key16[i.1 + 8]

def TripleDES (s : KeyStar) (key16 : Vector UInt8 16) (text : Block) : Block × KeyStar :=
  let (dump1, s) := DES s (keyL key16) text
  let (dump2, s) := DES_1 s (keyR key16) dump1
  DES s (keyL key16) dump2

def TripleDES_1 (s : KeyStar) (key16 : Vector UInt8 16) (text : Block) : Block × KeyStar :=
  let (dump1, s) := DES_1 s (keyL key16) text
  let (dump2, s) := DES s (keyR key16) dump1
  DES_1 s (keyL key16) dump2

end Xframe.Comserv.Des
