import Xframe.Comserv.CStrInvariant

/-! The bounded strings of `comtypedef_vchar.C`: `CVarChar8` up to `CVarChar256` in a block of fixed size, and
`CVarChar`, which gets a new block for each content. -/

namespace Xframe.Comserv

open Xframe.Lib Xframe.Transport
open CStrObject (splice length_splice splice_zero)

/-- What `buf` points to: bytes elsewhere, or the content of the string itself from `off` on. -/
inductive CharSource where
  | outside (bytes : List UInt8)
  | own (off : ℕ)

namespace CharSource

def bytes (content : List UInt8) : CharSource → List UInt8
  | .outside bytes => bytes
  | .own off => content.drop off

/-- `memcpy` to the front of the content is defined: the areas of `len` bytes do not overlap. -/
def Apart (len : ℤ) : CharSource → Prop
  | .outside _ => True
  | .own off => len ≤ off

instance (len : ℤ) : DecidablePred (Apart len)
  | .outside _ => inferInstanceAs (Decidable True)
  | .own off => inferInstanceAs (Decidable (len ≤ off))

end CharSource

/-- `m_ucVarCharLen` is a `BYTE`, and `m_cVarCharContent` has `room` bytes. -/
structure CVarCharN (room : ℕ) where
  ucVarCharLen : UInt8
  cVarCharContent : List UInt8
  size_eq : cVarCharContent.length = room

namespace CVarCharN

variable {room : ℕ}

def bytes (v : CVarCharN room) : List UInt8 := v.cVarCharContent.take v.ucVarCharLen.toNat

def memcpy (v : CVarCharN room) (off : ℕ) (src : List UInt8) : Option (CVarCharN room) :=
  if h : off + src.length ≤ room then
    some ⟨v.ucVarCharLen, splice v.cVarCharContent off src, (length_splice (by rwa [v.size_eq])).trans v.size_eq⟩
  else none

/-- `SetVarCharContent(buf, len)` of the string for `bound` characters. A `buf` that is `NULL` is nothing. -/
def setContent (bound : ℤ) (v : CVarCharN room) (buf : Option CharSource) (len : ℤ) : Option (CVarCharN room) :=
  match buf with
  | none => some v
  | some buf =>
    if 0 < len then do
      let len := (if bound < len then bound else len).toNat
      let src := buf.bytes v.cVarCharContent
      if len ≤ src.length ∧ buf.Apart len then do
        let v ← v.memcpy 0 (src.take len)
        let v := { v with ucVarCharLen := UInt8.ofNat len }
        v.memcpy len [0]
      else none
    else some v

end CVarCharN

abbrev CVarChar8 : Type := CVarCharN 9

abbrev CVarChar256 : Type := CVarCharN 257

def CVarChar8.setVarCharContent (v : CVarChar8) (buf : Option CharSource) (len : ℤ) : Option CVarChar8 :=
  CVarCharN.setContent 8 v buf len

def CVarChar8.new : CVarChar8 := ⟨0, List.replicate 9 0, rfl⟩

namespace CVarChar256

def setVarCharContent (v : CVarChar256) (buf : Option CharSource) (len : ℤ) : Option CVarChar256 :=
  CVarCharN.setContent 255 v buf len

def new : CVarChar256 := ⟨0, List.replicate 257 0, List.length_replicate⟩

def size (v : CVarChar256) : ℤ := 1 + v.ucVarCharLen.toNat

def encode (v : CVarChar256) : Option (List UInt8) := some (v.ucVarCharLen :: v.bytes)

def decode (v : CVarChar256) : List UInt8 → Option (CVarChar256 × List UInt8)
  | [] => none
  | length :: buf =>
    if length.toNat ≤ buf.length then do
      let v ← CVarCharN.memcpy { v with ucVarCharLen := length } 0 (buf.take length.toNat)
      let v ← v.memcpy length.toNat [0]
      some (v, buf.drop length.toNat)
    else none

end CVarChar256

def maxVCharLength : ℤ := 8192

structure CVarChar where
  ucVarCharLen : ℤ
  cVarCharContent : List UInt8
  nonneg : 0 ≤ ucVarCharLen
  le_max : ucVarCharLen ≤ maxVCharLength
  fits : ucVarCharLen < cVarCharContent.length

namespace CVarChar

def new : CVarChar := ⟨0, [0], le_rfl, by decide, by decide⟩

def bytes (v : CVarChar) : List UInt8 := v.cVarCharContent.take v.ucVarCharLen.toNat

def renew (buf : List UInt8) (len : ℤ) : Option CVarChar :=
  if h : 0 ≤ len ∧ len ≤ maxVCharLength ∧ len ≤ buf.length then
    some ⟨len, buf.take len.toNat ++ [0], h.1, h.2.1, by
      rw [List.length_append, List.length_take, List.length_singleton]
      omega⟩
  else none

def zeroFirst (v : CVarChar) : CVarChar where
  ucVarCharLen := v.ucVarCharLen
  cVarCharContent := splice v.cVarCharContent 0 [0]
  nonneg := v.nonneg
  le_max := v.le_max
  fits := by
    have hfits := v.fits
    have hnonneg := v.nonneg
    rw [length_splice (by rw [List.length_singleton]; omega)]
    exact hfits

/-- The old block is deleted before `buf` is read. -/
def renewFrom : CharSource → ℤ → Option CVarChar
  | .outside bytes, len => renew bytes len
  | .own _, _ => none

def setVarCharContent (v : CVarChar) (buf : Option CharSource) (len : ℤ) : Option CVarChar :=
  match buf with
  | none => some v
  | some buf =>
    if 0 < len ∧ len ≤ maxVCharLength then renewFrom buf len
    else if maxVCharLength < len then renewFrom buf maxVCharLength
    else some v.zeroFirst

def size (v : CVarChar) : ℤ := 4 + v.ucVarCharLen

def encode (v : CVarChar) : Option (List UInt8) := some (encodeInt v.ucVarCharLen ++ v.bytes)

def decode (v : CVarChar) (buf : List UInt8) : Option (CVarChar × List UInt8) := do
  let (length, buf) ← decodeInt buf
  if 0 < length ∧ length ≤ maxVCharLength then do
    let v ← renew buf length
    some (v, buf.drop length.toNat)
  else
    let v : CVarChar := ⟨0, v.cVarCharContent, le_rfl, by decide, v.nonneg.trans_lt v.fits⟩
    some (v.zeroFirst, buf)

end CVarChar

section Blocks

variable {b s : List UInt8}

lemma stored_take (h : s.length < b.length) : (splice (splice b 0 s) s.length [0]).take s.length = s := by
  have hlen : (splice b 0 s).length = b.length := length_splice (by omega)
  have hfront : (splice b 0 s).take s.length = s := by
    rw [splice, List.take_zero, List.nil_append, List.take_left]
  rw [splice, List.append_assoc, List.take_append_of_le_length (by rw [List.length_take]; omega), List.take_take,
    min_self, hfront]

lemma stored_zero (h : s.length < b.length) : (splice (splice b 0 s) s.length [0])[s.length]? = some 0 := by
  have hlen : (splice b 0 s).length = b.length := length_splice (by omega)
  have hroom : s.length + ([0] : List UInt8).length ≤ (splice b 0 s).length := by
    rw [hlen, List.length_singleton]
    omega
  exact splice_zero s.length hroom (i := 0) rfl

lemma zeroed (h : b ≠ []) : (splice b 0 [0])[0]? = some 0 := by
  obtain ⟨c, b, rfl⟩ := List.exists_cons_of_ne_nil h
  rfl

end Blocks

section Replacement

structure Replaced (bound : ℤ) (buf : List UInt8) (len length : ℤ) (content : List UInt8) : Prop where
  length_eq : length = min len bound
  content_eq : content.take (min len bound).toNat = buf.take (min len bound).toNat
  terminated : content[(min len bound).toNat]? = some 0

variable {room : ℕ} {buf : List UInt8} {len bound : ℤ}

lemma CVarCharN.memcpy_spec (v : CVarCharN room) (off : ℕ) (src : List UInt8) (h : off + src.length ≤ room) :
    Returns (v.memcpy off src) fun v' =>
      v'.ucVarCharLen = v.ucVarCharLen ∧ v'.cVarCharContent = splice v.cVarCharContent off src := by
  rw [memcpy, dif_pos h, returns_some]
  exact ⟨rfl, rfl⟩

lemma CVarCharN.stored (v : CVarCharN room) {s : List UInt8} (h : s.length < room) (hbyte : s.length < 256) :
    Returns (do
      let v ← v.memcpy 0 s
      let v := { v with ucVarCharLen := UInt8.ofNat s.length }
      v.memcpy s.length [0]) fun v' => v'.ucVarCharLen.toNat = s.length ∧ v'.cVarCharContent.take s.length = s ∧
        v'.cVarCharContent[s.length]? = some 0 := by
  have hroom : s.length < v.cVarCharContent.length := by rwa [v.size_eq]
  refine (v.memcpy_spec 0 s (by omega)).bind ?_
  rintro v₁ ⟨-, hcontent⟩
  refine (memcpy_spec _ s.length [0] (by rw [List.length_singleton]; omega)).mono ?_
  rintro v₂ ⟨hlen, hcontent₂⟩
  rw [hcontent₂, hcontent, hlen]
  exact ⟨UInt8.toNat_ofNat_of_lt' hbyte, stored_take hroom, stored_zero hroom⟩

lemma CVarCharN.setContent_iff (v : CVarCharN room) (src : CharSource) (hroom : bound < room) (hbound : 0 ≤ bound)
    (hbyte : bound < 256) (h0 : 0 ≤ len) (hbuf : min len bound ≤ (src.bytes v.cVarCharContent).length) :
    (Returns (setContent bound v (some src) len) fun v' =>
      Replaced bound (src.bytes v.cVarCharContent) len v'.ucVarCharLen.toNat v'.cVarCharContent) ↔
        (0 < len ∧ src.Apart (min len bound)) ∨ len = 0 ∧ v.ucVarCharLen = 0 ∧ v.cVarCharContent[0]? = some 0 := by
  rw [setContent]
  by_cases hpos : 0 < len
  · have hmin : ((if bound < len then bound else len).toNat : ℤ) = min len bound := by
      split_ifs <;> omega
    have hnat : (if bound < len then bound else len).toNat = (min len bound).toNat := by omega
    have htake : ((src.bytes v.cVarCharContent).take (min len bound).toNat).length = (min len bound).toNat := by
      rw [List.length_take]
      omega
    dsimp only
    rw [if_pos hpos, hmin, hnat]
    by_cases ha : src.Apart (min len bound)
    · rw [if_pos ⟨by omega, ha⟩]
      have hstored := v.stored (s := (src.bytes v.cVarCharContent).take (min len bound).toNat) (by omega) (by omega)
      rw [htake] at hstored
      refine iff_of_true (hstored.mono ?_) (Or.inl ⟨hpos, ha⟩)
      rintro v' ⟨hlen, hcontent, hzero⟩
      refine ⟨?_, hcontent, hzero⟩
      rw [hlen]
      omega
    · rw [if_neg fun h => ha h.2]
      refine iff_of_false (by rintro ⟨_, h, -⟩; cases h) ?_
      rintro (⟨-, h⟩ | ⟨rfl, -⟩)
      · exact ha h
      · exact absurd hpos (lt_irrefl 0)
  · obtain rfl : len = 0 := by omega
    have hmin : min 0 bound = 0 := by omega
    dsimp only
    rw [if_neg hpos, returns_some]
    constructor
    · rintro ⟨hlen, -, hzero⟩
      rw [hmin] at hlen hzero
      refine Or.inr ⟨rfl, UInt8.toNat_inj.mp ?_, hzero⟩
      exact Int.natCast_eq_zero.mp hlen
    · rintro (⟨hlt, -⟩ | ⟨-, hlen, hzero⟩)
      · exact (hpos hlt).elim
      · refine ⟨?_, ?_, ?_⟩
        · rw [hmin, hlen]
          rfl
        · rw [hmin]
          rfl
        · rw [hmin]
          exact hzero

lemma CVarChar.renew_spec (h0 : 0 ≤ len) (hmax : len ≤ maxVCharLength) (hbuf : len ≤ buf.length) :
    Returns (renew buf len) fun v => v.ucVarCharLen = len ∧ v.bytes = buf.take len.toNat ∧
      v.cVarCharContent = buf.take len.toNat ++ [0] := by
  have htake : (buf.take len.toNat).length = len.toNat := by
    rw [List.length_take]
    omega
  rw [renew, dif_pos ⟨h0, hmax, hbuf⟩, returns_some]
  refine ⟨rfl, ?_, rfl⟩
  change (buf.take len.toNat ++ [0]).take len.toNat = _
  exact List.take_left' htake

lemma CVarChar.renew_replaced (h0 : 0 ≤ len) (hbuf : min len maxVCharLength ≤ buf.length) :
    Returns (renew buf (min len maxVCharLength)) fun v =>
      Replaced maxVCharLength buf len v.ucVarCharLen v.cVarCharContent := by
  have hmax : (0 : ℤ) ≤ maxVCharLength := by decide
  have htake : (buf.take (min len maxVCharLength).toNat).length = (min len maxVCharLength).toNat := by
    rw [List.length_take]
    omega
  refine (renew_spec (by omega) (min_le_right _ _) hbuf).mono ?_
  rintro v ⟨hlen, -, hcontent⟩
  refine ⟨hlen, ?_, ?_⟩
  · rw [hcontent]
    exact List.take_left' htake
  · rw [hcontent, List.getElem?_append_right htake.le, htake, Nat.sub_self]
    rfl

lemma CVarChar.setVarCharContent_iff (v : CVarChar) (src : CharSource) (h0 : 0 ≤ len)
    (hbuf : min len maxVCharLength ≤ (src.bytes v.cVarCharContent).length) :
    (Returns (v.setVarCharContent (some src) len) fun v' =>
      Replaced maxVCharLength (src.bytes v.cVarCharContent) len v'.ucVarCharLen v'.cVarCharContent) ↔
        (0 < len ∧ ∀ off, src ≠ .own off) ∨ len = 0 ∧ v.ucVarCharLen = 0 := by
  have hmax : (0 : ℤ) < maxVCharLength := by decide
  rw [setVarCharContent]
  by_cases hpos : 0 < len
  · have hclamp : (if 0 < len ∧ len ≤ maxVCharLength then renewFrom src len
        else if maxVCharLength < len then renewFrom src maxVCharLength else some v.zeroFirst) =
          renewFrom src (min len maxVCharLength) := by
      by_cases hle : len ≤ maxVCharLength
      · rw [if_pos ⟨hpos, hle⟩, min_eq_left hle]
      · rw [if_neg fun h => hle h.2, if_pos (by omega), min_eq_right (by omega)]
    rw [hclamp]
    cases src with
    | outside bytes => exact iff_of_true (renew_replaced h0 hbuf) (Or.inl ⟨hpos, by simp⟩)
    | own off =>
      refine iff_of_false (by rintro ⟨_, h, -⟩; cases h) ?_
      rintro (⟨-, h⟩ | ⟨rfl, -⟩)
      · exact h off rfl
      · exact absurd hpos (lt_irrefl 0)
  · obtain rfl : len = 0 := by omega
    have hmin : min 0 maxVCharLength = 0 := by decide
    rw [if_neg fun h => hpos h.1, if_neg (by omega), returns_some]
    constructor
    · intro hr
      have hlen := hr.length_eq
      rw [hmin] at hlen
      exact Or.inr ⟨rfl, hlen⟩
    · rintro (⟨hlt, -⟩ | ⟨-, hlen⟩)
      · exact (hpos hlt).elim
      · refine ⟨?_, ?_, ?_⟩
        · rw [hmin]
          exact hlen
        · rw [hmin]
          rfl
        · rw [hmin]
          apply zeroed
          intro hnil
          have hfits := v.fits
          have hnonneg := v.nonneg
          rw [hnil, List.length_nil] at hfits
          omega

theorem set_replaces_iff (buf : CharSource) (len : ℤ) (h0 : 0 ≤ len) :
    (∀ v : CVarChar8, min len 8 ≤ (buf.bytes v.cVarCharContent).length →
      ((Returns (v.setVarCharContent (some buf) len) fun v' =>
        Replaced 8 (buf.bytes v.cVarCharContent) len v'.ucVarCharLen.toNat v'.cVarCharContent) ↔
          (0 < len ∧ buf.Apart (min len 8)) ∨ len = 0 ∧ v.ucVarCharLen = 0 ∧ v.cVarCharContent[0]? = some 0)) ∧
    (∀ v : CVarChar256, min len 255 ≤ (buf.bytes v.cVarCharContent).length →
      ((Returns (v.setVarCharContent (some buf) len) fun v' =>
        Replaced 255 (buf.bytes v.cVarCharContent) len v'.ucVarCharLen.toNat v'.cVarCharContent) ↔
          (0 < len ∧ buf.Apart (min len 255)) ∨ len = 0 ∧ v.ucVarCharLen = 0 ∧ v.cVarCharContent[0]? = some 0)) ∧
    ∀ v : CVarChar, min len maxVCharLength ≤ (buf.bytes v.cVarCharContent).length →
      ((Returns (v.setVarCharContent (some buf) len) fun v' =>
        Replaced maxVCharLength (buf.bytes v.cVarCharContent) len v'.ucVarCharLen v'.cVarCharContent) ↔
          (0 < len ∧ ∀ off, buf ≠ .own off) ∨ len = 0 ∧ v.ucVarCharLen = 0) := by
  refine ⟨fun v hbuf => ?_, fun v hbuf => ?_, fun v hbuf => v.setVarCharContent_iff buf h0 hbuf⟩
  · exact v.setContent_iff buf (by norm_num) (by norm_num) (by norm_num) h0 hbuf
  · exact v.setContent_iff buf (by norm_num) (by norm_num) (by norm_num) h0 hbuf

theorem set_replaces_two_of_three :
    (Returns (CVarChar8.new.setVarCharContent (some (.outside [97, 98, 99])) 2) fun v' =>
      Replaced 8 [97, 98, 99] 2 v'.ucVarCharLen.toNat v'.cVarCharContent) ∧
    (Returns (CVarChar256.new.setVarCharContent (some (.outside [97, 98, 99])) 2) fun v' =>
      Replaced 255 [97, 98, 99] 2 v'.ucVarCharLen.toNat v'.cVarCharContent) ∧
    Returns (CVarChar.new.setVarCharContent (some (.outside [97, 98, 99])) 2) fun v' =>
      Replaced maxVCharLength [97, 98, 99] 2 v'.ucVarCharLen v'.cVarCharContent := by
  obtain ⟨h8, h256, h⟩ := set_replaces_iff (.outside [97, 98, 99]) 2 (by norm_num)
  refine ⟨(h8 _ (by decide)).mpr (Or.inl ⟨by norm_num, trivial⟩), (h256 _ (by decide)).mpr (Or.inl ⟨by norm_num, trivial⟩),
    (h _ (by decide)).mpr (Or.inl ⟨by norm_num, by simp⟩)⟩

theorem set_nothing_keeps_length :
    Returns (CVarChar8.new.setVarCharContent (some (.outside [97])) 1 >>= fun v => v.setVarCharContent (some (.outside [98])) 0)
      (fun v => v.ucVarCharLen = 1 ∧ v.bytes = [97] ∧ ¬Replaced 8 [98] 0 v.ucVarCharLen.toNat v.cVarCharContent) ∧
    Returns (CVarChar.new.setVarCharContent (some (.outside [97])) 1 >>= fun v => v.setVarCharContent (some (.outside [98])) 0)
      (fun v => v.ucVarCharLen = 1 ∧ v.bytes = [0] ∧
        ¬Replaced maxVCharLength [98] 0 v.ucVarCharLen v.cVarCharContent) ∧
    ∃ v, CVarChar.new.setVarCharContent (some (.outside [97, 98])) 2 = some v ∧ v.setVarCharContent (some (.own 0)) 2 = none :=
  ⟨⟨_, rfl, rfl, rfl, fun h => absurd h.length_eq (by decide)⟩,
    ⟨_, rfl, rfl, rfl, fun h => absurd h.length_eq (by decide)⟩, _, rfl, rfl⟩

end Replacement

end Xframe.Comserv
