import Xframe.Lib.Wire
import Xframe.Comserv.VarChar

/-! `encode` and `decode` of `CStr`, `CVarChar` and `CVarChar256`, and strings of these types that are encoded one
behind the other. -/

namespace Xframe.Comserv

open Xframe.Lib Xframe.Lib.Act Xframe.Transport

def CStrMem.content (m : CStrMem) : List UInt8 := (m.block.getD []).take m.str.length.toNat

namespace CStrObject

def size (s : CStrObject) : ℤ := toInt (4 + s.length)

def encode : Op (List UInt8) := do
  let s ← this
  if 0 < s.length then do
    let src ← read 0 s.length
    pure (encodeInt s.length ++ src)
  else pure (encodeInt s.length)

variable {m : CStrMem} {L C : ℤ} {b s : List UInt8} {E : CStrMem → Prop}

lemma View.content (h : View m L C b) : m.content = b.take L.toNat := by
  rw [CStrMem.content, h.block, h.length]
  rfl

lemma length_content (hv : Valid m) : (m.content.length : ℤ) = m.str.length := by
  obtain ⟨L, C, b, hview, hf, hL, hle, -⟩ := hv
  have hsize := hf.size
  rw [hview.content, List.length_take, hview.length]
  omega

lemma capacity_bounds (hv : Valid m) :
    0 ≤ m.str.length ∧ m.str.length ≤ m.str.capacity ∧ m.str.capacity < 2 ^ 31 - 1 := by
  obtain ⟨L, C, b, hview, hf, hL, hle, -⟩ := hv
  rw [hview.length, hview.capacity]
  exact ⟨hL, hle, hf.most⟩

lemma length_lt (hv : Valid m) : 0 ≤ m.str.length ∧ m.str.length < 2 ^ 31 := by
  have hcap := capacity_bounds hv
  omega

lemma encode_ends (hv : Valid m) : Ends encode m (fun code t => code = encodeInt m.str.length ++ m.content ∧ m = t) E := by
  obtain ⟨L, C, b, hview, hf, hL, hle, -⟩ := hv
  have hsize := hf.size
  rw [encode]
  refine (this_ends hview.state).bind ?_
  rintro _ t ⟨rfl, rfl, h⟩
  rw [hview.length, hview.content]
  by_cases hpos : 0 < L
  · rw [if_pos hpos]
    refine (read_ends h le_rfl hL (by omega)).bind ?_
    rintro src _ ⟨rfl, rfl⟩
    exact ends_pure ⟨rfl, rfl⟩
  · obtain rfl : L = 0 := by omega
    rw [if_neg hpos]
    exact ends_pure ⟨(List.append_nil _).symm, rfl⟩

lemma fetch_ends (noise : ℕ → UInt8) (hv : Valid m) {buf : List UInt8} {n : ℕ} (hn : n ≤ buf.length)
    (hlt : (n : ℤ) < 2 ^ 31) (left : List UInt8) :
    Ends (do
      growTo noise n
      setLength n
      let src ← argument buf n
      write 0 src
      write n [0]
      pure left : Op (List UInt8)) m
      (fun l t => (l = left ∧ t.str.length = n ∧ t.content = buf.take n) ∧ ¬Oversized m.str.capacity n)
      fun _ => Oversized m.str.capacity n := by
  obtain ⟨L, C, b, hview, hf, hL, hle, -⟩ := hv
  have htake : (buf.take n).length = n := List.length_take_of_le hn
  rw [hview.capacity]
  refine ((growTo_exact noise hview.state hf hL hle hlt).mono (fun _ _ ht => ht) fun _ ht => ht.2).bind ?_
  rintro - t ⟨⟨C', b', ht, hf', -, hC, -⟩, hsmall⟩
  have hsize := hf'.size
  refine (setLength_ends ht n).bind fun _ t ht => ?_
  refine (argument_ends (by omega) (by omega)).bind ?_
  rintro _ t ⟨rfl, rfl⟩
  rw [Int.toNat_natCast]
  refine (write_ends ht le_rfl (by omega)).bind fun _ t ht => ?_
  have hlen : (splice b' (Int.toNat 0) (buf.take n)).length = b'.length :=
    length_splice (by rw [Int.toNat_zero]; omega)
  refine (write_ends ht (by omega) (by rw [hlen, List.length_singleton]; omega)).bind fun _ t ht => ?_
  refine ends_pure ⟨⟨rfl, ht.view.length, ?_⟩, hsmall⟩
  have hstored := stored_take (b := b') (s := buf.take n) (by omega)
  rw [htake] at hstored
  rw [ht.view.content]
  exact hstored

lemma decode_exact (noise : ℕ → UInt8) (hv : Valid m) (hs : (s.length : ℤ) < 2 ^ 31) (rest : List UInt8) :
    Ends (decode noise (encodeInt s.length ++ (s ++ rest))) m
      (fun left t => (left = rest ∧ t.str.length = s.length ∧ t.content = s) ∧ ¬Oversized m.str.capacity s.length)
      fun _ => Oversized m.str.capacity s.length := by
  have hroom : s.length ≤ (s ++ rest).length := by
    rw [List.length_append]
    omega
  have hfetch := fetch_ends noise hv hroom hs rest
  rw [List.take_left] at hfetch
  rw [decode, decodeInt_encodeInt, ntohl_encodeInt (by omega) hs]
  dsimp only
  rw [Int.toNat_natCast, List.drop_left]
  exact hfetch

theorem decodeStr_iff (noise : ℕ → UInt8) (hv : Valid m) (hcap : m.str.capacity < 2 ^ 31 - 32) {buf rest : List UInt8} :
    decodeStr buf = some (s, rest) ↔
      ∃ t, decode noise buf m = some (.done rest, t) ∧ t.content = s ∧ t.str.length = s.length := by
  cases hint : decodeInt buf with
  | none => simp [decodeStr, decode, hint, Act.fault]
  | some r =>
    obtain ⟨n, left⟩ := r
    have hlt := decodeInt_lt hint
    rw [decodeStr, decode, hint]
    dsimp only [Option.bind_eq_bind, Option.bind_some]
    by_cases hfit : 0 ≤ n ∧ n ≤ left.length ∧ ¬Unallocatable n
    · obtain ⟨h0, hle, hu⟩ := hfit
      obtain ⟨k, rfl⟩ := Int.eq_ofNat_of_zero_le h0
      rw [if_neg hu, if_pos ⟨h0, hle⟩, Int.toNat_natCast]
      rw [unallocatable_iff hlt] at hu
      have hsmall : ¬Oversized m.str.capacity k := fun ho => hu ho.2
      have hfetch := fetch_ends noise hv (Int.ofNat_le.mp hle) hlt (left.drop k)
      have hlen : (left.take k).length = k := List.length_take_of_le (Int.ofNat_le.mp hle)
      obtain ⟨l, t, hrun, ⟨rfl, hlength, hcontent⟩, -⟩ := (hfetch.mono (fun _ _ h => h) fun _ ho => hsmall ho).done
      constructor
      · intro h
        obtain ⟨rfl, rfl⟩ := Prod.mk.inj (Option.some.inj h)
        exact ⟨t, hrun, hcontent, by rw [hlength, hlen]⟩
      · rintro ⟨t', hrun', hcontent', -⟩
        obtain ⟨hout, rfl⟩ := Prod.mk.inj (Option.some.inj (hrun.symm.trans hrun'))
        rw [← Outcome.done.inj hout, ← hcontent', hcontent]
    · have hnone : (if Unallocatable n then none else if 0 ≤ n ∧ n ≤ left.length then
          some (left.take n.toNat, left.drop n.toNat) else none) = none := by
        split
        · rfl
        · next hu => exact if_neg fun h => hfit ⟨h.1, h.2, hu⟩
      rw [hnone]
      refine ⟨fun h => absurd h (by simp), ?_⟩
      rintro ⟨t, hrun, -⟩
      obtain ⟨L, C, b, hview, hf, hL, hle, -⟩ := hv
      obtain ⟨_, t₁, hgrow, hrun⟩ := bind_eq_done hrun
      obtain ⟨_, t₂, -, hrun⟩ := bind_eq_done hrun
      obtain ⟨src, t₃, harg, -⟩ := bind_eq_done hrun
      have hsmall := ((growTo_exact noise hview.state hf hL hle hlt).of_done hgrow).2
      rw [hview.capacity] at hcap
      rw [argument] at harg
      split at harg
      · next hroom =>
        refine absurd ⟨hroom.1, hroom.2, fun hu => hsmall ?_⟩ hfit
        rw [unallocatable_iff hlt] at hu
        exact ⟨by omega, hu⟩
      · cases harg

lemma size_eq (h0 : 0 ≤ m.str.length) (h : m.str.length < 2 ^ 31) :
    m.str.size = 4 + m.str.length ↔ m.str.length ≤ 2 ^ 31 - 5 := by
  rw [size, toInt]
  omega

lemma size_iff (hv : Valid m) : m.str.size = sizeStr m.content ↔ (m.content.length : ℤ) ≤ 2 ^ 31 - 5 := by
  obtain ⟨h0, h⟩ := length_lt hv
  rw [sizeStr, length_content hv]
  exact size_eq h0 h

end CStrObject

open CStrObject (Valid Oversized)

inductive StrObject where
  | cStr (m : CStrMem)
  | varChar (v : CVarChar)
  | varChar256 (v : CVarChar256)

namespace StrObject

def bytes : StrObject → List UInt8
  | cStr m => m.content
  | varChar v => v.bytes
  | varChar256 v => v.bytes

def length : StrObject → ℤ
  | cStr m => m.str.length
  | varChar v => v.ucVarCharLen
  | varChar256 v => v.ucVarCharLen.toNat

def size : StrObject → ℤ
  | cStr m => m.str.size
  | varChar v => v.size
  | varChar256 v => v.size

def encode : StrObject → Option (List UInt8)
  | cStr m =>
    match CStrObject.encode m with
    | some (.done code, _) => some code
    | _ => none
  | varChar v => v.encode
  | varChar256 v => v.encode

/-- An exception of `decode` leaves no result. -/
def decode (noise : ℕ → UInt8) : StrObject → List UInt8 → Option (StrObject × List UInt8)
  | cStr m, buf =>
    match CStrObject.decode noise buf m with
    | some (.done left, m) => some (cStr m, left)
    | _ => none
  | varChar v, buf => (v.decode buf).map fun (v, left) => (varChar v, left)
  | varChar256 v, buf => (v.decode buf).map fun (v, left) => (varChar256 v, left)

def Paired : StrObject → StrObject → Prop
  | cStr m, cStr t => Valid m ∧ Valid t
  | varChar _, varChar _ => True
  | varChar256 _, varChar256 _ => True
  | _, _ => False

/-- The size is an `int`, and so is the room that the decoding object needs where its own is too small. -/
def Fits : StrObject → StrObject → Prop
  | cStr m, cStr t => m.str.length ≤ 2 ^ 31 - 5 ∧ ¬Oversized t.str.capacity m.str.length
  | _, _ => True

structure Restored (a t : StrObject) : Prop where
  bytes : t.bytes = a.bytes
  length : t.length = a.length
  encoded : Returns a.encode fun code => (code.length : ℤ) = a.size
  decoded : t.size = a.size

variable {m t : CStrMem}

lemma encode_cStr (hm : Valid m) : encode (cStr m) = some (encodeInt m.str.length ++ m.content) := by
  have hend := CStrObject.encode_ends (E := fun _ => False) hm
  obtain ⟨code, t, hrun, rfl, -⟩ := hend.done
  rw [encode, hrun]

lemma restored_iff {t' : CStrMem} (hm : Valid m) (hlen : t'.str.length = m.str.length) (hbytes : t'.content = m.content) :
    Restored (cStr m) (cStr t') ↔ m.str.length ≤ 2 ^ 31 - 5 := by
  obtain ⟨h0, hlt⟩ := CStrObject.length_lt hm
  have hcode : ((encodeInt m.str.length ++ m.content).length : ℤ) = 4 + m.str.length := by
    rw [List.length_append, length_encodeInt, ← CStrObject.length_content hm]
    norm_num
  rw [← CStrObject.size_eq h0 hlt, ← hcode]
  constructor
  · intro h
    have henc := h.encoded
    rw [encode_cStr hm, returns_some] at henc
    exact henc.symm
  · intro h
    refine ⟨hbytes, hlen, ?_, ?_⟩
    · rw [encode_cStr hm, returns_some]
      exact h.symm
    · change t'.str.size = m.str.size
      rw [CStrObject.size, CStrObject.size, hlen]

lemma decode_cStr (noise : ℕ → UInt8) (hm : Valid m) (ht : Valid t) (rest : List UInt8) :
    decode noise (cStr t) (encodeInt m.str.length ++ m.content ++ rest) = none ∧ ¬Fits (cStr m) (cStr t) ∨
      ∃ t', decode noise (cStr t) (encodeInt m.str.length ++ m.content ++ rest) = some (t', rest) ∧
        (Restored (cStr m) t' ↔ Fits (cStr m) (cStr t)) := by
  have hlen := CStrObject.length_content hm
  have hend := CStrObject.decode_exact noise ht (s := m.content) (by rw [hlen]; exact (CStrObject.length_lt hm).2) rest
  rw [hlen] at hend
  rw [List.append_assoc, decode]
  rw [Ends] at hend
  cases hrun : CStrObject.decode noise (encodeInt m.str.length ++ (m.content ++ rest)) t with
  | none => simp [hrun] at hend
  | some res =>
    obtain ⟨o, t'⟩ := res
    rw [hrun] at hend
    cases o with
    | thrown => exact Or.inl ⟨rfl, fun hfit => hfit.2 hend⟩
    | done left =>
      obtain ⟨⟨rfl, hlen', hbytes⟩, hsmall⟩ := hend
      refine Or.inr ⟨_, rfl, ?_⟩
      rw [restored_iff hm hlen' hbytes, Fits]
      exact ⟨fun h => ⟨h, hsmall⟩, fun h => h.1⟩

lemma decode_varChar (noise : ℕ → UInt8) (v t : CVarChar) (rest : List UInt8) :
    ∃ t', decode noise (varChar t) (encodeInt v.ucVarCharLen ++ v.bytes ++ rest) = some (t', rest) ∧
      Restored (varChar v) t' := by
  have hnonneg := v.nonneg
  have hfits := v.fits
  have hmax : v.ucVarCharLen ≤ 8192 := v.le_max
  have hbytes : (v.bytes.length : ℤ) = v.ucVarCharLen := by
    rw [CVarChar.bytes, List.length_take]
    omega
  have hcode : ((encodeInt v.ucVarCharLen ++ v.bytes).length : ℤ) = v.size := by
    rw [List.length_append, length_encodeInt, CVarChar.size, ← hbytes]
    norm_num
  rw [List.append_assoc, decode, CVarChar.decode, decodeInt_encodeInt, ntohl_encodeInt hnonneg (by omega),
    Option.bind_eq_bind, Option.bind_some]
  dsimp only
  by_cases hpos : 0 < v.ucVarCharLen
  · have htake : (v.bytes ++ rest).take v.ucVarCharLen.toNat = v.bytes := List.take_left' (by omega)
    have hdrop : (v.bytes ++ rest).drop v.ucVarCharLen.toNat = rest := List.drop_left' (by omega)
    have hroom : v.ucVarCharLen ≤ (v.bytes ++ rest).length := by
      rw [List.length_append]
      omega
    obtain ⟨t', hrun, hlen, hb, -⟩ := CVarChar.renew_spec hnonneg v.le_max hroom
    rw [if_pos ⟨hpos, v.le_max⟩, hrun, hdrop]
    refine ⟨_, rfl, hb.trans htake, hlen, ⟨_, rfl, hcode⟩, ?_⟩
    change 4 + t'.ucVarCharLen = 4 + v.ucVarCharLen
    rw [hlen]
  · have hzero : v.ucVarCharLen = 0 := by omega
    have hnil : v.bytes = [] := List.length_eq_zero_iff.mp (by omega)
    rw [if_neg fun h => hpos h.1, hnil, List.nil_append]
    refine ⟨_, rfl, hnil.symm, hzero.symm, ⟨_, rfl, hcode⟩, ?_⟩
    change (4 : ℤ) + 0 = 4 + v.ucVarCharLen
    rw [hzero]

lemma decode_varChar256 (noise : ℕ → UInt8) (v t : CVarChar256) (rest : List UInt8) :
    ∃ t', decode noise (varChar256 t) (v.ucVarCharLen :: v.bytes ++ rest) = some (t', rest) ∧
      Restored (varChar256 v) t' := by
  have hbyte := v.ucVarCharLen.toNat_lt
  have hbytes : v.bytes.length = v.ucVarCharLen.toNat := by
    rw [CVarCharN.bytes, List.length_take, v.size_eq]
    omega
  have hcode : ((v.ucVarCharLen :: v.bytes).length : ℤ) = v.size := by
    rw [List.length_cons, hbytes, CVarChar256.size]
    push_cast
    ring
  have htake : (v.bytes ++ rest).take v.ucVarCharLen.toNat = v.bytes := List.take_left' hbytes
  have hdrop : (v.bytes ++ rest).drop v.ucVarCharLen.toNat = rest := List.drop_left' hbytes
  obtain ⟨v₁, hrun, hlen, hcontent⟩ := CVarCharN.memcpy_spec
    (⟨v.ucVarCharLen, t.cVarCharContent, t.size_eq⟩ : CVarChar256) 0 v.bytes (by omega)
  obtain ⟨v₂, hrun₂, hlen₂, hcontent₂⟩ := v₁.memcpy_spec v.ucVarCharLen.toNat [0] (by rw [List.length_singleton]; omega)
  have hb : v₂.bytes = v.bytes := by
    rw [CVarCharN.bytes, hcontent₂, hcontent, hlen₂, hlen, ← hbytes]
    exact stored_take (by rw [t.size_eq]; omega)
  rw [List.cons_append, decode, CVarChar256.decode, if_pos (by rw [List.length_append]; omega), htake, hdrop, hrun]
  refine ⟨varChar256 v₂, ?_, hb, ?_, ⟨_, rfl, hcode⟩, ?_⟩
  · dsimp only [Option.bind_eq_bind, Option.bind_some]
    rw [hrun₂]
    rfl
  · exact congrArg (fun n : UInt8 => (n.toNat : ℤ)) (hlen₂.trans hlen)
  · exact congrArg (fun n : UInt8 => (1 + n.toNat : ℤ)) (hlen₂.trans hlen)

lemma decode_one (noise : ℕ → UInt8) (a t : StrObject) (h : Paired a t) : Returns a.encode fun code => ∀ rest,
    decode noise t (code ++ rest) = none ∧ ¬Fits a t ∨
      ∃ t', decode noise t (code ++ rest) = some (t', rest) ∧ (Restored a t' ↔ Fits a t) := by
  match a, t, h with
  | cStr m, cStr t, ⟨hm, ht⟩ => exact ⟨_, encode_cStr hm, decode_cStr noise hm ht⟩
  | varChar v, varChar t, _ =>
    refine ⟨_, rfl, fun rest => Or.inr ?_⟩
    obtain ⟨t', hrun, hrestored⟩ := decode_varChar noise v t rest
    exact ⟨t', hrun, iff_of_true hrestored trivial⟩
  | varChar256 v, varChar256 t, _ =>
    refine ⟨_, rfl, fun rest => Or.inr ?_⟩
    obtain ⟨t', hrun, hrestored⟩ := decode_varChar256 noise v t rest
    exact ⟨t', hrun, iff_of_true hrestored trivial⟩

theorem strings_restored_iff (noise : ℕ → UInt8) {sources targets : List StrObject}
    (h : List.Forall₂ Paired sources targets) (rest : List UInt8) :
    Returns (encodeAll encode sources) fun code =>
      Returns (decodeAll (decode noise) targets (code ++ rest))
        (fun (ts, left) => left = rest ∧ List.Forall₂ Restored sources ts) ↔ List.Forall₂ Fits sources targets :=
  decodeAll_iff (decode_one noise) h rest

def empty : CStrMem := ⟨.empty, ⟨0, 31, none, List.replicate 32 0⟩⟩

def hi : CStrMem := ⟨.empty, ⟨2, 31, none, 104 :: 105 :: List.replicate 30 0⟩⟩

def onHeap (s : List UInt8) : CStrMem :=
  ⟨(Heap.empty.alloc (s ++ [0])).2, ⟨s.length, s.length, some (Heap.empty.alloc (s ++ [0])).1, List.replicate 32 0⟩⟩

lemma empty_valid : Valid empty :=
  ⟨0, 31, _, ⟨rfl, rfl, rfl, rfl⟩, ⟨le_rfl, le_rfl, by norm_num⟩, le_rfl, by norm_num, rfl⟩

lemma hi_valid : Valid hi := ⟨2, 31, _, ⟨rfl, rfl, rfl, rfl⟩, ⟨le_rfl, le_rfl, by norm_num⟩, by norm_num, by norm_num, rfl⟩

lemma onHeap_block (s : List UInt8) : (onHeap s).block = some (s ++ [0]) := by
  refine (CStrMem.block_heap rfl).trans ?_
  exact (Heap.read_alloc _ _ _).trans (if_pos rfl)

lemma onHeap_valid {s : List UInt8} (h31 : 31 ≤ s.length) (hlt : (s.length : ℤ) < 2 ^ 31 - 1) : Valid (onHeap s) := by
  refine ⟨s.length, s.length, s ++ [0], ⟨rfl, rfl, onHeap_block s, List.length_replicate⟩, ⟨?_, ?_, hlt⟩, by omega, le_rfl, ?_⟩
  · rw [List.length_append, List.length_singleton]
    push_cast
    rfl
  · omega
  · rw [Int.toNat_natCast, List.getElem?_concat_length]

theorem three_strings_restored_iff :
    Returns (encodeAll encode [cStr hi, varChar .new, varChar256 .new]) fun code =>
      Returns (decodeAll (decode fun _ => 7) [cStr empty, varChar .new, varChar256 .new] (code ++ [1]))
        (fun (ts, left) => left = [1] ∧ List.Forall₂ Restored [cStr hi, varChar .new, varChar256 .new] ts) ↔
          List.Forall₂ Fits [cStr hi, varChar .new, varChar256 .new] [cStr empty, varChar .new, varChar256 .new] := by
  have hcStr : Paired (cStr hi) (cStr empty) := ⟨hi_valid, empty_valid⟩
  have hvarChar : Paired (varChar .new) (varChar .new) := trivial
  have hvarChar256 : Paired (varChar256 .new) (varChar256 .new) := trivial
  exact strings_restored_iff _ (.cons hcStr (.cons hvarChar (.cons hvarChar256 .nil))) [1]

lemma oversized_not_restored (noise : ℕ → UInt8) {s : List UInt8} (hlong : 2 ^ 31 - 32 ≤ (s.length : ℤ))
    (hlt : (s.length : ℤ) < 2 ^ 31 - 1) : List.Forall₂ Paired [cStr (onHeap s)] [cStr empty] ∧
      Returns (encodeAll encode [cStr (onHeap s)]) fun code => ¬Returns (decodeAll (decode noise) [cStr empty] (code ++ []))
        fun (ts, left) => left = [] ∧ List.Forall₂ Restored [cStr (onHeap s)] ts := by
  have hpair : Paired (cStr (onHeap s)) (cStr empty) := ⟨onHeap_valid (by omega) hlt, empty_valid⟩
  have hunfit : ¬Fits (cStr (onHeap s)) (cStr empty) := by
    intro hfits
    refine hfits.2 ⟨?_, hlong⟩
    change (31 : ℤ) < s.length
    omega
  refine ⟨.cons hpair .nil, ?_⟩
  refine (decodeAll_iff (decode_one noise) (.cons hpair .nil) []).mono fun code hiff hrestored => hunfit ?_
  exact (List.forall₂_cons.mp (hiff.mp hrestored)).1

theorem two_gigabytes_not_restored :
    List.Forall₂ Paired [cStr (onHeap (List.replicate (2 ^ 31 - 32) 1))] [cStr empty] ∧
      Returns (encodeAll encode [cStr (onHeap (List.replicate (2 ^ 31 - 32) 1))]) fun code =>
        ¬Returns (decodeAll (decode fun _ => 0) [cStr empty] (code ++ []))
          fun (ts, left) => left = [] ∧ List.Forall₂ Restored [cStr (onHeap (List.replicate (2 ^ 31 - 32) 1))] ts := by
  have hlen : (List.replicate (2 ^ 31 - 32) (1 : UInt8)).length = 2 ^ 31 - 32 := List.length_replicate
  exact oversized_not_restored _ (by rw [hlen]; norm_num) (by rw [hlen]; norm_num)

end StrObject

end Xframe.Comserv
