import Xframe.Lib.KeyOrder
import Xframe.Comserv.StringCodec

/-! The comparisons of `CStr`, which is the key of maps. Those for order stop at the first zero of a string. -/

namespace Xframe.Comserv

open Xframe.Lib
open CStrObject (Valid splice length_splice splice_zero)

/-- `strcmp` of two buffers; without a zero it would run out of them. -/
def strcmp : List UInt8 → List UInt8 → Option ℤ
  | c :: s, d :: t => if c = d ∧ c ≠ 0 then strcmp s t else some (c.toNat - d.toNat)
  | _, _ => none

def memcmp : List UInt8 → List UInt8 → ℕ → Option ℤ
  | _, _, 0 => some 0
  | c :: s, d :: t, n + 1 => if c = d then memcmp s t n else some (c.toNat - d.toNat)
  | _, _, _ => none

def cText (b : List UInt8) : List UInt8 := b.takeWhile (· ≠ 0)

namespace CStrMem

def cStr (m : CStrMem) : Option (List UInt8) := do
  let b ← m.block
  if 0 ≤ m.str.length ∧ m.str.length < b.length then some (splice b m.str.length.toNat [0]) else none

def eqChars (m : CStrMem) : Option (List UInt8) → Option Bool
  | none => some (m.str.length = 0)
  | some str => do
    let s ← m.cStr
    let d ← strcmp s str
    some (d = 0)

def ltChars (m : CStrMem) : Option (List UInt8) → Option Bool
  | none => some false
  | some str => do
    let s ← m.block
    let d ← strcmp s str
    some (d < 0)

def gtChars (m : CStrMem) : Option (List UInt8) → Option Bool
  | none => some (0 < m.str.length)
  | some str => do
    let s ← m.block
    let d ← strcmp s str
    some (0 < d)

def geChars (m : CStrMem) (str : Option (List UInt8)) : Option Bool := do
  if ← m.gtChars str then some true else m.eqChars str

def leChars (m : CStrMem) (str : Option (List UInt8)) : Option Bool := do
  if ← m.ltChars str then some true else m.eqChars str

def eq (m str : CStrMem) : Option Bool :=
  if m.str.length ≠ str.str.length then some false
  else do
    let s ← m.block
    let t ← str.block
    let d ← memcmp s t m.str.length.toNat
    some (d = 0)

def ne (m str : CStrMem) : Option Bool := (m.eq str).map not

def ge (m str : CStrMem) : Option Bool := do m.geChars (some (← str.cStr))

def gt (m str : CStrMem) : Option Bool := do m.gtChars (some (← str.cStr))

def le (m str : CStrMem) : Option Bool := do m.leChars (some (← str.cStr))

def lt (m str : CStrMem) : Option Bool := do m.ltChars (some (← str.cStr))

end CStrMem

section Bytes

variable {s t b : List UInt8}

def rank (b : List UInt8) : List ℕ := (cText b).map UInt8.toNat

lemma rank_zero (s : List UInt8) : rank (0 :: s) = [] := by
  rw [rank, cText, List.takeWhile_cons_of_neg (by decide), List.map_nil]

lemma rank_cons {c : UInt8} (h : c ≠ 0) (s : List UInt8) : rank (c :: s) = c.toNat :: rank s := by
  rw [rank, cText, List.takeWhile_cons_of_pos (by simpa using h), List.map_cons]
  rfl

lemma strcmp_spec (hs : 0 ∈ s) (ht : 0 ∈ t) : Returns (strcmp s t) fun d =>
    (d < 0 ↔ rank s < rank t) ∧ (d = 0 ↔ rank s = rank t) := by
  induction s generalizing t with
  | nil => simp at hs
  | cons c s ih =>
    cases t with
    | nil => simp at ht
    | cons d t =>
      rw [strcmp]
      by_cases hsame : c = d ∧ c ≠ 0
      · obtain ⟨rfl, hc⟩ := hsame
        rw [if_pos ⟨rfl, hc⟩, rank_cons hc, rank_cons hc]
        have htail := ih ((List.mem_cons.mp hs).resolve_left hc.symm) ((List.mem_cons.mp ht).resolve_left hc.symm)
        refine htail.mono ?_
        rintro e ⟨hlt, heq⟩
        rw [hlt, heq, List.cons_lt_cons_iff, List.cons.injEq]
        simp
      rw [if_neg hsame, returns_some]
      have hbytes : c.toNat = d.toNat ↔ c = d := UInt8.toNat_inj
      by_cases hc : c = 0
      · subst hc
        rw [rank_zero]
        by_cases hd : d = 0
        · subst hd
          rw [rank_zero]
          simp
        · have hpos : 0 < d.toNat := Nat.pos_of_ne_zero fun h => hd (UInt8.toNat_inj.mp h)
          rw [rank_cons hd, UInt8.toNat_zero]
          refine ⟨iff_of_true (by omega) (List.nil_lt_cons _ _), iff_of_false (by omega) (List.cons_ne_nil _ _).symm⟩
      · have hpos : 0 < c.toNat := Nat.pos_of_ne_zero fun h => hc (UInt8.toNat_inj.mp h)
        rw [rank_cons hc]
        by_cases hd : d = 0
        · subst hd
          rw [rank_zero, UInt8.toNat_zero]
          exact ⟨iff_of_false (by omega) (List.not_lt_nil _), iff_of_false (by omega) (List.cons_ne_nil _ _)⟩
        · have hne : c.toNat ≠ d.toNat := fun h => hsame ⟨hbytes.mp h, hc⟩
          rw [rank_cons hd, List.cons_lt_cons_iff, List.cons.injEq]
          constructor
          · omega
          · omega

lemma memcmp_spec {n : ℕ} (hs : n ≤ s.length) (ht : n ≤ t.length) :
    Returns (memcmp s t n) fun d => d = 0 ↔ s.take n = t.take n := by
  induction n generalizing s t with
  | zero => exact ⟨0, by rw [memcmp], by simp⟩
  | succ n ih =>
    cases s with
    | nil => simp at hs
    | cons c s =>
      cases t with
      | nil => simp at ht
      | cons d t =>
        rw [memcmp, List.take_succ_cons, List.take_succ_cons]
        by_cases hcd : c = d
        · subst hcd
          rw [if_pos rfl]
          refine (ih (Nat.le_of_succ_le_succ hs) (Nat.le_of_succ_le_succ ht)).mono fun e he => ?_
          rw [he, List.cons.injEq]
          simp
        · have hne : c.toNat ≠ d.toNat := fun h => hcd (UInt8.toNat_inj.mp h)
          rw [if_neg hcd, returns_some, List.cons.injEq]
          refine iff_of_false (by omega) fun h => hcd h.1

lemma cText_cut {i : ℕ} (h : b[i]? = some 0) : cText b = cText (b.take i) := by
  induction b generalizing i with
  | nil => simp at h
  | cons c b ih =>
    cases i with
    | zero =>
      obtain rfl : c = 0 := Option.some.inj h
      rw [cText, List.takeWhile_cons_of_neg (by decide), List.take_zero]
      rfl
    | succ i =>
      rw [List.take_succ_cons]
      have htail := ih (i := i) h
      rw [cText] at htail ⊢
      by_cases hc : c = 0
      · subst hc
        rw [cText, List.takeWhile_cons_of_neg (by decide), List.takeWhile_cons_of_neg (by decide)]
      · rw [cText, List.takeWhile_cons_of_pos (by simpa using hc), List.takeWhile_cons_of_pos (by simpa using hc), htail]
        rfl

end Bytes

namespace CStrMem

variable {m str : CStrMem} {b : List UInt8}

structure Shown (m : CStrMem) (b : List UInt8) : Prop where
  zero : 0 ∈ b
  text : cText b = cText m.content
  content : b.take m.str.length.toNat = m.content
  room : m.str.length.toNat ≤ b.length

lemma block_shown (h : Valid m) : Returns m.block (Shown m) := by
  obtain ⟨L, C, b, hview, hf, hL, hle, hz⟩ := h
  have hsize := hf.size
  have hcontent : b.take m.str.length.toNat = m.content := by
    rw [hview.content, hview.length]
  refine ⟨b, hview.block, (CStrObject.first_zero hz).1, ?_, hcontent, ?_⟩
  · rw [cText_cut hz, hview.content]
  · rw [hview.length]
    omega

lemma cStr_shown (h : Valid m) : Returns m.cStr (Shown m) := by
  obtain ⟨L, C, b, hview, hf, hL, hle, hz⟩ := h
  have hsize := hf.size
  have hroom : L.toNat + ([0] : List UInt8).length ≤ b.length := by
    rw [List.length_singleton]
    omega
  have hlen : (splice b L.toNat [0]).length = b.length := length_splice hroom
  have htake : (splice b L.toNat [0]).take L.toNat = b.take L.toNat := by
    rw [splice, List.append_assoc, List.take_left' (by rw [List.length_take]; omega)]
  have hzero : (splice b L.toNat [0])[L.toNat]? = some 0 := splice_zero _ hroom (i := 0) rfl
  refine ⟨splice b L.toNat [0], ?_, (CStrObject.first_zero hzero).1, ?_, ?_, ?_⟩
  · rw [cStr, hview.block, hview.length]
    exact if_pos ⟨hL, by omega⟩
  · rw [cText_cut hzero, htake, hview.content]
  · rw [hview.length, htake, hview.content]
  · rw [hview.length, hlen]
    omega

lemma Shown.rank_eq (h : m.Shown b) : rank b = rank m.content := by
  rw [rank, rank, h.text]

lemma strcmp_shown {s t : List UInt8} (hs : m.Shown s) (ht : str.Shown t) : Returns (strcmp s t) fun d =>
    (d < 0 ↔ rank m.content < rank str.content) ∧ (d = 0 ↔ rank m.content = rank str.content) := by
  rw [← hs.rank_eq, ← ht.rank_eq]
  exact strcmp_spec hs.zero ht.zero

lemma either_spec {x y : Option Bool} {P Q : Prop} (hx : Returns x fun r => r = true ↔ P)
    (hy : Returns y fun r => r = true ↔ Q) :
    Returns (do if ← x then some true else y) fun r => r = true ↔ P ∨ Q := by
  apply hx.bind
  intro r hr
  cases r with
  | true => exact ⟨true, rfl, iff_of_true rfl (Or.inl (hr.mp rfl))⟩
  | false =>
    have hnot : ¬P := fun h => Bool.false_ne_true (hr.mpr h)
    refine hy.mono fun r hq => ?_
    rw [hq, or_iff_right hnot]

section Chars

variable {t : List UInt8} (hm : Valid m) (ht : str.Shown t)

include hm ht

lemma eqChars_spec : Returns (m.eqChars (some t)) fun r => r = true ↔ rank m.content = rank str.content := by
  refine (cStr_shown hm).bind fun s hs => (strcmp_shown hs ht).bind ?_
  rintro d ⟨-, heq⟩
  rw [returns_some, decide_eq_true_eq]
  exact heq

lemma ltChars_spec : Returns (m.ltChars (some t)) fun r => r = true ↔ rank m.content < rank str.content := by
  refine (block_shown hm).bind fun s hs => (strcmp_shown hs ht).bind ?_
  rintro d ⟨hlt, -⟩
  rw [returns_some, decide_eq_true_eq]
  exact hlt

lemma gtChars_spec : Returns (m.gtChars (some t)) fun r => r = true ↔ rank str.content < rank m.content := by
  refine (block_shown hm).bind fun s hs => (strcmp_shown hs ht).bind ?_
  rintro d ⟨hlt, heq⟩
  have hrest : rank str.content < rank m.content ↔ ¬(rank m.content < rank str.content ∨ rank m.content = rank str.content) := by
    rw [← le_iff_lt_or_eq, not_le]
  rw [returns_some, decide_eq_true_eq, hrest, ← hlt, ← heq]
  omega

lemma geChars_spec : Returns (m.geChars (some t)) fun r => r = true ↔ rank str.content ≤ rank m.content := by
  refine (either_spec (gtChars_spec hm ht) (eqChars_spec hm ht)).mono fun r hr => ?_
  rw [hr, le_iff_lt_or_eq, eq_comm]

lemma leChars_spec : Returns (m.leChars (some t)) fun r => r = true ↔ rank m.content ≤ rank str.content := by
  refine (either_spec (ltChars_spec hm ht) (eqChars_spec hm ht)).mono fun r hr => ?_
  rw [hr, le_iff_lt_or_eq]

end Chars

lemma eq_spec (hm : Valid m) (ht : Valid str) : Returns (m.eq str) fun r => r = true ↔ m.content = str.content := by
  have hlen := CStrObject.length_content hm
  have hlen' := CStrObject.length_content ht
  rw [eq]
  by_cases hne : m.str.length ≠ str.str.length
  · rw [if_pos hne, returns_some]
    refine iff_of_false Bool.false_ne_true fun h => hne ?_
    rw [← hlen, ← hlen', h]
  · have hsame : m.str.length = str.str.length := not_not.mp hne
    rw [if_neg hne]
    refine (block_shown hm).bind fun s hs => (block_shown ht).bind fun t ht => ?_
    have hroom : m.str.length.toNat ≤ t.length := hsame ▸ ht.room
    refine (memcmp_spec hs.room hroom).bind fun d hd => ?_
    rw [returns_some, decide_eq_true_eq, hd, hs.content, hsame, ht.content]

end CStrMem

open CStrMem

abbrev CStrKey : Type := { m : CStrMem // Valid m }

namespace CStrKey

def content (a : CStrKey) : List UInt8 := a.1.content

def comparisons : Comparisons CStrKey where
  lt a b := a.1.lt b.1 = some true
  gt a b := a.1.gt b.1 = some true
  le a b := a.1.le b.1 = some true
  ge a b := a.1.ge b.1 = some true
  eq a b := a.1.eq b.1 = some true
  ne a b := a.1.ne b.1 = some true

def Answered (a b : CStrKey) : Prop :=
  ∀ op ∈ [CStrMem.lt, CStrMem.gt, CStrMem.le, CStrMem.ge, CStrMem.eq, CStrMem.ne], (op a.1 b.1).isSome

lemma answers {x : Option Bool} {P : Prop} (h : Returns x fun r => r = true ↔ P) : x.isSome ∧ (x = some true ↔ P) := by
  obtain ⟨r, rfl, hr⟩ := h
  rw [Option.some.injEq]
  exact ⟨rfl, hr⟩

lemma lt_spec (a b : CStrKey) : Returns (a.1.lt b.1) fun r => r = true ↔ rank a.content < rank b.content :=
  (cStr_shown b.2).bind fun _ ht => ltChars_spec a.2 ht

lemma gt_spec (a b : CStrKey) : Returns (a.1.gt b.1) fun r => r = true ↔ rank b.content < rank a.content :=
  (cStr_shown b.2).bind fun _ ht => gtChars_spec a.2 ht

lemma le_spec (a b : CStrKey) : Returns (a.1.le b.1) fun r => r = true ↔ rank a.content ≤ rank b.content :=
  (cStr_shown b.2).bind fun _ ht => leChars_spec a.2 ht

lemma ge_spec (a b : CStrKey) : Returns (a.1.ge b.1) fun r => r = true ↔ rank b.content ≤ rank a.content :=
  (cStr_shown b.2).bind fun _ ht => geChars_spec a.2 ht

lemma ne_spec (a b : CStrKey) : Returns (a.1.ne b.1) fun r => r = true ↔ a.content ≠ b.content := by
  refine (eq_spec a.2 b.2).map fun r hr => ?_
  rw [Bool.not_eq_true', ← Bool.not_eq_true, hr]
  rfl

lemma ranked : comparisons.Ranked (fun a => rank a.content) content where
  lt_iff a b := (answers (lt_spec a b)).2
  gt_iff a b := (answers (gt_spec a b)).2
  le_iff a b := (answers (le_spec a b)).2
  ge_iff a b := (answers (ge_spec a b)).2
  eq_iff a b := (answers (eq_spec a.2 b.2)).2
  ne_iff a b := (answers (ne_spec a b)).2
  rank_eq _ _ h := congrArg rank h

lemma answered (a b : CStrKey) : Answered a b := by
  intro op hop
  simp only [List.mem_cons, List.not_mem_nil, or_false] at hop
  rcases hop with rfl | rfl | rfl | rfl | rfl | rfl
  · exact (answers (lt_spec a b)).1
  · exact (answers (gt_spec a b)).1
  · exact (answers (le_spec a b)).1
  · exact (answers (ge_spec a b)).1
  · exact (answers (eq_spec a.2 b.2)).1
  · exact (answers (ne_spec a b)).1

lemma rank_eq_iff {s t : List UInt8} : rank s = rank t ↔ cText s = cText t :=
  (List.map_injective_iff.mpr fun _ _ h => UInt8.toNat_inj.mp h).eq_iff

theorem comparisons_consistent_iff (a b : CStrKey) : IsStrictWeakOrder CStrKey comparisons.lt ∧ Answered a b ∧
    (comparisons.Consistent a b ↔ (cText a.content = cText b.content → a.content = b.content)) := by
  refine ⟨ranked.strictWeakOrder, answered a b, ?_⟩
  rw [ranked.consistent_iff, rank_eq_iff]

def zeroInside (c : UInt8) : CStrKey :=
  ⟨⟨.empty, ⟨3, 31, none, 97 :: 0 :: c :: List.replicate 29 0⟩⟩,
    3, 31, _, ⟨rfl, rfl, rfl, rfl⟩, ⟨le_rfl, le_rfl, by norm_num⟩, by norm_num, by norm_num, rfl⟩

theorem two_keys_one_entry : comparisons.SameEntry (zeroInside 98) (zeroInside 99) ∧
    ¬comparisons.eq (zeroInside 98) (zeroInside 99) ∧ ¬comparisons.Consistent (zeroInside 98) (zeroInside 99) := by
  have hlt : (zeroInside 98).1.lt (zeroInside 99).1 = some false := by
    rfl
  have hgt : (zeroInside 99).1.lt (zeroInside 98).1 = some false := by
    rfl
  have heq : (zeroInside 98).1.eq (zeroInside 99).1 = some false := by
    rfl
  have hfalse : some false ≠ some true := by
    decide
  have hsame : comparisons.SameEntry (zeroInside 98) (zeroInside 99) :=
    ⟨fun h => hfalse (hlt.symm.trans h), fun h => hfalse (hgt.symm.trans h)⟩
  have hne : ¬comparisons.eq (zeroInside 98) (zeroInside 99) := fun h => hfalse (heq.symm.trans h)
  exact ⟨hsame, hne, fun h => hne (h.same_iff.mp hsame)⟩

end CStrKey

end Xframe.Comserv
