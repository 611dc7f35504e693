import Xframe.Lib.TwosComplement
import Xframe.Lib.Base128
import Xframe.Comserv.CStrAppend

/-! The functions of `CStr` that append an `int` in binary: in as few bytes as it takes, and in groups of seven bits. -/

namespace Xframe.Comserv.CStrObject

open Xframe.Lib Xframe.Lib.Act Xframe.Lib.TwosComplement Xframe.Transport

/-- The bytes from `p` on, of which there are `len`. The condition on `len` stands only before the first of the two
signs, so that the other one can read `p[1]` behind the last byte, which has no result. -/
def stripped : List UInt8 → Option (List UInt8)
  | [] => none
  | [p₀] => if p₀ = 255 then none else some [p₀]
  | p₀ :: p₁ :: p =>
    if p₀ = 0 ∧ p₁ &&& 128 = 0 ∨ p₀ = 255 ∧ p₁ &&& 128 ≠ 0 then stripped (p₁ :: p) else some (p₀ :: p₁ :: p)

section Operations

variable (noise : ℕ → UInt8)

def intCatShort (i : BitVec 32) : Op Unit :=
  match stripped (encodeInt i.toInt) with
  | none => Act.fault
  | some p => nCat noise p

/-- The bytes of `intCatUtf8`, where `/` and `%` are those of an `int` and a byte keeps what fits. -/
def utf8 (i : ℤ) : List UInt8 :=
  let highByte := UInt8.ofInt (i.tdiv 256)
  let lowerByte := UInt8.ofInt (i.tmod 256)
  let middle := (lowerByte >>> (6 : UInt8)) &&& 3
  let last := 128 ||| (lowerByte &&& 63)
  if highByte = 0 ∧ lowerByte < 128 then [lowerByte]
  else if highByte < 8 then [192 ||| ((highByte <<< (2 : UInt8)) &&& 28) ||| middle, last]
  else [224 ||| (highByte >>> (4 : UInt8)), 128 ||| ((highByte <<< (2 : UInt8)) &&& 60) ||| middle, last]

def intCatUtf8 (i : ℤ) : Op Unit :=
  match utf8 i with
  | [c] => appendChar noise c
  | c => nCat noise c

def septets : List (BitVec 32 × ℕ) :=
  [(0xF0000000, 28), (0x0FE00000, 21), (0x001FC000, 14), (0x00003F80, 7), (0x0000007F, 0)]

def intCat7From (id : BitVec 32) : Bool → List (BitVec 32 × ℕ) → Op Unit
  | _, [] => pure ()
  | begun, (mask, bitPos) :: rest => do
    let c := UInt8.ofBitVec (((id &&& mask).sshiftRight bitPos).setWidth 8)
    if c ≠ 0 ∨ begun ∨ rest = [] then do
      appendChar noise (if rest = [] then c else c ||| 128)
      intCat7From id true rest
    else intCat7From id begun rest

def intCat7 (id : BitVec 32) : Op Unit := intCat7From noise id false septets

lemma intCatUtf8_done {m : CStrMem} (hv : Valid m) {i : ℤ} (h : ¬Oversized m.str.capacity (m.str.length + (utf8 i).length)) :
    Ends (intCatUtf8 noise i) m (fun _ t => Holds m (m.content ++ utf8 i) t) fun _ => False := by
  rw [intCatUtf8]
  split
  next c hc =>
    rw [hc] at h ⊢
    exact nCat_done noise hv h
  next => exact nCat_done noise hv h

end Operations

section Short

variable {p bs : List UInt8} {b c : UInt8}

lemma top_bit_table : ∀ n < 256, UInt8.ofNat n &&& 128 = 0 ↔ n < 128 := by
  decide +kernel

lemma top_bit_iff (c : UInt8) : c &&& 128 = 0 ↔ c.toNat < 128 := by
  have htable := top_bit_table c.toNat c.toNat_lt
  rwa [UInt8.ofNat_toNat] at htable

lemma redundant_iff : b = 0 ∧ c &&& 128 = 0 ∨ b = 255 ∧ c &&& 128 ≠ 0 ↔ Redundant b c := by
  rw [Redundant, ne_eq, top_bit_iff, not_lt]

inductive Stripped : List UInt8 → Option (List UInt8) → Prop
  | beyond : Stripped [255] none
  | last {b : UInt8} : b ≠ 255 → Stripped [b] (some [b])
  | kept {b c : UInt8} {bs : List UInt8} : ¬Redundant b c → Stripped (b :: c :: bs) (some (b :: c :: bs))
  | step {b c : UInt8} {bs : List UInt8} {r : Option (List UInt8)} : Redundant b c → Stripped (c :: bs) r →
      Stripped (b :: c :: bs) r

lemma stripped_spec (b : UInt8) (bs : List UInt8) : Stripped (b :: bs) (stripped (b :: bs)) := by
  induction bs generalizing b with
  | nil =>
    rw [stripped]
    split_ifs with hb
    · subst hb
      exact .beyond
    · exact .last hb
  | cons c bs ih =>
    rw [stripped]
    simp only [redundant_iff]
    split_ifs with hred
    · exact .step hred (ih c)
    · exact .kept hred

lemma Stripped.spec (h : Stripped bs (some p)) :
    p ≠ [] ∧ p.length ≤ bs.length ∧ TwosComplement.value p = TwosComplement.value bs ∧ Minimal p ∧ p ≠ [255] := by
  generalize hr : some p = r at h
  induction h with
  | beyond => cases hr
  | last hb =>
    cases hr
    exact ⟨List.cons_ne_nil _ _, le_rfl, rfl, trivial, by simpa using hb⟩
  | kept hred =>
    cases hr
    exact ⟨List.cons_ne_nil _ _, le_rfl, rfl, hred, by simp⟩
  | step hred _ ih =>
    obtain ⟨hne, hlen, hvalue, hminimal, hover⟩ := ih hr
    exact ⟨hne, hlen.trans (by simp), hvalue.trans (value_redundant hred _).symm, hminimal, hover⟩

lemma Stripped.none_value (h : Stripped bs none) : TwosComplement.value bs = -1 := by
  generalize hr : none = r at h
  induction h with
  | beyond => decide
  | last hb => cases hr
  | kept hred => cases hr
  | step hred _ ih => rw [value_redundant hred, ih hr]

lemma Stripped.value_ne (h : Stripped bs (some p)) : TwosComplement.value p ≠ -1 := by
  obtain ⟨hne, -, -, hminimal, hover⟩ := h.spec
  intro hvalue
  have hlen := hminimal.le_length (List.cons_ne_nil 255 []) (by rw [hvalue]; decide)
  match p, hne with
  | [b], _ =>
    have hb := b.toNat_lt
    have h255 : b = 255 := by
      apply UInt8.toNat_inj.mp
      change b.toNat = 255
      rw [TwosComplement.value, unsigned] at hvalue
      simp at hvalue
      split_ifs at hvalue
      all_goals omega
    exact hover (by rw [h255])
  | _ :: _ :: _, _ => simp at hlen

def width (i : ℤ) : ℕ :=
  if -2 ^ 7 ≤ i ∧ i < 2 ^ 7 then 1 else if -2 ^ 15 ≤ i ∧ i < 2 ^ 15 then 2 else if -2 ^ 23 ≤ i ∧ i < 2 ^ 23 then 3 else 4

lemma length_minimal (h : Minimal p) (hlen : p.length ≤ 4) : p.length = width (TwosComplement.value p) := by
  match p, h with
  | [b], _ =>
    have hupper := value_lt b []
    have hlower := le_value b []
    simp only [List.length_nil, pow_zero, mul_one] at hupper hlower
    rw [width, if_pos (by omega)]
    rfl
  | b :: c :: bs, h =>
    have hupper := value_lt b (c :: bs)
    have hlower := le_value b (c :: bs)
    have houtside := value_outside h bs
    generalize TwosComplement.value (b :: c :: bs) = v at hupper hlower houtside
    rcases bs with _ | ⟨x, _ | ⟨y, _ | ⟨z, bs⟩⟩⟩
    · simp only [List.length_cons, List.length_nil] at hupper hlower houtside ⊢
      rw [width, if_neg (by omega), if_pos (by omega)]
    · simp only [List.length_cons, List.length_nil] at hupper hlower houtside ⊢
      rw [width, if_neg (by omega), if_neg (by omega), if_pos (by omega)]
    · simp only [List.length_cons, List.length_nil] at hupper hlower houtside ⊢
      rw [width, if_neg (by omega), if_neg (by omega), if_neg (by omega)]
    · simp only [List.length_cons] at hlen
      omega

lemma value_encodeInt {n : ℤ} (h0 : -2 ^ 31 ≤ n) (h : n < 2 ^ 31) : TwosComplement.value (encodeInt n) = n := by
  rw [encodeInt, CSocket.htonl, Msg.TMsgAddress.uint]
  simp only [TwosComplement.value, unsigned, UInt8.toNat_ofNat', List.length_cons, List.length_nil]
  norm_num
  rw [max_eq_left (Int.emod_nonneg n (by decide))]
  split_ifs
  all_goals omega

structure Shortest (p : List UInt8) (i : ℤ) : Prop where
  pos : 1 ≤ p.length
  le : p.length ≤ 4
  value_eq : TwosComplement.value p = i
  least : ∀ q, q ≠ [] → TwosComplement.value q = i → p.length ≤ q.length

lemma stripped_shortest {i : BitVec 32} (h : stripped (encodeInt i.toInt) = some p) :
    Shortest p i.toInt ∧ p.length = width i.toInt ∧ i ≠ -1 := by
  have hspec : Stripped (encodeInt i.toInt) (stripped (encodeInt i.toInt)) := stripped_spec _ _
  have hvalue : TwosComplement.value (encodeInt i.toInt) = i.toInt :=
    value_encodeInt (by have := i.le_toInt; omega) (by have := i.toInt_lt; omega)
  rw [h] at hspec
  obtain ⟨hne, hlen, hsame, hminimal, -⟩ := hspec.spec
  have heq := hsame.trans hvalue
  refine ⟨⟨List.length_pos_iff.mpr hne, hlen, heq, fun q hq hqi => hminimal.le_length hq (hqi.trans heq.symm)⟩, ?_, ?_⟩
  · rw [length_minimal hminimal hlen, heq]
  · rintro rfl
    exact hspec.value_ne heq

lemma stripped_none {i : BitVec 32} (h : stripped (encodeInt i.toInt) = none) : i = -1 := by
  have hspec : Stripped (encodeInt i.toInt) (stripped (encodeInt i.toInt)) := stripped_spec _ _
  rw [h] at hspec
  have hvalue := value_encodeInt (n := i.toInt) (by have := i.le_toInt; omega) (by have := i.toInt_lt; omega)
  exact BitVec.eq_of_toInt_eq (hvalue.symm.trans hspec.none_value)

variable {m : CStrMem} (noise : ℕ → UInt8)

theorem intCatShort_iff (hv : Valid m) (i : BitVec 32) :
    Ends (intCatShort noise i) m (fun _ t => ∃ p, t.content = m.content ++ p ∧ Shortest p i.toInt) (fun _ => False) ↔
      i ≠ -1 ∧ ¬Oversized m.str.capacity (m.str.length + width i.toInt) := by
  rw [intCatShort]
  match h : stripped (encodeInt i.toInt) with
  | none =>
    refine iff_of_false (fun hends => hends) fun hne => hne.1 (stripped_none h)
  | some p =>
    obtain ⟨hshort, hlen, hne⟩ := stripped_shortest h
    have hle := hshort.le
    rw [and_iff_right hne, ← hlen]
    constructor
    · intro hends hover
      exact nCat_not_done noise hv (by omega) hover _ hends
    · intro hroom
      exact (nCat_done noise hv hroom).mono (fun _ t ht => ⟨p, ht.content, hshort⟩) fun _ ht => ht

theorem intCatShort_five : Ends (intCatShort (fun _ => 0) 5) StrObject.empty
    (fun _ t => ∃ p, t.content = StrObject.empty.content ++ p ∧ Shortest p 5) fun _ => False :=
  (intCatShort_iff (fun _ => 0) StrObject.empty_valid 5).mpr ⟨by decide, fun h => absurd h.2 (by decide)⟩

theorem intCatShort_reads_beyond : ¬∀ i : BitVec 32, Ends (intCatShort (fun _ => 0) i) StrObject.empty
    (fun _ t => ∃ p, t.content = StrObject.empty.content ++ p ∧ Shortest p i.toInt) fun _ => False :=
  fun h => by
    have hover := h (-1)
    have hnone : intCatShort (fun _ => 0) (-1) StrObject.empty = none := by
      decide +kernel
    rw [Ends, hnone] at hover
    exact hover

end Short

section Seven

variable {m t : CStrMem} {g : List UInt8} (noise : ℕ → UInt8)

def groups (id : BitVec 32) : Bool → List (BitVec 32 × ℕ) → List UInt8
  | _, [] => []
  | begun, (mask, bitPos) :: rest =>
    let c := UInt8.ofBitVec (((id &&& mask).sshiftRight bitPos).setWidth 8)
    if c ≠ 0 ∨ begun ∨ rest = [] then (if rest = [] then c else c ||| 128) :: groups id true rest
    else groups id begun rest

lemma intCat7From_ends (hv : Valid m) (id : BitVec 32) (begun : Bool) (l : List (BitVec 32 × ℕ)) :
    Ends (intCat7From noise id begun l) m (fun _ t => Holds m (m.content ++ groups id begun l) t)
      fun _ => Oversized m.str.capacity (m.str.length + (groups id begun l).length) := by
  induction l generalizing m begun with
  | nil =>
    rw [groups, List.append_nil]
    exact Holds.refl hv
  | cons d rest ih =>
    obtain ⟨mask, bitPos⟩ := d
    rw [intCat7From, groups]
    set c := UInt8.ofBitVec (((id &&& mask).sshiftRight bitPos).setWidth 8)
    by_cases happends : c ≠ 0 ∨ begun = true ∨ rest = []
    · rw [if_pos happends, if_pos happends]
      generalize (if rest = [] then c else c ||| 128) = d
      refine ((appendChar_holds noise hv d).mono (fun _ _ ht => ht.1) fun t ht => ?_).bind fun _ t ht => ?_
      · exact ht.2.mono le_rfl (by rw [List.length_cons]; push_cast; omega)
      have hlen := ht.length
      have hlen' := length_content hv
      rw [List.length_append, List.length_singleton] at hlen
      refine (ih ht.kept.1 true).mono (fun _ u hu => ?_) fun u hu => ?_
      · have htrans := ht.trans hu
        rwa [ht.content, List.append_assoc] at htrans
      · exact hu.mono ht.grown (by rw [List.length_cons]; push_cast at hlen ⊢; omega)
    · rw [if_neg happends, if_neg happends]
      exact ih hv begun

def shown : Bool → List UInt8 → List UInt8
  | _, [] => []
  | begun, c :: cs =>
    if c ≠ 0 ∨ begun ∨ cs = [] then (if cs = [] then c else c ||| 128) :: shown true cs else shown begun cs

lemma groups_eq (id : BitVec 32) (begun : Bool) (l : List (BitVec 32 × ℕ)) : groups id begun l =
    shown begun (l.map fun d => UInt8.ofBitVec (((id &&& d.1).sshiftRight d.2).setWidth 8)) := by
  induction l generalizing begun with
  | nil => rw [groups, List.map_nil, shown]
  | cons d rest ih =>
    obtain ⟨mask, bitPos⟩ := d
    simp only [groups, List.map_cons, shown, List.map_eq_nil_iff, ih]

lemma or_top_table : ∀ n < 256, (UInt8.ofNat n ||| 128).toNat % 128 = n % 128 ∧ 128 ≤ (UInt8.ofNat n ||| 128).toNat := by
  decide +kernel

lemma or_top (c : UInt8) : (c ||| 128).toNat % 128 = c.toNat % 128 ∧ 128 ≤ (c ||| 128).toNat := by
  have htable := or_top_table c.toNat c.toNat_lt
  rwa [UInt8.ofNat_toNat] at htable

variable {c : UInt8} {cs : List UInt8}

lemma shown_last (begun : Bool) (c : UInt8) : shown begun [c] = [c] := by
  rw [shown, if_pos (Or.inr (Or.inr rfl)), if_pos rfl, shown]

lemma shown_group (hcs : cs ≠ []) (hlast : (cs.getLast hcs).toNat < 128) (begun : Bool) : Base128.Group (shown begun cs) := by
  induction cs generalizing begun with
  | nil => exact absurd rfl hcs
  | cons c cs ih =>
    by_cases hnil : cs = []
    · subst hnil
      rw [shown_last]
      exact .last hlast
    · rw [List.getLast_cons hnil] at hlast
      rw [shown, if_neg hnil]
      split_ifs
      · exact .more (or_top c).2 (ih hnil hlast true)
      · exact ih hnil hlast begun

lemma length_shown_le (begun : Bool) (cs : List UInt8) : (shown begun cs).length ≤ cs.length := by
  induction cs generalizing begun with
  | nil => rfl
  | cons c cs ih =>
    rw [shown, List.length_cons]
    split_ifs
    · exact Nat.succ_le_succ (ih true)
    · exact Nat.succ_le_succ (ih true)
    · exact (ih begun).trans (Nat.le_succ _)

lemma shown_true (c : UInt8) (cs : List UInt8) :
    shown true (c :: cs) = (if cs = [] then c else c ||| 128) :: shown true cs :=
  if_pos (Or.inr (Or.inl rfl))

lemma length_shown_true (cs : List UInt8) : (shown true cs).length = cs.length := by
  induction cs with
  | nil => rfl
  | cons c cs ih => rw [shown_true, List.length_cons, List.length_cons, ih]

lemma value_shown (begun : Bool) (cs : List UInt8) :
    Base128.value (shown begun cs).reverse = Base128.value cs.reverse := by
  induction cs generalizing begun with
  | nil => rfl
  | cons c cs ih =>
    rw [shown]
    by_cases hshown : c ≠ 0 ∨ begun = true ∨ cs = []
    · have hlow : (if cs = [] then c else c ||| 128).toNat % 128 = c.toNat % 128 := by
        split_ifs
        · rfl
        · exact (or_top c).1
      rw [if_pos hshown, Base128.value_reverse_cons, Base128.value_reverse_cons, ih, hlow, length_shown_true]
    · have hzero : c = 0 := by
        by_contra hne
        exact hshown (Or.inl hne)
      rw [if_neg hshown, ih, Base128.value_reverse_cons, hzero, UInt8.toNat_zero, Nat.zero_mod, Nat.mul_zero, Nat.add_zero]

lemma shown_first (hcs : ∀ c ∈ cs, c ≠ 0 → c.toNat % 128 ≠ 0) :
    ∀ b ∈ (shown false cs).head?, (shown false cs).length = 1 ∨ b.toNat % 128 ≠ 0 := by
  induction cs with
  | nil => simp [shown]
  | cons c cs ih =>
    rw [List.forall_mem_cons] at hcs
    by_cases hnil : cs = []
    · subst hnil
      rw [shown_last]
      exact fun _ _ => Or.inl rfl
    rw [shown]
    by_cases hc : c = 0
    · rw [if_neg (by simp [hc, hnil])]
      exact ih hcs.2
    · rw [if_pos (Or.inl hc), if_neg hnil]
      intro b hb
      obtain rfl : c ||| 128 = b := Option.some.inj hb
      right
      rw [(or_top c).1]
      exact hcs.1 hc

section Septets

variable (id : BitVec 32)

lemma septet_toNat (k : ℕ) : (UInt8.ofBitVec ((id >>> k).setWidth 8 &&& 127)).toNat = id.toNat / 2 ^ k % 128 := by
  change ((id >>> k).setWidth 8 &&& 127).toNat = _
  rw [BitVec.toNat_and, BitVec.toNat_setWidth, BitVec.toNat_ushiftRight, Nat.shiftRight_eq_div_pow]
  exact (Nat.and_two_pow_sub_one_eq_mod _ 7).trans (by omega)

lemma first_toNat : (UInt8.ofBitVec ((id.sshiftRight 28).setWidth 8)).toNat =
    if id.toNat < 2 ^ 31 then id.toNat / 2 ^ 28 else id.toNat / 2 ^ 28 + 240 := by
  have hlt := id.isLt
  change ((id.sshiftRight 28).setWidth 8).toNat = _
  rw [BitVec.toNat_setWidth, BitVec.toNat_sshiftRight, BitVec.msb_eq_decide, Nat.shiftRight_eq_div_pow,
    Nat.shiftRight_eq_div_pow]
  split_ifs with hneg hsmall hsmall
  all_goals
    rw [decide_eq_true_eq] at hneg
    omega

lemma septets_eq : septets.map (fun d => UInt8.ofBitVec (((id &&& d.1).sshiftRight d.2).setWidth 8)) =
    [.ofBitVec ((id.sshiftRight 28).setWidth 8), .ofBitVec ((id >>> 21).setWidth 8 &&& 127),
      .ofBitVec ((id >>> 14).setWidth 8 &&& 127), .ofBitVec ((id >>> 7).setWidth 8 &&& 127),
      .ofBitVec ((id >>> 0).setWidth 8 &&& 127)] := by
  simp only [septets, List.map_cons, List.map_nil, List.cons.injEq, UInt8.ofBitVec.injEq, and_true]
  refine ⟨?_, ?_, ?_, ?_, ?_⟩
  all_goals
    apply BitVec.eq_of_getLsbD_eq
    intro i hi
    interval_cases i <;> simp [BitVec.getElem_sshiftRight, BitVec.msb]

end Septets

structure SevenBits (g : List UInt8) (id : BitVec 32) : Prop where
  pos : 1 ≤ g.length
  le : g.length ≤ 5
  group : Base128.Group g
  first : ∀ b ∈ g.head?, g.length = 1 ∨ b.toNat % 128 ≠ 0
  value_eq : Base128.value g.reverse % 2 ^ 32 = id.toNat

lemma sevenBits_groups (id : BitVec 32) : SevenBits (groups id false septets) id := by
  have hlt := id.isLt
  have hfirst := first_toNat id
  rw [groups_eq, septets_eq]
  set cs : List UInt8 := [.ofBitVec ((id.sshiftRight 28).setWidth 8), .ofBitVec ((id >>> 21).setWidth 8 &&& 127),
      .ofBitVec ((id >>> 14).setWidth 8 &&& 127), .ofBitVec ((id >>> 7).setWidth 8 &&& 127),
      .ofBitVec ((id >>> 0).setWidth 8 &&& 127)] with hcs
  have hlow : ∀ c ∈ cs, c ≠ 0 → c.toNat % 128 ≠ 0 := by
    intro c hc hne hzero
    have hnat : c.toNat ≠ 0 := fun h => hne (UInt8.toNat_inj.mp h)
    simp only [hcs, List.mem_cons, List.not_mem_nil, or_false] at hc
    rcases hc with rfl | rfl | rfl | rfl | rfl
    · rw [hfirst] at hzero hnat
      split_ifs at hzero hnat
      all_goals omega
    all_goals
      rw [septet_toNat] at hzero hnat
      omega
  have hgroup : Base128.Group (shown false cs) := by
    have hne : cs ≠ [] := List.cons_ne_nil _ _
    refine shown_group hne ?_ false
    change (UInt8.ofBitVec ((id >>> 0).setWidth 8 &&& 127)).toNat < 128
    rw [septet_toNat]
    omega
  refine ⟨hgroup.pos, length_shown_le false cs, hgroup, shown_first hlow, ?_⟩
  rw [value_shown, hcs]
  simp only [List.reverse_cons, List.reverse_nil, List.nil_append, List.cons_append, Base128.value, septet_toNat, hfirst]
  split_ifs
  all_goals omega

theorem intCat7_groups (hv : Valid m) (id : BitVec 32) : ∃ g, SevenBits g id ∧
    Ends (intCat7 noise id) m (fun _ t => Holds m (m.content ++ g) t)
      fun _ => Oversized m.str.capacity (m.str.length + g.length) :=
  ⟨groups id false septets, sevenBits_groups id, intCat7From_ends noise hv id false septets⟩

theorem intCat7_minus_one : ∃ g, SevenBits g (-1) ∧
    Ends (intCat7 (fun _ => 0) (-1)) StrObject.empty (fun _ t => Holds StrObject.empty (StrObject.empty.content ++ g) t)
      fun _ => Oversized StrObject.empty.str.capacity (StrObject.empty.str.length + g.length) :=
  intCat7_groups (fun _ => 0) StrObject.empty_valid (-1)

end Seven

end Xframe.Comserv.CStrObject
