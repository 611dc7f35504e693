import Xframe.Facility.PsaRscInit
import Xframe.Msg.UriText

/-! `isValidIPv4` on the memory of one string: what the address loops read up to its end, and behind it. -/

namespace Xframe.Facility.IPv4

open Xframe.Lib Xframe.Msg

/-- The inner loop with `n` places left in `temp`. The end of the memory is behind the zero of the string. -/
def field : ℕ → List UInt8 → Option (CStr × List UInt8)
  | _, [] => none
  | n, c :: ip =>
    match n with
    | 0 => some ([], c :: ip)
    | n + 1 => if c = 46 then some ([], c :: ip) else (field n ip).map fun (temp, rest) => (c :: temp, rest)

def fields : ℕ → List UInt8 → Option Bool
  | _, [] => none
  | n, c :: ip =>
    match n with
    | 0 => some (c = 0)
    | n + 1 =>
      if c = 0 then some false
      else do
        let (temp, ip) ← field 3 (c :: ip)
        let num := CStr.toInt temp
        if n = 3 ∧ num = 0 then some false
        else if num < 0 ∨ 255 < num then some false
        else fields n (ip.drop 1)

/-- A read behind the zero of the string has no result. -/
def isValidIPv4 (ip : Option CStr) : Option Bool :=
  match ip with
  | none => some false
  | some s => if s = [] then some false else fields 4 (s ++ [0])

structure IsOctet (f : CStr) : Prop where
  nonempty : f ≠ []
  short : f.length ≤ 3
  digits : ∀ c ∈ f, CStr.isDigit c
  le : CStr.digits f ≤ 255

def IsAddress (s : CStr) : Prop :=
  ∃ a b c d, IsOctet a ∧ IsOctet b ∧ IsOctet c ∧ IsOctet d ∧ CStr.digits a ≠ 0 ∧
    s = a ++ 46 :: (b ++ 46 :: (c ++ 46 :: d))

structure Field (n : ℕ) (f rest : CStr) : Prop where
  short : f.length ≤ n
  noDot : 46 ∉ f
  stops : f.length = n ∨ rest.head? = some 46

def BadField (n : ℕ) (f : CStr) : Prop := n = 3 ∧ CStr.toInt f = 0 ∨ CStr.toInt f < 0 ∨ 255 < CStr.toInt f

/-- With `n` fields to come the text is refused before its end is passed: it ends too early right behind a
separator, goes on behind the fourth one, or has a field with a bad number in it. -/
inductive Rejected : ℕ → CStr → Prop
  | early {n : ℕ} : Rejected (n + 1) []
  | late {s : CStr} : s ≠ [] → Rejected 0 s
  | bad {n : ℕ} {f rest : CStr} : Field 3 f rest → BadField n f → Rejected (n + 1) (f ++ rest)
  | next {n : ℕ} {f rest : CStr} {c : UInt8} : Field 3 f (c :: rest) → ¬BadField n f → Rejected n rest →
      Rejected (n + 1) (f ++ c :: rest)

variable {n : ℕ} {s f rest r : CStr}

lemma Field.ne_nil (h : Field 3 f rest) : f ++ rest ≠ [] := by
  intro hnil
  obtain ⟨rfl, rfl⟩ := List.append_eq_nil_iff.mp hnil
  rcases h.stops with hlen | hdot
  · simp at hlen
  · simp at hdot

lemma field_zero (hs : s ≠ []) : field 0 s = some ([], s) := by
  cases s with
  | nil => exact absurd rfl hs
  | cons c s => rfl

lemma field_dot (n : ℕ) (s : CStr) : field n (46 :: s) = some ([], 46 :: s) := by
  cases n with
  | zero => rfl
  | succ n => exact if_pos rfl

lemma field_succ {c : UInt8} (hc : c ≠ 46) (n : ℕ) (s : CStr) :
    field (n + 1) (c :: s) = (field n s).map fun p => (c :: p.1, p.2) :=
  if_neg hc

lemma field_of (h : Field n f rest) : field n ((f ++ rest) ++ [0]) = some (f, rest ++ [0]) := by
  obtain ⟨hshort, hdot, hstops⟩ := h
  induction f generalizing n with
  | nil =>
    rcases hstops with hlen | hhead
    · obtain rfl : n = 0 := hlen.symm
      exact field_zero (by simp)
    · obtain ⟨rest', rfl⟩ := List.head?_eq_some_iff.mp hhead
      exact field_dot n _
  | cons c f ih =>
    rw [List.mem_cons, not_or] at hdot
    match n, hshort with
    | n + 1, hshort =>
      have htail := ih (n := n) (by simpa using hshort) hdot.2 (hstops.imp (by simp) id)
      rw [List.cons_append, List.cons_append, field_succ (Ne.symm hdot.1), htail, Option.map_some]

lemma of_field (h : field n (s ++ [0]) = some (f, r)) : ∃ rest, s = f ++ rest ∧ r = rest ++ [0] ∧ Field n f rest := by
  induction s generalizing n f r with
  | nil =>
    cases n with
    | zero =>
      rw [field_zero (by simp)] at h
      obtain ⟨rfl, rfl⟩ := Prod.mk.inj (Option.some.inj h)
      exact ⟨[], rfl, rfl, le_rfl, List.not_mem_nil, Or.inl rfl⟩
    | succ n =>
      rw [List.nil_append, field_succ (by decide), field] at h
      simp at h
  | cons c s ih =>
    cases n with
    | zero =>
      rw [field_zero (by simp)] at h
      obtain ⟨rfl, rfl⟩ := Prod.mk.inj (Option.some.inj h)
      exact ⟨c :: s, rfl, rfl, le_rfl, List.not_mem_nil, Or.inl rfl⟩
    | succ n =>
      by_cases hc : c = 46
      · subst hc
        rw [List.cons_append, field_dot] at h
        obtain ⟨rfl, rfl⟩ := Prod.mk.inj (Option.some.inj h)
        exact ⟨46 :: s, rfl, rfl, Nat.zero_le _, List.not_mem_nil, Or.inr rfl⟩
      · rw [List.cons_append, field_succ hc, Option.map_eq_some_iff] at h
        obtain ⟨⟨f', r'⟩, hf', hpair⟩ := h
        obtain ⟨rfl, rfl⟩ := Prod.mk.inj hpair
        obtain ⟨rest, rfl, hr, hshort, hdot, hstops⟩ := ih hf'
        refine ⟨rest, rfl, hr, Nat.succ_le_succ hshort, ?_, hstops.imp (congrArg Nat.succ) id⟩
        rw [List.mem_cons, not_or]
        exact ⟨Ne.symm hc, hdot⟩

lemma fields_field (h : Field 3 f rest) (h0 : 0 ∉ f ++ rest) (n : ℕ) :
    (BadField n f → fields (n + 1) (f ++ rest ++ [0]) = some false) ∧
      (¬BadField n f → fields (n + 1) (f ++ rest ++ [0]) = fields n ((rest ++ [0]).drop 1)) := by
  obtain ⟨c, s, hs⟩ := List.exists_cons_of_ne_nil h.ne_nil
  have hc : c ≠ 0 := by
    intro hzero
    rw [hs, hzero] at h0
    exact h0 List.mem_cons_self
  have hfield := field_of h
  rw [hs] at hfield ⊢
  rw [List.cons_append] at hfield ⊢
  have hstep : fields (n + 1) (c :: (s ++ [0])) = if n = 3 ∧ CStr.toInt f = 0 then some false
      else if CStr.toInt f < 0 ∨ 255 < CStr.toInt f then some false else fields n ((rest ++ [0]).drop 1) := by
    rw [fields, if_neg hc, hfield]
    rfl
  rw [hstep, BadField]
  constructor
  · rintro (hfirst | hbad)
    · exact if_pos hfirst
    · rw [if_pos hbad, ite_self]
  · intro hgood
    rw [not_or] at hgood
    rw [if_neg hgood.1, if_neg hgood.2]

lemma fields_over (h : Field 3 f []) (h0 : 0 ∉ f) (hgood : ¬BadField n f) : fields (n + 1) (f ++ [0]) = none := by
  have hstep := (fields_field h (by rwa [List.append_nil]) n).2 hgood
  rw [List.append_nil] at hstep
  rw [hstep]
  cases n <;> rfl

lemma Rejected.fields (h : Rejected n s) (h0 : 0 ∉ s) : fields n (s ++ [0]) = some false := by
  induction h with
  | early => rfl
  | @late s hs =>
    match s, hs with
    | c :: s, _ =>
      have hc : c ≠ 0 := fun h => h0 (h ▸ List.mem_cons_self)
      exact congrArg some (decide_eq_false hc)
  | bad hfield hbad => exact (fields_field hfield h0 _).1 hbad
  | next hfield hgood _ ih =>
    rw [(fields_field hfield h0 _).2 hgood]
    refine ih fun hmem => h0 ?_
    exact List.mem_append_right _ (List.mem_cons_of_mem _ hmem)

lemma fields_none (hf : field 3 (s ++ [0]) = none) (hs : s ≠ []) (h0 : 0 ∉ s) (n : ℕ) :
    fields (n + 1) (s ++ [0]) = none := by
  match s, hs with
  | c :: s, _ =>
    have hc : c ≠ 0 := fun h => h0 (h ▸ List.mem_cons_self)
    rw [List.cons_append] at hf ⊢
    rw [fields, if_neg hc, hf]
    rfl

lemma rejected_of_fields (h : fields n (s ++ [0]) = some false) (h0 : 0 ∉ s) : Rejected n s := by
  induction n generalizing s with
  | zero =>
    refine .late ?_
    rintro rfl
    cases h
  | succ n ih =>
    by_cases hs : s = []
    · subst hs
      exact .early
    cases hf : field 3 (s ++ [0]) with
    | none =>
      rw [fields_none hf hs h0 n] at h
      cases h
    | some p =>
      obtain ⟨rest, rfl, hr, hfield⟩ := of_field hf
      by_cases hbad : BadField n p.1
      · exact .bad hfield hbad
      rw [(fields_field hfield h0 n).2 hbad] at h
      cases rest with
      | nil =>
        rw [List.nil_append, List.drop_one] at h
        cases n <;> cases h
      | cons c rest =>
        refine .next hfield hbad (ih h fun hmem => h0 ?_)
        exact List.mem_append_right _ (List.mem_cons_of_mem _ hmem)

lemma IsOctet.noDot (h : IsOctet f) : 46 ∉ f := by
  intro hmem
  exact absurd (h.digits 46 hmem) (by decide)

lemma IsOctet.noZero (h : IsOctet f) : 0 ∉ f := by
  intro hmem
  exact absurd (h.digits 0 hmem) (by decide)

lemma IsOctet.toInt (h : IsOctet f) : CStr.toInt f = CStr.digits f := by
  obtain ⟨c, s, rfl⟩ := List.exists_cons_of_ne_nil h.nonempty
  have hnumber : CStr.number (c :: s) = CStr.digits (c :: s) := CStr.number_digits (h.digits c List.mem_cons_self)
  have hle := h.le
  rw [CStr.toInt_eq (by omega) (by omega), hnumber]

lemma IsOctet.good (h : IsOctet f) (hfirst : n = 3 → CStr.digits f ≠ 0) : ¬BadField n f := by
  have hle := h.le
  rw [BadField, h.toInt]
  rintro (⟨hn, hzero⟩ | hneg | hbig)
  · exact hfirst hn (by omega)
  · omega
  · omega

lemma IsOctet.fields_next (h : IsOctet f) (hgood : ¬BadField n f) (h0 : 0 ∉ rest) :
    fields (n + 1) (f ++ 46 :: rest ++ [0]) = fields n (rest ++ [0]) := by
  have hfield : Field 3 f (46 :: rest) := ⟨h.short, h.noDot, Or.inr rfl⟩
  refine (fields_field hfield ?_ n).2 hgood
  rw [List.mem_append, List.mem_cons, not_or, not_or]
  exact ⟨h.noZero, by decide, h0⟩

lemma IsOctet.fields_last (h : IsOctet f) (hgood : ¬BadField n f) : fields (n + 1) (f ++ [0]) = none := by
  by_cases hlen : f.length = 3
  · exact fields_over ⟨h.short, h.noDot, Or.inl hlen⟩ h.noZero hgood
  refine fields_none ?_ h.nonempty h.noZero n
  cases hf : field 3 (f ++ [0]) with
  | none => rfl
  | some p =>
    obtain ⟨rest, hrest, -, hfield⟩ := of_field hf
    rcases hfield.stops with hfull | hhead
    · have hshort := h.short
      rw [hrest, List.length_append, hfull] at hshort hlen
      omega
    · obtain ⟨rest', rfl⟩ := List.head?_eq_some_iff.mp hhead
      have hmem : 46 ∈ f := by
        rw [hrest]
        simp
      exact absurd hmem h.noDot

lemma IsAddress.fields (h : IsAddress s) : fields 4 (s ++ [0]) = none := by
  obtain ⟨a, b, c, d, ha, hb, hc, hd, hfirst, rfl⟩ := h
  have hd0 := hd.noZero
  have hcd : 0 ∉ c ++ 46 :: d := by
    rw [List.mem_append, List.mem_cons, not_or, not_or]
    exact ⟨hc.noZero, by decide, hd0⟩
  have hbcd : 0 ∉ b ++ 46 :: (c ++ 46 :: d) := by
    rw [List.mem_append, List.mem_cons, not_or, not_or]
    exact ⟨hb.noZero, by decide, hcd⟩
  rw [ha.fields_next (ha.good fun _ => hfirst) hbcd, hb.fields_next (hb.good fun h => absurd h (by decide)) hcd,
    hc.fields_next (hc.good fun h => absurd h (by decide)) hd0,
    hd.fields_last (hd.good fun h => absurd h (by decide))]

lemma isValidIPv4_eq (hs : s ≠ []) : isValidIPv4 s = fields 4 (s ++ [0]) := if_neg hs

theorem isValidIPv4_iff (s : CStr) (h0 : 0 ∉ s) :
    Returns (isValidIPv4 s) (fun b => b = true ↔ IsAddress s) ↔ Rejected 4 s := by
  by_cases hs : s = []
  · subst hs
    refine iff_of_true ⟨false, rfl, ?_⟩ .early
    refine iff_of_false Bool.false_ne_true ?_
    rintro ⟨a, b, c, d, ha, -, -, -, -, h⟩
    simp at h
  rw [isValidIPv4_eq hs]
  constructor
  · rintro ⟨b, hb, hiff⟩
    have hno : ¬IsAddress s := by
      intro h
      rw [h.fields] at hb
      cases hb
    have hfalse : b = false := Bool.eq_false_iff.mpr (mt hiff.mp hno)
    exact rejected_of_fields (hfalse ▸ hb) h0
  · intro h
    refine ⟨false, h.fields h0, iff_of_false Bool.false_ne_true fun haddr => ?_⟩
    have hnone := haddr.fields
    rw [h.fields h0] at hnone
    cases hnone

theorem isValidIPv4_256 : Returns (isValidIPv4 (some [50, 53, 54])) (fun b => b = true ↔ IsAddress [50, 53, 54]) :=
  have hfield : Field 3 [50, 53, 54] [] := ⟨by decide, by decide, Or.inl rfl⟩
  have hbad : BadField 3 [50, 53, 54] := Or.inr (Or.inr (by decide))
  (isValidIPv4_iff [50, 53, 54] (by decide)).mpr (Rejected.bad hfield hbad)

theorem address_read_beyond : ¬∀ s : CStr, 0 ∉ s → Returns (isValidIPv4 (some s)) fun b => b = true ↔ IsAddress s := by
  intro h
  obtain ⟨b, hb, -⟩ := h [49, 46, 50, 46, 51, 46, 52] (by decide)
  have hnone : isValidIPv4 (some [49, 46, 50, 46, 51, 46, 52]) = none := by
    decide
  rw [hnone] at hb
  cases hb

section Memory

variable {mem : ℕ → UInt8} {p : ℕ} {l temp ip : List UInt8}

def At (mem : ℕ → UInt8) (p : ℕ) (l : List UInt8) : Prop := ∀ i c, l[i]? = some c → mem (p + i) = c

lemma At.head {c : UInt8} (h : At mem p (c :: l)) : mem p = c := h 0 c rfl

lemma At.tail {c : UInt8} (h : At mem p (c :: l)) : At mem (p + 1) l := by
  intro i d hd
  rw [Nat.add_assoc, Nat.add_comm 1]
  exact h (i + 1) d hd

lemma octet_of_field {n : ℕ} (h : At mem p l) (hf : field n l = some (temp, ip)) :
    octet mem n p = temp ∧ At mem (p + temp.length) ip := by
  induction l generalizing n p temp ip with
  | nil =>
    rw [field] at hf
    cases hf
  | cons c l ih =>
    cases n with
    | zero =>
      rw [field_zero (List.cons_ne_nil c l)] at hf
      obtain ⟨rfl, rfl⟩ := Prod.mk.inj (Option.some.inj hf)
      exact ⟨rfl, h⟩
    | succ n =>
      rw [octet, h.head]
      by_cases hc : c = 46
      · subst hc
        rw [field_dot] at hf
        obtain ⟨rfl, rfl⟩ := Prod.mk.inj (Option.some.inj hf)
        exact ⟨if_pos rfl, h⟩
      · rw [field_succ hc, Option.map_eq_some_iff] at hf
        obtain ⟨⟨temp', ip'⟩, hf', hpair⟩ := hf
        obtain ⟨rfl, rfl⟩ := Prod.mk.inj hpair
        obtain ⟨htemp, hat⟩ := ih h.tail hf'
        rw [if_neg hc, htemp]
        refine ⟨rfl, ?_⟩
        rwa [List.length_cons, Nat.add_comm temp'.length, ← Nat.add_assoc]

lemma octets_of_fields {n : ℕ} {b : Bool} (h : At mem p l) (hf : fields n l = some b) : octets mem n p = b := by
  induction n generalizing p l with
  | zero =>
    cases l with
    | nil => cases hf
    | cons c l =>
      rw [octets, h.head]
      exact Option.some.inj hf
  | succ n ih =>
    cases l with
    | nil => cases hf
    | cons c l =>
      rw [octets, h.head]
      rw [fields] at hf
      by_cases hc : c = 0
      · rw [if_pos hc] at hf ⊢
        exact Option.some.inj hf
      rw [if_neg hc] at hf ⊢
      obtain ⟨⟨temp, ip⟩, hfield, hf⟩ := Option.bind_eq_some_iff.mp hf
      obtain ⟨htemp, hat⟩ := octet_of_field h hfield
      dsimp only at hf ⊢
      rw [htemp]
      split_ifs at hf ⊢
      · exact Option.some.inj hf
      · exact Option.some.inj hf
      · cases ip with
        | nil => cases n <;> cases hf
        | cons d ip => exact ih hat.tail hf

lemma isValidIPv4_memory {s : CStr} {b : Bool} (h : isValidIPv4 (some s) = some b) (beyond : ℕ → UInt8) :
    Facility.isValidIPv4 (memory s beyond) = b := by
  have hat : At (memory s beyond) 0 (s ++ [0]) := by
    intro i c hc
    rw [Nat.zero_add, memory, List.getD_eq_getElem?_getD, hc, Option.getD_some]
  by_cases hs : s = []
  · subst hs
    exact octets_of_fields hat h
  · rw [isValidIPv4_eq hs] at h
    exact octets_of_fields hat h

end Memory

end Xframe.Facility.IPv4
