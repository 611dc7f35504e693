import Mathlib.Data.List.TakeWhile
import Xframe.Lib.Occurrences
import Xframe.Comserv.CStrAppend
import Xframe.Comserv.CStrOrder

/-! `replace` of `CStr` as a loop that need not come to an end, and the text that it is to give. -/

namespace Xframe.Comserv.CStrObject

open Xframe.Lib Xframe.Lib.Act Xframe.Lib.Occurrences Xframe.Msg

section Turns

variable (noise : ℕ → UInt8)

/-- The loop of `replace` on its local string, which has no result if it is not over within `n` turns. -/
def replaceTurns (pattern replace : List UInt8) : ℕ → List UInt8 → Op Unit
  | 0, _ => Act.fault
  | n + 1, p =>
    match CStr.strstr pattern p with
    | none => appendStr noise p
    | some q => do
      nCat noise (p.take q)
      appendStr noise replace
      replaceTurns pattern replace n (p.drop (q + pattern.length))

def replaceWithin (n : ℕ) (pattern replace : List UInt8) : Op Unit := do
  let s ← cString 0
  let (length, src) ← onLocal noise (replaceTurns noise pattern replace n s)
  assign noise length src

end Turns

section Strstr

variable {pattern s : List UInt8} {q : ℕ}

lemma strstr_none (h : CStr.strstr pattern s = none) : ¬pattern <:+: s := by
  induction s with
  | nil =>
    rw [CStr.strstr] at h
    split_ifs at h with hp
    rw [List.infix_nil]
    exact hp
  | cons c s ih =>
    rw [CStr.strstr] at h
    split_ifs at h with hp
    rw [Option.map_eq_none_iff] at h
    rw [List.infix_cons_iff, not_or]
    exact ⟨fun hprefix => hp (List.isPrefixOf_iff_prefix.mpr hprefix), ih h⟩

lemma strstr_first (h : CStr.strstr pattern s = some q) : First pattern s (s.take q) (s.drop (q + pattern.length)) := by
  induction s generalizing q with
  | nil =>
    rw [CStr.strstr] at h
    split_ifs at h with hp
    subst hp
    exact ⟨by simp, by simp⟩
  | cons c s ih =>
    rw [CStr.strstr] at h
    split_ifs at h with hp
    · obtain rfl : 0 = q := Option.some.inj h
      obtain ⟨rest, hrest⟩ := List.isPrefixOf_iff_prefix.mp hp
      refine ⟨?_, by simp⟩
      rw [List.take_zero, List.nil_append, Nat.zero_add, ← hrest, List.drop_left]
    · obtain ⟨q', hq', rfl⟩ := Option.map_eq_some_iff.mp h
      obtain ⟨heq, hleast⟩ := ih hq'
      refine ⟨?_, fun a' b' hab => ?_⟩
      · rw [List.take_succ_cons, Nat.add_right_comm, List.drop_succ_cons, List.cons_append, ← heq]
      · cases a' with
        | nil =>
          refine absurd (List.isPrefixOf_iff_prefix.mpr ?_) hp
          exact ⟨b', hab.symm⟩
        | cons d a' =>
          rw [List.take_succ_cons, List.length_cons, List.length_cons]
          exact Nat.succ_le_succ (hleast a' b' (List.cons.inj hab).2)

lemma strstr_of_first {a b : List UInt8} (h : First pattern s a b) :
    ∃ q, CStr.strstr pattern s = some q ∧ s.take q = a ∧ s.drop (q + pattern.length) = b := by
  cases hq : CStr.strstr pattern s with
  | none => exact absurd h.occurs (strstr_none hq)
  | some q =>
    obtain ⟨ha, hb⟩ := (strstr_first hq).unique h
    exact ⟨q, rfl, ha, hb⟩

lemma strstr_of_absent (h : ¬pattern <:+: s) : CStr.strstr pattern s = none := by
  cases hq : CStr.strstr pattern s with
  | none => rfl
  | some q => exact absurd (strstr_first hq).occurs h

end Strstr

section Loop

variable (noise : ℕ → UInt8) {m l : CStrMem} {pattern rep s out w : List UInt8}

def Ordinary (l : CStrMem) : Prop := Valid l ∧ l.str.capacity ≤ 2 ^ 31 - 33

lemma Ordinary.oversized_iff (h : Ordinary l) (n : ℤ) : Oversized l.str.capacity n ↔ 2 ^ 31 - 32 ≤ n := by
  have hcap := h.2
  rw [Oversized]
  omega

lemma Ordinary.after {t : CStrMem} (h : Ordinary l) (ht : Holds l s t) : Ordinary t := by
  have hcap := ht.capacity
  rw [max_eq_right h.2] at hcap
  exact ⟨ht.kept.1, hcap⟩

lemma turns_done (h : Replaces pattern rep s out) : ∃ n, ∀ l, Ordinary l → l.str.length + out.length < 2 ^ 31 - 32 →
    Ends (replaceTurns noise pattern rep n s) l (fun _ t => Holds l (l.content ++ out) t) fun _ => False := by
  induction h with
  | @kept s hno =>
    refine ⟨1, fun l hl hfit => ?_⟩
    rw [replaceTurns, strstr_of_absent hno]
    refine appendStr_done noise hl.1 ?_
    rw [hl.oversized_iff]
    omega
  | @found s a b out hfirst _ ih =>
    obtain ⟨n, ih⟩ := ih
    refine ⟨n + 1, fun l hl hfit => ?_⟩
    obtain ⟨q, hq, ha, hb⟩ := strstr_of_first hfirst
    rw [List.length_append, List.length_append] at hfit
    push_cast at hfit
    rw [replaceTurns, hq]
    dsimp only
    rw [ha, hb]
    refine (nCat_done noise hl.1 (by rw [hl.oversized_iff]; omega)).bind fun _ t ht => ?_
    have hlen := ht.length
    have hlen₀ := length_content hl.1
    rw [List.length_append] at hlen
    push_cast at hlen
    have ht' := hl.after ht
    refine (appendStr_done noise ht'.1 (by rw [ht'.oversized_iff]; omega)).bind fun _ u hu => ?_
    have hlen' := hu.length
    have hlen₁ := length_content ht'.1
    rw [List.length_append] at hlen'
    push_cast at hlen'
    refine (ih u (ht'.after hu) (by omega)).mono (fun _ v hv => ?_) fun _ hv => hv
    have htrans := (ht.trans hu).trans hv
    rwa [hu.content, ht.content, List.append_assoc, List.append_assoc] at htrans

lemma turns_not_done (h : Replaces pattern rep s out) (hl : Ordinary l) (hlt : (out.length : ℤ) < 2 ^ 31)
    (hlong : 2 ^ 31 - 32 ≤ l.str.length + out.length) (n : ℕ) (v : CStrMem) :
    replaceTurns noise pattern rep n s l ≠ some (.done (), v) := by
  induction h generalizing l n with
  | @kept s hno =>
    intro hrun
    cases n with
    | zero => cases hrun
    | succ n =>
      rw [replaceTurns, strstr_of_absent hno] at hrun
      exact appendStr_not_done noise hl.1 hlt ((hl.oversized_iff _).mpr hlong) (fun _ _ => True) (ends_of_done hrun trivial)
  | @found s a b out hfirst _ ih =>
    intro hrun
    cases n with
    | zero => cases hrun
    | succ n =>
      obtain ⟨q, hq, ha, hb⟩ := strstr_of_first hfirst
      rw [List.length_append, List.length_append] at hlong hlt
      push_cast at hlong hlt
      rw [replaceTurns, hq] at hrun
      dsimp only at hrun
      rw [ha, hb] at hrun
      obtain ⟨_, t, hcat, hrun⟩ := bind_eq_done hrun
      obtain ⟨_, u, happend, hrun⟩ := bind_eq_done hrun
      -- a part that is too long, or the string holds it and goes on
      by_cases hover : Oversized l.str.capacity (l.str.length + a.length)
      · exact nCat_not_done noise hl.1 (by omega) hover (fun _ _ => True) (ends_of_done hcat trivial)
      have ht := (nCat_done noise hl.1 hover).of_done hcat
      have hlen := ht.length
      have hlen₀ := length_content hl.1
      rw [List.length_append] at hlen
      push_cast at hlen
      have ht' := hl.after ht
      by_cases hover' : Oversized t.str.capacity (t.str.length + rep.length)
      · exact appendStr_not_done noise ht'.1 (by omega) hover' (fun _ _ => True) (ends_of_done happend trivial)
      have hu := (appendStr_done noise ht'.1 hover').of_done happend
      have hlen' := hu.length
      have hlen₁ := length_content ht'.1
      rw [List.length_append] at hlen'
      push_cast at hlen'
      exact ih (ht'.after hu) (by omega) (by omega) n hrun

omit noise in
lemma bytes_content (hv : Valid m) {E : CStrMem → Prop} :
    Ends bytes m (fun r t => m = t ∧ r = ((m.content.length : ℤ), m.content ++ [0])) E := by
  have hlen := length_content hv
  obtain ⟨L, C, b, hview, hf, hL, hle, hz⟩ := hv
  rw [hview.length] at hlen
  refine (bytes_view hview hf hL hle).mono ?_ fun _ ht => ht
  rintro _ _ ⟨rfl, rfl⟩
  refine ⟨rfl, Prod.ext hlen.symm ?_⟩
  dsimp only
  have hsucc : (L + 1).toNat = L.toNat + 1 := by omega
  rw [hview.content, hsucc, List.take_add_one, hz]
  rfl

omit noise in
lemma content_nil (hv : Valid l) (h : l.str.length = 0) : l.content = [] := by
  have hlen := length_content hv
  rw [← List.length_eq_zero_iff]
  omega

lemma local_start (heap : Heap (List UInt8)) {E : CStrMem → Prop} : Ends init ⟨heap, raw noise⟩
    (fun _ l => Kept ⟨heap, raw noise⟩ l ∧ Ordinary l ∧ l.str.length = 0) E := by
  refine (init_ends (raw_raw noise heap)).mono ?_ fun _ ht => ht
  rintro - l ⟨b, hl, hf, hz⟩
  have hkept := hl.kept hf le_rfl (by norm_num) hz
  refine ⟨hkept, ⟨hkept.1, ?_⟩, hl.view.length⟩
  rw [hl.view.capacity]
  norm_num

lemma onLocal_done {x : Op Unit}
    (hx : ∀ l, Ordinary l → l.str.length = 0 → Ends x l (fun _ t => Holds l w t) fun _ => False) :
    Ends (onLocal noise x) m (fun r t => Untouched m t ∧ r = ((w.length : ℤ), w ++ [0])) fun _ => False := by
  have hprog : Ends (do init; x; bytes) ⟨m.heap, raw noise⟩
      (fun r t => Kept ⟨m.heap, raw noise⟩ t ∧ r = ((w.length : ℤ), w ++ [0])) fun _ => False := by
    refine (local_start noise m.heap).bind ?_
    rintro - l ⟨hkept, hl, hlen⟩
    refine (hx l hl hlen).bind fun _ t ht => ?_
    refine (bytes_content ht.kept.1).mono ?_ fun _ ht => ht
    rintro r _ ⟨rfl, rfl⟩
    refine ⟨hkept.trans ht.kept, ?_⟩
    rw [ht.content]
  obtain ⟨r, l, hrun, hkept, hr⟩ := hprog.done
  obtain ⟨t, ht, hu⟩ := destroy_local noise hkept
  rw [Ends, onLocal, hrun]
  dsimp only
  rw [ht]
  exact ⟨hu, hr⟩

lemma onLocal_not_done {x : Op Unit} (hx : ∀ l, Ordinary l → l.str.length = 0 → ∀ t, x l ≠ some (.done (), t))
    (r : ℤ × List UInt8) (t : CStrMem) : onLocal noise x m ≠ some (.done r, t) := by
  intro h
  rw [onLocal] at h
  cases hrun : (do init; x; bytes : Op (ℤ × List UInt8)) ⟨m.heap, raw noise⟩ with
  | none => simp [hrun] at h
  | some res =>
    obtain ⟨o, l⟩ := res
    rw [hrun] at h
    obtain ⟨d, -, hd⟩ := Option.map_eq_some_iff.mp h
    obtain ⟨rfl, -⟩ := Prod.mk.inj hd
    obtain ⟨_, l₀, hinit, hrun⟩ := bind_eq_done hrun
    obtain ⟨_, l₁, hx₁, -⟩ := bind_eq_done hrun
    have hstart := (local_start noise m.heap (E := fun _ => True)).of_done hinit
    exact hx l₀ hstart.2.1 hstart.2.2 l₁ hx₁

omit noise in
lemma cText_eq (h0 : 0 ∉ s) : cText s = s := by
  rw [cText, List.takeWhile_eq_self_iff]
  intro c hc
  have hne : c ≠ 0 := by
    rintro rfl
    exact h0 hc
  simpa using hne

omit noise in
lemma zero_notMem_cText (s : List UInt8) : 0 ∉ cText s := by
  intro hmem
  have hne := List.mem_takeWhile_imp hmem
  simp at hne

omit noise in
lemma cString_text (hv : Valid m) {E : CStrMem → Prop} :
    Ends (cString 0) m (fun s t => s = cText m.content ∧ m = t) E := by
  obtain ⟨L, C, b, hview, -, -, -, hz⟩ := hv
  refine (cString_ends hview.state (o := 0) (by rwa [Nat.zero_add])).mono ?_ fun _ ht => ht
  rintro s _ ⟨rfl, -, rfl⟩
  rw [List.drop_zero, hview.content, ← cText_cut hz]
  exact ⟨rfl, rfl⟩

omit noise in
lemma cString_content (hv : Valid m) (h0 : 0 ∉ m.content) {E : CStrMem → Prop} :
    Ends (cString 0) m (fun s t => s = m.content ∧ m = t) E := by
  have htext := cString_text hv (E := E)
  rwa [cText_eq h0] at htext

lemma replaceWithin_done (hv : Valid m) (h0 : 0 ∉ m.content) (h : Replaces pattern rep m.content out)
    (hfit : (out.length : ℤ) < 2 ^ 31 - 32) :
    ∃ n, Ends (replaceWithin noise n pattern rep) m (fun _ t => Holds m out t) fun _ => False := by
  obtain ⟨n, hturns⟩ := turns_done noise h
  have hlocal : ∀ l, Ordinary l → l.str.length = 0 →
      Ends (replaceTurns noise pattern rep n m.content) l (fun _ t => Holds l out t) fun _ => False := by
    intro l hl hlen
    have hends := hturns l hl (by omega)
    rwa [content_nil hl.1 hlen, List.nil_append] at hends
  refine ⟨n, ?_⟩
  rw [replaceWithin]
  refine (cString_content hv h0).bind ?_
  rintro s _ ⟨rfl, rfl⟩
  refine (onLocal_done noise hlocal).bind ?_
  rintro _ t ⟨ht, rfl⟩
  have hkept := ht.kept hv
  have hcap : t.str.capacity = m.str.capacity := congrArg CStrObject.capacity ht.str
  refine (assign_holds noise hkept.1 out (by omega)).mono ?_ ?_
  · rintro - u ⟨hu, -⟩
    exact ⟨hkept.trans hu.kept, hu.content, hcap ▸ hu.grown, hcap ▸ hu.capacity⟩
  · rintro u ⟨-, hover⟩
    have hlarge := hover.2
    omega

theorem replace_iff (hv : Valid m) (h0 : 0 ∉ m.content) (pattern rep : List UInt8) :
    (∃ n, Ends (replaceWithin noise n pattern rep) m
      (fun _ t => Valid t ∧ Replaces pattern rep m.content t.content) fun _ => False) ↔
    pattern ≠ [] ∧ ∃ k, Occurs pattern k m.content ∧
      (m.content.length + k * rep.length : ℤ) < 2 ^ 31 - 32 + k * pattern.length := by
  constructor
  · rintro ⟨n, hends⟩
    obtain ⟨_, t, hrun, hvt, hrep⟩ := hends.done
    obtain ⟨k, hk, hlen⟩ := hrep.occurs
    refine ⟨hrep.pattern_ne_nil, k, hk, ?_⟩
    by_contra hlong
    have hlt := length_lt hvt
    have hcontent := length_content hvt
    obtain ⟨s, u, hs, hrun⟩ := bind_eq_done hrun
    obtain ⟨rfl, rfl⟩ := (cString_content hv h0 (E := fun _ => True)).of_done hs
    obtain ⟨r, v, hlocal, -⟩ := bind_eq_done hrun
    refine onLocal_not_done noise (fun l hl hl0 w => turns_not_done noise hrep hl (by omega) ?_ n w) r v hlocal
    zify at hlen
    omega
  · rintro ⟨hp, k, hk, hfit⟩
    obtain ⟨out, hout⟩ := replaces_exists hp rep m.content
    obtain ⟨k', hk', hlen⟩ := hout.occurs
    obtain rfl := hk.unique hk'
    zify at hlen
    obtain ⟨n, hends⟩ := replaceWithin_done noise hv h0 hout (by omega)
    refine ⟨n, hends.mono (fun _ t ht => ⟨ht.kept.1, ?_⟩) fun _ ht => ht⟩
    rwa [ht.content]

theorem replace_hi : ∃ n, Ends (replaceWithin (fun _ => 0) n [104] [106]) StrObject.hi
    (fun _ t => Valid t ∧ Replaces [104] [106] StrObject.hi.content t.content) fun _ => False := by
  have hfirst : First [104] StrObject.hi.content [] [105] := ⟨by decide, fun _ _ _ => Nat.zero_le _⟩
  have hcount : Occurs [104] 1 StrObject.hi.content := .found hfirst (.none (by decide))
  exact (replace_iff (fun _ => 0) StrObject.hi_valid (by decide) [104] [106]).mpr ⟨by decide, 1, hcount, by decide⟩

lemma replaceTurns_eq (hp : pattern ≠ []) {k : ℕ} (hk : s.length ≤ k) :
    replaceTurns noise pattern rep (k + 1) s = replaceLoop noise pattern rep k s := by
  have hpos : 0 < pattern.length := List.length_pos_iff.mpr hp
  induction k generalizing s with
  | zero =>
    obtain rfl : s = [] := List.length_eq_zero_iff.mp (by omega)
    have hnone : CStr.strstr pattern [] = none := if_neg hp
    rw [replaceTurns, hnone, replaceLoop]
  | succ k ih =>
    rw [replaceTurns, replaceLoop]
    cases hq : CStr.strstr pattern s with
    | none => rfl
    | some q =>
      have hrest : (s.drop (q + pattern.length)).length ≤ k := by
        rw [List.length_drop]
        omega
      dsimp only
      rw [ih hrest]

lemma replaceWithin_eq (hv : Valid m) (h0 : 0 ∉ m.content) (hp : pattern ≠ []) :
    replaceWithin noise (m.content.length + 1) pattern rep m = CStrObject.replace noise pattern rep m := by
  obtain ⟨s, t, hs, rfl, rfl⟩ := (cString_content hv h0).done
  rw [replaceWithin, CStrObject.replace, bind_done hs, bind_done hs, replaceTurns_eq noise hp le_rfl]

lemma turns_empty (hv : Valid l) (n : ℕ) : replaceTurns noise [] [] n s l = none := by
  have hroom : ∀ t, Valid t → ¬Oversized t.str.capacity (t.str.length + ([] : List UInt8).length) := by
    intro t ht hover
    have hcap := capacity_bounds ht
    have hlarge := hover.1
    rw [List.length_nil] at hlarge
    omega
  induction n generalizing l with
  | zero => rfl
  | succ n ih =>
    have hfound : CStr.strstr [] s = some 0 := by
      cases s with
      | nil => rfl
      | cons c s => rfl
    obtain ⟨_, t, hcat, ht⟩ := (nCat_done noise hv (hroom l hv)).done
    obtain ⟨_, u, happend, hu⟩ := (appendStr_done noise ht.kept.1 (hroom t ht.kept.1)).done
    rw [replaceTurns, hfound]
    dsimp only
    rw [List.take_zero, List.length_nil, List.drop_zero, bind_done hcat, bind_done happend]
    exact ih hu.kept.1

lemma onLocal_none {x : Op Unit} (hx : ∀ l, Valid l → x l = none) : onLocal noise x m = none := by
  obtain ⟨_, l, hinit, -, hl, -⟩ := (local_start noise m.heap).done
  have hprog : (do init; x; bytes : Op (ℤ × List UInt8)) ⟨m.heap, raw noise⟩ = none := by
    rw [bind_done hinit, bind_apply, andThen, hx l hl.1]
  rw [onLocal, hprog]

theorem replace_never_ends :
    ¬∃ n, Ends (replaceWithin (fun _ => 0) n [] []) StrObject.hi (fun _ _ => True) fun _ => True := by
  rintro ⟨n, h⟩
  obtain ⟨_, t, hs, rfl, rfl⟩ := (cString_content StrObject.hi_valid (by decide)).done
  have hnone : replaceWithin (fun _ => 0) n [] [] StrObject.hi = none := by
    rw [replaceWithin, bind_done hs, bind_apply, andThen,
      onLocal_none (fun _ => 0) fun l hl => turns_empty (fun _ => 0) hl n]
  rw [Ends, hnone] at h
  exact h

end Loop

end Xframe.Comserv.CStrObject
