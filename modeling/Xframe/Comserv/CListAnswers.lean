import Xframe.Comserv.CListLoops

/-! What every call on one list hands to its caller: the answer of the sequence, but for a few calls
of `prev`, `next_d`, `prev_d` and `reset_pos`. -/

namespace Xframe.Comserv.CList

open Xframe.Lib

variable {V : Type} {b : CList V} {s : CursorSeq V} {x : ℕ × V} {r : List (ℕ × V)}

lemma new_represents [Inhabited V] : (new : CList V).Represents CursorSeq.empty := by
  have hn : (new : CList V).heap.links Node.next = Function.update (fun _ => none) 1 (some 1) := by
    funext p
    by_cases hp : p = 1 <;> simp [new, Heap.links, Heap.store, Heap.alloc, Heap.empty, hp]
  have hp : (new : CList V).heap.links Node.prev = Function.update (fun _ => none) 1 (some 1) := by
    funext p
    by_cases hp : p = 1 <;> simp [new, Heap.links, Heap.store, Heap.alloc, Heap.empty, hp]
  refine ⟨⟨?_, by simp [CursorSeq.empty, CursorSeq.items]⟩, rfl, rfl, rfl, rfl, rfl⟩
  rw [hn, hp]
  exact ⟨List.nodup_singleton 1, ⟨rfl, 1, rfl, rfl⟩, ⟨rfl, 1, rfl, rfl⟩⟩

def Op.Misread (s : CursorSeq V) : Op V → Prop
  | .prev => s.items.length = 0
  | .prevValue => s.items.length = 0
  | .nextD => s.items.length = 0 ∨ s.before.length = 0 ∧ s.after.length = 1
  | .prevD => s.items.length = 0 ∨ s.before.length = 0 ∧ s.after.length = 1
  | .resetPos index => index < 0 ∨ (s.items.length : ℤ) < index
  | _ => False

def Op.Dangling (cmp : Compare V) (s : CursorSeq V) : Op V → Prop
  | .remove value => s.Dangles cmp value
  | _ => False

/-- Handles are null or of live nodes, and references are to variables or live nodes. -/
def Op.Legal (s : CursorSeq V) : Op V → Prop
  | .removeByHandle handle => handle = 0 ∨ handle ∈ s.items.map Prod.fst
  | .remove value => s.deref value ≠ none
  | .contain value => s.deref value ≠ none
  | _ => True

lemma flag_ne {v w : Option V} : Answer.flag true v ≠ Answer.flag false w := by
  simp [Answer.flag]

lemma flag_some_ne {v : V} : Answer.flag true none ≠ Answer.flag true (some v) := by
  simp [Answer.flag]

lemma here_of_after (ha : s.after = x :: r) : s.here = some x.2 := by
  rw [CursorSeq.here, ha]
  rfl

lemma current_refines (h : b.Represents s) :
    Returns b.current fun (a, b') => a = .flag s.here.isSome s.here ∧ b'.Represents s := by
  rw [current]
  cases ha : s.after with
  | nil =>
    rw [if_pos (Or.inl (current_of_after_nil h ha)), returns_some, CursorSeq.here, ha]
    exact ⟨rfl, h⟩
  | cons x r =>
    have hz : b.pCurrent ≠ 0 := by
      rw [current_of_after_cons h ha]
      exact (h.linked_at (items_of_after_cons ha)).ne_zero
    rw [if_neg (by rw [not_or]; exact ⟨current_ne_tag h ha, hz⟩)]
    refine Returns.of_bind (valueAt_current h ha) ?_
    rw [returns_some, here_of_after ha]
    exact ⟨rfl, h⟩

lemma reading_refines {m : Option (Bool × CList V)} {p : Bool × CursorSeq V}
    (hm : Returns m fun (r, b') => r = p.1 ∧ b'.Represents p.2)
    (hp : p.1 → ∃ x r, p.2.after = x :: r) :
    Returns (do
      let (r, b) ← m
      if r then do
        let v ← b.valueAt b.pCurrent
        some (Answer.flag true (some v), b)
      else some (Answer.flag false none, b)) fun (a, b') =>
        a = (CursorSeq.reading p).1 ∧ b'.Represents p.2 := by
  refine hm.bind fun (r, b') ⟨hr, hb⟩ => ?_
  obtain ⟨ok, s'⟩ := p
  dsimp only at hr hb hp ⊢
  cases ok with
  | false =>
    rw [hr, if_neg Bool.false_ne_true, returns_some]
    exact ⟨rfl, hb⟩
  | true =>
    obtain ⟨x, l, ha⟩ := hp rfl
    rw [hr, if_pos rfl]
    refine Returns.of_bind (valueAt_current hb ha) ?_
    rw [returns_some, CursorSeq.reading, if_pos rfl, here_of_after ha]
    exact ⟨rfl, hb⟩

lemma next_here (hn : s.next.1) : ∃ x r, s.next.2.after = x :: r := by
  rw [CursorSeq.next] at hn ⊢
  cases ha : s.after with
  | nil =>
    rw [ha] at hn
    obtain ⟨x, r, hi⟩ := List.exists_cons_of_ne_nil (l := s.items) (by rintro e; simp [e] at hn)
    exact ⟨x, r, hi⟩
  | cons x r =>
    rw [ha] at hn
    cases r with
    | nil => simp at hn
    | cons y r => exact ⟨y, r, rfl⟩

lemma prev_here (hp : s.prev.1) : ∃ x r, s.prev.2.after = x :: r := by
  rw [CursorSeq.prev] at hp ⊢
  cases hl : s.before.getLast? with
  | none =>
    rw [hl] at hp
    simp at hp
  | some x => exact ⟨x, s.after, rfl⟩

lemma nextValue_refines (h : b.Represents s) :
    Returns b.nextValue fun (a, b') => a = (CursorSeq.reading s.next).1 ∧ b'.Represents s.next.2 :=
  reading_refines (next_refines h) next_here

lemma get_refines (h : b.Represents s) (pos : ℤ) :
    Returns (b.get pos) fun (a, b') =>
      a = (CursorSeq.reading (s.seek pos)).1 ∧ b'.Represents (s.seek pos).2 :=
  reading_refines (addr_refines h pos) seek_here

lemma prevValue_refines (h : b.Represents s) (hi : s.items ≠ []) :
    Returns b.prevValue fun (a, b') => a = (CursorSeq.reading s.prev).1 ∧ b'.Represents s.prev.2 := by
  refine reading_refines ((prev_refines h).mono fun (r, b') ⟨hr, hb⟩ => ⟨?_, hb⟩) prev_here
  rw [hr, List.isEmpty_eq_false_iff.mpr hi, Bool.or_false]

lemma prev_of_items_nil (hi : s.items = []) : s.prev = (false, s) := by
  have hb : s.before = [] := (List.append_eq_nil_iff.mp hi).1
  rw [CursorSeq.prev, hb]
  rfl

lemma prevValue_empty (h : b.Represents s) (hi : s.items = []) :
    Returns b.prevValue fun (a, b') => (∃ v, a = .flag true (some v)) ∧ b'.Represents s := by
  refine (prev_refines h).bind fun (r, b') ⟨hr, hb⟩ => ?_
  rw [prev_of_items_nil hi, hi] at hr
  rw [prev_of_items_nil hi] at hb
  obtain rfl : r = true := hr
  have ha : s.after = [] := (List.append_eq_nil_iff.mp hi).2
  obtain ⟨v, hv⟩ := hb.linked.read_tag
  have hval : b'.valueAt b'.pCurrent = some v := by
    rw [valueAt, current_of_after_nil hb ha, hv]
    rfl
  refine Returns.of_bind hval ?_
  exact (returns_some _ _).mpr ⟨⟨v, rfl⟩, hb⟩

lemma prevValue_answers (h : b.Represents s) :
    Returns b.prevValue fun (a, b') =>
      (a = (CursorSeq.reading s.prev).1 ↔ ¬Op.prevValue.Misread s) ∧ b'.Represents s.prev.2 := by
  by_cases hi : s.items = []
  · rw [prev_of_items_nil hi]
    refine (prevValue_empty h hi).mono fun (a, b') ⟨⟨v, ha⟩, hb⟩ => ⟨?_, hb⟩
    rw [ha]
    exact iff_of_false flag_ne (not_not.mpr (List.length_eq_zero_iff.mpr hi))
  · refine (prevValue_refines h hi).mono fun (a, b') ⟨ha, hb⟩ => ⟨?_, hb⟩
    exact iff_of_true ha (mt List.length_eq_zero_iff.mp hi)

lemma prev_answers (h : b.Represents s) :
    Returns (b.prev.map Answer.ofFlag) fun (a, b') =>
      (a = .flag s.prev.1 none ↔ ¬Op.prev.Misread s) ∧ b'.Represents s.prev.2 := by
  refine (prev_refines h).map fun (r, b') ⟨hr, hb⟩ => ⟨?_, hb⟩
  change Answer.flag r none = Answer.flag s.prev.1 none ↔ _
  by_cases hi : s.items = []
  · rw [prev_of_items_nil hi, hi] at hr
    rw [prev_of_items_nil hi, hr]
    exact iff_of_false flag_ne (not_not.mpr (List.length_eq_zero_iff.mpr hi))
  · rw [List.isEmpty_eq_false_iff.mpr hi, Bool.or_false] at hr
    rw [hr]
    exact iff_of_true rfl (mt List.length_eq_zero_iff.mp hi)

lemma resetPos_answers (h : b.Represents s) (index : ℤ) :
    Returns ((b.resetPos index).map Answer.ofReturn) fun (a, b') =>
      (a = Answer.flag (s.seek index).1 none ↔ ¬(Op.resetPos index).Misread s) ∧
        b'.Represents (s.seek index).2 := by
  refine (resetPos_refines h index).map fun (r, b') ⟨hr, hb⟩ => ⟨?_, hb⟩
  change Answer.mk (r.map Bool.toNat) none = _ ↔ _
  by_cases hp : 0 ≤ index ∧ index ≤ s.items.length
  · rw [hr, if_pos hp]
    exact iff_of_true rfl (by rw [Op.Misread]; omega)
  · rw [hr, if_neg hp]
    refine iff_of_false ?_ (not_not.mpr (by rw [Op.Misread]; omega))
    simp [Answer.flag]

lemma eq_of_items_nil (hi : s.items = []) : s = ⟨[], [], s.fresh⟩ := by
  obtain ⟨before, after, fresh⟩ := s
  obtain ⟨rfl, rfl⟩ := List.append_eq_nil_iff.mp hi
  rfl

lemma toFirst_of_nil (hi : s.items = []) : s.toFirst = s := by
  rw [eq_of_items_nil hi]
  rfl

lemma toLast_of_nil (hi : s.items = []) : s.toLast = s := by
  rw [eq_of_items_nil hi]
  rfl

lemma front_of_nil (h : b.Represents s) (hi : s.items = []) : b.front = (false, b) := by
  rw [front, if_neg (by rw [(count_eq_zero h).mpr hi]; simp)]

lemma front_of_ne_nil (h : b.Represents s) (hi : s.items ≠ []) : b.front = (true, b.reset) := by
  have hl : Linked b.heap b.pTag ([] ++ s.items) := h.linked
  have hne : b.pHead ≠ b.pTag := by
    rw [h.head]
    exact mt hl.head_eq_tag.mp hi
  exact if_pos ⟨count_pos h hi, hne⟩

lemma back_of_nil (h : b.Represents s) (hi : s.items = []) : b.back = (false, b) := by
  rw [back, if_neg (by rw [(count_eq_zero h).mpr hi]; simp)]

lemma back_of_ne_nil (h : b.Represents s) (hi : s.items ≠ []) : b.back = (true, b.resetT) := by
  have hl : Linked b.heap b.pTag (s.items ++ []) := by simpa using h.linked
  have hne : b.pTail ≠ b.pTag := by
    rw [h.tail]
    exact mt hl.last_eq_tag.mp hi
  exact if_pos ⟨count_pos h hi, hne⟩

lemma front_refines (h : b.Represents s) :
    b.front.1 = s.front.1 ∧ b.front.2.Represents s.front.2 := by
  by_cases hi : s.items = []
  · rw [front_of_nil h hi, CursorSeq.front, toFirst_of_nil hi, hi]
    exact ⟨rfl, h⟩
  · rw [front_of_ne_nil h hi, CursorSeq.front, List.isEmpty_eq_false_iff.mpr hi]
    exact ⟨rfl, reset_refines h⟩

lemma back_refines (h : b.Represents s) : b.back.1 = s.back.1 ∧ b.back.2.Represents s.back.2 := by
  by_cases hi : s.items = []
  · rw [back_of_nil h hi, CursorSeq.back, toLast_of_nil hi, hi]
    exact ⟨rfl, h⟩
  · rw [back_of_ne_nil h hi, CursorSeq.back, List.isEmpty_eq_false_iff.mpr hi]
    exact ⟨rfl, resetT_refines h⟩

lemma toLast_after (hi : s.items ≠ []) : ∃ x, s.toLast.after = [x] := by
  refine ⟨s.items.getLast hi, ?_⟩
  rw [CursorSeq.toLast, List.getLast?_eq_getLast_of_ne_nil hi]
  rfl

lemma frontValue_refines (h : b.Represents s) :
    Returns b.frontValue fun (a, b') => a = (CursorSeq.reading s.front).1 ∧ b'.Represents s.front.2 := by
  rw [frontValue, CursorSeq.front]
  by_cases hi : s.items = []
  · rw [front_of_nil h hi, toFirst_of_nil hi, hi]
    exact (returns_some _ _).mpr ⟨rfl, h⟩
  · obtain ⟨x, r, hx⟩ := List.exists_cons_of_ne_nil hi
    have hr := reset_refines h
    rw [front_of_ne_nil h hi, List.isEmpty_eq_false_iff.mpr hi]
    refine Returns.of_bind (valueAt_current hr hx) ((returns_some _ _).mpr ⟨?_, hr⟩)
    exact congrArg (Answer.flag true) (here_of_after hx).symm

lemma backValue_refines (h : b.Represents s) :
    Returns b.backValue fun (a, b') => a = (CursorSeq.reading s.back).1 ∧ b'.Represents s.back.2 := by
  rw [backValue, CursorSeq.back]
  by_cases hi : s.items = []
  · rw [back_of_nil h hi, toLast_of_nil hi, hi]
    exact (returns_some _ _).mpr ⟨rfl, h⟩
  · obtain ⟨x, hx⟩ := toLast_after hi
    have hr := resetT_refines h
    rw [back_of_ne_nil h hi, List.isEmpty_eq_false_iff.mpr hi]
    refine Returns.of_bind (valueAt_current hr hx) ((returns_some _ _).mpr ⟨?_, hr⟩)
    exact congrArg (Answer.flag true) (here_of_after hx).symm

lemma popFrontValue_refines (h : b.Represents s) :
    Returns b.popFrontValue fun (a, b') =>
      a = .length s.popFront.items.length s.toFirst.here ∧ b'.Represents s.popFront := by
  rw [popFrontValue]
  have hv : (if 0 < b.count then (b.valueAt b.pHead).map some else some none) = some s.toFirst.here := by
    by_cases hi : s.items = []
    · rw [if_neg (by rw [(count_eq_zero h).mpr hi]; simp), CursorSeq.here, CursorSeq.toFirst, hi]
      rfl
    · obtain ⟨x, r, hx⟩ := List.exists_cons_of_ne_nil hi
      have hr := valueAt_current (reset_refines h) hx
      rw [if_pos (count_pos h hi), here_of_after hx]
      exact congrArg _ hr
  refine Returns.of_bind hv ?_
  refine (popFront_refines h).bind ?_
  rintro ⟨n, b'⟩ ⟨hn, hb⟩
  exact (returns_some _ _).mpr ⟨by rw [hn], hb⟩

lemma popBackValue_refines (h : b.Represents s) :
    Returns b.popBackValue fun (a, b') =>
      a = .length s.popBack.items.length s.toLast.here ∧ b'.Represents s.popBack := by
  rw [popBackValue]
  have hv : (if 0 < b.count then (b.valueAt b.pTail).map some else some none) = some s.toLast.here := by
    by_cases hi : s.items = []
    · rw [if_neg (by rw [(count_eq_zero h).mpr hi]; simp), CursorSeq.here, CursorSeq.toLast, hi]
      rfl
    · obtain ⟨x, hx⟩ := toLast_after hi
      have hr := valueAt_current (resetT_refines h) hx
      rw [if_pos (count_pos h hi), here_of_after hx]
      exact congrArg _ hr
  refine Returns.of_bind hv ?_
  refine (popBack_refines h).bind ?_
  rintro ⟨n, b'⟩ ⟨hn, hb⟩
  exact (returns_some _ _).mpr ⟨by rw [hn], hb⟩

lemma popCurrentValue_refines (h : b.Represents s) :
    Returns b.popCurrentValue fun (a, b') =>
      a = .length s.popCurrent.1 s.here ∧ b'.Represents s.popCurrent.2 := by
  rw [popCurrentValue]
  have hv : (if 0 < b.count ∧ b.pCurrent ≠ b.pTag then (b.valueAt b.pCurrent).map some else some none) =
      some s.here := by
    cases ha : s.after with
    | nil =>
      rw [if_neg (by simp [current_of_after_nil h ha]), CursorSeq.here, ha]
      rfl
    | cons x r =>
      have hi : s.items ≠ [] := by rw [items_of_after_cons ha]; simp
      rw [if_pos ⟨count_pos h hi, current_ne_tag h ha⟩, valueAt_current h ha, here_of_after ha]
      rfl
  refine Returns.of_bind hv ?_
  refine (popCurrent_refines h).bind fun (n, b') ⟨hn, hb⟩ => ?_
  exact (returns_some _ _).mpr ⟨by rw [hn], hb⟩

lemma reading_true (s' : CursorSeq V) : (CursorSeq.reading (true, s')).1 = .flag true s'.here := rfl

lemma reading_false (s' : CursorSeq V) : (CursorSeq.reading (false, s')).1.ret = some 0 := rfl

lemma nextD_of_ne_nil (hi : s.items ≠ []) :
    s.nextD = (true, if s.next.1 then s.next.2 else s.toFirst) := by
  rw [CursorSeq.nextD, List.isEmpty_eq_false_iff.mpr hi]
  rfl

lemma prevD_of_ne_nil (hi : s.items ≠ []) :
    s.prevD = (true, if s.prev.1 then s.prev.2 else s.toLast) := by
  rw [CursorSeq.prevD, List.isEmpty_eq_false_iff.mpr hi]
  rfl

lemma nextD_of_nil (hi : s.items = []) : s.nextD = (false, s) := by
  rw [CursorSeq.nextD, hi]
  rfl

lemma prevD_of_nil (hi : s.items = []) : s.prevD = (false, s) := by
  rw [CursorSeq.prevD, hi]
  rfl

lemma next_of_nil (hi : s.items = []) : s.next = (false, s) := by
  rw [eq_of_items_nil hi]
  rfl

lemma next_of_single (ha : s.after = [x]) : s.next = (false, s) := by
  rw [CursorSeq.next, ha]

lemma nextD_refines (h : b.Represents s) :
    Returns b.nextD fun (a, b') =>
      (a = (CursorSeq.reading s.nextD).1 ↔ ¬Op.nextD.Misread s) ∧ b'.Represents s.nextD.2 := by
  rw [nextD]
  refine (nextValue_refines h).bind ?_
  rintro ⟨a, b1⟩ ⟨ha, h1⟩
  dsimp only at ha h1 ⊢
  by_cases hi : s.items = []
  · rw [next_of_nil hi] at ha h1
    rw [nextD_of_nil hi, ha, if_pos (reading_false s)]
    refine Returns.of_bind (istail_eq h1) ?_
    have hl : ¬s.after.length = 1 := by rw [(List.append_eq_nil_iff.mp hi).2]; simp
    rw [if_neg (by simp [hl]), returns_some]
    exact ⟨iff_of_false flag_ne (not_not.mpr (Or.inl (by rw [hi]; rfl))), h1⟩
  rw [nextD_of_ne_nil hi, reading_true]
  by_cases hn : s.next.1
  · have hm : ¬Op.nextD.Misread s := by
      rintro (h0 | ⟨-, ha1⟩)
      · exact hi (List.length_eq_zero_iff.mp h0)
      · obtain ⟨x, hx⟩ := List.length_eq_one_iff.mp ha1
        rw [next_of_single hx] at hn
        exact Bool.false_ne_true hn
    rw [CursorSeq.reading, if_pos hn, hn] at ha
    rw [ha, if_neg (by simp [Answer.flag]), returns_some, if_pos hn]
    exact ⟨iff_of_true rfl hm, h1⟩
  · obtain ⟨x, hx⟩ : ∃ x, s.after = [x] := by
      cases ha : s.after with
      | nil => simp [CursorSeq.next, ha, hi] at hn
      | cons x r =>
        cases r with
        | nil => exact ⟨x, rfl⟩
        | cons y r => simp [CursorSeq.next, ha] at hn
    rw [next_of_single hx] at ha h1
    rw [ha, if_pos (reading_false s), if_neg hn]
    refine Returns.of_bind (istail_eq h1) ?_
    have hc : b1.count = s.before.length + 1 := by
      rw [h1.count, items_of_after_cons hx, List.length_append]
      rfl
    by_cases hb : s.before = []
    · have hfirst : s.toFirst.after = [x] := by
        rw [CursorSeq.toFirst, items_of_after_cons hx, hb]
        rfl
      rw [if_neg (by simp [hc, hb]), returns_some, here_of_after hfirst]
      refine ⟨iff_of_false flag_some_ne (not_not.mpr (Or.inr ⟨by rw [hb]; rfl, by rw [hx]; rfl⟩)), ?_⟩
      refine h1.move rfl rfl ?_
      rw [h1.current, hx, hfirst]
    · have hm : ¬Op.nextD.Misread s := by
        rintro (h0 | ⟨hb0, -⟩)
        · exact hi (List.length_eq_zero_iff.mp h0)
        · exact hb (List.length_eq_zero_iff.mp hb0)
      have hpos := List.length_pos_of_ne_nil hb
      rw [if_pos (by simp [hc, hx]; omega)]
      refine (current_refines (reset_refines h1)).mono ?_
      rintro ⟨a2, b2⟩ ⟨ha2, h2⟩
      refine ⟨iff_of_true ?_ hm, h2⟩
      obtain ⟨y, r, hy⟩ := List.exists_cons_of_ne_nil hi
      rw [ha2, here_of_after (s := s.toFirst) hy]
      rfl

lemma prev_of_before_nil (hb : s.before = []) : s.prev = (false, s) := by
  rw [CursorSeq.prev, hb]
  rfl

lemma prevD_refines (h : b.Represents s) :
    Returns b.prevD fun (a, b') =>
      (a = (CursorSeq.reading s.prevD).1 ↔ ¬Op.prevD.Misread s) ∧ b'.Represents s.prevD.2 := by
  rw [prevD]
  by_cases hi : s.items = []
  · refine (prevValue_empty h hi).bind ?_
    rintro ⟨a, b1⟩ ⟨⟨v, ha⟩, h1⟩
    dsimp only at ha h1 ⊢
    rw [prevD_of_nil hi, ha, if_neg (by simp [Answer.flag]), returns_some]
    exact ⟨iff_of_false flag_ne (not_not.mpr (Or.inl (by rw [hi]; rfl))), h1⟩
  refine (prevValue_refines h hi).bind ?_
  rintro ⟨a, b1⟩ ⟨ha, h1⟩
  dsimp only at ha h1 ⊢
  rw [prevD_of_ne_nil hi, reading_true]
  by_cases hb : s.before = []
  · rw [prev_of_before_nil hb] at ha h1 ⊢
    obtain ⟨x, r, hx⟩ := List.exists_cons_of_ne_nil hi
    have hx : s.after = x :: r := by rwa [CursorSeq.items, hb] at hx
    have hc : b1.count = r.length + 1 := by
      rw [h1.count, items_of_after_cons hx, hb]
      rfl
    rw [ha, if_pos (reading_false s), if_neg Bool.false_ne_true]
    refine Returns.of_bind (ishead_eq h1) ?_
    obtain ⟨y, hy⟩ := toLast_after hi
    by_cases hr : r = []
    · have hlast : s.toLast.after = [x] := by
        rw [CursorSeq.toLast, items_of_after_cons hx, hb, hr]
        rfl
      rw [if_neg (by simp [hc, hr]), returns_some, here_of_after hy]
      refine ⟨iff_of_false flag_some_ne
        (not_not.mpr (Or.inr ⟨by rw [hb]; rfl, by rw [hx, hr]; rfl⟩)), ?_⟩
      refine h1.move s.toLast_items rfl ?_
      rw [h1.current, hx, hlast]
      rfl
    · have hm : ¬Op.prevD.Misread s := by
        rintro (h0 | ⟨-, ha1⟩)
        · exact hi (List.length_eq_zero_iff.mp h0)
        · rw [hx, List.length_cons] at ha1
          exact hr (List.length_eq_zero_iff.mp (by omega))
      have hpos := List.length_pos_of_ne_nil hr
      rw [if_pos (by simp [hc, hb, hx]; omega)]
      refine (current_refines (resetT_refines h1)).mono ?_
      rintro ⟨a2, b2⟩ ⟨ha2, h2⟩
      refine ⟨iff_of_true ?_ hm, h2⟩
      rw [ha2, here_of_after hy]
      rfl
  · have hm : ¬Op.prevD.Misread s := by
      rintro (h0 | ⟨hb0, -⟩)
      · exact hi (List.length_eq_zero_iff.mp h0)
      · exact hb (List.length_eq_zero_iff.mp hb0)
    have hp : s.prev.1 := by
      rw [CursorSeq.prev, List.getLast?_eq_getLast_of_ne_nil hb]
    rw [CursorSeq.reading, if_pos hp, hp] at ha
    rw [ha, if_neg (by simp [Answer.flag]), returns_some, if_pos hp]
    exact ⟨iff_of_true rfl hm, h1⟩

end Xframe.Comserv.CList
