import Xframe.Comserv.CursorSeq

/-! Every member function of `CList` keeps the representation of a sequence with a cursor and does to
it what the operation of the same name does. -/

namespace Xframe.Comserv.CList

open Xframe.Lib

variable {V : Type}

structure Represents (b : CList V) (s : CursorSeq V) : Prop where
  linked : Linked b.heap b.pTag s.items
  head : b.pHead = headAddr b.pTag s.items
  tail : b.pTail = lastAddr b.pTag s.items
  current : b.pCurrent = headAddr b.pTag s.after
  count : b.count = s.items.length
  fresh : b.heap.brk = s.fresh

namespace Represents

variable {b b' : CList V} {s s' : CursorSeq V} {l r : List (ℕ × V)} {x : ℕ × V}
  {nx pv : ℕ → Option ℕ} {val : ℕ → Option V}

lemma move (h : b.Represents s) {p : ℕ} (hi : s'.items = s.items) (hf : s'.fresh = s.fresh)
    (hp : p = headAddr b.pTag s'.after) : Represents { b with pCurrent := p } s' := by
  obtain ⟨hl, hh, ht, -, hc, hb⟩ := h
  rw [← hi] at hl hh ht hc
  exact ⟨hl, hh, ht, hp, hc, hb.trans hf.symm⟩

lemma linked_at (h : b.Represents s) (hi : s.items = l ++ x :: r) :
    Linked b.heap b.pTag (l ++ x :: r) :=
  hi ▸ h.linked

lemma length_eq (h : b.Represents s) (hi : s.items = l ++ x :: r) :
    b.count = l.length + r.length + 1 := by
  rw [h.count, hi]
  simp
  omega

lemma items_unique (h : b.Represents s) (h' : b.Represents s') : s.items = s'.items := by
  apply h.linked.unique (l := []) (k := []) h'.linked
  exact h.head.symm.trans h'.head

lemma unlink (h : b.Represents s) (hi : s.items = l ++ x :: r)
    (hs : Fields b'.heap nx pv val b.heap.brk) (htag : b'.pTag = b.pTag)
    (hnx : ∀ y, y ≠ x.1 → nx y =
      Function.update (b.heap.links Node.next) (lastAddr b.pTag l) (some (headAddr b.pTag r)) y)
    (hpv : ∀ y, y ≠ x.1 → pv y =
      Function.update (b.heap.links Node.prev) (headAddr b.pTag r) (some (lastAddr b.pTag l)) y)
    (hval : ∀ y, y ≠ x.1 → val y = (b.heap.cells y).map Node.value)
    (hi' : s'.items = l ++ r) (hf : s'.fresh = s.fresh)
    (hhead : b'.pHead = headAddr b.pTag (l ++ r)) (htail : b'.pTail = lastAddr b.pTag (l ++ r))
    (hcurrent : b'.pCurrent = headAddr b.pTag s'.after) (hcount : b'.count = b.count - 1) :
    b'.Represents s' := by
  have hlen := h.length_eq hi
  constructor
  · rw [htag, hi']
    exact (h.linked_at hi).unlink hs hnx hpv hval
  · rw [htag, hi', hhead]
  · rw [htag, hi', htail]
  · rw [htag, hcurrent]
  · rw [hcount, hi', List.length_append]
    omega
  · rw [hs.brk, h.fresh, hf]

lemma link (h : b.Represents s) (hi : s.items = l ++ r) (hx : x.1 = s.fresh)
    (hs : Fields b'.heap nx pv val (s.fresh + 1)) (htag : b'.pTag = b.pTag)
    (hnx : ∀ y, nx y = Function.update (Function.update (b.heap.links Node.next) x.1
      (some (headAddr b.pTag r))) (lastAddr b.pTag l) (some x.1) y)
    (hpv : ∀ y, pv y = Function.update (Function.update (b.heap.links Node.prev) x.1
      (some (lastAddr b.pTag l))) (headAddr b.pTag r) (some x.1) y)
    (hval : ∀ y, val y = Function.update (fun y => (b.heap.cells y).map Node.value) x.1 (some x.2) y)
    (hhead : b'.pHead = headAddr b.pTag (l ++ x :: r)) (htail : b'.pTail = lastAddr b.pTag (l ++ x :: r))
    (hcurrent : b'.pCurrent = x.1) (hcount : b'.count = b.count + 1) :
    b'.Represents ⟨l, x :: r, s.fresh + 1⟩ := by
  have hl : Linked b.heap b.pTag (l ++ r) := hi ▸ h.linked
  have hnew : b.heap.cells x.1 = none := by
    rw [hx, ← h.fresh]
    exact b.heap.brk_fresh
  constructor
  · rw [htag]
    exact hl.link hs hnew hnx hpv hval
  · rw [htag, hhead]
    rfl
  · rw [htag, htail]
    rfl
  · rw [htag, hcurrent]
    rfl
  · rw [hcount, h.count, hi, CursorSeq.items]
    simp
    omega
  · exact hs.brk

lemma head_iff (h : b.Represents s) : b.pCurrent = b.pHead ↔ s.before = [] := by
  rw [h.current, h.head, CursorSeq.items]
  cases hb : s.before with
  | nil => simp
  | cons x l =>
    have hl : Linked b.heap b.pTag ([] ++ x :: (l ++ s.after)) := h.linked_at (by rw [CursorSeq.items, hb]; rfl)
    simp only [List.cons_append, headAddr_cons, reduceCtorEq, iff_false]
    cases ha : s.after with
    | nil => exact hl.ne_tag.symm
    | cons y r => exact hl.other_ne (by simp [ha])

end Represents

variable {b : CList V} {s : CursorSeq V} {l r : List (ℕ × V)} {x : ℕ × V}

lemma popFront_spec (h : b.Represents s) (hi : s.items = x :: r) :
    Returns b.popFront fun (n, b') => n = r.length ∧ b'.Represents ⟨[], r, s.fresh⟩ := by
  have hl : Linked b.heap b.pTag ([] ++ x :: r) := h.linked_at hi
  have hcount : b.count = r.length + 1 := by simpa using h.length_eq (l := []) hi
  have hhead : b.pHead = x.1 := by rw [h.head, hi, headAddr_cons]
  rw [popFront, if_pos (by omega), hhead]
  refine Returns.of_bind hl.read ?_
  refine (Fields.self b.heap).setPrev (hl.defined_head (l := [x])) fun h1 s1 => ?_
  refine s1.setNext hl.defined_tag fun h2 s2 => ?_
  refine s2.free (update_defined hl.defined_at) fun h3 s3 => ?_
  rw [returns_some]
  refine ⟨by omega, ?_⟩
  refine h.unlink (l := []) hi s3 rfl ?_ ?_ ?_ rfl rfl rfl ?_ rfl rfl
  · intro y hy
    rw [Function.update_of_ne hy]
    rfl
  · intro y hy
    rw [Function.update_of_ne hy]
    rfl
  · intro y hy
    rw [Function.update_of_ne hy]
  · dsimp only
    split
    · obtain rfl : r = [] := List.length_eq_zero_iff.mp (by omega)
      rfl
    · have hr : r ≠ [] := by rintro rfl; simp at hcount; omega
      rw [h.tail, hi, lastAddr_cons]
      exact lastAddr_of_ne_nil hr _ _

lemma popBack_spec (h : b.Represents s) (hi : s.items = l ++ [x]) :
    Returns b.popBack fun (n, b') => n = l.length ∧ b'.Represents (CursorSeq.toLast ⟨l, [], s.fresh⟩) := by
  have hl : Linked b.heap b.pTag (l ++ x :: []) := h.linked_at hi
  have hcount : b.count = l.length + 1 := by simpa using h.length_eq hi
  have htail : b.pTail = x.1 := by rw [h.tail, hi, lastAddr_snoc]
  rw [popBack, if_pos (by omega), htail]
  refine Returns.of_bind hl.read ?_
  refine (Fields.self b.heap).setNext hl.defined_last fun h1 s1 => ?_
  refine s1.setPrev (update_defined hl.defined_tag) fun h2 s2 => ?_
  refine s2.free (update_defined hl.defined_at) fun h3 s3 => ?_
  rw [returns_some]
  refine ⟨by omega, ?_⟩
  have hli : (CursorSeq.mk l [] s.fresh).items = l := List.append_nil l
  refine h.unlink (r := []) hi s3 rfl ?_ ?_ ?_ ?_ rfl ?_ ?_ ?_ rfl
  · intro y hy
    rw [Function.update_of_ne hy]
    rfl
  · intro y hy
    rw [Function.update_of_ne hy]
    rfl
  · intro y hy
    rw [Function.update_of_ne hy]
  · rw [CursorSeq.toLast_items]
    rfl
  · dsimp only
    rw [List.append_nil]
    split
    · obtain rfl : l = [] := List.length_eq_zero_iff.mp (by omega)
      rfl
    · have hne : l ≠ [] := by rintro rfl; simp at hcount; omega
      rw [h.head, hi, headAddr_append]
      exact headAddr_of_ne_nil hne _ _
  · rw [List.append_nil]
  · rw [CursorSeq.headAddr_toLast, hli]

lemma count_eq_zero (h : b.Represents s) : b.count = 0 ↔ s.items = [] := by
  rw [h.count, List.length_eq_zero_iff]

lemma count_pos (h : b.Represents s) (hi : s.items ≠ []) : 0 < b.count :=
  Nat.pos_of_ne_zero fun e => hi ((count_eq_zero h).mp e)

lemma items_of_after_nil (ha : s.after = []) : s.items = s.before := by
  rw [CursorSeq.items, ha, List.append_nil]

lemma items_of_after_cons (ha : s.after = x :: r) : s.items = s.before ++ x :: r := by
  rw [CursorSeq.items, ha]

lemma current_of_after_nil (h : b.Represents s) (ha : s.after = []) : b.pCurrent = b.pTag := by
  rw [h.current, ha, headAddr_nil]

lemma current_of_after_cons (h : b.Represents s) (ha : s.after = x :: r) : b.pCurrent = x.1 := by
  rw [h.current, ha, headAddr_cons]

lemma current_ne_tag (h : b.Represents s) (ha : s.after = x :: r) : b.pCurrent ≠ b.pTag := by
  rw [current_of_after_cons h ha]
  exact (h.linked_at (items_of_after_cons ha)).ne_tag

lemma read_current (h : b.Represents s) (ha : s.after = x :: r) :
    b.heap.read b.pCurrent = some ⟨x.2, lastAddr b.pTag s.before, headAddr b.pTag r⟩ := by
  rw [current_of_after_cons h ha]
  exact (h.linked_at (items_of_after_cons ha)).read

lemma valueAt_current (h : b.Represents s) (ha : s.after = x :: r) :
    b.valueAt b.pCurrent = some x.2 := by
  rw [valueAt, read_current h ha]
  rfl

lemma popFront_refines (h : b.Represents s) :
    Returns b.popFront fun (n, b') => n = s.popFront.items.length ∧ b'.Represents s.popFront := by
  cases hi : s.items with
  | nil =>
    have h0 := (count_eq_zero h).mpr hi
    obtain ⟨before, after, fresh⟩ := s
    obtain ⟨rfl, rfl⟩ := List.append_eq_nil_iff.mp hi
    rw [popFront, if_neg (by omega), returns_some]
    exact ⟨h0, h⟩
  | cons x r =>
    rw [CursorSeq.popFront, hi]
    exact popFront_spec h hi

lemma popBack_refines (h : b.Represents s) :
    Returns b.popBack fun (n, b') => n = s.popBack.items.length ∧ b'.Represents s.popBack := by
  induction hi : s.items using List.reverseRecOn with
  | nil =>
    have h0 := (count_eq_zero h).mpr hi
    obtain ⟨before, after, fresh⟩ := s
    obtain ⟨rfl, rfl⟩ := List.append_eq_nil_iff.mp hi
    rw [popBack, if_neg (by omega), returns_some]
    exact ⟨h0, h⟩
  | append_singleton l x =>
    rw [CursorSeq.popBack, hi, List.dropLast_concat, CursorSeq.toLast_items, CursorSeq.items,
      List.append_nil]
    exact popBack_spec h hi

lemma popCurrent_refines (h : b.Represents s) :
    Returns b.popCurrent fun (n, b') => n = s.popCurrent.1 ∧ b'.Represents s.popCurrent.2 := by
  rw [popCurrent]
  match ha : s.after with
  | [] =>
    rw [if_pos (Or.inr (current_of_after_nil h ha)), returns_some, CursorSeq.popCurrent, ha]
    exact ⟨rfl, h⟩
  | [x] =>
    have hi := items_of_after_cons ha
    have hc := count_pos h (by rw [hi]; simp)
    rw [if_neg (by rw [not_or]; exact ⟨by omega, current_ne_tag h ha⟩)]
    refine Returns.of_bind (read_current h ha) ?_
    dsimp only
    rw [headAddr_nil, if_pos rfl]
    simp only [CursorSeq.popCurrent, ha]
    exact popBack_spec h hi
  | x :: y :: r =>
    have hi := items_of_after_cons ha
    have hl := h.linked_at hi
    have hl' : Linked b.heap b.pTag ((s.before ++ [x]) ++ y :: r) := by simpa using hl
    have hc := h.length_eq hi
    rw [if_neg (by rw [not_or]; exact ⟨by omega, current_ne_tag h ha⟩)]
    refine Returns.of_bind (read_current h ha) ?_
    dsimp only
    rw [headAddr_cons, if_neg hl'.ne_tag]
    simp only [CursorSeq.popCurrent, ha]
    by_cases hb : s.before = []
    · rw [if_pos (hl.last_eq_tag.mpr hb)]
      rw [hb] at hi ⊢
      simpa using popFront_spec h hi
    · rw [if_neg (mt hl.last_eq_tag.mp hb)]
      rw [current_of_after_cons h ha]
      have hxy : y.1 ≠ x.1 := hl.head_ne
      refine (Fields.self b.heap).free hl.defined_at fun h1 s1 => ?_
      refine s1.setPrev ?_ fun h2 s2 => ?_
      · rw [Function.update_of_ne hxy]
        exact hl'.defined_at
      refine s2.setNext ?_ fun h3 s3 => ?_
      · rw [Function.update_of_ne hl.last_ne]
        exact hl.defined_last
      rw [returns_some]
      rw [List.length_cons] at hc
      refine ⟨by omega, ?_⟩
      refine h.unlink hi s3 rfl ?_ ?_ ?_ rfl rfl ?_ ?_ rfl rfl
      · intro z hz
        simp only [Function.update_apply, if_neg hz, headAddr_cons]
      · intro z hz
        simp only [Function.update_apply, if_neg hz, headAddr_cons]
      · intro z hz
        rw [Function.update_of_ne hz]
      · rw [h.head, hi, headAddr_append, headAddr_append]
        exact headAddr_of_ne_nil hb _ _
      · rw [h.tail, hi, lastAddr_append, lastAddr_append, lastAddr_cons]

lemma pushFrontR_refines (h : b.Represents s) (value : V) :
    Returns (b.pushFrontR value) fun (n, b') =>
      n = (s.pushFront value).items.length ∧ b'.Represents (s.pushFront value) := by
  have hl : Linked b.heap b.pTag ([] ++ s.items) := h.linked
  obtain ⟨h1, e1, s1⟩ := (Fields.self b.heap).alloc value b.pTag b.pHead
  rw [h.fresh] at e1 s1
  rw [h.head] at s1
  have hn : b.count + 1 = (s.pushFront value).items.length := by rw [h.count]; rfl
  rw [pushFrontR, e1]
  dsimp only
  split
  · rename_i h0
    have hi := (count_eq_zero h).mp h0
    refine s1.setPrev (update_defined hl.defined_tag) fun h2 s2 => ?_
    refine s2.setNext (update_defined hl.defined_tag) fun h3 s3 => ?_
    rw [returns_some]
    refine ⟨hn, ?_⟩
    rw [CursorSeq.pushFront]
    rw [hi] at s3 ⊢
    exact h.link (l := []) hi rfl s3 rfl (fun _ => rfl) (fun _ => rfl) (fun _ => rfl) rfl rfl rfl rfl
  · rename_i h0
    have hi := mt (count_eq_zero h).mpr h0
    rw [h.head]
    refine s1.setPrev (update_defined hl.defined_head) fun h2 s2 => ?_
    refine s2.setNext (update_defined hl.defined_tag) fun h3 s3 => ?_
    rw [returns_some]
    refine ⟨hn, ?_⟩
    refine h.link (l := []) rfl rfl s3 rfl (fun _ => rfl) (fun _ => rfl) (fun _ => rfl) rfl ?_ rfl rfl
    rw [h.tail, List.nil_append, lastAddr_cons]
    exact lastAddr_of_ne_nil hi _ _

lemma pushBackR_refines (h : b.Represents s) (value : V) :
    Returns (b.pushBackR value) fun (n, b') =>
      n = (s.pushBack value).items.length ∧ b'.Represents (s.pushBack value) := by
  have hl : Linked b.heap b.pTag (s.items ++ []) := by simpa using h.linked
  have hi' : s.items = s.items ++ [] := by simp
  obtain ⟨h1, e1, s1⟩ := (Fields.self b.heap).alloc value b.pTail b.pTag
  rw [h.fresh] at e1 s1
  rw [h.tail] at s1
  have hn : b.count + 1 = (s.pushBack value).items.length := by
    rw [h.count, CursorSeq.pushBack_items, List.length_append]
    rfl
  rw [pushBackR, e1]
  dsimp only
  split
  · rename_i h0
    have hi := (count_eq_zero h).mp h0
    refine s1.setNext (update_defined hl.defined_tag) fun h2 s2 => ?_
    refine s2.setPrev (update_defined (update_defined hl.defined_tag)) fun h3 s3 => ?_
    rw [returns_some]
    refine ⟨hn, ?_⟩
    rw [CursorSeq.pushBack]
    rw [hi] at s3 ⊢
    exact h.link (r := []) hi rfl s3 rfl (fun _ => rfl) (fun _ => rfl) (fun _ => rfl) rfl rfl rfl rfl
  · rename_i h0
    have hi := mt (count_eq_zero h).mpr h0
    rw [h.tail]
    refine s1.setNext (update_defined hl.defined_last) fun h2 s2 => ?_
    refine s2.setPrev (update_defined (update_defined hl.defined_tag)) fun h3 s3 => ?_
    rw [returns_some]
    refine ⟨hn, ?_⟩
    refine h.link hi' rfl s3 rfl (fun _ => rfl) (fun _ => rfl) (fun _ => rfl) ?_ ?_ rfl rfl
    · rw [h.head, headAddr_append]
      exact headAddr_of_ne_nil hi _ _
    · rw [lastAddr_snoc]

def linkBetween (b : CList V) (pPrev pNext : ℕ) (value : V) : Option (ℕ × CList V) := do
  let (x, h) := b.heap.alloc ⟨value, pPrev, pNext⟩
  let h ← h.setNext pPrev x
  let h ← h.setPrev pNext x
  some (b.count + 1, { b with heap := h, pCurrent := x, count := b.count + 1 })

lemma linkBetween_refines (h : b.Represents s) (hi : s.items = l ++ r) (hl : l ≠ []) (hr : r ≠ []) (value : V) :
    Returns (b.linkBetween (lastAddr b.pTag l) (headAddr b.pTag r) value) fun (n, b') =>
      n = s.items.length + 1 ∧ b'.Represents ⟨l, (s.fresh, value) :: r, s.fresh + 1⟩ := by
  have hlr : Linked b.heap b.pTag (l ++ r) := hi ▸ h.linked
  obtain ⟨h1, e1, s1⟩ := (Fields.self b.heap).alloc value (lastAddr b.pTag l) (headAddr b.pTag r)
  rw [h.fresh] at e1 s1
  rw [linkBetween, e1]
  dsimp only
  refine s1.setNext (update_defined hlr.defined_last) fun h2 s2 => ?_
  refine s2.setPrev (update_defined (update_defined hlr.defined_head)) fun h3 s3 => ?_
  rw [returns_some, h.count]
  obtain ⟨y, r, rfl⟩ := List.exists_cons_of_ne_nil hr
  refine ⟨rfl, h.link hi rfl s3 rfl (fun _ => rfl) (fun _ => rfl) (fun _ => rfl) ?_ ?_ rfl (by rw [h.count])⟩
  · rw [h.head, hi, headAddr_append, headAddr_append]
    exact headAddr_of_ne_nil hl _ _
  · rw [h.tail, hi, lastAddr_append, lastAddr_append, lastAddr_cons]

lemma removeAll_refines {fuel : ℕ} (h : b.Represents s) (hf : b.count < fuel) :
    Returns (removeAll fuel b) fun b' => b'.Represents s.clear := by
  induction fuel generalizing b s with
  | zero => omega
  | succ fuel ih =>
    rw [removeAll]
    refine (popFront_refines h).bind fun (n, b') ⟨hn, hb⟩ => ?_
    dsimp only
    by_cases h0 : n = 0
    · rw [if_pos h0, returns_some]
      have hi : s.items.tail = [] := List.length_eq_zero_iff.mp (hn.symm.trans h0)
      rwa [CursorSeq.popFront, hi] at hb
    · rw [if_neg h0]
      refine ih (s := s.popFront) hb ?_
      have hlen : s.popFront.items.length = s.items.length - 1 := List.length_tail
      have h1 := h.count
      have h2 := hb.count
      omega

lemma clear_refines (h : b.Represents s) : Returns b.clear fun b' => b'.Represents s.clear :=
  removeAll_refines h (Nat.lt_succ_self _)

lemma reset_refines (h : b.Represents s) : b.reset.Represents s.toFirst := h.move rfl rfl h.head

lemma resetT_refines (h : b.Represents s) : b.resetT.Represents s.toLast :=
  h.move s.toLast_items rfl (by rw [h.tail, s.headAddr_toLast])

lemma resetD_refines (h : b.Represents s) : b.resetD.Represents s.off := h.move s.off_items rfl rfl

lemma decide_nil {α : Type} (l : List α) [Decidable (l = [])] : decide (l = []) = l.isEmpty := by
  cases l <;> simp

lemma istail_eq (h : b.Represents s) : b.istail = some (decide (s.after.length = 1)) := by
  rw [istail]
  cases ha : s.after with
  | nil => rw [if_pos (current_of_after_nil h ha)]; rfl
  | cons x r =>
    have hl : Linked b.heap b.pTag ((s.before ++ [x]) ++ r) := by
      simpa using h.linked_at (items_of_after_cons ha)
    rw [if_neg (current_ne_tag h ha), read_current h ha, Option.bind_eq_bind, Option.bind_some]
    simp [hl.head_eq_tag]

lemma ishead_eq (h : b.Represents s) : b.ishead = some (!s.after.isEmpty && s.before.isEmpty) := by
  rw [ishead]
  cases ha : s.after with
  | nil => rw [if_pos (current_of_after_nil h ha)]; rfl
  | cons x r =>
    have hl := h.linked_at (items_of_after_cons ha)
    rw [if_neg (current_ne_tag h ha), read_current h ha, Option.bind_eq_bind, Option.bind_some]
    simp only [hl.last_eq_tag, decide_nil]
    rfl

lemma next_refines (h : b.Represents s) :
    Returns b.next fun (r, b') => r = s.next.1 ∧ b'.Represents s.next.2 := by
  rw [next]
  refine Returns.of_bind (istail_eq h) ?_
  rw [CursorSeq.next]
  match ha : s.after with
  | [] =>
    have hl : Linked b.heap b.pTag ([] ++ s.items) := h.linked
    obtain ⟨v, hv⟩ := h.linked.read_tag
    rw [if_neg (by simp)]
    refine Returns.of_bind ((congrArg _ (current_of_after_nil h ha)).trans hv) ?_
    rw [returns_some]
    refine ⟨?_, h.move rfl rfl rfl⟩
    simp only [ne_eq, decide_not, hl.head_eq_tag, decide_nil]
  | [x] =>
    rw [if_pos (by simp), returns_some]
    exact ⟨rfl, h⟩
  | x :: y :: r =>
    have hl : Linked b.heap b.pTag ((s.before ++ [x]) ++ y :: r) := by
      simpa using h.linked_at (items_of_after_cons ha)
    rw [if_neg (by simp)]
    refine Returns.of_bind (read_current h ha) ?_
    rw [returns_some]
    refine ⟨by simp [hl.ne_tag], h.move ?_ rfl rfl⟩
    simp [CursorSeq.items, ha]

lemma prev_refines (h : b.Represents s) :
    Returns b.prev fun (r, b') => r = (s.prev.1 || s.items.isEmpty) ∧ b'.Represents s.prev.2 := by
  rw [prev]
  refine Returns.of_bind (ishead_eq h) ?_
  rw [CursorSeq.prev]
  induction hb : s.before using List.reverseRecOn with
  | nil =>
    cases ha : s.after with
    | nil =>
      obtain ⟨v, hv⟩ := h.linked.read_tag
      have hi : s.items = [] := by rw [CursorSeq.items, hb, ha]; rfl
      rw [if_neg (by simp)]
      refine Returns.of_bind ((congrArg _ (current_of_after_nil h ha)).trans hv) ?_
      rw [returns_some, hi]
      refine ⟨rfl, h.move rfl rfl ?_⟩
      change b.pTag = headAddr b.pTag s.after
      rw [ha, headAddr_nil]
    | cons x r =>
      rw [if_pos (by simp), returns_some, items_of_after_cons ha]
      exact ⟨by simp, h⟩
  | append_singleton l x =>
    have hread : ∃ e, b.heap.read b.pCurrent = some e ∧ e.prev = x.1 := by
      cases ha : s.after with
      | nil =>
        obtain ⟨v, hv⟩ := h.linked.read_tag
        rw [items_of_after_nil ha, hb, lastAddr_snoc] at hv
        exact ⟨_, (congrArg _ (current_of_after_nil h ha)).trans hv, rfl⟩
      | cons y r =>
        refine ⟨_, read_current h ha, ?_⟩
        rw [hb, lastAddr_snoc]
    obtain ⟨e, he, hx⟩ := hread
    rw [if_neg (by simp)]
    refine Returns.of_bind he ?_
    rw [returns_some, List.getLast?_concat, hx]
    refine ⟨rfl, h.move ?_ rfl rfl⟩
    simp [CursorSeq.items, hb]

end Xframe.Comserv.CList
