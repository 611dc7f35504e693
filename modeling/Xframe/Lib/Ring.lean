import Xframe.Lib.Walk

/-! Doubly linked rings around a sentinel: the forward loop and the backward loop visit the same
points in opposite orders. Taking a point out and putting one in keep the ring. -/

namespace Xframe.Lib

variable {α : Type}

structure Ring (nx pv : α → Option α) (tag : α) (ps : List α) : Prop where
  nodup : (tag :: ps).Nodup
  next : Loop nx tag ps
  prev : Loop pv tag ps.reverse

@[simp] lemma headD_reverse (a : α) (l : List α) : l.reverse.headD a = l.getLastD a := by
  rw [List.headD_eq_head?_getD, List.head?_reverse, List.getLastD_eq_getLast?]

@[simp] lemma getLastD_reverse (a : α) (l : List α) : l.reverse.getLastD a = l.headD a := by
  rw [List.headD_eq_head?_getD, List.getLastD_eq_getLast?, List.getLast?_reverse]

lemma reverse_middle (x : α) (l r : List α) :
    (l ++ x :: r).reverse = r.reverse ++ x :: l.reverse := by
  simp

lemma headD_mem (a : α) (l : List α) : l.headD a ∈ a :: l := by
  cases l <;> simp

lemma getLastD_mem (a : α) (l : List α) : l.getLastD a ∈ a :: l := by
  rw [cons_eq_snoc a l]
  simp

lemma headD_mem_of_subset (a : α) {l r : List α} (h : l ⊆ r) : l.headD a ∈ a :: r :=
  List.cons_subset_cons a h (headD_mem a l)

lemma getLastD_mem_of_subset (a : α) {l r : List α} (h : l ⊆ r) : l.getLastD a ∈ a :: r :=
  List.cons_subset_cons a h (getLastD_mem a l)

lemma getLastD_snoc (a x : α) (l : List α) : (l ++ [x]).getLastD a = x := by
  simp [List.getLastD_eq_getLast?]

lemma headD_remove (a x : α) (l r : List α) :
    (l ++ r).headD a = if l = [] then r.headD a else (l ++ x :: r).headD a := by
  cases l <;> simp

lemma getLastD_remove (a x : α) (l r : List α) :
    (l ++ r).getLastD a = if r = [] then l.getLastD a else (l ++ x :: r).getLastD a := by
  rcases List.eq_nil_or_concat r with rfl | ⟨r, y, rfl⟩
  · simp
  · simp [List.getLastD_eq_getLast?, List.getLast?_cons]

namespace Ring

variable {nx pv nx' pv' : α → Option α} {tag x : α} {ps l r : List α}

lemma symm (h : Ring nx pv tag ps) : Ring pv nx tag ps.reverse :=
  ⟨by simpa using h.nodup, h.prev, by simpa using h.next⟩

lemma congr (h : Ring nx pv tag ps) (hn : ∀ y ∈ tag :: ps, nx' y = nx y)
    (hp : ∀ y ∈ tag :: ps, pv' y = pv y) : Ring nx' pv' tag ps :=
  ⟨h.nodup, h.next.congr hn, h.prev.congr fun y hy => hp y (by simpa using hy)⟩

lemma next_defined (h : Ring nx pv tag ps) {p : α} (hp : p ∈ tag :: ps) : nx p ≠ none :=
  h.next.defined hp

lemma next_at (h : Ring nx pv tag (l ++ x :: r)) : nx x = some (r.headD tag) := h.next.after

lemma prev_at (h : Ring nx pv tag (l ++ x :: r)) : pv x = some (l.getLastD tag) := by
  have hp := h.prev
  rw [reverse_middle] at hp
  simpa using hp.after

lemma next_before (h : Ring nx pv tag (l ++ x :: r)) : nx (l.getLastD tag) = some x := h.next.before

lemma prev_after (h : Ring nx pv tag (l ++ x :: r)) : pv (r.headD tag) = some x := by
  have hs := h.symm
  rw [reverse_middle] at hs
  simpa using hs.next_before

lemma next_mem (h : Ring nx pv tag ps) {p q : α} (hp : p ∈ tag :: ps) (hq : nx p = some q) :
    q ∈ tag :: ps := by
  rcases List.mem_cons.mp hp with rfl | hp
  · rw [h.next.walk.2, Option.some.injEq] at hq
    exact hq ▸ headD_mem p ps
  · obtain ⟨l, r, rfl⟩ := List.append_of_mem hp
    rw [h.next_at, Option.some.injEq] at hq
    have hm := headD_mem tag r
    rw [hq] at hm
    simp only [List.mem_cons, List.mem_append] at hm ⊢
    tauto

lemma prev_mem (h : Ring nx pv tag ps) {p q : α} (hp : p ∈ tag :: ps) (hq : pv p = some q) :
    q ∈ tag :: ps := by
  have := h.symm.next_mem (by simpa using hp) hq
  simpa using this

lemma tag_ne (h : Ring nx pv tag (l ++ x :: r)) : x ≠ tag := by
  have := h.nodup
  rintro rfl
  simp at this

lemma headD_ne (h : Ring nx pv tag (l ++ x :: r)) : r.headD tag ≠ x := by
  intro e
  have hn := h.nodup
  have hm := headD_mem tag r
  rw [e] at hm
  rw [List.nodup_cons, List.nodup_append] at hn
  rcases List.mem_cons.mp hm with rfl | hm
  · exact hn.1 (by simp)
  · exact (List.nodup_cons.mp hn.2.2.1).1 hm

lemma getLastD_ne (h : Ring nx pv tag (l ++ x :: r)) : l.getLastD tag ≠ x := by
  have hs := h.symm
  rw [reverse_middle] at hs
  simpa using hs.headD_ne

lemma headD_eq_tag (h : Ring nx pv tag (l ++ x :: r)) : r.headD tag = tag ↔ r = [] := by
  cases r with
  | nil => simp
  | cons y r =>
    have := h.nodup
    simp only [List.headD_cons, reduceCtorEq, iff_false]
    rintro rfl
    simp at this

lemma getLastD_eq_tag (h : Ring nx pv tag (l ++ x :: r)) : l.getLastD tag = tag ↔ l = [] := by
  have hs := h.symm
  rw [reverse_middle] at hs
  simpa using hs.headD_eq_tag

lemma remove_notMem (h : Ring nx pv tag (l ++ x :: r)) : x ∉ tag :: (l ++ r) := by
  have := h.nodup
  simp only [List.nodup_cons, List.nodup_append, List.mem_append, List.mem_cons] at this ⊢
  rintro (rfl | hl | hr)
  · tauto
  · exact this.2.2.2 x hl x (by simp) rfl
  · exact this.2.2.1.1 hr

variable [DecidableEq α]

lemma unlink (h : Ring nx pv tag (l ++ x :: r))
    (hn : ∀ y, y ≠ x → nx' y = Function.update nx (l.getLastD tag) (some (r.headD tag)) y)
    (hp : ∀ y, y ≠ x → pv' y = Function.update pv (r.headD tag) (some (l.getLastD tag)) y) :
    Ring nx' pv' tag (l ++ r) := by
  have hx := h.remove_notMem
  refine ⟨h.nodup.sublist (by simp), ?_, ?_⟩
  · exact (h.next.unlink h.nodup).congr fun y hy => hn y fun e => hx (e ▸ hy)
  · have hprev := h.prev
    have hnodup := h.symm.nodup
    rw [reverse_middle] at hprev hnodup
    have hu := Loop.unlink hprev hnodup
    rw [getLastD_reverse, headD_reverse, ← List.reverse_append] at hu
    exact hu.congr fun y hy => hp y fun e => hx (e ▸ by simpa [or_comm] using hy)

lemma link (h : Ring nx pv tag (l ++ r)) (hx : x ∉ tag :: (l ++ r))
    (hn : ∀ y, nx' y = Function.update (Function.update nx x (some (r.headD tag)))
      (l.getLastD tag) (some x) y)
    (hp : ∀ y, pv' y = Function.update (Function.update pv x (some (l.getLastD tag)))
      (r.headD tag) (some x) y) :
    Ring nx' pv' tag (l ++ x :: r) := by
  refine ⟨?_, ?_, ?_⟩
  · have := h.nodup
    simp only [List.nodup_cons, List.nodup_append, List.mem_append, List.mem_cons, not_or] at this hx ⊢
    refine ⟨⟨this.1.1, fun e => hx.1 e.symm, this.1.2⟩, this.2.1, ⟨hx.2.2, this.2.2.1⟩, ?_⟩
    rintro a ha b (rfl | hb) rfl
    · exact hx.2.1 ha
    · exact this.2.2.2 a ha a hb rfl
  · exact (h.next.link h.nodup hx).congr fun y _ => hn y
  · have hprev := h.prev
    have hnodup := h.symm.nodup
    rw [List.reverse_append] at hprev hnodup
    have hu := Loop.link hprev hnodup (p := x) (by simpa [or_comm] using hx)
    rw [getLastD_reverse, headD_reverse] at hu
    simpa using hu.congr fun y _ => hp y

end Ring

end Xframe.Lib
