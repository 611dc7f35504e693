import Xframe.Comserv.CListAnswers

/-! `insert_r` of `clist.h`, which is documented to insert behind the current node. -/

namespace Xframe.Comserv

open Xframe.Lib

variable {V : Type}

namespace CList

def insertR (b : CList V) (value : V) : Option (ℕ × CList V) := do
  if b.count = 0 then b.pushFrontR value
  else if ← b.ishead then b.pushFrontR value
  else if b.pCurrent = b.pTag then some (0, b)
  else if ← b.istail then b.pushBackR value
  else do
    let e ← b.heap.read b.pCurrent
    let (x, h) := b.heap.alloc ⟨value, b.pCurrent, e.next⟩
    let h ← h.setNext b.pCurrent x
    let h ← h.setPrev e.next x
    some (b.count + 1, { b with heap := h, pCurrent := x, count := b.count + 1 })

end CList

namespace CursorSeq

def insertAfter (s : CursorSeq V) (value : V) : CursorSeq V :=
  ⟨s.before ++ s.after.take 1, (s.fresh, value) :: s.after.drop 1, s.fresh + 1⟩

def insert (s : CursorSeq V) (value : V) : ℕ × CursorSeq V :=
  if s.items = [] ∨ s.before = [] ∧ s.after ≠ [] then ((s.pushFront value).items.length, s.pushFront value)
  else if s.after = [] then (0, s)
  else ((s.insertAfter value).items.length, s.insertAfter value)

lemma insert_first {s : CursorSeq V} (value : V) (hb : s.before = []) (ha : s.after ≠ []) :
    s.insert value = ((s.pushFront value).items.length, s.pushFront value) :=
  if_pos (Or.inr ⟨hb, ha⟩)

lemma insert_behind {s : CursorSeq V} (value : V) (hb : s.before ≠ []) (ha : s.after ≠ []) :
    s.insert value = ((s.insertAfter value).items.length, s.insertAfter value) := by
  have hi : s.items ≠ [] := fun h => hb (List.append_eq_nil_iff.mp h).1
  rw [insert, if_neg (by tauto), if_neg ha]

lemma insertAfter_items {s : CursorSeq V} {x : ℕ × V} {r : List (ℕ × V)} (value : V) (ha : s.after = x :: r) :
    (s.insertAfter value).items = s.before ++ x :: (s.fresh, value) :: r := by
  rw [insertAfter, items, ha]
  simp

end CursorSeq

namespace CList

variable {b b' : CList V} {s : CursorSeq V} {x : ℕ × V} {r : List (ℕ × V)} {n : ℕ}

lemma insertAfter_of_cons (ha : s.after = x :: r) (value : V) :
    s.insertAfter value = ⟨s.before ++ [x], (s.fresh, value) :: r, s.fresh + 1⟩ := by
  rw [CursorSeq.insertAfter, ha]
  rfl

lemma insertR_refines (h : b.Represents s) (value : V) :
    Returns (b.insertR value) fun (n, b') => n = (s.insert value).1 ∧ b'.Represents (s.insert value).2 := by
  rw [insertR]
  by_cases hi : s.items = []
  · rw [if_pos ((count_eq_zero h).mpr hi), CursorSeq.insert, if_pos (Or.inl hi)]
    exact pushFrontR_refines h value
  rw [if_neg (mt (count_eq_zero h).mp hi)]
  refine Returns.of_bind (ishead_eq h) ?_
  match ha : s.after with
  | [] =>
    rw [if_neg (by simp), if_pos (current_of_after_nil h ha), returns_some, CursorSeq.insert, if_neg (by simp [hi, ha]),
      if_pos ha]
    exact ⟨rfl, h⟩
  | x :: r =>
    have hne : s.after ≠ [] := by simp [ha]
    by_cases hb : s.before = []
    · rw [if_pos (by simp [hb]), CursorSeq.insert_first value hb hne]
      exact pushFrontR_refines h value
    rw [if_neg (by simpa using hb), if_neg (current_ne_tag h ha), CursorSeq.insert_behind value hb hne,
      insertAfter_of_cons ha]
    refine Returns.of_bind (istail_eq h) ?_
    have hitems : s.items = (s.before ++ [x]) ++ r := by
      rw [items_of_after_cons ha, List.append_assoc]
      rfl
    cases r with
    | nil =>
      rw [if_pos (by rw [ha]; rfl)]
      rw [List.append_nil] at hitems
      rw [← hitems]
      exact pushBackR_refines h value
    | cons y r =>
      have hlast : lastAddr b.pTag (s.before ++ [x]) = b.pCurrent := by
        rw [lastAddr_snoc, current_of_after_cons h ha]
      rw [if_neg (by simp [ha])]
      refine Returns.of_bind (read_current h ha) ?_
      have hlink := linkBetween_refines h hitems (by simp) (List.cons_ne_nil y r) value
      rw [hlast] at hlink
      refine hlink.mono fun (n, b') ⟨hn, h'⟩ => ⟨?_, h'⟩
      rw [hn, hitems]
      simp [CursorSeq.items]
      omega

structure InsertedAfter (s : CursorSeq V) (value : V) (n : ℕ) (b' : CList V) : Prop where
  length : n = s.items.length + 1
  represents : b'.Represents (s.insertAfter value)

lemma fresh_notMem (h : b.Represents s) (hx : x ∈ s.items) : x.1 ≠ s.fresh := by
  obtain ⟨l, r, hi⟩ := List.append_of_mem hx
  intro heq
  have hread := (h.linked_at hi).read
  rw [Heap.read, heq, ← h.fresh, b.heap.brk_fresh] at hread
  cases hread

lemma not_insertedAfter {m : ℕ} {value : V} (h : b.Represents s) (hb : s.before = []) (ha : s.after = x :: r)
    (h' : b'.Represents (s.pushFront value)) : ¬InsertedAfter s value m b' := by
  intro hins
  have hitems := h'.items_unique hins.represents
  rw [CursorSeq.pushFront_items, CursorSeq.insertAfter_items value ha, hb] at hitems
  have hx : x ∈ s.items := by
    rw [items_of_after_cons ha]
    simp
  exact fresh_notMem h hx (congrArg Prod.fst (List.cons.inj hitems).1.symm)

theorem insertR_documented_iff (h : b.Represents s) (ha : s.after ≠ []) (value : V) :
    Returns (b.insertR value) fun (n, b') => InsertedAfter s value n b' ↔ b.pCurrent ≠ b.pHead := by
  refine (insertR_refines h value).mono ?_
  rintro ⟨n, b'⟩ ⟨hn, h'⟩
  dsimp only at hn h' ⊢
  obtain ⟨x, r, hx⟩ := List.exists_cons_of_ne_nil ha
  rw [Ne, h.head_iff]
  by_cases hb : s.before = []
  · rw [CursorSeq.insert_first value hb ha] at h'
    exact iff_of_false (not_insertedAfter h hb hx h') (not_not.mpr hb)
  · rw [CursorSeq.insert_behind value hb ha] at hn h'
    refine iff_of_true ⟨?_, h'⟩ hb
    rw [hn, CursorSeq.insertAfter_items value hx, items_of_after_cons hx]
    simp
    omega

theorem insertR_documented_of_one :
    Returns ((new : CList ℕ).pushBackR 1) fun (_, b) => Returns (b.insertR 2) fun (n, b') =>
      InsertedAfter (CursorSeq.empty.pushBack 1) 2 n b' ↔ b.pCurrent ≠ b.pHead :=
  (pushBackR_refines new_represents 1).mono fun (_, _) ⟨_, h⟩ => insertR_documented_iff h (List.cons_ne_nil _ _) 2

theorem insertR_in_front_of_head :
    Returns ((new : CList ℕ).pushBackR 1) fun (_, b) => Returns (b.insertR 2) fun (n, b') =>
      b'.Represents ⟨[], [(3, 2), (2, 1)], 4⟩ ∧ ¬InsertedAfter (CursorSeq.empty.pushBack 1) 2 n b' := by
  refine (pushBackR_refines new_represents 1).mono ?_
  rintro ⟨m, b⟩ ⟨-, h⟩
  refine (insertR_refines h 2).mono ?_
  rintro ⟨n, b'⟩ ⟨-, h'⟩
  exact ⟨h', not_insertedAfter h rfl rfl h'⟩

end CList

end Xframe.Comserv
