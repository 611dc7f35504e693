import Xframe.Lib.StableSort
import Xframe.Comserv.CListAssign

/-! `insertSort` and `remove(value)` of `clist.h` on values with a total order. -/

namespace Xframe.Comserv

open Xframe.Lib

variable {V : Type}

namespace Compare

structure TotalOrder (cmp : Compare V) : Prop where
  trans : ∀ a b c, cmp.le a b → cmp.le b c → cmp.le a c
  total : ∀ a b, cmp.le a b || cmp.le b a
  ge_eq : ∀ a b, cmp.ge a b = cmp.le b a
  eq_eq : ∀ a b, cmp.eq a b = (cmp.le a b && cmp.le b a)

def inOrder (cmp : Compare V) (mode : ℤ) (a b : V) : Bool := if mode = 0 then cmp.ge b a else cmp.le b a

variable {cmp : Compare V}

lemma TotalOrder.inOrder_eq (h : cmp.TotalOrder) (mode : ℤ) (a b : V) :
    cmp.inOrder mode a b = if mode = 0 then cmp.le a b else cmp.le b a := by
  rw [inOrder, h.ge_eq]

lemma TotalOrder.ranks (h : cmp.TotalOrder) (mode : ℤ) : Ranks (cmp.inOrder mode) := by
  constructor
  · intro a b c hab hbc
    rw [h.inOrder_eq] at hab hbc ⊢
    split_ifs at hab hbc ⊢
    · exact h.trans a b c hab hbc
    · exact h.trans c b a hbc hab
  · intro a b
    rw [h.inOrder_eq, h.inOrder_eq]
    split_ifs
    · exact h.total a b
    · exact h.total b a

lemma TotalOrder.alike_eq (h : cmp.TotalOrder) (mode : ℤ) (a b : V) : alike (cmp.inOrder mode) a b = cmp.eq a b := by
  rw [alike, h.inOrder_eq, h.inOrder_eq, h.eq_eq]
  split_ifs
  · rfl
  · exact Bool.and_comm _ _

end Compare

namespace CursorSeq

variable {cmp : Compare V}

lemma values_insertSort (s : CursorSeq V) (value : V) (mode : ℤ) :
    (s.insertSort cmp value mode).values = insertLast (cmp.inOrder mode) value s.values := by
  rw [insertLast, values, values, List.takeWhile_map, List.dropWhile_map, ← List.map_cons (f := Prod.snd)
    (a := (s.fresh, value)), ← List.map_append]
  rfl

end CursorSeq

namespace CList

variable {cmp : Compare V} {b : CList V} {s : CursorSeq V}

structure InsertedSorted (cmp : Compare V) (mode : ℤ) (value : V) (s : CursorSeq V) (n : ℕ) (b' : CList V) : Prop where
  length : n = s.items.length + 1
  nodes : ∃ l r, s.items = l ++ r ∧ b'.Represents ⟨l, (s.fresh, value) :: r, s.fresh + 1⟩ ∧ ∀ x ∈ r, ¬cmp.eq value x.2
  sorted : ∃ values, b'.contents = some values ∧ values.Pairwise (fun x y => cmp.inOrder mode x y) ∧
    values.Perm (value :: s.values)

lemma insertSort_sorted (hc : cmp.TotalOrder) (h : b.Represents s) {mode : ℤ} (value : V)
    (hs : s.values.Pairwise fun x y => cmp.inOrder mode x y) :
    Returns (b.insertSort cmp value mode) fun (n, b') => InsertedSorted cmp mode value s n b' := by
  refine (insertSort_refines cmp value h mode).mono ?_
  rintro ⟨n, b'⟩ ⟨hn, h'⟩
  have hranks := hc.ranks mode
  have hsplit := List.takeWhile_append_dropWhile (p := CursorSeq.passes cmp value mode) (l := s.items)
  refine ⟨?_, ⟨_, _, hsplit.symm, h', fun x hx => ?_⟩, ⟨_, contents_eq h', ?_, ?_⟩⟩
  · have hlen := congrArg List.length hsplit
    rw [List.length_append] at hlen
    rw [hn, ← hlen, CursorSeq.insertSort, CursorSeq.items, List.length_append, List.length_cons]
    rfl
  · have hmem : x.2 ∈ s.values.dropWhile fun y => cmp.inOrder mode y value := by
      rw [CursorSeq.values, List.dropWhile_map]
      exact List.mem_map_of_mem hx
    rw [← hc.alike_eq mode, alike, Bool.and_eq_true]
    rintro ⟨-, hle⟩
    exact hranks.not_le_of_mem_dropWhile hs hmem hle
  · rw [CursorSeq.values_insertSort]
    exact insertLast_sorted hranks hs
  · rw [CursorSeq.values_insertSort]
    exact insertLast_perm _ _ _

lemma insertSorts_represents (h : b.Represents s) (mode : ℤ) (values : List V) :
    Returns (runCalls (exec cmp) b (values.map fun value => .insertSort value mode)) fun (_, b') =>
      ∃ s', b'.Represents s' ∧
        s'.values = values.foldl (fun sorted value => insertLast (cmp.inOrder mode) value sorted) s.values := by
  induction values generalizing b s with
  | nil => exact (returns_some _ _).mpr ⟨s, h, rfl⟩
  | cons value values ih =>
    rw [List.map_cons, runCalls_cons]
    refine (ofLength_refines (insertSort_refines cmp value h mode)).bind ?_
    rintro ⟨a, b₁⟩ ⟨-, h₁⟩
    refine (ih h₁).bind ?_
    rintro ⟨as, b₂⟩ ⟨s', h₂, hvalues⟩
    rw [returns_some]
    refine ⟨s', h₂, ?_⟩
    rw [hvalues, List.foldl_cons, CursorSeq.values_insertSort]

theorem insertSort_remove_correct (hc : cmp.TotalOrder) (h : b.Represents s) (mode : ℤ) :
    ((s.values.Pairwise fun x y => cmp.inOrder mode x y) →
      ∀ value, Returns (b.insertSort cmp value mode) fun (n, b') => InsertedSorted cmp mode value s n b') ∧
    (b.count = 0 → ∀ values : List V,
      Returns (runCalls (exec cmp) b (values.map fun value => .insertSort value mode)) fun (_, b') =>
        b'.contents = some (values.mergeSort (cmp.inOrder mode))) ∧
    ∀ value v, s.deref value = some v →
      ((Returns (b.remove cmp value) fun (n, b') => n = s.items.countP (fun x => cmp.eq x.2 v) ∧
        ∃ s', b'.Represents s' ∧ s'.items = s.items.filter fun x => !cmp.eq x.2 v) ↔ ¬s.Dangles cmp value) := by
  refine ⟨fun hs value => insertSort_sorted hc h value hs, fun hempty values => ?_, fun value v hv => ⟨?_, fun hd => ?_⟩⟩
  · refine (insertSorts_represents h mode values).mono ?_
    rintro ⟨as, b'⟩ ⟨s', h', hvalues⟩
    have hnil : s.values = [] := by rw [CursorSeq.values, (count_eq_zero h).mp hempty, List.map_nil]
    dsimp only
    rw [contents_eq h', hvalues, hnil, foldl_insertLast (hc.ranks mode)]
  · rintro ⟨q, hq, -⟩ hd
    rw [remove_dangling cmp h hd] at hq
    cases hq
  · refine (remove_refines cmp v h hv hd).mono ?_
    rintro ⟨n, b'⟩ ⟨hn, h'⟩
    exact ⟨hn, _, h', List.append_nil _⟩

theorem remove_of_own_node :
    Returns (runCalls (exec natCompare) new [.pushBack 1, .pushBack 2]) fun (_, b) =>
      b.contents = some [1, 2] ∧ b.valueAt b.pHead = some 1 ∧ b.remove natCompare (.node b.pHead) = none :=
  ⟨_, rfl, by decide, by decide, by decide⟩

def keyCompare : Compare (ℕ × ℕ) :=
  ⟨fun a b => a.1 == b.1, fun a b => decide (b.1 ≤ a.1), fun a b => decide (a.1 ≤ b.1)⟩

lemma keyCompare_totalOrder : keyCompare.TotalOrder := by
  refine ⟨fun a b c hab hbc => ?_, fun a b => ?_, fun a b => rfl, fun a b => ?_⟩
  · simp only [keyCompare, decide_eq_true_eq] at hab hbc ⊢
    omega
  · simp only [keyCompare, Bool.or_eq_true, decide_eq_true_eq]
    omega
  · rw [Bool.eq_iff_iff, Bool.and_eq_true]
    simp only [keyCompare, beq_iff_eq, decide_eq_true_eq]
    omega

theorem insertSort_remove_same_key :
    Returns (runCalls (exec keyCompare) new ([(1, 0), (0, 0), (1, 1)].map fun value => .insertSort value 0))
      (fun (_, b) => b.contents = some [(0, 0), (1, 0), (1, 1)]) ∧
    Returns ((new : CList (ℕ × ℕ)).pushBackR (1, 0)) fun (_, b) =>
      Returns (b.insertSort keyCompare (1, 1) 0) (fun (n, b') =>
        InsertedSorted keyCompare 0 (1, 1) (CursorSeq.empty.pushBack (1, 0)) n b') ∧
      Returns (b.remove keyCompare (.outside (1, 1))) fun (n, b') => n = 1 ∧ ∃ s', b'.Represents s' ∧ s'.items = [] := by
  have hsorted : [(1, 0), (0, 0), (1, 1)].mergeSort (keyCompare.inOrder 0) = [(0, 0), (1, 0), (1, 1)] := by
    rw [← foldl_insertLast (keyCompare_totalOrder.ranks 0)]
    decide
  refine ⟨?_, (pushBackR_refines new_represents (1, 0)).mono ?_⟩
  · rw [← hsorted]
    exact (insertSort_remove_correct keyCompare_totalOrder new_represents 0).2.1 rfl _
  · rintro ⟨n, b⟩ ⟨-, h⟩
    obtain ⟨hinsert, -, hremove⟩ := insertSort_remove_correct keyCompare_totalOrder h 0
    refine ⟨hinsert (List.pairwise_singleton _ _) (1, 1), (hremove (.outside (1, 1)) (1, 1) rfl).mpr ?_⟩
    rintro ⟨_, _, _, _, hnode, -⟩
    cases hnode

end CList

end Xframe.Comserv
