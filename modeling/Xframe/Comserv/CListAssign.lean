import Xframe.Comserv.CListRuns
import Xframe.Comserv.Traversal

/-! `operator=` of `clist.h` on lists that are objects of their own, or one object on both sides. -/

namespace Xframe.Comserv.CList

open Xframe.Lib

variable {V ι : Type}

def contents (b : CList V) : Option (List V) := b.forIter (fun l v => some (l ++ [v])) []

lemma foldlM_snoc (l acc : List V) : l.foldlM (fun l v => some (l ++ [v])) acc = some (acc ++ l) := by
  induction l generalizing acc with
  | nil => rw [List.foldlM_nil, List.append_nil]; rfl
  | cons v l ih =>
    rw [List.foldlM_cons, Option.bind_eq_bind, Option.bind_some, ih, List.append_assoc]
    rfl

lemma contents_eq {b : CList V} {s : CursorSeq V} (h : b.Represents s) : b.contents = some s.values := by
  rw [contents, forIter_spec h, foldlM_snoc, List.nil_append]

lemma values_foldl_pushBack (l : List V) (s : CursorSeq V) : (l.foldl CursorSeq.pushBack s).values = s.values ++ l := by
  induction l generalizing s with
  | nil => rw [List.foldl_nil, List.append_nil]
  | cons v l ih =>
    rw [List.foldl_cons, ih, CursorSeq.values, CursorSeq.pushBack_items, List.map_append, List.append_assoc]
    rfl

section Objects

variable [DecidableEq ι]

def assignLoop (i j : ι) : ℕ → (ι → CList V) → Option (ι → CList V)
  | 0, _ => none
  | fuel + 1, lists => do
    let (r, v) ← (lists j).next
    let lists := Function.update lists j v
    if r then do
      let value ← (lists j).valueAt (lists j).pCurrent
      let (_, b) ← (lists i).pushBackR value
      assignLoop i j fuel (Function.update lists i b)
    else some lists

def assignObject (lists : ι → CList V) (i j : ι) : Option (ι → CList V) := do
  let b ← (lists i).clear
  let lists := Function.update lists i b
  let lists := Function.update lists j (lists j).resetD
  assignLoop i j ((lists j).count + 1) lists

variable {lists : ι → CList V} {seqs : ι → CursorSeq V} {i j : ι}

lemma update_both (hij : i ≠ j) (lists : ι → CList V) (b b' v v' : CList V) :
    Function.update (Function.update (Function.update (Function.update lists j v) i b) i b') j v' =
      Function.update (Function.update lists i b') j v' := by
  rw [Function.update_idem, Function.update_comm hij.symm, Function.update_idem]

lemma assignLoop_of_ne (hij : i ≠ j) (fuel : ℕ) (lists : ι → CList V) :
    assignLoop i j fuel lists = (assignFrom fuel (lists i) (lists j)).map fun (b, v) =>
      Function.update (Function.update lists i b) j v := by
  induction fuel generalizing lists with
  | zero => rfl
  | succ fuel ih =>
    rw [assignLoop, assignFrom]
    cases (lists j).next with
    | none => rfl
    | some p =>
      obtain ⟨r, v⟩ := p
      dsimp only [Option.bind_eq_bind, Option.bind_some]
      rw [Function.update_self, Function.update_of_ne hij]
      cases r with
      | false =>
        rw [if_neg Bool.false_ne_true, if_neg Bool.false_ne_true, Option.map_some, Function.update_eq_self]
      | true =>
        rw [if_pos rfl, if_pos rfl]
        cases v.valueAt v.pCurrent with
        | none => rfl
        | some value =>
          dsimp only [Option.bind_some]
          cases (lists i).pushBackR value with
          | none => rfl
          | some q =>
            obtain ⟨n, b⟩ := q
            dsimp only [Option.bind_some]
            rw [ih, Function.update_self, Function.update_of_ne hij.symm, Function.update_self]
            congr 1
            funext r
            exact update_both hij lists b r.1 v r.2

lemma assignObject_of_ne (hij : i ≠ j) (lists : ι → CList V) :
    assignObject lists i j = (assign (lists i) (lists j)).map fun (b, v) =>
      Function.update (Function.update lists i b) j v := by
  rw [assignObject, assign]
  cases (lists i).clear with
  | none => rfl
  | some b =>
    dsimp only [Option.bind_eq_bind, Option.bind_some]
    rw [Function.update_of_ne hij.symm, Function.update_self, assignLoop_of_ne hij, Function.update_of_ne hij,
      Function.update_self, Function.update_self]
    congr 1
    funext r
    rw [Function.update_comm hij]
    exact update_both hij lists b r.1 (lists j).resetD r.2

lemma assignLoop_self (fuel : ℕ) {s : CursorSeq V} (h : (lists i).Represents s) (hs : s.items = []) :
    Returns (assignLoop i i (fuel + 1) lists) fun lists' => (lists' i).Represents s := by
  rw [assignLoop]
  refine (next_refines h).bind ?_
  rintro ⟨r, v⟩ ⟨hr, hv⟩
  rw [next_of_nil hs] at hr hv
  obtain rfl : r = false := hr
  dsimp only at hv ⊢
  rw [if_neg Bool.false_ne_true, returns_some, Function.update_self]
  exact hv

lemma assignObject_self {s : CursorSeq V} (h : (lists i).Represents s) :
    Returns (assignObject lists i i) fun lists' => (lists' i).Represents s.clear := by
  rw [assignObject]
  refine (clear_refines h).bind fun b hb => ?_
  dsimp only
  apply assignLoop_self _ _ rfl
  rw [Function.update_self, Function.update_self]
  exact resetD_refines hb

theorem assignObject_copies_iff (h : RepresentAll lists seqs) (i j : ι) :
    Returns (assignObject lists i j) fun lists' =>
      ((lists' i).contents = (lists j).contents ∧ (lists' j).contents = (lists j).contents ↔
        i ≠ j ∨ (lists j).count = 0) := by
  rw [contents_eq (h j)]
  by_cases hij : i = j
  · subst hij
    refine (assignObject_self (h i)).mono fun lists' h' => ?_
    rw [contents_eq h', and_self, count_eq_zero (h i), Option.some.injEq]
    have hvalues : (seqs i).values = [] ↔ (seqs i).items = [] := List.map_eq_nil_iff
    rw [← hvalues]
    constructor
    · exact fun heq => Or.inr heq.symm
    · rintro (hne | heq)
      · exact (hne rfl).elim
      · exact heq.symm
  · rw [assignObject_of_ne hij]
    refine (assign_refines (h i) (h j)).map ?_
    rintro ⟨b, v⟩ ⟨hb, hv⟩
    dsimp only at hb hv ⊢
    rw [Function.update_of_ne hij, Function.update_self, Function.update_self, contents_eq hb, contents_eq hv]
    refine iff_of_true ⟨?_, ?_⟩ (Or.inl hij)
    · rw [CursorSeq.assign, values_foldl_pushBack]
      rfl
    · rw [CursorSeq.assign, CursorSeq.values, CursorSeq.toLast_items, CursorSeq.values]

end Objects

theorem assignObject_copies_one :
    Returns ((new : CList ℕ).pushBackR 1) fun (_, b) =>
      Returns (assignObject (Function.update (fun _ : Bool => new) true b) false true) fun lists' =>
        ((lists' false).contents = ((Function.update (fun _ : Bool => new) true b) true).contents ∧
          (lists' true).contents = ((Function.update (fun _ : Bool => new) true b) true).contents ↔
          false ≠ true ∨ ((Function.update (fun _ : Bool => new) true b) true).count = 0) := by
  refine (pushBackR_refines new_represents 1).mono ?_
  rintro ⟨n, b⟩ ⟨-, h⟩
  have hall : RepresentAll (fun _ : Bool => (new : CList ℕ)) fun _ => CursorSeq.empty := fun _ => new_represents
  exact assignObject_copies_iff (hall.update h) false true

theorem self_assignment_empties :
    Returns ((new : CList ℕ).pushBackR 1) fun (_, b) =>
      Returns (assignObject (fun _ : Unit => b) () ()) fun lists' =>
        b.contents = some [1] ∧ (lists' ()).contents = some [] := by
  refine (pushBackR_refines new_represents 1).mono ?_
  rintro ⟨n, b⟩ ⟨-, h⟩
  have hself : Returns (assignObject (fun _ : Unit => b) () ()) fun lists' =>
      (lists' ()).Represents (CursorSeq.empty.pushBack 1).clear := assignObject_self h
  refine hself.mono fun lists' h' => ?_
  rw [contents_eq h, contents_eq h']
  exact ⟨rfl, rfl⟩

end Xframe.Comserv.CList
