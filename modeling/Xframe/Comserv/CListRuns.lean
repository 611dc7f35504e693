import Xframe.Lib.Refine
import Xframe.Comserv.CListAnswers

/-! Runs of calls on any number of lists. After every run each list represents the sequence that the
same operations make, with its ring, its head, tail and current pointers and its count; what the calls
handed out is what the sequences hand out exactly when no call of the run was misread. -/

namespace Xframe.Comserv.CList

open Xframe.Lib

variable {V ι : Type} (cmp : Compare V)

lemma answered {b : Option (Answer V × CList V)} {p : Answer V × CursorSeq V} {Q : Prop}
    (h : Returns b fun (a, b') => a = p.1 ∧ b'.Represents p.2) (hq : ¬Q) :
    Returns b fun (a, b') => (a = p.1 ↔ ¬Q) ∧ b'.Represents p.2 :=
  h.mono fun _ ⟨ha, hb⟩ => ⟨iff_of_true ha hq, hb⟩

lemma ofLength_refines {m : Option (ℕ × CList V)} {n : ℕ} {s : CursorSeq V}
    (h : Returns m fun (k, b') => k = n ∧ b'.Represents s) :
    Returns (m.map Answer.ofLength) fun (a, b') => a = .length n none ∧ b'.Represents s :=
  h.map fun (k, b') ⟨hk, hb⟩ => ⟨by rw [← hk], hb⟩

lemma ofFlag_refines {m : Option (Bool × CList V)} {r : Bool} {s : CursorSeq V}
    (h : Returns m fun (k, b') => k = r ∧ b'.Represents s) :
    Returns (m.map Answer.ofFlag) fun (a, b') => a = .flag r none ∧ b'.Represents s :=
  h.map fun (k, b') ⟨hk, hb⟩ => ⟨by rw [← hk], hb⟩

lemma void_refines {m : Option (CList V)} {s : CursorSeq V}
    (h : Returns m fun b' => b'.Represents s) :
    Returns (m.map (Prod.mk (Answer.void : Answer V))) fun (a, b') => a = .void ∧ b'.Represents s :=
  h.map fun _ hb => ⟨rfl, hb⟩

theorem exec_refines {b : CList V} {s : CursorSeq V} (h : b.Represents s) (op : Op V)
    (hl : op.Legal s) (hd : ¬op.Dangling cmp s) :
    Returns (b.exec cmp op) fun (a, b') =>
      (a = (s.step cmp op).1 ↔ ¬op.Misread s) ∧ b'.Represents (s.step cmp op).2 := by
  cases op with
  | pushFront value => exact answered (ofLength_refines (pushFrontR_refines h value)) id
  | pushBack value => exact answered (ofLength_refines (pushBackR_refines h value)) id
  | popFront => exact answered (ofLength_refines (popFront_refines h)) id
  | popBack => exact answered (ofLength_refines (popBack_refines h)) id
  | popCurrent => exact answered (ofLength_refines (popCurrent_refines h)) id
  | popFrontValue => exact answered (popFrontValue_refines h) id
  | popBackValue => exact answered (popBackValue_refines h) id
  | popCurrentValue => exact answered (popCurrentValue_refines h) id
  | insertSort value mode => exact answered (ofLength_refines (insertSort_refines cmp value h mode)) id
  | remove value =>
    obtain ⟨v, hv⟩ := Option.ne_none_iff_exists'.mp hl
    rw [CursorSeq.step_remove cmp hv]
    exact answered (ofLength_refines (remove_refines cmp v h hv hd)) id
  | removeByHandle handle => exact answered (void_refines (removeByHandle_refines h hl)) id
  | set pos value => exact answered (ofFlag_refines (set_refines h pos value)) id
  | get pos => exact answered (get_refines h pos) id
  | reset => exact answered ((returns_some _ _).mpr ⟨rfl, reset_refines h⟩) id
  | resetT => exact answered ((returns_some _ _).mpr ⟨rfl, resetT_refines h⟩) id
  | resetD => exact answered ((returns_some _ _).mpr ⟨rfl, resetD_refines h⟩) id
  | resetPos index => exact resetPos_answers h index
  | front => exact answered (ofFlag_refines ((returns_some _ _).mpr (front_refines h))) id
  | back => exact answered (ofFlag_refines ((returns_some _ _).mpr (back_refines h))) id
  | next => exact answered (ofFlag_refines (next_refines h)) id
  | prev => exact prev_answers h
  | frontValue => exact answered (frontValue_refines h) id
  | backValue => exact answered (backValue_refines h) id
  | nextValue => exact answered (nextValue_refines h) id
  | prevValue => exact prevValue_answers h
  | nextD => exact nextD_refines h
  | prevD => exact prevD_refines h
  | current => exact answered (current_refines h) id
  | contain value =>
    obtain ⟨v, hv⟩ := Option.ne_none_iff_exists'.mp hl
    rw [CursorSeq.step_contain cmp hv]
    exact answered (ofFlag_refines (contain_refines cmp v h (deref_refines h hv))) id
  | clear => exact answered (void_refines (clear_refines h)) id

lemma exec_dangling {b : CList V} {s : CursorSeq V} (h : b.Represents s) {op : Op V} (hd : op.Dangling cmp s) :
    b.exec cmp op = none := by
  cases op with
  | remove value =>
    change (b.remove cmp value).map _ = none
    rw [remove_dangling cmp h hd]
    rfl
  | _ => exact absurd hd id

section System

variable [DecidableEq ι]

inductive Call (ι V : Type)
  | on (i : ι) (op : Op V)
  | assign (i j : ι)

def execCall (lists : ι → CList V) : Call ι V → Option (Answer V × (ι → CList V))
  | .on i op => do
    let (a, b) ← (lists i).exec cmp op
    some (a, Function.update lists i b)
  | .assign i j => do
    let (b, v) ← CList.assign (lists i) (lists j)
    some (.void, Function.update (Function.update lists i b) j v)

def stepCall (seqs : ι → CursorSeq V) : Call ι V → Answer V × (ι → CursorSeq V)
  | .on i op => (((seqs i).step cmp op).1, Function.update seqs i ((seqs i).step cmp op).2)
  | .assign i j =>
    (.void, Function.update (Function.update seqs i ((seqs i).assign (seqs j)).1) j
      ((seqs i).assign (seqs j)).2)

/-- Handles and references are to live nodes, and no list is assigned to itself. -/
def Call.Legal (seqs : ι → CursorSeq V) : Call ι V → Prop
  | .on i op => op.Legal (seqs i)
  | .assign i j => i ≠ j

def Call.Misread (seqs : ι → CursorSeq V) : Call ι V → Prop
  | .on i op => op.Misread (seqs i)
  | .assign _ _ => False

def Call.Dangling (seqs : ι → CursorSeq V) : Call ι V → Prop
  | .on i op => op.Dangling cmp (seqs i)
  | .assign _ _ => False

def RepresentAll (lists : ι → CList V) (seqs : ι → CursorSeq V) : Prop :=
  ∀ i, (lists i).Represents (seqs i)

lemma RepresentAll.update {lists : ι → CList V} {seqs : ι → CursorSeq V} (h : RepresentAll lists seqs)
    {i : ι} {b : CList V} {s : CursorSeq V} (hb : b.Represents s) :
    RepresentAll (Function.update lists i b) (Function.update seqs i s) := by
  intro j
  by_cases hj : j = i
  · rw [hj, Function.update_self, Function.update_self]
    exact hb
  · rw [Function.update_of_ne hj, Function.update_of_ne hj]
    exact h j

lemma execCall_refines {lists : ι → CList V} {seqs : ι → CursorSeq V} (h : RepresentAll lists seqs)
    (c : Call ι V) (hl : c.Legal seqs) (hd : ¬c.Dangling cmp seqs) :
    Returns (execCall cmp lists c) fun (a, lists') =>
      (a = (stepCall cmp seqs c).1 ↔ ¬c.Misread seqs) ∧ RepresentAll lists' (stepCall cmp seqs c).2 := by
  cases c with
  | on i op =>
    refine (exec_refines cmp (h i) op hl hd).bind fun (a, b) ⟨ha, hb⟩ => ?_
    exact (returns_some _ _).mpr ⟨ha, h.update hb⟩
  | assign i j =>
    refine (assign_refines (h i) (h j)).bind fun (b, v) ⟨hb, hv⟩ => ?_
    exact (returns_some _ _).mpr ⟨iff_of_true rfl id, (h.update hb).update hv⟩

lemma execCall_dangling {lists : ι → CList V} {seqs : ι → CursorSeq V} (h : RepresentAll lists seqs) {c : Call ι V}
    (hd : c.Dangling cmp seqs) : execCall cmp lists c = none := by
  cases c with
  | on i op =>
    rw [execCall, exec_dangling cmp (h i) hd]
    rfl
  | assign i j => exact absurd hd id

theorem calls_refine_sequences_iff [Inhabited V] (calls : List (Call ι V))
    (hl : Along (stepCall cmp) (fun seqs c => c.Legal seqs) (fun _ => CursorSeq.empty) calls) :
    ((Returns (runCalls (execCall cmp) (fun _ => new) calls) fun (answers, lists) =>
      answers = (runSteps (stepCall cmp) (fun _ => CursorSeq.empty) calls).1 ∧
        RepresentAll lists (runSteps (stepCall cmp) (fun _ => CursorSeq.empty) calls).2) ↔
      Along (stepCall cmp) (fun seqs c => ¬c.Dangling cmp seqs) (fun _ => CursorSeq.empty) calls ∧
        Along (stepCall cmp) (fun seqs c => ¬c.Misread seqs) (fun _ => CursorSeq.empty) calls) ∧
    (Along (stepCall cmp) (fun seqs c => ¬c.Dangling cmp seqs) (fun _ => CursorSeq.empty) calls →
      Returns (runCalls (execCall cmp) (fun _ => new) calls) fun (answers, lists) =>
        (answers = (runSteps (stepCall cmp) (fun _ => CursorSeq.empty) calls).1 ↔
          Along (stepCall cmp) (fun seqs c => ¬c.Misread seqs) (fun _ => CursorSeq.empty) calls) ∧
        RepresentAll lists (runSteps (stepCall cmp) (fun _ => CursorSeq.empty) calls).2) := by
  have hnew : RepresentAll (fun _ : ι => (new : CList V)) fun _ => CursorSeq.empty := fun _ => new_represents
  have hrun := fun hd => runCalls_refines_iff RepresentAll _ _
    (fun _ _ c h hc => execCall_refines cmp h c hc.1 hc.2) hnew calls (hl.and hd)
  refine ⟨⟨?_, fun ⟨hd, hm⟩ => ?_⟩, hrun⟩
  · rintro ⟨⟨answers, lists⟩, hq, hanswers, -⟩
    have hd := along_of_runCalls RepresentAll _ (fun seqs c => ¬c.Dangling cmp seqs)
      (fun _ _ c h hc hd => (execCall_refines cmp h c hc hd).mono fun _ ⟨_, h'⟩ => h')
      (fun _ _ c h _ hd => execCall_dangling cmp h (not_not.mp hd)) hnew hl hq
    obtain ⟨q, hq', hiff, -⟩ := hrun hd
    cases hq.symm.trans hq'
    exact ⟨hd, hiff.mp hanswers⟩
  · exact (hrun hd).mono fun _ ⟨hiff, h'⟩ => ⟨hiff.mpr hm, h'⟩

end System

def natCompare : Compare ℕ := ⟨fun a b => a == b, fun a b => decide (b ≤ a), fun a b => decide (a ≤ b)⟩

def sortedCopy : List (Call Bool ℕ) :=
  [.on true (.insertSort 5 0), .on true (.insertSort 3 0), .on true (.insertSort 4 0), .assign false true,
    .on false (.remove (.outside 4)), .on false .nextD, .on true (.removeByHandle 3), .on true .prevD]

theorem sortedCopy_refines :
    ((Returns (runCalls (execCall natCompare) (fun _ => new) sortedCopy) fun (answers, lists) =>
      answers = (runSteps (stepCall natCompare) (fun _ => CursorSeq.empty) sortedCopy).1 ∧
        RepresentAll lists (runSteps (stepCall natCompare) (fun _ => CursorSeq.empty) sortedCopy).2) ↔
      Along (stepCall natCompare) (fun seqs c => ¬c.Dangling natCompare seqs) (fun _ => CursorSeq.empty) sortedCopy ∧
        Along (stepCall natCompare) (fun seqs c => ¬c.Misread seqs) (fun _ => CursorSeq.empty) sortedCopy) ∧
    (Along (stepCall natCompare) (fun seqs c => ¬c.Dangling natCompare seqs) (fun _ => CursorSeq.empty) sortedCopy →
      Returns (runCalls (execCall natCompare) (fun _ => new) sortedCopy) fun (answers, lists) =>
        (answers = (runSteps (stepCall natCompare) (fun _ => CursorSeq.empty) sortedCopy).1 ↔
          Along (stepCall natCompare) (fun seqs c => ¬c.Misread seqs) (fun _ => CursorSeq.empty) sortedCopy) ∧
        RepresentAll lists (runSteps (stepCall natCompare) (fun _ => CursorSeq.empty) sortedCopy).2) :=
  calls_refine_sequences_iff natCompare sortedCopy
    ⟨trivial, trivial, trivial, Bool.false_ne_true, Option.some_ne_none 4, trivial, Or.inr (by decide), trivial, trivial⟩

theorem sentinel_handed_out :
    (runCalls (execCall natCompare) (fun _ : Unit => new) [.on () .prevValue]).map Prod.fst =
      some [⟨some 1, some default⟩] ∧
    (runSteps (stepCall natCompare) (fun _ : Unit => CursorSeq.empty) [.on () .prevValue]).1 =
      [⟨some 0, none⟩] := by
  decide

end Xframe.Comserv.CList
