import Mathlib.Algebra.BigOperators.Group.Multiset.Basic
import Xframe.Kernel.TimerFiring

/-! The parameters that timers carry: each one given to `add` leaves the queue in a timeout message or is
deleted, except that of a stopped timer that becomes due. -/

namespace Xframe.Kernel.TaskTimerQueue

open Xframe.Lib

def deleteTop (q : TaskTimerQueue) (timer : TTimer) : TaskTimerQueue :=
  { q with freed := if timer.mPara ≠ 0 then q.freed ++ [timer.mPara] else q.freed }.pop timer

inductive Destroys : TaskTimerQueue → TaskTimerQueue → Prop
  | done {q : TaskTimerQueue} : q.mTimers = [] → Destroys q q
  | next {q q' : TaskTimerQueue} {timer : TTimer} : q.Top timer →
      Destroys (q.deleteTop timer) q' → Destroys q q'

def Forgets (q : TaskTimerQueue) (timer : TTimer) : Prop :=
  timer.mPara ≠ 0 ∧ q.mTimerStoped timer.mTimerKey = some false

instance (q : TaskTimerQueue) (timer : TTimer) : Decidable (q.Forgets timer) := inferInstanceAs (Decidable (_ ∧ _))

inductive CarefulTurns (now : ℕ) : TaskTimerQueue → List TTimer → TaskTimerQueue → Prop
  | nil {q : TaskTimerQueue} : CarefulTurns now q [] q
  | cons {q q' : TaskTimerQueue} {timer : TTimer} {ts : List TTimer} : q.Top timer → ¬now < timer.mWhen →
      ¬q.Forgets timer → CarefulTurns now (q.turn timer) ts q' →
      CarefulTurns now q (if q.Armed timer then timer :: ts else ts) q'

/-- A call in which no stopped timer with a parameter becomes due. -/
inductive CarefulStep : TaskTimerQueue → Event → TaskTimerQueue → Prop
  | call {q q' : TaskTimerQueue} {e : Event} : Step q e q' → (∀ now ts later ms, e ≠ .process now ts later ms) →
      CarefulStep q e q'
  | process {q q' : TaskTimerQueue} {now : ℕ} {ts : List TTimer} (later : ℕ) : CarefulTurns now q ts q' →
      (∀ timer ∈ q'.mTimers, now < timer.mWhen) →
      CarefulStep q (.process now ts later (q'.msTillNextTimer later)) q'

section Account

def owed (para : ℕ) : Multiset ℕ := if para ≠ 0 then {para} else 0

def handed (q : TaskTimerQueue) : Multiset ℕ := (q.mFifo.map fun msg => owed msg.timerPara).sum

def queued (q : TaskTimerQueue) : Multiset ℕ := (q.mTimers.map fun timer => owed timer.mPara).sum

def held (q : TaskTimerQueue) : Multiset ℕ := q.handed + q.freed + q.queued

def givenBy : Event → Multiset ℕ
  | .add timer => owed timer.mPara
  | _ => 0

def given (es : List Event) : Multiset ℕ := (es.map givenBy).sum

def Disposed (es : List Event) (q : TaskTimerQueue) : Prop := q.handed + q.freed = given es

variable {q q' : TaskTimerQueue} {timer : TTimer} {ts : List TTimer} {now : ℕ} {e : Event} {es : List Event}

lemma freed_owed (freed : List ℕ) (para : ℕ) :
    ((if para ≠ 0 then freed ++ [para] else freed : List ℕ) : Multiset ℕ) = freed + owed para := by
  rw [owed]
  split_ifs
  · rw [← Multiset.coe_add]
    rfl
  · exact (add_zero _).symm

lemma queued_turn (h : timer ∈ q.mTimers) : owed timer.mPara + (q.turn timer).queued = q.queued := by
  rw [queued, turn_timers]
  exact List.sum_map_erase (fun timer => owed timer.mPara) h

def forgotten (q : TaskTimerQueue) (timer : TTimer) : Multiset ℕ := if q.Forgets timer then owed timer.mPara else 0

lemma turn_settles (q : TaskTimerQueue) (timer : TTimer) :
    (q.turn timer).handed + (q.turn timer).freed + q.forgotten timer = q.handed + q.freed + owed timer.mPara := by
  cases hkey : q.mTimerStoped timer.mTimerKey with
  | none =>
    have hnot : ¬q.Forgets timer := fun hf => by cases hkey.symm.trans hf.2
    have hfreed : ((q.turn timer).freed : Multiset ℕ) = q.freed + owed timer.mPara := by
      rw [← freed_owed]
      simp [turn, processTimer, hkey, pop]
    have hfifo : (q.turn timer).mFifo = q.mFifo := by simp [turn, processTimer, hkey, pop]
    rw [forgotten, if_neg hnot, hfreed, handed, hfifo, add_zero, handed, add_assoc]
  | some keyState =>
    have hfreed : (q.turn timer).freed = q.freed := by simp [turn, processTimer, hkey, pop]
    have hfifo : (q.turn timer).mFifo = if keyState then q.mFifo ++ [timer.timeOut] else q.mFifo := by
      simp [turn, processTimer, hkey, pop]
    cases keyState with
    | true =>
      have hnot : ¬q.Forgets timer := fun hf => by cases hkey.symm.trans hf.2
      rw [forgotten, if_neg hnot, hfreed, handed, hfifo, if_pos rfl, List.map_append, List.sum_append, handed]
      simp only [List.map_cons, List.map_nil, List.sum_singleton, TTimer.timeOut, add_zero]
      exact add_right_comm _ _ _
    | false =>
      have howed : q.forgotten timer = owed timer.mPara := by
        by_cases hp : timer.mPara = 0
        · simp [forgotten, owed, hp]
        · exact if_pos ⟨hp, hkey⟩
      rw [howed, hfreed, handed, hfifo, handed]
      rfl

lemma turn_held (h : timer ∈ q.mTimers) : (q.turn timer).held + q.forgotten timer = q.held := by
  rw [held, held, add_right_comm, turn_settles, ← queued_turn h, add_assoc]

lemma forgotten_eq_zero_iff : q.forgotten timer = 0 ↔ ¬q.Forgets timer := by
  rw [forgotten]
  by_cases hf : q.Forgets timer
  · simp [hf, owed, hf.1]
  · simp [hf]

lemma Turns.account (h : Turns now q ts q') :
    ∃ lost, q'.held + lost = q.held ∧ (lost = 0 → CarefulTurns now q ts q') := by
  induction h with
  | nil => exact ⟨0, add_zero _, fun _ => .nil⟩
  | @cons q timer ts q' htop hdue _ ih =>
    obtain ⟨lost, heq, hcareful⟩ := ih
    refine ⟨lost + q.forgotten timer, ?_, fun hz => ?_⟩
    · rw [← add_assoc, heq]
      exact turn_held htop.1
    · obtain ⟨hlost, hforgot⟩ := add_eq_zero.mp hz
      exact .cons htop hdue (forgotten_eq_zero_iff.mp hforgot) (hcareful hlost)

lemma CarefulTurns.held_eq (h : CarefulTurns now q ts q') : q'.held = q.held := by
  induction h with
  | nil => rfl
  | @cons q q' timer ts htop _ hnot _ ih =>
    have hheld := turn_held htop.1
    rw [forgotten_eq_zero_iff.mpr hnot, add_zero] at hheld
    rw [ih, hheld]

lemma held_add (q : TaskTimerQueue) (mark delay tid iid para now : ℕ) :
    (q.add mark delay tid iid para now).2.held = q.held + owed para := by
  have hqueued : (q.add mark delay tid iid para now).2.queued = owed para + q.queued := List.sum_cons
  rw [held, hqueued, held, add_comm (owed para), ← add_assoc]
  rfl

lemma held_stop (q : TaskTimerQueue) (key : ℕ) : (q.stop key).held = q.held := by
  rw [stop_eq]
  rfl

lemma Step.account (h : Step q e q') :
    ∃ lost, q'.held + lost = q.held + givenBy e ∧ (lost = 0 → CarefulStep q e q') := by
  have hstep := h
  cases h with
  | add mark delay tid iid para now =>
    refine ⟨0, ?_, fun _ => .call hstep (by simp)⟩
    rw [held_add, add_zero]
    rfl
  | stop key =>
    refine ⟨0, ?_, fun _ => .call hstep (by simp)⟩
    rw [held_stop]
    rfl
  | remove key => exact ⟨0, rfl, fun _ => .call hstep (by simp)⟩
  | process later hturns hdue =>
    obtain ⟨lost, heq, hcareful⟩ := hturns.account
    exact ⟨lost, heq.trans (add_zero _).symm, fun hz => .process later (hcareful hz) hdue⟩

lemma CarefulStep.held_eq (h : CarefulStep q e q') : q'.held = q.held + givenBy e := by
  cases h with
  | call hstep hcall =>
    cases hstep with
    | add mark delay tid iid para now => exact held_add q mark delay tid iid para now
    | stop key => exact (held_stop q key).trans (add_zero _).symm
    | remove key => exact (add_zero _).symm
    | process later hturns hdue => exact absurd rfl (hcall _ _ _ _)
  | process later hturns hdue => exact hturns.held_eq.trans (add_zero _).symm

lemma given_snoc (es : List Event) (e : Event) : given (es ++ [e]) = given es + givenBy e := by
  rw [given, List.map_append, List.sum_append]
  exact congrArg (given es + ·) (List.sum_singleton)

lemma run_account (h : Run Step new es q) : ∃ lost, q.held + lost = given es ∧ (lost = 0 → Run CarefulStep new es q) := by
  induction h with
  | nil => exact ⟨0, rfl, fun _ => .nil⟩
  | @snoc es q q' e _ hstep ih =>
    obtain ⟨lost, heq, hrun⟩ := ih
    obtain ⟨more, hmore, hcareful⟩ := hstep.account
    refine ⟨lost + more, ?_, fun hz => ?_⟩
    · rw [given_snoc, ← heq, add_comm lost, ← add_assoc, hmore, add_right_comm]
    · obtain ⟨hlost, hm⟩ := add_eq_zero.mp hz
      exact .snoc (hrun hlost) (hcareful hm)

lemma careful_run_held (h : Run CarefulStep new es q) : q.held = given es := by
  induction h with
  | nil => rfl
  | snoc _ hstep ih => rw [given_snoc, hstep.held_eq, ih]

lemma held_deleteTop (h : timer ∈ q.mTimers) : (q.deleteTop timer).held = q.held := by
  have hqueued : owed timer.mPara + (q.deleteTop timer).queued = q.queued :=
    List.sum_map_erase (fun timer => owed timer.mPara) h
  have hfreed : ((q.deleteTop timer).freed : Multiset ℕ) = q.freed + owed timer.mPara := freed_owed _ _
  rw [held, hfreed, held, ← hqueued, ← add_assoc, ← add_assoc]
  rfl

lemma Destroys.settles (h : Destroys q q') : q'.handed + q'.freed = q.held := by
  induction h with
  | done hempty => simp [held, queued, hempty]
  | next htop _ ih => rw [ih, held_deleteTop htop.1]

lemma exists_destroys (q : TaskTimerQueue) : ∃ q', Destroys q q' := by
  induction hn : q.mTimers.length generalizing q with
  | zero => exact ⟨q, .done (List.length_eq_zero_iff.mp hn)⟩
  | succ n ih =>
    obtain ⟨t, ht⟩ := List.exists_mem_of_length_pos (l := q.mTimers) (by omega)
    obtain ⟨u, htop⟩ := exists_top ht
    have hlen : (q.deleteTop u).mTimers.length = n := by
      rw [show (q.deleteTop u).mTimers = q.mTimers.erase u from rfl, List.length_erase_of_mem htop.1, hn]
      rfl
    obtain ⟨q', hd⟩ := ih (q.deleteTop u) hlen
    exact ⟨q', .next htop hd⟩

end Account

theorem parameters_disposed_iff {es : List Event} {q : TaskTimerQueue} (h : Run Step new es q) :
    (∃ q', Destroys q q') ∧ ∀ q', Destroys q q' → (Disposed es q' ↔ Run CarefulStep new es q) := by
  refine ⟨exists_destroys q, fun q' hd => ?_⟩
  rw [Disposed, hd.settles]
  constructor
  · intro hheld
    obtain ⟨lost, heq, hcareful⟩ := run_account h
    rw [← hheld] at heq
    exact hcareful (by simpa using heq)
  · exact careful_run_held

section Samples

def sample : TTimer := .new 1 1 10 2 0 5 10

lemma run_sample : Run Step new [.add sample] (new.add 1 10 2 0 5 10).2 := .snoc .nil (.add 1 10 2 0 5 10)

theorem parameters_disposed_iff_added :
    (∃ q', Destroys (new.add 1 10 2 0 5 10).2 q') ∧ ∀ q', Destroys (new.add 1 10 2 0 5 10).2 q' →
      (Disposed [.add sample] q' ↔ Run CarefulStep new [.add sample] (new.add 1 10 2 0 5 10).2) :=
  parameters_disposed_iff run_sample

theorem parameters_disposed_fails : ¬∀ es q q', Run Step new es q → Destroys q q' → Disposed es q' := by
  intro h
  have htop : ((new.add 1 10 2 0 5 10).2.stop 1).Top sample :=
    ⟨List.mem_cons_self, fun u hu => (List.mem_singleton.mp hu) ▸ le_rfl⟩
  have hturns : Turns 20 ((new.add 1 10 2 0 5 10).2.stop 1) [] (((new.add 1 10 2 0 5 10).2.stop 1).turn sample) :=
    .cons htop (by decide) .nil
  have hempty : (((new.add 1 10 2 0 5 10).2.stop 1).turn sample).mTimers = [] := rfl
  have hlost := h _ _ _ (.snoc (.snoc run_sample (.stop 1)) (.process 20 hturns (by rw [hempty]; simp))) (.done hempty)
  revert hlost
  rw [Disposed]
  decide

end Samples

end Xframe.Kernel.TaskTimerQueue
