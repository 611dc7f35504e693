import Xframe.Kernel.TimerFiring
import Xframe.Msg.UniNetMsg

/-! `TTaskContainer` of `taskcontainer.C` as far as timers go: the timer queue that feeds the message
FIFO, and the loop that takes one message at a time from it. -/

namespace Xframe.Task

open Xframe.Lib Xframe.Kernel Xframe.Msg

inductive RxMsg where
  | timeOut (msg : TTimeOutMsg)
  | msg (msg : TMsg)
  deriving DecidableEq

structure TTaskContainer where
  mTTQ : TaskTimerQueue
  mTaskRxFifo : List RxMsg
  mTaskList : List ℕ

namespace TTaskContainer

def new (mTaskList : List ℕ) : TTaskContainer := ⟨.new, [], mTaskList⟩

def setTimer (c : TTaskContainer) (timerId timerDelay timerTID timerIID para now : ℕ) : ℕ × TTaskContainer :=
  if 0 < timerDelay then
    let (key, q) := c.mTTQ.add timerId timerDelay timerTID timerIID para now
    (key, { c with mTTQ := q })
  else (0, c)

def delTimer (c : TTaskContainer) (timerKey : ℕ) : TTaskContainer :=
  { c with mTTQ := c.mTTQ.remove timerKey }

def add (c : TTaskContainer) (msg : TMsg) : TTaskContainer :=
  { c with mTaskRxFifo := c.mTaskRxFifo ++ [.msg msg] }

def expire (c : TTaskContainer) (q : TaskTimerQueue) : TTaskContainer :=
  { c with
    mTTQ := { q with mFifo := [] }
    mTaskRxFifo := c.mTaskRxFifo ++ q.mFifo.map .timeOut }

/-- The next message of the FIFO, with the key that `processTimeout` of a task is called with. -/
def dispatch (c : TTaskContainer) : Option ℕ × TTaskContainer :=
  match c.mTaskRxFifo with
  | [] => (none, c)
  | .timeOut msg :: rest =>
    (if msg.timerTID ∈ c.mTaskList then some msg.timerKey else none, { c with mTaskRxFifo := rest })
  | .msg _ :: rest => (none, { c with mTaskRxFifo := rest })

inductive Event where
  | setTimer (timerKey : ℕ)
  | delTimer (timerKey : ℕ)
  | add (msg : TMsg)
  | process (processTimeout : Option ℕ)

/-- A call of `process` lets the timers run, waits while messages may arrive, and dispatches one message.
What a handler does with timers are steps of its own behind it. -/
inductive Step : TTaskContainer → Event → TTaskContainer → Prop
  | setTimer {c} (timerId timerDelay timerTID timerIID para now : ℕ) :
      Step c (.setTimer (c.setTimer timerId timerDelay timerTID timerIID para now).1)
        (c.setTimer timerId timerDelay timerTID timerIID para now).2
  | delTimer {c} (timerKey : ℕ) : Step c (.delTimer timerKey) (c.delTimer timerKey)
  | add {c} (msg : TMsg) : Step c (.add msg) (c.add msg)
  | process {c} {now : ℕ} {fired : List TTimer} {q : TaskTimerQueue} (arrived : List TMsg) :
      TaskTimerQueue.Turns now { c.mTTQ with mFifo := [] } fired q → (∀ timer ∈ q.mTimers, now < timer.mWhen) →
      Step c (.process (arrived.foldl add (c.expire q)).dispatch.1) (arrived.foldl add (c.expire q)).dispatch.2

/-- No timeout of the key waits in the FIFO for a registered task. -/
def NoneWaiting (c : TTaskContainer) (timerKey : ℕ) : Prop :=
  ∀ msg, RxMsg.timeOut msg ∈ c.mTaskRxFifo → msg.timerKey = timerKey → msg.timerTID ∉ c.mTaskList

structure Silent (c : TTaskContainer) (timerKey : ℕ) : Prop where
  gone : c.mTTQ.mTimerStoped timerKey = none
  waiting : c.NoneWaiting timerKey

variable {c c' : TTaskContainer} {e : Event} {es post : List Event} {key : ℕ}

@[simp] lemma foldl_add (arrived : List TMsg) (c : TTaskContainer) :
    arrived.foldl add c = { c with mTaskRxFifo := c.mTaskRxFifo ++ arrived.map .msg } := by
  induction arrived generalizing c with
  | nil => simp
  | cons m ms ih =>
    rw [List.foldl_cons, ih]
    simp [add]

lemma turns_silent {now : ℕ} {fired : List TTimer} {q q' : TaskTimerQueue}
    (h : TaskTimerQueue.Turns now q fired q') (hkey : q.mTimerStoped key = none)
    (hq : ∀ msg ∈ q.mFifo, msg.timerKey ≠ key) :
    q'.mTimerStoped key = none ∧ ∀ msg ∈ q'.mFifo, msg.timerKey ≠ key := by
  induction h with
  | nil => exact ⟨hkey, hq⟩
  | @cons q timer _ _ _ _ _ ih =>
    apply ih
    · change (q.turn timer).mTimerStoped key = none
      rw [TaskTimerQueue.turn_table, Function.update_apply, hkey, ite_self]
    · change ∀ msg ∈ (q.processTimer timer).mFifo, _
      rw [TaskTimerQueue.processTimer]
      split
      · next keyState hstate =>
        dsimp only
        split
        · intro msg hmsg
          rcases List.mem_append.mp hmsg with hmsg | hmsg
          · exact hq msg hmsg
          · rw [List.mem_singleton.mp hmsg]
            rintro heq
            rw [show timer.mTimerKey = key from heq, hkey] at hstate
            simp at hstate
        · exact hq
      · exact hq

lemma Silent.fifo (h : Silent c key) {fifo : List RxMsg} (hsub : fifo ⊆ c.mTaskRxFifo) :
    Silent { c with mTaskRxFifo := fifo } key :=
  ⟨h.gone, fun msg hmsg => h.waiting msg (hsub hmsg)⟩

lemma Silent.dispatch (h : Silent c key) : c.dispatch.1 ≠ some key ∧ Silent c.dispatch.2 key := by
  rw [TTaskContainer.dispatch]
  split
  · exact ⟨by simp, h⟩
  · next msg rest heq =>
    refine ⟨?_, h.fifo (by rw [heq]; exact List.subset_cons_self _ _)⟩
    dsimp only
    split
    · next htask =>
      intro hk
      exact h.waiting msg (by rw [heq]; exact List.mem_cons_self) (Option.some.inj hk) htask
    · simp
  · next msg rest heq => exact ⟨by simp, h.fifo (by rw [heq]; exact List.subset_cons_self _ _)⟩

lemma Silent.step (h : Silent c key) (hs : Step c e c') (hnew : e ≠ .setTimer key) :
    e ≠ .process (some key) ∧ Silent c' key := by
  cases hs with
  | setTimer timerId timerDelay timerTID timerIID para now =>
    refine ⟨by simp, ?_⟩
    rw [TTaskContainer.setTimer] at hnew ⊢
    split
    · next hpos =>
      rw [if_pos hpos] at hnew
      refine ⟨?_, h.waiting⟩
      change Function.update c.mTTQ.mTimerStoped c.mTTQ.nextKey (some true) key = none
      rw [Function.update_of_ne]
      · exact h.gone
      · rintro rfl
        exact hnew rfl
    · exact h
  | delTimer timerKey =>
    refine ⟨by simp, ?_, h.waiting⟩
    change Function.update c.mTTQ.mTimerStoped timerKey none key = none
    rw [Function.update_apply, h.gone, ite_self]
  | add msg =>
    refine ⟨by simp, h.gone, fun m hm => ?_⟩
    rcases List.mem_append.mp hm with hm | hm
    · exact h.waiting m hm
    · simp at hm
  | @process now fired q arrived hturns hdue =>
    obtain ⟨hgone, hfifo⟩ := turns_silent hturns h.gone (by simp)
    have hsilent : Silent (arrived.foldl TTaskContainer.add (c.expire q)) key := by
      rw [foldl_add]
      refine ⟨hgone, fun m hm => ?_⟩
      rcases List.mem_append.mp hm with hm | hm
      · rcases List.mem_append.mp hm with hm | hm
        · exact h.waiting m hm
        · obtain ⟨m', hm', heq⟩ := List.mem_map.mp hm
          cases heq
          exact fun hk => absurd hk (hfifo m hm')
      · simp at hm
    obtain ⟨h1, h2⟩ := hsilent.dispatch
    exact ⟨fun heq => h1 (Event.process.inj heq), h2⟩

lemma Silent.run (h : Silent c key) (hr : Run Step c es c') (hnew : Event.setTimer key ∉ es) :
    Event.process (some key) ∉ es ∧ Silent c' key := by
  induction hr with
  | nil => exact ⟨by simp, h⟩
  | snoc _ hs ih =>
    rw [List.mem_append, not_or] at hnew
    obtain ⟨hnone, hsilent⟩ := ih hnew.1
    obtain ⟨he, hsilent'⟩ := hsilent.step hs fun heq => hnew.2 (List.mem_singleton.mpr heq.symm)
    refine ⟨?_, hsilent'⟩
    rw [List.mem_append, List.mem_singleton, not_or]
    exact ⟨hnone, fun heq => he heq.symm⟩

lemma process_first {x : RxMsg} {rest : List RxMsg} (hx : c.mTaskRxFifo = x :: rest) :
    ∃ more c', Step c (.process c.dispatch.1) c' ∧ c'.mTaskRxFifo = rest ++ more ∧ c'.mTaskList = c.mTaskList := by
  obtain ⟨fired, q, hturns, hdue⟩ := TaskTimerQueue.exists_turns { c.mTTQ with mFifo := [] } 0
  have hstep := Step.process (c := c) [] hturns hdue
  have hfifo : (c.expire q).mTaskRxFifo = x :: (rest ++ q.mFifo.map .timeOut) := by
    rw [expire, hx]
    rfl
  rw [List.foldl_nil] at hstep
  have hsame : (c.expire q).dispatch.1 = c.dispatch.1 := by
    rw [dispatch, dispatch, hfifo, hx]
    cases x <;> rfl
  refine ⟨q.mFifo.map .timeOut, (c.expire q).dispatch.2, hsame ▸ hstep, ?_, ?_⟩
  · rw [dispatch, hfifo]
    cases x <;> rfl
  · rw [dispatch, hfifo]
    cases x <;> rfl

lemma waiting_processed (key : ℕ) {msg : TTimeOutMsg} {before behind : List RxMsg}
    (hw : c.mTaskRxFifo = before ++ .timeOut msg :: behind) (htask : msg.timerTID ∈ c.mTaskList) :
    ∃ post c', Run Step c post c' ∧ Event.setTimer key ∉ post ∧ Event.process (some msg.timerKey) ∈ post := by
  induction before generalizing c behind with
  | nil =>
    obtain ⟨more, c', hstep, -, -⟩ := process_first hw
    have hinv : c.dispatch.1 = some msg.timerKey := by
      rw [dispatch, hw]
      exact if_pos htask
    rw [hinv] at hstep
    exact ⟨[.process (some msg.timerKey)], c', .cons hstep .nil, by simp, by simp⟩
  | cons x before ih =>
    rw [List.cons_append] at hw
    obtain ⟨more, c', hstep, hfifo, hlist⟩ := process_first hw
    rw [List.append_assoc, List.cons_append] at hfifo
    obtain ⟨post, c'', hrun, hnew, hmem⟩ := ih hfifo (hlist ▸ htask)
    exact ⟨_, c'', .cons hstep hrun, by simp [hnew], List.mem_cons_of_mem _ hmem⟩

theorem deleted_timer_silent_iff (c : TTaskContainer) (key : ℕ) :
    (∀ post c', Run Step (c.delTimer key) post c' → Event.setTimer key ∉ post →
      Event.process (some key) ∉ post) ↔ c.NoneWaiting key := by
  constructor
  · intro hall msg hmsg hkey htask
    obtain ⟨before, behind, hw⟩ := List.append_of_mem hmsg
    have hw' : (c.delTimer key).mTaskRxFifo = before ++ .timeOut msg :: behind := hw
    obtain ⟨post, c', hrun, hnew, hmem⟩ := waiting_processed key hw' htask
    exact hall post c' hrun hnew (hkey ▸ hmem)
  · intro hnone post c' hrun hnew
    have hsilent : Silent (c.delTimer key) key := ⟨Function.update_self _ _ _, hnone⟩
    exact (hsilent.run hrun hnew).1

def timerSet : TTaskContainer := ((new [7]).add .other |>.setTimer 3 50 7 0 0 1000).2

theorem deleted_timer_processed : ¬∀ pre key post c, Run Step (new [7]) (pre ++ .delTimer key :: post) c →
    Event.setTimer key ∉ post → Event.process (some key) ∉ post := by
  intro hall
  have htop : (TaskTimerQueue.Top { timerSet.mTTQ with mFifo := [] } (.new 3 1 50 7 0 0 1000)) :=
    ⟨List.mem_cons_self, fun u hu => (List.mem_singleton.mp hu) ▸ le_rfl⟩
  have hturns : TaskTimerQueue.Turns 1050 { timerSet.mTTQ with mFifo := [] } [.new 3 1 50 7 0 0 1000]
      (TaskTimerQueue.turn { timerSet.mTTQ with mFifo := [] } (.new 3 1 50 7 0 0 1000)) :=
    .cons htop (by decide) .nil
  have hdue : ∀ t ∈ (TaskTimerQueue.turn { timerSet.mTTQ with mFifo := [] }
      (.new 3 1 50 7 0 0 1000)).mTimers, 1050 < t.mWhen := by
    rw [TaskTimerQueue.turn_timers]
    decide
  have hset : Run Step (new [7]) [.add .other, .setTimer 1] timerSet :=
    .cons (.add .other) (.cons (.setTimer 3 50 7 0 0 1000) .nil)
  have hfirst : Run Step (new [7]) [.add .other, .setTimer 1, .process none] _ := .snoc hset (.process [] hturns hdue)
  have hdel : Run Step (new [7]) [.add .other, .setTimer 1, .process none, .delTimer 1] _ :=
    .snoc hfirst (.delTimer 1)
  have hsecond : Run Step (new [7]) [.add .other, .setTimer 1, .process none, .delTimer 1, .process (some 1)] _ :=
    .snoc hdel (.process [] .nil hdue)
  exact hall [.add .other, .setTimer 1, .process none] 1 [.process (some 1)] _ hsecond (by simp) (by simp)

end TTaskContainer

end Xframe.Task
