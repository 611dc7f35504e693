import Xframe.Lib.Run

/-! `TaskTimerQueue` of `timerqueue.C` with its base `TimerQueue<TTimer>`. The priority queue
`mTimers` promises no order among timers due at the same time, so taking its top is a relation. -/

namespace Xframe.Kernel

open Xframe.Lib

structure TTimer where
  mPara : ℕ
  mWhen : ℕ
  mTimerMark : ℕ
  mTimerKey : ℕ
  mTimerDelay : ℕ
  mTimerTID : ℕ
  mTimerIID : ℕ
  deriving Repr, DecidableEq

def TTimer.new (timerMark timerKey timerDelay timerTID timerIID timerPara now : ℕ) : TTimer where
  mPara := timerPara
  mWhen := timerDelay + now
  mTimerMark := timerMark
  mTimerKey := timerKey
  mTimerDelay := timerDelay
  mTimerTID := timerTID
  mTimerIID := timerIID

structure TTimeOutMsg where
  timerMark : ℕ
  timerKey : ℕ
  timerDelay : ℕ
  timerTID : ℕ
  timerIID : ℕ
  timerPara : ℕ
  deriving Repr, DecidableEq

def TTimer.timeOut (t : TTimer) : TTimeOutMsg :=
  ⟨t.mTimerMark, t.mTimerKey, t.mTimerDelay, t.mTimerTID, t.mTimerIID, t.mPara⟩

structure TaskTimerQueue where
  mTimers : List TTimer
  mTimerStoped : ℕ → Option Bool
  mTimerKey : ℕ
  mFifo : List TTimeOutMsg
  freed : List ℕ

namespace TaskTimerQueue

def new : TaskTimerQueue := ⟨[], fun _ => none, 0, [], []⟩

def nextKey (q : TaskTimerQueue) : ℕ :=
  if (q.mTimerKey + 1) % 2 ^ 32 = 0 then 1 else (q.mTimerKey + 1) % 2 ^ 32

def add (q : TaskTimerQueue) (timerMark timerDelay timerTID timerIID timerPara now : ℕ) :
    ℕ × TaskTimerQueue :=
  let timer := TTimer.new timerMark q.nextKey timerDelay timerTID timerIID timerPara now
  (q.nextKey, { q with
    mTimerKey := q.nextKey
    mTimers := timer :: q.mTimers
    mTimerStoped := Function.update q.mTimerStoped q.nextKey (some true) })

def stop (q : TaskTimerQueue) (key : ℕ) : TaskTimerQueue :=
  match q.mTimerStoped key with
  | some true => { q with mTimerStoped := Function.update q.mTimerStoped key (some false) }
  | _ => q

def remove (q : TaskTimerQueue) (key : ℕ) : TaskTimerQueue :=
  { q with mTimerStoped := Function.update q.mTimerStoped key none }

def processTimer (q : TaskTimerQueue) (timer : TTimer) : TaskTimerQueue :=
  match q.mTimerStoped timer.mTimerKey with
  | some keyState => { q with
      mFifo := if keyState then q.mFifo ++ [timer.timeOut] else q.mFifo
      mTimerStoped := Function.update q.mTimerStoped timer.mTimerKey none }
  | none => { q with freed := if timer.mPara ≠ 0 then q.freed ++ [timer.mPara] else q.freed }

def pop (q : TaskTimerQueue) (timer : TTimer) : TaskTimerQueue :=
  { q with mTimers := q.mTimers.erase timer }

def Top (q : TaskTimerQueue) (timer : TTimer) : Prop :=
  timer ∈ q.mTimers ∧ ∀ u ∈ q.mTimers, timer.mWhen ≤ u.mWhen

def Armed (q : TaskTimerQueue) (timer : TTimer) : Prop :=
  timer ∈ q.mTimers ∧ q.mTimerStoped timer.mTimerKey = some true

instance (q : TaskTimerQueue) (timer : TTimer) : Decidable (q.Armed timer) :=
  inferInstanceAs (Decidable (_ ∧ _))

inductive Turns (now : ℕ) : TaskTimerQueue → List TTimer → TaskTimerQueue → Prop
  | nil {q} : Turns now q [] q
  | cons {q timer ts q'} : q.Top timer → ¬now < timer.mWhen →
      Turns now ((q.processTimer timer).pop timer) ts q' →
      Turns now q (if q.Armed timer then timer :: ts else ts) q'

def timerStepMax : ℕ := 1000

def msTillNextTimer (q : TaskTimerQueue) (now : ℕ) : ℕ :=
  match (q.mTimers.map TTimer.mWhen).min? with
  | none => timerStepMax
  | some next =>
    if next < now then 0
    else if 2 ^ 31 - 1 < next - now then timerStepMax
    else next - now

/-- A call with its result: the timer that `add` made, the timers that `process` fired, and the time
it answers from its second reading of the clock. -/
inductive Event where
  | add (timer : TTimer)
  | stop (key : ℕ)
  | remove (key : ℕ)
  | process (now : ℕ) (fired : List TTimer) (later ms : ℕ)

inductive Step : TaskTimerQueue → Event → TaskTimerQueue → Prop
  | add {q} (mark delay tid iid para now : ℕ) :
      Step q (.add (.new mark (q.add mark delay tid iid para now).1 delay tid iid para now))
        (q.add mark delay tid iid para now).2
  | stop {q} (key : ℕ) : Step q (.stop key) (q.stop key)
  | remove {q} (key : ℕ) : Step q (.remove key) (q.remove key)
  | process {q q'} {now : ℕ} {fired : List TTimer} (later : ℕ) : Turns now q fired q' →
      (∀ timer ∈ q'.mTimers, now < timer.mWhen) →
      Step q (.process now fired later (q'.msTillNextTimer later)) q'

def adds (es : List Event) : ℕ :=
  es.countP fun e => match e with
    | .add _ => true
    | _ => false

def fired (es : List Event) : List TTimer :=
  es.flatMap fun e => match e with
    | .process _ ts _ _ => ts
    | _ => []

def Keeps (timer : TTimer) : Event → Prop
  | .add _ => True
  | .stop key => key ≠ timer.mTimerKey
  | .remove key => key ≠ timer.mTimerKey
  | .process now _ _ _ => now < timer.mWhen

end TaskTimerQueue

end Xframe.Kernel
