import Xframe.Comserv.ExpireLookup
import Xframe.Lib.Heap
import Xframe.Lib.Refine
import Xframe.Msg.UniNetMsg

/-! `TMPTask` of `mptask.C`: contexts that are created for a dialog, found by an id of 32 bits, and
destroyed after a message, after a timer or by the recycle timer. Contexts are objects on a heap. -/

namespace Xframe.Task

open Xframe.Comserv Xframe.Lib Xframe.Msg

structure TTaskContext where
  mCID : UInt32
  mCreateTag : Bool
  mReleaseTag : Bool

/-- What `TMPTask` reads and writes of a message: its dialog type, and `tAddr.taskCtxID`. -/
structure CtxMsg where
  dialogType : ℕ
  taskCtxID : UInt32
  deriving DecidableEq

/-- The list maps an id to the address of its context; address zero is `NULL`. -/
structure TMPTask where
  heap : Heap TTaskContext
  mTaskCTXList : ExpireMap UInt32 ℕ
  mTaskCID : UInt32
  mTaskCTX : ℕ
  mDefaultTaskCTX : ℕ
  mMaxTaskCID : UInt32
  mContextCount : UInt32
  mContextRecycleRate : UInt32
  timerContextRefreshKey : UInt32
  timerContextRefreshDelay : UInt32

inductive Effect where
  | create (ctx : ℕ)
  | delete (ctx : ℕ)
  | procMsg (msg : CtxMsg) (cid : UInt32) (ctx : ℕ)
  | onTimeOut (timerKey : UInt32) (para : ℕ) (cid : UInt32) (ctx : ℕ)
  | deletePara (para : ℕ)
  | setTimer (timerDelay : UInt32)
  deriving DecidableEq

/-- The clock, the key of the next timer, and the handlers of the application: the contexts that each of
them releases, what `onContextCreate` creates, and the answers of `onContextExpire` in their order. -/
structure Handlers where
  currentTime : ℤ
  now : ℤ
  timerKey : UInt32
  handled : List UInt32
  onContextCreate : List UInt32 × Option TTaskContext
  onContextExpire : ℕ → List UInt32 × Bool

namespace TMPTask

/-- `internalInit`, with the context that `onContextCreate` makes. The counter of ids is not initialised. -/
def internalInit (ctx : TTaskContext) (mMaxTaskCID mContextRecycleRate mContextRefershInterval timerKey
    timerContextRefreshDelay : UInt32) : TMPTask :=
  let (p, heap) := Heap.empty.alloc { ctx with mCreateTag := false }
  { heap
    mTaskCTXList := .new 0 false mContextRefershInterval.toNat
    mTaskCID := 0
    mTaskCTX := 0
    mDefaultTaskCTX := p
    mMaxTaskCID
    mContextCount := 0
    mContextRecycleRate
    timerContextRefreshKey := timerKey
    timerContextRefreshDelay }

def contextOf (t : TMPTask) (cid : UInt32) : ℕ := (t.mTaskCTXList.lookup cid).getD 0

def releaseContext (t : TMPTask) (cid : UInt32) : Option TMPTask := do
  let p := if cid ≠ 0 ∧ cid ≠ t.mTaskCID then t.contextOf cid else t.contextOf t.mTaskCID
  let heap ← t.heap.modify p fun ctx => { ctx with mReleaseTag := true }
  some { t with heap }

def handle (t : TMPTask) : List UInt32 → Option TMPTask
  | [] => some t
  | cid :: cids => do
    let t ← (if (t.mTaskCTXList.lookup cid).isSome then t.releaseContext cid else some t)
    t.handle cids

def destroy (t : TMPTask) : Option (List Effect × TMPTask) := do
  let heap ← t.heap.free t.mTaskCTX
  some ([.delete t.mTaskCTX],
    { t with heap, mTaskCID := 0, mTaskCTX := t.mDefaultTaskCTX, mContextCount := t.mContextCount - 1 })

def update (t : TMPTask) (e : Handlers) : TMPTask :=
  { t with mTaskCTXList := (t.mTaskCTXList.step (.update t.mTaskCID e.currentTime e.now)).2 }

def frontOld (t : TMPTask) (e : Handlers) : Option (UInt32 × ℕ) :=
  match t.mTaskCTXList.entries with
  | [] => none
  | v :: _ =>
    if t.mTaskCTXList.expired (if e.currentTime = 0 then e.now else e.currentTime) v then some (v.key, v.value)
    else none

def recycle (t : TMPTask) (e : Handlers) (expire : List UInt32 × Bool) : Option (List Effect × TMPTask) := do
  let ctx ← t.heap.read t.mTaskCTX
  let (gone, t) ← (if ctx.mReleaseTag then some (true, t) else (t.handle expire.1).map fun t => (expire.2, t))
  if gone then destroy { t with mTaskCTXList := t.mTaskCTXList.tail } else some ([], t.update e)

def recycles (e : Handlers) : ℕ → ℕ → TMPTask → Option (List Effect × ℕ × TMPTask)
  | 0, _, t => some ([], 0, t)
  | i + 1, k, t =>
    match t.frontOld e with
    | none => some ([], i + 1, t)
    | some (cid, ctx) => do
      let (es, t) ← recycle { t with mTaskCID := cid, mTaskCTX := ctx } e (e.onContextExpire k)
      let (es', i', t) ← recycles e i (k + 1) t
      some (es ++ es', i', t)

def turns (i : UInt32) : ℕ := if i = 0 then 2 ^ 32 else i.toNat

def onRefresh (t : TMPTask) (e : Handlers) : Option (List Effect × TMPTask) := do
  let (es, i, t) ← recycles e (turns t.mContextRecycleRate) 0 t
  let delay :=
    if UInt32.ofNat i = t.mContextRecycleRate then t.timerContextRefreshDelay * 10 else t.timerContextRefreshDelay
  some (es ++ [.setTimer delay], { t with timerContextRefreshKey := if 0 < delay then e.timerKey else 0 })

def onTimeOut (t : TMPTask) (e : Handlers) (timerKey timerCid : UInt32) (para : ℕ) :
    Option (List Effect × TMPTask) :=
  if t.timerContextRefreshKey = timerKey then t.onRefresh e
  else if 0 < timerCid then
    let t := { t with mTaskCTX := t.contextOf timerCid }
    if t.mTaskCTX ≠ 0 then do
      let ctx ← t.heap.read t.mTaskCTX
      let t := { t with mTaskCID := ctx.mCID }
      let call := Effect.onTimeOut timerKey para t.mTaskCID t.mTaskCTX
      let t ← t.handle e.handled
      let ctx ← t.heap.read t.mTaskCTX
      if ctx.mReleaseTag then do
        let (es, t) ← destroy { t with mTaskCTXList := t.mTaskCTXList.erase t.mTaskCID }
        some (call :: es, t)
      else some ([call], t.update e)
    else some (if para ≠ 0 then [.deletePara para] else [], t)
  else do
    let t := { t with mTaskCTX := t.mDefaultTaskCTX, mTaskCID := 0 }
    let t' ← t.handle e.handled
    some ([.onTimeOut timerKey para t.mTaskCID t.mTaskCTX], t')

def nextCID (cid : UInt32) : UInt32 := if cid + 1 = 0 then 1 else cid + 1

def searchCID (t : TMPTask) : ℕ → UInt32 → ℕ × UInt32
  | 0, cid => (0, cid)
  | findit + 1, cid =>
    if (t.mTaskCTXList.find cid).isSome then t.searchCID findit (nextCID cid) else (findit + 1, cid)

def useDefault (t : TMPTask) : TMPTask := { t with mTaskCID := 0, mTaskCTX := t.mDefaultTaskCTX }

def createContext (t : TMPTask) (e : Handlers) (msg : CtxMsg) : Option (List Effect × Option CtxMsg × TMPTask) := do
  let (findit, cid) := t.searchCID 50 (nextCID t.mMaxTaskCID)
  let t := { t with mMaxTaskCID := cid }
  if findit ≠ 0 then do
    let t ← t.handle e.onContextCreate.1
    match e.onContextCreate.2 with
    | none => some ([], none, t)
    | some ctx =>
      let (p, heap) := t.heap.alloc { ctx with mCID := cid }
      some ([.create p], some { msg with taskCtxID := cid },
        { t with
          heap
          mTaskCTX := p
          mTaskCID := cid
          mTaskCTXList := (t.mTaskCTXList.push cid p e.now).2
          mContextCount := t.mContextCount + 1 })
  else some ([], some msg, t.useDefault)

def choose (t : TMPTask) (e : Handlers) (msg : CtxMsg) (taskCID : UInt32) :
    Option (List Effect × Option CtxMsg × TMPTask) :=
  if 0 < taskCID then
    let t := { t with mTaskCTX := t.contextOf taskCID }
    if t.mTaskCTX ≠ 0 then do
      let ctx ← t.heap.read t.mTaskCTX
      some ([], some msg, { t with mTaskCID := ctx.mCID })
    else some ([], some msg, t.useDefault)
  else if msg.dialogType = dialogBegin then t.createContext e msg
  else some ([], some msg, t.useDefault)

def afterMsg (t : TMPTask) (e : Handlers) : Option (List Effect × TMPTask) :=
  if 0 < t.mTaskCID then do
    let t := t.update e
    let heap ← t.heap.modify t.mTaskCTX fun ctx => { ctx with mCreateTag := false }
    let t := { t with heap }
    let ctx ← t.heap.read t.mTaskCTX
    if ctx.mReleaseTag then destroy { t with mTaskCTXList := t.mTaskCTXList.erase t.mTaskCID } else some ([], t)
  else some ([], t)

def procMsg (t : TMPTask) (e : Handlers) (msg : Option CtxMsg) (taskCID : UInt32) :
    Option (List Effect × TMPTask) :=
  match msg with
  | none => some ([], t)
  | some msg => do
    let (es, msg, t) ← t.choose e msg taskCID
    match msg with
    | none => some (es, t)
    | some msg => do
      let call := Effect.procMsg msg t.mTaskCID t.mTaskCTX
      let t ← t.handle e.handled
      let (es', t) ← t.afterMsg e
      some (es ++ call :: es', t)

inductive Call where
  | procMsg (e : Handlers) (msg : Option CtxMsg) (taskCID : UInt32)
  | onTimeOut (e : Handlers) (timerKey timerCid : UInt32) (para : ℕ)

def exec (t : TMPTask) : Call → Option (List Effect × TMPTask)
  | .procMsg e msg taskCID => t.procMsg e msg taskCID
  | .onTimeOut e timerKey timerCid para => t.onTimeOut e timerKey timerCid para

end TMPTask

end Xframe.Task
