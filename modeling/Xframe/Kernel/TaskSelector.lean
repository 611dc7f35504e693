import Xframe.Comserv.ExpireMap
import Xframe.Msg.UniNetMsg

/-! `TTaskSelector` of `taskselector.C`: the registry of containers and tasks, the load balancer, and
the dispatch of messages with the session maps. -/

namespace Xframe.Kernel

open Xframe.Comserv Xframe.Msg

structure TaskContainerState where
  tcid : ℕ
  waitCount : ℕ
  tasks : List ℕ
  deriving DecidableEq

/-- A task's place in one container. Containers are never unregistered, so the pointer `tcs` is the
entry of `mContainerList` under `tcid`. -/
structure InstState where
  weight : ℕ
  count : ℕ
  shuttingDown : Bool
  tcid : ℕ
  deriving DecidableEq

structure TaskState where
  taskid : ℕ
  instpos : ℕ
  count : ℕ
  balanceCount : ℕ
  inst : List InstState
  deriving DecidableEq

structure TaskKey where
  tcid : ℕ
  tiid : ℕ
  deriving DecidableEq

def InstState.free (is : InstState) : Bool := is.weight = 0 && !is.shuttingDown

/-- What a dispatch does with message objects: `enqueue`, `post` and `delete` are about the message it
was given, `enqueueClone` about a copy of it, `reply` about a new one. -/
inductive Effect where
  | enqueue (tcid : ℕ) (msg : TMsg)
  | enqueueClone (tcid : ℕ) (msg : TMsg)
  | post (msg : TMsg)
  | reply (eventID transID : ℕ) (status : ℤ)
  | delete
  deriving DecidableEq

/-- What a dispatch reads outside: the clock, the queue lengths that `waitCount()` answers, and the
instance ids that `genTaskInst()` of a task in a container answers. -/
structure Outside where
  now : ℤ
  waitCount : ℕ → ℕ
  genTaskInst : ℕ → ℕ → ℕ

/-- `CHashTable`s are kept as lists in the order of their sequence, the session buffers as the ordered
maps they refine. -/
structure TTaskSelector where
  mContainerList : List TaskContainerState
  mTaskList : List TaskState
  mIntDialog : ExpireMap ℕ TaskKey
  mStrDialog : ExpireMap CStr TaskKey
  mCurrentTime : ℤ
  registeredTaskAmount : ℕ
  registeredInstAmount : ℕ
  sendMsgToTaskCount : ℕ
  multicastMsgCount : ℕ
  broadcastMsgCount : ℕ

lemma two_le_length {α : Type} {l : List α} (h1 : l = [] → False) (h2 : ∀ x, l = [x] → False) : 2 ≤ l.length := by
  rcases l with _ | ⟨x, _ | ⟨y, l⟩⟩
  · exact absurd rfl h1
  · exact absurd rfl (h2 x)
  · simp

namespace TTaskSelector

/-- The constructor leaves the clock and the counters as the memory has them; nothing here depends on the counters,
and every loop sets the clock first, so all of them start at 0. -/
def new : TTaskSelector :=
  ⟨[], [], .new 0 false 172800, .new 0 false 172800, 0, 0, 0, 0, 0, 0⟩

def container (s : TTaskSelector) (tcid : ℕ) : Option TaskContainerState :=
  s.mContainerList.find? fun c => c.tcid = tcid

def task (s : TTaskSelector) (taskid : ℕ) : Option TaskState :=
  s.mTaskList.find? fun t => t.taskid = taskid

def setTask (s : TTaskSelector) (ts : TaskState) : TTaskSelector :=
  { s with mTaskList := s.mTaskList.map fun t => if t.taskid = ts.taskid then ts else t }

/-- The `int` becomes the `unsigned int` of `setLivingTime`. -/
def setRecycleTime (s : TTaskSelector) (ct : ℤ) : TTaskSelector :=
  { s with
    mIntDialog := { s.mIntDialog with livingTime := (ct % 2 ^ 32).toNat }
    mStrDialog := { s.mStrDialog with livingTime := (ct % 2 ^ 32).toNat } }

def setCurrentTime (s : TTaskSelector) (t : ℤ) : TTaskSelector := { s with mCurrentTime := t }

def registerContainer (s : TTaskSelector) (tcid : ℕ) : Bool × TTaskSelector :=
  if tcid = 0 then (false, s)
  else if (s.container tcid).isSome then (false, s)
  else (true, { s with
    mContainerList := s.mContainerList ++ [⟨tcid, 0, []⟩]
    registeredInstAmount := s.registeredInstAmount + 1 })

def balanceCountNumber : ℕ := 100

def addTask (s : TTaskSelector) (taskid tcid : ℕ) : TTaskSelector :=
  { s with mContainerList := s.mContainerList.map fun c =>
    if c.tcid = tcid then { c with tasks := c.tasks ++ [taskid] } else c }

/-- A container object has one id here. For a task that the container has already, the code does not come back (see
`Registry.addTask`); here it answers `FALSE` and nothing changes, so the states of all runs are those of the code. -/
def registerTask (s : TTaskSelector) (taskid tcid : ℕ) : Bool × TTaskSelector :=
  if taskid = 0 ∨ tcid = 0 then (false, s)
  else match s.container tcid with
    | none => (false, s)
    | some c =>
      if taskid ∈ c.tasks then (false, s)
      else
        let s := s.addTask taskid tcid
        let is : InstState := ⟨0, 0, false, tcid⟩
        match s.task taskid with
        | none => (true, { s with
            mTaskList := s.mTaskList ++ [⟨taskid, 0, 0, 0, [is]⟩]
            registeredTaskAmount := s.registeredTaskAmount + 1 })
        | some ts => (true, s.setTask { ts with
            inst := ts.inst ++ [is]
            balanceCount := (ts.inst.length + 1) * balanceCountNumber })

def balanceCheck (s : TTaskSelector) (o : Outside) (ts : TaskState) : TTaskSelector × TaskState :=
  let s := { s with mContainerList := s.mContainerList.map fun c =>
    if c.tcid ∈ ts.inst.map InstState.tcid then { c with waitCount := o.waitCount c.tcid } else c }
  let sum := (ts.inst.map fun is => o.waitCount is.tcid).sum % 2 ^ 32
  if ts.inst.length = 1 then (s, ts)
  else
    let avg := sum / ts.inst.length
    (s, { ts with inst := ts.inst.map fun is =>
      { is with weight := if avg + balanceCountNumber < o.waitCount is.tcid then 1 else 0 } })

def nextInst (inst : List InstState) : ℕ → ℕ → Option (ℕ × InstState)
  | 0, _ => none
  | n + 1, instpos =>
    let pos := if inst.length ≤ instpos + 1 then 0 else instpos + 1
    match inst[pos]? with
    | none => none
    | some is => if is.free then some (pos, is) else nextInst inst n pos

def charge (s : TTaskSelector) (o : Outside) (ts : TaskState) (pos : ℕ) (is : InstState) : TTaskSelector :=
  let ts := { ts with
    instpos := pos
    count := ts.count + 1
    inst := ts.inst.set pos { is with count := is.count + 1 } }
  if ts.balanceCount < ts.count then
    let (s, ts) := s.balanceCheck o ts
    s.setTask { ts with count := 0 }
  else s.setTask ts

/-- `getTask(taskid, tcid)`: the container it answers, by its id. When every instance is blocked the
loop has come round to where it started. -/
def getTask (s : TTaskSelector) (o : Outside) (taskid tcid : ℕ) : Option ℕ × TTaskSelector :=
  if 0 < taskid ∧ 0 < tcid then ((s.container tcid).map TaskContainerState.tcid, s)
  else if 0 < taskid then
    match s.task taskid with
    | none => (none, s)
    | some ts =>
      match ts.inst with
      | [] => (none, s)
      | [is] => (some is.tcid, s)
      | _ =>
        match nextInst ts.inst ts.inst.length ts.instpos with
        | none => (none, s)
        | some (pos, is) => (some is.tcid, s.charge o ts pos is)
  else (none, s)

/-- A session id as both session maps take it: a positive number, or else a nonempty string. -/
inductive SessionId where
  | int (sid : ℕ)
  | str (ssid : CStr)
  deriving DecidableEq

def sessionId (msg : TUniNetMsg) : Option SessionId :=
  match msg.ctrlMsgHdr with
  | none => none
  | some h =>
    if h.hasSessionId then
      if 0 < h.getSessionId then some (.int h.getSessionId)
      else match h.getSessionIdStr with
        | none => none
        | some ssid => if ssid = [] then none else some (.str ssid)
    else none

def findDialog (s : TTaskSelector) : SessionId → Option TaskKey
  | .int sid => (s.mIntDialog.find sid).map ExpireValue.value
  | .str ssid => (s.mStrDialog.find ssid).map ExpireValue.value

def updateDialog (s : TTaskSelector) (o : Outside) : SessionId → TTaskSelector
  | .int sid => { s with mIntDialog := (s.mIntDialog.step (.update sid s.mCurrentTime o.now)).2 }
  | .str ssid => { s with mStrDialog := (s.mStrDialog.step (.update ssid s.mCurrentTime o.now)).2 }

def pushDialog (s : TTaskSelector) (o : Outside) (tk : TaskKey) : SessionId → TTaskSelector
  | .int sid => { s with mIntDialog := (s.mIntDialog.push sid tk o.now).2 }
  | .str ssid => { s with mStrDialog := (s.mStrDialog.push ssid tk o.now).2 }

def popOldDialogs (s : TTaskSelector) (o : Outside) : TTaskSelector :=
  { s with
    mIntDialog := (s.mIntDialog.step (.popOld s.mCurrentTime o.now)).2
    mStrDialog := (s.mStrDialog.step (.popOld s.mCurrentTime o.now)).2 }

def hasSession (msg : TUniNetMsg) : Bool :=
  match msg.ctrlMsgHdr with
  | none => false
  | some h => h.hasSessionId

def restoreSession (s : TTaskSelector) (o : Outside) (msg : TUniNetMsg) : TUniNetMsg × TTaskSelector :=
  match sessionId msg with
  | none => (msg, s)
  | some sid =>
    match s.findDialog sid with
    | none => (msg, s)
    | some tk =>
      if 0 < tk.tcid ∧ 0 < tk.tiid then
        ({ msg with tAddr := { msg.tAddr with phyAddr := tk.tcid, taskInstID := tk.tiid } },
          s.updateDialog o sid)
      else (msg, s)

def containerid (phyAddr : ℕ) : ℕ := phyAddr % 2 ^ 12

def enterDialog (s : TTaskSelector) (o : Outside) (msg : TUniNetMsg) : TUniNetMsg × TTaskSelector :=
  if msg.dialogType ≠ dialogBegin ∧ msg.tAddr.phyAddr = 0 ∧ hasSession msg then
    ((s.restoreSession o msg).1, (s.restoreSession o msg).2.popOldDialogs o)
  else (msg, s)

def genTaskInst (s : TTaskSelector) (o : Outside) (tcid taskid : ℕ) : ℕ :=
  match s.container tcid with
  | none => 0
  | some c => if taskid ∈ c.tasks then o.genTaskInst tcid taskid else 0

def localAddr (msg : TUniNetMsg) : TUniNetMsg :=
  { msg with tAddr := { msg.tAddr with phyAddr := containerid msg.tAddr.phyAddr } }

def deliver (s : TTaskSelector) (o : Outside) (tcid : ℕ) (msg : TUniNetMsg) :
    TUniNetMsg × TTaskSelector :=
  if msg.dialogType = dialogBegin ∧ msg.tAddr.taskInstID = 0 then
    let taskinstid := s.genTaskInst o tcid msg.tAddr.logAddr
    let phyAddr := if msg.tAddr.phyAddr = 0 then tcid else msg.tAddr.phyAddr
    let msg := { msg with tAddr := { msg.tAddr with taskInstID := taskinstid, phyAddr := phyAddr } }
    match sessionId msg with
    | none => (msg, s)
    | some sid => (msg, s.pushDialog o ⟨tcid, taskinstid⟩ sid)
  else (msg, s)

def sendMsgToTask (s : TTaskSelector) (o : Outside) (msg : TUniNetMsg) :
    Bool × List Effect × TTaskSelector :=
  if (s.task msg.tAddr.logAddr).isNone then (false, [], s)
  else
    -- the container is looked up by the address the message came with, not by the restored one
    let containerid := containerid msg.tAddr.phyAddr
    let (msg, s) := s.enterDialog o (localAddr msg)
    match s.getTask o msg.tAddr.logAddr containerid with
    | (none, s) => (false, [], s)
    | (some tcid, s) =>
      let (msg, s) := s.deliver o tcid msg
      (true, [.enqueue tcid (.uniNet msg)], { s with sendMsgToTaskCount := s.sendMsgToTaskCount + 1 })

def multicastMsgToTask (s : TTaskSelector) (msg : TUniNetMsg) : Bool × List Effect × TTaskSelector :=
  match s.task msg.tAddr.logAddr with
  | none => (false, [.delete], s)
  | some ts =>
    let clones := (ts.inst.filter fun is => 0 < is.tcid).map fun is =>
      Effect.enqueueClone is.tcid (.uniNet { msg with tAddr := { msg.tAddr with phyAddr := is.tcid } })
    let ts := { ts with inst := ts.inst.map fun is =>
      { is with count := if 0 < is.tcid then is.count + 1 else is.count } }
    (true, clones ++ [.delete], { s.setTask ts with multicastMsgCount := s.multicastMsgCount + 1 })

def broadcastMsgToTask (s : TTaskSelector) (msg : TUniNetMsg) : Bool × List Effect × TTaskSelector :=
  let clones := s.mContainerList.map fun c =>
    Effect.enqueueClone c.tcid (.uniNet { msg with tAddr := { msg.tAddr with phyAddr := c.tcid } })
  (true, clones ++ [.delete], { s with broadcastMsgCount := s.broadcastMsgCount + 1 })

def add (s : TTaskSelector) (o : Outside) (msg : TUniNetMsg) : Bool × List Effect × TTaskSelector :=
  if msg.msgType = dialogBroadcast then s.broadcastMsgToTask msg
  else if msg.msgType = dialogMulticast then s.multicastMsgToTask msg
  else s.sendMsgToTask o msg

def eventClones (s : TTaskSelector) (msg : TEventMsg) : List Effect :=
  if 0 < msg.instID then []
  else if 0 < msg.taskID then
    match s.task msg.taskID with
    | none => []
    | some ts => ts.inst.map fun is => .enqueueClone is.tcid (.event { msg with instID := is.tcid })
  else s.mContainerList.map fun c => .enqueueClone c.tcid (.event msg)

def addEvent (s : TTaskSelector) (msg : TEventMsg) : Bool × List Effect :=
  if 0 < msg.instID ∧ (s.container msg.instID).isSome then (true, [.enqueue msg.instID (.event msg)])
  else if s.eventClones msg ≠ [] then (true, s.eventClones msg ++ [.delete])
  else (false, [.post (.event { msg with status := 2, eventInfo := "taskid or instid not found!" })])

end TTaskSelector

end Xframe.Kernel
