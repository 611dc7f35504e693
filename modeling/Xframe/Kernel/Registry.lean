import Xframe.Kernel.TaskSelector
import Xframe.Lib.Run

/-! The registry of `TTaskSelector` with its pointers: the `TaskContainerState` objects, the instance
lists that point to them, and the task tables of the containers behind them. -/

namespace Xframe.Kernel

open Xframe.Msg Xframe.Lib

namespace Registry

structure TaskContainerState where
  tcid : ℕ
  tc : ℕ
  waitCount : ℕ
  deriving DecidableEq

structure InstState where
  weight : ℕ
  count : ℕ
  shuttingDown : Bool
  tcid : ℕ
  tcs : ℕ
  deriving DecidableEq

structure TaskState where
  taskid : ℕ
  instpos : ℕ
  count : ℕ
  balanceCount : ℕ
  inst : List InstState
  deriving DecidableEq

end Registry

open Registry

/-- `states` are the `TaskContainerState` objects by their address, `taskTable tc` the `mTaskList` of
the container at `tc`: task ids with the tasks. A null pointer is `0`. The counters have no bound, where the code
has an `INT`. -/
structure Registry where
  states : List Registry.TaskContainerState
  taskTable : ℕ → List (ℕ × ℕ)
  mContainerList : List (ℕ × ℕ)
  mTaskList : List Registry.TaskState
  registeredTaskAmount : ℤ
  registeredInstAmount : ℤ

namespace Registry

/-- A selector after its constructor: it leaves the counters as the memory has them, and `init`, which would set
them, is never called. The containers are made elsewhere. -/
def new (taskTable : ℕ → List (ℕ × ℕ)) (taskAmount instAmount : ℤ) : Registry :=
  ⟨[], taskTable, [], [], taskAmount, instAmount⟩

def container (r : Registry) (tcid : ℕ) : Option ℕ :=
  (r.mContainerList.find? fun e => e.1 = tcid).map Prod.snd

def task (r : Registry) (taskid : ℕ) : Option TaskState := r.mTaskList.find? fun t => t.taskid = taskid

def setTask (r : Registry) (ts : TaskState) : Registry :=
  { r with mTaskList := r.mTaskList.map fun t => if t.taskid = ts.taskid then ts else t }

def registerContainer (r : Registry) (tcid ptc : ℕ) : Bool × Registry :=
  if tcid = 0 ∨ ptc = 0 then (false, r)
  else if (r.container tcid).isSome then (false, r)
  else (true, { r with
    states := r.states ++ [⟨tcid, ptc, 0⟩]
    mContainerList := r.mContainerList ++ [(tcid, r.states.length)]
    registeredInstAmount := r.registeredInstAmount + 1 })

/-- `registerTask` of the container at `tc`, for a task whose `init` comes back and leaves the registry alone. For an
id that the container has already, `UniERROR` is given the id for a `%s`: it reads the text at this address and does
not come back. -/
def addTask (r : Registry) (tc taskid task : ℕ) : Option (Bool × Registry) :=
  if taskid = 0 ∨ task = 0 then some (false, r)
  else if taskid ∈ (r.taskTable tc).map Prod.fst then none
  else some (true, { r with taskTable := Function.update r.taskTable tc (r.taskTable tc ++ [(taskid, task)]) })

def listTask (r : Registry) (taskid : ℕ) (is : InstState) : Registry :=
  match r.task taskid with
  | none => { r with
      mTaskList := r.mTaskList ++ [⟨taskid, 0, 0, 0, [is]⟩]
      registeredTaskAmount := r.registeredTaskAmount + 1 }
  | some ts => r.setTask { ts with
      inst := ts.inst ++ [is]
      balanceCount := (ts.inst.length + 1) * TTaskSelector.balanceCountNumber }

def registerTask (r : Registry) (taskid tcid task : ℕ) : Option (Bool × Registry) :=
  if taskid = 0 ∨ tcid = 0 ∨ task = 0 then some (false, r)
  else match r.container tcid with
    | none => some (false, r)
    | some tcs => do
      let c ← r.states[tcs]?
      let (ok, r) ← r.addTask c.tc taskid task
      if ok then some (true, r.listTask taskid ⟨0, 0, false, tcid, tcs⟩) else some (false, r)

def refresh (waitCount : ℕ → ℕ) (states : List TaskContainerState) :
    List InstState → ℕ → List TaskContainerState × ℕ
  | [], sum => (states, sum)
  | is :: inst, sum =>
    let states := states.modify is.tcs fun c => { c with waitCount := waitCount c.tc }
    refresh waitCount states inst ((sum + (states[is.tcs]?.elim 0 TaskContainerState.waitCount)) % 2 ^ 32)

def balanceCheck (r : Registry) (waitCount : ℕ → ℕ) (ts : TaskState) : Registry × TaskState :=
  let (states, sum) := refresh waitCount r.states ts.inst 0
  let r := { r with states }
  if ts.inst.length = 1 then (r, ts)
  else
    let avg := sum / ts.inst.length
    (r, { ts with inst := ts.inst.map fun is => { is with
      weight := if avg + TTaskSelector.balanceCountNumber < states[is.tcs]?.elim 0 TaskContainerState.waitCount
        then 1 else 0 } })

def nextInst (inst : List InstState) : ℕ → ℕ → ℕ × Option InstState
  | 0, instpos => (instpos, none)
  | n + 1, instpos =>
    let pos := if inst.length ≤ instpos + 1 then 0 else instpos + 1
    match inst[pos]? with
    | none => (instpos, none)
    | some is => if is.weight = 0 ∧ !is.shuttingDown then (pos, some is) else nextInst inst n pos

def charge (r : Registry) (waitCount : ℕ → ℕ) (ts : TaskState) (pos : ℕ) (is : InstState) : Registry :=
  let ts := { ts with
    instpos := pos
    count := ts.count + 1
    inst := ts.inst.set pos { is with count := is.count + 1 } }
  if ts.balanceCount < ts.count then
    let (r, ts) := r.balanceCheck waitCount ts
    r.setTask { ts with count := 0 }
  else r.setTask ts

def getTask (r : Registry) (waitCount : ℕ → ℕ) (taskid tcid : ℕ) : Option ℕ × Registry :=
  if 0 < taskid ∧ 0 < tcid ∧ (r.container tcid).isSome then (r.container tcid, r)
  else if 0 < taskid ∧ tcid = 0 then
    match r.task taskid with
    | none => (none, r)
    | some ts =>
      match ts.inst with
      | [] => (none, r)
      | [is] => (some is.tcs, r)
      | _ =>
        match nextInst ts.inst ts.inst.length ts.instpos with
        | (pos, none) => (none, r.setTask { ts with instpos := pos })
        | (pos, some is) => (some is.tcs, r.charge waitCount ts pos is)
  else (none, r)

def sendMsgToTask (r : Registry) (waitCount : ℕ → ℕ) (msg : TUniNetMsg) : Bool × Registry :=
  if (r.task msg.tAddr.logAddr).isNone then (false, r)
  else
    let (item, r) := r.getTask waitCount msg.tAddr.logAddr (TTaskSelector.containerid msg.tAddr.phyAddr)
    (item.isSome, r)

def multicastMsgToTask (r : Registry) (msg : TUniNetMsg) : Bool × Registry :=
  match r.task msg.tAddr.logAddr with
  | none => (false, r)
  | some ts => (true, r.setTask { ts with
      inst := ts.inst.map fun is => { is with count := if 0 < is.tcid then is.count + 1 else is.count } })

def add (r : Registry) (waitCount : ℕ → ℕ) (msg : TUniNetMsg) : Bool × Registry :=
  if msg.msgType = dialogBroadcast then (true, r)
  else if msg.msgType = dialogMulticast then r.multicastMsgToTask msg
  else r.sendMsgToTask waitCount msg

def addEvent (r : Registry) (msg : TEventMsg) : Bool :=
  if 0 < msg.instID then (r.container msg.instID).isSome
  else if 0 < msg.taskID then (r.task msg.taskID).any fun ts => ts.inst ≠ []
  else r.mContainerList ≠ []

inductive Call where
  | registerContainer (tcid ptc : ℕ)
  | registerTask (taskid tcid task : ℕ)
  | getTask (waitCount : ℕ → ℕ) (taskid tcid : ℕ)
  | balanceCheck (waitCount : ℕ → ℕ) (taskid : ℕ)
  | add (waitCount : ℕ → ℕ) (msg : TUniNetMsg)
  | addEvent (msg : TEventMsg)

def call (r : Registry) : Call → Option (Bool × Registry)
  | .registerContainer tcid ptc => some (r.registerContainer tcid ptc)
  | .registerTask taskid tcid task => r.registerTask taskid tcid task
  | .getTask waitCount taskid tcid =>
    some ((r.getTask waitCount taskid tcid).1.isSome, (r.getTask waitCount taskid tcid).2)
  | .balanceCheck waitCount taskid =>
    match r.task taskid with
    | none => some (true, r)
    | some ts => some (true, (r.balanceCheck waitCount ts).1.setTask (r.balanceCheck waitCount ts).2)
  | .add waitCount msg => some (r.add waitCount msg)
  | .addEvent msg => some (r.addEvent msg, r)

def Call.Repeats (r : Registry) : Call → Prop
  | .registerTask taskid tcid task => taskid ≠ 0 ∧ tcid ≠ 0 ∧ task ≠ 0 ∧ ∃ tcs c, r.container tcid = some tcs ∧
      r.states[tcs]? = some c ∧ taskid ∈ (r.taskTable c.tc).map Prod.fst
  | _ => False

end Registry

end Xframe.Kernel
