import Xframe.Comserv.Traversal
import Xframe.Comserv.CListAnswers
import Xframe.Kernel.RegistryInv

/-! The registry of `TTaskSelector` in its own containers: hash tables for the task containers and the
tasks, a linked list of the instances of a task, and the message queues behind them. -/

namespace Xframe.Kernel

open Xframe.Comserv Xframe.Msg Xframe.Lib

def uintKeys : KeyFns ℕ where
  compareKey a b := a == b
  getHash := UInt32.ofNat
  equiv := nat_beq_equiv
  hash_eq := nat_hash_eq

structure TaskObject where
  taskid : ℕ
  instpos : ℕ
  count : ℕ
  balanceCount : ℕ
  inst : CList ℕ

structure Counters where
  registeredTaskAmount : ℤ
  registeredInstAmount : ℤ
  multicastMsgCount : ℤ
  broadcastMsgCount : ℤ

/-- The objects made by `new` are in `states`, `insts` and `tasks` under their addresses; `taskTable`
and `queues` are `mTaskList` and `mTaskRxFifo` of the `TTaskContainer` objects. -/
structure SelectorTables extends Counters where
  states : List Registry.TaskContainerState
  insts : List Registry.InstState
  tasks : List TaskObject
  taskTable : ℕ → List (ℕ × ℕ)
  queues : ℕ → List TMsg
  mContainerList : CHashTable ℕ ℕ
  mTaskList : CHashTable ℕ ℕ

namespace SelectorTables

def defaultHashtableLength : ℕ := 16
def defaultHashtableLoadfactor : Float := (0.75 : Float32).toFloat

def new (taskTable : ℕ → List (ℕ × ℕ)) (queues : ℕ → List TMsg) (memory : Counters) : SelectorTables where
  toCounters := memory
  states := []
  insts := []
  tasks := []
  taskTable := taskTable
  queues := queues
  mContainerList := .initTable defaultHashtableLength defaultHashtableLoadfactor
  mTaskList := .initTable defaultHashtableLength defaultHashtableLoadfactor

def registerContainer (s : SelectorTables) (tcid ptc : ℕ) : Option (Bool × SelectorTables) :=
  if tcid = 0 ∨ ptc = 0 then some (false, s)
  else do
    if ← s.mContainerList.containsKey uintKeys tcid then some (false, s)
    else do
      let (_, mContainerList) ← s.mContainerList.putR uintKeys tcid s.states.length
      some (true, { s with
        states := s.states ++ [⟨tcid, ptc, 0⟩]
        mContainerList
        registeredInstAmount := s.registeredInstAmount + 1 })

/-- `registerTask` of the container at `tc`, which does not come back for an id that it has already. -/
def addTask (s : SelectorTables) (tc taskid task : ℕ) : Option (Bool × SelectorTables) :=
  if taskid = 0 ∨ task = 0 then some (false, s)
  else if taskid ∈ (s.taskTable tc).map Prod.fst then none
  else some (true, { s with taskTable := Function.update s.taskTable tc (s.taskTable tc ++ [(taskid, task)]) })

def listTask (s : SelectorTables) (taskid is : ℕ) : Option (Bool × SelectorTables) := do
  if ← s.mTaskList.containsKey uintKeys taskid then
    match ← s.mTaskList.getR uintKeys taskid with
    | none => some (false, s)
    | some p => do
      let ts ← s.tasks[p]?
      let (lsize, inst) ← ts.inst.pushBackR is
      some (true, { s with
        tasks := s.tasks.set p { ts with inst, balanceCount := lsize * TTaskSelector.balanceCountNumber } })
  else do
    let (_, inst) ← CList.new.pushBackR is
    let (_, mTaskList) ← s.mTaskList.putR uintKeys taskid s.tasks.length
    some (true, { s with
      tasks := s.tasks ++ [⟨taskid, 0, 0, 0, inst⟩]
      mTaskList
      registeredTaskAmount := s.registeredTaskAmount + 1 })

def registerTask (s : SelectorTables) (taskid tcid task : ℕ) : Option (Bool × SelectorTables) :=
  if taskid = 0 ∨ tcid = 0 ∨ task = 0 then some (false, s)
  else do
    match ← s.mContainerList.getR uintKeys tcid with
    | none => some (false, s)
    | some tcs => do
      let c ← s.states[tcs]?
      let (ok, s) ← s.addTask c.tc taskid task
      if ok then listTask { s with insts := s.insts ++ [⟨0, 0, false, tcid, tcs⟩] } taskid s.insts.length
      else some (false, s)

def enqueue (queues : ℕ → List TMsg) (tc : ℕ) (msg : TMsg) : ℕ → List TMsg :=
  Function.update queues tc (queues tc ++ [msg])

def eventToInst (s : SelectorTables) (msg : TEventMsg) (a : Bool × (ℕ → List TMsg)) (is : ℕ) :
    Option (Bool × (ℕ → List TMsg)) := do
  let is ← s.insts[is]?
  let c ← s.states[is.tcs]?
  some (true, enqueue a.2 c.tc (.event { msg with instID := is.tcid }))

def eventToContainer (s : SelectorTables) (msg : TEventMsg) (a : Bool × (ℕ → List TMsg)) (tcs : ℕ) :
    Option (Bool × (ℕ → List TMsg)) := do
  let c ← s.states[tcs]?
  some (true, enqueue a.2 c.tc (.event msg))

def notFound (msg : TEventMsg) : TEventMsg := { msg with status := 2, eventInfo := "taskid or instid not found!" }

def addEvent (s : SelectorTables) (msg : TEventMsg) : Option (Bool × List TEventMsg × SelectorTables) :=
  if 0 < msg.instID then do
    match ← s.mContainerList.getR uintKeys msg.instID with
    | none => some (false, [notFound msg], s)
    | some tcs => do
      let c ← s.states[tcs]?
      some (true, [], { s with queues := enqueue s.queues c.tc (.event msg) })
  else if 0 < msg.taskID then do
    match ← s.mTaskList.getR uintKeys msg.taskID with
    | none => some (false, [notFound msg], s)
    | some p => do
      let ts ← s.tasks[p]?
      let (found, queues) ← ts.inst.forIter (s.eventToInst msg) (false, s.queues)
      some (found, if found then [] else [notFound msg], { s with queues })
  else do
    let ((found, queues), mContainerList) ← s.mContainerList.forEach (s.eventToContainer msg) (false, s.queues)
    some (found, if found then [] else [notFound msg], { s with queues, mContainerList })

def multicastToInst (s : SelectorTables) (msg : TUniNetMsg) (a : List Registry.InstState × (ℕ → List TMsg)) (p : ℕ) :
    Option (List Registry.InstState × (ℕ → List TMsg)) := do
  let is ← a.1[p]?
  if 0 < is.tcid then do
    let c ← s.states[is.tcs]?
    some (a.1.set p { is with count := is.count + 1 },
      enqueue a.2 c.tc (.uniNet { msg with tAddr := { msg.tAddr with phyAddr := is.tcid } }))
  else some a

def multicastMsgToTask (s : SelectorTables) (msg : TUniNetMsg) : Option (Bool × SelectorTables) := do
  if ← s.mTaskList.containsKey uintKeys msg.tAddr.logAddr then
    match ← s.mTaskList.getR uintKeys msg.tAddr.logAddr with
    | none => some (true, s)
    | some p => do
      let ts ← s.tasks[p]?
      let (insts, queues) ← ts.inst.forIter (s.multicastToInst msg) (s.insts, s.queues)
      some (true, { s with insts, queues, multicastMsgCount := s.multicastMsgCount + 1 })
  else some (false, s)

def broadcastToContainer (s : SelectorTables) (msg : TUniNetMsg) (queues : ℕ → List TMsg) (tcs : ℕ) :
    Option (ℕ → List TMsg) := do
  let c ← s.states[tcs]?
  some (enqueue queues c.tc (.uniNet { msg with tAddr := { msg.tAddr with phyAddr := c.tcid } }))

def broadcastMsgToTask (s : SelectorTables) (msg : TUniNetMsg) : Option (Bool × SelectorTables) := do
  let (queues, mContainerList) ← s.mContainerList.forEach (s.broadcastToContainer msg) s.queues
  some (true, { s with queues, mContainerList, broadcastMsgCount := s.broadcastMsgCount + 1 })

inductive Registration where
  | container (tcid ptc : ℕ)
  | task (taskid tcid task : ℕ)

def register (s : SelectorTables) : Registration → Option (Bool × SelectorTables)
  | .container tcid ptc => s.registerContainer tcid ptc
  | .task taskid tcid task => s.registerTask taskid tcid task

end SelectorTables

end Xframe.Kernel
