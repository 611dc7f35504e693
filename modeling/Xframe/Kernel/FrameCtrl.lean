import Xframe.Kernel.TaskSelector

/-! The main loop of `TFRAMEControl` (`framectrl.C`): what becomes of a message taken from the kernel
FIFO. -/

namespace Xframe.Kernel

open Xframe.Msg

structure TFRAMEControl where
  mTaskSelector : TTaskSelector
  shutdown : Bool
  loopCount : ℕ
  uninetmsgCountS : ℕ
  uninetmsgCountF : ℕ

namespace TFRAMEControl

def frameControlTaskid : ℕ := 2
def taskSelectorTaskid : ℕ := 3

def kernalAppHeatbeat : ℕ := 11
def kernalAppInit : ℕ := 12
def kernalAppStatues : ℕ := 14
def kernalAppReload : ℕ := 15
def kernalAppShutdown : ℕ := 16

/-- The events for the loop itself. Every handler posts an answer with status 1; the text of the status
answer is left out. -/
def onEvent (f : TFRAMEControl) (msg : TEventMsg) : List Effect × TFRAMEControl :=
  if ¬(msg.instID = 0 ∧
      (msg.taskID = frameControlTaskid ∨ msg.taskID = taskSelectorTaskid ∨ msg.taskID = 0)) then ([], f)
  else if msg.eventID = kernalAppInit then
    ([.reply kernalAppInit msg.transID 1], { f with shutdown := false })
  else if msg.eventID = kernalAppHeatbeat then ([.reply kernalAppHeatbeat msg.transID 1], f)
  else if msg.eventID = kernalAppReload then ([.reply kernalAppReload msg.transID 1], f)
  else if msg.eventID = kernalAppShutdown then
    ([.reply kernalAppShutdown msg.transID 1], { f with shutdown := true })
  else if msg.eventID = kernalAppStatues then ([.reply kernalAppStatues msg.transID 1], f)
  else ([], f)

/-- One turn of the loop; `msg` is what `getNext` took from the FIFO within its wait. -/
def mainLoop (f : TFRAMEControl) (o : Outside) (msg : Option TMsg) : List Effect × TFRAMEControl :=
  let f := { f with
    loopCount := f.loopCount + 1
    mTaskSelector := f.mTaskSelector.setCurrentTime o.now }
  match msg with
  | none => ([], f)
  | some (.uniNet m) =>
    if f.shutdown then ([.delete], { f with uninetmsgCountF := f.uninetmsgCountF + 1 })
    else
      let (ok, es, s) := f.mTaskSelector.add o m
      if ok then (es, { f with mTaskSelector := s, uninetmsgCountS := f.uninetmsgCountS + 1 })
      else (es ++ [.delete], { f with mTaskSelector := s, uninetmsgCountF := f.uninetmsgCountF + 1 })
  | some (.event m) =>
    let (es, f) := f.onEvent m
    if taskSelectorTaskid ≤ m.taskID ∨ m.taskID = 0 then (es ++ (f.mTaskSelector.addEvent m).2, f)
    else (es ++ [.delete], f)
  | some .other => ([.delete], f)

end TFRAMEControl

def Effect.handsOver : Effect → Bool
  | .enqueue _ _ => true
  | .post _ => true
  | _ => false

def Effect.deletes : Effect → Bool
  | .delete => true
  | _ => false

def Linear (es : List Effect) : Prop :=
  (es.countP Effect.handsOver = 1 ∧ es.countP Effect.deletes = 0) ∨
    (es.countP Effect.handsOver = 0 ∧ es.countP Effect.deletes = 1)

instance (es : List Effect) : Decidable (Linear es) := inferInstanceAs (Decidable (_ ∨ _))

def Silent (es : List Effect) : Prop :=
  es.countP Effect.handsOver = 0 ∧ es.countP Effect.deletes = 0

lemma silent_of {es : List Effect} (h : ∀ e ∈ es, e.handsOver = false ∧ e.deletes = false) : Silent es := by
  constructor <;> rw [List.countP_eq_zero] <;> intro e he <;> simp [h e he]

lemma Silent.append_delete {es : List Effect} (h : Silent es) : Linear (es ++ [.delete]) := by
  right
  simp [List.countP_append, h.1, h.2, Effect.handsOver, Effect.deletes]

lemma silent_clones {α : Type} (xs : List α) (t : α → ℕ) (m : α → TMsg) :
    Silent (xs.map fun x => .enqueueClone (t x) (m x)) := by
  refine silent_of fun e he => ?_
  obtain ⟨x, -, rfl⟩ := List.mem_map.mp he
  exact ⟨rfl, rfl⟩

lemma Silent.append {es fs : List Effect} (h : Silent es) : Linear (es ++ fs) ↔ Linear fs := by
  simp [Linear, List.countP_append, h.1, h.2]

namespace TTaskSelector

lemma sendMsgToTask_effects (s : TTaskSelector) (o : Outside) (msg : TUniNetMsg) :
    ((s.sendMsgToTask o msg).1 = false ∧ (s.sendMsgToTask o msg).2.1 = []) ∨
      ((s.sendMsgToTask o msg).1 = true ∧
        ∃ tcid m, (s.sendMsgToTask o msg).2.1 = [.enqueue tcid (.uniNet m)]) := by
  rw [sendMsgToTask]
  split
  · exact Or.inl ⟨rfl, rfl⟩
  dsimp only
  split
  · exact Or.inl ⟨rfl, rfl⟩
  · exact Or.inr ⟨rfl, _, _, rfl⟩

lemma multicastMsgToTask_effects {s : TTaskSelector} {msg : TUniNetMsg} {ts : TaskState}
    (h : s.task msg.tAddr.logAddr = some ts) :
    (s.multicastMsgToTask msg).1 = true ∧ Linear (s.multicastMsgToTask msg).2.1 := by
  rw [multicastMsgToTask, h]
  exact ⟨rfl, (silent_clones _ _ _).append_delete⟩

lemma broadcastMsgToTask_effects (s : TTaskSelector) (msg : TUniNetMsg) :
    (s.broadcastMsgToTask msg).1 = true ∧ Linear (s.broadcastMsgToTask msg).2.1 :=
  ⟨rfl, (silent_clones _ _ _).append_delete⟩

lemma eventClones_silent (s : TTaskSelector) (msg : TEventMsg) : Silent (s.eventClones msg) := by
  rw [eventClones]
  split
  · exact ⟨rfl, rfl⟩
  split
  · split
    · exact ⟨rfl, rfl⟩
    · exact silent_clones _ _ _
  · exact silent_clones _ _ _

lemma addEvent_linear (s : TTaskSelector) (msg : TEventMsg) : Linear (s.addEvent msg).2 := by
  rw [addEvent]
  split
  · exact Or.inl ⟨rfl, rfl⟩
  split
  · exact (s.eventClones_silent msg).append_delete
  · exact Or.inl ⟨rfl, rfl⟩

end TTaskSelector

namespace TFRAMEControl

def LostMulticast (f : TFRAMEControl) : TMsg → Prop
  | .uniNet m => f.shutdown = false ∧ m.msgType = dialogMulticast ∧
      f.mTaskSelector.task m.tAddr.logAddr = none
  | _ => False

lemma onEvent_silent (f : TFRAMEControl) (msg : TEventMsg) : Silent (f.onEvent msg).1 := by
  rw [onEvent]
  split_ifs <;> exact ⟨rfl, rfl⟩

lemma mainLoop_uniNet (f : TFRAMEControl) (o : Outside) (m : TUniNetMsg) :
    Linear (f.mainLoop o (some (.uniNet m))).1 ↔ ¬f.LostMulticast (.uniNet m) := by
  rw [mainLoop, LostMulticast]
  dsimp only
  cases hd : f.shutdown with
  | true => simp [Linear, Effect.handsOver, Effect.deletes]
  | false =>
    simp only [Bool.false_eq_true, if_false, true_and]
    rw [TTaskSelector.add]
    split
    · rename_i hb
      obtain ⟨h1, h2⟩ := (f.mTaskSelector.setCurrentTime o.now).broadcastMsgToTask_effects m
      simp only [h1, if_true, h2, true_iff, not_and]
      intro hm
      rw [hb] at hm
      exact absurd hm (by decide)
    split
    · rename_i hm
      cases ht : f.mTaskSelector.task m.tAddr.logAddr with
      | none =>
        have ht' : (f.mTaskSelector.setCurrentTime o.now).task m.tAddr.logAddr = none := ht
        rw [TTaskSelector.multicastMsgToTask, ht']
        simp only [hm, true_and, not_true_eq_false, iff_false, Bool.false_eq_true, if_false]
        exact of_decide_eq_false rfl
      | some ts =>
        have ht' : (f.mTaskSelector.setCurrentTime o.now).task m.tAddr.logAddr = some ts := ht
        obtain ⟨h1, h2⟩ := TTaskSelector.multicastMsgToTask_effects ht'
        simp [h1, h2]
    · rename_i hm
      rcases (f.mTaskSelector.setCurrentTime o.now).sendMsgToTask_effects o m with
        ⟨h1, h2⟩ | ⟨h1, tcid, m', h2⟩
      · simp [h1, h2, hm, Linear, Effect.handsOver, Effect.deletes]
      · simp [h1, h2, hm, Linear, Effect.handsOver, Effect.deletes]

lemma mainLoop_event (f : TFRAMEControl) (o : Outside) (m : TEventMsg) :
    Linear (f.mainLoop o (some (.event m))).1 := by
  rw [mainLoop]
  dsimp only
  split
  · exact (onEvent_silent _ m).append.mpr (TTaskSelector.addEvent_linear _ m)
  · exact (onEvent_silent _ m).append_delete

def idle : TFRAMEControl := ⟨.new, false, 0, 0, 0⟩

end TFRAMEControl

end Xframe.Kernel
