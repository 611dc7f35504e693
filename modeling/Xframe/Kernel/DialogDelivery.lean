import Xframe.Kernel.UnicastDelivery

/-! Which containers a message reaches. `add` takes the delivery mode from `msgType`, against the values
of `dialogType`. -/

namespace Xframe.Kernel

open Xframe.Comserv Xframe.Msg Xframe.Lib

def Effect.target : Effect → Option ℕ
  | .enqueue tcid _ => some tcid
  | .enqueueClone tcid _ => some tcid
  | _ => none

namespace TTaskSelector

inductive Mode where
  | broadcast
  | multicast
  | unicast
  deriving DecidableEq

def mode (t : ℕ) : Mode :=
  if t = dialogBroadcast then .broadcast else if t = dialogMulticast then .multicast else .unicast

def Registered (s : TTaskSelector) (c : ℕ) : Prop := (s.container c).isSome

def RegisteredFor (s : TTaskSelector) (taskid c : ℕ) : Prop := ∃ ts, s.task taskid = some ts ∧ c ∈ ts.places

def reached (s : TTaskSelector) (o : Outside) (msg : TUniNetMsg) : List ℕ := (s.add o msg).2.1.filterMap Effect.target

def ByDialog (s : TTaskSelector) (o : Outside) (msg : TUniNetMsg) : Prop :=
  match mode msg.dialogType with
  | .broadcast => ∀ c, s.Registered c → c ∈ s.reached o msg
  | .multicast => ∀ c, c ∈ s.reached o msg ↔ s.RegisteredFor msg.tAddr.logAddr c
  | .unicast => ∀ c ∈ s.reached o msg, ∀ c' ∈ s.reached o msg, c = c'

/-- The message types under which the dialog type gets its mode, or the registry makes no difference. -/
def Suits (s : TTaskSelector) (msg : TUniNetMsg) : Prop :=
  match mode msg.dialogType, mode msg.msgType with
  | .broadcast, .broadcast => True
  | .broadcast, .multicast => ∀ c, s.Registered c → s.RegisteredFor msg.tAddr.logAddr c
  | .broadcast, .unicast => ∀ c, s.Registered c → s.Chooses msg c
  | .multicast, .broadcast => ∀ c, s.Registered c → s.RegisteredFor msg.tAddr.logAddr c
  | .multicast, .multicast => True
  | .multicast, .unicast => ∀ c, s.Chooses msg c ↔ s.RegisteredFor msg.tAddr.logAddr c
  | .unicast, .broadcast => ∀ c c', s.Registered c → s.Registered c' → c = c'
  | .unicast, .multicast =>
    ∀ c c', s.RegisteredFor msg.tAddr.logAddr c → s.RegisteredFor msg.tAddr.logAddr c' → c = c'
  | .unicast, .unicast => True

variable {s : TTaskSelector} {o : Outside} {msg : TUniNetMsg} {c c' : ℕ}

lemma broadcast_target : c ∈ (s.broadcastMsgToTask msg).2.1.filterMap Effect.target ↔ s.Registered c := by
  have hlist : (s.broadcastMsgToTask msg).2.1.filterMap Effect.target =
      s.mContainerList.map TaskContainerState.tcid := by
    rw [broadcastMsgToTask]
    dsimp only
    rw [List.filterMap_append, List.filterMap_map]
    simp [Effect.target, Function.comp_def]
  rw [hlist, Registered, container, List.find?_isSome, List.mem_map]
  simp

lemma multicast_target (h : Ready s) :
    c ∈ (s.multicastMsgToTask msg).2.1.filterMap Effect.target ↔ s.RegisteredFor msg.tAddr.logAddr c := by
  rw [multicastMsgToTask, RegisteredFor]
  cases hts : s.task msg.tAddr.logAddr with
  | none => simp [Effect.target]
  | some ts =>
    have hpos : ∀ is ∈ ts.inst, 0 < is.tcid := fun is his =>
      Nat.pos_of_ne_zero ((h.tasks ts (task_mem hts).1).2.2 is his)
    have hall : (ts.inst.filter fun is => 0 < is.tcid) = ts.inst :=
      List.filter_eq_self.mpr fun is his => decide_eq_true (hpos is his)
    dsimp only
    rw [hall, List.filterMap_append, List.filterMap_map]
    simp [Effect.target, Function.comp_def, TaskState.places]

lemma unicast_target (h : Ready s) :
    c ∈ (s.sendMsgToTask o msg).2.1.filterMap Effect.target ↔ s.Chooses msg c := by
  rcases h.send_cases o msg with ⟨hnone, s', he⟩ | ⟨d, m₁, s₁, s₂, m₂, s₃, hchoose, -, -, -, -, -, he⟩
  · rw [he]
    simpa using hnone c
  · rw [he, hchoose]
    simp [Effect.target]

lemma mem_reached (h : Ready s) : c ∈ s.reached o msg ↔
    match mode msg.msgType with
    | .broadcast => s.Registered c
    | .multicast => s.RegisteredFor msg.tAddr.logAddr c
    | .unicast => s.Chooses msg c := by
  rw [reached, add, mode]
  split_ifs
  · exact broadcast_target
  · exact multicast_target h
  · exact unicast_target h

lemma registered_of_for (h : Ready s) {taskid : ℕ} (hc : s.RegisteredFor taskid c) : s.Registered c := by
  obtain ⟨ts, hts, hmem⟩ := hc
  have hhost := h.hosted ts (task_mem hts).1 c hmem
  rw [tasksOf] at hhost
  rw [Registered]
  cases hd : s.container c with
  | none => simp [hd] at hhost
  | some d => rfl

lemma chooses_unique (h : Ready s) (hc : s.Chooses msg c) (hc' : s.Chooses msg c') : c = c' := by
  rcases h.send_cases ⟨0, fun _ => 0, fun _ _ => 0⟩ msg with ⟨hnone, -⟩ | ⟨d, -, -, -, -, -, hchoose, -⟩
  · exact absurd hc (hnone c)
  · exact ((hchoose c).mp hc).trans ((hchoose c').mp hc').symm

lemma Ready.byDialog_iff (h : Ready s) (o : Outside) (msg : TUniNetMsg) : ByDialog s o msg ↔ Suits s msg := by
  rw [ByDialog, Suits]
  cases mode msg.dialogType with
  | broadcast =>
    simp only [mem_reached h]
    cases mode msg.msgType with
    | broadcast => simp
    | multicast => rfl
    | unicast => rfl
  | multicast =>
    simp only [mem_reached h]
    cases mode msg.msgType with
    | broadcast => exact forall_congr' fun c => ⟨fun hc => hc.mp, fun hc => ⟨hc, registered_of_for h⟩⟩
    | multicast => simp
    | unicast => rfl
  | unicast =>
    simp only [mem_reached h]
    cases mode msg.msgType with
    | broadcast => exact forall_congr' fun c => ⟨fun hc c' h₁ => hc h₁ c', fun hc h₁ c' => hc c' h₁⟩
    | multicast => exact forall_congr' fun c => ⟨fun hc c' h₁ => hc h₁ c', fun hc h₁ c' => hc c' h₁⟩
    | unicast => exact iff_of_true (fun c hc c' hc' => chooses_unique h hc hc') trivial

theorem dialog_delivery_iff {es : List Op} (h : Run Step new es s) (o : Outside) (msg : TUniNetMsg) :
    ByDialog s o msg ↔ Suits s msg := by
  obtain ⟨hi, hh⟩ := reached_inv h
  exact Ready.byDialog_iff ⟨hi.tasks, hh, hi.unlimited⟩ o msg

theorem dialog_delivery_twoHosts : ByDialog (twoHosts.foldl apply new) quiet
    { sessionMsg dialogMulticast with msgType := dialogMulticast } :=
  (dialog_delivery_iff (run_foldl twoHosts) _ _).mpr trivial

theorem dialog_type_ignored : ¬∀ (s : TTaskSelector) (es : List Op) (o : Outside) (msg : TUniNetMsg),
    Run Step new es s → ByDialog s o msg := by
  intro h
  have hall := h _ twoHosts quiet { sessionMsg dialogContinue with msgType := dialogBroadcast } (run_foldl _)
  exact absurd (hall 1 (by decide) 2 (by decide)) (by decide)

end TTaskSelector

end Xframe.Kernel
