import Xframe.Comserv.ExpireLookup
import Xframe.Kernel.TaskSelector
import Xframe.Lib.Run

/-! What holds of a task selector after any sequence of its operations. -/

namespace Xframe.Kernel

open Xframe.Comserv Xframe.Msg

def TaskState.Ok (ts : TaskState) : Prop :=
  ts.taskid ≠ 0 ∧ ts.instpos < ts.inst.length ∧ ∀ is ∈ ts.inst, is.tcid ≠ 0

namespace TTaskSelector

variable {s : TTaskSelector} {o : Outside} {sid : SessionId} {tk : TaskKey} {taskid tcid : ℕ}

structure Inv (s : TTaskSelector) : Prop where
  containers : ∀ c ∈ s.mContainerList, c.tcid ≠ 0
  tasks : ∀ ts ∈ s.mTaskList, ts.Ok
  dialogs : ∀ sid tk, s.findDialog sid = some tk → tk.tcid ≠ 0
  unlimited : s.mIntDialog.countMax = 0 ∧ s.mStrDialog.countMax = 0

lemma inv_new : Inv new := by
  refine ⟨by simp [new], by simp [new], ?_, rfl, rfl⟩
  intro sid tk h
  cases sid <;> simp [findDialog, new, ExpireMap.new, ExpireMap.find] at h

lemma Inv.keepDialogs {s' : TTaskSelector} (h : Inv s) (hc : ∀ c ∈ s'.mContainerList, c.tcid ≠ 0)
    (ht : ∀ ts ∈ s'.mTaskList, ts.Ok) (hi : s'.mIntDialog = s.mIntDialog)
    (hs : s'.mStrDialog = s.mStrDialog) : Inv s' := by
  have hfind : ∀ sid, s'.findDialog sid = s.findDialog sid := by
    intro sid
    cases sid <;> simp [findDialog, hi, hs]
  exact ⟨hc, ht, fun sid tk hk => h.dialogs sid tk (hfind sid ▸ hk), by rw [hi, hs]; exact h.unlimited⟩

lemma Inv.setTask {ts : TaskState} (h : Inv s) (hts : ts.Ok) : Inv (s.setTask ts) := by
  refine h.keepDialogs h.containers ?_ rfl rfl
  intro t ht
  obtain ⟨u, hu, rfl⟩ := List.mem_map.mp ht
  split
  · exact hts
  · exact h.tasks u hu

lemma task_mem {ts : TaskState} (h : s.task taskid = some ts) : ts ∈ s.mTaskList ∧ ts.taskid = taskid :=
  ⟨List.mem_of_find?_eq_some h, by simpa using List.find?_some h⟩

lemma Inv.registerContainer (h : Inv s) (tcid : ℕ) : Inv (s.registerContainer tcid).2 := by
  rw [TTaskSelector.registerContainer]
  split
  · exact h
  split
  · exact h
  · refine h.keepDialogs ?_ h.tasks rfl rfl
    intro c hc
    rcases List.mem_append.mp hc with hc | hc
    · exact h.containers c hc
    · rw [List.mem_singleton] at hc
      subst hc
      assumption

lemma Inv.addTask (h : Inv s) (taskid tcid : ℕ) : Inv (s.addTask taskid tcid) := by
  refine h.keepDialogs ?_ h.tasks rfl rfl
  intro c hc
  obtain ⟨d, hd, rfl⟩ := List.mem_map.mp hc
  split
  · exact h.containers d hd
  · exact h.containers d hd

lemma Inv.registerTask (h : Inv s) (taskid tcid : ℕ) : Inv (s.registerTask taskid tcid).2 := by
  rw [TTaskSelector.registerTask]
  split
  · exact h
  rename_i hid
  rw [not_or] at hid
  split
  · exact h
  split
  · exact h
  have ha := h.addTask taskid tcid
  dsimp only
  split
  · refine ha.keepDialogs ha.containers ?_ rfl rfl
    intro ts hts
    rcases List.mem_append.mp hts with hts | hts
    · exact ha.tasks ts hts
    · rw [List.mem_singleton] at hts
      subst hts
      exact ⟨hid.1, by simp, by simpa using hid.2⟩
  · rename_i ts hts
    obtain ⟨h1, h2, h3⟩ := ha.tasks ts (task_mem hts).1
    refine ha.setTask ⟨h1, ?_, ?_⟩
    · rw [List.length_append]
      exact Nat.lt_add_right _ h2
    · intro is his
      rcases List.mem_append.mp his with his | his
      · exact h3 is his
      · rw [List.mem_singleton] at his
        subst his
        exact hid.2

lemma balanceCheck_ok {ts : TaskState} (h : ts.Ok) : (s.balanceCheck o ts).2.Ok := by
  rw [balanceCheck]
  dsimp only
  split
  · exact h
  · refine ⟨h.1, by simpa using h.2.1, ?_⟩
    intro is his
    obtain ⟨is', his', rfl⟩ := List.mem_map.mp his
    exact h.2.2 is' his'

lemma Inv.balanceCheck {ts : TaskState} (h : Inv s) : Inv (s.balanceCheck o ts).1 := by
  rw [TTaskSelector.balanceCheck]
  dsimp only
  have : Inv { s with mContainerList := s.mContainerList.map fun c =>
      if c.tcid ∈ ts.inst.map InstState.tcid then { c with waitCount := o.waitCount c.tcid } else c } := by
    refine h.keepDialogs ?_ h.tasks rfl rfl
    intro c hc
    obtain ⟨d, hd, rfl⟩ := List.mem_map.mp hc
    split <;> exact h.containers d hd
  split <;> exact this

lemma nextInst_get {inst : List InstState} {n p pos : ℕ} {is : InstState}
    (h : nextInst inst n p = some (pos, is)) : inst[pos]? = some is ∧ is.free := by
  induction n generalizing p with
  | zero => simp [nextInst] at h
  | succ n ih =>
    rw [nextInst] at h
    split at h
    · simp at h
    · rename_i is' his
      split at h
      · rename_i hfree
        simp only [Option.some.injEq, Prod.mk.injEq] at h
        obtain ⟨rfl, rfl⟩ := h
        exact ⟨his, hfree⟩
      · exact ih h

lemma Inv.charge {ts : TaskState} {pos : ℕ} {is : InstState} (h : Inv s) (hts : ts.Ok)
    (hg : ts.inst[pos]? = some is) : Inv (s.charge o ts pos is) := by
  obtain ⟨hlt, hget⟩ := List.getElem?_eq_some_iff.mp hg
  have hok : TaskState.Ok { ts with
      instpos := pos, count := ts.count + 1, inst := ts.inst.set pos { is with count := is.count + 1 } } := by
    refine ⟨hts.1, by simpa using hlt, ?_⟩
    intro is' his
    rcases List.mem_or_eq_of_mem_set his with his | rfl
    · exact hts.2.2 is' his
    · exact hts.2.2 is (hget ▸ List.getElem_mem hlt)
  rw [TTaskSelector.charge]
  dsimp only
  split
  · obtain ⟨h1, h2, h3⟩ := balanceCheck_ok (s := s) (o := o) hok
    exact h.balanceCheck.setTask ⟨h1, h2, h3⟩
  · exact h.setTask hok

lemma charge_dialogs (s : TTaskSelector) (o : Outside) (ts : TaskState) (pos : ℕ) (is : InstState) :
    (s.charge o ts pos is).findDialog sid = s.findDialog sid := by
  rw [charge, balanceCheck]
  dsimp only
  split_ifs <;> cases sid <;> rfl

lemma getTask_cases (s : TTaskSelector) (o : Outside) (taskid tcid : ℕ) :
    (s.getTask o taskid tcid = (none, s)) ∨
    (0 < tcid ∧ ∃ c ∈ s.mContainerList, s.getTask o taskid tcid = (some c.tcid, s)) ∨
    (tcid = 0 ∧ ∃ ts is, s.task taskid = some ts ∧ ts.inst = [is] ∧
      s.getTask o taskid tcid = (some is.tcid, s)) ∨
    (tcid = 0 ∧ ∃ ts pos is, s.task taskid = some ts ∧ 2 ≤ ts.inst.length ∧
      nextInst ts.inst ts.inst.length ts.instpos = some (pos, is) ∧
      s.getTask o taskid tcid = (some is.tcid, s.charge o ts pos is)) := by
  rw [getTask]
  split
  · rename_i hpos
    cases hc : s.container tcid with
    | none => exact Or.inl rfl
    | some c => exact Or.inr (Or.inl ⟨hpos.2, c, List.mem_of_find?_eq_some hc, rfl⟩)
  split
  · rename_i hneg hpos
    have hz : tcid = 0 := by
      rw [not_and] at hneg
      have := hneg hpos
      omega
    cases ht : s.task taskid with
    | none => exact Or.inl rfl
    | some ts =>
      dsimp only
      split
      · exact Or.inl rfl
      · rename_i is his
        exact Or.inr (Or.inr (Or.inl ⟨hz, ts, is, rfl, his, rfl⟩))
      · rename_i h1 h2
        have hlen := two_le_length h1 h2
        cases hn : nextInst ts.inst ts.inst.length ts.instpos with
        | none => exact Or.inl rfl
        | some x => exact Or.inr (Or.inr (Or.inr ⟨hz, ts, x.1, x.2, rfl, hlen, hn, rfl⟩))
  · exact Or.inl rfl

lemma Inv.getTask (h : Inv s) (o : Outside) (taskid tcid : ℕ) : Inv (s.getTask o taskid tcid).2 := by
  rcases s.getTask_cases o taskid tcid with he | ⟨-, c, -, he⟩ | ⟨-, ts, is, -, -, he⟩ |
    ⟨-, ts, pos, is, hts, -, hn, he⟩
  · exact he ▸ h
  · exact he ▸ h
  · exact he ▸ h
  · rw [he]
    exact h.charge (h.tasks ts (task_mem hts).1) (nextInst_get hn).1

lemma getTask_dialogs (s : TTaskSelector) (o : Outside) (taskid tcid : ℕ) (sid : SessionId) :
    (s.getTask o taskid tcid).2.findDialog sid = s.findDialog sid := by
  rcases s.getTask_cases o taskid tcid with he | ⟨-, c, -, he⟩ | ⟨-, ts, is, -, -, he⟩ |
    ⟨-, ts, pos, is, -, -, -, he⟩
  · rw [he]
  · rw [he]
  · rw [he]
  · rw [he]
    exact charge_dialogs s o ts pos is

lemma Inv.getTask_ne_zero (h : Inv s) {c : ℕ} (hc : (s.getTask o taskid tcid).1 = some c) : c ≠ 0 := by
  rcases s.getTask_cases o taskid tcid with he | ⟨-, d, hd, he⟩ | ⟨-, ts, is, hts, his, he⟩ |
    ⟨-, ts, pos, is, hts, -, hn, he⟩ <;> rw [he] at hc <;> cases hc
  · exact h.containers d hd
  · exact (h.tasks ts (task_mem hts).1).2.2 is (by simp [his])
  · exact (h.tasks ts (task_mem hts).1).2.2 is (List.mem_of_getElem? (nextInst_get hn).1)

lemma findDialog_of_popOld (h : (s.popOldDialogs o).findDialog sid = some tk) :
    s.findDialog sid = some tk := by
  cases sid with
  | int sid => exact ExpireMap.lookup_of_popOld h
  | str ssid => exact ExpireMap.lookup_of_popOld h

lemma findDialog_of_update {sid' : SessionId} (h : (s.updateDialog o sid').findDialog sid = some tk) :
    s.findDialog sid = some tk := by
  cases sid with
  | int sid =>
    cases sid' with
    | int sid' => exact ExpireMap.lookup_of_update h
    | str ssid' => exact h
  | str ssid =>
    cases sid' with
    | int sid' => exact h
    | str ssid' => exact ExpireMap.lookup_of_update h

lemma findDialog_push (h : s.mIntDialog.countMax = 0 ∧ s.mStrDialog.countMax = 0) (sid sid' : SessionId)
    (tk : TaskKey) : (s.pushDialog o tk sid').findDialog sid =
      if sid = sid' ∧ s.findDialog sid = none then some tk else s.findDialog sid := by
  cases sid with
  | int sid =>
    cases sid' with
    | int sid' =>
      simp only [SessionId.int.injEq]
      exact ExpireMap.lookup_push h.1 _ _ _ _
    | str ssid' =>
      rw [if_neg (by simp)]
      rfl
  | str ssid =>
    cases sid' with
    | int sid' =>
      rw [if_neg (by simp)]
      rfl
    | str ssid' =>
      simp only [SessionId.str.injEq]
      exact ExpireMap.lookup_push h.2 _ _ _ _

lemma Inv.findDialog_push (h : Inv s) (sid sid' : SessionId) (tk : TaskKey) :
    (s.pushDialog o tk sid').findDialog sid =
      if sid = sid' ∧ s.findDialog sid = none then some tk else s.findDialog sid :=
  TTaskSelector.findDialog_push h.unlimited sid sid' tk

lemma Inv.popOldDialogs (h : Inv s) : Inv (s.popOldDialogs o) :=
  ⟨h.containers, h.tasks, fun sid tk hk => h.dialogs sid tk (findDialog_of_popOld hk), h.unlimited⟩

lemma Inv.updateDialog (h : Inv s) (sid : SessionId) : Inv (s.updateDialog o sid) := by
  have hd : ∀ sid' tk, (s.updateDialog o sid).findDialog sid' = some tk → tk.tcid ≠ 0 :=
    fun sid' tk hk => h.dialogs sid' tk (findDialog_of_update hk)
  cases sid with
  | int sid => exact ⟨h.containers, h.tasks, hd, by simpa [TTaskSelector.updateDialog] using h.unlimited⟩
  | str ssid => exact ⟨h.containers, h.tasks, hd, by simpa [TTaskSelector.updateDialog] using h.unlimited⟩

lemma Inv.pushDialog (h : Inv s) (htk : tk.tcid ≠ 0) (sid : SessionId) : Inv (s.pushDialog o tk sid) := by
  have hd : ∀ sid' tk', (s.pushDialog o tk sid).findDialog sid' = some tk' → tk'.tcid ≠ 0 := by
    intro sid' tk' hk
    rw [h.findDialog_push] at hk
    split at hk
    · cases hk
      exact htk
    · exact h.dialogs sid' tk' hk
  cases sid with
  | int sid => exact ⟨h.containers, h.tasks, hd, by simpa [TTaskSelector.pushDialog] using h.unlimited⟩
  | str ssid => exact ⟨h.containers, h.tasks, hd, by simpa [TTaskSelector.pushDialog] using h.unlimited⟩

lemma restoreSession_state (s : TTaskSelector) (o : Outside) (msg : TUniNetMsg) :
    (s.restoreSession o msg).2 = s ∨ ∃ sid, (s.restoreSession o msg).2 = s.updateDialog o sid := by
  rw [restoreSession]
  split
  · exact Or.inl rfl
  split
  · exact Or.inl rfl
  split
  · exact Or.inr ⟨_, rfl⟩
  · exact Or.inl rfl

lemma Inv.enterDialog (h : Inv s) (o : Outside) (msg : TUniNetMsg) : Inv (s.enterDialog o msg).2 := by
  rw [TTaskSelector.enterDialog]
  split
  · rcases s.restoreSession_state o msg with he | ⟨sid, he⟩
    · rw [he]
      exact h.popOldDialogs
    · rw [he]
      exact (h.updateDialog sid).popOldDialogs
  · exact h

lemma findDialog_of_enter {msg : TUniNetMsg} (h : (s.enterDialog o msg).2.findDialog sid = some tk) :
    s.findDialog sid = some tk := by
  rw [enterDialog] at h
  split at h
  · have h := findDialog_of_popOld h
    rcases s.restoreSession_state o msg with he | ⟨sid', he⟩
    · exact he ▸ h
    · rw [he] at h
      exact findDialog_of_update h
  · exact h

lemma Inv.deliver (h : Inv s) {tcid : ℕ} (hc : tcid ≠ 0) (msg : TUniNetMsg) : Inv (s.deliver o tcid msg).2 := by
  rw [TTaskSelector.deliver]
  split
  · dsimp only
    split
    · exact h
    · exact h.pushDialog hc _
  · exact h

lemma Inv.findDialog_deliver (h : Inv s) (o : Outside) (tcid : ℕ) (msg : TUniNetMsg)
    (hk : s.findDialog sid = some tk) : (s.deliver o tcid msg).2.findDialog sid = some tk := by
  rw [TTaskSelector.deliver]
  split
  · dsimp only
    split
    · exact hk
    · rw [h.findDialog_push, if_neg (by simp [hk])]
      exact hk
  · exact hk

end TTaskSelector

end Xframe.Kernel
