import Xframe.Kernel.SessionAffinity

/-! Where `sendMsgToTask` puts a unicast message: the load balancer only chooses containers that have
the task, but an address in the message is not checked. -/

namespace Xframe.Kernel

open Xframe.Comserv Xframe.Msg Xframe.Lib

def TaskState.places (ts : TaskState) : List ℕ := ts.inst.map InstState.tcid

namespace TTaskSelector

def tasksOf (s : TTaskSelector) (tcid : ℕ) : List ℕ :=
  ((s.container tcid).map TaskContainerState.tasks).getD []

def Hosts (s : TTaskSelector) (ts : TaskState) : Prop := ∀ tcid ∈ ts.places, ts.taskid ∈ s.tasksOf tcid

def Hosted (s : TTaskSelector) : Prop := ∀ ts ∈ s.mTaskList, s.Hosts ts

variable {s s' : TTaskSelector} {o : Outside} {sid : SessionId} {tk : TaskKey} {taskid tcid : ℕ} {ts : TaskState}
  {msg : TUniNetMsg}

lemma container_map {f : TaskContainerState → TaskContainerState} (hf : ∀ c, (f c).tcid = c.tcid)
    (hs : s'.mContainerList = s.mContainerList.map f) (tcid : ℕ) : s'.container tcid = (s.container tcid).map f := by
  rw [container, hs, List.find?_map]
  have hcomp : ((fun c : TaskContainerState => decide (c.tcid = tcid)) ∘ f) = fun c => decide (c.tcid = tcid) := by
    funext c
    rw [Function.comp_apply, hf]
  rw [hcomp]
  rfl

lemma tasksOf_map {f : TaskContainerState → TaskContainerState} (hf : ∀ c, (f c).tcid = c.tcid)
    (ht : ∀ c, (f c).tasks = c.tasks) (hs : s'.mContainerList = s.mContainerList.map f) :
    s'.tasksOf = s.tasksOf := by
  funext tcid
  rw [tasksOf, container_map hf hs, Option.map_map]
  have hcomp : TaskContainerState.tasks ∘ f = TaskContainerState.tasks := funext ht
  rw [hcomp]
  rfl

lemma balanceCheck_tasksOf (s : TTaskSelector) (o : Outside) (ts : TaskState) :
    (s.balanceCheck o ts).1.tasksOf = s.tasksOf ∧ (s.balanceCheck o ts).1.mTaskList = s.mTaskList := by
  have hmap : (s.balanceCheck o ts).1.mContainerList = s.mContainerList.map fun c =>
      if c.tcid ∈ ts.inst.map InstState.tcid then { c with waitCount := o.waitCount c.tcid } else c := by
    rw [balanceCheck]
    dsimp only
    split <;> rfl
  refine ⟨tasksOf_map (fun c => ?_) (fun c => ?_) hmap, ?_⟩
  · split <;> rfl
  · split <;> rfl
  · rw [balanceCheck]
    dsimp only
    split <;> rfl

lemma balanceCheck_places (s : TTaskSelector) (o : Outside) (ts : TaskState) :
    (s.balanceCheck o ts).2.places = ts.places ∧ (s.balanceCheck o ts).2.taskid = ts.taskid := by
  rw [balanceCheck]
  dsimp only
  split
  · exact ⟨rfl, rfl⟩
  · refine ⟨?_, rfl⟩
    rw [TaskState.places, List.map_map]
    rfl

lemma Hosted.setTask (h : Hosted s) (hts : s.Hosts ts) : Hosted (s.setTask ts) := by
  intro t ht
  obtain ⟨u, hu, rfl⟩ := List.mem_map.mp ht
  split
  · exact hts
  · exact h u hu

lemma charge_tasksOf (s : TTaskSelector) (o : Outside) (ts : TaskState) (pos : ℕ) (is : InstState) :
    (s.charge o ts pos is).tasksOf = s.tasksOf := by
  rw [charge]
  dsimp only
  split
  · exact (s.balanceCheck_tasksOf o _).1
  · rfl

lemma Hosted.charge {pos : ℕ} {is : InstState} (h : Hosted s) (hts : s.Hosts ts) (hg : ts.inst[pos]? = some is) :
    Hosted (s.charge o ts pos is) := by
  set ts' : TaskState := { ts with
    instpos := pos, count := ts.count + 1, inst := ts.inst.set pos { is with count := is.count + 1 } } with hts'
  have hplaces : ts'.places = ts.places := by
    refine List.ext_getElem? fun i => ?_
    rw [TaskState.places, TaskState.places, List.getElem?_map, List.getElem?_map, List.getElem?_set]
    split
    · next hi =>
      subst hi
      rw [hg, if_pos (List.getElem?_eq_some_iff.mp hg).1]
      rfl
    · rfl
  have hok : s.Hosts ts' := by
    rw [Hosts, hplaces]
    exact hts
  rw [TTaskSelector.charge]
  dsimp only
  split
  · obtain ⟨ht, hl⟩ := s.balanceCheck_tasksOf o ts'
    obtain ⟨hp, hid⟩ := s.balanceCheck_places o ts'
    refine Hosted.setTask ?_ ?_
    · intro t htm
      rw [hl] at htm
      rw [Hosts, ht]
      exact h t htm
    · intro c hc
      rw [ht]
      have hmem := hok c (hp ▸ hc)
      rw [← hid] at hmem
      exact hmem
  · exact h.setTask hok

lemma tasksOf_mono {cs : List TaskContainerState} (hs : s'.mContainerList = s.mContainerList ++ cs)
    (h : taskid ∈ s.tasksOf tcid) : taskid ∈ s'.tasksOf tcid := by
  rw [tasksOf] at h ⊢
  cases hc : s.container tcid with
  | none => simp [hc] at h
  | some c =>
    have hfind : s'.container tcid = some c := by
      rw [container] at hc ⊢
      rw [hs, List.find?_append, hc]
      rfl
    rw [hfind]
    rwa [hc] at h

lemma container_addTask (s : TTaskSelector) (taskid tcid c : ℕ) : (s.addTask taskid tcid).container c =
    (s.container c).map fun c => if c.tcid = tcid then { c with tasks := c.tasks ++ [taskid] } else c := by
  refine container_map (fun c => ?_) rfl c
  split <;> rfl

lemma tasksOf_addTask {k c : ℕ} (h : k ∈ s.tasksOf c) : k ∈ (s.addTask taskid tcid).tasksOf c := by
  rw [tasksOf, container_addTask]
  rw [tasksOf] at h
  cases hc : s.container c with
  | none => simp [hc] at h
  | some d =>
    rw [hc] at h
    have hk : k ∈ d.tasks := h
    rw [Option.map_some]
    split
    · exact List.mem_append_left _ hk
    · exact hk

lemma tasksOf_added {c : TaskContainerState} (h : s.container tcid = some c) :
    taskid ∈ (s.addTask taskid tcid).tasksOf tcid := by
  have hid : c.tcid = tcid := by simpa using List.find?_some h
  rw [tasksOf, container_addTask, h, Option.map_some, if_pos hid]
  simp

lemma Hosted.registerContainer (h : Hosted s) (tcid : ℕ) : Hosted (s.registerContainer tcid).2 := by
  rw [TTaskSelector.registerContainer]
  split
  · exact h
  split
  · exact h
  · exact fun ts hts c hc => tasksOf_mono rfl (h ts hts c hc)

lemma Hosted.registerTask (h : Hosted s) (taskid tcid : ℕ) : Hosted (s.registerTask taskid tcid).2 := by
  rw [TTaskSelector.registerTask]
  split
  · exact h
  split
  · exact h
  · next c hc =>
    split
    · exact h
    have ha : Hosted (s.addTask taskid tcid) := fun ts hts d hd => tasksOf_addTask (h ts hts d hd)
    have hnew : taskid ∈ (s.addTask taskid tcid).tasksOf tcid := tasksOf_added hc
    dsimp only
    split
    · intro ts hts d hd
      rcases List.mem_append.mp hts with hts | hts
      · exact ha ts hts d hd
      · obtain rfl := List.mem_singleton.mp hts
        obtain rfl : d = tcid := by simpa [TaskState.places] using hd
        exact hnew
    · next ts hts =>
      obtain ⟨hmem, rfl⟩ := task_mem hts
      refine ha.setTask fun d hd => ?_
      rw [TaskState.places, List.map_append, List.mem_append] at hd
      rcases hd with hd | hd
      · exact ha ts hmem d hd
      · obtain rfl : d = tcid := by simpa using hd
        exact hnew

lemma Hosted.getTask (h : Hosted s) (o : Outside) (taskid tcid : ℕ) : Hosted (s.getTask o taskid tcid).2 := by
  rcases s.getTask_cases o taskid tcid with he | ⟨-, c, -, he⟩ | ⟨-, ts, is, -, -, he⟩ |
    ⟨-, ts, pos, is, hts, -, hn, he⟩
  · exact he ▸ h
  · exact he ▸ h
  · exact he ▸ h
  · rw [he]
    exact h.charge (h ts (task_mem hts).1) (nextInst_get hn).1

lemma getTask_tasksOf (s : TTaskSelector) (o : Outside) (taskid tcid : ℕ) :
    (s.getTask o taskid tcid).2.tasksOf = s.tasksOf := by
  rcases s.getTask_cases o taskid tcid with he | ⟨-, c, -, he⟩ | ⟨-, ts, is, -, -, he⟩ |
    ⟨-, ts, pos, is, -, -, -, he⟩
  · rw [he]
  · rw [he]
  · rw [he]
  · rw [he]
    exact s.charge_tasksOf o ts pos is

def registry (s : TTaskSelector) : List TaskContainerState × List TaskState := (s.mContainerList, s.mTaskList)

lemma Hosted.of_registry (h : Hosted s) (hs : s'.registry = s.registry) : Hosted s' := by
  obtain ⟨hc, ht⟩ := Prod.mk.inj hs
  intro ts hts c hm
  have hcont : s'.tasksOf = s.tasksOf := by
    funext c
    rw [tasksOf, tasksOf, container, container, hc]
  rw [hcont]
  exact h ts (ht ▸ hts) c hm

lemma enterDialog_registry (s : TTaskSelector) (o : Outside) (msg : TUniNetMsg) :
    (s.enterDialog o msg).2.registry = s.registry := by
  rw [enterDialog]
  split
  · rcases s.restoreSession_state o msg with he | ⟨sid, he⟩
    · rw [he]
      rfl
    · rw [he]
      cases sid <;> rfl
  · rfl

lemma deliver_registry (s : TTaskSelector) (o : Outside) (tcid : ℕ) (msg : TUniNetMsg) :
    (s.deliver o tcid msg).2.registry = s.registry := by
  rw [deliver]
  split
  · dsimp only
    split
    · rfl
    · next sid _ => cases sid <;> rfl
  · rfl

lemma Hosted.sendMsgToTask (h : Hosted s) (o : Outside) (msg : TUniNetMsg) :
    Hosted (s.sendMsgToTask o msg).2.2 := by
  rcases s.sendMsgToTask_cases o msg with ⟨-, he⟩ | ⟨m₁, s₁, r, s₂, -, hen, hg, hr⟩
  · exact he ▸ h
  have h₁ : Hosted s₁ := by
    have := s.enterDialog_registry o (localAddr msg)
    rw [hen] at this
    exact h.of_registry this
  have h₂ := h₁.getTask o m₁.tAddr.logAddr (containerid msg.tAddr.phyAddr)
  rw [hg] at h₂
  rcases hr with ⟨-, he⟩ | ⟨c, m₂, s₃, -, hd, he⟩
  · exact he ▸ h₂
  · have h₃ := s₂.deliver_registry o c m₁
    rw [hd] at h₃
    rw [he]
    exact h₂.of_registry h₃

lemma Hosted.apply (h : Hosted s) (op : Op) : Hosted (s.apply op) := by
  cases op with
  | registerContainer tcid => exact h.registerContainer tcid
  | registerTask taskid tcid => exact h.registerTask taskid tcid
  | setRecycleTime ct => exact h.of_registry rfl
  | setCurrentTime t => exact h.of_registry rfl
  | add o msg =>
    rw [TTaskSelector.apply, TTaskSelector.add]
    split
    · exact h.of_registry rfl
    split
    · rw [multicastMsgToTask]
      split
      · exact h
      · next ts hts =>
        refine Hosted.of_registry (s := s.setTask _) (h.setTask ?_) rfl
        intro c hc
        rw [TaskState.places, List.map_map] at hc
        exact h ts (task_mem hts).1 c hc
    · exact h.sendMsgToTask o msg
  | addEvent msg => exact h

lemma reached_inv {es : List Op} (h : Run Step new es s) : Inv s ∧ Hosted s := by
  refine h.invariant (I := fun _ t => Inv t ∧ Hosted t) ⟨inv_new, fun ts hts => by simp [new] at hts⟩ ?_
  rintro es t op u ⟨hi, hh⟩ rfl
  exact ⟨hi.apply op, hh.apply op⟩

def withSessions (s : TTaskSelector) (ints : ExpireMap ℕ TaskKey) (strs : ExpireMap CStr TaskKey) : TTaskSelector :=
  { s with
    mIntDialog := { s.mIntDialog with entries := ints.entries, nodup := ints.nodup }
    mStrDialog := { s.mStrDialog with entries := strs.entries, nodup := strs.nodup } }

def Chooses (s : TTaskSelector) (msg : TUniNetMsg) (c : ℕ) : Prop :=
  if containerid msg.tAddr.phyAddr = 0 then ∃ ts, s.task msg.tAddr.logAddr = some ts ∧ ts.NextFree c
  else (s.task msg.tAddr.logAddr).isSome ∧ (s.container c).isSome ∧ c = containerid msg.tAddr.phyAddr

def Handled (s : TTaskSelector) (o : Outside) (msg : TUniNetMsg) : Prop :=
  (s.sendMsgToTask o msg).1 = true → ∃ c msg', (s.sendMsgToTask o msg).2.1 = [.enqueue c (.uniNet msg')] ∧
    msg.tAddr.logAddr ∈ (s.sendMsgToTask o msg).2.2.tasksOf c ∧
    (msg.dialogType = dialogBegin → msg.tAddr.taskInstID = 0 →
      msg'.tAddr.taskInstID = o.genTaskInst c msg.tAddr.logAddr ∧ msg'.tAddr.taskInstID ≠ 0 ∧
      ∀ sid, sessionId msg = some sid →
        ∃ tk, (s.sendMsgToTask o msg).2.2.findDialog sid = some tk ∧ tk.tiid = msg'.tAddr.taskInstID)

structure Ready (s : TTaskSelector) : Prop where
  tasks : ∀ ts ∈ s.mTaskList, ts.Ok
  hosted : Hosted s
  unlimited : s.mIntDialog.countMax = 0 ∧ s.mStrDialog.countMax = 0

lemma task_registry (hs : s'.registry = s.registry) (taskid : ℕ) : s'.task taskid = s.task taskid := by
  rw [task, task, (Prod.mk.inj hs).2]

lemma container_registry (hs : s'.registry = s.registry) (tcid : ℕ) : s'.container tcid = s.container tcid := by
  rw [container, container, (Prod.mk.inj hs).1]

lemma tasksOf_registry (hs : s'.registry = s.registry) : s'.tasksOf = s.tasksOf := by
  funext c
  rw [tasksOf, tasksOf, container_registry hs]

lemma getTask_chooses (h : Ready s) (hs : s'.registry = s.registry) (ht : (s.task msg.tAddr.logAddr).isSome) (c : ℕ) :
    (s'.getTask o msg.tAddr.logAddr (containerid msg.tAddr.phyAddr)).1 = some c ↔ s.Chooses msg c := by
  obtain ⟨ts, hts⟩ := Option.isSome_iff_exists.mp ht
  have hok := h.tasks ts (task_mem hts).1
  have hpos : 0 < msg.tAddr.logAddr := by
    have hid := (task_mem hts).2
    have hne := hok.1
    omega
  rw [Chooses]
  split
  · next h0 =>
    rw [h0, getTask_zero ((task_registry hs _).trans hts) hok, hts]
    simp
  · next h0 =>
    rw [getTask, if_pos ⟨hpos, by omega⟩, container_registry hs]
    dsimp only
    constructor
    · intro hc
      obtain ⟨d, hd, rfl⟩ := Option.map_eq_some_iff.mp hc
      have hid : d.tcid = containerid msg.tAddr.phyAddr := by simpa using List.find?_some hd
      exact ⟨ht, by rw [hid, hd]; rfl, hid⟩
    · rintro ⟨-, hc, rfl⟩
      obtain ⟨d, hd⟩ := Option.isSome_iff_exists.mp hc
      have hid : d.tcid = containerid msg.tAddr.phyAddr := by simpa using List.find?_some hd
      rw [hd, Option.map_some, hid]

lemma nextFree_mem {c : ℕ} (h : ts.NextFree c) : c ∈ ts.places := by
  rcases h with ⟨is, his, rfl⟩ | ⟨-, k, -, is, hk, -, rfl, -⟩
  · exact List.mem_map_of_mem (by simp [his])
  · exact List.mem_map_of_mem (List.mem_of_getElem? hk)

lemma Ready.hosts (h : Ready s) {c : ℕ} (hc : s.Chooses msg c) (h0 : containerid msg.tAddr.phyAddr = 0) :
    msg.tAddr.logAddr ∈ s.tasksOf c := by
  rw [Chooses, if_pos h0] at hc
  obtain ⟨ts, hts, hfree⟩ := hc
  obtain ⟨hmem, hid⟩ := task_mem hts
  exact hid ▸ h.hosted ts hmem c (nextFree_mem hfree)

lemma genTaskInst_eq (s : TTaskSelector) (o : Outside) (c taskid : ℕ) :
    s.genTaskInst o c taskid = if taskid ∈ s.tasksOf c then o.genTaskInst c taskid else 0 := by
  rw [genTaskInst, tasksOf]
  cases s.container c with
  | none => rfl
  | some d => rfl

lemma deliver_begin (hu : s.mIntDialog.countMax = 0 ∧ s.mStrDialog.countMax = 0) (hb : msg.dialogType = dialogBegin)
    (hi : msg.tAddr.taskInstID = 0) (c : ℕ) :
    (s.deliver o c msg).1.tAddr.taskInstID = s.genTaskInst o c msg.tAddr.logAddr ∧
      ∀ sid, sessionId msg = some sid → (s.deliver o c msg).2.findDialog sid =
        some ((s.findDialog sid).getD ⟨c, s.genTaskInst o c msg.tAddr.logAddr⟩) := by
  rw [deliver, if_pos ⟨hb, hi⟩]
  dsimp only
  have hsid : ∀ a, sessionId { msg with tAddr := a } = sessionId msg := fun _ => rfl
  rw [hsid]
  cases hs : sessionId msg with
  | none => exact ⟨rfl, by simp⟩
  | some sid =>
    refine ⟨rfl, ?_⟩
    rintro _ ⟨⟩
    rw [findDialog_push hu]
    cases hf : s.findDialog sid with
    | none => rw [if_pos ⟨rfl, rfl⟩]; rfl
    | some tk => rw [if_neg (by simp)]; rfl

lemma getTask_sessions (s : TTaskSelector) (o : Outside) (taskid tcid : ℕ) :
    (s.getTask o taskid tcid).2.mIntDialog = s.mIntDialog ∧ (s.getTask o taskid tcid).2.mStrDialog = s.mStrDialog := by
  rcases s.getTask_cases o taskid tcid with he | ⟨-, c, -, he⟩ | ⟨-, ts, is, -, -, he⟩ |
    ⟨-, ts, pos, is, -, -, -, he⟩
  · rw [he]
    exact ⟨rfl, rfl⟩
  · rw [he]
    exact ⟨rfl, rfl⟩
  · rw [he]
    exact ⟨rfl, rfl⟩
  · rw [he, charge, balanceCheck]
    dsimp only
    split_ifs <;> exact ⟨rfl, rfl⟩

lemma ready_withSessions {es : List Op} (h : Run Step new es s) (ints : ExpireMap ℕ TaskKey)
    (strs : ExpireMap CStr TaskKey) : Ready (s.withSessions ints strs) := by
  obtain ⟨hi, hh⟩ := reached_inv h
  exact ⟨hi.tasks, hh.of_registry rfl, hi.unlimited⟩

lemma Ready.send_cases (h : Ready s) (o : Outside) (msg : TUniNetMsg) :
    ((∀ c, ¬s.Chooses msg c) ∧ ∃ s', s.sendMsgToTask o msg = (false, [], s')) ∨
    ∃ c m₁ s₁ s₂ m₂ s₃, (∀ c', s.Chooses msg c' ↔ c' = c) ∧ s.enterDialog o (localAddr msg) = (m₁, s₁) ∧
      m₁.tAddr.logAddr = msg.tAddr.logAddr ∧ s₁.registry = s.registry ∧
      s₁.getTask o msg.tAddr.logAddr (containerid msg.tAddr.phyAddr) = (some c, s₂) ∧ s₂.deliver o c m₁ = (m₂, s₃) ∧
      s.sendMsgToTask o msg =
        (true, [.enqueue c (.uniNet m₂)], { s₃ with sendMsgToTaskCount := s₃.sendMsgToTaskCount + 1 }) := by
  rcases s.sendMsgToTask_cases o msg with ⟨ht, he⟩ | ⟨m₁, s₁, r, s₂, ht, hen, hg, hr⟩
  · refine Or.inl ⟨fun c hc => ?_, s, he⟩
    rw [Chooses, ht] at hc
    simp at hc
  have hlog : m₁.tAddr.logAddr = msg.tAddr.logAddr := by
    have hf := (s.enterDialog_fields o (localAddr msg)).2
    rwa [hen] at hf
  have hreg : s₁.registry = s.registry := by
    have hf := s.enterDialog_registry o (localAddr msg)
    rwa [hen] at hf
  rw [hlog] at hg
  have hchoose : ∀ c, r = some c ↔ s.Chooses msg c := by
    intro c
    have hc := getTask_chooses (o := o) h hreg ht c
    rwa [hg] at hc
  rcases hr with ⟨rfl, he⟩ | ⟨c, m₂, s₃, rfl, hd, he⟩
  · refine Or.inl ⟨fun c hc => ?_, s₂, he⟩
    have hnone := (hchoose c).mpr hc
    simp at hnone
  · refine Or.inr ⟨c, m₁, s₁, s₂, m₂, s₃, fun c' => ?_, hen, hlog, hreg, hg, hd, he⟩
    rw [← hchoose, Option.some.injEq]
    exact eq_comm

lemma Ready.handled_iff (h : Ready s) (o : Outside) (msg : TUniNetMsg) :
    Handled s o msg ↔ ∀ c, s.Chooses msg c →
      (containerid msg.tAddr.phyAddr ≠ 0 → msg.tAddr.logAddr ∈ s.tasksOf c) ∧
      (msg.dialogType = dialogBegin → msg.tAddr.taskInstID = 0 → o.genTaskInst c msg.tAddr.logAddr ≠ 0 ∧
        ∀ sid tk, sessionId msg = some sid → s.findDialog sid = some tk →
          tk.tiid = o.genTaskInst c msg.tAddr.logAddr) := by
  rw [Handled]
  rcases h.send_cases o msg with ⟨hnone, s', he⟩ | ⟨c, m₁, s₁, s₂, m₂, s₃, hchoose, hen, hlog, hreg, hg, hd, he⟩
  · rw [he]
    exact iff_of_true (by simp) fun c hc => absurd hc (hnone c)
  have hthis := (hchoose c).mpr rfl
  have htasks₂ : s₂.tasksOf = s.tasksOf := by
    have hf := s₁.getTask_tasksOf o msg.tAddr.logAddr (containerid msg.tAddr.phyAddr)
    rw [hg] at hf
    exact hf.trans (tasksOf_registry hreg)
  have htasks₃ : s₃.tasksOf = s.tasksOf := by
    have hf := s₂.deliver_registry o c m₁
    rw [hd] at hf
    exact (tasksOf_registry hf).trans htasks₂
  have hdone (t : TTaskSelector) (n : ℕ) : ({ t with sendMsgToTaskCount := n } : TTaskSelector).tasksOf = t.tasksOf := rfl
  have hsame (t : TTaskSelector) (n : ℕ) (sid : SessionId) :
      ({ t with sendMsgToTaskCount := n } : TTaskSelector).findDialog sid = t.findDialog sid := by
    cases sid <;> rfl
  have hbegin (hb : msg.dialogType = dialogBegin) (hi : msg.tAddr.taskInstID = 0)
      (hm : msg.tAddr.logAddr ∈ s.tasksOf c) :
      m₂.tAddr.taskInstID = o.genTaskInst c msg.tAddr.logAddr ∧ ∀ sid, sessionId msg = some sid →
        s₃.findDialog sid = some ((s.findDialog sid).getD ⟨c, o.genTaskInst c msg.tAddr.logAddr⟩) := by
    rw [enterDialog_begin s o (localAddr msg) hb, Prod.mk.injEq] at hen
    obtain ⟨rfl, rfl⟩ := hen
    obtain ⟨hint, hstr⟩ := s.getTask_sessions o msg.tAddr.logAddr (containerid msg.tAddr.phyAddr)
    have hdlg := s.getTask_dialogs o msg.tAddr.logAddr (containerid msg.tAddr.phyAddr)
    rw [hg] at hint hstr hdlg
    have hu : s₂.mIntDialog.countMax = 0 ∧ s₂.mStrDialog.countMax = 0 := by
      rw [hint, hstr]
      exact h.unlimited
    have hgen : s₂.genTaskInst o c (localAddr msg).tAddr.logAddr = o.genTaskInst c msg.tAddr.logAddr := by
      rw [genTaskInst_eq, htasks₂, hlog, if_pos hm]
    have hdel := deliver_begin (o := o) hu (show (localAddr msg).dialogType = dialogBegin from hb) hi c
    rw [hd, hgen] at hdel
    refine ⟨hdel.1, fun sid hs => ?_⟩
    rw [← hdlg sid]
    exact hdel.2 sid hs
  rw [he]
  dsimp only
  rw [hdone, htasks₃]
  constructor
  · intro hh c' hc'
    obtain rfl := (hchoose c').mp hc'
    obtain ⟨d, msg', hput, hm, hnew⟩ := hh rfl
    simp only [List.cons.injEq, Effect.enqueue.injEq, TMsg.uniNet.injEq, and_true] at hput
    obtain ⟨rfl, rfl⟩ := hput
    refine ⟨fun _ => hm, fun hb hi => ?_⟩
    obtain ⟨hid, hne, hses⟩ := hnew hb hi
    refine ⟨hid ▸ hne, fun sid tk hs hf => ?_⟩
    obtain ⟨tk', hf', htk⟩ := hses sid hs
    rw [hsame, (hbegin hb hi hm).2 sid hs, hf] at hf'
    cases hf'
    exact htk.trans hid
  · intro hcond _
    obtain ⟨hnamed, hnew⟩ := hcond c hthis
    have hm : msg.tAddr.logAddr ∈ s.tasksOf c := by
      by_cases h0 : containerid msg.tAddr.phyAddr = 0
      · exact h.hosts hthis h0
      · exact hnamed h0
    refine ⟨c, m₂, rfl, hm, fun hb hi => ?_⟩
    obtain ⟨hne, hold⟩ := hnew hb hi
    obtain ⟨hid, hses⟩ := hbegin hb hi hm
    refine ⟨hid, hid ▸ hne, fun sid hs => ⟨_, (hsame _ _ _).trans (hses sid hs), ?_⟩⟩
    cases hf : s.findDialog sid with
    | none => exact hid.symm
    | some tk => exact (hold sid tk hs hf).trans hid.symm

theorem unicast_handled_iff {es : List Op} (h : Run Step new es s) (ints : ExpireMap ℕ TaskKey)
    (strs : ExpireMap CStr TaskKey) (o : Outside) (msg : TUniNetMsg) :
    Handled (s.withSessions ints strs) o msg ↔ ∀ c, (s.withSessions ints strs).Chooses msg c →
      (containerid msg.tAddr.phyAddr ≠ 0 → msg.tAddr.logAddr ∈ s.tasksOf c) ∧
      (msg.dialogType = dialogBegin → msg.tAddr.taskInstID = 0 → o.genTaskInst c msg.tAddr.logAddr ≠ 0 ∧
        ∀ sid tk, sessionId msg = some sid → (s.withSessions ints strs).findDialog sid = some tk →
          tk.tiid = o.genTaskInst c msg.tAddr.logAddr) :=
  (ready_withSessions h ints strs).handled_iff o msg

theorem unicast_handled_named : Handled ((oneHost.foldl apply new).withSessions (.new 0 false 0) (.new 0 false 0)) quiet
    { sessionMsg dialogBegin with tAddr := ⟨7, 1, 0⟩ } := by
  refine (unicast_handled_iff (run_foldl oneHost) _ _ _ _).mpr ?_
  rintro c ⟨-, -, rfl⟩
  refine ⟨fun _ => by decide, fun _ _ => ⟨by decide, ?_⟩⟩
  rintro sid tk hs hf
  cases hs
  cases hf

theorem unicast_lost : ¬∀ (s : TTaskSelector) (es : List Op) (ints : ExpireMap ℕ TaskKey) (strs : ExpireMap CStr TaskKey)
    (o : Outside) (msg : TUniNetMsg), Run Step new es s → Handled (s.withSessions ints strs) o msg := by
  intro h
  obtain ⟨c, msg', hput, hm, -⟩ := h _ (oneHost ++ [.registerContainer 2]) (.new 0 false 0) (.new 0 false 0) quiet
    { sessionMsg dialogContinue with tAddr := ⟨7, 2, 0⟩ } (run_foldl _) rfl
  cases hput
  exact absurd hm (by decide)

end TTaskSelector

end Xframe.Kernel
