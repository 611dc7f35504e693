import Xframe.Kernel.SelectorTables

/-! Registration in hash tables and linked lists does what it does in the registry of lists. -/

namespace Xframe.Kernel

open Xframe.Comserv Xframe.Lib

namespace Registry

variable {r : Registry} {ts : TaskState} {taskid tcid : ℕ}

lemma container_snoc (h : r.container tcid = none) (p k : ℕ) :
    (((r.mContainerList ++ [(tcid, p)]).find? fun e => e.1 = k).map Prod.snd) =
      if k = tcid then some p else r.container k := by
  rw [List.find?_append, Option.map_or]
  change (r.container k).or _ = _
  by_cases hk : k = tcid
  · rw [hk, h, if_pos rfl]
    simp
  · have hne : ¬ tcid = k := fun he => hk he.symm
    simp [hk, hne]

lemma listTask_new (h : r.task taskid = none) (is : InstState) (k : ℕ) :
    (r.listTask taskid is).task k = if k = taskid then some ⟨taskid, 0, 0, 0, [is]⟩ else r.task k := by
  rw [listTask, h]
  change (r.mTaskList ++ [_]).find? _ = _
  rw [List.find?_append]
  change (r.task k).or _ = _
  by_cases hk : k = taskid
  · rw [hk, h, if_pos rfl]
    simp
  · have hne : ¬ taskid = k := fun he => hk he.symm
    simp [hk, hne]

lemma listTask_more (h : r.task taskid = some ts) (is : InstState) (k : ℕ) :
    (r.listTask taskid is).task k = if k = taskid then some { ts with
      inst := ts.inst ++ [is], balanceCount := (ts.inst.length + 1) * TTaskSelector.balanceCountNumber }
      else r.task k := by
  have hid := (mem_of_task h).2
  rw [listTask, h]
  dsimp only
  by_cases hk : k = taskid
  · rw [if_pos hk, hk]
    exact task_setTask_self h rfl
  · have hne : ts.taskid ≠ k := by
      rw [hid]
      exact Ne.symm hk
    rw [if_neg hk]
    exact task_setTask_ne hne

end Registry

namespace SelectorTables

open Registry (Consistent)

structure Holds (insts : List Registry.InstState) (t : TaskObject) (ts : Registry.TaskState) : Prop where
  taskid : t.taskid = ts.taskid
  instpos : t.instpos = ts.instpos
  count : t.count = ts.count
  balanceCount : t.balanceCount = ts.balanceCount
  inst : ∃ q, t.inst.Represents q ∧ q.values.map (fun p => insts[p]?) = ts.inst.map some

def TaskFound (s : SelectorTables) (r : Registry) (f : ℕ → Option ℕ) (k : ℕ) : Prop :=
  f k = none ∧ r.task k = none ∨
    ∃ p t ts, f k = some p ∧ s.tasks[p]? = some t ∧ r.task k = some ts ∧ Holds s.insts t ts

structure Refines (s : SelectorTables) (r : Registry) : Prop where
  states : s.states = r.states
  taskTable : s.taskTable = r.taskTable
  containers : CHashTable.Maps uintKeys s.mContainerList r.container
  tasks : ∃ f, CHashTable.Maps uintKeys s.mTaskList f ∧ ∀ k, s.TaskFound r f k
  taskAmount : s.registeredTaskAmount = r.registeredTaskAmount
  instAmount : s.registeredInstAmount = r.registeredInstAmount

variable {s : SelectorTables} {r : Registry} {insts : List Registry.InstState} {t : TaskObject}
  {ts : Registry.TaskState} {taskid tcid : ℕ}

lemma compareKey_iff (a b : ℕ) : uintKeys.compareKey a b = true ↔ a = b := beq_iff_eq

lemma refines_new (taskTable : ℕ → List (ℕ × ℕ)) (queues : ℕ → List Msg.TMsg) (memory : Counters) :
    Refines (new taskTable queues memory)
      (Registry.new taskTable memory.registeredTaskAmount memory.registeredInstAmount) :=
  ⟨rfl, rfl, CHashTable.maps_new _ _, ⟨_, CHashTable.maps_new _ _, fun _ => Or.inl ⟨rfl, rfl⟩⟩, rfl, rfl⟩

lemma registerContainer_refines (h : Refines s r) (tcid ptc : ℕ) :
    Returns (s.registerContainer tcid ptc) fun (ok, s') =>
      ok = (r.registerContainer tcid ptc).1 ∧ Refines s' (r.registerContainer tcid ptc).2 := by
  rw [registerContainer, Registry.registerContainer]
  by_cases hz : tcid = 0 ∨ ptc = 0
  · rw [if_pos hz, if_pos hz]
    exact (returns_some _ _).mpr ⟨rfl, h⟩
  rw [if_neg hz, if_neg hz, h.containers.containsKey, Option.bind_eq_bind, Option.bind_some]
  cases hc : r.container tcid with
  | some tcs => exact (returns_some _ _).mpr ⟨rfl, h⟩
  | none =>
    refine (h.containers.putR tcid s.states.length).bind ?_
    rintro ⟨_, table⟩ hput
    refine (returns_some _ _).mpr ⟨rfl, ?_, h.taskTable, ?_, ?_, h.taskAmount, ?_⟩
    · exact congrArg (· ++ [_]) h.states
    · have hmap : (fun k => if uintKeys.compareKey k tcid then some s.states.length else r.container k) =
          fun k => if k = tcid then some s.states.length else r.container k := by
        funext k
        simp only [compareKey_iff]
      rw [hmap] at hput
      refine Eq.mp (congrArg _ (funext fun k => ?_)) hput
      rw [h.states]
      exact (Registry.container_snoc hc _ k).symm
    · exact h.tasks
    · exact congrArg (· + 1) h.instAmount

lemma Holds.more (h : Holds insts t ts) (is : Registry.InstState) : Holds (insts ++ [is]) t ts := by
  obtain ⟨q, hq, hv⟩ := h.inst
  refine ⟨h.taskid, h.instpos, h.count, h.balanceCount, q, hq, ?_⟩
  rw [← hv]
  refine List.map_congr_left fun p hp => ?_
  have hmem : insts[p]? ∈ q.values.map fun p => insts[p]? := List.mem_map_of_mem hp
  rw [hv] at hmem
  obtain ⟨i, -, hi⟩ := List.mem_map.mp hmem
  rw [List.getElem?_append_left (List.getElem?_eq_some_iff.mp hi.symm).1]

lemma Refines.newInst (h : Refines s r) (is : Registry.InstState) :
    Refines { s with insts := s.insts ++ [is] } r := by
  obtain ⟨f, hf, hfound⟩ := h.tasks
  refine ⟨h.states, h.taskTable, h.containers, ⟨f, hf, fun k => ?_⟩, h.taskAmount, h.instAmount⟩
  rcases hfound k with hnone | ⟨p, t, ts, hp, ht, hts, hh⟩
  · exact Or.inl hnone
  · exact Or.inr ⟨p, t, ts, hp, ht, hts, hh.more is⟩

lemma represents_inst {q : CursorSeq ℕ} {p : ℕ} {is : Registry.InstState} (ts : Registry.TaskState)
    (hv : q.values.map (fun p => insts[p]?) = ts.inst.map some) (hp : insts[p]? = some is) :
    (q.pushBack p).values.map (fun p => insts[p]?) = (ts.inst ++ [is]).map some := by
  rw [CursorSeq.values, CursorSeq.pushBack_items, List.map_append, List.map_append, List.map_append, ← hv,
    List.map_singleton, List.map_singleton, List.map_singleton, hp]
  rfl

lemma listTask_refines (h : Refines s r) {p : ℕ} (is : Registry.InstState) (hp : s.insts[p]? = some is) (taskid : ℕ) :
    Returns (s.listTask taskid p) fun (ok, s') => ok = true ∧ Refines s' (r.listTask taskid is) := by
  obtain ⟨f, hf, hfound⟩ := h.tasks
  obtain ⟨-, h2, -, h4⟩ := Registry.listTask_fields r taskid is
  rw [listTask, hf.containsKey, Option.bind_eq_bind, Option.bind_some]
  rcases hfound taskid with ⟨hnone, hts⟩ | ⟨a, t, ts, ha, ht, hts, hh⟩
  · rw [hnone, Option.isSome_none, if_neg Bool.false_ne_true]
    refine (CList.pushBackR_refines CList.new_represents p).bind ?_
    rintro ⟨n, inst⟩ ⟨-, hinst⟩
    refine (hf.putR taskid s.tasks.length).bind ?_
    rintro ⟨_, table⟩ hput
    refine (returns_some _ _).mpr ⟨rfl, ?_, h.taskTable.trans h2.symm, ?_, ⟨_, hput, fun k => ?_⟩, ?_, ?_⟩
    · rw [Registry.listTask, hts]
      exact h.states
    · rw [Registry.listTask, hts]
      exact h.containers
    · rw [TaskFound, Registry.listTask_new hts]
      by_cases hk : k = taskid
      · refine Or.inr ⟨s.tasks.length, ⟨taskid, 0, 0, 0, inst⟩, _, if_pos ((compareKey_iff _ _).mpr hk), ?_, if_pos hk,
          rfl, rfl, rfl, rfl, _, hinst, ?_⟩
        · exact List.getElem?_concat_length
        · exact represents_inst ⟨taskid, 0, 0, 0, []⟩ rfl hp
      · have hne : ¬ uintKeys.compareKey k taskid = true := fun he => hk ((compareKey_iff _ _).mp he)
        rw [if_neg hk, if_neg hne]
        rcases hfound k with hno | ⟨b, u, us, hb, hu, hus, hhu⟩
        · exact Or.inl hno
        · refine Or.inr ⟨b, u, us, hb, ?_, hus, hhu⟩
          dsimp only
          rw [List.getElem?_append_left (List.getElem?_eq_some_iff.mp hu).1, hu]
    · rw [Registry.listTask, hts]
      exact congrArg (· + 1) h.taskAmount
    · exact h.instAmount.trans h4.symm
  · obtain ⟨q, hq, hv⟩ := hh.inst
    rw [ha, Option.isSome_some, if_pos rfl, hf.getR, ha]
    refine Returns.of_bind rfl (Returns.of_bind ht ?_)
    refine (CList.pushBackR_refines hq p).bind ?_
    rintro ⟨n, inst⟩ ⟨hn, hinst⟩
    have hlen : n = ts.inst.length + 1 := by
      have hcount := congrArg List.length hv
      rw [List.length_map, List.length_map, CursorSeq.values, List.length_map] at hcount
      rw [hn, CursorSeq.pushBack_items, List.length_append, hcount, List.length_singleton]
    refine (returns_some _ _).mpr ⟨rfl, ?_, h.taskTable.trans h2.symm, ?_, ⟨f, hf, fun k => ?_⟩, ?_, ?_⟩
    · rw [Registry.listTask, hts]
      exact h.states
    · rw [Registry.listTask, hts]
      exact h.containers
    · rw [TaskFound, Registry.listTask_more hts]
      by_cases hk : k = taskid
      · refine Or.inr ⟨a, { t with inst, balanceCount := n * TTaskSelector.balanceCountNumber }, _, hk ▸ ha, ?_,
          if_pos hk, hh.taskid, hh.instpos, hh.count, ?_, _, hinst, ?_⟩
        · exact List.getElem?_set_self (List.getElem?_eq_some_iff.mp ht).1
        · rw [hlen]
        · exact represents_inst _ hv hp
      · rw [if_neg hk]
        rcases hfound k with hno | ⟨b, u, us, hb, hu, hus, hhu⟩
        · exact Or.inl hno
        · -- the two tasks are two objects, because an object has one task id
          have hne : a ≠ b := by
            rintro rfl
            obtain rfl := Option.some.inj (ht.symm.trans hu)
            rw [← (Registry.mem_of_task hus).2, ← hhu.taskid, hh.taskid, (Registry.mem_of_task hts).2] at hk
            exact hk rfl
          refine Or.inr ⟨b, u, us, hb, ?_, hus, hhu⟩
          exact (List.getElem?_set_ne hne).trans hu
    · rw [Registry.listTask, hts]
      exact h.taskAmount
    · exact h.instAmount.trans h4.symm

lemma addTask_refines (h : Refines s r) {tc task : ℕ} {ok : Bool} {r' : Registry}
    (ha : r.addTask tc taskid task = some (ok, r')) :
    ∃ s', s.addTask tc taskid task = some (ok, s') ∧ Refines s' r' ∧ s'.insts = s.insts := by
  rw [Registry.addTask] at ha
  rw [addTask, h.taskTable]
  split_ifs at ha ⊢
  · obtain ⟨rfl, rfl⟩ := Prod.mk.inj (Option.some.inj ha)
    exact ⟨s, rfl, h, rfl⟩
  · obtain ⟨rfl, rfl⟩ := Prod.mk.inj (Option.some.inj ha)
    exact ⟨_, rfl, ⟨h.states, rfl, h.containers, h.tasks, h.taskAmount, h.instAmount⟩, rfl⟩

lemma addTask_none (h : Refines s r) {tc task : ℕ} (ha : r.addTask tc taskid task = none) :
    s.addTask tc taskid task = none := by
  rw [Registry.addTask] at ha
  rw [addTask, h.taskTable]
  split_ifs at ha ⊢
  rfl

lemma addTask_false {tc task : ℕ} {r' : Registry} (ha : r.addTask tc taskid task = some (false, r')) : r' = r := by
  rw [Registry.addTask] at ha
  split_ifs at ha
  · exact (Prod.mk.inj (Option.some.inj ha)).2.symm
  · cases (Prod.mk.inj (Option.some.inj ha)).1

lemma registerTask_refines (h : Refines s r) (hc : Consistent r) (taskid tcid task : ℕ) :
    (∀ ok r', r.registerTask taskid tcid task = some (ok, r') →
      Returns (s.registerTask taskid tcid task) fun (b, s') => b = ok ∧ Refines s' r') ∧
    (r.registerTask taskid tcid task = none → s.registerTask taskid tcid task = none) := by
  have hfalse : (∀ ok r', some (false, r) = some (ok, r') →
      Returns (some (false, s)) fun (b, s') => b = ok ∧ Refines s' r') ∧
      (some (false, r) = none → some (false, s) = none) := by
    refine ⟨fun ok r' heq => ?_, by simp⟩
    obtain ⟨rfl, rfl⟩ := Prod.mk.inj (Option.some.inj heq)
    exact (returns_some _ _).mpr ⟨rfl, h⟩
  rw [registerTask, Registry.registerTask]
  by_cases hz : taskid = 0 ∨ tcid = 0 ∨ task = 0
  · rw [if_pos hz, if_pos hz]
    exact hfalse
  rw [if_neg hz, if_neg hz, h.containers.getR]
  cases hcont : r.container tcid with
  | none => exact hfalse
  | some tcs =>
    obtain ⟨tc, htc⟩ := hc.stored _ (Registry.container_mem hcont)
    obtain ⟨c, hs, -⟩ := Option.map_eq_some_iff.mp ((List.getElem?_map ..).symm.trans htc)
    simp only [Option.bind_eq_bind, Option.bind_some, h.states, hs]
    rcases ha : r.addTask c.tc taskid task with _ | ⟨added, r₁⟩
    · rw [addTask_none h ha]
      exact ⟨by simp, fun _ => rfl⟩
    · obtain ⟨s₁, hs₁, h₁, hinsts⟩ := addTask_refines h ha
      rw [hs₁]
      simp only [Option.bind_some]
      cases added with
      | false =>
        obtain rfl := addTask_false ha
        refine ⟨fun ok r' heq => ?_, by simp⟩
        obtain ⟨rfl, rfl⟩ := Prod.mk.inj (Option.some.inj heq)
        exact (returns_some _ _).mpr ⟨rfl, h₁⟩
      | true =>
        refine ⟨fun ok r' heq => ?_, by simp⟩
        obtain ⟨rfl, rfl⟩ := Prod.mk.inj (Option.some.inj heq)
        exact listTask_refines (h₁.newInst _) ⟨0, 0, false, tcid, tcs⟩ List.getElem?_concat_length taskid

end SelectorTables

end Xframe.Kernel
