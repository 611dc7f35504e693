import Xframe.Kernel.Registry
import Xframe.Lib.Refine

/-! Registration keeps the two levels of the registry in agreement, and the load balancer and the
dispatch change nothing of what agrees. -/

namespace Xframe.Kernel.Registry

open Xframe.Lib

def TaskState.places (ts : TaskState) : ℕ × List (ℕ × ℕ) := (ts.taskid, ts.inst.map fun is => (is.tcid, is.tcs))

def places (r : Registry) : List (ℕ × List (ℕ × ℕ)) := r.mTaskList.map TaskState.places

def owners (r : Registry) : List (ℕ × ℕ) := r.states.map fun c => (c.tcid, c.tc)

structure Consistent (r : Registry) : Prop where
  stored : ∀ e ∈ r.mContainerList, ∃ tc, r.owners[e.2]? = some (e.1, tc)
  linked : ∀ t ∈ r.places, ∀ p ∈ t.2, p ∈ r.mContainerList
  owned : ∀ t ∈ r.places, ∀ p ∈ t.2, ∀ tcid tc, r.owners[p.2]? = some (tcid, tc) →
    t.1 ∈ (r.taskTable tc).map Prod.fst
  once : ∀ t ∈ r.places, (t.2.map Prod.fst).Nodup
  onceEach : ∀ t ∈ r.places, (t.2.map fun p => r.owners[p.2]?.map Prod.snd).Nodup
  containerIds : (r.mContainerList.map Prod.fst).Nodup
  taskIds : (r.places.map Prod.fst).Nodup

def surplus (r : Registry) : ℤ × ℤ :=
  (r.registeredTaskAmount - r.places.length, r.registeredInstAmount - r.mContainerList.length)

structure Counted (r : Registry) : Prop where
  taskAmount : r.registeredTaskAmount = r.places.length
  instAmount : r.registeredInstAmount = r.mContainerList.length

def Placed (r : Registry) : Prop := ∀ ts ∈ r.mTaskList, ts.instpos < ts.inst.length

structure SameShape (r r' : Registry) : Prop where
  owners : r'.owners = r.owners
  taskTable : r'.taskTable = r.taskTable
  mContainerList : r'.mContainerList = r.mContainerList
  places : r'.places = r.places
  taskAmount : r'.registeredTaskAmount = r.registeredTaskAmount
  instAmount : r'.registeredInstAmount = r.registeredInstAmount

variable {r r' : Registry} {ts : TaskState} {taskid tcid : ℕ}

lemma counted_iff : Counted r ↔ r.surplus = (0, 0) := by
  rw [surplus, Prod.mk.injEq, sub_eq_zero, sub_eq_zero]
  exact ⟨fun ⟨ht, hi⟩ => ⟨ht, hi⟩, fun ⟨ht, hi⟩ => ⟨ht, hi⟩⟩

lemma SameShape.refl (r : Registry) : SameShape r r := ⟨rfl, rfl, rfl, rfl, rfl, rfl⟩

lemma SameShape.trans {r'' : Registry} (h : SameShape r r') (h' : SameShape r' r'') : SameShape r r'' :=
  ⟨h'.owners.trans h.owners, h'.taskTable.trans h.taskTable, h'.mContainerList.trans h.mContainerList,
    h'.places.trans h.places, h'.taskAmount.trans h.taskAmount, h'.instAmount.trans h.instAmount⟩

lemma Consistent.of_shape (h : Consistent r) (hs : SameShape r r') : Consistent r' := by
  obtain ⟨ho, ht, hc, hp, -, -⟩ := hs
  exact ⟨by rw [ho, hc]; exact h.stored, by rw [hp, hc]; exact h.linked, by rw [hp, ho, ht]; exact h.owned,
    by rw [hp]; exact h.once, by rw [hp, ho]; exact h.onceEach, by rw [hc]; exact h.containerIds, by rw [hp]; exact h.taskIds⟩

lemma SameShape.surplus (hs : SameShape r r') : r'.surplus = r.surplus := by
  rw [Registry.surplus, hs.taskAmount, hs.instAmount, hs.places, hs.mContainerList]
  rfl

lemma mem_of_task (h : r.task taskid = some ts) : ts ∈ r.mTaskList ∧ ts.taskid = taskid :=
  ⟨List.mem_of_find?_eq_some h, by simpa using List.find?_some h⟩

lemma task_setTask (r : Registry) (ts : TaskState) (taskid : ℕ) :
    (r.setTask ts).task taskid = (r.task taskid).map fun t => if t.taskid = ts.taskid then ts else t := by
  have hcomp : ((fun t : TaskState => decide (t.taskid = taskid)) ∘ fun t =>
      if t.taskid = ts.taskid then ts else t) = fun t => decide (t.taskid = taskid) := by
    funext t
    rw [Function.comp_apply]
    split
    · next heq => rw [heq]
    · rfl
  rw [task, setTask, List.find?_map, hcomp]
  rfl

lemma task_setTask_self {ts' : TaskState} (hts : r.task taskid = some ts) (hid : ts'.taskid = ts.taskid) :
    (r.setTask ts').task taskid = some ts' := by
  rw [task_setTask, hts, Option.map_some, if_pos hid.symm]

lemma task_setTask_ne (hid : ts.taskid ≠ taskid) : (r.setTask ts).task taskid = r.task taskid := by
  rw [task_setTask]
  cases hts : r.task taskid with
  | none => rfl
  | some t => rw [Option.map_some, if_neg (by rw [(mem_of_task hts).2]; exact Ne.symm hid)]

lemma places_mem (h : ts ∈ r.mTaskList) : ts.places ∈ r.places := List.mem_map_of_mem h

lemma Consistent.unique (h : Consistent r) {a b : TaskState} (ha : a ∈ r.mTaskList) (hb : b ∈ r.mTaskList)
    (heq : a.taskid = b.taskid) : a = b := by
  have hinj : (r.mTaskList.map TaskState.taskid).Nodup := by
    have := h.taskIds
    rwa [places, List.map_map] at this
  exact List.inj_on_of_nodup_map hinj ha hb heq

lemma Consistent.setTask_shape (h : Consistent r) {ts' : TaskState} (hts : r.task taskid = some ts)
    (hp : ts'.places = ts.places) : SameShape r (r.setTask ts') := by
  refine ⟨rfl, rfl, rfl, ?_, rfl, rfl⟩
  have hid : ts'.taskid = ts.taskid := congrArg Prod.fst hp
  rw [places, places, setTask, List.map_map]
  refine List.map_congr_left fun t ht => ?_
  rw [Function.comp_apply]
  split
  · next heq =>
    rw [hp, h.unique ht (mem_of_task hts).1 (heq.trans hid)]
  · rfl

lemma Placed.setTask (h : Placed r) (hts : ts.instpos < ts.inst.length) : Placed (r.setTask ts) := by
  intro t ht
  obtain ⟨u, hu, rfl⟩ := List.mem_map.mp ht
  split
  · exact hts
  · exact h u hu

lemma setTask_self (h : Consistent r) (hts : r.task taskid = some ts) : r.setTask ts = r := by
  have hmap : (r.mTaskList.map fun t => if t.taskid = ts.taskid then ts else t) = r.mTaskList := by
    refine (List.map_congr_left fun t ht => ?_).trans (List.map_id _)
    split
    · next heq => exact (h.unique ht (mem_of_task hts).1 heq).symm
    · rfl
  rw [setTask, hmap]

lemma owners_modify (states : List TaskContainerState) (p : ℕ) (f : ℕ → ℕ) :
    (states.modify p fun c => { c with waitCount := f c.tc }).map (fun c => (c.tcid, c.tc)) =
      states.map fun c => (c.tcid, c.tc) := by
  refine List.ext_getElem? fun i => ?_
  rw [List.getElem?_map, List.getElem?_map, List.getElem?_modify]
  cases states[i]? with
  | none => rfl
  | some c =>
    dsimp only [Functor.map, Option.map]
    split <;> rfl

lemma refresh_owners (waitCount : ℕ → ℕ) (states : List TaskContainerState) (inst : List InstState) (sum : ℕ) :
    (refresh waitCount states inst sum).1.map (fun c => (c.tcid, c.tc)) = states.map fun c => (c.tcid, c.tc) := by
  induction inst generalizing states sum with
  | nil => rfl
  | cons is inst ih =>
    rw [refresh]
    exact (ih _ _).trans (owners_modify _ _ _)

lemma balanceCheck_shape (r : Registry) (waitCount : ℕ → ℕ) (ts : TaskState) :
    SameShape r (r.balanceCheck waitCount ts).1 ∧ (r.balanceCheck waitCount ts).1.mTaskList = r.mTaskList ∧
      (r.balanceCheck waitCount ts).2.places = ts.places ∧
      (r.balanceCheck waitCount ts).2.instpos = ts.instpos := by
  have howners := refresh_owners waitCount r.states ts.inst 0
  rw [balanceCheck]
  dsimp only
  split
  · exact ⟨⟨howners, rfl, rfl, rfl, rfl, rfl⟩, rfl, rfl, rfl⟩
  · refine ⟨⟨howners, rfl, rfl, rfl, rfl, rfl⟩, rfl, ?_, rfl⟩
    rw [TaskState.places, TaskState.places, List.map_map]
    rfl

lemma nextInst_some {inst : List InstState} {n p pos : ℕ} {is : InstState}
    (h : nextInst inst n p = (pos, some is)) : inst[pos]? = some is := by
  induction n generalizing p with
  | zero => simp [nextInst] at h
  | succ n ih =>
    rw [nextInst] at h
    split at h
    · simp at h
    · next is' his =>
      split at h
      · simp only [Prod.mk.injEq, Option.some.injEq] at h
        obtain ⟨rfl, rfl⟩ := h
        exact his
      · exact ih h

lemma nextInst_none {inst : List InstState} {n p pos : ℕ} (hp : p < inst.length)
    (h : nextInst inst n p = (pos, none)) : pos = (p + n) % inst.length := by
  induction n generalizing p with
  | zero =>
    simp only [nextInst, Prod.mk.injEq, and_true] at h
    rw [Nat.add_zero, Nat.mod_eq_of_lt hp, h]
  | succ n ih =>
    rw [nextInst] at h
    obtain ⟨q, hq⟩ : ∃ q, q = if inst.length ≤ p + 1 then 0 else p + 1 := ⟨_, rfl⟩
    have hlt : q < inst.length := by rw [hq]; split <;> omega
    rw [← hq, List.getElem?_eq_getElem hlt] at h
    dsimp only at h
    split at h
    · simp at h
    · rw [ih hlt h, hq]
      split
      · obtain rfl : p = inst.length - 1 := by omega
        have : inst.length - 1 + (n + 1) = n + inst.length := by omega
        rw [this, Nat.add_mod_right, Nat.zero_add]
      · rw [Nat.add_right_comm, Nat.add_assoc]

lemma Consistent.charge (h : Consistent r) (hp : Placed r) (waitCount : ℕ → ℕ) (hts : r.task taskid = some ts)
    {pos : ℕ} {is : InstState} (hg : ts.inst[pos]? = some is) :
    SameShape r (r.charge waitCount ts pos is) ∧ Placed (r.charge waitCount ts pos is) := by
  obtain ⟨hlt, hget⟩ := List.getElem?_eq_some_iff.mp hg
  obtain ⟨ts', hts'⟩ : ∃ ts', ts' = { ts with
      instpos := pos, count := ts.count + 1, inst := ts.inst.set pos { is with count := is.count + 1 } } := ⟨_, rfl⟩
  have hpos : ts'.instpos < ts'.inst.length := by
    rw [hts']
    simpa using hlt
  have hplaces : ts'.places = ts.places := by
    rw [hts', TaskState.places, TaskState.places]
    refine Prod.ext rfl (List.ext_getElem? fun i => ?_)
    rw [List.getElem?_map, List.getElem?_map, List.getElem?_set]
    split
    · next hi => rw [← hi, hg, Option.map_some, Option.map_some]
    · rfl
  have hcharge : r.charge waitCount ts pos is = if ts'.balanceCount < ts'.count then
      (r.balanceCheck waitCount ts').1.setTask { (r.balanceCheck waitCount ts').2 with count := 0 }
      else r.setTask ts' := by
    rw [hts']
    rfl
  rw [hcharge]
  split
  · obtain ⟨hshape, hlist, hpl, hip⟩ := balanceCheck_shape r waitCount ts'
    have htask : (r.balanceCheck waitCount ts').1.task taskid = some ts := by
      rw [task, hlist]
      exact hts
    obtain ⟨ts'', hts''⟩ : ∃ ts'', ts'' = { (r.balanceCheck waitCount ts').2 with count := 0 } := ⟨_, rfl⟩
    have hpl' : ts''.places = ts'.places := by
      rw [hts'']
      exact hpl
    rw [← hts'']
    refine ⟨hshape.trans ((h.of_shape hshape).setTask_shape htask (hpl'.trans hplaces)), Placed.setTask ?_ ?_⟩
    · intro t ht
      rw [hlist] at ht
      exact hp t ht
    · have hlen := congrArg (fun x => x.2.length) hpl'
      simp only [TaskState.places, List.length_map] at hlen
      rw [hlen, hts'']
      exact hip ▸ hpos
  · exact ⟨h.setTask_shape hts hplaces, hp.setTask hpos⟩

lemma Consistent.getTask (h : Consistent r) (hp : Placed r) (waitCount : ℕ → ℕ) (taskid tcid : ℕ) :
    SameShape r (r.getTask waitCount taskid tcid).2 ∧ Placed (r.getTask waitCount taskid tcid).2 ∧
      ((r.getTask waitCount taskid tcid).1 = none → (r.getTask waitCount taskid tcid).2 = r) := by
  have hsame : SameShape r r ∧ Placed r := ⟨.refl r, hp⟩
  rw [Registry.getTask]
  split
  · exact ⟨hsame.1, hsame.2, fun _ => rfl⟩
  split
  · cases hts : r.task taskid with
    | none => exact ⟨hsame.1, hsame.2, fun _ => rfl⟩
    | some ts =>
      dsimp only
      have hpos := hp ts (mem_of_task hts).1
      split
      · exact ⟨hsame.1, hsame.2, fun _ => rfl⟩
      · exact ⟨hsame.1, hsame.2, fun _ => rfl⟩
      · rcases hn : nextInst ts.inst ts.inst.length ts.instpos with ⟨pos, _ | is⟩
        · dsimp only
          have hback := nextInst_none hpos hn
          rw [Nat.add_mod_right, Nat.mod_eq_of_lt hpos] at hback
          rw [hback, setTask_self h hts]
          exact ⟨hsame.1, hsame.2, fun _ => rfl⟩
        · dsimp only
          obtain ⟨hs, hp'⟩ := h.charge hp waitCount hts (nextInst_some hn)
          exact ⟨hs, hp', fun hnone => absurd hnone (by simp)⟩
  · exact ⟨hsame.1, hsame.2, fun _ => rfl⟩

lemma container_mem {tcs : ℕ} (h : r.container tcid = some tcs) : (tcid, tcs) ∈ r.mContainerList := by
  obtain ⟨e, he, rfl⟩ := Option.map_eq_some_iff.mp h
  have hid : e.1 = tcid := by simpa using List.find?_some he
  rw [← hid]
  exact List.mem_of_find?_eq_some he

lemma Consistent.pointer_unique (h : Consistent r) {p q : ℕ} (hp : (tcid, p) ∈ r.mContainerList)
    (hq : (tcid, q) ∈ r.mContainerList) : p = q :=
  congrArg Prod.snd (List.inj_on_of_nodup_map h.containerIds hp hq rfl)

lemma Consistent.owner (h : Consistent r) {t : ℕ × List (ℕ × ℕ)} (ht : t ∈ r.places) {p : ℕ × ℕ} (hp : p ∈ t.2) :
    ∃ tc, r.owners[p.2]? = some (p.1, tc) ∧ t.1 ∈ (r.taskTable tc).map Prod.fst := by
  obtain ⟨tc, htc⟩ := h.stored p (h.linked t ht p hp)
  exact ⟨tc, htc, h.owned t ht p hp _ _ htc⟩

lemma Consistent.registerContainer (h : Consistent r) (tcid ptc : ℕ) : Consistent (r.registerContainer tcid ptc).2 := by
  rw [Registry.registerContainer]
  split
  · exact h
  split
  · exact h
  next hnew =>
  have hlen : r.owners.length = r.states.length := List.length_map _
  have howners : ∀ (p : ℕ) x, r.owners[p]? = some x →
      (r.owners ++ [(tcid, ptc)])[p]? = some x := by
    intro p x hx
    rw [List.getElem?_append_left (List.getElem?_eq_some_iff.mp hx).1, hx]
  have hkept : ∀ t ∈ r.places, ∀ p ∈ t.2, (r.owners ++ [(tcid, ptc)])[p.2]? = r.owners[p.2]? := by
    intro t ht p hp
    obtain ⟨tc, htc, -⟩ := h.owner ht hp
    rw [htc, howners _ _ htc]
  have hfresh : tcid ∉ r.mContainerList.map Prod.fst := by
    intro hmem
    obtain ⟨e, he, rfl⟩ := List.mem_map.mp hmem
    refine hnew ?_
    rw [container, Option.isSome_map, List.find?_isSome]
    exact ⟨e, he, by simp⟩
  obtain ⟨r', hr'⟩ : ∃ r' : Registry, r' = { r with
      states := r.states ++ [⟨tcid, ptc, 0⟩]
      mContainerList := r.mContainerList ++ [(tcid, r.states.length)]
      registeredInstAmount := r.registeredInstAmount + 1 } := ⟨_, rfl⟩
  have ho : r'.owners = r.owners ++ [(tcid, ptc)] := by
    rw [hr', owners, List.map_append]
    rfl
  have hp : r'.places = r.places := by rw [hr']; rfl
  have hc : r'.mContainerList = r.mContainerList ++ [(tcid, r.states.length)] := by rw [hr']
  have htab : r'.taskTable = r.taskTable := by rw [hr']
  dsimp only
  rw [← hr']
  refine ⟨?_, ?_, ?_, by rw [hp]; exact h.once, ?_, ?_, by rw [hp]; exact h.taskIds⟩
  · intro e he
    rw [ho]
    rw [hc] at he
    rcases List.mem_append.mp he with he | he
    · obtain ⟨tc, htc⟩ := h.stored e he
      exact ⟨tc, howners _ _ htc⟩
    · obtain rfl := List.mem_singleton.mp he
      refine ⟨ptc, ?_⟩
      dsimp only
      rw [← hlen, List.getElem?_concat_length]
  · intro t ht p hpt
    rw [hp] at ht
    rw [hc]
    exact List.mem_append_left _ (h.linked t ht p hpt)
  · intro t ht p hpt tcid' tc hx
    rw [hp] at ht
    rw [ho, hkept t ht p hpt] at hx
    rw [htab]
    exact h.owned t ht p hpt _ _ hx
  · intro t ht
    rw [hp] at ht
    rw [ho, List.map_congr_left (g := fun p => r.owners[p.2]?.map Prod.snd)]
    · exact h.onceEach t ht
    · intro p hpt
      rw [hkept t ht p hpt]
  · rw [hc, List.map_append]
    exact List.nodup_append_comm.mpr (List.nodup_cons.mpr ⟨hfresh, h.containerIds⟩)

lemma registerContainer_surplus (r : Registry) (tcid ptc : ℕ) : (r.registerContainer tcid ptc).2.surplus = r.surplus := by
  rw [Registry.registerContainer]
  split
  · rfl
  split
  · rfl
  · dsimp only [surplus, places]
    rw [List.length_append, List.length_singleton]
    push_cast
    rw [add_sub_add_right_eq_sub]

lemma Consistent.addTask (h : Consistent r) {tc task : ℕ} (ha : r.addTask tc taskid task = some (true, r')) :
    Consistent r' ∧ r'.places = r.places ∧ r'.owners = r.owners ∧ r'.mContainerList = r.mContainerList ∧
      r'.mTaskList = r.mTaskList ∧ taskid ∉ (r.taskTable tc).map Prod.fst ∧
      taskid ∈ (r'.taskTable tc).map Prod.fst := by
  rw [Registry.addTask] at ha
  split at ha
  · simp at ha
  split at ha
  · simp at ha
  next hnew =>
  obtain ⟨-, rfl⟩ := Prod.mk.inj (Option.some.inj ha)
  refine ⟨⟨h.stored, h.linked, ?_, h.once, h.onceEach, h.containerIds, h.taskIds⟩, rfl, rfl, rfl, rfl, hnew, by simp⟩
  intro t ht p hp tcid tc' hx
  have hmem := h.owned t ht p hp _ _ hx
  dsimp only
  rw [Function.update_apply]
  split
  · next heq =>
    rw [heq] at hmem
    rw [List.map_append]
    exact List.mem_append_left _ hmem
  · exact hmem

lemma addTask_surplus {tc task : ℕ} (ha : r.addTask tc taskid task = some (true, r')) : r'.surplus = r.surplus := by
  rw [Registry.addTask] at ha
  split_ifs at ha
  · obtain ⟨hno, -⟩ := Prod.mk.inj (Option.some.inj ha)
    cases hno
  · obtain ⟨-, rfl⟩ := Prod.mk.inj (Option.some.inj ha)
    rfl

def Listed (r : Registry) (taskid tcid : ℕ) : Prop := ∃ t ∈ r.places, t.1 = taskid ∧ tcid ∈ t.2.map Prod.fst

lemma Consistent.listTask_places (h : Consistent r) (taskid : ℕ) (is : InstState) :
    (∀ t ∈ (r.listTask taskid is).places, t ∈ r.places ∨
      ∃ old, t = (taskid, old ++ [(is.tcid, is.tcs)]) ∧ (old = [] ∨ (taskid, old) ∈ r.places)) ∧
    (∀ t ∈ r.places, ∃ more, (t.1, t.2 ++ more) ∈ (r.listTask taskid is).places) ∧
    Listed (r.listTask taskid is) taskid is.tcid ∧
    ((r.listTask taskid is).places.map Prod.fst).Nodup ∧
    (r.listTask taskid is).surplus = r.surplus := by
  rw [listTask]
  cases hts : r.task taskid with
  | none =>
    have hfresh : taskid ∉ r.places.map Prod.fst := by
      intro hmem
      rw [places, List.map_map] at hmem
      obtain ⟨ts, hmem, hid⟩ := List.mem_map.mp hmem
      have := List.find?_eq_none.mp hts ts hmem
      exact this (by simpa [TaskState.places] using hid)
    dsimp only
    have hp : Registry.places { r with
        mTaskList := r.mTaskList ++ [⟨taskid, 0, 0, 0, [is]⟩], registeredTaskAmount := r.registeredTaskAmount + 1 } =
          r.places ++ [(taskid, [(is.tcid, is.tcs)])] := by
      rw [places, List.map_append]
      rfl
    rw [hp]
    refine ⟨?_, ?_, ⟨(taskid, [(is.tcid, is.tcs)]), ?_, rfl, by simp⟩, ?_, ?_⟩
    · intro t ht
      rcases List.mem_append.mp ht with ht | ht
      · exact .inl ht
      · exact .inr ⟨[], List.mem_singleton.mp ht, .inl rfl⟩
    · exact fun t ht => ⟨[], by rw [List.append_nil]; exact List.mem_append_left _ ht⟩
    · rw [hp]
      exact List.mem_append_right _ List.mem_cons_self
    · rw [List.map_append]
      exact List.nodup_append_comm.mpr (List.nodup_cons.mpr ⟨hfresh, h.taskIds⟩)
    · rw [surplus, hp, List.length_append, List.length_singleton]
      push_cast
      rw [add_sub_add_right_eq_sub]
      rfl
  | some ts =>
    obtain ⟨hmem, hid⟩ := mem_of_task hts
    dsimp only
    obtain ⟨ts', hts'⟩ : ∃ ts' : TaskState, ts' = { ts with
        inst := ts.inst ++ [is]
        balanceCount := (ts.inst.length + 1) * TTaskSelector.balanceCountNumber } := ⟨_, rfl⟩
    have hnew : ts'.places = (taskid, ts.places.2 ++ [(is.tcid, is.tcs)]) := by
      rw [hts', ← hid, TaskState.places, List.map_append]
      rfl
    have hid' : ts'.taskid = taskid := by rw [hts']; exact hid
    have hold : ts.places = (taskid, ts.places.2) := Prod.ext hid rfl
    rw [← hts']
    have hkeys : (r.setTask ts').places.map Prod.fst = r.places.map Prod.fst := by
      rw [places, setTask, places, List.map_map, List.map_map, List.map_map]
      refine List.map_congr_left fun t _ => ?_
      rw [Function.comp_apply, Function.comp_apply, Function.comp_apply]
      split
      · next heq => exact heq.symm
      · rfl
    have hin : ts'.places ∈ (r.setTask ts').places :=
      places_mem (List.mem_map.mpr ⟨ts, hmem, if_pos (hid.trans hid'.symm)⟩)
    refine ⟨?_, ?_, ⟨_, hin, by rw [hnew], by rw [hnew]; simp⟩, by rw [hkeys]; exact h.taskIds, ?_⟩
    · intro t ht
      obtain ⟨u, hu, rfl⟩ := List.mem_map.mp ht
      obtain ⟨v, hv, rfl⟩ := List.mem_map.mp hu
      split
      · exact .inr ⟨ts.places.2, hnew, .inr (hold ▸ places_mem hmem)⟩
      · exact .inl (places_mem hv)
    · intro t ht
      obtain ⟨u, hu, rfl⟩ := List.mem_map.mp ht
      by_cases heq : u.taskid = taskid
      · obtain rfl := h.unique hu hmem (heq.trans hid.symm)
        refine ⟨[(is.tcid, is.tcs)], ?_⟩
        rw [hnew] at hin
        rw [show u.places.1 = taskid from heq]
        exact hin
      · refine ⟨[], ?_⟩
        rw [List.append_nil]
        exact places_mem (List.mem_map.mpr ⟨u, hu, if_neg (by rw [hid']; exact heq)⟩)
    · have hlen := congrArg List.length hkeys
      rw [List.length_map, List.length_map] at hlen
      rw [surplus, hlen]
      rfl

lemma listTask_fields (r : Registry) (taskid : ℕ) (is : InstState) :
    (r.listTask taskid is).owners = r.owners ∧ (r.listTask taskid is).taskTable = r.taskTable ∧
      (r.listTask taskid is).mContainerList = r.mContainerList ∧
      (r.listTask taskid is).registeredInstAmount = r.registeredInstAmount := by
  rw [listTask]
  split <;> exact ⟨rfl, rfl, rfl, rfl⟩

lemma Consistent.listTask (h : Consistent r) {is : InstState} {tc : ℕ}
    (hc : (is.tcid, is.tcs) ∈ r.mContainerList) (ho : r.owners[is.tcs]? = some (is.tcid, tc))
    (htab : taskid ∈ (r.taskTable tc).map Prod.fst)
    (hid : ∀ old, (taskid, old) ∈ r.places → is.tcid ∉ old.map Prod.fst)
    (hnew : ∀ old, (taskid, old) ∈ r.places → some tc ∉ old.map fun p => r.owners[p.2]?.map Prod.snd) :
    Consistent (r.listTask taskid is) := by
  obtain ⟨hold, -, -, hkeys, -⟩ := h.listTask_places taskid is
  obtain ⟨h1, h2, h3, -⟩ := listTask_fields r taskid is
  have hnil : ∀ old, old = [] ∨ (taskid, old) ∈ r.places → (∀ p ∈ old, p ∈ r.mContainerList) ∧
      (∀ p ∈ old, ∀ tcid tc, r.owners[p.2]? = some (tcid, tc) → taskid ∈ (r.taskTable tc).map Prod.fst) ∧
      (old.map Prod.fst).Nodup ∧ (old.map fun p => r.owners[p.2]?.map Prod.snd).Nodup ∧
      is.tcid ∉ old.map Prod.fst ∧ some tc ∉ old.map fun p => r.owners[p.2]?.map Prod.snd := by
    rintro old (rfl | hmem)
    · simp
    · exact ⟨h.linked _ hmem, h.owned _ hmem, h.once _ hmem, h.onceEach _ hmem, hid old hmem, hnew old hmem⟩
  refine ⟨by rw [h1, h3]; exact h.stored, ?_, ?_, ?_, ?_, by rw [h3]; exact h.containerIds, hkeys⟩
  · intro t ht p hp
    rw [h3]
    rcases hold t ht with ht | ⟨old, rfl, hmem⟩
    · exact h.linked t ht p hp
    · rcases List.mem_append.mp hp with hp | hp
      · exact (hnil old hmem).1 p hp
      · exact List.mem_singleton.mp hp ▸ hc
  · intro t ht p hp tcid tc' hx
    rw [h1] at hx
    rw [h2]
    rcases hold t ht with ht | ⟨old, rfl, hmem⟩
    · exact h.owned t ht p hp _ _ hx
    · rcases List.mem_append.mp hp with hp | hp
      · exact (hnil old hmem).2.1 p hp _ _ hx
      · rw [List.mem_singleton.mp hp] at hx
        obtain ⟨-, rfl⟩ := Prod.mk.inj (Option.some.inj (ho.symm.trans hx))
        exact htab
  · intro t ht
    rcases hold t ht with ht | ⟨old, rfl, hmem⟩
    · exact h.once t ht
    · obtain ⟨-, -, hn, -, hnot, -⟩ := hnil old hmem
      rw [List.map_append]
      exact List.nodup_append_comm.mpr (List.nodup_cons.mpr ⟨hnot, hn⟩)
  · intro t ht
    rw [h1]
    rcases hold t ht with ht | ⟨old, rfl, hmem⟩
    · exact h.onceEach t ht
    · obtain ⟨-, -, -, hn, -, hnot⟩ := hnil old hmem
      rw [List.map_append, List.map_singleton, ho]
      exact List.nodup_append_comm.mpr (List.nodup_cons.mpr ⟨hnot, hn⟩)

lemma registerTask_inv {task : ℕ} {ok : Bool} (h : r.registerTask taskid tcid task = some (ok, r')) :
    (ok = false ∧ r' = r) ∨ (ok = true ∧ taskid ≠ 0 ∧ ∃ tcs c r₁, r.container tcid = some tcs ∧ r.states[tcs]? = some c ∧
      r.addTask c.tc taskid task = some (true, r₁) ∧ r' = r₁.listTask taskid ⟨0, 0, false, tcid, tcs⟩) := by
  have hsame (heq : some (false, r) = some (ok, r')) : ok = false ∧ r' = r := by
    obtain ⟨rfl, rfl⟩ := Prod.mk.inj (Option.some.inj heq)
    exact ⟨rfl, rfl⟩
  rw [Registry.registerTask] at h
  split at h
  · exact Or.inl (hsame h)
  next hz =>
  cases hc : r.container tcid with
  | none =>
    rw [hc] at h
    exact Or.inl (hsame h)
  | some tcs =>
    rw [hc] at h
    obtain ⟨c, hs, h⟩ := Option.bind_eq_some_iff.mp h
    obtain ⟨⟨added, r₁⟩, ha, h⟩ := Option.bind_eq_some_iff.mp h
    dsimp only at h
    split at h
    · next hadded =>
      subst hadded
      obtain ⟨rfl, rfl⟩ := Prod.mk.inj (Option.some.inj h)
      exact Or.inr ⟨rfl, fun h0 => hz (Or.inl h0), tcs, c, r₁, rfl, hs, ha, rfl⟩
    · next hadded =>
      have hfail := ha
      rw [addTask] at hfail
      split_ifs at hfail
      · obtain ⟨-, rfl⟩ := Prod.mk.inj (Option.some.inj hfail)
        exact Or.inl (hsame h)
      · exact absurd (Prod.mk.inj (Option.some.inj hfail)).1.symm hadded

lemma Listed.mono {t : ℕ × List (ℕ × ℕ)} {more : List (ℕ × ℕ)} (ht : (t.1, t.2 ++ more) ∈ r'.places)
    (h : tcid ∈ t.2.map Prod.fst) : Listed r' t.1 tcid :=
  ⟨_, ht, rfl, by rw [List.map_append]; exact List.mem_append_left _ h⟩

lemma Placed.listTask (h : Placed r) (taskid : ℕ) (is : InstState) : Placed (r.listTask taskid is) := by
  rw [Registry.listTask]
  split
  · intro ts hts
    rcases List.mem_append.mp hts with hts | hts
    · exact h ts hts
    · rw [List.mem_singleton.mp hts]
      exact Nat.zero_lt_one
  · next ts hts =>
    refine h.setTask ?_
    have := h ts (mem_of_task hts).1
    rw [List.length_append]
    exact Nat.lt_add_right _ this

lemma Consistent.registerTask (h : Consistent r) (hp : Placed r) {task : ℕ}
    (hr : r.registerTask taskid tcid task = some (true, r')) :
    Consistent r' ∧ Placed r' ∧ r'.surplus = r.surplus ∧ Listed r' taskid tcid ∧
      ∀ t c, Listed r t c → Listed r' t c := by
  obtain ⟨hno, -⟩ | ⟨-, -, tcs, c, r₁, hc, hs, ha, rfl⟩ := registerTask_inv hr
  · cases hno
  have hmem := container_mem hc
  obtain ⟨tc, hown⟩ := h.stored _ hmem
  obtain rfl : c.tc = tc := by
    rw [owners, List.getElem?_map, hs] at hown
    exact congrArg Prod.snd (Option.some.inj hown)
  obtain ⟨h₁, hplaces, howners, hlist, htasks, hnot, hin⟩ := h.addTask ha
  have hp₁ : Placed r₁ := by
    intro ts hts
    rw [htasks] at hts
    exact hp ts hts
  obtain ⟨-, hgrow, hlisted, -, hsurplus⟩ := h₁.listTask_places taskid ⟨0, 0, false, tcid, tcs⟩
  refine ⟨h₁.listTask ?_ ?_ hin ?_ ?_, hp₁.listTask _ _, hsurplus.trans (addTask_surplus ha), hlisted, ?_⟩
  · rw [hlist]
    exact hmem
  · rw [howners]
    exact hown
  · intro old hold hidmem
    rw [hplaces] at hold
    obtain ⟨⟨id, q⟩, hq, rfl⟩ := List.mem_map.mp hidmem
    obtain rfl := h.pointer_unique hmem (h.linked _ hold _ hq)
    exact hnot (h.owned _ hold _ hq _ _ hown)
  · intro old hold htcmem
    rw [hplaces] at hold
    rw [howners] at htcmem
    obtain ⟨q, hq, hqtc⟩ := List.mem_map.mp htcmem
    obtain ⟨x, hx, hxtc⟩ := Option.map_eq_some_iff.mp hqtc
    refine hnot ?_
    rw [← hxtc]
    exact h.owned _ hold q hq x.1 x.2 hx
  · rintro t c ⟨e, he, rfl, hc⟩
    rw [← hplaces] at he
    obtain ⟨more, hmore⟩ := hgrow e he
    exact Listed.mono hmore hc

structure Kept (r : Registry) (ok : Bool) (r' : Registry) : Prop where
  consistent : Consistent r'
  placed : Placed r'
  surplus : r'.surplus = r.surplus
  listed : ∀ taskid tcid, Listed r taskid tcid → Listed r' taskid tcid
  failed : ok = false → r' = r

lemma Kept.of_shape {ok : Bool} (h : Consistent r) (hs : SameShape r r') (hp : Placed r') (hf : ok = false → r' = r) :
    Kept r ok r' :=
  ⟨h.of_shape hs, hp, hs.surplus, fun _ _ ⟨t, ht, hl⟩ => ⟨t, by rw [hs.places]; exact ht, hl⟩, hf⟩

lemma Kept.refl (h : Consistent r) (hp : Placed r) (ok : Bool) : Kept r ok r :=
  ⟨h, hp, rfl, fun _ _ hl => hl, fun _ => rfl⟩

lemma Consistent.kept_add (h : Consistent r) (hp : Placed r) (waitCount : ℕ → ℕ) (msg : Msg.TUniNetMsg) :
    SameShape r (r.add waitCount msg).2 ∧ Placed (r.add waitCount msg).2 ∧
      ((r.add waitCount msg).1 = false → (r.add waitCount msg).2 = r) := by
  rw [Registry.add]
  split
  · exact ⟨.refl r, hp, fun _ => rfl⟩
  split
  · rw [multicastMsgToTask]
    cases hts : r.task msg.tAddr.logAddr with
    | none => exact ⟨.refl r, hp, fun _ => rfl⟩
    | some ts =>
      refine ⟨h.setTask_shape hts ?_, hp.setTask ?_, fun hf => absurd hf (by simp)⟩
      · rw [TaskState.places, TaskState.places, List.map_map]
        rfl
      · rw [List.length_map]
        exact hp ts (mem_of_task hts).1
  · rw [sendMsgToTask]
    split
    · exact ⟨.refl r, hp, fun _ => rfl⟩
    · obtain ⟨hs, hp', hf⟩ := h.getTask hp waitCount msg.tAddr.logAddr (TTaskSelector.containerid msg.tAddr.phyAddr)
      refine ⟨hs, hp', fun hnone => hf ?_⟩
      simpa using hnone

lemma Consistent.kept_registerContainer (h : Consistent r) (hp : Placed r) (tcid ptc : ℕ) :
    Kept r (r.registerContainer tcid ptc).1 (r.registerContainer tcid ptc).2 := by
  have hplaces : (r.registerContainer tcid ptc).2.mTaskList = r.mTaskList := by
    rw [Registry.registerContainer]
    split
    · rfl
    split <;> rfl
  refine ⟨h.registerContainer tcid ptc, ?_, registerContainer_surplus r tcid ptc, ?_, ?_⟩
  · intro ts hts
    rw [hplaces] at hts
    exact hp ts hts
  · rintro t c ⟨e, he, hl⟩
    refine ⟨e, ?_, hl⟩
    rw [places, hplaces]
    exact he
  · intro hf
    rw [Registry.registerContainer] at hf ⊢
    split_ifs at hf ⊢ <;> rfl

lemma Consistent.kept_balanceCheck (h : Consistent r) (hp : Placed r) (waitCount : ℕ → ℕ) (hts : r.task taskid = some ts) :
    Kept r true ((r.balanceCheck waitCount ts).1.setTask (r.balanceCheck waitCount ts).2) := by
  obtain ⟨hshape, hlist, hpl, hip⟩ := balanceCheck_shape r waitCount ts
  have htask : (r.balanceCheck waitCount ts).1.task taskid = some ts := by
    rw [task, hlist]
    exact hts
  have hp' : Placed (r.balanceCheck waitCount ts).1 := by
    intro t ht
    rw [hlist] at ht
    exact hp t ht
  refine .of_shape h (hshape.trans ((h.of_shape hshape).setTask_shape htask hpl)) (hp'.setTask ?_) (by simp)
  have hlen := congrArg (fun x => x.2.length) hpl
  simp only [TaskState.places, List.length_map] at hlen
  rw [hlen, hip]
  exact hp ts (mem_of_task hts).1

lemma Consistent.kept (h : Consistent r) (hp : Placed r) {c : Call} {ok : Bool} (hcall : r.call c = some (ok, r')) :
    Kept r ok r' := by
  cases c with
  | registerContainer tcid ptc =>
    obtain ⟨rfl, rfl⟩ := Prod.mk.inj (Option.some.inj hcall)
    exact h.kept_registerContainer hp tcid ptc
  | registerTask taskid tcid task =>
    cases ok with
    | true =>
      obtain ⟨hc, hp', hs, -, hl⟩ := h.registerTask hp hcall
      exact ⟨hc, hp', hs, hl, by simp⟩
    | false =>
      obtain ⟨-, rfl⟩ | ⟨hno, -⟩ := registerTask_inv hcall
      · exact .refl h hp false
      · cases hno
  | getTask waitCount taskid tcid =>
    obtain ⟨rfl, rfl⟩ := Prod.mk.inj (Option.some.inj hcall)
    obtain ⟨hs, hp', hf⟩ := h.getTask hp waitCount taskid tcid
    exact .of_shape h hs hp' fun hnone => hf (by simpa using hnone)
  | balanceCheck waitCount taskid =>
    rw [call] at hcall
    split at hcall
    · obtain ⟨rfl, rfl⟩ := Prod.mk.inj (Option.some.inj hcall)
      exact .refl h hp true
    · next ts hts =>
      obtain ⟨rfl, rfl⟩ := Prod.mk.inj (Option.some.inj hcall)
      exact h.kept_balanceCheck hp waitCount hts
  | add waitCount msg =>
    obtain ⟨rfl, rfl⟩ := Prod.mk.inj (Option.some.inj hcall)
    obtain ⟨hs, hp', hf⟩ := h.kept_add hp waitCount msg
    exact .of_shape h hs hp' hf
  | addEvent msg =>
    obtain ⟨-, rfl⟩ := Prod.mk.inj (Option.some.inj hcall)
    exact .refl h hp ok

lemma Consistent.call_eq_none (h : Consistent r) (c : Call) : r.call c = none ↔ c.Repeats r := by
  cases c with
  | registerTask taskid tcid task =>
    change r.registerTask taskid tcid task = none ↔ _
    rw [Registry.registerTask]
    by_cases hz : taskid = 0 ∨ tcid = 0 ∨ task = 0
    · rw [if_pos hz]
      exact iff_of_false (by simp) fun ⟨h1, h2, h3, _⟩ => hz.elim h1 (·.elim h2 h3)
    rw [if_neg hz]
    obtain ⟨h1, h2, h3⟩ : taskid ≠ 0 ∧ tcid ≠ 0 ∧ task ≠ 0 := by
      rw [not_or, not_or] at hz
      exact hz
    cases hc : r.container tcid with
    | none =>
      refine iff_of_false (by simp) ?_
      rintro ⟨-, -, -, tcs, c, htcs, -⟩
      rw [hc] at htcs
      cases htcs
    | some tcs =>
      obtain ⟨tc, htc⟩ := h.stored _ (container_mem hc)
      obtain ⟨c, hs, -⟩ := Option.map_eq_some_iff.mp ((List.getElem?_map ..).symm.trans htc)
      have hrep : (Call.registerTask taskid tcid task).Repeats r ↔ taskid ∈ (r.taskTable c.tc).map Prod.fst := by
        constructor
        · rintro ⟨-, -, -, tcs', c', htcs, hs', hin⟩
          obtain rfl := Option.some.inj (hc.symm.trans htcs)
          obtain rfl := Option.some.inj (hs.symm.trans hs')
          exact hin
        · exact fun hin => ⟨h1, h2, h3, tcs, c, hc, hs, hin⟩
      rw [hrep]
      dsimp only
      rw [hs, Option.bind_eq_bind, Option.bind_some, Registry.addTask, if_neg (by rw [not_or]; exact ⟨h1, h3⟩)]
      by_cases hin : taskid ∈ (r.taskTable c.tc).map Prod.fst
      · rw [if_pos hin]
        exact iff_of_true rfl hin
      · rw [if_neg hin]
        exact iff_of_false (by simp) hin
  | balanceCheck waitCount taskid =>
    rw [call]
    refine iff_of_false ?_ id
    split <;> simp
  | _ => exact iff_of_false (by simp [call]) id

lemma new_consistent (taskTable : ℕ → List (ℕ × ℕ)) (taskAmount instAmount : ℤ) :
    Consistent (new taskTable taskAmount instAmount) := by
  refine ⟨?_, ?_, ?_, ?_, ?_, .nil, .nil⟩ <;> simp [new, places]

lemma new_placed (taskTable : ℕ → List (ℕ × ℕ)) (taskAmount instAmount : ℤ) :
    Placed (new taskTable taskAmount instAmount) := by
  simp [Placed, new]

section Runs

variable {calls : List Call} {oks : List Bool}

lemma run_keeps (h : Consistent r) (hp : Placed r) (hrun : runCalls call r calls = some (oks, r')) :
    Consistent r' ∧ Placed r' ∧ r'.surplus = r.surplus := by
  refine runCalls_keeps (fun s => Consistent s ∧ Placed s ∧ s.surplus = r.surplus) ?_ ⟨h, hp, rfl⟩ hrun
  rintro s c ok s' ⟨hc, hp, hs⟩ hcall
  have hkept := hc.kept hp hcall
  exact ⟨hkept.consistent, hkept.placed, hkept.surplus.trans hs⟩

lemma run_listed (h : Consistent r) (hp : Placed r) (hrun : runCalls call r calls = some (oks, r')) :
    (∀ taskid tcid, Listed r taskid tcid → Listed r' taskid tcid) ∧
      ∀ taskid tcid task, (Call.registerTask taskid tcid task, true) ∈ calls.zip oks → Listed r' taskid tcid := by
  induction calls generalizing r oks with
  | nil =>
    obtain ⟨rfl, rfl⟩ := Prod.mk.inj (Option.some.inj hrun)
    exact ⟨fun _ _ hl => hl, by simp⟩
  | cons c calls ih =>
    obtain ⟨⟨ok, r₁⟩, hcall, hrun⟩ := Option.bind_eq_some_iff.mp hrun
    obtain ⟨⟨oks₁, r₂⟩, hrest, heq⟩ := Option.bind_eq_some_iff.mp hrun
    obtain ⟨rfl, rfl⟩ := Prod.mk.inj (Option.some.inj heq)
    have hkept := h.kept hp hcall
    obtain ⟨hkeep, hnew⟩ := ih hkept.consistent hkept.placed hrest
    refine ⟨fun t k hl => hkeep t k (hkept.listed t k hl), fun taskid tcid task hmem => ?_⟩
    rw [List.zip_cons_cons, List.mem_cons] at hmem
    rcases hmem with heq | hmem
    · obtain ⟨rfl, rfl⟩ := Prod.mk.inj heq
      exact hkeep _ _ (h.registerTask hp hcall).2.2.2.1
    · exact hnew taskid tcid task hmem

lemma run_returns (h : Consistent r) (hp : Placed r) (ht : Throughout call (fun r c => ¬c.Repeats r) r calls) :
    Returns (runCalls call r calls) fun (_, r') => Consistent r' ∧ Placed r' := by
  refine ht.returns (fun r => Consistent r ∧ Placed r) ?_ ⟨h, hp⟩
  rintro r c ⟨h, hp⟩ hno
  obtain ⟨⟨ok, r'⟩, hcall⟩ := Option.ne_none_iff_exists'.mp (mt (h.call_eq_none c).mp hno)
  have hkept := h.kept hp hcall
  exact ⟨_, hcall, hkept.consistent, hkept.placed⟩

structure Agrees (es : List (Call × Bool)) (r : Registry) : Prop where
  consistent : Consistent r
  counted : Counted r
  listed : ∀ taskid tcid task, (Call.registerTask taskid tcid task, true) ∈ es → Listed r taskid tcid

def Harmless (r : Registry) (c : Call) : Prop := ∀ r', r.call c = some (false, r') → r' = r

theorem registry_agrees_iff (taskTable : ℕ → List (ℕ × ℕ)) (taskAmount instAmount : ℤ) (calls : List Call) :
    ((Returns (runCalls call (new taskTable taskAmount instAmount) calls) fun (oks, r) => Agrees (calls.zip oks) r) ∧
      Throughout call Harmless (new taskTable taskAmount instAmount) calls) ↔
    (taskAmount = 0 ∧ instAmount = 0) ∧
      Throughout call (fun r c => ¬c.Repeats r) (new taskTable taskAmount instAmount) calls := by
  have h := new_consistent taskTable taskAmount instAmount
  have hp := new_placed taskTable taskAmount instAmount
  have hsurplus : (new taskTable taskAmount instAmount).surplus = (taskAmount, instAmount) := by
    simp [surplus, new, places]
  constructor
  · rintro ⟨⟨⟨oks, r⟩, hrun, hagrees⟩, -⟩
    obtain ⟨-, -, hs⟩ := run_keeps h hp hrun
    rw [counted_iff.mp hagrees.counted, hsurplus] at hs
    obtain ⟨h1, h2⟩ := Prod.mk.inj hs
    refine ⟨⟨h1.symm, h2.symm⟩, throughout_of_runCalls (fun r => Consistent r ∧ Placed r) ?_ ⟨h, hp⟩ hrun⟩
    rintro s c ok s' ⟨hc, hp⟩ hcall
    have hkept := hc.kept hp hcall
    refine ⟨fun hrep => ?_, hkept.consistent, hkept.placed⟩
    rw [(hc.call_eq_none c).mpr hrep] at hcall
    cases hcall
  · rintro ⟨⟨rfl, rfl⟩, hno⟩
    obtain ⟨⟨oks, r⟩, hrun, hc, -⟩ := run_returns h hp hno
    obtain ⟨-, -, hs⟩ := run_keeps h hp hrun
    refine ⟨⟨_, hrun, hc, counted_iff.mpr (hs.trans hsurplus), (run_listed h hp hrun).2⟩, ?_⟩
    refine throughout_of_runCalls (fun r => Consistent r ∧ Placed r) ?_ ⟨h, hp⟩ hrun
    rintro s c ok s' ⟨hc, hp⟩ hcall
    have hkept := hc.kept hp hcall
    refine ⟨fun s'' hfalse => ?_, hkept.consistent, hkept.placed⟩
    exact (hc.kept hp hfalse).failed rfl

theorem registry_disagrees :
    runCalls call (new (fun _ => []) 0 0) [.registerContainer 1 10, .registerTask 1001 1 7, .registerTask 1001 1 8] = none ∧
    ∀ r, runCalls call (new (fun _ => []) 5 0) [] = some ([], r) → r.registeredTaskAmount ≠ r.places.length := by
  refine ⟨rfl, ?_⟩
  rintro r hr
  obtain ⟨-, rfl⟩ := Prod.mk.inj (Option.some.inj hr)
  decide

end Runs

end Xframe.Kernel.Registry
