import Xframe.Kernel.SelectorRefines
import Xframe.Lib.Refine

/-! Messages that are copied to several containers: every container that was registered for one gets
one copy, and no other container gets any. -/

namespace Xframe.Kernel

open Xframe.Comserv Xframe.Msg Xframe.Lib

namespace Registry

variable {r : Registry} {ts : TaskState} {taskid tcid : ℕ}

def Owner (r : Registry) (tcid tc : ℕ) : Prop :=
  ∃ tcs, r.container tcid = some tcs ∧ r.owners[tcs]? = some (tcid, tc)

lemma Consistent.container_eq (h : Consistent r) {p : ℕ} (hp : (tcid, p) ∈ r.mContainerList) :
    r.container tcid = some p := by
  have hsome : (r.container tcid).isSome := by
    rw [container, Option.isSome_map, List.find?_isSome]
    exact ⟨_, hp, by simp⟩
  obtain ⟨q, hq⟩ := Option.isSome_iff_exists.mp hsome
  rw [hq, h.pointer_unique (container_mem hq) hp]

lemma listed_iff (h : Consistent r) (hts : r.task taskid = some ts) :
    Listed r taskid tcid ↔ ∃ is ∈ ts.inst, is.tcid = tcid := by
  obtain ⟨hmem, hid⟩ := mem_of_task hts
  constructor
  · rintro ⟨t, ht, hidt, hc⟩
    obtain ⟨us, hus, rfl⟩ := List.mem_map.mp ht
    obtain rfl := h.unique hus hmem (hidt.trans hid.symm)
    obtain ⟨p, hp, hpc⟩ := List.mem_map.mp hc
    obtain ⟨is, his, rfl⟩ := List.mem_map.mp hp
    exact ⟨is, his, hpc⟩
  · rintro ⟨is, his, rfl⟩
    refine ⟨ts.places, places_mem hmem, hid, List.mem_map.mpr ⟨(is.tcid, is.tcs), ?_, rfl⟩⟩
    exact List.mem_map_of_mem his

lemma not_listed (h : r.task taskid = none) : ¬ Listed r taskid tcid := by
  rintro ⟨t, ht, hid, -⟩
  obtain ⟨us, hus, rfl⟩ := List.mem_map.mp ht
  exact List.find?_eq_none.mp h us hus (by simpa [TaskState.places] using hid)

end Registry

namespace SelectorTables

open Registry (Consistent Placed Owner Listed)

def Registration.call : Registration → Registry.Call
  | .container tcid ptc => .registerContainer tcid ptc
  | .task taskid tcid ptask => .registerTask taskid tcid ptask

def record (r : Registry) (c : Registration) : Option (Bool × Registry) := r.call c.call

structure Recorded (es : List (Registration × Bool)) (r : Registry) : Prop where
  consistent : Consistent r
  placed : Placed r
  owner : ∀ tcid tc, Owner r tcid tc ↔ (.container tcid tc, true) ∈ es
  listed : ∀ taskid tcid, Listed r taskid tcid ↔ ∃ task, (.task taskid tcid task, true) ∈ es
  positive : ∀ e ∈ r.mContainerList, 0 < e.1

variable {s s' : SelectorTables} {r r' : Registry} {es : List (Registration × Bool)}

lemma recorded_new (taskTable : ℕ → List (ℕ × ℕ)) (taskAmount instAmount : ℤ) :
    Recorded [] (Registry.new taskTable taskAmount instAmount) where
  consistent := Registry.new_consistent _ _ _
  placed := Registry.new_placed _ _ _
  owner tcid tc := by simp [Owner, Registry.container, Registry.new]
  listed taskid tcid := by simp [Listed, Registry.places, Registry.new]
  positive := by simp [Registry.new]

lemma Recorded.failed (h : Recorded es r) (c : Registration) : Recorded (es ++ [(c, false)]) r := by
  refine ⟨h.consistent, h.placed, fun tcid tc => ?_, fun taskid tcid => ?_, h.positive⟩
  · simpa using h.owner tcid tc
  · simpa using h.listed taskid tcid

lemma registerContainer_true {tcid ptc : ℕ} (h : (r.registerContainer tcid ptc).1 = true) :
    tcid ≠ 0 ∧ r.container tcid = none ∧ (r.registerContainer tcid ptc).2 = { r with
      states := r.states ++ [⟨tcid, ptc, 0⟩]
      mContainerList := r.mContainerList ++ [(tcid, r.states.length)]
      registeredInstAmount := r.registeredInstAmount + 1 } := by
  rw [Registry.registerContainer] at h ⊢
  split at h
  · simp at h
  next hz =>
  split at h
  · simp at h
  next hn =>
  rw [if_neg hz, if_neg hn]
  exact ⟨fun h0 => hz (Or.inl h0), by simpa using hn, rfl⟩

lemma Recorded.container (h : Recorded es r) {tcid ptc : ℕ} (hok : (r.registerContainer tcid ptc).1 = true) :
    Recorded (es ++ [(.container tcid ptc, true)]) (r.registerContainer tcid ptc).2 := by
  have hkept := h.consistent.kept_registerContainer h.placed tcid ptc
  obtain ⟨h0, hnew, heq⟩ := registerContainer_true hok
  refine ⟨hkept.consistent, hkept.placed, fun k tc => ?_, fun taskid k => ?_, fun e he => ?_⟩
  · have howner : Owner (r.registerContainer tcid ptc).2 k tc ↔ Owner r k tc ∨ (k = tcid ∧ tc = ptc) := by
      have hcont : ∀ k, (r.registerContainer tcid ptc).2.container k =
          if k = tcid then some r.states.length else r.container k := by
        intro k
        rw [heq]
        exact Registry.container_snoc hnew _ k
      have hlen : r.owners.length = r.states.length := List.length_map _
      have howners : (r.registerContainer tcid ptc).2.owners = r.owners ++ [(tcid, ptc)] := by
        rw [heq, Registry.owners, List.map_append]
        rfl
      rw [Owner, howners]
      simp only [hcont]
      by_cases hk : k = tcid
      · rw [if_pos hk]
        constructor
        · rintro ⟨tcs, htcs, hown⟩
          obtain rfl := Option.some.inj htcs
          rw [← hlen, List.getElem?_concat_length] at hown
          exact Or.inr ⟨hk, (Prod.mk.inj (Option.some.inj hown)).2.symm⟩
        · rintro (⟨tcs, htcs, -⟩ | ⟨-, rfl⟩)
          · rw [hk, hnew] at htcs
            simp at htcs
          · refine ⟨r.states.length, rfl, ?_⟩
            rw [← hlen, List.getElem?_concat_length, hk]
      · rw [if_neg hk]
        constructor
        · rintro ⟨tcs, htcs, hown⟩
          obtain ⟨tc', hold⟩ := h.consistent.stored _ (Registry.container_mem htcs)
          rw [List.getElem?_append_left (List.getElem?_eq_some_iff.mp hold).1] at hown
          exact Or.inl ⟨tcs, htcs, hown⟩
        · rintro (⟨tcs, htcs, hown⟩ | ⟨he, -⟩)
          · refine ⟨tcs, htcs, ?_⟩
            rw [List.getElem?_append_left (List.getElem?_eq_some_iff.mp hown).1, hown]
          · exact absurd he hk
    rw [howner, h.owner, List.mem_append, List.mem_singleton]
    simp
  · have hplaces : (r.registerContainer tcid ptc).2.places = r.places := by
      rw [heq]
      rfl
    rw [Listed, hplaces]
    simpa [Listed] using h.listed taskid k
  · rw [heq] at he
    rcases List.mem_append.mp he with he | he
    · exact h.positive e he
    · rw [List.mem_singleton.mp he]
      exact Nat.pos_of_ne_zero h0

lemma Recorded.task (h : Recorded es r) {taskid tcid ptask : ℕ}
    (hok : r.registerTask taskid tcid ptask = some (true, r')) : Recorded (es ++ [(.task taskid tcid ptask, true)]) r' := by
  obtain ⟨hcons, hplaced, -, hnew, hkeep⟩ := h.consistent.registerTask h.placed hok
  obtain ⟨hno, -⟩ | ⟨-, -, tcs, c, r₁, hc, hs, ha, heq⟩ := Registry.registerTask_inv hok
  · cases hno
  obtain ⟨h₁, hplaces₁, howners₁, hlist₁, -, -, -⟩ := h.consistent.addTask ha
  obtain ⟨hold, -, -, -, -⟩ := h₁.listTask_places taskid ⟨0, 0, false, tcid, tcs⟩
  obtain ⟨howners, -, hlist, -⟩ := Registry.listTask_fields r₁ taskid ⟨0, 0, false, tcid, tcs⟩
  rw [howners₁] at howners
  rw [hlist₁] at hlist
  refine ⟨hcons, hplaced, fun k tc => ?_, fun t k => ?_, fun e he => ?_⟩
  · have howner : Owner r' k tc ↔ Owner r k tc := by
      rw [heq, Owner, Owner, howners, Registry.container, Registry.container, hlist]
    rw [howner, h.owner]
    simp
  · have hlisted : Listed r' t k ↔ Listed r t k ∨ (t = taskid ∧ k = tcid) := by
      constructor
      · rw [heq]
        rintro ⟨e, he, rfl, hk⟩
        rcases hold e he with he | ⟨old, rfl, hmem⟩
        · exact Or.inl ⟨e, hplaces₁ ▸ he, rfl, hk⟩
        · rw [List.map_append, List.mem_append] at hk
          rcases hk with hk | hk
          · rcases hmem with rfl | hmem
            · simp at hk
            · exact Or.inl ⟨(taskid, old), hplaces₁ ▸ hmem, rfl, hk⟩
          · exact Or.inr ⟨rfl, by simpa using hk⟩
      · rintro (hl | ⟨rfl, rfl⟩)
        · exact hkeep t k hl
        · exact hnew
    rw [hlisted, h.listed]
    simp [exists_or]
  · rw [heq] at he
    exact h.positive e (hlist ▸ he)

lemma Recorded.step (h : Recorded es r) {c : Registration} {ok : Bool} (hcall : record r c = some (ok, r')) :
    Recorded (es ++ [(c, ok)]) r' := by
  cases ok with
  | false =>
    obtain rfl := (h.consistent.kept h.placed hcall).failed rfl
    exact h.failed c
  | true =>
    cases c with
    | container tcid ptc =>
      obtain ⟨hok, rfl⟩ := Prod.mk.inj (Option.some.inj hcall)
      exact h.container hok
    | task taskid tcid ptask => exact h.task hcall

def delivered (queues : ℕ → List TMsg) (ds : List (ℕ × TMsg)) : ℕ → List TMsg :=
  fun tc => queues tc ++ (ds.filter fun d => d.1 = tc).map Prod.snd

lemma delivered_cons (queues : ℕ → List TMsg) (tc : ℕ) (msg : TMsg) (ds : List (ℕ × TMsg)) :
    delivered (enqueue queues tc msg) ds = delivered queues ((tc, msg) :: ds) := by
  funext k
  rw [delivered, delivered, enqueue]
  by_cases hk : k = tc
  · subst hk
    simp
  · have hne : ¬ tc = k := fun he => hk he.symm
    simp [Function.update_of_ne hk, hne]

lemma loop_delivers {σ : Type} (queues : σ → ℕ → List TMsg) (I : σ → Prop) (body : σ → ℕ → Option σ)
    (target : ℕ → ℕ × TMsg) (vs : List ℕ)
    (hbody : ∀ a, I a → ∀ v ∈ vs, Returns (body a v) fun a' =>
      I a' ∧ queues a' = enqueue (queues a) (target v).1 (target v).2) {a : σ} (ha : I a) :
    Returns (vs.foldlM body a) fun a' => queues a' = delivered (queues a) (vs.map target) := by
  induction vs generalizing a with
  | nil =>
    refine (returns_some _ _).mpr ?_
    funext tc
    simp [delivered]
  | cons v vs ih =>
    rw [List.foldlM_cons]
    refine (hbody a ha v (by simp)).bind fun a' ⟨ha', hq⟩ => ?_
    refine (ih (fun b hb w hw => hbody b hb w (by simp [hw])) ha').mono fun a'' hq' => ?_
    rw [hq', hq, delivered_cons]
    rfl

def OneCopyEach (P : ℕ → ℕ → Prop) (copy : ℕ → TMsg) (queues queues' : ℕ → List TMsg) : Prop :=
  ∀ tc, ∃ ids : List ℕ, ids.Nodup ∧ (∀ tcid, tcid ∈ ids ↔ P tcid tc) ∧ queues' tc = queues tc ++ ids.map copy

lemma one_copy_each {P : ℕ → ℕ → Prop} {pairs : List (ℕ × ℕ)} (hn : (pairs.map Prod.fst).Nodup)
    (hmem : ∀ tcid tc, (tcid, tc) ∈ pairs ↔ P tcid tc) (copy : ℕ → TMsg) (queues : ℕ → List TMsg) :
    OneCopyEach P copy queues (delivered queues (pairs.map fun p => (p.2, copy p.1))) := by
  intro tc
  refine ⟨(pairs.filter fun p => p.2 = tc).map Prod.fst, ?_, fun tcid => ?_, ?_⟩
  · exact hn.sublist (List.filter_sublist.map _)
  · rw [← hmem, List.mem_map]
    constructor
    · rintro ⟨p, hp, rfl⟩
      obtain ⟨hp, hpc⟩ := List.mem_filter.mp hp
      rw [← of_decide_eq_true hpc]
      exact hp
    · intro hp
      exact ⟨(tcid, tc), List.mem_filter.mpr ⟨hp, by simp⟩, rfl⟩
  · rw [delivered, List.filter_map, List.map_map, List.map_map]
    rfl

def Registered (es : List (Registration × Bool)) (tcid tc : ℕ) : Prop := (.container tcid tc, true) ∈ es

def RegisteredFor (es : List (Registration × Bool)) (taskid tcid tc : ℕ) : Prop :=
  Registered es tcid tc ∧ ∃ ptask, (.task taskid tcid ptask, true) ∈ es

def tcOf (r : Registry) (tcs : ℕ) : ℕ := ((r.owners[tcs]?).map Prod.snd).getD 0

variable {t : TaskObject} {ts : Registry.TaskState} {k : ℕ}

lemma tcOf_eq {tcs tcid tc : ℕ} (h : r.owners[tcs]? = some (tcid, tc)) : tcOf r tcs = tc := by
  rw [tcOf, h, Option.map_some, Option.getD_some]

lemma Refines.state (h : Refines s r) {tcs tcid tc : ℕ} (ho : r.owners[tcs]? = some (tcid, tc)) :
    ∃ c, s.states[tcs]? = some c ∧ c.tcid = tcid ∧ c.tc = tc := by
  rw [Registry.owners, List.getElem?_map, ← h.states] at ho
  obtain ⟨c, hc, heq⟩ := Option.map_eq_some_iff.mp ho
  exact ⟨c, hc, (Prod.mk.inj heq).1, (Prod.mk.inj heq).2⟩

lemma Recorded.inst_owner (h : Recorded es r) (hts : r.task k = some ts) {is : Registry.InstState} (his : is ∈ ts.inst) :
    r.container is.tcid = some is.tcs ∧ r.owners[is.tcs]? = some (is.tcid, tcOf r is.tcs) ∧ 0 < is.tcid := by
  have hplace : (is.tcid, is.tcs) ∈ ts.places.2 := List.mem_map_of_mem his
  have hmem := h.consistent.linked _ (Registry.places_mem (Registry.mem_of_task hts).1) _ hplace
  obtain ⟨tc, htc⟩ := h.consistent.stored _ hmem
  refine ⟨h.consistent.container_eq hmem, ?_, h.positive _ hmem⟩
  rw [tcOf_eq htc]
  exact htc

lemma Recorded.instances (h : Recorded es r) (hts : r.task k = some ts) :
    ((ts.inst.map fun is => (is.tcid, tcOf r is.tcs)).map Prod.fst).Nodup ∧
      ∀ tcid tc, (tcid, tc) ∈ ts.inst.map (fun is => (is.tcid, tcOf r is.tcs)) ↔ RegisteredFor es k tcid tc := by
  constructor
  · have honce := h.consistent.once _ (Registry.places_mem (Registry.mem_of_task hts).1)
    rw [Registry.TaskState.places, List.map_map] at honce
    rw [List.map_map]
    exact honce
  · intro tcid tc
    rw [RegisteredFor, Registered, ← h.owner, ← h.listed, Registry.listed_iff h.consistent hts, List.mem_map]
    constructor
    · rintro ⟨is, his, heq⟩
      obtain ⟨rfl, rfl⟩ := Prod.mk.inj heq
      obtain ⟨hc, ho, -⟩ := h.inst_owner hts his
      exact ⟨⟨is.tcs, hc, ho⟩, is, his, rfl⟩
    · rintro ⟨⟨tcs, hcont, hown⟩, is, his, rfl⟩
      obtain ⟨hc, ho, -⟩ := h.inst_owner hts his
      obtain rfl := Option.some.inj (hc.symm.trans hcont)
      exact ⟨is, his, by rw [tcOf_eq hown]⟩

lemma instances_copied (h : Refines s r) (hr : Recorded es r) (hts : r.task k = some ts) (hh : Holds s.insts t ts)
    {σ : Type} (queues : σ → ℕ → List TMsg) (I : σ → Prop) (body : σ → ℕ → Option σ) (copy : ℕ → TMsg)
    (hbody : ∀ a, I a → ∀ p is c, s.insts[p]? = some is → 0 < is.tcid → s.states[is.tcs]? = some c →
      Returns (body a p) fun a' => I a' ∧ queues a' = enqueue (queues a) c.tc (copy is.tcid)) {a : σ} (ha : I a) :
    Returns (t.inst.forIter body a) fun a' => OneCopyEach (RegisteredFor es k) copy (queues a) (queues a') := by
  obtain ⟨q, hq, hv⟩ := hh.inst
  obtain ⟨hnodup, hmem⟩ := hr.instances hts
  set target : ℕ → ℕ × TMsg := fun p => (s.insts[p]?.map fun is => (tcOf r is.tcs, copy is.tcid)).getD (0, copy 0)
    with htarget
  have hloop := loop_delivers queues I body target q.values ?_ ha
  · rw [CList.forIter_spec hq]
    refine hloop.mono fun a' hq' => ?_
    have hpairs : q.values.map target = (ts.inst.map fun is => (is.tcid, tcOf r is.tcs)).map fun p => (p.2, copy p.1) := by
      have hm := congrArg (List.map fun o : Option Registry.InstState =>
        (o.map fun is => (tcOf r is.tcs, copy is.tcid)).getD (0, copy 0)) hv
      rw [List.map_map, List.map_map] at hm
      rw [List.map_map]
      exact hm
    rw [hq', hpairs]
    exact one_copy_each hnodup hmem copy (queues a)
  · intro a ha p hp
    have hin : s.insts[p]? ∈ q.values.map fun p => s.insts[p]? := List.mem_map_of_mem hp
    rw [hv] at hin
    obtain ⟨is, his, hpis⟩ := List.mem_map.mp hin
    obtain ⟨-, ho, hpos⟩ := hr.inst_owner hts his
    obtain ⟨c, hc, -, htc⟩ := h.state ho
    have htp : target p = (c.tc, copy is.tcid) := by
      rw [htarget, htc]
      dsimp only
      rw [← hpis]
      rfl
    rw [htp]
    exact hbody a ha p is c hpis.symm hpos hc

lemma containers_copied (h : Refines s r) (hr : Recorded es r) {σ : Type} (queues : σ → ℕ → List TMsg)
    (body : σ → ℕ → Option σ) (copy : ℕ → TMsg)
    (hbody : ∀ a tcs c, s.states[tcs]? = some c →
      Returns (body a tcs) fun a' => queues a' = enqueue (queues a) c.tc (copy c.tcid)) (a : σ) :
    Returns (s.mContainerList.forEach body a) fun (a', _) =>
      OneCopyEach (Registered es) copy (queues a) (queues a') := by
  obtain ⟨l, table, hnodup, hl, -, hrun⟩ := h.containers.forEach compareKey_iff body a
  have hown : ∀ p ∈ l, r.owners[p.2]? = some (p.1, tcOf r p.2) := by
    intro p hp
    obtain ⟨tc, htc⟩ := hr.consistent.stored _ (Registry.container_mem ((hl p.1 p.2).mp hp))
    rw [tcOf_eq htc]
    exact htc
  set target : ℕ → ℕ × TMsg := fun tcs => (tcOf r tcs, copy ((r.owners[tcs]?.map Prod.fst).getD 0)) with htarget
  have hloop := loop_delivers queues (fun _ => True) body target (l.map Prod.snd) ?_
    (a := a) trivial
  · rw [hrun]
    refine hloop.map fun a' hq' => ?_
    have hpairs : (l.map Prod.snd).map target = (l.map fun p => (p.1, tcOf r p.2)).map fun p => (p.2, copy p.1) := by
      rw [List.map_map, List.map_map]
      refine List.map_congr_left fun p hp => ?_
      rw [Function.comp_apply, htarget]
      dsimp only
      rw [hown p hp]
      rfl
    dsimp only
    rw [hq', hpairs]
    refine one_copy_each ?_ (fun tcid tc => ?_) copy (queues a)
    · rw [List.map_map]
      exact hnodup
    · rw [Registered, ← hr.owner, List.mem_map]
      constructor
      · rintro ⟨p, hp, heq⟩
        obtain ⟨rfl, rfl⟩ := Prod.mk.inj heq
        exact ⟨p.2, (hl p.1 p.2).mp hp, hown p hp⟩
      · rintro ⟨tcs, hcont, ho⟩
        exact ⟨(tcid, tcs), (hl tcid tcs).mpr hcont, by rw [tcOf_eq ho]⟩
  · intro a _ tcs htcs
    obtain ⟨p, hp, rfl⟩ := List.mem_map.mp htcs
    obtain ⟨c, hc, hid, htc⟩ := h.state (hown p hp)
    have htp : target p.2 = (c.tc, copy c.tcid) := by
      rw [htarget, htc, hid]
      dsimp only
      rw [hown p hp]
      rfl
    rw [htp]
    exact (hbody a p.2 c hc).mono fun _ ha' => ⟨trivial, ha'⟩

lemma no_copies {P : ℕ → ℕ → Prop} (hP : ∀ tcid tc, ¬ P tcid tc) (copy : ℕ → TMsg) (queues : ℕ → List TMsg) :
    OneCopyEach P copy queues queues :=
  fun tc => ⟨[], List.nodup_nil, fun tcid => by simpa using hP tcid tc, by simp⟩

lemma Recorded.unregistered (h : Recorded es r) (hts : r.task k = none) (tcid tc : ℕ) : ¬ RegisteredFor es k tcid tc :=
  fun hfor => Registry.not_listed hts ((h.listed k tcid).mpr hfor.2)

lemma addEvent_to_task (h : Refines s r) (hr : Recorded es r) {msg : TEventMsg} (hinst : msg.instID = 0)
    (htask : 0 < msg.taskID) : Returns (s.addEvent msg) fun (_, _, s') =>
      OneCopyEach (RegisteredFor es msg.taskID) (fun tcid => .event { msg with instID := tcid }) s.queues s'.queues := by
  obtain ⟨f, hf, hfound⟩ := h.tasks
  rw [addEvent, if_neg (by omega), if_pos htask, hf.getR]
  refine Returns.of_bind rfl ?_
  rcases hfound msg.taskID with ⟨hnone, hts⟩ | ⟨p, t, ts, hp, ht, hts, hh⟩
  · rw [hnone]
    exact (returns_some _ _).mpr (no_copies (hr.unregistered hts) _ _)
  · rw [hp]
    refine Returns.of_bind ht ?_
    have hloop := instances_copied h hr hts hh Prod.snd (fun _ => True) (s.eventToInst msg)
      (fun tcid => .event { msg with instID := tcid }) ?_ (a := (false, s.queues)) trivial
    · exact hloop.bind fun (found, queues) hq => (returns_some _ _).mpr hq
    · intro a _ p is c hpis _ hc
      exact Returns.of_bind hpis (Returns.of_bind hc ((returns_some _ _).mpr ⟨trivial, rfl⟩))

lemma addEvent_to_all (h : Refines s r) (hr : Recorded es r) {msg : TEventMsg} (hinst : msg.instID = 0)
    (htask : msg.taskID = 0) : Returns (s.addEvent msg) fun (_, _, s') =>
      OneCopyEach (Registered es) (fun _ => .event msg) s.queues s'.queues := by
  rw [addEvent, if_neg (by omega), if_neg (by omega)]
  have hloop := containers_copied h hr Prod.snd (s.eventToContainer msg) (fun _ => .event msg) ?_
    (false, s.queues)
  · exact hloop.bind fun ((found, queues), table) hq => (returns_some _ _).mpr hq
  · intro a tcs c hc
    exact Returns.of_bind hc ((returns_some _ _).mpr rfl)

lemma broadcast_to_all (h : Refines s r) (hr : Recorded es r) (msg : TUniNetMsg) :
    Returns (s.broadcastMsgToTask msg) fun (_, s') => OneCopyEach (Registered es)
      (fun tcid => .uniNet { msg with tAddr := { msg.tAddr with phyAddr := tcid } }) s.queues s'.queues := by
  have hloop := containers_copied h hr id (s.broadcastToContainer msg)
    (fun tcid => .uniNet { msg with tAddr := { msg.tAddr with phyAddr := tcid } }) ?_ s.queues
  · exact hloop.bind fun (queues, table) hq => (returns_some _ _).mpr hq
  · intro a tcs c hc
    exact Returns.of_bind hc ((returns_some _ _).mpr rfl)

def SamePlaces (insts insts' : List Registry.InstState) : Prop :=
  ∀ p : ℕ, insts'[p]?.map (fun is => (is.tcid, is.tcs)) = insts[p]?.map fun is => (is.tcid, is.tcs)

lemma multicast_to_task (h : Refines s r) (hr : Recorded es r) (msg : TUniNetMsg) :
    Returns (s.multicastMsgToTask msg) fun (_, s') => OneCopyEach (RegisteredFor es msg.tAddr.logAddr)
      (fun tcid => .uniNet { msg with tAddr := { msg.tAddr with phyAddr := tcid } }) s.queues s'.queues := by
  obtain ⟨f, hf, hfound⟩ := h.tasks
  rw [multicastMsgToTask, hf.containsKey, Option.bind_eq_bind, Option.bind_some]
  rcases hfound msg.tAddr.logAddr with ⟨hnone, hts⟩ | ⟨p, t, ts, hp, ht, hts, hh⟩
  · rw [hnone, Option.isSome_none, if_neg Bool.false_ne_true]
    exact (returns_some _ _).mpr (no_copies (hr.unregistered hts) _ _)
  · rw [hp, Option.isSome_some, if_pos rfl, hf.getR, hp]
    refine Returns.of_bind rfl (Returns.of_bind ht ?_)
    have hloop := instances_copied h hr hts hh Prod.snd (fun a => SamePlaces s.insts a.1) (s.multicastToInst msg)
      (fun tcid => .uniNet { msg with tAddr := { msg.tAddr with phyAddr := tcid } }) ?_ (a := (s.insts, s.queues))
      fun _ => rfl
    · exact hloop.bind fun (insts, queues) hq => (returns_some _ _).mpr hq
    · intro a ha p is c hpis hpos hc
      have hsame := ha p
      rw [hpis, Option.map_some] at hsame
      obtain ⟨is', his', heq⟩ := Option.map_eq_some_iff.mp hsame
      obtain ⟨hid, htcs⟩ := Prod.mk.inj heq
      refine Returns.of_bind his' ?_
      rw [if_pos (hid ▸ hpos)]
      refine Returns.of_bind (htcs ▸ hc) ((returns_some _ _).mpr ⟨fun j => ?_, by rw [hid]⟩)
      rw [← ha j, List.getElem?_set]
      split
      · next hj =>
        subst hj
        rw [his', if_pos (List.getElem?_eq_some_iff.mp his').1]
        rfl
      · rfl

lemma Recorded.placed_once (h : Recorded es r) {tcid tcid' tc : ℕ} (hfor : RegisteredFor es k tcid tc)
    (hfor' : RegisteredFor es k tcid' tc) : tcid = tcid' := by
  cases hts : r.task k with
  | none => exact absurd hfor (h.unregistered hts tcid tc)
  | some ts =>
    obtain ⟨is, his, heq⟩ := List.mem_map.mp (((h.instances hts).2 tcid tc).mpr hfor)
    obtain ⟨is', his', heq'⟩ := List.mem_map.mp (((h.instances hts).2 tcid' tc).mpr hfor')
    have honce := h.consistent.onceEach _ (Registry.places_mem (Registry.mem_of_task hts).1)
    rw [Registry.TaskState.places, List.map_map] at honce
    have hsame := List.inj_on_of_nodup_map honce his his' ?_
    · rw [← (Prod.mk.inj heq).1, ← (Prod.mk.inj heq').1, hsame]
    · rw [Function.comp_apply, Function.comp_apply, (h.inst_owner hts his).2.1, (h.inst_owner hts his').2.1,
        Option.map_some, Option.map_some, (Prod.mk.inj heq).2, (Prod.mk.inj heq').2]

lemma register_refines (h : Refines s r) (hc : Consistent r) (c : Registration) :
    (∀ ok r', record r c = some (ok, r') → Returns (s.register c) fun (b, s') => b = ok ∧ Refines s' r') ∧
      (record r c = none → s.register c = none) := by
  cases c with
  | container tcid ptc =>
    refine ⟨fun ok r' hcall => ?_, fun hnone => absurd hnone (by simp [record, Registration.call, Registry.call])⟩
    obtain ⟨rfl, rfl⟩ := Prod.mk.inj (Option.some.inj hcall)
    exact registerContainer_refines h tcid ptc
  | task taskid tcid ptask => exact registerTask_refines h hc taskid tcid ptask

section Runs

variable {calls : List Registration} {oks : List Bool}

lemma run_recorded (h : Refines s r) (hr : Recorded es r) (hrun : runCalls register s calls = some (oks, s')) :
    ∃ r', Refines s' r' ∧ Recorded (es ++ calls.zip oks) r' := by
  induction calls generalizing s r es oks with
  | nil =>
    obtain ⟨rfl, rfl⟩ := Prod.mk.inj (Option.some.inj hrun)
    exact ⟨r, h, by simpa using hr⟩
  | cons c calls ih =>
    obtain ⟨⟨ok, s₁⟩, hcall, hrun⟩ := Option.bind_eq_some_iff.mp hrun
    obtain ⟨⟨oks₁, s₂⟩, hrest, heq⟩ := Option.bind_eq_some_iff.mp hrun
    obtain ⟨rfl, rfl⟩ := Prod.mk.inj (Option.some.inj heq)
    obtain ⟨hback, hlost⟩ := register_refines h hr.consistent c
    rcases hrec : record r c with _ | ⟨ok', r₁⟩
    · rw [hlost hrec] at hcall
      cases hcall
    · obtain ⟨q, hq, rfl, h₁⟩ := hback ok' r₁ hrec
      obtain rfl := Option.some.inj (hq.symm.trans hcall)
      obtain ⟨r₂, h₂, hr₂⟩ := ih h₁ (hr.step hrec) hrest
      rw [List.append_assoc] at hr₂
      exact ⟨r₂, h₂, hr₂⟩

lemma run_returns (h : Refines s r) (hr : Recorded es r) (hrun : runCalls record r calls = some (oks, r')) :
    Returns (runCalls register s calls) fun (oks', s') => oks' = oks ∧ Refines s' r' := by
  induction calls generalizing s r es oks with
  | nil =>
    obtain ⟨rfl, rfl⟩ := Prod.mk.inj (Option.some.inj hrun)
    exact (returns_some _ _).mpr ⟨rfl, h⟩
  | cons c calls ih =>
    obtain ⟨⟨ok, r₁⟩, hcall, hrun⟩ := Option.bind_eq_some_iff.mp hrun
    obtain ⟨⟨oks₁, r₂⟩, hrest, heq⟩ := Option.bind_eq_some_iff.mp hrun
    obtain ⟨rfl, rfl⟩ := Prod.mk.inj (Option.some.inj heq)
    rw [runCalls_cons]
    refine ((register_refines h hr.consistent c).1 ok r₁ hcall).bind ?_
    rintro ⟨b, s₁⟩ ⟨rfl, h₁⟩
    refine (ih h₁ (hr.step hcall) hrest).bind ?_
    rintro ⟨oks', s₂⟩ ⟨rfl, h₂⟩
    exact (returns_some _ _).mpr ⟨rfl, h₂⟩

end Runs

structure CopiesExact (es : List (Registration × Bool)) (s : SelectorTables) : Prop where
  eventToTask : ∀ msg : TEventMsg, msg.instID = 0 → 0 < msg.taskID → Returns (s.addEvent msg) fun (_, _, s') =>
    OneCopyEach (RegisteredFor es msg.taskID) (fun tcid => .event { msg with instID := tcid }) s.queues s'.queues
  eventToAll : ∀ msg : TEventMsg, msg.instID = 0 → msg.taskID = 0 → Returns (s.addEvent msg) fun (_, _, s') =>
    OneCopyEach (Registered es) (fun _ => .event msg) s.queues s'.queues
  broadcast : ∀ msg : TUniNetMsg, Returns (s.broadcastMsgToTask msg) fun (_, s') => OneCopyEach (Registered es)
    (fun tcid => .uniNet { msg with tAddr := { msg.tAddr with phyAddr := tcid } }) s.queues s'.queues
  multicast : ∀ msg : TUniNetMsg, Returns (s.multicastMsgToTask msg) fun (_, s') =>
    OneCopyEach (RegisteredFor es msg.tAddr.logAddr)
      (fun tcid => .uniNet { msg with tAddr := { msg.tAddr with phyAddr := tcid } }) s.queues s'.queues
  once : ∀ taskid tcid tcid' tc, RegisteredFor es taskid tcid tc → RegisteredFor es taskid tcid' tc → tcid = tcid'

theorem copies_exact {taskTable : ℕ → List (ℕ × ℕ)} {queues : ℕ → List TMsg} {memory : Counters}
    {calls : List Registration} {oks : List Bool} {s : SelectorTables}
    (h : runCalls register (new taskTable queues memory) calls = some (oks, s)) : CopiesExact (calls.zip oks) s := by
  obtain ⟨r, hs, hr⟩ := run_recorded (refines_new taskTable queues memory) (recorded_new _ _ _) h
  rw [List.nil_append] at hr
  exact ⟨fun msg => addEvent_to_task hs hr, fun msg => addEvent_to_all hs hr, broadcast_to_all hs hr,
    multicast_to_task hs hr, fun _ _ _ _ => hr.placed_once⟩

def twoHosts : List Registration := [.container 1 10, .container 2 20, .task 7 1 5, .task 7 2 6]

theorem copies_exact_twoHosts :
    ∃ s, runCalls register (new (fun _ => []) (fun _ => []) ⟨0, 0, 0, 0⟩) twoHosts = some ([true, true, true, true], s) ∧
      CopiesExact (twoHosts.zip [true, true, true, true]) s := by
  obtain ⟨r', hr'⟩ : ∃ r', runCalls record (Registry.new (fun _ => []) 0 0) twoHosts =
      some ([true, true, true, true], r') := ⟨_, rfl⟩
  obtain ⟨⟨oks, s⟩, h, rfl, -⟩ := run_returns (refines_new (fun _ => []) (fun _ => []) ⟨0, 0, 0, 0⟩)
    (recorded_new _ _ _) hr'
  exact ⟨s, h, copies_exact h⟩

end SelectorTables

end Xframe.Kernel
