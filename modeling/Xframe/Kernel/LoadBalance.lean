import Mathlib.Algebra.Order.BigOperators.Group.List
import Mathlib.Data.List.Rotate
import Mathlib.Data.List.ReduceOption
import Xframe.Lib.Refine
import Xframe.Comserv.CListAnswers
import Xframe.Kernel.RegistryInv

/-! The load balancer of `TTaskSelector`: re-weighting always leaves an instance that is not blocked,
and the rotation serves unblocked instances in turn. -/

namespace Xframe.Kernel.Registry

open Xframe.Lib Xframe.Comserv

variable {r r' : Registry} {c : Call} {ts ts' : TaskState} {taskid tcid : ℕ} {w : ℕ → ℕ}

section Cursor

def nextInstOn (b : CList InstState) : ℕ → ℕ → Option ((ℕ × Option InstState) × CList InstState)
  | 0, instpos => some ((instpos, none), b)
  | n + 1, instpos => do
    let (a, b) ← b.nextD
    match a.value with
    | none => nextInstOn b n instpos
    | some is =>
      let pos := if b.count ≤ instpos + 1 then 0 else instpos + 1
      if is.weight = 0 ∧ !is.shuttingDown then some ((pos, some is), b) else nextInstOn b n pos

def chooseInst (b : CList InstState) (instpos : ℕ) : Option ((ℕ × Option InstState) × CList InstState) := do
  let (ok, b) ← b.resetPos instpos
  if ok = some true then nextInstOn b b.count instpos else some ((instpos, none), b)

variable {b : CList InstState} {q : CursorSeq InstState}

def cursorAt (q : CursorSeq InstState) (k : ℕ) : CursorSeq InstState :=
  { q with before := q.items.take k, after := q.items.drop k }

@[simp] lemma cursorAt_items (q : CursorSeq InstState) (k : ℕ) : (cursorAt q k).items = q.items :=
  List.take_append_drop _ _

lemma nextD_cursorAt {k : ℕ} (hk : k < q.items.length) :
    (cursorAt q k).nextD = (true, cursorAt q (if q.items.length ≤ k + 1 then 0 else k + 1)) := by
  have hne : (cursorAt q k).items ≠ [] := by
    rw [cursorAt_items]
    rintro hnil
    simp [hnil] at hk
  have hdrop : q.items.drop k = q.items[k] :: q.items.drop (k + 1) := List.drop_eq_getElem_cons hk
  rw [CList.nextD_of_ne_nil hne, Prod.mk.injEq, and_iff_right rfl]
  by_cases hlast : q.items.length ≤ k + 1
  · have hafter : (cursorAt q k).after = [q.items[k]] := by
      rw [cursorAt, hdrop, List.drop_eq_nil_of_le hlast]
    rw [CList.next_of_single hafter, if_neg Bool.false_ne_true, if_pos hlast, CursorSeq.toFirst, cursorAt_items]
    rfl
  · have hlt : k + 1 < q.items.length := by omega
    have hafter : (cursorAt q k).after = q.items[k] :: q.items[k + 1] :: q.items.drop (k + 2) := by
      rw [cursorAt, hdrop, List.drop_eq_getElem_cons hlt]
    have hnext : (cursorAt q k).next = (true, cursorAt q (k + 1)) := by
      rw [CursorSeq.next, hafter]
      simp only [cursorAt, Prod.mk.injEq, true_and, CursorSeq.mk.injEq, and_true]
      exact ⟨List.take_concat_get' .., (List.drop_eq_getElem_cons hlt).symm⟩
    rw [hnext, if_pos rfl, if_neg hlast]

lemma nextD_on {k : ℕ} (h : b.Represents (cursorAt q k)) (hk : k < q.items.length) (h2 : 2 ≤ q.items.length) :
    Returns b.nextD fun (a, b') =>
      a.value = q.values[if q.items.length ≤ k + 1 then 0 else k + 1]? ∧
        b'.Represents (cursorAt q (if q.items.length ≤ k + 1 then 0 else k + 1)) := by
  refine (CList.nextD_refines h).mono fun (a, b') ⟨ha, hb⟩ => ?_
  rw [nextD_cursorAt hk] at ha hb
  refine ⟨?_, hb⟩
  have hread : ¬CList.Op.nextD.Misread (cursorAt q k) := by
    have hlen : (cursorAt q k).before.length + (cursorAt q k).after.length = q.items.length := by
      rw [← List.length_append]
      exact congrArg List.length (cursorAt_items q k)
    rintro (hz | ⟨hz, ho⟩)
    · rw [cursorAt_items] at hz
      omega
    · omega
  rw [ha.mpr hread, CursorSeq.reading, if_pos rfl, CursorSeq.here, cursorAt, List.head?_drop]
  dsimp only [CList.Answer.flag]
  rw [CursorSeq.values, List.getElem?_map]

lemma nextInstOn_refines {n k : ℕ} (h : b.Represents (cursorAt q k)) (hk : k < q.items.length)
    (h2 : 2 ≤ q.items.length) :
    Returns (nextInstOn b n k) fun (x, b') => x = nextInst q.values n k ∧ ∃ j, b'.Represents (cursorAt q j) := by
  induction n generalizing b k with
  | zero => exact (returns_some _ _).mpr ⟨rfl, k, h⟩
  | succ n ih =>
    rw [nextInstOn, nextInst]
    refine (nextD_on h hk h2).bind ?_
    rintro ⟨a, b'⟩ ⟨ha, hb⟩
    have hlen : q.values.length = q.items.length := List.length_map _
    have hcount : b'.count = q.items.length := by
      rw [hb.count, cursorAt_items]
    obtain ⟨pos, hpos⟩ : ∃ pos, pos = if q.items.length ≤ k + 1 then 0 else k + 1 := ⟨_, rfl⟩
    have hlt : pos < q.values.length := by
      rw [hpos, hlen]
      split <;> omega
    rw [← hpos] at ha hb
    rw [List.getElem?_eq_getElem hlt] at ha
    dsimp only
    rw [ha, hlen, hcount, ← hpos, List.getElem?_eq_getElem hlt]
    dsimp only
    split
    · exact (returns_some _ _).mpr ⟨rfl, pos, hb⟩
    · exact ih hb (hlen ▸ hlt)

theorem chooseInst_refines {instpos : ℕ} (h : b.Represents q) (hp : instpos < q.values.length)
    (h2 : 2 ≤ q.values.length) :
    Returns (chooseInst b instpos) fun (x, b') =>
      x = nextInst q.values q.values.length instpos ∧ ∃ q', b'.Represents q' ∧ q'.items = q.items := by
  have hlen : q.values.length = q.items.length := List.length_map _
  rw [hlen] at hp h2
  have hseek : q.seek instpos = (true, cursorAt q instpos) := by
    rw [CursorSeq.seek, if_pos (by omega)]
    rfl
  rw [chooseInst]
  refine (CList.resetPos_refines h instpos).bind ?_
  rintro ⟨ok, b'⟩ ⟨hok, hb⟩
  rw [hseek] at hok hb
  rw [if_pos (by omega)] at hok
  dsimp only at hok ⊢
  rw [hok, if_pos rfl, hb.count, cursorAt_items, hlen]
  refine (nextInstOn_refines hb hp h2).mono ?_
  rintro ⟨x, b''⟩ ⟨hx, j, hj⟩
  exact ⟨hx, cursorAt q j, hj, cursorAt_items q j⟩

end Cursor

section Weights

def load (r : Registry) (w : ℕ → ℕ) (is : InstState) : ℕ := r.owners[is.tcs]?.elim 0 fun c => w c.2

def reweigh (loadOf : InstState → ℕ) (inst : List InstState) : List InstState :=
  if inst.length = 1 then inst
  else inst.map fun is => { is with weight :=
    if (inst.map loadOf).sum % 2 ^ 32 / inst.length + TTaskSelector.balanceCountNumber < loadOf is then 1 else 0 }

def Fresh (w : ℕ → ℕ) (states : List TaskContainerState) (q : ℕ) : Prop :=
  states[q]?.elim 0 TaskContainerState.waitCount = (states.map fun c => (c.tcid, c.tc))[q]?.elim 0 fun c => w c.2

lemma Fresh.modify_self (states : List TaskContainerState) (p : ℕ) :
    Fresh w (states.modify p fun c => { c with waitCount := w c.tc }) p := by
  rw [Fresh, owners_modify, List.getElem?_modify, List.getElem?_map]
  cases states[p]? <;> simp

lemma Fresh.modify {states : List TaskContainerState} {q : ℕ} (h : Fresh w states q) (p : ℕ) :
    Fresh w (states.modify p fun c => { c with waitCount := w c.tc }) q := by
  by_cases hp : p = q
  · rw [hp]
    exact Fresh.modify_self states q
  · rw [Fresh] at h
    rw [Fresh, owners_modify, ← h, List.getElem?_modify]
    cases states[q]? <;> simp [hp]

lemma refresh_spec (states : List TaskContainerState) (inst : List InstState) (sum : ℕ) (hsum : sum < 2 ^ 32) :
    (refresh w states inst sum).2 = (sum + (inst.map fun is =>
      (states.map fun c => (c.tcid, c.tc))[is.tcs]?.elim 0 fun c => w c.2).sum) % 2 ^ 32 ∧
    (∀ q, Fresh w states q → Fresh w (refresh w states inst sum).1 q) ∧
    ∀ is ∈ inst, Fresh w (refresh w states inst sum).1 is.tcs := by
  induction inst generalizing states sum with
  | nil => exact ⟨(Nat.mod_eq_of_lt hsum).symm, fun _ h => h, by simp⟩
  | cons is inst ih =>
    rw [refresh]
    obtain ⟨states', hs⟩ : ∃ states', states' = states.modify is.tcs fun c => { c with waitCount := w c.tc } :=
      ⟨_, rfl⟩
    have hself : Fresh w states' is.tcs := hs ▸ Fresh.modify_self states is.tcs
    have howners : (states'.map fun c => (c.tcid, c.tc)) = states.map fun c => (c.tcid, c.tc) :=
      hs ▸ owners_modify states is.tcs w
    rw [← hs]
    obtain ⟨h1, h2, h3⟩ := ih states' ((sum + states'[is.tcs]?.elim 0 TaskContainerState.waitCount) % 2 ^ 32)
      (Nat.mod_lt _ (by norm_num))
    refine ⟨?_, fun q hq => h2 q (hs ▸ hq.modify is.tcs), ?_⟩
    · rw [h1, howners, Nat.mod_add_mod, hself, howners, List.map_cons, List.sum_cons, Nat.add_assoc]
    · intro is' his
      rcases List.mem_cons.mp his with rfl | his
      · exact h2 _ hself
      · exact h3 is' his

lemma balanceCheck_inst (r : Registry) (w : ℕ → ℕ) (ts : TaskState) :
    (r.balanceCheck w ts).2 = { ts with inst := reweigh (r.load w) ts.inst } := by
  obtain ⟨hsum, -, hfresh⟩ := refresh_spec (w := w) r.states ts.inst 0 (by norm_num)
  rw [Nat.zero_add] at hsum
  have howners := refresh_owners w r.states ts.inst 0
  rw [balanceCheck, reweigh]
  dsimp only
  split
  · rfl
  · simp only [TaskState.mk.injEq, true_and]
    refine List.map_congr_left fun is his => ?_
    have hload : (refresh w r.states ts.inst 0).1[is.tcs]?.elim 0 TaskContainerState.waitCount = r.load w is := by
      rw [hfresh is his, howners]
      rfl
    rw [hload, hsum]
    rfl

lemma exists_le_average {inst : List InstState} (loadOf : InstState → ℕ) (hne : inst ≠ []) :
    ∃ is ∈ inst, loadOf is ≤ (inst.map loadOf).sum / inst.length := by
  by_contra hall
  push Not at hall
  have hle : (inst.map loadOf).length • ((inst.map loadOf).sum / inst.length + 1) ≤ (inst.map loadOf).sum := by
    refine List.card_nsmul_le_sum _ _ fun x hx => ?_
    obtain ⟨is, his, rfl⟩ := List.mem_map.mp hx
    exact hall is his
  rw [List.length_map, smul_eq_mul, Nat.mul_add_one] at hle
  have hlt := Nat.lt_mul_div_succ (inst.map loadOf).sum (List.length_pos_of_ne_nil hne)
  rw [Nat.mul_add_one] at hlt
  omega

lemma reweigh_free {inst : List InstState} {loadOf : InstState → ℕ} (h2 : inst.length ≠ 1) (hne : inst ≠ [])
    (hsum : (inst.map loadOf).sum < 2 ^ 32 - 100) : ∃ is ∈ reweigh loadOf inst, is.weight = 0 := by
  obtain ⟨is, his, hle⟩ := exists_le_average loadOf hne
  rw [reweigh, if_neg h2]
  refine ⟨_, List.mem_map_of_mem his, if_neg ?_⟩
  rw [Nat.mod_eq_of_lt (by omega)]
  omega

def InstState.key (is : InstState) : ℕ × Bool × ℕ × ℕ := (is.weight, is.shuttingDown, is.tcid, is.tcs)

def TaskState.keys (ts : TaskState) : List (ℕ × Bool × ℕ × ℕ) := ts.inst.map InstState.key

lemma length_keys (ts : TaskState) : ts.keys.length = ts.inst.length := List.length_map _

lemma map_congr_key {β : Type} {f : InstState → β} (hf : ∀ a b : InstState, a.key = b.key → f a = f b)
    {inst inst' : List InstState} (hk : inst'.map InstState.key = inst.map InstState.key) :
    inst'.map f = inst.map f := by
  induction inst generalizing inst' with
  | nil => rw [List.map_eq_nil_iff.mp hk]
  | cons is inst ih =>
    cases inst' with
    | nil => simp at hk
    | cons is' inst' =>
      rw [List.map_cons, List.map_cons, List.cons.injEq] at hk
      rw [List.map_cons, List.map_cons, hf is' is hk.1, ih hk.2]

lemma load_congr {a b : InstState} (h : a.key = b.key) : r.load w a = r.load w b := by
  have htcs : a.tcs = b.tcs := congrArg (fun k => k.2.2.2) h
  rw [load, load, htcs]

lemma reweigh_keys {inst inst' : List InstState} (hk : inst'.map InstState.key = inst.map InstState.key) :
    (reweigh (r.load w) inst').map InstState.key = (reweigh (r.load w) inst).map InstState.key := by
  have hlen : inst'.length = inst.length := by
    have := congrArg List.length hk
    rwa [List.length_map, List.length_map] at this
  rw [reweigh, reweigh, hlen, map_congr_key (fun a b => load_congr) hk]
  split
  · exact hk
  · rw [List.map_map, List.map_map]
    refine map_congr_key (fun a b hab => ?_) hk
    rw [Function.comp_apply, Function.comp_apply, load_congr hab]
    exact Prod.ext rfl (congrArg (fun k => k.2) hab)

end Weights

section Steps

def Call.Reads : Call → (ℕ → ℕ) → Prop
  | .getTask waitCount _ _, w => w = waitCount
  | .balanceCheck waitCount _, w => w = waitCount
  | .add waitCount _, w => w = waitCount
  | _, _ => False

def picks (r : Registry) (taskid : ℕ) : Call → Option ℕ
  | .getTask waitCount t tcid => if t = taskid ∧ tcid = 0 then (r.getTask waitCount t tcid).1 else none
  | .add waitCount msg =>
    if msg.msgType ≠ Msg.dialogBroadcast ∧ msg.msgType ≠ Msg.dialogMulticast ∧ msg.tAddr.logAddr = taskid ∧
        TTaskSelector.containerid msg.tAddr.phyAddr = 0 then
      (r.getTask waitCount taskid 0).1
    else none
  | _ => none

inductive Changes (r : Registry) (c : Call) (ts : TaskState) : Option ℕ → TaskState → Prop
  | counted {ts' : TaskState} (hi : ts'.instpos = ts.instpos) (hk : ts'.keys = ts.keys) : Changes r c ts none ts'
  | added {ts' : TaskState} {tcid tcs : ℕ} (hi : ts'.instpos = ts.instpos)
      (hk : ts'.keys = ts.keys ++ [(0, false, tcid, tcs)]) : Changes r c ts none ts'
  | single {is : InstState} (h1 : ts.inst = [is]) : Changes r c ts (some is.tcs) ts
  | picked {ts' : TaskState} {w : ℕ → ℕ} {pos : ℕ} {is : InstState} (hw : c.Reads w) (h2 : 2 ≤ ts.inst.length)
      (hn : nextInst ts.inst ts.inst.length ts.instpos = (pos, some is)) (hi : ts'.instpos = pos)
      (hk : ts'.keys = ts.keys ∨ ts'.keys = (reweigh (r.load w) ts.inst).map InstState.key) :
      Changes r c ts (some is.tcs) ts'
  | weighed {ts' : TaskState} {w : ℕ → ℕ} (hw : c.Reads w) (hi : ts'.instpos = ts.instpos)
      (hk : ts'.keys = (reweigh (r.load w) ts.inst).map InstState.key) : Changes r c ts none ts'

lemma Changes.same (r : Registry) (c : Call) (ts : TaskState) : Changes r c ts none ts := .counted rfl rfl

lemma keys_counted {pos : ℕ} {is : InstState} (hg : ts.inst[pos]? = some is) (n : ℕ) :
    (ts.inst.set pos { is with count := n }).map InstState.key = ts.inst.map InstState.key := by
  refine List.ext_getElem? fun i => ?_
  rw [List.getElem?_map, List.getElem?_map, List.getElem?_set]
  split
  · next hi =>
    rw [← hi, hg, Option.map_some]
    split
    · rfl
    · next hout =>
      rw [List.getElem?_eq_none (by omega)] at hg
      simp at hg
  · rfl

lemma balanceCheck_task (r : Registry) (w : ℕ → ℕ) (ts : TaskState) (taskid : ℕ) :
    (r.balanceCheck w ts).1.task taskid = r.task taskid := by
  rw [task, (balanceCheck_shape r w ts).2.1]
  rfl

lemma charge_task {pos : ℕ} {is : InstState} (hts : r.task taskid = some ts) (hg : ts.inst[pos]? = some is) :
    (∃ ts', (r.charge w ts pos is).task taskid = some ts' ∧ ts'.instpos = pos ∧
      (ts'.keys = ts.keys ∨ ts'.keys = (reweigh (r.load w) ts.inst).map InstState.key)) ∧
    ∀ t, t ≠ taskid → (r.charge w ts pos is).task t = r.task t := by
  have hkeys := keys_counted hg (is.count + 1)
  have hid := (mem_of_task hts).2
  rw [charge]
  dsimp only
  split
  · rw [balanceCheck_inst]
    refine ⟨⟨_, task_setTask_self ((balanceCheck_task r w _ taskid).trans hts) rfl, rfl,
      Or.inr (reweigh_keys hkeys)⟩, ?_⟩
    intro t ht
    rw [task_setTask_ne (by dsimp only; rw [hid]; exact Ne.symm ht), balanceCheck_task]
  · refine ⟨⟨_, task_setTask_self hts rfl, rfl, Or.inl hkeys⟩, ?_⟩
    intro t ht
    exact task_setTask_ne (by dsimp only; rw [hid]; exact Ne.symm ht)

lemma charge_changes {pos : ℕ} {is : InstState} (hw : c.Reads w) (hts : r.task taskid = some ts)
    (h2 : 2 ≤ ts.inst.length) (hn : nextInst ts.inst ts.inst.length ts.instpos = (pos, some is)) :
    ∃ ts', (r.charge w ts pos is).task taskid = some ts' ∧ Changes r c ts (some is.tcs) ts' := by
  obtain ⟨⟨ts', ht, hi, hk⟩, -⟩ := charge_task (w := w) hts (nextInst_some hn)
  exact ⟨ts', ht, .picked hw h2 hn hi hk⟩

lemma Consistent.getTask_changes (h : Consistent r) (hp : Placed r) (hw : c.Reads w)
    (hts : r.task taskid = some ts) (t tcid : ℕ) :
    ∃ ts', (r.getTask w t tcid).2.task taskid = some ts' ∧
      Changes r c ts (if t = taskid ∧ tcid = 0 then (r.getTask w t tcid).1 else none) ts' := by
  have hsame : ∃ ts', r.task taskid = some ts' ∧ Changes r c ts none ts' := ⟨ts, hts, .same r c ts⟩
  rw [Registry.getTask]
  split
  · next hpos =>
    rw [if_neg (by omega)]
    exact hsame
  split
  swap
  · rw [ite_self]
    exact hsame
  · next hz =>
    cases ht : r.task t with
    | none =>
      dsimp only
      rw [ite_self]
      exact hsame
    | some ts₁ =>
      dsimp only
      have hpos := hp ts₁ (mem_of_task ht).1
      split
      · rw [ite_self]
        exact hsame
      · next is his =>
        by_cases heq : t = taskid ∧ tcid = 0
        · rw [if_pos heq]
          obtain ⟨rfl, -⟩ := heq
          obtain rfl := Option.some.inj (hts.symm.trans ht)
          exact ⟨ts, hts, .single his⟩
        · rw [if_neg heq]
          exact hsame
      · next hnil hone =>
        have h2 := two_le_length hnil hone
        rcases hn : nextInst ts₁.inst ts₁.inst.length ts₁.instpos with ⟨pos, _ | is⟩
        · dsimp only
          have hback := nextInst_none hpos hn
          rw [Nat.add_mod_right, Nat.mod_eq_of_lt hpos] at hback
          rw [hback, setTask_self h ht, ite_self]
          exact hsame
        · dsimp only
          by_cases heq : t = taskid ∧ tcid = 0
          · rw [if_pos heq]
            obtain ⟨rfl, -⟩ := heq
            obtain rfl := Option.some.inj (hts.symm.trans ht)
            exact charge_changes hw hts h2 hn
          · rw [if_neg heq]
            have hne : taskid ≠ t := by
              rintro rfl
              exact heq ⟨rfl, hz.2⟩
            refine ⟨ts, ?_, .same r c ts⟩
            rw [(charge_task ht (nextInst_some hn)).2 taskid hne]
            exact hts

lemma listTask_changes (is : InstState) (hw : is.weight = 0) (hs : is.shuttingDown = false)
    (hts : r.task taskid = some ts) (t : ℕ) :
    ∃ ts', (r.listTask t is).task taskid = some ts' ∧ Changes r c ts none ts' := by
  rw [listTask]
  cases ht : r.task t with
  | none =>
    refine ⟨ts, ?_, .same r c ts⟩
    dsimp only [task]
    rw [List.find?_append, show r.mTaskList.find? _ = some ts from hts]
    rfl
  | some ts₁ =>
    dsimp only
    by_cases heq : t = taskid
    · subst heq
      obtain rfl := Option.some.inj (hts.symm.trans ht)
      have hk : (ts.inst ++ [is]).map InstState.key = ts.keys ++ [(0, false, is.tcid, is.tcs)] := by
        rw [List.map_append, List.map_singleton, InstState.key, hw, hs]
        rfl
      exact ⟨_, task_setTask_self hts rfl, .added rfl hk⟩
    · refine ⟨ts, ?_, .same r c ts⟩
      rw [task_setTask_ne (by dsimp only; rw [(mem_of_task ht).2]; exact heq)]
      exact hts

/-- The registry after a call; one that does not come back leaves it as it was. -/
def after (r : Registry) (c : Call) : Registry := (r.call c).elim r Prod.snd

lemma after_eq {ok : Bool} (h : r.call c = some (ok, r')) : r.after c = r' := by
  rw [after, h]
  rfl

lemma after_registerTask (r : Registry) (t tcid task : ℕ) :
    r.after (.registerTask t tcid task) = r ∨ (t ≠ 0 ∧ ∃ tcs tc r₁, r.addTask tc t task = some (true, r₁) ∧
      r.after (.registerTask t tcid task) = r₁.listTask t ⟨0, 0, false, tcid, tcs⟩) := by
  rcases hcall : r.call (.registerTask t tcid task) with _ | ⟨ok, r'⟩
  · rw [after, hcall]
    exact Or.inl rfl
  · rw [after_eq hcall]
    obtain ⟨-, rfl⟩ | ⟨-, h0, tcs, e, r₁, -, -, ha, rfl⟩ := registerTask_inv hcall
    · exact Or.inl rfl
    · exact Or.inr ⟨h0, tcs, e.tc, r₁, ha, rfl⟩

lemma after_balanceCheck (r : Registry) (w : ℕ → ℕ) (t : ℕ) :
    (r.task t = none ∧ r.after (.balanceCheck w t) = r) ∨ ∃ ts, r.task t = some ts ∧
      r.after (.balanceCheck w t) = (r.balanceCheck w ts).1.setTask (r.balanceCheck w ts).2 := by
  cases ht : r.task t with
  | none =>
    have hcall : r.call (.balanceCheck w t) = some (true, r) := by simp only [call, ht]
    exact Or.inl ⟨rfl, after_eq hcall⟩
  | some ts =>
    have hcall : r.call (.balanceCheck w t) = some (true, (r.balanceCheck w ts).1.setTask (r.balanceCheck w ts).2) := by
      simp only [call, ht]
    exact Or.inr ⟨ts, rfl, after_eq hcall⟩

lemma Consistent.call_changes (h : Consistent r) (hp : Placed r) (c : Call) (hts : r.task taskid = some ts) :
    ∃ ts', (r.after c).task taskid = some ts' ∧ Changes r c ts (r.picks taskid c) ts' := by
  have hsame : ∀ {c}, ∃ ts', r.task taskid = some ts' ∧ Changes r c ts none ts' := ⟨ts, hts, .same r _ ts⟩
  cases c with
  | registerContainer tcid ptc =>
    change ∃ ts', (r.registerContainer tcid ptc).2.task taskid = some ts' ∧ _
    rw [Registry.registerContainer]
    split
    · exact hsame
    split <;> exact hsame
  | registerTask t tcid task =>
    obtain heq | ⟨-, tcs, tc, r₁, ha, heq⟩ := after_registerTask r t tcid task
    · rw [heq]
      exact hsame
    · have htask : r₁.task taskid = some ts := by
        rw [Registry.task, (h.addTask ha).2.2.2.2.1]
        exact hts
      obtain ⟨ts', hts', hch⟩ := listTask_changes (c := .registerTask t tcid task)
        ⟨0, 0, false, tcid, tcs⟩ rfl rfl htask t
      refine ⟨ts', heq ▸ hts', ?_⟩
      change Changes r _ ts none ts'
      cases hch with
      | counted hi hk => exact .counted hi hk
      | added hi hk => exact .added hi hk
      | weighed hw => exact hw.elim
  | getTask w t tcid => exact h.getTask_changes (c := .getTask w t tcid) hp rfl hts t tcid
  | balanceCheck w t =>
    obtain ⟨-, heq⟩ | ⟨ts₁, ht, heq⟩ := after_balanceCheck r w t
    · rw [heq]
      exact hsame
    · rw [heq, balanceCheck_inst]
      by_cases htid : t = taskid
      · subst htid
        obtain rfl := Option.some.inj (hts.symm.trans ht)
        exact ⟨_, task_setTask_self ((balanceCheck_task r w ts t).trans hts) rfl, .weighed rfl rfl rfl⟩
      · refine ⟨ts, ?_, .same r _ ts⟩
        rw [task_setTask_ne (by dsimp only; rw [(mem_of_task ht).2]; exact htid), balanceCheck_task]
        exact hts
  | add w msg =>
    change ∃ ts', (r.add w msg).2.task taskid = some ts' ∧ _
    rw [Registry.add, picks]
    split
    · next hb =>
      rw [if_neg (by simp [hb])]
      exact hsame
    split
    · next hb hm =>
      rw [if_neg (by simp [hm]), multicastMsgToTask]
      cases ht : r.task msg.tAddr.logAddr with
      | none => exact hsame
      | some ts₁ =>
        dsimp only
        by_cases heq : msg.tAddr.logAddr = taskid
        · subst heq
          obtain rfl := Option.some.inj (hts.symm.trans ht)
          refine ⟨_, task_setTask_self hts rfl, .counted rfl ?_⟩
          rw [TaskState.keys, TaskState.keys, List.map_map]
          rfl
        · refine ⟨ts, ?_, .same r _ ts⟩
          rw [task_setTask_ne (by dsimp only; rw [(mem_of_task ht).2]; exact heq)]
          exact hts
    · next hb hm =>
      rw [sendMsgToTask]
      split
      · next hnone =>
        rw [if_neg]
        · exact hsame
        · rintro ⟨-, -, rfl, -⟩
          rw [hts] at hnone
          simp at hnone
      · obtain ⟨ts', hts', hch⟩ := h.getTask_changes (c := .add w msg) hp rfl hts msg.tAddr.logAddr
          (TTaskSelector.containerid msg.tAddr.phyAddr)
        refine ⟨ts', hts', ?_⟩
        by_cases heq : msg.tAddr.logAddr = taskid ∧ TTaskSelector.containerid msg.tAddr.phyAddr = 0
        · rw [if_pos heq] at hch
          rw [if_pos ⟨hb, hm, heq⟩]
          rw [heq.1, heq.2] at hch
          exact hch
        · rw [if_neg heq] at hch
          rw [if_neg fun hall => heq hall.2.2]
          exact hch
  | addEvent msg => exact hsame

end Steps

section Serving

structure TaskState.Serving (ts : TaskState) : Prop where
  taskid : ts.taskid ≠ 0
  free : ∃ k ∈ ts.keys, k.1 = 0
  running : ∀ k ∈ ts.keys, k.2.1 = false

def Serving (r : Registry) : Prop := ∀ taskid ts, r.task taskid = some ts → ts.Serving

/-- The queue lengths that the call reads add up to less than `2 ^ 32 - 100` over the containers of any
task. -/
def Measured (r : Registry) (c : Call) : Prop :=
  ∀ w, c.Reads w → ∀ taskid ts, r.task taskid = some ts → (ts.inst.map (r.load w)).sum < 2 ^ 32 - 100

def MeasuredStep (r : Registry) (c : Call) (r' : Registry) : Prop := Measured r c ∧ ∃ ok, r.call c = some (ok, r')

lemma TaskState.Serving.ne_nil (h : ts.Serving) : ts.inst ≠ [] := by
  rintro hnil
  obtain ⟨k, hk, -⟩ := h.free
  rw [TaskState.keys, hnil] at hk
  simp at hk

lemma TaskState.Serving.of_keys (h : ts.Serving) (hid : ts'.taskid = ts.taskid) (hk : ts'.keys = ts.keys) :
    ts'.Serving :=
  ⟨hid ▸ h.taskid, hk ▸ h.free, hk ▸ h.running⟩

lemma TaskState.Serving.reweigh (h : ts.Serving) {loadOf : InstState → ℕ} (hid : ts'.taskid = ts.taskid)
    (hk : ts'.keys = (reweigh loadOf ts.inst).map InstState.key)
    (hsum : (ts.inst.map loadOf).sum < 2 ^ 32 - 100) : ts'.Serving := by
  by_cases h1 : ts.inst.length = 1
  · rw [Registry.reweigh, if_pos h1] at hk
    exact h.of_keys hid hk
  · refine ⟨hid ▸ h.taskid, ?_, ?_⟩
    · obtain ⟨is, his, hw⟩ := reweigh_free h1 h.ne_nil hsum
      rw [hk]
      exact ⟨is.key, List.mem_map_of_mem his, hw⟩
    · rw [hk, Registry.reweigh, if_neg h1, List.map_map]
      intro k hmem
      obtain ⟨is, his, rfl⟩ := List.mem_map.mp hmem
      exact h.running is.key (List.mem_map_of_mem his)

lemma Changes.serving {o : Option ℕ} (hch : Changes r c ts o ts') (h : ts.Serving) (hid : ts'.taskid = ts.taskid)
    (hm : ∀ w, c.Reads w → (ts.inst.map (r.load w)).sum < 2 ^ 32 - 100) : ts'.Serving := by
  cases hch with
  | counted _ hk => exact h.of_keys hid hk
  | added _ hk =>
    refine ⟨hid ▸ h.taskid, ?_, ?_⟩
    · rw [hk]
      exact ⟨_, List.mem_append_right _ List.mem_cons_self, rfl⟩
    · rw [hk]
      intro k hmem
      rcases List.mem_append.mp hmem with hmem | hmem
      · exact h.running k hmem
      · rw [List.mem_singleton.mp hmem]
  | single => exact h
  | picked hw _ _ _ hk =>
    rcases hk with hk | hk
    · exact h.of_keys hid hk
    · exact h.reweigh hid hk (hm _ hw)
  | weighed hw _ hk => exact h.reweigh hid hk (hm _ hw)

lemma task_eq_none : r.task taskid = none ↔ taskid ∉ r.places.map Prod.fst := by
  rw [task, List.find?_eq_none, places, List.map_map]
  constructor
  · rintro hall hmem
    obtain ⟨ts, hts, hid⟩ := List.mem_map.mp hmem
    exact hall ts hts (by simpa [TaskState.places] using hid)
  · intro hmem ts hts heq
    exact hmem (List.mem_map.mpr ⟨ts, hts, by simpa [TaskState.places] using heq⟩)

lemma task_none_of_shape (hs : SameShape r r') (hn : r.task taskid = none) : r'.task taskid = none := by
  rw [task_eq_none, hs.places, ← task_eq_none]
  exact hn

lemma Consistent.call_new (h : Consistent r) (hp : Placed r) (hn : r.task taskid = none)
    (hts : (r.after c).task taskid = some ts) : ts.Serving := by
  have hsame : r.task taskid = some ts → ts.Serving := fun he => by simp [hn] at he
  have hshape : SameShape r (r.after c) → ts.Serving := fun hs => by
    rw [task_none_of_shape hs hn] at hts
    simp at hts
  cases c with
  | registerContainer tcid ptc =>
    change (r.registerContainer tcid ptc).2.task taskid = some ts at hts
    rw [Registry.registerContainer] at hts
    split at hts
    · exact hsame hts
    split at hts <;> exact hsame hts
  | registerTask t tcid task =>
    obtain heq | ⟨hpos, tcs, tc, r₁, ha, heq⟩ := after_registerTask r t tcid task
    · rw [heq] at hts
      exact hsame hts
    · have hn₁ : r₁.task taskid = none := by
        rw [Registry.task, (h.addTask ha).2.2.2.2.1]
        exact hn
      rw [heq, Registry.listTask] at hts
      cases ht : r₁.task t with
      | none =>
        rw [ht] at hts
        dsimp only [Registry.task] at hts
        rw [List.find?_append, show r₁.mTaskList.find? _ = none from hn₁, Option.none_or] at hts
        obtain rfl := List.mem_singleton.mp (List.mem_of_find?_eq_some hts)
        exact ⟨hpos, ⟨_, List.mem_cons_self, rfl⟩, by simp [TaskState.keys, InstState.key]⟩
      | some ts₁ =>
        rw [ht] at hts
        dsimp only at hts
        rw [task_setTask, hn₁] at hts
        simp at hts
  | getTask w t tcid => exact hshape (h.getTask hp w t tcid).1
  | balanceCheck w t =>
    obtain ⟨-, heq⟩ | ⟨ts₁, ht, heq⟩ := after_balanceCheck r w t
    · rw [heq] at hts
      exact hsame hts
    · rw [heq, task_setTask, balanceCheck_task, hn] at hts
      simp at hts
  | add w msg => exact hshape (h.kept_add hp w msg).1
  | addEvent msg => exact hsame hts

structure Balanced (r : Registry) : Prop where
  consistent : Consistent r
  placed : Placed r
  serving : Serving r

lemma Consistent.after (h : Consistent r) (hp : Placed r) (c : Call) : Consistent (r.after c) ∧ Placed (r.after c) := by
  rcases hcall : r.call c with _ | ⟨ok, r'⟩
  · rw [Registry.after, hcall]
    exact ⟨h, hp⟩
  · have hkept := h.kept hp hcall
    rw [after_eq hcall]
    exact ⟨hkept.consistent, hkept.placed⟩

lemma Balanced.after (h : Balanced r) (hm : Measured r c) : Balanced (r.after c) := by
  obtain ⟨hc, hp⟩ := h.consistent.after h.placed c
  refine ⟨hc, hp, fun taskid ts' hts' => ?_⟩
  cases hts : r.task taskid with
  | none => exact h.consistent.call_new h.placed hts hts'
  | some ts =>
    obtain ⟨ts'', hts'', hch⟩ := h.consistent.call_changes h.placed c hts
    obtain rfl := Option.some.inj (hts''.symm.trans hts')
    refine hch.serving (h.serving taskid ts hts) ?_ fun w hw => hm w hw taskid ts hts
    rw [(mem_of_task hts').2, (mem_of_task hts).2]

lemma balanced_run {taskTable : ℕ → List (ℕ × ℕ)} {taskAmount instAmount : ℤ} {es : List Call}
    (h : Run MeasuredStep (new taskTable taskAmount instAmount) es r) : Balanced r := by
  refine h.invariant (I := fun _ r => Balanced r) ⟨new_consistent _ _ _, new_placed _ _ _, ?_⟩ ?_
  · intro taskid ts hts
    simp [task, new] at hts
  · rintro es r c r' hb ⟨hm, ok, hcall⟩
    exact after_eq hcall ▸ hb.after hm

lemma nextInst_free {inst : List InstState} {n p : ℕ} {is : InstState} {pos : ℕ}
    (h : nextInst inst n p = (pos, some is)) : is.weight = 0 := by
  induction n generalizing p with
  | zero => simp [nextInst] at h
  | succ n ih =>
    rw [nextInst] at h
    split at h
    · simp at h
    · split at h
      · next hfree =>
        simp only [Prod.mk.injEq, Option.some.injEq] at h
        exact h.2 ▸ hfree.1
      · exact ih h

lemma nextInst_blocked {inst : List InstState} {n p pos : ℕ} (hp : p < inst.length)
    (h : nextInst inst n p = (pos, none)) {k : ℕ} (hk : k < n) {is : InstState}
    (hg : inst[(p + 1 + k) % inst.length]? = some is) : ¬(is.weight = 0 ∧ !is.shuttingDown) := by
  induction n generalizing p k with
  | zero => omega
  | succ n ih =>
    have hnext : (if inst.length ≤ p + 1 then 0 else p + 1) = (p + 1) % inst.length := by
      split
      · rw [show p + 1 = inst.length by omega, Nat.mod_self]
      · rw [Nat.mod_eq_of_lt (by omega)]
    have hlt : (p + 1) % inst.length < inst.length := Nat.mod_lt _ (by omega)
    rw [nextInst, hnext, List.getElem?_eq_getElem hlt] at h
    dsimp only at h
    split at h
    · simp at h
    · next hblocked =>
      cases k with
      | zero =>
        rw [Nat.add_zero, List.getElem?_eq_getElem hlt] at hg
        exact Option.some.inj hg ▸ hblocked
      | succ k =>
        refine ih hlt h (by omega : k < n) ?_
        rw [Nat.add_assoc, Nat.mod_add_mod, Nat.add_comm 1 k]
        exact hg

lemma TaskState.Serving.chosen (h : ts.Serving) (hp : ts.instpos < ts.inst.length) :
    ∃ pos is, nextInst ts.inst ts.inst.length ts.instpos = (pos, some is) ∧ is ∈ ts.inst ∧ is.weight = 0 := by
  rcases hn : nextInst ts.inst ts.inst.length ts.instpos with ⟨pos, _ | is⟩
  · obtain ⟨k, hk, hfree⟩ := h.free
    have hrun := h.running k hk
    obtain ⟨is, his, rfl⟩ := List.mem_map.mp hk
    obtain ⟨j, hj, hget⟩ := List.getElem_of_mem his
    -- the loop reaches place `j` after `j - instpos - 1` steps, counted round the list
    obtain ⟨m, hm, hmod⟩ : ∃ m < ts.inst.length, (ts.instpos + 1 + m) % ts.inst.length = j := by
      by_cases hle : ts.instpos + 1 ≤ j
      · exact ⟨j - (ts.instpos + 1), by omega, by rw [Nat.add_sub_cancel' hle, Nat.mod_eq_of_lt hj]⟩
      · refine ⟨j + ts.inst.length - (ts.instpos + 1), by omega, ?_⟩
        rw [Nat.add_sub_cancel' (by omega), Nat.add_mod_right, Nat.mod_eq_of_lt hj]
    have hg : ts.inst[(ts.instpos + 1 + m) % ts.inst.length]? = some is := by
      rw [hmod, List.getElem?_eq_getElem hj, hget]
    refine absurd ⟨hfree, ?_⟩ (nextInst_blocked hp hn hm hg)
    rw [show is.shuttingDown = false from hrun]
    rfl
  · exact ⟨pos, is, rfl, List.mem_of_getElem? (nextInst_some hn), nextInst_free hn⟩

lemma Balanced.getTask_answers (h : Balanced r) (hts : r.task taskid = some ts) (w : ℕ → ℕ) :
    ∃ is ∈ ts.inst, (r.getTask w taskid 0).1 = some is.tcs ∧ (2 ≤ ts.inst.length → is.weight = 0) := by
  have hserving := h.serving taskid ts hts
  have hpos : 0 < taskid := by
    have := hserving.taskid
    rw [(mem_of_task hts).2] at this
    omega
  rw [Registry.getTask, if_neg (by omega), if_pos ⟨hpos, rfl⟩, hts]
  dsimp only
  split
  · next hnil => exact absurd hnil hserving.ne_nil
  · next is his => exact ⟨is, by simp [his], rfl, fun h2 => by simp [his] at h2⟩
  · obtain ⟨pos, is, hn, hmem, hw⟩ := hserving.chosen (h.placed ts (mem_of_task hts).1)
    rw [hn]
    exact ⟨is, hmem, rfl, fun _ => hw⟩

end Serving

section Rotation

def TaskState.pointers (ts : TaskState) : List ℕ := ts.inst.map InstState.tcs

lemma pointers_of_keys (ts : TaskState) : ts.pointers = ts.keys.map fun k => k.2.2.2 := by
  rw [TaskState.keys, List.map_map]
  rfl

def Unblocked (taskid n : ℕ) (r : Registry) : Prop :=
  ∃ ts, r.task taskid = some ts ∧ ts.inst.length = n ∧ ∀ is ∈ ts.inst, is.weight = 0

lemma reweigh_pointers (loadOf : InstState → ℕ) (inst : List InstState) :
    ((reweigh loadOf inst).map InstState.key).map (fun k => k.2.2.2) = inst.map InstState.tcs := by
  rw [reweigh]
  split <;> rw [List.map_map]
  · rfl
  · rw [List.map_map]
    rfl

lemma nextInst_unblocked {n p : ℕ} (hn : 0 < n) (hp : p < ts.inst.length)
    (hall : ∀ is ∈ ts.inst, is.weight = 0 ∧ !is.shuttingDown) {pos : ℕ} {is : InstState}
    (h : nextInst ts.inst n p = (pos, some is)) :
    pos = (p + 1) % ts.inst.length ∧ ts.inst[(p + 1) % ts.inst.length]? = some is := by
  have hnext : (if ts.inst.length ≤ p + 1 then 0 else p + 1) = (p + 1) % ts.inst.length := by
    split
    · rw [show p + 1 = ts.inst.length by omega, Nat.mod_self]
    · rw [Nat.mod_eq_of_lt (by omega)]
  have hlt : (p + 1) % ts.inst.length < ts.inst.length := Nat.mod_lt _ (by omega)
  obtain ⟨n, rfl⟩ := Nat.exists_eq_add_of_lt hn
  rw [Nat.zero_add, nextInst, hnext, List.getElem?_eq_getElem hlt] at h
  dsimp only at h
  rw [if_pos (hall _ (List.getElem_mem hlt)), Prod.mk.injEq, Option.some.injEq] at h
  exact ⟨h.1.symm, by rw [List.getElem?_eq_getElem hlt, h.2]⟩

lemma Changes.rotates {o : Option ℕ} (hch : Changes r c ts o ts') (hp : ts.instpos < ts.inst.length)
    (hrun : ts.Serving) (hall : ∀ is ∈ ts.inst, is.weight = 0) :
    o = none ∧ ts'.instpos = ts.instpos ∨
      o = ts.pointers[(ts.instpos + 1) % ts.inst.length]? ∧ o ≠ none ∧
        ts'.instpos = (ts.instpos + 1) % ts.inst.length := by
  cases hch with
  | counted hi _ => exact Or.inl ⟨rfl, hi⟩
  | added hi _ => exact Or.inl ⟨rfl, hi⟩
  | single h1 =>
    have hz : ts.instpos = 0 := by
      rw [h1, List.length_singleton] at hp
      omega
    refine Or.inr ⟨?_, by simp, ?_⟩
    · rw [TaskState.pointers, h1]
      simp [Nat.mod_one]
    · rw [h1, hz, List.length_singleton, Nat.mod_one]
  | picked hw h2 hn hi _ =>
    have hfree : ∀ is ∈ ts.inst, is.weight = 0 ∧ !is.shuttingDown := by
      intro is his
      have hdown : is.shuttingDown = false := hrun.running is.key (List.mem_map_of_mem his)
      exact ⟨hall is his, by rw [hdown]; rfl⟩
    obtain ⟨rfl, hg⟩ := nextInst_unblocked (by omega) hp hfree hn
    refine Or.inr ⟨?_, by simp, hi⟩
    rw [TaskState.pointers, List.getElem?_map, hg, Option.map_some]
  | weighed hw hi _ => exact Or.inl ⟨rfl, hi⟩

lemma Changes.pointers {o : Option ℕ} (hch : Changes r c ts o ts') (hlen : ts'.inst.length = ts.inst.length) :
    ts'.pointers = ts.pointers := by
  have hkeep : ts'.keys = ts.keys → ts'.pointers = ts.pointers := fun hk => by
    rw [pointers_of_keys, hk, ← pointers_of_keys]
  have hweigh : ∀ {w}, ts'.keys = (reweigh (r.load w) ts.inst).map InstState.key → ts'.pointers = ts.pointers :=
    fun hk => by rw [pointers_of_keys, hk]; exact reweigh_pointers _ _
  cases hch with
  | counted _ hk => exact hkeep hk
  | added _ hk =>
    have hl := congrArg List.length hk
    rw [List.length_append, length_keys, length_keys, List.length_singleton] at hl
    omega
  | single => rfl
  | picked _ _ _ _ hk => exact hk.elim hkeep hweigh
  | weighed _ _ hk => exact hweigh hk

def serve (taskid : ℕ) (r : Registry) (c : Call) : Option ℕ × Registry := (r.picks taskid c, r.after c)

def served (taskid : ℕ) (r : Registry) (calls : List Call) : List ℕ :=
  (runSteps (serve taskid) r calls).1.reduceOption

def Quiet (taskid n : ℕ) (r : Registry) (c : Call) : Prop := Measured r c ∧ Unblocked taskid n r

lemma served_cons (taskid : ℕ) (r : Registry) (c : Call) (calls : List Call) :
    served taskid r (c :: calls) = (r.picks taskid c).toList ++ served taskid (r.after c) calls := by
  rw [served, runSteps]
  cases hpick : r.picks taskid c with
  | none => simp only [serve, hpick, List.reduceOption_cons_of_none]; rfl
  | some p => simp only [serve, hpick, List.reduceOption_cons_of_some]; rfl

lemma served_rotation {calls : List Call} (h : Balanced r) (hts : r.task taskid = some ts)
    (hq : Along (serve taskid) (Quiet taskid ts.inst.length) r calls) {k p : ℕ}
    (hk : (served taskid r calls)[k]? = some p) :
    ts.pointers[(ts.instpos + 1 + k) % ts.inst.length]? = some p := by
  induction calls generalizing r ts k with
  | nil => simp [served, runSteps] at hk
  | cons c calls ih =>
    obtain ⟨⟨hm, ts₁, hts₁, -, hall⟩, hrest⟩ := hq
    obtain rfl := Option.some.inj (hts.symm.trans hts₁)
    obtain ⟨ts', hts', hch⟩ := h.consistent.call_changes h.placed c hts
    have hnext : ∀ j, (served taskid (r.after c) calls)[j]? = some p →
        ts.pointers[(ts'.instpos + 1 + j) % ts.inst.length]? = some p := by
      intro j hj
      cases calls with
      | nil => simp [served, runSteps] at hj
      | cons d calls =>
        obtain ⟨ts₂, hts₂, hlen, -⟩ := hrest.1.2
        obtain rfl := Option.some.inj (hts'.symm.trans hts₂)
        have := ih (h.after hm) hts' (by rw [hlen]; exact hrest) hj
        rwa [hlen, hch.pointers hlen] at this
    rw [served_cons] at hk
    rcases hch.rotates (h.placed ts (mem_of_task hts).1) (h.serving taskid ts hts) hall with
      ⟨ho, hi⟩ | ⟨ho, hne, hi⟩
    · rw [ho, Option.toList_none, List.nil_append] at hk
      rw [← hi]
      exact hnext k hk
    · obtain ⟨q, hpick⟩ := Option.ne_none_iff_exists'.mp hne
      rw [hpick, Option.toList_some, List.singleton_append] at hk
      cases k with
      | zero =>
        rw [List.getElem?_cons_zero] at hk
        rw [Nat.add_zero, ← ho, hpick, hk]
      | succ k =>
        rw [List.getElem?_cons_succ] at hk
        have := hnext k hk
        rwa [hi, Nat.add_assoc, Nat.mod_add_mod, Nat.add_comm 1 k] at this

lemma window_perm {l answers : List ℕ} {p i : ℕ}
    (h : ∀ k x, answers[k]? = some x → l[(p + k) % l.length]? = some x) (hi : i + l.length ≤ answers.length) :
    ((answers.drop i).take l.length).Perm l := by
  have hwindow : (answers.drop i).take l.length = l.rotate (p + i) := by
    refine List.ext_getElem ?_ fun k hk hk' => ?_
    · rw [List.length_take, List.length_drop, List.length_rotate]
      omega
    · have hlt : i + k < answers.length := by
        rw [List.length_rotate] at hk'
        omega
      have hget := h (i + k) _ (List.getElem?_eq_getElem hlt)
      rw [List.getElem?_eq_some_iff] at hget
      obtain ⟨hb, hget⟩ := hget
      rw [List.getElem_take, List.getElem_drop, List.getElem_rotate, ← hget]
      congr 2
      omega
  rw [hwindow]
  exact List.rotate_perm l (p + i)

lemma Consistent.pointers_nodup (h : Consistent r) (hts : ts ∈ r.mTaskList) : ts.pointers.Nodup := by
  have hp : ts.pointers = ts.places.2.map Prod.snd := by
    rw [TaskState.places, List.map_map]
    rfl
  rw [hp]
  refine List.Nodup.map_on (fun p hp q hq heq => ?_) (List.Nodup.of_map _ (h.once _ (places_mem hts)))
  obtain ⟨tc, htc, -⟩ := h.owner (places_mem hts) hp
  obtain ⟨tc', htc', -⟩ := h.owner (places_mem hts) hq
  rw [heq, htc'] at htc
  exact Prod.ext (congrArg Prod.fst (Option.some.inj htc)).symm heq

theorem balanced_and_fair {taskTable : ℕ → List (ℕ × ℕ)} {taskAmount instAmount : ℤ} {es : List Call} {r : Registry}
    {taskid : ℕ} {ts : TaskState} (hr : Run MeasuredStep (new taskTable taskAmount instAmount) es r) (hts : r.task taskid = some ts) :
    (∃ is ∈ ts.inst, is.weight = 0) ∧
    (∀ w, ∃ is ∈ ts.inst, (r.getTask w taskid 0).1 = some is.tcs ∧ (2 ≤ ts.inst.length → is.weight = 0)) ∧
    ts.pointers.Nodup ∧
    ∀ calls, Along (serve taskid) (Quiet taskid ts.inst.length) r calls →
      ∀ i, i + ts.inst.length ≤ (served taskid r calls).length →
        (((served taskid r calls).drop i).take ts.inst.length).Perm ts.pointers := by
  have h := balanced_run hr
  have hlen : ts.pointers.length = ts.inst.length := List.length_map _
  refine ⟨?_, h.getTask_answers hts, h.consistent.pointers_nodup (mem_of_task hts).1, ?_⟩
  · obtain ⟨k, hk, hw⟩ := (h.serving taskid ts hts).free
    obtain ⟨is, his, rfl⟩ := List.mem_map.mp hk
    exact ⟨is, his, hw⟩
  · intro calls hq i hi
    rw [← hlen] at hi ⊢
    refine window_perm (p := ts.instpos + 1) (fun k x hx => ?_) hi
    rw [hlen]
    exact served_rotation h hts hq hx

def pairCalls : List Call :=
  [.registerContainer 1 10, .registerContainer 2 20, .registerTask 7 1 5, .registerTask 7 2 5]

def pair : Registry := pairCalls.foldl after (new (fun _ => []) 0 0)

def pairTask : TaskState := ⟨7, 0, 0, 200, [⟨0, 0, false, 1, 0⟩, ⟨0, 0, false, 2, 1⟩]⟩

def pairQueues (tc : ℕ) : ℕ := if tc = 10 then 300 else 40

lemma pair_run : Run MeasuredStep (new (fun _ => []) 0 0) pairCalls pair :=
  .cons ⟨fun _ hw => hw.elim, true, rfl⟩ (.cons ⟨fun _ hw => hw.elim, true, rfl⟩
    (.cons ⟨fun _ hw => hw.elim, true, rfl⟩ (.cons ⟨fun _ hw => hw.elim, true, rfl⟩ .nil)))

lemma pair_quiet : Along (serve 7) (Quiet 7 2) pair (List.replicate 3 (.getTask pairQueues 7 0)) := by
  have hquiet : ∀ r : Registry, ∀ ts, r.mTaskList = [ts] → ts.taskid = 7 → ts.inst.length = 2 →
      (∀ is ∈ ts.inst, is.weight = 0) → (ts.inst.map (r.load pairQueues)).sum < 2 ^ 32 - 100 →
      Quiet 7 2 r (.getTask pairQueues 7 0) := by
    intro r ts hr hid hlen hall hsum
    refine ⟨?_, ts, by simp [task, hr, hid], hlen, hall⟩
    rintro w rfl taskid ts' hts'
    have := (mem_of_task hts').1
    rw [hr, List.mem_singleton] at this
    rw [this]
    exact hsum
  refine ⟨hquiet _ pairTask rfl rfl rfl (by decide) (by decide), hquiet _ _ rfl rfl rfl (by decide) (by decide),
    hquiet _ _ rfl rfl rfl (by decide) (by decide), trivial⟩

theorem balanced_and_fair_pair : (∃ is ∈ pairTask.inst, is.weight = 0) ∧
    (((served 7 pair (List.replicate 3 (.getTask pairQueues 7 0))).drop 1).take 2).Perm [0, 1] := by
  obtain ⟨hfree, -, -, hfair⟩ := balanced_and_fair pair_run (show pair.task 7 = some pairTask from rfl)
  exact ⟨hfree, hfair _ pair_quiet 1 (by decide)⟩

end Rotation

end Xframe.Kernel.Registry
