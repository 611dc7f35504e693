import Xframe.Kernel.SelectorInv

/-! Session affinity: where the dispatcher sends the later messages of a session that a task instance
was created for. -/

namespace Xframe.Kernel

open Xframe.Comserv Xframe.Msg Xframe.Lib

/-- The balancer's next free instance, counted from the one behind `instpos`, is in container `c`. A
task with one instance has no choice. -/
def TaskState.NextFree (ts : TaskState) (c : ℕ) : Prop :=
  (∃ is, ts.inst = [is] ∧ is.tcid = c) ∨
    (2 ≤ ts.inst.length ∧ ∃ k < ts.inst.length, ∃ is,
      ts.inst[(ts.instpos + 1 + k) % ts.inst.length]? = some is ∧ is.free ∧ is.tcid = c ∧
      ∀ j < k, ∀ is', ts.inst[(ts.instpos + 1 + j) % ts.inst.length]? = some is' → is'.free = false)

namespace TTaskSelector

variable {s s' : TTaskSelector} {o : Outside} {sid : SessionId} {tk : TaskKey} {taskid tcid : ℕ}

lemma nextInst_iff {inst : List InstState} {n p pos : ℕ} {is : InstState} (hp : p < inst.length) :
    nextInst inst n p = some (pos, is) ↔ ∃ k < n, pos = (p + 1 + k) % inst.length ∧
      inst[(p + 1 + k) % inst.length]? = some is ∧ is.free ∧
      ∀ j < k, ∀ is', inst[(p + 1 + j) % inst.length]? = some is' → is'.free = false := by
  induction n generalizing p with
  | zero => simp [nextInst]
  | succ n ih =>
    have hpos : (if inst.length ≤ p + 1 then 0 else p + 1) = (p + 1) % inst.length := by
      split
      · have : p + 1 = inst.length := by omega
        rw [this, Nat.mod_self]
      · rw [Nat.mod_eq_of_lt (by omega)]
    have hlt : (p + 1) % inst.length < inst.length := Nat.mod_lt _ (by omega)
    have hshift : ∀ k, ((p + 1) % inst.length + 1 + k) % inst.length = (p + 1 + (k + 1)) % inst.length := by
      intro k
      rw [Nat.add_assoc, Nat.mod_add_mod, Nat.add_comm 1 k]
    obtain ⟨is0, h0⟩ : ∃ is0, inst[(p + 1) % inst.length]? = some is0 :=
      ⟨inst[(p + 1) % inst.length], List.getElem?_eq_getElem hlt⟩
    rw [nextInst, hpos]
    simp only [h0]
    cases hf : is0.free with
    | true =>
      constructor
      · intro h
        simp only [if_true, Option.some.injEq, Prod.mk.injEq] at h
        obtain ⟨rfl, rfl⟩ := h
        exact ⟨0, by omega, rfl, h0, hf, by omega⟩
      · rintro ⟨k, -, rfl, hk, -, hprev⟩
        cases k with
        | zero =>
          rw [Nat.add_zero, h0, Option.some.injEq] at hk
          simp [hk]
        | succ k =>
          have := hprev 0 (by omega) is0 h0
          simp [hf] at this
    | false =>
      simp only [Bool.false_eq_true, if_false]
      rw [ih hlt]
      simp only [hshift]
      constructor
      · rintro ⟨k, hk, h1, h2, h3, h4⟩
        refine ⟨k + 1, by omega, h1, h2, h3, ?_⟩
        intro j hj is' his
        cases j with
        | zero =>
          rw [Nat.add_zero, h0, Option.some.injEq] at his
          exact his ▸ hf
        | succ j => exact h4 j (by omega) is' his
      · rintro ⟨k, hk, h1, h2, h3, h4⟩
        cases k with
        | zero =>
          rw [Nat.add_zero, h0, Option.some.injEq] at h2
          rw [← h2, hf] at h3
          simp at h3
        | succ k => exact ⟨k, by omega, h1, h2, h3, fun j hj => h4 (j + 1) (by omega)⟩

lemma getTask_zero {ts : TaskState} (hts : s.task taskid = some ts) (hok : ts.Ok) (c : ℕ) :
    (s.getTask o taskid 0).1 = some c ↔ ts.NextFree c := by
  have ht : 0 < taskid := by
    have := hok.1
    rw [(task_mem hts).2] at this
    omega
  rw [getTask, if_neg (by simp), if_pos ht, hts, TaskState.NextFree]
  dsimp only
  split
  · rename_i hnil
    simp [hnil]
  · rename_i is his
    simp [his]
  · rename_i h1 h2
    have hlen := two_le_length h1 h2
    have hone : ¬∃ is, ts.inst = [is] ∧ is.tcid = c := by
      rintro ⟨is, his, -⟩
      exact h2 is his
    rw [or_iff_right hone, and_iff_right hlen]
    cases hn : nextInst ts.inst ts.inst.length ts.instpos with
    | none =>
      simp only [reduceCtorEq, false_iff]
      rintro ⟨k, hk, is, h3, h4, -, h5⟩
      have := (nextInst_iff hok.2.1).mpr ⟨k, hk, rfl, h3, h4, h5⟩
      simp [hn] at this
    | some x =>
      obtain ⟨pos, is⟩ := x
      obtain ⟨k, hk, hpos, h3, h4, h5⟩ := (nextInst_iff hok.2.1).mp hn
      simp only [Option.some.injEq]
      constructor
      · intro hc
        exact ⟨k, hk, is, h3, h4, hc, h5⟩
      · rintro ⟨k', hk', is', h3', h4', hc, h5'⟩
        have := (nextInst_iff hok.2.1).mpr ⟨k', hk', rfl, h3', h4', h5'⟩
        rw [hn] at this
        simp only [Option.some.injEq, Prod.mk.injEq] at this
        rw [this.2]
        exact hc

lemma restoreSession_fields (s : TTaskSelector) (o : Outside) (msg : TUniNetMsg) :
    (s.restoreSession o msg).1.dialogType = msg.dialogType ∧
      (s.restoreSession o msg).1.tAddr.logAddr = msg.tAddr.logAddr := by
  rw [restoreSession]
  split
  · exact ⟨rfl, rfl⟩
  split
  · exact ⟨rfl, rfl⟩
  split <;> exact ⟨rfl, rfl⟩

lemma enterDialog_fields (s : TTaskSelector) (o : Outside) (msg : TUniNetMsg) :
    (s.enterDialog o msg).1.dialogType = msg.dialogType ∧
      (s.enterDialog o msg).1.tAddr.logAddr = msg.tAddr.logAddr := by
  rw [enterDialog]
  split
  · exact s.restoreSession_fields o msg
  · exact ⟨rfl, rfl⟩

lemma enterDialog_begin (s : TTaskSelector) (o : Outside) (msg : TUniNetMsg)
    (h : msg.dialogType = dialogBegin) : s.enterDialog o msg = (msg, s) := by
  rw [enterDialog, if_neg (by simp [h])]

lemma deliver_inside {msg : TUniNetMsg} (h : msg.dialogType ≠ dialogBegin) :
    s.deliver o tcid msg = (msg, s) := by
  rw [deliver, if_neg (by simp [h])]

lemma sendMsgToTask_cases (s : TTaskSelector) (o : Outside) (msg : TUniNetMsg) :
    (s.task msg.tAddr.logAddr = none ∧ s.sendMsgToTask o msg = (false, [], s)) ∨
    ∃ m₁ s₁ r s₂, (s.task msg.tAddr.logAddr).isSome ∧ s.enterDialog o (localAddr msg) = (m₁, s₁) ∧
      s₁.getTask o m₁.tAddr.logAddr (containerid msg.tAddr.phyAddr) = (r, s₂) ∧
      ((r = none ∧ s.sendMsgToTask o msg = (false, [], s₂)) ∨
        ∃ c m₂ s₃, r = some c ∧ s₂.deliver o c m₁ = (m₂, s₃) ∧ s.sendMsgToTask o msg =
          (true, [.enqueue c (.uniNet m₂)], { s₃ with sendMsgToTaskCount := s₃.sendMsgToTaskCount + 1 })) := by
  rw [sendMsgToTask]
  cases ht : s.task msg.tAddr.logAddr with
  | none => exact Or.inl ⟨rfl, rfl⟩
  | some ts =>
    right
    rw [if_neg (by simp)]
    cases hen : s.enterDialog o (localAddr msg) with
    | mk m₁ s₁ =>
      cases hg : s₁.getTask o m₁.tAddr.logAddr (containerid msg.tAddr.phyAddr) with
      | mk r s₂ =>
        refine ⟨m₁, s₁, r, s₂, rfl, rfl, hg, ?_⟩
        dsimp only
        rw [hg]
        cases r with
        | none => exact Or.inl ⟨rfl, rfl⟩
        | some c =>
          cases hd : s₂.deliver o c m₁ with
          | mk m₂ s₃ => exact Or.inr ⟨c, m₂, s₃, rfl, hd, by dsimp only; rw [hd]⟩

lemma Inv.sendMsgToTask (h : Inv s) (o : Outside) (msg : TUniNetMsg) : Inv (s.sendMsgToTask o msg).2.2 := by
  rcases s.sendMsgToTask_cases o msg with ⟨-, he⟩ | ⟨m₁, s₁, r, s₂, -, hen, hg, hr⟩
  · exact he ▸ h
  have h1 := h.enterDialog o (localAddr msg)
  rw [hen] at h1
  have h2 := h1.getTask o m₁.tAddr.logAddr (containerid msg.tAddr.phyAddr)
  rw [hg] at h2
  rcases hr with ⟨-, he⟩ | ⟨c, m₂, s₃, rfl, hd, he⟩
  · exact he ▸ h2
  · have hc : c ≠ 0 := h1.getTask_ne_zero (congrArg Prod.fst hg)
    have h3 := h2.deliver (o := o) hc m₁
    rw [hd] at h3
    rw [he]
    exact h3.keepDialogs h3.containers h3.tasks rfl rfl

lemma Inv.findDialog_send (h : Inv s) {msg : TUniNetMsg} {tk' : TaskKey} (hk : s.findDialog sid = some tk)
    (hk' : (s.sendMsgToTask o msg).2.2.findDialog sid = some tk') : tk' = tk := by
  rcases s.sendMsgToTask_cases o msg with ⟨-, he⟩ | ⟨m₁, s₁, r, s₂, -, hen, hg, hr⟩
  · rw [he] at hk'
    exact Option.some.inj (hk'.symm.trans hk)
  have hdlg : s₂.findDialog sid = s₁.findDialog sid := by
    have := s₁.getTask_dialogs o m₁.tAddr.logAddr (containerid msg.tAddr.phyAddr) sid
    rwa [hg] at this
  have htype := (s.enterDialog_fields o (localAddr msg)).1
  rw [hen] at htype
  by_cases hb : msg.dialogType = dialogBegin
  · rw [enterDialog_begin s o (localAddr msg) hb, Prod.mk.injEq] at hen
    obtain ⟨rfl, rfl⟩ := hen
    rw [hk] at hdlg
    have h2 := h.getTask o (localAddr msg).tAddr.logAddr (containerid msg.tAddr.phyAddr)
    rw [hg] at h2
    rcases hr with ⟨-, he⟩ | ⟨c, m₂, s₃, -, hd, he⟩
    · rw [he] at hk'
      exact Option.some.inj (hk'.symm.trans hdlg)
    · have h3 := h2.findDialog_deliver o c (localAddr msg) hdlg
      rw [hd] at h3
      rw [he] at hk'
      cases sid <;> exact Option.some.inj (hk'.symm.trans h3)
  · have hback : s₂.findDialog sid = some tk' → tk' = tk := by
      intro h2
      have h1 : (s.enterDialog o (localAddr msg)).2.findDialog sid = some tk' := by
        rw [hen, ← hdlg, h2]
      exact Option.some.inj ((findDialog_of_enter h1).symm.trans hk)
    rcases hr with ⟨-, he⟩ | ⟨c, m₂, s₃, -, hd, he⟩
    · rw [he] at hk'
      exact hback hk'
    · rw [deliver_inside (htype ▸ hb), Prod.mk.injEq] at hd
      obtain ⟨rfl, rfl⟩ := hd
      rw [he] at hk'
      refine hback ?_
      cases sid <;> exact hk'

inductive Op where
  | registerContainer (tcid : ℕ)
  | registerTask (taskid tcid : ℕ)
  | setRecycleTime (ct : ℤ)
  | setCurrentTime (t : ℤ)
  | add (o : Outside) (msg : TUniNetMsg)
  | addEvent (msg : TEventMsg)

def apply (s : TTaskSelector) : Op → TTaskSelector
  | .registerContainer tcid => (s.registerContainer tcid).2
  | .registerTask taskid tcid => (s.registerTask taskid tcid).2
  | .setRecycleTime ct => s.setRecycleTime ct
  | .setCurrentTime t => s.setCurrentTime t
  | .add o msg => (s.add o msg).2.2
  | .addEvent _ => s

lemma multicast_dialogs (s : TTaskSelector) (msg : TUniNetMsg) :
    (s.multicastMsgToTask msg).2.2.findDialog sid = s.findDialog sid := by
  rw [multicastMsgToTask]
  split <;> cases sid <;> rfl

lemma Inv.multicast (h : Inv s) (msg : TUniNetMsg) : Inv (s.multicastMsgToTask msg).2.2 := by
  rw [multicastMsgToTask]
  split
  · exact h
  · rename_i ts hts
    obtain ⟨h1, h2, h3⟩ := h.tasks ts (task_mem hts).1
    have hok : TaskState.Ok { ts with inst := ts.inst.map fun is =>
        { is with count := if 0 < is.tcid then is.count + 1 else is.count } } := by
      refine ⟨h1, by simpa using h2, ?_⟩
      intro is his
      obtain ⟨is', his', rfl⟩ := List.mem_map.mp his
      exact h3 is' his'
    have hset := h.setTask hok
    exact hset.keepDialogs hset.containers hset.tasks rfl rfl

lemma Inv.apply (h : Inv s) (op : Op) : Inv (s.apply op) := by
  cases op with
  | registerContainer tcid => exact h.registerContainer tcid
  | registerTask taskid tcid => exact h.registerTask taskid tcid
  | setRecycleTime ct =>
    refine ⟨h.containers, h.tasks, ?_, h.unlimited⟩
    intro sid tk hk
    cases sid with
    | int sid => exact h.dialogs (.int sid) tk hk
    | str ssid => exact h.dialogs (.str ssid) tk hk
  | setCurrentTime t => exact h.keepDialogs h.containers h.tasks rfl rfl
  | add o msg =>
    rw [TTaskSelector.apply, TTaskSelector.add]
    split
    · exact h.keepDialogs h.containers h.tasks rfl rfl
    split
    · exact h.multicast msg
    · exact h.sendMsgToTask o msg
  | addEvent msg => exact h

lemma Inv.findDialog_apply (h : Inv s) {tk' : TaskKey} (op : Op) (hk : s.findDialog sid = some tk)
    (hk' : (s.apply op).findDialog sid = some tk') : tk' = tk := by
  have hsame : (s.apply op).findDialog sid = s.findDialog sid → tk' = tk := fun he =>
    Option.some.inj (hk'.symm.trans (he.trans hk))
  cases op with
  | registerContainer tcid =>
    refine hsame ?_
    rw [TTaskSelector.apply, TTaskSelector.registerContainer]
    split_ifs <;> cases sid <;> rfl
  | registerTask taskid tcid =>
    refine hsame ?_
    rw [TTaskSelector.apply, TTaskSelector.registerTask]
    split
    · rfl
    split
    · rfl
    split
    · rfl
    dsimp only
    split <;> cases sid <;> rfl
  | setRecycleTime ct => exact hsame (by cases sid <;> rfl)
  | setCurrentTime t => exact hsame (by cases sid <;> rfl)
  | add o msg =>
    rw [TTaskSelector.apply, TTaskSelector.add] at hk' hsame
    split at hk'
    · rename_i hb
      rw [if_pos hb] at hsame
      exact hsame (by cases sid <;> rfl)
    split at hk'
    · rename_i hb hm
      rw [if_neg hb, if_pos hm] at hsame
      exact hsame (s.multicast_dialogs msg)
    · exact h.findDialog_send hk hk'
  | addEvent msg => exact hsame rfl

structure Begins (s : TTaskSelector) (o : Outside) (msg : TUniNetMsg) (sid : SessionId) (c i : ℕ)
    (s' : TTaskSelector) : Prop where
  type : msg.dialogType = dialogBegin
  fresh : msg.tAddr.taskInstID = 0
  session : sessionId msg = some sid
  created : ∃ msg', s.sendMsgToTask o msg = (true, [.enqueue c (.uniNet msg')], s') ∧
    msg'.tAddr.taskInstID = i
  pos : 0 < i

structure Follows (msg : TUniNetMsg) (taskid : ℕ) (sid : SessionId) : Prop where
  type : msg.dialogType ≠ dialogBegin
  task : msg.tAddr.logAddr = taskid
  session : sessionId msg = some sid
  noContainer : containerid msg.tAddr.phyAddr = 0

def Reaches (s : TTaskSelector) (o : Outside) (msg : TUniNetMsg) (c i : ℕ) : Prop :=
  ∃ msg', (s.sendMsgToTask o msg).2.1 = [.enqueue c (.uniNet msg')] ∧ msg'.tAddr.taskInstID = i

def Step (s : TTaskSelector) (op : Op) (s' : TTaskSelector) : Prop := s' = s.apply op

def Alive (sid : SessionId) (s : TTaskSelector) (op : Op) (s' : TTaskSelector) : Prop :=
  Step s op s' ∧ (s'.findDialog sid).isSome

lemma Begins.find {msg : TUniNetMsg} {c i : ℕ} (h : Inv s) (hb : Begins s o msg sid c i s') :
    Inv s' ∧ s'.findDialog sid = some ((s.findDialog sid).getD ⟨c, i⟩) := by
  obtain ⟨msg', hsend, hi⟩ := hb.created
  have hinv := h.sendMsgToTask o msg
  rw [hsend] at hinv
  refine ⟨hinv, ?_⟩
  rcases s.sendMsgToTask_cases o msg with ⟨-, he⟩ | ⟨m₁, s₁, r, s₂, -, hen, hg, hr⟩
  · rw [he] at hsend
    simp at hsend
  rw [enterDialog_begin s o (localAddr msg) hb.type, Prod.mk.injEq] at hen
  obtain ⟨rfl, rfl⟩ := hen
  have hdlg := s.getTask_dialogs o (localAddr msg).tAddr.logAddr (containerid msg.tAddr.phyAddr) sid
  have h2 := h.getTask o (localAddr msg).tAddr.logAddr (containerid msg.tAddr.phyAddr)
  rw [hg] at hdlg h2
  rcases hr with ⟨-, he⟩ | ⟨d, m₂, s₃, -, hd, he⟩
  · rw [he] at hsend
    simp at hsend
  rw [he] at hsend
  simp only [Prod.mk.injEq, true_and, List.cons.injEq, Effect.enqueue.injEq, TMsg.uniNet.injEq,
    and_true] at hsend
  obtain ⟨⟨rfl, rfl⟩, rfl⟩ := hsend
  have hcond : (localAddr msg).dialogType = dialogBegin ∧ (localAddr msg).tAddr.taskInstID = 0 :=
    ⟨hb.type, hb.fresh⟩
  rw [deliver, if_pos hcond] at hd
  dsimp only at hd
  have hsid : ∀ a, sessionId { localAddr msg with tAddr := a } = some sid := fun _ => hb.session
  rw [hsid, Prod.mk.injEq] at hd
  obtain ⟨rfl, rfl⟩ := hd
  dsimp only at hi
  rw [hi]
  have hfind := h2.findDialog_push (o := o) sid sid ⟨d, i⟩
  rw [hdlg] at hfind
  refine Eq.trans (by cases sid <;> rfl) (hfind.trans ?_)
  cases s.findDialog sid <;> simp

lemma follow_find {es : List Op} (h : Inv s) (hk : s.findDialog sid = some tk)
    (hr : Run (Alive sid) s es s') : Inv s' ∧ s'.findDialog sid = some tk := by
  refine hr.invariant (I := fun _ t => Inv t ∧ t.findDialog sid = some tk) ⟨h, hk⟩ ?_
  rintro es t op u ⟨hi, hf⟩ ⟨rfl, hsome⟩
  obtain ⟨tk', hk'⟩ := Option.isSome_iff_exists.mp hsome
  exact ⟨hi.apply op, by rw [hk', hi.findDialog_apply op hf hk']⟩

lemma restoreSession_known {msg : TUniNetMsg} (hs : sessionId msg = some sid)
    (hk : s.findDialog sid = some tk) (hc : tk.tcid ≠ 0) :
    (s.restoreSession o msg).1.tAddr.taskInstID =
      if tk.tiid = 0 then msg.tAddr.taskInstID else tk.tiid := by
  rw [restoreSession, hs]
  dsimp only
  rw [hk]
  by_cases hi : tk.tiid = 0
  · rw [if_pos hi]
    dsimp only
    rw [if_neg (by omega)]
  · rw [if_neg hi]
    dsimp only
    rw [if_pos (by omega)]

lemma hasSession_of {msg : TUniNetMsg} (h : sessionId msg = some sid) : hasSession msg = true := by
  rw [sessionId] at h
  rw [hasSession]
  cases hh : msg.ctrlMsgHdr with
  | none => simp [hh] at h
  | some hdr =>
    rw [hh] at h
    dsimp only at h ⊢
    by_contra hn
    rw [if_neg hn] at h
    simp at h

lemma enterDialog_task (s : TTaskSelector) (o : Outside) (msg : TUniNetMsg) (taskid : ℕ) :
    (s.enterDialog o msg).2.task taskid = s.task taskid := by
  rw [enterDialog]
  split
  · rcases s.restoreSession_state o msg with he | ⟨sid, he⟩
    · rw [he]
      rfl
    · rw [he]
      cases sid <;> rfl
  · rfl

lemma Follows.reaches_iff {msg : TUniNetMsg} {c i : ℕ} (h : Inv s) (hf : Follows msg taskid sid)
    (hk : s.findDialog sid = some tk) :
    Reaches s o msg c i ↔ (if tk.tiid = 0 then msg.tAddr.taskInstID else tk.tiid) = i ∧
      ∃ ts, s.task taskid = some ts ∧ ts.NextFree c := by
  obtain rfl := hf.task
  rw [Reaches]
  rcases s.sendMsgToTask_cases o msg with ⟨ht, he⟩ | ⟨m₁, s₁, r, s₂, ht, hen, hg, hr⟩
  · rw [he, ht]
    simp
  obtain ⟨ts, hts⟩ := Option.isSome_iff_exists.mp ht
  have hsid : sessionId (localAddr msg) = some sid := hf.session
  have hphy : (localAddr msg).tAddr.phyAddr = 0 := hf.noContainer
  have hcond : (localAddr msg).dialogType ≠ dialogBegin ∧ (localAddr msg).tAddr.phyAddr = 0 ∧
      hasSession (localAddr msg) = true := ⟨hf.type, hphy, hasSession_of hsid⟩
  have htype : m₁.dialogType ≠ dialogBegin := by
    have := (s.enterDialog_fields o (localAddr msg)).1
    rw [hen] at this
    exact this ▸ hf.type
  have hlog : m₁.tAddr.logAddr = msg.tAddr.logAddr := by
    have := (s.enterDialog_fields o (localAddr msg)).2
    rwa [hen] at this
  have hinst : m₁.tAddr.taskInstID = if tk.tiid = 0 then msg.tAddr.taskInstID else tk.tiid := by
    have := s.restoreSession_known (o := o) hsid hk (h.dialogs sid tk hk)
    rw [enterDialog, if_pos hcond, Prod.mk.injEq] at hen
    rwa [hen.1] at this
  have hts₁ : s₁.task msg.tAddr.logAddr = some ts := by
    have := s.enterDialog_task o (localAddr msg) msg.tAddr.logAddr
    rw [hen] at this
    exact this.trans hts
  have hok := h.tasks ts (task_mem hts).1
  have hnext := getTask_zero (o := o) hts₁ hok c
  rw [hf.noContainer, hlog] at hg
  rw [hg] at hnext
  rw [hts, ← hinst]
  simp only [Option.some.injEq, exists_eq_left']
  rw [← hnext]
  rcases hr with ⟨rfl, he⟩ | ⟨d, m₂, s₃, rfl, hd, he⟩
  · rw [he]
    simp
  · rw [deliver_inside htype, Prod.mk.injEq] at hd
    obtain ⟨rfl, rfl⟩ := hd
    rw [he]
    simp only [List.cons.injEq, Effect.enqueue.injEq, TMsg.uniNet.injEq, and_true, Option.some.injEq]
    constructor
    · rintro ⟨msg', ⟨rfl, rfl⟩, hi⟩
      exact ⟨hi, rfl⟩
    · rintro ⟨hi, rfl⟩
      exact ⟨m₁, ⟨rfl, rfl⟩, hi⟩

theorem affinity_iff {s₀ s₁ s : TTaskSelector} {o o' : Outside} {b m : TUniNetMsg} {sid : SessionId}
    {c i : ℕ} {es fs : List Op} (h₀ : Run Step new es s₀) (hb : Begins s₀ o b sid c i s₁)
    (hr : Run (Alive sid) s₁ fs s) (hm : Follows m b.tAddr.logAddr sid) :
    Reaches s o' m c i ↔
      (∀ tk, s₀.findDialog sid = some tk → (if tk.tiid = 0 then m.tAddr.taskInstID else tk.tiid) = i) ∧
        ∃ ts, s.task b.tAddr.logAddr = some ts ∧ ts.NextFree c := by
  have hinv : Inv s₀ := h₀.invariant (I := fun _ t => Inv t) inv_new
    fun _ t op u hi hs => by rw [show u = t.apply op from hs]; exact hi.apply op
  obtain ⟨h₁, hk₁⟩ := hb.find hinv
  obtain ⟨hs, hk⟩ := follow_find h₁ hk₁ hr
  rw [hm.reaches_iff hs hk]
  refine and_congr_left fun _ => ?_
  cases hold : s₀.findDialog sid with
  | none =>
    have := hb.pos
    simp
    omega
  | some tk => simp

def sessionMsg (dialogType : ℕ) : TUniNetMsg :=
  ⟨⟨0, 0, 0⟩, ⟨7, 0, 0⟩, dialogType, 0, 0, none, none, some ⟨true, 9, none, none⟩, none⟩

def quiet : Outside := ⟨0, fun _ => 0, fun _ _ => 5⟩

def oneHost : List Op := [.registerContainer 1, .registerTask 7 1]

def twoHosts : List Op := oneHost ++ [.registerContainer 2, .registerTask 7 2]

lemma run_foldl (es : List Op) : Run Step s es (es.foldl apply s) := by
  induction es generalizing s with
  | nil => exact .nil
  | cons e es ih => exact Run.cons rfl ih

lemma begins_oneHost : Begins (oneHost.foldl apply new) quiet (sessionMsg dialogBegin) (.int 9) 1 5
    ((oneHost.foldl apply new).sendMsgToTask quiet (sessionMsg dialogBegin)).2.2 :=
  ⟨rfl, rfl, rfl, ⟨_, rfl, rfl⟩, by decide⟩

lemma begins_twoHosts : Begins (twoHosts.foldl apply new) quiet (sessionMsg dialogBegin) (.int 9) 2 5
    ((twoHosts.foldl apply new).sendMsgToTask quiet (sessionMsg dialogBegin)).2.2 :=
  ⟨rfl, rfl, rfl, ⟨_, rfl, rfl⟩, by decide⟩

lemma follows_sessionMsg : Follows (sessionMsg dialogContinue) 7 (.int 9) :=
  ⟨by decide, rfl, rfl, by decide⟩

theorem affinity_one_host : Reaches
    ((oneHost.foldl apply new).sendMsgToTask quiet (sessionMsg dialogBegin)).2.2 quiet
      (sessionMsg dialogContinue) 1 5 := by
  refine (affinity_iff (run_foldl oneHost) begins_oneHost .nil follows_sessionMsg).mpr ⟨?_, ?_⟩
  · intro tk htk
    have : (oneHost.foldl apply new).findDialog (.int 9) = none := rfl
    rw [this] at htk
    simp at htk
  · exact ⟨_, rfl, Or.inl ⟨_, rfl, rfl⟩⟩

theorem session_leaves_container : ¬∀ (s₀ s₁ s : TTaskSelector) (o o' : Outside) (b m : TUniNetMsg)
    (sid : SessionId) (c i : ℕ) (es fs : List Op), Run Step new es s₀ → Begins s₀ o b sid c i s₁ →
    Run (Alive sid) s₁ fs s → Follows m b.tAddr.logAddr sid → Reaches s o' m c i := by
  intro h
  obtain ⟨msg, hmsg, -⟩ := h _ _ _ quiet quiet _ _ _ _ _ twoHosts [] (run_foldl twoHosts)
    begins_twoHosts .nil follows_sessionMsg
  have hsent : (((twoHosts.foldl apply new).sendMsgToTask quiet
      (sessionMsg dialogBegin)).2.2.sendMsgToTask quiet (sessionMsg dialogContinue)).2.1 =
      [.enqueue 1 (.uniNet { sessionMsg dialogContinue with tAddr := ⟨7, 2, 5⟩ })] := rfl
  rw [hsent] at hmsg
  simp at hmsg

end TTaskSelector

end Xframe.Kernel
