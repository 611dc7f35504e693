import Xframe.Transport.Moves

/-! What holds of each side and of the messages on the wire in every run, whatever expires. -/

namespace Xframe.Transport

open Xframe.Comserv Xframe.Msg Xframe.Lib

structure PartyInv (side : Side) (p : Party) : Prop where
  limit : p.machine.mTSState.countMax = 0
  ok : ∀ i st, p.machine.find i = some st → Ok side i st
  armed : ∀ k j, (k, j) ∈ p.armed ↔ k ≠ 0 ∧ ∃ st, p.machine.find j = some st ∧ st.timer = k
  used : ∀ i st, p.machine.find i = some st → st.timer ≠ 0 → st.timer ∈ p.keys
  inj : ∀ i j si sj, p.machine.find i = some si → p.machine.find j = some sj → si.timer ≠ 0 →
    si.timer = sj.timer → i = j

structure NetInv (n : Net) : Prop where
  party : ∀ side, PartyInv side (n.party side)
  wire : ∀ side, ∀ m ∈ n.wire side, side.receives true m.msgName

section Moves

variable {i : CStr} {msg : TUniNetMsg} {key : ℕ} {side : Side} {fromwire : Bool} {old : Option TTransState}
  {c : Change}

lemma Moves.ok (h : Moves i msg key side fromwire old c) (ho : ∀ st, old = some st → Ok side i st)
    (hkey : key ≠ 0) (hid : msg.transID = some i) : Ok side i c.state := by
  cases h with
  | request hm => exact ⟨rfl, rfl, by simp, fun _ => ⟨hkey, msg, rfl, hm, hid, rfl⟩, by simp, by simp⟩
  | @requestAgain st =>
    have hst : ClientOk i st := ho st rfl
    exact ⟨hst.send, hst.id, hst.started, hst.waiting, hst.stopped, hst.temp⟩
  | @final st hm hs =>
    have hst : ClientOk i st := ho st rfl
    exact ⟨hst.send, hst.id, by simp [TTransState.moveTo], by simp [TTransState.moveTo], fun _ => rfl,
      by simp [TTransState.moveTo]⟩
  | @provisional st hm hs =>
    have hst : ClientOk i st := ho st rfl
    refine ⟨hst.send, hst.id, ?_, ?_, fun _ => rfl, ?_⟩ <;>
      cases hn : st.needrsp <;> simp [TTransState.moveTo, hn]
  | @confirmed st hm hs =>
    have hst : ClientOk i st := ho st rfl
    exact ⟨hst.send, hst.id, by simp [TTransState.moveTo], by simp [TTransState.moveTo],
      fun _ => hst.stopped (by simp [hs]), by simp [TTransState.moveTo]⟩
  | @finalAgain st hm hs =>
    have hst : ClientOk i st := ho st rfl
    exact ⟨hst.send, hst.id, hst.started, hst.waiting, hst.stopped, hst.temp⟩
  | @stale st hm hs =>
    have hst : ClientOk i st := ho st rfl
    exact ⟨hst.send, hst.id, hst.started, hst.waiting, hst.stopped, hst.temp⟩
  | opened hm hn => exact ⟨rfl, rfl, by simp, by simp, by simp, by simp, by simp⟩
  | answered hm hn => exact ⟨rfl, rfl, by simp, by simp, by simp, by simp, by simp⟩
  | @repeated st hm hs =>
    have hst : ServerOk i st := ho st rfl
    refine ⟨hst.recv, hst.id, by simp [TTransState.moveTo], ?_, fun _ => hst.pending (by simp [hs]),
      by simp [TTransState.moveTo], hst.rsp⟩
    intro ht
    exact absurd (hst.timer ht) (by simp [hs])
  | @repeatedAgain st hm hs =>
    have hst : ServerOk i st := ho st rfl
    exact ⟨hst.recv, hst.id, hst.started, hst.timer, hst.pending, hst.stored, hst.rsp⟩
  | @resent st rsp hm hs hr =>
    have hst : ServerOk i st := ho st rfl
    exact ⟨hst.recv, hst.id, hst.started, hst.timer, hst.pending, hst.stored, hst.rsp⟩
  | @answeredAgain st hm hs hn =>
    have hst : ServerOk i st := ho st rfl
    exact ⟨hst.recv, hst.id, hst.started, hst.timer, hst.pending, hst.stored, hst.rsp⟩
  | @acked st hm hs =>
    have hst : ServerOk i st := ho st rfl
    exact ⟨hst.recv, hst.id, hst.started, by simp, hst.pending, hst.stored, hst.rsp⟩
  | @ackedEarly st hm hs =>
    have hst : ServerOk i st := ho st rfl
    exact ⟨hst.recv, hst.id, hst.started, hst.timer, hst.pending, hst.stored, hst.rsp⟩
  | @response st hm hs | @responseLate st hm hs =>
    have hst : ServerOk i st := ho st rfl
    refine ⟨hst.recv, hst.id, by simp [TTransState.moveTo], fun _ => rfl, by simp [TTransState.moveTo],
      by simp, ?_⟩
    intro m hmsg
    obtain rfl : msg = m := by simpa using hmsg
    exact ⟨hm, hid⟩
  | @responseAgain st hm hs =>
    have hst : ServerOk i st := ho st rfl
    exact ⟨hst.recv, hst.id, hst.started, hst.timer, hst.pending, hst.stored, hst.rsp⟩

lemma Moves.timer (h : Moves i msg key side fromwire old c) (ho : ∀ st, old = some st → Ok side i st) :
    (c.calls = [] ∧ c.state.timer = (old.map TTransState.timer).getD 0) ∨
      (∃ st, old = some st ∧ c.calls = st.stopTimer ∧ c.state.timer = 0) ∨
      (c.calls = [.set key i] ∧ c.state.timer = key ∧ (old.map TTransState.timer).getD 0 = 0) := by
  cases h with
  | request => exact Or.inr (Or.inr ⟨rfl, rfl, rfl⟩)
  | final | provisional | acked => exact Or.inr (Or.inl ⟨_, rfl, rfl, rfl⟩)
  | @responseLate st hm hs =>
    have hst : ServerOk i st := ho st rfl
    refine Or.inr (Or.inr ⟨rfl, rfl, ?_⟩)
    by_contra ht
    exact absurd (hst.timer ht) (by simp [hs])
  | requestAgain | confirmed | finalAgain | stale | opened | answered | repeated | repeatedAgain | resent
  | answeredAgain | ackedEarly | response | responseAgain => exact Or.inl ⟨rfl, rfl⟩

lemma genComMsgResp_tmp (hid : msg.transID = some i) :
    (genComMsgResp msg 100).msgName = comMessageTmp ∧ (genComMsgResp msg 100).transID = some i := by
  simp [genComMsgResp, hid]

lemma Moves.resp (h : Moves i msg key side fromwire old c) (ho : ∀ st, old = some st → Ok side i st)
    (hid : msg.transID = some i) {m : TUniNetMsg} (hm : c.resp = some m) :
    side.other.receives true m.msgName ∧ m.transID = some i := by
  obtain ⟨hname, htid⟩ := genComMsgResp_tmp hid
  cases h with
  | confirmed | finalAgain | answered | repeated | repeatedAgain | answeredAgain =>
    obtain rfl := Option.some.inj hm
    exact ⟨Or.inr hname, htid⟩
  | @resent st rsp _ _ hr =>
    have hst : ServerOk i st := ho st rfl
    obtain rfl := Option.some.inj hm
    obtain ⟨h1, h2⟩ := hst.rsp rsp hr
    exact ⟨Or.inl h1, h2⟩
  | request | requestAgain | final | provisional | stale | opened | acked | ackedEarly | response
  | responseLate | responseAgain => simp at hm

end Moves

namespace PartyInv

variable {side : Side} {p p' : Party} {i : CStr} {st st' : TTransState} {key : ℕ}

lemma change (h : PartyInv side p) (hl : p'.machine.mTSState.countMax = 0)
    (hf : ∀ j, p'.machine.find j = if j = i then some st' else p.machine.find j)
    (hok : Ok side i st')
    (harmed : ∀ k j, (k, j) ∈ p'.armed ↔ (j ≠ i ∧ (k, j) ∈ p.armed) ∨ (j = i ∧ k = st'.timer ∧ k ≠ 0))
    (hkeys : ∀ k ∈ p.keys, k ∈ p'.keys) (hnew : st'.timer ≠ 0 → st'.timer ∈ p'.keys)
    (hinj : st'.timer ≠ 0 → ∀ j st, j ≠ i → p.machine.find j = some st → st.timer ≠ st'.timer) :
    PartyInv side p' := by
  have hcase : ∀ j s, p'.machine.find j = some s →
      (j = i ∧ s = st') ∨ (j ≠ i ∧ p.machine.find j = some s) := by
    intro j s hs
    rw [hf] at hs
    split_ifs at hs with hj
    · exact Or.inl ⟨hj, (Option.some.inj hs).symm⟩
    · exact Or.inr ⟨hj, hs⟩
  refine ⟨hl, ?_, ?_, ?_, ?_⟩
  · intro j s hs
    rcases hcase j s hs with ⟨rfl, rfl⟩ | ⟨-, hs⟩
    · exact hok
    · exact h.ok j s hs
  · intro k j
    rw [harmed, h.armed, hf]
    by_cases hj : j = i
    · simp only [hj, ne_eq, not_true_eq_false, false_and, true_and, false_or, if_true,
        Option.some.injEq, exists_eq_left']
      exact ⟨fun h => ⟨h.2, h.1.symm⟩, fun h => ⟨h.2.symm, h.1⟩⟩
    · simp [hj]
  · intro j s hs ht
    rcases hcase j s hs with ⟨rfl, rfl⟩ | ⟨-, hs⟩
    · exact hnew ht
    · exact hkeys _ (h.used j s hs ht)
  · intro a b sa sb ha hb ht he
    rcases hcase a sa ha with ⟨rfl, rfl⟩ | ⟨hai, ha⟩ <;> rcases hcase b sb hb with ⟨rfl, rfl⟩ | ⟨hbi, hb⟩
    · rfl
    · exact absurd he.symm (hinj ht b sb hbi hb)
    · exact absurd he (hinj (he ▸ ht) a sa hai ha)
    · exact h.inj a b sa sb ha hb ht he

lemma touched (h : PartyInv side p) {msg : TUniNetMsg} {fromwire : Bool} {c : Change} {r : Processed}
    (hm : Moves i msg key side fromwire (p.machine.find i) c) (ht : TTransMachine.Touched p.machine i c r)
    (hid : msg.transID = some i) (hkey : p.Fresh key) : PartyInv side (p.after r) := by
  have hold := fun st => h.ok i st
  have hlimit : (p.after r).machine.mTSState.countMax = 0 := ht.limit.trans h.limit
  have hok := hm.ok hold hkey.1 hid
  have hself : ∀ k, (k, i) ∈ p.armed ↔ k ≠ 0 ∧ k = ((p.machine.find i).map TTransState.timer).getD 0 := by
    intro k
    rw [h.armed]
    cases p.machine.find i with
    | none => simp
    | some st =>
      simp only [Option.some.injEq, exists_eq_left', Option.map_some, Option.getD_some]
      exact and_congr_right fun _ => eq_comm
  have hother : ∀ st, p.machine.find i = some st → st.timer ≠ 0 →
      ∀ j s, j ≠ i → p.machine.find j = some s → s.timer ≠ st.timer :=
    fun st hst h0 j s hj hs he => hj (h.inj j i s st hs hst (he ▸ h0) he)
  rcases hm.timer hold with ⟨hcalls, htimer⟩ | ⟨st, hst, hcalls, htimer⟩ | ⟨hcalls, htimer, hold0⟩
  · refine h.change hlimit ht.find hok ?_ ?_ ?_ ?_
    · intro k j
      rw [Party.after, ht.calls, hcalls]
      by_cases hj : j = i
      · subst hj
        simp only [List.foldl_nil, ne_eq, not_true_eq_false, false_and, true_and, false_or, hself, htimer]
        exact and_comm
      · simp [hj]
    · intro k hk
      rwa [Party.after, ht.calls, hcalls]
    · intro h0
      rw [Party.after, ht.calls, hcalls]
      rw [htimer] at h0 ⊢
      cases hf : p.machine.find i with
      | none => simp [hf] at h0
      | some st =>
        rw [hf] at h0
        exact h.used i st hf h0
    · intro h0 j s hj hs
      rw [htimer] at h0 ⊢
      cases hf : p.machine.find i with
      | none => simp [hf] at h0
      | some st =>
        rw [hf] at h0
        exact hother st hf h0 j s hj hs
  · refine h.change hlimit ht.find hok ?_ ?_ (by simp [htimer]) (by simp [htimer])
    · intro k j
      rw [Party.after, ht.calls, hcalls, TTransState.stopTimer, htimer]
      have hk : (k, i) ∈ p.armed ↔ k ≠ 0 ∧ k = st.timer := by simpa [hst] using hself k
      by_cases h0 : st.timer = 0
      · by_cases hj : j = i
        · subst hj
          simp only [h0, ne_eq, not_true_eq_false, if_false, List.foldl_nil, false_and, true_and, false_or, hk]
          tauto
        · simp [h0, hj]
      · simp only [ne_eq, h0, not_false_eq_true, if_true, List.foldl_cons, List.foldl_nil, Party.call,
          List.mem_filter, decide_eq_true_eq]
        by_cases hj : j = i
        · subst hj
          rw [hk]
          tauto
        · simp only [hj, not_false_eq_true, true_and, false_and, or_false, and_iff_left_iff_imp]
          intro ha
          obtain ⟨-, s, hs, rfl⟩ := (h.armed k j).mp ha
          exact hother st hst h0 j s hj hs
    · intro k hk
      rw [Party.after, ht.calls, hcalls, TTransState.stopTimer]
      split_ifs <;> exact hk
  · refine h.change hlimit ht.find hok ?_ ?_ ?_ ?_
    · intro k j
      rw [Party.after, ht.calls, hcalls, htimer]
      simp only [List.foldl_cons, List.foldl_nil, Party.call, List.mem_append, List.mem_singleton,
        Prod.mk.injEq]
      by_cases hj : j = i
      · subst hj
        have hkey0 := hkey.1
        simp only [hself, hold0, ne_eq, not_true_eq_false, false_and, true_and, false_or, and_true]
        constructor
        · rintro (⟨h1, h2⟩ | rfl)
          · exact absurd h2 h1
          · exact ⟨rfl, hkey0⟩
        · exact fun h => Or.inr h.1
      · simp [hj]
    · intro k hk
      rw [Party.after, ht.calls, hcalls]
      exact List.mem_append_left _ hk
    · intro _
      rw [Party.after, ht.calls, hcalls, htimer]
      exact List.mem_append_right _ (by simp)
    · intro h0 j s _ hs he
      rw [htimer] at he h0
      exact hkey.2 (he ▸ h.used j s hs (he ▸ h0))

lemma fired (h : PartyInv side p) {tk : ℕ} {r : Processed} (ha : (tk, i) ∈ p.armed)
    (hf : p.machine.find i = some st) (htk : st.timer = tk)
    (ht : TTransMachine.Touched p.machine i ⟨.resend, st.msg, [.set key i], { st with timer := key }⟩ r)
    (hkey : p.Fresh key) :
    PartyInv side (Party.after { p with armed := p.armed.filter fun b => b ≠ (tk, i) } r) := by
  have h0 : tk ≠ 0 := ((h.armed tk i).mp ha).1
  have hok : Ok side i { st with timer := key } := by
    have hst := h.ok i st hf
    cases side with
    | client =>
      have hst : ClientOk i st := hst
      have hfw : st.tsstate = .forward := by
        by_contra hs
        exact h0 (htk.symm.trans (hst.stopped hs))
      exact ⟨hst.send, hst.id, hst.started, fun _ => ⟨hkey.1, (hst.waiting hfw).2⟩,
        fun hs => absurd hfw hs, hst.temp⟩
    | server =>
      have hst : ServerOk i st := hst
      exact ⟨hst.recv, hst.id, hst.started, fun _ => hst.timer (htk ▸ h0), hst.pending, hst.stored, hst.rsp⟩
  refine h.change (ht.limit.trans h.limit) ht.find hok ?_ ?_ ?_ ?_
  · intro k j
    rw [Party.after, ht.calls]
    simp only [List.foldl_cons, List.foldl_nil, Party.call, List.mem_append, List.mem_filter,
      List.mem_singleton, decide_eq_true_eq, Prod.mk.injEq]
    by_cases hj : j = i
    · subst hj
      have hself : (k, j) ∈ p.armed ↔ k ≠ 0 ∧ k = tk := by
        rw [h.armed, hf]
        simp only [Option.some.injEq, exists_eq_left', htk]
        exact and_congr_right fun _ => eq_comm
      have hkey0 := hkey.1
      simp only [hself, ne_eq, and_true, not_true_eq_false, false_and, true_and, false_or]
      constructor
      · rintro (⟨⟨-, h1⟩, h2⟩ | rfl)
        · exact absurd h1 (by simpa using h2)
        · exact ⟨rfl, hkey0⟩
      · exact fun h => Or.inr h.1
    · simp [hj]
  · intro k hk
    rw [Party.after, ht.calls]
    exact List.mem_append_left _ hk
  · intro _
    rw [Party.after, ht.calls]
    exact List.mem_append_right _ (by simp)
  · intro _ j s _ hs he
    replace he : s.timer = key := he
    exact hkey.2 (he ▸ h.used j s hs (he ▸ hkey.1))

lemma foldl_del (p : Party) (calls : List TimerCall) (hdel : ∀ c ∈ calls, ∃ k, c = .del k) :
    (∀ a, a ∈ (calls.foldl Party.call p).armed ↔ a ∈ p.armed ∧ TimerCall.del a.1 ∉ calls) ∧
      (calls.foldl Party.call p).keys = p.keys := by
  induction calls generalizing p with
  | nil => simp
  | cons c calls ih =>
    obtain ⟨k, rfl⟩ := hdel c (by simp)
    obtain ⟨h1, h2⟩ := ih (p.call (.del k)) fun c hc => hdel c (List.mem_cons_of_mem _ hc)
    refine ⟨?_, by rw [List.foldl_cons, h2]; rfl⟩
    intro a
    rw [List.foldl_cons, h1]
    simp only [Party.call, List.mem_filter, List.mem_cons, TimerCall.del.injEq, decide_eq_true_eq]
    tauto

lemma swept (h : PartyInv side p) {r : Processed} (hs : TTransMachine.Swept p.machine r) :
    PartyInv side (p.after r) := by
  have hdel : ∀ c ∈ r.calls, ∃ k, c = .del k := by
    intro c hc
    obtain ⟨j, -, st, -, -, rfl⟩ := (hs.del c).mp hc
    exact ⟨_, rfl⟩
  obtain ⟨harmed, hkeys⟩ := foldl_del p r.calls hdel
  have hfind : ∀ j s, (p.after r).machine.find j = some s → j ∉ r.expired ∧ p.machine.find j = some s := by
    intro j s hj
    have := hs.find j
    rw [show r.machine.find j = some s from hj] at this
    split_ifs at this with hm
    exact ⟨hm, this.symm⟩
  refine ⟨hs.limit.trans h.limit, fun i s hi => h.ok i s (hfind i s hi).2, ?_, ?_,
    fun i j si sj hi hj => h.inj i j si sj (hfind i si hi).2 (hfind j sj hj).2⟩
  · intro k j
    rw [show (k, j) ∈ (p.after r).armed ↔ _ from harmed (k, j), h.armed, hs.del]
    constructor
    · rintro ⟨⟨h0, s, hj, rfl⟩, hno⟩
      refine ⟨h0, s, ?_, rfl⟩
      change r.machine.find j = some s
      rw [hs.find, if_neg, hj]
      exact fun hm => hno ⟨j, hm, s, hj, h0, rfl⟩
    · rintro ⟨h0, s, hj, rfl⟩
      obtain ⟨hm, hj⟩ := hfind j s hj
      refine ⟨⟨h0, s, hj, rfl⟩, ?_⟩
      rintro ⟨j', hj', s', hs', -, he⟩
      rw [TimerCall.del.injEq] at he
      exact hm (h.inj j j' s s' hj hs' h0 he ▸ hj')
  · intro i s hi ht
    rw [show (p.after r).keys = p.keys from hkeys]
    exact h.used i s (hfind i s hi).2 ht

end PartyInv

namespace Net

variable {n : Net} {side : Side} {r : Processed} {msgs : List TUniNetMsg}

lemma other_ne (side : Side) : side.other ≠ side := by
  cases side <;> simp [Side.other]

@[simp] lemma processed_party (n : Net) (side : Side) (r : Processed) (msgs : List TUniNetMsg) (s : Side) :
    (n.processed side r msgs).party s = if s = side then (n.party side).after r else n.party s := by
  simp [processed, setParty, setWire, Function.update_apply]

@[simp] lemma processed_wire (n : Net) (side : Side) (r : Processed) (msgs : List TUniNetMsg) (s : Side) :
    (n.processed side r msgs).wire s = if s = side.other then n.wire s ++ msgs else n.wire s := by
  by_cases h : s = side.other
  · subst h
    simp [processed, setParty, setWire]
  · simp [processed, setParty, setWire, h]

@[simp] lemma setWire_party (n : Net) (side : Side) (msgs : List TUniNetMsg) :
    (n.setWire side msgs).party = n.party := rfl

@[simp] lemma setWire_wire (n : Net) (side : Side) (msgs : List TUniNetMsg) (s : Side) :
    (n.setWire side msgs).wire s = if s = side then msgs else n.wire s := by
  simp [setWire, Function.update_apply]

@[simp] lemma setParty_party (n : Net) (side : Side) (p : Party) (s : Side) :
    (n.setParty side p).party s = if s = side then p else n.party s := by
  simp [setParty, Function.update_apply]

@[simp] lemma disarm_wire (n : Net) (side : Side) (a : ℕ × CStr) : (n.disarm side a).wire = n.wire := rfl

@[simp] lemma disarm_party (n : Net) (side : Side) (a : ℕ × CStr) (s : Side) : (n.disarm side a).party s =
    if s = side then { n.party side with armed := (n.party side).armed.filter fun b => b ≠ a }
    else n.party s := by
  simp [disarm, setParty, Function.update_apply]

end Net

lemma Side.app_receives {side : Side} {msg : TUniNetMsg} (h : msg.msgName = side.appName) :
    side.receives false msg.msgName ∧ side.other.receives true msg.msgName := by
  cases side <;> exact ⟨h, Or.inl h⟩

lemma PartyInv.sent {side : Side} {p : Party} {i : CStr} {msg : TUniNetMsg} {key : ℕ} {fromwire : Bool}
    {c : Change} {r : Processed} (h : PartyInv side p) (hid : msg.transID = some i)
    (hm : Moves i msg key side fromwire (p.machine.find i) c) (ht : TTransMachine.Touched p.machine i c r)
    (happ : fromwire = false → msg.msgName = side.appName) {m : TUniNetMsg}
    (hmem : m ∈ Transport.sent fromwire msg r) :
    side.other.receives true m.msgName ∧ m.transID = some i := by
  rw [Transport.sent, List.mem_append] at hmem
  rcases hmem with hmem | hmem
  · split_ifs at hmem with hf
    · obtain rfl := List.mem_singleton.mp hmem
      exact ⟨(Side.app_receives (happ hf.2)).2, hid⟩
    · simp at hmem
  · rw [Option.mem_toList, ht.resp] at hmem
    exact hm.resp (fun st => h.ok i st) hid hmem

lemma NetInv.processed {n : Net} (h : NetInv n) {side : Side} {r : Processed} {msgs : List TUniNetMsg}
    (hp : PartyInv side ((n.party side).after r))
    (hw : ∀ m ∈ msgs, side.other.receives true m.msgName) :
    NetInv (n.processed side r msgs) := by
  constructor
  · intro s
    rw [Net.processed_party]
    split_ifs with hs
    · exact hs ▸ hp
    · exact h.party s
  · intro s m hm
    rw [Net.processed_wire] at hm
    split_ifs at hm with hs
    · subst hs
      rcases List.mem_append.mp hm with hm | hm
      · exact h.wire _ m hm
      · exact hw m hm
    · exact h.wire s m hm

lemma NetInv.processTM {n : Net} (h : NetInv n) {side : Side} {fromwire : Bool} {msg : TUniNetMsg} {key : ℕ}
    {now : ℤ} {r : Processed} (hr : (n.party side).machine.processTM fromwire msg key now = r)
    (hm : side.receives fromwire msg.msgName)
    (happ : fromwire = false → msg.msgName = side.appName) (hkey : (n.party side).Fresh key) :
    NetInv (n.processed side r (sent fromwire msg r)) := by
  have hp := h.party side
  rcases TTransMachine.processTM_cases key now hp.limit hp.ok hm with
    ⟨he, -⟩ | ⟨i, c, hi, hmoves, ht⟩
  · rw [hr] at he
    subst he
    refine h.processed hp ?_
    simp [sent, TTransMachine.idle]
  · rw [hr] at ht
    refine h.processed (hp.touched hmoves ht hi hkey) ?_
    intro m hmem
    exact (hp.sent hi hmoves ht happ hmem).1

lemma NetInv.setWire {n : Net} (h : NetInv n) {side : Side} {msgs : List TUniNetMsg}
    (hw : ∀ m ∈ msgs, m ∈ n.wire side) : NetInv (n.setWire side msgs) := by
  refine ⟨h.party, ?_⟩
  intro s m hm
  rw [Net.setWire_wire] at hm
  split_ifs at hm with hs
  · subst hs
    exact h.wire _ m (hw m hm)
  · exact h.wire s m hm

lemma PartyInv.timer_state {side : Side} {p : Party} {tk : ℕ} {i : CStr} (h : PartyInv side p)
    (ha : (tk, i) ∈ p.armed) : tk ≠ 0 ∧ ∃ st, p.machine.find i = some st ∧ st.timer = tk := by
  exact (h.armed tk i).mp ha

lemma Ok.msg {side : Side} {i : CStr} {st : TTransState} (h : Ok side i st) (ht : st.timer ≠ 0)
    {m : TUniNetMsg} (hm : st.msg = some m) :
    side.other.receives true m.msgName ∧ m.transID = some i := by
  cases side with
  | client =>
    have h : ClientOk i st := h
    have hfw : st.tsstate = .forward := by
      by_contra hs
      exact ht (h.stopped hs)
    obtain ⟨-, m', hm', h1, h2, -⟩ := h.waiting hfw
    obtain rfl : m = m' := Option.some.inj (hm.symm.trans hm')
    exact ⟨Or.inl h1, h2⟩
  | server =>
    have h : ServerOk i st := h
    obtain ⟨h1, h2⟩ := h.rsp m hm
    exact ⟨Or.inl h1, h2⟩

lemma NetInv.step {n n' : Net} {e : Event} (h : NetInv n) (hs : Step n e n') : NetInv n' := by
  cases hs with
  | app hup hname hkey hr => exact h.processTM hr (Side.app_receives hname).1 (fun _ => hname) hkey
  | @deliver side msg key now r hup hmsg hkey hr =>
    have hm := h.wire side msg hmsg
    exact (h.setWire fun m hm => List.mem_of_mem_erase hm).processTM hr hm (by simp) hkey
  | duplicate hmsg =>
    refine h.setWire ?_
    intro m hm
    rcases List.mem_cons.mp hm with rfl | hm
    · exact hmsg
    · exact hm
  | lose => exact h.setWire fun m hm => List.mem_of_mem_erase hm
  | @fire side tk i key r hup harmed hkey hr =>
    have hp := h.party side
    obtain ⟨h0, st, hf, ht⟩ := hp.timer_state harmed
    have htouch := TTransMachine.processTimer_touched key hf h0 ht (hp.ok i st hf)
    rw [hr] at htouch
    have hp' := hp.fired harmed hf ht htouch hkey
    constructor
    · intro s
      rw [Net.processed_party]
      split_ifs with hs
      · subst hs
        rw [Net.disarm_party, if_pos rfl]
        exact hp'
      · rw [Net.disarm_party, if_neg hs]
        exact h.party s
    · intro s m hm
      rw [Net.processed_wire, Net.disarm_wire] at hm
      split_ifs at hm with hs
      · subst hs
        rcases List.mem_append.mp hm with hm | hm
        · exact h.wire _ m hm
        · rw [Option.mem_toList, htouch.resp] at hm
          exact ((hp.ok i st hf).msg (ht ▸ h0) hm).1
      · exact h.wire s m hm
  | @crash side tk hup harmed =>
    refine ⟨?_, h.wire⟩
    intro s
    rw [Net.setParty_party]
    split_ifs with hs
    · subst hs
      obtain ⟨hlimit, hok, harmed', hused, hinj⟩ := h.party s
      exact ⟨hlimit, hok, harmed', hused, hinj⟩
    · exact h.party s
  | @expire side currenttime now r hup hr =>
    have hp := h.party side
    have hswept := TTransMachine.processExpired_swept (n.party side).machine currenttime now
    rw [hr] at hswept
    exact h.processed (hp.swept hswept) (by simp)

lemma netInv_init (clientTimeOut serverTimeOut : ℕ) : NetInv (Net.init clientTimeOut serverTimeOut) := by
  have hparty : ∀ side t, PartyInv side ⟨true, TTransMachine.new.tminit t, [], []⟩ := by
    intro side t
    have hnone : ∀ i, (TTransMachine.new.tminit t).find i = none := by
      intro i
      rw [TTransMachine.tminit]
      split <;> rfl
    have hlimit : (TTransMachine.new.tminit t).mTSState.countMax = 0 := by
      rw [TTransMachine.tminit]
      split <;> rfl
    exact ⟨hlimit, by simp [hnone], by simp [hnone], by simp [hnone], by simp [hnone]⟩
  refine ⟨?_, by simp [Net.init]⟩
  intro side
  cases side <;> exact hparty _ _

end Xframe.Transport
