import Xframe.Transport.Moves

/-! Runs of one machine with client and server transactions in any mixture, and the expiry sweep that
is repeated until it answers `TSC_NULL`. -/

namespace Xframe.Transport

open Xframe.Comserv Xframe.Msg Xframe.Lib

inductive MachineEvent where
  | message (fromwire : Bool) (msg : TUniNetMsg) (code : TsCode)
  | timer (tk : ℕ) (transid : CStr) (code : TsCode)
  | expiry (expired : List CStr) (code : TsCode)
  deriving DecidableEq

namespace TTransMachine

inductive Step : TTransMachine → MachineEvent → TTransMachine → Prop
  | message {m : TTransMachine} (fromwire : Bool) (msg : TUniNetMsg) (key : ℕ) (now : ℤ) :
      Step m (.message fromwire msg (m.processTM fromwire msg key now).code) (m.processTM fromwire msg key now).machine
  | timer {m : TTransMachine} (tk : ℕ) (transid : CStr) (key : ℕ) :
      Step m (.timer tk transid (m.processTimer tk transid key).code) (m.processTimer tk transid key).machine
  | expiry {m : TTransMachine} (currenttime now : ℤ) :
      Step m (.expiry (m.processExpired currenttime now).expired (m.processExpired currenttime now).code)
        (m.processExpired currenttime now).machine

inductive Sweep : TTransMachine → List Processed → TTransMachine → Prop
  | last {m : TTransMachine} (currenttime now : ℤ) (h : (m.processExpired currenttime now).code = .null) :
      Sweep m [m.processExpired currenttime now] (m.processExpired currenttime now).machine
  | next {m m' : TTransMachine} {rs : List Processed} (currenttime now : ℤ)
      (h : (m.processExpired currenttime now).code ≠ .null)
      (hs : Sweep (m.processExpired currenttime now).machine rs m') : Sweep m (m.processExpired currenttime now :: rs) m'

def Reports (i : CStr) (r : Processed) : Prop :=
  r.code = .timeout ∧ r.resp.isSome ∧ r.expired.getLast? = some i

instance (i : CStr) : DecidablePred (Reports i) := fun _ => inferInstanceAs (Decidable (_ ∧ _ ∧ _))

def reports (i : CStr) (rs : List Processed) : ℕ := rs.countP (Reports i)

variable {m m' : TTransMachine} {i : CStr} {st : TTransState} {msg : TUniNetMsg}

structure Removed (m : TTransMachine) (r : Processed) (ks : List CStr) : Prop where
  silent : ∀ j ∈ ks, ∃ st, m.find j = some st ∧ timeoutResp st = none
  outcome : (r.code = .null ∧ r.expired = ks) ∨
    r.code = .timeout ∧ r.resp.isSome ∧ ∃ k st, r.expired = ks ++ [k] ∧ m.find k = some st ∧ timeoutResp st = r.resp

lemma expireLoop_removed (n : ℕ) (m : TTransMachine) (oldtime : ℤ) : ∃ ks, Removed m (m.expireLoop n oldtime) ks := by
  induction n generalizing m with
  | zero => exact ⟨[], by simp, .inl ⟨rfl, rfl⟩⟩
  | succ n ih =>
    rw [expireLoop]
    cases he : m.mTSState.entries with
    | nil => exact ⟨[], by simp, .inl ⟨rfl, rfl⟩⟩
    | cons v vs =>
      dsimp only
      split
      · have hv : m.find v.key = some v.value := ExpireMap.lookup_eq_some.mpr ⟨v, by simp [he], rfl, rfl⟩
        have hup : ∀ {j st}, TTransMachine.find ⟨m.mTSState.tail⟩ j = some st → m.find j = some st := by
          intro j st hj
          rw [find, ExpireMap.lookup_tail he] at hj
          split at hj
          · simp at hj
          · exact hj
        cases hr : timeoutResp v.value with
        | some resp => exact ⟨[], by simp, .inr ⟨rfl, rfl, v.key, v.value, rfl, hv, hr⟩⟩
        | none =>
          obtain ⟨ks, hs, ho⟩ := ih ⟨m.mTSState.tail⟩
          refine ⟨v.key :: ks, ?_, ?_⟩
          · intro j hj
            rcases List.mem_cons.mp hj with rfl | hj
            · exact ⟨v.value, hv, hr⟩
            · obtain ⟨st, hst, hn⟩ := hs j hj
              exact ⟨st, hup hst, hn⟩
          · rcases ho with ⟨hc, hx⟩ | ⟨hc, hsome, k, st, hx, hk, hkr⟩
            · exact .inl ⟨hc, congrArg _ hx⟩
            · exact .inr ⟨hc, hsome, k, st, congrArg _ hx, hup hk, hkr⟩
      · exact ⟨[], by simp, .inl ⟨rfl, rfl⟩⟩

lemma processExpired_removed (m : TTransMachine) (currenttime now : ℤ) :
    ∃ ks, Removed m (m.processExpired currenttime now) ks :=
  expireLoop_removed _ m _

lemma reports_iff (currenttime now : ℤ) (hf : m.find i = some st)
    (hx : i ∈ (m.processExpired currenttime now).expired) :
    Reports i (m.processExpired currenttime now) ↔ (timeoutResp st).isSome := by
  obtain ⟨ks, hs, ho⟩ := m.processExpired_removed currenttime now
  generalize m.processExpired currenttime now = r at *
  rcases ho with ⟨hc, hks⟩ | ⟨hc, hsome, k, st', hks, hk, hkr⟩
  · obtain ⟨st', hst', hn⟩ := hs i (hks ▸ hx)
    obtain rfl : st = st' := Option.some.inj (hf.symm.trans hst')
    rw [hn, Reports, hc]
    simp
  · rw [Reports, hks, List.getLast?_concat]
    by_cases hik : k = i
    · subst hik
      obtain rfl : st = st' := Option.some.inj (hf.symm.trans hk)
      rw [hkr]
      exact ⟨fun h => h.2.1, fun h => ⟨hc, h, rfl⟩⟩
    · rw [hks] at hx
      have hin : i ∈ ks := (List.mem_append.mp hx).resolve_right fun h => hik (List.mem_singleton.mp h).symm
      obtain ⟨st', hst', hn⟩ := hs i hin
      obtain rfl : st = st' := Option.some.inj (hf.symm.trans hst')
      rw [hn]
      simp [hik]

lemma not_reports_of_not_mem {r : Processed} (h : i ∉ r.expired) : ¬Reports i r :=
  fun hr => h (List.mem_of_getLast? hr.2.2)

lemma not_mem_expired (currenttime now : ℤ) (hf : m.find i = none) :
    i ∉ (m.processExpired currenttime now).expired := by
  intro hx
  obtain ⟨ks, hs, ho⟩ := m.processExpired_removed currenttime now
  have hnone : ∀ st, m.find i ≠ some st := fun st h => by simp [hf] at h
  rcases ho with ⟨-, hks⟩ | ⟨-, -, k, st, hks, hk, -⟩
  · obtain ⟨st, hst, -⟩ := hs i (hks ▸ hx)
    exact hnone st hst
  · rw [hks] at hx
    rcases List.mem_append.mp hx with hx | hx
    · obtain ⟨st, hst, -⟩ := hs i hx
      exact hnone st hst
    · rw [List.mem_singleton] at hx
      exact hnone st (hx ▸ hk)

lemma find_processExpired (m : TTransMachine) (currenttime now : ℤ) (i : CStr) :
    (m.processExpired currenttime now).machine.find i =
      if i ∈ (m.processExpired currenttime now).expired then none else m.find i :=
  (m.processExpired_swept currenttime now).find i

lemma Sweep.reports_gone {rs : List Processed} (h : Sweep m rs m') (hf : m.find i = none) : reports i rs = 0 := by
  induction h with
  | last currenttime now _ =>
    have hnot := not_reports_of_not_mem (not_mem_expired currenttime now hf)
    rw [reports, List.countP_singleton, if_neg (by simpa using hnot)]
  | next currenttime now _ _ ih =>
    have hx := not_mem_expired currenttime now hf
    have hnot := not_reports_of_not_mem hx
    rw [reports, List.countP_cons_of_neg (by simpa using hnot)]
    refine ih ?_
    rw [find_processExpired, if_neg hx, hf]

lemma Sweep.reports_eq {rs : List Processed} (h : Sweep m rs m') (hf : m.find i = some st) (hgone : m'.find i = none) :
    reports i rs = if (timeoutResp st).isSome then 1 else 0 := by
  induction h with
  | @last m currenttime now _ =>
    rw [find_processExpired] at hgone
    have hx : i ∈ (m.processExpired currenttime now).expired := by
      by_contra hx
      rw [if_neg hx, hf] at hgone
      simp at hgone
    rw [reports, List.countP_singleton]
    exact if_congr (by simpa using reports_iff currenttime now hf hx) rfl rfl
  | @next m m' rs currenttime now _ hs ih =>
    by_cases hx : i ∈ (m.processExpired currenttime now).expired
    · have hnone : (m.processExpired currenttime now).machine.find i = none := by rw [find_processExpired, if_pos hx]
      have hrest := hs.reports_gone hnone
      rw [reports] at hrest
      rw [reports, List.countP_cons, hrest, Nat.zero_add]
      exact if_congr (by simpa using reports_iff currenttime now hf hx) rfl rfl
    · have hnot := not_reports_of_not_mem hx
      rw [reports, List.countP_cons_of_neg (by simpa using hnot)]
      refine ih ?_ hgone
      rw [find_processExpired, if_neg hx, hf]

lemma expireLoop_length (n : ℕ) (m : TTransMachine) (oldtime : ℤ) :
    (m.expireLoop n oldtime).machine.mTSState.entries.length ≤ m.mTSState.entries.length ∧
      ((m.expireLoop n oldtime).code ≠ .null →
        (m.expireLoop n oldtime).machine.mTSState.entries.length < m.mTSState.entries.length) := by
  induction n generalizing m with
  | zero => exact ⟨le_rfl, fun h => absurd rfl h⟩
  | succ n ih =>
    rw [expireLoop]
    cases he : m.mTSState.entries with
    | nil => exact ⟨by rw [idle, he], fun h => absurd rfl h⟩
    | cons v vs =>
      have htail : m.mTSState.tail.entries = vs := by simp [ExpireMap.tail, he]
      dsimp only
      split
      · cases timeoutResp v.value with
        | some resp =>
          dsimp only
          rw [htail]
          exact ⟨Nat.le_succ _, fun _ => Nat.lt_succ_self _⟩
        | none =>
          have := ih ⟨m.mTSState.tail⟩
          dsimp only at this ⊢
          rw [htail] at this
          exact ⟨this.1.trans (Nat.le_succ _), fun h => (this.2 h).trans (Nat.lt_succ_self _)⟩
      · exact ⟨by rw [idle, he], fun h => absurd rfl h⟩

lemma exists_sweep (m : TTransMachine) (currenttime now : ℤ) : ∃ rs m', Sweep m rs m' := by
  induction hn : m.mTSState.entries.length using Nat.strong_induction_on generalizing m with
  | _ n ih =>
    by_cases hc : (m.processExpired currenttime now).code = .null
    · exact ⟨_, _, .last currenttime now hc⟩
    · have hlt := (expireLoop_length _ m _).2 hc
      obtain ⟨rs, m', hs⟩ := ih _ (hn ▸ hlt) (m.processExpired currenttime now).machine rfl
      exact ⟨_, m', .next currenttime now hc hs⟩

lemma openTrans_limit (m : TTransMachine) (fromwire : Bool) (msg : TUniNetMsg) (j : CStr) (now : ℤ) :
    (m.openTrans fromwire msg j now).mTSState.countMax = m.mTSState.countMax := by
  rw [openTrans]
  split
  · exact ExpireMap.push_countMax _ _ _ _
  · rfl

lemma processTM_limit (m : TTransMachine) (fromwire : Bool) (msg : TUniNetMsg) (key : ℕ) (now : ℤ) :
    (m.processTM fromwire msg key now).machine.mTSState.countMax = m.mTSState.countMax := by
  rw [processTM]
  split
  · rfl
  · dsimp only
    split
    · exact openTrans_limit m fromwire msg _ now
    · exact openTrans_limit m fromwire msg _ now

lemma find_openTrans_ne (hl : m.mTSState.countMax = 0) (fromwire : Bool) (msg : TUniNetMsg) {j : CStr} (hj : i ≠ j)
    (now : ℤ) : (m.openTrans fromwire msg j now).find i = m.find i := by
  rw [openTrans]
  split
  · rw [find, ExpireMap.lookup_push hl, if_neg fun h => hj h.1]
    rfl
  · rfl

lemma find_changed (m : TTransMachine) (j : CStr) (c : Change) (i : CStr) :
    (m.changed j c).machine.find i = if i = j then (m.find i).map fun _ => c.state else m.find i :=
  ExpireMap.lookup_modify _ _ _ _

lemma find_processTM_ne (hl : m.mTSState.countMax = 0) (fromwire : Bool) {msg : TUniNetMsg} (h : msg.transID ≠ some i)
    (key : ℕ) (now : ℤ) : (m.processTM fromwire msg key now).machine.find i = m.find i := by
  rw [processTM]
  cases hid : msg.transID with
  | none => rfl
  | some j =>
    have hj : i ≠ j := fun hij => h (by rw [hid, hij])
    have hopen := find_openTrans_ne hl fromwire msg hj now
    dsimp only
    split
    · exact hopen
    · rw [find_changed, if_neg hj, hopen]

lemma processTM_known (hf : m.find i = some st) (fromwire : Bool) {msg : TUniNetMsg} (hid : msg.transID = some i)
    (key : ℕ) (now : ℤ) : m.processTM fromwire msg key now = m.changed i (st.tsChange msg key) := by
  have hopen : m.openTrans fromwire msg i now = m := by
    rw [openTrans, hf, if_neg fun h => by simp at h]
  rw [processTM, hid]
  dsimp only
  rw [hopen, hf]

lemma find_processTM_self (m : TTransMachine) (fromwire : Bool) {msg : TUniNetMsg} (hid : msg.transID = some i)
    (key : ℕ) (now : ℤ) : (m.processTM fromwire msg key now).machine.find i =
      ((m.openTrans fromwire msg i now).find i).map fun st => (st.tsChange msg key).state := by
  rw [processTM, hid]
  dsimp only
  cases hf : (m.openTrans fromwire msg i now).find i with
  | none => exact hf
  | some st =>
    dsimp only
    rw [find_changed, if_pos rfl, hf]
    rfl

lemma find_openTrans_self (hl : m.mTSState.countMax = 0) {fromwire : Bool} {now : ℤ}
    (h : (m.openTrans fromwire msg i now).find i = some st) : m.find i = some st ∨ st = .new (!fromwire) i := by
  rw [openTrans] at h
  split at h
  · next hc =>
    rw [find, ExpireMap.lookup_push hl, if_pos ⟨rfl, Option.isNone_iff_eq_none.mp hc.1⟩] at h
    exact .inr (Option.some.inj h).symm
  · exact .inl h

lemma find_processTimer (m : TTransMachine) (tk : ℕ) (transid : CStr) (key : ℕ) (i : CStr) :
    (m.processTimer tk transid key).machine.find i = m.find i ∨
      ∃ st, m.find i = some st ∧ (m.processTimer tk transid key).machine.find i = some (st.tsTimeout tk key).state := by
  rw [processTimer]
  split
  · split
    · exact .inl rfl
    · next st hst =>
      rw [find_changed]
      split
      · next hi =>
        rw [hi, hst]
        exact .inr ⟨st, rfl, rfl⟩
      · exact .inl rfl
  · exact .inl rfl

lemma Step.limit {e : MachineEvent} (h : Step m e m') : m'.mTSState.countMax = m.mTSState.countMax := by
  cases h with
  | message fromwire msg key now => exact processTM_limit m fromwire msg key now
  | timer tk transid key =>
    rw [processTimer]
    split
    · split <;> rfl
    · rfl
  | expiry currenttime now => exact (m.processExpired_swept currenttime now).limit

end TTransMachine

namespace MachineEvent

def Provisional (i : CStr) : MachineEvent → Prop
  | message _ msg _ => msg.msgName = comMessageTmp ∧ msg.transID = some i
  | _ => False

def Final (i : CStr) : MachineEvent → Prop
  | message _ msg code => msg.msgName = comMessageRsp ∧ msg.transID = some i ∧ code = .forward
  | _ => False

def Removes (i : CStr) : MachineEvent → Prop
  | expiry expired _ => i ∈ expired
  | _ => False

end MachineEvent

structure Awaits (provisional : Prop) (st : TTransState) : Prop where
  send : st.tssend = true
  needed : st.needrsp = true
  state : ¬provisional ∧ st.tsstate = .forward ∧ st.msg.isSome ∨ provisional ∧ st.tsstate = .temporary ∧ st.msg = none

variable {m m' : TTransMachine} {i : CStr} {st : TTransState} {msg : TUniNetMsg} {p : Prop}

lemma tsChange_tssend (st : TTransState) (msg : TUniNetMsg) (key : ℕ) :
    (st.tsChange msg key).state.tssend = st.tssend := by
  rw [TTransState.tsChange]
  split
  · rw [TTransState.clientChange]
    cases st.tsstate <;> dsimp only <;> split_ifs <;> rfl
  · rw [TTransState.serverChange]
    cases st.tsstate with
    | terminated =>
      dsimp only
      split
      · split
        · rfl
        · split <;> rfl
      · split <;> rfl
    | _ =>
      dsimp only
      split_ifs <;> rfl

lemma Awaits.resp (h : Awaits p st) : (TTransMachine.timeoutResp st).isSome ↔ ¬p := by
  rw [TTransMachine.timeoutResp]
  rcases h.state with ⟨hp, hs, hm⟩ | ⟨hp, hs, hm⟩
  · rw [if_pos ⟨.inl hs, h.send⟩, Option.isSome_map]
    exact iff_of_true hm hp
  · rw [if_pos ⟨.inr hs, h.send⟩, hm]
    simp [hp]

lemma Awaits.congr {q : Prop} (h : Awaits p st) (hpq : p ↔ q) : Awaits q st := by
  rwa [← propext hpq]

lemma Awaits.timeout (h : Awaits p st) (tk key : ℕ) : Awaits p (st.tsTimeout tk key).state := by
  rw [TTransState.tsTimeout]
  split
  · exact ⟨h.send, h.needed, h.state⟩
  · exact h

lemma Awaits.change (h : Awaits p st) (key : ℕ)
    (hfinal : msg.msgName = comMessageRsp → (st.tsChange msg key).code ≠ .forward) :
    Awaits (p ∨ msg.msgName = comMessageTmp) (st.tsChange msg key).state := by
  rw [TTransState.tsChange, if_pos h.send, TTransState.clientChange] at hfinal ⊢
  rcases h.state with ⟨hp, hs, hm⟩ | ⟨hp, hs, hm⟩
  · simp only [hs] at hfinal ⊢
    by_cases hrsp : msg.msgName = comMessageRsp
    · simp [hrsp] at hfinal
    rw [if_neg hrsp]
    by_cases htmp : msg.msgName = comMessageTmp
    · rw [if_pos htmp, h.needed]
      exact ⟨h.send, h.needed, .inr ⟨.inr htmp, rfl, rfl⟩⟩
    · rw [if_neg htmp]
      exact ⟨h.send, h.needed, .inl ⟨not_or.mpr ⟨hp, htmp⟩, hs, hm⟩⟩
  · simp only [hs] at hfinal ⊢
    by_cases hrsp : msg.msgName = comMessageRsp
    · simp [hrsp] at hfinal
    rw [if_neg hrsp]
    exact ⟨h.send, h.needed, .inr ⟨.inl hp, hs, hm⟩⟩

lemma Awaits.step (h : Awaits p st) (hf : m.find i = some st) (hl : m.mTSState.countMax = 0) {e : MachineEvent}
    (hs : TTransMachine.Step m e m') (hfinal : ¬e.Final i) (hkept : ¬e.Removes i) :
    ∃ st', m'.find i = some st' ∧ Awaits (p ∨ e.Provisional i) st' := by
  cases hs with
  | message fromwire msg key now =>
    by_cases hid : msg.transID = some i
    · have hknown := TTransMachine.processTM_known hf fromwire hid key now
      rw [hknown] at hfinal ⊢
      refine ⟨(st.tsChange msg key).state, ?_, (h.change key ?_).congr ?_⟩
      · rw [TTransMachine.find_changed, if_pos rfl, hf]
        rfl
      · exact fun hrsp hcode => hfinal ⟨hrsp, hid, hcode⟩
      · simp [MachineEvent.Provisional, hid]
    · refine ⟨st, ?_, h.congr ?_⟩
      · rw [TTransMachine.find_processTM_ne hl fromwire hid, hf]
      · simp [MachineEvent.Provisional, hid]
  | timer tk transid key =>
    have hp : p ↔ p ∨ (MachineEvent.timer tk transid (m.processTimer tk transid key).code).Provisional i := by
      simp [MachineEvent.Provisional]
    rcases m.find_processTimer tk transid key i with hsame | ⟨st', hst', hnew⟩
    · exact ⟨st, hsame.trans hf, h.congr hp⟩
    · obtain rfl : st = st' := Option.some.inj (hf.symm.trans hst')
      exact ⟨_, hnew, (h.timeout tk key).congr hp⟩
  | expiry currenttime now =>
    refine ⟨st, ?_, h.congr (by simp [MachineEvent.Provisional])⟩
    have hx : i ∉ (m.processExpired currenttime now).expired := hkept
    rw [TTransMachine.find_processExpired, if_neg hx, hf]

lemma Awaits.run (h : Awaits False st) (hf : m.find i = some st) (hl : m.mTSState.countMax = 0)
    {es : List MachineEvent} (hr : Run TTransMachine.Step m es m') (hfinal : ∀ e ∈ es, ¬e.Final i)
    (hkept : ∀ e ∈ es, ¬e.Removes i) :
    m'.mTSState.countMax = 0 ∧ ∃ st', m'.find i = some st' ∧ Awaits (∃ e ∈ es, e.Provisional i) st' := by
  refine hr.invariant (I := fun es m' => (∀ e ∈ es, ¬e.Final i) → (∀ e ∈ es, ¬e.Removes i) →
    m'.mTSState.countMax = 0 ∧ ∃ st', m'.find i = some st' ∧ Awaits (∃ e ∈ es, e.Provisional i) st') ?_ ?_ hfinal hkept
  · exact fun _ _ => ⟨hl, st, hf, h.congr (by simp)⟩
  · intro es m₁ e m₂ ih hs hfin hkeep
    obtain ⟨hl₁, st₁, hf₁, h₁⟩ := ih (fun e he => hfin e (List.mem_append_left _ he))
      (fun e he => hkeep e (List.mem_append_left _ he))
    have hlast : e ∈ es ++ [e] := List.mem_append_right _ List.mem_cons_self
    obtain ⟨st₂, hf₂, h₂⟩ := h₁.step hf₁ hl₁ hs (hfin e hlast) (hkeep e hlast)
    refine ⟨hs.limit.trans hl₁, st₂, hf₂, h₂.congr ?_⟩
    simp [or_and_right, exists_or]

lemma request_awaits (hl : m.mTSState.countMax = 0) (hnew : m.find i = none) (hname : msg.msgName = comMessageReq)
    (hid : msg.transID = some i) (hn : needsRsp msg = true) (key : ℕ) (now : ℤ) :
    ∃ st, (m.processTM false msg key now).machine.find i = some st ∧ Awaits False st ∧
      st.msg = some msg ∧ st.timer = key ∧ st.transID = i := by
  have hpush := ExpireMap.lookup_push hl i (TTransState.new true i) now i
  rw [if_pos ⟨rfl, hnew⟩] at hpush
  obtain ⟨m', hm'⟩ : ∃ m', m' = m.openTrans false msg i now := ⟨_, rfl⟩
  have hopen : m'.find i = some (.new true i) := by
    rw [hm', TTransMachine.openTrans, if_pos ⟨by rw [hnew]; rfl, hname⟩]
    exact hpush
  have hchange : (TTransState.new true i).tsChange msg key = ⟨.forward, none, [.set key i],
      ⟨true, some msg, .forward, .init, true, key, msg.cseq.getD 0, i, needsRsp msg⟩⟩ := by
    simp [TTransState.tsChange, TTransState.new, TTransState.clientChange, TTransState.moveTo, hname]
  rw [TTransMachine.processTM, hid]
  dsimp only
  rw [← hm', hopen]
  dsimp only
  rw [hchange, TTransMachine.find_changed, if_pos rfl, hopen]
  exact ⟨_, rfl, ⟨rfl, hn, .inl ⟨not_false, rfl, rfl⟩⟩, rfl, rfl, rfl⟩

lemma run_limit {t : ℕ} {es : List MachineEvent} (h : Run TTransMachine.Step (TTransMachine.new.tminit t) es m) :
    m.mTSState.countMax = 0 := by
  refine h.invariant (I := fun _ m => m.mTSState.countMax = 0) ?_ fun _ _ _ _ ih hs => hs.limit.trans ih
  rw [TTransMachine.tminit]
  split <;> rfl

theorem timeout_reported_iff {t : ℕ} {es₁ es₂ : List MachineEvent} {m₁ m₂ : TTransMachine} {key : ℕ} {now : ℤ}
    (h₁ : Run TTransMachine.Step (TTransMachine.new.tminit t) es₁ m₁) (hnew : m₁.find i = none)
    (hname : msg.msgName = comMessageReq) (hid : msg.transID = some i) (hn : needsRsp msg = true)
    (h₂ : Run TTransMachine.Step (m₁.processTM false msg key now).machine es₂ m₂) (hkept : ∀ e ∈ es₂, ¬e.Removes i)
    (hfinal : ∀ e ∈ es₂, ¬e.Final i) :
    (∃ rs m₃, TTransMachine.Sweep m₂ rs m₃) ∧
      ∀ rs m₃, TTransMachine.Sweep m₂ rs m₃ → m₃.find i = none →
        (TTransMachine.reports i rs = 1 ↔ ∀ e ∈ es₂, ¬e.Provisional i) := by
  have hl := run_limit h₁
  obtain ⟨st, hf, hw, -⟩ := request_awaits hl hnew hname hid hn key now
  obtain ⟨-, st', hf', hw'⟩ := hw.run hf ((m₁.processTM_limit false msg key now).trans hl) h₂ hfinal hkept
  refine ⟨m₂.exists_sweep now now, fun rs m₃ hs hgone => ?_⟩
  rw [hs.reports_eq hf' hgone]
  have hresp : (TTransMachine.timeoutResp st').isSome ↔ ∀ e ∈ es₂, ¬e.Provisional i := by
    rw [hw'.resp]
    simp
  rw [← hresp]
  split
  · next h => simp [h]
  · next h => simp [h]

def aRequest : TUniNetMsg where
  oAddr := ⟨7, 1, 3⟩
  tAddr := ⟨0, 0, 0⟩
  dialogType := dialogBegin
  msgName := comMessageReq
  msgType := 10
  transID := some [49]
  cseq := some 1
  ctrlMsgHdr := some ⟨false, 0, none, some ⟨0, 1, 0, []⟩⟩
  msgBody := none

def asked : TTransMachine := ((TTransMachine.new.tminit 5).processTM false aRequest 1 10).machine

theorem timeout_reported_iff_asked :
    ∃ rs m, TTransMachine.Sweep asked rs m ∧ m.find [49] = none ∧ TTransMachine.reports [49] rs = 1 := by
  have hstart : Run TTransMachine.Step (TTransMachine.new.tminit 5) [] (TTransMachine.new.tminit 5) := .nil
  have hwait : Run TTransMachine.Step ((TTransMachine.new.tminit 5).processTM false aRequest 1 10).machine [] asked := .nil
  have hsweep : TTransMachine.Sweep asked [asked.processExpired 100 100,
      (asked.processExpired 100 100).machine.processExpired 100 100]
      ((asked.processExpired 100 100).machine.processExpired 100 100).machine :=
    .next 100 100 (by decide) (.last 100 100 rfl)
  obtain ⟨-, hall⟩ := timeout_reported_iff hstart (i := [49]) rfl rfl rfl rfl hwait (by simp) (by simp)
  exact ⟨_, _, hsweep, rfl, (hall _ _ hsweep rfl).mpr (by simp)⟩

theorem provisional_not_reported :
    let m := (asked.processTM true (genComMsgResp aRequest 100) 2 11).machine
    TTransMachine.Sweep m [m.processExpired 100 100] (m.processExpired 100 100).machine ∧
      (m.processExpired 100 100).expired = [[49]] ∧ TTransMachine.reports [49] [m.processExpired 100 100] ≠ 1 :=
  ⟨.last 100 100 rfl, rfl, by decide⟩

end Xframe.Transport
