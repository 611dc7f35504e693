import Xframe.Transport.Network

/-! What a message or a timer can do to one transaction of a client or a server, and what it leaves in
the table of transactions. -/

namespace Xframe.Transport

open Xframe.Comserv Xframe.Msg

structure ClientOk (i : CStr) (st : TTransState) : Prop where
  send : st.tssend = true
  id : st.transID = i
  started : st.tsstate ≠ .init
  waiting : st.tsstate = .forward → st.timer ≠ 0 ∧ ∃ m, st.msg = some m ∧ m.msgName = comMessageReq ∧
    m.transID = some i ∧ needsRsp m = st.needrsp
  stopped : st.tsstate ≠ .forward → st.timer = 0
  temp : st.tsstate = .temporary → st.needrsp = true

structure ServerOk (i : CStr) (st : TTransState) : Prop where
  recv : st.tssend = false
  id : st.transID = i
  started : st.tsstate ≠ .init
  timer : st.timer ≠ 0 → st.tsstate = .terminated
  pending : st.tsstate ≠ .terminated → st.needrsp = true
  stored : st.tsstate = .terminated → st.needrsp = true → st.msg ≠ none
  rsp : ∀ m, st.msg = some m → m.msgName = comMessageRsp ∧ m.transID = some i

def Ok : Side → CStr → TTransState → Prop
  | .client => ClientOk
  | .server => ServerOk

inductive Moves (i : CStr) (msg : TUniNetMsg) (key : ℕ) : Side → Bool → Option TTransState → Change → Prop
  | request (hm : msg.msgName = comMessageReq) : Moves i msg key .client false none
      ⟨.forward, none, [.set key i],
        ⟨true, some msg, .forward, .init, true, key, msg.cseq.getD 0, i, needsRsp msg⟩⟩
  | requestAgain {st : TTransState} : Moves i msg key .client false (some st) ⟨.null, none, [], st.stay⟩
  | final {st : TTransState} (hm : msg.msgName = comMessageRsp) (hs : st.tsstate = .forward) :
      Moves i msg key .client true (some st)
        ⟨.forward, none, st.stopTimer, { st.moveTo .terminated with timer := 0, msg := none }⟩
  | provisional {st : TTransState} (hm : msg.msgName = comMessageTmp) (hs : st.tsstate = .forward) :
      Moves i msg key .client true (some st) ⟨.null, none, st.stopTimer,
        { st.moveTo (if st.needrsp then .temporary else .terminated) with timer := 0, msg := none }⟩
  | confirmed {st : TTransState} (hm : msg.msgName = comMessageRsp) (hs : st.tsstate = .temporary) :
      Moves i msg key .client true (some st)
        ⟨.forward, some (genComMsgResp msg 100), [], st.moveTo .terminated⟩
  | finalAgain {st : TTransState} (hm : msg.msgName = comMessageRsp) (hs : st.tsstate = .terminated) :
      Moves i msg key .client true (some st) ⟨.refuse, some (genComMsgResp msg 100), [], st.stay⟩
  | stale {st : TTransState} (hm : msg.msgName = comMessageTmp) (hs : st.tsstate ≠ .forward) :
      Moves i msg key .client true (some st) ⟨.null, none, [], st.stay⟩
  | opened (hm : msg.msgName = comMessageReq) (hn : needsRsp msg = true) :
      Moves i msg key .server true none
        ⟨.forward, none, [], ⟨false, none, .forward, .init, true, 0, msg.cseq.getD 0, i, true⟩⟩
  | answered (hm : msg.msgName = comMessageReq) (hn : needsRsp msg = false) :
      Moves i msg key .server true none ⟨.forward, some (genComMsgResp msg 100), [],
        ⟨false, none, .terminated, .init, true, 0, msg.cseq.getD 0, i, false⟩⟩
  | repeated {st : TTransState} (hm : msg.msgName = comMessageReq) (hs : st.tsstate = .forward) :
      Moves i msg key .server true (some st)
        ⟨.refuse, some (genComMsgResp msg 100), [], st.moveTo .temporary⟩
  | repeatedAgain {st : TTransState} (hm : msg.msgName = comMessageReq) (hs : st.tsstate = .temporary) :
      Moves i msg key .server true (some st) ⟨.refuse, some (genComMsgResp msg 100), [], st.stay⟩
  | resent {st : TTransState} {rsp : TUniNetMsg} (hm : msg.msgName = comMessageReq)
      (hs : st.tsstate = .terminated) (hr : st.msg = some rsp) :
      Moves i msg key .server true (some st) ⟨.refuse, some rsp, [], st.stay⟩
  | answeredAgain {st : TTransState} (hm : msg.msgName = comMessageReq) (hs : st.tsstate = .terminated)
      (hn : st.needrsp = false) :
      Moves i msg key .server true (some st) ⟨.refuse, some (genComMsgResp msg 100), [], st.stay⟩
  | acked {st : TTransState} (hm : msg.msgName = comMessageTmp) (hs : st.tsstate = .terminated) :
      Moves i msg key .server true (some st) ⟨.null, none, st.stopTimer, { st.stay with timer := 0 }⟩
  | ackedEarly {st : TTransState} (hm : msg.msgName = comMessageTmp) (hs : st.tsstate ≠ .terminated) :
      Moves i msg key .server true (some st) ⟨.null, none, [], st.stay⟩
  | response {st : TTransState} (hm : msg.msgName = comMessageRsp) (hs : st.tsstate = .forward) :
      Moves i msg key .server false (some st)
        ⟨.forward, none, [], { st.moveTo .terminated with msg := some msg }⟩
  | responseLate {st : TTransState} (hm : msg.msgName = comMessageRsp) (hs : st.tsstate = .temporary) :
      Moves i msg key .server false (some st)
        ⟨.forward, none, [.set key i], { st.moveTo .terminated with msg := some msg, timer := key }⟩
  | responseAgain {st : TTransState} (hm : msg.msgName = comMessageRsp) (hs : st.tsstate = .terminated) :
      Moves i msg key .server false (some st) ⟨.null, none, [], st.stay⟩

def Side.receives : Side → Bool → ℕ → Prop
  | .client, false, name => name = comMessageReq
  | .client, true, name => name = comMessageRsp ∨ name = comMessageTmp
  | .server, false, name => name = comMessageRsp
  | .server, true, name => name = comMessageReq ∨ name = comMessageTmp

variable {i : CStr} {msg : TUniNetMsg} {key : ℕ} {st : TTransState}

lemma clientChange_moves (h : ClientOk i st) {fromwire : Bool}
    (hm : Side.client.receives fromwire msg.msgName) :
    Moves i msg key .client fromwire (some st) (st.tsChange msg key) := by
  rw [TTransState.tsChange, if_pos h.send, TTransState.clientChange]
  cases fromwire with
  | false =>
    replace hm : msg.msgName = comMessageReq := hm
    cases hs : st.tsstate with
    | init => exact absurd hs h.started
    | forward => simpa [hm, comMessageReq, comMessageRsp, comMessageTmp] using .requestAgain
    | temporary => simpa [hm, comMessageReq, comMessageRsp] using .requestAgain
    | terminated => simpa [hm, comMessageReq, comMessageRsp] using .requestAgain
  | true =>
    rcases hm with hm | hm
    · cases hs : st.tsstate with
      | init => exact absurd hs h.started
      | forward => simpa [hm] using .final hm hs
      | temporary => simpa [hm] using .confirmed hm hs
      | terminated => simpa [hm] using .finalAgain hm hs
    · cases hs : st.tsstate with
      | init => exact absurd hs h.started
      | forward => simpa [hm, comMessageRsp, comMessageTmp] using .provisional hm hs
      | temporary => simpa [hm, comMessageRsp, comMessageTmp] using .stale hm (by simp [hs])
      | terminated => simpa [hm, comMessageRsp, comMessageTmp] using .stale hm (by simp [hs])

lemma serverChange_moves (h : ServerOk i st) {fromwire : Bool}
    (hm : Side.server.receives fromwire msg.msgName) :
    Moves i msg key .server fromwire (some st) (st.tsChange msg key) := by
  rw [TTransState.tsChange, if_neg (by simp [h.recv]), TTransState.serverChange]
  cases fromwire with
  | false =>
    replace hm : msg.msgName = comMessageRsp := hm
    cases hs : st.tsstate with
    | init => exact absurd hs h.started
    | forward => simpa [hm, comMessageReq, comMessageRsp] using .response hm hs
    | temporary => simpa [hm, h.id] using .responseLate hm hs
    | terminated => simpa [hm, comMessageReq, comMessageRsp, comMessageTmp] using .responseAgain hm hs
  | true =>
    rcases hm with hm | hm
    · cases hs : st.tsstate with
      | init => exact absurd hs h.started
      | forward => simpa [hm] using .repeated hm hs
      | temporary => simpa [hm, comMessageReq, comMessageRsp] using .repeatedAgain hm hs
      | terminated =>
        cases hr : st.msg with
        | some rsp => simpa [hm] using .resent hm hs hr
        | none =>
          have hn : st.needrsp = false := by
            by_contra hn
            exact h.stored hs (by simpa using hn) hr
          simpa [hm, hn] using .answeredAgain hm hs hn
    · cases hs : st.tsstate with
      | init => exact absurd hs h.started
      | forward =>
        simpa [hm, comMessageReq, comMessageRsp, comMessageTmp] using .ackedEarly hm (by simp [hs])
      | temporary =>
        simpa [hm, comMessageReq, comMessageRsp, comMessageTmp] using .ackedEarly hm (by simp [hs])
      | terminated => simpa [hm, comMessageReq, comMessageTmp] using .acked hm hs

lemma newChange_moves {side : Side} {fromwire : Bool} (hm : side.receives fromwire msg.msgName)
    (hreq : msg.msgName = comMessageReq) :
    Moves i msg key side fromwire none ((TTransState.new (!fromwire) i).tsChange msg key) := by
  cases side with
  | client =>
    cases fromwire with
    | false => simpa [TTransState.tsChange, TTransState.new, TTransState.clientChange, hreq,
        TTransState.moveTo] using .request hreq
    | true => simp [Side.receives, hreq, comMessageReq, comMessageRsp, comMessageTmp] at hm
  | server =>
    cases fromwire with
    | false => simp [Side.receives, hreq, comMessageReq, comMessageRsp] at hm
    | true =>
      cases hn : needsRsp msg with
      | true => simpa [TTransState.tsChange, TTransState.new, TTransState.serverChange, hreq, hn,
          TTransState.moveTo] using .opened hreq hn
      | false => simpa [TTransState.tsChange, TTransState.new, TTransState.serverChange, hreq, hn,
          TTransState.moveTo] using .answered hreq hn

lemma change_moves {side : Side} {fromwire : Bool} (h : Ok side i st)
    (hm : side.receives fromwire msg.msgName) :
    Moves i msg key side fromwire (some st) (st.tsChange msg key) := by
  cases side with
  | client => exact clientChange_moves h hm
  | server => exact serverChange_moves h hm

namespace TTransMachine

variable {m : TTransMachine} {side : Side} {fromwire : Bool} {now : ℤ} {r : Processed}

structure Touched (m : TTransMachine) (i : CStr) (c : Change) (r : Processed) : Prop where
  code : r.code = c.code
  resp : r.resp = c.resp
  calls : r.calls = c.calls
  find : ∀ j, r.machine.find j = if j = i then some c.state else m.find j
  limit : r.machine.mTSState.countMax = m.mTSState.countMax

lemma changed_touched {m' : TTransMachine} {c : Change} (hi : m'.find i = some st)
    (hj : ∀ j, j ≠ i → m'.find j = m.find j) (hl : m'.mTSState.countMax = m.mTSState.countMax) :
    Touched m i c (m'.changed i c) := by
  refine ⟨rfl, rfl, rfl, ?_, hl⟩
  intro j
  rw [changed, TTransMachine.find, ExpireMap.lookup_modify]
  split_ifs with h
  · subst h
    change (m'.find j).map _ = _
    rw [hi]
    rfl
  · exact hj j h

lemma processTM_cases (key : ℕ) (now : ℤ) (hlimit : m.mTSState.countMax = 0) (hok : ∀ i st, m.find i = some st → Ok side i st)
    (hm : side.receives fromwire msg.msgName) :
    (m.processTM fromwire msg key now = m.idle ∧ ∀ i, msg.transID = some i → m.find i = none) ∨
      ∃ i c, msg.transID = some i ∧ Moves i msg key side fromwire (m.find i) c ∧
        Touched m i c (m.processTM fromwire msg key now) := by
  rw [processTM]
  cases hid : msg.transID with
  | none => exact Or.inl ⟨rfl, by simp⟩
  | some i =>
    dsimp only
    rw [openTrans]
    cases hf : m.find i with
    | some st =>
      rw [if_neg (by simp), hf]
      exact Or.inr ⟨i, _, rfl, hf ▸ change_moves (hok i st hf) hm, changed_touched hf (fun _ _ => rfl) rfl⟩
    | none =>
      by_cases hreq : msg.msgName = comMessageReq
      · rw [if_pos ⟨rfl, hreq⟩]
        have hpush := ExpireMap.lookup_push hlimit i (TTransState.new (!fromwire) i) now
        have hi : TTransMachine.find ⟨(m.mTSState.push i (TTransState.new (!fromwire) i) now).2⟩ i =
            some (TTransState.new (!fromwire) i) := by
          rw [TTransMachine.find, hpush, if_pos ⟨rfl, hf⟩]
        rw [hi]
        refine Or.inr ⟨i, _, rfl, hf ▸ newChange_moves hm hreq, changed_touched hi ?_ (by simp)⟩
        intro j hj
        rw [TTransMachine.find, hpush, if_neg fun h => hj h.1]
        rfl
      · rw [if_neg fun h => hreq h.2, hf]
        refine Or.inl ⟨rfl, ?_⟩
        intro j hj
        rw [Option.some.injEq] at hj
        rw [← hj, hf]

lemma processTimer_touched (key : ℕ) {tk : ℕ} (hf : m.find i = some st) (htk : tk ≠ 0)
    (ht : st.timer = tk) (hok : Ok side i st) :
    Touched m i ⟨.resend, st.msg, [.set key i], { st with timer := key }⟩ (m.processTimer tk i key) := by
  have hst : st.tsTimeout tk key = ⟨.resend, st.msg, [.set key i], { st with timer := key }⟩ := by
    rw [TTransState.tsTimeout, if_pos]
    · cases side with
      | client => rw [ClientOk.id hok]
      | server => rw [ServerOk.id hok]
    · refine ⟨by omega, ht, ?_⟩
      cases side with
      | client =>
        left
        refine ⟨?_, ClientOk.send hok⟩
        by_contra hs
        have := ClientOk.stopped hok hs
        omega
      | server => exact Or.inr ⟨ServerOk.timer hok (by omega), ServerOk.recv hok⟩
  rw [processTimer, if_pos (by omega), hf]
  dsimp only
  rw [hst]
  exact changed_touched hf (fun _ _ => rfl) rfl

structure Swept (m : TTransMachine) (r : Processed) : Prop where
  find : ∀ j, r.machine.find j = if j ∈ r.expired then none else m.find j
  del : ∀ c, c ∈ r.calls ↔ ∃ j ∈ r.expired, ∃ st, m.find j = some st ∧ st.timer ≠ 0 ∧ c = .del st.timer
  limit : r.machine.mTSState.countMax = m.mTSState.countMax

lemma idle_swept (m : TTransMachine) : Swept m m.idle :=
  ⟨fun _ => by simp [idle], fun _ => by simp [idle], rfl⟩

lemma stopTimer_mem {c : TimerCall} : c ∈ st.stopTimer ↔ st.timer ≠ 0 ∧ c = .del st.timer := by
  rw [TTransState.stopTimer]
  split_ifs with h <;> simp [h]

lemma expireLoop_swept (n : ℕ) (m : TTransMachine) (oldtime : ℤ) : Swept m (m.expireLoop n oldtime) := by
  induction n generalizing m with
  | zero => exact idle_swept m
  | succ n ih =>
    rw [expireLoop]
    cases he : m.mTSState.entries with
    | nil => exact idle_swept m
    | cons v vs =>
      dsimp only
      split_ifs
      · have htail : ∀ j, TTransMachine.find ⟨m.mTSState.tail⟩ j = if j = v.key then none else m.find j :=
          fun j => ExpireMap.lookup_tail he j
        have hv : m.find v.key = some v.value :=
          ExpireMap.lookup_eq_some.mpr ⟨v, by simp [he], rfl, rfl⟩
        cases timeoutResp v.value with
        | some resp =>
          refine ⟨fun j => by simpa using htail j, fun c => ?_, rfl⟩
          simp [stopTimer_mem, hv]
        | none =>
          have hs := ih ⟨m.mTSState.tail⟩
          refine ⟨fun j => ?_, fun c => ?_, hs.limit⟩
          · have h1 := hs.find j
            rw [htail] at h1
            by_cases hj : j = v.key <;> simpa [hj] using h1
          · dsimp only
            rw [List.mem_append, stopTimer_mem, hs.del]
            constructor
            · rintro (⟨h0, rfl⟩ | ⟨j, hj, st, hst, h0, rfl⟩)
              · exact ⟨v.key, by simp, v.value, hv, h0, rfl⟩
              · rw [htail] at hst
                split_ifs at hst with hjv
                exact ⟨j, List.mem_cons_of_mem _ hj, st, hst, h0, rfl⟩
            · rintro ⟨j, hj, st, hst, h0, rfl⟩
              by_cases hjv : j = v.key
              · subst hjv
                rw [hv, Option.some.injEq] at hst
                subst hst
                exact Or.inl ⟨h0, rfl⟩
              · refine Or.inr ⟨j, (List.mem_cons.mp hj).resolve_left hjv, st, ?_, h0, rfl⟩
                rw [htail, if_neg hjv, hst]
      · exact idle_swept m

lemma processExpired_swept (m : TTransMachine) (currenttime now : ℤ) :
    Swept m (m.processExpired currenttime now) :=
  expireLoop_swept _ m _

end TTransMachine

end Xframe.Transport
