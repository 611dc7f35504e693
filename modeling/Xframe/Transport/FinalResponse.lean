import Xframe.Transport.AtMostOnce

/-! Both machines of a transaction together: while neither side has expired it, some side will send
again until the client has the final response. -/

namespace Xframe.Transport

open Xframe.Comserv Xframe.Msg Xframe.Lib

def Committed (ct st : TTransState) : Prop :=
  st.tsstate = .temporary ∨ st.tsstate = .terminated ∧ (st.timer ≠ 0 ∨ ct.tsstate = .terminated)

structure Joint (i : CStr) (n : Net) : Prop where
  started : n.find .client i = none →
    n.find .server i = none ∧ ∀ side, ∀ m ∈ n.wire side, m.transID ≠ some i
  same : ∀ ct st, n.find .client i = some ct → n.find .server i = some st → st.needrsp = ct.needrsp
  req : ∀ ct, n.find .client i = some ct → ∀ m ∈ n.wire .server, m.transID = some i →
    m.msgName = comMessageReq → needsRsp m = ct.needrsp
  ack : ∀ m ∈ n.wire .server, m.transID = some i → m.msgName = comMessageTmp →
    ∃ ct, n.find .client i = some ct ∧ ct.tsstate = .terminated
  tmp : ∀ ct, n.find .client i = some ct → ct.needrsp = true →
    ((∃ m ∈ n.wire .client, m.transID = some i ∧ m.msgName = comMessageTmp) ∨ ct.tsstate = .temporary) →
    ∃ st, n.find .server i = some st ∧ Committed ct st

namespace Joint

variable {i : CStr} {n n' : Net} {ct ct' st st' : TTransState} {new : List TUniNetMsg}

lemma client_change (h : Joint i n) (hct : n.find .client i = some ct) (hf : n'.find .client i = some ct')
    (ho : n'.find .server i = n.find .server i) (hw : WireFrom i n n' .client [])
    (hwo : WireFrom i n n' .server new) (hneed : ct'.needrsp = ct.needrsp)
    (hmono : ct.tsstate = .terminated → ct'.tsstate = .terminated)
    (hreq : ∀ m ∈ new, m.msgName = comMessageReq → needsRsp m = ct.needrsp)
    (hack : ∀ m ∈ new, m.msgName = comMessageTmp → ct'.tsstate = .terminated)
    (htemp : ct'.tsstate = .temporary → ct.tsstate = .temporary ∨
      ∃ m ∈ n.wire .client, m.transID = some i ∧ m.msgName = comMessageTmp) : Joint i n' := by
  refine ⟨?_, ?_, ?_, ?_, ?_⟩
  · intro hnone
    simp [hf] at hnone
  · intro c s hc hs
    obtain rfl : ct' = c := Option.some.inj (hf.symm.trans hc)
    rw [hneed]
    exact h.same ct s hct (ho ▸ hs)
  · intro c hc m hm hmi hname
    obtain rfl : ct' = c := Option.some.inj (hf.symm.trans hc)
    rw [hneed]
    rcases hwo m hm hmi with hm | hm
    · exact h.req ct hct m hm hmi hname
    · exact hreq m hm hname
  · intro m hm hmi hname
    refine ⟨ct', hf, ?_⟩
    rcases hwo m hm hmi with hm | hm
    · obtain ⟨c, hc, ht⟩ := h.ack m hm hmi hname
      obtain rfl : ct = c := Option.some.inj (hct.symm.trans hc)
      exact hmono ht
    · exact hack m hm hname
  · intro c hc hn hprem
    obtain rfl : ct' = c := Option.some.inj (hf.symm.trans hc)
    have hold : (∃ m ∈ n.wire .client, m.transID = some i ∧ m.msgName = comMessageTmp) ∨
        ct.tsstate = .temporary := by
      rcases hprem with ⟨m, hm, hmi, hname⟩ | ht
      · rcases hw m hm hmi with hm | hm
        · exact Or.inl ⟨m, hm, hmi, hname⟩
        · simp at hm
      · exact (htemp ht).symm
    obtain ⟨s, hs, hcom⟩ := h.tmp ct hct (hneed ▸ hn) hold
    refine ⟨s, ho ▸ hs, ?_⟩
    rcases hcom with hs | ⟨hs, ht⟩
    · exact Or.inl hs
    · exact Or.inr ⟨hs, ht.imp_right hmono⟩

lemma server_change (h : Joint i n) (hct : n.find .client i = some ct) (hf : n'.find .server i = some st')
    (ho : n'.find .client i = n.find .client i) (hw : WireFrom i n n' .server [])
    (hwo : WireFrom i n n' .client new) (hneed : st'.needrsp = ct.needrsp)
    (htmp : ∀ m ∈ new, m.msgName = comMessageTmp → ct.needrsp = true → st'.tsstate = .temporary)
    (hkeep : ∀ st, n.find .server i = some st → Committed ct st → Committed ct st') : Joint i n' := by
  have hfc : n'.find .client i = some ct := ho.trans hct
  refine ⟨?_, ?_, ?_, ?_, ?_⟩
  · intro hnone
    simp [hfc] at hnone
  · intro c s hc hs
    obtain rfl : ct = c := Option.some.inj (hfc.symm.trans hc)
    obtain rfl : st' = s := Option.some.inj (hf.symm.trans hs)
    exact hneed
  · intro c hc m hm hmi hname
    rcases hw m hm hmi with hm | hm
    · exact h.req c (ho ▸ hc) m hm hmi hname
    · simp at hm
  · intro m hm hmi hname
    rcases hw m hm hmi with hm | hm
    · rw [ho]
      exact h.ack m hm hmi hname
    · simp at hm
  · intro c hc hn hprem
    obtain rfl : ct = c := Option.some.inj (hfc.symm.trans hc)
    have hold : ((∃ m ∈ n.wire .client, m.transID = some i ∧ m.msgName = comMessageTmp) ∨
        ct.tsstate = .temporary) ∨ st'.tsstate = .temporary := by
      rcases hprem with ⟨m, hm, hmi, hname⟩ | ht
      · rcases hwo m hm hmi with hm | hm
        · exact Or.inl (Or.inl ⟨m, hm, hmi, hname⟩)
        · exact Or.inr (htmp m hm hname hn)
      · exact Or.inl (Or.inr ht)
    rcases hold with hold | ht
    · obtain ⟨s, hs, hcom⟩ := h.tmp ct hct hn hold
      exact ⟨st', hf, hkeep s hs hcom⟩
    · exact ⟨st', hf, Or.inl ht⟩

lemma client_exists (h : Joint i n) (hs : n.find .server i ≠ none ∨
    ∃ side, ∃ m ∈ n.wire side, m.transID = some i) : ∃ ct, n.find .client i = some ct := by
  by_contra hno
  have hnone : n.find .client i = none := by
    cases hc : n.find .client i with
    | none => rfl
    | some ct => exact absurd ⟨ct, hc⟩ hno
  obtain ⟨h1, h2⟩ := h.started hnone
  rcases hs with hs | ⟨side, m, hm, hmi⟩
  · exact hs h1
  · exact h2 side m hm hmi

variable {msg : TUniNetMsg} {key : ℕ} {fromwire : Bool} {c : Change}

lemma client_moves (h : Joint i n) (hid : msg.transID = some i)
    (hmem : fromwire = true → msg ∈ n.wire .client)
    (hm : Moves i msg key .client fromwire (n.find .client i) c) (hf : n'.find .client i = some c.state)
    (ho : n'.find .server i = n.find .server i) (hw : WireFrom i n n' .client [])
    (hwo : WireFrom i n n' .server (c.sent fromwire msg)) : Joint i n' := by
  have htmp := (genComMsgResp_tmp hid).1
  generalize hold : n.find .client i = old at hm
  cases hm with
  | request hm =>
    obtain ⟨hserver, hnone⟩ := h.started hold
    have hwire : ∀ m ∈ n'.wire .server, m.transID = some i → m = msg := by
      intro m hmem hmi
      rcases hwo m hmem hmi with hmem | hmem
      · exact absurd hmi (hnone _ m hmem)
      · simpa [Change.sent] using hmem
    refine ⟨by simp [hf], by simp [ho, hserver], ?_, ?_, ?_⟩
    · intro c hc m hmem hmi _
      obtain rfl := Option.some.inj (hf.symm.trans hc)
      rw [hwire m hmem hmi]
    · intro m hmem hmi hname
      rw [hwire m hmem hmi, hm] at hname
      simp [comMessageReq, comMessageTmp] at hname
    · intro c hc _ hprem
      obtain rfl := Option.some.inj (hf.symm.trans hc)
      rcases hprem with ⟨m, hmem, hmi, -⟩ | ht
      · rcases hw m hmem hmi with hmem | hmem
        · exact absurd hmi (hnone _ m hmem)
        · simp at hmem
      · simp at ht
  | @requestAgain st =>
    exact h.client_change hold hf ho hw hwo rfl id (by simp [Change.sent]) (by simp [Change.sent]) Or.inl
  | @final st hm hs =>
    exact h.client_change hold hf ho hw hwo rfl (fun _ => rfl) (by simp [Change.sent]) (by simp [Change.sent])
      (by simp [TTransState.moveTo])
  | @provisional st hm hs =>
    exact h.client_change hold hf ho hw hwo rfl (by simp [hs]) (by simp [Change.sent]) (by simp [Change.sent])
      fun _ => Or.inr ⟨msg, hmem rfl, hid, hm⟩
  | @confirmed st hm hs =>
    refine h.client_change hold hf ho hw hwo rfl (fun _ => rfl) ?_ (fun _ _ _ => rfl) (by simp [TTransState.moveTo])
    intro m hm hname
    obtain rfl : m = genComMsgResp msg 100 := by simpa [Change.sent] using hm
    rw [htmp] at hname
    simp [comMessageReq, comMessageTmp] at hname
  | @finalAgain st hm hs =>
    refine h.client_change hold hf ho hw hwo rfl id ?_ (fun _ _ _ => hs) Or.inl
    intro m hm hname
    obtain rfl : m = genComMsgResp msg 100 := by simpa [Change.sent] using hm
    rw [htmp] at hname
    simp [comMessageReq, comMessageTmp] at hname
  | @stale st hm hs =>
    exact h.client_change hold hf ho hw hwo rfl id (by simp [Change.sent]) (by simp [Change.sent]) Or.inl

lemma server_moves (h : Joint i n) (hinv : NetInv n) (hid : msg.transID = some i) (hkey : key ≠ 0)
    (hmem : fromwire = true → msg ∈ n.wire .server)
    (hm : Moves i msg key .server fromwire (n.find .server i) c) (hf : n'.find .server i = some c.state)
    (ho : n'.find .client i = n.find .client i) (hw : WireFrom i n n' .server [])
    (hwo : WireFrom i n n' .client (c.sent fromwire msg)) : Joint i n' := by
  have hok : ∀ st, n.find .server i = some st → ServerOk i st := fun st => (hinv.party .server).ok i st
  obtain ⟨ct, hct⟩ : ∃ ct, n.find .client i = some ct := by
    refine h.client_exists ?_
    generalize n.find .server i = old at hm
    cases hm with
    | opened | answered => exact Or.inr ⟨.server, msg, hmem rfl, hid⟩
    | _ => exact Or.inl (by simp)
  have hsame : ∀ st, n.find .server i = some st → st.needrsp = ct.needrsp := fun st => h.same ct st hct
  have hcom : ∀ st st' : TTransState, n.find .server i = some st → st'.tsstate = st.tsstate → st'.timer = st.timer →
      ∀ s, n.find .server i = some s → Committed ct s → Committed ct st' := by
    intro st st' hst h1 h2 s hs hcom
    obtain rfl : st = s := Option.some.inj (hst.symm.trans hs)
    rw [Committed, h1, h2]
    exact hcom
  generalize hold : n.find .server i = old at hm
  cases hm with
  | opened hm hn =>
    refine h.server_change hct hf ho hw hwo ?_ (by simp [Change.sent]) (by simp [hold])
    rw [← h.req ct hct msg (hmem rfl) hid hm, hn]
  | answered hm hn =>
    have hneed : ct.needrsp = false := by rw [← h.req ct hct msg (hmem rfl) hid hm, hn]
    exact h.server_change hct hf ho hw hwo hneed.symm (by simp [hneed]) (by simp [hold])
  | @repeated st hm hs =>
    refine h.server_change hct hf ho hw hwo (hsame st hold) (fun _ _ _ _ => rfl) ?_
    exact fun _ _ _ => Or.inl rfl
  | @repeatedAgain st hm hs =>
    exact h.server_change hct hf ho hw hwo (hsame st hold) (fun _ _ _ _ => hs) (hcom st _ hold rfl rfl)
  | @resent st rsp hm hs hr =>
    refine h.server_change hct hf ho hw hwo (hsame st hold) ?_ (hcom st _ hold rfl rfl)
    intro m hmem hname _
    obtain rfl : m = rsp := by simpa [Change.sent] using hmem
    rw [((hok st hold).rsp m hr).1] at hname
    simp [comMessageRsp, comMessageTmp] at hname
  | @answeredAgain st hm hs hn =>
    refine h.server_change hct hf ho hw hwo (hsame st hold) ?_ (hcom st _ hold rfl rfl)
    intro m _ _ hneed
    rw [← hsame st hold, hn] at hneed
    simp at hneed
  | @acked st hm hs =>
    obtain ⟨c, hc, hterm⟩ := h.ack msg (hmem rfl) hid hm
    obtain rfl : ct = c := Option.some.inj (hct.symm.trans hc)
    exact h.server_change hct hf ho hw hwo (hsame st hold) (by simp [Change.sent])
      fun _ _ _ => Or.inr ⟨hs, Or.inr hterm⟩
  | @ackedEarly st hm hs =>
    exact h.server_change hct hf ho hw hwo (hsame st hold) (by simp [Change.sent]) (hcom st _ hold rfl rfl)
  | @response st hm hs =>
    refine h.server_change hct hf ho hw hwo (hsame st hold) ?_ ?_
    · intro m hmem hname _
      obtain rfl : m = msg := by simpa [Change.sent] using hmem
      rw [hm] at hname
      simp [comMessageRsp, comMessageTmp] at hname
    · intro s hs' hcom
      obtain rfl : st = s := Option.some.inj (hold.symm.trans hs')
      simp [Committed, hs] at hcom
  | @responseLate st hm hs =>
    refine h.server_change hct hf ho hw hwo (hsame st hold) ?_ fun _ _ _ => Or.inr ⟨rfl, Or.inl hkey⟩
    intro m hmem hname _
    obtain rfl : m = msg := by simpa [Change.sent] using hmem
    rw [hm] at hname
    simp [comMessageRsp, comMessageTmp] at hname
  | @responseAgain st hm hs =>
    exact h.server_change hct hf ho hw hwo (hsame st hold) (by simp [Change.sent]) (hcom st _ hold rfl rfl)

lemma step {e : Event} (h : Joint i n) (hinv : NetInv n) (hl : Local i n n' e)
    (hx : ∀ side ids code, e = .expire side ids code → i ∉ ids) : Joint i n' := by
  cases hl with
  | rest hf hw _ =>
    have hwire : ∀ side, ∀ m ∈ n'.wire side, m.transID = some i → m ∈ n.wire side := by
      intro side m hm hmi
      rcases hw side m hm hmi with hm | hm
      · exact hm
      · simp at hm
    refine ⟨?_, ?_, ?_, ?_, ?_⟩
    · intro hnone
      obtain ⟨h1, h2⟩ := h.started (hf _ ▸ hnone)
      exact ⟨(hf _).trans h1, fun side m hm hmi => h2 side m (hwire side m hm hmi) hmi⟩
    · rw [hf, hf]
      exact h.same
    · intro ct hct m hm hmi
      exact h.req ct (hf _ ▸ hct) m (hwire _ m hm hmi) hmi
    · intro m hm hmi
      rw [hf]
      exact h.ack m (hwire _ m hm hmi) hmi
    · intro ct hct hn hprem
      rw [hf]
      refine h.tmp ct (hf _ ▸ hct) hn ?_
      exact hprem.imp_left fun ⟨m, hm, hmi, hname⟩ => ⟨m, hwire _ m hm hmi, hmi, hname⟩
  | @moves side fromwire msg key c hid hmem hkey hm hf ho hw hwo =>
    cases side with
    | client => exact h.client_moves hid hmem hm hf ho hw hwo
    | server => exact h.server_moves hinv hid hkey hmem hm hf ho hw hwo
  | @fire side tk key st hkey hst ht hf ho hw hwo =>
    cases side with
    | client =>
      have hok : ClientOk i st := (hinv.party .client).ok i st hst
      have hfw : st.tsstate = .forward := by
        by_contra hs
        exact ht (hok.stopped hs)
      obtain ⟨-, m, hm, hname, -, hneed⟩ := hok.waiting hfw
      rw [hm] at hwo
      refine h.client_change hst hf ho hw hwo rfl id ?_ ?_ Or.inl
      · intro m' hm' _
        obtain rfl : m' = m := by simpa using hm'
        exact hneed
      · intro m' hm' hname'
        obtain rfl : m' = m := by simpa using hm'
        rw [hname] at hname'
        simp [comMessageReq, comMessageTmp] at hname'
    | server =>
      have hok : ServerOk i st := (hinv.party .server).ok i st hst
      obtain ⟨ct, hct⟩ := h.client_exists (Or.inl (by simp [hst]))
      refine h.server_change hct hf ho hw hwo (h.same ct st hct hst) ?_ ?_
      · intro m hm hname _
        rw [(hok.rsp m (Option.mem_toList.mp hm)).1] at hname
        simp [comMessageRsp, comMessageTmp] at hname
      · exact fun _ _ _ => Or.inr ⟨hok.timer ht, Or.inl hkey⟩
  | expire hi _ => exact absurd hi (hx _ _ _ rfl)

end Joint

lemma joint_run {clientTimeOut serverTimeOut : ℕ} {es : List Event} {n : Net}
    (h : Run Step (Net.init clientTimeOut serverTimeOut) es n) :
    NetInv n ∧ ∀ i, ¬Expired .client i es → ¬Expired .server i es → Joint i n := by
  refine h.invariant (I := fun es n => NetInv n ∧
    ∀ i, ¬Expired .client i es → ¬Expired .server i es → Joint i n) ?_ ?_
  · have hinv := netInv_init clientTimeOut serverTimeOut
    have hnone : ∀ side i, (Net.init clientTimeOut serverTimeOut).find side i = none := by
      intro side i
      cases side <;> simp only [Net.find, Net.init, TTransMachine.tminit] <;> split <;> rfl
    have hwire : ∀ side, (Net.init clientTimeOut serverTimeOut).wire side = [] := fun _ => rfl
    refine ⟨hinv, fun i _ _ => ⟨?_, ?_, ?_, ?_, ?_⟩⟩ <;> simp [hnone, hwire]
  · rintro es n e n' ⟨hinv, hjoint⟩ hs
    refine ⟨hinv.step hs, fun i hc hsrv => ?_⟩
    refine (hjoint i (Expired.snoc hc) (Expired.snoc hsrv)).step hinv (step_local hinv hs i) ?_
    rintro side ids code rfl hi
    cases side with
    | client => exact hc ⟨ids, code, by simp, hi⟩
    | server => exact hsrv ⟨ids, code, by simp, hi⟩

def Net.Armed (n : Net) (side : Side) (i : CStr) (st : TTransState) : Prop :=
  (n.party side).up = true ∧ st.timer ≠ 0 ∧ (st.timer, i) ∈ (n.party side).armed

def Holds (i : CStr) (st : TTransState) (name : ℕ) : Prop :=
  ∃ m, st.msg = some m ∧ m.msgName = name ∧ m.transID = some i

/-- Of a request that needs a final response: a client that waits for it, or for its application, can
count on a timer of its own or on the server, and where the server has it, one of the two sends again. -/
def Net.NotLost (n : Net) (i : CStr) : Prop :=
  (∀ ct, n.find .client i = some ct → ct.needrsp = true →
    (ct.tsstate = .forward → Holds i ct comMessageReq ∧ n.Armed .client i ct) ∧
    (ct.tsstate = .temporary → ∃ st, n.find .server i = some st ∧ (st.tsstate = .temporary ∨
      st.tsstate = .terminated ∧ Holds i st comMessageRsp ∧ n.Armed .server i st))) ∧
  (∀ st, n.find .server i = some st → st.needrsp = true → st.tsstate = .terminated →
    ∃ ct, n.find .client i = some ct ∧
      (¬n.Armed .server i st → ct.tsstate ≠ .terminated →
        ct.tsstate = .forward ∧ Holds i st comMessageRsp) ∧
      (ct.tsstate = .terminated ∨ n.Armed .client i ct ∨ n.Armed .server i st))

/-- No timer fires whose parameter is a null pointer. -/
def NoCrash (es : List Event) : Prop := ∀ side tk, Event.crash side tk ∉ es

@[simp] lemma Party.after_up (p : Party) (r : Processed) : (p.after r).up = p.up := by
  have hcalls : ∀ (calls : List TimerCall) (p : Party), (calls.foldl Party.call p).up = p.up := by
    intro calls
    induction calls with
    | nil => exact fun _ => rfl
    | cons c calls ih =>
      intro p
      rw [List.foldl_cons, ih]
      cases c <;> rfl
  exact hcalls r.calls p

lemma Step.up {n n' : Net} {e : Event} (h : Step n e n') (he : ∀ side tk, e ≠ .crash side tk) (side : Side) :
    (n'.party side).up = (n.party side).up := by
  cases h with
  | crash => exact absurd rfl (he _ _)
  | fire =>
    rw [Net.processed_party, Net.disarm_party, Net.disarm_party]
    split_ifs with hs <;> simp [hs]
  | duplicate | lose => rfl
  | _ =>
    simp only [Net.processed_party, Net.setWire_party]
    split_ifs with hs <;> simp [hs]

lemma up_run {clientTimeOut serverTimeOut : ℕ} {es : List Event} {n : Net}
    (h : Run Step (Net.init clientTimeOut serverTimeOut) es n) (hn : NoCrash es) (side : Side) :
    (n.party side).up = true := by
  have hall : NoCrash es → ∀ side, (n.party side).up = true := by
    refine h.invariant (I := fun es n => NoCrash es → ∀ side, (n.party side).up = true) ?_ ?_
    · intro _ side
      cases side <;> rfl
    · intro es n e n' ih hs hno side
      rw [hs.up (fun s tk he => hno s tk (by simp [he]))]
      exact ih (fun s tk hm => hno s tk (List.mem_append_left _ hm)) side
  exact hall hn side

lemma NetInv.armed_iff {n : Net} (h : NetInv n) {side : Side} (hup : (n.party side).up = true) {i : CStr}
    {st : TTransState} (hst : n.find side i = some st) : n.Armed side i st ↔ st.timer ≠ 0 :=
  ⟨fun ha => ha.2.1, fun h0 => ⟨hup, h0, ((h.party side).armed _ i).mpr ⟨h0, st, hst, rfl⟩⟩⟩

lemma ServerOk.holds {i : CStr} {st : TTransState} (h : ServerOk i st) (hs : st.tsstate = .terminated)
    (hn : st.needrsp = true) : Holds i st comMessageRsp := by
  cases hm : st.msg with
  | none => exact absurd hm (h.stored hs hn)
  | some m => exact ⟨m, hm, h.rsp m hm⟩

theorem final_response_not_lost {clientTimeOut serverTimeOut : ℕ} {es : List Event} {n : Net} {i : CStr}
    (h : Run Step (Net.init clientTimeOut serverTimeOut) es n) (hn : NoCrash es)
    (hc : ¬Expired .client i es) (hs : ¬Expired .server i es) : n.NotLost i := by
  obtain ⟨hinv, hjoint⟩ := joint_run h
  have hup := up_run h hn
  have hj := hjoint i hc hs
  have hclient : ∀ ct, n.find .client i = some ct → ClientOk i ct := fun ct => (hinv.party .client).ok i ct
  have hserver : ∀ st, n.find .server i = some st → ServerOk i st := fun st => (hinv.party .server).ok i st
  have htemp : ∀ ct, n.find .client i = some ct → ct.needrsp = true → ct.tsstate = .temporary →
      ∃ st, n.find .server i = some st ∧ (st.tsstate = .temporary ∨
        st.tsstate = .terminated ∧ Holds i st comMessageRsp ∧ n.Armed .server i st) := by
    intro ct hct hn ht
    obtain ⟨st, hst, hcom⟩ := hj.tmp ct hct hn (Or.inr ht)
    refine ⟨st, hst, hcom.imp_right fun ⟨hterm, htimer⟩ => ?_⟩
    refine ⟨hterm, (hserver st hst).holds hterm ((hj.same ct st hct hst).trans hn), ?_⟩
    exact (hinv.armed_iff (hup _) hst).mpr (htimer.resolve_right (by simp [ht]))
  constructor
  · intro ct hct hn
    refine ⟨fun hfw => ?_, htemp ct hct hn⟩
    obtain ⟨h0, m, hm, hname, hmi, -⟩ := (hclient ct hct).waiting hfw
    exact ⟨⟨m, hm, hname, hmi⟩, (hinv.armed_iff (hup _) hct).mpr h0⟩
  · intro st hst hn hterm
    obtain ⟨ct, hct⟩ := hj.client_exists (Or.inl (by simp [hst]))
    have hneed : ct.needrsp = true := (hj.same ct st hct hst).symm.trans hn
    have hcases : ct.tsstate = .forward ∨ ct.tsstate = .terminated ∨ n.Armed .server i st := by
      cases hct' : ct.tsstate with
      | init => exact absurd hct' (hclient ct hct).started
      | forward => exact Or.inl rfl
      | terminated => exact Or.inr (Or.inl rfl)
      | temporary =>
        obtain ⟨s, hs', hcom⟩ := htemp ct hct hneed hct'
        obtain rfl : st = s := Option.some.inj (hst.symm.trans hs')
        exact Or.inr (Or.inr (hcom.resolve_left (by simp [hterm])).2.2)
    refine ⟨ct, hct, ?_, ?_⟩
    · intro harmed hnot
      exact ⟨hcases.resolve_right fun h => h.elim hnot harmed, (hserver st hst).holds hterm hn⟩
    · rcases hcases with hfw | ht | ha
      · exact Or.inr (Or.inl ((hinv.armed_iff (hup _) hct).mpr ((hclient ct hct).waiting hfw).1))
      · exact Or.inl ht
      · exact Or.inr (Or.inr ha)

def lateResponse : List Event :=
  duplicated ++ [.deliver .client (genComMsgResp (exampleMsg comMessageReq) 100) .null,
    .app .server (exampleMsg comMessageRsp) .forward]

theorem late_response_not_lost : ∃ n, Run Step (Net.init 0 0) lateResponse n ∧
    ∃ st, n.find .server [1] = some st ∧ (st.tsstate = .temporary ∨
      st.tsstate = .terminated ∧ Holds [1] st comMessageRsp ∧ n.Armed .server [1] st) := by
  have hrun : ∃ n, Run Step (Net.init 0 0) lateResponse n ∧
      ∃ ct, n.find .client [1] = some ct ∧ ct.needrsp = true ∧ ct.tsstate = .temporary := by
    refine Run.exists_cons (@Step.app _ .client (exampleMsg comMessageReq) 7 0 _ rfl rfl
      ⟨by decide, by decide⟩ rfl) ?_
    refine Run.exists_cons (Step.duplicate (List.Mem.head _)) ?_
    refine Run.exists_cons (@Step.deliver _ .server (exampleMsg comMessageReq) 8 0 _ rfl (List.Mem.head _)
      ⟨by decide, by decide⟩ rfl) ?_
    refine Run.exists_cons (@Step.deliver _ .server (exampleMsg comMessageReq) 8 0 _ rfl (List.Mem.head _)
      ⟨by decide, by decide⟩ rfl) ?_
    refine Run.exists_cons (@Step.deliver _ .client (genComMsgResp (exampleMsg comMessageReq) 100) 8 0 _
      rfl (List.Mem.head _) ⟨by decide, by decide⟩ rfl) ?_
    refine Run.exists_cons (@Step.app _ .server (exampleMsg comMessageRsp) 8 0 _ rfl rfl
      ⟨by decide, by decide⟩ rfl) ?_
    exact ⟨_, .nil, _, rfl, rfl, rfl⟩
  obtain ⟨n, hn, ct, hct, hneed, ht⟩ := hrun
  have hno : NoCrash lateResponse := by simp [NoCrash, lateResponse, duplicated]
  have hc : ¬Expired .client [1] lateResponse := by simp [Expired, lateResponse, duplicated]
  have hs : ¬Expired .server [1] lateResponse := by simp [Expired, lateResponse, duplicated]
  exact ⟨n, hn, ((final_response_not_lost hn hno hc hs).1 ct hct hneed).2 ht⟩

def emptyId : TUniNetMsg := { exampleMsg comMessageReq with transID := some [] }

theorem response_lost_empty : ∃ n, Run Step (Net.init 0 0) [.app .client emptyId .forward, .crash .client 7] n ∧
    ¬Expired .client [] [.app .client emptyId .forward, .crash .client 7] ∧
      ¬Expired .server [] [.app .client emptyId .forward, .crash .client 7] ∧ ¬n.NotLost [] := by
  have hrun : ∃ n, Run Step (Net.init 0 0) [.app .client emptyId .forward, .crash .client 7] n ∧
      (n.party .client).up = false ∧
        ∃ ct, n.find .client [] = some ct ∧ ct.needrsp = true ∧ ct.tsstate = .forward := by
    refine Run.exists_cons (@Step.app _ .client emptyId 7 0 _ rfl rfl ⟨by decide, by decide⟩ rfl) ?_
    refine Run.exists_cons (Step.crash rfl (List.Mem.head _)) ?_
    exact ⟨_, .nil, rfl, _, rfl, rfl, rfl⟩
  obtain ⟨n, hn, hup, ct, hct, hneed, hfw⟩ := hrun
  refine ⟨n, hn, by simp [Expired], by simp [Expired], fun hlost => ?_⟩
  have harmed := ((hlost.1 ct hct hneed).1 hfw).2
  exact absurd harmed.1 (by simp [hup])

end Xframe.Transport
