import Xframe.Lib.Run
import Xframe.Facility.MqttStateMachine

/-! The client and the server of the TCP links joined by two reliable FIFO channels, with an application
behind the server that acknowledges each request it is given. -/

namespace Xframe.Facility

open Xframe.Lib

namespace MqttName

def isRequest : MqttName → Bool
  | connect | subscribe | unsubscribe => true
  | _ => false

def ack : MqttName → MqttName
  | connect => connack
  | subscribe => suback
  | unsubscribe => unsuback
  | _ => other

end MqttName

def ClientState.waits : ClientState → Option MqttName
  | waitConack => some .connect
  | waitSuback => some .subscribe
  | waitUnsuback => some .unsubscribe
  | _ => none

def ServerState.due : ServerState → List MqttName
  | recvCon => [.connect]
  | recvSub => [.subscribe]
  | recvUnsub => [.unsubscribe]
  | _ => []

/-- The requests that the server takes up. Any other request is refused, so a repeated one too. -/
def ServerState.accepts : ServerState → List MqttName
  | init => [.connect]
  | connected => [.subscribe, .unsubscribe]
  | _ => []

/-- `up` and `down` are the messages in flight, `app` the requests that wait for the application. -/
structure Handshake where
  client : ClientTcpLink
  server : ServerTcpLink
  up : List MqttName
  down : List MqttName
  app : List MqttName
  deriving DecidableEq

inductive HandshakeEvent where
  | want (msg : MqttName)
  | clientSend
  | timeOut (timerKey : ℕ)
  | serverRecv
  | answer (msg : MqttName)
  | serverPublish
  | serverSend
  | clientRecv

namespace Handshake

def new : Handshake := ⟨.new, .new, [], [], []⟩

abbrev sm (s : Handshake) : MqttClientStateMachine := s.client.stateMachine

abbrev clientState (s : Handshake) : ClientState := s.client.stateMachine.curState

abbrev serverState (s : Handshake) : ServerState := s.server.stateMachine.curState

def expire (c : ClientTcpLink) (timerKey : ℕ) : ClientTcpLink :=
  { c with stateMachine := { c.stateMachine with link := c.stateMachine.link.delTimer timerKey } }

def step (s : Handshake) : HandshakeEvent → Option Handshake
  | .want msg => some { s with client := s.client.wantToSend (some msg) }
  | .clientSend => do
    let (out, client) ← s.client.processSend
    some { s with client := client, up := s.up ++ out }
  | .timeOut timerKey =>
    if timerKey ∈ s.sm.link.live then some { s with client := (expire s.client timerKey).onTimeOut timerKey }
    else none
  | .serverRecv =>
    match s.up with
    | [] => none
    | msg :: up => do
      let (forwarded, server) ← s.server.protocolLogic msg
      some { s with up := up, server := server, app := s.app ++ forwarded.filter MqttName.isRequest }
  | .answer msg =>
    if msg ∈ s.app then some { s with app := s.app.erase msg, server := s.server.wantToSend msg.ack } else none
  | .serverPublish => some { s with server := s.server.wantToSend .publish }
  | .serverSend =>
    let (out, server) := s.server.processSend
    some { s with server := server, down := s.down ++ out }
  | .clientRecv =>
    match s.down with
    | [] => none
    | msg :: down => some { s with down := down, client := s.client.protocolLogic msg }

abbrev Steps (s : Handshake) (e : HandshakeEvent) (t : Handshake) : Prop := s.step e = some t

def Quiet (s : Handshake) : Prop :=
  s.up = [] ∧ s.down = [] ∧ s.client.wantsToSend = [] ∧ s.server.wantsToSend = [] ∧ s.app = []

def Agreed (s : Handshake) : Prop := s.clientState ≠ .init ∧ s.clientState.waits = none

def UnderWay (s : Handshake) (msg : MqttName) : Prop :=
  msg ∈ s.up ∨ msg ∈ s.app ∨ msg.ack ∈ s.server.wantsToSend ∨ msg.ack ∈ s.down

/-- Before the step: a request on which the client waits reaches a server whose state does not accept it only
while another one like it, or its acknowledgement, is under way. -/
def Heard (s : Handshake) : HandshakeEvent → Prop
  | .serverRecv => ∀ msg up, s.up = msg :: up → s.clientState.waits = some msg →
      msg ∉ s.serverState.accepts → UnderWay { s with up := up } msg
  | _ => True

abbrev HeardSteps (s : Handshake) (e : HandshakeEvent) (t : Handshake) : Prop := s.step e = some t ∧ s.Heard e

def Gone (s : Handshake) : Prop := s.serverState = .ended ∨ MqttName.disconnect ∈ s.up

end Handshake

structure ClientOk (gone : Prop) (c : MqttClientStateMachine) : Prop where
  pos : ∀ k ∈ c.link.live, 0 < k
  resend_lt : c.resendTimer < c.link.next
  init : c.resendTimer ∈ c.link.live → c.preState = .init → c.msg = some .connect
  wait : c.resendTimer ∈ c.link.live → ∀ m, c.preState.waits = some m → gone

namespace ClientOk

variable {gone gone' : Prop} {c : MqttClientStateMachine}

lemma mono (h : ClientOk gone c) (hg : gone → gone') : ClientOk gone' c where
  pos := h.pos
  resend_lt := h.resend_lt
  init := h.init
  wait hl m hm := hg (h.wait hl m hm)

lemma setKeepalive (h : ClientOk gone c) : ClientOk gone c.setKeepalive where
  pos k hk := by
    obtain rfl | hk := List.mem_cons.mp hk
    · exact Nat.zero_lt_of_lt h.resend_lt
    · exact h.pos k hk
  resend_lt := Nat.lt_succ_of_lt h.resend_lt
  init hl := h.init ((List.mem_cons.mp hl).resolve_left h.resend_lt.ne)
  wait hl := h.wait ((List.mem_cons.mp hl).resolve_left h.resend_lt.ne)

lemma setResend (h : ClientOk gone c) (hi : c.preState = .init → c.msg = some .connect)
    (hw : c.preState.waits = none) : ClientOk gone c.setResend where
  pos k hk := by
    obtain rfl | hk := List.mem_cons.mp hk
    · exact Nat.zero_lt_of_lt h.resend_lt
    · exact h.pos k hk
  resend_lt := Nat.lt_succ_self _
  init _ := hi
  wait _ m hm := by
    change c.preState.waits = some m at hm
    rw [hw] at hm
    cases hm

lemma of_notMem (pos : ∀ k ∈ c.link.live, 0 < k) (hlt : c.resendTimer < c.link.next)
    (h : c.resendTimer ∉ c.link.live) : ClientOk gone c where
  pos := pos
  resend_lt := hlt
  init hl := absurd hl h
  wait hl := absurd hl h

lemma remember (h : ClientOk gone c) {m : MqttName} {state : ClientState} {b : Bool}
    (hi : c.curState = .init → m = .connect) (hw : ∀ x, c.curState.waits = some x → gone) :
    ClientOk gone { c with msg := some m, preState := c.curState, curState := state, smChange := b } where
  pos := h.pos
  resend_lt := h.resend_lt
  init _ hp := congrArg some (hi hp)
  wait _ m hm := hw m hm

lemma sendRequest (h : ClientOk gone c) (m : MqttName) (wait : ClientState) :
    ClientOk gone (c.sendRequest m wait).2 := by
  rw [MqttClientStateMachine.sendRequest]
  split_ifs with hc
  · exact h
  · rw [not_not] at hc
    have hs : ClientOk gone (c.sending m wait) :=
      h.remember (fun hi => by simp [hc] at hi) fun x hx => by simp [hc, ClientState.waits] at hx
    refine (hs.setResend (fun hp => ?_) ?_).setKeepalive
    · change c.curState = .init at hp
      simp [hc] at hp
    · change c.curState.waits = none
      rw [hc]
      rfl

lemma onSend (h : ClientOk gone c) (m : MqttName) (hd : m = .disconnect → (c.onSend m).1 = .sendForward → gone) :
    ClientOk gone (c.onSend m).2 := by
  cases m with
  | connect =>
    rw [MqttClientStateMachine.onSend]
    split_ifs with hc
    · exact h
    · rw [not_not] at hc
      have hs : ClientOk gone (c.sending .connect .waitConack) :=
        h.remember (fun _ => rfl) fun x hx => by simp [hc, ClientState.waits] at hx
      refine hs.setResend (fun _ => rfl) ?_
      change c.curState.waits = none
      rw [hc]
      rfl
  | publish =>
    rw [MqttClientStateMachine.onSend]
    split_ifs with hc
    · exact h
    · rw [not_not] at hc
      exact (h.remember (fun hi => by simp [hc] at hi) fun x hx => by simp [hc, ClientState.waits] at hx).setKeepalive
  | subscribe => exact h.sendRequest _ _
  | unsubscribe => exact h.sendRequest _ _
  | pingreq => exact h.sendRequest _ _
  | disconnect =>
    rw [MqttClientStateMachine.onSend] at hd ⊢
    split_ifs at hd ⊢ with hc
    · exact h
    · exact h.remember (fun hi => absurd hi hc) fun _ _ => hd rfl rfl
  | connack => exact h
  | suback => exact h
  | unsuback => exact h
  | pingresp => exact h
  | other => exact h

lemma dropResend (h : ClientOk gone c) (g : Prop) (pre : ClientState) (cur : ClientState) :
    ClientOk g ({ c with preState := pre, curState := cur, smChange := true }.dropResend) := by
  rw [MqttClientStateMachine.dropResend]
  split_ifs with hz
  · refine of_notMem (fun k hk => h.pos k (List.mem_of_mem_filter hk)) (Nat.zero_lt_of_lt h.resend_lt) fun hm => ?_
    exact absurd (h.pos 0 (List.mem_of_mem_filter hm)) (lt_irrefl 0)
  · rw [not_not] at hz
    refine of_notMem h.pos h.resend_lt fun hm => ?_
    exact absurd (h.pos _ hm) (by rw [hz]; exact lt_irrefl 0)

lemma delTimer (h : ClientOk gone c) (key : ℕ) : ClientOk gone { c with link := c.link.delTimer key } where
  pos k hk := h.pos k (List.mem_of_mem_filter hk)
  resend_lt := h.resend_lt
  init hl := h.init (List.mem_of_mem_filter hl)
  wait hl := h.wait (List.mem_of_mem_filter hl)

lemma dropKeepalive (h : ClientOk gone c) : ClientOk gone c.dropKeepalive := by
  rw [MqttClientStateMachine.dropKeepalive]
  split_ifs
  · have hd := h.delTimer c.keepaliveTimer
    exact ⟨hd.pos, hd.resend_lt, hd.init, hd.wait⟩
  · exact h

lemma onRecv (h : ClientOk gone c) (m : MqttName) : ClientOk gone (c.onRecv m).2 := by
  have hack : ∀ wait, ClientOk gone (c.recvAck wait).2 := fun wait => by
    rw [MqttClientStateMachine.recvAck]
    split_ifs
    · exact h
    · exact (h.dropResend gone _ _).setKeepalive
  cases m with
  | connack => exact hack _
  | suback => exact hack _
  | unsuback => exact hack _
  | pingresp => exact hack _
  | disconnect => exact (h.dropResend gone _ _).dropKeepalive
  | _ => exact h

lemma onTimeOut (h : ClientOk gone c) (key : ℕ) : ClientOk gone (c.onTimeOut key).2.2 := by
  rw [MqttClientStateMachine.onTimeOut]
  split_ifs
  · refine of_notMem (fun k hk => h.pos k (List.mem_of_mem_filter hk)) h.resend_lt fun hm => ?_
    simp [LinkTimers.delTimer] at hm
  · have hd := h.delTimer c.keepaliveTimer
    exact ⟨hd.pos, hd.resend_lt, hd.init, hd.wait⟩
  · exact h

end ClientOk

lemma ClientState.waits_cases {st : ClientState} {x : MqttName} (h : st.waits = some x) :
    st = waitConack ∧ x = .connect ∨ st = waitSuback ∧ x = .subscribe ∨ st = waitUnsuback ∧ x = .unsubscribe := by
  cases st <;> simp_all [waits]

namespace MqttClientStateMachine

variable {c : MqttClientStateMachine} {m : MqttName} {wait : ClientState}

@[simp] lemma setResend_curState : c.setResend.curState = c.curState := rfl

@[simp] lemma setKeepalive_curState : c.setKeepalive.curState = c.curState := rfl

@[simp] lemma sending_curState : (c.sending m wait).curState = wait := rfl

@[simp] lemma dropResend_curState : c.dropResend.curState = c.curState := by
  rw [dropResend]
  split <;> rfl

@[simp] lemma dropKeepalive_curState : c.dropKeepalive.curState = c.curState := by
  rw [dropKeepalive]
  split <;> rfl

def Sends (c : MqttClientStateMachine) (m : MqttName) (r : ClientCode × MqttClientStateMachine) : Prop :=
  (r.1 = .sendForward ∧ r.2.curState ≠ .init ∧
      ∀ x, r.2.curState.waits = some x → x = m ∧ ClientTcpLink.sendable m = true) ∨
    (r.1 ≠ .sendForward ∧ r.2 = c ∧ (c.curState = .init → m ≠ .connect))

lemma sends_request (hm : m ≠ .connect) (hi : wait ≠ .init)
    (hw : ∀ x, wait.waits = some x → x = m ∧ ClientTcpLink.sendable m = true) :
    Sends c m (c.sendRequest m wait) := by
  rw [sendRequest]
  split_ifs
  · exact .inr ⟨by simp, rfl, fun _ => hm⟩
  · exact .inl ⟨rfl, by simpa using hi, by simpa using hw⟩

lemma sends_onSend (c : MqttClientStateMachine) (m : MqttName) : Sends c m (c.onSend m) := by
  cases m with
  | connect =>
    rw [onSend]
    split_ifs with hc
    · exact .inr ⟨by simp, rfl, fun h => absurd h hc⟩
    · refine .inl ⟨rfl, by simp, fun x hx => ?_⟩
      simp only [setResend_curState, sending_curState, ClientState.waits, Option.some.injEq] at hx
      exact ⟨hx.symm, rfl⟩
  | publish =>
    rw [onSend]
    split_ifs with hc
    · exact .inr ⟨by simp, rfl, fun _ => by simp⟩
    · rw [not_not] at hc
      exact .inl ⟨rfl, by simp [hc], by simp [hc, ClientState.waits]⟩
  | subscribe => exact sends_request (by simp) (by simp) fun x hx => ⟨(Option.some.inj hx).symm, rfl⟩
  | unsubscribe => exact sends_request (by simp) (by simp) fun x hx => ⟨(Option.some.inj hx).symm, rfl⟩
  | pingreq => exact sends_request (by simp) (by simp) (by simp [ClientState.waits])
  | disconnect =>
    rw [onSend]
    split_ifs with hc
    · exact .inr ⟨by simp, rfl, fun _ => by simp⟩
    · exact .inl ⟨rfl, by simp, by simp [ClientState.waits]⟩
  | _ => exact .inr ⟨by simp [onSend], rfl, fun _ => by simp⟩

def Hears (c : MqttClientStateMachine) (m : MqttName) (r : ClientCode × MqttClientStateMachine) : Prop :=
  r.2.curState = c.curState ∧ (∀ x, c.curState.waits = some x → x.ack ≠ m) ∨
    r.2.curState.waits = none ∧ r.2.curState ≠ .init

lemma hears_ack (hw : ∀ x, c.curState.waits = some x → x.ack = m → c.curState = wait) :
    Hears c m (c.recvAck wait) := by
  rw [recvAck]
  split_ifs with hc
  · exact .inl ⟨rfl, fun x hx hm => hc (hw x hx hm)⟩
  · exact .inr (by simp [ClientState.waits])

lemma hears_onRecv (c : MqttClientStateMachine) (m : MqttName) : Hears c m (c.onRecv m) := by
  cases m with
  | connack =>
    refine hears_ack fun x hx hm => ?_
    obtain ⟨h, rfl⟩ | ⟨-, rfl⟩ | ⟨-, rfl⟩ := ClientState.waits_cases hx
    · exact h
    · cases hm
    · cases hm
  | suback =>
    refine hears_ack fun x hx hm => ?_
    obtain ⟨-, rfl⟩ | ⟨h, rfl⟩ | ⟨-, rfl⟩ := ClientState.waits_cases hx
    · cases hm
    · exact h
    · cases hm
  | unsuback =>
    refine hears_ack fun x hx hm => ?_
    obtain ⟨-, rfl⟩ | ⟨-, rfl⟩ | ⟨h, rfl⟩ := ClientState.waits_cases hx
    · cases hm
    · cases hm
    · exact h
  | pingresp =>
    refine hears_ack fun x hx hm => ?_
    obtain ⟨-, rfl⟩ | ⟨-, rfl⟩ | ⟨-, rfl⟩ := ClientState.waits_cases hx <;> cases hm
  | disconnect => exact .inr ⟨by simp [onRecv, ClientState.waits], by simp [onRecv]⟩
  | _ =>
    refine .inl ⟨rfl, fun x hx => ?_⟩
    obtain ⟨-, rfl⟩ | ⟨-, rfl⟩ | ⟨-, rfl⟩ := ClientState.waits_cases hx <;> simp [MqttName.ack]

end MqttClientStateMachine

namespace ClientTcpLink

lemma onTimeOut_stateMachine (l : ClientTcpLink) (key : ℕ) :
    (l.onTimeOut key).stateMachine = (l.stateMachine.onTimeOut key).2.2 := by
  rw [onTimeOut]
  dsimp only
  split <;> rfl

lemma onTimeOut_cases (l : ClientTcpLink) (key : ℕ) :
    (key = l.stateMachine.resendTimer ∧ (l.onTimeOut key).stateMachine.curState = l.stateMachine.preState ∧
        (l.onTimeOut key).wantsToSend = l.wantsToSend ++ [l.stateMachine.msg]) ∨
      ((l.onTimeOut key).stateMachine.curState = l.stateMachine.curState ∧
        ∃ queue, (l.onTimeOut key).wantsToSend = l.wantsToSend ++ queue) := by
  simp only [onTimeOut, MqttClientStateMachine.onTimeOut]
  by_cases h1 : key = l.stateMachine.resendTimer
  · exact .inl ⟨h1, by simp [h1, wantToSend], by simp [h1, wantToSend]⟩
  · by_cases h2 : key = l.stateMachine.keepaliveTimer
    · simp only [if_neg h1, if_pos h2]
      exact .inr ⟨rfl, [none], rfl⟩
    · simp only [if_neg h1, if_neg h2]
      exact .inr ⟨rfl, [], (List.append_nil _).symm⟩

end ClientTcpLink

namespace MqttServerStateMachine

variable {v v' : MqttServerStateMachine} {m x : MqttName} {code : ServerCode}

inductive Takes (v : MqttServerStateMachine) (m : MqttName) : ServerCode → MqttServerStateMachine → Prop
  | leave (v' : MqttServerStateMachine) : m = .disconnect → v'.curState = .ended → Takes v m .recvForward v'
  | accept (v' : MqttServerStateMachine) : m.isRequest = true → v.curState.due = [] → v.curState ≠ .ended →
      v'.curState.due = [m] → (v.curState = .init → m = .connect) → Takes v m .recvForward v'
  | refuse : m.isRequest = true → (v.curState = .init → m ≠ .connect) → Takes v m .recvRefuse v
  | pass (code : ServerCode) : m.isRequest = false → m ≠ .disconnect → Takes v m code v

lemma takes_request (state next : ServerState) (hr : m.isRequest = true) (hd : state.due = []) (he : state ≠ .ended)
    (hn : next.due = [m]) (hc : m = .connect ↔ state = .init) :
    Takes v m (v.recvRequest state next).1 (v.recvRequest state next).2 := by
  rw [recvRequest]
  split_ifs with h
  · exact .refuse hr fun hi hm => h (hi.trans (hc.mp hm).symm)
  · rw [not_not] at h
    exact .accept _ hr (h ▸ hd) (h ▸ he) hn fun hi => hc.mpr (h.symm.trans hi)

lemma onRecv_refuse_iff (hr : m.isRequest = true) :
    (v.onRecv m).map Prod.fst = some .recvRefuse ↔ m ∉ v.curState.accepts := by
  have hrequest (state next : ServerState) : (v.recvRequest state next).1 = .recvRefuse ↔ v.curState ≠ state := by
    rw [recvRequest]
    split_ifs with h
    · exact iff_of_true rfl h
    · exact iff_of_false (by simp) h
  have hstates (state next : ServerState) (h : v.onRecv m = some (v.recvRequest state next)) :
      (v.onRecv m).map Prod.fst = some .recvRefuse ↔ v.curState ≠ state := by
    rw [h, Option.map_some, Option.some.injEq]
    exact hrequest state next
  cases m with
  | connect =>
    rw [hstates .init .recvCon rfl]
    cases v.curState <;> simp [ServerState.accepts]
  | subscribe =>
    rw [hstates .connected .recvSub rfl]
    cases v.curState <;> simp [ServerState.accepts]
  | unsubscribe =>
    rw [hstates .connected .recvUnsub rfl]
    cases v.curState <;> simp [ServerState.accepts]
  | connack => cases hr
  | publish => cases hr
  | suback => cases hr
  | unsuback => cases hr
  | pingreq => cases hr
  | pingresp => cases hr
  | disconnect => cases hr
  | other => cases hr

lemma takes_onRecv (h : v.onRecv m = some (code, v')) : Takes v m code v' := by
  cases m with
  | connect =>
    have ht : Takes v .connect _ _ := takes_request .init .recvCon rfl rfl (by simp) rfl (by simp)
    rwa [Option.some.inj h] at ht
  | subscribe =>
    have ht : Takes v .subscribe _ _ := takes_request .connected .recvSub rfl rfl (by simp) rfl (by simp)
    rwa [Option.some.inj h] at ht
  | unsubscribe =>
    have ht : Takes v .unsubscribe _ _ := takes_request .connected .recvUnsub rfl rfl (by simp) rfl (by simp)
    rwa [Option.some.inj h] at ht
  | publish =>
    simp only [onRecv, Option.some.injEq] at h
    split_ifs at h
    · cases h
      exact .pass _ rfl (by simp)
    · cases h
      exact .pass _ rfl (by simp)
  | pingreq => cases h
  | disconnect =>
    cases Option.some.inj h
    exact .leave _ rfl rfl
  | _ =>
    cases Option.some.inj h
    exact .pass _ rfl (by simp)

lemma onSend_due (h : v.curState.due = [x]) : v.onSend x.ack = (.sendForward, v.change .connected) := by
  cases hc : v.curState with
  | recvCon =>
    obtain rfl : .connect = x := by simpa [hc, ServerState.due] using h
    exact if_neg (by simp [hc])
  | recvSub =>
    obtain rfl : .subscribe = x := by simpa [hc, ServerState.due] using h
    exact if_neg (by simp [hc])
  | recvUnsub =>
    obtain rfl : .unsubscribe = x := by simpa [hc, ServerState.due] using h
    exact if_neg (by simp [hc])
  | _ => simp [hc, ServerState.due] at h

lemma onSend_of_due_nil (h : v.curState.due = []) (m : MqttName) : (v.onSend m).2 = v := by
  cases m <;> simp only [onSend, sendAck] <;> split_ifs with hc <;> simp_all [ServerState.due]

end MqttServerStateMachine

namespace Handshake

structure Inv (s : Handshake) : Prop where
  client : ClientOk s.Gone s.sm
  server : s.serverState ≠ .ended →
    s.app.map MqttName.ack ++ s.server.wantsToSend.filter (· ≠ .publish) = s.serverState.due.map MqttName.ack
  waiting : ∀ m, s.clientState.waits = some m → s.UnderWay m ∨ s.Gone
  idle : s.clientState = .init →
    s.serverState = .init ∧ .connect ∉ s.up ∨ some .connect ∈ s.client.wantsToSend ∨ s.Gone

variable {s t : Handshake}

lemma inv_new : new.Inv where
  client := .of_notMem (by simp [new, ClientTcpLink.new, MqttClientStateMachine.new])
    (by simp [new, ClientTcpLink.new, MqttClientStateMachine.new])
    (by simp [new, ClientTcpLink.new, MqttClientStateMachine.new])
  server _ := rfl
  waiting m h := by cases h
  idle _ := .inl ⟨rfl, by simp [new]⟩

lemma Inv.want (h : s.Inv) (msg : MqttName) : Inv { s with client := s.client.wantToSend (some msg) } where
  client := h.client
  server := h.server
  waiting := h.waiting
  idle hi := (h.idle hi).imp_right fun hq => hq.imp_left fun hm => List.mem_append_left _ hm

lemma UnderWay.append_up {m : MqttName} (h : s.UnderWay m) (out : List MqttName) (c : ClientTcpLink) :
    UnderWay { s with client := c, up := s.up ++ out } m :=
  h.imp_left fun hm => List.mem_append_left _ hm

lemma Gone.append_up (h : s.Gone) (out : List MqttName) (c : ClientTcpLink) :
    Gone { s with client := c, up := s.up ++ out } :=
  h.imp_right fun hm => List.mem_append_left _ hm

lemma Inv.clientSend (h : s.Inv) (hs : s.step .clientSend = some t) : t.Inv := by
  cases hq : s.client.wantsToSend with
  | nil =>
    simp only [step, ClientTcpLink.processSend, hq, Option.bind_eq_bind, Option.bind_some, List.append_nil,
      Option.some.injEq] at hs
    exact hs ▸ h
  | cons head queue =>
    cases head with
    | none => simp [step, ClientTcpLink.processSend, hq] at hs
    | some msg =>
      simp only [step, ClientTcpLink.processSend, hq, Option.bind_eq_bind, Option.bind_some, Option.some.injEq] at hs
      subst hs
      obtain ⟨hf, hinit, hw⟩ | ⟨hf, hsame, hm⟩ := s.sm.sends_onSend msg
      · refine ⟨(h.client.mono fun hg => hg.append_up _ _).onSend msg fun hd _ => .inr ?_, h.server, fun m hm => ?_,
          fun hi => absurd hi hinit⟩
        · subst hd
          simp [hf, ClientTcpLink.sendable]
        · obtain ⟨rfl, hsend⟩ := hw m hm
          exact .inl (.inl (by simp [hf, hsend]))
      · have hout : ¬((s.client.stateMachine.onSend msg).1 = .sendForward ∧ ClientTcpLink.sendable msg = true) :=
          fun ho => hf ho.1
        have hsm : (s.client.stateMachine.onSend msg).2 = s.client.stateMachine := hsame
        simp only [if_neg hout, List.append_nil, hsm]
        refine ⟨h.client, h.server, h.waiting, fun hi => ?_⟩
        obtain hc | hc | hc := h.idle hi
        · exact .inl hc
        · rw [hq] at hc
          obtain hc | hc := List.mem_cons.mp hc
          · exact absurd (Option.some.inj hc).symm (hm hi)
          · exact .inr (.inl hc)
        · exact .inr (.inr hc)

lemma Inv.timeOut (h : s.Inv) {key : ℕ} (hs : s.step (.timeOut key) = some t) : t.Inv := by
  simp only [step] at hs
  split_ifs at hs with hlive
  obtain rfl := Option.some.inj hs
  have hok : ClientOk s.Gone (expire s.client key).stateMachine := h.client.delTimer key
  refine ⟨?_, h.server, fun m hm => ?_, fun hi => ?_⟩
  · rw [sm, ClientTcpLink.onTimeOut_stateMachine]
    exact hok.onTimeOut key
  · obtain ⟨hkey, hcur, -⟩ | ⟨hcur, -⟩ := ClientTcpLink.onTimeOut_cases (expire s.client key) key
    · rw [clientState, hcur] at hm
      exact .inr (h.client.wait (hkey ▸ hlive) m hm)
    · rw [clientState, hcur] at hm
      exact h.waiting m hm
  · obtain ⟨hkey, hcur, hqueue⟩ | ⟨hcur, queue, hqueue⟩ := ClientTcpLink.onTimeOut_cases (expire s.client key) key
    · rw [clientState, hcur] at hi
      have hmsg : s.sm.msg = some .connect := h.client.init (hkey ▸ hlive) hi
      refine .inr (.inl ?_)
      rw [hqueue, show (expire s.client key).stateMachine.msg = some .connect from hmsg]
      simp
    · rw [clientState, hcur] at hi
      refine (h.idle hi).imp_right fun hq => hq.imp_left fun hm => ?_
      rw [hqueue]
      exact List.mem_append_left _ hm

lemma Inv.skip (h : s.Inv) {msg : MqttName} {up : List MqttName} (hu : s.up = msg :: up) (hd : msg ≠ .disconnect)
    (hw : s.clientState.waits = some msg → UnderWay { s with up := up } msg) : Inv { s with up := up } := by
  have hgone : s.Gone → Gone { s with up := up } := fun hg => hg.imp_right fun hm => by
    rw [hu] at hm
    exact (List.mem_cons.mp hm).resolve_left fun he => hd he.symm
  refine ⟨h.client.mono hgone, h.server, fun m hm => ?_, fun hi => ?_⟩
  · by_cases he : m = msg
    · exact .inl (he ▸ hw (he ▸ hm))
    · refine (h.waiting m hm).imp (fun ho => ho.imp_left fun hmem => ?_) hgone
      rw [hu] at hmem
      exact (List.mem_cons.mp hmem).resolve_left he
  · refine (h.idle hi).imp (fun hf => ⟨hf.1, fun hc => hf.2 ?_⟩) fun hq => hq.imp_right hgone
    rw [hu]
    exact List.mem_cons_of_mem _ hc

lemma Inv.accept (h : s.Inv) {msg : MqttName} {up : List MqttName} {v : MqttServerStateMachine}
    (hu : s.up = msg :: up) (hreq : msg.isRequest = true) (hd : s.serverState.due = []) (he : s.serverState ≠ .ended)
    (hn : v.curState.due = [msg]) (hc : s.serverState = .init → msg = .connect) :
    Inv { s with up := up, server := { s.server with stateMachine := v }, app := s.app ++ [msg] } := by
  have hgone : s.Gone →
      Gone { s with up := up, server := { s.server with stateMachine := v }, app := s.app ++ [msg] } := fun hg => by
    refine .inr ((List.mem_cons.mp (hu ▸ hg.resolve_left he)).resolve_left ?_)
    rintro rfl
    cases hreq
  refine ⟨h.client.mono hgone, fun _ => ?_, fun m hm => ?_, fun hi => ?_⟩
  · have hnil := h.server he
    rw [hd, List.map_nil, List.append_eq_nil_iff, List.map_eq_nil_iff] at hnil
    change (s.app ++ [msg]).map MqttName.ack ++ s.server.wantsToSend.filter (· ≠ .publish) = _
    rw [hnil.1, hnil.2, show serverState _ = v.curState from rfl, hn]
    rfl
  · obtain (ho | ho | ho | ho) | hg := h.waiting m hm
    · rw [hu] at ho
      obtain rfl | ho := List.mem_cons.mp ho
      · exact .inl (.inr (.inl (by simp)))
      · exact .inl (.inl ho)
    · exact .inl (.inr (.inl (List.mem_append_left _ ho)))
    · exact .inl (.inr (.inr (.inl ho)))
    · exact .inl (.inr (.inr (.inr ho)))
    · exact .inr (hgone hg)
  · obtain ⟨hinit, hup⟩ | hq | hg := h.idle hi
    · rw [hu, hc hinit] at hup
      exact absurd (List.mem_cons_self) hup
    · exact .inr (.inl hq)
    · exact .inr (.inr (hgone hg))

lemma Inv.of_ended (h : s.Inv) (he : t.serverState = .ended) (hc : t.client = s.client) : t.Inv where
  client := by
    rw [sm, hc]
    exact h.client.mono fun _ => .inl he
  server hn := absurd he hn
  waiting _ _ := .inr (.inl he)
  idle _ := .inr (.inr (.inl he))

lemma Inv.serverRecv (h : s.Inv) (hh : s.Heard .serverRecv) (hs : s.step .serverRecv = some t) : t.Inv := by
  cases hu : s.up with
  | nil => simp [step, hu] at hs
  | cons msg up =>
    simp only [step, hu, ServerTcpLink.protocolLogic] at hs
    cases hr : s.server.stateMachine.onRecv msg with
    | none => simp [hr] at hs
    | some r =>
      obtain ⟨code, v⟩ := r
      simp only [hr, Option.bind_eq_bind, Option.bind_some, Option.some.injEq] at hs
      subst hs
      cases MqttServerStateMachine.takes_onRecv hr with
      | leave v hm he => exact h.of_ended he rfl
      | accept v hreq hd he hn hc =>
        simp only [if_true, List.filter_cons_of_pos hreq, List.filter_nil]
        exact h.accept hu hreq hd he hn hc
      | refuse hreq hc =>
        simp only [reduceCtorEq, if_false, List.filter_nil, List.append_nil]
        refine h.skip hu (by rintro rfl; cases hreq) fun hw => hh msg up hu hw ?_
        exact (MqttServerStateMachine.onRecv_refuse_iff hreq).mp (by rw [hr]; rfl)
      | pass code hreq hm =>
        have hnone : (if code = ServerCode.recvForward then [msg] else []).filter MqttName.isRequest = [] := by
          split <;> simp [hreq]
        simp only [hnone, List.append_nil]
        refine h.skip hu hm fun hw => ?_
        obtain ⟨-, rfl⟩ | ⟨-, rfl⟩ | ⟨-, rfl⟩ := ClientState.waits_cases hw <;> cases hreq

lemma ack_ne_publish (m : MqttName) : m.ack ≠ .publish := by
  cases m <;> simp [MqttName.ack]

lemma due_cases (st : ServerState) : st.due = [] ∨ ∃ x, st.due = [x] := by
  cases st <;> simp [ServerState.due]

lemma Inv.app_eq (h : s.Inv) (he : s.serverState ≠ .ended) {m : MqttName} (hm : m ∈ s.app) :
    s.app = [m] ∧ s.server.wantsToSend.filter (· ≠ .publish) = [] ∧
      s.serverState.due.map MqttName.ack = [m.ack] := by
  have hs := h.server he
  obtain ⟨y, ys, hy⟩ := List.exists_cons_of_ne_nil (List.ne_nil_of_mem hm)
  obtain hd | ⟨x, hd⟩ := due_cases s.serverState
  · simp [hy, hd] at hs
  · rw [hy, hd, List.map_cons, List.map_cons, List.cons_append, List.cons.injEq, List.map_nil,
      List.append_eq_nil_iff, List.map_eq_nil_iff] at hs
    obtain ⟨hx, rfl, hq⟩ := hs
    obtain rfl : m = y := by simpa [hy] using hm
    exact ⟨hy, hq, by rw [hd, hx]; rfl⟩

lemma Inv.answer (h : s.Inv) {msg : MqttName} (hs : s.step (.answer msg) = some t) : t.Inv := by
  simp only [step] at hs
  split_ifs at hs with hm
  obtain rfl := Option.some.inj hs
  refine ⟨h.client, fun he => ?_, fun m hw => ?_, h.idle⟩
  · obtain ⟨happ, hq, hd⟩ := h.app_eq he hm
    change (s.app.erase msg).map MqttName.ack ++ (s.server.wantsToSend ++ [msg.ack]).filter (· ≠ .publish) = _
    rw [happ, List.filter_append, hq]
    simp only [List.erase_cons_head, List.map_nil, List.nil_append]
    rw [List.filter_cons_of_pos (by simpa using ack_ne_publish msg)]
    exact hd.symm
  · refine (h.waiting m hw).imp_left fun ho => ?_
    obtain ho | ho | ho | ho := ho
    · exact .inl ho
    · by_cases hmm : m = msg
      · exact .inr (.inr (.inl (by rw [hmm]; exact List.mem_append_right _ (by simp))))
      · exact .inr (.inl ((List.mem_erase_of_ne hmm).mpr ho))
    · exact .inr (.inr (.inl (List.mem_append_left _ ho)))
    · exact .inr (.inr (.inr ho))

lemma Inv.serverPublish (h : s.Inv) : Inv { s with server := s.server.wantToSend .publish } where
  client := h.client
  server he := by
    change s.app.map MqttName.ack ++ (s.server.wantsToSend ++ [MqttName.publish]).filter (· ≠ MqttName.publish) = _
    rw [List.filter_append, List.filter_cons_of_neg (by simp), List.filter_nil, List.append_nil]
    exact h.server he
  waiting m hm := (h.waiting m hm).imp_left fun ho =>
    ho.imp_right fun ho => ho.imp_right fun ho => ho.imp_left fun hq => List.mem_append_left _ hq
  idle := h.idle

lemma UnderWay.sent {m msg : MqttName} {queue : List MqttName} (h : s.UnderWay m)
    (hq : s.server.wantsToSend = msg :: queue) (v : MqttServerStateMachine) :
    UnderWay { s with server := ⟨v, queue⟩, down := s.down ++ [msg] } m := by
  obtain h | h | h | h := h
  · exact .inl h
  · exact .inr (.inl h)
  · rw [hq] at h
    obtain h | h := List.mem_cons.mp h
    · exact .inr (.inr (.inr (by rw [h]; exact List.mem_append_right _ (by simp))))
    · exact .inr (.inr (.inl h))
  · exact .inr (.inr (.inr (List.mem_append_left _ h)))

lemma Inv.serverSend (h : s.Inv) (hs : s.step .serverSend = some t) : t.Inv := by
  cases hq : s.server.wantsToSend with
  | nil =>
    simp only [step, ServerTcpLink.processSend, hq, List.append_nil, Option.some.injEq] at hs
    exact hs ▸ h
  | cons msg queue =>
    simp only [step, ServerTcpLink.processSend, hq, Option.some.injEq] at hs
    subst hs
    by_cases he : s.serverState = .ended
    · have hdue : s.serverState.due = [] := by rw [he]; rfl
      have hsame := MqttServerStateMachine.onSend_of_due_nil hdue msg
      refine h.of_ended ?_ rfl
      change (s.server.stateMachine.onSend msg).2.curState = .ended
      rw [hsame]
      exact he
    have hserver := h.server he
    rw [hq] at hserver
    by_cases hp : msg = .publish
    · subst hp
      simp only [MqttServerStateMachine.onSend, if_true]
      refine ⟨h.client, fun _ => ?_, fun m hm => (h.waiting m hm).imp_left fun ho => ho.sent hq _, h.idle⟩
      simpa using hserver
    · rw [List.filter_cons_of_pos (by simpa using hp)] at hserver
      obtain hd | ⟨x, hd⟩ := due_cases s.serverState
      · simp [hd] at hserver
      have hlen := congrArg List.length hserver
      simp only [hd, List.length_append, List.length_map, List.length_cons, List.length_nil] at hlen
      have happ : s.app = [] := List.length_eq_zero_iff.mp (by omega)
      have hrest : queue.filter (· ≠ .publish) = [] := List.length_eq_zero_iff.mp (by omega)
      rw [happ, hrest, hd] at hserver
      have hmsg : msg = x.ack := by simpa using hserver
      rw [hmsg, MqttServerStateMachine.onSend_due hd, ← hmsg]
      simp only [if_true]
      refine ⟨h.client.mono fun hg => .inr (hg.resolve_left he), fun _ => ?_,
        fun m hm => (h.waiting m hm).imp (fun ho => ho.sent hq _) fun hg => .inr (hg.resolve_left he), fun hi => ?_⟩
      · change s.app.map MqttName.ack ++ queue.filter (· ≠ .publish) = _
        rw [happ, hrest]
        rfl
      · obtain ⟨hinit, -⟩ | hc | hg := h.idle hi
        · rw [hinit] at hd
          cases hd
        · exact .inr (.inl hc)
        · exact .inr (.inr (.inr (hg.resolve_left he)))

lemma Inv.clientRecv (h : s.Inv) (hs : s.step .clientRecv = some t) : t.Inv := by
  cases hd : s.down with
  | nil => simp [step, hd] at hs
  | cons msg down =>
    simp only [step, hd, Option.some.injEq] at hs
    subst hs
    refine ⟨h.client.onRecv msg, h.server, fun m hm => ?_, fun hi => ?_⟩
    · obtain ⟨hcur, hne⟩ | ⟨hnone, -⟩ := s.sm.hears_onRecv msg
      · change (s.sm.onRecv msg).2.curState.waits = some m at hm
        rw [hcur] at hm
        refine (h.waiting m hm).imp_left fun ho => ?_
        refine ho.imp_right fun ho => ho.imp_right fun ho => ho.imp_right fun hmem => ?_
        rw [hd] at hmem
        exact (List.mem_cons.mp hmem).resolve_left (hne m hm)
      · change (s.sm.onRecv msg).2.curState.waits = some m at hm
        rw [hnone] at hm
        cases hm
    · obtain ⟨hcur, -⟩ | ⟨-, hne⟩ := s.sm.hears_onRecv msg
      · exact h.idle (hcur.symm.trans hi)
      · exact absurd hi hne

lemma Inv.step {e : HandshakeEvent} (h : s.Inv) (hh : s.Heard e) (hs : s.step e = some t) : t.Inv := by
  cases e with
  | want msg => exact Option.some.inj hs ▸ h.want msg
  | clientSend => exact h.clientSend hs
  | timeOut key => exact h.timeOut hs
  | serverRecv => exact h.serverRecv hh hs
  | answer msg => exact h.answer hs
  | serverPublish => exact Option.some.inj hs ▸ h.serverPublish
  | serverSend => exact h.serverSend hs
  | clientRecv => exact h.clientRecv hs

lemma inv_run {es : List HandshakeEvent} (h : Run HeardSteps new es s) : s.Inv :=
  Run.invariant (I := fun _ s => Inv s) inv_new (fun _ _ _ _ hi hs => hi.step hs.2 hs.1) h

def connecting : List HandshakeEvent :=
  [.want .connect, .clientSend, .serverRecv, .answer .connect, .serverSend, .clientRecv]

def resending : List HandshakeEvent :=
  [.want .connect, .clientSend, .timeOut 1, .serverRecv, .answer .connect, .serverSend, .clientRecv, .clientSend,
    .serverRecv]

end Handshake

end Xframe.Facility
