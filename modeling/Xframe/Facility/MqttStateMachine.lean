import Mathlib.Tactic

/-! `MqttClientStateMachine` and `MqttServerStateMachine` (`test/psamqtt/statemachine.C`) with the TCP links
that drive them (`psamqtt-wangpan/mqttclient.C`, `mqttserver.C`). -/

namespace Xframe.Facility

inductive MqttName where
  | connect
  | connack
  | publish
  | subscribe
  | suback
  | unsubscribe
  | unsuback
  | pingreq
  | pingresp
  | disconnect
  | other
  deriving DecidableEq, Repr

inductive ClientState where
  | init
  | waitConack
  | connected
  | waitPingresp
  | waitSuback
  | waitUnsuback
  | ended
  deriving DecidableEq, Repr

inductive ClientCode where
  | sendRefuse
  | sendForward
  | recvRefuse
  | recvForward
  | timeoutRefuse
  | timeoutForward
  deriving DecidableEq, Repr

structure LinkTimers where
  live : List ℕ
  next : ℕ
  deriving DecidableEq, Repr

namespace LinkTimers

def setTimer (t : LinkTimers) : LinkTimers := ⟨t.next :: t.live, t.next + 1⟩

def delTimer (t : LinkTimers) (key : ℕ) : LinkTimers := { t with live := t.live.filter (· ≠ key) }

end LinkTimers

structure MqttClientStateMachine where
  msg : Option MqttName
  curState : ClientState
  preState : ClientState
  smChange : Bool
  resendTimer : ℕ
  keepaliveTimer : ℕ
  link : LinkTimers
  deriving DecidableEq, Repr

namespace MqttClientStateMachine

def new : MqttClientStateMachine := ⟨none, .init, .init, false, 0, 0, ⟨[], 1⟩⟩

def setResend (s : MqttClientStateMachine) : MqttClientStateMachine :=
  { s with resendTimer := s.link.next, link := s.link.setTimer }

def setKeepalive (s : MqttClientStateMachine) : MqttClientStateMachine :=
  { s with keepaliveTimer := s.link.next, link := s.link.setTimer }

def sending (s : MqttClientStateMachine) (msg : MqttName) (state : ClientState) : MqttClientStateMachine :=
  { s with msg := some msg, preState := s.curState, curState := state, smChange := true }

def sendRequest (s : MqttClientStateMachine) (msg : MqttName) (wait : ClientState) :
    ClientCode × MqttClientStateMachine :=
  if s.curState ≠ .connected then (.sendRefuse, s)
  else (.sendForward, (s.sending msg wait).setResend.setKeepalive)

def onSend (s : MqttClientStateMachine) (msg : MqttName) : ClientCode × MqttClientStateMachine :=
  match msg with
  | .connect =>
    if s.curState ≠ .init then (.sendRefuse, s)
    else (.sendForward, (s.sending msg .waitConack).setResend)
  | .publish =>
    if s.curState ≠ .connected then (.sendRefuse, s)
    else (.sendForward, { s with msg := some msg, preState := s.curState, smChange := false }.setKeepalive)
  | .subscribe => s.sendRequest msg .waitSuback
  | .unsubscribe => s.sendRequest msg .waitUnsuback
  | .pingreq => s.sendRequest msg .waitPingresp
  | .disconnect =>
    if s.curState = .init then (.sendRefuse, s) else (.sendForward, s.sending msg .ended)
  | _ => (.sendRefuse, s)

def dropResend (s : MqttClientStateMachine) : MqttClientStateMachine :=
  if s.resendTimer ≠ 0 then { s with link := s.link.delTimer s.resendTimer, resendTimer := 0 } else s

def dropKeepalive (s : MqttClientStateMachine) : MqttClientStateMachine :=
  if s.keepaliveTimer ≠ 0 then { s with link := s.link.delTimer s.keepaliveTimer, keepaliveTimer := 0 } else s

def recvAck (s : MqttClientStateMachine) (wait : ClientState) : ClientCode × MqttClientStateMachine :=
  if s.curState ≠ wait then (.recvRefuse, s)
  else
    (.recvForward,
      { s with preState := s.curState, curState := .connected, smChange := true }.dropResend.setKeepalive)

def onRecv (s : MqttClientStateMachine) (msg : MqttName) : ClientCode × MqttClientStateMachine :=
  match msg with
  | .publish => (.recvForward, s)
  | .connack => s.recvAck .waitConack
  | .suback => s.recvAck .waitSuback
  | .unsuback => s.recvAck .waitUnsuback
  | .pingresp => s.recvAck .waitPingresp
  | .disconnect =>
    (.recvForward,
      { s with preState := s.curState, curState := .ended, smChange := true }.dropResend.dropKeepalive)
  | _ => (.recvRefuse, s)

/-- `onTimeOut`, with the message left in `resend`; the key of the resend timer is kept. -/
def onTimeOut (s : MqttClientStateMachine) (timerKey : ℕ) :
    ClientCode × Option MqttName × MqttClientStateMachine :=
  if timerKey = s.resendTimer then
    (.timeoutForward, s.msg,
      { s with curState := s.preState, smChange := true, link := s.link.delTimer s.resendTimer })
  else if timerKey = s.keepaliveTimer then
    (.timeoutForward, none, { s with link := s.link.delTimer s.keepaliveTimer, keepaliveTimer := 0 })
  else (.timeoutRefuse, none, s)

end MqttClientStateMachine

structure ClientTcpLink where
  stateMachine : MqttClientStateMachine
  wantsToSend : List (Option MqttName)
  deriving DecidableEq, Repr

namespace ClientTcpLink

def new : ClientTcpLink := ⟨.new, []⟩

def wantToSend (l : ClientTcpLink) (msg : Option MqttName) : ClientTcpLink :=
  { l with wantsToSend := l.wantsToSend ++ [msg] }

def sendable : MqttName → Bool
  | .connect | .publish | .subscribe | .unsubscribe | .disconnect => true
  | _ => false

/-- The packet that goes out, if any. A null message is read through, which has no result. -/
def processSend (l : ClientTcpLink) : Option (List MqttName × ClientTcpLink) :=
  match l.wantsToSend with
  | [] => some ([], l)
  | none :: _ => none
  | some msg :: queue =>
    let (code, s) := l.stateMachine.onSend msg
    some (if code = .sendForward ∧ sendable msg then [msg] else [], ⟨s, queue⟩)

def protocolLogic (l : ClientTcpLink) (msg : MqttName) : ClientTcpLink :=
  { l with stateMachine := (l.stateMachine.onRecv msg).2 }

def onTimeOut (l : ClientTcpLink) (timerKey : ℕ) : ClientTcpLink :=
  let (code, resend, s) := l.stateMachine.onTimeOut timerKey
  let l := { l with stateMachine := s }
  if code = .timeoutForward then l.wantToSend resend else l

end ClientTcpLink

inductive ServerState where
  | init
  | recvCon
  | recvSub
  | recvUnsub
  | recvPingreq
  | connected
  | ended
  deriving DecidableEq, Repr

inductive ServerCode where
  | sendRefuse
  | sendForward
  | recvRefuse
  | recvForward
  deriving DecidableEq, Repr

structure MqttServerStateMachine where
  curState : ServerState
  preState : ServerState
  smChange : Bool
  deriving DecidableEq, Repr

namespace MqttServerStateMachine

def new : MqttServerStateMachine := ⟨.init, .init, false⟩

def change (s : MqttServerStateMachine) (state : ServerState) : MqttServerStateMachine := ⟨state, s.curState, true⟩

def sendAck (s : MqttServerStateMachine) (state : ServerState) : ServerCode × MqttServerStateMachine :=
  if s.curState ≠ state then (.sendRefuse, s) else (.sendForward, s.change .connected)

def onSend (s : MqttServerStateMachine) (msg : MqttName) : ServerCode × MqttServerStateMachine :=
  match msg with
  | .connack => s.sendAck .recvCon
  | .publish => (.sendForward, s)
  | .suback => s.sendAck .recvSub
  | .unsuback => s.sendAck .recvUnsub
  | _ => (.sendRefuse, s)

def recvRequest (s : MqttServerStateMachine) (state next : ServerState) : ServerCode × MqttServerStateMachine :=
  if s.curState ≠ state then (.recvRefuse, s) else (.recvForward, s.change next)

def onRecv (s : MqttServerStateMachine) (msg : MqttName) : Option (ServerCode × MqttServerStateMachine) :=
  match msg with
  | .connect => some (s.recvRequest .init .recvCon)
  | .publish => some (if s.curState ≠ .connected then (.recvRefuse, s) else (.recvForward, s))
  | .subscribe => some (s.recvRequest .connected .recvSub)
  | .unsubscribe => some (s.recvRequest .connected .recvUnsub)
  | .pingreq => none
  | .disconnect => some (.recvForward, s.change .ended)
  | _ => some (.recvRefuse, s)

end MqttServerStateMachine

structure ServerTcpLink where
  stateMachine : MqttServerStateMachine
  wantsToSend : List MqttName
  deriving DecidableEq, Repr

namespace ServerTcpLink

def new : ServerTcpLink := ⟨.new, []⟩

def wantToSend (l : ServerTcpLink) (msg : MqttName) : ServerTcpLink :=
  { l with wantsToSend := l.wantsToSend ++ [msg] }

def processSend (l : ServerTcpLink) : List MqttName × ServerTcpLink :=
  match l.wantsToSend with
  | [] => ([], l)
  | msg :: queue =>
    let (code, s) := l.stateMachine.onSend msg
    (if code = .sendForward then [msg] else [], ⟨s, queue⟩)

def protocolLogic (l : ServerTcpLink) (msg : MqttName) : Option (List MqttName × ServerTcpLink) := do
  let (code, s) ← l.stateMachine.onRecv msg
  some (if code = .recvForward then [msg] else [], { l with stateMachine := s })

end ServerTcpLink

end Xframe.Facility
