import Xframe.Lib.Run
import Xframe.Transport.TransState

/-! A client and a server machine joined by a network that may lose, duplicate, delay and reorder
messages, with their applications and resend timers. -/

namespace Xframe.Transport

open Xframe.Comserv Xframe.Msg Xframe.Lib

inductive Side where
  | client
  | server
  deriving DecidableEq

def Side.other : Side → Side
  | .client => .server
  | .server => .client

def Side.appName : Side → ℕ
  | .client => comMessageReq
  | .server => comMessageRsp

/-- A machine with the timers of its task: those armed, with the id each carries, and every key that
`setResendTimer` has answered so far. The process is `up` until it crashes. -/
structure Party where
  up : Bool
  machine : TTransMachine
  armed : List (ℕ × CStr)
  keys : List ℕ

structure Net where
  party : Side → Party
  wire : Side → List TUniNetMsg

namespace Party

def call (p : Party) : TimerCall → Party
  | .set key transid => { p with armed := p.armed ++ [(key, transid)], keys := p.keys ++ [key] }
  | .del key => { p with armed := p.armed.filter fun a => a.1 ≠ key }

def after (p : Party) (r : Processed) : Party :=
  { r.calls.foldl call p with machine := r.machine }

def Fresh (p : Party) (key : ℕ) : Prop := key ≠ 0 ∧ key ∉ p.keys

end Party

/-- What the task of a side sends to the network: the response, and a message of the application that
is to be forwarded. -/
def sent (fromwire : Bool) (msg : TUniNetMsg) (r : Processed) : List TUniNetMsg :=
  (if r.code = .forward ∧ fromwire = false then [msg] else []) ++ r.resp.toList

inductive Event where
  | app (side : Side) (msg : TUniNetMsg) (code : TsCode)
  | deliver (side : Side) (msg : TUniNetMsg) (code : TsCode)
  | duplicate (side : Side) (msg : TUniNetMsg)
  | lose (side : Side) (msg : TUniNetMsg)
  | fire (side : Side) (tk : ℕ) (transid : CStr) (code : TsCode)
  | crash (side : Side) (tk : ℕ)
  | expire (side : Side) (expired : List CStr) (code : TsCode)
  deriving DecidableEq

namespace Net

def init (clientTimeOut serverTimeOut : ℕ) : Net where
  party
    | .client => ⟨true, TTransMachine.new.tminit clientTimeOut, [], []⟩
    | .server => ⟨true, TTransMachine.new.tminit serverTimeOut, [], []⟩
  wire _ := []

def setParty (n : Net) (side : Side) (p : Party) : Net := { n with party := Function.update n.party side p }

def setWire (n : Net) (side : Side) (msgs : List TUniNetMsg) : Net :=
  { n with wire := Function.update n.wire side msgs }

def processed (n : Net) (side : Side) (r : Processed) (msgs : List TUniNetMsg) : Net :=
  (n.setParty side ((n.party side).after r)).setWire side.other (n.wire side.other ++ msgs)

def disarm (n : Net) (side : Side) (a : ℕ × CStr) : Net :=
  n.setParty side { n.party side with armed := (n.party side).armed.filter fun b => b ≠ a }

end Net

/-- An application may choose any id. A `CStr` stands for its bytes before the first zero, so that `[]` is
also the id of a string that starts with a zero: its timer fires as any other, and that of an empty string
carries a null pointer and ends in the crash. -/
inductive Step : Net → Event → Net → Prop
  | app {n : Net} {side : Side} {msg : TUniNetMsg} {key : ℕ} {now : ℤ} {r : Processed}
      (hup : (n.party side).up = true) (hname : msg.msgName = side.appName) (hkey : (n.party side).Fresh key)
      (hr : (n.party side).machine.processTM false msg key now = r) :
      Step n (.app side msg r.code) (n.processed side r (sent false msg r))
  | deliver {n : Net} {side : Side} {msg : TUniNetMsg} {key : ℕ} {now : ℤ} {r : Processed}
      (hup : (n.party side).up = true) (hmsg : msg ∈ n.wire side) (hkey : (n.party side).Fresh key)
      (hr : (n.party side).machine.processTM true msg key now = r) :
      Step n (.deliver side msg r.code)
        ((n.setWire side ((n.wire side).erase msg)).processed side r (sent true msg r))
  | duplicate {n : Net} {side : Side} {msg : TUniNetMsg} (hmsg : msg ∈ n.wire side) :
      Step n (.duplicate side msg) (n.setWire side (msg :: n.wire side))
  | lose {n : Net} {side : Side} {msg : TUniNetMsg} :
      Step n (.lose side msg) (n.setWire side ((n.wire side).erase msg))
  | fire {n : Net} {side : Side} {tk : ℕ} {transid : CStr} {key : ℕ} {r : Processed}
      (hup : (n.party side).up = true) (harmed : (tk, transid) ∈ (n.party side).armed)
      (hkey : (n.party side).Fresh key) (hr : (n.party side).machine.processTimer tk transid key = r) :
      Step n (.fire side tk transid r.code) ((n.disarm side (tk, transid)).processed side r r.resp.toList)
  | crash {n : Net} {side : Side} {tk : ℕ} (hup : (n.party side).up = true)
      (harmed : (tk, []) ∈ (n.party side).armed) :
      Step n (.crash side tk) (n.setParty side { n.party side with up := false })
  | expire {n : Net} {side : Side} {currenttime now : ℤ} {r : Processed} (hup : (n.party side).up = true)
      (hr : (n.party side).machine.processExpired currenttime now = r) :
      Step n (.expire side r.expired r.code) (n.processed side r [])

end Xframe.Transport
