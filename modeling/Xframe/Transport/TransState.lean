import Xframe.Comserv.ExpireLookup
import Xframe.Msg.UniNetMsg

/-! `TTransState` and `TTransMachine` of `transstate.C`: the client and server state machines of one
transaction, their resend timers, and the table of transactions. -/

namespace Xframe.Transport

open Xframe.Comserv Xframe.Msg

inductive TsTransState where
  | init
  | forward
  | temporary
  | terminated
  deriving DecidableEq

inductive TsCode where
  | null
  | forward
  | refuse
  | timeout
  | resend
  deriving DecidableEq

structure TTransState where
  tssend : Bool
  msg : Option TUniNetMsg
  tsstate : TsTransState
  tschangeFrom : TsTransState
  tschange : Bool
  timer : ℕ
  cseq : ℕ
  transID : CStr
  needrsp : Bool
  deriving DecidableEq

inductive TimerCall where
  | set (key : ℕ) (transid : CStr)
  | del (key : ℕ)
  deriving DecidableEq

structure Change where
  code : TsCode
  resp : Option TUniNetMsg
  calls : List TimerCall
  state : TTransState

def needsRsp (unimsg : TUniNetMsg) : Bool := getComMsgPri unimsg ≠ 0

namespace TTransState

def new (type : Bool) (transid : CStr) : TTransState :=
  ⟨type, none, .init, .init, false, 0, 0, transid, false⟩

def moveTo (st : TTransState) (tsstate : TsTransState) : TTransState :=
  { st with tschange := true, tschangeFrom := st.tsstate, tsstate := tsstate }

def stay (st : TTransState) : TTransState := { st with tschange := false }

def stopTimer (st : TTransState) : List TimerCall :=
  if st.timer ≠ 0 then [.del st.timer] else []

def clientChange (st : TTransState) (unimsg : TUniNetMsg) (key : ℕ) : Change :=
  match st.tsstate with
  | .init =>
    if unimsg.msgName = comMessageReq then
      ⟨.forward, none, [.set key st.transID],
        { st.moveTo .forward with
          msg := some unimsg, timer := key, needrsp := needsRsp unimsg, cseq := unimsg.cseq.getD st.cseq }⟩
    else ⟨.null, none, [], st.stay⟩
  | .forward =>
    if unimsg.msgName = comMessageRsp then
      ⟨.forward, none, st.stopTimer, { st.moveTo .terminated with timer := 0, msg := none }⟩
    else if unimsg.msgName = comMessageTmp then
      ⟨.null, none, st.stopTimer,
        { st.moveTo (if st.needrsp then .temporary else .terminated) with timer := 0, msg := none }⟩
    else ⟨.null, none, [], st.stay⟩
  | .temporary =>
    if unimsg.msgName = comMessageRsp then
      ⟨.forward, some (genComMsgResp unimsg 100), [], st.moveTo .terminated⟩
    else ⟨.null, none, [], st.stay⟩
  | .terminated =>
    if unimsg.msgName = comMessageRsp then ⟨.refuse, some (genComMsgResp unimsg 100), [], st.stay⟩
    else ⟨.null, none, [], st.stay⟩

def serverChange (st : TTransState) (unimsg : TUniNetMsg) (key : ℕ) : Change :=
  match st.tsstate with
  | .init =>
    if unimsg.msgName = comMessageReq then
      if needsRsp unimsg then
        ⟨.forward, none, [],
          { st.moveTo .forward with needrsp := true, cseq := unimsg.cseq.getD st.cseq }⟩
      else
        ⟨.forward, some (genComMsgResp unimsg 100), [],
          { st.moveTo .terminated with needrsp := false, cseq := unimsg.cseq.getD st.cseq }⟩
    else ⟨.null, none, [], st.stay⟩
  | .forward =>
    if unimsg.msgName = comMessageReq then
      ⟨.refuse, some (genComMsgResp unimsg 100), [], st.moveTo .temporary⟩
    else if unimsg.msgName = comMessageRsp then
      ⟨.forward, none, [], { st.moveTo .terminated with msg := some unimsg }⟩
    else ⟨.null, none, [], st.stay⟩
  | .temporary =>
    if unimsg.msgName = comMessageRsp then
      ⟨.forward, none, [.set key st.transID], { st.moveTo .terminated with msg := some unimsg, timer := key }⟩
    else if unimsg.msgName = comMessageReq then
      ⟨.refuse, some (genComMsgResp unimsg 100), [], st.stay⟩
    else ⟨.null, none, [], st.stay⟩
  | .terminated =>
    if unimsg.msgName = comMessageReq then
      match st.msg with
      | some rsp => ⟨.refuse, some rsp, [], st.stay⟩
      | none =>
        if st.needrsp then ⟨.null, none, [], st.stay⟩
        else ⟨.refuse, some (genComMsgResp unimsg 100), [], st.stay⟩
    else if unimsg.msgName = comMessageTmp then
      ⟨.null, none, st.stopTimer, { st.stay with timer := 0 }⟩
    else ⟨.null, none, [], st.stay⟩

def tsChange (st : TTransState) (unimsg : TUniNetMsg) (key : ℕ) : Change :=
  if st.tssend then st.clientChange unimsg key else st.serverChange unimsg key

def tsTimeout (st : TTransState) (tk key : ℕ) : Change :=
  if 0 < tk ∧ st.timer = tk ∧
      ((st.tsstate = .forward ∧ st.tssend = true) ∨ (st.tsstate = .terminated ∧ st.tssend = false)) then
    ⟨.resend, st.msg, [.set key st.transID], { st with timer := key }⟩
  else ⟨.null, none, [], st⟩

end TTransState

/-- The transactions by their ids. The table holds pointers, so a change of a transaction is a change
of the value where it is. -/
structure TTransMachine where
  mTSState : ExpireMap CStr TTransState

structure Processed where
  code : TsCode
  resp : Option TUniNetMsg
  calls : List TimerCall
  expired : List CStr
  machine : TTransMachine

namespace TTransMachine

def new : TTransMachine := ⟨.new 0 false 172800⟩

def tminit (m : TTransMachine) (sendTimeOutSec : ℕ) : TTransMachine :=
  if sendTimeOutSec ≠ 0 then ⟨{ m.mTSState with livingTime := sendTimeOutSec }⟩ else m

def find (m : TTransMachine) (transid : CStr) : Option TTransState := m.mTSState.lookup transid

def idle (m : TTransMachine) : Processed := ⟨.null, none, [], [], m⟩

def changed (m : TTransMachine) (transid : CStr) (c : Change) : Processed :=
  ⟨c.code, c.resp, c.calls, [], ⟨m.mTSState.modify transid fun _ => c.state⟩⟩

/-- A request of an unknown transaction opens it. The table has no limit, so that the push succeeds. -/
def openTrans (m : TTransMachine) (fromwire : Bool) (msg : TUniNetMsg) (transid : CStr) (now : ℤ) :
    TTransMachine :=
  if (m.find transid).isNone ∧ msg.msgName = comMessageReq then
    ⟨(m.mTSState.push transid (.new (!fromwire) transid) now).2⟩
  else m

def processTM (m : TTransMachine) (fromwire : Bool) (msg : TUniNetMsg) (key : ℕ) (now : ℤ) : Processed :=
  match msg.transID with
  | none => m.idle
  | some transid =>
    let m := m.openTrans fromwire msg transid now
    match m.find transid with
    | none => m.idle
    | some st => m.changed transid (st.tsChange msg key)

/-- `processTM(tk, para, resend)`; `para` is the copy of the id that `str` has made. For a string of
length 0 that is a null pointer, which `nTransfer` does not survive. -/
def processTimer (m : TTransMachine) (tk : ℕ) (transid : CStr) (key : ℕ) : Processed :=
  if 0 < tk then
    match m.find transid with
    | none => m.idle
    | some st => m.changed transid (st.tsTimeout tk key)
  else m.idle

def timeoutResp (st : TTransState) : Option TUniNetMsg :=
  if (st.tsstate = .forward ∨ st.tsstate = .temporary) ∧ st.tssend then
    st.msg.map fun msg => genComMsgResp msg 408
  else none

def expireLoop : ℕ → TTransMachine → ℤ → Processed
  | 0, m, _ => m.idle
  | n + 1, m, oldtime =>
    match m.mTSState.entries with
    | [] => m.idle
    | v :: _ =>
      if m.mTSState.expired oldtime v then
        match timeoutResp v.value with
        | some resp => ⟨.timeout, some resp, v.value.stopTimer, [v.key], ⟨m.mTSState.tail⟩⟩
        | none =>
          let r := expireLoop n ⟨m.mTSState.tail⟩ oldtime
          { r with calls := v.value.stopTimer ++ r.calls, expired := v.key :: r.expired }
      else m.idle

def processExpired (m : TTransMachine) (currenttime now : ℤ) : Processed :=
  m.expireLoop m.mTSState.entries.length (if currenttime = 0 then now else currenttime)

end TTransMachine

end Xframe.Transport
