import Mathlib.Tactic

/-! Messages of the frame (`msgdef.h`, `msg.h`, `msgdef_com.h`) and the responses that `COMMsgHelper`
generates. -/

namespace Xframe.Msg

/-- The bytes of a `CStr` before its terminating zero, which is how keys are compared. -/
abbrev CStr := List UInt8

structure TMsgAddress where
  logAddr : ℕ
  phyAddr : ℕ
  taskInstID : ℕ
  deriving DecidableEq

structure TComMsgHdr where
  status : ℤ
  pri : ℤ
  facility : ℤ
  argv : List CStr
  deriving DecidableEq

/-- A control header: the session flag, what its `getSessionId` overrides answer, and its own fields
where it is a `TComMsgHdr`. -/
structure TCtrlMsg where
  hasSessionId : Bool
  getSessionId : ℕ
  getSessionIdStr : Option CStr
  com : Option TComMsgHdr
  deriving DecidableEq

structure TUniNetMsg where
  oAddr : TMsgAddress
  tAddr : TMsgAddress
  dialogType : ℕ
  msgName : ℕ
  msgType : ℕ
  transID : Option CStr
  cseq : Option ℕ
  ctrlMsgHdr : Option TCtrlMsg
  msgBody : Option (List UInt8)
  deriving DecidableEq

structure TEventMsg where
  eventID : ℕ
  transID : ℕ
  status : ℤ
  taskID : ℕ
  instID : ℕ
  eventInfo : String
  deriving DecidableEq

inductive TMsg where
  | uniNet (msg : TUniNetMsg)
  | event (msg : TEventMsg)
  | other
  deriving DecidableEq

def dialogBegin : ℕ := 1
def dialogContinue : ℕ := 2
def dialogBroadcast : ℕ := 4
def dialogMulticast : ℕ := 5

def comMessageReq : ℕ := 100
def comMessageRsp : ℕ := 101
def comMessageTmp : ℕ := 102

/-- `genComMsgResp`, which presumes that a control header is a `TComMsgHdr`. -/
def genComMsgResp (unimsg : TUniNetMsg) (code : ℤ) : TUniNetMsg where
  oAddr := unimsg.tAddr
  tAddr := unimsg.oAddr
  dialogType := unimsg.dialogType
  msgName := if code = 100 then comMessageTmp else comMessageRsp
  msgType := unimsg.msgType
  transID := unimsg.transID
  cseq := unimsg.cseq
  ctrlMsgHdr := unimsg.ctrlMsgHdr.map fun h => ⟨false, 0, none, h.com.map fun c => { c with status := code }⟩
  msgBody := none

def getComMsgPri (unimsg : TUniNetMsg) : ℤ :=
  ((unimsg.ctrlMsgHdr.bind TCtrlMsg.com).map TComMsgHdr.pri).getD 0

end Xframe.Msg
