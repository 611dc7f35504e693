import Xframe.Transport.Codec

/-! `TUDPTrasnport` of `transportudp.C`: a COM message becomes a datagram with a `TTransMsg` header, and
a datagram becomes a message for the task. -/

namespace Xframe.Transport

open Xframe.Comserv Xframe.Msg

structure TTransMsg where
  split : List UInt8
  cseq : ℤ
  transid : CStr
  length : ℤ

namespace TTransMsg

def delimiter : List UInt8 := [0, 0xff, 0]

def encode (tm : TTransMsg) : List UInt8 :=
  tm.split ++ encodeInt tm.cseq ++ encodeStr tm.transid ++ encodeInt tm.length

def decode : List UInt8 → Option (TTransMsg × List UInt8)
  | a :: b :: c :: buf => do
    let (cseq, buf) ← decodeInt buf
    let (transid, buf) ← decodeStr buf
    let (length, buf) ← decodeInt buf
    some (⟨[a, b, c], cseq, transid, length⟩, buf)
  | _ => none

def size (tm : TTransMsg) : ℤ := 3 + 4 + sizeStr tm.transid + 4

/-- The second byte of the delimiter is a `CHAR`, whose exclusive or with `0xFF` is never zero. -/
def check (tm : TTransMsg) : Bool := tm.split.getD 0 0 = 0 && tm.split.getD 2 0 = 0 && 0 < tm.length

end TTransMsg

structure Datagram where
  content : List UInt8
  host : CStr
  port : ℤ

namespace TUDPTrasnport

def socketBufferSize : ℕ := 8193
def maxRecvBufSize : ℕ := 8096

/-- `Send` of one message of the queue: one without header or body is dropped. A message that does not
fit into `mSockBuffer` is written beyond it. `TURI(CStr&)` sets no port for a text that has none; what the memory
held there is 0 here. -/
def send (msg : TUniNetMsg) : Option Datagram :=
  match msg.ctrlMsgHdr.bind TCtrlMsg.com, msg.msgBody with
  | some hdr, some info =>
    let tm : TTransMsg := ⟨TTransMsg.delimiter, msg.cseq.getD 0, msg.transID.getD [], sizeStr info⟩
    let content := tm.encode ++ encodeStr info
    let uri := TURI.setUri (hdr.argv.getD 0 [])
    if content.length ≤ socketBufferSize then some ⟨content, uri.host, uri.port⟩ else none
  | _, _ => none

def Send (mSendBuffer : List TUniNetMsg) : List Datagram := mSendBuffer.filterMap send

/-- The end that receives: the bind, the address of the task, and what `mSockBuffer` held before. -/
structure Receiver where
  bindID : ℤ
  parentAddr : TMsgAddress
  mSockBuffer : List UInt8
  size_eq : mSockBuffer.length = socketBufferSize

def recv (r : Receiver) (client : CStr) (datagram : List UInt8) : Option TUniNetMsg :=
  let received := datagram.take maxRecvBufSize
  if received = [] then none
  else do
    let (tm, buffer) ← TTransMsg.decode (received ++ r.mSockBuffer.drop received.length)
    if !tm.check then none
    else if received.length - tm.size < tm.length then none
    else
      let (info, _) ← decodeStr buffer
      some
        { oAddr := ⟨0, 0, 0⟩
          tAddr := r.parentAddr
          dialogType := 0
          msgName := comMessageReq
          msgType := 10
          transID := if tm.transid ≠ [] then some tm.transid else none
          cseq := if tm.cseq ≠ 0 then some (TMsgAddress.uint tm.cseq) else none
          ctrlMsgHdr := some ⟨false, 0, none, some ⟨0, 0, r.bindID, [client]⟩⟩
          msgBody := some info }

end TUDPTrasnport

end Xframe.Transport
