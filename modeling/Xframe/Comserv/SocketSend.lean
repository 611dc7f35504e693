import Xframe.Comserv.Socket

/-! Sending on a `CSocket` (`sendMessage` of `socket.C`): directly to the kernel, or through
`pSendMsgBuf` for what the kernel has not taken. -/

namespace Xframe.Comserv

inductive Errno where
  | wouldBlock
  | pipe
  | other
  deriving Repr, DecidableEq

/-- How the kernel answers a `send`: it takes `k + 1` bytes or all that are offered, it answers `0`,
or it fails. -/
inductive SendResult where
  | wrote (k : ℕ)
  | closed
  | fail (e : Errno)
  deriving Repr, DecidableEq

inductive SelectResult where
  | ready
  | timeout
  | fail (e : Errno)
  deriving Repr, DecidableEq

namespace SendResult

def takes : SendResult → ℕ → ℕ
  | wrote k, n => min (k + 1) n
  | closed, _ => 0
  | fail _, _ => 0

def result : SendResult → ℕ → ℤ
  | wrote k, n => min (k + 1) n
  | closed, _ => 0
  | fail _, _ => -1

def errno : SendResult → Errno → Errno
  | fail e, _ => e
  | _, e => e

end SendResult

structure Kernel where
  sent : List UInt8
  answers : List SendResult
  selects : List SelectResult
  errno : Errno

namespace Kernel

def answer (k : Kernel) (i : ℕ) : SendResult := k.answers.getD i (.fail .wouldBlock)

def send (k : Kernel) (bytes : List UInt8) : ℤ × Kernel :=
  let a := k.answer 0
  (a.result bytes.length,
    { k with
      sent := k.sent ++ bytes.take (a.takes bytes.length)
      answers := k.answers.tail
      errno := a.errno k.errno })

def select (k : Kernel) : SelectResult := k.selects.headD .timeout

end Kernel

def Errno.code : Errno → ℤ
  | wouldBlock => -2
  | pipe => -9
  | other => -1

namespace CSocket

def hasUnsentCode (s : CSocket) : Bool :=
  match s.pSendMsgBuf with
  | none => false
  | some buf => 0 < buf.filledLength

def writeToBuff (src : List UInt8) (s : Unit) (off length : ℕ) : ℤ × List UInt8 × Unit :=
  (length, (src.drop off).take length, s)

def sendBuffToSocket (k : Kernel) (src : List UInt8) (length : ℕ) : ℤ × Kernel := k.send (src.take length)

def backupToSendBuff (s : CSocket) (codeContent : List UInt8) (codeFlag : CodeFlag) : ℤ × CSocket :=
  let buf := s.pSendMsgBuf.getD (TBuffer.new maxMsgLength)
  let stored := (buf.writeIntoBuffer (writeToBuff codeContent) () codeContent.length).2.1
  if codeContent.length ≤ (buf.freeLength + 2 ^ 32 - maxEmergencyLength) % 2 ^ 32 then
    (-2, { s with pSendMsgBuf := some stored })
  else if codeFlag = .emergency ∧ codeContent.length ≤ buf.freeLength then
    (-2, { s with pSendMsgBuf := some stored })
  else (-5, { s with pSendMsgBuf := some buf })

def preSendProcess (s : CSocket) (k : Kernel) : ℤ × CSocket × Kernel :=
  let k' := { k with selects := k.selects.tail }
  match k.select with
  | .ready => (1, { s with writeNeedSelect := false }, k')
  | .timeout => (-2, s, k')
  | .fail e => (e.code, s, { k' with errno := e })

def sendUnsentCode (s : CSocket) (k : Kernel) (code : CCode) : ℤ × CSocket × Kernel :=
  match s.pSendMsgBuf with
  | none => (1, s, k)
  | some buf =>
    let lengthToSend := if s.socketSendBufSize ≤ buf.filledLength then s.socketSendBufSize else buf.filledLength
    if lengthToSend = 0 then (1, s, k)
    else
      let (iNwrite, buf, k) := buf.readFromBuffer sendBuffToSocket k lengthToSend
      let s := { s with pSendMsgBuf := some buf }
      if 0 < iNwrite then
        if iNwrite = lengthToSend then
          if 0 < buf.filledLength then
            let (ret, s) := s.backupToSendBuff code.content code.flag
            (ret, s, k)
          else (1, s, k)
        else if iNwrite < lengthToSend then (-2, s, k)
        else (1, s, k)
      else if iNwrite = 0 then (0, s, k)
      else (k.errno.code, s, k)

def resendTurn (code : CCode) (ret : ℤ) (s : CSocket) (k : Kernel) : ℤ × CSocket × Kernel :=
  let (ret, s, k) := if s.writeNeedSelect then s.preSendProcess k else (ret, s, k)
  if ret = 1 then s.sendUnsentCode k code else (ret, s, k)

def resend (code : CCode) : ℕ → ℤ → CSocket → Kernel → Option (ℤ × CSocket × Kernel)
  | 0, _, _, _ => none
  | fuel + 1, ret, s, k =>
    if s.hasUnsentCode ∧ ret = 1 then
      let (ret, s, k) := resendTurn code ret s k
      resend code fuel ret s k
    else some (ret, s, k)

def backup (s : CSocket) (k : Kernel) (code : CCode) (iNwrite : ℕ) : ℤ × CSocket × Kernel :=
  let (ret, s) := s.backupToSendBuff (code.content.drop iNwrite) code.flag
  (ret, s, k)

def sendDirect (s : CSocket) (k : Kernel) (code : CCode) : ℤ × CSocket × Kernel :=
  if code.content.length = 0 then (1, s, k)
  else
    let (iNwrite, k) := k.send code.content
    if 0 < iNwrite then
      if iNwrite = code.content.length then (1, s, k) else s.backup k code iNwrite.toNat
    else if iNwrite = 0 then (0, s, k)
    else if k.errno = .wouldBlock then s.backup k code 0
    else (k.errno.code, s, k)

def sendMessage (fuel : ℕ) (s : CSocket) (k : Kernel) (code : CCode) : Option (ℤ × CSocket × Kernel) :=
  if s.closed then some (0, s, k)
  else do
    let (ret, s, k) ← resend code fuel 1 s k
    if ret = 1 then some (s.sendDirect k code)
    else if ret = -2 then some (s.backup k code 0)
    else some (ret, s, k)

def pending (s : CSocket) : List UInt8 := (s.pSendMsgBuf.map TBuffer.contents).getD []

end CSocket

structure Outgoing where
  socket : CSocket
  kernel : Kernel

namespace Outgoing

/-- What happens on the sending side. The kernel answers the calls of one `sendMessage` in any way;
`sendCode` sets `b_writeNeedSelect` when a message had to be kept. -/
inductive Event where
  | sendMessage (code : CCode) (answers : List SendResult) (selects : List SelectResult) (ret : ℤ)
  | needSelect
  | setSendBufSize (iSendBufSize : ℤ)

def facing (o : Outgoing) (answers : List SendResult) (selects : List SelectResult) : Kernel :=
  { o.kernel with answers, selects }

inductive Step : Outgoing → Event → Outgoing → Prop
  | sendMessage {o : Outgoing} {code : CCode} {answers : List SendResult} {selects : List SelectResult}
      {ret : ℤ} {s : CSocket} {k : Kernel} (fuel : ℕ)
      (h : o.socket.sendMessage fuel (o.facing answers selects) code = some (ret, s, k)) :
      Step o (.sendMessage code answers selects ret) ⟨s, k⟩
  | needSelect {o : Outgoing} : Step o .needSelect ⟨{ o.socket with writeNeedSelect := true }, o.kernel⟩
  | setSendBufSize {o : Outgoing} {n : ℤ} : Step o (.setSendBufSize n) ⟨o.socket.setSendBufSize n, o.kernel⟩

def start : Outgoing := ⟨CSocket.connected, ⟨[], [], [], .other⟩⟩

def accepted : Event → List UInt8
  | .sendMessage code _ _ ret => if ret = 1 ∨ ret = -2 then code.content else []
  | .needSelect => []
  | .setSendBufSize _ => []

def stream (es : List Event) : List UInt8 := (es.map accepted).flatten

def bytes (o : Outgoing) : List UInt8 := o.kernel.sent ++ o.socket.pending

end Outgoing

end Xframe.Comserv
