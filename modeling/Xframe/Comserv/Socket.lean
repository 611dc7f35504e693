import Xframe.Comserv.UniBuffer

/-! The state of a `CSocket` (`socket.h`) that sending and receiving share, and the framing of a
message by `pack`. -/

namespace Xframe.Comserv

inductive CodeFlag where
  | normal
  | emergency
  deriving Repr, DecidableEq

structure CCode where
  content : List UInt8
  flag : CodeFlag
  fits : content.length < 2 ^ 31

/-- `pSendMsgBuf` is allocated at the first message that cannot be sent; `closed` is
`m_socketState == CLOSE || m_iSockfd < 0`. -/
structure CSocket where
  closed : Bool
  pSendMsgBuf : Option TBuffer
  socketSendBufSize : ℕ
  writeNeedSelect : Bool
  pRecvMsgBuf : TBuffer
  recvBufHasMessage : Bool

namespace CSocket

def maxMsgLength : ℕ := 81920

def maxRecvLength : ℕ := 81920

def maxEmergencyLength : ℕ := 40960

def socketCodeMaxLength : ℕ := 20476

def comMsgLength : ℕ := 4

def headLength : ℕ := 8 + comMsgLength

def sendBufSize : ℕ := 4096000

def connected : CSocket := ⟨false, none, sendBufSize, false, TBuffer.new maxMsgLength, false⟩

def setSendBufSize (s : CSocket) (iSendBufSize : ℤ) : CSocket :=
  if 0 < iSendBufSize then { s with socketSendBufSize := iSendBufSize.toNat } else s

def delimiter : List UInt8 := [0x00, 0xff, 0xff, 0xff, 0xff, 0xff, 0xff, 0x00]

def htonl (n : ℕ) : List UInt8 :=
  [UInt8.ofNat (n / 2 ^ 24), UInt8.ofNat (n / 2 ^ 16), UInt8.ofNat (n / 2 ^ 8), UInt8.ofNat n]

def pack (code : List UInt8) : List UInt8 := delimiter ++ htonl code.length ++ code

end CSocket

end Xframe.Comserv
