import Xframe.Comserv.Socket

/-! Receiving on a `CSocket` (`recvCodeByFindHead` of `socket.C`): bytes are read into `pRecvMsgBuf`
and searched for the delimiter of a frame. -/

namespace Xframe.Comserv

inductive TStateMachine where
  | wait
  | begin
  | appear
  | prepare
  | found
  deriving Repr, DecidableEq

/-- How the kernel answers a read: bytes, of which as many are read as there is room for, the end of
the stream, or an error. -/
inductive ReadAnswer where
  | data (bytes : List UInt8)
  | eof
  | wouldBlock
  | fail
  deriving Repr, DecidableEq

namespace CSocket

def ntohl (bytes : List UInt8) : ℤ :=
  let n : ℕ := bytes.foldl (fun n b => n * 2 ^ 8 + b.toNat) 0
  if n < 2 ^ 31 then n else n - 2 ^ 32

def scanByte : TStateMachine → ℤ → UInt8 → TStateMachine × ℤ
  | .wait, lengthToRead, c => if c = 0x00 then (.begin, lengthToRead - 1) else (.wait, lengthToRead)
  | .begin, lengthToRead, c =>
    if c = 0xff then (.appear, lengthToRead - 1)
    else if c ≠ 0x00 then (.wait, headLength)
    else (.begin, lengthToRead)
  | .appear, lengthToRead, c =>
    if c = 0x00 then (.begin, headLength - 1)
    else if c = 0xff then
      (if lengthToRead - 1 = 1 + comMsgLength then .prepare else .appear, lengthToRead - 1)
    else (.wait, headLength)
  | .prepare, lengthToRead, c => if c = 0x00 then (.found, lengthToRead) else (.wait, headLength)
  | .found, lengthToRead, _ => (.found, lengthToRead)

structure Scan where
  state : TStateMachine
  lengthToRead : ℤ
  bufferLength : ℤ
  ret : ℤ
  message : List UInt8

/-- The loop of `_readFromBuff`: its result and the code it has filled, or nothing when it reads past
the memory of the buffer. -/
def scan : ℕ → Scan → Option (ℤ × Option (List UInt8))
  | 0, _ => none
  | fuel + 1, q =>
    if q.lengthToRead < q.bufferLength then
      match q.message with
      | [] => none
      | c :: message =>
        let (state, lengthToRead) := scanByte q.state q.lengthToRead c
        if state = .found then
          let ret := q.ret + 1 + comMsgLength
          let bufferLength := q.bufferLength - 1 - comMsgLength
          if message.length < comMsgLength then none
          else
            let lengthToRead := ntohl (message.take comMsgLength)
            if 0 < lengthToRead then
              if socketCodeMaxLength < lengthToRead then
                scan fuel ⟨state, headLength, bufferLength, ret, message.drop comMsgLength⟩
              else if bufferLength < lengthToRead then some (ret - headLength, none)
              else if (message.drop comMsgLength).length < lengthToRead then none
              else some (ret + lengthToRead, some ((message.drop comMsgLength).take lengthToRead.toNat))
            else scan fuel ⟨state, lengthToRead, bufferLength, ret, message⟩
        else scan fuel ⟨state, lengthToRead, q.bufferLength - 1, q.ret + 1, message⟩
    else some (q.ret - (headLength - q.lengthToRead), none)

/-- `_readFromBuff`: `pop` of `pRecvMsgBuf`. It searches all that is filled; `code` is lost when the
memory is left. -/
def readFromBuff (filledLength : ℕ) (code : Option (List UInt8)) (src : List UInt8) (_length : ℕ) :
    ℤ × Option (List UInt8) :=
  match scan (src.length + 1) ⟨.wait, headLength, filledLength, 0, src⟩ with
  | none => (0, none)
  | some (ret, none) => (ret, code)
  | some (ret, some content) => (ret, some content)

def recvSocketIntoBuff : List ReadAnswer → ℕ → ℕ → ℤ × List UInt8 × List ReadAnswer
  | [], _, _ => (-2, [], [])
  | .data bytes :: wire, _, length =>
    if bytes.length ≤ length then (bytes.length, bytes, wire)
    else (length, bytes.take length, .data (bytes.drop length) :: wire)
  | .eof :: wire, _, _ => (0, [], wire)
  | .wouldBlock :: wire, _, _ => (-2, [], wire)
  | .fail :: wire, _, _ => (-1, [], wire)

def fill (s : CSocket) (wire : List ReadAnswer) : ℤ × TBuffer × List ReadAnswer :=
  if s.recvBufHasMessage then (1, s.pRecvMsgBuf, wire)
  else s.pRecvMsgBuf.writeIntoBuffer recvSocketIntoBuff wire s.pRecvMsgBuf.size

def parse (buf : TBuffer) : ℤ × TBuffer × Option (List UInt8) :=
  buf.readFromBuffer (readFromBuff buf.filledLength) (some []) maxRecvLength

def recvCodeByFindHead (memcpy : TBuffer.Memcpy) (s : CSocket) (wire : List ReadAnswer) :
    Option (ℤ × List UInt8 × CSocket × List ReadAnswer) :=
  let (ret, buf, wire) := s.fill wire
  if ret ≤ 0 then some (ret, [], { s with pRecvMsgBuf := buf }, wire)
  else
    let (ret, buf, code) := parse buf
    match code with
    | none => none
    | some code =>
      if 0 < ret ∧ 0 < code.length then
        some (1, code, { s with pRecvMsgBuf := buf, recvBufHasMessage := !(buf.filledLength = 0) }, wire)
      else some (-2, code, { s with pRecvMsgBuf := buf.rearrange memcpy, recvBufHasMessage := false }, wire)

end CSocket

end Xframe.Comserv
