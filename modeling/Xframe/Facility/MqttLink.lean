import Xframe.Lib.Frames
import Xframe.Lib.Returns
import Xframe.Facility.MqttMsg

/-! Stream reassembly of `CMqttLink` (`mqttlink.C`). -/

namespace Xframe.Facility

open Xframe.Lib

structure Process where
  packetType : ℕ
  flags : ℕ
  body : List UInt8
  deriving Repr, DecidableEq

structure MqttLink where
  mIdleSec : ℕ
  mBufferMsg : List UInt8
  processed : List Process
  deriving Repr, DecidableEq

namespace MqttLink

def new : MqttLink := ⟨0, [], []⟩

def cut (s : List UInt8) (length : ℤ) : List UInt8 :=
  if s.length ≤ length ∨ length < -s.length then s
  else if 0 ≤ length then s.take length.toNat
  else s.take (s.length + length).toNat

inductive Turn where
  | short
  | bad
  | wait
  | packet (call : Process) (rest : List UInt8)

def turnAt (headByte : UInt8) : ℤ × List UInt8 × ℤ → Turn
  | (bodyLength, p, remainLength) =>
    if bodyLength = -1 then .bad
    else if bodyLength = -2 then .wait
    else if remainLength < bodyLength then .wait
    else .packet ⟨headByte.toNat / 16, headByte.toNat % 16, p.take bodyLength.toNat⟩
      (p.drop bodyLength.toNat)

def turn (p : List UInt8) : Option Turn :=
  if p.length < 2 then some .short
  else (MqttMsg.parseLength p.tail (p.tail.length : ℕ)).map (turnAt (p.headD 0))

inductive Exit where
  | short
  | bad
  | remain (p : List UInt8)

def parseLoop : ℕ → List UInt8 → Option (List Process × Exit)
  | 0, _ => none
  | fuel + 1, p => do
    match ← turn p with
    | .short => some ([], .short)
    | .bad => some ([], .bad)
    | .wait => some ([], .remain p)
    | .packet call rest =>
      if rest = [] then some ([call], .remain [])
      else do
        let (calls, exit) ← parseLoop fuel rest
        some (call :: calls, exit)

def trim (buffer : List UInt8) : Exit → List UInt8
  | .short => buffer
  | .bad => buffer
  | .remain p =>
    if p.length ≠ 0 then
      if p.length < buffer.length then cut buffer (-p.length) else buffer
    else []

def Exit.code (calls : List Process) : Exit → ℤ
  | .short => 0
  | .bad => -1
  | .remain _ => calls.length

def msgParseStream (link : MqttLink) (content : List UInt8) : Option (ℤ × MqttLink) := do
  let buffer := link.mBufferMsg ++ content
  let (calls, exit) ← parseLoop (buffer.length + 1) buffer
  some (exit.code calls, ⟨0, trim buffer exit, link.processed ++ calls⟩)

def feed (link : MqttLink) : List (List UInt8) → Option MqttLink
  | [] => some link
  | c :: cs => do
    let (_, link) ← link.msgParseStream c
    link.feed cs

end MqttLink

end Xframe.Facility
