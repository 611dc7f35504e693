import Xframe.Facility.MqttMsg
import Xframe.Msg.UriText

/-! The packets of `CMqttServerLink` and `CMqttClientLink` (`mqttlink.C`): how each side builds what it
sends and reads what it receives. -/

namespace Xframe.Facility

open Xframe.Msg

open MqttMsg (Cursor)

inductive MqttBody where
  | connect (clientName userName password : CStr)
  | publish (clientName topic content : CStr)
  | subscribe (clientName : CStr) (msgId : ℕ) (topic : List CStr)
  | unsubscribe (clientName : CStr) (msgId : ℕ) (topic : List CStr)
  | disconnect (clientName : CStr)
  | connAck (code : ℕ)
  | subAck (msgId code : ℕ)
  | unsubAck (msgId : ℕ)
  deriving DecidableEq

structure Invocation where
  packetName : String
  msgId : ℕ
  msgBody : MqttBody
  deriving DecidableEq

structure Response where
  msgId : ℕ
  addr : TMsgAddress
  msgBody : MqttBody
  deriving DecidableEq

/-- The members of `CMqttLink` that packets reach; `sent` are the arguments of `sendPacket`, `invoked`
those of `invokeService`, `closed` counts the calls of `closeLink`. -/
structure CMqttLink where
  mCurrentPacketId : ℕ
  mIdleSec : ℕ
  mKeepAlive : ℤ
  mAlive : Bool
  mAddrMap : List (ℕ × TMsgAddress)
  sent : List (List UInt8)
  invoked : List Invocation
  responses : List Response
  closed : ℕ
  deriving DecidableEq

def CMqttLink.new : CMqttLink := ⟨0, 0, 0, false, [], [], [], [], 0⟩

structure CMqttServerLink extends CMqttLink where
  mClientName : CStr
  deriving DecidableEq

/-- `acks` are the acknowledgements that the handlers have read. -/
structure CMqttClientLink extends CMqttLink where
  mPingTimer : ℤ
  acks : List MqttBody
  deriving DecidableEq

def CMqttServerLink.new : CMqttServerLink := { CMqttLink.new with mClientName := [] }

def CMqttClientLink.new : CMqttClientLink := { CMqttLink.new with mPingTimer := 0, acks := [] }

/-- Why a handler stops: a field is missing, as `parseError` reports it, or the memory is spoiled: a negative number
of bytes is copied, or a log text is longer than its buffer. -/
inductive Stop where
  | parseError (msgName paraName : String)
  | fault
  deriving DecidableEq

abbrev Handler (L : Type) := EStateM Stop (L × Cursor)

namespace Handler

variable {L α : Type}

def field (parse : Cursor → Option (α × Cursor)) (msgName paraName : String) : Handler L α := fun s =>
  match parse s.2 with
  | none => .error (.parseError msgName paraName) s
  | some (a, c) => .ok a (s.1, c)

def string (msgName paraName : String) : Handler L CStr := field MqttMsg.parseString msgName paraName

def byte (msgName paraName : String) : Handler L ℕ := field MqttMsg.parseByte msgName paraName

def short (msgName paraName : String) : Handler L ℕ := field MqttMsg.parseShort msgName paraName

def when (h : Handler L CStr) (flag : Bool) : Handler L CStr := if flag then h else pure []

def content : Handler L CStr := fun s =>
  if s.2.length < 0 then .error .fault s else .ok (List.takeD s.2.length.toNat s.2.p 0) s

def link (f : L → L) : Handler L Unit := modify fun s => (f s.1, s.2)

def uniInfo (text : CStr) : Handler L Unit := fun s =>
  match logged text with
  | some _ => .ok () s
  | none => .error .fault s

def run (h : Handler L Unit) (link : L) (c : Cursor) : Option L :=
  match h (link, c) with
  | .ok _ s => some s.1
  | .error (.parseError _ _) s => some s.1
  | .error .fault _ => none

end Handler

namespace CMqttLink

def sendPacket (link : CMqttLink) (packet : List UInt8) : CMqttLink := { link with sent := link.sent ++ [packet] }

def sendPublish (link : CMqttLink) (topic content : CStr) : CMqttLink :=
  link.sendPacket (MqttMsg.pack 3 (MqttMsg.appendStr topic ++ content) 0)

def invokeService (link : CMqttLink) (packetName : String) (msgId : ℕ) (msgBody : MqttBody) : CMqttLink :=
  { link with invoked := link.invoked ++ [⟨packetName, msgId, msgBody⟩] }

def getAppAddr (link : CMqttLink) (packetId : ℕ) : Option TMsgAddress :=
  (link.mAddrMap.find? fun e => e.1 = packetId).map Prod.snd

def responseService (link : CMqttLink) (msgId : ℕ) (addr : TMsgAddress) (msgBody : MqttBody) : CMqttLink :=
  { link with responses := link.responses ++ [⟨msgId, addr, msgBody⟩] }

end CMqttLink

def msgParse {L : Type} (awake : L → L) (msgProcess : ℕ → ℕ → Handler L Unit) (link : L) (c : Cursor) :
    Option (ℤ × L) :=
  if c.length < 2 then some (-1, awake link)
  else do
    let (bodyLength, p, remainLength) ← MqttMsg.parseLength c.p.tail (c.length - 1)
    if bodyLength ≠ remainLength then some (-1, awake link)
    else do
      let headByte := (c.p.headD 0).toNat
      let link ← (msgProcess (headByte / 16) (headByte % 16)).run (awake link) ⟨p, bodyLength⟩
      some (1, link)

namespace CMqttServerLink

def sendPacket (link : CMqttServerLink) (packet : List UInt8) : CMqttServerLink :=
  { link with toCMqttLink := link.toCMqttLink.sendPacket packet }

def sendPublish (link : CMqttServerLink) (topic content : CStr) : CMqttServerLink :=
  { link with toCMqttLink := link.toCMqttLink.sendPublish topic content }

def invokeService (link : CMqttServerLink) (packetName : String) (msgId : ℕ) (msgBody : MqttBody) :
    CMqttServerLink :=
  { link with toCMqttLink := link.toCMqttLink.invokeService packetName msgId msgBody }

def closeLink (link : CMqttServerLink) : CMqttServerLink := { link with closed := link.closed + 1 }

def sendConnAck (link : CMqttServerLink) (sessionPresent : Bool) (code : ℤ) : CMqttServerLink :=
  let body := [UInt8.ofNat sessionPresent.toNat, UInt8.ofNat (code % 256).toNat]
  let link := link.sendPacket (MqttMsg.pack 2 body 0)
  if code ≠ 0 then link.closeLink else link

def sendSubAck (link : CMqttServerLink) (msgId code : ℤ) : CMqttServerLink :=
  link.sendPacket (MqttMsg.pack 9 (MqttMsg.appendShort msgId ++ [UInt8.ofNat (code % 256).toNat]) 0)

def sendUnsubAck (link : CMqttServerLink) (msgId : ℤ) : CMqttServerLink :=
  link.sendPacket (MqttMsg.pack 11 (MqttMsg.appendShort msgId) 0)

def sendPingResp (link : CMqttServerLink) : CMqttServerLink := link.sendPacket (MqttMsg.packEmpty 13)

def processDisconnect : Handler CMqttServerLink Unit := do
  let (link, _) ← get
  Handler.uniInfo (CStr.ofString "[mqttlink.C:341] received disconnect message from client " ++
    MqttMsg.cString link.mClientName)
  Handler.link fun link =>
    { link.invokeService "disconnect" 2608 (.disconnect link.mClientName) with mAlive := false }

def protocol : CStr := [77, 81, 84, 84]

def hexDigit (n : ℕ) : UInt8 := UInt8.ofNat (if n < 10 then 48 + n else 55 + n)

def connectInfo (protocolName : CStr) (protocolLevel connectFlags keepAlive : ℕ) (clientName userName password : CStr) :
    CStr :=
  CStr.ofString "[mqttlink.C:406] received connect message: " ++ MqttMsg.cString protocolName ++ CStr.ofString "," ++
    CStr.ofInt protocolLevel ++ CStr.ofString ",0x" ++ [hexDigit (connectFlags / 16), hexDigit (connectFlags % 16)] ++
    CStr.ofString "," ++ CStr.ofInt keepAlive ++ CStr.ofString ": " ++ MqttMsg.cString clientName ++ CStr.ofString "," ++
    MqttMsg.cString userName ++ CStr.ofString "," ++ MqttMsg.cString password

def processConnect : Handler CMqttServerLink Unit := do
  let protocolName ← Handler.string "connect" "protocolName"
  let protocolLevel ← Handler.byte "connect" "protocolLevel"
  let connectFlags ← Handler.byte "connect" "connectFlags"
  let keepAlive ← Handler.short "connect" "keepAlive"
  Handler.link fun link => { link with mKeepAlive := keepAlive }
  let clientName ← Handler.string "connect" "clientName"
  Handler.link fun link => { link with mClientName := clientName }
  let _ ← (Handler.string "connect" "willTopic").when (connectFlags.testBit 2)
  let _ ← (Handler.string "connect" "willMessage").when (connectFlags.testBit 2)
  let userName ← (Handler.string "connect" "userName").when (connectFlags.testBit 7)
  let password ← (Handler.string "connect" "password").when (connectFlags.testBit 6)
  Handler.uniInfo (connectInfo protocolName protocolLevel connectFlags keepAlive clientName userName password)
  if MqttMsg.cString protocolName ≠ protocol ∨ protocolLevel ≠ 4 then
    Handler.link fun link => link.sendConnAck false 1
  else
    Handler.link fun link =>
      { link.invokeService "connect" 1 (.connect link.mClientName userName password) with mAlive := true }

def processPublish (flags : ℕ) : Handler CMqttServerLink Unit :=
  if flags ≠ 0 then pure ()
  else do
    let topicName ← Handler.string "publish" "topicName"
    let content ← Handler.content
    Handler.link fun link => link.invokeService "publish" 3 (.publish link.mClientName topicName content)

def topics (qos : Bool) (msgName : String) (c : Cursor) : Except Stop (List CStr × Cursor) :=
  if hpos : 0 < c.length then
    match ht : MqttMsg.parseString c with
    | none => .error (.parseError msgName "topic")
    | some (topic, c1) =>
      if qos then
        match hq : MqttMsg.parseByte c1 with
        | none => .error (.parseError msgName "qos")
        | some (_, c2) => (topics qos msgName c2).map fun (ts, c) => (topic :: ts, c)
      else (topics qos msgName c1).map fun (ts, c) => (topic :: ts, c)
  else .ok ([], c)
termination_by c.length.toNat
decreasing_by
  · have h1 := MqttMsg.parseString_shorter ht
    have h2 := MqttMsg.parseByte_shorter hq
    omega
  · have h1 := MqttMsg.parseString_shorter ht
    omega

def parseTopics (qos : Bool) (msgName : String) : Handler CMqttServerLink (List CStr) := fun s =>
  match topics qos msgName s.2 with
  | .error e => .error e s
  | .ok (ts, c) => .ok ts (s.1, c)

def processSubscribe : Handler CMqttServerLink Unit := do
  let packetId ← Handler.short "subscribe" "packetId"
  let topic ← parseTopics true "subscribe"
  Handler.link fun link => link.invokeService "subscribe" 8 (.subscribe link.mClientName packetId topic)

def processUnsubscribe : Handler CMqttServerLink Unit := do
  let packetId ← Handler.short "subscribe" "packetId"
  let topic ← parseTopics false "unsubscribe"
  Handler.link fun link => link.invokeService "unsubscribe" 10 (.unsubscribe link.mClientName packetId topic)

def msgProcess (packetType flags : ℕ) : Handler CMqttServerLink Unit :=
  if packetType = 1 then processConnect
  else if packetType = 3 then processPublish flags
  else if packetType = 8 then processSubscribe
  else if packetType = 10 then processUnsubscribe
  else if packetType = 12 then Handler.link sendPingResp
  else if packetType = 14 then processDisconnect
  else pure ()

def awake (link : CMqttServerLink) : CMqttServerLink := { link with mIdleSec := 0 }

def msgParse (link : CMqttServerLink) (content : List UInt8) : Option (ℤ × CMqttServerLink) :=
  Facility.msgParse awake msgProcess link (.start content)

end CMqttServerLink

namespace CMqttClientLink

def sendPacket (link : CMqttClientLink) (packet : List UInt8) : CMqttClientLink :=
  { link with toCMqttLink := link.toCMqttLink.sendPacket packet }

def sendPublish (link : CMqttClientLink) (topic content : CStr) : CMqttClientLink :=
  { link with toCMqttLink := link.toCMqttLink.sendPublish topic content }

def sendConnect (link : CMqttClientLink) (name user passwd : CStr) (keepAlive : ℤ) : CMqttClientLink :=
  let body := MqttMsg.appendStr CMqttServerLink.protocol ++ [4] ++ [0xC2] ++ MqttMsg.appendShort keepAlive ++
    MqttMsg.appendStr name ++ MqttMsg.appendStr user ++ MqttMsg.appendStr passwd
  { link with mKeepAlive := keepAlive }.sendPacket (MqttMsg.pack 1 body 0)

def sendSubscribe (link : CMqttClientLink) (topics : List CStr) (packetId : ℤ) : CMqttClientLink :=
  let body := MqttMsg.appendShort packetId ++ topics.flatMap fun i => MqttMsg.appendStr i ++ [0]
  link.sendPacket (MqttMsg.pack 8 body 0)

def sendUnsubscribe (link : CMqttClientLink) (topics : List CStr) (packetId : ℤ) : CMqttClientLink :=
  let body := MqttMsg.appendShort packetId ++ topics.flatMap MqttMsg.appendStr
  link.sendPacket (MqttMsg.pack 10 body 0)

def sendPingReq (link : CMqttClientLink) : CMqttClientLink := link.sendPacket (MqttMsg.packEmpty 12)

def sendDisconnect (link : CMqttClientLink) : CMqttClientLink :=
  { link.sendPacket (MqttMsg.packEmpty 14) with mAlive := false }

def ack (link : CMqttClientLink) (msgBody : MqttBody) : CMqttClientLink :=
  { link with acks := link.acks ++ [msgBody] }

def respond (link : CMqttClientLink) (packetId msgId : ℕ) (msgBody : MqttBody) : CMqttClientLink :=
  let link := link.ack msgBody
  match link.getAppAddr packetId with
  | none => link
  | some addr => { link with toCMqttLink := link.toCMqttLink.responseService msgId addr msgBody }

def processSubAck : Handler CMqttClientLink Unit := do
  let packetId ← Handler.short "suback" "packetId"
  let code ← Handler.byte "suback" "code"
  Handler.link fun link => link.respond packetId 2606 (.subAck packetId code)

def processUnsubAck : Handler CMqttClientLink Unit := do
  let packetId ← Handler.short "unsuback" "packetId"
  Handler.link fun link => link.respond packetId 2607 (.unsubAck packetId)

def processConnAck : Handler CMqttClientLink Unit := do
  let code ← Handler.byte "connack" "code"
  Handler.link fun link => { link.ack (.connAck code) with mAlive := if code = 0 then true else link.mAlive }

def processPublish (flags : ℕ) : Handler CMqttClientLink Unit :=
  if flags ≠ 0 then pure ()
  else do
    let topicName ← Handler.string "publish" "topicName"
    let content ← Handler.content
    Handler.link fun link =>
      { link with toCMqttLink := link.toCMqttLink.invokeService "publish" 2603 (.publish [] topicName content) }

def msgProcess (packetType flags : ℕ) : Handler CMqttClientLink Unit :=
  if packetType = 3 then processPublish flags
  else if packetType = 9 then processSubAck
  else if packetType = 11 then processUnsubAck
  else if packetType = 2 then processConnAck
  else pure ()

def awake (link : CMqttClientLink) : CMqttClientLink := { link with mIdleSec := 0 }

def msgParse (link : CMqttClientLink) (content : List UInt8) : Option (ℤ × CMqttClientLink) :=
  Facility.msgParse awake msgProcess link (.start content)

end CMqttClientLink

end Xframe.Facility
