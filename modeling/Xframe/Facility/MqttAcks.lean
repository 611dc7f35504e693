import Xframe.Facility.MqttDecode

/-! What the server sends and what the client makes of it. -/

namespace Xframe.Facility

open Xframe.Msg

open MqttMsg (Cursor Field appendStr appendShort pack cString)

inductive ServerMsg where
  | connAck (sessionPresent : Bool) (code : ℤ)
  | subAck (msgId code : ℤ)
  | unsubAck (msgId : ℤ)
  | publish (topic content : CStr)

namespace ServerMsg

def send (s : CMqttServerLink) : ServerMsg → CMqttServerLink
  | connAck sessionPresent code => s.sendConnAck sessionPresent code
  | subAck msgId code => s.sendSubAck msgId code
  | unsubAck msgId => s.sendUnsubAck msgId
  | publish topic content => s.sendPublish topic content

def packetType : ServerMsg → ℕ
  | connAck .. => 2
  | subAck .. => 9
  | unsubAck .. => 11
  | publish .. => 3

def body : ServerMsg → List UInt8
  | connAck sessionPresent code => [UInt8.ofNat sessionPresent.toNat, UInt8.ofNat (code % 256).toNat]
  | subAck msgId code => appendShort msgId ++ [UInt8.ofNat (code % 256).toNat]
  | unsubAck msgId => appendShort msgId
  | publish topic content => appendStr topic ++ content

def packet (m : ServerMsg) : List UInt8 := pack m.packetType m.body 0

lemma send_sent (s : CMqttServerLink) (m : ServerMsg) : (m.send s).sent = s.sent ++ [m.packet] := by
  cases m with
  | connAck sessionPresent code =>
    rw [send, CMqttServerLink.sendConnAck]
    split <;> rfl
  | _ => rfl

def Recovered (c c' : CMqttClientLink) : ServerMsg → Prop
  | connAck _ code => ∃ k : ℕ, k = code ∧ c'.acks = c.acks ++ [.connAck k]
  | subAck msgId code => ∃ n k : ℕ, n = msgId ∧ k = code ∧ c'.acks = c.acks ++ [.subAck n k]
  | unsubAck msgId => ∃ n : ℕ, n = msgId ∧ c'.acks = c.acks ++ [.unsubAck n]
  | publish topic content => c'.invoked = c.invoked ++ [⟨"publish", 2603, .publish [] topic content⟩]

/-- The return code of a CONNACK equals its session flag, numbers fit their fields and a topic and its
content fit a packet. -/
def Fits : ServerMsg → Prop
  | connAck sessionPresent code => code = sessionPresent.toNat
  | subAck msgId code => (0 ≤ msgId ∧ msgId < 65536) ∧ 0 ≤ code ∧ code < 256
  | unsubAck msgId => 0 ≤ msgId ∧ msgId < 65536
  | publish topic content => Field topic ∧ (appendStr topic ++ content).length < 2 ^ 21

def received (c : CMqttClientLink) : ServerMsg → CMqttClientLink
  | connAck sessionPresent _ =>
    { c.ack (.connAck sessionPresent.toNat) with mAlive := if sessionPresent then c.mAlive else true }
  | subAck msgId code =>
    c.respond (msgId % 65536).toNat 2606 (.subAck (msgId % 65536).toNat (code % 256).toNat)
  | unsubAck msgId => c.respond (msgId % 65536).toNat 2607 (.unsubAck (msgId % 65536).toNat)
  | publish topic content =>
    let n := (cString topic).length % 65536
    let msgBody := MqttBody.publish [] ((cString topic).take n) ((cString topic).drop n ++ content)
    { c with toCMqttLink := c.toCMqttLink.invokeService "publish" 2603 msgBody }

section Handlers

variable {c : CMqttClientLink}

lemma byte_toNat (code : ℤ) : (UInt8.ofNat (code % 256).toNat).toNat = (code % 256).toNat := by
  rw [UInt8.toNat_ofNat']
  omega

lemma flag_toNat (b : Bool) : (UInt8.ofNat b.toNat).toNat = b.toNat := by
  cases b <;> rfl

lemma processConnAck_apply (sessionPresent : Bool) (code : ℤ) :
    ∃ rest, CMqttClientLink.processConnAck (c, .start (connAck sessionPresent code).body) =
      .ok () ((connAck sessionPresent code).received c, .start rest) := by
  refine ⟨[UInt8.ofNat (code % 256).toNat], ?_⟩
  rw [body, CMqttClientLink.processConnAck, Handler.bind_ok (Handler.byte_apply _ _ _ _ _), Handler.link_apply,
    flag_toNat]
  cases sessionPresent <;> rfl

lemma processSubAck_apply (msgId code : ℤ) :
    ∃ rest, CMqttClientLink.processSubAck (c, .start (subAck msgId code).body) =
      .ok () ((subAck msgId code).received c, .start rest) := by
  refine ⟨[], ?_⟩
  rw [body, CMqttClientLink.processSubAck, Handler.bind_ok (Handler.short_apply _ _ _ _ _),
    Handler.bind_ok (Handler.byte_apply _ _ _ _ _), Handler.link_apply, byte_toNat]
  rfl

lemma processUnsubAck_apply (msgId : ℤ) :
    ∃ rest, CMqttClientLink.processUnsubAck (c, .start (unsubAck msgId).body) =
      .ok () ((unsubAck msgId).received c, .start rest) := by
  refine ⟨[], ?_⟩
  have hend : appendShort msgId ++ [] = appendShort msgId := List.append_nil _
  rw [body, CMqttClientLink.processUnsubAck, Handler.bind_ok (hend ▸ Handler.short_apply msgId _ _ _ []),
    Handler.link_apply]
  rfl

lemma processPublish_apply (topic content : CStr) :
    ∃ rest, CMqttClientLink.processPublish 0 (c, .start (publish topic content).body) =
      .ok () ((publish topic content).received c, .start rest) := by
  let n := (cString topic).length % 65536
  refine ⟨(cString topic).drop n ++ content, ?_⟩
  have hs : Handler.string "publish" "topicName" (c, .start (appendStr topic ++ content)) =
      .ok ((cString topic).take n) (c, .start ((cString topic).drop n ++ content)) := by
    rw [Handler.string, Handler.field, MqttMsg.parseString_append]
  rw [body, CMqttClientLink.processPublish, if_neg (by simp), Handler.bind_ok hs,
    Handler.bind_ok (Handler.content_apply _ _), Handler.link_apply]
  rfl

lemma msgProcess_apply (m : ServerMsg) :
    ∃ rest, CMqttClientLink.msgProcess m.packetType 0 (c, .start m.body) = .ok () (m.received c, .start rest) := by
  cases m with
  | connAck => exact processConnAck_apply _ _
  | subAck => exact processSubAck_apply _ _
  | unsubAck => exact processUnsubAck_apply _
  | publish => exact processPublish_apply _ _

end Handlers

lemma packetType_lt (m : ServerMsg) : m.packetType < 16 := by
  cases m <;> simp [packetType]

lemma msgParse_packet (c : CMqttClientLink) {m : ServerMsg} (hb : m.body.length < 2 ^ 21) :
    c.msgParse m.packet = some (1, m.received c.awake) := by
  obtain ⟨rest, h⟩ := msgProcess_apply (c := c.awake) m
  exact msgParse_ok m.packetType_lt hb h

lemma msgParse_long (c : CMqttClientLink) {m : ServerMsg} (hb : 2 ^ 21 ≤ m.body.length) :
    c.msgParse m.packet = some (-1, c.awake) := by
  obtain ⟨p, k, hk, h⟩ := MqttMsg.parseLength_long hb m.body
  rw [CMqttClientLink.msgParse, msgParse, packet, if_neg (not_short_pack _ _ _), start_pack_length, start_pack_tail, h]
  simp only [Option.bind_eq_bind, Option.bind_some]
  rw [if_pos (by omega)]

lemma respond_acks (c : CMqttClientLink) (packetId msgId : ℕ) (b : MqttBody) :
    (c.respond packetId msgId b).acks = c.acks ++ [b] := by
  rw [CMqttClientLink.respond]
  split <;> rfl

lemma body_short (m : ServerMsg) (h : ∀ t c, m ≠ publish t c) : m.body.length < 2 ^ 21 := by
  cases m with
  | publish => exact absurd rfl (h _ _)
  | _ => simp [body, MqttMsg.length_appendShort]

lemma recovered_received_iff (c : CMqttClientLink) {m : ServerMsg} (hb : m.body.length < 2 ^ 21) :
    Recovered c (m.received c.awake) m ↔ m.Fits := by
  cases m with
  | connAck sessionPresent code =>
    constructor
    · rintro ⟨k, rfl, h⟩
      have h := List.append_cancel_left h
      simp only [List.cons.injEq, MqttBody.connAck.injEq, and_true] at h
      exact congrArg Nat.cast h.symm
    · intro h
      exact ⟨sessionPresent.toNat, h.symm, rfl⟩
  | subAck msgId code =>
    constructor
    · rintro ⟨n, k, rfl, rfl, h⟩
      rw [received, respond_acks] at h
      have h := List.append_cancel_left h
      simp only [List.cons.injEq, MqttBody.subAck.injEq, and_true] at h
      refine ⟨⟨?_, ?_⟩, ?_, ?_⟩ <;> omega
    · rintro ⟨⟨h0, h1⟩, h2, h3⟩
      refine ⟨msgId.toNat, code.toNat, by omega, by omega, ?_⟩
      rw [received, respond_acks, Int.emod_eq_of_lt h0 h1, Int.emod_eq_of_lt h2 h3]
      rfl
  | unsubAck msgId =>
    constructor
    · rintro ⟨n, rfl, h⟩
      rw [received, respond_acks] at h
      have h := List.append_cancel_left h
      simp only [List.cons.injEq, MqttBody.unsubAck.injEq, and_true] at h
      constructor <;> omega
    · rintro ⟨h0, h1⟩
      refine ⟨msgId.toNat, by omega, ?_⟩
      rw [received, respond_acks, Int.emod_eq_of_lt h0 h1]
      rfl
  | publish topic content =>
    constructor
    · intro h
      have h := List.append_cancel_left h
      simp only [List.cons.injEq, Invocation.mk.injEq, MqttBody.publish.injEq, true_and, and_true] at h
      exact ⟨MqttMsg.field_of_take h.1, hb⟩
    · rintro ⟨h, -⟩
      simp only [Recovered, received, MqttMsg.cString_eq h.noNul, Nat.mod_eq_of_lt h.short, List.take_length,
        List.drop_length, List.nil_append]
      rfl

lemma Fits.short {m : ServerMsg} (h : m.Fits) : m.body.length < 2 ^ 21 := by
  cases m with
  | publish => exact h.2
  | _ => exact body_short _ (by simp)

lemma not_recovered_awake (c : CMqttClientLink) (m : ServerMsg) : ¬Recovered c c.awake m := by
  cases m with
  | connAck => simp [Recovered, CMqttClientLink.awake]
  | subAck => simp [Recovered, CMqttClientLink.awake]
  | unsubAck => simp [Recovered, CMqttClientLink.awake]
  | publish => simp [Recovered, CMqttClientLink.awake]

lemma recovered_iff (c : CMqttClientLink) (m : ServerMsg) :
    (∃ r c', c.msgParse m.packet = some (r, c') ∧ Recovered c c' m) ↔ m.Fits := by
  by_cases hb : m.body.length < 2 ^ 21
  · rw [msgParse_packet c hb, ← recovered_received_iff c hb]
    simp
  · rw [msgParse_long c (by omega)]
    have hn : ¬m.Fits := fun h => hb h.short
    simp [not_recovered_awake, hn]

def connAcks (c : CMqttClientLink) : List (Bool × ℤ) → Option CMqttClientLink
  | [] => some c
  | e :: es => do
    let (_, c) ← c.msgParse (connAck e.1 e.2).packet
    connAcks c es

lemma connAcks_alive (c : CMqttClientLink) (es : List (Bool × ℤ)) :
    ∃ c', connAcks c es = some c' ∧ (c'.mAlive = true ↔ c.mAlive = true ∨ ∃ e ∈ es, e.1 = false) := by
  induction es generalizing c with
  | nil => exact ⟨c, rfl, by simp⟩
  | cons e es ih =>
    obtain ⟨c', h, hiff⟩ := ih ((connAck e.1 e.2).received c.awake)
    refine ⟨c', ?_, ?_⟩
    · rw [connAcks, msgParse_packet c (body_short _ (by simp))]
      exact h
    · rw [hiff]
      cases he : e.1 <;> simp [received, CMqttClientLink.awake, he]

lemma code_iff_flag {es : List (Bool × ℤ)} (h : ∀ e ∈ es, (connAck e.1 e.2).Fits) :
    (∃ e ∈ es, e.1 = false) ↔ ∃ e ∈ es, e.2 = 0 := by
  refine exists_congr fun e => and_congr_right fun he => ?_
  have hf : e.2 = e.1.toNat := h e he
  rw [hf]
  cases e.1 <;> simp

theorem client_recovers_iff (s : CMqttServerLink) (c : CMqttClientLink) (m : ServerMsg) (es : List (Bool × ℤ)) :
    (m.send s).sent = s.sent ++ [m.packet] ∧
      ((∃ r c', c.msgParse m.packet = some (r, c') ∧ Recovered c c' m) ↔ m.Fits) ∧
      ((∀ e ∈ es, (connAck e.1 e.2).Fits) →
        ∃ c', connAcks .new es = some c' ∧ (c'.mAlive = true ↔ ∃ e ∈ es, e.2 = 0)) := by
  refine ⟨m.send_sent s, recovered_iff c m, fun hes => ?_⟩
  obtain ⟨c', h, hiff⟩ := connAcks_alive .new es
  refine ⟨c', h, hiff.trans ?_⟩
  rw [← code_iff_flag hes]
  simp [CMqttClientLink.new, CMqttLink.new]

theorem client_recovers_accepted :
    (connAck false 0).Fits ∧ ∃ c', connAcks .new [(false, 0)] = some c' ∧ c'.mAlive = true := by
  have hfit : ∀ e ∈ [((false, 0) : Bool × ℤ)], (connAck e.1 e.2).Fits := by
    intro e he
    rw [List.mem_singleton.mp he]
    rfl
  obtain ⟨c', h, hiff⟩ := (client_recovers_iff .new .new (subAck 7 0) [(false, 0)]).2.2 hfit
  exact ⟨rfl, c', h, hiff.mpr ⟨(false, 0), by simp, rfl⟩⟩

theorem refusal_read_as_acceptance :
    ((connAck false 5).send .new).sent = [[32, 2, 0, 5]] ∧
      ∃ c', CMqttClientLink.new.msgParse [32, 2, 0, 5] = some (1, c') ∧ c'.acks = [.connAck 0] ∧
        c'.mAlive = true ∧ ¬Recovered .new c' (connAck false 5) := by
  refine ⟨?_, (connAck false 0).received CMqttClientLink.new.awake, rfl, rfl, rfl, ?_⟩
  · rw [send_sent, packet, pack, body, packetType, MqttMsg.appendLength_small (by decide)]
    rfl
  · rintro ⟨k, hk, h⟩
    have h := List.append_cancel_left h
    simp only [List.cons.injEq, MqttBody.connAck.injEq, and_true, Bool.toNat_false] at h
    omega

end ServerMsg

end Xframe.Facility
