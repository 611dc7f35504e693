import Xframe.Lib.Refine
import Xframe.Facility.MqttPackets

/-! The packet ids of `CMqttClientLink`: given out by `newPacketId` for every request of an application, and
answered by the server's SUBACK and UNSUBACK. -/

namespace Xframe.Facility

open Xframe.Lib Xframe.Msg

open MqttMsg (Cursor)

namespace CMqttLink

/-- `mAddrMap` is a hash table; a key that is put again takes the new address. -/
def newPacketId (link : CMqttLink) (addr : TMsgAddress) : ℕ × CMqttLink :=
  let id := (link.mCurrentPacketId + 1) % 65536
  (id, { link with mCurrentPacketId := id, mAddrMap := (id, addr) :: link.mAddrMap.filter (·.1 ≠ id) })

section Ids

variable (link : CMqttLink) (addr : TMsgAddress) (id : ℕ)

lemma getAppAddr_new :
    (link.newPacketId addr).2.getAppAddr id = if id = (link.newPacketId addr).1 then some addr else link.getAppAddr id := by
  by_cases h : id = (link.mCurrentPacketId + 1) % 65536
  · simp [getAppAddr, newPacketId, ← h]
  · have hne : ¬(link.mCurrentPacketId + 1) % 65536 = id := fun he => h he.symm
    have hsame : (fun e : ℕ × TMsgAddress => decide (e.1 ≠ (link.mCurrentPacketId + 1) % 65536) && decide (e.1 = id)) =
        fun e => decide (e.1 = id) := by
      funext e
      by_cases he : e.1 = id
      · simp [he, h]
      · simp [he]
    have hnew : id ≠ (link.newPacketId addr).1 := h
    rw [if_neg hnew, getAppAddr, newPacketId, List.find?_cons_of_neg (by simpa using hne), List.find?_filter]
    simp only [Bool.decide_and, Bool.decide_eq_true]
    rw [hsame]
    rfl

end Ids

end CMqttLink

inductive AppRequest where
  | publish (topic content : CStr)
  | subscribe (topic : Option (List CStr))
  | unsubscribe (topic : Option (List CStr))
  | other

def AppRequest.asks : AppRequest → Bool
  | .subscribe (some _) => true
  | .unsubscribe (some _) => true
  | _ => false

namespace CMqttClientLink

def newPacketId (link : CMqttClientLink) (addr : TMsgAddress) : ℕ × CMqttClientLink :=
  let (id, base) := link.toCMqttLink.newPacketId addr
  (id, { link with toCMqttLink := base })

def procAppMsg (link : CMqttClientLink) (msg : AppRequest) (oAddr : TMsgAddress) : Bool × CMqttClientLink :=
  match msg with
  | .publish topic content => (true, link.sendPublish topic content)
  | .subscribe none => (false, link)
  | .subscribe (some topic) =>
    let (id, link) := link.newPacketId oAddr
    (true, link.sendSubscribe topic id)
  | .unsubscribe none => (false, link)
  | .unsubscribe (some topic) =>
    let (id, link) := link.newPacketId oAddr
    (true, link.sendUnsubscribe topic id)
  | .other => (false, link)

def ackOf (packetType : ℕ) (c : Cursor) : Option ℕ :=
  if packetType = 9 then do
    let (packetId, c) ← MqttMsg.parseShort c
    let _ ← MqttMsg.parseByte c
    some packetId
  else if packetType = 11 then (MqttMsg.parseShort c).map Prod.fst
  else none

end CMqttClientLink

section Keeps

variable {L α β γ : Type}

def Handler.link_after : EStateM.Result Stop (L × Cursor) α → L
  | .ok _ s => s.1
  | .error _ s => s.1

def Handler.Keeps (f : L → γ) (h : Handler L α) : Prop := ∀ link c, f (Handler.link_after (h (link, c))) = f link

variable {f : L → γ} {h : Handler L α} {k : α → Handler L β}

lemma Handler.Keeps.bind (hh : Handler.Keeps f h) (hk : ∀ a, Handler.Keeps f (k a)) : Handler.Keeps f (h >>= k) := by
  intro link c
  have hlink := hh link c
  simp only [Bind.bind, EStateM.bind]
  cases hr : h (link, c) with
  | ok a s =>
    rw [hr] at hlink
    exact (hk a s.1 s.2).trans hlink
  | error e s =>
    rw [hr] at hlink
    exact hlink

lemma Handler.Keeps.field (parse : Cursor → Option (α × Cursor)) (msgName paraName : String) :
    Handler.Keeps f (Handler.field parse msgName paraName) := by
  intro link c
  rw [Handler.field]
  cases parse (link, c).2 <;> rfl

lemma Handler.Keeps.content : Handler.Keeps f Handler.content := by
  intro link c
  rw [Handler.content]
  split_ifs <;> rfl

lemma Handler.Keeps.link {g : L → L} (hg : ∀ link, f (g link) = f link) : Handler.Keeps f (Handler.link g) :=
  fun link _ => hg link

lemma Handler.Keeps.run {h : Handler L Unit} (hh : Handler.Keeps f h) {link link' : L} {c : Cursor}
    (hr : h.run link c = some link') : f link' = f link := by
  rw [← hh link c]
  rw [Handler.run] at hr
  cases hc : h (link, c) with
  | ok a s =>
    rw [hc] at hr
    rw [← Option.some.inj hr]
    rfl
  | error e s =>
    rw [hc] at hr
    cases e with
    | parseError => rw [← Option.some.inj hr]; rfl
    | fault => cases hr

end Keeps

namespace CMqttClientLink

def ids (link : CMqttClientLink) : ℕ × List (ℕ × TMsgAddress) := (link.mCurrentPacketId, link.mAddrMap)

lemma ids_respond (link : CMqttClientLink) (packetId msgId : ℕ) (msgBody : MqttBody) :
    (link.respond packetId msgId msgBody).ids = link.ids := by
  rw [respond]
  dsimp only
  split <;> rfl

structure Untouched {γ : Type} (f : CMqttClientLink → γ) : Prop where
  respond : ∀ link packetId msgId msgBody, f (respond link packetId msgId msgBody) = f link
  connAck : ∀ link code alive, f { ack link (.connAck code) with mAlive := alive } = f link
  invoke : ∀ link packetName msgId msgBody,
    f { link with toCMqttLink := link.toCMqttLink.invokeService packetName msgId msgBody } = f link

lemma ids_untouched : Untouched ids where
  respond := ids_respond
  connAck _ _ _ := rfl
  invoke _ _ _ _ := rfl

section Untouched

variable {γ : Type} {f : CMqttClientLink → γ}

lemma processSubAck_keeps (hf : Untouched f) : processSubAck.Keeps f := by
  apply Handler.Keeps.bind (Handler.Keeps.field _ _ _)
  intro packetId
  apply Handler.Keeps.bind (Handler.Keeps.field _ _ _)
  intro code
  apply Handler.Keeps.link
  intro link
  apply hf.respond

lemma processUnsubAck_keeps (hf : Untouched f) : processUnsubAck.Keeps f := by
  apply Handler.Keeps.bind (Handler.Keeps.field _ _ _)
  intro packetId
  apply Handler.Keeps.link
  intro link
  apply hf.respond

lemma processConnAck_keeps (hf : Untouched f) : processConnAck.Keeps f := by
  apply Handler.Keeps.bind (Handler.Keeps.field _ _ _)
  intro code
  apply Handler.Keeps.link
  intro link
  apply hf.connAck

lemma processPublish_keeps (hf : Untouched f) (flags : ℕ) : (processPublish flags).Keeps f := by
  rw [processPublish]
  split_ifs
  · exact fun link c => rfl
  · apply Handler.Keeps.bind (Handler.Keeps.field _ _ _)
    intro topicName
    apply Handler.Keeps.bind Handler.Keeps.content
    intro content
    apply Handler.Keeps.link
    intro link
    apply hf.invoke

lemma msgProcess_keeps (hf : Untouched f) (packetType flags : ℕ) : (msgProcess packetType flags).Keeps f := by
  rw [msgProcess]
  split_ifs
  · exact processPublish_keeps hf flags
  · exact processSubAck_keeps hf
  · exact processUnsubAck_keeps hf
  · exact processConnAck_keeps hf
  · exact fun link c => rfl

end Untouched

def Acknowledges (id : ℕ) : MqttBody → Prop
  | .subAck msgId _ => msgId = id
  | .unsubAck msgId => msgId = id
  | _ => False

lemma msgProcess_ack {packetType id : ℕ} {c : Cursor} (h : ackOf packetType c = some id) (link : CMqttClientLink)
    (flags : ℕ) :
    ∃ msgId msgBody, Acknowledges id msgBody ∧
      (msgProcess packetType flags).run link c = some (link.respond id msgId msgBody) := by
  rw [ackOf] at h
  split_ifs at h with h9 h11
  · subst h9
    obtain ⟨⟨packetId, c1⟩, h1, h⟩ := Option.bind_eq_some_iff.mp h
    obtain ⟨⟨code, c2⟩, h2, h⟩ := Option.bind_eq_some_iff.mp h
    cases h
    refine ⟨2606, .subAck id code, rfl, ?_⟩
    have hrun : processSubAck (link, c) = .ok () (link.respond id 2606 (.subAck id code), c2) := by
      simp only [processSubAck, Handler.short, Handler.byte, Handler.field, Handler.link, Bind.bind, EStateM.bind, h1, h2]
      rfl
    simp [msgProcess, Handler.run, hrun]
  · subst h11
    obtain ⟨⟨packetId, c1⟩, h1, rfl⟩ := Option.map_eq_some_iff.mp h
    refine ⟨2607, .unsubAck packetId, rfl, ?_⟩
    have hrun : processUnsubAck (link, c) = .ok () (link.respond packetId 2607 (.unsubAck packetId), c1) := by
      simp only [processUnsubAck, Handler.short, Handler.field, Handler.link, Bind.bind, EStateM.bind, h1]
      rfl
    simp [msgProcess, Handler.run, hrun]

lemma responses_respond {link : CMqttClientLink} {id : ℕ} {addr : TMsgAddress} (h : link.getAppAddr id = some addr)
    (msgId : ℕ) (msgBody : MqttBody) :
    (link.respond id msgId msgBody).responses = link.responses ++ [⟨msgId, addr, msgBody⟩] := by
  have hack : (link.ack msgBody).getAppAddr id = some addr := h
  rw [respond]
  simp only [hack]
  rfl

lemma getAppAddr_congr {link link' : CMqttClientLink} (h : link'.ids = link.ids) (id : ℕ) :
    link'.getAppAddr id = link.getAppAddr id := by
  have hmap : link'.mAddrMap = link.mAddrMap := congrArg Prod.snd h
  rw [CMqttLink.getAppAddr, CMqttLink.getAppAddr, hmap]

lemma procAppMsg_asks {msg : AppRequest} (h : msg.asks = true) (link : CMqttClientLink) (oAddr : TMsgAddress) :
    (link.procAppMsg msg oAddr).2.ids = (link.newPacketId oAddr).2.ids := by
  match msg, h with
  | .subscribe (some topic), _ => rfl
  | .unsubscribe (some topic), _ => rfl

lemma procAppMsg_other {msg : AppRequest} (h : msg.asks = false) (link : CMqttClientLink) (oAddr : TMsgAddress) :
    (link.procAppMsg msg oAddr).2.ids = link.ids := by
  match msg, h with
  | .publish topic content, _ => rfl
  | .subscribe none, _ => rfl
  | .unsubscribe none, _ => rfl
  | .other, _ => rfl

end CMqttClientLink

structure Exchange where
  link : CMqttClientLink
  outstanding : List (ℕ × TMsgAddress)

namespace Exchange

open CMqttClientLink (ackOf Acknowledges)

inductive Event where
  | app (msg : AppRequest) (oAddr : TMsgAddress)
  | packet (packetType flags : ℕ) (c : Cursor)

def exec (s : Exchange) : Event → Option (Unit × Exchange)
  | .app msg oAddr =>
    let asked := if msg.asks then [((s.link.newPacketId oAddr).1, oAddr)] else []
    some ((), ⟨(s.link.procAppMsg msg oAddr).2, s.outstanding ++ asked⟩)
  | .packet packetType flags c => do
    let link ← (CMqttClientLink.msgProcess packetType flags).run s.link c
    some ((), ⟨link, s.outstanding.filter fun e => ackOf packetType c ≠ some e.1⟩)

def start : Exchange := ⟨.new, []⟩

def FreshId (s : Exchange) : Event → Prop
  | .app msg oAddr =>
    let id := (s.link.newPacketId oAddr).1
    msg.asks → 1 ≤ id ∧ id ≤ 65535 ∧ (s.outstanding.length < 65535 → ∀ e ∈ s.outstanding, e.1 ≠ id)
  | .packet .. => True

def Routed (s : Exchange) (e : Event) : Prop :=
  ∀ packetType flags c, e = .packet packetType flags c → ∀ id addr, ackOf packetType c = some id →
    (id, addr) ∈ s.outstanding → Returns (s.exec e) fun (_, s') => ∃ r : Response, r.addr = addr ∧
      Acknowledges id r.msgBody ∧ s'.link.responses = s.link.responses ++ [r]

def Released (s : Exchange) (e : Event) : Prop :=
  ∀ packetType flags c, e = .packet packetType flags c → ∀ id addr, ackOf packetType c = some id →
    (id, addr) ∈ s.outstanding → Returns (s.exec e) fun (_, s') => s'.link.getAppAddr id = none

def Unwrapped (s : Exchange) : Event → Prop
  | .app msg _ => msg.asks → s.link.mCurrentPacketId < 65535
  | .packet .. => True

def NoAck (s : Exchange) : Event → Prop
  | .app .. => True
  | .packet packetType _ c => ∀ id, ackOf packetType c = some id → ∀ addr, (id, addr) ∉ s.outstanding

structure Inv (s : Exchange) : Prop where
  current : s.link.mCurrentPacketId < 65536
  given : ∀ e ∈ s.outstanding, 1 ≤ e.1 ∧ e.1 ≤ s.link.mCurrentPacketId
  found : ∀ e ∈ s.outstanding, s.link.getAppAddr e.1 = some e.2

lemma inv_start : Inv start where
  current := by decide
  given e he := absurd he List.not_mem_nil
  found e he := absurd he List.not_mem_nil

lemma Inv.keep {s s' : Exchange} (hi : s.Inv) (hids : s'.link.ids = s.link.ids)
    (hsub : ∀ e ∈ s'.outstanding, e ∈ s.outstanding) : s'.Inv where
  current := by
    rw [show s'.link.mCurrentPacketId = s.link.mCurrentPacketId from congrArg Prod.fst hids]
    exact hi.current
  given e he := by
    rw [show s'.link.mCurrentPacketId = s.link.mCurrentPacketId from congrArg Prod.fst hids]
    exact hi.given e (hsub e he)
  found e he := (CMqttClientLink.getAppAddr_congr hids e.1).trans (hi.found e (hsub e he))

lemma Inv.exec {s s' : Exchange} {e : Event} {r : Unit} (hi : s.Inv) (hu : s.Unwrapped e)
    (h : s.exec e = some (r, s')) : s'.Inv := by
  cases e with
  | packet packetType flags c =>
    obtain ⟨link, hrun, he⟩ := Option.bind_eq_some_iff.mp h
    cases he
    apply hi.keep ((CMqttClientLink.msgProcess_keeps CMqttClientLink.ids_untouched packetType flags).run hrun)
    intro e he
    exact (List.mem_filter.mp he).1
  | app msg oAddr =>
    cases h
    cases hasks : msg.asks with
    | false =>
      apply hi.keep (CMqttClientLink.procAppMsg_other hasks _ _)
      simp
    | true =>
      have hcur : s.link.mCurrentPacketId < 65535 := hu hasks
      have hids := CMqttClientLink.procAppMsg_asks hasks s.link oAddr
      have hid : (s.link.newPacketId oAddr).1 = s.link.mCurrentPacketId + 1 := Nat.mod_eq_of_lt (by omega)
      have hnew : (s.link.procAppMsg msg oAddr).2.mCurrentPacketId = s.link.mCurrentPacketId + 1 :=
        (congrArg Prod.fst hids).trans hid
      have hfound (id : ℕ) : (s.link.procAppMsg msg oAddr).2.getAppAddr id =
          if id = s.link.mCurrentPacketId + 1 then some oAddr else s.link.getAppAddr id := by
        rw [CMqttClientLink.getAppAddr_congr hids, ← hid]
        exact CMqttLink.getAppAddr_new s.link.toCMqttLink oAddr id
      have hmem : ∀ e ∈ s.outstanding ++ [((s.link.newPacketId oAddr).1, oAddr)],
          e ∈ s.outstanding ∨ e = (s.link.mCurrentPacketId + 1, oAddr) := by
        simp [hid]
      refine ⟨?_, ?_, ?_⟩
      · rw [hnew]
        omega
      · intro e he
        rw [if_pos rfl] at he
        rw [hnew]
        rcases hmem e he with he | rfl
        · have := hi.given e he
          omega
        · simp
      · intro e he
        rw [if_pos rfl] at he
        rw [hfound]
        rcases hmem e he with he | rfl
        · have := hi.given e he
          rw [if_neg (by omega)]
          exact hi.found e he
        · exact if_pos rfl

lemma freshId_iff {s : Exchange} (hi : s.Inv) (e : Event) : s.FreshId e ↔ s.Unwrapped e := by
  cases e with
  | packet => exact Iff.rfl
  | app msg oAddr =>
    apply forall_congr'
    intro hasks
    have hid : (s.link.newPacketId oAddr).1 = (s.link.mCurrentPacketId + 1) % 65536 := rfl
    have hcur := hi.current
    constructor
    · rintro ⟨hpos, -⟩
      rw [hid] at hpos
      omega
    · intro hlt
      rw [hid]
      refine ⟨by omega, by omega, fun _ e he => ?_⟩
      have := hi.given e he
      omega

lemma exec_ack (s : Exchange) (flags : ℕ) {packetType id : ℕ} {c : Cursor} (h : ackOf packetType c = some id) :
    ∃ msgId msgBody, Acknowledges id msgBody ∧ s.exec (.packet packetType flags c) =
      some ((), ⟨s.link.respond id msgId msgBody, s.outstanding.filter fun e => ackOf packetType c ≠ some e.1⟩) := by
  obtain ⟨msgId, msgBody, hack, hrun⟩ := CMqttClientLink.msgProcess_ack h s.link flags
  exact ⟨msgId, msgBody, hack, by rw [exec, hrun]; rfl⟩

lemma routed {s : Exchange} (hi : s.Inv) (e : Event) : s.Routed e := by
  rintro packetType flags c rfl id addr hack hmem
  obtain ⟨msgId, msgBody, hid, he⟩ := exec_ack s flags hack
  rw [he, returns_some]
  exact ⟨_, rfl, hid, CMqttClientLink.responses_respond (hi.found _ hmem) msgId msgBody⟩

lemma released_iff {s : Exchange} (hi : s.Inv) (e : Event) : s.Released e ↔ s.NoAck e := by
  cases e with
  | app => exact iff_of_true (fun _ _ _ h => by cases h) trivial
  | packet packetType flags c =>
    constructor
    · intro hr id hack addr hmem
      obtain ⟨msgId, msgBody, -, he⟩ := exec_ack s flags hack
      have hgone := hr packetType flags c rfl id addr hack hmem
      rw [he, returns_some] at hgone
      have hfound := CMqttClientLink.getAppAddr_congr (CMqttClientLink.ids_respond s.link id msgId msgBody) id
      rw [hi.found _ hmem] at hfound
      exact Option.some_ne_none _ (hfound.symm.trans hgone)
    · rintro hno _ _ _ ⟨rfl, rfl, rfl⟩ id addr hack hmem
      exact absurd hmem (hno id hack addr)

end Exchange

end Xframe.Facility
