import Xframe.Facility.MqttPackets

/-! What the client sends is what the server reads. -/

namespace Xframe.Facility

open Xframe.Msg

open MqttMsg (Cursor Field appendStr appendShort pack)

namespace Handler

variable {L α β : Type} {s t : L × Cursor} {a : α}

lemma bind_ok {h : Handler L α} {f : α → Handler L β} (hx : h s = .ok a t) : (h >>= f) s = f a t := by
  change EStateM.bind h f s = f a t
  simp only [EStateM.bind, hx]

lemma link_apply (f : L → L) (l : L) (c : Cursor) : link f (l, c) = .ok () (f l, c) := rfl

lemma when_true {h : Handler L CStr} {str : CStr} {flag : Bool} (hf : flag = true) (hx : h s = .ok str t) :
    h.when flag s = .ok str t := by
  rw [when, if_pos hf, hx]

lemma when_false {h : Handler L CStr} {flag : Bool} (hf : flag = false) : h.when flag s = .ok [] s := by
  rw [when, if_neg (by simp [hf])]
  rfl

lemma run_ok {h : Handler L Unit} {l l' : L} {c c' : Cursor} (hx : h (l, c) = .ok () (l', c')) :
    h.run l c = some l' := by
  rw [run, hx]

lemma run_fault {h : Handler L Unit} {l : L} {c : Cursor} (hx : h (l, c) = .error .fault t) : h.run l c = none := by
  rw [run, hx]

lemma bind_fault {h : Handler L α} {f : α → Handler L β} (hx : h s = .error .fault t) : (h >>= f) s = .error .fault t := by
  change EStateM.bind h f s = .error .fault t
  simp only [EStateM.bind, hx]

lemma uniInfo_ok {text : CStr} (h : text.length < INFO_BUF_SIZE) : uniInfo text s = .ok () s := by
  rw [uniInfo, logged, if_pos h]

lemma uniInfo_fault {text : CStr} (h : ¬text.length < INFO_BUF_SIZE) : uniInfo text s = .error .fault s := by
  rw [uniInfo, logged, if_neg h]

lemma string_apply {str : CStr} (h : Field str) (msgName paraName : String) (l : L) (rest : List UInt8) :
    string msgName paraName (l, .start (appendStr str ++ rest)) = .ok str (l, .start rest) := by
  rw [string, field, h.parseString]

lemma byte_apply (b : UInt8) (msgName paraName : String) (l : L) (rest : List UInt8) :
    byte msgName paraName (l, .start (b :: rest)) = .ok b.toNat (l, .start rest) := by
  rw [byte, field, MqttMsg.parseByte_cons]

lemma short_apply (value : ℤ) (msgName paraName : String) (l : L) (rest : List UInt8) :
    short msgName paraName (l, .start (appendShort value ++ rest)) =
      .ok (value % 65536).toNat (l, .start rest) := by
  rw [short, field, MqttMsg.parseShort_append]

lemma content_apply (l : L) (rest : List UInt8) : content (l, .start rest) = .ok rest (l, .start rest) := by
  rw [content, if_neg (by simp [Cursor.start])]
  simp [Cursor.start, List.takeD_eq_take]

end Handler

section Parse

lemma start_pack_tail (packetType flags : ℕ) (body : List UInt8) :
    (Cursor.start (pack packetType body flags)).p.tail = MqttMsg.appendLength body.length ++ body := rfl

lemma start_pack_head (packetType flags : ℕ) (body : List UInt8) :
    (Cursor.start (pack packetType body flags)).p.headD 0 = UInt8.ofNat (packetType * 16 + flags) := rfl

lemma start_pack_length (packetType flags : ℕ) (body : List UInt8) :
    (Cursor.start (pack packetType body flags)).length - 1 =
      ((MqttMsg.appendLength body.length ++ body).length : ℕ) := by
  simp [Cursor.start, pack]

lemma not_short_pack (packetType flags : ℕ) (body : List UInt8) :
    ¬(Cursor.start (pack packetType body flags)).length < 2 := by
  have hpos := List.length_pos_iff.mpr (MqttMsg.appendLength_ne_nil body.length)
  simp only [Cursor.start, pack, List.length_cons, List.length_append]
  omega

variable {L : Type} {awake : L → L} {process : ℕ → ℕ → Handler L Unit} {link link' : L}

lemma msgParse_pack {packetType : ℕ} {body : List UInt8} (ht : packetType < 16) (hb : body.length < 2 ^ 21) :
    msgParse awake process link (.start (pack packetType body 0)) =
      ((process packetType 0).run (awake link) (.start body)).map fun l => (1, l) := by
  have hhead : (UInt8.ofNat (packetType * 16 + 0)).toNat = packetType * 16 := by
    rw [UInt8.toNat_ofNat']
    omega
  have hdiv : packetType * 16 / 16 = packetType := by omega
  have hmod : packetType * 16 % 16 = 0 := by omega
  rw [msgParse, if_neg (not_short_pack _ _ _), start_pack_length, start_pack_tail, MqttMsg.parseLength_append hb]
  simp only [Option.bind_eq_bind, Option.bind_some, ne_eq, not_true_eq_false, if_false, start_pack_head, hhead, hdiv,
    hmod]
  exact Option.map_eq_bind.symm

lemma msgParse_ok {packetType : ℕ} {body : List UInt8} {c : Cursor} (ht : packetType < 16)
    (hb : body.length < 2 ^ 21) (hp : process packetType 0 (awake link, .start body) = .ok () (link', c)) :
    msgParse awake process link (.start (pack packetType body 0)) = some (1, link') := by
  rw [msgParse_pack ht hb, Handler.run_ok hp, Option.map_some]

lemma msgParse_fault {packetType : ℕ} {body : List UInt8} {t : L × Cursor} (ht : packetType < 16)
    (hb : body.length < 2 ^ 21) (hp : process packetType 0 (awake link, .start body) = .error .fault t) :
    msgParse awake process link (.start (pack packetType body 0)) = none := by
  rw [msgParse_pack ht hb, Handler.run_fault hp, Option.map_none]

end Parse

namespace CMqttServerLink

section Topics

variable {msgName topic : String} {c c1 c2 : Cursor} {t : CStr} {b : ℕ}

lemma topics_qos (hpos : 0 < c.length) (ht : MqttMsg.parseString c = some (t, c1))
    (hb : MqttMsg.parseByte c1 = some (b, c2)) :
    topics true msgName c = (topics true msgName c2).map fun (ts, c) => (t :: ts, c) := by
  rw [topics, dif_pos hpos]
  split
  · simp_all
  · rename_i h
    obtain ⟨rfl, rfl⟩ := Prod.mk.inj (Option.some.inj (ht.symm.trans h))
    rw [if_pos rfl]
    split
    · simp_all
    · rename_i h
      obtain ⟨rfl, rfl⟩ := Prod.mk.inj (Option.some.inj (hb.symm.trans h))
      rfl

lemma topics_plain (hpos : 0 < c.length) (ht : MqttMsg.parseString c = some (t, c1)) :
    topics false msgName c = (topics false msgName c1).map fun (ts, c) => (t :: ts, c) := by
  rw [topics, dif_pos hpos]
  split
  · simp_all
  · rename_i h
    obtain ⟨rfl, rfl⟩ := Prod.mk.inj (Option.some.inj (ht.symm.trans h))
    rw [if_neg (by simp)]

lemma topics_nil (qos : Bool) : topics qos msgName (.start []) = .ok ([], .start []) := by
  rw [topics, dif_neg (by simp [Cursor.start])]

end Topics

lemma start_appendStr_pos (t : CStr) (rest : List UInt8) : 0 < (Cursor.start (appendStr t ++ rest)).length := by
  have h : 0 < (appendStr t ++ rest).length := by simp [appendStr, MqttMsg.length_appendShort]
  exact Int.natCast_pos.mpr h

variable {ts : List CStr} (msgName : String)

lemma topics_subscribe (h : ∀ t ∈ ts, Field t) :
    topics true msgName (.start (ts.flatMap fun i => appendStr i ++ [0])) = .ok (ts, .start []) := by
  induction ts with
  | nil => exact topics_nil true
  | cons t ts ih =>
    have hp := (h t (by simp)).parseString (0 :: ts.flatMap fun i => appendStr i ++ [0])
    rw [List.flatMap_cons, List.append_assoc, List.singleton_append,
      topics_qos (start_appendStr_pos t _) hp (MqttMsg.parseByte_cons _ 0), ih fun t ht => h t (by simp [ht])]
    rfl

lemma topics_unsubscribe (h : ∀ t ∈ ts, Field t) :
    topics false msgName (.start (ts.flatMap appendStr)) = .ok (ts, .start []) := by
  induction ts with
  | nil => exact topics_nil false
  | cons t ts ih =>
    have hp := (h t (by simp)).parseString (ts.flatMap appendStr)
    rw [List.flatMap_cons, topics_plain (start_appendStr_pos t _) hp, ih fun t ht => h t (by simp [ht])]
    rfl

lemma parseTopics_apply {qos : Bool} {link : CMqttServerLink} {c : Cursor}
    (h : topics qos msgName c = .ok (ts, .start [])) :
    parseTopics qos msgName (link, c) = .ok ts (link, .start []) := by
  rw [parseTopics, h]

end CMqttServerLink

inductive ClientMsg where
  | connect (name user passwd : CStr) (keepAlive : ℤ)
  | subscribe (topics : List CStr) (packetId : ℤ)
  | unsubscribe (topics : List CStr) (packetId : ℤ)
  | publish (topic content : CStr)

namespace ClientMsg

def send (c : CMqttClientLink) : ClientMsg → CMqttClientLink
  | connect name user passwd keepAlive => c.sendConnect name user passwd keepAlive
  | subscribe topics packetId => c.sendSubscribe topics packetId
  | unsubscribe topics packetId => c.sendUnsubscribe topics packetId
  | publish topic content => c.sendPublish topic content

def Fits : ClientMsg → Prop
  | connect name user passwd keepAlive =>
    (Field name ∧ Field user ∧ Field passwd) ∧ 0 ≤ keepAlive ∧ keepAlive < 65536
  | subscribe topics packetId => (∀ t ∈ topics, Field t) ∧ 0 ≤ packetId ∧ packetId < 65536
  | unsubscribe topics packetId => (∀ t ∈ topics, Field t) ∧ 0 ≤ packetId ∧ packetId < 65536
  | publish topic _ => Field topic

/-- The text that `processConnect` logs fits its buffer. -/
def Logged : ClientMsg → Prop
  | connect name user passwd keepAlive =>
    name.length + user.length + passwd.length + (CStr.decimal keepAlive.toNat).length ≤ 8036
  | _ => True

def accepted (s : CMqttServerLink) : ClientMsg → CMqttServerLink
  | connect name user passwd keepAlive =>
    { s.invokeService "connect" 1 (.connect name user passwd) with
      mIdleSec := 0, mKeepAlive := keepAlive, mClientName := name, mAlive := true }
  | subscribe topics packetId =>
    { s.invokeService "subscribe" 8 (.subscribe s.mClientName packetId.toNat topics) with mIdleSec := 0 }
  | unsubscribe topics packetId =>
    { s.invokeService "unsubscribe" 10 (.unsubscribe s.mClientName packetId.toNat topics) with mIdleSec := 0 }
  | publish topic content =>
    { s.invokeService "publish" 3 (.publish s.mClientName topic content) with mIdleSec := 0 }

def packetType : ClientMsg → ℕ
  | connect .. => 1
  | subscribe .. => 8
  | unsubscribe .. => 10
  | publish .. => 3

def unread : ClientMsg → List UInt8
  | publish _ content => content
  | _ => []

def body : ClientMsg → List UInt8
  | connect name user passwd keepAlive =>
    appendStr CMqttServerLink.protocol ++ [4] ++ [0xC2] ++ appendShort keepAlive ++ appendStr name ++
      appendStr user ++ appendStr passwd
  | subscribe topics packetId => appendShort packetId ++ topics.flatMap fun i => appendStr i ++ [0]
  | unsubscribe topics packetId => appendShort packetId ++ topics.flatMap appendStr
  | publish topic content => appendStr topic ++ content

def packet (m : ClientMsg) : List UInt8 := pack m.packetType m.body 0

lemma send_sent (c : CMqttClientLink) (m : ClientMsg) : (m.send c).sent = c.sent ++ [m.packet] := by
  cases m <;> rfl

section Handlers

variable {s : CMqttServerLink} {packetId : ℤ}

lemma toNat_emod (h0 : 0 ≤ packetId) (h1 : packetId < 65536) : (packetId % 65536).toNat = packetId.toNat := by
  rw [Int.emod_eq_of_lt h0 h1]

lemma protocol_field : Field CMqttServerLink.protocol :=
  ⟨by simp [CMqttServerLink.protocol], by simp [CMqttServerLink.protocol]⟩

lemma length_connectInfo {name user passwd : CStr} (hn : Field name) (hu : Field user) (hp : Field passwd) (k : ℕ) :
    (CMqttServerLink.connectInfo CMqttServerLink.protocol 4 0xC2 k name user passwd).length =
      59 + (name.length + user.length + passwd.length + (CStr.decimal k).length) := by
  have hplace : (CStr.ofString "[mqttlink.C:406] received connect message: ").length = 43 :=
    CStr.length_ofString (l := "[mqttlink.C:406] received connect message: ".toList) rfl
  have hcomma : (CStr.ofString ",").length = 1 := CStr.length_ofString (l := [',']) rfl
  have hhex : (CStr.ofString ",0x").length = 3 := CStr.length_ofString (l := [',', '0', 'x']) rfl
  have hcolon : (CStr.ofString ": ").length = 2 := CStr.length_ofString (l := [':', ' ']) rfl
  have hfour : (CStr.ofInt (4 : ℕ)).length = 1 := by
    rw [CStr.ofInt_eq]
    rfl
  have hk : (CStr.ofInt k).length = (CStr.decimal k).length := by
    rw [CStr.ofInt_eq, if_neg (by omega), List.nil_append, Int.natAbs_natCast]
  have hprotocol : (MqttMsg.cString CMqttServerLink.protocol).length = 4 := rfl
  rw [CMqttServerLink.connectInfo, MqttMsg.cString_eq hn.noNul, MqttMsg.cString_eq hu.noNul, MqttMsg.cString_eq hp.noNul]
  simp only [List.length_append, hplace, hcomma, hhex, hcolon, hfour, hk, hprotocol, List.length_cons, List.length_nil]
  omega

lemma processConnect_reads {name user passwd : CStr} {keepAlive : ℤ}
    (h : (connect name user passwd keepAlive).Fits) :
    CMqttServerLink.processConnect (s.awake, .start (connect name user passwd keepAlive).body) =
      (do
        Handler.uniInfo (CMqttServerLink.connectInfo CMqttServerLink.protocol 4 0xC2 keepAlive.toNat name user passwd)
        Handler.link fun link : CMqttServerLink =>
          { link.invokeService "connect" 1 (.connect link.mClientName user passwd) with mAlive := true })
        ({ s.awake with mKeepAlive := keepAlive, mClientName := name }, .start []) := by
  obtain ⟨⟨hn, hu, hp⟩, h0, h1⟩ := h
  have hend : appendStr passwd ++ [] = appendStr passwd := List.append_nil _
  have hk : (((keepAlive % 65536).toNat : ℕ) : ℤ) = keepAlive := by omega
  have hk' : (keepAlive % 65536).toNat = keepAlive.toNat := toNat_emod h0 h1
  rw [body]
  simp only [List.append_assoc, List.cons_append, List.nil_append]
  rw [CMqttServerLink.processConnect, Handler.bind_ok (Handler.string_apply protocol_field _ _ _ _),
    Handler.bind_ok (Handler.byte_apply 4 _ _ _ _), Handler.bind_ok (Handler.byte_apply 0xC2 _ _ _ _),
    Handler.bind_ok (Handler.short_apply keepAlive _ _ _ _), Handler.bind_ok (Handler.link_apply _ _ _),
    Handler.bind_ok (Handler.string_apply hn _ _ _ _), Handler.bind_ok (Handler.link_apply _ _ _)]
  rw [Handler.bind_ok (Handler.when_false (by decide)), Handler.bind_ok (Handler.when_false (by decide)),
    Handler.bind_ok (Handler.when_true (by decide) (Handler.string_apply hu _ _ _ _)),
    Handler.bind_ok (Handler.when_true (by decide) (hend ▸ Handler.string_apply hp _ _ _ [])), if_neg (by decide), hk, hk']
  rfl

lemma processConnect_logged {name user passwd : CStr} {keepAlive : ℤ} (h : (connect name user passwd keepAlive).Fits) :
    (CMqttServerLink.connectInfo CMqttServerLink.protocol 4 0xC2 keepAlive.toNat name user passwd).length <
      INFO_BUF_SIZE ↔ (connect name user passwd keepAlive).Logged := by
  obtain ⟨⟨hn, hu, hp⟩, -⟩ := h
  rw [length_connectInfo hn hu hp, INFO_BUF_SIZE, Logged]
  omega

lemma processConnect_apply {name user passwd : CStr} {keepAlive : ℤ} (h : (connect name user passwd keepAlive).Fits)
    (hl : (connect name user passwd keepAlive).Logged) :
    CMqttServerLink.processConnect (s.awake, .start (connect name user passwd keepAlive).body) =
      .ok () ((connect name user passwd keepAlive).accepted s, .start []) := by
  rw [processConnect_reads h, Handler.bind_ok (Handler.uniInfo_ok ((processConnect_logged h).mpr hl)), Handler.link_apply]
  rfl

lemma processConnect_fault {name user passwd : CStr} {keepAlive : ℤ} (h : (connect name user passwd keepAlive).Fits)
    (hl : ¬(connect name user passwd keepAlive).Logged) :
    ∃ t, CMqttServerLink.processConnect (s.awake, .start (connect name user passwd keepAlive).body) = .error .fault t := by
  rw [processConnect_reads h]
  exact ⟨_, Handler.bind_fault (Handler.uniInfo_fault (mt (processConnect_logged h).mp hl))⟩

lemma processSubscribe_apply {topics : List CStr} (h : (subscribe topics packetId).Fits) :
    CMqttServerLink.processSubscribe (s.awake, .start (subscribe topics packetId).body) =
      .ok () ((subscribe topics packetId).accepted s, .start []) := by
  obtain ⟨ht, h0, h1⟩ := h
  have hts := CMqttServerLink.topics_subscribe "subscribe" ht
  rw [body, CMqttServerLink.processSubscribe, Handler.bind_ok (Handler.short_apply packetId _ _ _ _),
    Handler.bind_ok (CMqttServerLink.parseTopics_apply "subscribe" hts), Handler.link_apply, toNat_emod h0 h1]
  rfl

lemma processUnsubscribe_apply {topics : List CStr} (h : (unsubscribe topics packetId).Fits) :
    CMqttServerLink.processUnsubscribe (s.awake, .start (unsubscribe topics packetId).body) =
      .ok () ((unsubscribe topics packetId).accepted s, .start []) := by
  obtain ⟨ht, h0, h1⟩ := h
  have hts := CMqttServerLink.topics_unsubscribe "unsubscribe" ht
  rw [body, CMqttServerLink.processUnsubscribe, Handler.bind_ok (Handler.short_apply packetId _ _ _ _),
    Handler.bind_ok (CMqttServerLink.parseTopics_apply "unsubscribe" hts), Handler.link_apply, toNat_emod h0 h1]
  rfl

lemma processPublish_apply {topic content : CStr} (h : (publish topic content).Fits) :
    CMqttServerLink.processPublish 0 (s.awake, .start (publish topic content).body) =
      .ok () ((publish topic content).accepted s, .start content) := by
  rw [body, CMqttServerLink.processPublish, if_neg (by simp), Handler.bind_ok (Handler.string_apply h _ _ _ _),
    Handler.bind_ok (Handler.content_apply _ _), Handler.link_apply]
  rfl

lemma msgProcess_apply {m : ClientMsg} (h : m.Fits) (hl : m.Logged) :
    CMqttServerLink.msgProcess m.packetType 0 (s.awake, .start m.body) =
      .ok () (m.accepted s, .start m.unread) := by
  cases m with
  | connect => exact processConnect_apply h hl
  | subscribe => exact processSubscribe_apply h
  | unsubscribe => exact processUnsubscribe_apply h
  | publish => exact processPublish_apply h

lemma msgProcess_fault {m : ClientMsg} (h : m.Fits) (hl : ¬m.Logged) :
    ∃ t, CMqttServerLink.msgProcess m.packetType 0 (s.awake, .start m.body) = .error .fault t := by
  cases m with
  | connect => exact processConnect_fault h hl
  | subscribe => exact absurd trivial hl
  | unsubscribe => exact absurd trivial hl
  | publish => exact absurd trivial hl

end Handlers

lemma packetType_lt (m : ClientMsg) : m.packetType < 16 := by
  cases m <;> simp [packetType]

theorem server_reads_iff (c : CMqttClientLink) (s : CMqttServerLink) (m : ClientMsg) (h : m.Fits)
    (hb : m.body.length < 2 ^ 21) :
    ((m.send c).sent = c.sent ++ [m.packet] ∧
      s.msgParse m.packet = some (1, m.accepted s) ∧
      CMqttServerLink.msgProcess m.packetType 0 (s.awake, .start m.body) =
        .ok () (m.accepted s, .start m.unread)) ↔ m.Logged := by
  constructor
  · rintro ⟨-, hparse, -⟩
    by_contra hl
    obtain ⟨t, hfault⟩ := msgProcess_fault (s := s) h hl
    rw [CMqttServerLink.msgParse, packet, msgParse_fault m.packetType_lt hb hfault] at hparse
    cases hparse
  · intro hl
    have hp := msgProcess_apply (s := s) h hl
    exact ⟨m.send_sent c, msgParse_ok m.packetType_lt hb hp, hp⟩

theorem server_reads_two_topics :
    CMqttServerLink.new.msgParse [128, 9, 0, 7, 0, 1, 97, 0, 0, 0, 0] =
      some (1, (subscribe [[97], []] 7).accepted .new) := by
  have h := (server_reads_iff .new .new (subscribe [[97], []] 7)
    ⟨by
      intro t ht
      fin_cases ht
      · exact ⟨by simp, by simp⟩
      · exact ⟨by simp, by simp⟩, by decide, by decide⟩ (by decide)).mpr trivial
  have hp : (subscribe [[97], []] 7).packet = [128, 9, 0, 7, 0, 1, 97, 0, 0, 0, 0] := by
    simp [packet, pack, MqttMsg.appendLength_small, body, packetType, appendStr, appendShort, MqttMsg.cString]
  exact hp ▸ h.2.1

theorem server_overflows_log :
    (connect (List.replicate 8096 97) [] [] 60).Fits ∧ (connect (List.replicate 8096 97) [] [] 60).body.length < 2 ^ 21 ∧
      CMqttServerLink.new.msgParse (connect (List.replicate 8096 97) [] [] 60).packet = none := by
  have hname : Field (List.replicate 8096 97) :=
    ⟨fun b hb => by rw [List.eq_of_mem_replicate hb]; decide, by rw [List.length_replicate]; decide⟩
  have hnil : Field [] := ⟨by simp, by simp⟩
  have hfits : (connect (List.replicate 8096 97) [] [] 60).Fits := ⟨⟨hname, hnil, hnil⟩, by decide, by decide⟩
  have hlong : ¬(connect (List.replicate 8096 97) [] [] 60).Logged := by
    rw [Logged, List.length_replicate]
    omega
  have hbody : (connect (List.replicate 8096 97) [] [] 60).body.length < 2 ^ 21 := by
    have hlength : (appendStr (List.replicate 8096 97)).length = 8098 := by
      rw [appendStr, MqttMsg.cString_eq hname.noNul, List.length_append, MqttMsg.length_appendShort,
        List.length_replicate]
    rw [body, List.length_append, List.length_append, List.length_append, hlength]
    decide
  obtain ⟨t, hfault⟩ := msgProcess_fault (s := .new) hfits hlong
  exact ⟨hfits, hbody, msgParse_fault (by decide) hbody hfault⟩

end ClientMsg

end Xframe.Facility
