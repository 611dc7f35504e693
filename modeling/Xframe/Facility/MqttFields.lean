import Xframe.Facility.MqttDecode

/-! Where the field parsers of the server's handlers stand in the packet: the calls that a handler makes, one
after the other, and the bytes that each of them reads. -/

namespace Xframe.Facility

open MqttMsg (Cursor shortAt)

open Xframe.Msg (CStr)

inductive FieldKind where
  | byte
  | short
  | string
  deriving DecidableEq

namespace FieldKind

def parse : FieldKind → Cursor → Option (ℕ × Cursor)
  | .byte, c => MqttMsg.parseByte c
  | .short, c => MqttMsg.parseShort c
  | .string, c => (MqttMsg.parseString c).map fun r => (r.1.length, r.2)

def reads : FieldKind → Cursor → ℕ
  | .byte, c => if c.length < 1 then 0 else 1
  | .short, c => if c.length < 2 then 0 else 2
  | .string, c => if c.length < 2 then 0 else if c.length < shortAt c.p then 2 else 2 + shortAt c.p

/-! The same field in the bytes that are left of the body. -/

def number : FieldKind → List UInt8 → ℕ
  | .byte, bs => (bs.headD 0).toNat
  | .short, bs => shortAt bs
  | .string, bs => shortAt bs

def size : FieldKind → List UInt8 → ℕ
  | .byte, _ => 1
  | .short, _ => 2
  | .string, bs => 2 + shortAt bs

def Refused : FieldKind → List UInt8 → Prop
  | .byte, bs => bs.length < 1
  | .short, bs => bs.length < 2
  | .string, bs => bs.length < 2 ∨ bs.length < shortAt bs

section Parse

variable {kind : FieldKind} {bs beyond : List UInt8}

lemma shortAt_within (h : 2 ≤ bs.length) : shortAt (bs ++ beyond) = shortAt bs := by
  match bs, h with
  | _ :: _ :: _, _ => rfl

lemma parse_refused (h : kind.Refused bs) : kind.parse ⟨bs ++ beyond, bs.length⟩ = none := by
  cases kind with
  | byte =>
    have h1 : bs.length < 1 := h
    simp only [parse, MqttMsg.parseByte]
    exact if_pos (by exact_mod_cast h1)
  | short =>
    have h2 : bs.length < 2 := h
    simp only [parse, MqttMsg.parseShort]
    exact if_pos (by exact_mod_cast h2)
  | string =>
    simp only [parse, MqttMsg.parseString]
    by_cases h2 : bs.length < 2
    · rw [if_pos (by exact_mod_cast h2)]
      rfl
    · have hn : bs.length < shortAt bs := h.resolve_left h2
      rw [if_neg (by exact_mod_cast h2), shortAt_within (Nat.not_lt.mp h2), if_pos (by exact_mod_cast hn)]
      rfl

lemma parse_accepted (h : ¬kind.Refused bs) :
    kind.parse ⟨bs ++ beyond, bs.length⟩ =
      some (kind.number bs, ⟨(bs ++ beyond).drop (kind.size bs), bs.length - kind.size bs⟩) := by
  cases kind with
  | byte =>
    match bs, h with
    | [], h => simp [Refused] at h
    | b :: bs, _ =>
      rw [parse, MqttMsg.parseByte, if_neg (by simp)]
      rfl
  | short =>
    have h2 : ¬bs.length < 2 := h
    simp only [parse, MqttMsg.parseShort]
    rw [if_neg (by exact_mod_cast h2), shortAt_within (Nat.not_lt.mp h2)]
    rfl
  | string =>
    obtain ⟨h2, hn⟩ := not_or.mp h
    simp only [parse, MqttMsg.parseString]
    rw [if_neg (by exact_mod_cast h2), shortAt_within (Nat.not_lt.mp h2), if_neg (by exact_mod_cast hn)]
    simp only [Option.map_some, List.takeD_length, List.drop_drop, number, size, Nat.cast_add, Nat.cast_ofNat,
      Option.some.injEq, Prod.mk.injEq, true_and, Cursor.mk.injEq]
    omega

lemma reads_refused (h : kind.Refused bs) : (kind.reads ⟨bs ++ beyond, bs.length⟩ : ℤ) ≤ bs.length := by
  cases kind with
  | byte => simp only [reads]; split <;> omega
  | short => simp only [reads]; split <;> omega
  | string =>
    simp only [reads]
    split
    · omega
    · rename_i h2
      have h2' : ¬bs.length < 2 := by exact_mod_cast h2
      have hn : bs.length < shortAt bs := h.resolve_left h2'
      rw [shortAt_within (Nat.not_lt.mp h2'), if_pos (by exact_mod_cast hn)]
      omega

lemma reads_accepted (h : ¬kind.Refused bs) : kind.reads ⟨bs ++ beyond, bs.length⟩ = kind.size bs := by
  cases kind with
  | byte =>
    have h1 : ¬bs.length < 1 := h
    simp only [reads]
    exact if_neg (by exact_mod_cast h1)
  | short =>
    have h2 : ¬bs.length < 2 := h
    simp only [reads]
    exact if_neg (by exact_mod_cast h2)
  | string =>
    obtain ⟨h2, hn⟩ := not_or.mp h
    simp only [reads]
    rw [if_neg (by exact_mod_cast h2), shortAt_within (Nat.not_lt.mp h2), if_neg (by exact_mod_cast hn)]
    rfl

lemma parse_shorter {c c' : Cursor} {n : ℕ} (h : kind.parse c = some (n, c')) : c'.length < c.length := by
  cases kind with
  | byte => exact MqttMsg.parseByte_shorter h
  | short =>
    rw [parse, MqttMsg.parseShort] at h
    split at h
    · cases h
    · obtain ⟨-, rfl⟩ := Prod.mk.inj (Option.some.inj h)
      exact sub_lt_self _ (by norm_num)
  | string =>
    obtain ⟨⟨str, c1⟩, hp, he⟩ := Option.map_eq_some_iff.mp h
    obtain ⟨-, rfl⟩ := Prod.mk.inj he
    exact MqttMsg.parseString_shorter hp

end Parse

end FieldKind

structure FieldCall where
  kind : FieldKind
  cursor : Cursor
  deriving DecidableEq

inductive Script where
  | stop
  | stuck
  | call (kind : FieldKind) (next : ℕ → Script)
  | more (next : Script)

namespace Script

def calls : Script → Cursor → Option (List FieldCall × Option Cursor)
  | .stop, c => some ([], some c)
  | .stuck, _ => none
  | .call kind next, c =>
    match kind.parse c with
    | none => some ([⟨kind, c⟩], none)
    | some (n, c') => ((next n).calls c').map fun r => (⟨kind, c⟩ :: r.1, r.2)
  | .more next, c => if 0 < c.length then next.calls c else some ([], some c)

/-- Every field that is not refused ends within the body. -/
def Fits : Script → List UInt8 → Prop
  | .stop, _ => True
  | .stuck, _ => True
  | .call kind next, bs =>
    kind.Refused bs ∨ kind.size bs ≤ bs.length ∧ (next (kind.number bs)).Fits (bs.drop (kind.size bs))
  | .more next, bs => bs ≠ [] → next.Fits bs

end Script

def Within (body beyond : List UInt8) (c : Cursor) : Prop :=
  ∃ consumed rest, body = consumed ++ rest ∧ c = ⟨rest ++ beyond, rest.length⟩

structure FieldCall.Inside (body beyond : List UInt8) (call : FieldCall) : Prop where
  before : Within body beyond call.cursor
  reads : (call.kind.reads call.cursor : ℤ) ≤ call.cursor.length
  after : ∀ n c, call.kind.parse call.cursor = some (n, c) → Within body beyond c

section Calls

variable {kind : FieldKind} {body beyond consumed rest : List UInt8}

lemma inside_refused (hbody : body = consumed ++ rest) (h : kind.Refused rest) :
    FieldCall.Inside body beyond ⟨kind, ⟨rest ++ beyond, rest.length⟩⟩ where
  before := ⟨consumed, rest, hbody, rfl⟩
  reads := FieldKind.reads_refused h
  after n c hp := by
    rw [FieldKind.parse_refused h] at hp
    cases hp

lemma inside_accepted_iff (hbody : body = consumed ++ rest) (h : ¬kind.Refused rest) :
    FieldCall.Inside body beyond ⟨kind, ⟨rest ++ beyond, rest.length⟩⟩ ↔ kind.size rest ≤ rest.length := by
  constructor
  · intro hin
    have hreads := hin.reads
    rw [FieldKind.reads_accepted h] at hreads
    exact Int.ofNat_le.mp hreads
  · intro hsize
    refine ⟨⟨consumed, rest, hbody, rfl⟩, ?_, fun n c hp => ?_⟩
    · rw [FieldKind.reads_accepted h]
      exact Int.ofNat_le.mpr hsize
    · rw [FieldKind.parse_accepted h] at hp
      obtain ⟨-, rfl⟩ := Prod.mk.inj (Option.some.inj hp)
      refine ⟨consumed ++ rest.take (kind.size rest), rest.drop (kind.size rest), ?_, ?_⟩
      · rw [List.append_assoc, List.take_append_drop, hbody]
      · rw [List.drop_append_of_le_length hsize, List.length_drop, Nat.cast_sub hsize]

lemma calls_inside_iff (sc : Script) {cs : List FieldCall} {r : Option Cursor} (hbody : body = consumed ++ rest)
    (h : sc.calls ⟨rest ++ beyond, rest.length⟩ = some (cs, r)) :
    (∀ call ∈ cs, call.Inside body beyond) ↔ sc.Fits rest := by
  induction sc generalizing consumed rest cs r with
  | stop =>
    obtain ⟨rfl, rfl⟩ := Prod.mk.inj (Option.some.inj h)
    simp [Script.Fits]
  | stuck => cases h
  | call kind next ih =>
    rw [Script.calls] at h
    rw [Script.Fits]
    by_cases href : kind.Refused rest
    · rw [FieldKind.parse_refused href] at h
      obtain ⟨rfl, rfl⟩ := Prod.mk.inj (Option.some.inj h)
      simp [href, inside_refused hbody href]
    · rw [FieldKind.parse_accepted href] at h
      obtain ⟨⟨cs', r'⟩, hnext, he⟩ := Option.map_eq_some_iff.mp h
      obtain ⟨rfl, rfl⟩ := Prod.mk.inj he
      rw [List.forall_mem_cons, inside_accepted_iff hbody href, or_iff_right href]
      apply and_congr_right
      intro hsize
      rw [List.drop_append_of_le_length hsize, ← Nat.cast_sub hsize, ← List.length_drop] at hnext
      have hsplit : body = (consumed ++ rest.take (kind.size rest)) ++ rest.drop (kind.size rest) := by
        rw [List.append_assoc, List.take_append_drop, hbody]
      exact ih _ hsplit hnext
  | more next ih =>
    rw [Script.calls] at h
    rw [Script.Fits]
    by_cases hrest : rest = []
    · subst hrest
      obtain ⟨rfl, rfl⟩ := Prod.mk.inj (Option.some.inj h)
      simp
    · rw [if_pos (Int.natCast_pos.mpr (List.length_pos_iff.mpr hrest))] at h
      rw [ih hbody h]
      exact ⟨fun hfits _ => hfits, fun hfits => hfits hrest⟩

end Calls

section Handlers

variable {L α : Type}

def left : EStateM.Result Stop (L × Cursor) α → Option Cursor
  | .ok _ s => some s.2
  | .error (.parseError _ _) _ => none
  | .error .fault s => some s.2

def Follows (n : ℕ) (h : Handler L α) (sc : Script) : Prop :=
  ∀ (link : L) (c : Cursor), c.length ≤ n → ∃ cs, sc.calls c = some (cs, left (h (link, c)))

variable {n : ℕ} {h : Handler L α} {next : ℕ → Script} {sc : Script} {msgName paraName : String}

lemma Follows.link (f : L → L) : Follows n (Handler.link f) .stop := fun _ _ _ => ⟨[], rfl⟩

lemma Follows.link_bind {k : Unit → Handler L α} (f : L → L) (hk : Follows n (k ()) sc) :
    Follows n (Handler.link f >>= k) sc := fun link c hc => hk (f link) c hc

lemma Follows.uniInfo_bind {k : Unit → Handler L α} (text : CStr) (hk : Follows n (k ()) .stop) :
    Follows n (Handler.uniInfo text >>= k) .stop := by
  intro link c hc
  cases h : Msg.logged text with
  | some =>
    have hrun : (Handler.uniInfo text >>= k) (link, c) = k () (link, c) := by
      simp only [Bind.bind, EStateM.bind, Handler.uniInfo, h]
    rw [hrun]
    exact hk link c hc
  | none =>
    have hrun : (Handler.uniInfo text >>= k) (link, c) = .error .fault (link, c) := by
      simp only [Bind.bind, EStateM.bind, Handler.uniInfo, h]
    rw [hrun]
    exact ⟨[], rfl⟩

lemma Follows.field {β : Type} {parse : Cursor → Option (β × Cursor)} {kind : FieldKind} (number : β → ℕ)
    {k : β → Handler L α} (hparse : ∀ c, kind.parse c = (parse c).map fun r => (number r.1, r.2))
    (hk : ∀ b, Follows n (k b) (next (number b))) :
    Follows n (Handler.field parse msgName paraName >>= k) (.call kind next) := by
  intro link c hc
  have hkind := hparse c
  cases hp : parse c with
  | none =>
    have hrun : (Handler.field parse msgName paraName >>= k) (link, c) =
        .error (.parseError msgName paraName) (link, c) := by
      simp only [Bind.bind, EStateM.bind, Handler.field, hp]
    rw [hp] at hkind
    exact ⟨_, by rw [Script.calls, hkind, hrun]; rfl⟩
  | some r =>
    obtain ⟨b, c'⟩ := r
    have hrun : (Handler.field parse msgName paraName >>= k) (link, c) = k b (link, c') := by
      simp only [Bind.bind, EStateM.bind, Handler.field, hp]
    rw [hp] at hkind
    have hshort : c'.length < c.length := FieldKind.parse_shorter hkind
    obtain ⟨cs, hcs⟩ := hk b link c' (by omega)
    refine ⟨⟨kind, c⟩ :: cs, ?_⟩
    rw [Script.calls, hkind, hrun]
    simp only [Option.map_some, hcs]

lemma Follows.byte {k : ℕ → Handler L α} (hk : ∀ b, Follows n (k b) (next b)) :
    Follows n (Handler.byte msgName paraName >>= k) (.call .byte next) :=
  Follows.field id (fun c => by cases h : MqttMsg.parseByte c <;> simp [FieldKind.parse, h]) hk

lemma Follows.short {k : ℕ → Handler L α} (hk : ∀ b, Follows n (k b) (next b)) :
    Follows n (Handler.short msgName paraName >>= k) (.call .short next) :=
  Follows.field id (fun c => by cases h : MqttMsg.parseShort c <;> simp [FieldKind.parse, h]) hk

lemma Follows.string {k : CStr → Handler L α} (hk : ∀ str, Follows n (k str) sc) :
    Follows n (Handler.string msgName paraName >>= k) (.call .string fun _ => sc) :=
  Follows.field List.length (fun _ => rfl) hk

end Handlers

namespace Script

def stringIf (flag : Bool) (next : Script) : Script := if flag then .call .string fun _ => next else next

def connect : Script :=
  .call .string fun _ => .call .byte fun _ => .call .byte fun connectFlags => .call .short fun _ =>
    .call .string fun _ => stringIf (connectFlags.testBit 2) <| stringIf (connectFlags.testBit 2) <|
      stringIf (connectFlags.testBit 7) <| stringIf (connectFlags.testBit 6) .stop

def publish (flags : ℕ) : Script := if flags ≠ 0 then .stop else .call .string fun _ => .stop

def topics (qos : Bool) : ℕ → Script
  | 0 => .more .stuck
  | n + 1 => .more (.call .string fun _ => if qos then .call .byte fun _ => topics qos n else topics qos n)

def subscribe (n : ℕ) : Script := .call .short fun _ => topics true n

def unsubscribe (n : ℕ) : Script := .call .short fun _ => topics false n

end Script

lemma Follows.stringIf {L α : Type} {n : ℕ} {sc : Script} {msgName paraName : String} {k : CStr → Handler L α}
    (flag : Bool) (hk : ∀ str, Follows n (k str) sc) :
    Follows n ((Handler.string msgName paraName).when flag >>= k) (.stringIf flag sc) := by
  cases flag with
  | false => exact hk []
  | true => exact Follows.string hk

namespace CMqttServerLink

lemma processConnect_follows (n : ℕ) : Follows n processConnect .connect := by
  apply Follows.string
  intro protocolName
  apply Follows.byte
  intro protocolLevel
  apply Follows.byte
  intro connectFlags
  apply Follows.short
  intro keepAlive
  apply Follows.link_bind
  apply Follows.string
  intro clientName
  apply Follows.link_bind
  apply Follows.stringIf
  intro willTopic
  apply Follows.stringIf
  intro willMessage
  apply Follows.stringIf
  intro userName
  apply Follows.stringIf
  intro password
  apply Follows.uniInfo_bind
  split_ifs
  · apply Follows.link
  · apply Follows.link

lemma processPublish_follows (n flags : ℕ) : Follows n (processPublish flags) (.publish flags) := by
  rw [processPublish, Script.publish]
  split_ifs with h
  · exact fun link c _ => ⟨[], rfl⟩
  · apply Follows.string
    intro topicName link c _
    refine ⟨[], ?_⟩
    by_cases hneg : c.length < 0 <;> simp [Script.calls, Bind.bind, EStateM.bind, Handler.content, hneg, left, Handler.link]
    rfl

section Topics

variable {qos : Bool} {msgName : String} {c c1 : Cursor} {t : CStr}

lemma topics_end (h : ¬0 < c.length) : topics qos msgName c = .ok ([], c) := by
  rw [topics, dif_neg h]

lemma topics_no_topic (hpos : 0 < c.length) (ht : MqttMsg.parseString c = none) :
    topics qos msgName c = .error (.parseError msgName "topic") := by
  rw [topics, dif_pos hpos]
  split
  · rfl
  · simp_all

lemma topics_no_qos (hpos : 0 < c.length) (ht : MqttMsg.parseString c = some (t, c1))
    (hq : MqttMsg.parseByte c1 = none) : topics true msgName c = .error (.parseError msgName "qos") := by
  rw [topics, dif_pos hpos]
  split
  · simp_all
  · rename_i h
    obtain ⟨rfl, rfl⟩ := Prod.mk.inj (Option.some.inj (ht.symm.trans h))
    rw [if_pos rfl]
    split
    · rfl
    · simp_all

lemma toOption_map_cons {r : Except Stop (List CStr × Cursor)} (t : CStr) :
    (r.map fun (ts, c) => (t :: ts, c)).toOption.map Prod.snd = r.toOption.map Prod.snd := by
  cases r <;> rfl

lemma topics_calls (qos : Bool) (msgName : String) {n : ℕ} (hc : c.length ≤ n) :
    ∃ cs, (Script.topics qos n).calls c = some (cs, (topics qos msgName c).toOption.map Prod.snd) := by
  induction n generalizing c with
  | zero =>
    have hpos : ¬0 < c.length := by omega
    exact ⟨[], by rw [Script.topics, Script.calls, if_neg hpos, topics_end hpos]; rfl⟩
  | succ n ih =>
    rw [Script.topics, Script.calls]
    by_cases hpos : 0 < c.length
    swap
    · exact ⟨[], by rw [if_neg hpos, topics_end hpos]; rfl⟩
    rw [if_pos hpos, Script.calls, FieldKind.parse]
    cases ht : MqttMsg.parseString c with
    | none => exact ⟨_, by rw [topics_no_topic hpos ht]; rfl⟩
    | some r =>
      obtain ⟨t, c1⟩ := r
      have h1 := MqttMsg.parseString_shorter ht
      cases qos with
      | false =>
        obtain ⟨cs, hcs⟩ := ih (c := c1) (by omega)
        refine ⟨⟨.string, c⟩ :: cs, ?_⟩
        rw [topics_plain hpos ht, toOption_map_cons]
        simp [hcs]
      | true =>
        cases hq : MqttMsg.parseByte c1 with
        | none =>
          refine ⟨[⟨.string, c⟩, ⟨.byte, c1⟩], ?_⟩
          rw [topics_no_qos hpos ht hq]
          simp [Script.calls, FieldKind.parse, hq, Except.toOption]
        | some r =>
          obtain ⟨b, c2⟩ := r
          have h2 := MqttMsg.parseByte_shorter hq
          obtain ⟨cs, hcs⟩ := ih (c := c2) (by omega)
          refine ⟨⟨.string, c⟩ :: ⟨.byte, c1⟩ :: cs, ?_⟩
          rw [topics_qos hpos ht hq, toOption_map_cons]
          simp [Script.calls, FieldKind.parse, hq, hcs]

lemma map_cons_error {r : Except Stop (List CStr × Cursor)} {e : Stop}
    (h : (r.map fun (ts, c) => (t :: ts, c)) = .error e) : r = .error e := by
  cases r with
  | error e' => exact h
  | ok r => cases h

lemma topics_error {e : Stop} (h : topics qos msgName c = .error e) : e ≠ .fault := by
  fun_induction topics qos msgName c with
  | case1 | case2 =>
    cases h
    simp
  | case3 _ _ _ _ _ _ _ _ _ ih => exact ih (map_cons_error h)
  | case4 _ _ _ _ _ _ ih => exact ih (map_cons_error h)
  | case5 => cases h

lemma parseTopics_follows {n : ℕ} (f : List CStr → CMqttServerLink → CMqttServerLink) :
    Follows n (parseTopics qos msgName >>= fun ts => Handler.link (f ts)) (.topics qos n) := by
  intro link c hc
  obtain ⟨cs, hcs⟩ := topics_calls qos msgName hc
  refine ⟨cs, hcs.trans ?_⟩
  simp only [Bind.bind, EStateM.bind, parseTopics]
  cases h : topics qos msgName c with
  | error e =>
    cases e with
    | parseError msgName paraName => rfl
    | fault => exact absurd rfl (topics_error h)
  | ok r => rfl

end Topics

lemma processSubscribe_follows (n : ℕ) : Follows n processSubscribe (.subscribe n) := by
  apply Follows.short
  intro packetId
  exact parseTopics_follows fun topic link =>
    link.invokeService "subscribe" 8 (.subscribe link.mClientName packetId topic)

lemma processUnsubscribe_follows (n : ℕ) : Follows n processUnsubscribe (.unsubscribe n) := by
  apply Follows.short
  intro packetId
  exact parseTopics_follows fun topic link =>
    link.invokeService "unsubscribe" 10 (.unsubscribe link.mClientName packetId topic)

end CMqttServerLink

inductive FieldPacket where
  | connect
  | publish (flags : ℕ)
  | subscribe
  | unsubscribe

namespace FieldPacket

def process : FieldPacket → Handler CMqttServerLink Unit
  | .connect => CMqttServerLink.processConnect
  | .publish flags => CMqttServerLink.processPublish flags
  | .subscribe => CMqttServerLink.processSubscribe
  | .unsubscribe => CMqttServerLink.processUnsubscribe

def script (n : ℕ) : FieldPacket → Script
  | .connect => .connect
  | .publish flags => .publish flags
  | .subscribe => .subscribe n
  | .unsubscribe => .unsubscribe n

lemma follows (packet : FieldPacket) (n : ℕ) : Follows n packet.process (packet.script n) := by
  cases packet with
  | connect => exact CMqttServerLink.processConnect_follows n
  | publish flags => exact CMqttServerLink.processPublish_follows n flags
  | subscribe => exact CMqttServerLink.processSubscribe_follows n
  | unsubscribe => exact CMqttServerLink.processUnsubscribe_follows n

theorem fields_inside_iff (packet : FieldPacket) (link : CMqttServerLink) (body beyond : List UInt8) :
    ∃ cs, (packet.script body.length).calls ⟨body ++ beyond, body.length⟩ =
        some (cs, left (packet.process (link, ⟨body ++ beyond, body.length⟩))) ∧
      ((∀ call ∈ cs, call.Inside body beyond) ↔ (packet.script body.length).Fits body) := by
  obtain ⟨cs, hcs⟩ := packet.follows body.length link ⟨body ++ beyond, body.length⟩ le_rfl
  exact ⟨cs, hcs, calls_inside_iff _ (List.nil_append body).symm hcs⟩

theorem fields_inside_fails :
    ¬∀ (packet : FieldPacket) (body beyond : List UInt8) (cs : List FieldCall) (r : Option Cursor),
      (packet.script body.length).calls ⟨body ++ beyond, body.length⟩ = some (cs, r) →
        ∀ call ∈ cs, call.Inside body beyond := by
  intro h
  have hin := h (.publish 0) [0, 2] [] [⟨.string, ⟨[0, 2], 2⟩⟩] (some ⟨[], -2⟩) (by decide) _ (List.mem_singleton_self _)
  have hreads := hin.reads
  revert hreads
  decide

end FieldPacket

end Xframe.Facility
