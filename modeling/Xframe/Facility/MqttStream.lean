import Xframe.Facility.MqttLink

/-! Feeding a stream of packed control packets to a link, cut into chunks: when the packets come out
as they went in. -/

namespace Xframe.Facility

open Xframe.Lib

structure Packet where
  packetType : Fin 16
  flags : Fin 16
  body : List UInt8
  small : body.length < 2 ^ 21

namespace Packet

def bytes (p : Packet) : List UInt8 := MqttMsg.pack p.packetType p.body p.flags

def call (p : Packet) : Process := ⟨p.packetType, p.flags, p.body⟩

lemma bytes_ne_nil (p : Packet) : p.bytes ≠ [] := List.cons_ne_nil _ _

lemma head_toNat (p : Packet) :
    (UInt8.ofNat (p.packetType * 16 + p.flags)).toNat = p.packetType * 16 + p.flags := by
  have h1 := p.packetType.isLt
  have h2 := p.flags.isLt
  rw [UInt8.toNat_ofNat']
  omega

end Packet

namespace MqttLink

lemma turnAt_of_le {b : UInt8} {n : ℕ} {p : List UInt8} (h : n ≤ p.length) :
    turnAt b (n, p, (p.length : ℕ)) = .packet ⟨b.toNat / 16, b.toNat % 16, p.take n⟩ (p.drop n) := by
  rw [turnAt, if_neg (by omega), if_neg (by omega), if_neg (by omega), Int.toNat_natCast]

lemma turnAt_of_lt {b : UInt8} {n : ℕ} {p : List UInt8} {m : ℤ} (h : m < n) : turnAt b (n, p, m) = .wait := by
  rw [turnAt, if_neg (by omega), if_neg (by omega), if_pos h]

lemma turn_packet (p : Packet) (rest : List UInt8) :
    turn (p.bytes ++ rest) = some (.packet p.call rest) := by
  have h1 := p.packetType.isLt
  have h2 := p.flags.isLt
  have hd : (p.packetType.val * 16 + p.flags) / 16 = p.packetType := by omega
  have hm : (p.packetType.val * 16 + p.flags) % 16 = p.flags := by omega
  have hlen := List.length_pos_iff.mpr (MqttMsg.appendLength_ne_nil p.body.length)
  rw [Packet.bytes, MqttMsg.pack, List.cons_append, List.append_assoc, turn,
    if_neg (by simp only [List.length_cons, List.length_append]; omega), List.tail_cons, List.headD_cons,
    MqttMsg.parseLength_append p.small, Option.map_some, turnAt_of_le (by simp), p.head_toNat, hd, hm,
    List.take_left, List.drop_left]
  rfl

lemma turn_unfinished {p : Packet} {r : List UInt8} (hr : r <+: p.bytes)
    (hlt : r.length < p.bytes.length) : turn r = some (if r.length < 2 then .short else .wait) := by
  rw [turn]
  split
  · rfl
  obtain ⟨b, r, rfl⟩ : ∃ b s, r = b :: s := List.exists_cons_of_length_pos (by omega)
  rw [Packet.bytes, MqttMsg.pack] at hr hlt
  obtain ⟨rfl, hr'⟩ := List.cons_prefix_cons.mp hr
  rw [List.tail_cons]
  by_cases hn : r.length < (MqttMsg.appendLength p.body.length).length
  · have hp : r <+: MqttMsg.appendLength p.body.length :=
      List.prefix_of_prefix_length_le hr' ⟨_, rfl⟩ hn.le
    obtain ⟨w, hw⟩ := MqttMsg.parseLength_partial p.small hp hn
    rw [hw, Option.map_some, turnAt_of_lt (by omega)]
  · obtain ⟨s, rfl⟩ : MqttMsg.appendLength p.body.length <+: r :=
      List.prefix_of_prefix_length_le ⟨_, rfl⟩ hr' (by omega)
    have hs : s.length < p.body.length := by
      simp only [List.length_cons, List.length_append] at hlt
      omega
    rw [MqttMsg.parseLength_append p.small, Option.map_some, turnAt_of_lt (by omega)]

def exitOf (ds : List Packet) (r : List UInt8) : Exit :=
  if r = [] ∧ ds ≠ [] then .remain [] else if r.length < 2 then .short else .remain r

section Packets

variable {ds us : List Packet} {r : List UInt8}

lemma turn_rest (hr : Unfinished r (us.map Packet.bytes)) :
    turn r = some (if r.length < 2 then .short else .wait) := by
  cases us with
  | nil =>
    obtain rfl : r = [] := hr
    rfl
  | cons p us => exact turn_unfinished hr.2 hr.1

lemma parseLoop_packets (hr : Unfinished r (us.map Packet.bytes)) {fuel : ℕ} (hf : ds.length < fuel) :
    parseLoop fuel ((ds.map Packet.bytes).flatten ++ r) = some (ds.map Packet.call, exitOf ds r) := by
  induction ds generalizing fuel with
  | nil =>
    obtain ⟨fuel, rfl⟩ : ∃ f, fuel = f + 1 := ⟨fuel - 1, by omega⟩
    rw [parseLoop]
    simp only [List.map_nil, List.flatten_nil, List.nil_append, turn_rest hr, exitOf]
    split <;> simp
  | cons p ds ih =>
    obtain ⟨fuel, rfl⟩ : ∃ f, fuel = f + 1 := ⟨fuel - 1, by omega⟩
    rw [parseLoop, List.map_cons, List.flatten_cons, List.append_assoc, turn_packet]
    simp only [Option.bind_eq_bind, Option.bind_some]
    split
    · rename_i hnil
      obtain ⟨hds, rfl⟩ := List.append_eq_nil_iff.mp hnil
      cases ds with
      | nil => rfl
      | cons q ds => exact absurd (List.append_eq_nil_iff.mp hds).1 q.bytes_ne_nil
    · rename_i hnil
      have hexit : exitOf (p :: ds) r = exitOf ds r := by
        by_cases h : r = []
        · have : ds ≠ [] := by
            rintro rfl
            exact hnil (by simp [h])
          simp [exitOf, h, this]
        · simp [exitOf, h]
      rw [ih (by rw [List.length_cons] at hf; omega), hexit]
      rfl

lemma flatten_length_le (ds : List Packet) : ds.length ≤ (ds.map Packet.bytes).flatten.length := by
  induction ds with
  | nil => rfl
  | cons p ds ih =>
    have := List.length_pos_iff.mpr p.bytes_ne_nil
    simp only [List.map_cons, List.flatten_cons, List.length_append, List.length_cons] at ih ⊢
    omega

lemma trim_eq_iff (hr : Unfinished r (us.map Packet.bytes)) :
    trim ((ds.map Packet.bytes).flatten ++ r) (exitOf ds r) = r ↔ ds = [] ∨ r = [] := by
  by_cases hds : ds = []
  · subst hds
    have : trim r (exitOf [] r) = r := by
      rw [exitOf, if_neg (by simp)]
      split
      · rfl
      · simp only [trim, lt_irrefl, if_false]
        rw [if_pos (by omega)]
    simpa using this
  by_cases h : r = []
  · simp [h, hds, exitOf, trim]
  obtain ⟨p, ds, rfl⟩ := List.exists_cons_of_ne_nil hds
  have hlen := flatten_length_le (p :: ds)
  rw [List.length_cons] at hlen
  simp only [hds, h, or_self, iff_false, exitOf, false_and, if_false]
  intro he
  split at he
  · have := congrArg List.length he
    simp only [trim, List.length_append] at this
    omega
  · rename_i h2
    have hlt : r.length < (((p :: ds).map Packet.bytes).flatten ++ r).length := by
      rw [List.length_append]
      omega
    have hcut : cut (((p :: ds).map Packet.bytes).flatten ++ r) (-r.length) =
        ((p :: ds).map Packet.bytes).flatten := by
      rw [cut, if_neg (by omega), if_neg (by omega)]
      have : (((((p :: ds).map Packet.bytes).flatten ++ r).length : ℤ) + -r.length).toNat =
          ((p :: ds).map Packet.bytes).flatten.length := by
        rw [List.length_append]
        omega
      rw [this, List.take_left]
    rw [trim, if_pos (by omega), if_pos hlt, hcut] at he
    have h1 := turn_packet p (ds.map Packet.bytes).flatten
    have h3 := turn_rest hr
    rw [← List.flatten_cons, ← List.map_cons, he, h3, if_neg h2] at h1
    simp at h1

lemma msgParseStream_packets {link : MqttLink} {c : List UInt8}
    (hb : link.mBufferMsg ++ c = (ds.map Packet.bytes).flatten ++ r)
    (hr : Unfinished r (us.map Packet.bytes)) :
    link.msgParseStream c = some ((exitOf ds r).code (ds.map Packet.call),
      ⟨0, trim ((ds.map Packet.bytes).flatten ++ r) (exitOf ds r), link.processed ++ ds.map Packet.call⟩) := by
  have hf : ds.length < ((ds.map Packet.bytes).flatten ++ r).length + 1 := by
    have := flatten_length_le ds
    rw [List.length_append]
    omega
  rw [msgParseStream]
  simp only [hb, parseLoop_packets hr hf]
  rfl

end Packets

def Exact (ps : List Packet) (n : ℕ) (link : MqttLink) : Prop :=
  link.processed = (ps.take (arrived (ps.map Packet.bytes) n).1).map Packet.call ∧
    link.mBufferMsg = (arrived (ps.map Packet.bytes) n).2

/-- A chunk that completes a packet of the stream ends where a packet ends; `n` bytes precede it. -/
def EndsClean (ps : List Packet) (n : ℕ) (c : List UInt8) : Prop :=
  (arrived (ps.map Packet.bytes) n).1 < (arrived (ps.map Packet.bytes) (n + c.length)).1 →
    (arrived (ps.map Packet.bytes) (n + c.length)).2 = []

def Clean (ps : List Packet) (cs : List (List UInt8)) : Prop :=
  ∀ pre c post, cs = pre ++ c :: post → EndsClean ps pre.flatten.length c

lemma bytes_ne_nil (ps : List Packet) : ∀ f ∈ ps.map Packet.bytes, f ≠ [] := by
  simp [Packet.bytes_ne_nil]

lemma exists_arrived_packets {ps : List Packet} {s t : List UInt8}
    (h : s ++ t = (ps.map Packet.bytes).flatten) :
    ∃ ds us r, ps = ds ++ us ∧ s = (ds.map Packet.bytes).flatten ++ r ∧
      Unfinished r (us.map Packet.bytes) := by
  obtain ⟨fs, gs, r, hps, hs, hr⟩ := exists_arrived (bytes_ne_nil ps) h
  obtain ⟨ds, us, rfl, rfl, rfl⟩ := List.map_eq_append_iff.mp hps
  exact ⟨ds, us, r, rfl, hs, hr⟩

lemma arrived_packets (ds : List Packet) {us : List Packet} {r : List UInt8} (hr : Unfinished r (us.map Packet.bytes)) :
    arrived ((ds ++ us).map Packet.bytes) ((ds.map Packet.bytes).flatten ++ r).length =
      (ds.length, r) := by
  rw [List.map_append, List.length_append, arrived_eq hr, List.length_map]

lemma msgParseStream_exact {ps : List Packet} {s c t : List UInt8} {link : MqttLink}
    (h : s ++ (c ++ t) = (ps.map Packet.bytes).flatten) (hl : Exact ps s.length link) :
    Returns (link.msgParseStream c) fun (_, link') =>
      Exact ps (s.length + c.length) link' ↔ EndsClean ps s.length c := by
  obtain ⟨ds, us, r, rfl, rfl, hr⟩ := exists_arrived_packets h
  have ha := arrived_packets ds hr
  rw [Exact, ha, List.take_left] at hl
  rw [List.map_append, List.flatten_append, List.append_assoc, List.append_cancel_left_eq,
    ← List.append_assoc] at h
  obtain ⟨qs, vs, r', rfl, hrc, hr'⟩ := exists_arrived_packets h
  have hb : link.mBufferMsg ++ c = (qs.map Packet.bytes).flatten ++ r' := by rw [hl.2, hrc]
  have hn : ((ds.map Packet.bytes).flatten ++ r).length + c.length =
      (((ds ++ qs).map Packet.bytes).flatten ++ r').length := by
    rw [← List.length_append, List.append_assoc, hrc, List.map_append, List.flatten_append,
      List.append_assoc]
  have ha' := arrived_packets (ds ++ qs) hr'
  rw [List.append_assoc, ← hn] at ha'
  rw [msgParseStream_packets hb hr', returns_some]
  dsimp only [Exact]
  rw [EndsClean, ha, ha', trim_eq_iff hr', hl.1, ← List.append_assoc, List.take_left, List.map_append]
  simp only [true_and, List.length_append]
  constructor
  · rintro (rfl | h) hlt
    · simp at hlt
    · exact h
  · intro h
    by_cases hq : qs = []
    · exact Or.inl hq
    · exact Or.inr (h (by have := List.length_pos_iff.mpr hq; omega))

lemma feed_snoc (link : MqttLink) (cs : List (List UInt8)) (c : List UInt8) :
    link.feed (cs ++ [c]) = (link.feed cs).bind fun l => (l.msgParseStream c).map Prod.snd := by
  induction cs generalizing link with
  | nil =>
    simp only [List.nil_append, feed, Option.bind_some]
    cases link.msgParseStream c <;> rfl
  | cons d cs ih =>
    simp only [List.cons_append, feed]
    cases link.msgParseStream d with
    | none => rfl
    | some x => exact ih x.2

lemma exact_new (ps : List Packet) : Exact ps 0 new := by
  have ha : arrived (ps.map Packet.bytes) 0 = (0, []) :=
    arrived_packets [] (Unfinished.nil (bytes_ne_nil ps))
  rw [Exact, ha]
  exact ⟨rfl, rfl⟩

lemma exact_all {ps : List Packet} {link : MqttLink}
    (h : Exact ps (ps.map Packet.bytes).flatten.length link) :
    link.processed = ps.map Packet.call ∧ link.mBufferMsg = [] := by
  have hr : Unfinished ([] : List UInt8) (([] : List Packet).map Packet.bytes) := rfl
  have ha := arrived_packets ps hr
  rw [List.append_nil, List.append_nil] at ha
  rwa [Exact, ha, List.take_length] at h

section Feed

variable {ps : List Packet} {cs pre post : List (List UInt8)} {c : List UInt8} {link : MqttLink}

lemma feed_step (h : cs.flatten = (ps.map Packet.bytes).flatten) (hcs : cs = pre ++ c :: post)
    (hl : new.feed pre = some link) (hex : Exact ps pre.flatten.length link) :
    Returns (new.feed (pre ++ [c])) fun link' =>
      Exact ps (pre ++ [c]).flatten.length link' ↔ EndsClean ps pre.flatten.length c := by
  have hs : pre.flatten ++ (c ++ post.flatten) = (ps.map Packet.bytes).flatten := by
    rw [← h, hcs]
    simp
  obtain ⟨⟨_, link'⟩, hm, hiff⟩ := msgParseStream_exact hs hex
  refine ⟨link', by rw [feed_snoc, hl, Option.bind_some, hm]; rfl, ?_⟩
  rw [List.flatten_append, List.length_append, List.flatten_singleton]
  exact hiff

lemma feed_exact (h : cs.flatten = (ps.map Packet.bytes).flatten) (hc : Clean ps cs)
    (hcs : cs = pre ++ post) : Returns (new.feed pre) (Exact ps pre.flatten.length) := by
  induction pre using List.reverseRecOn generalizing post with
  | nil => exact ⟨new, rfl, exact_new ps⟩
  | append_singleton pre c ih =>
    rw [List.append_assoc] at hcs
    obtain ⟨link, hl, hex⟩ := ih hcs
    exact (feed_step h hcs hl hex).mono fun _ hiff => hiff.mpr (hc pre c post hcs)

end Feed

theorem stream_exact_iff {ps : List Packet} {cs : List (List UInt8)}
    (h : cs.flatten = (ps.map Packet.bytes).flatten) :
    (Clean ps cs ↔ ∀ pre post, cs = pre ++ post →
      ∃ link, new.feed pre = some link ∧ Exact ps pre.flatten.length link) ∧
    (Clean ps cs → ∃ link, new.feed cs = some link ∧ link.processed = ps.map Packet.call ∧
      link.mBufferMsg = []) := by
  refine ⟨⟨fun hc pre post hcs => feed_exact h hc hcs, ?_⟩, ?_⟩
  · intro hall pre c post hcs
    obtain ⟨link, hl, hex⟩ := hall pre _ hcs
    obtain ⟨link', hl', hex'⟩ := hall (pre ++ [c]) post (by rw [hcs]; simp)
    obtain ⟨link'', hl'', hiff⟩ := feed_step h hcs hl hex
    obtain rfl : link'' = link' := Option.some.inj (hl''.symm.trans hl')
    exact hiff.mp hex'
  · intro hc
    obtain ⟨link, hl, hex⟩ := feed_exact h hc (List.append_nil cs).symm
    rw [h] at hex
    exact ⟨link, hl, exact_all hex⟩

-- The last state alone does not tell: four equal packets hide that one was lost and one repeated.
example : ∃ p : Packet, ∃ cs : List (List UInt8), cs.flatten = (List.replicate 4 p.bytes).flatten ∧
    ¬Clean (List.replicate 4 p) cs ∧ new.feed cs = some ⟨0, [], List.replicate 4 p.call⟩ := by
  have hb : Packet.bytes ⟨3, 0, [48, 127, 0], by simp⟩ = [48, 3, 48, 127, 0] := by
    simp [Packet.bytes, MqttMsg.pack, MqttMsg.appendLength_small]
  refine ⟨⟨3, 0, [48, 127, 0], by simp⟩, [[48, 3, 48, 127, 0, 48, 3], [48, 127, 0, 48, 3, 48, 127, 0],
    [48, 3, 48, 127, 0]], ?_, ?_, by decide⟩
  · rw [hb]
    decide
  · intro hc
    have := hc [] _ _ rfl
    simp [EndsClean, arrived, hb] at this

def publish (b : UInt8) : Packet := ⟨3, 0, [b], by simp⟩

lemma publish_bytes (b : UInt8) : (publish b).bytes = [48, 1, b] := by
  simp [publish, Packet.bytes, MqttMsg.pack, MqttMsg.appendLength_small]

theorem stream_exact_two : ∃ link, new.feed [[48, 1, 65], [48, 1], [66]] = some link ∧
    link.processed = [publish 65, publish 66].map Packet.call ∧ link.mBufferMsg = [] := by
  have h : [[48, 1, 65], [48, 1], [66]].flatten = ([publish 65, publish 66].map Packet.bytes).flatten := by
    simp [publish_bytes]
  refine (stream_exact_iff h).2 ?_
  intro pre c post hcs
  rcases pre with _ | ⟨a, _ | ⟨b, _ | ⟨d, pre⟩⟩⟩
  · obtain ⟨rfl, rfl⟩ := List.cons.inj hcs
    simp [EndsClean, arrived, publish_bytes]
  · simp at hcs
    obtain ⟨rfl, rfl, rfl⟩ := hcs
    simp [EndsClean, arrived, publish_bytes]
  · simp at hcs
    obtain ⟨rfl, rfl, rfl, rfl⟩ := hcs
    simp [EndsClean, arrived, publish_bytes]
  · simp at hcs

theorem split_packet_lost : ¬∀ (ps : List Packet) (cs : List (List UInt8)), (∀ c ∈ cs, c ≠ []) →
    cs.flatten = (ps.map Packet.bytes).flatten → ∃ link, new.feed cs = some link ∧
      link.processed = ps.map Packet.call ∧ link.mBufferMsg = [] := by
  intro h
  obtain ⟨link, hf, hp, -⟩ := h [publish 65, publish 66] [[48, 1, 65, 48, 1], [66]] (by decide)
    (by simp [publish_bytes])
  have hrun : new.feed [[48, 1, 65, 48, 1], [66]] =
      some ⟨0, [48, 1, 65, 66], [⟨3, 0, [65]⟩, ⟨3, 0, [65]⟩]⟩ := by decide
  rw [hrun] at hf
  cases hf
  exact absurd hp (by decide)

end MqttLink

end Xframe.Facility
