import Xframe.Lib.Base128
import Xframe.Facility.MqttPackets

/-! The remaining length of a packet: `appendLength` against `parseLength`, and the datagrams that
`msgParse` hands on. -/

namespace Xframe.Facility

open Xframe.Lib Xframe.Lib.Base128

namespace MqttMsg

lemma parseLength_beyond {ms : List UInt8} (hms : ∀ b ∈ ms, 128 ≤ b.toNat) (h2 : ms.length ≤ 2) (rest : List UInt8) :
    ∃ r p, parseLength (ms ++ rest) (ms.length : ℕ) = some (r, p, -1) ∧ r ≠ -1 := by
  obtain ⟨v, hv⟩ := parseLength_over hms h2 rest
  obtain ⟨f, hf⟩ : ∃ f, 4 - ms.length = f + 2 := ⟨2 - ms.length, by omega⟩
  rw [hv, hf]
  simp only [parseLengthLoop, lt_irrefl, if_false, if_neg (multiplier_at h2)]
  split
  · exact ⟨-2, rest.tail, by simp, by omega⟩
  · exact ⟨_, rest.tail, rfl, by omega⟩

section Codec

def Decodes (n : ℕ) : Prop := ∀ rest (l : ℤ), 0 ≤ l →
  parseLength (appendLength n ++ rest) (l + (appendLength n).length) = some ((n : ℤ), rest, l)

def Complete (content : List UInt8) (length : ℤ) : Prop :=
  ∃ field rest, content = field ++ rest ∧ Group field ∧ (field.length : ℤ) ≤ length

def Bounded (content : List UInt8) (length : ℤ) : Prop :=
  ∃ r p l, parseLength content length = some (r, p, l) ∧ length - l ≤ max length 0 ∧
    (¬Complete content length → r = -2)

lemma decodes_iff (n : ℕ) : Decodes n ↔ n < 2 ^ 21 := by
  constructor
  · intro h
    by_contra hn
    obtain ⟨p, m, -, hlong⟩ := parseLength_long (Nat.not_lt.mp hn) []
    have hdec := h [] 0 le_rfl
    simp only [List.append_nil, zero_add] at hdec hlong
    rw [hlong] at hdec
    simp at hdec
  · intro hn rest l hl
    exact parseLength_behind hn rest hl

lemma parseLengthLoop_short {f m v : ℕ} {content p : List UInt8} {length l : ℤ} (h0 : -1 ≤ length)
    (h : parseLengthLoop f content length m v = some (-2, p, l)) : l = -1 := by
  induction f generalizing content length m v with
  | zero => cases h
  | succ f ih =>
    rw [parseLengthLoop] at h
    dsimp only at h
    split_ifs at h with h1 h2 h3
    · simp only [Option.some.injEq, Prod.mk.injEq] at h
      omega
    · simp at h
    · exact ih (by omega) h
    · simp only [Option.some.injEq, Prod.mk.injEq] at h
      omega

lemma Complete.bounded {content : List UInt8} {length : ℤ} (h : Complete content length) : Bounded content length := by
  have hc := h
  obtain ⟨field, rest, rfl, hg, hle⟩ := h
  by_cases h3 : field.length ≤ 3
  · have hp := parseLength_group hg h3 (l := length - field.length) (by omega) rest
    rw [sub_add_cancel] at hp
    exact ⟨_, _, _, hp, by omega, fun hn => absurd hc hn⟩
  · match field, hg with
    | a :: b :: c :: field, .more ha (.more hb (.more hc' _)) =>
      simp only [List.length_cons, Nat.cast_succ] at hle h3
      exact ⟨_, _, _, parseLength_refused ha hb hc' (by omega) (field ++ rest), by omega, fun hn => absurd hc hn⟩
    | [a, b, c], _ => simp at h3
    | [a, b], _ => simp at h3
    | [a], _ => simp at h3

lemma bounded_iff (content : List UInt8) (length : ℤ) :
    Bounded content length ↔ length < 0 ∨ Complete content length := by
  constructor
  · rintro ⟨r, p, l, h, hread, hshort⟩
    by_contra hnot
    rw [not_or, not_lt] at hnot
    obtain rfl := hshort hnot.2
    have hl := parseLengthLoop_short (by omega) h
    omega
  · rintro (hneg | hc)
    · refine ⟨-2, content, length, ?_, by omega, fun _ => rfl⟩
      rw [parseLength, parseLengthLoop, if_pos hneg]
    · exact hc.bounded

theorem length_codec_iff (n : ℕ) (content : List UInt8) (length : ℤ) :
    (Decodes n ↔ n < 2 ^ 21) ∧ (Bounded content length ↔ length < 0 ∨ Complete content length) :=
  ⟨decodes_iff n, bounded_iff content length⟩

theorem length_codec_fails : ¬Decodes 2097152 ∧ ¬Bounded [0x80, 0x80] 1 := by
  refine ⟨fun h => ?_, ?_⟩
  · have hn := (decodes_iff _).mp h
    norm_num at hn
  · rintro ⟨r, p, l, h, hread, -⟩
    have he : parseLength [0x80, 0x80] 1 = some (-2, [], -1) := rfl
    rw [he] at h
    simp only [Option.some.injEq, Prod.mk.injEq] at h
    omega

end Codec

end MqttMsg

namespace Datagram

open MqttMsg (Cursor parseLength parseLength_group parseLength_refused parseLength_beyond)

def Packet (content : List UInt8) (header : UInt8) (field body : List UInt8) : Prop :=
  content = header :: (field ++ body) ∧ Group field ∧ field.length ≤ 4 ∧ value field = body.length

def Exact (content : List UInt8) : Prop :=
  ∀ (L : Type) (awake : L → L) (msgProcess : ℕ → ℕ → Handler L Unit) (link : L) (beyond : List UInt8),
    (∀ header field body, Packet content header field body →
      msgParse awake msgProcess link ⟨content ++ beyond, content.length⟩ =
        ((msgProcess (header.toNat / 16) (header.toNat % 16)).run (awake link)
          ⟨body ++ beyond, body.length⟩).map fun link => (1, link)) ∧
    ((¬∃ header field body, Packet content header field body) →
      msgParse awake msgProcess link ⟨content ++ beyond, content.length⟩ = some (-1, awake link))

def Bare (content : List UInt8) : Prop :=
  ∃ header a b c : UInt8, content = [header, a, b, c] ∧ 128 ≤ a.toNat ∧ 128 ≤ b.toNat ∧ 128 ≤ c.toNat

section Parsing

variable {L : Type} {awake : L → L} {msgProcess : ℕ → ℕ → Handler L Unit} {link : L} {header : UInt8}
  {tail beyond p : List UInt8} {r l : ℤ}

lemma msgParse_short {content : List UInt8} (h : content.length < 2) :
    msgParse awake msgProcess link ⟨content ++ beyond, content.length⟩ = some (-1, awake link) := by
  have hshort : (content.length : ℤ) < 2 := by exact_mod_cast h
  exact if_pos hshort

lemma msgParse_long (h : 1 ≤ tail.length) (hp : parseLength (tail ++ beyond) tail.length = some (r, p, l)) :
    msgParse awake msgProcess link ⟨header :: tail ++ beyond, (header :: tail).length⟩ =
      if r ≠ l then some (-1, awake link)
      else ((msgProcess (header.toNat / 16) (header.toNat % 16)).run (awake link) ⟨p, r⟩).map fun link => (1, link) := by
  rw [msgParse, if_neg (by simp only [List.length_cons]; omega)]
  simp only [List.cons_append, List.tail_cons, List.headD_cons, List.length_cons, Nat.cast_succ, add_sub_cancel_right,
    hp, Option.bind_eq_bind, Option.bind_some]
  split_ifs with hne
  · rfl
  · cases (msgProcess (header.toNat / 16) (header.toNat % 16)).run (awake link) ⟨p, r⟩ <;> rfl

end Parsing

lemma Packet.exact {header : UInt8} {field body : List UInt8} (hg : Group field) (h3 : field.length ≤ 3)
    {L : Type} (awake : L → L) (msgProcess : ℕ → ℕ → Handler L Unit) (link : L) (beyond : List UInt8) :
    msgParse awake msgProcess link ⟨header :: (field ++ body) ++ beyond, (header :: (field ++ body)).length⟩ =
      if value field = body.length then
        ((msgProcess (header.toNat / 16) (header.toNat % 16)).run (awake link)
          ⟨body ++ beyond, body.length⟩).map fun link => (1, link)
      else some (-1, awake link) := by
  have hpos := hg.pos
  have hp := parseLength_group hg h3 (Int.natCast_nonneg body.length) (body ++ beyond)
  have hlen : (body.length : ℤ) + field.length = (field ++ body).length := by
    rw [List.length_append, Nat.cast_add, add_comm]
  rw [← List.append_assoc, hlen] at hp
  rw [msgParse_long (by simp only [List.length_append]; omega) hp]
  by_cases hv : value field = body.length
  · rw [if_neg (by simpa using hv), if_pos hv, hv]
  · rw [if_pos (by exact_mod_cast hv), if_neg hv]

lemma msgParse_refused {header : UInt8} {tail beyond : List UInt8} {r l : ℤ} {p : List UInt8} (h : 1 ≤ tail.length)
    (hp : parseLength (tail ++ beyond) tail.length = some (r, p, l)) (hne : r ≠ l) {L : Type} (awake : L → L)
    (msgProcess : ℕ → ℕ → Handler L Unit) (link : L) :
    msgParse awake msgProcess link ⟨header :: tail ++ beyond, (header :: tail).length⟩ = some (-1, awake link) := by
  rw [msgParse_long h hp]
  exact if_pos hne

lemma exact_of_refused {header : UInt8} {tail : List UInt8} (h : 1 ≤ tail.length)
    (hno : ¬∃ header' field body, Packet (header :: tail) header' field body)
    (hp : ∀ beyond, ∃ r p l, parseLength (tail ++ beyond) tail.length = some (r, p, l) ∧ r ≠ l) :
    Exact (header :: tail) := by
  intro L awake msgProcess link beyond
  obtain ⟨r, p, l, hp, hne⟩ := hp beyond
  exact ⟨fun header' field body hpacket => absurd ⟨header', field, body, hpacket⟩ hno,
    fun _ => msgParse_refused h hp hne awake msgProcess link⟩

lemma Packet.unique {header header' : UInt8} {field body field' body' : List UInt8} (hg : Group field)
    (h : Packet (header :: (field ++ body)) header' field' body') :
    header' = header ∧ field' = field ∧ body' = body := by
  obtain ⟨he, hg', -, -⟩ := h
  obtain ⟨rfl, ht⟩ := List.cons.inj he
  obtain ⟨rfl, rfl⟩ := hg.unique hg' ht
  exact ⟨rfl, rfl, rfl⟩

lemma exact_of_three {header : UInt8} {field body : List UInt8} (hg : Group field) (h3 : field.length ≤ 3) :
    Exact (header :: (field ++ body)) := by
  intro L awake msgProcess link beyond
  rw [Packet.exact hg h3]
  constructor
  · rintro header' field' body' hp
    obtain ⟨rfl, rfl, rfl⟩ := hp.unique hg
    exact if_pos hp.2.2.2
  · intro hno
    exact if_neg fun hv => hno ⟨header, field, body, rfl, hg, by omega, hv⟩

lemma msgParse_bare {header a b c : UInt8} (ha : 128 ≤ a.toNat) (hb : 128 ≤ b.toNat) (hc : 128 ≤ c.toNat) {L : Type}
    (awake : L → L) (msgProcess : ℕ → ℕ → Handler L Unit) (link : L) (beyond : List UInt8) :
    msgParse awake msgProcess link ⟨[header, a, b, c] ++ beyond, [header, a, b, c].length⟩ =
      ((msgProcess (header.toNat / 16) (header.toNat % 16)).run (awake link) ⟨beyond.tail, -1⟩).map
        fun link => (1, link) := by
  have hp : parseLength ([a, b, c] ++ beyond) ([a, b, c].length : ℕ) = some (-1, beyond.tail, -1) :=
    parseLength_refused ha hb hc (by simp) beyond
  exact (msgParse_long (by simp) hp).trans (if_neg (not_not.mpr rfl))

lemma long_group {field : List UInt8} (hg : Group field) (h : ¬field.length ≤ 3) :
    ∃ a b c rest, field = a :: b :: c :: rest ∧ 128 ≤ a.toNat ∧ 128 ≤ b.toNat ∧ 128 ≤ c.toNat ∧ 1 ≤ rest.length := by
  match field, hg with
  | a :: b :: c :: rest, .more ha (.more hb (.more hc hrest)) => exact ⟨a, b, c, rest, rfl, ha, hb, hc, hrest.pos⟩
  | [a, b, c], _ => simp at h
  | [a, b], _ => simp at h
  | [a], _ => simp at h

lemma exact_of_good {content : List UInt8} (h3 : ∀ header field body, Packet content header field body → field.length ≤ 3)
    (hbare : ¬Bare content) : Exact content := by
  match content, h3, hbare with
  | [], _, _ =>
    intro L awake msgProcess link beyond
    exact ⟨fun header field body hp => absurd hp.1 (by simp), fun _ => msgParse_short (by simp)⟩
  | [header], _, _ =>
    intro L awake msgProcess link beyond
    refine ⟨fun header' field body hp => ?_, fun _ => msgParse_short (by simp)⟩
    have hpos := hp.2.1.pos
    have hlen := congrArg List.length hp.1
    simp only [List.length_cons, List.length_nil, List.length_append] at hlen
    omega
  | header :: t :: ts, h3, hbare =>
    rcases group_or_more (t :: ts) with ⟨field, body, he, hg⟩ | hmore
    · rw [he] at h3 ⊢
      by_cases hlen : field.length ≤ 3
      · exact exact_of_three hg hlen
      -- a longer field makes no packet, and is refused at its fourth byte
      obtain ⟨a, b, c, rest, rfl, ha, hb, hc, hrest⟩ := long_group hg hlen
      apply exact_of_refused (by simp)
      · rintro ⟨header', field', body', hp⟩
        obtain ⟨rfl, rfl, rfl⟩ := hp.unique hg
        exact hlen (h3 _ _ _ hp)
      · intro beyond
        refine ⟨-1, _, _, parseLength_refused ha hb hc ?_ (rest ++ body ++ beyond), ?_⟩ <;>
          simp only [List.length_append, List.length_cons] <;> omega
    · have hno : ¬∃ header' field body, Packet (header :: t :: ts) header' field body := by
        rintro ⟨header', field, body, he, hg, -⟩
        obtain ⟨-, ht⟩ := List.cons.inj he
        rw [ht] at hmore
        exact hg.not_more hmore
      apply exact_of_refused (by simp) hno
      intro beyond
      match t, ts, hmore, hbare with
      | a, [], hmore, _ =>
        obtain ⟨r, p, hp, hr⟩ := parseLength_beyond hmore (by simp) beyond
        exact ⟨r, p, -1, hp, hr⟩
      | a, [b], hmore, _ =>
        obtain ⟨r, p, hp, hr⟩ := parseLength_beyond hmore (by simp) beyond
        exact ⟨r, p, -1, hp, hr⟩
      | a, [b, c], hmore, hbare =>
        exact absurd ⟨header, a, b, c, rfl, hmore a (by simp), hmore b (by simp), hmore c (by simp)⟩ hbare
      | a, b :: c :: d :: rest, hmore, _ =>
        refine ⟨-1, _, _, parseLength_refused (hmore a (by simp)) (hmore b (by simp)) (hmore c (by simp)) ?_
          (d :: rest ++ beyond), ?_⟩ <;> simp only [List.length_cons] <;> omega

lemma four_byte_packet_rejected {header : UInt8} {field body : List UInt8} (hg : Group field) (h : ¬field.length ≤ 3)
    {L : Type} (awake : L → L) (msgProcess : ℕ → ℕ → Handler L Unit) (link : L) :
    msgParse awake msgProcess link ⟨header :: (field ++ body) ++ [], (header :: (field ++ body)).length⟩ =
      some (-1, awake link) := by
  obtain ⟨a, b, c, rest, rfl, ha, hb, hc, hrest⟩ := long_group hg h
  refine msgParse_refused (by simp) (parseLength_refused ha hb hc ?_ (rest ++ body ++ [])) ?_ awake msgProcess link <;>
    simp only [List.length_append, List.length_cons] <;> omega

theorem datagram_exact_iff (content : List UInt8) :
    Exact content ↔
      (∀ header field body, Packet content header field body → field.length ≤ 3) ∧ ¬Bare content := by
  constructor
  · intro h
    constructor
    · intro header field body hp
      by_contra hlong
      -- a link that counts the calls of `msgProcess`
      have hcount := (h ℕ id (fun _ _ => Handler.link Nat.succ) 0 []).1 header field body hp
      obtain ⟨rfl, hg, -⟩ := hp
      rw [four_byte_packet_rejected hg hlong] at hcount
      cases hcount
    · rintro ⟨header, a, b, c, rfl, ha, hb, hc⟩
      have hcount := (h ℕ id (fun _ _ => Handler.link Nat.succ) 0 []).2
      rw [msgParse_bare ha hb hc] at hcount
      have hno : ¬∃ header' field body, Packet [header, a, b, c] header' field body := by
        rintro ⟨header', field, body, he, hg, -⟩
        obtain ⟨-, ht⟩ := List.cons.inj he
        apply hg.not_more (r := body)
        rw [← ht]
        simp [ha, hb, hc]
      cases hcount hno
  · rintro ⟨h3, hbare⟩
    exact exact_of_good h3 hbare

theorem datagram_exact_fails : ¬Exact [0x30, 0x80, 0x80, 0x80] := by
  intro h
  have hcount := (h ℕ id (fun _ _ => Handler.link Nat.succ) 0 []).2
  have hno : ¬∃ header field body, Packet [0x30, 0x80, 0x80, 0x80] header field body := by
    rintro ⟨header, field, body, he, hg, -⟩
    obtain ⟨-, ht⟩ := List.cons.inj he
    apply hg.not_more (r := body)
    rw [← ht]
    simp
  have hrun : msgParse id (fun _ _ => Handler.link Nat.succ) 0
      (Cursor.mk ([0x30, 0x80, 0x80, 0x80] ++ []) 4) = some (1, 1) := by
    decide +kernel
  exact absurd ((hrun.symm.trans (hcount hno))) (by decide)

end Datagram

end Xframe.Facility
