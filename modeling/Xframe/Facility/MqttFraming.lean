import Xframe.Lib.Search
import Xframe.Facility.MqttStream
import Xframe.Facility.MqttDecode

/-! Framing on the TCP links (`psamqtt-wangpan/mqttclient.C`): packets travel with a separator behind
them and are cut there. -/

namespace Xframe.Facility

open Xframe.Lib

open MqttMsg (Cursor)

structure Call where
  packetType : ℕ
  flags : ℕ
  length : ℤ
  body : List UInt8
  deriving DecidableEq

namespace CMqttClientTcpLink

def pat : List UInt8 := [13, 10, 13, 10]

/-- The bytes sent. The zero that `strcpy` puts behind the separator, outside `buf` for a packet of 1020 bytes, is
not modelled. -/
def sendPacket (packet : List UInt8) : List UInt8 := packet ++ pat

/-- The `len` that `find(str, len1, pat, match, len)` finds; `match` is `str`. -/
def find (str : List UInt8) : ℕ := firstAt pat str

def next (start : List UInt8) : List UInt8 :=
  let rest := start.drop (find start)
  if rest.length ≠ find start then rest.drop pat.length else rest

def recvLoop {L : Type} (parse : L → Cursor → Option (ℤ × L)) : ℕ → L → List UInt8 → Option L
  | 0, _, _ => none
  | fuel + 1, link, start => do
    let (_, link) ← parse link ⟨start, find start⟩
    if 0 < (next start).length then recvLoop parse fuel link (next start) else some link

def processRecv {L : Type} (parse : L → Cursor → Option (ℤ × L)) (link : L) (recvstatus : ℤ) (buf : List UInt8) :
    Option (ℤ × L) :=
  if recvstatus ≠ 0 then (recvLoop parse (buf.length + 1) link buf).map fun link => (1, link)
  else some (0, link)

def noteCall (packetType flags : ℕ) : Handler (List Call) Unit := fun s =>
  .ok () (s.1 ++ [⟨packetType, flags, s.2.length, s.2.p.take s.2.length.toNat⟩], s.2)

def note (calls : List Call) (c : Cursor) : Option (ℤ × List Call) := msgParse id noteCall calls c

end CMqttClientTcpLink

namespace Packet

def tcpCall (p : Packet) : Call := ⟨p.packetType, p.flags, (p.body.length : ℕ), p.body⟩

def tcpStream (ps : List Packet) : List UInt8 := ps.flatMap fun p => CMqttClientTcpLink.sendPacket p.bytes

/-- The separator is first met where it was put. -/
def Framed (p : Packet) : Prop := ¬CMqttClientTcpLink.pat <:+: p.bytes ∧ ¬[13, 10] <:+ p.bytes

end Packet

structure Arrival where
  packets : List Packet
  fits : (Packet.tcpStream packets).length ≤ 1024

namespace MqttMsg

lemma parseLengthLoop_returns {k m v : ℕ} {content : List UInt8} {length : ℤ} (hk : 0 < k)
    (hm : 128 * 128 * 128 < m * 128 ^ k) : ∃ r, parseLengthLoop k content length m v = some r := by
  induction k generalizing m v content length with
  | zero => omega
  | succ k ih =>
    rw [parseLengthLoop]
    dsimp only
    split_ifs with h1 h2 h3
    · exact ⟨_, rfl⟩
    · exact ⟨_, rfl⟩
    · have hm' := hm
      rw [pow_succ', ← mul_assoc] at hm'
      apply ih ?_ hm'
      by_contra hk'
      obtain rfl : k = 0 := by omega
      rw [pow_zero, mul_one] at hm'
      exact h2 hm'
    · exact ⟨_, rfl⟩

lemma parseLength_returns (content : List UInt8) (length : ℤ) : ∃ r, parseLength content length = some r :=
  parseLengthLoop_returns (by decide) (by decide)

lemma parseLengthLoop_lt {k m v : ℕ} {content p : List UInt8} {length w n : ℤ} (hv : v < m)
    (h : parseLengthLoop k content length m v = some (w, p, n)) (hw : 0 ≤ w) :
    ∃ j : ℕ, 0 < j ∧ n = length - j ∧ w < ((m * 128 ^ j : ℕ) : ℤ) := by
  induction k generalizing m v content length with
  | zero => cases h
  | succ k ih =>
    rw [parseLengthLoop] at h
    dsimp only at h
    have hmod := Nat.mod_lt (content.headD 0).toNat (show 0 < 128 by decide)
    have hv' : v + (content.headD 0).toNat % 128 * m < m * 128 := by nlinarith
    split_ifs at h with h1 h2 h3
    · obtain ⟨rfl, -⟩ := Prod.mk.inj (Option.some.inj h)
      omega
    · obtain ⟨rfl, -⟩ := Prod.mk.inj (Option.some.inj h)
      omega
    · obtain ⟨j, hj, hn, hlt⟩ := ih hv' h
      refine ⟨j + 1, by omega, by push_cast; omega, ?_⟩
      rwa [pow_succ', ← mul_assoc]
    · obtain ⟨rfl, -, rfl⟩ := h
      exact ⟨1, by omega, by simp, by rw [pow_one]; exact_mod_cast hv'⟩

end MqttMsg

def Call.size (c : Call) : ℕ := 1 + (MqttMsg.appendLength c.length.toNat).length + c.length.toNat

lemma Packet.size_tcpCall (p : Packet) : p.tcpCall.size = p.bytes.length := by
  simp [Call.size, tcpCall, bytes, MqttMsg.pack]
  omega

namespace CMqttClientTcpLink

lemma note_cases (c : Cursor) : (∀ calls, note calls c = some (-1, calls)) ∨
    ∃ call : Call, (call.size : ℤ) ≤ c.length ∧ ∀ calls, note calls c = some (1, calls ++ [call]) := by
  by_cases hs : c.length < 2
  · exact .inl fun calls => by simp [note, msgParse, hs]
  obtain ⟨⟨bodyLength, p, remainLength⟩, h⟩ := MqttMsg.parseLength_returns c.p.tail (c.length - 1)
  by_cases hl : bodyLength ≠ remainLength
  · exact .inl fun calls => by simp [note, msgParse, hs, h, hl]
  refine .inr ⟨⟨(c.p.headD 0).toNat / 16, (c.p.headD 0).toNat % 16, bodyLength, p.take bodyLength.toNat⟩, ?_,
    fun calls => by simp [note, msgParse, hs, h, hl, Handler.run, noteCall]⟩
  rw [Call.size]
  dsimp only
  by_cases hneg : bodyLength < 0
  · rw [Int.toNat_of_nonpos (by omega), MqttMsg.appendLength_small (by decide)]
    simp
    omega
  · obtain ⟨j, hj, hn, hlt⟩ := MqttMsg.parseLengthLoop_lt (by decide) h (by omega)
    obtain ⟨j, rfl⟩ := Nat.exists_eq_add_of_lt hj
    have hlen := MqttMsg.length_appendLength_le (n := bodyLength.toNat) (k := j) (by
      rw [zero_add, one_mul] at hlt
      omega)
    push_cast at hn ⊢
    omega

def taken (c : Cursor) : List Call := ((note [] c).map Prod.snd).getD []

lemma note_taken (calls : List Call) (c : Cursor) : ∃ r, note calls c = some (r, calls ++ taken c) := by
  obtain h | ⟨call, -, h⟩ := note_cases c
  · exact ⟨-1, by rw [taken, h, h]; simp⟩
  · exact ⟨1, by rw [taken, h, h]; simp⟩

lemma taken_cases (c : Cursor) : taken c = [] ∨ ∃ call : Call, (call.size : ℤ) ≤ c.length ∧ taken c = [call] := by
  obtain h | ⟨call, hle, h⟩ := note_cases c
  · exact .inl (by rw [taken, h]; rfl)
  · exact .inr ⟨call, hle, by rw [taken, h]; rfl⟩

lemma find_le (start : List UInt8) : find start ≤ start.length := firstAt_le_length start

lemma next_lt {start : List UInt8} (h : start ≠ []) : (next start).length < start.length := by
  have hpos := List.length_pos_iff.mpr h
  have hle := find_le start
  rw [next]
  split_ifs with he
  · simp only [List.length_drop, pat, List.length_cons, List.length_nil] at he ⊢
    omega
  · simp only [List.length_drop, not_not] at he ⊢
    omega

def callsFrom (start : List UInt8) : List Call :=
  if h : start = [] then [] else taken ⟨start, find start⟩ ++ callsFrom (next start)
termination_by start.length
decreasing_by exact next_lt h

lemma taken_nil : taken ⟨[], find []⟩ = [] := rfl

lemma callsFrom_nil : callsFrom [] = [] := by
  rw [callsFrom, dif_pos rfl]

lemma callsFrom_eq (start : List UInt8) :
    callsFrom start = taken ⟨start, find start⟩ ++ callsFrom (next start) := by
  by_cases h : start = []
  · subst h
    rw [taken_nil, show next [] = [] from rfl, List.nil_append]
  · rw [callsFrom, dif_neg h]

lemma recvLoop_calls {fuel : ℕ} {start : List UInt8} (hf : start.length < fuel) (calls : List Call) :
    recvLoop note fuel calls start = some (calls ++ callsFrom start) := by
  induction fuel generalizing start calls with
  | zero => omega
  | succ fuel ih =>
    obtain ⟨r, h⟩ := note_taken calls ⟨start, find start⟩
    rw [recvLoop, h, callsFrom_eq]
    simp only [Option.bind_eq_bind, Option.bind_some]
    split_ifs with hn
    · have hlt : (next start).length < start.length := by
        apply next_lt
        rintro rfl
        exact absurd hn (by decide)
      rw [ih (by omega), List.append_assoc]
    · have hnil : next start = [] := List.length_eq_zero_iff.mp (by omega)
      rw [hnil, callsFrom_nil, List.append_nil]

lemma callsFrom_pat (rest : List UInt8) : callsFrom (pat ++ rest) = callsFrom rest := by
  have hfind : find (pat ++ rest) = 0 := firstAt_append (s := []) (by simp)
  have hnext : next (pat ++ rest) = rest := by
    rw [next, hfind, List.drop_zero, if_pos (by simp [pat]), List.drop_left]
  rw [callsFrom_eq, hnext, hfind]
  rfl

lemma callsFrom_cut {a rest : List UInt8} (h : find (a ++ (pat ++ rest)) = a.length) :
    callsFrom (a ++ (pat ++ rest)) = taken ⟨a ++ (pat ++ rest), (a.length : ℕ)⟩ ++ callsFrom rest := by
  rw [callsFrom_eq, h, next]
  simp only [h, List.drop_left]
  split_ifs
  · rfl
  · rw [callsFrom_pat]

def weight (calls : List Call) : ℕ := (calls.map fun c => c.size + 4).sum

lemma weight_append (cs ds : List Call) : weight (cs ++ ds) = weight cs + weight ds := by
  simp [weight]

lemma weight_taken (c : Cursor) : (weight (taken c) : ℤ) ≤ c.length + 4 ∨ taken c = [] := by
  obtain h | ⟨call, hle, h⟩ := taken_cases c
  · exact .inr h
  · refine .inl ?_
    rw [h]
    simp [weight]
    omega

lemma callsFrom_short {start : List UInt8} (h : start <:+ pat) (hlt : start.length < 4) : callsFrom start = [] := by
  have hmem : start ∈ pat.tails := by simpa using h
  simp only [pat, List.tails, List.mem_cons, List.not_mem_nil, or_false] at hmem
  obtain rfl | rfl | rfl | rfl | rfl := hmem
  · simp at hlt
  · rw [callsFrom_eq, show next [10, 13, 10] = [] by decide, callsFrom_nil]
    decide
  · rw [callsFrom_eq, show next [13, 10] = [] by decide, callsFrom_nil]
    decide
  · rw [callsFrom_eq, show next [10] = [] by decide, callsFrom_nil]
    decide
  · exact callsFrom_nil

lemma weight_callsFrom {start : List UInt8} (h : pat <:+ start ∨ start <:+ pat) :
    weight (callsFrom start) ≤ start.length := by
  induction hn : start.length using Nat.strong_induction_on generalizing start with
  | _ n ih =>
    by_cases hshort : start.length < 4
    · rw [callsFrom_short (h.elim (fun h => absurd h.length_le (by simp [pat]; omega)) id) hshort]
      exact Nat.zero_le n
    have hend : pat <:+ start := h.elim id fun h => by
      rw [h.eq_of_length (by have := h.length_le; simp [pat] at this ⊢; omega)]
    obtain ⟨b, hb⟩ := hend
    have hocc : pat <+: start.drop b.length := by
      rw [← hb, List.drop_left]
    obtain ⟨a, rest, rfl, ha⟩ := exists_firstAt hocc
    have hsuf : rest <:+ a ++ (pat ++ rest) := ⟨a ++ pat, by simp⟩
    have hrest : pat <:+ rest ∨ rest <:+ pat := List.suffix_or_suffix_of_suffix ⟨b, hb⟩ hsuf
    have hlen : (a ++ (pat ++ rest)).length = a.length + 4 + rest.length := by
      simp [pat]
      omega
    have hle := ih rest.length (by omega) hrest rfl
    rw [callsFrom_cut ha.symm, weight_append]
    obtain ht | ht := weight_taken ⟨a ++ (pat ++ rest), (a.length : ℕ)⟩
    · dsimp only at ht
      omega
    · rw [ht]
      simp only [weight, List.map_nil, List.sum_nil] at hle ⊢
      omega

end CMqttClientTcpLink

namespace Packet

open CMqttClientTcpLink

lemma tcpStream_cons (p : Packet) (ps : List Packet) :
    tcpStream (p :: ps) = p.bytes ++ (pat ++ tcpStream ps) := by
  simp [tcpStream, sendPacket]

lemma weight_stream (ps : List Packet) : weight (ps.map tcpCall) = (tcpStream ps).length := by
  induction ps with
  | nil => rfl
  | cons p ps ih =>
    rw [tcpStream_cons, List.map_cons, ← List.singleton_append, weight_append, ih]
    simp [weight, size_tcpCall, pat]
    omega

lemma Framed.find {p : Packet} (h : p.Framed) (rest : List UInt8) :
    find (p.bytes ++ (pat ++ rest)) = p.bytes.length := by
  apply firstAt_append
  intro i hi hp
  obtain ⟨b, hb⟩ : p.bytes.drop i <:+ p.bytes := List.drop_suffix i p.bytes
  rw [List.drop_append_of_le_length hi.le] at hp
  have hpos : 0 < (p.bytes.drop i).length := by
    rw [List.length_drop]
    omega
  generalize p.bytes.drop i = t at hb hp hpos
  rcases t with _ | ⟨x, _ | ⟨y, _ | ⟨z, _ | ⟨w, t⟩⟩⟩⟩
  · simp at hpos
  · simp [pat, List.cons_prefix_cons] at hp
  · simp only [pat, List.cons_append, List.nil_append, List.cons_prefix_cons] at hp
    obtain ⟨rfl, rfl, -⟩ := hp
    exact h.2 ⟨b, hb⟩
  · simp [pat, List.cons_prefix_cons] at hp
  · simp only [pat, List.cons_append, List.cons_prefix_cons] at hp
    obtain ⟨rfl, rfl, rfl, rfl, -⟩ := hp
    exact h.1 ⟨b, t, by rw [← hb]; simp [pat]⟩

lemma find_lt_of_not_framed {p : Packet} (h : ¬p.Framed) (rest : List UInt8) :
    find (p.bytes ++ (pat ++ rest)) < p.bytes.length := by
  rw [Framed, not_and_or, not_not, not_not] at h
  obtain ⟨b, t, hb⟩ | ⟨b, hb⟩ := h
  · have hocc : pat <+: (p.bytes ++ (pat ++ rest)).drop b.length := by
      rw [← hb, List.append_assoc, List.append_assoc, List.drop_left]
      exact List.prefix_append _ _
    have hlen := congrArg List.length hb
    simp only [List.length_append, pat, List.length_cons, List.length_nil] at hlen
    have hle : find (p.bytes ++ (pat ++ rest)) ≤ b.length := firstAt_le hocc
    omega
  · have hocc : pat <+: (p.bytes ++ (pat ++ rest)).drop b.length := by
      rw [← hb, List.append_assoc, List.drop_left]
      exact ⟨[13, 10] ++ rest, by simp [pat]⟩
    have hlen := congrArg List.length hb
    simp only [List.length_append, List.length_cons, List.length_nil] at hlen
    have hle : find (p.bytes ++ (pat ++ rest)) ≤ b.length := firstAt_le hocc
    omega

lemma taken_bytes (p : Packet) (rest : List UInt8) :
    taken ⟨p.bytes ++ rest, (p.bytes.length : ℕ)⟩ = [p.tcpCall] := by
  have h1 := p.packetType.isLt
  have h2 := p.flags.isLt
  have hd : (p.packetType.val * 16 + p.flags) / 16 = p.packetType := by omega
  have hm : (p.packetType.val * 16 + p.flags) % 16 = p.flags := by omega
  have hpos := List.length_pos_iff.mpr (MqttMsg.appendLength_ne_nil p.body.length)
  have hlen : ((p.bytes.length : ℕ) : ℤ) - 1 = (p.body.length : ℕ) + (MqttMsg.appendLength p.body.length).length := by
    simp only [bytes, MqttMsg.pack, List.length_cons, List.length_append]
    omega
  have htail : (p.bytes ++ rest).tail = MqttMsg.appendLength p.body.length ++ (p.body ++ rest) := by
    simp [bytes, MqttMsg.pack]
  have hhead : ((p.bytes ++ rest).headD 0).toNat = p.packetType * 16 + p.flags := p.head_toNat
  rw [taken, note, msgParse, if_neg (by dsimp only; omega)]
  dsimp only
  rw [hlen, htail, MqttMsg.parseLength_behind p.small _ (by omega)]
  simp only [Option.bind_eq_bind, Option.bind_some, hhead, hd, hm]
  simp [Handler.run, noteCall, tcpCall]

lemma callsFrom_framed {ps : List Packet} (h : ∀ p ∈ ps, p.Framed) (qs : List Packet) :
    callsFrom (tcpStream (ps ++ qs)) = ps.map tcpCall ++ callsFrom (tcpStream qs) := by
  induction ps with
  | nil => rfl
  | cons p ps ih =>
    rw [List.cons_append, tcpStream_cons, callsFrom_cut ((h p (by simp)).find _), taken_bytes,
      ih fun q hq => h q (by simp [hq])]
    rfl

lemma pat_suffix (p : Packet) (ps : List Packet) : pat <:+ tcpStream (p :: ps) := by
  induction ps generalizing p with
  | nil => exact ⟨p.bytes, by simp [tcpStream, sendPacket]⟩
  | cons q ps ih =>
    rw [tcpStream_cons]
    exact (ih q).trans ⟨p.bytes ++ pat, by simp⟩

lemma callsFrom_ne {p : Packet} (h : ¬p.Framed) (ps : List Packet) :
    callsFrom (tcpStream (p :: ps)) ≠ (p :: ps).map tcpCall := by
  intro heq
  have hlt := find_lt_of_not_framed h (tcpStream ps)
  rw [← tcpStream_cons] at hlt
  have hw := weight_stream (p :: ps)
  obtain ⟨b, hb⟩ := pat_suffix p ps
  have hocc : pat <+: (tcpStream (p :: ps)).drop b.length := by
    rw [← hb, List.drop_left]
  obtain ⟨a, rest, ha, hfind⟩ := exists_firstAt hocc
  have hsuf : rest <:+ tcpStream (p :: ps) := ⟨a ++ pat, by rw [ha]; simp⟩
  have hrest := weight_callsFrom (List.suffix_or_suffix_of_suffix ⟨b, hb⟩ hsuf)
  have hlen := congrArg List.length ha
  simp only [List.length_append, pat, List.length_cons, List.length_nil] at hlen
  have hcut : callsFrom (tcpStream (p :: ps)) = taken ⟨tcpStream (p :: ps), (a.length : ℕ)⟩ ++ callsFrom rest := by
    conv_lhs => rw [ha]
    rw [callsFrom_cut (by rw [← ha]; exact hfind.symm), ← ha]
  obtain ht | ⟨call, hle, ht⟩ := taken_cases ⟨tcpStream (p :: ps), (a.length : ℕ)⟩
  · rw [ht, List.nil_append, heq] at hcut
    rw [← hcut, hw] at hrest
    omega
  · rw [ht, heq, List.map_cons, List.singleton_append] at hcut
    have hcall := (List.cons.inj hcut).1
    rw [← hcall, size_tcpCall] at hle
    change _ = find _ at hfind
    dsimp only at hle
    omega

lemma callsFrom_iff (ps : List Packet) :
    callsFrom (tcpStream ps) = ps.map tcpCall ↔ ∀ p ∈ ps, p.Framed := by
  constructor
  · induction ps with
    | nil => simp
    | cons p ps ih =>
      intro h
      by_cases hp : p.Framed
      · have hone : ∀ q ∈ [p], q.Framed := by simpa using hp
        have hcut := callsFrom_framed hone ps
        rw [List.singleton_append, h] at hcut
        have hrest : ps.map tcpCall = callsFrom (tcpStream ps) := (List.cons.inj hcut).2
        intro q hq
        obtain rfl | hq := List.mem_cons.mp hq
        · exact hp
        · exact ih hrest.symm q hq
      · exact absurd h (callsFrom_ne hp ps)
  · intro h
    have := callsFrom_framed h []
    simpa [tcpStream, callsFrom_nil] using this

end Packet

theorem Arrival.processed_iff (a : Arrival) :
    ∃ calls, CMqttClientTcpLink.processRecv CMqttClientTcpLink.note [] 1 (Packet.tcpStream a.packets) =
        some (1, calls) ∧
      (calls = a.packets.map Packet.tcpCall ↔ ∀ p ∈ a.packets, p.Framed) := by
  refine ⟨CMqttClientTcpLink.callsFrom (Packet.tcpStream a.packets), ?_, Packet.callsFrom_iff a.packets⟩
  rw [CMqttClientTcpLink.processRecv, if_pos (by decide), CMqttClientTcpLink.recvLoop_calls (Nat.lt_succ_self _)]
  rfl

def Packet.endOfLine : Packet := ⟨⟨3, Nat.le_of_ble_eq_true rfl⟩, ⟨0, Nat.le_of_ble_eq_true rfl⟩, [0, 1, 97, 13, 10],
    Nat.le_of_ble_eq_true rfl⟩

theorem end_of_line_lost :
    Packet.tcpStream [Packet.endOfLine] = [48, 5, 0, 1, 97, 13, 10, 13, 10, 13, 10] ∧
      CMqttClientTcpLink.processRecv CMqttClientTcpLink.note [] 1 [48, 5, 0, 1, 97, 13, 10, 13, 10, 13, 10] =
        some (1, []) ∧
      [] ≠ [Packet.endOfLine].map Packet.tcpCall := by
  refine ⟨?_, by decide, by simp⟩
  have hlen : MqttMsg.appendLength 5 = [5] := MqttMsg.appendLength_small (by decide)
  simp [Packet.tcpStream, CMqttClientTcpLink.sendPacket, Packet.bytes, Packet.endOfLine, MqttMsg.pack, hlen,
    CMqttClientTcpLink.pat]

end Xframe.Facility
