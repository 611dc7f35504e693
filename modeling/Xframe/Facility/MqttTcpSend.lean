import Xframe.Facility.MqttMsg

/-! `sendPacket` of the TCP links in `psamqtt` (`mqttserver.C`, `mqttclient.C`): the packet goes through a
local buffer. A write outside the buffer has no result. -/

namespace Xframe.Facility.TcpSend

structure LocalBuf where
  bytes : List UInt8
  size : bytes.length = 1024

namespace LocalBuf

def write (buf : LocalBuf) (i : ℕ) (b : UInt8) : Option LocalBuf :=
  if i < 1024 then some ⟨buf.bytes.set i b, by rw [List.length_set, buf.size]⟩ else none

def store : List UInt8 → ℕ → LocalBuf → Option LocalBuf
  | [], _, buf => some buf
  | b :: bs, i, buf => do store bs (i + 1) (← buf.write i b)

lemma store_outside {bs : List UInt8} {i : ℕ} (h : 1024 < i + bs.length) (hi : i ≤ 1024) (buf : LocalBuf) :
    store bs i buf = none := by
  induction bs generalizing i buf with
  | nil =>
    rw [List.length_nil] at h
    omega
  | cons b bs ih =>
    rw [store, write]
    rw [List.length_cons] at h
    split
    · exact ih (by omega) (by omega) _
    · rfl

lemma store_inside {bs : List UInt8} {i : ℕ} (h : i + bs.length ≤ 1024) (buf : LocalBuf) :
    ∃ buf', store bs i buf = some buf' ∧ buf'.bytes.take (i + bs.length) = buf.bytes.take i ++ bs := by
  induction bs generalizing i buf with
  | nil => exact ⟨buf, rfl, by rw [List.length_nil, Nat.add_zero, List.append_nil]⟩
  | cons b bs ih =>
    rw [List.length_cons] at h
    have hlt : i < buf.bytes.length := by
      rw [buf.size]
      omega
    have htake : (buf.bytes.set i b).take (i + 1) = buf.bytes.take i ++ [b] := by
      rw [List.take_add_one, List.take_set_of_le le_rfl, List.getElem?_set_self hlt, Option.toList_some]
    obtain ⟨buf', hstore, hbytes⟩ := ih (i := i + 1) (by omega) ⟨buf.bytes.set i b, by rw [List.length_set, buf.size]⟩
    refine ⟨buf', ?_, ?_⟩
    · rw [store, write, if_pos (by omega), Option.bind_eq_bind, Option.bind_some]
      exact hstore
    · rw [List.length_cons, ← Nat.succ_add_eq_add_succ, hbytes, htake, List.append_assoc, List.singleton_append]

end LocalBuf

def strncpy : ℕ → List UInt8 → ℕ → LocalBuf → Option LocalBuf
  | 0, _, _, buf => some buf
  | n + 1, src, i, buf => do
    let c := src.headD 0
    strncpy n (if c = 0 then [] else src.tail) (i + 1) (← buf.write i c)

def content (buf : LocalBuf) (length : ℕ) : List UInt8 := buf.bytes.take length

namespace CMqttServerTcpLink

def sendPacket (buf : LocalBuf) (packet : List UInt8) : Option (List UInt8) := do
  let buf ← strncpy packet.length packet 0 buf
  some (content buf packet.length)

end CMqttServerTcpLink

namespace CMqttClientTcpLink

def copyLoop : List UInt8 → ℕ → LocalBuf → Option LocalBuf
  | [], _, buf => some buf
  | c :: tmp, i, buf => do copyLoop tmp (i + 1) (← buf.write i c)

def sendPacket (buf : LocalBuf) (packet : List UInt8) : Option (List UInt8) := do
  let len := packet.length
  let buf ← copyLoop packet 0 buf
  let buf ← buf.write len 0
  some (content buf len)

end CMqttClientTcpLink

inductive Packed where
  | bare (packetType : ℕ)
  | full (packetType : ℕ) (body : List UInt8) (flags : ℕ)

def Packed.bytes : Packed → List UInt8
  | bare packetType => MqttMsg.packEmpty packetType
  | full packetType body flags => MqttMsg.pack packetType body flags

def Unchanged (sendPacket : LocalBuf → List UInt8 → Option (List UInt8)) (packet : List UInt8) : Prop :=
  ∀ buf, sendPacket buf packet = some packet

def ZerosLast (packet : List UInt8) : Prop :=
  ∃ text n, (0 : UInt8) ∉ text ∧ packet = text ++ List.replicate n 0

def copied : ℕ → List UInt8 → List UInt8
  | 0, _ => []
  | n + 1, src => src.headD 0 :: copied n (if src.headD 0 = 0 then [] else src.tail)

lemma strncpy_eq (n : ℕ) (src : List UInt8) (i : ℕ) (buf : LocalBuf) :
    strncpy n src i buf = LocalBuf.store (copied n src) i buf := by
  induction n generalizing src i buf with
  | zero => rfl
  | succ n ih =>
    rw [strncpy, copied, LocalBuf.store]
    simp only [ih]

lemma length_copied (n : ℕ) (src : List UInt8) : (copied n src).length = n := by
  induction n generalizing src with
  | zero => rfl
  | succ n ih => rw [copied, List.length_cons, ih]

lemma copied_nil (n : ℕ) : copied n [] = List.replicate n 0 := by
  induction n with
  | zero => rfl
  | succ n ih => exact congrArg (0 :: ·) ih

lemma copied_zero (src : List UInt8) (n : ℕ) : copied (n + 1) (0 :: src) = List.replicate (n + 1) 0 := by
  rw [copied, List.headD_cons, if_pos rfl, copied_nil, List.replicate_succ]

lemma zerosLast_cons {c : UInt8} (hc : c ≠ 0) (packet : List UInt8) : ZerosLast (c :: packet) ↔ ZerosLast packet := by
  constructor
  · rintro ⟨text, n, hno, heq⟩
    cases text with
    | nil =>
      cases n with
      | zero => simp at heq
      | succ n =>
        rw [List.nil_append, List.replicate_succ, List.cons.injEq] at heq
        exact absurd heq.1 hc
    | cons d text =>
      rw [List.cons_append, List.cons.injEq] at heq
      exact ⟨text, n, fun h => hno (List.mem_cons_of_mem d h), heq.2⟩
  · rintro ⟨text, n, hno, rfl⟩
    exact ⟨c :: text, n, by simp [hno, hc.symm], rfl⟩

lemma copied_eq_iff (packet : List UInt8) : copied packet.length packet = packet ↔ ZerosLast packet := by
  induction packet with
  | nil => exact iff_of_true rfl ⟨[], 0, by simp, rfl⟩
  | cons c packet ih =>
    by_cases hc : c = 0
    · subst hc
      rw [List.length_cons, copied_zero]
      constructor
      · intro h
        exact ⟨[], packet.length + 1, by simp, h.symm⟩
      · rintro ⟨text, n, hno, heq⟩
        cases text with
        | nil =>
          have hlen := congrArg List.length heq
          rw [List.length_cons, List.nil_append, List.length_replicate] at hlen
          rw [heq, List.nil_append, hlen]
        | cons d text =>
          rw [List.cons_append, List.cons.injEq] at heq
          exact absurd (heq.1 ▸ List.mem_cons_self) hno
    · rw [zerosLast_cons hc, ← ih, List.length_cons, copied, List.headD_cons, if_neg hc, List.tail_cons,
        List.cons.injEq, and_iff_right rfl]

lemma copyLoop_eq (tmp : List UInt8) (i : ℕ) (buf : LocalBuf) :
    CMqttClientTcpLink.copyLoop tmp i buf = LocalBuf.store tmp i buf := by
  induction tmp generalizing i buf with
  | nil => rfl
  | cons c tmp ih =>
    rw [CMqttClientTcpLink.copyLoop, LocalBuf.store]
    simp only [ih]

lemma server_unchanged_iff (packet : List UInt8) :
    Unchanged CMqttServerTcpLink.sendPacket packet ↔ packet.length ≤ 1024 ∧ ZerosLast packet := by
  by_cases hlen : packet.length ≤ 1024
  · have hsend : ∀ buf, CMqttServerTcpLink.sendPacket buf packet = some (copied packet.length packet) := by
      intro buf
      have hfits : 0 + (copied packet.length packet).length ≤ 1024 := by
        rw [length_copied]
        omega
      obtain ⟨buf', hstore, hbytes⟩ := LocalBuf.store_inside hfits buf
      rw [length_copied, Nat.zero_add, List.take_zero, List.nil_append] at hbytes
      rw [CMqttServerTcpLink.sendPacket, strncpy_eq, hstore, Option.bind_eq_bind, Option.bind_some, content, hbytes]
    rw [and_iff_right hlen, ← copied_eq_iff]
    constructor
    · intro h
      have heq := h ⟨List.replicate 1024 0, List.length_replicate⟩
      rw [hsend, Option.some.injEq] at heq
      exact heq
    · intro h buf
      rw [hsend, h]
  · refine iff_of_false (fun h => ?_) (fun h => hlen h.1)
    have heq := h ⟨List.replicate 1024 0, List.length_replicate⟩
    rw [CMqttServerTcpLink.sendPacket, strncpy_eq,
      LocalBuf.store_outside (by rw [length_copied]; omega) (by omega)] at heq
    exact absurd heq (by simp)

lemma client_unchanged_iff (packet : List UInt8) :
    Unchanged CMqttClientTcpLink.sendPacket packet ↔ packet.length < 1024 := by
  constructor
  · intro h
    have heq := h ⟨List.replicate 1024 0, List.length_replicate⟩
    by_contra hlen
    rw [CMqttClientTcpLink.sendPacket, copyLoop_eq] at heq
    by_cases hfull : packet.length = 1024
    · have hfits : 0 + packet.length ≤ 1024 := by omega
      obtain ⟨buf', hstore, -⟩ := LocalBuf.store_inside hfits ⟨List.replicate 1024 0, List.length_replicate⟩
      -- the terminating zero is the one byte too many
      rw [hstore, Option.bind_eq_bind, Option.bind_some, LocalBuf.write, if_neg hlen] at heq
      exact absurd heq (by simp)
    · rw [LocalBuf.store_outside (by omega) (by omega)] at heq
      exact absurd heq (by simp)
  · intro hlen buf
    have hfits : 0 + packet.length ≤ 1024 := by omega
    obtain ⟨buf', hstore, hbytes⟩ := LocalBuf.store_inside hfits buf
    rw [Nat.zero_add, List.take_zero, List.nil_append] at hbytes
    rw [CMqttClientTcpLink.sendPacket, copyLoop_eq, hstore, Option.bind_eq_bind, Option.bind_some, LocalBuf.write,
      if_pos hlen, Option.bind_some, content, List.take_set_of_le le_rfl, hbytes]

theorem packet_unchanged_iff (p : Packed) :
    (Unchanged CMqttServerTcpLink.sendPacket p.bytes ↔ p.bytes.length ≤ 1024 ∧ ZerosLast p.bytes) ∧
      (Unchanged CMqttClientTcpLink.sendPacket p.bytes ↔ p.bytes.length < 1024) :=
  ⟨server_unchanged_iff p.bytes, client_unchanged_iff p.bytes⟩

theorem packet_unchanged_fails : ¬∀ p : Packed, Unchanged CMqttServerTcpLink.sendPacket p.bytes ∧
    Unchanged CMqttClientTcpLink.sendPacket p.bytes := by
  intro h
  have hzeros := ((server_unchanged_iff _).mp (h (.full 2 [0, 1] 0)).1).2
  have hbytes : (Packed.full 2 [0, 1] 0).bytes = [32, 2, 0, 1] := by
    rw [Packed.bytes, MqttMsg.pack, List.length_cons, List.length_cons, List.length_nil,
      MqttMsg.appendLength_small (by omega)]
    decide
  rw [hbytes, ← copied_eq_iff] at hzeros
  exact absurd hzeros (by decide)

end Xframe.Facility.TcpSend
