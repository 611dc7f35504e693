import Xframe.Comserv.CStrBuffer
import Xframe.Lib.Returns
import Xframe.Transport.UdpRoundTrip

/-! What `Recv` reads of a datagram. The memory ends with the bytes that were received, so that a program
that reads behind them has no result. -/

namespace Xframe.Transport

open Xframe.Comserv Xframe.Msg Xframe.Lib

abbrev Reader (α : Type) := Act (List UInt8) α

namespace Reader

def bytes (n : ℕ) : Reader (List UInt8) := fun buf =>
  if n ≤ buf.length then some (.done (buf.take n), buf.drop n) else none

def int : Reader ℤ := do
  let b ← bytes 4
  pure (CSocket.ntohl b)

/-- `CStr::decode`. A negative length is a huge one for `memcpy`. -/
def str : Reader CStr := do
  let length ← int
  if Unallocatable length then Act.throw
  else if length < 0 then Act.fault
  else bytes length.toNat

end Reader

def TTransMsg.read : Reader TTransMsg := do
  let split ← Reader.bytes 3
  let cseq ← Reader.int
  let transid ← Reader.str
  let length ← Reader.int
  pure ⟨split, cseq, transid, length⟩

namespace TUDPTrasnport

def receive (r : Receiver) (client : CStr) (received : ℕ) : Reader (Option TUniNetMsg) := do
  let tm ← TTransMsg.read
  if !tm.check then pure none
  else if received - tm.size < tm.length then pure none
  else
    let info ← Reader.str
    pure (some (posted r client tm info))

def turn (r : Receiver) (client : CStr) (received : List UInt8) : Option (Outcome (Option TUniNetMsg) × List UInt8) :=
  if received = [] then some (.done none, []) else receive r client received.length received

def intAt (d : List UInt8) (o : ℕ) : ℤ := CSocket.ntohl ((d.drop o).take 4)

def idLength (d : List UInt8) : ℤ := intAt d 7

def bodyLength (d : List UInt8) : ℤ := intAt d (11 + (idLength d).toNat)

def infoLength (d : List UInt8) : ℤ := intAt d (15 + (idLength d).toNat)

structure Announced (d : List UInt8) : Prop where
  delimiter : d.take 3 = TTransMsg.delimiter
  id_nonneg : 0 ≤ idLength d
  positive : 0 < bodyLength d
  body : 15 + idLength d + bodyLength d ≤ d.length
  info_nonneg : 0 ≤ infoLength d
  info : 19 + idLength d + infoLength d ≤ d.length

def OnlyAnnounced (d : List UInt8) (x : Option (Outcome (Option TUniNetMsg) × List UInt8)) : Prop :=
  Returns x fun (o, _) => ∀ msg, o = .done (some msg) → Announced d

def WithinDatagram (r : Receiver) (client : CStr) (datagram : List UInt8) : Prop :=
  OnlyAnnounced (datagram.take maxRecvBufSize) (turn r client (datagram.take maxRecvBufSize))

def Refused (d : List UInt8) : Prop :=
  d[0]? ≠ some 0 ∨ d[2]? ≠ some 0 ∨ bodyLength d ≤ 0 ∨ d.length < 15 + idLength d + bodyLength d

/-- The whole header is there, and the whole body if the header is not refused; in this case the second
byte of the delimiter is right too. A length that has no block ends the program. -/
def WellFormed (d : List UInt8) : Prop :=
  d = [] ∨ 11 ≤ d.length ∧ (Unallocatable (idLength d) ∨ 0 ≤ idLength d ∧ 15 + idLength d ≤ d.length ∧
    (Refused d ∨ 19 + idLength d ≤ d.length ∧ (Unallocatable (infoLength d) ∨
      d[1]? = some 0xff ∧ 0 ≤ infoLength d ∧ 19 + idLength d + infoLength d ≤ d.length)))

instance (d : List UInt8) : Decidable (Refused d) := inferInstanceAs (Decidable (_ ∨ _))

instance (d : List UInt8) : Decidable (WellFormed d) := inferInstanceAs (Decidable (_ ∨ _))

end TUDPTrasnport

namespace Reader

variable {α β : Type} {d : List UInt8} {o n : ℕ}

lemma bytes_at (f : List UInt8 → Reader α) (ho : o ≤ d.length) :
    (bytes n >>= f) (d.drop o) =
      if o + n ≤ d.length then f ((d.drop o).take n) (d.drop (o + n)) else none := by
  rw [Act.bind_apply, Act.andThen, bytes, List.length_drop, List.drop_drop]
  by_cases h : o + n ≤ d.length
  · rw [if_pos h, if_pos (by omega)]
  · rw [if_neg h, if_neg (by omega)]

lemma int_at (f : ℤ → Reader α) (ho : o ≤ d.length) :
    (int >>= f) (d.drop o) =
      if o + 4 ≤ d.length then f (TUDPTrasnport.intAt d o) (d.drop (o + 4)) else none := by
  rw [int, Act.andThen_assoc, bytes_at _ ho]
  rfl

lemma str_at (f : CStr → Reader α) (ho : o ≤ d.length) :
    (str >>= f) (d.drop o) =
      if o + 4 ≤ d.length then
        if Unallocatable (TUDPTrasnport.intAt d o) then some (.thrown, d.drop (o + 4))
        else if TUDPTrasnport.intAt d o < 0 then none
        else if o + 4 + (TUDPTrasnport.intAt d o).toNat ≤ d.length then
          f ((d.drop (o + 4)).take (TUDPTrasnport.intAt d o).toNat) (d.drop (o + 4 + (TUDPTrasnport.intAt d o).toNat))
        else none
      else none := by
  rw [str, Act.andThen_assoc, int_at _ ho]
  by_cases h4 : o + 4 ≤ d.length
  · rw [if_pos h4, if_pos h4]
    by_cases hu : Unallocatable (TUDPTrasnport.intAt d o)
    · rw [if_pos hu, if_pos hu]
      rfl
    rw [if_neg hu, if_neg hu]
    by_cases hneg : TUDPTrasnport.intAt d o < 0
    · rw [if_pos hneg, if_pos hneg]
      rfl
    rw [if_neg hneg, if_neg hneg]
    exact bytes_at f h4
  · rw [if_neg h4, if_neg h4]

section Decoders

variable {buf rest : List UInt8}

lemma bytes_eq_done {b : List UInt8} (h : bytes n buf = some (.done b, rest)) : buf = b ++ rest ∧ b.length = n := by
  rw [bytes] at h
  split at h
  · next hle =>
    simp only [Option.some.injEq, Prod.mk.injEq, Outcome.done.injEq] at h
    rw [← h.1, ← h.2, List.take_append_drop, List.length_take, min_eq_left hle]
    exact ⟨rfl, rfl⟩
  · simp at h

lemma int_eq_done {n : ℤ} (h : int buf = some (.done n, rest)) (tail : List UInt8) :
    decodeInt (buf ++ tail) = some (n, rest ++ tail) := by
  obtain ⟨b, u, hb, hn⟩ := Act.bind_eq_done h
  obtain ⟨rfl, hlen⟩ := bytes_eq_done hb
  obtain ⟨rfl, rfl⟩ := Act.pure_eq_done hn
  match b, hlen with
  | [_, _, _, _], _ => rfl

lemma str_eq_done {s : CStr} (h : str buf = some (.done s, rest)) (tail : List UInt8) :
    decodeStr (buf ++ tail) = some (s, rest ++ tail) := by
  obtain ⟨n, u, hn, hs⟩ := Act.bind_eq_done h
  rw [decodeStr, int_eq_done hn]
  simp only [Option.bind_eq_bind, Option.bind_some]
  by_cases hu : Unallocatable n
  · rw [if_pos hu] at hs
    simp [Act.throw] at hs
  rw [if_neg hu] at hs
  by_cases hneg : n < 0
  · rw [if_pos hneg] at hs
    simp [Act.fault] at hs
  rw [if_neg hneg] at hs
  obtain ⟨rfl, hlen⟩ := bytes_eq_done hs
  rw [if_neg hu, if_pos, List.append_assoc, List.take_left' hlen, List.drop_left' hlen]
  rw [List.length_append, List.length_append]
  omega

end Decoders

end Reader

namespace TUDPTrasnport

variable {α : Type} {d : List UInt8}

def headerOf (d : List UInt8) : TTransMsg :=
  ⟨d.take 3, intAt d 3, (d.drop 11).take (idLength d).toNat, bodyLength d⟩

lemma read_at (f : TTransMsg → Reader α) (d : List UInt8) :
    (TTransMsg.read >>= f) d =
      if 11 ≤ d.length then
        if Unallocatable (idLength d) then some (.thrown, d.drop 11)
        else if idLength d < 0 then none
        else if 15 + (idLength d).toNat ≤ d.length then f (headerOf d) (d.drop (15 + (idLength d).toNat))
        else none
      else none := by
  change (TTransMsg.read >>= f) (d.drop 0) = _
  rw [TTransMsg.read, Act.andThen_assoc, Reader.bytes_at _ (Nat.zero_le _)]
  by_cases h3 : 0 + 3 ≤ d.length
  · rw [if_pos h3, Act.andThen_assoc, Reader.int_at _ h3]
    by_cases h7 : 0 + 3 + 4 ≤ d.length
    · rw [if_pos h7, Act.andThen_assoc, Reader.str_at _ h7]
      by_cases h11 : 11 ≤ d.length
      · rw [if_pos h11, if_pos h11]
        by_cases hu : Unallocatable (idLength d)
        · rw [if_pos hu]
          exact if_pos hu
        rw [if_neg hu]
        refine (if_neg hu).trans ?_
        by_cases hneg : idLength d < 0
        · rw [if_pos hneg]
          exact if_pos hneg
        rw [if_neg hneg]
        refine (if_neg hneg).trans ?_
        by_cases hid : 11 + (idLength d).toNat ≤ d.length
        · refine (if_pos hid).trans ?_
          rw [Act.andThen_assoc]
          refine (Reader.int_at _ hid).trans ?_
          have hsum : 11 + (idLength d).toNat + 4 = 15 + (idLength d).toNat := by omega
          change (if 11 + (idLength d).toNat + 4 ≤ d.length then _ else none) = _
          rw [hsum]
          rfl
        · rw [if_neg (show ¬ 15 + (idLength d).toNat ≤ d.length by omega)]
          exact if_neg hid
      · rw [if_neg h11, if_neg (by omega)]
    · rw [if_neg h7, if_neg (by omega)]
  · rw [if_neg h3, if_neg (by omega)]

lemma size_headerOf (h0 : 0 ≤ idLength d) (hn : 15 + (idLength d).toNat ≤ d.length) :
    (headerOf d).size = 15 + idLength d := by
  rw [TTransMsg.size, sizeStr, headerOf]
  dsimp only
  rw [List.length_take, List.length_drop]
  omega

lemma check_headerOf (hn : 3 ≤ d.length) :
    (headerOf d).check = true ↔ d[0]? = some 0 ∧ d[2]? = some 0 ∧ 0 < bodyLength d := by
  match d, hn with
  | a :: b :: c :: d, _ => simp [TTransMsg.check, headerOf, and_assoc]

lemma not_onlyAnnounced_none : ¬ OnlyAnnounced d none := by
  rintro ⟨x, hx, -⟩
  simp at hx

lemma onlyAnnounced_thrown (buf : List UInt8) : OnlyAnnounced d (some (.thrown, buf)) :=
  ⟨_, rfl, fun _ h => by simp at h⟩

lemma onlyAnnounced_nothing (buf : List UInt8) : OnlyAnnounced d (some (.done none, buf)) :=
  ⟨_, rfl, fun _ h => by simp at h⟩

lemma onlyAnnounced_posted (msg : TUniNetMsg) (buf : List UInt8) :
    OnlyAnnounced d (some (.done (some msg), buf)) ↔ Announced d := by
  rw [OnlyAnnounced, returns_some]
  exact ⟨fun h => h msg rfl, fun h _ _ => h⟩

lemma take_eq_delimiter : d.take 3 = TTransMsg.delimiter ↔ d[0]? = some 0 ∧ d[1]? = some 0xff ∧ d[2]? = some 0 := by
  match d with
  | [] => simp [TTransMsg.delimiter]
  | [_] => simp [TTransMsg.delimiter]
  | [_, _] => simp [TTransMsg.delimiter]
  | a :: b :: c :: d => simp [TTransMsg.delimiter]

lemma info_within (r : Receiver) (client : CStr) (tm : TTransMsg) (h0 : 0 ≤ idLength d)
    (hid : 15 + (idLength d).toNat ≤ d.length) (hok : ¬ Refused d) :
    OnlyAnnounced d ((Reader.str >>= fun info => pure (some (posted r client tm info)))
        (d.drop (15 + (idLength d).toNat))) ↔
      19 + idLength d ≤ d.length ∧ (Unallocatable (infoLength d) ∨
        d[1]? = some 0xff ∧ 0 ≤ infoLength d ∧ 19 + idLength d + infoLength d ≤ d.length) := by
  have hrefused : d[0]? = some 0 ∧ d[2]? = some 0 ∧ 0 < bodyLength d ∧ 15 + idLength d + bodyLength d ≤ d.length := by
    simpa [Refused] using hok
  rw [Reader.str_at _ hid]
  change OnlyAnnounced d (if _ then if Unallocatable (infoLength d) then _ else if infoLength d < 0 then _ else
    if _ + (infoLength d).toNat ≤ _ then _ else _ else _) ↔ _
  by_cases h19 : 15 + (idLength d).toNat + 4 ≤ d.length
  · rw [if_pos h19]
    by_cases hu : Unallocatable (infoLength d)
    · rw [if_pos hu]
      exact iff_of_true (onlyAnnounced_thrown _) ⟨by omega, Or.inl hu⟩
    rw [if_neg hu]
    by_cases hneg : infoLength d < 0
    · rw [if_pos hneg]
      refine iff_of_false not_onlyAnnounced_none ?_
      rintro ⟨-, h | ⟨-, h, -⟩⟩
      · exact hu h
      · omega
    rw [if_neg hneg]
    by_cases hinfo : 15 + (idLength d).toNat + 4 + (infoLength d).toNat ≤ d.length
    · rw [if_pos hinfo]
      refine (onlyAnnounced_posted _ _).trans ⟨fun h => ?_, fun h => ?_⟩
      · exact ⟨by omega, Or.inr ⟨(take_eq_delimiter.mp h.delimiter).2.1, h.info_nonneg, h.info⟩⟩
      · obtain ⟨-, hu' | ⟨h1, hpos, hle⟩⟩ := h
        · exact absurd hu' hu
        · exact ⟨take_eq_delimiter.mpr ⟨hrefused.1, h1, hrefused.2.1⟩, h0, hrefused.2.2.1, hrefused.2.2.2, hpos, hle⟩
    · rw [if_neg hinfo]
      refine iff_of_false not_onlyAnnounced_none ?_
      rintro ⟨-, h | ⟨-, -, h⟩⟩
      · exact hu h
      · omega
  · rw [if_neg h19]
    exact iff_of_false not_onlyAnnounced_none fun h => by omega

lemma refused_iff (h0 : 0 ≤ idLength d) (hid : 15 + (idLength d).toNat ≤ d.length) :
    Refused d ↔ (headerOf d).check = false ∨ d.length - (headerOf d).size < (headerOf d).length := by
  rw [size_headerOf h0 hid, Bool.eq_false_iff, Ne, check_headerOf (by omega)]
  change _ ∨ _ ∨ _ ∨ _ ↔ _ ∨ d.length - (15 + idLength d) < bodyLength d
  have hsum : d.length - (15 + idLength d) < bodyLength d ↔ d.length < 15 + idLength d + bodyLength d := by omega
  rw [hsum]
  by_cases hfirst : d[0]? = some 0
  · by_cases hthird : d[2]? = some 0
    · simp [hfirst, hthird]
    · simp [hthird]
  · simp [hfirst]

lemma receive_of_refused (r : Receiver) (client : CStr) (n : ℕ) (tm : TTransMsg)
    (h : tm.check = false ∨ n - tm.size < tm.length) (buf : List UInt8) :
    (if !tm.check then (pure none : Reader (Option TUniNetMsg))
      else if n - tm.size < tm.length then pure none
      else Reader.str >>= fun info => pure (some (posted r client tm info))) buf = some (.done none, buf) := by
  obtain h | h := h
  · rw [if_pos (by rw [h]; rfl)]
    rfl
  · by_cases hc : tm.check = true
    · rw [if_neg (by rw [hc]; decide), if_pos h]
      rfl
    · rw [if_pos (by simpa using hc)]
      rfl

lemma turn_within (r : Receiver) (client : CStr) (d : List UInt8) :
    OnlyAnnounced d (turn r client d) ↔ WellFormed d := by
  rw [turn, WellFormed]
  by_cases hnil : d = []
  · rw [if_pos hnil]
    exact iff_of_true (onlyAnnounced_nothing _) (Or.inl hnil)
  rw [if_neg hnil, or_iff_right hnil, receive, read_at]
  by_cases h11 : 11 ≤ d.length
  · rw [if_pos h11, and_iff_right h11]
    by_cases hu : Unallocatable (idLength d)
    · rw [if_pos hu]
      exact iff_of_true (onlyAnnounced_thrown _) (Or.inl hu)
    rw [if_neg hu, or_iff_right hu]
    by_cases hneg : idLength d < 0
    · rw [if_pos hneg]
      exact iff_of_false not_onlyAnnounced_none fun h => by omega
    rw [if_neg hneg, and_iff_right (by omega)]
    by_cases hid : 15 + (idLength d).toNat ≤ d.length
    · rw [if_pos hid, and_iff_right (by omega)]
      have hrefused := refused_iff (by omega) hid
      by_cases href : Refused d
      · rw [receive_of_refused r client _ _ (hrefused.mp href)]
        exact iff_of_true (onlyAnnounced_nothing _) (Or.inl href)
      · rw [or_iff_right href, if_neg, if_neg]
        · exact info_within r client _ (by omega) hid href
        · exact fun h => href (hrefused.mpr (Or.inr h))
        · exact fun h => href (hrefused.mpr (Or.inl (by simpa using h)))
    · rw [if_neg hid]
      exact iff_of_false not_onlyAnnounced_none fun h => by omega
  · rw [if_neg h11]
    exact iff_of_false not_onlyAnnounced_none fun h => h11 h.1

lemma read_eq_done {tm : TTransMsg} {buf rest : List UInt8} (h : TTransMsg.read buf = some (.done tm, rest))
    (tail : List UInt8) : TTransMsg.decode (buf ++ tail) = some (tm, rest ++ tail) := by
  obtain ⟨b, u₁, hb, h⟩ := Act.bind_eq_done h
  obtain ⟨cseq, u₂, hcseq, h⟩ := Act.bind_eq_done h
  obtain ⟨transid, u₃, htransid, h⟩ := Act.bind_eq_done h
  obtain ⟨length, u₄, hlength, h⟩ := Act.bind_eq_done h
  obtain ⟨rfl, rfl⟩ := Act.pure_eq_done h
  obtain ⟨rfl, hlen⟩ := Reader.bytes_eq_done hb
  match b, hlen with
  | [x, y, z], _ =>
    change TTransMsg.decode (x :: y :: z :: (u₁ ++ tail)) = _
    rw [TTransMsg.decode, Reader.int_eq_done hcseq]
    simp only [Option.bind_eq_bind, Option.bind_some]
    rw [Reader.str_eq_done htransid]
    simp only [Option.bind_some]
    rw [Reader.int_eq_done hlength]
    rfl

lemma recv_of_turn {r : Receiver} {client : CStr} {datagram rest : List UInt8} {o : Option TUniNetMsg}
    (h : turn r client (datagram.take maxRecvBufSize) = some (.done o, rest)) : recv r client datagram = o := by
  rw [turn] at h
  rw [recv]
  dsimp only
  by_cases hnil : datagram.take maxRecvBufSize = []
  · rw [if_pos hnil] at h ⊢
    simp only [Option.some.injEq, Prod.mk.injEq, Outcome.done.injEq] at h
    exact h.1
  rw [if_neg hnil] at h ⊢
  obtain ⟨tm, u, htm, h⟩ := Act.bind_eq_done h
  rw [read_eq_done htm]
  simp only [Option.bind_eq_bind, Option.bind_some]
  split at h
  · next hcheck =>
    rw [if_pos hcheck]
    exact (Act.pure_eq_done h).1
  next hcheck =>
  rw [if_neg hcheck]
  split at h
  · next hlt =>
    rw [if_pos hlt]
    exact (Act.pure_eq_done h).1
  next hlt =>
  rw [if_neg hlt]
  obtain ⟨info, v, hinfo, h⟩ := Act.bind_eq_done h
  rw [Reader.str_eq_done hinfo]
  exact (Act.pure_eq_done h).1

lemma wellFormed_of_announced (h : Announced d) : WellFormed d := by
  have h0 := h.id_nonneg
  have hpos := h.positive
  have hbody := h.body
  have hinfo0 := h.info_nonneg
  have hinfo := h.info
  have hlast : d[1]? = some 0xff ∧ 0 ≤ infoLength d ∧ 19 + idLength d + infoLength d ≤ d.length :=
    ⟨(take_eq_delimiter.mp h.delimiter).2.1, hinfo0, hinfo⟩
  exact Or.inr ⟨by omega, Or.inr ⟨h0, by omega, Or.inr ⟨by omega, Or.inr hlast⟩⟩⟩

section Send

variable {msg : TUniNetMsg} {info : List UInt8}

lemma intAt_take {o n : ℕ} (h : o + 4 ≤ n) : intAt (d.take n) o = intAt d o := by
  rw [intAt, intAt, List.drop_take, List.take_take, min_eq_left (by omega)]

lemma intAt_append {a b : List UInt8} {n : ℤ} {o : ℕ} (ho : a.length = o) (h0 : 0 ≤ n) (hn : n < 2 ^ 31) :
    intAt (a ++ (encodeInt n ++ b)) o = n := by
  rw [intAt, ← ho, List.drop_left, List.take_left' (length_encodeInt n), ntohl_encodeInt h0 hn]

def content (msg : TUniNetMsg) (info : List UInt8) : List UInt8 := (header msg info).encode ++ encodeStr info

lemma content_idLength (hlen : datagramLength msg info < 2 ^ 31) :
    intAt (content msg info) 7 = (msg.transID.getD []).length := by
  rw [datagramLength] at hlen
  have hsplit : content msg info = (TTransMsg.delimiter ++ encodeInt (header msg info).cseq) ++
      (encodeInt (msg.transID.getD []).length ++ (msg.transID.getD [] ++ encodeInt (sizeStr info) ++ encodeStr info)) := by
    simp [content, TTransMsg.encode, header, encodeStr]
  rw [hsplit]
  exact intAt_append rfl (by omega) (by omega)

lemma content_bodyLength (hlen : datagramLength msg info < 2 ^ 31) :
    intAt (content msg info) (11 + (msg.transID.getD []).length) = 4 + info.length := by
  rw [datagramLength] at hlen
  have hsplit : content msg info = (TTransMsg.delimiter ++ encodeInt (header msg info).cseq ++
      encodeStr (msg.transID.getD [])) ++ (encodeInt (sizeStr info) ++ encodeStr info) := by
    simp [content, TTransMsg.encode, header, encodeStr]
  rw [hsplit]
  refine intAt_append ?_ ?_ ?_
  · rw [List.length_append, List.length_append, length_encodeStr, length_encodeInt, TTransMsg.delimiter]
    simp
    omega
  · rw [sizeStr]
    omega
  · rw [sizeStr]
    omega

lemma content_infoLength (hlen : datagramLength msg info < 2 ^ 31) :
    intAt (content msg info) (15 + (msg.transID.getD []).length) = info.length := by
  rw [datagramLength] at hlen
  rw [content, encodeStr]
  exact intAt_append (TTransMsg.length_encode rfl) (by omega) (by omega)

lemma announced_content (hle : datagramLength msg info ≤ maxRecvBufSize) : Announced (content msg info) := by
  have hlt : datagramLength msg info < 2 ^ 31 := lt_of_le_of_lt hle (by decide)
  have hlength : (content msg info).length = datagramLength msg info := length_content
  have hid : idLength (content msg info) = (msg.transID.getD []).length := content_idLength hlt
  have hbody : bodyLength (content msg info) = 4 + info.length := by
    rw [bodyLength, hid]
    exact content_bodyLength hlt
  have hinfo : infoLength (content msg info) = info.length := by
    rw [infoLength, hid]
    exact content_infoLength hlt
  rw [datagramLength] at hlength
  refine ⟨rfl, ?_, ?_, ?_, ?_, ?_⟩ <;> omega

lemma not_announced_cut (hgt : maxRecvBufSize < datagramLength msg info)
    (hle : datagramLength msg info ≤ socketBufferSize) : ¬ Announced ((content msg info).take maxRecvBufSize) := by
  intro h
  have hlt : datagramLength msg info < 2 ^ 31 := lt_of_le_of_lt hle (by decide)
  have hgt' : 8096 < datagramLength msg info := hgt
  have hlength : ((content msg info).take maxRecvBufSize).length = 8096 := by
    rw [List.length_take, content, length_content]
    exact min_eq_left hgt'.le
  have hid : idLength ((content msg info).take maxRecvBufSize) = (msg.transID.getD []).length := by
    rw [idLength, intAt_take (by decide)]
    exact content_idLength hlt
  have hpos := h.positive
  have hfits := h.body
  rw [hid, hlength] at hfits
  have hbody : bodyLength ((content msg info).take maxRecvBufSize) = 4 + info.length := by
    rw [bodyLength, hid, Int.toNat_natCast, intAt_take]
    · exact content_bodyLength hlt
    · change _ ≤ 8096
      omega
  rw [datagramLength] at hgt'
  omega

lemma send_within_iff (hcom : (msg.ctrlMsgHdr.bind TCtrlMsg.com).isSome) (hinfo : msg.msgBody = some info) :
    (∃ d, send msg = some d ∧ (∀ r client, WithinDatagram r client d.content) ∧
      Announced (d.content.take maxRecvBufSize)) ↔ datagramLength msg info ≤ maxRecvBufSize := by
  constructor
  · rintro ⟨d, hd, -, h⟩
    obtain ⟨info', hinfo', hcontent, hle⟩ := send_eq_some hd
    obtain rfl : info' = info := Option.some.inj (hinfo'.symm.trans hinfo)
    by_contra hgt
    rw [hcontent] at h
    exact not_announced_cut (not_le.mp hgt) hle h
  · intro hle
    have hbig : maxRecvBufSize ≤ socketBufferSize := by decide
    obtain ⟨d, hd, hcontent⟩ := send_of_fits hcom hinfo (hle.trans hbig)
    have hann : Announced (d.content.take maxRecvBufSize) := by
      rw [hcontent, List.take_of_length_le (by rw [length_content]; exact hle)]
      exact announced_content hle
    exact ⟨d, hd, fun r client => (turn_within r client _).mpr (wellFormed_of_announced hann), hann⟩

end Send

theorem recv_within_iff (r : Receiver) (client : CStr) (datagram : List UInt8) :
    (WithinDatagram r client datagram ↔ WellFormed (datagram.take maxRecvBufSize)) ∧
    ∀ (msg : TUniNetMsg) (info : CStr), (msg.ctrlMsgHdr.bind TCtrlMsg.com).isSome → msg.msgBody = some info →
      ((∃ d, send msg = some d ∧ (∀ r client, WithinDatagram r client d.content) ∧
        Announced (d.content.take maxRecvBufSize)) ↔ datagramLength msg info ≤ maxRecvBufSize) :=
  ⟨turn_within r client _, fun _ _ hcom hinfo => send_within_iff hcom hinfo⟩

def quiet : Receiver := ⟨0, ⟨0, 0, 0⟩, List.replicate socketBufferSize 0, List.length_replicate⟩

theorem recv_within_iff_small :
    ∃ d, send (small comMessageReq 0) = some d ∧ (∀ r client, WithinDatagram r client d.content) ∧
      Announced (d.content.take maxRecvBufSize) :=
  ((recv_within_iff quiet [] []).2 (small comMessageReq 0) [7] rfl rfl).mpr (by decide)

def undelimited : List UInt8 := [0, 5, 0, 0, 0, 0, 1, 0, 0, 0, 0, 0, 0, 0, 4, 0, 0, 0, 0]

def long : TUniNetMsg := { small comMessageReq 0 with msgBody := some (List.replicate 8090 7) }

lemma undelimited_posted : ∃ msg, recv quiet [] undelimited = some msg := by
  have hturn : ∃ msg buf, turn quiet [] undelimited = some (.done (some msg), buf) := by
    rw [turn, if_neg (by decide), receive, read_at]
    rw [if_pos (by decide), if_neg (by decide), if_neg (by decide), if_pos (by decide)]
    rw [if_neg (by decide), if_neg (by decide), Reader.str_at _ (by decide)]
    rw [if_pos (by decide), if_neg (by decide), if_neg (by decide), if_pos (by decide)]
    exact ⟨_, _, rfl⟩
  obtain ⟨msg, buf, hmsg⟩ := hturn
  have htake : undelimited.take maxRecvBufSize = undelimited := by decide
  rw [← htake] at hmsg
  exact ⟨msg, recv_of_turn hmsg⟩

theorem datagrams_beyond : ¬ WithinDatagram quiet [] [0] ∧ ¬ WithinDatagram quiet [] undelimited ∧
    (∃ msg, recv quiet [] undelimited = some msg) ∧
    (∃ d, send long = some d ∧ ¬ Announced (d.content.take maxRecvBufSize)) := by
  have hgt : maxRecvBufSize < datagramLength long (List.replicate 8090 7) := by
    rw [datagramLength, List.length_replicate]
    decide
  have hle : datagramLength long (List.replicate 8090 7) ≤ socketBufferSize := by
    rw [datagramLength, List.length_replicate]
    decide
  refine ⟨fun h => ?_, fun h => ?_, undelimited_posted, ?_⟩
  · exact absurd ((turn_within _ _ _).mp h) (by decide)
  · exact absurd ((turn_within _ _ _).mp h) (by decide)
  · obtain ⟨d, hd, hcontent⟩ := send_of_fits rfl rfl hle
    refine ⟨d, hd, ?_⟩
    rw [hcontent]
    exact not_announced_cut hgt hle

end TUDPTrasnport

end Xframe.Transport
