import Xframe.Transport.TransportUdp

/-! What of a COM message survives the way over UDP. -/

namespace Xframe.Transport

open Xframe.Comserv Xframe.Msg

namespace TTransMsg

variable {tm : TTransMsg}

lemma length_encode (h : tm.split = delimiter) : tm.encode.length = 15 + tm.transid.length := by
  rw [encode, List.length_append, List.length_append, List.length_append, length_encodeStr, length_encodeInt,
    length_encodeInt, h, delimiter]
  simp
  omega

lemma decode_encode (h : tm.split = delimiter) (hid : (tm.transid.length : ℤ) < 2 ^ 31 - 32) (h0 : 0 ≤ tm.length)
    (hl : tm.length < 2 ^ 31) (buf : List UInt8) :
    decode (tm.encode ++ buf) = some ({ tm with cseq := CSocket.ntohl (encodeInt tm.cseq) }, buf) := by
  have hsplit : tm.encode ++ buf = 0 :: 0xff :: 0 ::
      (encodeInt tm.cseq ++ (encodeStr tm.transid ++ (encodeInt tm.length ++ buf))) := by
    rw [encode, h, delimiter]
    simp
  rw [hsplit, decode, decodeInt_encodeInt]
  simp only [Option.bind_eq_bind, Option.bind_some]
  rw [decodeStr_of_short hid]
  simp only [Option.bind_some]
  rw [decodeInt_encodeInt, ntohl_encodeInt h0 hl, h]
  rfl

lemma length_transid {cseq : ℤ} {n : ℕ} (hn : n < 2 ^ 31) {rest buf : List UInt8} {tm : TTransMsg}
    (h : decode (delimiter ++ encodeInt cseq ++ encodeInt n ++ rest) = some (tm, buf)) : tm.transid.length = n := by
  have hsplit : delimiter ++ encodeInt cseq ++ encodeInt n ++ rest =
      0 :: 0xff :: 0 :: (encodeInt cseq ++ (encodeInt n ++ rest)) := by
    rw [delimiter]
    simp
  rw [hsplit, decode, decodeInt_encodeInt] at h
  simp only [Option.bind_eq_bind, Option.bind_some] at h
  rw [decodeStr, decodeInt_encodeInt, ntohl_encodeInt (by omega) (by omega)] at h
  simp only [Option.bind_eq_bind, Option.bind_some] at h
  split at h
  · simp at h
  split at h
  · next hle =>
    simp only [Option.bind_some, Option.bind_eq_some_iff] at h
    obtain ⟨x, -, hx⟩ := h
    rw [← (Prod.mk.inj (Option.some.inj hx)).1]
    dsimp only
    rw [List.length_take]
    omega
  · simp at h

end TTransMsg

namespace TUDPTrasnport

def Preserved (msg : TUniNetMsg) : Prop :=
  ∃ d, Send [msg] = [d] ∧ ∀ (r : Receiver) (client : CStr), ∃ msg', recv r client d.content = some msg' ∧
    msg'.msgName = msg.msgName ∧ msg'.cseq = msg.cseq ∧ msg'.transID = msg.transID ∧
    getComMsgPri msg' = getComMsgPri msg ∧ msg'.msgBody = msg.msgBody

variable {msg : TUniNetMsg} {info : List UInt8}

def header (msg : TUniNetMsg) (info : List UInt8) : TTransMsg :=
  ⟨TTransMsg.delimiter, msg.cseq.getD 0, msg.transID.getD [], sizeStr info⟩

def datagramLength (msg : TUniNetMsg) (info : List UInt8) : ℕ := 19 + (msg.transID.getD []).length + info.length

lemma length_content : ((header msg info).encode ++ encodeStr info).length = datagramLength msg info := by
  rw [List.length_append, TTransMsg.length_encode rfl, length_encodeStr, header, datagramLength]
  dsimp only
  omega

lemma send_eq_some {d : Datagram} (h : send msg = some d) : ∃ info, msg.msgBody = some info ∧
    d.content = (header msg info).encode ++ encodeStr info ∧ datagramLength msg info ≤ socketBufferSize := by
  rw [send] at h
  split at h
  · next hdr info _ hinfo =>
    dsimp only at h
    split at h
    · next hle =>
      refine ⟨info, hinfo, ?_, ?_⟩
      · rw [← Option.some.inj h]
        rfl
      · rw [← length_content]
        exact hle
    · simp at h
  · simp at h

lemma send_of_fits (hcom : (msg.ctrlMsgHdr.bind TCtrlMsg.com).isSome) (hinfo : msg.msgBody = some info)
    (hle : datagramLength msg info ≤ socketBufferSize) :
    ∃ d, send msg = some d ∧ d.content = (header msg info).encode ++ encodeStr info := by
  obtain ⟨hdr, hhdr⟩ := Option.isSome_iff_exists.mp hcom
  rw [send, hhdr, hinfo]
  dsimp only
  rw [← length_content] at hle
  exact ⟨_, if_pos hle, rfl⟩

def posted (r : Receiver) (client : CStr) (tm : TTransMsg) (info : List UInt8) : TUniNetMsg where
  oAddr := ⟨0, 0, 0⟩
  tAddr := r.parentAddr
  dialogType := 0
  msgName := comMessageReq
  msgType := 10
  transID := if tm.transid ≠ [] then some tm.transid else none
  cseq := if tm.cseq ≠ 0 then some (TMsgAddress.uint tm.cseq) else none
  ctrlMsgHdr := some ⟨false, 0, none, some ⟨0, 0, r.bindID, [client]⟩⟩
  msgBody := some info

lemma decode_header (hlen : datagramLength msg info < 2 ^ 31 - 32) (buf : List UInt8) :
    TTransMsg.decode ((header msg info).encode ++ buf) =
      some ({ header msg info with cseq := CSocket.ntohl (encodeInt (header msg info).cseq) }, buf) := by
  rw [datagramLength] at hlen
  apply TTransMsg.decode_encode rfl
  · dsimp only [header]
    omega
  · dsimp only [header, sizeStr]
    omega
  · dsimp only [header, sizeStr]
    omega

lemma recv_fits (r : Receiver) (client : CStr) (hle : datagramLength msg info ≤ maxRecvBufSize) :
    recv r client ((header msg info).encode ++ encodeStr info) =
      some (posted r client
        { header msg info with cseq := CSocket.ntohl (encodeInt (header msg info).cseq) } info) := by
  have hlen : ((header msg info).encode ++ encodeStr info).length = datagramLength msg info := length_content
  have hsmall : datagramLength msg info ≤ 8096 := hle
  rw [datagramLength] at hsmall
  have htake : ((header msg info).encode ++ encodeStr info).take maxRecvBufSize =
      (header msg info).encode ++ encodeStr info := List.take_of_length_le (by rw [hlen]; exact hle)
  have hne : (header msg info).encode ++ encodeStr info ≠ [] := by
    intro hnil
    rw [hnil, List.length_nil, datagramLength] at hlen
    omega
  rw [recv, htake, hlen]
  dsimp only
  rw [if_neg hne, List.append_assoc, decode_header (by rw [datagramLength]; omega)]
  simp only [Option.bind_eq_bind, Option.bind_some]
  rw [if_neg, if_neg, decodeStr_of_short (by omega)]
  · rfl
  · rw [TTransMsg.size, datagramLength, header]
    dsimp only [sizeStr]
    omega
  · have hpos : 0 < sizeStr info := by
      rw [sizeStr]
      omega
    simp [TTransMsg.check, header, TTransMsg.delimiter, hpos]

lemma recv_cut (r : Receiver) (client : CStr) (hgt : maxRecvBufSize < datagramLength msg info)
    (hle : datagramLength msg info ≤ socketBufferSize) :
    recv r client ((header msg info).encode ++ encodeStr info) = none := by
  have hlen : ((header msg info).encode ++ encodeStr info).length = datagramLength msg info := length_content
  have hhead : (header msg info).encode.length = 15 + (msg.transID.getD []).length := TTransMsg.length_encode rfl
  have hgt' : 8096 < datagramLength msg info := hgt
  have hle' : datagramLength msg info ≤ 8193 := hle
  rw [datagramLength] at hgt' hle'
  have htake : (((header msg info).encode ++ encodeStr info).take maxRecvBufSize).length = 8096 := by
    rw [List.length_take, hlen, min_eq_left hgt.le]
    rfl
  have hne : ((header msg info).encode ++ encodeStr info).take maxRecvBufSize ≠ [] := by
    intro hnil
    rw [hnil] at htake
    simp at htake
  rw [recv]
  dsimp only
  rw [if_neg hne, htake]
  by_cases hin : 15 + (msg.transID.getD []).length ≤ 8096
  · have hcut : ((header msg info).encode ++ encodeStr info).take maxRecvBufSize =
        (header msg info).encode ++ (encodeStr info).take (8096 - (15 + (msg.transID.getD []).length)) := by
      rw [List.take_append, hhead, List.take_of_length_le (by rw [hhead]; exact hin)]
      rfl
    rw [hcut, List.append_assoc, decode_header (by rw [datagramLength]; omega)]
    simp only [Option.bind_eq_bind, Option.bind_some]
    split
    · rfl
    · rw [if_pos]
      rw [TTransMsg.size, header]
      dsimp only [sizeStr]
      omega
  · have hcut : ∃ rest, ((header msg info).encode ++ encodeStr info).take maxRecvBufSize =
        TTransMsg.delimiter ++ encodeInt (header msg info).cseq ++ encodeInt (msg.transID.getD []).length ++ rest := by
      have hsplit : (header msg info).encode ++ encodeStr info = (TTransMsg.delimiter ++ encodeInt (header msg info).cseq ++
          encodeInt (msg.transID.getD []).length) ++ (msg.transID.getD [] ++ encodeInt (sizeStr info) ++ encodeStr info) := by
        simp [TTransMsg.encode, header, encodeStr]
      rw [hsplit, List.take_append, List.take_of_length_le]
      · exact ⟨_, rfl⟩
      · rw [List.length_append, List.length_append, length_encodeInt, length_encodeInt]
        decide
    obtain ⟨rest, hrest⟩ := hcut
    rw [hrest, List.append_assoc]
    cases hd : TTransMsg.decode (TTransMsg.delimiter ++ encodeInt (header msg info).cseq ++
        encodeInt (msg.transID.getD []).length ++ (rest ++ r.mSockBuffer.drop 8096)) with
    | none => rfl
    | some x =>
      obtain ⟨tm, buf⟩ := x
      have hid := TTransMsg.length_transid (by omega) hd
      simp only [Option.bind_eq_bind, Option.bind_some]
      split
      · rfl
      · next hcheck =>
        have hpos : 0 < tm.length := by
          simp [TTransMsg.check] at hcheck
          exact hcheck.2
        rw [if_pos]
        rw [TTransMsg.size, sizeStr, hid]
        omega

lemma posted_cseq (r : Receiver) (client : CStr) (hcseq : ∀ n, msg.cseq = some n → n < 2 ^ 32) :
    (posted r client { header msg info with cseq := CSocket.ntohl (encodeInt (header msg info).cseq) } info).cseq =
      msg.cseq ↔ msg.cseq ≠ some 0 := by
  have hlt : msg.cseq.getD 0 < 2 ^ 32 := by
    cases h : msg.cseq with
    | none => simp
    | some n => exact hcseq n h
  have hzero := ntohl_encodeInt_eq_zero hlt
  dsimp only [posted, header]
  cases h : msg.cseq with
  | none => simp [h] at hzero ⊢; decide
  | some n =>
    have hn := hcseq n h
    rw [h, Option.getD_some] at hzero
    by_cases h0 : n = 0
    · subst h0
      rw [Option.getD_some, hzero.mpr rfl]
      simp
    · rw [Option.getD_some, if_pos (hzero.not.mpr h0), uint_ntohl_encodeInt hn]
      simp [h0]

lemma posted_transID (r : Receiver) (client : CStr) (cseq : ℤ) :
    (posted r client { header msg info with cseq } info).transID = msg.transID ↔ msg.transID ≠ some [] := by
  dsimp only [posted, header]
  cases h : msg.transID with
  | none => simp
  | some transid =>
    by_cases h0 : transid = []
    · simp [h0]
    · simp [h0]

/-- What survives: a request that wants no response, with a body, without an empty id or a number zero,
and not too long. -/
structure Portable (msg : TUniNetMsg) : Prop where
  name : msg.msgName = comMessageReq
  pri : getComMsgPri msg = 0
  cseq : msg.cseq ≠ some 0
  transID : msg.transID ≠ some []
  body : ∃ info, msg.msgBody = some info ∧ datagramLength msg info ≤ maxRecvBufSize

lemma Preserved.portable (h : Preserved msg) (hcseq : ∀ n, msg.cseq = some n → n < 2 ^ 32) : Portable msg := by
  obtain ⟨d, hsend, hrecv⟩ := h
  have hd : send msg = some d := by
    cases hs : send msg with
    | none => simp [Send, hs] at hsend
    | some d' =>
      rw [Send, List.filterMap_cons_some hs] at hsend
      rw [(List.cons.inj hsend).1]
  obtain ⟨info, hinfo, hcontent, hle⟩ := send_eq_some hd
  obtain ⟨msg', hmsg', hname, hc, hid, hpri, -⟩ := hrecv ⟨0, ⟨0, 0, 0⟩, List.replicate socketBufferSize 0, by simp⟩ []
  rw [hcontent] at hmsg'
  have hfits : datagramLength msg info ≤ maxRecvBufSize := by
    by_contra hgt
    rw [recv_cut _ _ (not_le.mp hgt) hle] at hmsg'
    simp at hmsg'
  rw [recv_fits _ _ hfits] at hmsg'
  obtain rfl := Option.some.inj hmsg'
  exact ⟨hname.symm, hpri.symm, (posted_cseq _ _ hcseq).mp hc, (posted_transID _ _ _).mp hid, info, hinfo, hfits⟩

lemma Portable.preserved (h : Portable msg) (hcom : (msg.ctrlMsgHdr.bind TCtrlMsg.com).isSome)
    (hcseq : ∀ n, msg.cseq = some n → n < 2 ^ 32) : Preserved msg := by
  have hbig : maxRecvBufSize ≤ socketBufferSize := by decide
  obtain ⟨info, hinfo, hle⟩ := h.body
  obtain ⟨d, hd, hcontent⟩ := send_of_fits hcom hinfo (hle.trans hbig)
  refine ⟨d, by rw [Send, List.filterMap_cons_some hd]; rfl, fun r client => ?_⟩
  rw [hcontent, recv_fits r client hle]
  exact ⟨_, rfl, h.name.symm, (posted_cseq _ _ hcseq).mpr h.cseq, (posted_transID _ _ _).mpr h.transID, h.pri.symm,
    hinfo.symm⟩

theorem preserved_iff (hcom : (msg.ctrlMsgHdr.bind TCtrlMsg.com).isSome)
    (hcseq : ∀ n, msg.cseq = some n → n < 2 ^ 32) : Preserved msg ↔ Portable msg :=
  ⟨fun h => h.portable hcseq, fun h => h.preserved hcom hcseq⟩

def small (msgName : ℕ) (pri : ℤ) : TUniNetMsg :=
  ⟨⟨102, 1, 3⟩, ⟨0, 0, 0⟩, 0, msgName, 10, some [49], some 1, some ⟨false, 0, none, some ⟨0, pri, 1, [[49]]⟩⟩, some [7]⟩

lemma small_cseq (msgName : ℕ) (pri : ℤ) : ∀ n, (small msgName pri).cseq = some n → n < 2 ^ 32 := by
  intro n hn
  rw [← Option.some.inj hn]
  decide

theorem preserved_iff_small : Preserved (small comMessageReq 0) :=
  (preserved_iff rfl (small_cseq _ _)).mpr ⟨rfl, rfl, by decide, by decide, [7], rfl, by decide⟩

theorem kinds_lost : ¬Preserved (small comMessageReq 1) ∧ ¬Preserved (small comMessageRsp 0) ∧
    ¬Preserved (genComMsgResp (small comMessageReq 1) 100) := by
  refine ⟨fun h => ?_, fun h => ?_, fun h => ?_⟩
  · exact absurd (h.portable (small_cseq _ _)).pri (by decide)
  · exact absurd (h.portable (small_cseq _ _)).name (by decide)
  · obtain ⟨d, hsend, -⟩ := h
    exact absurd hsend (List.cons_ne_nil _ _).symm

end TUDPTrasnport

end Xframe.Transport
