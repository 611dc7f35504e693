import Xframe.Lib.Run
import Xframe.Comserv.SocketDrain

/-! The bytes a `CSocket` hands to the kernel: when a sequence of `sendMessage` calls leaves the
packets in the stream once each, whole and in call order. -/

namespace Xframe.Comserv

open Xframe.Lib

namespace TBuffer

variable {b : TBuffer}

lemma Ok.write_copy (h : b.Ok) (src : List UInt8) :
    (b.writeIntoBuffer (CSocket.writeToBuff src) () src.length).2.1.Ok ∧
      (b.writeIntoBuffer (CSocket.writeToBuff src) () src.length).2.1.contents =
        b.contents ++ src.take b.freeLength ∧
      (b.writeIntoBuffer (CSocket.writeToBuff src) () src.length).2.1.size = b.size := by
  rw [writeIntoBuffer]
  by_cases h0 : src.length = 0
  · rw [if_pos h0, List.length_eq_zero_iff.mp h0]
    exact ⟨h, by simp, rfl⟩
  rw [if_neg h0]
  by_cases hfree : b.freeLength = 0
  · rw [if_pos hfree, hfree]
    exact ⟨h, by simp, rfl⟩
  rw [if_neg hfree]
  dsimp only
  obtain ⟨n, hn⟩ : ∃ n, n = min src.length b.freeLength := ⟨_, rfl⟩
  have htake : src.take b.freeLength = src.take n := by
    rw [hn, List.take_eq_take_iff]
    omega
  have hlen : (src.take n).length = n := by rw [List.length_take, hn]; omega
  rw [htake, ← hn]
  have hone : b.pBufTail < b.pBufHead ∨ n ≤ b.size - b.pBufTail →
      (b.pushTail (CSocket.writeToBuff src) () n).2.1.Ok ∧
        (b.pushTail (CSocket.writeToBuff src) () n).2.1.contents = b.contents ++ src.take n ∧
        (b.pushTail (CSocket.writeToBuff src) () n).2.1.size = b.size := by
    intro hroom
    have hs := h.store_tail (src.take n) (n := n) (by rw [← List.length_pos_iff, hlen]; omega)
      (by rw [hlen]; omega) (by rw [hlen]; exact hroom) hlen.le
    rw [hlen] at hs
    exact ⟨hs.1, hs.2, by simp [pushTail]⟩
  split_ifs with htail hroom
  · exact hone (.inl htail)
  · exact hone (.inr hroom)
  · have hs := h.store_split (src.take (b.size - b.pBufTail))
      ((src.drop (b.size - b.pBufTail)).take (n - (b.size - b.pBufTail))) (by omega)
      (by rw [← List.length_pos_iff, List.length_take, List.length_drop]; omega)
      (by rw [List.length_take]; omega) (by simp only [List.length_take, List.length_drop]; omega)
    have h1 : min (b.size - b.pBufTail) src.length = b.size - b.pBufTail := by omega
    have h2 : min (n - (b.size - b.pBufTail)) (src.length - (b.size - b.pBufTail)) = n - (b.size - b.pBufTail) := by
      omega
    have h3 : src.take (b.size - b.pBufTail) ++ (src.drop (b.size - b.pBufTail)).take (n - (b.size - b.pBufTail)) =
        src.take n := by
      rw [← List.take_add, Nat.add_sub_cancel' (by omega)]
    simp only [List.length_take, List.length_drop, h1, h2, h3] at hs
    rw [pushSplit]
    dsimp only [CSocket.writeToBuff]
    rw [if_pos rfl, if_pos ⟨by omega, le_rfl⟩]
    simpa [store] using hs

end TBuffer

namespace CSocket

def sendBuf (s : CSocket) : TBuffer := s.pSendMsgBuf.getD (TBuffer.new maxMsgLength)

def lengthToSend (s : CSocket) : ℕ := min s.socketSendBufSize s.sendBuf.filledLength

def Offered (s : CSocket) (k : Kernel) : Prop := s.hasUnsentCode ∧ (s.writeNeedSelect → k.select = .ready)

def resent (s : CSocket) (k : Kernel) : ℕ := s.sendBuf.taken k s.lengthToSend

inductive Waits (s : CSocket) (k : Kernel) : ℕ → Prop
  | timeout : s.hasUnsentCode → s.writeNeedSelect → k.select = .timeout → Waits s k 0
  | select : s.hasUnsentCode → s.writeNeedSelect → k.select = .fail .wouldBlock → Waits s k 0
  | blocked : s.Offered k → s.resent k = 0 → k.answer 0 = .fail .wouldBlock → Waits s k 0
  | part : s.Offered k → 0 < s.resent k → s.resent k < s.lengthToSend → Waits s k (s.resent k)

inductive Drains (s : CSocket) (k : Kernel) : ℕ → Prop
  | empty : ¬s.hasUnsentCode → Drains s k 0
  | all : s.Offered k → s.resent k = s.sendBuf.filledLength → Drains s k (s.sendBuf.offers k s.lengthToSend)

def Refused (free length : ℕ) (flag : CodeFlag) : Prop :=
  maxEmergencyLength ≤ free ∧ free - maxEmergencyLength < length ∧ ¬(flag = .emergency ∧ length ≤ free)

/-- What `sendMessage` needs of the buffer before the call and of the kernel's answers to do right by
the packet and by those before it. -/
structure Clean (s : CSocket) (k : Kernel) (code : CCode) : Prop where
  /-- Of unsent bytes that go around the end of the buffer the kernel does not take just the first piece. -/
  pieces : s.Offered k → s.sendBuf.Unbroken k s.lengthToSend
  /-- After a full offer that is not all, the packet is refused or leaves no room for itself once more. -/
  once : s.Offered k → s.resent k = s.lengthToSend → s.lengthToSend < s.sendBuf.filledLength →
    code.content = [] ∨ code.content.length = s.sendBuf.freeLength + s.lengthToSend ∨
      Refused (s.sendBuf.freeLength + s.lengthToSend) code.content.length code.flag
  /-- With the reserve already touched, a packet that has to wait fits into what is left. -/
  room : ∀ n, s.Waits k n → s.sendBuf.freeLength + n < maxEmergencyLength →
    code.content.length ≤ s.sendBuf.freeLength + n
  /-- The rest of a packet that was sent in part is not refused. -/
  rest : ∀ i, s.Drains k i → 0 < (k.answer i).takes code.content.length →
    (k.answer i).takes code.content.length < code.content.length →
    ¬Refused maxMsgLength (code.content.length - (k.answer i).takes code.content.length) code.flag

structure SendOk (s : CSocket) : Prop where
  buffer : s.sendBuf.Ok
  size : s.sendBuf.size = maxMsgLength
  isOpen : s.closed = false
  bounded : 0 < s.socketSendBufSize

variable {s : CSocket} {k : Kernel} {code : CCode}

lemma pending_eq (s : CSocket) : s.pending = s.sendBuf.contents := by
  rw [pending, sendBuf]
  cases s.pSendMsgBuf with
  | none => rfl
  | some b => rfl

lemma hasUnsentCode_iff : s.hasUnsentCode = true ↔ 0 < s.sendBuf.filledLength := by
  rw [hasUnsentCode, sendBuf]
  cases s.pSendMsgBuf with
  | none => simp [TBuffer.new]
  | some b => simp

lemma fits_of_not_refused {free length : ℕ} {flag : CodeFlag} (h : ¬Refused free length flag)
    (hroom : free < maxEmergencyLength → length ≤ free) : length ≤ free := by
  rcases lt_or_ge free maxEmergencyLength with hlt | hge
  · exact hroom hlt
  · by_contra hgt
    exact h ⟨hge, by omega, fun hf => hgt hf.2⟩

structure Kept (s : CSocket) (content : List UInt8) (flag : CodeFlag) (out : ℤ × CSocket) : Prop where
  ok : out.2.SendOk
  refused : Refused s.sendBuf.freeLength content.length flag → out.1 = -5 ∧ out.2.pending = s.pending
  kept : ¬Refused s.sendBuf.freeLength content.length flag →
    out.1 = -2 ∧ out.2.pending = s.pending ++ content.take s.sendBuf.freeLength

lemma SendOk.backup (h : s.SendOk) (content : List UInt8) (hlen : content.length < 2 ^ 31) (flag : CodeFlag) :
    s.Kept content flag (s.backupToSendBuff content flag) := by
  have hsum := h.buffer.sum
  have hsize := h.size
  obtain ⟨hok, hcontents, hsz⟩ := h.buffer.write_copy content
  have hstored : ({ s with
      pSendMsgBuf := some (s.sendBuf.writeIntoBuffer (writeToBuff content) () content.length).2.1 } : CSocket).SendOk :=
    ⟨hok, hsz.trans h.size, h.isOpen, h.bounded⟩
  have hkept : ({ s with
      pSendMsgBuf := some (s.sendBuf.writeIntoBuffer (writeToBuff content) () content.length).2.1 } : CSocket).pending =
      s.pending ++ content.take s.sendBuf.freeLength := by
    rw [pending_eq, pending_eq s]
    exact hcontents
  have hwrap : content.length ≤ (s.sendBuf.freeLength + 2 ^ 32 - maxEmergencyLength) % 2 ^ 32 ↔
      s.sendBuf.freeLength < maxEmergencyLength ∨ content.length ≤ s.sendBuf.freeLength - maxEmergencyLength := by
    simp only [maxEmergencyLength, maxMsgLength] at hsize ⊢
    omega
  rw [backupToSendBuff, ← sendBuf]
  split_ifs with hfit hflag
  · refine ⟨hstored, fun hr => ?_, fun _ => ⟨rfl, hkept⟩⟩
    rcases hwrap.mp hfit with h1 | h1
    · exact absurd hr.1 (by omega)
    · exact absurd hr.2.1 (by omega)
  · exact ⟨hstored, fun hr => absurd hflag hr.2.2, fun _ => ⟨rfl, hkept⟩⟩
  · rw [hwrap] at hfit
    refine ⟨⟨h.buffer, h.size, h.isOpen, h.bounded⟩, fun _ => ⟨rfl, by rw [pending_eq, pending_eq s]; rfl⟩, fun hr => ?_⟩
    exact absurd ⟨by omega, by omega, hflag⟩ hr

inductive Stage (s : CSocket) (k : Kernel) (code : CCode) : ℤ → CSocket → Kernel → Prop
  | turn {i : ℕ} {s' : CSocket} {k' : Kernel} : s.Drains k i → s'.pending = [] → k'.sent = k.sent ++ s.pending →
      k'.answers = k.answers.drop i → Stage s k code 1 s' k'
  | waits {n : ℕ} {s' : CSocket} {k' : Kernel} : s.Waits k n → k'.sent ++ s'.pending = k.sent ++ s.pending →
      s'.sendBuf.freeLength = s.sendBuf.freeLength + n → Stage s k code (-2) s' k'
  | once {s' : CSocket} {k' : Kernel} : k'.sent ++ s'.pending = k.sent ++ s.pending ++ code.content →
      code.content = [] ∨ s'.sendBuf.freeLength = 0 → Stage s k code (-2) s' k'
  | failed {ret : ℤ} {s' : CSocket} {k' : Kernel} : ret ≠ 1 → ret ≠ -2 →
      k'.sent ++ s'.pending = k.sent ++ s.pending → Stage s k code ret s' k'

lemma SendOk.free (h : s.SendOk) : s.sendBuf.freeLength = maxMsgLength - s.pending.length := by
  have h1 := h.buffer.sum
  have h2 := h.buffer.length_contents
  have h3 := h.size
  rw [pending_eq]
  omega

lemma SendOk.keep_behind {t : CSocket} {k' : Kernel} (ht : t.SendOk) (hcons : k'.sent ++ t.pending = k.sent ++ s.pending)
    (honce : code.content = [] ∨ code.content.length = t.sendBuf.freeLength ∨
      Refused t.sendBuf.freeLength code.content.length code.flag) :
    (t.backupToSendBuff code.content code.flag).2.SendOk ∧
      Stage s k code (t.backupToSendBuff code.content code.flag).1 (t.backupToSendBuff code.content code.flag).2 k' := by
  have hb := ht.backup code.content code.fits code.flag
  refine ⟨hb.ok, ?_⟩
  by_cases hr : Refused t.sendBuf.freeLength code.content.length code.flag
  · obtain ⟨hret, hp⟩ := hb.refused hr
    rw [hret]
    exact .failed (by decide) (by decide) (by rw [hp, hcons])
  · obtain ⟨hret, hp⟩ := hb.kept hr
    have hfit : code.content.length ≤ t.sendBuf.freeLength := by
      rcases honce with h0 | heq | hr'
      · simp [h0]
      · exact heq.le
      · exact absurd hr' hr
    rw [List.take_of_length_le hfit] at hp
    rw [hret]
    refine .once (by rw [hp, ← List.append_assoc, hcons]) ?_
    rcases honce with h0 | heq | hr'
    · exact .inl h0
    · right
      have h1 := ht.free
      rw [hb.ok.free, hp, List.length_append]
      omega
    · exact absurd hr' hr

lemma SendOk.unsent (h : s.SendOk) (ho : s.Offered k) (hc : Clean s k code) :
    (s.sendUnsentCode k code).2.1.SendOk ∧
      Stage s k code (s.sendUnsentCode k code).1 (s.sendUnsentCode k code).2.1 (s.sendUnsentCode k code).2.2 := by
  have hpos := hasUnsentCode_iff.mp ho.1
  obtain ⟨buf, hbuf⟩ : ∃ buf, s.pSendMsgBuf = some buf := by
    cases hs : s.pSendMsgBuf with
    | none => simp [sendBuf, hs, TBuffer.new] at hpos
    | some buf => exact ⟨buf, rfl⟩
  have hsb : s.sendBuf = buf := by rw [sendBuf, hbuf]; rfl
  have hn : (if s.socketSendBufSize ≤ buf.filledLength then s.socketSendBufSize else buf.filledLength) =
      s.lengthToSend := by
    rw [lengthToSend, hsb]
    split <;> omega
  have hn0 : 0 < s.lengthToSend := lt_min h.bounded hpos
  have hnf : s.lengthToSend ≤ s.sendBuf.filledLength := min_le_right _ _
  have hd := h.buffer.drained (k := k) hn0 hnf (hc.pieces ho)
  have hle : s.resent k ≤ s.lengthToSend := TBuffer.taken_le
  rw [sendUnsentCode, hbuf]
  dsimp only
  rw [hn, if_neg hn0.ne', ← hsb]
  obtain ⟨⟨ret, b, k'⟩, hout⟩ : ∃ out, out = s.sendBuf.readFromBuffer sendBuffToSocket k s.lengthToSend := ⟨_, rfl⟩
  rw [← hout] at hd ⊢
  dsimp only
  obtain ⟨t, ht⟩ : ∃ t : CSocket, t = { s with pSendMsgBuf := some b } := ⟨_, rfl⟩
  have htb : t.sendBuf = b := by rw [ht]; rfl
  rw [← ht]
  have hok : t.SendOk :=
    ⟨htb ▸ hd.ok, htb ▸ hd.size.trans h.size, by rw [ht]; exact h.isOpen, by rw [ht]; exact h.bounded⟩
  have hleft : t.pending = s.pending.drop (s.resent k) := by
    rw [pending_eq, pending_eq, htb]
    exact hd.left
  have hlen : s.pending.length = s.sendBuf.filledLength := by rw [pending_eq, h.buffer.length_contents]
  have hsent : k'.sent = k.sent ++ s.pending.take (s.resent k) := by
    rw [pending_eq]
    exact hd.sent
  have hcons : k'.sent ++ t.pending = k.sent ++ s.pending := by
    rw [hsent, hleft, List.append_assoc, List.take_append_drop]
  have hfree : t.sendBuf.freeLength = s.sendBuf.freeLength + s.resent k := by
    have h1 := h.buffer.sum
    have h2 := h.size
    rw [hok.free, hleft, List.length_drop]
    omega
  have hfilled : b.filledLength = s.sendBuf.filledLength - s.resent k := by
    rw [← hlen, ← List.length_drop, ← hleft, pending_eq, htb, hd.ok.length_contents]
  have hret : 0 < s.resent k → ret = s.resent k := hd.ret
  have hnone : s.resent k = 0 → ret ≤ 0 := hd.none
  split_ifs with hpos' hall hmore hpart hzero
  · have hfull : s.resent k = s.lengthToSend := by omega
    have honce := hc.once ho hfull (by omega)
    rw [← hfull, ← hfree] at honce
    exact hok.keep_behind hcons honce
  · have hfull : s.resent k = s.sendBuf.filledLength := by omega
    have hempty : s.pending.length ≤ s.resent k := by omega
    refine ⟨hok, .turn (.all ho hfull) (by rw [hleft, List.drop_eq_nil_of_le hempty]) ?_ hd.answers⟩
    rw [hsent, List.take_of_length_le hempty]
  · have hpos'' : 0 < s.resent k := by omega
    exact ⟨hok, .waits (.part ho hpos'' (by omega)) hcons hfree⟩
  · omega
  · exact ⟨hok, .failed (by simp) (by simp) hcons⟩
  · have hzero' : s.resent k = 0 := by omega
    have herr : k.answer 0 = .fail k'.errno := hd.errno (by dsimp only; omega)
    refine ⟨hok, ?_⟩
    cases he : k'.errno with
    | wouldBlock => exact .waits (.blocked ho hzero' (by rw [herr, he])) hcons (by rw [hfree, hzero'])
    | pipe => exact .failed (by simp [Errno.code]) (by simp [Errno.code]) hcons
    | other => exact .failed (by simp [Errno.code]) (by simp [Errno.code]) hcons

def ready (s : CSocket) : CSocket := { s with writeNeedSelect := false }

lemma Waits.of_ready (hr : k.select = .ready) {n : ℕ} (h : Waits s.ready { k with selects := k.selects.tail } n) :
    Waits s k n := by
  cases h with
  | timeout _ h => exact absurd h (by simp [ready])
  | select _ h => exact absurd h (by simp [ready])
  | blocked ho h0 ha => exact .blocked ⟨ho.1, fun _ => hr⟩ h0 ha
  | part ho h0 hlt => exact .part ⟨ho.1, fun _ => hr⟩ h0 hlt

lemma Drains.of_ready (hr : k.select = .ready) {i : ℕ} (h : Drains s.ready { k with selects := k.selects.tail } i) :
    Drains s k i := by
  cases h with
  | empty h => exact .empty h
  | all ho h => exact .all ⟨ho.1, fun _ => hr⟩ h

lemma Stage.of_ready (hr : k.select = .ready) {ret : ℤ} {s' : CSocket} {k' : Kernel}
    (h : Stage s.ready { k with selects := k.selects.tail } code ret s' k') : Stage s k code ret s' k' := by
  cases h with
  | turn hd hp hs ha => exact .turn (hd.of_ready hr) hp hs ha
  | waits hw hc hf => exact .waits (hw.of_ready hr) hc hf
  | once hc hf => exact .once hc hf
  | failed h1 h2 hc => exact .failed h1 h2 hc

lemma Clean.ready (h : Clean s k code) (hr : k.select = .ready) :
    Clean s.ready { k with selects := k.selects.tail } code where
  pieces ho := h.pieces ⟨ho.1, fun _ => hr⟩
  once ho := h.once ⟨ho.1, fun _ => hr⟩
  room n hw := h.room n (hw.of_ready hr)
  rest i hd := h.rest i (hd.of_ready hr)

lemma SendOk.resendTurn (h : s.SendOk) (hu : s.hasUnsentCode) (hc : Clean s k code) :
    (resendTurn code 1 s k).2.1.SendOk ∧
      Stage s k code (resendTurn code 1 s k).1 (resendTurn code 1 s k).2.1 (resendTurn code 1 s k).2.2 := by
  rw [CSocket.resendTurn]
  by_cases hn : s.writeNeedSelect
  · rw [if_pos hn, preSendProcess]
    cases hsel : k.select with
    | ready =>
      have hready := SendOk.unsent (s := s.ready) ⟨h.buffer, h.size, h.isOpen, h.bounded⟩
        ⟨hu, fun h => absurd h (by simp [CSocket.ready])⟩ (hc.ready hsel)
      exact ⟨hready.1, hready.2.of_ready hsel⟩
    | timeout => exact ⟨h, .waits (.timeout hu hn hsel) rfl rfl⟩
    | fail e =>
      cases e with
      | wouldBlock => exact ⟨h, .waits (.select hu hn hsel) rfl rfl⟩
      | pipe =>
        refine ⟨h, ?_⟩
        change Stage s k code (-9) s _
        exact .failed (by decide) (by decide) rfl
      | other =>
        refine ⟨h, ?_⟩
        change Stage s k code (-1) s _
        exact .failed (by decide) (by decide) rfl
  · rw [if_neg hn]
    exact h.unsent ⟨hu, fun h => absurd h hn⟩ hc

lemma Stage.hasUnsentCode {ret : ℤ} {s' : CSocket} {k' : Kernel} (h : Stage s k code ret s' k') (hs : s'.SendOk) :
    ¬(s'.hasUnsentCode ∧ ret = 1) := by
  rintro ⟨hu, rfl⟩
  cases h with
  | turn _ hp _ _ =>
    rw [hasUnsentCode_iff, ← hs.buffer.length_contents, ← pending_eq, hp] at hu
    exact absurd hu (lt_irrefl 0)
  | failed h1 _ _ => exact h1 rfl

lemma SendOk.resend (h : s.SendOk) (hc : Clean s k code) {fuel : ℕ} {ret : ℤ} {s' : CSocket} {k' : Kernel}
    (hr : resend code fuel 1 s k = some (ret, s', k')) : s'.SendOk ∧ Stage s k code ret s' k' := by
  cases fuel with
  | zero => exact absurd hr (by simp [CSocket.resend])
  | succ fuel =>
    rw [CSocket.resend] at hr
    by_cases hu : s.hasUnsentCode
    · have ht := h.resendTurn hu hc
      rw [if_pos ⟨hu, rfl⟩] at hr
      generalize CSocket.resendTurn code 1 s k = out at ht hr
      obtain ⟨ret₁, s₁, k₁⟩ := out
      dsimp only at hr
      cases fuel with
      | zero => exact absurd hr (by simp [CSocket.resend])
      | succ fuel =>
        rw [CSocket.resend, if_neg (ht.2.hasUnsentCode ht.1)] at hr
        cases hr
        exact ht
    · rw [if_neg fun hc => hu hc.1] at hr
      cases hr
      have hempty : s.pending = [] := by
        rw [hasUnsentCode_iff, ← h.buffer.length_contents, ← pending_eq] at hu
        exact List.length_eq_zero_iff.mp (by omega)
      exact ⟨h, .turn (.empty hu) hempty (by rw [hempty, List.append_nil]) rfl⟩

def added (ret : ℤ) (code : CCode) : List UInt8 := if ret = 1 ∨ ret = -2 then code.content else []

def Adds (s : CSocket) (k : Kernel) (code : CCode) (out : ℤ × CSocket × Kernel) : Prop :=
  out.2.1.SendOk ∧ out.2.2.sent ++ out.2.1.pending = k.sent ++ s.pending ++ added out.1 code

lemma SendOk.keep {t : CSocket} {k' : Kernel} (h : t.SendOk) {n : ℕ}
    (hcons : k'.sent ++ t.pending = k.sent ++ s.pending ++ code.content.take n)
    (hfit : t.sendBuf.freeLength < maxEmergencyLength → code.content.length - n ≤ t.sendBuf.freeLength)
    (hn : n = 0 ∨ ¬Refused t.sendBuf.freeLength (code.content.length - n) code.flag) :
    Adds s k code (t.backup k' code n) := by
  have hlen : (code.content.drop n).length = code.content.length - n := List.length_drop
  have hb := h.backup (code.content.drop n) (by have := code.fits; omega) code.flag
  refine ⟨hb.ok, ?_⟩
  change k'.sent ++ (t.backupToSendBuff (code.content.drop n) code.flag).2.pending =
    k.sent ++ s.pending ++ added (t.backupToSendBuff (code.content.drop n) code.flag).1 code
  by_cases hr : Refused t.sendBuf.freeLength (code.content.length - n) code.flag
  · obtain ⟨hret, hpend⟩ := hb.refused (hlen ▸ hr)
    have hn0 := hn.resolve_right fun h => h hr
    rw [hret, hpend, hcons, hn0]
    simp [added]
  · obtain ⟨hret, hpend⟩ := hb.kept (hlen ▸ hr)
    rw [List.take_of_length_le (hlen ▸ fits_of_not_refused hr hfit)] at hpend
    rw [hret, hpend, ← List.append_assoc, hcons, List.append_assoc, List.take_append_drop]
    simp [added]

lemma SendOk.sendDirect {t : CSocket} {k' : Kernel} (h : t.SendOk) {i : ℕ} (hd : s.Drains k i) (hc : Clean s k code)
    (hp : t.pending = []) (hs : k'.sent = k.sent ++ s.pending) (ha : k'.answers = k.answers.drop i) :
    Adds s k code (t.sendDirect k' code) := by
  have hfree : t.sendBuf.freeLength = maxMsgLength := by rw [h.free, hp, List.length_nil, Nat.sub_zero]
  have hanswer : k'.answer 0 = k.answer i := by
    rw [Kernel.answer, Kernel.answer, ha]
    simp [List.getD_eq_getElem?_getD]
  have hle := (k.answer i).takes_le code.content.length
  rw [CSocket.sendDirect]
  split_ifs with h0
  · refine ⟨h, ?_⟩
    dsimp only
    rw [hs, hp, added, List.length_eq_zero_iff.mp h0, ite_self]
  obtain ⟨k₂, hk₂⟩ : ∃ k₂, k₂ = (k'.send code.content).2 := ⟨_, rfl⟩
  have hsent : k₂.sent ++ t.pending =
      k.sent ++ s.pending ++ code.content.take ((k.answer i).takes code.content.length) := by
    rw [hk₂, hp, List.append_nil, Kernel.send, hanswer, hs]
  have hret : (k'.send code.content).1 = (k.answer i).result code.content.length := by rw [Kernel.send, hanswer]
  have hpair : k'.send code.content = ((k.answer i).result code.content.length, k₂) := by rw [← hret, hk₂]
  have hroom : t.sendBuf.freeLength < maxEmergencyLength → ∀ n, code.content.length - n ≤ t.sendBuf.freeLength := by
    rw [hfree]
    intro hlt
    exact absurd hlt (by decide)
  rw [hpair]
  dsimp only
  rcases Nat.eq_zero_or_pos ((k.answer i).takes code.content.length) with ht | ht
  · have hr : ¬0 < (k.answer i).result code.content.length := fun hr => (SendResult.takes_of_result hr).ne' ht
    rw [ht, List.take_zero, List.append_nil] at hsent
    rw [if_neg hr]
    split_ifs with hz hb
    · exact ⟨h, by simp [added, hsent]⟩
    · exact h.keep (by rw [hsent, List.take_zero, List.append_nil]) (fun hlt => hroom hlt 0) (.inl rfl)
    · refine ⟨h, ?_⟩
      dsimp only
      rw [hsent]
      cases he : k₂.errno with
      | wouldBlock => exact absurd he hb
      | pipe => simp [added, Errno.code]
      | other => simp [added, Errno.code]
  · rw [SendResult.result_of_takes ht, if_pos (by omega)]
    split_ifs with hall
    · refine ⟨h, ?_⟩
      dsimp only
      rw [hsent, List.take_of_length_le (by omega), added, if_pos (.inl rfl)]
    · rw [Int.toNat_natCast]
      refine h.keep hsent (fun hlt => hroom hlt _) (.inr ?_)
      rw [hfree]
      exact hc.rest i hd ht (by omega)

lemma SendOk.keep_again {t : CSocket} {k' : Kernel} (h : t.SendOk)
    (hcons : k'.sent ++ t.pending = k.sent ++ s.pending ++ code.content)
    (hf : code.content = [] ∨ t.sendBuf.freeLength = 0) : Adds s k code (t.backup k' code 0) := by
  have hb := h.backup code.content code.fits code.flag
  have hr : ¬Refused t.sendBuf.freeLength code.content.length code.flag := by
    rintro ⟨h1, h2, -⟩
    rcases hf with h0 | h0
    · simp [h0] at h2
    · rw [h0] at h1
      exact absurd h1 (by decide)
  have hnone : code.content.take t.sendBuf.freeLength = [] := by
    rcases hf with h0 | h0
    · rw [h0, List.take_nil]
    · rw [h0, List.take_zero]
  obtain ⟨hret, hp⟩ := hb.kept hr
  refine ⟨hb.ok, ?_⟩
  change k'.sent ++ (t.backupToSendBuff code.content code.flag).2.pending =
    k.sent ++ s.pending ++ added (t.backupToSendBuff code.content code.flag).1 code
  rw [hret, hp, hnone, List.append_nil, hcons, added, if_pos (.inr rfl)]

lemma SendOk.sendMessage (h : s.SendOk) (hc : Clean s k code) {fuel : ℕ} {out : ℤ × CSocket × Kernel}
    (hm : s.sendMessage fuel k code = some out) : Adds s k code out := by
  rw [CSocket.sendMessage, if_neg (by rw [h.isOpen]; decide)] at hm
  cases hr : CSocket.resend code fuel 1 s k with
  | none => simp [hr] at hm
  | some mid =>
    obtain ⟨ret, t, k'⟩ := mid
    obtain ⟨ht, hstage⟩ := h.resend hc hr
    simp only [hr, Option.bind_eq_bind, Option.bind_some] at hm
    cases hstage with
    | turn hd hp hs ha =>
      rw [if_pos rfl] at hm
      cases hm
      exact ht.sendDirect hd hc hp hs ha
    | waits hw hcons hf =>
      rw [if_neg (by decide), if_pos rfl] at hm
      cases hm
      refine ht.keep (by rw [hcons, List.take_zero, List.append_nil]) ?_ (.inl rfl)
      rw [hf]
      exact hc.room _ hw
    | once hcons hf =>
      rw [if_neg (by decide), if_pos rfl] at hm
      cases hm
      exact ht.keep_again hcons hf
    | failed h1 h2 hcons =>
      rw [if_neg h1, if_neg h2] at hm
      cases hm
      refine ⟨ht, ?_⟩
      dsimp only
      rw [hcons, added, if_neg (by simp [h1, h2]), List.append_nil]

lemma sendBuffToSocket_le (k : Kernel) (src : List UInt8) (n : ℕ) : (sendBuffToSocket k src n).1 ≤ n := by
  have h1 := (k.answer 0).result_le (src.take n).length
  have h2 : (src.take n).length ≤ n := by
    rw [List.length_take]
    exact min_le_left _ _
  rw [sendBuffToSocket, Kernel.send]
  dsimp only
  omega

lemma backupToSendBuff_ne (s : CSocket) (content : List UInt8) (flag : CodeFlag) :
    (s.backupToSendBuff content flag).1 ≠ 1 := by
  rw [backupToSendBuff]
  split_ifs <;> simp

lemma code_ne (e : Errno) : e.code ≠ 1 := by
  cases e with
  | wouldBlock => decide
  | pipe => decide
  | other => decide

lemma SendOk.unsent_all (h : s.SendOk) (hr : (s.sendUnsentCode k code).1 = 1) :
    ¬(s.sendUnsentCode k code).2.1.hasUnsentCode := by
  have hb := h.bounded
  cases hs : s.pSendMsgBuf with
  | none => simp [sendUnsentCode, hs, hasUnsentCode]
  | some buf =>
    rw [sendUnsentCode, hs] at hr ⊢
    dsimp only at hr ⊢
    generalize hn : (if s.socketSendBufSize ≤ buf.filledLength then s.socketSendBufSize else buf.filledLength) = n
      at hr ⊢
    split_ifs at hr ⊢ with h0 hpos hall hmore hpart hzero
    · rw [hasUnsentCode, hs]
      simp
      split_ifs at hn <;> omega
    · exact absurd hr (backupToSendBuff_ne _ _ _)
    · rw [hasUnsentCode]
      simpa using hmore
    · exact absurd hr (by simp)
    · have := TBuffer.readFromBuffer_le (b := buf) sendBuffToSocket_le k n
      omega
    · exact absurd hr (by simp)
    · exact absurd hr (code_ne _)

lemma SendOk.resendTurn_all (h : s.SendOk) :
    ¬((CSocket.resendTurn code 1 s k).2.1.hasUnsentCode ∧ (CSocket.resendTurn code 1 s k).1 = 1) := by
  rintro ⟨hleft, hr⟩
  rw [CSocket.resendTurn] at hleft hr
  by_cases hn : s.writeNeedSelect
  · rw [if_pos hn, preSendProcess] at hleft hr
    cases hsel : k.select with
    | ready =>
      rw [hsel] at hleft hr
      have hok : s.ready.SendOk := ⟨h.buffer, h.size, h.isOpen, h.bounded⟩
      exact hok.unsent_all hr hleft
    | timeout =>
      rw [hsel] at hr
      exact absurd hr (by simp)
    | fail e =>
      rw [hsel] at hr
      dsimp only at hr
      rw [if_neg (code_ne e)] at hr
      exact code_ne e hr
  · rw [if_neg hn] at hleft hr
    exact h.unsent_all hr hleft

lemma SendOk.exists_sendMessage (h : s.SendOk) (k : Kernel) (code : CCode) :
    ∃ fuel out, s.sendMessage fuel k code = some out := by
  obtain ⟨mid, hmid⟩ : ∃ mid, CSocket.resend code 2 1 s k = some mid := by
    rw [CSocket.resend]
    split
    · refine ⟨CSocket.resendTurn code 1 s k, ?_⟩
      dsimp only
      rw [CSocket.resend, if_neg h.resendTurn_all]
    · exact ⟨_, rfl⟩
  refine ⟨2, ?_⟩
  rw [CSocket.sendMessage, hmid]
  split
  · exact ⟨_, rfl⟩
  simp only [Option.bind_eq_bind, Option.bind_some]
  split
  · exact ⟨_, rfl⟩
  split
  · exact ⟨_, rfl⟩
  · exact ⟨_, rfl⟩

lemma Clean.of_idle (hu : s.hasUnsentCode = false)
    (hrest : (k.answer 0).takes code.content.length = 0 ∨
      code.content.length - (k.answer 0).takes code.content.length ≤ maxMsgLength - maxEmergencyLength) :
    Clean s k code where
  pieces ho := by simp [Offered, hu] at ho
  once ho := by simp [Offered, hu] at ho
  room n hw := by
    cases hw with
    | timeout h => simp [hu] at h
    | select h => simp [hu] at h
    | blocked h => simp [Offered, hu] at h
    | part h => simp [Offered, hu] at h
  rest i hd h0 _ hr := by
    cases hd with
    | empty =>
      have := hr.2.1
      omega
    | all h => simp [Offered, hu] at h

lemma Clean.of_drained (ho : s.Offered k) (hlt : s.sendBuf.pBufHead < s.sendBuf.pBufTail)
    (hall : s.resent k = s.sendBuf.filledLength)
    (hrest : (k.answer 1).takes code.content.length = 0 ∨
      code.content.length - (k.answer 1).takes code.content.length ≤ maxMsgLength - maxEmergencyLength) :
    Clean s k code := by
  have hn : s.lengthToSend ≤ s.sendBuf.filledLength := min_le_right _ _
  have hle : s.resent k ≤ s.lengthToSend := TBuffer.taken_le
  have hpos := hasUnsentCode_iff.mp ho.1
  have hone : ¬s.sendBuf.Second k s.lengthToSend := fun h => by
    have := h.1
    rw [TBuffer.firstPiece, if_pos hlt] at this
    omega
  refine ⟨fun _ h => absurd h hone, fun _ _ h => absurd h (by omega), fun n hw => ?_, fun i hd h0 _ hr => ?_⟩
  · cases hw with
    | timeout _ h1 h2 => exact absurd (h2.symm.trans (ho.2 h1)) (by simp)
    | select _ h1 h2 => exact absurd (h2.symm.trans (ho.2 h1)) (by simp)
    | blocked _ h => omega
    | part _ _ h => omega
  · cases hd with
    | empty h => exact absurd ho.1 h
    | all =>
      have hr' := hr.2.1
      rw [TBuffer.offers, if_neg hone] at h0 hr'
      omega

end CSocket

namespace Outgoing

def CleanStep (o : Outgoing) (e : Event) (o' : Outgoing) : Prop :=
  Step o e o' ∧ ∀ code answers selects ret, e = .sendMessage code answers selects ret →
    o.socket.Clean (o.facing answers selects) code

lemma step_bytes {o o' : Outgoing} {e : Event} (ho : o.socket.SendOk) (h : CleanStep o e o') :
    o'.socket.SendOk ∧ o'.bytes = o.bytes ++ accepted e := by
  obtain ⟨hstep, hclean⟩ := h
  cases hstep with
  | sendMessage _ hm => exact ho.sendMessage (hclean _ _ _ _ rfl) hm
  | needSelect => exact ⟨⟨ho.buffer, ho.size, ho.isOpen, ho.bounded⟩, (List.append_nil _).symm⟩
  | @setSendBufSize n =>
    rw [CSocket.setSendBufSize]
    split
    · exact ⟨⟨ho.buffer, ho.size, ho.isOpen, by dsimp only; omega⟩, (List.append_nil _).symm⟩
    · exact ⟨ho, (List.append_nil _).symm⟩

lemma start_ok : start.socket.SendOk :=
  ⟨TBuffer.new_ok _, rfl, rfl, by decide⟩

lemma run_bytes {es : List Event} {o : Outgoing} (h : Run CleanStep start es o) :
    o.socket.SendOk ∧ o.bytes = stream es := by
  refine h.invariant (I := fun es o => o.socket.SendOk ∧ o.bytes = stream es) ⟨start_ok, rfl⟩ ?_
  intro es o e o' ⟨ho, hbytes⟩ hstep
  obtain ⟨ho', hbytes'⟩ := step_bytes ho hstep
  refine ⟨ho', ?_⟩
  rw [hbytes', hbytes, stream, stream, List.map_append, List.flatten_append]
  simp

theorem stream_intact {es : List Event} {o : Outgoing} (h : Run CleanStep start es o) :
    o.bytes = stream es ∧
      ∀ code answers selects, ∃ ret o', Step o (.sendMessage code answers selects ret) o' := by
  obtain ⟨ho, hbytes⟩ := run_bytes h
  refine ⟨hbytes, fun code answers selects => ?_⟩
  obtain ⟨fuel, ⟨ret, s, k⟩, hm⟩ := ho.exists_sendMessage (o.facing answers selects) code
  exact ⟨ret, ⟨s, k⟩, .sendMessage fuel hm⟩

def packet (content : List UInt8) (h : content.length < 2 ^ 31) : CCode := ⟨content, .normal, h⟩

theorem waiting_packet_intact :
    ∃ o, Run CleanStep start [.sendMessage (packet [1, 2] (by decide)) [] [] (-2), .needSelect,
        .sendMessage (packet [3] (by decide)) [.wrote 1, .wrote 0] [.ready] 1] o ∧
      (o.bytes = [1, 2, 3] ∧
        ∀ code answers selects, ∃ ret o', Step o (.sendMessage code answers selects ret) o') := by
  obtain ⟨o, ho⟩ : ∃ o, Run CleanStep start [.sendMessage (packet [1, 2] (by decide)) [] [] (-2), .needSelect,
      .sendMessage (packet [3] (by decide)) [.wrote 1, .wrote 0] [.ready] 1] o ∧ True := by
    refine Run.exists_cons ⟨.sendMessage 2 rfl, ?_⟩ ?_
    · rintro _ _ _ _ ⟨⟩
      exact CSocket.Clean.of_idle (by decide) (by decide)
    refine Run.exists_cons ⟨.needSelect, by simp⟩ ?_
    refine Run.exists_cons ⟨.sendMessage 2 rfl, ?_⟩ ⟨_, .nil, trivial⟩
    rintro _ _ _ _ ⟨⟩
    exact CSocket.Clean.of_drained ⟨by decide, fun _ => rfl⟩ (by decide) (by decide) (by decide)
  exact ⟨o, ho.1, stream_intact ho.1⟩

theorem packet_doubled :
    ∃ o, Run Step start [.setSendBufSize 1, .sendMessage (packet [1, 2] (by decide)) [] [] (-2),
        .sendMessage (packet [3] (by decide)) [.wrote 0] [] (-2)] o ∧
      o.kernel.sent = [1] ∧ o.socket.pending = [2, 3, 3] ∧
      o.bytes ≠ stream [.setSendBufSize 1, .sendMessage (packet [1, 2] (by decide)) [] [] (-2),
        .sendMessage (packet [3] (by decide)) [.wrote 0] [] (-2)] := by
  refine Run.exists_cons .setSendBufSize ?_
  refine Run.exists_cons (.sendMessage 2 rfl) ?_
  refine Run.exists_cons (.sendMessage 2 rfl) ?_
  exact ⟨_, .nil, by decide, by decide, by decide⟩

end Outgoing

end Xframe.Comserv
