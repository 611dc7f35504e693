import Xframe.Comserv.SocketStream

/-! `backupToSendBuff` keeps a packet whole or refuses it, as long as the reserve for emergency packets is free:
the unsigned comparison with `freeLength() - MaxEmergencyLength` holds for every packet once it is not. -/

namespace Xframe.Comserv.CSocket

variable {s : CSocket} {content : List UInt8} {flag : CodeFlag}

def afterBackup (s : CSocket) (content : List UInt8) (flag : CodeFlag) : TBuffer := (s.backupToSendBuff content flag).2.sendBuf

def Appended (s : CSocket) (content : List UInt8) (flag : CodeFlag) : Prop :=
  (s.backupToSendBuff content flag).1 = -2 ∧ (s.afterBackup content flag).contents = s.sendBuf.contents ++ content

def Discarded (s : CSocket) (content : List UInt8) (flag : CodeFlag) : Prop :=
  (s.backupToSendBuff content flag).1 = -5 ∧ s.afterBackup content flag = s.sendBuf

structure BacksUp (s : CSocket) (content : List UInt8) (flag : CodeFlag) : Prop where
  whole : Appended s content flag ∨ Discarded s content flag
  reserve : flag ≠ .emergency → Appended s content flag → maxEmergencyLength ≤ (s.afterBackup content flag).freeLength
  emergency : flag = .emergency → content.length ≤ s.sendBuf.freeLength → Appended s content flag

def Admits (s : CSocket) (content : List UInt8) (flag : CodeFlag) : Prop :=
  s.sendBuf.freeLength < maxEmergencyLength ∨ content.length + maxEmergencyLength ≤ s.sendBuf.freeLength ∨
    flag = .emergency ∧ content.length ≤ s.sendBuf.freeLength

lemma unsigned_test {n free : ℕ} (hn : n < 2 ^ 31) (hfree : free < 2 ^ 31) :
    n ≤ (free + 2 ^ 32 - maxEmergencyLength) % 2 ^ 32 ↔
      free < maxEmergencyLength ∨ n + maxEmergencyLength ≤ free := by
  rw [maxEmergencyLength]
  omega

lemma backupToSendBuff_spec (h : s.sendBuf.Ok) (hsize : s.sendBuf.size < 2 ^ 31) (hlen : content.length < 2 ^ 31) :
    (Admits s content flag → s.backupToSendBuff content flag =
      (-2, { s with pSendMsgBuf := some (s.sendBuf.writeIntoBuffer (writeToBuff content) () content.length).2.1 })) ∧
    (¬Admits s content flag → s.backupToSendBuff content flag = (-5, { s with pSendMsgBuf := some s.sendBuf })) := by
  have hsum := h.sum
  have htest := unsigned_test hlen (show s.sendBuf.freeLength < 2 ^ 31 by omega)
  have hsend : s.pSendMsgBuf.getD (TBuffer.new maxMsgLength) = s.sendBuf := rfl
  rw [backupToSendBuff, hsend]
  simp only [htest, Admits]
  constructor
  · rintro (hlt | hle | hem)
    · rw [if_pos (.inl hlt)]
    · rw [if_pos (.inr hle)]
    · rw [if_pos hem, ite_self]
  · intro ha
    rw [not_or, not_or] at ha
    rw [if_neg (not_or.mpr ⟨ha.1, ha.2.1⟩), if_neg ha.2.2]

lemma admitted (h : s.sendBuf.Ok) (hsize : s.sendBuf.size < 2 ^ 31) (hlen : content.length < 2 ^ 31)
    (ha : Admits s content flag) :
    (s.backupToSendBuff content flag).1 = -2 ∧ (s.afterBackup content flag).Ok ∧
      (s.afterBackup content flag).contents = s.sendBuf.contents ++ content.take s.sendBuf.freeLength ∧
      (s.afterBackup content flag).size = s.sendBuf.size := by
  rw [afterBackup, (backupToSendBuff_spec h hsize hlen).1 ha]
  exact ⟨rfl, h.write_copy content⟩

lemma not_admitted (h : s.sendBuf.Ok) (hsize : s.sendBuf.size < 2 ^ 31) (hlen : content.length < 2 ^ 31)
    (ha : ¬Admits s content flag) : Discarded s content flag := by
  rw [Discarded, afterBackup, (backupToSendBuff_spec h hsize hlen).2 ha]
  exact ⟨rfl, rfl⟩

lemma appended_iff (h : s.sendBuf.Ok) (hsize : s.sendBuf.size < 2 ^ 31) (hlen : content.length < 2 ^ 31) :
    Appended s content flag ↔ Admits s content flag ∧ content.length ≤ s.sendBuf.freeLength := by
  by_cases ha : Admits s content flag
  · obtain ⟨hret, -, hcontents, -⟩ := admitted h hsize hlen ha
    rw [Appended, hcontents, List.append_cancel_left_eq, List.take_eq_self_iff]
    exact ⟨fun h => ⟨ha, h.2⟩, fun h => ⟨hret, h.2⟩⟩
  · refine ⟨fun happ => ?_, fun h => absurd h.1 ha⟩
    have hret := (not_admitted h hsize hlen ha).1
    rw [happ.1] at hret
    omega

lemma freeLength_afterBackup (h : s.sendBuf.Ok) (hsize : s.sendBuf.size < 2 ^ 31) (hlen : content.length < 2 ^ 31)
    (happ : Appended s content flag) :
    (s.afterBackup content flag).freeLength + content.length = s.sendBuf.freeLength := by
  have hadm := (appended_iff h hsize hlen).mp happ
  obtain ⟨-, hok, -, hsame⟩ := admitted h hsize hlen hadm.1
  have hsum := h.sum
  have hsum' := hok.sum
  have hfilled := hok.length_contents
  rw [happ.2, List.length_append, h.length_contents] at hfilled
  omega

theorem backupToSendBuff_iff (h : s.sendBuf.Ok) (hsize : s.sendBuf.size < 2 ^ 31) (code : CCode) :
    BacksUp s code.content code.flag ↔
      maxEmergencyLength ≤ s.sendBuf.freeLength ∨
        code.flag = .emergency ∧ code.content.length ≤ s.sendBuf.freeLength := by
  have hiff : Appended s code.content code.flag ↔ _ := appended_iff h hsize code.fits
  have hfree : Appended s code.content code.flag → _ := freeLength_afterBackup h hsize code.fits
  constructor
  · intro hb
    by_contra hnot
    rw [not_or, Nat.not_le] at hnot
    obtain ⟨hlt, hflag⟩ := hnot
    have hadm : Admits s code.content code.flag := .inl hlt
    have happ : Appended s code.content code.flag := by
      refine hb.whole.resolve_right fun hr => ?_
      have hret := (admitted h hsize code.fits hadm).1
      rw [hr.1] at hret
      omega
    have hres := hb.reserve (fun hem => hflag ⟨hem, (hiff.mp happ).2⟩) happ
    have hsum := hfree happ
    omega
  · intro hcond
    refine ⟨?_, fun hflag happ => ?_, fun hflag hle => hiff.mpr ⟨.inr (.inr ⟨hflag, hle⟩), hle⟩⟩
    · by_cases ha : Admits s code.content code.flag
      · refine .inl (hiff.mpr ⟨ha, ?_⟩)
        rcases hcond with hge | ⟨-, hle⟩
        · rcases ha with hlt | hle | ⟨-, hle⟩
          · omega
          · omega
          · exact hle
        · exact hle
      · exact .inr (not_admitted h hsize code.fits ha)
    · have hge := hcond.resolve_right fun hem => hflag hem.1
      have hsum := hfree happ
      rcases (hiff.mp happ).1 with hlt | hle | hem
      · omega
      · omega
      · exact absurd hem.1 hflag

theorem backupToSendBuff_iff_connected :
    BacksUp connected [1] .normal ↔
      maxEmergencyLength ≤ connected.sendBuf.freeLength ∨
        CodeFlag.normal = .emergency ∧ 1 ≤ connected.sendBuf.freeLength :=
  backupToSendBuff_iff (s := connected) (TBuffer.new_ok maxMsgLength) (by decide) ⟨[1], .normal, by decide⟩

def pressed : CSocket := (connected.backupToSendBuff (List.replicate 40961 0) .emergency).2

theorem backupToSendBuff_cuts :
    (pressed.backupToSendBuff (List.replicate 40960 1) .normal).1 = -2 ∧
      (pressed.afterBackup (List.replicate 40960 1) .normal).contents = List.replicate 40961 0 ++ List.replicate 40959 1 ∧
      ¬BacksUp pressed (List.replicate 40960 1) .normal := by
  have hok : connected.sendBuf.Ok := TBuffer.new_ok maxMsgLength
  have hfree : connected.sendBuf.freeLength = 81920 := rfl
  have hlen (n : ℕ) (b : UInt8) : (List.replicate n b).length = n := List.length_replicate
  have hadm : Admits connected (List.replicate 40961 0) .emergency := .inr (.inr ⟨rfl, by rw [hlen, hfree]; omega⟩)
  obtain ⟨-, hok', hcontents, hsize⟩ := admitted hok (by decide) (by rw [hlen]; omega) hadm
  have happ := (appended_iff hok (by decide) (by rw [hlen]; omega)).mpr ⟨hadm, by rw [hlen, hfree]; omega⟩
  have hsum := freeLength_afterBackup hok (by decide) (by rw [hlen]; omega) happ
  rw [hlen, hfree] at hsum
  have hpressed : connected.afterBackup (List.replicate 40961 0) .emergency = pressed.sendBuf := by
    rw [afterBackup, pressed]
  rw [hpressed] at hok' hcontents hsize hsum
  have hleft : pressed.sendBuf.freeLength = 40959 := Nat.add_right_cancel hsum
  have hsize' : pressed.sendBuf.size < 2 ^ 31 := by
    rw [hsize]
    decide
  have hlt : pressed.sendBuf.freeLength < maxEmergencyLength := by
    rw [hleft, maxEmergencyLength]
    omega
  obtain ⟨hret, -, hcut, -⟩ := admitted (s := pressed) hok' hsize' (by rw [hlen]; omega)
    (show Admits pressed (List.replicate 40960 1) .normal from .inl hlt)
  refine ⟨hret, ?_, fun hb => ?_⟩
  · rw [hcut, hleft, List.take_replicate]
    rw [hcontents, hfree, List.take_replicate]
    rfl
  · rcases hb.whole with happ' | hdis
    · have hle := ((appended_iff (s := pressed) hok' hsize' (by rw [hlen]; omega)).mp happ').2
      rw [hlen] at hle
      omega
    · rw [hdis.1] at hret
      omega

end Xframe.Comserv.CSocket
