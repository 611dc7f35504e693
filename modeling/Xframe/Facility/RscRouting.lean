import Xframe.Comserv.CListAnswers
import Xframe.Facility.PsaRscTask

/-! Where `TPsaRscTask::procMsg` sends an `rsc` message that comes from the network: the search of
`mTaskMapping` with the list's own cursor, and the address that the message gets. -/

namespace Xframe.Comserv.CList

variable {V : Type}

/-- Off the list `current_r` ends without a `return`. -/
def currentR (b : CList V) : Option V :=
  if b.pCurrent ≠ b.pTag ∧ b.pCurrent ≠ 0 then b.valueAt b.pCurrent else none

lemma currentR_eq {b : CList V} {s : CursorSeq V} {x : ℕ × V} {r : List (ℕ × V)} (h : b.Represents s)
    (ha : s.after = x :: r) : b.currentR = some x.2 := by
  have hl := h.linked_at (items_of_after_cons ha)
  have hz : b.pCurrent ≠ 0 := by
    rw [current_of_after_cons h ha]
    exact hl.ne_zero
  rw [currentR, if_pos ⟨current_ne_tag h ha, hz⟩, valueAt_current h ha]

end Xframe.Comserv.CList

namespace Xframe.Facility

open Xframe.Comserv Xframe.Msg Xframe.Lib Xframe.Transport

namespace TPsaRscTask

def search (ruri : CStr) : ℕ → CList STask → Option (Option ℕ × CList STask)
  | 0, _ => none
  | fuel + 1, mTaskMapping => do
    let st ← mTaskMapping.currentR
    if CStr.beginWith ruri st.regx then some (some st.taskid, mTaskMapping)
    else do
      let (more, mTaskMapping) ← mTaskMapping.next
      if more then search ruri fuel mTaskMapping else some (none, mTaskMapping)

def route (mTaskDefault : ℕ) (mTaskMapping : CList STask) (tAddr : TMsgAddress) (rschdr : TRscMsgHdr) :
    Option (TMsgAddress × CList STask) := do
  let (tAddr, mTaskMapping) ←
    if rschdr.host.user ≠ [] then some (TMsgAddress.decodeCStr tAddr rschdr.host.user, mTaskMapping)
    else if mTaskMapping.count = 0 then some (⟨mTaskDefault, 0, 0⟩, mTaskMapping)
    else do
      let (taskid, mTaskMapping) ← search rschdr.ruri mTaskMapping.count mTaskMapping.reset
      some (⟨taskid.getD tAddr.logAddr, 0, 0⟩, mTaskMapping)
  some ({ tAddr with logAddr := mTaskDefault }, mTaskMapping)

section Search

variable {mapping : CList STask} {q : CursorSeq STask} {fuel : ℕ}

lemma search_spec (h : mapping.Represents q) (hne : q.after ≠ []) (hf : q.after.length ≤ fuel) (ruri : CStr) :
    Returns (search ruri fuel mapping) fun (r, mapping') =>
      r = ((q.after.map Prod.snd).find? fun st => CStr.beginWith ruri st.regx).map STask.taskid ∧
        ∃ q', mapping'.Represents q' ∧ q'.items = q.items := by
  induction fuel generalizing mapping q with
  | zero => exact absurd (List.length_eq_zero_iff.mp (Nat.le_zero.mp hf)) hne
  | succ fuel ih =>
    obtain ⟨x, r, ha⟩ := List.exists_cons_of_ne_nil hne
    rw [search]
    refine .of_bind (CList.currentR_eq h ha) ?_
    by_cases hm : CStr.beginWith ruri x.2.regx
    · rw [if_pos hm, returns_some]
      exact ⟨by simp [ha, hm], q, h, rfl⟩
    rw [if_neg hm]
    refine (CList.next_refines h).bind ?_
    rintro ⟨more, mapping'⟩ ⟨hmore, hrep⟩
    dsimp only at hmore hrep ⊢
    rw [hmore]
    cases r with
    | nil =>
      have hnext : q.next = (false, q) := CList.next_of_single ha
      rw [hnext] at hrep ⊢
      rw [if_neg (by simp), returns_some]
      exact ⟨by simp [ha, hm], q, hrep, rfl⟩
    | cons y r =>
      have hnext : q.next = (true, { q with before := q.before ++ [x], after := y :: r }) := by
        rw [CursorSeq.next, ha]
      rw [hnext] at hrep ⊢
      rw [if_pos rfl]
      refine (ih hrep (by simp) ?_).mono ?_
      · rw [ha] at hf
        exact Nat.le_of_succ_le_succ hf
      · rintro ⟨r', mapping''⟩ ⟨hr, q', hq', hitems⟩
        refine ⟨?_, q', hq', hitems.trans ?_⟩
        · rw [hr, ha]
          simp [hm]
        · simp [CursorSeq.items, ha]

variable {t : TPsaRscTask}

lemma route_spec (h : mapping.Represents q) (ht : t.mTaskMapping = q.values) (rsc : TaskMsg) (rschdr : TRscMsgHdr) :
    Returns (route t.mTaskDefault mapping rsc.msg.tAddr rschdr) fun (tAddr, mapping') =>
      tAddr = t.target rsc rschdr ∧ ∃ q', mapping'.Represents q' ∧ q'.items = q.items := by
  rw [route, target]
  by_cases huser : rschdr.host.user ≠ []
  · rw [if_pos huser, if_pos huser]
    exact (returns_some _ _).mpr ⟨rfl, q, h, rfl⟩
  rw [if_neg huser, if_neg huser, ht]
  by_cases hitems : q.items = []
  · have hvalues : q.values = [] := by rw [CursorSeq.values, hitems]; rfl
    rw [if_pos ((CList.count_eq_zero h).mpr hitems), hvalues]
    exact (returns_some _ _).mpr ⟨rfl, q, h, rfl⟩
  · have hreset := CList.reset_refines h
    have hle : q.toFirst.after.length ≤ mapping.count := h.count.ge
    have hsearch := search_spec hreset hitems hle rschdr.ruri
    rw [if_neg fun hc => hitems ((CList.count_eq_zero h).mp hc)]
    have hvalues : q.toFirst.after.map Prod.snd = q.values := rfl
    obtain ⟨st, sts, hcons⟩ : ∃ st sts, q.values = st :: sts :=
      List.exists_cons_of_ne_nil fun hn => hitems (List.map_eq_nil_iff.mp hn)
    refine hsearch.bind ?_
    rintro ⟨taskid, mapping'⟩ ⟨htask, hrep⟩
    refine (returns_some _ _).mpr ⟨?_, hrep⟩
    rw [htask, hvalues, hcons]

end Search

def Encodes (user : CStr) (addr : TMsgAddress) : Prop :=
  ∃ logAddr phyAddr taskInstID, CStr.split (CStr.ofString "_") 3 user = [logAddr, phyAddr, taskInstID] ∧
    addr = ⟨TMsgAddress.uint (CStr.toInt logAddr), TMsgAddress.uint (CStr.toInt phyAddr),
      TMsgAddress.uint (CStr.toInt taskInstID)⟩

def firstMatch (mTaskMapping : List STask) (ruri : CStr) : Option STask :=
  mTaskMapping.find? fun st => CStr.beginWith ruri st.regx

def Addressee (t : TPsaRscTask) (rschdr : TRscMsgHdr) (addr : TMsgAddress) : Prop :=
  if rschdr.host.user ≠ [] then Encodes rschdr.host.user addr
  else addr = ⟨((firstMatch t.mTaskMapping rschdr.ruri).map STask.taskid).getD t.mTaskDefault, 0, 0⟩

structure Forwards (t : TPsaRscTask) (m : TaskMsg) (key : ℕ) (now : ℤ) (info : List UInt8) : Prop where
  wire : m.senderTaskID = 0 ∧ m.msg.oAddr.logAddr = 0
  hdr : (m.msg.ctrlMsgHdr.bind TCtrlMsg.com).isSome
  body : m.msg.msgBody = some info
  code : (t.machine.processTM true m.msg key now).code = .forward

def SentTo (out : List Output) (addr : TMsgAddress) : Prop :=
  ∃ rscmsg, out.getLast? = some (.send rscmsg) ∧ rscmsg.msg.tAddr = addr

def ToDefault (t : TPsaRscTask) (rschdr : TRscMsgHdr) : Prop :=
  if rschdr.host.user ≠ [] then ∀ addr, Encodes rschdr.host.user addr → addr.logAddr = t.mTaskDefault
  else ∀ st, firstMatch t.mTaskMapping rschdr.ruri = some st → st.taskid = t.mTaskDefault

section Routing

variable {tools : Tools} {t : TPsaRscTask} {m : TaskMsg} {key : ℕ} {now : ℤ} {info : List UInt8}

lemma Forwards.sentTo (h : Forwards t m key now info) (addr : TMsgAddress) :
    SentTo (t.procMsg tools m key now).out addr ↔
      t.target (tools.decode info).1 (tools.decode info).2.1 = addr := by
  obtain ⟨hdr, hhdr⟩ := Option.isSome_iff_exists.mp h.hdr
  have hout : (t.procMsg tools m key now).out = (t.machine.processTM true m.msg key now).resp.toList.map .transport ++
      [TPsaRscTask.forward tools { t with machine := (t.machine.processTM true m.msg key now).machine } hdr info] := by
    rw [procMsg, if_pos h.wire, fromTransport, hhdr, h.body]
    simp only [h.code]
  rw [SentTo, hout, List.getLast?_append_of_ne_nil _ (List.cons_ne_nil _ _)]
  constructor
  · rintro ⟨rscmsg, hlast, rfl⟩
    cases Option.some.inj hlast
    rfl
  · rintro rfl
    exact ⟨_, rfl, rfl⟩

lemma target_encoded {rsc : TaskMsg} {rschdr : TRscMsgHdr} {addr : TMsgAddress} (huser : rschdr.host.user ≠ [])
    (h : Encodes rschdr.host.user addr) : t.target rsc rschdr = { addr with logAddr := t.mTaskDefault } := by
  obtain ⟨logAddr, phyAddr, taskInstID, hsplit, rfl⟩ := h
  rw [target, if_pos huser, TMsgAddress.decodeCStr, hsplit]

lemma target_searched {rsc : TaskMsg} {rschdr : TRscMsgHdr} (huser : ¬rschdr.host.user ≠ []) :
    t.target rsc rschdr = ⟨t.mTaskDefault, 0, 0⟩ := by
  rw [target, if_neg huser]

lemma addressed_iff (rsc : TaskMsg) (rschdr : TRscMsgHdr) :
    (∀ addr, Addressee t rschdr addr → t.target rsc rschdr = addr) ↔ ToDefault t rschdr := by
  by_cases huser : rschdr.host.user ≠ []
  · simp only [Addressee, ToDefault, if_pos huser]
    apply forall_congr'
    intro addr
    apply forall_congr'
    intro henc
    rw [target_encoded huser henc]
    constructor
    · exact fun he => (congrArg TMsgAddress.logAddr he).symm
    · rintro he
      rw [← he]
  · simp only [Addressee, ToDefault, if_neg huser, forall_eq, target_searched huser]
    cases hm : firstMatch t.mTaskMapping rschdr.ruri with
    | none => simp
    | some st => simp [eq_comm]

end Routing

theorem rsc_routed_iff {tools : Tools} {t : TPsaRscTask} {mapping : CList STask} {q : CursorSeq STask}
    (hrep : mapping.Represents q) (ht : t.mTaskMapping = q.values) {m : TaskMsg} {key : ℕ} {now : ℤ}
    {info : List UInt8} (hf : Forwards t m key now info) :
    let (rsc, rschdr, _) := tools.decode info
    Returns (route t.mTaskDefault mapping rsc.msg.tAddr rschdr) (fun (tAddr, mapping') =>
      SentTo (t.procMsg tools m key now).out tAddr ∧ ∃ q', mapping'.Represents q' ∧ q'.items = q.items) ∧
    ((∀ addr, Addressee t rschdr addr → SentTo (t.procMsg tools m key now).out addr) ↔ ToDefault t rschdr) := by
  dsimp only
  constructor
  · exact (route_spec hrep ht _ _).mono fun (tAddr, mapping') ⟨haddr, hq⟩ => ⟨(hf.sentTo tAddr).mpr haddr.symm, hq⟩
  · simp only [hf.sentTo]
    exact addressed_iff _ _

section Samples

instance : Inhabited STask := ⟨⟨0, []⟩⟩

def aHeader : TRscMsgHdr := ⟨[97, 98], ⟨[], [], [], [], [], 0⟩⟩

def decoder : Tools := { plain with decode := fun info => ((plain.decode info).1, aHeader, []) }

def mapped : TPsaRscTask := ⟨.new, 0, 7, [⟨5, [97]⟩], [], [], 0⟩

def aWireMsg : TaskMsg where
  senderTaskID := 0
  msg := ⟨⟨0, 0, 0⟩, ⟨7, 0, 0⟩, dialogMessage, comMessageReq, comMessageType, some [49], some 1,
    some ⟨false, 0, none, some ⟨0, 0, 1, []⟩⟩, some []⟩
  rschdr := none
  rscbody := none

lemma aWireMsg_forwards : Forwards mapped aWireMsg 1 10 [] := ⟨by decide, rfl, rfl, rfl⟩

theorem rsc_routed_iff_mapped : ∃ (mapping : CList STask) (q : CursorSeq STask), mapping.Represents q ∧
    Returns (route 7 mapping ⟨0, 0, 0⟩ aHeader) (fun (tAddr, mapping') =>
      SentTo (mapped.procMsg decoder aWireMsg 1 10).out tAddr ∧ ∃ q', mapping'.Represents q' ∧ q'.items = q.items) ∧
    ((∀ addr, Addressee mapped aHeader addr → SentTo (mapped.procMsg decoder aWireMsg 1 10).out addr) ↔
      ToDefault mapped aHeader) := by
  obtain ⟨⟨n, mapping⟩, -, -, hrep⟩ := CList.pushBackR_refines CList.new_represents (⟨5, [97]⟩ : STask)
  exact ⟨mapping, _, hrep, @rsc_routed_iff decoder mapped _ _ hrep rfl _ _ _ _ aWireMsg_forwards⟩

theorem rsc_routed_fails :
    ¬∀ (tools : Tools) (t : TPsaRscTask) (m : TaskMsg) (key : ℕ) (now : ℤ) (info : List UInt8),
      Forwards t m key now info → ∀ addr, Addressee t (tools.decode info).2.1 addr →
        SentTo (t.procMsg tools m key now).out addr := by
  intro h
  have hsent := h decoder mapped aWireMsg 1 10 [] aWireMsg_forwards ⟨5, 0, 0⟩ rfl
  rw [aWireMsg_forwards.sentTo] at hsent
  cases hsent

end Samples

end TPsaRscTask

end Xframe.Facility
