import Xframe.Msg.Uri
import Xframe.Transport.ExpirySweep

/-! `TPsaRscTask` of `psarsctask.C`: the adapter that carries `rsc` messages of applications over COM
messages, with the transaction machine it inherits. -/

namespace Xframe.Facility

open Xframe.Comserv Xframe.Msg Xframe.Lib Xframe.Transport

def rscRequest : ℕ := 120
def rscResponse : ℕ := 121
def rscMessage : ℕ := 122

def comMessageType : ℕ := 10
def dialogMessage : ℕ := 0

structure TRscMsgHdr where
  ruri : CStr
  host : TURI
  deriving DecidableEq

/-- A message in the inbox of the task. `msg` has the COM header and body if there are any, and the
`rsc` ones are beside it. -/
structure TaskMsg where
  senderTaskID : ℕ
  msg : TUniNetMsg
  rschdr : Option TRscMsgHdr
  rscbody : Option CStr
  deriving DecidableEq

structure SBind where
  bindId : ℤ
  host : CStr
  port : ℤ
  deriving DecidableEq

structure STask where
  taskid : ℕ
  regx : CStr
  deriving DecidableEq

/-- The generated encoders of messages, the digest of `setTransId()` and the check of an address. -/
structure Tools where
  encode : TaskMsg → List UInt8
  decode : List UInt8 → TaskMsg × TRscMsgHdr × CStr
  getDigest : CStr → CStr
  isValidIPv4 : CStr → Bool

/-- `mBindList` and `mDNSCache` are in the order of their keys. -/
structure TPsaRscTask where
  machine : TTransMachine
  mCSeq : ℕ
  mTaskDefault : ℕ
  mTaskMapping : List STask
  mBindList : List (ℕ × SBind)
  mDNSCache : List (CStr × CStr)
  mMaintain : ℕ

inductive Output where
  | transport (msg : TUniNetMsg)
  | send (msg : TaskMsg)
  deriving DecidableEq

structure Outcome where
  out : List Output
  calls : List TimerCall
  task : TPsaRscTask

namespace TPsaRscTask

variable (tools : Tools) (t : TPsaRscTask)

def idle : Outcome := ⟨[], [], t⟩

def firstBind : SBind := (t.mBindList.head?.map Prod.snd).getD ⟨0, [], 0⟩

def dns (name : CStr) : CStr := ((t.mDNSCache.find? fun e => e.1 = name).map Prod.snd).getD []

def transExist (dest : CStr) : SBind :=
  let ip := if tools.isValidIPv4 dest then dest else t.dns dest
  if ip = [] then t.firstBind
  else
    let iphdr := CStr.cut (CStr.ofString ".") ip
    ((t.mBindList.find? fun b => CStr.beginWith b.2.host iphdr).map Prod.snd).getD t.firstBind

def selectBind (host : TURI) : Option (ℤ × SBind) :=
  if host.password ≠ [] then
    let facility := CStr.toInt host.password
    some (facility, ((t.mBindList.find? fun b => b.1 = TMsgAddress.uint facility).map Prod.snd).getD t.firstBind)
  else if host.domain ≠ [] then
    let bind := t.transExist tools host.host
    some (bind.bindId, bind)
  else none

def transId (msg : TUniNetMsg) (msgName cseq : ℕ) : CStr :=
  match msg.transID with
  | some transid => transid
  | none => tools.getDigest (TMsgAddress.printed msg.oAddr.logAddr ++ CStr.ofString "/" ++
      TMsgAddress.printed msg.oAddr.phyAddr ++ CStr.ofString "/" ++ TMsgAddress.printed msg.oAddr.taskInstID ++
      CStr.ofString "/" ++ CStr.ofInt msgName ++ CStr.ofString "/" ++ CStr.ofInt comMessageType ++
      CStr.ofString "/" ++ TMsgAddress.printed cseq)

def comMsg (m : TaskMsg) (host : TURI) (facility : ℤ) (bind : SBind) (cseq : ℕ) : TUniNetMsg :=
  let msgName := if m.msg.msgName = rscResponse then comMessageRsp else comMessageReq
  { oAddr := m.msg.oAddr
    tAddr := ⟨0, 0, 0⟩
    dialogType := dialogMessage
    msgName := msgName
    msgType := comMessageType
    transID := some (transId tools m.msg msgName cseq)
    cseq := some cseq
    ctrlMsgHdr := some ⟨false, 0, none, some
      { status := 0
        pri := if m.msg.msgName = rscRequest then 1 else 0
        facility := facility
        argv := [host.domain, TMsgAddress.encodeCStr m.msg.oAddr ++ CStr.ofString ":" ++ CStr.ofInt bind.bindId ++
          CStr.ofString "@" ++ bind.host ++ CStr.ofString ":" ++ CStr.ofInt bind.port] }⟩
    msgBody := some (tools.encode m) }

def fromApp (m : TaskMsg) : Outcome :=
  match m.rschdr, m.rscbody with
  | some rschdr, some _ =>
    let t := if m.msg.cseq.isSome then t else { t with mCSeq := (t.mCSeq + 1) % 2 ^ 32 }
    match t.selectBind tools rschdr.host with
    | none => t.idle
    | some (facility, bind) =>
      ⟨[.transport (comMsg tools m rschdr.host facility bind (m.msg.cseq.getD t.mCSeq))], [], t⟩
  | _, _ => t.idle

def target (rsc : TaskMsg) (rschdr : TRscMsgHdr) : TMsgAddress :=
  let tAddr :=
    if rschdr.host.user ≠ [] then TMsgAddress.decodeCStr rsc.msg.tAddr rschdr.host.user
    else
      let logAddr := match t.mTaskMapping with
        | [] => t.mTaskDefault
        | _ => ((t.mTaskMapping.find? fun st => CStr.beginWith rschdr.ruri st.regx).map STask.taskid).getD
            rsc.msg.tAddr.logAddr
      ⟨logAddr, 0, 0⟩
  -- the result of the lookup is overwritten
  { tAddr with logAddr := t.mTaskDefault }

def forward (hdr : TComMsgHdr) (info : List UInt8) : Output :=
  let (rsc, rschdr, rscbody) := tools.decode info
  .send { rsc with
    msg := { rsc.msg with tAddr := t.target rsc rschdr }
    rschdr := some { rschdr with host := TURI.setUri (hdr.argv.getD 0 []) }
    rscbody := some rscbody }

def fromTransport (m : TaskMsg) (key : ℕ) (now : ℤ) : Outcome :=
  match m.msg.ctrlMsgHdr.bind TCtrlMsg.com, m.msg.msgBody with
  | some hdr, some info =>
    let r := t.machine.processTM true m.msg key now
    let t := { t with machine := r.machine }
    match r.code with
    | .refuse => ⟨r.resp.toList.map .transport, r.calls, t⟩
    | .forward => ⟨r.resp.toList.map .transport ++ [t.forward tools hdr info], r.calls, t⟩
    | _ => ⟨[], r.calls, t⟩
  | _, _ => t.idle

/-- `key` and `now` are what a call of `setResendTimer` and the clock would answer. -/
def procMsg (m : TaskMsg) (key : ℕ) (now : ℤ) : Outcome :=
  if m.senderTaskID = 0 ∧ m.msg.oAddr.logAddr = 0 then t.fromTransport tools m key now else t.fromApp tools m

def timeoutAnswer (resp : TUniNetMsg) : List Output :=
  match resp.ctrlMsgHdr.bind TCtrlMsg.com, resp.msgBody with
  | some hdr, some info =>
    let (rsc, rschdr, _) := tools.decode info
    [.send { rsc with
      msg := { rsc.msg with
        msgName := rscResponse
        dialogType := if rsc.msg.dialogType = dialogBegin then dialogContinue else rsc.msg.dialogType
        tAddr := TMsgAddress.decodeCStr rsc.msg.tAddr (TURI.setUri (hdr.argv.getD 1 [])).user }
      rschdr := some rschdr }]
  | _, _ => []

/-- The loop of the maintenance timer. A call that does not answer `TSC_NULL` has removed a transaction,
so that the number of transactions bounds the loop. -/
def maintain (currentTime now : ℤ) : ℕ → TTransMachine → List Output × List TimerCall × TTransMachine
  | 0, m => ([], [], m)
  | n + 1, m =>
    let r := m.processExpired currentTime now
    let out := if r.code = .timeout then r.resp.toList.flatMap (timeoutAnswer tools) else []
    if r.code = .null then (out, r.calls, r.machine)
    else
      let (outs, calls, m) := maintain currentTime now n r.machine
      (out ++ outs, r.calls ++ calls, m)

def onTimeOut (timerKey : ℕ) (para : CStr) (key : ℕ) (currentTime now : ℤ) : Outcome :=
  if timerKey = t.mMaintain then
    let (out, calls, machine) := maintain tools currentTime now (t.machine.mTSState.entries.length + 1) t.machine
    ⟨out, calls, { t with machine, mMaintain := key }⟩
  else
    let r := t.machine.processTimer timerKey para key
    ⟨if r.code = .resend then r.resp.toList.map .transport else [], r.calls, { t with machine := r.machine }⟩

inductive Event where
  | procMsg (m : TaskMsg)
  | onTimeOut (timerKey : ℕ) (para : CStr)

inductive Step (tools : Tools) : TPsaRscTask → Event → TPsaRscTask → Prop
  | procMsg {t : TPsaRscTask} (m : TaskMsg) (key : ℕ) (now : ℤ) :
      Step tools t (.procMsg m) (t.procMsg tools m key now).task
  | onTimeOut {t : TPsaRscTask} (timerKey : ℕ) (para : CStr) (key : ℕ) (currentTime now : ℤ) :
      Step tools t (.onTimeOut timerKey para) (t.onTimeOut tools timerKey para key currentTime now).task

structure Request (m : TaskMsg) : Prop where
  app : ¬(m.senderTaskID = 0 ∧ m.msg.oAddr.logAddr = 0)
  name : m.msg.msgName = rscRequest
  body : m.rscbody.isSome
  dest : ∃ rschdr, m.rschdr = some rschdr ∧ (rschdr.host.password ≠ [] ∨ rschdr.host.domain ≠ [])

def Output.answers (oAddr : TMsgAddress) : Output → Bool
  | .send m => m.msg.msgName = rscResponse && m.msg.tAddr = oAddr
  | .transport _ => false

variable {tools t}

lemma Request.procMsg {m : TaskMsg} (h : Request m) (key : ℕ) (now : ℤ) :
    (∃ commsg, (t.procMsg tools m key now).out = [.transport commsg]) ∧ (t.procMsg tools m key now).calls = [] ∧
      (t.procMsg tools m key now).task.machine = t.machine := by
  obtain ⟨rschdr, hhdr, hdest⟩ := h.dest
  obtain ⟨body, hbody⟩ := Option.isSome_iff_exists.mp h.body
  have hselect : ∀ t : TPsaRscTask, ∃ b, t.selectBind tools rschdr.host = some b := by
    intro t
    rw [selectBind]
    split
    · exact ⟨_, rfl⟩
    · next hp => exact ⟨_, if_pos (hdest.resolve_left hp)⟩
  rw [TPsaRscTask.procMsg, if_neg h.app, fromApp, hhdr, hbody]
  dsimp only
  obtain ⟨b, hb⟩ := hselect (if m.msg.cseq.isSome then t else { t with mCSeq := (t.mCSeq + 1) % 2 ^ 32 })
  rw [hb]
  refine ⟨⟨_, rfl⟩, rfl, ?_⟩
  dsimp only
  split <;> rfl

lemma processExpired_body {m : TTransMachine} {currentTime now : ℤ} {resp : TUniNetMsg}
    (hc : (m.processExpired currentTime now).code = .timeout)
    (h : (m.processExpired currentTime now).resp = some resp) : resp.msgBody = none := by
  obtain ⟨ks, -, ho⟩ := m.processExpired_removed currentTime now
  rcases ho with ⟨hnull, -⟩ | ⟨-, -, k, st, -, -, hst⟩
  · rw [hnull] at hc
    simp at hc
  · rw [h, TTransMachine.timeoutResp] at hst
    split at hst
    · obtain ⟨msg, -, rfl⟩ := Option.map_eq_some_iff.mp hst
      rfl
    · simp at hst

lemma maintain_silent (tools : Tools) (currentTime now : ℤ) (n : ℕ) (m : TTransMachine) :
    (maintain tools currentTime now n m).1 = [] := by
  induction n generalizing m with
  | zero => rfl
  | succ n ih =>
    have hout : (if (m.processExpired currentTime now).code = .timeout
        then (m.processExpired currentTime now).resp.toList.flatMap (timeoutAnswer tools) else []) = [] := by
      split
      · next hc =>
        cases hr : (m.processExpired currentTime now).resp with
        | none => rfl
        | some resp =>
          rw [Option.toList_some, List.flatMap_singleton, timeoutAnswer, processExpired_body hc hr]
          cases resp.ctrlMsgHdr.bind TCtrlMsg.com <;> rfl
      · rfl
    rw [maintain]
    dsimp only
    rw [hout]
    split
    · rfl
    · exact ih _

lemma onTimeOut_silent (tools : Tools) (t : TPsaRscTask) (para : CStr) (key : ℕ) (currentTime now : ℤ) :
    (t.onTimeOut tools t.mMaintain para key currentTime now).out = [] := by
  rw [onTimeOut, if_pos rfl]
  exact maintain_silent tools currentTime now _ t.machine

structure NoClient (m : TTransMachine) : Prop where
  limit : m.mTSState.countMax = 0
  recv : ∀ i st, m.find i = some st → st.tssend = false

lemma NoClient.step {m m' : TTransMachine} (h : NoClient m) {e : MachineEvent} (hs : TTransMachine.Step m e m')
    (hwire : ∀ msg code, e ≠ .message false msg code) : NoClient m' := by
  refine ⟨hs.limit.trans h.limit, fun i st hst => ?_⟩
  cases hs with
  | message fromwire msg key now =>
    cases fromwire with
    | false => exact absurd rfl (hwire _ _)
    | true =>
      by_cases hid : msg.transID = some i
      · rw [TTransMachine.find_processTM_self m true hid] at hst
        obtain ⟨st', hst', rfl⟩ := Option.map_eq_some_iff.mp hst
        rw [tsChange_tssend]
        rcases TTransMachine.find_openTrans_self h.limit hst' with hold | rfl
        · exact h.recv i st' hold
        · rfl
      · rw [TTransMachine.find_processTM_ne h.limit true hid] at hst
        exact h.recv i st hst
  | timer tk transid key =>
    rcases m.find_processTimer tk transid key i with hsame | ⟨st', hst', hnew⟩
    · exact h.recv i st (hsame ▸ hst)
    · rw [hnew] at hst
      obtain rfl := Option.some.inj hst
      rw [TTransState.tsTimeout]
      split <;> exact h.recv i st' hst'
  | expiry currenttime now =>
    rw [TTransMachine.find_processExpired] at hst
    split at hst
    · simp at hst
    · exact h.recv i st hst

lemma NoClient.maintain {m : TTransMachine} (h : NoClient m) (tools : Tools) (currentTime now : ℤ) (n : ℕ) :
    NoClient (maintain tools currentTime now n m).2.2 := by
  induction n generalizing m with
  | zero => exact h
  | succ n ih =>
    have hstep := h.step (.expiry currentTime now) (by simp)
    rw [TPsaRscTask.maintain]
    dsimp only
    split
    · exact hstep
    · exact ih hstep

lemma NoClient.taskStep {t t' : TPsaRscTask} (h : NoClient t.machine) {e : Event} (hs : Step tools t e t') :
    NoClient t'.machine := by
  cases hs with
  | procMsg m key now =>
    rw [procMsg]
    split
    · rw [fromTransport]
      split
      · have hstep := h.step (.message true m.msg key now) (by simp)
        dsimp only
        split <;> exact hstep
      · exact h
    · rw [fromApp]
      split
      · dsimp only
        split
        · dsimp only [idle]
          split <;> exact h
        · dsimp only
          split <;> exact h
      · exact h
  | onTimeOut timerKey para key currentTime now =>
    rw [onTimeOut]
    split
    · exact h.maintain tools currentTime now _
    · exact h.step (.timer timerKey para key) (by simp)

lemma NoClient.run {t t' : TPsaRscTask} (h : NoClient t.machine) {es : List Event} (hr : Run (Step tools) t es t') :
    NoClient t'.machine :=
  hr.invariant (I := fun _ t => NoClient t.machine) h fun _ _ _ _ ih hs => ih.taskStep hs

lemma noClient_start (sendTimeOutSec : ℕ) : NoClient (TTransMachine.new.tminit sendTimeOutSec) := by
  rw [TTransMachine.tminit]
  split <;> exact ⟨rfl, fun i st h => by simp [TTransMachine.find, TTransMachine.new, ExpireMap.new, ExpireMap.lookup,
    ExpireMap.find] at h⟩

theorem request_never_answered {es es' : List Event} {t₀ t t' : TPsaRscTask} (tools : Tools) {sendTimeOutSec : ℕ}
    (h₀ : t₀.machine = TTransMachine.new.tminit sendTimeOutSec) (h : Run (Step tools) t₀ es t) {m : TaskMsg}
    (hm : Request m) (key : ℕ) (now : ℤ) (h' : Run (Step tools) (t.procMsg tools m key now).task es' t') (para : CStr)
    (key' : ℕ) (currentTime now' : ℤ) :
    (t.procMsg tools m key now).calls = [] ∧ NoClient t'.machine ∧
      ¬((t'.onTimeOut tools t'.mMaintain para key' currentTime now').out.countP (Output.answers m.msg.oAddr) = 1) := by
  have hstart : NoClient t₀.machine := h₀ ▸ noClient_start sendTimeOutSec
  have hsent : NoClient (t.procMsg tools m key now).task.machine := (hstart.run h).taskStep (.procMsg m key now)
  refine ⟨(hm.procMsg key now).2.1, hsent.run h', ?_⟩
  rw [onTimeOut_silent]
  simp

def plain : Tools := ⟨fun _ => [], fun _ => (⟨0, ⟨⟨0, 0, 0⟩, ⟨0, 0, 0⟩, 0, 0, 0, none, none, none, none⟩, none, none⟩,
  ⟨[], ⟨[], [], [], [], [], 0⟩⟩, []), id, fun _ => true⟩

def aTask : TPsaRscTask := ⟨TTransMachine.new.tminit 10, 0, 7, [], [(1, ⟨1, [49], 8000⟩)], [], 5⟩

def aRscRequest : TaskMsg where
  senderTaskID := 102
  msg := ⟨⟨102, 1, 3⟩, ⟨7, 0, 0⟩, dialogBegin, rscRequest, 12, some [49], some 1, none, none⟩
  rschdr := some ⟨[], ⟨[], [], [], [50], [50], 0⟩⟩
  rscbody := some []

lemma aRscRequest_request : Request aRscRequest :=
  ⟨by decide, rfl, rfl, _, rfl, .inr (by decide)⟩

theorem request_never_answered_once :
    ¬(((aTask.procMsg plain aRscRequest 1 10).task.onTimeOut plain 5 [] 2 100 100).out.countP
      (Output.answers ⟨102, 1, 3⟩) = 1) := by
  have hstart : Run (Step plain) aTask [] aTask := .nil
  have hwait : Run (Step plain) (aTask.procMsg plain aRscRequest 1 10).task []
      (aTask.procMsg plain aRscRequest 1 10).task := .nil
  have hmachine : aTask.machine = TTransMachine.new.tminit 10 := rfl
  exact (request_never_answered plain hmachine hstart aRscRequest_request 1 10 hwait [] 2 100 100).2.2

theorem request_unanswered :
    ((aTask.procMsg plain aRscRequest 1 10).task.onTimeOut plain 5 [] 2 100 100).out = [] ∧ Request aRscRequest :=
  ⟨rfl, aRscRequest_request⟩

end TPsaRscTask

end Xframe.Facility
