import Mathlib.Data.List.TakeWhile
import Xframe.Transport.Codec

/-! The encoders of a frame message with a resource header and body (`msgdef.C`, `msgdef_rsc.C`,
`msgdatadef.C`), with the machine types of their fields. The decoders share one running pointer. -/

namespace Xframe.Msg.Rsc

open Xframe.Transport

abbrev VarChar := { s : CStr // s.length < 2 ^ 31 }

def encodeUInt (n : UInt32) : List UInt8 := encodeInt n.toNat

def decodeUInt (buf : List UInt8) : Option (UInt32 × List UInt8) := do
  let (n, buf) ← decodeInt buf
  some (UInt32.ofNat (Msg.TMsgAddress.uint n), buf)

def encodeVarChar (s : VarChar) : List UInt8 := encodeStr s.1

def decodeVarChar (buf : List UInt8) : Option (VarChar × List UInt8) := do
  let (s, buf) ← decodeStr buf
  if h : s.length < 2 ^ 31 then some (⟨s, h⟩, buf) else none

structure TMsgAddress where
  logAddr : UInt32
  phyAddr : UInt32
  taskInstID : UInt32
  deriving DecidableEq

namespace TMsgAddress

def encode (a : TMsgAddress) : List UInt8 :=
  encodeUInt a.logAddr ++ encodeUInt a.phyAddr ++ encodeUInt a.taskInstID

def decode (buf : List UInt8) : Option (TMsgAddress × List UInt8) := do
  let (logAddr, buf) ← decodeUInt buf
  let (phyAddr, buf) ← decodeUInt buf
  let (taskInstID, buf) ← decodeUInt buf
  some (⟨logAddr, phyAddr, taskInstID⟩, buf)

end TMsgAddress

structure HostUri where
  uri : CStr
  parts : TURI
  deriving DecidableEq

namespace HostUri

def new : HostUri := ⟨[], ⟨[], [], [], [], [], 0⟩⟩

/-- The new domain has no colon before the port. -/
def resetUri (h : HostUri) : HostUri where
  uri :=
    (if h.parts.schema ≠ [] then h.parts.schema ++ CStr.ofString "://" else []) ++ h.parts.user ++
      (if h.parts.password ≠ [] then CStr.ofString ":" ++ h.parts.password else []) ++
      (if h.parts.host ≠ [] then CStr.ofString "@" ++ h.parts.host else []) ++
      (if h.parts.port ≠ 0 then CStr.ofString ":" ++ CStr.ofInt h.parts.port else [])
  parts := { h.parts with
    domain := h.parts.host ++ if h.parts.port ≠ 0 then CStr.ofInt h.parts.port else [] }

def prepared (h : HostUri) : HostUri := if h.uri = [] then h.resetUri else h

def encode (h : HostUri) : List UInt8 := encodeStr h.prepared.uri

def setUri (uri : CStr) : HostUri := ⟨uri, TURI.setUri uri⟩

def decode (h : HostUri) (buf : List UInt8) : Option (HostUri × List UInt8) := do
  let (uri, buf) ← decodeStr buf
  some (if sizeStr uri ≠ 0 then setUri (uri.takeWhile (· ≠ 0)) else h, buf)

/-- The sizes of the parts, which `size` counts and `encode` does not write. -/
def partsSize (h : HostUri) : ℤ :=
  sizeStr h.parts.schema + sizeStr h.parts.user + sizeStr h.parts.password + sizeStr h.parts.domain +
    sizeStr h.parts.host + 4

def size (h : HostUri) : ℤ := sizeStr h.uri + h.partsSize

end HostUri

structure TRscMsgHdr where
  optionSet : UInt32
  orgAddr : TMsgAddress
  code : UInt32
  ruri : VarChar
  consumer : VarChar
  producer : VarChar
  host : HostUri
  rid : VarChar

namespace TRscMsgHdr

def new : TRscMsgHdr :=
  ⟨0, ⟨0, 0, 0⟩, 0, ⟨[], by decide⟩, ⟨[], by decide⟩, ⟨[], by decide⟩, HostUri.new, ⟨[], by decide⟩⟩

def orgAddrFlag : UInt32 := 1

def encode (h : TRscMsgHdr) : List UInt8 :=
  encodeUInt h.optionSet ++ (if h.optionSet &&& orgAddrFlag ≠ 0 then h.orgAddr.encode else []) ++
    encodeUInt h.code ++ encodeVarChar h.ruri ++ encodeVarChar h.consumer ++ encodeVarChar h.producer ++
    h.host.encode ++ encodeVarChar h.rid

def decode (h : TRscMsgHdr) (buf : List UInt8) : Option (TRscMsgHdr × List UInt8) := do
  let (optionSet, buf) ← decodeUInt buf
  let (orgAddr, buf) ← (if optionSet &&& orgAddrFlag ≠ 0 then TMsgAddress.decode buf else some (h.orgAddr, buf))
  let (code, buf) ← decodeUInt buf
  let (ruri, buf) ← decodeVarChar buf
  let (consumer, buf) ← decodeVarChar buf
  let (producer, buf) ← decodeVarChar buf
  let (host, buf) ← h.host.decode buf
  let (rid, buf) ← decodeVarChar buf
  some (⟨optionSet, orgAddr, code, ruri, consumer, producer, host, rid⟩, buf)

def encodeSize (h : TRscMsgHdr) : ℤ :=
  4 + (if h.optionSet &&& orgAddrFlag ≠ 0 then 12 else 0) + 4 + sizeStr h.ruri.1 + sizeStr h.consumer.1 +
    sizeStr h.producer.1 + h.host.prepared.size + sizeStr h.rid.1

end TRscMsgHdr

structure TRscMsgBody where
  rsc : VarChar

namespace TRscMsgBody

def encode (b : TRscMsgBody) : List UInt8 := encodeVarChar b.rsc

def decode (buf : List UInt8) : Option (TRscMsgBody × List UInt8) := do
  let (rsc, buf) ← decodeVarChar buf
  some (⟨rsc⟩, buf)

end TRscMsgBody

structure TUniNetMsg where
  optionSet : UInt32
  oAddr : TMsgAddress
  tAddr : TMsgAddress
  dialogType : UInt8
  msgName : UInt32
  msgType : UInt32
  transID : VarChar
  cseq : UInt32
  ctrlMsgHdr : Option TRscMsgHdr
  msgBody : Option TRscMsgBody

namespace TUniNetMsg

def cseqFlag : UInt32 := 4
def transidFlag : UInt32 := 8

def new (cseq : UInt32) : TUniNetMsg :=
  ⟨0, ⟨0, 0, 0⟩, ⟨0, 0, 0⟩, 1, 0, 1, ⟨[], by decide⟩, cseq, none, none⟩

def hasCSeq (optionSet : UInt32) : Bool := optionSet &&& cseqFlag ≠ 0

def hasTransId (optionSet : UInt32) : Bool := optionSet &&& transidFlag ≠ 0

/-- Header and body are written where there are objects for them, not where their flags are set. -/
def encode (m : TUniNetMsg) : List UInt8 :=
  encodeUInt m.optionSet ++ m.oAddr.encode ++ m.tAddr.encode ++ [m.dialogType] ++ encodeUInt m.msgName ++
    encodeUInt m.msgType ++ (if hasCSeq m.optionSet then encodeUInt m.cseq else []) ++
    (if hasTransId m.optionSet then encodeVarChar m.transID else []) ++
    (m.ctrlMsgHdr.map TRscMsgHdr.encode).getD [] ++ (m.msgBody.map TRscMsgBody.encode).getD []

def encodeSize (m : TUniNetMsg) : ℤ :=
  4 + 1 + 4 + 4 + 12 + 12 + (if hasCSeq m.optionSet then 4 else 0) +
    (if hasTransId m.optionSet then sizeStr m.transID.1 else 0) +
    (m.ctrlMsgHdr.map TRscMsgHdr.encodeSize).getD 0 + (m.msgBody.map fun b => sizeStr b.rsc.1).getD 0

def decodeDialogType : List UInt8 → Option (UInt8 × List UInt8)
  | b :: buf => some (b, buf)
  | [] => none

def decode (m : TUniNetMsg) (buf : List UInt8) : Option (TUniNetMsg × List UInt8) := do
  let (optionSet, buf) ← decodeUInt buf
  let (oAddr, buf) ← TMsgAddress.decode buf
  let (tAddr, buf) ← TMsgAddress.decode buf
  let (dialogType, buf) ← decodeDialogType buf
  let (msgName, buf) ← decodeUInt buf
  let (msgType, buf) ← decodeUInt buf
  let (cseq, buf) ← (if hasCSeq optionSet then decodeUInt buf else some (m.cseq, buf))
  let (transID, buf) ← (if hasTransId optionSet then decodeVarChar buf else some (m.transID, buf))
  some ({ m with optionSet, oAddr, tAddr, dialogType, msgName, msgType, cseq, transID }, buf)

end TUniNetMsg

/-- The three decoders as `TPsaRscTask::procMsg` calls them, into new objects. -/
def decode (cseq : UInt32) (buf : List UInt8) :
    Option ((TUniNetMsg × TRscMsgHdr × TRscMsgBody) × List UInt8) := do
  let (rscmsg, buf) ← (TUniNetMsg.new cseq).decode buf
  let (rschdr, buf) ← TRscMsgHdr.new.decode buf
  let (rscbody, buf) ← TRscMsgBody.decode buf
  some ((rscmsg, rschdr, rscbody), buf)

section RoundTrip

variable (buf : List UInt8)

lemma decodeUInt_encode (n : UInt32) : decodeUInt (encodeUInt n ++ buf) = some (n, buf) := by
  rw [decodeUInt, encodeUInt, decodeInt_encodeInt]
  change some (UInt32.ofNat (Msg.TMsgAddress.uint (Comserv.CSocket.ntohl (encodeInt n.toNat))), buf) = _
  rw [uint_ntohl_encodeInt n.toNat_lt, UInt32.ofNat_toNat]

def Readable (s : CStr) : Prop := ¬Unallocatable s.length

lemma decodeVarChar_encode {s : VarChar} {r : VarChar × List UInt8} :
    decodeVarChar (encodeVarChar s ++ buf) = some r ↔ Readable s.1 ∧ (s, buf) = r := by
  rw [decodeVarChar, encodeVarChar, decodeStr_encodeStr s.2, Readable]
  split
  · next hu => simp [hu]
  · next hu =>
    rw [Option.bind_eq_bind, Option.bind_some]
    dsimp only
    rw [dif_pos s.2]
    simp [hu]

lemma TMsgAddress.decode_encode (a : TMsgAddress) : decode (a.encode ++ buf) = some (a, buf) := by
  simp only [decode, encode, List.append_assoc, decodeUInt_encode, Option.bind_eq_bind, Option.bind_some]

/-- The text that goes out is a `CStr` without a zero byte. -/
structure HostUri.Plain (h : HostUri) : Prop where
  length_lt : h.prepared.uri.length < 2 ^ 31
  no_zero : (0 : UInt8) ∉ h.prepared.uri

lemma HostUri.decode_encode {h : HostUri} (hp : h.Plain) (h' : HostUri) {r : HostUri × List UInt8} :
    h'.decode (h.encode ++ buf) = some r ↔ Readable h.prepared.uri ∧ (setUri h.prepared.uri, buf) = r := by
  have hall : h.prepared.uri.takeWhile (· ≠ 0) = h.prepared.uri := by
    apply List.takeWhile_eq_self_iff.mpr
    intro b hb
    have hne : b ≠ 0 := fun heq => hp.no_zero (heq ▸ hb)
    simpa using hne
  have hsize : sizeStr h.prepared.uri ≠ 0 := by
    rw [sizeStr]
    omega
  rw [decode, encode, decodeStr_encodeStr hp.length_lt, Readable]
  split
  · next hu => simp [hu]
  · next hu =>
    rw [Option.bind_eq_bind, Option.bind_some]
    dsimp only
    rw [if_pos hsize, hall]
    simp [hu]

def TRscMsgHdr.received (h : TRscMsgHdr) : TRscMsgHdr :=
  { h with
    orgAddr := if h.optionSet &&& orgAddrFlag ≠ 0 then h.orgAddr else new.orgAddr
    host := HostUri.setUri h.host.prepared.uri }

structure TRscMsgHdr.Readable (h : TRscMsgHdr) : Prop where
  ruri : Rsc.Readable h.ruri.1
  consumer : Rsc.Readable h.consumer.1
  producer : Rsc.Readable h.producer.1
  host : Rsc.Readable h.host.prepared.uri
  rid : Rsc.Readable h.rid.1

lemma TRscMsgHdr.decode_encode {h : TRscMsgHdr} (hp : h.host.Plain) {r : TRscMsgHdr × List UInt8} :
    new.decode (h.encode ++ buf) = some r ↔ h.Readable ∧ (h.received, buf) = r := by
  have hread : h.Readable ↔ Rsc.Readable h.ruri.1 ∧ Rsc.Readable h.consumer.1 ∧ Rsc.Readable h.producer.1 ∧
      Rsc.Readable h.host.prepared.uri ∧ Rsc.Readable h.rid.1 :=
    ⟨fun hr => ⟨hr.ruri, hr.consumer, hr.producer, hr.host, hr.rid⟩, fun ⟨h₁, h₂, h₃, h₄, h₅⟩ => ⟨h₁, h₂, h₃, h₄, h₅⟩⟩
  rw [hread]
  by_cases horg : h.optionSet &&& orgAddrFlag ≠ 0
  · simp only [decode, encode, received, if_pos horg, List.append_assoc, decodeUInt_encode,
      TMsgAddress.decode_encode, decodeVarChar_encode, HostUri.decode_encode _ hp, Option.bind_eq_bind,
      Option.bind_some, Option.bind_eq_some_iff, and_assoc, exists_and_left, exists_eq_left', Option.some.injEq]
  · simp only [decode, encode, received, if_neg horg, List.append_assoc, List.nil_append, decodeUInt_encode,
      decodeVarChar_encode, HostUri.decode_encode _ hp, Option.bind_eq_bind, Option.bind_some,
      Option.bind_eq_some_iff, and_assoc, exists_and_left, exists_eq_left', Option.some.injEq]

lemma TRscMsgBody.decode_encode (b : TRscMsgBody) {r : TRscMsgBody × List UInt8} :
    decode (b.encode ++ buf) = some r ↔ Readable b.rsc.1 ∧ (b, buf) = r := by
  simp only [decode, encode, decodeVarChar_encode, Option.bind_eq_bind, Option.bind_eq_some_iff, and_assoc,
    exists_and_left, exists_eq_left', Option.some.injEq]

def TUniNetMsg.received (m : TUniNetMsg) (cseq : UInt32) : TUniNetMsg :=
  { m with
    cseq := if hasCSeq m.optionSet then m.cseq else cseq
    transID := if hasTransId m.optionSet then m.transID else (new cseq).transID
    ctrlMsgHdr := none
    msgBody := none }

def TUniNetMsg.Readable (m : TUniNetMsg) : Prop := hasTransId m.optionSet → Rsc.Readable m.transID.1

lemma TUniNetMsg.decode_encode (m : TUniNetMsg) (cseq : UInt32) {r : TUniNetMsg × List UInt8} :
    (new cseq).decode (m.encode ++ buf) = some r ↔ m.Readable ∧ (m.received cseq,
      (m.ctrlMsgHdr.map TRscMsgHdr.encode).getD [] ++ (m.msgBody.map TRscMsgBody.encode).getD [] ++ buf) = r := by
  have hdialog : ∀ (b : UInt8) (buf : List UInt8), decodeDialogType ([b] ++ buf) = some (b, buf) := fun _ _ => rfl
  -- the two optional fields, each with what stands behind it
  have hcseq : ∀ buf, (if hasCSeq m.optionSet then
      decodeUInt ((if hasCSeq m.optionSet then encodeUInt m.cseq else []) ++ buf)
      else some ((new cseq).cseq, (if hasCSeq m.optionSet then encodeUInt m.cseq else []) ++ buf)) =
        some ((m.received cseq).cseq, buf) := by
    intro buf
    by_cases h : hasCSeq m.optionSet
    · simp only [received, if_pos h, decodeUInt_encode]
    · simp only [received, if_neg h, List.nil_append, new]
  have htransID : ∀ buf r, (if hasTransId m.optionSet then
      decodeVarChar ((if hasTransId m.optionSet then encodeVarChar m.transID else []) ++ buf)
      else some ((new cseq).transID, (if hasTransId m.optionSet then encodeVarChar m.transID else []) ++ buf)) =
        some r ↔ m.Readable ∧ ((m.received cseq).transID, buf) = r := by
    intro buf r
    by_cases h : hasTransId m.optionSet
    · rw [if_pos h, if_pos h, decodeVarChar_encode, received, if_pos h]
      exact and_congr_left' ⟨fun hr _ => hr, fun hr => hr h⟩
    · rw [if_neg h, if_neg h, List.nil_append, received, if_neg h, Option.some.injEq]
      exact ⟨fun hr => ⟨fun ht => absurd ht h, hr⟩, fun hr => hr.2⟩
  simp only [decode, encode, List.append_assoc, decodeUInt_encode, TMsgAddress.decode_encode, hdialog, hcseq,
    htransID, Option.bind_eq_bind, Option.bind_some, Option.bind_eq_some_iff, and_assoc, exists_and_left,
    exists_eq_left', Option.some.injEq]
  rfl

end RoundTrip

structure ReadableMsg (m : TUniNetMsg) (hdr : TRscMsgHdr) (body : TRscMsgBody) : Prop where
  msg : m.Readable
  hdr : hdr.Readable
  body : Readable body.rsc.1

structure Carried (m : TUniNetMsg) (hdr : TRscMsgHdr) (body : TRscMsgBody)
    (r : TUniNetMsg × TRscMsgHdr × TRscMsgBody) : Prop where
  optionSet : r.1.optionSet = m.optionSet
  oAddr : r.1.oAddr = m.oAddr
  tAddr : r.1.tAddr = m.tAddr
  dialogType : r.1.dialogType = m.dialogType
  msgName : r.1.msgName = m.msgName
  msgType : r.1.msgType = m.msgType
  cseq : TUniNetMsg.hasCSeq m.optionSet → r.1.cseq = m.cseq
  transID : TUniNetMsg.hasTransId m.optionSet → r.1.transID = m.transID
  hdrOptionSet : r.2.1.optionSet = hdr.optionSet
  orgAddr : hdr.optionSet &&& TRscMsgHdr.orgAddrFlag ≠ 0 → r.2.1.orgAddr = hdr.orgAddr
  code : r.2.1.code = hdr.code
  ruri : r.2.1.ruri = hdr.ruri
  consumer : r.2.1.consumer = hdr.consumer
  producer : r.2.1.producer = hdr.producer
  host : r.2.1.host.uri = hdr.host.prepared.uri
  rid : r.2.1.rid = hdr.rid
  rsc : r.2.2 = body

lemma readable_iff {s : CStr} (h : s.length < 2 ^ 31) : Readable s ↔ (s.length : ℤ) < 2 ^ 31 - 32 := by
  rw [Readable, unallocatable_iff (by omega), not_le]

lemma decode_encode {m : TUniNetMsg} {hdr : TRscMsgHdr} {body : TRscMsgBody} (hhdr : m.ctrlMsgHdr = some hdr)
    (hbody : m.msgBody = some body) (hp : hdr.host.Plain) (cseq : UInt32) (buf : List UInt8)
    {r : (TUniNetMsg × TRscMsgHdr × TRscMsgBody) × List UInt8} : decode cseq (m.encode ++ buf) = some r ↔
      ReadableMsg m hdr body ∧ ((m.received cseq, hdr.received, body), buf) = r := by
  have hread : ReadableMsg m hdr body ↔ m.Readable ∧ hdr.Readable ∧ Readable body.rsc.1 :=
    ⟨fun h => ⟨h.msg, h.hdr, h.body⟩, fun ⟨h₁, h₂, h₃⟩ => ⟨h₁, h₂, h₃⟩⟩
  simp only [hread, decode, TUniNetMsg.decode_encode, hhdr, hbody, Option.map_some, Option.getD_some,
    List.append_assoc, TRscMsgHdr.decode_encode _ hp, TRscMsgBody.decode_encode, Option.bind_eq_bind,
    Option.bind_eq_some_iff, and_assoc, exists_and_left, exists_eq_left', Option.some.injEq]

theorem rsc_message_recovered_iff {m : TUniNetMsg} {hdr : TRscMsgHdr} {body : TRscMsgBody}
    (hhdr : m.ctrlMsgHdr = some hdr) (hbody : m.msgBody = some body) (hp : hdr.host.Plain) (cseq : UInt32)
    (buf : List UInt8) :
    (∃ r, decode cseq (m.encode ++ buf) = some (r, buf) ∧ Carried m hdr body r) ↔ ReadableMsg m hdr body := by
  constructor
  · rintro ⟨r, hr, -⟩
    exact ((decode_encode hhdr hbody hp cseq buf).mp hr).1
  · intro h
    refine ⟨_, (decode_encode hhdr hbody hp cseq buf).mpr ⟨h, rfl⟩, ?_⟩
    exact ⟨rfl, rfl, rfl, rfl, rfl, rfl, fun h => if_pos h, fun h => if_pos h, rfl, fun h => if_pos h, rfl, rfl,
      rfl, rfl, rfl, rfl, rfl⟩

def sampleHdr : TRscMsgHdr :=
  ⟨1, ⟨1, 2, 3⟩, 200, ⟨[47, 97], by decide⟩, ⟨[], by decide⟩, ⟨[98], by decide⟩,
    ⟨[], ⟨[], [117], [], [], [], 0⟩⟩, ⟨[0, 7], by decide⟩⟩

def sample : TUniNetMsg :=
  ⟨0xf, ⟨1, 2, 3⟩, ⟨4, 5, 6⟩, 1, 120, 12, ⟨[116], by decide⟩, 0xffffffff, some sampleHdr,
    some ⟨⟨[9, 0], by decide⟩⟩⟩

lemma sampleHdr_plain : sampleHdr.host.Plain := by
  have huri : sampleHdr.host.prepared.uri = [117] := by decide
  exact ⟨by rw [huri]; decide, by rw [huri]; decide⟩

theorem rsc_message_recovered_sample : ∃ r, decode 0 (sample.encode ++ [1, 2]) = some (r, [1, 2]) ∧
    r.1.cseq = 0xffffffff ∧ r.2.1.host.uri = [117] ∧ r.2.2.rsc.1 = [9, 0] := by
  have hshort : ∀ s : CStr, s.length < 8 → Readable s := fun s h => (readable_iff (by omega)).mpr (by omega)
  have huri : sampleHdr.host.prepared.uri = [117] := by decide
  have hread : ReadableMsg sample sampleHdr ⟨⟨[9, 0], by decide⟩⟩ :=
    ⟨fun _ => hshort _ (by decide), ⟨hshort _ (by decide), hshort _ (by decide), hshort _ (by decide),
      hshort _ (by decide), hshort _ (by decide)⟩, hshort _ (by decide)⟩
  obtain ⟨r, hr, hc⟩ := (rsc_message_recovered_iff (m := sample) rfl rfl sampleHdr_plain 0 [1, 2]).mpr hread
  refine ⟨r, hr, hc.cseq (by decide), hc.host.trans huri, ?_⟩
  rw [hc.rsc]

theorem rsc_message_not_recovered : ∃ body : TRscMsgBody, body.rsc.1 = List.replicate (2 ^ 31 - 32) 1 ∧
    ∀ cseq, decode cseq { sample with msgBody := some body }.encode = none := by
  have hlen : (List.replicate (2 ^ 31 - 32) (1 : UInt8)).length = 2 ^ 31 - 32 := List.length_replicate
  have hlt : (List.replicate (2 ^ 31 - 32) (1 : UInt8)).length < 2 ^ 31 := by
    rw [hlen]
    norm_num
  refine ⟨⟨⟨_, hlt⟩⟩, rfl, fun cseq => Option.eq_none_iff_forall_ne_some.mpr fun r hr => ?_⟩
  rw [← List.append_nil (TUniNetMsg.encode _)] at hr
  have hread := ((decode_encode rfl rfl sampleHdr_plain cseq []).mp hr).1.body
  rw [readable_iff hlt, hlen] at hread
  norm_num at hread

section Sizes

lemma length_encodeUInt (n : UInt32) : (encodeUInt n).length = 4 := rfl

lemma TMsgAddress.length_encode (a : TMsgAddress) : a.encode.length = 12 := rfl

lemma length_encodeStr_eq (s : CStr) : ((encodeStr s).length : ℤ) = sizeStr s := by
  rw [length_encodeStr, sizeStr]
  push_cast
  ring

lemma length_encodeVarChar (s : VarChar) : ((encodeVarChar s).length : ℤ) = sizeStr s.1 := length_encodeStr_eq s.1

lemma TRscMsgHdr.length_encode (h : TRscMsgHdr) :
    h.encodeSize = (h.encode.length : ℤ) + h.host.prepared.partsSize := by
  have hhost : ((h.host.encode.length : ℕ) : ℤ) = sizeStr h.host.prepared.uri := length_encodeStr_eq _
  have horg : (((if h.optionSet &&& orgAddrFlag ≠ 0 then h.orgAddr.encode else []).length : ℕ) : ℤ) =
      if h.optionSet &&& orgAddrFlag ≠ 0 then 12 else 0 := by
    split <;> simp [TMsgAddress.length_encode]
  rw [encodeSize, encode, HostUri.size]
  simp only [List.length_append, Nat.cast_add, length_encodeUInt, length_encodeVarChar, hhost, horg]
  push_cast
  ring

lemma TUniNetMsg.length_encode (m : TUniNetMsg) : m.encodeSize =
    (m.encode.length : ℤ) + (m.ctrlMsgHdr.map fun h => h.host.prepared.partsSize).getD 0 := by
  have hcseq : (((if hasCSeq m.optionSet then encodeUInt m.cseq else []).length : ℕ) : ℤ) =
      if hasCSeq m.optionSet then 4 else 0 := by
    split <;> simp [length_encodeUInt]
  have hid : (((if hasTransId m.optionSet then encodeVarChar m.transID else []).length : ℕ) : ℤ) =
      if hasTransId m.optionSet then sizeStr m.transID.1 else 0 := by
    split <;> simp [length_encodeVarChar]
  have hhdr : (m.ctrlMsgHdr.map TRscMsgHdr.encodeSize).getD 0 =
      ((((m.ctrlMsgHdr.map TRscMsgHdr.encode).getD []).length : ℕ) : ℤ) +
        (m.ctrlMsgHdr.map fun h => h.host.prepared.partsSize).getD 0 := by
    cases m.ctrlMsgHdr with
    | none => rfl
    | some h => exact h.length_encode
  have hbody : ((((m.msgBody.map TRscMsgBody.encode).getD []).length : ℕ) : ℤ) =
      (m.msgBody.map fun b => sizeStr b.rsc.1).getD 0 := by
    cases m.msgBody with
    | none => rfl
    | some b => exact length_encodeVarChar b.rsc
  rw [encodeSize, encode, hhdr]
  simp only [List.length_append, Nat.cast_add, length_encodeUInt, TMsgAddress.length_encode, hcseq, hid, hbody,
    List.length_singleton]
  push_cast
  ring

theorem encodeSize_eq {m : TUniNetMsg} {hdr : TRscMsgHdr} (hhdr : m.ctrlMsgHdr = some hdr) :
    m.encodeSize = m.encode.length + hdr.host.prepared.partsSize := by
  rw [m.length_encode, hhdr]
  rfl

end Sizes

end Xframe.Msg.Rsc
