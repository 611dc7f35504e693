import Xframe.Msg.RscCodec

/-! What the encoders of a resource message return, what they write, and what `size` answers behind them. The code
adds sizes as `INT`, so that these are its sizes where they are below `2 ^ 31`. -/

namespace Xframe.Msg.Rsc

open Xframe.Transport

def senderSize : ℤ := 4 + 4 + 4

namespace TRscMsgHdr

def size (h : TRscMsgHdr) : ℤ :=
  4 + (if h.optionSet &&& orgAddrFlag ≠ 0 then 12 else 0) + 4 + sizeStr h.ruri.1 + sizeStr h.consumer.1 +
    sizeStr h.producer.1 + h.host.size + sizeStr h.rid.1

def prepared (h : TRscMsgHdr) : TRscMsgHdr := { h with host := h.host.prepared }

end TRscMsgHdr

namespace TRscMsgBody

def size (b : TRscMsgBody) : ℤ := sizeStr b.rsc.1

end TRscMsgBody

namespace TUniNetMsg

/-- The sender is counted, which is not encoded, and `cseq` is not. -/
def size (m : TUniNetMsg) : ℤ :=
  senderSize + 4 + 1 + 4 + 4 + 12 + 12 + (if hasTransId m.optionSet then sizeStr m.transID.1 else 0) +
    (m.ctrlMsgHdr.map TRscMsgHdr.size).getD 0 + (m.msgBody.map TRscMsgBody.size).getD 0

def prepared (m : TUniNetMsg) : TUniNetMsg := { m with ctrlMsgHdr := m.ctrlMsgHdr.map TRscMsgHdr.prepared }

/-- The text that `TPsaRscTask::procMsg` appends to the body, from the buffer that held `mBuffer` before. -/
def sentText (m : TUniNetMsg) (mBuffer : ℕ → UInt8) : List UInt8 :=
  (List.range m.encodeSize.toNat).map fun i => m.encode.getD i (mBuffer i)

end TUniNetMsg

inductive Encoded where
  | uri (h : HostUri)
  | hdr (h : TRscMsgHdr)
  | body (b : TRscMsgBody)
  | msg (m : TUniNetMsg)

namespace Encoded

def bytes : Encoded → List UInt8
  | uri h => h.encode
  | hdr h => h.encode
  | body b => b.encode
  | msg m => m.encode

def returned : Encoded → ℤ
  | uri h => sizeStr h.prepared.uri
  | hdr h => h.prepared.size
  | body b => b.size
  | msg m => m.encodeSize

def sizeAfter : Encoded → ℤ
  | uri h => h.prepared.size
  | hdr h => h.prepared.size
  | body b => b.size
  | msg m => m.prepared.size

structure Consistent (x : Encoded) : Prop where
  bytes : x.returned = x.bytes.length
  size : x.returned = x.sizeAfter

end Encoded

lemma sizeStr_pos (s : CStr) : 0 < sizeStr s := by
  rw [sizeStr]
  omega

lemma HostUri.partsSize_pos (h : HostUri) : 0 < h.partsSize := by
  rw [partsSize]
  have hsum := fun s : CStr => sizeStr_pos s
  linarith [hsum h.parts.schema, hsum h.parts.user, hsum h.parts.password, hsum h.parts.domain, hsum h.parts.host]

lemma TUniNetMsg.encodeSize_none {m : TUniNetMsg} (hhdr : m.ctrlMsgHdr = none) : m.encodeSize = m.encode.length := by
  rw [m.length_encode, hhdr]
  exact add_zero (m.encode.length : ℤ)

lemma TUniNetMsg.length_lt_encodeSize {m : TUniNetMsg} (hhdr : m.ctrlMsgHdr ≠ none) :
    (m.encode.length : ℤ) < m.encodeSize := by
  obtain ⟨h, hh⟩ := Option.ne_none_iff_exists'.mp hhdr
  rw [encodeSize_eq hh]
  linarith [h.host.prepared.partsSize_pos]

lemma TUniNetMsg.encodeSize_eq_length (m : TUniNetMsg) : m.encodeSize = m.encode.length ↔ m.ctrlMsgHdr = none := by
  constructor
  · intro heq
    by_contra hhdr
    exact (length_lt_encodeSize hhdr).ne' heq
  · exact encodeSize_none

lemma TUniNetMsg.encodeSize_ne_size (m : TUniNetMsg) : m.encodeSize ≠ m.prepared.size := by
  have hhdr : (m.ctrlMsgHdr.map TRscMsgHdr.encodeSize).getD 0 =
      (m.prepared.ctrlMsgHdr.map TRscMsgHdr.size).getD 0 := by
    rw [prepared, Option.map_map]
    rfl
  have hbody : (m.msgBody.map fun b => sizeStr b.rsc.1).getD 0 = (m.prepared.msgBody.map TRscMsgBody.size).getD 0 :=
    rfl
  have hid : m.prepared.transID = m.transID := rfl
  have hoptions : m.prepared.optionSet = m.optionSet := rfl
  rw [encodeSize, size, senderSize, hhdr, hbody, hid, hoptions]
  split_ifs <;> omega

lemma TUniNetMsg.sentText_eq (m : TUniNetMsg) (mBuffer : ℕ → UInt8) :
    m.sentText mBuffer = m.encode ↔ m.ctrlMsgHdr = none := by
  rw [← m.encodeSize_eq_length]
  constructor
  · intro heq
    have hlen := congrArg List.length heq
    rw [sentText, List.length_map, List.length_range] at hlen
    by_contra hne
    have hhdr := mt m.encodeSize_eq_length.mpr hne
    have hlt := length_lt_encodeSize hhdr
    omega
  · intro heq
    rw [sentText, heq, Int.toNat_natCast]
    apply List.ext_getElem
    · rw [List.length_map, List.length_range]
    · intro i hi hlt
      rw [List.getElem_map, List.getElem_range, List.getD_eq_getElem?_getD,
        List.getElem?_eq_getElem hlt, Option.getD_some]

theorem encoded_sizes (x : Encoded) (m : TUniNetMsg) (mBuffer : ℕ → UInt8) : (x.Consistent ↔ ∃ b, x = .body b) ∧
    (m.encodeSize = m.encode.length ↔ m.ctrlMsgHdr = none) ∧ (m.sentText mBuffer = m.encode ↔ m.ctrlMsgHdr = none) := by
  refine ⟨?_, m.encodeSize_eq_length, m.sentText_eq mBuffer⟩
  cases x with
  | uri h =>
    refine ⟨fun hx => ?_, by rintro ⟨b, hb⟩; cases hb⟩
    have hsize : sizeStr h.prepared.uri = sizeStr h.prepared.uri + h.prepared.partsSize := hx.size
    linarith [h.prepared.partsSize_pos]
  | hdr h =>
    refine ⟨fun hx => ?_, by rintro ⟨b, hb⟩; cases hb⟩
    have hbytes : h.encodeSize = h.encode.length := hx.bytes
    rw [h.length_encode] at hbytes
    linarith [h.host.prepared.partsSize_pos]
  | body b => exact ⟨fun _ => ⟨b, rfl⟩, fun _ => ⟨(length_encodeVarChar b.rsc).symm, rfl⟩⟩
  | msg m => exact ⟨fun hx => absurd hx.size m.encodeSize_ne_size, by rintro ⟨b, hb⟩; cases hb⟩

theorem encoded_sizes_fail : ¬(Encoded.uri HostUri.new).Consistent ∧ ¬(Encoded.msg sample).Consistent ∧
    sample.sentText (fun _ => 0) ≠ sample.encode := by
  refine ⟨fun h => ?_, fun h => ?_, fun h => ?_⟩
  · have hsize : (4 : ℤ) = 28 := h.size
    omega
  · exact absurd h.size sample.encodeSize_ne_size
  · have hnone : sample.ctrlMsgHdr = none := (sample.sentText_eq _).mp h
    cases hnone

end Xframe.Msg.Rsc
