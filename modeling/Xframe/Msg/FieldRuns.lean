import Xframe.Msg.FieldAnswers

/-! Messages that are filled field by field, and those that are decoded from any bytes. -/

namespace Xframe.Msg.Fields

open Xframe.Lib
open CStr (ofString)

variable {c : MsgClass} {n : ℕ}

section Decoded

lemma arrayCodec_decode {max : ℕ} {old a : Args max} {buf rest : List UInt8}
    (h : (arrayCodec max).decode old buf = some (a, rest)) : 0 ≤ intOf a.argc ∧ intOf a.argc ≤ max := by
  obtain ⟨r, -, h⟩ := Option.bind_eq_some_iff.mp h
  split at h
  · cases h
    exact ⟨le_rfl, Int.natCast_nonneg max⟩
  · next hin =>
    obtain ⟨l, -, heq⟩ := Option.map_eq_some_iff.mp h
    cases heq
    change 0 ≤ intOf r.1 ∧ intOf r.1 ≤ max
    omega

lemma arrayCodec_refuses {max : ℕ} {k : UInt32} (h : max < intOf k ∨ intOf k < 0) (old : Args max)
    (rest : List UInt8) : (arrayCodec max).decode old (Rsc.encodeUInt k ++ rest) = some (⟨0, old.argv⟩, rest) := by
  have hk : Rsc.decodeUInt (Rsc.encodeUInt k ++ rest) = some (k, rest) := Rsc.decodeUInt_encode rest k
  rw [arrayCodec]
  dsimp only
  rw [hk, Option.bind_some]
  exact if_pos h

lemma FieldType.counted_decode {t : FieldType} {options : UInt32} {old v : t.Value} {buf rest : List UInt8}
    (h : (t.codec options).decode old buf = some (v, rest)) : ∃ n, t.Counted n v := by
  cases t with
  | list => exact ⟨_, le_rfl⟩
  | array max sizeName => exact ⟨0, arrayCodec_decode h⟩
  | INT => exact ⟨0, trivial⟩
  | LONG => exact ⟨0, trivial⟩
  | CStr => exact ⟨0, trivial⟩
  | text => exact ⟨0, trivial⟩
  | option flag => exact ⟨0, trivial⟩

lemma Values.counted_decode {fs : List Field} {options : UInt32} {old v : Values fs} {buf rest : List UInt8}
    (h : (Values.codec options fs).decode old buf = some (v, rest)) : ∃ n, Values.Counted n fs v := by
  induction fs generalizing buf with
  | nil => exact ⟨0, trivial⟩
  | cons f fs ih =>
    obtain ⟨buf, hfst, hsnd⟩ := Codec.pair_decode_some.mp h
    obtain ⟨k, hk⟩ := FieldType.counted_decode hfst
    obtain ⟨n, hn⟩ := ih hsnd
    exact ⟨max k n, FieldType.Counted.mono hk (le_max_left k n), Values.Counted.mono hn (le_max_right k n)⟩

lemma MsgClass.decode_some {old m : Message c} {buf rest : List UInt8} :
    c.decode old buf = some (m, rest) ↔
      ∃ buf', c.base.codec.decode old.head buf = some (m.head, buf') ∧
        (Values.codec (c.base.optionSet m.head) c.fields).decode old.values buf' = some (m.values, rest) := by
  have hcodec : (c.base.codec.tagged c.base.optionSet c.base.optionSet_received fun o =>
      Values.codec o c.fields).decode (old.head, old.values) buf = some ((m.head, m.values), rest) ↔ _ :=
    Codec.tagged_decode_some
  refine Iff.trans ?_ hcodec
  constructor
  · intro h
    obtain ⟨r, hr, heq⟩ := Option.map_eq_some_iff.mp h
    cases heq
    exact hr
  · exact fun h => Option.map_eq_some_iff.mpr ⟨_, h, rfl⟩

lemma MsgClass.counted_decode {old m : Message c} {buf rest : List UInt8} (h : c.decode old buf = some (m, rest)) :
    ∃ n, m.Counted n := by
  obtain ⟨buf, -, hvalues⟩ := MsgClass.decode_some.mp h
  exact Values.counted_decode hvalues

lemma decode_nine : TComMsgHdr.decode TComMsgHdr.new (Rsc.encodeUInt 0 ++ (Rsc.encodeUInt 0 ++ (Rsc.encodeUInt 0 ++
    (Rsc.encodeUInt 0 ++ (Rsc.encodeUInt 9 ++ [5]))))) = some (TComMsgHdr.new, [5]) := by
  have hint (rest : List UInt8) (k : UInt32) : intCodec.decode 0 (Rsc.encodeUInt k ++ rest) = some (k, rest) :=
    Rsc.decodeUInt_encode rest k
  refine MsgClass.decode_some.mpr ⟨Rsc.encodeUInt 0 ++ (Rsc.encodeUInt 0 ++ (Rsc.encodeUInt 0 ++
    (Rsc.encodeUInt 9 ++ [5]))), ?_, ?_⟩
  · exact Codec.tagged_decode_some (t := intCodec) (p := TComMsgHdr.new.head) (h := fun _ _ => rfl)
      (w := fun o => (Values.codec 0 TMsgAddress.fields).onlyIf (o &&& Base.orgAddrFlag ≠ 0)) |>.mpr
        ⟨_, hint _ 0, rfl⟩
  · refine Codec.pair_decode_some.mpr ⟨_, hint _ 0, Codec.pair_decode_some.mpr ⟨_, hint _ 0, ?_⟩⟩
    refine Codec.pair_decode_some.mpr ⟨_, hint _ 0, Codec.pair_decode_some.mpr ⟨_, ?_, rfl⟩⟩
    exact arrayCodec_refuses (by decide) _ [5]

theorem decoded_counted {old m : Message c} {buf rest : List UInt8} (h : c.decode old buf = some (m, rest)) :
    (∃ n, m.Counted n) ∧ (c.encode m).isSome := by
  obtain ⟨n, hn⟩ := MsgClass.counted_decode h
  obtain ⟨code, hcode⟩ := MsgClass.encode_counted hn
  refine ⟨⟨n, hn⟩, ?_⟩
  rw [MsgClass.encode, hcode]
  rfl

theorem decoded_counted_nine : (∃ n, TComMsgHdr.new.Counted n) ∧ (TComMsgHdr.encode TComMsgHdr.new).isSome :=
  decoded_counted decode_nine

end Decoded

section Runs

namespace MsgClass

def setFieldValues (c : MsgClass) (calls : List (Option Msg.CStr × VarChar)) (m : Message c) : Message c :=
  calls.foldl (fun m call => (c.setFieldValue call.1 call.2 m).getD m) m

/-- A number of elements that the call sets is one that the array can have. -/
def Careful (c : MsgClass) (call : Option Msg.CStr × VarChar) : Prop :=
  ∀ p, call.1 = some p → ∀ f ∈ c.fields, f.type.sizeNamed (getFieldName p).name →
    0 ≤ intOf (atoi call.2.1) ∧ intOf (atoi call.2.1) ≤ f.type.room

end MsgClass

lemma intOf_ofNat {k : ℕ} (h : k < 2 ^ 31) : intOf (UInt32.ofNat k) = k := by
  rw [intOf, UInt32.toNat_ofNat_of_lt' (h.trans (by decide)), if_pos h]

lemma FieldType.counted_set {t : FieldType} {options : UInt32} {part : PathPart} {value : VarChar} {v : t.Value}
    (hroom : t.room < 2 ^ 31) (hv : t.Counted n v) {r : UInt32 × t.Value} (h : t.set options part value v = some r) :
    t.Counted (n + 1) r.2 := by
  cases t with
  | INT => trivial
  | LONG => trivial
  | CStr => trivial
  | text => trivial
  | option flag => trivial
  | list =>
    rw [FieldType.set] at h
    split at h
    · cases h
    · cases h
      change List.length (if _ then _ else _) ≤ n + 1
      split
      · rw [List.concat_eq_append, List.length_append]
        exact Nat.succ_le_succ hv
      · rw [List.length_set]
        exact Nat.le_succ_of_le hv
  | array max sizeName =>
    rw [FieldType.set] at h
    split at h
    · cases h
    · next hin =>
      cases h
      have hmax : max < 2 ^ 31 := hroom
      change 0 ≤ intOf (if _ then _ else _) ∧ intOf (if _ then _ else _) ≤ (max : ℤ)
      split
      · rw [intOf_ofNat (by omega)]
        omega
      · exact hv

lemma FieldType.counted_setSize {t : FieldType} {value : VarChar} {v : t.Value} (hv : t.Counted n v)
    (hsize : 0 ≤ intOf (atoi value.1) ∧ intOf (atoi value.1) ≤ t.room) : t.Counted n (t.setSize value v) := by
  cases t with
  | array max sizeName => exact hsize
  | list => exact hv
  | INT => trivial
  | LONG => trivial
  | CStr => trivial
  | text => trivial
  | option flag => trivial

lemma Values.counted_set {fs : List Field} {options : UInt32} {part : PathPart} {value : VarChar} {v : Values fs}
    (hroom : ∀ f ∈ fs, f.type.room < 2 ^ 31)
    (hsize : ∀ f ∈ fs, f.type.sizeNamed part.name →
      0 ≤ intOf (atoi value.1) ∧ intOf (atoi value.1) ≤ f.type.room)
    (hv : Values.Counted n fs v) {r : UInt32 × Values fs} (h : Values.set options part value fs v = some r) :
    Values.Counted (n + 1) fs r.2 := by
  induction fs with
  | nil => trivial
  | cons f fs ih =>
    rw [List.forall_mem_cons] at hroom hsize
    rw [Values.set] at h
    split at h
    · obtain ⟨r, hr, rfl⟩ := Option.map_eq_some_iff.mp h
      exact ⟨FieldType.counted_set hroom.1 hv.1 hr, Values.Counted.mono hv.2 n.le_succ⟩
    · split at h
      · next hnamed =>
        cases h
        have hnumber := FieldType.counted_setSize hv.1 (hsize.1 hnamed)
        exact ⟨FieldType.Counted.mono hnumber n.le_succ, Values.Counted.mono hv.2 n.le_succ⟩
      · obtain ⟨r, hr, rfl⟩ := Option.map_eq_some_iff.mp h
        exact ⟨FieldType.Counted.mono hv.1 n.le_succ, ih hroom.2 hsize.2 hv.2 hr⟩

lemma MsgClass.counted_setFieldValue {call : Option Msg.CStr × VarChar} {m m' : Message c} (hcall : c.Careful call)
    (hm : m.Counted n) (h : c.setFieldValue call.1 call.2 m = some m') : m'.Counted (n + 1) := by
  obtain ⟨p, hp, h⟩ := Option.bind_eq_some_iff.mp h
  have hfield {m' : Message c} (h : c.setField (getFieldName p) call.2 m = some m') : m'.Counted (n + 1) := by
    obtain ⟨r, hr, rfl⟩ := Option.map_eq_some_iff.mp h
    exact Values.counted_set c.room_lt (hcall p hp) hm hr
  dsimp only at h
  split at h
  · cases haddr : c.base.orgAddr m.head with
    | none =>
      rw [haddr] at h
      exact hfield h
    | some a =>
      rw [haddr] at h
      obtain ⟨a, -, rfl⟩ := Option.map_eq_some_iff.mp h
      exact Values.Counted.mono hm n.le_succ
  · exact hfield h

lemma MsgClass.counted_setFieldValues {calls : List (Option Msg.CStr × VarChar)} {m : Message c}
    (hcalls : ∀ call ∈ calls, c.Careful call) (hm : m.Counted n) :
    (c.setFieldValues calls m).Counted (n + calls.length) := by
  induction calls generalizing n m with
  | nil => exact hm
  | cons call calls ih =>
    rw [List.forall_mem_cons] at hcalls
    have hstep : ((c.setFieldValue call.1 call.2 m).getD m).Counted (n + 1) := by
      cases h : c.setFieldValue call.1 call.2 m with
      | none => exact Values.Counted.mono hm n.le_succ
      | some m' => exact counted_setFieldValue hcalls.1 hm h
    have hrun := ih hcalls.2 hstep
    rwa [Nat.add_right_comm] at hrun

lemma Values.Fresh.counted {fs : List Field} {v : Values fs} (h : Values.Fresh fs v) : Values.Counted 0 fs v := by
  induction fs with
  | nil => trivial
  | cons f fs ih =>
    obtain ⟨name, t⟩ := f
    refine ⟨?_, ih h.2⟩
    cases t with
    | list => exact (congrArg List.length h.1).le
    | array max sizeName =>
      have hargc : intOf (Args.argc v.1) = 0 := h.1
      exact ⟨hargc.ge, hargc.trans_le (Int.natCast_nonneg max)⟩
    | INT => trivial
    | LONG => trivial
    | CStr => trivial
    | text => trivial
    | option flag => trivial

lemma TComMsgHdr.fresh_new : TComMsgHdr.new.Fresh := ⟨trivial, trivial, trivial, rfl, trivial⟩

lemma TComMsgHdr.careful {value : VarChar} (h : 0 ≤ intOf (atoi value.1) ∧ intOf (atoi value.1) ≤ 5)
    (path : Option Msg.CStr) : TComMsgHdr.Careful (path, value) := by
  intro p hp f hf hnamed
  rcases List.mem_cons.mp hf with rfl | hf
  · cases hnamed
  rcases List.mem_cons.mp hf with rfl | hf
  · cases hnamed
  rcases List.mem_cons.mp hf with rfl | hf
  · cases hnamed
  cases List.mem_singleton.mp hf
  exact h

theorem filled_answers {new old : Message c} (hnew : new.Fresh) (hold : old.Fresh)
    {calls : List (Option Msg.CStr × VarChar)} (hcalls : ∀ call ∈ calls, c.Careful call)
    (hlen : calls.length < 2 ^ 31) :
    (c.setFieldValues calls new).Arrives old := by
  have hm := MsgClass.counted_setFieldValues hcalls (Values.Fresh.counted hnew)
  rw [Nat.zero_add] at hm
  exact hm.arrives hlen hold

theorem filled_answers_argv : (TComMsgHdr.setFieldValues
    [(some (ofString "argv[1]"), ⟨ofString "b", by decide +kernel⟩),
      (some (ofString "argc"), ⟨ofString "1", by decide +kernel⟩)] TComMsgHdr.new).Arrives TComMsgHdr.new := by
  refine filled_answers TComMsgHdr.fresh_new TComMsgHdr.fresh_new ?_ (by decide)
  rw [List.forall_mem_cons, List.forall_mem_singleton]
  exact ⟨TComMsgHdr.careful (by decide +kernel) _, TComMsgHdr.careful (by decide +kernel) _⟩

end Runs

end Xframe.Msg.Fields
