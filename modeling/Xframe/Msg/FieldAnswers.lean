import Mathlib.Data.List.GetD
import Xframe.Msg.MsgClass

/-! What a message answers before and after it went over the wire, and the size that `encode` returns for it. -/

namespace Xframe.Msg.Fields

open Xframe.Lib
open CStr (ofString ofInt)
open Transport (sizeStr)

variable {c : MsgClass} {n : ℕ}

namespace FieldType

def Fresh : (t : FieldType) → t.Value → Prop
  | list, l => l = []
  | array _ _, a => intOf a.argc = 0
  | INT, _ => True
  | LONG, _ => True
  | CStr, _ => True
  | text, _ => True
  | option _, _ => True

def Counted (n : ℕ) : (t : FieldType) → t.Value → Prop
  | list, l => List.length l ≤ n
  | array max _, a => 0 ≤ intOf a.argc ∧ intOf a.argc ≤ max
  | INT, _ => True
  | LONG, _ => True
  | CStr, _ => True
  | text, _ => True
  | option _, _ => True

def isList : FieldType → Bool
  | list => true
  | _ => false

end FieldType

namespace Values

def Fresh : (fs : List Field) → Values fs → Prop
  | [], _ => True
  | f :: fs, v => f.type.Fresh v.1 ∧ Fresh fs v.2

def Counted (n : ℕ) : (fs : List Field) → Values fs → Prop
  | [], _ => True
  | f :: fs, v => f.type.Counted n v.1 ∧ Counted n fs v.2

end Values

def Message.Fresh (m : Message c) : Prop := Values.Fresh c.fields m.values

def Message.Counted (n : ℕ) (m : Message c) : Prop := Values.Counted n c.fields m.values

lemma Args.count_le {max : ℕ} {a : Args max} (h : intOf a.argc ≤ max) : a.count ≤ max := Int.toNat_le.mpr h

def Message.Arrives (m old : Message c) : Prop :=
  ∃ code, c.encode m = some (code, c.size m) ∧ ∀ rest, ∃ m', c.decode old (code ++ rest) = some (m', rest) ∧
    ∀ p, c.getFieldValue p m' = c.getFieldValue p m

lemma FieldType.Counted.mono {k : ℕ} {t : FieldType} {v : t.Value} (hv : t.Counted n v) (h : n ≤ k) :
    t.Counted k v := by
  cases t with
  | list => exact le_trans hv h
  | array max sizeName => exact hv
  | INT => trivial
  | LONG => trivial
  | CStr => trivial
  | text => trivial
  | option flag => trivial

lemma Values.Counted.mono {k : ℕ} {fs : List Field} {v : Values fs} (hv : Values.Counted n fs v) (h : n ≤ k) :
    Values.Counted k fs v := by
  induction fs with
  | nil => trivial
  | cons f fs ih => exact ⟨FieldType.Counted.mono hv.1 h, ih hv.2⟩

section Received

lemma Args.take_overwrite {max : ℕ} {l : List VarChar} (h : l.length ≤ max) (argv : Vector VarChar max) :
    (Args.overwrite l argv).toList.take l.length = l := by
  refine List.ext_getElem ?_ fun i hi hi' => ?_
  · rw [List.length_take, Vector.length_toList, min_eq_left h]
  · simp only [List.getElem_take, Vector.getElem_toList, Args.overwrite, Vector.getElem_ofFn]
    exact List.getD_eq_getElem _ _ hi'

lemma Args.used_overwrite {max : ℕ} {a : Args max} (h : a.count ≤ max) (argv : Vector VarChar max) :
    (⟨a.argc, Args.overwrite a.used argv⟩ : Args max).used = a.used := by
  have hlen : a.used.length = a.count := by
    rw [Args.used, List.length_take, Vector.length_toList, min_eq_left h]
  have htake := Args.take_overwrite (hlen.trans_le h) argv
  rwa [hlen] at htake

lemma FieldType.get_received {t : FieldType} {options : UInt32} {old v : t.Value} (hold : t.Fresh old)
    (hv : t.Counted n v) (part : PathPart) :
    t.get options part ((t.codec options).received old v) = t.get options part v := by
  cases t with
  | INT => rfl
  | LONG =>
    change Got.number (ofInt (intOf v.toUInt32.toUInt64.toUInt32)) = Got.number (ofInt (intOf v.toUInt32))
    rw [UInt32.toUInt32_toUInt64]
  | CStr => rfl
  | text => rfl
  | option flag =>
    by_cases h : options &&& flag ≠ 0
    · have hkept : ((FieldType.option flag).codec options).received old v = v := if_pos (decide_eq_true h)
      rw [hkept]
    · rw [FieldType.get, FieldType.get, if_neg h, if_neg h]
  | list =>
    cases hold
    rfl
  | array max sizeName =>
    exact congrArg (Got.element (intOf (Args.argc v)) · part) (Args.used_overwrite (Args.count_le hv.2) _)

lemma FieldType.getSize_received {t : FieldType} {options : UInt32} {old v : t.Value} :
    t.getSize ((t.codec options).received old v) = t.getSize v := by
  cases t <;> rfl

lemma Values.get_received {fs : List Field} {options : UInt32} {old v : Values fs} (hold : Values.Fresh fs old)
    (hv : Values.Counted n fs v) (part : PathPart) :
    Values.get options part fs ((Values.codec options fs).received old v) = Values.get options part fs v := by
  induction fs with
  | nil => rfl
  | cons f fs ih =>
    have hget : f.type.get options part ((f.type.codec options).received old.1 v.1) = f.type.get options part v.1 :=
      FieldType.get_received hold.1 hv.1 part
    have hrest := ih hold.2 hv.2
    unfold Values.get
    split_ifs
    · exact hget
    · exact FieldType.getSize_received
    · exact hrest

lemma Base.orgAddr_received (b : Base) (old h : b.Head) : b.orgAddr (b.codec.received old h) = b.orgAddr h := by
  cases b with
  | TCtrlMsg =>
    by_cases hflag : h.1 &&& orgAddrFlag ≠ 0
    · have hkept : (Base.TCtrlMsg.codec.received old h) = h := Prod.ext rfl (if_pos (decide_eq_true hflag))
      rw [hkept]
    · exact (if_neg hflag).trans (if_neg hflag).symm
  | options => rfl
  | TMsgBody => rfl

lemma MsgClass.getFieldValue_received {old m : Message c} (hold : old.Fresh) (hm : m.Counted n) (p : Option Msg.CStr) :
    c.getFieldValue p (c.codec.received old m) = c.getFieldValue p m := by
  have hget (part : PathPart) : c.getField part (c.codec.received old m) = c.getField part m := by
    change Values.get (c.base.optionSet (c.base.codec.received old.head m.head)) part c.fields
      ((Values.codec (c.base.optionSet m.head) c.fields).received old.values m.values) = _
    rw [Base.optionSet_received]
    exact Values.get_received hold hm part
  have haddr : c.base.orgAddr (c.codec.received old m).head = c.base.orgAddr m.head := Base.orgAddr_received ..
  cases p with
  | none => rfl
  | some p =>
    change (if (getFieldName p).name = ofString "orgAddr" then _ else _) =
      (if (getFieldName p).name = ofString "orgAddr" then _ else _)
    rw [haddr, hget]

end Received

section Written

lemma FieldType.fits {t : FieldType} {v : t.Value} (hn : n < 2 ^ 31) (hv : t.Counted n v) (options : UInt32) :
    (t.codec options).Fits v := by
  cases t with
  | INT => trivial
  | LONG => trivial
  | CStr => trivial
  | text => trivial
  | option flag => exact fun _ => trivial
  | list => exact lt_of_le_of_lt hv hn
  | array max sizeName => exact hv.1

lemma listCodec_encode (l : List VarChar) :
    listCodec.encode l = some (Rsc.encodeUInt (UInt32.ofNat l.length) ++ l.flatMap encodeVarChar) := by
  change Option.map _ (encodeAll vcharCodec.encode l) = _
  rw [encodeAll_vchar]
  rfl

lemma arrayCodec_encode {max : ℕ} (a : Args max) :
    (arrayCodec max).encode a =
      if max < a.count then none else some (Rsc.encodeUInt a.argc ++ a.used.flatMap encodeVarChar) := by
  change (if max < a.count then none else Option.map _ (encodeAll vcharCodec.encode a.used)) = _
  rw [encodeAll_vchar]
  rfl

lemma FieldType.encode_counted {t : FieldType} {v : t.Value} (hv : t.Counted n v) (options : UInt32) :
    ∃ code, (t.codec options).encode v = some code := by
  cases t with
  | INT => exact ⟨_, rfl⟩
  | LONG => exact ⟨_, rfl⟩
  | CStr => exact ⟨_, rfl⟩
  | text => exact ⟨_, rfl⟩
  | option flag =>
    by_cases h : options &&& flag ≠ 0
    · exact ⟨_, if_pos (decide_eq_true h)⟩
    · exact ⟨_, if_neg (by rwa [decide_eq_true_iff])⟩
  | list => exact ⟨_, listCodec_encode v⟩
  | array max sizeName => exact ⟨_, (arrayCodec_encode v).trans (if_neg (Args.count_le hv.2).not_gt)⟩

lemma Values.fits {fs : List Field} {v : Values fs} (hn : n < 2 ^ 31) (hv : Values.Counted n fs v) (options : UInt32) :
    (Values.codec options fs).Fits v := by
  induction fs with
  | nil => trivial
  | cons f fs ih => exact ⟨FieldType.fits hn hv.1 options, ih hv.2⟩

lemma Values.encode_counted {fs : List Field} {v : Values fs} (hv : Values.Counted n fs v) (options : UInt32) :
    ∃ code, (Values.codec options fs).encode v = some code := by
  induction fs with
  | nil => exact ⟨_, rfl⟩
  | cons f fs ih =>
    obtain ⟨bs, hbs⟩ := FieldType.encode_counted hv.1 options
    obtain ⟨cs, hcs⟩ := ih hv.2
    exact ⟨_, Codec.pair_encode_some.mpr ⟨bs, cs, hbs, hcs, rfl⟩⟩

lemma TMsgAddress.counted (a : Values TMsgAddress.fields) : Values.Counted 0 TMsgAddress.fields a :=
  ⟨trivial, trivial, trivial, trivial⟩

lemma Base.fits (b : Base) (h : b.Head) : b.codec.Fits h := by
  cases b with
  | TCtrlMsg => exact ⟨trivial, fun _ => Values.fits (by decide) (TMsgAddress.counted h.2) 0⟩
  | options => trivial
  | TMsgBody => trivial

lemma Base.encode_TCtrlMsg (h : Base.TCtrlMsg.Head) : Base.TCtrlMsg.codec.encode h =
    if h.1 &&& orgAddrFlag ≠ 0 then
      ((Values.codec 0 TMsgAddress.fields).encode h.2).map (Rsc.encodeUInt h.1 ++ ·)
    else some (Rsc.encodeUInt h.1) := by
  change Option.map _ (((Values.codec 0 TMsgAddress.fields).onlyIf (h.1 &&& orgAddrFlag ≠ 0)).encode h.2) = _
  by_cases hflag : h.1 &&& orgAddrFlag ≠ 0
  · rw [Codec.onlyIf_encode, if_pos (decide_eq_true hflag), if_pos hflag]
  · rw [Codec.onlyIf_encode, if_neg (by rwa [decide_eq_true_iff]), if_neg hflag]
    exact congrArg some (List.append_nil _)

lemma Base.encode_head (b : Base) (h : b.Head) : ∃ code, b.codec.encode h = some code := by
  cases b with
  | TCtrlMsg =>
    obtain ⟨cs, hcs⟩ := Values.encode_counted (TMsgAddress.counted h.2) 0
    rw [Base.encode_TCtrlMsg, hcs]
    split <;> exact ⟨_, rfl⟩
  | options => exact ⟨_, rfl⟩
  | TMsgBody => exact ⟨_, rfl⟩

lemma MsgClass.fits {m : Message c} (hn : n < 2 ^ 31) (hm : m.Counted n) : c.codec.Fits m :=
  ⟨Base.fits _ _, Values.fits hn hm _⟩

lemma MsgClass.encode_some {m : Message c} {code : List UInt8} :
    c.codec.encode m = some code ↔
      ∃ bs cs, c.base.codec.encode m.head = some bs ∧
        (Values.codec (c.base.optionSet m.head) c.fields).encode m.values = some cs ∧ bs ++ cs = code :=
  Codec.tagged_encode_some (p := (m.head, m.values)) (w := fun o => Values.codec o c.fields)
    (h := c.base.optionSet_received)

lemma MsgClass.encode_counted {m : Message c} (hm : m.Counted n) : ∃ code, c.codec.encode m = some code := by
  obtain ⟨bs, hbs⟩ := Base.encode_head c.base m.head
  obtain ⟨cs, hcs⟩ := Values.encode_counted hm (c.base.optionSet m.head)
  exact ⟨bs ++ cs, encode_some.mpr ⟨bs, cs, hbs, hcs, rfl⟩⟩

lemma Message.Counted.arrives {m old : Message c} (hm : m.Counted n) (hn : n < 2 ^ 31) (hold : old.Fresh) :
    m.Arrives old := by
  obtain ⟨code, hcode⟩ := MsgClass.encode_counted hm
  refine ⟨code, ?_, fun rest => ⟨_, c.codec.decode_encode (MsgClass.fits hn hm) hcode old rest, ?_⟩⟩
  · rw [MsgClass.encode, hcode, Option.map_some]
  · exact MsgClass.getFieldValue_received hold hm

end Written

section Sizes

lemma length_counted (n : UInt32) (l : List VarChar) :
    ((Rsc.encodeUInt n ++ l.flatMap encodeVarChar).length : ℤ) = 4 + (l.map fun s => sizeStr s.1).sum := by
  have hl : ((l.flatMap encodeVarChar).length : ℤ) = (l.map fun s => sizeStr s.1).sum := by
    induction l with
    | nil => rfl
    | cons s l ih =>
      rw [List.flatMap_cons, List.length_append, Nat.cast_add, length_encodeVarChar, ih, List.map_cons,
        List.sum_cons]
  rw [List.length_append, Nat.cast_add, hl, Rsc.length_encodeUInt]
  rfl

lemma FieldType.length_encode {t : FieldType} {options : UInt32} {v : t.Value} {code : List UInt8}
    (h : (t.codec options).encode v = some code) :
    (code.length : ℤ) = t.size options v + if t.isList then 4 else 0 := by
  cases t with
  | INT =>
    cases h
    rfl
  | LONG =>
    cases h
    rfl
  | CStr =>
    cases h
    exact (length_encodeVarChar v).trans (add_zero _).symm
  | text =>
    cases h
    exact (length_encodeVarChar v).trans (add_zero _).symm
  | option flag =>
    by_cases hflag : options &&& flag ≠ 0
    · have hcode := (if_pos (decide_eq_true hflag)).symm.trans h
      cases hcode
      rw [size, if_pos hflag]
      exact (length_encodeVarChar v).trans (add_zero _).symm
    · have hcode := (if_neg (by rwa [decide_eq_true_iff])).symm.trans h
      cases hcode
      rw [size, if_neg hflag]
      rfl
  | list =>
    have hcode := (listCodec_encode v).symm.trans h
    rw [← Option.some.inj hcode, length_counted]
    exact add_comm ..
  | array max sizeName =>
    have hcode := (arrayCodec_encode v).symm.trans h
    split at hcode
    · cases hcode
    · rw [← Option.some.inj hcode, length_counted]
      exact (add_zero _).symm

def lists (fs : List Field) : ℕ := fs.countP fun f => f.type.isList

lemma Values.length_encode {fs : List Field} {options : UInt32} {v : Values fs} {code : List UInt8}
    (h : (Values.codec options fs).encode v = some code) :
    (code.length : ℤ) = Values.size options fs v + 4 * lists fs := by
  induction fs generalizing code with
  | nil =>
    cases h
    rfl
  | cons f fs ih =>
    obtain ⟨bs, cs, hbs, hcs, rfl⟩ := Codec.pair_encode_some.mp h
    have hfield := FieldType.length_encode hbs
    have hrest := ih hcs
    rw [lists] at hrest
    rw [Values.size, lists, List.countP_cons, List.length_append]
    push_cast
    by_cases hlist : f.type.isList = true
    · rw [if_pos hlist] at hfield ⊢
      omega
    · rw [if_neg hlist] at hfield ⊢
      omega

lemma Base.length_encode {b : Base} {h : b.Head} {code : List UInt8} (hcode : b.codec.encode h = some code) :
    (code.length : ℤ) = b.size h := by
  cases b with
  | TCtrlMsg =>
    rw [Base.encode_TCtrlMsg] at hcode
    by_cases hflag : h.1 &&& orgAddrFlag ≠ 0
    · rw [if_pos hflag] at hcode
      obtain ⟨cs, hcs, rfl⟩ := Option.map_eq_some_iff.mp hcode
      rw [List.length_append, Nat.cast_add, Rsc.length_encodeUInt, Values.length_encode hcs, Base.size, if_pos hflag]
      rfl
    · rw [if_neg hflag] at hcode
      cases hcode
      rw [Base.size, if_neg hflag]
      rfl
  | options =>
    cases hcode
    rfl
  | TMsgBody =>
    cases hcode
    rfl

theorem size_encode {m : Message c} {code : List UInt8} {size : ℤ} (h : c.encode m = some (code, size)) :
    size = code.length + c.sizeAgain - 4 * lists c.fields := by
  obtain ⟨code, hcode, heq⟩ := Option.map_eq_some_iff.mp h
  cases heq
  obtain ⟨bs, cs, hbs, hcs, rfl⟩ := MsgClass.encode_some.mp hcode
  have hhead := Base.length_encode hbs
  have hvalues := Values.length_encode hcs
  rw [MsgClass.size, List.length_append]
  push_cast
  omega

theorem size_encode_subscribe : (16 : ℤ) =
    (encodeVarChar noText ++ (Rsc.encodeUInt 7 ++ (Rsc.encodeUInt 2 ++ (encodeVarChar noText ++
      encodeVarChar noText)))).length + TMqttSubscribe.sizeAgain - 4 * lists TMqttSubscribe.fields :=
  size_encode (c := TMqttSubscribe) (m := ⟨(), noText, 7, [noText, noText], ()⟩) rfl

end Sizes

end Xframe.Msg.Fields
