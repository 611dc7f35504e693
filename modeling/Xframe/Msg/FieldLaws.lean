import Xframe.Msg.FieldRuns

/-! What `setFieldValue` changes of the answers of a message. -/

namespace Xframe.Msg.Fields

open Xframe.Lib
open CStr (ofString ofInt)

variable {c : MsgClass} {options : UInt32} {part : PathPart} {value : VarChar}

def Field.Answers (f : Field) (name : Msg.CStr) : Prop := name = ofString f.name ∨ f.type.sizeNamed name = true

instance (f : Field) (name : Msg.CStr) : Decidable (f.Answers name) :=
  inferInstanceAs (Decidable (name = ofString f.name ∨ f.type.sizeNamed name = true))

def FieldType.answer (value : VarChar) : FieldType → Got
  | INT => .number (ofInt (intOf (atoi value.1)))
  | LONG => .number (ofInt (intOf (atoi value.1)))
  | CStr => .text value.1
  | text => .text (value.1.takeWhile (· ≠ 0))
  | option _ => .text value.1
  | list => .text value.1
  | array _ _ => .text value.1

def Values.answer (part : PathPart) (value : VarChar) : List Field → Got
  | [] => .missing
  | f :: fs =>
    if part.name = ofString f.name then f.type.answer value
    else if f.type.sizeNamed part.name then .number (ofInt (intOf (atoi value.1)))
    else Values.answer part value fs

section Options

lemma and_or_of_apart {o f g : UInt32} (h : f &&& g = 0) : (o ||| f) &&& g = o &&& g := by
  refine UInt32.toBitVec_inj.mp (BitVec.eq_of_getElem_eq fun i hi => ?_)
  have hbits : f.toBitVec &&& g.toBitVec = 0#32 := congrArg UInt32.toBitVec h
  have hbit : (f.toBitVec[i] && g.toBitVec[i]) = false := by
    rw [← BitVec.getElem_and]
    simp only [hbits, BitVec.getElem_zero]
  change ((o.toBitVec ||| f.toBitVec) &&& g.toBitVec)[i] = (o.toBitVec &&& g.toBitVec)[i]
  rw [BitVec.getElem_and, BitVec.getElem_or, BitVec.getElem_and, Bool.and_or_distrib_right, hbit, Bool.or_false]

lemma or_and_self (o f : UInt32) : (o ||| f) &&& f = f := by
  refine UInt32.toBitVec_inj.mp ?_
  change (o.toBitVec ||| f.toBitVec) &&& f.toBitVec = f.toBitVec
  refine BitVec.eq_of_getElem_eq fun i hi => ?_
  rw [BitVec.getElem_and, BitVec.getElem_or]
  cases f.toBitVec[i] <;> simp

lemma FieldType.options_set {t : FieldType} {v : t.Value} {r : UInt32 × t.Value}
    (h : t.set options part value v = some r) : r.1 = options ||| t.flag := by
  cases t with
  | list =>
    rw [FieldType.set] at h
    split at h
    · cases h
    · cases h
      exact UInt32.or_zero.symm
  | array max sizeName =>
    rw [FieldType.set] at h
    split at h
    · cases h
    · cases h
      exact UInt32.or_zero.symm
  | option flag =>
    cases h
    rfl
  | INT =>
    cases h
    exact UInt32.or_zero.symm
  | LONG =>
    cases h
    exact UInt32.or_zero.symm
  | CStr =>
    cases h
    exact UInt32.or_zero.symm
  | text =>
    cases h
    exact UInt32.or_zero.symm

lemma Values.options_set {fs : List Field} {v : Values fs} {r : UInt32 × Values fs}
    (h : Values.set options part value fs v = some r) : r.1 = options ∨ ∃ f ∈ fs, r.1 = options ||| f.type.flag := by
  induction fs with
  | nil => cases h
  | cons f fs ih =>
    rw [Values.set] at h
    split at h
    · obtain ⟨r, hr, rfl⟩ := Option.map_eq_some_iff.mp h
      exact Or.inr ⟨f, List.mem_cons_self, FieldType.options_set hr⟩
    · split at h
      · cases h
        exact Or.inl rfl
      · obtain ⟨r, hr, rfl⟩ := Option.map_eq_some_iff.mp h
        rcases ih hr with hsame | ⟨g, hg, heq⟩
        · exact Or.inl hsame
        · exact Or.inr ⟨g, List.mem_cons_of_mem _ hg, heq⟩

lemma FieldType.get_options {t : FieldType} {o o' : UInt32} (h : o' &&& t.flag = o &&& t.flag) (v : t.Value) :
    t.get o' part v = t.get o part v := by
  cases t with
  | option flag =>
    have hflag : o' &&& flag = o &&& flag := h
    rw [FieldType.get, FieldType.get, hflag]
  | INT => rfl
  | LONG => rfl
  | CStr => rfl
  | text => rfl
  | list => rfl
  | array max sizeName => rfl

lemma Values.get_options {fs : List Field} {o o' : UInt32} (h : ∀ f ∈ fs, o' &&& f.type.flag = o &&& f.type.flag)
    (v : Values fs) : Values.get o' part fs v = Values.get o part fs v := by
  induction fs with
  | nil => rfl
  | cons f fs ih =>
    rw [List.forall_mem_cons] at h
    rw [Values.get, Values.get, FieldType.get_options h.1, ih h.2]

end Options

lemma Args.getElem?_used {max : ℕ} {a : Args max} {i : ℕ} (hcount : i < a.count) (hmax : i < max) :
    a.used[i]? = some a.argv[i] := by
  rw [Args.used, List.getElem?_take_of_lt hcount, Vector.getElem?_toList, Vector.getElem?_eq_getElem hmax]

lemma Got.element_some {size : ℤ} {l : List VarChar} {s : VarChar} (hindex : ¬part.index < 0)
    (h : l[part.index.toNat]? = some s) : Got.element size l part = .text s.1 := by
  rw [Got.element, if_neg hindex, h]
  rfl

lemma getElem?_set_list {l : List VarChar} {i : ℤ} (hi : ¬(i < 0 ∨ l.length < i)) :
    (if i = l.length then l.concat value else l.set i.toNat value)[i.toNat]? = some value := by
  rw [not_or, not_lt, not_lt] at hi
  split
  · next heq =>
    rw [heq, Int.toNat_natCast, List.concat_eq_append, List.getElem?_concat_length]
  · rw [List.getElem?_set_self (by omega)]

lemma toUInt32_ofInt (n : UInt32) : (UInt64.ofInt (intOf n)).toUInt32 = n := by
  have hn := n.toNat_lt
  rw [UInt64.ofInt, UInt64.toUInt32_ofNat', ← UInt32.toNat_inj, UInt32.toNat_ofNat', intOf]
  split <;> omega

lemma getElem?_set_array {max : ℕ} {a : Args max} {i : ℤ} (hmax : max < 2 ^ 31) (hi : ¬(i < 0 ∨ max ≤ i)) :
    (⟨if intOf a.argc ≤ i then UInt32.ofNat (i.toNat + 1) else a.argc,
      a.argv.setIfInBounds i.toNat value⟩ : Args max).used[i.toNat]? = some value := by
  rw [not_or, not_lt, not_le] at hi
  have hin : i.toNat < max := by omega
  rw [Args.getElem?_used ?_ hin]
  · rw [Vector.getElem_setIfInBounds_self]
  · rw [Args.count]
    dsimp only
    split
    · rw [intOf_ofNat (by omega)]
      omega
    · omega

lemma FieldType.get_set {t : FieldType} {v : t.Value} {r : UInt32 × t.Value} (ht : t ≠ .option 0)
    (hroom : t.room < 2 ^ 31) (h : t.set options part value v = some r) :
    t.get r.1 part r.2 = t.answer value := by
  cases t with
  | INT =>
    cases h
    rfl
  | LONG =>
    cases h
    exact congrArg (Got.number ∘ ofInt ∘ intOf) (toUInt32_ofInt _)
  | CStr =>
    cases h
    rfl
  | text =>
    cases h
    exact congrArg Got.text (List.takeWhile_idem ..)
  | option flag =>
    cases h
    have hset : (options ||| flag) &&& flag ≠ 0 := by
      rw [or_and_self]
      exact fun hzero => ht (congrArg FieldType.option hzero)
    exact if_pos hset
  | list =>
    rw [FieldType.set] at h
    split at h
    · cases h
    · next hin =>
      cases h
      exact Got.element_some (not_or.mp hin).1 (getElem?_set_list hin)
  | array max sizeName =>
    rw [FieldType.set] at h
    split at h
    · cases h
    · next hin =>
      cases h
      exact Got.element_some (not_or.mp hin).1 (getElem?_set_array hroom hin)

lemma FieldType.getSize_setSize {t : FieldType} {name : Msg.CStr} (ht : t.sizeNamed name = true) (v : t.Value) :
    t.getSize (t.setSize value v) = .number (ofInt (intOf (atoi value.1))) := by
  cases t with
  | array max sizeName => rfl
  | INT => cases ht
  | LONG => cases ht
  | CStr => cases ht
  | text => cases ht
  | option flag => cases ht
  | list => cases ht

lemma Values.get_set {fs : List Field} {v : Values fs} {r : UInt32 × Values fs}
    (hfs : ∀ f ∈ fs, f.type ≠ .option 0) (hroom : ∀ f ∈ fs, f.type.room < 2 ^ 31)
    (h : Values.set options part value fs v = some r) :
    Values.get r.1 part fs r.2 = Values.answer part value fs := by
  induction fs with
  | nil => cases h
  | cons f fs ih =>
    rw [List.forall_mem_cons] at hfs hroom
    rw [Values.set] at h
    rw [Values.answer]
    split at h
    · next hname =>
      obtain ⟨r, hr, rfl⟩ := Option.map_eq_some_iff.mp h
      rw [Values.get, if_pos hname, if_pos hname]
      exact FieldType.get_set hfs.1 hroom.1 hr
    · next hname =>
      split at h
      · next hnamed =>
        cases h
        rw [Values.get, if_neg hname, if_neg hname, if_pos hnamed, if_pos hnamed]
        exact FieldType.getSize_setSize hnamed v.1
      · next hnamed =>
        obtain ⟨r, hr, rfl⟩ := Option.map_eq_some_iff.mp h
        rw [Values.get, if_neg hname, if_neg hname, if_neg hnamed, if_neg hnamed]
        exact ih hfs.2 hroom.2 hr

lemma Values.get_set_apart {fs : List Field} {v : Values fs} {r : UInt32 × Values fs} {other : PathPart}
    (hflags : fs.Pairwise fun f g => f.type.flag &&& g.type.flag = 0)
    (hapart : ∀ f ∈ fs, f.Answers part.name → ¬f.Answers other.name)
    (h : Values.set options part value fs v = some r) :
    Values.get r.1 other fs r.2 = Values.get options other fs v := by
  induction fs with
  | nil => cases h
  | cons f fs ih =>
    rw [List.pairwise_cons] at hflags
    rw [List.forall_mem_cons] at hapart
    rw [Values.set] at h
    split at h
    · next hname =>
      obtain ⟨r, hr, rfl⟩ := Option.map_eq_some_iff.mp h
      have hother := hapart.1 (Or.inl hname)
      rw [Field.Answers, not_or] at hother
      rw [Values.get, Values.get, if_neg hother.1, if_neg hother.1, if_neg hother.2, if_neg hother.2]
      refine Values.get_options (fun g hg => ?_) v.2
      rw [FieldType.options_set hr, and_or_of_apart (hflags.1 g hg)]
    · split at h
      · next hnamed =>
        cases h
        have hother := hapart.1 (Or.inr hnamed)
        rw [Field.Answers, not_or] at hother
        rw [Values.get, Values.get, if_neg hother.1, if_neg hother.1, if_neg hother.2, if_neg hother.2]
      · obtain ⟨r, hr, rfl⟩ := Option.map_eq_some_iff.mp h
        have hf : r.1 &&& f.type.flag = options &&& f.type.flag := by
          rcases Values.options_set hr with hsame | ⟨g, hg, heq⟩
          · rw [hsame]
          · rw [heq, and_or_of_apart]
            rw [UInt32.and_comm]
            exact hflags.1 g hg
        rw [Values.get, Values.get, FieldType.get_options hf, ih hflags.2 hapart.2 hr]

section Address

namespace TMsgAddress

def answer (p : Option Msg.CStr) (value : VarChar) : Got :=
  p.elim .missing fun p => Values.answer (getFieldName p) value fields

def Apart (p q : Option Msg.CStr) : Prop :=
  ∀ r ∈ p, ∀ s ∈ q, ∀ f ∈ fields, f.Answers (getFieldName r).name → ¬f.Answers (getFieldName s).name

instance (p q : Option Msg.CStr) : Decidable (Apart p q) :=
  inferInstanceAs (Decidable (∀ r ∈ p, ∀ s ∈ q, ∀ f ∈ fields,
    f.Answers (getFieldName r).name → ¬f.Answers (getFieldName s).name))

variable {p q : Option Msg.CStr} {a a' : Values fields}

lemma options_set {r : UInt32 × Values fields} (h : Values.set 0 part value fields a = some r) : r.1 = 0 := by
  rcases Values.options_set h with hsame | ⟨f, hf, heq⟩
  · exact hsame
  · have hflag : ∀ f ∈ fields, f.type.flag = 0 := by decide
    rw [heq, hflag f hf]
    rfl

lemma getFieldValue_set (h : setFieldValue p value a = some a') : getFieldValue p a' = answer p value := by
  obtain ⟨p, rfl, h⟩ := Option.bind_eq_some_iff.mp h
  obtain ⟨r, hr, rfl⟩ := Option.map_eq_some_iff.mp h
  have hget := Values.get_set (by decide) (by decide) hr
  rwa [options_set hr] at hget

lemma getFieldValue_set_apart (h : setFieldValue p value a = some a') (hq : Apart p q) :
    getFieldValue q a' = getFieldValue q a := by
  obtain ⟨p, rfl, h⟩ := Option.bind_eq_some_iff.mp h
  obtain ⟨r, hr, rfl⟩ := Option.map_eq_some_iff.mp h
  cases q with
  | none => rw [getFieldValue, getFieldValue, Option.elim_none, Option.elim_none]
  | some q =>
    have hget := Values.get_set_apart (by decide) (hq p rfl q rfl) hr
    rwa [options_set hr] at hget

end TMsgAddress

namespace Base

variable {b : Base}

lemma orgAddr_setOrgAddr {h : b.Head} {a : Values TMsgAddress.fields} (ha : b.orgAddr h = some a)
    (a' : Values TMsgAddress.fields) : b.orgAddr (b.setOrgAddr a' h) = some a' := by
  cases b with
  | TCtrlMsg =>
    rw [orgAddr] at ha
    split at ha
    · next hflag => exact if_pos hflag
    · cases ha
  | options => cases ha
  | TMsgBody => cases ha

lemma optionSet_setOrgAddr (a : Values TMsgAddress.fields) (h : b.Head) :
    b.optionSet (b.setOrgAddr a h) = b.optionSet h := by
  cases b <;> rfl

lemma orgAddr_setOptions {h : b.Head} {o : UInt32} (ho : b ≠ .options → o = b.optionSet h) :
    b.orgAddr (b.setOptions o h) = b.orgAddr h := by
  cases b with
  | TCtrlMsg =>
    rw [ho (by decide)]
    rfl
  | options => rfl
  | TMsgBody => rfl

lemma optionSet_setOptions {h : b.Head} {o : UInt32} (ho : b ≠ .options → o = b.optionSet h) :
    b.optionSet (b.setOptions o h) = o := by
  cases b with
  | TCtrlMsg => rfl
  | options => rfl
  | TMsgBody => exact (ho (by decide)).symm

end Base

end Address

namespace MsgClass

def answer (c : MsgClass) (m : Message c) (p : Msg.CStr) (value : VarChar) : Got :=
  if (getFieldName p).name = ofString "orgAddr" ∧ (c.base.orgAddr m.head).isSome then
    TMsgAddress.answer (getFieldName p).rest value
  else Values.answer (getFieldName p) value c.fields

/-- No field answers to the names of both paths, and no part of the address if both lead into it. -/
def Apart (c : MsgClass) (m : Message c) (p q : Msg.CStr) : Prop :=
  if (getFieldName p).name = ofString "orgAddr" ∧ (getFieldName q).name = ofString "orgAddr" ∧
      (c.base.orgAddr m.head).isSome then TMsgAddress.Apart (getFieldName p).rest (getFieldName q).rest
  else ∀ f ∈ c.fields, f.Answers (getFieldName p).name → ¬f.Answers (getFieldName q).name

instance (c : MsgClass) (m : Message c) (p q : Msg.CStr) : Decidable (c.Apart m p q) :=
  inferInstanceAs (Decidable (ite _ _ _))

variable {p q : Msg.CStr} {m m' : Message c}

lemma getFieldValue_field (h : (getFieldName p).name = ofString "orgAddr" → c.base.orgAddr m.head = none) :
    c.getFieldValue (some p) m = c.getField (getFieldName p) m := by
  change (if _ then _ else _) = _
  split
  · next hname =>
    rw [h hname]
    rfl
  · rfl

lemma getFieldValue_orgAddr {a : Values TMsgAddress.fields} (hname : (getFieldName p).name = ofString "orgAddr")
    (ha : c.base.orgAddr m.head = some a) :
    c.getFieldValue (some p) m = TMsgAddress.getFieldValue (getFieldName p).rest a := by
  refine (if_pos hname).trans ?_
  rw [ha]
  rfl

lemma setFieldValue_cases (h : c.setFieldValue (some p) value m = some m') :
    (∃ a a', (getFieldName p).name = ofString "orgAddr" ∧ c.base.orgAddr m.head = some a ∧
      TMsgAddress.setFieldValue (getFieldName p).rest value a = some a' ∧
        m' = { m with head := c.base.setOrgAddr a' m.head }) ∨
    ((getFieldName p).name = ofString "orgAddr" → c.base.orgAddr m.head = none) ∧
      c.setField (getFieldName p) value m = some m' := by
  rw [setFieldValue, Option.bind_some] at h
  dsimp only at h
  split at h
  · next hname =>
    cases ha : c.base.orgAddr m.head with
    | none =>
      rw [ha] at h
      exact Or.inr ⟨fun _ => rfl, h⟩
    | some a =>
      rw [ha] at h
      obtain ⟨a', hset, rfl⟩ := Option.map_eq_some_iff.mp h
      exact Or.inl ⟨a, a', hname, rfl, hset, rfl⟩
  · next hname => exact Or.inr ⟨fun hname' => absurd hname' hname, h⟩

lemma setField_options {r : UInt32 × Values c.fields}
    (h : Values.set (c.base.optionSet m.head) part value c.fields m.values = some r) (hbase : c.base ≠ .options) :
    r.1 = c.base.optionSet m.head := by
  rcases Values.options_set h with hsame | ⟨f, hf, heq⟩
  · exact hsame
  · rw [heq, c.flags_base hbase f hf, UInt32.or_zero]

theorem set_answers (h : c.setFieldValue (some p) value m = some m') :
    c.getFieldValue (some p) m' = c.answer m p value ∧
      ∀ q, c.Apart m p q → c.getFieldValue (some q) m' = c.getFieldValue (some q) m := by
  rcases setFieldValue_cases h with ⟨a, a', hname, ha, hset, rfl⟩ | ⟨hname, hset⟩
  · have ha' := Base.orgAddr_setOrgAddr ha a'
    have hsome : (c.base.orgAddr m.head).isSome := by
      rw [ha]
      rfl
    refine ⟨?_, fun q hq => ?_⟩
    · rw [getFieldValue_orgAddr hname ha', answer, if_pos ⟨hname, hsome⟩]
      exact TMsgAddress.getFieldValue_set hset
    · by_cases hsame : (getFieldName q).name = ofString "orgAddr"
      · rw [Apart, if_pos ⟨hname, hsame, hsome⟩] at hq
        rw [getFieldValue_orgAddr hsame ha', getFieldValue_orgAddr hsame ha]
        exact TMsgAddress.getFieldValue_set_apart hset hq
      · rw [getFieldValue_field fun h => absurd h hsame, getFieldValue_field fun h => absurd h hsame,
          getField, getField, Base.optionSet_setOrgAddr]
  · obtain ⟨r, hr, rfl⟩ := Option.map_eq_some_iff.mp hset
    have hoptions := setField_options hr
    have haddr : c.base.orgAddr (c.base.setOptions r.1 m.head) = c.base.orgAddr m.head :=
      Base.orgAddr_setOptions hoptions
    have hanswer : ¬((getFieldName p).name = ofString "orgAddr" ∧ (c.base.orgAddr m.head).isSome) := by
      rintro ⟨hsame, hsome⟩
      rw [hname hsame] at hsome
      cases hsome
    have hfield (part : PathPart) : c.getField part ⟨c.base.setOptions r.1 m.head, r.2⟩ =
        Values.get r.1 part c.fields r.2 := by
      rw [getField, Base.optionSet_setOptions hoptions]
    refine ⟨?_, fun q hq => ?_⟩
    · rw [getFieldValue_field fun hsame => haddr.trans (hname hsame), hfield, answer, if_neg hanswer]
      exact Values.get_set c.option_flag c.room_lt hr
    · rw [Apart, if_neg fun hboth => hanswer ⟨hboth.1, hboth.2.2⟩] at hq
      have hkept := (hfield (getFieldName q)).trans (Values.get_set_apart c.flags_apart hq hr)
      change (if _ then _ else _) = (if _ then _ else _)
      rw [haddr, hkept]
      rfl

theorem set_answers_orgAddr : ∃ m', TMqttCtrlMsg.setFieldValue (some (ofString "orgAddr.phyAddr"))
    ⟨ofString "7", by decide +kernel⟩ ⟨(1, 2, 3, 4, ()), 5, ()⟩ = some m' ∧
      TMqttCtrlMsg.getFieldValue (some (ofString "orgAddr.phyAddr")) m' = .number (ofString "7") ∧
      TMqttCtrlMsg.getFieldValue (some (ofString "orgAddr.logAddr")) m' = .number (ofString "2") ∧
      TMqttCtrlMsg.getFieldValue (some (ofString "cid")) m' = .number (ofString "5") := by
  have hset : (TMqttCtrlMsg.setFieldValue (some (ofString "orgAddr.phyAddr")) ⟨ofString "7", by decide +kernel⟩
    ⟨(1, 2, 3, 4, ()), 5, ()⟩).isSome := by decide +kernel
  obtain ⟨m', h⟩ := Option.isSome_iff_exists.mp hset
  obtain ⟨hphy, hother⟩ := set_answers h
  exact ⟨m', h, hphy.trans (by decide +kernel), (hother _ (by decide +kernel)).trans (by decide +kernel),
    (hother _ (by decide +kernel)).trans (by decide +kernel)⟩

end MsgClass

namespace TComMsgHdr

def argc (m : Message TComMsgHdr) : ℤ := intOf m.values.2.2.2.1.argc

lemma getFieldName_argc : getFieldName (ofString "argc") = ⟨ofString "argc", -1, none⟩ := by decide +kernel

lemma argc_apart : ofString "argc" ≠ ofString "status" ∧ ofString "argc" ≠ ofString "pri" ∧
    ofString "argc" ≠ ofString "facility" ∧ ofString "argc" ≠ ofString "argv" ∧
    ofString "argc" ≠ ofString "orgAddr" := by decide +kernel

lemma get_argc (options : UInt32) (v : Values TComMsgHdr.fields) :
    Values.get options ⟨ofString "argc", -1, none⟩ TComMsgHdr.fields v = .number (ofInt (intOf v.2.2.2.1.argc)) := by
  obtain ⟨hstatus, hpri, hfacility, hargv, -⟩ := argc_apart
  refine (if_neg hstatus).trans ((if_neg Bool.false_ne_true).trans ?_)
  refine (if_neg hpri).trans ((if_neg Bool.false_ne_true).trans ?_)
  refine (if_neg hfacility).trans ((if_neg Bool.false_ne_true).trans ?_)
  exact (if_neg hargv).trans (if_pos (decide_eq_true rfl))

lemma set_argc (options : UInt32) (value : VarChar) (v : Values TComMsgHdr.fields) :
    Values.set options ⟨ofString "argc", -1, none⟩ value TComMsgHdr.fields v =
      some (options, v.1, v.2.1, v.2.2.1, ⟨atoi value.1, v.2.2.2.1.argv⟩, ()) := by
  obtain ⟨hstatus, hpri, hfacility, hargv, -⟩ := argc_apart
  refine (if_neg hstatus).trans ((if_neg Bool.false_ne_true).trans ?_)
  refine Option.map_eq_some_iff.mpr ⟨⟨options, v.2.1, v.2.2.1, ⟨atoi value.1, v.2.2.2.1.argv⟩, ()⟩, ?_, rfl⟩
  refine (if_neg hpri).trans ((if_neg Bool.false_ne_true).trans ?_)
  refine Option.map_eq_some_iff.mpr ⟨⟨options, v.2.2.1, ⟨atoi value.1, v.2.2.2.1.argv⟩, ()⟩, ?_, rfl⟩
  refine (if_neg hfacility).trans ((if_neg Bool.false_ne_true).trans ?_)
  refine Option.map_eq_some_iff.mpr ⟨⟨options, ⟨atoi value.1, v.2.2.2.1.argv⟩, ()⟩, ?_, rfl⟩
  exact (if_neg hargv).trans (if_pos (decide_eq_true rfl))

lemma getFieldValue_argc (m : Message TComMsgHdr) :
    TComMsgHdr.getFieldValue (some (ofString "argc")) m = .number (ofInt (argc m)) := by
  refine (MsgClass.getFieldValue_field fun hsame => absurd hsame ?_).trans ?_
  · rw [getFieldName_argc]
    exact argc_apart.2.2.2.2
  · rw [getFieldName_argc]
    exact get_argc _ m.values

lemma counted_iff {n : ℕ} {m : Message TComMsgHdr} : m.Counted n ↔ 0 ≤ argc m ∧ argc m ≤ 5 :=
  ⟨fun h => h.2.2.2.1, fun h => ⟨trivial, trivial, trivial, h, trivial⟩⟩

lemma arrives_iff {m old : Message TComMsgHdr} (hold : old.Fresh) : m.Arrives old ↔ 0 ≤ argc m ∧ argc m ≤ 5 := by
  constructor
  · rintro ⟨code, -, harrives⟩
    obtain ⟨m', hm', hanswers⟩ := harrives []
    obtain ⟨n, hn⟩ := MsgClass.counted_decode hm'
    have hargc := hanswers (some (ofString "argc"))
    rw [getFieldValue_argc, getFieldValue_argc] at hargc
    have hsame : argc m' = argc m := by
      rw [← CStr.number_ofInt (argc m'), Got.number.inj hargc, CStr.number_ofInt]
    rw [← hsame]
    exact counted_iff.mp hn
  · intro h
    exact Message.Counted.arrives (n := 0) (counted_iff.mpr h) (by decide) hold

theorem set_argc_arrives {old : Message TComMsgHdr} (hold : old.Fresh) (m : Message TComMsgHdr) (value : VarChar) :
    ∃ m', TComMsgHdr.setFieldValue (some (ofString "argc")) value m = some m' ∧
      (m'.Arrives old ↔ 0 ≤ intOf (atoi value.1) ∧ intOf (atoi value.1) ≤ 5) := by
  refine ⟨⟨m.head, m.values.1, m.values.2.1, m.values.2.2.1, ⟨atoi value.1, m.values.2.2.2.1.argv⟩, ()⟩, ?_,
    arrives_iff hold⟩
  have hset := set_argc (TComMsgHdr.base.optionSet m.head) value m.values
  rw [← getFieldName_argc] at hset
  refine (if_neg ?_).trans (Option.map_eq_some_iff.mpr ⟨_, hset, rfl⟩)
  rw [getFieldName_argc]
  exact argc_apart.2.2.2.2

theorem set_argc_arrives_six : ∃ m', TComMsgHdr.setFieldValue (some (ofString "argc"))
    ⟨ofString "6", by decide +kernel⟩ TComMsgHdr.new = some m' ∧ (m'.Arrives TComMsgHdr.new ↔
      0 ≤ intOf (atoi (ofString "6")) ∧ intOf (atoi (ofString "6")) ≤ 5) :=
  set_argc_arrives fresh_new TComMsgHdr.new ⟨ofString "6", by decide +kernel⟩

end TComMsgHdr

end Xframe.Msg.Fields
