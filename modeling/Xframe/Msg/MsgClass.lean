import Xframe.Lib.Codec
import Xframe.Msg.AddressText
import Xframe.Msg.RscCodec

/-! The classes that the message compiler generates: `TMsgAddress` (`msgdatadef.C`) and the headers and bodies of
`msgdef_com.C`, `msgdef_event.C`, `msgdef_mqtt.C`, `msgdef_sip.C` and `msgdef_http.C`. A class is the list of its
fields, and its functions are those that the compiler writes for such a list. -/

namespace Xframe.Msg.Fields

open Xframe.Lib
open CStr (ofString ofInt strstr)
open Rsc (encodeUInt decodeUInt)
open Transport (sizeStr encodeStr decodeStr)

def intOf (n : UInt32) : ℤ := if n.toNat < 2 ^ 31 then n.toNat else (n.toNat : ℤ) - 2 ^ 32

def atoi (s : CStr) : UInt32 := UInt32.ofNat (Msg.TMsgAddress.uint (CStr.toInt s))

/-- What a field of type `CStr` can hold: a longer text makes `resize` throw, in `operator=` as in `decode`. -/
abbrev VarChar := { s : CStr // s.length < 2 ^ 31 - 32 }

def encodeVarChar (s : VarChar) : List UInt8 := encodeStr s.1

def decodeVarChar (buf : List UInt8) : Option (VarChar × List UInt8) := do
  let (s, buf) ← decodeStr buf
  if h : s.length < 2 ^ 31 - 32 then some (⟨s, h⟩, buf) else none

def noText : VarChar := ⟨[], by decide⟩

structure Args (max : ℕ) where
  argc : UInt32
  argv : Vector VarChar max

namespace Args

variable {max : ℕ}

def count (a : Args max) : ℕ := (intOf a.argc).toNat

def used (a : Args max) : List VarChar := a.argv.toList.take a.count

def overwrite (l : List VarChar) (argv : Vector VarChar max) : Vector VarChar max :=
  Vector.ofFn fun i => l.getD i argv[i]

end Args

/-- How a field is declared: `INT` stands for `UINT` and enumerations as well, which are written alike; `text` is a
`CStr` that is read and set as a C string. -/
inductive FieldType
  | INT
  | LONG
  | CStr
  | text
  | option (flag : UInt32)
  | list
  | array (max : ℕ) (sizeName : String)
  deriving DecidableEq

namespace FieldType

abbrev Value : FieldType → Type
  | INT => UInt32
  | LONG => UInt64
  | CStr => VarChar
  | text => VarChar
  | option _ => VarChar
  | list => List VarChar
  | array max _ => Args max

def flag : FieldType → UInt32
  | option flag => flag
  | _ => 0

def isArray : FieldType → Bool
  | array _ _ => true
  | _ => false

def room : FieldType → ℕ
  | array max _ => max
  | _ => 0

end FieldType

section Codecs

def intCodec : Codec UInt8 UInt32 where
  encode n := some (encodeUInt n)
  decode _ buf := decodeUInt buf
  received _ n := n
  Fits _ := True
  decode_encode _ h _ rest := by
    cases h
    exact Rsc.decodeUInt_encode rest _

/-- `htonl` takes the lowest four bytes of a `LONG`, and what it gives fills the first four of the eight. -/
def longCodec : Codec UInt8 UInt64 where
  encode n := some (encodeUInt n.toUInt32 ++ [0, 0, 0, 0])
  decode _ buf := (decodeUInt buf).bind fun r => if 4 ≤ r.2.length then some (r.1.toUInt64, r.2.drop 4) else none
  received _ n := n.toUInt32.toUInt64
  Fits _ := True
  decode_encode _ h _ rest := by
    cases h
    rw [List.append_assoc, Rsc.decodeUInt_encode, Option.bind_some]
    exact if_pos (Nat.le_add_left 4 rest.length)

lemma decodeVarChar_encode (s : VarChar) (rest : List UInt8) : decodeVarChar (encodeVarChar s ++ rest) = some (s, rest) := by
  have hs := s.2
  rw [decodeVarChar, encodeVarChar, Transport.decodeStr_of_short (by omega)]
  exact dif_pos s.2

lemma length_encodeVarChar (s : VarChar) : ((encodeVarChar s).length : ℤ) = sizeStr s.1 := Rsc.length_encodeStr_eq s.1

def vcharCodec : Codec UInt8 VarChar where
  encode s := some (encodeVarChar s)
  decode _ buf := decodeVarChar buf
  received _ s := s
  Fits _ := True
  decode_encode _ h _ rest := by
    cases h
    exact decodeVarChar_encode _ rest

lemma encodeAll_vchar (l : List VarChar) : encodeAll vcharCodec.encode l = some (l.flatMap encodeVarChar) := by
  induction l with
  | nil => rfl
  | cons s l ih =>
    rw [encodeAll, ih]
    rfl

lemma decodeAll_vchar {l olds : List VarChar} (hlen : olds.length = l.length) (rest : List UInt8) :
    decodeAll vcharCodec.decode olds (l.flatMap encodeVarChar ++ rest) = some (l, rest) :=
  Codec.decodeAll_encodeAll (fun _ _ => rfl) (fun _ _ => trivial) (encodeAll_vchar l) hlen rest

/-- `ENCODE_VCHAR_LIST` and `DECODE_VCHAR_LIST` behind the number of elements. What is read is pushed behind the
elements that are there. -/
def listCodec : Codec UInt8 (List VarChar) where
  encode l := (encodeAll vcharCodec.encode l).map (encodeUInt (UInt32.ofNat l.length) ++ ·)
  decode old buf :=
    (decodeUInt buf).bind fun r =>
      (decodeAll vcharCodec.decode (List.replicate r.1.toNat noText) r.2).map fun s => (old ++ s.1, s.2)
  received old l := old ++ l
  Fits l := l.length < 2 ^ 31
  decode_encode hf h old rest := by
    rw [encodeAll_vchar] at h
    cases h
    have hlen : (UInt32.ofNat _).toNat = _ := UInt32.toNat_ofNat_of_lt' (hf.trans (by decide))
    rw [List.append_assoc, Rsc.decodeUInt_encode, Option.bind_some]
    dsimp only
    rw [hlen, decodeAll_vchar (List.length_replicate ..), Option.map_some]

/-- The elements in use behind their number. One that is not from 0 to `max` makes `decode` return with the number
set to 0. -/
def arrayCodec (max : ℕ) : Codec UInt8 (Args max) where
  encode a :=
    if max < a.count then none else (encodeAll vcharCodec.encode a.used).map (encodeUInt a.argc ++ ·)
  decode old buf :=
    (decodeUInt buf).bind fun r =>
      if max < intOf r.1 ∨ intOf r.1 < 0 then some (⟨0, old.argv⟩, r.2)
      else (decodeAll vcharCodec.decode (old.argv.toList.take (intOf r.1).toNat) r.2).map fun s =>
        (⟨r.1, Args.overwrite s.1 old.argv⟩, s.2)
  received old a := ⟨a.argc, Args.overwrite a.used old.argv⟩
  Fits a := 0 ≤ intOf a.argc
  decode_encode {a _} hf h old rest := by
    split at h
    · cases h
    · next hmax =>
      rw [encodeAll_vchar] at h
      cases h
      have hin : ¬(max < intOf a.argc ∨ intOf a.argc < 0) := by
        rw [Args.count] at hmax
        omega
      have hlen : (old.argv.toList.take (intOf a.argc).toNat).length = a.used.length := by
        rw [Args.used, List.length_take, List.length_take, Vector.length_toList, Vector.length_toList, Args.count]
      rw [List.append_assoc, Rsc.decodeUInt_encode, Option.bind_some]
      dsimp only
      rw [if_neg hin, decodeAll_vchar hlen, Option.map_some]

namespace FieldType

def codec (options : UInt32) : (t : FieldType) → Codec UInt8 t.Value
  | INT => intCodec
  | LONG => longCodec
  | CStr => vcharCodec
  | text => vcharCodec
  | option flag => vcharCodec.onlyIf (options &&& flag ≠ 0)
  | list => listCodec
  | array max _ => arrayCodec max

/-- What `size` adds for a field, in an `INT` that holds less than `2 ^ 31`. The number of the elements of a list is not
counted. -/
def size (options : UInt32) : (t : FieldType) → t.Value → ℤ
  | INT, _ => 4
  | LONG, _ => 8
  | CStr, s => sizeStr s.1
  | text, s => sizeStr s.1
  | option flag, s => if options &&& flag ≠ 0 then sizeStr s.1 else 0
  | list, l => (l.map fun s => sizeStr s.1).sum
  | array _ _, a => 4 + (a.used.map fun s => sizeStr s.1).sum

end FieldType

end Codecs

structure Field where
  name : String
  type : FieldType

def Values : List Field → Type
  | [] => Unit
  | f :: fs => f.type.Value × Values fs

namespace Values

def codec (options : UInt32) : (fs : List Field) → Codec UInt8 (Values fs)
  | [] => Codec.empty
  | f :: fs => (f.type.codec options).pair (codec options fs)

def size (options : UInt32) : (fs : List Field) → Values fs → ℤ
  | [], _ => 0
  | f :: fs, v => f.type.size options v.1 + size options fs v.2

end Values

/-- What a class is derived from, and what it writes before its fields: a `TCtrlMsg` its `optionSet` and `orgAddr`, a
`TMsgBody` with optional fields its `optionSet`. -/
inductive Base
  | TCtrlMsg
  | options
  | TMsgBody
  deriving DecidableEq

namespace TMsgAddress

def fields : List Field := [⟨"logAddr", .INT⟩, ⟨"phyAddr", .INT⟩, ⟨"taskInstID", .INT⟩]

end TMsgAddress

namespace Base

def orgAddrFlag : UInt32 := 1

abbrev Head : Base → Type
  | TCtrlMsg => UInt32 × Values TMsgAddress.fields
  | options => UInt32
  | TMsgBody => Unit

def optionSet : (b : Base) → b.Head → UInt32
  | TCtrlMsg, h => h.1
  | options, h => h
  | TMsgBody, _ => 0

def codec : (b : Base) → Codec UInt8 b.Head
  | TCtrlMsg =>
    intCodec.tagged id (fun _ _ => rfl) fun o =>
      (Values.codec 0 TMsgAddress.fields).onlyIf (o &&& orgAddrFlag ≠ 0)
  | options => intCodec
  | TMsgBody => Codec.empty

def size : (b : Base) → b.Head → ℤ
  | TCtrlMsg, h => 4 + if h.1 &&& orgAddrFlag ≠ 0 then Values.size 0 TMsgAddress.fields h.2 else 0
  | options, _ => 4
  | TMsgBody, _ => 0

lemma optionSet_received (b : Base) (old h : b.Head) : b.optionSet (b.codec.received old h) = b.optionSet h := by
  cases b <;> rfl

end Base

/-- `sizeAgain` is what `size` adds beside the fields. An array whose number is refused ends `decode`, so it is the
last field. The flags are bits of their own, and only a `TMsgBody` has optional fields. -/
structure MsgClass where
  base : Base
  fields : List Field
  sizeAgain : ℤ
  array_last : ∀ f ∈ fields.dropLast, f.type.isArray = false := by decide
  option_flag : ∀ f ∈ fields, f.type ≠ .option 0 := by decide
  room_lt : ∀ f ∈ fields, f.type.room < 2 ^ 31 := by decide
  flags_apart : fields.Pairwise fun f g => f.type.flag &&& g.type.flag = 0 := by decide
  flags_base : base ≠ .options → ∀ f ∈ fields, f.type.flag = 0 := by decide

structure Message (c : MsgClass) where
  head : c.base.Head
  values : Values c.fields

namespace MsgClass

def codec (c : MsgClass) : Codec UInt8 (Message c) :=
  (c.base.codec.tagged c.base.optionSet c.base.optionSet_received fun o => Values.codec o c.fields).along
    (fun m => (m.head, m.values)) fun p => ⟨p.1, p.2⟩

def size (c : MsgClass) (m : Message c) : ℤ :=
  c.base.size m.head + Values.size (c.base.optionSet m.head) c.fields m.values + c.sizeAgain

def encode (c : MsgClass) (m : Message c) : Option (List UInt8 × ℤ) :=
  (c.codec.encode m).map fun code => (code, c.size m)

def decode (c : MsgClass) (old : Message c) (buf : List UInt8) : Option (Message c × List UInt8) :=
  c.codec.decode old buf

end MsgClass

section Paths

/-- What `getFieldValue` answers: -1, or 1 with the type 1, 2 or 4, and with a value if the type is not 1. -/
inductive Got
  | missing
  | absent
  | number (value : CStr)
  | text (value : CStr)
  deriving DecidableEq

structure PathPart where
  name : CStr
  index : ℤ
  rest : Option CStr
  deriving DecidableEq

def getFieldName (p : CStr) : PathPart :=
  let dot := strstr (ofString ".") p
  let part := dot.elim p p.take
  let bracket := strstr (ofString "[") part
  ⟨bracket.elim part part.take, bracket.elim (-1) fun b => intOf (atoi (part.drop (b + 1))),
    dot.map fun q => p.drop (q + 1)⟩

example : getFieldName (ofString "argv[3].size") = ⟨ofString "argv", 3, some (ofString "size")⟩ := by decide +kernel

def Got.element (size : ℤ) (l : List VarChar) (part : PathPart) : Got :=
  if part.index < 0 then if part.rest = some (ofString "size") then Got.number (ofInt size) else Got.absent
  else (l[part.index.toNat]?.map fun s => .text s.1).getD .absent

namespace FieldType

def get (options : UInt32) (part : PathPart) : (t : FieldType) → t.Value → Got
  | INT, n => .number (ofInt (intOf n))
  | LONG, n => .number (ofInt (intOf n.toUInt32))
  | CStr, s => .text s.1
  | text, s => .text (s.1.takeWhile (· ≠ 0))
  | option flag, s => if options &&& flag ≠ 0 then .text s.1 else .absent
  | list, l => Got.element (intOf (UInt32.ofNat (List.length l))) l part
  | array _ _, a => Got.element (intOf a.argc) a.used part

def set (options : UInt32) (part : PathPart) (value : VarChar) : (t : FieldType) → t.Value → Option (UInt32 × t.Value)
  | INT, _ => some (options, atoi value.1)
  | LONG, _ => some (options, UInt64.ofInt (intOf (atoi value.1)))
  | CStr, _ => some (options, value)
  | text, _ => some (options, ⟨value.1.takeWhile (· ≠ 0), (List.takeWhile_sublist _).length_le.trans_lt value.2⟩)
  | option flag, _ => some (options ||| flag, value)
  | list, l =>
    if part.index < 0 ∨ l.length < part.index then none
    else some (options, if part.index = List.length l then List.concat l value else List.set l part.index.toNat value)
  | array max _, a =>
    if part.index < 0 ∨ max ≤ part.index then none
    else some (options, ⟨if intOf a.argc ≤ part.index then UInt32.ofNat (part.index.toNat + 1) else a.argc,
      a.argv.setIfInBounds part.index.toNat value⟩)

def sizeNamed (name : Msg.CStr) : FieldType → Bool
  | array _ sizeName => name = ofString sizeName
  | _ => false

def getSize : (t : FieldType) → t.Value → Got
  | array _ _, a => .number (ofInt (intOf a.argc))
  | _, _ => .missing

def setSize (value : VarChar) : (t : FieldType) → t.Value → t.Value
  | array _ _, a => { a with argc := atoi value.1 }
  | INT, v => v
  | LONG, v => v
  | CStr, v => v
  | text, v => v
  | option _, v => v
  | list, v => v

end FieldType

namespace Values

def get (options : UInt32) (part : PathPart) : (fs : List Field) → Values fs → Got
  | [], _ => .missing
  | f :: fs, v =>
    if part.name = ofString f.name then f.type.get options part v.1
    else if f.type.sizeNamed part.name then f.type.getSize v.1
    else get options part fs v.2

def set (options : UInt32) (part : PathPart) (value : VarChar) :
    (fs : List Field) → Values fs → Option (UInt32 × Values fs)
  | [], _ => none
  | f :: fs, v =>
    if part.name = ofString f.name then (f.type.set options part value v.1).map fun r => (r.1, r.2, v.2)
    else if f.type.sizeNamed part.name then some (options, f.type.setSize value v.1, v.2)
    else (set options part value fs v.2).map fun r => (r.1, v.1, r.2)

end Values

namespace TMsgAddress

def getFieldValue (p : Option CStr) (a : Values fields) : Got :=
  p.elim .missing fun p => Values.get 0 (getFieldName p) fields a

def setFieldValue (p : Option CStr) (value : VarChar) (a : Values fields) : Option (Values fields) :=
  p.bind fun p => (Values.set 0 (getFieldName p) value fields a).map Prod.snd

end TMsgAddress

namespace Base

def orgAddr : (b : Base) → b.Head → Option (Values TMsgAddress.fields)
  | TCtrlMsg, h => if h.1 &&& orgAddrFlag ≠ 0 then some h.2 else none
  | options, _ => none
  | TMsgBody, _ => none

def setOrgAddr (a : Values TMsgAddress.fields) : (b : Base) → b.Head → b.Head
  | TCtrlMsg, h => (h.1, a)
  | options, h => h
  | TMsgBody, h => h

def setOptions (o : UInt32) : (b : Base) → b.Head → b.Head
  | TCtrlMsg, h => (o, h.2)
  | options, _ => o
  | TMsgBody, h => h

end Base

namespace MsgClass

variable (c : MsgClass)

def getField (part : PathPart) (m : Message c) : Got :=
  Values.get (c.base.optionSet m.head) part c.fields m.values

def setField (part : PathPart) (value : VarChar) (m : Message c) : Option (Message c) :=
  (Values.set (c.base.optionSet m.head) part value c.fields m.values).map fun r =>
    ⟨c.base.setOptions r.1 m.head, r.2⟩

/-- An unknown name is also logged by `UniERROR`; names that are too long for its buffer are not modelled. -/
def getFieldValue (p : Option CStr) (m : Message c) : Got :=
  p.elim .missing fun p =>
    let part := getFieldName p
    if part.name = ofString "orgAddr" then
      (c.base.orgAddr m.head).elim (c.getField part m) (TMsgAddress.getFieldValue part.rest)
    else c.getField part m

/-- The message is as it was where the answer is -1, which is logged as in `getFieldValue`. -/
def setFieldValue (p : Option CStr) (value : VarChar) (m : Message c) : Option (Message c) :=
  p.bind fun p =>
    let part := getFieldName p
    if part.name = ofString "orgAddr" then
      (c.base.orgAddr m.head).elim (c.setField part value m) fun a =>
        (TMsgAddress.setFieldValue part.rest value a).map fun a => { m with head := c.base.setOrgAddr a m.head }
    else c.setField part value m

end MsgClass

end Paths

section Classes

def TComMsgHdr : MsgClass where
  base := .TCtrlMsg
  fields := [⟨"status", .INT⟩, ⟨"pri", .INT⟩, ⟨"facility", .INT⟩, ⟨"argv", .array 5 "argc"⟩]
  sizeAgain := 0

def TComMsgHdr.new : Message TComMsgHdr := ⟨(0, 0, 0, 0, ()), 0, 0, 0, ⟨0, Vector.replicate 5 noText⟩, ()⟩

def TComMsgBody : MsgClass where
  base := .TMsgBody
  fields := [⟨"info", .CStr⟩]
  sizeAgain := 0

def TEventMsgHdr : MsgClass where
  base := .TCtrlMsg
  fields := [⟨"status", .INT⟩, ⟨"cseq", .INT⟩, ⟨"observer", .CStr⟩, ⟨"trigger", .CStr⟩, ⟨"eid", .CStr⟩]
  sizeAgain := 0

def TEventMsgBody : MsgClass where
  base := .TMsgBody
  fields := [⟨"ev", .CStr⟩, ⟨"einfo", .CStr⟩]
  sizeAgain := 0

def TMqttCtrlMsg : MsgClass where
  base := .TCtrlMsg
  fields := [⟨"cid", .INT⟩]
  sizeAgain := 0

def TMqttConnect : MsgClass where
  base := .options
  fields := [⟨"clientName", .CStr⟩, ⟨"userName", .option 1⟩, ⟨"password", .option 2⟩]
  sizeAgain := 0

def TMqttConnect.new : Message TMqttConnect := ⟨(0 : UInt32), noText, noText, noText, ()⟩

def TMqttConnAck : MsgClass where
  base := .TMsgBody
  fields := [⟨"code", .INT⟩]
  sizeAgain := 0

def TMqttPublish : MsgClass where
  base := .TMsgBody
  fields := [⟨"clientName", .CStr⟩, ⟨"topic", .CStr⟩, ⟨"content", .CStr⟩]
  sizeAgain := 0

def TMqttSubscribe : MsgClass where
  base := .TMsgBody
  fields := [⟨"clientName", .CStr⟩, ⟨"msgId", .INT⟩, ⟨"topic", .list⟩]
  sizeAgain := 0

def TMqttSubscribe.new : Message TMqttSubscribe := ⟨(), noText, 0, [], ()⟩

def TMqttUnsubscribe : MsgClass where
  base := .TMsgBody
  fields := [⟨"clientName", .CStr⟩, ⟨"msgId", .INT⟩, ⟨"topic", .list⟩]
  sizeAgain := 0

def TMqttSubAck : MsgClass where
  base := .TMsgBody
  fields := [⟨"msgId", .INT⟩, ⟨"code", .INT⟩]
  sizeAgain := 0

def TMqttUnsubAck : MsgClass where
  base := .TMsgBody
  fields := [⟨"msgId", .INT⟩]
  sizeAgain := 0

def TMqttDisconnect : MsgClass where
  base := .TMsgBody
  fields := [⟨"clientName", .CStr⟩]
  sizeAgain := 0

def TSipCtrlMsg : MsgClass where
  base := .TCtrlMsg
  fields := [⟨"transid", .LONG⟩, ⟨"method", .INT⟩, ⟨"status", .INT⟩, ⟨"rsp_method", .INT⟩, ⟨"needprack", .INT⟩,
    ⟨"sub_status", .INT⟩, ⟨"dialogid", .CStr⟩]
  sizeAgain := 0

/-- `size` counts a second `INT`. -/
def THttpCtrlMsg : MsgClass where
  base := .TCtrlMsg
  fields := [⟨"transid", .text⟩, ⟨"status", .INT⟩, ⟨"dialogid", .text⟩]
  sizeAgain := 4

end Classes

end Xframe.Msg.Fields
