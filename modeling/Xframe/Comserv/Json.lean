import Mathlib.Data.List.Lex
import Xframe.Lib.Act

/-! `JSON` and `JSONValue`. A text is the list of its characters up to the terminator, and moving on from the
terminator has no result. -/

namespace Xframe.Comserv.Json

open Xframe.Lib Xframe.Lib.Act

/-- `JSONObject` is a map, a list in the order of its keys. -/
inductive JSONValue (δ : Type) where
  | Null
  | String (s : List ℤ)
  | Bool (b : Bool)
  | Number (x : δ)
  | Array (vs : List (JSONValue δ))
  | Object (o : List (List ℤ × JSONValue δ))

abbrev JSONObject (δ : Type) : Type := List (List ℤ × JSONValue δ)

/-- The arithmetic of `double`. `write` is a stream with a precision of 15. -/
structure Double (δ : Type) where
  ofInt : ℤ → δ
  tenth : δ
  add : δ → δ → δ
  mul : δ → δ → δ
  div : δ → δ → δ
  lt : δ → δ → Bool
  isinf : δ → Bool
  isnan : δ → Bool
  write : δ → List ℤ

variable {δ : Type}

def insert (name : List ℤ) (value : JSONValue δ) : JSONObject δ → JSONObject δ
  | [] => [(name, value)]
  | m :: object =>
    if name < m.1 then (name, value) :: m :: object
    else if name = m.1 then (name, value) :: object
    else m :: insert name value object

abbrev Scan (α : Type) : Type := Act (List ℤ) α

def next : Scan Unit := fun data =>
  match data with
  | [] => none
  | _ :: data => some (.done (), data)

def skip : ℕ → Scan Unit
  | 0 => pure ()
  | n + 1 => do
    next
    skip n

def isSpace (c : ℤ) : Bool := c = 32 ∨ c = 9 ∨ c = 13 ∨ c = 10

def isDigit (c : ℤ) : Bool := 48 ≤ c ∧ c ≤ 57

/-- `**data`, which is 0 at the terminator. -/
def current : Scan ℤ := fun data => some (.done (data.headD 0), data)

def SkipWhitespace : Scan Bool := fun data =>
  let data := data.dropWhile isSpace
  some (.done !data.isEmpty, data)

def wantMore : Scan Unit := do
  if ← SkipWhitespace then pure () else throw

def unescape (c : ℤ) : Option ℤ :=
  if c = 34 ∨ c = 92 ∨ c = 47 then some c
  else if c = 98 then some 8
  else if c = 102 then some 12
  else if c = 110 then some 10
  else if c = 114 then some 13
  else if c = 116 then some 9
  else none

def hexDigit (c : ℤ) : Option ℤ :=
  if 48 ≤ c ∧ c ≤ 57 then some (c - 48)
  else if 65 ≤ c ∧ c ≤ 70 then some (10 + (c - 65))
  else if 97 ≤ c ∧ c ≤ 102 then some (10 + (c - 97))
  else none

def simplejson_wcsnlen (s : List ℤ) (n : ℕ) : Bool := n ≤ s.length

def hexChar : ℕ → ℤ → Scan ℤ
  | 0, next_char => pure next_char
  | i + 1, next_char => do
    next
    match hexDigit (← current) with
    | some digit => hexChar i (next_char * 16 + digit)
    | none => throw

def stringChar : Scan (Option ℤ) := do
  let next_char ← current
  if next_char = 92 then
    next
    let c ← current
    if c = 117 then
      if simplejson_wcsnlen (← get) 5 then return some (← hexChar 4 0) else throw
    else
      match unescape c with
      | some next_char => return some next_char
      | none => throw
  else if next_char = 34 then return none
  else if next_char < 32 ∧ next_char ≠ 9 then throw
  else return some next_char

def ExtractString : ℕ → List ℤ → Scan (List ℤ)
  | 0, _ => fault
  | n + 1, str => do
    if (← get).isEmpty then throw
    else
      match ← stringChar with
      | some next_char =>
        next
        ExtractString n (str ++ [next_char])
      | none =>
        next
        pure str

section Numbers

variable (d : Double δ)

def intValue (digits : List ℤ) : δ :=
  digits.foldl (fun integer c => d.add (d.mul integer (d.ofInt 10)) (d.ofInt (c - 48))) (d.ofInt 0)

def decimalValue (digits : List ℤ) : δ :=
  (digits.foldl (fun s c => (d.add s.1 (d.mul (d.ofInt (c - 48)) s.2), d.mul s.2 d.tenth)) (d.ofInt 0, d.tenth)).1

def ParseInt : Scan δ := fun data => some (.done (intValue d (data.takeWhile isDigit)), data.dropWhile isDigit)

def ParseDecimal : Scan δ := fun data =>
  some (.done (decimalValue d (data.takeWhile isDigit)), data.dropWhile isDigit)

def wholePart : Scan δ := do
  let c ← current
  if c = 48 then
    next
    pure (d.ofInt 0)
  else if 49 ≤ c ∧ c ≤ 57 then ParseInt d
  else throw

def decimalPart (number : δ) : Scan δ := do
  if (← current) = 46 then
    next
    if isDigit (← current) then return d.add number (← ParseDecimal d) else throw
  else pure number

/-- The loop over `i`, which need not come to an end where the numbers grow so far that 1 does not count. -/
def scale (neg_expo : Bool) (expo : δ) : ℕ → δ → δ → Option δ
  | 0, _, _ => none
  | n + 1, i, number =>
    if d.lt i expo then
      scale neg_expo expo n (d.add i (d.ofInt 1)) (if neg_expo then d.div number (d.ofInt 10) else d.mul number (d.ofInt 10))
    else some number

def expoSign : Scan Bool := do
  let c ← current
  if c = 45 ∨ c = 43 then
    next
    pure (c = 45)
  else pure false

def expoPart (n : ℕ) (number : δ) : Scan δ := do
  let c ← current
  if c = 69 ∨ c = 101 then
    next
    let neg_expo ← expoSign
    if isDigit (← current) then
      match scale d neg_expo (← ParseInt d) n (d.ofInt 0) number with
      | some number => pure number
      | none => fault
    else throw
  else pure number

def numberSign : Scan Bool := do
  if (← current) = 45 then
    next
    pure true
  else pure false

def unsignedNumber (n : ℕ) : Scan δ := do
  let number ← wholePart d
  let number ← decimalPart d number
  expoPart d n number

def ParseNumber (n : ℕ) : Scan δ := do
  let neg ← numberSign
  let number ← unsignedNumber d n
  return if neg then d.mul number (d.ofInt (-1)) else number

end Numbers

def wantColon : Scan Unit := do
  let c ← current
  next
  if c = 58 then pure () else throw

section Values

variable (parse : Scan (JSONValue δ))

/-- Whatever stands where the name begins is taken for the quote. -/
def parseMember (n : ℕ) (object : JSONObject δ) : Scan (JSONObject δ) := do
  next
  let name ← ExtractString n []
  wantMore
  wantColon
  wantMore
  let value ← parse
  return insert name value object

def parseObject : ℕ → JSONObject δ → Scan (JSONValue δ)
  | 0, _ => fault
  | n + 1, object => do
    wantMore
    if object.isEmpty ∧ (← current) = 125 then
      next
      pure (.Object object)
    else
      let object ← parseMember parse n object
      wantMore
      let c ← current
      if c = 125 then
        next
        pure (.Object object)
      else if c = 44 then
        next
        parseObject n object
      else throw

def parseArray : ℕ → List (JSONValue δ) → Scan (JSONValue δ)
  | 0, _ => fault
  | n + 1, array => do
    wantMore
    if array.isEmpty ∧ (← current) = 93 then
      next
      pure (.Array array)
    else
      let value ← parse
      wantMore
      let c ← current
      if c = 93 then
        next
        pure (.Array (array ++ [value]))
      else if c = 44 then
        next
        parseArray n (array ++ [value])
      else throw

end Values

def towlower (c : ℤ) : ℤ := if 65 ≤ c ∧ c ≤ 90 then c + 32 else c

def isWord (word data : List ℤ) : Bool :=
  simplejson_wcsnlen data word.length && (data.take word.length).map towlower = word

def wordTrue : List ℤ := [116, 114, 117, 101]

def wordFalse : List ℤ := [102, 97, 108, 115, 101]

def wordNull : List ℤ := [110, 117, 108, 108]

/-- Without rounds to count down there is no result. -/
def JSONValue.Parse (d : Double δ) : ℕ → Scan (JSONValue δ)
  | 0 => fault
  | n + 1 => do
    let data ← get
    let c ← current
    if c = 34 then
      next
      return .String (← ExtractString n [])
    else if isWord wordTrue data ∨ isWord wordFalse data then
      let value := isWord wordTrue data
      skip (if value then 4 else 5)
      pure (.Bool value)
    else if isWord wordNull data then
      skip 4
      pure .Null
    else if c = 45 ∨ isDigit c then return .Number (← ParseNumber d n)
    else if c = 123 then
      next
      parseObject (Parse d n) n []
    else if c = 91 then
      next
      parseArray (Parse d n) n []
    else throw

def Parse (d : Double δ) (n : ℕ) : Scan (JSONValue δ) := do
  wantMore
  let value ← JSONValue.Parse d n
  if ← SkipWhitespace then throw else pure value

section Stringify

def hexOut (value : ℤ) : ℤ := if value ≤ 9 then 48 + value else 65 + (value - 10)

def stringifyChar (chr : ℤ) : List ℤ :=
  if chr = 34 ∨ chr = 92 ∨ chr = 47 then [92, chr]
  else if chr = 8 then [92, 98]
  else if chr = 12 then [92, 102]
  else if chr = 10 then [92, 110]
  else if chr = 13 then [92, 114]
  else if chr = 9 then [92, 116]
  else if chr < 32 then
    [92, 117] ++ (List.range 4).map fun i => hexOut (chr * 16 ^ i / 4096 % 16)
  else [chr]

def StringifyString (str : List ℤ) : List ℤ := 34 :: str.flatMap stringifyChar ++ [34]

variable (d : Double δ)

mutual

def JSONValue.Stringify : JSONValue δ → List ℤ
  | .Null => wordNull
  | .String s => StringifyString s
  | .Bool b => if b then wordTrue else wordFalse
  | .Number x => if d.isinf x ∨ d.isnan x then wordNull else d.write x
  | .Array vs => 91 :: stringifyElements vs ++ [93]
  | .Object o => 123 :: stringifyMembers o ++ [125]

def stringifyElements : List (JSONValue δ) → List ℤ
  | [] => []
  | [v] => v.Stringify
  | v :: vs => v.Stringify ++ 44 :: stringifyElements vs

def stringifyMember : List ℤ × JSONValue δ → List ℤ
  | (name, v) => StringifyString name ++ 58 :: v.Stringify

def stringifyMembers : JSONObject δ → List ℤ
  | [] => []
  | [m] => stringifyMember m
  | m :: o => stringifyMember m ++ 44 :: stringifyMembers o

end

end Stringify

end Xframe.Comserv.Json
