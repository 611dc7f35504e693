import Xframe.Msg.UniNetMsg

/-! Strings of `CStr` cut at separators, and the addresses written in them: `TURI` and the text form of
`TMsgAddress` (`msgdatadef.h`). -/

namespace Xframe.Msg

def INFO_BUF_SIZE : ℕ := 8096

/-- `UniINFO` and `UniERROR`, whose `vsprintf` does not check the size of the buffer. The text begins with the
place in the source. -/
def logged (text : CStr) : Option Unit := if text.length < INFO_BUF_SIZE then some () else none

namespace CStr

def strstr (sep : CStr) : CStr → Option ℕ
  | [] => if sep = [] then some 0 else none
  | c :: s => if sep.isPrefixOf (c :: s) then some 0 else (strstr sep s).map (· + 1)

def split (sep : CStr) : ℕ → CStr → List CStr
  | 0, _ => []
  | _ + 1, [] => []
  | n + 1, s =>
    match strstr sep s with
    | none => [s]
    | some q => s.take q :: split sep n (s.drop (q + sep.length))

def cut (sep s : CStr) : CStr := (strstr sep s).elim s s.take

def beginWith (s beginStr : CStr) : Bool := beginStr.isPrefixOf s

def isDigit (c : UInt8) : Bool := 48 ≤ c && c ≤ 57

def digits (s : CStr) : ℕ := (s.takeWhile isDigit).foldl (fun n c => 10 * n + (c.toNat - 48)) 0

def number (s : CStr) : ℤ :=
  match s.dropWhile fun c => c = 32 || 9 ≤ c && c ≤ 13 with
  | 45 :: s => -(digits s : ℤ)
  | 43 :: s => digits s
  | s => digits s

/-- `atoi`: `strtol` answers the nearest `long`, of which an `int` takes the lower half. -/
def toInt (s : CStr) : ℤ := (max (-2 ^ 63) (min (2 ^ 63 - 1) (number s)) + 2 ^ 31) % 2 ^ 32 - 2 ^ 31

def ofString (s : String) : CStr := s.toUTF8.toList

def ofInt (n : ℤ) : CStr := ofString (toString n)

end CStr

structure TURI where
  schema : CStr
  user : CStr
  password : CStr
  domain : CStr
  host : CStr
  port : ℤ
  deriving DecidableEq

namespace TURI

/-- `setUri` of an address whose strings are empty and whose port is 0, as the default constructor leaves it. -/
def setUri (uri : CStr) : TURI :=
  let (schema, rest) := match CStr.split (CStr.ofString "://") 2 uri with
    | [schema, rest] => (schema, rest)
    | _ => ([], uri)
  let (user, password, domain) := match CStr.split (CStr.ofString "@") 2 rest with
    | [account, domain] =>
      match CStr.split (CStr.ofString ":") 2 account with
      | [user, password] => (user, password, domain)
      | _ => (account, [], domain)
    | _ => ([], [], rest)
  let (host, port) := match CStr.split (CStr.ofString ":") 2 domain with
    | [host, port] => (host, CStr.toInt port)
    | _ => (domain, 0)
  ⟨schema, user, password, domain, host, port⟩

end TURI

namespace TMsgAddress

def uint (n : ℤ) : ℕ := (n % 2 ^ 32).toNat

def printed (n : ℕ) : CStr := CStr.ofInt (if n < 2 ^ 31 then n else n - 2 ^ 32)

def encodeCStr (a : TMsgAddress) : CStr :=
  printed a.logAddr ++ CStr.ofString "_" ++ printed a.phyAddr ++ CStr.ofString "_" ++ printed a.taskInstID

def decodeCStr (a : TMsgAddress) (buf : CStr) : TMsgAddress :=
  match CStr.split (CStr.ofString "_") 3 buf with
  | [logAddr, phyAddr, taskInstID] => ⟨uint (CStr.toInt logAddr), uint (CStr.toInt phyAddr), uint (CStr.toInt taskInstID)⟩
  | _ => a

end TMsgAddress

end Xframe.Msg
