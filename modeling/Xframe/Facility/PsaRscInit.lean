import Xframe.Facility.PsaRscTask
import Xframe.Msg.UriText
import Xframe.Transport.UdpBinds

/-! The loops of `TPsaRscTask::onInit` over the `bind` and `target` elements of the configuration. What the
machine decides at each pass is an argument: the bytes behind a host in memory, and whether a socket opens. -/

namespace Xframe.Facility

open Xframe.Comserv Xframe.Msg Xframe.Lib Xframe.Transport

structure TiXmlElement (Node : Type) where
  value : CStr
  attributes : List (CStr × CStr)
  children : List Node

/-- Comments and texts have a value as elements have. -/
inductive TiXmlNode where
  | element (e : TiXmlElement TiXmlNode)
  | other (value : CStr)

abbrev Element := TiXmlElement TiXmlNode

def TiXmlNode.Value : TiXmlNode → CStr
  | .element e => e.value
  | .other value => value

def TiXmlNode.ToElement : TiXmlNode → Option Element
  | .element e => some e
  | .other _ => none

namespace TiXmlElement

/-- `FirstChild(value).Element()` and what `NextSiblingElement()` reaches from it. -/
def fromFirst (value : CStr) (e : Element) : List Element :=
  match e.children.dropWhile fun n => n.Value ≠ value with
  | .element e :: ns => e :: ns.filterMap TiXmlNode.ToElement
  | _ => []

def Attribute (name : String) (e : Element) : Option CStr :=
  (e.attributes.lookup (CStr.ofString name)).map (List.takeWhile (· ≠ 0))

def AttributeInt (name : String) (e : Element) : Option ℤ := (e.Attribute name).map CStr.toInt

def elements (value : CStr) (e : Element) : List Element :=
  (e.children.filterMap TiXmlNode.ToElement).dropWhile fun c => c.value ≠ value

end TiXmlElement

section IPv4

/-- The bytes that `temp` takes at `ip`, at most `n`. -/
def octet (mem : ℕ → UInt8) : ℕ → ℕ → CStr
  | 0, _ => []
  | n + 1, ip => if mem ip = 46 then [] else mem ip :: octet mem n (ip + 1)

def octets (mem : ℕ → UInt8) : ℕ → ℕ → Bool
  | 0, ip => mem ip = 0
  | n + 1, ip =>
    if mem ip = 0 then false
    else
      let temp := octet mem 3 ip
      let num := CStr.toInt temp
      if n = 3 ∧ num = 0 then false
      else if num < 0 ∨ 255 < num then false
      else octets mem n (ip + temp.length + 1)

/-- The inner loop does not look for the end of the string, so that the bytes behind it count. -/
def isValidIPv4 (mem : ℕ → UInt8) : Bool := octets mem 4 0

def memory (s : CStr) (beyond : ℕ → UInt8) (i : ℕ) : UInt8 := (s ++ [0]).getD i (beyond (i - (s.length + 1)))

end IPv4

namespace TPsaRscTask

def DEFAULT_BIND_PORT : ℤ := 8000

/-- What one pass through the loop over the binds meets. -/
structure Attempt where
  beyond : ℕ → UInt8
  opens : Bool

structure Loading where
  mTaskDefault : ℤ
  mTaskMapping : List STask
  mBindList : List (ℕ × SBind)
  mTransport : TUDPTrasnport

def bindId (bind : Element) : ℤ := (bind.AttributeInt "bindID").getD 0

def host (bind : Element) : CStr := (bind.Attribute "localIP").getD []

def sbind (bind : Element) : SBind :=
  ⟨bindId bind, host bind, (bind.AttributeInt "localPort").getD DEFAULT_BIND_PORT⟩

def insertBind (mBindList : List (ℕ × SBind)) (sb : SBind) : List (ℕ × SBind) :=
  mBindList.orderedInsert (fun a b => a.1 ≤ b.1) (TMsgAddress.uint sb.bindId, sb)

def loadBind (a : Attempt) (bind : Element) (s : Loading) : Option (Bool × Loading) :=
  let sb := sbind bind
  if 0 < sb.bindId then
    if !isValidIPv4 (memory sb.host a.beyond) then do
      logged (CStr.ofString "[psarsctask.C:123] bind address error: host=" ++ sb.host)
      some (false, s)
    else
      match s.mBindList.lookup (TMsgAddress.uint sb.bindId) with
      | some _ => some (false, s)
      | none => do
        let mBindList := insertBind s.mBindList sb
        let (added, mTransport) ← s.mTransport.addTransport sb.bindId sb.host sb.port a.opens
        if added then some (true, { s with mBindList := mBindList, mTransport := mTransport })
        else
          let mBindList := mBindList.filter fun b => b.1 ≠ TMsgAddress.uint sb.bindId
          some (false, { s with mBindList := mBindList, mTransport := mTransport })
  else some (true, s)

def loadTarget (pushed : Bool) (target : Element) (s : Loading) : Loading :=
  let st : STask := ⟨TMsgAddress.uint ((target.AttributeInt "taskid").getD s.mTaskDefault),
    (target.Attribute "regx").getD []⟩
  if pushed then { s with mTaskMapping := s.mTaskMapping ++ [st] } else s

def bindLoop : ℕ → (ℕ → Attempt) → List Element → Loading → Option (List Element × Loading)
  | _, _, [], s => some ([], s)
  | 0, _, _ :: _, _ => none
  | fuel + 1, attempts, bind :: next, s => do
    let (atEnd, s) ← loadBind (attempts 0) bind s
    (bindLoop fuel (fun i => attempts (i + 1)) (if atEnd then next else bind :: next) s).map fun (seen, s) =>
      (bind :: seen, s)

/-- The loop over the targets, which has no step to the next one. -/
def targetLoop : ℕ → (ℕ → Bool) → List Element → Loading → Option (List Element × Loading)
  | _, _, [], s => some ([], s)
  | 0, _, _ :: _, _ => none
  | fuel + 1, pushed, target :: next, s =>
    (targetLoop fuel (fun i => pushed (i + 1)) (target :: next) (loadTarget (pushed 0) target s)).map fun (seen, s) =>
      (target :: seen, s)

def bindsLoaded (fuel : ℕ) (attempts : ℕ → Attempt) (psa : Element) (s : Loading) : Option (List Element × Loading) :=
  match (psa.fromFirst (CStr.ofString "binds")).head? with
  | none => some ([], s)
  | some binds => bindLoop fuel attempts (binds.fromFirst (CStr.ofString "bind")) s

def targetsLoaded (fuel : ℕ) (pushed : ℕ → Bool) (psa : Element) (s : Loading) : Option (List Element × Loading) :=
  match (psa.fromFirst (CStr.ofString "targets")).head? with
  | none => some ([], s)
  | some targets =>
    targetLoop fuel pushed (targets.fromFirst (CStr.ofString "target"))
      { s with mTaskDefault := (targets.AttributeInt "default").getD 7 }

/-- `onInit` up to the end of its loops, on a task as it is constructed: the binds and the targets that it has
considered, and what it has loaded. -/
def loadConfig (fuel : ℕ) (attempts : ℕ → Attempt) (pushed : ℕ → Bool) (extend : Element) :
    Option (List Element × List Element × Loading) :=
  match (extend.fromFirst (CStr.ofString "psa")).head? with
  | none => some ([], [], ⟨0, [], [], .new⟩)
  | some psa => do
    let (binds, s) ← bindsLoaded fuel attempts psa ⟨0, [], [], .new⟩
    let (targets, s) ← targetsLoaded fuel pushed psa s
    some (binds, targets, s)

def inSection (walk : CStr → Element → List Element) (sectionName name : String) (extend : Element) : List Element :=
  match (walk (CStr.ofString "psa") extend).head? with
  | none => []
  | some psa =>
    match (walk (CStr.ofString sectionName) psa).head? with
    | none => []
    | some e => walk (CStr.ofString name) e

def configured : String → String → Element → List Element := inSection TiXmlElement.elements

def reached : String → String → Element → List Element := inSection TiXmlElement.fromFirst

def configuredBinds : Element → List Element := configured "binds" "bind"

def configuredTargets : Element → List Element := configured "targets" "target"

def Accepts (a : Attempt) (mBindList : List (ℕ × SBind)) (bind : Element) : Prop :=
  0 < bindId bind →
    isValidIPv4 (memory (host bind) a.beyond) ∧ ∀ b ∈ mBindList, b.1 ≠ TMsgAddress.uint (bindId bind)

instance (a : Attempt) (mBindList : List (ℕ × SBind)) (bind : Element) : Decidable (Accepts a mBindList bind) :=
  inferInstanceAs (Decidable (_ → _))

def kept : (ℕ → Attempt) → List Element → List (ℕ × SBind) → List (ℕ × SBind)
  | _, [], mBindList => mBindList
  | attempts, bind :: next, mBindList =>
    kept (fun i => attempts (i + 1)) next
      (if 0 < bindId bind ∧ Accepts (attempts 0) mBindList bind then insertBind mBindList (sbind bind) else mBindList)

def Loads (attempts : ℕ → Attempt) (pushed : ℕ → Bool) (extend : Element) : Prop :=
  ∃ fuel, Returns (loadConfig fuel attempts pushed extend) fun (binds, targets, s) =>
    binds = configuredBinds extend ∧ targets = configuredTargets extend ∧
      s.mBindList = kept attempts (configuredBinds extend) []

/-- No comment or text hides a bind by bearing the name of an element. -/
def Shown (extend : Element) : Prop := reached "binds" "bind" extend = configuredBinds extend

/-- No element of these that has an id is rejected: its address is valid, and no other has its id. A bind
whose socket does not open is not rejected. -/
structure Clean (attempts : ℕ → Attempt) (binds : List Element) : Prop where
  valid : ∀ i bind, binds[i]? = some bind → 0 < bindId bind → isValidIPv4 (memory (host bind) (attempts i).beyond)
  distinct : binds.Pairwise fun a b => 0 < bindId a → bindId b ≠ bindId a

section BindLoop

variable {a : Attempt} {attempts : ℕ → Attempt} {bind : Element} {next binds seen : List Element}
  {s s' : Loading} {l : List (ℕ × SBind)} {fuel : ℕ}

lemma bindId_lt (bind : Element) : bindId bind < 2 ^ 31 := by
  rw [bindId, TiXmlElement.AttributeInt]
  cases bind.Attribute "bindID" with
  | none => decide
  | some s =>
    rw [Option.map_some, Option.getD_some]
    exact (CStr.toInt_bounds s).2

lemma uint_bindId_inj {b c : Element} (hb : 0 < bindId b) (hc : 0 < bindId c) :
    TMsgAddress.uint (bindId b) = TMsgAddress.uint (bindId c) ↔ bindId b = bindId c := by
  have := bindId_lt b
  have := bindId_lt c
  rw [TMsgAddress.uint, TMsgAddress.uint]
  omega

lemma lookup_fresh : l.lookup (TMsgAddress.uint (bindId bind)) = none ↔ ∀ b ∈ l, b.1 ≠ TMsgAddress.uint (bindId bind) := by
  simp only [List.lookup_eq_none_iff, bne_iff_ne, ne_comm]

lemma octet_length (mem : ℕ → UInt8) (n ip : ℕ) : (octet mem n ip).length ≤ n := by
  induction n generalizing ip with
  | zero => exact Nat.le_refl 0
  | succ n ih =>
    rw [octet]
    split_ifs
    · exact Nat.zero_le _
    · exact Nat.succ_le_succ (ih _)

lemma octets_end {mem : ℕ → UInt8} {n ip : ℕ} (h : octets mem n ip) : ∃ i ≤ ip + 4 * n, mem i = 0 := by
  induction n generalizing ip with
  | zero => exact ⟨ip, Nat.le_refl _, of_decide_eq_true h⟩
  | succ n ih =>
    rw [octets] at h
    dsimp only at h
    split_ifs at h
    obtain ⟨i, hi, hmem⟩ := ih h
    have := octet_length mem 3 ip
    exact ⟨i, by omega, hmem⟩

lemma valid_length {t : CStr} {beyond : ℕ → UInt8} (h : isValidIPv4 (memory t beyond)) (h0 : 0 ∉ t) : t.length ≤ 16 := by
  obtain ⟨i, hi, hmem⟩ := octets_end h
  by_contra hlong
  have hlt : i < t.length := by omega
  rw [memory, List.getD_eq_getElem?_getD, List.getElem?_append_left hlt, List.getElem?_eq_getElem hlt,
    Option.getD_some] at hmem
  exact h0 (hmem ▸ List.getElem_mem hlt)

lemma host_noNul (bind : Element) : 0 ∉ host bind := by
  rw [host, TiXmlElement.Attribute]
  cases bind.attributes.lookup (CStr.ofString "localIP") with
  | none => exact List.not_mem_nil
  | some s =>
    intro h
    simpa using List.mem_takeWhile_imp h

lemma port_bounds (bind : Element) : -2 ^ 31 ≤ (sbind bind).port ∧ (sbind bind).port < 2 ^ 31 := by
  change -2 ^ 31 ≤ ((bind.Attribute "localPort").map CStr.toInt).getD DEFAULT_BIND_PORT ∧
    ((bind.Attribute "localPort").map CStr.toInt).getD DEFAULT_BIND_PORT < 2 ^ 31
  cases bind.Attribute "localPort" with
  | none => decide
  | some s => exact CStr.toInt_bounds s

/-- The text about a valid address is short. -/
lemma valid_logged (h : isValidIPv4 (memory (host bind) a.beyond)) :
    TUDPTrasnport.Logged (sbind bind).host (sbind bind).port := by
  have hhost := valid_length h (host_noNul bind)
  have hport := CStr.length_ofInt (port_bounds bind).1 (port_bounds bind).2
  have htext : (CStr.ofString "[transport/transportudp.C:32] bind server! host=").length = 48 :=
    CStr.length_ofString (l := "[transport/transportudp.C:32] bind server! host=".toList) rfl
  have hsep : (CStr.ofString ", port=").length = 7 := CStr.length_ofString (l := ", port=".toList) rfl
  change (TUDPTrasnport.bindInfo _ (host bind) _).length < _
  rw [TUDPTrasnport.bindInfo, INFO_BUF_SIZE]
  simp only [List.length_append]
  omega

def loaded (a : Attempt) (bind : Element) (s : Loading) : Loading :=
  if 0 < bindId bind then
    { s with
      mBindList := insertBind s.mBindList (sbind bind)
      mTransport := s.mTransport.added (bindId bind) (host bind) (sbind bind).port a.opens }
  else s

lemma loadBind_accepts (h : Accepts a s.mBindList bind) : loadBind a bind s = some (true, loaded a bind s) := by
  rw [loadBind, loaded]
  by_cases hid : 0 < (sbind bind).bindId
  · obtain ⟨hv, hf⟩ := h hid
    have hl : s.mBindList.lookup (TMsgAddress.uint (sbind bind).bindId) = none := lookup_fresh.mpr hf
    rw [if_pos hid, if_pos (show 0 < bindId bind from hid), if_neg (by simp [sbind, hv]), hl]
    dsimp only
    rw [TUDPTrasnport.addTransport_eq, if_pos (valid_logged hv)]
    rfl
  · rw [if_neg hid, if_neg (show ¬0 < bindId bind from hid)]

lemma loaded_mBindList (h : Accepts a s.mBindList bind) :
    (loaded a bind s).mBindList =
      if 0 < bindId bind ∧ Accepts a s.mBindList bind then insertBind s.mBindList (sbind bind) else s.mBindList := by
  rw [loaded]
  by_cases hid : 0 < bindId bind
  · rw [if_pos hid, if_pos ⟨hid, h⟩]
  · rw [if_neg hid, if_neg fun h => hid h.1]

lemma loadBind_rejects (h : ¬Accepts a s.mBindList bind) {r : Bool × Loading} (hr : loadBind a bind s = some r) :
    r.1 = false := by
  rw [Accepts, ← lookup_fresh] at h
  obtain ⟨hid, h⟩ := Classical.not_imp.mp h
  rw [loadBind, if_pos (show 0 < (sbind bind).bindId from hid)] at hr
  split_ifs at hr with hv
  · obtain ⟨-, -, he⟩ := Option.bind_eq_some_iff.mp hr
    cases he
    rfl
  · cases hl : s.mBindList.lookup (TMsgAddress.uint (bindId bind)) with
    | none => exact absurd ⟨by simpa [sbind] using hv, hl⟩ h
    | some sb =>
      replace hl : s.mBindList.lookup (TMsgAddress.uint (sbind bind).bindId) = some sb := hl
      rw [hl] at hr
      cases hr
      rfl

lemma bindLoop_nil (fuel : ℕ) (attempts : ℕ → Attempt) (s : Loading) :
    bindLoop fuel attempts [] s = some ([], s) := by
  cases fuel <;> rfl

lemma bindLoop_cons :
    bindLoop (fuel + 1) attempts (bind :: next) s =
      (loadBind (attempts 0) bind s).bind fun r =>
        (bindLoop fuel (fun i => attempts (i + 1)) (if r.1 then next else bind :: next) r.2).map fun q =>
          (bind :: q.1, q.2) := rfl

lemma bindLoop_length (h : bindLoop fuel attempts binds s = some (seen, s')) : binds.length ≤ seen.length := by
  induction fuel generalizing attempts binds seen s with
  | zero =>
    cases binds with
    | nil => exact Nat.zero_le _
    | cons bind next => cases h
  | succ fuel ih =>
    cases binds with
    | nil => exact Nat.zero_le _
    | cons bind next =>
      rw [bindLoop_cons] at h
      obtain ⟨r, -, h⟩ := Option.bind_eq_some_iff.mp h
      obtain ⟨q, hr, he⟩ := Option.map_eq_some_iff.mp h
      cases he
      apply Nat.succ_le_succ
      apply le_trans _ (ih hr)
      split_ifs
      · exact le_rfl
      · exact Nat.le_succ _

lemma mem_insertBind {b : ℕ × SBind} {sb : SBind} :
    b ∈ insertBind l sb ↔ b = (TMsgAddress.uint sb.bindId, sb) ∨ b ∈ l := by
  rw [insertBind, List.mem_orderedInsert]

def Fresh (l : List (ℕ × SBind)) (binds : List Element) : Prop :=
  ∀ bind ∈ binds, 0 < bindId bind → ∀ b ∈ l, b.1 ≠ TMsgAddress.uint (bindId bind)

lemma clean_cons_iff :
    Clean attempts (bind :: next) ∧ Fresh l (bind :: next) ↔
      Accepts (attempts 0) l bind ∧ Clean (fun i => attempts (i + 1)) next ∧
        Fresh (if 0 < bindId bind ∧ Accepts (attempts 0) l bind then insertBind l (sbind bind) else l) next := by
  constructor
  · rintro ⟨⟨hv, hd⟩, hf⟩
    have ha : Accepts (attempts 0) l bind := fun hid =>
      ⟨hv 0 bind rfl hid, hf bind List.mem_cons_self hid⟩
    rw [List.pairwise_cons] at hd
    refine ⟨ha, ⟨fun i => hv (i + 1), hd.2⟩, fun c hc hpos b hb => ?_⟩
    split_ifs at hb with hid
    · rcases mem_insertBind.mp hb with rfl | hb
      · exact fun he => hd.1 c hc hid.1 ((uint_bindId_inj hid.1 hpos).mp he).symm
      · exact hf c (List.mem_cons_of_mem _ hc) hpos b hb
    · exact hf c (List.mem_cons_of_mem _ hc) hpos b hb
  · rintro ⟨ha, ⟨hv, hd⟩, hf⟩
    have hl : Fresh l next := fun c hc hpos b hb => hf c hc hpos b (by
      split_ifs
      · exact mem_insertBind.mpr (Or.inr hb)
      · exact hb)
    refine ⟨⟨fun i c hc hid => ?_, List.pairwise_cons.mpr ⟨fun c hc hid he => ?_, hd⟩⟩,
      fun c hc hid => ?_⟩
    · cases i with
      | zero =>
        cases hc
        exact (ha hid).1
      | succ i => exact hv i c hc hid
    · apply hf c hc (he ▸ hid) (TMsgAddress.uint (bindId bind), sbind bind) _ (by rw [he])
      rw [if_pos ⟨hid, ha⟩]
      exact mem_insertBind.mpr (Or.inl rfl)
    · cases hc with
      | head => exact (ha hid).2
      | tail _ hc => exact hl c hc hid

lemma clean_of_once (h : bindLoop fuel attempts binds s = some (binds, s')) :
    Clean attempts binds ∧ Fresh s.mBindList binds := by
  induction fuel generalizing attempts binds s with
  | zero =>
    cases binds with
    | nil => exact ⟨⟨nofun, List.Pairwise.nil⟩, nofun⟩
    | cons bind next => cases h
  | succ fuel ih =>
    cases binds with
    | nil => exact ⟨⟨nofun, List.Pairwise.nil⟩, nofun⟩
    | cons bind next =>
      rw [bindLoop_cons] at h
      obtain ⟨r, hload, h⟩ := Option.bind_eq_some_iff.mp h
      obtain ⟨q, hr, he⟩ := Option.map_eq_some_iff.mp h
      cases he
      have ha : Accepts (attempts 0) s.mBindList bind := by
        by_contra ha
        rw [if_neg (by simp [loadBind_rejects ha hload])] at hr
        exact absurd (bindLoop_length hr) (Nat.not_succ_le_self _)
      rw [loadBind_accepts ha] at hload
      cases hload
      have hih := ih hr
      rw [loaded_mBindList ha] at hih
      exact clean_cons_iff.mpr ⟨ha, hih⟩

lemma bindLoop_clean (h : Clean attempts binds ∧ Fresh s.mBindList binds) :
    Returns (bindLoop binds.length attempts binds s) fun (seen, s') =>
      seen = binds ∧ s'.mBindList = kept attempts binds s.mBindList := by
  induction binds generalizing attempts s with
  | nil => exact ⟨_, rfl, rfl, rfl⟩
  | cons bind next ih =>
    obtain ⟨ha, h⟩ := clean_cons_iff.mp h
    rw [← loaded_mBindList ha] at h
    obtain ⟨⟨seen, s'⟩, hs, rfl, hl⟩ := ih h
    rw [List.length_cons, bindLoop_cons, loadBind_accepts ha, Option.bind_some, if_pos rfl, hs]
    refine ⟨_, rfl, rfl, hl.trans ?_⟩
    rw [kept, loaded_mBindList ha]

end BindLoop

section Config

variable {attempts : ℕ → Attempt} {pushed : ℕ → Bool} {extend e : Element} {targets seen : List Element}
  {s s' : Loading} {fuel : ℕ}

lemma fromFirst_eq (value : CStr) (e : Element) : e.fromFirst value = [] ∨ e.fromFirst value = e.elements value := by
  rw [TiXmlElement.fromFirst, TiXmlElement.elements]
  induction e.children with
  | nil => exact Or.inl rfl
  | cons n ns ih =>
    by_cases hv : n.Value = value
    · rw [List.dropWhile_cons_of_neg (by simp [hv])]
      cases n with
      | other v => exact Or.inl rfl
      | element c => exact Or.inr (List.dropWhile_cons_of_neg (by simpa [TiXmlNode.Value] using hv)).symm
    · rw [List.dropWhile_cons_of_pos (by simp [hv])]
      cases n with
      | other v => exact ih
      | element c =>
        apply ih.imp_right
        intro h
        exact h.trans (List.dropWhile_cons_of_pos (by simpa [TiXmlNode.Value] using hv)).symm

lemma reached_eq (sectionName name : String) (extend : Element) :
    reached sectionName name extend = [] ∨ reached sectionName name extend = configured sectionName name extend := by
  rw [reached, configured, inSection, inSection]
  rcases fromFirst_eq (CStr.ofString "psa") extend with h | h <;> rw [h]
  · exact Or.inl rfl
  cases ((extend.elements (CStr.ofString "psa")).head?) with
  | none => exact Or.inl rfl
  | some psa =>
    dsimp only
    rcases fromFirst_eq (CStr.ofString sectionName) psa with h | h <;> rw [h]
    · exact Or.inl rfl
    cases ((psa.elements (CStr.ofString sectionName)).head?) with
    | none => exact Or.inl rfl
    | some e => exact fromFirst_eq _ _

lemma targetLoop_nil (fuel : ℕ) (pushed : ℕ → Bool) (s : Loading) :
    targetLoop fuel pushed [] s = some ([], s) := by
  cases fuel <;> rfl

lemma targetLoop_some (h : targetLoop fuel pushed targets s = some (seen, s')) : targets = [] ∧ seen = [] ∧ s' = s := by
  induction fuel generalizing pushed targets seen s s' with
  | zero =>
    cases targets with
    | nil =>
      cases h
      exact ⟨rfl, rfl, rfl⟩
    | cons target next => cases h
  | succ fuel ih =>
    cases targets with
    | nil =>
      cases h
      exact ⟨rfl, rfl, rfl⟩
    | cons target next =>
      rw [targetLoop] at h
      obtain ⟨⟨seen', s''⟩, hr, -⟩ := Option.map_eq_some_iff.mp h
      exact absurd (ih hr).1 (List.cons_ne_nil _ _)

lemma loadConfig_eq (fuel : ℕ) (attempts : ℕ → Attempt) (pushed : ℕ → Bool) (extend : Element) :
    ∃ d : Loading → Loading, (∀ s, (d s).mBindList = s.mBindList) ∧
      loadConfig fuel attempts pushed extend =
        (bindLoop fuel attempts (reached "binds" "bind" extend) ⟨0, [], [], .new⟩).bind fun q =>
          (targetLoop fuel pushed (reached "targets" "target" extend) (d q.2)).map fun r => (q.1, r.1, r.2) := by
  rw [loadConfig, reached, inSection, inSection]
  cases (extend.fromFirst (CStr.ofString "psa")).head? with
  | none => exact ⟨id, fun _ => rfl, by simp [bindLoop_nil, targetLoop_nil]⟩
  | some psa =>
    dsimp only
    have hb : bindsLoaded fuel attempts psa ⟨0, [], [], .new⟩ = bindLoop fuel attempts
        (match (psa.fromFirst (CStr.ofString "binds")).head? with
          | none => []
          | some e => e.fromFirst (CStr.ofString "bind")) ⟨0, [], [], .new⟩ := by
      rw [bindsLoaded]
      cases (psa.fromFirst (CStr.ofString "binds")).head? with
      | none => exact (bindLoop_nil _ _ _).symm
      | some binds => rfl
    rw [hb]
    cases ht : (psa.fromFirst (CStr.ofString "targets")).head? with
    | none => exact ⟨id, fun _ => rfl, by simp [targetsLoaded, ht, targetLoop_nil]⟩
    | some t =>
      refine ⟨fun s => { s with mTaskDefault := (t.AttributeInt "default").getD 7 }, fun _ => rfl, ?_⟩
      simp only [targetsLoaded, ht, Option.map_eq_bind]
      rfl

theorem config_loads_iff (attempts : ℕ → Attempt) (pushed : ℕ → Bool) (extend : Element) :
    Loads attempts pushed extend ↔
      Shown extend ∧ Clean attempts (configuredBinds extend) ∧ configuredTargets extend = [] := by
  constructor
  · rintro ⟨fuel, ⟨binds, targets, s⟩, hr, rfl, rfl, -⟩
    obtain ⟨d, -, he⟩ := loadConfig_eq fuel attempts pushed extend
    rw [he] at hr
    obtain ⟨⟨binds, s'⟩, hb, hr⟩ := Option.bind_eq_some_iff.mp hr
    obtain ⟨⟨targets, s''⟩, ht, hs⟩ := Option.map_eq_some_iff.mp hr
    cases hs
    have hshown : Shown extend := by
      rcases reached_eq "binds" "bind" extend with hnil | hshown
      · rw [hnil] at hb
        rw [bindLoop_nil] at hb
        exact hnil.trans (congrArg Prod.fst (Option.some.inj hb))
      · exact hshown
    rw [hshown] at hb
    exact ⟨hshown, (clean_of_once hb).1, (targetLoop_some ht).2.1⟩
  · rintro ⟨hshown, hclean, htargets⟩
    obtain ⟨d, hd, he⟩ := loadConfig_eq (configuredBinds extend).length attempts pushed extend
    obtain ⟨⟨seen, s⟩, hs, rfl, hl⟩ := bindLoop_clean (s := ⟨0, [], [], .new⟩) ⟨hclean, fun _ _ _ => nofun⟩
    have hnone : reached "targets" "target" extend = [] := (reached_eq "targets" "target" extend).elim id (·.trans htargets)
    rw [hshown, hs, hnone, Option.bind_some, targetLoop_nil] at he
    exact ⟨_, _, he, rfl, htargets.symm, (hd s).trans hl⟩

def oneTarget : Element :=
  let target := ⟨CStr.ofString "target",
    [(CStr.ofString "taskid", CStr.ofString "8"), (CStr.ofString "regx", CStr.ofString "sip")], []⟩
  let targets := ⟨CStr.ofString "targets", [(CStr.ofString "default", CStr.ofString "7")], [.element target]⟩
  ⟨CStr.ofString "extend", [], [.element ⟨CStr.ofString "psa", [], [.element targets]⟩]⟩

theorem config_loads_fails :
    ¬ ∀ (attempts : ℕ → Attempt) (pushed : ℕ → Bool) (extend : Element), Loads attempts pushed extend := by
  intro h
  obtain ⟨fuel, r, hr, -⟩ := h (fun _ => ⟨fun _ => 0, true⟩) (fun _ => true) oneTarget
  obtain ⟨d, -, he⟩ := loadConfig_eq fuel (fun _ => ⟨fun _ => 0, true⟩) (fun _ => true) oneTarget
  rw [he] at hr
  obtain ⟨q, -, hr⟩ := Option.bind_eq_some_iff.mp hr
  obtain ⟨⟨targets, s⟩, ht, -⟩ := Option.map_eq_some_iff.mp hr
  have hlen : (reached "targets" "target" oneTarget).length = 1 := by decide +kernel
  rw [(targetLoop_some ht).1] at hlen
  cases hlen

end Config

end TPsaRscTask

end Xframe.Facility
