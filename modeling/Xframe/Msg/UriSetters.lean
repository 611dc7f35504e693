import Xframe.Lib.Refine
import Xframe.Msg.RscCodec
import Xframe.Msg.UriText

/-! The setters of `TURI` (`msgdatadef.h`) on an object that has components already, and the runs of them
that keep its seven fields in step. -/

namespace Xframe.Msg.Rsc.HostUri

open Xframe.Lib Xframe.Msg.CStr

section Setters

def cutSchema (schema uri : CStr) : CStr × CStr :=
  match split (ofString "://") 2 uri with
  | [schema, rest] => (schema, rest)
  | _ => (schema, uri)

def cutAccount (user password rest : CStr) : CStr × CStr × CStr :=
  match split (ofString "@") 2 rest with
  | [account, domain] =>
    match split (ofString ":") 2 account with
    | [user, password] => (user, password, domain)
    | _ => (account, password, domain)
  | _ => (user, password, rest)

def cutPort (port : ℤ) (domain : CStr) : CStr × ℤ :=
  match split (ofString ":") 2 domain with
  | [host, port] => (host, toInt port)
  | _ => (domain, port)

/-- `setUri` of an object in use: the components that the text leaves out stay. -/
def setUriOver (h : HostUri) (uri : CStr) : HostUri :=
  let (schema, rest) := cutSchema h.parts.schema uri
  let (user, password, domain) := cutAccount h.parts.user h.parts.password rest
  let (host, port) := cutPort h.parts.port domain
  ⟨uri, ⟨schema, user, password, domain, host, port⟩⟩

def setSchema (h : HostUri) (st : CStr) : HostUri := resetUri { h with parts := { h.parts with schema := st } }

def setUser (h : HostUri) (user : CStr) : HostUri := resetUri { h with parts := { h.parts with user } }

def setPassword (h : HostUri) (password : CStr) : HostUri := resetUri { h with parts := { h.parts with password } }

def setHost (h : HostUri) (host : CStr) : HostUri := resetUri { h with parts := { h.parts with host } }

def setPort (h : HostUri) (port : ℤ) : HostUri := resetUri { h with parts := { h.parts with port } }

def schemaText (schema : CStr) : CStr := if schema ≠ [] then schema ++ ofString "://" else []

def accountText (user password : CStr) : CStr := user ++ if password ≠ [] then ofString ":" ++ password else []

def compose (schema user password domain : CStr) : CStr :=
  schemaText schema ++ (accountText user password ++ if domain ≠ [] then ofString "@" ++ domain else [])

def useDomain (h : HostUri) (domain : CStr) : HostUri :=
  let (host, port) := if domain ≠ [] then cutPort 0 domain else ([], 0)
  { uri := compose h.parts.schema h.parts.user h.parts.password domain
    parts := { h.parts with domain, host, port } }

/-- The new domain is stored, and cleared before anything is made of it. -/
def setDomain (h : HostUri) (_domain : CStr) : HostUri := h.useDomain []

def encodeCStr (h : HostUri) (buf : CStr) : CStr := buf ++ h.uri

def decodeCStr (h : HostUri) (buf : CStr) : HostUri := resetUri { h with uri := buf }

lemma setUriOver_new (uri : CStr) : new.setUriOver uri = setUri uri := rfl

end Setters

section Texts

def Free (s : CStr) : Prop := ∀ c ∈ s, c ≠ 58 ∧ c ≠ 47 ∧ c ≠ 64

abbrev Component := { s : CStr // Free s }

abbrev Port := { p : ℤ // -2 ^ 31 ≤ p ∧ p < 2 ^ 31 }

def portText (port : CStr) : CStr := if port ≠ [] then ofString ":" ++ port else []

lemma schemaSep_eq : ofString "://" = [58, 47, 47] := by
  apply ofString_ofList (l := [':', '/', '/'])
  simp only [List.forall_mem_cons]
  exact ⟨by decide, by decide, by decide, List.forall_mem_nil _⟩

lemma at_eq : ofString "@" = [64] := ofString_ofList (l := ['@']) (List.forall_mem_singleton.mpr (by decide))

lemma colon_eq : ofString ":" = [58] := ofString_ofList (l := [':']) (List.forall_mem_singleton.mpr (by decide))

variable {s t : CStr}

lemma Free.colon (h : Free s) : 58 ∉ s := fun hc => (h 58 hc).1 rfl

lemma Free.slash (h : Free s) : 47 ∉ s := fun hc => (h 47 hc).2.1 rfl

lemma Free.at (h : Free s) : 64 ∉ s := fun hc => (h 64 hc).2.2 rfl

lemma free_nil : Free [] := fun _ hc => absurd hc List.not_mem_nil

lemma ofInt_ne_nil (n : ℤ) : ofInt n ≠ [] := by
  rw [ofInt_eq]
  exact List.append_ne_nil_of_right_ne_nil _ (decimal_ne_nil _)

lemma cutSchema_text (old : CStr) (hs : 58 ∉ s) (ht : t ≠ []) (hslash : 47 ∉ t) :
    cutSchema old (schemaText s ++ t) = (if s = [] then old else s, t) := by
  have hnone : strstr [58, 47, 47] t = none := strstr_eq_none (c := 47) (by simp) hslash
  rw [cutSchema, schemaText, schemaSep_eq]
  by_cases hempty : s = []
  · rw [if_neg (by simp [hempty]), List.nil_append, split_none hnone, if_neg ht, if_pos hempty]
  · rw [if_pos hempty, List.append_assoc, split_two hs ht hnone, if_neg hempty]

lemma cutAccount_text (oldUser oldPassword : CStr) {user password : CStr} (hu : Free user) (hp : Free password)
    (ht : t ≠ []) (hat : 64 ∉ t) : cutAccount oldUser oldPassword
      (accountText user password ++ (ofString "@" ++ t)) = (user, if password = [] then oldPassword else password, t) := by
  have hnone : strstr [64] t = none := strstr_eq_none (c := 64) (by simp) hat
  have haccount : 64 ∉ accountText user password := by
    rw [accountText, colon_eq, List.mem_append]
    rintro (h | h)
    · exact hu.at h
    · split_ifs at h
      · exact hp.at (List.mem_of_ne_of_mem (by decide) h)
      · exact List.not_mem_nil h
  rw [cutAccount, at_eq, split_two haccount ht hnone, colon_eq]
  dsimp only
  rw [accountText, colon_eq]
  by_cases hempty : password = []
  · have hcolon : strstr [58] user = none := strstr_eq_none (c := 58) (by simp) hu.colon
    rw [if_neg (by simp [hempty]), List.append_nil, split_none hcolon, if_pos hempty]
    split_ifs <;> rfl
  · have hcolon : strstr [58] password = none := strstr_eq_none (c := 58) (by simp) hp.colon
    rw [if_pos hempty, split_two hu.colon hempty hcolon, if_neg hempty]

lemma cutPort_text (old : ℤ) {host port : CStr} (hh : 58 ∉ host) (hport : 58 ∉ port) :
    cutPort old (host ++ portText port) = (host, if port = [] then old else toInt port) := by
  rw [cutPort, colon_eq, portText, colon_eq]
  by_cases hempty : port = []
  · have hnone : strstr [58] host = none := strstr_eq_none (c := 58) (by simp) hh
    rw [if_neg (by simp [hempty]), List.append_nil, split_none hnone, if_pos hempty]
    split_ifs <;> rfl
  · have hnone : strstr [58] port = none := strstr_eq_none (c := 58) (by simp) hport
    rw [if_pos hempty, split_two hh hempty hnone, if_neg hempty]

end Texts

section Coherence

def shown (port : ℤ) : CStr := if port = 0 then [] else ofInt port

structure SameParts (p q : TURI) : Prop where
  schema : p.schema = q.schema
  user : p.user = q.user
  password : p.password = q.password
  host : p.host = q.host
  port : p.port = q.port

structure Coherent (h : HostUri) : Prop where
  domain : h.parts.domain = h.parts.host ++ portText (shown h.parts.port)
  uri : h.uri = compose h.parts.schema h.parts.user h.parts.password h.parts.domain
  recovers : SameParts (setUri h.uri).parts h.parts

structure FreeParts (p : TURI) : Prop where
  schema : Free p.schema
  user : Free p.user
  password : Free p.password
  host : Free p.host

/-- What `resetUri` can write so that all fields agree: no port, and without a host nothing at all. -/
structure Writable (p : TURI) : Prop where
  port : p.port = 0
  host : p.host ≠ [] ∨ (p.schema = [] ∧ p.user = [] ∧ p.password = [])

variable {h : HostUri} {schema user password host port : CStr}

lemma portText_inj {port' : CStr} : portText port = portText port' ↔ port = port' := by
  rw [portText, portText, colon_eq]
  split_ifs with hp hp' hp'
  · simp
  · rw [not_not.mp hp']
    simp [hp]
  · rw [not_not.mp hp]
    simp [Ne.symm hp']
  · rw [not_not.mp hp, not_not.mp hp']

lemma mem_portText {c : UInt8} (hc : c ∈ portText port) (hne : c ≠ 58) : c ∈ port := by
  rw [portText, colon_eq] at hc
  split_ifs at hc
  · exact List.mem_of_ne_of_mem hne hc
  · exact absurd hc List.not_mem_nil

lemma mem_accountText {c : UInt8} (hc : c ∈ accountText user password) (hne : c ≠ 58) : c ∈ user ∨ c ∈ password := by
  rw [accountText, colon_eq, List.mem_append] at hc
  refine hc.imp_right fun hc => ?_
  split_ifs at hc
  · exact List.mem_of_ne_of_mem hne hc
  · exact absurd hc List.not_mem_nil

lemma setUriOver_compose (h : HostUri) (hs : Free schema) (hu : Free user) (hp : Free password) (hh : Free host)
    (hport : Free port) (hd : host ++ portText port ≠ []) : h.setUriOver (compose schema user password (host ++ portText port)) =
      ⟨compose schema user password (host ++ portText port),
        ⟨if schema = [] then h.parts.schema else schema, user, if password = [] then h.parts.password else password,
          host ++ portText port, host, if port = [] then h.parts.port else toInt port⟩⟩ := by
  have hat : 64 ∉ host ++ portText port := by
    intro hc
    rcases List.mem_append.mp hc with hc | hc
    · exact hh.at hc
    · exact hport.at (mem_portText hc (by decide))
  have hslash : 47 ∉ accountText user password ++ (ofString "@" ++ (host ++ portText port)) := by
    intro hc
    rw [at_eq, List.singleton_append] at hc
    rcases List.mem_append.mp hc with hc | hc
    · rcases mem_accountText hc (by decide) with hc | hc
      · exact hu.slash hc
      · exact hp.slash hc
    · rcases List.mem_append.mp (List.mem_of_ne_of_mem (by decide) hc) with hc | hc
      · exact hh.slash hc
      · exact hport.slash (mem_portText hc (by decide))
  have hne : accountText user password ++ (ofString "@" ++ (host ++ portText port)) ≠ [] := by simp [at_eq]
  rw [compose, if_pos hd, setUriOver, cutSchema_text _ hs.colon hne hslash]
  dsimp only
  rw [cutAccount_text _ _ hu hp hd hat]
  dsimp only
  rw [cutPort_text _ hh.colon hport.colon]

lemma setUri_compose (hs : Free schema) (hu : Free user) (hp : Free password) (hh : Free host) (hport : Free port)
    (hd : host ++ portText port ≠ []) : setUri (compose schema user password (host ++ portText port)) =
      ⟨compose schema user password (host ++ portText port),
        ⟨schema, user, password, host ++ portText port, host, if port = [] then 0 else toInt port⟩⟩ := by
  have hself : ∀ s : CStr, (if s = [] then [] else s) = s := by
    intro s
    split_ifs with hempty
    · exact hempty.symm
    · rfl
  rw [← setUriOver_new, setUriOver_compose new hs hu hp hh hport hd]
  change HostUri.mk _ ⟨if schema = [] then [] else schema, user, if password = [] then [] else password, _, _, _⟩ = _
  rw [hself, hself]
  rfl

lemma resetUri_eq (hport : h.parts.port = 0) : h.resetUri =
    ⟨compose h.parts.schema h.parts.user h.parts.password h.parts.host, { h.parts with domain := h.parts.host }⟩ := by
  have hno : ¬h.parts.port ≠ 0 := not_not.mpr hport
  rw [resetUri, compose, schemaText, accountText, if_neg hno, if_neg hno]
  simp only [List.append_nil, List.append_assoc]

lemma cutAccount_none (user password : CStr) {rest : CStr} (hat : 64 ∉ rest) :
    cutAccount user password rest = (user, password, rest) := by
  have hnone : strstr [64] rest = none := strstr_eq_none (c := 64) (by simp) hat
  rw [cutAccount, at_eq, split_none hnone]
  split_ifs <;> rfl

lemma cutSchema_subset (schema uri : CStr) : (cutSchema schema uri).2 ⊆ uri := by
  rw [cutSchema]
  split
  · next schema' rest heq => exact mem_split (heq ▸ List.mem_cons_of_mem _ List.mem_cons_self)
  · exact List.Subset.refl uri

lemma setUriOver_none (h : HostUri) {uri : CStr} (hat : 64 ∉ uri) :
    (h.setUriOver uri).parts.user = h.parts.user ∧ (h.setUriOver uri).parts.password = h.parts.password ∧
      (h.setUriOver uri).parts.domain = (cutSchema h.parts.schema uri).2 := by
  have hrest : 64 ∉ (cutSchema h.parts.schema uri).2 := fun hc => hat (cutSchema_subset _ _ hc)
  rw [setUriOver]
  dsimp only
  rw [cutAccount_none _ _ hrest]
  exact ⟨rfl, rfl, rfl⟩

lemma cutSchema_alone (old : CStr) (hs : 58 ∉ schema) : cutSchema old (schemaText schema) = (old, schemaText schema) := by
  rw [schemaText, schemaSep_eq]
  split_ifs with hne
  · rw [cutSchema, schemaSep_eq, split_last hs]
  · rfl

lemma setUri_hostless (hs : Free schema) (hu : Free user) (hp : Free password)
    (hschema : (setUri (compose schema user password [])).parts.schema = schema)
    (huser : (setUri (compose schema user password [])).parts.user = user)
    (hpassword : (setUri (compose schema user password [])).parts.password = password) :
    schema = [] ∧ user = [] ∧ password = [] := by
  have hat : 64 ∉ compose schema user password [] := by
    rw [compose, if_neg (not_not.mpr rfl), List.append_nil]
    intro hc
    rcases List.mem_append.mp hc with hc | hc
    · rw [schemaText, schemaSep_eq] at hc
      split_ifs at hc
      · rcases List.mem_append.mp hc with hc | hc
        · exact hs.at hc
        · simp at hc
      · exact List.not_mem_nil hc
    · exact (mem_accountText hc (by decide)).elim hu.at hp.at
  obtain ⟨hu', hp', -⟩ := setUriOver_none new hat
  rw [setUriOver_new] at hu' hp'
  obtain rfl : user = [] := huser.symm.trans hu'
  obtain rfl : password = [] := hpassword.symm.trans hp'
  have halone : compose schema [] [] [] = schemaText schema := by simp [compose, accountText]
  refine ⟨?_, rfl, rfl⟩
  have hcut : (setUri (schemaText schema)).parts.schema = (cutSchema [] (schemaText schema)).1 := rfl
  rw [halone, hcut, cutSchema_alone [] hs.colon] at hschema
  exact hschema.symm

lemma shown_of_portText {host : CStr} {p : ℤ} (h : host ++ (if p ≠ 0 then ofInt p else []) = host ++ portText (shown p)) :
    p = 0 := by
  by_contra hne
  have hlen := congrArg List.length (List.append_cancel_left h)
  rw [if_pos hne, shown, if_neg hne, portText, if_pos (ofInt_ne_nil p), colon_eq] at hlen
  simp at hlen

lemma resetUri_coherent (hf : FreeParts h.parts) : h.resetUri.Coherent ↔ Writable h.parts := by
  constructor
  · intro hc
    have hport : h.parts.port = 0 := shown_of_portText hc.domain
    refine ⟨hport, ?_⟩
    by_contra hno
    obtain ⟨hhost, hsome⟩ := not_or.mp hno
    have hhost : h.parts.host = [] := not_not.mp hhost
    have hr := hc.recovers
    rw [resetUri_eq hport, hhost] at hr
    exact hsome (setUri_hostless hf.schema hf.user hf.password hr.schema hr.user hr.password)
  · rintro ⟨hport, hhost⟩
    have hshown : portText (shown h.parts.port) = [] := by
      rw [hport]
      rfl
    rw [resetUri_eq hport]
    refine ⟨?_, rfl, ?_⟩
    · change h.parts.host = h.parts.host ++ portText (shown h.parts.port)
      rw [hshown, List.append_nil]
    · by_cases hne : h.parts.host = []
      · obtain ⟨hs, hu, hp⟩ := hhost.resolve_left (not_not.mpr hne)
        have hempty : compose h.parts.schema h.parts.user h.parts.password h.parts.host = [] := by
          rw [hs, hu, hp, hne]
          rfl
        change SameParts (setUri (compose h.parts.schema h.parts.user h.parts.password h.parts.host)).parts _
        rw [hempty]
        exact ⟨hs.symm, hu.symm, hp.symm, hne.symm, hport.symm⟩
      · have hshows : h.parts.host ++ portText [] ≠ [] := by simpa [portText] using hne
        have hset := setUri_compose hf.schema hf.user hf.password hf.host free_nil hshows
        rw [portText, if_neg (not_not.mpr rfl), List.append_nil] at hset
        rw [hset]
        exact ⟨rfl, rfl, rfl, rfl, hport.symm⟩

end Coherence

section Runs

structure UriText where
  schema : Component
  account : Option (Component × Component)
  host : Component
  port : Component

def UriText.domain (x : UriText) : CStr := x.host.1 ++ portText x.port.1

def UriText.text (x : UriText) : CStr :=
  schemaText x.schema.1 ++ ((x.account.map fun (user, password) => accountText user.1 password.1 ++ ofString "@").getD [] ++
    x.domain)

inductive UriOp where
  | setUri (x : UriText)
  | setSchema (st : Component)
  | setUser (user : Component)
  | setPassword (password : Component)
  | setHost (host : Component)
  | setPort (port : Port)
  | setDomain (domain : CStr)
  | decodeCStr (buf : CStr)

def exec (h : HostUri) : UriOp → HostUri
  | .setUri x => h.setUriOver x.text
  | .setSchema st => h.setSchema st.1
  | .setUser user => h.setUser user.1
  | .setPassword password => h.setPassword password.1
  | .setHost host => h.setHost host.1
  | .setPort port => h.setPort port.1
  | .setDomain domain => h.setDomain domain
  | .decodeCStr buf => h.decodeCStr buf

def UriOp.assigned (p : TURI) : UriOp → TURI
  | .setUri _ => p
  | .setSchema st => { p with schema := st.1 }
  | .setUser user => { p with user := user.1 }
  | .setPassword password => { p with password := password.1 }
  | .setHost host => { p with host := host.1 }
  | .setPort port => { p with port := port.1 }
  | .setDomain _ => { p with host := [], port := 0 }
  | .decodeCStr _ => p

/-- The text is the one that an `int` other than 0 is printed as. -/
def Printed (port : CStr) : Prop := toInt port ≠ 0 ∧ port = ofInt (toInt port)

structure Covers (x : UriText) (p : TURI) : Prop where
  account : ∃ user password, x.account = some (user, password) ∧ (password.1 = [] → p.password = [])
  domain : x.domain ≠ []
  port : x.port.1 = [] ∨ Printed x.port.1
  schema : x.schema.1 = [] → p.schema = []
  portless : x.port.1 = [] → p.port = 0

structure Blank (p : TURI) : Prop where
  schema : p.schema = []
  user : p.user = []
  password : p.password = []
  port : p.port = 0

def Careful (h : HostUri) : UriOp → Prop
  | .setUri x => Covers x h.parts ∨ (x.text = [] ∧ Blank h.parts)
  | op => Writable (op.assigned h.parts)

structure Keeps (h : HostUri) (op : UriOp) : Prop where
  coherent : (h.exec op).Coherent
  renewed : ∀ x, op = .setUri x → h.exec op = setUri x.text

def step (h : HostUri) (op : UriOp) : Unit × HostUri := ((), h.exec op)

variable {h : HostUri} {x : UriText}

lemma text_eq_compose {user password : Component} (ha : x.account = some (user, password)) (hd : x.domain ≠ []) :
    x.text = compose x.schema.1 user.1 password.1 x.domain := by
  rw [UriText.text, ha, compose, if_pos hd, Option.map_some, Option.getD_some, List.append_assoc]

lemma setUriOver_text (h : HostUri) {user password : Component} (ha : x.account = some (user, password))
    (hd : x.domain ≠ []) : h.setUriOver x.text =
      ⟨x.text, ⟨if x.schema.1 = [] then h.parts.schema else x.schema.1, user.1,
        if password.1 = [] then h.parts.password else password.1, x.domain, x.host.1,
        if x.port.1 = [] then h.parts.port else toInt x.port.1⟩⟩ := by
  rw [text_eq_compose ha hd]
  exact setUriOver_compose h x.schema.2 user.2 password.2 x.host.2 x.port.2 hd

lemma setUri_text {user password : Component} (ha : x.account = some (user, password)) (hd : x.domain ≠ []) :
    setUri x.text = 
      ⟨x.text, ⟨x.schema.1, user.1, password.1, x.domain, x.host.1, if x.port.1 = [] then 0 else toInt x.port.1⟩⟩ := by
  rw [text_eq_compose ha hd]
  exact setUri_compose x.schema.2 user.2 password.2 x.host.2 x.port.2 hd

lemma Covers.renewed (hc : Covers x h.parts) : h.setUriOver x.text = setUri x.text := by
  obtain ⟨user, password, ha, hpassword⟩ := hc.account
  have hkeep : ∀ {s t : CStr}, (s = [] → t = []) → (if s = [] then t else s) = s := by
    intro s t hst
    split_ifs with hempty
    · rw [hst hempty, hempty]
    · rfl
  have hport : (if x.port.1 = [] then h.parts.port else toInt x.port.1) =
      if x.port.1 = [] then 0 else toInt x.port.1 := by
    split_ifs with hempty
    · exact hc.portless hempty
    · rfl
  rw [setUriOver_text h ha hc.domain, setUri_text ha hc.domain, hkeep hc.schema, hkeep hpassword, hport]

lemma Covers.coherent (hc : Covers x h.parts) : (setUri x.text).Coherent := by
  obtain ⟨user, password, ha, -⟩ := hc.account
  have hset := setUri_text ha hc.domain
  have hshown : shown (if x.port.1 = [] then 0 else toInt x.port.1) = x.port.1 := by
    rcases hc.port with hempty | ⟨hne, hprinted⟩
    · rw [if_pos hempty, hempty]
      rfl
    · rw [if_neg (by rw [hprinted]; exact ofInt_ne_nil _), shown, if_neg hne, ← hprinted]
  rw [hset]
  refine ⟨?_, text_eq_compose ha hc.domain, ?_⟩
  · change x.domain = x.host.1 ++ portText (shown (if x.port.1 = [] then 0 else toInt x.port.1))
    rw [hshown]
    rfl
  · change SameParts (setUri x.text).parts _
    rw [hset]
    exact ⟨rfl, rfl, rfl, rfl, rfl⟩

lemma Blank.renewed (hb : Blank h.parts) : h.setUriOver [] = setUri [] := by
  change HostUri.mk [] ⟨h.parts.schema, h.parts.user, h.parts.password, [], [], h.parts.port⟩ = _
  rw [hb.schema, hb.user, hb.password, hb.port]
  rfl

lemma new_coherent : (setUri []).Coherent := ⟨rfl, rfl, rfl, rfl, rfl, rfl, rfl⟩

lemma domain_free {c : UInt8} (hmem : c ∈ x.domain) (hne : c ≠ 58) : c ≠ 47 ∧ c ≠ 64 := by
  rcases List.mem_append.mp hmem with hmem | hmem
  · exact (x.host.2 c hmem).2
  · exact (x.port.2 c (mem_portText hmem hne)).2

lemma accountless (hnone : x.account = none) (hc : (h.setUriOver x.text).Coherent) : x.text = [] := by
  have htext : x.text = schemaText x.schema.1 ++ x.domain := by
    rw [UriText.text, hnone]
    rfl
  have hat : 64 ∉ x.text := by
    rw [htext, schemaText, schemaSep_eq]
    intro hmem
    rcases List.mem_append.mp hmem with hmem | hmem
    · split_ifs at hmem
      · rcases List.mem_append.mp hmem with hmem | hmem
        · exact x.schema.2.at hmem
        · simp at hmem
      · exact List.not_mem_nil hmem
    · exact (domain_free hmem (by decide)).2 rfl
  have hdomain : (h.setUriOver x.text).parts.domain = [] := by
    by_contra hne
    have huri : x.text = compose _ _ _ _ := hc.uri
    rw [compose, if_pos hne, at_eq] at huri
    exact hat (huri ▸ by simp)
  rw [(setUriOver_none h hat).2.2, htext] at hdomain
  by_cases hd : x.domain = []
  · rw [hd, List.append_nil, cutSchema_alone _ x.schema.2.colon] at hdomain
    rw [htext, hd, List.append_nil]
    exact hdomain
  · have hslash : 47 ∉ x.domain := fun hmem => (domain_free hmem (by decide)).1 rfl
    rw [cutSchema_text _ x.schema.2.colon hd hslash] at hdomain
    exact absurd hdomain hd

lemma setUri_pieces {uri schema rest user password domain : CStr} (hs : cutSchema [] uri = (schema, rest))
    (ha : cutAccount [] [] rest = (user, password, domain)) : setUri uri =
      ⟨uri, ⟨schema, user, password, domain, (cutPort 0 domain).1, (cutPort 0 domain).2⟩⟩ := by
  have hcuts : setUri uri =
      (let (schema, rest) := cutSchema [] uri
       let (user, password, domain) := cutAccount [] [] rest
       ⟨uri, ⟨schema, user, password, domain, (cutPort 0 domain).1, (cutPort 0 domain).2⟩⟩) := rfl
  rw [hcuts, hs]
  dsimp only
  rw [ha]

lemma domain_ne_nil {user password : Component} (ha : x.account = some (user, password))
    (hc : (setUri x.text).Coherent) : x.domain ≠ [] := by
  intro hd
  have htext : x.text = schemaText x.schema.1 ++ (accountText user.1 password.1 ++ [64]) := by
    rw [UriText.text, ha, hd, at_eq, Option.map_some, Option.getD_some, List.append_nil]
  have haccount : 64 ∉ accountText user.1 password.1 := fun hmem =>
    (mem_accountText hmem (by decide)).elim user.2.at password.2.at
  have hslash : 47 ∉ accountText user.1 password.1 ++ [64] := by
    intro hmem
    rcases List.mem_append.mp hmem with hmem | hmem
    · exact (mem_accountText hmem (by decide)).elim user.2.slash password.2.slash
    · simp at hmem
  have hcut : cutAccount [] [] (accountText user.1 password.1 ++ [64]) =
      ([], [], accountText user.1 password.1 ++ [64]) := by
    rw [cutAccount, at_eq, split_last haccount]
  have hrest : accountText user.1 password.1 ++ [64] ≠ [] := List.append_ne_nil_of_right_ne_nil _ (by simp)
  have hset := setUri_pieces (htext ▸ cutSchema_text [] x.schema.2.colon hrest hslash) hcut
  have hself : (if x.schema.1 = [] then [] else x.schema.1) = x.schema.1 := by
    split_ifs with hempty
    · exact hempty.symm
    · rfl
  have huri := hc.uri
  rw [hset, hself] at huri
  dsimp only at huri
  rw [htext, compose, if_pos hrest, at_eq] at huri
  have hlen := congrArg List.length (List.append_cancel_left huri)
  simp [accountText] at hlen

lemma setUri_keeps_iff (h : HostUri) (x : UriText) : h.Keeps (.setUri x) ↔ h.Careful (.setUri x) := by
  constructor
  · rintro ⟨hc, hrenewed⟩
    have hr : h.setUriOver x.text = setUri x.text := hrenewed x rfl
    cases ha : x.account with
    | none =>
      have htext := accountless ha hc
      rw [htext] at hr
      have hparts : (⟨h.parts.schema, h.parts.user, h.parts.password, [], [], h.parts.port⟩ : TURI) =
        ⟨[], [], [], [], [], 0⟩ := congrArg HostUri.parts hr
      obtain ⟨hs, hu, hp, -, -, hport⟩ := TURI.mk.inj hparts
      exact Or.inr ⟨htext, hs, hu, hp, hport⟩
    | some account =>
      obtain ⟨user, password⟩ := account
      have hc' : (setUri x.text).Coherent := hr ▸ hc
      have hd := domain_ne_nil ha hc'
      have hset := setUri_text ha hd
      rw [setUriOver_text h ha hd, hset] at hr
      obtain ⟨hs, -, hp, -, -, hport⟩ := TURI.mk.inj (congrArg HostUri.parts hr)
      refine Or.inl ⟨⟨user, password, ha, fun hempty => ?_⟩, hd, ?_, fun hempty => ?_, fun hempty => ?_⟩
      · rw [if_pos hempty, hempty] at hp
        exact hp
      · have hdomain := hc'.domain
        rw [hset] at hdomain
        have hshown := portText_inj.mp (List.append_cancel_left hdomain)
        by_cases hempty : x.port.1 = []
        · exact Or.inl hempty
        · dsimp only at hshown
          rw [if_neg hempty, shown] at hshown
          split_ifs at hshown with hzero
          · exact absurd hshown hempty
          · exact Or.inr ⟨hzero, hshown⟩
      · rw [if_pos hempty, hempty] at hs
        exact hs
      · rw [if_pos hempty, if_pos hempty] at hport
        exact hport
  · rintro (hcovers | ⟨htext, hblank⟩)
    · refine ⟨?_, ?_⟩
      · change (h.setUriOver x.text).Coherent
        rw [hcovers.renewed]
        exact hcovers.coherent
      · rintro _ ⟨⟩
        exact hcovers.renewed
    · have hr : h.setUriOver x.text = setUri x.text := by
        rw [htext]
        exact hblank.renewed
      refine ⟨?_, ?_⟩
      · change (h.setUriOver x.text).Coherent
        rw [hr, htext]
        exact new_coherent
      · rintro _ ⟨⟩
        exact hr

lemma exec_eq (h : HostUri) {op : UriOp} (hop : ∀ x, op ≠ .setUri x) :
    h.exec op = resetUri ⟨h.uri, op.assigned h.parts⟩ := by
  cases op with
  | setUri x => exact absurd rfl (hop x)
  | setDomain domain =>
    change h.useDomain [] = _
    rw [resetUri_eq (h := ⟨h.uri, _⟩) rfl]
    rfl
  | _ => rfl

lemma assigned_free {p : TURI} (hf : FreeParts p) (op : UriOp) : FreeParts (op.assigned p) := by
  cases op with
  | setUri x => exact hf
  | setSchema st => exact ⟨st.2, hf.user, hf.password, hf.host⟩
  | setUser user => exact ⟨hf.schema, user.2, hf.password, hf.host⟩
  | setPassword password => exact ⟨hf.schema, hf.user, password.2, hf.host⟩
  | setHost host => exact ⟨hf.schema, hf.user, hf.password, host.2⟩
  | setPort port => exact ⟨hf.schema, hf.user, hf.password, hf.host⟩
  | setDomain domain => exact ⟨hf.schema, hf.user, hf.password, free_nil⟩
  | decodeCStr buf => exact hf

lemma keeps_iff (hf : FreeParts h.parts) (op : UriOp) : h.Keeps op ↔ h.Careful op := by
  by_cases hop : ∃ x, op = .setUri x
  · obtain ⟨x, rfl⟩ := hop
    exact setUri_keeps_iff h x
  · have hop : ∀ x, op ≠ .setUri x := not_exists.mp hop
    have hcareful : h.Careful op ↔ Writable (op.assigned h.parts) := by
      cases op with
      | setUri x => exact absurd rfl (hop x)
      | _ => exact Iff.rfl
    have hreset : (resetUri ⟨h.uri, op.assigned h.parts⟩).Coherent ↔ Writable (op.assigned h.parts) :=
      resetUri_coherent (assigned_free hf op)
    rw [hcareful, ← hreset, ← exec_eq h hop]
    exact ⟨fun hk => hk.coherent, fun hc => ⟨hc, fun x hx => absurd hx (hop x)⟩⟩

lemma exec_free (hf : FreeParts h.parts) {op : UriOp} (hc : h.Careful op) : FreeParts (h.exec op).parts := by
  by_cases hop : ∃ x, op = .setUri x
  · obtain ⟨x, rfl⟩ := hop
    change FreeParts (h.setUriOver x.text).parts
    rcases hc with hcovers | ⟨htext, hblank⟩
    · obtain ⟨user, password, ha, -⟩ := hcovers.account
      rw [hcovers.renewed, setUri_text ha hcovers.domain]
      exact ⟨x.schema.2, user.2, password.2, x.host.2⟩
    · rw [htext, hblank.renewed]
      exact ⟨free_nil, free_nil, free_nil, free_nil⟩
  · rw [exec_eq h (not_exists.mp hop)]
    have hassigned := assigned_free hf op
    exact ⟨hassigned.schema, hassigned.user, hassigned.password, hassigned.host⟩

lemma keeps_careful (ops : List UriOp) : Along step Keeps new ops ↔ Along step Careful new ops := by
  have hnew : FreeParts new.parts := ⟨free_nil, free_nil, free_nil, free_nil⟩
  apply along_iff (fun h : HostUri => FreeParts h.parts) (fun h op hf _ => keeps_iff hf op) _ hnew ops
    (along_of_forall (fun _ _ => trivial) new ops)
  intro h op hf _ hk
  exact exec_free hf ((keeps_iff hf op).mp hk)

lemma decodeCStr_new (buf : CStr) : new.decodeCStr buf = new := rfl

def letter (c : UInt8) (hc : c ≠ 58 ∧ c ≠ 47 ∧ c ≠ 64) : Component :=
  ⟨[c], fun _ h => List.mem_singleton.mp h ▸ hc⟩

def sampleHost : Component := letter 104 (by decide)

def sampleUser : Component := letter 117 (by decide)

def withPort (port : Component) : UriText := ⟨⟨[], free_nil⟩, some (sampleUser, ⟨[], free_nil⟩), sampleHost, port⟩

end Runs

end Xframe.Msg.Rsc.HostUri
