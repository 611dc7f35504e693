import Xframe.Lib.Refine
import Xframe.Transport.TransportUdp

/-! The binds of `TUDPTrasnport`: which sockets the select loop walks over, and where an outgoing message is
queued. A null entry that is dereferenced has no result, nor has the begin of an empty map, nor a set that is
asked about the descriptor -1, nor a text longer than the buffer in which it is logged. -/

namespace Xframe.Transport

open Xframe.Lib Xframe.Msg

/-- `isOpen` says that `mSocket` has a descriptor, which is -1 until it is opened. -/
structure TBind where
  mBindID : ℤ
  mHost : CStr
  mPort : ℤ
  isOpen : Bool
  mSendBuffer : List TUniNetMsg

/-- `opened` are the addresses whose server socket was opened, `sent` the datagrams, and `deleted` the messages
that the transport has deleted. -/
structure TUDPTrasnport where
  mBinds : List (ℕ × Option TBind)
  opened : List (ℤ × CStr × ℤ)
  sent : List Datagram
  deleted : List TUniNetMsg

namespace TUDPTrasnport

def new : TUDPTrasnport := ⟨[], [], [], []⟩

/-- An `int` as a `UINT`, and as a `BOOL`, which has no sign either. -/
def uint (n : ℤ) : ℕ := (n % 2 ^ 32).toNat

def insert (mBinds : List (ℕ × Option TBind)) (k : ℕ) (bind : Option TBind) : List (ℕ × Option TBind) :=
  match mBinds.lookup k with
  | some _ => mBinds
  | none => mBinds.orderedInsert (fun a b => a.1 ≤ b.1) (k, bind)

/-- `mBinds[k]` puts a null entry where there is none. -/
def subscript (mBinds : List (ℕ × Option TBind)) (k : ℕ) : Option TBind × List (ℕ × Option TBind) :=
  match mBinds.lookup k with
  | some bind => (bind, mBinds)
  | none => (none, insert mBinds k none)

def openServer (port : ℤ) (opens : Bool) : ℤ := if port ≤ 0 ∨ opens = false then -1 else 1

def bindInfo (text : String) (host : CStr) (port : ℤ) : CStr :=
  CStr.ofString text ++ host ++ CStr.ofString ", port=" ++ CStr.ofInt port

def addTransport (s : TUDPTrasnport) (bindid : ℤ) (host : CStr) (port : ℤ) (opens : Bool) :
    Option (Bool × TUDPTrasnport) :=
  let success := uint (openServer port opens)
  if success = 0 then do
    logged (bindInfo "[transport/transportudp.C:28] bind server error! host=" host port)
    some (false, s)
  else do
    logged (bindInfo "[transport/transportudp.C:32] bind server! host=" host port)
    let isOpen := openServer port opens = 1
    some (true, { s with
      mBinds := insert s.mBinds (uint bindid) (some ⟨bindid, host, port, isOpen, []⟩)
      opened := if isOpen then s.opened ++ [(bindid, host, port)] else s.opened })

def socket (e : ℕ × Option TBind) : Option (ℕ × TBind) := (e.2.filter TBind.isOpen).map fun bind => (e.1, bind)

def onBuildFDSet (s : TUDPTrasnport) : Option (List (ℕ × TBind)) := s.mBinds.mapM socket

def onCheckFDSet (s : TUDPTrasnport) (readyToWrite : ℕ → Bool) : Option TUDPTrasnport := do
  let binds ← s.mBinds.mapM socket
  let ready := (binds.filter fun e => readyToWrite e.1).flatMap fun e => e.2.mSendBuffer
  some { s with
    mBinds := binds.map fun e => (e.1, some (if readyToWrite e.1 then { e.2 with mSendBuffer := [] } else e.2))
    sent := s.sent ++ Send ready
    deleted := s.deleted ++ ready }

def pushBack (s : TUDPTrasnport) (k : ℕ) (bind : TBind) (msg : TUniNetMsg) : TUDPTrasnport :=
  let bind := { bind with mSendBuffer := bind.mSendBuffer ++ [msg] }
  { s with mBinds := s.mBinds.map fun e => if e.1 = k then (k, some bind) else e }

def onRecvSendMsg (s : TUDPTrasnport) (msg : TUniNetMsg) : Option TUDPTrasnport :=
  match msg.ctrlMsgHdr.bind TCtrlMsg.com with
  | none => some s
  | some hdr =>
    if 0 < hdr.facility then
      let (bind, mBinds) := subscript s.mBinds (uint hdr.facility)
      let s := { s with mBinds := mBinds }
      match bind with
      | some bind => some (s.pushBack (uint hdr.facility) bind msg)
      | none => some s
    else
      match s.mBinds with
      | [] => none
      | (k, some bind) :: _ => some (s.pushBack k bind msg)
      | (_, none) :: _ => some s

inductive Event where
  | addTransport (bindid : ℤ) (host : CStr) (port : ℤ) (opens : Bool)
  | sendMsg (msg : TUniNetMsg)
  | buildFDSet
  | checkFDSet (readyToWrite : ℕ → Bool)

def exec (s : TUDPTrasnport) : Event → Option (Unit × TUDPTrasnport)
  | .addTransport bindid host port opens => (s.addTransport bindid host port opens).map fun (_, s) => ((), s)
  | .sendMsg msg => (s.onRecvSendMsg msg).map fun s => ((), s)
  | .buildFDSet => s.onBuildFDSet.map fun _ => ((), s)
  | .checkFDSet readyToWrite => (s.onCheckFDSet readyToWrite).map fun s => ((), s)

def Entry (opened : List (ℤ × CStr × ℤ)) (e : ℕ × Option TBind) : Prop :=
  ∃ bind, e.2 = some bind ∧ e.1 = uint bind.mBindID ∧ bind.isOpen = true ∧
    (bind.mBindID, bind.mHost, bind.mPort) ∈ opened

def Live (s : TUDPTrasnport) : Prop := ∀ e ∈ s.mBinds, Entry s.opened e

def named (s : TUDPTrasnport) (facility : ℤ) : Option TBind :=
  if 0 < facility then (s.mBinds.lookup (uint facility)).join else s.mBinds.head?.bind Prod.snd

def Logged (host : CStr) (port : ℤ) : Prop :=
  (bindInfo "[transport/transportudp.C:32] bind server! host=" host port).length < INFO_BUF_SIZE

instance (host : CStr) (port : ℤ) : Decidable (Logged host port) := inferInstanceAs (Decidable (_ < _))

/-- A new bind gets its socket, its address can be logged, and a message names a bind. -/
def Allowed (s : TUDPTrasnport) : Event → Prop
  | .addTransport bindid host port opens =>
    Logged host port ∧ (openServer port opens = 1 ∨ s.mBinds.lookup (uint bindid) ≠ none)
  | .sendMsg msg => ∀ hdr, msg.ctrlMsgHdr.bind TCtrlMsg.com = some hdr → s.named hdr.facility ≠ none
  | _ => True

def Refuses (s : TUDPTrasnport) (e : Event) : Prop :=
  ∀ msg hdr, e = .sendMsg msg → msg.ctrlMsgHdr.bind TCtrlMsg.com = some hdr → s.named hdr.facility = none →
    Returns (s.exec e) fun (_, s') => s'.mBinds = s.mBinds ∧ s'.deleted = s.deleted ++ [msg]

section Entries

variable {mBinds : List (ℕ × Option TBind)} {opened opened' : List (ℤ × CStr × ℤ)} {k : ℕ} {bind : Option TBind}
  {e : ℕ × Option TBind}

lemma mem_of_lookup (h : mBinds.lookup k = some bind) : (k, bind) ∈ mBinds := by
  obtain ⟨l, r, rfl, -⟩ := List.lookup_eq_some_iff.mp h
  simp

lemma mem_insert (h : e ∈ insert mBinds k bind) : e ∈ mBinds ∨ e = (k, bind) := by
  rw [insert] at h
  split at h
  · exact Or.inl h
  · rw [List.mem_orderedInsert] at h
    exact h.symm

lemma Entry.mono (h : Entry opened e) (hsub : ∀ o ∈ opened, o ∈ opened') : Entry opened' e := by
  obtain ⟨bind, hbind, hkey, hopen, hmem⟩ := h
  exact ⟨bind, hbind, hkey, hopen, hsub _ hmem⟩

end Entries

section Send

variable {s s' : TUDPTrasnport} {msg : TUniNetMsg} {hdr : TComMsgHdr} {bind : TBind} {k : ℕ}

lemma pushBack_live (h : s.Live) (hmem : (k, some bind) ∈ s.mBinds) (msg : TUniNetMsg) : (s.pushBack k bind msg).Live := by
  intro e he
  obtain ⟨e, hold, rfl⟩ := List.mem_map.mp he
  split_ifs
  · obtain ⟨bind', hb, hkey, ho⟩ := h _ hmem
    obtain rfl := Option.some.inj hb
    exact ⟨_, rfl, hkey, ho⟩
  · exact h _ hold

lemma onRecvSendMsg_named (hhdr : msg.ctrlMsgHdr.bind TCtrlMsg.com = some hdr) (h : s.named hdr.facility = some bind) :
    ∃ k, (k, some bind) ∈ s.mBinds ∧ s.onRecvSendMsg msg = some (s.pushBack k bind msg) := by
  rw [onRecvSendMsg, hhdr]
  rw [named] at h
  dsimp only
  split_ifs at h ⊢ with hpos
  · have hl : s.mBinds.lookup (uint hdr.facility) = some (some bind) := by
      cases hl : s.mBinds.lookup (uint hdr.facility) with
      | none => rw [hl] at h; cases h
      | some b => rw [hl] at h; exact congrArg some h
    refine ⟨_, mem_of_lookup hl, ?_⟩
    rw [subscript, hl]
  · cases hm : s.mBinds with
    | nil => rw [hm] at h; cases h
    | cons e m =>
      rw [hm] at h
      obtain ⟨k, b⟩ := e
      obtain rfl : b = some bind := h
      exact ⟨k, List.mem_cons_self, rfl⟩

lemma onRecvSendMsg_kept (hhdr : msg.ctrlMsgHdr.bind TCtrlMsg.com = some hdr) (hs : s.onRecvSendMsg msg = some s') :
    s'.deleted = s.deleted := by
  rw [onRecvSendMsg, hhdr] at hs
  dsimp only at hs
  split_ifs at hs with hpos
  · cases hb : (subscript s.mBinds (uint hdr.facility)).1 with
    | none =>
      rw [hb] at hs
      cases hs
      rfl
    | some bind =>
      rw [hb] at hs
      cases hs
      rfl
  · split at hs <;> cases hs <;> rfl

end Send

section Steps

variable {s s' : TUDPTrasnport}

def added (s : TUDPTrasnport) (bindid : ℤ) (host : CStr) (port : ℤ) (opens : Bool) : TUDPTrasnport :=
  { s with
    mBinds := insert s.mBinds (uint bindid) (some ⟨bindid, host, port, openServer port opens = 1, []⟩)
    opened := if openServer port opens = 1 then s.opened ++ [(bindid, host, port)] else s.opened }

lemma addTransport_eq (s : TUDPTrasnport) (bindid : ℤ) (host : CStr) (port : ℤ) (opens : Bool) :
    s.addTransport bindid host port opens =
      if Logged host port then some (true, s.added bindid host port opens) else none := by
  have hopen : uint (openServer port opens) ≠ 0 := by
    rw [openServer]
    split_ifs <;> decide
  rw [addTransport, if_neg hopen, logged]
  by_cases h : Logged host port
  · rw [if_pos h, if_pos (show List.length _ < INFO_BUF_SIZE from h)]
    rfl
  · rw [if_neg h, if_neg (show ¬List.length _ < INFO_BUF_SIZE from h)]
    rfl

lemma added_live (h : s.Live) {bindid : ℤ} {host : CStr} {port : ℤ} {opens : Bool}
    (ho : openServer port opens = 1 ∨ s.mBinds.lookup (uint bindid) ≠ none) :
    (s.added bindid host port opens).Live := by
  have hsub : ∀ o ∈ s.opened,
      o ∈ (if openServer port opens = 1 then s.opened ++ [(bindid, host, port)] else s.opened) := by
    intro o hmem
    split_ifs
    · exact List.mem_append_left _ hmem
    · exact hmem
  intro e he
  by_cases hopen : openServer port opens = 1
  · rcases mem_insert he with he | rfl
    · exact (h e he).mono hsub
    · exact ⟨_, rfl, rfl, by simp [hopen], by simp [added, hopen]⟩
  · obtain ⟨bind, hbind⟩ := Option.ne_none_iff_exists'.mp (ho.resolve_left hopen)
    replace he : e ∈ insert s.mBinds (uint bindid) _ := he
    rw [insert, hbind] at he
    exact (h e he).mono hsub

lemma added_not_live {bindid : ℤ} {host : CStr} {port : ℤ} {opens : Bool}
    (h : (s.added bindid host port opens).Live) :
    openServer port opens = 1 ∨ s.mBinds.lookup (uint bindid) ≠ none := by
  rw [or_iff_not_imp_right, not_not]
  intro hnone
  obtain ⟨bind, hbind, -, hopen, -⟩ := h (uint bindid, some ⟨bindid, host, port, openServer port opens = 1, []⟩) (by
    change _ ∈ insert s.mBinds (uint bindid) _
    rw [insert, hnone, List.mem_orderedInsert]
    exact Or.inl rfl)
  obtain rfl := Option.some.inj hbind
  simpa using hopen

lemma Live.sockets (h : s.Live) :
    ∃ binds : List (ℕ × TBind), s.mBinds = binds.map (fun e => (e.1, some e.2)) ∧ s.mBinds.mapM socket = some binds := by
  have hsome : ∀ e ∈ s.mBinds, ∃ bind, e.2 = some bind ∧ bind.isOpen = true :=
    fun e he => (h e he).imp fun _ hb => ⟨hb.1, hb.2.2.1⟩
  generalize s.mBinds = m at hsome
  induction m with
  | nil => exact ⟨[], rfl, rfl⟩
  | cons e m ih =>
    obtain ⟨bind, hbind, hopen⟩ := hsome e List.mem_cons_self
    obtain ⟨binds, rfl, hm⟩ := ih fun e he => hsome e (List.mem_cons_of_mem _ he)
    refine ⟨(e.1, bind) :: binds, by rw [List.map_cons, ← hbind], ?_⟩
    simp [List.mapM_cons, hm, socket, hbind, Option.filter, hopen]

lemma onCheckFDSet_live (h : s.Live) (readyToWrite : ℕ → Bool) :
    Returns (s.onCheckFDSet readyToWrite) fun s' => s'.Live := by
  obtain ⟨binds, hb, hm⟩ := h.sockets
  refine .of_bind hm ((returns_some _ _).mpr ?_)
  intro e he
  obtain ⟨e, hmem, rfl⟩ := List.mem_map.mp he
  have hold : (e.1, some e.2) ∈ s.mBinds := by
    rw [hb]
    exact List.mem_map_of_mem hmem
  obtain ⟨bind, hbind, hkey, hopen, ho⟩ := h _ hold
  obtain rfl := Option.some.inj hbind
  refine ⟨_, rfl, ?_⟩
  split_ifs
  · exact ⟨hkey, hopen, ho⟩
  · exact ⟨hkey, hopen, ho⟩

lemma exec_live (h : s.Live) {e : Event} (ha : s.Allowed e) : Returns (s.exec e) fun (_, s') => s'.Live := by
  cases e with
  | addTransport bindid host port opens =>
    rw [exec, addTransport_eq, if_pos ha.1]
    exact (returns_some _ _).mpr (added_live h ha.2)
  | buildFDSet =>
    obtain ⟨binds, -, hm⟩ := h.sockets
    rw [exec, onBuildFDSet, hm]
    exact (returns_some _ _).mpr h
  | checkFDSet readyToWrite => exact (onCheckFDSet_live h readyToWrite).map fun _ hs => hs
  | sendMsg msg =>
    cases hhdr : msg.ctrlMsgHdr.bind TCtrlMsg.com with
    | none =>
      rw [exec, onRecvSendMsg, hhdr]
      exact (returns_some _ _).mpr h
    | some hdr =>
      obtain ⟨bind, hbind⟩ := Option.ne_none_iff_exists'.mp (ha hdr hhdr)
      obtain ⟨k, hmem, hs⟩ := onRecvSendMsg_named hhdr hbind
      rw [exec, hs]
      exact (returns_some _ _).mpr (pushBack_live h hmem msg)

lemma Allowed.refuses {e : Event} (ha : s.Allowed e) : s.Refuses e := by
  cases e with
  | addTransport | buildFDSet | checkFDSet => exact fun _ _ h => by cases h
  | sendMsg msg =>
    rintro _ hdr ⟨rfl⟩ hhdr hnone
    exact absurd hnone (ha hdr hhdr)

lemma Refuses.allowed {e : Event} (hr : s.Refuses e) (hl : Returns (s.exec e) fun (_, s') => s'.Live) :
    s.Allowed e := by
  cases e with
  | addTransport bindid host port opens =>
    obtain ⟨⟨u, s'⟩, hs, hlive⟩ := hl
    obtain ⟨⟨b, t⟩, hs, he⟩ := Option.map_eq_some_iff.mp hs
    cases he
    rw [addTransport_eq] at hs
    split_ifs at hs with hlog
    cases hs
    exact ⟨hlog, added_not_live hlive⟩
  | buildFDSet | checkFDSet => trivial
  | sendMsg msg =>
    intro hdr hhdr hnone
    obtain ⟨⟨u, s'⟩, hs, -, hdel⟩ := hr msg hdr rfl hhdr hnone
    obtain ⟨s'', hs, he⟩ := Option.map_eq_some_iff.mp hs
    cases he
    rw [onRecvSendMsg_kept hhdr hs] at hdel
    have hlen := congrArg List.length hdel
    simp at hlen

end Steps

end TUDPTrasnport

end Xframe.Transport
