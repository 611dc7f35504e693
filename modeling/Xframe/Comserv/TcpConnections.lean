import Xframe.Lib.Heap
import Xframe.Lib.Refine

/-! `CTcpConnectionManager` of `socket.C`: the list of connections and the map from descriptors to them
that was added for epoll. Connections are objects on a heap; using a deleted one has no result. -/

namespace Xframe.Comserv

open Xframe.Lib

structure CTcpConnection (U : Type) where
  connId : ℕ
  linkId : ℕ
  remoteUri : U

structure CTcpConnectionManager (U : Type) where
  heap : Heap (CTcpConnection U)
  mConnections : List ℕ
  mConnectionSet : ℕ → Option ℕ

namespace CTcpConnectionManager

variable {U : Type}

def new : CTcpConnectionManager U := ⟨.empty, [], fun _ => none⟩

/-- The connection is a new object. `std::map::insert` leaves an entry of the same key alone. -/
def addConnection (m : CTcpConnectionManager U) (connection : CTcpConnection U) : CTcpConnectionManager U :=
  let (p, heap) := m.heap.alloc connection
  { heap
    mConnections := m.mConnections ++ [p]
    mConnectionSet :=
      if (m.mConnectionSet connection.connId).isSome then m.mConnectionSet
      else Function.update m.mConnectionSet connection.connId (some p) }

def findFirst (heap : Heap (CTcpConnection U)) (wanted : CTcpConnection U → Bool) : List ℕ → Option (Option ℕ)
  | [] => some none
  | p :: ps => do
    let connection ← heap.read p
    if wanted connection then some (some p) else findFirst heap wanted ps

def findByConnId (m : CTcpConnectionManager U) (connid : ℕ) : Option (Option ℕ) :=
  findFirst m.heap (fun connection => connection.connId = connid) m.mConnections

def seekByConnId (m : CTcpConnectionManager U) (connid : ℕ) : Option ℕ := m.mConnectionSet connid

def closeFirst (wanted : CTcpConnection U → Bool) :
    Heap (CTcpConnection U) → List ℕ → Option (Heap (CTcpConnection U) × List ℕ)
  | heap, [] => some (heap, [])
  | heap, p :: ps => do
    let connection ← heap.read p
    if wanted connection then do
      let heap ← heap.free p
      some (heap, ps)
    else do
      let (heap, ps) ← closeFirst wanted heap ps
      some (heap, p :: ps)

def closeWanted (m : CTcpConnectionManager U) (wanted : CTcpConnection U → Bool) :
    Option (CTcpConnectionManager U) := do
  let (heap, mConnections) ← closeFirst wanted m.heap m.mConnections
  some { m with heap, mConnections }

def close (same : U → U → Bool) (m : CTcpConnectionManager U) (remoteUri : U) : Option (CTcpConnectionManager U) :=
  m.closeWanted fun connection => same connection.remoteUri remoteUri

def closeByLinkId (m : CTcpConnectionManager U) (linkId : ℕ) : Option (CTcpConnectionManager U) :=
  m.closeWanted fun connection => connection.linkId = linkId

def closeByConnId (m : CTcpConnectionManager U) (connId : ℕ) : Option (CTcpConnectionManager U) :=
  match m.mConnectionSet connId with
  | none => some m
  | some p => do
    let connection ← m.heap.read p
    if connId = connection.connId then do
      let heap ← m.heap.free p
      some { m with heap, mConnectionSet := Function.update m.mConnectionSet connId none }
    else some m

def closeEach (gone : ℕ → Bool) : Heap (CTcpConnection U) → List ℕ → Option (Heap (CTcpConnection U) × List ℕ)
  | heap, [] => some (heap, [])
  | heap, p :: ps => do
    let _ ← heap.read p
    if gone p then do
      let heap ← heap.free p
      closeEach gone heap ps
    else do
      let (heap, ps) ← closeEach gone heap ps
      some (heap, p :: ps)

def closeGone (m : CTcpConnectionManager U) (gone : ℕ → Bool) : Option (CTcpConnectionManager U) := do
  let (heap, mConnections) ← closeEach gone m.heap m.mConnections
  some { m with heap, mConnections }

def closeAll (m : CTcpConnectionManager U) : Option (CTcpConnectionManager U) := m.closeGone fun _ => true

/-- `re p` is what `process` of the connection at `p` answers. -/
def procFdSet (m : CTcpConnectionManager U) (re : ℕ → ℤ) : Option (CTcpConnectionManager U) :=
  m.closeGone fun p => re p < 0

inductive Call (U : Type) where
  | addConnection (connection : CTcpConnection U)
  | close (remoteUri : U)
  | closeByConnId (connId : ℕ)
  | closeByLinkId (linkId : ℕ)
  | closeAll
  | procFdSet (re : ℕ → ℤ)

section Calls

variable (same : U → U → Bool)

def exec (m : CTcpConnectionManager U) : Call U → Option (CTcpConnectionManager U)
  | .addConnection connection => some (m.addConnection connection)
  | .close remoteUri => m.close same remoteUri
  | .closeByConnId connId => m.closeByConnId connId
  | .closeByLinkId linkId => m.closeByLinkId linkId
  | .closeAll => m.closeAll
  | .procFdSet re => m.procFdSet re

def step (m : Option (CTcpConnectionManager U)) (c : Call U) : Unit × Option (CTcpConnectionManager U) :=
  ((), m.bind fun m => m.exec same c)

/-- A connection that is added has a descriptor that no other connection of the list has. -/
def Call.Legal (m : Option (CTcpConnectionManager U)) : Call U → Prop
  | .addConnection connection =>
    ∀ n, m = some n → ∀ p ∈ n.mConnections, ∀ c, n.heap.read p = some c → c.connId ≠ connection.connId
  | _ => True

def Call.Closes (m : CTcpConnectionManager U) : Call U → Prop
  | .addConnection _ => False
  | .close remoteUri => ∃ p ∈ m.mConnections, ∃ c, m.heap.read p = some c ∧ same c.remoteUri remoteUri = true
  | .closeByConnId connId => (m.mConnectionSet connId).isSome
  | .closeByLinkId linkId => ∃ p ∈ m.mConnections, ∃ c, m.heap.read p = some c ∧ c.linkId = linkId
  | .closeAll => m.mConnections ≠ []
  | .procFdSet re => ∃ p ∈ m.mConnections, re p < 0

end Calls

structure Agrees (m : CTcpConnectionManager U) : Prop where
  same : ∀ p, p ∈ m.mConnections ↔ ∃ connid, m.mConnectionSet connid = some p
  live : ∀ p ∈ m.mConnections, (m.heap.read p).isSome
  found : ∀ connid, m.findByConnId connid = some (m.seekByConnId connid)

def Keyed (m : CTcpConnectionManager U) : Prop :=
  ∀ connid p, m.mConnectionSet connid = some p → ∃ c, m.heap.read p = some c ∧ c.connId = connid

variable {m : CTcpConnectionManager U} {heap heap' : Heap (CTcpConnection U)} {ps ps' : List ℕ}

lemma findFirst_spec (wanted : CTcpConnection U → Bool) (hlive : ∀ p ∈ ps, (heap.read p).isSome) :
    (∃ p ∈ ps, findFirst heap wanted ps = some (some p) ∧ ∃ c, heap.read p = some c ∧ wanted c = true) ∨
      (findFirst heap wanted ps = some none ∧ ∀ p ∈ ps, ∀ c, heap.read p = some c → wanted c = false) := by
  induction ps with
  | nil => exact Or.inr ⟨rfl, by simp⟩
  | cons p ps ih =>
    obtain ⟨c, hc⟩ := Option.isSome_iff_exists.mp (hlive p List.mem_cons_self)
    cases hw : wanted c with
    | true => exact Or.inl ⟨p, List.mem_cons_self, by simp [findFirst, hc, hw], c, hc, hw⟩
    | false =>
      have hstep : findFirst heap wanted (p :: ps) = findFirst heap wanted ps := by simp [findFirst, hc, hw]
      rw [hstep]
      obtain ⟨q, hq, hfound⟩ | ⟨hnone, hall⟩ := ih fun q hq => hlive q (List.mem_cons_of_mem _ hq)
      · exact Or.inl ⟨q, List.mem_cons_of_mem _ hq, hfound⟩
      · refine Or.inr ⟨hnone, fun q hq => ?_⟩
        rcases List.mem_cons.mp hq with rfl | hq
        · intro c' hc'
          rwa [Option.some.inj (hc'.symm.trans hc)]
        · exact hall q hq

lemma found_of_keyed (hsame : ∀ p, p ∈ m.mConnections ↔ ∃ connid, m.mConnectionSet connid = some p)
    (hlive : ∀ p ∈ m.mConnections, (m.heap.read p).isSome) (hkey : m.Keyed) (connid : ℕ) :
    m.findByConnId connid = some (m.seekByConnId connid) := by
  rw [findByConnId, seekByConnId]
  obtain ⟨p, hp, hfound, c, hc, hw⟩ | ⟨hnone, hall⟩ :=
    findFirst_spec (fun c => c.connId = connid) hlive
  · obtain ⟨id, hid⟩ := (hsame p).mp hp
    obtain ⟨c', hc', rfl⟩ := hkey id p hid
    obtain rfl := Option.some.inj (hc'.symm.trans hc)
    rw [hfound, ← of_decide_eq_true hw, hid]
  · rw [hnone]
    cases hset : m.mConnectionSet connid with
    | none => rfl
    | some p =>
      obtain ⟨c, hc, hid⟩ := hkey connid p hset
      have hnot := hall p ((hsame p).mpr ⟨connid, hset⟩) c hc
      exact absurd hid (of_decide_eq_false hnot)

lemma Agrees.add (h : m.Agrees) (hkey : m.Keyed) {connection : CTcpConnection U}
    (hnew : ∀ p ∈ m.mConnections, ∀ c, m.heap.read p = some c → c.connId ≠ connection.connId) :
    (m.addConnection connection).Agrees ∧ (m.addConnection connection).Keyed := by
  have hnone : m.mConnectionSet connection.connId = none := by
    cases hset : m.mConnectionSet connection.connId with
    | none => rfl
    | some p =>
      obtain ⟨c, hc, hid⟩ := hkey _ p hset
      exact absurd hid (hnew p ((h.same p).mpr ⟨_, hset⟩) c hc)
  have hread : ∀ p, (m.addConnection connection).heap.read p =
      Function.update m.heap.cells m.heap.brk (some connection) p := fun _ => rfl
  have hset : (m.addConnection connection).mConnectionSet =
      Function.update m.mConnectionSet connection.connId (some m.heap.brk) := by
    simp [addConnection, hnone, Heap.alloc]
  have hlist : ∀ p, p ∈ (m.addConnection connection).mConnections ↔ p ∈ m.mConnections ∨ p = m.heap.brk := by
    simp [addConnection, Heap.alloc]
  -- the address of the new connection is not used yet
  have hold : ∀ p c, m.heap.read p = some c → (m.addConnection connection).heap.read p = some c := by
    intro p c hc
    have hne : p ≠ m.heap.brk := by
      rintro rfl
      rw [Heap.read, m.heap.brk_fresh] at hc
      simp at hc
    rw [hread, Function.update_of_ne hne]
    exact hc
  have hkey' : (m.addConnection connection).Keyed := by
    intro id p hp
    rw [hset] at hp
    by_cases hid : id = connection.connId
    · rw [hid, Function.update_self] at hp
      obtain rfl := Option.some.inj hp
      exact ⟨connection, by rw [hread, Function.update_self], hid.symm⟩
    · rw [Function.update_of_ne hid] at hp
      obtain ⟨c, hc, hcid⟩ := hkey id p hp
      exact ⟨c, hold p c hc, hcid⟩
  have hsame : ∀ p, p ∈ (m.addConnection connection).mConnections ↔
      ∃ id, (m.addConnection connection).mConnectionSet id = some p := by
    intro p
    rw [hlist, h.same, hset]
    constructor
    · rintro (⟨id, hid⟩ | rfl)
      · refine ⟨id, ?_⟩
        rw [Function.update_of_ne, hid]
        rintro rfl
        rw [hnone] at hid
        simp at hid
      · exact ⟨connection.connId, Function.update_self ..⟩
    · rintro ⟨id, hid⟩
      by_cases heq : id = connection.connId
      · rw [heq, Function.update_self] at hid
        exact Or.inr (Option.some.inj hid).symm
      · rw [Function.update_of_ne heq] at hid
        exact Or.inl ⟨id, hid⟩
  have hlive : ∀ p ∈ (m.addConnection connection).mConnections,
      ((m.addConnection connection).heap.read p).isSome := by
    intro p hp
    obtain ⟨id, hid⟩ := (hsame p).mp hp
    obtain ⟨c, hc, -⟩ := hkey' id p hid
    rw [hc]
    rfl
  exact ⟨⟨hsame, hlive, found_of_keyed hsame hlive hkey'⟩, hkey'⟩

lemma free_cells {p : ℕ} (h : heap.free p = some heap') : heap'.cells = Function.update heap.cells p none := by
  obtain ⟨v, -, rfl⟩ := Option.map_eq_some_iff.mp h
  rfl

lemma closeFirst_idle {wanted : CTcpConnection U → Bool} (hlive : ∀ p ∈ ps, (heap.read p).isSome)
    (hnone : ∀ p ∈ ps, ∀ c, heap.read p = some c → wanted c = false) :
    closeFirst wanted heap ps = some (heap, ps) := by
  induction ps with
  | nil => rfl
  | cons p ps ih =>
    obtain ⟨c, hc⟩ := Option.isSome_iff_exists.mp (hlive p List.mem_cons_self)
    have hw := hnone p List.mem_cons_self c hc
    have hrest := ih (fun q hq => hlive q (List.mem_cons_of_mem _ hq))
      fun q hq => hnone q (List.mem_cons_of_mem _ hq)
    simp [closeFirst, hc, hw, hrest]

lemma closeFirst_kills {wanted : CTcpConnection U → Bool} {p : ℕ} {c : CTcpConnection U} (hp : p ∈ ps)
    (hc : heap.read p = some c) (hw : wanted c = true) (hrun : closeFirst wanted heap ps = some (heap', ps')) :
    ∃ q ∈ ps, heap'.read q = none := by
  induction ps generalizing heap' ps' with
  | nil => simp at hp
  | cons q ps ih =>
    simp only [closeFirst, Option.bind_eq_bind, Option.bind_eq_some_iff] at hrun
    obtain ⟨d, hd, hrun⟩ := hrun
    split at hrun
    · obtain ⟨h₁, hfree, hrun⟩ := Option.bind_eq_some_iff.mp hrun
      simp only [Option.some.injEq, Prod.mk.injEq] at hrun
      refine ⟨q, List.mem_cons_self, ?_⟩
      rw [← hrun.1, Heap.read, free_cells hfree, Function.update_self]
    · next hnot =>
      obtain ⟨⟨h₁, qs⟩, hrest, hrun⟩ := Option.bind_eq_some_iff.mp hrun
      simp only [Option.some.injEq, Prod.mk.injEq] at hrun
      rcases List.mem_cons.mp hp with rfl | hp
      · rw [Option.some.inj (hd.symm.trans hc)] at hnot
        exact absurd hw hnot
      · obtain ⟨r, hr, hkilled⟩ := ih hp hrest
        exact ⟨r, List.mem_cons_of_mem _ hr, hrun.1 ▸ hkilled⟩

lemma closeEach_idle {gone : ℕ → Bool} (hlive : ∀ p ∈ ps, (heap.read p).isSome) (hnone : ∀ p ∈ ps, gone p = false) :
    closeEach gone heap ps = some (heap, ps) := by
  induction ps with
  | nil => rfl
  | cons p ps ih =>
    obtain ⟨c, hc⟩ := Option.isSome_iff_exists.mp (hlive p List.mem_cons_self)
    have hrest := ih (fun q hq => hlive q (List.mem_cons_of_mem _ hq))
      fun q hq => hnone q (List.mem_cons_of_mem _ hq)
    simp [closeEach, hc, hnone p List.mem_cons_self, hrest]

lemma closeEach_dead {gone : ℕ → Bool} {p : ℕ} (hp : heap.read p = none)
    (hrun : closeEach gone heap ps = some (heap', ps')) : heap'.read p = none := by
  induction ps generalizing heap heap' ps' with
  | nil =>
    simp only [closeEach, Option.some.injEq, Prod.mk.injEq] at hrun
    rwa [← hrun.1]
  | cons q ps ih =>
    simp only [closeEach, Option.bind_eq_bind, Option.bind_eq_some_iff] at hrun
    obtain ⟨d, hd, hrun⟩ := hrun
    split at hrun
    · obtain ⟨h₁, hfree, hrun⟩ := Option.bind_eq_some_iff.mp hrun
      refine ih ?_ hrun
      rw [Heap.read, free_cells hfree]
      by_cases hpq : p = q
      · rw [hpq, Function.update_self]
      · rw [Function.update_of_ne hpq]
        exact hp
    · obtain ⟨⟨h₁, qs⟩, hrest, hrun⟩ := Option.bind_eq_some_iff.mp hrun
      simp only [Option.some.injEq, Prod.mk.injEq] at hrun
      rw [← hrun.1]
      exact ih hp hrest

lemma closeEach_kills {gone : ℕ → Bool} {p : ℕ} (hp : p ∈ ps) (hg : gone p = true)
    (hrun : closeEach gone heap ps = some (heap', ps')) : heap'.read p = none := by
  induction ps generalizing heap heap' ps' with
  | nil => simp at hp
  | cons q ps ih =>
    simp only [closeEach, Option.bind_eq_bind, Option.bind_eq_some_iff] at hrun
    obtain ⟨d, hd, hrun⟩ := hrun
    split at hrun
    · obtain ⟨h₁, hfree, hloop⟩ := Option.bind_eq_some_iff.mp hrun
      rcases List.mem_cons.mp hp with rfl | hp
      · refine closeEach_dead ?_ hloop
        rw [Heap.read, free_cells hfree, Function.update_self]
      · exact ih hp hloop
    · next hnot =>
      obtain ⟨⟨h₁, qs⟩, hrest, hrun⟩ := Option.bind_eq_some_iff.mp hrun
      simp only [Option.some.injEq, Prod.mk.injEq] at hrun
      rcases List.mem_cons.mp hp with rfl | hp
      · exact absurd hg hnot
      · exact hrun.1 ▸ ih hp hrest

lemma Agrees.not_dead {m' : CTcpConnectionManager U} (h : m.Agrees) (h' : m'.Agrees) {p : ℕ}
    (hp : p ∈ m.mConnections)
    (hkept : m'.mConnectionSet = m.mConnectionSet ∨ m'.mConnections = m.mConnections) : m'.heap.read p ≠ none := by
  intro hdead
  have hmem : p ∈ m'.mConnections := by
    rcases hkept with hset | hlist
    · rw [h'.same, hset]
      exact (h.same p).mp hp
    · rwa [hlist]
  have hlive := h'.live p hmem
  rw [hdead] at hlive
  simp at hlive

structure Breaks (m : CTcpConnectionManager U) (P : Prop) (r : Option (CTcpConnectionManager U)) : Prop where
  broken : P → ∀ m', r = some m' → ¬m'.Agrees
  idle : ¬P → r = some m

lemma Agrees.closeWanted_breaks (h : m.Agrees) (wanted : CTcpConnection U → Bool) :
    m.Breaks (∃ p ∈ m.mConnections, ∃ c, m.heap.read p = some c ∧ wanted c = true) (m.closeWanted wanted) where
  broken := by
    rintro ⟨p, hp, c, hc, hw⟩ m' hrun h'
    obtain ⟨⟨heap', ps'⟩, hclose, hrun⟩ := Option.bind_eq_some_iff.mp hrun
    obtain rfl := Option.some.inj hrun
    obtain ⟨q, hq, hdead⟩ := closeFirst_kills hp hc hw hclose
    exact h.not_dead h' hq (Or.inl rfl) hdead
  idle := by
    intro hnone
    have hidle : closeFirst wanted m.heap m.mConnections = some (m.heap, m.mConnections) := by
      refine closeFirst_idle h.live fun p hp c hc => ?_
      by_contra hw
      exact hnone ⟨p, hp, c, hc, by simpa using hw⟩
    simp [closeWanted, hidle]

lemma Agrees.closeGone_breaks (h : m.Agrees) (gone : ℕ → Bool) :
    m.Breaks (∃ p ∈ m.mConnections, gone p = true) (m.closeGone gone) where
  broken := by
    rintro ⟨p, hp, hg⟩ m' hrun h'
    obtain ⟨⟨heap', ps'⟩, hclose, hrun⟩ := Option.bind_eq_some_iff.mp hrun
    obtain rfl := Option.some.inj hrun
    exact h.not_dead h' hp (Or.inl rfl) (closeEach_kills hp hg hclose)
  idle := by
    intro hnone
    have hidle : closeEach gone m.heap m.mConnections = some (m.heap, m.mConnections) := by
      refine closeEach_idle h.live fun p hp => ?_
      by_contra hg
      exact hnone ⟨p, hp, by simpa using hg⟩
    simp [closeGone, hidle]

lemma Agrees.closeByConnId_breaks (h : m.Agrees) (hkey : m.Keyed) (connId : ℕ) :
    m.Breaks ((m.mConnectionSet connId).isSome) (m.closeByConnId connId) where
  broken := by
    intro hsome m' hrun h'
    obtain ⟨p, hset⟩ := Option.isSome_iff_exists.mp hsome
    obtain ⟨c, hc, hid⟩ := hkey connId p hset
    obtain ⟨heap', hfree, hcells, -⟩ := Heap.free_spec hc
    simp only [closeByConnId, hset, hc, hid, hfree, Option.bind_eq_bind, Option.bind_some, if_true,
      Option.some.injEq] at hrun
    have hdead : m'.heap.read p = none := by
      rw [← hrun, Heap.read, hcells, Function.update_self]
    exact h.not_dead h' ((h.same p).mpr ⟨connId, hset⟩) (Or.inr (by rw [← hrun])) hdead
  idle := by
    intro hnone
    rw [closeByConnId, Option.not_isSome_iff_eq_none.mp hnone]

lemma Breaks.congr {P Q : Prop} {r : Option (CTcpConnectionManager U)} (h : m.Breaks P r) (hPQ : P ↔ Q) :
    m.Breaks Q r :=
  ⟨fun hq => h.broken (hPQ.mpr hq), fun hq => h.idle fun hp => hq (hPQ.mp hp)⟩

lemma Agrees.exec_breaks (same : U → U → Bool) (h : m.Agrees) (hkey : m.Keyed) {c : Call U}
    (hc : ∀ connection, c ≠ .addConnection connection) : m.Breaks (c.Closes same m) (m.exec same c) := by
  cases c with
  | addConnection connection => exact absurd rfl (hc connection)
  | close remoteUri => exact h.closeWanted_breaks _
  | closeByConnId connId => exact h.closeByConnId_breaks hkey connId
  | closeByLinkId linkId => exact (h.closeWanted_breaks _).congr (by simp [Call.Closes])
  | closeAll =>
    refine (h.closeGone_breaks _).congr ?_
    simp [Call.Closes, List.eq_nil_iff_forall_not_mem]
  | procFdSet re => exact (h.closeGone_breaks _).congr (by simp [Call.Closes])

def Sound (m : Option (CTcpConnectionManager U)) : Prop := ∃ n, m = some n ∧ n.Agrees

lemma exec_sound_iff (same : U → U → Bool) (h : m.Agrees) (hkey : m.Keyed) {c : Call U} (hl : c.Legal (some m)) :
    (Sound (m.exec same c) ↔ ¬c.Closes same m) ∧
      ∀ m', m.exec same c = some m' → m'.Agrees → m'.Keyed := by
  by_cases hadd : ∃ connection, c = .addConnection connection
  · obtain ⟨connection, rfl⟩ := hadd
    obtain ⟨hagree, hkeyed⟩ := h.add hkey (hl m rfl)
    refine ⟨iff_of_true ⟨_, rfl, hagree⟩ not_false, fun m' hrun _ => ?_⟩
    rwa [← Option.some.inj hrun]
  · have hbreaks := h.exec_breaks same hkey (c := c) fun connection heq => hadd ⟨connection, heq⟩
    constructor
    · constructor
      · rintro ⟨m', hrun, h'⟩ hcloses
        exact hbreaks.broken hcloses m' hrun h'
      · intro hnone
        exact ⟨m, hbreaks.idle hnone, h⟩
    · intro m' hrun h'
      by_cases hcloses : c.Closes same m
      · exact absurd h' (hbreaks.broken hcloses m' hrun)
      · rw [hbreaks.idle hcloses] at hrun
        rwa [← Option.some.inj hrun]

lemma new_agrees : (new : CTcpConnectionManager U).Agrees := by
  refine ⟨fun p => ?_, fun p hp => ?_, fun connid => rfl⟩
  · simp [new]
  · simp [new] at hp

end CTcpConnectionManager

end Xframe.Comserv
