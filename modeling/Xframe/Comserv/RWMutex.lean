import Xframe.Lib.Monitor

/-! `RWMutex` of `threadmutexRW.C`: a lock for many readers or one writer, made of a mutex and two conditions. Its
counters are `unsigned int`s; here they do not wrap, for fewer than 2^32 threads. -/

namespace Xframe.Comserv

open Xframe.Lib

structure RWMutex where
  mReaderCount : ℕ
  mWriterHasLock : Bool
  mPendingWriterCount : ℕ
  deriving DecidableEq

/-- `lock()` is `writelock()`. -/
inductive LockCall where
  | readlock
  | writelock
  | unlock
  deriving DecidableEq

inductive LockCond where
  | mReadCondition
  | mPendingWriteCondition
  deriving DecidableEq

namespace RWMutex

open Monitor

def new : RWMutex := ⟨0, false, 0⟩

def readlock (m : RWMutex) : Turn RWMutex LockCond Unit :=
  if m.mWriterHasLock ∨ 0 < m.mPendingWriterCount then .waits .mReadCondition m
  else .returns () { m with mReaderCount := m.mReaderCount + 1 } none

def writelock (m : RWMutex) : Turn RWMutex LockCond Unit :=
  if m.mWriterHasLock ∨ 0 < m.mReaderCount then .waits .mPendingWriteCondition m
  else .returns () { m with mPendingWriterCount := m.mPendingWriterCount - 1, mWriterHasLock := true } none

def unlock (m : RWMutex) : Turn RWMutex LockCond Unit :=
  if m.mWriterHasLock then
    if m.mReaderCount = 0 then
      .returns () { m with mWriterHasLock := false }
        (some (if 0 < m.mPendingWriterCount then .one .mPendingWriteCondition else .all .mReadCondition))
    else .fails
  else if 0 < m.mReaderCount then
    let n := m.mReaderCount - 1
    .returns () { m with mReaderCount := n }
      (if n = 0 ∧ 0 < m.mPendingWriterCount then some (.one .mPendingWriteCondition) else none)
  else .fails

def monitor : Monitor RWMutex LockCall LockCond Unit Unit where
  turn
    | .readlock, _, _, m => m.readlock
    | .writelock, .first, _, m => writelock { m with mPendingWriterCount := m.mPendingWriterCount + 1 }
    | .writelock, .again _, _, m => m.writelock
    | .unlock, _, _, m => m.unlock
  timed _ := False

variable {τ : Type} [DecidableEq τ]

def holders (log : List (Return τ LockCall Unit)) : List τ × List τ :=
  log.foldl (fun h r =>
    match r.call with
    | .readlock => (r.thread :: h.1, h.2)
    | .writelock => (h.1, r.thread :: h.2)
    | .unlock => if r.thread ∈ h.2 then (h.1, h.2.erase r.thread) else (h.1.erase r.thread, h.2)) ([], [])

/-- Threads unlock what they have locked, as the `Lock` objects do in their destructors. -/
def allowed (log : List (Return τ LockCall Unit)) (t : τ) (o : LockCall) : Prop :=
  o = .unlock → t ∈ (holders log).1 ∨ t ∈ (holders log).2

def Reachable (x : Threads RWMutex τ LockCall LockCond Unit) : Prop := Reached monitor allowed new x

lemma holders_snoc (log : List (Return τ LockCall Unit)) (t : τ) (o : LockCall) :
    holders (log ++ [⟨t, o, ()⟩]) =
      match o with
      | .readlock => (t :: (holders log).1, (holders log).2)
      | .writelock => ((holders log).1, t :: (holders log).2)
      | .unlock => if t ∈ (holders log).2 then ((holders log).1, (holders log).2.erase t)
        else ((holders log).1.erase t, (holders log).2) := by
  rw [holders, List.foldl_append]
  rfl

def isWrite : LockCall → Bool
  | .writelock => true
  | _ => false

structure Inv (x : Threads RWMutex τ LockCall LockCond Unit) : Prop where
  pending : x.data.mPendingWriterCount = x.waiting isWrite
  readers : x.data.mReaderCount = (holders x.log).1.length
  writers : (holders x.log).2.length = if x.data.mWriterHasLock then 1 else 0
  exclusive : x.data.mWriterHasLock → x.data.mReaderCount = 0
  ready : ∀ w ∈ x.ready, w.call ≠ .unlock
  cond : ∀ w ∈ x.asleep, w.call = .readlock ∧ w.cond = .mReadCondition ∨
    w.call = .writelock ∧ w.cond = .mPendingWriteCondition
  reading : (∃ w ∈ x.asleep, w.call = .readlock) → x.data.mWriterHasLock ∨ 0 < x.data.mPendingWriterCount
  writing : (∃ w ∈ x.asleep, w.call = .writelock) → x.data.mWriterHasLock ∨ 0 < x.data.mReaderCount ∨
    ∃ w ∈ x.ready, w.call = .writelock

variable {x y : Threads RWMutex τ LockCall LockCond Unit} {t : τ} {o : LockCall}

lemma inv_start : Inv (start new : Threads RWMutex τ LockCall LockCond Unit) where
  pending := rfl
  readers := rfl
  writers := rfl
  exclusive _ := rfl
  ready := by simp [start]
  cond := by simp [start]
  reading := by simp [start]
  writing := by simp [start]

lemma pending_pos (h : Inv x) : 0 < x.data.mPendingWriterCount ↔
    (∃ w ∈ x.asleep, w.call = .writelock) ∨ ∃ w ∈ x.ready, w.call = .writelock := by
  have hw : ∀ o, isWrite o = true ↔ o = .writelock := by
    intro o
    cases o <;> simp [isWrite]
  rw [h.pending, Threads.waiting, Nat.add_pos_iff_pos_or_pos, List.countP_pos_iff, List.countP_pos_iff]
  simp only [hw]

lemma Inv.out {l l' : List (Waiter τ LockCall LockCond)} {w : Waiter τ LockCall LockCond} (h : Inv x)
    (hs : x.asleep = l ++ w :: l') (b : Bool) : Inv { x with asleep := l ++ l', ready := w.woken b :: x.ready } := by
  have hmem : ∀ v ∈ l ++ l', v ∈ x.asleep := by
    intro v hv
    rw [hs, List.mem_append, List.mem_cons]
    rw [List.mem_append] at hv
    tauto
  have hw : w ∈ x.asleep := by simp [hs]
  refine ⟨?_, h.readers, h.writers, h.exclusive, ?_, fun v hv => h.cond v (hmem v hv), ?_, ?_⟩
  · rw [h.pending, Threads.waiting, Threads.waiting, hs]
    simp only [List.countP_append, List.countP_cons, Waiter.woken]
    omega
  · intro v hv
    rcases List.mem_cons.mp hv with rfl | hv
    · intro hc
      change w.call = _ at hc
      rcases h.cond w hw with hk | hk <;> simp [hk.1] at hc
    · exact h.ready v hv
  · rintro ⟨v, hv, hc⟩
    exact h.reading ⟨v, hmem v hv, hc⟩
  · rintro ⟨v, hv, hc⟩
    rcases h.writing ⟨v, hmem v hv, hc⟩ with hl | hr | ⟨u, hu, huc⟩
    · exact Or.inl hl
    · exact Or.inr (Or.inl hr)
    · exact Or.inr (Or.inr ⟨u, List.mem_cons_of_mem _ hu, huc⟩)

structure Turns (o : LockCall) (m : RWMutex) (x : Threads RWMutex τ LockCall LockCond Unit) : Prop where
  pending : m.mPendingWriterCount = x.waiting isWrite + (isWrite o).toNat
  readers : m.mReaderCount = (holders x.log).1.length
  writers : (holders x.log).2.length = if m.mWriterHasLock then 1 else 0
  exclusive : m.mWriterHasLock → m.mReaderCount = 0
  ready : ∀ w ∈ x.ready, w.call ≠ .unlock
  cond : ∀ w ∈ x.asleep, w.call = .readlock ∧ w.cond = .mReadCondition ∨
    w.call = .writelock ∧ w.cond = .mPendingWriteCondition
  reading : (∃ w ∈ x.asleep, w.call = .readlock) → m.mWriterHasLock ∨ 0 < m.mPendingWriterCount
  writing : (∃ w ∈ x.asleep, w.call = .writelock) → m.mWriterHasLock ∨ 0 < m.mReaderCount ∨
    (∃ w ∈ x.ready, w.call = .writelock) ∨ o = .writelock

lemma Inv.call (h : Inv x) (o : LockCall) :
    Turns o { x.data with mPendingWriterCount := x.data.mPendingWriterCount + (isWrite o).toNat } x where
  pending := congrArg (· + _) h.pending
  readers := h.readers
  writers := h.writers
  exclusive := h.exclusive
  ready := h.ready
  cond := h.cond
  reading hr := (h.reading hr).imp_right fun hpos => Nat.add_pos_left hpos _
  writing hw := by
    rcases h.writing hw with hl | hr | hready
    · exact Or.inl hl
    · exact Or.inr (Or.inl hr)
    · exact Or.inr (Or.inr (Or.inl hready))

lemma Inv.resume {l l' : List (Ready τ LockCall)} {w : Ready τ LockCall} (h : Inv x) (hr : x.ready = l ++ w :: l') :
    Turns w.call x.data { x with ready := l ++ l' } where
  pending := by
    rw [h.pending, Threads.waiting, Threads.waiting, hr]
    simp only [List.countP_append, List.countP_cons]
    cases isWrite w.call <;> simp <;> omega
  readers := h.readers
  writers := h.writers
  exclusive := h.exclusive
  ready v hv := h.ready v (by
    rw [hr, List.mem_append, List.mem_cons]
    rw [List.mem_append] at hv
    tauto)
  cond := h.cond
  reading := h.reading
  writing hw := by
    rcases h.writing hw with hl | hpos | ⟨v, hv, hc⟩
    · exact Or.inl hl
    · exact Or.inr (Or.inl hpos)
    · rw [hr, List.mem_append, List.mem_cons] at hv
      rcases hv with hv | rfl | hv
      · exact Or.inr (Or.inr (Or.inl ⟨v, List.mem_append_left _ hv, hc⟩))
      · exact Or.inr (Or.inr (Or.inr hc))
      · exact Or.inr (Or.inr (Or.inl ⟨v, List.mem_append_right _ hv, hc⟩))

namespace Turns

variable {m : RWMutex}

lemma asleep_pending (h : Turns o m x) (hw : ∃ w ∈ x.asleep, w.call = .writelock) : 0 < m.mPendingWriterCount := by
  obtain ⟨w, hw, hc⟩ := hw
  have hpos : 0 < x.asleep.countP (isWrite ·.call) := List.countP_pos_iff.mpr ⟨w, hw, by simp [hc, isWrite]⟩
  rw [h.pending, Threads.waiting]
  omega

lemma readlock (h : Turns .readlock m x) (ha : After t .readlock x m.readlock y) : Inv y := by
  rw [RWMutex.readlock] at ha
  split at ha
  · next hbusy =>
    cases ha
    refine ⟨h.pending, h.readers, h.writers, h.exclusive, h.ready, ?_, fun _ => hbusy, ?_⟩
    · intro w hw
      rcases List.mem_cons.mp hw with rfl | hw
      · exact Or.inl ⟨rfl, rfl⟩
      · exact h.cond w hw
    · rintro ⟨w, hw, hc⟩
      rcases List.mem_cons.mp hw with rfl | hw
      · cases hc
      · rcases h.writing ⟨w, hw, hc⟩ with hl | hr | hready | hno
        · exact Or.inl hl
        · exact Or.inr (Or.inl hr)
        · exact Or.inr (Or.inr hready)
        · cases hno
  · next hfree =>
    rw [not_or, Bool.not_eq_true] at hfree
    cases ha with
    | returned hwakes =>
      cases hwakes
      refine ⟨h.pending, ?_, ?_, ?_, h.ready, h.cond, h.reading, fun _ => Or.inr (Or.inl (Nat.succ_pos _))⟩
      · rw [holders_snoc]
        exact congrArg (· + 1) h.readers
      · rw [holders_snoc]
        exact h.writers
      · intro hw
        rw [hfree.1] at hw
        cases hw

lemma writelock (h : Turns .writelock m x) (ha : After t .writelock x m.writelock y) : Inv y := by
  rw [RWMutex.writelock] at ha
  split at ha
  · next hbusy =>
    cases ha
    refine ⟨?_, h.readers, h.writers, h.exclusive, h.ready, ?_, ?_, fun _ => ?_⟩
    · rw [h.pending, Threads.waiting, Threads.waiting, List.countP_cons]
      simp only [isWrite, Bool.toNat_true, if_true]
      omega
    · intro w hw
      rcases List.mem_cons.mp hw with rfl | hw
      · exact Or.inr ⟨rfl, rfl⟩
      · exact h.cond w hw
    · rintro ⟨w, hw, hc⟩
      rcases List.mem_cons.mp hw with rfl | hw
      · cases hc
      · exact h.reading ⟨w, hw, hc⟩
    · rcases hbusy with hw | hr
      · exact Or.inl hw
      · exact Or.inr (Or.inl hr)
  · next hfree =>
    rw [not_or, Bool.not_eq_true] at hfree
    cases ha with
    | returned hwakes =>
      cases hwakes
      have hwriters := h.writers
      rw [hfree.1, if_neg Bool.false_ne_true] at hwriters
      refine ⟨?_, ?_, ?_, fun _ => ?_, h.ready, h.cond, fun _ => Or.inl rfl, fun _ => Or.inl rfl⟩
      · change m.mPendingWriterCount - 1 = _
        rw [h.pending]
        rfl
      · rw [holders_snoc]
        exact h.readers
      · rw [holders_snoc]
        exact congrArg (· + 1) hwriters
      · exact Nat.eq_zero_of_not_pos hfree.2

lemma woken {signal : Option (Signal LockCond)} {asleep : List (Waiter τ LockCall LockCond)}
    {ready : List (Ready τ LockCall)} (h : Turns .unlock m x) (hw : Wakes signal x.asleep x.ready asleep ready) :
    m.mPendingWriterCount = asleep.countP (isWrite ·.call) + ready.countP (isWrite ·.call) ∧
      ∀ w ∈ ready, w.call ≠ .unlock := by
  refine ⟨?_, ?_⟩
  · rw [h.pending, Threads.waiting, ← hw.count isWrite]
    rfl
  · intro w hmem
    rcases hw.mem_ready hmem with hmem | ⟨v, hv, rfl⟩
    · exact h.ready w hmem
    · intro hc
      change v.call = _ at hc
      rcases h.cond v hv with hk | hk <;> simp [hk.1] at hc

lemma unlock_writer (h : Turns .unlock m x) (hm : m.mWriterHasLock = true)
    (ht : t ∈ (holders x.log).1 ∨ t ∈ (holders x.log).2) :
    m.mReaderCount = 0 ∧ holders (x.log ++ [⟨t, .unlock, ()⟩]) = ([], []) := by
  have hr := h.exclusive hm
  have hreaders : (holders x.log).1 = [] := List.length_eq_zero_iff.mp (h.readers.symm.trans hr)
  have hwriters := h.writers
  rw [hm, if_pos rfl, List.length_eq_one_iff] at hwriters
  obtain ⟨u, hu⟩ := hwriters
  refine ⟨hr, ?_⟩
  rw [hreaders, hu, List.mem_singleton] at ht
  rcases ht with ht | rfl
  · simp at ht
  · rw [holders_snoc]
    simp [hu, hreaders]

lemma unlock_reader (h : Turns .unlock m x) (hm : m.mWriterHasLock = false)
    (ht : t ∈ (holders x.log).1 ∨ t ∈ (holders x.log).2) :
    t ∈ (holders x.log).1 ∧ (holders x.log).2 = [] ∧
      holders (x.log ++ [⟨t, .unlock, ()⟩]) = ((holders x.log).1.erase t, []) := by
  have hwriters := h.writers
  rw [hm, if_neg Bool.false_ne_true, List.length_eq_zero_iff] at hwriters
  rw [hwriters] at ht
  refine ⟨ht.resolve_right List.not_mem_nil, hwriters, ?_⟩
  rw [holders_snoc]
  simp [hwriters]

lemma unlock (h : Turns .unlock m x) (ht : t ∈ (holders x.log).1 ∨ t ∈ (holders x.log).2)
    (ha : After t .unlock x m.unlock y) : Inv y := by
  rw [RWMutex.unlock] at ha
  cases hm : m.mWriterHasLock with
  | true =>
    obtain ⟨hr, hholders⟩ := h.unlock_writer hm ht
    rw [if_pos hm, if_pos hr] at ha
    cases ha with
    | returned hwakes =>
      obtain ⟨hpending, hready⟩ := h.woken hwakes
      refine ⟨hpending, ?_, ?_, fun _ => hr, hready, fun w hw => h.cond w (hwakes.mem_asleep hw), ?_, ?_⟩
      · rw [hholders]
        exact hr
      · rw [hholders]
        rfl
      · rintro ⟨w, hw, hc⟩
        refine Or.inr (Nat.pos_of_ne_zero fun hzero => ?_)
        rw [if_neg (Nat.not_lt.mpr hzero.le)] at hwakes
        rcases h.cond w (hwakes.mem_asleep hw) with hk | hk
        · exact hwakes.all_woken w hw hk.2
        · rw [hk.1] at hc
          cases hc
      · rintro ⟨w, hw, hc⟩
        have hold := hwakes.mem_asleep hw
        have hcond := ((h.cond w hold).resolve_left fun hk => by simp [hk.1] at hc).2
        rw [if_pos (h.asleep_pending ⟨w, hold, hc⟩)] at hwakes
        obtain ⟨v, hv, hvc, hin⟩ := hwakes.one_woken ⟨w, hold, hcond⟩
        have hcall := ((h.cond v hv).resolve_left fun hk => by simp [hk.2] at hvc).1
        exact Or.inr (Or.inr ⟨_, hin, hcall⟩)
  | false =>
    obtain ⟨hmem, -, hholders⟩ := h.unlock_reader hm ht
    have hpos : 0 < m.mReaderCount := by
      rw [h.readers]
      exact List.length_pos_of_mem hmem
    rw [if_neg (by simp [hm]), if_pos hpos] at ha
    cases ha with
    | returned hwakes =>
      obtain ⟨hpending, hready⟩ := h.woken hwakes
      refine ⟨hpending, ?_, ?_, fun hw => ?_, hready, fun w hw => h.cond w (hwakes.mem_asleep hw), ?_, ?_⟩
      · rw [hholders, List.length_erase_of_mem hmem, ← h.readers]
      · rw [hholders]
        change ([] : List τ).length = if m.mWriterHasLock then 1 else 0
        rw [hm]
        rfl
      · change m.mWriterHasLock = true at hw
        rw [hm] at hw
        cases hw
      · rintro ⟨w, hw, hc⟩
        exact h.reading ⟨w, hwakes.mem_asleep hw, hc⟩
      · rintro ⟨w, hw, hc⟩
        have hold := hwakes.mem_asleep hw
        have hcond := ((h.cond w hold).resolve_left fun hk => by simp [hk.1] at hc).2
        rcases Nat.eq_zero_or_pos (m.mReaderCount - 1) with hzero | hmore
        · rw [if_pos ⟨hzero, h.asleep_pending ⟨w, hold, hc⟩⟩] at hwakes
          obtain ⟨v, hv, hvc, hin⟩ := hwakes.one_woken ⟨w, hold, hcond⟩
          have hcall := ((h.cond v hv).resolve_left fun hk => by simp [hk.2] at hvc).1
          exact Or.inr (Or.inr ⟨_, hin, hcall⟩)
        · exact Or.inr (Or.inl hmore)

end Turns

lemma inv_keeps : Keeps monitor allowed (Inv : Threads RWMutex τ LockCall LockCond Unit → Prop) where
  call x y t o i hx hallowed ha := by
    have hturn := hx.call o
    cases o with
    | readlock => exact hturn.readlock ha
    | writelock => exact hturn.writelock ha
    | unlock => exact hturn.unlock (hallowed rfl) ha
  resume x y l w l' i hx hr ha := by
    have hturn := hx.resume hr
    have hno := hx.ready w (by simp [hr])
    obtain ⟨t, o, b⟩ := w
    cases o with
    | readlock => exact hturn.readlock ha
    | writelock => exact hturn.writelock ha
    | unlock => exact absurd rfl hno
  out x l w l' b hx hs := hx.out hs b

lemma reachable_inv (h : Reachable x) : Inv x := inv_keeps.reached inv_start h

lemma Turns.unlock_ends {m : RWMutex} (h : Turns .unlock m x) (ht : t ∈ (holders x.log).1 ∨ t ∈ (holders x.log).2) :
    m.unlock ≠ .fails := by
  rw [RWMutex.unlock]
  cases hm : m.mWriterHasLock with
  | true =>
    rw [if_pos rfl, if_pos (h.unlock_writer hm ht).1]
    simp
  | false =>
    have hpos : 0 < m.mReaderCount := by
      rw [h.readers]
      exact List.length_pos_of_mem (h.unlock_reader hm ht).1
    rw [if_neg Bool.false_ne_true, if_pos hpos]
    simp

def contended : Threads RWMutex ℕ LockCall LockCond Unit :=
  ⟨⟨1, false, 1⟩, [⟨2, .readlock, .mReadCondition⟩, ⟨1, .writelock, .mPendingWriteCondition⟩], [],
    [⟨0, .readlock, ()⟩]⟩

def released : Threads RWMutex ℕ LockCall LockCond Unit :=
  ⟨⟨0, false, 1⟩, [⟨2, .readlock, .mReadCondition⟩], [⟨1, .writelock, true⟩],
    [⟨0, .readlock, ()⟩, ⟨0, .unlock, ()⟩]⟩

lemma contended_reachable : Reachable contended := by
  refine ⟨[.call 0 .readlock (), .call 1 .writelock (), .call 2 .readlock ()], ?_⟩
  refine Run.cons (t := ⟨⟨1, false, 0⟩, [], [], [⟨0, .readlock, ()⟩]⟩) 
    (.call (by simp [start]) (by simp [start]) (by simp [allowed]) ?_) ?_
  · exact .returned .none
  refine Run.cons (t := ⟨⟨1, false, 1⟩, [⟨1, .writelock, .mPendingWriteCondition⟩], [], [⟨0, .readlock, ()⟩]⟩)
    (.call (by simp) (by simp) (by simp [allowed]) .waiting) ?_
  exact Run.cons (.call (by simp) (by simp) (by simp [allowed]) .waiting) .nil

lemma contended_unlock : Step monitor allowed contended (.call 0 .unlock ()) released := by
  refine .call (by simp [contended]) (by simp [contended]) (fun _ => Or.inl (by decide)) ?_
  have hturn : monitor.turn .unlock .first () contended.data =
      .returns () ⟨0, false, 1⟩ (some (.one .mPendingWriteCondition)) := rfl
  rw [hturn]
  have hasleep : contended.asleep = [⟨2, .readlock, .mReadCondition⟩] ++ ⟨1, .writelock, .mPendingWriteCondition⟩ :: [] :=
    rfl
  exact .returned (.one hasleep rfl)

theorem readers_or_writer (h : Reachable x) :
    ((holders x.log).2 = [] ∨ (∃ t, (holders x.log).2 = [t]) ∧ (holders x.log).1 = []) ∧
      x.data.mReaderCount = (holders x.log).1.length ∧ (x.data.mWriterHasLock = true ↔ (holders x.log).2 ≠ []) ∧
      ∀ t o, allowed x.log t o → monitor.turn o .first () x.data ≠ .fails := by
  have hinv := reachable_inv h
  have hwriters := hinv.writers
  refine ⟨?_, hinv.readers, ?_, ?_⟩
  · cases hm : x.data.mWriterHasLock with
    | true =>
      rw [hm, if_pos rfl, List.length_eq_one_iff] at hwriters
      exact Or.inr ⟨hwriters, List.length_eq_zero_iff.mp (hinv.readers.symm.trans (hinv.exclusive hm))⟩
    | false =>
      rw [hm, if_neg Bool.false_ne_true, List.length_eq_zero_iff] at hwriters
      exact Or.inl hwriters
  · rw [← List.length_pos_iff, hwriters]
    cases x.data.mWriterHasLock <;> simp
  · intro t o ho
    cases o with
    | readlock =>
      change RWMutex.readlock _ ≠ _
      rw [RWMutex.readlock]
      split <;> simp
    | writelock =>
      change RWMutex.writelock _ ≠ _
      rw [RWMutex.writelock]
      split <;> simp
    | unlock => exact (hinv.call .unlock).unlock_ends (ho rfl)

theorem readers_or_writer_contended :
    ((holders contended.log).2 = [] ∨ (∃ t, (holders contended.log).2 = [t]) ∧ (holders contended.log).1 = []) ∧
      contended.data.mReaderCount = (holders contended.log).1.length ∧
      (contended.data.mWriterHasLock = true ↔ (holders contended.log).2 ≠ []) ∧
      ∀ t o, allowed contended.log t o → monitor.turn o .first () contended.data ≠ .fails :=
  readers_or_writer contended_reachable

lemma resume_returns {w : Ready τ LockCall} (hw : w ∈ x.ready) {m : RWMutex}
    (hturn : monitor.turn w.call (.again w.signaled) () x.data = .returns () m none) :
    ∃ y, Step monitor allowed x (.resume w.thread ()) y ∧ y.log = x.log ++ [⟨w.thread, w.call, ()⟩] := by
  obtain ⟨l, l', hl⟩ := List.append_of_mem hw
  refine ⟨⟨m, x.asleep, l ++ l', x.log ++ [⟨w.thread, w.call, ()⟩]⟩, .resume hl ?_, rfl⟩
  rw [hturn]
  exact .returned .none

theorem free_lock_taken (h : Reachable x) (hfree : holders x.log = ([], [])) (hwait : x.asleep ≠ [] ∨ x.ready ≠ []) :
    ∃ w ∈ x.ready, ∃ y, Step monitor allowed x (.resume w.thread ()) y ∧
      y.log = x.log ++ [⟨w.thread, w.call, ()⟩] ∧ w.call ≠ .unlock := by
  have hinv := reachable_inv h
  have hr : x.data.mReaderCount = 0 := by rw [hinv.readers, hfree]; rfl
  have hw : x.data.mWriterHasLock = false := by
    have hwriters := hinv.writers
    rw [hfree] at hwriters
    cases hm : x.data.mWriterHasLock with
    | true => rw [hm] at hwriters; cases hwriters
    | false => rfl
  rcases Nat.eq_zero_or_pos x.data.mPendingWriterCount with hzero | hpos
  · -- only readers want the lock, and they are all awake
    have hnot : ∀ w ∈ x.ready, w.call = .readlock := by
      intro w hmem
      cases hc : w.call with
      | readlock => rfl
      | writelock =>
        have := (pending_pos hinv).mpr (Or.inr ⟨w, hmem, hc⟩)
        omega
      | unlock => exact absurd hc (hinv.ready w hmem)
    have hasleep : x.asleep = [] := by
      refine List.eq_nil_iff_forall_not_mem.mpr fun w hmem => ?_
      rcases hinv.cond w hmem with hc | hc
      · rcases hinv.reading ⟨w, hmem, hc.1⟩ with hl | hp
        · simp [hw] at hl
        · omega
      · have := (pending_pos hinv).mpr (Or.inl ⟨w, hmem, hc.1⟩)
        omega
    obtain ⟨w, hmem⟩ := List.exists_mem_of_ne_nil _ (hwait.resolve_left fun hne => hne hasleep)
    have hturn : monitor.turn w.call (.again w.signaled) () x.data =
        .returns () { x.data with mReaderCount := x.data.mReaderCount + 1 } none := by
      rw [hnot w hmem]
      exact if_neg (by simp [hw, hzero])
    obtain ⟨y, hstep, hlog⟩ := resume_returns hmem hturn
    exact ⟨w, hmem, y, hstep, hlog, hinv.ready w hmem⟩
  · have hready : ∃ w ∈ x.ready, w.call = .writelock := by
      rcases (pending_pos hinv).mp hpos with hasleep | hready
      · rcases hinv.writing hasleep with hl | hp | hready
        · simp [hw] at hl
        · omega
        · exact hready
      · exact hready
    obtain ⟨w, hmem, hc⟩ := hready
    have hturn : monitor.turn w.call (.again w.signaled) () x.data = .returns ()
        { x.data with mPendingWriterCount := x.data.mPendingWriterCount - 1, mWriterHasLock := true } none := by
      rw [hc]
      exact if_neg (by simp [hw, hr])
    obtain ⟨y, hstep, hlog⟩ := resume_returns hmem hturn
    exact ⟨w, hmem, y, hstep, hlog, hinv.ready w hmem⟩

theorem free_lock_taken_released : ∃ w ∈ released.ready, ∃ y, Step monitor allowed released (.resume w.thread ()) y ∧
    y.log = released.log ++ [⟨w.thread, w.call, ()⟩] ∧ w.call ≠ .unlock :=
  free_lock_taken (contended_reachable.step contended_unlock) (by decide) (Or.inl (by simp [released]))

def Writing (t : τ) (x : Threads RWMutex τ LockCall LockCond Unit) : Prop :=
  (∃ w ∈ x.asleep, w.thread = t ∧ w.call = .writelock) ∨ ∃ w ∈ x.ready, w.thread = t ∧ w.call = .writelock

lemma Writing.pending (h : Writing t x) (hinv : Inv x) : 0 < x.data.mPendingWriterCount := by
  refine (pending_pos hinv).mpr ?_
  rcases h with ⟨w, hw, -, hc⟩ | ⟨w, hw, -, hc⟩
  · exact Or.inl ⟨w, hw, hc⟩
  · exact Or.inr ⟨w, hw, hc⟩

omit [DecidableEq τ] in
lemma Writing.wakes {signal : Option (Signal LockCond)} {s : RWMutex} {asleep : List (Waiter τ LockCall LockCond)}
    {ready : List (Ready τ LockCall)} {log : List (Return τ LockCall Unit)} (h : Writing t x)
    (hw : Wakes signal x.asleep x.ready asleep ready) :
    Writing t ⟨s, asleep, ready, log⟩ := by
  rcases h with ⟨w, hmem, hc⟩ | ⟨w, hmem, hc⟩
  · cases hw with
    | none => exact Or.inl ⟨w, hmem, hc⟩
    | one hasleep _ =>
      rw [hasleep, List.mem_append, List.mem_cons] at hmem
      rcases hmem with hmem | rfl | hmem
      · exact Or.inl ⟨w, List.mem_append_left _ hmem, hc⟩
      · exact Or.inr ⟨_, List.mem_cons_self .., hc⟩
      · exact Or.inl ⟨w, List.mem_append_right _ hmem, hc⟩
    | nobody _ => exact Or.inl ⟨w, hmem, hc⟩
    | all hperm _ _ =>
      rcases List.mem_append.mp (hperm.mem_iff.mp hmem) with hmem | hmem
      · exact Or.inl ⟨w, hmem, hc⟩
      · exact Or.inr ⟨_, List.mem_append_left _ (List.mem_map_of_mem hmem), hc⟩
  · exact Or.inr ⟨w, hw.ready_mem hmem, hc⟩

omit [DecidableEq τ] in
lemma Writing.after {m : RWMutex} {i : Unit} {e : Entry} {u : τ} (h : Writing t x)
    (hpos : 0 < m.mPendingWriterCount) (ha : After u o x (monitor.turn o e i m) y) :
    Writing t y ∧ (y.log = x.log ∨ y.log = x.log ++ [⟨u, o, ()⟩] ∧ o ≠ .readlock) := by
  cases hturn : monitor.turn o e i m with
  | fails =>
    rw [hturn] at ha
    cases ha
  | waits c s =>
    rw [hturn] at ha
    cases ha
    refine ⟨?_, Or.inl rfl⟩
    rcases h with ⟨w, hmem, hc⟩ | hready
    · exact Or.inl ⟨w, List.mem_cons_of_mem _ hmem, hc⟩
    · exact Or.inr hready
  | returns r s signal =>
    rw [hturn] at ha
    cases ha with
    | returned hwakes =>
      refine ⟨h.wakes hwakes, Or.inr ⟨rfl, ?_⟩⟩
      rintro rfl
      have hbusy : m.readlock = .waits .mReadCondition m := if_pos (Or.inr hpos)
      have hboth := hbusy.symm.trans hturn
      cases hboth

lemma Writing.step {e : Event τ LockCall Unit} (h : Writing t x) (hinv : Inv x) (hs : Step monitor allowed x e y) :
    ∃ new, y.log = x.log ++ new ∧ (∀ r ∈ new, r.call ≠ .readlock) ∧
      (Writing t y ∨ ∃ r ∈ new, r.thread = t ∧ r.call = .writelock) := by
  have close : ∀ {u : τ} {o : LockCall} {z : Threads RWMutex τ LockCall LockCond Unit}, z.log = x.log →
      Writing t y ∧ (y.log = z.log ∨ y.log = z.log ++ [⟨u, o, ()⟩] ∧ o ≠ .readlock) →
      ∃ new, y.log = x.log ++ new ∧ (∀ r ∈ new, r.call ≠ .readlock) ∧
        (Writing t y ∨ ∃ r ∈ new, r.thread = t ∧ r.call = .writelock) := by
    rintro u o z hz ⟨hw, hlog | ⟨hlog, hno⟩⟩
    · exact ⟨[], by rw [hlog, hz, List.append_nil], by simp, Or.inl hw⟩
    · exact ⟨[⟨u, o, ()⟩], by rw [hlog, hz], by simpa using hno, Or.inl hw⟩
  cases hs with
  | @call _ u o i _ _ _ ha =>
    have hpos := h.pending hinv
    cases o with
    | readlock => exact close rfl (h.after (o := .readlock) (e := .first) hpos ha)
    | writelock => exact close rfl (h.after (o := .writelock) (e := .first) hpos ha)
    | unlock => exact close rfl (h.after (o := .unlock) (e := .first) hpos ha)
  | @resume _ l w l' i hready ha =>
    have hpos := h.pending hinv
    by_cases hmine : Writing t { x with ready := l ++ l' }
    · exact close rfl (hmine.after hpos ha)
    · -- the thread that takes its turn is the writer itself
      have hself : w.thread = t ∧ w.call = .writelock := by
        rcases h with hasleep | ⟨v, hv, hc⟩
        · exact absurd (Or.inl hasleep) hmine
        · rw [hready, List.mem_append, List.mem_cons] at hv
          rcases hv with hv | rfl | hv
          · exact absurd (Or.inr ⟨v, List.mem_append_left _ hv, hc⟩) hmine
          · exact hc
          · exact absurd (Or.inr ⟨v, List.mem_append_right _ hv, hc⟩) hmine
      obtain ⟨u, o, b⟩ := w
      obtain ⟨rfl, rfl⟩ := hself
      cases hturn : monitor.turn .writelock (.again b) i x.data with
      | fails =>
        rw [hturn] at ha
        cases ha
      | waits c s =>
        rw [hturn] at ha
        cases ha
        exact ⟨[], (List.append_nil _).symm, by simp, Or.inl (Or.inl ⟨_, List.mem_cons_self .., rfl, rfl⟩)⟩
      | returns r s signal =>
        rw [hturn] at ha
        cases ha
        exact ⟨_, rfl, by simp, Or.inr ⟨_, List.mem_singleton_self _, rfl, rfl⟩⟩
  | wake hasleep =>
    exact ⟨[], (List.append_nil _).symm, by simp, Or.inl (h.wakes (.one hasleep rfl))⟩
  | timeout _ htimed => exact htimed.elim

theorem writers_first {es : List (Event τ LockCall Unit)} (h : Reachable x) (hw : Writing t x)
    (hr : Run (Step monitor allowed) x es y) : ∃ new, y.log = x.log ++ new ∧
      ((∀ r ∈ new, ¬(r.thread = t ∧ r.call = .writelock)) → Writing t y ∧ ∀ r ∈ new, r.call ≠ .readlock) := by
  have hall := hr.invariant (I := fun _ y => Inv y ∧ ∃ new, y.log = x.log ++ new ∧
    ((∀ r ∈ new, ¬(r.thread = t ∧ r.call = .writelock)) → Writing t y ∧ ∀ r ∈ new, r.call ≠ .readlock)) ?_ ?_
  · exact hall.2
  · exact ⟨reachable_inv h, [], (List.append_nil _).symm, fun _ => ⟨hw, by simp⟩⟩
  · rintro es y e z ⟨hinv, new, hlog, hnew⟩ hs
    refine ⟨inv_keeps.step hinv hs, ?_⟩
    by_cases hdone : ∀ r ∈ new, ¬(r.thread = t ∧ r.call = .writelock)
    · obtain ⟨hwriting, hno⟩ := hnew hdone
      obtain ⟨last, hlast, hlastno, hnext⟩ := hwriting.step hinv hs
      refine ⟨new ++ last, by rw [hlast, hlog, List.append_assoc], fun hall => ⟨?_, ?_⟩⟩
      · rcases hnext with hnext | ⟨r, hmem, hself⟩
        · exact hnext
        · exact absurd hself (hall r (List.mem_append_right _ hmem))
      · intro r hmem
        rcases List.mem_append.mp hmem with hmem | hmem
        · exact hno r hmem
        · exact hlastno r hmem
    · obtain ⟨last, hlast⟩ := hs.log_grows
      refine ⟨new ++ last, by rw [hlast, hlog, List.append_assoc], fun hall => ?_⟩
      exact absurd (fun r hmem => hall r (List.mem_append_left _ hmem)) hdone

theorem writers_first_contended : ∃ new, released.log = contended.log ++ new ∧
    ((∀ r ∈ new, ¬(r.thread = 1 ∧ r.call = .writelock)) → Writing 1 released ∧ ∀ r ∈ new, r.call ≠ .readlock) :=
  writers_first contended_reachable (Or.inl ⟨_, List.mem_cons_of_mem _ (List.mem_cons_self ..), rfl, rfl⟩)
    (.snoc .nil contended_unlock)

end RWMutex

end Xframe.Comserv
