import Xframe.Lib.Monitor

/-! The message queues of `comserv`: `AbstractFifo` and what `Fifo`, `FiniteFifo` and `TimeLimitFifo` make of it,
with any number of threads that add messages and wait for them. -/

namespace Xframe.Comserv

open Xframe.Lib

/-- `mSize` is an `unsigned long` of its own beside the queue. -/
structure AbstractFifo (μ : Type) where
  mFifo : List μ
  mSize : ℕ
  mMaxSize : ℕ

/-- What a call reads of the clocks: `time(0)` when it checks the age of the queue, `time(0)` when it puts a message
into the queue, and `getTimeMs()`. -/
structure FifoClock where
  checked : ℤ
  pushed : ℤ
  ms : ℕ

inductive FifoCall (ν : Type) where
  | add (a : ν)
  | getNext
  | getNextMs (ms begin : ℕ)
  | clear
  | empty
  | size
  | messageAvailable

/-- `added` has the element that went into the queue where `add` succeeds, `next none` is the null pointer. -/
inductive FifoResult (μ : Type) where
  | added (m : Option μ)
  | next (m : Option μ)
  | deleted (ms : List μ)
  | answer (b : Bool)
  | count (n : ℕ)

/-- What the classes do differently. `accept` gives the element to put into the queue, `none` for a message that is
refused, and nothing at all where an assertion fails. `clear` also gives the messages that it deletes. -/
structure FifoClass (μ ν : Type) where
  accept : ν → FifoClock → AbstractFifo μ → Option (Option μ)
  clear : AbstractFifo μ → AbstractFifo μ × List μ
  clear_deletes : ∀ f, (clear f).2 ++ (clear f).1.mFifo = f.mFifo

namespace AbstractFifo

open Monitor

variable {μ ν : Type}

def NoSize : ℕ := 2 ^ 64 - 1

def new (maxSize : UInt32) : AbstractFifo μ := ⟨[], 0, maxSize.toNat⟩

def push (f : AbstractFifo μ) (m : μ) : AbstractFifo μ :=
  { f with mFifo := f.mFifo ++ [m], mSize := (f.mSize + 1) % 2 ^ 64 }

def add (K : FifoClass μ ν) (a : ν) (now : FifoClock) (f : AbstractFifo μ) : Turn (AbstractFifo μ) Unit (FifoResult μ) :=
  match K.accept a now f with
  | some (some m) => .returns (.added (some m)) (f.push m) (some (.one ()))
  | some none => .returns (.added none) f none
  | none => .fails

def getNext (f : AbstractFifo μ) : Turn (AbstractFifo μ) Unit (FifoResult μ) :=
  match f.mFifo with
  | [] => .waits () f
  | firstMessage :: rest =>
    if f.mSize ≠ 0 then .returns (.next (some firstMessage)) { f with mFifo := rest, mSize := f.mSize - 1 } none
    else .fails

def deadline (ms begin : ℕ) : ℕ := (begin + ms) % 2 ^ 64

def getNextMs (ms begin : ℕ) (e : Entry) (now : FifoClock) (f : AbstractFifo μ) :
    Turn (AbstractFifo μ) Unit (FifoResult μ) :=
  if ms = 0 then f.getNext
  else if e.timedOut then .returns (.next none) f none
  else
    match f.mFifo with
    | [] => if deadline ms begin ≤ now.ms then .returns (.next none) f none else .waits () f
    | _ => f.getNext

def empty (f : AbstractFifo μ) : Bool := f.mSize = 0

/-- The result is an `unsigned int`. -/
def size (f : AbstractFifo μ) : ℕ := f.mSize % 2 ^ 32

def messageAvailable (f : AbstractFifo μ) : Turn (AbstractFifo μ) Unit (FifoResult μ) :=
  if f.mSize ≠ NoSize then .returns (.answer !f.mFifo.isEmpty) f none else .fails

end AbstractFifo

open AbstractFifo

def Fifo (α : Type) : FifoClass α α where
  accept msg _ _ := some (some msg)
  clear f := ({ f with mFifo := [], mSize := NoSize }, f.mFifo)
  clear_deletes _ := List.append_nil _

def FiniteFifo (α : Type) : FifoClass α α where
  accept msg _ f := some (if f.mMaxSize ≠ NoSize ∧ f.mMaxSize ≤ f.mSize then none else some msg)
  clear f := (f, [])
  clear_deletes _ := rfl

structure Timestamped (α : Type) where
  mMsg : α
  mTime : ℤ

inductive DepthUsage where
  | EnforceTimeDepth
  | IgnoreTimeDepth
  | InternalElement
  deriving DecidableEq

namespace TimeLimitFifo

variable {α : Type}

def timeDepthInternal (now : FifoClock) (f : AbstractFifo (Timestamped α)) : Option ℤ :=
  f.mFifo.head?.map (now.checked - ·.mTime)

def wouldAcceptInteral (mMaxDurationSecs : ℤ) (mUnreservedMaxSize : ℕ) (usage : DepthUsage) (now : FifoClock)
    (f : AbstractFifo (Timestamped α)) : Option Bool :=
  if f.mMaxSize ≠ 0 ∧ f.mMaxSize ≤ f.mSize then some false
  else if usage = .InternalElement then some true
  else if mUnreservedMaxSize ≠ 0 ∧ mUnreservedMaxSize ≤ f.mSize then some false
  else if usage = .IgnoreTimeDepth then some true
  else if f.mSize = 0 ∨ mMaxDurationSecs = 0 then some true
  else (timeDepthInternal now f).map fun depth => decide (depth < mMaxDurationSecs)

def unreservedMaxSize (maxSize : UInt32) : ℕ := (maxSize * 8 / 10).toNat

end TimeLimitFifo

def TimeLimitFifo (α : Type) (maxDurationSecs maxSize : UInt32) : FifoClass (Timestamped α) (α × DepthUsage) where
  accept a now f :=
    (TimeLimitFifo.wouldAcceptInteral maxDurationSecs.toNat (TimeLimitFifo.unreservedMaxSize maxSize) a.2 now f).map
      fun accepts => if accepts then some ⟨a.1, now.pushed⟩ else none
  clear f := ({ f with mFifo := [], mSize := 0 }, f.mFifo)
  clear_deletes _ := List.append_nil _

namespace FifoClass

open Monitor AbstractFifo

variable {μ ν τ : Type} {K : FifoClass μ ν}

def monitor (K : FifoClass μ ν) : Monitor (AbstractFifo μ) (FifoCall ν) Unit (FifoResult μ) FifoClock where
  turn
    | .add a, _, now, f => f.add K a now
    | .getNext, _, _, f => f.getNext
    | .getNextMs ms begin, e, now, f => f.getNextMs ms begin e now
    | .clear, _, _, f => .returns (.deleted (K.clear f).2) (K.clear f).1 none
    | .empty, _, _, f => .returns (.answer f.empty) f none
    | .size, _, _, f => .returns (.count f.size) f none
    | .messageAvailable, _, _, f => f.messageAvailable
  timed o := ∃ ms begin, o = .getNextMs ms begin ∧ ms ≠ 0

def isNext : FifoCall ν → Bool
  | .getNext => true
  | .getNextMs _ _ => true
  | _ => false

inductive Effect (K : FifoClass μ ν) (o : FifoCall ν) (e : Entry) (now : FifoClock) (f : AbstractFifo μ) :
    Turn (AbstractFifo μ) Unit (FifoResult μ) → Prop
  | added {a m} : o = .add a → K.accept a now f = some (some m) →
      Effect K o e now f (.returns (.added (some m)) (f.push m) (some (.one ())))
  | taken {m rest} : isNext o → f.mFifo = m :: rest → f.mSize ≠ 0 →
      Effect K o e now f (.returns (.next (some m)) { f with mFifo := rest, mSize := f.mSize - 1 } none)
  | cleared : o = .clear → Effect K o e now f (.returns (.deleted (K.clear f).2) (K.clear f).1 none)
  | unchanged {r} : o ≠ .clear → (∀ m, r ≠ .added (some m)) → (∀ m, r ≠ .next (some m)) → (∀ ms, r ≠ .deleted ms) →
      (isNext o → e.timedOut ∨ f.mFifo = []) → Effect K o e now f (.returns r f none)
  | waits : isNext o → f.mFifo = [] → Effect K o e now f (.waits () f)
  | fails : Effect K o e now f .fails

lemma getNext_effect {o : FifoCall ν} {e : Entry} {now : FifoClock} {f : AbstractFifo μ} (ho : isNext o = true) :
    Effect K o e now f f.getNext := by
  rw [AbstractFifo.getNext]
  split
  · next h => exact .waits ho h
  · next m rest h =>
    split
    · next hsize => exact .taken ho h hsize
    · exact .fails

lemma turn_effect (K : FifoClass μ ν) (o : FifoCall ν) (e : Entry) (now : FifoClock) (f : AbstractFifo μ) :
    Effect K o e now f (K.monitor.turn o e now f) := by
  cases o with
  | add a =>
    change Effect _ _ _ _ _ (f.add K a now)
    rw [AbstractFifo.add]
    split
    · next m h => exact .added rfl h
    · exact .unchanged (by simp) (by simp) (by simp) (by simp) (by simp [isNext])
    · exact .fails
  | getNext => exact getNext_effect rfl
  | getNextMs ms begin =>
    change Effect _ _ _ _ _ (f.getNextMs ms begin e now)
    rw [AbstractFifo.getNextMs]
    split
    · exact getNext_effect rfl
    · split
      · next hout => exact .unchanged (by simp) (by simp) (by simp) (by simp) (fun _ => Or.inl hout)
      · split
        · next hempty =>
          split
          · exact .unchanged (by simp) (by simp) (by simp) (by simp) (fun _ => Or.inr hempty)
          · exact .waits rfl hempty
        · exact getNext_effect rfl
  | clear => exact .cleared rfl
  | empty => exact .unchanged (by simp) (by simp) (by simp) (by simp) (by simp [isNext])
  | size => exact .unchanged (by simp) (by simp) (by simp) (by simp) (by simp [isNext])
  | messageAvailable =>
    change Effect _ _ _ _ _ f.messageAvailable
    rw [AbstractFifo.messageAvailable]
    split
    · exact .unchanged (by simp) (by simp) (by simp) (by simp) (by simp [isNext])
    · exact .fails

def accepted (log : List (Return τ (FifoCall ν) (FifoResult μ))) : List μ :=
  log.flatMap fun r =>
    match r.result with
    | .added (some m) => [m]
    | _ => []

def removed (log : List (Return τ (FifoCall ν) (FifoResult μ))) : List μ :=
  log.flatMap fun r =>
    match r.result with
    | .next (some m) => [m]
    | .deleted ms => ms
    | _ => []

variable {log : List (Return τ (FifoCall ν) (FifoResult μ))} {t : τ} {o : FifoCall ν}

lemma accepted_snoc (r : FifoResult μ) : accepted (log ++ [⟨t, o, r⟩]) = accepted log ++ accepted [⟨t, o, r⟩] := by
  rw [accepted, List.flatMap_append]
  rfl

lemma removed_snoc (r : FifoResult μ) : removed (log ++ [⟨t, o, r⟩]) = removed log ++ removed [⟨t, o, r⟩] := by
  rw [removed, List.flatMap_append]
  rfl

lemma accepted_other {r : FifoResult μ} (h : ∀ m, r ≠ .added (some m)) :
    accepted [(⟨t, o, r⟩ : Return τ (FifoCall ν) (FifoResult μ))] = [] := by
  cases r with
  | added m =>
    cases m with
    | none => rfl
    | some m => exact absurd rfl (h m)
  | next => rfl
  | deleted => rfl
  | answer => rfl
  | count => rfl

lemma removed_other {r : FifoResult μ} (h : ∀ m, r ≠ .next (some m)) (hd : ∀ ms, r ≠ .deleted ms) :
    removed [(⟨t, o, r⟩ : Return τ (FifoCall ν) (FifoResult μ))] = [] := by
  cases r with
  | added => rfl
  | next m =>
    cases m with
    | none => rfl
    | some m => exact absurd rfl (h m)
  | deleted ms => exact absurd rfl (hd ms)
  | answer => rfl
  | count => rfl

structure Inv (x : Threads (AbstractFifo μ) τ (FifoCall ν) Unit (FifoResult μ)) : Prop where
  order : accepted x.log = removed x.log ++ x.data.mFifo
  asleep : ∀ w ∈ x.asleep, isNext w.call
  ready : ∀ w ∈ x.ready, isNext w.call
  woken : x.asleep ≠ [] → x.data.mFifo.length ≤ x.ready.countP (·.signaled)

structure Turns (o : FifoCall ν) (e : Entry) (x : Threads (AbstractFifo μ) τ (FifoCall ν) Unit (FifoResult μ)) : Prop where
  order : accepted x.log = removed x.log ++ x.data.mFifo
  asleep : ∀ w ∈ x.asleep, isNext w.call
  ready : ∀ w ∈ x.ready, isNext w.call
  woken : x.asleep ≠ [] → x.data.mFifo.length ≤ x.ready.countP (·.signaled) + e.signaled.toNat
  next : e.signaled → isNext o

variable {x y : Threads (AbstractFifo μ) τ (FifoCall ν) Unit (FifoResult μ)} {e : Entry} {now : FifoClock}
  {allowed : List (Return τ (FifoCall ν) (FifoResult μ)) → τ → FifoCall ν → Prop} {maxSize : UInt32}

lemma Turns.unwoken (h : Turns o e x) (ho : isNext o = false) (hs : x.asleep ≠ []) :
    x.data.mFifo.length ≤ x.ready.countP (·.signaled) := by
  have hwoken := h.woken hs
  cases hsig : e.signaled with
  | true => rw [h.next hsig] at ho; cases ho
  | false =>
    rw [hsig] at hwoken
    exact hwoken

lemma Turns.after (h : Turns o e x) (ha : After t o x (K.monitor.turn o e now x.data) y) : Inv y := by
  have heff := turn_effect K o e now x.data
  generalize K.monitor.turn o e now x.data = turn at ha heff
  cases heff with
  | @added a m ho hacc =>
    cases ha with
    | @returned _ _ _ asleep ready hwakes =>
      refine ⟨?_, fun w hw => h.asleep w (hwakes.mem_asleep hw), ?_, ?_⟩
      · rw [accepted_snoc, removed_snoc, h.order]
        simp [accepted, removed, push]
      · intro w hw
        rcases hwakes.mem_ready hw with hw | ⟨v, hv, rfl⟩
        · exact h.ready w hw
        · exact h.asleep v hv
      · intro hs
        change (x.data.mFifo ++ [m]).length ≤ _
        have hlen := h.unwoken (by rw [ho]; rfl)
        cases hwakes with
        | one hasleep _ =>
          have := hlen (by simp [hasleep])
          simp only [List.length_append, List.length_singleton, Waiter.woken, List.countP_cons, if_true]
          omega
        | nobody hnone =>
          obtain ⟨w, hw⟩ := List.exists_mem_of_ne_nil _ hs
          exact absurd rfl (hnone w hw)
  | @taken m rest ho hf hsize =>
    cases ha with
    | returned hwakes =>
      cases hwakes
      refine ⟨?_, h.asleep, h.ready, fun hs => ?_⟩
      · rw [accepted_snoc, removed_snoc, h.order, hf]
        simp [accepted, removed]
      · have hwoken := h.woken hs
        have hone : e.signaled.toNat ≤ 1 := Bool.toNat_le _
        rw [hf, List.length_cons] at hwoken
        change rest.length ≤ x.ready.countP (·.signaled)
        omega
  | cleared ho =>
    cases ha with
    | returned hwakes =>
      cases hwakes
      refine ⟨?_, h.asleep, h.ready, fun hs => ?_⟩
      · rw [accepted_snoc, removed_snoc, h.order, ← K.clear_deletes x.data]
        simp [accepted, removed]
      · have hlen := congrArg List.length (K.clear_deletes x.data)
        have hwoken := h.unwoken (by rw [ho]; rfl) hs
        rw [List.length_append] at hlen
        change (K.clear x.data).1.mFifo.length ≤ x.ready.countP (·.signaled)
        omega
  | @unchanged r _ hadd hnext hdel hidle =>
    cases ha with
    | returned hwakes =>
      cases hwakes
      refine ⟨?_, h.asleep, h.ready, fun hs => ?_⟩
      · rw [accepted_snoc, removed_snoc, h.order, accepted_other hadd, removed_other hnext hdel]
        simp
      · cases hsig : e.signaled with
        | true =>
          rcases hidle (h.next hsig) with hout | hempty
          · rw [Entry.timedOut_signaled hout] at hsig
            cases hsig
          · change x.data.mFifo.length ≤ _
            rw [hempty]
            exact Nat.zero_le _
        | false =>
          have hwoken := h.woken hs
          rw [hsig] at hwoken
          exact hwoken
  | waits ho hempty =>
    cases ha
    refine ⟨h.order, ?_, h.ready, fun _ => ?_⟩
    · intro w hw
      rcases List.mem_cons.mp hw with rfl | hw
      · exact ho
      · exact h.asleep w hw
    · change x.data.mFifo.length ≤ _
      rw [hempty]
      exact Nat.zero_le _
  | fails => cases ha

lemma Inv.call (h : Inv x) (o : FifoCall ν) : Turns o .first x :=
  ⟨h.order, h.asleep, h.ready, h.woken, fun hs => by cases hs⟩

lemma Inv.resume {l l' : List (Ready τ (FifoCall ν))} {w : Ready τ (FifoCall ν)} (h : Inv x)
    (hr : x.ready = l ++ w :: l') : Turns w.call (.again w.signaled) { x with ready := l ++ l' } where
  order := h.order
  asleep := h.asleep
  ready v hv := h.ready v (by
    rw [hr, List.mem_append, List.mem_cons]
    rw [List.mem_append] at hv
    tauto)
  woken hs := by
    have hwoken := h.woken hs
    rw [hr, List.countP_append, List.countP_cons] at hwoken
    change x.data.mFifo.length ≤ (l ++ l').countP (·.signaled) + _
    rw [List.countP_append]
    cases hb : w.signaled with
    | true =>
      rw [hb, if_pos rfl] at hwoken
      change _ ≤ _ + 1
      omega
    | false =>
      rw [hb, if_neg Bool.false_ne_true] at hwoken
      exact Nat.le_add_right_of_le hwoken
  next _ := h.ready w (by simp [hr])

lemma Inv.out {l l' : List (Waiter τ (FifoCall ν) Unit)} {w : Waiter τ (FifoCall ν) Unit} (h : Inv x)
    (hs : x.asleep = l ++ w :: l') (b : Bool) : Inv { x with asleep := l ++ l', ready := w.woken b :: x.ready } where
  order := h.order
  asleep v hv := h.asleep v (by
    rw [hs, List.mem_append, List.mem_cons]
    rw [List.mem_append] at hv
    tauto)
  ready v hv := by
    rcases List.mem_cons.mp hv with rfl | hv
    · exact h.asleep w (by simp [hs])
    · exact h.ready v hv
  woken _ := by
    have hwoken := h.woken (by simp [hs])
    rw [List.countP_cons]
    exact Nat.le_add_right_of_le hwoken

lemma inv_keeps : Keeps K.monitor allowed (Inv : Threads (AbstractFifo μ) τ (FifoCall ν) Unit (FifoResult μ) → Prop) where
  call _ _ _ o _ hx _ ha := (hx.call o).after ha
  resume _ _ _ _ _ _ hx hr ha := (hx.resume hr).after ha
  out _ _ _ _ b hx hs := hx.out hs b

def Reachable (K : FifoClass μ ν) (allowed : List (Return τ (FifoCall ν) (FifoResult μ)) → τ → FifoCall ν → Prop)
    (maxSize : UInt32) (x : Threads (AbstractFifo μ) τ (FifoCall ν) Unit (FifoResult μ)) : Prop :=
  Reached K.monitor allowed (new maxSize) x

lemma reachable_inv (h : Reachable K allowed maxSize x) : Inv x :=
  inv_keeps.reached ⟨rfl, by simp [start], by simp [start], fun hs => absurd rfl hs⟩ h

def delivering : Threads (AbstractFifo ℕ) ℕ (FifoCall ℕ) Unit (FifoResult ℕ) :=
  ⟨⟨[7], 1, 0⟩, [⟨1, .getNext, ()⟩], [⟨2, .getNext, true⟩], [⟨3, .add 7, .added (some 7)⟩]⟩

lemma delivering_reachable : Reachable (Fifo ℕ) (fun _ _ _ => True) 0 delivering := by
  refine ⟨[.call 1 .getNext ⟨0, 0, 0⟩, .call 2 .getNext ⟨0, 0, 0⟩, .call 3 (.add 7) ⟨0, 0, 0⟩], ?_⟩
  refine Run.cons (t := ⟨new 0, [⟨1, .getNext, ()⟩], [], []⟩)
    (.call (by simp [start]) (by simp [start]) trivial .waiting) ?_
  refine Run.cons (t := ⟨new 0, [⟨2, .getNext, ()⟩, ⟨1, .getNext, ()⟩], [], []⟩)
    (.call (by simp) (by simp) trivial .waiting) (Run.cons (.call (by simp) (by simp) trivial ?_) .nil)
  exact .returned (.one (l := []) rfl rfl)

theorem order_kept (h : Reachable K allowed maxSize x) : accepted x.log = removed x.log ++ x.data.mFifo :=
  (reachable_inv h).order

theorem order_kept_delivering :
    accepted delivering.log = removed delivering.log ++ delivering.data.mFifo :=
  order_kept delivering_reachable

lemma woken_takes {w : Ready τ (FifoCall ν)} (hw : w.signaled = true) (hnext : isNext w.call = true)
    {f : AbstractFifo μ} (hf : f.mFifo ≠ []) :
    K.monitor.turn w.call (.again w.signaled) now f = f.getNext := by
  rw [hw]
  cases hc : w.call with
  | getNext => rfl
  | getNextMs ms begin =>
    change f.getNextMs ms begin (.again true) now = _
    rw [getNextMs]
    split
    · rfl
    · rw [if_neg (by simp [Entry.timedOut])]
      split
      · next hempty => exact absurd hempty hf
      · rfl
  | _ => rw [hc] at hnext; cases hnext

theorem messages_taken (h : Reachable K allowed maxSize x) (hs : x.asleep ≠ []) :
    x.data.mFifo.length ≤ x.ready.countP (·.signaled) ∧ ∀ w ∈ x.ready, w.signaled = true → ∀ now, x.data.mFifo ≠ [] →
      K.monitor.turn w.call (.again w.signaled) now x.data = x.data.getNext := by
  have hinv := reachable_inv h
  exact ⟨hinv.woken hs, fun w hw hsig now hf => woken_takes hsig (hinv.ready w hw) hf⟩

theorem messages_taken_delivering :
    delivering.data.mFifo.length ≤ delivering.ready.countP (·.signaled) ∧
      ∀ w ∈ delivering.ready, w.signaled = true → ∀ now, delivering.data.mFifo ≠ [] →
        (Fifo ℕ).monitor.turn w.call (.again w.signaled) now delivering.data = delivering.data.getNext :=
  messages_taken delivering_reachable (by simp [delivering])

end FifoClass

end Xframe.Comserv
