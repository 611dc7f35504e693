import Xframe.Comserv.Fifo

/-! Which messages `Fifo`, `FiniteFifo` and `TimeLimitFifo` take, and what becomes of their `mSize`. -/

namespace Xframe.Comserv

open Xframe.Lib Monitor AbstractFifo

namespace FifoClass

variable {α μ ν τ : Type} {K : FifoClass μ ν} {f f' : AbstractFifo μ} {o : FifoCall ν} {e : Entry} {now : FifoClock}
  {r : FifoResult μ} {signal : Option (Signal Unit)} {n : ℕ}

def Sized (n : ℕ) (f : AbstractFifo μ) : Prop := f.mSize = (f.mFifo.length + n) % 2 ^ 64

lemma Sized.push (h : Sized n f) (m : μ) : Sized n (f.push m) := by
  rw [Sized] at h
  simp only [Sized, AbstractFifo.push, List.length_append, List.length_singleton]
  omega

lemma Sized.pop {m : μ} {rest : List μ} (h : Sized n f) (hf : f.mFifo = m :: rest) (hsize : f.mSize ≠ 0) :
    Sized n { f with mFifo := rest, mSize := f.mSize - 1 } := by
  rw [Sized, hf, List.length_cons] at h
  simp only [Sized]
  omega

lemma returns_cases (h : K.monitor.turn o e now f = .returns r f' signal) :
    (∃ a m, o = .add a ∧ K.accept a now f = some (some m) ∧ r = .added (some m) ∧ f' = f.push m) ∨
    (∃ m rest, isNext o ∧ f.mFifo = m :: rest ∧ f.mSize ≠ 0 ∧ r = .next (some m) ∧
      f' = { f with mFifo := rest, mSize := f.mSize - 1 }) ∨
    (o = .clear ∧ r = .deleted (K.clear f).2 ∧ f' = (K.clear f).1) ∨
    (o ≠ .clear ∧ (∀ m, r ≠ .added (some m)) ∧ (∀ m, r ≠ .next (some m)) ∧ (∀ ms, r ≠ .deleted ms) ∧ f' = f) := by
  have heff := turn_effect K o e now f
  rw [h] at heff
  cases heff with
  | added ho hacc => exact Or.inl ⟨_, _, ho, hacc, rfl, rfl⟩
  | taken ho hf hsize => exact Or.inr (Or.inl ⟨_, _, ho, hf, hsize, rfl, rfl⟩)
  | cleared ho => exact Or.inr (Or.inr (Or.inl ⟨ho, rfl, rfl⟩))
  | unchanged ho hadd hnext hdel _ => exact Or.inr (Or.inr (Or.inr ⟨ho, hadd, hnext, hdel, rfl⟩))

lemma waits_cases {c : Unit} (h : K.monitor.turn o e now f = .waits c f') : f' = f := by
  have heff := turn_effect K o e now f
  rw [h] at heff
  cases heff
  rfl

lemma Sized.returns (h : Sized n f) (ho : o ≠ .clear) (hturn : K.monitor.turn o e now f = .returns r f' signal) :
    Sized n f' := by
  rcases returns_cases hturn with ⟨a, m, -, -, -, rfl⟩ | ⟨m, rest, -, hf, hsize, -, rfl⟩ | ⟨hclear, -⟩ |
    ⟨-, -, -, -, rfl⟩
  · exact h.push m
  · exact h.pop hf hsize
  · exact absurd hclear ho
  · exact h

lemma getNext_fails_iff : f.getNext = .fails ↔ f.mFifo ≠ [] ∧ f.mSize = 0 := by
  rw [AbstractFifo.getNext]
  split
  · next h => simp [h]
  · next h => by_cases hsize : f.mSize = 0 <;> simp [h, hsize]

lemma messageAvailable_fails_iff : f.messageAvailable = .fails ↔ f.mSize = NoSize := by
  rw [messageAvailable]
  by_cases h : f.mSize = NoSize <;> simp [h]

variable {x : Threads (AbstractFifo μ) τ (FifoCall ν) Unit (FifoResult μ)}
  {allowed : List (Return τ (FifoCall ν) (FifoResult μ)) → τ → FifoCall ν → Prop} {maxSize : UInt32}

def isClear : FifoCall ν → Bool
  | .clear => true
  | _ => false

def cleared (log : List (Return τ (FifoCall ν) (FifoResult μ))) : Bool := log.any (isClear ·.call)

lemma cleared_snoc (log : List (Return τ (FifoCall ν) (FifoResult μ))) (t : τ) (ho : o ≠ .clear) :
    cleared (log ++ [⟨t, o, r⟩]) = cleared log := by
  rw [cleared, List.any_append]
  cases o <;> first | exact Bool.or_false _ | exact absurd rfl ho

lemma Fifo_sized {x : Threads (AbstractFifo α) τ (FifoCall α) Unit (FifoResult α)}
    {allowed : List (Return τ (FifoCall α) (FifoResult α)) → τ → FifoCall α → Prop}
    (h : Reachable (Fifo α) allowed maxSize x) : Sized (if cleared x.log then NoSize else 0) x.data := by
  obtain ⟨es, hr⟩ := h
  refine run_turns (J := fun _ log f => Sized (if cleared log then NoSize else 0) f) ?_ ?_ ?_ hr
  · rfl
  · intro _ log f t o e now r f' signal hf hturn
    by_cases ho : o = .clear
    · subst ho
      obtain ⟨-, hsize⟩ : r = _ ∧ f' = _ := by
        cases hturn
        exact ⟨rfl, rfl⟩
      have hcleared : cleared (log ++ [⟨t, .clear, r⟩]) = true := by simp [cleared, isClear]
      rw [hcleared, hsize]
      simp [Sized, Fifo, NoSize]
    · rw [cleared_snoc log t ho]
      exact hf.returns ho hturn
  · intro _ log f o e now c f' hf hturn
    rw [waits_cases hturn]
    exact hf

theorem Fifo_clear_off_by_one {x : Threads (AbstractFifo α) τ (FifoCall α) Unit (FifoResult α)}
    {allowed : List (Return τ (FifoCall α) (FifoResult α)) → τ → FifoCall α → Prop}
    (h : Reachable (Fifo α) allowed maxSize x) (hlen : x.data.mFifo.length < NoSize) :
    (x.data.empty = true ↔ x.data.mFifo.length = if cleared x.log then 1 else 0) ∧
      (x.data.getNext = .fails ↔ cleared x.log = true ∧ x.data.mFifo.length = 1) ∧
      (x.data.messageAvailable = .fails ↔ cleared x.log = true ∧ x.data.mFifo = []) := by
  have hsize := Fifo_sized h
  rw [Sized] at hsize
  rw [getNext_fails_iff, messageAvailable_fails_iff, empty, decide_eq_true_eq, ← List.length_eq_zero_iff, ne_eq,
    ← List.length_eq_zero_iff]
  rw [NoSize] at *
  generalize cleared x.log = b at *
  cases b with
  | true =>
    simp only [if_true, true_and] at *
    omega
  | false =>
    simp only [Bool.false_eq_true, if_false, false_and, iff_false] at *
    omega

def recounting : Threads (AbstractFifo ℕ) ℕ (FifoCall ℕ) Unit (FifoResult ℕ) :=
  ⟨⟨[7], 0, 0⟩, [], [], [⟨1, .clear, .deleted []⟩, ⟨1, .add 7, .added (some 7)⟩]⟩

lemma recounting_reachable : Reachable (Fifo ℕ) (fun _ _ _ => True) 0 recounting := by
  refine ⟨[.call 1 .clear ⟨0, 0, 0⟩, .call 1 (.add 7) ⟨0, 0, 0⟩], ?_⟩
  refine Run.cons (t := ⟨⟨[], NoSize, 0⟩, [], [], [⟨1, .clear, .deleted []⟩]⟩)
    (.call (by simp [start]) (by simp [start]) trivial (.returned .none)) ?_
  exact Run.cons (.call (by simp) (by simp) trivial (.returned (.nobody (by simp)))) .nil

theorem Fifo_clear_off_by_one_recounting :
    (recounting.data.empty = true ↔ recounting.data.mFifo.length = if cleared recounting.log then 1 else 0) ∧
      (recounting.data.getNext = .fails ↔ cleared recounting.log = true ∧ recounting.data.mFifo.length = 1) ∧
      (recounting.data.messageAvailable = .fails ↔ cleared recounting.log = true ∧ recounting.data.mFifo = []) :=
  Fifo_clear_off_by_one recounting_reachable (by simp [recounting, NoSize])

structure Exact (K : FifoClass μ ν) : Prop where
  size : ∀ f, Sized 0 f → Sized 0 (K.clear f).1
  maxSize : ∀ f, (K.clear f).1.mMaxSize = f.mMaxSize
  length : ∀ f, (K.clear f).1.mFifo.length ≤ f.mFifo.length

lemma FiniteFifo_exact : Exact (FiniteFifo α) := ⟨fun _ h => h, fun _ => rfl, fun _ => le_rfl⟩

lemma TimeLimitFifo_exact {dur : UInt32} : Exact (TimeLimitFifo α dur maxSize) :=
  ⟨fun _ _ => rfl, fun _ => rfl, fun _ => Nat.zero_le _⟩

structure Bounded (limit : ℕ → Prop) (maxSize : UInt32) (f : AbstractFifo μ) : Prop where
  max : f.mMaxSize = maxSize.toNat
  size : Sized 0 f
  length : limit maxSize.toNat → f.mFifo.length ≤ maxSize.toNat

lemma Bounded.size_eq {limit : ℕ → Prop} (h : Bounded limit maxSize f) (hl : limit maxSize.toNat) :
    f.mSize = f.mFifo.length := by
  have hsize := h.size
  have hlen := h.length hl
  have hbound := maxSize.toNat_lt
  rw [Sized] at hsize
  omega

lemma Bounded.returns {limit : ℕ → Prop} (h : Bounded limit maxSize f) (hK : Exact K)
    (hacc : ∀ a now f m, limit f.mMaxSize → K.accept a now f = some (some m) → f.mSize < f.mMaxSize)
    (hturn : K.monitor.turn o e now f = .returns r f' signal) : Bounded limit maxSize f' := by
  rcases returns_cases hturn with ⟨a, m, -, ha, -, rfl⟩ | ⟨m, rest, -, hf, hsize, -, rfl⟩ | ⟨-, -, rfl⟩ |
    ⟨-, -, -, -, rfl⟩
  · refine ⟨h.max, h.size.push m, fun hl => ?_⟩
    have hless := hacc a now f m (h.max ▸ hl) ha
    rw [h.size_eq hl, h.max] at hless
    change (f.mFifo ++ [m]).length ≤ _
    rw [List.length_append, List.length_singleton]
    omega
  · refine ⟨h.max, h.size.pop hf hsize, fun hl => ?_⟩
    have hold := h.length hl
    rw [hf, List.length_cons] at hold
    exact Nat.le_of_succ_le hold
  · exact ⟨(hK.maxSize f).trans h.max, hK.size f h.size, fun hl => (hK.length f).trans (h.length hl)⟩
  · exact h

lemma Exact.reachable (hK : Exact K) (h : Reachable K allowed maxSize x) (limit : ℕ → Prop)
    (hacc : ∀ a now f m, limit f.mMaxSize → K.accept a now f = some (some m) → f.mSize < f.mMaxSize) :
    Bounded limit maxSize x.data := by
  obtain ⟨es, hr⟩ := h
  refine run_turns (J := fun _ _ f => Bounded limit maxSize f) ?_ ?_ ?_ hr
  · exact ⟨rfl, rfl, fun _ => Nat.zero_le _⟩
  · intro _ _ f t o e now r f' signal hf hturn
    exact hf.returns hK hacc hturn
  · intro _ _ f o e now c f' hf hturn
    rw [waits_cases hturn]
    exact hf

lemma Sized.turn_ends (h : Sized 0 f) (hlen : f.mFifo.length < NoSize) (hacc : ∀ a, K.accept a now f ≠ none) :
    K.monitor.turn o e now f ≠ .fails := by
  have hsize : f.mSize = f.mFifo.length := by
    rw [Sized] at h
    rw [NoSize] at hlen
    omega
  have hnext : f.getNext ≠ .fails := by
    rw [ne_eq, getNext_fails_iff, hsize, List.length_eq_zero_iff]
    tauto
  cases o with
  | add a =>
    change f.add K a now ≠ _
    rw [AbstractFifo.add]
    split
    · simp
    · simp
    · next hnone => exact absurd hnone (hacc a)
  | getNext => exact hnext
  | getNextMs ms begin =>
    change f.getNextMs ms begin e now ≠ _
    rw [getNextMs]
    split
    · exact hnext
    · split
      · simp
      · split
        · split <;> simp
        · exact hnext
  | messageAvailable =>
    change f.messageAvailable ≠ _
    rw [ne_eq, messageAvailable_fails_iff, hsize]
    exact hlen.ne
  | clear => simp [monitor]
  | empty => simp [monitor]
  | size => simp [monitor]

theorem FiniteFifo_bounded {x : Threads (AbstractFifo α) τ (FifoCall α) Unit (FifoResult α)}
    {allowed : List (Return τ (FifoCall α) (FifoResult α)) → τ → FifoCall α → Prop}
    (h : Reachable (FiniteFifo α) allowed maxSize x) :
    x.data.mFifo.length ≤ maxSize.toNat ∧
      (∀ msg now, (FiniteFifo α).accept msg now x.data = some none ↔ x.data.mFifo.length = maxSize.toNat) ∧
      ∀ o e now, (FiniteFifo α).monitor.turn o e now x.data ≠ .fails := by
  have hb := FiniteFifo_exact.reachable h (· ≠ NoSize) (by
    intro msg now f m hl ha
    simp only [FiniteFifo, Option.some.injEq] at ha
    split at ha
    · cases ha
    · next hfull => exact Nat.lt_of_not_le fun hle => hfull ⟨hl, hle⟩)
  have hbound := maxSize.toNat_lt
  have hl : maxSize.toNat ≠ NoSize := by
    rw [NoSize]
    omega
  have hle := hb.length hl
  refine ⟨hle, fun msg now => ?_, fun o e now => hb.size.turn_ends ?_ (by simp [FiniteFifo])⟩
  · simp only [FiniteFifo, Option.some.injEq, hb.max, hb.size_eq hl, ite_eq_left_iff, reduceCtorEq, imp_false,
      not_not]
    constructor
    · rintro ⟨-, hfull⟩
      exact le_antisymm hle hfull
    · intro hfull
      exact ⟨hl, hfull.ge⟩
  · rw [NoSize]
    omega

def full : Threads (AbstractFifo ℕ) ℕ (FifoCall ℕ) Unit (FifoResult ℕ) :=
  ⟨⟨[5], 1, 1⟩, [], [], [⟨1, .add 5, .added (some 5)⟩, ⟨1, .add 6, .added none⟩]⟩

lemma full_reachable : Reachable (FiniteFifo ℕ) (fun _ _ _ => True) 1 full := by
  refine ⟨[.call 1 (.add 5) ⟨0, 0, 0⟩, .call 1 (.add 6) ⟨0, 0, 0⟩], ?_⟩
  refine Run.cons (t := ⟨⟨[5], 1, 1⟩, [], [], [⟨1, .add 5, .added (some 5)⟩]⟩)
    (.call (by simp [start]) (by simp [start]) trivial (.returned (.nobody (by simp [start])))) ?_
  exact Run.cons (.call (by simp) (by simp) trivial (.returned .none)) .nil

theorem FiniteFifo_bounded_full :
    full.data.mFifo.length ≤ (1 : UInt32).toNat ∧
      (∀ msg now, (FiniteFifo ℕ).accept msg now full.data = some none ↔
        full.data.mFifo.length = (1 : UInt32).toNat) ∧
      ∀ o e now, (FiniteFifo ℕ).monitor.turn o e now full.data ≠ .fails :=
  FiniteFifo_bounded full_reachable

section TimeLimit

variable {dur : UInt32} {f : AbstractFifo (Timestamped α)} {usage : DepthUsage} {msg : α}
  {x : Threads (AbstractFifo (Timestamped α)) τ (FifoCall (α × DepthUsage)) Unit (FifoResult (Timestamped α))}
  {allowed : List (Return τ (FifoCall (α × DepthUsage)) (FifoResult (Timestamped α))) → τ →
    FifoCall (α × DepthUsage) → Prop}
  {es : List (Event τ (FifoCall (α × DepthUsage)) FifoClock)}

lemma TimeLimitFifo_admits {m : Timestamped α}
    (h : (TimeLimitFifo α dur maxSize).accept (msg, usage) now f = some (some m)) :
    m = ⟨msg, now.pushed⟩ ∧
      TimeLimitFifo.wouldAcceptInteral dur.toNat (TimeLimitFifo.unreservedMaxSize maxSize) usage now f = some true := by
  obtain ⟨b, hb, hm⟩ := Option.map_eq_some_iff.mp h
  cases b with
  | true => exact ⟨(Option.some.inj hm).symm, hb⟩
  | false => cases hm

lemma TimeLimitFifo_times (hr : Run (Step (TimeLimitFifo α dur maxSize).monitor allowed) (start (new maxSize)) es x) :
    (x.data.mFifo.map (·.mTime)).Sublist ((es.filterMap Event.input).map (·.pushed)) := by
  refine run_turns (J := fun is _ f => (f.mFifo.map (·.mTime)).Sublist (is.map (·.pushed))) ?_ ?_ ?_ hr
  · exact List.Sublist.refl _
  · intro is _ f t o e now r f' signal hf hturn
    rw [List.map_append]
    rcases returns_cases hturn with ⟨a, m, -, ha, -, rfl⟩ | ⟨m, rest, -, hcons, -, -, rfl⟩ | ⟨-, -, rfl⟩ |
      ⟨-, -, -, -, rfl⟩
    · obtain ⟨rfl, -⟩ := TimeLimitFifo_admits ha
      change ((f.mFifo ++ [_]).map _).Sublist _
      rw [List.map_append]
      exact hf.append (List.Sublist.refl _)
    · rw [hcons, List.map_cons] at hf
      exact ((List.sublist_cons_self _ _).trans hf).trans (List.sublist_append_left _ _)
    · exact List.nil_sublist _
    · exact hf.trans (List.sublist_append_left _ _)
  · intro is _ f o e now c f' hf hturn
    rw [waits_cases hturn, List.map_append]
    exact hf.trans (List.sublist_append_left _ _)

lemma TimeLimitFifo_room {a : α × DepthUsage} {m : Timestamped α} (hl : f.mMaxSize ≠ 0)
    (ha : (TimeLimitFifo α dur maxSize).accept a now f = some (some m)) : f.mSize < f.mMaxSize := by
  have haccepts := (TimeLimitFifo_admits ha).2
  rw [TimeLimitFifo.wouldAcceptInteral] at haccepts
  split at haccepts
  · cases haccepts
  · next hfull => exact Nat.lt_of_not_le fun hle => hfull ⟨hl, hle⟩

lemma TimeLimitFifo_sized (h : Reachable (TimeLimitFifo α dur maxSize) allowed maxSize x) :
    Bounded (· ≠ 0) maxSize x.data :=
  TimeLimitFifo_exact.reachable h (· ≠ 0) fun _ _ _ _ => TimeLimitFifo_room

lemma front_oldest {ms : List (Timestamped α)} {tm : Timestamped α}
    (hsorted : (ms.map (·.mTime)).Pairwise (· ≤ ·)) (hhead : ms.head? = some tm) :
    ∀ m ∈ ms, tm.mTime ≤ m.mTime := by
  intro m hm
  cases ms with
  | nil => cases hm
  | cons first rest =>
    obtain rfl := Option.some.inj hhead
    rcases List.mem_cons.mp hm with rfl | hm
    · exact le_rfl
    · exact (List.pairwise_cons.mp hsorted).1 _ (List.mem_map_of_mem hm)

lemma timeDepth_lt_iff (hsorted : (f.mFifo.map (·.mTime)).Pairwise (· ≤ ·)) (hf : f.mFifo ≠ []) {limit : ℤ} :
    (TimeLimitFifo.timeDepthInternal now f).map (fun depth => decide (depth < limit)) = some true ↔
      ∀ tm ∈ f.mFifo, now.checked - tm.mTime < limit := by
  obtain ⟨tm, hhead⟩ : ∃ tm, f.mFifo.head? = some tm := ⟨_, List.head?_eq_some_head hf⟩
  rw [TimeLimitFifo.timeDepthInternal, hhead]
  simp only [Option.map_some, Option.some.injEq, decide_eq_true_eq]
  constructor
  · intro hless m hm
    have := front_oldest hsorted hhead m hm
    omega
  · intro hall
    exact hall tm (List.mem_of_head? hhead)

lemma wouldAcceptInteral_iff (limit : ℤ) (unreserved : ℕ) (hsize : f.mSize = f.mFifo.length)
    (hsorted : (f.mFifo.map (·.mTime)).Pairwise (· ≤ ·)) :
    TimeLimitFifo.wouldAcceptInteral limit unreserved usage now f = some true ↔
      (f.mMaxSize = 0 ∨ f.mFifo.length < f.mMaxSize) ∧ (usage = .InternalElement ∨
        (unreserved = 0 ∨ f.mFifo.length < unreserved) ∧
        (usage = .IgnoreTimeDepth ∨ limit = 0 ∨ ∀ tm ∈ f.mFifo, now.checked - tm.mTime < limit)) := by
  rw [TimeLimitFifo.wouldAcceptInteral, hsize]
  split
  · next hfull =>
    have hno : ¬(f.mMaxSize = 0 ∨ f.mFifo.length < f.mMaxSize) := by omega
    simp [hno]
  · next hroom =>
    have hyes : f.mMaxSize = 0 ∨ f.mFifo.length < f.mMaxSize := by omega
    rw [and_iff_right hyes]
    split
    · next hinternal => simp [hinternal]
    · next hexternal =>
      rw [or_iff_right hexternal]
      split
      · next hfull =>
        have hno : ¬(unreserved = 0 ∨ f.mFifo.length < unreserved) := by omega
        simp [hno]
      · next hroom =>
        have hyes : unreserved = 0 ∨ f.mFifo.length < unreserved := by omega
        rw [and_iff_right hyes]
        split
        · next hignore => simp [hignore]
        · next henforce =>
          rw [or_iff_right henforce]
          by_cases hempty : f.mFifo = []
          · simp [hempty]
          · have hpos : f.mFifo.length ≠ 0 := fun h => hempty (List.length_eq_zero_iff.mp h)
            split
            · next hnone => simp [hnone.resolve_left hpos]
            · next hlimit =>
              rw [not_or] at hlimit
              rw [timeDepth_lt_iff hsorted hempty, or_iff_right hlimit.2]

lemma wouldAcceptInteral_ends {limit : ℤ} {unreserved : ℕ} (hsize : f.mSize = f.mFifo.length) :
    TimeLimitFifo.wouldAcceptInteral limit unreserved usage now f ≠ none := by
  rw [TimeLimitFifo.wouldAcceptInteral, hsize]
  split_ifs with _ _ _ _ hempty
  any_goals exact Option.some_ne_none _
  rw [not_or, List.length_eq_zero_iff] at hempty
  rw [TimeLimitFifo.timeDepthInternal, List.head?_eq_some_head hempty.1]
  exact Option.some_ne_none _

theorem TimeLimitFifo_admits_iff
    (hr : Run (Step (TimeLimitFifo α dur maxSize).monitor allowed) (start (new maxSize)) es x)
    (hclock : (es.filterMap Event.input).Pairwise (·.pushed ≤ ·.pushed)) (hlen : x.data.mFifo.length < NoSize) :
    (∀ msg usage now, (TimeLimitFifo α dur maxSize).accept (msg, usage) now x.data = some (some ⟨msg, now.pushed⟩) ↔
      (maxSize.toNat = 0 ∨ x.data.mFifo.length < maxSize.toNat) ∧ (usage = .InternalElement ∨
        (TimeLimitFifo.unreservedMaxSize maxSize = 0 ∨
          x.data.mFifo.length < TimeLimitFifo.unreservedMaxSize maxSize) ∧
        (usage = .IgnoreTimeDepth ∨ dur.toNat = 0 ∨
          ∀ tm ∈ x.data.mFifo, now.checked - tm.mTime < dur.toNat))) ∧
      ∀ o e now, (TimeLimitFifo α dur maxSize).monitor.turn o e now x.data ≠ .fails := by
  have hb := TimeLimitFifo_sized ⟨es, hr⟩
  have hsize : x.data.mSize = x.data.mFifo.length := by
    have hsized := hb.size
    rw [Sized] at hsized
    rw [NoSize] at hlen
    omega
  have hsorted : (x.data.mFifo.map (·.mTime)).Pairwise (· ≤ ·) :=
    (List.pairwise_map.mpr hclock).sublist (TimeLimitFifo_times hr)
  refine ⟨fun msg usage now => ?_, fun o e now => hb.size.turn_ends hlen ?_⟩
  · have haccept : TimeLimitFifo.wouldAcceptInteral _ _ usage now x.data = some true ↔ _ :=
      wouldAcceptInteral_iff dur.toNat (TimeLimitFifo.unreservedMaxSize maxSize) hsize hsorted
    rw [hb.max, Nat.cast_eq_zero] at haccept
    rw [← haccept]
    constructor
    · intro h
      exact (TimeLimitFifo_admits h).2
    · intro h
      change Option.map _ (TimeLimitFifo.wouldAcceptInteral _ _ usage now x.data) = _
      rw [h]
      rfl
  · intro a h
    exact wouldAcceptInteral_ends hsize (Option.map_eq_none_iff.mp h)

def stamped : Threads (AbstractFifo (Timestamped ℕ)) ℕ (FifoCall (ℕ × DepthUsage)) Unit (FifoResult (Timestamped ℕ)) :=
  ⟨⟨[⟨7, 100⟩], 1, 10⟩, [], [], [⟨1, .add (7, .EnforceTimeDepth), .added (some ⟨7, 100⟩)⟩]⟩

lemma stamped_run : Run (Step (TimeLimitFifo ℕ 5 10).monitor fun _ _ _ => True) (start (new 10))
    [.call 1 (.add (7, .EnforceTimeDepth)) ⟨100, 100, 0⟩] stamped :=
  Run.cons (.call (by simp [start]) (by simp [start]) trivial (.returned (.nobody (by simp [start])))) .nil

theorem TimeLimitFifo_admits_iff_stamped :
    (∀ msg usage now, (TimeLimitFifo ℕ 5 10).accept (msg, usage) now stamped.data = some (some ⟨msg, now.pushed⟩) ↔
      ((10 : UInt32).toNat = 0 ∨ stamped.data.mFifo.length < (10 : UInt32).toNat) ∧ (usage = .InternalElement ∨
        (TimeLimitFifo.unreservedMaxSize 10 = 0 ∨
          stamped.data.mFifo.length < TimeLimitFifo.unreservedMaxSize 10) ∧
        (usage = .IgnoreTimeDepth ∨ (5 : UInt32).toNat = 0 ∨
          ∀ tm ∈ stamped.data.mFifo, now.checked - tm.mTime < (5 : UInt32).toNat))) ∧
      ∀ o e now, (TimeLimitFifo ℕ 5 10).monitor.turn o e now stamped.data ≠ .fails :=
  TimeLimitFifo_admits_iff stamped_run (by simp [Event.input]) (by simp [stamped, NoSize])

def usages (log : List (Return τ (FifoCall (α × DepthUsage)) (FifoResult (Timestamped α)))) : List DepthUsage :=
  log.flatMap fun r =>
    match r.call, r.result with
    | .add a, .added (some _) => [a.2]
    | _, _ => []

lemma usages_snoc (log : List (Return τ (FifoCall (α × DepthUsage)) (FifoResult (Timestamped α))))
    (last : Return τ (FifoCall (α × DepthUsage)) (FifoResult (Timestamped α))) :
    usages (log ++ [last]) = usages log ++ usages [last] := by
  rw [usages, List.flatMap_append]
  rfl

lemma usages_other {t : τ} {o : FifoCall (α × DepthUsage)} {r : FifoResult (Timestamped α)}
    (h : ∀ m, r ≠ .added (some m)) :
    usages [(⟨t, o, r⟩ : Return τ (FifoCall (α × DepthUsage)) (FifoResult (Timestamped α)))] = [] := by
  cases r with
  | added m =>
    cases m with
    | none => cases o <;> rfl
    | some m => exact absurd rfl (h m)
  | _ => cases o <;> rfl

def queued (log : List (Return τ (FifoCall (α × DepthUsage)) (FifoResult (Timestamped α)))) : List DepthUsage :=
  (usages log).drop (removed log).length

def external (u : DepthUsage) : Bool := u ≠ .InternalElement

lemma TimeLimitFifo_unreserved {m : Timestamped α} (hu : external usage = true)
    (ha : (TimeLimitFifo α dur maxSize).accept (msg, usage) now f = some (some m))
    (hun : TimeLimitFifo.unreservedMaxSize maxSize ≠ 0) : f.mSize < TimeLimitFifo.unreservedMaxSize maxSize := by
  have haccepts := (TimeLimitFifo_admits ha).2
  rw [external, decide_eq_true_eq] at hu
  rw [TimeLimitFifo.wouldAcceptInteral, if_neg hu] at haccepts
  split at haccepts
  · cases haccepts
  · split at haccepts
    · cases haccepts
    · next hroom => exact Nat.lt_of_not_le fun hle => hroom ⟨hun, hle⟩

lemma TimeLimitFifo_external (h : Reachable (TimeLimitFifo α dur maxSize) allowed maxSize x)
    (hun : TimeLimitFifo.unreservedMaxSize maxSize ≠ 0) (hmax : maxSize.toNat ≠ 0) :
    (queued x.log).length = x.data.mFifo.length ∧
      (queued x.log).countP external ≤ TimeLimitFifo.unreservedMaxSize maxSize := by
  obtain ⟨es, hr⟩ := h
  have hall := run_turns (J := fun _ log f => Bounded (· ≠ 0) maxSize f ∧
    (usages log).length = (removed log).length + f.mFifo.length ∧
    (queued log).countP external ≤ TimeLimitFifo.unreservedMaxSize maxSize) ?_ ?_ ?_ hr
  · refine ⟨?_, hall.2.2⟩
    rw [queued, List.length_drop, hall.2.1]
    omega
  · exact ⟨⟨rfl, rfl, fun _ => Nat.zero_le _⟩, rfl, Nat.zero_le _⟩
  · rintro is log f t o e now r f' signal ⟨hb, hlen, hcount⟩ hturn
    refine ⟨hb.returns TimeLimitFifo_exact (fun _ _ _ _ => TimeLimitFifo_room) hturn, ?_⟩
    rcases returns_cases hturn with ⟨⟨msg, u⟩, m, rfl, ha, rfl, rfl⟩ | ⟨m, rest, -, hf, -, rfl, rfl⟩ | ⟨rfl, rfl, rfl⟩ |
      ⟨-, hadd, hnext, hdel, rfl⟩
    · have hmore : queued (log ++ [⟨t, .add (msg, u), .added (some m)⟩]) = queued log ++ [u] := by
        rw [queued, usages_snoc, removed_snoc, removed_other (by simp) (by simp), List.append_nil,
          List.drop_append_of_le_length (by omega)]
        rfl
      have hqueued : (queued log).length = f.mFifo.length := by
        rw [queued, List.length_drop]
        omega
      refine ⟨?_, ?_⟩
      · rw [usages_snoc, removed_snoc, removed_other (by simp) (by simp), List.append_nil, List.length_append, hlen]
        change _ = _ + (f.mFifo ++ [m]).length
        rw [List.length_append]
        rfl
      · rw [hmore, List.countP_append, List.countP_singleton]
        split
        · next hu =>
          have hroom := TimeLimitFifo_unreserved hu ha hun
          have hle : (queued log).countP external ≤ (queued log).length := List.countP_le_length
          rw [hb.size_eq hmax] at hroom
          omega
        · exact hcount
    · rw [hf, List.length_cons] at hlen
      rw [queued, usages_snoc, usages_other (by simp), List.append_nil, removed_snoc, List.length_append]
      refine ⟨by simpa [removed, Nat.add_assoc, Nat.add_comm 1] using hlen, ?_⟩
      rw [← List.drop_drop]
      exact ((List.drop_sublist _ _).countP_le).trans hcount
    · have hall : (removed (log ++ [⟨t, .clear, .deleted f.mFifo⟩])).length = (removed log).length + f.mFifo.length := by
        rw [removed_snoc, List.length_append]
        simp [removed]
      rw [queued, usages_snoc, usages_other (by simp), List.append_nil]
      refine ⟨hlen.trans hall.symm, ?_⟩
      change (List.drop (removed (log ++ [⟨t, .clear, .deleted f.mFifo⟩])).length _).countP _ ≤ _
      rw [hall, ← hlen, List.drop_length]
      exact Nat.zero_le _
    · rw [queued, usages_snoc, removed_snoc, usages_other hadd, removed_other hnext hdel, List.append_nil,
        List.append_nil]
      exact ⟨hlen, hcount⟩
  · intro is log f o e now c f' hf hturn
    rw [waits_cases hturn]
    exact hf

theorem TimeLimitFifo_reserved (h : Reachable (TimeLimitFifo α dur maxSize) allowed maxSize x)
    (hun : TimeLimitFifo.unreservedMaxSize maxSize ≠ 0) :
    x.data.mFifo.length ≤ maxSize.toNat ∧ (queued x.log).length = x.data.mFifo.length ∧
      (queued x.log).countP external ≤ TimeLimitFifo.unreservedMaxSize maxSize ∧
      ((queued x.log).countP (!external ·) + TimeLimitFifo.unreservedMaxSize maxSize < maxSize.toNat →
        ∀ msg now, (TimeLimitFifo α dur maxSize).accept (msg, .InternalElement) now x.data =
          some (some ⟨msg, now.pushed⟩)) := by
  have hmax : maxSize.toNat ≠ 0 := by
    intro hzero
    rw [← UInt32.toNat_zero, UInt32.toNat_inj] at hzero
    exact hun (by rw [hzero]; rfl)
  have hb := TimeLimitFifo_sized h
  obtain ⟨hlen, hcount⟩ := TimeLimitFifo_external h hun hmax
  refine ⟨hb.length hmax, hlen, hcount, fun hfits msg now => ?_⟩
  have hsplit : (queued x.log).length = (queued x.log).countP external + (queued x.log).countP (!external ·) := by
    rw [List.length_eq_countP_add_countP external]
    congr 2
    funext u
    cases external u <;> rfl
  have hroom : ¬(x.data.mMaxSize ≠ 0 ∧ x.data.mMaxSize ≤ x.data.mSize) := by
    rintro ⟨-, hfull⟩
    rw [hb.max, hb.size_eq hmax, ← hlen, hsplit] at hfull
    omega
  change Option.map _ (TimeLimitFifo.wouldAcceptInteral _ _ _ now x.data) = _
  rw [TimeLimitFifo.wouldAcceptInteral, if_neg hroom, if_pos rfl]
  rfl

theorem TimeLimitFifo_reserved_stamped :
    stamped.data.mFifo.length ≤ (10 : UInt32).toNat ∧ (queued stamped.log).length = stamped.data.mFifo.length ∧
      (queued stamped.log).countP external ≤ TimeLimitFifo.unreservedMaxSize 10 ∧
      ((queued stamped.log).countP (!external ·) + TimeLimitFifo.unreservedMaxSize 10 < (10 : UInt32).toNat →
        ∀ msg now, (TimeLimitFifo ℕ 5 10).accept (msg, .InternalElement) now stamped.data =
          some (some ⟨msg, now.pushed⟩)) :=
  TimeLimitFifo_reserved ⟨_, stamped_run⟩ (by decide)

end TimeLimit

end FifoClass

end Xframe.Comserv
