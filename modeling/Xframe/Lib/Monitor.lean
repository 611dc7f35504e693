import Xframe.Lib.Run

/-! Monitors: objects whose calls run one at a time under a mutex and wait on conditions, where waiting gives
the mutex up. Threads come and go as they like, a wait may end without a signal, and who is woken and who gets
the mutex next is open. -/

namespace Xframe.Lib

inductive Signal (κ : Type) where
  | one (c : κ)
  | all (c : κ)

/-- What a call does from taking the mutex to giving it up. It `fails` where an assertion does. -/
inductive Turn (σ κ ρ : Type) where
  | returns (r : ρ) (s : σ) (signal : Option (Signal κ))
  | waits (c : κ) (s : σ)
  | fails

inductive Entry where
  | first
  | again (signaled : Bool)

namespace Entry

def timedOut : Entry → Bool
  | .again false => true
  | _ => false

def signaled : Entry → Bool
  | .again true => true
  | _ => false

lemma timedOut_signaled {e : Entry} (h : e.timedOut = true) : e.signaled = false := by
  cases e with
  | first => rfl
  | again b =>
    cases b with
    | false => rfl
    | true => cases h

end Entry

/-- `ι` is what a turn reads of the outside, such as the clock. -/
structure Monitor (σ ω κ ρ ι : Type) where
  turn : ω → Entry → ι → σ → Turn σ κ ρ
  timed : ω → Prop

structure Waiter (τ ω κ : Type) where
  thread : τ
  call : ω
  cond : κ

structure Ready (τ ω : Type) where
  thread : τ
  call : ω
  signaled : Bool

structure Return (τ ω ρ : Type) where
  thread : τ
  call : ω
  result : ρ

structure Threads (σ τ ω κ ρ : Type) where
  data : σ
  asleep : List (Waiter τ ω κ)
  ready : List (Ready τ ω)
  log : List (Return τ ω ρ)

section Waiting

variable {σ τ ω κ ρ : Type}

def Waiter.woken (w : Waiter τ ω κ) (signaled : Bool) : Ready τ ω := ⟨w.thread, w.call, signaled⟩

def Threads.waiting (p : ω → Bool) (x : Threads σ τ ω κ ρ) : ℕ :=
  x.asleep.countP (p ·.call) + x.ready.countP (p ·.call)

end Waiting

namespace Monitor

variable {σ τ ω κ ρ ι : Type}

inductive Wakes : Option (Signal κ) → List (Waiter τ ω κ) → List (Ready τ ω) → List (Waiter τ ω κ) →
    List (Ready τ ω) → Prop
  | none {asleep ready} : Wakes none asleep ready asleep ready
  | one {c asleep ready l w l'} : asleep = l ++ w :: l' → w.cond = c →
      Wakes (some (.one c)) asleep ready (l ++ l') (Waiter.woken w true :: ready)
  | nobody {c asleep ready} : (∀ w ∈ asleep, w.cond ≠ c) → Wakes (some (.one c)) asleep ready asleep ready
  | all {c asleep ready stay go} : asleep.Perm (stay ++ go) → (∀ w ∈ stay, w.cond ≠ c) → (∀ w ∈ go, w.cond = c) →
      Wakes (some (.all c)) asleep ready stay (go.map (Waiter.woken · true) ++ ready)

inductive After (t : τ) (o : ω) (x : Threads σ τ ω κ ρ) : Turn σ κ ρ → Threads σ τ ω κ ρ → Prop
  | returned {r s signal asleep ready} : Wakes signal x.asleep x.ready asleep ready →
      After t o x (.returns r s signal) ⟨s, asleep, ready, x.log ++ [⟨t, o, r⟩]⟩
  | waiting {c s} : After t o x (.waits c s) ⟨s, ⟨t, o, c⟩ :: x.asleep, x.ready, x.log⟩

inductive Event (τ ω ι : Type) where
  | call (t : τ) (o : ω) (i : ι)
  | resume (t : τ) (i : ι)
  | wake (t : τ)
  | timeout (t : τ)

def Event.input : Event τ ω ι → Option ι
  | .call _ _ i => some i
  | .resume _ i => some i
  | _ => none

/-- A thread has one call at a time, and `allowed` says which ones it may make after the calls that returned. A
timed wait that ends takes no signal with it, which POSIX would allow. -/
inductive Step (M : Monitor σ ω κ ρ ι) (allowed : List (Return τ ω ρ) → τ → ω → Prop) :
    Threads σ τ ω κ ρ → Event τ ω ι → Threads σ τ ω κ ρ → Prop
  | call {x y t o i} : (∀ w ∈ x.asleep, w.thread ≠ t) → (∀ w ∈ x.ready, w.thread ≠ t) → allowed x.log t o →
      After t o x (M.turn o .first i x.data) y → Step M allowed x (.call t o i) y
  | resume {x y l w l' i} : x.ready = l ++ w :: l' →
      After w.thread w.call { x with ready := l ++ l' } (M.turn w.call (.again w.signaled) i x.data) y →
      Step M allowed x (.resume w.thread i) y
  | wake {x l w l'} : x.asleep = l ++ w :: l' →
      Step M allowed x (.wake w.thread) { x with asleep := l ++ l', ready := Waiter.woken w true :: x.ready }
  | timeout {x l w l'} : x.asleep = l ++ w :: l' → M.timed w.call →
      Step M allowed x (.timeout w.thread) { x with asleep := l ++ l', ready := Waiter.woken w false :: x.ready }

def start (s : σ) : Threads σ τ ω κ ρ := ⟨s, [], [], []⟩

def Reached (M : Monitor σ ω κ ρ ι) (allowed : List (Return τ ω ρ) → τ → ω → Prop) (s : σ)
    (x : Threads σ τ ω κ ρ) : Prop := ∃ es, Run (Step M allowed) (start s) es x

variable {M : Monitor σ ω κ ρ ι} {allowed : List (Return τ ω ρ) → τ → ω → Prop} {s : σ} {x y : Threads σ τ ω κ ρ}
  {e : Event τ ω ι}

lemma Reached.step (h : Reached M allowed s x) (hs : Step M allowed x e y) : Reached M allowed s y := by
  obtain ⟨es, hrun⟩ := h
  exact ⟨es ++ [e], hrun.snoc hs⟩

/-- The rule for monitors: an invariant has to be kept by the turns, with the thread that takes its turn already
taken out of the ready ones, and by the threads that get out of a wait. -/
structure Keeps (M : Monitor σ ω κ ρ ι) (allowed : List (Return τ ω ρ) → τ → ω → Prop)
    (I : Threads σ τ ω κ ρ → Prop) : Prop where
  call : ∀ x y t o i, I x → allowed x.log t o → After t o x (M.turn o .first i x.data) y → I y
  resume : ∀ x y l w l' i, I x → x.ready = l ++ w :: l' →
    After w.thread w.call { x with ready := l ++ l' } (M.turn w.call (.again w.signaled) i x.data) y → I y
  out : ∀ x l w l' b, I x → x.asleep = l ++ w :: l' →
    I { x with asleep := l ++ l', ready := Waiter.woken w b :: x.ready }

lemma Keeps.step {I : Threads σ τ ω κ ρ → Prop} (h : Keeps M allowed I) (hx : I x) (hs : Step M allowed x e y) : I y := by
  cases hs with
  | call _ _ hallowed hafter => exact h.call _ _ _ _ _ hx hallowed hafter
  | resume hready hafter => exact h.resume _ _ _ _ _ _ hx hready hafter
  | wake hasleep => exact h.out _ _ _ _ true hx hasleep
  | timeout hasleep _ => exact h.out _ _ _ _ false hx hasleep

theorem Keeps.reached {I : Threads σ τ ω κ ρ → Prop} (h : Keeps M allowed I) (h0 : I (start s))
    (hr : Reached M allowed s x) : I x := by
  obtain ⟨es, hrun⟩ := hr
  exact hrun.invariant (I := fun _ => I) h0 fun _ _ _ _ hx hs => h.step hx hs

theorem run_turns {J : List ι → List (Return τ ω ρ) → σ → Prop} {es : List (Event τ ω ι)} (h0 : J [] [] s)
    (hret : ∀ is log f t o e i r f' signal, J is log f → M.turn o e i f = .returns r f' signal →
      J (is ++ [i]) (log ++ [⟨t, o, r⟩]) f')
    (hwait : ∀ is log f o e i c f', J is log f → M.turn o e i f = .waits c f' → J (is ++ [i]) log f')
    (hr : Run (Step M allowed) (start s) es x) : J (es.filterMap Event.input) x.log x.data := by
  have after : ∀ {is : List ι} {t : τ} {o : ω} {e : Entry} {i : ι} {x z y : Threads σ τ ω κ ρ}, z.data = x.data →
      z.log = x.log → J is x.log x.data → After t o z (M.turn o e i x.data) y → J (is ++ [i]) y.log y.data := by
    intro is t o e i x z y hdata hlog hx ha
    generalize hturn : M.turn o e i x.data = turn at ha
    cases ha with
    | returned _ =>
      rw [hlog]
      exact hret _ _ _ _ _ _ _ _ _ _ hx hturn
    | waiting =>
      rw [hlog]
      exact hwait _ _ _ _ _ _ _ _ hx hturn
  have hall := hr.invariant (I := fun (es : List (Event τ ω ι)) (x : Threads σ τ ω κ ρ) =>
    J (es.filterMap Event.input) x.log x.data) ?_ ?_
  · exact hall
  · exact h0
  · intro es x e y hx hs
    rw [List.filterMap_append]
    cases hs with
    | call _ _ _ ha => exact after rfl rfl hx ha
    | @resume _ l _ l' _ _ ha => exact after (z := { x with ready := l ++ l' }) rfl rfl hx ha
    | wake _ => exact (List.append_nil (es.filterMap Event.input)).symm ▸ hx
    | timeout _ _ => exact (List.append_nil (es.filterMap Event.input)).symm ▸ hx

lemma After.log_grows {t : τ} {o : ω} {turn : Turn σ κ ρ} (h : After t o x turn y) : ∃ new, y.log = x.log ++ new := by
  cases h with
  | returned _ => exact ⟨_, rfl⟩
  | waiting => exact ⟨[], (List.append_nil _).symm⟩

lemma Step.log_grows (h : Step M allowed x e y) : ∃ new, y.log = x.log ++ new := by
  cases h with
  | call _ _ _ ha => exact ha.log_grows
  | resume _ ha =>
    obtain ⟨new, hnew⟩ := ha.log_grows
    exact ⟨new, hnew⟩
  | wake _ => exact ⟨[], (List.append_nil _).symm⟩
  | timeout _ _ => exact ⟨[], (List.append_nil _).symm⟩

section Counting

variable {p : ω → Bool} {signal : Option (Signal κ)} {asleep asleep' : List (Waiter τ ω κ)} {ready ready' : List (Ready τ ω)}

lemma Wakes.count (h : Wakes signal asleep ready asleep' ready') (p : ω → Bool) :
    asleep'.countP (p ·.call) + ready'.countP (p ·.call) = asleep.countP (p ·.call) + ready.countP (p ·.call) := by
  cases h with
  | none => rfl
  | @one c _ _ l w l' hasleep _ =>
    subst hasleep
    simp only [List.countP_append, List.countP_cons, Waiter.woken]
    omega
  | nobody => rfl
  | @all c _ _ stay go hperm _ _ =>
    rw [hperm.countP_eq, List.countP_append, List.countP_append, List.countP_map, Nat.add_assoc]
    rfl

lemma Wakes.mem_asleep (h : Wakes signal asleep ready asleep' ready') {w : Waiter τ ω κ} (hw : w ∈ asleep') :
    w ∈ asleep := by
  cases h with
  | none => exact hw
  | one hasleep _ =>
    subst hasleep
    rw [List.mem_append] at hw
    rw [List.mem_append, List.mem_cons]
    tauto
  | nobody _ => exact hw
  | all hperm _ _ => exact hperm.mem_iff.mpr (List.mem_append_left _ hw)

lemma Wakes.ready_mem (h : Wakes signal asleep ready asleep' ready') {w : Ready τ ω} (hw : w ∈ ready) : w ∈ ready' := by
  cases h with
  | none => exact hw
  | one _ _ => exact List.mem_cons_of_mem _ hw
  | nobody _ => exact hw
  | all _ _ _ => exact List.mem_append_right _ hw

lemma Wakes.mem_ready (h : Wakes signal asleep ready asleep' ready') {w : Ready τ ω} (hw : w ∈ ready') :
    w ∈ ready ∨ ∃ v ∈ asleep, w = v.woken true := by
  cases h with
  | none => exact Or.inl hw
  | @one c _ _ l v l' hasleep _ =>
    rcases List.mem_cons.mp hw with rfl | hw
    · exact Or.inr ⟨v, by simp [hasleep], rfl⟩
    · exact Or.inl hw
  | nobody _ => exact Or.inl hw
  | all hperm _ _ =>
    rcases List.mem_append.mp hw with hw | hw
    · obtain ⟨v, hv, rfl⟩ := List.mem_map.mp hw
      exact Or.inr ⟨v, hperm.mem_iff.mpr (List.mem_append_right _ hv), rfl⟩
    · exact Or.inl hw

lemma Wakes.one_woken {c : κ} (h : Wakes (some (.one c)) asleep ready asleep' ready') (hw : ∃ w ∈ asleep, w.cond = c) :
    ∃ w ∈ asleep, w.cond = c ∧ w.woken true ∈ ready' := by
  cases h with
  | @one _ _ _ l v l' hasleep hcond => exact ⟨v, by simp [hasleep], hcond, List.mem_cons_self ..⟩
  | nobody hnone =>
    obtain ⟨w, hw, hc⟩ := hw
    exact absurd hc (hnone w hw)

lemma Wakes.all_woken {c : κ} (h : Wakes (some (.all c)) asleep ready asleep' ready') : ∀ w ∈ asleep', w.cond ≠ c := by
  cases h with
  | all _ hstay _ => exact hstay

end Counting

end Monitor

end Xframe.Lib
