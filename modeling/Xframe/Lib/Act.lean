import Mathlib.Tactic

/-! Programs on a state. One that uses memory that is not its own has no result; one that throws has the
state it threw in. -/

namespace Xframe.Lib

inductive Outcome (α : Type) where
  | done (a : α)
  | thrown
  deriving DecidableEq

def Act (σ α : Type) : Type := σ → Option (Outcome α × σ)

namespace Act

variable {σ α β : Type}

def andThen (x : Act σ α) (f : α → Act σ β) : Act σ β := fun s =>
  match x s with
  | none => none
  | some (.thrown, s) => some (.thrown, s)
  | some (.done a, s) => f a s

instance : Monad (Act σ) where
  pure a := fun s => some (.done a, s)
  bind := andThen

lemma bind_apply (x : Act σ α) (f : α → Act σ β) (s : σ) : (x >>= f) s = andThen x f s := rfl

lemma andThen_assoc {γ : Type} (x : Act σ α) (f : α → Act σ β) (g : β → Act σ γ) :
    x >>= f >>= g = x >>= fun a => f a >>= g := by
  funext s
  change andThen (andThen x f) g s = andThen x (fun a => andThen (f a) g) s
  rw [andThen, andThen, andThen]
  match x s with
  | none => rfl
  | some (.thrown, _) => rfl
  | some (.done _, _) => rfl

lemma bind_done {x : Act σ α} {s t : σ} {a : α} (h : x s = some (.done a, t)) (f : α → Act σ β) : (x >>= f) s = f a t := by
  rw [bind_apply, andThen, h]

lemma bind_eq_done {x : Act σ α} {f : α → Act σ β} {s t : σ} {b : β} (h : (x >>= f) s = some (.done b, t)) :
    ∃ a u, x s = some (.done a, u) ∧ f a u = some (.done b, t) := by
  rw [bind_apply, andThen] at h
  match hx : x s with
  | none => simp [hx] at h
  | some (.thrown, u) => simp [hx] at h
  | some (.done a, u) =>
    rw [hx] at h
    exact ⟨a, u, rfl, h⟩

lemma pure_eq_done {a b : α} {s t : σ} (h : (pure a : Act σ α) s = some (.done b, t)) : a = b ∧ s = t := by
  obtain ⟨⟩ := h
  exact ⟨rfl, rfl⟩

def get : Act σ σ := fun s => some (.done s, s)

def put (s : σ) : Act σ Unit := fun _ => some (.done (), s)

def throw : Act σ α := fun s => some (.thrown, s)

def fault : Act σ α := fun _ => none

/-- From `s` the program has a result, and `Q` holds of it, or `E` if the program throws. -/
def Ends (x : Act σ α) (s : σ) (Q : α → σ → Prop) (E : σ → Prop) : Prop :=
  match x s with
  | none => False
  | some (.thrown, s) => E s
  | some (.done a, s) => Q a s

variable {x : Act σ α} {f : α → Act σ β} {s : σ} {Q Q' : α → σ → Prop} {R : β → σ → Prop} {E E' : σ → Prop}

lemma ends_pure {a : α} (h : Q a s) : Ends (pure a) s Q E := h

lemma ends_get {Q : σ → σ → Prop} (h : Q s s) : Ends get s Q E := h

lemma ends_put {t : σ} {Q : Unit → σ → Prop} (h : Q () t) : Ends (put t) s Q E := h

lemma ends_throw (h : E s) : Ends (throw : Act σ α) s Q E := h

lemma Ends.bind (hx : Ends x s Q E) (hf : ∀ a t, Q a t → Ends (f a) t R E) : Ends (x >>= f) s R E := by
  change match andThen x f s with
    | none => False
    | some (.thrown, s) => E s
    | some (.done a, s) => R a s
  rw [andThen]
  rw [Ends] at hx
  match hxs : x s with
  | none => simp [hxs] at hx
  | some (.thrown, t) => simpa [hxs] using hx
  | some (.done a, t) =>
    rw [hxs] at hx
    exact hf a t hx

lemma Ends.mono (hx : Ends x s Q E) (hQ : ∀ a t, Q a t → Q' a t) (hE : ∀ t, E t → E' t) : Ends x s Q' E' := by
  rw [Ends] at hx ⊢
  match hxs : x s with
  | none => simp [hxs] at hx
  | some (.thrown, t) =>
    rw [hxs] at hx
    exact hE t hx
  | some (.done a, t) =>
    rw [hxs] at hx
    exact hQ a t hx

lemma ends_of_done {a : α} {t : σ} (h : x s = some (.done a, t)) (hQ : Q a t) : Ends x s Q E := by
  rw [Ends, h]
  exact hQ

lemma Ends.of_done {a : α} {t : σ} (hx : Ends x s Q E) (h : x s = some (.done a, t)) : Q a t := by
  rw [Ends, h] at hx
  exact hx

lemma Ends.left {P : α → σ → Prop} (hx : Ends x s (fun a t => P a t ∧ Q a t) E) : Ends x s P E :=
  hx.mono (fun _ _ h => h.1) fun _ h => h

lemma Ends.done (hx : Ends x s Q fun _ => False) : ∃ a t, x s = some (.done a, t) ∧ Q a t := by
  rw [Ends] at hx
  match hxs : x s with
  | none => simp [hxs] at hx
  | some (.thrown, t) => simp [hxs] at hx
  | some (.done a, t) =>
    rw [hxs] at hx
    exact ⟨a, t, rfl, hx⟩

lemma Ends.some_state {I : σ → Prop} (hx : Ends x s (fun _ => I) I) : ∃ r, x s = some r ∧ I r.2 := by
  rw [Ends] at hx
  match hxs : x s with
  | none => simp [hxs] at hx
  | some (.thrown, t) =>
    rw [hxs] at hx
    exact ⟨_, rfl, hx⟩
  | some (.done a, t) =>
    rw [hxs] at hx
    exact ⟨_, rfl, hx⟩

end Act

end Xframe.Lib
