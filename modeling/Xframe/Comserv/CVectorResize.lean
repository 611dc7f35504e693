import Xframe.Comserv.CVectorRefines

/-! `resize(newSize, value)` and the constructors of `cvector.h`. The header says that both size and count are
`newSize` afterwards and that the new elements have the value. -/

namespace Xframe.Comserv

open Xframe.Lib

variable {V : Type}

namespace CVector

def growValue (value : V) : ℕ → ℕ → CVector V → Option (CVector V)
  | 0, _, v => some v
  | n + 1, i, v => do
    let v ← v.putNew i value
    growValue value n (i + 1) v

def resizeValue (v : CVector V) (newSize : ℕ) (value : V) : Option (CVector V) := do
  let v ← (if v.size < newSize then
      (growValue value (newSize - v.size) v.size v).map fun v => { v with size := newSize, count := newSize }
    else some v)
  some (if newSize < v.count then { v with count := newSize } else v)

/-- `unset` is what `new TValue` leaves in the object. -/
inductive Ctor (V : Type) where
  | empty (unset : V)
  | sized (initsize : ℕ) (unset : V)
  | valued (initsize : ℕ) (initvalue : V)

def construct : Ctor V → Option (CVector V)
  | .empty unset => some (new unset)
  | .sized initsize unset => (new unset).resize initsize
  | .valued initsize initvalue => (new initvalue).resizeValue initsize initvalue

inductive Call (V : Type) where
  | op (o : Op V)
  | resizeValue (newSize : ℕ) (value : V)

def call (v : CVector V) : Call V → Option (Ret V × CVector V)
  | .op o => v.exec o
  | .resizeValue newSize value => (v.resizeValue newSize value).map fun v => (.done, v)

def runFrom (c : Ctor V) (calls : List (Call V)) : Option (List (Ret V) × CVector V) :=
  construct c >>= fun v => runCalls call v calls

end CVector

namespace Filled

def resizeValue (s : Filled V) (n : ℕ) (value : V) : Filled V where
  slots := s.slots ++ List.replicate (n - s.slots.length) value
  count := if s.slots.length < n then n else min s.count n
  default := s.default
  count_le := by
    have hle := s.count_le
    rw [List.length_append, List.length_replicate]
    split_ifs <;> omega

def construct : CVector.Ctor V → Filled V
  | .empty unset => new unset
  | .sized initsize unset => (new unset).resize initsize
  | .valued initsize initvalue => (new initvalue).resizeValue initsize initvalue

def call (s : Filled V) : CVector.Call V → CVector.Ret V × Filled V
  | .op o => s.step o
  | .resizeValue newSize value => (.done, s.resizeValue newSize value)

lemma resizeValue_of_lt {s : Filled V} {n : ℕ} (h : s.slots.length < n) (value : V) : (s.resizeValue n value).count = n :=
  if_pos h

lemma resizeValue_of_le {s : Filled V} {n : ℕ} (h : n ≤ s.slots.length) (value : V) :
    (s.resizeValue n value).slots = s.slots ∧ (s.resizeValue n value).count = min s.count n := by
  refine ⟨?_, if_neg (Nat.not_lt.mpr h)⟩
  change s.slots ++ List.replicate (n - s.slots.length) value = s.slots
  rw [Nat.sub_eq_zero_of_le h, List.replicate_zero, List.append_nil]

end Filled

namespace CVector

variable {v v' : CVector V} {f : Filled V} {slots : List (VecSlot V)} {default : V}

lemma growValue_spec (h : v.Holds 0 slots default) (n : ℕ) (value : V) : Returns (growValue value n slots.length v) fun v' =>
    (∃ new : List (VecSlot V), new.map VecSlot.value = List.replicate n value ∧ v'.Holds 0 (slots ++ new) default) ∧
      v'.count = v.count ∧ v'.size = v.size :=
  fill_spec (fun _ _ => rfl) (fun _ _ _ _ _ => rfl) h n

lemma resizeValue_spec (h : v.Stands f) (n : ℕ) (value : V) :
    Returns (v.resizeValue n value) fun v' => v'.Stands (f.resizeValue n value) := by
  have hlen := h.size
  obtain ⟨slots, hs, hh, hsize, hcount⟩ := id h
  rw [resizeValue]
  by_cases hlt : v.size < n
  · rw [if_pos hlt, hsize]
    refine ((growValue_spec hh (n - slots.length) value).map (P := fun v' => v'.count = n ∧ v'.Stands (f.resizeValue n value))
      ?_).bind ?_
    · rintro v₁ ⟨⟨new, hnew, h₁⟩, -, -⟩
      have hnewlen : new.length = n - slots.length := by
        rw [← List.length_map VecSlot.value, hnew, List.length_replicate]
      refine ⟨rfl, slots ++ new, ?_, ⟨h₁.ht, h₁.entries, h₁.values⟩, ?_, ?_⟩
      · rw [List.map_append, hs, hnew, ← hsize, hlen]
        rfl
      · rw [List.length_append, hnewlen]
        change n = _
        omega
      · exact (Filled.resizeValue_of_lt (hlen ▸ hlt) value).symm
    · rintro v₁ ⟨hc₁, h₁⟩
      rw [if_neg (by omega), returns_some]
      exact h₁
  · obtain ⟨hslots, hc⟩ := Filled.resizeValue_of_le (hlen ▸ Nat.not_lt.mp hlt) value
    rw [if_neg hlt, Option.bind_eq_bind, Option.bind_some, returns_some]
    split_ifs with hless
    · refine ⟨slots, hs.trans hslots.symm, ⟨hh.ht, hh.entries, hh.values⟩, hsize, ?_⟩
      rw [hc, ← hcount]
      exact (Nat.min_eq_right (Nat.le_of_lt hless)).symm
    · refine ⟨slots, hs.trans hslots.symm, hh, hsize, ?_⟩
      rw [hc, ← hcount, Nat.min_eq_left (Nat.not_lt.mp hless)]

lemma construct_spec (c : Ctor V) : Returns (construct c) fun v => v.Stands (.construct c) := by
  cases c with
  | empty unset => exact (returns_some _ _).mpr (stands_new unset)
  | sized initsize unset => exact resize_spec (stands_new unset) initsize
  | valued initsize initvalue => exact resizeValue_spec (stands_new initvalue) initsize initvalue

lemma call_stands (h : v.Stands f) (o : Call V) : Returns (v.call o) fun (r, v') =>
    r = (f.call o).1 ∧ v'.Stands (f.call o).2 := by
  cases o with
  | op o => exact exec_stands h o
  | resizeValue n value => exact (resizeValue_spec h n value).map fun v' h' => ⟨rfl, h'⟩

lemma runFrom_stands (c : Ctor V) (calls : List (Call V)) : Returns (runFrom c calls) fun (rs, v) =>
    rs = (runSteps Filled.call (.construct c) calls).1 ∧ v.Stands (runSteps Filled.call (.construct c) calls).2 :=
  (construct_spec c).bind fun _ h => runCalls_refines Stands (fun _ _ o h => call_stands h o) h calls

structure Resized (v v' : CVector V) (newSize : ℕ) (value : V) : Prop where
  count : v'.count = newSize
  kept : ∀ i < v.count, i < newSize → v'.read i = v.read i
  valued : ∀ i, v.count ≤ i → i < newSize → v'.read i = some value

lemma read_inside (h : v.Stands f) {i : ℕ} (hi : i < f.slots.length) : v.read i = f.slots[i]? := by
  rw [read_spec h, List.getD_eq_getElem?_getD, List.getElem?_eq_getElem hi, Option.getD_some]

lemma read_resizeValue (h : v.Stands f) {n : ℕ} {value : V} (h' : v'.Stands (f.resizeValue n value)) {i : ℕ} :
    (i < v.size → v'.read i = v.read i) ∧ (v.size ≤ i → i < n → v'.read i = some value) := by
  have hsize := h.size
  have hslots : (f.resizeValue n value).slots = f.slots ++ List.replicate (n - f.slots.length) value := rfl
  have hlen : (f.resizeValue n value).slots.length = f.slots.length + (n - f.slots.length) := by
    rw [hslots, List.length_append, List.length_replicate]
  constructor
  · intro hi
    rw [read_inside h' (by omega), read_inside h (by omega), hslots, List.getElem?_append_left (by omega)]
  · intro hi hn
    rw [read_inside h' (by omega), hslots, List.getElem?_append_right (by omega), List.getElem?_replicate, if_pos (by omega)]

lemma resized_iff (h : v.Stands f) {n : ℕ} {value : V} (h' : v'.Stands (f.resizeValue n value)) :
    v.Resized v' n value ↔
      n ≤ v.count ∨ v.size < n ∧ ∀ i, v.count ≤ i → i < v.size → v.read i = some value := by
  have hsize := h.size
  have hcount := h.count
  have hle := f.count_le
  have hread := fun i => read_resizeValue h h' (i := i)
  constructor
  · intro hr
    rcases Nat.lt_or_ge v.size n with hlt | hge
    · refine Or.inr ⟨hlt, fun i hc hi => ?_⟩
      rw [← (hread i).1 hi]
      exact hr.valued i hc (by omega)
    · have hc : v'.count = min f.count n := h'.count.trans (Filled.resizeValue_of_le (hsize ▸ hge) value).2
      have heq := hr.count
      exact Or.inl (by omega)
  · rintro (hn | ⟨hlt, hstale⟩)
    · have hc : v'.count = min f.count n := h'.count.trans (Filled.resizeValue_of_le (by omega) value).2
      refine ⟨by omega, fun i hi _ => (hread i).1 (by omega), fun i hi hin => by omega⟩
    · refine ⟨?_, fun i hi _ => (hread i).1 (by omega), fun i hi hin => ?_⟩
      · exact h'.count.trans (Filled.resizeValue_of_lt (hsize ▸ hlt) value)
      · rcases Nat.lt_or_ge i v.size with hi' | hi'
        · rw [(hread i).1 hi']
          exact hstale i hi hi'
        · exact (hread i).2 hi' hin

theorem resizeValue_documented_iff (c : Ctor V) (calls : List (Call V)) (n : ℕ) (value : V) :
    Returns (runFrom c calls) fun (_, v) => Returns (v.resizeValue n value) fun v' =>
      (v.Resized v' n value ↔
        n ≤ v.count ∨ v.size < n ∧ ∀ i, v.count ≤ i → i < v.size → v.read i = some value) := by
  refine (runFrom_stands c calls).mono ?_
  rintro ⟨rs, v⟩ ⟨-, h⟩
  exact (resizeValue_spec h n value).mono fun v' h' => resized_iff h h'

theorem resizeValue_within_size_keeps_count :
    Returns (runFrom (.sized 2 0) []) fun (_, v) => Returns (v.resizeValue 1 7) fun v' =>
      v'.count = 0 ∧ ¬ v.Resized v' 1 7 := by
  refine (runFrom_stands (.sized 2 0) []).mono ?_
  rintro ⟨rs, v⟩ ⟨-, h⟩
  refine (resizeValue_spec h 1 7).mono fun v' h' => ?_
  have hc : v'.count = 0 := h'.count
  refine ⟨hc, fun hr => ?_⟩
  have hone := hr.count
  omega

end CVector

end Xframe.Comserv
