import Xframe.Lib.Returns
import Xframe.Lib.Walk

/-! A heap of typed cells. Address zero is the null pointer, `alloc` never reuses an address, and an
access to a cell that is not allocated has no result, so a run that has one touches live cells only. -/

namespace Xframe.Lib

structure Heap (ν : Type) where
  cells : ℕ → Option ν
  brk : ℕ
  brk_pos : 0 < brk
  null : cells 0 = none
  bound : ∀ p, brk ≤ p → cells p = none

namespace Heap

variable {ν : Type}

def empty : Heap ν := ⟨fun _ => none, 1, by decide, rfl, fun _ _ => rfl⟩

def alloc (h : Heap ν) (v : ν) : ℕ × Heap ν :=
  (h.brk, {
    cells := Function.update h.cells h.brk (some v)
    brk := h.brk + 1
    brk_pos := by omega
    null := by rw [Function.update_of_ne (by have := h.brk_pos; omega)]; exact h.null
    bound := fun p hp => by rw [Function.update_of_ne (by omega)]; exact h.bound p (by omega) })

def store (h : Heap ν) (p : ℕ) (v : ν) : Heap ν where
  cells := if (h.cells p).isSome then Function.update h.cells p (some v) else h.cells
  brk := h.brk
  brk_pos := h.brk_pos
  null := by
    split
    · rw [Function.update_of_ne (by rintro rfl; simp_all [h.null])]
      exact h.null
    · exact h.null
  bound q hq := by
    split
    · rw [Function.update_of_ne (by rintro rfl; simp_all [h.bound q hq])]
      exact h.bound q hq
    · exact h.bound q hq

def read (h : Heap ν) (p : ℕ) : Option ν := h.cells p

def modify (h : Heap ν) (p : ℕ) (f : ν → ν) : Option (Heap ν) :=
  (h.cells p).map fun v => h.store p (f v)

def release (h : Heap ν) (p : ℕ) : Heap ν where
  cells := Function.update h.cells p none
  brk := h.brk
  brk_pos := h.brk_pos
  null := by by_cases hp : 0 = p <;> simp [hp, h.null]
  bound q hq := by by_cases hp : q = p <;> simp [hp, h.bound q hq]

def free (h : Heap ν) (p : ℕ) : Option (Heap ν) :=
  (h.cells p).map fun _ => h.release p

lemma read_alloc (h : Heap ν) (v : ν) (q : ℕ) :
    (h.alloc v).2.read q = if q = h.brk then some v else h.read q := by
  change Function.update h.cells h.brk (some v) q = _
  by_cases hq : q = h.brk
  · rw [if_pos hq, hq, Function.update_self]
  · rw [if_neg hq, Function.update_of_ne hq]
    rfl

lemma read_store {h : Heap ν} {p : ℕ} {v : ν} (hp : h.read p = some v) (w : ν) (q : ℕ) :
    (h.store p w).read q = if q = p then some w else h.read q := by
  have hsome : (h.cells p).isSome := by
    rw [← read, hp]
    rfl
  rw [read, store]
  dsimp only
  rw [if_pos hsome]
  by_cases hq : q = p
  · rw [if_pos hq, hq, Function.update_self]
  · rw [if_neg hq, Function.update_of_ne hq]
    rfl

lemma read_free {h h' : Heap ν} {p : ℕ} (hf : h.free p = some h') (q : ℕ) :
    h'.read q = if q = p then none else h.read q := by
  obtain ⟨v, -, rfl⟩ := Option.map_eq_some_iff.mp hf
  change Function.update h.cells p none q = _
  by_cases hq : q = p
  · rw [if_pos hq, hq, Function.update_self]
  · rw [if_neg hq, Function.update_of_ne hq]
    rfl

lemma read_modify_none {h h' : Heap ν} {p q : ℕ} {f : ν → ν} (hm : h.modify p f = some h') (hq : h.read q = none) :
    h'.read q = none := by
  obtain ⟨v, hv, rfl⟩ := Option.map_eq_some_iff.mp hm
  rw [read_store hv, hq, ite_eq_right_iff]
  rintro rfl
  cases hv.symm.trans hq

lemma modify_spec {h : Heap ν} {p : ℕ} {v : ν} (hp : h.cells p = some v) (f : ν → ν) :
    ∃ h', h.modify p f = some h' ∧ h'.cells = Function.update h.cells p (some (f v)) ∧ h'.brk = h.brk := by
  refine ⟨h.store p (f v), by simp [modify, hp], ?_, rfl⟩
  simp [store, hp]

lemma free_spec {h : Heap ν} {p : ℕ} {v : ν} (hp : h.cells p = some v) :
    ∃ h', h.free p = some h' ∧ h'.cells = Function.update h.cells p none ∧ h'.brk = h.brk :=
  ⟨h.release p, by simp [free, hp], rfl, rfl⟩

lemma ext_cells {h h' : Heap ν} (hc : h.cells = h'.cells) (hb : h.brk = h'.brk) : h = h' := by
  cases h
  cases h'
  cases hc
  cases hb
  rfl

def map (h : Heap ν) (g : ν → ν) : Heap ν where
  cells p := (h.cells p).map g
  brk := h.brk
  brk_pos := h.brk_pos
  null := by rw [h.null, Option.map_none]
  bound p hp := by rw [h.bound p hp, Option.map_none]

lemma modify_map (h : Heap ν) {f k g : ν → ν} (hc : ∀ v, k (g v) = g (f v)) (p : ℕ) :
    (h.map g).modify p k = (h.modify p f).map fun h => h.map g := by
  rw [modify, modify, map]
  dsimp only
  cases hp : h.cells p with
  | none => rfl
  | some v =>
    rw [Option.map_some, Option.map_some, Option.map_some, Option.map_some, Option.some.injEq]
    refine ext_cells ?_ rfl
    funext q
    simp only [store, hp, Option.map_some, Option.isSome_some, if_true, map]
    by_cases hq : q = p
    · simp [hq, hc]
    · simp [hq]

lemma free_map (h : Heap ν) (g : ν → ν) (p : ℕ) : (h.map g).free p = (h.free p).map fun h => h.map g := by
  rw [free, free, map]
  dsimp only
  cases hp : h.cells p with
  | none => rfl
  | some v =>
    rw [Option.map_some, Option.map_some, Option.map_some, Option.map_some, Option.some.injEq]
    refine ext_cells ?_ rfl
    funext q
    by_cases hq : q = p
    · simp [release, map, hq]
    · simp [release, map, hq]

lemma alloc_map (h : Heap ν) (g : ν → ν) (v : ν) : ((h.map g).alloc (g v)).2 = (h.alloc v).2.map g := by
  refine ext_cells ?_ rfl
  funext q
  by_cases hq : q = h.brk
  · simp [alloc, map, hq]
  · simp [alloc, map, hq]

lemma brk_fresh (h : Heap ν) : h.cells h.brk = none := h.bound _ le_rfl

def links (h : Heap ν) (g : ν → ℕ) (p : ℕ) : Option ℕ := (h.cells p).map g

lemma links_update {h h' : Heap ν} {p : ℕ} {w : ν}
    (hc : h'.cells = Function.update h.cells p (some w)) (g : ν → ℕ) :
    h'.links g = Function.update (h.links g) p (some (g w)) := by
  funext q
  by_cases hq : q = p <;> simp [links, hc, hq]

lemma links_free {h h' : Heap ν} {p : ℕ} (hc : h'.cells = Function.update h.cells p none)
    (g : ν → ℕ) : h'.links g = Function.update (h.links g) p none := by
  funext q
  by_cases hq : q = p <;> simp [links, hc, hq]

lemma links_same {h h' : Heap ν} {p : ℕ} {v w : ν} (hp : h.cells p = some v)
    (hc : h'.cells = Function.update h.cells p (some w)) {g : ν → ℕ} (hg : g w = g v) :
    h'.links g = h.links g := by
  rw [links_update hc, hg]
  funext q
  by_cases hq : q = p <;> simp [links, hq, hp]

structure Later (h h' : Heap ν) : Prop where
  brk : h.brk ≤ h'.brk
  dead : ∀ p < h.brk, h.cells p = none → h'.cells p = none

section Later

variable {h h' h'' : Heap ν} {p : ℕ}

lemma Later.refl (h : Heap ν) : h.Later h := ⟨le_rfl, fun _ _ hp => hp⟩

lemma Later.trans (h₁ : h.Later h') (h₂ : h'.Later h'') : h.Later h'' :=
  ⟨h₁.brk.trans h₂.brk, fun p hp hc => h₂.dead p (hp.trans_le h₁.brk) (h₁.dead p hp hc)⟩

lemma lt_brk {v : ν} (hp : h.cells p = some v) : p < h.brk := by
  by_contra hle
  rw [h.bound p (Nat.le_of_not_lt hle)] at hp
  cases hp

lemma later_alloc (h : Heap ν) (v : ν) : h.Later (h.alloc v).2 :=
  ⟨Nat.le_succ _, fun _ hp hc => (Function.update_of_ne hp.ne _ _).trans hc⟩

lemma later_modify {f : ν → ν} (hm : h.modify p f = some h') : h.Later h' := by
  obtain ⟨v, hv, rfl⟩ := Option.map_eq_some_iff.mp hm
  refine ⟨le_rfl, fun q _ hq => (read_store hv _ q).trans ?_⟩
  rw [if_neg fun he => by rw [← he, hq] at hv; cases hv]
  exact hq

lemma later_free (hf : h.free p = some h') : h.Later h' := by
  have hread := read_free hf
  obtain ⟨v, -, rfl⟩ := Option.map_eq_some_iff.mp hf
  refine ⟨le_rfl, fun q _ hq => (hread q).trans ?_⟩
  split_ifs
  · rfl
  · exact hq

end Later

structure Owns (h : Heap ν) (l : List (ℕ × ν)) : Prop where
  nodup : (l.map Prod.fst).Nodup
  read : ∀ p v, h.read p = some v ↔ (p, v) ∈ l

namespace Owns

variable {h : Heap ν} {l r : List (ℕ × ν)} {p : ℕ} {v : ν}

lemma empty : (Heap.empty : Heap ν).Owns [] := ⟨List.nodup_nil, by simp [Heap.read, Heap.empty]⟩

lemma perm (ho : h.Owns l) (hp : l.Perm r) : h.Owns r :=
  ⟨(hp.map Prod.fst).nodup_iff.mp ho.nodup, fun p v => (ho.read p v).trans hp.mem_iff⟩

lemma alloc (ho : h.Owns l) (v : ν) : (h.alloc v).2.Owns ((h.brk, v) :: l) := by
  have hfresh : h.read h.brk = none := h.brk_fresh
  constructor
  · rw [List.map_cons, List.nodup_cons]
    refine ⟨?_, ho.nodup⟩
    rw [List.mem_map]
    rintro ⟨⟨p, w⟩, hmem, rfl⟩
    rw [(ho.read _ w).mpr hmem] at hfresh
    cases hfresh
  · intro p w
    rw [read_alloc, List.mem_cons, Prod.mk.injEq]
    split_ifs with hp
    · have hnot : (p, w) ∉ l := by
        intro hmem
        rw [(ho.read _ w).mpr (hp ▸ hmem)] at hfresh
        cases hfresh
      rw [Option.some.injEq]
      exact ⟨fun hv => Or.inl ⟨hp, hv.symm⟩, fun hv => (hv.resolve_right hnot).2.symm⟩
    · rw [ho.read]
      exact ⟨Or.inr, fun hv => hv.resolve_left fun hn => hp hn.1⟩

lemma other (ho : h.Owns (l ++ (p, v) :: r)) {q : ℕ} {w : ν} (hq : (q, w) ∈ l ++ r) : q ≠ p := by
  have hnodup := (List.perm_middle.map Prod.fst).nodup_iff.mp ho.nodup
  rw [List.map_cons, List.nodup_cons] at hnodup
  rintro rfl
  exact hnodup.1 (List.mem_map.mpr ⟨(q, w), hq, rfl⟩)

lemma modify (ho : h.Owns (l ++ (p, v) :: r)) (f : ν → ν) :
    Returns (h.modify p f) fun h' => h'.Owns (l ++ (p, f v) :: r) := by
  have hp : h.read p = some v := (ho.read p v).mpr (by simp)
  refine ⟨h.store p (f v), by rw [Heap.modify, show h.cells p = some v from hp]; rfl, ?_, fun q w => ?_⟩
  · rw [List.map_append, List.map_cons]
    have hnodup := ho.nodup
    rwa [List.map_append, List.map_cons] at hnodup
  · rw [read_store hp, List.perm_middle.mem_iff, List.mem_cons, Prod.mk.injEq]
    split_ifs with hq
    · rw [Option.some.injEq]
      refine ⟨fun hv => Or.inl ⟨hq, hv.symm⟩, ?_⟩
      rintro (⟨-, hv⟩ | hmem)
      · exact hv.symm
      · exact absurd hq (ho.other hmem)
    · rw [ho.read, List.perm_middle.mem_iff, List.mem_cons, Prod.mk.injEq]
      exact ⟨fun hv => Or.inr (hv.resolve_left fun hn => hq hn.1),
        fun hv => Or.inr (hv.resolve_left fun hn => hq hn.1)⟩

lemma free (ho : h.Owns (l ++ (p, v) :: r)) : Returns (h.free p) fun h' => h'.Owns (l ++ r) := by
  have hp : h.read p = some v := (ho.read p v).mpr (by simp)
  refine ⟨h.release p, by rw [Heap.free, show h.cells p = some v from hp]; rfl, ?_, fun q w => ?_⟩
  · have hnodup := (List.perm_middle.map Prod.fst).nodup_iff.mp ho.nodup
    rw [List.map_cons, List.nodup_cons] at hnodup
    exact hnodup.2
  · have hfree : h.free p = some (h.release p) := by rw [Heap.free, show h.cells p = some v from hp]; rfl
    rw [read_free hfree]
    split_ifs with hq
    · exact ⟨nofun, fun hmem => absurd hq (ho.other hmem)⟩
    · rw [ho.read, List.perm_middle.mem_iff, List.mem_cons, Prod.mk.injEq]
      exact ⟨fun hv => hv.resolve_left fun hn => hq hn.1, Or.inr⟩

lemma ne_zero (ho : h.Owns l) (hmem : (p, v) ∈ l) : p ≠ 0 := by
  rintro rfl
  have hnull : h.read 0 = none := h.null
  rw [(ho.read 0 v).mpr hmem] at hnull
  cases hnull

end Owns

end Heap

end Xframe.Lib
