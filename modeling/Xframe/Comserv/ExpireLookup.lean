import Xframe.Comserv.ExpireMap

/-! Looking values up in an ordered map while it changes: a value stays the same for as long as its key
is there. -/

namespace Xframe.Comserv.ExpireMap

variable {K V : Type} [DecidableEq K]

def lookup (m : ExpireMap K V) (key : K) : Option V := (m.find key).map ExpireValue.value

lemma lookup_eq_some {m : ExpireMap K V} {key : K} {x : V} :
    m.lookup key = some x ↔ ∃ v ∈ m.entries, v.key = key ∧ v.value = x := by
  simp only [lookup, Option.map_eq_some_iff, find_eq_some, and_assoc]

lemma lookup_eq_none {m : ExpireMap K V} {key : K} : m.lookup key = none ↔ m.find key = none :=
  Option.map_eq_none_iff

lemma lookup_of_entries {m n : ExpireMap K V} {key : K} {x : V} (hn : n.lookup key = some x)
    (h : ∀ w ∈ n.entries, w.key = key → ∃ v ∈ m.entries, v.key = key ∧ v.value = w.value) :
    m.lookup key = some x := by
  obtain ⟨w, hw, hk, rfl⟩ := lookup_eq_some.mp hn
  exact lookup_eq_some.mpr (h w hw hk)

lemma lookup_of_popOld {m : ExpireMap K V} {key : K} {x : V} {t : ℤ}
    (h : (m.popOld t).lookup key = some x) : m.lookup key = some x :=
  lookup_of_entries h fun w hw hk => ⟨w, (List.dropWhile_sublist _).subset hw, hk, rfl⟩

lemma lookup_of_update {m : ExpireMap K V} {key k : K} {x : V} {t now : ℤ}
    (h : (m.step (.update k t now)).2.lookup key = some x) : m.lookup key = some x := by
  refine lookup_of_entries h fun w hw hk => ?_
  rw [step] at hw
  cases hf : m.find k with
  | none =>
    rw [hf] at hw
    exact ⟨w, hw, hk, rfl⟩
  | some v =>
    rw [hf] at hw
    rw [refresh_entries, List.mem_append, List.mem_singleton] at hw
    rcases hw with hw | rfl
    · exact ⟨w, List.mem_of_mem_filter hw, hk, rfl⟩
    · exact ⟨v, (find_eq_some.mp hf).1, hk, rfl⟩

lemma lookup_push {m : ExpireMap K V} (hmax : m.countMax = 0) (k : K) (y : V) (now : ℤ) (key : K) :
    (m.push k y now).2.lookup key =
      if key = k ∧ m.lookup key = none then some y else m.lookup key := by
  rw [push]
  by_cases hk : (m.find k).isSome
  · rw [if_pos hk, if_neg]
    rintro ⟨rfl, hn⟩
    rw [lookup_eq_none] at hn
    simp [hn] at hk
  · have hn := Option.not_isSome_iff_eq_none.mp hk
    rw [if_neg hk, if_neg (by simp [hmax])]
    dsimp only
    rw [if_neg (by simp [hmax]), lookup, find, snoc_entries (v := .new k y now) hn, List.find?_append]
    by_cases he : key = k
    · subst he
      have : m.lookup key = none := lookup_eq_none.mpr hn
      rw [if_pos ⟨rfl, this⟩]
      rw [find] at hn
      simp [hn, ExpireValue.new]
    · rw [if_neg fun h => he h.1, lookup, find]
      cases m.entries.find? fun v => v.key = key <;> simp [ExpireValue.new, Ne.symm he]

omit [DecidableEq K] in
@[simp] lemma popOld_countMax (m : ExpireMap K V) (t : ℤ) : (m.popOld t).countMax = m.countMax := rfl

@[simp] lemma push_countMax (m : ExpireMap K V) (k : K) (y : V) (now : ℤ) :
    (m.push k y now).2.countMax = m.countMax := by
  rw [push]
  dsimp only
  split_ifs <;> rfl

@[simp] lemma update_countMax (m : ExpireMap K V) (k : K) (t now : ℤ) :
    (m.step (.update k t now)).2.countMax = m.countMax := by
  rw [step]
  split <;> rfl

@[simp] lemma lookup_modify (m : ExpireMap K V) (k : K) (f : V → V) (key : K) :
    (m.modify k f).lookup key = if key = k then (m.lookup key).map f else m.lookup key := by
  have hcond : ((fun v : ExpireValue K V => decide (v.key = key)) ∘ fun v : ExpireValue K V =>
      if v.key = k then { v with value := f v.value } else v) = fun v => decide (v.key = key) := by
    funext v
    simp only [Function.comp]
    split <;> rfl
  rw [lookup, find, modify, List.find?_map, hcond, lookup, find, Option.map_map]
  cases hf : m.entries.find? fun v => v.key = key with
  | none => simp
  | some v =>
    have hk : v.key = key := by simpa using List.find?_some hf
    by_cases he : key = k <;> simp [hk, he]

@[simp] lemma modify_countMax (m : ExpireMap K V) (k : K) (f : V → V) :
    (m.modify k f).countMax = m.countMax := rfl

omit [DecidableEq K] in
@[simp] lemma tail_countMax (m : ExpireMap K V) : m.tail.countMax = m.countMax := rfl

lemma lookup_tail {m : ExpireMap K V} {v : ExpireValue K V} {vs : List (ExpireValue K V)}
    (h : m.entries = v :: vs) (key : K) : m.tail.lookup key = if key = v.key then none else m.lookup key := by
  have hn := m.nodup
  rw [h, List.map_cons, List.nodup_cons] at hn
  have ht : m.tail.entries = vs := by simp [tail, h]
  by_cases he : key = v.key
  · subst he
    rw [if_pos rfl, lookup_eq_none, find, ht, List.find?_eq_none]
    intro w hw hk
    exact hn.1 (List.mem_map.mpr ⟨w, hw, by simpa using hk⟩)
  · rw [if_neg he, lookup, lookup, find, find, ht, h, List.find?_cons, decide_eq_false (Ne.symm he)]

lemma lookup_erase (m : ExpireMap K V) (k key : K) :
    (m.erase k).lookup key = if key = k then none else m.lookup key := by
  by_cases he : key = k
  · rw [if_pos he, he, lookup_eq_none]
    exact find_erase_self m k
  · rw [if_neg he]
    refine Option.ext fun x => ?_
    rw [lookup_eq_some, lookup_eq_some]
    constructor
    · rintro ⟨v, hv, hk, hx⟩
      exact ⟨v, List.mem_of_mem_filter hv, hk, hx⟩
    · rintro ⟨v, hv, hk, hx⟩
      exact ⟨v, List.mem_filter.mpr ⟨hv, by simpa [hk] using he⟩, hk, hx⟩

lemma lookup_snoc {m : ExpireMap K V} {v : ExpireValue K V} (h : m.lookup v.key = none) (key : K) :
    (m.snoc v).lookup key = if key = v.key then some v.value else m.lookup key := by
  rw [lookup_eq_none] at h
  rw [lookup, find, snoc_entries h, List.find?_append]
  by_cases he : key = v.key
  · rw [find] at h
    rw [if_pos he, he, h]
    simp
  · rw [if_neg he, lookup, find]
    cases m.entries.find? fun w => w.key = key <;> simp [Ne.symm he]

lemma lookup_update (m : ExpireMap K V) (k key : K) (t now : ℤ) :
    (m.step (.update k t now)).2.lookup key = m.lookup key := by
  rw [step]
  cases hf : m.find k with
  | none => rfl
  | some v =>
    have hk : v.key = k := (find_eq_some.mp hf).2
    have hnone : (m.erase k).lookup k = none := by rw [lookup_erase, if_pos rfl]
    dsimp only
    rw [refresh, lookup_snoc (by dsimp only; rw [hk]; exact hnone), lookup_erase]
    dsimp only
    rw [hk]
    by_cases he : key = k
    · rw [if_pos he, he, lookup, hf, Option.map_some]
    · rw [if_neg he, if_neg he]

def due (m : ExpireMap K V) (t : ℤ) : List K := (m.entries.takeWhile (m.expired t)).map ExpireValue.key

lemma lookup_popOld (m : ExpireMap K V) (t : ℤ) (key : K) :
    (m.popOld t).lookup key = if key ∈ m.due t then none else m.lookup key := by
  have hsplit := List.takeWhile_append_dropWhile (p := m.expired t) (l := m.entries)
  have hn := m.nodup
  rw [← hsplit, List.map_append, List.nodup_append] at hn
  by_cases hd : key ∈ m.due t
  · rw [if_pos hd, lookup_eq_none, find_eq_none]
    intro v hv hk
    exact hn.2.2 key hd v.key (List.mem_map_of_mem hv) hk.symm
  · rw [if_neg hd]
    refine Option.ext fun x => ?_
    rw [lookup_eq_some, lookup_eq_some]
    constructor
    · rintro ⟨v, hv, hk, hx⟩
      exact ⟨v, (List.dropWhile_sublist _).subset hv, hk, hx⟩
    · rintro ⟨v, hv, hk, hx⟩
      refine ⟨v, ?_, hk, hx⟩
      rw [← hsplit, List.mem_append] at hv
      rcases hv with hv | hv
      · exact absurd (hk ▸ List.mem_map_of_mem hv) hd
      · exact hv

def Full (m : ExpireMap K V) : Prop := 0 < m.countMax ∧ m.countMax ≤ m.entries.length

omit [DecidableEq K] in
lemma Full.ne_nil {m : ExpireMap K V} (h : m.Full) : m.entries ≠ [] := by
  obtain ⟨h1, h2⟩ := h
  exact List.ne_nil_of_length_pos (by omega)

lemma push_known {m : ExpireMap K V} {k : K} (h : (m.lookup k).isSome) (y : V) (now : ℤ) :
    m.push k y now = (0, m) := by
  rw [push, if_pos]
  rwa [lookup, Option.isSome_map] at h

lemma push_full {m : ExpireMap K V} (hf : m.Full) (hd : m.destroyOld = false) (k : K) (y : V) (now : ℤ) :
    m.push k y now = (0, m) := by
  rw [push, if_pos (c := ¬m.destroyOld ∧ _) ⟨by simp [hd], hf.1, hf.2⟩, ite_self]

lemma push_added {m : ExpireMap K V} {k : K} (hn : m.lookup k = none) (hf : ¬m.Full) (y : V) (now : ℤ) :
    m.push k y now = (1, m.snoc (.new k y now)) := by
  have hf' : ¬(0 < m.countMax ∧ m.countMax ≤ m.entries.length) := hf
  rw [lookup_eq_none] at hn
  rw [push, hn, if_neg (by simp), if_neg fun h => hf' h.2]
  dsimp only
  rw [snoc_entries (v := .new k y now) hn, List.length_append, List.length_singleton, if_neg (by omega)]

lemma push_evicted {m : ExpireMap K V} {k : K} (hn : m.lookup k = none) (hf : m.Full)
    (hd : m.destroyOld = true) (y : V) (now : ℤ) :
    m.push k y now = (2, (m.snoc (.new k y now)).tail) := by
  obtain ⟨hpos, hle⟩ := hf
  rw [lookup_eq_none] at hn
  rw [push, hn, if_neg (by simp), if_neg (by simp [hd])]
  dsimp only
  rw [snoc_entries (v := .new k y now) hn, List.length_append, List.length_singleton, if_pos (by omega)]

def limits (m : ExpireMap K V) : ℕ × Bool × ℕ := (m.countMax, m.destroyOld, m.livingTime)

lemma limits_push (m : ExpireMap K V) (k : K) (y : V) (now : ℤ) : (m.push k y now).2.limits = m.limits := by
  rw [push]
  dsimp only
  split_ifs <;> rfl

lemma limits_update (m : ExpireMap K V) (k : K) (t now : ℤ) :
    (m.step (.update k t now)).2.limits = m.limits := by
  rw [step]
  split <;> rfl

end Xframe.Comserv.ExpireMap
