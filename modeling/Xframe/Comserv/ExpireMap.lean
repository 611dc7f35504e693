import Xframe.Comserv.ExpireBuffer

/-! What an expiring buffer is for: a finite map from keys to values whose entries are listed in the
order of their last refresh, oldest first. -/

namespace Xframe.Comserv

structure ExpireMap (K V : Type) where
  entries : List (ExpireValue K V)
  countMax : ℕ
  destroyOld : Bool
  livingTime : ℕ
  nodup : (entries.map ExpireValue.key).Nodup

namespace ExpireMap

variable {K V : Type}

lemma ext_entries {m n : ExpireMap K V} (he : m.entries = n.entries) (hc : m.countMax = n.countMax)
    (hd : m.destroyOld = n.destroyOld) (hl : m.livingTime = n.livingTime) : m = n := by
  cases m
  cases n
  cases he
  cases hc
  cases hd
  cases hl
  rfl

def new (maxCount : ℕ) (destroyOld : Bool) (livingTime : ℕ) : ExpireMap K V :=
  ⟨[], maxCount, destroyOld, livingTime, List.nodup_nil⟩

def tail (m : ExpireMap K V) : ExpireMap K V :=
  { m with entries := m.entries.tail, nodup := m.nodup.sublist (m.entries.tail_sublist.map _) }

def dropLast (m : ExpireMap K V) : ExpireMap K V :=
  { m with entries := m.entries.dropLast, nodup := m.nodup.sublist (m.entries.dropLast_sublist.map _) }

def expired (m : ExpireMap K V) (oldtime : ℤ) (v : ExpireValue K V) : Bool :=
  (m.livingTime : ℤ) < oldtime - v.refreshtime

def popFrontOld (m : ExpireMap K V) (oldtime : ℤ) : Bool × ExpireMap K V :=
  match m.entries with
  | [] => (false, m)
  | v :: _ => if m.expired oldtime v then (true, m.tail) else (false, m)

def popOld (m : ExpireMap K V) (oldtime : ℤ) : ExpireMap K V :=
  { m with
    entries := m.entries.dropWhile (m.expired oldtime)
    nodup := m.nodup.sublist ((List.dropWhile_sublist _).map _) }

lemma popOld_cases (m : ExpireMap K V) (t : ℤ) :
    (m.popFrontOld t = (false, m) ∧ m.popOld t = m) ∨
      ((m.popFrontOld t).1 = true ∧ (m.popFrontOld t).2.entries.length + 1 = m.entries.length ∧
        m.popOld t = (m.popFrontOld t).2.popOld t) := by
  rw [popFrontOld]
  cases hm : m.entries with
  | nil => exact Or.inl ⟨rfl, ext_entries (by simp [popOld, hm]) rfl rfl rfl⟩
  | cons v vs =>
    cases he : m.expired t v with
    | false => exact Or.inl ⟨by simp [he], ext_entries (by simp [popOld, hm, he]) rfl rfl rfl⟩
    | true =>
      have hw : m.tail.entries = vs := by simp [tail, hm]
      have hd : m.entries.dropWhile (m.expired t) = m.tail.entries.dropWhile (m.expired t) := by
        rw [hw, hm, List.dropWhile_cons_of_pos he]
      dsimp only
      rw [if_pos he]
      exact Or.inr ⟨rfl, by simp [hw], ext_entries hd rfl rfl rfl⟩

section Keyed

variable [DecidableEq K]

def find (m : ExpireMap K V) (key : K) : Option (ExpireValue K V) :=
  m.entries.find? fun v => v.key = key

def erase (m : ExpireMap K V) (key : K) : ExpireMap K V :=
  { m with
    entries := m.entries.filter fun v => v.key ≠ key
    nodup := m.nodup.sublist (List.filter_sublist.map _) }

def snoc (m : ExpireMap K V) (v : ExpireValue K V) : ExpireMap K V where
  entries := if v.key ∈ m.entries.map ExpireValue.key then m.entries else m.entries ++ [v]
  countMax := m.countMax
  destroyOld := m.destroyOld
  livingTime := m.livingTime
  nodup := by
    split
    · exact m.nodup
    · rename_i h
      rw [List.map_append, List.nodup_append]
      refine ⟨m.nodup, by simp, ?_⟩
      rintro a ha b hb rfl
      simp only [List.map_cons, List.map_nil, List.mem_singleton] at hb
      exact h (hb ▸ ha)

def push (m : ExpireMap K V) (key : K) (value : V) (now : ℤ) : ℕ × ExpireMap K V :=
  if (m.find key).isSome then (0, m)
  else if ¬m.destroyOld ∧ 0 < m.countMax ∧ m.countMax ≤ m.entries.length then (0, m)
  else
    let m' := m.snoc (.new key value now)
    if 0 < m.countMax ∧ m.countMax < m'.entries.length then (2, m'.tail) else (1, m')

def refresh (m : ExpireMap K V) (v : ExpireValue K V) : ExpireMap K V :=
  (m.erase v.key).snoc v

def modify (m : ExpireMap K V) (key : K) (f : V → V) : ExpireMap K V where
  entries := m.entries.map fun v => if v.key = key then { v with value := f v.value } else v
  countMax := m.countMax
  destroyOld := m.destroyOld
  livingTime := m.livingTime
  nodup := by
    have h : (m.entries.map fun v : ExpireValue K V =>
        if v.key = key then { v with value := f v.value } else v).map ExpireValue.key =
          m.entries.map ExpireValue.key := by
      rw [List.map_map]
      refine List.map_congr_left fun v _ => ?_
      simp only [Function.comp]
      split <;> rfl
    rw [h]
    exact m.nodup

lemma find_eq_some {m : ExpireMap K V} {key : K} {v : ExpireValue K V} :
    m.find key = some v ↔ v ∈ m.entries ∧ v.key = key := by
  constructor
  · intro h
    exact ⟨List.mem_of_find?_eq_some h, by simpa using List.find?_some h⟩
  · rintro ⟨hv, rfl⟩
    obtain ⟨l, r, he⟩ := List.append_of_mem hv
    have hn := m.nodup
    rw [he, List.map_append, List.map_cons, List.nodup_append] at hn
    have hl : l.find? (fun w => w.key = v.key) = none := by
      rw [List.find?_eq_none]
      intro w hw hk
      exact hn.2.2 w.key (List.mem_map_of_mem hw) v.key (by simp) (by simpa using hk)
    rw [find, he, List.find?_append, hl]
    simp

lemma find_eq_none {m : ExpireMap K V} {key : K} :
    m.find key = none ↔ ∀ v ∈ m.entries, v.key ≠ key := by
  simp [find, List.find?_eq_none]

lemma mem_keys_iff {m : ExpireMap K V} {key : K} :
    key ∈ m.entries.map ExpireValue.key ↔ (m.find key).isSome := by
  rw [List.mem_map, Option.isSome_iff_exists]
  exact exists_congr fun v => by rw [find_eq_some]

lemma snoc_entries {m : ExpireMap K V} {v : ExpireValue K V} (h : m.find v.key = none) :
    (m.snoc v).entries = m.entries ++ [v] := by
  have : v.key ∉ m.entries.map ExpireValue.key := by
    rw [mem_keys_iff, h]
    simp
  simp only [snoc, if_neg this]

lemma find_erase_self (m : ExpireMap K V) (key : K) : (m.erase key).find key = none := by
  rw [find_eq_none]
  simp [erase]

lemma erase_middle {m : ExpireMap K V} {l r : List (ExpireValue K V)} {v : ExpireValue K V}
    (h : m.entries = l ++ v :: r) : (m.erase v.key).entries = l ++ r := by
  have hn := m.nodup
  rw [h, List.map_append, List.map_cons, List.nodup_append, List.nodup_cons] at hn
  obtain ⟨-, ⟨hr, -⟩, hd⟩ := hn
  have hl : l.filter (fun w => w.key ≠ v.key) = l := by
    rw [List.filter_eq_self]
    intro w hw
    simpa using hd w.key (List.mem_map_of_mem hw) v.key (by simp)
  have hr' : r.filter (fun w => w.key ≠ v.key) = r := by
    rw [List.filter_eq_self]
    intro w hw
    simpa using fun e : w.key = v.key => hr (e ▸ List.mem_map_of_mem hw)
  simp only [erase, h, List.filter_append, hl, List.filter_cons, hr', ne_eq, not_true_eq_false,
    decide_false, Bool.false_eq_true, if_false]

lemma erase_of_none {m : ExpireMap K V} {key : K} (h : m.find key = none) : m.erase key = m :=
  ext_entries (List.filter_eq_self.mpr fun v hv => by simpa using find_eq_none.mp h v hv) rfl rfl rfl

lemma erase_head {m : ExpireMap K V} {v : ExpireValue K V} {vs : List (ExpireValue K V)}
    (h : m.entries = v :: vs) : m.erase v.key = m.tail :=
  ext_entries ((erase_middle (l := []) h).trans (by simp [tail, h])) rfl rfl rfl

lemma erase_last {m : ExpireMap K V} {v : ExpireValue K V} {vs : List (ExpireValue K V)}
    (h : m.entries = vs ++ [v]) : m.erase v.key = m.dropLast :=
  ext_entries ((erase_middle (r := []) h).trans (by simp [dropLast, h])) rfl rfl rfl

lemma refresh_entries (m : ExpireMap K V) (v : ExpireValue K V) :
    (m.refresh v).entries = (m.entries.filter fun w => w.key ≠ v.key) ++ [v] :=
  snoc_entries (find_erase_self m v.key)

lemma push_eq_two {m : ExpireMap K V} {key : K} {value : V} {now : ℤ}
    (h : (m.push key value now).1 = 2) : 0 < m.countMax ∧ m.countMax ≤ m.entries.length := by
  rw [push] at h
  split at h
  · simp at h
  rename_i hk
  split at h
  · simp at h
  dsimp only at h
  rw [Option.not_isSome_iff_eq_none] at hk
  rw [snoc_entries (v := .new key value now) hk] at h
  split at h
  · rename_i hc
    rw [List.length_append, List.length_singleton] at hc
    exact ⟨hc.1, by omega⟩
  · simp at h

def found (v : Option (ExpireValue K V)) : Ret K V :=
  match v with
  | none => ⟨0, none, none⟩
  | some v => ⟨1, none, some v.value⟩

def taken (v : Option (ExpireValue K V)) : Ret K V :=
  match v with
  | none => ⟨0, none, none⟩
  | some v => ⟨1, some v.key, some v.value⟩

def step (m : ExpireMap K V) : ExpireBuffer.Op K V → Ret K V × ExpireMap K V
  | .push key value now => (⟨(m.push key value now).1, none, none⟩, (m.push key value now).2)
  | .pushOld key value now =>
    let (r, m') := m.push key value now
    (⟨r, none, if r = 2 then m.entries.head?.map ExpireValue.value else none⟩, m')
  | .find key => (found (m.find key), m)
  | .update key refreshtime now =>
    match m.find key with
    | none => (⟨0, none, none⟩, m)
    | some v =>
      (⟨1, none, none⟩, m.refresh { v with refreshtime := if refreshtime = 0 then now else refreshtime })
  | .updateValue key value now =>
    match m.find key with
    | none => (⟨0, none, none⟩, m)
    | some v => (⟨1, none, some v.value⟩, m.refresh { v with value := value, refreshtime := now })
  | .pop key => (found (m.find key), m.erase key)
  | .popFront => (taken m.entries.head?, m.tail)
  | .popBack => (taken m.entries.getLast?, m.dropLast)
  | .popFrontOld currenttime now =>
    let (r, m') := m.popFrontOld (if currenttime = 0 then now else currenttime)
    (⟨r.toNat, m.entries.head?.map ExpireValue.key, m.entries.head?.map ExpireValue.value⟩, m')
  | .popOld currenttime now =>
    let m' := m.popOld (if currenttime = 0 then now else currenttime)
    (⟨m.entries.length - m'.entries.length, none, none⟩, m')

end Keyed

end ExpireMap

end Xframe.Comserv
