import Xframe.Comserv.ExpireRing

/-! Every member function of `CExpireBuffer` keeps the representation and does to the listed entries
what the same operation of `ExpireMap` does. -/

namespace Xframe.Comserv

open Xframe.Lib

variable {K V : Type} [DecidableEq K]

namespace ExpireBuffer

variable {b : ExpireBuffer K V} {ps : List ℕ} {m : ExpireMap K V}

lemma popFront_spec (h : Rep b ps m) {v : ExpireValue K V} {vs : List (ExpireValue K V)}
    (hm : m.entries = v :: vs) :
    Returns b.popFront fun (r, b') => r = true ∧ Rep b' ps.tail (m.erase v.key) := by
  obtain ⟨x, r, rfl⟩ : ∃ x r, ps = x :: r := by
    cases ps with
    | nil => simpa [hm] using h.length
    | cons x r => exact ⟨x, r, rfl⟩
  have hv : b.entry x = some v := by
    have := h.values
    rw [hm] at this
    exact (List.cons.inj this).1
  have hring : Ring (b.heap.links Enty.next) (b.heap.links Enty.prev) b.pTag ([] ++ x :: r) := h.ring
  have hread := (Shows.self b.heap).read hring.next_at hring.prev_at
  have hhead : b.pHead = x := h.head
  have hc : r.headD b.pTag ∈ b.pTag :: x :: r := headD_mem_of_subset _ (List.subset_cons_self x r)
  have hcount : 0 < b.count := by rw [h.count]; simp
  rw [popFront, if_pos hcount, hhead]
  refine Returns.of_bind hread ?_
  dsimp only
  refine (Shows.self b.heap).setPrev (h.ring.next_defined hc) fun h1 s1 => ?_
  refine s1.setNext (h.ring.next_defined (by simp)) fun h2 s2 => ?_
  refine s2.entry hv ?_
  dsimp only [erase]
  refine s2.delete (by rw [Function.update_of_ne hring.tag_ne]; exact h.ring.next_defined (by simp))
    fun h3 s3 => ?_
  have hlen := h.count
  rw [List.length_cons] at hlen
  rw [returns_some]
  refine ⟨rfl, ?_⟩
  dsimp only
  split
  · obtain rfl : r = [] := List.length_eq_zero_iff.mp (by omega)
    refine h.unlink (l := []) hv s3 rfl ?_ ?_ ?_ rfl rfl rfl rfl rfl rfl rfl <;> intro y <;>
      simp +contextual [Function.update_apply, entry, Heap.read]
  · have hr : r ≠ [] := by rintro rfl; simp at hlen; omega
    refine h.unlink (l := []) hv s3 rfl ?_ ?_ ?_ rfl rfl
      (by rw [getLastD_remove b.pTag x, if_neg hr]; exact h.tail) rfl rfl rfl rfl <;> intro y <;>
      simp +contextual [Function.update_apply, entry, Heap.read]

lemma popBack_spec (h : Rep b ps m) {v : ExpireValue K V} {vs : List (ExpireValue K V)}
    (hm : m.entries = vs ++ [v]) :
    Returns b.popBack fun (r, b') => r = true ∧ Rep b' ps.dropLast (m.erase v.key) := by
  obtain ⟨l, x, rfl⟩ : ∃ l x, ps = l ++ [x] := by
    rcases List.eq_nil_or_concat ps with rfl | ⟨l, x, rfl⟩
    · simpa [hm] using h.length
    · exact ⟨l, x, by simp⟩
  have hv : b.entry x = some v := by
    have := h.values
    rw [hm, List.map_append, List.map_append] at this
    simpa using (List.append_inj' this (by simp)).2
  have hread := (Shows.self b.heap).read h.ring.next_at h.ring.prev_at
  have htail : b.pTail = x := by rw [h.tail]; simp [List.getLastD_eq_getLast?]
  have hc : l.getLastD b.pTag ∈ b.pTag :: (l ++ [x]) := getLastD_mem_of_subset _ (List.subset_append_left l [x])
  have hcount : 0 < b.count := by rw [h.count]; simp
  rw [popBack, if_pos hcount, htail]
  refine Returns.of_bind hread ?_
  dsimp only
  refine (Shows.self b.heap).setNext (h.ring.next_defined hc) fun h1 s1 => ?_
  refine s1.setPrev ?_ fun h2 s2 => ?_
  · rw [Function.update_apply]
    split
    · simp
    · exact h.ring.next_defined (by simp)
  refine s2.entry hv ?_
  dsimp only [erase]
  refine s2.delete ?_ fun h3 s3 => ?_
  · rw [Function.update_of_ne h.ring.getLastD_ne.symm]
    exact h.ring.next_defined (by simp)
  have hlen := h.count
  rw [List.length_append, List.length_singleton] at hlen
  rw [returns_some, List.dropLast_concat]
  refine ⟨rfl, ?_⟩
  dsimp only
  rw [← List.append_nil l]
  split
  · obtain rfl : l = [] := List.length_eq_zero_iff.mp (by omega)
    refine h.unlink (r := []) hv s3 rfl ?_ ?_ ?_ rfl rfl rfl rfl rfl rfl rfl <;> intro y <;>
      simp +contextual [Function.update_apply, entry, Heap.read]
  · have hl : l ≠ [] := by rintro rfl; simp at hlen; omega
    refine h.unlink (r := []) hv s3 rfl ?_ ?_ ?_ rfl
      (by rw [headD_remove b.pTag x, if_neg hl]; exact h.head) (by simp) rfl rfl rfl rfl <;> intro y <;>
      simp +contextual [Function.update_apply, entry, Heap.read]

omit [DecidableEq K] in
lemma count_eq_zero (h : Rep b ps m) : b.count = 0 ↔ m.entries = [] := by
  rw [h.count, h.length, List.length_eq_zero_iff]

lemma find_spec (h : Rep b ps m) (key : K) :
    Returns (b.find key) fun (r, b') => r = ExpireMap.found (m.find key) ∧ Rep b' ps m := by
  rw [find]
  split
  · rename_i h0
    have hm : m.find key = none := by
      rw [ExpireMap.find_eq_none, (count_eq_zero h).mp h0]
      simp
    simpa [hm, ExpireMap.found] using h
  · cases hk : b.map key with
    | none =>
      rw [h.map_none] at hk
      simpa [hk, ExpireMap.found] using h
    | some p =>
      obtain ⟨l, r, v, rfl, hv, rfl, hf⟩ := h.map_some hk
      have hp : p ≠ 0 := h.cell_ne_zero (by simp)
      obtain ⟨p, rfl⟩ : ∃ q, p = q + 1 := Nat.exists_eq_succ_of_ne_zero hp
      dsimp only
      refine Returns.of_bind hv ?_
      rw [returns_some, hf]
      exact ⟨rfl, ⟨h.ring, h.live, h.values, h.map, h.head, h.tail, h.count, h.countMax, h.destroyOld,
        h.livingTime⟩⟩

section Rules

variable {β : Type} {k : ExpireBuffer K V → Option β} {P : β → Prop} {h : Heap (Enty K V)}
  {nx pv : ℕ → Option ℕ} {val : ℕ → Option (ExpireValue K V)} {pPrev pNext : ℕ}

omit [DecidableEq K] in
lemma popTail_rule (hs : Shows h nx pv val) (htag : nx b.pTag ≠ none)
    (hk : ∀ h, Shows h nx (if pNext = b.pTag then Function.update pv b.pTag (some pPrev) else pv) val →
      Returns (k { b with
        heap := h
        pTail := if pNext = b.pTag then pPrev else b.pTail
        pCurrent := if pNext = b.pTag then pPrev else b.pCurrent
        pHead := if pNext = b.pTag then if b.count = 0 then b.pTag else b.pHead else b.pHead }) P)
    (hb : b.heap = h := by rfl) : Returns (b.popTail pPrev pNext >>= k) P := by
  rw [popTail]
  by_cases hc : pNext = b.pTag
  · simp only [if_pos hc] at hk ⊢
    rw [bind_assoc]
    exact hs.setPrev htag hk hb
  · simp only [if_neg hc] at hk ⊢
    subst hb
    exact hk _ hs

omit [DecidableEq K] in
lemma popHead_rule (hs : Shows h nx pv val) (htag : nx b.pTag ≠ none)
    (hk : ∀ h, Shows h (if pPrev = b.pTag then Function.update nx b.pTag (some pNext) else nx) pv val →
      Returns (k { b with
        heap := h
        pHead := if pPrev = b.pTag then pNext else b.pHead
        pCurrent := if pPrev = b.pTag then pNext else b.pCurrent
        pTail := if pPrev = b.pTag then if b.count = 0 then b.pTag else b.pTail else b.pTail }) P)
    (hb : b.heap = h := by rfl) : Returns (b.popHead pPrev pNext >>= k) P := by
  rw [popHead]
  by_cases hc : pPrev = b.pTag
  · simp only [if_pos hc] at hk ⊢
    rw [bind_assoc]
    exact hs.setNext htag hk hb
  · simp only [if_neg hc] at hk ⊢
    subst hb
    exact hk _ hs

omit [DecidableEq K] in
lemma pushTail_rule (hs : Shows h nx pv val) {p : ℕ} (htail : nx b.pTail ≠ none)
    (hempty : b.count = 0 → b.pTail = b.pTag)
    (hk : ∀ h, Shows h (Function.update nx b.pTail (some p)) pv val →
      Returns (k { b with heap := h, pTail := p, pHead := if b.count = 0 then p else b.pHead }) P)
    (hb : b.heap = h := by rfl) : Returns (b.pushTail p >>= k) P := by
  rw [pushTail]
  by_cases hc : b.count = 0
  · simp only [if_pos hc] at hk ⊢
    rw [hempty hc] at htail hk
    exact hs.setNext htail hk hb
  · simp only [if_neg hc] at hk ⊢
    rw [bind_assoc]
    exact hs.setNext htail hk hb

end Rules

lemma pop_spec (h : Rep b ps m) (key : K) :
    Returns (b.pop key) fun (r, b') => r = ExpireMap.found (m.find key) ∧ ∃ ps', Rep b' ps' (m.erase key) := by
  rw [pop]
  split
  · rename_i h0
    have hm : m.find key = none := by
      rw [ExpireMap.find_eq_none, (count_eq_zero h).mp h0]
      simp
    simpa [hm, ExpireMap.found, ExpireMap.erase_of_none hm] using ⟨ps, h⟩
  · cases hk : b.map key with
    | none =>
      rw [h.map_none] at hk
      simpa [hk, ExpireMap.found, ExpireMap.erase_of_none hk] using ⟨ps, h⟩
    | some p =>
      obtain ⟨l, r, v, rfl, hv, rfl, hf⟩ := h.map_some hk
      have hp : p ≠ 0 := h.cell_ne_zero (by simp)
      obtain ⟨p, rfl⟩ : ∃ q, p = q + 1 := Nat.exists_eq_succ_of_ne_zero hp
      dsimp only
      refine Returns.of_bind hv ?_
      refine Returns.of_bind ((Shows.self b.heap).read h.ring.next_at h.ring.prev_at) ?_
      dsimp only
      refine (Shows.self b.heap).delete (h.ring.next_defined (by simp)) fun h1 s1 => ?_
      dsimp only
      have hdef : ∀ y ∈ b.pTag :: (l ++ r),
          Function.update (b.heap.links Enty.next) (p + 1) none y ≠ none := by
        intro y hy
        rw [Function.update_of_ne (fun e : y = p + 1 => h.ring.remove_notMem (e ▸ hy))]
        refine h.ring.next_defined ?_
        simp only [List.mem_cons, List.mem_append] at hy ⊢
        tauto
      refine popTail_rule s1 (hdef _ (by simp)) fun h2 s2 => ?_
      refine popHead_rule s2 (hdef _ (by simp)) fun h3 s3 => ?_
      simp only [h.ring.headD_eq_tag, h.ring.getLastD_eq_tag] at s2 s3 ⊢
      have hlast : l.getLastD b.pTag ∈ b.pTag :: (l ++ r) := getLastD_mem_of_subset _ (List.subset_append_left l r)
      have hnext : r.headD b.pTag ∈ b.pTag :: (l ++ r) := headD_mem_of_subset _ (List.subset_append_right l r)
      have hdef3 : ∀ y ∈ b.pTag :: (l ++ r), (if l = [] then Function.update
          (Function.update (b.heap.links Enty.next) (p + 1) none) b.pTag (some (r.headD b.pTag))
          else Function.update (b.heap.links Enty.next) (p + 1) none) y ≠ none := by
        intro y hy
        split
        · exact update_defined (hdef y hy)
        · exact hdef y hy
      refine s3.setNext (hdef3 _ hlast) fun h4 s4 => ?_
      refine s4.setPrev (update_defined (hdef3 _ hnext)) fun h5 s5 => ?_
      have hlen := h.count
      simp only [List.length_append, List.length_cons] at hlen
      rw [returns_some, hf]
      refine ⟨rfl, l ++ r, h.unlink hv s5 rfl ?_ ?_ ?_ rfl ?_ ?_ rfl rfl rfl rfl⟩
      · intro y
        by_cases hy : y = p + 1
        · subst hy
          have htag := h.ring.tag_ne
          have hne := h.ring.getLastD_ne.symm
          rw [if_pos rfl, Function.update_of_ne hne]
          split <;> simp [htag]
        · rcases l with _ | ⟨z, l⟩ <;> simp +contextual [Function.update_apply, hy]
      · intro y hy
        rcases r with _ | ⟨z, r⟩ <;> simp +contextual [Function.update_apply, hy]
      · intro y hy
        rw [Function.update_of_ne hy]
        rfl
      · rw [headD_remove b.pTag (p + 1), ← h.head]
        by_cases hl : l = []
        · simp [hl, erase]
        · have hc : b.count - 1 ≠ 0 := by
            have := List.length_pos_iff.mpr hl
            omega
          simp [hl, hc, erase]
      · rw [getLastD_remove b.pTag (p + 1), ← h.tail]
        by_cases hl : l = [] <;> by_cases hr : r = []
        · simp [hl, hr, erase]
        · have hc : b.count - 1 ≠ 0 := by
            have := List.length_pos_iff.mpr hr
            omega
          simp [hl, hr, hc, erase]
        · simp [hl, hr, erase]
        · simp [hl, hr, erase]

lemma push_spec (h : Rep b ps m) (key : K) (value : V) (now : ℤ) :
    Returns (b.push key value now) fun (r, b') => r = (m.push key value now).1 ∧
      ∃ ps', Rep b' ps' (m.push key value now).2 := by
  rw [push, ExpireMap.push]
  have hmap : (b.map key).isSome ↔ (m.find key).isSome := by
    rw [← not_iff_not, Option.not_isSome_iff_eq_none, Option.not_isSome_iff_eq_none, h.map_none]
  by_cases hk : (m.find key).isSome
  · rw [if_pos (hmap.mpr hk), if_pos hk]
    exact (returns_some _ _).mpr ⟨rfl, ps, h⟩
  have hfull : (¬b.destroyOld ∧ 0 < b.countMax ∧ b.countMax ≤ b.count) ↔
      (¬m.destroyOld ∧ 0 < m.countMax ∧ m.countMax ≤ m.entries.length) := by
    rw [h.destroyOld, h.countMax, h.count, h.length]
  rw [if_neg (mt hmap.mp hk), if_neg hk]
  by_cases hf : ¬m.destroyOld ∧ 0 < m.countMax ∧ m.countMax ≤ m.entries.length
  · rw [if_pos (hfull.mpr hf), if_pos hf]
    exact (returns_some _ _).mpr ⟨rfl, ps, h⟩
  rw [if_neg (mt hfull.mp hf), if_neg hf]
  rw [Option.not_isSome_iff_eq_none] at hk
  have hv : m.find (ExpireValue.new key value now).key = none := hk
  obtain ⟨hfresh, s0⟩ := (Shows.self b.heap).alloc (m := b.pTail) (n := b.pTag)
    (some (ExpireValue.new key value now))
  have htail : b.pTail ∈ b.pTag :: ps := h.tail ▸ getLastD_mem b.pTag ps
  have hne : ∀ y ∈ b.pTag :: ps, y ≠ b.heap.brk := fun y hy e =>
    h.ring.next_defined hy (e ▸ hfresh)
  have hdef : ∀ y ∈ b.pTag :: ps,
      Function.update (b.heap.links Enty.next) b.heap.brk (some b.pTag) y ≠ none :=
    fun y hy => update_defined (h.ring.next_defined hy)
  dsimp only [Heap.alloc] at s0 ⊢
  refine pushTail_rule s0 (hdef _ htail) ?_ fun h1 s1 => ?_
  · intro h0
    rw [h.tail, List.length_eq_zero_iff.mp (h.count.symm.trans h0)]
    rfl
  refine s1.setPrev (update_defined (hdef _ (by simp))) fun h2 s2 => ?_
  dsimp only
  have hrep : Rep { b with
      heap := h2, pCurrent := b.heap.brk, map := Function.update b.map key (some b.heap.brk)
      pTail := b.heap.brk, pHead := if b.count = 0 then b.heap.brk else b.pHead
      count := b.count + 1 } (ps ++ [b.heap.brk]) (m.snoc (.new key value now)) := by
    refine h.link hv hfresh s2 rfl ?_ ?_ ?_ rfl ?_ rfl rfl rfl rfl rfl
    · intro y
      rw [h.tail]
    · intro y
      rw [h.tail]
    · intro y
      rfl
    · rw [h.head, h.count]
      cases ps <;> simp
  have hover : (0 < b.countMax ∧ b.countMax < b.count + 1) ↔
      (0 < m.countMax ∧ m.countMax < (m.snoc (.new key value now)).entries.length) := by
    rw [h.countMax, ExpireMap.snoc_entries hv, h.count, h.length]
    simp
  by_cases ho : 0 < m.countMax ∧ m.countMax < (m.snoc (.new key value now)).entries.length
  · rw [if_pos (hover.mpr ho), if_pos ho]
    obtain ⟨v, vs, hvs⟩ : ∃ v vs, (m.snoc (.new key value now)).entries = v :: vs :=
      List.exists_cons_of_length_pos (by omega)
    refine (popFront_spec hrep hvs).bind ?_
    rintro ⟨r, b'⟩ ⟨_, hb'⟩
    rw [ExpireMap.erase_head hvs] at hb'
    exact (returns_some _ _).mpr ⟨rfl, _, hb'⟩
  · rw [if_neg (mt hover.mp ho), if_neg ho]
    exact (returns_some _ _).mpr ⟨rfl, _, hrep⟩

end ExpireBuffer

end Xframe.Comserv
