import Xframe.Lib.Refine
import Xframe.Comserv.ExpireRefines

/-! Refreshing and expiring entries, and whole runs of calls: a buffer that is never cleared keeps a
well-formed ring and behaves as the ordered finite map. -/

namespace Xframe.Comserv

open Xframe.Lib

variable {K V : Type} [DecidableEq K]

namespace ExpireBuffer

variable {b : ExpireBuffer K V} {ps l r : List ℕ} {x : ℕ} {m : ExpireMap K V}

lemma moveToTail_rule {β : Type} {k : ExpireBuffer K V → Option β} {P : β → Prop}
    (h : Rep b (l ++ x :: r) m) {v w : ExpireValue K V} (hv : b.entry x = some v) (hw : w.key = v.key)
    (hk : ∀ b', Rep b' (l ++ r ++ [x]) (m.refresh w) → Returns (k b') P) :
    Returns (setValue { b with pCurrent := x } x w >>= fun b => b.moveToTail >>= k) P := by
  refine (Shows.self b.heap).setValue (h.ring.next_defined (by simp)) fun h1 s1 => ?_
  have hhead := h.head
  rw [moveToTail]
  dsimp only
  by_cases hr : r = []
  · subst hr
    have htail : b.pTail = x := by rw [h.tail, getLastD_snoc]
    have hb := h.ring.next_before
    have ha := h.ring.next_at
    have hb' := h.ring.prev_at
    have ha' := h.ring.prev_after
    simp only [List.headD_nil] at ha ha'
    rw [if_pos htail.symm]
    refine hk _ (h.moved hv hw s1 rfl ?_ ?_ ?_ rfl (by simpa using hhead) htail rfl rfl rfl rfl)
    · intro y
      simp only [List.append_nil, List.headD_nil, Function.update_apply]
      split_ifs with h1 h2
      · rw [h1, hb]
      · rw [h2, ha]
      · rfl
    · intro y
      simp only [List.append_nil, List.headD_nil, Function.update_apply]
      split_ifs with h1 h2
      · rw [h1, ha']
      · rw [h2, hb']
      · rfl
    · intro y
      rfl
  · have htail : b.pTail = (l ++ r).getLastD b.pTag := by
      rw [h.tail, getLastD_remove b.pTag x l r, if_neg hr]
    have hmem : (l ++ r).getLastD b.pTag ∈ b.pTag :: (l ++ r) := getLastD_mem b.pTag (l ++ r)
    have hne : x ≠ b.pTail := fun e => h.ring.remove_notMem (e ▸ htail ▸ hmem)
    have hdef : ∀ y ∈ b.pTag :: (l ++ x :: r), b.heap.links Enty.next y ≠ none :=
      fun y hy => h.ring.next_defined hy
    have hlast : l.getLastD b.pTag ∈ b.pTag :: (l ++ x :: r) :=
      getLastD_mem_of_subset _ (List.subset_append_left l (x :: r))
    have hnext : r.headD b.pTag ∈ b.pTag :: (l ++ x :: r) :=
      headD_mem_of_subset _ (List.subset_append_of_subset_right l (List.subset_cons_self x r))
    rw [if_neg hne]
    simp only [bind_assoc]
    refine Returns.of_bind (s1.read h.ring.next_at h.ring.prev_at) ?_
    dsimp only
    refine s1.setNext (hdef _ hlast) fun h2 s2 => ?_
    refine s2.setPrev (update_defined (hdef _ hnext)) fun h3 s3 => ?_
    refine s3.setNext (update_defined (hdef _ (h.tail ▸ getLastD_mem _ _))) fun h4 s4 => ?_
    refine s4.setPrev (update_defined (update_defined (hdef _ (by simp)))) fun h5 s5 => ?_
    refine s5.setNext (update_defined (update_defined (hdef _ (by simp)))) fun h6 s6 => ?_
    refine s6.setPrev (update_defined (update_defined (update_defined (hdef _ (by simp)))))
      fun h7 s7 => ?_
    refine hk _ (h.moved hv hw s7 rfl ?_ ?_ ?_ rfl ?_ rfl rfl rfl rfl rfl)
    · intro y
      dsimp only
      rw [htail] at hne ⊢
      exact congrFun (Function.update_comm hne.symm _ _ _) y
    · intro y
      dsimp only
      rw [htail]
      exact congrFun (Function.update_comm h.ring.tag_ne.symm _ _ _) y
    · intro y
      rfl
    · dsimp only
      rw [hhead]
      cases l with
      | nil =>
        obtain ⟨y, r, rfl⟩ := List.exists_cons_of_ne_nil hr
        simp
      | cons y l =>
        have : x ≠ y := by
          rintro rfl
          exact h.ring.remove_notMem (by simp)
        simp [this]

def Models (b : ExpireBuffer K V) (m : ExpireMap K V) : Prop := ∃ ps, Rep b ps m

lemma update_spec (h : Models b m) (key : K) (refreshtime now : ℤ) :
    Returns (b.update key refreshtime now) fun (r, b') =>
      r = (m.step (.update key refreshtime now)).1 ∧ Models b' (m.step (.update key refreshtime now)).2 := by
  obtain ⟨ps, h⟩ := h
  rw [update, ExpireMap.step]
  cases hk : b.map key with
  | none =>
    rw [h.map_none] at hk
    simpa [hk] using ⟨ps, h⟩
  | some p =>
    obtain ⟨l, r, v, rfl, hv, rfl, hf⟩ := h.map_some hk
    rw [hf]
    refine Returns.of_bind hv ?_
    refine moveToTail_rule h hv rfl fun b' hb' => ?_
    exact (returns_some _ _).mpr ⟨rfl, _, hb'⟩

lemma updateValue_spec (h : Models b m) (key : K) (value : V) (now : ℤ) :
    Returns (b.updateValue key value now) fun (r, b') =>
      r = (m.step (.updateValue key value now)).1 ∧
        Models b' (m.step (.updateValue key value now)).2 := by
  obtain ⟨ps, h⟩ := h
  rw [updateValue, ExpireMap.step]
  cases hk : b.map key with
  | none =>
    rw [h.map_none] at hk
    simpa [hk] using ⟨ps, h⟩
  | some p =>
    obtain ⟨l, r, v, rfl, hv, rfl, hf⟩ := h.map_some hk
    rw [hf]
    refine Returns.of_bind hv ?_
    refine moveToTail_rule h hv rfl fun b' hb' => ?_
    exact (returns_some _ _).mpr ⟨rfl, _, hb'⟩

omit [DecidableEq K] in
lemma head_entry (h : Rep b ps m) {v : ExpireValue K V} {vs : List (ExpireValue K V)}
    (hm : m.entries = v :: vs) : 0 < b.count ∧ b.entry b.pHead = some v := by
  have hlen := h.length
  have hvals := h.values
  rw [hm] at hlen hvals
  cases ps with
  | nil => simp at hlen
  | cons p ps =>
    rw [h.count, h.head]
    exact ⟨by simp, (List.cons.inj hvals).1⟩

omit [DecidableEq K] in
lemma last_entry (h : Rep b ps m) {v : ExpireValue K V} {vs : List (ExpireValue K V)}
    (hm : m.entries = vs ++ [v]) : 0 < b.count ∧ b.entry b.pTail = some v := by
  have hlen := h.length
  have hvals := h.values
  rw [hm] at hlen hvals
  rcases List.eq_nil_or_concat ps with rfl | ⟨l, x, rfl⟩
  · simp at hlen
  · rw [List.concat_eq_append] at h hvals
    rw [List.map_append, List.map_append] at hvals
    rw [h.count, h.tail, getLastD_snoc]
    exact ⟨by simp, by simpa using (List.append_inj' hvals (by simp)).2⟩

lemma popFrontOld_spec (h : Models b m) (currenttime now : ℤ) :
    Returns (b.popFrontOld currenttime now) fun (r, b') =>
      r = (m.popFrontOld (if currenttime = 0 then now else currenttime)).1 ∧
        Models b' (m.popFrontOld (if currenttime = 0 then now else currenttime)).2 := by
  obtain ⟨ps, h⟩ := h
  rw [popFrontOld, ExpireMap.popFrontOld]
  generalize (if currenttime = 0 then now else currenttime) = t
  cases hm : m.entries with
  | nil =>
    rw [if_neg (by rw [(count_eq_zero h).mpr hm]; simp)]
    exact (returns_some _ _).mpr ⟨rfl, ps, h⟩
  | cons v vs =>
    obtain ⟨hc, hv⟩ := head_entry h hm
    rw [if_pos hc]
    refine Returns.of_bind hv ?_
    simp only [ExpireMap.expired, decide_eq_true_eq, ← h.livingTime]
    split
    · refine (popFront_spec h hm).mono ?_
      rintro ⟨r, b'⟩ ⟨hr, hb'⟩
      rw [ExpireMap.erase_head hm] at hb'
      exact ⟨hr, _, hb'⟩
    · exact (returns_some _ _).mpr ⟨rfl, ps, h⟩

lemma popOldLoop_spec {fuel : ℕ} (h : Models b m) (hfuel : m.entries.length < fuel)
    (currenttime now : ℤ) (n : ℕ) :
    Returns (popOldLoop fuel b currenttime now n) fun (r, b') =>
      r + (m.popOld (if currenttime = 0 then now else currenttime)).entries.length =
        n + m.entries.length ∧
          Models b' (m.popOld (if currenttime = 0 then now else currenttime)) := by
  induction fuel generalizing b m n with
  | zero => omega
  | succ fuel ih =>
    rw [popOldLoop]
    refine (popFrontOld_spec h currenttime now).bind fun (r, b') ⟨hr, hb'⟩ => ?_
    rcases m.popOld_cases (if currenttime = 0 then now else currenttime) with
      ⟨hp, ho⟩ | ⟨hp, hlen, ho⟩
    · rw [hp] at hr hb'
      rw [hr, ho]
      exact (returns_some _ _).mpr ⟨rfl, hb'⟩
    · rw [hp] at hr
      rw [hr, ho]
      refine (ih hb' (by omega) (n + 1)).mono fun (k, b'') ⟨hk, hb''⟩ => ⟨?_, hb''⟩
      omega

lemma popOld_spec (h : Models b m) (currenttime now : ℤ) :
    Returns (b.popOld currenttime now) fun (r, b') =>
      r + (m.popOld (if currenttime = 0 then now else currenttime)).entries.length =
        m.entries.length ∧ Models b' (m.popOld (if currenttime = 0 then now else currenttime)) := by
  obtain ⟨ps, h⟩ := h
  rw [popOld]
  split
  · refine (popOldLoop_spec ⟨ps, h⟩ (by rw [h.count, h.length]; omega) currenttime now 0).mono ?_
    intro (r, b') ⟨hr, hb'⟩
    exact ⟨by rw [hr, zero_add], hb'⟩
  · have hm : m.entries = [] := (count_eq_zero h).mp (by omega)
    have hp : m.popOld (if currenttime = 0 then now else currenttime) = m :=
      ExpireMap.ext_entries (by simp [ExpireMap.popOld, hm]) rfl rfl rfl
    rw [hp]
    exact (returns_some _ _).mpr ⟨zero_add _, ps, h⟩

lemma popFrontOldOut_spec (h : Models b m) (currenttime now : ℤ) :
    Returns (b.popFrontOldOut currenttime now) fun (r, b') =>
      r = (m.step (.popFrontOld currenttime now)).1 ∧
        Models b' (m.step (.popFrontOld currenttime now)).2 := by
  obtain ⟨ps, hr⟩ := h
  rw [popFrontOldOut, ExpireMap.step]
  cases hm : m.entries with
  | nil =>
    rw [if_neg (by rw [(count_eq_zero hr).mpr hm]; simp)]
    simpa [ExpireMap.popFrontOld, hm] using ⟨ps, hr⟩
  | cons v vs =>
    obtain ⟨hc, hv⟩ := head_entry hr hm
    rw [if_pos hc]
    refine Returns.of_bind hv ?_
    refine (popFrontOld_spec ⟨ps, hr⟩ currenttime now).bind ?_
    rintro ⟨r, b'⟩ ⟨h1, h2⟩
    exact (returns_some _ _).mpr ⟨by rw [h1]; rfl, h2⟩

lemma popFrontOut_spec (h : Models b m) :
    Returns b.popFrontOut fun (r, b') =>
      r = ExpireMap.taken m.entries.head? ∧ Models b' m.tail := by
  obtain ⟨ps, hr⟩ := h
  rw [popFrontOut]
  cases hm : m.entries with
  | nil =>
    have ht : m.tail = m := ExpireMap.ext_entries (by simp [ExpireMap.tail, hm]) rfl rfl rfl
    rw [if_neg (by rw [(count_eq_zero hr).mpr hm]; simp), ht]
    exact (returns_some _ _).mpr ⟨rfl, ps, hr⟩
  | cons v vs =>
    obtain ⟨hc, hv⟩ := head_entry hr hm
    rw [if_pos hc]
    refine Returns.of_bind hv ?_
    refine (popFront_spec hr hm).bind ?_
    rintro ⟨r, b'⟩ ⟨h1, h2⟩
    rw [ExpireMap.erase_head hm] at h2
    exact (returns_some _ _).mpr ⟨by rw [h1]; rfl, _, h2⟩

lemma popBackOut_spec (h : Models b m) :
    Returns b.popBackOut fun (r, b') =>
      r = ExpireMap.taken m.entries.getLast? ∧ Models b' m.dropLast := by
  obtain ⟨ps, hr⟩ := h
  rw [popBackOut]
  rcases List.eq_nil_or_concat m.entries with hm | ⟨vs, v, hm⟩
  · have ht : m.dropLast = m := ExpireMap.ext_entries (by simp [ExpireMap.dropLast, hm]) rfl rfl rfl
    rw [if_neg (by rw [(count_eq_zero hr).mpr hm]; simp), ht, hm]
    exact (returns_some _ _).mpr ⟨rfl, ps, hr⟩
  · rw [List.concat_eq_append] at hm
    obtain ⟨hc, hv⟩ := last_entry hr hm
    rw [if_pos hc]
    refine Returns.of_bind hv ?_
    refine (popBack_spec hr hm).bind ?_
    rintro ⟨r, b'⟩ ⟨h1, h2⟩
    rw [ExpireMap.erase_last hm] at h2
    exact (returns_some _ _).mpr ⟨by rw [h1, hm]; simp [ExpireMap.taken], _, h2⟩

lemma pushOld_spec (h : Models b m) (key : K) (value : V) (now : ℤ) :
    Returns (b.pushOld key value now) fun (r, b') =>
      r = (m.step (.pushOld key value now)).1 ∧ Models b' (m.step (.pushOld key value now)).2 := by
  obtain ⟨ps, hr⟩ := h
  rw [pushOld]
  have htmp : Returns b.oldHead fun t =>
      0 < m.countMax ∧ m.countMax ≤ m.entries.length → t = m.entries.head?.map ExpireValue.value := by
    rw [oldHead, hr.countMax, hr.count, hr.length]
    split
    · rename_i hc
      obtain ⟨v, vs, hm⟩ := List.exists_cons_of_length_pos (lt_of_lt_of_le hc.1 hc.2)
      rw [(head_entry hr hm).2, hm]
      exact (returns_some _ _).mpr fun _ => rfl
    · exact (returns_some _ _).mpr fun hc => absurd hc ‹_›
  refine htmp.bind fun t ht => ?_
  refine (push_spec hr key value now).bind fun (r, b') ⟨h1, h2⟩ => ?_
  rw [returns_some]
  refine ⟨?_, h2⟩
  rw [ExpireMap.step, h1]
  by_cases h3 : (m.push key value now).1 = 2
  · rw [if_pos h3, ht (ExpireMap.push_eq_two h3)]
    simp only [if_pos h3]
  · rw [if_neg h3]
    simp only [if_neg h3]

lemma exec_spec (h : Models b m) (o : Op K V) :
    Returns (b.exec o) fun (r, b') => r = (m.step o).1 ∧ Models b' (m.step o).2 := by
  cases o with
  | push key value now =>
    obtain ⟨ps, hr⟩ := h
    obtain ⟨⟨r, b'⟩, h1, h2, h3⟩ := push_spec hr key value now
    rw [exec, h1]
    exact (returns_some _ _).mpr ⟨by rw [h2]; rfl, h3⟩
  | pushOld key value now => exact pushOld_spec h key value now
  | find key =>
    obtain ⟨ps, hr⟩ := h
    exact (find_spec hr key).mono fun _ ⟨h1, h2⟩ => ⟨h1, ps, h2⟩
  | update key refreshtime now => exact update_spec h key refreshtime now
  | updateValue key value now => exact updateValue_spec h key value now
  | pop key =>
    obtain ⟨ps, hr⟩ := h
    exact pop_spec hr key
  | popFront => exact popFrontOut_spec h
  | popBack => exact popBackOut_spec h
  | popFrontOld currenttime now => exact popFrontOldOut_spec h currenttime now
  | popOld currenttime now =>
    obtain ⟨⟨r, b'⟩, h1, h2, h3⟩ := popOld_spec h currenttime now
    rw [exec, h1]
    refine (returns_some _ _).mpr ⟨?_, h3⟩
    rw [ExpireMap.step, ← h2, Nat.add_sub_cancel]

omit [DecidableEq K] in
lemma new_models (maxCount : ℕ) (destroyOld : Bool) (livingTime : ℕ) :
    Models (new maxCount destroyOld livingTime : ExpireBuffer K V)
      (.new maxCount destroyOld livingTime) := by
  have hcells : (new maxCount destroyOld livingTime : ExpireBuffer K V).heap.cells =
      Function.update (fun _ => none) 1 (some ⟨none, 1, 1⟩) := by
    simp [new, Heap.empty, Heap.alloc, Heap.store]
  have htag : (new maxCount destroyOld livingTime : ExpireBuffer K V).pTag = 1 := rfl
  refine ⟨[], ⟨by simp, ?_, ?_⟩, ?_, rfl, ?_, rfl, rfl, rfl, rfl, rfl, rfl⟩
  · simp [Loop, walk_cons, Heap.links, hcells, htag]
  · simp [Loop, walk_cons, Heap.links, hcells, htag]
  · intro p hp
    by_cases h1 : p = 1
    · simp [h1, htag]
    · simp [Heap.links, hcells, h1] at hp
  · intro key p
    simp [new]

structure WellFormed (b : ExpireBuffer K V) (ps : List ℕ) : Prop where
  next : Walk (b.heap.links Enty.next) b.pHead ps b.pTag
  prev : Walk (b.heap.links Enty.prev) b.pTail ps.reverse b.pTag
  closes : b.heap.links Enty.next b.pTag = some b.pHead ∧ b.heap.links Enty.prev b.pTag = some b.pTail
  count : ps.length = b.count
  nodup : (b.pTag :: ps).Nodup
  keyed : ∀ p ∈ ps, ∃ v, b.entry p = some v ∧ ∀ q ∈ ps, ∀ w, b.entry q = some w → w.key = v.key → q = p
  map : ∀ key p, b.map key = some p ↔ p ∈ ps ∧ ∃ v, b.entry p = some v ∧ v.key = key
  live : ∀ p, b.heap.read p ≠ none ↔ p ∈ b.pTag :: ps
  links : ∀ p e, b.heap.read p = some e → e.next ∈ b.pTag :: ps ∧ e.prev ∈ b.pTag :: ps
  ends : b.pHead ∈ b.pTag :: ps ∧ b.pTail ∈ b.pTag :: ps

omit [DecidableEq K] in
lemma wellFormed (h : Rep b ps m) : WellFormed b ps where
  next := h.head ▸ h.ring.next.walk.1
  prev := by
    have := h.ring.prev.walk.1
    rwa [headD_reverse, ← h.tail] at this
  closes := by
    have := h.ring.prev.walk.2
    rw [headD_reverse, ← h.tail] at this
    exact ⟨h.head ▸ h.ring.next.walk.2, this⟩
  count := h.count.symm
  nodup := h.ring.nodup
  keyed := by
    intro p hp
    obtain ⟨l, r, rfl⟩ := List.append_of_mem hp
    obtain ⟨-, v, -, -, -, hv, -⟩ := map_eq_map_some h.values
    refine ⟨v, hv, fun q hq w hw hk => ?_⟩
    have h1 := (h.map v.key q).mpr ⟨hq, w, hw, hk⟩
    have h2 := (h.map v.key p).mpr ⟨hp, v, hv, rfl⟩
    exact Option.some.inj (h1.symm.trans h2)
  map := h.map
  live p := by
    have hl : b.heap.read p ≠ none ↔ b.heap.links Enty.next p ≠ none := by
      simp [Heap.links, Heap.read]
    rw [hl]
    exact ⟨h.live p, fun hp => h.ring.next_defined hp⟩
  links p e he := by
    have hn : b.heap.links Enty.next p = some e.next := congrArg (Option.map Enty.next) he
    have hp : b.heap.links Enty.prev p = some e.prev := congrArg (Option.map Enty.prev) he
    have hm := h.live p (by rw [hn]; exact Option.some_ne_none _)
    exact ⟨h.ring.next_mem hm hn, h.ring.prev_mem hm hp⟩
  ends := ⟨h.head ▸ headD_mem b.pTag ps, h.tail ▸ getLastD_mem b.pTag ps⟩

theorem calls_wellFormed (maxCount : ℕ) (destroyOld : Bool) (livingTime : ℕ) (os : List (Op K V)) :
    ∃ rs b ps, runCalls exec (new maxCount destroyOld livingTime) os = some (rs, b) ∧ WellFormed b ps ∧
      rs = (runSteps ExpireMap.step (.new maxCount destroyOld livingTime) os).1 ∧
      ps.map b.entry =
        (runSteps ExpireMap.step (.new maxCount destroyOld livingTime) os).2.entries.map some := by
  obtain ⟨⟨rs, b⟩, hrun, hrs, ps, hr⟩ := runCalls_refines Models
    (fun _ _ o h => exec_spec h o) (new_models maxCount destroyOld livingTime) os
  exact ⟨rs, b, ps, hrun, wellFormed hr, hrs, hr.values⟩

end ExpireBuffer

end Xframe.Comserv
