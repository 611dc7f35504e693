import Xframe.Lib.Recent
import Xframe.Comserv.ExpireLookup
import Xframe.Comserv.ExpireRuns

/-! The entries of an expiring buffer stand in the order of their refreshes, so that a scan that stops at the
first young entry removes all the old ones. -/

namespace Xframe.Comserv

open scoped List
open Xframe.Lib

variable {K V : Type} [DecidableEq K]

namespace ExpireBuffer

omit [DecidableEq K] in
def refreshed : Op K V → Ret K V → Option (K × ℤ)
  | .push key _ now, r => if r.code = 0 then none else some (key, now)
  | .pushOld key _ now, r => if r.code = 0 then none else some (key, now)
  | .update key refreshtime now, r =>
    if r.code = 0 then none else some (key, if refreshtime = 0 then now else refreshtime)
  | .updateValue key _ now, r => if r.code = 0 then none else some (key, now)
  | .find _, _ => none
  | .pop _, _ => none
  | .popFront, _ => none
  | .popBack, _ => none
  | .popFrontOld _ _, _ => none
  | .popOld _ _, _ => none

end ExpireBuffer

namespace ExpireMap

open ExpireBuffer

variable {m : ExpireMap K V}

inductive Pushes (m : ExpireMap K V) (key : K) (value : V) (now : ℤ) : ℕ × ExpireMap K V → Prop
  | refused (h : (m.find key).isSome ∨ m.Full ∧ m.destroyOld = false) : Pushes m key value now (0, m)
  | evicts {m' : ExpireMap K V} (h : m.find key = none) (hf : m.Full) (hd : m.destroyOld = true)
      (he : m'.entries = m.entries.tail ++ [.new key value now]) : Pushes m key value now (2, m')
  | adds {m' : ExpireMap K V} (h : m.find key = none) (hf : ¬m.Full) (he : m'.entries = m.entries ++ [.new key value now]) :
      Pushes m key value now (1, m')

lemma push_pushes (m : ExpireMap K V) (key : K) (value : V) (now : ℤ) : Pushes m key value now (m.push key value now) := by
  by_cases hk : (m.find key).isSome
  · rw [push_known (by rwa [lookup, Option.isSome_map])]
    exact .refused (.inl hk)
  have hnone : m.find key = none := Option.not_isSome_iff_eq_none.mp hk
  have hsnoc : (m.snoc (.new key value now)).entries = m.entries ++ [.new key value now] := snoc_entries hnone
  by_cases hf : m.Full
  · cases hd : m.destroyOld with
    | false =>
      rw [push_full hf hd]
      exact .refused (.inr ⟨hf, hd⟩)
    | true =>
      rw [push_evicted (lookup_eq_none.mpr hnone) hf hd]
      refine .evicts hnone hf hd ?_
      change (m.snoc (.new key value now)).entries.tail = _
      rw [hsnoc, List.tail_append_of_ne_nil hf.ne_nil]
  · rw [push_added (lookup_eq_none.mpr hnone) hf]
    exact .adds hnone hf hsnoc

def Carries (m m' : ExpireMap K V) : Option (K × ℤ) → Prop
  | none => m'.entries <+ m.entries
  | some (key, stamp) => ∃ v, v.key = key ∧ v.refreshtime = stamp ∧
      m'.entries <+ (m.entries.filter fun w => w.key ≠ key) ++ [v]

lemma push_carries (m : ExpireMap K V) (key : K) (value : V) (now : ℤ) :
    Carries m (m.push key value now).2 (if (m.push key value now).1 = 0 then none else some (key, now)) := by
  have hall (h : m.find key = none) : (m.entries.filter fun w => w.key ≠ key) = m.entries :=
    congrArg entries (erase_of_none h)
  generalize hp : m.push key value now = p
  have hpush := m.push_pushes key value now
  rw [hp] at hpush
  cases hpush with
  | refused => exact List.Sublist.refl m.entries
  | evicts h _ _ he =>
    refine ⟨.new key value now, rfl, rfl, ?_⟩
    rw [he, hall h]
    exact (List.tail_sublist _).append (List.Sublist.refl _)
  | adds h _ he =>
    refine ⟨.new key value now, rfl, rfl, ?_⟩
    rw [he, hall h]

lemma refresh_carries (m : ExpireMap K V) (v : ExpireValue K V) :
    Carries m (m.refresh v) (some (v.key, v.refreshtime)) :=
  ⟨v, rfl, rfl, by rw [refresh_entries]⟩

lemma step_carries (m : ExpireMap K V) (o : Op K V) : Carries m (m.step o).2 (refreshed o (m.step o).1) := by
  cases o with
  | push key value now => exact m.push_carries key value now
  | pushOld key value now => exact m.push_carries key value now
  | find key => exact List.Sublist.refl m.entries
  | update key refreshtime now =>
    rw [step]
    cases hf : m.find key with
    | none => exact List.Sublist.refl m.entries
    | some v =>
      obtain ⟨-, rfl⟩ := find_eq_some.mp hf
      exact m.refresh_carries _
  | updateValue key value now =>
    rw [step]
    cases hf : m.find key with
    | none => exact List.Sublist.refl m.entries
    | some v =>
      obtain ⟨-, rfl⟩ := find_eq_some.mp hf
      exact m.refresh_carries _
  | pop key => exact List.filter_sublist
  | popFront => exact List.tail_sublist _
  | popBack => exact List.dropLast_sublist _
  | popFrontOld currenttime now =>
    change (m.popFrontOld (if currenttime = 0 then now else currenttime)).2.entries <+ m.entries
    generalize (if currenttime = 0 then now else currenttime) = t
    rw [popFrontOld]
    cases hm : m.entries with
    | nil => simp [hm]
    | cons v vs =>
      dsimp only
      split_ifs
      · simp [tail, hm]
      · rw [hm]
  | popOld currenttime now => exact List.dropWhile_sublist _

def Sorted (m : ExpireMap K V) : Prop := m.entries.Pairwise fun u v => u.refreshtime ≤ v.refreshtime

lemma Sorted.carries {m' : ExpireMap K V} {x : Option (K × ℤ)} (h : m.Sorted) (hc : Carries m m' x)
    (hle : ∀ y ∈ x, ∀ v ∈ m.entries, v.refreshtime ≤ y.2) :
    m'.Sorted ∧ ∀ v ∈ m'.entries, v ∈ m.entries ∨ ∃ y ∈ x, v.refreshtime = y.2 := by
  cases x with
  | none => exact ⟨List.Pairwise.sublist hc h, fun v hv => .inl (hc.subset hv)⟩
  | some y =>
    obtain ⟨w, -, hstamp, hsub⟩ := hc
    refine ⟨List.Pairwise.sublist hsub (List.pairwise_append.mpr ⟨?_, List.pairwise_singleton _ _, ?_⟩), fun v hv => ?_⟩
    · exact List.Pairwise.sublist List.filter_sublist h
    · intro u hu v hv
      obtain rfl := List.mem_singleton.mp hv
      rw [hstamp]
      exact hle y rfl u (List.mem_filter.mp hu).1
    · rcases List.mem_append.mp (hsub.subset hv) with hv | hv
      · exact .inl (List.mem_filter.mp hv).1
      · obtain rfl := List.mem_singleton.mp hv
        exact .inr ⟨y, rfl, hstamp⟩

omit [DecidableEq K] in
lemma Sorted.popOld (h : m.Sorted) (t : ℤ) : (m.popOld t).entries = m.entries.filter fun v => !m.expired t v := by
  refine dropWhile_eq_filter (List.Pairwise.imp ?_ h)
  intro u v hle hv
  simp only [expired, decide_eq_true_eq] at hv ⊢
  omega

end ExpireMap

namespace ExpireBuffer

variable {b : ExpireBuffer K V} {m : ExpireMap K V}

omit [DecidableEq K] in
def Listed (b : ExpireBuffer K V) (vs : List (ExpireValue K V)) : Prop :=
  ∃ ps, Walk (b.heap.links Enty.next) b.pHead ps b.pTag ∧ b.pTail = ps.getLastD b.pTag ∧ ps.map b.entry = vs.map some

omit [DecidableEq K] in
lemma Models.listed (h : Models b m) : Listed b m.entries := by
  obtain ⟨ps, h⟩ := h
  exact ⟨ps, (wellFormed h).next, h.tail, h.values⟩

omit [DecidableEq K] in
def refreshes (os : List (Op K V)) (rs : List (Ret K V)) : List (K × ℤ) :=
  (os.zip rs).filterMap fun (o, r) => refreshed o r

omit [DecidableEq K] in
lemma refreshes_cons (o : Op K V) (os : List (Op K V)) (r : Ret K V) (rs : List (Ret K V)) :
    refreshes (o :: os) (r :: rs) = (refreshed o r).toList ++ refreshes os rs := by
  cases h : refreshed o r with
  | none => simp [refreshes, h]
  | some x => simp [refreshes, h]

lemma exec_models {o : Op K V} {r : Ret K V} {b' : ExpireBuffer K V} (h : Models b m) (he : b.exec o = some (r, b')) :
    r = (m.step o).1 ∧ Models b' (m.step o).2 := by
  obtain ⟨⟨r', c⟩, hc, hr, hm⟩ := exec_spec h o
  obtain ⟨rfl, rfl⟩ := Prod.mk.inj (Option.some.inj (he.symm.trans hc))
  exact ⟨hr, hm⟩

lemma run_sorted {os : List (Op K V)} {rs : List (Ret K V)} {b' : ExpireBuffer K V} (h : Models b m) (hs : m.Sorted)
    (hrun : runCalls exec b os = some (rs, b')) (hstamps : ((refreshes os rs).map Prod.snd).Pairwise (· ≤ ·))
    (hle : ∀ v ∈ m.entries, ∀ x ∈ refreshes os rs, v.refreshtime ≤ x.2) : ∃ m', Models b' m' ∧ m'.Sorted := by
  induction os generalizing b m rs with
  | nil =>
    cases hrun
    exact ⟨m, h, hs⟩
  | cons o os ih =>
    rw [runCalls_cons] at hrun
    obtain ⟨⟨r, b₁⟩, hexec, hrun⟩ := Option.bind_eq_some_iff.mp hrun
    obtain ⟨⟨rs', b₂⟩, hrest, heq⟩ := Option.bind_eq_some_iff.mp hrun
    cases heq
    obtain ⟨rfl, hm⟩ := exec_models h hexec
    rw [refreshes_cons] at hstamps hle
    rw [List.map_append, List.pairwise_append] at hstamps
    obtain ⟨-, hstamps, hcross⟩ := hstamps
    have hstep := hs.carries (m.step_carries o) fun y hy v hv => hle v hv y (by simp [Option.mem_def.mp hy])
    refine ih hm hstep.1 hrest hstamps fun v hv x hx => ?_
    rcases hstep.2 v hv with hv | ⟨y, hy, hvy⟩
    · exact hle v hv x (List.mem_append_right _ hx)
    · rw [hvy]
      exact hcross y.2 (by simp [Option.mem_def.mp hy]) x.2 (List.mem_map_of_mem hx)

omit [DecidableEq K] in
def Old (b : ExpireBuffer K V) (t : ℤ) (v : ExpireValue K V) : Bool := (b.livingTime : ℤ) < t - v.refreshtime

lemma popOld_listed (h : Models b m) (hs : m.Sorted) (currenttime now : ℤ) :
    ∃ b', b.exec (.popOld currenttime now) =
        some (⟨m.entries.countP (b.Old (if currenttime = 0 then now else currenttime)), none, none⟩, b') ∧
      Listed b' (m.entries.filter fun v => !b.Old (if currenttime = 0 then now else currenttime) v) := by
  obtain ⟨⟨r, b'⟩, hexec, hr, hm⟩ := exec_spec h (.popOld currenttime now)
  obtain ⟨ps, hrep⟩ := h
  have hold : ∀ t, m.expired t = b.Old t := fun t => funext fun v => by
    rw [ExpireMap.expired, Old, hrep.livingTime]
  have hsorted := hs.popOld (if currenttime = 0 then now else currenttime)
  refine ⟨b', ?_, ?_⟩
  · have hcount : ∀ p : ExpireValue K V → Bool, m.entries.length - (m.entries.filter fun v => !p v).length =
        m.entries.countP p := by
      intro p
      have hsum := List.length_eq_countP_add_countP p (l := m.entries)
      have hneg : (m.entries.filter fun v => !p v).length = m.entries.countP fun v => decide ¬p v = true := by
        rw [List.countP_eq_length_filter]
        simp
      omega
    rw [hexec, hr, ExpireMap.step, hsorted, hold, hcount]
  · have hlist := hm.listed
    rwa [ExpireMap.step, hsorted, hold] at hlist

theorem popOld_exact (maxCount : ℕ) (destroyOld : Bool) (livingTime : ℕ) (os : List (Op K V)) :
    ∃ rs b, runCalls exec (new maxCount destroyOld livingTime) os = some (rs, b) ∧
      (((refreshes os rs).map Prod.snd).Pairwise (· ≤ ·) →
        ∃ vs, Listed b vs ∧ vs.Pairwise (fun u v => u.refreshtime ≤ v.refreshtime) ∧
          ∀ currenttime now, ∃ b', b.exec (.popOld currenttime now) =
              some (⟨vs.countP (b.Old (if currenttime = 0 then now else currenttime)), none, none⟩, b') ∧
            Listed b' (vs.filter fun v => !b.Old (if currenttime = 0 then now else currenttime) v)) := by
  obtain ⟨⟨rs, b⟩, hrun, -⟩ := runCalls_refines Models (fun _ _ o h => exec_spec h o)
    (new_models (K := K) (V := V) maxCount destroyOld livingTime) os
  refine ⟨rs, b, hrun, fun hstamps => ?_⟩
  obtain ⟨m, hm, hs⟩ := run_sorted (new_models maxCount destroyOld livingTime) List.Pairwise.nil hrun hstamps
    fun v hv => absurd hv (List.not_mem_nil)
  exact ⟨m.entries, hm.listed, hs, popOld_listed hm hs⟩

theorem popOld_exact_ascending : ∃ rs b vs b', runCalls exec (new 2 true 10 : ExpireBuffer ℕ ℕ)
      [.push 1 10 5, .push 2 20 7, .update 1 0 9, .push 3 30 12] = some (rs, b) ∧ rs.map Ret.code = [1, 1, 1, 2] ∧
    Listed b vs ∧ b.exec (.popOld 0 20) = some (⟨1, none, none⟩, b') ∧ vs.countP (b.Old 20) = 1 ∧
      Listed b' (vs.filter fun v => !b.Old 20 v) := by
  obtain ⟨rs, b, hrun, h⟩ := popOld_exact 2 true 10
    [.push 1 10 5, .push 2 20 7, .update 1 0 9, .push 3 30 12]
  have hrs : rs = [⟨1, none, none⟩, ⟨1, none, none⟩, ⟨1, none, none⟩, ⟨2, none, none⟩] :=
    congrArg Prod.fst (Option.some.inj hrun.symm)
  obtain ⟨vs, hlisted, -, hpop⟩ := h (by rw [hrs]; decide)
  obtain ⟨b', hexec, hleft⟩ := hpop 0 20
  rw [if_pos rfl] at hexec hleft
  have hone : ((runCalls exec (new 2 true 10 : ExpireBuffer ℕ ℕ)
      [.push 1 10 5, .push 2 20 7, .update 1 0 9, .push 3 30 12]).bind fun x => x.2.exec (.popOld 0 20)).map
      (fun x => x.1.code) = some 1 := by decide +kernel
  rw [hrun] at hone
  have hcount : vs.countP (b.Old 20) = 1 := by simpa [hexec] using hone
  rw [hcount] at hexec
  exact ⟨rs, b, vs, b', hrun, by rw [hrs]; rfl, hlisted, hexec, hcount, hleft⟩

end ExpireBuffer

end Xframe.Comserv
