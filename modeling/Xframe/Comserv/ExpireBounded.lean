import Xframe.Comserv.ExpireCalls
import Xframe.Comserv.ExpireOrder

/-! An expiring buffer with a limit on its entries: what a push answers, and that the entry which makes room for
the new one is the least recently refreshed. -/

namespace Xframe.Comserv

open scoped List
open Xframe.Lib

variable {K V : Type} [DecidableEq K]

namespace ExpireMap

open ExpireBuffer

variable {m : ExpireMap K V} {M : ℕ}

structure Bounded (M : ℕ) (history : List K) (m : ExpireMap K V) : Prop where
  countMax : m.countMax = M
  length : m.entries.length ≤ M
  known : ∀ v ∈ m.entries, v.key ∈ history
  order : OldestFirst history (m.entries.map ExpireValue.key)

lemma push_length (hM : 0 < M) (hc : m.countMax = M) (hl : m.entries.length ≤ M) (key : K) (value : V) (now : ℤ) :
    (m.push key value now).2.entries.length ≤ M := by
  generalize hp : m.push key value now = p
  have hpush := m.push_pushes key value now
  rw [hp] at hpush
  cases hpush with
  | refused => exact hl
  | evicts _ hf _ he =>
    have := hf.2
    rw [he, List.length_append, List.length_tail, List.length_singleton]
    omega
  | adds _ hf he =>
    have hlt : m.entries.length < m.countMax := by
      by_contra hge
      exact hf ⟨by omega, by omega⟩
    rw [he, List.length_append, List.length_singleton]
    omega

lemma refresh_length {v w : ExpireValue K V} (hv : v ∈ m.entries) (hk : w.key = v.key) :
    (m.refresh w).entries.length = m.entries.length := by
  obtain ⟨l, r, he⟩ := List.append_of_mem hv
  have herase : (m.entries.filter fun u => u.key ≠ v.key) = l ++ r := erase_middle he
  rw [refresh_entries, hk, herase, he]
  simp only [List.length_append, List.length_cons, List.length_nil]
  omega

lemma step_length (hM : 0 < M) (hc : m.countMax = M) (hl : m.entries.length ≤ M) (o : Op K V) :
    (m.step o).2.entries.length ≤ M := by
  have hcarry := m.step_carries o
  cases o with
  | push key value now => exact push_length hM hc hl key value now
  | pushOld key value now => exact push_length hM hc hl key value now
  | update key refreshtime now =>
    rw [step]
    cases hf : m.find key with
    | none => exact hl
    | some v =>
      change (m.refresh _).entries.length ≤ M
      rw [refresh_length (find_eq_some.mp hf).1]
      · exact hl
      · rfl
  | updateValue key value now =>
    rw [step]
    cases hf : m.find key with
    | none => exact hl
    | some v =>
      change (m.refresh _).entries.length ≤ M
      rw [refresh_length (find_eq_some.mp hf).1]
      · exact hl
      · rfl
  | find key => exact hl
  | pop key => exact hcarry.length_le.trans hl
  | popFront => exact hcarry.length_le.trans hl
  | popBack => exact hcarry.length_le.trans hl
  | popFrontOld currenttime now => exact hcarry.length_le.trans hl
  | popOld currenttime now => exact hcarry.length_le.trans hl

lemma step_countMax (m : ExpireMap K V) (o : Op K V) : (m.step o).2.countMax = m.countMax := by
  cases o with
  | push key value now => exact m.push_countMax key value now
  | pushOld key value now => exact m.push_countMax key value now
  | update key refreshtime now => exact m.update_countMax key refreshtime now
  | updateValue key value now =>
    rw [step]
    split <;> rfl
  | popFrontOld currenttime now =>
    change (m.popFrontOld _).2.countMax = _
    rw [popFrontOld]
    split
    · rfl
    · split_ifs <;> rfl
  | find key => rfl
  | pop key => rfl
  | popFront => rfl
  | popBack => rfl
  | popOld currenttime now => rfl

lemma Carries.known {m' : ExpireMap K V} {x : Option (K × ℤ)} {history : List K} (hc : Carries m m' x)
    (h : ∀ v ∈ m.entries, v.key ∈ history) : ∀ v ∈ m'.entries, v.key ∈ history ++ (x.map Prod.fst).toList := by
  intro v hv
  cases x with
  | none => exact List.mem_append_left _ (h v (hc.subset hv))
  | some x =>
    obtain ⟨w, hw, -, hsub⟩ := hc
    rcases List.mem_append.mp (hsub.subset hv) with hv | hv
    · exact List.mem_append_left _ (h v (List.mem_filter.mp hv).1)
    · obtain rfl := List.mem_singleton.mp hv
      exact List.mem_append_right _ (by simp [hw])

lemma Carries.oldestFirst {m' : ExpireMap K V} {x : Option (K × ℤ)} {history : List K} (hc : Carries m m' x)
    (h : OldestFirst history (m.entries.map ExpireValue.key)) :
    OldestFirst (history ++ (x.map Prod.fst).toList) (m'.entries.map ExpireValue.key) := by
  cases x with
  | none =>
    rw [Option.map_none, Option.toList_none, List.append_nil]
    exact List.Pairwise.sublist (hc.map _) h
  | some x =>
    obtain ⟨v, hv, -, hsub⟩ := hc
    refine h.use x.1 ?_
    have hmap := hsub.map ExpireValue.key
    rw [List.map_append, List.map_singleton, hv] at hmap
    rw [List.filter_map]
    exact hmap

end ExpireMap

namespace ExpireBuffer

variable {b : ExpireBuffer K V} {m : ExpireMap K V} {M : ℕ} {history : List K}

omit [DecidableEq K] in
def refreshedKey : Call K V → Ret K V → Option K
  | .op o, r => (refreshed o r).map Prod.fst
  | _, _ => none

omit [DecidableEq K] in
def refreshedKeys (os : List (Call K V)) (rs : List (Ret K V)) : List K :=
  (os.zip rs).filterMap fun (c, r) => refreshedKey c r

omit [DecidableEq K] in
lemma refreshedKeys_cons (c : Call K V) (os : List (Call K V)) (r : Ret K V) (rs : List (Ret K V)) :
    refreshedKeys (c :: os) (r :: rs) = (refreshedKey c r).toList ++ refreshedKeys os rs := by
  cases h : refreshedKey c r with
  | none => simp [refreshedKeys, h]
  | some x => simp [refreshedKeys, h]

omit [DecidableEq K] in
/-- The calls on a buffer that is never cleared and whose limit stays `M`. -/
def Keeps (M : ℕ) (c : Call K V) : Prop := c ≠ .clear ∧ ∀ n, c = .setMaxCount n → n = M

lemma call_bounded {c : Call K V} {r : Ret K V} (hM : 0 < M) (h : m.Bounded M history) (hc : Keeps M c)
    (hr : ∀ o, c = .op o → r = (m.step o).1) :
    (m.after c).Bounded M (history ++ (refreshedKey c r).toList) := by
  have hsame : m.Bounded M (history ++ []) := by rwa [List.append_nil]
  cases c with
  | op o =>
    obtain rfl := hr o rfl
    exact ⟨(m.step_countMax o).trans h.countMax, m.step_length hM h.countMax h.length o,
      (m.step_carries o).known h.known, (m.step_carries o).oldestFirst h.order⟩
  | front => exact hsame
  | back => exact hsame
  | next => exact hsame
  | prev => exact hsame
  | nextOut => exact hsame
  | prevOut => exact hsame
  | frontOld t now => exact hsame
  | clear => exact absurd rfl hc.1
  | setMaxCount n => exact ⟨hc.2 n rfl, h.length, hsame.known, hsame.order⟩
  | setLivingTime n => exact ⟨h.countMax, h.length, hsame.known, hsame.order⟩
  | setDestroyPolicy d => exact ⟨h.countMax, h.length, hsame.known, hsame.order⟩

lemma run_bounded {os : List (Call K V)} {rs : List (Ret K V)} {b' : ExpireBuffer K V} (hM : 0 < M) (hm : Models b m)
    (h : m.Bounded M history) (hos : ∀ c ∈ os, Keeps M c) (hrun : runCalls call b os = some (rs, b')) :
    ∃ m', Models b' m' ∧ m'.Bounded M (history ++ refreshedKeys os rs) := by
  induction os generalizing b m history rs with
  | nil =>
    cases hrun
    exact ⟨m, hm, by simpa [refreshedKeys] using h⟩
  | cons c os ih =>
    rw [runCalls_cons] at hrun
    obtain ⟨⟨r, b₁⟩, hcall, hrun⟩ := Option.bind_eq_some_iff.mp hrun
    obtain ⟨⟨rs', b₂⟩, hrest, heq⟩ := Option.bind_eq_some_iff.mp hrun
    cases heq
    have hc := hos c (by simp)
    obtain ⟨hm₁, hr⟩ := call_models hm hc.1 hcall
    rw [refreshedKeys_cons, ← List.append_assoc]
    exact ih hm₁ (call_bounded hM h hc hr) (fun c hc => hos c (by simp [hc])) hrest

lemma push_zero {key : K} {value : V} {now : ℤ} {b' : ExpireBuffer K V} (h : b.push key value now = some (0, b')) :
    b' = b := by
  rw [push] at h
  split_ifs at h with hk hd
  · cases h
    rfl
  · cases h
    rfl
  · obtain ⟨b₁, -, h⟩ := Option.bind_eq_some_iff.mp h
    obtain ⟨b₂, -, h⟩ := Option.bind_eq_some_iff.mp h
    dsimp only at h
    split_ifs at h
    · obtain ⟨⟨x, b₃⟩, -, h⟩ := Option.bind_eq_some_iff.mp h
      cases h
    · cases h

lemma pushOld_zero {key : K} {value : V} {now : ℤ} {r : Ret K V} {b' : ExpireBuffer K V}
    (h : b.pushOld key value now = some (r, b')) (hr : r.code = 0) : b' = b := by
  obtain ⟨t, -, h⟩ := Option.bind_eq_some_iff.mp h
  obtain ⟨⟨ret, b₁⟩, hpush, h⟩ := Option.bind_eq_some_iff.mp h
  cases h
  obtain rfl : ret = 0 := hr
  exact push_zero hpush

structure Pushed (b : ExpireBuffer K V) (M : ℕ) (vs : List (ExpireValue K V)) (key : K) (value : V) (now : ℤ) (r : Ret K V)
    (b' : ExpireBuffer K V) (vs' : List (ExpireValue K V)) : Prop where
  listed : Listed b' vs'
  refused : r.code = 0 ↔ (∃ v ∈ vs, v.key = key) ∨ vs.length = M ∧ b.destroyOld = false
  unchanged : r.code = 0 → b' = b ∧ vs' = vs ∧ r.value = none
  evicts : r.code = 2 ↔ (∀ v ∈ vs, v.key ≠ key) ∧ vs.length = M ∧ b.destroyOld = true
  evicted : r.code = 2 → ∃ w rest, vs = w :: rest ∧ r.value = some w.value ∧ vs' = rest ++ [.new key value now]
  added : r.code ≠ 0 → r.code ≠ 2 → r.code = 1 ∧ r.value = none ∧ vs' = vs ++ [.new key value now]

lemma pushed (hM : 0 < M) (hm : Models b m) (h : m.Bounded M history) (key : K) (value : V) (now : ℤ) :
    ∃ r b' vs', b.pushOld key value now = some (r, b') ∧ Pushed b M m.entries key value now r b' vs' := by
  obtain ⟨⟨r, b'⟩, hpush, hr, hm'⟩ := pushOld_spec hm key value now
  have hzero := pushOld_zero hpush
  obtain ⟨ps, hrep⟩ := hm
  have hfull : m.Full ↔ m.entries.length = M := by
    have := h.length
    rw [ExpireMap.Full, h.countMax]
    omega
  have hkey : (m.find key).isSome ↔ ∃ v ∈ m.entries, v.key = key := by
    rw [← ExpireMap.mem_keys_iff, List.mem_map]
  have hnone : m.find key = none ↔ ∀ v ∈ m.entries, v.key ≠ key := ExpireMap.find_eq_none
  have hdestroy := hrep.destroyOld
  have hcases := m.push_pushes key value now
  replace hr : r = ⟨(m.push key value now).1, none,
    if (m.push key value now).1 = 2 then m.entries.head?.map ExpireValue.value else none⟩ := hr
  replace hm' : Models b' (m.push key value now).2 := hm'
  generalize m.push key value now = p at hcases hr hm'
  refine ⟨r, b', p.2.entries, hpush, ?_⟩
  subst hr
  cases hcases with
  | refused hwhy =>
    rw [hkey, hfull, ← hdestroy] at hwhy
    refine ⟨hm'.listed, iff_of_true rfl hwhy, fun _ => ⟨hzero rfl, rfl, rfl⟩, iff_of_false (by simp) ?_,
      fun h => absurd h (by simp), fun h => absurd rfl h⟩
    rintro ⟨hno, hlen, hd⟩
    rcases hwhy with ⟨v, hv, hk⟩ | ⟨-, hd'⟩
    · exact hno v hv hk
    · rw [hd] at hd'
      cases hd'
  | evicts hno hf hd he =>
    obtain ⟨w, rest, hent⟩ := List.exists_cons_of_ne_nil hf.ne_nil
    rw [hnone] at hno
    rw [hfull] at hf
    rw [← hdestroy] at hd
    refine ⟨hm'.listed, iff_of_false (by simp) ?_, fun h => absurd h (by simp), iff_of_true rfl ⟨hno, hf, hd⟩,
      fun _ => ⟨w, rest, hent, ?_, ?_⟩, fun _ h => absurd rfl h⟩
    · rintro (⟨v, hv, hk⟩ | ⟨-, hd'⟩)
      · exact hno v hv hk
      · rw [hd] at hd'
        cases hd'
    · rw [hent]
      rfl
    · rw [he, hent, List.tail_cons]
  | adds hno hf he =>
    rw [hnone] at hno
    rw [hfull] at hf
    refine ⟨hm'.listed, iff_of_false (by simp) ?_, fun h => absurd h (by simp), iff_of_false (by simp) ?_,
      fun h => absurd h (by simp), fun _ _ => ⟨rfl, rfl, he⟩⟩
    · rintro (⟨v, hv, hk⟩ | ⟨hlen, -⟩)
      · exact hno v hv hk
      · exact hf hlen
    · exact fun h => hf h.2.1

theorem push_bounded (hM : 0 < M) {destroyOld : Bool} {livingTime : ℕ} {os : List (Call K V)} {rs : List (Ret K V)}
    (hos : ∀ c ∈ os, Keeps M c) (hrun : runCalls call (new M destroyOld livingTime) os = some (rs, b)) :
    ∃ vs, Listed b vs ∧ b.count = vs.length ∧ vs.length ≤ M ∧
      (∀ v ∈ vs, v.key ∈ refreshedKeys os rs) ∧ OldestFirst (refreshedKeys os rs) (vs.map ExpireValue.key) ∧
      ∀ key value now, ∃ r b' vs', b.pushOld key value now = some (r, b') ∧ Pushed b M vs key value now r b' vs' := by
  have h0 : (ExpireMap.new M destroyOld livingTime : ExpireMap K V).Bounded M [] :=
    ⟨rfl, Nat.zero_le M, fun v hv => absurd hv List.not_mem_nil, List.Pairwise.nil⟩
  obtain ⟨m, hm, h⟩ := run_bounded hM (new_models M destroyOld livingTime) h0 hos hrun
  rw [List.nil_append] at h
  obtain ⟨ps, hrep⟩ := id hm
  exact ⟨m.entries, hm.listed, by rw [hrep.count, hrep.length], h.length, h.known, h.order, pushed hM hm h⟩

def filling : List (Call ℕ ℕ) := [.op (.push 1 10 5), .op (.push 2 20 6), .op (.update 1 0 7)]

theorem push_bounded_filling : ∃ rs b, runCalls call (new 2 true 60) filling = some (rs, b) ∧
    ∃ vs, Listed b vs ∧ b.count = vs.length ∧ vs.length ≤ 2 ∧
      (∀ v ∈ vs, v.key ∈ refreshedKeys filling rs) ∧ OldestFirst (refreshedKeys filling rs) (vs.map ExpireValue.key) ∧
      ∀ key value now, ∃ r b' vs', b.pushOld key value now = some (r, b') ∧ Pushed b 2 vs key value now r b' vs' := by
  have hrun : ∃ rs b, runCalls call (new 2 true 60) filling = some (rs, b) := ⟨_, _, rfl⟩
  obtain ⟨rs, b, hrun⟩ := hrun
  refine ⟨rs, b, hrun, push_bounded (by decide) (fun c hc => ?_) hrun⟩
  simp only [filling, List.mem_cons, List.not_mem_nil, or_false] at hc
  rcases hc with rfl | rfl | rfl <;> exact ⟨by simp, by simp⟩

end ExpireBuffer

end Xframe.Comserv
