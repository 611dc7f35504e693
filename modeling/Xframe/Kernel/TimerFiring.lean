import Xframe.Kernel.TimerQueue

/-! Every timer fires once, in the first `process` call at or after its due time, unless it was
stopped or removed before that call. -/

namespace Xframe.Kernel.TaskTimerQueue

open Xframe.Lib

variable {q q' : TaskTimerQueue} {F ts : List TTimer} {now : ℕ} {t u : TTimer} {e : Event}

structure Good (q : TaskTimerQueue) (F : List TTimer) : Prop where
  nodup : ((F ++ q.mTimers).map TTimer.mTimerKey).Nodup
  keyed : ∀ key, q.mTimerStoped key ≠ none → ∃ t ∈ q.mTimers, t.mTimerKey = key
  issued : ∀ t ∈ F ++ q.mTimers, t.mTimerKey ≤ q.mTimerKey
  fifo : q.mFifo = F.map TTimer.timeOut

lemma good_new : Good new [] :=
  ⟨List.nodup_nil, fun _ h => absurd rfl h, fun _ h => absurd h List.not_mem_nil, rfl⟩

lemma Good.eq_of_key (h : Good q F) (ht : t ∈ q.mTimers) (hu : u ∈ q.mTimers)
    (hk : t.mTimerKey = u.mTimerKey) : t = u := by
  have hn := h.nodup
  rw [List.map_append, List.nodup_append] at hn
  exact List.inj_on_of_nodup_map hn.2.1 ht hu hk

lemma Good.erase_mem (h : Good q F) (ht : t ∈ q.mTimers) :
    u ∈ q.mTimers.erase t ↔ u ∈ q.mTimers ∧ u.mTimerKey ≠ t.mTimerKey := by
  have hn := h.nodup
  rw [List.map_append, List.nodup_append] at hn
  rw [hn.2.1.of_map.mem_erase_iff]
  constructor
  · rintro ⟨hne, hu⟩
    exact ⟨hu, fun hk => hne (h.eq_of_key hu ht hk)⟩
  · rintro ⟨hu, hk⟩
    exact ⟨fun e => hk (e ▸ rfl), hu⟩

lemma nextKey_eq (h : q.mTimerKey + 1 < 2 ^ 32) : q.nextKey = q.mTimerKey + 1 := by
  rw [nextKey, Nat.mod_eq_of_lt h, if_neg (by omega)]

section Calls

variable {mark delay tid iid para : ℕ}

lemma Good.add (h : Good q F) (hk : q.mTimerKey + 1 < 2 ^ 32) :
    Good (q.add mark delay tid iid para now).2 F := by
  constructor
  · have hfresh : ∀ t ∈ F ++ q.mTimers, t.mTimerKey ≠ q.nextKey := by
      intro t ht
      have := h.issued t ht
      rw [nextKey_eq hk]
      omega
    have hperm : (F ++ (q.add mark delay tid iid para now).2.mTimers).Perm
        (.new mark q.nextKey delay tid iid para now :: (F ++ q.mTimers)) := List.perm_middle
    rw [(hperm.map _).nodup_iff, List.map_cons, List.nodup_cons]
    refine ⟨?_, h.nodup⟩
    rw [List.mem_map]
    rintro ⟨t, ht, he⟩
    exact hfresh t ht he
  · intro key hkey
    by_cases he : key = q.nextKey
    · exact ⟨_, List.mem_cons_self, he.symm⟩
    · obtain ⟨t, ht, htk⟩ := h.keyed key (by simpa [TaskTimerQueue.add, he] using hkey)
      exact ⟨t, List.mem_cons_of_mem _ ht, htk⟩
  · intro t ht
    have hq : (q.add mark delay tid iid para now).2.mTimerKey = q.mTimerKey + 1 := nextKey_eq hk
    rw [hq]
    rcases List.mem_append.mp ht with ht | ht
    · have := h.issued t (List.mem_append_left _ ht)
      omega
    · rcases List.mem_cons.mp ht with rfl | ht
      · exact (nextKey_eq hk).le
      · have := h.issued t (List.mem_append_right _ ht)
        omega
  · exact h.fifo

lemma Good.table (h : Good q F) {table : ℕ → Option Bool}
    (ht : ∀ key, table key ≠ none → q.mTimerStoped key ≠ none) :
    Good { q with mTimerStoped := table } F :=
  ⟨h.nodup, fun key hk => h.keyed key (ht key hk), h.issued, h.fifo⟩

lemma stop_eq (q : TaskTimerQueue) (key : ℕ) : q.stop key = { q with
    mTimerStoped := Function.update q.mTimerStoped key ((q.mTimerStoped key).map fun _ => false) } := by
  rw [stop]
  cases hk : q.mTimerStoped key with
  | none =>
    have hu : Function.update q.mTimerStoped key none = q.mTimerStoped := by
      rw [← hk, Function.update_eq_self]
    simp [hu]
  | some b =>
    cases b with
    | false =>
      have hu : Function.update q.mTimerStoped key (some false) = q.mTimerStoped := by
        rw [← hk, Function.update_eq_self]
      simp [hu]
    | true => rfl

lemma Good.stop (h : Good q F) (key : ℕ) : Good (q.stop key) F := by
  rw [stop_eq]
  refine h.table fun k hk => ?_
  by_cases he : k = key
  · subst he
    simpa using hk
  · simpa [he] using hk

lemma Good.remove (h : Good q F) (key : ℕ) : Good (q.remove key) F := by
  refine h.table fun k hk => ?_
  by_cases he : k = key
  · subst he
    simp at hk
  · simpa [he] using hk

end Calls

def turn (q : TaskTimerQueue) (t : TTimer) : TaskTimerQueue := (q.processTimer t).pop t

@[simp] lemma turn_timers (q : TaskTimerQueue) (t : TTimer) : (q.turn t).mTimers = q.mTimers.erase t := by
  rw [turn, processTimer]
  split <;> rfl

@[simp] lemma turn_key (q : TaskTimerQueue) (t : TTimer) : (q.turn t).mTimerKey = q.mTimerKey := by
  rw [turn, processTimer]
  split <;> rfl

@[simp] lemma turn_table (q : TaskTimerQueue) (t : TTimer) :
    (q.turn t).mTimerStoped = Function.update q.mTimerStoped t.mTimerKey none := by
  rw [turn, processTimer]
  split
  · rfl
  · rename_i h
    exact (Function.update_eq_self_iff.mpr h.symm).symm

lemma turn_fifo (ht : t ∈ q.mTimers) :
    (q.turn t).mFifo = q.mFifo ++ if q.Armed t then [t.timeOut] else [] := by
  rw [turn, processTimer]
  split
  · rename_i b hb
    cases b <;> simp [pop, Armed, ht, hb]
  · rename_i hb
    simp [pop, Armed, hb]

lemma Good.turn (h : Good q F) (ht : t ∈ q.mTimers) :
    Good (q.turn t) (F ++ if q.Armed t then [t] else []) := by
  have hsub : (F ++ (if q.Armed t then [t] else []) ++ (q.turn t).mTimers).Subperm (F ++ q.mTimers) := by
    rw [List.append_assoc, turn_timers]
    refine (List.subperm_append_left F).mpr ?_
    split
    · exact (List.perm_cons_erase ht).symm.subperm
    · exact List.erase_subperm t q.mTimers
  constructor
  · obtain ⟨l, hp, hl⟩ := hsub
    exact (hp.map _).nodup_iff.mp (h.nodup.sublist (hl.map _))
  · intro key hk
    rw [turn_table] at hk
    by_cases he : key = t.mTimerKey
    · simp [he] at hk
    · obtain ⟨u, hu, huk⟩ := h.keyed key (by simpa [he] using hk)
      rw [turn_timers]
      exact ⟨u, (h.erase_mem ht).mpr ⟨hu, fun e => he (huk ▸ e)⟩, huk⟩
  · intro u hu
    rw [turn_key]
    exact h.issued u (hsub.subset hu)
  · rw [turn_fifo ht, h.fifo, List.map_append]
    split <;> rfl

lemma Good.armed_turn (h : Good q F) (ht : t ∈ q.mTimers) :
    (q.turn t).Armed u ↔ q.Armed u ∧ u ≠ t := by
  rw [Armed, Armed, turn_timers, turn_table, h.erase_mem ht]
  by_cases hk : u.mTimerKey = t.mTimerKey
  · have : q.Armed u ∧ u ≠ t → False := fun ⟨hu, hne⟩ => hne (h.eq_of_key hu.1 ht hk)
    simpa [hk, Armed] using this
  · have hne : u ≠ t := fun e => hk (e ▸ rfl)
    simp [hk, hne]

lemma Turns.spec (hq : Good q F) (h : Turns now q ts q') :
    Good q' (F ++ ts) ∧ q'.mTimerKey = q.mTimerKey ∧ (∀ u, q.Armed u ↔ u ∈ ts ∨ q'.Armed u) ∧
      (∀ u ∈ ts, u.mWhen ≤ now ∧ ¬q'.Armed u) ∧ (ts.map TTimer.mWhen).Pairwise (· ≤ ·) := by
  induction h generalizing F with
  | nil => simp [hq]
  | @cons q t ts q' htop hdue _ ih =>
    have hg : Good (q.turn t) (F ++ if q.Armed t then [t] else []) := hq.turn htop.1
    obtain ⟨h1, h2, h3, h4, h5⟩ := ih hg
    have h3 : ∀ u, q.Armed u ∧ u ≠ t ↔ u ∈ ts ∨ q'.Armed u := fun u => by
      rw [← hq.armed_turn htop.1]
      exact h3 u
    have hnot : ¬(t ∈ ts ∨ q'.Armed t) := fun h => ((h3 t).mpr h).2 rfl
    refine ⟨?_, h2.trans (turn_key q t), ?_, ?_, ?_⟩
    · convert h1 using 1
      split <;> simp
    · intro u
      by_cases hu : u = t
      · subst hu
        split <;> simp_all
      · have := h3 u
        split <;> simp_all
    · intro u hu
      have hu' : u = t ∨ u ∈ ts := by
        split at hu
        · exact List.mem_cons.mp hu
        · exact Or.inr hu
      rcases hu' with rfl | hu'
      · exact ⟨by omega, fun h => hnot (Or.inr h)⟩
      · exact h4 u hu'
    · split
      · rw [List.map_cons, List.pairwise_cons]
        refine ⟨?_, h5⟩
        intro w hw
        obtain ⟨u, hu, rfl⟩ := List.mem_map.mp hw
        exact htop.2 u ((h3 u).mpr (Or.inl hu)).1.1
      · exact h5

lemma Turns.subset (h : Turns now q ts q') : q'.mTimers ⊆ q.mTimers := by
  induction h with
  | nil => exact List.Subset.refl _
  | @cons q t _ _ _ _ _ ih =>
    intro u hu
    have hu : u ∈ (q.turn t).mTimers := ih hu
    rw [turn_timers] at hu
    exact List.mem_of_mem_erase hu

lemma exists_top (ht : t ∈ q.mTimers) : ∃ u, q.Top u := by
  obtain ⟨u, hu, hleast⟩ := q.mTimers.toFinset.exists_min_image TTimer.mWhen ⟨t, List.mem_toFinset.mpr ht⟩
  exact ⟨u, List.mem_toFinset.mp hu, fun v hv => hleast v (List.mem_toFinset.mpr hv)⟩

lemma exists_turns (q : TaskTimerQueue) (now : ℕ) :
    ∃ ts q', Turns now q ts q' ∧ ∀ t ∈ q'.mTimers, now < t.mWhen := by
  induction hn : q.mTimers.length generalizing q with
  | zero =>
    rw [List.length_eq_zero_iff] at hn
    exact ⟨[], q, .nil, by simp [hn]⟩
  | succ n ih =>
    by_cases hdue : ∀ t ∈ q.mTimers, now < t.mWhen
    · exact ⟨[], q, .nil, hdue⟩
    · simp only [not_forall] at hdue
      obtain ⟨t, ht, hdue⟩ := hdue
      obtain ⟨u, htop⟩ := exists_top ht
      have hlen : (q.turn u).mTimers.length = n := by
        rw [turn_timers, List.length_erase_of_mem htop.1, hn]
        rfl
      obtain ⟨ts, q', hturns, hdone⟩ := ih (q.turn u) hlen
      have hle := htop.2 t ht
      exact ⟨_, q', .cons htop (by omega) hturns, hdone⟩

@[simp] lemma adds_snoc (es : List Event) (e : Event) : adds (es ++ [e]) = adds es + adds [e] :=
  List.countP_append

@[simp] lemma fired_snoc (es : List Event) (e : Event) : fired (es ++ [e]) = fired es ++ fired [e] :=
  List.flatMap_append

structure Inv (es : List Event) (q : TaskTimerQueue) : Prop where
  good : Good q (fired es)
  key : q.mTimerKey = adds es
  added : ∀ t ∈ q.mTimers, .add t ∈ es

lemma adds_lt {es fs : List Event} {n : ℕ} (h : adds (es ++ fs) < n) : adds es < n := by
  rw [adds, List.countP_append] at h
  exact lt_of_le_of_lt (Nat.le_add_right _ _) h

lemma Inv.key_lt {es : List Event} (h : Inv es q) (hb : adds (es ++ [.add t]) < 2 ^ 32 - 1) :
    q.mTimerKey + 1 < 2 ^ 32 := by
  have hk := h.key
  rw [adds_snoc] at hb
  simp only [adds, List.countP_singleton, if_true] at hb hk
  omega

lemma Inv.step {es : List Event} (h : Inv es q) (hs : Step q e q') (hb : adds (es ++ [e]) < 2 ^ 32 - 1) :
    Inv (es ++ [e]) q' := by
  have hg := h.good
  have hk := h.key
  have hold : ∀ t ∈ q.mTimers, .add t ∈ es ++ [e] := fun t ht => List.mem_append_left _ (h.added t ht)
  cases hs with
  | add mark delay tid iid para now =>
    have hlt := h.key_lt hb
    refine ⟨by simpa [fired] using hg.add hlt, (nextKey_eq hlt).trans ?_, ?_⟩
    · rw [hk, adds_snoc]
      rfl
    · intro t ht
      rcases List.mem_cons.mp ht with rfl | ht
      · exact List.mem_append_right _ List.mem_cons_self
      · exact hold t ht
  | stop key =>
    refine ⟨by simpa [fired] using hg.stop key, ?_, ?_⟩
    · rw [stop_eq, adds_snoc]
      exact hk
    · rwa [stop_eq]
  | remove key => exact ⟨by simpa [fired] using hg.remove key, by rw [adds_snoc]; exact hk, hold⟩
  | process later hturns hdone =>
    obtain ⟨h1, h2, -⟩ := hturns.spec hg
    refine ⟨by simpa [fired] using h1, ?_, fun t ht => hold t (hturns.subset ht)⟩
    rw [h2, adds_snoc]
    exact hk

lemma Run.inv {es : List Event} (h : Run Step new es q) (hb : adds es < 2 ^ 32 - 1) : Inv es q := by
  have := h.invariant (I := fun es q => adds es < 2 ^ 32 - 1 → Inv es q)
    (fun _ => ⟨good_new, rfl, fun _ h => absurd h List.not_mem_nil⟩)
    (fun es q e q' ih hs hlt => (ih (adds_lt hlt)).step hs hlt)
  exact this hb

lemma Inv.armed_iff {es : List Event} (h : Inv es q) (ht : t.mTimerKey ≤ q.mTimerKey)
    (hb : adds (es ++ [e]) < 2 ^ 32 - 1) (hs : Step q e q') :
    q'.Armed t ↔ q.Armed t ∧ Keeps t e := by
  cases hs with
  | add mark delay tid iid para now =>
    have hlt := h.key_lt hb
    have hne : t.mTimerKey ≠ q.nextKey := by
      rw [nextKey_eq hlt]
      omega
    have hnew : t ≠ TTimer.new mark q.nextKey delay tid iid para now := fun e => hne (e ▸ rfl)
    simp [Armed, Keeps, TaskTimerQueue.add, hne, hnew]
  | stop key =>
    rw [stop_eq]
    by_cases hk : key = t.mTimerKey
    · subst hk
      cases hq : q.mTimerStoped t.mTimerKey <;> simp [Armed, Keeps, hq]
    · simp [Armed, Keeps, hk, Ne.symm hk]
  | remove key =>
    by_cases hk : key = t.mTimerKey
    · simp [Armed, Keeps, remove, hk]
    · simp [Armed, Keeps, remove, hk, Ne.symm hk]
  | process later hturns hdone =>
    obtain ⟨-, -, h3, h4, -⟩ := hturns.spec h.good
    constructor
    · intro ha
      exact ⟨(h3 t).mpr (Or.inr ha), hdone t ha.1⟩
    · rintro ⟨ha, hlt⟩
      rcases (h3 t).mp ha with hm | ha
      · have := (h4 t hm).1
        have : _ < t.mWhen := hlt
        omega
      · exact ha

lemma Inv.armed_run {es mid : List Event} (h : Inv es q) (ht : t.mTimerKey ≤ q.mTimerKey)
    (hr : Run Step q mid q') (hb : adds (es ++ mid) < 2 ^ 32 - 1) :
    Inv (es ++ mid) q' ∧ (q'.Armed t ↔ q.Armed t ∧ ∀ e ∈ mid, Keeps t e) := by
  have := hr.invariant (I := fun mid q' => adds (es ++ mid) < 2 ^ 32 - 1 →
    Inv (es ++ mid) q' ∧ (q'.Armed t ↔ q.Armed t ∧ ∀ e ∈ mid, Keeps t e)) (fun _ => by simpa using h)
    (fun mid q' e q'' ih hs hlt => ?_)
  · exact this hb
  · rw [← List.append_assoc] at hlt ⊢
    obtain ⟨hi, ha⟩ := ih (adds_lt hlt)
    have hle : t.mTimerKey ≤ q'.mTimerKey := by
      rw [hi.key, adds, List.countP_append]
      exact ht.trans (h.key.le.trans (Nat.le_add_right _ _))
    refine ⟨hi.step hs hlt, ?_⟩
    rw [hi.armed_iff hle hlt hs, ha]
    simp [or_imp, forall_and, and_assoc]

structure Serves (es : List Event) (q : TaskTimerQueue) : Prop where
  once : ((fired es).map TTimer.mTimerKey).Nodup
  fifo : q.mFifo = (fired es).map TTimer.timeOut
  added : ∀ pre now ts later ms post, es = pre ++ .process now ts later ms :: post →
    ∀ t ∈ ts, .add t ∈ pre
  fires : ∀ pre t mid now ts later ms post,
    es = pre ++ .add t :: (mid ++ .process now ts later ms :: post) →
      (t ∈ ts ↔ t.mWhen ≤ now ∧ ∀ e ∈ mid, Keeps t e)
  ordered : ∀ now ts later ms, .process now ts later ms ∈ es → (ts.map TTimer.mWhen).Pairwise (· ≤ ·)
  drained : ∀ pre now ts later ms, es = pre ++ [.process now ts later ms] →
    ∀ t ∈ q.mTimers, now < t.mWhen
  keyed : ∀ now ts q', Turns now q ts q' →
    ∀ key, q'.mTimerStoped key ≠ none → ∃ t ∈ q'.mTimers, t.mTimerKey = key
  returns : ∀ now, ∃ ts q', Turns now q ts q' ∧ ∀ t ∈ q'.mTimers, now < t.mWhen

lemma Run.at_process {pre post : List Event} {ts : List TTimer} {now later ms : ℕ}
    (h : Run Step new (pre ++ .process now ts later ms :: post) q)
    (hb : adds (pre ++ .process now ts later ms :: post) < 2 ^ 32 - 1) :
    ∃ q₁ q₂, Run Step new pre q₁ ∧ Inv pre q₁ ∧ Turns now q₁ ts q₂ ∧ (∀ t ∈ q₂.mTimers, now < t.mWhen) ∧
      Run Step q₂ post q := by
  obtain ⟨q₁, h1, h2⟩ := h.split
  obtain ⟨q₂, hs, h3⟩ := h2.cons_inv
  cases hs with
  | process later hturns hdone => exact ⟨q₁, q₂, h1, Run.inv h1 (adds_lt hb), hturns, hdone, h3⟩

theorem timers_served {es : List Event} (h : Run Step new es q) (hb : adds es < 2 ^ 32 - 1) :
    Serves es q where
  once := by
    have := (Run.inv h hb).good.nodup
    rw [List.map_append] at this
    exact (List.nodup_append.mp this).1
  fifo := (Run.inv h hb).good.fifo
  added := by
    rintro pre now ts later ms post rfl t ht
    obtain ⟨q₁, q₂, -, hi, hturns, -⟩ := Run.at_process h hb
    obtain ⟨-, -, h3, -⟩ := hturns.spec hi.good
    exact hi.added t ((h3 t).mpr (Or.inl ht)).1
  fires := by
    rintro pre t mid now ts later ms post rfl
    rw [← List.cons_append, ← List.append_assoc] at h hb
    obtain ⟨q₁, q₂, hrun, hi, hturns, hdone, -⟩ := Run.at_process h hb
    obtain ⟨-, -, h3, h4, -⟩ := hturns.spec hi.good
    obtain ⟨q₃, h5, h6⟩ := hrun.split
    obtain ⟨q₄, hs, h7⟩ := h6.cons_inv
    have hb' : adds (pre ++ [.add t] ++ mid) < 2 ^ 32 - 1 := by
      have := adds_lt hb
      simpa using this
    have hi₄ : Inv (pre ++ [.add t]) q₄ := (Run.inv h5 (adds_lt (adds_lt hb'))).step hs (adds_lt hb')
    obtain ⟨harmed, hkey⟩ : q₄.Armed t ∧ t.mTimerKey = q₄.mTimerKey := by
      cases hs with
      | add mark delay tid iid para now => exact ⟨⟨List.mem_cons_self, Function.update_self ..⟩, rfl⟩
    obtain ⟨-, hmid⟩ := hi₄.armed_run hkey.le h7 hb'
    rw [iff_true_intro harmed, true_and] at hmid
    rw [← hmid]
    constructor
    · intro ht
      exact ⟨(h4 t ht).1, (h3 t).mpr (Or.inl ht)⟩
    · rintro ⟨hdue, ha⟩
      rcases (h3 t).mp ha with ht | ha
      · exact ht
      · have := hdone t ha.1
        omega
  ordered := by
    intro now ts later ms hm
    obtain ⟨pre, post, rfl⟩ := List.append_of_mem hm
    obtain ⟨q₁, q₂, -, hi, hturns, -⟩ := Run.at_process h hb
    exact (hturns.spec hi.good).2.2.2.2
  drained := by
    rintro pre now ts later ms rfl
    obtain ⟨q₁, q₂, -, -, -, hdone, hpost⟩ := Run.at_process h hb
    exact hpost.nil_inv ▸ hdone
  keyed now ts q' hturns := (hturns.spec (Run.inv h hb).good).1.keyed
  returns := exists_turns q

lemma Turns.fires (htop : q.Top t) (hdue : ¬now < t.mWhen) (ha : q.Armed t) (h : Turns now (q.turn t) ts q') :
    Turns now q (t :: ts) q' := by
  have hturns := Turns.cons htop hdue h
  rwa [if_pos ha] at hturns

lemma Turns.skips (htop : q.Top t) (hdue : ¬now < t.mWhen) (ha : ¬q.Armed t) (h : Turns now (q.turn t) ts q') :
    Turns now q ts q' := by
  have hturns := Turns.cons htop hdue h
  rwa [if_neg ha] at hturns

def due15 (key : ℕ) : TTimer := .new key key 5 2 0 0 10

theorem timers_served_stopped : ∃ q, Serves [.add (due15 1), .add (due15 2), .add (due15 3), .stop 2,
    .process 20 [due15 1, due15 3] 20 timerStepMax] q := by
  obtain ⟨q, hq⟩ : ∃ q, ((((new.add 1 5 2 0 0 10).2.add 2 5 2 0 0 10).2.add 3 5 2 0 0 10).2.stop 2) = q := ⟨_, rfl⟩
  have hturns : Turns 20 q [due15 1, due15 3] (((q.turn (due15 1)).turn (due15 2)).turn (due15 3)) := by
    subst hq
    refine .fires (by unfold Top; decide) (by decide) (by decide) ?_
    refine .skips (t := due15 2) (by unfold Top; decide) (by decide) (by decide) ?_
    exact .fires (by unfold Top; decide) (by decide) (by decide) .nil
  have hdone : ∀ t ∈ (((q.turn (due15 1)).turn (due15 2)).turn (due15 3)).mTimers, 20 < t.mWhen := by
    subst hq
    decide
  have hrun : Run Step new [.add (due15 1), .add (due15 2), .add (due15 3), .stop 2] q := by
    subst hq
    exact .snoc (.snoc (.snoc (.snoc .nil (.add 1 5 2 0 0 10)) (.add 2 5 2 0 0 10)) (.add 3 5 2 0 0 10)) (.stop 2)
  have hms : (((q.turn (due15 1)).turn (due15 2)).turn (due15 3)).msTillNextTimer 20 = timerStepMax := by
    subst hq
    decide
  have hstep := Step.process 20 hturns hdone
  rw [hms] at hstep
  exact ⟨_, timers_served (.snoc hrun hstep) (by decide)⟩

end Xframe.Kernel.TaskTimerQueue
