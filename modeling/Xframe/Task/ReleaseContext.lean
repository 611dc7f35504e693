import Xframe.Task.ContextLifeCycle

/-! `releaseContext` called by a handler. An id that is not listed finds the placeholder of the list, which
is `NULL`. -/

namespace Xframe.Task.TMPTask

open Xframe.Comserv Xframe.Lib Xframe.Msg

inductive Calls : TMPTask → TMPTask → Prop
  | procMsg {t t' : TMPTask} {e : Handlers} {msg msg' : CtxMsg} {taskCID : UInt32} {es : List Effect} :
      t.choose e msg taskCID = some (es, some msg', t') → Calls t t'
  | onTimeOut {t : TMPTask} {timerKey timerCid : UInt32} {ctx : TTaskContext} :
      t.timerContextRefreshKey ≠ timerKey → 0 < timerCid → t.contextOf timerCid ≠ 0 →
      t.heap.read (t.contextOf timerCid) = some ctx →
      Calls t { t with mTaskCTX := t.contextOf timerCid, mTaskCID := ctx.mCID }
  | onTimeOutDefault {t : TMPTask} {timerKey : UInt32} :
      t.timerContextRefreshKey ≠ timerKey → Calls t { t with mTaskCTX := t.mDefaultTaskCTX, mTaskCID := 0 }
  | onContextExpire {t : TMPTask} {e : Handlers} {cid : UInt32} {p : ℕ} {ctx : TTaskContext} :
      t.frontOld e = some (cid, p) → t.heap.read p = some ctx → ctx.mReleaseTag = false →
      Calls t { t with mTaskCID := cid, mTaskCTX := p }
  | recycled {t t' t'' : TMPTask} {e : Handlers} {cid : UInt32} {p : ℕ} {expire : List UInt32 × Bool}
      {es : List Effect} :
      t.frontOld e = some (cid, p) → recycle { t with mTaskCID := cid, mTaskCTX := p } e expire = some (es, t') →
      Calls t' t'' → Calls t t''

inductive InHandler (t : TMPTask) : TMPTask → Prop
  | called {t' : TMPTask} : t.Calls t' → InHandler t t'
  | released {t' t'' : TMPTask} {cid : UInt32} :
      InHandler t t' → t'.releaseContext cid = some t'' → InHandler t t''

def Named (t : TMPTask) (cid : UInt32) (p : ℕ) : Prop :=
  if cid = 0 then p = t.mTaskCTX else (cid, p) ∈ t.contexts

structure MarksOnly (t : TMPTask) (cid : UInt32) (t' : TMPTask) : Prop where
  marked : ∀ p, t.Named cid p →
    ∃ ctx, t.heap.read p = some ctx ∧ t'.heap.read p = some { ctx with mReleaseTag := true }
  unchanged : ∀ p, ¬t.Named cid p → t'.heap.read p = t.heap.read p
  rest : t' = { t with heap := t'.heap }

variable {t t' t'' : TMPTask} {cid : UInt32} {p : ℕ}

lemma contexts_unique {q : ℕ} (hp : (cid, p) ∈ t.contexts) : (cid, q) ∈ t.contexts ↔ q = p := by
  rw [← lookup_iff, lookup_iff.mpr hp, Option.some.injEq]
  exact eq_comm

lemma releaseContext_eq (t : TMPTask) (cid : UInt32) :
    t.releaseContext cid = (t.heap.modify (t.contextOf (if cid = 0 then t.mTaskCID else cid))
      fun ctx => { ctx with mReleaseTag := true }).map fun heap => { t with heap } := by
  have hctx : (if cid ≠ 0 ∧ cid ≠ t.mTaskCID then t.contextOf cid else t.contextOf t.mTaskCID) =
      t.contextOf (if cid = 0 then t.mTaskCID else cid) := by
    split_ifs with hother hzero hzero
    · exact absurd hzero hother.1
    · rfl
    · rfl
    · have hself : cid = t.mTaskCID := by
        by_contra hne
        exact hother ⟨hzero, hne⟩
      rw [hself]
  rw [releaseContext, hctx]
  exact Option.map_eq_bind.symm

lemma releaseContext_later (h : t.releaseContext cid = some t') : t.Same t' ∧ ∃ heap, t' = { t with heap } := by
  rw [releaseContext_eq] at h
  obtain ⟨heap, hmod, rfl⟩ := Option.map_eq_some_iff.mp h
  obtain ⟨ctx, hc, -⟩ := Option.map_eq_some_iff.mp hmod
  obtain ⟨heap', hmod', hs⟩ :=
    modify_same (f := fun ctx => { ctx with mReleaseTag := true }) hc fun _ => rfl
  obtain rfl := Option.some.inj (hmod'.symm.trans hmod)
  exact ⟨hs, heap', rfl⟩

lemma Calls.current (hc : t.Calls t') (h : t.Inv) : t'.Inv ∧ t'.Current := by
  induction hc with
  | @procMsg t t' e msg msg' taskCID es hchoose =>
    obtain ⟨r, hr, hinv, -, hcur⟩ := choose_spec h e msg taskCID
    obtain rfl := Option.some.inj (hr.symm.trans hchoose)
    exact ⟨hinv, hcur rfl⟩
  | @onTimeOut t timerKey timerCid ctx hkey hcid hfound hread =>
    have hp := contextOf_ne_zero hfound
    obtain ⟨ctx', hc', rfl⟩ := h.keyed _ _ hp
    obtain rfl := Option.some.inj (hc'.symm.trans hread)
    have hs : t.Same { t with mTaskCTX := t.contextOf ctx'.mCID, mTaskCID := ctx'.mCID } :=
      Same.of_eq rfl rfl rfl rfl
    exact ⟨hs.inv h, Or.inl hp⟩
  | @onTimeOutDefault t timerKey hkey =>
    have hs : t.Same t.useDefault := Same.of_eq rfl rfl rfl rfl
    exact ⟨hs.inv h, Or.inr ⟨rfl, rfl⟩⟩
  | @onContextExpire t e cid p ctx hf hread htag =>
    obtain ⟨v, vs, hl, rfl, rfl⟩ := frontOld_eq_some hf
    have hs : t.Same { t with mTaskCID := v.key, mTaskCTX := v.value } := Same.of_eq rfl rfl rfl rfl
    refine ⟨hs.inv h, Or.inl ?_⟩
    change (v.key, v.value) ∈ t.contexts
    rw [contexts, hl]
    exact List.mem_cons_self
  | @recycled t t' t'' e cid p expire es hf hrec hc ih =>
    obtain ⟨v, vs, hl, rfl, rfl⟩ := frontOld_eq_some hf
    have hs : t.Same { t with mTaskCID := v.key, mTaskCTX := v.value } := Same.of_eq rfl rfl rfl rfl
    obtain ⟨r, hr, hinv, -⟩ := recycle_spec (hs.inv h) hl rfl e expire
    obtain rfl := Option.some.inj (hr.symm.trans hrec)
    exact ih hinv

lemma InHandler.current (hi : t.InHandler t') (h : t.Inv) : t'.Inv ∧ t'.Current := by
  induction hi with
  | called hc => exact hc.current h
  | released _ hrel ih =>
    obtain ⟨hinv, hcur⟩ := ih
    obtain ⟨hs, heap, rfl⟩ := releaseContext_later hrel
    exact ⟨hs.inv hinv, hcur⟩

lemma Inv.named_iff (h : t.Inv) (hcur : t.Current)
    (hp : ((if cid = 0 then t.mTaskCID else cid), p) ∈ t.contexts) {q : ℕ} : t.Named cid q ↔ q = p := by
  rw [Named]
  split_ifs at hp ⊢ with hzero
  · rcases hcur with hlisted | ⟨hdefault, -⟩
    · rw [(contexts_unique hp).mp hlisted]
    · exact absurd hdefault (h.nonzero _ _ hp)
  · exact contexts_unique hp

lemma Inv.marksOnly (h : t.Inv) (hcur : t.Current)
    (hp : ((if cid = 0 then t.mTaskCID else cid), p) ∈ t.contexts) :
    Returns (t.releaseContext cid) (t.MarksOnly cid) := by
  obtain ⟨ctx, hc, -⟩ := h.keyed _ _ hp
  obtain ⟨heap, hmod, hcells, -⟩ := Heap.modify_spec hc fun ctx => { ctx with mReleaseTag := true }
  have hctx : t.contextOf (if cid = 0 then t.mTaskCID else cid) = p := by
    rw [contextOf, lookup_iff.mpr hp, Option.getD_some]
  refine ⟨{ t with heap }, ?_, ?_, ?_, rfl⟩
  · rw [releaseContext_eq, hctx, hmod, Option.map_some]
  · intro q hq
    obtain rfl := (h.named_iff hcur hp).mp hq
    refine ⟨ctx, hc, ?_⟩
    rw [Heap.read, hcells, Function.update_self]
  · intro q hq
    rw [Heap.read, hcells, Function.update_of_ne fun heq => hq ((h.named_iff hcur hp).mpr heq)]
    rfl

lemma releaseContext_null (hnone : t.mTaskCTXList.lookup (if cid = 0 then t.mTaskCID else cid) = none) :
    t.releaseContext cid = none := by
  rw [releaseContext_eq, contextOf, hnone, Option.getD_none, Heap.modify, t.heap.null]
  rfl

lemma Inv.listed_iff (h : t.Inv) (hcur : t.Current) :
    (∃ p, (t.mTaskCID, p) ∈ t.contexts) ↔ t.mTaskCTX ≠ t.mDefaultTaskCTX := by
  rcases hcur with hlisted | ⟨hzero, hdefault⟩
  · exact ⟨fun _ => h.unlisted _ _ hlisted, fun _ => ⟨_, hlisted⟩⟩
  · constructor
    · rintro ⟨p, hp⟩
      exact absurd hzero (h.nonzero _ _ hp)
    · intro hne
      exact absurd hdefault hne

theorem release_safe_iff {ctx : TTaskContext} {mMaxTaskCID rate interval timerKey delay : UInt32}
    {calls : List Call} {ess : List (List Effect)}
    (hrun : runCalls exec (internalInit ctx mMaxTaskCID rate interval timerKey delay) calls = some (ess, t))
    (hin : t.InHandler t') (cid : UInt32) :
    Returns (t'.releaseContext cid) (t'.MarksOnly cid) ↔
      if cid = 0 then t'.mTaskCTX ≠ t'.mDefaultTaskCTX else ∃ p, (cid, p) ∈ t'.contexts := by
  obtain ⟨r, hr, hinv, -⟩ := run_spec (init_inv ctx mMaxTaskCID rate interval timerKey delay) calls
  obtain rfl := Option.some.inj (hr.symm.trans hrun)
  obtain ⟨h, hcur⟩ := hin.current hinv
  have hfound : (∃ p, ((if cid = 0 then t'.mTaskCID else cid), p) ∈ t'.contexts) ↔
      if cid = 0 then t'.mTaskCTX ≠ t'.mDefaultTaskCTX else ∃ p, (cid, p) ∈ t'.contexts := by
    split_ifs
    · exact h.listed_iff hcur
    · exact Iff.rfl
  rw [← hfound]
  constructor
  · rintro ⟨t'', ht'', -⟩
    cases hl : t'.mTaskCTXList.lookup (if cid = 0 then t'.mTaskCID else cid) with
    | none => simp [releaseContext_null hl] at ht''
    | some p => exact ⟨p, lookup_iff.mp hl⟩
  · rintro ⟨p, hp⟩
    exact h.marksOnly hcur hp

def firstTask : TMPTask := internalInit ⟨0, true, false⟩ 0 10 600 5 30000

def handlers (handled : List UInt32) : Handlers :=
  ⟨100, 100, 9, handled, ([], some ⟨0, true, false⟩), fun _ => ([], true)⟩

def dialog (handled : List UInt32) : List Call :=
  [.procMsg (handlers []) (some ⟨dialogBegin, 0⟩) 0, .procMsg (handlers handled) (some ⟨0, 0⟩) 1]

theorem release_safe_iff_live : Returns (runCalls exec firstTask (dialog [])) fun (_, t) =>
    ∃ t', t.InHandler t' ∧ Returns (t'.releaseContext 1) (t'.MarksOnly 1) := by
  obtain ⟨⟨ess, t⟩, hrun, hchoose, hlive⟩ : Returns (runCalls exec firstTask (dialog [])) fun (_, t) =>
      t.choose (handlers []) ⟨0, 0⟩ 1 = some ([], some ⟨0, 0⟩, { t with mTaskCTX := 2, mTaskCID := 1 }) ∧
        (1, 2) ∈ t.contexts := ⟨_, rfl, rfl, List.mem_singleton_self _⟩
  refine ⟨_, hrun, _, .called (.procMsg hchoose), (release_safe_iff hrun (.called (.procMsg hchoose)) 1).mpr ?_⟩
  rw [if_neg (by decide)]
  exact ⟨2, hlive⟩

theorem release_fails : Returns (runCalls exec firstTask (dialog [1])) fun (_, t) =>
    ∃ t', t.InHandler t' ∧ t'.contexts = [] ∧ ¬Returns (t'.releaseContext 1) (t'.MarksOnly 1) ∧
      ¬Returns (t'.releaseContext 0) (t'.MarksOnly 0) := by
  refine ⟨_, rfl, _, .called (@Calls.procMsg _ _ (handlers []) ⟨0, 0⟩ _ 0 _ rfl), rfl, ?_, ?_⟩
  · rintro ⟨t', ht', -⟩
    rw [releaseContext_null rfl] at ht'
    cases ht'
  · rintro ⟨t', ht', -⟩
    rw [releaseContext_null rfl] at ht'
    cases ht'

end Xframe.Task.TMPTask
