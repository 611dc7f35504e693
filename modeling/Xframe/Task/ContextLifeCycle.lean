import Xframe.Task.MPTask

/-! The life of the contexts of a `TMPTask`: what its list, its counter and its heap have in common in
every run, and that a context is either listed or deleted. -/

namespace Xframe.Task.TMPTask

open Xframe.Comserv Xframe.Lib Xframe.Msg
open scoped List

def contexts (t : TMPTask) : List (UInt32 × ℕ) := t.mTaskCTXList.entries.map fun v => (v.key, v.value)

def created (es : List Effect) : List ℕ := es.filterMap fun | .create ctx => some ctx | _ => none

def deleted (es : List Effect) : List ℕ := es.filterMap fun | .delete ctx => some ctx | _ => none

structure Inv (t : TMPTask) : Prop where
  keyed : ∀ cid p, (cid, p) ∈ t.contexts → ∃ ctx, t.heap.read p = some ctx ∧ ctx.mCID = cid
  nonzero : ∀ cid p, (cid, p) ∈ t.contexts → cid ≠ 0
  counted : t.mContextCount = UInt32.ofNat t.contexts.length
  default : (t.heap.read t.mDefaultTaskCTX).isSome
  unlisted : ∀ cid p, (cid, p) ∈ t.contexts → p ≠ t.mDefaultTaskCTX
  unlimited : t.mTaskCTXList.countMax = 0

structure Moves (t : TMPTask) (es : List Effect) (t' : TMPTask) : Prop where
  conserved : (t.contexts.map Prod.snd ++ created es).Perm (t'.contexts.map Prod.snd ++ deleted es)
  nodup : (created es).Nodup
  fresh : ∀ p ∈ created es, t.heap.brk ≤ p ∧ p < t'.heap.brk
  brk : t.heap.brk ≤ t'.heap.brk
  default : t'.mDefaultTaskCTX = t.mDefaultTaskCTX

structure Same (t t' : TMPTask) : Prop where
  perm : t'.contexts.Perm t.contexts
  ids : ∀ p, (t'.heap.read p).map TTaskContext.mCID = (t.heap.read p).map TTaskContext.mCID
  brk : t'.heap.brk = t.heap.brk
  count : t'.mContextCount = t.mContextCount
  default : t'.mDefaultTaskCTX = t.mDefaultTaskCTX
  limit : t'.mTaskCTXList.countMax = t.mTaskCTXList.countMax

variable {t t' t'' : TMPTask} {es es' : List Effect} {cid : UInt32} {p : ℕ}

lemma lookup_iff : t.mTaskCTXList.lookup cid = some p ↔ (cid, p) ∈ t.contexts := by
  rw [ExpireMap.lookup_eq_some, contexts, List.mem_map]
  simp only [Prod.mk.injEq]

lemma contextOf_ne_zero (h : t.contextOf cid ≠ 0) : (cid, t.contextOf cid) ∈ t.contexts := by
  rw [← lookup_iff]
  rw [contextOf] at h ⊢
  cases hl : t.mTaskCTXList.lookup cid with
  | none => simp [hl] at h
  | some q => rfl

lemma keys_nodup (t : TMPTask) : (t.contexts.map Prod.fst).Nodup := by
  have hmap : t.contexts.map Prod.fst = t.mTaskCTXList.entries.map ExpireValue.key := by
    rw [contexts, List.map_map]
    rfl
  rw [hmap]
  exact t.mTaskCTXList.nodup

lemma Same.of_eq (hh : t'.heap = t.heap) (hl : t'.mTaskCTXList = t.mTaskCTXList)
    (hc : t'.mContextCount = t.mContextCount) (hd : t'.mDefaultTaskCTX = t.mDefaultTaskCTX) : t.Same t' where
  perm := by rw [contexts, contexts, hl]
  ids p := by rw [hh]
  brk := by rw [hh]
  count := hc
  default := hd
  limit := by rw [hl]

lemma Same.refl (t : TMPTask) : t.Same t := Same.of_eq rfl rfl rfl rfl

lemma Same.trans (h : t.Same t') (h' : t'.Same t'') : t.Same t'' where
  perm := h'.perm.trans h.perm
  ids p := (h'.ids p).trans (h.ids p)
  brk := h'.brk.trans h.brk
  count := h'.count.trans h.count
  default := h'.default.trans h.default
  limit := h'.limit.trans h.limit

lemma Same.inv (hs : t.Same t') (h : t.Inv) : t'.Inv where
  keyed cid p hp := by
    obtain ⟨ctx, hc, hid⟩ := h.keyed cid p (hs.perm.subset hp)
    have hids := hs.ids p
    rw [hc, Option.map_some] at hids
    obtain ⟨ctx', hc', hid'⟩ := Option.map_eq_some_iff.mp hids
    exact ⟨ctx', hc', hid'.trans hid⟩
  nonzero cid p hp := h.nonzero cid p (hs.perm.subset hp)
  counted := by rw [hs.count, h.counted, hs.perm.length_eq]
  default := by
    rw [hs.default, ← Option.isSome_map (f := TTaskContext.mCID), hs.ids, Option.isSome_map]
    exact h.default
  unlisted cid p hp := by
    rw [hs.default]
    exact h.unlisted cid p (hs.perm.subset hp)
  unlimited := hs.limit.trans h.unlimited

lemma Same.moves (hs : t.Same t') (hc : created es = []) (hd : deleted es = []) : t.Moves es t' where
  conserved := by
    rw [hc, hd, List.append_nil, List.append_nil]
    exact hs.perm.symm.map _
  nodup := by
    rw [hc]
    exact List.nodup_nil
  fresh p hp := by simp [hc] at hp
  brk := hs.brk.ge
  default := hs.default

lemma Same.moves_nil (hs : t.Same t') : t.Moves [] t' := hs.moves rfl rfl

lemma created_append : created (es ++ es') = created es ++ created es' := List.filterMap_append ..

lemma deleted_append : deleted (es ++ es') = deleted es ++ deleted es' := List.filterMap_append ..

lemma Moves.trans (h : t.Moves es t') (h' : t'.Moves es' t'') : t.Moves (es ++ es') t'' where
  conserved := by
    have hswap : ∀ a b c : List ℕ, (a ++ b) ++ c ~ (a ++ c) ++ b := by
      intro a b c
      rw [List.append_assoc, List.append_assoc]
      exact List.perm_append_comm.append_left a
    rw [created_append, deleted_append]
    calc t.contexts.map Prod.snd ++ (created es ++ created es')
      _ = (t.contexts.map Prod.snd ++ created es) ++ created es' := (List.append_assoc ..).symm
      _ ~ (t'.contexts.map Prod.snd ++ deleted es) ++ created es' := h.conserved.append_right _
      _ ~ (t'.contexts.map Prod.snd ++ created es') ++ deleted es := hswap ..
      _ ~ (t''.contexts.map Prod.snd ++ deleted es') ++ deleted es := h'.conserved.append_right _
      _ ~ (t''.contexts.map Prod.snd ++ deleted es) ++ deleted es' := hswap ..
      _ = t''.contexts.map Prod.snd ++ (deleted es ++ deleted es') := List.append_assoc ..
  nodup := by
    rw [created_append, List.nodup_append]
    refine ⟨h.nodup, h'.nodup, ?_⟩
    rintro p hp q hq rfl
    have h₁ := h.fresh p hp
    have h₂ := h'.fresh p hq
    omega
  fresh p hp := by
    rw [created_append, List.mem_append] at hp
    rcases hp with hp | hp
    · exact ⟨(h.fresh p hp).1, (h.fresh p hp).2.trans_le h'.brk⟩
    · exact ⟨h.brk.trans (h'.fresh p hp).1, (h'.fresh p hp).2⟩
  brk := h.brk.trans h'.brk
  default := h'.default.trans h.default

lemma contexts_erase (hp : (cid, p) ∈ t.contexts) :
    t.contexts ~ (cid, p) :: ({ t with mTaskCTXList := t.mTaskCTXList.erase cid } : TMPTask).contexts := by
  obtain ⟨v, hv, heq⟩ := List.mem_map.mp hp
  obtain ⟨rfl, rfl⟩ := Prod.mk.inj heq
  obtain ⟨l, r, hsplit⟩ := List.append_of_mem hv
  rw [contexts, contexts, hsplit]
  dsimp only
  rw [ExpireMap.erase_middle hsplit, List.map_append, List.map_append, List.map_cons]
  exact List.perm_middle

lemma contexts_update (t : TMPTask) (e : Handlers) : (t.update e).contexts ~ t.contexts := by
  rw [contexts, contexts, update]
  dsimp only
  rw [ExpireMap.step]
  cases hf : t.mTaskCTXList.find t.mTaskCID with
  | none => exact List.Perm.refl _
  | some v =>
    obtain ⟨hv, hk⟩ := ExpireMap.find_eq_some.mp hf
    obtain ⟨l, r, hsplit⟩ := List.append_of_mem hv
    have hrest : (t.mTaskCTXList.entries.filter fun w => w.key ≠ v.key) = l ++ r :=
      ExpireMap.erase_middle hsplit
    dsimp only
    rw [ExpireMap.refresh_entries]
    dsimp only
    rw [hrest, hsplit, List.map_append, List.map_append, List.map_append, List.map_singleton, List.map_cons]
    exact (List.perm_append_singleton _ _).trans List.perm_middle.symm

lemma update_same (t : TMPTask) (e : Handlers) : t.Same (t.update e) where
  perm := contexts_update t e
  ids _ := rfl
  brk := rfl
  count := rfl
  default := rfl
  limit := ExpireMap.update_countMax ..

lemma modify_same {ctx : TTaskContext} {f : TTaskContext → TTaskContext} (hp : t.heap.read p = some ctx)
    (hf : ∀ ctx, (f ctx).mCID = ctx.mCID) :
    Returns (t.heap.modify p f) fun heap => t.Same { t with heap } := by
  obtain ⟨heap, hmod, hcells, hbrk⟩ := Heap.modify_spec hp f
  refine ⟨heap, hmod, List.Perm.refl _, fun q => ?_, hbrk, rfl, rfl, rfl⟩
  rw [Heap.read, hcells]
  by_cases hq : q = p
  · rw [hq, Function.update_self, Option.map_some, hp, Option.map_some, hf]
  · rw [Function.update_of_ne hq]
    rfl

lemma releaseContext_same (h : t.Inv) (hp : (cid, p) ∈ t.contexts) :
    Returns (t.releaseContext cid) fun t' => t.Same t' ∧ ∃ heap, t' = { t with heap } := by
  obtain ⟨ctx, hc, -⟩ := h.keyed cid p hp
  have hctx : (if cid ≠ 0 ∧ cid ≠ t.mTaskCID then t.contextOf cid else t.contextOf t.mTaskCID) = p := by
    have hself : t.contextOf cid = p := by rw [contextOf, lookup_iff.mpr hp, Option.getD_some]
    by_cases heq : cid = t.mTaskCID
    · rw [if_neg fun hne => hne.2 heq, ← heq, hself]
    · rw [if_pos ⟨h.nonzero cid p hp, heq⟩, hself]
  rw [releaseContext, hctx]
  refine (modify_same (f := fun ctx => { ctx with mReleaseTag := true }) hc fun _ => rfl).bind fun heap hs => ?_
  exact (returns_some _ _).mpr ⟨hs, heap, rfl⟩

lemma handle_same (h : t.Inv) (cids : List UInt32) :
    Returns (t.handle cids) fun t' => t.Same t' ∧ ∃ heap, t' = { t with heap } := by
  induction cids generalizing t with
  | nil => exact (returns_some _ _).mpr ⟨Same.refl t, t.heap, rfl⟩
  | cons cid cids ih =>
    have hone : Returns (if (t.mTaskCTXList.lookup cid).isSome then t.releaseContext cid else some t)
        fun t' => t.Same t' ∧ ∃ heap, t' = { t with heap } := by
      split
      · next hsome =>
        obtain ⟨p, hp⟩ := Option.isSome_iff_exists.mp hsome
        exact releaseContext_same h (lookup_iff.mp hp)
      · exact (returns_some _ _).mpr ⟨Same.refl t, t.heap, rfl⟩
    rw [handle]
    refine hone.bind ?_
    rintro t₁ ⟨hs₁, heap₁, rfl⟩
    refine (ih (hs₁.inv h)).mono ?_
    rintro t₂ ⟨hs₂, heap₂, rfl⟩
    exact ⟨hs₁.trans hs₂, heap₂, rfl⟩

lemma destroy_spec (h : t.Inv) (hp : (cid, t.mTaskCTX) ∈ t.contexts) :
    Returns (destroy { t with mTaskCTXList := t.mTaskCTXList.erase cid })
      fun r => r.2.Inv ∧ t.Moves r.1 r.2 := by
  obtain ⟨ctx, hc, hid⟩ := h.keyed _ _ hp
  obtain ⟨heap, hfree, hcells, hbrk⟩ := Heap.free_spec hc
  have hperm := contexts_erase hp
  set rest := ({ t with mTaskCTXList := t.mTaskCTXList.erase cid } : TMPTask).contexts with hrest
  have hsub : ∀ x ∈ rest, x ∈ t.contexts := fun x hx => hperm.symm.subset (List.mem_cons_of_mem _ hx)
  -- the other contexts have other addresses, since they have other ids
  have hother : ∀ c q, (c, q) ∈ rest → q ≠ t.mTaskCTX := by
    rintro c q hq rfl
    obtain ⟨ctx', hc', hid'⟩ := h.keyed c _ (hsub _ hq)
    obtain rfl := Option.some.inj (hc'.symm.trans hc)
    have hnodup := (hperm.map Prod.fst).nodup_iff.mp t.keys_nodup
    rw [List.map_cons, List.nodup_cons] at hnodup
    refine hnodup.1 (List.mem_map.mpr ⟨(c, t.mTaskCTX), hq, ?_⟩)
    exact hid'.symm.trans hid
  have hread : ∀ q, q ≠ t.mTaskCTX → heap.read q = t.heap.read q := by
    intro q hq
    rw [Heap.read, hcells, Function.update_of_ne hq]
    rfl
  rw [destroy]
  refine Returns.of_bind hfree ((returns_some _ _).mpr ⟨?_, ?_⟩)
  · refine ⟨fun c q hq => ?_, fun c q hq => h.nonzero c q (hsub _ hq), ?_, ?_,
      fun c q hq => h.unlisted c q (hsub _ hq), h.unlimited⟩
    · rw [hread q (hother c q hq)]
      exact h.keyed c q (hsub _ hq)
    · change t.mContextCount - 1 = UInt32.ofNat rest.length
      rw [h.counted, hperm.length_eq, List.length_cons, UInt32.ofNat_add]
      simp
    · change (heap.read t.mDefaultTaskCTX).isSome
      rw [hread _ (h.unlisted _ _ hp).symm]
      exact h.default
  · refine ⟨?_, List.nodup_nil, by simp [created], hbrk.ge, rfl⟩
    change t.contexts.map Prod.snd ++ [] ~ rest.map Prod.snd ++ [t.mTaskCTX]
    rw [List.append_nil]
    exact (hperm.map Prod.snd).trans (List.perm_append_singleton _ _).symm

lemma recycle_spec (h : t.Inv) {v : ExpireValue UInt32 ℕ} {vs : List (ExpireValue UInt32 ℕ)}
    (hfront : t.mTaskCTXList.entries = v :: vs) (hp : t.mTaskCTX = v.value) (e : Handlers)
    (expire : List UInt32 × Bool) : Returns (t.recycle e expire) fun r => r.2.Inv ∧ t.Moves r.1 r.2 := by
  have hmem : (v.key, t.mTaskCTX) ∈ t.contexts := by
    rw [hp, contexts, hfront]
    exact List.mem_cons_self
  obtain ⟨ctx, hc, -⟩ := h.keyed _ _ hmem
  have hasked : Returns (if ctx.mReleaseTag then some (true, t) else (t.handle expire.1).map fun t => (expire.2, t))
      fun r => t.Same r.2 ∧ ∃ heap, r.2 = { t with heap } := by
    split
    · exact (returns_some _ _).mpr ⟨Same.refl t, t.heap, rfl⟩
    · exact (handle_same h expire.1).map fun _ ha => ha
  rw [recycle]
  refine Returns.of_bind hc (hasked.bind ?_)
  rintro ⟨gone, t'⟩ ⟨hs, heap, rfl⟩
  have h' := hs.inv h
  cases gone with
  | true =>
    have htail : t.mTaskCTXList.tail = t.mTaskCTXList.erase v.key := (ExpireMap.erase_head hfront).symm
    dsimp only
    rw [if_pos rfl, htail]
    refine (destroy_spec h' hmem).mono fun r ⟨hinv, hm⟩ => ⟨hinv, ?_⟩
    exact hs.moves_nil.trans hm
  | false =>
    dsimp only
    rw [if_neg (by simp), returns_some]
    have hsame := hs.trans (update_same _ e)
    exact ⟨hsame.inv h, hsame.moves rfl rfl⟩

lemma frontOld_eq_some {e : Handlers} (hf : t.frontOld e = some (cid, p)) :
    ∃ v vs, t.mTaskCTXList.entries = v :: vs ∧ v.key = cid ∧ v.value = p := by
  rw [frontOld] at hf
  cases hl : t.mTaskCTXList.entries with
  | nil => simp [hl] at hf
  | cons v vs =>
    rw [hl] at hf
    obtain ⟨-, heq⟩ := Option.ite_none_right_eq_some.mp hf
    exact ⟨v, vs, rfl, Prod.mk.inj (Option.some.inj heq)⟩

lemma recycles_spec (h : t.Inv) (e : Handlers) (i k : ℕ) :
    Returns (recycles e i k t) fun r => r.2.2.Inv ∧ t.Moves r.1 r.2.2 := by
  induction i generalizing t k with
  | zero => exact (returns_some _ _).mpr ⟨h, (Same.refl t).moves rfl rfl⟩
  | succ i ih =>
    rw [recycles]
    cases hf : t.frontOld e with
    | none => exact (returns_some _ _).mpr ⟨h, (Same.refl t).moves rfl rfl⟩
    | some front =>
      obtain ⟨cid, p⟩ := front
      obtain ⟨v, vs, hl, rfl, rfl⟩ := frontOld_eq_some hf
      have hcur : t.Same { t with mTaskCID := v.key, mTaskCTX := v.value } :=
        Same.of_eq rfl rfl rfl rfl
      refine (recycle_spec (hcur.inv h) hl rfl e (e.onContextExpire k)).bind ?_
      rintro ⟨es, t₁⟩ ⟨h₁, hm₁⟩
      refine (ih h₁ (k + 1)).bind ?_
      rintro ⟨es', i', t₂⟩ ⟨h₂, hm₂⟩
      rw [returns_some]
      have hm : t.Moves es t₁ := hcur.moves_nil.trans hm₁
      exact ⟨h₂, hm.trans hm₂⟩

lemma onRefresh_spec (h : t.Inv) (e : Handlers) :
    Returns (t.onRefresh e) fun r => r.2.Inv ∧ t.Moves r.1 r.2 := by
  rw [onRefresh]
  refine (recycles_spec h e _ 0).bind ?_
  rintro ⟨es, i, t'⟩ ⟨h', hm⟩
  rw [returns_some]
  have hs : ∀ key, t'.Same { t' with timerContextRefreshKey := key } :=
    fun _ => Same.of_eq rfl rfl rfl rfl
  exact ⟨(hs _).inv h', hm.trans ((hs _).moves rfl rfl)⟩

lemma current_read (h : t.Inv) (hp : (cid, p) ∈ t.contexts) (hs : t.Same t') :
    ∃ ctx, t'.heap.read p = some ctx ∧ (cid, p) ∈ t'.contexts := by
  have hp' := hs.perm.symm.subset hp
  obtain ⟨ctx, hc, -⟩ := (hs.inv h).keyed cid p hp'
  exact ⟨ctx, hc, hp'⟩

lemma onTimeOut_spec (h : t.Inv) (e : Handlers) (timerKey timerCid : UInt32) (para : ℕ) :
    Returns (t.onTimeOut e timerKey timerCid para) fun r => r.2.Inv ∧ t.Moves r.1 r.2 := by
  rw [onTimeOut]
  by_cases hkey : t.timerContextRefreshKey = timerKey
  · rw [if_pos hkey]
    exact onRefresh_spec h e
  rw [if_neg hkey]
  by_cases hcid : 0 < timerCid
  · rw [if_pos hcid]
    dsimp only
    by_cases hfound : t.contextOf timerCid ≠ 0
    · have hp := contextOf_ne_zero hfound
      obtain ⟨ctx, hc, rfl⟩ := h.keyed _ _ hp
      rw [if_pos hfound]
      refine Returns.of_bind hc ?_
      have hcur : t.Same { t with mTaskCTX := t.contextOf ctx.mCID, mTaskCID := ctx.mCID } :=
        Same.of_eq rfl rfl rfl rfl
      refine (handle_same (hcur.inv h) e.handled).bind ?_
      rintro t₁ ⟨hs₁, heap, rfl⟩
      have hs := hcur.trans hs₁
      obtain ⟨ctx', hc', hp'⟩ := current_read h hp hs
      refine Returns.of_bind hc' ?_
      split
      · refine (destroy_spec (hs.inv h) hp').bind ?_
        rintro ⟨es, t₂⟩ ⟨h₂, hm₂⟩
        rw [returns_some]
        exact ⟨h₂, (show t.Moves [_] _ from hs.moves rfl rfl).trans hm₂⟩
      · rw [returns_some]
        have hsame := hs.trans (update_same _ e)
        exact ⟨hsame.inv h, hsame.moves rfl rfl⟩
    · rw [if_neg hfound, returns_some]
      have hs : t.Same { t with mTaskCTX := t.contextOf timerCid } :=
        Same.of_eq rfl rfl rfl rfl
      refine ⟨hs.inv h, ?_⟩
      split
      · exact hs.moves rfl rfl
      · exact hs.moves rfl rfl
  · rw [if_neg hcid]
    have hcur : t.Same { t with mTaskCTX := t.mDefaultTaskCTX, mTaskCID := 0 } :=
      Same.of_eq rfl rfl rfl rfl
    refine (handle_same (hcur.inv h) e.handled).bind ?_
    rintro t₁ ⟨hs₁, -⟩
    rw [returns_some]
    have hs := hcur.trans hs₁
    exact ⟨hs.inv h, hs.moves rfl rfl⟩

lemma nextCID_ne_zero (cid : UInt32) : nextCID cid ≠ 0 := by
  rw [nextCID]
  split
  · decide
  · assumption

lemma searchCID_spec (t : TMPTask) (findit : ℕ) (hcid : cid ≠ 0) :
    (t.searchCID findit cid).2 ≠ 0 ∧
      ((t.searchCID findit cid).1 ≠ 0 → t.mTaskCTXList.lookup (t.searchCID findit cid).2 = none) := by
  induction findit generalizing cid with
  | zero => exact ⟨hcid, fun h => absurd rfl h⟩
  | succ findit ih =>
    rw [searchCID]
    split
    · exact ih (nextCID_ne_zero cid)
    · next hfree => exact ⟨hcid, fun _ => ExpireMap.lookup_eq_none.mpr (Option.not_isSome_iff_eq_none.mp hfree)⟩

lemma contexts_push (h : t.Inv) (hfree : t.mTaskCTXList.lookup cid = none) (now : ℤ) :
    ((t.mTaskCTXList.push cid p now).2.entries.map fun v => (v.key, v.value)) = t.contexts ++ [(cid, p)] := by
  have hnot : ¬t.mTaskCTXList.Full := fun hfull => absurd h.unlimited hfull.1.ne'
  rw [ExpireMap.push_added hfree hnot]
  dsimp only
  rw [ExpireMap.snoc_entries (v := .new cid p now) (ExpireMap.lookup_eq_none.mp hfree), List.map_append]
  rfl

def added (t : TMPTask) (cid : UInt32) (ctx : TTaskContext) (now : ℤ) : TMPTask :=
  { t with
    heap := (t.heap.alloc ctx).2
    mTaskCTX := t.heap.brk
    mTaskCID := cid
    mTaskCTXList := (t.mTaskCTXList.push cid t.heap.brk now).2
    mContextCount := t.mContextCount + 1 }

lemma added_spec (h : t.Inv) (hcid : cid ≠ 0) (hfree : t.mTaskCTXList.lookup cid = none) (ctx : TTaskContext)
    (hid : ctx.mCID = cid) (now : ℤ) :
    (t.added cid ctx now).Inv ∧ t.Moves [.create t.heap.brk] (t.added cid ctx now) ∧
      (cid, t.heap.brk) ∈ (t.added cid ctx now).contexts := by
  have hctxs : (t.added cid ctx now).contexts = t.contexts ++ [(cid, t.heap.brk)] := contexts_push h hfree now
  have hread : ∀ q, (t.added cid ctx now).heap.read q = if q = t.heap.brk then some ctx else t.heap.read q :=
    t.heap.read_alloc ctx
  have hold : ∀ q, (t.heap.read q).isSome → q ≠ t.heap.brk := by
    rintro q hq rfl
    rw [Heap.read, t.heap.brk_fresh] at hq
    simp at hq
  have hmem : ∀ c q, (c, q) ∈ (t.added cid ctx now).contexts → (c, q) ∈ t.contexts ∨ c = cid ∧ q = t.heap.brk := by
    intro c q hq
    rw [hctxs, List.mem_append, List.mem_singleton] at hq
    exact hq.imp_right Prod.mk.inj
  refine ⟨⟨fun c q hq => ?_, fun c q hq => ?_, ?_, ?_, fun c q hq => ?_, ?_⟩, ⟨?_, ?_, ?_, ?_, rfl⟩, ?_⟩
  · rcases hmem c q hq with hq | ⟨rfl, rfl⟩
    · obtain ⟨ctx', hc', hid'⟩ := h.keyed c q hq
      rw [hread, if_neg (hold q (by rw [hc']; rfl))]
      exact ⟨ctx', hc', hid'⟩
    · exact ⟨ctx, by rw [hread, if_pos rfl], hid⟩
  · rcases hmem c q hq with hq | ⟨rfl, rfl⟩
    · exact h.nonzero c q hq
    · exact hcid
  · rw [hctxs, List.length_append, List.length_singleton, UInt32.ofNat_add, ← h.counted]
    rfl
  · change ((t.added cid ctx now).heap.read t.mDefaultTaskCTX).isSome
    rw [hread, if_neg (hold _ h.default)]
    exact h.default
  · rcases hmem c q hq with hq | ⟨rfl, rfl⟩
    · exact h.unlisted c q hq
    · exact (hold _ h.default).symm
  · exact (ExpireMap.push_countMax ..).trans h.unlimited
  · change t.contexts.map Prod.snd ++ [t.heap.brk] ~ (t.added cid ctx now).contexts.map Prod.snd ++ []
    rw [hctxs, List.append_nil, List.map_append, List.map_singleton]
  · exact List.nodup_singleton _
  · intro q hq
    obtain rfl : q = t.heap.brk := by simpa [created] using hq
    exact ⟨le_rfl, Nat.lt_succ_self _⟩
  · exact Nat.le_succ _
  · rw [hctxs]
    exact List.mem_append_right _ (List.mem_singleton_self _)

def Current (t : TMPTask) : Prop :=
  (t.mTaskCID, t.mTaskCTX) ∈ t.contexts ∨ (t.mTaskCID = 0 ∧ t.mTaskCTX = t.mDefaultTaskCTX)

lemma createContext_spec (h : t.Inv) (e : Handlers) (msg : CtxMsg) :
    Returns (t.createContext e msg) fun r => r.2.2.Inv ∧ t.Moves r.1 r.2.2 ∧ (r.2.1.isSome → r.2.2.Current) := by
  rw [createContext]
  obtain ⟨hne, hfree⟩ := searchCID_spec t 50 (nextCID_ne_zero t.mMaxTaskCID)
  rcases hsearch : t.searchCID 50 (nextCID t.mMaxTaskCID) with ⟨findit, cid⟩
  rw [hsearch] at hne hfree
  dsimp only at hne hfree ⊢
  have hs : t.Same { t with mMaxTaskCID := cid } := Same.of_eq rfl rfl rfl rfl
  by_cases hfound : findit ≠ 0
  · rw [if_pos hfound]
    refine (handle_same (hs.inv h) e.onContextCreate.1).bind ?_
    rintro t₁ ⟨hs₁, heap, rfl⟩
    have hsame := hs.trans hs₁
    cases hctx : e.onContextCreate.2 with
    | none =>
      rw [returns_some]
      exact ⟨hsame.inv h, hsame.moves rfl rfl, by simp⟩
    | some ctx =>
      rw [returns_some]
      obtain ⟨hinv, hmoves, hmem⟩ :=
        added_spec (hsame.inv h) hne (hfree hfound) { ctx with mCID := cid } rfl e.now
      exact ⟨hinv, hsame.moves_nil.trans hmoves, fun _ => Or.inl hmem⟩
  · rw [if_neg hfound, returns_some]
    have hd : t.Same (useDefault { t with mMaxTaskCID := cid }) := Same.of_eq rfl rfl rfl rfl
    exact ⟨hd.inv h, hd.moves rfl rfl, fun _ => Or.inr ⟨rfl, rfl⟩⟩

lemma choose_spec (h : t.Inv) (e : Handlers) (msg : CtxMsg) (taskCID : UInt32) :
    Returns (t.choose e msg taskCID) fun r => r.2.2.Inv ∧ t.Moves r.1 r.2.2 ∧ (r.2.1.isSome → r.2.2.Current) := by
  have hd : ∀ ctx, t.Same (useDefault { t with mTaskCTX := ctx }) := fun _ => Same.of_eq rfl rfl rfl rfl
  rw [choose]
  by_cases hcid : 0 < taskCID
  · rw [if_pos hcid]
    dsimp only
    by_cases hfound : t.contextOf taskCID ≠ 0
    · have hp := contextOf_ne_zero hfound
      obtain ⟨ctx, hc, rfl⟩ := h.keyed _ _ hp
      rw [if_pos hfound]
      refine Returns.of_bind hc ((returns_some _ _).mpr ?_)
      have hs : t.Same { t with mTaskCTX := t.contextOf ctx.mCID, mTaskCID := ctx.mCID } := Same.of_eq rfl rfl rfl rfl
      exact ⟨hs.inv h, hs.moves rfl rfl, fun _ => Or.inl hp⟩
    · rw [if_neg hfound, returns_some]
      exact ⟨(hd _).inv h, (hd _).moves rfl rfl, fun _ => Or.inr ⟨rfl, rfl⟩⟩
  · rw [if_neg hcid]
    by_cases hbegin : msg.dialogType = dialogBegin
    · rw [if_pos hbegin]
      exact createContext_spec h e msg
    · rw [if_neg hbegin, returns_some]
      have hs : t.Same t.useDefault := Same.of_eq rfl rfl rfl rfl
      exact ⟨hs.inv h, hs.moves rfl rfl, fun _ => Or.inr ⟨rfl, rfl⟩⟩

lemma afterMsg_spec (h : t.Inv) (hcur : t.Current) (e : Handlers) :
    Returns (t.afterMsg e) fun r => r.2.Inv ∧ t.Moves r.1 r.2 := by
  rw [afterMsg]
  rcases hcur with hp | ⟨hzero, -⟩
  · have hpos : 0 < t.mTaskCID := by
      have := h.nonzero _ _ hp
      grind
    rw [if_pos hpos]
    have hs := update_same t e
    obtain ⟨ctx, hc, -⟩ := current_read h hp hs
    refine (modify_same (f := fun ctx => { ctx with mCreateTag := false }) hc fun _ => rfl).bind fun heap hs₁ => ?_
    have hsame := hs.trans hs₁
    obtain ⟨ctx', hc', hp'⟩ := current_read h hp hsame
    refine Returns.of_bind hc' ?_
    split
    · refine (destroy_spec (hsame.inv h) hp').mono ?_
      rintro ⟨es, t₂⟩ ⟨h₂, hm₂⟩
      exact ⟨h₂, hsame.moves_nil.trans hm₂⟩
    · rw [returns_some]
      exact ⟨hsame.inv h, hsame.moves rfl rfl⟩
  · rw [if_neg (by rw [hzero]; decide), returns_some]
    exact ⟨h, (Same.refl t).moves rfl rfl⟩

lemma procMsg_spec (h : t.Inv) (e : Handlers) (msg : Option CtxMsg) (taskCID : UInt32) :
    Returns (t.procMsg e msg taskCID) fun r => r.2.Inv ∧ t.Moves r.1 r.2 := by
  cases msg with
  | none => exact (returns_some _ _).mpr ⟨h, (Same.refl t).moves rfl rfl⟩
  | some msg =>
    rw [procMsg]
    refine (choose_spec h e msg taskCID).bind ?_
    rintro ⟨es, msg', t₁⟩ ⟨h₁, hm₁, hcur⟩
    cases msg' with
    | none => exact (returns_some _ _).mpr ⟨h₁, hm₁⟩
    | some msg' =>
      refine (handle_same h₁ e.handled).bind ?_
      rintro t₂ ⟨hs₂, heap, rfl⟩
      have hcur₂ : Current { t₁ with heap } := hcur rfl
      refine (afterMsg_spec (hs₂.inv h₁) hcur₂ e).bind ?_
      rintro ⟨es', t₃⟩ ⟨h₃, hm₃⟩
      rw [returns_some]
      refine ⟨h₃, hm₁.trans ?_⟩
      exact (show Moves _ [_] _ from hs₂.moves rfl rfl).trans hm₃

lemma exec_spec (h : t.Inv) (c : Call) : Returns (t.exec c) fun r => r.2.Inv ∧ t.Moves r.1 r.2 := by
  cases c with
  | procMsg e msg taskCID => exact procMsg_spec h e msg taskCID
  | onTimeOut e timerKey timerCid para => exact onTimeOut_spec h e timerKey timerCid para

lemma run_spec (h : t.Inv) (calls : List Call) :
    Returns (runCalls exec t calls) fun r => r.2.Inv ∧ t.Moves r.1.flatten r.2 := by
  induction calls generalizing t with
  | nil => exact (returns_some _ _).mpr ⟨h, (Same.refl t).moves rfl rfl⟩
  | cons c calls ih =>
    rw [runCalls]
    refine (exec_spec h c).bind ?_
    rintro ⟨es, t₁⟩ ⟨h₁, hm₁⟩
    refine (ih h₁).bind ?_
    rintro ⟨ess, t₂⟩ ⟨h₂, hm₂⟩
    rw [returns_some]
    exact ⟨h₂, hm₁.trans hm₂⟩

lemma Inv.length_lt (h : t.Inv) : t.contexts.length < 2 ^ 32 := by
  have hnodup : ((t.contexts.map Prod.fst).map UInt32.toNat).Nodup :=
    t.keys_nodup.map fun _ _ heq => UInt32.toNat_inj.mp heq
  have hsub : ((t.contexts.map Prod.fst).map UInt32.toNat).toFinset ⊆ Finset.Ico 1 (2 ^ 32) := by
    intro n hn
    rw [List.mem_toFinset, List.map_map, List.mem_map] at hn
    obtain ⟨⟨cid, p⟩, hp, rfl⟩ := hn
    have hne : cid.toNat ≠ 0 := fun hz => h.nonzero cid p hp (UInt32.toNat_inj.mp hz)
    have hlt : cid.toNat < 2 ^ 32 := cid.toNat_lt
    exact Finset.mem_Ico.mpr ⟨Nat.one_le_iff_ne_zero.mpr hne, hlt⟩
  have hcard := Finset.card_le_card hsub
  rw [List.toFinset_card_of_nodup hnodup, Nat.card_Ico, List.length_map, List.length_map] at hcard
  omega

lemma init_inv (ctx : TTaskContext) (mMaxTaskCID rate interval timerKey delay : UInt32) :
    (internalInit ctx mMaxTaskCID rate interval timerKey delay).Inv where
  keyed _ _ hp := absurd hp List.not_mem_nil
  nonzero _ _ hp := absurd hp List.not_mem_nil
  counted := rfl
  default := rfl
  unlisted _ _ hp := absurd hp List.not_mem_nil
  unlimited := rfl

structure Sound (t : TMPTask) : Prop where
  distinct : (t.contexts.map Prod.fst).Nodup
  nonzero : ∀ cid p, (cid, p) ∈ t.contexts → cid ≠ 0
  keyed : ∀ cid p, (cid, p) ∈ t.contexts → ∃ ctx, t.heap.read p = some ctx ∧ ctx.mCID = cid
  counted : t.mContextCount.toNat = t.contexts.length
  unlisted : ∀ cid p, (cid, p) ∈ t.contexts → p ≠ t.mDefaultTaskCTX

lemma Inv.sound (h : t.Inv) : t.Sound where
  distinct := t.keys_nodup
  nonzero := h.nonzero
  keyed := h.keyed
  counted := by
    rw [h.counted, UInt32.toNat_ofNat']
    exact Nat.mod_eq_of_lt h.length_lt
  unlisted := h.unlisted

structure Refuses (t : TMPTask) (cid : UInt32) : Prop where
  procMsg : ∀ e msg, Returns (t.procMsg e (some msg) cid) fun r =>
    r.1 = [.procMsg msg 0 t.mDefaultTaskCTX]
  onTimeOut : ∀ e timerKey para, timerKey ≠ t.timerContextRefreshKey →
    Returns (t.onTimeOut e timerKey cid para) fun r =>
      r.1 = (if para ≠ 0 then [.deletePara para] else []) ∧ r.2.heap = t.heap ∧
        r.2.mTaskCTXList = t.mTaskCTXList ∧ r.2.mContextCount = t.mContextCount

lemma Inv.refuses (h : t.Inv) (hcid : 0 < cid) (hdead : t.mTaskCTXList.lookup cid = none) : t.Refuses cid := by
  have hnull : t.contextOf cid = 0 := by rw [contextOf, hdead, Option.getD_none]
  constructor
  · intro e msg
    have hs : t.Same (useDefault { t with mTaskCTX := t.contextOf cid }) := Same.of_eq rfl rfl rfl rfl
    have hchoose : t.choose e msg cid = some ([], some msg, useDefault { t with mTaskCTX := t.contextOf cid }) := by
      simp [choose, hcid, hnull]
    rw [TMPTask.procMsg]
    refine Returns.of_bind hchoose ?_
    refine (handle_same (hs.inv h) e.handled).bind ?_
    rintro t₁ ⟨-, heap, rfl⟩
    exact (returns_some _ _).mpr rfl
  · intro e timerKey para hkey
    rw [TMPTask.onTimeOut, if_neg hkey.symm, if_pos hcid]
    dsimp only
    rw [if_neg (by rw [hnull]; simp), returns_some]
    exact ⟨rfl, rfl, rfl, rfl⟩

theorem contexts_listed_or_deleted (ctx : TTaskContext) (mMaxTaskCID rate interval timerKey delay : UInt32)
    (calls : List Call) :
    Returns (runCalls exec (internalInit ctx mMaxTaskCID rate interval timerKey delay) calls) fun (ess, t) =>
      t.Sound ∧ (created ess.flatten).Nodup ∧
        created ess.flatten ~ t.contexts.map Prod.snd ++ deleted ess.flatten ∧
        (t.heap.read t.mDefaultTaskCTX).isSome ∧ t.mDefaultTaskCTX ∉ deleted ess.flatten ∧
        ∀ cid, cid ≠ 0 → t.mTaskCTXList.lookup cid = none → t.Refuses cid := by
  refine (run_spec (init_inv ctx mMaxTaskCID rate interval timerKey delay) calls).mono ?_
  rintro ⟨ess, t⟩ ⟨h, hm⟩
  refine ⟨h.sound, hm.nodup, hm.conserved, h.default, fun hdel => ?_, fun cid hcid hdead => ?_⟩
  · have hcreated := hm.conserved.symm.subset (List.mem_append_right _ hdel)
    have hfresh := (hm.fresh _ hcreated).1
    rw [hm.default] at hfresh
    change 2 ≤ 1 at hfresh
    omega
  · exact h.refuses (by grind) hdead

theorem recycle_timer_ignores_cid :
    let e : Handlers := ⟨100, 100, 9, [], ([], some ⟨0, true, false⟩), fun _ => ([], true)⟩
    let t₀ := internalInit ⟨0, true, false⟩ 0 10 600 5 30000
    Returns (t₀.procMsg e (some ⟨dialogBegin, 0⟩) 0) fun (es, t) =>
      es = [.create 2, .procMsg ⟨dialogBegin, 1⟩ 1 2] ∧ t.mTaskCTXList.lookup 7 = none ∧
        Returns (t.onTimeOut { e with currentTime := 1000 } 5 7 0) fun (es', t') =>
          es' = [.delete 2, .setTimer 30000] ∧ t'.contexts = [] := by
  refine ⟨_, rfl, rfl, rfl, _, rfl, rfl, rfl⟩

end Xframe.Task.TMPTask
