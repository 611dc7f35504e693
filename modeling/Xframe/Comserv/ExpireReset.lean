import Xframe.Comserv.ExpireLinks

/-! Runs after `clear`: which calls keep the stale back link of the first entry, which repair it, and which
follow it. -/

namespace Xframe.Comserv

open Xframe.Lib

variable {K V : Type}

namespace ExpireMap

variable [DecidableEq K]

def Touches (m : ExpireMap K V) : ExpireBuffer.Op K V → Prop
  | .popBack => m.entries.length = 1
  | .pop key => m.entries.head?.map ExpireValue.key = some key
  | .update key _ _ => m.entries.head?.map ExpireValue.key = some key ∧ m.entries.length ≠ 1
  | .updateValue key _ _ => m.entries.head?.map ExpireValue.key = some key ∧ m.entries.length ≠ 1
  | _ => False

def Repairs (m : ExpireMap K V) : ExpireBuffer.Op K V → Prop
  | .popFront => m.entries ≠ []
  | .popFrontOld currenttime now => (m.popFrontOld (if currenttime = 0 then now else currenttime)).1 = true
  | .popOld currenttime now => (m.popFrontOld (if currenttime = 0 then now else currenttime)).1 = true
  | .push key value now => (m.push key value now).1 = 2
  | .pushOld key value now => (m.push key value now).1 = 2
  | _ => False

/-- No operation touches the first entry's back link before one has repaired it. -/
def Spared : ExpireMap K V → List (ExpireBuffer.Op K V) → Prop
  | _, [] => True
  | m, o :: os => ¬m.Touches o ∧ (m.Repairs o ∨ Spared (m.step o).2 os)

end ExpireMap

namespace ExpireBuffer

variable {b b' c : ExpireBuffer K V} {p q w : ℕ} {ps l r : List ℕ} {m : ExpireMap K V}

structure Stale (w : ℕ) (b : ExpireBuffer K V) (m : ExpireMap K V) : Prop where
  models : Models (straight w b) m
  dead : b.heap.read w = none
  old : w < b.heap.brk
  tag : b.prevs b.pTag ≠ some w

def Bends (w : ℕ) (b : ExpireBuffer K V) : Prop :=
  if b.count = 0 then b.pTail = w else b.prevs b.pHead = some w

lemma prevs_straight (x : ℕ) :
    (straight w b).heap.links Enty.prev x = (b.prevs x).map fun q => if q = w then b.pTag else q := by
  change ((b.heap.cells x).map _).map Enty.prev = ((b.heap.cells x).map Enty.prev).map _
  rw [Option.map_map, Option.map_map]
  rfl

lemma next_straight : (straight w b).heap.links Enty.next = b.heap.links Enty.next := by
  funext x
  change ((b.heap.cells x).map _).map Enty.next = (b.heap.cells x).map Enty.next
  rw [Option.map_map]
  rfl

lemma live_iff (h : Rep (straight w b) ps m) : p ∈ b.pTag :: ps ↔ b.heap.read p ≠ none := by
  refine (mem_iff_live h).trans (not_congr ?_)
  exact Option.map_eq_none_iff

lemma live_ne (hdead : b.heap.read w = none) (hp : b.heap.read p ≠ none) : p ≠ w := by
  rintro rfl
  exact hp hdead

lemma prevs_of_straight (h : (straight w b).heap.links Enty.prev p = some q) (hq : q ≠ b.pTag) :
    b.prevs p = some q := by
  rw [prevs_straight, Option.map_eq_some_iff] at h
  obtain ⟨y, hy, hyq⟩ := h
  split at hyq
  · exact absurd hyq.symm hq
  · exact hyq ▸ hy

lemma prevs_tag (h : Rep (straight w b) ps m) (hps : ps ≠ []) : b.prevs b.pTag = some (ps.getLastD b.pTag) := by
  obtain ⟨l, x, rfl⟩ := (List.eq_nil_or_concat ps).resolve_left hps
  rw [List.concat_eq_append] at h ⊢
  have hring : Ring _ _ b.pTag (l ++ x :: []) := h.ring
  have hprev : (straight w b).heap.links Enty.prev b.pTag = some x := hring.prev_after
  rw [getLastD_snoc]
  exact prevs_of_straight hprev hring.tag_ne

lemma last_ne_tag (h : Rep (straight w b) ps m) (hps : ps ≠ []) : ps.getLastD b.pTag ≠ b.pTag := by
  obtain ⟨l, x, rfl⟩ := (List.eq_nil_or_concat ps).resolve_left hps
  rw [List.concat_eq_append] at h ⊢
  rw [getLastD_snoc]
  exact h.ring.tag_ne

lemma tail_of_straight (h : Rep (straight w b) ps m) (hps : ps ≠ []) : b.pTail = ps.getLastD b.pTag := by
  have htail : (if b.pTail = w then b.pTag else b.pTail) = ps.getLastD b.pTag := h.tail
  split at htail
  · exact absurd htail.symm (last_ne_tag h hps)
  · exact htail

lemma tag_live (h : Rep (straight w b) ps m) : b.heap.read b.pTag ≠ none :=
  (live_iff h).mp List.mem_cons_self

lemma last_live (h : Rep (straight w b) ps m) : b.heap.read (ps.getLastD b.pTag) ≠ none :=
  (live_iff h).mp (getLastD_mem _ _)

lemma head_of_bent (h : Rep (straight w b) ps m) (hdead : b.heap.read w = none) (hp : b.prevs p = some w) :
    p = b.pHead := by
  have hhead : b.pHead = ps.headD b.pTag := h.head
  have hprev : (straight w b).heap.links Enty.prev p = some b.pTag := by
    rw [prevs_straight, hp, Option.map_some, if_pos rfl]
  have hmem : p ∈ b.pTag :: ps := by
    rw [live_iff h, ne_eq, ← prevs_eq_none, hp]
    exact Option.some_ne_none w
  rcases List.mem_cons.mp hmem with rfl | hmem
  · by_cases hps : ps = []
    · rw [hhead, hps]
      rfl
    · rw [prevs_tag h hps, Option.some.injEq] at hp
      exact absurd hp (live_ne hdead (last_live h))
  · obtain ⟨l, r, rfl⟩ := List.append_of_mem hmem
    have hat := h.ring.prev_at
    rw [hprev] at hat
    obtain rfl := h.ring.getLastD_eq_tag.mp (Option.some.inj hat).symm
    exact hhead.symm

lemma straight_eq (hlinks : ∀ x, b.prevs x ≠ some w) (htail : b.pTail ≠ w) : straight w b = b := by
  have hheap : (b.heap.map fun e => { e with prev := if e.prev = w then b.pTag else e.prev }) = b.heap := by
    refine Heap.ext_cells ?_ rfl
    funext x
    change (b.heap.cells x).map _ = _
    cases hx : b.heap.cells x with
    | none => rfl
    | some e =>
      have hne : e.prev ≠ w := fun he => hlinks x (by rw [prevs_of_read hx, he])
      simp [hne]
  rw [straight, hheap, if_neg htail]

lemma models_of_straight (h : Models (straight w b) m) (hdead : b.heap.read w = none)
    (hhead : b.prevs b.pHead ≠ some w) (htail : b.count = 0 → b.pTail ≠ w) : Models b m := by
  obtain ⟨ps, hr⟩ := h
  have hcount : b.count = ps.length := hr.count
  have hlinks : ∀ x, b.prevs x ≠ some w := by
    intro x hx
    obtain rfl := head_of_bent hr hdead hx
    exact hhead hx
  have hlast : b.pTail ≠ w := by
    by_cases hps : ps = []
    · exact htail (by rw [hcount, hps]; rfl)
    · rw [tail_of_straight hr hps]
      exact live_ne hdead (last_live hr)
  have hs := straight_eq hlinks hlast
  exact ⟨ps, hs ▸ hr⟩

lemma Stale.cases (h : Stale w b m) : Bends w b ∨ Models b m := by
  refine (em (Bends w b)).imp_right fun hb => ?_
  obtain ⟨ps, hr⟩ := h.models
  have hcount : b.count = ps.length := hr.count
  refine models_of_straight h.models h.dead ?_ ?_
  · by_cases h0 : b.count = 0
    · obtain rfl := List.eq_nil_of_length_eq_zero (hcount.symm.trans h0)
      have hhead : b.pHead = b.pTag := hr.head
      rw [hhead]
      exact h.tag
    · rwa [Bends, if_neg h0] at hb
  · intro h0
    rwa [Bends, if_pos h0] at hb

lemma stale_of_models (h : Models b m) : Stale 0 b m := by
  obtain ⟨ps, hr⟩ := h
  have hlinks : ∀ x, b.prevs x ≠ some 0 := by
    intro x hx
    have hmem : x ∈ b.pTag :: ps := by
      rw [mem_iff_live hr, ne_eq, ← prevs_eq_none, hx]
      exact Option.some_ne_none 0
    exact hr.cell_ne_zero (hr.ring.prev_mem hmem hx) rfl
  refine ⟨⟨ps, ?_⟩, b.heap.null, b.heap.brk_pos, hlinks _⟩
  rwa [straight_eq hlinks (hr.cell_ne_zero (tail_mem hr))]

section Keyed

variable [DecidableEq K] {o : Op K V}

omit [DecidableEq K] in
lemma head_key (h : Rep b ps m) {key : K} (hk : b.map key = some p) :
    m.entries.head?.map ExpireValue.key = some key ↔ p = b.pHead := by
  obtain ⟨hp, v, hv, rfl⟩ := (h.map key p).mp hk
  cases ps with
  | nil => simp at hp
  | cons x xs =>
    have hhead : b.pHead = x := h.head
    cases hm : m.entries with
    | nil =>
      have hlen := h.length
      simp [hm] at hlen
    | cons u us =>
      have hvals := h.values
      rw [hm] at hvals
      have hu : b.entry x = some u := (List.cons.inj hvals).1
      rw [hhead, List.head?_cons, Option.map_some, Option.some.injEq]
      constructor
      · intro hkey
        have hx := (h.map u.key x).mpr ⟨by simp, u, hu, rfl⟩
        rw [hkey, hk] at hx
        exact Option.some.inj hx
      · rintro rfl
        exact congrArg ExpireValue.key (Option.some.inj (hu.symm.trans hv))

omit [DecidableEq K] in
lemma head_eq_tail (h : Rep (straight w b) ps m) (hps : ps ≠ []) : b.pHead = b.pTail ↔ m.entries.length = 1 := by
  have hhead : b.pHead = ps.headD b.pTag := h.head
  have hn := h.ring.nodup
  rw [tail_of_straight h hps, hhead, ← h.length]
  cases ps with
  | nil => exact absurd rfl hps
  | cons x xs =>
    rcases List.eq_nil_or_concat xs with rfl | ⟨l, y, rfl⟩
    · simp
    · rw [List.concat_eq_append, ← List.cons_append, getLastD_snoc]
      simp only [List.concat_eq_append, List.nodup_cons, List.mem_cons, List.mem_append] at hn
      have hne : x ≠ y := by
        rintro rfl
        exact hn.2.1 (Or.inr (Or.inl rfl))
      simp [hne]

omit [DecidableEq K] in
lemma count_pos_of_mem (h : Rep (straight w b) ps m) (hp : p ∈ ps) : b.count ≠ 0 := by
  have hcount : b.count = ps.length := h.count
  rw [hcount]
  exact List.length_pos_of_mem hp |>.ne'

omit [DecidableEq K] in
lemma avoids (h : Stale w b m) (ho : ¬m.Touches o) : Avoids w b o := by
  obtain ⟨ps, hr⟩ := h.models
  have hcount : b.count = ps.length := hr.count
  have hlast : b.count ≠ 0 → ps ≠ [] := fun h0 hps => h0 (by rw [hcount, hps]; rfl)
  have htail : b.count ≠ 0 → b.pTail ≠ w := by
    intro h0
    rw [tail_of_straight hr (hlast h0)]
    exact live_ne h.dead (last_live hr)
  have hmem {key : K} {p : ℕ} (hk : b.map key = some p) : p ∈ ps := ((hr.map key p).mp hk).1
  have hhead {p : ℕ} {e : Enty K V} (he : b.heap.read p = some e) (hw : e.prev = w) : p = b.pHead :=
    head_of_bent hr h.dead (by rw [prevs_of_read he, hw])
  refine ⟨live_ne h.dead (tag_live hr), h.old, htail, ?_, ?_, ?_⟩
  · intro key p hop hk
    have h0 := count_pos_of_mem hr (hmem hk)
    refine ⟨live_ne h.dead ((live_iff hr).mp (List.mem_cons_of_mem _ (hmem hk))), htail h0, ?_⟩
    intro hne e he hw
    have hp := hhead he hw
    have hfirst := (head_key hr hk).mpr hp
    have hlen : m.entries.length ≠ 1 := fun h1 => hne (hp.trans ((head_eq_tail hr (hlast h0)).mpr h1))
    rcases hop with ⟨t, now, rfl⟩ | ⟨value, now, rfl⟩
    · exact ho ⟨hfirst, hlen⟩
    · exact ho ⟨hfirst, hlen⟩
  · rintro key p e rfl hk he hw
    exact ho ((head_key hr hk).mpr (hhead he hw))
  · rintro rfl h0 e he hw
    exact ho ((head_eq_tail hr (hlast h0)).mp (hhead he hw).symm)

lemma popBackOut_popBack {x : Ret K V} (h : b.popBackOut = some (x, b')) (h0 : 0 < b.count) :
    ∃ d, b.popBack = some (d, b') := by
  rw [popBackOut, if_pos h0] at h
  obtain ⟨v, -, h⟩ := Option.bind_eq_some_iff.mp h
  obtain ⟨⟨d, b₁⟩, h₁, h⟩ := Option.bind_eq_some_iff.mp h
  cases h
  exact ⟨d, h₁⟩

omit [DecidableEq K] in
lemma refresh_touches (h : Stale w b m) (hb : Bends w b) {key : K} (hk : b.map key = some p)
    (hkey : m.entries.head?.map ExpireValue.key = some key) (hlen : m.entries.length ≠ 1) {v : ExpireValue K V}
    (h₁ : setValue { b with pCurrent := p } p v = some b') : b'.moveToTail = none := by
  obtain ⟨ps, hr⟩ := h.models
  have hp : p ∈ ps := ((hr.map key p).mp hk).1
  have h0 := count_pos_of_mem hr hp
  have hps : ps ≠ [] := List.ne_nil_of_mem hp
  obtain rfl := (head_key hr hk).mp hkey
  rw [Bends, if_neg h0] at hb
  refine Option.eq_none_iff_forall_ne_some.mpr fun c h₂ => ?_
  obtain ⟨-, -, ⟨heq, -⟩ | ⟨-, e, he, -, hprev, -⟩⟩ := refresh_prevs h₁ h₂
  · exact hlen ((head_eq_tail hr hps).mp heq)
  · obtain rfl : w = e.prev := Option.some.inj (hb.symm.trans he)
    exact hprev h.dead

lemma exec_touches (h : Stale w b m) (hb : Bends w b) (ho : m.Touches o) : b.exec o = none := by
  obtain ⟨ps, hr⟩ := h.models
  have hcount : b.count = ps.length := hr.count
  have stuck {q : ℕ} {e : Enty K V} (hq : b.heap.read q = some e) (hhead : q = b.pHead) (h0 : b.count ≠ 0) :
      b.heap.read e.prev = none := by
    subst hhead
    rw [Bends, if_neg h0] at hb
    obtain rfl : w = e.prev := Option.some.inj (hb.symm.trans (prevs_of_read hq))
    exact h.dead
  have hit {key : K} (hkey : m.entries.head?.map ExpireValue.key = some key) : ∃ p, b.map key = some p := by
    cases hk : b.map key with
    | some p => exact ⟨p, rfl⟩
    | none =>
      obtain ⟨v, hv, rfl⟩ := Option.map_eq_some_iff.mp hkey
      have hnone := ExpireMap.find_eq_none.mp ((show b.map v.key = none ↔ _ from hr.map_none).mp hk)
      exact absurd rfl (hnone v (List.mem_of_mem_head? hv))
  refine Option.eq_none_iff_forall_ne_some.mpr ?_
  rintro ⟨x, b'⟩ hx
  cases o with
  | popBack =>
    have hlen : ps.length = 1 := hr.length.trans ho
    have h0 : 0 < b.count := by omega
    obtain ⟨d, hpop⟩ := popBackOut_popBack hx h0
    obtain ⟨e, he, hprev, -⟩ := popBack_prevs hpop h0
    exact hprev (stuck he ((head_eq_tail hr (by rintro rfl; simp at hlen)).mpr ho).symm h0.ne')
  | pop key =>
    obtain ⟨p, hk⟩ := hit ho
    have hp : p ∈ ps := ((hr.map key p).mp hk).1
    have h0 := count_pos_of_mem hr hp
    obtain ⟨e, he, hprev, -⟩ := pop_prevs hx h0 hk (hr.cell_ne_zero (List.mem_cons_of_mem _ hp))
    exact hprev (stuck he ((head_key hr hk).mp ho) h0)
  | update key t now =>
    obtain ⟨p, hk⟩ := hit ho.1
    rw [exec, update, hk] at hx
    simp only [Option.bind_eq_bind, Option.bind_eq_some_iff] at hx
    obtain ⟨v, -, b₁, h₁, b₂, h₂, -⟩ := hx
    rw [refresh_touches h hb hk ho.1 ho.2 h₁] at h₂
    exact Option.some_ne_none _ h₂.symm
  | updateValue key value now =>
    obtain ⟨p, hk⟩ := hit ho.1
    rw [exec, updateValue, hk] at hx
    simp only [Option.bind_eq_bind, Option.bind_eq_some_iff] at hx
    obtain ⟨v, -, b₁, h₁, b₂, h₂, -⟩ := hx
    rw [refresh_touches h hb hk ho.1 ho.2 h₁] at h₂
    exact Option.some_ne_none _ h₂.symm
  | push => exact ho
  | pushOld => exact ho
  | find => exact ho
  | popFront => exact ho
  | popFrontOld => exact ho
  | popOld => exact ho

omit [DecidableEq K] in
lemma next_ne_head (hr : Rep (straight w b) ps m) (hb : b.prevs b.pHead = some w) (hp : p ∈ ps)
    (hq : b.heap.links Enty.next p = some q) : q ≠ b.pHead ∧ b.heap.read q ≠ none := by
  obtain ⟨l, r, rfl⟩ := List.append_of_mem hp
  have hnext : b.heap.links Enty.next p = some (r.headD b.pTag) := by
    rw [← next_straight]
    exact hr.ring.next_at
  obtain rfl := Option.some.inj (hq.symm.trans hnext)
  constructor
  · intro hhead
    have hprev := prevs_straight (w := w) (b := b) b.pHead
    rw [hb, Option.map_some, if_pos rfl, ← hhead] at hprev
    exact hr.ring.tag_ne (Option.some.inj (hr.ring.prev_after.symm.trans hprev))
  · refine (live_iff hr).mp ?_
    have hmem := headD_mem b.pTag r
    simp only [List.mem_cons, List.mem_append] at hmem ⊢
    tauto

omit [DecidableEq K] in
lemma head_ne_tag (hr : Rep (straight w b) ps m) (h0 : b.count ≠ 0) : b.pHead ≠ b.pTag := by
  have hcount : b.count = ps.length := hr.count
  have hhead : b.pHead = ps.headD b.pTag := hr.head
  cases ps with
  | nil => exact absurd hcount h0
  | cons x xs =>
    rw [hhead]
    exact Ring.tag_ne (l := []) hr.ring

omit [DecidableEq K] in
lemma head_live (hr : Rep (straight w b) ps m) : b.heap.read b.pHead ≠ none :=
  (live_iff hr).mp (head_mem (b := straight w b) hr)

omit [DecidableEq K] in
lemma stale_of_link (hm : Models (straight w b) m) (hdead : b.prevs w = none) (hold : w < b.heap.brk)
    (hx : b.prevs p = some w) (hp : p ≠ b.pTag) : Stale w b m ∧ Bends w b := by
  obtain ⟨ps, hr⟩ := hm
  have hcount : b.count = ps.length := hr.count
  have hd := prevs_eq_none.mp hdead
  obtain rfl := head_of_bent hr hd hx
  have h0 : b.count ≠ 0 := by
    intro h0
    obtain rfl := List.eq_nil_of_length_eq_zero (hcount.symm.trans h0)
    exact hp hr.head
  have hps : ps ≠ [] := by rintro rfl; exact h0 hcount
  refine ⟨⟨⟨ps, hr⟩, hd, hold, ?_⟩, by rwa [Bends, if_neg h0]⟩
  rw [prevs_tag hr hps, ne_eq, Option.some.injEq]
  exact live_ne hd (last_live hr)

omit [DecidableEq K] in
lemma Stale.same (h : Stale w b m) (hb : Bends w b) {m' : ExpireMap K V} (hm : Models (straight w b) m') :
    Stale w b m' ∧ Bends w b := ⟨⟨hm, h.dead, h.old, h.tag⟩, hb⟩

omit [DecidableEq K] in
lemma keeps_of_prevs (h : Stale w b m) (hb : Bends w b) (h0 : b.count ≠ 0) {m' : ExpireMap K V}
    (hm : Models (straight w b') m') (hw : b'.prevs w = b.prevs w) (hhead : b'.prevs b.pHead = b.prevs b.pHead)
    (hbrk : w < b'.heap.brk) (htag : b'.pTag = b.pTag) : Stale w b' m' ∧ Bends w b' := by
  obtain ⟨ps, hr⟩ := h.models
  rw [Bends, if_neg h0] at hb
  apply stale_of_link hm (hw.trans (prevs_eq_none.mpr h.dead)) hbrk (hhead.trans hb)
  rw [htag]
  exact head_ne_tag hr h0

lemma popFrontOld_false {t now : ℤ} (h : b.popFrontOld t now = some (false, b')) : b' = b := by
  rw [popFrontOld] at h
  generalize (if t = 0 then now else t) = oldtime at h
  split at h
  · next h0 =>
    obtain ⟨v, -, hv⟩ := Option.bind_eq_some_iff.mp h
    split at hv
    · obtain ⟨hr, -⟩ := popFront_prevs hv h0
      simp at hr
    · cases hv
      rfl
  · cases h
    rfl

lemma popFrontOld_true {t now : ℤ} (h : b.popFrontOld t now = some (true, b')) :
    0 < b.count ∧ b.popFront = some (true, b') := by
  rw [popFrontOld] at h
  generalize (if t = 0 then now else t) = oldtime at h
  split at h
  · next h0 =>
    obtain ⟨v, -, hv⟩ := Option.bind_eq_some_iff.mp h
    split at hv
    · exact ⟨h0, hv⟩
    · cases hv
  · cases h

lemma popFrontOld_stale (h : Stale w b m) (t now : ℤ) : Returns (b.popFrontOld t now) fun (r, b') =>
    r = (m.popFrontOld (if t = 0 then now else t)).1 ∧
      Models (straight w b') (m.popFrontOld (if t = 0 then now else t)).2 := by
  obtain ⟨ps, hr⟩ := h.models
  obtain ⟨⟨r, s⟩, hs, hres⟩ := popFrontOld_spec h.models t now
  rw [popFrontOld_straight (live_ne h.dead (tag_live hr))] at hs
  obtain ⟨⟨r', b'⟩, hx, heq⟩ := Option.map_eq_some_iff.mp hs
  cases heq
  exact ⟨_, hx, hres⟩

omit [DecidableEq K] in
lemma refresh_keeps (h : Stale w b m) (hb : Bends w b) {m' : ExpireMap K V} {key : K} (hk : b.map key = some p)
    (ho : ¬(m.entries.head?.map ExpireValue.key = some key ∧ m.entries.length ≠ 1)) {v : ExpireValue K V}
    (h₁ : setValue { b with pCurrent := p } p v = some b') (h₂ : b'.moveToTail = some c)
    (hm : Models (straight w c) m') : Stale w c m' ∧ Bends w c := by
  obtain ⟨ps, hr⟩ := h.models
  have hp : p ∈ ps := ((hr.map key p).mp hk).1
  have h0 := count_pos_of_mem hr hp
  have hne {x : ℕ} (hx : b.heap.read x ≠ none) : w ≠ x := fun hw => hx (hw ▸ h.dead)
  obtain ⟨k, t, ⟨-, hprevs⟩ | ⟨hlast, e, -, hnext, -, hprevs⟩⟩ := refresh_prevs h₁ h₂
  · exact keeps_of_prevs h hb h0 hm (by rw [hprevs]) (by rw [hprevs]) (k ▸ h.old) t
  · have hlink : b.prevs b.pHead = some w := by rwa [Bends, if_neg h0] at hb
    obtain ⟨hnh, hnl⟩ := next_ne_head hr hlink hp hnext
    have hph : b.pHead ≠ p := by
      rintro rfl
      have hlen : m.entries.length ≠ 1 := fun h1 => hlast ((head_eq_tail hr (List.ne_nil_of_mem hp)).mpr h1)
      exact ho ⟨(head_key hr hk).mpr rfl, hlen⟩
    have hpl : b.heap.read p ≠ none := (live_iff hr).mp (List.mem_cons_of_mem _ hp)
    refine keeps_of_prevs h hb h0 hm ?_ ?_ (k ▸ h.old) t
    · rw [hprevs, Function.update_of_ne (hne hpl), Function.update_of_ne (hne (tag_live hr)),
        Function.update_of_ne (hne hnl)]
    · rw [hprevs, Function.update_of_ne hph, Function.update_of_ne (head_ne_tag hr h0),
        Function.update_of_ne hnh.symm]

omit [DecidableEq K] in
lemma push_links (h : Stale w b m) (hb : Bends w b) (hprevs : c.prevs =
      Function.update (Function.update b.prevs b.heap.brk (some b.pTail)) b.pTag (some b.heap.brk)) :
    c.prevs w = none ∧ ∃ x, x ≠ b.pTag ∧ c.prevs x = some w := by
  obtain ⟨ps, hr⟩ := h.models
  have hne {x : ℕ} (hx : b.heap.read x ≠ none) : w ≠ x := fun hw => hx (hw ▸ h.dead)
  have hfresh {x : ℕ} (hx : b.heap.read x ≠ none) : x ≠ b.heap.brk := fun hx' => hx (hx' ▸ b.heap.brk_fresh)
  have htag := hfresh (tag_live hr)
  constructor
  · rw [hprevs, Function.update_of_ne (hne (tag_live hr)), Function.update_of_ne h.old.ne]
    exact prevs_eq_none.mpr h.dead
  · by_cases h0 : b.count = 0
    · rw [Bends, if_pos h0] at hb
      refine ⟨b.heap.brk, htag.symm, ?_⟩
      rw [hprevs, Function.update_of_ne htag.symm, Function.update_self, hb]
    · rw [Bends, if_neg h0] at hb
      refine ⟨b.pHead, head_ne_tag hr h0, ?_⟩
      rw [hprevs, Function.update_of_ne (head_ne_tag hr h0), Function.update_of_ne (hfresh (head_live hr)), hb]

lemma push_keeps (h : Stale w b m) (hb : Bends w b) {m' : ExpireMap K V} {key : K} {value : V} {now : ℤ} {r : ℕ}
    (hx : b.push key value now = some (r, b')) (hr2 : r ≠ 2) (hm : Models (straight w b') m') :
    Stale w b' m' ∧ Bends w b' := by
  obtain ⟨rfl, rfl⟩ | ⟨c, hprevs, hbrk, htag, ⟨rfl, rfl⟩ | ⟨rfl, -⟩⟩ := push_prevs hx
  · exact h.same hb hm
  · obtain ⟨hdead, x, hxt, hxw⟩ := push_links h hb hprevs
    exact stale_of_link hm hdead (by rw [hbrk]; exact h.old.trans (Nat.lt_succ_self _)) hxw (htag ▸ hxt)
  · exact absurd rfl hr2

section Kept

variable {m' : ExpireMap K V} {x : Ret K V}

lemma find_keeps (h : Stale w b m) (hb : Bends w b) {key : K} (hx : b.find key = some (x, b'))
    (hm : Models (straight w b') m') : Stale w b' m' ∧ Bends w b' := by
  rw [find] at hx
  split at hx
  · cases hx
    exact h.same hb hm
  · next h0 =>
    split at hx
    · cases hx
      exact h.same hb hm
    · cases hx
      exact keeps_of_prevs h hb h0 hm rfl rfl h.old rfl
    · obtain ⟨v, -, heq⟩ := Option.bind_eq_some_iff.mp hx
      cases heq
      exact keeps_of_prevs h hb h0 hm rfl rfl h.old rfl

lemma pop_keeps (h : Stale w b m) (hb : Bends w b) {key : K} (ho : m.entries.head?.map ExpireValue.key ≠ some key)
    (hx : b.pop key = some (x, b')) (hm : Models (straight w b') m') : Stale w b' m' ∧ Bends w b' := by
  obtain ⟨ps, hr⟩ := h.models
  have hne {x : ℕ} (hx : b.heap.read x ≠ none) : w ≠ x := fun hw => hx (hw ▸ h.dead)
  by_cases h0 : b.count = 0
  · rw [pop, if_pos h0] at hx
    cases hx
    exact h.same hb hm
  cases hk : b.map key with
  | none =>
    rw [pop, if_neg h0, hk] at hx
    cases hx
    exact h.same hb hm
  | some p =>
    have hp : p ∈ ps := ((hr.map key p).mp hk).1
    have hpl : b.heap.read p ≠ none := (live_iff hr).mp (List.mem_cons_of_mem _ hp)
    have hph : b.pHead ≠ p := fun heq => ho ((head_key hr hk).mpr heq.symm)
    have hlink : b.prevs b.pHead = some w := by rwa [Bends, if_neg h0] at hb
    obtain ⟨e, he, -, hprevs, k, t⟩ := pop_prevs hx h0 hk (hr.cell_ne_zero (List.mem_cons_of_mem _ hp))
    obtain ⟨hnh, hnl⟩ := next_ne_head hr hlink hp (congrArg (Option.map Enty.next) he)
    refine keeps_of_prevs h hb h0 hm ?_ ?_ (k ▸ h.old) t
    · rw [hprevs, Function.update_of_ne (hne hnl), Function.update_of_ne (hne hpl)]
    · rw [hprevs, Function.update_of_ne hnh.symm, Function.update_of_ne hph]

lemma popBack_keeps (h : Stale w b m) (hb : Bends w b) (ho : m.entries.length ≠ 1)
    (hx : b.popBackOut = some (x, b')) (hm : Models (straight w b') m') : Stale w b' m' ∧ Bends w b' := by
  obtain ⟨ps, hr⟩ := h.models
  have hcount : b.count = ps.length := hr.count
  have hne {x : ℕ} (hx : b.heap.read x ≠ none) : w ≠ x := fun hw => hx (hw ▸ h.dead)
  by_cases h0 : b.count = 0
  · rw [popBackOut, if_neg (by omega)] at hx
    cases hx
    exact h.same hb hm
  · obtain ⟨d, hpop⟩ := popBackOut_popBack hx (by omega)
    obtain ⟨e, he, -, hprevs, k, t⟩ := popBack_prevs hpop (by omega)
    have hps : ps ≠ [] := by rintro rfl; exact h0 hcount
    have hht : b.pHead ≠ b.pTail := fun heq => ho ((head_eq_tail hr hps).mp heq)
    have htl : b.heap.read b.pTail ≠ none := by rw [he]; exact Option.some_ne_none e
    refine keeps_of_prevs h hb h0 hm ?_ ?_ (k ▸ h.old) t
    · rw [hprevs, Function.update_of_ne (hne htl), Function.update_of_ne (hne (tag_live hr))]
    · rw [hprevs, Function.update_of_ne hht, Function.update_of_ne (head_ne_tag hr h0)]

end Kept

lemma exec_keeps (h : Stale w b m) (hb : Bends w b) (ho : ¬m.Touches o) (hrep : ¬m.Repairs o) {x : Ret K V}
    (hx : b.exec o = some (x, b')) (hcode : x = (m.step o).1) {m' : ExpireMap K V}
    (hm : Models (straight w b') m') : Stale w b' m' ∧ Bends w b' := by
  obtain ⟨ps, hr⟩ := h.models
  have same (heq : b' = b) : Stale w b' m' ∧ Bends w b' := by
    subst heq
    exact h.same hb hm
  cases o with
  | push key value now =>
    obtain ⟨⟨r, c⟩, hpush, heq⟩ := Option.map_eq_some_iff.mp hx
    cases heq
    refine push_keeps h hb hpush ?_ hm
    rintro rfl
    exact hrep (congrArg Ret.code hcode).symm
  | pushOld key value now =>
    obtain ⟨tmp, -, hx⟩ := Option.bind_eq_some_iff.mp hx
    obtain ⟨⟨r, c⟩, hpush, heq⟩ := Option.bind_eq_some_iff.mp hx
    cases heq
    refine push_keeps h hb hpush ?_ hm
    rintro rfl
    exact hrep (congrArg Ret.code hcode).symm
  | find key => exact find_keeps h hb hx hm
  | update key t now =>
    rcases update_cases hx with hsame | ⟨p, v, b₁, hk, h₁, h₂⟩
    · exact same hsame
    · exact refresh_keeps h hb hk ho h₁ h₂ hm
  | updateValue key value now =>
    rcases updateValue_cases hx with hsame | ⟨p, v, b₁, hk, h₁, h₂⟩
    · exact same hsame
    · exact refresh_keeps h hb hk ho h₁ h₂ hm
  | pop key => exact pop_keeps h hb ho hx hm
  | popFront =>
    have hps : ps.length = 0 := by rw [hr.length, not_not.mp hrep]; rfl
    have hcount : b.count = ps.length := hr.count
    rw [exec, popFrontOut, if_neg (by omega)] at hx
    cases hx
    exact same rfl
  | popBack => exact popBack_keeps h hb ho hx hm
  | popFrontOld t now =>
    obtain ⟨⟨r, b₁⟩, h₁, hr₁, -⟩ := popFrontOld_stale h t now
    rw [Bool.eq_false_iff.mpr hrep] at hr₁
    subst hr₁
    rcases popFrontOldOut_cases hx with hsame | ⟨d, hpop⟩
    · exact same hsame
    · rw [h₁] at hpop
      cases hpop
      exact same (popFrontOld_false h₁)
  | popOld t now =>
    obtain ⟨⟨r, b₁⟩, h₁, hr₁, -⟩ := popFrontOld_stale h t now
    rw [Bool.eq_false_iff.mpr hrep] at hr₁
    subst hr₁
    obtain ⟨⟨n, c⟩, hx, heq⟩ := Option.map_eq_some_iff.mp hx
    cases heq
    rw [popOld] at hx
    split at hx
    · rw [popOldLoop, h₁] at hx
      cases hx
      exact same (popFrontOld_false h₁)
    · cases hx
      exact same rfl

lemma popFront_repairs {d : Bool} {m' : ExpireMap K V} (h : c.popFront = some (d, b')) (h0 : 0 < c.count)
    (hdead : c.prevs w = none) (hm : Models (straight w b') m') : Models b' m' := by
  obtain ⟨-, e, he, hnl, hprevs, -, hhead, htail⟩ := popFront_prevs h h0
  have htag := popFront_tag h
  have hlive {x : ℕ} (hx : c.heap.read x ≠ none) : w ≠ x := fun hw => hx (prevs_eq_none.mp (hw ▸ hdead))
  have hd : b'.prevs w = none := by
    rw [hprevs, Function.update_of_ne (hlive (by rw [he]; exact Option.some_ne_none e)),
      Function.update_of_ne (hlive hnl), hdead]
  have hd' := prevs_eq_none.mp hd
  have hw : b'.pTag ≠ w := by
    obtain ⟨ps, hr⟩ := hm
    exact live_ne hd' (tag_live hr)
  refine models_of_straight hm hd' ?_ fun hzero => ?_
  · rw [hhead, hprevs, Function.update_apply]
    split
    · simp
    · rw [Function.update_self, ne_eq, Option.some.injEq, ← htag]
      exact hw
  · rw [htail hzero, ← htag]
    exact hw

lemma push_repairs (h : Stale w b m) (hb : Bends w b) {m' : ExpireMap K V} {key : K} {value : V} {now : ℤ}
    (hx : b.push key value now = some (2, b')) (hm : Models (straight w b') m') : Models b' m' := by
  obtain ⟨h2, -⟩ | ⟨c, hprevs, -, -, ⟨h2, -⟩ | ⟨-, h0, d, hpop⟩⟩ := push_prevs hx
  · simp at h2
  · simp at h2
  · exact popFront_repairs hpop h0 (push_links h hb hprevs).1 hm

lemma exec_repairs (h : Stale w b m) (hb : Bends w b) (hrep : m.Repairs o) {x : Ret K V}
    (hx : b.exec o = some (x, b')) (hcode : x = (m.step o).1) (hm : Models (straight w b') (m.step o).2) :
    Models b' (m.step o).2 := by
  obtain ⟨ps, hr⟩ := h.models
  have hcount : b.count = ps.length := hr.count
  have hdead := prevs_eq_none.mpr h.dead
  cases o with
  | push key value now =>
    obtain ⟨⟨r, c⟩, hpush, heq⟩ := Option.map_eq_some_iff.mp hx
    cases heq
    have hr2 : r = 2 := (congrArg Ret.code hcode).trans hrep
    exact push_repairs h hb (hr2 ▸ hpush) hm
  | pushOld key value now =>
    obtain ⟨tmp, -, hx⟩ := Option.bind_eq_some_iff.mp hx
    obtain ⟨⟨r, c⟩, hpush, heq⟩ := Option.bind_eq_some_iff.mp hx
    cases heq
    have hr2 : r = 2 := (congrArg Ret.code hcode).trans hrep
    exact push_repairs h hb (hr2 ▸ hpush) hm
  | popFront =>
    have h0 : 0 < b.count := by
      rw [hcount, hr.length]
      exact List.length_pos_iff.mpr hrep
    rw [exec, popFrontOut, if_pos h0] at hx
    obtain ⟨v, -, hx⟩ := Option.bind_eq_some_iff.mp hx
    obtain ⟨⟨d, b₁⟩, h₁, heq⟩ := Option.bind_eq_some_iff.mp hx
    cases heq
    exact popFront_repairs h₁ h0 hdead hm
  | popFrontOld t now =>
    obtain ⟨⟨r, b₁⟩, h₁, hr₁, -⟩ := popFrontOld_stale h t now
    rw [show r = true from hr₁.trans hrep] at h₁
    obtain ⟨h0, hpop⟩ := popFrontOld_true h₁
    rw [exec, popFrontOldOut, if_pos h0, h₁] at hx
    obtain ⟨v, -, heq⟩ := Option.bind_eq_some_iff.mp hx
    cases heq
    exact popFront_repairs hpop h0 hdead hm
  | popOld t now =>
    obtain ⟨⟨r, b₁⟩, h₁, hr₁, hm₁⟩ := popFrontOld_stale h t now
    rw [show r = true from hr₁.trans hrep] at h₁
    obtain ⟨h0, hpop⟩ := popFrontOld_true h₁
    have hmod := popFront_repairs hpop h0 hdead hm₁
    obtain ⟨⟨n, c⟩, hx, heq⟩ := Option.map_eq_some_iff.mp hx
    cases heq
    rw [popOld, if_pos h0, popOldLoop, h₁] at hx
    change popOldLoop b.count b₁ t now 1 = some (n, b') at hx
    obtain ⟨hfalse, -⟩ | ⟨-, hlen, hold⟩ := m.popOld_cases (if t = 0 then now else t)
    · rw [ExpireMap.Repairs, hfalse] at hrep
      simp at hrep
    · have hlength := hr.length
      have hfuel : (m.popFrontOld (if t = 0 then now else t)).2.entries.length < b.count := by omega
      obtain ⟨⟨n', c⟩, hloop, -, hc⟩ := popOldLoop_spec hmod hfuel t now 1
      rw [hx] at hloop
      cases hloop
      change Models b' (m.popOld (if t = 0 then now else t))
      rw [hold]
      exact hc
  | find => exact hrep.elim
  | update => exact hrep.elim
  | updateValue => exact hrep.elim
  | pop => exact hrep.elim
  | popBack => exact hrep.elim

lemma exec_spared (h : Stale w b m) (ho : ¬m.Touches o) :
    Returns (b.exec o) fun (r, b') => r = (m.step o).1 ∧ Models (straight w b') (m.step o).2 := by
  obtain ⟨⟨r, s⟩, hs, hres⟩ := exec_spec h.models o
  rw [exec_straight (avoids h ho)] at hs
  obtain ⟨⟨r', b'⟩, hx, heq⟩ := Option.map_eq_some_iff.mp hs
  cases heq
  exact ⟨_, hx, hres⟩

lemma runCalls_stale (h : Stale w b m) (hb : Bends w b) (os : List (Op K V)) :
    (m.Spared os → Returns (runCalls exec b os) fun (rs, _) => rs = (runSteps ExpireMap.step m os).1) ∧
      (¬m.Spared os → runCalls exec b os = none) := by
  induction os generalizing b m with
  | nil => exact ⟨fun _ => (returns_some _ _).mpr rfl, fun hs => absurd trivial hs⟩
  | cons o os ih =>
    rw [runCalls_cons]
    by_cases ho : m.Touches o
    · rw [exec_touches h hb ho]
      exact ⟨fun hs => absurd ho hs.1, fun _ => rfl⟩
    obtain ⟨⟨r, b'⟩, hx, hcode, hm⟩ := exec_spared h ho
    rw [hx]
    change (_ → Returns (runCalls exec b' os >>= _) _) ∧ (_ → (runCalls exec b' os >>= _) = none)
    have glue (hrun : Returns (runCalls exec b' os) fun (rs, _) => rs = (runSteps ExpireMap.step (m.step o).2 os).1) :
        Returns (runCalls exec b' os >>= fun (rs, s) => some (r :: rs, s)) fun (rs, _) =>
          rs = (runSteps ExpireMap.step m (o :: os)).1 := by
      refine hrun.bind fun (rs, c) hrs => (returns_some _ _).mpr ?_
      rw [hcode, hrs]
      rfl
    by_cases hrep : m.Repairs o
    · have hm' := exec_repairs h hb hrep hx hcode hm
      refine ⟨fun _ => glue ?_, fun hs => absurd ⟨ho, Or.inl hrep⟩ hs⟩
      exact (runCalls_refines Models (fun _ _ o h => exec_spec h o) hm' os).mono fun _ hrs => hrs.1
    · obtain ⟨h', hb'⟩ := exec_keeps h hb ho hrep hx hcode hm
      obtain ⟨hgood, hbad⟩ := ih h' hb'
      refine ⟨fun hs => glue (hgood (hs.2.resolve_left hrep)), fun hs => ?_⟩
      rw [hbad fun hrest => hs ⟨ho, Or.inr hrest⟩]
      rfl

omit [DecidableEq K] in
lemma clearLoop_brk {n : ℕ} (h : clearLoop n b = some c) : c.heap.brk = b.heap.brk := by
  induction n generalizing b with
  | zero =>
    cases h
    rfl
  | succ n ih =>
    rw [clearLoop] at h
    simp only [Option.bind_eq_bind, Option.bind_eq_some_iff] at h
    obtain ⟨e, -, b₁, h₁, b₂, h₂, b₃, h₃, h⟩ := h
    have k₁ : b₁.heap.brk = b.heap.brk := (setPrev_prevs (b := { b with pCurrent := e.next }) h₁).2
    exact (ih h).trans ((delete_prevs h₃).2.trans ((setNext_prevs h₂).2.trans k₁))

omit [DecidableEq K] in
lemma clearLoop_spec (hl : Loop (b.heap.links Enty.next) b.pTag ps) (hn : (b.pTag :: ps).Nodup)
    (hlive : ∀ p, b.heap.links Enty.next p ≠ none → p ∈ b.pTag :: ps) (hhead : b.pHead = ps.headD b.pTag)
    (hcount : b.count = ps.length) : Returns (clearLoop ps.length b) fun c =>
      Loop (c.heap.links Enty.next) b.pTag [] ∧ (∀ p, c.heap.links Enty.next p ≠ none → p = b.pTag) ∧
        c.prevs b.pTag = (if ps = [] then b.prevs b.pTag else some b.pTag) ∧
        c = { b with heap := c.heap, pHead := b.pTag, pCurrent := c.pCurrent, count := 0 } := by
  induction ps generalizing b with
  | nil =>
    refine (returns_some _ _).mpr ⟨hl, fun p hp => by simpa using hlive p hp, (if_pos rfl).symm, ?_⟩
    cases b
    cases hhead
    cases hcount
    rfl
  | cons x xs ih =>
    rw [List.length_cons, clearLoop]
    have hx : b.pHead = x := hhead
    have hnext : b.heap.links Enty.next x = some (xs.headD b.pTag) := hl.after (l := [])
    have hdef : ∀ y ∈ b.pTag :: x :: xs, b.heap.links Enty.next y ≠ none := fun y hy => hl.defined hy
    have hs := Shows.self b.heap
    have hxt : x ≠ b.pTag := by
      rintro rfl
      simp at hn
    have hcur : xs.headD b.pTag ∈ b.pTag :: x :: xs := headD_mem_of_subset _ (List.subset_cons_self x xs)
    obtain ⟨y, hy⟩ := Option.ne_none_iff_exists'.mp (hs.next_iff_prev.mp (hdef x (by simp)))
    rw [hx]
    refine Returns.of_bind (hs.read hnext hy) ?_
    dsimp only
    refine hs.setPrev (hdef _ hcur) fun h₁ s₁ => ?_
    refine s₁.setNext (hdef _ (by simp)) fun h₂ s₂ => ?_
    refine s₂.delete (update_defined (hdef _ (by simp))) fun h₃ s₃ => ?_
    have hloop : Loop (h₃.links Enty.next) b.pTag xs := by
      refine (Loop.unlink (l := []) hl hn).congr fun z hz => ?_
      have hzx : z ≠ x := by
        rintro rfl
        simp only [List.nodup_cons, List.mem_cons, not_or] at hn hz
        exact hz.elim hxt hn.2.1
      rw [s₃.next, Function.update_of_ne hzx]
      rfl
    refine (ih (b := { b with heap := h₃, pCurrent := xs.headD b.pTag, pHead := xs.headD b.pTag, count := b.count - 1 })
      hloop ?_ ?_ rfl ?_).mono ?_
    · exact hn.sublist (by simp)
    · intro z hz
      dsimp only at hz
      rw [s₃.next] at hz
      have hzx : z ≠ x := by
        rintro rfl
        simp at hz
      rw [Function.update_of_ne hzx] at hz
      by_cases hzt : z = b.pTag
      · simp [hzt]
      · rw [Function.update_of_ne hzt] at hz
        simpa [hzx, hzt] using hlive z hz
    · dsimp only
      rw [hcount]
      rfl
    · rintro c ⟨h1, h2, h3, h4⟩
      refine ⟨h1, h2, ?_, h4⟩
      rw [if_neg (List.cons_ne_nil x xs)]
      refine h3.trans ?_
      split
      · next hxs =>
        subst hxs
        refine (s₃.prev b.pTag).trans ?_
        rw [Function.update_of_ne hxt.symm]
        exact Function.update_self _ _ _
      · rfl

omit [DecidableEq K] in
lemma clear_spec (h : Stale w b m) : Returns b.clear fun c =>
    c.countMax = b.countMax ∧ c.destroyOld = b.destroyOld ∧ c.livingTime = b.livingTime ∧
      c.count = 0 ∧ c.pTail = b.pTail ∧ c.pTag = b.pTag ∧
        ∃ w', Stale w' c (.new b.countMax b.destroyOld b.livingTime) ∧ (b.pTail ≠ b.pTag → w' = b.pTail) := by
  obtain ⟨ps, hr⟩ := h.models
  have hcount : b.count = ps.length := hr.count
  have hhead : b.pHead = ps.headD b.pTag := hr.head
  rw [clear]
  split
  · next h0 =>
    obtain rfl := List.eq_nil_of_length_eq_zero (hcount.symm.trans h0)
    have hm : m = .new b.countMax b.destroyOld b.livingTime := by
      refine ExpireMap.ext_entries (List.eq_nil_of_length_eq_zero hr.length.symm) ?_ ?_ ?_
      · exact hr.countMax.symm
      · exact hr.destroyOld.symm
      · exact hr.livingTime.symm
    refine (returns_some _ _).mpr ⟨rfl, rfl, rfl, h0, rfl, rfl, w, hm ▸ h, fun hne => ?_⟩
    have htail : (if b.pTail = w then b.pTag else b.pTail) = b.pTag := hr.tail
    split at htail
    · exact (‹b.pTail = w›).symm
    · exact absurd htail hne
  · next h0 =>
    have hps : ps ≠ [] := by rintro rfl; exact h0 hcount
    have hnext := next_straight (w := w) (b := b)
    have hlive : ∀ p, b.heap.links Enty.next p ≠ none → p ∈ b.pTag :: ps := by
      intro p hp
      exact hr.live p (by rwa [hnext])
    have hlinks : Loop (b.heap.links Enty.next) b.pTag ps := by
      rw [← hnext]
      exact hr.ring.next
    have hspec := clearLoop_spec (b := { b with map := fun _ => none, pCurrent := b.pHead }) hlinks hr.ring.nodup hlive
      hhead hcount
    rw [← hcount] at hspec
    refine hspec.mono' ?_
    rintro c hc ⟨hloop, hlone, hprev, heq⟩
    rw [if_neg hps] at hprev
    have hbrk : c.heap.brk = b.heap.brk := clearLoop_brk (b := { b with map := fun _ => none, pCurrent := b.pHead }) hc
    have htag : c.pTag = b.pTag := (congrArg ExpireBuffer.pTag heq :)
    have htail : c.pTail = b.pTail := (congrArg ExpireBuffer.pTail heq :)
    have hzero : c.count = 0 := (congrArg ExpireBuffer.count heq :)
    have hmap : c.map = fun _ => none := (congrArg ExpireBuffer.map heq :)
    have hmax : c.countMax = b.countMax := (congrArg ExpireBuffer.countMax heq :)
    have hdestroy : c.destroyOld = b.destroyOld := (congrArg ExpireBuffer.destroyOld heq :)
    have hliving : c.livingTime = b.livingTime := (congrArg ExpireBuffer.livingTime heq :)
    have hstart : c.pHead = b.pTag := (congrArg ExpireBuffer.pHead heq :)
    have hlast : b.pTail ≠ b.pTag := by
      rw [tail_of_straight hr hps]
      exact last_ne_tag hr hps
    have hold : b.heap.read b.pTail ≠ none := by
      rw [tail_of_straight hr hps]
      exact last_live hr
    refine ⟨hmax, hdestroy, hliving, hzero, htail, htag, b.pTail, ⟨⟨[], ?_⟩, ?_, ?_, ?_⟩, fun _ => rfl⟩
    · refine ⟨⟨by simp, ?_, ?_⟩, ?_, rfl, ?_, ?_, ?_, hzero, hmax, hdestroy, hliving⟩
      · rw [next_straight]
        exact htag ▸ hloop
      · have hself : (straight b.pTail c).heap.links Enty.prev c.pTag = some c.pTag := by
          rw [prevs_straight, htag, hprev, Option.map_some, if_neg hlast.symm]
        exact ⟨rfl, c.pTag, hself, rfl⟩
      · intro p hp
        rw [next_straight] at hp
        exact List.mem_singleton.mpr ((hlone p hp).trans htag.symm)
      · intro key p
        change c.map key = some p ↔ _
        simp [hmap]
      · exact hstart.trans htag.symm
      · change (if c.pTail = b.pTail then c.pTag else c.pTail) = c.pTag
        rw [if_pos htail]
    · by_contra hdead
      refine hlast (hlone b.pTail fun hn => hdead ?_)
      exact Option.map_eq_none_iff.mp hn
    · rw [hbrk]
      by_contra hge
      exact hold (b.heap.bound _ (not_lt.mp hge))
    · rw [htag, hprev, ne_eq, Option.some.injEq]
      exact hlast.symm

omit [DecidableEq K] in
lemma Looks.stale (hl : Looks b b') (h : Stale w b m) : Stale w b' m := by
  obtain ⟨ps, hr⟩ := h.models
  have at_cursor (x : ℕ) : Stale w { b with pCurrent := x } m := ⟨⟨ps, atCursor hr x⟩, h.dead, h.old, h.tag⟩
  cases hl with
  | stays => exact h
  | front => exact at_cursor _
  | back => exact at_cursor _
  | next _ => exact at_cursor _
  | prev _ => exact at_cursor _

lemma exec_stale (h : Stale w b m) {x : Ret K V} (hx : b.exec o = some (x, b')) : ∃ w m, Stale w b' m := by
  rcases h.cases with hb | hm
  · by_cases ho : m.Touches o
    · rw [exec_touches h hb ho] at hx
      cases hx
    obtain ⟨⟨r, c⟩, hc, hcode, hm⟩ := exec_spared h ho
    obtain ⟨rfl, rfl⟩ := Prod.mk.inj (Option.some.inj (hx.symm.trans hc))
    by_cases hrep : m.Repairs o
    · exact ⟨0, _, stale_of_models (exec_repairs h hb hrep hx hcode hm)⟩
    · exact ⟨w, _, (exec_keeps h hb ho hrep hx hcode hm).1⟩
  · obtain ⟨⟨r, c⟩, hc, -, hm'⟩ := exec_spec hm o
    obtain ⟨rfl, rfl⟩ := Prod.mk.inj (Option.some.inj (hx.symm.trans hc))
    exact ⟨0, _, stale_of_models hm'⟩

lemma call_stale (k : Call K V) {x : Ret K V} (h : ∃ w m, Stale w b m) (hx : b.call k = some (x, b')) :
    ∃ w m, Stale w b' m := by
  obtain ⟨w, m, h⟩ := h
  have look (hl : Looks b b') : ∃ w m, Stale w b' m := ⟨w, m, hl.stale h⟩
  obtain ⟨ps, hr⟩ := h.models
  cases k with
  | op o => exact exec_stale h hx
  | front => exact look (front_looks hx)
  | back => exact look (back_looks hx)
  | next => exact look (moved_looks (fun _ _ => next_looks) hx)
  | prev => exact look (moved_looks (fun _ _ => prev_looks) hx)
  | nextOut => exact look (nextOut_looks hx)
  | prevOut => exact look (prevOut_looks hx)
  | frontOld t now => exact look (frontOld_looks hx)
  | clear =>
    obtain ⟨c, hc, -, -, -, -, -, -, w', hw, -⟩ := clear_spec h
    obtain ⟨c', hc', heq⟩ := Option.map_eq_some_iff.mp hx
    cases heq
    obtain rfl := Option.some.inj (hc.symm.trans hc')
    exact ⟨w', _, hw⟩
  | setMaxCount n =>
    cases hx
    refine ⟨w, { m with countMax := n }, ⟨ps, ?_⟩, h.dead, h.old, h.tag⟩
    exact ⟨hr.ring, hr.live, hr.values, hr.map, hr.head, hr.tail, hr.count, rfl, hr.destroyOld, hr.livingTime⟩
  | setLivingTime n =>
    cases hx
    refine ⟨w, { m with livingTime := n }, ⟨ps, ?_⟩, h.dead, h.old, h.tag⟩
    exact ⟨hr.ring, hr.live, hr.values, hr.map, hr.head, hr.tail, hr.count, hr.countMax, hr.destroyOld, rfl⟩
  | setDestroyPolicy d =>
    cases hx
    refine ⟨w, { m with destroyOld := d }, ⟨ps, ?_⟩, h.dead, h.old, h.tag⟩
    exact ⟨hr.ring, hr.live, hr.values, hr.map, hr.head, hr.tail, hr.count, hr.countMax, rfl, hr.livingTime⟩

def Resets (b : ExpireBuffer K V) (os : List (Op K V)) : Prop :=
  ∃ c rs c' f', b.clear = some c ∧ runCalls exec c os = some (rs, c') ∧
    runCalls exec (new b.countMax b.destroyOld b.livingTime) os = some (rs, f')

/-- `clear` does not reset `m_pTail`: the next entry links back to the deleted one. -/
theorem clear_resets_iff {maxCount : ℕ} {destroyOld : Bool} {livingTime : ℕ} {ks : List (Call K V)}
    {rs : List (Ret K V)} (hreach : runCalls call (new maxCount destroyOld livingTime) ks = some (rs, b))
    (os : List (Op K V)) :
    Resets b os ↔ b.pTail = b.pTag ∨ ExpireMap.Spared (.new b.countMax b.destroyOld b.livingTime) os := by
  obtain ⟨w, m, h⟩ := runCalls_keeps (fun b => ∃ w m, Stale w b m) (fun _ k _ _ h hx => call_stale k h hx)
    ⟨0, _, stale_of_models (new_models maxCount destroyOld livingTime)⟩ hreach
  obtain ⟨c, hc, -, -, -, hzero, htail, htag, w', hw, hlast⟩ := clear_spec h
  obtain ⟨⟨rs₀, f⟩, hf, hrs₀, -⟩ := runCalls_refines Models (fun _ _ o h => exec_spec h o)
    (new_models b.countMax b.destroyOld b.livingTime) os
  have resets (hrun : Returns (runCalls exec c os) fun (rs, _) =>
      rs = (runSteps ExpireMap.step (.new b.countMax b.destroyOld b.livingTime) os).1) : Resets b os := by
    obtain ⟨⟨rs₁, c'⟩, h₁, hrs₁⟩ := hrun
    exact ⟨c, rs₀, c', f, hc, by rw [h₁, hrs₁, hrs₀], hf⟩
  by_cases hempty : b.pTail = b.pTag
  · refine iff_of_true (resets ?_) (Or.inl hempty)
    have hm : Models c (.new b.countMax b.destroyOld b.livingTime) := by
      refine hw.cases.resolve_left fun hb => ?_
      obtain ⟨ps, hr⟩ := hw.models
      rw [Bends, if_pos hzero, htail, hempty, ← htag] at hb
      exact live_ne hw.dead (tag_live hr) hb
    exact (runCalls_refines Models (fun _ _ o h => exec_spec h o) hm os).mono fun _ hrs => hrs.1
  · have hb : Bends w' c := by
      rw [Bends, if_pos hzero, htail, hlast hempty]
    obtain ⟨hgood, hbad⟩ := runCalls_stale hw hb os
    rw [or_iff_right hempty]
    constructor
    · rintro ⟨c₁, rs₁, c', f', hc₁, hrun, -⟩
      obtain rfl := Option.some.inj (hc.symm.trans hc₁)
      by_contra hs
      rw [hbad hs] at hrun
      cases hrun
    · exact fun hs => resets (hgood hs)

theorem clear_resets_iff_pushed : ∃ b : ExpireBuffer ℕ ℕ,
    runCalls call (new 0 false 10) [.op (.push 1 10 0)] = some ([⟨1, none, none⟩], b) ∧
      (Resets b [.push 2 20 0, .find 2] ↔ b.pTail = b.pTag ∨
        ExpireMap.Spared (.new b.countMax b.destroyOld b.livingTime) [.push 2 20 0, .find 2]) := by
  obtain ⟨b, hb⟩ : ∃ b : ExpireBuffer ℕ ℕ,
      runCalls call (new 0 false 10) [.op (.push 1 10 0)] = some ([⟨1, none, none⟩], b) := ⟨_, rfl⟩
  exact ⟨b, hb, clear_resets_iff hb _⟩

theorem clear_dangles : ¬∀ (ks : List (Call ℕ ℕ)) (rs : List (Ret ℕ ℕ)) (b : ExpireBuffer ℕ ℕ) (os : List (Op ℕ ℕ)),
    runCalls call (new 0 false 10) ks = some (rs, b) → Resets b os := by
  intro hall
  obtain ⟨c, rs, c', f', hc, hrun, -⟩ := hall [.op (.push 1 10 0)] _ _ [.push 2 20 0, .popBack] rfl
  cases hc
  exact absurd hrun (by rintro ⟨⟩)

end Keyed

end ExpireBuffer

end Xframe.Comserv
