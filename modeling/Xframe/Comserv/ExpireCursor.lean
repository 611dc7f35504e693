import Xframe.Comserv.ExpireCalls

/-! Where the cursor of an expiring buffer is left: on the sentinel or on an entry that is still there,
except by a `pop` of the entry at the cursor from the middle of the list. -/

namespace Xframe.Comserv

open Xframe.Lib

variable {K V : Type}

namespace ExpireBuffer

def CursorLive (b : ExpireBuffer K V) : Prop := b.pCurrent = b.pTag ∨ (b.entry b.pCurrent).isSome

/-- The call is a `pop` of the entry at the cursor, which is neither the first nor the last. -/
def CutsCursor (b : ExpireBuffer K V) : Call K V → Prop
  | .op (.pop key) => b.map key = some b.pCurrent ∧ b.pCurrent ≠ b.pHead ∧ b.pCurrent ≠ b.pTail
  | _ => False

variable {b b' : ExpireBuffer K V} {ps : List ℕ} {m : ExpireMap K V} {p q : ℕ}

lemma cursorLive_iff (h : Rep b ps m) : b.CursorLive ↔ b.pCurrent ∈ b.pTag :: ps := by
  rw [CursorLive, List.mem_cons]
  constructor
  · rintro (ht | hv)
    · exact Or.inl ht
    · refine List.mem_cons.mp ((mem_iff_live h).mpr fun hnone => ?_)
      rw [entry, hnone] at hv
      simp at hv
  · rintro (ht | hp)
    · exact Or.inl ht
    · obtain ⟨v, hv, -⟩ := (wellFormed h).keyed _ hp
      exact Or.inr (by rw [hv]; rfl)

lemma cursor_of_ends (h : Rep b ps m) (hc : b.pCurrent = b.pHead ∨ b.pCurrent = b.pTail) :
    b.pCurrent ∈ b.pTag :: ps := by
  rcases hc with hc | hc
  · exact hc ▸ head_mem h
  · exact hc ▸ tail_mem h

structure Rewrites (b b' : ExpireBuffer K V) : Prop where
  tag : b'.pTag = b.pTag
  current : b'.pCurrent = b.pCurrent
  head : b'.pHead = b.pHead
  tail : b'.pTail = b.pTail
  count : b'.count = b.count
  live : ∀ x, b'.heap.read x = none ↔ b.heap.read x = none

lemma modify_live {ν : Type} {h h' : Heap ν} {f : ν → ν} (hm : h.modify p f = some h') (x : ℕ) :
    h'.read x = none ↔ h.read x = none := by
  obtain ⟨v, hv, rfl⟩ := Option.map_eq_some_iff.mp hm
  rw [Heap.read_store hv]
  by_cases hx : x = p
  · rw [if_pos hx, hx, Heap.read, hv]
    simp
  · rw [if_neg hx]

lemma setNext_rewrites (h : b.setNext p q = some b') : Rewrites b b' := by
  obtain ⟨hp, hm, rfl⟩ := Option.map_eq_some_iff.mp h
  exact ⟨rfl, rfl, rfl, rfl, rfl, modify_live hm⟩

lemma setPrev_rewrites (h : b.setPrev p q = some b') : Rewrites b b' := by
  obtain ⟨hp, hm, rfl⟩ := Option.map_eq_some_iff.mp h
  exact ⟨rfl, rfl, rfl, rfl, rfl, modify_live hm⟩

section Keyed

variable [DecidableEq K]

lemma popFront_current {r : Bool} (h : b.popFront = some (r, b')) : b' = b ∨ b'.pCurrent = b'.pHead := by
  rw [popFront] at h
  split at h
  · simp only [Option.bind_eq_bind, Option.bind_eq_some_iff] at h
    obtain ⟨head, -, b₁, -, b₂, -, v, -, b₃, -, h⟩ := h
    cases h
    right
    split <;> rfl
  · cases h
    exact Or.inl rfl

lemma popBack_current {r : Bool} (h : b.popBack = some (r, b')) : b' = b ∨ b'.pCurrent = b'.pTail := by
  rw [popBack] at h
  split at h
  · simp only [Option.bind_eq_bind, Option.bind_eq_some_iff] at h
    obtain ⟨tail, -, b₁, -, b₂, -, v, -, b₃, -, h⟩ := h
    cases h
    right
    split <;> rfl
  · cases h
    exact Or.inl rfl

lemma popFrontOld_current {r : Bool} {t now : ℤ} (h : b.popFrontOld t now = some (r, b')) :
    b' = b ∨ b'.pCurrent = b'.pHead := by
  rw [popFrontOld] at h
  generalize (if t = 0 then now else t) = oldtime at h
  split at h
  · obtain ⟨v, -, hv⟩ := Option.bind_eq_some_iff.mp h
    split at hv
    · exact popFront_current hv
    · cases hv
      exact Or.inl rfl
  · cases h
    exact Or.inl rfl

lemma popOldLoop_current {fuel n k : ℕ} {t now : ℤ} (h : popOldLoop fuel b t now n = some (k, b')) :
    b' = b ∨ b'.pCurrent = b'.pHead := by
  induction fuel generalizing b n with
  | zero => simp [popOldLoop] at h
  | succ fuel ih =>
    obtain ⟨⟨r, b₁⟩, h1, h2⟩ := Option.bind_eq_some_iff.mp h
    dsimp only at h2
    split at h2
    · rcases ih h2 with rfl | hc
      · exact popFrontOld_current h1
      · exact Or.inr hc
    · cases h2
      exact popFrontOld_current h1

omit [DecidableEq K] in
lemma moveToTail_current (h : b.moveToTail = some b') : b'.pCurrent = b'.pTail := by
  rw [moveToTail] at h
  split at h
  · next heq =>
    cases h
    exact heq
  · simp only [Option.bind_eq_bind, Option.bind_eq_some_iff] at h
    obtain ⟨e, -, b₁, -, b₂, -, b₃, -, b₄, -, b₅, -, b₆, -, h⟩ := h
    cases h
    rfl

omit [DecidableEq K] in
lemma pushTail_current (h : b.pushTail p = some b') : b'.pCurrent = b.pCurrent ∧ b'.pTail = p := by
  rw [pushTail] at h
  split at h
  · have hr := setNext_rewrites h
    exact ⟨hr.current, hr.tail⟩
  · obtain ⟨b₁, h1, h2⟩ := Option.bind_eq_some_iff.mp h
    cases h2
    exact ⟨(setNext_rewrites h1).current, rfl⟩

lemma push_current {key : K} {value : V} {now : ℤ} {r : ℕ} (h : b.push key value now = some (r, b')) :
    b' = b ∨ b'.pCurrent = b'.pHead ∨ b'.pCurrent = b'.pTail := by
  rw [push] at h
  split_ifs at h with h1 h2
  · cases h
    exact Or.inl rfl
  · cases h
    exact Or.inl rfl
  · simp only [Option.bind_eq_bind, Option.bind_eq_some_iff] at h
    obtain ⟨b₁, h1, b₂, h2, h⟩ := h
    obtain ⟨hc, ht⟩ := pushTail_current h1
    have hr := setPrev_rewrites h2
    have hend : b₂.pCurrent = b₂.pTail := by
      rw [hr.current, hr.tail, hc, ht]
    split at h
    · obtain ⟨⟨c, b₃⟩, h3, h4⟩ := Option.bind_eq_some_iff.mp h
      cases h4
      rcases popFront_current h3 with rfl | hhead
      · exact Or.inr (Or.inr hend)
      · exact Or.inr (Or.inl hhead)
    · cases h
      exact Or.inr (Or.inr hend)

omit [DecidableEq K] in
lemma popTail_current {pPrev pNext : ℕ} (h : b.popTail pPrev pNext = some b') :
    b'.pTag = b.pTag ∧ b'.pCurrent = (if pNext = b.pTag then pPrev else b.pCurrent) ∧
      ∀ x, b'.heap.read x = none ↔ b.heap.read x = none := by
  rw [popTail] at h
  split at h
  · next heq =>
    obtain ⟨b₁, h1, h2⟩ := Option.bind_eq_some_iff.mp h
    have hr := setPrev_rewrites h1
    cases h2
    exact ⟨hr.tag, (if_pos heq).symm, hr.live⟩
  · next hne =>
    cases h
    exact ⟨rfl, (if_neg hne).symm, fun _ => Iff.rfl⟩

omit [DecidableEq K] in
lemma popHead_current {pPrev pNext : ℕ} (h : b.popHead pPrev pNext = some b') :
    b'.pTag = b.pTag ∧ b'.pCurrent = (if pPrev = b.pTag then pNext else b.pCurrent) ∧
      ∀ x, b'.heap.read x = none ↔ b.heap.read x = none := by
  rw [popHead] at h
  split at h
  · next heq =>
    obtain ⟨b₁, h1, h2⟩ := Option.bind_eq_some_iff.mp h
    have hr := setNext_rewrites h1
    cases h2
    exact ⟨hr.tag, (if_pos heq).symm, hr.live⟩
  · next hne =>
    cases h
    exact ⟨rfl, (if_neg hne).symm, fun _ => Iff.rfl⟩

lemma pop_current {key : K} {r : Ret K V} (h : b.pop key = some (r, b')) (hp : b.map key = some p) (h0 : p ≠ 0)
    (hcount : b.count ≠ 0) : ∃ e, b.heap.read p = some e ∧ b'.pTag = b.pTag ∧
      b'.pCurrent = (if e.prev = b.pTag then e.next else if e.next = b.pTag then e.prev else b.pCurrent) ∧
      ∀ x, b'.heap.read x = none ↔ x = p ∨ b.heap.read x = none := by
  obtain ⟨p, rfl⟩ := Nat.exists_eq_succ_of_ne_zero h0
  rw [pop, if_neg hcount, hp] at h
  simp only [Option.bind_eq_bind, Option.bind_eq_some_iff] at h
  obtain ⟨v, -, e, he, b₁, h1, b₂, h2, b₃, h3, b₄, h4, b₅, h5, h⟩ := h
  cases h
  obtain ⟨h₁, hfree, rfl⟩ := Option.map_eq_some_iff.mp h1
  obtain ⟨ht2, hc2, hl2⟩ := popTail_current h2
  obtain ⟨ht3, hc3, hl3⟩ := popHead_current h3
  have hr4 := setNext_rewrites h4
  have hr5 := setPrev_rewrites h5
  refine ⟨e, he, ?_, ?_, fun x => ?_⟩
  · change b₅.pTag = _
    rw [hr5.tag, hr4.tag, ht3, ht2]
  · change b₅.pCurrent = _
    rw [hr5.current, hr4.current, hc3, ht2, hc2]
  · change b₅.heap.read x = none ↔ _
    rw [hr5.live, hr4.live, hl3, hl2, Heap.read_free hfree]
    by_cases hx : x = p + 1
    · simp [hx]
    · simp [hx]

omit [DecidableEq K] in
lemma live_of_ends (h : Rep b ps m) (hlive : b.CursorLive) {ps' : List ℕ} {m' : ExpireMap K V} (h' : Rep b' ps' m')
    (hc : b' = b ∨ b'.pCurrent = b'.pHead ∨ b'.pCurrent = b'.pTail) : b'.CursorLive := by
  rcases hc with rfl | hc
  · exact hlive
  · exact (cursorLive_iff h').mpr (cursor_of_ends h' hc)

omit [DecidableEq K] in
lemma first_iff {l r : List ℕ} (h : Rep b (l ++ p :: r) m) : p = b.pHead ↔ l = [] := by
  rw [h.head]
  cases l with
  | nil => simp
  | cons y l =>
    have hne : p ≠ y := by
      rintro rfl
      exact h.ring.remove_notMem (by simp)
    simp [hne]

omit [DecidableEq K] in
lemma last_iff {l r : List ℕ} (h : Rep b (l ++ p :: r) m) : p = b.pTail ↔ r = [] := by
  rw [h.tail]
  rcases List.eq_nil_or_concat r with rfl | ⟨r, y, rfl⟩
  · simp [List.getLastD_eq_getLast?]
  · have hne : p ≠ y := by
      rintro rfl
      exact h.ring.remove_notMem (by simp)
    simp [List.getLastD_eq_getLast?, List.getLast?_cons, hne]

lemma pop_cursor (h : Rep b ps m) (hlive : b.CursorLive) {key : K} {r : Ret K V} (hr : b.pop key = some (r, b'))
    {ps' : List ℕ} {m' : ExpireMap K V} (h' : Rep b' ps' m') :
    (¬ CutsCursor b (.op (.pop key)) → b'.CursorLive) ∧ (CutsCursor b (.op (.pop key)) → ¬ b'.CursorLive) := by
  cases hk : b.map key with
  | none =>
    have hsame : b' = b := by
      rw [pop, hk] at hr
      split at hr <;> cases hr <;> rfl
    refine ⟨fun _ => live_of_ends h hlive h' (Or.inl hsame), fun hcut => ?_⟩
    rw [CutsCursor, hk] at hcut
    exact absurd hcut.1 (by simp)
  | some p =>
    obtain ⟨l, s, v, rfl, hv, rfl, -⟩ := h.map_some hk
    have hcount : b.count ≠ 0 := by
      rw [h.count]
      simp
    obtain ⟨e, he, htag, hcur, hread⟩ := pop_current hr hk (h.cell_ne_zero (by simp)) hcount
    have hread' := (Shows.self b.heap).read h.ring.next_at h.ring.prev_at
    obtain rfl := Option.some.inj (he.symm.trans hread')
    simp only [h.ring.getLastD_eq_tag, h.ring.headD_eq_tag] at hcur
    have hin {q : ℕ} (hq : q ∈ b.pTag :: (l ++ p :: s)) (hne : q ≠ p) : q ∈ b'.pTag :: ps' := by
      rw [mem_iff_live h', Ne, hread]
      exact fun hor => hor.elim hne ((mem_iff_live h).mp hq)
    have hfirst := first_iff h
    have hlast := last_iff h
    rw [cursorLive_iff h', CutsCursor, hk, Option.some.injEq, hcur]
    by_cases hl : l = []
    · rw [if_pos hl]
      refine ⟨fun _ => hin ((wellFormed h).links _ _ he).1 h.ring.headD_ne, ?_⟩
      rintro ⟨hp, hne, -⟩
      exact absurd (hp ▸ hfirst.mpr hl) hne
    rw [if_neg hl]
    by_cases hs : s = []
    · rw [if_pos hs]
      refine ⟨fun _ => hin ((wellFormed h).links _ _ he).2 h.ring.getLastD_ne, ?_⟩
      rintro ⟨hp, -, hne⟩
      exact absurd (hp ▸ hlast.mpr hs) hne
    · rw [if_neg hs]
      constructor
      · intro hcut
        refine hin ((cursorLive_iff h).mp hlive) fun hp => hcut ⟨hp.symm, ?_, ?_⟩
        · exact fun hh => hl (hfirst.mp (hp.symm.trans hh))
        · exact fun ht => hs (hlast.mp (hp.symm.trans ht))
      · rintro ⟨hp, -, -⟩ hmem
        rw [← hp, mem_iff_live h'] at hmem
        exact hmem ((hread p).mpr (Or.inl rfl))

lemma find_cursor (h : Rep b ps m) (hlive : b.CursorLive) {key : K} {r : Ret K V} (hr : b.find key = some (r, b')) :
    b'.CursorLive := by
  rw [find] at hr
  split at hr
  · cases hr
    exact hlive
  · cases hk : b.map key with
    | none =>
      rw [hk] at hr
      cases hr
      exact hlive
    | some p =>
      obtain ⟨l, s, v, rfl, hv, rfl, -⟩ := h.map_some hk
      obtain ⟨p, rfl⟩ := Nat.exists_eq_succ_of_ne_zero (h.cell_ne_zero (p := p) (by simp))
      rw [hk] at hr
      obtain ⟨w, hw, hr⟩ := Option.bind_eq_some_iff.mp hr
      cases hr
      exact Or.inr (Option.isSome_iff_exists.mpr ⟨w, hw⟩)

lemma exec_cursor (h : Rep b ps m) (hlive : b.CursorLive) {o : Op K V} {r : Ret K V} (hr : b.exec o = some (r, b'))
    {ps' : List ℕ} {m' : ExpireMap K V} (h' : Rep b' ps' m') :
    (¬ CutsCursor b (.op o) → b'.CursorLive) ∧ (CutsCursor b (.op o) → ¬ b'.CursorLive) := by
  have ends (hc : b' = b ∨ b'.pCurrent = b'.pHead ∨ b'.pCurrent = b'.pTail) := live_of_ends h hlive h' hc
  cases o with
  | push key value now =>
    obtain ⟨⟨k, b₁⟩, h1, h2⟩ := Option.map_eq_some_iff.mp hr
    cases h2
    exact ⟨fun _ => ends (push_current h1), False.elim⟩
  | pushOld key value now =>
    obtain ⟨t, -, h1⟩ := Option.bind_eq_some_iff.mp hr
    obtain ⟨⟨k, b₁⟩, h2, h3⟩ := Option.bind_eq_some_iff.mp h1
    cases h3
    exact ⟨fun _ => ends (push_current h2), False.elim⟩
  | find key => exact ⟨fun _ => find_cursor h hlive hr, False.elim⟩
  | update key refreshtime now =>
    refine ⟨fun _ => ends ?_, False.elim⟩
    rcases update_cases hr with hsame | ⟨p, v, b₁, -, -, hmove⟩
    · exact Or.inl hsame
    · exact Or.inr (Or.inr (moveToTail_current hmove))
  | updateValue key value now =>
    refine ⟨fun _ => ends ?_, False.elim⟩
    rcases updateValue_cases hr with hsame | ⟨p, v, b₁, -, -, hmove⟩
    · exact Or.inl hsame
    · exact Or.inr (Or.inr (moveToTail_current hmove))
  | pop key => exact pop_cursor h hlive hr h'
  | popFront =>
    refine ⟨fun _ => ends ?_, False.elim⟩
    rcases popFrontOut_cases hr with hsame | ⟨d, hpop⟩
    · exact Or.inl hsame
    · exact (popFront_current hpop).imp_right Or.inl
  | popBack =>
    refine ⟨fun _ => ends ?_, False.elim⟩
    rcases popBackOut_cases hr with hsame | ⟨d, hpop⟩
    · exact Or.inl hsame
    · exact (popBack_current hpop).imp_right Or.inr
  | popFrontOld t now =>
    refine ⟨fun _ => ends ?_, False.elim⟩
    rcases popFrontOldOut_cases hr with hsame | ⟨d, hpop⟩
    · exact Or.inl hsame
    · exact (popFrontOld_current hpop).imp_right Or.inl
  | popOld t now =>
    refine ⟨fun _ => ends ?_, False.elim⟩
    obtain ⟨⟨k, b₁⟩, h1, h2⟩ := Option.map_eq_some_iff.mp hr
    cases h2
    rw [popOld] at h1
    split at h1
    · exact (popOldLoop_current h1).imp_right Or.inl
    · cases h1
      exact Or.inl rfl

lemma looks_cursor {c : Call K V} {r : Ret K V} (h : Rep b ps m) (hlive : b.CursorLive) (hl : Looks b b')
    (hr : b.call c = some (r, b')) : Returns (b.call c) fun (_, b') => (∃ m, Models b' m) ∧ b'.CursorLive := by
  rw [hr, returns_some]
  have h' := hl.rep h
  exact ⟨⟨m, ps, h'⟩, (cursorLive_iff h').mpr (hl.cursor h ((cursorLive_iff h).mp hlive))⟩

omit [DecidableEq K] in
lemma next_returns (h : Rep b ps m) (hlive : b.CursorLive) : ∃ r b', b.next = some (r, b') ∧
    (r = true → b'.pCurrent ≠ b'.pTag) := by
  rw [next]
  by_cases hcount : 0 < b.count
  · have hmem := (cursorLive_iff h).mp hlive
    obtain ⟨e, he⟩ := Option.ne_none_iff_exists'.mp ((mem_iff_live h).mp hmem)
    rw [if_pos hcount, if_neg (h.cell_ne_zero hmem), he]
    exact ⟨_, _, rfl, fun hr => of_decide_eq_true hr⟩
  · rw [if_neg hcount]
    exact ⟨_, _, rfl, by simp⟩

omit [DecidableEq K] in
lemma prev_returns (h : Rep b ps m) (hlive : b.CursorLive) : ∃ r b', b.prev = some (r, b') ∧
    (r = true → b'.pCurrent ≠ b'.pTag) := by
  rw [prev]
  by_cases hcount : 0 < b.count
  · have hmem := (cursorLive_iff h).mp hlive
    obtain ⟨e, he⟩ := Option.ne_none_iff_exists'.mp ((mem_iff_live h).mp hmem)
    rw [if_pos hcount, if_neg (h.cell_ne_zero hmem), he]
    exact ⟨_, _, rfl, fun hr => of_decide_eq_true hr⟩
  · rw [if_neg hcount]
    exact ⟨_, _, rfl, by simp⟩

omit [DecidableEq K] in
lemma current_returns (hlive : b.CursorLive) {c : Bool} (hc : c = true → b.pCurrent ≠ b.pTag) :
    ∃ r, b.current c = some (r, b) := by
  rw [current]
  cases c with
  | false => exact ⟨_, rfl⟩
  | true =>
    obtain ⟨v, hv⟩ := Option.isSome_iff_exists.mp (hlive.resolve_left (hc rfl))
    rw [if_pos rfl, hv]
    exact ⟨_, rfl⟩

omit [DecidableEq K] in
lemma head_returns (h : Rep b ps m) (hcount : 0 < b.count) : ∃ v, b.entry b.pHead = some v := by
  rw [h.count, h.length] at hcount
  obtain ⟨v, vs, hm⟩ := List.exists_cons_of_length_pos hcount
  exact ⟨v, (head_entry h hm).2⟩

omit [DecidableEq K] in
lemma tail_returns (h : Rep b ps m) (hcount : 0 < b.count) : ∃ v, b.entry b.pTail = some v := by
  rw [h.count, h.length] at hcount
  rcases List.eq_nil_or_concat m.entries with hm | ⟨vs, v, hm⟩
  · simp [hm] at hcount
  · rw [List.concat_eq_append] at hm
    exact ⟨v, (last_entry h hm).2⟩

lemma call_cursor (h : Rep b ps m) (hlive : b.CursorLive) {c : Call K V} (hc : c ≠ .clear) :
    Returns (b.call c) fun (_, b') => (¬ CutsCursor b c → (∃ m, Models b' m) ∧ b'.CursorLive) ∧
      (CutsCursor b c → ¬ b'.CursorLive) := by
  have looks (hcut : ¬ CutsCursor b c) (hl : ∃ r b', Looks b b' ∧ b.call c = some (r, b')) :
      Returns (b.call c) fun (_, b') => (¬ CutsCursor b c → (∃ m, Models b' m) ∧ b'.CursorLive) ∧
        (CutsCursor b c → ¬ b'.CursorLive) := by
    obtain ⟨r, b', hl, hr⟩ := hl
    exact (looks_cursor h hlive hl hr).mono fun _ hb => ⟨fun _ => hb, fun hn => absurd hn hcut⟩
  cases c with
  | op o =>
    refine (exec_spec ⟨ps, h⟩ o).mono' fun (r, b') hr ⟨_, ps', h'⟩ => ?_
    obtain ⟨hgood, hbad⟩ := exec_cursor h hlive hr h'
    exact ⟨fun hcut => ⟨⟨_, ps', h'⟩, hgood hcut⟩, hbad⟩
  | front =>
    by_cases hcount : 0 < b.count
    · obtain ⟨v, hv⟩ := head_returns h hcount
      have hr : b.front = some (⟨1, some v.key, some v.value⟩, { b with pCurrent := b.pHead }) := by
        rw [front, if_pos hcount]
        exact Option.bind_eq_some_iff.mpr ⟨v, hv, rfl⟩
      exact looks id ⟨_, _, .front, hr⟩
    · exact looks id ⟨_, _, .stays, if_neg hcount⟩
  | back =>
    by_cases hcount : 0 < b.count
    · obtain ⟨v, hv⟩ := tail_returns h hcount
      have hr : b.back = some (⟨1, some v.key, some v.value⟩, { b with pCurrent := b.pTail }) := by
        rw [back, if_pos hcount]
        exact Option.bind_eq_some_iff.mpr ⟨v, hv, rfl⟩
      exact looks id ⟨_, _, .back, hr⟩
    · exact looks id ⟨_, _, .stays, if_neg hcount⟩
  | next =>
    obtain ⟨c, b', hn, -⟩ := next_returns h hlive
    exact looks id ⟨_, b', next_looks hn, by rw [call, hn]; rfl⟩
  | prev =>
    obtain ⟨c, b', hn, -⟩ := prev_returns h hlive
    exact looks id ⟨_, b', prev_looks hn, by rw [call, hn]; rfl⟩
  | nextOut =>
    obtain ⟨c, b', hn, hne⟩ := next_returns h hlive
    have hl := next_looks hn
    have hlive' := (cursorLive_iff (hl.rep h)).mpr (hl.cursor h ((cursorLive_iff h).mp hlive))
    obtain ⟨r, hr⟩ := current_returns hlive' hne
    refine looks id ⟨r, b', hl, ?_⟩
    rw [call, nextOut, hn]
    exact hr
  | prevOut =>
    obtain ⟨c, b', hn, hne⟩ := prev_returns h hlive
    have hl := prev_looks hn
    have hlive' := (cursorLive_iff (hl.rep h)).mpr (hl.cursor h ((cursorLive_iff h).mp hlive))
    obtain ⟨r, hr⟩ := current_returns hlive' hne
    refine looks id ⟨r, b', hl, ?_⟩
    rw [call, prevOut, hn]
    exact hr
  | frontOld t now =>
    have hr : ∃ r b', b.frontOld t now = some (r, b') := by
      rw [frontOld]
      by_cases hcount : 0 < b.count
      · obtain ⟨v, hv⟩ := head_returns h hcount
        rw [if_pos hcount, hv, Option.bind_eq_bind, Option.bind_some]
        generalize (if t = 0 then now else t) = oldtime
        split
        · exact ⟨_, _, rfl⟩
        · exact ⟨_, _, rfl⟩
      · exact ⟨_, _, if_neg hcount⟩
    obtain ⟨r, b', hr⟩ := hr
    exact looks id ⟨r, b', frontOld_looks hr, hr⟩
  | clear => exact absurd rfl hc
  | setMaxCount n =>
    refine (returns_some _ _).mpr ⟨fun _ => ⟨⟨_, (call_models ⟨ps, h⟩ hc rfl).1⟩, hlive⟩, False.elim⟩
  | setLivingTime n =>
    refine (returns_some _ _).mpr ⟨fun _ => ⟨⟨_, (call_models ⟨ps, h⟩ hc rfl).1⟩, hlive⟩, False.elim⟩
  | setDestroyPolicy d =>
    refine (returns_some _ _).mpr ⟨fun _ => ⟨⟨_, (call_models ⟨ps, h⟩ hc rfl).1⟩, hlive⟩, False.elim⟩

lemma new_always_iff (maxCount : ℕ) (destroyOld : Bool) (livingTime : ℕ) {cs : List (Call K V)}
    (hclear : .clear ∉ cs) : Always call CursorLive (new maxCount destroyOld livingTime : ExpireBuffer K V) cs ↔
      Throughout call (fun b c => ¬ CutsCursor b c) (new maxCount destroyOld livingTime) cs := by
  refine always_iff (I := fun b => (∃ m, Models b m) ∧ b.CursorLive) (L := fun c => c ≠ .clear)
    (fun b hb => hb.2) ?_ ⟨⟨_, new_models _ _ _⟩, Or.inl rfl⟩ fun c hc he => hclear (he ▸ hc)
  rintro b c ⟨⟨m, ps, h⟩, hlive⟩ hc
  exact call_cursor h hlive hc

theorem cursor_safe_iff (maxCount : ℕ) (destroyOld : Bool) (livingTime : ℕ) {cs : List (Call K V)}
    (hclear : .clear ∉ cs) : Always call CursorLive (new maxCount destroyOld livingTime : ExpireBuffer K V) cs ↔
      Throughout call (fun b c => ¬ CutsCursor b c) (new maxCount destroyOld livingTime) cs :=
  new_always_iff maxCount destroyOld livingTime hclear

def walkOn : List (Call ℕ ℕ) := [.op (.push 1 10 100), .op (.push 2 20 100), .front, .next]

theorem cursor_safe_iff_walkOn : Always call CursorLive (new 0 false 9 : ExpireBuffer ℕ ℕ) walkOn :=
  (cursor_safe_iff 0 false 9 (by simp [walkOn])).mpr
    ⟨id, fun _ _ _ => ⟨id, fun _ _ _ => ⟨id, fun _ _ _ => ⟨id, fun _ _ _ => trivial⟩⟩⟩⟩

def cutMiddle : List (Call ℕ ℕ) :=
  [.op (.push 1 10 100), .op (.push 2 20 100), .op (.push 3 30 100), .op (.find 2), .op (.pop 2)]

theorem cursor_dangles : ¬ Always call CursorLive (new 0 false 9 : ExpireBuffer ℕ ℕ) cutMiddle ∧
    runCalls call (new 0 false 9 : ExpireBuffer ℕ ℕ) (cutMiddle ++ [.next]) = none := by
  refine ⟨fun h => ?_, rfl⟩
  have hthrough := (new_always_iff 0 false 9 (by simp [cutMiddle])).mp h
  obtain ⟨-, h1⟩ := hthrough
  obtain ⟨-, h2⟩ := h1 _ _ rfl
  obtain ⟨-, h3⟩ := h2 _ _ rfl
  obtain ⟨-, h4⟩ := h3 _ _ rfl
  obtain ⟨h5, -⟩ := h4 _ _ rfl
  exact h5 ⟨rfl, by decide, by decide⟩

end Keyed

end ExpireBuffer

end Xframe.Comserv
