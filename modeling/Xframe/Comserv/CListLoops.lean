import Xframe.Comserv.CListRefines

/-! The member functions of `CList` that walk the ring: `_addr`, `contain`, `remove(value)`,
`insertSort` and `operator=`. Each loop ends, and follows the sequence. -/

namespace Xframe.Comserv.CList

open Xframe.Lib

variable {V : Type} {b v : CList V} {s t : CursorSeq V} {l r : List (ℕ × V)} {x : ℕ × V}

lemma addrFrom_eq (hl : Linked b.heap b.pTag (l ++ r)) (k : ℕ) :
    b.addrFrom k (headAddr b.pTag r) = some (headAddr b.pTag (r.drop k)) := by
  induction k generalizing l r with
  | zero => rfl
  | succ k ih =>
    rw [addrFrom]
    cases r with
    | nil => simp
    | cons x r =>
      have hl' : Linked b.heap b.pTag ((l ++ [x]) ++ r) := by simpa using hl
      rw [headAddr_cons, if_pos ⟨hl.ne_tag, hl.ne_zero⟩, hl.read]
      exact ih hl'

lemma addr_refines (h : b.Represents s) (pos : ℤ) :
    Returns (b.addr pos) fun (r, b') => r = (s.seek pos).1 ∧ b'.Represents (s.seek pos).2 := by
  have hc := h.count
  rw [addr, CursorSeq.seek]
  by_cases hp : 0 ≤ pos ∧ pos < s.items.length
  · have he := addrFrom_eq (l := []) (r := s.items) h.linked pos.toNat
    rw [← h.head] at he
    rw [if_neg (by omega), if_neg (by omega), if_pos hp]
    refine Returns.of_bind he ((returns_some _ _).mpr ⟨rfl, h.move ?_ rfl rfl⟩)
    exact List.take_append_drop _ _
  · rw [if_neg hp]
    split
    · exact (returns_some _ _).mpr ⟨rfl, h⟩
    · rw [if_pos (by omega)]
      exact (returns_some _ _).mpr ⟨rfl, h⟩

lemma resetPos_refines (h : b.Represents s) (index : ℤ) :
    Returns (b.resetPos index) fun (r, b') =>
      r = (if 0 ≤ index ∧ index ≤ s.items.length then some (s.seek index).1 else none) ∧
        b'.Represents (s.seek index).2 := by
  rw [resetPos, h.count]
  split
  · refine (addr_refines h index).bind fun (r, b') ⟨hr, hb⟩ => ?_
    exact (returns_some _ _).mpr ⟨congrArg some hr, hb⟩
  · refine (returns_some _ _).mpr ⟨rfl, ?_⟩
    rw [CursorSeq.seek, if_neg (by omega)]
    exact h

lemma seek_here {pos : ℤ} (hs : (s.seek pos).1 = true) : ∃ x r, (s.seek pos).2.after = x :: r := by
  rw [CursorSeq.seek] at hs ⊢
  split at hs
  · rename_i hp
    rw [if_pos hp]
    exact List.exists_cons_of_length_pos (by rw [List.length_drop]; omega)
  · simp at hs

lemma seek_fails {pos : ℤ} (hs : ¬(s.seek pos).1) : (s.seek pos).2 = s := by
  rw [CursorSeq.seek] at hs ⊢
  split
  · rename_i hp
    simp [hp] at hs
  · rfl

lemma set_refines (h : b.Represents s) (pos : ℤ) (value : V) :
    Returns (b.set pos value) fun (r, b') => r = (s.seek pos).1 ∧
      b'.Represents (if (s.seek pos).1 then (s.seek pos).2.put value else s) := by
  rw [set]
  refine (addr_refines h pos).bind fun (r, b') ⟨hr, hb⟩ => ?_
  dsimp only
  by_cases hs : (s.seek pos).1
  · obtain ⟨x, r, ha⟩ := seek_here hs
    have hi := items_of_after_cons ha
    have hl := hb.linked_at hi
    rw [hr, if_pos hs, if_pos hs, current_of_after_cons hb ha]
    refine (Fields.self b'.heap).setValue hl.defined_at fun h1 s1 => ?_
    rw [returns_some, CursorSeq.put, ha]
    refine ⟨hs.symm, ?_⟩
    refine ⟨hl.assign s1, ?_, ?_, rfl, ?_, s1.brk.trans hb.fresh⟩
    · rw [hb.head, hi]
      simp [headAddr, CursorSeq.items]
    · rw [hb.tail, hi]
      simp [lastAddr, CursorSeq.items]
    · rw [hb.count, hi]
      simp [CursorSeq.items]
  · rw [seek_fails hs] at hb
    rw [hr, if_neg hs, if_neg hs, returns_some]
    exact ⟨by simpa using hs, hb⟩

section Compare

variable (cmp : Compare V) (value : V)

lemma deref_refines (h : b.Represents s) {ref : Ref V} {v : V} (hv : s.deref ref = some v) : b.deref ref = some v := by
  cases ref with
  | outside w => exact hv
  | node p =>
    obtain ⟨l, r, hi, -⟩ := List.lookup_eq_some_iff.mp hv
    exact h.linked.values (p, v) (hi ▸ List.mem_append_right l List.mem_cons_self)

lemma containFrom_refines {ref : Ref V} {fuel : ℕ} (h : b.Represents s) (hv : b.deref ref = some value)
    (hf : s.after.length < fuel) :
    Returns (b.containFrom cmp ref fuel) fun (r, b') =>
      r = (s.contain cmp value).1 ∧ b'.Represents (s.contain cmp value).2 := by
  induction fuel generalizing b s with
  | zero => omega
  | succ fuel ih =>
    rw [containFrom]
    cases ha : s.after with
    | nil =>
      rw [if_neg (by simp [current_of_after_nil h ha]), returns_some, CursorSeq.contain_nil cmp value ha]
      exact ⟨rfl, h⟩
    | cons x r =>
      have hl := h.linked_at (items_of_after_cons ha)
      have hz : b.pCurrent ≠ 0 := by rw [current_of_after_cons h ha]; exact hl.ne_zero
      rw [if_pos ⟨current_ne_tag h ha, hz⟩]
      refine Returns.of_bind (read_current h ha) (Returns.of_bind hv ?_)
      dsimp only
      by_cases he : cmp.eq x.2 value
      · rw [if_pos he, returns_some, CursorSeq.contain_hit cmp value ha he]
        exact ⟨rfl, h⟩
      · rw [if_neg he, CursorSeq.contain_skip cmp value ha he]
        refine ih (h.move ?_ rfl rfl) hv ?_
        · simp [CursorSeq.items, ha]
        · rw [ha, List.length_cons] at hf
          exact Nat.lt_of_succ_lt_succ hf

lemma contain_refines {ref : Ref V} (h : b.Represents s) (hv : b.deref ref = some value) :
    Returns (b.contain cmp ref) fun (r, b') =>
      r = (s.contain cmp value).1 ∧ b'.Represents (s.contain cmp value).2 := by
  refine containFrom_refines cmp value h hv ?_
  rw [h.count, CursorSeq.items, List.length_append]
  omega

section Removal

variable {cmp value} {ref : Ref V} {fuel i n p : ℕ} {b' : CList V} {l r : List (ℕ × V)} {x : ℕ × V}

lemma popFront_frees (hc : 0 < b.count) (hp : b.popFront = some (n, b')) : b'.heap.read b.pHead = none := by
  rw [popFront, if_pos hc] at hp
  obtain ⟨head, -, hp⟩ := Option.bind_eq_some_iff.mp hp
  obtain ⟨h₁, -, hp⟩ := Option.bind_eq_some_iff.mp hp
  obtain ⟨h₂, -, hp⟩ := Option.bind_eq_some_iff.mp hp
  obtain ⟨h₃, hfree, hp⟩ := Option.bind_eq_some_iff.mp hp
  obtain ⟨-, rfl⟩ := Prod.mk.inj (Option.some.inj hp)
  exact (Heap.read_free hfree _).trans (if_pos rfl)

lemma popBack_frees (hc : 0 < b.count) (hp : b.popBack = some (n, b')) : b'.heap.read b.pTail = none := by
  rw [popBack, if_pos hc] at hp
  obtain ⟨tail, -, hp⟩ := Option.bind_eq_some_iff.mp hp
  obtain ⟨h₁, -, hp⟩ := Option.bind_eq_some_iff.mp hp
  obtain ⟨h₂, -, hp⟩ := Option.bind_eq_some_iff.mp hp
  obtain ⟨h₃, hfree, hp⟩ := Option.bind_eq_some_iff.mp hp
  obtain ⟨-, rfl⟩ := Prod.mk.inj (Option.some.inj hp)
  exact (Heap.read_free hfree _).trans (if_pos rfl)

lemma popCurrent_frees (h : b.Represents s) (ha : s.after = x :: r) (hp : b.popCurrent = some (n, b')) :
    b'.heap.read x.1 = none := by
  have hi := items_of_after_cons ha
  have hl := h.linked_at hi
  have hc : 0 < b.count := by
    rw [h.length_eq hi]
    omega
  rw [popCurrent, if_neg (by rw [not_or]; exact ⟨hc.ne', current_ne_tag h ha⟩)] at hp
  obtain ⟨e, he, hp⟩ := Option.bind_eq_some_iff.mp hp
  cases (read_current h ha).symm.trans he
  dsimp only at hp
  split_ifs at hp with hnext hprev
  · have hl' : Linked b.heap b.pTag ((s.before ++ [x]) ++ r) := by simpa using hl
    obtain rfl := hl'.head_eq_tag.mp hnext
    have htail : b.pTail = x.1 := by rw [h.tail, hi, lastAddr_snoc]
    exact htail ▸ popBack_frees hc hp
  · have hbefore := hl.last_eq_tag.mp hprev
    have hhead : b.pHead = x.1 := by
      rw [h.head, hi, hbefore]
      rfl
    exact hhead ▸ popFront_frees hc hp
  · obtain ⟨h₁, hfree, hp⟩ := Option.bind_eq_some_iff.mp hp
    obtain ⟨h₂, hset, hp⟩ := Option.bind_eq_some_iff.mp hp
    obtain ⟨h₃, hset', hp⟩ := Option.bind_eq_some_iff.mp hp
    obtain ⟨-, rfl⟩ := Prod.mk.inj (Option.some.inj hp)
    apply Heap.read_modify_none hset' (Heap.read_modify_none hset _)
    rw [Heap.read_free hfree, if_pos (current_of_after_cons h ha).symm]

lemma removeFrom_step (fuel : ℕ) (h : b.Represents s) (hb : s.before = []) (hv : b.deref ref = some value)
    (hc : (s.contain cmp value).1) : ∃ l x r b', s.items = l ++ x :: r ∧ (∀ y ∈ l, ¬cmp.eq y.2 value) ∧ cmp.eq x.2 value ∧
      removeFrom cmp ref (fuel + 1) i b = removeFrom cmp ref fuel (i + 1) b' ∧
      b'.Represents ⟨[], l ++ r, s.fresh⟩ ∧ b'.heap.read x.1 = none := by
  have hi : s.items = s.after := by rw [CursorSeq.items, hb, List.nil_append]
  obtain ⟨⟨c, b₁⟩, hcontain, hr, h₁⟩ := contain_refines cmp value h hv
  obtain ⟨l, x, r, ha, hx, hs⟩ := CursorSeq.contain_true cmp hc
  have hfirst : ∀ y ∈ l, ¬cmp.eq y.2 value := by
    have hbefore : s.before ++ s.after.takeWhile (fun y => !cmp.eq y.2 value) = s.before ++ l :=
      congrArg CursorSeq.before hs
    intro y hy
    have hmem : y ∈ s.after.takeWhile fun y => !cmp.eq y.2 value := List.append_cancel_left hbefore ▸ hy
    simpa using List.mem_takeWhile_imp hmem
  rw [hs] at h₁
  obtain ⟨⟨n, b₂⟩, hpop, -, h₂⟩ := popCurrent_refines h₁
  have hfreed : b₂.heap.read x.1 = none := popCurrent_frees h₁ rfl hpop
  refine ⟨l, x, r, b₂.reset, hi.trans ha, hfirst, hx, ?_, ?_, hfreed⟩
  · rw [removeFrom, hcontain, hr, hc]
    change (b₁.popCurrent >>= fun r => removeFrom cmp ref fuel (i + 1) r.2.reset) = _
    rw [hpop]
    rfl
  · have h₃ := reset_refines h₂
    have hitems : (CursorSeq.popCurrent ⟨s.before ++ l, x :: r, s.fresh⟩).2.items = l ++ r := by
      rw [CursorSeq.popCurrent_items, hb]
      rfl
    rw [CursorSeq.toFirst, hitems, CursorSeq.popCurrent_fresh] at h₃
    exact h₃

lemma removeFrom_stop (h : b.Represents s) (hb : s.before = []) (hv : b.deref ref = some value)
    (hc : ¬(s.contain cmp value).1) : Returns (removeFrom cmp ref (fuel + 1) i b) fun (n, b') =>
      n = i + (s.remove cmp value).1 ∧ b'.Represents (s.remove cmp value).2 := by
  have hi : s.items = s.after := by rw [CursorSeq.items, hb, List.nil_append]
  rw [removeFrom]
  refine (contain_refines cmp value h hv).bind ?_
  rintro ⟨c, b₁⟩ ⟨hr, h₁⟩
  dsimp only at hr h₁ ⊢
  obtain ⟨hall, hs⟩ := CursorSeq.contain_false cmp hc
  rw [hs] at h₁
  rw [hr, if_neg hc, returns_some, CursorSeq.remove, hi]
  have h0 : s.after.countP (fun x => cmp.eq x.2 value) = 0 := List.countP_eq_zero.mpr hall
  have h2 : s.after.filter (fun x => !cmp.eq x.2 value) = s.after :=
    List.filter_eq_self.mpr fun x hx => by simpa using hall x hx
  rw [h0, h2]
  rw [CursorSeq.off, hi] at h₁
  exact ⟨rfl, h₁⟩

lemma remove_cons (hi : s.items = l ++ x :: r) (hx : cmp.eq x.2 value) :
    s.remove cmp value = ((CursorSeq.remove cmp ⟨[], l ++ r, s.fresh⟩ value).1 + 1,
      (CursorSeq.remove cmp ⟨[], l ++ r, s.fresh⟩ value).2) := by
  rw [CursorSeq.remove, CursorSeq.remove, hi]
  simp [CursorSeq.items, List.countP_append, List.filter_append, hx, Nat.add_assoc]

def Stays (cmp : Compare V) (items : List (ℕ × V)) (value : V) : Ref V → Prop
  | .outside v => v = value
  | .node p => (p, value) ∈ items ∧ ¬cmp.eq value value

lemma Stays.deref (h : b.Represents s) (hstays : Stays cmp s.items value ref) : b.deref ref = some value := by
  cases ref with
  | outside v => exact congrArg some hstays
  | node p => exact h.linked.values (p, value) hstays.1

lemma removeFrom_refines (h : b.Represents s) (hb : s.before = []) (hstays : Stays cmp s.items value ref)
    (hf : s.items.length < fuel) :
    Returns (removeFrom cmp ref fuel i b) fun (n, b') =>
      n = i + (s.remove cmp value).1 ∧ b'.Represents (s.remove cmp value).2 := by
  induction fuel generalizing b s i with
  | zero => omega
  | succ fuel ih =>
    have hv := hstays.deref h
    by_cases hc : (s.contain cmp value).1
    · obtain ⟨l, x, r, b', hi, -, hx, hstep, h', -⟩ := removeFrom_step fuel (i := i) h hb hv hc
      have hstays' : Stays cmp (l ++ r) value ref := by
        cases ref with
        | outside v => exact hstays
        | node p =>
          refine ⟨?_, hstays.2⟩
          have hmem := hstays.1
          rw [hi, List.mem_append, List.mem_cons] at hmem
          rcases hmem with hmem | rfl | hmem
          · exact List.mem_append_left _ hmem
          · exact absurd hx hstays.2
          · exact List.mem_append_right _ hmem
      rw [hstep, remove_cons hi hx]
      rw [hi, List.length_append, List.length_cons] at hf
      refine (ih h' rfl hstays' (by simp [CursorSeq.items]; omega)).mono ?_
      rintro ⟨n, b''⟩ ⟨hn, h''⟩
      exact ⟨by rw [hn]; omega, h''⟩
    · exact removeFrom_stop h hb hv hc

lemma split_first {P : ℕ × V → Prop} {y : ℕ × V} {l' r' : List (ℕ × V)} (hi : l ++ y :: r = l' ++ x :: r')
    (hfirst : ∀ z ∈ l', ¬P z) (hy : P y) :
    (l = l' ∧ y = x ∧ r = r') ∨ ∃ k, l = l' ++ x :: k ∧ r' = k ++ y :: r := by
  rcases List.append_eq_append_iff.mp hi with ⟨k, rfl, hk⟩ | ⟨k, rfl, hk⟩
  · cases k with
    | nil =>
      obtain ⟨rfl, rfl⟩ := List.cons.inj hk
      exact Or.inl ⟨(List.append_nil l).symm, rfl, rfl⟩
    | cons z k =>
      obtain ⟨rfl, -⟩ := List.cons.inj hk
      exact absurd hy (hfirst y (by simp))
  · cases k with
    | nil =>
      obtain ⟨rfl, rfl⟩ := List.cons.inj hk
      exact Or.inl ⟨List.append_nil l', rfl, rfl⟩
    | cons z k =>
      obtain ⟨rfl, rfl⟩ := List.cons.inj hk
      exact Or.inr ⟨k, rfl, rfl⟩

lemma contain_self (hb : s.before = []) (hi : s.items = l ++ (p, value) :: r) (hv : cmp.eq value value) :
    (s.contain cmp value).1 := by
  refine List.any_eq_true.mpr ⟨(p, value), ?_, hv⟩
  rw [← List.nil_append s.after, ← hb, ← CursorSeq.items, hi]
  simp

lemma removeFrom_dangling (h : b.Represents s) (hb : s.before = []) (hi : s.items = l ++ (p, value) :: r)
    (hv : cmp.eq value value) (hd : ¬(r = [] ∧ ∀ y ∈ l, cmp.eq y.2 value)) (hf : s.items.length < fuel) :
    removeFrom cmp (.node p) fuel i b = none := by
  induction fuel generalizing b s i l with
  | zero => omega
  | succ fuel ih =>
    have hread : b.deref (.node p) = some value := h.linked.values (p, value) (by simp [hi])
    obtain ⟨l', x, r', b', hi', hfirst, hx, hstep, h', hfreed⟩ :=
      removeFrom_step fuel (i := i) h hb hread (contain_self hb hi hv)
    rw [hstep]
    rw [hi] at hi' hf
    rw [List.length_append, List.length_cons] at hf
    rcases split_first hi' hfirst hv with ⟨rfl, rfl, rfl⟩ | ⟨k, rfl, rfl⟩
    · have hne : l ++ r ≠ [] := by
        rintro hnil
        obtain ⟨rfl, rfl⟩ := List.append_eq_nil_iff.mp hnil
        exact hd ⟨rfl, fun y hy => absurd hy List.not_mem_nil⟩
      obtain ⟨y, k, hlr⟩ := List.exists_cons_of_ne_nil hne
      have hlen := congrArg List.length hlr
      rw [List.length_append, List.length_cons] at hlen
      obtain ⟨fuel, rfl⟩ : ∃ n, fuel = n + 1 := ⟨fuel - 1, by omega⟩
      rw [hlr] at h'
      have hz : b'.pCurrent ≠ 0 := by
        rw [current_of_after_cons h' rfl]
        exact (h'.linked_at (l := []) rfl).ne_zero
      have hlost : b'.deref (.node p) = none := by rw [deref, valueAt, hfreed, Option.map_none]
      rw [removeFrom, contain, containFrom, if_pos ⟨current_ne_tag h' rfl, hz⟩, read_current h' rfl, hlost]
      rfl
    · refine ih (l := l' ++ k) h' rfl (by simp [CursorSeq.items]) ?_ ?_
      · rintro ⟨rfl, hall⟩
        refine hd ⟨rfl, fun y hy => ?_⟩
        rw [List.mem_append, List.mem_cons] at hy
        rcases hy with hy | rfl | hy
        · exact hall y (List.mem_append_left k hy)
        · exact hx
        · exact hall y (List.mem_append_right l' hy)
      · simp [CursorSeq.items] at hf ⊢
        omega

lemma removeFrom_last (h : b.Represents s) (hb : s.before = []) (hi : s.items = l ++ [(p, value)])
    (hv : cmp.eq value value) (hall : ∀ y ∈ l, cmp.eq y.2 value) (hf : s.items.length < fuel) :
    Returns (removeFrom cmp (.node p) fuel i b) fun (n, b') =>
      n = i + (s.remove cmp value).1 ∧ b'.Represents (s.remove cmp value).2 := by
  induction fuel generalizing b s i l with
  | zero => omega
  | succ fuel ih =>
    have hread : b.deref (.node p) = some value := h.linked.values (p, value) (by simp [hi])
    obtain ⟨l', x, r', b', hi', hfirst, hx, hstep, h', -⟩ :=
      removeFrom_step fuel (i := i) h hb hread (contain_self hb hi hv)
    rw [hstep, remove_cons hi' hx]
    rw [hi] at hi' hf
    rw [List.length_append, List.length_singleton] at hf
    rcases split_first hi' hfirst hv with ⟨rfl, rfl, rfl⟩ | ⟨k, rfl, rfl⟩
    · have hnil : l = [] := List.eq_nil_iff_forall_not_mem.mpr fun y hy => hfirst y hy (hall y hy)
      subst hnil
      obtain ⟨fuel, rfl⟩ : ∃ n, fuel = n + 1 := ⟨fuel - 1, by simp at hf; omega⟩
      have hend : b'.pCurrent = b'.pTag := current_of_after_nil h' rfl
      rw [removeFrom, contain, containFrom, if_neg (by simp [hend])]
      exact (returns_some _ _).mpr ⟨by simp [CursorSeq.remove, CursorSeq.items], h'⟩
    · have hall' : ∀ y ∈ l' ++ k, cmp.eq y.2 value := fun y hy => hall y <| by
        rcases List.mem_append.mp hy with hy | hy
        · exact List.mem_append_left _ hy
        · exact List.mem_append_right _ (List.mem_cons_of_mem x hy)
      refine (ih (l := l' ++ k) h' rfl (by simp [CursorSeq.items]) hall' ?_).mono ?_
      · simp [CursorSeq.items] at hf ⊢
        omega
      · rintro ⟨n, b''⟩ ⟨hn, h''⟩
        exact ⟨by rw [hn]; omega, h''⟩

end Removal

section Remove

variable {ref : Ref V}

lemma remove_refines (h : b.Represents s) (hv : s.deref ref = some value) (hd : ¬s.Dangles cmp ref) :
    Returns (b.remove cmp ref) fun (n, b') =>
      n = (s.remove cmp value).1 ∧ b'.Represents (s.remove cmp value).2 := by
  have h₁ := reset_refines h
  have hf : s.toFirst.items.length < b.count + 1 := by
    rw [h.count]
    exact Nat.lt_succ_self _
  rw [remove]
  suffices hrun : Returns (removeFrom cmp ref (b.count + 1) 0 b.reset) fun (n, b') =>
      n = 0 + (s.toFirst.remove cmp value).1 ∧ b'.Represents (s.toFirst.remove cmp value).2 by
    exact hrun.mono fun _ ⟨hn, h'⟩ => ⟨hn.trans (Nat.zero_add _), h'⟩
  cases ref with
  | outside w => exact removeFrom_refines h₁ rfl (Option.some.inj hv) hf
  | node p =>
    obtain ⟨l, r, hi, -⟩ := List.lookup_eq_some_iff.mp hv
    by_cases he : cmp.eq value value
    · obtain ⟨rfl, hall⟩ : r = [] ∧ ∀ y ∈ l, cmp.eq y.2 value := by
        by_contra hno
        exact hd ⟨l, p, value, r, rfl, hi, he, hno⟩
      exact removeFrom_last h₁ rfl hi he hall hf
    · exact removeFrom_refines h₁ rfl ⟨by simp [hi], he⟩ hf

lemma remove_dangling (h : b.Represents s) (hd : s.Dangles cmp ref) : b.remove cmp ref = none := by
  obtain ⟨l, p, v, r, rfl, hi, hv, hno⟩ := hd
  refine removeFrom_dangling (reset_refines h) rfl hi hv hno ?_
  rw [h.count]
  exact Nat.lt_succ_self _

end Remove

lemma sortFrom_refines {mode : ℤ} {fuel : ℕ} (h : b.Represents s) (hf : s.after.length < fuel) :
    Returns (sortFrom cmp value mode fuel b) fun b' => b'.Represents
      ⟨s.before ++ s.after.takeWhile (CursorSeq.passes cmp value mode),
        s.after.dropWhile (CursorSeq.passes cmp value mode), s.fresh⟩ := by
  induction fuel generalizing b s with
  | zero => omega
  | succ fuel ih =>
    rw [sortFrom]
    obtain ⟨before, after, fresh⟩ := s
    cases after with
    | nil =>
      rw [if_neg (by simp [current_of_after_nil h rfl]), returns_some]
      simpa using h
    | cons x r =>
      rw [if_pos (current_ne_tag h rfl)]
      refine Returns.of_bind (read_current h rfl) ?_
      dsimp only
      change Returns (if CursorSeq.passes cmp value mode x then _ else _) _
      by_cases hx : CursorSeq.passes cmp value mode x
      · rw [if_pos hx, List.takeWhile_cons_of_pos hx, List.dropWhile_cons_of_pos hx]
        refine (ih (s := ⟨before ++ [x], r, fresh⟩) (h.move ?_ rfl rfl) ?_).mono ?_
        · simp [CursorSeq.items]
        · exact Nat.lt_of_succ_lt_succ hf
        · intro b' hb
          simpa using hb
      · rw [if_neg hx, returns_some, List.takeWhile_cons_of_neg hx, List.dropWhile_cons_of_neg hx,
          List.append_nil]
        exact h

lemma insertSort_refines (h : b.Represents s) (mode : ℤ) :
    Returns (b.insertSort cmp value mode) fun (n, b') =>
      n = (s.insertSort cmp value mode).items.length ∧ b'.Represents (s.insertSort cmp value mode) := by
  have hc := h.count
  rw [insertSort]
  refine (sortFrom_refines cmp value (reset_refines h) (by simp [CursorSeq.toFirst]; omega)).bind ?_
  intro b1 h1
  change b1.Represents ⟨s.items.takeWhile _, s.items.dropWhile _, s.fresh⟩ at h1
  rw [CursorSeq.insertSort]
  generalize s.items.takeWhile (CursorSeq.passes cmp value mode) = l at h1 ⊢
  generalize s.items.dropWhile (CursorSeq.passes cmp value mode) = r at h1 ⊢
  by_cases hl : l = []
  · rw [if_pos (h1.head_iff.mpr hl), hl]
    rw [hl] at h1
    exact pushFrontR_refines h1 value
  rw [if_neg (mt h1.head_iff.mp hl)]
  cases r with
  | nil =>
    rw [if_pos (current_of_after_nil h1 rfl)]
    refine (pushBackR_refines h1 value).mono ?_
    rintro ⟨n, b2⟩ ⟨hn, h2⟩
    have hi : CursorSeq.items ⟨l, [], s.fresh⟩ = l := List.append_nil l
    rw [CursorSeq.pushBack, hi] at hn h2
    exact ⟨hn, h2⟩
  | cons x r =>
    rw [if_neg (current_ne_tag h1 rfl)]
    refine Returns.of_bind (read_current h1 rfl) ?_
    have hcurrent : headAddr b1.pTag (x :: r) = b1.pCurrent := h1.current.symm
    have hlink := linkBetween_refines (l := l) (r := x :: r) h1 rfl hl (List.cons_ne_nil x r) value
    rw [hcurrent] at hlink
    refine hlink.mono ?_
    rintro ⟨n, b2⟩ ⟨hn, h2⟩
    refine ⟨?_, h2⟩
    rw [hn]
    simp [CursorSeq.items]
    omega

end Compare

lemma removeByHandle_refines (h : b.Represents s) {handle : ℕ}
    (hh : handle = 0 ∨ handle ∈ s.items.map Prod.fst) :
    Returns (b.removeByHandle handle) fun b' => b'.Represents (s.removeByHandle handle) := by
  rw [removeByHandle, CursorSeq.removeByHandle]
  by_cases h0 : handle = 0
  · rw [if_pos h0, if_pos h0, returns_some]
    exact h
  · rw [if_neg h0, if_neg h0]
    obtain ⟨x, hx, rfl⟩ := List.mem_map.mp (hh.resolve_left h0)
    obtain ⟨l, r, hi⟩ := List.append_of_mem hx
    have hl := h.linked_at hi
    have hm : Represents { b with pCurrent := x.1 } ⟨l, x :: r, s.fresh⟩ := h.move hi.symm rfl rfl
    refine (popCurrent_refines hm).bind fun (n, b') ⟨_, hb⟩ => ?_
    rw [returns_some]
    have hfilter : s.items.filter (fun y => y.1 ≠ x.1) = l ++ r := by
      rw [hi, List.filter_append, List.filter_cons_of_neg (by simp), ← List.filter_append]
      exact List.filter_eq_self.mpr fun y hy => by simpa using hl.other_ne hy
    have hr := reset_refines hb
    rw [CursorSeq.toFirst, CursorSeq.popCurrent_items] at hr
    rw [hfilter]
    simpa using hr

lemma assignFrom_refines {fuel f : ℕ} (h : b.Represents s) (hv : v.Represents ⟨l, x :: r, f⟩)
    (hf : r.length < fuel) :
    Returns (assignFrom fuel b v) fun (b', v') =>
      b'.Represents ((r.map Prod.snd).foldl CursorSeq.pushBack s) ∧
        v'.Represents (CursorSeq.toLast ⟨l, x :: r, f⟩) := by
  induction fuel generalizing b v s l x r with
  | zero => omega
  | succ fuel ih =>
    rw [assignFrom]
    refine (next_refines hv).bind ?_
    rintro ⟨ok, v1⟩ ⟨hok, h1⟩
    cases r with
    | nil =>
      obtain rfl : ok = false := hok
      have hlast : CursorSeq.toLast ⟨l, [x], f⟩ = ⟨l, [x], f⟩ := by
        simp [CursorSeq.toLast, CursorSeq.items]
      rw [hlast]
      exact (returns_some _ _).mpr ⟨h, h1⟩
    | cons y r =>
      obtain rfl : ok = true := hok
      refine Returns.of_bind (valueAt_current h1 rfl) ?_
      refine (pushBackR_refines h y.2).bind ?_
      rintro ⟨n, b1⟩ ⟨_, h2⟩
      refine (ih h2 h1 (Nat.lt_of_succ_lt_succ hf)).mono ?_
      rintro ⟨b2, v2⟩ ⟨h3, h4⟩
      refine ⟨h3, ?_⟩
      rwa [CursorSeq.toLast_congr (s := ⟨l, x :: y :: r, f⟩) (t := ⟨l ++ [x], y :: r, f⟩)
        (by simp [CursorSeq.items]) rfl]

lemma assign_refines (h : b.Represents s) (hv : v.Represents t) :
    Returns (assign b v) fun (b', v') =>
      b'.Represents (s.assign t).1 ∧ v'.Represents (s.assign t).2 := by
  rw [assign]
  refine (clear_refines h).bind fun b1 h1 => ?_
  rw [assignFrom]
  refine (next_refines (resetD_refines hv)).bind ?_
  rintro ⟨ok, v1⟩ ⟨hok, h2⟩
  rw [CursorSeq.assign, CursorSeq.values]
  have hn : t.off.next = (!t.items.isEmpty, ⟨[], t.items, t.fresh⟩) := by
    simp [CursorSeq.next, CursorSeq.off, CursorSeq.toFirst, CursorSeq.items]
  rw [hn] at hok h2
  cases hi : t.items with
  | nil =>
    rw [hi] at hok h2
    obtain rfl : ok = false := hok
    refine (returns_some _ _).mpr ⟨h1, ?_⟩
    rw [CursorSeq.toLast, hi]
    exact h2
  | cons x r =>
    rw [hi] at hok h2
    obtain rfl : ok = true := hok
    refine Returns.of_bind (valueAt_current h2 rfl) ?_
    refine (pushBackR_refines h1 x.2).bind ?_
    rintro ⟨n, b2⟩ ⟨_, h3⟩
    refine (assignFrom_refines h3 h2 ?_).mono ?_
    · rw [hv.count, hi]
      exact Nat.lt_succ_self _
    · rintro ⟨b3, v3⟩ ⟨h4, h5⟩
      refine ⟨h4, ?_⟩
      rwa [CursorSeq.toLast_congr (t := ⟨[], x :: r, t.fresh⟩) hi rfl]

end Xframe.Comserv.CList
