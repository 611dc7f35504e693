import Xframe.Comserv.ExpireClear

/-! What each operation of an expiring buffer does to the back links: which cells it writes, and through
which back links it goes. -/

namespace Xframe.Comserv

open Xframe.Lib

variable {K V : Type}

namespace ExpireBuffer

def prevs (b : ExpireBuffer K V) : ℕ → Option ℕ := b.heap.links Enty.prev

variable {b b' c : ExpireBuffer K V} {p q w : ℕ} {ps : List ℕ} {m : ExpireMap K V}

lemma setNext_prevs (h : b.setNext p q = some b') : b'.prevs = b.prevs ∧ b'.heap.brk = b.heap.brk := by
  obtain ⟨hp, hm, rfl⟩ := Option.map_eq_some_iff.mp h
  obtain ⟨e, he, -⟩ := Option.map_eq_some_iff.mp hm
  obtain ⟨hp', hm', hc, hbrk⟩ := Heap.modify_spec he fun e => { e with next := q }
  obtain rfl := Option.some.inj (hm'.symm.trans hm)
  exact ⟨Heap.links_same he hc rfl, hbrk⟩

lemma setValue_prevs {v : ExpireValue K V} (h : b.setValue p v = some b') :
    b'.prevs = b.prevs ∧ b'.heap.brk = b.heap.brk := by
  obtain ⟨hp, hm, rfl⟩ := Option.map_eq_some_iff.mp h
  obtain ⟨e, he, -⟩ := Option.map_eq_some_iff.mp hm
  obtain ⟨hp', hm', hc, hbrk⟩ := Heap.modify_spec he fun e => { e with value := some v }
  obtain rfl := Option.some.inj (hm'.symm.trans hm)
  exact ⟨Heap.links_same he hc rfl, hbrk⟩

lemma setPrev_prevs (h : b.setPrev p q = some b') :
    b'.prevs = Function.update b.prevs p (some q) ∧ b'.heap.brk = b.heap.brk := by
  obtain ⟨hp, hm, rfl⟩ := Option.map_eq_some_iff.mp h
  obtain ⟨e, he, -⟩ := Option.map_eq_some_iff.mp hm
  obtain ⟨hp', hm', hc, hbrk⟩ := Heap.modify_spec he fun e => { e with prev := q }
  obtain rfl := Option.some.inj (hm'.symm.trans hm)
  exact ⟨Heap.links_update hc _, hbrk⟩

lemma delete_prevs (h : b.delete p = some b') :
    b'.prevs = Function.update b.prevs p none ∧ b'.heap.brk = b.heap.brk := by
  obtain ⟨hp, hm, rfl⟩ := Option.map_eq_some_iff.mp h
  obtain ⟨e, he, -⟩ := Option.map_eq_some_iff.mp hm
  obtain ⟨hp', hm', hc, hbrk⟩ := Heap.free_spec he
  obtain rfl := Option.some.inj (hm'.symm.trans hm)
  exact ⟨Heap.links_free hc _, hbrk⟩

lemma prevs_eq_none {x : ℕ} : b.prevs x = none ↔ b.heap.read x = none := Option.map_eq_none_iff

lemma prevs_of_read {x : ℕ} {e : Enty K V} (h : b.heap.read x = some e) : b.prevs x = some e.prev :=
  congrArg (Option.map Enty.prev) h

lemma read_of_modify {f : Enty K V → Enty K V} {hp : Heap (Enty K V)} (hm : b.heap.modify p f = some hp) :
    b.heap.read p ≠ none := by
  obtain ⟨e, he, -⟩ := Option.map_eq_some_iff.mp hm
  rw [Heap.read, he]
  exact Option.some_ne_none e

lemma read_of_setNext (h : b.setNext p q = some b') : b.heap.read p ≠ none := by
  obtain ⟨hp, hm, -⟩ := Option.map_eq_some_iff.mp h
  exact read_of_modify hm

lemma read_of_setPrev (h : b.setPrev p q = some b') : b.heap.read p ≠ none := by
  obtain ⟨hp, hm, -⟩ := Option.map_eq_some_iff.mp h
  exact read_of_modify hm

section Keyed

variable [DecidableEq K]

lemma popFront_prevs {r : Bool} (h : b.popFront = some (r, b')) (hcount : 0 < b.count) :
    r = true ∧ ∃ e, b.heap.read b.pHead = some e ∧ b.heap.read e.next ≠ none ∧
      b'.prevs = Function.update (Function.update b.prevs e.next (some b.pTag)) b.pHead none ∧
      b'.heap.brk = b.heap.brk ∧ b'.pHead = e.next ∧ (b'.count = 0 → b'.pTail = b.pTag) := by
  rw [popFront, if_pos hcount] at h
  simp only [Option.bind_eq_bind, Option.bind_eq_some_iff] at h
  obtain ⟨e, he, b₁, h₁, b₂, h₂, v, -, b₃, h₃, h⟩ := h
  obtain ⟨p₁, k₁⟩ : b₁.prevs = Function.update b.prevs e.next (some b.pTag) ∧ b₁.heap.brk = b.heap.brk :=
    setPrev_prevs (b := { b with pCurrent := e.next }) h₁
  obtain ⟨p₂, k₂⟩ := setNext_prevs h₂
  obtain ⟨p₃, k₃⟩ := delete_prevs h₃
  have w₁ := setPrev_rewrites (b := { b with pCurrent := e.next }) h₁
  have w₂ := setNext_rewrites h₂
  have hhead : b₂.pHead = b.pHead := w₂.head.trans w₁.head
  have hcur : b₂.pCurrent = e.next := w₂.current.trans w₁.current
  have htag : b₂.pTag = b.pTag := w₂.tag.trans w₁.tag
  have hprevs : b₃.prevs = Function.update (Function.update b.prevs e.next (some b.pTag)) b.pHead none := by
    rw [p₃, ← p₁, ← p₂, ← hhead]
    rfl
  have hbrk : b₃.heap.brk = b.heap.brk := k₃.trans (k₂.trans k₁)
  obtain ⟨hp, -, rfl⟩ := Option.map_eq_some_iff.mp h₃
  cases h
  refine ⟨rfl, e, he, read_of_setPrev (b := { b with pCurrent := e.next }) h₁, ?_, ?_, ?_, ?_⟩
  · split
    · exact hprevs
    · exact hprevs
  · split
    · exact hbrk
    · exact hbrk
  · split
    · exact hcur
    · exact hcur
  · split
    · exact fun _ => htag
    · next hne => exact fun h0 => absurd h0 hne

lemma popBack_prevs {r : Bool} (h : b.popBack = some (r, b')) (hcount : 0 < b.count) :
    ∃ e, b.heap.read b.pTail = some e ∧ b.heap.read e.prev ≠ none ∧
      b'.prevs = Function.update (Function.update b.prevs b.pTag (some e.prev)) b.pTail none ∧
      b'.heap.brk = b.heap.brk ∧ b'.pTag = b.pTag := by
  rw [popBack, if_pos hcount] at h
  simp only [Option.bind_eq_bind, Option.bind_eq_some_iff] at h
  obtain ⟨e, he, b₁, h₁, b₂, h₂, v, -, b₃, h₃, h⟩ := h
  obtain ⟨p₁, k₁⟩ : b₁.prevs = b.prevs ∧ b₁.heap.brk = b.heap.brk :=
    setNext_prevs (b := { b with pCurrent := e.prev }) h₁
  obtain ⟨p₂, k₂⟩ := setPrev_prevs h₂
  obtain ⟨p₃, k₃⟩ := delete_prevs h₃
  have w₁ := setNext_rewrites (b := { b with pCurrent := e.prev }) h₁
  have w₂ := setPrev_rewrites h₂
  have htail : b₂.pTail = b.pTail := w₂.tail.trans w₁.tail
  have hprevs : b₃.prevs = Function.update (Function.update b.prevs b.pTag (some e.prev)) b.pTail none := by
    rw [← p₁, ← htail, p₃]
    change Function.update b₂.prevs _ _ = _
    rw [p₂, w₁.tag, w₁.current]
    rfl
  have hbrk : b₃.heap.brk = b.heap.brk := k₃.trans (k₂.trans k₁)
  have htag : b₃.pTag = b.pTag := by
    obtain ⟨hp, -, rfl⟩ := Option.map_eq_some_iff.mp h₃
    exact w₂.tag.trans w₁.tag
  refine ⟨e, he, read_of_setNext (b := { b with pCurrent := e.prev }) h₁, ?_, ?_, ?_⟩
  · cases h
    split
    · exact hprevs
    · exact hprevs
  · cases h
    split
    · exact hbrk
    · exact hbrk
  · cases h
    split
    · exact htag
    · exact htag

omit [DecidableEq K] in
lemma moveToTail_prevs (h : b.moveToTail = some b') : b'.heap.brk = b.heap.brk ∧ b'.pTag = b.pTag ∧
    (b.pCurrent = b.pTail ∧ b'.prevs = b.prevs ∨ b.pCurrent ≠ b.pTail ∧ ∃ e, b.heap.read b.pCurrent = some e ∧
      b.heap.read e.prev ≠ none ∧ b'.prevs = Function.update (Function.update (Function.update b.prevs
        e.next (some e.prev)) b.pTag (some b.pCurrent)) b.pCurrent (some b.pTail)) := by
  rw [moveToTail] at h
  split at h
  · next heq =>
    cases h
    exact ⟨rfl, rfl, Or.inl ⟨heq, rfl⟩⟩
  · next hne =>
    simp only [Option.bind_eq_bind, Option.bind_eq_some_iff] at h
    obtain ⟨e, he, b₁, h₁, b₂, h₂, b₃, h₃, b₄, h₄, b₅, h₅, b₆, h₆, h⟩ := h
    obtain ⟨p₁, k₁⟩ := setNext_prevs h₁
    obtain ⟨p₂, k₂⟩ := setPrev_prevs h₂
    obtain ⟨p₃, k₃⟩ : b₃.prevs = b₂.prevs ∧ b₃.heap.brk = b₂.heap.brk :=
      setNext_prevs (b := { b₂ with pHead := if b₂.pCurrent = b₂.pHead then e.next else b₂.pHead }) h₃
    obtain ⟨p₄, k₄⟩ := setPrev_prevs h₄
    obtain ⟨p₅, k₅⟩ := setNext_prevs h₅
    obtain ⟨p₆, k₆⟩ := setPrev_prevs h₆
    have w₁ := setNext_rewrites h₁
    have w₂ := setPrev_rewrites h₂
    have w₃ := setNext_rewrites (b := { b₂ with pHead := if b₂.pCurrent = b₂.pHead then e.next else b₂.pHead }) h₃
    have w₄ := setPrev_rewrites h₄
    have w₅ := setNext_rewrites h₅
    have hcur : b₃.pCurrent = b.pCurrent := w₃.current.trans (w₂.current.trans w₁.current)
    have htag : b₃.pTag = b.pTag := w₃.tag.trans (w₂.tag.trans w₁.tag)
    have htail : b₃.pTail = b.pTail := w₃.tail.trans (w₂.tail.trans w₁.tail)
    rw [w₅.current, w₄.current, w₅.tail, w₄.tail, hcur, htail, p₅, p₄, htag, hcur, p₃, p₂, p₁] at p₆
    have hlast : b₆.pTag = b.pTag := (setPrev_rewrites h₆).tag.trans (w₅.tag.trans (w₄.tag.trans htag))
    cases h
    exact ⟨k₆.trans (k₅.trans (k₄.trans (k₃.trans (k₂.trans k₁)))), hlast,
      Or.inr ⟨hne, e, he, read_of_setNext h₁, p₆⟩⟩

omit [DecidableEq K] in
lemma refresh_prevs {v : ExpireValue K V} (h₁ : setValue { b with pCurrent := p } p v = some b')
    (h₂ : b'.moveToTail = some c) : c.heap.brk = b.heap.brk ∧ c.pTag = b.pTag ∧
      (p = b.pTail ∧ c.prevs = b.prevs ∨ p ≠ b.pTail ∧ ∃ e : Enty K V, b.prevs p = some e.prev ∧
        b.heap.links Enty.next p = some e.next ∧ b.heap.read e.prev ≠ none ∧
        c.prevs = Function.update (Function.update (Function.update b.prevs
          e.next (some e.prev)) b.pTag (some p)) p (some b.pTail)) := by
  obtain ⟨p₁, k₁⟩ : b'.prevs = b.prevs ∧ b'.heap.brk = b.heap.brk :=
    setValue_prevs (b := { b with pCurrent := p }) h₁
  obtain ⟨hp, hm, rfl⟩ := Option.map_eq_some_iff.mp h₁
  obtain ⟨e, he, -⟩ := Option.map_eq_some_iff.mp hm
  obtain ⟨hp', hm', hc, -⟩ := Heap.modify_spec he fun e => { e with value := some v }
  obtain rfl := Option.some.inj (hm'.symm.trans hm)
  have hnext : hp'.links Enty.next = b.heap.links Enty.next := Heap.links_same he hc rfl
  obtain ⟨k₂, t₂, ⟨heq, p₂⟩ | ⟨hne, e', he', hprev, p₂⟩⟩ := moveToTail_prevs h₂
  · exact ⟨k₂.trans k₁, t₂, Or.inl ⟨heq, p₂.trans p₁⟩⟩
  · refine ⟨k₂.trans k₁, t₂, Or.inr ⟨hne, e', ?_, ?_, ?_, ?_⟩⟩
    · rw [← p₁]
      exact prevs_of_read he'
    · rw [← hnext]
      exact congrArg (Option.map Enty.next) he'
    · rw [ne_eq, ← prevs_eq_none] at hprev ⊢
      rwa [p₁] at hprev
    · rw [p₂, p₁]

omit [DecidableEq K] in
lemma popTail_prevs {pPrev pNext : ℕ} (h : b.popTail pPrev pNext = some b') :
    b'.prevs = (if pNext = b.pTag then Function.update b.prevs b.pTag (some pPrev) else b.prevs) ∧
      b'.heap.brk = b.heap.brk ∧ b'.pTag = b.pTag ∧ ∀ x, b'.heap.read x = none ↔ b.heap.read x = none := by
  rw [popTail] at h
  split at h
  · next hc =>
    obtain ⟨b₁, h₁, h⟩ := Option.bind_eq_some_iff.mp h
    obtain ⟨p₁, k₁⟩ := setPrev_prevs h₁
    have w₁ := setPrev_rewrites h₁
    cases h
    rw [if_pos hc]
    exact ⟨p₁, k₁, w₁.tag, w₁.live⟩
  · next hc =>
    cases h
    rw [if_neg hc]
    exact ⟨rfl, rfl, rfl, fun _ => Iff.rfl⟩

omit [DecidableEq K] in
lemma popHead_prevs {pPrev pNext : ℕ} (h : b.popHead pPrev pNext = some b') :
    b'.prevs = b.prevs ∧ b'.heap.brk = b.heap.brk ∧ b'.pTag = b.pTag ∧
      ∀ x, b'.heap.read x = none ↔ b.heap.read x = none := by
  rw [popHead] at h
  split at h
  · obtain ⟨b₁, h₁, h⟩ := Option.bind_eq_some_iff.mp h
    obtain ⟨p₁, k₁⟩ := setNext_prevs h₁
    have w₁ := setNext_rewrites h₁
    cases h
    exact ⟨p₁, k₁, w₁.tag, w₁.live⟩
  · cases h
    exact ⟨rfl, rfl, rfl, fun _ => Iff.rfl⟩

lemma pop_prevs {key : K} {r : Ret K V} (h : b.pop key = some (r, b')) (hcount : b.count ≠ 0)
    (hk : b.map key = some p) (hp : p ≠ 0) : ∃ e, b.heap.read p = some e ∧ b.heap.read e.prev ≠ none ∧
      b'.prevs = Function.update (Function.update b.prevs p none) e.next (some e.prev) ∧
      b'.heap.brk = b.heap.brk ∧ b'.pTag = b.pTag := by
  rw [pop, if_neg hcount, hk] at h
  obtain ⟨p, rfl⟩ := Nat.exists_eq_succ_of_ne_zero hp
  simp only [Nat.succ_eq_add_one, Option.bind_eq_bind, Option.bind_eq_some_iff] at h
  obtain ⟨v, -, e, he, b₁, h₁, b₂, h₂, b₃, h₃, b₄, h₄, b₅, h₅, h⟩ := h
  obtain ⟨p₁, k₁⟩ : b₁.prevs = Function.update b.prevs (p + 1) none ∧ b₁.heap.brk = b.heap.brk :=
    delete_prevs (b := { b with count := b.count - 1 }) h₁
  obtain ⟨p₂, k₂, t₂, l₂⟩ := popTail_prevs h₂
  obtain ⟨p₃, k₃, t₃, l₃⟩ := popHead_prevs h₃
  obtain ⟨p₄, k₄⟩ := setNext_prevs h₄
  obtain ⟨p₅, k₅⟩ := setPrev_prevs h₅
  have hlive : b₁.heap.read e.prev ≠ none := fun hn => read_of_setNext h₄ ((l₃ _).mpr ((l₂ _).mpr hn))
  have hold : b.heap.read e.prev ≠ none := by
    intro hn
    rw [← prevs_eq_none] at hn
    refine hlive (prevs_eq_none.mp ?_)
    rw [p₁]
    by_cases hx : e.prev = p + 1
    · rw [hx, Function.update_self]
    · rw [Function.update_of_ne hx, hn]
  have htag₁ : b₁.pTag = b.pTag := by
    obtain ⟨hp, -, rfl⟩ := Option.map_eq_some_iff.mp h₁
    rfl
  have htag : b₅.pTag = b.pTag :=
    (setPrev_rewrites h₅).tag.trans ((setNext_rewrites h₄).tag.trans (t₃.trans (t₂.trans htag₁)))
  have hprevs : b₅.prevs = Function.update (Function.update b.prevs (p + 1) none) e.next (some e.prev) := by
    rw [p₅, p₄, p₃, p₂, p₁]
    split
    · next hc => rw [← hc, Function.update_idem]
    · rfl
  have hbrk : b₅.heap.brk = b.heap.brk := k₅.trans (k₄.trans (k₃.trans (k₂.trans k₁)))
  cases h
  exact ⟨e, he, hold, hprevs, hbrk, htag⟩

omit [DecidableEq K] in
lemma pushTail_prevs (h : b.pushTail p = some b') : b'.prevs = b.prevs ∧ b'.heap.brk = b.heap.brk := by
  rw [pushTail] at h
  split at h
  · exact setNext_prevs (b := { b with pHead := p, pTail := p }) h
  · obtain ⟨b₁, h₁, h⟩ := Option.bind_eq_some_iff.mp h
    have hs := setNext_prevs h₁
    cases h
    exact hs

lemma push_prevs {key : K} {value : V} {now : ℤ} {r : ℕ} (h : b.push key value now = some (r, b')) :
    r = 0 ∧ b' = b ∨ ∃ c : ExpireBuffer K V,
      c.prevs = Function.update (Function.update b.prevs b.heap.brk (some b.pTail)) b.pTag (some b.heap.brk) ∧
      c.heap.brk = b.heap.brk + 1 ∧ c.pTag = b.pTag ∧
      (r = 1 ∧ b' = c ∨ r = 2 ∧ 0 < c.count ∧ ∃ d, c.popFront = some (d, b')) := by
  rw [push] at h
  split_ifs at h
  · cases h
    exact Or.inl ⟨rfl, rfl⟩
  · cases h
    exact Or.inl ⟨rfl, rfl⟩
  right
  dsimp only at h
  set b₀ : ExpireBuffer K V := { b with
    heap := (b.heap.alloc ⟨some (.new key value now), b.pTail, b.pTag⟩).2, pCurrent := b.heap.brk
    map := Function.update b.map key (some b.heap.brk) } with hb₀
  have hprevs₀ : b₀.prevs = Function.update b.prevs b.heap.brk (some b.pTail) := by
    funext x
    by_cases hx : x = b.heap.brk
    · simp [prevs, hb₀, Heap.links, Heap.alloc, hx]
    · simp [prevs, hb₀, Heap.links, Heap.alloc, hx]
  obtain ⟨b₁, h₁, h⟩ := Option.bind_eq_some_iff.mp h
  change b₀.pushTail b.heap.brk = some b₁ at h₁
  obtain ⟨b₂, h₂, h⟩ := Option.bind_eq_some_iff.mp h
  obtain ⟨p₁, k₁⟩ := pushTail_prevs h₁
  obtain ⟨p₂, k₂⟩ := setPrev_prevs h₂
  have htag : b₁.pTag = b.pTag := pushTail_tag (b := b₀) h₁
  have w₂ := setPrev_rewrites h₂
  refine ⟨{ b₂ with count := b₂.count + 1 }, ?_, ?_, w₂.tag.trans htag, ?_⟩
  · change b₂.prevs = _
    rw [p₂, p₁, hprevs₀, htag, (pushTail_current (b := b₀) h₁).2]
  · exact k₂.trans k₁
  · split at h
    · obtain ⟨⟨d, b₃⟩, h₃, h⟩ := Option.bind_eq_some_iff.mp h
      cases h
      exact Or.inr ⟨rfl, Nat.succ_pos _, d, h₃⟩
    · cases h
      exact Or.inl ⟨rfl, rfl⟩

end Keyed

end ExpireBuffer

end Xframe.Comserv
