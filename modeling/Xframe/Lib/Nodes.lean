import Xframe.Lib.Heap
import Xframe.Lib.Returns
import Xframe.Lib.Ring

/-! Doubly linked lists of nodes on a heap: a ring of nodes around a sentinel, and what writing a
link, allocating a node and freeing one do to it. -/

namespace Xframe.Lib

structure Node (β : Type) where
  value : β
  prev : ℕ
  next : ℕ

variable {β : Type}

def Heap.setNext (h : Heap (Node β)) (p q : ℕ) : Option (Heap (Node β)) :=
  h.modify p fun e => { e with next := q }

def Heap.setPrev (h : Heap (Node β)) (p q : ℕ) : Option (Heap (Node β)) :=
  h.modify p fun e => { e with prev := q }

def Heap.setValue (h : Heap (Node β)) (p : ℕ) (v : β) : Option (Heap (Node β)) :=
  h.modify p fun e => { e with value := v }

structure Fields (h : Heap (Node β)) (nx pv : ℕ → Option ℕ) (val : ℕ → Option β) (brk : ℕ) : Prop where
  next : h.links Node.next = nx
  prev : h.links Node.prev = pv
  value : ∀ p, (h.cells p).map Node.value = val p
  brk : h.brk = brk

lemma Fields.self (h : Heap (Node β)) :
    Fields h (h.links Node.next) (h.links Node.prev) (fun p => (h.cells p).map Node.value) h.brk :=
  ⟨rfl, rfl, fun _ => rfl, rfl⟩

namespace Fields

variable {h : Heap (Node β)} {nx pv : ℕ → Option ℕ} {val : ℕ → Option β} {p q brk : ℕ}

lemma cell (hs : Fields h nx pv val brk) (hp : nx p ≠ none) : ∃ e, h.cells p = some e := by
  rw [← hs.next, Heap.links] at hp
  cases hc : h.cells p with
  | none => simp [hc] at hp
  | some e => exact ⟨e, rfl⟩

section Rules

variable {γ : Type} {k : Heap (Node β) → Option γ} {P : γ → Prop}

lemma setNext (hs : Fields h nx pv val brk) (hp : nx p ≠ none)
    (hk : ∀ h, Fields h (Function.update nx p (some q)) pv val brk → Returns (k h) P) :
    Returns (h.setNext p q >>= k) P := by
  obtain ⟨e, he⟩ := hs.cell hp
  obtain ⟨h', hh, hc, hb⟩ := Heap.modify_spec he fun e => { e with next := q }
  refine Returns.of_bind hh (hk h' ⟨?_, ?_, ?_, hb.trans hs.brk⟩)
  · rw [Heap.links_update hc, hs.next]
  · rw [Heap.links_same he hc rfl, hs.prev]
  · intro y
    rw [← hs.value, hc]
    by_cases hy : y = p <;> simp [hy, he]

lemma setPrev (hs : Fields h nx pv val brk) (hp : nx p ≠ none)
    (hk : ∀ h, Fields h nx (Function.update pv p (some q)) val brk → Returns (k h) P) :
    Returns (h.setPrev p q >>= k) P := by
  obtain ⟨e, he⟩ := hs.cell hp
  obtain ⟨h', hh, hc, hb⟩ := Heap.modify_spec he fun e => { e with prev := q }
  refine Returns.of_bind hh (hk h' ⟨?_, ?_, ?_, hb.trans hs.brk⟩)
  · rw [Heap.links_same he hc rfl, hs.next]
  · rw [Heap.links_update hc, hs.prev]
  · intro y
    rw [← hs.value, hc]
    by_cases hy : y = p <;> simp [hy, he]

lemma setValue (hs : Fields h nx pv val brk) (hp : nx p ≠ none) {v : β}
    (hk : ∀ h, Fields h nx pv (Function.update val p (some v)) brk → Returns (k h) P) :
    Returns (h.setValue p v >>= k) P := by
  obtain ⟨e, he⟩ := hs.cell hp
  obtain ⟨h', hh, hc, hb⟩ := Heap.modify_spec he fun e => { e with value := v }
  refine Returns.of_bind hh (hk h' ⟨?_, ?_, ?_, hb.trans hs.brk⟩)
  · rw [Heap.links_same he hc rfl, hs.next]
  · rw [Heap.links_same he hc rfl, hs.prev]
  · intro y
    rw [hc]
    by_cases hy : y = p
    · simp [hy]
    · simp [hy, hs.value]

lemma free (hs : Fields h nx pv val brk) (hp : nx p ≠ none)
    (hk : ∀ h, Fields h (Function.update nx p none) (Function.update pv p none)
      (Function.update val p none) brk → Returns (k h) P) :
    Returns (h.free p >>= k) P := by
  obtain ⟨e, he⟩ := hs.cell hp
  obtain ⟨h', hh, hc, hb⟩ := Heap.free_spec he
  refine Returns.of_bind hh (hk h' ⟨?_, ?_, ?_, hb.trans hs.brk⟩)
  · rw [Heap.links_free hc, hs.next]
  · rw [Heap.links_free hc, hs.prev]
  · intro y
    by_cases hy : y = p <;> simp [hc, hy, ← hs.value]

end Rules

lemma alloc (hs : Fields h nx pv val brk) (v : β) (m n : ℕ) :
    ∃ h', h.alloc ⟨v, m, n⟩ = (brk, h') ∧ Fields h' (Function.update nx brk (some n))
      (Function.update pv brk (some m)) (Function.update val brk (some v)) (brk + 1) := by
  obtain rfl := hs.brk
  refine ⟨_, rfl, ?_, ?_, ?_, rfl⟩
  · rw [← hs.next]
    exact Heap.links_update (w := Node.mk v m n) rfl _
  · rw [← hs.prev]
    exact Heap.links_update (w := Node.mk v m n) rfl _
  · intro y
    by_cases hy : y = h.brk <;> simp [hy, ← hs.value]

end Fields

def headAddr (tag : ℕ) (items : List (ℕ × β)) : ℕ := (items.map Prod.fst).headD tag

def lastAddr (tag : ℕ) (items : List (ℕ × β)) : ℕ := (items.map Prod.fst).getLastD tag

@[simp] lemma headAddr_nil (tag : ℕ) : headAddr tag ([] : List (ℕ × β)) = tag := rfl

@[simp] lemma headAddr_cons (tag : ℕ) (x : ℕ × β) (r : List (ℕ × β)) : headAddr tag (x :: r) = x.1 := rfl

@[simp] lemma lastAddr_nil (tag : ℕ) : lastAddr tag ([] : List (ℕ × β)) = tag := rfl

@[simp] lemma lastAddr_snoc (tag : ℕ) (x : ℕ × β) (l : List (ℕ × β)) : lastAddr tag (l ++ [x]) = x.1 := by
  rw [lastAddr, List.map_append]
  exact getLastD_snoc tag x.1 _

lemma headAddr_append (tag : ℕ) (x : ℕ × β) (l r : List (ℕ × β)) :
    headAddr tag (l ++ x :: r) = headAddr x.1 l := by
  cases l <;> rfl

@[simp] lemma lastAddr_cons (tag : ℕ) (x : ℕ × β) (r : List (ℕ × β)) :
    lastAddr tag (x :: r) = lastAddr x.1 r := by
  induction r using List.reverseRecOn with
  | nil => rfl
  | append_singleton r y => rw [← List.cons_append, lastAddr_snoc, lastAddr_snoc]

lemma lastAddr_append (tag : ℕ) (x : ℕ × β) (l r : List (ℕ × β)) :
    lastAddr tag (l ++ x :: r) = lastAddr x.1 r := by
  induction l generalizing tag with
  | nil => exact lastAddr_cons tag x r
  | cons y l ih => rw [List.cons_append, lastAddr_cons, ih]

lemma headAddr_of_ne_nil {l : List (ℕ × β)} (hl : l ≠ []) (a b : ℕ) : headAddr a l = headAddr b l := by
  cases l with
  | nil => exact (hl rfl).elim
  | cons x l => rfl

lemma lastAddr_of_ne_nil {l : List (ℕ × β)} (hl : l ≠ []) (a b : ℕ) : lastAddr a l = lastAddr b l := by
  induction l using List.reverseRecOn with
  | nil => exact (hl rfl).elim
  | append_singleton l x => rw [lastAddr_snoc, lastAddr_snoc]

structure Linked (h : Heap (Node β)) (tag : ℕ) (items : List (ℕ × β)) : Prop where
  ring : Ring (h.links Node.next) (h.links Node.prev) tag (items.map Prod.fst)
  values : ∀ x ∈ items, (h.cells x.1).map Node.value = some x.2

namespace Linked

variable {h h' : Heap (Node β)} {tag : ℕ} {items l r : List (ℕ × β)} {x : ℕ × β}
  {nx pv : ℕ → Option ℕ} {val : ℕ → Option β} {brk : ℕ}

lemma ring_at (hl : Linked h tag (l ++ x :: r)) :
    Ring (h.links Node.next) (h.links Node.prev) tag (l.map Prod.fst ++ x.1 :: r.map Prod.fst) := by
  simpa using hl.ring

lemma read (hl : Linked h tag (l ++ x :: r)) : h.read x.1 = some ⟨x.2, lastAddr tag l, headAddr tag r⟩ := by
  have hn := hl.ring_at.next_at
  have hp := hl.ring_at.prev_at
  have hv := hl.values x (by simp)
  rw [Heap.links] at hn hp
  rw [Heap.read]
  cases hc : h.cells x.1 with
  | none => simp [hc] at hv
  | some e =>
    simp only [hc, Option.map_some, Option.some.injEq] at hn hp hv
    rw [headAddr, lastAddr, ← hn, ← hp, ← hv]

lemma read_tag (hl : Linked h tag items) :
    ∃ v, h.read tag = some ⟨v, lastAddr tag items, headAddr tag items⟩ := by
  have hn := hl.ring.next.walk.2
  have hp := hl.ring.prev.walk.2
  rw [headD_reverse] at hp
  rw [Heap.links] at hn hp
  rw [Heap.read]
  cases hc : h.cells tag with
  | none => simp [hc] at hn
  | some e =>
    simp only [hc, Option.map_some, Option.some.injEq] at hn hp
    exact ⟨e.value, by rw [headAddr, lastAddr, ← hn, ← hp]⟩

lemma defined (hl : Linked h tag items) {p : ℕ} (hp : p ∈ tag :: items.map Prod.fst) :
    h.links Node.next p ≠ none :=
  hl.ring.next_defined hp

lemma defined_tag (hl : Linked h tag items) : h.links Node.next tag ≠ none := hl.defined (by simp)

lemma defined_at (hl : Linked h tag (l ++ x :: r)) : h.links Node.next x.1 ≠ none := hl.defined (by simp)

lemma defined_head (hl : Linked h tag (l ++ r)) : h.links Node.next (headAddr tag r) ≠ none := by
  have hm := headD_mem tag (r.map Prod.fst)
  refine hl.defined ?_
  rw [List.map_append]
  simp only [headAddr, List.mem_cons, List.mem_append] at hm ⊢
  tauto

lemma defined_last (hl : Linked h tag (l ++ r)) : h.links Node.next (lastAddr tag l) ≠ none := by
  have hm := getLastD_mem tag (l.map Prod.fst)
  refine hl.defined ?_
  rw [List.map_append]
  simp only [lastAddr, List.mem_cons, List.mem_append] at hm ⊢
  tauto

lemma ne_tag (hl : Linked h tag (l ++ x :: r)) : x.1 ≠ tag := hl.ring_at.tag_ne

lemma ne_zero (hl : Linked h tag (l ++ x :: r)) : x.1 ≠ 0 := by
  intro e
  apply hl.defined_at
  rw [e, Heap.links, h.null, Option.map_none]

lemma head_ne (hl : Linked h tag (l ++ x :: r)) : headAddr tag r ≠ x.1 := hl.ring_at.headD_ne

lemma last_ne (hl : Linked h tag (l ++ x :: r)) : lastAddr tag l ≠ x.1 := hl.ring_at.getLastD_ne

lemma head_eq_tag (hl : Linked h tag (l ++ r)) : headAddr tag r = tag ↔ r = [] := by
  cases r with
  | nil => simp
  | cons y r => simpa using hl.ne_tag

lemma last_eq_tag (hl : Linked h tag (l ++ r)) : lastAddr tag l = tag ↔ l = [] := by
  induction l using List.reverseRecOn with
  | nil => simp
  | append_singleton l y =>
    rw [List.append_assoc] at hl
    simpa using hl.ne_tag

lemma other_ne (hl : Linked h tag (l ++ x :: r)) {y : ℕ × β} (hy : y ∈ l ++ r) : y.1 ≠ x.1 := by
  intro e
  apply hl.ring_at.remove_notMem
  rw [← e, ← List.map_append]
  exact List.mem_cons_of_mem _ (List.mem_map_of_mem hy)

lemma unique {k s : List (ℕ × β)} (hl : Linked h tag (l ++ r)) (hl' : Linked h tag (k ++ s))
    (hh : headAddr tag r = headAddr tag s) : r = s := by
  induction r generalizing l k s with
  | nil => exact (hl'.head_eq_tag.mp hh.symm).symm
  | cons x r ih =>
    cases s with
    | nil => exact (hl.ne_tag hh).elim
    | cons y s =>
      obtain ⟨n, a⟩ := x
      obtain ⟨m, b⟩ := y
      obtain rfl : n = m := hh
      have hread : some (⟨a, lastAddr tag l, headAddr tag r⟩ : Node β) = some ⟨b, lastAddr tag k, headAddr tag s⟩ :=
        hl.read.symm.trans hl'.read
      rw [Option.some.injEq, Node.mk.injEq] at hread
      obtain ⟨rfl, -, hnext⟩ := hread
      rw [ih (l := l ++ [(n, a)]) (k := k ++ [(n, a)]) (by simpa using hl) (by simpa using hl') hnext]

lemma unlink (hl : Linked h tag (l ++ x :: r)) (hs : Fields h' nx pv val brk)
    (hnx : ∀ y, y ≠ x.1 → nx y =
      Function.update (h.links Node.next) (lastAddr tag l) (some (headAddr tag r)) y)
    (hpv : ∀ y, y ≠ x.1 → pv y =
      Function.update (h.links Node.prev) (headAddr tag r) (some (lastAddr tag l)) y)
    (hval : ∀ y, y ≠ x.1 → val y = (h.cells y).map Node.value) : Linked h' tag (l ++ r) := by
  refine ⟨?_, fun y hy => ?_⟩
  · rw [hs.next, hs.prev, List.map_append]
    exact hl.ring_at.unlink hnx hpv
  · rw [hs.value, hval y.1 (hl.other_ne hy)]
    apply hl.values
    simp only [List.mem_append, List.mem_cons] at hy ⊢
    tauto

lemma link (hl : Linked h tag (l ++ r)) (hs : Fields h' nx pv val brk) (hx : h.cells x.1 = none)
    (hnx : ∀ y, nx y = Function.update (Function.update (h.links Node.next) x.1 (some (headAddr tag r)))
      (lastAddr tag l) (some x.1) y)
    (hpv : ∀ y, pv y = Function.update (Function.update (h.links Node.prev) x.1 (some (lastAddr tag l)))
      (headAddr tag r) (some x.1) y)
    (hval : ∀ y, val y = Function.update (fun y => (h.cells y).map Node.value) x.1 (some x.2) y) :
    Linked h' tag (l ++ x :: r) := by
  have hnot : x.1 ∉ tag :: (l ++ r).map Prod.fst := by
    intro hm
    exact hl.defined hm (by rw [Heap.links, hx, Option.map_none])
  refine ⟨?_, fun y hy => ?_⟩
  · have hring := hl.ring
    rw [List.map_append] at hring hnot
    rw [hs.next, hs.prev, List.map_append, List.map_cons]
    exact hring.link hnot hnx hpv
  · rw [hs.value, hval]
    by_cases hyl : y ∈ l ++ r
    · have hyx : y.1 ≠ x.1 := fun e => hnot (e ▸ List.mem_cons_of_mem _ (List.mem_map_of_mem hyl))
      rw [Function.update_of_ne hyx, hl.values y hyl]
    · obtain rfl : y = x := by
        simp only [List.mem_append, List.mem_cons] at hy hyl
        tauto
      rw [Function.update_self]

lemma assign (hl : Linked h tag (l ++ x :: r)) {v : β}
    (hs : Fields h' (h.links Node.next) (h.links Node.prev)
      (Function.update (fun y => (h.cells y).map Node.value) x.1 (some v)) brk) :
    Linked h' tag (l ++ (x.1, v) :: r) := by
  refine ⟨?_, fun y hy => ?_⟩
  · rw [hs.next, hs.prev]
    simpa using hl.ring
  · rw [hs.value]
    by_cases hyl : y ∈ l ++ r
    · rw [Function.update_of_ne (hl.other_ne hyl)]
      apply hl.values
      simp only [List.mem_append, List.mem_cons] at hyl ⊢
      tauto
    · obtain rfl : y = (x.1, v) := by
        simp only [List.mem_append, List.mem_cons] at hy hyl
        tauto
      rw [Function.update_self]

end Linked

end Xframe.Lib
