import Xframe.Lib.Ring
import Xframe.Lib.Returns
import Xframe.Comserv.ExpireMap

/-! The representation of an expiring buffer: which heap, map and counters stand for which list of
entries, and what each primitive write does to the links and values of the heap. -/

namespace Xframe.Comserv

open Xframe.Lib

variable {K V : Type}

structure Shows (h : Heap (Enty K V)) (nx pv : ℕ → Option ℕ)
    (val : ℕ → Option (ExpireValue K V)) : Prop where
  next : ∀ p, h.links Enty.next p = nx p
  prev : ∀ p, h.links Enty.prev p = pv p
  value : ∀ p, (h.cells p).bind Enty.value = val p

lemma Shows.self (h : Heap (Enty K V)) :
    Shows h (h.links Enty.next) (h.links Enty.prev) fun p => (h.cells p).bind Enty.value :=
  ⟨fun _ => rfl, fun _ => rfl, fun _ => rfl⟩

namespace Shows

variable {b : ExpireBuffer K V} {h : Heap (Enty K V)} {nx pv : ℕ → Option ℕ}
  {val : ℕ → Option (ExpireValue K V)} {p m n : ℕ}

lemma cell (hs : Shows h nx pv val) (hp : nx p ≠ none) : ∃ e, h.cells p = some e := by
  rw [← hs.next, Heap.links] at hp
  cases hc : h.cells p with
  | none => simp [hc] at hp
  | some e => exact ⟨e, rfl⟩

lemma next_iff_prev (hs : Shows h nx pv val) : nx p ≠ none ↔ pv p ≠ none := by
  rw [← hs.next, ← hs.prev]
  simp [Heap.links]

lemma read (hs : Shows h nx pv val) (hn : nx p = some n) (hm : pv p = some m) :
    h.read p = some ⟨val p, m, n⟩ := by
  obtain ⟨e, he⟩ := hs.cell (p := p) (by simp [hn])
  have h1 := hs.next p
  have h2 := hs.prev p
  have h3 := hs.value p
  simp only [Heap.links, he, hn, hm, Option.map_some, Option.some.injEq, Option.bind_some] at h1 h2 h3
  rw [Heap.read, he, ← h1, ← h2, ← h3]

section Rules

variable {β : Type} {k : ExpireBuffer K V → Option β} {P : β → Prop}

lemma setNext (hs : Shows h nx pv val) (hp : nx p ≠ none) {q : ℕ}
    (hk : ∀ h, Shows h (Function.update nx p (some q)) pv val → Returns (k { b with heap := h }) P)
    (hb : b.heap = h := by rfl) : Returns (b.setNext p q >>= k) P := by
  subst hb
  obtain ⟨e, he⟩ := hs.cell hp
  obtain ⟨h, hh, hc, -⟩ := Heap.modify_spec he fun e => { e with next := q }
  refine Returns.of_bind (by rw [ExpireBuffer.setNext, hh, Option.map_some]) (hk h ⟨?_, ?_, ?_⟩)
  · intro y
    rw [Heap.links_update hc, funext hs.next]
  · intro y
    rw [Heap.links_same he hc rfl, hs.prev]
  · intro y
    rw [← hs.value, hc]
    by_cases hy : y = p <;> simp [hy, he]

lemma setPrev (hs : Shows h nx pv val) (hp : nx p ≠ none) {q : ℕ}
    (hk : ∀ h, Shows h nx (Function.update pv p (some q)) val → Returns (k { b with heap := h }) P)
    (hb : b.heap = h := by rfl) : Returns (b.setPrev p q >>= k) P := by
  subst hb
  obtain ⟨e, he⟩ := hs.cell hp
  obtain ⟨h, hh, hc, -⟩ := Heap.modify_spec he fun e => { e with prev := q }
  refine Returns.of_bind (by rw [ExpireBuffer.setPrev, hh, Option.map_some]) (hk h ⟨?_, ?_, ?_⟩)
  · intro y
    rw [Heap.links_same he hc rfl, hs.next]
  · intro y
    rw [Heap.links_update hc, funext hs.prev]
  · intro y
    rw [← hs.value, hc]
    by_cases hy : y = p <;> simp [hy, he]

lemma setValue (hs : Shows h nx pv val) (hp : nx p ≠ none) {v : ExpireValue K V}
    (hk : ∀ h, Shows h nx pv (Function.update val p (some v)) → Returns (k { b with heap := h }) P)
    (hb : b.heap = h := by rfl) : Returns (b.setValue p v >>= k) P := by
  subst hb
  obtain ⟨e, he⟩ := hs.cell hp
  obtain ⟨h, hh, hc, -⟩ := Heap.modify_spec he fun e => { e with value := some v }
  refine Returns.of_bind (by rw [ExpireBuffer.setValue, hh, Option.map_some]) (hk h ⟨?_, ?_, ?_⟩)
  · intro y
    rw [Heap.links_same he hc rfl, hs.next]
  · intro y
    rw [Heap.links_same he hc rfl, hs.prev]
  · intro y
    rw [hc]
    by_cases hy : y = p
    · simp [hy]
    · simp [hy, hs.value]

lemma delete (hs : Shows h nx pv val) (hp : nx p ≠ none)
    (hk : ∀ h, Shows h (Function.update nx p none) (Function.update pv p none)
      (Function.update val p none) → Returns (k { b with heap := h }) P)
    (hb : b.heap = h := by rfl) : Returns (b.delete p >>= k) P := by
  subst hb
  obtain ⟨e, he⟩ := hs.cell hp
  obtain ⟨h, hh, hc, -⟩ := Heap.free_spec he
  refine Returns.of_bind (by rw [ExpireBuffer.delete, hh, Option.map_some]) (hk h ⟨?_, ?_, ?_⟩) <;>
    intro y <;> by_cases hy : y = p
  · simp [Heap.links, hc, hy]
  · simp [Heap.links, hc, hy, ← hs.next]
  · simp [Heap.links, hc, hy]
  · simp [Heap.links, hc, hy, ← hs.prev]
  · simp [hc, hy]
  · simp [hc, hy, ← hs.value]

lemma entry {k : ExpireValue K V → Option β} (hs : Shows h nx pv val) {v : ExpireValue K V}
    (hv : val p = some v) (hk : Returns (k v) P) (hb : b.heap = h := by rfl) :
    Returns (b.entry p >>= k) P := by
  subst hb
  exact Returns.of_bind ((hs.value p).trans hv) hk

end Rules

lemma alloc (hs : Shows h nx pv val) (v : Option (ExpireValue K V)) :
    nx h.brk = none ∧ Shows (h.alloc ⟨v, m, n⟩).2 (Function.update nx h.brk (some n))
      (Function.update pv h.brk (some m)) (Function.update val h.brk v) := by
  refine ⟨by simp [← hs.next, Heap.links, h.brk_fresh], ?_, ?_, ?_⟩ <;> intro y <;>
    by_cases hy : y = h.brk
  · simp [Heap.alloc, Heap.links, hy]
  · simp [Heap.alloc, Heap.links, hy, ← hs.next]
  · simp [Heap.alloc, Heap.links, hy]
  · simp [Heap.alloc, Heap.links, hy, ← hs.prev]
  · simp [Heap.alloc, hy]
  · simp [Heap.alloc, hy, ← hs.value]

end Shows

structure Rep (b : ExpireBuffer K V) (ps : List ℕ) (m : ExpireMap K V) : Prop where
  ring : Ring (b.heap.links Enty.next) (b.heap.links Enty.prev) b.pTag ps
  live : ∀ p, b.heap.links Enty.next p ≠ none → p ∈ b.pTag :: ps
  values : ps.map b.entry = m.entries.map some
  map : ∀ key p, b.map key = some p ↔ p ∈ ps ∧ ∃ v, b.entry p = some v ∧ v.key = key
  head : b.pHead = ps.headD b.pTag
  tail : b.pTail = ps.getLastD b.pTag
  count : b.count = ps.length
  countMax : b.countMax = m.countMax
  destroyOld : b.destroyOld = m.destroyOld
  livingTime : b.livingTime = m.livingTime

lemma map_eq_map_some {α β : Type} {f : α → Option β} {l r : List α} {x : α} {vs : List β}
    (h : (l ++ x :: r).map f = vs.map some) :
    ∃ lv v rv, vs = lv ++ v :: rv ∧ l.map f = lv.map some ∧ f x = some v ∧ r.map f = rv.map some := by
  rw [List.map_append, List.map_cons] at h
  obtain ⟨lv, ws, rfl, hl, hw⟩ := List.append_eq_map_iff.mp h
  obtain ⟨v, rv, rfl, hv, hr⟩ := List.map_eq_cons_iff.mp hw
  exact ⟨lv, v, rv, rfl, hl.symm, hv.symm, hr.symm⟩

namespace Rep

variable {b b' : ExpireBuffer K V} {ps l r : List ℕ} {x : ℕ} {m : ExpireMap K V}
  {nx pv : ℕ → Option ℕ} {val : ℕ → Option (ExpireValue K V)}

lemma length (h : Rep b ps m) : ps.length = m.entries.length := by
  simpa using congrArg List.length h.values

lemma cell_ne_zero (h : Rep b ps m) {p : ℕ} (hp : p ∈ b.pTag :: ps) : p ≠ 0 := by
  rintro rfl
  exact h.ring.next_defined hp (by simp [Heap.links, b.heap.null])

lemma unlink [DecidableEq K] (h : Rep b (l ++ x :: r) m) {v : ExpireValue K V}
    (hv : b.entry x = some v) (hs : Shows b'.heap nx pv val) (htag : b'.pTag = b.pTag)
    (hnx : ∀ y, nx y = if y = x then none else
      Function.update (b.heap.links Enty.next) (l.getLastD b.pTag) (some (r.headD b.pTag)) y)
    (hpv : ∀ y, y ≠ x → pv y =
      Function.update (b.heap.links Enty.prev) (r.headD b.pTag) (some (l.getLastD b.pTag)) y)
    (hval : ∀ y, y ≠ x → val y = b.entry y)
    (hmap : b'.map = Function.update b.map v.key none)
    (hhead : b'.pHead = (l ++ r).headD b.pTag) (htail : b'.pTail = (l ++ r).getLastD b.pTag)
    (hcount : b'.count = b.count - 1) (hmax : b'.countMax = b.countMax)
    (hdestroy : b'.destroyOld = b.destroyOld) (hliving : b'.livingTime = b.livingTime) :
    Rep b' (l ++ r) (m.erase v.key) := by
  obtain ⟨lv, w, rv, hm, hl, hw, hr⟩ := map_eq_map_some h.values
  obtain rfl : w = v := Option.some.inj (hw.symm.trans hv)
  have hx : ∀ y ∈ l ++ r, y ≠ x := by
    have hn := (List.nodup_cons.mp h.ring.nodup).2
    rw [List.nodup_append, List.nodup_cons] at hn
    rintro y hy rfl
    rcases List.mem_append.mp hy with hy | hy
    · exact hn.2.2 y hy y (by simp) rfl
    · exact hn.2.1.1 hy
  have hentry : ∀ y, y ≠ x → b'.entry y = b.entry y := fun y hy => (hs.value y).trans (hval y hy)
  constructor
  · rw [funext hs.next, funext hs.prev, htag]
    exact h.ring.unlink (fun y hy => by rw [hnx, if_neg hy]) hpv
  · intro p hp
    rw [hs.next, hnx] at hp
    have hpx : p ≠ x := by rintro rfl; simp at hp
    rw [if_neg hpx] at hp
    have hmem : p ∈ b.pTag :: (l ++ x :: r) := by
      by_cases hpl : p = l.getLastD b.pTag
      · exact hpl ▸ getLastD_mem_of_subset _ (List.subset_append_left l (x :: r))
      · rw [Function.update_of_ne hpl] at hp
        exact h.live p hp
    rw [htag]
    simp only [List.mem_cons, List.mem_append] at hmem ⊢
    tauto
  · have hlr : (l ++ r).map b'.entry = (l ++ r).map b.entry :=
      List.map_congr_left fun y hy => hentry y (hx y hy)
    rw [hlr, ExpireMap.erase_middle hm, List.map_append, List.map_append, hl, hr]
  · intro key p
    rw [hmap]
    by_cases hk : key = w.key
    · subst hk
      simp only [Function.update_self, reduceCtorEq, false_iff]
      rintro ⟨hp, u, hu, hku⟩
      have hpx := hx p hp
      have h1 := (h.map w.key p).mpr ⟨by simp only [List.mem_append, List.mem_cons] at hp ⊢; tauto,
        u, by rw [← hentry p hpx, hu], hku⟩
      have h2 := (h.map w.key x).mpr ⟨by simp, w, hv, rfl⟩
      exact hpx (Option.some.inj (h1.symm.trans h2))
    · rw [Function.update_of_ne hk, h.map]
      constructor
      · rintro ⟨hp, u, hu, rfl⟩
        have hpx : p ≠ x := by
          rintro rfl
          exact hk (congrArg ExpireValue.key (Option.some.inj (hu.symm.trans hv)))
        refine ⟨?_, u, by rw [hentry p hpx, hu], rfl⟩
        simp only [List.mem_append, List.mem_cons] at hp ⊢
        tauto
      · rintro ⟨hp, u, hu, hku⟩
        refine ⟨?_, u, by rw [← hentry p (hx p hp), hu], hku⟩
        simp only [List.mem_append, List.mem_cons] at hp ⊢
        tauto
  · rw [htag, hhead]
  · rw [htag, htail]
  · rw [hcount, h.count]
    simp
  · rw [hmax, h.countMax]
    rfl
  · rw [hdestroy, h.destroyOld]
    rfl
  · rw [hliving, h.livingTime]
    rfl

lemma link [DecidableEq K] (h : Rep b ps m) {v : ExpireValue K V} (hv : m.find v.key = none)
    (hx : b.heap.links Enty.next x = none) (hs : Shows b'.heap nx pv val) (htag : b'.pTag = b.pTag)
    (hnx : ∀ y, nx y = Function.update (Function.update (b.heap.links Enty.next) x (some b.pTag))
      (ps.getLastD b.pTag) (some x) y)
    (hpv : ∀ y, pv y = Function.update (Function.update (b.heap.links Enty.prev) x
      (some (ps.getLastD b.pTag))) b.pTag (some x) y)
    (hval : ∀ y, val y = Function.update b.entry x (some v) y)
    (hmap : b'.map = Function.update b.map v.key (some x))
    (hhead : b'.pHead = (ps ++ [x]).headD b.pTag) (htail : b'.pTail = x)
    (hcount : b'.count = b.count + 1) (hmax : b'.countMax = b.countMax)
    (hdestroy : b'.destroyOld = b.destroyOld) (hliving : b'.livingTime = b.livingTime) :
    Rep b' (ps ++ [x]) (m.snoc v) := by
  have hxp : x ∉ b.pTag :: ps := fun hm => h.ring.next_defined hm hx
  have hentry : ∀ y, b'.entry y = Function.update b.entry x (some v) y :=
    fun y => (hs.value y).trans (hval y)
  have hne : ∀ y ∈ ps, y ≠ x := fun y hy e => hxp (e ▸ List.mem_cons_of_mem _ hy)
  have hold : ∀ y ∈ ps, b'.entry y = b.entry y := fun y hy => by
    rw [hentry, Function.update_of_ne (hne y hy)]
  constructor
  · rw [funext hs.next, funext hs.prev, htag]
    refine Ring.link (l := ps) (r := []) (by simpa using h.ring) (by simpa using hxp) hnx hpv
  · intro p hp
    rw [hs.next, hnx] at hp
    rw [htag]
    by_cases hpx : p = x
    · simp [hpx]
    have hmem : p ∈ b.pTag :: ps := by
      by_cases hpl : p = ps.getLastD b.pTag
      · exact hpl ▸ getLastD_mem b.pTag ps
      · rw [Function.update_of_ne hpl, Function.update_of_ne hpx] at hp
        exact h.live p hp
    simp only [List.mem_cons, List.mem_append] at hmem ⊢
    tauto
  · rw [ExpireMap.snoc_entries hv, List.map_append, List.map_append, ← h.values,
      List.map_congr_left hold]
    simp [hentry]
  · intro key p
    rw [hmap]
    by_cases hk : key = v.key
    · subst hk
      simp only [Function.update_self, Option.some.injEq, List.mem_append, List.mem_singleton]
      constructor
      · rintro rfl
        exact ⟨Or.inr rfl, v, by simp [hentry], rfl⟩
      · rintro ⟨hp | rfl, u, hu, hku⟩
        · have hu' : some u ∈ m.entries.map some := by
            rw [← h.values, ← hu, hold p hp]
            exact List.mem_map_of_mem hp
          have := ExpireMap.find_eq_none.mp hv u (by simpa using hu')
          exact (this hku).elim
        · rfl
    · rw [Function.update_of_ne hk, h.map]
      constructor
      · rintro ⟨hp, u, hu, hku⟩
        exact ⟨by simp [hp], u, by rw [hold p hp, hu], hku⟩
      · rintro ⟨hp, u, hu, rfl⟩
        simp only [List.mem_append, List.mem_singleton] at hp
        rcases hp with hp | rfl
        · exact ⟨hp, u, by rw [← hold p hp, hu], rfl⟩
        · rw [hentry, Function.update_self, Option.some.injEq] at hu
          exact (hk (congrArg _ hu.symm)).elim
  · rw [htag, hhead]
  · rw [htag, htail]
    simp [List.getLastD_eq_getLast?]
  · rw [hcount, h.count]
    simp
  · rw [hmax, h.countMax]
    rfl
  · rw [hdestroy, h.destroyOld]
    rfl
  · rw [hliving, h.livingTime]
    rfl

lemma moved [DecidableEq K] (h : Rep b (l ++ x :: r) m) {v w : ExpireValue K V}
    (hv : b.entry x = some v) (hw : w.key = v.key) (hs : Shows b'.heap nx pv val)
    (htag : b'.pTag = b.pTag)
    (hnx : ∀ y, nx y = Function.update (Function.update (Function.update (b.heap.links Enty.next)
      (l.getLastD b.pTag) (some (r.headD b.pTag))) x (some b.pTag)) ((l ++ r).getLastD b.pTag) (some x) y)
    (hpv : ∀ y, pv y = Function.update (Function.update (Function.update (b.heap.links Enty.prev)
      (r.headD b.pTag) (some (l.getLastD b.pTag))) x (some ((l ++ r).getLastD b.pTag))) b.pTag (some x) y)
    (hval : ∀ y, val y = Function.update b.entry x (some w) y) (hmap : b'.map = b.map)
    (hhead : b'.pHead = (l ++ r ++ [x]).headD b.pTag) (htail : b'.pTail = x)
    (hcount : b'.count = b.count) (hmax : b'.countMax = b.countMax)
    (hdestroy : b'.destroyOld = b.destroyOld) (hliving : b'.livingTime = b.livingTime) :
    Rep b' (l ++ r ++ [x]) (m.refresh w) := by
  have hdef : ∀ y ∈ b.pTag :: (l ++ x :: r), b.heap.links Enty.next y ≠ none :=
    fun y hy => h.ring.next_defined hy
  have hlast : l.getLastD b.pTag ∈ b.pTag :: (l ++ x :: r) :=
    getLastD_mem_of_subset _ (List.subset_append_left l (x :: r))
  have hnext : r.headD b.pTag ∈ b.pTag :: (l ++ x :: r) :=
    headD_mem_of_subset _ (List.subset_append_of_subset_right l (List.subset_cons_self x r))
  -- the ring without `x` as an intermediate buffer: the move is `unlink` and then `link`
  obtain ⟨h1, -, s1⟩ : Returns (do
      let c ← b.setNext (l.getLastD b.pTag) (r.headD b.pTag)
      let c ← c.setPrev (r.headD b.pTag) (l.getLastD b.pTag)
      let c ← c.delete x
      some c.heap) fun h1 => Shows h1
        (Function.update (Function.update (b.heap.links Enty.next) (l.getLastD b.pTag)
          (some (r.headD b.pTag))) x none)
        (Function.update (Function.update (b.heap.links Enty.prev) (r.headD b.pTag)
          (some (l.getLastD b.pTag))) x none) (Function.update b.entry x none) := by
    refine (Shows.self b.heap).setNext (hdef _ hlast) fun h1 s1 => ?_
    refine s1.setPrev ?_ fun h2 s2 => ?_
    · rw [Function.update_apply]
      split
      · simp
      · exact hdef _ hnext
    refine s2.delete ?_ fun h3 s3 => ?_
    · rw [Function.update_of_ne h.ring.getLastD_ne.symm]
      exact hdef _ (by simp)
    exact (returns_some _ _).mpr s3
  have hrep : Rep { b with
      heap := h1, map := Function.update b.map v.key none, pHead := (l ++ r).headD b.pTag
      pTail := (l ++ r).getLastD b.pTag, count := b.count - 1 } (l ++ r) (m.erase v.key) :=
    h.unlink hv s1 rfl (fun y => Function.update_apply ..) (fun y hy => Function.update_of_ne hy _ _)
      (fun y hy => Function.update_of_ne hy _ _) rfl rfl rfl rfl rfl rfl rfl
  have hpos : 0 < b.count := by rw [h.count]; simp
  have hx : b.map v.key = some x := (h.map v.key x).mpr ⟨by simp, v, hv, rfl⟩
  rw [ExpireMap.refresh, hw]
  refine hrep.link (hw ▸ ExpireMap.find_erase_self m v.key) ?_ hs htag ?_ ?_ ?_ ?_ hhead htail
    (by rw [hcount]; dsimp only; omega) hmax hdestroy hliving
  · simp [s1.next]
  · intro y
    rw [hnx, funext s1.next, Function.update_idem]
  · intro y
    rw [hpv, funext s1.prev, Function.update_idem]
  · intro y
    rw [hval]
    have he : ExpireBuffer.entry { b with
        heap := h1, map := Function.update b.map v.key none, pHead := (l ++ r).headD b.pTag
        pTail := (l ++ r).getLastD b.pTag, count := b.count - 1 } = Function.update b.entry x none :=
      funext s1.value
    rw [he, Function.update_idem]
  · rw [hmap, hw, Function.update_idem, ← hx, Function.update_eq_self]

lemma map_none [DecidableEq K] (h : Rep b ps m) {key : K} : b.map key = none ↔ m.find key = none := by
  constructor
  · intro hn
    rw [ExpireMap.find_eq_none]
    rintro v hv rfl
    have hv' : some v ∈ ps.map b.entry := by
      rw [h.values]
      exact List.mem_map_of_mem hv
    obtain ⟨p, hp, hpv⟩ := List.mem_map.mp hv'
    have := (h.map v.key p).mpr ⟨hp, v, hpv, rfl⟩
    simp [hn] at this
  · intro hn
    cases hk : b.map key with
    | none => rfl
    | some p =>
      obtain ⟨hp, v, hv, hkey⟩ := (h.map key p).mp hk
      have hv' : some v ∈ m.entries.map some := by
        rw [← h.values, ← hv]
        exact List.mem_map_of_mem hp
      exact (ExpireMap.find_eq_none.mp hn v (by simpa using hv') hkey).elim

lemma map_some [DecidableEq K] (h : Rep b ps m) {key : K} {p : ℕ} (hk : b.map key = some p) :
    ∃ l r v, ps = l ++ p :: r ∧ b.entry p = some v ∧ v.key = key ∧ m.find key = some v := by
  obtain ⟨hp, v, hv, hkey⟩ := (h.map key p).mp hk
  obtain ⟨l, r, rfl⟩ := List.append_of_mem hp
  have hv' : some v ∈ m.entries.map some := by
    rw [← h.values, ← hv]
    exact List.mem_map_of_mem hp
  exact ⟨l, r, v, rfl, hv, hkey, ExpireMap.find_eq_some.mpr ⟨by simpa using hv', hkey⟩⟩

end Rep

end Xframe.Comserv
