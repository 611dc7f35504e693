import Xframe.Comserv.Traversal

/-! A traversal of a hash table that is changed while it goes on: `getNext` between removals of any keys
and puts that overwrite. Every entry is returned once unless it is removed before its turn. -/

namespace Xframe.Comserv

open Xframe.Lib
open scoped List

namespace CHashTable

variable {K V : Type} {F : KeyFns K} {t t' : CHashTable K V} {bucket : ℕ → List ℕ} {seq rest : List ℕ}
  {m todo : List (K × V)} {key : K} {x : ℕ}

/-- The `getNext` that answers the key next to the value. -/
def getNextPair (t : CHashTable K V) : Option (Option (K × V) × CHashTable K V) :=
  if t.pcurEntry = 0 then some (none, t)
  else do
    let e ← t.heap.read t.pcurEntry
    let t ← t.searchNextEntry
    some (some (e.key, e.value), t)

lemma getNext_eq (t : CHashTable K V) :
    t.getNext = t.getNextPair.map fun (r, t') => (r.map Prod.snd, t') := by
  rw [getNext, getNextPair]
  split_ifs
  · rfl
  · cases hr : t.heap.read t.pcurEntry with
    | none => rfl
    | some e =>
      cases hn : t.searchNextEntry with
      | none => rfl
      | some t' => rfl

def pair (h : Heap (HashEntry K V)) (p : ℕ) : Option (K × V) := (h.cells p).map fun e => (e.key, e.value)

namespace Points

lemma suffix (hp : Points t bucket rest) : rest <:+ (List.range' 0 t.tableLength).flatMap bucket := by
  rcases hp with ⟨-, rfl⟩ | ⟨hu, a, l, hb, rfl⟩
  · exact List.nil_suffix
  · obtain ⟨n, hn⟩ : ∃ n, t.tableLength = t.uicurIndex + 1 + n := ⟨_, (Nat.add_sub_of_le hu).symm⟩
    refine ⟨(List.range' 0 t.uicurIndex).flatMap bucket ++ a, ?_⟩
    have hlater : t.tableLength - (t.uicurIndex + 1) = n := by omega
    rw [hlater, hn, ← List.range'_append_1, ← List.range'_append_1]
    simp [hb]

lemma subset (hs : Shape t bucket seq) (hp : Points t bucket rest) {p : ℕ} (h : p ∈ rest) : p ∈ seq :=
  (buckets_perm hs).mem_iff.mp (hp.suffix.subset h)

lemma nodup (hs : Shape t bucket seq) (hp : Points t bucket rest) : rest.Nodup :=
  hp.suffix.sublist.nodup ((buckets_perm hs).nodup_iff.mpr (List.nodup_cons.mp hs.ring.nodup).2)

lemma cur_eq (hp : Points t bucket rest) : t.pcurEntry = rest.headD 0 := by
  rcases hp with ⟨h0, rfl⟩ | ⟨-, a, l, -, rfl⟩
  · exact h0
  · rfl

lemma step (hs : Shape t bucket seq) (hp : Points t bucket (x :: rest)) :
    ∃ c u, t.searchNextEntry = some (t.setCursor c u) ∧ Points (t.setCursor c u) bucket rest := by
  rcases hp with ⟨-, hnil⟩ | ⟨hu, a, l, hb, hrest⟩
  · simp at hnil
  · rw [List.cons_append, List.cons.injEq] at hrest
    rw [hrest.2]
    exact searchNextEntry_points hs hu hb

lemma leave (hs : Shape t bucket seq) (hp : Points t bucket rest) (hx : x ≠ 0) :
    Leaves t (fun x c u => c ≠ x ∧ ∃ rest₁, Points (t.setCursor c u) bucket rest₁ ∧
      rest₁.filter (· ≠ x) = rest.filter (· ≠ x)) x := by
  have hcur := hp.cur_eq
  rw [Leaves, leaveEntry]
  split_ifs with h
  · cases rest with
    | nil => exact absurd (h.trans hcur) hx
    | cons y rest =>
      obtain rfl : x = y := h.trans hcur
      obtain ⟨c, u, hc, hp'⟩ := hp.step hs
      have hnodup := List.nodup_cons.mp (hp.nodup hs)
      refine ⟨c, u, hc, ?_, rest, hp', by simp⟩
      have hc' : c = rest.headD 0 := hp'.cur_eq
      rintro rfl
      cases rest with
      | nil => exact hx hc'
      | cons z rest =>
        rw [List.headD_cons] at hc'
        exact hnodup.1 (by simp [hc'])
  · exact ⟨t.pcurEntry, t.uicurIndex, rfl, fun hc => h hc.symm, rest, hp, rfl⟩

lemma unlink (hp : Points t bucket rest) (hx : t.pcurEntry ≠ x) (hc : t'.pcurEntry = t.pcurEntry)
    (hu : t'.uicurIndex = t.uicurIndex) (hl : t'.tableLength = t.tableLength) :
    Points t' (fun j => (bucket j).filter (· ≠ x)) (rest.filter (· ≠ x)) := by
  rcases hp with ⟨h0, rfl⟩ | ⟨hlt, a, l, hb, rfl⟩
  · exact Or.inl ⟨hc.trans h0, rfl⟩
  · refine Or.inr ⟨by omega, a.filter (· ≠ x), l.filter (· ≠ x), ?_, ?_⟩
    · dsimp only
      rw [hu, hb, hc]
      simp [hx]
    · rw [hu, hl, hc, List.cons_append, List.filter_cons_of_pos (by simpa using hx), List.filter_append,
        List.filter_flatMap]
      rfl

end Points

lemma map_filter_some {α β : Type} {f : α → Option β} {p : α → Bool} {q : β → Bool} {l : List α} {bs : List β}
    (h : l.map f = bs.map some) (hpq : ∀ x ∈ l, ∀ b, f x = some b → p x = q b) :
    (l.filter p).map f = (bs.filter q).map some := by
  induction l generalizing bs with
  | nil =>
    obtain rfl : bs = [] := by simpa using h
    rfl
  | cons x l ih =>
    obtain ⟨b, bs, rfl⟩ : ∃ b bs', bs = b :: bs' := by
      cases bs with
      | nil => simp at h
      | cons b bs => exact ⟨b, bs, rfl⟩
    rw [List.map_cons, List.map_cons, List.cons.injEq] at h
    have hrest := ih h.2 fun y hy => hpq y (List.mem_cons_of_mem _ hy)
    have hx := hpq x (by simp) b h.1
    cases hq : q b with
    | false => rw [List.filter_cons_of_neg (by simp [hx, hq]), List.filter_cons_of_neg (by simp [hq]), hrest]
    | true =>
      rw [List.filter_cons_of_pos (hx.trans hq), List.filter_cons_of_pos hq, List.map_cons, List.map_cons, h.1, hrest]

lemma Rep.unique {p : ℕ} {e f : HashEntry K V} (hr : Rep F t seq m) (hx : x ∈ seq) (hp : p ∈ seq) (hne : p ≠ x)
    (he : t.heap.cells x = some e) (hf : t.heap.cells p = some f) (hk : F.compareKey key e.key = true) :
    F.compareKey key f.key = false := by
  obtain ⟨sl, sr, rfl⟩ := List.append_of_mem hx
  obtain ⟨l, kv, r, rfl, hd, hl, hr'⟩ := hr.split rfl
  rw [CHashTable.data, he, Option.map_some, Option.some.injEq, Prod.mk.injEq, Prod.mk.injEq] at hd
  have hmem : CHashTable.data t.heap p ∈ (l ++ r).map fun kv => some (F.getHash kv.1, kv.1, kv.2) := by
    rw [List.map_append, ← hl, ← hr', ← List.map_append]
    refine List.mem_map_of_mem ?_
    simpa [hne] using hp
  obtain ⟨kv', hkv', heq⟩ := List.mem_map.mp hmem
  rw [CHashTable.data, hf, Option.map_some, Option.some.injEq, Prod.mk.injEq, Prod.mk.injEq] at heq
  rw [← heq.2.1]
  exact hr.distinct.others (hd.2.1 ▸ hk) kv' hkv'

structure Tour (K V : Type) where
  held : K → Option V
  todo : List (K × V)

def overwrite (F : KeyFns K) (key : K) (value : V) (m : List (K × V)) : List (K × V) :=
  m.map fun kv => if F.compareKey key kv.1 then (kv.1, value) else kv

namespace Tour

def put (F : KeyFns K) (s : Tour K V) (key : K) (value : V) : Tour K V where
  held k := if F.compareKey k key then some value else s.held k
  todo := if (s.held key).isSome then overwrite F key value s.todo else []

def remove (F : KeyFns K) (s : Tour K V) (key : K) : Tour K V where
  held k := if F.compareKey k key then none else s.held k
  todo := without F key s.todo

def next (s : Tour K V) : Tour K V := { s with todo := s.todo.tail }

end Tour

structure Touring (F : KeyFns K) (t : CHashTable K V) (s : Tour K V) (bucket : ℕ → List ℕ) (seq : List ℕ)
    (m : List (K × V)) (rest : List ℕ) : Prop where
  shape : Shape t bucket seq
  rep : Rep F (t.setCursor 0 0) seq m
  held : ∀ k, lookup F m k = s.held k
  points : Points t bucket rest
  pairs : rest.map (pair t.heap) = s.todo.map some

def Tours (F : KeyFns K) (t : CHashTable K V) (s : Tour K V) : Prop :=
  ∃ bucket seq m rest, Touring F t s bucket seq m rest

variable {s : Tour K V}

namespace Touring

lemma mem (h : Touring F t s bucket seq m rest) {kv : K × V} (hkv : kv ∈ s.todo) : kv ∈ m := by
  have hsome : some kv ∈ rest.map (pair t.heap) := by
    rw [h.pairs]
    exact List.mem_map_of_mem hkv
  obtain ⟨p, hp, heq⟩ := List.mem_map.mp hsome
  have hm := List.mem_map_of_mem (f := pair t.heap) (h.points.subset h.shape hp)
  rw [heq, show seq.map (pair t.heap) = m.map some from h.rep.entries] at hm
  obtain ⟨kv', hkv', heq'⟩ := List.mem_map.mp hm
  rwa [← Option.some.inj heq']

lemma bound (h : Touring F t s bucket seq m rest) : seq.length ≤ t.entryCount := by
  have hcount : t.entryCount = m.length := h.rep.count
  rw [hcount, h.rep.length_eq]

lemma overwrite_pairs {h₁ : Heap (HashEntry K V)} {e : HashEntry K V} {value : V} (h : Touring F t s bucket seq m rest)
    (hx : x ∈ seq) (he : t.heap.cells x = some e) (hk : F.compareKey key e.key = true)
    (hc : h₁.cells = Function.update t.heap.cells x (some { e with value := value })) :
    rest.map (pair h₁) = (overwrite F key value s.todo).map some := by
  have hpair : ∀ p ∈ rest, pair h₁ p =
      (pair t.heap p).map fun kv => if F.compareKey key kv.1 then (kv.1, value) else kv := by
    intro p hp
    obtain ⟨f, hf⟩ := h.shape.cell (h.points.subset h.shape hp)
    by_cases hpx : p = x
    · subst hpx
      obtain rfl : e = f := Option.some.inj (he.symm.trans hf)
      simp [pair, hc, hf, hk]
    · have := h.rep.unique hx (h.points.subset h.shape hp) hpx he hf hk
      simp [pair, hc, hf, hpx, this]
  have hmap := congrArg (List.map (Option.map fun kv => if F.compareKey key kv.1 then (kv.1, value) else kv)) h.pairs
  rw [List.map_map, List.map_map] at hmap
  rw [List.map_congr_left hpair, overwrite, List.map_map]
  exact hmap

end Touring

lemma Tours.next (h : Tours F t s) :
    Returns t.getNextPair fun (r, t') => r = s.todo.head? ∧ Tours F t' s.next := by
  obtain ⟨bucket, seq, m, rest, h⟩ := h
  have hpairs := h.pairs
  have hcur := h.points.cur_eq
  rw [getNextPair]
  cases rest with
  | nil =>
    have hnil : s.todo = [] := by simpa using hpairs
    rw [if_pos (show t.pcurEntry = 0 from hcur), returns_some, hnil]
    refine ⟨rfl, bucket, seq, m, [], h.shape, h.rep, h.held, h.points, ?_⟩
    rw [Tour.next, hnil]
    rfl
  | cons x rest =>
    obtain ⟨e, he⟩ := h.shape.cell (h.points.subset h.shape (List.mem_cons_self ..))
    have hx : t.pcurEntry = x := hcur
    obtain ⟨c, u, hstep, hp⟩ := h.points.step h.shape
    obtain ⟨todo, htodo, hrest⟩ : ∃ todo, s.todo = (e.key, e.value) :: todo ∧
        rest.map (pair t.heap) = todo.map some := by
      cases hl : s.todo with
      | nil => simp [hl] at hpairs
      | cons kv todo =>
        rw [hl, List.map_cons, List.map_cons, List.cons.injEq, pair, he, Option.map_some, Option.some.injEq] at hpairs
        exact ⟨todo, by rw [hpairs.1], hpairs.2⟩
    rw [if_neg (by rw [hx]; exact cell_ne_zero he), hx]
    refine Returns.of_bind (show t.heap.read x = some e from he) (Returns.of_bind hstep ?_)
    rw [returns_some, htodo]
    refine ⟨rfl, bucket, seq, m, rest, h.shape.setCursor c u, h.rep, h.held, hp, ?_⟩
    rw [Tour.next, htodo]
    exact hrest

lemma Tours.remove (h : Tours F t s) (key : K) :
    Returns (t.remove F key) fun (_, t') => Tours F t' (s.remove F key) := by
  obtain ⟨bucket, seq, m, rest, h⟩ := h
  have hheld : ∀ k, lookup F (without F key m) k = (s.remove F key).held k := fun k => by
    rw [lookup_without, h.held]
    rfl
  have hleave : ∀ p ∈ bucket (t.index (F.getHash key)), Leaves t (fun x c u => c ≠ x ∧ ∃ rest₁,
      Points (t.setCursor c u) bucket rest₁ ∧ rest₁.filter (· ≠ x) = rest.filter (· ≠ x)) p := by
    intro p hp
    obtain ⟨e, he⟩ := h.shape.cell ((h.shape.mem _ (index_lt h.shape.pos _) p).mp hp).1
    exact h.points.leave h.shape (cell_ne_zero he)
  refine (remove_under F key h.shape h.bound hleave).mono ?_
  rintro ⟨b, t'⟩ (⟨rfl, rfl, hno⟩ | ⟨rfl, sl, x, sr, e, c, u, rfl, he, hk, ⟨hcx, rest₁, hp, hfilter⟩, hdrop, hu, hlen⟩)
  · have hnone := lookup_eq_none.mp (h.rep.not_in_chain (h.shape.setCursor 0 0) hno)
    have hm := without_eq_self hnone
    have htodo : (s.remove F key).todo = s.todo := without_eq_self fun kv hkv => hnone kv (h.mem hkv)
    refine ⟨bucket, seq, without F key m, rest, h.shape, hm.symm ▸ h.rep, hheld, h.points, ?_⟩
    rw [htodo, h.pairs]
  · have hrep : Rep F (t'.setCursor 0 0) (sl ++ sr) (without F key m) :=
      h.rep.dropped he hk ⟨hdrop.shape.setCursor 0 0, hdrop.data, hdrop.count, rfl⟩
    refine ⟨_, sl ++ sr, _, rest.filter (· ≠ x), hdrop.shape, hrep, hheld, ?_, ?_⟩
    · rw [← hfilter]
      exact hp.unlink hcx hdrop.cur hu hlen
    · have hsame : ∀ p ∈ rest.filter (· ≠ x), pair t'.heap p = pair t.heap p := by
        intro p hp
        have hd := congrArg (Option.map Prod.snd) (hdrop.data p (by simpa using (List.mem_filter.mp hp).2))
        simp only [CHashTable.data, Option.map_map] at hd
        exact hd
      rw [List.map_congr_left hsame]
      refine map_filter_some h.pairs fun p hp kv hkv => ?_
      obtain ⟨f, hf, rfl⟩ := Option.map_eq_some_iff.mp hkv
      by_cases hpx : p = x
      · subst hpx
        obtain rfl : e = f := Option.some.inj (he.symm.trans hf)
        simp [hk]
      · have := h.rep.unique (by simp) (h.points.subset h.shape hp) hpx he hf hk
        simp [hpx, this]

lemma putEntry_setCursor {value : V} (hf : t.find F key = some 0) (c u : ℕ) :
    (t.setCursor c u).putEntry F key value = t.putEntry F key value := by
  have hf' : (t.setCursor c u).find F key = some 0 := hf
  rw [putEntry, putEntry, hf, hf']
  rfl

lemma Tours.put (h : Tours F t s) (key : K) (value : V) :
    Returns (t.putEntry F key value) fun (_, t') => Tours F t' (s.put F key value) := by
  obtain ⟨bucket, seq, m, rest, h⟩ := h
  obtain ⟨q, hq, hfind⟩ := find_spec key h.rep
  have hq : t.find F key = some q := hq
  rcases hfind with ⟨rfl, hnone⟩ | ⟨h0, sl, sr, l, kv, r, e, rfl, rfl, hl, hr, he, hh, hkey, -, hk⟩
  · rw [← putEntry_setCursor hq 0 0]
    refine (putEntry_spec key h.rep value).mono ?_
    rintro ⟨old, t'⟩ ⟨-, seq', m', hrep, hlook⟩
    obtain ⟨bucket', hs⟩ := hrep.shape
    refine ⟨bucket', seq', m', [], hs, hrep.setCursor 0, fun k => ?_, Or.inl ⟨hrep.cur, rfl⟩, ?_⟩
    · rw [hlook, h.held]
      rfl
    · have hheld : s.held key = none := (h.held key).symm.trans hnone
      rw [Tour.put, hheld]
      rfl
  · have he : t.heap.cells q = some e := he
    have hd := h.rep.distinct
    obtain ⟨h₁, hw, hc, hs⟩ :=
      (h.shape.counters t.entryCount (t.modCount + 1) t.pcurEntry t.uicurIndex).setValue he value
    have hrep₁ : Rep F { t.setCursor 0 0 with modCount := t.modCount + 1 } (sl ++ q :: sr) (l ++ kv :: r) :=
      ⟨⟨bucket, h.shape.counters _ _ _ _⟩, h.rep.data, hd, h.rep.count, rfl⟩
    have hrep := hrep₁.setValue hl hr hh hkey hc (hs.setCursor 0 0)
    rw [putEntry, hq]
    refine Returns.of_bind rfl ?_
    rw [if_pos h0]
    refine Returns.of_bind (show t.heap.read q = some e from he) (Returns.of_bind hw ?_)
    rw [returns_some]
    refine ⟨bucket, _, _, rest, hs, hrep, fun k => ?_, h.points, ?_⟩
    · have hsame : lookup F (l ++ kv :: r) k = s.held k := h.held k
      rw [lookup_middle hrep.distinct, ← compareKey_congr hk]
      change _ = if F.compareKey k key then some value else s.held k
      rw [← hsame, lookup_middle hd, ← compareKey_congr hk]
      split_ifs <;> rfl
    · have hheld : (s.held key).isSome := by
        rw [← h.held, lookup_middle hd, if_pos hk]
        rfl
      rw [Tour.put, if_pos hheld]
      exact h.overwrite_pairs (by simp) he (hkey ▸ hk) hc

inductive Turn (K V : Type) where
  | getNext
  | remove (key : K)
  | put (key : K) (value : V)
  | putV (key : K) (value : V)

def turn (F : KeyFns K) (t : CHashTable K V) : Turn K V → Option (Option (K × V) × CHashTable K V)
  | .getNext => t.getNextPair
  | .remove key => (t.remove F key).map fun (_, t) => (none, t)
  | .put key value => (t.putR F key value).map fun (_, t) => (none, t)
  | .putV key value => (t.putV F key value).map fun t => (none, t)

namespace Turn

def stores : Turn K V → Option K
  | .put key _ => some key
  | .putV key _ => some key
  | _ => none

def Removes (F : KeyFns K) (k : K) : Turn K V → Prop
  | .remove key => F.compareKey key k = true
  | _ => False

end Turn

def tour (F : KeyFns K) (s : Tour K V) : Turn K V → Option (K × V) × Tour K V
  | .getNext => (s.todo.head?, s.next)
  | .remove key => (none, s.remove F key)
  | .put key value => (none, s.put F key value)
  | .putV key value => (none, s.put F key value)

lemma turn_tours (h : Tours F t s) (o : Turn K V) :
    Returns (t.turn F o) fun (r, t') => r = (tour F s o).1 ∧ Tours F t' (tour F s o).2 := by
  cases o with
  | getNext => exact h.next
  | remove key => exact (h.remove key).map fun _ h' => ⟨rfl, h'⟩
  | put key value =>
    rw [turn, putR, Option.map_map]
    exact (h.put key value).map fun _ h' => ⟨rfl, h'⟩
  | putV key value =>
    rw [turn, putV, Option.map_map]
    exact (h.put key value).map fun _ h' => ⟨rfl, h'⟩

section Runs

variable {os : List (Turn K V)} {k : K}

lemma overwrite_keys (key : K) (value : V) (m : List (K × V)) :
    (overwrite F key value m).map Prod.fst = m.map Prod.fst := by
  rw [overwrite, List.map_map]
  refine List.map_congr_left fun kv _ => ?_
  rw [Function.comp_apply]
  split_ifs <;> rfl

lemma put_keys (key : K) (value : V) : (s.put F key value).todo.map Prod.fst <+ s.todo.map Prod.fst := by
  rw [Tour.put]
  dsimp only
  split_ifs
  · rw [overwrite_keys]
  · exact List.nil_sublist _

lemma tour_keys (s : Tour K V) (o : Turn K V) :
    ((tour F s o).1.toList ++ (tour F s o).2.todo).map Prod.fst <+ s.todo.map Prod.fst := by
  cases o with
  | getNext =>
    cases h : s.todo <;> simp [tour, Tour.next, h]
  | remove key => exact List.filter_sublist.map Prod.fst
  | put key value => exact put_keys key value
  | putV key value => exact put_keys key value

lemma run_cons (s : Tour K V) (o : Turn K V) (os : List (Turn K V)) :
    (runSteps (tour F) s (o :: os)).1.reduceOption =
      (tour F s o).1.toList ++ (runSteps (tour F) (tour F s o).2 os).1.reduceOption := by
  change ((tour F s o).1 :: (runSteps (tour F) (tour F s o).2 os).1).reduceOption = _
  cases (tour F s o).1 <;> rfl

lemma run_keys (s : Tour K V) (os : List (Turn K V)) :
    ((runSteps (tour F) s os).1.reduceOption ++ (runSteps (tour F) s os).2.todo).map Prod.fst <+ s.todo.map Prod.fst := by
  induction os generalizing s with
  | nil => exact List.Sublist.refl _
  | cons o os ih =>
    have hone := tour_keys (F := F) s o
    have hrest := ih (tour F s o).2
    rw [List.map_append] at hone
    refine List.Sublist.trans ?_ hone
    rw [run_cons, List.append_assoc, List.map_append]
    exact hrest.append_left _

lemma run_removed (s : Tour K V) {o : Turn K V} (ho : o ∈ os) (hk : o.Removes F k) :
    k ∉ (runSteps (tour F) s os).2.todo.map Prod.fst := by
  induction os generalizing s with
  | nil => simp at ho
  | cons o' os ih =>
    rcases List.mem_cons.mp ho with rfl | ho
    · cases o with
      | remove key =>
        intro hmem
        have hsub := (run_keys (F := F) (s.remove F key) os).subset
        rw [List.map_append] at hsub
        obtain ⟨kv, hkv, rfl⟩ := List.mem_map.mp (hsub (List.mem_append_right _ hmem))
        have hne := (List.mem_filter.mp hkv).2
        rw [show F.compareKey key kv.1 = true from hk] at hne
        simp at hne
      | _ => exact hk.elim
    · exact ih (tour F s o').2 ho

lemma tour_covers (s : Tour K V) {o : Turn K V} (ho : ∀ key, o.stores = some key → (s.held key).isSome)
    (hk : k ∈ s.todo.map Prod.fst) :
    k ∈ ((tour F s o).1.toList ++ (tour F s o).2.todo).map Prod.fst ∨ o.Removes F k := by
  cases o with
  | getNext =>
    left
    cases h : s.todo with
    | nil => simp [h] at hk
    | cons kv todo => simpa [tour, Tour.next, h] using hk
  | remove key =>
    obtain ⟨kv, hkv, rfl⟩ := List.mem_map.mp hk
    by_cases hc : F.compareKey key kv.1 = true
    · exact Or.inr hc
    · exact Or.inl (List.mem_map_of_mem (List.mem_filter.mpr ⟨hkv, by simpa using hc⟩))
  | put key value =>
    left
    change k ∈ (if (s.held key).isSome then overwrite F key value s.todo else []).map Prod.fst
    rwa [if_pos (ho key rfl), overwrite_keys]
  | putV key value =>
    left
    change k ∈ (if (s.held key).isSome then overwrite F key value s.todo else []).map Prod.fst
    rwa [if_pos (ho key rfl), overwrite_keys]

lemma run_covers (s : Tour K V)
    (hput : Along (tour F) (fun s o => ∀ key, o.stores = some key → (s.held key).isSome) s os)
    (hk : k ∈ s.todo.map Prod.fst) :
    k ∈ ((runSteps (tour F) s os).1.reduceOption ++ (runSteps (tour F) s os).2.todo).map Prod.fst ∨
      ∃ o ∈ os, o.Removes F k := by
  induction os generalizing s with
  | nil => exact Or.inl hk
  | cons o os ih =>
    rw [run_cons, List.append_assoc, List.map_append, List.mem_append]
    rcases tour_covers (F := F) s hput.1 hk with h | h
    · rw [List.map_append, List.mem_append] at h
      rcases h with h | h
      · exact Or.inl (Or.inl h)
      · rcases ih _ hput.2 h with h | ⟨o', ho', h⟩
        · exact Or.inl (Or.inr h)
        · exact Or.inr ⟨o', List.mem_cons_of_mem _ ho', h⟩
    · exact Or.inr ⟨o, List.mem_cons_self .., h⟩

end Runs

lemma Tours.getR (h : Tours F t s) (k : K) : t.getR F k = some (s.held k) := by
  obtain ⟨bucket, seq, m, rest, h⟩ := h
  have hget : (t.setCursor 0 0).getR F k = some (lookup F m k) := getR_spec h.rep
  change (t.setCursor 0 0).getR F k = _
  rw [hget, h.held]

lemma Tours.containsKey (h : Tours F t s) (k : K) : t.containsKey F k = some (s.held k).isSome := by
  obtain ⟨bucket, seq, m, rest, h⟩ := h
  have hget : (t.setCursor 0 0).containsKey F k = some (lookup F m k).isSome := containsKey_spec h.rep
  change (t.setCursor 0 0).containsKey F k = _
  rw [hget, h.held]

lemma Tours.held_todo (h : Tours F t s) {kv : K × V} (hkv : kv ∈ s.todo) : s.held kv.1 = some kv.2 := by
  obtain ⟨bucket, seq, m, rest, h⟩ := h
  obtain ⟨l, r, rfl⟩ := List.append_of_mem (h.mem hkv)
  rw [← h.held, lookup_middle h.rep.distinct, if_pos (F.equiv.refl kv.1)]

lemma exists_pairs {h : Heap (HashEntry K V)} {ps : List ℕ} (hps : ∀ p ∈ ps, ∃ e, h.cells p = some e) :
    ∃ l : List (K × V), ps.map (pair h) = l.map some := by
  induction ps with
  | nil => exact ⟨[], rfl⟩
  | cons p ps ih =>
    obtain ⟨e, he⟩ := hps p (by simp)
    obtain ⟨l, hl⟩ := ih fun q hq => hps q (List.mem_cons_of_mem _ hq)
    exact ⟨(e.key, e.value) :: l, by simp [pair, he, hl]⟩

lemma Distinct.perm {l : List (K × V)} (hd : Distinct F m) (hp : l.Perm m) : Distinct F l := by
  refine (hp.pairwise_iff fun {a b} h => ?_).mpr hd
  rw [Bool.eq_false_iff] at h ⊢
  exact fun h' => h (F.equiv.symm h')

lemma Tours.reset (h : Tours F t s) :
    Returns t.reset fun (_, t₁) => ∃ all, Tours F t₁ ⟨s.held, all⟩ ∧ Distinct F all ∧
      ∀ k, (s.held k).isSome → ∃ kv ∈ all, F.compareKey k kv.1 = true := by
  obtain ⟨bucket, seq, m, rest, h⟩ := h
  obtain ⟨c, u, hnext, hp⟩ := nextBucket_points h.shape (n := t.tableLength) (i := 0) (by omega)
  have hperm := buckets_perm h.shape
  obtain ⟨all, hall⟩ := exists_pairs (h := t.heap) fun p hp => h.shape.cell (hperm.mem_iff.mp hp)
  have hm : all.Perm m := by
    have hmap := hperm.map (pair t.heap)
    rw [hall, show seq.map (pair t.heap) = m.map some from h.rep.entries] at hmap
    exact (List.map_perm_map_iff (Option.some_injective _)).mp hmap
  have htours : Tours F (t.setCursor c u) ⟨s.held, all⟩ :=
    ⟨bucket, seq, m, _, h.shape.setCursor c u, h.rep, h.held, hp, hall⟩
  refine ⟨_, by rw [CHashTable.reset, hnext]; rfl, all, htours, h.rep.distinct.perm hm, fun k hk => ?_⟩
  rw [← h.held, lookup, Option.isSome_map, List.find?_isSome] at hk
  obtain ⟨kv, hkv, hk⟩ := hk
  exact ⟨kv, hm.mem_iff.mpr hkv, hk⟩

inductive Call (K V : Type) where
  | op (o : Op K V)
  | reset
  | getNext

def call (F : KeyFns K) (t : CHashTable K V) : Call K V → Option (Unit × CHashTable K V)
  | .op o => (t.exec F o).map fun (_, t) => ((), t)
  | .reset => t.reset.map fun (_, t) => ((), t)
  | .getNext => t.getNext.map fun (_, t) => ((), t)

lemma exec_tours (h : Tours F t s) (o : Op K V) : Returns (t.exec F o) fun (_, t') => ∃ s', Tours F t' s' := by
  cases o with
  | put key value =>
    rw [exec, putR, Option.map_map]
    exact (h.put key value).map fun _ h' => ⟨_, h'⟩
  | putV key value =>
    rw [exec, putV, Option.map_map]
    exact (h.put key value).map fun _ h' => ⟨_, h'⟩
  | get key =>
    rw [exec, h.getR]
    exact (returns_some _ _).mpr ⟨s, h⟩
  | containsKey key =>
    rw [exec, h.containsKey]
    exact (returns_some _ _).mpr ⟨s, h⟩
  | remove key => exact (h.remove key).map fun _ h' => ⟨_, h'⟩
  | clear =>
    obtain ⟨bucket, seq, m, rest, h⟩ := h
    refine (clear_spec h.shape h.bound).map ?_
    rintro t' ⟨⟨bucket', hs⟩, hcount, hcur, -⟩
    have hrep : Rep F (t'.setCursor 0 0) [] [] := ⟨⟨bucket', hs.setCursor 0 0⟩, rfl, by simp [Distinct], hcount, rfl⟩
    exact ⟨⟨lookup F [], []⟩, bucket', [], [], [], hs, hrep, fun _ => rfl, Or.inl ⟨hcur, rfl⟩, rfl⟩
  | size => exact (returns_some _ _).mpr ⟨s, h⟩

lemma call_tours (h : Tours F t s) (o : Call K V) : Returns (t.call F o) fun (_, t') => ∃ s', Tours F t' s' := by
  cases o with
  | op o => exact (exec_tours h o).map fun _ h' => h'
  | reset => exact h.reset.map fun _ ⟨all, h', _⟩ => ⟨_, h'⟩
  | getNext =>
    rw [call, getNext_eq, Option.map_map]
    exact h.next.map fun _ h' => ⟨_, h'.2⟩

lemma tours_new (F : KeyFns K) (length : ℕ) (loadFactor : Float) :
    ∃ s, Tours F (initTable length loadFactor : CHashTable K V) s := by
  obtain ⟨seq, m, hr, -⟩ := stands_new (F := F) (V := V) length loadFactor
  obtain ⟨bucket, hs⟩ := hr.shape
  exact ⟨⟨lookup F m, []⟩, bucket, seq, m, [], hs, hr.setCursor 0, fun _ => rfl, Or.inl ⟨hr.cur, rfl⟩, rfl⟩

lemma runCalls_tours (F : KeyFns K) (length : ℕ) (loadFactor : Float) (calls : List (Call K V)) :
    Returns (runCalls (call F) (initTable length loadFactor) calls) fun (_, t) => ∃ s, Tours F t s :=
  runCalls_returns (fun t => ∃ s, Tours F t s) (fun _ o ⟨_, h⟩ => call_tours h o) (tours_new F length loadFactor) calls

structure Visits (F : KeyFns K) (t t₁ : CHashTable K V) (os : List (Turn K V)) (rs : List (Option (K × V)))
    (t' : CHashTable K V) : Prop where
  once : Distinct F rs.reduceOption
  present : ∀ kv ∈ rs.reduceOption, t.containsKey F kv.1 = some true
  next : Returns t'.getNextPair fun (r, _) => ∀ kv, r = some kv →
    t'.getR F kv.1 = some (some kv.2) ∧ ∀ o ∈ os, ¬ o.Removes F kv.1
  complete : Returns t'.getNextPair fun (r, _) => r = none →
    Throughout (turn F) (fun t o => ∀ key, o.stores = some key → t.containsKey F key = some true) t₁ os →
      ∀ k, t.containsKey F k = some true →
        (∃ kv ∈ rs.reduceOption, F.compareKey k kv.1 = true) ∨ ∃ o ∈ os, o.Removes F k
  interrupted : ∀ o key, o.stores = some key → t'.containsKey F key = some false →
    Returns (t'.turn F o) fun (_, t'') => t''.getNextPair = some (none, t'')

lemma distinct_of_keys {l : List (K × V)} (hd : Distinct F m) (h : l.map Prod.fst <+ m.map Prod.fst) : Distinct F l := by
  have hkeys : (m.map Prod.fst).Pairwise fun a b => F.compareKey a b = false := List.pairwise_map.mpr hd
  exact List.pairwise_map.mp (hkeys.sublist h)

lemma Tours.interrupted (h : Tours F t s) {o : Turn K V} (ho : o.stores = some key) (hk : t.containsKey F key = some false) :
    Returns (t.turn F o) fun (_, t') => t'.getNextPair = some (none, t') := by
  refine (turn_tours h o).mono ?_
  rintro ⟨r, t'⟩ ⟨-, h'⟩
  have htodo : (tour F s o).2.todo = [] := by
    rw [h.containsKey, Option.some.injEq] at hk
    cases o with
    | put key' value =>
      obtain rfl : key' = key := Option.some.inj ho
      exact if_neg (by simp [hk])
    | putV key' value =>
      obtain rfl : key' = key := Option.some.inj ho
      exact if_neg (by simp [hk])
    | _ => cases ho
  obtain ⟨bucket, seq, m, rest, h'⟩ := h'
  have hrest : rest = [] := by simpa [htodo] using h'.pairs
  have hcur := h'.points.cur_eq
  rw [hrest] at hcur
  change t'.getNextPair = _
  rw [getNextPair, if_pos (show t'.pcurEntry = 0 from hcur)]

lemma Tours.covers {t₁ : CHashTable K V} {os : List (Turn K V)} (h₁ : Tours F t₁ s)
    (hput : Throughout (turn F) (fun t o => ∀ key, o.stores = some key → t.containsKey F key = some true) t₁ os)
    (hdone : (runSteps (tour F) s os).2.todo = []) {kv : K × V} (hkv : kv ∈ s.todo) {k : K}
    (hk : F.compareKey k kv.1 = true) :
    (∃ kv ∈ (runSteps (tour F) s os).1.reduceOption, F.compareKey k kv.1 = true) ∨ ∃ o ∈ os, o.Removes F k := by
  have halong : Along (tour F) (fun s o => ∀ key, o.stores = some key → (s.held key).isSome) s os := by
    refine along_of_throughout (Tours F) (fun t s o h => (turn_tours h o).mono fun _ h => h.2) ?_ h₁ hput
    intro t s o h hc key ho
    have hkey := hc key ho
    rwa [h.containsKey, Option.some.injEq] at hkey
  rcases run_covers s halong (List.mem_map_of_mem hkv) with hret | ⟨o, ho, hrem⟩
  · rw [hdone, List.append_nil] at hret
    obtain ⟨kv', hkv', hfst⟩ := List.mem_map.mp hret
    exact Or.inl ⟨kv', hkv', hfst ▸ hk⟩
  · refine Or.inr ⟨o, ho, ?_⟩
    cases o with
    | remove key => exact F.equiv.trans hrem (F.equiv.symm hk)
    | _ => exact hrem

lemma Tours.visits {t₁ : CHashTable K V} {all : List (K × V)} (h : Tours F t s) (h₁ : Tours F t₁ ⟨s.held, all⟩)
    (hd : Distinct F all) (hall : ∀ k, (s.held k).isSome → ∃ kv ∈ all, F.compareKey k kv.1 = true) (os : List (Turn K V)) :
    Returns (runCalls (turn F) t₁ os) fun (rs, t') => Visits F t t₁ os rs t' := by
  refine (runCalls_refines (Tours F) (fun t s o h => turn_tours h o) h₁ os).mono ?_
  rintro ⟨rs, t'⟩ ⟨rfl, h'⟩
  have hkeys := run_keys (F := F) ⟨s.held, all⟩ os
  refine ⟨?_, fun kv hkv => ?_, ?_, ?_, fun o key ho hk => h'.interrupted ho hk⟩
  · rw [List.map_append] at hkeys
    exact distinct_of_keys hd ((List.sublist_append_left _ _).trans hkeys)
  · obtain ⟨kv', hkv', hfst⟩ := List.mem_map.mp (hkeys.subset (List.mem_map_of_mem (List.mem_append_left _ hkv)))
    have hheld : s.held kv'.1 = some kv'.2 := h₁.held_todo hkv'
    rw [h.containsKey, ← hfst, hheld]
    rfl
  · refine h'.next.mono ?_
    rintro ⟨r, t''⟩ ⟨rfl, -⟩ kv hkv
    have hmem := List.mem_of_mem_head? hkv
    refine ⟨?_, fun o ho hrem => run_removed _ ho hrem (List.mem_map_of_mem hmem)⟩
    rw [h'.getR, h'.held_todo hmem]
  · refine h'.next.mono ?_
    rintro ⟨r, t''⟩ ⟨rfl, -⟩ hnone hput k hk
    rw [h.containsKey, Option.some.injEq] at hk
    obtain ⟨kv, hkv, hc⟩ := hall k hk
    exact h₁.covers hput (List.head?_eq_none_iff.mp hnone) hkv hc

theorem traversal_visits (F : KeyFns K) (length : ℕ) (loadFactor : Float) (calls : List (Call K V)) :
    Returns (runCalls (call F) (initTable length loadFactor) calls) fun (_, t) =>
      Returns t.reset fun (_, t₁) => ∀ os : List (Turn K V),
        Returns (runCalls (turn F) t₁ os) fun (rs, t') => Visits F t t₁ os rs t' := by
  refine (runCalls_tours F length loadFactor calls).mono ?_
  rintro ⟨-, t⟩ ⟨s, h⟩
  refine h.reset.mono ?_
  rintro ⟨-, t₁⟩ ⟨all, h₁, hd, hall⟩ os
  exact h.visits h₁ hd hall os

end CHashTable

end Xframe.Comserv
