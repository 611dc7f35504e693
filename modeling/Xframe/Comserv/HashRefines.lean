import Xframe.Lib.Refine
import Xframe.Comserv.HashSteps

/-! A hash table answers every call as its history demands: the value of a key is that of the last put
of an equal key behind which there is neither a removal of the key nor a clear. -/

namespace Xframe.Comserv

open Xframe.Lib

variable {K V : Type}

def KeyFns.setoid (F : KeyFns K) : Setoid K := ⟨fun a b => F.compareKey a b = true, F.equiv⟩

namespace CHashTable

def latest (F : KeyFns K) : List (Op K V) → K → Option V
  | [], _ => none
  | .put key value :: hist, k => if F.compareKey k key then some value else latest F hist k
  | .putV key value :: hist, k => if F.compareKey k key then some value else latest F hist k
  | .remove key :: hist, k => if F.compareKey k key then none else latest F hist k
  | .clear :: _, _ => none
  | .get _ :: hist, k => latest F hist k
  | .containsKey _ :: hist, k => latest F hist k
  | .size :: hist, k => latest F hist k

def liveKeys (F : KeyFns K) (hist : List (Op K V)) : Set (Quotient F.setoid) :=
  { q | ∃ k, q = Quotient.mk F.setoid k ∧ (latest F hist k).isSome }

/-- The answer that a history demands of a call. A put of a key without value answers its own value. -/
noncomputable def answer (F : KeyFns K) (hist : List (Op K V)) : Op K V → Ret V
  | .put key value => .value ((latest F hist key).getD value)
  | .putV _ _ => .done
  | .get key => .found (latest F hist key)
  | .containsKey key => .flag (latest F hist key).isSome
  | .remove key => .flag (latest F hist key).isSome
  | .clear => .done
  | .size => .count (liveKeys F hist).ncard

noncomputable def record (F : KeyFns K) (hist : List (Op K V)) (o : Op K V) : Ret V × List (Op K V) :=
  (answer F hist o, o :: hist)

def lookup (F : KeyFns K) (m : List (K × V)) (k : K) : Option V :=
  (m.find? fun kv => F.compareKey k kv.1).map Prod.snd

def Distinct (F : KeyFns K) (m : List (K × V)) : Prop :=
  m.Pairwise fun a b => F.compareKey a.1 b.1 = false

structure Rep (F : KeyFns K) (t : CHashTable K V) (seq : List ℕ) (m : List (K × V)) : Prop where
  shape : ∃ bucket, Shape t bucket seq
  data : seq.map (data t.heap) = m.map fun kv => some (F.getHash kv.1, kv.1, kv.2)
  distinct : Distinct F m
  count : t.entryCount = m.length
  cur : t.pcurEntry = 0

section Lookup

variable {F : KeyFns K} {m l r : List (K × V)} {kv : K × V} {k key : K}

lemma compareKey_congr (h : F.compareKey k key = true) (k' : K) : F.compareKey k' k = F.compareKey k' key := by
  rw [Bool.eq_iff_iff]
  exact ⟨fun h' => F.equiv.trans h' h, fun h' => F.equiv.trans h' (F.equiv.symm h)⟩

lemma lookup_eq_none : lookup F m k = none ↔ ∀ kv ∈ m, F.compareKey k kv.1 = false := by
  simp [lookup]

lemma Distinct.others (hd : Distinct F (l ++ kv :: r)) (hk : F.compareKey k kv.1 = true) :
    ∀ a ∈ l ++ r, F.compareKey k a.1 = false := by
  intro a ha
  have hne : F.compareKey kv.1 a.1 = false := by
    rw [Distinct, List.pairwise_append, List.pairwise_cons] at hd
    rcases List.mem_append.mp ha with ha | ha
    · have := hd.2.2 a ha kv (by simp)
      rw [Bool.eq_false_iff] at this ⊢
      exact fun h => this (F.equiv.symm h)
    · exact hd.2.1.1 a ha
  rw [Bool.eq_false_iff] at hne ⊢
  exact fun h => hne (F.equiv.trans (F.equiv.symm hk) h)

lemma lookup_middle (hd : Distinct F (l ++ kv :: r)) (k : K) :
    lookup F (l ++ kv :: r) k = if F.compareKey k kv.1 then some kv.2 else lookup F (l ++ r) k := by
  rw [lookup, lookup, List.find?_append, List.find?_append, List.find?_cons]
  split_ifs with hk
  · have hl : l.find? (fun kv => F.compareKey k kv.1) = none := by
      rw [List.find?_eq_none]
      intro a ha
      simp [hd.others hk a (List.mem_append_left _ ha)]
    simp [hl, hk]
  · simp [hk]

lemma lookup_snoc (hd : Distinct F (m ++ [kv])) (k : K) :
    lookup F (m ++ [kv]) k = if F.compareKey k kv.1 then some kv.2 else lookup F m k := by
  have := lookup_middle hd k
  rwa [List.append_nil] at this

def without (F : KeyFns K) (key : K) (m : List (K × V)) : List (K × V) := m.filter fun kv => !F.compareKey key kv.1

lemma lookup_without (key k : K) :
    lookup F (without F key m) k = if F.compareKey k key then none else lookup F m k := by
  split_ifs with hk
  · rw [lookup_eq_none]
    intro kv hkv
    have hne : F.compareKey key kv.1 = false := by simpa using (List.mem_filter.mp hkv).2
    rw [Bool.eq_false_iff] at hne ⊢
    exact fun h => hne (F.equiv.trans (F.equiv.symm hk) h)
  · rw [lookup, lookup, without, List.find?_filter]
    refine congrArg (Option.map Prod.snd) (congrArg (m.find? ·) (funext fun kv => ?_))
    cases hkv : F.compareKey k kv.1 with
    | false => simp
    | true =>
      have hne : F.compareKey key kv.1 = false := by
        rw [Bool.eq_false_iff]
        exact fun h => hk (F.equiv.trans hkv (F.equiv.symm h))
      simp [hne]

def upsert (F : KeyFns K) (key : K) (value : V) (m : List (K × V)) : List (K × V) :=
  if m.any fun kv => F.compareKey key kv.1 then m.map fun kv => if F.compareKey key kv.1 then (kv.1, value) else kv
  else m ++ [(key, value)]

lemma upsert_middle (hd : Distinct F (l ++ kv :: r)) (hk : F.compareKey key kv.1 = true) (value : V) :
    upsert F key value (l ++ kv :: r) = l ++ (kv.1, value) :: r := by
  have hself : ∀ a ∈ l ++ r, (if F.compareKey key a.1 then (a.1, value) else a) = id a := by
    intro a ha
    rw [if_neg (by simp [hd.others hk a ha])]
    rfl
  have hl := List.map_congr_left fun a ha => hself a (List.mem_append_left r ha)
  have hr := List.map_congr_left fun a ha => hself a (List.mem_append_right l ha)
  rw [upsert, if_pos (by simp [hk]), List.map_append, List.map_cons, hl, hr, if_pos hk, List.map_id, List.map_id]

lemma upsert_new (hno : lookup F m key = none) (value : V) : upsert F key value m = m ++ [(key, value)] := by
  rw [upsert, if_neg]
  simpa using lookup_eq_none.mp hno

lemma Distinct.snoc (hd : Distinct F m) (hno : lookup F m key = none) (value : V) : Distinct F (m ++ [(key, value)]) := by
  rw [Distinct, List.pairwise_append]
  refine ⟨hd, by simp, ?_⟩
  intro a ha b hb
  obtain rfl := List.mem_singleton.mp hb
  have := lookup_eq_none.mp hno a ha
  rw [Bool.eq_false_iff] at this ⊢
  exact fun h => this (F.equiv.symm h)

lemma Distinct.set (hd : Distinct F (l ++ kv :: r)) (value : V) : Distinct F (l ++ (kv.1, value) :: r) := by
  rw [Distinct, List.pairwise_append, List.pairwise_cons] at hd ⊢
  refine ⟨hd.1, hd.2.1, ?_⟩
  intro a ha b hb
  rcases List.mem_cons.mp hb with rfl | hb
  · exact hd.2.2 a ha kv List.mem_cons_self
  · exact hd.2.2 a ha b (List.mem_cons_of_mem _ hb)

lemma lookup_upsert (hd : Distinct F m) (key : K) (value : V) (k : K) :
    lookup F (upsert F key value m) k = if F.compareKey k key then some value else lookup F m k := by
  by_cases hno : lookup F m key = none
  · rw [upsert_new hno, lookup_snoc (hd.snoc hno value)]
  · rw [lookup_eq_none] at hno
    push Not at hno
    obtain ⟨kv, hkv, hne⟩ := hno
    have hk := Bool.eq_true_of_not_eq_false hne
    obtain ⟨l, r, rfl⟩ := List.append_of_mem hkv
    rw [upsert_middle hd hk, lookup_middle (hd.set value), lookup_middle hd, compareKey_congr hk]
    split_ifs <;> rfl

lemma without_eq_self (hno : ∀ kv ∈ m, F.compareKey key kv.1 = false) : without F key m = m :=
  List.filter_eq_self.mpr fun kv hkv => by simp [hno kv hkv]

lemma without_middle (hd : Distinct F (l ++ kv :: r)) (hk : F.compareKey key kv.1 = true) :
    without F key (l ++ kv :: r) = l ++ r := by
  rw [← without_eq_self (hd.others hk)]
  simp [without, hk]

end Lookup

variable {F : KeyFns K} {t : CHashTable K V} {seq : List ℕ} {m : List (K × V)} {key : K}

namespace Rep

lemma length_eq (hr : Rep F t seq m) : seq.length = m.length := by
  have := congrArg List.length hr.data
  simpa using this

lemma split (hr : Rep F t seq m) {sl sr : List ℕ} {x : ℕ} (hx : seq = sl ++ x :: sr) :
    ∃ l kv r, m = l ++ kv :: r ∧ CHashTable.data t.heap x = some (F.getHash kv.1, kv.1, kv.2) ∧
      sl.map (CHashTable.data t.heap) = l.map (fun kv => some (F.getHash kv.1, kv.1, kv.2)) ∧
      sr.map (CHashTable.data t.heap) = r.map (fun kv => some (F.getHash kv.1, kv.1, kv.2)) := by
  have hd := hr.data
  rw [hx, List.map_append, List.map_cons] at hd
  obtain ⟨l, r', rfl, hl, hr'⟩ := List.map_eq_append_iff.mp hd.symm
  obtain ⟨kv, r, rfl, hkv, hr⟩ := List.map_eq_cons_iff.mp hr'
  exact ⟨l, kv, r, rfl, hkv.symm, hl.symm, hr.symm⟩

lemma entry (hr : Rep F t seq m) {kv : K × V} (hkv : kv ∈ m) :
    ∃ x ∈ seq, ∃ e, t.heap.cells x = some e ∧ e.hash = F.getHash kv.1 ∧ e.key = kv.1 ∧ e.value = kv.2 := by
  have : some (F.getHash kv.1, kv.1, kv.2) ∈ seq.map (CHashTable.data t.heap) := by
    rw [hr.data]
    exact List.mem_map.mpr ⟨kv, hkv, rfl⟩
  obtain ⟨x, hx, hd⟩ := List.mem_map.mp this
  obtain ⟨e, he, heq⟩ := Option.map_eq_some_iff.mp hd
  simp only [Prod.mk.injEq] at heq
  exact ⟨x, hx, e, he, heq.1, heq.2.1, heq.2.2⟩

lemma not_in_chain (hr : Rep F t seq m) {bucket : ℕ → List ℕ} (hs : Shape t bucket seq)
    (hno : ∀ x ∈ bucket (t.index (F.getHash key)), ∀ e, t.heap.cells x = some e → F.compareKey key e.key = false) :
    lookup F m key = none := by
  rw [lookup_eq_none]
  intro kv hkv
  obtain ⟨x, hx, e, he, hhash, hkey, -⟩ := hr.entry hkv
  by_contra hk
  rw [Bool.not_eq_false] at hk
  have hh : e.hash = F.getHash key := hhash.trans (F.hash_eq _ _ (F.equiv.symm hk))
  have hi := index_lt hs.pos (F.getHash key)
  have hmem := (hs.mem _ hi x).mpr ⟨hx, by rw [slot_of_cell he, hh]⟩
  have := hno x hmem e he
  rw [hkey, hk] at this
  simp at this

end Rep

lemma search_spec {h : Heap (HashEntry K V)} {p fuel : ℕ} {ps : List ℕ}
    (hw : Walk (h.links HashEntry.next) p ps 0) (hf : ps.length < fuel) :
    Returns (search F h key fuel p) fun q =>
      (q = 0 ∧ ∀ x ∈ ps, ∀ e, h.cells x = some e → F.compareKey key e.key = false) ∨
        (q ∈ ps ∧ ∃ e, h.cells q = some e ∧ F.compareKey key e.key = true) := by
  induction ps generalizing p fuel with
  | nil =>
    obtain ⟨fuel, rfl⟩ : ∃ n, fuel = n + 1 := ⟨fuel - 1, by simp at hf; omega⟩
    obtain rfl : p = 0 := hw
    simp [search]
  | cons x ps ih =>
    obtain ⟨fuel, rfl⟩ : ∃ n, fuel = n + 1 := ⟨fuel - 1, by simp at hf; omega⟩
    obtain ⟨rfl, y, hy, hw⟩ := hw
    obtain ⟨e, he, rfl⟩ := cell_of_links hy
    rw [search, if_neg (cell_ne_zero he)]
    refine Returns.of_bind (show h.read p = some e from he) ?_
    split_ifs with hk
    · rw [returns_some]
      exact Or.inr ⟨by simp, e, he, hk⟩
    · refine (ih hw (by simpa using hf)).mono ?_
      rintro q (⟨rfl, hno⟩ | ⟨hq, hyes⟩)
      · refine Or.inl ⟨rfl, ?_⟩
        intro x hx f hf'
        rcases List.mem_cons.mp hx with rfl | hx
        · rw [he, Option.some.injEq] at hf'
          rw [← hf']
          simpa using hk
        · exact hno x hx f hf'
      · exact Or.inr ⟨List.mem_cons_of_mem _ hq, hyes⟩

lemma find_spec (key : K) (hr : Rep F t seq m) :
    Returns (t.find F key) fun q => (q = 0 ∧ lookup F m key = none) ∨
      (q ≠ 0 ∧ ∃ sl sr l kv r e, seq = sl ++ q :: sr ∧ m = l ++ kv :: r ∧
        sl.map (data t.heap) = l.map (fun kv => some (F.getHash kv.1, kv.1, kv.2)) ∧
        sr.map (data t.heap) = r.map (fun kv => some (F.getHash kv.1, kv.1, kv.2)) ∧
        t.heap.cells q = some e ∧ e.hash = F.getHash kv.1 ∧ e.key = kv.1 ∧ e.value = kv.2 ∧
        F.compareKey key kv.1 = true) := by
  obtain ⟨bucket, hs⟩ := hr.shape
  have hi := index_lt hs.pos (F.getHash key)
  obtain ⟨p, hp, hw⟩ := hs.head hi
  have hlen := hs.bucket_length hi
  have hcount := hr.count
  have hseq := hr.length_eq
  refine Returns.of_bind hp ?_
  refine (search_spec hw (by omega)).mono ?_
  rintro q (⟨rfl, hno⟩ | ⟨hq, e, he, hk⟩)
  · exact Or.inl ⟨rfl, hr.not_in_chain hs hno⟩
  · refine Or.inr ⟨cell_ne_zero he, ?_⟩
    obtain ⟨sl, sr, hsplit⟩ := List.append_of_mem ((hs.mem _ hi q).mp hq).1
    obtain ⟨l, kv, r, hm, hd, hl, hr'⟩ := hr.split hsplit
    rw [data, he, Option.map_some, Option.some.injEq, Prod.mk.injEq, Prod.mk.injEq] at hd
    exact ⟨sl, sr, l, kv, r, e, hsplit, hm, hl, hr', he, hd.1, hd.2.1, hd.2.2, hd.2.1 ▸ hk⟩

lemma getR_spec (hr : Rep F t seq m) : t.getR F key = some (lookup F m key) := by
  obtain ⟨q, hq, h⟩ := find_spec key hr
  rw [getR, hq, Option.bind_eq_bind, Option.bind_some]
  rcases h with ⟨rfl, hnone⟩ | ⟨h0, sl, sr, l, kv, r, e, -, rfl, -, -, he, -, -, hv, hk⟩
  · rw [if_pos rfl, hnone]
  · rw [if_neg h0, lookup_middle hr.distinct, if_pos hk, Heap.read, he, ← hv]
    rfl

lemma containsKey_spec (hr : Rep F t seq m) : t.containsKey F key = some (lookup F m key).isSome := by
  obtain ⟨q, hq, h⟩ := find_spec key hr
  rw [containsKey, hq, Option.bind_eq_bind, Option.bind_some]
  rcases h with ⟨rfl, hnone⟩ | ⟨h0, sl, sr, l, kv, r, e, -, rfl, -, -, -, -, -, -, hk⟩
  · simp [hnone]
  · simp [lookup_middle hr.distinct, hk, h0]

lemma Shape.setValue {bucket : ℕ → List ℕ} (hs : Shape t bucket seq) {x : ℕ} {e : HashEntry K V}
    (he : t.heap.cells x = some e) (v : V) :
    ∃ h, t.write x (fun e => { e with value := v }) = some { t with heap := h } ∧
      h.cells = Function.update t.heap.cells x (some { e with value := v }) ∧ Shape { t with heap := h } bucket seq := by
  obtain ⟨h, hw, hc⟩ := write_spec (t := t) he fun e => { e with value := v }
  have hslot : ∀ y, slot { t with heap := h } y = t.slot y := by
    intro y
    by_cases hy : y = x <;> simp [slot, CHashTable.data, hc, hy, he, index]
  refine ⟨h, hw, hc, hs.pos, hs.length, ?_, ?_, ?_⟩
  · intro i p hp
    dsimp only
    rw [Heap.links_same he hc rfl]
    exact hs.chain i p hp
  · intro i hi p
    rw [hslot, hs.mem i hi]
  · rw [seqNext, seqPrev, Heap.links_same he hc rfl, Heap.links_same he hc rfl]
    exact hs.ring

lemma Rep.setValue {sl sr : List ℕ} {x : ℕ} {l r : List (K × V)} {kv : K × V} {e : HashEntry K V} {v : V}
    {bucket : ℕ → List ℕ} {h : Heap (HashEntry K V)} (hr : Rep F t (sl ++ x :: sr) (l ++ kv :: r))
    (hl : sl.map (CHashTable.data t.heap) = l.map fun kv => some (F.getHash kv.1, kv.1, kv.2))
    (hr' : sr.map (CHashTable.data t.heap) = r.map fun kv => some (F.getHash kv.1, kv.1, kv.2))
    (hh : e.hash = F.getHash kv.1) (hk : e.key = kv.1)
    (hc : h.cells = Function.update t.heap.cells x (some { e with value := v }))
    (hs : Shape { t with heap := h } bucket (sl ++ x :: sr)) :
    Rep F { t with heap := h } (sl ++ x :: sr) (l ++ (kv.1, v) :: r) := by
  have hx := hs.ring.remove_notMem
  have hsame : ∀ y ∈ sl ++ sr, CHashTable.data h y = CHashTable.data t.heap y := by
    intro y hy
    have : y ≠ x := fun h => hx (h ▸ List.mem_cons_of_mem _ hy)
    simp [CHashTable.data, hc, this]
  refine ⟨⟨bucket, hs⟩, ?_, hr.distinct.set v, ?_, hr.cur⟩
  · rw [List.map_append, List.map_cons, List.map_append, List.map_cons, ← hl, ← hr']
    have h1 : sl.map (CHashTable.data h) = sl.map (CHashTable.data t.heap) :=
      List.map_congr_left fun y hy => hsame y (List.mem_append_left _ hy)
    have h2 : sr.map (CHashTable.data h) = sr.map (CHashTable.data t.heap) :=
      List.map_congr_left fun y hy => hsame y (List.mem_append_right _ hy)
    have h3 : CHashTable.data h x = some (F.getHash kv.1, kv.1, v) := by
      simp [CHashTable.data, hc, hh, hk]
    rw [h1, h2, h3]
  · have := hr.count
    simpa using this

lemma checkThreshold_spec {bucket : ℕ → List ℕ} (hs : Shape t bucket seq) (hcount : seq.length ≤ t.entryCount) :
    Returns t.checkThreshold fun t' => (∃ bucket, Shape t' bucket seq) ∧
      (∀ p, data t'.heap p = data t.heap p) ∧ t'.entryCount = t.entryCount ∧ t'.pcurEntry = t.pcurEntry := by
  rw [checkThreshold]
  split_ifs
  · exact rehash_spec hs hcount
  · exact (returns_some _ _).mpr ⟨⟨bucket, hs⟩, fun _ => rfl, rfl, rfl⟩

def keyAt (h : Heap (HashEntry K V)) (p : ℕ) : Option K := (CHashTable.data h p).map fun d => d.2.1

lemma putEntry_exact (key : K) (hr : Rep F t seq m) (value : V) :
    Returns (t.putEntry F key value) fun (old, t') => old = lookup F m key ∧ ∃ seq', Rep F t' seq' (upsert F key value m) ∧
      ∀ x ∈ seq, x ∈ seq' ∧ keyAt t'.heap x = keyAt t.heap x := by
  obtain ⟨q, hq, h⟩ := find_spec key hr
  refine Returns.of_bind hq ?_
  rcases h with ⟨rfl, hnone⟩ | ⟨h0, sl, sr, l, kv, r, e, rfl, rfl, hl, hr', he, hh, hkey, hv, hk⟩
  · obtain ⟨bucket, hs⟩ := hr.shape
    have hlen := hr.length_eq
    have hcount := hr.count
    simp only [ne_eq, not_true_eq_false, if_false]
    refine (checkThreshold_spec (hs.counters (t.entryCount + 1) (t.modCount + 1) 0 0) (by dsimp only; omega)).bind ?_
    rintro t₁ ⟨⟨bucket₁, hs₁⟩, hd₁, hc₁, hp₁⟩
    refine (newEntry_spec hs₁ (F.getHash key) key value).bind ?_
    rintro t₂ ⟨bucket₂, p, hp, hs₂, hdp, hd₂, hc₂, hp₂⟩
    have hdata : ∀ x ∈ seq, data t₂.heap x = data t.heap x := by
      intro x hx
      rw [hd₂ x fun e => hp (e ▸ hx), hd₁]
    rw [returns_some, upsert_new hnone]
    refine ⟨hnone.symm, seq ++ [p], ⟨⟨bucket₂, hs₂⟩, ?_, hr.distinct.snoc hnone value, ?_, hp₂.trans hp₁⟩, fun x hx => ?_⟩
    · rw [List.map_append, List.map_append, ← hr.data, List.map_singleton, List.map_singleton, hdp]
      exact congrArg (· ++ _) (List.map_congr_left hdata)
    · rw [hc₂, hc₁, List.length_append, List.length_singleton]
      exact congrArg (· + 1) hcount
    · rw [keyAt, hdata x hx]
      exact ⟨List.mem_append_left _ hx, rfl⟩
  · rw [if_pos h0]
    obtain ⟨bucket, hs⟩ := hr.shape
    have hr₁ : Rep F { t with modCount := t.modCount + 1 } (sl ++ q :: sr) (l ++ kv :: r) :=
      ⟨⟨bucket, hs.counters _ _ _ _⟩, hr.data, hr.distinct, hr.count, hr.cur⟩
    obtain ⟨h, hw, hc, hs'⟩ := (hs.counters t.entryCount (t.modCount + 1) t.pcurEntry t.uicurIndex).setValue he value
    have hrep := hr₁.setValue hl hr' hh hkey hc hs'
    refine Returns.of_bind (show t.heap.read q = some e from he) (Returns.of_bind hw ?_)
    rw [returns_some, upsert_middle hr.distinct hk]
    refine ⟨by rw [lookup_middle hr.distinct, if_pos hk, hv], _, hrep, fun x hx => ⟨hx, ?_⟩⟩
    by_cases hx' : x = q <;> simp [keyAt, data, hc, hx', he]

lemma putEntry_spec (key : K) (hr : Rep F t seq m) (value : V) :
    Returns (t.putEntry F key value) fun (old, t') => old = lookup F m key ∧ ∃ seq' m', Rep F t' seq' m' ∧
      ∀ k, lookup F m' k = if F.compareKey k key then some value else lookup F m k := by
  refine (putEntry_exact key hr value).mono ?_
  rintro ⟨old, t'⟩ ⟨hold, seq', hr', -⟩
  exact ⟨hold, seq', _, hr', lookup_upsert hr.distinct key value⟩

lemma Rep.dropped {sl sr : List ℕ} {x : ℕ} {e : HashEntry K V} {bucket : ℕ → List ℕ} {t' : CHashTable K V}
    (hr : Rep F t (sl ++ x :: sr) m) (he : t.heap.cells x = some e) (hk : F.compareKey key e.key = true)
    (hdrop : Dropped t t' bucket sl x sr) : Rep F t' (sl ++ sr) (without F key m) := by
  obtain ⟨l, kv, r, rfl, hd, hl, hr'⟩ := hr.split rfl
  rw [CHashTable.data, he, Option.map_some, Option.some.injEq, Prod.mk.injEq, Prod.mk.injEq] at hd
  obtain ⟨_, hs⟩ := hr.shape
  have hx := hs.ring.remove_notMem
  have hsame : ∀ y ∈ sl ++ sr, CHashTable.data t'.heap y = CHashTable.data t.heap y :=
    fun y hy => hdrop.data y fun h => hx (h ▸ List.mem_cons_of_mem _ hy)
  rw [without_middle hr.distinct (hd.2.1 ▸ hk)]
  refine ⟨⟨bucket, hdrop.shape⟩, ?_, hr.distinct.sublist (by simp), ?_, hdrop.cur.trans hr.cur⟩
  · rw [List.map_congr_left hsame, List.map_append, List.map_append, hl, hr']
  · rw [hdrop.count, hr.count]
    simp

lemma remove_exact (key : K) (hr : Rep F t seq m) :
    Returns (t.remove F key) fun (b, t') => b = (lookup F m key).isSome ∧ ∃ seq', Rep F t' seq' (without F key m) ∧
      ∀ x k, keyAt t.heap x = some k → (keyAt t'.heap x = some k ∧
        (x ∈ seq → F.compareKey key k = false → x ∈ seq')) ∨ x ∈ seq ∧ F.compareKey key k = true := by
  obtain ⟨bucket, hs⟩ := hr.shape
  have hlen := hr.length_eq
  have hcount := hr.count
  refine (remove_spec F key hs hr.cur (by omega)).mono ?_
  rintro ⟨b, t'⟩ (⟨rfl, rfl, hno⟩ | ⟨rfl, sl, x, sr, e, bucket', rfl, he, hk, hdrop⟩)
  · have hnone := hr.not_in_chain hs hno
    refine ⟨by simp [hnone], seq, ?_, fun x k hx => Or.inl ⟨hx, fun hmem _ => hmem⟩⟩
    rwa [without_eq_self (lookup_eq_none.mp hnone)]
  · refine ⟨?_, sl ++ sr, hr.dropped he hk hdrop, fun y k hy => ?_⟩
    · obtain ⟨l, kv, r, rfl, hd, -⟩ := hr.split rfl
      rw [data, he, Option.map_some, Option.some.injEq, Prod.mk.injEq, Prod.mk.injEq] at hd
      have hk' : F.compareKey key kv.1 = true := hd.2.1 ▸ hk
      simp [lookup_middle hr.distinct, hk']
    · by_cases hyx : y = x
      · subst hyx
        rw [keyAt, data, he, Option.map_some, Option.map_some, Option.some.injEq] at hy
        exact Or.inr ⟨by simp, hy ▸ hk⟩
      · rw [keyAt, hdrop.data y hyx]
        exact Or.inl ⟨hy, fun hmem _ => by simpa [hyx] using hmem⟩

lemma remove_rep (key : K) (hr : Rep F t seq m) :
    Returns (t.remove F key) fun (b, t') => b = (lookup F m key).isSome ∧ ∃ seq' m', Rep F t' seq' m' ∧
      ∀ k, lookup F m' k = if F.compareKey k key then none else lookup F m k := by
  refine (remove_exact key hr).mono ?_
  rintro ⟨b, t'⟩ ⟨hb, seq', hr', -⟩
  exact ⟨hb, seq', _, hr', lookup_without key⟩

lemma ncard_liveKeys {hist : List (Op K V)} (hd : Distinct F m) (hl : ∀ k, lookup F m k = latest F hist k) :
    (liveKeys F hist).ncard = m.length := by
  classical
  have hset : liveKeys F hist = ((m.map fun kv => Quotient.mk F.setoid kv.1).toFinset : Set (Quotient F.setoid)) := by
    ext q
    simp only [liveKeys, Set.mem_ofPred_eq, List.coe_toFinset, List.mem_map]
    constructor
    · rintro ⟨k, rfl, hk⟩
      rw [← hl, Option.isSome_iff_ne_none, ne_eq, lookup_eq_none] at hk
      push Not at hk
      obtain ⟨kv, hkv, hc⟩ := hk
      refine ⟨kv, hkv, Quotient.sound (s := F.setoid) ?_⟩
      exact F.equiv.symm (by simpa using hc)
    · rintro ⟨kv, hkv, rfl⟩
      refine ⟨kv.1, rfl, ?_⟩
      rw [← hl, Option.isSome_iff_ne_none, ne_eq, lookup_eq_none]
      intro h
      have := h kv hkv
      rw [F.equiv.refl kv.1] at this
      simp at this
  have hnodup : (m.map fun kv => Quotient.mk F.setoid kv.1).Nodup := by
    rw [List.Nodup, List.pairwise_map]
    refine hd.imp ?_
    intro a b hab he
    have : F.compareKey a.1 b.1 = true := Quotient.exact (s := F.setoid) he
    simp [hab] at this
  rw [hset, Set.ncard_coe_finset, List.toFinset_card_of_nodup hnodup, List.length_map]

def Stands (F : KeyFns K) (t : CHashTable K V) (hist : List (Op K V)) : Prop :=
  ∃ seq m, Rep F t seq m ∧ ∀ k, lookup F m k = latest F hist k

lemma stands_new (length : ℕ) (loadFactor : Float) : Stands F (initTable length loadFactor : CHashTable K V) [] := by
  refine ⟨[], [], ⟨⟨fun _ => [], ?_, ?_, ?_, ?_, ?_⟩, rfl, by simp [Distinct], rfl, rfl⟩, fun _ => rfl⟩
  · show 0 < if length < 8 then 8 else if 131072 < length then 131072 else length
    split_ifs <;> omega
  · simp [initTable]
  · intro i p hp
    exact (List.mem_replicate.mp (List.mem_of_getElem? hp)).2
  · simp
  · refine ⟨by simp, ?_, ?_⟩
    · exact ⟨rfl, 0, by simp [seqNext, initTable], rfl⟩
    · exact ⟨rfl, 0, by simp [seqPrev, initTable], rfl⟩

lemma exec_stands {hist : List (Op K V)} (h : Stands F t hist) (o : Op K V) :
    Returns (t.exec F o) fun (r, t') => r = (record F hist o).1 ∧ Stands F t' (record F hist o).2 := by
  obtain ⟨seq, m, hr, hl⟩ := h
  cases o with
  | put key value =>
    obtain ⟨⟨old, t'⟩, hput, rfl, seq', m', hr', hl'⟩ := putEntry_spec key hr value
    refine ⟨_, by rw [exec, putR, hput]; rfl, ?_, seq', m', hr', ?_⟩
    · dsimp only [record, answer]
      rw [hl]
    · intro k
      rw [hl', hl]
      rfl
  | putV key value =>
    obtain ⟨⟨old, t'⟩, hput, rfl, seq', m', hr', hl'⟩ := putEntry_spec key hr value
    refine ⟨_, by rw [exec, putV, hput]; rfl, rfl, seq', m', hr', ?_⟩
    intro k
    rw [hl', hl]
    rfl
  | get key =>
    refine ⟨_, by rw [exec, getR_spec hr]; rfl, ?_, seq, m, hr, hl⟩
    rw [record, answer, hl]
  | containsKey key =>
    refine ⟨_, by rw [exec, containsKey_spec hr]; rfl, ?_, seq, m, hr, hl⟩
    rw [record, answer, hl]
  | remove key =>
    obtain ⟨⟨b, t'⟩, hrem, rfl, seq', m', hr', hl'⟩ := remove_rep key hr
    refine ⟨_, by rw [exec, hrem]; rfl, ?_, seq', m', hr', ?_⟩
    · dsimp only [record, answer]
      rw [hl]
    · intro k
      rw [hl', hl]
      rfl
  | clear =>
    obtain ⟨bucket, hs⟩ := hr.shape
    have hlen := hr.length_eq
    obtain ⟨t', hclear, hs', hc, hp, -⟩ := clear_spec hs (by rw [hr.count, hlen])
    refine ⟨_, by rw [exec, hclear]; rfl, rfl, [], [], ⟨hs', rfl, by simp [Distinct], hc, hp⟩, fun _ => rfl⟩
  | size =>
    refine ⟨_, rfl, ?_, seq, m, hr, hl⟩
    dsimp only [record, answer]
    rw [ncard_liveKeys hr.distinct hl, size, hr.count]

lemma rehash_same {hist : List (Op K V)} (h : Stands F t hist) :
    Returns t.rehash fun t' => Stands F t' hist ∧ t'.size = t.size ∧
      ∀ k, t'.getR F k = t.getR F k := by
  obtain ⟨seq, m, hr, hl⟩ := h
  obtain ⟨bucket, hs⟩ := hr.shape
  have hlen := hr.length_eq
  refine (rehash_spec hs (by rw [hr.count, hlen])).mono ?_
  rintro t' ⟨hs', hd, hc, hp⟩
  have hr' : Rep F t' seq m :=
    ⟨hs', by rw [← hr.data]; exact List.map_congr_left fun y _ => hd y, hr.distinct, hc.trans hr.count,
      hp.trans hr.cur⟩
  refine ⟨⟨seq, m, hr', hl⟩, hc, ?_⟩
  intro k
  rw [getR_spec hr', getR_spec hr]

theorem calls_refine_map (F : KeyFns K) (length : ℕ) (loadFactor : Float) (os : List (Op K V)) :
    Returns (runCalls (exec F) (initTable length loadFactor) os) fun (rs, t) =>
      rs = (runSteps (record F) [] os).1 ∧
        Returns t.rehash fun t' => t'.size = t.size ∧ ∀ k, t'.getR F k = t.getR F k := by
  have hrun := runCalls_refines (Stands F) (fun t hist o h => exec_stands h o)
    (stands_new length loadFactor) os
  refine hrun.mono ?_
  rintro ⟨rs, t⟩ ⟨hrs, hst⟩
  exact ⟨hrs, (rehash_same hst).mono fun t' h => h.2⟩

end CHashTable

end Xframe.Comserv
