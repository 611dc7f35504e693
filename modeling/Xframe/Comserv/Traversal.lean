import Xframe.Comserv.CListRefines
import Xframe.Comserv.HashRefines

/-! Loops over a container: the cursor of a hash table visits every entry once, and the iterator of a
list every element in order. -/

namespace Xframe.Comserv

open Xframe.Lib

variable {K V σ : Type}

namespace CHashTable

variable {F : KeyFns K} {t : CHashTable K V} {bucket : ℕ → List ℕ} {seq rest : List ℕ} {m : List (K × V)}

def Ahead (t : CHashTable K V) (bucket : ℕ → List ℕ) (rest : List ℕ) : Prop :=
  t.pcurEntry = 0 ∧ rest = [] ∨ t.uicurIndex < t.tableLength ∧ ∃ x l,
    Walk (t.heap.links HashEntry.next) t.pcurEntry (x :: l) 0 ∧
      rest = x :: l ++ (List.range' (t.uicurIndex + 1) (t.tableLength - (t.uicurIndex + 1))).flatMap bucket

def Points (t : CHashTable K V) (bucket : ℕ → List ℕ) (rest : List ℕ) : Prop :=
  t.pcurEntry = 0 ∧ rest = [] ∨ t.uicurIndex < t.tableLength ∧ ∃ a l,
    bucket t.uicurIndex = a ++ t.pcurEntry :: l ∧
      rest = t.pcurEntry :: l ++ (List.range' (t.uicurIndex + 1) (t.tableLength - (t.uicurIndex + 1))).flatMap bucket

lemma Points.walk (hs : Shape t bucket seq) (hu : t.uicurIndex < t.tableLength) {x : ℕ} {a l : List ℕ}
    (hb : bucket t.uicurIndex = a ++ x :: l) : Walk (t.heap.links HashEntry.next) x (x :: l) 0 := by
  obtain ⟨p, -, hw⟩ := hs.head hu
  rw [hb, walk_append] at hw
  obtain ⟨y, -, hy⟩ := hw
  obtain rfl : y = x := hy.1
  exact hy

lemma Points.ahead (hs : Shape t bucket seq) (hp : Points t bucket rest) : Ahead t bucket rest := by
  rcases hp with h0 | ⟨hu, a, l, hb, hrest⟩
  · exact Or.inl h0
  · exact Or.inr ⟨hu, t.pcurEntry, l, Points.walk hs hu hb, hrest⟩

lemma nextBucket_points (hs : Shape t bucket seq) {n i : ℕ} (hi : i + n = t.tableLength) :
    ∃ c u, t.nextBucket n i = some (t.setCursor c u) ∧ Points (t.setCursor c u) bucket ((List.range' i n).flatMap bucket) := by
  induction n generalizing i with
  | zero => exact ⟨0, 0, rfl, Or.inl ⟨rfl, rfl⟩⟩
  | succ n ih =>
    obtain ⟨p, hp, hw⟩ := hs.head (i := i) (by omega)
    rw [nextBucket, hp, Option.bind_eq_bind, Option.bind_some, List.range'_succ, List.flatMap_cons]
    cases hb : bucket i with
    | nil =>
      rw [hb] at hw
      obtain rfl : p = 0 := hw
      exact ih (by omega)
    | cons x l =>
      rw [hb] at hw
      obtain ⟨rfl, y, hy, -⟩ := hw
      obtain ⟨e, he, -⟩ := cell_of_links hy
      rw [if_pos (cell_ne_zero he)]
      have hn : t.tableLength - (i + 1) = n := by omega
      refine ⟨p, i, rfl, Or.inr ⟨?_, [], l, hb, ?_⟩⟩
      · change i < t.tableLength
        omega
      · change _ = p :: l ++ (List.range' (i + 1) (t.tableLength - (i + 1))).flatMap bucket
        rw [hn]

lemma nextBucket_spec (hs : Shape t bucket seq) {n i : ℕ} (hi : i + n = t.tableLength) :
    ∃ c u, t.nextBucket n i = some (t.setCursor c u) ∧ Ahead (t.setCursor c u) bucket ((List.range' i n).flatMap bucket) := by
  obtain ⟨c, u, hnext, hp⟩ := nextBucket_points hs hi
  exact ⟨c, u, hnext, hp.ahead (hs.setCursor c u)⟩

lemma getNext_none (h : Ahead t bucket []) : t.getNext = some (none, t) := by
  rcases h with ⟨h0, -⟩ | ⟨-, x, l, -, hrest⟩
  · rw [getNext, if_pos h0]
  · simp at hrest

lemma searchNextEntry_walk {x : ℕ} {l : List ℕ} (hw : Walk (t.heap.links HashEntry.next) t.pcurEntry (x :: l) 0) :
    t.searchNextEntry = match l with
      | [] => t.nextBucket (t.tableLength - (t.uicurIndex + 1)) (t.uicurIndex + 1)
      | z :: _ => some (t.setCursor z t.uicurIndex) := by
  obtain ⟨hcur, q, hq, hw⟩ := hw
  obtain ⟨e, he, rfl⟩ := cell_of_links hq
  have hread : t.heap.read t.pcurEntry = some e := by rw [hcur]; exact he
  rw [searchNextEntry, hread, Option.bind_eq_bind, Option.bind_some]
  cases l with
  | nil =>
    have hnext : e.next = 0 := hw
    rw [if_neg (not_not.mpr hnext)]
  | cons z l =>
    obtain ⟨rfl, y, hy, -⟩ := hw
    obtain ⟨f, hf, -⟩ := cell_of_links hy
    rw [if_pos (cell_ne_zero hf)]
    rfl

lemma searchNextEntry_spec (hs : Shape t bucket seq) (hu : t.uicurIndex < t.tableLength) {x : ℕ} {l : List ℕ}
    (hw : Walk (t.heap.links HashEntry.next) t.pcurEntry (x :: l) 0) :
    ∃ c u, t.searchNextEntry = some (t.setCursor c u) ∧ Ahead (t.setCursor c u) bucket
      (l ++ (List.range' (t.uicurIndex + 1) (t.tableLength - (t.uicurIndex + 1))).flatMap bucket) := by
  rw [searchNextEntry_walk hw]
  obtain ⟨-, q, -, hw⟩ := hw
  cases l with
  | nil => exact nextBucket_spec hs (by omega)
  | cons z l =>
    obtain rfl : q = z := hw.1
    exact ⟨q, t.uicurIndex, rfl, Or.inr ⟨hu, q, l, hw, rfl⟩⟩

lemma searchNextEntry_points (hs : Shape t bucket seq) (hu : t.uicurIndex < t.tableLength) {a l : List ℕ}
    (hb : bucket t.uicurIndex = a ++ t.pcurEntry :: l) :
    ∃ c u, t.searchNextEntry = some (t.setCursor c u) ∧ Points (t.setCursor c u) bucket
      (l ++ (List.range' (t.uicurIndex + 1) (t.tableLength - (t.uicurIndex + 1))).flatMap bucket) := by
  rw [searchNextEntry_walk (Points.walk hs hu hb)]
  cases l with
  | nil => exact nextBucket_points hs (by omega)
  | cons z l =>
    refine ⟨z, t.uicurIndex, rfl, Or.inr ⟨hu, a ++ [t.pcurEntry], l, ?_, rfl⟩⟩
    change bucket t.uicurIndex = a ++ [t.pcurEntry] ++ z :: l
    rw [hb, List.append_assoc]
    rfl

lemma getNext_some (hs : Shape t bucket seq) {x : ℕ} (h : Ahead t bucket (x :: rest)) :
    ∃ e c u, t.heap.cells x = some e ∧ t.getNext = some (some e.value, t.setCursor c u) ∧
      Ahead (t.setCursor c u) bucket rest := by
  rcases h with ⟨-, hnil⟩ | ⟨hu, y, l, hw, hrest⟩
  · simp at hnil
  rw [List.cons_append, List.cons.injEq] at hrest
  obtain ⟨rfl, rfl⟩ := hrest
  obtain ⟨c, u, hsearch, hahead⟩ := searchNextEntry_spec hs hu hw
  obtain ⟨hcur, q, hq, -⟩ := hw
  obtain ⟨e, he, rfl⟩ := cell_of_links hq
  have hread : t.heap.read t.pcurEntry = some e := by rw [hcur]; exact he
  refine ⟨e, c, u, he, ?_, hahead⟩
  rw [getNext, if_neg (by rw [hcur]; exact cell_ne_zero he), hread, Option.bind_eq_bind, Option.bind_some, hsearch]
  rfl

lemma whileNext_spec (body : σ → V → Option σ) (hs : Shape t bucket seq) {fuel : ℕ} (hf : rest.length < fuel)
    (h : Ahead t bucket rest) {vs : List V}
    (hv : rest.map (fun p => (t.heap.cells p).map HashEntry.value) = vs.map some) (s : σ) :
    ∃ u, whileNext body fuel t s = (vs.foldlM body s).map fun s => (s, t.setCursor 0 u) := by
  induction rest generalizing t fuel vs s with
  | nil =>
    obtain ⟨fuel, rfl⟩ : ∃ n, fuel = n + 1 := ⟨fuel - 1, by simp at hf; omega⟩
    obtain rfl : vs = [] := by simpa using hv
    have hcur : t.pcurEntry = 0 := by
      rcases h with ⟨h0, -⟩ | ⟨-, x, l, -, hrest⟩
      · exact h0
      · simp at hrest
    refine ⟨t.uicurIndex, ?_⟩
    rw [whileNext, getNext_none h]
    change some (s, t) = some (s, t.setCursor 0 t.uicurIndex)
    rw [setCursor, ← hcur]
  | cons x rest ih =>
    obtain ⟨fuel, rfl⟩ : ∃ n, fuel = n + 1 := ⟨fuel - 1, by simp at hf; omega⟩
    obtain ⟨e, c, u, he, hget, hahead⟩ := getNext_some hs h
    cases vs with
    | nil => simp at hv
    | cons v vs =>
      simp only [List.map_cons, List.cons.injEq, he, Option.map_some, Option.some.injEq] at hv
      obtain ⟨rfl, hv⟩ := hv
      rw [whileNext, hget, Option.bind_eq_bind, Option.bind_some, List.foldlM_cons]
      dsimp only
      cases hbody : body s e.value with
      | none => exact ⟨0, rfl⟩
      | some s' => exact ih (hs.setCursor c u) (by simpa using hf) hahead hv s'

lemma buckets_perm (hs : Shape t bucket seq) : ((List.range' 0 t.tableLength).flatMap bucket).Perm seq := by
  rw [List.perm_ext_iff_of_nodup ?_ (List.nodup_cons.mp hs.ring.nodup).2]
  · intro p
    rw [List.mem_flatMap]
    constructor
    · rintro ⟨i, hi, hp⟩
      rw [List.mem_range'_1] at hi
      exact ((hs.mem i (by omega) p).mp hp).1
    · intro hp
      obtain ⟨e, he⟩ := hs.cell hp
      have hlt := index_lt hs.pos e.hash
      refine ⟨t.index e.hash, ?_, (hs.mem _ hlt p).mpr ⟨hp, slot_of_cell he⟩⟩
      rw [List.mem_range'_1]
      omega
  · rw [List.nodup_flatMap]
    refine ⟨fun i hi => ?_, ?_⟩
    · rw [List.mem_range'_1] at hi
      exact hs.bucket_nodup (by omega)
    · refine (List.nodup_range' (n := t.tableLength)).imp_of_mem ?_
      intro i j hi hj hij p hpi hpj
      rw [List.mem_range'_1] at hi hj
      have hslot := ((hs.mem i (by omega) p).mp hpi).2
      rw [((hs.mem j (by omega) p).mp hpj).2] at hslot
      exact hij (Option.some.inj hslot).symm

lemma Rep.setCursor (hr : Rep F t seq m) (u : ℕ) : Rep F (t.setCursor 0 u) seq m := by
  obtain ⟨bucket, hs⟩ := hr.shape
  exact ⟨⟨bucket, hs.setCursor 0 u⟩, hr.data, hr.distinct, hr.count, rfl⟩

lemma Rep.entries (hr : Rep F t seq m) : seq.map (fun p => (t.heap.cells p).map fun e => (e.key, e.value)) = m.map some := by
  have hd := congrArg (List.map (Option.map fun d : UInt32 × K × V => (d.2.1, d.2.2))) hr.data
  simp only [List.map_map] at hd
  refine Eq.trans (List.map_congr_left fun p _ => ?_) hd
  rw [Function.comp_apply, CHashTable.data, Option.map_map]
  rfl

lemma forEach_spec (hr : Rep F t seq m) (body : σ → V → Option σ) (s : σ) :
    ∃ (l : List (K × V)) (u : ℕ), l.Perm m ∧ Rep F (t.setCursor 0 u) seq m ∧
      t.forEach body s = ((l.map Prod.snd).foldlM body s).map fun s => (s, t.setCursor 0 u) := by
  obtain ⟨bucket, hs⟩ := hr.shape
  obtain ⟨c, u, hreset, hahead⟩ := nextBucket_spec hs (n := t.tableLength) (i := 0) (by omega)
  set entry : ℕ → Option (K × V) := fun p => (t.heap.cells p).map fun e => (e.key, e.value) with hentry
  set all := (List.range' 0 t.tableLength).flatMap bucket
  have hperm : all.Perm seq := buckets_perm hs
  have hseq : seq.filterMap entry = m := by
    have hm := congrArg (List.filterMap id) hr.entries
    rwa [List.filterMap_map, List.filterMap_map, Function.id_comp, Function.id_comp, List.filterMap_some] at hm
  have hall : all.map entry = (all.filterMap entry).map some := by
    rw [List.map_filterMap_some_eq_filter_map_isSome, List.filter_eq_self.mpr]
    intro v hv
    have hmem := (hperm.map entry).mem_iff.mp hv
    rw [hr.entries] at hmem
    obtain ⟨w, -, rfl⟩ := List.mem_map.mp hmem
    rfl
  have hvalues : all.map (fun p => (t.heap.cells p).map HashEntry.value) =
      ((all.filterMap entry).map Prod.snd).map some := by
    have hm := congrArg (List.map (Option.map Prod.snd)) hall
    simp only [List.map_map] at hm ⊢
    refine Eq.trans (List.map_congr_left fun p _ => ?_) hm
    rw [Function.comp_apply, hentry, Option.map_map]
    rfl
  have hlen : all.length < t.entryCount + 1 := by
    rw [hperm.length_eq, hr.length_eq, hr.count]
    exact Nat.lt_succ_self _
  obtain ⟨u', hloop⟩ := whileNext_spec body (hs.setCursor c u) hlen hahead hvalues s
  refine ⟨all.filterMap entry, u', ?_, hr.setCursor u', ?_⟩
  · rw [← hseq]
    exact hperm.filterMap entry
  · rw [forEach, reset, hreset]
    exact hloop

def Maps (F : KeyFns K) (t : CHashTable K V) (f : K → Option V) : Prop :=
  ∃ seq m, Rep F t seq m ∧ ∀ k, lookup F m k = f k

variable {f : K → Option V}

lemma maps_new (length : ℕ) (loadFactor : Float) : Maps F (initTable length loadFactor : CHashTable K V) fun _ => none :=
  stands_new length loadFactor

lemma Maps.getR (h : Maps F t f) (k : K) : t.getR F k = some (f k) := by
  obtain ⟨seq, m, hr, hl⟩ := h
  rw [getR_spec hr, hl]

lemma Maps.containsKey (h : Maps F t f) (k : K) : t.containsKey F k = some (f k).isSome := by
  obtain ⟨seq, m, hr, hl⟩ := h
  rw [containsKey_spec hr, hl]

lemma Maps.putR (h : Maps F t f) (key : K) (value : V) :
    Returns (t.putR F key value) fun (_, t') => Maps F t' fun k => if F.compareKey k key then some value else f k := by
  obtain ⟨seq, m, hr, hl⟩ := h
  refine (putEntry_spec key hr value).map ?_
  rintro ⟨old, t'⟩ ⟨-, seq', m', hr', hl'⟩
  exact ⟨seq', m', hr', fun k => by rw [hl', hl]⟩

lemma Maps.remove (h : Maps F t f) (key : K) :
    Returns (t.remove F key) fun (_, t') => Maps F t' fun k => if F.compareKey k key then none else f k := by
  obtain ⟨seq, m, hr, hl⟩ := h
  refine (remove_rep key hr).mono ?_
  rintro ⟨b, t'⟩ ⟨-, seq', m', hr', hl'⟩
  exact ⟨seq', m', hr', fun k => by rw [hl', hl]⟩

lemma mem_iff_lookup (hF : ∀ a b, F.compareKey a b = true ↔ a = b) (hd : Distinct F m) {k : K} {v : V} :
    (k, v) ∈ m ↔ lookup F m k = some v := by
  constructor
  · intro hmem
    obtain ⟨l, r, rfl⟩ := List.append_of_mem hmem
    rw [lookup_middle hd, if_pos ((hF k k).mpr rfl)]
  · intro hlook
    obtain ⟨kv, hkv, rfl⟩ := Option.map_eq_some_iff.mp hlook
    have hk : F.compareKey k kv.1 = true := by simpa using List.find?_some hkv
    obtain rfl := (hF k kv.1).mp hk
    exact List.mem_of_find?_eq_some hkv

theorem Maps.forEach (h : Maps F t f) (hF : ∀ a b, F.compareKey a b = true ↔ a = b) (body : σ → V → Option σ) (s : σ) :
    ∃ (l : List (K × V)) (t' : CHashTable K V), (l.map Prod.fst).Nodup ∧ (∀ k v, (k, v) ∈ l ↔ f k = some v) ∧
      Maps F t' f ∧ t.forEach body s = ((l.map Prod.snd).foldlM body s).map fun s => (s, t') := by
  obtain ⟨seq, m, hr, hl⟩ := h
  obtain ⟨l, u, hperm, hr', hloop⟩ := forEach_spec hr body s
  refine ⟨l, t.setCursor 0 u, ?_, fun k v => ?_, ⟨seq, m, hr', hl⟩, hloop⟩
  · rw [(hperm.map Prod.fst).nodup_iff, List.Nodup, List.pairwise_map]
    refine hr.distinct.imp fun {a b} hab heq => ?_
    rw [(hF a.1 b.1).mpr heq] at hab
    simp at hab
  · rw [hperm.mem_iff, mem_iff_lookup hF hr.distinct, hl]

end CHashTable

namespace CList

variable {b : CList V} {q : CursorSeq V}

lemma end_eq (h : b.Represents q) : ∃ e, b.heap.read b.pTail = some e ∧ e.next = b.pTag := by
  have hl := h.linked
  rw [h.tail]
  cases hi : q.items using List.reverseRecOn with
  | nil =>
    rw [hi] at hl
    obtain ⟨v, hv⟩ := hl.read_tag
    exact ⟨_, hv, rfl⟩
  | append_singleton l x =>
    rw [hi] at hl
    rw [lastAddr_snoc]
    exact ⟨_, hl.read, rfl⟩

lemma whileIter_spec (h : b.Represents q) (body : σ → V → Option σ) {l r : List (ℕ × V)} (hi : q.items = l ++ r)
    {fuel : ℕ} (hf : r.length < fuel) (s : σ) :
    b.whileIter body fuel (headAddr b.pTag r) s = (r.map Prod.snd).foldlM body s := by
  obtain ⟨e, he, hend⟩ := end_eq h
  induction r generalizing l fuel s with
  | nil =>
    obtain ⟨fuel, rfl⟩ : ∃ n, fuel = n + 1 := ⟨fuel - 1, by simp at hf; omega⟩
    rw [whileIter, he, Option.bind_eq_bind, Option.bind_some, hend, if_pos (headAddr_nil _)]
    rfl
  | cons x r ih =>
    obtain ⟨fuel, rfl⟩ : ∃ n, fuel = n + 1 := ⟨fuel - 1, by simp at hf; omega⟩
    have hl := h.linked_at hi
    rw [whileIter, he, Option.bind_eq_bind, Option.bind_some, hend, if_neg (by simpa using hl.ne_tag),
      headAddr_cons, hl.read, Option.bind_some, List.map_cons, List.foldlM_cons]
    cases hbody : body s x.2 with
    | none => rfl
    | some s' => exact ih (l := l ++ [x]) (by rw [hi]; simp) (by simpa using hf) s'

theorem forIter_spec (h : b.Represents q) (body : σ → V → Option σ) (s : σ) :
    b.forIter body s = q.values.foldlM body s := by
  rw [forIter, h.head]
  exact whileIter_spec h body (l := []) rfl (by rw [h.count]; exact Nat.lt_succ_self _) s

end CList

end Xframe.Comserv
