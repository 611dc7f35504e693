import Xframe.Comserv.HashShape

/-! Removing an entry, clearing the table and rehashing it, on the shape of the table. -/

namespace Xframe.Comserv.CHashTable

open Xframe.Lib

variable {K V : Type} {t : CHashTable K V} {bucket : ℕ → List ℕ} {seq l r : List ℕ} {p x i : ℕ}

structure Dropped (t t' : CHashTable K V) (bucket : ℕ → List ℕ) (l : List ℕ) (x : ℕ) (r : List ℕ) : Prop where
  shape : Shape t' bucket (l ++ r)
  data : ∀ q ≠ x, data t'.heap q = data t.heap q
  count : t'.entryCount = t.entryCount - 1
  cur : t'.pcurEntry = t.pcurEntry

lemma Unchained.dropEntry (hu : Unchained t bucket l x r) :
    Returns (t.dropEntry x) fun t' => Dropped t t' bucket l x r := by
  obtain ⟨t', ht', hs, hd, hc, hp, -⟩ := hu.drop
  refine ⟨{ t' with entryCount := t'.entryCount - 1, modCount := t'.modCount + 1 }, ?_, ?_⟩
  · rw [CHashTable.dropEntry, ← bind_assoc, ht']
    rfl
  · exact ⟨hs.counters _ _ _ _, hd, by rw [← hc], hp⟩

lemma Shape.unchain_head (hs : Shape t bucket (l ++ x :: r)) (hi : i < t.tableLength) {b : List ℕ}
    (hb : bucket i = x :: b) {e : HashEntry K V} (he : t.heap.cells x = some e) :
    Unchained { t with table := t.table.set i e.next } (Function.update bucket i b) l x r := by
  refine ⟨hs.pos, by simpa using hs.length, ?_, ?_, hs.ring⟩
  · intro j p hp
    dsimp only at hp
    by_cases hj : j = i
    · subst hj
      rw [List.getElem?_set_self (hs.length.symm ▸ hi), Option.some.injEq] at hp
      obtain ⟨q, -, hw⟩ := hs.head hi
      rw [hb] at hw
      obtain ⟨-, y, hy, hw⟩ := hw
      rw [Heap.links, he, Option.map_some, Option.some.injEq] at hy
      rw [Function.update_self, ← hp, hy]
      exact hw
    · rw [List.getElem?_set_ne (Ne.symm hj)] at hp
      rw [Function.update_of_ne hj]
      exact hs.chain j p hp
  · exact hs.mem_unchain hi (a := []) hb

lemma Shape.unchain_behind (hs : Shape t bucket (l ++ x :: r)) (hi : i < t.tableLength) {u : ℕ} {a b : List ℕ}
    (hb : bucket i = a ++ u :: x :: b) {e : HashEntry K V} (he : t.heap.cells x = some e) :
    ∃ h, t.write u (fun f => { f with next := e.next }) = some { t with heap := h } ∧
      (∀ q, data h q = data t.heap q) ∧
      Unchained { t with heap := h } (Function.update bucket i (a ++ u :: b)) l x r := by
  have hu : u ∈ l ++ x :: r := ((hs.mem i hi u).mp (by simp [hb])).1
  obtain ⟨f, hf⟩ := hs.cell hu
  obtain ⟨h, hh, hc⟩ := write_spec (t := t) hf fun f => { f with next := e.next }
  have hdata : ∀ q, data h q = data t.heap q := by
    intro q
    by_cases hq : q = u <;> simp [data, hc, hq, hf]
  have hn : h.links HashEntry.next = Function.update (t.heap.links HashEntry.next) u (some e.next) :=
    Heap.links_update hc _
  refine ⟨h, hh, hdata, hs.pos, hs.length, ?_, ?_, ?_⟩
  · intro j p hp
    have hjl : j < t.tableLength := by
      rw [← hs.length]
      exact (List.getElem?_eq_some_iff.mp hp).1
    dsimp only
    rw [hn]
    by_cases hj : j = i
    · subst hj
      have hw := hs.chain j p hp
      have hnodup := hs.bucket_nodup hi
      rw [hb] at hw hnodup
      rw [Function.update_self]
      exact hw.skip hnodup (by rw [Heap.links, he, Option.map_some])
    · rw [Function.update_of_ne hj]
      refine (hs.chain j p hp).update (fun hm => hj ?_) _
      have h1 := ((hs.mem j hjl u).mp hm).2
      have h2 := ((hs.mem i hi u).mp (by simp [hb])).2
      exact Option.some.inj (h1.symm.trans h2)
  · have := hs.mem_unchain hi (a := a ++ [u]) (b := b) (by simp [hb])
    intro j hj p
    have hslot : slot { t with heap := h } p = t.slot p := by
      rw [slot, slot, hdata]
      rfl
    rw [hslot, ← this j hj, List.append_assoc]
    rfl
  · refine hs.ring.congr ?_ ?_
    · intro y _
      rw [seqNext, seqNext, Heap.links_same hf hc rfl]
    · intro y _
      rw [seqPrev, seqPrev, Heap.links_same hf hc rfl]

variable {F : KeyFns K} {key : K}

def Removed (F : KeyFns K) (key : K) (t : CHashTable K V) (seq chain : List ℕ) (b : Bool) (t' : CHashTable K V) :
    Prop :=
  (b = false ∧ t' = t ∧ ∀ x ∈ chain, ∀ e, t.heap.cells x = some e → F.compareKey key e.key = false) ∨
    (b = true ∧ ∃ l x r e bucket, seq = l ++ x :: r ∧ t.heap.cells x = some e ∧
      F.compareKey key e.key = true ∧ Dropped t t' bucket l x r)

abbrev Leaves (t : CHashTable K V) (Q : ℕ → ℕ → ℕ → Prop) (x : ℕ) : Prop :=
  ∃ c u, t.leaveEntry x = some (t.setCursor c u) ∧ Q x c u

def RemovedUnder (F : KeyFns K) (key : K) (t : CHashTable K V) (bucket : ℕ → List ℕ) (seq chain : List ℕ)
    (Q : ℕ → ℕ → ℕ → Prop) (b : Bool) (t' : CHashTable K V) : Prop :=
  (b = false ∧ t' = t ∧ ∀ x ∈ chain, ∀ e, t.heap.cells x = some e → F.compareKey key e.key = false) ∨
    (b = true ∧ ∃ l x r e c u, seq = l ++ x :: r ∧ t.heap.cells x = some e ∧ F.compareKey key e.key = true ∧
      Q x c u ∧ Dropped (t.setCursor c u) t' (fun j => (bucket j).filter (· ≠ x)) l x r ∧
      t'.uicurIndex = u ∧ t'.tableLength = t.tableLength)

lemma RemovedUnder.cons {chain : List ℕ} {Q : ℕ → ℕ → ℕ → Prop} {b : Bool} {t' : CHashTable K V} {e : HashEntry K V}
    (h : RemovedUnder F key t bucket seq chain Q b t') (he : t.heap.cells p = some e)
    (hk : F.compareKey key e.key = false) : RemovedUnder F key t bucket seq (p :: chain) Q b t' := by
  rcases h with ⟨rfl, rfl, hno⟩ | hyes
  · refine Or.inl ⟨rfl, rfl, ?_⟩
    intro x hx f hf
    rcases List.mem_cons.mp hx with rfl | hx
    · rw [← Option.some.inj (he.symm.trans hf)]
      exact hk
    · exact hno x hx f hf
  · exact Or.inr hyes

lemma dropEntry_frame {t' : CHashTable K V} (h : t.dropEntry x = some t') :
    t'.uicurIndex = t.uicurIndex ∧ t'.tableLength = t.tableLength := by
  have hwrite : ∀ {s s' : CHashTable K V} {p : ℕ} {f : HashEntry K V → HashEntry K V}, s.write p f = some s' →
      s'.uicurIndex = s.uicurIndex ∧ s'.tableLength = s.tableLength := by
    intro s s' p f hw
    obtain ⟨h, -, rfl⟩ := Option.map_eq_some_iff.mp hw
    exact ⟨rfl, rfl⟩
  obtain ⟨t₁, hseq, h⟩ := Option.bind_eq_some_iff.mp h
  obtain ⟨t₂, hdel, h⟩ := Option.bind_eq_some_iff.mp h
  have hlast : t₁.uicurIndex = t.uicurIndex ∧ t₁.tableLength = t.tableLength := by
    obtain ⟨e, -, hseq⟩ := Option.bind_eq_some_iff.mp hseq
    split_ifs at hseq
    · cases hseq
      exact ⟨rfl, rfl⟩
    · have hw := hwrite hseq
      exact hw
    · have hw := hwrite hseq
      exact hw
    · obtain ⟨t₃, h3, hseq⟩ := Option.bind_eq_some_iff.mp hseq
      obtain ⟨h1, h2⟩ := hwrite h3
      obtain ⟨h1', h2'⟩ := hwrite hseq
      exact ⟨h1'.trans h1, h2'.trans h2⟩
  obtain ⟨hp, -, rfl⟩ := Option.map_eq_some_iff.mp hdel
  cases h
  exact hlast

lemma Shape.congr_bucket {bucket' : ℕ → List ℕ} (hs : Shape t bucket seq) (h : ∀ j < t.tableLength, bucket' j = bucket j) :
    Shape t bucket' seq := by
  refine ⟨hs.pos, hs.length, fun i p hp => ?_, fun i hi p => ?_, hs.ring⟩
  · have hi : i < t.tableLength := by
      rw [← hs.length]
      exact (List.getElem?_eq_some_iff.mp hp).1
    rw [h i hi]
    exact hs.chain i p hp
  · rw [h i hi]
    exact hs.mem i hi p

lemma Shape.update_filter (hs : Shape t bucket seq) (hi : i < t.tableLength) {a b : List ℕ} (hb : bucket i = a ++ x :: b) :
    ∀ j < t.tableLength, (bucket j).filter (· ≠ x) = Function.update bucket i (a ++ b) j := by
  intro j hj
  have hslot := ((hs.mem i hi x).mp (by simp [hb])).2
  by_cases hji : j = i
  · subst hji
    have hn := hs.bucket_nodup hi
    rw [hb, List.nodup_middle, List.nodup_cons] at hn
    have hself : (a ++ b).filter (· ≠ x) = a ++ b := by
      rw [List.filter_eq_self]
      intro y hy
      simpa using fun h : y = x => hn.1 (h ▸ hy)
    rw [Function.update_self, hb, ← hself]
    simp
  · rw [Function.update_of_ne hji, List.filter_eq_self]
    intro y hy
    have hne : y ≠ x := by
      rintro rfl
      have := ((hs.mem j hj y).mp hy).2
      rw [hslot, Option.some.injEq] at this
      exact hji this.symm
    simpa using hne

lemma Unchained.dropEntry_under (bucket : ℕ → List ℕ) {bucket' : ℕ → List ℕ} {t₁ : CHashTable K V}
    (hu : Unchained t₁ bucket' l x r)
    (hbucket : ∀ j < t.tableLength, bucket j = bucket' j) (hlen : t₁.tableLength = t.tableLength)
    (hdata : ∀ q, data t₁.heap q = data t.heap q) (hcount : t₁.entryCount = t.entryCount)
    (hcur : t₁.pcurEntry = t.pcurEntry) :
    Returns (t₁.dropEntry x) fun t' => Dropped t t' bucket l x r ∧
      t'.uicurIndex = t₁.uicurIndex ∧ t'.tableLength = t₁.tableLength := by
  obtain ⟨t', ht', hdrop⟩ := hu.dropEntry
  obtain ⟨hidx, htl⟩ := dropEntry_frame ht'
  refine ⟨t', ht', ⟨hdrop.shape.congr_bucket fun j hj => hbucket j (by omega), fun q hq => ?_, ?_, hdrop.cur.trans hcur⟩, hidx, htl⟩
  · rw [hdrop.data q hq, hdata]
  · rw [hdrop.count, hcount]

lemma removeBehind_under {Q : ℕ → ℕ → ℕ → Prop} (hs : Shape t bucket seq) (hi : i < t.tableLength)
    (hleave : ∀ p ∈ bucket i, Leaves t Q p) {fuel u : ℕ} {a ps : List ℕ} (hb : bucket i = a ++ u :: ps)
    (hw : Walk (t.heap.links HashEntry.next) p ps 0) (hf : ps.length < fuel) :
    Returns (removeBehind F key fuel t u p) fun (b, t') => RemovedUnder F key t bucket seq ps Q b t' := by
  induction ps generalizing p fuel u a with
  | nil =>
    obtain rfl : p = 0 := hw
    obtain ⟨fuel, rfl⟩ := Nat.exists_eq_add_of_lt hf
    simp [removeBehind, RemovedUnder]
  | cons x ps ih =>
    obtain ⟨fuel, rfl⟩ : ∃ n, fuel = n + 1 := ⟨fuel - 1, by simp at hf; omega⟩
    obtain ⟨rfl, y, hy, hw⟩ := hw
    obtain ⟨e, he, rfl⟩ := cell_of_links hy
    have h0 := cell_ne_zero he
    rw [removeBehind, if_neg h0]
    refine Returns.of_bind (show t.heap.read p = some e from he) ?_
    split_ifs with hk
    · have hmem : p ∈ seq := ((hs.mem i hi p).mp (by simp [hb])).1
      obtain ⟨l, r, rfl⟩ := List.append_of_mem hmem
      obtain ⟨c, w, hc, hQ⟩ := hleave p (by simp [hb])
      obtain ⟨h, hh, hd, hu⟩ := (hs.setCursor c w).unchain_behind hi hb he
      refine Returns.of_bind hc ?_
      refine Returns.of_bind hh ?_
      have hfilter := hs.update_filter hi (x := p) (a := a ++ [u]) (b := ps) (by simp [hb])
      refine (hu.dropEntry_under (t := t.setCursor c w) (fun j => (bucket j).filter (· ≠ p))
        (fun j hj => ?_) rfl hd rfl rfl).bind fun t' ⟨hdrop, hidx, htl⟩ => ?_
      · rw [hfilter j hj, List.append_assoc]
        rfl
      · rw [returns_some]
        exact Or.inr ⟨rfl, l, p, r, e, c, w, rfl, he, hk, hQ, hdrop, hidx, htl⟩
    · refine (ih (a := a ++ [u]) (u := p) (by simp [hb]) hw (by simpa using hf)).mono ?_
      exact fun _ hremoved => hremoved.cons he (Bool.eq_false_iff.mpr hk)

lemma remove_under {Q : ℕ → ℕ → ℕ → Prop} (F : KeyFns K) (key : K) (hs : Shape t bucket seq) (hcount : seq.length ≤ t.entryCount)
    (hleave : ∀ p ∈ bucket (t.index (F.getHash key)), Leaves t Q p) :
    Returns (t.remove F key) fun (b, t') => RemovedUnder F key t bucket seq (bucket (t.index (F.getHash key))) Q b t' := by
  have hi := index_lt hs.pos (F.getHash key)
  obtain ⟨p, hp, hw⟩ := hs.head hi
  refine Returns.of_bind hp ?_
  cases hb : bucket (t.index (F.getHash key)) with
  | nil =>
    rw [hb] at hw
    obtain rfl : p = 0 := hw
    simp [RemovedUnder]
  | cons x ps =>
    rw [hb] at hw
    obtain ⟨rfl, y, hy, hw⟩ := hw
    obtain ⟨e, he, rfl⟩ := cell_of_links hy
    have h0 := cell_ne_zero he
    rw [if_neg h0]
    refine Returns.of_bind (show t.heap.read p = some e from he) ?_
    split_ifs with hk
    · have hmem : p ∈ seq := ((hs.mem _ hi p).mp (by simp [hb])).1
      obtain ⟨l, r, rfl⟩ := List.append_of_mem hmem
      obtain ⟨c, w, hc, hQ⟩ := hleave p (by simp [hb])
      refine Returns.of_bind hc ?_
      have hu := (hs.setCursor c w).unchain_head hi hb he
      have hfilter := hs.update_filter hi (x := p) (a := []) hb
      refine (hu.dropEntry_under (t := t.setCursor c w) (fun j => (bucket j).filter (· ≠ p))
        (fun j hj => hfilter j hj) rfl (fun _ => rfl) rfl rfl).bind fun t' ⟨hdrop, hidx, htl⟩ => ?_
      rw [returns_some]
      exact Or.inr ⟨rfl, l, p, r, e, c, w, rfl, he, hk, hQ, hdrop, hidx, htl⟩
    · have hlen := hs.bucket_length hi
      rw [hb, List.length_cons] at hlen
      refine (removeBehind_under hs hi hleave (a := []) hb hw (by omega)).mono ?_
      exact fun _ hremoved => hremoved.cons he (Bool.eq_false_iff.mpr hk)

lemma remove_spec (F : KeyFns K) (key : K) (hs : Shape t bucket seq) (hcur : t.pcurEntry = 0) (hcount : seq.length ≤ t.entryCount) :
    Returns (t.remove F key) fun (b, t') => Removed F key t seq (bucket (t.index (F.getHash key))) b t' := by
  have hleave : ∀ p ∈ bucket (t.index (F.getHash key)), Leaves t (fun _ c _ => c = t.pcurEntry) p := by
    intro p hp
    obtain ⟨e, he⟩ := hs.cell ((hs.mem _ (index_lt hs.pos _) p).mp hp).1
    have h0 := cell_ne_zero he
    exact ⟨t.pcurEntry, t.uicurIndex, by rw [leaveEntry, if_neg (by omega)]; rfl, rfl⟩
  refine (remove_under F key hs hcount hleave).mono ?_
  rintro ⟨b, t'⟩ (hno | ⟨rfl, l, x, r, e, c, u, hseq, he, hk, rfl, hdrop, -, -⟩)
  · exact Or.inl hno
  · exact Or.inr ⟨rfl, l, x, r, e, _, hseq, he, hk, hdrop.shape, hdrop.data, hdrop.count, hdrop.cur⟩

lemma Unchained.write_next (hu : Unchained t bucket l x r) (q : ℕ) :
    ∃ h, t.write x (fun e => { e with next := q }) = some { t with heap := h } ∧
      (∀ p, data h p = data t.heap p) ∧ Unchained { t with heap := h } bucket l x r := by
  obtain ⟨e, he⟩ := ring_cell hu.ring (p := x) (by simp)
  obtain ⟨h, hh, hc⟩ := write_spec (t := t) he fun e => { e with next := q }
  have hx := hu.ring.remove_notMem
  have hdata : ∀ p, data h p = data t.heap p := by
    intro p
    by_cases hp : p = x <;> simp [data, hc, hp, he]
  refine ⟨h, hh, hdata, hu.pos, hu.length, ?_, ?_, ?_⟩
  · intro i p hp
    have hi : i < t.tableLength := by
      rw [← hu.length]
      exact (List.getElem?_eq_some_iff.mp hp).1
    dsimp only
    rw [Heap.links_update hc]
    exact (hu.chain i p hp).update (fun hm => hx (List.mem_cons_of_mem _ ((hu.mem i hi x).mp hm).1)) _
  · intro i hi p
    have hslot : slot { t with heap := h } p = t.slot p := by
      rw [slot, slot, hdata]
      rfl
    rw [hslot, hu.mem i hi]
  · refine hu.ring.congr ?_ ?_
    · intro y _
      rw [seqNext, seqNext, Heap.links_same he hc rfl]
    · intro y _
      rw [seqPrev, seqPrev, Heap.links_same he hc rfl]

lemma clearBucket_spec (hs : Shape t bucket seq) (hi : i < t.tableLength) (fuel : ℕ)
    (hf : (bucket i).length < fuel) :
    Returns (clearBucket i fuel t) fun t' => ∃ seq', Shape t' (Function.update bucket i []) seq' ∧
      seq'.Sublist seq ∧ t'.tableLength = t.tableLength ∧ t'.entryCount = t.entryCount ∧
      (∀ q ∉ seq, data t'.heap q = data t.heap q) ∧ ∀ q ∈ seq, q ∈ seq' ∨ data t'.heap q = none := by
  induction hb : bucket i generalizing t bucket seq fuel with
  | nil =>
    obtain ⟨fuel, rfl⟩ : ∃ n, fuel = n + 1 := ⟨fuel - 1, by omega⟩
    obtain ⟨p, hp, hw⟩ := hs.head hi
    rw [hb] at hw
    obtain rfl : p = 0 := hw
    rw [clearBucket]
    refine Returns.of_bind hp ?_
    rw [if_pos rfl, returns_some, ← hb, Function.update_eq_self]
    exact ⟨seq, hs, List.Sublist.refl _, rfl, rfl, fun _ _ => rfl, fun _ hq => Or.inl hq⟩
  | cons x ps ih =>
    obtain ⟨fuel, rfl⟩ : ∃ n, fuel = n + 1 := ⟨fuel - 1, by omega⟩
    obtain ⟨p, hp, hw⟩ := hs.head hi
    rw [hb] at hw
    obtain ⟨rfl, y, hy, -⟩ := hw
    obtain ⟨e, he, rfl⟩ := cell_of_links hy
    have h0 := cell_ne_zero he
    obtain ⟨l, r, rfl⟩ := List.append_of_mem ((hs.mem i hi p).mp (by simp [hb])).1
    obtain ⟨h, hh, hd, hu⟩ := (hs.unchain_head hi hb he).write_next 0
    rw [clearBucket]
    refine Returns.of_bind hp ?_
    rw [if_neg h0]
    refine Returns.of_bind (show t.heap.read p = some e from he) ?_
    refine Returns.of_bind hh ?_
    rw [← bind_assoc]
    refine hu.drop.bind ?_
    rintro t' ⟨hs', hsame, hcount, -, hlen, -, hgone⟩
    have hi' : i < t'.tableLength := by
      rw [hlen]
      exact hi
    have hps : Function.update bucket i ps i = ps := Function.update_self _ _ _
    rw [hb] at hf
    refine (ih hs' hi' _ (by rw [hps]; simpa using hf) hps).mono ?_
    rintro t'' ⟨seq', hs'', hle, hlen', hcount', hout, hin⟩
    rw [Function.update_idem] at hs''
    refine ⟨seq', hs'', hle.trans (by simp), hlen'.trans hlen, hcount'.trans hcount, fun q hq => ?_, fun q hq => ?_⟩
    · rw [List.mem_append, List.mem_cons, not_or, not_or] at hq
      rw [hout q fun hq' => (List.mem_append.mp hq').elim hq.1 hq.2.2, hsame q hq.2.1, hd]
    · by_cases hqp : q = p
      · rw [hqp, hout p fun hp' => hu.ring.remove_notMem (List.mem_cons_of_mem _ hp'), hgone]
        exact Or.inr rfl
      · exact hin q (by simpa [hqp] using hq)

lemma clearBuckets_spec (n : ℕ) (hs : Shape t bucket seq) (hi : i + n = t.tableLength)
    (he : ∀ j < i, bucket j = []) (hcount : seq.length ≤ t.entryCount) :
    Returns (clearBuckets n i t) fun t' => (∃ bucket, Shape t' bucket []) ∧
      (∀ q ∉ seq, data t'.heap q = data t.heap q) ∧ ∀ q ∈ seq, data t'.heap q = none := by
  induction n generalizing t bucket seq i with
  | zero =>
    have hseq : seq = [] := by
      by_contra hne
      obtain ⟨p, hp⟩ := List.exists_mem_of_ne_nil seq hne
      obtain ⟨e, hce⟩ := hs.cell hp
      have hj := index_lt hs.pos e.hash
      have := (hs.mem _ hj p).mpr ⟨hp, slot_of_cell hce⟩
      rw [he _ (by omega)] at this
      simp at this
    exact (returns_some _ _).mpr ⟨⟨bucket, hseq ▸ hs⟩, fun _ _ => rfl, by simp [hseq]⟩
  | succ n ih =>
    have hil : i < t.tableLength := by omega
    have := hs.bucket_length hil
    rw [clearBuckets]
    refine (clearBucket_spec hs hil (t.entryCount + 1) (by omega)).bind ?_
    rintro t' ⟨seq', hs', hsub, hlen, hc, hout, hin⟩
    have hle := hsub.length_le
    have he' : ∀ j < i + 1, Function.update bucket i [] j = [] := by
      intro j hj
      by_cases hji : j = i
      · rw [hji, Function.update_self]
      · rw [Function.update_of_ne hji]
        exact he j (by omega)
    refine (ih hs' (by omega) he' (by omega)).mono ?_
    rintro t'' ⟨hs'', hout', hin'⟩
    refine ⟨hs'', fun q hq => ?_, fun q hq => ?_⟩
    · rw [hout' q fun hq' => hq (hsub.subset hq'), hout q hq]
    · by_cases hq' : q ∈ seq'
      · exact hin' q hq'
      · rw [hout' q hq']
        exact (hin q hq).resolve_left hq'

lemma clear_spec (hs : Shape t bucket seq) (hcount : seq.length ≤ t.entryCount) :
    Returns t.clear fun t' => (∃ bucket, Shape t' bucket []) ∧ t'.entryCount = 0 ∧ t'.pcurEntry = 0 ∧
      ∀ q ∈ seq, data t'.heap q = none := by
  refine (clearBuckets_spec t.tableLength hs (by omega) (by omega) hcount).bind ?_
  rintro t' ⟨⟨bucket', hs'⟩, -, hgone⟩
  rw [returns_some]
  exact ⟨⟨bucket', hs'.counters _ _ _ _⟩, rfl, rfl, hgone⟩

section Rehash

variable {h h' : Heap (HashEntry K V)} {n : ℕ} {table : List ℕ}

def SameTails (h h' : Heap (HashEntry K V)) : Prop :=
  ∀ p, (h'.cells p).map (fun e => { e with next := 0 }) = (h.cells p).map fun e => { e with next := 0 }

lemma SameTails.map {β : Type} (hs : SameTails h h') (g : HashEntry K V → β)
    (hg : ∀ e, g { e with next := 0 } = g e) (p : ℕ) : (h'.cells p).map g = (h.cells p).map g := by
  have := congrArg (Option.map g) (hs p)
  rw [Option.map_map, Option.map_map] at this
  have hcomp : (g ∘ fun e : HashEntry K V => { e with next := 0 }) = g := funext hg
  rwa [hcomp] at this

lemma SameTails.data (hs : SameTails h h') (p : ℕ) : CHashTable.data h' p = CHashTable.data h p :=
  hs.map _ (fun _ => rfl) p

def place (n : ℕ) (h : Heap (HashEntry K V)) (p : ℕ) : Option ℕ :=
  (data h p).map fun d => d.1.toNat % n

lemma SameTails.place (hs : SameTails h h') (p : ℕ) : CHashTable.place n h' p = CHashTable.place n h p := by
  rw [CHashTable.place, CHashTable.place, hs.data]

structure Chains (n : ℕ) (h : Heap (HashEntry K V)) (table : List ℕ) (bucket : ℕ → List ℕ) : Prop where
  length : table.length = n
  chain : ∀ i p, table[i]? = some p → Walk (h.links HashEntry.next) p (bucket i) 0

structure Moved (n : ℕ) (h : Heap (HashEntry K V)) (bucket : ℕ → List ℕ) (ps : List ℕ)
    (h' : Heap (HashEntry K V)) (table' : List ℕ) (bucket' : ℕ → List ℕ) : Prop where
  chains : Chains n h' table' bucket'
  mem : ∀ i < n, ∀ x, x ∈ bucket' i ↔ x ∈ bucket i ∨ x ∈ ps ∧ place n h x = some i
  tails : SameTails h h'
  links : ∀ x ∉ ps, h'.links HashEntry.next x = h.links HashEntry.next x

lemma Chains.push (hc : Chains n h table bucket) (hn : 0 < n) {e : HashEntry K V} (he : h.cells p = some e)
    (hp : ∀ i < n, p ∉ bucket i) :
    ∃ q h', table[e.hash.toNat % n]? = some q ∧ h.modify p (fun e => { e with next := q }) = some h' ∧
      Moved n h bucket [p] h' (table.set (e.hash.toNat % n) p)
        (Function.update bucket (e.hash.toNat % n) (p :: bucket (e.hash.toNat % n))) := by
  have hi : e.hash.toNat % n < n := Nat.mod_lt _ hn
  obtain ⟨q, hq⟩ : ∃ q, table[e.hash.toNat % n]? = some q :=
    ⟨_, List.getElem?_eq_getElem (by rw [hc.length]; exact hi)⟩
  have hw := hc.chain _ _ hq
  obtain ⟨h', hh, hcells, -⟩ := Heap.modify_spec he fun e => { e with next := q }
  have hplace : place n h p = some (e.hash.toNat % n) := by simp [place, data, he]
  have hn' := Heap.links_update hcells HashEntry.next
  refine ⟨q, h', hq, hh, ⟨by simpa using hc.length, ?_⟩, ?_, ?_, ?_⟩
  · intro j y hy
    rw [hn']
    by_cases hj : j = e.hash.toNat % n
    · subst hj
      rw [List.getElem?_set_self (by rw [hc.length]; exact hi), Option.some.injEq] at hy
      rw [Function.update_self, ← hy]
      exact ⟨rfl, q, Function.update_self _ _ _, hw.update (hp _ hi) _⟩
    · rw [List.getElem?_set_ne (Ne.symm hj)] at hy
      rw [Function.update_of_ne hj]
      refine (hc.chain j y hy).update (hp j ?_) _
      rw [← hc.length]
      exact (List.getElem?_eq_some_iff.mp hy).1
  · intro i hi x
    rw [List.mem_singleton]
    by_cases hx : x = p
    · subst hx
      rw [hplace, Option.some.injEq]
      by_cases hie : i = e.hash.toNat % n
      · simp [hie]
      · simp [Function.update_of_ne hie, Ne.symm hie]
    · by_cases hie : i = e.hash.toNat % n <;> simp [hie, hx]
  · intro x
    by_cases hx : x = p <;> simp [hcells, hx, he]
  · intro x hx
    rw [hn', Function.update_of_ne (by simpa using hx)]

lemma Moved.append {ps qs : List ℕ} {h'' : Heap (HashEntry K V)} {table' table'' : List ℕ}
    {bucket' bucket'' : ℕ → List ℕ} (h1 : Moved n h bucket ps h' table' bucket')
    (h2 : Moved n h' bucket' qs h'' table'' bucket'') : Moved n h bucket (ps ++ qs) h'' table'' bucket'' := by
  refine ⟨h2.chains, ?_, ?_, ?_⟩
  · intro i hi x
    rw [h2.mem i hi, h1.mem i hi, h1.tails.place, List.mem_append]
    tauto
  · intro x
    exact (h2.tails x).trans (h1.tails x)
  · intro x hx
    rw [List.mem_append, not_or] at hx
    rw [h2.links x hx.2, h1.links x hx.1]

lemma moveChain_spec (hc : Chains n h table bucket) (hn : 0 < n) {ps : List ℕ} {fuel : ℕ}
    (hw : Walk (h.links HashEntry.next) p ps 0) (hd : ∀ x ∈ ps, ∀ i < n, x ∉ bucket i)
    (hf : ps.length < fuel) :
    Returns (moveChain n fuel h table p) fun (h', table') =>
      ∃ bucket', Moved n h bucket ps h' table' bucket' := by
  induction ps generalizing h table bucket p fuel with
  | nil =>
    obtain ⟨fuel, rfl⟩ : ∃ n, fuel = n + 1 := ⟨fuel - 1, by simp at hf; omega⟩
    obtain rfl : p = 0 := hw
    rw [moveChain, if_pos rfl, returns_some]
    exact ⟨bucket, hc, by simp, fun _ => rfl, fun _ _ => rfl⟩
  | cons x ps ih =>
    obtain ⟨fuel, rfl⟩ : ∃ n, fuel = n + 1 := ⟨fuel - 1, by simp at hf; omega⟩
    have hnodup := hw.nodup (by rw [Heap.links, h.null, Option.map_none])
    obtain ⟨rfl, y, hy, hw⟩ := hw
    obtain ⟨e, he, rfl⟩ := cell_of_links hy
    rw [List.nodup_cons] at hnodup
    obtain ⟨q, h', hq, hh, hm⟩ := hc.push hn he (hd p (by simp))
    rw [moveChain, if_neg (cell_ne_zero he)]
    refine Returns.of_bind (show h.read p = some e from he) ?_
    refine Returns.of_bind hq ?_
    refine Returns.of_bind hh ?_
    have hlinks : ∀ z ∈ ps, h'.links HashEntry.next z = h.links HashEntry.next z := by
      intro z hz
      refine hm.links z ?_
      rw [List.mem_singleton]
      rintro rfl
      exact hnodup.1 hz
    refine (ih hm.chains (hw.congr hlinks) ?_ (by simpa using hf)).mono ?_
    · intro y hy i hi hmem
      rcases (hm.mem i hi y).mp hmem with h | ⟨h, -⟩
      · exact hd y (List.mem_cons_of_mem _ hy) i hi h
      · rw [List.mem_singleton] at h
        exact hnodup.1 (h ▸ hy)
    · rintro ⟨h'', table''⟩ ⟨bucket'', hm'⟩
      exact ⟨bucket'', hm.append hm'⟩

lemma moveChains_spec {fuel : ℕ} (hn : 0 < n) {old : List (ℕ × List ℕ)} (hc : Chains n h table bucket)
    (hw : ∀ c ∈ old, Walk (h.links HashEntry.next) c.1 c.2 0) (hnodup : (old.flatMap Prod.snd).Nodup)
    (hd : ∀ x ∈ old.flatMap Prod.snd, ∀ i < n, x ∉ bucket i) (hf : ∀ c ∈ old, c.2.length < fuel) :
    Returns (moveChains n fuel (old.map Prod.fst) h table) fun (h', table') =>
      ∃ bucket', Moved n h bucket (old.flatMap Prod.snd) h' table' bucket' := by
  induction old generalizing h table bucket with
  | nil =>
    rw [List.map_nil, moveChains, returns_some]
    exact ⟨bucket, hc, by simp, fun _ => rfl, fun _ _ => rfl⟩
  | cons c old ih =>
    rw [List.flatMap_cons] at hnodup hd ⊢
    rw [List.nodup_append] at hnodup
    obtain ⟨-, hnodup', hdisj⟩ := hnodup
    rw [List.map_cons, moveChains]
    refine (moveChain_spec hc hn (hw c (by simp)) (fun x hx => hd x (List.mem_append_left _ hx))
      (hf c (by simp))).bind ?_
    rintro ⟨h', table'⟩ ⟨bucket', hm⟩
    have hfree : ∀ x ∈ old.flatMap Prod.snd, x ∉ c.2 := fun x hx hx' => hdisj x hx' x hx rfl
    refine (ih hm.chains ?_ hnodup' ?_ fun d hd => hf d (List.mem_cons_of_mem _ hd)).mono ?_
    · intro d hd'
      refine (hw d (List.mem_cons_of_mem _ hd')).congr fun x hx => hm.links x (hfree x ?_)
      exact List.mem_flatMap.mpr ⟨d, hd', hx⟩
    · intro x hx i hi hmem
      rcases (hm.mem i hi x).mp hmem with h | ⟨h, -⟩
      · exact hd x (List.mem_append_right _ hx) i hi h
      · exact hfree x hx h
    · rintro ⟨h'', table''⟩ ⟨bucket'', hm'⟩
      exact ⟨bucket'', hm.append hm'⟩

lemma rehash_spec (hs : Shape t bucket seq) (hcount : seq.length ≤ t.entryCount) :
    Returns t.rehash fun t' => (∃ bucket, Shape t' bucket seq) ∧ (∀ p, data t'.heap p = data t.heap p) ∧
      t'.entryCount = t.entryCount ∧ t'.pcurEntry = t.pcurEntry := by
  rw [rehash]
  by_cases hmax : hashtableMaxLength ≤ t.tableLength
  · rw [if_pos hmax, returns_some]
    exact ⟨⟨bucket, hs⟩, fun _ => rfl, rfl, rfl⟩
  rw [if_neg hmax]
  set n := if hashtableMaxLength ≤ t.tableLength * 2 then hashtableMaxLength else t.tableLength * 2 with hn
  have hpos : 0 < n := by
    have := hs.pos
    rw [hn, hashtableMaxLength]
    split_ifs <;> omega
  have hold : ((List.range t.tableLength).map fun i => (t.table.getD i 0, bucket i)).map Prod.fst = t.table := by
    refine List.ext_getElem (by simp [hs.length]) ?_
    intro i h1 h2
    simp [List.getElem?_eq_getElem h2]
  have hmem : ∀ x, x ∈ ((List.range t.tableLength).map fun i => (t.table.getD i 0, bucket i)).flatMap Prod.snd ↔
      x ∈ seq := by
    intro x
    rw [List.flatMap_map, List.mem_flatMap]
    constructor
    · rintro ⟨i, hi, hx⟩
      exact ((hs.mem i (List.mem_range.mp hi) x).mp hx).1
    · intro hx
      obtain ⟨e, he⟩ := hs.cell hx
      have hi := index_lt hs.pos e.hash
      exact ⟨_, List.mem_range.mpr hi, (hs.mem _ hi x).mpr ⟨hx, slot_of_cell he⟩⟩
  have hwalk : ∀ c ∈ (List.range t.tableLength).map fun i => (t.table.getD i 0, bucket i),
      Walk (t.heap.links HashEntry.next) c.1 c.2 0 ∧ c.2.length < t.entryCount + 1 := by
    intro c hc
    obtain ⟨i, hi, rfl⟩ := List.mem_map.mp hc
    have hi := List.mem_range.mp hi
    obtain ⟨p, hp, hw⟩ := hs.head hi
    have := hs.bucket_length hi
    refine ⟨?_, by dsimp only; omega⟩
    dsimp only
    rwa [List.getD_eq_getElem?_getD, hp]
  have hnodup : (((List.range t.tableLength).map fun i => (t.table.getD i 0, bucket i)).flatMap Prod.snd).Nodup := by
    rw [List.flatMap_map, List.nodup_flatMap]
    refine ⟨fun i hi => hs.bucket_nodup (List.mem_range.mp hi), ?_⟩
    refine List.nodup_range.pairwise_of_forall_ne ?_
    intro i hi j hj hij x hx hx'
    have h1 := ((hs.mem i (List.mem_range.mp hi) x).mp hx).2
    have h2 := ((hs.mem j (List.mem_range.mp hj) x).mp hx').2
    exact hij (Option.some.inj (h1.symm.trans h2))
  have hempty : Chains n t.heap (List.replicate n 0) fun _ => [] := by
    refine ⟨List.length_replicate, ?_⟩
    intro i p hp
    exact (List.mem_replicate.mp (List.mem_of_getElem? hp)).2
  have hmove := moveChains_spec hpos hempty (fun c hc => (hwalk c hc).1) hnodup (by simp)
    fun c hc => (hwalk c hc).2
  rw [hold] at hmove
  refine hmove.bind ?_
  rintro ⟨h', table'⟩ ⟨bucket', hm⟩
  rw [returns_some]
  refine ⟨⟨bucket', hpos, hm.chains.length, hm.chains.chain, ?_, ?_⟩, hm.tails.data, rfl, rfl⟩
  · intro i hi x
    rw [hm.mem i hi, hmem, ← hm.tails.place]
    simp [place, slot, index]
  · refine hs.ring.congr ?_ ?_
    · intro y _
      simp [seqNext, Function.update_apply, Heap.links, hm.tails.map HashEntry.sNext (fun _ => rfl) y]
    · intro y _
      simp [seqPrev, Function.update_apply, Heap.links, hm.tails.map HashEntry.sPrev (fun _ => rfl) y]

end Rehash

end Xframe.Comserv.CHashTable
