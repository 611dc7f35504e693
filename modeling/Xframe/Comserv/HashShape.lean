import Xframe.Lib.Ring
import Xframe.Comserv.HashTable

/-! The shape of a hash table: every chain ends, the chains partition the sequence list by hash, and
the sequence list is linked both ways. Adding, removing and rehashing keep the shape. -/

namespace Xframe.Comserv.CHashTable

open Xframe.Lib

variable {K V : Type}

def seqNext (t : CHashTable K V) : ℕ → Option ℕ :=
  Function.update (t.heap.links HashEntry.sNext) 0 (some t.seqHead)

def seqPrev (t : CHashTable K V) : ℕ → Option ℕ :=
  Function.update (t.heap.links HashEntry.sPrev) 0 (some t.seqTail)

def data (h : Heap (HashEntry K V)) (p : ℕ) : Option (UInt32 × K × V) :=
  (h.cells p).map fun e => (e.hash, e.key, e.value)

def slot (t : CHashTable K V) (p : ℕ) : Option ℕ :=
  (data t.heap p).map fun d => t.index d.1

def setCursor (t : CHashTable K V) (c u : ℕ) : CHashTable K V := { t with pcurEntry := c, uicurIndex := u }

structure Shape (t : CHashTable K V) (bucket : ℕ → List ℕ) (seq : List ℕ) : Prop where
  pos : 0 < t.tableLength
  length : t.table.length = t.tableLength
  chain : ∀ i p, t.table[i]? = some p → Walk (t.heap.links HashEntry.next) p (bucket i) 0
  mem : ∀ i < t.tableLength, ∀ p, p ∈ bucket i ↔ p ∈ seq ∧ t.slot p = some i
  ring : Ring t.seqNext t.seqPrev 0 seq

variable {t : CHashTable K V} {h : Heap (HashEntry K V)} {bucket : ℕ → List ℕ} {seq l r : List ℕ} {p x : ℕ}

lemma write_spec {e : HashEntry K V} (he : t.heap.cells p = some e) (f : HashEntry K V → HashEntry K V) :
    ∃ h, t.write p f = some { t with heap := h } ∧
      h.cells = Function.update t.heap.cells p (some (f e)) := by
  obtain ⟨h, hh, hc, -⟩ := Heap.modify_spec he f
  exact ⟨h, by rw [write, hh, Option.map_some], hc⟩

lemma delete_spec {e : HashEntry K V} (he : t.heap.cells p = some e) :
    ∃ h, t.delete p = some { t with heap := h } ∧ h.cells = Function.update t.heap.cells p none := by
  obtain ⟨h, hh, hc, -⟩ := Heap.free_spec he
  exact ⟨h, by rw [delete, hh, Option.map_some], hc⟩

lemma cell_ne_zero {e : HashEntry K V} (he : h.cells p = some e) : p ≠ 0 := by
  rintro rfl
  rw [h.null] at he
  simp at he

lemma cell_of_links {g : HashEntry K V → ℕ} {q : ℕ} (hp : h.links g p = some q) :
    ∃ e, h.cells p = some e ∧ g e = q := by
  rwa [Heap.links, Option.map_eq_some_iff] at hp

lemma ring_cell (hr : Ring t.seqNext t.seqPrev 0 seq) (hp : p ∈ seq) :
    ∃ e, t.heap.cells p = some e := by
  have h0 : p ≠ 0 := by
    rintro rfl
    exact (List.nodup_cons.mp hr.nodup).1 hp
  have := hr.next_defined (List.mem_cons_of_mem _ hp)
  rw [seqNext, Function.update_of_ne h0, Heap.links] at this
  cases hc : t.heap.cells p with
  | none => simp [hc] at this
  | some e => exact ⟨e, rfl⟩

lemma ring_entry (hr : Ring t.seqNext t.seqPrev 0 (l ++ x :: r)) :
    ∃ e, t.heap.cells x = some e ∧ e.sNext = r.headD 0 ∧ e.sPrev = l.getLastD 0 := by
  obtain ⟨e, he⟩ := ring_cell hr (p := x) (by simp)
  have hn := hr.next_at
  have hp := hr.prev_at
  rw [seqNext, Function.update_of_ne hr.tag_ne, Heap.links, he] at hn
  rw [seqPrev, Function.update_of_ne hr.tag_ne, Heap.links, he] at hp
  exact ⟨e, he, Option.some.inj hn, Option.some.inj hp⟩

def body (e : HashEntry K V) : HashEntry K V := { e with sPrev := 0, sNext := 0 }

def SameBodies (h h' : Heap (HashEntry K V)) : Prop :=
  ∀ p, (h'.cells p).map body = (h.cells p).map body

lemma SameBodies.refl (h : Heap (HashEntry K V)) : SameBodies h h := fun _ => rfl

lemma SameBodies.of_update {h h' : Heap (HashEntry K V)} {e e' : HashEntry K V} (he : h.cells p = some e)
    (hc : h'.cells = Function.update h.cells p (some e')) (hb : body e' = body e) : SameBodies h h' := by
  intro q
  by_cases hq : q = p <;> simp [hc, hq, he, hb]

lemma SameBodies.trans {h h' h'' : Heap (HashEntry K V)} (h1 : SameBodies h h') (h2 : SameBodies h' h'') :
    SameBodies h h'' := fun p => (h2 p).trans (h1 p)

lemma SameBodies.cell {h h' : Heap (HashEntry K V)} (hs : SameBodies h h') {e : HashEntry K V}
    (he : h.cells p = some e) : ∃ e', h'.cells p = some e' ∧ body e' = body e := by
  have := hs p
  rw [he, Option.map_some, Option.map_eq_some_iff] at this
  exact this

lemma SameBodies.next {h h' : Heap (HashEntry K V)} (hs : SameBodies h h') (p : ℕ) :
    h'.links HashEntry.next p = h.links HashEntry.next p := by
  have := congrArg (Option.map HashEntry.next) (hs p)
  rw [Option.map_map, Option.map_map] at this
  exact this

lemma SameBodies.data {h h' : Heap (HashEntry K V)} (hs : SameBodies h h') (p : ℕ) :
    CHashTable.data h' p = CHashTable.data h p := by
  have := congrArg (Option.map fun e => (e.hash, e.key, e.value)) (hs p)
  rw [Option.map_map, Option.map_map] at this
  exact this

lemma delSequence_spec (hr : Ring t.seqNext t.seqPrev 0 (l ++ x :: r)) :
    Returns (t.delSequence x) fun t' => ∃ h a b, t' = { t with heap := h, seqHead := a, seqTail := b } ∧
      SameBodies t.heap h ∧ Ring t'.seqNext t'.seqPrev 0 (l ++ r) := by
  obtain ⟨e, he, hn, hp⟩ := ring_entry hr
  have hx := hr.remove_notMem
  have hcell : ∀ y ∈ l ++ r, ∃ e, t.heap.cells y = some e := fun y hy =>
    ring_cell hr (by simp only [List.mem_append, List.mem_cons] at hy ⊢; tauto)
  have hsucc : r.headD 0 ≠ 0 → ∃ f, t.heap.cells (r.headD 0) = some f := by
    intro h0
    refine hcell _ ?_
    rcases List.mem_cons.mp (headD_mem 0 r) with h | h
    · exact absurd h h0
    · exact List.mem_append_right _ h
  have hpred : l.getLastD 0 ≠ 0 → ∃ f, t.heap.cells (l.getLastD 0) = some f := by
    intro h0
    refine hcell _ ?_
    rcases List.mem_cons.mp (getLastD_mem 0 l) with h | h
    · exact absurd h h0
    · exact List.mem_append_left _ h
  refine Returns.of_bind (show t.heap.read x = some e from he) ?_
  rw [hn, hp]
  split_ifs with h1 h2 h3
  · refine (returns_some _ _).mpr ⟨t.heap, 0, 0, rfl, .refl _, hr.unlink ?_ ?_⟩
    · intro y _
      rw [h1.1, h1.2]
      simp [seqNext]
    · intro y _
      rw [h1.1, h1.2]
      simp [seqPrev]
  · have h0 : l.getLastD 0 ≠ 0 := fun h => h1 ⟨h2, h⟩
    obtain ⟨f, hf⟩ := hpred h0
    obtain ⟨h, hh, hc⟩ := write_spec (t := { t with seqTail := l.getLastD 0 }) hf
      fun e => { e with sNext := 0 }
    rw [hh, returns_some]
    refine ⟨h, t.seqHead, l.getLastD 0, rfl, .of_update hf hc rfl, hr.unlink ?_ ?_⟩
    · intro y _
      rw [h2, seqNext, seqNext, Heap.links_update hc, Function.update_comm h0]
    · intro y _
      rw [h2, seqPrev, seqPrev, Heap.links_same hf hc rfl, Function.update_idem]
  · have h0 : r.headD 0 ≠ 0 := h2
    obtain ⟨f, hf⟩ := hsucc h0
    obtain ⟨h, hh, hc⟩ := write_spec (t := { t with seqHead := r.headD 0 }) hf
      fun e => { e with sPrev := 0 }
    rw [hh, returns_some]
    refine ⟨h, r.headD 0, t.seqTail, rfl, .of_update hf hc rfl, hr.unlink ?_ ?_⟩
    · intro y _
      rw [h3, seqNext, seqNext, Heap.links_same hf hc rfl, Function.update_idem]
    · intro y _
      rw [h3, seqPrev, seqPrev, Heap.links_update hc, Function.update_comm h0]
  · obtain ⟨f, hf⟩ := hsucc h2
    obtain ⟨h, hh, hc⟩ := write_spec (t := t) hf fun f => { f with sPrev := l.getLastD 0 }
    have hs := SameBodies.of_update hf hc rfl
    obtain ⟨g, hg⟩ := hpred h3
    obtain ⟨g', hg', -⟩ := hs.cell hg
    refine Returns.of_bind hh ?_
    obtain ⟨h', hh', hc'⟩ := write_spec (t := { t with heap := h }) hg' fun f => { f with sNext := r.headD 0 }
    rw [hh', returns_some]
    refine ⟨h', t.seqHead, t.seqTail, rfl, hs.trans (.of_update hg' hc' rfl), hr.unlink ?_ ?_⟩
    · intro y _
      rw [seqNext, seqNext, Heap.links_update hc', Heap.links_same hf hc rfl, Function.update_comm h3]
    · intro y _
      rw [seqPrev, seqPrev, Heap.links_same hg' hc' rfl, Heap.links_update hc, Function.update_comm h2]

lemma ring_ends (hr : Ring t.seqNext t.seqPrev 0 seq) : t.seqHead = seq.headD 0 ∧ t.seqTail = seq.getLastD 0 := by
  have h1 := hr.next.walk.2
  have h2 := hr.prev.walk.2
  rw [seqNext, Function.update_self, Option.some.injEq] at h1
  rw [seqPrev, Function.update_self, Option.some.injEq, headD_reverse] at h2
  exact ⟨h1, h2⟩

lemma addSequence_spec (hr : Ring t.seqNext t.seqPrev 0 seq) {e : HashEntry K V}
    (he : t.heap.cells p = some e) (hp : p ∉ seq) :
    Returns (t.addSequence p) fun t' => ∃ h a b, t' = { t with heap := h, seqHead := a, seqTail := b } ∧
      SameBodies t.heap h ∧ Ring t'.seqNext t'.seqPrev 0 (seq ++ [p]) := by
  have h0 := cell_ne_zero he
  have hfresh : p ∉ 0 :: (seq ++ []) := by simp [h0, hp]
  obtain ⟨hhead, htail⟩ := ring_ends hr
  have hr' : Ring t.seqNext t.seqPrev 0 (seq ++ []) := by rwa [List.append_nil]
  rw [addSequence]
  split_ifs with hnil
  · have hseq : seq = [] := by
      by_contra hne
      obtain ⟨y, hy⟩ := List.exists_mem_of_ne_nil seq hne
      have hz := (List.nodup_cons.mp hr.nodup).1
      rcases hnil with h | h
      · rw [hhead] at h
        cases seq with
        | nil => exact hne rfl
        | cons z seq =>
          rw [List.headD_cons] at h
          rw [h] at hz
          simp at hz
      · rw [htail] at h
        rcases List.eq_nil_or_concat seq with rfl | ⟨l, z, rfl⟩
        · exact hne rfl
        · rw [List.concat_eq_append, getLastD_snoc] at h
          rw [h] at hz
          simp at hz
    subst hseq
    obtain ⟨h, hh, hc⟩ := write_spec he fun e => { e with sNext := 0, sPrev := 0 }
    refine Returns.of_bind hh ((returns_some _ _).mpr ⟨h, p, p, rfl, .of_update he hc rfl, hr'.link hfresh ?_ ?_⟩)
    · intro y
      rw [seqNext, seqNext, Heap.links_update hc]
      by_cases hy : y = 0 <;> simp [hy, Function.update_apply]
    · intro y
      rw [seqPrev, seqPrev, Heap.links_update hc]
      by_cases hy : y = 0 <;> simp [hy, Function.update_apply]
  · rw [not_or] at hnil
    obtain ⟨h, hh, hc⟩ := write_spec he fun e => { e with sNext := 0, sPrev := t.seqTail }
    have hs := SameBodies.of_update he hc rfl
    have hmem : t.seqTail ∈ seq := by
      rcases List.mem_cons.mp (getLastD_mem 0 seq) with h | h
      · exact absurd (htail.trans h) hnil.2
      · rwa [htail]
    obtain ⟨g, hg⟩ := ring_cell hr hmem
    obtain ⟨g', hg', -⟩ := hs.cell hg
    refine Returns.of_bind hh ?_
    obtain ⟨h', hh', hc'⟩ := write_spec (t := { t with heap := h }) hg' fun e => { e with sNext := p }
    refine Returns.of_bind hh' ((returns_some _ _).mpr
      ⟨h', t.seqHead, p, rfl, hs.trans (.of_update hg' hc' rfl), hr'.link hfresh ?_ ?_⟩)
    · intro y
      rw [← htail, seqNext, seqNext, Heap.links_update hc', Heap.links_update hc, Function.update_comm hnil.2,
        Function.update_comm h0]
      rfl
    · intro y
      rw [← htail, seqPrev, seqPrev, Heap.links_same hg' hc' rfl, Heap.links_update hc]
      by_cases hy : y = 0 <;> simp [hy, Function.update_apply]

lemma index_lt (hpos : 0 < t.tableLength) (hash : UInt32) : t.index hash < t.tableLength :=
  Nat.mod_lt _ hpos

lemma slot_of_cell {e : HashEntry K V} (he : t.heap.cells p = some e) : t.slot p = some (t.index e.hash) := by
  simp [slot, data, he]

namespace Shape

lemma counters (hs : Shape t bucket seq) (n m c u : ℕ) :
    Shape { t with entryCount := n, modCount := m, pcurEntry := c, uicurIndex := u } bucket seq :=
  ⟨hs.pos, hs.length, hs.chain, hs.mem, hs.ring⟩

lemma setCursor (hs : Shape t bucket seq) (c u : ℕ) : Shape (t.setCursor c u) bucket seq :=
  hs.counters t.entryCount t.modCount c u

lemma bucket_nodup (hs : Shape t bucket seq) {i : ℕ} (hi : i < t.tableLength) : (bucket i).Nodup := by
  have hw := hs.chain i _ (List.getElem?_eq_getElem (hs.length ▸ hi))
  refine hw.nodup ?_
  rw [Heap.links, t.heap.null, Option.map_none]

lemma bucket_length (hs : Shape t bucket seq) {i : ℕ} (hi : i < t.tableLength) :
    (bucket i).length ≤ seq.length := by
  refine (List.subperm_of_subset (hs.bucket_nodup hi) ?_).length_le
  intro p hp
  exact ((hs.mem i hi p).mp hp).1

lemma head (hs : Shape t bucket seq) {i : ℕ} (hi : i < t.tableLength) :
    ∃ p, t.table[i]? = some p ∧ Walk (t.heap.links HashEntry.next) p (bucket i) 0 :=
  ⟨_, List.getElem?_eq_getElem (hs.length ▸ hi), hs.chain i _ (List.getElem?_eq_getElem (hs.length ▸ hi))⟩

lemma cell (hs : Shape t bucket seq) (hp : p ∈ seq) : ∃ e, t.heap.cells p = some e :=
  ring_cell hs.ring hp

end Shape

lemma newEntry_spec (hs : Shape t bucket seq) (hash : UInt32) (key : K) (value : V) :
    Returns (t.newEntry hash key value) fun t' => ∃ bucket p, p ∉ seq ∧ Shape t' bucket (seq ++ [p]) ∧
      data t'.heap p = some (hash, key, value) ∧ (∀ q ≠ p, data t'.heap q = data t.heap q) ∧
      t'.entryCount = t.entryCount ∧ t'.pcurEntry = t.pcurEntry := by
  have hi : t.index hash < t.tableLength := index_lt hs.pos hash
  obtain ⟨q, hq, hw⟩ := hs.head hi
  obtain ⟨p, h, halloc, hcells, hpc⟩ : ∃ p h, t.heap.alloc ⟨hash, key, value, q, 0, 0⟩ = (p, h) ∧
      h.cells = Function.update t.heap.cells p (some ⟨hash, key, value, q, 0, 0⟩) ∧ t.heap.cells p = none :=
    ⟨_, _, rfl, rfl, t.heap.brk_fresh⟩
  have hfresh : p ∉ seq := by
    intro hp
    obtain ⟨e, he⟩ := hs.cell hp
    simp [hpc] at he
  have hcell : h.cells p = some ⟨hash, key, value, q, 0, 0⟩ := by simp [hcells]
  have h0 : p ≠ 0 := cell_ne_zero hcell
  have hsame : ∀ y, y ≠ p → h.cells y = t.heap.cells y := fun y hy => by simp [hcells, hy]
  have hring : Ring (seqNext { t with heap := h, table := t.table.set (t.index hash) p })
      (seqPrev { t with heap := h, table := t.table.set (t.index hash) p }) 0 seq := by
    have hlinks : ∀ g : HashEntry K V → ℕ, ∀ y ∈ 0 :: seq, h.links g y = t.heap.links g y := by
      intro g y hy
      have : y ≠ p := by
        rintro rfl
        rcases List.mem_cons.mp hy with h | h
        · exact h0 h
        · exact hfresh h
      rw [Heap.links, Heap.links, hsame y this]
    refine hs.ring.congr ?_ ?_
    · intro y hy
      simp [seqNext, Function.update_apply, hlinks _ y hy]
    · intro y hy
      simp [seqPrev, Function.update_apply, hlinks _ y hy]
  refine Returns.of_bind hq ?_
  rw [halloc]
  refine (addSequence_spec hring hcell hfresh).mono ?_
  rintro t' ⟨h', a, b, rfl, hb, hring'⟩
  have hdata : ∀ y, y ≠ p → data h' y = data t.heap y := by
    intro y hy
    rw [hb.data, data, data]
    dsimp only
    rw [hsame y hy]
  have hslot : ∀ y, y ≠ p →
      slot { t with heap := h', table := t.table.set (t.index hash) p, seqHead := a, seqTail := b } y = t.slot y := by
    intro y hy
    rw [slot, slot, hdata y hy]
    rfl
  have hdp : data h' p = some (hash, key, value) := by
    rw [hb.data, data]
    dsimp only
    rw [hcell, Option.map_some]
  have hnext : ∀ y, y ≠ p → h'.links HashEntry.next y = t.heap.links HashEntry.next y := by
    intro y hy
    rw [hb.next, Heap.links, Heap.links]
    dsimp only
    rw [hsame y hy]
  have hbucket : ∀ j < t.tableLength, p ∉ bucket j := fun j hj hp => hfresh ((hs.mem j hj p).mp hp).1
  refine ⟨Function.update bucket (t.index hash) (p :: bucket (t.index hash)), p, hfresh,
    ⟨hs.pos, by simpa using hs.length, ?_, ?_, hring'⟩, hdp, hdata, rfl, rfl⟩
  · intro j y hy
    dsimp only at hy ⊢
    by_cases hj : j = t.index hash
    · subst hj
      rw [List.getElem?_set_self (hs.length.symm ▸ hi), Option.some.injEq] at hy
      subst hy
      rw [Function.update_self]
      refine ⟨rfl, q, ?_, hw.congr fun y hy => hnext y fun e => hbucket _ hi (e ▸ hy)⟩
      rw [hb.next, Heap.links]
      dsimp only
      rw [hcell, Option.map_some]
    · rw [List.getElem?_set_ne (Ne.symm hj)] at hy
      rw [Function.update_of_ne hj]
      have hjl : j < t.tableLength := by
        rw [← hs.length]
        exact (List.getElem?_eq_some_iff.mp hy).1
      exact (hs.chain j y hy).congr fun y hy => hnext y fun e => hbucket j hjl (e ▸ hy)
  · intro j hj y
    rw [List.mem_append, List.mem_singleton]
    by_cases hy : y = p
    · subst hy
      have : slot { t with heap := h', table := t.table.set (t.index hash) y, seqHead := a, seqTail := b } y =
          some (t.index hash) := by
        rw [slot, hdp]
        rfl
      rw [this, Option.some.injEq]
      by_cases hj' : j = t.index hash
      · simp [hj']
      · rw [Function.update_of_ne hj']
        simp [hbucket j hj, Ne.symm hj']
    · rw [hslot y hy]
      have : y ∈ Function.update bucket (t.index hash) (p :: bucket (t.index hash)) j ↔ y ∈ bucket j := by
        by_cases hj' : j = t.index hash <;> simp [hj', hy]
      rw [this, hs.mem j hj]
      simp [hy]

structure Unchained (t : CHashTable K V) (bucket : ℕ → List ℕ) (l : List ℕ) (x : ℕ) (r : List ℕ) : Prop where
  pos : 0 < t.tableLength
  length : t.table.length = t.tableLength
  chain : ∀ i p, t.table[i]? = some p → Walk (t.heap.links HashEntry.next) p (bucket i) 0
  mem : ∀ i < t.tableLength, ∀ p, p ∈ bucket i ↔ p ∈ l ++ r ∧ t.slot p = some i
  ring : Ring t.seqNext t.seqPrev 0 (l ++ x :: r)

lemma Unchained.drop (hu : Unchained t bucket l x r) :
    Returns (t.delSequence x >>= fun t => t.delete x) fun t' => Shape t' bucket (l ++ r) ∧
      (∀ q ≠ x, data t'.heap q = data t.heap q) ∧ t'.entryCount = t.entryCount ∧
      t'.pcurEntry = t.pcurEntry ∧ t'.tableLength = t.tableLength ∧ t'.modCount = t.modCount ∧
      data t'.heap x = none := by
  refine (delSequence_spec hu.ring).bind ?_
  rintro t₁ ⟨h, a, b, rfl, hb, hring⟩
  obtain ⟨e, he⟩ := ring_cell hu.ring (p := x) (by simp)
  obtain ⟨e', he', -⟩ := hb.cell he
  obtain ⟨h', hh', hc'⟩ := delete_spec (t := { t with heap := h, seqHead := a, seqTail := b }) he'
  have hx := hu.ring.remove_notMem
  have hsame : ∀ y, y ≠ x → h'.cells y = h.cells y := fun y hy => by rw [hc']; simp [hy]
  have hdata : ∀ y, y ≠ x → data h' y = data t.heap y := by
    intro y hy
    rw [← hb.data, data, data, hsame y hy]
  rw [hh', returns_some]
  refine ⟨⟨hu.pos, hu.length, ?_, ?_, ?_⟩, hdata, rfl, rfl, rfl, rfl, by simp [data, hc']⟩
  · intro i p hp
    refine (hu.chain i p hp).congr fun y hy => ?_
    have hi : i < t.tableLength := by
      rw [← hu.length]
      exact (List.getElem?_eq_some_iff.mp hp).1
    have hyx : y ≠ x := by
      rintro rfl
      exact hx (List.mem_cons_of_mem _ ((hu.mem i hi y).mp hy).1)
    rw [← hb.next, Heap.links, Heap.links]
    dsimp only
    rw [hsame y hyx]
  · intro i hi p
    rw [hu.mem i hi]
    refine and_congr_right fun hp => ?_
    have hpx : p ≠ x := by
      rintro rfl
      exact hx (List.mem_cons_of_mem _ hp)
    rw [slot, slot, hdata p hpx]
    rfl
  · refine hring.congr ?_ ?_
    · intro y hy
      have hyx : y ≠ x := fun e => hx (e ▸ hy)
      simp [seqNext, Function.update_apply, Heap.links, hsame y hyx]
    · intro y hy
      have hyx : y ≠ x := fun e => hx (e ▸ hy)
      simp [seqPrev, Function.update_apply, Heap.links, hsame y hyx]

lemma Shape.mem_unchain (hs : Shape t bucket (l ++ x :: r)) {i : ℕ} (hi : i < t.tableLength) {a b : List ℕ}
    (hb : bucket i = a ++ x :: b) : ∀ j < t.tableLength, ∀ p,
      p ∈ Function.update bucket i (a ++ b) j ↔ p ∈ l ++ r ∧ t.slot p = some j := by
  intro j hj p
  have hx := hs.ring.remove_notMem
  have hslot := ((hs.mem i hi x).mp (by simp [hb])).2
  have hmem := hs.mem j hj p
  by_cases hpx : p = x
  · subst hpx
    have h2 : p ∉ l ++ r := fun h => hx (List.mem_cons_of_mem _ h)
    simp only [h2, false_and, iff_false]
    by_cases hji : j = i
    · subst hji
      have hn := hs.bucket_nodup hi
      rw [hb] at hn
      rw [Function.update_self]
      intro hmem'
      rw [List.nodup_append, List.nodup_cons] at hn
      rcases List.mem_append.mp hmem' with h | h
      · exact hn.2.2 p h p (by simp) rfl
      · exact hn.2.1.1 h
    · rw [Function.update_of_ne hji, hmem, hslot, Option.some.injEq]
      exact fun h => hji h.2.symm
  · have h1 : p ∈ l ++ x :: r ↔ p ∈ l ++ r := by simp [hpx]
    rw [← h1, ← hmem]
    by_cases hji : j = i
    · subst hji
      rw [Function.update_self, hb]
      simp [hpx]
    · rw [Function.update_of_ne hji]

end Xframe.Comserv.CHashTable
