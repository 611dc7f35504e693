import Xframe.Comserv.CStrBuffer

/-! What the operations of `CStr` keep: the buffer has room for the capacity and the zero behind the
string, and nothing is written beside it. -/

namespace Xframe.Comserv.CStrObject

open Xframe.Lib Xframe.Lib.Act Xframe.Msg

structure View (m : CStrMem) (L C : ℤ) (b : List UInt8) : Prop where
  length : m.str.length = L
  capacity : m.str.capacity = C
  block : m.block = some b
  inline : m.str.inline.length = 32

structure Fit (C : ℤ) (b : List UInt8) : Prop where
  size : C + 1 ≤ b.length
  least : 31 ≤ C
  most : C < 2 ^ 31 - 1

structure Frame (m₀ m : CStrMem) : Prop where
  others : ∀ p, m₀.str.buffer ≠ some p → p < m₀.heap.brk → m.heap.read p = m₀.heap.read p
  brk : m₀.heap.brk ≤ m.heap.brk
  own : ∀ p, m.str.buffer = some p → m₀.str.buffer = some p ∨ m₀.heap.brk ≤ p

structure State (m₀ : CStrMem) (L C : ℤ) (b : List UInt8) (m : CStrMem) : Prop where
  view : View m L C b
  frame : Frame m₀ m

def Valid (m : CStrMem) : Prop := ∃ L C b, View m L C b ∧ Fit C b ∧ 0 ≤ L ∧ L ≤ C ∧ b[L.toNat]? = some 0

def Kept (m₀ m : CStrMem) : Prop := Valid m ∧ Frame m₀ m

variable {m₀ m : CStrMem} {L C n off : ℤ} {b src : List UInt8} {E : CStrMem → Prop}

lemma Frame.refl (m : CStrMem) : Frame m m := ⟨fun _ _ _ => rfl, le_rfl, fun _ h => Or.inl h⟩

lemma Frame.trans {m₁ m₂ : CStrMem} (h : Frame m₀ m₁) (h' : Frame m₁ m₂) : Frame m₀ m₂ where
  others p hp hlt := by
    have hp' : m₁.str.buffer ≠ some p := by
      intro heq
      rcases h.own p heq with h₀ | hle
      · exact hp h₀
      · omega
    rw [h'.others p hp' (hlt.trans_le h.brk), h.others p hp hlt]
  brk := h.brk.trans h'.brk
  own p hp := by
    rcases h'.own p hp with h₁ | hle
    · exact h.own p h₁
    · exact Or.inr (h.brk.trans hle)

lemma State.kept (h : State m₀ L C b m) (hf : Fit C b) (h0 : 0 ≤ L) (hle : L ≤ C) (hz : b[L.toNat]? = some 0) :
    Kept m₀ m :=
  ⟨⟨L, C, b, h.view, hf, h0, hle, hz⟩, h.frame⟩

lemma View.read (h : View m L C b) {p : ℕ} (hp : m.str.buffer = some p) : m.heap.read p = some b :=
  (CStrMem.block_heap hp).symm.trans h.block

lemma View.live (h : View m L C b) {p : ℕ} (hp : m.str.buffer = some p) : p < m.heap.brk := by
  by_contra hge
  have hdead : m.heap.read p = none := m.heap.bound p (not_lt.mp hge)
  rw [h.read hp] at hdead
  simp at hdead

lemma View.state (h : View m L C b) : State m L C b m := ⟨h, Frame.refl m⟩

lemma State.after {m₁ : CStrMem} (h : State m₁ L C b m) (hf : Frame m₀ m₁) : State m₀ L C b m :=
  ⟨h.view, hf.trans h.frame⟩

lemma toInt_eq (h0 : -2 ^ 31 ≤ n) (h : n < 2 ^ 31) : toInt n = n := by
  rw [toInt]
  omega

lemma toInt_neg (h : 2 ^ 31 ≤ n) (hlt : n < 2 ^ 32) : toInt n < 0 := by
  rw [toInt]
  omega

lemma length_splice {off : ℕ} (h : off + src.length ≤ b.length) : (splice b off src).length = b.length := by
  rw [splice, List.length_append, List.length_append, List.length_take, List.length_drop]
  omega

lemma Fit.splice (h : Fit C b) {off : ℕ} (hroom : off + src.length ≤ b.length) : Fit C (splice b off src) :=
  ⟨by rw [length_splice hroom]; exact h.size, h.least, h.most⟩

lemma splice_zero (off : ℕ) (h : off + src.length ≤ b.length) {i : ℕ} (hi : src[i]? = some 0) :
    (splice b off src)[off + i]? = some 0 := by
  have hlt : i < src.length := by
    by_contra hge
    rw [List.getElem?_eq_none (not_lt.mp hge)] at hi
    simp at hi
  have htake : (b.take off).length = off := by
    rw [List.length_take]
    omega
  rw [splice, List.append_assoc, List.getElem?_append_right (by omega), htake,
    List.getElem?_append_left (by omega), Nat.add_sub_cancel_left, hi]

lemma this_ends (h : State m₀ L C b m) :
    Ends this m (fun s t => s = m.str ∧ m = t ∧ State m₀ L C b t) E :=
  ⟨rfl, rfl, h⟩

lemma modify_state (h : State m₀ L C b m) {f : CStrObject → CStrObject} (hb : (f m.str).buffer = m.str.buffer)
    (hi : (f m.str).inline = m.str.inline) :
    State m₀ (f m.str).length (f m.str).capacity b { m with str := f m.str } := by
  have hblock : CStrMem.block { m with str := f m.str } = m.block := by
    rw [CStrMem.block, CStrMem.block, hb, hi]
  refine ⟨⟨rfl, rfl, hblock.trans h.view.block, (congrArg List.length hi).trans h.view.inline⟩,
    h.frame.others, h.frame.brk, fun p hp => h.frame.own p ?_⟩
  exact hb.symm.trans hp

lemma setLength_ends (h : State m₀ L C b m) (n : ℤ) : Ends (setLength n) m (fun _ => State m₀ n C b) E := by
  have hs := modify_state h (f := fun s => { s with length := n }) rfl rfl
  exact ⟨⟨rfl, h.view.capacity, hs.view.block, hs.view.inline⟩, hs.frame⟩

lemma setCapacity_ends (h : State m₀ L C b m) (n : ℤ) : Ends (setCapacity n) m (fun _ => State m₀ L n b) E := by
  have hs := modify_state h (f := fun s => { s with capacity := n }) rfl rfl
  exact ⟨⟨h.view.length, rfl, hs.view.block, hs.view.inline⟩, hs.frame⟩

lemma read_ends (h : State m₀ L C b m) (h0 : 0 ≤ off) (hn : 0 ≤ n) (hle : off + n ≤ b.length) :
    Ends (read off n) m (fun s t => s = (b.drop off.toNat).take n.toNat ∧ m = t) E := by
  rw [Ends, read, h.view.block]
  dsimp only
  rw [if_pos ⟨h0, hn, hle⟩]
  exact ⟨rfl, rfl⟩

lemma write_ends (h : State m₀ L C b m) (h0 : 0 ≤ off) (hle : off + src.length ≤ b.length) :
    Ends (write off src) m (fun _ => State m₀ L C (splice b off.toNat src)) E := by
  have hlen : (splice b off.toNat src).length = b.length := length_splice (by omega)
  rw [Ends, write, h.view.block]
  dsimp only
  rw [if_pos ⟨h0, hle⟩]
  cases hbuf : m.str.buffer with
  | none =>
    obtain rfl := Option.some.inj ((CStrMem.block_inline hbuf).symm.trans h.view.block)
    exact ⟨⟨h.view.length, h.view.capacity, rfl, hlen.trans h.view.inline⟩,
      h.frame.others, h.frame.brk, fun p hp => absurd hp (by simp)⟩
  | some p =>
    have hstore := Heap.read_store ((CStrMem.block_heap hbuf).symm.trans h.view.block) (splice b off.toNat src)
    refine ⟨⟨h.view.length, h.view.capacity, ?_, h.view.inline⟩, fun q hq hlt => ?_, h.frame.brk,
      fun q hq => h.frame.own q hq⟩
    · refine (CStrMem.block_heap (p := p) ?_).trans ((hstore p).trans (if_pos rfl))
      exact hbuf
    · have hne : q ≠ p := by
        rintro rfl
        rcases h.frame.own q hbuf with h₀ | hge
        · exact hq h₀
        · omega
      dsimp only
      rw [hstore, if_neg hne]
      exact h.frame.others q hq hlt

lemma terminate_ends (h : State m₀ L C b m) (hf : Fit C b) (h0 : 0 ≤ L) (hle : L ≤ C) :
    Ends (write L [0]) m (fun _ t => Kept m₀ t ∧ t.str.length = L) E := by
  have hsize := hf.size
  have hin : L + (([0] : List UInt8).length : ℤ) ≤ b.length := by
    rw [List.length_singleton]
    omega
  refine (write_ends h h0 hin).mono (fun _ t ht => ⟨ht.kept ?_ h0 hle ?_, ht.view.length⟩) fun _ ht => ht
  · exact hf.splice (by omega)
  · exact splice_zero L.toNat (i := 0) (by rw [List.length_singleton]; omega) rfl

section New

variable (noise : ℕ → UInt8)

omit noise in
lemma alloc_state (h : State m₀ L C b m) (v : List UInt8) :
    State m₀ L C b { m with heap := (m.heap.alloc v).2 } := by
  have hold : ∀ q, q < m.heap.brk → (m.heap.alloc v).2.read q = m.heap.read q :=
    fun q hq => by rw [Heap.read_alloc, if_neg (by omega)]
  refine ⟨⟨h.view.length, h.view.capacity, ?_, h.view.inline⟩, fun q hq hlt => ?_, ?_, h.frame.own⟩
  · cases hbuf : m.str.buffer with
    | none =>
      refine (CStrMem.block_inline ?_).trans ((CStrMem.block_inline hbuf).symm.trans h.view.block)
      exact hbuf
    | some p =>
      refine (CStrMem.block_heap (p := p) ?_).trans ((hold p (h.view.live hbuf)).trans (h.view.read hbuf))
      exact hbuf
  · exact (hold q (hlt.trans_le h.frame.brk)).trans (h.frame.others q hq hlt)
  · exact h.frame.brk.trans (Nat.le_succ _)

lemma newBlock_ends (h : State m₀ L C b m) (n : ℤ) :
    Ends (newBlock noise n) m (fun p t => State m₀ L C b t ∧ 0 ≤ n ∧ p = m.heap.brk ∧
      t.heap.brk = m.heap.brk + 1 ∧ (∀ q, q < m.heap.brk → t.heap.read q = m.heap.read q) ∧
      ∃ b' : List UInt8, t.heap.read p = some b' ∧ (b'.length : ℤ) = n) (fun t => t = m ∧ n < 0) := by
  rw [newBlock]
  by_cases hn : n < 0
  · rw [if_pos hn]
    exact ends_throw ⟨rfl, hn⟩
  rw [if_neg hn]
  have hread := m.heap.read_alloc ((List.range n.toNat).map noise)
  refine ⟨alloc_state h _, by omega, rfl, rfl, fun q hq => ?_, _, (hread _).trans (if_pos rfl), ?_⟩
  · exact (hread q).trans (if_neg (by omega))
  · rw [List.length_map, List.length_range]
    omega

lemma setBuffer_ends (h : State m₀ L C b m) {p : ℕ} {b' : List UInt8} (hp : m.heap.read p = some b')
    (hown : m₀.heap.brk ≤ p) :
    Ends (setBuffer (some p)) m
      (fun _ t => State m₀ L C b' t ∧ t.heap = m.heap ∧ t.str.buffer = some p) E := by
  refine ⟨⟨⟨h.view.length, h.view.capacity, hp, h.view.inline⟩, h.frame.others, h.frame.brk, fun q hq => ?_⟩, rfl, rfl⟩
  rw [← Option.some.inj hq]
  exact Or.inr hown

lemma deleteBlock_ends (h : State m₀ L C b m) {p : ℕ} {v : List UInt8} (hp : m.heap.read p = some v)
    (hne : m.str.buffer ≠ some p) (hown : m₀.str.buffer = some p ∨ m₀.heap.brk ≤ p) :
    Ends (deleteBlock p) m (fun _ => State m₀ L C b) E := by
  obtain ⟨heap, hfree, -, hbrk⟩ := Heap.free_spec hp
  have hread := Heap.read_free hfree
  rw [Ends, deleteBlock, hfree]
  refine ⟨⟨h.view.length, h.view.capacity, ?_, h.view.inline⟩, fun q hq hlt => ?_, hbrk ▸ h.frame.brk, h.frame.own⟩
  · cases hbuf : m.str.buffer with
    | none =>
      refine (CStrMem.block_inline ?_).trans ((CStrMem.block_inline hbuf).symm.trans h.view.block)
      exact hbuf
    | some q =>
      have hq : q ≠ p := fun heq => hne (heq ▸ hbuf)
      refine (CStrMem.block_heap (p := q) ?_).trans (((hread q).trans (if_neg hq)).trans (h.view.read hbuf))
      exact hbuf
  · have hqp : q ≠ p := by
      rintro rfl
      rcases hown with h₀ | hge
      · exact hq h₀
      · omega
    exact ((hread q).trans (if_neg hqp)).trans (h.frame.others q hq hlt)

def Grown (m₀ : CStrMem) (L C : ℤ) (b : List UInt8) (n : ℤ) (m : CStrMem) : Prop :=
  ∃ C' b', State m₀ L C' b' m ∧ Fit C' b' ∧ C ≤ C' ∧ n ≤ C' ∧ b'[L.toNat]? = b[L.toNat]?

def Oversized (C n : ℤ) : Prop := C < n ∧ 2 ^ 31 - 32 ≤ n

def Regrown (m₀ : CStrMem) (L C : ℤ) (b : List UInt8) (n : ℤ) (m : CStrMem) : Prop :=
  ∃ C' b', State m₀ L C' b' m ∧ Fit C' b' ∧ C ≤ C' ∧ n ≤ C' ∧ C' ≤ max C (2 ^ 31 - 33) ∧
    b'.take (L + 1).toNat = b.take (L + 1).toNat

omit noise in
lemma Regrown.grown (h : Regrown m₀ L C b n m) (h0 : 0 ≤ L) : Grown m₀ L C b n m := by
  obtain ⟨C', b', ht, hf, hC, hn, -, htake⟩ := h
  refine ⟨C', b', ht, hf, hC, hn, ?_⟩
  rw [← List.getElem?_take_of_lt (show L.toNat < (L + 1).toNat by omega), htake,
    List.getElem?_take_of_lt (by omega)]

lemma resize_copies (h : State m₀ L C b m) (hf : Fit C b) (h0 : 0 ≤ L) (hle : L ≤ C) (hn : n < 2 ^ 31) :
    Ends (resize noise n) m (fun _ t => Regrown m₀ L C b n t ∧ ¬Oversized C n)
      (fun t => State m₀ L C b t ∧ Oversized C n) := by
  obtain ⟨hsize, hleast, hmost⟩ := hf
  rw [resize]
  refine (this_ends h).bind ?_
  rintro _ t ⟨rfl, rfl, -⟩
  rw [h.view.capacity, h.view.length]
  by_cases hnc : n ≤ C
  · rw [if_pos hnc]
    exact ⟨⟨C, b, h, ⟨hsize, hleast, hmost⟩, le_rfl, hnc, le_max_left _ _, rfl⟩,
      fun hover => absurd hover.1 (not_lt.mpr hnc)⟩
  rw [if_neg hnc, maxCStrBufferLen]
  dsimp only
  set realCap := toInt ((n / 32 + 1) * 32) with hreal
  have hcap : realCap < 2 ^ 31 ∧ (0 ≤ realCap → realCap = (n / 32 + 1) * 32) := by
    rw [hreal, toInt]
    omega
  have hover : realCap < 0 ↔ 2 ^ 31 - 32 ≤ n := by
    rw [hreal, toInt]
    omega
  refine ((newBlock_ends noise h.view.state realCap).mono (fun _ _ ht => ht) fun u hu =>
    And.intro (hu.1 ▸ h) ⟨by omega, hover.mp hu.2⟩).bind ?_
  rintro p t₁ ⟨h₁, hpos, rfl, hbrk, hold, b', hb', hlen⟩
  have hrc := hcap.2 hpos
  have hsmall : ¬Oversized C n := fun hlarge => absurd (hover.mpr hlarge.2) (not_lt.mpr hpos)
  have hlt := hcap.1
  refine (read_ends h₁ le_rfl (by omega) (by omega)).bind ?_
  rintro src t ⟨hsrc, rfl⟩
  have hsrclen : src.length = (L + 1).toNat := by
    rw [hsrc, List.length_take, List.length_drop]
    omega
  refine (setBuffer_ends h₁ hb' le_rfl).bind ?_
  rintro - t₂ ⟨h₂, hheap, hbuf⟩
  refine (write_ends h₂.view.state le_rfl (by omega)).bind ?_
  rintro - t₃ h₃
  refine (setCapacity_ends h₃ (realCap - 1)).bind ?_
  rintro - t₄ h₄
  have hgrown : ∀ t, State m₀ L (realCap - 1) (splice b' 0 src) t → Regrown m₀ L C b n t := by
    intro t ht
    have hlen' : (splice b' 0 src).length = b'.length := length_splice (by omega)
    refine ⟨_, _, ht, ⟨by rw [hlen']; omega, by omega, by omega⟩, by omega, by omega, by omega, ?_⟩
    rw [splice, List.take_zero, List.nil_append, List.take_left' hsrclen, hsrc]
    rfl
  have h₄' : State m₀ L (realCap - 1) (splice b' 0 src) t₄ := h₄.after (h.frame.trans h₂.frame)
  cases hbuf₀ : m.str.buffer with
  | none => exact ⟨hgrown _ h₄', hsmall⟩
  | some old =>
    have hlive := h.view.live hbuf₀
    have hne : t₂.str.buffer ≠ some old := by
      rw [hbuf]
      intro heq
      have := Option.some.inj heq
      omega
    have hread : t₄.heap.read old = some b := by
      rw [h₄.frame.others old hne (by rw [hheap]; omega), hheap, hold old hlive]
      exact h.view.read hbuf₀
    have hne₄ : t₄.str.buffer ≠ some old := by
      intro heq
      rcases h₄.frame.own old heq with h₀ | hge
      · exact hne h₀
      · rw [hheap] at hge
        omega
    refine (deleteBlock_ends (E := fun _ => False) h₄' hread hne₄ (h.frame.own old hbuf₀)).mono ?_ fun _ hu => hu.elim
    exact fun _ u hu => ⟨hgrown u hu, hsmall⟩

lemma growTo_copies (h : State m₀ L C b m) (hf : Fit C b) (h0 : 0 ≤ L) (hle : L ≤ C) (hn : n < 2 ^ 31) :
    Ends (growTo noise n) m (fun _ t => Regrown m₀ L C b n t ∧ ¬Oversized C n)
      (fun t => State m₀ L C b t ∧ Oversized C n) := by
  rw [growTo]
  refine (this_ends h).bind ?_
  rintro _ t ⟨rfl, rfl, -⟩
  rw [h.view.capacity]
  by_cases hnc : C < n
  · rw [if_pos hnc]
    exact resize_copies noise h hf h0 hle hn
  · rw [if_neg hnc]
    exact ⟨⟨C, b, h, hf, le_rfl, not_lt.mp hnc, le_max_left _ _, rfl⟩, fun hover => hnc hover.1⟩

lemma resize_exact (h : State m₀ L C b m) (hf : Fit C b) (h0 : 0 ≤ L) (hle : L ≤ C) (hn : n < 2 ^ 31) :
    Ends (resize noise n) m (fun _ t => Grown m₀ L C b n t ∧ ¬Oversized C n)
      (fun t => State m₀ L C b t ∧ Oversized C n) :=
  (resize_copies noise h hf h0 hle hn).mono (fun _ _ ht => ⟨ht.1.grown h0, ht.2⟩) fun _ ht => ht

lemma growTo_exact (h : State m₀ L C b m) (hf : Fit C b) (h0 : 0 ≤ L) (hle : L ≤ C) (hn : n < 2 ^ 31) :
    Ends (growTo noise n) m (fun _ t => Grown m₀ L C b n t ∧ ¬Oversized C n)
      (fun t => State m₀ L C b t ∧ Oversized C n) :=
  (growTo_copies noise h hf h0 hle hn).mono (fun _ _ ht => ⟨ht.1.grown h0, ht.2⟩) fun _ ht => ht

lemma resize_ends (h : State m₀ L C b m) (hf : Fit C b) (h0 : 0 ≤ L) (hle : L ≤ C) (hn : n < 2 ^ 31) :
    Ends (resize noise n) m (fun _ => Grown m₀ L C b n) (State m₀ L C b) :=
  (resize_exact noise h hf h0 hle hn).mono (fun _ _ ht => ht.1) fun _ ht => ht.1

lemma growTo_ends (h : State m₀ L C b m) (hf : Fit C b) (h0 : 0 ≤ L) (hle : L ≤ C) (hn : n < 2 ^ 31) :
    Ends (growTo noise n) m (fun _ => Grown m₀ L C b n) (State m₀ L C b) :=
  (growTo_exact noise h hf h0 hle hn).mono (fun _ _ ht => ht.1) fun _ ht => ht.1

variable {l : ℤ}

lemma argument_ends {m : CStrMem} {E : CStrMem → Prop} (h0 : 0 ≤ n) (hle : n ≤ src.length) :
    Ends (argument src n) m (fun s t => s = src.take n.toNat ∧ m = t) E := by
  rw [argument, if_pos ⟨h0, hle⟩]
  exact ⟨rfl, rfl⟩

lemma fill_ends (h : State m₀ L C b m) (hf : Fit C b) (h0 : 0 ≤ L) (hle : L ≤ C) (hlen : (src.length : ℤ) = L + 1)
    (hz : src[L.toNat]? = some 0) : Ends (write 0 src) m (fun _ t => Kept m₀ t ∧ t.str.length = L) E := by
  have hsize := hf.size
  refine (write_ends h le_rfl (by omega)).mono (fun _ t ht => ⟨ht.kept ?_ h0 hle ?_, ht.view.length⟩) fun _ ht => ht
  · exact hf.splice (by omega)
  · have hzero := splice_zero 0 (b := b) (by omega) hz
    rwa [Nat.zero_add] at hzero

lemma clear_keeps (hv : Valid m) : Ends clear m (fun _ t => Kept m t ∧ t.str.length = 0) (Kept m) := by
  obtain ⟨L, C, b, hview, hf, -, -, -⟩ := hv
  refine (setLength_ends hview.state 0).bind fun _ t ht => ?_
  exact terminate_ends ht hf le_rfl (by have := hf.least; omega)

lemma resize_keeps (hv : Valid m) (hn : n < 2 ^ 31) : Ends (resize noise n) m (fun _ => Kept m) (Kept m) := by
  obtain ⟨L, C, b, hview, hf, h0, hle, hz⟩ := hv
  refine (resize_ends noise hview.state hf h0 hle hn).mono ?_ fun t ht => ht.kept hf h0 hle hz
  rintro - t ⟨C', b', ht, hf', hC, -, hb⟩
  exact ht.kept hf' h0 (hle.trans hC) (hb.trans hz)

lemma assign_keeps (hv : Valid m) (h0 : 0 ≤ n) (hn : n < 2 ^ 31) (hlen : (src.length : ℤ) = n + 1)
    (hsrc : src[n.toNat]? = some 0) : Ends (assign noise n src) m (fun _ => Kept m) (Kept m) := by
  obtain ⟨L, C, b, hview, hf, hL, hle, hz⟩ := hv
  refine ((growTo_ends noise hview.state hf hL hle hn).mono (fun _ _ ht => ht) fun t ht =>
    ht.kept hf hL hle hz).bind ?_
  rintro - t ⟨C', b', ht, hf', -, hC, -⟩
  refine (setLength_ends ht n).bind fun _ t ht => ?_
  exact (fill_ends ht hf' h0 hC hlen hsrc).left

lemma append_keeps (hv : Valid m) (h0 : 0 ≤ l) (hfit : m.str.length + l < 2 ^ 31)
    (hlen : (src.length : ℤ) ≤ l + 1) :
    Ends (append noise l src) m (fun _ t => Kept m t ∧ t.str.length = m.str.length + l) (Kept m) := by
  obtain ⟨L, C, b, hview, hf, hL, hle, hz⟩ := hv
  rw [hview.length] at hfit ⊢
  rw [append]
  refine (this_ends hview.state).bind ?_
  rintro _ t ⟨rfl, rfl, h⟩
  rw [hview.length, toInt_eq (by omega) hfit]
  refine ((growTo_ends noise h hf hL hle hfit).mono (fun _ _ ht => ht) fun t ht => ht.kept hf hL hle hz).bind ?_
  rintro - t ⟨C', b', ht, hf', -, hC, -⟩
  have hsize := hf'.size
  refine (write_ends ht hL (by omega)).bind fun _ t ht => ?_
  refine (setLength_ends ht (L + l)).bind fun _ t ht => ?_
  exact terminate_ends ht (hf'.splice (by omega)) (by omega) hC

lemma appendStr_keeps (hv : Valid m) {str : List UInt8} (hfit : m.str.length + str.length < 2 ^ 31) :
    Ends (appendStr noise str) m (fun _ t => Kept m t ∧ t.str.length = m.str.length + str.length) (Kept m) := by
  have hpos : 0 ≤ m.str.length := by
    obtain ⟨L, C, b, hview, -, hL, -⟩ := hv
    rwa [hview.length]
  rw [appendStr, toInt_eq (by omega) (by omega)]
  refine (argument_ends (by omega) (by simp)).bind ?_
  rintro _ t ⟨rfl, rfl⟩
  refine append_keeps noise hv (by omega) hfit ?_
  rw [List.length_take, List.length_append, List.length_singleton]
  omega

lemma nCat_keeps (hv : Valid m) (str : List UInt8) (hfit : m.str.length + str.length < 2 ^ 31) :
    Ends (nCat noise str) m (fun _ t => Kept m t ∧ t.str.length = m.str.length + str.length) (Kept m) :=
  append_keeps noise hv (by omega) hfit (by omega)

lemma appendChar_keeps (hv : Valid m) (c : UInt8) (hfit : m.str.length + 1 < 2 ^ 31) :
    Ends (appendChar noise c) m (fun _ => Kept m) (Kept m) :=
  (append_keeps noise hv (by omega) hfit (by simp)).left

lemma length_decimal {val : ℤ} (h0 : -2 ^ 31 ≤ val) (h : val < 2 ^ 31) : (decimal val).length ≤ 11 := by
  have hdigits : (Nat.digits 10 val.natAbs).length ≤ 10 := by
    rw [Nat.digits_length_le_iff (by norm_num)]
    norm_num
    omega
  rw [decimal, List.length_append]
  split_ifs <;> simp <;> omega

lemma first_zero {i : ℕ} (h : b[i]? = some 0) :
    (0 : UInt8) ∈ b ∧ (b.takeWhile (· ≠ 0)).length ≤ i ∧ b[(b.takeWhile (· ≠ 0)).length]? = some 0 := by
  induction b generalizing i with
  | nil => simp at h
  | cons c b ih =>
    by_cases hc : c = 0
    · subst hc
      simp
    · cases i with
      | zero => exact absurd (Option.some.inj h) hc
      | succ i =>
        obtain ⟨hmem, hle, hz⟩ := ih (i := i) (by simpa using h)
        have htw : (c :: b).takeWhile (· ≠ 0) = c :: b.takeWhile (· ≠ 0) :=
          List.takeWhile_cons_of_pos (by simpa using hc)
        rw [htw, List.length_cons]
        exact ⟨List.mem_cons_of_mem _ hmem, by omega, by simpa using hz⟩

lemma cString_ends (h : State m₀ L C b m) {o i : ℕ} (hi : b[o + i]? = some 0) :
    Ends (cString o) m (fun s t => s = (b.drop o).takeWhile (· ≠ 0) ∧ s.length ≤ i ∧ m = t) E := by
  obtain ⟨hmem, hle, -⟩ := first_zero (b := b.drop o) (i := i) (by rwa [List.getElem?_drop])
  rw [Ends, cString, h.view.block]
  dsimp only
  rw [if_pos hmem]
  exact ⟨rfl, hle, rfl⟩

omit noise in
lemma reset_ends (h : State m₀ L C b m) (hf : Fit C b) :
    Ends reset m (fun _ t => Kept m₀ t ∧ ∃ b', State m₀ 0 C b' t ∧ b'.length = b.length) E := by
  have hsize := hf.size
  have hleast := hf.least
  have hlen : (splice b (Int.toNat 0) [0]).length = b.length := length_splice (by simp; omega)
  refine (write_ends h le_rfl (by simp; omega)).bind fun _ t ht => ?_
  refine (setLength_ends ht 0).mono (fun _ u hu => ⟨hu.kept ?_ le_rfl (by omega) ?_, _, hu, hlen⟩) fun _ hu => hu
  · exact hf.splice (by simp; omega)
  · exact splice_zero 0 (i := 0) (by simp; omega) rfl

lemma assignStr_keeps (hv : Valid m) (str : Option (List UInt8)) (hfit : ((str.getD []).length : ℤ) < 2 ^ 31) :
    Ends (assignStr noise str) m (fun _ => Kept m) (Kept m) := by
  rw [assignStr]
  dsimp only
  set s := str.getD []
  obtain ⟨L, C, b, hview, hf, hL, hle, hz⟩ := hv
  by_cases hs : s = []
  · rw [if_pos hs]
    exact (reset_ends hview.state hf).left
  · rw [if_neg hs, toInt_eq (by omega) hfit]
    refine ((growTo_ends noise hview.state hf hL hle hfit).mono (fun _ _ ht => ht) fun t ht =>
      ht.kept hf hL hle hz).bind ?_
    rintro - t ⟨C', b', ht, hf', -, hC, -⟩
    have hsize' := hf'.size
    refine (setLength_ends ht s.length).bind fun _ t ht => ?_
    refine (argument_ends (by omega) (by simp)).bind ?_
    rintro _ t ⟨rfl, rfl⟩
    have hlen : ((s ++ [0]).take ((s.length : ℤ) + 1).toNat).length = s.length + 1 := by
      rw [List.length_take, List.length_append, List.length_singleton]
      omega
    refine (write_ends ht le_rfl (by rw [hlen]; push_cast; omega)).bind fun _ t ht => ?_
    exact (terminate_ends ht (hf'.splice (by rw [hlen]; push_cast; omega)) (by omega) hC).left

lemma assignInt_ends (h : State m₀ L C b m) (hf : Fit C b) {val : ℤ} (h0 : -2 ^ 31 ≤ val) (hval : val < 2 ^ 31) :
    Ends (assignInt val) m (fun _ => Kept m₀) E := by
  have hlen := length_decimal h0 hval
  have hsize := hf.size
  have hleast := hf.least
  have hin : (0 : ℤ) + ((decimal val ++ [0]).length : ℤ) ≤ b.length := by
    rw [List.length_append, List.length_singleton]
    push_cast
    omega
  rw [assignInt]
  refine (write_ends h le_rfl hin).bind fun _ t ht => ?_
  set b' := splice b (Int.toNat 0) (decimal val ++ [0]) with hb'
  have hz : b'[0 + (decimal val).length]? = some 0 := splice_zero 0 (by simpa using by omega) (by simp)
  refine (cString_ends ht hz).bind ?_
  rintro s u ⟨hs, hle, rfl⟩
  refine (setLength_ends ht s.length).mono (fun _ u hu => hu.kept ?_ (by omega) (by omega) ?_) fun _ hu => hu
  · exact hf.splice (by simpa using by omega)
  · have hfirst := (first_zero hz).2.2
    rw [Int.toNat_natCast, hs]
    exact hfirst

lemma assignInt_keeps (hv : Valid m) {val : ℤ} (h0 : -2 ^ 31 ≤ val) (hval : val < 2 ^ 31) :
    Ends (assignInt val) m (fun _ => Kept m) (Kept m) := by
  obtain ⟨L, C, b, hview, hf, -⟩ := hv
  exact assignInt_ends hview.state hf h0 hval

lemma set_keeps (hv : Valid m) {str : List UInt8} (hfit : (str.length : ℤ) < 2 ^ 31) :
    Ends (set noise str) m (fun _ => Kept m) (Kept m) := by
  obtain ⟨L, C, b, hview, hf, hL, hle, hz⟩ := hv
  rw [CStrObject.set]
  refine ((growTo_ends noise hview.state hf hL hle hfit).mono (fun _ _ ht => ht) fun t ht =>
    ht.kept hf hL hle hz).bind ?_
  rintro - t ⟨C', b', ht, hf', -, hC, -⟩
  have hsize := hf'.size
  have hleast := hf'.least
  have hempty : Ends (if str.length = 0 then reset else pure ()) t
      (fun _ u => ∃ L' b'', State m L' C' b'' u ∧ b''.length = b'.length) (Kept m) := by
    by_cases hs : str.length = 0
    · rw [if_pos hs]
      exact (reset_ends ht hf').mono (fun _ u hu => ⟨0, hu.2⟩) fun _ hu => hu
    · rw [if_neg hs]
      exact ⟨L, b', ht, rfl⟩
  refine hempty.bind ?_
  rintro - u ⟨L', b'', hu, hlen⟩
  refine (write_ends hu le_rfl (by omega)).bind fun _ u hu => ?_
  have hlen' : (splice b'' (Int.toNat 0) str).length = b'.length := by rw [length_splice (by simp; omega), hlen]
  have hin : (str.length : ℤ) + (([0] : List UInt8).length : ℤ) ≤ (splice b'' (Int.toNat 0) str).length := by
    rw [hlen', List.length_singleton]
    omega
  refine (write_ends hu (by omega) hin).bind fun _ u hu => ?_
  refine (setLength_ends hu str.length).mono (fun _ v hv => hv.kept ?_ (by omega) hC ?_) fun _ hv => hv
  · exact ⟨by rw [length_splice (by omega), hlen']; exact hsize, hf'.least, hf'.most⟩
  · exact splice_zero ((str.length : ℤ)).toNat (i := 0) (by omega) rfl

lemma cutAt_keeps (hv : Valid m) (n : ℤ) : Ends (cutAt n) m (fun _ => Kept m) (Kept m) := by
  obtain ⟨L, C, b, hview, hf, hL, hle, hz⟩ := hv
  rw [cutAt]
  refine (this_ends hview.state).bind ?_
  rintro _ t ⟨rfl, rfl, h⟩
  rw [hview.length]
  by_cases hn : L ≤ n ∨ n < -L
  · rw [if_pos hn]
    exact h.kept hf hL hle hz
  · rw [if_neg hn]
    dsimp only
    have hcut : 0 ≤ (if 0 ≤ n then n else L + n) ∧ (if 0 ≤ n then n else L + n) ≤ L := by
      split <;> omega
    refine (setLength_ends h _).bind fun _ t ht => ?_
    exact (terminate_ends ht hf hcut.1 (hcut.2.trans hle)).left

omit noise in
lemma takeWhile_stops {q : UInt8 → Bool} {i : ℕ} {c : UInt8} (h : b[i]? = some c) (hc : q c = false) :
    (b.takeWhile q).length ≤ i := by
  induction b generalizing i with
  | nil => simp at h
  | cons d b ih =>
    cases hd : q d with
    | false => simp [hd]
    | true =>
      cases i with
      | zero =>
        rw [Option.some.inj h, hc] at hd
        simp at hd
      | succ i =>
        rw [List.takeWhile_cons_of_pos hd, List.length_cons]
        have := ih (i := i) (by simpa using h)
        omega

omit noise in
lemma trimmed_le (b : List UInt8) (n : ℕ) : trimmed b n ≤ n := by
  induction n with
  | zero => exact le_rfl
  | succ n ih =>
    rw [trimmed]
    split
    · exact ih.trans (Nat.le_succ n)
    · exact le_rfl

omit noise in
lemma trim_keeps (hv : Valid m) : Ends trim m (fun _ => Kept m) (Kept m) := by
  obtain ⟨L, C, b, hview, hf, hL, hle, hz⟩ := hv
  have hsize := hf.size
  rw [trim]
  refine (this_ends hview.state).bind ?_
  rintro _ t ⟨rfl, rfl, h⟩
  rw [hview.length, hview.capacity]
  refine (read_ends h le_rfl (by omega) (by omega)).bind ?_
  rintro _ t ⟨rfl, rfl⟩
  dsimp only
  have hz' : ((b.drop (Int.toNat 0)).take (C + 1).toNat)[L.toNat]? = some 0 := by
    rw [List.getElem?_take_of_lt (by omega), Int.toNat_zero, List.drop_zero, hz]
  -- the zero behind the string stops the first loop
  set p := (((b.drop (Int.toNat 0)).take (C + 1).toNat).takeWhile isspace).length with hp
  have hpL : p ≤ L.toNat := takeWhile_stops hz' rfl
  refine (cString_ends h (o := p) (i := L.toNat - p) (by rwa [Nat.add_sub_cancel' hpL])).bind ?_
  rintro rest t ⟨-, hrest, rfl⟩
  have hlen : (rest ++ [0]).length = rest.length + 1 := by simp
  refine (write_ends h le_rfl (by rw [hlen]; push_cast; omega)).bind fun _ t ht => ?_
  have hlen' : (splice b (Int.toNat 0) (rest ++ [0])).length = b.length :=
    length_splice (by rw [hlen, Int.toNat_zero]; omega)
  refine (setLength_ends ht (L - p)).bind fun _ t ht => ?_
  refine (read_ends ht le_rfl (by omega) (by rw [hlen']; omega)).bind ?_
  rintro b' t ⟨hb', rfl⟩
  have hb'len : b'.length ≤ L.toNat := by
    rw [hb', List.length_take]
    omega
  have hn := trimmed_le b' b'.length
  have hin : (trimmed b' b'.length : ℤ) + (([0] : List UInt8).length : ℤ) ≤
      (splice b (Int.toNat 0) (rest ++ [0])).length := by
    rw [hlen', List.length_singleton]
    omega
  refine (write_ends ht (by omega) hin).bind fun _ t ht => ?_
  refine (setLength_ends ht _).mono (fun _ u hu => hu.kept ?_ (by omega) (by omega) ?_) fun _ hu => hu
  · exact (hf.splice (by rw [hlen, Int.toNat_zero]; omega)).splice (by omega)
  · exact splice_zero ((trimmed b' b'.length : ℤ)).toNat (i := 0) (by omega) rfl

omit noise in
lemma length_uricByte (c : UInt8) : (uricByte c).length ≤ 3 := by
  rw [uricByte]
  split_ifs <;> simp

omit noise in
lemma length_flatMap_uricByte (s : List UInt8) : (s.flatMap uricByte).length ≤ 3 * s.length := by
  induction s with
  | nil => simp
  | cons c s ih =>
    have := length_uricByte c
    rw [List.flatMap_cons, List.length_append, List.length_cons]
    omega

omit noise in
lemma temporary_ends {w : List UInt8} (h0 : 0 ≤ L) (hw : w.length ≤ L * 3) (hfit : L * 3 + 1 < 2 ^ 32) :
    Ends (temporary (toInt (L * 3 + 1)) (w ++ [0])) m (fun _ t => m = t ∧ L * 3 + 1 < 2 ^ 31)
      fun t => m = t ∧ 2 ^ 31 ≤ L * 3 + 1 := by
  rw [temporary]
  by_cases hbound : L * 3 + 1 < 2 ^ 31
  · rw [toInt_eq (by omega) hbound, if_neg (by omega),
      if_pos (by rw [List.length_append, List.length_singleton]; push_cast; omega)]
    exact ⟨rfl, hbound⟩
  · rw [if_pos (toInt_neg (not_lt.mp hbound) hfit)]
    exact ends_throw ⟨rfl, not_lt.mp hbound⟩

lemma uricEncode_keeps (hv : Valid m) (hfit : m.str.length * 3 + 1 < 2 ^ 32) :
    Ends (uricEncode noise) m (fun _ => Kept m) (Kept m) := by
  obtain ⟨L, C, b, hview, hf, hL, hle, hz⟩ := hv
  have hsize := hf.size
  rw [hview.length] at hfit
  rw [uricEncode]
  refine (this_ends hview.state).bind ?_
  rintro _ t ⟨rfl, rfl, h⟩
  rw [hview.length]
  refine (write_ends h hL (by simp; omega)).bind fun _ t ht => ?_
  set b' := splice b L.toNat [0] with hb'
  have hb'len : b'.length = b.length := length_splice (by simp; omega)
  have hz' : b'[0 + L.toNat]? = some 0 := by
    have hzero := splice_zero L.toNat (b := b) (i := 0) (show L.toNat + [0].length ≤ b.length by simp; omega) rfl
    rwa [Nat.add_zero, ← hb', ← Nat.zero_add L.toNat] at hzero
  have hf' : Fit C b' := hf.splice (by simp; omega)
  have hkept : ∀ u, State m L C b' u → Kept m u := fun u hu => hu.kept hf' hL hle (by rwa [Nat.zero_add] at hz')
  refine (cString_ends ht hz').bind ?_
  rintro r t ⟨-, hr, rfl⟩
  have hw := length_flatMap_uricByte r
  dsimp only
  set w := r.flatMap uricByte with hwdef
  refine ((temporary_ends (w := w) hL (by omega) hfit).mono (fun _ _ hu => hu) fun u hu => hkept u (hu.1 ▸ ht)).bind ?_
  rintro - t ⟨rfl, hbound⟩
  have hwlt : (w.length : ℤ) < 2 ^ 31 := by omega
  have hlenw : toInt (w.length : ℤ) = w.length := toInt_eq (by omega) hwlt
  rw [hlenw]
  refine ((growTo_ends noise ht hf' hL hle hwlt).mono (fun _ _ hu => hu) hkept).bind ?_
  rintro - t ⟨C', b'', ht, hf'', -, hC, -⟩
  refine (setLength_ends ht w.length).bind fun _ t ht => ?_
  refine (fill_ends ht hf'' (by omega) hC (by simp) ?_).left
  rw [Int.toNat_natCast, List.getElem?_append_right le_rfl, Nat.sub_self]
  rfl

omit noise in
lemma decodeInt_lt {buf rest : List UInt8} (h : Transport.decodeInt buf = some (n, rest)) : n < 2 ^ 31 := by
  match buf, h with
  | a :: b :: c :: d :: buf, h =>
    have ha := a.toNat_lt
    have hb := b.toNat_lt
    have hc := c.toNat_lt
    have hd := d.toNat_lt
    simp only [Transport.decodeInt, CSocket.ntohl, List.foldl_cons, List.foldl_nil, Option.some.injEq,
      Prod.mk.injEq] at h
    rw [← h.1]
    split_ifs <;> omega

lemma decode_keeps (hv : Valid m) {buf rest : List UInt8} (hbuf : Transport.decodeInt buf = some (n, rest))
    (h0 : 0 ≤ n) (hn : n ≤ rest.length) : Ends (decode noise buf) m (fun _ => Kept m) (Kept m) := by
  have hlt := decodeInt_lt hbuf
  obtain ⟨L, C, b, hview, hf, hL, hle, hz⟩ := hv
  rw [decode, hbuf]
  dsimp only
  refine ((growTo_ends noise hview.state hf hL hle hlt).mono (fun _ _ ht => ht) fun t ht =>
    ht.kept hf hL hle hz).bind ?_
  rintro - t ⟨C', b', ht, hf', -, hC, -⟩
  have hsize := hf'.size
  refine (setLength_ends ht n).bind fun _ t ht => ?_
  refine (argument_ends h0 hn).bind ?_
  rintro _ t ⟨rfl, rfl⟩
  have hlen : (rest.take n.toNat).length = n.toNat := by
    rw [List.length_take]
    omega
  refine (write_ends ht le_rfl (by rw [hlen]; omega)).bind fun _ t ht => ?_
  have hf'' : Fit C' (splice b' (Int.toNat 0) (rest.take n.toNat)) :=
    hf'.splice (by rw [hlen, Int.toNat_zero]; omega)
  refine (terminate_ends ht hf'' h0 hC).bind fun _ t ht => ?_
  exact ends_pure ht.1

omit noise in
lemma setBuffer_none_ends (h : State m₀ L C b m) :
    Ends (setBuffer none) m (fun _ t => State m₀ L C m.str.inline t) E :=
  ⟨⟨h.view.length, h.view.capacity, rfl, h.view.inline⟩, h.frame.others, h.frame.brk,
    fun p hp => absurd hp (by simp)⟩

omit noise in
lemma fit_inline {b : List UInt8} (h : b.length = 32) : Fit 31 b := ⟨by rw [h]; rfl, le_rfl, by norm_num⟩

omit noise in
lemma steal_keeps (hv : Valid m) : Ends steal m (fun _ => Kept m) (Kept m) := by
  obtain ⟨L, C, b, hview, hf, hL, hle, hz⟩ := hv
  have hsize := hf.size
  rw [steal]
  refine (this_ends hview.state).bind ?_
  rintro _ t ⟨rfl, rfl, h⟩
  rw [hview.length]
  cases hbuf : m.str.buffer with
  | some p =>
    refine (setBuffer_none_ends h).bind fun _ t ht => ?_
    refine (setCapacity_ends ht 31).bind fun _ t ht => ?_
    refine (reset_ends ht (fit_inline h.view.inline)).bind fun _ t ht => ?_
    exact ends_pure ht.1
  | none =>
    refine (read_ends h le_rfl hL (by omega)).bind ?_
    rintro src _ ⟨-, rfl⟩
    refine (ends_get (Q := fun s t => m = s ∧ m = t) ⟨rfl, rfl⟩).bind ?_
    rintro _ _ ⟨rfl, rfl⟩
    refine (ends_put (Q := fun _ => State m L C b) (alloc_state h (src ++ [0]))).bind fun _ t ht => ?_
    refine (reset_ends ht hf).bind fun _ t ht => ?_
    exact ends_pure ht.1

omit noise in
structure Raw (m : CStrMem) : Prop where
  buffer : m.str.buffer = none
  inline : m.str.inline.length = 32

omit noise in
lemma Raw.state (h : Raw m) : State m m.str.length m.str.capacity m.str.inline m :=
  View.state ⟨rfl, rfl, CStrMem.block_inline h.buffer, h.inline⟩

omit noise in
lemma init_ends (h : Raw m) :
    Ends init m (fun _ t => ∃ b, State m 0 31 b t ∧ Fit 31 b ∧ b[0]? = some 0) E := by
  rw [init]
  refine (setBuffer_none_ends h.state).bind fun _ t ht => ?_
  refine (write_ends ht le_rfl (by rw [h.inline]; simp)).bind fun _ t ht => ?_
  refine (setLength_ends ht 0).bind fun _ t ht => ?_
  refine (setCapacity_ends ht _).mono (fun _ u hu => ⟨_, hu, ?_, ?_⟩) fun _ hu => hu
  · exact fit_inline (by rw [length_splice (by rw [h.inline]; simp), h.inline])
  · exact splice_zero 0 (i := 0) (by rw [h.inline]; simp) rfl

lemma moveTo_ends (h : State m₀ L C b m) (h0 : 31 < n) (hn : n < 2 ^ 31) :
    Ends (moveTo noise n) m (fun _ t => ∃ b', State m₀ L n b' t ∧ Fit n b')
      (fun t => Frame m₀ t ∧ n = 2 ^ 31 - 1) := by
  rw [moveTo]
  refine ((newBlock_ends noise h (toInt (n + 1))).mono (fun _ _ ht => ht) fun t ht => ?_).bind ?_
  · have hneg := ht.2
    rw [toInt] at hneg
    exact ⟨ht.1 ▸ h.frame, by omega⟩
  rintro p t ⟨ht, hpos, rfl, -, -, b', hb', hlen⟩
  have hcap : toInt (n + 1) = n + 1 ∧ n < 2 ^ 31 - 1 := by
    rw [toInt] at hpos ⊢
    omega
  refine (setBuffer_ends ht hb' h.frame.brk).bind fun _ t ht => ?_
  refine (setCapacity_ends ht.1 n).mono (fun _ u hu => ⟨b', hu, ?_, by omega, hcap.2⟩) fun _ hu => hu
  rw [hlen, hcap.1]

lemma new_keeps (h : Raw m) (str : Option (List UInt8)) (hfit : ((str.getD []).length : ℤ) < 2 ^ 31) :
    Ends (new noise str) m (fun _ t => Kept m t ∧ t.str.length = (str.getD []).length)
      (fun t => Frame m t ∧ ((str.getD []).length : ℤ) = 2 ^ 31 - 1) := by
  cases str with
  | none =>
    refine (init_ends h).mono ?_ fun _ ht => ht
    rintro - t ⟨b, ht, hf, hz⟩
    exact ⟨ht.kept hf le_rfl (by norm_num) hz, ht.view.length⟩
  | some str =>
    rw [Option.getD_some] at hfit ⊢
    rw [new, toInt_eq (by omega) hfit]
    refine (setLength_ends h.state str.length).bind fun _ t ht => ?_
    have hplace : Ends (if maxCStrBufferLen - 1 < (str.length : ℤ) then moveTo noise str.length
        else do setBuffer none; setCapacity (maxCStrBufferLen - 1)) t
        (fun _ u => ∃ C b, State m str.length C b u ∧ Fit C b ∧ (str.length : ℤ) ≤ C)
        (fun t => Frame m t ∧ (str.length : ℤ) = 2 ^ 31 - 1) := by
      have hinline : maxCStrBufferLen - 1 = 31 := rfl
      rw [hinline]
      by_cases hlong : 31 < (str.length : ℤ)
      · rw [if_pos hlong]
        have hmove := moveTo_ends noise (n := (str.length : ℤ)) ht hlong hfit
        refine hmove.mono (fun _ u hu => ?_) fun _ hu => hu
        obtain ⟨b', hu, hf⟩ := hu
        exact ⟨_, b', hu, hf, le_rfl⟩
      · rw [if_neg hlong]
        refine (setBuffer_none_ends ht).bind fun _ u hu => ?_
        refine (setCapacity_ends hu _).mono (fun _ v hv => ⟨_, _, hv, ?_, not_lt.mp hlong⟩) fun _ hv => hv
        exact fit_inline ht.view.inline
    refine hplace.bind ?_
    rintro - u ⟨C, b, hu, hf, hC⟩
    refine (argument_ends (by omega) (by simp)).bind ?_
    rintro _ v ⟨rfl, rfl⟩
    have hall : (str ++ [0]).take ((str.length : ℤ) + 1).toNat = str ++ [0] :=
      List.take_of_length_le (by simp)
    rw [hall]
    exact fill_ends hu hf (by omega) hC (by simp) (by simp)

lemma newCopy_keeps (h : Raw m) (h0 : 0 ≤ n) (hn : n < 2 ^ 31) (hlen : (src.length : ℤ) = n + 1)
    (hz : src[n.toNat]? = some 0) : Ends (newCopy noise n src) m (fun _ => Kept m) (Frame m) := by
  rw [newCopy]
  refine (init_ends h).bind ?_
  rintro - t ⟨b, ht, hf, -⟩
  refine (setLength_ends ht n).bind fun _ t ht => ?_
  refine (this_ends ht).bind ?_
  rintro _ _ ⟨rfl, rfl, -⟩
  rw [ht.view.capacity]
  have hplace : Ends (if 31 < n then moveTo noise n else pure ()) t
      (fun _ u => ∃ C b, State m n C b u ∧ Fit C b ∧ n ≤ C) (Frame m) := by
    by_cases hlong : 31 < n
    · rw [if_pos hlong]
      refine (moveTo_ends noise ht hlong hn).mono ?_ fun _ hu => hu.1
      rintro - u ⟨b', hu, hf⟩
      exact ⟨n, b', hu, hf, le_rfl⟩
    · rw [if_neg hlong]
      exact ⟨31, b, ht, hf, not_lt.mp hlong⟩
  refine hplace.bind ?_
  rintro - u ⟨C, b, hu, hf, hC⟩
  exact (fill_ends hu hf h0 hC hlen hz).left

omit noise in
lemma newInt_keeps (h : Raw m) {val : ℤ} (h0 : -2 ^ 31 ≤ val) (hval : val < 2 ^ 31) :
    Ends (newInt val) m (fun _ => Kept m) (Frame m) := by
  rw [newInt]
  refine (setBuffer_none_ends h.state).bind fun _ t ht => ?_
  refine (write_ends ht le_rfl (by rw [h.inline]; simp)).bind fun _ t ht => ?_
  refine (setCapacity_ends ht _).bind fun _ t ht => ?_
  refine assignInt_ends ht (fit_inline ?_) h0 hval
  rw [length_splice (by rw [h.inline]; simp), h.inline]

omit noise in
lemma bytes_view (hview : View m L C b) (hf : Fit C b) (h0 : 0 ≤ L) (hle : L ≤ C) :
    Ends bytes m (fun r t => m = t ∧ r = (L, b.take (L + 1).toNat)) E := by
  have hsize := hf.size
  rw [bytes]
  refine (this_ends hview.state).bind ?_
  rintro _ _ ⟨rfl, rfl, h⟩
  rw [hview.length]
  refine (read_ends h le_rfl (by omega) (by omega)).bind ?_
  rintro src _ ⟨rfl, rfl⟩
  exact ends_pure ⟨rfl, rfl⟩

omit noise in
lemma bytes_ends (hv : Valid m) : Ends bytes m (fun r t => m = t ∧ r.1 = m.str.length ∧ 0 ≤ r.1 ∧ r.1 < 2 ^ 31 ∧
    (r.2.length : ℤ) = r.1 + 1 ∧ r.2[r.1.toNat]? = some 0) E := by
  obtain ⟨L, C, b, hview, hf, hL, hle, hz⟩ := hv
  have hsize := hf.size
  have hmost := hf.most
  refine (bytes_view hview hf hL hle).mono ?_ fun _ ht => ht
  rintro _ _ ⟨rfl, rfl⟩
  refine ⟨rfl, hview.length.symm, hL, by dsimp only; omega, ?_, ?_⟩
  · dsimp only
    rw [List.length_take]
    omega
  · dsimp only
    rw [List.getElem?_take_of_lt (by omega)]
    exact hz

omit noise in
lemma destroy_done (hv : Valid m) : ∃ t, destroy m = some (.done (), t) ∧ t.str = m.str ∧
    t.heap.brk = m.heap.brk ∧ (∀ q, m.str.buffer = some q → t.heap.read q = none) ∧
    ∀ q, m.str.buffer ≠ some q → t.heap.read q = m.heap.read q := by
  obtain ⟨L, C, b, hview, -⟩ := hv
  cases hbuf : m.str.buffer with
  | none =>
    refine ⟨m, ?_, rfl, rfl, ?_, fun _ _ => rfl⟩
    · refine (Act.bind_done (x := this) rfl _).trans ?_
      rw [hbuf]
      rfl
    · intro q hq
      cases hq
  | some p =>
    obtain ⟨heap, hfree, -, hbrk⟩ := Heap.free_spec (hview.read hbuf)
    refine ⟨{ m with heap }, ?_, rfl, hbrk, fun q hq => ?_, fun q hq => ?_⟩
    · refine (Act.bind_done (x := this) rfl _).trans ?_
      rw [hbuf]
      change deleteBlock p m = _
      rw [deleteBlock, hfree]
    · rw [Heap.read_free hfree, if_pos (Option.some.inj hq).symm]
    · rw [Heap.read_free hfree, if_neg]
      rintro rfl
      exact hq rfl

omit noise in
lemma Kept.trans {m₁ m₂ : CStrMem} (h : Kept m₀ m₁) (h' : Kept m₁ m₂) : Kept m₀ m₂ := ⟨h'.1, h.2.trans h'.2⟩

structure Untouched (m t : CStrMem) : Prop where
  str : t.str = m.str
  brk : m.heap.brk ≤ t.heap.brk
  read : ∀ p, p < m.heap.brk → t.heap.read p = m.heap.read p

omit noise in
lemma Untouched.kept {t : CStrMem} (h : Untouched m t) (hv : Valid m) : Kept m t := by
  obtain ⟨L, C, b, hview, hf, hL, hle, hz⟩ := hv
  refine ⟨⟨L, C, b, ⟨?_, ?_, ?_, ?_⟩, hf, hL, hle, hz⟩, fun p _ hp => h.read p hp, h.brk, fun p hp => Or.inl ?_⟩
  · rw [h.str, hview.length]
  · rw [h.str, hview.capacity]
  · cases hbuf : m.str.buffer with
    | none =>
      rw [CStrMem.block_inline (by rw [h.str, hbuf]), h.str]
      exact (CStrMem.block_inline hbuf).symm.trans hview.block
    | some p =>
      rw [CStrMem.block_heap (by rw [h.str, hbuf]), h.read p (hview.live hbuf)]
      exact hview.read hbuf
  · rw [h.str, hview.inline]
  · rwa [h.str] at hp

lemma raw_raw (heap : Heap (List UInt8)) : Raw ⟨heap, raw noise⟩ := ⟨rfl, by simp [raw, maxCStrBufferLen]⟩

lemma destroy_local {l : CStrMem} (hl : Kept ⟨m.heap, raw noise⟩ l) : ∃ t, destroy l = some (.done (), t) ∧
    Untouched m { m with heap := t.heap } := by
  obtain ⟨t, ht, -, hbrk, -, hread⟩ := destroy_done hl.1
  refine ⟨t, ht, rfl, hbrk ▸ hl.2.brk, fun p hp => ?_⟩
  have hnot : l.str.buffer ≠ some p := by
    intro heq
    rcases hl.2.own p heq with h₀ | hge
    · simp [raw] at h₀
    · exact absurd hp (not_lt.mpr hge)
  exact (hread p hnot).trans (hl.2.others p (by simp [raw]) hp)

lemma onLocal_ends {x : Op Unit}
    (hx : ∀ l, Valid l → l.str.length = 0 → Ends x l (fun _ => Kept l) (Kept l)) :
    Ends (onLocal noise x) m (fun r t => Untouched m t ∧ 0 ≤ r.1 ∧ r.1 < 2 ^ 31 ∧
      (r.2.length : ℤ) = r.1 + 1 ∧ r.2[r.1.toNat]? = some 0) (Untouched m) := by
  have hprog : Ends (do init; x; bytes) ⟨m.heap, raw noise⟩ (fun r l => Kept ⟨m.heap, raw noise⟩ l ∧ 0 ≤ r.1 ∧
      r.1 < 2 ^ 31 ∧ (r.2.length : ℤ) = r.1 + 1 ∧ r.2[r.1.toNat]? = some 0) (Kept ⟨m.heap, raw noise⟩) := by
    refine (init_ends (raw_raw noise m.heap)).bind ?_
    rintro - l ⟨b, hl, hf, hz⟩
    have hkept := hl.kept hf le_rfl (by norm_num) hz
    refine ((hx l hkept.1 hl.view.length).mono (fun _ u hu => hkept.trans hu) fun u hu => hkept.trans hu).bind ?_
    rintro - u hu
    refine (bytes_ends hu.1).mono (fun r v hr => ?_) fun _ hv => hv
    exact ⟨hr.1 ▸ hu, hr.2.2⟩
  rw [Ends] at hprog
  rw [Ends, onLocal]
  cases hrun : (do init; x; bytes : Op (ℤ × List UInt8)) ⟨m.heap, raw noise⟩ with
  | none => simp [hrun] at hprog
  | some res =>
    obtain ⟨o, l⟩ := res
    rw [hrun] at hprog
    cases o with
    | thrown =>
      obtain ⟨t, ht, hu⟩ := destroy_local noise hprog
      dsimp only
      rw [ht]
      exact hu
    | done r =>
      obtain ⟨t, ht, hu⟩ := destroy_local noise hprog.1
      dsimp only
      rw [ht]
      exact ⟨hu, hprog.2⟩

def replaced (pattern replace : List UInt8) : ℕ → List UInt8 → List UInt8
  | 0, p => p
  | fuel + 1, p =>
    match CStr.strstr pattern p with
    | none => p
    | some q => p.take q ++ (replace ++ replaced pattern replace fuel (p.drop (q + pattern.length)))

lemma replaceLoop_keeps (pattern replace : List UInt8) (fuel : ℕ) (p : List UInt8) (hv : Valid m)
    (hfit : m.str.length + (replaced pattern replace fuel p).length < 2 ^ 31) :
    Ends (replaceLoop noise pattern replace fuel p) m (fun _ => Kept m) (Kept m) := by
  induction fuel generalizing p m with
  | zero => exact (appendStr_keeps noise hv hfit).left
  | succ fuel ih =>
    rw [replaceLoop]
    rw [replaced] at hfit
    cases hq : CStr.strstr pattern p with
    | none =>
      rw [hq] at hfit
      exact (appendStr_keeps noise hv hfit).left
    | some q =>
      rw [hq] at hfit
      dsimp only at hfit ⊢
      rw [List.length_append, List.length_append] at hfit
      push_cast at hfit
      refine (nCat_keeps noise hv _ (by omega)).bind fun _ t ht => ?_
      have hlen := ht.2
      refine ((appendStr_keeps noise ht.1.1 (by omega)).mono (fun _ _ hu => hu) fun u hu =>
        ht.1.trans hu).bind fun _ u hu => ?_
      have hlen' := hu.2
      have hkept := ht.1.trans hu.1
      exact (ih _ hu.1.1 (by omega)).mono (fun _ v hv => hkept.trans hv) fun v hv => hkept.trans hv

lemma replace_keeps (hv : Valid m) (pattern rep : List UInt8)
    (hfit : ∀ b, m.block = some b →
      ((replaced pattern rep (b.takeWhile (· ≠ 0)).length (b.takeWhile (· ≠ 0))).length : ℤ) < 2 ^ 31) :
    Ends (replace noise pattern rep) m (fun _ => Kept m) (Kept m) := by
  obtain ⟨L, C, b, hview, hf, hL, hle, hz⟩ := id hv
  have hfit := hfit b hview.block
  rw [replace]
  refine (cString_ends hview.state (o := 0) (by rwa [Nat.zero_add])).bind ?_
  rintro s _ ⟨rfl, -, rfl⟩
  rw [List.drop_zero]
  refine ((onLocal_ends noise (m := m) fun l hl hl0 => ?_).mono (fun _ _ ht => ht) fun t ht => ht.kept hv).bind ?_
  · exact replaceLoop_keeps noise pattern rep _ _ hl (by rw [hl0]; omega)
  · intro r t ht
    have hkept := ht.1.kept hv
    exact (assign_keeps noise hkept.1 ht.2.1 ht.2.2.1 ht.2.2.2.1 ht.2.2.2.2).mono (fun _ u hu => hkept.trans hu)
      fun u hu => hkept.trans hu

end New

end Xframe.Comserv.CStrObject
