import Xframe.Comserv.BufferCallbacks
import Xframe.Lib.Run

/-! Runs of `readFromBuffer`, `writeIntoBuffer` and `rearrange` with any two callbacks, and the bytes
that went through them. -/

namespace Xframe.Comserv

open Lib

structure Master (σ : Type) where
  popFromBuff : σ → List UInt8 → ℕ → ℤ × σ
  pushIntoBuff : σ → ℕ → ℕ → ℤ × List UInt8 × σ
  pop_le : ∀ s src n, (popFromBuff s src n).1 ≤ n
  push_le : ∀ s off n, (pushIntoBuff s off n).1 ≤ n
  push_length : ∀ s off n, (pushIntoBuff s off n).2.1.length = (pushIntoBuff s off n).1.toNat

structure Traffic (σ : Type) where
  master : σ
  consumed : List UInt8
  produced : List UInt8

namespace Master

variable {σ : Type} (m : Master σ)

def pop (t : Traffic σ) (src : List UInt8) (n : ℕ) : ℤ × Traffic σ :=
  let (ret, master) := m.popFromBuff t.master src n
  (ret, { t with master, consumed := t.consumed ++ src.take ret.toNat })

def push (t : Traffic σ) (off n : ℕ) : ℤ × List UInt8 × Traffic σ :=
  let (ret, bytes, master) := m.pushIntoBuff t.master off n
  (ret, bytes, { t with master, produced := t.produced ++ bytes })

lemma pop_consumes : TBuffer.Consumes m.pop Traffic.consumed :=
  ⟨fun t src n _ => m.pop_le t.master src n, fun _ _ _ _ => rfl⟩

lemma push_produces : TBuffer.Produces m.push Traffic.produced :=
  ⟨fun t off n => m.push_le t.master off n, fun t off n => m.push_length t.master off n, fun _ _ _ => rfl⟩

end Master

inductive BufferCall
  | readFromBuffer (length : ℤ)
  | writeIntoBuffer (length : ℤ)
  | rearrange

structure BufferQueue (σ : Type) where
  buf : TBuffer
  traffic : Traffic σ

namespace BufferQueue

variable {σ : Type} (m : Master σ) (memcpy : TBuffer.Memcpy)

def new (size : ℕ) (master : σ) : BufferQueue σ := ⟨TBuffer.new size, master, [], []⟩

def call (q : BufferQueue σ) : BufferCall → ℤ × BufferQueue σ
  | .readFromBuffer length =>
    if length ≤ 0 then (length, q)
    else
      let (ret, buf, traffic) := q.buf.readFromBuffer m.pop q.traffic length.toNat
      (ret, ⟨buf, traffic⟩)
  | .writeIntoBuffer length =>
    if length ≤ 0 then (length, q)
    else
      let (ret, buf, traffic) := q.buf.writeIntoBuffer m.push q.traffic length.toNat
      (ret, ⟨buf, traffic⟩)
  | .rearrange => (0, { q with buf := q.buf.rearrange memcpy })

/-- No callback transfers all of the first piece and then nothing of the second, and `rearrange`
copies between areas that do not overlap. -/
def Smooth (q : BufferQueue σ) : BufferCall → Prop
  | .readFromBuffer length => ¬q.buf.PopBroken m.pop q.traffic (min length.toNat q.buf.filledLength)
  | .writeIntoBuffer length => ¬q.buf.PushBroken m.push q.traffic (min length.toNat q.buf.freeLength)
  | .rearrange => q.buf.Apart memcpy

instance (q : BufferQueue σ) : (c : BufferCall) → Decidable (q.Smooth m memcpy c)
  | .readFromBuffer _ => inferInstanceAs (Decidable (¬_))
  | .writeIntoBuffer _ => inferInstanceAs (Decidable (¬_))
  | .rearrange => inferInstanceAs (Decidable (_ ∨ _ ∨ _))

def SmoothStep (q : BufferQueue σ) (c : BufferCall) (q' : BufferQueue σ) : Prop :=
  q.Smooth m memcpy c ∧ q' = (q.call m memcpy c).2

structure Fifo (size : ℕ) (q : BufferQueue σ) : Prop where
  ok : q.buf.Ok
  size_eq : q.buf.size = size
  order : q.traffic.consumed ++ q.buf.contents = q.traffic.produced

def Told (q : BufferQueue σ) (c : BufferCall) (ret : ℤ) (q' : BufferQueue σ) : Prop :=
  match c with
  | .readFromBuffer _ =>
    q'.traffic.produced = q.traffic.produced ∧
      ∃ old, old.length = ret.toNat ∧ q.buf.contents = old ++ q'.buf.contents ∧
        q'.traffic.consumed = q.traffic.consumed ++ old
  | .writeIntoBuffer _ =>
    q'.traffic.consumed = q.traffic.consumed ∧
      ∃ new, new.length = ret.toNat ∧ q'.buf.contents = q.buf.contents ++ new ∧
        q'.traffic.produced = q.traffic.produced ++ new
  | .rearrange => q'.buf.contents = q.buf.contents ∧ q'.traffic = q.traffic

variable {m memcpy} {q q' : BufferQueue σ} {size : ℕ}

lemma told_of_nothing {c : BufferCall} {ret : ℤ} (hr : ret ≤ 0) : Told q c ret q := by
  have h0 : ret.toNat = 0 := by omega
  cases c with
  | readFromBuffer length => exact ⟨rfl, [], by rw [h0]; rfl, rfl, (List.append_nil _).symm⟩
  | writeIntoBuffer length => exact ⟨rfl, [], by rw [h0]; rfl, (List.append_nil _).symm, (List.append_nil _).symm⟩
  | rearrange => exact ⟨rfl, rfl⟩

lemma told_fifo {c : BufferCall} {ret : ℤ} (h : Told q c ret q')
    (ho : q.traffic.consumed ++ q.buf.contents = q.traffic.produced) :
    q'.traffic.consumed ++ q'.buf.contents = q'.traffic.produced := by
  cases c with
  | readFromBuffer length =>
    obtain ⟨hp, old, -, hcon, hc⟩ := h
    rw [hp, ← ho, hc, hcon, List.append_assoc]
  | writeIntoBuffer length =>
    obtain ⟨hc, new, -, hcon, hp⟩ := h
    rw [hp, ← ho, hc, hcon, List.append_assoc]
  | rearrange =>
    obtain ⟨hcon, ht⟩ := h
    rw [ht, hcon, ho]

lemma Fifo.read (h : Fifo size q) {length : ℤ} (hs : q.Smooth m memcpy (.readFromBuffer length)) :
    (q.call m memcpy (.readFromBuffer length)).2.buf.Ok ∧
      (q.call m memcpy (.readFromBuffer length)).2.buf.size = q.buf.size ∧
      Told q (.readFromBuffer length) (q.call m memcpy (.readFromBuffer length)).1
        (q.call m memcpy (.readFromBuffer length)).2 := by
  rw [call]
  split
  · next hlen => exact ⟨h.ok, rfl, told_of_nothing hlen⟩
  next hlen =>
  dsimp only
  by_cases hf : q.buf.filledLength = 0
  · have hnone : q.buf.readFromBuffer m.pop q.traffic length.toNat = (0, q.buf, q.traffic) := by
      rw [TBuffer.readFromBuffer, if_neg (by omega), if_pos hf]
    rw [hnone]
    exact ⟨h.ok, rfl, told_of_nothing le_rfl⟩
  have hkeeps : (q.buf.readFromBuffer m.pop q.traffic length.toNat).2.2.produced = q.traffic.produced :=
    TBuffer.readFromBuffer_keeps (P := fun t : Traffic σ => t.produced = q.traffic.produced) (fun _ _ _ h => h) q.buf rfl _
  rw [TBuffer.readFromBuffer_min _ _ _ (by omega) (by omega)] at hkeeps ⊢
  obtain ⟨hpopped, -⟩ := h.ok.read m.pop_consumes (by omega) (min_le_right _ _) hs
  have hret : (q.buf.readFromBuffer m.pop q.traffic (min length.toNat q.buf.filledLength)).1.toNat =
      q.buf.popCount m.pop q.traffic (min length.toNat q.buf.filledLength) := by
    rcases Nat.eq_zero_or_pos (q.buf.popCount m.pop q.traffic (min length.toNat q.buf.filledLength)) with h0 | h0
    · have := hpopped.none h0
      omega
    · rw [hpopped.ret h0, Int.toNat_natCast]
  refine ⟨hpopped.ok, hpopped.size, hkeeps, q.buf.contents.take (q.buf.popCount m.pop q.traffic _), ?_, ?_,
    hpopped.taken⟩
  · have hle := hpopped.le
    rw [hret, List.length_take, h.ok.length_contents]
    omega
  · dsimp only
    rw [hpopped.left, List.take_append_drop]

lemma Fifo.write (h : Fifo size q) {length : ℤ} (hs : q.Smooth m memcpy (.writeIntoBuffer length)) :
    (q.call m memcpy (.writeIntoBuffer length)).2.buf.Ok ∧
      (q.call m memcpy (.writeIntoBuffer length)).2.buf.size = q.buf.size ∧
      Told q (.writeIntoBuffer length) (q.call m memcpy (.writeIntoBuffer length)).1
        (q.call m memcpy (.writeIntoBuffer length)).2 := by
  rw [call]
  split
  · next hlen => exact ⟨h.ok, rfl, told_of_nothing hlen⟩
  next hlen =>
  dsimp only
  by_cases hf : q.buf.freeLength = 0
  · have hnone : q.buf.writeIntoBuffer m.push q.traffic length.toNat = (0, q.buf, q.traffic) := by
      rw [TBuffer.writeIntoBuffer, if_neg (by omega), if_pos hf]
    rw [hnone]
    exact ⟨h.ok, rfl, told_of_nothing le_rfl⟩
  have hkeeps : (q.buf.writeIntoBuffer m.push q.traffic length.toNat).2.2.consumed = q.traffic.consumed :=
    TBuffer.writeIntoBuffer_keeps (P := fun t : Traffic σ => t.consumed = q.traffic.consumed) (fun _ _ _ h => h) q.buf rfl _
  rw [TBuffer.writeIntoBuffer_min _ _ _ (by omega) (by omega)] at hkeeps ⊢
  obtain ⟨new, hpushed⟩ := h.ok.write m.push_produces (by omega) (min_le_right _ _) hs
  refine ⟨hpushed.ok, hpushed.size, hkeeps, new, ?_, hpushed.stored, hpushed.given⟩
  by_cases hnew : new = []
  · have := hpushed.none hnew
    rw [hnew]
    dsimp only [List.length_nil]
    omega
  · rw [hpushed.ret hnew, Int.toNat_natCast]

lemma Fifo.call (hm : TBuffer.Conforms memcpy) (h : Fifo size q) {c : BufferCall} (hs : q.Smooth m memcpy c) :
    Fifo size (q.call m memcpy c).2 ∧ Told q c (q.call m memcpy c).1 (q.call m memcpy c).2 := by
  have hcall : (q.call m memcpy c).2.buf.Ok ∧ (q.call m memcpy c).2.buf.size = q.buf.size ∧
      Told q c (q.call m memcpy c).1 (q.call m memcpy c).2 := by
    cases c with
    | readFromBuffer length => exact h.read hs
    | writeIntoBuffer length => exact h.write hs
    | rearrange =>
      obtain ⟨hok, hcon, hsize⟩ := h.ok.rearrange hm hs
      exact ⟨hok, hsize, hcon, rfl⟩
  obtain ⟨hok, hsize, htold⟩ := hcall
  exact ⟨⟨hok, hsize.trans h.size_eq, told_fifo htold h.order⟩, htold⟩

theorem fifo_run (hm : TBuffer.Conforms memcpy) (m : Master σ) (size : ℕ) (master : σ) {cs : List BufferCall}
    (h : Run (SmoothStep m memcpy) (new size master) cs q) :
    q.buf.filledLength + q.buf.freeLength = size ∧
      q.traffic.consumed ++ q.buf.contents = q.traffic.produced ∧
      q.buf.contents.length = q.buf.filledLength ∧
      ∀ c, q.Smooth m memcpy c → Told q c (q.call m memcpy c).1 (q.call m memcpy c).2 := by
  have hfifo : Fifo size q := by
    refine h.invariant (I := fun _ q => Fifo size q) ⟨TBuffer.new_ok size, rfl, rfl⟩ ?_
    rintro _ q c q' hq ⟨hs, rfl⟩
    exact (hq.call hm hs).1
  refine ⟨?_, hfifo.order, hfifo.ok.length_contents, fun c hs => (hfifo.call hm hs).2⟩
  rw [hfifo.ok.sum, hfifo.size_eq]

def failing (calls : ℕ) : Master ℕ where
  popFromBuff s _ n := if s = calls then (-1, s + 1) else (n, s + 1)
  pushIntoBuff s off n := (n, (List.range n).map fun i => UInt8.ofNat (off + i + 1), s)
  pop_le s _ n := by
    split <;> omega
  push_le _ _ _ := le_rfl
  push_length _ _ _ := by simp

def wrapping : List BufferCall := [.writeIntoBuffer 3, .readFromBuffer 2, .writeIntoBuffer 2, .readFromBuffer 3]

def after (m : Master σ) (q : BufferQueue σ) (cs : List BufferCall) : BufferQueue σ :=
  cs.foldl (fun q c => (q.call m TBuffer.copied c).2) q

lemma copied_conforms : TBuffer.Conforms TBuffer.copied := fun _ _ _ _ _ _ _ => rfl

theorem fifo_run_wrapping :
    (after (failing 9) (new 4 0) wrapping).traffic.consumed ++ (after (failing 9) (new 4 0) wrapping).buf.contents =
      (after (failing 9) (new 4 0) wrapping).traffic.produced := by
  have hrun : Run (SmoothStep (failing 9) TBuffer.copied) (new 4 0) wrapping (after (failing 9) (new 4 0) wrapping) :=
    Run.cons ⟨by decide, rfl⟩ (Run.cons ⟨by decide, rfl⟩ (Run.cons ⟨by decide, rfl⟩ (Run.cons ⟨by decide, rfl⟩ .nil)))
  exact (fifo_run copied_conforms (failing 9) 4 0 hrun).2.1

theorem second_piece_refused :
    (after (failing 2) (new 4 0) wrapping).traffic.consumed ++ (after (failing 2) (new 4 0) wrapping).buf.contents ≠
      (after (failing 2) (new 4 0) wrapping).traffic.produced := by
  decide

end BufferQueue

end Xframe.Comserv
