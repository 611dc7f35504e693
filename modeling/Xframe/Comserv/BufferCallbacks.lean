import Xframe.Comserv.BufferContents

/-! Reading and writing a buffer through callbacks that transfer as many bytes as they answer, over
one piece of the memory or two. -/

namespace Xframe.Comserv.TBuffer

variable {σ : Type} {pop : σ → List UInt8 → ℕ → ℤ × σ} {push : σ → ℕ → ℕ → ℤ × List UInt8 × σ}
  {bytes : σ → List UInt8} {b : TBuffer} {s : σ} {n : ℕ}

structure Consumes (pop : σ → List UInt8 → ℕ → ℤ × σ) (bytes : σ → List UInt8) : Prop where
  le : ∀ s src n, n ≤ src.length → (pop s src n).1 ≤ n
  taken : ∀ s src n, n ≤ src.length → bytes (pop s src n).2 = bytes s ++ src.take (pop s src n).1.toNat

def firstPiece (b : TBuffer) (n : ℕ) : ℕ := if b.pBufHead < b.pBufTail then n else min n (b.size - b.pBufHead)

def firstPop (b : TBuffer) (pop : σ → List UInt8 → ℕ → ℤ × σ) (s : σ) (n : ℕ) : ℤ × σ :=
  pop s (b.msgBuf.drop b.pBufHead) (b.firstPiece n)

def secondPop (b : TBuffer) (pop : σ → List UInt8 → ℕ → ℤ × σ) (s : σ) (n : ℕ) : ℤ × σ :=
  pop (b.firstPop pop s n).2 b.msgBuf (n - b.firstPiece n)

def PopsOn (b : TBuffer) (pop : σ → List UInt8 → ℕ → ℤ × σ) (s : σ) (n : ℕ) : Prop :=
  b.firstPiece n < n ∧ (b.firstPop pop s n).1 = b.firstPiece n

instance (b : TBuffer) (pop : σ → List UInt8 → ℕ → ℤ × σ) (s : σ) (n : ℕ) : Decidable (b.PopsOn pop s n) :=
  inferInstanceAs (Decidable (_ ∧ _))

def popCount (b : TBuffer) (pop : σ → List UInt8 → ℕ → ℤ × σ) (s : σ) (n : ℕ) : ℕ :=
  if b.PopsOn pop s n then b.firstPiece n + (b.secondPop pop s n).1.toNat else (b.firstPop pop s n).1.toNat

def PopBroken (b : TBuffer) (pop : σ → List UInt8 → ℕ → ℤ × σ) (s : σ) (n : ℕ) : Prop :=
  b.PopsOn pop s n ∧ 0 < b.firstPiece n ∧ (b.secondPop pop s n).1 ≤ 0

instance (b : TBuffer) (pop : σ → List UInt8 → ℕ → ℤ × σ) (s : σ) (n : ℕ) : Decidable (b.PopBroken pop s n) :=
  inferInstanceAs (Decidable (_ ∧ _))

structure Popped (b : TBuffer) (bytes : σ → List UInt8) (s : σ) (n k : ℕ) (out : ℤ × TBuffer × σ) : Prop where
  ok : out.2.1.Ok
  size : out.2.1.size = b.size
  le : k ≤ n
  taken : bytes out.2.2 = bytes s ++ b.contents.take k
  left : out.2.1.contents = b.contents.drop k
  ret : 0 < k → out.1 = k
  none : k = 0 → out.1 ≤ 0

lemma firstPiece_le : b.firstPiece n ≤ n := by
  rw [firstPiece]
  split
  · exact le_rfl
  · exact min_le_left _ _

lemma Ok.firstPiece_le_memory (h : b.Ok) (hn : n ≤ b.filledLength) :
    b.firstPiece n ≤ (b.msgBuf.drop b.pBufHead).length := by
  have h1 := h.memory
  have h2 := h.tail
  rw [firstPiece, List.length_drop]
  split
  · next hlt =>
    have := h.straight hlt
    omega
  · omega

lemma Ok.pop_first (h : b.Ok) (hc : Consumes pop bytes) (hn : n ≤ b.filledLength) :
    b.Popped bytes s n (b.firstPop pop s n).1.toNat
      ((b.firstPop pop s n).1, (b.advanceHead (b.firstPop pop s n).1 (b.firstPiece n)).restart,
        (b.firstPop pop s n).2) := by
  have hmem := h.firstPiece_le_memory hn
  have hpn : b.firstPiece n ≤ n := firstPiece_le
  have hle := hc.le s _ _ hmem
  have htaken := hc.taken s _ _ hmem
  change (b.firstPop pop s n).1 ≤ b.firstPiece n at hle
  change bytes (b.firstPop pop s n).2 = bytes s ++ (b.msgBuf.drop b.pBufHead).take (b.firstPop pop s n).1.toNat at htaken
  have hpiece : b.pBufHead < b.pBufTail ∨ b.firstPiece n ≤ b.size - b.pBufHead := by
    rcases lt_or_ge b.pBufHead b.pBufTail with hlt | hge
    · exact .inl hlt
    · right
      rw [firstPiece, if_neg hge.not_gt]
      exact min_le_right _ _
  generalize b.firstPop pop s n = out at *
  obtain ⟨r, s'⟩ := out
  dsimp only at *
  have hsent : bytes s' = bytes s ++ b.contents.take r.toNat := by
    rw [htaken, h.take_head (by omega)]
    exact hpiece.imp id fun hp => by omega
  by_cases hr : 0 < r
  · obtain ⟨m, rfl⟩ : ∃ m : ℕ, r = m := ⟨r.toNat, by omega⟩
    obtain ⟨hok, hcon⟩ := h.advance (r := m) (n := b.firstPiece n) (by omega) (by omega) (by omega) hpiece
    exact ⟨hok, by simp, by omega, hsent, hcon, fun _ => rfl, by omega⟩
  · have hzero : r.toNat = 0 := by omega
    have hsame : b.advanceHead r (b.firstPiece n) = b := by rw [advanceHead, if_neg fun hc => hr hc.1]
    obtain ⟨hok, hcon⟩ := restart_ok (.inl h)
    rw [hsame]
    exact ⟨hok, by simp, by omega, hsent, by rw [hzero]; exact hcon, by omega, by omega⟩

lemma Ok.pop_second (h : b.Ok) (hc : Consumes pop bytes) (hn : n ≤ b.filledLength) (hw : b.pBufTail ≤ b.pBufHead)
    (hlt : b.size - b.pBufHead < n) (hon : b.PopsOn pop s n) (hb : ¬b.PopBroken pop s n) :
    b.Popped bytes s n (b.firstPiece n + (b.secondPop pop s n).1.toNat)
      ((b.popSplit pop s n).1, (b.popSplit pop s n).2.1.restart, (b.popSplit pop s n).2.2) := by
  have hp : b.firstPiece n = b.size - b.pBufHead := by rw [firstPiece, if_neg hw.not_gt, min_eq_right hlt.le]
  have hmem := h.firstPiece_le_memory hn
  have hret : (b.firstPop pop s n).1 = b.firstPiece n := hon.2
  have hfirst : bytes (b.firstPop pop s n).2 = bytes s ++ b.contents.take (b.firstPiece n) := by
    have := hc.taken s _ _ hmem
    change bytes (b.firstPop pop s n).2 = _ ++ (b.msgBuf.drop b.pBufHead).take (b.firstPop pop s n).1.toNat at this
    rw [this, hret, Int.toNat_natCast, h.take_head (by omega) (.inr (by omega))]
  have hfront := h.take_front hw hlt hn
  have hroom : n - b.firstPiece n ≤ b.msgBuf.length := by
    have := congrArg List.length hfront
    rw [List.length_take, List.length_drop, List.length_take, h.length_contents] at this
    omega
  have hle : (b.secondPop pop s n).1 ≤ (n - b.firstPiece n : ℕ) := hc.le _ _ _ hroom
  have hsecond : bytes (b.secondPop pop s n).2 =
      bytes (b.firstPop pop s n).2 ++ b.msgBuf.take (b.secondPop pop s n).1.toNat := hc.taken _ _ _ hroom
  have hsent : bytes (b.secondPop pop s n).2 =
      bytes s ++ b.contents.take (b.firstPiece n + (b.secondPop pop s n).1.toNat) := by
    have htake : b.msgBuf.take (b.secondPop pop s n).1.toNat =
        (b.contents.drop (b.firstPiece n)).take (b.secondPop pop s n).1.toNat := by
      rw [← hp, List.drop_take] at hfront
      have := congrArg (List.take (b.secondPop pop s n).1.toNat) hfront
      rwa [List.take_take, List.take_take, min_eq_left (by omega)] at this
    rw [hsecond, hfirst, htake, List.append_assoc, ← List.take_add]
  have hpop₁ : pop s (b.msgBuf.drop b.pBufHead) (b.size - b.pBufHead) = b.firstPop pop s n := by rw [firstPop, hp]
  have hpop₂ : pop (b.firstPop pop s n).2 b.msgBuf (n - (b.size - b.pBufHead)) = b.secondPop pop s n := by
    rw [secondPop, hp]
  rw [popSplit]
  dsimp only
  rw [hpop₁, if_pos (by rw [hret, hp]), hpop₂, hret, ← hp]
  have hmore : 0 < b.firstPiece n → 0 < (b.secondPop pop s n).1 := fun h0 => not_le.mp fun hr => hb ⟨hon, h0, hr⟩
  generalize b.secondPop pop s n = out at hle hsent hmore ⊢
  obtain ⟨r, s'⟩ := out
  dsimp only at *
  have hlt' := hon.1
  by_cases hr : 0 < r
  · obtain ⟨m, rfl⟩ : ∃ m : ℕ, r = m := ⟨r.toNat, by omega⟩
    rw [if_pos ⟨hr, hle⟩]
    rw [Int.toNat_natCast] at hsent ⊢
    have hkept := h.advance_split hw (r := m) (by omega) (by omega) hn
    dsimp only at hkept ⊢
    rw [← hp] at hkept
    exact ⟨hkept.1, by simp, by omega, hsent, hkept.2, fun _ => by simp, by omega⟩
  · have hp0 : b.firstPiece n = 0 := by omega
    have hzero : b.firstPiece n + r.toNat = 0 := by omega
    obtain ⟨hok, hcon⟩ := restart_ok (.inl h)
    rw [if_neg fun hc => hr hc.1]
    exact ⟨hok, by simp, by omega, hsent, by rw [hzero]; exact hcon, by omega, by simp [hp0]⟩

lemma firstPiece_of_one (hpiece : b.pBufHead < b.pBufTail ∨ n ≤ b.size - b.pBufHead) : b.firstPiece n = n := by
  rw [firstPiece]
  split
  · rfl
  · next hlt => exact min_eq_left (hpiece.resolve_left hlt)

def popResult (b : TBuffer) (pop : σ → List UInt8 → ℕ → ℤ × σ) (s : σ) (n : ℕ) : ℤ × σ :=
  if b.PopsOn pop s n then (b.popCount pop s n, (b.secondPop pop s n).2) else b.firstPop pop s n

lemma Ok.read (h : b.Ok) (hc : Consumes pop bytes) (h0 : 0 < n) (hn : n ≤ b.filledLength)
    (hb : ¬b.PopBroken pop s n) :
    b.Popped bytes s n (b.popCount pop s n) (b.readFromBuffer pop s n) ∧
      ((b.readFromBuffer pop s n).1, (b.readFromBuffer pop s n).2.2) = b.popResult pop s n := by
  have hone : ∀ m, b.firstPiece n = m → ¬b.PopsOn pop s n →
      b.Popped bytes s n (b.popCount pop s n) ((b.popHead pop s m).1, (b.popHead pop s m).2.1.restart,
        (b.popHead pop s m).2.2) ∧ ((b.popHead pop s m).1, (b.popHead pop s m).2.2) = b.popResult pop s n := by
    rintro m rfl hon
    rw [popCount, popResult, if_neg hon, if_neg hon]
    exact ⟨h.pop_first hc hn, rfl⟩
  have hwhole : b.pBufHead < b.pBufTail ∨ n ≤ b.size - b.pBufHead → ¬b.PopsOn pop s n := by
    intro hpiece hon
    have := hon.1
    rw [firstPiece_of_one hpiece] at this
    exact lt_irrefl _ this
  rw [readFromBuffer, if_neg h0.ne', if_neg (by omega)]
  dsimp only
  rw [min_eq_left hn]
  by_cases hlt : b.pBufHead < b.pBufTail
  · rw [if_pos hlt]
    exact hone n (firstPiece_of_one (.inl hlt)) (hwhole (.inl hlt))
  rw [if_neg hlt]
  by_cases hle : n ≤ b.size - b.pBufHead
  · rw [if_pos hle]
    exact hone n (firstPiece_of_one (.inr hle)) (hwhole (.inr hle))
  have hp : b.firstPiece n = b.size - b.pBufHead := by rw [firstPiece, if_neg hlt, min_eq_right (by omega)]
  have hpop : pop s (b.msgBuf.drop b.pBufHead) (b.size - b.pBufHead) = b.firstPop pop s n := by rw [firstPop, hp]
  rw [if_neg hle]
  by_cases hon : b.PopsOn pop s n
  · have hsecond := h.pop_second hc hn (not_lt.mp hlt) (not_le.mp hle) hon hb
    rw [popResult, popCount, if_pos hon, if_pos hon]
    refine ⟨hsecond, ?_⟩
    have hmore : 0 < b.firstPiece n → 0 < (b.secondPop pop s n).1 := fun h0 => not_le.mp fun hr => hb ⟨hon, h0, hr⟩
    have hpop₂ : pop (b.firstPop pop s n).2 b.msgBuf (n - (b.size - b.pBufHead)) = b.secondPop pop s n := by
      rw [secondPop, hp]
    have hroom : n - b.firstPiece n ≤ b.msgBuf.length := by
      have h1 := h.memory
      have h2 := h.sum
      omega
    have hle₂ : (b.secondPop pop s n).1 ≤ (n - b.firstPiece n : ℕ) := hc.le _ _ _ hroom
    rw [popSplit]
    dsimp only
    rw [hpop, if_pos (by rw [hon.2, hp]), hpop₂, hon.2, ← hp]
    split
    · rfl
    · next hr =>
      refine Prod.ext ?_ rfl
      dsimp only
      omega
  · have hsplit : b.popSplit pop s n = b.popHead pop s (b.size - b.pBufHead) := by
      rw [popSplit, popHead]
      dsimp only
      rw [if_neg fun hr => hon ⟨by omega, by rw [hp, ← hr, hpop]⟩]
    rw [hsplit]
    exact hone _ hp hon

lemma readFromBuffer_min (b : TBuffer) (pop : σ → List UInt8 → ℕ → ℤ × σ) (s : σ) (h0 : 0 < n)
    (hf : 0 < b.filledLength) : b.readFromBuffer pop s n = b.readFromBuffer pop s (min n b.filledLength) := by
  have hmin : min n b.filledLength ≠ 0 := by omega
  rw [readFromBuffer, readFromBuffer, if_neg h0.ne', if_neg hf.ne', if_neg hmin, if_neg hf.ne',
    min_eq_left (min_le_right n b.filledLength)]

lemma readFromBuffer_keeps {P : σ → Prop} (hp : ∀ s src n, P s → P (pop s src n).2) (b : TBuffer) (h : P s) (n : ℕ) :
    P (b.readFromBuffer pop s n).2.2 := by
  rw [readFromBuffer]
  split
  · exact h
  split
  · exact h
  dsimp only
  split
  · exact hp _ _ _ h
  split
  · exact hp _ _ _ h
  rw [popSplit]
  dsimp only
  split
  · split
    · exact hp _ _ _ (hp _ _ _ h)
    · exact hp _ _ _ (hp _ _ _ h)
  · exact hp _ _ _ h

structure Produces (push : σ → ℕ → ℕ → ℤ × List UInt8 × σ) (bytes : σ → List UInt8) : Prop where
  le : ∀ s off n, (push s off n).1 ≤ n
  length : ∀ s off n, (push s off n).2.1.length = (push s off n).1.toNat
  given : ∀ s off n, bytes (push s off n).2.2 = bytes s ++ (push s off n).2.1

def tailPiece (b : TBuffer) (n : ℕ) : ℕ := if b.pBufTail < b.pBufHead then n else min n (b.size - b.pBufTail)

def firstPush (b : TBuffer) (push : σ → ℕ → ℕ → ℤ × List UInt8 × σ) (s : σ) (n : ℕ) : ℤ × List UInt8 × σ :=
  push s 0 (b.tailPiece n)

def secondPush (b : TBuffer) (push : σ → ℕ → ℕ → ℤ × List UInt8 × σ) (s : σ) (n : ℕ) : ℤ × List UInt8 × σ :=
  push (b.firstPush push s n).2.2 (b.tailPiece n) (n - b.tailPiece n)

def PushesOn (b : TBuffer) (push : σ → ℕ → ℕ → ℤ × List UInt8 × σ) (s : σ) (n : ℕ) : Prop :=
  b.tailPiece n < n ∧ (b.firstPush push s n).1 = b.tailPiece n

def PushBroken (b : TBuffer) (push : σ → ℕ → ℕ → ℤ × List UInt8 × σ) (s : σ) (n : ℕ) : Prop :=
  b.PushesOn push s n ∧ 0 < b.tailPiece n ∧ (b.secondPush push s n).1 ≤ 0

instance (b : TBuffer) (push : σ → ℕ → ℕ → ℤ × List UInt8 × σ) (s : σ) (n : ℕ) : Decidable (b.PushBroken push s n) :=
  inferInstanceAs (Decidable ((_ ∧ _) ∧ _))

structure Pushed (b : TBuffer) (bytes : σ → List UInt8) (s : σ) (n : ℕ) (new : List UInt8) (out : ℤ × TBuffer × σ) :
    Prop where
  ok : out.2.1.Ok
  size : out.2.1.size = b.size
  le : new.length ≤ n
  given : bytes out.2.2 = bytes s ++ new
  stored : out.2.1.contents = b.contents ++ new
  ret : new ≠ [] → out.1 = new.length
  none : new = [] → out.1 ≤ 0

lemma tailPiece_le : b.tailPiece n ≤ n := by
  rw [tailPiece]
  split
  · exact le_rfl
  · exact min_le_left _ _

lemma store_nil (b : TBuffer) (dst : ℕ) : b.store dst [] = b := by
  rw [store, blit]
  simp

lemma push_nothing (b : TBuffer) {r : ℤ} (hr : r ≤ 0) (n : ℕ) : (b.store b.pBufTail []).advanceTail r n = b := by
  rw [store_nil, advanceTail, if_neg fun hc => absurd hc.1 (by omega)]

lemma Ok.push_first (h : b.Ok) (hc : Produces push bytes) (hn : n ≤ b.freeLength) :
    b.Pushed bytes s n (b.firstPush push s n).2.1 (b.pushTail push s (b.tailPiece n)) := by
  have hle := hc.le s 0 (b.tailPiece n)
  have hlen := hc.length s 0 (b.tailPiece n)
  have hgiven := hc.given s 0 (b.tailPiece n)
  have hpn : b.tailPiece n ≤ n := tailPiece_le
  have hroom : b.pBufTail < b.pBufHead ∨ b.tailPiece n ≤ b.size - b.pBufTail := by
    rcases lt_or_ge b.pBufTail b.pBufHead with hlt | hge
    · exact .inl hlt
    · right
      rw [tailPiece, if_neg hge.not_gt]
      exact min_le_right _ _
  rw [pushTail, firstPush]
  generalize push s 0 (b.tailPiece n) = out at hle hlen hgiven ⊢
  obtain ⟨r, new, s'⟩ := out
  dsimp only at *
  by_cases hr : 0 < r
  · have hne : new ≠ [] := List.length_pos_iff.mp (by omega)
    obtain rfl : r = new.length := by omega
    obtain ⟨hok, hcon⟩ := h.store_tail new hne (by omega) (hroom.imp id fun hp => by omega) (n := b.tailPiece n)
      (by omega)
    exact ⟨hok, by simp, by omega, hgiven, hcon, fun _ => rfl, fun h => absurd h hne⟩
  · obtain rfl : new = [] := List.length_eq_zero_iff.mp (by omega)
    rw [push_nothing b (by omega)]
    exact ⟨h, rfl, Nat.zero_le _, hgiven, (List.append_nil _).symm, fun h => absurd rfl h, fun _ => by omega⟩

lemma Ok.push_second (h : b.Ok) (hc : Produces push bytes) (hn : n ≤ b.freeLength) (hw : b.pBufHead ≤ b.pBufTail)
    (hlt : b.size - b.pBufTail < n) (hon : b.PushesOn push s n) (hb : ¬b.PushBroken push s n) :
    b.Pushed bytes s n ((b.firstPush push s n).2.1 ++ (b.secondPush push s n).2.1) (b.pushSplit push s n) := by
  have hp : b.tailPiece n = b.size - b.pBufTail := by rw [tailPiece, if_neg hw.not_gt, min_eq_right hlt.le]
  have hret : (b.firstPush push s n).1 = b.tailPiece n := hon.2
  have hlen₁ : (b.firstPush push s n).2.1.length = (b.firstPush push s n).1.toNat := hc.length _ _ _
  have hgiven₁ : bytes (b.firstPush push s n).2.2 = bytes s ++ (b.firstPush push s n).2.1 := hc.given _ _ _
  have hle₂ : (b.secondPush push s n).1 ≤ (n - b.tailPiece n : ℕ) := hc.le _ _ _
  have hlen₂ : (b.secondPush push s n).2.1.length = (b.secondPush push s n).1.toNat := hc.length _ _ _
  have hgiven₂ : bytes (b.secondPush push s n).2.2 = bytes (b.firstPush push s n).2.2 ++ (b.secondPush push s n).2.1 :=
    hc.given _ _ _
  have hmore : 0 < b.tailPiece n → 0 < (b.secondPush push s n).1 := fun h0 => not_le.mp fun hr => hb ⟨hon, h0, hr⟩
  have hpush₁ : push s 0 (b.size - b.pBufTail) = b.firstPush push s n := by rw [firstPush, hp]
  have hpush₂ : push (b.firstPush push s n).2.2 (b.size - b.pBufTail) (n - (b.size - b.pBufTail)) =
      b.secondPush push s n := by rw [secondPush, hp]
  rw [pushSplit]
  dsimp only
  rw [hpush₁, if_pos (by rw [hret, hp]), hpush₂, hret, ← hp]
  rw [hret, Int.toNat_natCast] at hlen₁
  rw [hgiven₁] at hgiven₂
  generalize (b.firstPush push s n).2.1 = front at hlen₁ hgiven₂ ⊢
  generalize b.secondPush push s n = out at hle₂ hlen₂ hgiven₂ hmore ⊢
  obtain ⟨r, back, s'⟩ := out
  dsimp only at *
  have hlt' := hon.1
  by_cases hr : 0 < r
  · have hne : back ≠ [] := List.length_pos_iff.mp (by omega)
    rw [if_pos ⟨hr, hle₂⟩]
    obtain ⟨hok, hcon⟩ := h.store_split front back hw hne (by omega) (by omega)
    have hr' : r.toNat = back.length := hlen₂.symm
    rw [hlen₁] at hok hcon
    rw [hr']
    refine ⟨hok, rfl, by rw [List.length_append]; omega, by rw [hgiven₂, List.append_assoc], hcon, fun _ => ?_,
      fun h => absurd (List.append_eq_nil_iff.mp h).2 hne⟩
    rw [List.length_append, hlen₁]
  · obtain rfl : back = [] := List.length_eq_zero_iff.mp (by omega)
    have hp0 : b.tailPiece n = 0 := by omega
    obtain rfl : front = [] := List.length_eq_zero_iff.mp (by omega)
    rw [if_neg fun hc => hr hc.1, store_nil, store_nil]
    exact ⟨h, rfl, Nat.zero_le _, by simpa using hgiven₂, (List.append_nil _).symm, fun h => absurd rfl h,
      fun _ => by simp [hp0]⟩

lemma Ok.write (h : b.Ok) (hc : Produces push bytes) (h0 : 0 < n) (hn : n ≤ b.freeLength)
    (hb : ¬b.PushBroken push s n) : ∃ new, b.Pushed bytes s n new (b.writeIntoBuffer push s n) := by
  rw [writeIntoBuffer, if_neg h0.ne', if_neg (by omega)]
  dsimp only
  rw [min_eq_left hn]
  by_cases hlt : b.pBufTail < b.pBufHead
  · have hp : b.tailPiece n = n := by rw [tailPiece, if_pos hlt]
    rw [if_pos hlt]
    exact ⟨_, hp ▸ h.push_first hc hn⟩
  rw [if_neg hlt]
  by_cases hle : n ≤ b.size - b.pBufTail
  · have hp : b.tailPiece n = n := by rw [tailPiece, if_neg hlt, min_eq_left hle]
    rw [if_pos hle]
    exact ⟨_, hp ▸ h.push_first hc hn⟩
  have hp : b.tailPiece n = b.size - b.pBufTail := by rw [tailPiece, if_neg hlt, min_eq_right (by omega)]
  rw [if_neg hle]
  by_cases hon : b.PushesOn push s n
  · exact ⟨_, h.push_second hc hn (not_lt.mp hlt) (not_le.mp hle) hon hb⟩
  · have hpush : push s 0 (b.size - b.pBufTail) = b.firstPush push s n := by rw [firstPush, hp]
    have hsplit : b.pushSplit push s n = b.pushTail push s (b.size - b.pBufTail) := by
      rw [pushSplit, pushTail]
      dsimp only
      rw [if_neg fun hr => hon ⟨by omega, by rw [hp, ← hr, hpush]⟩]
    rw [hsplit, ← hp]
    exact ⟨_, h.push_first hc hn⟩

lemma writeIntoBuffer_min (b : TBuffer) (push : σ → ℕ → ℕ → ℤ × List UInt8 × σ) (s : σ) (h0 : 0 < n)
    (hf : 0 < b.freeLength) : b.writeIntoBuffer push s n = b.writeIntoBuffer push s (min n b.freeLength) := by
  have hmin : min n b.freeLength ≠ 0 := by omega
  rw [writeIntoBuffer, writeIntoBuffer, if_neg h0.ne', if_neg hf.ne', if_neg hmin, if_neg hf.ne',
    min_eq_left (min_le_right n b.freeLength)]

lemma writeIntoBuffer_keeps {P : σ → Prop} (hp : ∀ s off n, P s → P (push s off n).2.2) (b : TBuffer) (h : P s)
    (n : ℕ) : P (b.writeIntoBuffer push s n).2.2 := by
  rw [writeIntoBuffer]
  split
  · exact h
  split
  · exact h
  dsimp only
  split
  · exact hp _ _ _ h
  split
  · exact hp _ _ _ h
  rw [pushSplit]
  dsimp only
  split
  · split
    · exact hp _ _ _ (hp _ _ _ h)
    · exact hp _ _ _ (hp _ _ _ h)
  · exact hp _ _ _ h

end Xframe.Comserv.TBuffer
