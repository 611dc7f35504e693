import Xframe.Comserv.UniBuffer

/-! The buffer as a queue of bytes: what reading at the head and storing behind the tail does to its
contents, in one piece and across the end. -/

namespace Xframe.Comserv.TBuffer

variable {b : TBuffer}

lemma Ok.length_contents (h : b.Ok) : b.contents.length = b.filledLength := by
  have h1 := h.memory
  have h2 := h.head
  have h3 := h.tail
  rw [contents]
  split_ifs with h0 hlt
  · simp [h0]
  · have := h.straight hlt
    simp
    omega
  · have := h.wrapped (by omega) (by omega)
    simp
    omega

lemma length_blit (mem : List UInt8) (dst : ℕ) (bytes : List UInt8) (h : dst + bytes.length ≤ mem.length) :
    (blit mem dst bytes).length = mem.length := by
  simp [blit]
  omega

lemma restart_ok (h : b.Ok ∨ b.filledLength = 0 ∧ b.msgBuf.length = b.size ∧ b.freeLength = b.size) :
    b.restart.Ok ∧ b.restart.contents = b.contents := by
  rw [restart]
  split_ifs with h0
  · have hm : b.msgBuf.length = b.size ∧ b.freeLength = b.size := by
      rcases h with h | ⟨-, h1, h2⟩
      · exact ⟨h.memory, by have := h.sum; omega⟩
      · exact ⟨h1, h2⟩
    refine ⟨⟨hm.1, by simp [h0, hm.2], Nat.zero_le _, Nat.zero_le _, fun _ => ⟨rfl, rfl⟩, by simp, by simp [h0]⟩, ?_⟩
    simp [contents, h0]
  · exact ⟨h.resolve_right fun h => h0 h.1, rfl⟩

lemma contents_straight (h0 : 0 < b.filledLength) (hlt : b.pBufHead < b.pBufTail) :
    b.contents = (b.msgBuf.drop b.pBufHead).take b.filledLength := by
  rw [contents, if_neg h0.ne', if_pos hlt]

lemma contents_wrapped (h0 : 0 < b.filledLength) (hge : b.pBufTail ≤ b.pBufHead) :
    b.contents = b.msgBuf.drop b.pBufHead ++ b.msgBuf.take b.pBufTail := by
  rw [contents, if_neg h0.ne', if_neg hge.not_gt]

lemma ok_straight (hm : b.msgBuf.length = b.size) (hsum : b.filledLength + b.freeLength = b.size)
    (hlt : b.pBufHead < b.pBufTail) (ht : b.pBufTail ≤ b.size) (hf : b.filledLength = b.pBufTail - b.pBufHead) :
    b.Ok :=
  ⟨hm, hsum, by omega, ht, by omega, fun _ => hf, by omega⟩

lemma ok_wrapped (hm : b.msgBuf.length = b.size) (hsum : b.filledLength + b.freeLength = b.size)
    (h0 : 0 < b.filledLength) (hge : b.pBufTail ≤ b.pBufHead) (hh : b.pBufHead ≤ b.size)
    (hf : b.filledLength = b.size - b.pBufHead + b.pBufTail) : b.Ok :=
  ⟨hm, hsum, hh, by omega, by omega, by omega, fun _ _ => hf⟩

lemma Ok.filled_of_lt (h : b.Ok) (hlt : b.pBufTail < b.pBufHead) :
    0 < b.filledLength ∧ b.filledLength = b.size - b.pBufHead + b.pBufTail := by
  have hpos : 0 < b.filledLength := by
    refine Nat.pos_of_ne_zero fun h0 => ?_
    have := h.empty h0
    omega
  exact ⟨hpos, h.wrapped hlt.le hpos⟩

lemma Ok.filled_of_le (h : b.Ok) (hle : b.pBufHead ≤ b.pBufTail) (hfree : 0 < b.freeLength) :
    b.filledLength = b.pBufTail - b.pBufHead := by
  have hsum := h.sum
  rcases hle.lt_or_eq with hlt | heq
  · exact h.straight hlt
  · rcases Nat.eq_zero_or_pos b.filledLength with h0 | h0
    · omega
    · have := h.wrapped heq.ge h0
      have := h.head
      omega

lemma Ok.take_head (h : b.Ok) {n : ℕ} (hn : n ≤ b.filledLength)
    (hpiece : b.pBufHead < b.pBufTail ∨ n ≤ b.size - b.pBufHead) :
    (b.msgBuf.drop b.pBufHead).take n = b.contents.take n := by
  have h1 := h.memory
  rw [contents]
  split_ifs with h0 hlt
  · obtain rfl : n = 0 := by omega
    simp
  · rw [List.take_take, min_eq_left hn]
  · rw [List.take_append_of_le_length (by rw [List.length_drop]; omega)]

lemma restart_empty (hm : b.msgBuf.length = b.size) (hf : b.freeLength = b.size) (h0 : b.filledLength = 0) :
    b.restart.Ok ∧ b.restart.contents = [] := by
  have h := restart_ok (.inr ⟨h0, hm, hf⟩)
  refine ⟨h.1, h.2.trans ?_⟩
  rw [contents, if_pos h0]

lemma Ok.advance (h : b.Ok) {r n : ℕ} (hr : 0 < r) (hrn : r ≤ n) (hn : n ≤ b.filledLength)
    (hpiece : b.pBufHead < b.pBufTail ∨ n ≤ b.size - b.pBufHead) :
    (b.advanceHead r n).restart.Ok ∧ (b.advanceHead r n).restart.contents = b.contents.drop r := by
  have h1 := h.memory
  have h2 := h.sum
  have h3 := h.head
  have h4 := h.tail
  have hadv : b.advanceHead r n =
      { b with
        pBufHead := b.pBufHead + r
        filledLength := b.filledLength - r
        freeLength := b.freeLength + r } := by
    rw [advanceHead, if_pos ⟨by omega, by omega⟩]
    simp
  rw [hadv]
  by_cases hall : b.filledLength = r
  · rw [List.drop_eq_nil_of_le (by rw [h.length_contents, hall])]
    exact restart_empty h1 (by dsimp only; omega) (by dsimp only; omega)
  rw [restart, if_neg (by dsimp only; omega)]
  rcases lt_or_ge b.pBufHead b.pBufTail with hlt | hge
  · have hs := h.straight hlt
    refine ⟨ok_straight h1 (by dsimp only; omega) (by dsimp only; omega) h4 (by dsimp only; omega), ?_⟩
    rw [contents_straight (by dsimp only; omega) (by dsimp only; omega), contents_straight (by omega) hlt,
      List.drop_take, List.drop_drop]
  · have hw := h.wrapped hge (by omega)
    have hr' : r ≤ b.size - b.pBufHead := hrn.trans (hpiece.resolve_left hge.not_gt)
    refine ⟨ok_wrapped h1 (by dsimp only; omega) (by dsimp only; omega) (by dsimp only; omega)
      (by dsimp only; omega) (by dsimp only; omega), ?_⟩
    rw [contents_wrapped (by dsimp only; omega) (by dsimp only; omega), contents_wrapped (by omega) hge,
      List.drop_append_of_le_length (by rw [List.length_drop]; omega), List.drop_drop]

lemma Ok.take_front (h : b.Ok) (hw : b.pBufTail ≤ b.pBufHead) {n : ℕ} (hlt : b.size - b.pBufHead < n)
    (hn : n ≤ b.filledLength) :
    b.msgBuf.take (n - (b.size - b.pBufHead)) = (b.contents.take n).drop (b.size - b.pBufHead) := by
  have hf := h.wrapped hw (by omega)
  have hl : (b.msgBuf.drop b.pBufHead).length = b.size - b.pBufHead := by rw [List.length_drop, h.memory]
  rw [contents_wrapped (by omega) hw, List.drop_take, List.drop_left' hl, List.take_take, min_eq_left (by omega)]

lemma Ok.advance_split (h : b.Ok) (hw : b.pBufTail ≤ b.pBufHead) {r n : ℕ} (hr : 0 < r)
    (hrn : r ≤ n - (b.size - b.pBufHead)) (hn : n ≤ b.filledLength) :
    let b' : TBuffer := { b with
      pBufHead := r
      filledLength := b.filledLength - (b.size - b.pBufHead + r)
      freeLength := b.freeLength + (b.size - b.pBufHead + r) }
    b'.restart.Ok ∧ b'.restart.contents = b.contents.drop (b.size - b.pBufHead + r) := by
  have h1 := h.memory
  have h2 := h.sum
  have h4 := h.tail
  have hf := h.wrapped hw (by omega)
  have hl : (b.msgBuf.drop b.pBufHead).length = b.size - b.pBufHead := by rw [List.length_drop, h1]
  by_cases hall : b.filledLength ≤ b.size - b.pBufHead + r
  · rw [List.drop_eq_nil_of_le (by rw [h.length_contents]; exact hall)]
    exact restart_empty h1 (by dsimp only; omega) (by dsimp only; omega)
  dsimp only
  rw [restart, if_neg (by dsimp only; omega)]
  refine ⟨ok_straight h1 (by dsimp only; omega) (by dsimp only; omega) h4 (by dsimp only; omega), ?_⟩
  rw [contents_straight (by dsimp only; omega) (by dsimp only; omega), contents_wrapped (by omega) hw,
    ← List.drop_drop, List.drop_left' hl, List.drop_take]
  congr 1
  dsimp only
  omega

lemma drop_blit {mem bytes : List UInt8} {dst k : ℕ} (hk : k ≤ dst) (hd : dst ≤ mem.length) :
    (blit mem dst bytes).drop k =
      (mem.drop k).take (dst - k) ++ bytes ++ mem.drop (dst + bytes.length) := by
  rw [blit, List.append_assoc, List.drop_append_of_le_length (by rw [List.length_take]; omega), List.drop_take,
    List.append_assoc]

lemma drop_blit_of_le {mem bytes : List UInt8} {dst k : ℕ} (hk : dst + bytes.length ≤ k) (hd : dst ≤ mem.length) :
    (blit mem dst bytes).drop k = mem.drop k := by
  obtain ⟨j, rfl⟩ := Nat.exists_eq_add_of_le hk
  rw [blit, ← List.drop_drop, List.drop_left' (by rw [List.length_append, List.length_take]; omega),
    List.drop_drop]

lemma take_blit {mem bytes : List UInt8} {dst : ℕ} (hd : dst ≤ mem.length) :
    (blit mem dst bytes).take (dst + bytes.length) = mem.take dst ++ bytes := by
  rw [blit, List.take_left' (by rw [List.length_append, List.length_take]; omega)]

lemma Ok.store_tail (h : b.Ok) (bytes : List UInt8) (hne : bytes ≠ []) (hfree : bytes.length ≤ b.freeLength)
    (hroom : b.pBufTail < b.pBufHead ∨ bytes.length ≤ b.size - b.pBufTail) {n : ℕ} (hn : bytes.length ≤ n) :
    ((b.store b.pBufTail bytes).advanceTail bytes.length n).Ok ∧
      ((b.store b.pBufTail bytes).advanceTail bytes.length n).contents = b.contents ++ bytes := by
  have hpos := List.length_pos_iff.mpr hne
  have h1 := h.memory
  have h2 := h.sum
  have h3 := h.head
  have h4 := h.tail
  have hadv : (b.store b.pBufTail bytes).advanceTail bytes.length n =
      { b with
        msgBuf := blit b.msgBuf b.pBufTail bytes
        pBufTail := b.pBufTail + bytes.length
        filledLength := b.filledLength + bytes.length
        freeLength := b.freeLength - bytes.length } := by
    rw [advanceTail, if_pos ⟨by omega, by omega⟩]
    simp [store]
  rw [hadv]
  by_cases hw : b.pBufTail < b.pBufHead
  · obtain ⟨hpos', hf⟩ := h.filled_of_lt hw
    have hlen := length_blit b.msgBuf b.pBufTail bytes (by omega)
    refine ⟨ok_wrapped (by rw [hlen, h1]) (by dsimp only; omega) (by dsimp only; omega) (by dsimp only; omega)
      h3 (by dsimp only; omega), ?_⟩
    rw [contents_wrapped (by dsimp only; omega) (by dsimp only; omega)]
    dsimp only
    rw [contents_wrapped hpos' hw.le, take_blit (by omega), drop_blit_of_le (by omega) (by omega),
      List.append_assoc]
  · have hf := h.filled_of_le (by omega) (by omega)
    have hlen := length_blit b.msgBuf b.pBufTail bytes (by omega)
    refine ⟨ok_straight (by rw [hlen, h1]) (by dsimp only; omega) (by dsimp only; omega) (by dsimp only; omega)
      (by dsimp only; omega), ?_⟩
    rw [contents_straight (by dsimp only; omega) (by dsimp only; omega)]
    dsimp only
    rw [drop_blit (by omega) (by omega), List.take_left' (by simp; omega)]
    rcases Nat.eq_zero_or_pos b.filledLength with h0 | h0
    · rw [contents, if_pos h0, show b.pBufTail - b.pBufHead = 0 by omega, List.take_zero]
    · rw [contents_straight h0 (by omega), hf]

lemma Ok.store_split (h : b.Ok) (front back : List UInt8) (hle : b.pBufHead ≤ b.pBufTail) (hne : back ≠ [])
    (hfront : front.length = b.size - b.pBufTail) (hfree : front.length + back.length ≤ b.freeLength) :
    let b' : TBuffer := { b with
      msgBuf := blit (blit b.msgBuf b.pBufTail front) 0 back
      pBufTail := back.length
      filledLength := b.filledLength + (front.length + back.length)
      freeLength := b.freeLength - (front.length + back.length) }
    b'.Ok ∧ b'.contents = b.contents ++ (front ++ back) := by
  have hpos := List.length_pos_iff.mpr hne
  have h1 := h.memory
  have h2 := h.sum
  have h4 := h.tail
  have hf := h.filled_of_le hle (by omega)
  have hlen := length_blit b.msgBuf b.pBufTail front (by omega)
  have hlen' := length_blit (blit b.msgBuf b.pBufTail front) 0 back (by omega)
  refine ⟨ok_wrapped (by rw [hlen', hlen, h1]) (by dsimp only; omega) (by dsimp only; omega) (by dsimp only; omega)
    h.head (by dsimp only; omega), ?_⟩
  have htake : (blit (blit b.msgBuf b.pBufTail front) 0 back).take back.length = back := by
    simp [blit]
  rw [contents_wrapped (by dsimp only; omega) (by dsimp only; omega)]
  dsimp only
  have hend : b.msgBuf.drop (b.pBufTail + front.length) = [] := List.drop_eq_nil_of_le (by omega)
  rw [htake, drop_blit_of_le (by omega) (by omega), drop_blit hle (by omega), hend, List.append_nil, List.append_assoc]
  rcases Nat.eq_zero_or_pos b.filledLength with h0 | h0
  · rw [contents, if_pos h0, show b.pBufTail - b.pBufHead = 0 by omega, List.take_zero]
  · rw [contents_straight h0 (by omega), hf]

@[simp] lemma restart_size : b.restart.size = b.size := by
  rw [restart]
  split <;> rfl

@[simp] lemma advanceHead_size (r : ℤ) (n : ℕ) : (b.advanceHead r n).size = b.size := by
  rw [advanceHead]
  split <;> rfl

@[simp] lemma advanceTail_size (r : ℤ) (n : ℕ) : (b.advanceTail r n).size = b.size := by
  rw [advanceTail]
  split <;> rfl

@[simp] lemma store_size (dst : ℕ) (bytes : List UInt8) : (b.store dst bytes).size = b.size := rfl

lemma readFromBuffer_le {σ : Type} {pop : σ → List UInt8 → ℕ → ℤ × σ} (hpop : ∀ s src n, (pop s src n).1 ≤ n) (s : σ)
    (n : ℕ) : (b.readFromBuffer pop s n).1 ≤ n := by
  have hone : ∀ m, (b.popHead pop s m).1 ≤ m := fun m => hpop s _ m
  have hmin : min n b.filledLength ≤ n := min_le_left _ _
  rw [readFromBuffer]
  split
  · exact Int.natCast_nonneg n
  split
  · exact Int.natCast_nonneg n
  dsimp only
  split
  · exact (hone _).trans (by omega)
  split
  · exact (hone _).trans (by omega)
  · have hfirst := hpop s (b.msgBuf.drop b.pBufHead) (b.size - b.pBufHead)
    rw [popSplit]
    dsimp only
    split_ifs with hall hsecond <;> dsimp only <;> omega

def Straight (b : TBuffer) : Prop := b.pBufHead < b.pBufTail ∨ b.filledLength = 0

def Movable (memcpy : Memcpy) (b : TBuffer) : Prop :=
  b.filledLength ≤ b.pBufHead ∨
    memcpy b.msgBuf 0 b.pBufHead b.filledLength = copied b.msgBuf 0 b.pBufHead b.filledLength

lemma Ok.from_front (h : b.Ok) (h0 : 0 < b.filledLength) {rest : List UInt8}
    (hlen : (b.contents ++ rest).length = b.size) :
    let b' : TBuffer := { b with msgBuf := b.contents ++ rest, pBufHead := 0, pBufTail := b.filledLength }
    b'.Ok ∧ b'.contents = b.contents := by
  have hsum := h.sum
  refine ⟨ok_straight hlen hsum h0 (by dsimp only; omega) (Nat.sub_zero _).symm, ?_⟩
  rw [contents_straight (by exact h0) (by exact h0)]
  exact List.take_left' h.length_contents

lemma copied_front {mem : List UInt8} {src n : ℕ} (hn : src + n ≤ mem.length) :
    copied mem 0 src n = (mem.drop src).take n ++ mem.drop n := by
  have hlen : ((mem.drop src).take n).length = n := by
    rw [List.length_take, List.length_drop]
    omega
  rw [copied, blit, hlen]
  simp

lemma Ok.rearrange_straight {memcpy : Memcpy} (h : b.Ok) (hs : b.Straight) (hm : Conforms memcpy)
    (hmove : Movable memcpy b) :
    (b.rearrange memcpy).Ok ∧ (b.rearrange memcpy).contents = b.contents ∧ (b.rearrange memcpy).size = b.size ∧
      (b.rearrange memcpy).pBufHead = 0 ∧ (b.rearrange memcpy).Straight := by
  have h1 := h.memory
  rw [rearrange]
  by_cases h0 : b.pBufHead = 0
  · rw [if_pos h0]
    exact ⟨h, rfl, rfl, h0, hs⟩
  have hlt : b.pBufHead < b.pBufTail := hs.resolve_right fun hf => h0 (h.empty hf).1
  have hf := h.straight hlt
  have ht := h.tail
  have hcopy : memcpy b.msgBuf 0 b.pBufHead b.filledLength = copied b.msgBuf 0 b.pBufHead b.filledLength := by
    rcases hmove with hle | hcopy
    · exact hm _ _ _ _ (.inl (by omega)) (by omega) (by omega)
    · exact hcopy
  have hmem : copied b.msgBuf 0 b.pBufHead b.filledLength = b.contents ++ b.msgBuf.drop b.filledLength := by
    rw [copied_front (by omega), contents_straight (by omega) hlt]
  rw [if_neg h0]
  dsimp only
  rw [if_pos hlt, hcopy, hmem]
  have hlen : (b.contents ++ b.msgBuf.drop b.filledLength).length = b.size := by
    rw [List.length_append, h.length_contents, List.length_drop]
    omega
  obtain ⟨hok, hcon⟩ := h.from_front (by omega) hlen
  exact ⟨hok, hcon, rfl, rfl, .inl (by dsimp only; omega)⟩

def moved (b : TBuffer) : ℕ := if b.pBufHead < b.pBufTail then b.filledLength else b.size - b.pBufHead

/-- The two areas of the move to the front do not overlap, or `memcpy` copes with it. -/
def Apart (memcpy : Memcpy) (b : TBuffer) : Prop :=
  b.pBufHead = 0 ∨ b.moved ≤ b.pBufHead ∨
    memcpy b.msgBuf 0 b.pBufHead b.moved = copied b.msgBuf 0 b.pBufHead b.moved

lemma Ok.rearrange_wrapped {memcpy : Memcpy} (h : b.Ok) (hw : b.pBufTail ≤ b.pBufHead) (h0 : b.pBufHead ≠ 0)
    (hm : Conforms memcpy) (ha : Apart memcpy b) :
    (b.rearrange memcpy).Ok ∧ (b.rearrange memcpy).contents = b.contents ∧ (b.rearrange memcpy).size = b.size := by
  have h1 := h.memory
  have h2 := h.sum
  have h3 := h.head
  have hpos : 0 < b.filledLength := Nat.pos_of_ne_zero fun hf => h0 (h.empty hf).1
  have hf := h.wrapped hw hpos
  have hcon := contents_wrapped hpos hw
  have hmoved : b.moved = b.size - b.pBufHead := by rw [moved, if_neg hw.not_gt]
  have hlen : (b.msgBuf.drop b.pBufHead).length = b.size - b.pBufHead := by rw [List.length_drop, h1]
  have hlen' : (b.msgBuf.take b.pBufTail).length = b.pBufTail := by rw [List.length_take]; omega
  obtain ⟨front, hfront⟩ : ∃ front, front = b.size - b.pBufHead := ⟨_, rfl⟩
  have hmem : ∃ rest, (b.contents ++ rest).length = b.size ∧ b.rearrange memcpy =
      { b with msgBuf := b.contents ++ rest, pBufHead := 0, pBufTail := b.filledLength } := by
    rw [rearrange, if_neg h0]
    dsimp only
    rw [if_neg hw.not_gt, ← hfront]
    split
    · next hle =>
      have hin : copied b.msgBuf front 0 b.pBufTail = blit b.msgBuf front (b.msgBuf.take b.pBufTail) := rfl
      have hlenm := length_blit b.msgBuf front (b.msgBuf.take b.pBufTail) (by omega)
      have hdrop : (blit b.msgBuf front (b.msgBuf.take b.pBufTail)).drop b.pBufHead = b.msgBuf.drop b.pBufHead :=
        drop_blit_of_le (by omega) (by omega)
      refine ⟨b.msgBuf.drop (front + b.pBufTail), ?_, ?_⟩
      · rw [List.length_append, h.length_contents, List.length_drop]
        omega
      rw [hin, hm _ _ _ _ (.inl (by omega)) (by omega) (by omega), copied_front (by omega), hdrop,
        List.take_of_length_le (by omega), drop_blit le_rfl (by omega), hlen', Nat.sub_self, List.take_zero,
        List.nil_append, ← List.append_assoc, ← hcon]
    · next hlt =>
      have hcopy : memcpy b.msgBuf 0 b.pBufHead front = copied b.msgBuf 0 b.pBufHead front := by
        rw [hfront, ← hmoved]
        rcases ha with ha | ha | ha
        · exact absurd ha h0
        · exact hm _ _ _ _ (.inl (by omega)) (by omega) (by omega)
        · exact ha
      rw [hcopy, copied_front (by omega), List.take_of_length_le (by omega)]
      refine ⟨(b.msgBuf.drop b.pBufHead ++ b.msgBuf.drop front).drop (front + b.pBufTail), ?_, ?_⟩
      · rw [List.length_append, h.length_contents, List.length_drop, List.length_append, List.length_drop,
          List.length_drop]
        omega
      rw [blit, hlen', List.take_left' (by omega), ← hcon]
  obtain ⟨rest, hrest, heq⟩ := hmem
  rw [heq]
  obtain ⟨hok, hsame⟩ := h.from_front hpos hrest
  exact ⟨hok, hsame, rfl⟩

lemma Ok.rearrange {memcpy : Memcpy} (h : b.Ok) (hm : Conforms memcpy) (ha : Apart memcpy b) :
    (b.rearrange memcpy).Ok ∧ (b.rearrange memcpy).contents = b.contents ∧ (b.rearrange memcpy).size = b.size := by
  by_cases h0 : b.pBufHead = 0
  · rw [TBuffer.rearrange, if_pos h0]
    exact ⟨h, rfl, rfl⟩
  rcases lt_or_ge b.pBufHead b.pBufTail with hlt | hge
  · have hmove : Movable memcpy b := by
      rw [Apart, moved, if_pos hlt] at ha
      exact ha.resolve_left h0
    obtain ⟨hok, hcon, hsize, -⟩ := h.rearrange_straight (.inl hlt) hm hmove
    exact ⟨hok, hcon, hsize⟩
  · exact h.rearrange_wrapped hge h0 hm ha

end Xframe.Comserv.TBuffer
