import Mathlib.Data.List.GetD
import Xframe.Comserv.Des
import Xframe.Lib.Feistel

/-! The bits of DES: what the tables and the S-boxes make of arrays of bits, and the rows of the key. -/

namespace Xframe.Comserv.Des

open Xframe.Lib

def Bits (n : ℕ) (l : List UInt8) : Prop := l.length = n ∧ ∀ b ∈ l, b = 0 ∨ b = 1

def bitLists : ℕ → List (List UInt8)
  | 0 => [[]]
  | n + 1 => (bitLists n).flatMap fun l => [0 :: l, 1 :: l]

variable {n m : ℕ} {l a b bits : List UInt8} {table : List ℕ} {s s' : KeyStar} {c : UInt8}

lemma mem_bitLists (h : Bits n l) : l ∈ bitLists n := by
  obtain ⟨hlen, hl⟩ := h
  induction n generalizing l with
  | zero =>
    rw [List.length_eq_zero_iff.mp hlen]
    simp [bitLists]
  | succ n ih =>
    cases l with
    | nil => simp at hlen
    | cons b l =>
      have hrest := ih (by simpa using hlen) fun c hc => hl c (List.mem_cons_of_mem b hc)
      refine List.mem_flatMap.mpr ⟨l, hrest, ?_⟩
      rcases hl b (List.mem_cons_self ..) with rfl | rfl
      · simp
      · simp

lemma and_one (x : UInt8) : x &&& 1 = 0 ∨ x &&& 1 = 1 := by
  have hx : (x &&& 1).toNat = x.toNat % 2 := by simp [UInt8.toNat_and, Nat.and_one_is_mod]
  rcases Nat.mod_two_eq_zero_or_one x.toNat with h | h
  · exact Or.inl (UInt8.toNat_inj.mp (hx.trans h))
  · exact Or.inr (UInt8.toNat_inj.mp (hx.trans h))

lemma bit_toNat {x : UInt8} (h : x = 0 ∨ x = 1) : x.toNat < 2 := by
  rcases h with rfl | rfl <;> decide

lemma toNat_addBit (x y : UInt8) : ((x + y) &&& 1).toNat = (x.toNat + y.toNat) % 2 := by
  rw [UInt8.toNat_and, UInt8.toNat_add]
  change (x.toNat + y.toNat) % 256 &&& 1 = _
  rw [Nat.and_one_is_mod]
  omega

lemma expandByte_bits (n : ℕ) (d c : UInt8) : Bits n (expandByte n d c) := by
  induction n generalizing d with
  | zero => exact ⟨rfl, by simp [expandByte]⟩
  | succ n ih =>
    obtain ⟨hlen, hbits⟩ := ih (d / 2)
    refine ⟨by rw [expandByte, List.length_cons, hlen], ?_⟩
    intro b hb
    rcases List.mem_cons.mp hb with rfl | hb
    · exact and_one _
    · exact hbits b hb

lemma flatMap_bits {α : Type} {f : α → List UInt8} (hf : ∀ a, Bits m (f a)) (as : List α) :
    Bits (as.length * m) (as.flatMap f) := by
  refine ⟨?_, ?_⟩
  · rw [List.length_flatMap, List.map_congr_left fun a _ => (hf a).1, List.map_const', List.sum_replicate, smul_eq_mul]
  · intro b hb
    obtain ⟨a, -, hab⟩ := List.mem_flatMap.mp hb
    exact (hf a).2 b hab

lemma getD_bit (h : ∀ b ∈ bits, b = 0 ∨ b = 1) (i : ℕ) : bits.getD i 0 = 0 ∨ bits.getD i 0 = 1 := by
  by_cases hi : i < bits.length
  · rw [List.getD_eq_getElem _ _ hi]
    exact h _ (List.getElem_mem hi)
  · rw [List.getD_eq_default _ _ (by omega)]
    exact Or.inl rfl

lemma pick_bits (h : ∀ b ∈ bits, b = 0 ∨ b = 1) (table : List ℕ) : Bits table.length (pick table bits) := by
  refine ⟨by simp [pick], ?_⟩
  intro b hb
  obtain ⟨j, -, rfl⟩ := List.mem_map.mp hb
  exact getD_bit h _

lemma addBits_bits (ha : a.length = n) (hb : b.length = n) : Bits n (addBits a b) := by
  refine ⟨by rw [addBits, List.length_zipWith, ha, hb, min_self], ?_⟩
  intro c hc
  obtain ⟨i, hi, rfl⟩ := List.getElem_of_mem hc
  simp only [addBits, List.getElem_zipWith]
  exact and_one _

lemma addBits_cancel (ha : a.length = n) (hb : Bits n b) : addBits a (addBits a b) = b := by
  refine List.ext_getElem ?_ ?_
  · rw [(addBits_bits ha (addBits_bits ha hb.1).1).1, hb.1]
  · intro i h₁ h₂
    simp only [addBits, List.getElem_zipWith]
    apply UInt8.toNat_inj.mp
    rw [toNat_addBit, toNat_addBit]
    have hbit := bit_toNat (hb.2 _ (List.getElem_mem h₂))
    omega

lemma s_box_bits (aa : List UInt8) : Bits 32 (s_box aa) :=
  flatMap_bits (fun _ => expandByte_bits 4 _ _) (List.range 8)

namespace KeyStar

lemma mask_bits (n : ℕ) (rr : List UInt8) : Bits 32 (s.mask n rr) := pick_bits (s_box_bits _).2 P

lemma masks (s : KeyStar) (n : ℕ) : Feistel.Masks addBits (Bits 32) (s.mask n) where
  keeps _ r hl _ := addBits_bits (mask_bits n r).1 hl.1
  cancels _ r hl _ := addBits_cancel (mask_bits n r).1 hl

def rounds (s : KeyStar) : List (List UInt8 → List UInt8) := (List.range 16).map fun i => s.mask (i + 1)

lemma masks_of_mem {f : List UInt8 → List UInt8} (hf : f ∈ s.rounds) : Feistel.Masks addBits (Bits 32) f := by
  obtain ⟨i, -, rfl⟩ := List.mem_map.mp hf
  exact s.masks (i + 1)

lemma encrypt_rounds (s : KeyStar) (b : List UInt8 × List UInt8) :
    (List.range 16).foldl (fun b i => s.F (i + 1) b) b = Feistel.network addBits s.rounds b := by
  rw [Feistel.network, rounds, List.foldl_map]
  rfl

lemma discrypt_rounds (s : KeyStar) (b : List UInt8 × List UInt8) :
    (List.range 16).foldl (fun b i => s.F (16 - i) b) b = Feistel.network addBits s.rounds.reverse b := by
  have hrev : s.rounds.reverse = (List.range 16).map fun i => s.mask (16 - i) := by
    have hplaces : ((List.range 16).map fun i => i + 1).reverse = (List.range 16).map fun i => 16 - i := by decide
    have hmask := congrArg (List.map s.mask) hplaces
    rwa [List.map_reverse, List.map_map, List.map_map] at hmask
  rw [hrev, Feistel.network, List.foldl_map]
  rfl

end KeyStar

section Permutations

lemma pick_length (table : List ℕ) (bits : List UInt8) : (pick table bits).length = table.length := by simp [pick]

lemma pick_append (t u : List ℕ) (bits : List UInt8) : pick (t ++ u) bits = pick t bits ++ pick u bits := by
  simp [pick]

lemma pick_pick {t u : List ℕ} (h : ∀ j ∈ t, 1 ≤ j ∧ j ≤ u.length) (bits : List UInt8) :
    pick t (pick u bits) = pick (t.map fun j => u.getD (j - 1) 0) bits := by
  rw [pick, pick.eq_1 (t.map _), List.map_map]
  refine List.map_congr_left fun j hj => ?_
  obtain ⟨h1, h2⟩ := h j hj
  have hlt : j - 1 < u.length := by omega
  rw [Function.comp_apply, List.getD_eq_getElem _ _ hlt, List.getD_eq_getElem _ _ (by rwa [pick_length])]
  simp [pick]

lemma pick_places (h : bits.length = n) : pick ((List.range n).map (· + 1)) bits = bits := by
  subst h
  rw [pick, List.map_map]
  refine List.ext_getElem (by simp) fun i h₁ h₂ => ?_
  rw [List.getElem_map, List.getElem_range, Function.comp_apply, Nat.add_sub_cancel, List.getD_eq_getElem _ _ h₂]

lemma ip_tab_inverse (h : bits.length = 64) : pick ip_tab (pick ip_tab_1 bits) = bits := by
  have htab : (ip_tab.map fun j => ip_tab_1.getD (j - 1) 0) = (List.range 64).map (· + 1) := by decide
  rw [pick_pick (by decide), htab, pick_places h]

lemma ip_tab_1_inverse (h : bits.length = 64) : pick ip_tab_1 (pick ip_tab bits) = bits := by
  have htab : (ip_tab_1.map fun j => ip_tab.getD (j - 1) 0) = (List.range 64).map (· + 1) := by decide
  rw [pick_pick (by decide), htab, pick_places h]

lemma ip_tab_halves : ip_tab.take 32 ++ ip_tab.drop 32 = ip_tab := List.take_append_drop ..

end Permutations

section Bytes

lemma forall_byte {p : UInt8 → Prop} (h : ∀ k < 256, p (UInt8.ofNat k)) (c : UInt8) : p c := by
  have hc := h c.toNat c.toNat_lt
  rwa [UInt8.ofNat_toNat] at hc

lemma compress_expand (c : UInt8) : compressByte (expandByte 8 0x80 c) 0x80 0 = c := by
  revert c
  exact forall_byte (by decide +kernel)

lemma expand_compress (h : Bits 8 l) : expandByte 8 0x80 (compressByte l 0x80 0) = l := by
  have hall : ∀ l ∈ bitLists 8, expandByte 8 0x80 (compressByte l 0x80 0) = l := by decide +kernel
  exact hall l (mem_bitLists h)

lemma chunk_flatMap {α β : Type} {f : α → List β} {k : ℕ} (hf : ∀ a, (f a).length = k) {as : List α} {i : ℕ}
    (hi : i < as.length) : ((as.flatMap f).drop (k * i)).take k = f as[i] := by
  induction as generalizing i with
  | nil => simp at hi
  | cons a as ih =>
    rw [List.flatMap_cons]
    cases i with
    | zero =>
      rw [Nat.mul_zero, List.drop_zero, List.take_append_of_le_length (hf a).ge, List.take_of_length_le (hf a).le]
      rfl
    | succ i =>
      have hk : k * (i + 1) = (f a).length + k * i := by
        rw [hf a]
        ring
      rw [hk, List.drop_append, List.drop_of_length_le (by omega), List.nil_append, Nat.add_sub_cancel_left]
      exact ih (by simpa using hi)

lemma flatMap_chunk {β : Type} (k n : ℕ) {l : List β} (h : l.length = k * n) :
    (List.range n).flatMap (fun i => (l.drop (k * i)).take k) = l := by
  induction n generalizing l with
  | zero => exact (List.length_eq_zero_iff.mp h).symm
  | succ n ih =>
    have hrest := @ih (l.drop k) (by rw [List.length_drop, h]; simp [Nat.mul_succ])
    rw [List.range_succ_eq_map, List.flatMap_cons, List.flatMap_map, Nat.mul_zero, List.drop_zero]
    refine Eq.trans ?_ (List.take_append_drop k l)
    congr 1
    refine Eq.trans ?_ hrest
    refine List.flatMap_congr fun i _ => ?_
    rw [List.drop_drop, Nat.succ_eq_add_one, Nat.mul_add, Nat.mul_one, Nat.add_comm]

lemma expand0_bits (t : Block) : Bits 64 (expand0 t.toList) := by
  have h := flatMap_bits (expandByte_bits 8 0x80) t.toList
  rwa [Vector.length_toList] at h

lemma compress0_getElem (out : List UInt8) {i : ℕ} (hi : i < 8) :
    (compress0 out)[i] = compressByte ((out.drop (8 * i)).take 8) 0x80 0 := Vector.getElem_ofFn ..

lemma compress0_expand0 (t : Block) : compress0 (expand0 t.toList) = t := by
  refine Vector.ext fun i hi => ?_
  have hlen : i < t.toList.length := by rwa [Vector.length_toList]
  have hchunk : ((expand0 t.toList).drop (8 * i)).take 8 = expandByte 8 0x80 t.toList[i] :=
    chunk_flatMap (fun c => (expandByte_bits 8 0x80 c).1) hlen
  rw [compress0_getElem _ hi, hchunk, compress_expand, Vector.getElem_toList]

lemma expand0_compress0 (h : Bits 64 bits) : expand0 (compress0 bits).toList = bits := by
  have hchunk : ∀ i < 8, Bits 8 ((bits.drop (8 * i)).take 8) := by
    intro i hi
    refine ⟨?_, fun b hb => h.2 b (List.mem_of_mem_drop (List.mem_of_mem_take hb))⟩
    rw [List.length_take, List.length_drop, h.1]
    omega
  have hlist : (compress0 bits).toList = (List.range 8).map fun i => compressByte ((bits.drop (8 * i)).take 8) 0x80 0 := by
    refine List.ext_getElem (by simp) fun i h₁ h₂ => ?_
    rw [Vector.getElem_toList, compress0_getElem, List.getElem_map, List.getElem_range]
  rw [hlist, expand0, List.flatMap_map]
  refine Eq.trans (List.flatMap_congr fun i hi => ?_) (flatMap_chunk 8 8 h.1)
  exact expand_compress (hchunk i (List.mem_range.mp hi))

end Bytes

lemma ip_halves (t : Block) : Bits 32 (ip t).1 ∧ Bits 32 (ip t).2 :=
  ⟨pick_bits (expand0_bits t).2 _, pick_bits (expand0_bits t).2 _⟩

lemma ip_1_bits {ll rr : List UInt8} (hl : Bits 32 ll) (hr : Bits 32 rr) : Bits 64 (ip_1 ll rr) := by
  refine pick_bits (fun b hb => ?_) ip_tab_1
  rcases List.mem_append.mp hb with hb | hb
  · exact hl.2 b hb
  · exact hr.2 b hb

lemma ip_compress0 {ll rr : List UInt8} (hl : Bits 32 ll) (hr : Bits 32 rr) : ip (compress0 (ip_1 ll rr)) = (ll, rr) := by
  have hall : pick (ip_tab.take 32) (ip_1 ll rr) ++ pick (ip_tab.drop 32) (ip_1 ll rr) = ll ++ rr := by
    rw [← pick_append, ip_tab_halves]
    exact ip_tab_inverse (by rw [List.length_append, hl.1, hr.1])
  obtain ⟨hleft, hright⟩ := List.append_inj hall (by rw [pick_length, hl.1]; rfl)
  rw [ip, expand0_compress0 (ip_1_bits hl hr), hleft, hright]

lemma compress0_ip (t : Block) : compress0 (ip_1 (ip t).1 (ip t).2) = t := by
  have hall : ip_1 (ip t).1 (ip t).2 = expand0 t.toList := by
    rw [ip_1, ip, ← pick_append, ip_tab_halves]
    exact ip_tab_1_inverse (expand0_bits t).1
  rw [hall, compress0_expand0]

section KeyRows

def row (table : List ℕ) (bits : List UInt8) : ℕ → List UInt8
  | 0 => pick table bits
  | j + 1 => LS (row table bits j) (ls_count.getD j 0)

def roundKey (bits : List UInt8) (n : ℕ) : List UInt8 := son (row pc_1_c bits n) (row pc_1_d bits n)

lemma setkeystar_rows (s : KeyStar) (bits : List UInt8) (n : ℕ) {j : ℕ} (hj : j ≤ n) :
    ((List.range n).foldl KeyStar.shift (s.first bits)).C j = row pc_1_c bits j ∧
      ((List.range n).foldl KeyStar.shift (s.first bits)).D j = row pc_1_d bits j ∧
      (0 < j → ((List.range n).foldl KeyStar.shift (s.first bits)).K j = roundKey bits j) := by
  induction n generalizing j with
  | zero =>
    obtain rfl := Nat.le_zero.mp hj
    rw [List.range_zero, List.foldl_nil, KeyStar.first]
    refine ⟨?_, ?_, fun h => absurd h (Nat.lt_irrefl 0)⟩
    · exact Function.update_self 0 _ s.C
    · exact Function.update_self 0 _ s.D
  | succ n ih =>
    obtain ⟨hc, hd, -⟩ := ih le_rfl
    rw [List.range_succ, List.foldl_append, List.foldl_cons, List.foldl_nil, KeyStar.shift, hc, hd]
    rcases Nat.lt_or_eq_of_le hj with hlt | rfl
    · obtain ⟨hc, hd, hk⟩ := ih (Nat.le_of_lt_succ hlt)
      refine ⟨?_, ?_, fun hpos => ?_⟩
      · rw [← hc]
        exact Function.update_of_ne hlt.ne ..
      · rw [← hd]
        exact Function.update_of_ne hlt.ne ..
      · rw [← hk hpos]
        exact Function.update_of_ne hlt.ne ..
    · refine ⟨?_, ?_, fun _ => ?_⟩
      · exact Function.update_self ..
      · exact Function.update_self ..
      · exact Function.update_self ..

lemma setkeystar_K (s : KeyStar) (bits : List UInt8) {n : ℕ} (h0 : 0 < n) (hn : n ≤ 16) :
    (s.setkeystar bits).K n = roundKey bits n := (setkeystar_rows s bits 16 hn).2.2 h0

lemma rounds_congr {s s' : KeyStar} (h : ∀ n, 0 < n → n ≤ 16 → s.K n = s'.K n) : s.rounds = s'.rounds := by
  refine List.map_congr_left fun i hi => ?_
  have hi' := List.mem_range.mp hi
  funext rr
  rw [KeyStar.mask, KeyStar.mask, h (i + 1) (Nat.succ_pos i) (by omega)]

lemma setkeystar_rounds (s s' : KeyStar) (bits : List UInt8) : (s.setkeystar bits).rounds = (s'.setkeystar bits).rounds :=
  rounds_congr fun _ h0 hn => by rw [setkeystar_K s bits h0 hn, setkeystar_K s' bits h0 hn]

end KeyRows

end Xframe.Comserv.Des
