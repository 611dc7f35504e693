import Xframe.Comserv.DesBits

/-! What DES does to whole blocks: decryption takes encryption back, a key and a text that are complemented
give the complement, and the low bits of the bytes of a key do not count. -/

namespace Xframe.Comserv.Des

open Xframe.Lib

variable {key key' text : Block} {key16 : Vector UInt8 16} {s s' : KeyStar} {bits : List UInt8} {n : ℕ}

namespace KeyStar

lemma encrypt0_eq (s : KeyStar) (text : Block) :
    s.encrypt0 text = compress0 (ip_1 (Feistel.network addBits s.rounds (ip text)).2
      (Feistel.network addBits s.rounds (ip text)).1) := by
  rw [encrypt0, encrypt_rounds]

lemma discrypt0_eq (s : KeyStar) (text : Block) :
    s.discrypt0 text = compress0 (ip_1 (Feistel.network addBits s.rounds.reverse (ip text)).2
      (Feistel.network addBits s.rounds.reverse (ip text)).1) := by
  rw [discrypt0, discrypt_rounds]

lemma network_inverse {fs : List (List UInt8 → List UInt8)} (hf : ∀ f ∈ fs, Feistel.Masks addBits (Bits 32) f)
    (text : Block) {mtext : Block}
    (hm : mtext = compress0 (ip_1 (Feistel.network addBits fs (ip text)).2 (Feistel.network addBits fs (ip text)).1)) :
    compress0 (ip_1 (Feistel.network addBits fs.reverse (ip mtext)).2
      (Feistel.network addBits fs.reverse (ip mtext)).1) = text := by
  obtain ⟨hl, hr⟩ := Feistel.network_halves hf (ip_halves text)
  have hip : ip mtext = (Feistel.network addBits fs (ip text)).swap := by
    rw [hm, ip_compress0 hr hl]
    rfl
  rw [hip, Feistel.network_reverse hf (ip_halves text)]
  exact compress0_ip text

lemma discrypt0_encrypt0 (s : KeyStar) (text : Block) : s.discrypt0 (s.encrypt0 text) = text := by
  rw [discrypt0_eq]
  exact network_inverse (fun _ hf => masks_of_mem hf) text (encrypt0_eq s text)

lemma encrypt0_discrypt0 (s : KeyStar) (text : Block) : s.encrypt0 (s.discrypt0 text) = text := by
  rw [encrypt0_eq]
  have hmasks : ∀ f ∈ s.rounds.reverse, Feistel.Masks addBits (Bits 32) f :=
    fun _ hf => masks_of_mem (List.mem_reverse.mp hf)
  have hback := network_inverse hmasks text (discrypt0_eq s text)
  rwa [List.reverse_reverse] at hback

lemma encrypt0_congr (h : s.rounds = s'.rounds) (text : Block) : s.encrypt0 text = s'.encrypt0 text := by
  rw [encrypt0_eq, encrypt0_eq, h]

lemma discrypt0_congr (h : s.rounds = s'.rounds) (text : Block) : s.discrypt0 text = s'.discrypt0 text := by
  rw [discrypt0_eq, discrypt0_eq, h]

end KeyStar

lemma DES_state (s s' : KeyStar) (key text : Block) : (DES s key text).1 = (DES s' key text).1 :=
  KeyStar.encrypt0_congr (setkeystar_rounds s s' _) text

lemma DES_1_state (s s' : KeyStar) (key text : Block) : (DES_1 s key text).1 = (DES_1 s' key text).1 :=
  KeyStar.discrypt0_congr (setkeystar_rounds s s' _) text

theorem DES_1_DES (s s' : KeyStar) (key text : Block) : (DES_1 s' key (DES s key text).1).1 = text := by
  rw [DES_state s s']
  exact KeyStar.discrypt0_encrypt0 _ text

theorem DES_DES_1 (s s' : KeyStar) (key text : Block) : (DES s' key (DES_1 s key text).1).1 = text := by
  rw [DES_1_state s s']
  exact KeyStar.encrypt0_discrypt0 _ text

theorem TripleDES_inverse (s s' : KeyStar) (key16 : Vector UInt8 16) (text : Block) :
    (TripleDES_1 s' key16 (TripleDES s key16 text).1).1 = text ∧
      (TripleDES s' key16 (TripleDES_1 s key16 text).1).1 = text := by
  constructor
  · rw [TripleDES_1, TripleDES]
    dsimp only
    rw [DES_1_DES, DES_DES_1, DES_1_DES]
  · rw [TripleDES_1, TripleDES]
    dsimp only
    rw [DES_DES_1, DES_1_DES, DES_DES_1]

section Parity

def SameKey (key key' : Block) : Prop := ∀ i : Fin 8, key[i] / (2 : UInt8) = key'[i] / (2 : UInt8)

lemma expandByte_top {c c' : UInt8} (h : c / 2 = c' / 2) {r : ℕ} (hr : r < 7) :
    (expandByte 8 0x80 c).getD r 0 = (expandByte 8 0x80 c').getD r 0 := by
  have htop : ∀ c, (expandByte 8 0x80 c).take 7 = expandByte 7 0x40 (c / 2) := forall_byte (by decide +kernel)
  have hget : ∀ c, (expandByte 8 0x80 c).getD r 0 = ((expandByte 8 0x80 c).take 7).getD r 0 := by
    intro c
    rw [List.getD_eq_getElem?_getD, List.getD_eq_getElem?_getD, List.getElem?_take_of_lt hr]
  rw [hget, hget, htop, htop, h]

lemma expand0_getD (t : Block) {q : ℕ} (hq : q < 8) {r : ℕ} (hr : r < 8) :
    (expand0 t.toList).getD (8 * q + r) 0 = (expandByte 8 0x80 t[q]).getD r 0 := by
  have hlen : q < t.toList.length := by rwa [Vector.length_toList]
  have hchunk : ((expand0 t.toList).drop (8 * q)).take 8 = expandByte 8 0x80 t.toList[q] :=
    chunk_flatMap (fun c => (expandByte_bits 8 0x80 c).1) hlen
  rw [Vector.getElem_toList] at hchunk
  rw [← hchunk, List.getD_eq_getElem?_getD, List.getD_eq_getElem?_getD, List.getElem?_take_of_lt hr, List.getElem?_drop]

lemma pick_sameKey {table : List ℕ} (ht : ∀ j ∈ table, (j - 1) / 8 < 8 ∧ (j - 1) % 8 < 7) (h : SameKey key key') :
    pick table (expand0 key.toList) = pick table (expand0 key'.toList) := by
  refine List.map_congr_left fun j hj => ?_
  obtain ⟨hq, hr⟩ := ht j hj
  rw [← Nat.div_add_mod (j - 1) 8, expand0_getD key hq (by omega), expand0_getD key' hq (by omega)]
  exact expandByte_top (h ⟨_, hq⟩) hr

lemma row_congr {table : List ℕ} {bits bits' : List UInt8} (h : pick table bits = pick table bits') (j : ℕ) :
    row table bits j = row table bits' j := by
  induction j with
  | zero => exact h
  | succ j ih => rw [row, row, ih]

lemma rounds_sameKey (h : SameKey key key') (s s' : KeyStar) :
    (s.setkeystar (expand0 key.toList)).rounds = (s'.setkeystar (expand0 key'.toList)).rounds := by
  refine rounds_congr fun n h0 hn => ?_
  rw [setkeystar_K s _ h0 hn, setkeystar_K s' _ h0 hn, roundKey, roundKey, row_congr (pick_sameKey (by decide) h),
    row_congr (pick_sameKey (by decide) h)]

lemma DES_sameKey (h : SameKey key key') (s s' : KeyStar) (text : Block) : (DES s key text).1 = (DES s' key' text).1 :=
  KeyStar.encrypt0_congr (rounds_sameKey h s s') text

lemma DES_1_sameKey (h : SameKey key key') (s s' : KeyStar) (text : Block) :
    (DES_1 s key text).1 = (DES_1 s' key' text).1 :=
  KeyStar.discrypt0_congr (rounds_sameKey h s s') text

theorem TripleDES_single (h : SameKey (keyL key16) (keyR key16)) (s s' : KeyStar) (text : Block) :
    (TripleDES s key16 text).1 = (DES s' (keyR key16) text).1 ∧
      (TripleDES_1 s key16 text).1 = (DES_1 s' (keyR key16) text).1 := by
  constructor
  · rw [TripleDES]
    dsimp only
    rw [DES_sameKey h s s' text, DES_1_DES, DES_sameKey h _ s']
  · rw [TripleDES_1]
    dsimp only
    rw [DES_1_sameKey h s s' text, DES_DES_1, DES_1_sameKey h _ s']

theorem TripleDES_single_zero :
    let key16 : Vector UInt8 16 := #v[0, 0, 0, 0, 0, 0, 0, 0, 1, 1, 1, 1, 1, 1, 1, 1]
    let s : KeyStar := ⟨fun _ => [], fun _ => [], fun _ => []⟩
    ∀ text, (TripleDES s key16 text).1 = (DES s (keyR key16) text).1 ∧
      (TripleDES_1 s key16 text).1 = (DES_1 s (keyR key16) text).1 := by
  intro key16 s text
  exact TripleDES_single (by unfold SameKey; decide) s s text

end Parity

section Complement

def flip (l : List UInt8) : List UInt8 := l.map (1 - ·)

def complement {n : ℕ} (t : Vector UInt8 n) : Vector UInt8 n := t.map (~~~ ·)

lemma toNat_flip {x : UInt8} (h : x = 0 ∨ x = 1) : (1 - x).toNat = 1 - x.toNat := by
  rcases h with rfl | rfl <;> decide

lemma flip_bits (h : Bits n bits) : Bits n (flip bits) := by
  refine ⟨by rw [flip, List.length_map, h.1], ?_⟩
  intro b hb
  obtain ⟨c, hc, rfl⟩ := List.mem_map.mp hb
  rcases h.2 c hc with rfl | rfl
  · exact Or.inr (by decide)
  · exact Or.inl (by decide)

lemma flip_getD {i : ℕ} (hi : i < bits.length) : (flip bits).getD i 0 = 1 - bits.getD i 0 := by
  rw [List.getD_eq_getElem _ _ hi, List.getD_eq_getElem _ _ (by rwa [flip, List.length_map])]
  simp [flip]

lemma pick_flip {table : List ℕ} (ht : ∀ j ∈ table, j - 1 < bits.length) :
    pick table (flip bits) = flip (pick table bits) := by
  rw [flip.eq_1 (pick table bits), pick, pick, List.map_map]
  exact List.map_congr_left fun j hj => flip_getD (ht j hj)

lemma LS_flip (h : bits.length = 28) (count : ℕ) : LS (flip bits) count = flip (LS bits count) := by
  rw [flip.eq_1 (LS bits count), LS, LS, List.map_map]
  exact List.map_congr_left fun i _ => flip_getD (by omega)

lemma son_flip {cc dd : List UInt8} (hc : cc.length = 28) (hd : dd.length = 28) :
    son (flip cc) (flip dd) = flip (son cc dd) := by
  have hboth : flip cc ++ flip dd = flip (cc ++ dd) := List.map_append.symm
  have hlen : (cc ++ dd).length = 56 := by rw [List.length_append, hc, hd]
  have hplaces : ∀ j ∈ pc_2, j - 1 < 56 := by decide
  rw [son, son, hboth]
  exact pick_flip fun j hj => hlen ▸ hplaces j hj

lemma row_length {table : List ℕ} (ht : table.length = 28) (j : ℕ) : (row table bits j).length = 28 := by
  cases j with
  | zero => rw [row, pick_length, ht]
  | succ j => rw [row, LS, List.length_map, List.length_range]

lemma row_flip {table : List ℕ} (ht : table.length = 28) (hb : ∀ j ∈ table, j - 1 < bits.length) (j : ℕ) :
    row table (flip bits) j = flip (row table bits j) := by
  induction j with
  | zero => exact pick_flip hb
  | succ j ih => rw [row, row, ih, LS_flip (row_length ht j)]

lemma roundKey_flip (h : bits.length = 64) (n : ℕ) : roundKey (flip bits) n = flip (roundKey bits n) := by
  have hc : ∀ j ∈ pc_1_c, j - 1 < 64 := by decide
  have hd : ∀ j ∈ pc_1_d, j - 1 < 64 := by decide
  rw [roundKey, roundKey, row_flip rfl fun j hj => h ▸ hc j hj, row_flip rfl fun j hj => h ▸ hd j hj]
  exact son_flip (row_length rfl n) (row_length rfl n)

lemma row_bits (hb : ∀ b ∈ bits, b = 0 ∨ b = 1) (table : List ℕ) (j : ℕ) : ∀ b ∈ row table bits j, b = 0 ∨ b = 1 := by
  induction j with
  | zero => exact (pick_bits hb table).2
  | succ j ih =>
    intro b h
    obtain ⟨i, -, rfl⟩ := List.mem_map.mp h
    exact getD_bit ih _

lemma roundKey_bits (hb : ∀ b ∈ bits, b = 0 ∨ b = 1) (n : ℕ) : Bits 48 (roundKey bits n) := by
  refine pick_bits (fun b h => ?_) pc_2
  rcases List.mem_append.mp h with h | h
  · exact row_bits hb _ _ b h
  · exact row_bits hb _ _ b h

lemma addBits_flip_flip {a b : List UInt8} (ha : Bits n a) (hb : Bits n b) : addBits (flip a) (flip b) = addBits a b := by
  refine List.ext_getElem ?_ ?_
  · rw [(addBits_bits (flip_bits ha).1 (flip_bits hb).1).1, (addBits_bits ha.1 hb.1).1]
  · intro i h₁ h₂
    have hi : i < n := by rwa [(addBits_bits ha.1 hb.1).1] at h₂
    have hia : i < a.length := by rwa [ha.1]
    have hib : i < b.length := by rwa [hb.1]
    simp only [addBits, flip, List.getElem_zipWith, List.getElem_map]
    apply UInt8.toNat_inj.mp
    rw [toNat_addBit, toNat_addBit, toNat_flip (ha.2 _ (List.getElem_mem hia)), toNat_flip (hb.2 _ (List.getElem_mem hib))]
    have h1 := bit_toNat (ha.2 _ (List.getElem_mem hia))
    have h2 := bit_toNat (hb.2 _ (List.getElem_mem hib))
    omega

lemma addBits_flip {a b : List UInt8} (ha : Bits n a) (hb : Bits n b) : addBits a (flip b) = flip (addBits a b) := by
  refine List.ext_getElem ?_ ?_
  · rw [(addBits_bits ha.1 (flip_bits hb).1).1, (flip_bits (addBits_bits ha.1 hb.1)).1]
  · intro i h₁ h₂
    have hi : i < n := by rwa [(flip_bits (addBits_bits ha.1 hb.1)).1] at h₂
    have hib : i < b.length := by rwa [hb.1]
    simp only [addBits, flip, List.getElem_zipWith, List.getElem_map]
    apply UInt8.toNat_inj.mp
    rw [toNat_addBit, toNat_flip (and_one _), toNat_addBit, toNat_flip (hb.2 _ (List.getElem_mem hib))]
    have h2 := bit_toNat (hb.2 _ (List.getElem_mem hib))
    omega

lemma mask_flip {s s' : KeyStar} {n : ℕ} (hk : Bits 48 (s.K n)) (h : s'.K n = flip (s.K n)) {rr : List UInt8}
    (hr : Bits 32 rr) : s'.mask n (flip rr) = s.mask n rr := by
  have hplaces : ∀ j ∈ e_r, j - 1 < 32 := by decide
  rw [KeyStar.mask, KeyStar.mask, h, pick_flip fun j hj => hr.1 ▸ hplaces j hj,
    addBits_flip_flip (pick_bits hr.2 e_r) hk]

lemma rounds_alike (hb : Bits 64 bits) (s s' : KeyStar) :
    List.Forall₂ (Feistel.Alike addBits (Bits 32) flip) (s.setkeystar bits).rounds (s'.setkeystar (flip bits)).rounds := by
  rw [KeyStar.rounds, KeyStar.rounds, List.forall₂_map_left_iff, List.forall₂_map_right_iff, List.forall₂_same]
  intro i hi
  have hi' : i + 1 ≤ 16 := by
    have := List.mem_range.mp hi
    omega
  refine ⟨fun r hr => mask_flip ?_ ?_ hr, fun l r hl _ => addBits_flip (KeyStar.mask_bits _ r) hl⟩
  · rw [setkeystar_K s bits (Nat.succ_pos i) hi']
    exact roundKey_bits hb.2 _
  · rw [setkeystar_K s bits (Nat.succ_pos i) hi', setkeystar_K s' _ (Nat.succ_pos i) hi']
    exact roundKey_flip hb.1 _

lemma expand0_complement (t : Block) : expand0 (complement t).toList = flip (expand0 t.toList) := by
  have hbyte : ∀ c, expandByte 8 0x80 (~~~c) = flip (expandByte 8 0x80 c) := forall_byte (by decide +kernel)
  rw [complement, Vector.toList_map, expand0, expand0, flip, List.flatMap_map, List.map_flatMap]
  exact List.flatMap_congr fun c _ => hbyte c

lemma ip_complement (t : Block) : ip (complement t) = (ip t).map flip flip := by
  have hlen := (expand0_bits t).1
  have hplaces : ∀ j ∈ ip_tab, j - 1 < 64 := by decide
  rw [ip, ip, expand0_complement]
  refine Prod.ext ?_ ?_
  · exact pick_flip fun j hj => hlen ▸ hplaces j (List.mem_of_mem_take hj)
  · exact pick_flip fun j hj => hlen ▸ hplaces j (List.mem_of_mem_drop hj)

lemma compress0_flip (hb : Bits 64 bits) : compress0 (flip bits) = complement (compress0 bits) := by
  have h := compress0_expand0 (complement (compress0 bits))
  rwa [expand0_complement, expand0_compress0 hb] at h

lemma ip_1_flip {ll rr : List UInt8} (hl : Bits 32 ll) (hr : Bits 32 rr) : ip_1 (flip ll) (flip rr) = flip (ip_1 ll rr) := by
  have hboth : flip ll ++ flip rr = flip (ll ++ rr) := List.map_append.symm
  have hlen : (ll ++ rr).length = 64 := by rw [List.length_append, hl.1, hr.1]
  have hplaces : ∀ j ∈ ip_tab_1, j - 1 < 64 := by decide
  rw [ip_1, ip_1, hboth]
  exact pick_flip fun j hj => hlen ▸ hplaces j hj

lemma network_complement {fs gs : List (List UInt8 → List UInt8)}
    (hfg : List.Forall₂ (Feistel.Alike addBits (Bits 32) flip) fs gs)
    (hf : ∀ f ∈ fs, Feistel.Masks addBits (Bits 32) f) (text : Block) :
    compress0 (ip_1 (Feistel.network addBits gs (ip (complement text))).2
      (Feistel.network addBits gs (ip (complement text))).1) =
    complement (compress0 (ip_1 (Feistel.network addBits fs (ip text)).2 (Feistel.network addBits fs (ip text)).1)) := by
  obtain ⟨hl, hr⟩ := Feistel.network_halves hf (ip_halves text)
  rw [ip_complement, Feistel.network_alike hfg hf (ip_halves text), ← compress0_flip (ip_1_bits hr hl), ← ip_1_flip hr hl]
  rfl

lemma DES_complement (s s' : KeyStar) (key text : Block) :
    (DES s' (complement key) (complement text)).1 = complement (DES s key text).1 := by
  rw [DES, DES]
  dsimp only
  rw [KeyStar.encrypt0_eq, KeyStar.encrypt0_eq, expand0_complement]
  exact network_complement (rounds_alike (expand0_bits key) s s') (fun _ hf => KeyStar.masks_of_mem hf) text

lemma DES_1_complement (s s' : KeyStar) (key text : Block) :
    (DES_1 s' (complement key) (complement text)).1 = complement (DES_1 s key text).1 := by
  rw [DES_1, DES_1]
  dsimp only
  rw [KeyStar.discrypt0_eq, KeyStar.discrypt0_eq, expand0_complement]
  exact network_complement (List.rel_reverse (rounds_alike (expand0_bits key) s s'))
    (fun _ hf => KeyStar.masks_of_mem (List.mem_reverse.mp hf)) text

lemma keyL_complement (key16 : Vector UInt8 16) : keyL (complement key16) = complement (keyL key16) := by
  refine Vector.ext fun i hi => ?_
  simp [keyL, complement]

lemma keyR_complement (key16 : Vector UInt8 16) : keyR (complement key16) = complement (keyR key16) := by
  refine Vector.ext fun i hi => ?_
  simp [keyR, complement]

theorem TripleDES_complement (s s' : KeyStar) (key16 : Vector UInt8 16) (text : Block) :
    (TripleDES s' (complement key16) (complement text)).1 = complement (TripleDES s key16 text).1 ∧
      (TripleDES_1 s' (complement key16) (complement text)).1 = complement (TripleDES_1 s key16 text).1 := by
  constructor
  · rw [TripleDES, TripleDES]
    dsimp only
    rw [keyL_complement, keyR_complement, DES_complement s, DES_1_complement (DES s (keyL key16) text).2,
      DES_complement (DES_1 (DES s (keyL key16) text).2 (keyR key16) (DES s (keyL key16) text).1).2]
  · rw [TripleDES_1, TripleDES_1]
    dsimp only
    rw [keyL_complement, keyR_complement, DES_1_complement s, DES_complement (DES_1 s (keyL key16) text).2,
      DES_1_complement (DES (DES_1 s (keyL key16) text).2 (keyR key16) (DES_1 s (keyL key16) text).1).2]

end Complement

end Xframe.Comserv.Des
