import Xframe.Comserv.Base64

/-! Which texts `Decode` can read without leaving its table or the buffer. -/

namespace Xframe.Comserv.CBase64

open Xframe.Lib

structure Bytes where
  data : List UInt8
  small : data.length < 2 ^ 63

def groupSize (p : ℕ) : ℕ := if p = 0 ∨ 4 ≤ p then 3 else if p = 1 then 2 else 1

/-- A text whose bytes are ASCII and whose groups fit into `out` bytes, up to a group that the length check
refuses. Before it there are `p` padding characters, `z` bytes are written, and `y` characters wait for their group. -/
def Bounded (out : ℕ) : ℕ → ℕ → ℕ → List UInt8 → Prop
  | _, _, _, [] => True
  | y, p, z, b :: text =>
    b.toNat < 128 ∧
      if b ∉ pCodes then Bounded out y p z text
      else
        let p := if b = 61 then p + 1 else p
        if y < 3 then Bounded out (y + 1) p z text
        else out < z + (3 - p) ∨ z + 3 < p ∨ z + groupSize p ≤ out ∧ Bounded out 0 p (z + groupSize p) text

lemma lookup_table : ∀ n < 256, (128 ≤ n ∧ lookup (UInt8.ofNat n) = none) ∨
    n < 128 ∧ (UInt8.ofNat n ∉ pCodes ∧ lookup (UInt8.ofNat n) = some 255 ∨
      UInt8.ofNat n ∈ pCodes ∧ ∃ c ∈ pMap, lookup (UInt8.ofNat n) = some c ∧ c ≠ 255 ∧ (c = 254 ↔ UInt8.ofNat n = 61)) := by
  decide +kernel

lemma lookup_cases (b : UInt8) : (¬b.toNat < 128 ∧ lookup b = none) ∨ (b.toNat < 128 ∧ b ∉ pCodes ∧ lookup b = some 255) ∨
    b.toNat < 128 ∧ b ∈ pCodes ∧ ∃ c, lookup b = some c ∧ c ≠ 255 ∧ (c = 254 ↔ b = 61) := by
  have h := lookup_table b.toNat b.toNat_lt
  rw [UInt8.ofNat_toNat] at h
  rcases h with ⟨hbig, hnone⟩ | ⟨hsmall, ⟨hmem, hskip⟩ | ⟨hmem, c, -, hc⟩⟩
  · exact Or.inl ⟨by omega, hnone⟩
  · exact Or.inr (Or.inl ⟨hsmall, hmem, hskip⟩)
  · exact Or.inr (Or.inr ⟨hsmall, hmem, c, hc⟩)

def groupRest (p : ℕ) : ℕ := (2 ^ 64 + 3 - p) % 2 ^ 64

namespace Decoder

variable {s s' : Decoder} {p : ℕ} {c : UInt8}

structure Padded (s : Decoder) (p : ℕ) : Prop where
  g_eq : s.g = groupRest p
  room : s.z ≤ s.pOut.length
  small : s.pOut.length < 2 ^ 63

lemma Padded.take (h : s.Padded p) (hp : p < 2 ^ 63) : (s.take c).Padded (if c = 254 then p + 1 else p) := by
  refine ⟨?_, h.room, h.small⟩
  change (if c = 254 then (s.g + 2 ^ 64 - 1) % 2 ^ 64 else s.g) = _
  rw [h.g_eq]
  split_ifs
  · rw [groupRest, groupRest]
    omega
  · rfl

lemma putAll_room (vs : List ℕ) (h : s.z ≤ s.pOut.length) :
    if s.z + vs.length ≤ s.pOut.length then
      Returns (putAll vs s) fun s' => s'.z = s.z + vs.length ∧ s'.pOut.length = s.pOut.length ∧ s'.g = s.g
    else putAll vs s = none := by
  induction vs generalizing s with
  | nil =>
    rw [List.length_nil, Nat.add_zero, if_pos h]
    exact ⟨s, rfl, rfl, rfl, rfl⟩
  | cons v vs ih =>
    rw [putAll, put, List.length_cons]
    by_cases hz : s.z < s.pOut.length
    · have htail := ih (s := { s with z := s.z + 1, pOut := s.pOut.set s.z (UInt8.ofNat v) })
        (by rw [List.length_set]; exact hz)
      rw [List.length_set, Nat.add_assoc, Nat.add_comm 1] at htail
      rw [if_pos hz, Option.bind_eq_bind, Option.bind_some]
      exact htail
    · rw [if_neg hz, if_neg (by omega)]
      rfl

lemma groupSize_eq {p : ℕ} (hp : p < 2 ^ 63) : size (groupRest p) = groupSize p := by
  rw [size, groupRest, groupSize]
  split_ifs
  all_goals omega

lemma Padded.flush (h : s.Padded p) (hp : p < 2 ^ 63) :
    if s.z + groupSize p ≤ s.pOut.length then
      Returns s.flush fun s' => s'.Padded p ∧ s'.y = 0 ∧ s'.z = s.z + groupSize p ∧ s'.pOut.length = s.pOut.length
    else s.flush = none := by
  have hlen : ((bytes s.t).take (size s.g)).length = groupSize p := by
    rw [List.length_take, h.g_eq, ← groupSize_eq hp]
    exact Nat.min_eq_left (size_le _)
  have hput := putAll_room ((bytes s.t).take (size s.g)) h.room
  rw [hlen] at hput
  rw [flush_eq]
  split_ifs at hput ⊢ with hroom
  · refine hput.map ?_
    rintro s' ⟨hz, hout, hg⟩
    exact ⟨⟨hg.trans h.g_eq, by change s'.z ≤ s'.pOut.length; omega, by change s'.pOut.length < 2 ^ 63; rw [hout]; exact h.small⟩,
      rfl, hz, hout⟩
  · rw [hput, Option.map_none]

end Decoder

lemma refused_iff {s : Decoder} {p : ℕ} (h : s.Padded p) (hp : p < 2 ^ 63) :
    s.pOut.length < (s.z + s.g) % 2 ^ 64 ↔ s.pOut.length < s.z + (3 - p) ∨ s.z + 3 < p := by
  have hroom := h.room
  have hsmall := h.small
  rw [h.g_eq, groupRest]
  by_cases hthree : p ≤ 3
  · rw [show (2 ^ 64 + 3 - p) % 2 ^ 64 = 3 - p by omega, Nat.mod_eq_of_lt (by omega)]
    omega
  · rw [Nat.mod_eq_of_lt (show 2 ^ 64 + 3 - p < 2 ^ 64 by omega)]
    by_cases hwrap : s.z + 3 < p
    · rw [Nat.mod_eq_of_lt (by omega)]
      omega
    · rw [show (s.z + (2 ^ 64 + 3 - p)) % 2 ^ 64 = s.z + 3 - p by omega]
      omega

lemma decodeLoop_isSome_iff {text : List UInt8} {s : Decoder} {p : ℕ} (h : s.Padded p) (hy : s.y < 4)
    (hp : p + text.length < 2 ^ 63) : (decodeLoop text s).isSome ↔ Bounded s.pOut.length s.y p s.z text := by
  induction text generalizing s p with
  | nil => simp [decodeLoop, Bounded]
  | cons b text ih =>
    rw [List.length_cons] at hp
    rw [decodeLoop, Bounded]
    rcases lookup_cases b with ⟨hbig, hnone⟩ | ⟨hsmall, hmem, hskip⟩ | ⟨hsmall, hmem, c, hc, hne, hpad⟩
    · rw [hnone]
      simp [hbig]
    · rw [hskip, Option.bind_eq_bind, Option.bind_some, if_pos rfl, if_pos hmem, ih h hy (by omega)]
      simp [hsmall]
    · have htaken := h.take (c := c) (by omega)
      simp only [hpad] at htaken
      rw [hc, Option.bind_eq_bind, Option.bind_some, if_neg hne, if_neg (not_not_intro hmem)]
      have hp' : (if b = 61 then p + 1 else p) + text.length < 2 ^ 63 := by
        split_ifs <;> omega
      generalize hq : (if b = 61 then p + 1 else p) = q at htaken hp'
      dsimp only
      by_cases hfull : s.y = 3
      · have hcheck : s.pOut.length < (s.z + (s.take c).g) % 2 ^ 64 ↔ s.pOut.length < s.z + (3 - q) ∨ s.z + 3 < q :=
          refused_iff htaken (by omega)
        have hflush := htaken.flush (by omega)
        rw [Decoder.take_z, Decoder.take_pOut] at hflush
        rw [if_pos (show (s.take c).y = 4 by rw [Decoder.take_y, hfull]), if_neg (show ¬s.y < 3 by omega)]
        by_cases hrefused : s.pOut.length < (s.z + (s.take c).g) % 2 ^ 64
        · rw [Decoder.take_pOut, Decoder.take_z, if_pos hrefused]
          exact iff_of_true rfl ⟨hsmall, or_assoc.mp (Or.inl (hcheck.mp hrefused))⟩
        rw [Decoder.take_pOut, Decoder.take_z, if_neg hrefused, ← or_assoc, ← hcheck, or_iff_right hrefused]
        split_ifs at hflush with hroom
        · obtain ⟨s', hs', hpadded, hy', hz', hout'⟩ := hflush
          have htail := ih hpadded (by omega) hp'
          rw [hy', hz', hout'] at htail
          rw [hs', Option.bind_eq_bind, Option.bind_some, htail]
          simp [hsmall, hroom]
        · rw [hflush]
          simp [hroom]
      · have htail := ih htaken (by rw [Decoder.take_y]; omega) hp'
        rw [Decoder.take_y, Decoder.take_z, Decoder.take_pOut] at htail
        rw [if_neg (show ¬(s.take c).y = 4 by rw [Decoder.take_y]; omega), if_pos (show s.y < 3 by omega), htail]
        simp [hsmall]

lemma decode_isSome (strIn pOut : Bytes) :
    (decode strIn.data pOut.data).isSome ↔ (decodeLoop strIn.data ⟨0, 0, 0, 3, pOut.data⟩).isSome := by
  rw [decode]
  cases decodeLoop strIn.data ⟨0, 0, 0, 3, pOut.data⟩ with
  | none => rfl
  | some r => rfl

lemma decodeLoop_start_iff (strIn pOut : Bytes) :
    (decodeLoop strIn.data ⟨0, 0, 0, 3, pOut.data⟩).isSome ↔ Bounded pOut.data.length 0 0 0 strIn.data := by
  have hstart : Decoder.Padded ⟨0, 0, 0, 3, pOut.data⟩ 0 := ⟨rfl, Nat.zero_le _, pOut.small⟩
  apply decodeLoop_isSome_iff hstart (Nat.zero_lt_succ 3)
  rw [Nat.zero_add]
  exact strIn.small

theorem decode_isSome_iff (strIn pOut : Bytes) :
    (decode strIn.data pOut.data).isSome ↔ Bounded pOut.data.length 0 0 0 strIn.data := by
  rw [decode_isSome, decodeLoop_start_iff]

theorem decode_overruns : ¬∀ strIn pOut : Bytes, (decode strIn.data pOut.data).isSome := by
  intro h
  have hpads := h ⟨[65, 65, 65, 65, 61, 61, 61, 61], by decide⟩ ⟨[0, 0, 0], by decide⟩
  revert hpads
  decide +kernel

lemma groupSize_of_le {p : ℕ} (hp : p ≤ 2) : groupSize p = 3 - p := by
  rw [groupSize]
  split_ifs
  all_goals omega

lemma bounded_of_pads {text : List UInt8} {out y p z : ℕ} (hascii : ∀ b ∈ text, b.toNat < 128)
    (hpads : p + text.count 61 ≤ 2) : Bounded out y p z text := by
  induction text generalizing y p z with
  | nil => trivial
  | cons b text ih =>
    rw [List.forall_mem_cons] at hascii
    simp only [List.count_cons, beq_iff_eq] at hpads
    refine ⟨hascii.1, ?_⟩
    have hcount : (if b = 61 then p + 1 else p) + text.count 61 ≤ 2 := by
      split_ifs at hpads ⊢
      all_goals omega
    by_cases hmem : b ∈ pCodes
    · rw [if_neg (not_not_intro hmem)]
      generalize (if b = 61 then p + 1 else p) = q at hcount
      by_cases hy : y < 3
      · simpa only [if_pos hy] using ih hascii.2 hcount
      simp only [if_neg hy]
      by_cases hroom : out < z + (3 - q)
      · exact Or.inl hroom
      · rw [groupSize_of_le (by omega)]
        exact Or.inr (Or.inr ⟨by omega, ih hascii.2 hcount⟩)
    · rw [if_pos hmem]
      exact ih hascii.2 (by omega)

lemma decode_of_pads (strIn pOut : Bytes) (hascii : ∀ b ∈ strIn.data, b.toNat < 128) (hpads : strIn.data.count 61 ≤ 2) :
    (decode strIn.data pOut.data).isSome := by
  rw [decode_isSome, decodeLoop_start_iff]
  exact bounded_of_pads hascii (by omega)

end Xframe.Comserv.CBase64
