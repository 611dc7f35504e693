import Xframe.Comserv.SocketRecv

/-! The search for a delimiter: how far `_readFromBuff` gets through bytes in front of a frame, and
what it makes of the frame. -/

namespace Xframe.Comserv.CSocket

def stateAt : ℕ → TStateMachine
  | 0 => .wait
  | 1 => .begin
  | 7 => .prepare
  | 8 => .found
  | _ => .appear

def next (k : ℕ) (c : UInt8) : ℕ := if delimiter[k]? = some c then k + 1 else if c = 0 then 1 else 0

lemma scanByte_stateAt {k : ℕ} (hk : k < 8) (c : UInt8) :
    scanByte (stateAt k) (headLength - k) c =
      (stateAt (next k c), if next k c = 8 then (5 : ℤ) else headLength - (next k c : ℤ)) := by
  by_cases hz : c = 0x00
  · subst hz
    interval_cases k <;> decide
  by_cases hf : c = 0xff
  · subst hf
    interval_cases k <;> decide
  have hc : delimiter[k]? ≠ some c := by
    interval_cases k <;> simp [delimiter, Ne.symm hz, Ne.symm hf]
  have hn : next k c = 0 := by rw [next, if_neg hc, if_neg hz]
  rw [hn]
  interval_cases k <;> simp [stateAt, scanByte, hz, hf]

lemma next_suffix {k : ℕ} {u : List UInt8} (h : delimiter.take k <:+ u) (c : UInt8) :
    delimiter.take (next k c) <:+ u ++ [c] := by
  rw [next]
  split_ifs with hc h0
  · obtain ⟨v, rfl⟩ := h
    rw [List.take_add_one, hc]
    exact ⟨v, by simp⟩
  · rw [h0]
    exact ⟨u, rfl⟩
  · exact List.nil_suffix

def searching (k : ℕ) (L r : ℤ) (message : List UInt8) : Scan := ⟨stateAt k, headLength - k, L, r, message⟩

variable {k fuel : ℕ} {L r : ℤ} {c : UInt8} {m : List UInt8}

lemma scan_exit (h : L + k ≤ headLength) : scan (fuel + 1) (searching k L r m) = some (r - k, none) := by
  rw [scan, searching, if_neg (by dsimp only; omega)]
  dsimp only
  congr 2
  omega

lemma scan_step (hk : k < 8) (hn : next k c < 8) (h : headLength < L + k) :
    scan (fuel + 1) (searching k L r (c :: m)) = scan fuel (searching (next k c) (L - 1) (r + 1) m) := by
  have hstate : stateAt (next k c) ≠ .found := by
    generalize next k c = j at hn
    interval_cases j <;> decide
  rw [scan, searching, if_pos (by dsimp only; omega)]
  dsimp only
  rw [scanByte_stateAt hk]
  dsimp only
  rw [if_neg hstate, if_neg hn.ne]
  rfl

def Free (x y : List UInt8) : Prop := ∀ j < x.length, ¬delimiter <+: (x ++ y).drop j

lemma Free.next_lt {u z y v : List UInt8} (h : Free (u ++ z) y) (hk : k < 8) (hm : delimiter.take k <:+ u)
    (hv : z ++ y = c :: v) : next k c < 8 := by
  by_contra hge
  have hle : next k c ≤ 8 := by
    rw [next]
    split_ifs <;> omega
  have hs := next_suffix hm c
  rw [show next k c = 8 by omega] at hs
  obtain ⟨w, hw⟩ : delimiter <:+ u ++ [c] := hs
  have hlen : w.length + 8 = u.length + 1 := by
    have := congrArg List.length hw
    rwa [List.length_append, List.length_append] at this
  refine h w.length (by rw [List.length_append]; omega) ?_
  have hall : u ++ z ++ y = w ++ (delimiter ++ v) := by
    rw [List.append_assoc, hv, ← List.append_assoc, hw]
    simp
  rw [hall, List.drop_left]
  exact List.prefix_append _ _

lemma scan_garbage (fuel : ℕ) (junk : List UInt8) {u x' y : List UInt8} (hfree : Free (u ++ x') y) (hk : k < 8) (hm : delimiter.take k <:+ u)
    (hy : headLength < y.length) :
    ∃ j < 8, delimiter.take j <:+ u ++ x' ∧
      scan (fuel + x'.length) (searching k (x' ++ y).length u.length (x' ++ y ++ junk)) =
        scan fuel (searching j y.length (u ++ x').length (y ++ junk)) := by
  induction x' generalizing u k with
  | nil => exact ⟨k, hk, by simpa using hm, by simp⟩
  | cons c x' ih =>
    have hn := hfree.next_lt hk hm (v := x' ++ y) rfl
    have hu : u ++ c :: x' = u ++ [c] ++ x' := by simp
    rw [hu] at hfree ⊢
    obtain ⟨j, hj, hmj, heq⟩ := ih hfree hn (next_suffix hm c)
    refine ⟨j, hj, hmj, ?_⟩
    rw [← heq, List.length_cons, ← Nat.add_assoc, List.cons_append, List.cons_append,
      scan_step hk hn (by rw [List.length_cons, List.length_append]; omega)]
    congr 2
    · simp
    · simp

lemma next_zero (hk : k < 8) (hn : next k 0x00 < 8) : next k 0x00 = 1 := by
  interval_cases k <;> first | rfl | exact absurd hn (by decide)

lemma le_of_suffix {u : List UInt8} (hk : k < 8) (hm : delimiter.take k <:+ u) : k ≤ u.length := by
  have h := hm.length_le
  have hlen : delimiter.length = 8 := rfl
  rw [List.length_take] at h
  omega

lemma scan_short (fuel : ℕ) (junk : List UInt8) {u x' y : List UInt8} (hfree : Free (u ++ x') y) (hk : k < 8)
    (hm : delimiter.take k <:+ u) (hy : y.length ≤ headLength) (hy0 : ∀ b ∈ y.head?, b = 0x00)
    (hf : (x' ++ y).length < fuel) :
    ∃ d : ℕ, d ≤ (u ++ x').length ∧ (u ++ x' ++ y).length ≤ d + headLength ∧
      scan fuel (searching k (x' ++ y).length u.length (x' ++ y ++ junk)) = some ((d : ℤ), none) := by
  have hku := le_of_suffix hk hm
  obtain ⟨fuel, rfl⟩ : ∃ f, fuel = f + 1 := ⟨fuel - 1, by omega⟩
  induction x' generalizing u k fuel with
  | nil =>
    rw [List.nil_append] at hf ⊢
    rw [List.append_nil]
    by_cases hexit : y.length + k ≤ headLength
    · refine ⟨u.length - k, by omega, by rw [List.length_append]; omega, ?_⟩
      rw [scan_exit (by omega), Nat.cast_sub hku]
    · obtain ⟨b, y', rfl⟩ : ∃ b y', y = b :: y' := List.exists_cons_of_length_pos (by
        have : headLength = 12 := rfl
        omega)
      obtain rfl : b = 0x00 := hy0 b (by simp)
      have hn := hfree.next_lt hk hm (v := y') rfl
      rw [List.length_cons] at hf hy
      obtain ⟨fuel, rfl⟩ : ∃ f, fuel = f + 1 := ⟨fuel - 1, by omega⟩
      refine ⟨u.length, le_rfl, by rw [List.length_append, List.length_cons]; omega, ?_⟩
      rw [List.cons_append, scan_step hk hn (by omega), next_zero hk hn,
        scan_exit (by rw [List.length_cons]; omega)]
      simp
  | cons c x' ih =>
    by_cases hexit : (c :: x' ++ y).length + k ≤ headLength
    · refine ⟨u.length - k, by rw [List.length_append]; omega, ?_, ?_⟩
      · rw [List.append_assoc, List.length_append]
        omega
      · rw [scan_exit (by omega), Nat.cast_sub hku]
    · have hn := hfree.next_lt hk hm (v := x' ++ y) rfl
      have hu : u ++ c :: x' = u ++ [c] ++ x' := by simp
      rw [hu] at hfree ⊢
      have hm' := next_suffix hm c
      rw [List.cons_append, List.length_cons] at hf
      obtain ⟨fuel, rfl⟩ : ∃ f, fuel = f + 1 := ⟨fuel - 1, by omega⟩
      obtain ⟨d, hd, hlen, heq⟩ := ih hfree hn hm' (le_of_suffix hn hm') fuel (by omega)
      refine ⟨d, hd, hlen, ?_⟩
      rw [← heq, List.cons_append, List.cons_append, scan_step hk hn (by rw [List.cons_append] at hexit; omega)]
      congr 2
      · simp
      · simp

lemma scan_along {n : ℕ} (hk : k + n ≤ 7) (h : headLength < L + k) :
    scan (fuel + n) (searching k L r ((delimiter.drop k).take n ++ m)) =
      scan fuel (searching (k + n) (L - n) (r + n) m) := by
  induction n generalizing k L r with
  | zero => simp
  | succ n ih =>
    have hlt : k < delimiter.length := by
      have : delimiter.length = 8 := rfl
      omega
    have hn : next k delimiter[k] = k + 1 := by rw [next, if_pos (List.getElem?_eq_getElem hlt)]
    rw [List.drop_eq_getElem_cons hlt, List.take_succ_cons, List.cons_append, ← Nat.add_assoc,
      scan_step (by omega) (by omega) h, hn, ih (by omega) (by push_cast; omega)]
    congr 2
    · omega
    · push_cast
      omega
    · push_cast
      omega

lemma ntohl_htonl {n : ℕ} (h : n ≤ socketCodeMaxLength) : ntohl (htonl n) = n := by
  rw [socketCodeMaxLength] at h
  simp only [ntohl, htonl, List.foldl_cons, List.foldl_nil, UInt8.toNat_ofNat']
  split_ifs <;> omega

def measured (fuel : ℕ) (L r : ℤ) (w m : List UInt8) : Option (ℤ × Option (List UInt8)) :=
  if 0 < ntohl w then
    if socketCodeMaxLength < ntohl w then scan fuel ⟨.found, headLength, L, r, m⟩
    else if L < ntohl w then some (r - headLength, none)
    else if m.length < ntohl w then none
    else some (r + ntohl w, some (m.take (ntohl w).toNat))
  else scan fuel ⟨.found, ntohl w, L, r, w ++ m⟩

lemma scan_measured {state : TStateMachine} {a b : ℤ} {w : List UInt8} (hs : scanByte state a c = (.found, b))
    (h : a < L) (hw : w.length = comMsgLength) :
    scan (fuel + 1) ⟨state, a, L, r, c :: (w ++ m)⟩ = measured fuel (L - 5) (r + 5) w m := by
  have hlen : ¬(w ++ m).length < comMsgLength := by
    rw [List.length_append]
    omega
  have htake : (w ++ m).take comMsgLength = w := List.take_left' hw
  have hdrop : (w ++ m).drop comMsgLength = m := List.drop_left' hw
  have h5 : L - 1 - comMsgLength = L - 5 := by
    rw [comMsgLength]
    omega
  have h5' : r + 1 + comMsgLength = r + 5 := by
    rw [comMsgLength]
    omega
  rw [scan, if_pos h]
  dsimp only
  rw [hs]
  dsimp only
  rw [if_pos rfl, if_neg hlen, htake, hdrop, h5, h5', measured]

lemma scan_found {n : ℕ} {z : List UInt8} (h0 : 0 < n) (hn : n ≤ socketCodeMaxLength) (h : headLength < L + 7) :
    scan (fuel + 1) (searching 7 L r (0x00 :: (htonl n ++ z))) =
      if L - 5 < n then some (r + 5 - headLength, none)
      else if z.length < n then none
      else some (r + 5 + n, some (z.take n)) := by
  rw [searching, scan_measured (b := 5) rfl (by omega) rfl, measured, ntohl_htonl hn, if_pos (by omega),
    if_neg (by omega), Int.toNat_natCast]
  simp only [Nat.cast_lt]

structure Payload where
  content : List UInt8
  pos : 0 < content.length
  fits : content.length ≤ socketCodeMaxLength

def Payload.frame (p : Payload) : List UInt8 := pack p.content

lemma Payload.length_frame (p : Payload) : p.frame.length = headLength + p.content.length := by
  rw [frame, pack, List.length_append]
  rfl

lemma Payload.split_frame {p : Payload} {y rest : List UInt8} (hp : y <+: p.frame ++ rest)
    (hy : headLength < y.length) :
    ∃ z, z <+: p.content ++ rest ∧
      y = 0x00 :: ((delimiter.drop 1).take 6 ++ 0x00 :: (htonl p.content.length ++ z)) := by
  have hhead : p.frame ++ rest = delimiter ++ htonl p.content.length ++ (p.content ++ rest) := by
    rw [frame, pack, List.append_assoc]
  have hlen : (delimiter ++ htonl p.content.length).length = headLength := rfl
  rw [hhead] at hp
  obtain ⟨z, rfl⟩ : delimiter ++ htonl p.content.length <+: y :=
    List.prefix_of_prefix_length_le (List.prefix_append _ _) hp (by omega)
  exact ⟨z, (List.prefix_append_right_inj _).mp hp, by simp [delimiter]⟩

lemma scan_frame (fuel : ℕ) (junk : List UInt8) {x y rest : List UInt8} {p : Payload} (hfree : Free x y) (hy : headLength < y.length)
    (hp : y <+: p.frame ++ rest) :
    scan (fuel + 8 + x.length) (searching 0 (x ++ y).length 0 (x ++ y ++ junk)) =
      if p.frame.length ≤ y.length then some (((x.length + p.frame.length : ℕ) : ℤ), some p.content)
      else some ((x.length : ℤ), none) := by
  obtain ⟨j, hj, hm, heq⟩ := scan_garbage (fuel + 1 + 6 + 1) junk (u := []) (k := 0) hfree (by omega)
    List.nil_suffix hy
  rw [List.nil_append] at hm heq
  obtain ⟨z, hz, hyz⟩ := p.split_frame hp hy
  have hfree' : Free (x ++ []) y := by rwa [List.append_nil]
  have hn := hfree'.next_lt hj hm hyz
  have hylen : y.length = headLength + z.length := by
    rw [hyz]
    simp [delimiter, htonl, headLength, comMsgLength]
    omega
  have hflen := p.length_frame
  have hmem : y ++ junk = 0x00 :: ((delimiter.drop 1).take 6 ++ 0x00 :: (htonl p.content.length ++ (z ++ junk))) := by
    rw [hyz]
    simp
  have hguard : (headLength : ℤ) < y.length := by omega
  have hL : (y.length : ℤ) - 1 - (6 : ℕ) - 5 = z.length := by
    rw [hylen, headLength, comMsgLength]
    push_cast
    omega
  have hr : (x.length : ℤ) + 1 + (6 : ℕ) + 5 = x.length + headLength := by
    rw [headLength, comMsgLength]
    push_cast
    omega
  rw [List.length_nil, Nat.cast_zero] at heq
  rw [show fuel + 8 = fuel + 1 + 6 + 1 from rfl, heq, hmem, scan_step hj hn (by omega), next_zero hj hn]
  change scan (fuel + 1 + 6) _ = _
  rw [scan_along (by omega) (by omega), scan_found p.pos p.fits (by omega), hL, hr]
  by_cases hle : p.content.length ≤ z.length
  · have htake : (z ++ junk).take p.content.length = p.content := by
      obtain ⟨w, hw⟩ := hz
      have hzw : (z ++ w).take p.content.length = z.take p.content.length := List.take_append_of_le_length hle
      rw [List.take_append_of_le_length hle, ← hzw, hw, List.take_left]
    rw [if_neg (by omega), if_neg (by rw [List.length_append]; omega), if_pos (by omega), htake, hflen]
    push_cast
    rw [Int.add_assoc]
  · rw [if_pos (by omega), if_neg (by omega), Int.add_sub_cancel]

end Xframe.Comserv.CSocket
