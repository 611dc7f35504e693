import Xframe.Comserv.SocketRoundTrip

/-! `_readFromBuff` on arbitrary bytes: what it returns and fills as long as the first header in the
buffer has a valid length, and what an invalid length does to the call and to the frames behind it. -/

namespace Xframe.Comserv.CSocket

open Xframe.Lib

def Valid (ℓ : List UInt8) : Prop := 0 < ntohl ℓ ∧ ntohl ℓ ≤ socketCodeMaxLength

def Framed (c content : List UInt8) : Prop :=
  ∃ x ℓ y, c = x ++ delimiter ++ ℓ ++ content ++ y ∧ ℓ.length = comMsgLength ∧ ntohl ℓ = content.length

def Reads (c : List UInt8) (ret : ℤ) (filled : Option (List UInt8)) : Prop :=
  ∀ junk n old, readFromBuff c.length (some old) (c ++ junk) n = (ret, some (filled.getD old))

def Robust (c : List UInt8) : Prop :=
  ∃ ret filled, Reads c ret filled ∧ 0 ≤ ret ∧ ret ≤ c.length ∧ ∀ content, filled = some content → Framed c content

def HeadersOk (c : List UInt8) : Prop :=
  ∀ x ℓ y, y ≠ [] → c = x ++ delimiter ++ ℓ ++ y → ℓ.length = comMsgLength → Free x delimiter → Valid ℓ

/-- The frames `ps` behind a header with the length field `ℓ` have been received, in order, when all that was
delivered is consumed as far as possible. -/
def Survive (ℓ : List UInt8) (ps : List Payload) : Prop :=
  ∀ memcpy, TBuffer.Conforms memcpy → ∀ x reads es i, Free x delimiter → Chunks reads →
    delivers reads = x ++ delimiter ++ ℓ ++ frames ps → Run (Incoming.MoveStep memcpy) (Incoming.start reads) es i →
      i.Idle → (ps.map Payload.content).Sublist (received es)

variable {k fuel : ℕ} {L r : ℤ} {c : UInt8} {u v x y z ℓ : List UInt8}

lemma Free.append (h : Free x delimiter) (z : List UInt8) : Free x (delimiter ++ z) := by
  intro j hj hp
  refine h j hj ?_
  rw [← List.append_assoc, List.drop_append_of_le_length (by rw [List.length_append]; omega)] at hp
  refine List.prefix_of_prefix_length_le hp (List.prefix_append _ _) ?_
  rw [List.length_drop, List.length_append]
  omega

lemma Free.le {x' z' : List UInt8} (h : Free x delimiter) (heq : x ++ (delimiter ++ z) = x' ++ (delimiter ++ z')) :
    x.length ≤ x'.length := by
  by_contra hlt
  refine h.append z x'.length (by omega) ?_
  rw [heq, List.drop_left]
  exact List.prefix_append _ _

section Automaton

lemma next_borders : ∀ k < 8, ∀ i ≤ k, delimiter.take i <:+ delimiter.take k →
    ∀ c ∈ delimiter[i]?, i + 1 ≤ next k c := by
  decide +kernel

structure Longest (k : ℕ) (u : List UInt8) : Prop where
  suffix : delimiter.take k <:+ u
  max : ∀ j ≤ 8, delimiter.take j <:+ u → j ≤ k

lemma Longest.nil : Longest 0 [] := by
  refine ⟨List.nil_suffix, fun j hj h => ?_⟩
  have hlen := h.length_le
  have h8 : delimiter.length = 8 := rfl
  rw [List.length_take, List.length_nil] at hlen
  omega

lemma Longest.next (h : Longest k u) (hk : k < 8) (c : UInt8) : Longest (next k c) (u ++ [c]) := by
  refine ⟨next_suffix h.suffix c, fun j hj hs => ?_⟩
  cases j with
  | zero => exact Nat.zero_le _
  | succ i =>
    have hi : i < delimiter.length := hj
    rw [List.take_add_one, List.getElem?_eq_getElem hi, Option.toList_some] at hs
    obtain ⟨w, hw⟩ := hs
    rw [← List.append_assoc] at hw
    obtain ⟨hwu, hc⟩ := List.append_inj' hw rfl
    have hsu : delimiter.take i <:+ u := ⟨w, hwu⟩
    have hik := h.max i (by omega) hsu
    refine next_borders k hk i hik ?_ c ?_
    · refine List.suffix_of_suffix_length_le hsu h.suffix ?_
      rw [List.length_take, List.length_take]
      omega
    · rw [List.getElem?_eq_getElem hi, Option.mem_some_iff]
      exact List.singleton_inj.mp hc

def Clear (u : List UInt8) : Prop := ∀ w, ¬w ++ delimiter <+: u

lemma Clear.next (h : Clear u) (hl : Longest k u) (hk : k < 8) (hn : next k c < 8) : Clear (u ++ [c]) := by
  intro w hw
  rcases List.prefix_concat_iff.mp hw with heq | hp
  · have h8 := (hl.next hk c).max 8 le_rfl ⟨w, heq⟩
    omega
  · exact h w hp

lemma Clear.free (h : Clear u) (hu : u ++ [c] = x ++ delimiter) : Free x delimiter := by
  intro j hj hp
  have hlen : u.length + 1 = x.length + 8 := by
    have := congrArg List.length hu
    rwa [List.length_append, List.length_append] at this
  have hxj : (x ++ delimiter).take j ++ delimiter <+: x ++ delimiter := by
    have := (List.prefix_append_right_inj ((x ++ delimiter).take j)).mpr hp
    rwa [List.take_append_drop] at this
  refine h ((x ++ delimiter).take j) (List.prefix_of_prefix_length_le hxj ⟨[c], hu⟩ ?_)
  have h8 : delimiter.length = 8 := rfl
  rw [List.length_append, List.length_take, List.length_append]
  omega

end Automaton

lemma scan_header (hfree : Free x delimiter) (hℓ : ℓ.length = comMsgLength) (hy : y ≠ []) (junk : List UInt8) :
    scan (fuel + 8 + x.length) (searching 0 (x ++ (delimiter ++ ℓ ++ y)).length 0 (x ++ (delimiter ++ ℓ ++ y) ++ junk)) =
      measured fuel y.length (x.length + headLength) ℓ (y ++ junk) := by
  have hpos := List.length_pos_iff.mpr hy
  have hsplit : delimiter ++ ℓ ++ y = 0x00 :: ((delimiter.drop 1).take 6 ++ 0x00 :: (ℓ ++ y)) := by simp [delimiter]
  have hhead : headLength = 12 := rfl
  have hylen : (delimiter ++ ℓ ++ y).length = 12 + y.length := by
    rw [List.length_append, List.length_append, hℓ]
    rfl
  have hfree' : Free x (delimiter ++ ℓ ++ y) := by
    rw [List.append_assoc]
    exact hfree.append _
  obtain ⟨j, hj, hm, heq⟩ := scan_garbage (fuel + 1 + 6 + 1) junk (u := []) (k := 0) hfree' (by omega)
    List.nil_suffix (by omega)
  rw [List.nil_append] at hm heq
  have hn := Free.next_lt (z := []) (by rwa [List.append_nil]) hj hm hsplit
  have hmem : delimiter ++ ℓ ++ y ++ junk = 0x00 :: ((delimiter.drop 1).take 6 ++ 0x00 :: (ℓ ++ (y ++ junk))) := by
    rw [hsplit]
    simp
  rw [List.length_nil, Nat.cast_zero] at heq
  rw [show fuel + 8 = fuel + 1 + 6 + 1 from rfl, heq, hmem, scan_step hj hn (by omega), next_zero hj hn]
  change scan (fuel + 1 + 6) _ = _
  rw [scan_along (by omega) (by omega), searching, scan_measured (b := 5) rfl (by omega) hℓ]
  congr 1
  omega

lemma scan_exits (hl : Longest k u) (hk : k < 8) (hexit : v.length + k ≤ headLength) :
    ∃ d : ℕ, d ≤ (u ++ v).length ∧
      ∀ junk, scan ((v ++ junk).length + 1) (searching k v.length u.length (v ++ junk)) = some ((d : ℤ), none) := by
  refine ⟨u.length - k, by rw [List.length_append]; omega, fun junk => ?_⟩
  rw [scan_exit (by omega), Nat.cast_sub (le_of_suffix hk hl.suffix)]

lemma scan_first (hl : Longest k u) (hc : Clear u) (hk : k < 8) :
    (∃ d : ℕ, d ≤ (u ++ v).length ∧
      ∀ junk, scan ((v ++ junk).length + 1) (searching k v.length u.length (v ++ junk)) = some ((d : ℤ), none)) ∨
    ∃ x ℓ y, u ++ v = x ++ delimiter ++ ℓ ++ y ∧ ℓ.length = comMsgLength ∧ y ≠ [] ∧ Free x delimiter := by
  have hhead : headLength = 8 + comMsgLength := rfl
  induction v generalizing u k with
  | nil =>
    refine .inl (scan_exits hl hk ?_)
    rw [List.length_nil]
    omega
  | cons c v ih =>
    by_cases hexit : (c :: v).length + k ≤ headLength
    · exact .inl (scan_exits hl hk hexit)
    by_cases hn : next k c < 8
    · have hu : u ++ c :: v = u ++ [c] ++ v := by simp
      rw [hu]
      refine (ih (hl.next hk c) (hc.next hl hk hn) hn).imp ?_ id
      rintro ⟨d, hd, heq⟩
      refine ⟨d, hd, fun junk => ?_⟩
      rw [← heq junk, List.cons_append, List.length_cons, scan_step hk hn (by omega)]
      congr 2
      · simp
      · simp
    · -- the delimiter is complete, and more than a length field follows
      obtain ⟨h8, h7⟩ : next k c = 8 ∧ k = 7 := by
        revert hn
        rw [next]
        split_ifs <;> omega
      obtain ⟨x, hx⟩ : delimiter <:+ u ++ [c] := by
        have := next_suffix hl.suffix c
        rwa [h8] at this
      have hlen : comMsgLength < v.length := by
        rw [List.length_cons] at hexit
        omega
      refine .inr ⟨x, v.take comMsgLength, v.drop comMsgLength, ?_, by rw [List.length_take]; omega, ?_, hc.free hx.symm⟩
      · rw [List.append_assoc, List.take_append_drop, hx, List.append_assoc]
        rfl
      · rw [← List.length_pos_iff, List.length_drop]
        omega

lemma reads_iff (c : List UInt8) (ret : ℤ) (filled : Option (List UInt8)) : Reads c ret filled ↔
    ∀ junk, scan ((c ++ junk).length + 1) (searching 0 c.length 0 (c ++ junk)) = some (ret, filled) := by
  have hq : ∀ junk, (⟨.wait, headLength, c.length, 0, c ++ junk⟩ : Scan) = searching 0 c.length 0 (c ++ junk) := by
    intro junk
    simp [searching, stateAt]
  simp only [Reads, readFromBuff, hq]
  constructor
  · intro h junk
    have h1 := h junk 0 []
    have h2 := h junk 0 [0]
    revert h1 h2
    rcases scan ((c ++ junk).length + 1) (searching 0 c.length 0 (c ++ junk)) with _ | ⟨ret', _ | content⟩ <;>
      rcases filled with _ | content' <;> simp +contextual
  · intro h junk n old
    rw [h junk]
    cases filled with
    | none => rfl
    | some content => rfl

lemma reads_header (hfree : Free x delimiter) (hℓ : ℓ.length = comMsgLength) (hy : y ≠ []) (ret : ℤ)
    (filled : Option (List UInt8)) : Reads (x ++ delimiter ++ ℓ ++ y) ret filled ↔
      ∀ junk : List UInt8, measured (y.length + junk.length + 5) y.length (x.length + headLength) ℓ (y ++ junk) =
        some (ret, filled) := by
  have hc : x ++ delimiter ++ ℓ ++ y = x ++ (delimiter ++ ℓ ++ y) := by simp
  have hfuel : ∀ junk : List UInt8, (x ++ (delimiter ++ ℓ ++ y) ++ junk).length + 1 =
      y.length + junk.length + 5 + 8 + x.length := by
    intro junk
    have h8 : delimiter.length = 8 := rfl
    have h4 : comMsgLength = 4 := rfl
    simp only [List.length_append]
    omega
  rw [hc, reads_iff]
  refine forall_congr' fun junk => ?_
  rw [hfuel, scan_header hfree hℓ hy]

lemma measured_valid (hv : Valid ℓ) (n : ℕ) (y junk : List UInt8) :
    measured fuel y.length (n + headLength) ℓ (y ++ junk) =
      if y.length < ntohl ℓ then some ((n : ℤ), none)
      else some (n + headLength + ntohl ℓ, some (y.take (ntohl ℓ).toNat)) := by
  obtain ⟨h0, hmax⟩ := hv
  rw [measured, if_pos h0, if_neg (by omega), Int.add_sub_cancel]
  split_ifs with hshort hjunk
  · rfl
  · rw [List.length_append] at hjunk
    omega
  · rw [List.take_append_of_le_length (by omega)]

lemma HeadersOk.of_valid (hfree : Free x delimiter) (hℓ : ℓ.length = comMsgLength) (hv : Valid ℓ) :
    HeadersOk (x ++ delimiter ++ ℓ ++ y) := by
  rintro x' ℓ' y' - heq hℓ' hfree'
  simp only [List.append_assoc] at heq
  obtain ⟨rfl, hrest⟩ := List.append_inj heq (Nat.le_antisymm (hfree.le heq) (hfree'.le heq.symm))
  rw [List.append_cancel_left_eq] at hrest
  obtain ⟨rfl, -⟩ := List.append_inj hrest (by rw [hℓ, hℓ'])
  exact hv

theorem HeadersOk.robust {c : List UInt8} (h : HeadersOk c) : Robust c := by
  have hclear : Clear [] := fun w hw => by simp [delimiter] at hw
  rcases scan_first (v := c) Longest.nil hclear (by omega) with ⟨d, hd, heq⟩ | ⟨x, ℓ, y, hc, hℓ, hy, hfree⟩
  · exact ⟨d, none, (reads_iff c d none).mpr heq, by omega, by exact_mod_cast hd, by simp⟩
  · rw [List.nil_append] at hc
    have hv := h x ℓ y hy hc hℓ hfree
    have hlen : c.length = x.length + headLength + y.length := by
      rw [hc, List.length_append, List.length_append, List.length_append, hℓ]
      rfl
    have hpos := hv.1
    rw [hc, Robust]
    by_cases hshort : y.length < ntohl ℓ
    · refine ⟨x.length, none, (reads_header hfree hℓ hy _ _).mpr fun junk => ?_, by omega, by rw [← hc]; omega, by simp⟩
      rw [measured_valid hv, if_pos hshort]
    · refine ⟨x.length + headLength + ntohl ℓ, some (y.take (ntohl ℓ).toNat),
        (reads_header hfree hℓ hy _ _).mpr fun junk => ?_, ?_, ?_, ?_⟩
      · rw [measured_valid hv, if_neg hshort]
      · omega
      · rw [← hc]
        omega
      · rintro content ⟨⟩
        refine ⟨x, ℓ, y.drop (ntohl ℓ).toNat, ?_, hℓ, ?_⟩
        · rw [List.append_assoc _ (y.take _), List.take_append_drop]
        · rw [List.length_take]
          omega

lemma Reads.unique {c : List UInt8} {ret ret' : ℤ} {filled filled' : Option (List UInt8)} (h : Reads c ret filled)
    (h' : Reads c ret' filled') : ret = ret' ∧ filled = filled' := by
  have hs := (reads_iff c ret filled).mp h []
  rw [(reads_iff c ret' filled').mp h' []] at hs
  obtain ⟨rfl, rfl⟩ : ret' = ret ∧ filled' = filled := by simpa using hs
  exact ⟨rfl, rfl⟩

def Takes (ℓ y content : List UInt8) : Prop :=
  ∀ r (junk : List UInt8), measured (y.length + junk.length + 5) y.length r ℓ (y ++ junk) =
    some (r + y.length, some content)

lemma Takes.reads {content : List UInt8} (h : Takes ℓ y content) (hfree : Free x delimiter) (hℓ : ℓ.length = comMsgLength)
    (hy : y ≠ []) : Reads (x ++ delimiter ++ ℓ ++ y) (x ++ delimiter ++ ℓ ++ y).length (some content) := by
  refine (reads_header hfree hℓ hy _ _).mpr fun junk => ?_
  rw [h]
  simp only [List.length_append, hℓ]
  push_cast
  rfl

lemma Takes.not_robust {content : List UInt8} (h : Takes ℓ y content) (hfree : Free x delimiter)
    (hℓ : ℓ.length = comMsgLength) (hy : y ≠ []) (hnot : ¬Framed (x ++ delimiter ++ ℓ ++ y) content) :
    ¬Robust (x ++ delimiter ++ ℓ ++ y) := by
  rintro ⟨ret, filled, hr, -, -, hframed⟩
  obtain ⟨-, rfl⟩ := (h.reads hfree hℓ hy).unique hr
  exact hnot (hframed content rfl)

def Overruns (ℓ y : List UInt8) : Prop :=
  ∀ r ret filled, measured (y.length + 5) y.length r ℓ y = some (ret, filled) → r + y.length < ret

lemma Overruns.not_robust (h : Overruns ℓ y) (hfree : Free x delimiter) (hℓ : ℓ.length = comMsgLength) (hy : y ≠ []) :
    ¬Robust (x ++ delimiter ++ ℓ ++ y) := by
  rintro ⟨ret, filled, hr, -, hle, -⟩
  have hm := (reads_header hfree hℓ hy _ _).mp hr []
  rw [List.length_nil, Nat.add_zero, List.append_nil] at hm
  have hlt := h _ ret filled hm
  rw [List.length_append, List.length_append, List.length_append, hℓ] at hle
  have hhead : headLength = delimiter.length + comMsgLength := rfl
  omega

def Payload.ones (n : ℕ) (h : 0 < n) (hn : n ≤ socketCodeMaxLength) : Payload :=
  ⟨List.replicate n 1, by rwa [List.length_replicate], by rwa [List.length_replicate]⟩

def three : Payload := ⟨[1, 2, 3], by decide, by decide⟩

def sixteen : Payload := .ones 16 (by decide) (by decide)

lemma measured_large (hv : socketCodeMaxLength < ntohl ℓ) (m : List UInt8) :
    measured fuel L r ℓ m = scan fuel ⟨.found, headLength, L, r, m⟩ := by
  rw [measured, if_pos (by omega), if_pos hv]

lemma scan_shift (fuel : ℕ) (q : Scan) (n : ℤ) :
    scan fuel { q with ret := n + q.ret } = (scan fuel q).map (fun o => (n + o.1, o.2)) := by
  induction fuel generalizing q with
  | zero => rfl
  | succ fuel ih =>
    obtain ⟨state, a, L, r, m⟩ := q
    have hih : ∀ state a L r m, scan fuel ⟨state, a, L, n + r, m⟩ =
        (scan fuel ⟨state, a, L, r, m⟩).map (fun o => (n + o.1, o.2)) := fun state a L r m => ih ⟨state, a, L, r, m⟩
    rw [scan, scan]
    dsimp only
    split_ifs
    · cases m with
      | nil => rfl
      | cons c m =>
        dsimp only
        simp only [Int.add_assoc, hih]
        split_ifs <;> simp [Int.add_sub_assoc]
    · simp [Int.add_sub_assoc]

lemma overruns_large (hv : socketCodeMaxLength < ntohl ℓ) : Overruns ℓ three.frame := by
  intro r ret filled h
  have hrun : scan 20 ⟨.found, headLength, 15, 0, three.frame⟩ = some (23, none) := by decide
  rw [measured_large hv] at h
  have hs := scan_shift 20 ⟨.found, headLength, 15, 0, three.frame⟩ r
  rw [hrun, Int.add_zero] at hs
  obtain ⟨rfl, rfl⟩ : r + 23 = ret ∧ none = filled := by simpa using hs.symm.trans h
  change r + (15 : ℕ) < r + 23
  omega

section Slide

variable {a b d e : UInt8} {content : List UInt8}

lemma measured_slide (hv : ntohl [a, b, d, e] ≤ 0) (hL : ntohl [a, b, d, e] < L) (m : List UInt8) :
    measured (fuel + 1) L r [a, b, d, e] (c :: m) = measured fuel (L - 5) (r + 5) [b, d, e, c] m := by
  rw [measured, if_neg (by omega)]
  exact scan_measured (w := [b, d, e, c]) rfl hL rfl

lemma ntohl_low (b d e : UInt8) : 256 ∣ ntohl [b, d, e, 0] := by
  simp only [ntohl, List.foldl_cons, List.foldl_nil, UInt8.toNat_zero]
  split_ifs <;> omega

lemma ntohl_high (h : ntohl [b, d, e, 0] ≤ socketCodeMaxLength) (h0 : 0 ≤ ntohl [b, d, e, 0]) : b = 0 := by
  have hd := UInt8.toNat_lt d
  have he := UInt8.toNat_lt e
  have hb := UInt8.toNat_lt b
  rw [socketCodeMaxLength] at h
  simp only [ntohl, List.foldl_cons, List.foldl_nil, UInt8.toNat_zero] at h h0
  refine UInt8.toNat_inj.mp ?_
  rw [UInt8.toNat_zero]
  split_ifs at h h0 <;> omega

lemma ntohl_eq_zero (h : ntohl [b, d, e, 0] = 0) : d = 0 ∧ e = 0 := by
  have hb := UInt8.toNat_lt b
  have hd := UInt8.toNat_lt d
  have he := UInt8.toNat_lt e
  simp only [ntohl, List.foldl_cons, List.foldl_nil, UInt8.toNat_zero] at h
  refine ⟨UInt8.toNat_inj.mp ?_, UInt8.toNat_inj.mp ?_⟩
  · rw [UInt8.toNat_zero]
    split_ifs at h <;> omega
  · rw [UInt8.toNat_zero]
    split_ifs at h <;> omega

lemma not_framed (hfree : Free x delimiter) (hv : ntohl [a, 0, d, e] ≤ 0) (hpos : 0 < content.length)
    (hlen : y.length ≤ content.length + 5 ∨ d = 0 ∧ e = 0 ∧ y.length ≤ content.length + 10) :
    ¬Framed (x ++ delimiter ++ [a, 0, d, e] ++ y) content := by
  rintro ⟨x', ℓ', y', heq, hℓ', hn⟩
  have hassoc : x ++ (delimiter ++ ([a, 0, d, e] ++ y)) = x' ++ (delimiter ++ (ℓ' ++ (content ++ y'))) := by simpa using heq
  have hx := hfree.le hassoc
  rw [← List.append_assoc delimiter] at hassoc
  obtain ⟨t, rfl⟩ : x <+: x' := List.prefix_of_prefix_length_le (List.prefix_append _ _) ⟨_, hassoc.symm⟩ hx
  rw [List.append_assoc x t, List.append_cancel_left_eq] at hassoc
  have hsum := congrArg List.length hassoc
  have h8 : delimiter.length = 8 := rfl
  simp only [List.length_append, h8, hℓ', comMsgLength, List.length_cons, List.length_nil] at hsum
  have hp : delimiter <+: (delimiter ++ [a, 0, d, e] ++ y).drop t.length := by
    rw [hassoc, List.drop_left]
    exact List.prefix_append _ _
  obtain ⟨i, hi⟩ : ∃ i, t.length = i := ⟨_, rfl⟩
  rw [hi] at hp
  rcases Nat.eq_zero_or_pos i with h0 | hi0
  · obtain rfl : t = [] := List.eq_nil_of_length_eq_zero (by omega)
    have hℓ : [a, 0, d, e] = ℓ' := by
      rw [List.nil_append, List.append_assoc, List.append_cancel_left_eq] at hassoc
      exact (List.append_inj hassoc (by rw [hℓ']; rfl)).1
    rw [← hℓ] at hn
    omega
  · by_cases hi8 : i ≤ 8
    · interval_cases i <;> simp [delimiter] at hp
    · obtain ⟨rfl, rfl, -⟩ : d = 0 ∧ e = 0 ∧ y.length ≤ content.length + 10 := by
        rcases hlen with h | h
        · omega
        · exact h
      have hi10 : i ≤ 10 := by omega
      interval_cases i <;> simp [delimiter] at hp

def window (k : ℕ) : List UInt8 := (three.frame.drop (8 - k)).take comMsgLength

lemma window_slides : ∀ k < 7, ∃ a b d e c, window (k + 1) = [a, b, d, e] ∧ window k = [b, d, e, c] ∧
    three.frame.drop (12 - (k + 1)) = c :: three.frame.drop (12 - k) ∧ ntohl [a, b, d, e] ≤ 0 ∧
    ntohl [a, b, d, e] < 3 + 5 * (k + 1 : ℕ) := by
  intro k hk
  interval_cases k <;> exact ⟨_, _, _, _, _, rfl, rfl, rfl, by decide, by decide⟩

lemma measured_window (m : List UInt8) {k : ℕ} (hk : k ≤ 7) :
    measured (fuel + k) (3 + 5 * k) r (window k) (three.frame.drop (12 - k) ++ m) =
      some (r + 3 + 5 * k, some three.content) := by
  induction k generalizing r with
  | zero =>
    have hn : ntohl (window 0) = 3 := by decide
    have hlen : ¬((three.frame.drop 12 ++ m).length : ℤ) < 3 := by
      rw [List.length_append, show (three.frame.drop 12).length = 3 from rfl]
      omega
    rw [measured, hn, if_pos (by decide), if_neg (by decide), if_neg (by decide), if_neg hlen, Nat.cast_zero,
      Int.mul_zero, Int.add_zero]
    rfl
  | succ k ih =>
    obtain ⟨a, b, d, e, c, hw, hw', hdrop, h0, hL⟩ := window_slides k (by omega)
    have hL' : (3 + 5 * (k + 1 : ℕ) - 5 : ℤ) = 3 + 5 * k := by omega
    have hr' : r + 5 + 3 + 5 * (k : ℤ) = r + 3 + 5 * (k + 1 : ℕ) := by omega
    rw [hw, hdrop, List.cons_append, ← Nat.add_assoc, measured_slide h0 hL, ← hw', hL', ih (by omega), hr']

def Resumes (k : ℕ) (w : List UInt8) : Prop :=
  ∀ n r m, measured (n + k + 1) (8 + 5 * k) r w ((three.frame ++ m).drop (7 - k)) =
    some (r + (8 + 5 * k), some three.content)

lemma Resumes.of_large {k : ℕ} {w : List UInt8} (hv : socketCodeMaxLength < ntohl w) (h1 : 1 ≤ k) (hk : k ≤ 7) :
    Resumes k w := by
  intro n r m
  obtain ⟨c, hc, hw⟩ : ∃ c, three.frame.drop (7 - k) = c :: (window k ++ three.frame.drop (12 - k)) ∧
      (window k).length = comMsgLength := by
    interval_cases k <;> exact ⟨_, rfl, rfl⟩
  have hhead : (headLength : ℤ) < 8 + 5 * k := by
    rw [headLength, comMsgLength]
    omega
  have hL : (8 + 5 * k - 5 : ℤ) = 3 + 5 * k := by omega
  have hr : r + 5 + 3 + 5 * (k : ℤ) = r + (8 + 5 * k) := by omega
  rw [measured_large hv, List.drop_append_of_le_length (by change _ ≤ 15; omega), hc, List.cons_append, List.append_assoc,
    scan_measured (b := headLength) rfl hhead hw, hL, measured_window m hk, hr]

lemma Resumes.slide {k : ℕ} (h : Resumes k [b, d, e, c]) (hv : ntohl [a, b, d, e] ≤ 0) (hk : k < 7)
    (hc : three.frame[6 - k]? = some c) : Resumes (k + 1) [a, b, d, e] := by
  intro n r m
  obtain ⟨hlt, hget⟩ := List.getElem?_eq_some_iff.mp hc
  have hdrop : (three.frame ++ m).drop (6 - k) = c :: (three.frame ++ m).drop (7 - k) := by
    rw [List.drop_eq_getElem_cons (by rw [List.length_append]; omega), List.getElem_append_left hlt, hget,
      show 6 - k + 1 = 7 - k by omega]
  have hL : (8 + 5 * (k + 1 : ℕ) - 5 : ℤ) = 8 + 5 * k := by omega
  have hr : r + 5 + (8 + 5 * (k : ℤ)) = r + (8 + 5 * (k + 1 : ℕ)) := by omega
  rw [show 7 - (k + 1) = 6 - k by omega, hdrop, show n + (k + 1) + 1 = n + k + 1 + 1 by omega,
    measured_slide hv (by omega), hL, h, hr]

lemma Resumes.takes (h : Resumes 7 ℓ) : Takes ℓ (frames [three, sixteen]) three.content := by
  intro r junk
  have hlen : (frames [three, sixteen]).length = 43 := by decide
  have hfuel : 43 + junk.length + 5 = junk.length + 40 + 7 + 1 := by omega
  have hmem : frames [three, sixteen] ++ junk = three.frame ++ (sixteen.frame ++ junk) := by
    rw [frames_cons, frames_cons, frames, List.map_nil, List.flatten_nil, List.append_nil, List.append_assoc]
  rw [hlen, hfuel, hmem]
  exact h _ r _

lemma takes_large (hv : socketCodeMaxLength < ntohl ℓ) : Takes ℓ (frames [three, sixteen]) three.content :=
  (Resumes.of_large hv (by decide) le_rfl).takes

lemma takes_slid (hv : ntohl [a, b, d, e] ≤ 0) (h : socketCodeMaxLength < ntohl [b, d, e, 0] ∨
    ntohl [b, d, e, 0] ≤ 0 ∧ (socketCodeMaxLength < ntohl [d, e, 0, 0xff] ∨ ntohl [d, e, 0, 0xff] ≤ 0)) :
    Takes [a, b, d, e] (frames [three, sixteen]) three.content := by
  have h3 : socketCodeMaxLength < ntohl [e, 0, 0xff, 0xff] ∨ ntohl [e, 0, 0xff, 0xff] ≤ 0 := by
    simp only [ntohl, socketCodeMaxLength, List.foldl_cons, List.foldl_nil, show UInt8.toNat 0xff = 255 from rfl]
    split_ifs <;> omega
  have hlast : Resumes 3 [0, 0xff, 0xff, 0xff] := .of_large (by decide) (by decide) (by decide)
  have hthird : Resumes 4 [e, 0, 0xff, 0xff] :=
    h3.elim (fun h => .of_large h (by decide) (by decide)) fun h => hlast.slide h (by decide) rfl
  have hfirst : Resumes 6 [b, d, e, 0] := by
    rcases h with h1 | ⟨h1, h2⟩
    · exact .of_large h1 (by decide) (by decide)
    · have hsecond : Resumes 5 [d, e, 0, 0xff] :=
        h2.elim (fun h => .of_large h (by decide) (by decide)) fun h => hthird.slide h (by decide) rfl
      exact hsecond.slide h1 (by decide) rfl
  exact (hfirst.slide hv (by decide) rfl).takes

lemma overruns_one (hv : ntohl [a, b, d, e] ≤ 0)
    (hw : ntohl [b, d, e, 0] < 0 ∨ socketCodeMaxLength < ntohl [b, d, e, 0]) : Overruns [a, b, d, e] [0x00] := by
  intro r ret filled h
  have hlow := ntohl_low b d e
  change measured (5 + 1) (1 : ℕ) _ _ _ = _ at h
  rw [measured_slide hv (by omega), measured] at h
  rcases hw with hneg | hmax
  · -- the length field is read past the last byte of the memory
    rw [if_neg (by omega)] at h
    change scan (4 + 1) ⟨.found, _, _, _, [b, d, e, 0]⟩ = _ at h
    rw [scan, if_pos (by dsimp only; omega)] at h
    simp [scanByte, comMsgLength] at h
  · rw [if_pos (by omega), if_pos hmax, scan, if_neg (by dsimp only; rw [headLength]; omega)] at h
    obtain ⟨rfl, rfl⟩ : r + 5 = ret ∧ none = filled := by simpa using h
    rw [List.length_singleton]
    omega

lemma ntohl_ones (h0 : 0 < ntohl [d, e, 0, 0xff]) (hmax : ntohl [d, e, 0, 0xff] ≤ socketCodeMaxLength) : d = 0 ∧ e = 0 := by
  have hd := UInt8.toNat_lt d
  have he := UInt8.toNat_lt e
  rw [socketCodeMaxLength] at hmax
  simp only [ntohl, List.foldl_cons, List.foldl_nil, show UInt8.toNat 0xff = 255 from rfl, UInt8.toNat_zero] at h0 hmax
  refine ⟨UInt8.toNat_inj.mp ?_, UInt8.toNat_inj.mp ?_⟩
  · rw [UInt8.toNat_zero]
    split_ifs at h0 hmax <;> omega
  · rw [UInt8.toNat_zero]
    split_ifs at h0 hmax <;> omega

lemma exists_takes_rest (hv : ntohl [a, 0, d, e] ≤ 0) (h0 : 0 < ntohl [0, d, e, 0])
    (hmax : ntohl [0, d, e, 0] ≤ socketCodeMaxLength) :
    ∃ p : Payload, ∃ content, Takes [a, 0, d, e] p.frame content ∧ p.content.length < content.length ∧
      p.frame.length = content.length + 5 := by
  have hlow := ntohl_low 0 d e
  obtain ⟨n, hn⟩ : ∃ n : ℕ, ntohl [0, d, e, 0] = (n + 7 : ℕ) := ⟨(ntohl [0, d, e, 0]).toNat - 7, by omega⟩
  rw [hn] at hlow h0 hmax
  obtain ⟨p, hp⟩ : ∃ p : Payload, p.content.length = n :=
    ⟨Payload.ones n (by omega) (by omega), List.length_replicate⟩
  have hlen : p.frame.length = 12 + n := by rw [p.length_frame, hp]; rfl
  obtain ⟨m, hm⟩ : ∃ m, p.frame = 0x00 :: m := ⟨_, rfl⟩
  have hmlen : m.length = n + 11 := by
    rw [hm, List.length_cons] at hlen
    omega
  have htake : (m.take (n + 7)).length = n + 7 := by rw [List.length_take]; omega
  refine ⟨p, m.take (n + 7), fun r junk => ?_, by omega, by omega⟩
  rw [hm, List.length_cons, List.cons_append, show m.length + 1 + junk.length + 5 = m.length + junk.length + 5 + 1 by omega,
    measured_slide hv (by omega), measured, hn, if_pos (by omega), if_neg (by omega), if_neg (by omega),
    if_neg (by rw [List.length_append]; omega), Int.toNat_natCast, List.take_append_of_le_length (by omega)]
  congr 2
  omega

lemma exists_takes_zero (hv : ntohl [a, b, 0, 0] ≤ 0) (hb : ntohl [b, 0, 0, 0] ≤ 0) :
    ∃ p : Payload, ∃ content, Takes [a, b, 0, 0] p.frame content ∧ p.content.length < content.length ∧
      p.frame.length = content.length + 10 := by
  obtain ⟨p, hp⟩ : ∃ p : Payload, p.content.length = 253 :=
    ⟨Payload.ones 253 (by decide) (by decide), List.length_replicate⟩
  have hlen : p.frame.length = 265 := by rw [p.length_frame, hp]; rfl
  obtain ⟨m, hm⟩ : ∃ m, p.frame = 0x00 :: 0xff :: m := ⟨_, rfl⟩
  have hmlen : m.length = 263 := by
    rw [hm, List.length_cons, List.length_cons] at hlen
    omega
  have hn : ntohl [0, 0, 0, 0xff] = (255 : ℕ) := by decide
  have htake : (m.take 255).length = 255 := by rw [List.length_take]; omega
  refine ⟨p, m.take 255, fun r junk => ?_, by omega, by omega⟩
  rw [hm, List.length_cons, List.length_cons, List.cons_append, List.cons_append,
    show m.length + 1 + 1 + junk.length + 5 = m.length + junk.length + 5 + 1 + 1 by omega,
    measured_slide hv (by omega), measured_slide hb (by omega), measured, hn, if_pos (by decide), if_neg (by decide),
    if_neg (by omega), if_neg (by rw [List.length_append]; omega), Int.toNat_natCast,
    List.take_append_of_le_length (by omega)]
  have hr : r + 5 + 5 + ((255 : ℕ) : ℤ) = r + ((m.length + 1 + 1 : ℕ) : ℤ) := by omega
  rw [hr]

lemma Payload.frame_ne (p : Payload) : p.frame ≠ [] := List.ne_nil_of_length_pos (by rw [p.length_frame, headLength]; omega)

lemma exists_not_robust (hfree : Free x delimiter) (hℓ : ℓ.length = comMsgLength) (hv : ¬Valid ℓ) :
    ∃ y, ¬Robust (x ++ delimiter ++ ℓ ++ y) := by
  by_cases hmax : socketCodeMaxLength < ntohl ℓ
  · exact ⟨three.frame, (overruns_large hmax).not_robust hfree hℓ (by decide)⟩
  have h0 : ntohl ℓ ≤ 0 := by
    by_contra hpos
    exact hv ⟨by omega, by omega⟩
  obtain ⟨a, b, d, e, rfl⟩ := List.length_eq_four.mp hℓ
  by_cases hw : 0 ≤ ntohl [b, d, e, 0] ∧ ntohl [b, d, e, 0] ≤ socketCodeMaxLength
  · obtain rfl := ntohl_high hw.2 hw.1
    by_cases hz : ntohl [0, d, e, 0] = 0
    · obtain ⟨rfl, rfl⟩ := ntohl_eq_zero hz
      obtain ⟨p, content, h, hlt, hlen⟩ := exists_takes_zero h0 hz.le
      exact ⟨p.frame, h.not_robust hfree hℓ p.frame_ne (not_framed hfree h0 (by omega) (.inr ⟨rfl, rfl, hlen.le⟩))⟩
    · obtain ⟨p, content, h, hlt, hlen⟩ := exists_takes_rest h0 (by omega) hw.2
      exact ⟨p.frame, h.not_robust hfree hℓ p.frame_ne (not_framed hfree h0 (by omega) (.inl hlen.le))⟩
  · exact ⟨[0x00], (overruns_one h0 (by omega)).not_robust hfree hℓ (by decide)⟩

lemma two_not_one : ¬([three, sixteen].map Payload.content).Sublist [three.content] := by
  intro h
  have := h.length_le
  simp at this

lemma exists_takes (hℓ : ℓ.length = comMsgLength) (hv : ¬Valid ℓ) : ∃ ps : List Payload, ∃ content,
    Takes ℓ (frames ps) content ∧ 0 < content.length ∧ (frames ps).length + headLength ≤ maxMsgLength ∧
      ¬(ps.map Payload.content).Sublist [content] := by
  have hone : ∀ (p : Payload) (content : List UInt8), p.content.length < content.length →
      ¬([p].map Payload.content).Sublist [content] := by
    intro p content hlt h
    have := h.eq_of_length rfl
    rw [List.map_singleton, List.singleton_inj] at this
    rw [this] at hlt
    exact lt_irrefl _ hlt
  have hfit : ∀ p : Payload, (frames [p]).length + headLength ≤ maxMsgLength := by
    intro p
    have := p.fits
    rw [frames_cons, List.length_append, p.length_frame, show (frames []).length = 0 from rfl]
    rw [socketCodeMaxLength] at this
    rw [maxMsgLength, headLength, comMsgLength]
    omega
  have hframes : ∀ p : Payload, frames [p] = p.frame := by
    intro p
    rw [frames_cons, show frames [] = [] from rfl, List.append_nil]
  by_cases hmax : socketCodeMaxLength < ntohl ℓ
  · exact ⟨[three, sixteen], three.content, takes_large hmax, by decide, by decide, two_not_one⟩
  have h0 : ntohl ℓ ≤ 0 := by
    by_contra hpos
    exact hv ⟨by omega, by omega⟩
  obtain ⟨a, b, d, e, rfl⟩ := List.length_eq_four.mp hℓ
  by_cases h1 : 0 < ntohl [b, d, e, 0] ∧ ntohl [b, d, e, 0] ≤ socketCodeMaxLength
  · obtain rfl := ntohl_high h1.2 h1.1.le
    obtain ⟨p, content, h, hlt, -⟩ := exists_takes_rest h0 h1.1 h1.2
    exact ⟨[p], content, by rwa [hframes], by omega, hfit p, hone p content hlt⟩
  by_cases h2 : ntohl [b, d, e, 0] ≤ 0 ∧ 0 < ntohl [d, e, 0, 0xff] ∧ ntohl [d, e, 0, 0xff] ≤ socketCodeMaxLength
  · obtain ⟨rfl, rfl⟩ := ntohl_ones h2.2.1 h2.2.2
    obtain ⟨p, content, h, hlt, -⟩ := exists_takes_zero h0 h2.1
    exact ⟨[p], content, by rwa [hframes], by omega, hfit p, hone p content hlt⟩
  · exact ⟨[three, sixteen], three.content, takes_slid h0 (by omega), by decide, by decide, two_not_one⟩

end Slide

lemma exists_call {c content : List UInt8} (h : Reads c c.length (some content)) (hc : c ≠ []) (hlen : c.length ≤ maxMsgLength)
    (hpos : 0 < content.length) :
    ∃ i, Run (Incoming.MoveStep TBuffer.copied) (Incoming.start [.data c]) [(1, content)] i ∧ i.Idle ∧
      i.socket.pRecvMsgBuf.contents = [] := by
  have hcpos := List.length_pos_iff.mpr hc
  obtain ⟨b, hfill, hb, hlt, hsize, hcon⟩ := exists_fill hc hlen
  obtain ⟨junk, hmem⟩ := exists_memory hlt hb
  have hfilled := hb.length_contents
  rw [hcon] at hfilled hmem
  have hs := (reads_iff c c.length (some content)).mp h junk
  obtain ⟨b', hparse, hok, hsz, hst, hcon'⟩ := parse_of_scan hb hlt hsize (by rwa [hcon]) (d := c.length) hfilled.le
    (by rw [hcon]; exact hs)
  rw [hcon, List.drop_length] at hcon'
  have hempty : b'.filledLength = 0 := by rw [← hok.length_contents, hcon', List.length_nil]
  refine ⟨⟨{ connected with pRecvMsgBuf := b', recvBufHasMessage := false }, []⟩, .cons ⟨?_, fun _ h => ?_⟩ .nil,
    ⟨rfl, rfl⟩, hcon'⟩
  · rw [Incoming.Step, Incoming.start, recvCodeByFindHead, hfill]
    dsimp only
    rw [if_neg (by omega), hparse]
    dsimp only
    rw [Option.getD_some, if_pos ⟨by omega, hpos⟩, hempty]
    rfl
  · exact absurd h (show ¬(1 : ℤ) = -2 by decide)

lemma Takes.exists_run {ps : List Payload} {content : List UInt8} (h : Takes ℓ (frames ps) content) (hℓ : ℓ.length = comMsgLength)
    (hps : ps ≠ []) (hlen : (frames ps).length + headLength ≤ maxMsgLength) (hpos : 0 < content.length) :
    ∃ i, Run (Incoming.MoveStep TBuffer.copied) (Incoming.start [.data (delimiter ++ ℓ ++ frames ps)]) [(1, content)] i ∧
      i.Idle ∧ i.socket.pRecvMsgBuf.contents = [] := by
  obtain ⟨p, qs, rfl⟩ := List.exists_cons_of_ne_nil hps
  have hne : frames (p :: qs) ≠ [] := by
    rw [frames_cons]
    exact List.append_ne_nil_of_left_ne_nil p.frame_ne _
  refine exists_call (h.reads (x := []) (by simp [Free]) hℓ hne) (by simp [delimiter]) ?_ hpos
  rw [List.length_append, List.length_append, hℓ, Nat.add_comm]
  exact hlen

lemma not_survive {ps : List Payload} {content : List UInt8} (hnot : ¬(ps.map Payload.content).Sublist [content])
    {i : Incoming}
    (hrun : Run (Incoming.MoveStep TBuffer.copied) (Incoming.start [.data (delimiter ++ ℓ ++ frames ps)]) [(1, content)] i)
    (hidle : i.Idle) : ¬Survive ℓ ps := by
  have hchunks : Chunks [.data (delimiter ++ ℓ ++ frames ps)] := by
    intro a ha
    rw [List.mem_singleton.mp ha]
    simp [delimiter]
  intro hs
  exact hnot (hs _ Incoming.conforms_copied [] _ _ _ (by simp [Free]) hchunks (by simp [delivers, ReadAnswer.bytes]) hrun hidle)

theorem readFromBuff_robust_iff (hfree : Free x delimiter) (hℓ : ℓ.length = comMsgLength) (c : List UInt8) :
    (HeadersOk c → Robust c) ∧ ((∀ y, Robust (x ++ delimiter ++ ℓ ++ y)) ↔ Valid ℓ) ∧
      ((¬Valid ℓ → ∀ ps, Survive ℓ ps) ↔ Valid ℓ) := by
  refine ⟨HeadersOk.robust, ⟨fun h => ?_, fun hv y => (HeadersOk.of_valid hfree hℓ hv).robust⟩, fun h => ?_,
    fun hv hn => absurd hv hn⟩
  · by_contra hv
    obtain ⟨y, hnot⟩ := exists_not_robust hfree hℓ hv
    exact hnot (h y)
  · by_contra hv
    obtain ⟨ps, content, htakes, hpos, hlen, hnot⟩ := exists_takes hℓ hv
    have hps : ps ≠ [] := by
      rintro rfl
      exact hnot (List.nil_sublist _)
    obtain ⟨i, hrun, hidle, -⟩ := htakes.exists_run hℓ hps hlen hpos
    exact not_survive hnot hrun hidle (h hv ps)

theorem readFromBuff_robust_iff_frame :
    (HeadersOk (pack [7]) → Robust (pack [7])) ∧ ((∀ y, Robust ([7] ++ delimiter ++ [0, 0, 0, 1] ++ y)) ↔ Valid [0, 0, 0, 1]) ∧
      ((¬Valid [0, 0, 0, 1] → ∀ ps, Survive [0, 0, 0, 1] ps) ↔ Valid [0, 0, 0, 1]) :=
  readFromBuff_robust_iff (by unfold Free; decide) rfl _

lemma readFromBuff_of_refused {filledLength length : ℕ} {code : Option (List UInt8)} {src : List UInt8} {ret : ℤ}
    (h : scan (src.length + 1) ⟨.wait, headLength, filledLength, 0, src⟩ = some (ret, none)) :
    readFromBuff filledLength code src length = (ret, code) := by
  rw [readFromBuff, h]

theorem readFromBuff_not_robust :
    ∃ ℓ : List UInt8, ℓ.length = comMsgLength ∧ ¬Valid ℓ ∧ (delimiter ++ ℓ ++ three.frame).length = 27 ∧
      (∀ old, readFromBuff 27 (some old) (delimiter ++ ℓ ++ three.frame) maxRecvLength = (35, some old)) ∧
      ¬Robust (delimiter ++ ℓ ++ three.frame) ∧
      (∃ i, Run (Incoming.MoveStep TBuffer.copied) (Incoming.start [.data (delimiter ++ ℓ ++ frames [three, sixteen])])
        [(1, [1, 2, 3])] i ∧ i.Idle ∧ i.socket.pRecvMsgBuf.contents = []) ∧ ¬Survive ℓ [three, sixteen] := by
  have hmax : socketCodeMaxLength < ntohl [0x7f, 0xff, 0xff, 0xff] := by decide
  have hscan : scan 28 ⟨.wait, headLength, 27, 0, delimiter ++ [0x7f, 0xff, 0xff, 0xff] ++ three.frame⟩ =
      some (35, none) := by decide
  obtain ⟨i, hrun, hidle, hcon⟩ := (takes_large hmax).exists_run rfl (by simp) (by decide) (by decide)
  refine ⟨[0x7f, 0xff, 0xff, 0xff], rfl, by unfold Valid; decide, rfl, fun old => readFromBuff_of_refused hscan, ?_,
    ⟨i, hrun, hidle, hcon⟩, not_survive two_not_one hrun hidle⟩
  exact (overruns_large hmax).not_robust (x := []) (by simp [Free]) rfl (by decide)

end Xframe.Comserv.CSocket
