import Xframe.Comserv.CStrReplace
import Xframe.Comserv.IntCat

/-! `uricEncode` and `uricDecode` of `CStr`. The second writes into the text that it reads, and goes over what follows
a percent sign without a look at it. -/

namespace Xframe.Comserv.CStrObject

open Xframe.Lib Xframe.Lib.Act

def isxdigit (c : UInt8) : Bool := 48 ≤ c && c ≤ 57 || 65 ≤ c && c ≤ 70 || 97 ≤ c && c ≤ 102

def hexDigit (c : UInt8) : ℕ := c.toNat - if c ≤ 57 then 48 else if c ≤ 70 then 55 else 87

/-- `sscanf` with `%0<width>x`, where the blanks in front are not counted. The zero is no digit, so that nothing is
read behind it. As in glibc a `0x` with no digit behind it is a zero. -/
def scanHex (width : ℕ) (r : List UInt8) : Option ℤ :=
  let s := (r.dropWhile isspace).take width
  let sign := s.take 1
  let s := if sign = [45] ∨ sign = [43] then s.drop 1 else s
  let based := s.take 2 = [48, 120] ∨ s.take 2 = [48, 88]
  let digits := ((if based then s.drop 2 else s).takeWhile isxdigit).map hexDigit
  let value : ℤ := Nat.ofDigits 16 digits.reverse
  if digits = [] ∧ ¬based then none else some (if sign = [45] then -value else value)

/-- A write to `w` while the read position is `r`. One ahead of it or behind the terminator has no result. -/
def put (mem : List UInt8) (r w : ℕ) (src : List UInt8) : Option (List UInt8) :=
  if w + src.length ≤ r + 1 ∧ w + src.length ≤ mem.length then some (splice mem w src) else none

section Operations

variable (noise : ℕ → UInt8)

/-- `temp`, which has any value as long as nothing is scanned. -/
def hexByte (r : ℕ) (s : List UInt8) : UInt8 :=
  match scanHex 2 s with
  | none => noise r
  | some temp => UInt8.ofInt temp

def uricTurn (mem : List UInt8) (r w : ℕ) (c : UInt8) (s : List UInt8) : Option (List UInt8 × ℕ × ℕ) :=
  if c = 37 then
    match s with
    | [] => none
    | u :: s =>
      if u = 117 then
        let unicode := (scanHex 4 s).getD 0
        let utf8Str := utf8 unicode
        (put mem (r + 6) w utf8Str).map fun mem => (mem, r + 6, w + utf8Str.length)
      else (put mem (r + 1) w [hexByte noise r (u :: s)]).map fun mem => (mem, r + 3, w + 1)
  else (put mem r w [if c = 43 then 32 else c]).map fun mem => (mem, r + 1, w + 1)

lemma put_length {mem mem' src : List UInt8} {r w : ℕ} (h : put mem r w src = some mem') : mem'.length = mem.length := by
  rw [put] at h
  split_ifs at h with hroom
  obtain rfl := Option.some.inj h
  exact length_splice hroom.2

lemma uricTurn_goes_on {mem mem' s : List UInt8} {r r' w w' : ℕ} {c : UInt8}
    (h : uricTurn noise mem r w c s = some (mem', r', w')) : mem'.length = mem.length ∧ r < r' := by
  have hput : ∀ {p : ℕ} {src : List UInt8} {k l : ℕ}, 0 < k →
      ((put mem p w src).map fun mem => (mem, r + k, w + l)) = some (mem', r', w') → mem'.length = mem.length ∧ r < r' := by
    intro p src k l hk h
    obtain ⟨mem₁, hmem, heq⟩ := Option.map_eq_some_iff.mp h
    obtain ⟨rfl, hr⟩ := Prod.mk.inj heq
    obtain ⟨rfl, -⟩ := Prod.mk.inj hr
    exact ⟨put_length hmem, Nat.lt_add_of_pos_right hk⟩
  cases s with
  | nil =>
    rw [uricTurn] at h
    split_ifs at h
    all_goals exact hput (by omega) h
  | cons u s =>
    rw [uricTurn] at h
    split_ifs at h
    all_goals exact hput (by omega) h

def uricLoop (mem : List UInt8) (r w : ℕ) : Option (List UInt8 × ℕ) :=
  match hr : mem.drop r with
  | [] => none
  | c :: s =>
    if c = 0 then (put mem r w [0]).map fun mem => (mem, w)
    else
      match h : uricTurn noise mem r w c s with
      | none => none
      | some (mem', r', w') =>
        have hlt : r < mem.length := by
          have hne : mem.drop r ≠ [] := hr ▸ List.cons_ne_nil c s
          rwa [ne_eq, List.drop_eq_nil_iff, not_le] at hne
        have : mem'.length - r' < mem.length - r := by
          have hturn := uricTurn_goes_on noise h
          omega
        uricLoop mem' r' w'
termination_by mem.length - r

def uricDecode : Op Unit := do
  let s ← cString 0
  match uricLoop noise (s ++ [0]) 0 0 with
  | none => Act.fault
  | some (mem, length) => do
    write 0 mem
    setLength length

end Operations

section Loop

variable (noise : ℕ → UInt8) {mem s t u out v src : List UInt8} {r w k n off : ℕ} {c : UInt8}

def uricSequence (r : ℕ) (c : UInt8) (s : List UInt8) : ℕ × List UInt8 :=
  if c = 37 then
    if s.head? = some 117 then (6, utf8 ((scanHex 4 (s.drop 1)).getD 0)) else (3, [hexByte noise r s])
  else (1, [if c = 43 then 32 else c])

inductive Decodes : ℕ → List UInt8 → List UInt8 → Prop
  | zero (r : ℕ) : Decodes r [0] []
  | sequence {r : ℕ} {c : UInt8} {s out : List UInt8} : c ≠ 0 →
      Decodes (r + (uricSequence noise r c s).1) ((c :: s).drop (uricSequence noise r c s).1) out →
      Decodes r (c :: s) ((uricSequence noise r c s).2 ++ out)

/-- Every escape that the loop meets has all its bytes in the text. -/
inductive Complete : List UInt8 → Prop
  | nil : Complete []
  | plain {c : UInt8} {s : List UInt8} : c ≠ 37 → Complete s → Complete (c :: s)
  | byte {a b : UInt8} {s : List UInt8} : a ≠ 117 → Complete s → Complete (37 :: a :: b :: s)
  | unicode {a b c d : UInt8} {s : List UInt8} : Complete s → Complete (37 :: 117 :: a :: b :: c :: d :: s)

omit noise in
lemma length_utf8 (i : ℤ) : 0 < (utf8 i).length ∧ (utf8 i).length ≤ 3 := by
  rw [utf8]
  split_ifs <;> simp

lemma length_sequence (r : ℕ) (c : UInt8) (s : List UInt8) :
    (uricSequence noise r c s).2.length ≤ (uricSequence noise r c s).1 := by
  rw [uricSequence]
  split_ifs
  · exact (length_utf8 _).2.trans (by norm_num)
  · exact Nat.le_add_left 1 2
  all_goals exact le_rfl

lemma sequence_pos (r : ℕ) (c : UInt8) (s : List UInt8) : 0 < (uricSequence noise r c s).1 := by
  rw [uricSequence]
  split_ifs
  all_goals exact Nat.succ_pos _

lemma sequence_plain (hc : c ≠ 37) (r : ℕ) (s : List UInt8) :
    uricSequence noise r c s = (1, [if c = 43 then 32 else c]) := if_neg hc

lemma sequence_byte (hs : s.head? ≠ some 117) (r : ℕ) : uricSequence noise r 37 s = (3, [hexByte noise r s]) := by
  rw [uricSequence, if_pos rfl, if_neg hs]

lemma sequence_unicode (r : ℕ) (s : List UInt8) :
    uricSequence noise r 37 (117 :: s) = (6, utf8 ((scanHex 4 s).getD 0)) := by
  rw [uricSequence, if_pos rfl, List.head?_cons, if_pos rfl, List.drop_succ_cons, List.drop_zero]

lemma Decodes.ne_nil (h : Decodes noise r t out) : t ≠ [] := by
  cases h <;> exact List.cons_ne_nil _ _

lemma decodes_step (hc : c ≠ 0) (hk : (uricSequence noise r c s).1 = k) (hdrop : (c :: s).drop k = t)
    (h : Decodes noise (r + k) t out) : ∃ out, Decodes noise r (c :: s) out := by
  subst hk hdrop
  exact ⟨_, .sequence hc h⟩

lemma decodes_of_complete (h : Complete s) (h0 : 0 ∉ s) (r : ℕ) : ∃ out, Decodes noise r (s ++ [0]) out := by
  induction h generalizing r with
  | nil => exact ⟨[], .zero r⟩
  | @plain c s hc _ ih =>
    rw [List.mem_cons, not_or] at h0
    obtain ⟨out, hout⟩ := ih h0.2 (r + 1)
    exact decodes_step noise (Ne.symm h0.1) (congrArg Prod.fst (sequence_plain noise hc r _)) rfl hout
  | @byte a b s ha _ ih =>
    simp only [List.mem_cons, not_or] at h0
    obtain ⟨out, hout⟩ := ih h0.2.2.2 (r + 3)
    exact decodes_step noise (by decide) (congrArg Prod.fst (sequence_byte noise (by simpa using ha) r)) rfl hout
  | @unicode a b c d s _ ih =>
    simp only [List.mem_cons, not_or] at h0
    obtain ⟨out, hout⟩ := ih h0.2.2.2.2.2.2 (r + 6)
    exact decodes_step noise (by decide) (congrArg Prod.fst (sequence_unicode noise r _)) rfl hout

lemma drop_text (c : UInt8) (hk : k ≤ (c :: s).length) : (c :: (s ++ [0])).drop k = (c :: s).drop k ++ [0] :=
  List.drop_append_of_le_length hk

lemma Decodes.within (h : Decodes noise r ((c :: (s ++ [0])).drop k) out) : k ≤ (c :: s).length := by
  have hne := h.ne_nil
  rw [ne_eq, List.drop_eq_nil_iff, not_le] at hne
  simp only [List.length_cons, List.length_append, List.length_nil] at hne ⊢
  omega

lemma complete_cons (hk : (uricSequence noise r c (s ++ [0])).1 ≤ (c :: s).length)
    (h : Complete ((c :: s).drop (uricSequence noise r c (s ++ [0])).1)) : Complete (c :: s) := by
  by_cases hc : c = 37
  · subst hc
    by_cases hu : s.head? = some 117
    · obtain ⟨s, rfl⟩ : ∃ s', s = 117 :: s' := ⟨s.tail, (List.cons_head?_tail hu).symm⟩
      rw [List.cons_append, sequence_unicode] at hk h
      match s, hk, h with
      | a :: b :: c :: d :: s, _, h => exact .unicode h
    · have hu' : (s ++ [0]).head? ≠ some 117 := by
        cases s with
        | nil => decide
        | cons a s => exact hu
      rw [sequence_byte noise hu'] at hk h
      match s, hu, hk, h with
      | a :: b :: s, hu, _, h => exact .byte (by simpa using hu) h
  · rw [sequence_plain noise hc] at h
    exact .plain hc h

lemma complete_of_decodes (h : Decodes noise r (s ++ [0]) out) : Complete s ∧ out.length ≤ s.length := by
  generalize ht : s ++ [0] = t at h
  induction h generalizing s with
  | zero r =>
    obtain rfl : s = [] := List.append_cancel_right (ht : s ++ [0] = [] ++ [0])
    exact ⟨.nil, le_rfl⟩
  | @sequence r c s' out hc hrest ih =>
    cases s with
    | nil => exact absurd (List.cons.inj ht).1.symm hc
    | cons d s =>
      rw [List.cons_append] at ht
      obtain ⟨rfl, rfl⟩ := List.cons.inj ht
      have hpart := length_sequence noise r d (s ++ [0])
      have hk := hrest.within
      obtain ⟨hcomplete, hlen⟩ := ih (drop_text d hk).symm
      rw [List.length_drop] at hlen
      refine ⟨complete_cons noise hk hcomplete, ?_⟩
      rw [List.length_append]
      omega

lemma drop_splice (h : off + src.length ≤ mem.length) (hn : off + src.length ≤ n) :
    (splice mem off src).drop n = mem.drop n := by
  have hlen : (mem.take off ++ src).length = off + src.length := by
    rw [List.length_append, List.length_take_of_le (by omega)]
  rw [splice, List.drop_append, List.drop_eq_nil_of_le (by omega), List.nil_append, List.drop_drop, hlen,
    Nat.add_sub_cancel' hn]

lemma put_eq (hr : w + src.length ≤ r + 1) (hmem : w + src.length ≤ mem.length) :
    put mem r w src = some (splice mem w src) := if_pos ⟨hr, hmem⟩

lemma put_one (c : UInt8) (hr : w ≤ r) (hmem : w < mem.length) : put mem r w [c] = some (splice mem w [c]) :=
  put_eq (Nat.succ_le_succ hr) hmem

lemma uricTurn_eq (hmem : mem.drop r = c :: s) (hs : s ≠ []) (hu : s.head? = some 117 → 2 ≤ s.length) (hw : w ≤ r) :
    w + (uricSequence noise r c s).2.length ≤ mem.length ∧
      uricTurn noise mem r w c s = some (splice mem w (uricSequence noise r c s).2, r + (uricSequence noise r c s).1,
        w + (uricSequence noise r c s).2.length) := by
  have hlen := congrArg List.length hmem
  rw [List.length_drop, List.length_cons] at hlen
  by_cases hc : c = 37
  · subst hc
    obtain ⟨u, s, rfl⟩ := List.exists_cons_of_ne_nil hs
    by_cases hu117 : u = 117
    · subst hu117
      have h3 := (length_utf8 ((scanHex 4 s).getD 0)).2
      have h2 := hu rfl
      rw [sequence_unicode, uricTurn, if_pos rfl, if_pos rfl]
      dsimp only
      rw [put_eq (by omega) (by omega)]
      exact ⟨by omega, rfl⟩
    · rw [sequence_byte noise (by simpa using hu117), uricTurn, if_pos rfl, if_neg hu117, put_one _ (by omega) (by omega),
        List.length_singleton]
      exact ⟨by omega, rfl⟩
  · rw [sequence_plain noise hc, uricTurn.eq_def, if_neg hc, put_one _ hw (by omega), List.length_singleton]
    exact ⟨by omega, rfl⟩

lemma uricLoop_zero (hmem : mem.drop r = 0 :: s) (hw : w ≤ r) :
    uricLoop noise mem r w = some (splice mem w [0], w) := by
  have hlen := congrArg List.length hmem
  rw [List.length_drop, List.length_cons] at hlen
  rw [uricLoop]
  split
  next hnil => rw [hnil] at hmem; cases hmem
  next c' s' hcons =>
    obtain ⟨rfl, -⟩ := List.cons.inj (hcons.symm.trans hmem)
    rw [if_pos rfl, put_one 0 hw (by omega)]
    rfl

lemma uricLoop_turn (hmem : mem.drop r = c :: s) (hc : c ≠ 0) (hs : s ≠ []) (hu : s.head? = some 117 → 2 ≤ s.length)
    (hw : w ≤ r) : uricLoop noise mem r w = uricLoop noise (splice mem w (uricSequence noise r c s).2)
      (r + (uricSequence noise r c s).1) (w + (uricSequence noise r c s).2.length) := by
  have hturn := (uricTurn_eq noise hmem hs hu hw).2
  rw [uricLoop]
  split
  next hnil => rw [hnil] at hmem; cases hmem
  next c' s' hcons =>
    obtain ⟨rfl, rfl⟩ := List.cons.inj (hcons.symm.trans hmem)
    rw [if_neg hc]
    split
    next hnone => rw [hnone] at hturn; cases hturn
    next mem' r' w' hsome =>
      obtain ⟨rfl, rfl, rfl⟩ : mem' = _ ∧ r' = _ ∧ w' = _ := by simpa using hsome.symm.trans hturn
      rfl

lemma uricLoop_end (hmem : mem.drop r = []) (w : ℕ) : uricLoop noise mem r w = none := by
  rw [uricLoop]
  split
  next => rfl
  next c s hcons => rw [hcons] at hmem; cases hmem

lemma turn_on (hmem : mem.drop r = c :: (s ++ [0])) (hc : c ≠ 0) (hw : w ≤ r) :
    ∃ mem', uricLoop noise mem r w = uricLoop noise mem' (r + (uricSequence noise r c (s ++ [0])).1)
        (w + (uricSequence noise r c (s ++ [0])).2.length) ∧
      mem'.length = mem.length ∧
      mem'.take (w + (uricSequence noise r c (s ++ [0])).2.length) = mem.take w ++ (uricSequence noise r c (s ++ [0])).2 ∧
      mem'.drop (r + (uricSequence noise r c (s ++ [0])).1) =
        (c :: (s ++ [0])).drop (uricSequence noise r c (s ++ [0])).1 := by
  have hu : (s ++ [0]).head? = some 117 → 2 ≤ (s ++ [0]).length := by
    cases s with
    | nil => decide
    | cons a s => simp
  have hs : s ++ [0] ≠ [] := by simp
  have hroom := (uricTurn_eq noise hmem hs hu hw).1
  have hpart := length_sequence noise r c (s ++ [0])
  refine ⟨_, uricLoop_turn noise hmem hc hs hu hw, length_splice hroom, ?_, ?_⟩
  · rw [take_splice_add (by omega) le_rfl, List.take_length]
  · rw [drop_splice hroom (by omega), ← List.drop_drop, hmem]

lemma loop_of_decodes (h : Decodes noise r t out) (hmem : mem.drop r = t) (ht : t = u ++ [0]) (h0 : 0 ∉ u) (hw : w ≤ r) :
    ∃ mem', uricLoop noise mem r w = some (mem', w + out.length) ∧ mem'.length = mem.length ∧
      mem'.take (w + out.length) = mem.take w ++ out ∧ mem'[w + out.length]? = some 0 := by
  induction h generalizing mem u w with
  | zero r =>
    have hlen := congrArg List.length hmem
    rw [List.length_drop, List.length_singleton] at hlen
    have hroom : w + ([0] : List UInt8).length ≤ mem.length := by
      rw [List.length_singleton]
      omega
    have hzero := splice_zero w hroom (i := 0) rfl
    refine ⟨_, uricLoop_zero noise hmem hw, length_splice hroom, ?_, hzero⟩
    rw [List.length_nil, Nat.add_zero, take_splice (by omega), List.append_nil]
  | @sequence r c s out hc hrest ih =>
    cases u with
    | nil => exact absurd (List.cons.inj ht).1 hc
    | cons d u =>
      rw [List.cons_append] at ht
      obtain ⟨rfl, rfl⟩ := List.cons.inj ht
      obtain ⟨mem', hrun, hlen', htake', hmem'⟩ := turn_on noise hmem hc hw
      have hpart := length_sequence noise r c (u ++ [0])
      have hdrop := drop_text c hrest.within
      have hw' : w + (uricSequence noise r c (u ++ [0])).2.length ≤ r + (uricSequence noise r c (u ++ [0])).1 := by omega
      obtain ⟨mem'', hrun', hlen'', htake'', hzero⟩ := ih hmem' hdrop (fun hin => h0 (List.mem_of_mem_drop hin)) hw'
      rw [Nat.add_assoc, ← List.length_append] at hrun' htake'' hzero
      refine ⟨mem'', hrun.trans hrun', hlen''.trans hlen', ?_, hzero⟩
      rw [htake'', htake', List.append_assoc]

lemma decodes_of_loop {res : List UInt8 × ℕ} (h : uricLoop noise mem r w = some res) (hmem : mem.drop r = u ++ [0])
    (h0 : 0 ∉ u) (hw : w ≤ r) : ∃ out, Decodes noise r (u ++ [0]) out := by
  induction hn : u.length using Nat.strong_induction_on generalizing mem u r w with
  | _ n ih =>
    cases u with
    | nil => exact ⟨[], .zero r⟩
    | cons c u =>
      have hc : c ≠ 0 := fun heq => h0 (heq ▸ List.mem_cons_self)
      obtain ⟨mem', hrun, -, -, hmem'⟩ := turn_on noise hmem hc hw
      have hpart := length_sequence noise r c (u ++ [0])
      have hw' : w + (uricSequence noise r c (u ++ [0])).2.length ≤ r + (uricSequence noise r c (u ++ [0])).1 := by omega
      rw [hrun] at h
      by_cases hk : (uricSequence noise r c (u ++ [0])).1 ≤ (c :: u).length
      · have hdrop := drop_text c hk
        have hpos := sequence_pos noise r c (u ++ [0])
        obtain ⟨out, hout⟩ := ih _ (by rw [← hn, List.length_drop]; rw [List.length_cons] at hk ⊢; omega) h
          (hmem'.trans hdrop) (fun hin => h0 (List.mem_of_mem_drop hin)) hw' rfl
        exact decodes_step noise hc rfl hdrop hout
      · have hnil : (c :: (u ++ [0])).drop (uricSequence noise r c (u ++ [0])).1 = [] := by
          rw [List.drop_eq_nil_iff]
          simp only [List.length_cons, List.length_append, List.length_nil] at hk ⊢
          omega
        rw [uricLoop_end noise (hmem'.trans hnil)] at h
        cases h

end Loop

section Decode

variable (noise : ℕ → UInt8) {m : CStrMem} {s out : List UInt8} {r : ℕ}

omit noise in
lemma length_cText (hv : Valid m) : ((cText m.content).length : ℤ) ≤ m.str.length := by
  rw [← length_content hv]
  exact_mod_cast (List.takeWhile_sublist _).length_le

lemma uricDecode_holds (hv : Valid m) (h : Decodes noise 0 (cText m.content ++ [0]) out) :
    Ends (uricDecode noise) m (fun _ t => Holds m out t) fun _ => False := by
  have hout := (complete_of_decodes noise h).2
  have hshort := length_cText hv
  obtain ⟨mem, hrun, hlen, htake, hzero⟩ := loop_of_decodes noise h rfl rfl (zero_notMem_cText _) le_rfl
  rw [Nat.zero_add] at hrun htake hzero
  rw [List.length_append, List.length_singleton] at hlen
  rw [uricDecode]
  refine (cString_text hv).bind ?_
  rintro _ _ ⟨rfl, rfl⟩
  rw [hrun]
  obtain ⟨L, C, b, hview, hf, hL, hle, -⟩ := hv
  have hsize := hf.size
  rw [hview.length] at hshort
  refine (write_ends hview.state le_rfl (by omega)).bind fun _ t ht => ?_
  have hroom : 0 + mem.length ≤ b.length := by omega
  refine (setLength_ends ht _).mono (fun _ t ht => ?_) fun _ ht => ht
  have hfit : Fit C (splice b 0 mem) := hf.splice hroom
  have hz := splice_zero 0 hroom hzero
  have hheld := take_splice_add (b := b) (l := out.length) (w := mem) (Nat.zero_le _) (by omega)
  have hcap : t.str.capacity = m.str.capacity := ht.view.capacity.trans hview.capacity.symm
  rw [Nat.zero_add] at hz hheld
  refine ⟨ht.kept hfit (Int.natCast_nonneg _) (by omega) hz, ?_, hcap.ge, hcap.le.trans (le_max_left _ _)⟩
  rw [ht.view.content, Int.toNat_natCast, Int.toNat_zero, hheld, htake]
  rfl

lemma complete_of_uricDecode (hv : Valid m) {Q : Unit → CStrMem → Prop} (h : Ends (uricDecode noise) m Q fun _ => False) :
    Complete (cText m.content) := by
  obtain ⟨_, t, hrun, -⟩ := h.done
  rw [uricDecode] at hrun
  obtain ⟨s, u, hs, hrun⟩ := bind_eq_done hrun
  obtain ⟨rfl, rfl⟩ := (cString_text hv (E := fun _ => True)).of_done hs
  cases hloop : uricLoop noise (cText m.content ++ [0]) 0 0 with
  | none =>
    rw [hloop] at hrun
    cases hrun
  | some res =>
    obtain ⟨out, hout⟩ := decodes_of_loop noise hloop rfl (zero_notMem_cText _) le_rfl
    exact (complete_of_decodes noise hout).1

theorem uricDecode_bounded_iff (hv : Valid m) :
    Ends (uricDecode noise) m (fun _ t => Kept m t ∧ t.str.length ≤ m.str.length) (fun _ => False) ↔
      Complete (cText m.content) := by
  constructor
  · intro h
    exact complete_of_uricDecode noise hv h
  · intro h
    obtain ⟨out, hout⟩ := decodes_of_complete noise h (zero_notMem_cText _) 0
    refine (uricDecode_holds noise hv hout).mono (fun _ t ht => ⟨ht.kept, ?_⟩) fun _ ht => ht
    have hlen := (complete_of_decodes noise hout).2
    have hshort := length_cText hv
    rw [ht.length]
    omega

theorem uricDecode_bounded_hi : Ends (uricDecode fun _ => 0) StrObject.hi
    (fun _ t => Kept StrObject.hi t ∧ t.str.length ≤ StrObject.hi.str.length) fun _ => False := by
  have hplain : Complete (cText StrObject.hi.content) := .plain (by decide) (.plain (by decide) .nil)
  exact (uricDecode_bounded_iff (fun _ => 0) StrObject.hi_valid).mpr hplain

def StrObject.percent : CStrMem := ⟨.empty, ⟨1, 31, none, 37 :: List.replicate 31 0⟩⟩

lemma StrObject.percent_valid : Valid StrObject.percent :=
  ⟨1, 31, _, ⟨rfl, rfl, rfl, rfl⟩, ⟨le_rfl, le_rfl, by norm_num⟩, by norm_num, by norm_num, rfl⟩

theorem uricDecode_reads_beyond : Valid StrObject.percent ∧ ¬Ends (uricDecode fun _ => 0) StrObject.percent
    (fun _ t => Kept StrObject.percent t ∧ t.str.length ≤ StrObject.percent.str.length) fun _ => False := by
  refine ⟨StrObject.percent_valid, fun h => ?_⟩
  have hcomplete : Complete [37] := complete_of_uricDecode (fun _ => 0) StrObject.percent_valid h
  cases hcomplete with
  | plain hne _ => exact hne rfl

end Decode

section Encode

variable (noise : ℕ → UInt8) {m u : CStrMem} {s t out b : List UInt8} {r i : ℕ} {a c d : UInt8}

def escaped (c : UInt8) : Bool := c = 38 || c = 61 || c = 43 || c = 37

omit noise in
lemma length_encoded (s : List UInt8) : (s.flatMap uricByte).length = s.length + 2 * s.countP escaped := by
  induction s with
  | nil => rfl
  | cons c s ih =>
    have hbyte : (uricByte c).length = 1 + 2 * if escaped c then 1 else 0 := by
      rw [uricByte]
      split_ifs <;> simp_all [escaped]
    rw [List.flatMap_cons, List.length_append, ih, hbyte, List.length_cons, List.countP_cons]
    omega

omit noise in
lemma zero_notMem_encoded (h0 : 0 ∉ s) : 0 ∉ s.flatMap uricByte := by
  intro hmem
  obtain ⟨c, hc, hbyte⟩ := List.mem_flatMap.mp hmem
  have hne : c ≠ 0 := fun heq => h0 (heq ▸ hc)
  rw [uricByte] at hbyte
  split_ifs at hbyte <;> simp_all

lemma decodes_plain (h0 : c ≠ 0) (hc : c ≠ 37) (h : Decodes noise (r + 1) t out) :
    Decodes noise r (c :: t) ((if c = 43 then 32 else c) :: out) := by
  have hseq := sequence_plain noise hc r t
  have hstep : Decodes noise r (c :: t) ((uricSequence noise r c t).2 ++ out) := .sequence h0 (by rw [hseq]; exact h)
  rwa [hseq] at hstep

lemma decodes_byte (ha : a ≠ 117) (hx : hexByte noise r (a :: d :: t) = c) (h : Decodes noise (r + 3) t out) :
    Decodes noise r (37 :: a :: d :: t) (c :: out) := by
  have hseq := sequence_byte noise (s := a :: d :: t) (by simpa using ha) r
  have hstep : Decodes noise r (37 :: a :: d :: t) ((uricSequence noise r 37 (a :: d :: t)).2 ++ out) :=
    .sequence (by decide) (by rw [hseq]; exact h)
  rwa [hseq, hx] at hstep

lemma decodes_encoded (h0 : 0 ∉ s) (r : ℕ) : Decodes noise r (s.flatMap uricByte ++ [0]) s := by
  induction s generalizing r with
  | nil => exact .zero r
  | cons c s ih =>
    rw [List.mem_cons, not_or] at h0
    rw [List.flatMap_cons, List.append_assoc, uricByte]
    split_ifs with hamp heq hplus hpercent hblank
    · subst hamp
      exact decodes_byte noise (by decide) rfl (ih h0.2 _)
    · subst heq
      exact decodes_byte noise (by decide) rfl (ih h0.2 _)
    · subst hplus
      exact decodes_byte noise (by decide) rfl (ih h0.2 _)
    · subst hpercent
      exact decodes_byte noise (by decide) rfl (ih h0.2 _)
    · subst hblank
      exact decodes_plain noise (by decide) (by decide) (ih h0.2 _)
    · have hplain := decodes_plain noise (Ne.symm h0.1) hpercent (ih h0.2 (r + 1))
      rwa [if_neg hplus] at hplain

omit noise in
lemma splice_same (h : b[i]? = some c) : splice b i [c] = b := by
  obtain ⟨hlt, rfl⟩ := List.getElem?_eq_some_iff.mp h
  rw [splice, List.append_assoc, List.singleton_append, List.length_singleton, List.getElem_cons_drop,
    List.take_append_drop]

lemma uricEncode_eq (hv : Valid m) (h0 : 0 ∉ m.content) : ∃ t, Holds m m.content t ∧ t.str.capacity = m.str.capacity ∧
    uricEncode noise m = (temporary (toInt (m.str.length * 3 + 1)) (m.content.flatMap uricByte ++ [0]) >>= fun _ =>
      assign noise (toInt (m.content.flatMap uricByte).length) (m.content.flatMap uricByte ++ [0])) t := by
  obtain ⟨L, C, b, hview, hf, hL, hle, hz⟩ := id hv
  have hsize := hf.size
  have hthis : this m = some (.done m.str, m) := rfl
  obtain ⟨_, t, hwrite, ht⟩ := (write_ends (E := fun _ => False) hview.state hL
    (show L + ([0] : List UInt8).length ≤ b.length by rw [List.length_singleton]; omega)).done
  rw [splice_same hz] at ht
  have hheld := ht.holds hview hf hL hle hz
  rw [← hview.content] at hheld
  have h0' : 0 ∉ t.content := by rwa [hheld.content]
  obtain ⟨r, u, htext, rfl, rfl⟩ := (cString_content hheld.kept.1 h0').done
  refine ⟨t, hheld, ht.view.capacity.trans hview.capacity.symm, ?_⟩
  rw [← hview.length] at hwrite
  rw [uricEncode, bind_done hthis, bind_done hwrite, bind_done htext, hheld.content]
  rfl

lemma uricEncode_done (hv : Valid m) (h0 : 0 ∉ m.content) (hfit : m.str.length * 3 + 1 < 2 ^ 31)
    (hover : ¬Oversized m.str.capacity (m.content.flatMap uricByte).length) :
    Ends (uricEncode noise) m (fun _ u => Holds m (m.content.flatMap uricByte) u) fun _ => False := by
  have hlen := length_content hv
  have hw := length_flatMap_uricByte m.content
  obtain ⟨t, ht, hcap, heq⟩ := uricEncode_eq noise hv h0
  set w := m.content.flatMap uricByte with hwdef
  have hint : toInt (w.length : ℤ) = w.length := toInt_eq (by omega) (by omega)
  rw [hint] at heq
  rw [Ends, heq, ← Ends]
  refine ((temporary_ends (w := w) (by omega) (by omega) (by omega)).mono (fun _ _ hu => hu) fun u hu => ?_).bind ?_
  · exact absurd hfit (not_lt.mpr hu.2)
  rintro - t ⟨rfl, -⟩
  refine (assign_holds noise ht.kept.1 w (by omega)).mono ?_ ?_
  · rintro - u ⟨hu, -⟩
    exact ht.trans hu
  · rintro u ⟨-, hlarge⟩
    rw [hcap] at hlarge
    exact hover hlarge

omit noise in
lemma temporary_fits {n : ℤ} {t t' : CStrMem} (h : temporary n s t = some (.done (), t')) :
    0 ≤ n ∧ s.length ≤ n ∧ t = t' := by
  rw [temporary] at h
  split_ifs at h with hneg hroom
  · cases h
  · exact ⟨not_lt.mp hneg, hroom, (pure_eq_done h).2⟩
  · cases h

lemma uricEncode_fits (hv : Valid m) (h0 : 0 ∉ m.content) (h : uricEncode noise m = some (.done (), u)) :
    m.str.length * 3 + 1 < 2 ^ 31 ∧ ¬Oversized m.str.capacity (m.content.flatMap uricByte).length := by
  have hlen := length_content hv
  have hlt := length_lt hv
  have hw := length_flatMap_uricByte m.content
  have hmore : m.str.length ≤ (m.content.flatMap uricByte).length := by
    rw [length_encoded]
    omega
  obtain ⟨t, ht, hcap, heq⟩ := uricEncode_eq noise hv h0
  set w := m.content.flatMap uricByte with hwdef
  rw [heq] at h
  obtain ⟨_, t', htmp, hassign⟩ := bind_eq_done h
  obtain ⟨hpos, hroom, rfl⟩ := temporary_fits htmp
  rw [List.length_append, List.length_singleton] at hroom
  have hfit : m.str.length * 3 + 1 < 2 ^ 31 := by
    rw [toInt] at hpos hroom
    obtain hc | hc := le_or_gt ((m.str.length * 3 + 1 + 2 ^ 31) / 2 ^ 32) 0
    · omega
    · omega
  have hint' : toInt (w.length : ℤ) = w.length := toInt_eq (by omega) (by omega)
  rw [hint'] at hassign
  have hsmall := ((assign_holds noise ht.kept.1 w (by omega)).of_done hassign).2
  rw [hcap] at hsmall
  exact ⟨hfit, hsmall⟩

theorem uricDecode_uricEncode_iff (hv : Valid m) (h0 : 0 ∉ m.content) :
    Ends (do uricEncode noise; uricDecode noise) m (fun _ u => Holds m m.content u) (fun _ => False) ↔
      m.str.length * 3 + 1 < 2 ^ 31 ∧
        ¬Oversized m.str.capacity (m.str.length + 2 * (m.content.countP escaped : ℤ)) := by
  have hlen : ((m.content.flatMap uricByte).length : ℤ) = m.str.length + 2 * (m.content.countP escaped : ℤ) := by
    rw [length_encoded, ← length_content hv]
    push_cast
    rfl
  rw [← hlen]
  constructor
  · intro h
    obtain ⟨_, u, hrun, -⟩ := h.done
    obtain ⟨_, t, hencode, -⟩ := bind_eq_done hrun
    exact uricEncode_fits noise hv h0 hencode
  · rintro ⟨hfit, hover⟩
    refine (uricEncode_done noise hv h0 hfit hover).bind fun _ t ht => ?_
    have hdecodes := decodes_encoded noise h0 0
    rw [← cText_eq (zero_notMem_encoded h0), ← ht.content] at hdecodes
    exact (uricDecode_holds noise ht.kept.1 hdecodes).mono (fun _ u hu => ht.trans hu) fun _ hu => hu

theorem uricDecode_uricEncode_hi : Ends (do uricEncode fun _ => 0; uricDecode fun _ => 0) StrObject.hi
    (fun _ u => Holds StrObject.hi StrObject.hi.content u) fun _ => False := by
  refine (uricDecode_uricEncode_iff (fun _ => 0) StrObject.hi_valid (by decide)).mpr ⟨by decide, fun hover => ?_⟩
  exact absurd hover.2 (by decide)

lemma StrObject.onHeap_content {s : List UInt8} (h31 : 31 ≤ s.length) (hlt : (s.length : ℤ) < 2 ^ 31 - 1) :
    (StrObject.onHeap s).content = s := by
  obtain ⟨L, C, b, hview, -⟩ := StrObject.onHeap_valid h31 hlt
  obtain rfl := Option.some.inj (hview.block.symm.trans (StrObject.onHeap_block s))
  rw [hview.content, ← hview.length]
  exact List.take_left

lemma long_not_encoded (hlong : 715827883 ≤ s.length) (hlt : (s.length : ℤ) < 2 ^ 31 - 1) (h0 : 0 ∉ s) :
    Valid (StrObject.onHeap s) ∧ 0 ∉ (StrObject.onHeap s).content ∧
      ¬Ends (do uricEncode noise; uricDecode noise) (StrObject.onHeap s)
        (fun _ u => Holds (StrObject.onHeap s) (StrObject.onHeap s).content u) fun _ => False := by
  have hv := StrObject.onHeap_valid (by omega) hlt
  have hcontent := StrObject.onHeap_content (by omega) hlt
  have h0' : 0 ∉ (StrObject.onHeap s).content := by rwa [hcontent]
  refine ⟨hv, h0', fun h => ?_⟩
  obtain ⟨_, u, hrun, -⟩ := h.done
  obtain ⟨_, t, hencode, -⟩ := bind_eq_done hrun
  have hfit := (uricEncode_fits noise hv h0' hencode).1
  rw [← length_content hv, hcontent] at hfit
  omega

theorem uricEncode_of_many : Valid (StrObject.onHeap (List.replicate 715827883 97)) ∧
    0 ∉ (StrObject.onHeap (List.replicate 715827883 97)).content ∧
      ¬Ends (do uricEncode fun _ => 0; uricDecode fun _ => 0) (StrObject.onHeap (List.replicate 715827883 97))
        (fun _ u => Holds (StrObject.onHeap (List.replicate 715827883 97))
          (StrObject.onHeap (List.replicate 715827883 97)).content u) fun _ => False := by
  have hlen : (List.replicate 715827883 (97 : UInt8)).length = 715827883 := List.length_replicate
  refine long_not_encoded (fun _ => 0) hlen.ge (by rw [hlen]; norm_num) fun hmem => ?_
  exact absurd (List.eq_of_mem_replicate hmem) (by decide)

end Encode

end Xframe.Comserv.CStrObject
