import Mathlib.Data.List.TakeWhile
import Mathlib.Tactic

/-! `split(argvArray, maxArgc)` of `CStr`, which takes a command apart at blanks, with quotes and backslashes. -/

namespace Xframe.Comserv.ArgSplit

def MaxArgC : ℕ := 20

abbrev Args := List (List UInt8)

/-- `argvArray[argc] += c`, which has no result beside the array. -/
def addTo (argvArray : Args) (argc : ℕ) (c : UInt8) : Option Args :=
  if argc < argvArray.length then some (argvArray.modify argc fun arg => arg ++ [c]) else none

/-- One turn of the inner loop up to the byte that is appended. A read behind the zero has no result. -/
def turn (inQuota : Bool) : List UInt8 → Option (Bool × UInt8 × List UInt8)
  | [] => none
  | c :: buffer =>
    let (inQuota, buffer) := if c = 39 then (!inQuota, buffer) else (inQuota, c :: buffer)
    match buffer with
    | [] => none
    | c :: rest =>
      match if c = 92 then rest else c :: rest with
      | [] => none
      | c :: rest => some (inQuota, c, rest)

lemma turn_length {q q' : Bool} {c : UInt8} {buffer rest : List UInt8} (h : turn q buffer = some (q', c, rest)) :
    rest.length < buffer.length := by
  cases buffer with
  | nil => cases h
  | cons d buffer =>
    simp only [turn] at h
    split at h
    · cases h
    · split at h
      · cases h
      · cases h
        split_ifs at * <;> simp_all
        omega

def word (argc : ℕ) (inQuota : Bool) (argvArray : Args) (buffer : List UInt8) : Option (Bool × Args × List UInt8) :=
  match buffer with
  | [] => none
  | c :: buffer =>
    if (inQuota ∨ c ≠ 32 ∧ c ≠ 9) ∧ c ≠ 0 then
      match h : turn inQuota (c :: buffer) with
      | none => none
      | some (inQuota, c, rest) =>
        have : rest.length ≤ buffer.length := Nat.le_of_lt_succ (turn_length h)
        match addTo argvArray argc c with
        | none => none
        | some argvArray => word argc inQuota argvArray rest
    else some (inQuota, argvArray, c :: buffer)
termination_by buffer.length

def isBlank (c : UInt8) : Bool := c = 32 || c = 9

def splitFrom : ℕ → ℕ → Bool → Args → List UInt8 → Option (ℕ × Args)
  | 0, argc, _, argvArray, _ => some (argc, argvArray)
  | _ + 1, _, _, _, [] => none
  | left + 1, argc, inQuota, argvArray, c :: buffer =>
    if c = 0 then some (argc, argvArray)
    else
      match (c :: buffer).dropWhile isBlank with
      | [] => none
      | c :: buffer =>
        if c = 0 then some (argc, argvArray)
        else
          match word argc inQuota argvArray (c :: buffer) with
          | none => none
          | some (inQuota, argvArray, buffer) => splitFrom left (argc + 1) inQuota argvArray buffer

/-- The array has as many elements as the caller says, but the loop asks for `MaxArgC` of them. -/
def split (s : List UInt8) (argvArray : Args) : Option (ℕ × Args) := splitFrom MaxArgC 0 false argvArray (s ++ [0])

inductive Piece : Bool → List UInt8 → Bool → Prop
  | plain {q : Bool} {c : UInt8} (hquote : c ≠ 39) (hslash : c ≠ 92) : Piece q [c] q
  | escaped {q : Bool} (c : UInt8) : Piece q [92, c] q
  | quoted {q : Bool} {c : UInt8} (hslash : c ≠ 92) : Piece q [39, c] (!q)
  | quotedEscaped {q : Bool} (c : UInt8) : Piece q [39, 92, c] (!q)

inductive Arg : Bool → List UInt8 → List UInt8 → Prop
  | last (q : Bool) : Arg q [] []
  | blank {c : UInt8} {r : List UInt8} (hblank : isBlank c) : Arg false [] (c :: r)
  | piece {q q' : Bool} {u w r : List UInt8} (hpiece : Piece q u q') (hopen : q = false → ∀ c ∈ u.head?, ¬isBlank c)
      (hrest : Arg q' w r) : Arg q (u ++ w) r

inductive Words : ℕ → List UInt8 → ℕ → Prop
  | enough (s : List UInt8) : Words 0 s 0
  | none {left : ℕ} {s : List UInt8} (hblank : ∀ c ∈ s, isBlank c) : Words (left + 1) s 0
  | word {left n : ℕ} {b w r : List UInt8} (hblank : ∀ c ∈ b, isBlank c) (hfirst : ∃ c ∈ w.head?, ¬isBlank c)
      (harg : Arg false w r) (hrest : Words left r n) : Words (left + 1) (b ++ (w ++ r)) (n + 1)

section Turn

variable {q q' : Bool} {c : UInt8} {u s rest : List UInt8}

lemma Piece.ne_nil (h : Piece q u q') : u ≠ [] := by
  cases h <;> exact List.cons_ne_nil _ _

lemma Piece.turn_append (h : Piece q u q') (rest : List UInt8) : ∃ c, turn q (u ++ rest) = some (q', c, rest) := by
  cases h with
  | @plain c hquote hslash => exact ⟨c, by simp [turn, hquote, hslash]⟩
  | escaped c => exact ⟨c, by simp [turn]⟩
  | @quoted c hslash => exact ⟨c, by simp [turn, hslash]⟩
  | quotedEscaped c => exact ⟨c, by simp [turn]⟩

lemma turn_some (hs : s ≠ []) (h : turn q (s ++ [0]) = some (q', c, rest)) :
    rest = [] ∨ ∃ u s', Piece q u q' ∧ s = u ++ s' ∧ rest = s' ++ [0] := by
  obtain ⟨c₁, s, rfl⟩ := List.exists_cons_of_ne_nil hs
  by_cases hquote : c₁ = 39
  · subst hquote
    cases s with
    | nil =>
      left
      simpa [turn, eq_comm] using congrArg (Option.map fun r => r.2.2) h
    | cons c₂ s =>
      by_cases hslash : c₂ = 92
      · subst hslash
        cases s with
        | nil =>
          left
          simpa [turn, eq_comm] using congrArg (Option.map fun r => r.2.2) h
        | cons c₃ s =>
          obtain ⟨rfl, -, rfl⟩ : (!q) = q' ∧ c₃ = c ∧ s ++ [0] = rest := by simpa [turn] using h
          exact .inr ⟨_, s, .quotedEscaped c₃, rfl, rfl⟩
      · obtain ⟨rfl, -, rfl⟩ : (!q) = q' ∧ c₂ = c ∧ s ++ [0] = rest := by simpa [turn, hslash] using h
        exact .inr ⟨_, s, .quoted hslash, rfl, rfl⟩
  · by_cases hslash : c₁ = 92
    · subst hslash
      cases s with
      | nil =>
        left
        simpa [turn, eq_comm] using congrArg (Option.map fun r => r.2.2) h
      | cons c₂ s =>
        obtain ⟨rfl, -, rfl⟩ : q = q' ∧ c₂ = c ∧ s ++ [0] = rest := by simpa [turn] using h
        exact .inr ⟨_, s, .escaped c₂, rfl, rfl⟩
    · obtain ⟨rfl, -, rfl⟩ : q = q' ∧ c₁ = c ∧ s ++ [0] = rest := by simpa [turn, hquote, hslash] using h
      exact .inr ⟨_, s, .plain hquote hslash, rfl, rfl⟩

end Turn

section Word

variable {argc left n : ℕ} {q q' : Bool} {c : UInt8} {argv argv' : Args} {u w r s buffer rest : List UInt8}

lemma addTo_eq (h : argc < argv.length) (c : UInt8) :
    addTo argv argc c = some (argv.modify argc fun arg => arg ++ [c]) := if_pos h

lemma addTo_some (h : addTo argv argc c = some argv') : argc < argv.length ∧ argv'.length = argv.length := by
  rw [addTo] at h
  split_ifs at h with hlt
  obtain rfl := Option.some.inj h
  exact ⟨hlt, List.length_modify ..⟩

lemma word_stop (h : ¬((q ∨ c ≠ 32 ∧ c ≠ 9) ∧ c ≠ 0)) :
    word argc q argv (c :: buffer) = some (q, argv, c :: buffer) := by
  rw [word, if_neg h]

lemma word_turn (h : (q ∨ c ≠ 32 ∧ c ≠ 9) ∧ c ≠ 0) :
    word argc q argv (c :: buffer) = (turn q (c :: buffer)).bind fun x =>
      (addTo argv argc x.2.1).bind fun argv => word argc x.1 argv x.2.2 := by
  rw [word, if_pos h]
  split
  next hnone => rw [hnone, Option.bind_none]
  next q' d rest hsome =>
    dsimp only
    simp only [hsome, Option.bind_some]
    cases addTo argv argc d <;> rfl

lemma isBlank_iff : isBlank c ↔ c = 32 ∨ c = 9 := by
  simp [isBlank]

lemma goes_on_iff (hc : c ≠ 0) : (q ∨ c ≠ 32 ∧ c ≠ 9) ∧ c ≠ 0 ↔ (q = false → ¬isBlank c) := by
  rw [isBlank_iff]
  cases q <;> simp [hc]

lemma word_some (h0 : 0 ∉ s) (h : word argc q argv (s ++ [0]) = some (q', argv', rest)) :
    ∃ w r, s = w ++ r ∧ rest = r ++ [0] ∧ Arg q w r ∧ (r = [] ∨ q' = false) ∧ argv'.length = argv.length ∧
      (w = [] ∨ argc < argv.length) := by
  induction hk : s.length using Nat.strong_induction_on generalizing s q argv with
  | _ k ih =>
    cases s with
    | nil =>
      rw [List.nil_append, word_stop (by simp)] at h
      cases h
      exact ⟨[], [], rfl, rfl, .last _, .inl rfl, rfl, .inl rfl⟩
    | cons c s =>
      have hc : c ≠ 0 := fun heq => h0 (heq ▸ List.mem_cons_self)
      rw [List.cons_append] at h
      by_cases hopen : q = false → ¬isBlank c
      · rw [word_turn ((goes_on_iff hc).mpr hopen)] at h
        obtain ⟨⟨q₁, d, buffer⟩, hturn, h⟩ := Option.bind_eq_some_iff.mp h
        obtain ⟨argv₁, hadd, h⟩ := Option.bind_eq_some_iff.mp h
        obtain ⟨hlt, hlen⟩ := addTo_some hadd
        dsimp only at h
        rcases turn_some (List.cons_ne_nil c s) hturn with rfl | ⟨u, s', hu, hs, rfl⟩
        · rw [word] at h
          cases h
        have hpos := List.length_pos_iff.mpr hu.ne_nil
        have hk' := congrArg List.length hs
        rw [List.length_append] at hk'
        rw [hs, List.mem_append, not_or] at h0
        obtain ⟨w, r, rfl, hr, harg, hq', hlen', -⟩ := ih s'.length (by omega) h0.2 h rfl
        refine ⟨u ++ w, r, by rw [hs, List.append_assoc], hr, .piece hu ?_ harg, hq', hlen'.trans hlen, .inr hlt⟩
        intro hq d hd
        obtain ⟨u', rfl⟩ : ∃ u', u = c :: u' := by
          cases hu <;> simp_all
        obtain rfl : c = d := by simpa using hd
        exact hopen hq
      · rw [word_stop fun hgo => hopen ((goes_on_iff hc).mp hgo)] at h
        cases h
        push Not at hopen
        obtain ⟨rfl, hblank⟩ := hopen
        exact ⟨[], c :: s, rfl, rfl, .blank hblank, .inr rfl, rfl, .inl rfl⟩

lemma word_of_arg (argv : Args) (h : Arg q w r) (h0 : 0 ∉ w ++ r) (hw : w = [] ∨ argc < argv.length) :
    ∃ q' argv', word argc q argv (w ++ r ++ [0]) = some (q', argv', r ++ [0]) ∧ (r = [] ∨ q' = false) ∧
      argv'.length = argv.length := by
  induction h generalizing argv with
  | last q => exact ⟨q, argv, word_stop (by simp), .inl rfl, rfl⟩
  | @blank c r hblank =>
    have hc : c ≠ 0 := fun heq => h0 (heq ▸ List.mem_cons_self)
    refine ⟨false, argv, word_stop fun hgo => ?_, .inr rfl, rfl⟩
    exact (goes_on_iff hc).mp hgo rfl hblank
  | @piece q q₁ u w r hu hopen harg ih =>
    obtain ⟨d, hturn⟩ := hu.turn_append (w ++ r ++ [0])
    obtain ⟨c, u', rfl⟩ := List.exists_cons_of_ne_nil hu.ne_nil
    have hlt := hw.resolve_left (by simp)
    have hc : c ≠ 0 := fun heq => h0 (by simp [heq])
    have hrest : 0 ∉ w ++ r := by
      intro hmem
      apply h0
      rw [List.append_assoc]
      exact List.mem_append_right _ hmem
    obtain ⟨q', argv', hrun, hq', hlen⟩ := ih (argv.modify argc fun arg => arg ++ [d]) hrest
      (.inr (by rwa [List.length_modify]))
    refine ⟨q', argv', ?_, hq', hlen.trans (List.length_modify ..)⟩
    rw [List.cons_append, List.cons_append, List.cons_append, word_turn ((goes_on_iff hc).mpr fun hq => hopen hq c rfl)]
    simp only [List.cons_append, List.append_assoc] at hturn hrun ⊢
    rw [hturn, Option.bind_some, addTo_eq hlt, Option.bind_some]
    exact hrun

end Word

section Split

variable {argc left n : ℕ} {q : Bool} {c : UInt8} {argv : Args} {s : List UInt8}

lemma dropWhile_zero (s : List UInt8) : (s ++ [0]).dropWhile isBlank = s.dropWhile isBlank ++ [0] := by
  induction s with
  | nil => rfl
  | cons c s ih =>
    rw [List.cons_append, List.dropWhile_cons, List.dropWhile_cons]
    split_ifs
    · exact ih
    · rfl

lemma splitFrom_blank (hs : ∀ c ∈ s, isBlank c) (left argc : ℕ) (q : Bool) (argv : Args) :
    splitFrom (left + 1) argc q argv (s ++ [0]) = some (argc, argv) := by
  cases s with
  | nil => simp [splitFrom]
  | cons c s =>
    rw [List.cons_append, splitFrom]
    split_ifs
    · rfl
    · rw [← List.cons_append, dropWhile_zero, List.dropWhile_eq_nil_iff.mpr hs]
      rfl

lemma splitFrom_word (left argc : ℕ) (q : Bool) (argv : Args) {b t : List UInt8} (h0 : 0 ∉ b ++ c :: t) (hb : ∀ d ∈ b, isBlank d) (hc : ¬isBlank c) :
    splitFrom (left + 1) argc q argv (b ++ c :: t ++ [0]) =
      (word argc q argv (c :: t ++ [0])).bind fun x => splitFrom left (argc + 1) x.1 x.2.1 x.2.2 := by
  have hdrop : (b ++ c :: t ++ [0]).dropWhile isBlank = c :: (t ++ [0]) := by
    rw [dropWhile_zero, List.dropWhile_append_of_pos hb, List.dropWhile_cons_of_neg hc, List.cons_append]
  have hc0 : c ≠ 0 := fun heq => h0 (by simp [heq])
  obtain ⟨d, u, hdu⟩ := List.exists_cons_of_ne_nil (l := b ++ c :: t ++ [0]) (by simp)
  have hd : d ≠ 0 := by
    rintro rfl
    cases b with
    | nil => simp_all
    | cons d' b => simp_all
  rw [hdu, splitFrom, if_neg hd, ← hdu, hdrop]
  dsimp only
  rw [if_neg hc0, List.cons_append]
  cases word argc q argv (c :: (t ++ [0])) <;> rfl

lemma splitFrom_of_words (h : Words left s n) (h0 : 0 ∉ s) (hq : q = false ∨ s = []) (hroom : argc + n ≤ argv.length) :
    (splitFrom left argc q argv (s ++ [0])).isSome := by
  induction h generalizing argc q argv with
  | enough s => rfl
  | none hblank =>
    rw [splitFrom_blank hblank]
    rfl
  | @word left n b w r hblank hfirst harg _ ih =>
    obtain ⟨c, hcw, hc⟩ := hfirst
    obtain ⟨w, rfl⟩ : ∃ w', w = c :: w' := ⟨w.tail, (List.cons_head?_tail hcw).symm⟩
    obtain rfl := hq.resolve_right (by simp)
    have hrest : 0 ∉ c :: w ++ r := fun hmem => h0 (List.mem_append_right b hmem)
    obtain ⟨q', argv', hrun, hq', hlen⟩ := word_of_arg argv harg hrest (.inr (show argc < argv.length by omega))
    rw [List.cons_append] at h0
    rw [List.cons_append, splitFrom_word left argc false argv h0 hblank hc, ← List.cons_append, hrun, Option.bind_some]
    refine ih ?_ hq'.symm (by dsimp only; omega)
    exact fun hmem => hrest (List.mem_append_right _ hmem)

lemma words_of_splitFrom (h : (splitFrom left argc q argv (s ++ [0])).isSome) (h0 : 0 ∉ s) (hq : q = false ∨ s = [])
    (hargc : argc ≤ argv.length) : ∃ n, Words left s n ∧ argc + n ≤ argv.length := by
  induction left generalizing argc q argv s with
  | zero => exact ⟨0, .enough s, hargc⟩
  | succ left ih =>
    by_cases hblank : ∀ c ∈ s, isBlank c
    · exact ⟨0, .none hblank, hargc⟩
    obtain ⟨c, t, hdrop⟩ := List.exists_cons_of_ne_nil fun hnil => hblank (List.dropWhile_eq_nil_iff.mp hnil)
    have hs : s = s.takeWhile isBlank ++ c :: t := by
      rw [← hdrop, List.takeWhile_append_dropWhile]
    have hb : ∀ d ∈ s.takeWhile isBlank, isBlank d := fun d hd => List.mem_takeWhile_imp hd
    have hc : ¬isBlank c := by
      have hhead := List.head?_dropWhile_not isBlank s
      simpa [hdrop] using hhead
    generalize s.takeWhile isBlank = b at hs hb
    subst hs
    obtain rfl := hq.resolve_right (by simp)
    rw [splitFrom_word left argc false argv h0 hb hc, Option.isSome_iff_exists] at h
    obtain ⟨res, h⟩ := h
    obtain ⟨⟨q', argv', rest⟩, hword, h⟩ := Option.bind_eq_some_iff.mp h
    have hrest : 0 ∉ c :: t := fun hmem => h0 (List.mem_append_right b hmem)
    obtain ⟨w, r, hwr, rfl, harg, hq', hlen, hlt⟩ := word_some hrest hword
    have hw : ∃ c ∈ w.head?, ¬isBlank c := by
      cases harg with
      | last q => cases hwr
      | blank hblank =>
        obtain rfl := (List.cons.inj hwr).1
        exact absurd hblank hc
      | @piece q q' u w r hu hopen harg =>
        obtain ⟨d, u', rfl⟩ := List.exists_cons_of_ne_nil hu.ne_nil
        exact ⟨d, rfl, hopen rfl d rfl⟩
    dsimp only at h
    have hlt' := hlt.resolve_left fun hnil => by simp [hnil] at hw
    rw [hwr, List.mem_append, not_or] at hrest
    obtain ⟨n, hwords, hroom⟩ := ih (by rw [h]; rfl) hrest.2 hq'.symm (by omega)
    refine ⟨n + 1, ?_, by omega⟩
    rw [hwr]
    exact .word hb hw harg hwords

theorem split_isSome_iff (h0 : 0 ∉ s) (argvArray : Args) :
    (split s argvArray).isSome ↔ ∃ n, Words MaxArgC s n ∧ n ≤ argvArray.length := by
  constructor
  · intro h
    obtain ⟨n, hwords, hroom⟩ := words_of_splitFrom h h0 (.inl rfl) (Nat.zero_le _)
    exact ⟨n, hwords, by omega⟩
  · rintro ⟨n, hwords, hroom⟩
    exact splitFrom_of_words hwords h0 (.inl rfl) (by omega)

theorem split_of_two : (split [97, 32, 98] [[], []]).isSome := by
  have hlast : Words 18 [] 0 := .none (by simp)
  have hb : Words 19 ([32] ++ (([98] ++ []) ++ [])) 1 :=
    .word (by simp [isBlank]) ⟨98, rfl, by decide⟩ (.piece (.plain (by decide) (by decide)) (by simp [isBlank]) (.last false)) hlast
  have ha : Words 20 ([] ++ (([97] ++ []) ++ [32, 98])) 2 :=
    .word (by simp) ⟨97, rfl, by decide⟩ (.piece (.plain (by decide) (by decide)) (by simp [isBlank]) (.blank (by decide))) hb
  exact (split_isSome_iff (by decide) _).mpr ⟨2, ha, le_rfl⟩

theorem split_beyond : split [97, 32, 98, 32, 99, 32, 100, 32, 101, 32, 102] [[], [], [], [], []] = none ∧
    split [97, 39] [[], [], [], [], []] = none := by
  simp [split, MaxArgC, splitFrom, isBlank, word, turn, addTo]

end Split

end Xframe.Comserv.ArgSplit
