import Xframe.Comserv.JsonGrammar

/-! `JSON::Parse` accepts exactly the texts of the grammar, and with the values that they stand for. -/

namespace Xframe.Comserv.Json

open Xframe.Lib Xframe.Lib.Act

variable {δ : Type} {d : Double δ} {data rest t w : List ℤ} {n m : ℕ} {c : ℤ} {v : JSONValue δ}

lemma SkipWhitespace_of (hw : Spaces w) : SkipWhitespace (w ++ data) = SkipWhitespace data := by
  rw [SkipWhitespace, SkipWhitespace, List.dropWhile_append_of_pos hw]

lemma wantMore_of (hw : Spaces w) (hc : isSpace c = false) : wantMore (w ++ c :: rest) = some (.done (), c :: rest) := by
  have hskip : SkipWhitespace (w ++ c :: rest) = some (.done true, c :: rest) := by
    rw [SkipWhitespace_of hw, SkipWhitespace, List.dropWhile_cons_of_neg (by simp [hc])]
    rfl
  rw [wantMore, bind_done hskip]
  rfl

lemma SkipWhitespace_split (data : List ℤ) : ∃ w, Spaces w ∧ data = w ++ data.dropWhile isSpace :=
  ⟨data.takeWhile isSpace, fun _ hc => List.mem_takeWhile_imp hc, List.takeWhile_append_dropWhile.symm⟩

lemma wantMore_done (h : wantMore data = some (.done (), rest)) :
    ∃ w c more, Spaces w ∧ isSpace c = false ∧ rest = c :: more ∧ data = w ++ rest := by
  obtain ⟨w, hw, hdata⟩ := SkipWhitespace_split data
  have hfirst := List.head?_dropWhile_not isSpace data
  rw [wantMore, bind_apply, andThen, SkipWhitespace] at h
  cases hu : data.dropWhile isSpace with
  | nil =>
    rw [hu] at h
    cases h
  | cons c more =>
    rw [hu] at h hdata hfirst
    cases h
    exact ⟨w, c, more, hw, hfirst, rfl, hdata⟩

lemma SkipWhitespace_end : (∃ rest, SkipWhitespace data = some (.done false, rest)) ↔ Spaces data := by
  obtain ⟨w, hw, hdata⟩ := SkipWhitespace_split data
  constructor
  · rintro ⟨rest, h⟩
    rw [SkipWhitespace] at h
    cases hu : data.dropWhile isSpace with
    | nil =>
      rw [hdata, hu, List.append_nil]
      exact hw
    | cons c more =>
      rw [hu] at h
      cases h
  · intro hspaces
    refine ⟨[], ?_⟩
    rw [SkipWhitespace, List.dropWhile_eq_nil_iff.mpr hspaces]
    rfl

def Sound (d : Double δ) (parse : Scan (JSONValue δ)) : Prop :=
  ∀ data v rest, parse data = some (.done v, rest) → ∃ t, data = t ++ rest ∧ Denotes d t (.value v)

lemma wantColon_done (h : wantColon data = some (.done (), rest)) : data = 58 :: rest := by
  rw [wantColon, current_bind] at h
  cases data with
  | nil => cases h
  | cons c data =>
    rw [next_bind, List.headD_cons] at h
    split at h
    · next hc =>
      obtain ⟨-, rfl⟩ := pure_eq_done h
      rw [hc]
    · cases h

variable {parse : Scan (JSONValue δ)} {object o : JSONObject δ} {array : List (JSONValue δ)}

lemma parseMember_done (hparse : Sound d parse) (h : parseMember parse n object data = some (.done o, rest)) :
    ∃ q k name w₁ w₂ t v, data = q :: k ++ 34 :: w₁ ++ 58 :: w₂ ++ t ++ rest ∧ Chars k name ∧ Spaces w₁ ∧ Spaces w₂ ∧
      Denotes d t (.value v) ∧ o = insert name v object := by
  rw [parseMember] at h
  obtain ⟨_, _, hnext, h₁⟩ := bind_eq_done h
  obtain ⟨name, _, hname, h₂⟩ := bind_eq_done h₁
  obtain ⟨_, _, hmore, h₃⟩ := bind_eq_done h₂
  obtain ⟨_, _, hcolon, h₄⟩ := bind_eq_done h₃
  obtain ⟨_, _, hmore', h₅⟩ := bind_eq_done h₄
  obtain ⟨v, _, hvalue, h₆⟩ := bind_eq_done h₅
  obtain ⟨rfl, rfl⟩ := pure_eq_done h₆
  obtain ⟨q, rfl⟩ := next_done hnext
  obtain ⟨k, _, rfl, hk, rfl⟩ := ExtractString_done hname
  obtain ⟨w₁, _, _, hw₁, -, -, rfl⟩ := wantMore_done hmore
  obtain rfl := wantColon_done hcolon
  obtain ⟨w₂, _, _, hw₂, -, -, rfl⟩ := wantMore_done hmore'
  obtain ⟨t, rfl, ht⟩ := hparse _ _ _ hvalue
  exact ⟨q, k, _, w₁, w₂, t, v, by simp, hk, hw₁, hw₂, ht, by simp⟩

lemma parseArray_done (hparse : Sound d parse) (h : parseArray parse n array data = some (.done v, rest)) :
    (array = [] ∧ v = .Array [] ∧ ∃ w, Spaces w ∧ data = w ++ 93 :: rest) ∨
      ∃ t vs, data = t ++ 93 :: rest ∧ Denotes d t (.elements vs) ∧ v = .Array (array ++ vs) := by
  induction n generalizing array data with
  | zero => cases h
  | succ n ih =>
    rw [parseArray] at h
    obtain ⟨_, _, hmore, h₁⟩ := bind_eq_done h
    obtain ⟨w, c, more, hw, -, rfl, rfl⟩ := wantMore_done hmore
    rw [current_bind, List.headD_cons] at h₁
    split at h₁
    · next hempty =>
      obtain ⟨harray, rfl⟩ := hempty
      rw [next_bind] at h₁
      obtain ⟨rfl, rfl⟩ := pure_eq_done h₁
      obtain rfl := List.isEmpty_iff.mp harray
      exact Or.inl ⟨rfl, rfl, w, hw, rfl⟩
    · obtain ⟨u, _, hvalue, h₂⟩ := bind_eq_done h₁
      obtain ⟨_, _, hmore', h₃⟩ := bind_eq_done h₂
      obtain ⟨w', c', more', hw', -, rfl, rfl⟩ := wantMore_done hmore'
      obtain ⟨t, hsplit, ht⟩ := hparse _ _ _ hvalue
      rw [current_bind, List.headD_cons] at h₃
      refine Or.inr ?_
      rw [hsplit]
      split at h₃
      · next hclose =>
        subst hclose
        rw [next_bind] at h₃
        obtain ⟨rfl, rfl⟩ := pure_eq_done h₃
        exact ⟨w ++ t ++ w', [u], by simp, .element hw ht hw', rfl⟩
      · split at h₃
        · next hcomma =>
          subst hcomma
          rw [next_bind] at h₃
          rcases ih h₃ with ⟨hnil, -⟩ | ⟨t', vs, rfl, hvs, rfl⟩
          · simp at hnil
          · exact ⟨w ++ t ++ w' ++ 44 :: t', u :: vs, by simp, .elements hw ht hw' hvs, by simp⟩
        · cases h₃

lemma insert_ne_nil (name : List ℤ) (v : JSONValue δ) (object : JSONObject δ) : insert name v object ≠ [] := by
  cases object with
  | nil => simp [insert]
  | cons m object =>
    rw [insert]
    split_ifs <;> simp

lemma parseObject_done (hparse : Sound d parse) (h : parseObject parse n object data = some (.done v, rest)) :
    (object = [] ∧ v = .Object [] ∧ ∃ w, Spaces w ∧ data = w ++ 125 :: rest) ∨
      ∃ t ms, data = t ++ 125 :: rest ∧ Denotes d t (.members object.isEmpty ms) ∧ v = .Object (insertAll ms object) := by
  induction n generalizing object data with
  | zero => cases h
  | succ n ih =>
    rw [parseObject] at h
    obtain ⟨_, _, hmore, h₁⟩ := bind_eq_done h
    obtain ⟨w, c, more, hw, hc, rfl, rfl⟩ := wantMore_done hmore
    rw [current_bind, List.headD_cons] at h₁
    split at h₁
    · next hempty =>
      obtain ⟨hobject, rfl⟩ := hempty
      rw [next_bind] at h₁
      obtain ⟨rfl, rfl⟩ := pure_eq_done h₁
      obtain rfl := List.isEmpty_iff.mp hobject
      exact Or.inl ⟨rfl, rfl, w, hw, rfl⟩
    · next hfirst =>
      obtain ⟨o, _, hmember, h₂⟩ := bind_eq_done h₁
      obtain ⟨_, _, hmore', h₃⟩ := bind_eq_done h₂
      obtain ⟨w₃, c', more', hw₃, -, rfl, rfl⟩ := wantMore_done hmore'
      obtain ⟨q, k, name, w₁, w₂, t, u, hsplit, hk, hw₁, hw₂, ht, rfl⟩ := parseMember_done hparse hmember
      obtain rfl : c = q := (List.cons.inj hsplit).1
      have hq : object.isEmpty = true → c ≠ 125 := fun he hc => hfirst ⟨he, hc⟩
      rw [current_bind, List.headD_cons] at h₃
      refine Or.inr ?_
      rw [hsplit]
      split at h₃
      · next hclose =>
        subst hclose
        rw [next_bind] at h₃
        obtain ⟨rfl, rfl⟩ := pure_eq_done h₃
        exact ⟨_, [(name, u)], by simp, .member hw hc hq hk hw₁ hw₂ ht hw₃, rfl⟩
      · split at h₃
        · next hcomma =>
          subst hcomma
          rw [next_bind] at h₃
          rcases ih h₃ with ⟨hnil, -⟩ | ⟨t', ms, rfl, hms, rfl⟩
          · exact absurd hnil (insert_ne_nil _ _ _)
          · rw [List.isEmpty_eq_false_iff.mpr (insert_ne_nil _ _ _)] at hms
            exact ⟨_, (name, u) :: ms, by simp, .members hw hc hq hk hw₁ hw₂ ht hw₃ hms, rfl⟩
        · cases h₃

lemma skip_done {k : ℕ} (h : skip k data = some (.done (), rest)) : rest = data.drop k ∧ k ≤ data.length := by
  induction k generalizing data with
  | zero =>
    obtain ⟨-, rfl⟩ := pure_eq_done h
    exact ⟨rfl, Nat.zero_le _⟩
  | succ k ih =>
    obtain ⟨_, _, hnext, h₁⟩ := bind_eq_done h
    obtain ⟨c, rfl⟩ := next_done hnext
    obtain ⟨rfl, hk⟩ := ih h₁
    exact ⟨rfl, Nat.succ_le_succ hk⟩

lemma isWord_iff {word : List ℤ} : isWord word data = true ↔ (data.take word.length).map towlower = word := by
  rw [isWord, Bool.and_eq_true, decide_eq_true_eq, and_iff_right_of_imp]
  intro h
  have hlen := congrArg List.length h
  rw [List.length_map, List.length_take] at hlen
  rw [simplejson_wcsnlen, decide_eq_true_eq]
  omega

lemma JSONValue.Parse_done : Sound d (JSONValue.Parse d n) := by
  induction n with
  | zero =>
    intro data v rest h
    cases h
  | succ n ih =>
    intro data v rest h
    rw [JSONValue.Parse, get_bind, current_bind] at h
    split at h
    · next hc =>
      obtain ⟨_, _, hnext, h₁⟩ := bind_eq_done h
      obtain ⟨s, _, hs, h₂⟩ := bind_eq_done h₁
      obtain ⟨rfl, rfl⟩ := pure_eq_done h₂
      obtain ⟨c, rfl⟩ := next_done hnext
      obtain rfl : c = 34 := hc
      obtain ⟨t, s', rfl, ht, rfl⟩ := ExtractString_done hs
      exact ⟨34 :: t ++ [34], by simp, .string ht⟩
    · split at h
      · next hword =>
        obtain ⟨_, _, hskip, h₁⟩ := bind_eq_done h
        obtain ⟨rfl, rfl⟩ := pure_eq_done h₁
        obtain ⟨rfl, -⟩ := skip_done hskip
        refine ⟨_, (List.take_append_drop _ _).symm, ?_⟩
        cases htrue : isWord wordTrue data with
        | true => exact .trueWord (isWord_iff.mp htrue)
        | false =>
          rw [htrue] at hword
          exact .falseWord (isWord_iff.mp (hword.resolve_left Bool.false_ne_true))
      · split at h
        · next hword =>
          obtain ⟨_, _, hskip, h₁⟩ := bind_eq_done h
          obtain ⟨rfl, rfl⟩ := pure_eq_done h₁
          obtain ⟨rfl, -⟩ := skip_done hskip
          exact ⟨_, (List.take_append_drop _ _).symm, .nullWord (isWord_iff.mp hword)⟩
        · split at h
          · obtain ⟨x, _, hx, h₁⟩ := bind_eq_done h
            obtain ⟨rfl, rfl⟩ := pure_eq_done h₁
            obtain ⟨t, rfl, ht⟩ := ParseNumber_done hx
            exact ⟨t, rfl, .number ht⟩
          · split at h
            · next hc =>
              obtain ⟨_, _, hnext, h₁⟩ := bind_eq_done h
              obtain ⟨c, rfl⟩ := next_done hnext
              obtain rfl : c = 123 := hc
              rcases parseObject_done ih h₁ with ⟨-, rfl, w, hw, rfl⟩ | ⟨t, ms, rfl, hms, rfl⟩
              · exact ⟨123 :: w ++ [125], by simp, .emptyObject hw⟩
              · exact ⟨123 :: t ++ [125], by simp, .object hms⟩
            · split at h
              · next hc =>
                obtain ⟨_, _, hnext, h₁⟩ := bind_eq_done h
                obtain ⟨c, rfl⟩ := next_done hnext
                obtain rfl : c = 91 := hc
                rcases parseArray_done ih h₁ with ⟨-, rfl, w, hw, rfl⟩ | ⟨t, vs, rfl, hvs, rfl⟩
                · exact ⟨91 :: w ++ [93], by simp, .emptyArray hw⟩
                · exact ⟨91 :: t ++ [93], by simp, .array hvs⟩
              · cases h

lemma follow_nil : Follow [] := ⟨rfl, by decide, by decide⟩

lemma follow_cons (hc : isSpace c = true ∨ c = 44 ∨ c = 93 ∨ c = 125) : Follow (c :: rest) := by
  rw [isSpace, decide_eq_true_eq] at hc
  refine ⟨?_, ?_, ?_⟩
  · rw [List.headD_cons, isDigit, decide_eq_false_iff_not]
    omega
  · rw [List.headD_cons]
    omega
  · rw [List.headD_cons]
    omega

lemma follow_of (hw : Spaces w) (hc : c = 44 ∨ c = 93 ∨ c = 125) : Follow (w ++ c :: rest) := by
  cases w with
  | nil => exact follow_cons (Or.inr hc)
  | cons b w => exact follow_cons (Or.inl (hw b (List.mem_cons_self ..)))

lemma follow_spaces (hw : Spaces w) : Follow w := by
  cases w with
  | nil => exact follow_nil
  | cons b w => exact follow_cons (Or.inl (hw b (List.mem_cons_self ..)))

lemma towlower_letter {x : ℤ} (h : towlower c = x) (hx : 97 ≤ x ∧ x ≤ 122) : 65 ≤ c ∧ c ≤ 90 ∨ 97 ≤ c := by
  rw [towlower] at h
  split at h <;> omega

lemma word_cons {x : ℤ} {word : List ℤ} (h : t.map towlower = x :: word) :
    ∃ c u, t = c :: u ∧ towlower c = x ∧ u.map towlower = word := by
  cases t with
  | nil => cases h
  | cons c u =>
    obtain ⟨hc, hu⟩ := List.cons.inj h
    exact ⟨c, u, rfl, hc, hu⟩

lemma Number.head {x : δ} (h : Number d t x) : ∃ c u, t = c :: u ∧ (c = 45 ∨ isDigit c = true) := by
  cases h with
  | plus ht _ _ =>
    obtain ⟨c, u, rfl, hc⟩ := ht.head
    exact ⟨c, _, rfl, Or.inr hc⟩
  | minus => exact ⟨45, _, rfl, Or.inl rfl⟩

lemma Denotes.head (h : Denotes d t (.value v)) : ∃ c u, t = c :: u ∧ isSpace c = false ∧ c ≠ 93 := by
  have letter : ∀ {c x : ℤ}, towlower c = x → 97 ≤ x ∧ x ≤ 122 → isSpace c = false ∧ c ≠ 93 := by
    intro c x hc hx
    have := towlower_letter hc hx
    rw [isSpace, decide_eq_false_iff_not]
    omega
  cases h with
  | string => exact ⟨34, _, rfl, rfl, by decide⟩
  | trueWord ht =>
    obtain ⟨c, u, rfl, hc, -⟩ := word_cons ht
    exact ⟨c, u, rfl, letter hc (by decide)⟩
  | falseWord ht =>
    obtain ⟨c, u, rfl, hc, -⟩ := word_cons ht
    exact ⟨c, u, rfl, letter hc (by decide)⟩
  | nullWord ht =>
    obtain ⟨c, u, rfl, hc, -⟩ := word_cons ht
    exact ⟨c, u, rfl, letter hc (by decide)⟩
  | number ht =>
    obtain ⟨c, u, rfl, hc⟩ := ht.head
    refine ⟨c, u, rfl, ?_⟩
    rw [isDigit, decide_eq_true_eq] at hc
    rw [isSpace, decide_eq_false_iff_not]
    omega
  | emptyArray => exact ⟨91, _, rfl, rfl, by decide⟩
  | array => exact ⟨91, _, rfl, rfl, by decide⟩
  | emptyObject => exact ⟨123, _, rfl, rfl, by decide⟩
  | object => exact ⟨123, _, rfl, rfl, by decide⟩

def Parses (d : Double δ) (t : List ℤ) : Item δ → Prop
  | .value v => ∃ m, ∀ n, m ≤ n → ∀ rest, Follow rest → JSONValue.Parse d n (t ++ rest) = some (.done v, rest)
  | .elements vs => ∃ m, ∀ n, m ≤ n → ∀ k, m ≤ k → ∀ array rest,
    parseArray (JSONValue.Parse d n) k array (t ++ 93 :: rest) = some (.done (.Array (array ++ vs)), rest)
  | .members first ms => ∃ m, ∀ n, m ≤ n → ∀ k, m ≤ k → ∀ object rest, (object.isEmpty = true → first = true) →
    parseObject (JSONValue.Parse d n) k object (t ++ 125 :: rest) = some (.done (.Object (insertAll ms object)), rest)

lemma isWord_other {x : ℤ} {word : List ℤ} (h : towlower c ≠ x) : isWord (x :: word) (c :: data) = false := by
  rw [Bool.eq_false_iff]
  intro hword
  exact h (List.cons.inj (isWord_iff.mp hword)).1

lemma isWord_of {word : List ℤ} (h : t.map towlower = word) (rest : List ℤ) : isWord word (t ++ rest) = true := by
  have hlen : t.length = word.length := by rw [← h, List.length_map]
  rw [isWord_iff, ← hlen, List.take_left, h]

lemma skip_of (t rest : List ℤ) : skip t.length (t ++ rest) = some (.done (), rest) := by
  induction t with
  | nil => rfl
  | cons c t ih => exact ih

lemma parses_string {s : List ℤ} (h : Chars t s) : Parses d (34 :: t ++ [34]) (.value (.String s)) := by
  refine ⟨s.length + 2, fun n hn rest _ => ?_⟩
  obtain ⟨n, rfl⟩ := Nat.exists_eq_succ_of_ne_zero (n := n) (by omega)
  have hs : ExtractString n [] (t ++ 34 :: rest) = some (.done ([] ++ s), rest) := ExtractString_of h [] (by omega)
  rw [JSONValue.Parse, get_bind, current_bind, List.append_assoc, List.cons_append, List.headD_cons, if_pos rfl,
    next_bind]
  exact bind_done hs _

lemma parse_true (h : t.map towlower = wordTrue) : JSONValue.Parse d (n + 1) (t ++ rest) = some (.done (.Bool true), rest) := by
  have htrue := isWord_of h rest
  have hskip : skip 4 (t ++ rest) = some (.done (), rest) := by
    have hlen : t.length = 4 := by rw [← List.length_map towlower, h]; rfl
    rw [← hlen]
    exact skip_of t rest
  obtain ⟨c, u, rfl, hc, -⟩ := word_cons h
  have hquote : c ≠ 34 := by
    rintro rfl
    cases hc
  rw [JSONValue.Parse, get_bind, current_bind, htrue, List.cons_append, List.headD_cons, if_neg hquote,
    if_pos (Or.inl rfl)]
  exact bind_done hskip _

lemma parse_false (h : t.map towlower = wordFalse) :
    JSONValue.Parse d (n + 1) (t ++ rest) = some (.done (.Bool false), rest) := by
  have hfalse := isWord_of h rest
  have hskip : skip 5 (t ++ rest) = some (.done (), rest) := by
    have hlen : t.length = 5 := by rw [← List.length_map towlower, h]; rfl
    rw [← hlen]
    exact skip_of t rest
  obtain ⟨c, u, rfl, hc, -⟩ := word_cons h
  have hquote : c ≠ 34 := by
    rintro rfl
    cases hc
  have htrue : isWord wordTrue (c :: u ++ rest) = false := isWord_other (by rw [hc]; decide)
  rw [JSONValue.Parse, get_bind, current_bind, htrue, hfalse, List.cons_append, List.headD_cons, if_neg hquote,
    if_pos (Or.inr rfl)]
  exact bind_done hskip _

lemma parse_null (h : t.map towlower = wordNull) : JSONValue.Parse d (n + 1) (t ++ rest) = some (.done .Null, rest) := by
  have hnull := isWord_of h rest
  have hskip : skip 4 (t ++ rest) = some (.done (), rest) := by
    have hlen : t.length = 4 := by rw [← List.length_map towlower, h]; rfl
    rw [← hlen]
    exact skip_of t rest
  obtain ⟨c, u, rfl, hc, -⟩ := word_cons h
  have hquote : c ≠ 34 := by
    rintro rfl
    cases hc
  have htrue : isWord wordTrue (c :: u ++ rest) = false := isWord_other (by rw [hc]; decide)
  have hfalse : isWord wordFalse (c :: u ++ rest) = false := isWord_other (by rw [hc]; decide)
  rw [JSONValue.Parse, get_bind, current_bind, htrue, hfalse, hnull, List.cons_append, List.headD_cons, if_neg hquote,
    if_neg (by simp), if_pos rfl]
  exact bind_done hskip _

lemma parse_symbol (hc : c < 65 ∨ c = 91 ∨ c = 123) (hquote : c ≠ 34) :
    JSONValue.Parse d (n + 1) (c :: data) =
      (if c = 45 ∨ isDigit c then (ParseNumber d n >>= fun x => pure (.Number x)) (c :: data)
      else if c = 123 then parseObject (JSONValue.Parse d n) n [] data
      else if c = 91 then parseArray (JSONValue.Parse d n) n [] data
      else some (.thrown, c :: data)) := by
  have other : ∀ {x : ℤ} {word : List ℤ}, 97 ≤ x ∧ x ≤ 122 → isWord (x :: word) (c :: data) = false := by
    intro x word hx
    refine isWord_other fun h => ?_
    have := towlower_letter h hx
    rw [towlower] at h
    split at h <;> omega
  have htrue : isWord wordTrue (c :: data) = false := other (by decide)
  have hfalse : isWord wordFalse (c :: data) = false := other (by decide)
  have hnull : isWord wordNull (c :: data) = false := other (by decide)
  rw [JSONValue.Parse, get_bind, current_bind, htrue, hfalse, hnull, List.headD_cons, if_neg hquote, if_neg (by simp),
    if_neg Bool.false_ne_true]
  split_ifs <;> rfl

lemma exists_succ_of_le (h : m + 1 ≤ n) : ∃ k, n = k + 1 ∧ m ≤ k := ⟨n - 1, by omega, by omega⟩

lemma parses_number {x : δ} (h : Number d t x) : Parses d t (.value (.Number x)) := by
  obtain ⟨m, hm⟩ := ParseNumber_of h
  obtain ⟨c, u, rfl, hc⟩ := h.head
  refine ⟨m + 1, fun n hn rest hrest => ?_⟩
  obtain ⟨n, rfl, hle⟩ := exists_succ_of_le hn
  have hnum := hm n hle rest hrest
  have hrange : c < 65 ∧ c ≠ 34 := by
    rw [isDigit, decide_eq_true_eq] at hc
    omega
  rw [List.cons_append] at hnum ⊢
  rw [parse_symbol (Or.inl hrange.1) hrange.2, if_pos hc]
  exact bind_done hnum _

lemma parse_array (h : parseArray (JSONValue.Parse d n) n [] (t ++ 93 :: rest) = some (.done v, rest)) :
    JSONValue.Parse d (n + 1) (91 :: t ++ [93] ++ rest) = some (.done v, rest) := by
  rw [List.append_assoc, List.cons_append, parse_symbol (Or.inr (Or.inl rfl)) (by decide), if_neg (by decide),
    if_neg (by decide), if_pos rfl]
  exact h

lemma parse_object (h : parseObject (JSONValue.Parse d n) n [] (t ++ 125 :: rest) = some (.done v, rest)) :
    JSONValue.Parse d (n + 1) (123 :: t ++ [125] ++ rest) = some (.done v, rest) := by
  rw [List.append_assoc, List.cons_append, parse_symbol (Or.inr (Or.inr rfl)) (by decide), if_neg (by decide),
    if_pos rfl]
  exact h

lemma parses_emptyArray (hw : Spaces w) : Parses d (91 :: w ++ [93]) (.value (.Array [])) := by
  refine ⟨2, fun n hn rest _ => ?_⟩
  obtain ⟨n, rfl, hle⟩ := exists_succ_of_le hn
  obtain ⟨k, rfl, -⟩ := exists_succ_of_le hle
  refine parse_array ?_
  rw [parseArray, bind_done (wantMore_of hw rfl), current_bind]
  rfl

lemma parses_emptyObject (hw : Spaces w) : Parses d (123 :: w ++ [125]) (.value (.Object [])) := by
  refine ⟨2, fun n hn rest _ => ?_⟩
  obtain ⟨n, rfl, hle⟩ := exists_succ_of_le hn
  obtain ⟨k, rfl, -⟩ := exists_succ_of_le hle
  refine parse_object ?_
  rw [parseObject, bind_done (wantMore_of hw rfl), current_bind]
  rfl

lemma parses_array {vs : List (JSONValue δ)} (h : Parses d t (.elements vs)) :
    Parses d (91 :: t ++ [93]) (.value (.Array vs)) := by
  obtain ⟨m, hm⟩ := h
  refine ⟨m + 1, fun n hn rest _ => ?_⟩
  obtain ⟨n, rfl, hle⟩ := exists_succ_of_le hn
  exact parse_array (hm n hle n hle [] rest)

lemma parses_object {ms : List (List ℤ × JSONValue δ)} (h : Parses d t (.members true ms)) :
    Parses d (123 :: t ++ [125]) (.value (.Object (insertAll ms []))) := by
  obtain ⟨m, hm⟩ := h
  refine ⟨m + 1, fun n hn rest _ => ?_⟩
  obtain ⟨n, rfl, hle⟩ := exists_succ_of_le hn
  exact parse_object (hm n hle n hle [] rest fun _ => rfl)

lemma parseArray_round (hw : Spaces w) (ht : Denotes d t (.value v)) {w' : List ℤ} (hw' : Spaces w')
    (hc : c = 44 ∨ c = 93) (hv : ∀ rest, Follow rest → parse (t ++ rest) = some (.done v, rest))
    (array : List (JSONValue δ)) (rest : List ℤ) :
    parseArray parse (n + 1) array (w ++ t ++ w' ++ c :: rest) =
      if c = 93 then some (.done (.Array (array ++ [v])), rest) else parseArray parse n (array ++ [v]) rest := by
  obtain ⟨b, u, rfl, hb, hbracket⟩ := ht.head
  have hfollow : Follow (w' ++ c :: rest) := follow_of hw' (by tauto)
  have hspace : isSpace c = false := by
    rw [isSpace, decide_eq_false_iff_not]
    omega
  have hvalue := hv _ hfollow
  rw [List.append_assoc, List.append_assoc, List.cons_append] at *
  rw [parseArray, bind_done (wantMore_of hw hb), current_bind, List.headD_cons, if_neg (fun h => hbracket h.2),
    bind_done hvalue, bind_done (wantMore_of hw' hspace), current_bind, List.headD_cons]
  rcases hc with rfl | rfl <;> rfl

lemma parses_element (hw : Spaces w) (ht : Denotes d t (.value v)) {w' : List ℤ} (hw' : Spaces w')
    (hv : Parses d t (.value v)) : Parses d (w ++ t ++ w') (.elements [v]) := by
  obtain ⟨m, hm⟩ := hv
  refine ⟨m + 1, fun n hn k hk array rest => ?_⟩
  obtain ⟨k, rfl, -⟩ := exists_succ_of_le hk
  exact parseArray_round hw ht hw' (Or.inr rfl) (hm n (Nat.le_of_succ_le hn)) array rest

lemma parses_elements (hw : Spaces w) (ht : Denotes d t (.value v)) {w' u : List ℤ} {vs : List (JSONValue δ)}
    (hw' : Spaces w') (hv : Parses d t (.value v)) (hu : Parses d u (.elements vs)) :
    Parses d (w ++ t ++ w' ++ 44 :: u) (.elements (v :: vs)) := by
  obtain ⟨m₁, hm₁⟩ := hv
  obtain ⟨m₂, hm₂⟩ := hu
  refine ⟨m₁ + m₂ + 1, fun n hn k hk array rest => ?_⟩
  obtain ⟨k, rfl, hk⟩ := exists_succ_of_le hk
  have hround := parseArray_round (n := k) hw ht hw' (Or.inl rfl) (hm₁ n (by omega)) array (u ++ 93 :: rest)
  rw [List.append_assoc _ _ (93 :: rest), List.cons_append, hround, if_neg (by decide),
    hm₂ n (by omega) k (by omega) (array ++ [v]) rest, List.append_assoc]
  rfl

section Members

variable {q : ℤ} {k name w₁ w₂ w₃ : List ℤ}

structure IsMember (d : Double δ) (first : Bool) (w : List ℤ) (q : ℤ) (k name w₁ w₂ t w₃ : List ℤ) (v : JSONValue δ) :
    Prop where
  before : Spaces w
  quote : isSpace q = false
  brace : first = true → q ≠ 125
  chars : Chars k name
  behindName : Spaces w₁
  behindColon : Spaces w₂
  value : Denotes d t (.value v)
  behind : Spaces w₃

lemma parseMember_of {first : Bool} (h : IsMember d first w q k name w₁ w₂ t w₃ v) (hn : name.length < n)
    (hv : parse (t ++ rest) = some (.done v, rest)) (object : JSONObject δ) :
    parseMember parse n object (q :: k ++ 34 :: w₁ ++ 58 :: w₂ ++ t ++ rest) =
      some (.done (insert name v object), rest) := by
  obtain ⟨b, u, rfl, hb, -⟩ := h.value.head
  have hname : ExtractString n [] (k ++ 34 :: (w₁ ++ 58 :: (w₂ ++ (b :: (u ++ rest))))) =
      some (.done name, w₁ ++ 58 :: (w₂ ++ (b :: (u ++ rest)))) := ExtractString_of h.chars [] hn
  have hcolon : wantColon (58 :: (w₂ ++ (b :: (u ++ rest)))) = some (.done (), w₂ ++ (b :: (u ++ rest))) := rfl
  simp only [List.append_assoc, List.cons_append]
  rw [parseMember, next_bind, bind_done hname, bind_done (wantMore_of h.behindName rfl), bind_done hcolon,
    bind_done (wantMore_of h.behindColon hb)]
  exact bind_done hv _

lemma parseObject_round {object : JSONObject δ} (h : IsMember d object.isEmpty w q k name w₁ w₂ t w₃ v)
    (hn : name.length < n) (hc : c = 44 ∨ c = 125)
    (hv : ∀ rest, Follow rest → parse (t ++ rest) = some (.done v, rest)) (rest : List ℤ) :
    parseObject parse (n + 1) object (w ++ (q :: k ++ 34 :: w₁ ++ 58 :: w₂ ++ t ++ (w₃ ++ c :: rest))) =
      if c = 125 then some (.done (.Object (insert name v object)), rest)
      else parseObject parse n (insert name v object) rest := by
  have hspace : isSpace c = false := by
    rw [isSpace, decide_eq_false_iff_not]
    omega
  have hfollow : Follow (w₃ ++ c :: rest) := follow_of h.behind (by tauto)
  have hmember := parseMember_of h hn (hv _ hfollow) object
  rw [List.cons_append, List.cons_append, List.cons_append, List.cons_append] at *
  rw [parseObject, bind_done (wantMore_of h.before h.quote), current_bind, List.headD_cons,
    if_neg (fun hempty => h.brace hempty.1 hempty.2), bind_done hmember, bind_done (wantMore_of h.behind hspace),
    current_bind, List.headD_cons]
  rcases hc with rfl | rfl <;> rfl

lemma parses_member {first : Bool} (h : IsMember d first w q k name w₁ w₂ t w₃ v) (hv : Parses d t (.value v)) :
    Parses d (w ++ q :: k ++ 34 :: w₁ ++ 58 :: w₂ ++ t ++ w₃) (.members first [(name, v)]) := by
  obtain ⟨m, hm⟩ := hv
  refine ⟨m + name.length + 2, fun n hn i hi object rest hfirst => ?_⟩
  obtain ⟨i, rfl, hle⟩ := exists_succ_of_le hi
  have hround := parseObject_round (n := i) { h with brace := fun he => h.brace (hfirst he) } (by omega) (Or.inr rfl)
    (hm n (by omega)) rest
  rw [if_pos rfl] at hround
  simpa [insertAll] using hround

lemma parses_members {first : Bool} {u : List ℤ} {ms : List (List ℤ × JSONValue δ)}
    (h : IsMember d first w q k name w₁ w₂ t w₃ v) (hv : Parses d t (.value v)) (hu : Parses d u (.members false ms)) :
    Parses d (w ++ q :: k ++ 34 :: w₁ ++ 58 :: w₂ ++ t ++ w₃ ++ 44 :: u) (.members first ((name, v) :: ms)) := by
  obtain ⟨m₁, hm₁⟩ := hv
  obtain ⟨m₂, hm₂⟩ := hu
  refine ⟨m₁ + m₂ + name.length + 2, fun n hn i hi object rest hfirst => ?_⟩
  obtain ⟨i, rfl, hle⟩ := exists_succ_of_le hi
  have hround := parseObject_round (n := i) { h with brace := fun he => h.brace (hfirst he) } (by omega) (Or.inl rfl)
    (hm₁ n (by omega)) (u ++ 125 :: rest)
  have hrest := hm₂ n (by omega) i (by omega) (insert name v object) rest
    fun he => absurd (List.isEmpty_iff.mp he) (insert_ne_nil _ _ _)
  rw [if_neg (by decide), hrest] at hround
  simpa [insertAll] using hround

end Members

theorem Denotes.parses {item : Item δ} (h : Denotes d t item) : Parses d t item := by
  induction h with
  | string h => exact parses_string h
  | trueWord h =>
    refine ⟨1, fun n hn rest _ => ?_⟩
    obtain ⟨n, rfl, -⟩ := exists_succ_of_le hn
    exact parse_true h
  | falseWord h =>
    refine ⟨1, fun n hn rest _ => ?_⟩
    obtain ⟨n, rfl, -⟩ := exists_succ_of_le hn
    exact parse_false h
  | nullWord h =>
    refine ⟨1, fun n hn rest _ => ?_⟩
    obtain ⟨n, rfl, -⟩ := exists_succ_of_le hn
    exact parse_null h
  | number h => exact parses_number h
  | emptyArray hw => exact parses_emptyArray hw
  | array _ ih => exact parses_array ih
  | emptyObject hw => exact parses_emptyObject hw
  | object _ ih => exact parses_object ih
  | element hw ht hw' ih => exact parses_element hw ht hw' ih
  | elements hw ht hw' _ ih ih' => exact parses_elements hw ht hw' ih ih'
  | member hw hq hbrace hk hw₁ hw₂ ht hw₃ ih => exact parses_member ⟨hw, hq, hbrace, hk, hw₁, hw₂, ht, hw₃⟩ ih
  | members hw hq hbrace hk hw₁ hw₂ ht hw₃ _ ih ih' =>
    exact parses_members ⟨hw, hq, hbrace, hk, hw₁, hw₂, ht, hw₃⟩ ih ih'

lemma Accepts.parsed {text : List ℤ} (h : Accepts d text v) :
    ∃ m, ∀ n, m ≤ n → ∃ rest, Parse d n text = some (.done v, rest) := by
  obtain ⟨w, t, w', hw, ht, hw', rfl⟩ := h
  obtain ⟨m, hm⟩ := ht.parses
  obtain ⟨rest, hend⟩ := SkipWhitespace_end.mpr hw'
  obtain ⟨c, u, rfl, hc, -⟩ := ht.head
  refine ⟨m, fun n hn => ⟨rest, ?_⟩⟩
  have hvalue := hm n hn w' (follow_spaces hw')
  rw [List.cons_append] at hvalue
  rw [List.append_assoc, List.cons_append, Parse, bind_done (wantMore_of hw hc), bind_done hvalue, bind_done hend]
  rfl

theorem Parse_iff (d : Double δ) (text : List ℤ) :
    (∀ v, (∃ n rest, Parse d n text = some (.done v, rest)) ↔ Accepts d text v) ∧
      ∀ v v', Accepts d text v → Accepts d text v' → v = v' := by
  refine ⟨fun v => ⟨?_, ?_⟩, ?_⟩
  · rintro ⟨n, rest, h⟩
    obtain ⟨_, _, hmore, h₁⟩ := bind_eq_done h
    obtain ⟨u, _, hvalue, h₂⟩ := bind_eq_done h₁
    obtain ⟨b, _, hskip, h₃⟩ := bind_eq_done h₂
    obtain ⟨w, _, _, hw, -, -, rfl⟩ := wantMore_done hmore
    obtain ⟨t, rfl, ht⟩ := JSONValue.Parse_done _ _ _ hvalue
    cases b with
    | true => cases h₃
    | false =>
      obtain ⟨rfl, rfl⟩ := pure_eq_done h₃
      exact ⟨w, t, _, hw, ht, SkipWhitespace_end.mp ⟨_, hskip⟩, (List.append_assoc ..).symm⟩
  · intro h
    obtain ⟨m, hm⟩ := h.parsed
    obtain ⟨rest, hrest⟩ := hm m le_rfl
    exact ⟨m, rest, hrest⟩
  · intro v v' h h'
    obtain ⟨m, hm⟩ := h.parsed
    obtain ⟨m', hm'⟩ := h'.parsed
    obtain ⟨rest, hrest⟩ := hm (m + m') (Nat.le_add_right ..)
    obtain ⟨rest', hrest'⟩ := hm' (m + m') (Nat.le_add_left ..)
    rw [hrest] at hrest'
    cases hrest'
    rfl

end Xframe.Comserv.Json
