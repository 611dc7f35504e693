import Mathlib.Data.List.TakeWhile
import Xframe.Comserv.Json

/-! The texts that `JSON::Parse` accepts, as a grammar. -/

namespace Xframe.Comserv.Json

open Xframe.Lib Xframe.Lib.Act

variable {δ : Type}

def Spaces (w : List ℤ) : Prop := ∀ c ∈ w, isSpace c

def Digits (t : List ℤ) : Prop := ∀ c ∈ t, isDigit c

/-- What stands between the quotes of a string, and the string. Tabs may stand there as they are. -/
inductive Chars : List ℤ → List ℤ → Prop
  | nil : Chars [] []
  | plain {c t s} : c ≠ 34 → c ≠ 92 → 32 ≤ c ∨ c = 9 → Chars t s → Chars (c :: t) (c :: s)
  | escape {c x t s} : unescape c = some x → Chars t s → Chars (92 :: c :: t) (x :: s)
  | hex {a b c e w x y z t s} : hexDigit a = some w → hexDigit b = some x → hexDigit c = some y → hexDigit e = some z →
      Chars t s → Chars (92 :: 117 :: a :: b :: c :: e :: t) ((((w * 16 + x) * 16 + y) * 16 + z) :: s)

section Numbers

variable (d : Double δ)

inductive Whole : List ℤ → δ → Prop
  | zero : Whole [48] (d.ofInt 0)
  | digits {c t} : 49 ≤ c ∧ c ≤ 57 → Digits t → Whole (c :: t) (intValue d (c :: t))

inductive Decimals (number : δ) : List ℤ → δ → Prop
  | none : Decimals number [] number
  | some {t} : t ≠ [] → Digits t → Decimals number (46 :: t) (d.add number (decimalValue d t))

inductive Exponent (number : δ) : List ℤ → δ → Prop
  | none : Exponent number [] number
  | some {e sign t n x} : e = 69 ∨ e = 101 → sign = [] ∨ sign = [43] ∨ sign = [45] → t ≠ [] → Digits t →
      scale d (sign = [45]) (intValue d t) n (d.ofInt 0) number = some x → Exponent number (e :: sign ++ t) x

inductive Number : List ℤ → δ → Prop
  | plus {t u v x y z} : Whole d t x → Decimals d x u y → Exponent d y v z → Number (t ++ u ++ v) z
  | minus {t u v x y z} : Whole d t x → Decimals d x u y → Exponent d y v z →
      Number (45 :: (t ++ u ++ v)) (d.mul z (d.ofInt (-1)))

end Numbers

inductive Item (δ : Type) where
  | value (v : JSONValue δ)
  | elements (vs : List (JSONValue δ))
  | members (first : Bool) (ms : List (List ℤ × JSONValue δ))

def insertAll (ms : List (List ℤ × JSONValue δ)) (object : JSONObject δ) : JSONObject δ :=
  ms.foldl (fun object m => insert m.1 m.2 object) object

/-- The words may be written in capitals, any character may stand for the quote in front of a name, and of two members
with one name the later one counts. -/
inductive Denotes (d : Double δ) : List ℤ → Item δ → Prop
  | string {t s} : Chars t s → Denotes d (34 :: t ++ [34]) (.value (.String s))
  | trueWord {t} : t.map towlower = wordTrue → Denotes d t (.value (.Bool true))
  | falseWord {t} : t.map towlower = wordFalse → Denotes d t (.value (.Bool false))
  | nullWord {t} : t.map towlower = wordNull → Denotes d t (.value .Null)
  | number {t x} : Number d t x → Denotes d t (.value (.Number x))
  | emptyArray {w} : Spaces w → Denotes d (91 :: w ++ [93]) (.value (.Array []))
  | array {t vs} : Denotes d t (.elements vs) → Denotes d (91 :: t ++ [93]) (.value (.Array vs))
  | emptyObject {w} : Spaces w → Denotes d (123 :: w ++ [125]) (.value (.Object []))
  | object {t ms} : Denotes d t (.members true ms) → Denotes d (123 :: t ++ [125]) (.value (.Object (insertAll ms [])))
  | element {w t w' v} : Spaces w → Denotes d t (.value v) → Spaces w' → Denotes d (w ++ t ++ w') (.elements [v])
  | elements {w t w' v u vs} : Spaces w → Denotes d t (.value v) → Spaces w' → Denotes d u (.elements vs) →
      Denotes d (w ++ t ++ w' ++ 44 :: u) (.elements (v :: vs))
  | member {first w q k name w₁ w₂ t w₃ v} : Spaces w → isSpace q = false → (first = .true → q ≠ 125) → Chars k name →
      Spaces w₁ → Spaces w₂ → Denotes d t (.value v) → Spaces w₃ →
      Denotes d (w ++ q :: k ++ 34 :: w₁ ++ 58 :: w₂ ++ t ++ w₃) (.members first [(name, v)])
  | members {first w q k name w₁ w₂ t w₃ v u ms} : Spaces w → isSpace q = false → (first = .true → q ≠ 125) →
      Chars k name → Spaces w₁ → Spaces w₂ → Denotes d t (.value v) → Spaces w₃ → Denotes d u (.members false ms) →
      Denotes d (w ++ q :: k ++ 34 :: w₁ ++ 58 :: w₂ ++ t ++ w₃ ++ 44 :: u) (.members first ((name, v) :: ms))

def Accepts (d : Double δ) (text : List ℤ) (v : JSONValue δ) : Prop :=
  ∃ w t w', Spaces w ∧ Denotes d t (.value v) ∧ Spaces w' ∧ text = w ++ t ++ w'

section Characters

variable {α : Type} {data rest : List ℤ} {c : ℤ} {n : ℕ}

lemma current_bind (f : ℤ → Scan α) : (current >>= f) data = f (data.headD 0) data := rfl

lemma next_bind (f : Unit → Scan α) : (next >>= f) (c :: data) = f () data := rfl

lemma get_bind (f : List ℤ → Scan α) : (get >>= f) data = f data data := rfl

lemma next_done (h : next data = some (.done (), rest)) : ∃ c, data = c :: rest := by
  cases data with
  | nil => cases h
  | cons c data =>
    cases h
    exact ⟨c, rfl⟩

lemma hexChar_done {i : ℕ} {x y : ℤ} (h : hexChar (i + 1) x data = some (.done y, rest)) :
    ∃ a c digit after, data = a :: c :: after ∧ hexDigit c = some digit ∧
      hexChar i (x * 16 + digit) (c :: after) = some (.done y, rest) := by
  rw [hexChar] at h
  obtain ⟨_, u, hnext, hrest⟩ := bind_eq_done h
  obtain ⟨a, rfl⟩ := next_done hnext
  rw [current_bind] at hrest
  cases u with
  | nil => cases hrest
  | cons c after =>
    rw [List.headD_cons] at hrest
    cases hd : hexDigit c with
    | none =>
      rw [hd] at hrest
      cases hrest
    | some digit =>
      rw [hd] at hrest
      exact ⟨a, c, digit, after, rfl, hd, hrest⟩

lemma hexChar_of {a b : ℤ} {digit x : ℤ} {i : ℕ} (h : hexDigit b = some digit) :
    hexChar (i + 1) x (a :: b :: data) = hexChar i (x * 16 + digit) (b :: data) := by
  rw [hexChar, next_bind, current_bind, List.headD_cons, h]

lemma stringChar_done {x : ℤ} (h : stringChar data = some (.done (some x), rest)) (hdata : data ≠ []) :
    ∃ u c after, rest = c :: after ∧ data = u ++ c :: after ∧ ∀ t s, Chars t s → Chars (u ++ c :: t) (x :: s) := by
  cases data with
  | nil => exact absurd rfl hdata
  | cons c data =>
  rw [stringChar, current_bind, List.headD_cons] at h
  split at h
  · next hc =>
    subst hc
    rw [next_bind, current_bind] at h
    cases data with
    | nil =>
      simp [unescape] at h
      cases h
    | cons b data =>
    rw [List.headD_cons] at h
    split at h
    · next hb =>
      subst hb
      rw [get_bind] at h
      split at h
      · obtain ⟨y, u, hhex, h⟩ := bind_eq_done h
        obtain ⟨hy, rfl⟩ := pure_eq_done h
        cases hy
        obtain ⟨_, a₁, x₁, _, hdata₁, h₁, hhex⟩ := hexChar_done hhex
        obtain ⟨_, a₂, x₂, _, hdata₂, h₂, hhex⟩ := hexChar_done hhex
        obtain ⟨_, a₃, x₃, _, hdata₃, h₃, hhex⟩ := hexChar_done hhex
        obtain ⟨_, a₄, x₄, after, hdata₄, h₄, hhex⟩ := hexChar_done hhex
        obtain ⟨rfl, rfl⟩ := pure_eq_done hhex
        cases hdata₁
        cases hdata₂
        cases hdata₃
        cases hdata₄
        refine ⟨[92, 117, a₁, a₂, a₃], a₄, after, rfl, rfl, fun t s hs => ?_⟩
        simpa using Chars.hex h₁ h₂ h₃ h₄ hs
      · cases h
    · cases hy : unescape b with
      | none =>
        rw [hy] at h
        cases h
      | some y =>
        rw [hy] at h
        obtain ⟨hx, rfl⟩ := pure_eq_done h
        cases hx
        exact ⟨[92], b, data, rfl, rfl, fun t s hs => Chars.escape hy hs⟩
  · next hbackslash =>
    split at h
    · cases h
    · next hquote =>
      split at h
      · cases h
      · next hlow =>
        obtain ⟨hx, rfl⟩ := pure_eq_done h
        cases hx
        exact ⟨[], _, data, rfl, rfl, fun t s hs => Chars.plain hquote hbackslash (by omega) hs⟩

lemma stringChar_quote (h : stringChar data = some (.done none, rest)) :
    rest = data ∧ data.headD 0 = 34 := by
  rw [stringChar, current_bind] at h
  split at h
  · next hc =>
    obtain ⟨_, u, hnext, hrest⟩ := bind_eq_done h
    rw [current_bind] at hrest
    split at hrest
    · rw [get_bind] at hrest
      split at hrest
      · obtain ⟨_, _, -, hpure⟩ := bind_eq_done hrest
        cases (pure_eq_done hpure).1
      · cases hrest
    · cases hy : unescape (u.headD 0) with
      | none =>
        rw [hy] at hrest
        cases hrest
      | some y =>
        rw [hy] at hrest
        cases (pure_eq_done hrest).1
  · split at h
    · next hquote => exact ⟨(pure_eq_done h).2.symm, hquote⟩
    · split at h
      · cases h
      · cases (pure_eq_done h).1

lemma ExtractString_nil (n : ℕ) (str : List ℤ) : ExtractString (n + 1) str [] = some (.thrown, []) := rfl

lemma ExtractString_done {str s : List ℤ} (h : ExtractString n str data = some (.done s, rest)) :
    ∃ t s', data = t ++ 34 :: rest ∧ Chars t s' ∧ s = str ++ s' := by
  induction n generalizing str data with
  | zero => cases h
  | succ n ih =>
    by_cases hdata : data = []
    · rw [hdata, ExtractString_nil] at h
      cases h
    · rw [ExtractString, get_bind, if_neg (by simpa using hdata)] at h
      obtain ⟨r, u, hchar, hrest⟩ := bind_eq_done h
      cases r with
      | none =>
        obtain ⟨rfl, hquote⟩ := stringChar_quote hchar
        cases u with
        | nil => exact absurd rfl hdata
        | cons c u =>
          obtain rfl : c = 34 := hquote
          obtain ⟨hs, hu⟩ := pure_eq_done hrest
          exact ⟨[], [], by rw [hu]; rfl, .nil, by rw [List.append_nil, hs]⟩
      | some x =>
        obtain ⟨front, c, after, rfl, hsplit, hmore⟩ := stringChar_done hchar hdata
        obtain ⟨t, s', rfl, hchars, hs⟩ := ih hrest
        refine ⟨front ++ c :: t, x :: s', ?_, hmore t s' hchars, ?_⟩
        · rw [hsplit, List.append_assoc]
          rfl
        · rw [hs, List.append_assoc]
          rfl

lemma stringChar_plain (h₁ : c ≠ 34) (h₂ : c ≠ 92) (h : 32 ≤ c ∨ c = 9) :
    stringChar (c :: data) = some (.done (some c), c :: data) := by
  rw [stringChar, current_bind, List.headD_cons, if_neg h₂, if_neg h₁, if_neg (by omega)]
  rfl

lemma stringChar_escape {x : ℤ} (h : unescape c = some x) :
    stringChar (92 :: c :: data) = some (.done (some x), c :: data) := by
  have hc : c ≠ 117 := by
    rintro rfl
    cases h
  rw [stringChar, current_bind, List.headD_cons, if_pos rfl, next_bind, current_bind, List.headD_cons, if_neg hc, h]
  rfl

lemma stringChar_hex {a b e w x y z : ℤ} (ha : hexDigit a = some w) (hb : hexDigit b = some x)
    (hc : hexDigit c = some y) (he : hexDigit e = some z) :
    stringChar (92 :: 117 :: a :: b :: c :: e :: data) =
      some (.done (some (((w * 16 + x) * 16 + y) * 16 + z)), e :: data) := by
  rw [stringChar, current_bind, List.headD_cons, if_pos rfl, next_bind, current_bind, List.headD_cons, if_pos rfl,
    get_bind, if_pos (by simp [simplejson_wcsnlen])]
  refine bind_done ?_ _
  rw [hexChar_of ha, hexChar_of hb, hexChar_of hc, hexChar_of he, zero_mul, zero_add]
  rfl

lemma ExtractString_char {x : ℤ} {str : List ℤ} (h : stringChar data = some (.done (some x), c :: rest))
    (hdata : data ≠ []) : ExtractString (n + 1) str data = ExtractString n (str ++ [x]) rest := by
  rw [ExtractString, get_bind, if_neg (by simpa using hdata), bind_done h]
  rfl

lemma ExtractString_of {t s : List ℤ} (h : Chars t s) (str : List ℤ) (hn : s.length < n) :
    ExtractString n str (t ++ 34 :: rest) = some (.done (str ++ s), rest) := by
  obtain ⟨n, rfl⟩ := Nat.exists_eq_succ_of_ne_zero (Nat.ne_zero_of_lt hn)
  induction h generalizing n str with
  | nil =>
    rw [List.append_nil]
    rfl
  | plain h₁ h₂ h _ ih =>
    rw [List.length_cons] at hn
    obtain ⟨n, rfl⟩ := Nat.exists_eq_succ_of_ne_zero (n := n) (by omega)
    rw [List.cons_append, ExtractString_char (stringChar_plain h₁ h₂ h) (List.cons_ne_nil _ _), ih _ _ (by omega),
      List.append_assoc]
    rfl
  | escape hx _ ih =>
    rw [List.length_cons] at hn
    obtain ⟨n, rfl⟩ := Nat.exists_eq_succ_of_ne_zero (n := n) (by omega)
    rw [List.cons_append, List.cons_append, ExtractString_char (stringChar_escape hx) (List.cons_ne_nil _ _),
      ih _ _ (by omega), List.append_assoc]
    rfl
  | hex ha hb hc he _ ih =>
    rw [List.length_cons] at hn
    obtain ⟨n, rfl⟩ := Nat.exists_eq_succ_of_ne_zero (n := n) (by omega)
    rw [List.cons_append, List.cons_append, List.cons_append, List.cons_append, List.cons_append, List.cons_append,
      ExtractString_char (stringChar_hex ha hb hc he) (List.cons_ne_nil _ _), ih _ _ (by omega), List.append_assoc]
    rfl

end Characters

section Figures

variable {d : Double δ} {data rest t : List ℤ} {x y number : δ} {n m : ℕ}

structure Follow (rest : List ℤ) : Prop where
  digit : isDigit (rest.headD 0) = false
  point : rest.headD 0 ≠ 46
  expo : rest.headD 0 ≠ 69 ∧ rest.headD 0 ≠ 101

lemma takeWhile_digits (h : Digits t) (hrest : isDigit (rest.headD 0) = false) :
    (t ++ rest).takeWhile isDigit = t ∧ (t ++ rest).dropWhile isDigit = rest := by
  have hnone : rest.takeWhile isDigit = [] ∧ rest.dropWhile isDigit = rest := by
    cases rest with
    | nil => exact ⟨rfl, rfl⟩
    | cons c rest =>
      rw [List.headD_cons] at hrest
      simp [hrest]
  rw [List.takeWhile_append_of_pos h, List.dropWhile_append_of_pos h, hnone.1, hnone.2, List.append_nil]
  exact ⟨rfl, rfl⟩

lemma digits_takeWhile (data : List ℤ) : Digits (data.takeWhile isDigit) := fun _ hc => List.mem_takeWhile_imp hc

lemma takeWhile_ne_nil (h : isDigit (data.headD 0) = true) : data.takeWhile isDigit ≠ [] := by
  cases data with
  | nil => cases h
  | cons c data =>
    rw [List.headD_cons] at h
    simp [h]

lemma wholePart_done (h : wholePart d data = some (.done x, rest)) : ∃ t, data = t ++ rest ∧ Whole d t x := by
  rw [wholePart, current_bind] at h
  split at h
  · next hc =>
    cases data with
    | nil => cases hc
    | cons c data =>
      obtain rfl : c = 48 := hc
      obtain ⟨rfl, rfl⟩ := pure_eq_done h
      exact ⟨[48], rfl, .zero⟩
  · split at h
    · next hc =>
      cases data with
      | nil => simp at hc
      | cons c data =>
        rw [List.headD_cons] at hc
        have hdigit : isDigit c = true := by
          rw [isDigit, decide_eq_true_eq]
          omega
        cases h
        rw [List.takeWhile_cons_of_pos hdigit, List.dropWhile_cons_of_pos hdigit]
        exact ⟨c :: data.takeWhile isDigit, by rw [List.cons_append, List.takeWhile_append_dropWhile],
          .digits hc (digits_takeWhile data)⟩
    · cases h

lemma wholePart_of (h : Whole d t x) (hrest : isDigit (rest.headD 0) = false) :
    wholePart d (t ++ rest) = some (.done x, rest) := by
  cases h with
  | zero => rfl
  | @digits c t hc ht =>
    have hdigits : Digits (c :: t) := by
      intro b hb
      rcases List.mem_cons.mp hb with rfl | hb
      · rw [isDigit, decide_eq_true_eq]
        omega
      · exact ht b hb
    obtain ⟨htake, hdrop⟩ := takeWhile_digits hdigits hrest
    rw [wholePart, current_bind, List.cons_append, List.headD_cons, if_neg (by omega), if_pos hc, ← List.cons_append,
      ParseInt, htake, hdrop]

lemma decimalPart_done (h : decimalPart d number data = some (.done x, rest)) :
    ∃ t, data = t ++ rest ∧ Decimals d number t x := by
  rw [decimalPart, current_bind] at h
  split at h
  · next hc =>
    cases data with
    | nil => cases hc
    | cons c data =>
      obtain rfl : c = 46 := hc
      rw [next_bind, current_bind] at h
      split at h
      · next hdigit =>
        obtain ⟨rfl, rfl⟩ : _ = x ∧ _ = rest := pure_eq_done h
        exact ⟨46 :: data.takeWhile isDigit, by rw [List.cons_append, List.takeWhile_append_dropWhile],
          .some (takeWhile_ne_nil hdigit) (digits_takeWhile data)⟩
      · cases h
  · obtain ⟨rfl, rfl⟩ := pure_eq_done h
    exact ⟨[], rfl, .none⟩

lemma decimalPart_of (h : Decimals d number t x) (hdigit : isDigit (rest.headD 0) = false)
    (hpoint : rest.headD 0 ≠ 46) : decimalPart d number (t ++ rest) = some (.done x, rest) := by
  cases h with
  | none =>
    rw [decimalPart, current_bind, List.nil_append, if_neg hpoint]
    rfl
  | @some t ht hdigits =>
    obtain ⟨htake, hdrop⟩ := takeWhile_digits hdigits hdigit
    have hfirst : isDigit ((t ++ rest).headD 0) = true := by
      cases t with
      | nil => exact absurd rfl ht
      | cons c t => exact hdigits c (List.mem_cons_self ..)
    rw [decimalPart, current_bind, List.cons_append, List.headD_cons, if_pos rfl, next_bind, current_bind,
      if_pos hfirst]
    refine bind_done (t := rest) (a := decimalValue d t) ?_ _
    rw [ParseDecimal, htake, hdrop]

lemma scale_mono {neg_expo : Bool} {expo i : δ} (h : scale d neg_expo expo n i number = some x) (hm : n ≤ m) :
    scale d neg_expo expo m i number = some x := by
  induction n generalizing m i number with
  | zero => cases h
  | succ n ih =>
    obtain ⟨m, rfl⟩ := Nat.exists_eq_succ_of_ne_zero (Nat.ne_zero_of_lt hm)
    rw [scale] at h ⊢
    split at h
    · next hi =>
      rw [if_pos hi]
      exact ih h (Nat.le_of_succ_le_succ hm)
    · next hi =>
      rw [if_neg hi]
      exact h

lemma expoSign_done {b : Bool} (h : expoSign data = some (.done b, rest)) :
    ∃ sign, data = sign ++ rest ∧ (sign = [] ∨ sign = [43] ∨ sign = [45]) ∧ b = decide (sign = [45]) := by
  rw [expoSign, current_bind] at h
  split at h
  · next hc =>
    cases data with
    | nil => simp at hc
    | cons c data =>
      rw [List.headD_cons] at hc
      obtain ⟨rfl, rfl⟩ := pure_eq_done h
      refine ⟨[c], rfl, ?_, ?_⟩
      · rcases hc with rfl | rfl <;> simp
      · simp
  · obtain ⟨rfl, rfl⟩ := pure_eq_done h
    exact ⟨[], rfl, Or.inl rfl, rfl⟩

lemma expoSign_of {sign : List ℤ} (h : sign = [] ∨ sign = [43] ∨ sign = [45])
    (hdigit : isDigit (data.headD 0) = true) : expoSign (sign ++ data) = some (.done (decide (sign = [45])), data) := by
  rcases h with rfl | rfl | rfl
  · rw [isDigit, decide_eq_true_eq] at hdigit
    rw [expoSign, current_bind, List.nil_append, if_neg (by omega)]
    rfl
  · rfl
  · rfl

lemma expoPart_done (h : expoPart d n number data = some (.done x, rest)) :
    ∃ t, data = t ++ rest ∧ Exponent d number t x := by
  rw [expoPart, current_bind] at h
  split at h
  · next hc =>
    cases data with
    | nil => simp at hc
    | cons e data =>
      rw [List.headD_cons] at hc
      rw [next_bind] at h
      obtain ⟨b, u, hsign, hrest⟩ := bind_eq_done h
      obtain ⟨sign, rfl, hs, rfl⟩ := expoSign_done hsign
      rw [current_bind] at hrest
      split at hrest
      · next hdigit =>
        obtain ⟨expo, v, hint, hscale⟩ := bind_eq_done hrest
        cases hint
        cases hsome : scale d (decide (sign = [45])) (intValue d (u.takeWhile isDigit)) n (d.ofInt 0) number with
        | none =>
          rw [hsome] at hscale
          cases hscale
        | some y =>
          rw [hsome] at hscale
          obtain ⟨rfl, rfl⟩ := pure_eq_done hscale
          refine ⟨e :: sign ++ u.takeWhile isDigit, ?_, .some hc hs (takeWhile_ne_nil hdigit) (digits_takeWhile u) hsome⟩
          rw [List.cons_append, List.cons_append, List.append_assoc, List.takeWhile_append_dropWhile]
      · cases hrest
  · obtain ⟨rfl, rfl⟩ := pure_eq_done h
    exact ⟨[], rfl, .none⟩

lemma expoPart_of (h : Exponent d number t x) :
    ∃ m, ∀ n, m ≤ n → ∀ rest, Follow rest → expoPart d n number (t ++ rest) = some (.done x, rest) := by
  cases h with
  | none =>
    refine ⟨0, fun n _ rest hrest => ?_⟩
    rw [expoPart, current_bind, List.nil_append, if_neg (not_or.mpr hrest.expo)]
    rfl
  | @some e sign t m _ he hsign ht hdigits hscale =>
    refine ⟨m, fun n hn rest hrest => ?_⟩
    obtain ⟨htake, hdrop⟩ := takeWhile_digits hdigits hrest.digit
    have hfirst : isDigit ((t ++ rest).headD 0) = true := by
      cases t with
      | nil => exact absurd rfl ht
      | cons c t => exact hdigits c (List.mem_cons_self ..)
    rw [expoPart, current_bind, List.cons_append, List.cons_append, List.headD_cons, if_pos he, next_bind,
      List.append_assoc, bind_done (expoSign_of hsign hfirst), current_bind, if_pos hfirst]
    refine (bind_done (t := rest) (a := intValue d t) ?_ _).trans ?_
    · rw [ParseInt, htake, hdrop]
    · rw [scale_mono hscale hn]
      rfl

lemma Exponent.head (h : Exponent d number t x) (hrest : Follow rest) :
    isDigit ((t ++ rest).headD 0) = false ∧ (t ++ rest).headD 0 ≠ 46 := by
  cases h with
  | none => exact ⟨hrest.digit, hrest.point⟩
  | @some e sign t _ _ he =>
    change isDigit e = false ∧ e ≠ 46
    rcases he with rfl | rfl <;> decide

lemma Whole.head (h : Whole d t x) : ∃ c u, t = c :: u ∧ isDigit c = true := by
  cases h with
  | zero => exact ⟨48, [], rfl, rfl⟩
  | @digits c t hc _ =>
    refine ⟨c, t, rfl, ?_⟩
    rw [isDigit, decide_eq_true_eq]
    omega

lemma unsignedNumber_done (h : unsignedNumber d n data = some (.done x, rest)) :
    ∃ t u v y z, data = t ++ u ++ v ++ rest ∧ Whole d t y ∧ Decimals d y u z ∧ Exponent d z v x := by
  rw [unsignedNumber] at h
  obtain ⟨y, _, hwhole, h₁⟩ := bind_eq_done h
  obtain ⟨z, _, hdecimal, hexpo⟩ := bind_eq_done h₁
  obtain ⟨t, rfl, ht⟩ := wholePart_done hwhole
  obtain ⟨u, rfl, hu⟩ := decimalPart_done hdecimal
  obtain ⟨v, rfl, hv⟩ := expoPart_done hexpo
  exact ⟨t, u, v, y, z, by simp, ht, hu, hv⟩

lemma unsignedNumber_of {u v : List ℤ} {z : δ} (ht : Whole d t x) (hu : Decimals d x u y) (hv : Exponent d y v z) :
    ∃ m, ∀ n, m ≤ n → ∀ rest, Follow rest → unsignedNumber d n (t ++ u ++ v ++ rest) = some (.done z, rest) := by
  obtain ⟨m, hm⟩ := expoPart_of hv
  refine ⟨m, fun n hn rest hrest => ?_⟩
  obtain ⟨hdigit, hpoint⟩ := hv.head hrest
  have hfirst : isDigit ((u ++ (v ++ rest)).headD 0) = false := by
    cases hu with
    | none => exact hdigit
    | some => rfl
  rw [List.append_assoc, List.append_assoc, unsignedNumber, bind_done (wholePart_of ht hfirst),
    bind_done (decimalPart_of hu hdigit hpoint)]
  exact hm n hn rest hrest

lemma ParseNumber_done (h : ParseNumber d n data = some (.done x, rest)) : ∃ t, data = t ++ rest ∧ Number d t x := by
  rw [ParseNumber] at h
  obtain ⟨neg, data₁, hsign, h₁⟩ := bind_eq_done h
  obtain ⟨z, data₂, hunsigned, h₂⟩ := bind_eq_done h₁
  obtain ⟨t, u, v, _, _, rfl, ht, hu, hv⟩ := unsignedNumber_done hunsigned
  rw [numberSign, current_bind] at hsign
  split at hsign
  · next hc =>
    cases data with
    | nil => cases hc
    | cons c data =>
      obtain rfl : c = 45 := hc
      obtain ⟨rfl, rfl⟩ := pure_eq_done hsign
      obtain ⟨rfl, rfl⟩ := pure_eq_done h₂
      exact ⟨45 :: (t ++ u ++ v), rfl, .minus ht hu hv⟩
  · obtain ⟨rfl, rfl⟩ := pure_eq_done hsign
    obtain ⟨rfl, rfl⟩ := pure_eq_done h₂
    exact ⟨t ++ u ++ v, rfl, .plus ht hu hv⟩

lemma ParseNumber_of (h : Number d t x) :
    ∃ m, ∀ n, m ≤ n → ∀ rest, Follow rest → ParseNumber d n (t ++ rest) = some (.done x, rest) := by
  cases h with
  | @plus t u v _ _ _ ht hu hv =>
    obtain ⟨m, hm⟩ := unsignedNumber_of ht hu hv
    refine ⟨m, fun n hn rest hrest => ?_⟩
    have hsign : numberSign (t ++ u ++ v ++ rest) = some (.done false, t ++ u ++ v ++ rest) := by
      obtain ⟨c, t', rfl, hc⟩ := ht.head
      rw [numberSign, current_bind, List.cons_append, List.cons_append, List.cons_append, List.headD_cons, if_neg]
      · rfl
      · rintro rfl
        cases hc
    rw [ParseNumber, bind_done hsign, bind_done (hm n hn rest hrest)]
    rfl
  | @minus t u v _ _ _ ht hu hv =>
    obtain ⟨m, hm⟩ := unsignedNumber_of ht hu hv
    refine ⟨m, fun n hn rest hrest => ?_⟩
    have hsign : numberSign (45 :: (t ++ u ++ v) ++ rest) = some (.done true, t ++ u ++ v ++ rest) := rfl
    rw [ParseNumber, bind_done hsign, bind_done (hm n hn rest hrest)]
    rfl

end Figures

end Xframe.Comserv.Json
