import Xframe.Comserv.JsonGrammar

/-! `JSON::Parse` comes to an end, and never moves on from the terminator. -/

namespace Xframe.Comserv.Json

open Xframe.Lib Xframe.Lib.Act

variable {δ : Type} {d : Double δ} {data rest : List ℤ} {n k l : ℕ} {E : List ℤ → Prop}

def Left (k : ℕ) (data rest : List ℤ) : Prop := rest <:+ data ∧ rest.length + k ≤ data.length

lemma left_refl (data : List ℤ) : Left 0 data data := ⟨List.suffix_rfl, le_rfl⟩

lemma Left.trans {mid : List ℤ} (h : Left k data mid) (h' : Left l mid rest) : Left (k + l) data rest := by
  have hlen := h.2
  have hlen' := h'.2
  exact ⟨h'.1.trans h.1, by omega⟩

lemma Left.mono (h : Left k data rest) (hl : l ≤ k) : Left l data rest := by
  have hlen := h.2
  exact ⟨h.1, by omega⟩

lemma left_dropWhile (p : ℤ → Bool) (data : List ℤ) : Left 0 data (data.dropWhile p) :=
  ⟨List.dropWhile_suffix p, (List.dropWhile_suffix p).length_le⟩

lemma Left.cons {c : ℤ} (h : Left k data rest) : Left (k + 1) (c :: data) rest := by
  have hlen := h.2
  exact ⟨h.1.trans (List.suffix_cons c data), by simp only [List.length_cons]; omega⟩

variable {α β : Type} {Q : α → List ℤ → Prop}

lemma ends_next_bind {c : ℤ} {f : Unit → Scan α} (h : Ends (f ()) data Q E) : Ends (next >>= f) (c :: data) Q E := h

lemma ends_current_bind {f : ℤ → Scan α} (h : Ends (f (data.headD 0)) data Q E) : Ends (current >>= f) data Q E := h

lemma ends_get_bind {f : List ℤ → Scan α} (h : Ends (f data) data Q E) : Ends (get >>= f) data Q E := h

def Takes (k : ℕ) (x : Scan α) (data : List ℤ) : Prop := Ends x data (fun _ rest => Left k data rest) fun _ => True

lemma takes_pure (a : α) : Takes 0 (pure a) data := left_refl data

lemma takes_throw : Takes k (throw : Scan α) data := trivial

lemma Takes.bind {x : Scan α} {f : α → Scan β} (hx : Takes k x data)
    (hf : ∀ a rest, Left k data rest → Takes l (f a) rest) : Takes (k + l) (x >>= f) data :=
  Ends.bind hx fun a rest hrest => (hf a rest hrest).mono (fun _ _ h => hrest.trans h) fun _ h => h

lemma Takes.mono {x : Scan α} (hx : Takes k x data) (hl : l ≤ k) : Takes l x data :=
  Ends.mono hx (fun _ _ h => h.mono hl) fun _ h => h

lemma Takes.after {x : Scan α} {rest : List ℤ} (hx : Takes k x rest) (hl : Left l data rest) :
    Ends x rest (fun _ rest' => Left (l + k) data rest') fun _ => True :=
  Ends.mono hx (fun _ _ h => hl.trans h) fun _ h => h

lemma takes_current_bind {f : ℤ → Scan α} (h : Takes k (f (data.headD 0)) data) : Takes k (current >>= f) data := h

lemma Takes.cons {c : ℤ} {f : Unit → Scan α} (h : Takes k (f ()) data) :
    Takes (k + 1) (next >>= f) (c :: data) :=
  Ends.mono (ends_next_bind h) (fun _ _ h => h.cons) fun _ h => h

lemma takes_next_bind {f : Unit → Scan α} (hdata : data ≠ []) (h : ∀ rest, Left 1 data rest → Takes k (f ()) rest) :
    Takes (k + 1) (next >>= f) data := by
  cases data with
  | nil => exact absurd rfl hdata
  | cons c data => exact Takes.cons (h data ⟨List.suffix_cons c data, le_rfl⟩)

lemma takes_next_pure (hdata : data ≠ []) (hk : k ≤ 1) (a : α) : Takes k (next >>= fun _ => pure a) data :=
  Takes.mono (k := 0 + 1) (takes_next_bind hdata fun _ _ => takes_pure a) hk

lemma headD_ne {c : ℤ} (h : data.headD 0 = c) (hc : c ≠ 0) : data ≠ [] := by
  rintro rfl
  exact hc h.symm

lemma takes_wantMore_bind {f : Unit → Scan α} (h : ∀ rest, Left 0 data rest → rest ≠ [] → Takes k (f ()) rest) :
    Takes k (wantMore >>= f) data := by
  have hmore : Ends wantMore data (fun _ rest => Left 0 data rest ∧ rest ≠ []) fun _ => True := by
    have hskip : Ends SkipWhitespace data (fun b rest => Left 0 data rest ∧ (b = true → rest ≠ [])) fun _ => True := by
      refine ⟨left_dropWhile _ data, fun hb hnil => ?_⟩
      rw [hnil] at hb
      cases hb
    refine hskip.bind fun b rest hrest => ?_
    cases b with
    | false => trivial
    | true => exact ⟨hrest.1, hrest.2 rfl⟩
  refine (hmore.bind fun _ rest hrest => (h rest hrest.1 hrest.2).after hrest.1).mono (fun _ _ hl => ?_) fun _ ht => ht
  rwa [Nat.zero_add] at hl

lemma ends_hexChar {i : ℕ} {x : ℤ} (h : i < data.length) :
    Ends (hexChar i x) data (fun _ rest => Left 0 data rest ∧ rest ≠ []) fun _ => True := by
  induction i generalizing x data with
  | zero =>
    refine ⟨left_refl data, ?_⟩
    rintro rfl
    cases h
  | succ i ih =>
    rw [hexChar]
    cases data with
    | nil => cases h
    | cons a data =>
      refine ends_next_bind (ends_current_bind ?_)
      cases hexDigit (data.headD 0) with
      | none => trivial
      | some digit =>
        exact (ih (Nat.lt_of_succ_lt_succ h)).mono (fun _ _ hl => ⟨hl.1.cons.mono (Nat.zero_le _), hl.2⟩) fun _ ht => ht

lemma ends_stringChar (h : data ≠ []) :
    Ends stringChar data (fun _ rest => Left 0 data rest ∧ rest ≠ []) fun _ => True := by
  cases data with
  | nil => exact absurd rfl h
  | cons c data =>
  rw [stringChar]
  refine ends_current_bind ?_
  rw [List.headD_cons]
  split
  · refine ends_next_bind (ends_current_bind ?_)
    split
    · next hu =>
      refine ends_get_bind ?_
      split
      · next hlen =>
        rw [simplejson_wcsnlen, decide_eq_true_eq] at hlen
        refine (ends_hexChar hlen).bind fun _ rest hrest => ?_
        exact ⟨hrest.1.cons.mono (Nat.zero_le _), hrest.2⟩
      · trivial
    · cases hx : unescape (data.headD 0) with
      | none => trivial
      | some x =>
        refine ⟨(left_refl data).cons.mono (Nat.zero_le _), ?_⟩
        rintro rfl
        cases hx
  · split
    · exact ⟨left_refl _, h⟩
    · split
      · trivial
      · exact ⟨left_refl _, h⟩

lemma takes_ExtractString (hn : data.length < n) (str : List ℤ) : Takes 1 (ExtractString n str) data := by
  induction n generalizing data str with
  | zero => cases hn
  | succ n ih =>
    rw [ExtractString]
    refine ends_get_bind ?_
    split
    · trivial
    · next hdata =>
      have hne : data ≠ [] := by simpa using hdata
      refine (ends_stringChar hne).bind fun r rest hrest => ?_
      have hlen := hrest.1.2
      cases r with
      | none =>
        have hlast : Takes 1 (next >>= fun _ => pure str) rest := takes_next_bind hrest.2 fun rest' _ => takes_pure str
        exact hlast.after hrest.1
      | some x =>
        have hmore : Takes 2 (next >>= fun _ => ExtractString n (str ++ [x])) rest := by
          refine takes_next_bind hrest.2 fun rest' hl => ih ?_ (str ++ [x])
          have := hl.2
          omega
        exact (hmore.mono one_le_two).after hrest.1

/-- `t` are the digits behind a digit, an `E` or `e` and perhaps a sign, and no digit follows. In a string they are
no exponent, but stand here for one. -/
def ExponentDigits (text t : List ℤ) : Prop :=
  ∃ front c e sign back, text = front ++ c :: e :: (sign ++ (t ++ back)) ∧ isDigit c = true ∧ (e = 69 ∨ e = 101) ∧
    (sign = [] ∨ sign = [45] ∨ sign = [43]) ∧ t ≠ [] ∧ Digits t ∧ isDigit (back.headD 0) = false

def LoopsEnd (d : Double δ) (text : List ℤ) (n : ℕ) : Prop :=
  ∀ t, ExponentDigits text t → ∀ neg_expo number, ∃ x, scale d neg_expo (intValue d t) n (d.ofInt 0) number = some x

lemma LoopsEnd.left (h : LoopsEnd d data n) (hl : Left k data rest) : LoopsEnd d rest n := by
  rintro t ⟨front, c, e, sign, back, htext, hc⟩
  obtain ⟨before, hbefore⟩ := hl.1
  refine h t ⟨before ++ front, c, e, sign, back, ?_, hc⟩
  rw [← hbefore, htext, List.append_assoc]

lemma LoopsEnd.mono {m : ℕ} (h : LoopsEnd d data n) (hm : n ≤ m) : LoopsEnd d data m := by
  intro t ht neg_expo number
  obtain ⟨x, hx⟩ := h t ht neg_expo number
  exact ⟨x, scale_mono hx hm⟩

def Behind (data rest : List ℤ) : Prop := ∃ front c, data = front ++ c :: rest ∧ isDigit c = true

lemma Behind.trans {mid : List ℤ} (hl : Left k data mid) (h : Behind mid rest) : Behind data rest := by
  obtain ⟨front, c, rfl, hc⟩ := h
  obtain ⟨before, hbefore⟩ := hl.1
  exact ⟨before ++ front, c, by rw [← hbefore, List.append_assoc], hc⟩

lemma behind_digits (h : isDigit (data.headD 0) = true) : Behind data (data.dropWhile isDigit) := by
  obtain ⟨front, c, hlast⟩ := (List.eq_nil_or_concat' _).resolve_left (takeWhile_ne_nil h)
  refine ⟨front, c, ?_, ?_⟩
  · rw [List.append_cons, ← hlast, List.takeWhile_append_dropWhile]
  · exact digits_takeWhile data c (by rw [hlast]; simp)

lemma left_digits (h : isDigit (data.headD 0) = true) : Left 1 data (data.dropWhile isDigit) := by
  cases data with
  | nil => cases h
  | cons c data =>
    rw [List.headD_cons] at h
    rw [List.dropWhile_cons_of_pos h]
    exact (left_dropWhile isDigit data).cons

lemma ends_wholePart :
    Ends (wholePart d) data (fun _ rest => Left 1 data rest ∧ Behind data rest) fun _ => True := by
  rw [wholePart]
  refine ends_current_bind ?_
  split
  · next hc =>
    cases data with
    | nil => cases hc
    | cons c data => exact ⟨(left_refl data).cons, [], c, rfl, by rw [List.headD_cons] at hc; rw [hc]; rfl⟩
  · split
    · next hc =>
      have hdigit : isDigit (data.headD 0) = true := by
        rw [isDigit, decide_eq_true_eq]
        omega
      exact ⟨left_digits hdigit, behind_digits hdigit⟩
    · trivial

lemma ends_decimalPart {text : List ℤ} {number : δ} (hb : Behind text data) :
    Ends (decimalPart d number) data (fun _ rest => Left 0 data rest ∧ Behind text rest) fun _ => True := by
  rw [decimalPart]
  refine ends_current_bind ?_
  split
  · next hc =>
    cases data with
    | nil => cases hc
    | cons c rest =>
      refine ends_next_bind (ends_current_bind ?_)
      split
      · next hdigit =>
        obtain ⟨front, c', htext, -⟩ := hb
        have hrest : Left 0 text rest := by
          refine ⟨⟨front ++ [c', c], by rw [htext]; simp⟩, ?_⟩
          rw [htext, List.length_append, List.length_cons, List.length_cons]
          omega
        exact ⟨(left_dropWhile isDigit rest).cons.mono (Nat.zero_le _), (behind_digits hdigit).trans hrest⟩
      · trivial
  · exact ⟨left_refl data, hb⟩

lemma ends_expoSign : Ends expoSign data (fun _ rest => ∃ sign, (sign = [] ∨ sign = [45] ∨ sign = [43]) ∧
    data = sign ++ rest) fun _ => True := by
  rw [expoSign]
  refine ends_current_bind ?_
  split
  · next hs =>
    cases data with
    | nil => simp at hs
    | cons c rest =>
      refine ends_next_bind ⟨[c], ?_, rfl⟩
      rw [List.headD_cons] at hs
      rcases hs with rfl | rfl
      · exact Or.inr (Or.inl rfl)
      · exact Or.inr (Or.inr rfl)
  · exact ⟨[], Or.inl rfl, rfl⟩

lemma takes_expoPart {text : List ℤ} {number : δ} (h : LoopsEnd d text n) (hb : Behind text data) :
    Takes 0 (expoPart d n number) data := by
  rw [expoPart]
  refine takes_current_bind ?_
  split
  · next hc =>
    cases data with
    | nil => simp at hc
    | cons e rest =>
      rw [List.headD_cons] at hc
      refine (Takes.cons (k := 0) ?_).mono (Nat.zero_le _)
      refine Ends.bind ends_expoSign fun neg_expo rest' hrest' => ends_current_bind ?_
      obtain ⟨sign, hsign, hrest⟩ := hrest'
      have hleft : Left 0 rest rest' := by
        refine ⟨⟨sign, hrest.symm⟩, ?_⟩
        rw [hrest, List.length_append]
        omega
      split
      · next hdigit =>
        have hint : Ends (ParseInt d) rest' (fun x after => Left 0 rest' after ∧
            x = intValue d (rest'.takeWhile isDigit)) fun _ => True := ⟨left_dropWhile isDigit rest', rfl⟩
        refine Ends.bind hint fun x after hx => ?_
        have hexp : ExponentDigits text (rest'.takeWhile isDigit) := by
          obtain ⟨front, c, htext, hcdigit⟩ := hb
          refine ⟨front, c, e, sign, rest'.dropWhile isDigit, ?_, hcdigit, hc, hsign, takeWhile_ne_nil hdigit,
            digits_takeWhile rest', ?_⟩
          · rw [List.takeWhile_append_dropWhile, ← hrest, htext]
          · cases hd : rest'.dropWhile isDigit with
            | nil => rfl
            | cons a l =>
              have hhead := List.head?_dropWhile_not isDigit rest'
              rw [hd] at hhead
              simpa using hhead
        obtain ⟨y, hy⟩ := h _ hexp neg_expo number
        rw [hx.2, hy]
        exact (hleft.trans hx.1).mono (Nat.zero_le _)
      · trivial
  · exact takes_pure _

lemma takes_unsignedNumber (h : LoopsEnd d data n) : Takes 1 (unsignedNumber d n) data := by
  rw [unsignedNumber]
  refine Ends.bind ends_wholePart fun x rest hx => ?_
  have hmore : Takes 0 (decimalPart d x >>= expoPart d n) rest :=
    Ends.bind (ends_decimalPart hx.2) fun y after hy => (takes_expoPart h hy.2).after hy.1
  exact hmore.after hx.1

lemma takes_ParseNumber (h : LoopsEnd d data n) : Takes 1 (ParseNumber d n) data := by
  have hsign : Takes 0 numberSign data := by
    rw [numberSign]
    refine takes_current_bind ?_
    split
    · next hc => exact takes_next_pure (headD_ne hc (by decide)) (Nat.zero_le _) _
    · exact takes_pure _
  rw [ParseNumber]
  refine Takes.mono (k := 0 + (1 + 0)) ?_ le_rfl
  refine Takes.bind hsign fun neg rest hrest => Takes.bind ?_ fun x _ _ => takes_pure _
  exact takes_unsignedNumber (h.left hrest)

lemma takes_skip (h : k ≤ data.length) : Takes k (skip k) data := by
  induction k generalizing data with
  | zero => exact takes_pure ()
  | succ k ih =>
    cases data with
    | nil => cases h
    | cons c data =>
      have hskip := ih (Nat.le_of_succ_le_succ h)
      exact hskip.cons (f := fun _ => skip k)

lemma isWord_length {word : List ℤ} (h : isWord word data = true) : word.length ≤ data.length := by
  rw [isWord, Bool.and_eq_true, simplejson_wcsnlen, decide_eq_true_eq] at h
  exact h.1

section Loops

variable {parse : Scan (JSONValue δ)}

lemma takes_wantColon (h : data ≠ []) : Takes 1 wantColon data := by
  rw [wantColon]
  refine takes_current_bind (takes_next_bind (k := 0) h fun rest _ => ?_)
  split
  · exact takes_pure ()
  · exact takes_throw

lemma takes_parseMember (hparse : ∀ rest, Left 0 data rest → Takes 1 parse rest) (hdata : data ≠ [])
    (hn : data.length ≤ n) (object : JSONObject δ) : Takes 1 (parseMember parse n object) data := by
  rw [parseMember]
  refine takes_next_bind (k := 0) hdata fun rest₁ h₁ => ?_
  have hname : Takes 1 (ExtractString n []) rest₁ := takes_ExtractString (by have := h₁.2; omega) []
  refine Takes.mono (k := 1 + 0) (hname.bind fun name rest₂ h₂ => ?_) (Nat.zero_le _)
  refine takes_wantMore_bind fun rest₃ h₃ hne => ?_
  refine Takes.mono (k := 1 + 0) ((takes_wantColon hne).bind fun _ rest₄ h₄ => ?_) (Nat.zero_le _)
  refine takes_wantMore_bind fun rest₅ h₅ _ => ?_
  have hrest : Left 0 data rest₅ := (h₁.trans (h₂.trans (h₃.trans (h₄.trans h₅)))).mono (Nat.zero_le _)
  exact Takes.mono (k := 1 + 0) ((hparse rest₅ hrest).bind fun v _ _ => takes_pure _) (Nat.zero_le _)

lemma takes_parseObject (hparse : ∀ rest, Left 0 data rest → Takes 1 parse rest) (hn : data.length < n)
    (object : JSONObject δ) : Takes 1 (parseObject parse n object) data := by
  induction n generalizing object data with
  | zero => cases hn
  | succ n ih =>
    rw [parseObject]
    refine takes_wantMore_bind fun rest₁ h₁ hne => takes_current_bind ?_
    split
    · exact takes_next_pure hne le_rfl _
    · have hlen := h₁.2
      have hmember := takes_parseMember (fun rest hrest => hparse rest (h₁.trans hrest)) hne (by omega : _ ≤ n) object
      refine Takes.bind (k := 1) (l := 0) hmember fun object rest₂ h₂ => ?_
      refine takes_wantMore_bind fun rest₃ h₃ hne => takes_current_bind ?_
      split
      · exact takes_next_pure hne (Nat.zero_le _) _
      · split
        · refine Takes.mono (k := 1 + 1) (takes_next_bind hne fun rest₄ h₄ => ?_) (Nat.zero_le _)
          have hall : Left 2 data rest₄ := (h₁.trans (h₂.trans (h₃.trans h₄))).mono (by omega)
          have hlen := hall.2
          exact ih (fun rest hrest => hparse rest ((hall.trans hrest).mono (Nat.zero_le _))) (by omega) object
        · trivial

lemma takes_parseArray (hparse : ∀ rest, Left 0 data rest → Takes 1 parse rest) (hn : data.length < n)
    (array : List (JSONValue δ)) : Takes 1 (parseArray parse n array) data := by
  induction n generalizing array data with
  | zero => cases hn
  | succ n ih =>
    rw [parseArray]
    refine takes_wantMore_bind fun rest₁ h₁ hne => takes_current_bind ?_
    split
    · exact takes_next_pure hne le_rfl _
    · refine Takes.bind (k := 1) (l := 0) (hparse rest₁ h₁) fun v rest₂ h₂ => ?_
      refine takes_wantMore_bind fun rest₃ h₃ hne => takes_current_bind ?_
      split
      · exact takes_next_pure hne (Nat.zero_le _) _
      · split
        · refine Takes.mono (k := 1 + 1) (takes_next_bind hne fun rest₄ h₄ => ?_) (Nat.zero_le _)
          have hall : Left 2 data rest₄ := (h₁.trans (h₂.trans (h₃.trans h₄))).mono (by omega)
          have hlen := hall.2
          exact ih (fun rest hrest => hparse rest ((hall.trans hrest).mono (Nat.zero_le _))) (by omega) _
        · trivial

end Loops

lemma takes_Parse {m : ℕ} (h : LoopsEnd d data m) (hn : data.length + m < n) : Takes 1 (JSONValue.Parse d n) data := by
  induction n generalizing data with
  | zero => cases hn
  | succ n ih =>
    rw [JSONValue.Parse]
    refine ends_get_bind (ends_current_bind ?_)
    split
    · next hc =>
      refine Takes.mono (k := 1 + 1) (takes_next_bind (headD_ne hc (by decide)) fun rest hrest => ?_) (Nat.le_add_left ..)
      have hs : Takes 1 (ExtractString n []) rest := takes_ExtractString (by have := hrest.2; omega) []
      exact Takes.mono (k := 1 + 0) (hs.bind fun _ _ _ => takes_pure _) le_rfl
    · split
      · next hword =>
        refine Takes.mono (k := (if isWord wordTrue data = true then 4 else 5) + 0)
          (Takes.bind (takes_skip ?_) fun _ _ _ => takes_pure _) ?_
        · rcases hword with hword | hword
          · rw [if_pos hword]
            exact (isWord_length hword).trans' le_rfl
          · split
            · exact (Nat.le_succ 4).trans (isWord_length hword)
            · exact isWord_length hword
        · split <;> decide
      · split
        · next hword =>
          exact Takes.mono (k := 4 + 0) (Takes.bind (takes_skip (isWord_length hword)) fun _ _ _ => takes_pure _)
            (by decide)
        · split
          · exact Takes.mono (k := 1 + 0)
              (Takes.bind (takes_ParseNumber (h.mono (by omega))) fun _ _ _ => takes_pure _) le_rfl
          · have inner : ∀ {rest}, Left 1 data rest → ∀ rest', Left 0 rest rest' →
                Takes 1 (JSONValue.Parse d n) rest' := by
              intro rest hrest rest' hrest'
              have hall := hrest.trans hrest'
              have hlen := hall.2
              exact ih (h.left hall) (by omega)
            split
            · next hc =>
              refine Takes.mono (k := 1 + 1) (takes_next_bind (headD_ne hc (by decide)) fun rest hrest => ?_)
                (Nat.le_add_left ..)
              exact takes_parseObject (inner hrest) (by have := hrest.2; omega) []
            · split
              · next hc =>
                refine Takes.mono (k := 1 + 1) (takes_next_bind (headD_ne hc (by decide)) fun rest hrest => ?_)
                  (Nat.le_add_left ..)
                exact takes_parseArray (inner hrest) (by have := hrest.2; omega) []
              · exact takes_throw

theorem Parse_ends {text : List ℤ} {m : ℕ} (h : LoopsEnd d text m) (hn : text.length + m < n) :
    Parse d n text ≠ none := by
  have htakes : Takes 0 (Parse d n) text := by
    rw [Parse]
    refine takes_wantMore_bind fun rest hrest _ => ?_
    have hlen := hrest.2
    refine Takes.mono (k := 1 + 0) (Takes.bind (takes_Parse (h.left hrest) (by omega)) fun v rest' _ => ?_)
      (Nat.zero_le _)
    have hskip : Takes 0 SkipWhitespace rest' := left_dropWhile isSpace rest'
    refine Takes.bind (k := 0) (l := 0) hskip fun b _ _ => ?_
    split
    · exact takes_throw
    · exact takes_pure v
  intro hnone
  rw [Takes, Ends, hnone] at htakes
  exact htakes

def rationals : Double ℚ where
  ofInt n := n
  tenth := 1 / 10
  add := (· + ·)
  mul := (· * ·)
  div := (· / ·)
  lt x y := x < y
  isinf _ := false
  isnan _ := false
  write x := (Nat.digits 10 x.num.toNat).reverse.map fun digit => 48 + (digit : ℤ)

theorem Parse_ends_exponent : Parse rationals 7 [49, 101, 50] ≠ none := by
  refine Parse_ends (m := 3) ?_ (by decide)
  rintro t ⟨front, c, e, sign, back, htext, -, -, -, ht, -, -⟩ neg_expo number
  have hlen := congrArg List.length htext
  have hpos := List.length_pos_iff.mpr ht
  simp only [List.length_append, List.length_cons, List.length_nil] at hlen
  obtain rfl : front = [] := List.length_eq_zero_iff.mp (by omega)
  obtain rfl : sign = [] := List.length_eq_zero_iff.mp (by omega)
  obtain rfl : back = [] := List.length_eq_zero_iff.mp (by omega)
  obtain rfl : t = [50] := by
    simp only [List.nil_append, List.append_nil, List.cons.injEq] at htext
    exact htext.2.2.symm
  refine ⟨if neg_expo then number / 10 / 10 else number * 10 * 10, ?_⟩
  cases neg_expo <;> norm_num [scale, rationals, intValue]

end Xframe.Comserv.Json
