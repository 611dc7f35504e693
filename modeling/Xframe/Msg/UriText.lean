import Mathlib.Data.List.TakeWhile
import Xframe.Msg.Uri

/-! Texts that are cut at separators: `split` finds the parts of a text that was composed of them, and `toInt`
the number that was printed. -/

namespace Xframe.Msg.CStr

section Numbers

lemma toList_loop (bs : ByteArray) (i : ℕ) (r : List UInt8) :
    ByteArray.toList.loop bs i r = r.reverse ++ bs.data.toList.drop i := by
  fun_induction ByteArray.toList.loop bs i r with
  | case1 i r hlt ih =>
    have hdrop : bs.data.toList.drop i = bs.get! i :: bs.data.toList.drop (i + 1) := by
      have hlen : i < bs.data.toList.length := hlt
      have hget : bs.data[i]! = bs.data.toList[i] := by
        rw [Array.getElem_toList]
        exact getElem!_pos bs.data i hlt
      rw [List.drop_eq_getElem_cons hlen, ← hget]
      rfl
    rw [ih, List.reverse_cons, List.append_assoc, List.singleton_append, hdrop]
  | case2 i r hge =>
    have hlen : bs.data.toList.length ≤ i := Nat.not_lt.mp hge
    rw [List.drop_eq_nil_of_le hlen, List.append_nil]

lemma ofString_eq (s : String) : ofString s = s.toByteArray.data.toList := toList_loop s.toByteArray 0 []

def byteOf (c : Char) : UInt8 := UInt8.ofNat c.toNat

def decimal (n : ℕ) : CStr := (Nat.toDigits 10 n).map byteOf

lemma ofString_ofList {l : List Char} (h : ∀ c ∈ l, c.toNat < 128) : ofString (String.ofList l) = l.map byteOf := by
  rw [ofString_eq, String.toByteArray_ofList]
  induction l with
  | nil => rfl
  | cons c l ih =>
    have hc : c.toNat < 128 := h c List.mem_cons_self
    have hone : c.utf8Size = 1 := by
      rw [Char.utf8Size_eq_one_iff]
      exact UInt32.le_iff_toNat_le.mpr (Nat.lt_succ_iff.mp hc)
    rw [List.utf8Encode_cons, List.utf8Encode_singleton, String.utf8EncodeChar_eq_singleton hone,
      ByteArray.data_append, Array.toList_append, ih fun d hd => h d (List.mem_cons_of_mem _ hd)]
    rfl

lemma length_ofString {l : List Char} (h : (l.all fun c => c.toNat < 128) = true) :
    (ofString (String.ofList l)).length = l.length := by
  rw [ofString_ofList fun c hc => of_decide_eq_true (List.all_eq_true.mp h c hc), List.length_map]

lemma toDigits_digit {n : ℕ} {c : Char} (h : c ∈ Nat.toDigits 10 n) : 48 ≤ c.toNat ∧ c.toNat ≤ 57 := by
  have hd := Nat.isDigit_of_mem_toDigits (by decide) (by decide) h
  rw [Char.isDigit, Bool.and_eq_true, decide_eq_true_eq, decide_eq_true_eq] at hd
  exact ⟨UInt32.le_iff_toNat_le.mp hd.1, UInt32.le_iff_toNat_le.mp hd.2⟩

lemma byteOf_digit {n : ℕ} {c : Char} (h : c ∈ Nat.toDigits 10 n) : (byteOf c).toNat = c.toNat := by
  have hd := toDigits_digit h
  rw [byteOf, UInt8.toNat_ofNat']
  omega

lemma decimal_isDigit {n : ℕ} {b : UInt8} (h : b ∈ decimal n) : isDigit b = true := by
  obtain ⟨c, hc, rfl⟩ := List.mem_map.mp h
  have hd := toDigits_digit hc
  rw [isDigit, Bool.and_eq_true, decide_eq_true_eq, decide_eq_true_eq, UInt8.le_iff_toNat_le,
    UInt8.le_iff_toNat_le, byteOf_digit hc]
  exact hd

lemma decimal_ne_nil (n : ℕ) : decimal n ≠ [] := fun h => Nat.toDigits_ne_nil (List.map_eq_nil_iff.mp h)

lemma ofString_repr (n : ℕ) : ofString n.repr = decimal n := by
  rw [Nat.repr_eq_ofList_toDigits]
  apply ofString_ofList
  intro c hc
  have hd := toDigits_digit hc
  omega

lemma ofInt_eq (n : ℤ) : ofInt n = (if n < 0 then [45] else []) ++ decimal n.natAbs := by
  cases n with
  | ofNat n =>
    have hnonneg : ¬Int.ofNat n < 0 := Int.not_lt.mpr (Int.natCast_nonneg n)
    rw [if_neg hnonneg]
    exact ofString_repr n
  | negSucc n =>
    rw [if_pos (Int.negSucc_lt_zero n)]
    have hminus : ofString ("-" ++ (n + 1).repr) = ofString "-" ++ ofString (n + 1).repr := by
      rw [ofString_eq, ofString_eq, ofString_eq, String.toByteArray_append, ByteArray.data_append,
        Array.toList_append]
    have hsign : ofString "-" = [45] := ofString_ofList (List.forall_mem_singleton.mpr (by decide))
    rw [hsign, ofString_repr] at hminus
    exact hminus

lemma foldl_digits {l : List Char} (h : ∀ c ∈ l, (byteOf c).toNat = c.toNat) (k : ℕ) :
    (l.map byteOf).foldl (fun n c => 10 * n + (c.toNat - 48)) k = Nat.ofDigitChars 10 l k := by
  induction l generalizing k with
  | nil => rfl
  | cons c l ih =>
    rw [List.map_cons, List.foldl_cons, Nat.ofDigitChars_cons, h c List.mem_cons_self]
    exact ih (fun d hd => h d (List.mem_cons_of_mem _ hd)) _

lemma length_ofInt {n : ℤ} (h : -2 ^ 31 ≤ n) (h' : n < 2 ^ 31) : (ofInt n).length ≤ 11 := by
  have hdecimal : (decimal n.natAbs).length ≤ 10 := by
    rw [decimal, List.length_map, Nat.length_toDigits_le_iff (by decide) (by decide)]
    omega
  rw [ofInt_eq, List.length_append]
  split_ifs
  · exact Nat.add_le_add_left hdecimal 1
  · exact Nat.add_le_add (Nat.zero_le 1) hdecimal

lemma digits_decimal (n : ℕ) : digits (decimal n) = n := by
  have hall : (decimal n).takeWhile isDigit = decimal n :=
    List.takeWhile_eq_self_iff.mpr fun b hb => decimal_isDigit hb
  rw [digits, hall, decimal, foldl_digits fun c hc => byteOf_digit hc, Nat.ofDigitChars_ten_toDigits]

lemma decimal_cons (n : ℕ) : ∃ b s, decimal n = b :: s ∧ isDigit b = true := by
  obtain ⟨b, s, hs⟩ := List.exists_cons_of_ne_nil (decimal_ne_nil n)
  exact ⟨b, s, hs, decimal_isDigit (hs ▸ List.mem_cons_self)⟩

lemma number_digits {s : CStr} {b : UInt8} (hb : isDigit b = true) : number (b :: s) = digits (b :: s) := by
  have hspace : (b = 32 || 9 ≤ b && b ≤ 13) = false := by
    rw [isDigit] at hb
    grind
  have hminus : b ≠ 45 := by
    rintro rfl
    cases hb
  have hplus : b ≠ 43 := by
    rintro rfl
    cases hb
  rw [number, List.dropWhile_cons_of_neg (by simpa using hspace)]
  split
  · next heq => exact absurd (List.cons.inj heq).1 hminus
  · next heq => exact absurd (List.cons.inj heq).1 hplus
  · rfl

lemma number_ofInt (n : ℤ) : number (ofInt n) = n := by
  obtain ⟨b, s, hs, hb⟩ := decimal_cons n.natAbs
  have hdigits : (digits (b :: s) : ℤ) = n.natAbs := by rw [← hs, digits_decimal]
  rw [ofInt_eq, hs]
  split_ifs with hneg
  · change -(digits (b :: s) : ℤ) = n
    omega
  · rw [List.nil_append, number_digits hb]
    omega

lemma toInt_bounds (s : CStr) : -2 ^ 31 ≤ toInt s ∧ toInt s < 2 ^ 31 := by
  rw [toInt]
  omega

lemma toInt_eq {s : CStr} (h : -2 ^ 31 ≤ number s) (h' : number s < 2 ^ 31) : toInt s = number s := by
  rw [toInt]
  omega

lemma toInt_ofInt {n : ℤ} (h : -2 ^ 31 ≤ n) (h' : n < 2 ^ 31) : toInt (ofInt n) = n := by
  have hn := number_ofInt n
  rw [toInt_eq (by omega) (by omega), hn]

end Numbers

section Separators

variable {c : UInt8} {sep a b s : CStr}

lemma strstr_eq_none (hc : c ∈ sep) (hs : c ∉ s) : strstr sep s = none := by
  induction s with
  | nil => exact if_neg (List.ne_nil_of_mem hc)
  | cons d s ih =>
    have hno : ¬sep.isPrefixOf (d :: s) = true := by
      intro h
      exact hs ((List.isPrefixOf_iff_prefix.mp h).subset hc)
    rw [strstr, if_neg hno, ih fun h => hs (List.mem_cons_of_mem _ h)]
    rfl

lemma strstr_append (ha : c ∉ a) : strstr (c :: sep) (a ++ ((c :: sep) ++ b)) = some a.length := by
  induction a with
  | nil =>
    have hhere : (c :: sep).isPrefixOf (c :: (sep ++ b)) = true :=
      List.isPrefixOf_iff_prefix.mpr (List.prefix_append (c :: sep) b)
    exact if_pos hhere
  | cons d a ih =>
    have hno : ¬(c :: sep).isPrefixOf (d :: (a ++ ((c :: sep) ++ b))) = true := by
      intro h
      obtain ⟨t, ht⟩ := List.isPrefixOf_iff_prefix.mp h
      exact ha ((List.cons.inj ht).1 ▸ List.mem_cons_self)
    rw [List.cons_append, strstr, if_neg hno, ih fun h => ha (List.mem_cons_of_mem _ h)]
    rfl

lemma split_none (h : strstr sep s = none) (n : ℕ) : split sep (n + 1) s = if s = [] then [] else [s] := by
  cases s with
  | nil => rfl
  | cons d s =>
    rw [split, h, if_neg (List.cons_ne_nil d s)]
    exact List.cons_ne_nil d s

lemma split_append (ha : c ∉ a) (n : ℕ) :
    split (c :: sep) (n + 1) (a ++ ((c :: sep) ++ b)) = a :: split (c :: sep) n b := by
  obtain ⟨d, s, hs⟩ : ∃ d s, a ++ ((c :: sep) ++ b) = d :: s := by
    apply List.exists_cons_of_ne_nil
    simp
  have hfound : strstr (c :: sep) (a ++ ((c :: sep) ++ b)) = some a.length := strstr_append ha
  have hrest : (a ++ ((c :: sep) ++ b)).drop (a.length + (c :: sep).length) = b := by
    rw [← List.append_assoc, ← List.length_append, List.drop_left]
  rw [hs] at hfound hrest
  rw [hs, split, hfound]
  · dsimp only
    rw [hrest, ← hs, List.take_left]
  · exact List.cons_ne_nil d s

lemma split_two (ha : c ∉ a) (hb : b ≠ []) (h : strstr (c :: sep) b = none) :
    split (c :: sep) 2 (a ++ ((c :: sep) ++ b)) = [a, b] := by
  rw [split_append ha, split_none h, if_neg hb]

lemma split_three {d : CStr} (ha : c ∉ a) (hb : c ∉ b) (hd : d ≠ []) (h : strstr (c :: sep) d = none) :
    split (c :: sep) 3 (a ++ ((c :: sep) ++ (b ++ ((c :: sep) ++ d)))) = [a, b, d] := by
  rw [split_append ha, split_two hb hd h]

lemma split_last (ha : c ∉ a) : split (c :: sep) 2 (a ++ (c :: sep)) = [a] := by
  have hsplit : split (c :: sep) 2 (a ++ ((c :: sep) ++ [])) = a :: split (c :: sep) 1 [] := split_append ha 1
  rw [List.append_nil] at hsplit
  exact hsplit

lemma mem_split {part : CStr} {n : ℕ} (hp : part ∈ split sep n s) : part ⊆ s := by
  fun_induction split sep n s with
  | case1 s => exact absurd hp List.not_mem_nil
  | case2 n => exact absurd hp List.not_mem_nil
  | case3 n s hne hnone =>
    rw [List.mem_singleton.mp hp]
    exact List.Subset.refl s
  | case4 n s hne q hq ih =>
    rcases List.mem_cons.mp hp with rfl | hp
    · exact List.take_subset q s
    · exact List.Subset.trans (ih hp) (List.drop_subset _ s)

end Separators

end Xframe.Msg.CStr
