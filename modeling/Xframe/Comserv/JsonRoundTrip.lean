import Xframe.Comserv.JsonAccepts
import Xframe.Comserv.JsonEnds

/-! What `Stringify` writes is read back by `JSON::Parse`. -/

namespace Xframe.Comserv.Json

open Xframe.Lib Xframe.Lib.Act

variable {δ : Type} {d : Double δ} {v : JSONValue δ}

/-- No character is negative, and the stream writes the numbers as texts of the grammar that stand for them. -/
inductive Writable (d : Double δ) : JSONValue δ → Prop
  | null : Writable d .Null
  | string {s} : (∀ c ∈ s, 0 ≤ c) → Writable d (.String s)
  | bool {b} : Writable d (.Bool b)
  | number {x} : d.isinf x = false → d.isnan x = false → Number d (d.write x) x → Writable d (.Number x)
  | array {vs} : (∀ v ∈ vs, Writable d v) → Writable d (.Array vs)
  | object {o} : (o.map Prod.fst).Pairwise (· < ·) → (∀ m ∈ o, ∀ c ∈ m.1, 0 ≤ c) → (∀ m ∈ o, Writable d m.2) →
      Writable d (.Object o)

lemma hexDigit_hexOut {x : ℤ} (h : 0 ≤ x ∧ x < 16) : hexDigit (hexOut x) = some x := by
  rw [hexOut]
  split
  · rw [hexDigit, if_pos (by omega)]
    congr 1
    omega
  · rw [hexDigit, if_neg (by omega), if_pos (by omega)]
    congr 1
    omega

lemma chars_hex {c : ℤ} {t s : List ℤ} (hc : 0 ≤ c ∧ c < 32) (h : Chars t s) :
    Chars ([92, 117] ++ (List.range 4).map (fun i => hexOut (c * 16 ^ i / 4096 % 16)) ++ t) (c :: s) := by
  have digit : ∀ i : ℕ, hexDigit (hexOut (c * 16 ^ i / 4096 % 16)) = some (c * 16 ^ i / 4096 % 16) := by
    intro i
    exact hexDigit_hexOut ⟨Int.emod_nonneg _ (by decide), Int.emod_lt_of_pos _ (by decide)⟩
  have hread := Chars.hex (digit 0) (digit 1) (digit 2) (digit 3) h
  have hvalue : ((c * 16 ^ 0 / 4096 % 16 * 16 + c * 16 ^ 1 / 4096 % 16) * 16 + c * 16 ^ 2 / 4096 % 16) * 16 +
      c * 16 ^ 3 / 4096 % 16 = c := by
    norm_num
    omega
  rw [hvalue] at hread
  exact hread

lemma chars_stringifyChar {c : ℤ} {t s : List ℤ} (hc : 0 ≤ c) (h : Chars t s) : Chars (stringifyChar c ++ t) (c :: s) := by
  rw [stringifyChar]
  split
  · next hself => exact .escape (by rw [unescape, if_pos hself]) h
  · next hplain =>
    split
    · next hb => exact .escape (by rw [hb]; rfl) h
    · split
      · next hf => exact .escape (by rw [hf]; rfl) h
      · split
        · next hn => exact .escape (by rw [hn]; rfl) h
        · split
          · next hr => exact .escape (by rw [hr]; rfl) h
          · split
            · next ht => exact .escape (by rw [ht]; rfl) h
            · split
              · next hlow => exact chars_hex ⟨hc, hlow⟩ h
              · next hhigh => exact .plain (by tauto) (by tauto) (Or.inl (not_lt.mp hhigh)) h

lemma chars_flatMap {s : List ℤ} (h : ∀ c ∈ s, 0 ≤ c) : Chars (s.flatMap stringifyChar) s := by
  induction s with
  | nil => exact .nil
  | cons c s ih =>
    rw [List.flatMap_cons]
    exact chars_stringifyChar (h c (List.mem_cons_self ..)) (ih fun b hb => h b (List.mem_cons_of_mem _ hb))

lemma denotes_elements {vs : List (JSONValue δ)} (hne : vs ≠ []) (h : ∀ v ∈ vs, Denotes d (v.Stringify d) (.value v)) :
    Denotes d (stringifyElements d vs) (.elements vs) := by
  induction vs with
  | nil => exact absurd rfl hne
  | cons v vs ih =>
    have hv := h v (List.mem_cons_self ..)
    cases vs with
    | nil =>
      have := Denotes.element (w := []) (by simp [Spaces]) hv (by simp [Spaces] : Spaces [])
      simpa [stringifyElements] using this
    | cons u vs =>
      have hrest := ih (List.cons_ne_nil _ _) fun v hv => h v (List.mem_cons_of_mem _ hv)
      have := Denotes.elements (w := []) (by simp [Spaces]) hv (by simp [Spaces] : Spaces []) hrest
      simpa [stringifyElements] using this

lemma denotes_members {o : JSONObject δ} (hne : o ≠ []) (hnames : ∀ m ∈ o, ∀ c ∈ m.1, 0 ≤ c)
    (h : ∀ m ∈ o, Denotes d (m.2.Stringify d) (.value m.2)) (first : Bool) :
    Denotes d (stringifyMembers d o) (.members first o) := by
  have hspaces : Spaces [] := by simp [Spaces]
  induction o generalizing first with
  | nil => exact absurd rfl hne
  | cons m o ih =>
    obtain ⟨name, v⟩ := m
    have hv := h _ (List.mem_cons_self ..)
    have hname := chars_flatMap (hnames _ (List.mem_cons_self ..))
    cases o with
    | nil =>
      have hquote : first = true → (34 : ℤ) ≠ 125 := fun _ => by decide
      have := Denotes.member hspaces rfl hquote hname hspaces hspaces hv hspaces
      simpa [stringifyMembers, stringifyMember, StringifyString] using this
    | cons m o =>
      have hrest := ih (List.cons_ne_nil _ _) (fun m hm => hnames m (List.mem_cons_of_mem _ hm))
        (fun m hm => h m (List.mem_cons_of_mem _ hm)) false
      have hquote : first = true → (34 : ℤ) ≠ 125 := fun _ => by decide
      have := Denotes.members hspaces rfl hquote hname hspaces hspaces hv hspaces hrest
      simpa [stringifyMembers, stringifyMember, StringifyString] using this

lemma insert_last {name : List ℤ} {object : JSONObject δ} (h : ∀ m ∈ object, m.1 < name) (v : JSONValue δ) :
    insert name v object = object ++ [(name, v)] := by
  induction object with
  | nil => rfl
  | cons m object ih =>
    have hm := h m (List.mem_cons_self ..)
    rw [insert, if_neg hm.not_gt, if_neg hm.ne', ih fun u hu => h u (List.mem_cons_of_mem _ hu)]
    rfl

lemma insertAll_sorted {ms object : JSONObject δ} (h : ((object ++ ms).map Prod.fst).Pairwise (· < ·)) :
    insertAll ms object = object ++ ms := by
  induction ms generalizing object with
  | nil => exact (List.append_nil _).symm
  | cons m ms ih =>
    rw [List.map_append, List.pairwise_append] at h
    have hlast : ∀ u ∈ object, u.1 < m.1 := fun u hu =>
      h.2.2 u.1 (List.mem_map_of_mem hu) m.1 (List.mem_map_of_mem (List.mem_cons_self ..))
    have hrest : insertAll ms (object ++ [m]) = object ++ [m] ++ ms := by
      refine ih ?_
      rw [List.append_assoc, List.map_append, List.pairwise_append]
      exact h
    rw [insertAll, List.foldl_cons, insert_last hlast]
    exact hrest.trans (List.append_assoc ..)

lemma Writable.denotes (h : Writable d v) : Denotes d (v.Stringify d) (.value v) := by
  induction h with
  | null =>
    rw [JSONValue.Stringify]
    exact .nullWord (by decide)
  | string hs =>
    rw [JSONValue.Stringify]
    exact .string (chars_flatMap hs)
  | @bool b =>
    rw [JSONValue.Stringify]
    cases b with
    | true => exact .trueWord (by decide)
    | false => exact .falseWord (by decide)
  | number hinf hnan hx =>
    rw [JSONValue.Stringify, hinf, hnan, if_neg (by simp)]
    exact .number hx
  | @array vs _ ih =>
    rw [JSONValue.Stringify]
    by_cases hne : vs = []
    · rw [hne, stringifyElements]
      exact .emptyArray (by simp [Spaces])
    · exact .array (denotes_elements hne ih)
  | @object o hsorted hnames _ ih =>
    rw [JSONValue.Stringify]
    by_cases hne : o = []
    · rw [hne, stringifyMembers]
      exact .emptyObject (by simp [Spaces])
    · have hobject := Denotes.object (denotes_members hne hnames ih true)
      rwa [insertAll_sorted (by rwa [List.nil_append])] at hobject

theorem Parse_Stringify (h : Writable d v) : ∃ m, ∀ n, m ≤ n → ∃ rest, Parse d n (v.Stringify d) = some (.done v, rest) := by
  refine Accepts.parsed ⟨[], v.Stringify d, [], by simp [Spaces], h.denotes, by simp [Spaces], ?_⟩
  rw [List.nil_append, List.append_nil]

def sample : JSONValue ℚ := .Object [([97], .Array [.Number 12, .String [10, 34], .Bool true, .Null])]

lemma sample_writable : Writable rationals sample := by
  have hwrite : rationals.write 12 = [49, 50] := by
    have hnum : (12 : ℚ).num.toNat = 12 := rfl
    have hdigits : Nat.digits 10 12 = [2, 1] := by norm_num
    simp only [rationals, hnum, hdigits]
    decide
  have hvalue : intValue rationals [49, 50] = 12 := by
    norm_num [intValue, rationals]
  have hwhole : Whole rationals [49, 50] 12 := by
    rw [← hvalue]
    exact .digits (by decide) (by simp [Digits, isDigit])
  have hnumber : Number rationals (rationals.write 12) 12 := by
    rw [hwrite]
    exact .plus hwhole .none .none
  refine .object (by simp) (by simp) ?_
  intro m hm
  obtain rfl := List.mem_singleton.mp hm
  refine .array ?_
  intro v hv
  simp only [List.mem_cons, List.not_mem_nil, or_false] at hv
  rcases hv with rfl | rfl | rfl | rfl
  · exact .number rfl rfl hnumber
  · exact .string (by simp)
  · exact .bool
  · exact .null

theorem Parse_Stringify_sample :
    ∃ m, ∀ n, m ≤ n → ∃ rest, Parse rationals n (sample.Stringify rationals) = some (.done sample, rest) :=
  Parse_Stringify sample_writable

end Xframe.Comserv.Json
