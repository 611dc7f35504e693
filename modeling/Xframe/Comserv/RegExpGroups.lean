import Xframe.Comserv.RegExpGrammar

/-! What the class parser accepts: its loop runs `groupStep` over the characters before the unescaped `]`. -/

namespace Xframe.Comserv

namespace CRegExpParser

open ClassPart

variable {it it' : List Int8} {ts : List GeneralChar} {s s' : GroupState}

lemma groupLoop_char {gc : GeneralChar} (h : getNextChar it = some (gc, it')) : groupLoop s it =
    if gc = finChar then some (finish s, it') else (groupStep s gc).bind (groupLoop · it') := by
  rw [groupLoop.eq_def]
  split
  · next hn =>
    rw [hn] at h
    cases h
  · next gc it₁ hget =>
    rw [h] at hget
    cases hget
    cases groupStep s gc <;> rfl

lemma groupLoop_eq_some : groupLoop s it = some (s', it') ↔ ∃ ts, (∀ t ∈ ts, Inner t) ∧
    it = textOf (ts ++ [finChar]) ++ it' ∧ ∃ s₁, ts.foldlM groupStep s = some s₁ ∧ s' = finish s₁ := by
  constructor
  · intro h
    fun_induction groupLoop s it with
    | case1 => cases h
    | case2 s it it₁ hget =>
      cases h
      refine ⟨[], fun t ht => absurd ht List.not_mem_nil, (getNextChar_eq_some.1 hget).2, s, rfl, rfl⟩
    | case3 => cases h
    | case4 s it gc it₁ hget hfin s₁ hstep ih =>
      obtain ⟨ts, hts, rfl, s₂, hfold, hs'⟩ := ih h
      obtain ⟨hv, rfl⟩ := getNextChar_eq_some.1 hget
      refine ⟨gc :: ts, List.forall_mem_cons.2 ⟨⟨hv, hfin⟩, hts⟩, ?_, s₂, ?_, hs'⟩
      · rw [List.cons_append, textOf_cons, List.append_assoc]
      · exact Option.bind_eq_some_iff.2 ⟨s₁, hstep, hfold⟩
  · rintro ⟨ts, hts, rfl, s₁, hfold, rfl⟩
    induction ts generalizing s with
    | nil =>
      cases hfold
      have hget : getNextChar (textOf ([] ++ [finChar]) ++ it') = some (finChar, it') := rfl
      exact (groupLoop_char hget).trans (if_pos rfl)
    | cons t ts ih =>
      obtain ⟨s₂, hstep, hfold⟩ := Option.bind_eq_some_iff.1 hfold
      obtain ⟨⟨hv, hne⟩, hts⟩ := List.forall_mem_cons.1 hts
      have hget : getNextChar (textOf (t :: ts ++ [finChar]) ++ it') =
          some (t, textOf (ts ++ [finChar]) ++ it') := by
        rw [List.cons_append, textOf_cons, List.append_assoc]
        exact getNextChar_text hv _
      rw [groupLoop_char hget, if_neg hne, hstep]
      exact ih hts hfold

def Continues (s : GroupState) (ts : List GeneralChar) (ps : List ClassPart) (items : List (CGroupItem Int8)) : Prop :=
  match s.status with
  | .searchReverseTag => False
  | .readingBeginChar => ts = ps.flatMap tokens ∧ items = ps.map item
  | .searchSpliter => ∃ ends : Option GeneralChar, (∀ u ∈ ends, Plain u) ∧ ts = rest ends ++ ps.flatMap tokens ∧
      items = ⟨s.bChar, ends.elim s.bChar GeneralChar.character⟩ :: ps.map item
  | .readingEndChar => ∃ u, Plain u ∧ ts = u :: ps.flatMap tokens ∧ items = ⟨s.bChar, u.character⟩ :: ps.map item

lemma item_eq (t : GeneralChar) (ends : Option GeneralChar) :
    item ⟨t, ends⟩ = ⟨t.character, ends.elim t.character GeneralChar.character⟩ := by
  cases ends <;> rfl

lemma fold_continues (hts : ∀ t ∈ ts, Inner t) (h : ts.foldlM groupStep s = some s')
    (hs : s.status ≠ .searchReverseTag) (hs' : s'.status ≠ .readingEndChar) :
    (finish s').reversed = s.reversed ∧ ∃ ps items, (∀ p ∈ ps, p.Over Plain) ∧ Continues s ts ps items ∧
      (finish s').componentList = s.componentList ++ items := by
  induction ts generalizing s with
  | nil =>
    obtain rfl : s = s' := Option.some.inj h
    obtain ⟨status, reversed, b, list⟩ := s
    cases status with
    | searchReverseTag => exact absurd rfl hs
    | readingBeginChar =>
      exact ⟨rfl, [], [], fun p hp => absurd hp List.not_mem_nil, ⟨rfl, rfl⟩, (List.append_nil list).symm⟩
    | searchSpliter =>
      refine ⟨rfl, [], [⟨b, b⟩], fun p hp => absurd hp List.not_mem_nil, ⟨none, ?_, rfl, rfl⟩, rfl⟩
      exact fun u hu => absurd hu (Option.not_mem_none u)
    | readingEndChar => exact absurd rfl hs'
  | cons t ts ih =>
    obtain ⟨s₁, hstep, hfold⟩ := Option.bind_eq_some_iff.1 h
    obtain ⟨⟨hv, hne⟩, hts⟩ := List.forall_mem_cons.1 hts
    obtain ⟨status, reversed, b, list⟩ := s
    cases status with
    | searchReverseTag => exact absurd rfl hs
    | readingBeginChar =>
      by_cases ht : t = spliteChar
      · cases (if_pos ht).symm.trans hstep
      · cases (if_neg ht).symm.trans hstep
        obtain ⟨hr, ps, items, hps, ⟨ends, hends, rfl, rfl⟩, hlist⟩ := ih hts hfold GroupStatus.noConfusion
        refine ⟨hr, ⟨t, ends⟩ :: ps, _, List.forall_mem_cons.2 ⟨⟨⟨hv, hne, ht⟩, hends⟩, hps⟩, ⟨rfl, rfl⟩, ?_⟩
        rw [hlist, List.map_cons, item_eq]
    | searchSpliter =>
      by_cases ht : t = spliteChar
      · cases (if_pos ht).symm.trans hstep
        obtain ⟨hr, ps, items, hps, ⟨u, hu, rfl, rfl⟩, hlist⟩ := ih hts hfold GroupStatus.noConfusion
        refine ⟨hr, ps, _, hps, ⟨some u, fun v hv => Option.some.inj hv ▸ hu, ?_, rfl⟩, hlist⟩
        rw [ht]
        rfl
      · cases (if_neg ht).symm.trans hstep
        obtain ⟨hr, ps, items, hps, ⟨ends, hends, rfl, rfl⟩, hlist⟩ := ih hts hfold GroupStatus.noConfusion
        refine ⟨hr, ⟨t, ends⟩ :: ps, _, List.forall_mem_cons.2 ⟨⟨⟨hv, hne, ht⟩, hends⟩, hps⟩,
          ⟨none, fun u hu => absurd hu (Option.not_mem_none u), rfl, rfl⟩, ?_⟩
        rw [hlist, List.append_assoc, List.map_cons, item_eq]
        rfl
    | readingEndChar =>
      by_cases ht : t = spliteChar
      · cases (if_pos ht).symm.trans hstep
      · cases (if_neg ht).symm.trans hstep
        obtain ⟨hr, ps, items, hps, ⟨rfl, rfl⟩, hlist⟩ := ih hts hfold GroupStatus.noConfusion
        refine ⟨hr, ps, _, hps, ⟨t, ⟨hv, hne, ht⟩, rfl, rfl⟩, ?_⟩
        rw [hlist, List.append_assoc]
        rfl

def Between (s : GroupState) : Prop := s.status = .searchSpliter ∨ s.status = .readingBeginChar

lemma groupStep_begin {t : GeneralChar} (hs : Between s) (ht : t ≠ spliteChar) :
    groupStep s t = some ⟨.searchSpliter, s.reversed, t.character, (finish s).componentList⟩ := by
  obtain ⟨status, reversed, b, list⟩ := s
  rcases hs with rfl | rfl <;> exact if_neg ht

lemma fold_rest (t : GeneralChar) {ends : Option GeneralChar} (hends : ∀ u ∈ ends, Plain u) (reversed : Bool)
    (list : List (CGroupItem Int8)) :
    ∃ s₁, (rest ends).foldlM groupStep ⟨.searchSpliter, reversed, t.character, list⟩ = some s₁ ∧ Between s₁ ∧
      s₁.reversed = reversed ∧ (finish s₁).componentList = list ++ [item ⟨t, ends⟩] := by
  cases ends with
  | none => exact ⟨_, rfl, Or.inl rfl, rfl, rfl⟩
  | some u =>
    refine ⟨⟨.readingBeginChar, reversed, t.character, list ++ [⟨t.character, u.character⟩]⟩, ?_, Or.inr rfl, rfl, rfl⟩
    apply Option.bind_eq_some_iff.2 ⟨_, rfl, ?_⟩
    apply Option.bind_eq_some_iff.2 ⟨_, if_neg (hends u rfl).2.2, rfl⟩

lemma fold_parts {ps : List ClassPart} (hps : ∀ p ∈ ps, p.Over Plain) (hs : Between s) :
    ∃ s₁, (ps.flatMap tokens).foldlM groupStep s = some s₁ ∧ Between s₁ ∧ s₁.reversed = s.reversed ∧
      (finish s₁).componentList = (finish s).componentList ++ ps.map item := by
  induction ps generalizing s with
  | nil => exact ⟨s, rfl, hs, rfl, (List.append_nil _).symm⟩
  | cons p ps ih =>
    obtain ⟨hp, hps⟩ := List.forall_mem_cons.1 hps
    obtain ⟨s₁, hfold₁, hs₁, hr₁, hlist₁⟩ := fold_rest p.begins hp.2 s.reversed (finish s).componentList
    obtain ⟨s₂, hfold₂, hs₂, hr₂, hlist₂⟩ := ih hps hs₁
    refine ⟨s₂, ?_, hs₂, hr₂.trans hr₁, ?_⟩
    · rw [List.flatMap_cons, List.foldlM_append]
      apply Option.bind_eq_some_iff.2 ⟨s₁, ?_, hfold₂⟩
      exact Option.bind_eq_some_iff.2 ⟨_, groupStep_begin hs hp.1.2.2, hfold₁⟩
    · rw [hlist₂, hlist₁, List.append_assoc]
      rfl

def firstState : GroupState := ⟨.searchReverseTag, false, 0, []⟩

lemma fold_class {reversed : Bool} {first : ClassPart} {ps : List ClassPart}
    (h : (ItemBody.cls reversed first ps).Shape) :
    ∃ s₁, (ItemBody.inner reversed (first :: ps)).foldlM groupStep firstState = some s₁ ∧
      Between s₁ ∧ s₁.reversed = reversed ∧ (finish s₁).componentList = (first :: ps).map item := by
  obtain ⟨hfirst, hps⟩ := h
  cases reversed with
  | false =>
    obtain ⟨s₁, hfold₁, hs₁, hr₁, hlist₁⟩ := fold_rest first.begins hfirst.2 false []
    obtain ⟨s₂, hfold₂, hs₂, hr₂, hlist₂⟩ := fold_parts hps hs₁
    refine ⟨s₂, ?_, hs₂, hr₂.trans hr₁, ?_⟩
    · rw [ItemBody.inner, List.flatMap_cons, ItemBody.mark, if_neg Bool.false_ne_true, List.nil_append, List.foldlM_append]
      apply Option.bind_eq_some_iff.2 ⟨s₁, ?_, hfold₂⟩
      exact Option.bind_eq_some_iff.2 ⟨_, if_neg hfirst.1.2.2, hfold₁⟩
    · rw [hlist₂, hlist₁]
      rfl
  | true =>
    have hparts : ∀ p ∈ first :: ps, p.Over Plain := List.forall_mem_cons.2 ⟨hfirst, hps⟩
    obtain ⟨s₁, hfold₁, hs₁, hr₁, hlist₁⟩ :=
      fold_parts (s := ⟨.readingBeginChar, true, 0, []⟩) hparts (Or.inr rfl)
    have hstep : groupStep firstState reverseChar = some ⟨.readingBeginChar, true, 0, []⟩ := rfl
    refine ⟨s₁, ?_, hs₁, hr₁, hlist₁⟩
    rw [ItemBody.inner, ItemBody.mark, if_pos rfl, List.singleton_append, List.foldlM_cons, hstep]
    exact hfold₁

lemma fold_firstState (hts : ∀ t ∈ ts, Inner t) (h : ts.foldlM groupStep firstState = some s')
    (hs' : Between s') (hne : (finish s').componentList ≠ []) :
    ∃ first ps, (ItemBody.cls (finish s').reversed first ps).Shape ∧
      ts = ItemBody.inner (finish s').reversed (first :: ps) ∧
      (finish s').componentList = (first :: ps).map item := by
  have hend : s'.status ≠ .readingEndChar := by
    intro he
    rcases hs' with hs' | hs' <;> cases he.symm.trans hs'
  cases ts with
  | nil =>
    cases h
    rcases hs' with hs' | hs' <;> cases hs'
  | cons t ts =>
    obtain ⟨s₁, hstep, hfold⟩ := Option.bind_eq_some_iff.1 h
    obtain ⟨⟨hv, hfin⟩, hts⟩ := List.forall_mem_cons.1 hts
    by_cases ht : t = reverseChar
    · cases (if_pos ht).symm.trans hstep
      obtain ⟨hr, ps, items, hps, ⟨rfl, rfl⟩, hlist⟩ := fold_continues hts hfold GroupStatus.noConfusion hend
      rw [hr]
      cases ps with
      | nil => exact absurd hlist hne
      | cons p ps =>
        obtain ⟨hp, hps⟩ := List.forall_mem_cons.1 hps
        exact ⟨p, ps, ⟨hp, hps⟩, ht ▸ rfl, hlist⟩
    · cases (if_neg ht).symm.trans hstep
      obtain ⟨hr, ps, items, hps, ⟨ends, hends, rfl, rfl⟩, hlist⟩ :=
        fold_continues hts hfold GroupStatus.noConfusion hend
      rw [hr]
      refine ⟨⟨t, ends⟩, ps, ⟨⟨⟨hv, hfin, ht⟩, hends⟩, hps⟩, rfl, ?_⟩
      rw [hlist, List.map_cons, item_eq]
      rfl

lemma finish_status (s : GroupState) : (finish s).status = s.status := by
  unfold finish
  split_ifs <;> rfl

lemma parseGroup_eq_some {reversed : Bool} {list : List (CGroupItem Int8)} :
    parseGroup it = some ((reversed, list), it') ↔ ∃ first ps, (ItemBody.cls reversed first ps).Shape ∧
      it = textOf (ItemBody.cls reversed first ps).tokens ++ it' ∧ list = (first :: ps).map item := by
  constructor
  · intro h
    obtain ⟨⟨gc, it₁⟩, hget, h⟩ := Option.bind_eq_some_iff.1 h
    dsimp only at h
    split_ifs at h with hbegin
    obtain ⟨⟨s, it₂⟩, hloop, h⟩ := Option.bind_eq_some_iff.1 h
    dsimp only at h
    split_ifs at h with hend
    cases h
    obtain ⟨-, rfl⟩ := getNextChar_eq_some.1 hget
    obtain ⟨ts, hts, rfl, s₁, hfold, rfl⟩ := groupLoop_eq_some.1 hloop
    rw [finish_status, not_or, not_and_or, not_not, not_not] at hend
    obtain ⟨first, ps, hshape, rfl, hlist⟩ := fold_firstState hts hfold hend.1 hend.2
    refine ⟨first, ps, hshape, ?_, hlist⟩
    rw [ItemBody.cls_tokens, textOf_cons, List.append_assoc, hbegin]
    rfl
  · rintro ⟨first, ps, hshape, rfl, rfl⟩
    obtain ⟨s₁, hfold, hs₁, hr, hlist⟩ := fold_class hshape
    have hloop : groupLoop firstState (textOf (ItemBody.inner reversed (first :: ps) ++ [finChar]) ++ it') =
        some (finish s₁, it') := groupLoop_eq_some.2 ⟨_, ItemBody.inner_inner hshape, rfl, s₁, hfold, rfl⟩
    have hbegin : ItemBody.beginChar.Valid := Or.inr (by decide)
    rw [ItemBody.cls_tokens, textOf_cons, List.append_assoc, parseGroup, getNextChar_text hbegin]
    refine Option.bind_eq_some_iff.2 ⟨_, rfl, (if_pos rfl).trans ?_⟩
    refine Option.bind_eq_some_iff.2 ⟨_, hloop, ?_⟩
    have hend : ¬((finish s₁).status ≠ .searchSpliter ∧ (finish s₁).status ≠ .readingBeginChar ∨
        (finish s₁).componentList = []) := by
      rw [finish_status, not_or, not_and_or, not_not, not_not, hlist]
      exact ⟨hs₁, List.cons_ne_nil _ _⟩
    apply (if_neg hend).trans
    rw [hlist, ← hr]
    unfold finish
    split_ifs <;> rfl

end CRegExpParser

end Xframe.Comserv
