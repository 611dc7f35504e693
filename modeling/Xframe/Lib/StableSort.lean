import Mathlib.Data.List.TakeWhile
import Mathlib.Tactic

/-! Insertion behind the elements that rank with the new one. From the empty list it makes the stable sort, which
is the only sorted list that keeps the order of the elements of each rank. -/

namespace Xframe.Lib

variable {α : Type} {le : α → α → Bool} {v : α} {l l' : List α}

structure Ranks (le : α → α → Bool) : Prop where
  trans : ∀ a b c, le a b → le b c → le a c
  total : ∀ a b, le a b || le b a

def alike (le : α → α → Bool) (a b : α) : Bool := le a b && le b a

def insertLast (le : α → α → Bool) (v : α) (l : List α) : List α :=
  l.takeWhile (fun x => le x v) ++ v :: l.dropWhile fun x => le x v

namespace Ranks

lemma refl (h : Ranks le) (a : α) : le a a := by simpa using h.total a a

lemma le_of_not (h : Ranks le) {a b : α} (hab : ¬le a b) : le b a := by
  rcases Bool.or_eq_true_iff.mp (h.total a b) with hle | hle
  · exact (hab hle).elim
  · exact hle

lemma alike_self (h : Ranks le) (a : α) : alike le a a := by
  rw [alike, h.refl a]
  rfl

lemma not_le_of_mem_dropWhile (h : Ranks le) (hl : l.Pairwise fun a b => le a b) {x : α}
    (hx : x ∈ l.dropWhile fun y => le y v) : ¬le x v := by
  cases hd : l.dropWhile fun y => le y v with
  | nil => simp [hd] at hx
  | cons y r =>
    have hy : ¬le y v := by
      have hhead := List.head?_dropWhile_not (fun y => le y v) l
      rw [hd] at hhead
      exact Bool.eq_false_iff.mp hhead
    have hsorted : (y :: r).Pairwise fun a b => le a b := hd ▸ hl.sublist (List.dropWhile_sublist _)
    rw [hd] at hx
    rcases List.mem_cons.mp hx with rfl | hx
    · exact hy
    · intro hxv
      exact hy (h.trans _ _ _ ((List.pairwise_cons.mp hsorted).1 x hx) hxv)

end Ranks

lemma insertLast_perm (le : α → α → Bool) (v : α) (l : List α) : (insertLast le v l).Perm (v :: l) := by
  have hmid : (insertLast le v l).Perm (v :: ((l.takeWhile fun x => le x v) ++ l.dropWhile fun x => le x v)) :=
    List.perm_middle
  rwa [List.takeWhile_append_dropWhile] at hmid

lemma insertLast_sorted (h : Ranks le) (hl : l.Pairwise fun a b => le a b) :
    (insertLast le v l).Pairwise fun a b => le a b := by
  have hsplit := List.takeWhile_append_dropWhile (p := fun x => le x v) (l := l)
  rw [← hsplit] at hl
  obtain ⟨htake, hdrop, hacross⟩ := List.pairwise_append.mp hl
  rw [hsplit] at hl
  apply List.pairwise_append.mpr
  refine ⟨htake, List.pairwise_cons.mpr ⟨fun x hx => ?_, hdrop⟩, fun a ha b hb => ?_⟩
  · exact h.le_of_not (h.not_le_of_mem_dropWhile hl hx)
  · rcases List.mem_cons.mp hb with rfl | hb
    · exact List.mem_takeWhile_imp (p := fun x => le x b) ha
    · exact hacross a ha b hb

lemma filter_insertLast (h : Ranks le) (hl : l.Pairwise fun a b => le a b) (a : α) :
    (insertLast le v l).filter (alike le a) = (l ++ [v]).filter (alike le a) := by
  have hsplit := List.takeWhile_append_dropWhile (p := fun x => le x v) (l := l)
  conv_rhs => rw [← hsplit]
  rw [insertLast, List.filter_append, List.filter_append, List.filter_append, List.append_assoc]
  congr 1
  by_cases hv : alike le a v
  · have hnone : (l.dropWhile fun x => le x v).filter (alike le a) = [] := by
      apply List.filter_eq_nil_iff.mpr
      intro x hx hax
      apply h.not_le_of_mem_dropWhile hl hx
      rw [alike, Bool.and_eq_true] at hax hv
      exact h.trans _ _ _ hax.2 hv.1
    rw [List.filter_cons_of_pos hv, hnone, List.nil_append, List.filter_cons_of_pos hv, List.filter_nil]
  · rw [List.filter_cons_of_neg hv, List.filter_cons_of_neg hv, List.filter_nil, List.append_nil]

lemma first_le_of_filter (h : Ranks le) {a b : α} (hl : (b :: l').Pairwise fun a b => le a b)
    (hf : (a :: l).filter (alike le a) = (b :: l').filter (alike le a)) : le b a := by
  have hmem : a ∈ (b :: l').filter (alike le a) := by
    rw [← hf, List.filter_cons_of_pos (h.alike_self a)]
    exact List.mem_cons_self
  rcases List.mem_cons.mp (List.mem_of_mem_filter hmem) with rfl | hin
  · exact h.refl _
  · exact (List.pairwise_cons.mp hl).1 a hin

lemma sorted_unique (h : Ranks le) (hl : l.Pairwise fun a b => le a b) (hl' : l'.Pairwise fun a b => le a b)
    (hf : ∀ a, l.filter (alike le a) = l'.filter (alike le a)) : l = l' := by
  induction l generalizing l' with
  | nil =>
    cases l' with
    | nil => rfl
    | cons b l' =>
      have hb := hf b
      rw [List.filter_cons_of_pos (h.alike_self b)] at hb
      cases hb
  | cons a l ih =>
    cases l' with
    | nil =>
      have ha := hf a
      rw [List.filter_cons_of_pos (h.alike_self a)] at ha
      cases ha
    | cons b l' =>
      have hba : le b a := first_le_of_filter h hl' (hf a)
      have hab : le a b := first_le_of_filter h hl (hf b).symm
      have halike : alike le a b := by rw [alike, hab, hba]; rfl
      have hhead := hf a
      rw [List.filter_cons_of_pos (h.alike_self a), List.filter_cons_of_pos halike] at hhead
      obtain rfl : a = b := (List.cons.inj hhead).1
      rw [ih (List.pairwise_cons.mp hl).2 (List.pairwise_cons.mp hl').2 fun c => ?_]
      have hc := hf c
      by_cases hca : alike le c a
      · rw [List.filter_cons_of_pos hca, List.filter_cons_of_pos hca] at hc
        exact (List.cons.inj hc).2
      · rwa [List.filter_cons_of_neg hca, List.filter_cons_of_neg hca] at hc

lemma filter_mergeSort (h : Ranks le) (l : List α) (a : α) :
    (l.mergeSort le).filter (alike le a) = l.filter (alike le a) := by
  have hpair : (l.filter (alike le a)).Pairwise fun x y => le x y := by
    apply List.pairwise_iff_forall_sublist.mpr
    intro x y hxy
    have hx := List.of_mem_filter (hxy.mem (List.mem_cons_self))
    have hy := List.of_mem_filter (hxy.mem (List.mem_cons_of_mem _ List.mem_cons_self))
    rw [alike, Bool.and_eq_true] at hx hy
    exact h.trans _ _ _ hx.2 hy.1
  have hsub := (List.sublist_mergeSort h.trans h.total hpair List.filter_sublist).filter (alike le a)
  simp only [List.filter_filter, Bool.and_self] at hsub
  exact (hsub.eq_of_length ((List.mergeSort_perm l le).filter _).length_eq.symm).symm

theorem foldl_insertLast (h : Ranks le) (l : List α) :
    l.foldl (fun sorted v => insertLast le v sorted) [] = l.mergeSort le := by
  have hfold : (l.foldl (fun sorted v => insertLast le v sorted) []).Pairwise (fun a b => le a b) ∧
      ∀ a, (l.foldl (fun sorted v => insertLast le v sorted) []).filter (alike le a) = l.filter (alike le a) := by
    induction l using List.reverseRecOn with
    | nil => exact ⟨List.Pairwise.nil, fun a => rfl⟩
    | append_singleton l v ih =>
      obtain ⟨hsorted, hclass⟩ := ih
      rw [List.foldl_append]
      refine ⟨insertLast_sorted h hsorted, fun a => ?_⟩
      rw [List.foldl_cons, List.foldl_nil, filter_insertLast h hsorted, List.filter_append, hclass, List.filter_append]
  apply sorted_unique h hfold.1 (List.pairwise_mergeSort h.trans h.total l)
  intro a
  rw [hfold.2, filter_mergeSort h]

end Xframe.Lib
