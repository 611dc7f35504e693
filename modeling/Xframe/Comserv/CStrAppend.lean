import Xframe.Comserv.CStrRuns
import Xframe.Comserv.StringCodec

/-! What a `CStr` holds after bytes are appended or assigned, and for which lengths that fails. -/

namespace Xframe.Comserv.CStrObject

open Xframe.Lib Xframe.Lib.Act

variable {m m' t : CStrMem} {L C : ℤ} {b s src w : List UInt8} {off l : ℕ}

lemma Oversized.mono {C C' n n' : ℤ} (h : Oversized C' n) (hC : C ≤ C') (hn : n ≤ n') : Oversized C n' :=
  ⟨hC.trans_lt (h.1.trans_le hn), h.2.trans hn⟩

lemma int_of_not_oversized {n : ℤ} (hv : Valid m) (h : ¬Oversized m.str.capacity n) : n < 2 ^ 31 := by
  have hcap := capacity_bounds hv
  rw [Oversized] at h
  omega

structure Holds (m : CStrMem) (s : List UInt8) (t : CStrMem) : Prop where
  kept : Kept m t
  content : t.content = s
  grown : m.str.capacity ≤ t.str.capacity
  capacity : t.str.capacity ≤ max m.str.capacity (2 ^ 31 - 33)

lemma Holds.refl (hv : Valid m) : Holds m m.content m := ⟨⟨hv, Frame.refl m⟩, rfl, le_rfl, le_max_left _ _⟩

lemma Holds.trans (h : Holds m s m') (h' : Holds m' w t) : Holds m w t :=
  ⟨h.kept.trans h'.kept, h'.content, h.grown.trans h'.grown, h'.capacity.trans (max_le h.capacity (le_max_right _ _))⟩

lemma Holds.length (h : Holds m s t) : t.str.length = s.length := by
  rw [← length_content h.kept.1, h.content]

lemma State.holds (h : State m L C b t) (hview : View m L C b) (hf : Fit C b) (h0 : 0 ≤ L) (hle : L ≤ C)
    (hz : b[L.toNat]? = some 0) : Holds m (b.take L.toNat) t := by
  have hcap : t.str.capacity = m.str.capacity := h.view.capacity.trans hview.capacity.symm
  exact ⟨h.kept hf h0 hle hz, h.view.content, hcap.ge, hcap.le.trans (le_max_left _ _)⟩

lemma take_splice (h : off ≤ b.length) : (splice b off w).take off = b.take off := by
  rw [splice, List.append_assoc]
  exact List.take_left' (List.length_take_of_le h)

lemma take_splice_add (h : off ≤ b.length) (hl : l ≤ w.length) :
    (splice b off w).take (off + l) = b.take off ++ w.take l := by
  have hlen : (b.take off).length = off := List.length_take_of_le h
  rw [splice, List.append_assoc, List.take_append, hlen, Nat.add_sub_cancel_left, List.take_take,
    Nat.min_eq_right (Nat.le_add_right _ _), List.take_append_of_le_length hl]

variable (noise : ℕ → UInt8)

lemma append_holds (hv : Valid m) (hl : l ≤ src.length) (hsrc : src.length ≤ l + 1) (hfit : m.str.length + l < 2 ^ 31) :
    Ends (append noise l src) m
      (fun _ t => Holds m (m.content ++ src.take l) t ∧ ¬Oversized m.str.capacity (m.str.length + l))
      fun t => Holds m m.content t ∧ Oversized m.str.capacity (m.str.length + l) := by
  obtain ⟨L, C, b, hview, hf, hL, hle, hz⟩ := id hv
  have hsize := hf.size
  rw [hview.length] at hfit ⊢
  rw [hview.capacity, hview.content, append]
  refine (this_ends hview.state).bind ?_
  rintro _ t ⟨rfl, rfl, h⟩
  rw [hview.length, toInt_eq (by omega) hfit]
  refine ((growTo_copies noise h hf hL hle hfit).mono (fun _ _ ht => ht) fun t ht => ?_).bind ?_
  · refine ⟨ht.1.holds hview hf hL hle hz, ht.2⟩
  rintro - t ⟨⟨C', b', ht, hf', hCC, hC, hmax, htake⟩, hsmall⟩
  have hsize' := hf'.size
  refine (write_ends ht hL (by omega)).bind fun _ t ht => ?_
  refine (setLength_ends ht (L + l)).bind fun _ t ht => ?_
  have hlen : (splice b' L.toNat src).length = b'.length := length_splice (by omega)
  refine (write_ends ht (by omega) (by rw [hlen, List.length_singleton]; omega)).mono (fun _ t ht => ?_) fun _ ht => ht
  have hsplit : (L + l).toNat = L.toNat + l := by omega
  have hzero := splice_zero (L + l).toNat (b := splice b' L.toNat src) (i := 0)
    (show _ + ([0] : List UInt8).length ≤ _ by rw [hlen, List.length_singleton]; omega) rfl
  have hfit' : Fit C' (splice (splice b' L.toNat src) (L + l).toNat [0]) :=
    (hf'.splice (by omega)).splice (by rw [hlen, List.length_singleton]; omega)
  refine ⟨⟨ht.kept hfit' (by omega) hC hzero, ?_, ?_, ?_⟩, hsmall⟩
  · have hold : b'.take L.toNat = b.take L.toNat := by
      have hshort := congrArg (List.take L.toNat) htake
      rwa [List.take_take, List.take_take, Nat.min_eq_left (by omega)] at hshort
    rw [ht.view.content, take_splice (by rw [hlen]; omega), hsplit, take_splice_add (by omega) hl, hold]
  · rwa [ht.view.capacity, hview.capacity]
  · rwa [ht.view.capacity, hview.capacity]

lemma appendChar_holds (hv : Valid m) (c : UInt8) :
    Ends (appendChar noise c) m
      (fun _ t => Holds m (m.content ++ [c]) t ∧ ¬Oversized m.str.capacity (m.str.length + 1))
      fun t => Holds m m.content t ∧ Oversized m.str.capacity (m.str.length + 1) := by
  have hfit : m.str.length + (1 : ℕ) < 2 ^ 31 := by
    have hcap := capacity_bounds hv
    omega
  exact append_holds noise hv (le_refl [c].length) (Nat.le_succ 1) hfit

lemma append_done (hv : Valid m) (hl : l ≤ src.length) (hsrc : src.length ≤ l + 1)
    (h : ¬Oversized m.str.capacity (m.str.length + l)) :
    Ends (append noise l src) m (fun _ t => Holds m (m.content ++ src.take l) t) fun _ => False := by
  exact (append_holds noise hv hl hsrc (int_of_not_oversized hv h)).mono (fun _ _ ht => ht.1) fun _ ht => h ht.2

lemma append_not_done (hv : Valid m) (hlt : (l : ℤ) < 2 ^ 31) (hl : l ≤ src.length) (hsrc : src.length ≤ l + 1)
    (h : Oversized m.str.capacity (m.str.length + l)) (Q : Unit → CStrMem → Prop) :
    ¬Ends (append noise l src) m Q fun _ => False := by
  intro hends
  by_cases hfit : m.str.length + l < 2 ^ 31
  · have happend := append_holds noise hv hl hsrc hfit
    obtain ⟨_, t, ht, -⟩ := hends.done
    rw [Ends, ht] at happend
    exact happend.2 h
  · rw [Ends, CStrWorld.appendBytes_faults noise hv hlt (by omega)] at hends
    exact hends

lemma nCat_done (hv : Valid m) (h : ¬Oversized m.str.capacity (m.str.length + s.length)) :
    Ends (nCat noise s) m (fun _ t => Holds m (m.content ++ s) t) fun _ => False := by
  have hdone := append_done noise hv (le_refl s.length) (Nat.le_succ _) h
  rwa [List.take_length] at hdone

lemma nCat_not_done (hv : Valid m) (hlt : (s.length : ℤ) < 2 ^ 31)
    (h : Oversized m.str.capacity (m.str.length + s.length)) (Q : Unit → CStrMem → Prop) :
    ¬Ends (nCat noise s) m Q fun _ => False :=
  append_not_done noise hv hlt le_rfl (Nat.le_succ _) h Q

lemma appendStr_eq (hlt : (s.length : ℤ) < 2 ^ 31) : appendStr noise s = append noise s.length (s ++ [0]) := by
  have hint : toInt (s.length : ℤ) = s.length := toInt_eq (by omega) hlt
  have hfit : (0 : ℤ) ≤ s.length + 1 ∧ (s.length : ℤ) + 1 ≤ (s ++ [0]).length := by
    rw [List.length_append, List.length_singleton]
    omega
  have htake : (s ++ [0]).take ((s.length : ℤ) + 1).toNat = s ++ [0] := by
    rw [List.take_of_length_le]
    rw [List.length_append, List.length_singleton]
    omega
  rw [appendStr, hint, argument, if_pos hfit, htake]
  rfl

lemma appendStr_done (hv : Valid m) (h : ¬Oversized m.str.capacity (m.str.length + s.length)) :
    Ends (appendStr noise s) m (fun _ t => Holds m (m.content ++ s) t) fun _ => False := by
  have hlt : (s.length : ℤ) < 2 ^ 31 := by
    have hcap := capacity_bounds hv
    have hint := int_of_not_oversized hv h
    omega
  have hdone := append_done noise hv (show s.length ≤ (s ++ [0]).length by simp) (by simp) h
  rw [List.take_left] at hdone
  rwa [appendStr_eq noise hlt]

lemma appendStr_not_done (hv : Valid m) (hlt : (s.length : ℤ) < 2 ^ 31)
    (h : Oversized m.str.capacity (m.str.length + s.length)) (Q : Unit → CStrMem → Prop) :
    ¬Ends (appendStr noise s) m Q fun _ => False := by
  rw [appendStr_eq noise hlt]
  exact append_not_done noise hv hlt (by simp) (by simp) h Q

lemma assign_holds (hv : Valid m) (s : List UInt8) (hfit : (s.length : ℤ) < 2 ^ 31) :
    Ends (assign noise s.length (s ++ [0])) m (fun _ t => Holds m s t ∧ ¬Oversized m.str.capacity s.length)
      fun t => Holds m m.content t ∧ Oversized m.str.capacity s.length := by
  obtain ⟨L, C, b, hview, hf, hL, hle, hz⟩ := id hv
  have hlen : (s ++ [0]).length = s.length + 1 := List.length_append
  rw [hview.capacity, hview.content, assign]
  refine ((growTo_copies noise hview.state hf hL hle hfit).mono (fun _ _ ht => ht) fun t ht => ?_).bind ?_
  · refine ⟨ht.1.holds hview hf hL hle hz, ht.2⟩
  rintro - t ⟨⟨C', b', ht, hf', hCC, hC, hmax, htake⟩, hsmall⟩
  have hsize' := hf'.size
  refine (setLength_ends ht s.length).bind fun _ t ht => ?_
  have hroom : 0 + (s ++ [0]).length ≤ b'.length := by omega
  refine (write_ends ht le_rfl (by omega)).mono (fun _ t ht => ?_) fun _ ht => ht
  have hzero := splice_zero 0 hroom (List.getElem?_concat_length ..)
  have htaken : (splice b' 0 (s ++ [0])).take s.length = s := by
    rw [splice, List.take_zero, List.nil_append, List.append_assoc, List.take_left]
  rw [Nat.zero_add] at hzero
  refine ⟨⟨ht.kept (hf'.splice hroom) (by omega) hC hzero,
    ?_, ?_, ?_⟩, hsmall⟩
  · rw [ht.view.content]
    exact htaken
  · rwa [ht.view.capacity, hview.capacity]
  · rwa [ht.view.capacity, hview.capacity]

end Xframe.Comserv.CStrObject
