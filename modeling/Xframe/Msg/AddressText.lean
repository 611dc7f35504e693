import Xframe.Msg.UriText

/-! The text of a `TMsgAddress`: what `encodeCStr` writes, `decodeCStr` reads. -/

namespace Xframe.Msg.TMsgAddress

open CStr (ofString ofInt toInt split strstr)

def encodeCStrTo (a : TMsgAddress) (buf : CStr) : Bool × CStr := (true, buf ++ encodeCStr a)

def decodeCStrFrom (a : TMsgAddress) (buf : CStr) : Bool × TMsgAddress :=
  ((split (ofString "_") 3 buf).length = 3, a.decodeCStr buf)

lemma separator_eq : ofString "_" = [95] := CStr.ofString_ofList (List.forall_mem_singleton.mpr (by decide))

lemma ofInt_no_separator (n : ℤ) : 95 ∉ ofInt n := by
  rw [CStr.ofInt_eq]
  intro h
  rcases List.mem_append.mp h with hsign | hdigit
  · split_ifs at hsign with hneg
    · exact absurd hsign (by decide)
    · exact List.not_mem_nil hsign
  · exact absurd (CStr.decimal_isDigit hdigit) (by decide)

lemma ofInt_ne_nil (n : ℤ) : ofInt n ≠ [] := by
  rw [CStr.ofInt_eq]
  exact List.append_ne_nil_of_right_ne_nil _ (CStr.decimal_ne_nil _)

lemma uint_printed {n : ℕ} (h : n < 2 ^ 32) : uint (toInt (printed n)) = n := by
  have hprinted : -2 ^ 31 ≤ (if n < 2 ^ 31 then (n : ℤ) else n - 2 ^ 32) ∧
      (if n < 2 ^ 31 then (n : ℤ) else n - 2 ^ 32) < 2 ^ 31 := by
    split_ifs <;> omega
  rw [printed, CStr.toInt_ofInt hprinted.1 hprinted.2, uint]
  split_ifs <;> omega

lemma split_encodeCStr (a : TMsgAddress) :
    split (ofString "_") 3 a.encodeCStr = [printed a.logAddr, printed a.phyAddr, printed a.taskInstID] := by
  have hlast : strstr [95] (printed a.taskInstID) = none :=
    CStr.strstr_eq_none List.mem_cons_self (ofInt_no_separator _)
  rw [encodeCStr, separator_eq, List.append_assoc, List.append_assoc, List.append_assoc]
  apply CStr.split_three
  · exact ofInt_no_separator _
  · exact ofInt_no_separator _
  · exact ofInt_ne_nil _
  · exact hlast

theorem decode_encoded_text (logAddr phyAddr taskInstID : UInt32) (a : TMsgAddress) :
    let (done, buf) := encodeCStrTo ⟨logAddr.toNat, phyAddr.toNat, taskInstID.toNat⟩ []
    done = true ∧ a.decodeCStrFrom buf = (true, ⟨logAddr.toNat, phyAddr.toNat, taskInstID.toNat⟩) := by
  refine ⟨rfl, ?_⟩
  rw [List.nil_append, decodeCStrFrom, decodeCStr, split_encodeCStr]
  dsimp only
  rw [uint_printed logAddr.toNat_lt, uint_printed phyAddr.toNat_lt, uint_printed taskInstID.toNat_lt]
  rfl

end Xframe.Msg.TMsgAddress
