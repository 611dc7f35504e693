import Xframe.Lib.Returns

/-! Encodings written one behind the other, and objects that are decoded from them in the same order. -/

namespace Xframe.Lib

variable {α τ β : Type}

def encodeAll (encode : α → Option (List β)) : List α → Option (List β)
  | [] => some []
  | a :: as => do
    let code ← encode a
    let codes ← encodeAll encode as
    some (code ++ codes)

def decodeAll (decode : τ → List β → Option (τ × List β)) : List τ → List β → Option (List τ × List β)
  | [], buf => some ([], buf)
  | t :: ts, buf => do
    let (t, buf) ← decode t buf
    let (ts, buf) ← decodeAll decode ts buf
    some (t :: ts, buf)

theorem decodeAll_iff {encode : α → Option (List β)} {decode : τ → List β → Option (τ × List β)}
    {Pair Good : α → τ → Prop} {P : α → τ → Prop}
    (hone : ∀ a t, Pair a t → Returns (encode a) fun code => ∀ rest,
      decode t (code ++ rest) = none ∧ ¬Good a t ∨
        ∃ t', decode t (code ++ rest) = some (t', rest) ∧ (P a t' ↔ Good a t))
    {as : List α} {ts : List τ} (h : List.Forall₂ Pair as ts) (rest : List β) :
    Returns (encodeAll encode as) fun code =>
      Returns (decodeAll decode ts (code ++ rest)) (fun (ts', left) => left = rest ∧ List.Forall₂ P as ts') ↔
        List.Forall₂ Good as ts := by
  induction h with
  | nil =>
    rw [encodeAll, returns_some, List.nil_append, decodeAll, returns_some]
    exact iff_of_true ⟨rfl, .nil⟩ .nil
  | @cons a t as ts hpair hpairs ih =>
    rw [encodeAll]
    refine (hone a t hpair).bind fun code hcode => ?_
    refine ih.bind fun codes hcodes => ?_
    rw [returns_some, List.forall₂_cons, List.append_assoc, decodeAll]
    rcases hcode (codes ++ rest) with ⟨hnone, hbad⟩ | ⟨t', hsome, hp⟩
    · rw [hnone]
      refine iff_of_false ?_ fun hgood => hbad hgood.1
      rintro ⟨_, hfail, -⟩
      cases hfail
    · rw [hsome, ← hp, ← hcodes]
      dsimp only [Option.bind_eq_bind, Option.bind_some]
      cases hrest : decodeAll decode ts (codes ++ rest) with
      | none =>
        refine iff_of_false ?_ ?_
        · rintro ⟨_, hfail, -⟩
          cases hfail
        · rintro ⟨-, _, hfail, -⟩
          cases hfail
      | some r =>
        obtain ⟨ts', left⟩ := r
        dsimp only [Option.bind_some]
        rw [returns_some, returns_some, List.forall₂_cons]
        tauto

end Xframe.Lib
