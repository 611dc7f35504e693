import Mathlib.Tactic

/-! Numbers in base 128, low digit first. A set top bit says that another byte follows. -/

namespace Xframe.Lib.Base128

def value : List UInt8 → ℕ
  | [] => 0
  | b :: bs => b.toNat % 128 + 128 * value bs

inductive Group : List UInt8 → Prop
  | last {b : UInt8} : b.toNat < 128 → Group [b]
  | more {b : UInt8} {bs : List UInt8} : 128 ≤ b.toNat → Group bs → Group (b :: bs)

variable {bs cs g h r : List UInt8}

lemma value_append (bs cs : List UInt8) : value (bs ++ cs) = value bs + 128 ^ bs.length * value cs := by
  induction bs with
  | nil => simp [value]
  | cons b bs ih =>
    rw [List.cons_append, value, value, ih, List.length_cons, pow_succ]
    ring

lemma value_reverse_cons (b : UInt8) (bs : List UInt8) :
    value (b :: bs).reverse = value bs.reverse + 128 ^ bs.length * (b.toNat % 128) := by
  rw [List.reverse_cons, value_append, List.length_reverse, value, value, Nat.mul_zero, Nat.add_zero]

lemma Group.split (hg : Group g) : ∃ ms b, g = ms ++ [b] ∧ (∀ c ∈ ms, 128 ≤ c.toNat) ∧ b.toNat < 128 := by
  induction hg with
  | @last b hb => exact ⟨[], b, rfl, by simp, hb⟩
  | @more b bs hb _ ih =>
    obtain ⟨ms, c, rfl, hms, hc⟩ := ih
    exact ⟨b :: ms, c, rfl, List.forall_mem_cons.mpr ⟨hb, hms⟩, hc⟩

lemma Group.more_before (hg : Group g) (hr : r <+: g) (hlt : r.length < g.length) : ∀ b ∈ r, 128 ≤ b.toNat := by
  obtain ⟨ms, c, rfl, hms, -⟩ := hg.split
  rw [List.length_append, List.length_singleton] at hlt
  have hsub : r <+: ms := List.prefix_of_prefix_length_le hr (List.prefix_append ms [c]) (by omega)
  exact fun b hb => hms b (hsub.subset hb)

lemma Group.pos (hg : Group g) : 0 < g.length := by
  cases hg <;> simp

lemma group_or_more (bs : List UInt8) :
    (∃ g r, bs = g ++ r ∧ Group g) ∨ ∀ b ∈ bs, 128 ≤ b.toNat := by
  induction bs with
  | nil => exact Or.inr fun b hb => absurd hb List.not_mem_nil
  | cons b bs ih =>
    by_cases hb : b.toNat < 128
    · exact Or.inl ⟨[b], bs, rfl, .last hb⟩
    rw [Nat.not_lt] at hb
    rcases ih with ⟨g, r, rfl, hg⟩ | hmore
    · exact Or.inl ⟨b :: g, r, rfl, .more hb hg⟩
    · exact Or.inr fun c hc => (List.mem_cons.mp hc).elim (fun e => e ▸ hb) (hmore c)

lemma Group.unique (hg : Group g) (hh : Group h) (he : g ++ r = h ++ cs) : g = h ∧ r = cs := by
  induction hg generalizing h with
  | @last b hb =>
    cases hh with
    | last _ => simpa using he
    | more hc _ =>
      obtain ⟨rfl, -⟩ := List.cons.inj he
      omega
  | @more b bs hb _ ih =>
    cases hh with
    | last hc =>
      obtain ⟨rfl, -⟩ := List.cons.inj he
      omega
    | more hc hh =>
      obtain ⟨hb, ht⟩ := List.cons.inj he
      obtain ⟨rfl, rfl⟩ := ih hh ht
      exact ⟨by rw [hb], rfl⟩

lemma Group.not_more (hg : Group g) : ¬∀ b ∈ g ++ r, 128 ≤ b.toNat := by
  intro hmore
  induction hg with
  | @last b hb => exact absurd (hmore b (by simp)) (by omega)
  | more hb _ ih => exact ih fun c hc => hmore c (List.mem_cons_of_mem _ hc)

end Xframe.Lib.Base128
