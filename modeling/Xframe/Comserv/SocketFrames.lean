import Xframe.Lib.Frames
import Xframe.Comserv.SocketScan

/-! A stream of frames behind some garbage, of which a part is delivered and a part is dropped: where
the next frame stands in what is left. -/

namespace Xframe.Comserv.CSocket

open Xframe.Lib

def frames (ps : List Payload) : List UInt8 := (ps.map Payload.frame).flatten

lemma frames_append (ps qs : List Payload) : frames (ps ++ qs) = frames ps ++ frames qs := by
  rw [frames, List.map_append, List.flatten_append, frames, frames]

lemma frames_cons (p : Payload) (ps : List Payload) : frames (p :: ps) = p.frame ++ frames ps := by
  rw [frames, List.map_cons, List.flatten_cons, frames]

lemma Payload.lt_length_frame (p : Payload) : headLength < p.frame.length := by
  have := p.pos
  rw [p.length_frame]
  omega

def Leads (g : List UInt8) (ps : List Payload) : Prop := ∀ j < g.length, ¬delimiter <+: (g ++ frames ps).drop j

def Placed (g : List UInt8) (done : List Payload) (D c : List UInt8) : Prop :=
  ∃ j ≤ D.length, c = D.drop j ∧ (done = [] ∧ j ≤ g.length ∨ j = g.length + (frames done).length)

structure Cut (g : List UInt8) (done rest : List Payload) (D c x y : List UInt8) : Prop where
  eq : c = x ++ y
  free : Free x y
  arrived : y <+: frames rest
  placed : ∀ d ≤ x.length, Placed g done D (c.drop d)
  aligned : g.length ≤ D.length → D = g ++ frames done ++ y
  early : D.length < g.length → done = [] ∧ y = []
  behind : done ≠ [] ∨ g = [] → x = []

variable {g D c : List UInt8} {done rest : List Payload}

lemma Placed.append (h : Placed g done D c) (new : List UInt8) : Placed g done (D ++ new) (c ++ new) := by
  obtain ⟨j, hj, rfl, hplace⟩ := h
  exact ⟨j, by rw [List.length_append]; omega, (List.drop_append_of_le_length hj).symm, hplace⟩

lemma Leads.free {ps : List Payload} {x y : List UInt8} {j : ℕ} (hg : Leads g ps) (hD : D <+: g ++ frames ps)
    (heq : D.drop j = x ++ y) (hx : j + x.length ≤ g.length) : Free x y := by
  intro i hi hdel
  refine hg (j + i) (by omega) (hdel.trans ?_)
  rw [← heq, List.drop_drop]
  exact hD.drop _

lemma exists_cut (hg : Leads g (done ++ rest)) (hD : D <+: g ++ frames (done ++ rest)) (h : Placed g done D c) :
    ∃ x y, Cut g done rest D c x y := by
  obtain ⟨j, hj, rfl, hplace⟩ := h
  by_cases hpast : j = g.length + (frames done).length
  · rw [frames_append, ← List.append_assoc] at hD
    obtain ⟨y, rfl⟩ : g ++ frames done <+: D :=
      List.prefix_of_prefix_length_le (List.prefix_append _ _) hD (by rw [List.length_append]; omega)
    rw [List.drop_left' (by rw [List.length_append, hpast])]
    refine ⟨[], y, rfl, fun _ h => absurd h (Nat.not_lt_zero _), (List.prefix_append_right_inj _).mp hD, ?_,
      fun _ => rfl, fun h => ?_, fun _ => rfl⟩
    · intro d hd
      obtain rfl : d = 0 := Nat.le_zero.mp hd
      exact ⟨j, hj, by rw [List.drop_left' (by rw [List.length_append, hpast])]; rfl, .inr hpast⟩
    · simp only [List.length_append] at h
      omega
  · obtain ⟨rfl, hjg⟩ := hplace.resolve_right hpast
    rw [List.nil_append] at hg hD
    rcases lt_or_ge D.length g.length with hlt | hge
    · have hlen : (D.drop j).length = D.length - j := List.length_drop
      refine ⟨D.drop j, [], (List.append_nil _).symm, hg.free hD (List.append_nil _).symm (by omega),
        List.nil_prefix, ?_, fun h => by omega, fun _ => ⟨rfl, rfl⟩, ?_⟩
      · intro d hd
        exact ⟨j + d, by omega, List.drop_drop, .inl ⟨rfl, by omega⟩⟩
      · rintro (h | rfl)
        · exact absurd rfl h
        · exact absurd hlt (Nat.not_lt_zero _)
    · obtain ⟨y, rfl⟩ : g <+: D := List.prefix_of_prefix_length_le (List.prefix_append _ _) hD hge
      have hcut : (g ++ y).drop j = g.drop j ++ y := List.drop_append_of_le_length hjg
      have hlen : (g.drop j).length = g.length - j := List.length_drop
      refine ⟨g.drop j, y, hcut, hg.free hD hcut (by omega), (List.prefix_append_right_inj _).mp hD, ?_,
        fun _ => by rw [frames]; simp, fun h => by omega, ?_⟩
      · intro d hd
        exact ⟨j + d, by rw [List.length_append]; omega, List.drop_drop, .inl ⟨rfl, by omega⟩⟩
      · rintro (h | rfl)
        · exact absurd rfl h
        · exact List.drop_nil

/-- What is left when the receiver has to wait: a proper part of the next frame, or, while no more than
`12` bytes of the first frame have come behind garbage, no more than `12` bytes with that part in it. -/
def Left (g : List UInt8) (done rest : List Payload) (D c : List UInt8) : Prop :=
  D = g ++ frames done ++ c ∧ Unfinished c (rest.map Payload.frame) ∨
    g ≠ [] ∧ done = [] ∧ D.length ≤ g.length + headLength ∧ c.length ≤ headLength ∧ ∃ j ≤ g.length, c = D.drop j

lemma unfinished_of_le {y : List UInt8} (hy : y <+: frames rest) (hlen : y.length ≤ headLength) :
    Unfinished y (rest.map Payload.frame) := by
  cases rest with
  | nil => exact List.prefix_nil.mp hy
  | cons p rest =>
    have hp := p.lt_length_frame
    rw [frames_cons] at hy
    exact ⟨by omega, List.prefix_of_prefix_length_le hy (List.prefix_append _ _) (by omega)⟩

variable {x y : List UInt8}

lemma Cut.aligned_of_ne (h : Cut g done rest D c x y) (hne : y ≠ [] ∨ done ≠ [] ∨ g = []) :
    D = g ++ frames done ++ y := by
  refine h.aligned (not_lt.mp fun hlt => ?_)
  obtain ⟨h1, h2⟩ := h.early hlt
  rcases hne with hy | hd | rfl
  · exact hy h2
  · exact hd h1
  · exact absurd hlt (Nat.not_lt_zero _)

lemma Cut.left_short (h : Cut g done rest D c x y) (hy : y.length ≤ headLength) {d : ℕ} (hd : d ≤ x.length)
    (hc : c.length ≤ d + headLength) : Left g done rest D (c.drop d) := by
  by_cases hb : done ≠ [] ∨ g = []
  · left
    have hx := h.behind hb
    obtain rfl : d = 0 := by simpa [hx] using hd
    rw [h.eq, hx, List.drop_zero, List.nil_append]
    exact ⟨h.aligned_of_ne (.inr hb), unfinished_of_le h.arrived hy⟩
  · right
    obtain ⟨hdone, hg⟩ : done = [] ∧ g ≠ [] := by simpa [not_or] using hb
    have hD : D.length ≤ g.length + headLength := by
      rcases lt_or_ge D.length g.length with hlt | hge
      · omega
      · rw [h.aligned hge, hdone, frames, List.map_nil, List.flatten_nil, List.append_nil, List.length_append]
        omega
    obtain ⟨j, -, hj, hplace⟩ := h.placed d hd
    refine ⟨hg, hdone, hD, by rw [List.length_drop]; omega, j, ?_, hj⟩
    rcases hplace with ⟨-, hle⟩ | heq
    · exact hle
    · simp [heq, hdone, frames]

lemma Cut.left_part {p : Payload} (h : Cut g done (p :: rest) D c x y) (hy : headLength < y.length)
    (hlt : y.length < p.frame.length) : Left g done (p :: rest) D (c.drop x.length) := by
  have hne : y ≠ [] := List.length_pos_iff.mp (by omega)
  have harrived := h.arrived
  rw [frames_cons] at harrived
  rw [h.eq, List.drop_left]
  exact .inl ⟨h.aligned_of_ne (.inl hne), hlt,
    List.prefix_of_prefix_length_le harrived (List.prefix_append _ _) hlt.le⟩

lemma Cut.placed_frame {p : Payload} (h : Cut g done (p :: rest) D c x y) (hle : p.frame.length ≤ y.length) :
    Placed g (done ++ [p]) D (c.drop (x.length + p.frame.length)) := by
  have hpos := p.lt_length_frame
  have hD := h.aligned_of_ne (.inl (List.length_pos_iff.mp (by omega)))
  have hlen : (g ++ frames done).length + p.frame.length = g.length + (frames (done ++ [p])).length := by
    rw [frames_append, frames_cons, List.length_append, List.length_append, List.length_append]
    simp [frames, Nat.add_assoc]
  refine ⟨(g ++ frames done).length + p.frame.length, ?_, ?_, .inr hlen⟩
  · have := congrArg List.length hD
    rw [List.length_append] at this
    omega
  · rw [h.eq, hD, ← List.drop_drop, ← List.drop_drop, List.drop_left, List.drop_left]

lemma Placed.left_nil (h : Placed g done D []) (hd : done ≠ []) (hD : D <+: g ++ frames (done ++ rest)) :
    Left g done rest D [] := by
  obtain ⟨j, hj, hnil, hplace⟩ := h
  have hlen : j = g.length + (frames done).length := hplace.resolve_left fun h => hd h.1
  have hall : D.length ≤ j := List.drop_eq_nil_iff.mp hnil.symm
  refine .inl ⟨?_, Unfinished.nil fun f hf => ?_⟩
  · rw [frames_append, ← List.append_assoc] at hD
    have hlen' : D.length = (g ++ frames done).length := by
      rw [List.length_append]
      omega
    rw [List.append_nil]
    exact (List.prefix_of_prefix_length_le hD (List.prefix_append _ _) hlen'.le).eq_of_length hlen'
  · obtain ⟨p, -, rfl⟩ := List.mem_map.mp hf
    exact List.length_pos_iff.mp (p.lt_length_frame.trans_le' (Nat.zero_le _))

end Xframe.Comserv.CSocket
