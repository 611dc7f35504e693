import Mathlib.Tactic

/-! Walks along a partial successor function, and closed loops through a sentinel. The cells of an
intrusive list are the visited points of such a walk, one walk for each link direction. -/

namespace Xframe.Lib

lemma update_defined {α β : Type} [DecidableEq α] {f : α → Option β} {x y : α} {b : β}
    (h : f y ≠ none) : Function.update f x (some b) y ≠ none := by
  rw [Function.update_apply]
  split
  · exact Option.some_ne_none b
  · exact h

variable {α : Type}

/-- `Walk f p ps q`: following `f` from `p` visits exactly `ps`, in order, and arrives at `q`. -/
def Walk (f : α → Option α) : α → List α → α → Prop
  | p, [], q => p = q
  | p, x :: xs, q => p = x ∧ ∃ y, f x = some y ∧ Walk f y xs q

@[simp] lemma walk_nil (f : α → Option α) (p q : α) : Walk f p [] q ↔ p = q := Iff.rfl

lemma walk_cons (f : α → Option α) (p x q : α) (xs : List α) :
    Walk f p (x :: xs) q ↔ p = x ∧ ∃ y, f x = some y ∧ Walk f y xs q := Iff.rfl

lemma walk_append (f : α → Option α) (p q : α) (xs ys : List α) :
    Walk f p (xs ++ ys) q ↔ ∃ m, Walk f p xs m ∧ Walk f m ys q := by
  induction xs generalizing p with
  | nil => simp
  | cons x xs ih =>
    simp only [List.cons_append, walk_cons, ih]
    constructor
    · rintro ⟨rfl, y, hy, m, hx, hm⟩
      exact ⟨m, ⟨rfl, y, hy, hx⟩, hm⟩
    · rintro ⟨m, ⟨rfl, y, hy, hx⟩, hm⟩
      exact ⟨rfl, y, hy, m, hx, hm⟩

lemma walk_snoc (f : α → Option α) (p x q : α) (xs : List α) :
    Walk f p (xs ++ [x]) q ↔ Walk f p xs x ∧ f x = some q := by
  simp only [walk_append, walk_cons, walk_nil]
  constructor
  · rintro ⟨m, hm, rfl, y, hy, rfl⟩
    exact ⟨hm, hy⟩
  · rintro ⟨hm, hq⟩
    exact ⟨x, hm, rfl, q, hq, rfl⟩

lemma Walk.congr {f g : α → Option α} {p q : α} {xs : List α} (h : Walk f p xs q)
    (hfg : ∀ x ∈ xs, g x = f x) : Walk g p xs q := by
  induction xs generalizing p with
  | nil => exact h
  | cons x xs ih =>
    obtain ⟨rfl, y, hy, hw⟩ := h
    exact ⟨rfl, y, by rw [hfg p (by simp), hy], ih hw (fun x hx => hfg x (by simp [hx]))⟩

lemma Walk.defined {f : α → Option α} {p q : α} {xs : List α} (h : Walk f p xs q) :
    ∀ x ∈ xs, f x ≠ none := by
  induction xs generalizing p with
  | nil => simp
  | cons x xs ih =>
    obtain ⟨rfl, y, hy, hw⟩ := h
    intro z hz
    rcases List.mem_cons.mp hz with rfl | hz
    · simp [hy]
    · exact ih hw z hz

lemma Walk.unique {f : α → Option α} {p q r : α} {xs ys : List α} (hx : Walk f p xs q)
    (hy : Walk f p ys r) (hl : xs.length = ys.length) : xs = ys ∧ q = r := by
  induction xs generalizing p ys with
  | nil =>
    obtain rfl := List.eq_nil_of_length_eq_zero hl.symm
    exact ⟨rfl, hx.symm.trans hy⟩
  | cons x xs ih =>
    cases ys with
    | nil => simp at hl
    | cons z ys =>
      obtain ⟨rfl, y, hy', hw⟩ := hx
      obtain ⟨rfl, y', hy'', hw'⟩ := hy
      obtain rfl : y = y' := Option.some.inj (hy'.symm.trans hy'')
      obtain ⟨rfl, rfl⟩ := ih hw hw' (by simpa using hl)
      exact ⟨rfl, rfl⟩

lemma Walk.unique_end {f : α → Option α} {p q : α} {xs ys : List α} (hx : Walk f p xs q)
    (hy : Walk f p ys q) (hq : f q = none) : xs = ys := by
  induction xs generalizing p ys with
  | nil =>
    obtain rfl : p = q := hx
    cases ys with
    | nil => rfl
    | cons y ys =>
      obtain ⟨rfl, z, hz, -⟩ := hy
      simp [hq] at hz
  | cons x xs ih =>
    obtain ⟨rfl, z, hz, hw⟩ := hx
    cases ys with
    | nil =>
      obtain rfl : p = q := hy
      simp [hq] at hz
    | cons y ys =>
      obtain ⟨rfl, z', hz', hw'⟩ := hy
      obtain rfl : z = z' := Option.some.inj (hz.symm.trans hz')
      rw [ih hw hw']

lemma Walk.nodup {f : α → Option α} {p q : α} {xs : List α} (h : Walk f p xs q) (hq : f q = none) :
    xs.Nodup := by
  induction xs generalizing p with
  | nil => exact List.nodup_nil
  | cons x xs ih =>
    have hcons := h
    obtain ⟨rfl, y, hy, hw⟩ := h
    refine List.nodup_cons.mpr ⟨fun hmem => ?_, ih hw⟩
    obtain ⟨l, r, rfl⟩ := List.append_of_mem hmem
    obtain ⟨z, -, hz⟩ := (walk_append _ _ _ _ _).mp hw
    obtain rfl := hz.1
    have := congrArg List.length (hz.unique_end hcons hq)
    simp at this
    omega

def Loop (f : α → Option α) (tag : α) (ps : List α) : Prop :=
  Walk f tag (tag :: ps) tag

lemma Loop.walk {f : α → Option α} {tag : α} {ps : List α} (h : Loop f tag ps) :
    Walk f (ps.headD tag) ps tag ∧ f tag = some (ps.headD tag) := by
  obtain ⟨-, y, hy, hw⟩ := h
  have hh : y = ps.headD tag := by
    cases ps with
    | nil => exact hw
    | cons x xs => exact hw.1
  exact ⟨hh ▸ hw, hh ▸ hy⟩

lemma Loop.defined {f : α → Option α} {tag : α} {ps : List α} (h : Loop f tag ps) {p : α}
    (hp : p ∈ tag :: ps) : f p ≠ none :=
  Walk.defined h p hp

lemma Loop.congr {f g : α → Option α} {tag : α} {ps : List α} (h : Loop f tag ps)
    (hfg : ∀ x ∈ tag :: ps, g x = f x) : Loop g tag ps :=
  Walk.congr h hfg

lemma cons_eq_snoc (tag : α) (l : List α) :
    tag :: l = (tag :: l).dropLast ++ [l.getLastD tag] := by
  have h := (List.dropLast_append_getLast (l := tag :: l) (by simp)).symm
  rwa [List.getLast_eq_getLastD] at h

lemma Walk.head_eq {f : α → Option α} {p q : α} {ps : List α} (h : Walk f p ps q) :
    p = ps.headD q := by
  cases ps with
  | nil => exact h
  | cons x xs => exact h.1

lemma loop_append {f : α → Option α} {tag : α} {l r : List α} :
    Loop f tag (l ++ r) ↔ Walk f tag (tag :: l).dropLast (l.getLastD tag) ∧
      f (l.getLastD tag) = some (r.headD tag) ∧ Walk f (r.headD tag) r tag := by
  have hc : Loop f tag (l ++ r) ↔ Walk f tag ((tag :: l).dropLast ++ [l.getLastD tag] ++ r) tag := by
    rw [← cons_eq_snoc]
    exact Iff.rfl
  simp only [hc, walk_append f tag tag, walk_snoc]
  constructor
  · rintro ⟨m, ⟨hk, hm⟩, hr⟩
    obtain rfl := hr.head_eq
    exact ⟨hk, hm, hr⟩
  · rintro ⟨hk, hm, hr⟩
    exact ⟨_, ⟨hk, hm⟩, hr⟩

lemma Loop.before {f : α → Option α} {tag x : α} {l r : List α} (h : Loop f tag (l ++ x :: r)) :
    f (l.getLastD tag) = some x :=
  (loop_append.mp h).2.1

lemma Loop.after {f : α → Option α} {tag x : α} {l r : List α} (h : Loop f tag (l ++ x :: r)) :
    f x = some (r.headD tag) := by
  obtain ⟨-, y, hy, hr⟩ := (loop_append.mp h).2.2
  rw [hy, hr.head_eq]

lemma getLastD_notMem {tag : α} {l r : List α} (h : (tag :: (l ++ r)).Nodup) :
    l.getLastD tag ∉ (tag :: l).dropLast ∧ l.getLastD tag ∉ r := by
  rw [← List.cons_append, cons_eq_snoc tag l, List.append_assoc, List.nodup_append] at h
  obtain ⟨-, hr, hd⟩ := h
  exact ⟨fun hm => hd _ hm _ (by simp) rfl, (List.nodup_cons.mp hr).1⟩

section Update

variable [DecidableEq α]

lemma Walk.update {f : α → Option α} {p q a : α} {xs : List α} (h : Walk f p xs q) (ha : a ∉ xs)
    (b : Option α) : Walk (Function.update f a b) p xs q :=
  h.congr fun x hx => Function.update_of_ne (fun e : x = a => ha (e ▸ hx)) _ _

lemma Walk.skip {f : α → Option α} {p q u x y : α} {a b : List α} (h : Walk f p (a ++ u :: x :: b) q)
    (hn : (a ++ u :: x :: b).Nodup) (hy : f x = some y) :
    Walk (Function.update f u (some y)) p (a ++ u :: b) q := by
  obtain ⟨m, ha, rfl, z, -, rfl, y', hy', hb⟩ := (walk_append _ _ _ _ _).mp h
  obtain rfl : y = y' := Option.some.inj (hy.symm.trans hy')
  rw [List.nodup_append, List.nodup_cons] at hn
  have hua : m ∉ a := fun hm => hn.2.2 m hm m (by simp) rfl
  have hub : m ∉ b := fun hm => hn.2.1.1 (List.mem_cons_of_mem _ hm)
  exact (walk_append _ _ _ _ _).mpr
    ⟨m, ha.update hua _, rfl, y, Function.update_self _ _ _, hb.update hub _⟩

lemma Loop.unlink {f : α → Option α} {tag x : α} {l r : List α} (h : Loop f tag (l ++ x :: r))
    (hn : (tag :: (l ++ x :: r)).Nodup) :
    Loop (Function.update f (l.getLastD tag) (some (r.headD tag))) tag (l ++ r) := by
  obtain ⟨hl, -, -, y, hy, hr⟩ := loop_append.mp h
  obtain ⟨hk, hx⟩ := getLastD_notMem hn
  obtain rfl := hr.head_eq
  exact loop_append.mpr ⟨hl.update hk _, by simp,
    hr.update (fun hm => hx (List.mem_cons_of_mem _ hm)) _⟩

lemma Loop.link {f : α → Option α} {tag p : α} {l r : List α} (h : Loop f tag (l ++ r))
    (hn : (tag :: (l ++ r)).Nodup) (hp : p ∉ tag :: (l ++ r)) :
    Loop (Function.update (Function.update f p (some (r.headD tag))) (l.getLastD tag) (some p)) tag
      (l ++ p :: r) := by
  obtain ⟨hl, -, hr⟩ := loop_append.mp h
  obtain ⟨hk, hr'⟩ := getLastD_notMem hn
  have hpl : p ∉ (tag :: l).dropLast := by
    intro hm
    have := List.mem_of_mem_dropLast hm
    exact hp (by simp only [List.mem_cons, List.mem_append] at this ⊢; tauto)
  have hpr : p ∉ r := fun hm => hp (by simp [hm])
  have hpa : p ≠ l.getLastD tag := by
    intro e
    have : l.getLastD tag ∈ tag :: l := by rw [cons_eq_snoc tag l]; simp
    exact hp (by simp only [← e, List.mem_cons, List.mem_append] at this ⊢; tauto)
  refine loop_append.mpr ⟨(hl.update hpl _).update hk _, by simp, rfl, r.headD tag, ?_,
    (hr.update hpr _).update hr' _⟩
  rw [Function.update_of_ne hpa, Function.update_self]

end Update

end Xframe.Lib
