import Xframe.Lib.Wire

/-! Formats of values that are read into an object that is there already, on a running pointer. A format carries the
proof that it reads what it wrote, and formats are composed as the values are. -/

namespace Xframe.Lib

variable {α β γ τ κ : Type}

/-- `encode` is `none` where writing would read what is not there. What was written for `a` makes `received old a` of
an object `old`, if `a` `Fits`. -/
structure Codec (β α : Type) where
  encode : α → Option (List β)
  decode : α → List β → Option (α × List β)
  received : α → α → α
  Fits : α → Prop
  decode_encode {a : α} {bs : List β} : Fits a → encode a = some bs →
    ∀ old rest, decode old (bs ++ rest) = some (received old a, rest)

namespace Codec

def empty : Codec β Unit where
  encode _ := some []
  decode _ buf := some ((), buf)
  received _ _ := ()
  Fits _ := True
  decode_encode _ h old rest := by
    cases h
    rfl

def pair (w : Codec β α) (v : Codec β γ) : Codec β (α × γ) where
  encode p := (w.encode p.1).bind fun bs => (v.encode p.2).map (bs ++ ·)
  decode old buf := (w.decode old.1 buf).bind fun r => (v.decode old.2 r.2).map fun s => ((r.1, s.1), s.2)
  received old p := (w.received old.1 p.1, v.received old.2 p.2)
  Fits p := w.Fits p.1 ∧ v.Fits p.2
  decode_encode hf h old rest := by
    obtain ⟨bs, hbs, h⟩ := Option.bind_eq_some_iff.mp h
    obtain ⟨cs, hcs, rfl⟩ := Option.map_eq_some_iff.mp h
    rw [List.append_assoc, w.decode_encode hf.1 hbs, Option.bind_some, v.decode_encode hf.2 hcs, Option.map_some]

def onlyIf (b : Bool) (w : Codec β α) : Codec β α where
  encode a := if b then w.encode a else some []
  decode old buf := if b then w.decode old buf else some (old, buf)
  received old a := if b then w.received old a else old
  Fits a := b → w.Fits a
  decode_encode hf h old rest := by
    cases b with
    | true => exact w.decode_encode (hf rfl) h old rest
    | false =>
      cases h
      rfl

def tagged (t : Codec β τ) (tag : τ → κ) (ht : ∀ old a, tag (t.received old a) = tag a) (w : κ → Codec β α) :
    Codec β (τ × α) where
  encode p := (t.encode p.1).bind fun bs => ((w (tag p.1)).encode p.2).map (bs ++ ·)
  decode old buf :=
    (t.decode old.1 buf).bind fun r => ((w (tag r.1)).decode old.2 r.2).map fun s => ((r.1, s.1), s.2)
  received old p := (t.received old.1 p.1, (w (tag p.1)).received old.2 p.2)
  Fits p := t.Fits p.1 ∧ (w (tag p.1)).Fits p.2
  decode_encode hf h old rest := by
    obtain ⟨bs, hbs, h⟩ := Option.bind_eq_some_iff.mp h
    obtain ⟨cs, hcs, rfl⟩ := Option.map_eq_some_iff.mp h
    rw [List.append_assoc, t.decode_encode hf.1 hbs, Option.bind_some]
    dsimp only
    rw [ht, (w _).decode_encode hf.2 hcs, Option.map_some]

def along (parts : γ → α) (make : α → γ) (w : Codec β α) : Codec β γ where
  encode c := w.encode (parts c)
  decode old buf := (w.decode (parts old) buf).map fun r => (make r.1, r.2)
  received old c := make (w.received (parts old) (parts c))
  Fits c := w.Fits (parts c)
  decode_encode hf h old rest := by rw [w.decode_encode hf h, Option.map_some]

lemma decodeAll_encodeAll {w : Codec β α} (he : ∀ old a, w.received old a = a) {as : List α} {bs : List β}
    (hf : ∀ a ∈ as, w.Fits a) (h : encodeAll w.encode as = some bs) {olds : List α} (hlen : olds.length = as.length)
    (rest : List β) : decodeAll w.decode olds (bs ++ rest) = some (as, rest) := by
  induction as generalizing olds bs with
  | nil =>
    cases h
    rw [List.length_eq_zero_iff.mp hlen]
    rfl
  | cons a as ih =>
    obtain ⟨old, olds, rfl⟩ := List.exists_cons_of_length_eq_add_one hlen
    obtain ⟨cs, hcs, h⟩ := Option.bind_eq_some_iff.mp h
    obtain ⟨ds, hds, h⟩ := Option.bind_eq_some_iff.mp h
    cases h
    have htail := ih (fun c hc => hf c (List.mem_cons_of_mem _ hc)) hds (Nat.succ.inj hlen)
    rw [decodeAll, List.append_assoc, w.decode_encode (hf a List.mem_cons_self) hcs, he]
    dsimp only [Option.bind_eq_bind, Option.bind_some]
    rw [htail, Option.bind_some]

lemma pair_encode_some {w : Codec β α} {v : Codec β γ} {p : α × γ} {code : List β} :
    (w.pair v).encode p = some code ↔
      ∃ bs cs, w.encode p.1 = some bs ∧ v.encode p.2 = some cs ∧ bs ++ cs = code := by
  change ((w.encode p.1).bind fun bs => (v.encode p.2).map (bs ++ ·)) = some code ↔ _
  simp only [Option.bind_eq_some_iff, Option.map_eq_some_iff]
  grind

lemma tagged_encode_some {t : Codec β τ} {tag : τ → κ} {h : ∀ old a, tag (t.received old a) = tag a}
    {w : κ → Codec β α} {p : τ × α} {code : List β} :
    (t.tagged tag h w).encode p = some code ↔
      ∃ bs cs, t.encode p.1 = some bs ∧ (w (tag p.1)).encode p.2 = some cs ∧ bs ++ cs = code :=
  pair_encode_some (w := t) (v := w (tag p.1))

lemma pair_decode_some {w : Codec β α} {v : Codec β γ} {old p : α × γ} {buf rest : List β} :
    (w.pair v).decode old buf = some (p, rest) ↔
      ∃ buf', w.decode old.1 buf = some (p.1, buf') ∧ v.decode old.2 buf' = some (p.2, rest) := by
  change ((w.decode old.1 buf).bind fun r => (v.decode old.2 r.2).map fun s => ((r.1, s.1), s.2)) = _ ↔ _
  simp only [Option.bind_eq_some_iff, Option.map_eq_some_iff]
  grind

lemma tagged_decode_some {t : Codec β τ} {tag : τ → κ} {h : ∀ old a, tag (t.received old a) = tag a}
    {w : κ → Codec β α} {old p : τ × α} {buf rest : List β} :
    (t.tagged tag h w).decode old buf = some (p, rest) ↔
      ∃ buf', t.decode old.1 buf = some (p.1, buf') ∧ (w (tag p.1)).decode old.2 buf' = some (p.2, rest) := by
  change ((t.decode old.1 buf).bind fun r =>
    ((w (tag r.1)).decode old.2 r.2).map fun s => ((r.1, s.1), s.2)) = _ ↔ _
  simp only [Option.bind_eq_some_iff, Option.map_eq_some_iff]
  grind

lemma onlyIf_encode {b : Bool} {w : Codec β α} (a : α) :
    (w.onlyIf b).encode a = if b then w.encode a else some [] := rfl

end Codec

end Xframe.Lib
