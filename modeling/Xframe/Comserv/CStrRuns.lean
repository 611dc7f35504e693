import Xframe.Comserv.CStrInvariant
import Xframe.Lib.Refine

/-! Several strings on one heap, and the runs of their operations. -/

namespace Xframe.Comserv

open Xframe.Lib Xframe.Lib.Act Xframe.Msg

structure CStrWorld where
  heap : Heap (List UInt8)
  strs : ℕ → Option CStrObject

namespace CStrWorld

open CStrObject

def new : CStrWorld := ⟨.empty, fun _ => none⟩

def lengthOf (w : CStrWorld) (i : ℕ) : ℤ := ((w.strs i).map CStrObject.length).getD 0

section Calls

variable {α : Type}

def on (i : ℕ) (x : CStrObject.Op α) : Act CStrWorld α := fun w =>
  match w.strs i with
  | none => none
  | some str =>
    match x ⟨w.heap, str⟩ with
    | none => none
    | some (r, m) => some (r, ⟨m.heap, Function.update w.strs i (some m.str)⟩)

variable (noise : ℕ → UInt8)

/-- There is no string if its constructor throws. -/
def construct (i : ℕ) (x : CStrObject.Op Unit) : Act CStrWorld Unit := fun w =>
  match x ⟨w.heap, raw noise⟩ with
  | none => none
  | some (.thrown, m) => some (.thrown, { w with heap := m.heap })
  | some (.done _, m) => some (.done (), ⟨m.heap, Function.update w.strs i (some m.str)⟩)

def destruct (i : ℕ) : Act CStrWorld Unit := fun w =>
  match w.strs i with
  | none => none
  | some str => (destroy ⟨w.heap, str⟩).map fun r => (.done (), ⟨r.2.heap, Function.update w.strs i none⟩)

inductive Call where
  | new (i : ℕ) (str : Option (List UInt8))
  | newCopy (i j : ℕ)
  | newInt (i : ℕ) (val : ℤ)
  | destroy (i : ℕ)
  | assignStr (i : ℕ) (str : Option (List UInt8))
  | assignInt (i : ℕ) (val : ℤ)
  | assign (i j : ℕ)
  | append (i j : ℕ)
  | appendStr (i : ℕ) (str : List UInt8)
  | appendChar (i : ℕ) (c : UInt8)
  | shl (i j : ℕ)
  | shlStr (i : ℕ) (str : List UInt8)
  | shlInt (i : ℕ) (val : ℤ)
  | nCat (i : ℕ) (str : List UInt8)
  | set (i : ℕ) (str : List UInt8)
  | resize (i : ℕ) (newCapacity : ℤ)
  | cutAt (i : ℕ) (length : ℤ)
  | cut (i : ℕ) (sep : List UInt8) (result : ℕ)
  | trim (i : ℕ)
  | replace (i : ℕ) (pattern rep : List UInt8)
  | uricEncode (i : ℕ)
  | clear (i : ℕ)
  | steal (i : ℕ)
  | decode (i : ℕ) (buf : List UInt8)

def cStr : CStrObject.Op (ℤ × List UInt8) := do
  let s ← this
  write s.length [0]
  bytes

def append (i j : ℕ) : Act CStrWorld Unit := do
  let (length, src) ← on j bytes
  on i (CStrObject.append noise length src)

def cut (i : ℕ) (sep : List UInt8) (result : ℕ) : Act CStrWorld Unit := do
  let s ← on i (cString 0)
  match CStr.strstr sep s with
  | none => do
    let (length, src) ← on i bytes
    on result (CStrObject.assign noise length src)
    on i CStrObject.clear
  | some q => do
    on result CStrObject.clear
    on result (CStrObject.nCat noise (s.take q))
    on i (CStrObject.assignStr noise (some (s.drop (q + sep.length))))

def exec : Call → Act CStrWorld Unit
  | .new i str => construct noise i (CStrObject.new noise str)
  | .newCopy i j => do
    let (length, src) ← on j cStr
    construct noise i (CStrObject.newCopy noise length src)
  | .newInt i val => construct noise i (CStrObject.newInt val)
  | .destroy i => destruct i
  | .assignStr i str => on i (CStrObject.assignStr noise str)
  | .assignInt i val => on i (CStrObject.assignInt val)
  | .assign i j => if i = j then pure () else do
    let (length, src) ← on j bytes
    on i (CStrObject.assign noise length src)
  | .append i j => append noise i j
  | .appendStr i str => on i (CStrObject.appendStr noise str)
  | .appendChar i c => on i (CStrObject.appendChar noise c)
  | .shl i j => append noise i j
  | .shlStr i str => on i (CStrObject.appendStr noise str)
  | .shlInt i val => on i (CStrObject.shlInt noise val)
  | .nCat i str => on i (CStrObject.nCat noise str)
  | .set i str => on i (CStrObject.set noise str)
  | .resize i n => on i (CStrObject.resize noise n)
  | .cutAt i n => on i (CStrObject.cutAt n)
  | .cut i sep result => cut noise i sep result
  | .trim i => on i CStrObject.trim
  | .replace i pattern rep => on i (CStrObject.replace noise pattern rep)
  | .uricEncode i => on i (CStrObject.uricEncode noise)
  | .clear i => on i CStrObject.clear
  | .steal i => do
    let _ ← on i CStrObject.steal
    pure ()
  | .decode i buf => do
    let _ ← on i (CStrObject.decode noise buf)
    pure ()

/-- A call in what the calls before it left; an exception is caught by the caller. -/
def step (w : Option CStrWorld) (c : Call) : Unit × Option CStrWorld :=
  ((), w.bind fun w => (exec noise c w).map Prod.snd)

def IsInt (n : ℤ) : Prop := -2 ^ 31 ≤ n ∧ n < 2 ^ 31

/-- The strings are there, and other ones than their arguments; lengths are `int`s and not negative. -/
def Call.Legal (w : CStrWorld) : Call → Prop
  | .new i _ => w.strs i = none
  | .newCopy i j => w.strs i = none ∧ (w.strs j).isSome
  | .newInt i val => w.strs i = none ∧ IsInt val
  | .assignInt i val | .shlInt i val => (w.strs i).isSome ∧ IsInt val
  | .assign i j => (w.strs i).isSome ∧ (w.strs j).isSome
  | .append i j | .shl i j | .cut i _ j => (w.strs i).isSome ∧ (w.strs j).isSome ∧ i ≠ j
  | .nCat i str | .set i str => (w.strs i).isSome ∧ (str.length : ℤ) < 2 ^ 31
  | .resize i n | .cutAt i n => (w.strs i).isSome ∧ IsInt n
  | .replace i pattern _ => (w.strs i).isSome ∧ pattern ≠ []
  | .decode i buf => (w.strs i).isSome ∧
      ∃ n rest, Transport.decodeInt buf = some (n, rest) ∧ 0 ≤ n ∧ n ≤ rest.length
  | .destroy i | .assignStr i _ | .appendStr i _ | .appendChar i _ | .shlStr i _ | .trim i | .uricEncode i
  | .clear i | .steal i => (w.strs i).isSome

/-- The length that an operation is about to reach, where it reckons one, is an `int`. -/
def Call.Fits (w : CStrWorld) : Call → Prop
  | .new _ str | .assignStr _ str => ((str.getD []).length : ℤ) < 2 ^ 31
  | .append i j | .shl i j => w.lengthOf i + w.lengthOf j < 2 ^ 31
  | .appendStr i str | .shlStr i str | .nCat i str => w.lengthOf i + str.length < 2 ^ 31
  | .appendChar i _ => w.lengthOf i + 1 < 2 ^ 31
  | .shlInt i val => w.lengthOf i + (decimal val).length < 2 ^ 31
  | .replace i pattern rep => ∀ str b, w.strs i = some str → CStrMem.block ⟨w.heap, str⟩ = some b →
      ((replaced pattern rep (b.takeWhile (· ≠ 0)).length (b.takeWhile (· ≠ 0))).length : ℤ) < 2 ^ 31
  | .uricEncode i => w.lengthOf i * 3 + 1 < 2 ^ 32
  | _ => True

end Calls

structure Inv (w : CStrWorld) : Prop where
  valid : ∀ i str, w.strs i = some str → Valid ⟨w.heap, str⟩
  alone : ∀ i j s t p, w.strs i = some s → w.strs j = some t → s.buffer = some p → t.buffer = some p → i = j

variable {w : CStrWorld} {i j : ℕ} {str : CStrObject} {m : CStrMem} {α : Type}

lemma valid_congr {heap heap' : Heap (List UInt8)} (hv : Valid ⟨heap, str⟩)
    (h : ∀ p, str.buffer = some p → heap'.read p = heap.read p) : Valid ⟨heap', str⟩ := by
  obtain ⟨L, C, b, hview, hrest⟩ := hv
  refine ⟨L, C, b, ⟨hview.length, hview.capacity, ?_, hview.inline⟩, hrest⟩
  cases hbuf : str.buffer with
  | none =>
    have hold : CStrMem.block ⟨heap, str⟩ = some str.inline := CStrMem.block_inline hbuf
    refine (CStrMem.block_inline ?_).trans (hold.symm.trans hview.block)
    exact hbuf
  | some p =>
    refine (CStrMem.block_heap (p := p) ?_).trans ((h p hbuf).trans (hview.read hbuf))
    exact hbuf

lemma Inv.live (h : Inv w) {p : ℕ} (hi : w.strs i = some str) (hp : str.buffer = some p) : p < w.heap.brk := by
  obtain ⟨L, C, b, hview, -⟩ := h.valid i str hi
  exact hview.live hp

lemma Inv.others (h : Inv w) {str₀ : CStrObject} (hf : Frame ⟨w.heap, str₀⟩ m)
    (hfree : ∀ k t p, k ≠ i → w.strs k = some t → t.buffer = some p → str₀.buffer ≠ some p) (k : ℕ)
    (t : CStrObject) (hk : k ≠ i) (ht : w.strs k = some t) : Valid ⟨m.heap, t⟩ :=
  valid_congr (h.valid k t ht) fun p hp => hf.others p (hfree k t p hk ht hp) (h.live ht hp)

lemma Inv.alone_update (h : Inv w) {t : CStrObject}
    (hone : ∀ k u p, k ≠ i → w.strs k = some u → u.buffer = some p → t.buffer ≠ some p) (a b : ℕ) (s u : CStrObject)
    (p : ℕ) (hs : Function.update w.strs i (some t) a = some s) (hu : Function.update w.strs i (some t) b = some u)
    (hsp : s.buffer = some p) (hup : u.buffer = some p) : a = b := by
  by_cases ha : a = i
  · by_cases hb : b = i
    · rw [ha, hb]
    · rw [ha, Function.update_self] at hs
      rw [Function.update_of_ne hb] at hu
      exact absurd (Option.some.inj hs ▸ hsp) (hone b u p hb hu hup)
  · rw [Function.update_of_ne ha] at hs
    by_cases hb : b = i
    · rw [hb, Function.update_self] at hu
      exact absurd (Option.some.inj hu ▸ hup) (hone a s p ha hs hsp)
    · rw [Function.update_of_ne hb] at hu
      exact h.alone a b s u p hs hu hsp hup

lemma Inv.updated (h : Inv w) {str₀ : CStrObject} (hk : Kept ⟨w.heap, str₀⟩ m)
    (hfree : ∀ k t p, k ≠ i → w.strs k = some t → t.buffer = some p → str₀.buffer ≠ some p) :
    Inv ⟨m.heap, Function.update w.strs i (some m.str)⟩ where
  valid k t ht := by
    change Function.update w.strs i (some m.str) k = some t at ht
    by_cases hki : k = i
    · rw [hki, Function.update_self] at ht
      exact Option.some.inj ht ▸ hk.1
    · rw [Function.update_of_ne hki] at ht
      exact h.others hk.2 hfree k t hki ht
  alone := by
    apply h.alone_update
    intro k u p hki hu hp hm
    rcases hk.2.own p hm with h₀ | hge
    · exact hfree k u p hki hu hp h₀
    · exact absurd (h.live hu hp) (not_lt.mpr hge)

lemma lengthOf_eq (hi : w.strs i = some str) : w.lengthOf i = str.length := by
  rw [lengthOf, hi, Option.map_some, Option.getD_some]

lemma on_ends (h : Inv w) (hi : w.strs i = some str) {x : CStrObject.Op α} {Q : α → CStrObject → Prop}
    (hx : Ends x ⟨w.heap, str⟩ (fun a m => Q a m.str ∧ Kept ⟨w.heap, str⟩ m) (Kept ⟨w.heap, str⟩)) :
    Ends (on i x) w (fun a v => Inv v ∧ (∀ k, k ≠ i → v.strs k = w.strs k) ∧
      ∃ t, v.strs i = some t ∧ Q a t) Inv := by
  have hfree : ∀ k t p, k ≠ i → w.strs k = some t → t.buffer = some p → str.buffer ≠ some p :=
    fun k t p hki ht hp hs => hki (h.alone k i t str p ht hi hp hs)
  rw [Ends] at hx
  rw [Ends, on, hi]
  cases hrun : x ⟨w.heap, str⟩ with
  | none => simp [hrun] at hx
  | some res =>
    obtain ⟨o, m⟩ := res
    rw [hrun] at hx
    dsimp only
    rw [hrun]
    cases o with
    | thrown => exact h.updated hx hfree
    | done a =>
      exact ⟨h.updated hx.2 hfree, fun k hk => Function.update_of_ne hk .., m.str, Function.update_self .., hx.1⟩

lemma on_keeps (h : Inv w) (hi : (w.strs i).isSome) {x : CStrObject.Op α}
    (hx : ∀ str, w.strs i = some str → Valid ⟨w.heap, str⟩ →
      Ends x ⟨w.heap, str⟩ (fun _ => Kept ⟨w.heap, str⟩) (Kept ⟨w.heap, str⟩)) :
    Ends (on i x) w (fun _ => Inv) Inv := by
  obtain ⟨str, hstr⟩ := Option.isSome_iff_exists.mp hi
  have hend := (hx str hstr (h.valid i str hstr)).mono (fun _ m hm => And.intro trivial hm) fun _ hm => hm
  exact (on_ends h hstr (Q := fun _ _ => True) hend).left

lemma on_reads (hi : w.strs i = some str) {x : CStrObject.Op α} {Q : α → Prop} {E : CStrWorld → Prop}
    (hx : Ends x ⟨w.heap, str⟩ (fun a m => Q a ∧ ⟨w.heap, str⟩ = m) fun _ => False) :
    Ends (on i x) w (fun a v => Q a ∧ w = v) E := by
  rw [Ends] at hx
  rw [Ends, on, hi]
  cases hrun : x ⟨w.heap, str⟩ with
  | none => simp [hrun] at hx
  | some res =>
    obtain ⟨o, m⟩ := res
    rw [hrun] at hx
    dsimp only
    rw [hrun]
    cases o with
    | thrown => exact hx.elim
    | done a =>
      obtain ⟨hq, rfl⟩ := hx
      refine ⟨hq, ?_⟩
      dsimp only
      rw [← hi, Function.update_eq_self]

variable (noise : ℕ → UInt8)

lemma construct_ends (h : Inv w) (hi : w.strs i = none) {x : CStrObject.Op Unit} {Q : CStrObject → Prop} {T : Prop}
    (hx : ∀ m, Raw m → Ends x m (fun _ t => Kept m t ∧ Q t.str) (fun t => Frame m t ∧ T)) :
    Ends (construct noise i x) w (fun _ v => Inv v ∧ ∃ t, v.strs i = some t ∧ Q t) (fun v => Inv v ∧ T) := by
  have hend := hx _ (raw_raw noise w.heap)
  have hfree : ∀ k t p, k ≠ i → w.strs k = some t → t.buffer = some p → (raw noise).buffer ≠ some p :=
    fun _ _ _ _ _ _ hraw => by simp [raw] at hraw
  rw [Ends] at hend
  rw [Ends, construct]
  cases hrun : x ⟨w.heap, raw noise⟩ with
  | none => simp [hrun] at hend
  | some res =>
    obtain ⟨o, m⟩ := res
    rw [hrun] at hend
    cases o with
    | thrown =>
      refine ⟨⟨fun k t ht => h.others hend.1 hfree k t ?_ ht, h.alone⟩, hend.2⟩
      rintro rfl
      simp [hi] at ht
    | done _ => exact ⟨h.updated hend.1 hfree, m.str, Function.update_self .., hend.2⟩

lemma new_done (h : Inv w) (hi : w.strs i = none) {s : List UInt8} (hs : (s.length : ℤ) < 2 ^ 31 - 1) :
    Ends (construct noise i (CStrObject.new noise (some s))) w
      (fun _ v => Inv v ∧ ∃ t, v.strs i = some t ∧ t.length = s.length) (fun _ => False) := by
  refine (construct_ends noise h hi (Q := fun t => t.length = s.length) (T := (s.length : ℤ) = 2 ^ 31 - 1) ?_).mono
    (fun _ _ hv => hv) fun v hv => absurd hv.2 hs.ne
  exact fun m hm => new_keeps noise hm (some s) (by rw [Option.getD_some]; omega)

lemma construct_keeps (h : Inv w) (hi : w.strs i = none) {x : CStrObject.Op Unit}
    (hx : ∀ m, Raw m → Ends x m (fun _ => Kept m) (Frame m)) : Ends (construct noise i x) w (fun _ => Inv) Inv := by
  have hend : Ends (construct noise i x) w (fun _ v => Inv v ∧ ∃ t, v.strs i = some t ∧ True) (fun v => Inv v ∧ True) :=
    construct_ends noise h hi fun m hm => (hx m hm).mono (fun _ _ ht => ⟨ht, trivial⟩) fun _ ht => ⟨ht, trivial⟩
  exact hend.mono (fun _ _ hv => hv.1) fun _ hv => hv.1

omit noise in
lemma destruct_keeps (h : Inv w) (hi : (w.strs i).isSome) : Ends (destruct i) w (fun _ => Inv) Inv := by
  obtain ⟨str, hstr⟩ := Option.isSome_iff_exists.mp hi
  obtain ⟨m, hm, -, -, -, hread⟩ := destroy_done (h.valid i str hstr)
  have hleft : ∀ k t, Function.update w.strs i none k = some t → k ≠ i ∧ w.strs k = some t := by
    intro k t ht
    have hki : k ≠ i := by
      rintro rfl
      simp [Function.update_self] at ht
    rw [Function.update_of_ne hki] at ht
    exact ⟨hki, ht⟩
  rw [Ends, destruct, hstr]
  dsimp only
  rw [hm]
  refine ⟨fun k t ht => ?_, fun a b s t p ha hb => h.alone a b s t p (hleft a s ha).2 (hleft b t hb).2⟩
  obtain ⟨hki, ht⟩ := hleft k t ht
  exact valid_congr (h.valid k t ht) fun p hp => hread p fun hs => hki (h.alone k i t str p ht hstr hp hs)

structure Source (r : ℤ × List UInt8) : Prop where
  nonneg : 0 ≤ r.1
  lt : r.1 < 2 ^ 31
  length : (r.2.length : ℤ) = r.1 + 1
  zero : r.2[r.1.toNat]? = some 0

omit noise in
lemma on_bytes (h : Inv w) (hi : w.strs i = some str) {E : CStrWorld → Prop} :
    Ends (on i bytes) w (fun r v => (Source r ∧ r.1 = str.length) ∧ w = v) E := by
  refine on_reads hi (Q := fun r => Source r ∧ r.1 = str.length) ?_
  refine (bytes_ends (h.valid i str hi)).mono ?_ fun _ hm => hm
  rintro r m ⟨rfl, hr, h0, hlt, hlen, hz⟩
  exact ⟨⟨⟨h0, hlt, hlen, hz⟩, hr⟩, rfl⟩

omit noise in
lemma cStr_ends (hv : Valid m) : Ends cStr m (fun r t => Source r ∧ Kept m t) (Kept m) := by
  obtain ⟨L, C, b, hview, hf, hL, hle, -⟩ := hv
  rw [cStr]
  refine (this_ends hview.state).bind ?_
  rintro _ t ⟨rfl, rfl, h⟩
  rw [hview.length]
  refine (terminate_ends h hf hL hle).bind fun _ t ht => ?_
  refine (bytes_ends ht.1.1).mono ?_ fun _ hm => hm
  rintro r m ⟨rfl, -, h0, hlt, hlen, hz⟩
  exact ⟨⟨h0, hlt, hlen, hz⟩, ht.1⟩

lemma append_keeps (h : Inv w) (hi : (w.strs i).isSome) (hj : (w.strs j).isSome)
    (hfit : w.lengthOf i + w.lengthOf j < 2 ^ 31) : Ends (append noise i j) w (fun _ => Inv) Inv := by
  obtain ⟨src, hsrc⟩ := Option.isSome_iff_exists.mp hj
  rw [append]
  refine (on_bytes h hsrc).bind ?_
  rintro r _ ⟨⟨hr, hlen⟩, rfl⟩
  refine on_keeps h hi fun str hstr hv => ?_
  rw [lengthOf_eq hstr, lengthOf_eq hsrc, ← hlen] at hfit
  have hend := CStrObject.append_keeps noise hv hr.nonneg hfit hr.length.le
  exact hend.left

lemma assign_keeps (h : Inv w) (hi : (w.strs i).isSome) (hj : (w.strs j).isSome) :
    Ends (do let (length, src) ← on j bytes; on i (CStrObject.assign noise length src)) w (fun _ => Inv) Inv := by
  obtain ⟨src, hsrc⟩ := Option.isSome_iff_exists.mp hj
  refine (on_bytes h hsrc).bind ?_
  rintro r _ ⟨⟨hr, -⟩, rfl⟩
  exact on_keeps h hi fun str _ hv => CStrObject.assign_keeps noise hv hr.nonneg hr.lt hr.length hr.zero

lemma appendStr_on (hv : Valid ⟨w.heap, str⟩) (hi : w.strs i = some str) {s : List UInt8}
    (hfit : w.lengthOf i + s.length < 2 ^ 31) :
    Ends (appendStr noise s) ⟨w.heap, str⟩ (fun _ => Kept ⟨w.heap, str⟩) (Kept ⟨w.heap, str⟩) := by
  rw [lengthOf_eq hi] at hfit
  exact (appendStr_keeps noise hv hfit).left

omit noise in
lemma on_cString (h : Inv w) (hi : w.strs i = some str) {E : CStrWorld → Prop} :
    Ends (on i (cString 0)) w (fun s v => (s.length : ℤ) < 2 ^ 31 ∧ w = v) E := by
  obtain ⟨L, C, b, hview, hf, hL, hle, hz⟩ := h.valid i str hi
  have hmost := hf.most
  have hread : Ends (cString 0) ⟨w.heap, str⟩
      (fun s m => s.length ≤ L.toNat ∧ ⟨w.heap, str⟩ = m) fun _ => False := by
    refine (cString_ends hview.state (i := L.toNat) (by rwa [Nat.zero_add])).mono ?_ fun _ hm => hm
    exact fun s m hm => hm.2
  exact (on_reads hi hread).mono (fun s v hs => ⟨by have := hs.1; omega, hs.2⟩) fun _ hv => hv

lemma cut_keeps (h : Inv w) (hi : (w.strs i).isSome) (hj : (w.strs j).isSome) (hij : i ≠ j) (sep : List UInt8) :
    Ends (cut noise i sep j) w (fun _ => Inv) Inv := by
  obtain ⟨str, hstr⟩ := Option.isSome_iff_exists.mp hi
  obtain ⟨res, hres⟩ := Option.isSome_iff_exists.mp hj
  rw [cut]
  refine (on_cString h hstr).bind fun s v hcs => ?_
  obtain rfl := hcs.2
  have hs := hcs.1
  cases hq : CStr.strstr sep s with
  | none =>
    refine (on_bytes h hstr).bind ?_
    rintro r _ ⟨⟨hr, -⟩, rfl⟩
    have hassign := CStrObject.assign_keeps noise (h.valid j res hres) hr.nonneg hr.lt hr.length hr.zero
    refine (on_ends h hres (Q := fun _ _ => True) (hassign.mono (fun _ m hm => ⟨trivial, hm⟩) fun _ hm => hm)).bind ?_
    rintro - v ⟨hv, hothers, -⟩
    refine on_keeps hv (by rw [hothers i hij, hstr]; rfl) fun t _ ht => ?_
    exact (clear_keeps ht).left
  | some q =>
    have hclear := (clear_keeps (h.valid j res hres)).mono (fun _ m hm => And.symm hm) fun _ hm => hm
    refine (on_ends h hres (Q := fun _ t => t.length = 0) hclear).bind ?_
    rintro - v ⟨hv, hothers, t, ht, hlen⟩
    have htake : (s.take q).length ≤ s.length := by
      rw [List.length_take]
      exact min_le_right ..
    have hcat := CStrObject.nCat_keeps noise (hv.valid j t ht) (s.take q) (by dsimp only; omega)
    refine (on_ends hv ht (Q := fun _ _ => True) (hcat.mono (fun _ m hm => ⟨trivial, hm.1⟩) fun _ hm => hm)).bind ?_
    rintro - u ⟨hu, hothers', -⟩
    refine on_keeps hu (by rw [hothers' i hij, hothers i hij, hstr]; rfl) fun t' _ ht' => ?_
    refine CStrObject.assignStr_keeps noise ht' _ ?_
    rw [Option.getD_some, List.length_drop]
    omega

lemma exec_keeps (h : Inv w) (c : Call) (hl : c.Legal w) (hfit : c.Fits w) :
    Ends (exec noise c) w (fun _ => Inv) Inv := by
  cases c with
  | new i str =>
    exact construct_keeps noise h hl fun _ hm => (new_keeps noise hm str hfit).mono (fun _ _ ht => ht.1) fun _ ht => ht.1
  | newCopy i j =>
    obtain ⟨src, hsrc⟩ := Option.isSome_iff_exists.mp hl.2
    have hij : i ≠ j := by
      rintro rfl
      simp [hl.1] at hsrc
    refine (on_ends h hsrc (Q := fun r _ => Source r) (cStr_ends (h.valid j src hsrc))).bind ?_
    rintro r v ⟨hv, hothers, -, -, hr⟩
    refine construct_keeps noise hv (by rw [hothers i hij, hl.1]) fun _ hm => ?_
    exact newCopy_keeps noise hm hr.nonneg hr.lt hr.length hr.zero
  | newInt i val => exact construct_keeps noise h hl.1 fun _ hm => newInt_keeps hm hl.2.1 hl.2.2
  | destroy i => exact destruct_keeps h hl
  | assignStr i str => exact on_keeps h hl fun _ _ hv => assignStr_keeps noise hv str hfit
  | assignInt i val => exact on_keeps h hl.1 fun _ _ hv => assignInt_keeps hv hl.2.1 hl.2.2
  | assign i j =>
    rw [exec]
    by_cases hij : i = j
    · rw [if_pos hij]
      exact ends_pure h
    · rw [if_neg hij]
      exact assign_keeps noise h hl.1 hl.2
  | append i j => exact append_keeps noise h hl.1 hl.2.1 hfit
  | shl i j => exact append_keeps noise h hl.1 hl.2.1 hfit
  | appendStr i str => exact on_keeps h hl fun _ hs hv => appendStr_on noise hv hs hfit
  | shlStr i str => exact on_keeps h hl fun _ hs hv => appendStr_on noise hv hs hfit
  | shlInt i val => exact on_keeps h hl.1 fun _ hs hv => appendStr_on noise hv hs hfit
  | appendChar i c => exact on_keeps h hl fun _ hs hv => appendChar_keeps noise hv c (lengthOf_eq hs ▸ hfit)
  | nCat i str =>
    refine on_keeps h hl.1 fun t ht hv => ?_
    have hlen : t.length + str.length < 2 ^ 31 := lengthOf_eq ht ▸ hfit
    have hend := nCat_keeps noise hv _ hlen
    exact hend.left
  | set i str => exact on_keeps h hl.1 fun _ _ hv => set_keeps noise hv hl.2
  | resize i n => exact on_keeps h hl.1 fun _ _ hv => resize_keeps noise hv hl.2.2
  | cutAt i n => exact on_keeps h hl.1 fun _ _ hv => cutAt_keeps hv n
  | cut i sep j => exact cut_keeps noise h hl.1 hl.2.1 hl.2.2 sep
  | trim i => exact on_keeps h hl fun _ _ hv => trim_keeps hv
  | replace i pattern rep => exact on_keeps h hl.1 fun t ht hv => replace_keeps noise hv pattern rep (hfit t · ht)
  | uricEncode i => exact on_keeps h hl fun _ hs hv => uricEncode_keeps noise hv (lengthOf_eq hs ▸ hfit)
  | clear i =>
    refine on_keeps h hl fun _ _ hv => ?_
    exact (clear_keeps hv).left
  | steal i => exact (on_keeps h hl fun _ _ hv => steal_keeps hv).bind fun _ _ hv => ends_pure hv
  | decode i buf =>
    obtain ⟨n, rest, hdec, h0, hn⟩ := hl.2
    exact (on_keeps h hl.1 fun _ _ hv => decode_keeps noise hv hdec h0 hn).bind fun _ _ hv => ends_pure hv

lemma inv_new : Inv new := ⟨fun _ _ h => by simp [new] at h, fun _ _ _ _ _ h => by simp [new] at h⟩

lemma step_keeps (h : Inv w) (c : Call) (hl : c.Legal w) (hfit : c.Fits w) :
    ∃ v, (step noise (some w) c).2 = some v ∧ Inv v := by
  obtain ⟨r, hr, hv⟩ := (exec_keeps noise h c hl hfit).some_state
  exact ⟨r.2, by rw [step, Option.bind_some, hr, Option.map_some], hv⟩

theorem strings_in_order (calls : List Call)
    (hl : Along (step noise) (fun w c => ∀ v, w = some v → c.Legal v) (some new) calls)
    (hfit : Along (step noise) (fun w c => ∀ v, w = some v → c.Fits v) (some new) calls) :
    Along (step noise) (fun w c => ∃ v, (step noise w c).2 = some v ∧ Inv v) (some new) calls := by
  refine along_of_invariant (fun w => ∃ v, w = some v ∧ Inv v) ?_ ⟨new, rfl, inv_new⟩ calls (hl.and hfit)
  rintro _ c ⟨w, rfl, hw⟩ ⟨hl, hfit⟩
  have hstep := step_keeps noise hw c (hl w rfl) (hfit w rfl)
  exact ⟨hstep, hstep⟩

theorem strings_in_order_grown :
    Along (step fun _ => 7) (fun w c => ∃ v, (step (fun _ => 7) w c).2 = some v ∧ Inv v) (some new)
      [.new 0 none, .new 1 none, .appendStr 1 (List.replicate 40 65)] := by
  obtain ⟨w, hw, h1⟩ : ∃ w, (step (fun _ => 7) (step (fun _ => 7) (some new) (.new 0 none)).2 (.new 1 none)).2 =
      some w ∧ (w.strs 1).map CStrObject.length = some 0 := ⟨_, rfl, rfl⟩
  refine strings_in_order _ _ ⟨fun v hv => ?_, fun v hv => ?_, fun v hv => ?_, trivial⟩
    ⟨fun v hv => ?_, fun v hv => ?_, fun v hv => ?_, trivial⟩
  · exact Option.some.inj hv ▸ rfl
  · exact Option.some.inj hv ▸ rfl
  · obtain rfl := Option.some.inj (hw.symm.trans hv)
    change (w.strs 1).isSome = true
    cases hs : w.strs 1 <;> simp [hs] at h1 ⊢
  · norm_num [Call.Fits]
  · norm_num [Call.Fits]
  · obtain rfl := Option.some.inj (hw.symm.trans hv)
    rw [Call.Fits, lengthOf, h1, List.length_replicate]
    norm_num

omit noise in
lemma write_before {off : ℤ} (h : off < 0) (src : List UInt8) (m : CStrMem) : write off src m = none := by
  rw [write]
  cases m.block with
  | none => rfl
  | some b =>
    dsimp only
    rw [if_neg (fun hin => absurd hin.1 (not_le.mpr h))]

lemma appendBytes_faults (hv : Valid m) {l : ℕ} {s : List UInt8} (hlt : (l : ℤ) < 2 ^ 31)
    (hlong : 2 ^ 31 ≤ m.str.length + l) : CStrObject.append noise l s m = none := by
  obtain ⟨L, C, b, hview, hf, hL, hle, hz⟩ := hv
  have hmost := hf.most
  have hleast := hf.least
  rw [hview.length] at hlong
  have hneg : toInt (L + l) < 0 := toInt_neg hlong (by omega)
  have hgrow : growTo noise (toInt (L + l)) m = some (.done (), m) := by
    change (if m.str.capacity < toInt (L + l) then resize noise _ else pure () : CStrObject.Op Unit) m = _
    rw [hview.capacity, if_neg (by omega)]
    rfl
  have hzero : ∀ t, andThen (setLength (toInt (L + l))) (fun _ => write (toInt (L + l)) [0]) t = none :=
    fun t => write_before hneg [0] { t with str := { t.str with length := toInt (L + l) } }
  change andThen (growTo noise (toInt (m.str.length + l))) (fun _ => andThen (write m.str.length s) fun _ =>
    andThen (setLength (toInt (m.str.length + l))) fun _ => write (toInt (m.str.length + l)) [0]) m = none
  rw [hview.length, andThen, hgrow]
  dsimp only
  rw [andThen, write, hview.block]
  dsimp only
  split_ifs with hroom
  · cases m.str.buffer with
    | none => exact hzero _
    | some p => exact hzero _
  · rfl

lemma nCat_faults (hv : Valid m) {s : List UInt8} (hs : (s.length : ℤ) < 2 ^ 31)
    (hlong : 2 ^ 31 ≤ m.str.length + s.length) : nCat noise s m = none :=
  appendBytes_faults noise hv hs hlong

lemma append_faults (h : Inv w) (hi : w.strs i = some str) {s : List UInt8} (hs : (s.length : ℤ) < 2 ^ 31)
    (hlong : 2 ^ 31 ≤ str.length + s.length) : (step noise (some w) (.nCat i s)).2 = none := by
  have hfault := nCat_faults noise (h.valid i str hi) hs hlong
  rw [step, Option.bind_some, exec, on, hi]
  dsimp only
  rw [hfault]
  rfl

lemma doubled_outside {s : List UInt8} (hs : (s.length : ℤ) < 2 ^ 31 - 1) (hlong : 2 ^ 31 ≤ (s.length : ℤ) + s.length) :
    Along (step noise) (fun w c => ∀ v, w = some v → c.Legal v) (some new) [.new 0 (some s), .nCat 0 s] ∧
      ¬ Along (step noise) (fun w c => ∃ v, (step noise w c).2 = some v ∧ Inv v) (some new)
        [.new 0 (some s), .nCat 0 s] := by
  obtain ⟨_, w, hrun, hinv, t, ht, hlen⟩ := (new_done noise inv_new rfl (i := 0) hs).done
  have hw : (step noise (some new) (.new 0 (some s))).2 = some w := by
    rw [step, Option.bind_some, exec, hrun, Option.map_some]
  have hnone := append_faults noise hinv ht (s := s) (by omega) (by omega)
  constructor
  · refine ⟨fun v hv => Option.some.inj hv ▸ rfl, fun v hv => ?_, trivial⟩
    obtain rfl := Option.some.inj (hw.symm.trans hv)
    have hsome : (w.strs 0).isSome := by
      rw [ht]
      rfl
    have hlt : (s.length : ℤ) < 2 ^ 31 := by omega
    exact And.intro hsome hlt
  · rintro ⟨-, ⟨v, hv, -⟩, -⟩
    rw [hw, hnone] at hv
    simp at hv

theorem gigabyte_doubled :
    Along (step fun _ => 0) (fun w c => ∀ v, w = some v → c.Legal v) (some new)
        [.new 0 (some (List.replicate (2 ^ 30) 1)), .nCat 0 (List.replicate (2 ^ 30) 1)] ∧
      ¬ Along (step fun _ => 0) (fun w c => ∃ v, (step (fun _ => 0) w c).2 = some v ∧ Inv v) (some new)
        [.new 0 (some (List.replicate (2 ^ 30) 1)), .nCat 0 (List.replicate (2 ^ 30) 1)] := by
  have hlen : (List.replicate (2 ^ 30) (1 : UInt8)).length = 2 ^ 30 := List.length_replicate
  exact doubled_outside _ (by rw [hlen]; norm_num) (by rw [hlen]; norm_num)

end CStrWorld

end Xframe.Comserv
