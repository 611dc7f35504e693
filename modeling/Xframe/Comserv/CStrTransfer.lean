import Xframe.Comserv.CStrRuns
import Xframe.Comserv.CStrOrder

/-! `release` and `nTransfer` of `CStr`, by which a string gives its buffer away and another one takes it. -/

namespace Xframe.Comserv

open Xframe.Lib Xframe.Lib.Act

namespace CStrObject

/-- `m_buffer=_m_buffer[0]` makes an address of a character. No block is ever there, as none is at the null pointer. -/
def characterAddress : ℕ := 0

def release : Op ℕ := do
  let s ← this
  match s.buffer with
  | some tmp =>
    write s.length [0]
    setBuffer (some characterAddress)
    setLength 0
    pure tmp
  | none =>
    let src ← read 0 s.length
    let m ← Act.get
    let (tmp, heap) := m.heap.alloc (src ++ [0])
    Act.put { m with heap }
    reset
    pure tmp

variable {m t : CStrMem} {off n : ℤ} {src : List UInt8}

lemma this_eq_done {s : CStrObject} (h : this m = some (.done s, t)) : m.str = s ∧ m = t := by
  cases h
  exact ⟨rfl, rfl⟩

lemma modify_eq_done {f : CStrObject → CStrObject} {u : Unit} (h : modify f m = some (.done u, t)) :
    t = { m with str := f m.str } := by
  cases h
  rfl

lemma read_eq_done (h : read off n m = some (.done src, t)) : (src.length : ℤ) = n ∧ m = t := by
  rw [read] at h
  cases hb : m.block with
  | none => simp [hb] at h
  | some b =>
    rw [hb] at h
    dsimp only at h
    split_ifs at h with hin
    obtain ⟨hsrc, rfl⟩ := Prod.mk.inj (Option.some.inj h)
    rw [← Outcome.done.inj hsrc, List.length_take, List.length_drop]
    exact ⟨by omega, rfl⟩

lemma write_eq_done {u : Unit} (h : write off src m = some (.done u, t)) (hbuf : m.str.buffer = none) :
    t.heap = m.heap := by
  rw [write, CStrMem.block_inline hbuf, hbuf] at h
  dsimp only at h
  split_ifs at h
  obtain ⟨-, rfl⟩ := Prod.mk.inj (Option.some.inj h)
  rfl

lemma release_eq_done {tmp : ℕ} (h : release m = some (.done tmp, t)) : t.str.length = 0 ∧
    (t.str.buffer = some characterAddress ∨
      ∃ src : List UInt8, (src.length : ℤ) = m.str.length ∧ t.heap.read tmp = some (src ++ [0])) := by
  obtain ⟨s, m₁, hthis, h⟩ := bind_eq_done h
  obtain ⟨rfl, rfl⟩ := this_eq_done hthis
  cases hbuf : m.str.buffer with
  | some p =>
    rw [hbuf] at h
    obtain ⟨_, m₁, -, h⟩ := bind_eq_done h
    obtain ⟨_, m₂, hset, h⟩ := bind_eq_done h
    obtain ⟨_, m₃, hlen, h⟩ := bind_eq_done h
    obtain ⟨-, rfl⟩ := pure_eq_done h
    obtain rfl := modify_eq_done hset
    obtain rfl := modify_eq_done hlen
    exact ⟨rfl, Or.inl rfl⟩
  | none =>
    rw [hbuf] at h
    obtain ⟨src, m₁, hread, h⟩ := bind_eq_done h
    obtain ⟨hsrc, rfl⟩ := read_eq_done hread
    obtain ⟨_, m₁, hget, h⟩ := bind_eq_done h
    cases hget
    obtain ⟨_, m₂, hput, h⟩ := bind_eq_done h
    cases hput
    obtain ⟨_, m₃, hreset, h⟩ := bind_eq_done h
    obtain ⟨rfl, rfl⟩ := pure_eq_done h
    obtain ⟨_, m₄, hwrite, hreset⟩ := bind_eq_done hreset
    have hheap := write_eq_done hwrite hbuf
    obtain rfl := modify_eq_done hreset
    refine ⟨rfl, Or.inr ⟨src, hsrc, ?_⟩⟩
    rw [hheap]
    exact (Heap.read_alloc _ _ _).trans (if_pos rfl)

end CStrObject

namespace CStrWorld

open CStrObject (Valid destroy release setBuffer setLength this)

def nTransfer (i j : ℕ) : Act CStrWorld ℤ := do
  on i destroy
  let p ← on j release
  on i (setBuffer (some p))
  let org ← on j this
  on i (setLength org.size)
  let s ← on i this
  pure s.length

def strlen (p : ℕ) : Act CStrWorld ℕ := fun w =>
  match w.heap.read p with
  | none => none
  | some b => if 0 ∈ b then some (.done (cText b).length, w) else none

def nTransferChars (i p : ℕ) : Act CStrWorld ℤ := do
  on i destroy
  let length ← strlen p
  on i (setLength (toInt length))
  let s ← on i this
  (if s.length ≠ 0 then on i (setBuffer (some p)) else pure ())
  pure s.length

def contentOf (w : CStrWorld) (i : ℕ) : List UInt8 := ((w.strs i).map fun s => CStrMem.content ⟨w.heap, s⟩).getD []

def Roomy (w : CStrWorld) (i : ℕ) : Prop :=
  ∀ s, w.strs i = some s → ∃ b, CStrMem.block ⟨w.heap, s⟩ = some b ∧ s.capacity < b.length

def Apart (w : CStrWorld) : Prop :=
  ∀ i j s t p, w.strs i = some s → w.strs j = some t → s.buffer = some p → t.buffer = some p → i = j

structure Moved (w v : CStrWorld) (i j : ℕ) : Prop where
  content : v.contentOf i = w.contentOf j
  length : v.lengthOf i = w.lengthOf j
  emptied : v.lengthOf j = 0
  target : v.Roomy i
  source : v.Roomy j
  apart : v.Apart

structure TakenOver (v : CStrWorld) (i : ℕ) (b : List UInt8) : Prop where
  content : v.contentOf i = cText b
  length : v.lengthOf i = (cText b).length
  target : v.Roomy i
  apart : v.Apart

variable {w v : CStrWorld} {i j p : ℕ} {str s : CStrObject} {b : List UInt8} {α : Type}

lemma on_eq_done {x : CStrObject.Op α} {a : α} (h : on i x w = some (.done a, v)) : ∃ s m, w.strs i = some s ∧
    x ⟨w.heap, s⟩ = some (.done a, m) ∧ v = ⟨m.heap, Function.update w.strs i (some m.str)⟩ := by
  rw [on] at h
  cases hs : w.strs i with
  | none => simp [hs] at h
  | some s =>
    rw [hs] at h
    dsimp only at h
    cases hx : x ⟨w.heap, s⟩ with
    | none => simp [hx] at h
    | some res =>
      obtain ⟨r, m⟩ := res
      rw [hx] at h
      obtain ⟨rfl, rfl⟩ := Prod.mk.inj (Option.some.inj h)
      exact ⟨s, m, rfl, hx, rfl⟩

lemma on_done (hi : w.strs i = some str) {x : CStrObject.Op α} {a : α} {m : CStrMem}
    (hx : x ⟨w.heap, str⟩ = some (.done a, m)) :
    on i x w = some (.done a, ⟨m.heap, Function.update w.strs i (some m.str)⟩) := by
  rw [on, hi]
  dsimp only
  rw [hx]

lemma on_modify (hi : w.strs i = some str) (f : CStrObject → CStrObject) :
    on i (CStrObject.modify f) w = some (.done (), ⟨w.heap, Function.update w.strs i (some (f str))⟩) :=
  on_done (m := ⟨w.heap, f str⟩) hi rfl

lemma on_this (hi : w.strs i = some str) : on i this w = some (.done str, w) := by
  refine (on_done (m := ⟨w.heap, str⟩) hi rfl).trans ?_
  dsimp only
  rw [← hi, Function.update_eq_self]

lemma on_destroy (h : Inv w) (hi : w.strs i = some str) : ∃ heap, on i destroy w = some (.done (), ⟨heap, w.strs⟩) ∧
    (∀ q, str.buffer = some q → heap.read q = none) ∧ ∀ q, str.buffer ≠ some q → heap.read q = w.heap.read q := by
  obtain ⟨m, hrun, hstr, -, hgone, hread⟩ := CStrObject.destroy_done (h.valid i str hi)
  refine ⟨m.heap, ?_, hgone, hread⟩
  rw [on_done hi hrun, hstr, ← hi, Function.update_eq_self]

section Strings

variable {heap : Heap (List UInt8)} {m : CStrMem}

lemma nTransfer_eq (hi : w.strs i = some str) (hj : w.strs j = some s)
    (hdestroy : on i destroy w = some (.done (), ⟨heap, w.strs⟩)) (hrel : release ⟨heap, s⟩ = some (.done p, m)) :
    ∃ v t, nTransfer i j w = some (.done 4, v) ∧ v.heap = m.heap ∧ v.strs i = some t ∧ t.length = 4 ∧
      t.buffer = some p ∧ (i ≠ j → t.capacity = str.capacity ∧ v.strs j = some m.str) := by
  have hlen := (CStrObject.release_eq_done hrel).1
  have hrelease : on j release ⟨heap, w.strs⟩ = some (.done p, ⟨m.heap, Function.update w.strs j (some m.str)⟩) :=
    on_done (w := ⟨heap, w.strs⟩) hj hrel
  set strs := Function.update w.strs j (some m.str) with hstrs
  obtain ⟨t, ht, hother⟩ : ∃ t, strs i = some t ∧ (i ≠ j → t = str) := by
    by_cases hij : i = j
    · rw [hstrs, hij, Function.update_self]
      exact ⟨m.str, rfl, fun h => absurd rfl h⟩
    · exact ⟨str, (Function.update_of_ne hij ..).trans hi, fun _ => rfl⟩
  set strs' := Function.update strs i (some { t with buffer := some p }) with hstrs'
  obtain ⟨org, horg, hempty⟩ : ∃ org, strs' j = some org ∧ org.length = 0 := by
    by_cases hij : i = j
    · rw [hstrs', hij, Function.update_self]
      refine ⟨_, rfl, ?_⟩
      rw [hstrs, hij, Function.update_self] at ht
      exact Option.some.inj ht ▸ hlen
    · rw [hstrs', Function.update_of_ne (Ne.symm hij), hstrs, Function.update_self]
      exact ⟨m.str, rfl, hlen⟩
  have hsize : org.size = 4 := by
    rw [CStrObject.size, hempty]
    exact CStrObject.toInt_eq (by norm_num) (by norm_num)
  have hbuffer : on i (setBuffer (some p)) ⟨m.heap, strs⟩ = some (.done (), ⟨m.heap, strs'⟩) :=
    on_modify (w := ⟨m.heap, strs⟩) ht _
  have hlength : on i (setLength 4) ⟨m.heap, strs'⟩ =
      some (.done (), ⟨m.heap, Function.update strs' i (some { t with buffer := some p, length := 4 })⟩) :=
    on_modify (w := ⟨m.heap, strs'⟩) (Function.update_self ..) _
  refine ⟨⟨m.heap, Function.update strs' i (some { t with buffer := some p, length := 4 })⟩,
    { t with buffer := some p, length := 4 }, ?_, rfl, Function.update_self .., rfl, rfl, fun hij => ⟨?_, ?_⟩⟩
  · rw [nTransfer, bind_done hdestroy, bind_done hrelease, bind_done hbuffer,
      bind_done (on_this (w := ⟨m.heap, strs'⟩) horg), hsize, bind_done hlength,
      bind_done (on_this (Function.update_self ..))]
    rfl
  · rw [hother hij]
  · dsimp only
    rw [Function.update_of_ne (Ne.symm hij), hstrs', Function.update_of_ne (Ne.symm hij), hstrs, Function.update_self]

lemma capacity_least (h : Inv w) (hi : w.strs i = some str) : 31 ≤ str.capacity := by
  obtain ⟨L, C, b, hview, hf, -⟩ := h.valid i str hi
  rw [hview.capacity]
  exact hf.least

lemma nTransfer_not_moved (h : Inv w) (hi : w.strs i = some str) (hj : w.strs j = some s) :
    ¬Ends (nTransfer i j) w (fun _ v => Moved w v i j) fun _ => False := by
  intro hend
  obtain ⟨r, v, hrun, hmoved⟩ := hend.done
  obtain ⟨heap, hdestroy, -, -⟩ := on_destroy h hi
  have hsteps := hrun
  rw [nTransfer, bind_done hdestroy] at hsteps
  obtain ⟨p, w₁, hrel, -⟩ := bind_eq_done hsteps
  obtain ⟨s', m, hs', hrel, -⟩ := on_eq_done hrel
  obtain rfl : s = s' := Option.some.inj (hj.symm.trans hs')
  obtain ⟨v', t, hrun', hheap, ht, hlen, hbuf, hother⟩ := nTransfer_eq hi hj hdestroy hrel
  obtain ⟨-, rfl⟩ := Prod.mk.inj (Option.some.inj (hrun.symm.trans hrun'))
  have hlength := hmoved.length
  rw [lengthOf_eq ht, lengthOf_eq hj, hlen] at hlength
  by_cases hij : i = j
  · subst hij
    have hempty := hmoved.emptied
    rw [lengthOf_eq ht, hlen] at hempty
    norm_num at hempty
  obtain ⟨hcap, hsource⟩ := hother hij
  rcases (CStrObject.release_eq_done hrel).2 with hlost | ⟨src, hsrc, hread⟩
  · obtain ⟨b, hb, -⟩ := hmoved.source m.str hsource
    have hnull : v.heap.read CStrObject.characterAddress = none := v.heap.null
    rw [CStrMem.block_heap (m := ⟨v.heap, m.str⟩) hlost, hnull] at hb
    cases hb
  · obtain ⟨b, hb, hroom⟩ := hmoved.target t ht
    rw [CStrMem.block_heap (m := ⟨v.heap, t⟩) hbuf, hheap, hread] at hb
    obtain rfl := Option.some.inj hb
    have hleast := capacity_least h hi
    dsimp only at hsrc
    rw [List.length_append, List.length_singleton] at hroom
    omega

/-- The target can take the C string in the block `b` at `p`: nobody owns the block, and it has the room that the
target says it has; or there are no characters in it, and the target has its own buffer. -/
def CanTake (w : CStrWorld) (str : CStrObject) (p : ℕ) (b : List UInt8) : Prop :=
  (cText b ≠ [] ∧ (cText b).length < 2 ^ 31 ∧ str.capacity < b.length ∧
    ∀ k t, w.strs k = some t → t.buffer ≠ some p) ∨ cText b = [] ∧ str.buffer = none

lemma strlen_done (hp : heap.read p = some b) (hz : 0 ∈ b) (strs : ℕ → Option CStrObject) :
    strlen p ⟨heap, strs⟩ = some (.done (cText b).length, ⟨heap, strs⟩) := by
  rw [strlen, hp]
  exact if_pos hz

lemma nTransferChars_eq (hi : w.strs i = some str) (hdestroy : on i destroy w = some (.done (), ⟨heap, w.strs⟩))
    (hp : heap.read p = some b) (hz : 0 ∈ b) : nTransferChars i p w =
      some (.done (toInt (cText b).length), ⟨heap, Function.update w.strs i (some { str with
        length := toInt (cText b).length
        buffer := if toInt (cText b).length ≠ 0 then some p else str.buffer })⟩) := by
  set n := toInt (cText b).length with hn
  have hlength : on i (setLength n) ⟨heap, w.strs⟩ =
      some (.done (), ⟨heap, Function.update w.strs i (some { str with length := n })⟩) :=
    on_modify (w := ⟨heap, w.strs⟩) hi _
  rw [nTransferChars, bind_done hdestroy, bind_done (strlen_done hp hz w.strs), ← hn, bind_done hlength,
    bind_done (on_this (Function.update_self ..))]
  dsimp only
  by_cases hzero : n ≠ 0
  · have hset : on i (setBuffer (some p)) ⟨heap, Function.update w.strs i (some { str with length := n })⟩ =
        some (.done (), ⟨heap, Function.update (Function.update w.strs i (some { str with length := n })) i
          (some { str with length := n, buffer := some p })⟩) :=
      on_modify (w := ⟨heap, Function.update w.strs i (some { str with length := n })⟩) (Function.update_self ..) _
    rw [if_pos hzero, bind_done hset, if_pos hzero, Function.update_idem]
    rfl
  · rw [if_neg hzero, if_neg hzero]
    rfl

lemma contentOf_eq (hi : w.strs i = some str) : w.contentOf i = CStrMem.content ⟨w.heap, str⟩ := by
  rw [contentOf, hi, Option.map_some, Option.getD_some]

lemma take_cText (b : List UInt8) : b.take (cText b).length = cText b :=
  (List.prefix_iff_eq_take.mp (List.takeWhile_prefix _)).symm

lemma toInt_length_iff (n : ℕ) : toInt n = n ↔ n < 2 ^ 31 := by
  rw [toInt]
  omega

lemma apart_update (h : Inv w) (hi : w.strs i = some str) {t : CStrObject}
    (ht : ∀ q, t.buffer = some q → str.buffer = some q ∨ ∀ k u, w.strs k = some u → u.buffer ≠ some q) :
    Apart ⟨heap, Function.update w.strs i (some t)⟩ := by
  apply h.alone_update
  intro k u q hk hu hq htq
  rcases ht q htq with hold | hfree
  · exact hk (h.alone k i u str q hu hi hq hold)
  · exact hfree k u hu hq

lemma takenOver_block (h : Inv w) (hi : w.strs i = some str) (hown : str.buffer ≠ some p) (hp : heap.read p = some b)
    {n : ℤ} (hn : n = toInt (cText b).length) (hne : n ≠ 0) :
    TakenOver ⟨heap, Function.update w.strs i (some { str with length := n, buffer := some p })⟩ i b ↔
      CanTake w str p b := by
  set t : CStrObject := { str with length := n, buffer := some p } with ht
  set v : CStrWorld := ⟨heap, Function.update w.strs i (some t)⟩ with hv
  have hvi : v.strs i = some t := Function.update_self ..
  have hblock : CStrMem.block ⟨v.heap, t⟩ = some b := (CStrMem.block_heap (m := ⟨v.heap, t⟩) rfl).trans hp
  have hsome : cText b ≠ [] := by
    intro hnil
    rw [hnil] at hn
    rw [hn] at hne
    exact hne ((toInt_length_iff 0).mpr (by norm_num))
  constructor
  · intro htaken
    have hlength := htaken.length
    rw [lengthOf_eq hvi] at hlength
    change n = _ at hlength
    obtain ⟨b', hb', hroom⟩ := htaken.target t hvi
    obtain rfl := Option.some.inj (hblock.symm.trans hb')
    refine Or.inl ⟨hsome, ?_, hroom, fun k u hu hup => ?_⟩
    · rw [← toInt_length_iff, ← hn, hlength]
    · have hk : k ≠ i := by
        rintro rfl
        exact hown (Option.some.inj (hu.symm.trans hi) ▸ hup)
      have hvk : v.strs k = some u := (Function.update_of_ne hk ..).trans hu
      exact hk (htaken.apart k i u t p hvk hvi hup rfl)
  · rintro (⟨-, hshort, hroom, hfree⟩ | ⟨hnil, -⟩)
    · have hlength : n = (cText b).length := hn.trans ((toInt_length_iff _).mpr hshort)
      refine ⟨?_, ?_, fun u hu => ?_, apart_update h hi fun q hq => Or.inr ?_⟩
      · rw [contentOf_eq hvi, CStrMem.content, hblock]
        change b.take n.toNat = _
        rw [hlength, Int.toNat_natCast, take_cText]
      · rw [lengthOf_eq hvi]
        exact hlength
      · obtain rfl := Option.some.inj (hvi.symm.trans hu)
        exact ⟨b, hblock, hroom⟩
      · exact Option.some.inj hq ▸ hfree
    · exact absurd hnil hsome

lemma takenOver_none (h : Inv w) (hi : w.strs i = some str) (hgone : ∀ q, str.buffer = some q → heap.read q = none)
    (hn : toInt (cText b).length = 0) :
    TakenOver ⟨heap, Function.update w.strs i (some { str with length := 0 })⟩ i b ↔ CanTake w str p b := by
  set t : CStrObject := { str with length := 0 } with ht
  set v : CStrWorld := ⟨heap, Function.update w.strs i (some t)⟩ with hv
  have hvi : v.strs i = some t := Function.update_self ..
  constructor
  · intro htaken
    have hlength := htaken.length
    rw [lengthOf_eq hvi] at hlength
    change 0 = _ at hlength
    refine Or.inr ⟨List.length_eq_zero_iff.mp (by omega), ?_⟩
    obtain ⟨b', hb', -⟩ := htaken.target t hvi
    cases hbuf : str.buffer with
    | none => rfl
    | some q =>
      rw [CStrMem.block_heap (m := ⟨v.heap, t⟩) hbuf] at hb'
      change heap.read q = some b' at hb'
      rw [hgone q hbuf] at hb'
      cases hb'
  · rintro (⟨hne, hshort, -⟩ | ⟨hnil, hbuf⟩)
    · rw [(toInt_length_iff _).mpr hshort] at hn
      exact absurd (List.length_eq_zero_iff.mp (by omega)) hne
    · obtain ⟨L, C, c, hview, hf, -⟩ := h.valid i str hi
      have hinline : c = str.inline := by
        have hblock := hview.block
        rw [CStrMem.block_inline (m := ⟨w.heap, str⟩) hbuf] at hblock
        exact (Option.some.inj hblock).symm
      refine ⟨?_, ?_, fun u hu => ?_, apart_update h hi fun q hq => Or.inl hq⟩
      · rw [contentOf_eq hvi, CStrMem.content, hnil]
        exact List.take_zero
      · rw [lengthOf_eq hvi, hnil]
        rfl
      · obtain rfl := Option.some.inj (hvi.symm.trans hu)
        refine ⟨str.inline, CStrMem.block_inline (m := ⟨v.heap, t⟩) hbuf, ?_⟩
        have hsize := hf.size
        have hcapacity : str.capacity = C := hview.capacity
        change str.capacity < _
        rw [← hinline]
        omega

lemma nTransferChars_iff (h : Inv w) (hi : w.strs i = some str) (hp : w.heap.read p = some b) (hz : 0 ∈ b) :
    Ends (nTransferChars i p) w (fun _ v => TakenOver v i b) (fun _ => False) ↔ CanTake w str p b := by
  obtain ⟨heap, hdestroy, hgone, hread⟩ := on_destroy h hi
  by_cases hown : str.buffer = some p
  · have hfault : nTransferChars i p w = none := by
      rw [nTransferChars, bind_done hdestroy, bind_apply, andThen, strlen]
      dsimp only
      rw [hgone p hown]
    refine iff_of_false ?_ ?_
    · rw [Ends, hfault]
      exact id
    · rintro (⟨-, -, -, hfree⟩ | ⟨-, hnone⟩)
      · exact hfree i str hi hown
      · rw [hnone] at hown
        cases hown
  · have hp' : heap.read p = some b := (hread p hown).trans hp
    rw [Ends, nTransferChars_eq hi hdestroy hp' hz]
    dsimp only
    by_cases hne : toInt (cText b).length ≠ 0
    · rw [if_pos hne]
      exact takenOver_block h hi hown hp' rfl hne
    · have hzero : toInt (cText b).length = 0 := not_not.mp hne
      rw [if_neg hne, hzero]
      exact takenOver_none h hi hgone hzero

end Strings

theorem transfers_iff (h : Inv w) (hi : w.strs i = some str) :
    (∀ j, (w.strs j).isSome → ¬Ends (nTransfer i j) w (fun _ v => Moved w v i j) fun _ => False) ∧
    ∀ p b, w.heap.read p = some b → 0 ∈ b →
      (Ends (nTransferChars i p) w (fun _ v => TakenOver v i b) (fun _ => False) ↔ CanTake w str p b) := by
  refine ⟨fun j hj => ?_, fun p b hp hz => nTransferChars_iff h hi hp hz⟩
  obtain ⟨s, hs⟩ := Option.isSome_iff_exists.mp hj
  exact nTransfer_not_moved h hi hs

def twoStrings : CStrWorld where
  heap := (Heap.empty.alloc [104, 105, 0]).2
  strs k := if k = 0 then some StrObject.empty.str else if k = 1 then some StrObject.hi.str else none

lemma twoStrings_inv : Inv twoStrings := by
  have hstr : ∀ k s, twoStrings.strs k = some s → s = StrObject.empty.str ∨ s = StrObject.hi.str := by
    intro k s hs
    rw [twoStrings] at hs
    dsimp only at hs
    split_ifs at hs
    · exact Or.inl (Option.some.inj hs).symm
    · exact Or.inr (Option.some.inj hs).symm
  have hinline : ∀ k s, twoStrings.strs k = some s → s.buffer = none := by
    intro k s hs
    rcases hstr k s hs with rfl | rfl <;> rfl
  refine ⟨fun k s hs => ?_, fun k l s t p hs _ hp => ?_⟩
  · rcases hstr k s hs with rfl | rfl
    · exact valid_congr StrObject.empty_valid nofun
    · exact valid_congr StrObject.hi_valid nofun
  · rw [hinline k s hs] at hp
    cases hp

theorem twoStrings_transfers :
    ¬Ends (nTransfer 0 1) twoStrings (fun _ v => Moved twoStrings v 0 1) (fun _ => False) ∧
    (Ends (nTransferChars 0 1) twoStrings (fun _ v => TakenOver v 0 [104, 105, 0]) (fun _ => False) ↔
      CanTake twoStrings StrObject.empty.str 1 [104, 105, 0]) := by
  have hstr : twoStrings.strs 0 = some StrObject.empty.str := rfl
  obtain ⟨hstrings, hchars⟩ := transfers_iff twoStrings_inv hstr
  exact ⟨hstrings 1 rfl, hchars 1 _ rfl (by decide)⟩

theorem two_characters_become_four : Inv twoStrings ∧ twoStrings.lengthOf 1 = 2 ∧
    (∃ v, nTransfer 0 1 twoStrings = some (.done 4, v) ∧ v.lengthOf 0 = 4 ∧ ¬Moved twoStrings v 0 1) ∧
    ∃ v, nTransferChars 0 1 twoStrings = some (.done 2, v) ∧ ¬TakenOver v 0 [104, 105, 0] := by
  have hstr : twoStrings.strs 0 = some StrObject.empty.str := rfl
  obtain ⟨heap, hdestroy, -, hread⟩ := on_destroy twoStrings_inv hstr
  have hlength : twoStrings.lengthOf 1 = 2 := rfl
  refine ⟨twoStrings_inv, hlength, ?_, ?_⟩
  · obtain ⟨v, t, hrun, -, ht, hlen, -⟩ := nTransfer_eq (j := 1) hstr rfl hdestroy rfl
    have hfour : v.lengthOf 0 = 4 := (lengthOf_eq ht).trans hlen
    refine ⟨v, hrun, hfour, fun hmoved => ?_⟩
    have hsame := hmoved.length
    rw [hfour, hlength] at hsame
    norm_num at hsame
  · have hp : heap.read 1 = some [104, 105, 0] := (hread 1 nofun).trans rfl
    have htwo : toInt (cText [104, 105, 0]).length = 2 := (toInt_length_iff 2).mpr (by norm_num)
    have hrun := nTransferChars_eq hstr hdestroy hp (by decide)
    rw [htwo] at hrun
    refine ⟨_, hrun, fun htaken => ?_⟩
    obtain ⟨b, hb, hroom⟩ := htaken.target _ rfl
    obtain rfl := Option.some.inj (hp.symm.trans hb)
    exact absurd hroom (by decide)

end CStrWorld

end Xframe.Comserv
