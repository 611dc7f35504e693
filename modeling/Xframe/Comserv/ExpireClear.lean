import Xframe.Comserv.ExpireCursor

/-! What `clear` leaves behind: `m_pTail` is still the address of the last entry, and the next entry
links back to it. As long as no call follows that link, the buffer runs like one whose links were straight. -/

namespace Xframe.Comserv

open Xframe.Lib

variable {K V : Type}

namespace ExpireBuffer

def straight (w : ℕ) (b : ExpireBuffer K V) : ExpireBuffer K V :=
  { b with
    heap := b.heap.map fun e => { e with prev := if e.prev = w then b.pTag else e.prev }
    pTail := if b.pTail = w then b.pTag else b.pTail }

variable {b b' : ExpireBuffer K V} {p q w : ℕ}

lemma straight_map : (straight w b).map = b.map := rfl

section Rules

variable {β γ : Type} {k : ExpireBuffer K V → Option β} {j : ExpireBuffer K V → Option γ} {g : β → γ}

lemma setNext_straight
    (hk : ∀ hp, j (straight w { b with heap := hp }) = (k { b with heap := hp }).map g) :
    ((straight w b).setNext p q >>= j) = (b.setNext p q >>= k).map g := by
  have hmap := b.heap.modify_map (f := fun e => { e with next := q }) (k := fun e => { e with next := q })
    (g := fun e => { e with prev := if e.prev = w then b.pTag else e.prev }) (fun _ => rfl) p
  rw [setNext, setNext, straight]
  dsimp only
  rw [hmap]
  cases b.heap.modify p fun e => { e with next := q } with
  | none => rfl
  | some hp => exact hk hp

lemma setPrev_straight (hq : q ≠ w)
    (hk : ∀ hp, j (straight w { b with heap := hp }) = (k { b with heap := hp }).map g) :
    ((straight w b).setPrev p q >>= j) = (b.setPrev p q >>= k).map g := by
  have hmap := b.heap.modify_map (f := fun e => { e with prev := q }) (k := fun e => { e with prev := q })
    (g := fun e => { e with prev := if e.prev = w then b.pTag else e.prev }) (fun _ => by simp [hq]) p
  rw [setPrev, setPrev, straight]
  dsimp only
  rw [hmap]
  cases b.heap.modify p fun e => { e with prev := q } with
  | none => rfl
  | some hp => exact hk hp

lemma setValue_straight {v : ExpireValue K V}
    (hk : ∀ hp, b.heap.modify p (fun e => { e with value := some v }) = some hp →
      j (straight w { b with heap := hp }) = (k { b with heap := hp }).map g) :
    ((straight w b).setValue p v >>= j) = (b.setValue p v >>= k).map g := by
  have hmap := b.heap.modify_map (f := fun e => { e with value := some v }) (k := fun e => { e with value := some v })
    (g := fun e => { e with prev := if e.prev = w then b.pTag else e.prev }) (fun _ => rfl) p
  rw [setValue, setValue, straight]
  dsimp only
  rw [hmap]
  cases hm : b.heap.modify p fun e => { e with value := some v } with
  | none => rfl
  | some hp => exact hk hp hm

lemma delete_straight
    (hk : ∀ hp, j (straight w { b with heap := hp }) = (k { b with heap := hp }).map g) :
    ((straight w b).delete p >>= j) = (b.delete p >>= k).map g := by
  rw [delete, delete, straight]
  dsimp only
  rw [Heap.free_map]
  cases b.heap.free p with
  | none => rfl
  | some hp => exact hk hp

lemma read_straight {k : Enty K V → Option β} {j : Enty K V → Option γ}
    (hk : ∀ e, b.heap.read p = some e →
      j { e with prev := if e.prev = w then b.pTag else e.prev } = (k e).map g) :
    ((straight w b).heap.read p >>= j) = (b.heap.read p >>= k).map g := by
  change ((b.heap.read p).map _ >>= j) = _
  cases he : b.heap.read p with
  | none => rfl
  | some e => exact hk e he

lemma straight_entry : (straight w b).entry p = b.entry p := by
  change ((b.heap.cells p).map _).bind Enty.value = (b.heap.cells p).bind Enty.value
  cases b.heap.cells p with
  | none => rfl
  | some e => rfl

lemma entry_straight {k : ExpireValue K V → Option β} {j : ExpireValue K V → Option γ}
    (hk : ∀ v, j v = (k v).map g) : ((straight w b).entry p >>= j) = (b.entry p >>= k).map g := by
  rw [straight_entry]
  cases b.entry p with
  | none => rfl
  | some v => exact hk v

end Rules

def both {α : Type} (w : ℕ) : α × ExpireBuffer K V → α × ExpireBuffer K V := Prod.map id (straight w)

variable [DecidableEq K]

lemma popFront_straight (ht : b.pTag ≠ w) : (straight w b).popFront = b.popFront.map (both w) := by
  rw [popFront, popFront]
  by_cases hcount : 0 < b.count
  · rw [if_pos hcount]
    refine (if_pos hcount).trans ?_
    refine read_straight fun head _ => ?_
    refine setPrev_straight (b := { b with pCurrent := head.next }) ht fun h₁ => ?_
    refine setNext_straight (b := { b with heap := h₁, pCurrent := head.next }) fun h₂ => ?_
    refine entry_straight fun v => ?_
    refine delete_straight (b := erase { b with heap := h₂, pCurrent := head.next } v.key) fun h₃ => ?_
    by_cases hc : b.count - 1 = 0
    · simp [both, straight, erase, hc]
    · simp [both, straight, erase, hc]
      rfl
  · rw [if_neg hcount]
    exact if_neg hcount

omit [DecidableEq K] in
lemma straight_tail (h : b.pTail ≠ w) : (straight w b).pTail = b.pTail := if_neg h

lemma popBack_straight (htail : b.pTail ≠ w)
    (hprev : ∀ e, b.heap.read b.pTail = some e → e.prev ≠ w) : (straight w b).popBack = b.popBack.map (both w) := by
  rw [popBack, popBack]
  by_cases hcount : 0 < b.count
  · rw [if_pos hcount]
    refine (if_pos hcount).trans ?_
    have hread : (straight w b).heap.read (straight w b).pTail = (straight w b).heap.read b.pTail := by
      rw [straight_tail htail]
    rw [hread]
    refine read_straight fun tail he => ?_
    have hne := hprev tail he
    dsimp only
    rw [if_neg hne]
    refine setNext_straight (b := { b with pCurrent := tail.prev }) fun h₁ => ?_
    refine setPrev_straight (b := { b with heap := h₁, pCurrent := tail.prev }) hne fun h₂ => ?_
    set c : ExpireBuffer K V := { b with heap := h₂, pCurrent := tail.prev } with hc
    have hentry : (straight w c).entry (straight w c).pTail = (straight w c).entry c.pTail := by
      rw [straight_tail (b := c) htail]
    rw [hentry]
    refine entry_straight fun v => ?_
    have hdelete : (straight w (c.erase v.key)).delete (straight w (c.erase v.key)).pTail =
        (straight w (c.erase v.key)).delete (c.erase v.key).pTail := by
      rw [straight_tail (b := c.erase v.key) htail]
    change ((straight w (c.erase v.key)).delete (straight w (c.erase v.key)).pTail >>= _) = _
    rw [hdelete]
    refine delete_straight fun h₃ => ?_
    by_cases hzero : b.count - 1 = 0
    · simp [both, straight, erase, hc, hzero, hne]
    · simp [both, straight, erase, hc, hzero, hne]
  · rw [if_neg hcount]
    exact if_neg hcount

lemma popFrontOld_straight (ht : b.pTag ≠ w) (t now : ℤ) :
    (straight w b).popFrontOld t now = (b.popFrontOld t now).map (both w) := by
  rw [popFrontOld, popFrontOld]
  generalize (if t = 0 then now else t) = oldtime
  by_cases hcount : 0 < b.count
  · rw [if_pos hcount]
    refine (if_pos hcount).trans ?_
    refine entry_straight fun v => ?_
    by_cases hold : (b.livingTime : ℤ) < oldtime - v.refreshtime
    · rw [if_pos hold]
      exact (if_pos hold).trans (popFront_straight ht)
    · rw [if_neg hold]
      exact if_neg hold
  · rw [if_neg hcount]
    exact if_neg hcount

lemma popFront_tag {r : Bool} (h : b.popFront = some (r, b')) : b'.pTag = b.pTag := by
  rw [popFront] at h
  split at h
  · simp only [Option.bind_eq_bind, Option.bind_eq_some_iff] at h
    obtain ⟨head, -, b₁, h₁, b₂, h₂, v, -, b₃, h₃, h⟩ := h
    obtain ⟨hp, -, rfl⟩ := Option.map_eq_some_iff.mp h₃
    have htag : b₂.pTag = b.pTag := (setNext_rewrites h₂).tag.trans (setPrev_rewrites h₁).tag
    cases h
    split
    · exact htag
    · exact htag
  · cases h
    rfl

lemma popFrontOld_tag {r : Bool} {t now : ℤ} (h : b.popFrontOld t now = some (r, b')) : b'.pTag = b.pTag := by
  rw [popFrontOld] at h
  generalize (if t = 0 then now else t) = oldtime at h
  split at h
  · obtain ⟨v, -, hv⟩ := Option.bind_eq_some_iff.mp h
    split at hv
    · exact popFront_tag hv
    · cases hv
      rfl
  · cases h
    rfl

lemma popOldLoop_straight (ht : b.pTag ≠ w) (fuel : ℕ) (t now : ℤ) (n : ℕ) :
    popOldLoop fuel (straight w b) t now n = (popOldLoop fuel b t now n).map (both w) := by
  induction fuel generalizing b n with
  | zero => rfl
  | succ fuel ih =>
    rw [popOldLoop, popOldLoop]
    refine bind_of_map (popFrontOld_straight ht t now) ?_
    rintro ⟨r, b₁⟩ h₁
    cases r with
    | false => rfl
    | true => exact ih (by rwa [popFrontOld_tag h₁]) (n + 1)

omit [DecidableEq K] in
lemma moveToTail_straight (htail : b.pTail ≠ w) (hcur : b.pCurrent ≠ w)
    (hprev : b.pCurrent ≠ b.pTail → ∀ e, b.heap.read b.pCurrent = some e → e.prev ≠ w) :
    (straight w b).moveToTail = b.moveToTail.map (straight w) := by
  rw [moveToTail, moveToTail]
  by_cases hlast : b.pCurrent = b.pTail
  · rw [if_pos hlast]
    exact if_pos (hlast.trans (straight_tail htail).symm)
  · rw [if_neg hlast]
    refine (if_neg fun h => hlast (h.trans (straight_tail htail))).trans ?_
    refine read_straight fun e he => ?_
    have hne := hprev hlast e he
    dsimp only
    rw [if_neg hne]
    refine setNext_straight fun h₁ => ?_
    refine setPrev_straight hne fun h₂ => ?_
    set c : ExpireBuffer K V :=
      { b with heap := h₂, pHead := if b.pCurrent = b.pHead then e.next else b.pHead } with hc
    have hnext : (straight w c).setNext (straight w c).pTail (straight w c).pCurrent =
        (straight w c).setNext c.pTail c.pCurrent := by
      rw [straight_tail (b := c) htail]
      rfl
    change ((straight w c).setNext (straight w c).pTail (straight w c).pCurrent >>= _) = _
    rw [hnext]
    refine setNext_straight fun h₃ => ?_
    refine setPrev_straight (b := { c with heap := h₃ }) hcur fun h₄ => ?_
    refine setNext_straight (b := { c with heap := h₄ }) fun h₅ => ?_
    have hprev' : (straight w { c with heap := h₅ }).setPrev (straight w { c with heap := h₅ }).pCurrent
        (straight w { c with heap := h₅ }).pTail = (straight w { c with heap := h₅ }).setPrev c.pCurrent c.pTail := by
      rw [straight_tail (b := { c with heap := h₅ }) htail]
      rfl
    change ((straight w { c with heap := h₅ }).setPrev (straight w { c with heap := h₅ }).pCurrent
        (straight w { c with heap := h₅ }).pTail >>= _) = _
    rw [hprev']
    refine setPrev_straight (b := { c with heap := h₅ }) htail fun h₆ => ?_
    simp [straight, hc, hcur]

omit [DecidableEq K] in
lemma popTail_straight {pPrev pNext : ℕ} (hp : pPrev ≠ w) :
    (straight w b).popTail pPrev pNext = (b.popTail pPrev pNext).map (straight w) := by
  rw [popTail, popTail]
  by_cases hc : pNext = b.pTag
  · rw [if_pos hc]
    refine (if_pos hc).trans ?_
    refine setPrev_straight hp fun h₁ => ?_
    simp [straight, hp]
  · rw [if_neg hc]
    exact if_neg hc

omit [DecidableEq K] in
lemma popHead_straight {pPrev pNext : ℕ} :
    (straight w b).popHead pPrev pNext = (b.popHead pPrev pNext).map (straight w) := by
  rw [popHead, popHead]
  by_cases hc : pPrev = b.pTag
  · rw [if_pos hc]
    refine (if_pos hc).trans ?_
    refine setNext_straight fun h₁ => ?_
    by_cases hzero : b.count = 0
    · simp [straight, hzero]
    · simp [straight, hzero]
  · rw [if_neg hc]
    exact if_neg hc

lemma pop_straight {key : K} (hprev : ∀ p e, b.map key = some p → b.heap.read p = some e → e.prev ≠ w) :
    (straight w b).pop key = (b.pop key).map (both w) := by
  rw [pop, pop]
  by_cases hcount : b.count = 0
  · rw [if_pos hcount]
    exact if_pos hcount
  rw [if_neg hcount]
  refine (if_neg hcount).trans ?_
  rw [straight_map]
  cases hk : b.map key with
  | none => rfl
  | some p =>
    cases p with
    | zero => rfl
    | succ p =>
      refine entry_straight fun v => ?_
      refine read_straight fun e he => ?_
      have hne := hprev _ e hk he
      dsimp only
      rw [if_neg hne]
      refine delete_straight (b := { b with count := b.count - 1 }) fun h₁ => ?_
      refine bind_of_map (popTail_straight hne) fun b₂ _ => ?_
      refine bind_of_map popHead_straight fun b₃ _ => ?_
      refine setNext_straight fun h₄ => ?_
      refine setPrev_straight hne fun h₅ => ?_
      rfl

omit [DecidableEq K] in
lemma pushTail_straight (htail : b.count ≠ 0 → b.pTail ≠ w) (hp : p ≠ w) :
    (straight w b).pushTail p = (b.pushTail p).map (straight w) := by
  rw [pushTail, pushTail]
  by_cases hcount : b.count = 0
  · rw [if_pos hcount]
    refine (if_pos hcount).trans ?_
    have hset : setNext { straight w b with pHead := p, pTail := p } (straight w b).pTag p =
        (straight w { b with pHead := p, pTail := p }).setNext b.pTag p := by
      simp [straight, hp]
    rw [hset]
    have hrule := setNext_straight (b := { b with pHead := p, pTail := p }) (p := b.pTag) (q := p) (w := w) (k := some)
      (j := some) (g := straight w) fun _ => rfl
    simpa using hrule
  · rw [if_neg hcount]
    refine (if_neg hcount).trans ?_
    rw [straight_tail (htail hcount)]
    refine setNext_straight fun h₁ => ?_
    simp [straight, hp]

omit [DecidableEq K] in
lemma pushTail_tag (h : b.pushTail p = some b') : b'.pTag = b.pTag := by
  rw [pushTail] at h
  split at h
  · exact (setNext_rewrites h).tag
  · obtain ⟨b₁, h1, h2⟩ := Option.bind_eq_some_iff.mp h
    cases h2
    exact (setNext_rewrites h1).tag

lemma push_straight (ht : b.pTag ≠ w) (htail : b.count ≠ 0 → b.pTail ≠ w) (hold : w < b.heap.brk) (key : K) (value : V)
    (now : ℤ) : (straight w b).push key value now = (b.push key value now).map (both w) := by
  rw [push, push]
  by_cases hk : (b.map key).isSome
  · rw [if_pos hk]
    exact if_pos hk
  rw [if_neg hk]
  refine (if_neg hk).trans ?_
  by_cases hfull : ¬b.destroyOld ∧ 0 < b.countMax ∧ b.countMax ≤ b.count
  · rw [if_pos hfull]
    exact if_pos hfull
  rw [if_neg hfull]
  refine (if_neg hfull).trans ?_
  have hbrk : b.heap.brk ≠ w := (Nat.ne_of_gt hold)
  have halloc := b.heap.alloc_map (fun e => { e with prev := if e.prev = w then b.pTag else e.prev })
    ⟨some (.new key value now), b.pTail, b.pTag⟩
  have hnew : ((straight w b).heap.alloc ⟨some (.new key value now), (straight w b).pTail, (straight w b).pTag⟩) =
      (b.heap.brk, (b.heap.alloc ⟨some (.new key value now), b.pTail, b.pTag⟩).2.map
        fun e => { e with prev := if e.prev = w then b.pTag else e.prev }) := by
    rw [← halloc]
    rfl
  rw [hnew]
  set c : ExpireBuffer K V := { b with
    heap := (b.heap.alloc ⟨some (.new key value now), b.pTail, b.pTag⟩).2, pCurrent := b.heap.brk
    map := Function.update b.map key (some b.heap.brk) } with hc
  change ((straight w c).pushTail b.heap.brk >>= _) = _
  refine bind_of_map (pushTail_straight (b := c) htail hbrk) fun c₁ h₁ => ?_
  have htag₁ : c₁.pTag ≠ w := by
    rw [pushTail_tag h₁]
    exact ht
  have htail₁ : c₁.pTail ≠ w := by
    rw [(pushTail_current h₁).2]
    exact hbrk
  have hset : (straight w c₁).setPrev (straight w c₁).pTag (straight w c₁).pTail =
      (straight w c₁).setPrev c₁.pTag c₁.pTail := by
    rw [straight_tail htail₁]
    rfl
  rw [hset]
  refine setPrev_straight htail₁ fun h₂ => ?_
  dsimp only
  by_cases hover : 0 < c₁.countMax ∧ c₁.countMax < c₁.count + 1
  · rw [if_pos hover]
    refine (if_pos hover).trans ?_
    refine bind_of_map (popFront_straight (b := { c₁ with heap := h₂, count := c₁.count + 1 }) htag₁) ?_
    rintro ⟨r, b₁⟩ _
    rfl
  · rw [if_neg hover]
    exact if_neg hover

lemma find_straight (key : K) : (straight w b).find key = (b.find key).map (both w) := by
  rw [find, find]
  by_cases hcount : b.count = 0
  · rw [if_pos hcount]
    exact if_pos hcount
  rw [if_neg hcount]
  refine (if_neg hcount).trans ?_
  rw [straight_map]
  cases b.map key with
  | none => rfl
  | some p =>
    cases p with
    | zero => rfl
    | succ p => exact entry_straight fun v => rfl

structure Avoids (w : ℕ) (b : ExpireBuffer K V) (o : Op K V) : Prop where
  tag : b.pTag ≠ w
  old : w < b.heap.brk
  tail : b.count ≠ 0 → b.pTail ≠ w
  updated : ∀ key p, (∃ t now, o = .update key t now) ∨ (∃ value now, o = .updateValue key value now) →
    b.map key = some p → p ≠ w ∧ b.pTail ≠ w ∧
      (p ≠ b.pTail → ∀ e, b.heap.read p = some e → e.prev ≠ w)
  popped : ∀ key p e, o = .pop key → b.map key = some p → b.heap.read p = some e → e.prev ≠ w
  last : o = .popBack → b.count ≠ 0 → ∀ e, b.heap.read b.pTail = some e → e.prev ≠ w

omit [DecidableEq K] in
lemma moved_straight {v : ExpireValue K V} (hp : p ≠ w) (htail : b.pTail ≠ w)
    (hprev : p ≠ b.pTail → ∀ e, b.heap.read p = some e → e.prev ≠ w) {β : Type} {k k' : ExpireBuffer K V → Option β}
    {g : β → β} (hk : ∀ b', k' (straight w b') = (k b').map g) :
    (setValue { straight w b with pCurrent := p } p v >>= fun b => b.moveToTail >>= k') =
      (setValue { b with pCurrent := p } p v >>= fun b => b.moveToTail >>= k).map g := by
  refine setValue_straight (b := { b with pCurrent := p }) fun h₁ hm => ?_
  refine bind_of_map (moveToTail_straight (b := { b with heap := h₁, pCurrent := p }) htail hp ?_) fun b' _ => hk b'
  intro hne e he
  obtain ⟨e₀, he₀, rfl⟩ := Option.map_eq_some_iff.mp hm
  have hread : (b.heap.store p { e₀ with value := some v }).read p = some e := he
  rw [Heap.read_store he₀, if_pos rfl] at hread
  rw [← Option.some.inj hread]
  exact hprev hne e₀ he₀

omit [DecidableEq K] in
lemma oldHead_straight : (straight w b).oldHead = b.oldHead := by
  rw [oldHead, oldHead]
  by_cases hc : 0 < b.countMax ∧ b.countMax ≤ b.count
  · rw [if_pos hc]
    refine (if_pos hc).trans ?_
    rw [straight_entry]
    rfl
  · rw [if_neg hc]
    exact if_neg hc

omit [DecidableEq K] in
lemma out_straight {x y : Option (Bool × ExpireBuffer K V)} (hxy : y = x.map (both w)) (v : ExpireValue K V) :
    (y >>= fun (r, b) => some ((⟨r.toNat, some v.key, some v.value⟩ : Ret K V), b)) =
      (x >>= fun (r, b) => some ((⟨r.toNat, some v.key, some v.value⟩ : Ret K V), b)).map (both w) :=
  bind_of_map hxy fun _ _ => rfl

lemma exec_straight {o : Op K V} (ha : Avoids w b o) : (straight w b).exec o = (b.exec o).map (both w) := by
  cases o with
  | push key value now =>
    rw [exec, exec, push_straight ha.tag ha.tail ha.old, Option.map_map, Option.map_map]
    rfl
  | pushOld key value now =>
    rw [exec, exec, pushOld, pushOld, oldHead_straight]
    cases b.oldHead with
    | none => rfl
    | some t =>
      change ((straight w b).push key value now >>= _) = (b.push key value now >>= _).map _
      exact bind_of_map (push_straight ha.tag ha.tail ha.old key value now) fun _ _ => rfl
  | find key => exact find_straight key
  | update key t now =>
    rw [exec, exec, update, update]
    rw [straight_map]
    cases hk : b.map key with
    | none => rfl
    | some p =>
      obtain ⟨hp, htail, hprev⟩ := ha.updated key p (Or.inl ⟨t, now, rfl⟩) hk
      refine entry_straight (b := { b with pCurrent := p }) fun v => ?_
      exact moved_straight hp htail hprev fun _ => rfl
  | updateValue key value now =>
    rw [exec, exec, updateValue, updateValue]
    rw [straight_map]
    cases hk : b.map key with
    | none => rfl
    | some p =>
      obtain ⟨hp, htail, hprev⟩ := ha.updated key p (Or.inr ⟨value, now, rfl⟩) hk
      refine entry_straight (b := { b with pCurrent := p }) fun v => ?_
      exact moved_straight hp htail hprev fun _ => rfl
  | pop key => exact pop_straight fun p e => ha.popped key p e rfl
  | popFront =>
    rw [exec, exec, popFrontOut, popFrontOut]
    by_cases hcount : 0 < b.count
    · rw [if_pos hcount]
      refine (if_pos hcount).trans ?_
      exact entry_straight fun v => out_straight (popFront_straight ha.tag) v
    · rw [if_neg hcount]
      exact if_neg hcount
  | popBack =>
    rw [exec, exec, popBackOut, popBackOut]
    by_cases hcount : 0 < b.count
    · rw [if_pos hcount]
      refine (if_pos hcount).trans ?_
      have htail := ha.tail (by omega)
      rw [straight_tail htail]
      exact entry_straight fun v => out_straight (popBack_straight htail (ha.last rfl (by omega))) v
    · rw [if_neg hcount]
      exact if_neg hcount
  | popFrontOld t now =>
    rw [exec, exec, popFrontOldOut, popFrontOldOut]
    by_cases hcount : 0 < b.count
    · rw [if_pos hcount]
      refine (if_pos hcount).trans ?_
      exact entry_straight fun v => out_straight (popFrontOld_straight ha.tag t now) v
    · rw [if_neg hcount]
      exact if_neg hcount
  | popOld t now =>
    have hloop : (straight w b).popOld t now = (b.popOld t now).map (both w) := by
      rw [popOld, popOld]
      by_cases hcount : 0 < b.count
      · rw [if_pos hcount]
        exact (if_pos hcount).trans (popOldLoop_straight ha.tag _ t now 0)
      · rw [if_neg hcount]
        exact if_neg hcount
    rw [exec, exec, hloop, Option.map_map, Option.map_map]
    rfl

end ExpireBuffer

end Xframe.Comserv
