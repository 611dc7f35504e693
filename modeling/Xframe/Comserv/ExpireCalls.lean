import Xframe.Comserv.ExpireRuns

/-! The cursor of `CExpireBuffer`, `clear` and the setters, and runs of calls on them all. -/

namespace Xframe.Comserv

open Xframe.Lib

variable {K V : Type}

namespace ExpireBuffer

def front (b : ExpireBuffer K V) : Option (Ret K V × ExpireBuffer K V) :=
  if 0 < b.count then do
    let b := { b with pCurrent := b.pHead }
    let v ← b.entry b.pHead
    some (⟨1, some v.key, some v.value⟩, b)
  else some (⟨0, none, none⟩, b)

def back (b : ExpireBuffer K V) : Option (Ret K V × ExpireBuffer K V) :=
  if 0 < b.count then do
    let b := { b with pCurrent := b.pTail }
    let v ← b.entry b.pTail
    some (⟨1, some v.key, some v.value⟩, b)
  else some (⟨0, none, none⟩, b)

def next (b : ExpireBuffer K V) : Option (Bool × ExpireBuffer K V) :=
  if 0 < b.count then
    if b.pCurrent = 0 then some (false, b)
    else do
      let e ← b.heap.read b.pCurrent
      some (decide (e.next ≠ b.pTag), { b with pCurrent := e.next })
  else some (false, b)

def prev (b : ExpireBuffer K V) : Option (Bool × ExpireBuffer K V) :=
  if 0 < b.count then
    if b.pCurrent = 0 then some (false, b)
    else do
      let e ← b.heap.read b.pCurrent
      some (decide (e.prev ≠ b.pTag), { b with pCurrent := e.prev })
  else some (false, b)

def current (b : ExpireBuffer K V) (r : Bool) : Option (Ret K V × ExpireBuffer K V) :=
  if r then do
    let v ← b.entry b.pCurrent
    some (⟨1, some v.key, some v.value⟩, b)
  else some (⟨0, none, none⟩, b)

def nextOut (b : ExpireBuffer K V) : Option (Ret K V × ExpireBuffer K V) := do
  let (r, b) ← b.next
  b.current r

def prevOut (b : ExpireBuffer K V) : Option (Ret K V × ExpireBuffer K V) := do
  let (r, b) ← b.prev
  b.current r

def frontOld (b : ExpireBuffer K V) (currenttime now : ℤ) : Option (Ret K V × ExpireBuffer K V) :=
  let oldtime := if currenttime = 0 then now else currenttime
  if 0 < b.count then do
    let v ← b.entry b.pHead
    if (b.livingTime : ℤ) < oldtime - v.refreshtime then
      some (⟨1, some v.key, some v.value⟩, { b with pCurrent := b.pHead })
    else some (⟨0, none, none⟩, b)
  else some (⟨0, none, none⟩, b)

def clearLoop : ℕ → ExpireBuffer K V → Option (ExpireBuffer K V)
  | 0, b => some b
  | n + 1, b => do
    let head ← b.heap.read b.pHead
    let b := { b with pCurrent := head.next }
    let b ← b.setPrev b.pCurrent b.pTag
    let b ← b.setNext b.pTag b.pCurrent
    let b ← b.delete b.pHead
    clearLoop n { b with pHead := b.pCurrent, count := b.count - 1 }

def clear (b : ExpireBuffer K V) : Option (ExpireBuffer K V) :=
  if b.count = 0 then some b
  else clearLoop b.count { b with map := fun _ => none, pCurrent := b.pHead }

/-- A call on the buffer. `next` and `prev` without arguments only move the cursor, `nextOut` and
`prevOut` hand out the entry there. -/
inductive Call (K V : Type) where
  | op (o : Op K V)
  | front
  | back
  | next
  | prev
  | nextOut
  | prevOut
  | frontOld (currenttime now : ℤ)
  | clear
  | setMaxCount (maxCount : ℕ)
  | setLivingTime (livingTime : ℕ)
  | setDestroyPolicy (destroyOld : Bool)

def moved (x : Option (Bool × ExpireBuffer K V)) : Option (Ret K V × ExpireBuffer K V) :=
  x.map fun (r, b) => (⟨r.toNat, none, none⟩, b)

def call [DecidableEq K] (b : ExpireBuffer K V) : Call K V → Option (Ret K V × ExpireBuffer K V)
  | .op o => b.exec o
  | .front => b.front
  | .back => b.back
  | .next => moved b.next
  | .prev => moved b.prev
  | .nextOut => b.nextOut
  | .prevOut => b.prevOut
  | .frontOld currenttime now => b.frontOld currenttime now
  | .clear => b.clear.map fun b => (⟨0, none, none⟩, b)
  | .setMaxCount maxCount => some (⟨0, none, none⟩, { b with countMax := maxCount })
  | .setLivingTime livingTime => some (⟨0, none, none⟩, { b with livingTime })
  | .setDestroyPolicy destroyOld => some (⟨0, none, none⟩, { b with destroyOld })

end ExpireBuffer

def ExpireMap.after [DecidableEq K] (m : ExpireMap K V) : ExpireBuffer.Call K V → ExpireMap K V
  | .op o => (m.step o).2
  | .clear => { m with entries := [], nodup := List.nodup_nil }
  | .setMaxCount maxCount => { m with countMax := maxCount }
  | .setLivingTime livingTime => { m with livingTime }
  | .setDestroyPolicy destroyOld => { m with destroyOld }
  | _ => m

namespace ExpireBuffer

variable {b b' : ExpireBuffer K V} {ps : List ℕ} {m : ExpireMap K V} {p : ℕ}

lemma atCursor (h : Rep b ps m) (p : ℕ) : Rep { b with pCurrent := p } ps m :=
  ⟨h.ring, h.live, h.values, h.map, h.head, h.tail, h.count, h.countMax, h.destroyOld, h.livingTime⟩

lemma mem_iff_live (h : Rep b ps m) : p ∈ b.pTag :: ps ↔ b.heap.read p ≠ none := (wellFormed h).live p |>.symm

lemma head_mem (h : Rep b ps m) : b.pHead ∈ b.pTag :: ps := (wellFormed h).ends.1

lemma tail_mem (h : Rep b ps m) : b.pTail ∈ b.pTag :: ps := (wellFormed h).ends.2

inductive Looks (b : ExpireBuffer K V) : ExpireBuffer K V → Prop
  | stays : Looks b b
  | front : Looks b { b with pCurrent := b.pHead }
  | back : Looks b { b with pCurrent := b.pTail }
  | next {e : Enty K V} (he : b.heap.read b.pCurrent = some e) : Looks b { b with pCurrent := e.next }
  | prev {e : Enty K V} (he : b.heap.read b.pCurrent = some e) : Looks b { b with pCurrent := e.prev }

lemma Looks.rep (hl : Looks b b') (h : Rep b ps m) : Rep b' ps m := by
  cases hl with
  | stays => exact h
  | front => exact atCursor h _
  | back => exact atCursor h _
  | next _ => exact atCursor h _
  | prev _ => exact atCursor h _

lemma Looks.cursor (hl : Looks b b') (h : Rep b ps m) (hc : b.pCurrent ∈ b.pTag :: ps) :
    b'.pCurrent ∈ b'.pTag :: ps := by
  cases hl with
  | stays => exact hc
  | front => exact (head_mem h : b.pHead ∈ b.pTag :: ps)
  | back => exact (tail_mem h : b.pTail ∈ b.pTag :: ps)
  | next he => exact ((wellFormed h).links _ _ he).1
  | prev he => exact ((wellFormed h).links _ _ he).2

lemma front_looks {r : Ret K V} (h : b.front = some (r, b')) : Looks b b' := by
  rw [front] at h
  split at h
  · obtain ⟨v, -, hv⟩ := Option.bind_eq_some_iff.mp h
    cases hv
    exact .front
  · cases h
    exact .stays

lemma back_looks {r : Ret K V} (h : b.back = some (r, b')) : Looks b b' := by
  rw [back] at h
  split at h
  · obtain ⟨v, -, hv⟩ := Option.bind_eq_some_iff.mp h
    cases hv
    exact .back
  · cases h
    exact .stays

lemma frontOld_looks {r : Ret K V} {t now : ℤ} (h : b.frontOld t now = some (r, b')) : Looks b b' := by
  rw [frontOld] at h
  generalize (if t = 0 then now else t) = oldtime at h
  split at h
  · obtain ⟨v, -, hv⟩ := Option.bind_eq_some_iff.mp h
    split at hv
    · cases hv
      exact .front
    · cases hv
      exact .stays
  · cases h
    exact .stays

lemma next_looks {r : Bool} (h : b.next = some (r, b')) : Looks b b' := by
  rw [next] at h
  split_ifs at h
  · cases h
    exact .stays
  · obtain ⟨e, he, hv⟩ := Option.bind_eq_some_iff.mp h
    cases hv
    exact .next he
  · cases h
    exact .stays

lemma prev_looks {r : Bool} (h : b.prev = some (r, b')) : Looks b b' := by
  rw [prev] at h
  split_ifs at h
  · cases h
    exact .stays
  · obtain ⟨e, he, hv⟩ := Option.bind_eq_some_iff.mp h
    cases hv
    exact .prev he
  · cases h
    exact .stays

lemma current_same {c : Bool} {r : Ret K V} (h : b.current c = some (r, b')) : b' = b := by
  rw [current] at h
  split at h
  · obtain ⟨v, -, hv⟩ := Option.bind_eq_some_iff.mp h
    cases hv
    rfl
  · cases h
    rfl

lemma nextOut_looks {r : Ret K V} (h : b.nextOut = some (r, b')) : Looks b b' := by
  obtain ⟨⟨c, b₁⟩, h1, h2⟩ := Option.bind_eq_some_iff.mp h
  obtain rfl := current_same h2
  exact next_looks h1

lemma prevOut_looks {r : Ret K V} (h : b.prevOut = some (r, b')) : Looks b b' := by
  obtain ⟨⟨c, b₁⟩, h1, h2⟩ := Option.bind_eq_some_iff.mp h
  obtain rfl := current_same h2
  exact prev_looks h1

lemma moved_looks {x : Option (Bool × ExpireBuffer K V)} (hx : ∀ c b', x = some (c, b') → Looks b b') {r : Ret K V}
    (h : moved x = some (r, b')) : Looks b b' := by
  obtain ⟨⟨c, b₁⟩, h1, h2⟩ := Option.map_eq_some_iff.mp h
  cases h2
  exact hx c _ h1

lemma call_models [DecidableEq K] (h : Models b m) {c : Call K V} (hc : c ≠ .clear) {r : Ret K V}
    (hr : b.call c = some (r, b')) : Models b' (m.after c) ∧ ∀ o, c = .op o → r = (m.step o).1 := by
  obtain ⟨ps, h⟩ := h
  have look (hl : Looks b b') : Models b' m := ⟨ps, hl.rep h⟩
  have set {m' : ExpireMap K V} (hm : Rep b' ps m') : Models b' m' := ⟨ps, hm⟩
  cases c with
  | op o =>
    obtain ⟨⟨r', c'⟩, ho, hres, hm⟩ := exec_spec ⟨ps, h⟩ o
    obtain ⟨rfl, rfl⟩ := Prod.mk.inj (Option.some.inj (hr.symm.trans ho))
    exact ⟨hm, fun o' ho' => by rw [hres, Call.op.inj ho']⟩
  | front => exact ⟨look (front_looks hr), by simp⟩
  | back => exact ⟨look (back_looks hr), by simp⟩
  | next => exact ⟨look (moved_looks (fun _ _ => next_looks) hr), by simp⟩
  | prev => exact ⟨look (moved_looks (fun _ _ => prev_looks) hr), by simp⟩
  | nextOut => exact ⟨look (nextOut_looks hr), by simp⟩
  | prevOut => exact ⟨look (prevOut_looks hr), by simp⟩
  | frontOld t now => exact ⟨look (frontOld_looks hr), by simp⟩
  | clear => exact absurd rfl hc
  | setMaxCount n =>
    cases hr
    exact ⟨set ⟨h.ring, h.live, h.values, h.map, h.head, h.tail, h.count, rfl, h.destroyOld, h.livingTime⟩, by simp⟩
  | setLivingTime n =>
    cases hr
    exact ⟨set ⟨h.ring, h.live, h.values, h.map, h.head, h.tail, h.count, h.countMax, h.destroyOld, rfl⟩, by simp⟩
  | setDestroyPolicy d =>
    cases hr
    exact ⟨set ⟨h.ring, h.live, h.values, h.map, h.head, h.tail, h.count, h.countMax, rfl, h.livingTime⟩, by simp⟩

end ExpireBuffer

end Xframe.Comserv
