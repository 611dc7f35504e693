import Xframe.Comserv.CVector

/-! A vector is an array whose first slots are filled: the slots are the entries of its table, each entry and
each value is held by one slot, and nothing else is on its heaps. -/

namespace Xframe.Comserv

open Xframe.Lib

structure VecSlot (V : Type) where
  entry : ℕ
  addr : ℕ
  value : V

namespace VecSlot

variable {V : Type}

def cell (s : VecSlot V) : ℕ × VecEntry := (s.entry, ⟨s.addr, 0, 0⟩)

def held (s : VecSlot V) : ℕ × V := (s.addr, s.value)

end VecSlot

namespace CVector

variable {V : Type} {v : CVector V} {base i : ℕ} {slots l r : List (VecSlot V)} {s : VecSlot V} {default : V}

structure Holds (v : CVector V) (base : ℕ) (slots : List (VecSlot V)) (default : V) : Prop where
  ht : CHashTable.Maps indexKeys v.ht fun i => if i < base then none else (slots[i - base]?).map VecSlot.entry
  entries : v.entries.Owns (slots.map VecSlot.cell)
  values : v.values.Owns ((v.pValue, default) :: slots.map VecSlot.held)

lemma compareKey_iff (a b : ℕ) : indexKeys.compareKey a b = true ↔ a = b := beq_iff_eq

namespace Holds

lemma new (default : V) : (CVector.new default).Holds 0 [] default where
  ht := CHashTable.maps_new 16 0.75
  entries := Heap.Owns.empty
  values := Heap.Owns.empty.alloc default

lemma default_read (h : v.Holds base slots default) : v.values.read v.pValue = some default :=
  (h.values.read _ _).mpr List.mem_cons_self

lemma getR (h : v.Holds base (l ++ s :: r) default) (hi : i = base + l.length) :
    v.ht.getR indexKeys i = some (some s.entry) := by
  rw [h.ht.getR, if_neg (by omega), hi, Nat.add_sub_cancel_left, List.getElem?_append_right le_rfl, Nat.sub_self]
  rfl

lemma entry_read (h : v.Holds base slots default) (hs : s ∈ slots) :
    v.entries.read s.entry = some ⟨s.addr, 0, 0⟩ ∧ s.entry ≠ 0 := by
  have hmem : s.cell ∈ slots.map VecSlot.cell := List.mem_map_of_mem hs
  exact ⟨(h.entries.read _ _).mpr hmem, h.entries.ne_zero hmem⟩

lemma value_read (h : v.Holds base slots default) (hs : s ∈ slots) :
    v.values.read s.addr = some s.value ∧ s.addr ≠ 0 := by
  have hmem : s.held ∈ (v.pValue, default) :: slots.map VecSlot.held :=
    List.mem_cons_of_mem _ (List.mem_map_of_mem hs)
  exact ⟨(h.values.read _ _).mpr hmem, h.values.ne_zero hmem⟩

end Holds

lemma putNew_spec (h : v.Holds 0 slots default) (value : V) : Returns (v.putNew slots.length value) fun v' =>
    (∃ s : VecSlot V, s.value = value ∧ v'.Holds 0 (slots ++ [s]) default) ∧ v'.count = v.count ∧ v'.size = v.size := by
  rw [putNew]
  refine (h.ht.putR slots.length v.entries.brk).bind ?_
  rintro ⟨old, ht⟩ hput
  rw [returns_some]
  refine ⟨⟨⟨v.entries.brk, v.values.brk, value⟩, rfl, ?_, ?_, ?_⟩, rfl, rfl⟩
  · have hmap : (fun i => if indexKeys.compareKey i slots.length then some v.entries.brk
        else if i < 0 then none else (slots[i - 0]?).map VecSlot.entry) = fun i => if i < 0 then none
          else ((slots ++ [(⟨v.entries.brk, v.values.brk, value⟩ : VecSlot V)])[i - 0]?).map VecSlot.entry := by
      funext i
      rw [if_neg (Nat.not_lt_zero i), if_neg (Nat.not_lt_zero i), Nat.sub_zero]
      by_cases hi : i = slots.length
      · rw [if_pos ((compareKey_iff _ _).mpr hi), hi, List.getElem?_concat_length]
        rfl
      · rw [if_neg fun heq => hi ((compareKey_iff _ _).mp heq)]
        rcases Nat.lt_or_gt_of_ne hi with hlt | hgt
        · rw [List.getElem?_append_left hlt]
        · rw [List.getElem?_eq_none (Nat.le_of_lt hgt), List.getElem?_eq_none (by simpa using hgt)]
    exact hmap ▸ hput
  · rw [List.map_append, List.map_singleton]
    exact (h.entries.alloc _).perm (List.perm_append_singleton _ _).symm
  · rw [List.map_append, List.map_singleton]
    refine (h.values.alloc value).perm ?_
    exact (List.Perm.swap _ _ _).trans ((List.perm_append_singleton _ _).symm.cons _)

lemma fill_spec {fill : ℕ → ℕ → CVector V → Option (CVector V)} {value : V} (hzero : ∀ i v, fill 0 i v = some v)
    (hsucc : ∀ n i v slots, v.Holds 0 slots default → fill (n + 1) i v = v.putNew i value >>= fill n (i + 1))
    (h : v.Holds 0 slots default) (n : ℕ) : Returns (fill n slots.length v) fun v' =>
      (∃ new : List (VecSlot V), new.map VecSlot.value = List.replicate n value ∧ v'.Holds 0 (slots ++ new) default) ∧
        v'.count = v.count ∧ v'.size = v.size := by
  induction n generalizing v slots with
  | zero =>
    rw [hzero, returns_some]
    exact ⟨⟨[], rfl, by rwa [List.append_nil]⟩, rfl, rfl⟩
  | succ n ih =>
    rw [hsucc n _ _ _ h]
    refine (putNew_spec h value).bind ?_
    rintro v₁ ⟨⟨s, hs, h₁⟩, hc₁, hsize₁⟩
    have hlen : slots.length + 1 = (slots ++ [s]).length := by simp
    rw [hlen]
    refine (ih h₁).mono ?_
    rintro v₂ ⟨⟨new, hnew, h₂⟩, hc₂, hsize₂⟩
    refine ⟨⟨s :: new, ?_, ?_⟩, hc₂.trans hc₁, hsize₂.trans hsize₁⟩
    · rw [List.map_cons, hs, hnew]
      rfl
    · rwa [List.append_assoc] at h₂

lemma grow_spec (h : v.Holds 0 slots default) (n : ℕ) : Returns (grow n slots.length v) fun v' =>
    (∃ new : List (VecSlot V), new.map VecSlot.value = List.replicate n default ∧ v'.Holds 0 (slots ++ new) default) ∧
      v'.count = v.count ∧ v'.size = v.size := by
  apply fill_spec (fun _ _ => rfl) _ h
  intro n i v slots h
  rw [grow, h.default_read]
  rfl

lemma setValue_spec (h : v.Holds 0 (l ++ s :: r) default) (value : V) :
    Returns (v.values.modify s.addr fun _ => value) fun values =>
      Holds { v with values } 0 (l ++ { s with value } :: r) default := by
  have hvalues : v.values.Owns (((v.pValue, default) :: l.map VecSlot.held) ++ s.held :: r.map VecSlot.held) := by
    have hv := h.values
    rwa [List.map_append, List.map_cons] at hv
  refine (hvalues.modify fun _ => value).mono fun values hv => ⟨?_, ?_, ?_⟩
  · have hmap : (fun i => if i < 0 then none else ((l ++ s :: r)[i - 0]?).map VecSlot.entry) =
        fun i => if i < 0 then none else ((l ++ { s with value } :: r)[i - 0]?).map VecSlot.entry := by
      funext i
      rw [← List.getElem?_map, ← List.getElem?_map, List.map_append, List.map_append]
      rfl
    exact hmap ▸ h.ht
  · have he := h.entries
    rw [List.map_append, List.map_cons] at he ⊢
    exact he
  · rw [List.map_append, List.map_cons]
    exact hv

lemma setDefault_spec (h : v.Holds 0 slots default) (value : V) :
    Returns (v.values.modify v.pValue fun _ => value) fun values => Holds { v with values } 0 slots value := by
  have hvalues : v.values.Owns ([] ++ (v.pValue, default) :: slots.map VecSlot.held) := h.values
  exact (hvalues.modify fun _ => value).mono fun values hv => ⟨h.ht, h.entries, hv⟩

lemma index_inside (h : v.Holds 0 (l ++ s :: r) default) (hsize : v.size = (l ++ s :: r).length) :
    v.index l.length = some s.addr := by
  have hmem : s ∈ l ++ s :: r := by simp
  have hlt : l.length < v.size := by
    rw [hsize, List.length_append, List.length_cons]
    omega
  obtain ⟨he, hne⟩ := h.entry_read hmem
  rw [index, if_pos hlt, h.getR (Nat.zero_add _).symm, Option.bind_eq_bind, Option.bind_some]
  dsimp only
  rw [if_pos hne, he]
  exact congrArg some (if_pos (h.value_read hmem).2)

lemma index_outside (hi : v.size ≤ i) : v.index i = some v.pValue := by
  rw [index, if_neg (Nat.not_lt.mpr hi)]

def Stands (v : CVector V) (s : Filled V) : Prop :=
  ∃ slots : List (VecSlot V), slots.map VecSlot.value = s.slots ∧ v.Holds 0 slots s.default ∧
    v.size = slots.length ∧ v.count = s.count

variable {f : Filled V}

lemma stands_new (default : V) : (new default).Stands (.new default) := ⟨[], rfl, .new default, rfl, rfl⟩

lemma Stands.size (h : v.Stands f) : v.size = f.slots.length := by
  obtain ⟨slots, hs, -, hsize, -⟩ := h
  rw [hsize, ← hs, List.length_map]

lemma Stands.count (h : v.Stands f) : v.count = f.count := h.choose_spec.2.2.2

lemma slot_split {slots : List (VecSlot V)} {values : List V} (hs : slots.map VecSlot.value = values)
    (hi : i < slots.length) : ∃ l s r, slots = l ++ s :: r ∧ l.length = i ∧
      values = l.map VecSlot.value ++ s.value :: r.map VecSlot.value := by
  have hlen : (slots.take i).length = i := List.length_take_of_le (Nat.le_of_lt hi)
  have hsplit : slots = slots.take i ++ slots[i] :: slots.drop (i + 1) := by
    rw [← List.drop_eq_getElem_cons hi, List.take_append_drop]
  refine ⟨slots.take i, slots[i], slots.drop (i + 1), hsplit, hlen, ?_⟩
  rw [← hs, ← List.map_cons, ← List.map_append, ← hsplit]

lemma resize_spec (h : v.Stands f) (n : ℕ) : Returns (v.resize n) fun v' => v'.Stands (f.resize n) := by
  obtain ⟨slots, hs, hh, hsize, hcount⟩ := h
  have hlen : f.slots.length = slots.length := by rw [← hs, List.length_map]
  have hgrown : Returns (if v.size < n then (grow (n - v.size) v.size v).map fun v => { v with size := n } else some v)
      fun v' => (∃ slots' : List (VecSlot V), slots'.map VecSlot.value = (f.resize n).slots ∧
        v'.Holds 0 slots' f.default ∧ v'.size = slots'.length) ∧ v'.count = v.count := by
    rw [hsize]
    split_ifs with hlt
    · refine (grow_spec hh (n - slots.length)).map ?_
      rintro v₁ ⟨⟨new, hnew, h₁⟩, hc₁, -⟩
      refine ⟨⟨slots ++ new, ?_, ⟨h₁.ht, h₁.entries, h₁.values⟩, ?_⟩, hc₁⟩
      · rw [List.map_append, hs, hnew, ← hlen]
        rfl
      · have hnewlen : new.length = n - slots.length := by
          have hvalues : (new.map VecSlot.value).length = new.length := List.length_map VecSlot.value
          rw [← hvalues, hnew, List.length_replicate]
        rw [List.length_append, hnewlen]
        exact (Nat.add_sub_cancel' (Nat.le_of_lt hlt)).symm
    · rw [returns_some]
      refine ⟨⟨slots, ?_, hh, hsize⟩, rfl⟩
      change _ = f.slots ++ List.replicate (n - f.slots.length) f.default
      rw [hlen, Nat.sub_eq_zero_of_le (Nat.not_lt.mp hlt), List.replicate_zero, List.append_nil, hs]
  rw [resize]
  refine hgrown.bind ?_
  rintro v₁ ⟨⟨slots', hs', h₁, hsize₁⟩, hc₁⟩
  rw [returns_some]
  have hc : v₁.count = f.count := hc₁.trans hcount
  split_ifs with hless
  · refine ⟨slots', hs', ⟨h₁.ht, h₁.entries, h₁.values⟩, hsize₁, ?_⟩
    change n = min f.count n
    omega
  · refine ⟨slots', hs', h₁, hsize₁, ?_⟩
    change v₁.count = min f.count n
    omega

lemma pushBack_spec (h : v.Stands f) (value : V) : Returns (v.pushBack value) fun (n, v') =>
    n = f.count + 1 ∧ v'.Stands (f.pushBack value) := by
  obtain ⟨slots, hs, hh, hsize, hcount⟩ := h
  have hlen : f.slots.length = slots.length := by rw [← hs, List.length_map]
  have hle := f.count_le
  rw [pushBack]
  split_ifs with hlt
  · obtain ⟨l, s, r, rfl, hl, hvalues⟩ := slot_split hs (hsize ▸ hlt)
    have hmem : s ∈ l ++ s :: r := by simp
    obtain ⟨he, hne⟩ := hh.entry_read hmem
    refine Returns.of_bind (hh.getR (by omega)) ?_
    dsimp only
    rw [if_neg hne]
    refine Returns.of_bind he ?_
    rw [if_neg (hh.value_read hmem).2]
    refine (setValue_spec hh value).bind fun values h₁ => ?_
    rw [returns_some]
    refine ⟨by rw [hcount], l ++ { s with value } :: r, ?_, ⟨h₁.ht, h₁.entries, h₁.values⟩, ?_, ?_⟩
    · have hl' : (l.map VecSlot.value).length = f.count := by rw [List.length_map, hl, hcount]
      change _ = f.slots.take f.count ++ value :: f.slots.drop (f.count + 1)
      rw [hvalues, ← hl', List.take_left, List.drop_length_add_append, List.map_append, List.map_cons]
      rfl
    · rw [List.length_append, List.length_cons] at hsize ⊢
      exact hsize
    · change v.count + 1 = f.count + 1
      rw [hcount]
  · have hfull : v.count = slots.length := by omega
    rw [hfull]
    refine (putNew_spec hh value).bind ?_
    rintro v₁ ⟨⟨s, hsv, h₁⟩, hc₁, hsize₁⟩
    rw [returns_some]
    refine ⟨by omega, slots ++ [s], ?_, ⟨h₁.ht, h₁.entries, h₁.values⟩, ?_, ?_⟩
    · change _ = f.slots.take f.count ++ value :: f.slots.drop (f.count + 1)
      rw [List.take_of_length_le (by omega), List.drop_eq_nil_of_le (by omega), List.map_append, hs,
        List.map_singleton, hsv]
    · rw [List.length_append, List.length_singleton]
      change v₁.size + 1 = _
      rw [hsize₁, hsize]
    · change v₁.count + 1 = f.count + 1
      rw [hc₁, hcount]

lemma Stands.popBack (h : v.Stands f) : Stands { v with count := v.count - 1 } f.popBack := by
  obtain ⟨slots, hs, hh, hsize, hcount⟩ := h
  refine ⟨slots, hs, ⟨hh.ht, hh.entries, hh.values⟩, hsize, ?_⟩
  change v.count - 1 = f.count - 1
  rw [hcount]

lemma popBack_zero (hzero : f.count = 0) : f.popBack = f := by
  rw [Filled.popBack]
  cases f
  congr
  dsimp only at hzero ⊢
  rw [hzero]

lemma last_split (hs : slots.map VecSlot.value = f.slots) (hpos : 0 < f.count) : ∃ l s r, slots = l ++ s :: r ∧
    l.length = f.count - 1 ∧ f.elements.getLast? = some s.value := by
  have hle := f.count_le
  rw [← hs, List.length_map] at hle
  obtain ⟨l, s, r, rfl, hl, hvalues⟩ := slot_split hs (i := f.count - 1) (by omega)
  refine ⟨l, s, r, rfl, hl, ?_⟩
  have htake : f.elements = l.map VecSlot.value ++ [s.value] := by
    have hcount : f.count = (l.map VecSlot.value ++ [s.value]).length := by
      rw [List.length_append, List.length_map, hl, List.length_singleton]
      omega
    have hassoc : f.slots = l.map VecSlot.value ++ [s.value] ++ r.map VecSlot.value := by
      rw [hvalues, List.append_assoc, List.singleton_append]
    rw [Filled.elements, hassoc, hcount, List.take_left]
  rw [htake, List.getLast?_concat]

lemma popBack_spec (h : v.Stands f) : Returns v.popBack fun (n, v') => n = f.count - 1 ∧ v'.Stands f.popBack := by
  have hc := h.count
  rw [popBack]
  split_ifs with hpos
  · obtain ⟨slots, hs, hh, hsize, hcount⟩ := id h
    obtain ⟨l, s, r, rfl, hl, -⟩ := last_split hs (hc ▸ hpos)
    refine Returns.of_bind (hh.getR (by omega)) ?_
    rw [returns_some]
    exact ⟨by rw [hc], h.popBack⟩
  · have hzero : f.count = 0 := by omega
    rw [returns_some, popBack_zero hzero]
    exact ⟨by omega, h⟩

lemma popBackValue_spec (h : v.Stands f) : Returns v.popBackValue fun (r, v') =>
    r = (f.count - 1, f.elements.getLast?) ∧ v'.Stands f.popBack := by
  have hc := h.count
  rw [popBackValue]
  split_ifs with hpos
  · obtain ⟨slots, hs, hh, hsize, hcount⟩ := id h
    obtain ⟨l, s, r, rfl, hl, hlast⟩ := last_split hs (hc ▸ hpos)
    have hmem : s ∈ l ++ s :: r := by simp
    obtain ⟨he, hne⟩ := hh.entry_read hmem
    obtain ⟨hv, hne'⟩ := hh.value_read hmem
    refine Returns.of_bind (hh.getR (by omega)) ?_
    dsimp only
    rw [if_neg hne]
    refine Returns.of_bind he ?_
    rw [if_neg hne']
    refine Returns.of_bind hv ?_
    rw [returns_some, hlast]
    exact ⟨by rw [hc], h.popBack⟩
  · have hzero : f.count = 0 := by omega
    rw [returns_some, popBack_zero hzero, Filled.elements, hzero]
    exact ⟨rfl, h⟩

lemma read_spec (h : v.Stands f) (i : ℕ) : v.read i = some (f.slots.getD i f.default) := by
  obtain ⟨slots, hs, hh, hsize, hcount⟩ := h
  have hlen : f.slots.length = slots.length := by rw [← hs, List.length_map]
  rw [read]
  by_cases hi : i < slots.length
  · obtain ⟨l, s, r, rfl, rfl, hvalues⟩ := slot_split hs hi
    have hl : (l.map VecSlot.value).length = l.length := List.length_map VecSlot.value
    rw [index_inside hh hsize, Option.bind_eq_bind, Option.bind_some, (hh.value_read (s := s) (by simp)).1, hvalues,
      List.getD_eq_getElem?_getD, ← hl, List.getElem?_append_right le_rfl, Nat.sub_self]
    rfl
  · rw [index_outside (by omega), Option.bind_eq_bind, Option.bind_some, hh.default_read,
      List.getD_eq_getElem?_getD, List.getElem?_eq_none (by omega), Option.getD_none]

lemma write_spec (h : v.Stands f) (i : ℕ) (value : V) : Returns (v.write i value) fun v' => v'.Stands (f.write i value) := by
  obtain ⟨slots, hs, hh, hsize, hcount⟩ := h
  have hlen : f.slots.length = slots.length := by rw [← hs, List.length_map]
  rw [write]
  by_cases hi : i < slots.length
  · have hdefault : (f.write i value).default = f.default := if_pos (hlen ▸ hi)
    obtain ⟨l, s, r, rfl, rfl, hvalues⟩ := slot_split hs hi
    refine Returns.of_bind (index_inside hh hsize) ?_
    refine (setValue_spec hh value).bind fun values h₁ => ?_
    rw [returns_some]
    refine ⟨l ++ { s with value } :: r, ?_, hdefault ▸ h₁, ?_, hcount⟩
    · change _ = f.slots.set l.length value
      have hl : (l.map VecSlot.value).length = l.length := List.length_map VecSlot.value
      rw [hvalues, ← hl, List.set_append_right _ _ le_rfl, Nat.sub_self, List.map_append, List.map_cons]
      rfl
    · rw [List.length_append, List.length_cons] at hsize ⊢
      exact hsize
  · have hdefault : (f.write i value).default = value := if_neg (hlen ▸ hi)
    refine Returns.of_bind (index_outside (by omega)) ?_
    refine (setDefault_spec hh value).bind fun values h₁ => ?_
    rw [returns_some]
    refine ⟨slots, ?_, ?_, hsize, hcount⟩
    · change _ = f.slots.set i value
      rw [List.set_eq_of_length_le (by omega), hs]
    · rw [hdefault]
      exact h₁

lemma deleteEntry_spec (h : v.Holds base (s :: slots) default) : Returns (v.deleteEntry s.entry) fun v₁ =>
    v₁.ht = v.ht ∧ Returns (v₁.ht.remove indexKeys base) fun (_, ht) =>
      Holds { v₁ with ht } (base + 1) slots default := by
  have hmem : s ∈ s :: slots := List.mem_cons_self
  obtain ⟨he, hne⟩ := h.entry_read hmem
  have hentries : v.entries.Owns ([] ++ s.cell :: slots.map VecSlot.cell) := h.entries
  have hvalues : v.values.Owns ([(v.pValue, default)] ++ s.held :: slots.map VecSlot.held) := h.values
  rw [deleteEntry, if_pos hne]
  refine Returns.of_bind he ?_
  rw [if_pos (h.value_read hmem).2]
  refine hvalues.free.bind fun values hv => hentries.free.bind fun entries hc => ?_
  rw [returns_some]
  refine ⟨rfl, (h.ht.remove base).mono ?_⟩
  rintro ⟨b, ht⟩ hremoved
  refine ⟨?_, hc, hv⟩
  have hmap : (fun k => if indexKeys.compareKey k base then none
      else if k < base then none else ((s :: slots)[k - base]?).map VecSlot.entry) =
        fun k => if k < base + 1 then none else (slots[k - (base + 1)]?).map VecSlot.entry := by
    funext k
    rcases Nat.lt_trichotomy k base with hlt | rfl | hgt
    · have hnext : k < base + 1 := by omega
      rw [if_neg fun heq => hlt.ne ((compareKey_iff _ _).mp heq), if_pos hlt, if_pos hnext]
    · rw [if_pos ((compareKey_iff _ _).mpr rfl), if_pos (Nat.lt_succ_self k)]
    · have hk : k - base = k - (base + 1) + 1 := by omega
      rw [if_neg fun heq => hgt.ne' ((compareKey_iff _ _).mp heq), if_neg (by omega), if_neg (by omega), hk,
        List.getElem?_cons_succ]
  exact hmap ▸ hremoved

lemma removeFrom_spec (h : v.Holds base slots default) : Returns (removeFrom slots.length base v) fun v' =>
    v'.Holds (base + slots.length) [] default := by
  induction slots generalizing v base with
  | nil => exact (returns_some _ _).mpr h
  | cons s slots ih =>
    rw [List.length_cons, removeFrom]
    refine Returns.of_bind (Holds.getR (l := []) h rfl) ?_
    dsimp only
    refine (deleteEntry_spec h).bind ?_
    rintro v₁ ⟨-, hremove⟩
    refine hremove.bind ?_
    rintro ⟨b, ht⟩ h₁
    have hbase : base + (slots.length + 1) = base + 1 + slots.length := by omega
    rw [hbase]
    exact ih h₁

lemma remove_spec (h : v.Stands f) : Returns v.remove fun v' => v'.Stands f.remove := by
  obtain ⟨slots, hs, hh, hsize, hcount⟩ := h
  rw [remove, hsize]
  refine (removeFrom_spec hh).map fun v' h' => ⟨[], rfl, ⟨?_, h'.entries, h'.values⟩, rfl, rfl⟩
  have hmap : (fun k => if k < 0 + slots.length then none else (([] : List (VecSlot V))[k - (0 + slots.length)]?).map
      VecSlot.entry) = fun k => if k < 0 then none else (([] : List (VecSlot V))[k - 0]?).map VecSlot.entry := by
    funext k
    rw [List.getElem?_nil, List.getElem?_nil, Option.map_none, ite_self, ite_self]
  exact hmap ▸ h'.ht

lemma exec_stands (h : v.Stands f) (o : Op V) : Returns (v.exec o) fun (r, v') =>
    r = (f.step o).1 ∧ v'.Stands (f.step o).2 := by
  cases o with
  | resize n => exact (resize_spec h n).map fun v' h' => ⟨rfl, h'⟩
  | pushBack value =>
    refine (pushBack_spec h value).map ?_
    rintro ⟨n, v'⟩ ⟨rfl, h'⟩
    exact ⟨rfl, h'⟩
  | popBack =>
    refine (popBack_spec h).map ?_
    rintro ⟨n, v'⟩ ⟨rfl, h'⟩
    exact ⟨rfl, h'⟩
  | popBackValue =>
    refine (popBackValue_spec h).map ?_
    rintro ⟨r, v'⟩ ⟨rfl, h'⟩
    exact ⟨rfl, h'⟩
  | read i =>
    rw [exec, read_spec h i]
    exact (returns_some _ _).mpr ⟨rfl, h⟩
  | write i value => exact (write_spec h i value).map fun v' h' => ⟨rfl, h'⟩
  | remove => exact (remove_spec h).map fun v' h' => ⟨rfl, h'⟩

def seqStep (l : List V) : Op V → List V
  | .resize n => l.take n
  | .pushBack value => l ++ [value]
  | .popBack => l.dropLast
  | .popBackValue => l.dropLast
  | .read _ => l
  | .write i value => l.set i value
  | .remove => []

lemma length_elements (f : Filled V) : f.elements.length = f.count := List.length_take_of_le f.count_le

lemma elements_popBack (f : Filled V) : f.popBack.elements = f.elements.dropLast := by
  rw [List.dropLast_eq_take, length_elements, Filled.elements, Filled.elements, List.take_take]
  change f.slots.take (f.count - 1) = _
  rw [Nat.min_eq_left (Nat.sub_le _ _)]

lemma elements_step (f : Filled V) (o : Op V) : (f.step o).2.elements = seqStep f.elements o := by
  have hle := f.count_le
  cases o with
  | resize n =>
    change (f.slots ++ List.replicate _ _).take (min f.count n) = (f.slots.take f.count).take n
    rw [List.take_take, Nat.min_comm n, List.take_append_of_le_length (by omega)]
  | pushBack value =>
    change (f.slots.take f.count ++ value :: f.slots.drop (f.count + 1)).take (f.count + 1) = f.elements ++ [value]
    rw [← List.singleton_append, ← List.append_assoc]
    apply List.take_left'
    rw [List.length_append, List.length_take_of_le hle, List.length_singleton]
  | popBack => exact elements_popBack f
  | popBackValue => exact elements_popBack f
  | read i => rfl
  | write i value => exact List.take_set
  | remove => rfl

lemma elements_run (f : Filled V) (ops : List (Op V)) :
    (runSteps Filled.step f ops).2.elements = ops.foldl seqStep f.elements := by
  induction ops generalizing f with
  | nil => rfl
  | cons o ops ih =>
    rw [List.foldl_cons, ← elements_step]
    exact ih (f.step o).2

structure Sound (v : CVector V) (elements : List V) : Prop where
  keys : ∀ i, (∃ p, v.ht.getR indexKeys i = some (some p)) ↔ i < v.size
  live : ∀ i p, v.ht.getR indexKeys i = some (some p) →
    ∃ e value, v.entries.read p = some e ∧ v.values.read e.value = some value
  apart : ∀ i j p q e e', v.ht.getR indexKeys i = some (some p) → v.ht.getR indexKeys j = some (some q) →
    v.entries.read p = some e → v.entries.read q = some e' → e.value = e'.value → i = j
  count_le : v.count ≤ v.size
  length : elements.length = v.count
  elements : ∀ i < v.count, v.read i = elements[i]?
  entries_owned : ∀ p, (v.entries.read p).isSome → ∃ i, v.ht.getR indexKeys i = some (some p)
  values_owned : ∀ p, (v.values.read p).isSome → p = v.pValue ∨ ∃ q e, v.entries.read q = some e ∧ e.value = p

structure Keeps (v : CVector V) : Prop where
  resize : ∀ n, Returns (v.resize n) fun v' => v'.size = max v.size n ∧ ∀ i < v.size, v'.read i = v.read i
  pushBack : ∀ value, Returns (v.pushBack value) fun (_, v') => v'.size = max v.size (v.count + 1) ∧
    ∀ i < v.size, i ≠ v.count → v'.read i = v.read i
  remove : Returns v.remove fun v' => (∀ p, v'.entries.read p = none) ∧ ∀ p, (v'.values.read p).isSome → p = v'.pValue

lemma Holds.getR_eq {slots : List (VecSlot V)} (h : v.Holds 0 slots default) (i : ℕ) :
    v.ht.getR indexKeys i = some ((slots[i]?).map VecSlot.entry) := by
  rw [h.ht.getR, if_neg (Nat.not_lt_zero i), Nat.sub_zero]

lemma Holds.slot_of_getR {slots : List (VecSlot V)} (h : v.Holds 0 slots default) {p : ℕ}
    (hp : v.ht.getR indexKeys i = some (some p)) : ∃ s, slots[i]? = some s ∧ s.entry = p ∧ s ∈ slots := by
  rw [h.getR_eq, Option.some.injEq] at hp
  obtain ⟨s, hs, rfl⟩ := Option.map_eq_some_iff.mp hp
  exact ⟨s, hs, rfl, List.mem_of_getElem? hs⟩

lemma Stands.sound (h : v.Stands f) : v.Sound f.elements := by
  obtain ⟨slots, hs, hh, hsize, hcount⟩ := id h
  have hlen : f.slots.length = slots.length := by rw [← hs, List.length_map]
  refine ⟨fun i => ?_, fun i p hp => ?_, fun i j p q e e' hp hq he he' heq => ?_, ?_, ?_, fun i hi => ?_, fun p hp => ?_,
    fun p hp => ?_⟩
  · rw [hsize]
    constructor
    · rintro ⟨p, hp⟩
      obtain ⟨s, hget, -, -⟩ := hh.slot_of_getR hp
      exact (List.getElem?_eq_some_iff.mp hget).1
    · intro hi
      rw [hh.getR_eq, List.getElem?_eq_getElem hi]
      exact ⟨_, rfl⟩
  · obtain ⟨s, -, rfl, hmem⟩ := hh.slot_of_getR hp
    exact ⟨_, s.value, (hh.entry_read hmem).1, (hh.value_read hmem).1⟩
  · obtain ⟨s, hi, rfl, hmem⟩ := hh.slot_of_getR hp
    obtain ⟨s', hj, rfl, hmem'⟩ := hh.slot_of_getR hq
    rw [(hh.entry_read hmem).1, Option.some.injEq] at he
    rw [(hh.entry_read hmem').1, Option.some.injEq] at he'
    have haddr : s.addr = s'.addr := by rw [← he, ← he'] at heq; exact heq
    have hnodup : (slots.map VecSlot.addr).Nodup := by
      have hv := hh.values.nodup
      rw [List.map_cons, List.nodup_cons, List.map_map] at hv
      exact hv.2
    have hi' : i < (slots.map VecSlot.addr).length := by
      rw [List.length_map]
      exact (List.getElem?_eq_some_iff.mp hi).1
    apply (List.getElem?_inj hi' hnodup).mp
    rw [List.getElem?_map, List.getElem?_map, hi, hj, Option.map_some, Option.map_some, haddr]
  · rw [h.count, h.size]
    exact f.count_le
  · rw [length_elements, h.count]
  · rw [h.count] at hi
    have hlt := hi.trans_le f.count_le
    rw [read_spec h, Filled.elements, List.getElem?_take_of_lt hi, List.getD_eq_getElem?_getD,
      List.getElem?_eq_getElem hlt, Option.getD_some]
  · obtain ⟨e, he⟩ := Option.isSome_iff_exists.mp hp
    obtain ⟨s, hmem, hcell⟩ := List.mem_map.mp ((hh.entries.read p e).mp he)
    obtain ⟨i, hi, hget⟩ := List.getElem_of_mem hmem
    refine ⟨i, ?_⟩
    rw [hh.getR_eq, List.getElem?_eq_getElem hi, hget]
    exact congrArg (fun c => some (some c)) (congrArg Prod.fst hcell)
  · obtain ⟨value, hv⟩ := Option.isSome_iff_exists.mp hp
    rcases List.mem_cons.mp ((hh.values.read p value).mp hv) with heq | hmem
    · exact Or.inl (congrArg Prod.fst heq)
    · obtain ⟨s, hmem, hheld⟩ := List.mem_map.mp hmem
      exact Or.inr ⟨s.entry, _, (hh.entry_read hmem).1, congrArg Prod.fst hheld⟩

lemma Stands.keeps (h : v.Stands f) : v.Keeps := by
  have hsize := h.size
  have hcount := h.count
  have hle := f.count_le
  refine ⟨fun n => (resize_spec h n).mono fun v' h' => ⟨?_, fun i hi => ?_⟩, fun value => ?_, ?_⟩
  · rw [h'.size, hsize]
    change (f.slots ++ List.replicate _ _).length = _
    rw [List.length_append, List.length_replicate]
    omega
  · rw [read_spec h', read_spec h, List.getD_eq_getElem?_getD, List.getD_eq_getElem?_getD]
    change some (((f.slots ++ List.replicate _ _)[i]?).getD f.default) = _
    rw [List.getElem?_append_left (hsize ▸ hi)]
  · refine (pushBack_spec h value).mono ?_
    rintro ⟨n, v'⟩ ⟨-, h'⟩
    refine ⟨?_, fun i hi hne => ?_⟩
    · rw [h'.size, hsize, hcount]
      change (f.slots.take f.count ++ value :: f.slots.drop (f.count + 1)).length = _
      rw [List.length_append, List.length_take_of_le hle, List.length_cons, List.length_drop]
      omega
    · rw [read_spec h', read_spec h, List.getD_eq_getElem?_getD, List.getD_eq_getElem?_getD]
      change some (((f.slots.take f.count ++ value :: f.slots.drop (f.count + 1))[i]?).getD f.default) = _
      rw [hcount] at hne
      rcases Nat.lt_or_gt_of_ne hne with hlt | hgt
      · rw [List.getElem?_append_left (by rwa [List.length_take_of_le hle]), List.getElem?_take_of_lt hlt]
      · have hrest : i - f.count = i - f.count - 1 + 1 := by omega
        have hdrop : f.count + 1 + (i - f.count - 1) = i := by omega
        rw [List.getElem?_append_right (by rw [List.length_take_of_le hle]; omega), List.length_take_of_le hle, hrest,
          List.getElem?_cons_succ, List.getElem?_drop, hdrop]
  · refine (remove_spec h).mono fun v' h' => ?_
    have hs := h'.sound
    have hnone : ∀ p, v'.entries.read p = none := by
      intro p
      by_contra hsome
      obtain ⟨i, hi⟩ := hs.entries_owned p (Option.isSome_iff_ne_none.mpr hsome)
      have hlt := (hs.keys i).mp ⟨p, hi⟩
      rw [h'.size] at hlt
      exact Nat.not_lt_zero i hlt
    refine ⟨hnone, fun p hp => (hs.values_owned p hp).resolve_right ?_⟩
    rintro ⟨q, e, he, -⟩
    rw [hnone q] at he
    cases he

theorem vector_refines (default : V) (ops : List (Op V)) :
    Returns (runCalls exec (new default) ops) fun (rs, v) =>
      rs = (runSteps Filled.step (.new default) ops).1 ∧ v.Sound (ops.foldl seqStep []) ∧ v.Keeps := by
  refine (runCalls_refines Stands (fun v f o h => exec_stands h o) (stands_new default) ops).mono ?_
  rintro ⟨rs, v⟩ ⟨hrs, h⟩
  have helements := elements_run (.new default) ops
  exact ⟨hrs, helements ▸ h.sound, h.keeps⟩

end CVector

end Xframe.Comserv
