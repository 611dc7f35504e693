import Xframe.Comserv.ExpireLookup
import Xframe.Lib.Refine
import Xframe.Msg.UniNetMsg

/-! `CSIPPsaDialog` of `sipdialogmng.C`: dialogs under their forward id, and a second table from the
backward id to the forward id. -/

namespace Xframe.Facility

open Xframe.Comserv Xframe.Msg Xframe.Lib

structure CSIPPsaDialogInfo where
  mDialogIDF : CStr
  mDialogIDB : CStr
  mAddr : TMsgAddress
  deriving DecidableEq

structure CSIPPsaDialog where
  mDialogMapF : ExpireMap CStr CSIPPsaDialogInfo
  mDialogMapB : ExpireMap CStr CStr

namespace CSIPPsaDialog

/-- The constructor hands `destroy_old` to `setLivingTime` and `living_time` to `setDestroyPolicy`. -/
def new (maxCount : ℕ) (destroyOld : Bool) (livingTime : ℕ) : CSIPPsaDialog :=
  ⟨.new maxCount (livingTime ≠ 0) destroyOld.toNat, .new maxCount (livingTime ≠ 0) destroyOld.toNat⟩

def queryDialogTab (d : CSIPPsaDialog) (dialogid : CStr) : Option CSIPPsaDialogInfo :=
  match d.mDialogMapB.lookup dialogid with
  | some did => d.mDialogMapF.lookup did
  | none => d.mDialogMapF.lookup dialogid

/-- `nowF` and `nowB` are what the two tables read from the clock, here and below. -/
def insertDialogTab (d : CSIPPsaDialog) (dialogidF dialogidB : CStr) (addr : TMsgAddress) (nowF nowB : ℤ) :
    Bool × CSIPPsaDialog :=
  let info : CSIPPsaDialogInfo := ⟨dialogidF, dialogidB, addr⟩
  let (error1, mapF) := d.mDialogMapF.push dialogidF info nowF
  let (error2, mapB) := d.mDialogMapB.push dialogidB dialogidF nowB
  (error1 ≠ 0 && error2 ≠ 0, ⟨mapF, mapB⟩)

def removeDialogTab (d : CSIPPsaDialog) (dialogid : CStr) : CSIPPsaDialog :=
  match d.mDialogMapF.lookup dialogid with
  | some dialoginfo => ⟨d.mDialogMapF.erase dialogid, d.mDialogMapB.erase dialoginfo.mDialogIDB⟩
  | none =>
    match d.mDialogMapB.lookup dialogid with
    | some did => ⟨d.mDialogMapF.erase did, d.mDialogMapB.erase dialogid⟩
    | none => d

def setDialogtAddr (tAddr : TMsgAddress) (info : CSIPPsaDialogInfo) : CSIPPsaDialogInfo :=
  { info with mAddr := tAddr }

/-- An id that the forward table does not have leaves the address in the buffer's `tmpValue`. -/
def updateDialogAddr (d : CSIPPsaDialog) (dialogid : CStr) (tAddr : TMsgAddress) : Bool × CSIPPsaDialog :=
  match d.mDialogMapF.lookup dialogid with
  | some _ => (true, { d with mDialogMapF := d.mDialogMapF.modify dialogid (setDialogtAddr tAddr) })
  | none =>
    match d.mDialogMapB.lookup dialogid with
    | some did => (true, { d with mDialogMapF := d.mDialogMapF.modify did (setDialogtAddr tAddr) })
    | none => (false, d)

def refreshed (d : CSIPPsaDialog) (f b : CStr) (currenttime nowF nowB : ℤ) : CSIPPsaDialog :=
  ⟨(d.mDialogMapF.step (.update f currenttime nowF)).2, (d.mDialogMapB.step (.update b currenttime nowB)).2⟩

def updateDialogExpire (d : CSIPPsaDialog) (dialogid : CStr) (currenttime nowF nowB : ℤ) : Bool × CSIPPsaDialog :=
  match d.mDialogMapF.lookup dialogid with
  | some dialoginfo => (true, d.refreshed dialogid dialoginfo.mDialogIDB currenttime nowF nowB)
  | none =>
    match d.mDialogMapB.lookup dialogid with
    | some did => (true, d.refreshed did dialogid currenttime nowF nowB)
    | none => (false, d)

def cleanExpireDialog (d : CSIPPsaDialog) (currenttime nowF nowB : ℤ) : ℕ × CSIPPsaDialog :=
  let (_, mapB) := d.mDialogMapB.step (.popOld currenttime nowB)
  let (r, mapF) := d.mDialogMapF.step (.popOld currenttime nowF)
  (r.code, ⟨mapF, mapB⟩)

inductive Call where
  | insertDialogTab (dialogidF dialogidB : CStr) (addr : TMsgAddress) (nowF nowB : ℤ)
  | removeDialogTab (dialogid : CStr)
  | updateDialogAddr (dialogid : CStr) (tAddr : TMsgAddress)
  | updateDialogExpire (dialogid : CStr) (currenttime nowF nowB : ℤ)
  | cleanExpireDialog (currenttime nowF nowB : ℤ)

def call (d : CSIPPsaDialog) : Call → Bool × CSIPPsaDialog
  | .insertDialogTab idF idB addr nowF nowB => d.insertDialogTab idF idB addr nowF nowB
  | .removeDialogTab id => (true, d.removeDialogTab id)
  | .updateDialogAddr id tAddr => d.updateDialogAddr id tAddr
  | .updateDialogExpire id currenttime nowF nowB => d.updateDialogExpire id currenttime nowF nowB
  | .cleanExpireDialog currenttime nowF nowB => (true, (d.cleanExpireDialog currenttime nowF nowB).2)

def Dialog (d : CSIPPsaDialog) (f b : CStr) : Prop :=
  ∃ info, d.mDialogMapF.lookup f = some info ∧ info.mDialogIDB = b

def Inverse (d : CSIPPsaDialog) : Prop := ∀ f b, d.mDialogMapB.lookup b = some f ↔ d.Dialog f b

def SameLimits (d : CSIPPsaDialog) : Prop :=
  d.mDialogMapF.countMax = d.mDialogMapB.countMax ∧ d.mDialogMapF.destroyOld = d.mDialogMapB.destroyOld ∧
    d.mDialogMapF.livingTime = d.mDialogMapB.livingTime

def Kept (d : CSIPPsaDialog) (c : Call) : Prop :=
  (d.call c).2.Inverse ∧
    ∀ f b addr nowF nowB, c = .insertDialogTab f b addr nowF nowB → (d.call c).1 = false → (d.call c).2 = d

def oldtime (currenttime now : ℤ) : ℤ := if currenttime = 0 then now else currenttime

def SameOldest (d : CSIPPsaDialog) : Prop :=
  ∀ v w, d.mDialogMapF.entries.head? = some v → d.mDialogMapB.entries.head? = some w → w.value = v.key

/-- An insertion finds both ids known or both unknown, or finds the tables full with nothing to be
destroyed; when it destroys the oldest entries, they are of one dialog. A clean-up finds a dialog
expired in both tables or in neither. -/
def Call.Safe (d : CSIPPsaDialog) : Call → Prop
  | .insertDialogTab f b _ _ _ =>
    (d.mDialogMapF.Full ∧ d.mDialogMapF.destroyOld = false) ∨
      (((d.mDialogMapF.lookup f).isSome ↔ (d.mDialogMapB.lookup b).isSome) ∧
        (d.mDialogMapF.lookup f = none → d.mDialogMapF.Full → d.SameOldest))
  | .cleanExpireDialog currenttime nowF nowB => ∀ f b, d.Dialog f b →
      (f ∈ d.mDialogMapF.due (oldtime currenttime nowF) ↔ b ∈ d.mDialogMapB.due (oldtime currenttime nowB))
  | _ => True

variable {d : CSIPPsaDialog} {f b : CStr}

lemma Inverse.known (h : d.Inverse) {info : CSIPPsaDialogInfo} (hf : d.mDialogMapF.lookup f = some info) :
    d.mDialogMapB.lookup info.mDialogIDB = some f :=
  (h f info.mDialogIDB).mpr ⟨info, hf, rfl⟩

lemma Inverse.backward_unique (h : d.Inverse) {b' : CStr} (hb : d.mDialogMapB.lookup b = some f)
    (hb' : d.mDialogMapB.lookup b' = some f) : b = b' := by
  obtain ⟨info, hf, rfl⟩ := (h f b).mp hb
  obtain ⟨info', hf', rfl⟩ := (h f b').mp hb'
  rw [Option.some.inj (hf.symm.trans hf')]

lemma Inverse.dropped_iff (h : d.Inverse) {d' : CSIPPsaDialog} {f₁ f₂ b₂ : CStr}
    (hf₁ : (d.mDialogMapF.lookup f₁).isSome) (hb₂ : d.mDialogMapB.lookup b₂ = some f₂)
    (hF : ∀ f, d'.mDialogMapF.lookup f = if f = f₁ then none else d.mDialogMapF.lookup f)
    (hB : ∀ b, d'.mDialogMapB.lookup b = if b = b₂ then none else d.mDialogMapB.lookup b) :
    d'.Inverse ↔ f₂ = f₁ := by
  constructor
  · intro h'
    obtain ⟨info, hf⟩ := Option.isSome_iff_exists.mp hf₁
    by_contra hne
    have hb := h.known hf
    have hnot : info.mDialogIDB ≠ b₂ := by
      rintro heq
      rw [heq, hb₂] at hb
      exact hne (Option.some.inj hb)
    have hb' : d'.mDialogMapB.lookup info.mDialogIDB = some f₁ := by rw [hB, if_neg hnot, hb]
    obtain ⟨info', hf', -⟩ := (h' _ _).mp hb'
    rw [hF, if_pos rfl] at hf'
    simp at hf'
  · rintro rfl f b
    rw [Dialog, hF, hB]
    by_cases hb : b = b₂
    · subst hb
      rw [if_pos rfl]
      refine iff_of_false (by simp) ?_
      rintro ⟨info, hf, hi⟩
      by_cases hff : f = f₂
      · rw [if_pos hff] at hf
        simp at hf
      · rw [if_neg hff] at hf
        have := hi ▸ h.known hf
        exact hff (Option.some.inj (this.symm.trans hb₂))
    · rw [if_neg hb]
      by_cases hff : f = f₂
      · subst hff
        rw [if_pos rfl]
        exact iff_of_false (fun hbf => hb (h.backward_unique hbf hb₂)) (by simp)
      · rw [if_neg hff]
        exact h f b

lemma Inverse.remove (h : d.Inverse) (id : CStr) : (d.removeDialogTab id).Inverse := by
  -- one dialog goes from both tables
  have hboth : ∀ f₀ b₀, d.mDialogMapB.lookup b₀ = some f₀ →
      Inverse ⟨d.mDialogMapF.erase f₀, d.mDialogMapB.erase b₀⟩ := by
    intro f₀ b₀ h₀
    obtain ⟨info, hf, -⟩ := (h f₀ b₀).mp h₀
    exact (h.dropped_iff (by rw [hf]; rfl) h₀ (fun f => ExpireMap.lookup_erase _ f₀ f)
      (fun b => ExpireMap.lookup_erase _ b₀ b)).mpr rfl
  rw [removeDialogTab]
  split
  · next info hf => exact hboth id info.mDialogIDB (h.known hf)
  · split
    · next did hd => exact hboth did id hd
    · exact h

lemma Inverse.modify (h : d.Inverse) (f₀ : CStr) (tAddr : TMsgAddress) :
    Inverse { d with mDialogMapF := d.mDialogMapF.modify f₀ (setDialogtAddr tAddr) } := by
  intro f b
  rw [Dialog]
  dsimp only
  rw [h f b, Dialog, ExpireMap.lookup_modify]
  by_cases hff : f = f₀
  · rw [if_pos hff]
    constructor
    · rintro ⟨info, hf, hi⟩
      exact ⟨setDialogtAddr tAddr info, by rw [hf]; rfl, hi⟩
    · rintro ⟨info', hf', hi⟩
      obtain ⟨info, hf, rfl⟩ := Option.map_eq_some_iff.mp hf'
      exact ⟨info, hf, hi⟩
  · rw [if_neg hff]

lemma Inverse.refreshed (h : d.Inverse) (f₀ b₀ : CStr) (currenttime nowF nowB : ℤ) :
    (d.refreshed f₀ b₀ currenttime nowF nowB).Inverse := by
  intro f b
  rw [CSIPPsaDialog.refreshed, Dialog]
  dsimp only
  rw [ExpireMap.lookup_update, ExpireMap.lookup_update]
  exact h f b

lemma Inverse.clean_iff (h : d.Inverse) (currenttime nowF nowB : ℤ) :
    (d.cleanExpireDialog currenttime nowF nowB).2.Inverse ↔
      (Call.cleanExpireDialog currenttime nowF nowB).Safe d := by
  have hB : ∀ b, (d.cleanExpireDialog currenttime nowF nowB).2.mDialogMapB.lookup b =
      if b ∈ d.mDialogMapB.due (oldtime currenttime nowB) then none else d.mDialogMapB.lookup b :=
    fun b => (ExpireMap.lookup_popOld d.mDialogMapB (oldtime currenttime nowB) b).trans (by congr)
  have hF : ∀ f, (d.cleanExpireDialog currenttime nowF nowB).2.mDialogMapF.lookup f =
      if f ∈ d.mDialogMapF.due (oldtime currenttime nowF) then none else d.mDialogMapF.lookup f :=
    fun f => (ExpireMap.lookup_popOld d.mDialogMapF (oldtime currenttime nowF) f).trans (by congr)
  constructor
  · rintro hinv f b ⟨info, hf, rfl⟩
    have hb := h.known hf
    have hiff := hinv f info.mDialogIDB
    rw [Dialog, hB, hF, hb, hf] at hiff
    by_cases hdf : f ∈ d.mDialogMapF.due (oldtime currenttime nowF)
    · by_cases hdb : info.mDialogIDB ∈ d.mDialogMapB.due (oldtime currenttime nowB)
      · exact iff_of_true hdf hdb
      · simp [hdf, hdb] at hiff
    · by_cases hdb : info.mDialogIDB ∈ d.mDialogMapB.due (oldtime currenttime nowB)
      · simp [hdf, hdb] at hiff
      · exact iff_of_false hdf hdb
  · intro hsafe f b
    rw [Dialog, hB, hF]
    constructor
    · intro hb
      split at hb
      · simp at hb
      · next hdb =>
        have hd := (h f b).mp hb
        rw [if_neg fun hdf => hdb ((hsafe f b hd).mp hdf)]
        exact hd
    · rintro ⟨info, hf, hi⟩
      split at hf
      · simp at hf
      · next hdf =>
        have hd : d.Dialog f b := ⟨info, hf, hi⟩
        rw [if_neg fun hdb => hdf ((hsafe f b hd).mpr hdb)]
        exact (h f b).mpr hd

lemma lookup_of_mem {V : Type} {m : ExpireMap CStr V} {v : ExpireValue CStr V} (hv : v ∈ m.entries) :
    m.lookup v.key = some v.value :=
  ExpireMap.lookup_eq_some.mpr ⟨v, hv, rfl, rfl⟩

lemma key_mem {V : Type} {m : ExpireMap CStr V} {k : CStr} {x : V} (h : m.lookup k = some x) :
    k ∈ m.entries.map ExpireValue.key := by
  obtain ⟨v, hv, hk, -⟩ := ExpireMap.lookup_eq_some.mp h
  exact hk ▸ List.mem_map_of_mem hv

lemma length_le_of_keys {V W : Type} {m : ExpireMap CStr V} {n : ExpireMap CStr W} (g : ExpireValue CStr V → CStr)
    (hinj : ∀ v ∈ m.entries, ∀ w ∈ m.entries, g v = g w → v.key = w.key)
    (hmem : ∀ v ∈ m.entries, (n.lookup (g v)).isSome) : m.entries.length ≤ n.entries.length := by
  have hnodup : (m.entries.map g).Nodup := by
    refine List.Nodup.map_on (fun v hv w hw heq => ?_) (List.Nodup.of_map _ m.nodup)
    exact List.inj_on_of_nodup_map m.nodup hv hw (hinj v hv w hw heq)
  have hsub : m.entries.map g ⊆ n.entries.map ExpireValue.key := by
    intro k hk
    obtain ⟨v, hv, rfl⟩ := List.mem_map.mp hk
    obtain ⟨x, hx⟩ := Option.isSome_iff_exists.mp (hmem v hv)
    exact key_mem hx
  have hle := (List.subperm_of_subset hnodup hsub).length_le
  rwa [List.length_map, List.length_map] at hle

lemma Inverse.length_eq (h : d.Inverse) : d.mDialogMapF.entries.length = d.mDialogMapB.entries.length := by
  refine le_antisymm (length_le_of_keys (fun v => v.value.mDialogIDB) ?_ ?_)
    (length_le_of_keys (fun w => w.value) ?_ ?_)
  · intro v hv w hw heq
    have h1 := h.known (lookup_of_mem hv)
    have h2 := h.known (lookup_of_mem hw)
    rw [heq] at h1
    exact Option.some.inj (h1.symm.trans h2)
  · intro v hv
    rw [h.known (lookup_of_mem hv)]
    rfl
  · intro v hv w hw heq
    exact h.backward_unique (lookup_of_mem hv) (by rw [heq]; exact lookup_of_mem hw)
  · intro v hv
    obtain ⟨info, hf, -⟩ := (h v.value v.key).mp (lookup_of_mem hv)
    rw [hf]
    rfl

lemma Inverse.full_iff (h : d.Inverse) (hl : d.SameLimits) : d.mDialogMapF.Full ↔ d.mDialogMapB.Full := by
  rw [ExpireMap.Full, ExpireMap.Full, h.length_eq, hl.1]

lemma Inverse.added (h : d.Inverse) {d' : CSIPPsaDialog} {f₀ b₀ : CStr} {addr : TMsgAddress}
    (hf₀ : d.mDialogMapF.lookup f₀ = none) (hb₀ : d.mDialogMapB.lookup b₀ = none)
    (hF : ∀ f, d'.mDialogMapF.lookup f = if f = f₀ then some ⟨f₀, b₀, addr⟩ else d.mDialogMapF.lookup f)
    (hB : ∀ b, d'.mDialogMapB.lookup b = if b = b₀ then some f₀ else d.mDialogMapB.lookup b) : d'.Inverse := by
  intro f b
  rw [Dialog, hF, hB]
  by_cases hb : b = b₀
  · subst hb
    rw [if_pos rfl]
    constructor
    · intro heq
      obtain rfl := Option.some.inj heq
      exact ⟨_, if_pos rfl, rfl⟩
    · rintro ⟨info, hf, hi⟩
      by_cases hff : f = f₀
      · rw [hff]
      · rw [if_neg hff] at hf
        have := hi ▸ h.known hf
        rw [hb₀] at this
        simp at this
  · rw [if_neg hb]
    by_cases hff : f = f₀
    · subst hff
      refine iff_of_false (fun hbf => ?_) ?_
      · obtain ⟨info, hf, -⟩ := (h f b).mp hbf
        rw [hf₀] at hf
        simp at hf
      · rintro ⟨info, hf, rfl⟩
        rw [if_pos rfl] at hf
        exact hb (by rw [← Option.some.inj hf])
    · rw [if_neg hff]
      exact h f b

lemma snoc_head {V : Type} {m : ExpireMap CStr V} {v old : ExpireValue CStr V} {vs : List (ExpireValue CStr V)}
    (hn : m.lookup v.key = none) (he : m.entries = old :: vs) : (m.snoc v).entries = old :: (vs ++ [v]) := by
  rw [ExpireMap.snoc_entries (ExpireMap.lookup_eq_none.mp hn), he, List.cons_append]

lemma snoc_ne {V : Type} {m : ExpireMap CStr V} {v : ExpireValue CStr V} (hn : m.lookup v.key = none)
    {n : ExpireMap CStr V} (hv : n.lookup v.key = some v.value) : n ≠ m := by
  rintro rfl
  rw [hn] at hv
  simp at hv

lemma push_lookup {V : Type} {m : ExpireMap CStr V} {k : CStr} (hn : m.lookup k = none)
    (hf : ¬(m.Full ∧ m.destroyOld = false)) (y : V) (now : ℤ) :
    (m.push k y now).1 ≠ 0 ∧ (m.push k y now).2.lookup k = some y := by
  by_cases hfull : m.Full
  · have hd : m.destroyOld = true := by simpa using fun hd => hf ⟨hfull, hd⟩
    obtain ⟨old, vs, he⟩ := List.exists_cons_of_ne_nil hfull.ne_nil
    have hne : k ≠ old.key := by
      rintro rfl
      have := lookup_of_mem (m := m) (v := old) (by rw [he]; exact List.mem_cons_self)
      rw [hn] at this
      simp at this
    rw [ExpireMap.push_evicted hn hfull hd]
    refine ⟨by simp, ?_⟩
    dsimp only
    rw [ExpireMap.lookup_tail (snoc_head (v := .new k y now) hn he), if_neg hne,
      ExpireMap.lookup_snoc (v := .new k y now) hn]
    exact if_pos rfl
  · rw [ExpireMap.push_added hn hfull]
    refine ⟨by simp, ?_⟩
    dsimp only
    rw [ExpireMap.lookup_snoc (v := .new k y now) hn]
    exact if_pos rfl

lemma Inverse.insert_iff (h : d.Inverse) (hl : d.SameLimits) (f b : CStr) (addr : TMsgAddress) (nowF nowB : ℤ) :
    ((d.insertDialogTab f b addr nowF nowB).2.Inverse ∧
      ((d.insertDialogTab f b addr nowF nowB).1 = false → (d.insertDialogTab f b addr nowF nowB).2 = d)) ↔
      (Call.insertDialogTab f b addr nowF nowB).Safe d := by
  have hfull := h.full_iff hl
  rw [insertDialogTab, Call.Safe]
  dsimp only
  by_cases hrefuse : d.mDialogMapF.Full ∧ d.mDialogMapF.destroyOld = false
  · have hrefuse' : d.mDialogMapB.Full ∧ d.mDialogMapB.destroyOld = false :=
      ⟨hfull.mp hrefuse.1, hl.2.1 ▸ hrefuse.2⟩
    rw [ExpireMap.push_full hrefuse.1 hrefuse.2, ExpireMap.push_full hrefuse'.1 hrefuse'.2]
    exact iff_of_true ⟨h, fun _ => rfl⟩ (Or.inl hrefuse)
  have hrefuse' : ¬(d.mDialogMapB.Full ∧ d.mDialogMapB.destroyOld = false) := by
    rwa [← hfull, ← hl.2.1]
  rw [or_iff_right hrefuse]
  cases hf : d.mDialogMapF.lookup f with
  | some info =>
    rw [ExpireMap.push_known (by rw [hf]; rfl)]
    cases hb : d.mDialogMapB.lookup b with
    | some f₁ =>
      rw [ExpireMap.push_known (by rw [hb]; rfl)]
      exact iff_of_true ⟨h, fun _ => rfl⟩ ⟨by simp, by simp⟩
    | none =>
      obtain ⟨-, hnew⟩ := push_lookup hb hrefuse' f nowB
      refine iff_of_false ?_ (by simp)
      rintro ⟨-, hsame⟩
      exact snoc_ne (v := .new b f nowB) hb hnew (congrArg mDialogMapB (hsame (by simp)))
  | none =>
    obtain ⟨herrF, hnewF⟩ := push_lookup hf hrefuse (⟨f, b, addr⟩ : CSIPPsaDialogInfo) nowF
    cases hb : d.mDialogMapB.lookup b with
    | some f₁ =>
      rw [ExpireMap.push_known (m := d.mDialogMapB) (by rw [hb]; rfl)]
      refine iff_of_false ?_ (by simp)
      rintro ⟨-, hsame⟩
      exact snoc_ne (v := .new f ⟨f, b, addr⟩ nowF) hf hnewF (congrArg mDialogMapF (hsame (by simp)))
    | none =>
      obtain ⟨herrB, -⟩ := push_lookup hb hrefuse' f nowB
      rw [and_iff_left (by simp [herrF, herrB]), and_iff_right (by simp)]
      have hadded : Inverse ⟨d.mDialogMapF.snoc (.new f ⟨f, b, addr⟩ nowF), d.mDialogMapB.snoc (.new b f nowB)⟩ :=
        h.added hf hb (ExpireMap.lookup_snoc (v := .new f ⟨f, b, addr⟩ nowF) hf)
          (ExpireMap.lookup_snoc (v := .new b f nowB) hb)
      by_cases hlimit : d.mDialogMapF.Full
      · have hlimit' := hfull.mp hlimit
        have hd : d.mDialogMapF.destroyOld = true := by simpa using fun hd => hrefuse ⟨hlimit, hd⟩
        obtain ⟨v, vs, hv⟩ := List.exists_cons_of_ne_nil hlimit.ne_nil
        obtain ⟨w, ws, hw⟩ := List.exists_cons_of_ne_nil hlimit'.ne_nil
        rw [ExpireMap.push_evicted hf hlimit hd, ExpireMap.push_evicted hb hlimit' (hl.2.1 ▸ hd)]
        have hsnocF := snoc_head (v := .new f (⟨f, b, addr⟩ : CSIPPsaDialogInfo) nowF) hf hv
        have hsnocB := snoc_head (v := .new b f nowB) hb hw
        have hmemF := lookup_of_mem (m := d.mDialogMapF.snoc (.new f ⟨f, b, addr⟩ nowF)) (v := v)
          (by rw [hsnocF]; exact List.mem_cons_self)
        have hmemB := lookup_of_mem (m := d.mDialogMapB.snoc (.new b f nowB)) (v := w)
          (by rw [hsnocB]; exact List.mem_cons_self)
        refine (hadded.dropped_iff (by dsimp only; rw [hmemF]; rfl) hmemB (ExpireMap.lookup_tail hsnocF)
          (ExpireMap.lookup_tail hsnocB)).trans ?_
        rw [SameOldest, hv, hw]
        simp [hlimit]
      · have hlimit' : ¬d.mDialogMapB.Full := hfull.not.mp hlimit
        rw [ExpireMap.push_added hf hlimit, ExpireMap.push_added hb hlimit']
        exact iff_of_true hadded fun _ hfl => absurd hfl hlimit

lemma Inverse.kept_iff (h : d.Inverse) (hl : d.SameLimits) (c : Call) : d.Kept c ↔ c.Safe d := by
  cases c with
  | insertDialogTab f b addr nowF nowB =>
    rw [← h.insert_iff hl f b addr nowF nowB, Kept]
    refine and_congr_right fun _ => ⟨fun hall => hall f b addr nowF nowB rfl, ?_⟩
    rintro hsame f' b' addr' nowF' nowB' -
    exact hsame
  | removeDialogTab id => exact iff_of_true ⟨h.remove id, by simp⟩ trivial
  | updateDialogAddr id tAddr =>
    refine iff_of_true ⟨?_, by simp⟩ trivial
    rw [call, updateDialogAddr]
    split
    · exact h.modify id tAddr
    · split
      · exact h.modify _ tAddr
      · exact h
  | updateDialogExpire id currenttime nowF nowB =>
    refine iff_of_true ⟨?_, by simp⟩ trivial
    rw [call, updateDialogExpire]
    split
    · exact h.refreshed _ _ _ _ _
    · split
      · exact h.refreshed _ _ _ _ _
      · exact h
  | cleanExpireDialog currenttime nowF nowB =>
    rw [← h.clean_iff currenttime nowF nowB, Kept]
    exact and_iff_left (by simp)

lemma call_limits (d : CSIPPsaDialog) (c : Call) :
    (d.call c).2.mDialogMapF.limits = d.mDialogMapF.limits ∧
      (d.call c).2.mDialogMapB.limits = d.mDialogMapB.limits := by
  have hrefresh : ∀ f b currenttime nowF nowB,
      (d.refreshed f b currenttime nowF nowB).mDialogMapF.limits = d.mDialogMapF.limits ∧
        (d.refreshed f b currenttime nowF nowB).mDialogMapB.limits = d.mDialogMapB.limits := fun _ _ _ _ _ =>
    ⟨ExpireMap.limits_update _ _ _ _, ExpireMap.limits_update _ _ _ _⟩
  cases c with
  | insertDialogTab f b addr nowF nowB => exact ⟨ExpireMap.limits_push _ _ _ _, ExpireMap.limits_push _ _ _ _⟩
  | removeDialogTab id =>
    rw [call, removeDialogTab]
    split
    · exact ⟨rfl, rfl⟩
    · split <;> exact ⟨rfl, rfl⟩
  | updateDialogAddr id tAddr =>
    rw [call, updateDialogAddr]
    split
    · exact ⟨rfl, rfl⟩
    · split <;> exact ⟨rfl, rfl⟩
  | updateDialogExpire id currenttime nowF nowB =>
    rw [call, updateDialogExpire]
    split
    · exact hrefresh _ _ _ _ _
    · split
      · exact hrefresh _ _ _ _ _
      · exact ⟨rfl, rfl⟩
  | cleanExpireDialog currenttime nowF nowB => exact ⟨rfl, rfl⟩

lemma sameLimits_iff : d.SameLimits ↔ d.mDialogMapF.limits = d.mDialogMapB.limits := by
  rw [SameLimits, ExpireMap.limits, ExpireMap.limits, Prod.mk.injEq, Prod.mk.injEq]

lemma inverse_new (maxCount : ℕ) (destroyOld : Bool) (livingTime : ℕ) :
    (new maxCount destroyOld livingTime).Inverse := by
  intro f b
  simp [new, Dialog, ExpireMap.lookup, ExpireMap.find, ExpireMap.new]

theorem dialogs_inverse_iff (maxCount : ℕ) (destroyOld : Bool) (livingTime : ℕ) (calls : List Call) :
    Along call Kept (new maxCount destroyOld livingTime) calls ↔
      Along call (fun d c => c.Safe d) (new maxCount destroyOld livingTime) calls := by
  refine along_iff (fun d => d.Inverse ∧ d.SameLimits) (fun d c h _ => h.1.kept_iff h.2 c) ?_
    ⟨inverse_new _ _ _, rfl, rfl, rfl⟩ calls (along_of_forall (fun _ _ => trivial) _ calls)
  rintro d c ⟨-, hl⟩ - hkept
  refine ⟨hkept.1, ?_⟩
  obtain ⟨hF, hB⟩ := d.call_limits c
  rw [sameLimits_iff] at hl ⊢
  rw [hF, hB, hl]

def forwardReused : List Call :=
  [.insertDialogTab [1] [2] ⟨0, 0, 0⟩ 5 5, .insertDialogTab [1] [3] ⟨0, 0, 0⟩ 6 6]

theorem failed_insertion_kept_half :
    (runSteps call (new 0 false 172800) forwardReused).1 = [true, false] ∧
    (runSteps call (new 0 false 172800) forwardReused).2.mDialogMapB.lookup [3] = some [1] ∧
    ((runSteps call (new 0 false 172800) forwardReused).2.mDialogMapF.lookup [1]).map
      CSIPPsaDialogInfo.mDialogIDB = some [2] ∧
    ¬Along call Kept (new 0 false 172800) forwardReused := by
  refine ⟨by decide, by decide, by decide, ?_⟩
  rintro ⟨-, ⟨hinv, -⟩, -⟩
  obtain ⟨info, hf, hi⟩ := (hinv [1] [3]).mp (by decide)
  have hold : ((runSteps call (new 0 false 172800) forwardReused).2.mDialogMapF.lookup [1]).map
      CSIPPsaDialogInfo.mDialogIDB = some [2] := by decide
  have hf' : (runSteps call (new 0 false 172800) forwardReused).2.mDialogMapF.lookup [1] = some info := hf
  rw [hf', Option.map_some, hi] at hold
  exact absurd hold (by decide)

end CSIPPsaDialog

end Xframe.Facility
