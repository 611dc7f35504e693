import Xframe.Lib.Run
import Xframe.Transport.TransState

/-! The resend timer of one `TTransState` over its whole life: it is the only armed timer that the state has
set, and it is gone when the state no longer resends. -/

namespace Xframe.Transport

open Xframe.Comserv Xframe.Msg Xframe.Lib

inductive TsEvent where
  | message (unimsg : Option TUniNetMsg) (key : ℕ)
  | timer (tk key : ℕ)
  | destroy

namespace TTransState

def handle (st : TTransState) : TsEvent → List TimerCall × Option TTransState
  | .message none _ => ([], some st)
  | .message (some unimsg) key => ((st.tsChange unimsg key).calls, some (st.tsChange unimsg key).state)
  | .timer tk key => ((st.tsTimeout tk key).calls, some (st.tsTimeout tk key).state)
  | .destroy => (st.stopTimer, none)

def Resending (st : TTransState) : Prop :=
  st.tssend = true ∧ st.tsstate = .forward ∨
    st.tssend = false ∧ st.tsstate = .terminated ∧ ∃ rsp, st.msg = some rsp ∧ rsp.msgName = comMessageRsp

end TTransState

/-- A state, or nothing once it is destroyed, and the timers set by it that have neither fired nor been deleted. -/
structure TimedState where
  state : Option TTransState
  armed : Finset ℕ

namespace TimedState

def start (type : Bool) (transid : CStr) : TimedState := ⟨some (.new type transid), ∅⟩

def call (armed : Finset ℕ) : TimerCall → Finset ℕ
  | .set key _ => insert key armed
  | .del key => armed.erase key

def remaining (armed : Finset ℕ) : TsEvent → Finset ℕ
  | .message _ _ => armed
  | .timer tk _ => armed.erase tk
  | .destroy => armed

inductive Step : TimedState → TsEvent → TimedState → Prop
  | handle {st : TTransState} {armed : Finset ℕ} (e : TsEvent)
      (hfresh : ∀ key id, .set key id ∈ (st.handle e).1 → key ≠ 0 ∧ key ∉ remaining armed e) :
      Step ⟨some st, armed⟩ e ⟨(st.handle e).2, (st.handle e).1.foldl call (remaining armed e)⟩

def timer (l : TimedState) : ℕ := (l.state.map TTransState.timer).getD 0

structure Kept (l : TimedState) : Prop where
  resending : ∀ st, l.state = some st → st.timer ≠ 0 → st.Resending
  armed : l.armed = if l.timer = 0 then ∅ else {l.timer}

end TimedState

namespace TTransState

variable {st : TTransState} {unimsg : TUniNetMsg} {key tk : ℕ}

inductive TimerMove (st : TTransState) (key : ℕ) (calls : List TimerCall) (st' : TTransState) : Prop
  | keep (hc : calls = []) (ht : st'.timer = st.timer) (hr : st.Resending → st'.Resending)
  | stop (hc : calls = st.stopTimer) (ht : st'.timer = 0)
  | set (hc : calls = [.set key st.transID]) (ht : st'.timer = key) (hr : ¬st.Resending) (hr' : st'.Resending)

lemma clientChange_timer (hs : st.tssend = true) :
    TimerMove st key (st.clientChange unimsg key).calls (st.clientChange unimsg key).state := by
  have hkeep : TimerMove st key [] st.stay := .keep rfl rfl id
  rw [clientChange]
  cases ht : st.tsstate with
  | init =>
    dsimp only
    split_ifs
    · exact .set rfl rfl (by simp [Resending, hs, ht]) (.inl ⟨hs, rfl⟩)
    · exact hkeep
  | forward =>
    dsimp only
    split_ifs
    · exact .stop rfl rfl
    · exact .stop rfl rfl
    · exact .stop rfl rfl
    · exact hkeep
  | temporary =>
    dsimp only
    split_ifs
    · exact .keep rfl rfl (by simp [Resending, hs, ht])
    · exact hkeep
  | terminated =>
    dsimp only
    split_ifs
    · exact hkeep
    · exact hkeep

lemma serverChange_timer (hs : st.tssend = false) :
    TimerMove st key (st.serverChange unimsg key).calls (st.serverChange unimsg key).state := by
  have hkeep : TimerMove st key [] st.stay := .keep rfl rfl id
  rw [serverChange]
  cases ht : st.tsstate with
  | init =>
    have hr : ¬st.Resending := by simp [Resending, hs, ht]
    dsimp only
    split_ifs
    · exact .keep rfl rfl fun h => absurd h hr
    · exact .keep rfl rfl fun h => absurd h hr
    · exact hkeep
  | forward =>
    have hr : ¬st.Resending := by simp [Resending, hs, ht]
    dsimp only
    split_ifs
    · exact .keep rfl rfl fun h => absurd h hr
    · exact .keep rfl rfl fun h => absurd h hr
    · exact hkeep
  | temporary =>
    dsimp only
    split_ifs with hm
    · exact .set rfl rfl (by simp [Resending, hs, ht]) (.inr ⟨hs, rfl, unimsg, rfl, hm⟩)
    · exact hkeep
    · exact hkeep
  | terminated =>
    dsimp only
    split_ifs
    · cases st.msg with
      | none => exact hkeep
      | some rsp => exact hkeep
    · cases st.msg with
      | none => exact hkeep
      | some rsp => exact hkeep
    · exact .stop rfl rfl
    · exact hkeep

lemma tsChange_timer (st : TTransState) (unimsg : TUniNetMsg) (key : ℕ) :
    TimerMove st key (st.tsChange unimsg key).calls (st.tsChange unimsg key).state := by
  rw [tsChange]
  split_ifs with hs
  · exact clientChange_timer hs
  · exact serverChange_timer (by simpa using hs)

lemma tsTimeout_other (h : st.timer ≠ 0 → tk ≠ st.timer) : st.tsTimeout tk key = ⟨.null, none, [], st⟩ := by
  rw [tsTimeout, if_neg]
  rintro ⟨hpos, ht, -⟩
  exact h (by omega) ht.symm

lemma tsTimeout_timer (h : st.timer ≠ 0 → st.Resending) (h0 : st.timer ≠ 0) :
    st.tsTimeout st.timer key = ⟨.resend, st.msg, [.set key st.transID], { st with timer := key }⟩ := by
  refine if_pos ⟨Nat.pos_of_ne_zero h0, rfl, ?_⟩
  rcases h h0 with ⟨hs, ht⟩ | ⟨hs, ht, -⟩
  · exact .inl ⟨ht, hs⟩
  · exact .inr ⟨ht, hs⟩

end TTransState

namespace TimedState

variable {l l' : TimedState} {st : TTransState} {armed : Finset ℕ} {e : TsEvent}

lemma Kept.armed_eq (h : Kept ⟨some st, armed⟩) : armed = if st.timer = 0 then ∅ else {st.timer} := h.armed

lemma Kept.of_move {key : ℕ} {calls : List TimerCall} {st' : TTransState} (h : Kept ⟨some st, armed⟩)
    (hm : TTransState.TimerMove st key calls st') (hfresh : ∀ k id, .set k id ∈ calls → k ≠ 0 ∧ k ∉ armed) :
    Kept ⟨some st', calls.foldl call armed⟩ := by
  have harmed := h.armed_eq
  cases hm with
  | keep hc ht hr =>
    subst hc
    refine ⟨fun s hs h0 => ?_, ?_⟩
    · obtain rfl : st' = s := Option.some.inj hs
      exact hr (h.resending st rfl (ht ▸ h0))
    · change armed = if st'.timer = 0 then ∅ else {st'.timer}
      rw [ht, harmed]
  | stop hc ht =>
    refine ⟨fun s hs h0 => ?_, ?_⟩
    · obtain rfl : st' = s := Option.some.inj hs
      exact absurd ht h0
    · change _ = if st'.timer = 0 then ∅ else {st'.timer}
      rw [if_pos ht, hc, harmed, TTransState.stopTimer]
      split_ifs <;> simp_all [call]
  | set hc ht hr hr' =>
    subst hc
    have hk := hfresh key st.transID (by simp)
    have h0 : st.timer = 0 := by
      by_contra h0
      exact hr (h.resending st rfl h0)
    refine ⟨fun s hs _ => ?_, ?_⟩
    · obtain rfl : st' = s := Option.some.inj hs
      exact hr'
    · change insert key armed = if st'.timer = 0 then ∅ else {st'.timer}
      rw [ht, if_neg hk.1, harmed, if_pos h0]
      rfl

lemma Kept.erase_other {tk : ℕ} (h : Kept ⟨some st, armed⟩) (htk : st.timer ≠ 0 → tk ≠ st.timer) :
    armed.erase tk = armed := by
  rw [Finset.erase_eq_self, h.armed_eq]
  split_ifs with h0
  · exact Finset.notMem_empty tk
  · rw [Finset.mem_singleton]
    exact htk h0

lemma Kept.erase_timer (h : Kept ⟨some st, armed⟩) (h0 : st.timer ≠ 0) : armed.erase st.timer = ∅ := by
  rw [h.armed_eq, if_neg h0, Finset.erase_singleton]

lemma stopTimer_armed (h : Kept ⟨some st, armed⟩) : st.stopTimer.foldl call armed = ∅ := by
  rw [h.armed_eq, TTransState.stopTimer]
  split_ifs <;> simp_all [call]

lemma Step.keeps (hs : Step l e l') (h : Kept l) : Kept l' := by
  obtain ⟨e, hfresh⟩ := hs
  rename_i st armed
  cases e with
  | message unimsg key =>
    cases unimsg with
    | none => exact h
    | some unimsg => exact h.of_move (st.tsChange_timer unimsg key) hfresh
  | timer tk key =>
    by_cases htk : st.timer ≠ 0 ∧ tk = st.timer
    · obtain ⟨h0, rfl⟩ := htk
      rw [remaining, h.erase_timer h0] at hfresh ⊢
      rw [TTransState.handle, TTransState.tsTimeout_timer (h.resending st rfl) h0] at hfresh ⊢
      have hk := hfresh key st.transID (by simp)
      refine ⟨fun s hs _ => ?_, ?_⟩
      · obtain rfl := Option.some.inj hs
        exact h.resending st rfl h0
      · change insert key ∅ = if key = 0 then ∅ else {key}
        rw [if_neg hk.1]
        rfl
    · rw [not_and] at htk
      rw [remaining, h.erase_other htk, TTransState.handle, TTransState.tsTimeout_other htk]
      exact h
  | destroy => exact ⟨fun s hs => (by cases hs), stopTimer_armed h⟩

lemma start_kept (type : Bool) (transid : CStr) : Kept (start type transid) :=
  ⟨fun st hs h0 => (by cases hs; exact absurd rfl h0), rfl⟩

lemma Step.of_other {tk key : ℕ} (hs : Step l (.timer tk key) l') (h : Kept l) (htk : tk ≠ l.timer) :
    l' = l ∧ ∀ st, l.state = some st → st.tsTimeout tk key = ⟨.null, none, [], st⟩ := by
  obtain ⟨-, hfresh⟩ := hs
  rename_i st armed
  have hother : st.tsTimeout tk key = ⟨.null, none, [], st⟩ := TTransState.tsTimeout_other fun _ => htk
  refine ⟨?_, fun s hs => ?_⟩
  · rw [remaining, h.erase_other fun _ => htk, TTransState.handle, hother]
    rfl
  · obtain rfl := Option.some.inj hs
    exact hother

lemma Step.of_exit (hs : Step l e l') (h : Kept l) (hst : l.state = some st) (hr : st.Resending)
    (hexit : ∀ st', l'.state = some st' → ¬st'.Resending) :
    l'.armed = ∅ ∧ (st.timer ≠ 0 → .del st.timer ∈ (st.handle e).1) := by
  have hdel : st.timer ≠ 0 → .del st.timer ∈ st.stopTimer := fun h0 => by simp [TTransState.stopTimer, h0]
  obtain ⟨e, hfresh⟩ := hs
  rename_i s armed
  obtain rfl := Option.some.inj hst
  cases e with
  | message unimsg key =>
    cases unimsg with
    | none => exact absurd hr (hexit s rfl)
    | some unimsg =>
      cases s.tsChange_timer unimsg key with
      | keep _ _ hkeep => exact absurd (hkeep hr) (hexit _ rfl)
      | stop hc _ =>
        refine ⟨?_, fun h0 => ?_⟩
        · change (s.tsChange unimsg key).calls.foldl call armed = ∅
          rw [hc, stopTimer_armed h]
        · change _ ∈ (s.tsChange unimsg key).calls
          rw [hc]
          exact hdel h0
      | set _ _ hnot _ => exact absurd hr hnot
  | timer tk key =>
    refine absurd ?_ (hexit _ rfl)
    rw [TTransState.tsTimeout]
    split_ifs
    · exact hr
    · exact hr
  | destroy => exact ⟨stopTimer_armed h, hdel⟩

theorem resendTimer_kept {type : Bool} {transid : CStr} {es : List TsEvent} (hrun : Run Step (start type transid) es l) :
    (∀ st, l.state = some st → st.timer ≠ 0 → st.Resending) ∧ (l.armed = if l.timer = 0 then ∅ else {l.timer}) ∧
      ∀ e l', Step l e l' →
        (∀ tk key, e = .timer tk key → tk ≠ l.timer →
          l' = l ∧ ∀ st, l.state = some st → st.tsTimeout tk key = ⟨.null, none, [], st⟩) ∧
        ∀ st, l.state = some st → st.Resending → (∀ st', l'.state = some st' → ¬st'.Resending) →
          l'.armed = ∅ ∧ (st.timer ≠ 0 → .del st.timer ∈ (st.handle e).1) := by
  have h : Kept l := hrun.invariant (I := fun _ l => Kept l) (start_kept type transid) fun _ _ _ _ h hs => hs.keeps h
  refine ⟨h.resending, h.armed, fun e l' hs => ⟨?_, fun st hst hr hexit => hs.of_exit h hst hr hexit⟩⟩
  rintro tk key rfl htk
  exact hs.of_other h htk

def request : TUniNetMsg :=
  { oAddr := ⟨0, 0, 0⟩, tAddr := ⟨0, 0, 0⟩, dialogType := 0, msgName := comMessageReq, msgType := 0,
    transID := some [1], cseq := none, ctrlMsgHdr := none, msgBody := none }

def resent : TTransState := ⟨true, some request, .forward, .init, true, 8, 0, [1], false⟩

theorem resendTimer_kept_resent :
    (∀ st, (⟨some resent, {8}⟩ : TimedState).state = some st → st.timer ≠ 0 → st.Resending) ∧
      ((⟨some resent, {8}⟩ : TimedState).armed = if (⟨some resent, {8}⟩ : TimedState).timer = 0 then ∅ else
        {(⟨some resent, {8}⟩ : TimedState).timer}) ∧
      ∀ e l', Step ⟨some resent, {8}⟩ e l' →
        (∀ tk key, e = .timer tk key → tk ≠ (⟨some resent, {8}⟩ : TimedState).timer →
          l' = ⟨some resent, {8}⟩ ∧ ∀ st, (⟨some resent, {8}⟩ : TimedState).state = some st →
            st.tsTimeout tk key = ⟨.null, none, [], st⟩) ∧
        ∀ st, (⟨some resent, {8}⟩ : TimedState).state = some st → st.Resending →
          (∀ st', l'.state = some st' → ¬st'.Resending) →
            l'.armed = ∅ ∧ (st.timer ≠ 0 → .del st.timer ∈ (st.handle e).1) := by
  have hsent : Step (start true [1]) (.message (some request) 7) ⟨some { resent with timer := 7 }, {7}⟩ :=
    .handle _ fun key id hk => by
      replace hk : TimerCall.set key id ∈ [.set 7 [1]] := hk
      obtain ⟨rfl, -⟩ : key = 7 ∧ id = [1] := by simpa using hk
      decide
  have hfired : Step ⟨some { resent with timer := 7 }, {7}⟩ (.timer 7 8) ⟨some resent, {8}⟩ :=
    .handle _ fun key id hk => by
      replace hk : TimerCall.set key id ∈ [.set 8 [1]] := hk
      obtain ⟨rfl, -⟩ : key = 8 ∧ id = [1] := by simpa using hk
      decide
  exact resendTimer_kept ((Run.nil.snoc hsent).snoc hfired)

end TimedState

end Xframe.Transport
