import Xframe.Lib.Refine
import Xframe.Facility.MqttHandshake

/-! The client's TCP link on its own: whatever is wanted, received or timed out, what stands in `wantsToSend`
is a message, as long as the keepalive timer does not fire. -/

namespace Xframe.Facility

open Xframe.Lib

namespace MqttClientStateMachine

variable {c : MqttClientStateMachine}

def Remembers (c : MqttClientStateMachine) : Prop :=
  c.msg = none → c.link.live = [] ∧ (c.curState = .init ∨ c.curState = .ended)

lemma remembers_new : new.Remembers := fun _ => ⟨rfl, Or.inl rfl⟩

lemma Remembers.of_msg (h : c.msg ≠ none) : c.Remembers := fun hn => absurd hn h

lemma Remembers.msg_ne (h : c.Remembers) {key : ℕ} (hk : key ∈ c.link.live) : c.msg ≠ none := by
  intro hn
  rw [(h hn).1] at hk
  cases hk

lemma Remembers.sendRequest (h : c.Remembers) (m : MqttName) (wait : ClientState) :
    (c.sendRequest m wait).2.Remembers := by
  rw [MqttClientStateMachine.sendRequest]
  split_ifs
  · exact h
  · exact .of_msg (Option.some_ne_none m)

lemma Remembers.onSend (h : c.Remembers) (m : MqttName) : (c.onSend m).2.Remembers := by
  cases m with
  | subscribe | unsubscribe | pingreq => exact h.sendRequest _ _
  | connack | suback | unsuback | pingresp | other => exact h
  | connect | publish | disconnect =>
    rw [MqttClientStateMachine.onSend]
    split_ifs
    · exact h
    · exact .of_msg (Option.some_ne_none _)

lemma dropResend_msg : c.dropResend.msg = c.msg := by
  rw [dropResend]
  split_ifs <;> rfl

lemma dropKeepalive_msg : c.dropKeepalive.msg = c.msg := by
  rw [dropKeepalive]
  split_ifs <;> rfl

lemma dropResend_live (h : c.link.live = []) : c.dropResend.link.live = [] := by
  rw [dropResend]
  split_ifs
  · simp [LinkTimers.delTimer, h]
  · exact h

lemma dropKeepalive_live (h : c.link.live = []) : c.dropKeepalive.link.live = [] := by
  rw [dropKeepalive]
  split_ifs
  · simp [LinkTimers.delTimer, h]
  · exact h

lemma Remembers.recvAck (h : c.Remembers) {wait : ClientState} (hi : wait ≠ .init) (he : wait ≠ .ended) :
    (c.recvAck wait).2.Remembers := by
  rw [MqttClientStateMachine.recvAck]
  split_ifs with hc
  · exact h
  · rw [not_not] at hc
    apply of_msg
    intro hn
    rw [setKeepalive, dropResend_msg] at hn
    rcases (h hn).2 with hs | hs
    · exact hi (hc.symm.trans hs)
    · exact he (hc.symm.trans hs)

lemma Remembers.onRecv (h : c.Remembers) (m : MqttName) : (c.onRecv m).2.Remembers := by
  cases m with
  | connack | suback | unsuback | pingresp => exact h.recvAck (by simp) (by simp)
  | publish | connect | subscribe | unsubscribe | pingreq | other => exact h
  | disconnect =>
    intro hn
    simp only [MqttClientStateMachine.onRecv, dropKeepalive_msg, dropResend_msg] at hn
    refine ⟨dropKeepalive_live (dropResend_live (h hn).1), Or.inr ?_⟩
    simp only [MqttClientStateMachine.onRecv, dropKeepalive_curState, dropResend_curState]

lemma onTimeOut_msg (key : ℕ) : (c.onTimeOut key).2.2.msg = c.msg := by
  rw [onTimeOut]
  split_ifs <;> rfl

end MqttClientStateMachine

namespace ClientTcpLink

open Handshake (expire)

/-- What reaches the link. The application wants real messages, and only a timer that is set fires. -/
inductive Event where
  | want (msg : MqttName)
  | send
  | recv (msg : MqttName)
  | timeOut (timerKey : ℕ)

def exec (l : ClientTcpLink) : Event → Option (List MqttName × ClientTcpLink)
  | .want msg => some ([], l.wantToSend (some msg))
  | .send => l.processSend
  | .recv msg => some ([], l.protocolLogic msg)
  | .timeOut timerKey =>
    some ([], if timerKey ∈ l.stateMachine.link.live then (expire l timerKey).onTimeOut timerKey else l)

def NoNull (l : ClientTcpLink) : Prop := ∀ m ∈ l.wantsToSend, m ≠ none

def Carries (l : ClientTcpLink) : Event → Prop
  | .timeOut timerKey => timerKey ∈ l.stateMachine.link.live →
    let (code, resend, _) := (expire l timerKey).stateMachine.onTimeOut timerKey
    code = .timeoutForward → resend ≠ none
  | _ => True

def KeepaliveFires (l : ClientTcpLink) : Event → Prop
  | .timeOut timerKey => timerKey ∈ l.stateMachine.link.live ∧ timerKey = l.stateMachine.keepaliveTimer ∧
    timerKey ≠ l.stateMachine.resendTimer
  | _ => False

def Inv (l : ClientTcpLink) : Prop := l.stateMachine.Remembers ∧ l.NoNull

variable {l : ClientTcpLink}

lemma NoNull.wantToSend (h : l.NoNull) {m : Option MqttName} (hm : m ≠ none) : (l.wantToSend m).NoNull := by
  intro x hx
  rcases List.mem_append.mp hx with hx | hx
  · exact h x hx
  · rw [List.mem_singleton.mp hx]
    exact hm

lemma processSend_inv (h : l.Inv) : Returns l.processSend fun (_, l') => l'.Inv := by
  obtain ⟨s, queue⟩ := l
  obtain ⟨hr, hn⟩ := h
  cases queue with
  | nil => exact (returns_some _ _).mpr ⟨hr, hn⟩
  | cons m queue =>
    cases m with
    | none => exact absurd rfl (hn none List.mem_cons_self)
    | some m => exact (returns_some _ _).mpr ⟨hr.onSend m, fun x hx => hn x (List.mem_cons_of_mem _ hx)⟩

section TimeOut

variable {timerKey : ℕ}

lemma onTimeOut_resend (h : timerKey = l.stateMachine.resendTimer) :
    l.onTimeOut timerKey = wantToSend { l with stateMachine := (l.stateMachine.onTimeOut timerKey).2.2 }
      l.stateMachine.msg := by
  rw [onTimeOut, MqttClientStateMachine.onTimeOut, if_pos h]
  rfl

lemma onTimeOut_keepalive (h : timerKey = l.stateMachine.keepaliveTimer) (hne : timerKey ≠ l.stateMachine.resendTimer) :
    l.onTimeOut timerKey = wantToSend { l with stateMachine := (l.stateMachine.onTimeOut timerKey).2.2 } none := by
  rw [onTimeOut, MqttClientStateMachine.onTimeOut, if_neg hne, if_pos h]
  rfl

lemma onTimeOut_stale (h : timerKey ≠ l.stateMachine.keepaliveTimer) (hne : timerKey ≠ l.stateMachine.resendTimer) :
    l.onTimeOut timerKey = l := by
  rw [onTimeOut, MqttClientStateMachine.onTimeOut, if_neg hne, if_neg h]
  rfl

lemma timeOut_inv (h : l.Inv) (hmem : timerKey ∈ l.stateMachine.link.live)
    (hno : ¬(timerKey = l.stateMachine.keepaliveTimer ∧ timerKey ≠ l.stateMachine.resendTimer)) :
    ((expire l timerKey).onTimeOut timerKey).Inv := by
  have hmsg : (expire l timerKey).stateMachine.msg ≠ none := h.1.msg_ne hmem
  by_cases hr : timerKey = l.stateMachine.resendTimer
  · have hr' : timerKey = (expire l timerKey).stateMachine.resendTimer := hr
    rw [onTimeOut_resend hr']
    refine ⟨.of_msg ?_, NoNull.wantToSend h.2 hmsg⟩
    change ((expire l timerKey).stateMachine.onTimeOut timerKey).2.2.msg ≠ none
    rw [MqttClientStateMachine.onTimeOut_msg]
    exact hmsg
  · have hk : timerKey ≠ l.stateMachine.keepaliveTimer := fun hk => hno ⟨hk, hr⟩
    have hstale := onTimeOut_stale (l := expire l timerKey) hk hr
    rw [hstale]
    exact ⟨.of_msg hmsg, h.2⟩

end TimeOut

lemma exec_inv (h : l.Inv) (e : Event) :
    Returns (l.exec e) fun (_, l') => (¬l.KeepaliveFires e → l'.Inv) ∧ (l.KeepaliveFires e → ¬l'.NoNull) := by
  cases e with
  | want msg =>
    exact (returns_some _ _).mpr ⟨fun _ => ⟨h.1, h.2.wantToSend (Option.some_ne_none msg)⟩, fun hf => absurd hf id⟩
  | send => exact (processSend_inv h).mono fun _ hi => ⟨fun _ => hi, fun hf => absurd hf id⟩
  | recv msg => exact (returns_some _ _).mpr ⟨fun _ => ⟨h.1.onRecv msg, h.2⟩, fun hf => absurd hf id⟩
  | timeOut timerKey =>
    rw [exec, returns_some]
    by_cases hmem : timerKey ∈ l.stateMachine.link.live
    · rw [if_pos hmem]
      refine ⟨fun hno => timeOut_inv h hmem fun hk => hno ⟨hmem, hk⟩, fun ⟨_, hk, hne⟩ hn => ?_⟩
      have hfires := onTimeOut_keepalive (l := expire l timerKey) hk hne
      rw [hfires] at hn
      exact hn none (List.mem_append_right _ (List.mem_singleton_self _)) rfl
    · rw [if_neg hmem]
      exact ⟨fun _ => h, fun hf => absurd hf.1 hmem⟩

lemma carries_iff (h : l.Inv) (e : Event) : l.Carries e ↔ ¬l.KeepaliveFires e := by
  cases e with
  | want | send | recv => exact iff_of_true trivial id
  | timeOut timerKey =>
    rw [Carries, KeepaliveFires, not_and]
    apply forall_congr'
    intro hmem
    have hmsg : (expire l timerKey).stateMachine.msg ≠ none := h.1.msg_ne hmem
    by_cases hr : timerKey = l.stateMachine.resendTimer
    · have hr' : timerKey = (expire l timerKey).stateMachine.resendTimer := hr
      rw [MqttClientStateMachine.onTimeOut, if_pos hr']
      exact iff_of_true (fun _ => hmsg) fun hk => hk.2 hr
    · have hr' : timerKey ≠ (expire l timerKey).stateMachine.resendTimer := hr
      rw [MqttClientStateMachine.onTimeOut, if_neg hr']
      by_cases hk : timerKey = l.stateMachine.keepaliveTimer
      · have hk' : timerKey = (expire l timerKey).stateMachine.keepaliveTimer := hk
        rw [if_pos hk']
        exact iff_of_false (fun hc => hc rfl rfl) fun hn => hn ⟨hk, hr⟩
      · have hk' : timerKey ≠ (expire l timerKey).stateMachine.keepaliveTimer := hk
        rw [if_neg hk']
        exact iff_of_true (fun hc => by cases hc) fun hn => hk hn.1

theorem no_null_sent_iff (events : List Event) :
    (Always exec NoNull new events ∧ Throughout exec Carries new events) ↔
      Throughout exec (fun l e => ¬l.KeepaliveFires e) new events := by
  have hnew : new.Inv := ⟨MqttClientStateMachine.remembers_new, fun m hm => absurd hm List.not_mem_nil⟩
  have halways : Always exec NoNull new events ↔ Throughout exec (fun l e => ¬l.KeepaliveFires e) new events := by
    apply always_iff (P := NoNull) (I := Inv) (L := fun _ => True) (fun l hi => hi.2) (fun l e hi _ => exec_inv hi e) hnew
    exact fun _ _ => trivial
  have hcarries : Throughout exec Carries new events ↔ Throughout exec (fun l e => ¬l.KeepaliveFires e) new events := by
    apply throughout_iff Inv (fun l e hi => carries_iff hi e) _ hnew
    intro l e r l' hi hno he
    obtain ⟨⟨r', t⟩, he', hgood, -⟩ := exec_inv hi e
    obtain ⟨-, rfl⟩ := Prod.mk.inj (Option.some.inj (he.symm.trans he'))
    exact hgood hno
  rw [halways, hcarries, and_self]

theorem no_null_sent_fails :
    ¬∀ events, Always exec NoNull new events ∧ Throughout exec Carries new events := by
  intro h
  obtain ⟨-, hc⟩ := h [.want .connect, .send, .recv .connack, .timeOut 2]
  exact (((hc.2 _ _ rfl).2 _ _ rfl).2 _ _ rfl).1 (by decide) rfl rfl

end ClientTcpLink

end Xframe.Facility
