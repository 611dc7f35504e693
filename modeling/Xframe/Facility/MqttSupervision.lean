import Xframe.Facility.MqttIds

/-! Keep-alive supervision of `CMqttClientLink` (`secAction` of `mqttlink.C`): seconds without a packet are
counted up to the close of the link, and another counter runs down to the next PINGREQ. -/

namespace Xframe.Facility

open MqttMsg (Cursor)

namespace CMqttClientLink

def closeLink (link : CMqttClientLink) : CMqttClientLink :=
  sendDisconnect { link with closed := link.closed + 1 }

def secAction (link : CMqttClientLink) : CMqttClientLink :=
  if link.mKeepAlive ≤ 0 then link
  else if !link.mAlive then link
  else
    let link := { link with mIdleSec := link.mIdleSec + 1 }
    let link := if link.mKeepAlive < link.mIdleSec then link.closeLink else link
    let link := { link with mPingTimer := link.mPingTimer - 1 }
    if link.mPingTimer ≤ 0 then
      let link := link.sendPingReq
      { link with mPingTimer := if link.mKeepAlive = 1 then 1 else link.mKeepAlive / 2 }
    else link

def receive (link : CMqttClientLink) (packets : List (ℕ × ℕ × Cursor)) : Option CMqttClientLink :=
  packets.foldlM (fun link p => (msgProcess p.1 p.2.1).run link p.2.2) link.awake

end CMqttClientLink

structure Tick where
  link : CMqttClientLink
  since : ℕ

namespace Tick

def Closes (t : Tick) : Prop := t.link.closed < t.link.secAction.closed

def Sends (t : Tick) (packet : List UInt8) : Prop := packet ∈ t.link.secAction.sent.drop t.link.sent.length

def Pings (t : Tick) : Prop := t.Sends (MqttMsg.packEmpty 12)

end Tick

inductive LinkEvent where
  | second
  | received (packets : List (ℕ × ℕ × Cursor))

def supervise : Tick → List LinkEvent → Option (List Tick)
  | _, [] => some []
  | t, .second :: es => (supervise ⟨t.link.secAction, t.since + 1⟩ es).map (t :: ·)
  | t, .received packets :: es => do supervise ⟨← t.link.receive packets, 0⟩ es

def ClosesInTime (k : ℤ) (ts : List Tick) : Prop :=
  ∀ t ∈ ts, t.Closes ↔ t.link.mAlive = true ∧ k < t.since + 1

def SilentOnceClosed (ts : List Tick) : Prop :=
  ∀ before t after, ts = before ++ t :: after → t.Closes → ∀ u ∈ t :: after, ¬u.Pings

def PingsInTime (k : ℤ) (ts : List Tick) : Prop :=
  ∀ window, window <:+: ts → (window.length : ℤ) = k → (∀ t ∈ window, t.link.mAlive = true ∧ ¬t.Closes) →
    ∃ t ∈ window, t.Pings

/-- In the second of the close, and whenever the link is alive behind it, the ping timer does not run out. -/
def PingsSpared (k : ℤ) (ts : List Tick) : Prop :=
  ∀ before t after, ts = before ++ t :: after → t.link.mAlive = true → k < t.since + 1 →
    ∀ u ∈ t :: after, u.link.mAlive = true → 1 < u.link.mPingTimer

namespace CMqttClientLink

variable {link link' : CMqttClientLink}

lemma secAction_idle (h : ¬(0 < link.mKeepAlive ∧ link.mAlive = true)) : link.secAction = link := by
  rw [secAction]
  by_cases hk : link.mKeepAlive ≤ 0
  · rw [if_pos hk]
  · have ha : (!link.mAlive) = true := by
      rw [not_and, Bool.not_eq_true] at h
      rw [h (not_le.mp hk), Bool.not_false]
    rw [if_neg hk, if_pos ha]

structure Second (link link' : CMqttClientLink) : Prop where
  mKeepAlive : link'.mKeepAlive = link.mKeepAlive
  mIdleSec : link'.mIdleSec = link.mIdleSec + 1
  mAlive : link'.mAlive = true ↔ (link.mIdleSec + 1 : ℤ) ≤ link.mKeepAlive
  mPingTimer : link'.mPingTimer =
    if link.mPingTimer ≤ 1 then (if link.mKeepAlive = 1 then 1 else link.mKeepAlive / 2) else link.mPingTimer - 1
  closed : link'.closed = if link.mKeepAlive < link.mIdleSec + 1 then link.closed + 1 else link.closed
  sent : link'.sent = link.sent ++
    (if link.mKeepAlive < link.mIdleSec + 1 then [MqttMsg.packEmpty 14] else []) ++
      (if link.mPingTimer ≤ 1 then [MqttMsg.packEmpty 12] else [])

lemma secAction_second (hk : 0 < link.mKeepAlive) (ha : link.mAlive = true) : link.Second link.secAction := by
  rw [secAction, if_neg (not_le.mpr hk), if_neg (by simp [ha])]
  dsimp only
  by_cases hclose : link.mKeepAlive < link.mIdleSec + 1
  · by_cases hping : link.mPingTimer ≤ 1
    · simp only [closeLink, sendDisconnect, sendPacket, sendPingReq, CMqttLink.sendPacket, Nat.cast_add, Nat.cast_one,
        if_pos hclose, if_pos (show link.mPingTimer - 1 ≤ 0 by omega)]
      exact ⟨rfl, rfl, by simpa using hclose, by simp [hping], by simp [hclose], by simp [hclose, hping]⟩
    · simp only [closeLink, sendDisconnect, sendPacket, CMqttLink.sendPacket, Nat.cast_add, Nat.cast_one,
        if_pos hclose, if_neg (show ¬link.mPingTimer - 1 ≤ 0 by omega)]
      exact ⟨rfl, rfl, by simpa using hclose, by simp [hping], by simp [hclose], by simp [hclose, hping]⟩
  · by_cases hping : link.mPingTimer ≤ 1
    · simp only [sendPacket, sendPingReq, CMqttLink.sendPacket, Nat.cast_add, Nat.cast_one,
        if_neg hclose, if_pos (show link.mPingTimer - 1 ≤ 0 by omega)]
      exact ⟨rfl, rfl, iff_of_true ha (not_lt.mp hclose), by simp [hping], by simp [hclose], by simp [hclose, hping]⟩
    · simp only [Nat.cast_add, Nat.cast_one, if_neg hclose, if_neg (show ¬link.mPingTimer - 1 ≤ 0 by omega)]
      exact ⟨rfl, rfl, iff_of_true ha (not_lt.mp hclose), by simp [hping], by simp [hclose], by simp [hclose, hping]⟩

def watched (link : CMqttClientLink) : ℤ × ℕ × ℤ := (link.mKeepAlive, link.mIdleSec, link.mPingTimer)

lemma watched_untouched : Untouched watched where
  respond link packetId msgId msgBody := by
    rw [respond]
    dsimp only
    split <;> rfl
  connAck _ _ _ := rfl
  invoke _ _ _ _ := rfl

lemma receive_watched {packets : List (ℕ × ℕ × Cursor)} (h : link.receive packets = some link') :
    watched link' = (link.mKeepAlive, 0, link.mPingTimer) := by
  have hfold : ∀ (packets : List (ℕ × ℕ × Cursor)) (start : CMqttClientLink),
      packets.foldlM (fun link p => (msgProcess p.1 p.2.1).run link p.2.2) start = some link' →
        watched link' = watched start := by
    intro packets
    induction packets with
    | nil =>
      intro start h
      rw [Option.some.inj h]
    | cons p packets ih =>
      intro start h
      rw [List.foldlM_cons] at h
      obtain ⟨next, hnext, h⟩ := Option.bind_eq_some_iff.mp h
      exact (ih next h).trans ((msgProcess_keeps watched_untouched p.1 p.2.1).run hnext)
  exact hfold packets link.awake h

lemma msgParse_receive {content : List UInt8} {r : ℤ} (h : link.msgParse content = some (r, link')) :
    ∃ packets, link.receive packets = some link' := by
  rw [msgParse, Facility.msgParse] at h
  split_ifs at h with hshort
  · exact ⟨[], by cases h; rfl⟩
  · obtain ⟨⟨bodyLength, p, remainLength⟩, -, h⟩ := Option.bind_eq_some_iff.mp h
    dsimp only at h
    split_ifs at h with hne
    · exact ⟨[], by cases h; rfl⟩
    · obtain ⟨next, hnext, h⟩ := Option.bind_eq_some_iff.mp h
      cases h
      refine ⟨[(((Cursor.start content).p.headD 0).toNat / 16, ((Cursor.start content).p.headD 0).toNat % 16,
        ⟨p, bodyLength⟩)], ?_⟩
      rw [receive, List.foldlM_cons]
      exact Option.bind_eq_some_iff.mpr ⟨_, hnext, rfl⟩

end CMqttClientLink

namespace Tick

variable {t : Tick}

lemma closes_iff (hk : 0 < t.link.mKeepAlive) :
    t.Closes ↔ t.link.mAlive = true ∧ t.link.mKeepAlive < t.link.mIdleSec + 1 := by
  rw [Closes]
  by_cases ha : t.link.mAlive = true
  · rw [(CMqttClientLink.secAction_second hk ha).closed, and_iff_right ha]
    split_ifs with hclose
    · exact iff_of_true (Nat.lt_succ_self _) hclose
    · exact iff_of_false (lt_irrefl _) hclose
  · rw [CMqttClientLink.secAction_idle fun h => ha h.2]
    exact iff_of_false (lt_irrefl _) fun h => ha h.1

lemma pings_iff (hk : 0 < t.link.mKeepAlive) : t.Pings ↔ t.link.mAlive = true ∧ t.link.mPingTimer ≤ 1 := by
  rw [Pings, Sends]
  by_cases ha : t.link.mAlive = true
  · have hne : MqttMsg.packEmpty 12 ∉ (if t.link.mKeepAlive < t.link.mIdleSec + 1 then [MqttMsg.packEmpty 14] else []) := by
      split_ifs
      · decide
      · exact List.not_mem_nil
    rw [(CMqttClientLink.secAction_second hk ha).sent, List.append_assoc, List.drop_left, List.mem_append,
      or_iff_right hne, and_iff_right ha]
    split_ifs with hping
    · exact iff_of_true (List.mem_singleton_self _) hping
    · exact iff_of_false List.not_mem_nil hping
  · rw [CMqttClientLink.secAction_idle fun h => ha h.2, List.drop_length]
    exact iff_of_false List.not_mem_nil fun h => ha h.1

structure Counts (k : ℤ) (t : Tick) : Prop where
  mKeepAlive : t.link.mKeepAlive = k
  mIdleSec : t.link.mAlive = true → t.link.mIdleSec = t.since

variable {k : ℤ}

lemma Counts.second (h : t.Counts k) (hk : 0 < k) : Counts k ⟨t.link.secAction, t.since + 1⟩ := by
  have hpos : 0 < t.link.mKeepAlive := h.mKeepAlive.symm ▸ hk
  by_cases ha : t.link.mAlive = true
  · have hs := CMqttClientLink.secAction_second hpos ha
    exact ⟨hs.mKeepAlive.trans h.mKeepAlive, fun _ => by rw [hs.mIdleSec, h.mIdleSec ha]⟩
  · have hidle : t.link.secAction = t.link := CMqttClientLink.secAction_idle fun h => ha h.2
    exact ⟨by rw [hidle]; exact h.mKeepAlive, fun hlive => absurd (hidle ▸ hlive) ha⟩

lemma Counts.received {packets : List (ℕ × ℕ × Cursor)} {link' : CMqttClientLink} (h : t.Counts k)
    (hr : t.link.receive packets = some link') : Counts k ⟨link', 0⟩ := by
  have hw := CMqttClientLink.receive_watched hr
  exact ⟨(congrArg Prod.fst hw).trans h.mKeepAlive, fun _ => congrArg (fun w => w.2.1) hw⟩

end Tick

section Run

variable {t : Tick} {es : List LinkEvent} {ts : List Tick} {k : ℤ}

lemma supervise_all {I : Tick → Prop} (hsecond : ∀ t, I t → I ⟨t.link.secAction, t.since + 1⟩)
    (hreceived : ∀ t packets link', I t → t.link.receive packets = some link' → I ⟨link', 0⟩) (h : I t)
    (hrun : supervise t es = some ts) : ∀ u ∈ ts, I u := by
  induction es generalizing t ts with
  | nil =>
    cases hrun
    exact fun u hu => absurd hu List.not_mem_nil
  | cons e es ih =>
    cases e with
    | second =>
      obtain ⟨rest, hrest, rfl⟩ := Option.map_eq_some_iff.mp hrun
      intro u hu
      rcases List.mem_cons.mp hu with rfl | hu
      · exact h
      · exact ih (hsecond t h) hrest u hu
    | received packets =>
      obtain ⟨link', hr, hrest⟩ := Option.bind_eq_some_iff.mp hrun
      exact ih (hreceived t packets link' h hr) hrest

lemma supervise_counts (hk : 0 < k) (h : t.Counts k) (hrun : supervise t es = some ts) : ∀ u ∈ ts, u.Counts k :=
  supervise_all (fun _ h => h.second hk) (fun _ _ _ h hr => h.received hr) h hrun

lemma quiet_prefix (hk : 0 < k) (h : t.Counts k) (hrun : supervise t es = some ts) {window : List Tick}
    (hw : window <+: ts) (halive : ∀ u ∈ window, u.link.mAlive = true) (hquiet : ∀ u ∈ window, ¬u.Pings) :
    (window.length : ℤ) < max t.link.mPingTimer 1 := by
  induction es generalizing t ts window with
  | nil =>
    cases hrun
    rw [List.prefix_nil.mp hw, List.length_nil]
    omega
  | cons e es ih =>
    cases e with
    | received packets =>
      obtain ⟨link', hr, hrest⟩ := Option.bind_eq_some_iff.mp hrun
      have hw' := CMqttClientLink.receive_watched hr
      have hlt := ih (h.received hr) hrest hw halive hquiet
      rwa [show link'.mPingTimer = t.link.mPingTimer from congrArg (fun w => w.2.2) hw'] at hlt
    | second =>
      obtain ⟨rest, hrest, rfl⟩ := Option.map_eq_some_iff.mp hrun
      cases window with
      | nil =>
        rw [List.length_nil]
        omega
      | cons u window =>
        obtain ⟨rfl, htail⟩ := List.cons_prefix_cons.mp hw
        have hpos : 0 < u.link.mKeepAlive := h.mKeepAlive.symm ▸ hk
        have ha := halive u List.mem_cons_self
        have hping := hquiet u List.mem_cons_self
        rw [Tick.pings_iff hpos, and_iff_right ha, not_le] at hping
        have hlt := ih (h.second hk) hrest htail (fun v hv => halive v (List.mem_cons_of_mem u hv))
          fun v hv => hquiet v (List.mem_cons_of_mem u hv)
        rw [(CMqttClientLink.secAction_second hpos ha).mPingTimer, if_neg (by omega)] at hlt
        rw [List.length_cons]
        push_cast
        omega

lemma pings_in_time (hk : 0 < k) (h : t.Counts k) (htimer : t.link.mPingTimer ≤ k)
    (hrun : supervise t es = some ts) : PingsInTime k ts := by
  induction es generalizing t ts with
  | nil =>
    cases hrun
    intro window hw hlen
    rw [List.infix_nil.mp hw, List.length_nil] at hlen
    exact absurd hlen hk.ne
  | cons e es ih =>
    cases e with
    | received packets =>
      obtain ⟨link', hr, hrest⟩ := Option.bind_eq_some_iff.mp hrun
      have hw' := CMqttClientLink.receive_watched hr
      exact ih (h.received hr) (by rw [show link'.mPingTimer = t.link.mPingTimer from congrArg (fun w => w.2.2) hw']; exact htimer) hrest
    | second =>
      have hrun' := hrun
      obtain ⟨rest, hrest, rfl⟩ := Option.map_eq_some_iff.mp hrun
      intro window hw hlen halive
      rcases List.infix_cons_iff.mp hw with hpre | hinf
      · by_contra hno
        have hlt := quiet_prefix hk h hrun' hpre (fun u hu => (halive u hu).1) fun u hu hp => hno ⟨u, hu, hp⟩
        omega
      · refine ih (h.second hk) ?_ hrest window hinf hlen halive
        have hpos : 0 < t.link.mKeepAlive := h.mKeepAlive.symm ▸ hk
        by_cases ha : t.link.mAlive = true
        · rw [(CMqttClientLink.secAction_second hpos ha).mPingTimer, h.mKeepAlive]
          split_ifs <;> omega
        · rw [CMqttClientLink.secAction_idle fun h => ha h.2]
          exact htimer

lemma supervise_quiet {n : ℕ} (hk : 0 < t.link.mKeepAlive) (ha : t.link.mAlive = true)
    (hidle : (t.link.mIdleSec + n : ℤ) ≤ t.link.mKeepAlive) (htimer : n < t.link.mPingTimer) :
    ∃ ts, supervise t (List.replicate n .second) = some ts ∧ ts.length = n ∧
      ∀ u ∈ ts, (u.link.mAlive = true ∧ ¬u.Closes) ∧ ¬u.Pings := by
  induction n generalizing t with
  | zero => exact ⟨[], rfl, rfl, fun u hu => absurd hu List.not_mem_nil⟩
  | succ n ih =>
    have hs := CMqttClientLink.secAction_second hk ha
    push_cast at hidle htimer
    obtain ⟨ts, hrun, hlen, hts⟩ := ih (t := ⟨t.link.secAction, t.since + 1⟩) (by rw [hs.mKeepAlive]; exact hk)
      (hs.mAlive.mpr (by omega)) (by rw [hs.mIdleSec, hs.mKeepAlive]; push_cast; omega)
      (by rw [hs.mPingTimer, if_neg (by omega)]; omega)
    refine ⟨t :: ts, ?_, by rw [List.length_cons, hlen], ?_⟩
    · rw [List.replicate_succ, supervise, hrun, Option.map_some]
    · intro u hu
      rcases List.mem_cons.mp hu with rfl | hu
      · rw [Tick.closes_iff hk, Tick.pings_iff hk]
        exact ⟨⟨ha, fun h => by omega⟩, fun h => by omega⟩
      · exact hts u hu

end Run

theorem supervision_iff {link : CMqttClientLink} (ha : link.mAlive = true) (hk : 0 < link.mKeepAlive) :
    (∀ es ts, supervise ⟨link, link.mIdleSec⟩ es = some ts →
      ClosesInTime link.mKeepAlive ts ∧ (SilentOnceClosed ts ↔ PingsSpared link.mKeepAlive ts)) ∧
    ((∀ es ts, supervise ⟨link, link.mIdleSec⟩ es = some ts → PingsInTime link.mKeepAlive ts) ↔
      link.mPingTimer ≤ link.mKeepAlive) := by
  have hcounts : Tick.Counts link.mKeepAlive ⟨link, link.mIdleSec⟩ := ⟨rfl, fun _ => rfl⟩
  have hpos : ∀ {u : Tick}, u.Counts link.mKeepAlive → 0 < u.link.mKeepAlive := fun hu => hu.mKeepAlive.symm ▸ hk
  have hcloses : ∀ {u : Tick}, u.Counts link.mKeepAlive →
      (u.Closes ↔ u.link.mAlive = true ∧ link.mKeepAlive < u.since + 1) := by
    intro u hu
    rw [Tick.closes_iff (hpos hu), hu.mKeepAlive]
    exact and_congr_right fun ha => by rw [hu.mIdleSec ha]
  constructor
  · intro es ts hrun
    have hall := supervise_counts hk hcounts hrun
    refine ⟨fun t ht => hcloses (hall t ht), ?_⟩
    constructor
    · intro h before t after hts ha hlate u hu hua
      have hmem : ∀ v ∈ t :: after, v ∈ ts := fun v hv => hts ▸ List.mem_append_right before hv
      have hquiet := h before t after hts ((hcloses (hall t (hmem t List.mem_cons_self))).mpr ⟨ha, hlate⟩) u hu
      rw [Tick.pings_iff (hpos (hall u (hmem u hu))), and_iff_right hua, not_le] at hquiet
      exact hquiet
    · intro h before t after hts hclose u hu hping
      have hmem : ∀ v ∈ t :: after, v ∈ ts := fun v hv => hts ▸ List.mem_append_right before hv
      obtain ⟨ha, hlate⟩ := (hcloses (hall t (hmem t List.mem_cons_self))).mp hclose
      obtain ⟨hua, hle⟩ := (Tick.pings_iff (hpos (hall u (hmem u hu)))).mp hping
      exact absurd (h before t after hts ha hlate u hu hua) (not_lt.mpr hle)
  · constructor
    · intro h
      by_contra hlong
      -- a packet that changes nothing, and then as many seconds as the keep-alive has
      obtain ⟨ts, hrun, hlen, hts⟩ := supervise_quiet (t := ⟨link.awake, 0⟩) (n := link.mKeepAlive.toNat) hk ha
        (by change ((0 : ℕ) + _ : ℤ) ≤ link.mKeepAlive; omega) (by change _ < link.mPingTimer; omega)
      obtain ⟨u, hu, hping⟩ := h (.received [] :: List.replicate link.mKeepAlive.toNat .second) ts hrun ts
        (List.infix_refl ts) (by rw [hlen]; omega) fun u hu => (hts u hu).1
      exact (hts u hu).2 hping
    · intro h es ts hrun
      exact pings_in_time hk hcounts h hrun

def aLink : CMqttClientLink := { CMqttClientLink.new with mKeepAlive := 2, mAlive := true }

theorem supervision_iff_aLink : ∃ ts, supervise ⟨aLink, 0⟩ [.second, .second] = some ts ∧ PingsInTime 2 ts :=
  ⟨_, rfl, (@supervision_iff aLink rfl (by decide)).2.mpr (by decide) [.second, .second] _ rfl⟩

theorem supervision_fails : ∃ ts, supervise ⟨aLink, 0⟩ [.second, .second, .second] = some ts ∧
    ¬SilentOnceClosed ts := by
  refine ⟨_, rfl, fun h => ?_⟩
  exact h [_, _] _ [] rfl (by unfold Tick.Closes; decide) _ List.mem_cons_self (by unfold Tick.Pings Tick.Sends; decide)

end Xframe.Facility
