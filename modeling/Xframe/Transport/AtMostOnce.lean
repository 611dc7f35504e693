import Xframe.Transport.NetInv

/-! What a step of the network means for one transaction, and that a request and its final response
are forwarded at most once. -/

namespace Xframe.Transport

open Xframe.Comserv Xframe.Msg Xframe.Lib

def Net.find (n : Net) (side : Side) (i : CStr) : Option TTransState := (n.party side).machine.find i

def Change.sent (c : Change) (fromwire : Bool) (msg : TUniNetMsg) : List TUniNetMsg :=
  (if c.code = .forward ∧ fromwire = false then [msg] else []) ++ c.resp.toList

def WireFrom (i : CStr) (n n' : Net) (side : Side) (new : List TUniNetMsg) : Prop :=
  ∀ m ∈ n'.wire side, m.transID = some i → m ∈ n.wire side ∨ m ∈ new

def Event.message (fromwire : Bool) (side : Side) (msg : TUniNetMsg) (code : TsCode) : Event :=
  if fromwire then .deliver side msg code else .app side msg code

def Event.forwards (side : Side) (name : ℕ) (i : CStr) : Event → Bool
  | .deliver s msg code => s = side ∧ msg.msgName = name ∧ msg.transID = some i ∧ code = .forward
  | _ => false

inductive Local (i : CStr) (n n' : Net) : Event → Prop
  | rest {e : Event} (hf : ∀ s, n'.find s i = n.find s i) (hw : ∀ s, WireFrom i n n' s [])
      (he : ∀ s name, e.forwards s name i = false) : Local i n n' e
  | moves {side : Side} {fromwire : Bool} {msg : TUniNetMsg} {key : ℕ} {c : Change}
      (hid : msg.transID = some i) (hmem : fromwire = true → msg ∈ n.wire side) (hkey : key ≠ 0)
      (hm : Moves i msg key side fromwire (n.find side i) c) (hf : n'.find side i = some c.state)
      (ho : n'.find side.other i = n.find side.other i) (hw : WireFrom i n n' side [])
      (hwo : WireFrom i n n' side.other (c.sent fromwire msg)) :
      Local i n n' (.message fromwire side msg c.code)
  | fire {side : Side} {tk key : ℕ} {st : TTransState} (hkey : key ≠ 0) (hst : n.find side i = some st)
      (ht : st.timer ≠ 0) (hf : n'.find side i = some { st with timer := key })
      (ho : n'.find side.other i = n.find side.other i) (hw : WireFrom i n n' side [])
      (hwo : WireFrom i n n' side.other st.msg.toList) : Local i n n' (.fire side tk i .resend)
  | expire {side : Side} {ids : List CStr} {code : TsCode} (hi : i ∈ ids)
      (ho : n'.find side.other i = n.find side.other i) : Local i n n' (.expire side ids code)

variable {n n' : Net} {i : CStr} {e : Event}

lemma local_message (fromwire : Bool) (h : NetInv n) {side : Side} {msg : TUniNetMsg} {key : ℕ} {now : ℤ}
    {r : Processed} (hr : (n.party side).machine.processTM fromwire msg key now = r)
    (hm : side.receives fromwire msg.msgName)
    (happ : fromwire = false → msg.msgName = side.appName) (hmem : fromwire = true → msg ∈ n.wire side)
    (hkey : (n.party side).Fresh key) (hparty : n'.party = (n.processed side r (sent fromwire msg r)).party)
    (hwire : ∀ s, ∀ m ∈ n'.wire s, m ∈ (n.processed side r (sent fromwire msg r)).wire s) :
    Local i n n' (.message fromwire side msg r.code) := by
  have hp := h.party side
  have hother : ∀ s, s ≠ side → n'.find s i = n.find s i := by
    intro s hs
    rw [Net.find, Net.find, hparty, Net.processed_party, if_neg hs]
  have hside : n'.find side i = r.machine.find i := by
    rw [Net.find, hparty, Net.processed_party, if_pos rfl]
    rfl
  have hsent : ∀ s, ∀ m ∈ n'.wire s, m ∈ n.wire s ∨ (s = side.other ∧ m ∈ sent fromwire msg r) := by
    intro s m hm
    have := hwire s m hm
    rw [Net.processed_wire] at this
    split_ifs at this with hs
    · exact (List.mem_append.mp this).imp_right fun h => ⟨hs, h⟩
    · exact Or.inl this
  rcases TTransMachine.processTM_cases key now hp.limit hp.ok hm with
    ⟨he, -⟩ | ⟨j, c, hj, hmoves, ht⟩
  · rw [hr] at he
    refine .rest ?_ ?_ ?_
    · intro s
      by_cases hs : s = side
      · subst hs
        rw [hside, he]
        rfl
      · exact hother s hs
    · intro s m hm _
      rcases hsent s m hm with h | ⟨-, h⟩
      · exact Or.inl h
      · rw [he] at h
        simp [sent, TTransMachine.idle] at h
    · intro s name
      rw [he]
      cases fromwire <;> simp [Event.message, Event.forwards, TTransMachine.idle]
  · rw [hr] at ht
    by_cases hji : j = i
    · subst hji
      rw [ht.code]
      have hf : n'.find side j = some c.state := by rw [hside, ht.find, if_pos rfl]
      refine .moves hj hmem hkey.1 hmoves hf (hother _ (Net.other_ne side)) ?_ ?_
      · intro m hm _
        rcases hsent side m hm with h | ⟨h, -⟩
        · exact Or.inl h
        · exact absurd h.symm (Net.other_ne side)
      · intro m hm _
        rcases hsent _ m hm with h | ⟨-, h⟩
        · exact Or.inl h
        · rw [sent, ht.code, ht.resp] at h
          exact Or.inr h
    · refine .rest ?_ ?_ ?_
      · intro s
        by_cases hs : s = side
        · subst hs
          rw [hside, ht.find, if_neg (Ne.symm hji)]
          rfl
        · exact hother s hs
      · intro s m hm hmi
        rcases hsent s m hm with h | ⟨-, h⟩
        · exact Or.inl h
        · have := (hp.sent hj hmoves ht happ h).2
          exact absurd (Option.some.inj (this.symm.trans hmi)) hji
      · intro s name
        cases fromwire <;> simp [Event.message, Event.forwards, hj, hji]

lemma step_local (h : NetInv n) (hs : Step n e n') (i : CStr) : Local i n n' e := by
  cases hs with
  | @app side msg key now r hup hname hkey hr =>
    exact local_message false h hr (Side.app_receives hname).1 (fun _ => hname) (by simp)
      hkey rfl fun _ _ hm => hm
  | @deliver side msg key now r hup hmsg hkey hr =>
    have hm := h.wire side msg hmsg
    refine local_message true h hr hm (by simp) (fun _ => hmsg) hkey rfl ?_
    intro s m hm
    rw [Net.processed_wire, Net.setWire_wire] at hm
    rw [Net.processed_wire]
    by_cases hs : s = side.other
    · rw [if_pos hs] at hm ⊢
      rwa [if_neg (hs ▸ Net.other_ne side)] at hm
    · rw [if_neg hs] at hm ⊢
      split_ifs at hm with hs'
      · subst hs'
        exact List.mem_of_mem_erase hm
      · exact hm
  | @duplicate side msg hmsg =>
    refine .rest (fun _ => rfl) ?_ fun _ _ => rfl
    intro s m hm _
    rw [Net.setWire_wire] at hm
    split_ifs at hm with hs
    · subst hs
      rcases List.mem_cons.mp hm with rfl | hm
      · exact Or.inl hmsg
      · exact Or.inl hm
    · exact Or.inl hm
  | @lose side msg =>
    refine .rest (fun _ => rfl) ?_ fun _ _ => rfl
    intro s m hm _
    rw [Net.setWire_wire] at hm
    split_ifs at hm with hs
    · subst hs
      exact Or.inl (List.mem_of_mem_erase hm)
    · exact Or.inl hm
  | @fire side tk j key r hup harmed hkey hr =>
    have hp := h.party side
    obtain ⟨h0, st, hf, ht⟩ := hp.timer_state harmed
    have htouch := TTransMachine.processTimer_touched key hf h0 ht (hp.ok j st hf)
    rw [hr] at htouch
    have hother : ∀ s, s ≠ side →
        ((n.disarm side (tk, j)).processed side r r.resp.toList).find s i = n.find s i := by
      intro s hs
      rw [Net.find, Net.find, Net.processed_party, if_neg hs, Net.disarm_party, if_neg hs]
    have hside : ((n.disarm side (tk, j)).processed side r r.resp.toList).find side i = r.machine.find i := by
      rw [Net.find, Net.processed_party, if_pos rfl]
      rfl
    have hsent : ∀ s, ∀ m ∈ ((n.disarm side (tk, j)).processed side r r.resp.toList).wire s,
        m ∈ n.wire s ∨ (s = side.other ∧ m ∈ st.msg.toList) := by
      intro s m hm
      rw [Net.processed_wire, Net.disarm_wire, htouch.resp] at hm
      split_ifs at hm with hs
      · exact (List.mem_append.mp hm).imp_right fun h => ⟨hs, h⟩
      · exact Or.inl hm
    by_cases hji : j = i
    · subst hji
      rw [htouch.code]
      refine .fire hkey.1 hf (ht ▸ h0) (by rw [hside, htouch.find, if_pos rfl])
        (hother _ (Net.other_ne side)) ?_ ?_
      · intro m hm _
        rcases hsent side m hm with h | ⟨h, -⟩
        · exact Or.inl h
        · exact absurd h.symm (Net.other_ne side)
      · intro m hm _
        rcases hsent _ m hm with h | ⟨-, h⟩
        · exact Or.inl h
        · exact Or.inr h
    · refine .rest ?_ ?_ fun _ _ => rfl
      · intro s
        by_cases hs : s = side
        · subst hs
          rw [hside, htouch.find, if_neg (Ne.symm hji)]
          rfl
        · exact hother s hs
      · intro s m hm hmi
        rcases hsent s m hm with h | ⟨-, h⟩
        · exact Or.inl h
        · have := ((hp.ok j st hf).msg (ht ▸ h0) (Option.mem_toList.mp h)).2
          exact absurd (Option.some.inj (this.symm.trans hmi)) hji
  | @crash side tk hup harmed =>
    refine .rest ?_ (fun _ _ hm _ => Or.inl hm) fun _ _ => rfl
    intro s
    rw [Net.find, Net.find, Net.setParty_party]
    split_ifs with hs
    · rw [hs]
    · rfl
  | @expire side currenttime now r hup hr =>
    have hswept := TTransMachine.processExpired_swept (n.party side).machine currenttime now
    rw [hr] at hswept
    by_cases hi : i ∈ r.expired
    · refine .expire hi ?_
      rw [Net.find, Net.find, Net.processed_party, if_neg (Net.other_ne side)]
    · refine .rest ?_ ?_ fun _ _ => rfl
      · intro s
        rw [Net.find, Net.find, Net.processed_party]
        split_ifs with hs
        · subst hs
          exact (hswept.find i).trans (if_neg hi)
        · rfl
      · intro s m hm _
        rw [Net.processed_wire] at hm
        split_ifs at hm <;> exact Or.inl (by simpa using hm)

def Expired (side : Side) (i : CStr) (es : List Event) : Prop :=
  ∃ ids code, Event.expire side ids code ∈ es ∧ i ∈ ids

lemma Expired.snoc {side : Side} {es : List Event} (h : ¬Expired side i (es ++ [e])) : ¬Expired side i es := by
  rintro ⟨ids, code, hm, hi⟩
  exact h ⟨ids, code, List.mem_append_left _ hm, hi⟩

def Side.wireName : Side → ℕ
  | .client => comMessageRsp
  | .server => comMessageReq

def Forwarded : Side → Option TTransState → Prop
  | .client, st => ∃ s, st = some s ∧ s.tsstate = .terminated
  | .server, st => ∃ s, st = some s

lemma Moves.forwards {side : Side} {fromwire : Bool} {msg : TUniNetMsg} {key : ℕ} {old : Option TTransState}
    {c : Change} (h : Moves i msg key side fromwire old c) :
    (Forwarded side old → Forwarded side (some c.state)) ∧
      ((Event.message fromwire side msg c.code).forwards side side.wireName i = true →
        ¬Forwarded side old ∧ Forwarded side (some c.state)) := by
  cases h <;> simp_all [Event.message, Event.forwards, Forwarded, Side.wireName, TTransState.moveTo,
    TTransState.stay, comMessageReq, comMessageRsp, comMessageTmp]

lemma Side.eq_other {s side : Side} (h : s ≠ side) : side = s.other := by
  cases s <;> cases side <;> first | rfl | exact absurd rfl h

def Once (side : Side) (i : CStr) (es : List Event) (n : Net) : Prop :=
  es.countP (Event.forwards side side.wireName i) = 0 ∨
    es.countP (Event.forwards side side.wireName i) = 1 ∧ Forwarded side (n.find side i)

lemma forwards_other {side : Side} {fromwire : Bool} {msg : TUniNetMsg} {code : TsCode} {s : Side} {name : ℕ}
    (hs : s ≠ side) : (Event.message fromwire s msg code).forwards side name i = false := by
  cases fromwire <;> simp [Event.message, Event.forwards, hs]

lemma Once.step {side : Side} {es : List Event} (h : Once side i es n) (hl : Local i n n' e)
    (hx : ¬Expired side i (es ++ [e])) : Once side i (es ++ [e]) n' := by
  have hkeep : e.forwards side side.wireName i = false →
      (Forwarded side (n.find side i) → Forwarded side (n'.find side i)) → Once side i (es ++ [e]) n' := by
    intro he hf
    rw [Once, List.countP_append, List.countP_singleton, he]
    exact h.imp_right fun h => ⟨h.1, hf h.2⟩
  cases hl with
  | rest hf _ he => exact hkeep (he side _) (by rw [hf side]; exact id)
  | @moves s fromwire msg key c hid hmem hkey hm hf ho _ _ =>
    by_cases hs : s = side
    · subst hs
      obtain ⟨h1, h2⟩ := hm.forwards
      cases hfw : (Event.message fromwire s msg c.code).forwards s s.wireName i with
      | false => exact hkeep hfw (by rw [hf]; exact h1)
      | true =>
        obtain ⟨hno, hyes⟩ := h2 hfw
        rw [Once, List.countP_append, List.countP_singleton, hfw, hf]
        rcases h with h | ⟨-, h⟩
        · exact Or.inr ⟨by simp [h], hyes⟩
        · exact absurd h hno
    · obtain rfl := Side.eq_other hs
      exact hkeep (forwards_other hs) (by rw [ho]; exact id)
  | @fire s tk key st hkey hst ht hf ho _ _ =>
    refine hkeep rfl ?_
    by_cases hs : s = side
    · subst hs
      rw [hst, hf]
      cases s with
      | client =>
        rintro ⟨s, hs, h⟩
        obtain rfl := Option.some.inj hs
        exact ⟨_, rfl, h⟩
      | server => exact fun _ => ⟨_, rfl⟩
    · obtain rfl := Side.eq_other hs
      rw [ho]
      exact id
  | @expire s ids code hi ho =>
    refine hkeep rfl ?_
    by_cases hs : s = side
    · subst hs
      exact absurd ⟨ids, code, by simp, hi⟩ hx
    · obtain rfl := Side.eq_other hs
      rw [ho]
      exact id

lemma once_run {clientTimeOut serverTimeOut : ℕ} {es : List Event}
    (h : Run Step (Net.init clientTimeOut serverTimeOut) es n) :
    NetInv n ∧ ∀ side i, ¬Expired side i es → Once side i es n := by
  refine h.invariant (I := fun es n => NetInv n ∧ ∀ side i, ¬Expired side i es → Once side i es n) ?_ ?_
  · exact ⟨netInv_init _ _, fun _ _ _ => Or.inl rfl⟩
  · intro es n e n' ⟨hinv, honce⟩ hs
    exact ⟨hinv.step hs, fun side i hx => (honce side i (Expired.snoc hx)).step (step_local hinv hs i) hx⟩

theorem forwarded_at_most_once {clientTimeOut serverTimeOut : ℕ} {es : List Event}
    (h : Run Step (Net.init clientTimeOut serverTimeOut) es n) (i : CStr) :
    (¬Expired .server i es → es.countP (Event.forwards .server comMessageReq i) ≤ 1) ∧
      (¬Expired .client i es → es.countP (Event.forwards .client comMessageRsp i) ≤ 1) := by
  obtain ⟨-, honce⟩ := once_run h
  constructor
  · intro hx
    rcases honce .server i hx with h | ⟨h, -⟩
    · exact h.le.trans (by omega)
    · exact h.le
  · intro hx
    rcases honce .client i hx with h | ⟨h, -⟩
    · exact h.le.trans (by omega)
    · exact h.le

def exampleMsg (name : ℕ) : TUniNetMsg :=
  ⟨⟨0, 0, 0⟩, ⟨0, 0, 0⟩, 0, name, 0, some [1], none, some ⟨false, 0, none, some ⟨0, 1, 0, []⟩⟩, none⟩

def duplicated : List Event :=
  [.app .client (exampleMsg comMessageReq) .forward, .duplicate .server (exampleMsg comMessageReq),
    .deliver .server (exampleMsg comMessageReq) .forward, .deliver .server (exampleMsg comMessageReq) .refuse]

theorem forwarded_once_duplicated : ∃ n, Run Step (Net.init 0 0) duplicated n ∧
    duplicated.countP (Event.forwards .server comMessageReq [1]) ≤ 1 := by
  have hrun : ∃ n, Run Step (Net.init 0 0) duplicated n ∧ True := by
    refine Run.exists_cons (@Step.app _ .client (exampleMsg comMessageReq) 7 0 _ rfl rfl
      ⟨by decide, by decide⟩ rfl) ?_
    refine Run.exists_cons (Step.duplicate (List.Mem.head _)) ?_
    refine Run.exists_cons (@Step.deliver _ .server (exampleMsg comMessageReq) 8 0 _ rfl (List.Mem.head _)
      ⟨by decide, by decide⟩ rfl) ?_
    refine Run.exists_cons (@Step.deliver _ .server (exampleMsg comMessageReq) 8 0 _ rfl (List.Mem.head _)
      ⟨by decide, by decide⟩ rfl) ?_
    exact ⟨_, .nil, trivial⟩
  obtain ⟨n, hn, -⟩ := hrun
  exact ⟨n, hn, (forwarded_at_most_once hn [1]).1 (by simp [Expired, duplicated])⟩

end Xframe.Transport
