import Xframe.Lib.Run
import Xframe.Comserv.BufferCallbacks
import Xframe.Comserv.SocketFrames

/-! Receiving a stream of frames through `pRecvMsgBuf`, cut into reads in any way: the payloads come
out as they were packed. -/

namespace Xframe.Comserv

open Xframe.Lib

def ReadAnswer.bytes : ReadAnswer → List UInt8
  | data bytes => bytes
  | _ => []

namespace CSocket

def delivers (wire : List ReadAnswer) : List UInt8 := (wire.map ReadAnswer.bytes).flatten

def Chunks (wire : List ReadAnswer) : Prop := ∀ a ∈ wire, a ≠ .data []

def cost (wire : List ReadAnswer) : ℕ := (wire.map fun a => a.bytes.length + 1).sum

structure RecvOk (s : CSocket) : Prop where
  buffer : s.pRecvMsgBuf.Ok
  size : s.pRecvMsgBuf.size = maxMsgLength
  straight : s.pRecvMsgBuf.Straight
  idle : s.recvBufHasMessage = false → s.pRecvMsgBuf.pBufHead = 0
  busy : s.recvBufHasMessage = true → 0 < s.pRecvMsgBuf.filledLength

inductive Filled (b : TBuffer) (wire : List ReadAnswer) : ℤ × TBuffer × List ReadAnswer → Prop
  | none {ret : ℤ} {wire' : List ReadAnswer} : ret ≤ 0 → Chunks wire' → delivers wire = delivers wire' →
      wire = [] ∧ wire' = [] ∨ cost wire' < cost wire → Filled b wire (ret, b, wire')
  | some {ret : ℤ} {b' : TBuffer} {wire' : List ReadAnswer} {new : List UInt8} : 0 < ret → new ≠ [] → b'.Ok →
      b'.size = b.size → b'.pBufHead < b'.pBufTail → b'.contents = b.contents ++ new → Chunks wire' →
      delivers wire = new ++ delivers wire' → cost wire' + new.length ≤ cost wire → Filled b wire (ret, b', wire')

variable {s : CSocket} {wire : List ReadAnswer}

lemma recvSocketIntoBuff_error {a : ReadAnswer} (ha : ∀ bytes, a ≠ .data bytes) (wire : List ReadAnswer) (off n : ℕ) :
    a.bytes = [] ∧ ∃ ret ≤ 0, recvSocketIntoBuff (a :: wire) off n = (ret, [], wire) := by
  cases a with
  | data bytes => exact absurd rfl (ha bytes)
  | eof => exact ⟨rfl, 0, le_rfl, rfl⟩
  | wouldBlock => exact ⟨rfl, -2, by decide, rfl⟩
  | fail => exact ⟨rfl, -1, by decide, rfl⟩

lemma recvSocketIntoBuff_data {bytes : List UInt8} (hb : bytes ≠ []) (wire : List ReadAnswer) (off : ℕ) {n : ℕ}
    (hn : 0 < n) (hc : Chunks wire) :
    ∃ wire', recvSocketIntoBuff (.data bytes :: wire) off n = (((bytes.take n).length : ℤ), bytes.take n, wire') ∧
      bytes.take n ≠ [] ∧ (bytes.take n).length ≤ n ∧ Chunks wire' ∧
      delivers (.data bytes :: wire) = bytes.take n ++ delivers wire' ∧
      cost wire' + (bytes.take n).length ≤ cost (.data bytes :: wire) := by
  have hpos := List.length_pos_iff.mpr hb
  have hlen : (bytes.take n).length = min n bytes.length := List.length_take
  have hne : bytes.take n ≠ [] := List.length_pos_iff.mp (by omega)
  rw [recvSocketIntoBuff]
  split
  · next hle =>
    rw [List.take_of_length_le hle]
    exact ⟨wire, rfl, hb, hle, hc, by simp [delivers, ReadAnswer.bytes], by simp [cost, ReadAnswer.bytes]; omega⟩
  · next hlt =>
    refine ⟨.data (bytes.drop n) :: wire, ?_, hne, by omega, ?_, ?_, ?_⟩
    · rw [hlen, min_eq_left (by omega)]
    · intro a ha
      rcases List.mem_cons.mp ha with rfl | ha
      · intro h
        injection h with h
        have := congrArg List.length h
        rw [List.length_drop, List.length_nil] at this
        omega
      · exact hc a ha
    · simp only [delivers, ReadAnswer.bytes, List.map_cons, List.flatten_cons]
      rw [← List.append_assoc, List.take_append_drop]
    · simp only [cost, ReadAnswer.bytes, List.map_cons, List.sum_cons, List.length_drop]
      omega

lemma filled_push {b : TBuffer} (h : b.Ok) (hhead : b.pBufHead = 0) (hfree : 0 < b.freeLength) (hc : Chunks wire) :
    Filled b wire (b.pushTail recvSocketIntoBuff wire b.freeLength) := by
  have hsum := h.sum
  have hfilled := h.filled_of_le (by omega) hfree
  rw [TBuffer.pushTail]
  cases wire with
  | nil =>
    rw [recvSocketIntoBuff]
    dsimp only
    rw [TBuffer.push_nothing b (by decide)]
    exact .none (by decide) hc rfl (.inl ⟨rfl, rfl⟩)
  | cons a wire =>
    have hc' : Chunks wire := fun a ha => hc a (List.mem_cons_of_mem _ ha)
    by_cases ha : ∃ bytes, a = .data bytes
    · obtain ⟨bytes, rfl⟩ := ha
      have hb : bytes ≠ [] := fun h => hc _ List.mem_cons_self (by rw [h])
      obtain ⟨wire', heq, hne, hle, hcw, hdel, hcost⟩ := recvSocketIntoBuff_data hb wire 0 hfree hc'
      rw [heq]
      dsimp only
      obtain ⟨hok, hcon⟩ := h.store_tail _ hne hle (.inr (by omega)) hle
      have hpos := List.length_pos_iff.mpr hne
      refine .some (by omega) hne hok (by simp) ?_ hcon hcw hdel hcost
      rw [TBuffer.advanceTail, if_pos ⟨by omega, by omega⟩]
      dsimp only [TBuffer.store]
      omega
    · obtain ⟨hnil, ret, hret, heq⟩ := recvSocketIntoBuff_error (fun bytes h => ha ⟨bytes, h⟩) wire 0 b.freeLength
      rw [heq]
      dsimp only
      rw [TBuffer.push_nothing b hret]
      exact .none hret hc' (by simp [delivers, hnil]) (.inr (by simp [cost]))

lemma RecvOk.filled (h : s.RecvOk) (hflag : s.recvBufHasMessage = false) (hfree : 0 < s.pRecvMsgBuf.freeLength)
    (hc : Chunks wire) : Filled s.pRecvMsgBuf wire (s.fill wire) := by
  have hhead := h.idle hflag
  have hsum := h.buffer.sum
  have hfilled := h.buffer.filled_of_le (by omega) hfree
  have htail := h.buffer.tail
  rw [fill, hflag, if_neg (by decide), TBuffer.writeIntoBuffer, if_neg (by omega), if_neg (by omega)]
  dsimp only
  rw [min_eq_right (by omega), if_neg (by omega), if_pos (by omega)]
  exact filled_push h.buffer hhead hfree hc

lemma exists_fill {c : List UInt8} (hc : c ≠ []) (hlen : c.length ≤ maxMsgLength) :
    ∃ b : TBuffer, connected.fill [.data c] = ((c.length : ℤ), b, []) ∧ b.Ok ∧ b.pBufHead < b.pBufTail ∧
      b.size = maxMsgLength ∧ b.contents = c := by
  have hcpos := List.length_pos_iff.mpr hc
  have hstore := (TBuffer.new_ok maxMsgLength).store_tail c hc (n := maxMsgLength) hlen (.inr hlen) hlen
  refine ⟨_, ?_, hstore.1, ?_, by simp [TBuffer.new], hstore.2⟩
  · rw [fill, if_neg (by decide), connected, TBuffer.writeIntoBuffer, if_neg (by decide), if_neg (by decide)]
    dsimp only
    rw [if_neg (by decide), if_pos (by decide), TBuffer.pushTail, recvSocketIntoBuff]
    rw [if_pos (by exact hlen)]
    rfl
  · rw [TBuffer.advanceTail, if_pos ⟨by omega, by omega⟩]
    change 0 < 0 + (c.length : ℤ).toNat
    omega

lemma exists_memory {b : TBuffer} (hlt : b.pBufHead < b.pBufTail) (h : b.Ok) :
    ∃ junk, b.msgBuf.drop b.pBufHead = b.contents ++ junk := by
  have hfilled := h.straight hlt
  refine ⟨(b.msgBuf.drop b.pBufHead).drop b.filledLength, ?_⟩
  rw [TBuffer.contents_straight (by omega) hlt, List.take_append_drop]

lemma parse_of_scan {b : TBuffer} (h : b.Ok) (hlt : b.pBufHead < b.pBufTail) (hsize : b.size = maxMsgLength)
    {junk : List UInt8} (hmem : b.msgBuf.drop b.pBufHead = b.contents ++ junk) {d : ℕ} {o : Option (List UInt8)}
    (hd : d ≤ b.filledLength)
    (hs : scan ((b.contents ++ junk).length + 1) (searching 0 b.contents.length 0 (b.contents ++ junk)) =
      some ((d : ℤ), o)) :
    ∃ b', parse b = ((d : ℤ), b', some (o.getD [])) ∧ b'.Ok ∧ b'.size = b.size ∧ b'.Straight ∧
      b'.contents = b.contents.drop d := by
  have hsum := h.sum
  have hfilled := h.straight hlt
  rw [← hmem, h.length_contents] at hs
  have hpop : readFromBuff b.filledLength (some []) (b.msgBuf.drop b.pBufHead) b.filledLength =
      ((d : ℤ), some (o.getD [])) := by
    rw [readFromBuff]
    have hstart : (⟨.wait, headLength, b.filledLength, 0, b.msgBuf.drop b.pBufHead⟩ : Scan) =
        searching 0 b.filledLength 0 (b.msgBuf.drop b.pBufHead) := by
      rw [searching, Nat.cast_zero, Int.sub_zero]
      rfl
    rw [hstart, hs]
    cases o with
    | none => rfl
    | some c => rfl
  refine ⟨(b.advanceHead d b.filledLength).restart, ?_, ?_⟩
  · rw [parse, TBuffer.readFromBuffer, if_neg (by decide), if_neg (by omega)]
    dsimp only
    rw [min_eq_right (by rw [maxRecvLength]; rw [maxMsgLength] at hsize; omega), if_pos hlt, TBuffer.popHead, hpop]
  rcases Nat.eq_zero_or_pos d with rfl | hpos
  · have hsame : (b.advanceHead (0 : ℕ) b.filledLength).restart = b := by
      rw [TBuffer.advanceHead, if_neg (by simp), TBuffer.restart, if_neg (by omega)]
    rw [hsame]
    exact ⟨h, rfl, .inl hlt, List.drop_zero.symm⟩
  · obtain ⟨hok, hcon⟩ := h.advance hpos hd le_rfl (.inl hlt)
    refine ⟨hok, by simp, ?_, hcon⟩
    rw [TBuffer.advanceHead, if_pos ⟨by omega, by omega⟩, TBuffer.restart]
    split
    · next h0 => exact .inr h0
    · next h0 =>
      refine .inl ?_
      dsimp only at h0 ⊢
      omega

lemma head_of_frames {y : List UInt8} {rest : List Payload} (h : y <+: frames rest) : ∀ b ∈ y.head?, b = 0x00 := by
  intro b hb
  obtain ⟨y', rfl⟩ : ∃ y', y = b :: y' := by
    cases y with
    | nil => simp at hb
    | cons c y' => exact ⟨y', by simpa using hb⟩
  cases rest with
  | nil => exact absurd (List.prefix_nil.mp h) (List.cons_ne_nil _ _)
  | cons p rest =>
    rw [frames_cons, Payload.frame, pack, delimiter, List.append_assoc, List.append_assoc, List.cons_append,
      List.cons_prefix_cons] at h
    exact h.1

inductive Parsed (g : List UInt8) (done rest : List Payload) (D : List UInt8) (b b' : TBuffer) :
    ℤ → List UInt8 → Prop
  | wait {ret : ℤ} : Placed g done D b'.contents → Left g done rest D b'.contents →
      b'.contents.length ≤ b.contents.length → Parsed g done rest D b b' ret []
  | frame {ret : ℤ} {p : Payload} {rest' : List Payload} : rest = p :: rest' → 0 < ret →
      Placed g (done ++ [p]) D b'.contents → b'.contents.length < b.contents.length →
      Parsed g done rest D b b' ret p.content

lemma exists_parsed {g D : List UInt8} {done rest : List Payload} {b : TBuffer} (h : b.Ok)
    (hlt : b.pBufHead < b.pBufTail) (hsize : b.size = maxMsgLength) (hg : Leads g (done ++ rest))
    (hD : D <+: g ++ frames (done ++ rest)) (hp : Placed g done D b.contents) :
    ∃ ret b' code, parse b = (ret, b', some code) ∧ b'.Ok ∧ b'.size = b.size ∧ b'.Straight ∧
      Parsed g done rest D b b' ret code := by
  obtain ⟨x, y, hcut⟩ := exists_cut hg hD hp
  have hlen := h.length_contents
  have hxy : b.contents.length = x.length + y.length := by rw [hcut.eq, List.length_append]
  obtain ⟨junk, hmem⟩ := exists_memory hlt h
  have hfuel : b.contents.length ≤ (b.contents ++ junk).length := by
    rw [List.length_append]
    omega
  rcases le_or_gt y.length headLength with hy | hy
  · obtain ⟨d, hd, hshort, hs⟩ := scan_short ((b.contents ++ junk).length + 1) junk (u := []) (k := 0) hcut.free
      (by omega) List.nil_suffix hy (head_of_frames hcut.arrived) (by rw [← hcut.eq]; omega)
    rw [List.nil_append] at hd hshort
    rw [← hcut.eq] at hshort hs
    obtain ⟨b', heq, hok, hsz, hst, hcon⟩ := parse_of_scan h hlt hsize hmem (by omega) hs
    refine ⟨_, b', _, heq, hok, hsz, hst, ?_⟩
    rw [Option.getD_none]
    exact .wait (hcon ▸ hcut.placed d hd) (hcon ▸ hcut.left_short hy hd hshort) (by rw [hcon, List.length_drop]; omega)
  · obtain ⟨p, rest, rfl⟩ : ∃ p rest', rest = p :: rest' := by
      cases rest with
      | nil =>
        have := hcut.arrived.length_le
        rw [show frames [] = [] from rfl, List.length_nil] at this
        omega
      | cons p rest => exact ⟨p, rest, rfl⟩
    have harrived := hcut.arrived
    have hpos := p.lt_length_frame
    rw [frames_cons] at harrived
    obtain ⟨f, hf⟩ : ∃ f, (b.contents ++ junk).length + 1 = f + 8 + x.length :=
      ⟨(b.contents ++ junk).length + 1 - 8 - x.length, by rw [show headLength = 12 from rfl] at hy; omega⟩
    have hs := scan_frame f junk hcut.free hy harrived
    rw [← hf, ← hcut.eq] at hs
    split_ifs at hs with hle
    · obtain ⟨b', heq, hok, hsz, hst, hcon⟩ := parse_of_scan h hlt hsize hmem (by omega) hs
      refine ⟨_, b', _, heq, hok, hsz, hst, ?_⟩
      rw [Option.getD_some]
      exact .frame rfl (by omega) (hcon ▸ hcut.placed_frame hle) (by rw [hcon, List.length_drop]; omega)
    · obtain ⟨b', heq, hok, hsz, hst, hcon⟩ := parse_of_scan h hlt hsize hmem (by omega) hs
      refine ⟨_, b', _, heq, hok, hsz, hst, ?_⟩
      rw [Option.getD_none]
      exact .wait (hcon ▸ hcut.placed _ le_rfl) (hcon ▸ hcut.left_part hy (not_le.mp hle))
        (by rw [hcon, List.length_drop]; omega)

lemma Left.length_lt {g D c : List UInt8} {done rest : List Payload} (h : Left g done rest D c) :
    c.length < maxMsgLength := by
  have hmax : maxMsgLength = 81920 := rfl
  have hhead : headLength = 12 := rfl
  rcases h with ⟨-, hu⟩ | ⟨-, -, -, hle, -⟩
  · cases rest with
    | nil =>
      obtain rfl : c = [] := hu
      decide
    | cons p rest =>
      have h1 := hu.1
      have h2 := p.fits
      have h3 : socketCodeMaxLength = 20476 := rfl
      rw [p.length_frame] at h1
      omega
  · omega

lemma recv_short {memcpy : TBuffer.Memcpy} (hm : TBuffer.Conforms memcpy) {b : TBuffer} {r : ℤ}
    {wire' : List ReadAnswer} (hfill : s.fill wire = (r, b, wire')) (hr : 0 < r) (h : b.Ok)
    (hlt : b.pBufHead < b.pBufTail) (hsize : b.size = maxMsgLength) (hlen : b.contents.length ≤ headLength) :
    ∃ s', s.recvCodeByFindHead memcpy wire = some (-2, [], s', wire') ∧ s'.recvBufHasMessage = false ∧
      (TBuffer.Movable memcpy (parse b).2.1 → s'.pRecvMsgBuf.contents = b.contents) := by
  obtain ⟨junk, hmem⟩ := exists_memory hlt h
  have hs : scan ((b.contents ++ junk).length + 1) (searching 0 b.contents.length 0 (b.contents ++ junk)) =
      some (((0 : ℕ) : ℤ), none) := scan_exit (by push_cast; omega)
  obtain ⟨b', hparse, hok, hsz, hst, hcon⟩ := parse_of_scan h hlt hsize hmem (Nat.zero_le _) hs
  rw [recvCodeByFindHead, hfill]
  dsimp only
  rw [if_neg (by omega), hparse]
  dsimp only
  rw [if_neg (by simp)]
  refine ⟨_, rfl, rfl, fun hmove => ?_⟩
  rw [(hok.rearrange_straight hst hm hmove).2.1, hcon, List.drop_zero]

def received (es : List (ℤ × List UInt8)) : List (List UInt8) :=
  es.filterMap fun e => if e.1 = 1 then some e.2 else none

structure Receives (g : List UInt8) (done rest : List Payload) (D : List UInt8) (n : ℕ) (s : CSocket)
    (e : ℤ × List UInt8) (done' rest' : List Payload) : Prop where
  ok : s.RecvOk
  split : done ++ rest = done' ++ rest'
  codes : done'.map Payload.content = done.map Payload.content ++ received [e]
  placed : Placed g done' D s.pRecvMsgBuf.contents
  left : s.recvBufHasMessage = false → Left g done' rest' D s.pRecvMsgBuf.contents
  work : s.pRecvMsgBuf.contents.length + (if s.recvBufHasMessage then 1 else 0) ≤ n

lemma recv_parsed {memcpy : TBuffer.Memcpy} (hm : TBuffer.Conforms memcpy) {g D : List UInt8}
    {done rest : List Payload} {b : TBuffer} {r : ℤ} {wire' : List ReadAnswer} (hfill : s.fill wire = (r, b, wire'))
    (hr : 0 < r) (h : b.Ok) (hlt : b.pBufHead < b.pBufTail) (hsize : b.size = maxMsgLength)
    (hg : Leads g (done ++ rest)) (hD : D <+: g ++ frames (done ++ rest)) (hp : Placed g done D b.contents) :
    ∃ ret code s', s.recvCodeByFindHead memcpy wire = some (ret, code, s', wire') ∧
      ((ret = -2 → TBuffer.Movable memcpy (parse b).2.1) →
        ∃ done' rest', Receives g done rest D b.contents.length s' (ret, code) done' rest') := by
  obtain ⟨ret, b', code, hparse, hok, hsz, hst, hparsed⟩ := exists_parsed h hlt hsize hg hD hp
  rw [recvCodeByFindHead, hfill]
  dsimp only
  rw [if_neg (by omega), hparse]
  dsimp only
  cases hparsed with
  | wait hplaced hleft hlen =>
    rw [if_neg (by simp)]
    refine ⟨_, _, _, rfl, fun hmove => ?_⟩
    obtain ⟨h1, h2, h3, h4, h5⟩ := hok.rearrange_straight hst hm (hmove rfl)
    exact ⟨done, rest, ⟨h1, h3.trans (hsz.trans hsize), h5, fun _ => h4, by simp⟩, rfl, by simp [received],
      by rwa [h2], fun _ => by rwa [h2], by simpa [h2] using hlen⟩
  | @frame p rest' hrest hpos hplaced hlen =>
    rw [if_pos ⟨hpos, p.pos⟩]
    refine ⟨_, _, _, rfl, fun _ => ?_⟩
    refine ⟨done ++ [p], rest', ⟨hok, hsz.trans hsize, hst, ?_, ?_⟩, by rw [hrest]; simp, by simp [received],
      hplaced, ?_, ?_⟩
    · intro hflag
      exact (hok.empty (by simpa using hflag)).1
    · intro hflag
      exact Nat.pos_of_ne_zero (by simpa using hflag)
    · intro hflag
      have hnil : b'.contents = [] := by
        rw [← List.length_eq_zero_iff, hok.length_contents]
        simpa using hflag
      rw [hrest, ← List.singleton_append, ← List.append_assoc] at hD
      rw [hnil] at hplaced ⊢
      exact hplaced.left_nil (by simp) hD
    · dsimp only
      split <;> omega

end CSocket

structure Incoming where
  socket : CSocket
  wire : List ReadAnswer

namespace Incoming

open CSocket

def start (reads : List ReadAnswer) : Incoming := ⟨CSocket.connected, reads⟩

def Step (memcpy : TBuffer.Memcpy) (i : Incoming) (e : ℤ × List UInt8) (i' : Incoming) : Prop :=
  i.socket.recvCodeByFindHead memcpy i.wire = some (e.1, e.2, i'.socket, i'.wire)

/-- A call in which `rearrange`, if it is reached, does not copy between overlapping areas, or `memcpy`
copes with it. -/
def MoveStep (memcpy : TBuffer.Memcpy) (i : Incoming) (e : ℤ × List UInt8) (i' : Incoming) : Prop :=
  Step memcpy i e i' ∧ (0 < (i.socket.fill i.wire).1 → e.1 = -2 →
    TBuffer.Movable memcpy (parse (i.socket.fill i.wire).2.1).2.1)

structure Tracks (g : List UInt8) (done rest : List Payload) (D : List UInt8) (i : Incoming) : Prop where
  ok : i.socket.RecvOk
  chunks : Chunks i.wire
  placed : Placed g done D i.socket.pRecvMsgBuf.contents
  left : i.socket.recvBufHasMessage = false → Left g done rest D i.socket.pRecvMsgBuf.contents

def work (i : Incoming) : ℕ :=
  3 * cost i.wire + i.socket.pRecvMsgBuf.contents.length + if i.socket.recvBufHasMessage then 1 else 0

def Idle (i : Incoming) : Prop := i.wire = [] ∧ i.socket.recvBufHasMessage = false

lemma exists_step {memcpy : TBuffer.Memcpy} (hm : TBuffer.Conforms memcpy) {g D : List UInt8}
    {done rest : List Payload} {i : Incoming} (hg : Leads g (done ++ rest)) (h : Tracks g done rest D i)
    (hD : D ++ delivers i.wire <+: g ++ frames (done ++ rest)) :
    ∃ e i', Step memcpy i e i' ∧ (MoveStep memcpy i e i' →
      ∃ D' done' rest', Tracks g done' rest' D' i' ∧ D' ++ delivers i'.wire = D ++ delivers i.wire ∧
        done ++ rest = done' ++ rest' ∧ done'.map Payload.content = done.map Payload.content ++ received [e] ∧
        (i.Idle ∧ i'.Idle ∨ ¬i.Idle ∧ work i' < work i)) := by
  have hD' : D <+: g ++ frames (done ++ rest) := (List.prefix_append _ _).trans hD
  have hok := h.ok
  cases hflag : i.socket.recvBufHasMessage with
  | true =>
    have hfill : i.socket.fill i.wire = (1, i.socket.pRecvMsgBuf, i.wire) := by rw [fill, if_pos hflag]
    have hpos := hok.busy hflag
    obtain ⟨ret, code, s', hrecv, hkeeps⟩ := recv_parsed hm hfill one_pos hok.buffer
      (hok.straight.resolve_right hpos.ne') hok.size hg hD' h.placed
    refine ⟨(ret, code), ⟨s', i.wire⟩, hrecv, fun hmove => ?_⟩
    have hmove' := hmove.2
    rw [hfill] at hmove'
    obtain ⟨done', rest', hr⟩ := hkeeps (hmove' one_pos)
    refine ⟨D, done', rest', ⟨hr.ok, h.chunks, hr.placed, hr.left⟩, rfl, hr.split, hr.codes, .inr ⟨?_, ?_⟩⟩
    · intro hidle
      exact absurd (hflag.symm.trans hidle.2) (by decide)
    have hwork := hr.work
    rw [work, work, hflag, if_pos rfl]
    dsimp only
    omega
  | false =>
    have hlen := (h.left hflag).length_lt
    have hfree : 0 < i.socket.pRecvMsgBuf.freeLength := by
      have h1 := hok.buffer.length_contents
      have h2 := hok.buffer.sum
      have h3 := hok.size
      omega
    have hfilled := hok.filled hflag hfree h.chunks
    generalize hfill : i.socket.fill i.wire = out at hfilled
    cases hfilled with
    | @none ret wire' hret hc' hdel hcost =>
      refine ⟨(ret, []), ⟨i.socket, wire'⟩, ?_, fun _ => ?_⟩
      · rw [Step, recvCodeByFindHead, hfill]
        dsimp only
        rw [if_pos hret]
      · have hne : ret ≠ 1 := by omega
        refine ⟨D, done, rest, ⟨hok, hc', h.placed, h.left⟩, by rw [hdel], rfl, by simp [received, hne], ?_⟩
        rcases hcost with ⟨h1, h2⟩ | hlt
        · exact .inl ⟨⟨h1, hflag⟩, h2, hflag⟩
        · refine .inr ⟨fun hidle => ?_, ?_⟩
          · rw [hidle.1] at hlt
            exact absurd hlt (Nat.not_lt_zero _)
          rw [work, work]
          dsimp only
          omega
    | @some r b wire' new hr0 hne hb hsz hlt hcon hc' hdel hcost =>
      rw [hdel, ← List.append_assoc] at hD
      obtain ⟨ret, code, s', hrecv, hkeeps⟩ := recv_parsed hm hfill hr0 hb hlt (hsz.trans hok.size) hg
        ((List.prefix_append _ _).trans hD) (hcon ▸ h.placed.append new)
      refine ⟨(ret, code), ⟨s', wire'⟩, hrecv, fun hmove => ?_⟩
      have hmove' := hmove.2
      rw [hfill] at hmove'
      obtain ⟨done', rest', hr⟩ := hkeeps (hmove' hr0)
      refine ⟨D ++ new, done', rest', ⟨hr.ok, hc', hr.placed, hr.left⟩, by rw [hdel, List.append_assoc], hr.split,
        hr.codes, .inr ⟨fun hidle => ?_, ?_⟩⟩
      · rw [hidle.1] at hdel
        exact hne (List.append_eq_nil_iff.mp hdel.symm).1
      have hwork := hr.work
      have hpos := List.length_pos_iff.mpr hne
      rw [hcon, List.length_append] at hwork
      rw [work, work, hflag]
      dsimp only
      omega

lemma Step.unique {memcpy : TBuffer.Memcpy} {i i₁ i₂ : Incoming} {e₁ e₂ : ℤ × List UInt8} (h₁ : Step memcpy i e₁ i₁)
    (h₂ : Step memcpy i e₂ i₂) : e₁ = e₂ ∧ i₁ = i₂ := by
  rw [Step] at h₁ h₂
  obtain ⟨ret₁, code₁⟩ := e₁
  obtain ⟨ret₂, code₂⟩ := e₂
  obtain ⟨s₁, w₁⟩ := i₁
  obtain ⟨s₂, w₂⟩ := i₂
  cases h₁.symm.trans h₂
  exact ⟨rfl, rfl⟩

def Follows (g : List UInt8) (ps : List Payload) (reads : List ReadAnswer) (es : List (ℤ × List UInt8))
    (i : Incoming) : Prop :=
  ∃ D done rest, Tracks g done rest D i ∧ D ++ delivers i.wire = delivers reads ∧ ps = done ++ rest ∧
    received es = done.map Payload.content ∧ (i.Idle ∨ es.length + work i ≤ 3 * cost reads)

lemma left_start (g : List UInt8) (ps : List Payload) : Left g [] ps [] [] := by
  by_cases hg : g = []
  · exact .inl ⟨by simp [hg, frames], unfinished_of_le List.nil_prefix (Nat.zero_le _)⟩
  · exact .inr ⟨hg, rfl, Nat.zero_le _, Nat.zero_le _, 0, Nat.zero_le _, rfl⟩

lemma follows_start (g : List UInt8) (ps : List Payload) {reads : List ReadAnswer} (hc : Chunks reads) :
    Follows g ps reads [] (start reads) :=
  ⟨[], [], ps, ⟨⟨TBuffer.new_ok _, rfl, .inr rfl, fun _ => rfl, by simp [start, connected]⟩, hc,
    ⟨0, le_rfl, rfl, .inl ⟨rfl, Nat.zero_le _⟩⟩, fun _ => left_start g ps⟩, rfl, rfl, rfl, .inr (by
      simp [work, start, connected])⟩

lemma follows_run {memcpy : TBuffer.Memcpy} (hm : TBuffer.Conforms memcpy) {g : List UInt8} {ps : List Payload}
    (hg : Leads g ps) {reads : List ReadAnswer} (hc : Chunks reads) (hdata : delivers reads <+: g ++ frames ps)
    {es : List (ℤ × List UInt8)} {i : Incoming} (h : Run (MoveStep memcpy) (start reads) es i) :
    Follows g ps reads es i := by
  refine h.invariant (I := Follows g ps reads) (follows_start g ps hc) ?_
  rintro es i e i' ⟨D, done, rest, ht, hD, rfl, hrec, hwork⟩ hstep
  obtain ⟨e₀, i₀, hstep₀, hkeeps⟩ := exists_step hm hg ht (by rwa [hD])
  obtain ⟨rfl, rfl⟩ := hstep.1.unique hstep₀
  obtain ⟨D', done', rest', ht', hD', hsplit, hcodes, hless⟩ := hkeeps hstep
  refine ⟨D', done', rest', ht', hD'.trans hD, hsplit, ?_, ?_⟩
  · rw [hcodes, ← hrec, received, received, received, List.filterMap_append]
  · rcases hless with ⟨-, hidle⟩ | ⟨hbusy, hlt⟩
    · exact .inl hidle
    · right
      have hle := hwork.resolve_left hbusy
      rw [List.length_append, List.length_singleton]
      omega

lemma left_complete {g c : List UInt8} {done rest : List Payload}
    (h : Left g done rest (g ++ frames (done ++ rest)) c) : rest = [] := by
  cases rest with
  | nil => rfl
  | cons p rest =>
    have hp := p.lt_length_frame
    have hlen : p.frame.length ≤ (frames (p :: rest)).length := by
      rw [frames_cons, List.length_append]
      omega
    rcases h with ⟨heq, hu⟩ | ⟨-, rfl, hle, -⟩
    · rw [frames_append, ← List.append_assoc, List.append_cancel_left_eq] at heq
      have := hu.1
      rw [← heq] at this
      omega
    · rw [List.nil_append, List.length_append] at hle
      omega

theorem frames_received {memcpy : TBuffer.Memcpy} (hm : TBuffer.Conforms memcpy) {g : List UInt8} {ps : List Payload}
    (hg : Leads g ps) {reads : List ReadAnswer} (hc : Chunks reads) (hdata : delivers reads <+: g ++ frames ps)
    {es : List (ℤ × List UInt8)} {i : Incoming} (h : Run (MoveStep memcpy) (start reads) es i) :
    (∃ D done rest, D ++ delivers i.wire = delivers reads ∧ ps = done ++ rest ∧
      received es = done.map Payload.content ∧
      (i.socket.recvBufHasMessage = false → Left g done rest D i.socket.pRecvMsgBuf.contents)) ∧
    (∃ e i', Step memcpy i e i') ∧
    (delivers reads = g ++ frames ps → 3 * cost reads < es.length → received es = ps.map Payload.content) := by
  obtain ⟨D, done, rest, ht, hD, rfl, hrec, hwork⟩ := follows_run hm hg hc hdata h
  refine ⟨⟨D, done, rest, hD, rfl, hrec, ht.left⟩, ?_, fun hall hcalls => ?_⟩
  · obtain ⟨e, i', hstep, -⟩ := exists_step hm hg ht (by rwa [hD])
    exact ⟨e, i', hstep⟩
  · obtain ⟨hwire, hflag⟩ := hwork.resolve_right (by omega)
    have hleft := ht.left hflag
    rw [hwire, hall, show delivers [] = [] from rfl, List.append_nil] at hD
    rw [hD] at hleft
    rw [hrec, left_complete hleft, List.append_nil]

lemma conforms_copied : TBuffer.Conforms TBuffer.copied := fun _ _ _ _ _ _ _ => rfl

lemma exists_run {g : List UInt8} {ps : List Payload} (hg : Leads g ps) {reads : List ReadAnswer} (hc : Chunks reads)
    (hdata : delivers reads <+: g ++ frames ps) (n : ℕ) :
    ∃ es i, es.length = n ∧ Run (MoveStep TBuffer.copied) (start reads) es i := by
  induction n with
  | zero => exact ⟨[], _, rfl, .nil⟩
  | succ n ih =>
    obtain ⟨es, i, hlen, hrun⟩ := ih
    obtain ⟨D, done, rest, ht, hD, rfl, -⟩ := follows_run conforms_copied hg hc hdata hrun
    obtain ⟨e, i', hstep, -⟩ := exists_step conforms_copied hg ht (by rwa [hD])
    exact ⟨es ++ [e], i', by rw [List.length_append, hlen]; rfl, .snoc hrun ⟨hstep, fun _ _ => .inr rfl⟩⟩

def seven : Payload := ⟨[7], by decide, by decide⟩

theorem frame_received_split :
    ∃ es i, Run (MoveStep TBuffer.copied) (start [.data (9 :: seven.frame.take 3), .data (seven.frame.drop 3)]) es i ∧
      received es = [[7]] := by
  have hg : Leads [9] [seven] := by unfold Leads; decide
  have hc : Chunks [.data (9 :: seven.frame.take 3), .data (seven.frame.drop 3)] := by unfold Chunks; decide
  have hdata : delivers [.data (9 :: seven.frame.take 3), .data (seven.frame.drop 3)] = [9] ++ frames [seven] := by
    decide
  obtain ⟨es, i, hlen, hrun⟩ := exists_run hg hc (hdata ▸ List.prefix_rfl) 100
  refine ⟨es, i, hrun, ?_⟩
  exact (frames_received conforms_copied hg hc (hdata ▸ List.prefix_rfl) hrun).2.2 hdata (by rw [hlen]; decide)

theorem garbage_kept :
    Leads [9] [seven] ∧ Chunks [.data [9]] ∧ delivers [.data [9]] <+: [9] ++ frames [seven] ∧
      ∃ i, Run (MoveStep TBuffer.copied) (start [.data [9]]) [(-2, [])] i ∧ i.Idle ∧
        i.socket.pRecvMsgBuf.contents = [9] ∧ ¬[9] <+: seven.frame := by
  refine ⟨by unfold Leads; decide, by unfold Chunks; decide, by decide, ?_⟩
  obtain ⟨b, hfill, hb, hlt, hsize, hcon⟩ := exists_fill (c := [9]) (by simp) (by decide)
  obtain ⟨s', hrecv, hflag, hkept⟩ := recv_short conforms_copied hfill one_pos hb hlt hsize (by rw [hcon]; decide)
  have hstep : MoveStep TBuffer.copied (start [.data [9]]) (-2, []) ⟨s', []⟩ := ⟨hrecv, fun _ _ => .inr rfl⟩
  exact ⟨⟨s', []⟩, .cons hstep .nil, ⟨rfl, hflag⟩, by rw [hkept (.inr rfl), hcon], by decide⟩

end Incoming

end Xframe.Comserv
