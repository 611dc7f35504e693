import Xframe.Comserv.BufferCallbacks
import Xframe.Comserv.SocketSend

/-! What one offer of the unsent bytes to the kernel leaves in `pSendMsgBuf`. -/

namespace Xframe.Comserv

namespace SendResult

lemma takes_le (a : SendResult) (n : ℕ) : a.takes n ≤ n := by
  cases a with
  | wrote k => exact min_le_right _ _
  | closed => exact Nat.zero_le _
  | fail e => exact Nat.zero_le _

lemma result_le (a : SendResult) (n : ℕ) : a.result n ≤ n := by
  cases a with
  | wrote k =>
    rw [result]
    omega
  | closed => exact Int.natCast_nonneg n
  | fail e =>
    rw [result]
    omega

lemma result_of_takes {a : SendResult} {n : ℕ} (h : 0 < a.takes n) : a.result n = a.takes n := by
  cases a with
  | wrote k =>
    rw [result, takes]
    omega
  | closed => exact absurd h (lt_irrefl 0)
  | fail e => exact absurd h (lt_irrefl 0)

lemma takes_of_result {a : SendResult} {n : ℕ} (h : 0 < a.result n) : 0 < a.takes n := by
  cases a with
  | wrote k =>
    rw [result] at h
    rw [takes]
    omega
  | closed => exact absurd h (lt_irrefl 0)
  | fail e => exact absurd h (by rw [result]; omega)

lemma toNat_result (a : SendResult) (n : ℕ) : (a.result n).toNat = a.takes n := by
  cases a with
  | wrote k =>
    rw [result, takes]
    omega
  | closed => rfl
  | fail e => rfl

lemma fail_of_result {a : SendResult} {n : ℕ} (h : a.result n < 0) : ∃ e, a = .fail e := by
  cases a with
  | wrote k =>
    rw [result] at h
    omega
  | closed => exact absurd h (lt_irrefl 0)
  | fail e => exact ⟨e, rfl⟩

end SendResult

lemma Kernel.send_answer (k : Kernel) (bytes : List UInt8) (i : ℕ) :
    (k.send bytes).2.answer i = k.answer (i + 1) := by
  rw [answer, answer, send]
  cases k.answers with
  | nil => rfl
  | cons a as => rfl

namespace TBuffer

def Second (b : TBuffer) (k : Kernel) (n : ℕ) : Prop :=
  b.firstPiece n < n ∧ (k.answer 0).result (b.firstPiece n) = b.firstPiece n

instance (b : TBuffer) (k : Kernel) (n : ℕ) : Decidable (b.Second k n) := inferInstanceAs (Decidable (_ ∧ _))

def taken (b : TBuffer) (k : Kernel) (n : ℕ) : ℕ :=
  if b.Second k n then b.firstPiece n + (k.answer 1).takes (n - b.firstPiece n)
  else (k.answer 0).takes (b.firstPiece n)

def offers (b : TBuffer) (k : Kernel) (n : ℕ) : ℕ := if b.Second k n then 2 else 1

def Unbroken (b : TBuffer) (k : Kernel) (n : ℕ) : Prop :=
  b.Second k n → 0 < b.firstPiece n → 0 < (k.answer 1).takes (n - b.firstPiece n)

structure Drained (b : TBuffer) (k : Kernel) (n : ℕ) (out : ℤ × TBuffer × Kernel) : Prop where
  ok : out.2.1.Ok
  size : out.2.1.size = b.size
  sent : out.2.2.sent = k.sent ++ b.contents.take (b.taken k n)
  left : out.2.1.contents = b.contents.drop (b.taken k n)
  answers : out.2.2.answers = k.answers.drop (b.offers k n)
  ret : 0 < b.taken k n → out.1 = b.taken k n
  none : b.taken k n = 0 → out.1 ≤ 0
  errno : out.1 < 0 → k.answer 0 = .fail out.2.2.errno

variable {b : TBuffer} {k : Kernel} {n : ℕ}

lemma taken_le : b.taken k n ≤ n := by
  rw [taken]
  have h1 := (k.answer 0).takes_le (b.firstPiece n)
  have h2 := (k.answer 1).takes_le (n - b.firstPiece n)
  split
  · next h =>
    have := h.1
    omega
  · have hp : b.firstPiece n ≤ n := by
      rw [firstPiece]
      split
      · exact le_rfl
      · exact min_le_left _ _
    omega

lemma send_consumes : Consumes CSocket.sendBuffToSocket Kernel.sent where
  le k src n hn := by
    have hlen : (src.take n).length = n := by rw [List.length_take, min_eq_left hn]
    rw [CSocket.sendBuffToSocket, Kernel.send, hlen]
    exact SendResult.result_le _ _
  taken k src n hn := by
    have hlen : (src.take n).length = n := by rw [List.length_take, min_eq_left hn]
    rw [CSocket.sendBuffToSocket, Kernel.send, hlen]
    dsimp only
    rw [SendResult.toNat_result, List.take_take, min_eq_left (SendResult.takes_le _ _)]

lemma Ok.firstPop_send (h : b.Ok) (hn : n ≤ b.filledLength) :
    (b.firstPop CSocket.sendBuffToSocket k n).1 = (k.answer 0).result (b.firstPiece n) := by
  have hmem := h.firstPiece_le_memory hn
  rw [firstPop, CSocket.sendBuffToSocket, Kernel.send, List.length_take, min_eq_left hmem]

lemma Ok.popsOn_send (h : b.Ok) (hn : n ≤ b.filledLength) : b.PopsOn CSocket.sendBuffToSocket k n ↔ b.Second k n := by
  rw [PopsOn, Second, h.firstPop_send hn]

lemma Ok.secondPop_send (h : b.Ok) (hn : n ≤ b.filledLength) :
    (b.secondPop CSocket.sendBuffToSocket k n).1 = (k.answer 1).result (n - b.firstPiece n) := by
  have hmem : n - b.firstPiece n ≤ b.msgBuf.length := by
    have h1 := h.memory
    have h2 := h.sum
    omega
  rw [secondPop, CSocket.sendBuffToSocket, Kernel.send, List.length_take, min_eq_left hmem, firstPop,
    CSocket.sendBuffToSocket, Kernel.send_answer]

lemma Ok.popCount_send (h : b.Ok) (hn : n ≤ b.filledLength) :
    b.popCount CSocket.sendBuffToSocket k n = b.taken k n := by
  rw [popCount, taken, h.firstPop_send hn, h.secondPop_send hn, SendResult.toNat_result, SendResult.toNat_result]
  exact if_congr (h.popsOn_send hn) rfl rfl

lemma Ok.drained (h : b.Ok) (h0 : 0 < n) (hn : n ≤ b.filledLength) (hu : b.Unbroken k n) :
    b.Drained k n (b.readFromBuffer CSocket.sendBuffToSocket k n) := by
  have hb : ¬b.PopBroken CSocket.sendBuffToSocket k n := by
    rintro ⟨hon, hpos, hr⟩
    rw [h.secondPop_send hn] at hr
    have htakes := hu ((h.popsOn_send hn).mp hon) hpos
    rw [SendResult.result_of_takes htakes] at hr
    omega
  obtain ⟨hpopped, hresult⟩ := h.read send_consumes h0 hn hb
  rw [h.popCount_send hn] at hpopped
  rw [popResult] at hresult
  by_cases hs : b.Second k n
  · rw [if_pos ((h.popsOn_send hn).mpr hs)] at hresult
    obtain ⟨hret, hstate⟩ := Prod.ext_iff.mp hresult
    refine ⟨hpopped.ok, hpopped.size, hpopped.taken, hpopped.left, ?_, hpopped.ret, hpopped.none, ?_⟩
    · rw [hstate, offers, if_pos hs, ← List.drop_drop (i := 1) (j := 1), List.drop_one, List.drop_one]
      rfl
    · intro hneg
      rw [hret] at hneg
      exact absurd hneg (by omega)
  · rw [if_neg ((h.popsOn_send hn).not.mpr hs)] at hresult
    obtain ⟨hret, hstate⟩ := Prod.ext_iff.mp hresult
    refine ⟨hpopped.ok, hpopped.size, hpopped.taken, hpopped.left, ?_, hpopped.ret, hpopped.none, ?_⟩
    · rw [hstate, offers, if_neg hs, List.drop_one]
      rfl
    · intro hneg
      rw [hret, h.firstPop_send hn] at hneg
      obtain ⟨e, he⟩ := SendResult.fail_of_result hneg
      rw [hstate, firstPop, CSocket.sendBuffToSocket, Kernel.send]
      dsimp only
      rw [he, SendResult.errno]

end TBuffer

end Xframe.Comserv
