import Xframe.Lib.Base128
import Xframe.Msg.UniNetMsg

/-! Packing and parsing of `CMqttMsg` (`mqttmsg.C`). -/

namespace Xframe.Facility

open Xframe.Lib.Base128 Xframe.Msg

namespace MqttMsg

def appendLength (length : ℕ) : List UInt8 :=
  if 0 < length / 128 then UInt8.ofNat (length % 128 + 128) :: appendLength (length / 128)
  else [UInt8.ofNat (length % 128)]
termination_by length
decreasing_by omega

def pack (packetType : ℕ) (body : List UInt8) (flags : ℕ) : List UInt8 :=
  UInt8.ofNat (packetType * 16 + flags) :: (appendLength body.length ++ body)

def packEmpty (packetType : ℕ) : List UInt8 := [UInt8.ofNat (packetType * 16), 0]

/-- The loop of `parseLength`. Behind the last byte of a buffer stands its terminating zero, which the
check `length < 0` lets it read. -/
def parseLengthLoop : ℕ → List UInt8 → ℤ → ℕ → ℕ → Option (ℤ × List UInt8 × ℤ)
  | 0, _, _, _, _ => none
  | fuel + 1, content, length, multiplier, value =>
    if length < 0 then some (-2, content, length)
    else
      let encodedByte := (content.headD 0).toNat
      let value := value + encodedByte % 128 * multiplier
      if 128 * 128 * 128 < multiplier * 128 then some (-1, content.tail, length - 1)
      else if 128 ≤ encodedByte then parseLengthLoop fuel content.tail (length - 1) (multiplier * 128) value
      else some (value, content.tail, length - 1)

def parseLength (content : List UInt8) (length : ℤ) : Option (ℤ × List UInt8 × ℤ) :=
  parseLengthLoop 4 content length 1 0

lemma appendLength_small {n : ℕ} (h : n < 128) : appendLength n = [UInt8.ofNat n] := by
  rw [appendLength, if_neg (by omega), Nat.mod_eq_of_lt h]

lemma appendLength_step {n : ℕ} (h : 128 ≤ n) :
    appendLength n = UInt8.ofNat (n % 128 + 128) :: appendLength (n / 128) := by
  rw [appendLength, if_pos (by omega)]

lemma appendLength_ne_nil (n : ℕ) : appendLength n ≠ [] := by
  rw [appendLength]
  split <;> simp

lemma toNat_last {n : ℕ} (h : n < 128) : (UInt8.ofNat n).toNat = n := by
  rw [UInt8.toNat_ofNat']
  omega

lemma toNat_more (n : ℕ) : (UInt8.ofNat (n % 128 + 128)).toNat = n % 128 + 128 := by
  rw [UInt8.toNat_ofNat']
  omega

lemma appendLength_group (n : ℕ) : Group (appendLength n) ∧ value (appendLength n) = n := by
  induction n using Nat.strongRecOn with
  | ind n ih =>
    by_cases hn : n < 128
    · rw [appendLength_small hn, value, value, toNat_last hn, Nat.mod_eq_of_lt hn]
      exact ⟨.last (by rw [toNat_last hn]; exact hn), rfl⟩
    · obtain ⟨hg, hv⟩ := ih (n / 128) (by omega)
      rw [appendLength_step (by omega), value, toNat_more, hv]
      exact ⟨.more (by rw [toNat_more]; omega) hg, by omega⟩

lemma length_appendLength_le {n k : ℕ} (hn : n < 128 ^ (k + 1)) : (appendLength n).length ≤ k + 1 := by
  induction k generalizing n with
  | zero =>
    rw [appendLength_small (by simpa using hn)]
    rfl
  | succ k ih =>
    by_cases hs : n < 128
    · rw [appendLength_small hs]
      exact Nat.le_add_left 1 _
    · rw [appendLength_step (by omega), List.length_cons]
      apply Nat.succ_le_succ
      apply ih
      rw [Nat.div_lt_iff_lt_mul (by omega)]
      rwa [pow_succ] at hn

section Loop

variable {m v f : ℕ} {l : ℤ} {b : UInt8} {ms : List UInt8}

lemma multiplier_le {k : ℕ} (hm : m * 128 ^ (k + 1) ≤ 128 ^ 3) : ¬128 * 128 * 128 < m * 128 := by
  have hpos : 128 ≤ 128 ^ (k + 1) := Nat.le_self_pow (by omega) 128
  have hle := (Nat.mul_le_mul_left m hpos).trans hm
  norm_num at hle ⊢
  omega

lemma parseLengthLoop_skip (hms : ∀ b ∈ ms, 128 ≤ b.toNat) (hm : m * 128 ^ ms.length ≤ 128 ^ 3) (hl : 0 ≤ l)
    (rest : List UInt8) :
    parseLengthLoop (f + ms.length) (ms ++ rest) (l + ms.length) m v =
      parseLengthLoop f rest l (m * 128 ^ ms.length) (v + value ms * m) := by
  induction ms generalizing m v with
  | nil => simp [value]
  | cons b ms ih =>
    have hnext : m * 128 * 128 ^ ms.length ≤ 128 ^ 3 := by
      rw [List.length_cons, pow_succ'] at hm
      rwa [mul_assoc]
    have hstep : parseLengthLoop (f + ms.length + 1) (b :: (ms ++ rest)) (l + ms.length + 1) m v =
        parseLengthLoop (f + ms.length) (ms ++ rest) (l + ms.length) (m * 128) (v + b.toNat % 128 * m) := by
      rw [parseLengthLoop, if_neg (by omega)]
      simp only [List.headD_cons, List.tail_cons, if_neg (multiplier_le hm), add_sub_cancel_right]
      exact if_pos (hms b List.mem_cons_self)
    have hv : v + b.toNat % 128 * m + value ms * (m * 128) = v + value (b :: ms) * m := by
      rw [value]
      ring
    rw [List.length_cons, Nat.cast_succ, ← add_assoc, ← add_assoc, List.cons_append, hstep,
      ih (fun c hc => hms c (List.mem_cons_of_mem _ hc)) hnext, hv, pow_succ', mul_assoc]

lemma parseLengthLoop_stop (hm : ¬128 * 128 * 128 < m * 128) (hb : b.toNat < 128) (hl : 0 ≤ l) (rest : List UInt8) :
    parseLengthLoop (f + 1) (b :: rest) (l + 1) m v = some (((v + b.toNat * m : ℕ) : ℤ), rest, l) := by
  rw [parseLengthLoop, if_neg (by omega)]
  simp only [List.headD_cons, List.tail_cons, Nat.mod_eq_of_lt hb, if_neg hm, add_sub_cancel_right]
  exact if_neg (by omega)

lemma multiplier_at {k : ℕ} (h : k ≤ 2) : ¬128 * 128 * 128 < 128 ^ k * 128 := by
  rw [← pow_succ, not_lt]
  exact Nat.pow_le_pow_right (by omega) (by omega : k + 1 ≤ 3)

lemma multiplier_upto {k : ℕ} (h : k ≤ 3) : 1 * 128 ^ k ≤ 128 ^ 3 := by
  rw [one_mul]
  exact Nat.pow_le_pow_right (by omega) h

end Loop

lemma parseLength_group {g : List UInt8} {l : ℤ} (hg : Group g) (h3 : g.length ≤ 3) (hl : 0 ≤ l) (rest : List UInt8) :
    parseLength (g ++ rest) (l + g.length) = some (((value g : ℕ) : ℤ), rest, l) := by
  obtain ⟨ms, b, rfl, hms, hb⟩ := hg.split
  rw [List.length_append, List.length_singleton] at h3
  have hfuel : 4 = 3 - ms.length + 1 + ms.length := by omega
  have hlen : l + ((ms ++ [b]).length : ℕ) = l + 1 + ms.length := by
    rw [List.length_append, List.length_singleton, Nat.cast_add, Nat.cast_one]
    ring
  have hv : 0 + value ms * 1 + b.toNat * 128 ^ ms.length = value (ms ++ [b]) := by
    rw [value_append, value, value, Nat.mod_eq_of_lt hb]
    ring
  rw [parseLength, hfuel, hlen, List.append_assoc, parseLengthLoop_skip hms (multiplier_upto (by omega)) (by omega),
    List.singleton_append, one_mul, parseLengthLoop_stop (multiplier_at (by omega)) hb hl, hv]

lemma parseLength_refused {a b c : UInt8} {l : ℤ} (ha : 128 ≤ a.toNat) (hb : 128 ≤ b.toNat) (hc : 128 ≤ c.toNat)
    (hl : 3 ≤ l) (rest : List UInt8) : parseLength (a :: b :: c :: rest) l = some (-1, rest.tail, l - 4) := by
  have hms : ∀ x ∈ [a, b, c], 128 ≤ x.toNat := by simp [ha, hb, hc]
  have hskip := @parseLengthLoop_skip 1 0 1 (l - 3) _ hms (by norm_num) (by omega) rest
  rw [show l - 3 + ([a, b, c].length : ℕ) = l by simp] at hskip
  refine hskip.trans ?_
  rw [parseLengthLoop, if_neg (by omega)]
  refine (if_pos (by norm_num)).trans ?_
  rw [show l - 3 - 1 = l - 4 by ring]

lemma parseLength_behind {n : ℕ} (hn : n < 2 ^ 21) (rest : List UInt8) {l : ℤ} (hl : 0 ≤ l) :
    parseLength (appendLength n ++ rest) (l + (appendLength n).length) = some ((n : ℤ), rest, l) := by
  obtain ⟨hg, hv⟩ := appendLength_group n
  have h3 : (appendLength n).length ≤ 2 + 1 := length_appendLength_le (by norm_num at hn ⊢; exact hn)
  rw [parseLength_group hg h3 hl, hv]

lemma parseLength_append {n : ℕ} (hn : n < 2 ^ 21) (rest : List UInt8) :
    parseLength (appendLength n ++ rest) ((appendLength n ++ rest).length : ℕ) =
      some ((n : ℤ), rest, ((rest.length : ℕ) : ℤ)) := by
  rw [List.length_append, Nat.cast_add, add_comm]
  exact parseLength_behind hn rest (by omega)

lemma parseLength_over {ms : List UInt8} (hms : ∀ b ∈ ms, 128 ≤ b.toNat) (h2 : ms.length ≤ 2) (rest : List UInt8) :
    ∃ v, parseLength (ms ++ rest) (ms.length : ℕ) = parseLengthLoop (4 - ms.length) rest 0 (128 ^ ms.length) v := by
  have hskip := @parseLengthLoop_skip 1 0 (4 - ms.length) 0 _ hms (multiplier_upto (by omega)) le_rfl rest
  rw [Nat.sub_add_cancel (by omega), zero_add, one_mul] at hskip
  exact ⟨_, hskip⟩

lemma parseLength_partial {n : ℕ} (hn : n < 2 ^ 21) {r : List UInt8} (hr : r <+: appendLength n)
    (hlt : r.length < (appendLength n).length) :
    ∃ w : ℕ, parseLength r (r.length : ℕ) = some ((w : ℤ), [], -1) := by
  have h3 : (appendLength n).length ≤ 2 + 1 := length_appendLength_le (by norm_num at hn ⊢; exact hn)
  have h2 : r.length ≤ 2 := by omega
  obtain ⟨v, hv⟩ := parseLength_over ((appendLength_group n).1.more_before hr hlt) h2 []
  rw [List.append_nil] at hv
  have hfuel : 4 - r.length = 3 - r.length + 1 := by omega
  refine ⟨v, hv.trans ?_⟩
  rw [hfuel, parseLengthLoop, if_neg (by omega)]
  simp [multiplier_at h2]

lemma parseLength_long {n : ℕ} (hn : 2 ^ 21 ≤ n) (rest : List UInt8) :
    ∃ p m, 0 ≤ m ∧ parseLength (appendLength n ++ rest) ((appendLength n ++ rest).length : ℕ) = some (-1, p, m) := by
  have h1 : 128 ≤ n / 128 := by omega
  have h2 : 128 ≤ n / 128 / 128 := by omega
  have hpos := List.length_pos_iff.mpr (appendLength_ne_nil (n / 128 / 128 / 128))
  have hmore (k : ℕ) : 128 ≤ (UInt8.ofNat (k % 128 + 128)).toNat := by
    rw [toNat_more]
    omega
  rw [appendLength_step (by omega), appendLength_step h1, appendLength_step h2]
  simp only [List.cons_append, List.length_cons, Nat.cast_succ]
  refine ⟨_, _, ?_, parseLength_refused (hmore _) (hmore _) (hmore _) (by omega) _⟩
  rw [List.length_append]
  omega

/-! ### Fields of a packet body -/

structure Cursor where
  p : List UInt8
  length : ℤ
  deriving DecidableEq

def cString (str : CStr) : CStr := str.takeWhile (· ≠ 0)

def appendShort (value : ℤ) : List UInt8 :=
  [UInt8.ofNat ((value % 65536).toNat / 256), UInt8.ofNat ((value % 65536).toNat % 256)]

def appendStr (str : CStr) : List UInt8 := appendShort (cString str).length ++ cString str

def shortAt (p : List UInt8) : ℕ := (p.headD 0).toNat * 256 + (p.tail.headD 0).toNat

def parseByte (c : Cursor) : Option (ℕ × Cursor) :=
  if c.length < 1 then none else some ((c.p.headD 0).toNat, ⟨c.p.tail, c.length - 1⟩)

def parseShort (c : Cursor) : Option (ℕ × Cursor) :=
  if c.length < 2 then none else some (shortAt c.p, ⟨c.p.drop 2, c.length - 2⟩)

/-- The two bytes of the string's length are not counted when it is compared with `length`. -/
def parseString (c : Cursor) : Option (CStr × Cursor) :=
  if c.length < 2 then none
  else if c.length < shortAt c.p then none
  else some (List.takeD (shortAt c.p) (c.p.drop 2) 0,
    ⟨(c.p.drop 2).drop (shortAt c.p), c.length - 2 - shortAt c.p⟩)

lemma parseByte_shorter {c c' : Cursor} {b : ℕ} (h : parseByte c = some (b, c')) : c'.length < c.length := by
  rw [parseByte] at h
  split at h
  · cases h
  · obtain ⟨-, rfl⟩ := Prod.mk.inj (Option.some.inj h)
    exact sub_one_lt _

lemma parseString_shorter {c c' : Cursor} {s : CStr} (h : parseString c = some (s, c')) :
    c'.length < c.length := by
  rw [parseString] at h
  split at h
  · cases h
  · split at h
    · cases h
    · obtain ⟨-, rfl⟩ := Prod.mk.inj (Option.some.inj h)
      change c.length - 2 - _ < c.length
      omega

namespace Cursor

def start (p : List UInt8) : Cursor := ⟨p, (p.length : ℕ)⟩

end Cursor

section Fields

variable (rest : List UInt8)

lemma shortAt_append (value : ℤ) : shortAt (appendShort value ++ rest) = (value % 65536).toNat := by
  have hlt : (value % 65536).toNat < 65536 := by omega
  simp only [shortAt, appendShort, List.cons_append, List.headD_cons, List.tail_cons, UInt8.toNat_ofNat']
  omega

lemma drop_appendShort (value : ℤ) : (appendShort value ++ rest).drop 2 = rest := rfl

lemma length_appendShort (value : ℤ) : (appendShort value).length = 2 := rfl

lemma parseByte_cons (b : UInt8) : parseByte (.start (b :: rest)) = some (b.toNat, .start rest) := by
  simp [parseByte, Cursor.start]

lemma parseShort_append (value : ℤ) :
    parseShort (.start (appendShort value ++ rest)) = some ((value % 65536).toNat, .start rest) := by
  rw [parseShort, if_neg (by simp [Cursor.start, length_appendShort]; omega)]
  simp only [Cursor.start, shortAt_append, drop_appendShort, List.length_append, length_appendShort]
  congr 3
  omega

lemma parseString_append (str : CStr) :
    parseString (.start (appendStr str ++ rest)) =
      some ((cString str).take ((cString str).length % 65536),
        .start ((cString str).drop ((cString str).length % 65536) ++ rest)) := by
  have hle : (cString str).length % 65536 ≤ (cString str).length := Nat.mod_le _ _
  have hat : ((((cString str).length : ℕ) : ℤ) % 65536).toNat = (cString str).length % 65536 := by omega
  rw [parseString, appendStr, List.append_assoc]
  simp only [Cursor.start, shortAt_append, drop_appendShort, List.length_append, length_appendShort, hat]
  rw [if_neg (by omega), if_neg (by omega), List.takeD_eq_take _ (by simp; omega),
    List.take_append_of_le_length hle, List.drop_append_of_le_length hle]
  simp only [List.length_drop]
  congr 3
  omega

end Fields

lemma length_cString_le (str : CStr) : (cString str).length ≤ str.length :=
  (List.takeWhile_prefix _).length_le

structure Field (str : CStr) : Prop where
  noNul : ∀ b ∈ str, b ≠ 0
  short : str.length < 65536

lemma cString_eq {str : CStr} (h : ∀ b ∈ str, b ≠ 0) : cString str = str := by
  induction str with
  | nil => rfl
  | cons b str ih =>
    rw [cString, List.takeWhile_cons_of_pos (by simpa using h b (by simp))]
    exact congrArg (b :: ·) (ih fun c hc => h c (by simp [hc]))

lemma Field.parseString {str : CStr} (h : Field str) (rest : List UInt8) :
    parseString (.start (appendStr str ++ rest)) = some (str, .start rest) := by
  rw [parseString_append, cString_eq h.noNul, Nat.mod_eq_of_lt h.short, List.take_length, List.drop_length,
    List.nil_append]

lemma field_of_take {str : CStr} (h : (cString str).take ((cString str).length % 65536) = str) : Field str := by
  have hle := length_cString_le str
  have hlen := congrArg List.length h
  rw [List.length_take] at hlen
  have hmod := Nat.mod_lt (cString str).length (show 0 < 65536 by decide)
  have heq : cString str = str :=
    (List.takeWhile_prefix _).eq_of_length (by
      change (cString str).length = _
      have := Nat.mod_le (cString str).length 65536
      omega)
  refine ⟨fun b hb => ?_, by omega⟩
  rw [← heq] at hb
  exact of_decide_eq_true (List.all_eq_true.mp List.all_takeWhile b hb)

end MqttMsg

end Xframe.Facility
