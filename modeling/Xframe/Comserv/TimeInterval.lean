import Xframe.Comserv.CStrInvariant

/-! Intervals between two times, as hours, minutes and seconds or as a difference. -/

namespace Xframe.Comserv

structure Timeval where
  tv_sec : ℤ
  tv_usec : ℤ
  deriving DecidableEq

structure TTimeFormatted where
  hour : ℤ
  minute : ℤ
  second : ℤ
  usec : ℤ
  deriving DecidableEq

/-- `time_t` has 64 bits. -/
def toTimeT (n : ℤ) : ℤ := (n + 2 ^ 63) % 2 ^ 64 - 2 ^ 63

def timeIntervalFormatted (timeInterval : ℤ) : TTimeFormatted :=
  let hour := toInt (timeInterval.tdiv 3600)
  let timeInterval := toTimeT (timeInterval - toInt (hour * 3600))
  let minute := toInt (timeInterval.tdiv 60)
  let second := toInt (timeInterval - toInt (minute * 60))
  { hour, minute, second, usec := 0 }

namespace Timeval

def timeIntervalFormatted (startTime endTime : Timeval) : TTimeFormatted :=
  let timeConverted := Comserv.timeIntervalFormatted (toTimeT (endTime.tv_sec - startTime.tv_sec))
  if startTime.tv_usec < endTime.tv_usec then
    { timeConverted with usec := toInt (endTime.tv_usec - startTime.tv_usec) }
  else
    { timeConverted with
      second := toInt (timeConverted.second - 1)
      usec := toInt (1000000 - (startTime.tv_usec - endTime.tv_usec)) }

def timevalDiff (time1 time2 : Timeval) : Timeval :=
  let tv_sec := toTimeT (time2.tv_sec - time1.tv_sec)
  let tv_usec := time2.tv_usec - time1.tv_usec
  if tv_usec < 0 then { tv_sec := toTimeT (tv_sec - 1), tv_usec := tv_usec + 1000000 } else { tv_sec, tv_usec }

structure IsTime (t : Timeval) : Prop where
  sec_ge : -2 ^ 63 ≤ t.tv_sec
  sec_lt : t.tv_sec < 2 ^ 63
  usec_nonneg : 0 ≤ t.tv_usec
  usec_lt : t.tv_usec < 1000000

def micros (t : Timeval) : ℤ := t.tv_sec * 1000000 + t.tv_usec

structure Exact (startTime endTime : Timeval) (t : TTimeFormatted) (d : Timeval) : Prop where
  minute : 0 ≤ t.minute ∧ t.minute < 60
  second : 0 ≤ t.second ∧ t.second < 60
  usec : 0 ≤ t.usec ∧ t.usec < 1000000
  total : (t.hour * 3600 + t.minute * 60 + t.second) * 1000000 + t.usec = endTime.micros - startTime.micros
  diff_usec : 0 ≤ d.tv_usec ∧ d.tv_usec < 1000000
  diff : d.micros = endTime.micros - startTime.micros

/-- The hours fit into an `int`, and where their seconds do not, the wraps around are a multiple of 60. -/
def HoursFit (seconds : ℤ) : Prop :=
  seconds / 3600 < 2 ^ 31 ∧ (seconds / 3600 * 3600 + 2 ^ 31) / 2 ^ 32 % 60 = 0

/-- The seconds to borrow from are there, and the microseconds differ. -/
def Borrows (startTime endTime : Timeval) : Prop :=
  startTime.tv_usec < endTime.tv_usec ∨
    endTime.tv_usec < startTime.tv_usec ∧ (endTime.tv_sec - startTime.tv_sec) % 60 ≠ 0

end Timeval

section Formatted

variable {n : ℤ}

lemma toInt_spec (n : ℤ) : ∃ k, toInt n = n - 2 ^ 32 * k ∧ -2 ^ 31 ≤ toInt n ∧ toInt n < 2 ^ 31 := by
  refine ⟨(n + 2 ^ 31) / 2 ^ 32, ?_⟩
  rw [toInt]
  omega

lemma toInt_sub_toInt (m n : ℤ) : toInt (m - toInt n) = toInt (m - n) := by
  rw [toInt, toInt, toInt]
  omega

lemma toTimeT_eq (h0 : -2 ^ 63 ≤ n) (h : n < 2 ^ 63) : toTimeT n = n := by
  rw [toTimeT]
  omega

def restSeconds (n : ℤ) : ℤ := n % 3600 + 2 ^ 32 * ((n / 3600 * 3600 + 2 ^ 31) / 2 ^ 32)

lemma formatted_hour (h0 : 0 ≤ n) (h : n / 3600 < 2 ^ 31) : (timeIntervalFormatted n).hour = n / 3600 := by
  rw [timeIntervalFormatted, Int.tdiv_eq_ediv_of_nonneg h0]
  exact CStrObject.toInt_eq (by omega) h

lemma formatted_rest (h0 : 0 ≤ n) (h : n / 3600 < 2 ^ 31) :
    toTimeT (n - toInt (toInt (n.tdiv 3600) * 3600)) = restSeconds n := by
  have hour : toInt (n.tdiv 3600) = n / 3600 := formatted_hour h0 h
  have hrest : n - toInt (n / 3600 * 3600) = restSeconds n := by
    rw [toInt, restSeconds]
    omega
  have hnonneg : 0 ≤ restSeconds n := by
    rw [restSeconds]
    omega
  have hlt : restSeconds n < 2 ^ 63 := by
    rw [restSeconds]
    omega
  rw [hour, hrest]
  exact toTimeT_eq (by omega) hlt

lemma formatted_minute (h0 : 0 ≤ n) (h : n / 3600 < 2 ^ 31) :
    (timeIntervalFormatted n).minute = toInt (restSeconds n / 60) := by
  have hnonneg : 0 ≤ restSeconds n := by
    rw [restSeconds]
    omega
  have hrest := formatted_rest h0 h
  rw [timeIntervalFormatted]
  simp only [hrest]
  rw [Int.tdiv_eq_ediv_of_nonneg hnonneg]

lemma formatted_second (h0 : 0 ≤ n) (h : n / 3600 < 2 ^ 31) :
    (timeIntervalFormatted n).second = restSeconds n % 60 := by
  have hminute := formatted_minute h0 h
  have hrest := formatted_rest h0 h
  rw [timeIntervalFormatted] at hminute ⊢
  simp only [hrest] at hminute ⊢
  rw [hminute, toInt_sub_toInt]
  obtain ⟨k, hk, -⟩ := toInt_spec (restSeconds n / 60)
  rw [hk, show restSeconds n - (restSeconds n / 60 - 2 ^ 32 * k) * 60 = restSeconds n % 60 + 2 ^ 32 * (60 * k) by omega]
  rw [toInt]
  omega

lemma minute_iff (n : ℤ) :
    toInt (restSeconds n / 60) = n % 3600 / 60 ↔ (n / 3600 * 3600 + 2 ^ 31) / 2 ^ 32 % 60 = 0 := by
  rw [toInt, restSeconds]
  omega

end Formatted

namespace Timeval

variable {startTime endTime : Timeval}

lemma timevalDiff_exact (hs : startTime.IsTime) (he : endTime.IsTime)
    (hlt : endTime.tv_sec - startTime.tv_sec < 2 ^ 63) (hle : startTime.micros ≤ endTime.micros) :
    0 ≤ (timevalDiff startTime endTime).tv_usec ∧ (timevalDiff startTime endTime).tv_usec < 1000000 ∧
      (timevalDiff startTime endTime).micros = endTime.micros - startTime.micros := by
  have hs0 := hs.usec_nonneg
  have hs1 := hs.usec_lt
  have he0 := he.usec_nonneg
  have he1 := he.usec_lt
  rw [micros, micros] at hle
  have hsec : toTimeT (endTime.tv_sec - startTime.tv_sec) = endTime.tv_sec - startTime.tv_sec :=
    toTimeT_eq (by omega) hlt
  rw [timevalDiff, hsec]
  split_ifs with hneg
  · rw [toTimeT_eq (by omega) (by omega), micros, micros, micros]
    dsimp only
    omega
  · rw [micros, micros, micros]
    dsimp only
    omega

lemma Exact.digits {t : TTimeFormatted} {d : Timeval} (h : Exact startTime endTime t d) (hs : startTime.IsTime)
    (he : endTime.IsTime) : ∃ n, t.hour = n / 3600 ∧ t.minute = n % 3600 / 60 ∧ t.second = n % 60 ∧
      (startTime.tv_usec ≤ endTime.tv_usec ∧ n = endTime.tv_sec - startTime.tv_sec ∧
          t.usec = endTime.tv_usec - startTime.tv_usec ∨
        endTime.tv_usec < startTime.tv_usec ∧ n = endTime.tv_sec - startTime.tv_sec - 1 ∧
          t.usec = endTime.tv_usec - startTime.tv_usec + 1000000) := by
  have hs0 := hs.usec_nonneg
  have hs1 := hs.usec_lt
  have he0 := he.usec_nonneg
  have he1 := he.usec_lt
  obtain ⟨hm0, hm1⟩ := h.minute
  obtain ⟨hs0', hs1'⟩ := h.second
  obtain ⟨hu0, hu1⟩ := h.usec
  have htotal := h.total
  rw [micros, micros] at htotal
  refine ⟨t.hour * 3600 + t.minute * 60 + t.second, by omega, by omega, by omega, ?_⟩
  omega

lemma formatted_digits {n : ℤ} (h0 : 0 ≤ n) (h : HoursFit n) :
    Comserv.timeIntervalFormatted n = { hour := n / 3600, minute := n % 3600 / 60, second := n % 60, usec := 0 } := by
  obtain ⟨hhours, hwraps⟩ := h
  have hsecond : restSeconds n % 60 = n % 60 := by
    rw [restSeconds]
    omega
  rw [TTimeFormatted.mk.injEq (Comserv.timeIntervalFormatted n).hour]
  refine ⟨formatted_hour h0 hhours, ?_, (formatted_second h0 hhours).trans hsecond, rfl⟩
  rw [formatted_minute h0 hhours]
  exact (minute_iff n).mpr hwraps

lemma formatted_exact (hs : startTime.IsTime) (he : endTime.IsTime) (h0 : 0 ≤ endTime.tv_sec - startTime.tv_sec)
    (hle : startTime.micros ≤ endTime.micros) (hborrows : Borrows startTime endTime)
    (hfit : HoursFit (endTime.tv_sec - startTime.tv_sec)) :
    Exact startTime endTime (timeIntervalFormatted startTime endTime) (timevalDiff startTime endTime) := by
  have hs0 := hs.usec_nonneg
  have hs1 := hs.usec_lt
  have he0 := he.usec_nonneg
  have he1 := he.usec_lt
  have hhours := hfit.1
  have hlt : endTime.tv_sec - startTime.tv_sec < 2 ^ 63 := by omega
  obtain ⟨hdiff0, hdiff1, hdiff⟩ := timevalDiff_exact hs he hlt hle
  rw [timeIntervalFormatted, toTimeT_eq (by omega) hlt, formatted_digits h0 hfit]
  generalize hn : endTime.tv_sec - startTime.tv_sec = n at h0 hborrows ⊢
  split_ifs with hmore
  · rw [CStrObject.toInt_eq (by omega) (by omega)]
    refine ⟨by dsimp only; omega, by dsimp only; omega, by dsimp only; omega, ?_, ⟨hdiff0, hdiff1⟩, hdiff⟩
    rw [micros, micros]
    dsimp only
    omega
  · have hless : endTime.tv_usec < startTime.tv_usec ∧ n % 60 ≠ 0 := by
      rw [Borrows, hn] at hborrows
      exact hborrows.resolve_left hmore
    have hsecond : toInt (n % 60 - 1) = n % 60 - 1 := CStrObject.toInt_eq (by omega) (by omega)
    rw [hsecond, CStrObject.toInt_eq (by omega) (by omega)]
    refine ⟨by dsimp only; omega, by dsimp only; omega, by dsimp only; omega, ?_, ⟨hdiff0, hdiff1⟩, hdiff⟩
    rw [micros, micros]
    dsimp only
    omega

lemma Exact.hours {t : TTimeFormatted} {d : Timeval} (h : Exact startTime endTime t d) (hs : startTime.IsTime)
    (he : endTime.IsTime) (h0 : 0 ≤ endTime.tv_sec - startTime.tv_sec)
    (ht : t.hour = (timeIntervalFormatted startTime endTime).hour) :
    (endTime.tv_sec - startTime.tv_sec) / 3600 < 2 ^ 31 := by
  obtain ⟨n, hhour, -, -, hcase⟩ := h.digits hs he
  have hformatted : (timeIntervalFormatted startTime endTime).hour =
      toInt ((toTimeT (endTime.tv_sec - startTime.tv_sec)).tdiv 3600) := by
    rw [timeIntervalFormatted]
    split_ifs
    · rfl
    · rfl
  obtain ⟨k, hk, -, hsmall⟩ := toInt_spec ((toTimeT (endTime.tv_sec - startTime.tv_sec)).tdiv 3600)
  have hlt : endTime.tv_sec - startTime.tv_sec < 2 ^ 63 := by
    omega
  rw [toTimeT_eq (by omega) hlt, Int.tdiv_eq_ediv_of_nonneg h0] at hk hformatted hsmall
  omega

theorem interval_exact_iff (hs : startTime.IsTime) (he : endTime.IsTime) (hle : startTime.micros ≤ endTime.micros) :
    Exact startTime endTime (timeIntervalFormatted startTime endTime) (timevalDiff startTime endTime) ↔
      Borrows startTime endTime ∧ HoursFit (endTime.tv_sec - startTime.tv_sec) := by
  have hs0 := hs.usec_nonneg
  have hs1 := hs.usec_lt
  have he0 := he.usec_nonneg
  have he1 := he.usec_lt
  have hnonneg : 0 ≤ endTime.tv_sec - startTime.tv_sec := by
    rw [micros, micros] at hle
    omega
  constructor
  · intro h
    have hhours := h.hours hs he hnonneg rfl
    obtain ⟨n, -, hminute, hsecond, hcase⟩ := h.digits hs he
    have htime := toTimeT_eq (n := endTime.tv_sec - startTime.tv_sec) (by omega) (by omega)
    rw [timeIntervalFormatted, htime] at hminute hsecond hcase
    have hm := formatted_minute hnonneg hhours
    have hsec := formatted_second hnonneg hhours
    have hsmall := Int.emod_lt_of_pos (restSeconds (endTime.tv_sec - startTime.tv_sec)) (show (0 : ℤ) < 60 by decide)
    have hpos := Int.emod_nonneg (restSeconds (endTime.tv_sec - startTime.tv_sec)) (show (60 : ℤ) ≠ 0 by decide)
    split_ifs at hminute hsecond hcase with hmore
    · have hn : n = endTime.tv_sec - startTime.tv_sec := by omega
      refine ⟨Or.inl hmore, hhours, (minute_iff _).mp ?_⟩
      rw [← hm, ← hn]
      rwa [← hn] at hminute
    · have hsec' : toInt ((Comserv.timeIntervalFormatted (endTime.tv_sec - startTime.tv_sec)).second - 1) =
          restSeconds (endTime.tv_sec - startTime.tv_sec) % 60 - 1 := by
        rw [hsec]
        exact CStrObject.toInt_eq (by omega) (by omega)
      have husec : toInt (1000000 - (startTime.tv_usec - endTime.tv_usec)) =
          1000000 - (startTime.tv_usec - endTime.tv_usec) := CStrObject.toInt_eq (by omega) (by omega)
      have hn : n = endTime.tv_sec - startTime.tv_sec - 1 ∧ endTime.tv_usec < startTime.tv_usec := by
        dsimp only at hcase
        omega
      have hborrow : (endTime.tv_sec - startTime.tv_sec) % 60 ≠ 0 := by
        dsimp only at hsecond
        omega
      refine ⟨Or.inr ⟨hn.2, hborrow⟩, hhours, (minute_iff _).mp ?_⟩
      rw [← hm]
      dsimp only at hminute
      omega
  · rintro ⟨hborrows, hfit⟩
    exact formatted_exact hs he hnonneg hle hborrows hfit

theorem interval_exact_between : Exact ⟨10, 999999⟩ ⟨3675, 1⟩ (timeIntervalFormatted ⟨10, 999999⟩ ⟨3675, 1⟩)
    (timevalDiff ⟨10, 999999⟩ ⟨3675, 1⟩) :=
  (interval_exact_iff ⟨by decide, by decide, by decide, by decide⟩ ⟨by decide, by decide, by decide, by decide⟩
    (by decide)).mpr ⟨Or.inr ⟨by decide, by decide⟩, by decide, by decide⟩

theorem interval_not_exact : ¬∀ startTime endTime : Timeval, startTime.IsTime → endTime.IsTime →
    startTime.micros ≤ endTime.micros →
    Exact startTime endTime (timeIntervalFormatted startTime endTime) (timevalDiff startTime endTime) := by
  intro h
  have hzero : (⟨0, 0⟩ : Timeval).IsTime := ⟨by decide, by decide, by decide, by decide⟩
  have hcarry : (timeIntervalFormatted ⟨0, 0⟩ ⟨0, 0⟩).usec = toInt 1000000 := rfl
  have husec := (h ⟨0, 0⟩ ⟨0, 0⟩ hzero hzero le_rfl).usec.2
  rw [hcarry, CStrObject.toInt_eq (by decide) (by decide)] at husec
  exact lt_irrefl _ husec

end Timeval

end Xframe.Comserv
