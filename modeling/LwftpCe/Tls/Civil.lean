import LwftpCe.Tls.Truststore

/-!
# The clock in seconds

`tls_truststore_get_utc` counts the days by two loops, over the years and over the months.
-/

namespace LwftpCe.Tls

open List

/-! ### The calendar -/

/-- The days before a year of the Gregorian calendar, from the year 1 on. -/
def daysBeforeYear (y : ℕ) : ℕ := 365 * (y - 1) + (y - 1) / 4 + (y - 1) / 400 - (y - 1) / 100

def daysBeforeMonth (leap : Bool) (m : ℕ) : ℕ :=
  [0, 31, 59, 90, 120, 151, 181, 212, 243, 273, 304, 334].getD (m - 1) 0 + if leap ∧ m > 2 then 1 else 0

def monthLength (leap : Bool) (m : ℕ) : ℕ := if m = 2 ∧ leap then 29 else daysInMonth.getD (m - 1) 0

namespace Clock

structure Valid (t : Clock) : Prop where
  year : 1970 ≤ t.year
  month : 1 ≤ t.month ∧ t.month ≤ 12
  day : 1 ≤ t.day ∧ t.day ≤ monthLength (isLeapYear t.year) t.month
  hours : t.hours < 24
  minutes : t.minutes < 60
  seconds : t.seconds < 60

/-- The seconds since the beginning of 1970, by the local date and time. -/
def localSeconds (t : Clock) : ℕ :=
  (daysBeforeYear t.year - daysBeforeYear 1970 + daysBeforeMonth (isLeapYear t.year) t.month + (t.day - 1)) * 86400 +
    t.hours * 3600 + t.minutes * 60 + t.seconds

/-- The Unix time under a configuration. -/
def unixTime (cfg : AppConfig) (t : Clock) : ℤ := t.localSeconds - cfg.tzOffsetMinutes * 60 - if cfg.dstEnabled then 3600 else 0

/-- Both counts have 32 bits. -/
def Fits (cfg : AppConfig) (t : Clock) : Prop := t.localSeconds < 2 ^ 32 ∧ t.unixTime cfg < 2 ^ 32

/-- An earlier date, or the same date and an earlier time. -/
def Earlier (t t' : Clock) : Prop :=
  t.year < t'.year ∨ t.year = t'.year ∧ (t.month < t'.month ∨ t.month = t'.month ∧ (t.day < t'.day ∨ t.day = t'.day ∧
    (t.hours < t'.hours ∨ t.hours = t'.hours ∧ (t.minutes < t'.minutes ∨ t.minutes = t'.minutes ∧ t.seconds < t'.seconds))))

end Clock

lemma isLeapYear_iff (y : ℕ) : isLeapYear y = true ↔ y % 4 = 0 ∧ (y % 100 ≠ 0 ∨ y % 400 = 0) := by
  exact decide_eq_true_iff

lemma daysBeforeYear_succ (y : ℕ) : daysBeforeYear (y + 2) = daysBeforeYear (y + 1) + if isLeapYear (y + 1) then 366 else 365 := by
  have hdiv : ∀ n, (y + 1) / n = y / n + if (y + 1) % n = 0 then 1 else 0 := by
    intro n
    simpa only [Nat.dvd_iff_mod_eq_zero] using Nat.succ_div
  have hle : y / 100 ≤ y / 4 := Nat.div_le_div_left (by decide) (by decide)
  have hleap := isLeapYear_iff (y + 1)
  have h100 : (y + 1) % 100 = 0 → (y + 1) % 4 = 0 := by omega
  have h400 : (y + 1) % 400 = 0 → (y + 1) % 100 = 0 := by omega
  simp only [daysBeforeYear, show y + 2 - 1 = y + 1 from rfl, Nat.add_sub_cancel, hdiv 4, hdiv 100, hdiv 400, hleap]
  by_cases h4 : (y + 1) % 4 = 0
  · by_cases h1 : (y + 1) % 100 = 0
    · by_cases h2 : (y + 1) % 400 = 0
      · simp [h4, h1, h2]
        omega
      · simp [h4, h1, h2]
        omega
    · simp [h4, h1, mt h400 h1]
      omega
  · simp [h4, mt h100 h4, mt h400 (mt h100 h4)]
    omega

lemma daysBeforeYear_mono {y y' : ℕ} (h : y ≤ y') : daysBeforeYear (y + 1) ≤ daysBeforeYear (y' + 1) := by
  induction h with
  | refl => exact le_rfl
  | step _ ih => exact ih.trans (by rw [daysBeforeYear_succ]; omega)

lemma daysBeforeMonth_add : ∀ leap, ∀ m < 13, 1 ≤ m → daysBeforeMonth leap m + monthLength leap m ≤ 365 + leap.toNat ∧
    ∀ m' < 13, m < m' → daysBeforeMonth leap m + monthLength leap m ≤ daysBeforeMonth leap m' := by decide

/-! ### The loops -/

lemma foldl_add_init (g : ℕ → ℕ) (l : List ℕ) (a : ℕ) : l.foldl (fun d k => d + g k) a = a + l.foldl (fun d k => d + g k) 0 := by
  induction l generalizing a with
  | nil => rfl
  | cons k l ih =>
    rw [foldl_cons, foldl_cons, ih, ih (0 + g k)]
    omega

lemma years_eq (n : ℕ) : (List.range' 1970 n).foldl (fun days y => days + if isLeapYear y then 366 else 365) 0 =
    daysBeforeYear (1970 + n) - daysBeforeYear 1970 := by
  induction n with
  | zero => rfl
  | succ n ih =>
    have hmono : daysBeforeYear 1970 ≤ daysBeforeYear (1969 + n + 1) := daysBeforeYear_mono (by omega)
    have hstep := daysBeforeYear_succ (1969 + n)
    rw [show 1969 + n + 1 = 1970 + n by omega] at hmono hstep
    rw [range'_1_concat, foldl_append, foldl_cons, foldl_nil, show 1970 + (n + 1) = 1969 + n + 2 by omega]
    omega

lemma months_eq : ∀ leap, ∀ m < 13, 1 ≤ m →
    (List.range' 1 (m - 1)).foldl (fun days k => days + monthLength leap k) 0 = daysBeforeMonth leap m := by decide

lemma getUtc_eq (cfg : AppConfig) (t : Clock) (hv : t.Valid) (hfits : t.Fits cfg) :
    tlsTruststoreGetUtc cfg t = if t.unixTime cfg < 0 then none else some (t.unixTime cfg).toNat := by
  obtain ⟨hyear, hmonth, hday, -⟩ := hv
  obtain ⟨hlocal, hunix⟩ := hfits
  have hyears := years_eq (t.year - 1970)
  rw [Nat.add_sub_cancel' hyear] at hyears
  have hmonths := (foldl_add_init (monthLength (isLeapYear t.year)) (range' 1 (t.month - 1)) _).trans
    (congrArg (daysBeforeYear t.year - daysBeforeYear 1970 + ·) (months_eq (isLeapYear t.year) t.month (by omega) hmonth.1))
  have hmod : ((daysBeforeYear t.year - daysBeforeYear 1970 + daysBeforeMonth (isLeapYear t.year) t.month + (t.day - 1)) * 86400 +
      t.hours * 3600 + t.minutes * 60 + t.seconds) % 2 ^ 32 = t.localSeconds := Nat.mod_eq_of_lt hlocal
  unfold monthLength at hmonths
  unfold Clock.unixTime at hunix ⊢
  unfold tlsTruststoreGetUtc
  rw [if_neg (by omega)]
  dsimp only
  rw [hyears, hmonths, hmod]
  cases hdst : cfg.dstEnabled
  · simp only [hdst, Bool.false_eq_true, ↓reduceIte, sub_zero] at hunix ⊢
    rw [Nat.mod_eq_of_lt (by omega)]
  · simp only [hdst, ↓reduceIte] at hunix ⊢
    rw [Nat.mod_eq_of_lt (by omega)]

lemma localSeconds_lt {t t' : Clock} (hv : t.Valid) (hv' : t'.Valid) (h : t.Earlier t') : t.localSeconds < t'.localSeconds := by
  obtain ⟨hyear, hmonth, hday, hhours, hminutes, hseconds⟩ := hv
  obtain ⟨hyear', hmonth', hday', hhours', hminutes', hseconds'⟩ := hv'
  obtain ⟨hend, hnext⟩ := daysBeforeMonth_add (isLeapYear t.year) t.month (by omega) hmonth.1
  unfold Clock.localSeconds
  rcases h with hlt | ⟨heq, hlt⟩
  · -- the days of the whole year come before the later one
    have hfirst : daysBeforeYear 1970 ≤ daysBeforeYear (t.year - 1 + 1) := daysBeforeYear_mono (by omega)
    have hstep := daysBeforeYear_succ (t.year - 1)
    have hmono : daysBeforeYear (t.year + 1) ≤ daysBeforeYear (t'.year - 1 + 1) := daysBeforeYear_mono (by omega)
    rw [show t.year - 1 + 2 = t.year + 1 by omega, Nat.sub_add_cancel (by omega)] at hstep
    rw [Nat.sub_add_cancel (by omega)] at hfirst hmono
    have hlen : (if isLeapYear t.year then 366 else 365) = 365 + (isLeapYear t.year).toNat := by cases isLeapYear t.year <;> rfl
    omega
  · rw [heq] at hday hend hnext ⊢
    rcases hlt with hlt | ⟨hm, hlt⟩
    · have := hnext t'.month (by omega) hlt
      omega
    · rw [hm]
      omega

/-- **Civil time.** The Unix time of every valid date that fits; a later local time gives a greater result. -/
theorem civil_time_exact (cfg : AppConfig) (t : Clock) (hv : t.Valid) (hfits : t.Fits cfg) :
    (0 ≤ t.unixTime cfg → tlsTruststoreGetUtc cfg t = some (t.unixTime cfg).toNat) ∧
      ∀ t' : Clock, t'.Valid → t'.Fits cfg → t.Earlier t' → ∀ a b, tlsTruststoreGetUtc cfg t = some a →
        tlsTruststoreGetUtc cfg t' = some b → a < b := by
  refine ⟨fun h => by rw [getUtc_eq cfg t hv hfits, if_neg (by omega)], ?_⟩
  intro t' hv' hfits' hlt a b ha hb
  have hless := localSeconds_lt hv hv' hlt
  rw [getUtc_eq cfg t hv hfits] at ha
  rw [getUtc_eq cfg t' hv' hfits'] at hb
  split_ifs at ha hb with h h'
  cases ha
  cases hb
  unfold Clock.unixTime at h h' ⊢
  omega

theorem civil_time_2000 : tlsTruststoreGetUtc ⟨0, 0, false⟩ ⟨1, 1, 2000, 0, 0, 0⟩ = some 946684800 :=
  (civil_time_exact ⟨0, 0, false⟩ ⟨1, 1, 2000, 0, 0, 0⟩ ⟨by decide, by decide, by decide, by decide, by decide, by decide⟩
    ⟨by decide, by decide⟩).1 (by decide)

end LwftpCe.Tls
