import ChangeLedger.Proofs.TrackDecision
/-! # A later day has a later date

`CivilDate.ofDays` counts days from 0000-03-01 in eras of 400 years (146097 days). The day of the
era fixes the year of the era, and the day of that year, counted from 1 March, fixes the month
and the day of the month. Both steps are monotone, so `ofDays` is strictly increasing for the
date read as the number `YYYYMMDD` (`CivilDate.ofDays_code_strictMono`), with months in `1..12`
and days in `1..31` (`CivilDate.ofDays_month_day`).

The year of the era is a quotient of a quotient that linear arithmetic does not see through; it
is pinned by the first and last day of each of the 400 years of an era, a table the kernel checks
once (`CivilDate.yearOfEra_table`).
-/
namespace ChangeLedger

namespace CivilDate

/-- The date as the number `YYYYMMDD`. -/
def code (d : CivilDate) : Int := d.year * 10000 + d.month * 100 + d.day

/-- The era of day `z`: the 400 years from 1 March of a year divisible by 400. -/
def era (z : Int) : Int := (z + 719468) / 146097

def dayOfEra (z : Int) : Nat := (z + 719468 - era z * 146097).toNat

def yearOfEra (doe : Nat) : Nat := (doe - doe / 1460 + doe / 36524 - doe / 146096) / 365

def eraYearStart (y : Nat) : Nat := 365 * y + y / 4 - y / 100

/-- The date `doy` days after 1 March of year `y`; January and February belong to the next year. -/
def ofMarchDay (y : Int) (doy : Nat) : CivilDate :=
  let mp : Nat := (5 * doy + 2) / 153
  let month : Nat := if mp < 10 then mp + 3 else mp - 9
  { year := if month ≤ 2 then y + 1 else y, month := month, day := doy - (153 * mp + 2) / 5 + 1 }

theorem ofDays_eq (z : Int) :
    ofDays z = ofMarchDay (yearOfEra (dayOfEra z) + era z * 400)
      (dayOfEra z - eraYearStart (yearOfEra (dayOfEra z))) := rfl

theorem dayOfEra_le (z : Int) : dayOfEra z ≤ 146096 := by
  unfold dayOfEra era
  omega

theorem dayOfEra_eq (z : Int) : (dayOfEra z : Int) = z + 719468 - era z * 146097 := by
  unfold dayOfEra era
  omega

theorem yearOfEra_mono {a b : Nat} (h : a ≤ b) (hb : b ≤ 146096) : yearOfEra a ≤ yearOfEra b := by
  unfold yearOfEra
  apply Nat.div_le_div_right
  omega

set_option maxRecDepth 10000 in
theorem yearOfEra_table :
    ∀ y < 400, yearOfEra (eraYearStart y) = y ∧ yearOfEra (eraYearStart (y + 1) - 1) = y := by
  decide +kernel

/-- The day of the era lies in its year, at most 365 days after the year's first day. -/
theorem yearOfEra_bounds {doe : Nat} (h : doe ≤ 146096) :
    yearOfEra doe < 400 ∧ eraYearStart (yearOfEra doe) ≤ doe ∧
      doe ≤ eraYearStart (yearOfEra doe) + 365 := by
  have hlast : yearOfEra doe ≤ 399 := yearOfEra_mono h le_rfl
  refine ⟨by omega, ?_, ?_⟩
  · -- otherwise the day lies in an earlier year, by the table
    by_contra hlt
    obtain ⟨y, hy⟩ : ∃ y, yearOfEra doe = y + 1 :=
      ⟨yearOfEra doe - 1, by unfold eraYearStart at hlt; omega⟩
    have hend := (yearOfEra_table y (by omega)).2
    have := yearOfEra_mono (show doe ≤ eraYearStart (y + 1) - 1 by rw [← hy]; omega)
      (by unfold eraYearStart; omega)
    omega
  · -- otherwise the day lies in a later year, by the table; the last year has 366 days
    by_contra hgt
    by_cases hy : yearOfEra doe = 399
    · rw [hy] at hgt
      unfold eraYearStart at hgt
      omega
    have hstart := (yearOfEra_table (yearOfEra doe + 1) (by omega)).1
    have hnext : eraYearStart (yearOfEra doe + 1) ≤ doe := by
      unfold eraYearStart at hgt ⊢
      omega
    have := yearOfEra_mono hnext h
    omega

theorem marchDay_bounds {doy : Nat} (h : doy ≤ 365) :
    (5 * doy + 2) / 153 ≤ 11 ∧ (153 * ((5 * doy + 2) / 153) + 2) / 5 ≤ doy ∧
      doy - (153 * ((5 * doy + 2) / 153) + 2) / 5 ≤ 30 := by
  omega

theorem marchDay_lt {d₁ d₂ : Nat} (h : d₁ < d₂) :
    (5 * d₁ + 2) / 153 < (5 * d₂ + 2) / 153 ∨
      ((5 * d₁ + 2) / 153 = (5 * d₂ + 2) / 153 ∧
        d₁ - (153 * ((5 * d₁ + 2) / 153) + 2) / 5 < d₂ - (153 * ((5 * d₂ + 2) / 153) + 2) / 5) := by
  rcases lt_or_eq_of_le (Nat.div_le_div_right (c := 153) (show 5 * d₁ + 2 ≤ 5 * d₂ + 2 by omega))
    with hm | hm
  · exact .inl hm
  · refine .inr ⟨hm, ?_⟩
    rw [hm]
    omega

theorem ofMarchDay_month_day (y : Int) {doy : Nat} (h : doy ≤ 365) :
    1 ≤ (ofMarchDay y doy).month ∧ (ofMarchDay y doy).month ≤ 12 ∧
      1 ≤ (ofMarchDay y doy).day ∧ (ofMarchDay y doy).day ≤ 31 := by
  have hb := marchDay_bounds h
  dsimp only [ofMarchDay]
  split_ifs <;> omega

theorem ofMarchDay_code_lt {y₁ y₂ : Int} {d₁ d₂ : Nat} (h₁ : d₁ ≤ 365) (h₂ : d₂ ≤ 365)
    (h : y₁ < y₂ ∨ (y₁ = y₂ ∧ d₁ < d₂)) : (ofMarchDay y₁ d₁).code < (ofMarchDay y₂ d₂).code := by
  have hb₁ := marchDay_bounds h₁
  have hb₂ := marchDay_bounds h₂
  -- within one year the date moves with the month and the day in it
  have hlex := fun hd : d₁ < d₂ => marchDay_lt hd
  dsimp only [ofMarchDay, code]
  generalize (5 * d₁ + 2) / 153 = m₁ at *
  generalize (5 * d₂ + 2) / 153 = m₂ at *
  generalize d₁ - (153 * m₁ + 2) / 5 = q₁ at *
  generalize d₂ - (153 * m₂ + 2) / 5 = q₂ at *
  rcases h with hy | ⟨hy, hd⟩
  · split_ifs <;> omega
  · rcases hlex hd with hm | ⟨hm, hq⟩
    · split_ifs <;> omega
    · subst hm
      split_ifs <;> omega

theorem ofDays_code_lt {z₁ z₂ : Int} (h : z₁ < z₂) : (ofDays z₁).code < (ofDays z₂).code := by
  rw [ofDays_eq, ofDays_eq]
  have hd₁ := dayOfEra_eq z₁
  have hd₂ := dayOfEra_eq z₂
  have hl₁ := dayOfEra_le z₁
  have hl₂ := dayOfEra_le z₂
  obtain ⟨hy₁, hs₁, he₁⟩ := yearOfEra_bounds hl₁
  obtain ⟨hy₂, hs₂, he₂⟩ := yearOfEra_bounds hl₂
  apply ofMarchDay_code_lt (by omega) (by omega)
  -- the era and the day of the era are quotient and remainder of one division
  rcases lt_or_eq_of_le (show era z₁ ≤ era z₂ by omega) with hera | hera
  · left
    omega
  · have hdoe : dayOfEra z₁ < dayOfEra z₂ := by omega
    rcases lt_or_eq_of_le (yearOfEra_mono hdoe.le hl₂) with hyear | hyear
    · left
      omega
    · right
      rw [hyear] at hs₁ ⊢
      rw [hera]
      exact ⟨rfl, by omega⟩

/-- So dates compare as their days (`StrictMono.lt_iff_lt`), and one date is one day. -/
theorem ofDays_code_strictMono : StrictMono fun z => (ofDays z).code := fun _ _ h =>
  ofDays_code_lt h

theorem ofDays_code_lt_iff {z₁ z₂ : Int} : (ofDays z₁).code < (ofDays z₂).code ↔ z₁ < z₂ :=
  ofDays_code_strictMono.lt_iff_lt

theorem ofDays_code_inj {z₁ z₂ : Int} : (ofDays z₁).code = (ofDays z₂).code ↔ z₁ = z₂ :=
  ofDays_code_strictMono.injective.eq_iff

theorem ofDays_month_day (z : Int) :
    1 ≤ (ofDays z).month ∧ (ofDays z).month ≤ 12 ∧ 1 ≤ (ofDays z).day ∧ (ofDays z).day ≤ 31 := by
  rw [ofDays_eq]
  obtain ⟨-, hs, he⟩ := yearOfEra_bounds (dayOfEra_le z)
  exact ofMarchDay_month_day _ (by omega)

end CivilDate

end ChangeLedger
