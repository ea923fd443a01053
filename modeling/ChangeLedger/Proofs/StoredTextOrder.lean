import ChangeLedger.Proofs.CalendarOrder
/-! # Stored texts compare as the instants they spell

The table compares time cells as text, character by character, so a query with a `since` time is
right only as far as the stored form `YYYY-MM-DD HH:MM:SS[.fff]+00:00` sorts as the instants it
spells. Every field has a fixed width, so two texts compare field by field, each field as the
number it writes (`digitList_append_lt_iff`). The date grows with the day
(`CivilDate.ofDays_code_strictMono`), and the clock, a leap second written as second 60, with the
second of the day. The fraction has 0, 3, 6 or 9 digits and is followed by the zone: no fraction
sorts below any fraction because `+` sorts below `.`, and a fraction cut after a group of three
below a longer one with the same leading groups because `+` sorts below every digit
(`fractionRest_lt_iff`).

So for valid instants with a year in `0..9999` the text order is the order of time
(`Instant.toStoredText_lt_iff`). Any other year is written with a sign or a fifth digit, and `+`
and `-` sort below every digit: there the two orders part.
-/
namespace ChangeLedger

section Lex

variable {α : Type} [LT α]

theorem append_lt_append_iff {a₁ a₂ : List α} (b₁ b₂ : List α) (h : a₁.length = a₂.length) :
    a₁ ++ b₁ < a₂ ++ b₂ ↔ a₁ < a₂ ∨ (a₁ = a₂ ∧ b₁ < b₂) := by
  induction a₁ generalizing a₂ with
  | nil =>
    cases a₂ with
    | nil => simp
    | cons => simp at h
  | cons x xs ih =>
    cases a₂ with
    | nil => simp at h
    | cons y ys =>
      simp only [List.cons_append, List.cons_lt_cons_iff, List.cons.injEq]
      rw [ih (by simpa using h)]
      -- the heads decide, or they agree and the tails decide
      constructor
      · rintro (hxy | ⟨rfl, hxs | ⟨rfl, hb⟩⟩)
        · exact .inl (.inl hxy)
        · exact .inl (.inr ⟨rfl, hxs⟩)
        · exact .inr ⟨⟨rfl, rfl⟩, hb⟩
      · rintro ((hxy | ⟨rfl, hxs⟩) | ⟨⟨rfl, rfl⟩, hb⟩)
        · exact .inl hxy
        · exact .inr ⟨rfl, .inl hxs⟩
        · exact .inr ⟨rfl, .inr ⟨rfl, hb⟩⟩

end Lex

/-! ### Decimal fields -/

theorem char_lt_iff_toNat_lt {c d : Char} : c < d ↔ c.toNat < d.toNat :=
  Char.lt_def.trans UInt32.lt_iff_toNat_lt

theorem digitChar_lt_iff {a b : Nat} (ha : a < 10) (hb : b < 10) :
    Nat.digitChar a < Nat.digitChar b ↔ a < b := by
  rw [char_lt_iff_toNat_lt, Nat.toNat_digitChar_of_lt_ten ha, Nat.toNat_digitChar_of_lt_ten hb]
  omega

theorem digitChar_inj {a b : Nat} (ha : a < 10) (hb : b < 10) :
    Nat.digitChar a = Nat.digitChar b ↔ a = b := by
  rw [← Char.toNat_inj, Nat.toNat_digitChar_of_lt_ten ha, Nat.toNat_digitChar_of_lt_ten hb]
  omega

theorem plus_lt_digitChar {a : Nat} (ha : a < 10) : '+' < Nat.digitChar a := by
  rw [char_lt_iff_toNat_lt, Nat.toNat_digitChar_of_lt_ten ha]
  show 43 < 48 + a
  omega

/-- The last `w` decimal digits of `n`, most significant first: `padNat w n` for `n < 10 ^ w`. -/
def digitList : Nat → Nat → List Char
  | 0, _ => []
  | w + 1, n => digitList w (n / 10) ++ [Nat.digitChar (n % 10)]

@[simp] theorem length_digitList (w n : Nat) : (digitList w n).length = w := by
  induction w generalizing n with
  | zero => rfl
  | succ w ih => simp [digitList, ih]

theorem digitList_zero_right (w : Nat) : digitList w 0 = List.replicate w '0' := by
  induction w with
  | zero => rfl
  | succ w ih => simp [digitList, ih, List.replicate_succ']

theorem digitList_add (v w n : Nat) :
    digitList (v + w) n = digitList v (n / 10 ^ w) ++ digitList w (n % 10 ^ w) := by
  induction w generalizing n with
  | zero => simp [digitList]
  | succ w ih =>
    have hpow : 10 ^ (w + 1) = 10 * 10 ^ w := Nat.pow_succ'
    rw [← Nat.add_assoc, digitList, ih, digitList, List.append_assoc, hpow,
      Nat.div_div_eq_div_mul, Nat.mod_mul_right_div_self,
      Nat.mod_mod_of_dvd _ (Nat.dvd_mul_right 10 _)]

theorem digitList_succ (w n : Nat) :
    digitList (w + 1) n = Nat.digitChar (n / 10 ^ w % 10) :: digitList w (n % 10 ^ w) := by
  rw [Nat.add_comm, digitList_add]
  simp [digitList]

theorem digitList_eq_replicate_append {w n : Nat} (hw : 0 < w) (hn : n < 10 ^ w) :
    digitList w n = List.replicate (w - (Nat.toDigits 10 n).length) '0' ++ Nat.toDigits 10 n := by
  induction w generalizing n with
  | zero => omega
  | succ w ih =>
    rw [Nat.toDigits_eq_if (by decide)]
    split_ifs with h10
    · simp [digitList, Nat.div_eq_of_lt h10, Nat.mod_eq_of_lt h10, digitList_zero_right]
    · have hw' : 0 < w := by
        rcases Nat.eq_zero_or_pos w with rfl | hw'
        · simp at hn
          omega
        · exact hw'
      have hdiv : n / 10 < 10 ^ w := by
        rw [Nat.pow_succ] at hn
        omega
      simp [digitList, ih hw' hdiv]

theorem toList_padNat {w n : Nat} (hw : 0 < w) (hn : n < 10 ^ w) :
    (padNat w n).toList = digitList w n := by
  rw [digitList_eq_replicate_append hw hn]
  simp [padNat, ← String.length_toList, Nat.toList_repr]

theorem digitList_inj {w a b : Nat} (ha : a < 10 ^ w) (hb : b < 10 ^ w) :
    digitList w a = digitList w b ↔ a = b := by
  refine ⟨fun h => ?_, fun h => h ▸ rfl⟩
  induction w generalizing a b with
  | zero =>
    simp only [Nat.pow_zero] at ha hb
    omega
  | succ w ih =>
    rw [Nat.pow_succ] at ha hb
    obtain ⟨hhigh, hlast⟩ := List.append_inj h (by simp)
    have hdiv := ih (by omega) (by omega) hhigh
    have hmod := (digitChar_inj (Nat.mod_lt a (by decide)) (Nat.mod_lt b (by decide))).1
      (List.singleton_inj.1 hlast)
    omega

/-- Fields of one width compare as the numbers they write. -/
theorem digitList_lt_iff {w a b : Nat} (ha : a < 10 ^ w) (hb : b < 10 ^ w) :
    digitList w a < digitList w b ↔ a < b := by
  induction w generalizing a b with
  | zero =>
    simp only [Nat.pow_zero] at ha hb
    simp [digitList]
    omega
  | succ w ih =>
    rw [Nat.pow_succ] at ha hb
    rw [digitList, digitList, append_lt_append_iff _ _ (by simp), ih (by omega) (by omega),
      digitList_inj (by omega) (by omega), List.cons_lt_cons_iff,
      digitChar_lt_iff (Nat.mod_lt _ (by decide)) (Nat.mod_lt _ (by decide))]
    simp only [List.not_lt_nil, and_false, or_false]
    omega

theorem digitList_append_lt_iff {w a b : Nat} (ha : a < 10 ^ w) (hb : b < 10 ^ w)
    (r₁ r₂ : List Char) :
    digitList w a ++ r₁ < digitList w b ++ r₂ ↔ a < b ∨ (a = b ∧ r₁ < r₂) := by
  rw [append_lt_append_iff _ _ (by simp), digitList_lt_iff ha hb, digitList_inj ha hb]

theorem digitList_six (m : Nat) :
    digitList 6 m = digitList 3 (m / 1000) ++ digitList 3 (m % 1000) :=
  digitList_add 3 3 m

theorem digitList_nine (m : Nat) :
    digitList 9 m =
      digitList 3 (m / 1000000) ++ (digitList 3 (m / 1000 % 1000) ++ digitList 3 (m % 1000)) := by
  rw [show digitList 9 m = digitList 3 (m / 1000000) ++ digitList 6 (m % 1000000) from
    digitList_add 3 6 m, digitList_six,
    show m % 1000000 / 1000 = m / 1000 % 1000 by omega, show m % 1000000 % 1000 = m % 1000 by omega]

/-! ### The fraction and the zone -/

def zone : List Char := ['+', '0', '0', ':', '0', '0']

theorem zone_lt_digitList (w a : Nat) (r : List Char) : zone < digitList (w + 1) a ++ r := by
  rw [digitList_succ, List.cons_append, zone, List.cons_lt_cons_iff]
  exact .inl (plus_lt_digitChar (Nat.mod_lt _ (by decide)))

theorem not_digitList_lt_zone (w a : Nat) (r : List Char) : ¬ digitList (w + 1) a ++ r < zone := by
  rw [digitList_succ, List.cons_append, zone, List.cons_lt_cons_iff]
  have h := plus_lt_digitChar (Nat.mod_lt (a / 10 ^ w) (show 0 < 10 by decide))
  rintro (hlt | ⟨heq, -⟩)
  · exact lt_asymm h hlt
  · exact h.ne' heq

def nanoRest (n : Nat) : List Char :=
  if n % 1000 = 0 then zone else digitList 3 (n % 1000) ++ zone

def microRest (n : Nat) : List Char :=
  if n % 1000000 = 0 then zone else digitList 3 (n / 1000 % 1000) ++ nanoRest n

/-- The stored text from the fraction on. -/
def fractionRest (n : Nat) : List Char :=
  if n % 1000000000 = 0 then zone else '.' :: (digitList 3 (n / 1000000 % 1000) ++ microRest n)

theorem nanoRest_lt_iff (a b : Nat) : nanoRest a < nanoRest b ↔ a % 1000 < b % 1000 := by
  unfold nanoRest
  split_ifs with ha hb hb
  · simp [ha, hb]
  · exact iff_of_true (zone_lt_digitList 2 _ _) (by omega)
  · exact iff_of_false (not_digitList_lt_zone 2 _ _) (by omega)
  · simp (disch := omega) only [digitList_append_lt_iff]
    simp

theorem microRest_lt_iff (a b : Nat) : microRest a < microRest b ↔ a % 1000000 < b % 1000000 := by
  unfold microRest
  split_ifs with ha hb hb
  · simp [ha, hb]
  · exact iff_of_true (zone_lt_digitList 2 _ _) (by omega)
  · exact iff_of_false (not_digitList_lt_zone 2 _ _) (by omega)
  · simp (disch := omega) only [digitList_append_lt_iff, nanoRest_lt_iff]
    omega

/-- Fractions compare as the nanoseconds they write, whatever their number of digits. -/
theorem fractionRest_lt_iff (a b : Nat) :
    fractionRest a < fractionRest b ↔ a % 1000000000 < b % 1000000000 := by
  unfold fractionRest
  split_ifs with ha hb hb
  · simp [ha, hb]
  · -- no fraction: the zone's `+` sorts below the point
    refine iff_of_true ?_ (by omega)
    rw [zone, List.cons_lt_cons_iff]
    exact .inl (by decide)
  · refine iff_of_false ?_ (by omega)
    rw [zone, List.cons_lt_cons_iff]
    rintro (h | ⟨h, -⟩) <;> revert h <;> decide
  · simp (disch := omega) only [List.cons_lt_cons_self, digitList_append_lt_iff, microRest_lt_iff]
    omega

theorem toList_fractionText_append (n : Nat) :
    (fractionText n ++ "+00:00").toList = fractionRest n := by
  have h6 : n % 1000000000 % 1000000 = n % 1000000 := by omega
  have h3 : n % 1000000000 % 1000 = n % 1000 := by omega
  unfold fractionText fractionRest microRest nanoRest
  simp only [h6, h3]
  split_ifs
  · rfl
  · simp (disch := omega) only [String.toList_append, toList_padNat]
    rw [show n % 1000000000 / 1000000 = n / 1000000 % 1000 by omega]
    rfl
  · simp (disch := omega) only [String.toList_append, toList_padNat, digitList_six]
    rw [show n % 1000000000 / 1000 / 1000 = n / 1000000 % 1000 by omega,
      show n % 1000000000 / 1000 % 1000 = n / 1000 % 1000 by omega]
    simp [zone]
  · simp (disch := omega) only [String.toList_append, toList_padNat, digitList_nine]
    rw [show n % 1000000000 / 1000000 = n / 1000000 % 1000 by omega,
      show n % 1000000000 / 1000 % 1000 = n / 1000 % 1000 by omega, h3]
    simp [zone]

namespace Instant

/-- A valid instant whose year, in `0..9999`, is written with four digits and no sign. -/
structure FourDigitYear (t : Instant) : Prop extends t.Valid where
  year_nonneg : 0 ≤ t.date.year
  year_lt : t.date.year < 10000

theorem clock_lt {t : Instant} (ht : t.Valid) :
    t.clock.1 < 24 ∧ t.clock.2.1 < 60 ∧ t.clock.2.2 < 61 := by
  have hs := secondOfDay_lt t
  have hn := ht.nanos_lt
  simp only [clock, nanosPerSecond] at hn ⊢
  omega

theorem FourDigitYear.fields {t : Instant} (ht : t.FourDigitYear) :
    (0 ≤ t.date.year ∧ t.date.year < 10000) ∧
      (1 ≤ t.date.month ∧ t.date.month ≤ 12 ∧ 1 ≤ t.date.day ∧ t.date.day ≤ 31) ∧
      (t.clock.1 < 24 ∧ t.clock.2.1 < 60 ∧ t.clock.2.2 < 61) :=
  ⟨⟨ht.year_nonneg, ht.year_lt⟩, CivilDate.ofDays_month_day t.days, clock_lt ht.toValid⟩

theorem toList_toStoredText {t : Instant} (ht : t.FourDigitYear) :
    t.toStoredText.toList =
      digitList 4 t.date.year.toNat ++ '-' :: (digitList 2 t.date.month ++ '-' ::
        (digitList 2 t.date.day ++ ' ' :: (digitList 2 t.clock.1 ++ ':' ::
          (digitList 2 t.clock.2.1 ++ ':' ::
            (digitList 2 t.clock.2.2 ++ fractionRest t.nanos))))) := by
  obtain ⟨hy, hmd, hc⟩ := ht.fields
  rw [toStoredText, String.append_assoc, String.toList_append, toList_fractionText_append,
    dateTimeText, yearText, if_pos hy]
  generalize t.clock = c at hc ⊢
  obtain ⟨h, m, s⟩ := c
  simp only at hc
  simp (disch := omega) only [String.toList_append, toList_padNat]
  simp

def clockCode (t : Instant) : Nat := t.clock.1 * 10000 + t.clock.2.1 * 100 + t.clock.2.2

/-- Stored texts compare by date, then clock, then fraction. -/
theorem toStoredText_lt_iff_fields {t u : Instant} (ht : t.FourDigitYear) (hu : u.FourDigitYear) :
    t.toStoredText < u.toStoredText ↔ t.date.code < u.date.code ∨ (t.date.code = u.date.code ∧
      (t.clockCode < u.clockCode ∨ (t.clockCode = u.clockCode ∧
        t.nanos % nanosPerSecond < u.nanos % nanosPerSecond))) := by
  have htf := ht.fields
  have huf := hu.fields
  rw [String.lt_iff_toList_lt, toList_toStoredText ht, toList_toStoredText hu]
  simp (disch := omega) only [digitList_append_lt_iff, List.cons_lt_cons_self, fractionRest_lt_iff]
  simp only [CivilDate.code, clockCode, nanosPerSecond]
  omega

theorem lt_iff_days (t u : Instant) :
    t < u ↔ t.days < u.days ∨ (t.days = u.days ∧
      (t.secondOfDay < u.secondOfDay ∨ (t.secondOfDay = u.secondOfDay ∧ t.nanos < u.nanos))) := by
  show t.lt u ↔ _
  unfold lt days secondOfDay secondsPerDay
  omega

/-- Within a day, valid instants compare as their clocks, a leap second as second 60. -/
theorem secondOfDay_lt_iff_clockCode {t u : Instant} (ht : t.Valid) (hu : u.Valid) :
    (t.secondOfDay < u.secondOfDay ∨ (t.secondOfDay = u.secondOfDay ∧ t.nanos < u.nanos)) ↔
      (t.clockCode < u.clockCode ∨ (t.clockCode = u.clockCode ∧
        t.nanos % nanosPerSecond < u.nanos % nanosPerSecond)) := by
  have hts := secondOfDay_lt t
  have hus := secondOfDay_lt u
  have htn := ht.nanos_lt
  have hun := hu.nanos_lt
  have htl := ht.leap
  have hul := hu.leap
  simp only [clockCode, clock, nanosPerSecond] at htn hun htl hul ⊢
  -- hours are minutes of minutes, which is what lets the clock fields be compared linearly
  rw [← Nat.div_div_eq_div_mul t.secondOfDay 60 60, ← Nat.div_div_eq_div_mul u.secondOfDay 60 60]
  omega

/-- For valid instants with four-digit years, the stored texts compare as the instants. -/
theorem toStoredText_lt_iff {t u : Instant} (ht : t.FourDigitYear) (hu : u.FourDigitYear) :
    t.toStoredText < u.toStoredText ↔ t < u := by
  rw [toStoredText_lt_iff_fields ht hu, lt_iff_days,
    secondOfDay_lt_iff_clockCode ht.toValid hu.toValid]
  simp only [date, CivilDate.ofDays_code_lt_iff, CivilDate.ofDays_code_inj]

theorem lt_or_gt_of_ne {t u : Instant} (h : t ≠ u) : t < u ∨ u < t := by
  obtain ⟨s₁, n₁⟩ := t
  obtain ⟨s₂, n₂⟩ := u
  have hne : ¬(s₁ = s₂ ∧ n₁ = n₂) := fun ⟨hs, hn⟩ => h (hs ▸ hn ▸ rfl)
  show lt _ _ ∨ lt _ _
  simp only [lt]
  omega

theorem toStoredText_inj {t u : Instant} (ht : t.FourDigitYear) (hu : u.FourDigitYear) :
    t.toStoredText = u.toStoredText ↔ t = u := by
  refine ⟨fun h => ?_, fun h => h ▸ rfl⟩
  by_contra hne
  rcases lt_or_gt_of_ne hne with hlt | hgt
  · have htext := (toStoredText_lt_iff ht hu).2 hlt
    rw [h] at htext
    exact String.lt_irrefl _ htext
  · have htext := (toStoredText_lt_iff hu ht).2 hgt
    rw [h] at htext
    exact String.lt_irrefl _ htext

end Instant

end ChangeLedger
