import ChangeLedger.Proofs.Tracking
/-! # What one call of a tracker decides

A call that is neither refused nor repeated looks its key up and then inserts a record it did not
find, rewrites one it found when the record needs it, or leaves it alone. A found record needs a
write when it carries a deletion marker, has no last-change time, or its last change lies too far
from the event's.

That last test is made on whole milliseconds, truncated toward zero, against `999`. Truncation
makes it exactly "a whole second apart or more" on the signed nanosecond distance
(`RecordTimes.needsWrite_iff`), so 999.999999 ms either way writes nothing. The distance is
antisymmetric, a leap second counting on whichever side it lies (`Instant.sub_comm`), so the test
does not depend on which of the two times is the stored one. Between instants chrono can hold the
distance stays far below the longest duration, so neither the difference nor its milliseconds
overflow (`Instant.sub_natAbs_le`).

`track_decision_table` puts the whole table together.
-/
namespace ChangeLedger

namespace Instant

/-- An instant chrono can hold: a supported date, and a leap second only in a day's last second. -/
structure Valid (t : Instant) : Prop where
  inRange : t.inRange = true
  nanos_lt : t.nanos < 2 * nanosPerSecond
  leap : nanosPerSecond ≤ t.nanos → t.secondOfDay % 60 = 59

def maxDurationMillis : Nat := 9223372036854775807

theorem firstDay_eq : CivilDate.firstDay = -96465292 := by decide

theorem lastDay_eq : CivilDate.lastDay = 95026236 := by decide

theorem secondOfDay_lt (t : Instant) : t.secondOfDay < 86400 := by
  unfold secondOfDay secondsPerDay
  omega

theorem days_mem_of_inRange {t : Instant} (h : t.inRange = true) :
    CivilDate.firstDay ≤ t.days ∧ t.days ≤ CivilDate.lastDay := by
  unfold inRange latestSecond at h
  simp only [Bool.and_eq_true, decide_eq_true_iff] at h
  simp only [days, secondsPerDay] at h ⊢
  omega

theorem sub_comm (a b : Instant) : b.sub a = -a.sub b := by
  dsimp only [sub, secondsOfDayDelta]
  simp only [secondsPerDay, nanosPerSecond]
  split_ifs <;> omega

theorem secondsOfDayDelta_natAbs_le (a b : Instant) : (secondsOfDayDelta a b).natAbs ≤ 86400 := by
  have ha := secondOfDay_lt a
  have hb := secondOfDay_lt b
  dsimp only [secondsOfDayDelta]
  split_ifs <;> omega

/-- Whole milliseconds, truncated toward zero, pass 999 exactly at a whole second. -/
theorem millisBetween_natAbs_gt_iff (a b : Instant) :
    999 < (millisBetween a b).natAbs ↔ nanosPerSecond ≤ (a.sub b).natAbs := by
  rw [millisBetween, Int.natAbs_tdiv]
  show 999 < (a.sub b).natAbs / 1000000 ↔ 1000000000 ≤ (a.sub b).natAbs
  omega

theorem sub_natAbs_le {a b : Instant} (ha : a.Valid) (hb : b.Valid) :
    (a.sub b).natAbs ≤ maxDurationMillis * 1000000 := by
  obtain ⟨ha₁, ha₂⟩ := days_mem_of_inRange ha.inRange
  obtain ⟨hb₁, hb₂⟩ := days_mem_of_inRange hb.inRange
  have hδ := secondsOfDayDelta_natAbs_le a b
  have hna := ha.nanos_lt
  have hnb := hb.nanos_lt
  simp only [firstDay_eq, lastDay_eq] at ha₁ ha₂ hb₁ hb₂
  simp only [sub, maxDurationMillis, secondsPerDay, nanosPerSecond] at hna hnb ⊢
  omega

/-- So their whole milliseconds, and the absolute value of those, are signed 64-bit integers. -/
theorem millisBetween_natAbs_le {a b : Instant} (ha : a.Valid) (hb : b.Valid) :
    (millisBetween a b).natAbs ≤ maxDurationMillis := by
  have h := sub_natAbs_le ha hb
  rw [millisBetween, Int.natAbs_tdiv]
  show (a.sub b).natAbs / 1000000 ≤ maxDurationMillis
  exact Nat.div_le_of_le_mul (by rw [Nat.mul_comm]; exact h)

end Instant

namespace RecordTimes

/-- A found record needs a write exactly when it is marked, has no last change, or its last
change is a whole second or more from the event's. -/
theorem needsWrite_iff (stored : RecordTimes) (changedAt : Instant) :
    stored.needsWrite changedAt = true ↔ stored.deletedAt.isSome ∨ stored.lastChanged = none ∨
      ∃ p, stored.lastChanged = some p ∧ Instant.nanosPerSecond ≤ (p.sub changedAt).natAbs := by
  cases h : stored.lastChanged with
  | none => simp [needsWrite, h]
  | some p => simp [needsWrite, h, Instant.millisBetween_natAbs_gt_iff]

theorem needsWrite_swap (stored : RecordTimes) (a b : Instant) :
    { stored with lastChanged := some a }.needsWrite b =
      { stored with lastChanged := some b }.needsWrite a := by
  rw [Bool.eq_iff_iff, needsWrite_iff, needsWrite_iff]
  simp [Instant.sub_comm b a]

end RecordTimes

namespace Tracker

variable {tr t t' : Tracker} {db db' : Database} {key : RecordKey} {changedAt now : Instant}
  {o : TrackOutcome}

theorem apply_of_track_ok (hk : key.Trackable) (hc : tr.current ≠ some key)
    (ho : (tr.track db key changedAt now).result = .ok o) :
    { tr with current := some key }.apply db key changedAt now =
      (.ok o, (tr.track db key changedAt now).tracker, (tr.track db key changedAt now).db) := by
  rcases ha : { tr with current := some key }.apply db key changedAt now with ⟨r, t', db'⟩
  rw [track_of_apply hk hc ha] at ho ⊢
  cases r with
  | error e => cases ho
  | ok o' =>
    cases ho
    exact ha

theorem apply_ok_of_absent (hl : t.store.lookup db key = .ok none)
    (h : t.apply db key changedAt now = (.ok o, t', db')) :
    o = .inserted ∧
      (t.store.afterLookup db key).insert db ⟨key, now, now, changedAt⟩ = ⟨.ok (), t'.store, db'⟩ := by
  simp only [apply, hl] at h
  generalize (t.store.afterLookup db key).insert db ⟨key, now, now, changedAt⟩ = r at h ⊢
  obtain ⟨res, s₁, db₁⟩ := r
  cases res with
  | error e => cases h
  | ok u =>
    simp only [Prod.mk.injEq, Except.ok.injEq] at h
    obtain ⟨rfl, rfl, rfl⟩ := h
    exact ⟨rfl, rfl⟩

theorem apply_ok_of_rewrite {stored : RecordTimes} (hl : t.store.lookup db key = .ok (some stored))
    (hw : stored.needsWrite changedAt = true) (h : t.apply db key changedAt now = (.ok o, t', db')) :
    o = (if stored.deletedAt.isSome then .restored else .updated) ∧
      (t.store.afterLookup db key).update db ⟨key, stored.firstSeen.getD now, now, changedAt⟩ =
        ⟨.ok (), t'.store, db'⟩ := by
  simp only [apply, hl, hw, if_true] at h
  generalize (t.store.afterLookup db key).update db ⟨key, stored.firstSeen.getD now, now, changedAt⟩ =
    r at h ⊢
  obtain ⟨res, s₁, db₁⟩ := r
  cases res with
  | error e => cases h
  | ok u =>
    simp only [Prod.mk.injEq, Except.ok.injEq] at h
    obtain ⟨rfl, rfl, rfl⟩ := h
    exact ⟨rfl, rfl⟩

/-- A found record that needs no write is left alone. -/
theorem apply_of_kept {stored : RecordTimes} (hl : t.store.lookup db key = .ok (some stored))
    (hw : stored.needsWrite changedAt = false) :
    t.apply db key changedAt now =
      (.ok .unchanged, { t with store := t.store.afterLookup db key, times := some stored }, db) := by
  simp only [apply, hl, hw, Bool.false_eq_true, if_false]

end Tracker

/-- An accepted call that meets no storage error inserts a key found nowhere, rewrites a found record
that needs a write (restored if marked, else updated), and otherwise writes nothing. -/
theorem track_decision_table {tr : Tracker} {db : Database} {key : RecordKey}
    {changedAt now : Instant} (hk : key.Trackable) (hc : tr.current ≠ some key)
    {found : Option RecordTimes} (hl : tr.store.lookup db key = .ok found) {o : TrackOutcome}
    (ho : (tr.track db key changedAt now).result = .ok o) :
    (found = none → o = .inserted ∧
      (tr.store.afterLookup db key).insert db ⟨key, now, now, changedAt⟩ =
        ⟨.ok (), (tr.track db key changedAt now).tracker.store, (tr.track db key changedAt now).db⟩) ∧
    (∀ stored, found = some stored →
      (o.wrote = true ↔ stored.deletedAt.isSome ∨ stored.lastChanged = none ∨
        ∃ p, stored.lastChanged = some p ∧ Instant.nanosPerSecond ≤ (p.sub changedAt).natAbs) ∧
      (o.wrote = true → o = (if stored.deletedAt.isSome then .restored else .updated) ∧
        (tr.store.afterLookup db key).update db ⟨key, stored.firstSeen.getD now, now, changedAt⟩ =
          ⟨.ok (), (tr.track db key changedAt now).tracker.store,
            (tr.track db key changedAt now).db⟩) ∧
      (o.wrote = false → o = .unchanged ∧
        (tr.track db key changedAt now).tracker.store = tr.store.afterLookup db key ∧
          (tr.track db key changedAt now).db = db)) ∧
    (∀ (stored : RecordTimes) (a b : Instant),
      { stored with lastChanged := some a }.needsWrite b =
        { stored with lastChanged := some b }.needsWrite a) ∧
    (∀ a b : Instant, a.Valid → b.Valid →
      (a.sub b).natAbs ≤ Instant.maxDurationMillis * 1000000 ∧
        (Instant.millisBetween a b).natAbs ≤ Instant.maxDurationMillis) := by
  -- `apply` runs on the tracker with the key cached, whose store is the caller's
  have happly := Tracker.apply_of_track_ok hk hc ho
  refine ⟨fun hf => ?_, fun stored hf => ?_, RecordTimes.needsWrite_swap,
    fun a b ha hb => ⟨Instant.sub_natAbs_le ha hb, Instant.millisBetween_natAbs_le ha hb⟩⟩
  · subst hf
    exact Tracker.apply_ok_of_absent (t := { tr with current := some key }) hl happly
  · subst hf
    rw [← RecordTimes.needsWrite_iff]
    cases hw : stored.needsWrite changedAt with
    | true =>
      obtain ⟨ho', hu⟩ := Tracker.apply_ok_of_rewrite (t := { tr with current := some key }) hl hw happly
      have hwrote : o.wrote = true := by
        rw [ho']
        split <;> rfl
      exact ⟨by simp [hwrote], fun _ => ⟨ho', hu⟩, fun h => by simp [hwrote] at h⟩
    | false =>
      rw [Tracker.apply_of_kept (t := { tr with current := some key }) hl hw, Prod.mk.injEq,
        Prod.mk.injEq] at happly
      obtain ⟨ho', htr, hdb⟩ := happly
      cases ho'
      refine ⟨by simp [TrackOutcome.wrote], fun h => by simp [TrackOutcome.wrote] at h,
        fun _ => ⟨rfl, ?_, hdb.symm⟩⟩
      rw [← htr]

/-- A record whose last change is 2020-01-01 00:00:00, seen with a change 999.999999 ms later:
the call writes nothing and reports unchanged. -/
theorem subsecond_drift_writes_nothing :
    let key : RecordKey := ⟨"libA", "rec1"⟩
    let day : Cell := .text "2020-01-01 00:00:00+00:00"
    let db : Database := ⟨some [⟨key, day, day, day, .null⟩]⟩
    let stored : RecordTimes :=
      ⟨some ⟨1577836800, 0⟩, some ⟨1577836800, 0⟩, some ⟨1577836800, 0⟩, none⟩
    let changedAt : Instant := ⟨1577836800, 999999999⟩
    let r := (Tracker.fresh 100).track db key changedAt ⟨1717228800, 0⟩
    key.Trackable ∧ (Tracker.fresh 100).current ≠ some key ∧
      (Tracker.fresh 100).store.lookup db key = .ok (some stored) ∧ r.result = .ok .unchanged ∧
      r.tracker.store = (Tracker.fresh 100).store ∧ r.db = db := by
  intro key day db stored changedAt r
  have hk : key.Trackable := ⟨rfl, rfl⟩
  have hc : (Tracker.fresh 100).current ≠ some key := by simp [Tracker.fresh]
  have hl : (Tracker.fresh 100).store.lookup db key = .ok (some stored) := by decide +kernel
  have ho : r.result = .ok .unchanged := by decide +kernel
  obtain ⟨-, hfound, -⟩ := track_decision_table hk hc hl ho
  obtain ⟨-, -, hkept⟩ := hfound stored rfl
  obtain ⟨-, hs, hdb⟩ := hkept rfl
  exact ⟨hk, hc, hl, ho, hs, hdb⟩

end ChangeLedger
