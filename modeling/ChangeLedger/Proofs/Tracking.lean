import ChangeLedger.Proofs.Visibility
import ChangeLedger.Tracker.Basic
/-! # A tracker over any record store

A tracker uses its store through three operations only: look a key up, insert a row, update a
row. `RecordStore σ` names them for a store whose state is `σ`, and `TrackerOn σ` is the tracker
over such a store. The tracker over the batched store and its database is this one over
`Store.records` (`Tracker.trackAll_on`).

Two stores simulate each other under a relation (`RecordStore.Simulates`) when they answer every
lookup of an accepted key alike, and every write the tracker can make with the same result,
keeping the relation. A tracker cannot tell such stores apart: over any list of calls whose times
read back it answers alike on both (`RecordStore.Simulates.trackAll`).
-/
namespace ChangeLedger

/-- The operations a tracker uses on a store of state `σ`; a lookup leaves the state `looked`. -/
structure RecordStore (σ : Type) where
  lookup : σ → RecordKey → Except StoreError (Option RecordTimes)
  looked : σ → RecordKey → σ
  insert : σ → RowWrite → Except StoreError Unit × σ
  update : σ → RowWrite → Except StoreError Unit × σ

/-- A tracker over a store of state `σ`: the state, and the last key with its times. -/
structure TrackerOn (σ : Type) where
  store : σ
  current : Option RecordKey := none
  times : Option RecordTimes := none

/-- A key the tracker accepts: neither part is empty. -/
def RecordKey.Trackable (k : RecordKey) : Prop := k.ns.isEmpty = false ∧ k.id.isEmpty = false

/-- One event handed to a tracker: the key, when the record last changed, and the clock. -/
structure TrackCall where
  key : RecordKey
  changedAt : Instant
  now : Instant

def TrackCall.ReadsBack (c : TrackCall) : Prop := c.changedAt.ReadsBack ∧ c.now.ReadsBack

namespace TrackerOn

variable {σ : Type} (S : RecordStore σ)

/-- Look the key up and write what the event calls for, on the state the lookup leaves. -/
def apply (t : TrackerOn σ) (key : RecordKey) (changedAt now : Instant) :
    Except StoreError TrackOutcome × TrackerOn σ :=
  let looked := S.looked t.store key
  match S.lookup t.store key with
  | .error e => (.error e, { t with store := looked })
  | .ok none =>
    let w : RowWrite := ⟨key, now, now, changedAt⟩
    match S.insert looked w with
    | (.error e, st) => (.error e, { t with store := st })
    | (.ok (), st) => (.ok .inserted, { t with store := st, times := some w.times })
  | .ok (some stored) =>
    if stored.needsWrite changedAt then
      let w : RowWrite := ⟨key, stored.firstSeen.getD now, now, changedAt⟩
      match S.update looked w with
      | (.error e, st) => (.error e, { t with store := st, times := some stored })
      | (.ok (), st) =>
        (.ok (if stored.deletedAt.isSome then .restored else .updated),
          { t with store := st, times := some w.times })
    else (.ok .unchanged, { t with store := looked, times := some stored })

def track (t : TrackerOn σ) (key : RecordKey) (changedAt now : Instant) :
    Except TrackerError TrackOutcome × TrackerOn σ :=
  if key.ns.isEmpty then (.error .emptyNamespace, t)
  else if key.id.isEmpty then (.error .emptyId, t)
  else if t.current = some key then (.ok .repeated, t)
  else
    match apply S { t with current := some key } key changedAt now with
    | (.ok o, t') => (.ok o, t')
    | (.error e, t') => (.error (.storage e), { t' with current := none, times := none })

def trackAll (t : TrackerOn σ) : List TrackCall →
    List (Except TrackerError TrackOutcome) × TrackerOn σ
  | [] => ([], t)
  | c :: cs =>
    let r := track S t c.key c.changedAt c.now
    let rest := trackAll r.2 cs
    (r.1 :: rest.1, rest.2)

/-! ### What one call does, by the lookup's answer -/

variable {S} {t : TrackerOn σ} {key : RecordKey} {changedAt now : Instant}

theorem track_of_accepted (hk : key.Trackable) (hc : t.current ≠ some key) :
    track S t key changedAt now =
      match apply S { t with current := some key } key changedAt now with
      | (.ok o, t') => (.ok o, t')
      | (.error e, t') => (.error (.storage e), { t' with current := none, times := none }) := by
  rw [track, if_neg (by simp [hk.1]), if_neg (by simp [hk.2]), if_neg hc]

theorem write_eq_ok {r : Except StoreError Unit × σ} (h : r.1 = .ok ()) : r = (.ok (), r.2) := by
  rw [← h]

theorem track_of_absent (hk : key.Trackable) (hc : t.current ≠ some key)
    (hl : S.lookup t.store key = .ok none)
    (hi : (S.insert (S.looked t.store key) ⟨key, now, now, changedAt⟩).1 = .ok ()) :
    track S t key changedAt now = (.ok .inserted,
      ⟨(S.insert (S.looked t.store key) ⟨key, now, now, changedAt⟩).2, some key,
        some (RowWrite.times ⟨key, now, now, changedAt⟩)⟩) := by
  rw [track_of_accepted hk hc, apply]
  simp only [hl]
  rw [write_eq_ok hi]

theorem track_of_rewrite (hk : key.Trackable) (hc : t.current ≠ some key)
    {stored : RecordTimes} (hl : S.lookup t.store key = .ok (some stored))
    (hw : stored.needsWrite changedAt = true)
    (hu : (S.update (S.looked t.store key) ⟨key, stored.firstSeen.getD now, now, changedAt⟩).1 =
      .ok ()) :
    track S t key changedAt now =
      (.ok (if stored.deletedAt.isSome then .restored else .updated),
        ⟨(S.update (S.looked t.store key) ⟨key, stored.firstSeen.getD now, now, changedAt⟩).2,
          some key, some (RowWrite.times ⟨key, stored.firstSeen.getD now, now, changedAt⟩)⟩) := by
  rw [track_of_accepted hk hc, apply]
  simp only [hl, hw, if_true]
  rw [write_eq_ok hu]

theorem track_of_kept (hk : key.Trackable) (hc : t.current ≠ some key)
    {stored : RecordTimes} (hl : S.lookup t.store key = .ok (some stored))
    (hw : stored.needsWrite changedAt = false) :
    track S t key changedAt now = (.ok .unchanged, ⟨S.looked t.store key, some key, some stored⟩) := by
  rw [track_of_accepted hk hc, apply]
  simp only [hl, hw]
  rfl

end TrackerOn

/-! ## The batched store as a record store -/

/-- The batched store with its database. -/
def Store.records : RecordStore (Store × Database) where
  lookup sd key := sd.1.lookup sd.2 key
  looked sd key := (sd.1.afterLookup sd.2 key, sd.2)
  insert sd w := ((sd.1.insert sd.2 w).result, ((sd.1.insert sd.2 w).store, (sd.1.insert sd.2 w).db))
  update sd w := ((sd.1.update sd.2 w).result, ((sd.1.update sd.2 w).store, (sd.1.update sd.2 w).db))

/-- A lookup changes only the store's connection. -/
theorem Store.records_looked (s : Store) (db : Database) (k : RecordKey) :
    ∃ c, Store.records.looked (s, db) k = ({ s with conn := c }, db) := by
  obtain ⟨c, hc⟩ := Store.afterLookup_eq s db k
  exact ⟨c, by simp only [Store.records, hc]⟩

theorem Store.records_looked_of {I : Store × Database → Prop}
    (hI : ∀ s db (c : Connection), I (s, db) → I ({ s with conn := c }, db))
    {sd : Store × Database} (h : I sd) (k : RecordKey) : I (Store.records.looked sd k) := by
  obtain ⟨s, db⟩ := sd
  obtain ⟨c, hc⟩ := Store.records_looked s db k
  rw [hc]
  exact hI s db c h

theorem Store.records_insert (s : Store) (t : Table) (w : RowWrite) :
    ∃ c, Store.records.insert (Store.records.looked (s, ⟨some t⟩) w.key) w = (.ok (),
      ({ s with queues := (s.queues.insertTo t w).1, conn := c },
        ⟨some (s.queues.insertTo t w).2⟩)) := by
  obtain ⟨c, hc⟩ := Store.records_looked s ⟨some t⟩ w.key
  obtain ⟨c', hc'⟩ := Store.insert_of_table { s with conn := c } t w
  exact ⟨c', by rw [hc]; simp only [Store.records, hc']⟩

theorem Store.records_update (s : Store) (t : Table) (w : RowWrite) :
    ∃ c, Store.records.update (Store.records.looked (s, ⟨some t⟩) w.key) w = (.ok (),
      ({ s with queues := (s.queues.updateTo t w).1, conn := c },
        ⟨some (s.queues.updateTo t w).2⟩)) := by
  obtain ⟨c, hc⟩ := Store.records_looked s ⟨some t⟩ w.key
  obtain ⟨c', hc'⟩ := Store.update_of_table { s with conn := c } t w
  exact ⟨c', by rw [hc]; simp only [Store.records, hc']⟩

namespace Tracker

def on (t : Tracker) (db : Database) : TrackerOn (Store × Database) := ⟨(t.store, db), t.current, t.times⟩

@[simp] theorem on_store (t : Tracker) (db : Database) : (t.on db).store = (t.store, db) := rfl

@[simp] theorem on_current (t : Tracker) (db : Database) : (t.on db).current = t.current := rfl

@[simp] theorem on_times (t : Tracker) (db : Database) : (t.on db).times = t.times := rfl

def trackAll (t : Tracker) (db : Database) : List TrackCall →
    List (Except TrackerError TrackOutcome) × Tracker × Database
  | [] => ([], t, db)
  | c :: cs =>
    let r := t.track db c.key c.changedAt c.now
    let rest := trackAll r.tracker r.db cs
    (r.result :: rest.1, rest.2)

/-! ### The three kinds of call -/

variable {tr : Tracker} {db : Database} {key : RecordKey} {changedAt now : Instant}

theorem track_of_not_trackable (hk : ¬ key.Trackable) :
    tr.track db key changedAt now =
      ⟨.error (if key.ns.isEmpty then .emptyNamespace else .emptyId), tr, db⟩ := by
  unfold RecordKey.Trackable at hk
  unfold track
  cases hns : key.ns.isEmpty
  · have hid : key.id.isEmpty = true := by simpa [hns] using hk
    simp [hid]
  · simp

theorem track_of_current (hk : key.Trackable) (hc : tr.current = some key) :
    tr.track db key changedAt now = ⟨.ok .repeated, tr, db⟩ := by
  simp [track, hk.1, hk.2, hc]

/-- An accepted call is its `apply`, a storage error wrapped and the remembered key forgotten. -/
theorem track_of_apply (hk : key.Trackable) (hc : tr.current ≠ some key)
    {r : Except StoreError TrackOutcome} {t' : Tracker} {db' : Database}
    (ha : { tr with current := some key }.apply db key changedAt now = (r, t', db')) :
    tr.track db key changedAt now =
      ⟨r.mapError .storage, if r.isOk then t' else { t' with current := none, times := none }, db'⟩ := by
  rw [track, if_neg (by simp [hk.1]), if_neg (by simp [hk.2]), if_neg hc, ha]
  cases r <;> rfl

theorem track_of_apply_ok (hk : key.Trackable) (hc : tr.current ≠ some key) {o : TrackOutcome}
    {t' : Tracker} {db' : Database}
    (ha : { tr with current := some key }.apply db key changedAt now = (.ok o, t', db')) :
    tr.track db key changedAt now = ⟨.ok o, t', db'⟩ :=
  track_of_apply hk hc ha

theorem track_of_apply_error (hk : key.Trackable) (hc : tr.current ≠ some key) {e : StoreError}
    {t' : Tracker} {db' : Database}
    (ha : { tr with current := some key }.apply db key changedAt now = (.error e, t', db')) :
    tr.track db key changedAt now =
      ⟨.error (.storage e), { t' with current := none, times := none }, db'⟩ :=
  track_of_apply hk hc ha

theorem apply_on (t : Tracker) (db : Database) (key : RecordKey) (changedAt now : Instant) :
    ((t.apply db key changedAt now).1,
      (t.apply db key changedAt now).2.1.on (t.apply db key changedAt now).2.2) =
      (t.on db).apply Store.records key changedAt now := by
  unfold Tracker.apply TrackerOn.apply
  simp only [Store.records, Tracker.on]
  cases t.store.lookup db key with
  | error e => rfl
  | ok found =>
    cases found with
    | none =>
      simp only
      cases ((t.store.afterLookup db key).insert db ⟨key, now, now, changedAt⟩).result <;> rfl
    | some stored =>
      simp only
      split
      · cases ((t.store.afterLookup db key).update db
          ⟨key, stored.firstSeen.getD now, now, changedAt⟩).result <;> rfl
      · rfl

theorem track_on (t : Tracker) (db : Database) (key : RecordKey) (changedAt now : Instant) :
    ((t.track db key changedAt now).result,
      (t.track db key changedAt now).tracker.on (t.track db key changedAt now).db) =
      (t.on db).track Store.records key changedAt now := by
  by_cases hk : key.Trackable
  · by_cases hc : t.current = some key
    · simp [track_of_current hk hc, TrackerOn.track, hk.1, hk.2, hc]
    · rcases ha : { t with current := some key }.apply db key changedAt now with ⟨r, t', db'⟩
      have hon := apply_on { t with current := some key } db key changedAt now
      rw [ha] at hon
      rw [track_of_apply hk hc ha, TrackerOn.track_of_accepted hk hc]
      rw [show ({ t.on db with current := some key } : TrackerOn (Store × Database)) =
        ({ t with current := some key } : Tracker).on db from rfl, ← hon]
      cases r <;> rfl
  · rw [track_of_not_trackable hk, TrackerOn.track]
    unfold RecordKey.Trackable at hk
    cases hns : key.ns.isEmpty
    · have hid : key.id.isEmpty = true := by simpa [hns] using hk
      simp [hid]
    · simp

theorem trackAll_on (t : Tracker) (db : Database) (calls : List TrackCall) :
    ((t.trackAll db calls).1, (t.trackAll db calls).2.1.on (t.trackAll db calls).2.2) =
      (t.on db).trackAll Store.records calls := by
  induction calls generalizing t db with
  | nil => rfl
  | cons c cs ih =>
    have hstep := track_on t db c.key c.changedAt c.now
    simp only [trackAll, TrackerOn.trackAll, ← hstep, ← ih]

end Tracker

/-! ## Stores a tracker cannot tell apart -/

namespace RecordStore

variable {σ τ : Type}

/-- Under `R`, the stores answer lookups of accepted keys alike and make the writes a tracker
makes with the same result, keeping `R`. -/
structure Simulates (S₁ : RecordStore σ) (S₂ : RecordStore τ) (R : σ → τ → Prop) : Prop where
  lookup : ∀ {a b} (k : RecordKey), R a b → k.Trackable → S₁.lookup a k = S₂.lookup b k
  looked : ∀ {a b} (k : RecordKey), R a b → k.Trackable → R (S₁.looked a k) (S₂.looked b k)
  insert : ∀ {a b} (w : RowWrite), R a b → w.key.Trackable → w.ReadsBack →
    S₂.lookup b w.key = .ok none →
    (S₁.insert (S₁.looked a w.key) w).1 = (S₂.insert (S₂.looked b w.key) w).1 ∧
      R (S₁.insert (S₁.looked a w.key) w).2 (S₂.insert (S₂.looked b w.key) w).2
  update : ∀ {a b} (w : RowWrite) (tm : RecordTimes), R a b → w.key.Trackable → w.ReadsBack →
    S₂.lookup b w.key = .ok (some tm) →
    (S₁.update (S₁.looked a w.key) w).1 = (S₂.update (S₂.looked b w.key) w).1 ∧
      R (S₁.update (S₁.looked a w.key) w).2 (S₂.update (S₂.looked b w.key) w).2
  firstSeen : ∀ {a b} (k : RecordKey) (tm : RecordTimes) (i : Instant), R a b →
    S₂.lookup b k = .ok (some tm) → tm.firstSeen = some i → i.ReadsBack

/-- Trackers over stores related by `R` that remember the same key and times. -/
structure Agree (R : σ → τ → Prop) (t₁ : TrackerOn σ) (t₂ : TrackerOn τ) : Prop where
  store : R t₁.store t₂.store
  current : t₁.current = t₂.current
  times : t₁.times = t₂.times

variable {S₁ : RecordStore σ} {S₂ : RecordStore τ} {R : σ → τ → Prop}

namespace Agree

variable {t₁ : TrackerOn σ} {t₂ : TrackerOn τ} {key : RecordKey} {changedAt now : Instant}

/-- Two results that answer alike with related states, taken apart. -/
theorem results_alike {α β γ : Type} {P : β → γ → Prop} {r₁ : α × β} {r₂ : α × γ}
    (h : r₁.1 = r₂.1 ∧ P r₁.2 r₂.2) : ∃ a b c, r₁ = (a, b) ∧ r₂ = (a, c) ∧ P b c := by
  rcases r₁ with ⟨a, b⟩
  rcases r₂ with ⟨a₂, c⟩
  obtain ⟨rfl, hP⟩ := h
  exact ⟨a, b, c, rfl, rfl, hP⟩

theorem apply (ht : Agree R t₁ t₂) (hl : S₁.lookup t₁.store key = S₂.lookup t₂.store key)
    (hlooked : R (S₁.looked t₁.store key) (S₂.looked t₂.store key))
    (hi : S₂.lookup t₂.store key = .ok none →
      (S₁.insert (S₁.looked t₁.store key) ⟨key, now, now, changedAt⟩).1 =
          (S₂.insert (S₂.looked t₂.store key) ⟨key, now, now, changedAt⟩).1 ∧
        R (S₁.insert (S₁.looked t₁.store key) ⟨key, now, now, changedAt⟩).2
          (S₂.insert (S₂.looked t₂.store key) ⟨key, now, now, changedAt⟩).2)
    (hu : ∀ tm, S₂.lookup t₂.store key = .ok (some tm) →
      (S₁.update (S₁.looked t₁.store key) ⟨key, tm.firstSeen.getD now, now, changedAt⟩).1 =
          (S₂.update (S₂.looked t₂.store key) ⟨key, tm.firstSeen.getD now, now, changedAt⟩).1 ∧
        R (S₁.update (S₁.looked t₁.store key) ⟨key, tm.firstSeen.getD now, now, changedAt⟩).2
          (S₂.update (S₂.looked t₂.store key) ⟨key, tm.firstSeen.getD now, now, changedAt⟩).2) :
    (TrackerOn.apply S₁ t₁ key changedAt now).1 = (TrackerOn.apply S₂ t₂ key changedAt now).1 ∧
      Agree R (TrackerOn.apply S₁ t₁ key changedAt now).2
        (TrackerOn.apply S₂ t₂ key changedAt now).2 := by
  unfold TrackerOn.apply
  dsimp only
  rw [hl]
  cases hlk : S₂.lookup t₂.store key with
  | error e => exact ⟨rfl, hlooked, ht.current, ht.times⟩
  | ok found =>
    cases found with
    | none =>
      dsimp only
      obtain ⟨res, st₁, st₂, h₁, h₂, hR⟩ := results_alike (hi hlk)
      rw [h₁, h₂]
      cases res with
      | error e => exact ⟨rfl, hR, ht.current, ht.times⟩
      | ok u => exact ⟨rfl, hR, ht.current, rfl⟩
    | some stored =>
      dsimp only
      by_cases hw : stored.needsWrite changedAt = true
      · rw [if_pos hw, if_pos hw]
        obtain ⟨res, st₁, st₂, h₁, h₂, hR⟩ := results_alike (hu stored hlk)
        rw [h₁, h₂]
        cases res <;> exact ⟨rfl, hR, ht.current, rfl⟩
      · rw [if_neg hw, if_neg hw]
        exact ⟨rfl, hlooked, ht.current, rfl⟩

theorem track (ht : Agree R t₁ t₂)
    (happly : key.Trackable →
      (TrackerOn.apply S₁ { t₁ with current := some key } key changedAt now).1 =
          (TrackerOn.apply S₂ { t₂ with current := some key } key changedAt now).1 ∧
        Agree R (TrackerOn.apply S₁ { t₁ with current := some key } key changedAt now).2
          (TrackerOn.apply S₂ { t₂ with current := some key } key changedAt now).2) :
    (TrackerOn.track S₁ t₁ key changedAt now).1 = (TrackerOn.track S₂ t₂ key changedAt now).1 ∧
      Agree R (TrackerOn.track S₁ t₁ key changedAt now).2
        (TrackerOn.track S₂ t₂ key changedAt now).2 := by
  unfold TrackerOn.track
  by_cases hns : key.ns.isEmpty = true
  · rw [if_pos hns, if_pos hns]
    exact ⟨rfl, ht⟩
  rw [if_neg hns, if_neg hns]
  by_cases hid : key.id.isEmpty = true
  · rw [if_pos hid, if_pos hid]
    exact ⟨rfl, ht⟩
  rw [if_neg hid, if_neg hid, ht.current]
  by_cases hcur : t₂.current = some key
  · rw [if_pos hcur, if_pos hcur]
    exact ⟨rfl, ht⟩
  rw [if_neg hcur, if_neg hcur]
  obtain ⟨res, u₁, u₂, h₁, h₂, hag⟩ :=
    results_alike (happly ⟨Bool.not_eq_true _ ▸ hns, Bool.not_eq_true _ ▸ hid⟩)
  rw [h₁, h₂]
  cases res with
  | ok o => exact ⟨rfl, hag⟩
  | error e => exact ⟨rfl, hag.store, rfl, rfl⟩

end Agree

namespace Simulates

variable (h : S₁.Simulates S₂ R)
include h

theorem apply {t₁ : TrackerOn σ} {t₂ : TrackerOn τ} (ht : Agree R t₁ t₂) {key : RecordKey}
    (hk : key.Trackable) {changedAt now : Instant} (hc : changedAt.ReadsBack)
    (hn : now.ReadsBack) :
    (TrackerOn.apply S₁ t₁ key changedAt now).1 = (TrackerOn.apply S₂ t₂ key changedAt now).1 ∧
      Agree R (TrackerOn.apply S₁ t₁ key changedAt now).2
        (TrackerOn.apply S₂ t₂ key changedAt now).2 := by
  refine ht.apply (h.lookup key ht.store hk) (h.looked key ht.store hk)
    (fun hl => h.insert ⟨key, now, now, changedAt⟩ ht.store hk ⟨hn, hn, hc⟩ hl) ?_
  intro stored hl
  -- the update keeps the stored first-seen time, which reads back
  have hf : (stored.firstSeen.getD now).ReadsBack := by
    cases hf : stored.firstSeen with
    | none => exact hn
    | some i => exact h.firstSeen key stored i ht.store hl hf
  exact h.update ⟨key, stored.firstSeen.getD now, now, changedAt⟩ stored ht.store hk ⟨hf, hn, hc⟩ hl

theorem track {t₁ : TrackerOn σ} {t₂ : TrackerOn τ} (ht : Agree R t₁ t₂) (key : RecordKey)
    {changedAt now : Instant} (hc : changedAt.ReadsBack) (hn : now.ReadsBack) :
    (TrackerOn.track S₁ t₁ key changedAt now).1 = (TrackerOn.track S₂ t₂ key changedAt now).1 ∧
      Agree R (TrackerOn.track S₁ t₁ key changedAt now).2
        (TrackerOn.track S₂ t₂ key changedAt now).2 :=
  ht.track fun hk => h.apply
    (show Agree R { t₁ with current := some key } { t₂ with current := some key } from
      ⟨ht.store, rfl, ht.times⟩) hk hc hn

/-- Over calls whose times read back, agreeing trackers give the same answers. -/
theorem trackAll {t₁ : TrackerOn σ} {t₂ : TrackerOn τ} (ht : Agree R t₁ t₂)
    {calls : List TrackCall} (hcalls : ∀ c ∈ calls, c.ReadsBack) :
    (TrackerOn.trackAll S₁ t₁ calls).1 = (TrackerOn.trackAll S₂ t₂ calls).1 ∧
      Agree R (TrackerOn.trackAll S₁ t₁ calls).2 (TrackerOn.trackAll S₂ t₂ calls).2 := by
  induction calls generalizing t₁ t₂ with
  | nil => exact ⟨rfl, ht⟩
  | cons c cs ih =>
    obtain ⟨hc, hn⟩ := hcalls c List.mem_cons_self
    obtain ⟨hres, hag⟩ := h.track ht c.key hc hn
    obtain ⟨hrest, hag'⟩ := ih hag fun c' hc' => hcalls c' (List.mem_cons_of_mem _ hc')
    simp only [TrackerOn.trackAll]
    exact ⟨by rw [hres, hrest], hag'⟩

end Simulates

/-- `I` survives every write a tracker makes at clock reading `now`. -/
structure KeepsAt (S : RecordStore σ) (I : σ → Prop) (now : Instant) : Prop where
  looked : ∀ {a} (key : RecordKey), I a → I (S.looked a key)
  insert : ∀ {a} (key : RecordKey) (changedAt : Instant), I a → S.lookup a key = .ok none →
    I (S.insert (S.looked a key) ⟨key, now, now, changedAt⟩).2
  update : ∀ {a} (key : RecordKey) (changedAt : Instant) (tm : RecordTimes), I a →
    S.lookup a key = .ok (some tm) →
    I (S.update (S.looked a key) ⟨key, tm.firstSeen.getD now, now, changedAt⟩).2

namespace KeepsAt

variable {S : RecordStore σ} {I : σ → Prop} {now : Instant} (h : S.KeepsAt I now)
include h

theorem apply {t : TrackerOn σ} (ht : I t.store) (key : RecordKey) (changedAt : Instant) :
    I (TrackerOn.apply S t key changedAt now).2.store := by
  unfold TrackerOn.apply
  dsimp only
  cases hl : S.lookup t.store key with
  | error e => exact h.looked key ht
  | ok found =>
    cases found with
    | none =>
      have hi := h.insert key changedAt ht hl
      dsimp only
      generalize S.insert (S.looked t.store key) ⟨key, now, now, changedAt⟩ = r at hi
      obtain ⟨res, st⟩ := r
      cases res <;> exact hi
    | some stored =>
      dsimp only
      by_cases hw : stored.needsWrite changedAt = true
      · rw [if_pos hw]
        have hu := h.update key changedAt stored ht hl
        generalize S.update (S.looked t.store key) ⟨key, stored.firstSeen.getD now, now, changedAt⟩ =
          r at hu
        obtain ⟨res, st⟩ := r
        cases res <;> exact hu
      · rw [if_neg hw]
        exact h.looked key ht

theorem track {t : TrackerOn σ} (ht : I t.store) (key : RecordKey) (changedAt : Instant) :
    I (TrackerOn.track S t key changedAt now).2.store := by
  unfold TrackerOn.track
  by_cases hns : key.ns.isEmpty = true
  · rw [if_pos hns]
    exact ht
  rw [if_neg hns]
  by_cases hid : key.id.isEmpty = true
  · rw [if_pos hid]
    exact ht
  rw [if_neg hid]
  by_cases hcur : t.current = some key
  · rw [if_pos hcur]
    exact ht
  rw [if_neg hcur]
  have ha := h.apply (t := { t with current := some key }) ht key changedAt
  generalize TrackerOn.apply S { t with current := some key } key changedAt now = r at ha
  obtain ⟨res, t'⟩ := r
  cases res <;> exact ha

end KeepsAt

/-- `I` survives every write a tracker makes. -/
structure Preserves (S : RecordStore σ) (I : σ → Prop) : Prop where
  looked : ∀ {a} (key : RecordKey), I a → I (S.looked a key)
  insert : ∀ {a} (w : RowWrite), I a → S.lookup a w.key = .ok none →
    I (S.insert (S.looked a w.key) w).2
  update : ∀ {a} (w : RowWrite) (tm : RecordTimes), I a → S.lookup a w.key = .ok (some tm) →
    I (S.update (S.looked a w.key) w).2

namespace Preserves

variable {S : RecordStore σ} {I : σ → Prop} (h : S.Preserves I)
include h

theorem keepsAt (now : Instant) : S.KeepsAt I now :=
  ⟨h.looked, fun key changedAt ha hl => h.insert ⟨key, now, now, changedAt⟩ ha hl,
    fun key changedAt tm ha hl => h.update ⟨key, tm.firstSeen.getD now, now, changedAt⟩ tm ha hl⟩

theorem apply {t : TrackerOn σ} (ht : I t.store) (key : RecordKey) (changedAt now : Instant) :
    I (TrackerOn.apply S t key changedAt now).2.store :=
  (h.keepsAt now).apply ht key changedAt

theorem track {t : TrackerOn σ} (ht : I t.store) (key : RecordKey) (changedAt now : Instant) :
    I (TrackerOn.track S t key changedAt now).2.store :=
  (h.keepsAt now).track ht key changedAt

end Preserves

end RecordStore

theorem Tracker.track_keepsAt {I : Store × Database → Prop} {now : Instant}
    (hI : Store.records.KeepsAt I now) (tr : Tracker) {db : Database} (h : I (tr.store, db))
    (key : RecordKey) (changedAt : Instant) :
    I ((tr.track db key changedAt now).tracker.store, (tr.track db key changedAt now).db) := by
  have hp := hI.track (t := tr.on db) h key changedAt
  rw [← Tracker.track_on] at hp
  exact hp

/-- An invariant that every write of `Store.records` keeps holds of a tracker's store and
database after any call. -/
theorem Tracker.track_preserves {I : Store × Database → Prop} (hI : Store.records.Preserves I)
    (tr : Tracker) {db : Database} (h : I (tr.store, db)) (key : RecordKey)
    (changedAt now : Instant) :
    I ((tr.track db key changedAt now).tracker.store, (tr.track db key changedAt now).db) :=
  Tracker.track_keepsAt (hI.keepsAt now) tr h key changedAt

end ChangeLedger
