import ChangeLedger.Proofs.TrackDecision
/-! # The key a tracker remembers

A tracker remembers the key of its last call, and a call for that key again is `repeated`: it
reads and writes nothing, whatever its change time. A call with an empty namespace or id is
refused before anything else and changes nothing, the remembered key included. Any other call
remembers its key while it runs, and forgets it, with the remembered times, when the store fails.

So the remembered key is a function of the history of calls and results: that of the most recent
call that was not refused, if that call succeeded (`Tracker.Remembers`, kept by every call and so
by every run). A call is repeated exactly when that key is its own, and the call after a storage
error always asks the store (`tracker_cache_over_calls`).
-/
namespace ChangeLedger

def refused : Except TrackerError TrackOutcome → Bool
  | .error .emptyNamespace | .error .emptyId => true
  | _ => false

namespace Tracker

variable {tr t : Tracker} {db : Database} {key : RecordKey} {changedAt now : Instant}

theorem apply_current (t : Tracker) (db : Database) (key : RecordKey) (changedAt now : Instant) :
    (t.apply db key changedAt now).2.1.current = t.current := by
  unfold apply
  split
  · rfl
  · dsimp only
    split <;> rfl
  · dsimp only
    split
    · split <;> rfl
    · rfl

theorem apply_ne_repeated (t : Tracker) (db : Database) (key : RecordKey) (changedAt now : Instant) :
    (t.apply db key changedAt now).1 ≠ .ok .repeated := by
  unfold apply
  split
  · simp
  · dsimp only
    split <;> simp
  · dsimp only
    split
    · split
      · simp
      · split <;> simp
    · simp

/-- An accepted call answers what its lookup and write answer, and remembers its key on success. -/
theorem track_of_accepted (hk : key.Trackable) (hc : tr.current ≠ some key) :
    (tr.track db key changedAt now).result =
        ({ tr with current := some key }.apply db key changedAt now).1.mapError .storage ∧
      (∀ o, (tr.track db key changedAt now).result = .ok o →
        (tr.track db key changedAt now).tracker.current = some key) ∧
      (∀ e, (tr.track db key changedAt now).result = .error e →
        (tr.track db key changedAt now).tracker.current = none ∧
          (tr.track db key changedAt now).tracker.times = none) := by
  have hcur := apply_current { tr with current := some key } db key changedAt now
  rcases ha : { tr with current := some key }.apply db key changedAt now with ⟨r, t', db'⟩
  rw [ha] at hcur
  rw [track_of_apply hk hc ha, ha]
  cases r with
  | error e =>
    refine ⟨rfl, fun o h => ?_, fun _ _ => ⟨rfl, rfl⟩⟩
    cases h
  | ok o =>
    refine ⟨rfl, fun _ _ => hcur, fun e h => ?_⟩
    cases h

theorem track_repeated_iff (hk : key.Trackable) :
    (tr.track db key changedAt now).result = .ok .repeated ↔ tr.current = some key := by
  by_cases hc : tr.current = some key
  · simp [track_of_current hk hc, hc]
  · rw [(track_of_accepted hk hc).1]
    have hne := apply_ne_repeated { tr with current := some key } db key changedAt now
    refine ⟨fun h => ?_, fun h => absurd h hc⟩
    cases hr : ({ tr with current := some key }.apply db key changedAt now).1 with
    | ok o =>
      rw [hr] at hne h
      cases h
      exact absurd rfl hne
    | error e =>
      rw [hr] at h
      cases h

theorem trackable_of_not_refused
    (h : refused (tr.track db key changedAt now).result = false) : key.Trackable := by
  by_contra hk
  rw [track_of_not_trackable hk] at h
  split at h <;> cases h

theorem track_not_refused (hk : key.Trackable) :
    refused (tr.track db key changedAt now).result = false := by
  by_cases hc : tr.current = some key
  · simp [track_of_current hk hc, refused]
  · rw [(track_of_accepted hk hc).1]
    cases ({ tr with current := some key }.apply db key changedAt now).1 <;> rfl

end Tracker

/-- The most recent call of a history (oldest first) that was not refused, with its result. -/
def lastAccepted (hist : List (RecordKey × Except TrackerError TrackOutcome)) :
    Option (RecordKey × Except TrackerError TrackOutcome) :=
  hist.reverse.find? fun p => !refused p.2

@[simp] theorem lastAccepted_nil : lastAccepted [] = none := rfl

theorem lastAccepted_snoc (hist : List (RecordKey × Except TrackerError TrackOutcome))
    (k : RecordKey) (r : Except TrackerError TrackOutcome) :
    lastAccepted (hist ++ [(k, r)]) = if refused r then lastAccepted hist else some (k, r) := by
  cases h : refused r <;> simp [lastAccepted, h]

namespace Tracker

variable {tr : Tracker}

/-- The tracker remembers a key exactly when the most recent call of the history that was not
refused named that key and succeeded. -/
def Remembers (tr : Tracker) (hist : List (RecordKey × Except TrackerError TrackOutcome)) : Prop :=
  ∀ k, tr.current = some k ↔ ∃ o, lastAccepted hist = some (k, .ok o)

theorem remembers_new (s : Store) : Remembers { store := s } [] := by
  intro k
  simp

theorem Remembers.track {hist : List (RecordKey × Except TrackerError TrackOutcome)}
    (h : tr.Remembers hist) (db : Database) (key : RecordKey) (changedAt now : Instant) :
    (tr.track db key changedAt now).tracker.Remembers
      (hist ++ [(key, (tr.track db key changedAt now).result)]) := by
  by_cases hk : key.Trackable
  · intro k
    rw [lastAccepted_snoc, track_not_refused hk, if_neg Bool.false_ne_true]
    by_cases hc : tr.current = some key
    · rw [track_of_current hk hc]
      simp only [hc, Option.some.injEq, Prod.mk.injEq, Except.ok.injEq]
      exact ⟨fun hk' => ⟨_, hk', rfl⟩, fun ⟨_, hk', _⟩ => hk'⟩
    · cases hr : (tr.track db key changedAt now).result with
      | ok o =>
        rw [(track_of_accepted hk hc).2.1 o hr]
        simp only [Option.some.injEq, Prod.mk.injEq, Except.ok.injEq]
        exact ⟨fun hk' => ⟨o, hk', rfl⟩, fun ⟨_, hk', _⟩ => hk'⟩
      | error e =>
        rw [((track_of_accepted hk hc).2.2 e hr).1]
        simp
  · rw [track_of_not_trackable hk]
    have hr : refused (.error (if key.ns.isEmpty then .emptyNamespace else .emptyId)) = true := by
      split <;> rfl
    intro k
    rw [lastAccepted_snoc, hr, if_pos rfl]
    exact h k

/-- So does every run of calls. -/
theorem Remembers.trackAll {hist : List (RecordKey × Except TrackerError TrackOutcome)}
    (h : tr.Remembers hist) (db : Database) (calls : List TrackCall) :
    (tr.trackAll db calls).2.1.Remembers (hist ++ (calls.map (·.key)).zip (tr.trackAll db calls).1) := by
  induction calls generalizing tr db hist with
  | nil => simpa [Tracker.trackAll] using h
  | cons c cs ih =>
    have hstep := h.track db c.key c.changedAt c.now
    have hrest := ih hstep (tr.track db c.key c.changedAt c.now).db
    simpa [Tracker.trackAll, List.append_assoc] using hrest

end Tracker

/-- Over any calls on a new tracker: refused calls change nothing, a call is repeated exactly when
the last accepted one succeeded on its key, and a failed call forgets the key. -/
theorem tracker_cache_over_calls (s : Store) (db : Database) (pre : List TrackCall)
    (c : TrackCall) :
    let run := Tracker.trackAll { store := s } db pre
    let step := run.2.1.track run.2.2 c.key c.changedAt c.now
    (¬ c.key.Trackable →
      step = ⟨.error (if c.key.ns.isEmpty then .emptyNamespace else .emptyId), run.2.1, run.2.2⟩) ∧
    (c.key.Trackable → (step.result = .ok .repeated ↔
      ∃ o, lastAccepted ((pre.map (·.key)).zip run.1) = some (c.key, .ok o))) ∧
    (step.result = .ok .repeated → step = ⟨.ok .repeated, run.2.1, run.2.2⟩) ∧
    (∀ e, step.result = .error (.storage e) →
      step.tracker.current = none ∧ step.tracker.times = none ∧
        ∀ (key : RecordKey) (changedAt now : Instant), key.Trackable →
          (step.tracker.track step.db key changedAt now).result =
            ({ step.tracker with current := some key }.apply step.db key changedAt now).1.mapError
              .storage) := by
  dsimp only
  generalize hrun : Tracker.trackAll { store := s } db pre = run
  obtain ⟨results, tr, db'⟩ := run
  have hrem : tr.Remembers ((pre.map (·.key)).zip results) := by
    have h := (Tracker.remembers_new s).trackAll db pre
    rw [hrun] at h
    simpa using h
  refine ⟨Tracker.track_of_not_trackable, fun hk => ?_, fun hrep => ?_, fun e he => ?_⟩
  · rw [Tracker.track_repeated_iff hk]
    exact hrem c.key
  · -- only an accepted key can be repeated, and then it is the remembered one
    have hk : c.key.Trackable := Tracker.trackable_of_not_refused (by rw [hrep]; rfl)
    exact Tracker.track_of_current hk ((Tracker.track_repeated_iff hk).1 hrep)
  · have hk : c.key.Trackable := Tracker.trackable_of_not_refused (by rw [he]; rfl)
    have hc : tr.current ≠ some c.key := by
      intro hc
      rw [Tracker.track_of_current hk hc] at he
      cases he
    obtain ⟨hcur, htimes⟩ := (Tracker.track_of_accepted hk hc).2.2 _ he
    refine ⟨hcur, htimes, fun key changedAt now hk' => ?_⟩
    exact (Tracker.track_of_accepted hk' (by simp [hcur])).1

end ChangeLedger
