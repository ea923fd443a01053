import ChangeLedger.Proofs.DeletionMarker
import ChangeLedger.Proofs.SharedTable
/-! # When a tracker restores a record

A tracker restores a record when the times its lookup finds carry a deletion marker. Where the
lookup answers from decides where the marker comes from: a queued update takes the marker the
committed row has now, the committed row has its own, and a queued insert has none, since the
row it will write carries none.

So with queues coherent with the table, a call that finds its key restores it exactly when the
committed row carries a marker and the tracker has no insert of that key queued
(`Tracker.track_restored_iff_marked`). This holds in every state of a session, whatever its
trackers, stores, marks and seeds did before (`tracker_restores_iff_marked`). The queued insert is
the one blind spot: when another writer commits the same key and it is marked while the insert
waits, the tracker does not see the marker (`queued_insert_hides_marker`).
-/
namespace ChangeLedger

theorem Cell.toInstant?_isSome_iff {c : Cell} {i : Nat} {col : TimeColumn} {d : Option Instant}
    (h : c.toInstant? i col = .ok d) : d.isSome = true ↔ c ≠ .null := by
  cases c with
  | null =>
    cases h
    simp
  | text s =>
    simp only [Cell.toInstant?] at h
    split at h
    · cases h
      simp
    · cases h
  | _ => simp [Cell.toInstant?] at h

theorem Batcher.findLast?_inserts_eq_none_iff {q : Batcher} {k : RecordKey} :
    q.inserts.findLast? (·.key == k) = none ↔ k ∉ q.insertKeys := by
  simp [Batch.findLast?_eq_none, insertKeys]

/-- The committed row of a key carries a deletion marker. -/
def Table.Marked (t : Table) (k : RecordKey) : Prop := ∃ r, t.find? k = some r ∧ r.deleted ≠ .null

/-- A lookup reports the committed row's marker, unless a queued insert of the key answers it. -/
theorem Store.lookup_marked_iff {s : Store} {t : Table} (hc : s.queues.Coherent t)
    {k : RecordKey} {stored : RecordTimes} (hl : s.lookup ⟨some t⟩ k = .ok (some stored)) :
    stored.deletedAt.isSome = true ↔ k ∉ s.queues.insertKeys ∧ t.Marked k := by
  cases hu : s.queues.updates.findLast? (·.key == k) with
  | some u =>
    -- a queued update: the marker is read from the committed row, and no insert is queued
    have hk : k ∈ s.queues.updateKeys :=
      Decidable.not_not.1 (mt Batcher.findLast?_updates_eq_none_iff.2 (by simp [hu]))
    have hi : k ∉ s.queues.insertKeys := fun hi => hc.disjoint k hi hk
    obtain ⟨d, hd, rfl⟩ := lookup_eq_some_of_pending_update _ hu hl
    simp only [hi, not_false_eq_true, true_and, Table.Marked]
    cases hf : t.find? k with
    | none =>
      rw [Table.deletedAt?_of_find?_none hf] at hd
      cases hd
      simp
    | some r =>
      rw [Table.deletedAt?_of_find?_some hf] at hd
      simpa using Cell.toInstant?_isSome_iff hd
  | none =>
    cases hi : s.queues.inserts.findLast? (·.key == k) with
    | some w =>
      -- a queued insert: the row it will write has no marker
      rw [lookup_of_pending_insert _ hu hi, Except.ok.injEq, Option.some.injEq] at hl
      subst hl
      have hk : k ∈ s.queues.insertKeys :=
        Decidable.not_not.1 (mt Batcher.findLast?_inserts_eq_none_iff.2 (by simp [hi]))
      simp [RowWrite.times, hk]
    | none =>
      -- nothing queued: the committed row answers, marker and all
      obtain ⟨r, hf, hr⟩ := Database.times?_eq_ok_some (times?_of_lookup_not_pending _ hu hi hl)
      rw [Cell.toInstant?_isSome_iff (Row.times_eq_ok hr).2.2.2]
      simp [Table.Marked, hf, Batcher.findLast?_inserts_eq_none_iff.1 hi]

/-- A call that finds its key restores the record exactly when the times found carry a marker. -/
theorem Tracker.track_restored_iff {tr : Tracker} {t : Table} {key : RecordKey}
    (hk : key.Trackable) (hcur : tr.current ≠ some key) {changedAt now : Instant}
    {stored : RecordTimes} (hl : tr.store.lookup ⟨some t⟩ key = .ok (some stored)) :
    (tr.track ⟨some t⟩ key changedAt now).result = .ok .restored ↔
      stored.deletedAt.isSome = true := by
  have hres : (tr.track ⟨some t⟩ key changedAt now).result =
      ((tr.on ⟨some t⟩).track Store.records key changedAt now).1 :=
    congrArg Prod.fst (Tracker.track_on tr ⟨some t⟩ key changedAt now)
  rw [hres]
  have hl' : Store.records.lookup (tr.on ⟨some t⟩).store key = .ok (some stored) := hl
  by_cases hw : stored.needsWrite changedAt = true
  · obtain ⟨p, hp⟩ := Store.records_update tr.store t ⟨key, stored.firstSeen.getD now, now, changedAt⟩
    rw [TrackerOn.track_of_rewrite hk hcur hl' hw (by rw [Tracker.on_store, hp])]
    cases stored.deletedAt.isSome <;> simp
  · -- a marked record always needs a write, so a kept one carries no marker
    rw [TrackerOn.track_of_kept hk hcur hl' (Bool.eq_false_iff.2 hw)]
    simp only [Except.ok.injEq, reduceCtorEq, false_iff]
    exact fun hd => hw (RecordTimes.needsWrite_of_deleted hd changedAt)

theorem Tracker.track_restored_iff_marked {tr : Tracker} {t : Table}
    (hc : tr.store.queues.Coherent t) {key : RecordKey} (hk : key.Trackable)
    (hcur : tr.current ≠ some key) {changedAt now : Instant} {stored : RecordTimes}
    (hl : tr.store.lookup ⟨some t⟩ key = .ok (some stored)) :
    (tr.track ⟨some t⟩ key changedAt now).result = .ok .restored ↔
      key ∉ tr.store.queues.insertKeys ∧ t.Marked key :=
  (track_restored_iff hk hcur hl).trans (Store.lookup_marked_iff hc hl)

theorem Session.track_of_tracker {s : Session} {i : Nat} {tr : Tracker} (h : s.tracker i = .ok tr)
    (key : RecordKey) (changedAt : Instant) :
    (s.track i key changedAt).1 = .ok (tr.track s.db key changedAt s.clock).result := by
  simp only [Session.track, Session.onTracker, h]

/-- In every reachable session, a call that finds its key restores the record exactly when the
committed row is marked, unless the tracker has an insert of the key queued. -/
theorem tracker_restores_iff_marked {nt ns limit : Nat} {clock : Instant} {seeds : List RawRow}
    {s₀ : Session} (h₀ : Session.start nt ns limit clock seeds = .ok s₀)
    (steps : List SessionStep) {i : Nat} {tr : Tracker} (htr : (s₀.runAll steps).tracker i = .ok tr)
    {key : RecordKey} (hk : key.Trackable) (hcur : tr.current ≠ some key) {stored : RecordTimes}
    (hl : tr.store.lookup (s₀.runAll steps).db key = .ok (some stored)) (changedAt : Instant) :
    ∃ t, (s₀.runAll steps).db = ⟨some t⟩ ∧
      (((s₀.runAll steps).track i key changedAt).1 = .ok (.ok .restored) ↔
        key ∉ tr.store.queues.insertKeys ∧ t.Marked key) := by
  obtain ⟨t₀, hc₀⟩ := Session.coherent_start h₀
  obtain ⟨t, hc⟩ := hc₀.runAll steps
  rw [hc.db] at hl
  refine ⟨t, hc.db, ?_⟩
  rw [Session.track_of_tracker htr, hc.db, Except.ok.injEq]
  exact Tracker.track_restored_iff_marked (hc.trackers tr (Session.mem_of_tracker htr)) hk hcur hl

theorem Except.exists_ok_of_check {ε α : Type} {x : Except ε α} {p : α → Bool}
    (h : (match x with | .ok a => p a | .error _ => false) = true) :
    ∃ a, x = .ok a ∧ p a = true := by
  cases x with
  | ok a => exact ⟨a, rfl, h⟩
  | error e => cases h

theorem restores_after_deletion_during_queued_update :
    let k : RecordKey := ⟨"libA", "rec1"⟩
    let e₁ : Instant := ⟨1577836800, 0⟩
    let e₂ : Instant := ⟨1577923200, 0⟩
    let now : Instant := ⟨1717228800, 0⟩
    let steps : List SessionStep := [.track 0 k e₁, .shutdown 0, .reopen 0, .track 0 k e₂,
      .markDeleted k ⟨1578182400, 0⟩, .track 0 ⟨"libA", "other"⟩ e₁]
    let s₀ : Session := ⟨{}, now, 100, [some (Tracker.fresh 100)], [], []⟩
    let stored : RecordTimes := ⟨some now, some now, some e₂, some ⟨1578182400, 0⟩⟩
    Session.start 1 0 100 now [] = .ok s₀ ∧
      ∃ tr, (s₀.runAll steps).tracker 0 = .ok tr ∧ tr.current ≠ some k ∧
        tr.store.lookup (s₀.runAll steps).db k = .ok (some stored) ∧
        ((s₀.runAll steps).track 0 k e₂).1 = .ok (.ok .restored) ∧
        ∃ t, (s₀.runAll steps).db = ⟨some t⟩ ∧
          (((s₀.runAll steps).track 0 k e₂).1 = .ok (.ok .restored) ↔
            k ∉ tr.store.queues.insertKeys ∧ t.Marked k) := by
  intro k e₁ e₂ now steps s₀ stored
  have h₀ : Session.start 1 0 100 now [] = .ok s₀ := rfl
  obtain ⟨tr, htr, hp⟩ := Except.exists_ok_of_check (x := (s₀.runAll steps).tracker 0)
    (p := fun tr => decide (tr.current ≠ some k) &&
      decide (tr.store.lookup (s₀.runAll steps).db k = .ok (some stored))) (by decide +kernel)
  simp only [Bool.and_eq_true, decide_eq_true_eq] at hp
  exact ⟨h₀, tr, htr, hp.1, hp.2, by decide +kernel,
    tracker_restores_iff_marked h₀ steps htr ⟨rfl, rfl⟩ hp.1 hp.2 e₂⟩

/-- A tracker whose insert of a marked record is still queued answers from that insert and does
not restore the record. -/
theorem queued_insert_hides_marker :
    let k : RecordKey := ⟨"libA", "rec1"⟩
    let e : Instant := ⟨1577836800, 0⟩
    let now : Instant := ⟨1717228800, 0⟩
    let steps : List SessionStep := [.track 0 k e, .track 1 k e, .shutdown 1,
      .markDeleted k ⟨1578182400, 0⟩, .track 0 ⟨"libA", "other"⟩ e]
    let s₀ : Session := ⟨{}, now, 100, [some (Tracker.fresh 100), some (Tracker.fresh 100)], [], []⟩
    let r : Row := ⟨k, now.cell, now.cell, e.cell, Instant.cell ⟨1578182400, 0⟩⟩
    Session.start 2 0 100 now [] = .ok s₀ ∧ (s₀.runAll steps).db = ⟨some [r]⟩ ∧
      r.deleted ≠ .null ∧ ((s₀.runAll steps).track 0 k e).1 = .ok (.ok .unchanged) := by
  intro k e now steps s₀ r
  exact ⟨rfl, by decide +kernel, by simp [r, Instant.cell], by decide +kernel⟩

end ChangeLedger
