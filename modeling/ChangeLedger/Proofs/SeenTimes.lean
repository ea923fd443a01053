import ChangeLedger.Proofs.TrackerCache
import ChangeLedger.Proofs.BatchCommit
import ChangeLedger.Proofs.WriteThrough
/-! # What the seen-time accessors report

A tracker remembers the times of its current record, and `Tracker.firstSeen` and
`Tracker.lastSeen` print them in whole seconds, or fail with no current record when the time is
missing. Each branch of a call takes the times from a different place: the row it wrote, for an
insert or a rewrite; the looked-up row, for a record left alone; the call before, for a repeated
one.

For a tracker whose store is the only writer of its table (`Store.SoleOver`), what it remembers
is what a lookup of its record finds now, but for the deletion marker (`Tracker.SeesStore`).
Every call and every shutdown keeps this, as long as the times the tracker writes read back as
written. So after any run the accessors print the first- and last-seen times a lookup finds for
the record of the last call that succeeded, and fail while no call has succeeded since the last
storage error (`seen_times_follow_store_view`).

The times can be missing even then: a committed row that another writer left without a
first-indexed time and that needs no write is remembered as found
(`unchanged_row_without_first_indexed_has_no_first_seen`).
-/
namespace ChangeLedger

def RecordTimes.withoutMark (tm : RecordTimes) : RecordTimes := { tm with deletedAt := none }

@[simp] theorem RecordTimes.withoutMark_firstSeen (tm : RecordTimes) :
    tm.withoutMark.firstSeen = tm.firstSeen := rfl

@[simp] theorem RecordTimes.withoutMark_lastSeen (tm : RecordTimes) :
    tm.withoutMark.lastSeen = tm.lastSeen := rfl

@[simp] theorem RecordTimes.withoutMark_mark (tm : RecordTimes) (d : Option Instant) :
    { tm with deletedAt := d }.withoutMark = tm.withoutMark := rfl

def secondsOr : Option Instant → Except TrackerError String
  | some i => .ok i.toSecondsText
  | none => .error .noCurrentRecord

theorem Tracker.firstSeen_eq (t : Tracker) :
    t.firstSeen = secondsOr (t.times.bind (·.firstSeen)) := by
  unfold Tracker.firstSeen secondsOr
  cases t.times.bind (·.firstSeen) <;> rfl

theorem Tracker.lastSeen_eq (t : Tracker) :
    t.lastSeen = secondsOr (t.times.bind (·.lastSeen)) := by
  unfold Tracker.lastSeen secondsOr
  cases t.times.bind (·.lastSeen) <;> rfl

theorem mapError_eq_ok {ε ε' α : Type} {x : Except ε α} {f : ε → ε'} {a : α} :
    x.mapError f = .ok a ↔ x = .ok a := by
  cases x <;> simp [Except.mapError]

/-! ## Tables whose first-indexed times read back -/

namespace Table

variable {t : Table}

/-- Every first-indexed cell of the table that reads as an instant reads back as written. -/
def FirstReadable (t : Table) : Prop :=
  ∀ k r i, t.find? k = some r → r.firstIndexed.toInstant? 0 .firstIndexed = .ok (some i) →
    i.ReadsBack

theorem FirstReadable.upsert (h : t.FirstReadable) {w : RowWrite} (hw : w.firstSeen.ReadsBack) :
    (t.upsert w).FirstReadable := by
  intro k r i hr hi
  cases hf : t.find? w.key with
  | none =>
    rw [upsert_of_find?_eq_none hf, find?_append_row] at hr
    cases hk : t.find? k with
    | some r' =>
      rw [hk, Option.some_or] at hr
      cases hr
      exact h k r i hk hi
    | none =>
      -- the appended row holds the write's first-seen time
      rw [hk, Option.none_or] at hr
      split at hr
      · cases hr
        rw [show w.toRow.firstIndexed = w.firstSeen.cell from rfl,
          Instant.cell_toInstant? hw] at hi
        cases hi
        exact hw
      · cases hr
  | some r₀ =>
    -- a merged row keeps its first-indexed cell
    rw [upsert_of_find?_eq_some hf, find?_modify t w.key k (·.merge w) fun _ => rfl] at hr
    split at hr
    · obtain ⟨r', hr', rfl⟩ := Option.map_eq_some_iff.1 hr
      exact h _ r' i hr' hi
    · exact h k r i hr hi

theorem FirstReadable.rewrite (h : t.FirstReadable) {w : RowWrite} (hw : w.firstSeen.ReadsBack) :
    (t.rewrite w).FirstReadable := by
  intro k r i hr hi
  rw [find?_rewrite] at hr
  split at hr
  · -- an overwritten row holds the write's first-seen time
    obtain ⟨r', -, rfl⟩ := Option.map_eq_some_iff.1 hr
    rw [show (r'.overwrite w).firstIndexed = w.firstSeen.cell from rfl,
      Instant.cell_toInstant? hw] at hi
    cases hi
    exact hw
  · exact h k r i hr hi

theorem FirstReadable.commit (h : t.FirstReadable) (kind : BatchKind) {ws : List RowWrite}
    (hws : ∀ w ∈ ws, w.firstSeen.ReadsBack) : (t.commit kind ws).FirstReadable := by
  induction ws generalizing t with
  | nil => cases kind <;> exact h
  | cons w ws ih =>
    have hrest : ∀ v ∈ ws, v.firstSeen.ReadsBack := fun v hv => hws v (List.mem_cons_of_mem _ hv)
    cases kind with
    | insert => exact ih (h.upsert (hws w List.mem_cons_self)) hrest
    | update => exact ih (h.rewrite (hws w List.mem_cons_self)) hrest

end Table

namespace Batcher

variable {q : Batcher} {t : Table}

theorem firstReadable_flushTo (hq : q.ReadsBack) (ht : t.FirstReadable) (kind : BatchKind)
    (force : Bool) : (q.flushTo t kind force).2.FirstReadable := by
  cases hd : q.isDue kind force
  · rw [flushTo_of_not_due hd]
    exact ht
  · rw [flushTo_of_due hd]
    exact ht.commit kind fun w hw => (AllWrites.take hq kind w hw).1

theorem firstReadable_commitTo (hq : q.ReadsBack) (ht : t.FirstReadable) :
    (q.commitTo t).FirstReadable :=
  (ht.commit .insert fun w hw => (hq w (.inl hw)).1).commit .update fun w hw => (hq w (.inr hw)).1

theorem firstReadable_insertTo (hq : q.ReadsBack) (ht : t.FirstReadable) {w : RowWrite}
    (hw : w.ReadsBack) : (q.insertTo t w).2.FirstReadable :=
  firstReadable_flushTo (AllWrites.enqueue hq hw .insert) ht .insert false

theorem firstReadable_updateTo (hq : q.ReadsBack) (ht : t.FirstReadable) {w : RowWrite}
    (hw : w.ReadsBack) : (q.updateTo t w).2.FirstReadable := by
  unfold updateTo
  cases q.foldIntoInsert? w with
  | some q' => exact ht
  | none => exact firstReadable_flushTo (AllWrites.enqueue hq hw .update) ht .update false

theorem updateTo_table_or_empty (q : Batcher) (t : Table) (w : RowWrite) :
    (q.updateTo t w).2 = t ∨ (q.updateTo t w).1.updates.items = [] := by
  unfold updateTo
  cases q.foldIntoInsert? w with
  | some q' => exact .inl rfl
  | none =>
    cases hd : (q.enqueue .update w).1.isDue .update false
    · exact .inl (by rw [flushTo_of_not_due hd])
    · exact .inr (by rw [flushTo_of_due hd]; rfl)

theorem view_insertTo (h : q.Fresh t) {w : RowWrite} (hi : w.key ∉ q.insertKeys)
    (hu : w.key ∉ q.updateKeys) (ht : w.key ∉ t.keys) (hw : w.ReadsBack) :
    (⟨some ((q.insertTo t w).1.commitTo (q.insertTo t w).2)⟩ : Database).times? w.key =
      .ok (some w.times) := by
  have hnew : w.key ∉ (q.commitTo t).keys := by
    simp only [commitTo, Table.keys_rewriteAll, Table.mem_keys_upsertAll, not_or]
    exact ⟨ht, hi⟩
  rw [commitTo_insertTo h.toCoherent hi hu, Table.upsert_of_fresh hnew, Database.times?_of_table,
    Table.find?_append_row, Table.find?_eq_none_iff.2 hnew]
  simp [RowWrite.toRow_times hw, Functor.map, Except.map]

theorem view_updateTo (h : q.Fresh t) {w : RowWrite} (hk : w.key ∈ q.insertKeys ∨ w.key ∈ t.keys)
    (hw : w.ReadsBack) :
    (⟨some ((q.updateTo t w).1.commitTo (q.updateTo t w).2)⟩ : Database).times? w.key =
      .ok (some w.times) := by
  have hmem : w.key ∈ (q.commitTo t).keys := by
    simp only [commitTo, Table.keys_rewriteAll, Table.mem_keys_upsertAll]
    exact hk.symm
  obtain ⟨r, hr⟩ := Option.isSome_iff_exists.1 (Table.find?_isSome_iff.2 hmem)
  rw [commitTo_updateTo h hk, Database.times?_of_table, Table.find?_rewrite, if_pos rfl, hr,
    Option.map_some]
  dsimp only
  rw [Row.overwrite_times r hw]
  rfl

theorem updateTo_of_queued (h : q.Coherent t) {w : RowWrite}
    (hu : w.key ∈ (q.updateTo t w).1.updateKeys) :
    (q.updateTo t w).2 = t ∧ w.key ∉ q.insertKeys := by
  refine ⟨(updateTo_table_or_empty q t w).resolve_right fun he => ?_, fun hmem => ?_⟩
  · rw [updateKeys, he] at hu
    cases hu
  · rcases updateTo_cases (t := t) w h.inserts_nodup with ⟨-, he⟩ | ⟨hni, -⟩
    · rw [he] at hu
      exact h.disjoint _ hmem hu
    · exact hni hmem

end Batcher

/-! ## What a lookup finds, for a store that is the only writer -/

namespace Store

variable {s : Store} {t : Table}

/-- The store is the only writer of the table the database holds, and every first-indexed time
that table holds reads back. -/
def SoleOver (s : Store) (db : Database) : Prop :=
  ∃ t, db = ⟨some t⟩ ∧ s.Sole t ∧ t.FirstReadable

theorem sole_of_empty (hi : s.queues.inserts.items = []) (hu : s.queues.updates.items = []) :
    s.Sole t := by
  refine ⟨⟨⟨?_, fun k hk => ?_, fun k hk => ?_⟩, fun k hk => ?_⟩, fun w hw => ?_⟩ <;>
    simp_all [Batcher.insertKeys, Batcher.updateKeys]

theorem lookup_of_empty (hi : s.queues.inserts.items = []) (hu : s.queues.updates.items = [])
    (db : Database) (k : RecordKey) : s.lookup db k = (db.times? k).mapError .database := by
  have hnu : s.queues.updates.findLast? (·.key == k) = none :=
    Batch.findLast?_eq_none.2 (by simp [hu])
  have hni : s.queues.inserts.findLast? (·.key == k) = none :=
    Batch.findLast?_eq_none.2 (by simp [hi])
  exact lookup_of_not_pending db hnu hni

theorem Sole.firstSeen_readsBack (h : s.Sole t) (ht : t.FirstReadable) {k : RecordKey}
    {tm : RecordTimes} (hl : s.lookup ⟨some t⟩ k = .ok (some tm)) {i : Instant}
    (hi : tm.firstSeen = some i) : i.ReadsBack := by
  cases hu : s.queues.updates.findLast? (·.key == k) with
  | some u =>
    obtain ⟨-, hum⟩ := Batch.findLast?_eq_some hu
    obtain ⟨d, -, rfl⟩ := lookup_eq_some_of_pending_update _ hu hl
    cases hi
    exact (h.readsBack u (.inr hum)).1
  | none =>
    cases hq : s.queues.inserts.findLast? (·.key == k) with
    | some w =>
      obtain ⟨-, hwm⟩ := Batch.findLast?_eq_some hq
      rw [lookup_of_pending_insert _ hu hq] at hl
      cases hl
      cases hi
      exact (h.readsBack w (.inl hwm)).1
    | none =>
      obtain ⟨r, hr, htm⟩ := Database.times?_eq_ok_some (times?_of_lookup_not_pending _ hu hq hl)
      exact ht k r i hr (by rw [(Row.times_eq_ok htm).1, hi])

theorem deletedAt?_of_lookup {k : RecordKey} {tm : RecordTimes}
    (hl : s.lookup ⟨some t⟩ k = .ok (some tm)) (hk : k ∉ s.queues.insertKeys) :
    ∃ d, (⟨some t⟩ : Database).deletedAt? k = .ok d := by
  cases hu : s.queues.updates.findLast? (·.key == k) with
  | some u =>
    obtain ⟨d, hd, -⟩ := lookup_eq_some_of_pending_update _ hu hl
    exact ⟨d, hd⟩
  | none =>
    have hq : s.queues.inserts.findLast? (·.key == k) = none := by
      rw [Batch.findLast?_eq_none]
      intro a ha
      simpa using fun he : a.key = k => hk (he ▸ List.mem_map_of_mem ha)
    exact ⟨_, Database.deletedAt?_of_times (times?_of_lookup_not_pending _ hu hq hl)⟩

/-- What a lookup finds is what the force-committed table holds for the key, but for the
deletion marker. -/
theorem Sole.view_of_lookup (h : s.Sole t) {k : RecordKey} {v : RecordTimes}
    (hl : s.lookup ⟨some t⟩ k = .ok (some v)) :
    ∃ v', (⟨some (s.queues.commitTo t)⟩ : Database).times? k = .ok (some v') ∧
      v'.withoutMark = v.withoutMark := by
  by_cases hk : k ∈ s.queues.updateKeys
  · -- the queued update's times, with the marker the committed row has now
    obtain ⟨u, hview, hlook⟩ := h.lookup_of_updated hk
    rw [forceCommit_of_table] at hview
    refine ⟨u.times, hview, ?_⟩
    rw [hlook, mapError_eq_ok] at hl
    cases hd : (⟨some t⟩ : Database).deletedAt? k with
    | error e =>
      rw [hd] at hl
      cases hl
    | ok d =>
      rw [hd] at hl
      cases hl
      rfl
  · rw [h.lookup_of_not_updated hk, forceCommit_of_table, mapError_eq_ok] at hl
    exact ⟨v, hl, rfl⟩

theorem Sole.known_of_lookup (h : s.Sole t) {k : RecordKey} {tm : RecordTimes}
    (hl : s.lookup ⟨some t⟩ k = .ok (some tm)) : k ∈ s.queues.insertKeys ∨ k ∈ t.keys := by
  rcases lookup_eq_ok_some hl with hu | hi | ht
  · exact .inr (h.fresh.updates_committed _ hu)
  · exact .inl hi
  · exact .inr ht

theorem Sole.insertTo (h : s.Sole t) {w : RowWrite} (hl : s.lookup ⟨some t⟩ w.key = .ok none)
    (hw : w.ReadsBack) (p : Connection) :
    Sole { s with queues := (s.queues.insertTo t w).1, conn := p } (s.queues.insertTo t w).2 := by
  obtain ⟨hu, hi, ht⟩ := lookup_eq_ok_none hl
  exact ⟨h.fresh.insertTo hi hu ht, h.readsBack.insertTo t hw⟩

theorem Sole.updateTo (h : s.Sole t) {w : RowWrite} {tm : RecordTimes}
    (hl : s.lookup ⟨some t⟩ w.key = .ok (some tm)) (hw : w.ReadsBack) (p : Connection) :
    Sole { s with queues := (s.queues.updateTo t w).1, conn := p } (s.queues.updateTo t w).2 :=
  ⟨h.fresh.updateTo (h.known_of_lookup hl), h.readsBack.updateTo t hw⟩

theorem Sole.lookup_insertTo (h : s.Sole t) {w : RowWrite} (hl : s.lookup ⟨some t⟩ w.key = .ok none)
    (hw : w.ReadsBack) (p : Connection) :
    ({ s with queues := (s.queues.insertTo t w).1, conn := p } : Store).lookup
      ⟨some (s.queues.insertTo t w).2⟩ w.key = .ok (some w.times) := by
  obtain ⟨hu, hi, ht⟩ := lookup_eq_ok_none hl
  have hu' : w.key ∉ (s.queues.insertTo t w).1.updateKeys := by
    rw [Batcher.updateKeys, Batcher.insertTo, Batcher.flushTo_insert_updates]
    exact hu
  rw [(h.insertTo hl hw p).lookup_of_not_updated hu', forceCommit_of_table]
  dsimp only
  rw [Batcher.view_insertTo h.fresh hi hu ht hw]
  rfl

theorem Sole.lookup_updateTo (h : s.Sole t) {w : RowWrite} {tm : RecordTimes}
    (hl : s.lookup ⟨some t⟩ w.key = .ok (some tm)) (hw : w.ReadsBack) (p : Connection) :
    ∃ v, ({ s with queues := (s.queues.updateTo t w).1, conn := p } : Store).lookup
      ⟨some (s.queues.updateTo t w).2⟩ w.key = .ok (some v) ∧ v.withoutMark = w.times := by
  have h' := h.updateTo hl hw p
  have hview := Batcher.view_updateTo h.fresh (h.known_of_lookup hl) hw
  by_cases hu : w.key ∈ (s.queues.updateTo t w).1.updateKeys
  · -- still queued: the write's times, with the marker of the committed row, which the update
    -- has not touched
    obtain ⟨u, hu_view, hlook⟩ := h'.lookup_of_updated hu
    rw [forceCommit_of_table] at hu_view
    have hut : u.times = w.times :=
      Option.some.inj (Except.ok.inj (hu_view.symm.trans hview))
    obtain ⟨htab, hni⟩ := Batcher.updateTo_of_queued h.fresh.toCoherent hu
    obtain ⟨d, hd⟩ := deletedAt?_of_lookup hl hni
    refine ⟨{ u.times with deletedAt := d }, ?_, by rw [RecordTimes.withoutMark_mark, hut]; rfl⟩
    rw [hlook, htab, hd]
    rfl
  · rw [h'.lookup_of_not_updated hu, forceCommit_of_table]
    exact ⟨w.times, by rw [hview]; rfl, rfl⟩

/-- A shutdown keeps a store the only writer of its table, and every record a lookup found is
found again after it, but for the deletion marker. -/
theorem Sole.shutdown (h : s.Sole t) (ht : t.FirstReadable) :
    (s.shutdown ⟨some t⟩).1.SoleOver (s.shutdown ⟨some t⟩).2 ∧
      ∀ k v, s.lookup ⟨some t⟩ k = .ok (some v) →
        ∃ v', (s.shutdown ⟨some t⟩).1.lookup (s.shutdown ⟨some t⟩).2 k = .ok (some v') ∧
          v'.withoutMark = v.withoutMark := by
  cases hc : s.closed
  · -- an open store commits both queues and empties them
    obtain ⟨hi, hu, -⟩ := shutdown_of_open_cases s ⟨some t⟩ hc
    have hdb : (s.shutdown ⟨some t⟩).2 = ⟨some (s.queues.commitTo t)⟩ := by
      rw [shutdown_of_open hc, forceCommit_of_table]
    refine ⟨⟨_, hdb, sole_of_empty hi hu, Batcher.firstReadable_commitTo h.readsBack ht⟩,
      fun k v hl => ?_⟩
    obtain ⟨v', hv', hvv⟩ := h.view_of_lookup hl
    refine ⟨v', ?_, hvv⟩
    rw [lookup_of_empty hi hu, hdb, hv']
    rfl
  · rw [shutdown_of_closed s ⟨some t⟩ hc]
    exact ⟨⟨t, rfl, h, ht⟩, fun k v hl => ⟨v, hl, rfl⟩⟩

end Store

/-! ## A tracker sees its store -/

namespace Tracker

variable {tr : Tracker} {db : Database} {key : RecordKey} {changedAt now : Instant}

/-- A lookup-and-write keeps a sole store sole and, when it succeeds, leaves the tracker's times
those a lookup of its key finds. -/
theorem apply_sees {t : Tracker} {tb : Table} (hs : t.store.Sole tb) (ht : tb.FirstReadable)
    (hc : changedAt.ReadsBack) (hn : now.ReadsBack) {r : Except StoreError TrackOutcome}
    {t' : Tracker} {db' : Database} (ha : t.apply ⟨some tb⟩ key changedAt now = (r, t', db')) :
    t'.store.SoleOver db' ∧ ∀ o, r = .ok o → ∃ tm v, t'.times = some tm ∧
      t'.store.lookup db' key = .ok (some v) ∧ v.withoutMark = tm.withoutMark := by
  -- the lookup changes only the store's connection
  obtain ⟨cl, hcl⟩ := Store.afterLookup_eq t.store ⟨some tb⟩ key
  have hs' := hs.withConn cl
  cases hl : t.store.lookup ⟨some tb⟩ key with
  | error e =>
    simp only [apply, hl, hcl, Prod.mk.injEq] at ha
    obtain ⟨rfl, rfl, rfl⟩ := ha
    exact ⟨⟨tb, rfl, hs', ht⟩, fun o ho => by cases ho⟩
  | ok found =>
    cases found with
    | none =>
      have hw : RowWrite.ReadsBack ⟨key, now, now, changedAt⟩ := ⟨hn, hn, hc⟩
      obtain ⟨p, hp⟩ := Store.insert_of_table { t.store with conn := cl } tb ⟨key, now, now, changedAt⟩
      simp only [apply, hl, hcl, hp, Prod.mk.injEq] at ha
      obtain ⟨rfl, rfl, rfl⟩ := ha
      rw [← Store.lookup_withConn t.store cl] at hl
      refine ⟨⟨_, rfl, hs'.insertTo hl hw p, Batcher.firstReadable_insertTo hs.readsBack ht hw⟩,
        fun o _ => ?_⟩
      exact ⟨_, _, rfl, hs'.lookup_insertTo hl hw p, rfl⟩
    | some stored =>
      cases hnw : stored.needsWrite changedAt
      · -- left alone: the tracker keeps the times it found
        rw [apply_of_kept hl hnw, hcl, Prod.mk.injEq, Prod.mk.injEq] at ha
        obtain ⟨rfl, rfl, rfl⟩ := ha
        exact ⟨⟨tb, rfl, hs', ht⟩, fun o _ => ⟨stored, stored, rfl, hl, rfl⟩⟩
      · -- rewritten, keeping the first-seen time found, or now when there was none
        have hfirst : (stored.firstSeen.getD now).ReadsBack := by
          cases hf : stored.firstSeen with
          | none => exact hn
          | some i => exact hs.firstSeen_readsBack ht hl hf
        have hw : RowWrite.ReadsBack ⟨key, stored.firstSeen.getD now, now, changedAt⟩ :=
          ⟨hfirst, hn, hc⟩
        obtain ⟨p, hp⟩ := Store.update_of_table { t.store with conn := cl } tb
          ⟨key, stored.firstSeen.getD now, now, changedAt⟩
        simp only [apply, hl, hnw, if_true, hcl, hp, Prod.mk.injEq] at ha
        obtain ⟨rfl, rfl, rfl⟩ := ha
        rw [← Store.lookup_withConn t.store cl] at hl
        refine ⟨⟨_, rfl, hs'.updateTo hl hw p, Batcher.firstReadable_updateTo hs.readsBack ht hw⟩,
          fun o _ => ?_⟩
        obtain ⟨v, hv, hvw⟩ := hs'.lookup_updateTo hl hw p
        exact ⟨_, v, rfl, hv, hvw⟩

/-- A tracker sees its store: the store is the table's only writer, and a current record's times
are those a lookup finds. -/
structure SeesStore (tr : Tracker) (db : Database) : Prop where
  sole : tr.store.SoleOver db
  forgets : tr.current = none → tr.times = none
  sees : ∀ k, tr.current = some k → ∃ tm v, tr.times = some tm ∧
    tr.store.lookup db k = .ok (some v) ∧ v.withoutMark = tm.withoutMark

theorem seesStore_fresh (limit : Nat) {t : Table} (ht : t.FirstReadable) :
    (Tracker.fresh limit).SeesStore ⟨some t⟩ :=
  ⟨⟨t, rfl, Store.sole_fresh limit t, ht⟩, fun _ => rfl, fun k hk => by cases hk⟩

theorem SeesStore.track (h : tr.SeesStore db) {c : TrackCall} (hc : c.ReadsBack) :
    (tr.track db c.key c.changedAt c.now).tracker.SeesStore
      (tr.track db c.key c.changedAt c.now).db := by
  by_cases hk : c.key.Trackable
  swap
  · rw [track_of_not_trackable hk]
    exact h
  by_cases hcur : tr.current = some c.key
  · rw [track_of_current hk hcur]
    exact h
  obtain ⟨t, rfl, hs, ht⟩ := h.sole
  rcases ha : { tr with current := some c.key }.apply ⟨some t⟩ c.key c.changedAt c.now with
    ⟨r, t', db'⟩
  have hcur' := apply_current { tr with current := some c.key } ⟨some t⟩ c.key c.changedAt c.now
  rw [ha] at hcur'
  obtain ⟨hsole, hsees⟩ := apply_sees (t := { tr with current := some c.key }) hs ht hc.1 hc.2 ha
  cases r with
  | error e =>
    -- a failure forgets key and times
    rw [track_of_apply_error hk hcur ha]
    exact ⟨hsole, fun _ => rfl, fun k hk' => by cases hk'⟩
  | ok o =>
    -- a success remembers the key, with the times the lookup-and-write left
    rw [track_of_apply_ok hk hcur ha]
    obtain ⟨tm, v, htm, hv, hvv⟩ := hsees o rfl
    have hkey : t'.current = some c.key := hcur'
    refine ⟨hsole, fun hn => ?_, fun k hkk => ?_⟩
    · rw [hkey] at hn
      cases hn
    · rw [hkey, Option.some.injEq] at hkk
      subst hkk
      exact ⟨tm, v, htm, hv, hvv⟩

theorem SeesStore.shutdown (h : tr.SeesStore db) : (tr.shutdown db).1.SeesStore (tr.shutdown db).2 := by
  obtain ⟨t, rfl, hs, ht⟩ := h.sole
  obtain ⟨hsole, hlook⟩ := hs.shutdown ht
  refine ⟨hsole, h.forgets, fun k hk => ?_⟩
  obtain ⟨tm, v, htm, hv, hvv⟩ := h.sees k hk
  obtain ⟨v', hv', hvv'⟩ := hlook k v hv
  exact ⟨tm, v', htm, hv', hvv'.trans hvv⟩

/-- Every run of calls and shutdowns keeps a tracker seeing its store. -/
theorem SeesStore.runAll (h : tr.SeesStore db) {uses : List TrackerUse}
    (hrb : ∀ c, TrackerUse.track c ∈ uses → c.ReadsBack) :
    (TrackerUse.runAll uses (tr, db)).1.SeesStore (TrackerUse.runAll uses (tr, db)).2 := by
  induction uses generalizing tr db with
  | nil => exact h
  | cons u us ih =>
    have hrest : ∀ c, TrackerUse.track c ∈ us → c.ReadsBack :=
      fun c hc => hrb c (List.mem_cons_of_mem _ hc)
    cases u with
    | track c => exact ih (h.track (hrb c List.mem_cons_self)) hrest
    | shutdown => exact ih h.shutdown hrest

end Tracker

/-! ## Runs and their history -/

/-- The calls of a run that reach `Tracker.track`, each with its key and result, in order. -/
def TrackerUse.log : List TrackerUse → Tracker × Database →
    List (RecordKey × Except TrackerError TrackOutcome)
  | [], _ => []
  | .track c :: uses, (t, db) =>
    (c.key, (t.track db c.key c.changedAt c.now).result) ::
      TrackerUse.log uses ((TrackerUse.track c).run (t, db))
  | .shutdown :: uses, td => TrackerUse.log uses (TrackerUse.shutdown.run td)

theorem Tracker.Remembers.runAll {tr : Tracker}
    {hist : List (RecordKey × Except TrackerError TrackOutcome)} (h : tr.Remembers hist)
    (uses : List TrackerUse) (db : Database) :
    (TrackerUse.runAll uses (tr, db)).1.Remembers (hist ++ TrackerUse.log uses (tr, db)) := by
  induction uses generalizing tr db hist with
  | nil =>
    rw [TrackerUse.log, List.append_nil]
    exact h
  | cons u us ih =>
    cases u with
    | track c =>
      have hrest := ih (h.track db c.key c.changedAt c.now) (tr.track db c.key c.changedAt c.now).db
      rw [List.append_assoc, List.singleton_append] at hrest
      exact hrest
    | shutdown =>
      exact ih (show (tr.shutdown db).1.Remembers hist from h) (tr.shutdown db).2

/-- Over any run on a table its store alone writes, the accessors print the seen times a lookup
of the last successful call's record finds now, and fail while there is none. -/
theorem seen_times_follow_store_view {B : Nat} {t₀ : Table} (ht₀ : t₀.FirstReadable)
    {uses : List TrackerUse} (hrb : ∀ c, TrackerUse.track c ∈ uses → c.ReadsBack) :
    let r := TrackerUse.runAll uses (Tracker.fresh B, ⟨some t₀⟩)
    let hist := TrackerUse.log uses (Tracker.fresh B, ⟨some t₀⟩)
    (∀ k o, lastAccepted hist = some (k, .ok o) →
      ∃ v, r.1.store.lookup r.2 k = .ok (some v) ∧
        r.1.firstSeen = secondsOr v.firstSeen ∧ r.1.lastSeen = secondsOr v.lastSeen) ∧
    ((∀ k o, lastAccepted hist ≠ some (k, .ok o)) →
      r.1.firstSeen = .error .noCurrentRecord ∧ r.1.lastSeen = .error .noCurrentRecord) := by
  intro r hist
  have hsees : r.1.SeesStore r.2 := (Tracker.seesStore_fresh B ht₀).runAll hrb
  have hrem : r.1.Remembers ([] ++ hist) :=
    (Tracker.remembers_new (Store.fresh B)).runAll uses ⟨some t₀⟩
  rw [List.nil_append] at hrem
  constructor
  · intro k o hk
    obtain ⟨tm, v, htm, hv, hvv⟩ := hsees.sees k ((hrem k).2 ⟨o, hk⟩)
    -- the marker aside, the remembered times are the ones found
    have hfirst : v.firstSeen = tm.firstSeen := by simpa using congrArg RecordTimes.firstSeen hvv
    have hlast : v.lastSeen = tm.lastSeen := by simpa using congrArg RecordTimes.lastSeen hvv
    refine ⟨v, hv, ?_, ?_⟩
    · rw [Tracker.firstSeen_eq, htm, hfirst]
      rfl
    · rw [Tracker.lastSeen_eq, htm, hlast]
      rfl
  · intro hnone
    have hcur : r.1.current = none := by
      cases hc : r.1.current with
      | none => rfl
      | some k =>
        obtain ⟨o, ho⟩ := (hrem k).1 hc
        exact absurd ho (hnone k o)
    rw [Tracker.firstSeen_eq, Tracker.lastSeen_eq, hsees.forgets hcur]
    exact ⟨rfl, rfl⟩

/-- One insert into an empty table: the accessors print the times a lookup finds. -/
theorem seen_times_after_first_insert :
    let c : TrackCall := ⟨⟨"libA", "rec1"⟩, ⟨1577836800, 0⟩, ⟨1717228800, 0⟩⟩
    let r := TrackerUse.runAll [.track c] (Tracker.fresh 100, ⟨some []⟩)
    Table.FirstReadable [] ∧ c.ReadsBack ∧
      ∃ v, r.1.store.lookup r.2 c.key = .ok (some v) ∧
        r.1.firstSeen = secondsOr v.firstSeen ∧ r.1.lastSeen = secondsOr v.lastSeen := by
  intro c r
  have ht : Table.FirstReadable [] := fun _ _ _ hr => by cases hr
  have hc : c.ReadsBack := ⟨by cbv, by cbv⟩
  have hrb : ∀ c', TrackerUse.track c' ∈ [TrackerUse.track c] → c'.ReadsBack := by
    intro c' hc'
    simp only [List.mem_singleton, TrackerUse.track.injEq] at hc'
    subst hc'
    exact hc
  exact ⟨ht, hc, (seen_times_follow_store_view ht hrb).1 c.key .inserted rfl⟩

/-- A row another writer left without a first-indexed time, tracked unchanged: the first-seen
accessor fails. -/
theorem unchanged_row_without_first_indexed_has_no_first_seen :
    let row : Row := ⟨⟨"libA", "rec1"⟩, .null, .text "2020-01-01 00:00:00+00:00",
      .text "2020-01-01 00:00:00+00:00", .null⟩
    let r := (Tracker.fresh 100).track ⟨some [row]⟩ ⟨"libA", "rec1"⟩ ⟨1577836800, 0⟩
      ⟨1717228800, 0⟩
    r.result = .ok .unchanged ∧ r.tracker.firstSeen = .error .noCurrentRecord ∧
      r.tracker.lastSeen = .ok "2020-01-01T00:00:00Z" := by
  cbv

end ChangeLedger
