import ChangeLedger.Proofs.SharedTable
import ChangeLedger.Tracker.Scoped
/-! # What a drop commits

Dropping a store shuts it down unless it already was, and a shutdown commits both queues, inserts
first, the first time only (`Store.drop_eq`). Nothing else opens or closes a store, so over a run
of calls the store is closed exactly when the run held a shutdown, and on a table that nothing
else writes no commit fails. A drop then commits what the queues hold at that moment, unless the
run shut the store down: after that a drop commits nothing, and rows queued since are discarded
(`drop_commits_queued_rows_unless_shut_down`, `drop_after_shutdown_discards_queued_insert`). A
scoped block shuts its tracker down at its end, whatever the block returned, so it leaves the table
its queues stand for; a block of events is such a block (`runBlock_commits_queued`).
-/
namespace ChangeLedger

namespace Store

@[simp] theorem flush_store_closed (s : Store) (db : Database) (kind : BatchKind) (force : Bool) :
    (s.flush db kind force).store.closed = s.closed := by
  unfold flush
  split
  · dsimp only
    split
    · rfl
    · split
      · rfl
      · split <;> rfl
  · rfl

@[simp] theorem insert_store_closed (s : Store) (db : Database) (w : RowWrite) :
    (s.insert db w).store.closed = s.closed :=
  flush_store_closed _ db .insert false

@[simp] theorem update_store_closed (s : Store) (db : Database) (w : RowWrite) :
    (s.update db w).store.closed = s.closed := by
  unfold update
  cases s.queues.foldIntoInsert? w with
  | some q => rfl
  | none => exact flush_store_closed _ db .update false

@[simp] theorem shutdown_closed (s : Store) (db : Database) : (s.shutdown db).1.closed = true := by
  unfold shutdown
  split
  · assumption
  · simp

/-- A drop commits both queues now unless the store was shut down. -/
theorem drop_eq (s : Store) (db : Database) :
    s.drop db = if s.closed then db else s.forceCommit db := by
  cases hc : s.closed
  · simp [drop, shutdown_of_open hc]
  · simp [drop, shutdown, hc]

theorem drop_of_closed_iff {s : Store} {db : Database} {P : Prop} (hdb : ∃ t, db = ⟨some t⟩)
    (hc : s.closed = true ↔ P) :
    ∃ t, db = ⟨some t⟩ ∧ (¬P → s.drop db = ⟨some (s.queues.commitTo t)⟩) ∧ (P → s.drop db = db) := by
  obtain ⟨t, rfl⟩ := hdb
  refine ⟨t, rfl, fun hno => ?_, fun hyes => ?_⟩
  · have hopen : s.closed = false := Bool.eq_false_iff.2 fun h => hno (hc.1 h)
    rw [drop_eq, hopen, if_neg Bool.false_ne_true, forceCommit_of_table]
  · rw [drop_eq, hc.2 hyes, if_pos rfl]

theorem records_preserves_open (b : Bool) :
    records.Preserves fun sd => (∃ t, sd.2 = ⟨some t⟩) ∧ sd.1.closed = b where
  looked k h := records_looked_of (I := fun sd => (∃ t, sd.2 = ⟨some t⟩) ∧ sd.1.closed = b)
    (fun _ _ _ h => h) h k
  insert := by
    rintro ⟨s, db⟩ w ⟨⟨t, rfl⟩, hb⟩ -
    obtain ⟨c, hc⟩ := records_looked s ⟨some t⟩ w.key
    obtain ⟨t', hdb, -⟩ := keptBy_insert { s with conn := c } t w
    rw [hc]
    exact ⟨⟨t', hdb⟩, by simpa [records] using hb⟩
  update := by
    rintro ⟨s, db⟩ w tm ⟨⟨t, rfl⟩, hb⟩ -
    obtain ⟨c, hc⟩ := records_looked s ⟨some t⟩ w.key
    obtain ⟨t', hdb, -⟩ := keptBy_update { s with conn := c } t w
    rw [hc]
    exact ⟨⟨t', hdb⟩, by simpa [records] using hb⟩

end Store

theorem Tracker.track_keeps_open (tr : Tracker) (t : Table) (key : RecordKey)
    (changedAt now : Instant) :
    (∃ t', (tr.track ⟨some t⟩ key changedAt now).db = ⟨some t'⟩) ∧
      (tr.track ⟨some t⟩ key changedAt now).tracker.store.closed = tr.store.closed :=
  Tracker.track_preserves (Store.records_preserves_open tr.store.closed) tr ⟨⟨t, rfl⟩, rfl⟩ key
    changedAt now

/-! ## Runs of calls -/

section Runs

variable {U X : Type} (step : U → X × Database → X × Database) (closed : X → Bool) (stop : U)

/-- A run keeps the table, and closes the store exactly when a step is `stop`, if each step does. -/
theorem foldl_keeps_table
    (h : ∀ u x t, (∃ t', (step u (x, ⟨some t⟩)).2 = ⟨some t'⟩) ∧
      (closed (step u (x, ⟨some t⟩)).1 = true ↔ closed x = true ∨ u = stop))
    (uses : List U) (x : X) (t : Table) :
    (∃ t', (uses.foldl (fun xd u => step u xd) (x, ⟨some t⟩)).2 = ⟨some t'⟩) ∧
      (closed (uses.foldl (fun xd u => step u xd) (x, ⟨some t⟩)).1 = true ↔
        closed x = true ∨ stop ∈ uses) := by
  induction uses generalizing x t with
  | nil => exact ⟨⟨t, rfl⟩, by simp⟩
  | cons u rest ih =>
    obtain ⟨⟨t₁, hdb⟩, hc⟩ := h u x t
    have hrun : (u :: rest).foldl (fun xd u => step u xd) (x, ⟨some t⟩) =
        rest.foldl (fun xd u => step u xd) ((step u (x, ⟨some t⟩)).1, ⟨some t₁⟩) := by
      rw [← hdb]
      rfl
    obtain ⟨hdb', hc'⟩ := ih (step u (x, ⟨some t⟩)).1 t₁
    rw [hrun]
    refine ⟨hdb', ?_⟩
    rw [hc', hc, List.mem_cons, @eq_comm _ stop, or_assoc]

end Runs

/-- What the owner of a tracker does with it: track an event, or shut it down. -/
inductive TrackerUse
  | track (c : TrackCall)
  | shutdown

/-- What the owner of a bare store does with it: a call, or a shutdown. -/
inductive StoreUse
  | call (c : StoreCall)
  | shutdown

namespace TrackerUse

def run : TrackerUse → Tracker × Database → Tracker × Database
  | .track c, (t, db) =>
    ((t.track db c.key c.changedAt c.now).tracker, (t.track db c.key c.changedAt c.now).db)
  | .shutdown, (t, db) => t.shutdown db

def runAll (uses : List TrackerUse) (td : Tracker × Database) : Tracker × Database :=
  uses.foldl (fun td u => u.run td) td

theorem run_keeps_table (u : TrackerUse) (tr : Tracker) (t : Table) :
    (∃ t', (u.run (tr, ⟨some t⟩)).2 = ⟨some t'⟩) ∧
      ((u.run (tr, ⟨some t⟩)).1.store.closed = true ↔ tr.store.closed = true ∨ u = .shutdown) := by
  cases u with
  | track c =>
    obtain ⟨hdb, hc⟩ := Tracker.track_keeps_open tr t c.key c.changedAt c.now
    exact ⟨hdb, by simp [run, hc]⟩
  | shutdown =>
    obtain ⟨t₁, hdb, -⟩ := Store.keptBy_shutdown tr.store t
    refine ⟨⟨t₁, hdb⟩, ?_⟩
    show (tr.store.shutdown ⟨some t⟩).1.closed = true ↔ _
    simp

theorem runAll_open (uses : List TrackerUse) (tr : Tracker) (t : Table) :
    (∃ t', (runAll uses (tr, ⟨some t⟩)).2 = ⟨some t'⟩) ∧
      ((runAll uses (tr, ⟨some t⟩)).1.store.closed = true ↔
        tr.store.closed = true ∨ TrackerUse.shutdown ∈ uses) :=
  foldl_keeps_table run (·.store.closed) .shutdown run_keeps_table uses tr t

end TrackerUse

namespace StoreUse

def run : StoreUse → Store × Database → Store × Database
  | .call c, sd => c.run sd
  | .shutdown, (s, db) => s.shutdown db

def runAll (uses : List StoreUse) (sd : Store × Database) : Store × Database :=
  uses.foldl (fun sd u => u.run sd) sd

theorem run_call_open (c : StoreCall) (s : Store) (t : Table) :
    (∃ t', (c.run (s, ⟨some t⟩)).2 = ⟨some t'⟩) ∧ (c.run (s, ⟨some t⟩)).1.closed = s.closed := by
  cases c with
  | insert w =>
    obtain ⟨t', hdb, -⟩ := Store.keptBy_insert s t w
    exact ⟨⟨t', hdb⟩, Store.insert_store_closed s _ w⟩
  | update w =>
    obtain ⟨t', hdb, -⟩ := Store.keptBy_update s t w
    exact ⟨⟨t', hdb⟩, Store.update_store_closed s _ w⟩
  | lookup k => exact ⟨⟨t, rfl⟩, Store.afterLookup_closed s _ k⟩
  | flush kind force =>
    obtain ⟨t', hdb, -⟩ := Store.keptBy_flush s t kind force
    exact ⟨⟨t', hdb⟩, Store.flush_store_closed s _ kind force⟩

theorem run_keeps_table (u : StoreUse) (s : Store) (t : Table) :
    (∃ t', (u.run (s, ⟨some t⟩)).2 = ⟨some t'⟩) ∧
      ((u.run (s, ⟨some t⟩)).1.closed = true ↔ s.closed = true ∨ u = .shutdown) := by
  cases u with
  | call c =>
    obtain ⟨hdb, hc⟩ := run_call_open c s t
    exact ⟨hdb, by simp [run, hc]⟩
  | shutdown =>
    obtain ⟨t₁, hdb, -⟩ := Store.keptBy_shutdown s t
    exact ⟨⟨t₁, hdb⟩, by simp [run]⟩

theorem runAll_open (uses : List StoreUse) (s : Store) (t : Table) :
    (∃ t', (runAll uses (s, ⟨some t⟩)).2 = ⟨some t'⟩) ∧
      ((runAll uses (s, ⟨some t⟩)).1.closed = true ↔ s.closed = true ∨ StoreUse.shutdown ∈ uses) :=
  foldl_keeps_table run Store.closed .shutdown run_keeps_table uses s t

end StoreUse

/-- Over a run of a fresh tracker's calls on a table, a drop commits the queues unless the run
shut the tracker down. -/
theorem TrackerUse.drop_runAll (limit : Nat) (t₀ : Table) (uses : List TrackerUse) :
    let r := runAll uses (Tracker.fresh limit, ⟨some t₀⟩)
    ∃ t, r.2 = ⟨some t⟩ ∧
      (TrackerUse.shutdown ∉ uses → r.1.store.drop r.2 = ⟨some (r.1.store.queues.commitTo t)⟩) ∧
      (TrackerUse.shutdown ∈ uses → r.1.store.drop r.2 = r.2) := by
  obtain ⟨hdb, hc⟩ := runAll_open uses (Tracker.fresh limit) t₀
  have hfresh : (Tracker.fresh limit).store.closed = false := rfl
  exact Store.drop_of_closed_iff hdb (by simpa [hfresh] using hc)

theorem StoreUse.drop_runAll (limit : Nat) (t₀ : Table) (uses : List StoreUse) :
    let r := runAll uses (Store.fresh limit, ⟨some t₀⟩)
    ∃ t, r.2 = ⟨some t⟩ ∧
      (StoreUse.shutdown ∉ uses → r.1.drop r.2 = ⟨some (r.1.queues.commitTo t)⟩) ∧
      (StoreUse.shutdown ∈ uses → r.1.drop r.2 = r.2) := by
  obtain ⟨hdb, hc⟩ := runAll_open uses (Store.fresh limit) t₀
  have hfresh : (Store.fresh limit).closed = false := rfl
  exact Store.drop_of_closed_iff hdb (by simpa [hfresh] using hc)

theorem Tracker.scoped_eq {α : Type} (limit : Nat) (db : Database)
    (block : Tracker → Database → α × Tracker × Database) :
    Tracker.scoped limit db block = ((block (Tracker.fresh limit) db).1,
      (block (Tracker.fresh limit) db).2.1.store.drop (block (Tracker.fresh limit) db).2.2) := rfl

/-- Over any run of a fresh tracker, a fresh store, or a scoped block, a drop commits what the
queues hold unless the run shut the store down, and then commits nothing. -/
theorem drop_commits_queued_rows_unless_shut_down (limit : Nat) (t₀ : Table) :
    (∀ uses : List TrackerUse,
      let r := TrackerUse.runAll uses (Tracker.fresh limit, ⟨some t₀⟩)
      ∃ t, r.2 = ⟨some t⟩ ∧
        (TrackerUse.shutdown ∉ uses → r.1.store.drop r.2 = ⟨some (r.1.store.queues.commitTo t)⟩) ∧
        (TrackerUse.shutdown ∈ uses → r.1.store.drop r.2 = r.2)) ∧
    (∀ uses : List StoreUse,
      let r := StoreUse.runAll uses (Store.fresh limit, ⟨some t₀⟩)
      ∃ t, r.2 = ⟨some t⟩ ∧
        (StoreUse.shutdown ∉ uses → r.1.drop r.2 = ⟨some (r.1.queues.commitTo t)⟩) ∧
        (StoreUse.shutdown ∈ uses → r.1.drop r.2 = r.2)) ∧
    (∀ {α : Type} (a : α) (uses : List TrackerUse),
      let r := TrackerUse.runAll uses (Tracker.fresh limit, ⟨some t₀⟩)
      let block := fun tr db => (a, TrackerUse.runAll uses (tr, db))
      ∃ t, r.2 = ⟨some t⟩ ∧
        (TrackerUse.shutdown ∉ uses →
          Tracker.scoped limit ⟨some t₀⟩ block = (a, ⟨some (r.1.store.queues.commitTo t)⟩)) ∧
        (TrackerUse.shutdown ∈ uses → Tracker.scoped limit ⟨some t₀⟩ block = (a, r.2))) := by
  refine ⟨TrackerUse.drop_runAll limit t₀, StoreUse.drop_runAll limit t₀, fun a uses => ?_⟩
  -- the block's shutdown is the drop of the tracker its run leaves
  obtain ⟨t, hdb, hno, hyes⟩ := TrackerUse.drop_runAll limit t₀ uses
  refine ⟨t, hdb, fun h => ?_, fun h => ?_⟩
  · rw [Tracker.scoped_eq, hno h]
  · rw [Tracker.scoped_eq, hyes h]

/-- A tracker shut down after its first insert and then used again: the drop loses the second
insert, which a forced commit at that moment would write. -/
theorem drop_after_shutdown_discards_queued_insert :
    let now : Instant := ⟨1717228800, 0⟩
    let changed : Instant := ⟨1577836800, 0⟩
    let r := TrackerUse.runAll [.track ⟨⟨"libA", "rec1"⟩, changed, now⟩, .shutdown,
      .track ⟨⟨"libA", "rec2"⟩, changed, now⟩] (Tracker.fresh 100, ⟨some []⟩)
    (r.1.store.drop r.2).table.map Table.keys = some [⟨"libA", "rec1"⟩] ∧
      (r.1.store.forceCommit r.2).table.map Table.keys =
        some [⟨"libA", "rec1"⟩, ⟨"libA", "rec2"⟩] := by
  constructor <;> rfl

theorem trackUntilFailure_runAll (clock : Nat → Instant) (events : List RecordEvent) :
    ∀ (i : Nat) (tr : Tracker) (db : Database) (done : List TrackOutcome),
      ∃ calls : List TrackCall, (trackUntilFailure clock i tr db done events).2 =
        TrackerUse.runAll (calls.map .track) (tr, db) := by
  induction events with
  | nil => exact fun _ _ _ _ => ⟨[], rfl⟩
  | cons ev evs ih =>
    intro i tr db done
    simp only [trackUntilFailure]
    split
    · obtain ⟨calls, h⟩ := ih (i + 1) _ _ _
      exact ⟨⟨ev.key, ev.changedAt, clock i⟩ :: calls, by rw [h]; rfl⟩
    · exact ⟨[⟨ev.key, ev.changedAt, clock i⟩], rfl⟩

/-- A block of events in a scoped tracker commits what its calls left queued. -/
theorem runBlock_commits_queued (limit : Nat) (clock : Nat → Instant) (t₀ : Table)
    (events : List RecordEvent) :
    ∃ calls : List TrackCall,
      let r := TrackerUse.runAll (calls.map .track) (Tracker.fresh limit, ⟨some t₀⟩)
      ∃ t, r.2 = ⟨some t⟩ ∧
        (runBlock limit clock ⟨some t₀⟩ events).db = ⟨some (r.1.store.queues.commitTo t)⟩ := by
  obtain ⟨calls, hcalls⟩ :=
    trackUntilFailure_runAll clock events 0 (Tracker.fresh limit) ⟨some t₀⟩ []
  obtain ⟨t, hdb, hno, -⟩ := TrackerUse.drop_runAll limit t₀ (calls.map .track)
  refine ⟨calls, t, hdb, ?_⟩
  have hblock : (runBlock limit clock ⟨some t₀⟩ events).db =
      (Tracker.scoped limit ⟨some t₀⟩ fun t db => trackUntilFailure clock 0 t db [] events).2 := rfl
  rw [hblock, Tracker.scoped_eq, hcalls]
  exact hno (by simp)

end ChangeLedger
