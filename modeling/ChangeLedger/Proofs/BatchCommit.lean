import ChangeLedger.Proofs.Shutdown
/-! # A batch commits whole or not at all

A flush of one kind of queued write does nothing unless that batch is due: holding as many rows
as its limit, or forced and not empty. A due flush takes the whole batch out of the queues first,
whatever happens next, and leaves the other batch alone. It then runs every row of the batch, in
the order they were queued, as one transaction: either all of them and the flush succeeds, or it
fails and the database is as it was (`Store.flush_of_due`).

A shutdown is two forced flushes, inserts first, made the first time only: it closes the store,
nothing opens it again, and a closed store's shutdown does nothing (`StoreUse.runAll_closed`).
It reports no error, whatever its flushes met.
-/
namespace ChangeLedger

namespace Batch

variable {α : Type}

theorem isDue_eq_false_iff (b : Batch α) (force : Bool) :
    b.isDue force = false ↔ b.size < b.limit ∧ ¬(force = true ∧ b.items ≠ []) := by
  cases force <;> simp [isDue, isReady]

end Batch

namespace Batcher

@[simp] theorem batch_setBatch_self (q : Batcher) (kind : BatchKind) (b : Batch RowWrite) :
    (q.setBatch kind b).batch kind = b := by
  cases kind <;> rfl

theorem batch_setBatch_of_ne (q : Batcher) {kind other : BatchKind} (h : other ≠ kind)
    (b : Batch RowWrite) : (q.setBatch kind b).batch other = q.batch other := by
  cases kind <;> cases other <;> first | rfl | exact absurd rfl h

theorem take_eq (q : Batcher) (kind : BatchKind) :
    q.take kind = ((q.batch kind).items, q.setBatch kind { q.batch kind with items := [] }) := rfl

end Batcher

namespace Store

variable (s : Store) (db : Database) (kind : BatchKind) (force : Bool)

theorem flush_of_not_due (h : s.queues.isDue kind force = false) :
    s.flush db kind force = ⟨.ok (), s, db⟩ := by
  simp [flush, h]

/-- A due flush empties its batch and either runs all of it in queue order or fails, changing
nothing. -/
theorem flush_of_due (h : s.queues.isDue kind force = true) :
    (s.flush db kind force).store.queues = (s.queues.take kind).2 ∧
      (((s.flush db kind force).result = .ok () ∧
          db.applyAll (statement kind) (s.queues.take kind).1 = .ok (s.flush db kind force).db) ∨
        ((∃ e, (s.flush db kind force).result = .error e) ∧ (s.flush db kind force).db = db)) := by
  simp only [flush, h, if_true]
  -- the statement is prepared first, which may fail; an empty batch then runs no row at all
  split
  · exact ⟨rfl, .inr ⟨⟨_, rfl⟩, rfl⟩⟩
  · split
    · rename_i hempty
      rw [List.isEmpty_iff.1 hempty]
      exact ⟨rfl, .inl ⟨rfl, rfl⟩⟩
    · split
      · rename_i db' happly
        exact ⟨rfl, .inl ⟨rfl, happly⟩⟩
      · exact ⟨rfl, .inr ⟨⟨_, rfl⟩, rfl⟩⟩

theorem flush_forced_items : ((s.flush db kind true).store.queues.batch kind).items = [] := by
  cases hd : s.queues.isDue kind true with
  | false =>
    rw [flush_of_not_due s db kind true hd]
    have := (Batch.isDue_eq_false_iff (s.queues.batch kind) true).1 hd
    simpa using this.2
  | true =>
    rw [(flush_of_due s db kind true hd).1, Batcher.take_eq]
    simp

theorem flush_batch_of_ne {other : BatchKind} (h : other ≠ kind) :
    (s.flush db kind force).store.queues.batch other = s.queues.batch other := by
  cases hd : s.queues.isDue kind force with
  | false => rw [flush_of_not_due s db kind force hd]
  | true =>
    rw [(flush_of_due s db kind force hd).1, Batcher.take_eq]
    exact Batcher.batch_setBatch_of_ne _ h _

theorem flush_db_cases :
    (s.flush db kind force).db = db ∨
      db.applyAll (statement kind) (s.queues.batch kind).items = .ok (s.flush db kind force).db := by
  cases hd : s.queues.isDue kind force with
  | false => exact .inl (by rw [flush_of_not_due s db kind force hd])
  | true =>
    rcases (flush_of_due s db kind force hd).2 with ⟨-, happly⟩ | ⟨-, hdb⟩
    · exact .inr happly
    · exact .inl hdb

theorem shutdown_of_closed (h : s.closed = true) : s.shutdown db = (s, db) := by
  simp [shutdown, h]

/-- An open store's shutdown flushes the insert batch and then the update batch, forced, and
leaves both empty. -/
theorem shutdown_of_open_cases (h : s.closed = false) :
    (s.shutdown db).1.queues.inserts.items = [] ∧ (s.shutdown db).1.queues.updates.items = [] ∧
      ∃ db₁, (db₁ = db ∨ db.applyAll Database.upsert s.queues.inserts.items = .ok db₁) ∧
        ((s.shutdown db).2 = db₁ ∨
          db₁.applyAll Database.rewrite s.queues.updates.items = .ok (s.shutdown db).2) := by
  simp only [shutdown, h, Bool.false_eq_true, if_false]
  have hupd := flush_batch_of_ne { s with closed := true } db .insert true
    (show BatchKind.update ≠ .insert by decide)
  refine ⟨?_, flush_forced_items _ _ .update, _,
    flush_db_cases { s with closed := true } db .insert true, ?_⟩
  · show ((Store.flush _ _ .update true).store.queues.batch .insert).items = []
    rw [flush_batch_of_ne _ _ .update true (by decide)]
    exact flush_forced_items _ _ .insert
  · have hdb := flush_db_cases ({ s with closed := true }.flush db .insert true).store
      ({ s with closed := true }.flush db .insert true).db .update true
    rw [hupd] at hdb
    exact hdb

end Store

namespace StoreUse

/-- A closed store stays closed over any run of calls and shutdowns. -/
theorem runAll_closed (uses : List StoreUse) {sd : Store × Database} (h : sd.1.closed = true) :
    (runAll uses sd).1.closed = true := by
  induction uses generalizing sd with
  | nil => exact h
  | cons u rest ih =>
    apply ih
    obtain ⟨s, db⟩ := sd
    cases u with
    | call c =>
      cases c <;> simpa [run, StoreCall.run] using h
    | shutdown => exact Store.shutdown_closed s db

end StoreUse

/-- A due flush commits its whole batch as one transaction or nothing, an undue one changes
nothing, and a shutdown flushes the inserts, then the updates, the first time only. -/
theorem batch_commits_whole_or_not_at_all (s : Store) (db : Database) (kind : BatchKind)
    (force : Bool) :
    ((s.queues.batch kind).size < (s.queues.batch kind).limit ∧
        ¬(force = true ∧ (s.queues.batch kind).items ≠ []) →
      s.flush db kind force = ⟨.ok (), s, db⟩) ∧
    ((s.queues.batch kind).limit ≤ (s.queues.batch kind).size ∨
        (force = true ∧ (s.queues.batch kind).items ≠ []) →
      (s.flush db kind force).store.queues.batch kind = { s.queues.batch kind with items := [] } ∧
      (∀ other, other ≠ kind → (s.flush db kind force).store.queues.batch other = s.queues.batch other) ∧
      (((s.flush db kind force).result = .ok () ∧
          db.applyAll (Store.statement kind) (s.queues.batch kind).items =
            .ok (s.flush db kind force).db) ∨
        ((∃ e, (s.flush db kind force).result = .error e) ∧ (s.flush db kind force).db = db))) ∧
    (s.closed = false →
      (s.shutdown db).1.queues.inserts.items = [] ∧ (s.shutdown db).1.queues.updates.items = [] ∧
      ∃ db₁, (db₁ = db ∨ db.applyAll Database.upsert s.queues.inserts.items = .ok db₁) ∧
        ((s.shutdown db).2 = db₁ ∨
          db₁.applyAll Database.rewrite s.queues.updates.items = .ok (s.shutdown db).2)) ∧
    (∀ uses : List StoreUse,
      (StoreUse.runAll uses (s.shutdown db)).1.shutdown (StoreUse.runAll uses (s.shutdown db)).2 =
        StoreUse.runAll uses (s.shutdown db)) := by
  refine ⟨fun hnd => Store.flush_of_not_due s db kind force ((Batch.isDue_eq_false_iff _ _).2 hnd),
    fun hd => ?_, Store.shutdown_of_open_cases s db,
    fun uses => Store.shutdown_of_closed _ _ (StoreUse.runAll_closed uses (Store.shutdown_closed s db))⟩
  have hdue : s.queues.isDue kind force = true := by
    cases h : s.queues.isDue kind force with
    | true => rfl
    | false =>
      obtain ⟨hlt, hforce⟩ := (Batch.isDue_eq_false_iff (s.queues.batch kind) force).1 h
      rcases hd with hle | hf
      · omega
      · exact absurd hf hforce
  obtain ⟨hq, hres⟩ := Store.flush_of_due s db kind force hdue
  rw [Batcher.take_eq] at hq hres
  refine ⟨by rw [hq]; simp, fun other h => Store.flush_batch_of_ne s db kind force h, hres⟩

end ChangeLedger
