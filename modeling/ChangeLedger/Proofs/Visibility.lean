import Mathlib
import ChangeLedger.Proofs.Queues
/-! # Reading your own writes

A store answers a lookup from its queues before the table: the newest queued update of the key
(with the deletion marker read from the committed row), else the newest queued insert, else the
committed row. `Store.forceCommit` is the database both queues leave when they are committed now,
inserts first.

A store keeps its callers' contract (`StoreCall.Keeps`) when it inserts only keys it reports
absent and updates only keys it reports present, with times that read back as written. Over any
run that keeps it, on a table that nothing else writes, the store stays `Store.Sole` with the
table (its queues are `Batcher.Fresh` for it and every queued write reads back), and then a
lookup answers with the force-committed database: exactly for a key with no queued update; for a
key with one, that row exists and a lookup that succeeds answers with its three times
(`lookup_reads_force_commit`). What such a lookup reports as the deletion marker is not part of
the statement.

Both halves of the contract are needed: an update of a key that exists nowhere is reported by a
lookup but committed nowhere (`lookup_sees_update_of_absent_key`).
-/
namespace ChangeLedger

namespace Batcher

/-- Every queued write reads back. -/
def ReadsBack (q : Batcher) : Prop :=
  ∀ w, w ∈ q.inserts.items ∨ w ∈ q.updates.items → w.ReadsBack

-- a queue whose writes all read back is a case of `AllWrites`, whose step lemmas carry it
theorem ReadsBack.empty (limit : Nat) : (empty limit).ReadsBack :=
  AllWrites.empty limit

theorem ReadsBack.flushTo {q : Batcher} (h : q.ReadsBack) (t : Table) (kind : BatchKind)
    (force : Bool) : (q.flushTo t kind force).1.ReadsBack :=
  AllWrites.flushTo h t kind force

theorem ReadsBack.insertTo {q : Batcher} (h : q.ReadsBack) (t : Table) {w : RowWrite}
    (hw : w.ReadsBack) : (q.insertTo t w).1.ReadsBack :=
  AllWrites.insertTo h t hw

theorem ReadsBack.updateTo {q : Batcher} (h : q.ReadsBack) (t : Table) {w : RowWrite}
    (hw : w.ReadsBack) : (q.updateTo t w).1.ReadsBack :=
  AllWrites.updateTo h t hw

theorem flushTo_force_snd (q : Batcher) (t : Table) (kind : BatchKind) :
    (q.flushTo t kind true).2 = t.commit kind (q.batch kind).items := by
  cases hd : q.isDue kind true
  · rw [flushTo_of_not_due hd]
    -- a forced flush that is not due has nothing to commit
    have hnil : (q.batch kind).items = [] := by
      simp only [isDue, Batch.isDue, Bool.or_eq_false_iff, Bool.true_and,
        Bool.not_eq_false'] at hd
      exact List.isEmpty_iff.1 hd.2
    cases kind <;> simp [hnil, Table.commit]
  · rw [flushTo_of_due hd]
    cases kind <;> rfl

theorem flushTo_insert_updates (q : Batcher) (t : Table) (force : Bool) :
    (q.flushTo t .insert force).1.updates = q.updates := by
  cases hd : q.isDue .insert force
  · rw [flushTo_of_not_due hd]
  · rw [flushTo_of_due hd]
    rfl

theorem findLast?_updates_eq_none_iff {q : Batcher} {k : RecordKey} :
    q.updates.findLast? (·.key == k) = none ↔ k ∉ q.updateKeys := by
  simp [Batch.findLast?_eq_none, updateKeys]

/-! ## The rows of the force-committed table -/

theorem find?_insertRows {b : Batch RowWrite} (hnd : (b.items.map (·.key)).Nodup)
    {k : RecordKey} {w : RowWrite} (hw : b.findLast? (·.key == k) = some w) :
    Table.find? (b.items.map RowWrite.toRow) k = some w.toRow := by
  obtain ⟨hwk, hwm⟩ := Batch.findLast?_eq_some hw
  obtain ⟨x, hx⟩ := Option.isSome_iff_exists.1
    (List.find?_isSome.2 ⟨w, hwm, hwk⟩ : (b.items.find? (·.key == k)).isSome)
  have hxk : x.key = k := by simpa using List.find?_some hx
  have hwk' : w.key = k := by simpa using hwk
  -- the oldest and the newest insert of a key are the same one
  have hxw : x = w :=
    List.inj_on_of_nodup_map hnd (List.mem_of_find?_eq_some hx) hwm (hxk.trans hwk'.symm)
  have hp : ((fun r : Row => r.key == k) ∘ RowWrite.toRow) = fun v => v.key == k := rfl
  simp only [Table.find?, List.find?_map, hp, hx, hxw, Option.map_some]

theorem find?_upsertAll_of_not_mem (t : Table) {ws : List RowWrite} {k : RecordKey}
    (hk : ∀ w ∈ ws, w.key ≠ k) : (t.upsertAll ws).find? k = t.find? k := by
  induction ws generalizing t with
  | nil => rfl
  | cons w ws ih =>
    rw [Table.upsertAll_cons, ih _ fun v hv => hk v (List.mem_cons_of_mem _ hv)]
    have hwk := hk w List.mem_cons_self
    cases hf : t.find? w.key with
    | none =>
      rw [Table.upsert_of_find?_eq_none hf, Table.find?_append_row]
      simp [hwk]
    | some r =>
      rw [Table.upsert_of_find?_eq_some hf,
        Table.find?_modify t w.key k (·.merge w) fun _ => rfl, if_neg (Ne.symm hwk)]

theorem find?_commitTo_of_update {q : Batcher} {t : Table} (h : q.Coherent t) {k : RecordKey}
    {u : RowWrite} (hu : q.updates.findLast? (·.key == k) = some u) :
    (q.commitTo t).find? k = (t.find? k).map (·.overwrite u) := by
  obtain ⟨huk, hum⟩ := Batch.findLast?_eq_some hu
  have hk : k ∈ q.updateKeys := by
    simpa [updateKeys, (beq_iff_eq.1 huk).symm] using List.mem_map_of_mem (f := (·.key)) hum
  have hi : ∀ w ∈ q.inserts.items, w.key ≠ k := fun w hw he =>
    h.disjoint k (he ▸ List.mem_map_of_mem hw) hk
  rw [commitTo, Table.find?_rewriteAll]
  simp only [Batch.findLast?] at hu
  rw [hu, find?_upsertAll_of_not_mem t hi]

theorem find?_commitTo_of_insert {q : Batcher} {t : Table} (h : q.Fresh t) {k : RecordKey}
    (hu : q.updates.findLast? (·.key == k) = none) {w : RowWrite}
    (hw : q.inserts.findLast? (·.key == k) = some w) :
    (q.commitTo t).find? k = some w.toRow := by
  have hkt : k ∉ t.keys := by
    obtain ⟨hwk, hwm⟩ := Batch.findLast?_eq_some hw
    rw [← beq_iff_eq.1 hwk]
    exact h.inserts_new _ (List.mem_map_of_mem hwm)
  simp only [Batch.findLast?] at hu
  rw [commitTo, Table.find?_rewriteAll, hu,
    Table.upsertAll_of_fresh h.inserts_nodup fun v hv => h.inserts_new _ (List.mem_map_of_mem hv),
    Table.find?, List.find?_append, ← Table.find?, Table.find?_eq_none_iff.2 hkt, Option.none_or]
  exact find?_insertRows h.inserts_nodup hw

theorem find?_commitTo_of_none (q : Batcher) (t : Table) {k : RecordKey}
    (hu : q.updates.findLast? (·.key == k) = none) (hi : q.inserts.findLast? (·.key == k) = none) :
    (q.commitTo t).find? k = t.find? k := by
  have hi' : ∀ w ∈ q.inserts.items, w.key ≠ k := fun w hw => by
    simpa using Batch.findLast?_eq_none.1 hi w hw
  simp only [Batch.findLast?] at hu
  rw [commitTo, Table.find?_rewriteAll, hu, find?_upsertAll_of_not_mem t hi']

end Batcher

theorem Database.times?_of_table (t : Table) (k : RecordKey) :
    (⟨some t⟩ : Database).times? k = match t.find? k with
      | none => .ok none
      | some r => some <$> r.times 0 := rfl

namespace Store

theorem flush_db_of_table (s : Store) (t : Table) (kind : BatchKind) (force : Bool) :
    (s.flush ⟨some t⟩ kind force).db = ⟨some (s.queues.flushTo t kind force).2⟩ := by
  obtain ⟨p, hp⟩ := flush_of_table s t kind force
  rw [hp]

theorem flush_queues_of_table (s : Store) (t : Table) (kind : BatchKind) (force : Bool) :
    (s.flush ⟨some t⟩ kind force).store.queues = (s.queues.flushTo t kind force).1 := by
  obtain ⟨p, hp⟩ := flush_of_table s t kind force
  rw [hp]

/-- Commit both queues now, the insert queue first, as a shutdown does. -/
def forceCommit (s : Store) (db : Database) : Database :=
  let a := s.flush db .insert true
  (a.store.flush a.db .update true).db

theorem forceCommit_of_table (s : Store) (t : Table) :
    s.forceCommit ⟨some t⟩ = ⟨some (s.queues.commitTo t)⟩ := by
  rw [forceCommit, flush_db_of_table, flush_db_of_table, flush_queues_of_table,
    Batcher.flushTo_force_snd, Batcher.flushTo_force_snd]
  show (⟨some ((t.upsertAll s.queues.inserts.items).rewriteAll
    (s.queues.flushTo t .insert true).1.updates.items)⟩ : Database) = _
  rw [Batcher.flushTo_insert_updates]
  rfl

/-- Whether a store is shut down changes nothing a flush does. -/
theorem flush_closed (s : Store) (b : Bool) (db : Database) (kind : BatchKind) (force : Bool) :
    ({ s with closed := b }.flush db kind force).db = (s.flush db kind force).db ∧
      ({ s with closed := b }.flush db kind force).store =
        { (s.flush db kind force).store with closed := b } := by
  unfold flush
  split
  · dsimp only
    cases s.conn.prepare db kind with
    | error e => exact ⟨rfl, rfl⟩
    | ok c =>
      dsimp only
      split
      · exact ⟨rfl, rfl⟩
      · cases db.applyAll (statement kind) (s.queues.take kind).1 <;> exact ⟨rfl, rfl⟩
  · exact ⟨rfl, rfl⟩

/-- Shutting an open store down writes what committing both queues now writes. -/
theorem shutdown_of_open {s : Store} (h : s.closed = false) (db : Database) :
    (s.shutdown db).2 = s.forceCommit db := by
  simp only [shutdown, h, Bool.false_eq_true, if_false, forceCommit]
  obtain ⟨h₁, h₂⟩ := flush_closed s true db .insert true
  rw [h₁, h₂]
  exact (flush_closed _ true _ .update true).1

/-! ### What a lookup reads, by what is queued for the key -/

section Lookup

variable {s : Store} {k : RecordKey} (db : Database)

theorem lookup_of_pending_update {u : RowWrite}
    (hu : s.queues.updates.findLast? (·.key == k) = some u) :
    s.lookup db k =
      ((db.deletedAt? k).map fun d => some { u.times with deletedAt := d }).mapError .database := by
  simp only [lookup, Batcher.pendingRow, hu]
  cases db.deletedAt? k <;> rfl

theorem lookup_of_pending_insert (hu : s.queues.updates.findLast? (·.key == k) = none)
    {w : RowWrite} (hi : s.queues.inserts.findLast? (·.key == k) = some w) :
    s.lookup db k = .ok (some w.times) := by
  simp [lookup, Batcher.pendingRow, hu, hi]

theorem lookup_of_not_pending (hu : s.queues.updates.findLast? (·.key == k) = none)
    (hi : s.queues.inserts.findLast? (·.key == k) = none) :
    s.lookup db k = (db.times? k).mapError .database := by
  simp only [lookup, Batcher.pendingRow, hu, hi, Option.map_none]
  cases db.times? k <;> rfl

theorem lookup_eq_some_of_pending_update {u : RowWrite}
    (hu : s.queues.updates.findLast? (·.key == k) = some u) {tm : RecordTimes}
    (hl : s.lookup db k = .ok (some tm)) :
    ∃ d, db.deletedAt? k = .ok d ∧ tm = { u.times with deletedAt := d } := by
  rw [lookup_of_pending_update _ hu] at hl
  cases hd : db.deletedAt? k with
  | error e => simp [hd, Except.map, Except.mapError] at hl
  | ok d =>
    simp only [hd, Except.map, Except.mapError, Except.ok.injEq, Option.some.injEq] at hl
    exact ⟨d, rfl, hl.symm⟩

theorem times?_of_lookup_not_pending (hu : s.queues.updates.findLast? (·.key == k) = none)
    (hi : s.queues.inserts.findLast? (·.key == k) = none) {tm : RecordTimes}
    (hl : s.lookup db k = .ok (some tm)) : db.times? k = .ok (some tm) := by
  rw [lookup_of_not_pending _ hu hi] at hl
  cases h : db.times? k <;> simp_all [Except.mapError]

theorem lookup_fresh (limit : Nat) : (Store.fresh limit).lookup db k = (db.times? k).mapError .database :=
  lookup_of_not_pending db rfl rfl

end Lookup

/-- A store that is the only writer of its table: its queues are fresh for the table and every
queued write reads back. -/
structure Sole (s : Store) (t : Table) : Prop where
  fresh : s.queues.Fresh t
  readsBack : s.queues.ReadsBack

theorem sole_fresh (limit : Nat) (t : Table) : (Store.fresh limit).Sole t :=
  ⟨Batcher.Fresh.empty limit t, Batcher.ReadsBack.empty limit⟩

theorem Sole.withConn {s : Store} {t : Table} (h : s.Sole t) (c : Connection) :
    ({ s with conn := c } : Store).Sole t :=
  ⟨h.fresh, h.readsBack⟩

theorem Sole.lookup_of_not_updated {s : Store} {t : Table} (h : s.Sole t) {k : RecordKey}
    (hk : k ∉ s.queues.updateKeys) :
    s.lookup ⟨some t⟩ k = ((s.forceCommit ⟨some t⟩).times? k).mapError .database := by
  have hu := Batcher.findLast?_updates_eq_none_iff.2 hk
  rw [forceCommit_of_table, Database.times?_of_table]
  cases hi : s.queues.inserts.findLast? (·.key == k) with
  | some w =>
    -- answered from the queued insert, which the commit appends as it is
    obtain ⟨-, hwm⟩ := Batch.findLast?_eq_some hi
    rw [Batcher.find?_commitTo_of_insert h.fresh hu hi, lookup_of_pending_insert _ hu hi]
    dsimp only
    rw [RowWrite.toRow_times (h.readsBack w (Or.inl hwm))]
    rfl
  | none =>
    rw [Batcher.find?_commitTo_of_none s.queues t hu hi, ← Database.times?_of_table,
      lookup_of_not_pending _ hu hi]

theorem Sole.lookup_of_updated {s : Store} {t : Table} (h : s.Sole t) {k : RecordKey}
    (hk : k ∈ s.queues.updateKeys) :
    ∃ u : RowWrite, (s.forceCommit ⟨some t⟩).times? k = .ok (some u.times) ∧
      s.lookup ⟨some t⟩ k = (((⟨some t⟩ : Database).deletedAt? k).map
        fun d => some { u.times with deletedAt := d }).mapError .database := by
  obtain ⟨u, hu⟩ := Option.ne_none_iff_exists'.1
    (mt Batcher.findLast?_updates_eq_none_iff.1 (not_not_intro hk))
  obtain ⟨-, hum⟩ := Batch.findLast?_eq_some hu
  obtain ⟨r, hr⟩ := Option.isSome_iff_exists.1
    (Table.find?_isSome_iff.2 (h.fresh.updates_committed k hk))
  refine ⟨u, ?_, ?_⟩
  · rw [forceCommit_of_table, Database.times?_of_table,
      Batcher.find?_commitTo_of_update h.fresh.toCoherent hu, hr, Option.map_some]
    dsimp only
    rw [Row.overwrite_times r (h.readsBack u (Or.inr hum))]
    rfl
  · exact lookup_of_pending_update _ hu

end Store

/-! ## Runs of store calls -/

/-- A call a program makes on a store. -/
inductive StoreCall
  | insert (w : RowWrite)
  | update (w : RowWrite)
  | lookup (key : RecordKey)
  | flush (kind : BatchKind) (force : Bool)
  deriving Repr

namespace StoreCall

def run : StoreCall → Store × Database → Store × Database
  | .insert w, (s, db) => ((s.insert db w).store, (s.insert db w).db)
  | .update w, (s, db) => ((s.update db w).store, (s.update db w).db)
  | .lookup k, (s, db) => (s.afterLookup db k, db)
  | .flush kind force, (s, db) => ((s.flush db kind force).store, (s.flush db kind force).db)

/-- What a caller promises: insert keys reported absent, update keys reported present, with
times that read back. -/
def Allowed : StoreCall → Store × Database → Prop
  | .insert w, (s, db) => s.lookup db w.key = .ok none ∧ w.ReadsBack
  | .update w, (s, db) => (∃ tm, s.lookup db w.key = .ok (some tm)) ∧ w.ReadsBack
  | .lookup _, _ => True
  | .flush _ _, _ => True

def runAll (calls : List StoreCall) (sd : Store × Database) : Store × Database :=
  calls.foldl (fun sd c => c.run sd) sd

def Keeps : List StoreCall → Store × Database → Prop
  | [], _ => True
  | c :: cs, sd => c.Allowed sd ∧ Keeps cs (c.run sd)

@[simp] theorem runAll_nil (sd : Store × Database) : runAll [] sd = sd := rfl

@[simp] theorem runAll_cons (c : StoreCall) (cs : List StoreCall) (sd : Store × Database) :
    runAll (c :: cs) sd = runAll cs (c.run sd) := rfl

theorem Allowed.sole {c : StoreCall} {s : Store} {t : Table} (h : s.Sole t)
    (hc : c.Allowed (s, ⟨some t⟩)) :
    ∃ s' t', c.run (s, ⟨some t⟩) = (s', ⟨some t'⟩) ∧ s'.Sole t' := by
  cases c with
  | insert w =>
    obtain ⟨hl, hw⟩ := hc
    obtain ⟨hu, hi, ht⟩ := Store.lookup_eq_ok_none hl
    obtain ⟨p, hp⟩ := Store.insert_of_table s t w
    exact ⟨{ s with queues := (s.queues.insertTo t w).1, conn := p }, _,
      by simp only [run, hp], h.fresh.insertTo hi hu ht, h.readsBack.insertTo t hw⟩
  | update w =>
    obtain ⟨⟨tm, hl⟩, hw⟩ := hc
    -- a key the store reports present is queued as an insert or committed
    have hk : w.key ∈ s.queues.insertKeys ∨ w.key ∈ t.keys := by
      rcases Store.lookup_eq_ok_some hl with hu | hi | ht
      · exact Or.inr (h.fresh.updates_committed _ hu)
      · exact Or.inl hi
      · exact Or.inr ht
    obtain ⟨p, hp⟩ := Store.update_of_table s t w
    exact ⟨{ s with queues := (s.queues.updateTo t w).1, conn := p }, _,
      by simp only [run, hp], h.fresh.updateTo hk, h.readsBack.updateTo t hw⟩
  | lookup k => exact ⟨s.afterLookup ⟨some t⟩ k, t, rfl, by simpa using h.fresh, by simpa using h.readsBack⟩
  | flush kind force =>
    obtain ⟨p, hp⟩ := Store.flush_of_table s t kind force
    exact ⟨{ s with queues := (s.queues.flushTo t kind force).1, conn := p }, _,
      by simp only [run, hp], h.fresh.flushTo kind force, h.readsBack.flushTo t kind force⟩

/-- A run that keeps the contract keeps a sole store sole, and the table in place. -/
theorem Keeps.sole {calls : List StoreCall} {s : Store} {t : Table} (h : s.Sole t)
    (hc : Keeps calls (s, ⟨some t⟩)) :
    ∃ s' t', runAll calls (s, ⟨some t⟩) = (s', ⟨some t'⟩) ∧ s'.Sole t' := by
  induction calls generalizing s t with
  | nil => exact ⟨s, t, rfl, h⟩
  | cons c cs ih =>
    obtain ⟨s₁, t₁, hrun, h₁⟩ := Allowed.sole h hc.1
    have hcs : Keeps cs (s₁, ⟨some t₁⟩) := hrun ▸ hc.2
    rw [runAll_cons, hrun]
    exact ih h₁ hcs

end StoreCall

/-- After any run that keeps the contract on a table nothing else writes, a lookup answers as the
force-committed table would, exactly or with the three times of a queued update. -/
theorem lookup_reads_force_commit {limit : Nat} {t₀ : Table} {calls : List StoreCall}
    (hc : StoreCall.Keeps calls (Store.fresh limit, ⟨some t₀⟩)) {s : Store} {db : Database}
    (hrun : StoreCall.runAll calls (Store.fresh limit, ⟨some t₀⟩) = (s, db)) (k : RecordKey) :
    (k ∉ s.queues.updateKeys → s.lookup db k = ((s.forceCommit db).times? k).mapError .database) ∧
    (k ∈ s.queues.updateKeys → ∃ tm, (s.forceCommit db).times? k = .ok (some tm) ∧
      ∀ r, s.lookup db k = .ok r → ∃ v, r = some v ∧ v.firstSeen = tm.firstSeen ∧
        v.lastSeen = tm.lastSeen ∧ v.lastChanged = tm.lastChanged) := by
  obtain ⟨s', t, hrun', h⟩ := StoreCall.Keeps.sole (Store.sole_fresh limit t₀) hc
  rw [hrun] at hrun'
  obtain ⟨rfl, rfl⟩ := Prod.mk.inj hrun'
  refine ⟨h.lookup_of_not_updated, fun hk => ?_⟩
  obtain ⟨u, hview, hlookup⟩ := h.lookup_of_updated hk
  refine ⟨u.times, hview, fun r hr => ?_⟩
  rw [hlookup] at hr
  cases hd : (⟨some t⟩ : Database).deletedAt? k with
  | error e => simp [hd, Except.map, Except.mapError] at hr
  | ok d =>
    simp only [hd, Except.map, Except.mapError, Except.ok.injEq] at hr
    exact ⟨_, hr.symm, rfl, rfl, rfl⟩

/-- A queued insert reads as the row its commit will write. -/
theorem lookup_reads_force_commit_of_queued_insert :
    let w : RowWrite := ⟨⟨"libA", "rec1"⟩, ⟨1577836800, 0⟩, ⟨1577836800, 0⟩, ⟨1577836800, 0⟩⟩
    let s : Store := { queues := ⟨⟨2, [w]⟩, ⟨2, []⟩⟩ }
    StoreCall.Keeps [.insert w] (Store.fresh 2, ⟨some []⟩) ∧
      StoreCall.runAll [.insert w] (Store.fresh 2, ⟨some []⟩) = (s, ⟨some []⟩) ∧
      s.lookup ⟨some []⟩ w.key = ((s.forceCommit ⟨some []⟩).times? w.key).mapError .database := by
  intro w s
  have hc : StoreCall.Keeps [.insert w] (Store.fresh 2, ⟨some []⟩) :=
    ⟨⟨rfl, by cbv; exact ⟨rfl, rfl, rfl⟩⟩, trivial⟩
  have hrun : StoreCall.runAll [.insert w] (Store.fresh 2, ⟨some []⟩) = (s, ⟨some []⟩) := rfl
  exact ⟨hc, hrun, (lookup_reads_force_commit hc hrun w.key).1 (by simp [s, Batcher.updateKeys])⟩

/-- An update of a key that exists nowhere: a lookup reports it, yet committing the queues writes
no row for it. -/
theorem lookup_sees_update_of_absent_key :
    let w : RowWrite := ⟨⟨"libA", "rec1"⟩, ⟨1577836800, 0⟩, ⟨1577836800, 0⟩, ⟨1577836800, 0⟩⟩
    let r := (Store.fresh 100).update ⟨some []⟩ w
    r.store.lookup r.db w.key = .ok (some w.times) ∧
      (r.store.forceCommit r.db).times? w.key = .ok none :=
  ⟨rfl, rfl⟩

end ChangeLedger
