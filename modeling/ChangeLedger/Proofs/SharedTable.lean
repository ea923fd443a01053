import Mathlib.Data.List.Count
import ChangeLedger.Proofs.Tracking
import ChangeLedger.Session.Basic
import ChangeLedger.Inspect.Run
/-! # Trackers sharing one table

A session runs any number of trackers and bare stores over one database. Nothing in it deletes a
row unless the table itself is dropped: commits insert and rewrite rows, marking a row deleted
only sets its marker, and seeding replaces a row by one of the same key. `SessionStep` is every
step of a session short of dropping the table, and `Session.Coherent` says that every tracker's
queues are `Batcher.Coherent` with the committed table, whose keys are distinct.

Every step keeps that (`Session.Coherent.run`), because a tracker inserts only keys it finds
nowhere and queues an update only of a key with a committed row, and because a write by anyone
else keeps every row (`Table.KeptIn`). So in every state a session reaches, each tracker's two
queues can be committed in either order with the same result, and each queued update rewrites
exactly one committed row (`session_keeps_trackers_coherent`).
-/
namespace ChangeLedger

namespace Table

/-- Every key of `t` has a row in `t'`, and the keys of `t'` are distinct if those of `t` are. -/
structure KeptIn (t t' : Table) : Prop where
  keys : ∀ k ∈ t.keys, k ∈ t'.keys
  nodup : t.keys.Nodup → t'.keys.Nodup

/-- The database still has its table, and that table keeps the rows of `t`. -/
def KeptBy (t : Table) (db : Database) : Prop := ∃ t', db = ⟨some t'⟩ ∧ t.KeptIn t'

theorem KeptIn.refl (t : Table) : t.KeptIn t := ⟨fun _ hk => hk, id⟩

theorem KeptIn.trans {t₁ t₂ t₃ : Table} (h₁ : t₁.KeptIn t₂) (h₂ : t₂.KeptIn t₃) : t₁.KeptIn t₃ :=
  ⟨fun k hk => h₂.keys k (h₁.keys k hk), fun hn => h₂.nodup (h₁.nodup hn)⟩

theorem keptIn_of_keys_eq {t t' : Table} (h : t'.keys = t.keys) : t.KeptIn t' :=
  ⟨fun _ hk => h ▸ hk, fun hn => h ▸ hn⟩

theorem keptBy_self (t : Table) : t.KeptBy ⟨some t⟩ := ⟨t, rfl, .refl t⟩

theorem keptIn_commit (t : Table) (kind : BatchKind) (ws : List RowWrite) :
    t.KeptIn (t.commit kind ws) :=
  ⟨fun _ hk => mem_keys_commit hk, keys_nodup_commit kind ws⟩

theorem keptIn_markDeleted (t : Table) (key : RecordKey) (at_ : Instant) :
    t.KeptIn (t.markDeleted key at_) :=
  keptIn_of_keys_eq (keys_modify t key _ fun r _ => by split <;> rfl)

theorem keptIn_put (t : Table) (r : Row) : t.KeptIn (t.put r) := by
  unfold put
  split
  · exact keptIn_of_keys_eq (keys_modify t r.key _ fun x hx => hx.symm)
  · rename_i hnew
    have hr : r.key ∉ t.keys := fun hk => hnew (find?_isSome_iff.2 hk)
    refine ⟨fun k hk => by simp [hk], fun hn => ?_⟩
    rw [keys_append, List.nodup_append]
    exact ⟨hn, List.nodup_singleton _, fun a ha b hb => by
      rw [List.mem_singleton] at hb
      exact fun he => hr (by rw [← hb, ← he]; exact ha)⟩

theorem countP_key_eq_one {t : Table} {k : RecordKey} (hn : t.keys.Nodup) (hk : k ∈ t.keys) :
    t.countP (fun r => r.key == k) = 1 := by
  have hc := List.count_eq_one_of_mem hn hk
  rwa [List.count, keys, List.countP_map] at hc

end Table

namespace Batcher

theorem keptIn_flushTo (q : Batcher) (t : Table) (kind : BatchKind) (force : Bool) :
    t.KeptIn (q.flushTo t kind force).2 := by
  cases hd : q.isDue kind force
  · rw [flushTo_of_not_due hd]
    exact .refl t
  · rw [flushTo_of_due hd]
    exact t.keptIn_commit kind _

theorem keptIn_insertTo (q : Batcher) (t : Table) (w : RowWrite) : t.KeptIn (q.insertTo t w).2 :=
  keptIn_flushTo _ t .insert false

theorem keptIn_updateTo (q : Batcher) (t : Table) (w : RowWrite) : t.KeptIn (q.updateTo t w).2 := by
  unfold updateTo
  cases q.foldIntoInsert? w with
  | some q' => exact .refl t
  | none => exact keptIn_flushTo _ t .update false

/-- Under coherent queues, either commit order leaves the same table. -/
theorem Coherent.rewriteAll_upsertAll {q : Batcher} {t : Table} (h : q.Coherent t) :
    (t.rewriteAll q.updates.items).upsertAll q.inserts.items = q.commitTo t :=
  (Table.rewriteAll_upsertAll_comm t _ _ fun w hw _ hu he =>
    h.disjoint w.key (List.mem_map_of_mem hw) (he ▸ List.mem_map_of_mem hu)).symm

end Batcher

/-! ## What a store's operations do to the table -/

namespace Store

theorem keptBy_flush (s : Store) (t : Table) (kind : BatchKind) (force : Bool) :
    t.KeptBy (s.flush ⟨some t⟩ kind force).db :=
  ⟨_, flush_db_of_table s t kind force, Batcher.keptIn_flushTo _ t kind force⟩

theorem keptBy_insert (s : Store) (t : Table) (w : RowWrite) : t.KeptBy (s.insert ⟨some t⟩ w).db := by
  obtain ⟨p, hp⟩ := insert_of_table s t w
  rw [hp]
  exact ⟨_, rfl, Batcher.keptIn_insertTo _ t w⟩

theorem keptBy_update (s : Store) (t : Table) (w : RowWrite) : t.KeptBy (s.update ⟨some t⟩ w).db := by
  obtain ⟨p, hp⟩ := update_of_table s t w
  rw [hp]
  exact ⟨_, rfl, Batcher.keptIn_updateTo _ t w⟩

theorem shutdown_of_table {s : Store} (h : s.closed = false) (t : Table) :
    (s.shutdown ⟨some t⟩).1.queues = ((s.queues.flushTo t .insert true).1.flushTo
        (s.queues.flushTo t .insert true).2 .update true).1 ∧
      (s.shutdown ⟨some t⟩).2 = ⟨some ((s.queues.flushTo t .insert true).1.flushTo
        (s.queues.flushTo t .insert true).2 .update true).2⟩ := by
  obtain ⟨h₁, h₂⟩ := flush_closed s true ⟨some t⟩ .insert true
  obtain ⟨h₃, h₄⟩ := flush_closed (s.flush ⟨some t⟩ .insert true).store true
    (s.flush ⟨some t⟩ .insert true).db .update true
  simp only [shutdown, h, Bool.false_eq_true, if_false, h₁, h₂, h₃, h₄]
  rw [flush_db_of_table, flush_queues_of_table, flush_db_of_table, flush_queues_of_table]
  exact ⟨rfl, rfl⟩

/-- A shutdown keeps the queues coherent with the table it leaves, and keeps every row. -/
theorem coherent_shutdown {s : Store} {t : Table} (h : s.queues.Coherent t) :
    ∃ t', (s.shutdown ⟨some t⟩).2 = ⟨some t'⟩ ∧ t.KeptIn t' ∧
      (s.shutdown ⟨some t⟩).1.queues.Coherent t' := by
  cases hc : s.closed
  · obtain ⟨hq, hdb⟩ := shutdown_of_table hc t
    rw [hq, hdb]
    exact ⟨_, rfl, (Batcher.keptIn_flushTo _ t .insert true).trans (Batcher.keptIn_flushTo _ _ _ _),
      (h.flushTo .insert true).flushTo .update true⟩
  · simp only [shutdown, hc, if_true]
    exact ⟨t, rfl, .refl t, h⟩

theorem keptBy_shutdown (s : Store) (t : Table) : t.KeptBy (s.shutdown ⟨some t⟩).2 := by
  cases hc : s.closed
  · obtain ⟨-, hdb⟩ := shutdown_of_table hc t
    rw [hdb]
    exact ⟨_, rfl, (Batcher.keptIn_flushTo _ t .insert true).trans (Batcher.keptIn_flushTo _ _ _ _)⟩
  · simp only [shutdown, hc, if_true]
    exact t.keptBy_self

theorem keptBy_drop (s : Store) (t : Table) : t.KeptBy (s.drop ⟨some t⟩) := keptBy_shutdown s t

def CoherentOver (t₀ : Table) (sd : Store × Database) : Prop :=
  ∃ t, sd.2 = ⟨some t⟩ ∧ t₀.KeptIn t ∧ sd.1.queues.Coherent t

/-- The tracker's writes keep its store coherent. -/
theorem records_preserves (t₀ : Table) : records.Preserves (CoherentOver t₀) where
  looked k h := records_looked_of (fun _ _ _ h => h) h k
  insert := by
    rintro ⟨s, db⟩ w ⟨t, rfl, hk, hc⟩ hl
    obtain ⟨hu, hi, -⟩ := lookup_eq_ok_none hl
    obtain ⟨p, hp⟩ := records_insert s t w
    rw [hp]
    exact ⟨_, rfl, hk.trans (Batcher.keptIn_insertTo _ t w), hc.insertTo hi hu⟩
  update := by
    rintro ⟨s, db⟩ w tm ⟨t, rfl, hk, hc⟩ hl
    -- a queued update of the key stands for a committed row
    have hw : w.key ∈ s.queues.insertKeys ∨ w.key ∈ t.keys := by
      rcases lookup_eq_ok_some hl with hu | hi | ht
      · exact Or.inr (hc.updates_committed _ hu)
      · exact Or.inl hi
      · exact Or.inr ht
    obtain ⟨p, hp⟩ := records_update s t w
    rw [hp]
    exact ⟨_, rfl, hk.trans (Batcher.keptIn_updateTo _ t w), hc.updateTo hw⟩

theorem flush_updates_first {s : Store} {t : Table} (h : s.queues.Coherent t) :
    ((s.flush ⟨some t⟩ .update true).store.flush (s.flush ⟨some t⟩ .update true).db .insert
      true).db = s.forceCommit ⟨some t⟩ := by
  rw [flush_db_of_table, flush_db_of_table, flush_queues_of_table, Batcher.flushTo_force_snd,
    Batcher.flushTo_force_snd, forceCommit_of_table, ← h.rewriteAll_upsertAll]
  cases hd : s.queues.isDue .update true
  · rw [Batcher.flushTo_of_not_due hd]
    rfl
  · rw [Batcher.flushTo_of_due hd]
    rfl

end Store

theorem Tracker.coherent_track {tr : Tracker} {t : Table} (h : tr.store.queues.Coherent t)
    (key : RecordKey) (changedAt now : Instant) :
    ∃ t', (tr.track ⟨some t⟩ key changedAt now).db = ⟨some t'⟩ ∧ t.KeptIn t' ∧
      (tr.track ⟨some t⟩ key changedAt now).tracker.store.queues.Coherent t' :=
  Tracker.track_preserves (Store.records_preserves t) tr ⟨t, rfl, .refl t, h⟩ key changedAt now

theorem Tracker.coherent_shutdown {tr : Tracker} {t : Table} (h : tr.store.queues.Coherent t) :
    ∃ t', (tr.shutdown ⟨some t⟩).2 = ⟨some t'⟩ ∧ t.KeptIn t' ∧
      (tr.shutdown ⟨some t⟩).1.store.queues.Coherent t' :=
  Store.coherent_shutdown h

theorem Database.keptBy_seed {t : Table} {r : RawRow} {db : Database}
    (h : (⟨some t⟩ : Database).seed r = .ok db) : t.KeptBy db := by
  unfold seed putRaw at h
  simp only [rows, bind, Except.bind, pure, Except.pure] at h
  split at h
  · simp only [Except.ok.injEq] at h
    exact ⟨_, h.symm, t.keptIn_put _⟩
  all_goals cases h

theorem Database.keptBy_seedAll {t : Table} {rs : List RawRow} {db : Database}
    (h : (⟨some t⟩ : Database).seedAll rs = .ok db) : t.KeptBy db := by
  induction rs generalizing t with
  | nil =>
    cases h
    exact t.keptBy_self
  | cons r rs ih =>
    simp only [seedAll, bind, Except.bind] at h
    split at h
    · simp at h
    · rename_i db₁ hs
      obtain ⟨t₁, rfl, hk₁⟩ := keptBy_seed hs
      obtain ⟨t₂, rfl, hk₂⟩ := ih h
      exact ⟨t₂, rfl, hk₁.trans hk₂⟩

theorem keptBy_runInspect (env : List (String × String)) (words : List String) (t : Table)
    (now : Instant) : t.KeptBy (runInspect env words ⟨some t⟩ now).2 := by
  unfold runInspect
  split
  · exact t.keptBy_self
  · rename_i req _
    unfold InspectRequest.run
    simp only [Database.createTable]
    split
    · split <;> exact t.keptBy_self
    · split <;> exact t.keptBy_self
    · split <;> exact t.keptBy_self
    · rename_i key at_ _
      have hm : (⟨some t⟩ : Database).markDeleted key (at_.getD now) =
          .ok (⟨some (t.markDeleted key (at_.getD now))⟩, (t.find? key).isSome) := rfl
      rw [hm]
      cases (t.find? key).isSome <;> exact ⟨_, rfl, t.keptIn_markDeleted _ _⟩
    · split <;> exact t.keptBy_self

/-! ## Sessions -/

/-- A step of a session that deletes no row. -/
inductive SessionStep
  | setClock (at_ : Instant)
  | track (i : Nat) (key : RecordKey) (changedAt : Instant)
  | shutdown (i : Nat)
  | drop (i : Nat)
  | reopen (i : Nat)
  | storeInsert (j : Nat) (w : RowWrite)
  | storeUpdate (j : Nat) (w : RowWrite)
  | storeFlush (j : Nat) (kind : BatchKind) (force : Bool)
  | storeShutdown (j : Nat)
  | storeDrop (j : Nat)
  | storeReopen (j : Nat)
  | markDeleted (key : RecordKey) (at_ : Instant)
  | inspect (env : List (String × String)) (words : List String)
  | seed (r : RawRow)
  | createTable

/-- The session after a step; a failed step leaves it as it was. -/
def SessionStep.run : SessionStep → Session → Session
  | .setClock at_, s => { s with clock := at_ }
  | .track i key changedAt, s => (s.track i key changedAt).2
  | .shutdown i, s => (s.shutdownTracker i).2
  | .drop i, s => (s.dropTracker i).2
  | .reopen i, s => (s.reopenTracker i).2
  | .storeInsert j w, s => (s.onStore j fun st db => st.insert db w).2
  | .storeUpdate j w, s => (s.onStore j fun st db => st.update db w).2
  | .storeFlush j kind force, s => (s.onStore j fun st db => st.flush db kind force).2
  | .storeShutdown j, s => (s.shutdownStore j).2
  | .storeDrop j, s => (s.dropStore j).2
  | .storeReopen j, s => (s.reopenStore j).2
  | .markDeleted key at_, s =>
    match s.db.markDeleted key at_ with
    | .ok (db, _) => { s with db := db }
    | .error _ => s
  | .inspect env words, s => { s with db := (runInspect env words s.db s.clock).2 }
  | .seed r, s =>
    match s.db.seed r with
    | .ok db => { s with db := db }
    | .error _ => s
  | .createTable, s => { s with db := s.db.createTable }

namespace Session

def runAll (s : Session) (steps : List SessionStep) : Session :=
  steps.foldl (fun s st => st.run s) s

/-- The committed table has distinct keys, and every tracker's queues are coherent with it. -/
structure Coherent (s : Session) (t : Table) : Prop where
  db : s.db = ⟨some t⟩
  nodup : t.keys.Nodup
  trackers : ∀ tr, some tr ∈ s.trackers → tr.store.queues.Coherent t

theorem shutdownStore_snd (s : Session) (j : Nat) :
    (s.shutdownStore j).2 =
      (s.onStore j fun st db => ⟨.ok (), (st.shutdown db).1, (st.shutdown db).2⟩).2 := rfl

theorem mem_of_tracker {s : Session} {i : Nat} {tr : Tracker} (h : s.tracker i = .ok tr) :
    some tr ∈ s.trackers := by
  unfold tracker at h
  split at h
  · cases h
    exact List.mem_of_getElem? ‹_›
  · cases h

theorem coherent_start {nt ns limit : Nat} {clock : Instant} {seeds : List RawRow} {s : Session}
    (h : start nt ns limit clock seeds = .ok s) : ∃ t, s.Coherent t := by
  unfold start at h
  simp only [bind, Except.bind, pure, Except.pure] at h
  split at h
  · cases h
  · rename_i db hdb
    cases h
    obtain ⟨t, rfl, hk⟩ := Database.keptBy_seedAll hdb
    refine ⟨t, rfl, hk.nodup List.nodup_nil, fun tr hm => ?_⟩
    obtain ⟨-, he⟩ := List.mem_replicate.1 hm
    cases he
    exact Batcher.Coherent.empty limit t

namespace Coherent

variable {s : Session} {t : Table}

theorem next (h : s.Coherent t) {s' : Session} {t' : Table} (hdb : s'.db = ⟨some t'⟩)
    (hk : t.KeptIn t')
    (htr : ∀ tr, some tr ∈ s'.trackers → some tr ∈ s.trackers ∨ tr.store.queues.Coherent t') :
    s'.Coherent t' := by
  refine ⟨hdb, hk.nodup h.nodup, fun tr hm => ?_⟩
  rcases htr tr hm with hold | hnew
  · exact (h.trackers tr hold).mono hk.keys
  · exact hnew

theorem of_db (h : s.Coherent t) {s' : Session} (htr : s'.trackers = s.trackers)
    (hdb : t.KeptBy s'.db) : ∃ t', s'.Coherent t' := by
  obtain ⟨t', hdb', hk⟩ := hdb
  exact ⟨t', h.next hdb' hk fun tr hm => .inl (htr ▸ hm)⟩

theorem of_set (h : s.Coherent t) {s' : Session} {i : Nat} {x : Option Tracker}
    (htr : s'.trackers = s.trackers.set i x) {t' : Table} (hdb : s'.db = ⟨some t'⟩)
    (hk : t.KeptIn t') (hx : ∀ tr, some tr = x → tr.store.queues.Coherent t') : s'.Coherent t' :=
  h.next hdb hk fun tr hm => by
    rw [htr] at hm
    rcases List.mem_or_eq_of_mem_set hm with hold | hnew
    · exact .inl hold
    · exact .inr (hx tr hnew)

theorem keptBy_dropped (h : s.Coherent t) (old : Option Store) :
    t.KeptBy (match old with
      | some st => st.drop s.db
      | none => s.db) := by
  rw [h.db]
  cases old with
  | none => exact t.keptBy_self
  | some st => exact Store.keptBy_drop st t

theorem onTracker (h : s.Coherent t) {α : Type} (i : Nat)
    (f : Tracker → Database → α × Tracker × Database)
    (hf : ∀ tr, tr.store.queues.Coherent t → ∃ t', (f tr ⟨some t⟩).2.2 = ⟨some t'⟩ ∧
      t.KeptIn t' ∧ (f tr ⟨some t⟩).2.1.store.queues.Coherent t') :
    ∃ t', (s.onTracker i f).2.Coherent t' := by
  unfold Session.onTracker
  cases hi : s.tracker i with
  | error e => exact ⟨t, h⟩
  | ok tr =>
    obtain ⟨t', hdb, hk, hc⟩ := hf tr (h.trackers tr (mem_of_tracker hi))
    dsimp only
    rw [h.db]
    generalize f tr ⟨some t⟩ = r at hdb hc
    obtain ⟨a, tr', db'⟩ := r
    exact ⟨t', h.of_set rfl hdb hk fun _ he => Option.some.inj he ▸ hc⟩

theorem onStore (h : s.Coherent t) {α : Type} (j : Nat) (f : Store → Database → StoreStep α)
    (hf : ∀ st, t.KeptBy (f st ⟨some t⟩).db) : ∃ t', (s.onStore j f).2.Coherent t' := by
  unfold Session.onStore
  cases s.store j with
  | error e => exact ⟨t, h⟩
  | ok st =>
    dsimp only
    exact h.of_db rfl (by rw [h.db]; exact hf st)

theorem dropTracker (h : s.Coherent t) (i : Nat) : ∃ t', (s.dropTracker i).2.Coherent t' := by
  unfold Session.dropTracker
  cases s.trackers[i]? with
  | none => exact ⟨t, h⟩
  | some old =>
    obtain ⟨t', hdb, hk⟩ := h.keptBy_dropped (old.map (·.store))
    cases old <;> exact ⟨t', h.of_set rfl hdb hk fun _ he => by cases he⟩

theorem reopenTracker (h : s.Coherent t) (i : Nat) : ∃ t', (s.reopenTracker i).2.Coherent t' := by
  unfold Session.reopenTracker
  cases s.trackers[i]? with
  | none => exact ⟨t, h⟩
  | some old =>
    obtain ⟨t', hdb, hk⟩ := h.keptBy_dropped (old.map (·.store))
    cases old <;> exact ⟨t', h.of_set rfl hdb hk fun _ he => by
      cases he
      exact Batcher.Coherent.empty s.limit t'⟩

theorem dropStore (h : s.Coherent t) (j : Nat) : ∃ t', (s.dropStore j).2.Coherent t' := by
  unfold Session.dropStore
  cases s.stores[j]? with
  | none => exact ⟨t, h⟩
  | some old => exact h.of_db rfl (h.keptBy_dropped old)

theorem reopenStore (h : s.Coherent t) (j : Nat) : ∃ t', (s.reopenStore j).2.Coherent t' := by
  unfold Session.reopenStore
  cases s.stores[j]? with
  | none => exact ⟨t, h⟩
  | some old => exact h.of_db rfl (h.keptBy_dropped old)

/-- Every step keeps a session coherent. -/
theorem run (h : s.Coherent t) (st : SessionStep) : ∃ t', (st.run s).Coherent t' := by
  cases st with
  | setClock _ => exact ⟨t, h.db, h.nodup, h.trackers⟩
  | track i key changedAt =>
    exact h.onTracker i _ fun _ hc => Tracker.coherent_track hc key changedAt _
  | shutdown i => exact h.onTracker i _ fun _ hc => Tracker.coherent_shutdown hc
  | drop i => exact h.dropTracker i
  | reopen i => exact h.reopenTracker i
  | storeInsert j w => exact h.onStore j _ fun st => Store.keptBy_insert st t w
  | storeUpdate j w => exact h.onStore j _ fun st => Store.keptBy_update st t w
  | storeFlush j kind force => exact h.onStore j _ fun st => Store.keptBy_flush st t kind force
  | storeShutdown j =>
    show ∃ t', (s.shutdownStore j).2.Coherent t'
    rw [shutdownStore_snd]
    exact h.onStore j _ fun st => Store.keptBy_shutdown st t
  | storeDrop j => exact h.dropStore j
  | storeReopen j => exact h.reopenStore j
  | markDeleted key at_ =>
    simp only [SessionStep.run, h.db]
    exact h.of_db rfl ⟨_, rfl, t.keptIn_markDeleted key at_⟩
  | inspect env words =>
    refine h.of_db rfl ?_
    show t.KeptBy (runInspect env words s.db s.clock).2
    rw [h.db]
    exact keptBy_runInspect env words t s.clock
  | seed r =>
    simp only [SessionStep.run]
    cases hs : s.db.seed r with
    | error e => exact ⟨t, h⟩
    | ok db => exact h.of_db rfl (Database.keptBy_seed (h.db ▸ hs))
  | createTable =>
    refine h.of_db rfl ?_
    show t.KeptBy s.db.createTable
    rw [h.db]
    exact t.keptBy_self

theorem runAll (h : s.Coherent t) (steps : List SessionStep) : ∃ t', (s.runAll steps).Coherent t' := by
  induction steps generalizing s t with
  | nil => exact ⟨t, h⟩
  | cons st rest ih =>
    obtain ⟨t₁, h₁⟩ := h.run st
    exact ih h₁

end Coherent

end Session

/-- In every reachable session with its table, keys are distinct and every tracker's queues are
coherent, so committing updates first leaves what a forced commit leaves. -/
theorem session_keeps_trackers_coherent {nt ns limit : Nat} {clock : Instant}
    {seeds : List RawRow} {s₀ : Session} (h₀ : Session.start nt ns limit clock seeds = .ok s₀)
    (steps : List SessionStep) :
    ∃ t, (s₀.runAll steps).db = ⟨some t⟩ ∧ t.keys.Nodup ∧
      ∀ tr, some tr ∈ (s₀.runAll steps).trackers →
        tr.store.queues.Coherent t ∧
        ((tr.store.flush ⟨some t⟩ .update true).store.flush
          (tr.store.flush ⟨some t⟩ .update true).db .insert true).db =
            tr.store.forceCommit ⟨some t⟩ ∧
        ∀ w ∈ tr.store.queues.updates.items, t.countP (fun r => r.key == w.key) = 1 := by
  obtain ⟨t₀, hc₀⟩ := Session.coherent_start h₀
  obtain ⟨t, hc⟩ := hc₀.runAll steps
  refine ⟨t, hc.db, hc.nodup, fun tr hm => ?_⟩
  have hq := hc.trackers tr hm
  refine ⟨hq, Store.flush_updates_first hq, fun w hw => ?_⟩
  exact Table.countP_key_eq_one hc.nodup (hq.updates_committed _ (List.mem_map_of_mem hw))

/-- Two trackers and a store over one key, with a shutdown, a deletion mark and a reopen between
their calls. -/
theorem trackers_stay_coherent_over_a_shared_key :
    let e : Instant := ⟨1577836800, 0⟩
    let k : RecordKey := ⟨"libA", "rec1"⟩
    let steps := [SessionStep.track 0 k e, .track 1 k e, .shutdown 0, .markDeleted k e,
      .track 1 ⟨"libA", "rec2"⟩ e, .track 1 k e, .storeInsert 0 ⟨k, e, e, e⟩, .reopen 0,
      .track 0 k e]
    ∃ s₀, Session.start 2 1 2 e [] = .ok s₀ ∧
      ∃ t, (s₀.runAll steps).db = ⟨some t⟩ ∧ t.keys.Nodup ∧
        ∀ tr, some tr ∈ (s₀.runAll steps).trackers →
          tr.store.queues.Coherent t ∧
          ((tr.store.flush ⟨some t⟩ .update true).store.flush
            (tr.store.flush ⟨some t⟩ .update true).db .insert true).db =
              tr.store.forceCommit ⟨some t⟩ ∧
          ∀ w ∈ tr.store.queues.updates.items, t.countP (fun r => r.key == w.key) = 1 :=
  ⟨_, rfl, session_keeps_trackers_coherent
    (show Session.start 2 1 2 ⟨1577836800, 0⟩ [] = .ok _ from rfl) _⟩

end ChangeLedger
