import ChangeLedger.Proofs.SharedTable
import ChangeLedger.Ingest.Run
/-! # Ingest workers touch disjoint rows

An ingest run hands each event to the worker of its key's slot, and every worker tracks its events
with a tracker of its own over the one table. A worker's queues hold only keys of its slot, so it
reads and writes only rows of those keys: what it does over the whole table is what it does over
the rows of its slot, and it leaves every other row as it was (`Tracker.track_onRows`,
`IngestWorker.step_onRows`).

So the workers may take their steps in any interleaving (`runSchedule`): once all are done, the
rows of each slot are those its worker leaves when it runs alone over the slot's rows, the table
is the one `runIngest` leaves up to the order of its rows, and the outcome counts add up to the
counts of those lone runs (`ingest_matches_slot_runs`).
-/
namespace ChangeLedger

/-! ## The rows of some keys -/

namespace Table

variable {p : RecordKey → Bool}

/-- The rows whose keys satisfy `p`, in table order. -/
def restrict (t : Table) (p : RecordKey → Bool) : Table := t.filter (p ·.key)

theorem find?_restrict (t : Table) {k : RecordKey} (hk : p k = true) :
    (t.restrict p).find? k = t.find? k := by
  simp only [restrict, find?, List.find?_filter]
  congr 1
  funext r
  by_cases hr : r.key = k
  · simp [hr, hk]
  · simp [hr]

theorem not_mem_keys_restrict (t : Table) {k : RecordKey} (hk : p k = false) :
    k ∉ (t.restrict p).keys := by
  intro hmem
  obtain ⟨r, hr, rfl⟩ := List.mem_map.1 hmem
  have hp : p r.key = true := (List.mem_filter.1 hr).2
  rw [hp] at hk
  cases hk

theorem restrict_append_row (t : Table) (r : Row) :
    (t ++ [r]).restrict p = t.restrict p ++ if p r.key then [r] else [] := by
  simp only [restrict, List.filter_append, List.filter_cons, List.filter_nil]

theorem restrict_modify (t : Table) (k : RecordKey) (f : Row → Row)
    (hf : ∀ r, (f r).key = r.key) : (t.modify k f).restrict p = (t.restrict p).modify k f := by
  simp only [restrict, modify, List.filter_map]
  congr 1
  apply List.filter_congr
  intro r _
  simp only [Function.comp_apply]
  split <;> simp [hf]

theorem restrict_upsert (t : Table) (w : RowWrite) :
    (t.upsert w).restrict p = if p w.key then (t.restrict p).upsert w else t.restrict p := by
  cases hf : t.find? w.key with
  | none =>
    rw [upsert_of_find?_eq_none hf, restrict_append_row, RowWrite.toRow_key]
    split
    · rename_i hp
      rw [upsert_of_find?_eq_none ((find?_restrict t hp).trans hf)]
    · rw [List.append_nil]
  | some r =>
    rw [upsert_of_find?_eq_some hf, restrict_modify _ _ (·.merge w) fun _ => rfl]
    split
    · rename_i hp
      rw [upsert_of_find?_eq_some ((find?_restrict t hp).trans hf)]
    · rename_i hp
      exact modify_of_not_mem _ (not_mem_keys_restrict t (by simpa using hp)) _

theorem restrict_rewrite (t : Table) (w : RowWrite) :
    (t.rewrite w).restrict p = if p w.key then (t.restrict p).rewrite w else t.restrict p := by
  rw [rewrite_eq_modify, restrict_modify _ _ (·.overwrite w) fun _ => rfl]
  split
  · rfl
  · rename_i hp
    exact modify_of_not_mem _ (not_mem_keys_restrict t (by simpa using hp)) _

theorem restrict_foldl {f : Table → RowWrite → Table}
    (hf : ∀ t w, (f t w).restrict p = if p w.key then f (t.restrict p) w else t.restrict p)
    (t : Table) (ws : List RowWrite) :
    (ws.foldl f t).restrict p = (ws.filter (p ·.key)).foldl f (t.restrict p) := by
  induction ws generalizing t with
  | nil => rfl
  | cons w ws ih =>
    rw [List.foldl_cons, ih, hf, List.filter_cons]
    by_cases hp : p w.key = true <;> simp [hp]

theorem restrict_commit (t : Table) (kind : BatchKind) (ws : List RowWrite) :
    (t.commit kind ws).restrict p = (t.restrict p).commit kind (ws.filter (p ·.key)) := by
  cases kind with
  | insert => exact restrict_foldl restrict_upsert t ws
  | update => exact restrict_foldl restrict_rewrite t ws

theorem restrict_eq_of_restrict_eq {t t' : Table} {q : RecordKey → Bool}
    (h : t'.restrict p = t.restrict p) (hq : ∀ k, q k = true → p k = true) :
    t'.restrict q = t.restrict q := by
  have hsub : ∀ u : Table, (u.restrict p).restrict q = u.restrict q := fun u => by
    simp only [restrict, List.filter_filter]
    apply List.filter_congr
    intro r _
    cases hr : q r.key
    · rfl
    · simp [hq _ hr]
  rw [← hsub t', h, hsub t]

end Table

/-! ## Queues that hold keys of one part -/

namespace Batcher

variable {p : RecordKey → Bool} {q : Batcher}

theorem flushTo_fst_congr (q : Batcher) (t t' : Table) (kind : BatchKind) (force : Bool) :
    (q.flushTo t kind force).1 = (q.flushTo t' kind force).1 := by
  unfold flushTo
  split <;> rfl

/-- A flush of queues holding only keys in `p` commits to the rows of `p` alone. -/
theorem restrict_flushTo (h : q.AllWrites (p ·.key = true)) (t : Table) (kind : BatchKind)
    (force : Bool) :
    (q.flushTo t kind force).2.restrict p = (q.flushTo (t.restrict p) kind force).2 ∧
      (q.flushTo t kind force).2.restrict (!p ·) = t.restrict (!p ·) := by
  cases hd : q.isDue kind force
  · rw [flushTo_of_not_due hd, flushTo_of_not_due hd]
    exact ⟨rfl, rfl⟩
  · simp only [flushTo_of_due hd, Table.restrict_commit]
    have hw := h.take kind
    refine ⟨by rw [List.filter_eq_self.2 hw], ?_⟩
    rw [List.filter_eq_nil_iff.2 fun w hm => by simp [hw w hm]]
    cases kind <;> rfl

theorem restrict_insertTo (h : q.AllWrites (p ·.key = true)) (t : Table) {w : RowWrite}
    (hw : p w.key = true) :
    (q.insertTo t w).2.restrict p = (q.insertTo (t.restrict p) w).2 ∧
      (q.insertTo t w).2.restrict (!p ·) = t.restrict (!p ·) :=
  restrict_flushTo (h.enqueue hw .insert) t .insert false

theorem restrict_updateTo (h : q.AllWrites (p ·.key = true)) (t : Table) {w : RowWrite}
    (hw : p w.key = true) :
    (q.updateTo t w).2.restrict p = (q.updateTo (t.restrict p) w).2 ∧
      (q.updateTo t w).2.restrict (!p ·) = t.restrict (!p ·) := by
  unfold updateTo
  cases q.foldIntoInsert? w with
  | some q' => exact ⟨rfl, rfl⟩
  | none => exact restrict_flushTo (h.enqueue hw .update) t .update false

end Batcher

/-! ## A store over the rows of its keys -/

namespace Store

theorem lookup_congr (s : Store) {t t' : Table} {k : RecordKey} (h : t.find? k = t'.find? k) :
    s.lookup ⟨some t⟩ k = s.lookup ⟨some t'⟩ k := by
  simp only [lookup, Database.times?, Database.deletedAt?, Database.rows, bind, Except.bind, h]

theorem afterLookup_congr (s : Store) (t t' : Table) (k : RecordKey) :
    s.afterLookup ⟨some t⟩ k = s.afterLookup ⟨some t'⟩ k := by
  unfold afterLookup
  split <;> rfl

theorem flush_store_congr (s : Store) (t t' : Table) (kind : BatchKind) (force : Bool) :
    (s.flush ⟨some t⟩ kind force).store = (s.flush ⟨some t'⟩ kind force).store := by
  have h₁ := Database.applyAll_statement (show (⟨some t⟩ : Database).table = some t from rfl)
    kind (s.queues.take kind).1
  have h₂ := Database.applyAll_statement (show (⟨some t'⟩ : Database).table = some t' from rfl)
    kind (s.queues.take kind).1
  have hp : s.conn.prepare ⟨some t'⟩ kind = s.conn.prepare ⟨some t⟩ kind := by
    simp only [Connection.prepare, Database.rows, Except.map]
  obtain ⟨c, hc⟩ := s.conn.prepare_of_table t kind
  cases hd : s.queues.isDue kind force
  · simp [flush, hd]
  · by_cases he : (s.queues.take kind).1.isEmpty <;>
      simp [flush, hd, hp, hc, he, h₁, h₂, Connection.refresh]

theorem insert_store_congr (s : Store) (t t' : Table) (w : RowWrite) :
    (s.insert ⟨some t⟩ w).store = (s.insert ⟨some t'⟩ w).store :=
  flush_store_congr _ t t' .insert false

theorem update_store_congr (s : Store) (t t' : Table) (w : RowWrite) :
    (s.update ⟨some t⟩ w).store = (s.update ⟨some t'⟩ w).store := by
  unfold update
  split
  · rfl
  · exact flush_store_congr _ t t' .update false

theorem shutdown_store_congr (s : Store) (t t' : Table) :
    (s.shutdown ⟨some t⟩).1 = (s.shutdown ⟨some t'⟩).1 := by
  unfold shutdown
  split
  · rfl
  · dsimp only
    rw [flush_db_of_table, flush_db_of_table, flush_store_congr _ t t']
    exact congrArg (fun st : Store => { st with conn := { st.conn with prepared := [] } })
      (flush_store_congr _ _ _ .update true)

end Store

/-- `b` holds the rows of `a` whose keys are in `p`, and `u` holds the others. -/
def Database.SplitAt (p : RecordKey → Bool) (u : Table) (a b : Database) : Prop :=
  ∃ t, a = ⟨some t⟩ ∧ b = ⟨some (t.restrict p)⟩ ∧ t.restrict (!p ·) = u

theorem Database.splitAt_restrict (p : RecordKey → Bool) (t : Table) :
    Database.SplitAt p (t.restrict (!p ·)) ⟨some t⟩ ⟨some (t.restrict p)⟩ :=
  ⟨t, rfl, rfl, rfl⟩

/-- One store over a table and over the rows of the table whose keys are in `p`, queuing only such
keys; `u` holds the other rows. -/
def Store.OnRows (p : RecordKey → Bool) (u : Table) (a b : Store × Database) : Prop :=
  a.1 = b.1 ∧ a.1.queues.AllWrites (p ·.key = true) ∧ Database.SplitAt p u a.2 b.2

/-! ## Trackers over the rows of their keys -/

namespace RecordStore

variable {σ τ : Type}

/-- Under `R`, two stores answer lookups and make writes of keys in `K` alike. -/
structure MirrorsOn (S₁ : RecordStore σ) (S₂ : RecordStore τ) (K : RecordKey → Prop)
    (R : σ → τ → Prop) : Prop where
  lookup : ∀ {a b} (k : RecordKey), R a b → K k → S₁.lookup a k = S₂.lookup b k
  looked : ∀ {a b} (k : RecordKey), R a b → K k → R (S₁.looked a k) (S₂.looked b k)
  insert : ∀ {a b} (w : RowWrite), R a b → K w.key →
    (S₁.insert a w).1 = (S₂.insert b w).1 ∧ R (S₁.insert a w).2 (S₂.insert b w).2
  update : ∀ {a b} (w : RowWrite), R a b → K w.key →
    (S₁.update a w).1 = (S₂.update b w).1 ∧ R (S₁.update a w).2 (S₂.update b w).2

theorem MirrorsOn.track {S₁ : RecordStore σ} {S₂ : RecordStore τ} {K : RecordKey → Prop}
    {R : σ → τ → Prop} (h : S₁.MirrorsOn S₂ K R) {t₁ : TrackerOn σ} {t₂ : TrackerOn τ}
    (ht : Agree R t₁ t₂) {key : RecordKey} (hk : K key) (changedAt now : Instant) :
    (TrackerOn.track S₁ t₁ key changedAt now).1 = (TrackerOn.track S₂ t₂ key changedAt now).1 ∧
      Agree R (TrackerOn.track S₁ t₁ key changedAt now).2
        (TrackerOn.track S₂ t₂ key changedAt now).2 :=
  ht.track fun _ => Agree.apply
    (show Agree R { t₁ with current := some key } { t₂ with current := some key } from
      ⟨ht.store, rfl, ht.times⟩)
    (h.lookup key ht.store hk) (h.looked key ht.store hk)
    (fun _ => h.insert ⟨key, now, now, changedAt⟩ (h.looked key ht.store hk) hk)
    fun tm _ => h.update ⟨key, tm.firstSeen.getD now, now, changedAt⟩ (h.looked key ht.store hk) hk

end RecordStore

namespace Store

variable {p : RecordKey → Bool}

theorem records_mirrorsOn (p : RecordKey → Bool) (u : Table) :
    records.MirrorsOn records (p · = true) (OnRows p u) where
  lookup := by
    rintro ⟨s, _⟩ ⟨_, _⟩ k ⟨rfl, -, t, rfl, rfl, -⟩ hk
    exact lookup_congr s (Table.find?_restrict t hk).symm
  looked := by
    rintro ⟨s, _⟩ ⟨_, _⟩ k ⟨rfl, hq, t, rfl, rfl, hu⟩ -
    refine ⟨afterLookup_congr s t (t.restrict p) k, ?_, t, rfl, rfl, hu⟩
    simpa only [records, afterLookup_queues] using hq
  insert := by
    rintro ⟨s, _⟩ ⟨_, _⟩ w ⟨rfl, hq, t, rfl, rfl, hu⟩ hk
    have hst := insert_store_congr s t (t.restrict p) w
    obtain ⟨ps₁, h₁⟩ := insert_of_table s t w
    obtain ⟨ps₂, h₂⟩ := insert_of_table s (t.restrict p) w
    obtain ⟨hr, hc⟩ := Batcher.restrict_insertTo hq t hk
    simp only [records]
    rw [h₁, h₂] at hst ⊢
    exact ⟨rfl, hst, hq.insertTo t hk, _, rfl, by rw [hr], hc.trans hu⟩
  update := by
    rintro ⟨s, _⟩ ⟨_, _⟩ w ⟨rfl, hq, t, rfl, rfl, hu⟩ hk
    have hst := update_store_congr s t (t.restrict p) w
    obtain ⟨ps₁, h₁⟩ := update_of_table s t w
    obtain ⟨ps₂, h₂⟩ := update_of_table s (t.restrict p) w
    obtain ⟨hr, hc⟩ := Batcher.restrict_updateTo hq t hk
    simp only [records]
    rw [h₁, h₂] at hst ⊢
    exact ⟨rfl, hst, hq.updateTo t hk, _, rfl, by rw [hr], hc.trans hu⟩

theorem shutdown_onRows {s : Store} (hq : s.queues.AllWrites (p ·.key = true)) (t : Table) :
    OnRows p (t.restrict (!p ·)) (s.shutdown ⟨some t⟩) (s.shutdown ⟨some (t.restrict p)⟩) := by
  refine ⟨shutdown_store_congr s t _, ?_⟩
  cases hcl : s.closed
  · obtain ⟨hq₁, hdb₁⟩ := shutdown_of_table hcl t
    obtain ⟨-, hdb₂⟩ := shutdown_of_table hcl (t.restrict p)
    obtain ⟨hr₁, hc₁⟩ := Batcher.restrict_flushTo hq t .insert true
    have hq' := hq.flushTo t .insert true
    obtain ⟨hr₂, hc₂⟩ := Batcher.restrict_flushTo hq' (s.queues.flushTo t .insert true).2 .update true
    refine ⟨by rw [hq₁]; exact hq'.flushTo _ .update true, _, hdb₁, ?_, hc₂.trans hc₁⟩
    rw [hdb₂, hr₂, hr₁, Batcher.flushTo_fst_congr s.queues (t.restrict p) t]
  · simp only [shutdown, hcl, if_true]
    exact ⟨hq, Database.splitAt_restrict p t⟩

end Store

theorem Tracker.eq_of_fields {a b : Tracker} (hs : a.store = b.store) (hc : a.current = b.current)
    (ht : a.times = b.times) : a = b := by
  cases a
  cases b
  simp_all

namespace Tracker

variable {p : RecordKey → Bool}

/-- A tracker queuing only keys in `p` tracks a key in `p` alike over the table and over the rows
of `p`, and leaves the other rows alone. -/
theorem track_onRows {tr : Tracker} (hq : tr.store.queues.AllWrites (p ·.key = true)) (t : Table)
    {key : RecordKey} (hk : p key = true) (changedAt now : Instant) :
    (tr.track ⟨some t⟩ key changedAt now).result =
        (tr.track ⟨some (t.restrict p)⟩ key changedAt now).result ∧
      (tr.track ⟨some t⟩ key changedAt now).tracker =
        (tr.track ⟨some (t.restrict p)⟩ key changedAt now).tracker ∧
      (tr.track ⟨some t⟩ key changedAt now).tracker.store.queues.AllWrites (p ·.key = true) ∧
      Database.SplitAt p (t.restrict (!p ·)) (tr.track ⟨some t⟩ key changedAt now).db
        (tr.track ⟨some (t.restrict p)⟩ key changedAt now).db := by
  have hag : RecordStore.Agree (Store.OnRows p (t.restrict (!p ·))) (tr.on ⟨some t⟩)
      (tr.on ⟨some (t.restrict p)⟩) := ⟨⟨rfl, hq, Database.splitAt_restrict p t⟩, rfl, rfl⟩
  obtain ⟨hres, ⟨hst, hq', hdb⟩, hcur, htimes⟩ :=
    (Store.records_mirrorsOn p _).track hag hk changedAt now
  simp only [← track_on, on_store, on_current, on_times] at hres hst hq' hdb hcur htimes
  exact ⟨hres, eq_of_fields hst hcur htimes, hq', hdb⟩

theorem shutdown_onRows {tr : Tracker} (hq : tr.store.queues.AllWrites (p ·.key = true))
    (t : Table) :
    (tr.shutdown ⟨some t⟩).1 = (tr.shutdown ⟨some (t.restrict p)⟩).1 ∧
      (tr.shutdown ⟨some t⟩).1.store.queues.AllWrites (p ·.key = true) ∧
      Database.SplitAt p (t.restrict (!p ·)) (tr.shutdown ⟨some t⟩).2
        (tr.shutdown ⟨some (t.restrict p)⟩).2 := by
  obtain ⟨hst, hq', hdb⟩ := Store.shutdown_onRows hq t
  exact ⟨congrArg (fun s => { tr with store := s }) hst, hq', hdb⟩

end Tracker

/-! ## Workers -/

/-- The keys of slot `s` among `n` workers. -/
def RecordKey.inSlot (n s : Nat) (k : RecordKey) : Bool := decide (k.slot n = s)

theorem Table.restrict_slot_of_ne {t t' : Table} {n i s : Nat}
    (h : t'.restrict (!RecordKey.inSlot n i ·) = t.restrict (!RecordKey.inSlot n i ·))
    (hne : s ≠ i) : t'.restrict (RecordKey.inSlot n s) = t.restrict (RecordKey.inSlot n s) :=
  Table.restrict_eq_of_restrict_eq h fun k hk => by
    simp only [RecordKey.inSlot, decide_eq_true_eq, Bool.not_eq_true',
      decide_eq_false_iff_not] at hk ⊢
    omega

/-- A worker part way through an ingest run: its tracker, its outcome counts, how many calls it
has made, the events it has still to track, and whether it has shut its tracker down. -/
structure IngestWorker where
  tracker : Tracker
  counts : OutcomeCounts
  calls : Nat
  pending : List RecordEvent
  done : Bool

namespace IngestWorker

def init (limit : Nat) (events : List RecordEvent) : IngestWorker :=
  ⟨Tracker.fresh limit, {}, 0, events, false⟩

def initAll (limit n : Nat) (events : List RecordEvent) : List IngestWorker :=
  (List.range n).map fun s => init limit (eventsFor n s events)

/-- Track the next event at the worker's next clock reading; with none left, shut down once. -/
def step (clock : Nat → Instant) (w : IngestWorker) (db : Database) : IngestWorker × Database :=
  match w.pending with
  | ev :: rest =>
    let r := w.tracker.track db ev.key ev.changedAt (clock w.calls)
    (⟨r.tracker, w.counts.tally r.result, w.calls + 1, rest, w.done⟩, r.db)
  | [] =>
    if w.done then (w, db)
    else (⟨(w.tracker.shutdown db).1, w.counts, w.calls, [], true⟩, (w.tracker.shutdown db).2)

def steps (clock : Nat → Instant) : Nat → IngestWorker → Database → IngestWorker × Database
  | 0, w, db => (w, db)
  | m + 1, w, db => steps clock m (w.step clock db).1 (w.step clock db).2

/-- The worker's queues and the events it has still to track are all of keys in `p`. -/
def Within (p : RecordKey → Bool) (w : IngestWorker) : Prop :=
  w.tracker.store.queues.AllWrites (p ·.key = true) ∧ ∀ ev ∈ w.pending, p ev.key = true

variable {p : RecordKey → Bool} {w : IngestWorker} {clock : Nat → Instant}

theorem step_of_cons {ev : RecordEvent} {rest : List RecordEvent} (h : w.pending = ev :: rest)
    (db : Database) :
    w.step clock db = (⟨(w.tracker.track db ev.key ev.changedAt (clock w.calls)).tracker,
      w.counts.tally (w.tracker.track db ev.key ev.changedAt (clock w.calls)).result, w.calls + 1,
      rest, w.done⟩, (w.tracker.track db ev.key ev.changedAt (clock w.calls)).db) := by
  simp [step, h]

theorem step_of_nil (h : w.pending = []) (hd : w.done = false) (db : Database) :
    w.step clock db =
      (⟨(w.tracker.shutdown db).1, w.counts, w.calls, [], true⟩, (w.tracker.shutdown db).2) := by
  simp [step, h, hd]

theorem step_of_done (h : w.pending = []) (hd : w.done = true) (db : Database) :
    w.step clock db = (w, db) := by
  simp [step, h, hd]

theorem steps_of_done (h : w.pending = []) (hd : w.done = true) (m : Nat) (db : Database) :
    w.steps clock m db = (w, db) := by
  induction m with
  | zero => rfl
  | succ m ih =>
    simp only [steps, step_of_done h hd]
    exact ih

theorem steps_eq_of_done {m : Nat} {db : Database} (h : (w.steps clock m db).1.done = true)
    (hd : w.done = false) : w.steps clock m db = w.steps clock (w.pending.length + 1) db := by
  induction hp : w.pending generalizing w m db with
  | nil =>
    cases m with
    | zero => simp [steps, hd] at h
    | succ m =>
      simp only [steps, step_of_nil hp hd] at h ⊢
      rw [steps_of_done rfl rfl]
      rfl
  | cons ev rest ih =>
    cases m with
    | zero => simp [steps, hd] at h
    | succ m =>
      simp only [steps, step_of_cons hp] at h ⊢
      rw [ih h hd rfl]
      rfl

/-- A worker of a part of the keys steps alike over the table and over the rows of that part,
stays a worker of the part, and leaves the other rows alone. -/
theorem step_onRows (hw : w.Within p) (clock : Nat → Instant) (t : Table) :
    (w.step clock ⟨some t⟩).1 = (w.step clock ⟨some (t.restrict p)⟩).1 ∧
      (w.step clock ⟨some t⟩).1.Within p ∧
      Database.SplitAt p (t.restrict (!p ·)) (w.step clock ⟨some t⟩).2
        (w.step clock ⟨some (t.restrict p)⟩).2 := by
  obtain ⟨hq, hev⟩ := hw
  cases hp : w.pending with
  | cons ev rest =>
    rw [step_of_cons hp, step_of_cons hp]
    have hk := hev ev (by simp [hp])
    obtain ⟨hres, htr, hq', hdb⟩ := Tracker.track_onRows hq t hk ev.changedAt (clock w.calls)
    exact ⟨by rw [hres, htr], ⟨hq', fun e he => hev e (by simp [hp, he])⟩, hdb⟩
  | nil =>
    cases hd : w.done
    · rw [step_of_nil hp hd, step_of_nil hp hd]
      obtain ⟨htr, hq', hdb⟩ := Tracker.shutdown_onRows hq t
      exact ⟨by rw [htr], ⟨hq', by simp⟩, hdb⟩
    · rw [step_of_done hp hd, step_of_done hp hd]
      exact ⟨rfl, ⟨hq, hev⟩, Database.splitAt_restrict p t⟩

theorem steps_onRows (hw : w.Within p) (clock : Nat → Instant) (t : Table) (m : Nat) :
    (w.steps clock m ⟨some t⟩).1 = (w.steps clock m ⟨some (t.restrict p)⟩).1 ∧
      Database.SplitAt p (t.restrict (!p ·)) (w.steps clock m ⟨some t⟩).2
        (w.steps clock m ⟨some (t.restrict p)⟩).2 := by
  induction m generalizing w t with
  | zero => exact ⟨rfl, Database.splitAt_restrict p t⟩
  | succ m ih =>
    obtain ⟨hw', hin, t', hdb₁, hdb₂, hu⟩ := step_onRows hw clock t
    simp only [steps]
    rw [hdb₁, hdb₂, ← hw']
    obtain ⟨h₁, t'', h₂, h₃, hu'⟩ := ih hin t'
    exact ⟨h₁, t'', h₂, h₃, hu'.trans hu⟩

/-- A worker that has made `i` calls and has events left to track runs them as `trackEvents`
does from call `i` on, then shuts down. -/
theorem steps_eq_trackEvents (clock : Nat → Instant) (evs : List RecordEvent) (tr : Tracker)
    (c : OutcomeCounts) (i : Nat) (db : Database) :
    (⟨tr, c, i, evs, false⟩ : IngestWorker).steps clock (evs.length + 1) db =
      (⟨((trackEvents clock i tr c db evs).1.shutdown (trackEvents clock i tr c db evs).2.2).1,
          (trackEvents clock i tr c db evs).2.1, i + evs.length, [], true⟩,
        ((trackEvents clock i tr c db evs).1.shutdown (trackEvents clock i tr c db evs).2.2).2) := by
  induction evs generalizing tr c i db with
  | nil => rfl
  | cons ev rest ih =>
    rw [List.length_cons, steps, step_of_cons (w := ⟨tr, c, i, ev :: rest, false⟩) rfl]
    dsimp only
    rw [ih, trackEvents, Nat.add_assoc, Nat.add_comm 1]

/-- Run to the end from the start, a worker alone is `runWorker`: it tracks its events in turn,
then shuts down. -/
theorem runWorker_eq_steps (limit : Nat) (clock : Nat → Instant) (db : Database)
    (events : List RecordEvent) :
    runWorker limit clock db events =
      (((init limit events).steps clock (events.length + 1) db).1.counts,
        ((init limit events).steps clock (events.length + 1) db).2) := by
  rw [init, steps_eq_trackEvents]
  rfl

end IngestWorker

/-! ## Workers side by side -/

/-- Workers side by side: each entry of a schedule lets the worker it names take a step. -/
def runSchedule (clock : Nat → Nat → Instant) : List IngestWorker → Database → List Nat →
    List IngestWorker × Database
  | ws, db, [] => (ws, db)
  | ws, db, i :: sched =>
    match ws[i]? with
    | some w => runSchedule clock (ws.set i (w.step (clock i) db).1) (w.step (clock i) db).2 sched
    | none => runSchedule clock ws db sched

/-- Over any schedule, each worker and its slot's rows end where the worker alone ends. -/
theorem runSchedule_slots (clock : Nat → Nat → Instant) (n : Nat) {ws : List IngestWorker}
    (hws : ∀ s (w : IngestWorker), ws[s]? = some w → w.Within (RecordKey.inSlot n s))
    (t : Table) (sched : List Nat) :
    (runSchedule clock ws ⟨some t⟩ sched).1.length = ws.length ∧
      ∃ T, (runSchedule clock ws ⟨some t⟩ sched).2 = ⟨some T⟩ ∧
        ∀ s (w : IngestWorker), ws[s]? = some w →
        (runSchedule clock ws ⟨some t⟩ sched).1[s]? =
            some (w.steps (clock s) (sched.count s) ⟨some (t.restrict (RecordKey.inSlot n s))⟩).1 ∧
          (w.steps (clock s) (sched.count s) ⟨some (t.restrict (RecordKey.inSlot n s))⟩).2 =
            ⟨some (T.restrict (RecordKey.inSlot n s))⟩ := by
  induction sched generalizing ws t with
  | nil => exact ⟨rfl, t, rfl, fun s w hs => ⟨hs, rfl⟩⟩
  | cons i sched ih =>
    simp only [runSchedule]
    cases hi : ws[i]? with
    | none =>
      -- no worker takes the step
      obtain ⟨hl, T, hT, hall⟩ := ih hws t
      refine ⟨hl, T, hT, fun s w hs => ?_⟩
      have hne : i ≠ s := by
        rintro rfl
        rw [hs] at hi
        cases hi
      rw [List.count_cons_of_ne hne]
      exact hall s w hs
    | some w₀ =>
      -- worker `i` steps: its slot's rows move as they would alone, the others stay
      obtain ⟨hw₀, hin, t', hdb₁, hdb₂, hu⟩ := w₀.step_onRows (hws i w₀ hi) (clock i) t
      have hlt : i < ws.length := (List.getElem?_eq_some_iff.1 hi).1
      have hws' : ∀ s (w : IngestWorker), (ws.set i (w₀.step (clock i) ⟨some t⟩).1)[s]? = some w →
          w.Within (RecordKey.inSlot n s) := by
        intro s w hs
        by_cases hsi : i = s
        · subst hsi
          rw [List.getElem?_set_self hlt, Option.some.injEq] at hs
          exact hs ▸ hin
        · rw [List.getElem?_set_ne hsi] at hs
          exact hws s w hs
      dsimp only
      rw [hdb₁]
      obtain ⟨hl, T, hT, hall⟩ := ih hws' t'
      refine ⟨by rw [hl, List.length_set], T, hT, fun s w hs => ?_⟩
      by_cases hsi : i = s
      · subst hsi
        rw [hs, Option.some.injEq] at hi
        subst hi
        rw [List.count_cons_self]
        have h₁ := hall i (w.step (clock i) ⟨some t⟩).1 (List.getElem?_set_self hlt)
        simp only [IngestWorker.steps]
        rw [hdb₂, ← hw₀]
        exact h₁
      · rw [List.count_cons_of_ne hsi]
        rw [← Table.restrict_slot_of_ne hu (Ne.symm hsi)]
        exact hall s w (by rw [List.getElem?_set_ne hsi]; exact hs)

theorem IngestWorker.init_within {p : RecordKey → Bool} (limit : Nat) {events : List RecordEvent}
    (hev : ∀ ev ∈ events, p ev.key = true) : (IngestWorker.init limit events).Within p :=
  ⟨Batcher.AllWrites.empty limit, hev⟩

theorem inSlot_of_mem_eventsFor {n s : Nat} {events : List RecordEvent} {ev : RecordEvent}
    (h : ev ∈ eventsFor n s events) : RecordKey.inSlot n s ev.key = true :=
  (List.mem_filter.1 h).2

theorem runWorker_onRows (limit : Nat) (clock : Nat → Instant) {p : RecordKey → Bool}
    {events : List RecordEvent} (hev : ∀ ev ∈ events, p ev.key = true) (t : Table) :
    (runWorker limit clock ⟨some t⟩ events).1 =
        (runWorker limit clock ⟨some (t.restrict p)⟩ events).1 ∧
      Database.SplitAt p (t.restrict (!p ·)) (runWorker limit clock ⟨some t⟩ events).2
        (runWorker limit clock ⟨some (t.restrict p)⟩ events).2 := by
  obtain ⟨h₁, h₂⟩ := IngestWorker.steps_onRows (IngestWorker.init_within limit hev) clock t
    (events.length + 1)
  rw [IngestWorker.runWorker_eq_steps, IngestWorker.runWorker_eq_steps, h₁]
  exact ⟨rfl, h₂⟩

/-! ## Slots fed one after another -/

/-- Slot `s`'s worker alone over the rows of its slot in `t`. -/
def slotRun (limit : Nat) (clock : Nat → Nat → Instant) (n : Nat) (events : List RecordEvent)
    (t : Table) (s : Nat) : OutcomeCounts × Database :=
  runWorker limit (clock s) ⟨some (t.restrict (RecordKey.inSlot n s))⟩ (eventsFor n s events)

def feedSlot (limit : Nat) (clock : Nat → Nat → Instant) (n : Nat) (events : List RecordEvent)
    (acc : OutcomeCounts × Database) (s : Nat) : OutcomeCounts × Database :=
  let r := runWorker limit (clock s) acc.2 (eventsFor n s events)
  (acc.1.merge r.1, r.2)

/-- Feed the slots in `order`, one after another. -/
def feedSlots (limit : Nat) (clock : Nat → Nat → Instant) (n : Nat) (events : List RecordEvent)
    (order : List Nat) (db : Database) : OutcomeCounts × Database :=
  order.foldl (feedSlot limit clock n events) ({}, db)

theorem runWorkers_eq_feedSlots (limit : Nat) (clock : Nat → Nat → Instant) (n : Nat)
    (events : List RecordEvent) (db : Database) :
    runWorkers limit clock n events db = feedSlots limit clock n events (List.range n) db := rfl

section Feed

variable (limit : Nat) (clock : Nat → Nat → Instant) (n : Nat) (events : List RecordEvent)
  (t₀ : Table)

theorem foldl_feedSlot {order : List Nat} (hnd : order.Nodup) (acc : OutcomeCounts) (T : Table)
    (hT : ∀ s ∈ order, T.restrict (RecordKey.inSlot n s) = t₀.restrict (RecordKey.inSlot n s)) :
    ∃ T', (order.foldl (feedSlot limit clock n events) (acc, ⟨some T⟩)).2 = ⟨some T'⟩ ∧
      (∀ s ∈ order, (slotRun limit clock n events t₀ s).2 =
        ⟨some (T'.restrict (RecordKey.inSlot n s))⟩) ∧
      (∀ s ∉ order, T'.restrict (RecordKey.inSlot n s) = T.restrict (RecordKey.inSlot n s)) ∧
      (order.foldl (feedSlot limit clock n events) (acc, ⟨some T⟩)).1 =
        order.foldl (fun c s => c.merge (slotRun limit clock n events t₀ s).1) acc := by
  induction order generalizing acc T with
  | nil => exact ⟨T, rfl, by simp, fun _ _ => rfl, rfl⟩
  | cons s order ih =>
    obtain ⟨hs, hnd'⟩ := List.nodup_cons.1 hnd
    -- slot `s` is fed over its first rows, and the other slots keep theirs
    have hrun := runWorker_onRows limit (clock s) (fun ev (hev : ev ∈ eventsFor n s events) =>
      inSlot_of_mem_eventsFor hev) T
    rw [hT s List.mem_cons_self] at hrun
    obtain ⟨hc, T₁, hdb₁, hdb₂, hu⟩ := hrun
    have hne : ∀ s' ∈ order, s' ≠ s := fun s' hs' he => hs (he ▸ hs')
    obtain ⟨T', hT', hdone, hkeep, hcounts⟩ := ih hnd' (acc.merge (slotRun limit clock n events t₀ s).1)
      T₁ fun s' hs' => (Table.restrict_slot_of_ne hu (hne s' hs')).trans (hT s' (List.mem_cons_of_mem _ hs'))
    simp only [List.foldl_cons, feedSlot, hdb₁, hc]
    refine ⟨T', hT', fun s' hs' => ?_, fun s' hs' => ?_, hcounts⟩
    · rcases List.mem_cons.1 hs' with rfl | hs'
      · rw [hkeep s' hs]
        exact hdb₂
      · exact hdone s' hs'
    · rw [hkeep s' fun h => hs' (List.mem_cons_of_mem _ h)]
      exact Table.restrict_slot_of_ne hu fun h => hs' (h ▸ List.mem_cons_self)

end Feed

theorem OutcomeCounts.merge_right_comm (a b c : OutcomeCounts) :
    (a.merge b).merge c = (a.merge c).merge b := by
  simp only [merge, mk.injEq]
  refine ⟨?_, ?_, ?_, ?_, ?_, ?_⟩ <;> omega

theorem OutcomeCounts.foldl_merge_perm {order order' : List Nat} (h : order.Perm order')
    (f : Nat → OutcomeCounts) (c : OutcomeCounts) :
    order.foldl (fun c s => c.merge (f s)) c = order'.foldl (fun c s => c.merge (f s)) c := by
  have : RightCommutative (fun (c : OutcomeCounts) s => c.merge (f s)) :=
    ⟨fun a b c => merge_right_comm a (f b) (f c)⟩
  exact h.foldl_eq c

/-- Two tables with the same rows in each of `n` slots hold the same rows. -/
theorem Table.perm_of_slots {n : Nat} (hn : 0 < n) {T T' : Table}
    (h : ∀ s < n, T.restrict (RecordKey.inSlot n s) = T'.restrict (RecordKey.inSlot n s)) :
    T.Perm T' := by
  rw [List.perm_iff_count]
  intro r
  have hs : r.key.slot n < n := by
    have := RecordKey.slot_lt r.key n
    omega
  -- a row is counted among the rows of its own slot
  have hr : ∀ u : Table, (u.restrict (RecordKey.inSlot n (r.key.slot n))).count r = u.count r :=
    fun u => List.count_filter (p := fun x : Row => RecordKey.inSlot n (r.key.slot n) x.key)
      (by simp [RecordKey.inSlot])
  calc T.count r = (T.restrict (RecordKey.inSlot n (r.key.slot n))).count r := (hr T).symm
    _ = (T'.restrict (RecordKey.inSlot n (r.key.slot n))).count r := by rw [h _ hs]
    _ = T'.count r := hr T'

theorem IngestPlan.workerCount_pos (p : IngestPlan) : 0 < p.workerCount := by
  simp only [IngestPlan.workerCount]
  omega

theorem feedSlots_of_perm (limit : Nat) (clock : Nat → Nat → Instant) (n : Nat) (events : List RecordEvent)
    (t₀ : Table) {order : List Nat} (hord : order.Perm (List.range n)) :
    ∃ T, (feedSlots limit clock n events order ⟨some t₀⟩).2 = ⟨some T⟩ ∧
      (∀ s < n, (slotRun limit clock n events t₀ s).2 =
        ⟨some (T.restrict (RecordKey.inSlot n s))⟩) ∧
      (feedSlots limit clock n events order ⟨some t₀⟩).1 =
        (List.range n).foldl (fun c s => c.merge (slotRun limit clock n events t₀ s).1) {} := by
  obtain ⟨T, hT, hdone, -, hc⟩ := foldl_feedSlot limit clock n events t₀
    (hord.nodup_iff.2 List.nodup_range) {} t₀ fun _ _ => rfl
  refine ⟨T, hT, fun s hs => hdone s (hord.mem_iff.2 (List.mem_range.2 hs)), ?_⟩
  rw [feedSlots, hc]
  exact OutcomeCounts.foldl_merge_perm hord _ _

theorem IngestWorker.initAll_getElem? {limit n : Nat} {events : List RecordEvent} {s : Nat}
    {w : IngestWorker} (h : (initAll limit n events)[s]? = some w) :
    s < n ∧ w = init limit (eventsFor n s events) := by
  simp only [initAll, List.getElem?_map, Option.map_eq_some_iff] at h
  obtain ⟨s', hs', rfl⟩ := h
  obtain ⟨hlt, hget⟩ := List.getElem?_eq_some_iff.1 hs'
  simp only [List.length_range] at hlt
  rw [List.getElem_range] at hget
  exact ⟨hlt, hget ▸ rfl⟩

/-- Any interleaving of the workers' steps that lets every worker finish leaves each slot with
the rows its worker leaves alone, and the workers' counts add up to the same sum. -/
theorem runSchedule_complete (limit : Nat) (clock : Nat → Nat → Instant) (n : Nat)
    (events : List RecordEvent) (t₀ : Table) (sched : List Nat)
    (hdone : ∀ w ∈ (runSchedule clock (IngestWorker.initAll limit n events) ⟨some t₀⟩ sched).1,
      w.done = true) :
    ∃ T, (runSchedule clock (IngestWorker.initAll limit n events) ⟨some t₀⟩ sched).2 =
        ⟨some T⟩ ∧
      (∀ s < n, (slotRun limit clock n events t₀ s).2 =
        ⟨some (T.restrict (RecordKey.inSlot n s))⟩) ∧
      ((runSchedule clock (IngestWorker.initAll limit n events) ⟨some t₀⟩ sched).1.map
          (·.counts)).foldl OutcomeCounts.merge {} =
        (List.range n).foldl (fun c s => c.merge (slotRun limit clock n events t₀ s).1) {} := by
  have hws : ∀ s (w : IngestWorker), (IngestWorker.initAll limit n events)[s]? = some w →
      w.Within (RecordKey.inSlot n s) := fun s w h => by
    rw [(IngestWorker.initAll_getElem? h).2]
    exact IngestWorker.init_within limit fun _ hev => inSlot_of_mem_eventsFor hev
  obtain ⟨hl, T, hT, hall⟩ := runSchedule_slots clock n hws t₀ sched
  -- a finished worker has run to its end, where it is the worker alone
  have hfin : ∀ s < n,
      (runSchedule clock (IngestWorker.initAll limit n events) ⟨some t₀⟩ sched).1[s]? =
          some (IngestWorker.steps (clock s) ((eventsFor n s events).length + 1)
            (IngestWorker.init limit (eventsFor n s events))
            ⟨some (t₀.restrict (RecordKey.inSlot n s))⟩).1 ∧
        (slotRun limit clock n events t₀ s).2 = ⟨some (T.restrict (RecordKey.inSlot n s))⟩ := by
    intro s hs
    have hget : (IngestWorker.initAll limit n events)[s]? =
        some (IngestWorker.init limit (eventsFor n s events)) := by
      simp [IngestWorker.initAll, List.getElem?_range hs]
    obtain ⟨h₁, h₂⟩ := hall s _ hget
    have hd := hdone _ (List.mem_of_getElem? h₁)
    rw [IngestWorker.steps_eq_of_done hd rfl] at h₁ h₂
    rw [slotRun, IngestWorker.runWorker_eq_steps]
    exact ⟨h₁, h₂⟩
  refine ⟨T, hT, fun s hs => (hfin s hs).2, ?_⟩
  have hmap : (runSchedule clock (IngestWorker.initAll limit n events) ⟨some t₀⟩ sched).1.map
      (·.counts) = (List.range n).map fun s => (slotRun limit clock n events t₀ s).1 := by
    apply List.ext_getElem?
    intro s
    simp only [List.getElem?_map]
    by_cases hs : s < n
    · simp only [(hfin s hs).1, List.getElem?_range hs, Option.map_some, slotRun,
        IngestWorker.runWorker_eq_steps]
    · have hlen : (runSchedule clock (IngestWorker.initAll limit n events) ⟨some t₀⟩
          sched).1.length = n := by
        rw [hl]
        simp [IngestWorker.initAll]
      rw [List.getElem?_eq_none (by omega), List.getElem?_eq_none (by simp; omega)]
      rfl
  rw [hmap, List.foldl_map]

/-! ## Lines read -/

theorem trimBlanks_eq_nil_iff (cs : List Char) :
    trimBlanks cs = [] ↔ ∀ c ∈ cs, isBlank c = true := by
  -- what dropping leading blanks leaves is empty as soon as it is all blank
  have hdrop : ∀ l : List Char,
      (∀ c ∈ l.dropWhile isBlank, isBlank c = true) ↔ l.dropWhile isBlank = [] := by
    intro l
    refine ⟨fun h => ?_, fun h => by simp [h]⟩
    by_contra hne
    have hhead := List.head_dropWhile_not isBlank hne
    rw [h _ (List.head_mem hne)] at hhead
    cases hhead
  show List.dropWhile isBlank (List.dropWhile isBlank cs.reverse).reverse = [] ↔ _
  rw [List.dropWhile_eq_nil_iff]
  simp only [List.mem_reverse]
  rw [hdrop, List.dropWhile_eq_nil_iff]
  simp only [List.mem_reverse]

theorem RecordEvent.ofLine_eq_ok_none_iff (line : String) :
    RecordEvent.ofLine line = .ok none ↔ ∀ c ∈ line.toList, isBlank c = true := by
  have hempty : (trimLine line).isEmpty = true ↔ ∀ c ∈ line.toList, isBlank c = true := by
    rw [String.isEmpty_iff, trimLine, String.ofList_eq_empty_iff, trimBlanks_eq_nil_iff]
  rw [← hempty, RecordEvent.ofLine]
  dsimp only
  split
  · rename_i h
    exact ⟨fun _ => h, fun _ => rfl⟩
  · rename_i h
    refine ⟨fun h' => ?_, fun h' => absurd h' h⟩
    split at h' <;> cases h'

/-- Every line read is an event, a blank line or a malformed line. -/
theorem length_eq_collectEvents (lines : List String) :
    lines.length = (collectEvents lines).1.length + (collectEvents lines).2 +
      lines.countP fun l => l.toList.all isBlank := by
  induction lines with
  | nil => rfl
  | cons l ls ih =>
    have hb : l.toList.all isBlank = true ↔ RecordEvent.ofLine l = .ok none := by
      rw [List.all_eq_true, RecordEvent.ofLine_eq_ok_none_iff]
    simp only [collectEvents, List.countP_cons, List.length_cons]
    generalize collectEvents ls = c at ih ⊢
    obtain ⟨evs, bad⟩ := c
    cases h : RecordEvent.ofLine l with
    | ok found =>
      cases found with
      | none =>
        simp only [hb.2 h, if_true] at ih ⊢
        omega
      | some ev =>
        have hnb : ¬ l.toList.all isBlank = true := fun hl => by
          rw [hb.1 hl] at h
          cases h
        simp only [hnb, Bool.false_eq_true, if_false, List.length_cons] at ih ⊢
        omega
    | error e =>
      have hnb : ¬ l.toList.all isBlank = true := fun hl => by
        rw [hb.1 hl] at h
        cases h
      simp only [hnb, Bool.false_eq_true, if_false] at ih ⊢
      omega

theorem runIngest_by_workers (p : IngestPlan) (db : Database) (input : List UInt8) :
    (runIngest p db input).db = (runWorkers p.limit p.clock p.workerCount
        (collectEvents (p.read input).1).1 db).2 ∧
      ∀ summary, (runIngest p db input).outcome = .ok summary →
        summary.counts = (runWorkers p.limit p.clock p.workerCount
          (collectEvents (p.read input).1).1 db).1 ∧
        summary.lines = (p.read input).1.length ∧
        summary.malformed = (collectEvents (p.read input).1).2 := by
  unfold runIngest
  generalize p.read input = r
  obtain ⟨lines, fault⟩ := r
  dsimp only
  generalize collectEvents lines = c
  obtain ⟨events, bad⟩ := c
  dsimp only
  generalize runWorkers p.limit p.clock p.workerCount events db = w
  obtain ⟨counts, db'⟩ := w
  cases fault with
  | some f => exact ⟨rfl, fun _ h => by cases h⟩
  | none =>
    refine ⟨rfl, fun summary h => ?_⟩
    cases h
    exact ⟨rfl, rfl, rfl⟩

/-- An ingest leaves each slot's rows as its worker alone leaves them, whatever the order or
interleaving of the workers, and reports their summed counts and every line it read. -/
theorem ingest_matches_slot_runs (p : IngestPlan) (t₀ : Table) (input : List UInt8) :
    let lines := (p.read input).1
    let events := (collectEvents lines).1
    let n := p.workerCount
    let total := (List.range n).foldl
      (fun c s => c.merge (slotRun p.limit p.clock n events t₀ s).1) {}
    ∃ T, (runIngest p ⟨some t₀⟩ input).db = ⟨some T⟩ ∧
      (∀ s < n, (slotRun p.limit p.clock n events t₀ s).2 =
        ⟨some (T.restrict (RecordKey.inSlot n s))⟩) ∧
      (∀ order, order.Perm (List.range n) →
        ∃ T', (feedSlots p.limit p.clock n events order ⟨some t₀⟩).2 = ⟨some T'⟩ ∧ T'.Perm T ∧
          (feedSlots p.limit p.clock n events order ⟨some t₀⟩).1 = total) ∧
      (∀ sched, (∀ w ∈ (runSchedule p.clock (IngestWorker.initAll p.limit n events) ⟨some t₀⟩
          sched).1, w.done = true) →
        ∃ T', (runSchedule p.clock (IngestWorker.initAll p.limit n events) ⟨some t₀⟩
            sched).2 = ⟨some T'⟩ ∧ T'.Perm T ∧
          ((runSchedule p.clock (IngestWorker.initAll p.limit n events) ⟨some t₀⟩ sched).1.map
            (·.counts)).foldl OutcomeCounts.merge {} = total) ∧
      (∀ summary, (runIngest p ⟨some t₀⟩ input).outcome = .ok summary →
        summary.counts = total ∧
        summary.lines = events.length + (collectEvents lines).2 +
          lines.countP fun l => l.toList.all isBlank) := by
  intro lines events n total
  obtain ⟨hdb, hsum⟩ := runIngest_by_workers p ⟨some t₀⟩ input
  obtain ⟨T, hT, hslots, hcounts⟩ :=
    feedSlots_of_perm p.limit p.clock n events t₀ (List.Perm.refl (List.range n))
  rw [← runWorkers_eq_feedSlots] at hT hcounts
  -- a table whose slots hold the lone runs' rows holds the ingest's rows
  have hperm : ∀ T' : Table, (∀ s < n, (slotRun p.limit p.clock n events t₀ s).2 =
      ⟨some (T'.restrict (RecordKey.inSlot n s))⟩) → T'.Perm T := fun T' h' =>
    Table.perm_of_slots p.workerCount_pos fun s hs => by
      have := (h' s hs).symm.trans (hslots s hs)
      simpa using this
  refine ⟨T, hdb.trans hT, hslots, fun order hord => ?_, fun sched hdone => ?_,
    fun summary hs => ?_⟩
  · obtain ⟨T', hT', hs', hc'⟩ := feedSlots_of_perm p.limit p.clock n events t₀ hord
    exact ⟨T', hT', hperm T' hs', hc'⟩
  · obtain ⟨T', hT', hs', hc'⟩ := runSchedule_complete p.limit p.clock n events t₀ sched hdone
    exact ⟨T', hT', hperm T' hs', hc'⟩
  · obtain ⟨hc, hl, -⟩ := hsum summary hs
    exact ⟨hc.trans hcounts, hl.trans (length_eq_collectEvents lines)⟩

/-- Two workers over an empty table: the rows the ingest leaves are, slot by slot, those each
worker leaves alone. -/
theorem ingest_by_slots_of_two_workers :
    let plan : IngestPlan := ⟨2, 2, 100, fun _ _ => ⟨1717228800, 0⟩, false, .closed⟩
    let input := ("\x7b\"namespace\":\"libA\",\"id\":\"rec1\",\"changed_at\":" ++
      "\"2024-06-01T00:00:00Z\"\x7d\n").toUTF8.toList
    ∃ T, (runIngest plan ⟨some []⟩ input).db = ⟨some T⟩ ∧
      ∀ s < plan.workerCount, (slotRun plan.limit plan.clock plan.workerCount
        (collectEvents (plan.read input).1).1 [] s).2 =
          ⟨some (T.restrict (RecordKey.inSlot plan.workerCount s))⟩ := by
  intro plan input
  obtain ⟨T, hdb, hslots, -⟩ := ingest_matches_slot_runs plan [] input
  exact ⟨T, hdb, hslots⟩

end ChangeLedger
