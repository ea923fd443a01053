import ChangeLedger.Proofs.Restoring
/-! # First-indexed times are written once

A row's first-indexed time is set when the row is created. An insert of a key that already has a
row leaves it alone (`ON CONFLICT` does not name it), a deletion mark does not touch it, and an
update writes back the first-seen time its tracker found: that of the tracker's own queued update
of the key, or the one read from the committed row. So updates keep it as long as every update of
the key that any tracker has queued carries the committed cell (`Batcher.FirstFits`), and that
cell is the stored text of an instant that reads back (`Cell.StoresInstant`), so that reading it
and writing it again gives the same cell.

Every step of any number of trackers keeps this, together with deletion marks and clock readings
that read back (`Session.FirstSettled.run`). So a key that starts without a row, or with a row in
that form, keeps its first-indexed cell from the moment it has a row (`first_indexed_set_once`).

A row whose first-indexed cell is null, as another tool may leave it, is different: a tracker that
finds it null writes its own clock reading, and when two trackers both read it null before either
commits, the later commit overwrites the value the earlier one set
(`first_indexed_rewritten_after_null_race`).
-/
namespace ChangeLedger

def Cell.StoresInstant (c : Cell) : Prop := ∃ i : Instant, i.ReadsBack ∧ c = i.cell

namespace Table

variable {k : RecordKey}

def firstIndexedOf (t : Table) (k : RecordKey) : Option Cell := (t.find? k).map (·.firstIndexed)

/-- The first-indexed cell of `k`'s row, if any, holds an instant that reads back. -/
def FirstStored (k : RecordKey) (t : Table) : Prop :=
  ∀ c, t.firstIndexedOf k = some c → c.StoresInstant

/-- Once `k` has a row in `t`, it has one in `t'` with the same first-indexed cell. -/
def FirstKept (k : RecordKey) (t t' : Table) : Prop :=
  ∀ c, t.firstIndexedOf k = some c → t'.firstIndexedOf k = some c

theorem FirstKept.refl (t : Table) : FirstKept k t t := fun _ h => h

theorem FirstKept.trans {t₁ t₂ t₃ : Table} (h₁ : FirstKept k t₁ t₂) (h₂ : FirstKept k t₂ t₃) :
    FirstKept k t₁ t₃ := fun c h => h₂ c (h₁ c h)

theorem firstIndexedOf_eq_none_iff {t : Table} : t.firstIndexedOf k = none ↔ k ∉ t.keys := by
  rw [firstIndexedOf, Option.map_eq_none_iff, find?_eq_none_iff]

theorem firstIndexedOf_upsert (t : Table) (w : RowWrite) (k : RecordKey) :
    (t.upsert w).firstIndexedOf k =
      (t.firstIndexedOf k).or (if w.key = k then some w.firstSeen.cell else none) := by
  cases hf : t.find? w.key with
  | none =>
    simp only [firstIndexedOf, upsert_of_find?_eq_none hf, find?_append_row, Option.map_or,
      RowWrite.toRow_key]
    by_cases hk : w.key = k <;> simp [hk, RowWrite.toRow]
  | some r =>
    simp only [firstIndexedOf, upsert_of_find?_eq_some hf,
      find?_modify t w.key k (·.merge w) fun _ => rfl]
    by_cases hk : k = w.key
    · subst hk
      simp [hf, Row.merge]
    · simp [hk, Ne.symm hk]

theorem firstIndexedOf_rewrite (t : Table) {w : RowWrite}
    (hw : w.key = k → ∀ c, t.firstIndexedOf k = some c → w.firstSeen.cell = c) :
    (t.rewrite w).firstIndexedOf k = t.firstIndexedOf k := by
  simp only [firstIndexedOf, find?_rewrite]
  split
  · rename_i hk
    cases hf : t.find? k with
    | none => rfl
    | some r =>
      have hc := hw hk.symm r.firstIndexed (by simp [firstIndexedOf, hf])
      simp [Row.overwrite, hc]
  · rfl

theorem firstIndexedOf_markDeleted (t : Table) (key : RecordKey) (at_ : Instant) :
    (t.markDeleted key at_).firstIndexedOf k = t.firstIndexedOf k := by
  simp only [firstIndexedOf, find?_markDeleted]
  split
  · rename_i hk
    subst hk
    simp [Option.map_map, Function.comp_def, Row.mark]
  · rfl

theorem firstIndexedOf_upsertAll_of_some {t : Table} {c : Cell} (h : t.firstIndexedOf k = some c)
    (ws : List RowWrite) : (t.upsertAll ws).firstIndexedOf k = some c := by
  induction ws generalizing t with
  | nil => exact h
  | cons w ws ih => exact ih (by rw [firstIndexedOf_upsert, h, Option.some_or])

theorem firstKept_upsertAll (t : Table) (ws : List RowWrite) : FirstKept k t (t.upsertAll ws) :=
  fun _ h => firstIndexedOf_upsertAll_of_some h ws

theorem FirstStored.upsertAll {t : Table} (h : t.FirstStored k) {ws : List RowWrite}
    (hw : ∀ w ∈ ws, w.firstSeen.ReadsBack) : (t.upsertAll ws).FirstStored k := by
  induction ws generalizing t with
  | nil => exact h
  | cons w ws ih =>
    refine ih (fun c hc => ?_) fun v hv => hw v (List.mem_cons_of_mem _ hv)
    rw [firstIndexedOf_upsert, Option.or_eq_some_iff] at hc
    rcases hc with hc | ⟨-, hc⟩
    · exact h c hc
    · split at hc
      · cases hc
        exact ⟨w.firstSeen, hw w List.mem_cons_self, rfl⟩
      · cases hc

theorem firstIndexedOf_rewriteAll {t : Table} {us : List RowWrite}
    (hu : ∀ u ∈ us, u.key = k → ∀ c, t.firstIndexedOf k = some c → u.firstSeen.cell = c) :
    (t.rewriteAll us).firstIndexedOf k = t.firstIndexedOf k := by
  induction us generalizing t with
  | nil => rfl
  | cons u us ih =>
    have h₁ := firstIndexedOf_rewrite t (hu u List.mem_cons_self)
    rw [rewriteAll_cons, ih fun v hv hk c hc => hu v (List.mem_cons_of_mem _ hv) hk c (h₁ ▸ hc), h₁]

end Table

/-! ## Queues that keep the first-indexed cell -/

namespace Batcher

variable {k : RecordKey}

/-- A tracker's queues keep `k`'s first-indexed cell: queued inserts' first-seen times read
back, and queued updates of `k` carry the committed cell. -/
structure FirstFits (k : RecordKey) (q : Batcher) (t : Table) : Prop where
  inserts : ∀ w ∈ q.inserts.items, w.firstSeen.ReadsBack
  updates : ∀ u ∈ q.updates.items, u.key = k → ∀ c, t.firstIndexedOf k = some c →
    u.firstSeen.cell = c

theorem FirstFits.empty (limit : Nat) (t : Table) : (empty limit).FirstFits k t :=
  ⟨by simp [Batcher.empty, Batch.empty], by simp [Batcher.empty, Batch.empty]⟩

theorem FirstFits.transfer {q : Batcher} {t t' : Table} (h : q.FirstFits k t) (hc : q.Coherent t)
    (hk : Table.FirstKept k t t') : q.FirstFits k t' := by
  refine ⟨h.inserts, fun u hu huk c hc' => ?_⟩
  cases h₀ : t.firstIndexedOf k with
  | none =>
    have hmem : k ∈ q.updateKeys := huk ▸ List.mem_map_of_mem hu
    exact absurd (hc.updates_committed k hmem) (Table.firstIndexedOf_eq_none_iff.1 h₀)
  | some c₀ =>
    rw [hk c₀ h₀, Option.some.injEq] at hc'
    subst hc'
    exact h.updates u hu huk c₀ h₀

theorem FirstFits.flushTo {q : Batcher} {t : Table} (h : q.FirstFits k t) (hc : q.Coherent t)
    (hs : t.FirstStored k) (kind : BatchKind) (force : Bool) :
    Table.FirstKept k t (q.flushTo t kind force).2 ∧ (q.flushTo t kind force).2.FirstStored k ∧
      (q.flushTo t kind force).1.FirstFits k (q.flushTo t kind force).2 := by
  cases hd : q.isDue kind force
  · rw [flushTo_of_not_due hd]
    exact ⟨.refl t, hs, h⟩
  · rw [flushTo_of_due hd]
    cases kind with
    | insert =>
      simp only [take_insert, Table.commit]
      have hk := Table.firstKept_upsertAll (k := k) t q.inserts.items
      exact ⟨hk, hs.upsertAll h.inserts, by simp, (h.transfer hc hk).updates⟩
    | update =>
      simp only [take_update, Table.commit]
      have he := Table.firstIndexedOf_rewriteAll (t := t) h.updates
      exact ⟨fun c hc' => he ▸ hc', fun c hc' => hs c (he ▸ hc'), h.inserts, by simp⟩

theorem FirstFits.enqueue_insert {q : Batcher} {t : Table} (h : q.FirstFits k t) {w : RowWrite}
    (hw : w.firstSeen.ReadsBack) : (q.enqueue .insert w).1.FirstFits k t := by
  refine ⟨fun v hv => ?_, h.updates⟩
  simp only [enqueue_insert_fst, Batch.items_push, List.mem_append, List.mem_singleton] at hv
  rcases hv with hv | rfl
  · exact h.inserts v hv
  · exact hw

theorem FirstFits.enqueue_update {q : Batcher} {t : Table} (h : q.FirstFits k t) {w : RowWrite}
    (hw : w.key = k → ∀ c, t.firstIndexedOf k = some c → w.firstSeen.cell = c) :
    (q.enqueue .update w).1.FirstFits k t := by
  refine ⟨h.inserts, fun u hu => ?_⟩
  simp only [enqueue_update_fst, Batch.items_push, List.mem_append, List.mem_singleton] at hu
  rcases hu with hu | rfl
  · exact h.updates u hu
  · exact hw

theorem FirstFits.fold {q : Batcher} {t : Table} (h : q.FirstFits k t) {w : RowWrite}
    (hw : w.firstSeen.ReadsBack) :
    FirstFits k { q with inserts := { q.inserts with
      items := q.inserts.items.map fun a => if a.key = w.key then w else a } } t := by
  refine ⟨fun v hv => ?_, h.updates⟩
  obtain ⟨a, ha, rfl⟩ := List.mem_map.1 hv
  split
  · exact hw
  · exact h.inserts a ha

end Batcher

/-! ## A store that keeps the first-indexed cell -/

namespace Store

variable {k : RecordKey}

/-- The first-seen time a lookup reports: a queued insert's, or the committed cell's. -/
theorem lookup_firstSeen {s : Store} {t : Table} (hc : s.queues.Coherent t)
    (hf : s.queues.FirstFits k t) (hs : t.FirstStored k) {key : RecordKey} {tm : RecordTimes}
    (hl : s.lookup ⟨some t⟩ key = .ok (some tm)) :
    (key ∈ s.queues.insertKeys → ∃ i, tm.firstSeen = some i ∧ i.ReadsBack) ∧
    (key = k → key ∉ s.queues.insertKeys → ∀ c, t.firstIndexedOf k = some c →
      ∃ i, tm.firstSeen = some i ∧ i.cell = c) := by
  cases hu : s.queues.updates.findLast? (·.key == key) with
  | some u =>
    -- the newest queued update answers, with its own first-seen time
    obtain ⟨huk, hum⟩ := Batch.findLast?_eq_some hu
    have huk' : u.key = key := by simpa using huk
    have hk : key ∈ s.queues.updateKeys := huk' ▸ List.mem_map_of_mem hum
    obtain ⟨d, -, rfl⟩ := lookup_eq_some_of_pending_update _ hu hl
    refine ⟨fun hi => absurd hk (hc.disjoint key hi), fun hkey _ c hc' => ?_⟩
    exact ⟨u.firstSeen, rfl, hf.updates u hum (huk'.trans hkey) c hc'⟩
  | none =>
    cases hi : s.queues.inserts.findLast? (·.key == key) with
    | some w =>
      -- the newest queued insert answers
      obtain ⟨hwk, hwm⟩ := Batch.findLast?_eq_some hi
      rw [lookup_of_pending_insert _ hu hi, Except.ok.injEq, Option.some.injEq] at hl
      subst hl
      have hk : key ∈ s.queues.insertKeys := by
        rw [← beq_iff_eq.1 hwk]
        exact List.mem_map_of_mem hwm
      exact ⟨fun _ => ⟨w.firstSeen, rfl, hf.inserts w hwm⟩, fun _ hni => absurd hk hni⟩
    | none =>
      -- the committed row answers, reading its first-indexed cell
      have hni : key ∉ s.queues.insertKeys := Batcher.findLast?_inserts_eq_none_iff.1 hi
      obtain ⟨r, hfind, hr⟩ := Database.times?_eq_ok_some (times?_of_lookup_not_pending _ hu hi hl)
      refine ⟨fun hk => absurd hk hni, fun hkey _ c hc' => ?_⟩
      subst hkey
      have hrc : r.firstIndexed = c := by
        simpa [Table.firstIndexedOf, hfind] using hc'
      obtain ⟨i, hirb, hic⟩ := hs c hc'
      have hread := (Row.times_eq_ok hr).1
      rw [hrc, hic, Instant.cell_toInstant? hirb, Except.ok.injEq] at hread
      exact ⟨i, hread.symm, hic.symm⟩

/-- The store and database keep `k`'s first-indexed cell from table `t` on. -/
def FirstOver (k : RecordKey) (t : Table) (sd : Store × Database) : Prop :=
  ∃ t', sd.2 = ⟨some t'⟩ ∧ t.KeptIn t' ∧ Table.FirstKept k t t' ∧ t'.FirstStored k ∧
    sd.1.queues.Coherent t' ∧ sd.1.queues.FirstFits k t'

theorem firstOver_self {s : Store} {t : Table} (hs : t.FirstStored k)
    (hc : s.queues.Coherent t) (hf : s.queues.FirstFits k t) : FirstOver k t (s, ⟨some t⟩) :=
  ⟨t, rfl, .refl t, .refl t, hs, hc, hf⟩

theorem firstOver_insertTo {s : Store} {t t₀ : Table} (h : FirstOver k t₀ (s, ⟨some t⟩))
    {key : RecordKey} {now : Instant} (hnow : now.ReadsBack)
    (hl : s.lookup ⟨some t⟩ key = .ok none) (changedAt : Instant) (p : Connection) :
    let w : RowWrite := ⟨key, now, now, changedAt⟩
    FirstOver k t₀ ({ s with queues := (s.queues.insertTo t w).1, conn := p },
      ⟨some (s.queues.insertTo t w).2⟩) := by
  intro w
  obtain ⟨t', ht, hk, hkf, hs, hc, hf⟩ := h
  cases ht
  obtain ⟨hu, hi, -⟩ := lookup_eq_ok_none hl
  have hw : w.firstSeen.ReadsBack := hnow
  obtain ⟨hkf', hs', hf'⟩ :=
    (hf.enqueue_insert hw).flushTo (hc.enqueue_insert hi hu) hs .insert false
  exact ⟨_, rfl, hk.trans (Batcher.keptIn_insertTo _ t w), hkf.trans hkf', hs',
    hc.insertTo hi hu, hf'⟩

theorem firstOver_updateTo {s : Store} {t t₀ : Table} {tm : RecordTimes} {key : RecordKey}
    (h : FirstOver k t₀ (s, ⟨some t⟩)) (hl : s.lookup ⟨some t⟩ key = .ok (some tm))
    (now changedAt : Instant) (p : Connection) :
    let w : RowWrite := ⟨key, tm.firstSeen.getD now, now, changedAt⟩
    FirstOver k t₀ ({ s with queues := (s.queues.updateTo t w).1, conn := p },
      ⟨some (s.queues.updateTo t w).2⟩) := by
  intro w
  obtain ⟨t', ht, hk, hkf, hs, hc, hf⟩ := h
  cases ht
  -- a queued update of the key stands for a committed row
  have hwk : w.key ∈ s.queues.insertKeys ∨ w.key ∈ t.keys := by
    rcases lookup_eq_ok_some hl with hu | hi | ht
    · exact Or.inr (hc.updates_committed _ hu)
    · exact Or.inl hi
    · exact Or.inr ht
  obtain ⟨hins, hfit⟩ := lookup_firstSeen hc hf hs hl
  have hc' := hc.updateTo hwk
  have hk' := Batcher.keptIn_updateTo s.queues t w
  rcases Batcher.updateTo_cases (t := t) w hc.inserts_nodup with ⟨hmem, he⟩ | ⟨hni, he⟩
  · obtain ⟨i, hi, hirb⟩ := hins hmem
    have hw : w.firstSeen.ReadsBack := by
      simp only [w, hi, Option.getD_some]
      exact hirb
    rw [he] at hc' hk' ⊢
    exact ⟨t, rfl, hk.trans hk', hkf, hs, hc', hf.fold hw⟩
  · have hfw : w.key = k → ∀ c, t.firstIndexedOf k = some c → w.firstSeen.cell = c :=
      fun hkey c hc'' => by
        obtain ⟨i, hi, hic⟩ := hfit hkey hni c hc''
        simp only [w, hi, Option.getD_some]
        exact hic
    rw [he] at hc' hk' ⊢
    obtain ⟨hkf', hs', hf'⟩ := (hf.enqueue_update hfw).flushTo
      (hc.enqueue_update hni (hwk.resolve_left hni)) hs .update false
    exact ⟨_, rfl, hk.trans hk', hkf.trans hkf', hs', hc', hf'⟩

/-- A tracker's writes at a clock reading that reads back keep `k`'s first-indexed cell. -/
theorem records_keepsAt_first (t₀ : Table) {now : Instant} (hnow : now.ReadsBack) :
    records.KeepsAt (FirstOver k t₀) now where
  looked k h := records_looked_of (fun _ _ _ h => h) h k
  insert := by
    rintro ⟨s, db⟩ key changedAt h hl
    obtain ⟨t, ht, -⟩ := id h
    cases ht
    obtain ⟨p, hp⟩ := records_insert s t ⟨key, now, now, changedAt⟩
    rw [hp]
    exact firstOver_insertTo h hnow hl changedAt p
  update := by
    rintro ⟨s, db⟩ key changedAt tm h hl
    obtain ⟨t, ht, -⟩ := id h
    cases ht
    obtain ⟨p, hp⟩ := records_update s t ⟨key, tm.firstSeen.getD now, now, changedAt⟩
    rw [hp]
    exact firstOver_updateTo h hl now changedAt p

theorem firstOver_shutdown {s : Store} {t : Table} (hs : t.FirstStored k)
    (hc : s.queues.Coherent t) (hf : s.queues.FirstFits k t) :
    FirstOver k t ((s.shutdown ⟨some t⟩).1, (s.shutdown ⟨some t⟩).2) := by
  cases hcl : s.closed
  · obtain ⟨hq, hdb⟩ := shutdown_of_table hcl t
    obtain ⟨hk₁, hs₁, hf₁⟩ := hf.flushTo hc hs .insert true
    obtain ⟨hk₂, hs₂, hf₂⟩ := hf₁.flushTo (hc.flushTo .insert true) hs₁ .update true
    refine ⟨_, hdb, (Batcher.keptIn_flushTo _ t .insert true).trans
      (Batcher.keptIn_flushTo _ _ .update true), hk₁.trans hk₂, hs₂, ?_, ?_⟩
    · rw [hq]
      exact (hc.flushTo .insert true).flushTo .update true
    · rw [hq]
      exact hf₂
  · simp only [shutdown, hcl, if_true]
    exact firstOver_self hs hc hf

end Store

/-! ## Marks and the inspection tool -/

theorem Table.FirstStored.markDeleted {k : RecordKey} {t : Table} (h : t.FirstStored k)
    (key : RecordKey) (at_ : Instant) : (t.markDeleted key at_).FirstStored k := fun c hc =>
  h c (by rwa [Table.firstIndexedOf_markDeleted] at hc)

theorem Table.firstKept_markDeleted {k : RecordKey} (t : Table) (key : RecordKey) (at_ : Instant) :
    Table.FirstKept k t (t.markDeleted key at_) := fun c hc => by
  rwa [Table.firstIndexedOf_markDeleted]

/-- The inspection tool leaves an existing table as it was, or marks one key deleted. -/
theorem runInspect_table (env : List (String × String)) (words : List String) (t : Table)
    (now : Instant) :
    (runInspect env words ⟨some t⟩ now).2 = ⟨some t⟩ ∨
      ∃ key at_, (runInspect env words ⟨some t⟩ now).2 = ⟨some (t.markDeleted key at_)⟩ := by
  unfold runInspect
  split
  · exact .inl rfl
  · rename_i req _
    unfold InspectRequest.run
    simp only [Database.createTable]
    split
    · split <;> exact .inl rfl
    · split <;> exact .inl rfl
    · split <;> exact .inl rfl
    · rename_i key at_ _
      rw [Database.markDeleted_of_table]
      cases decide (key ∈ t.keys) <;> exact .inr ⟨key, at_.getD now, rfl⟩
    · split <;> exact .inl rfl

/-! ## Sessions of trackers -/

/-- A step of trackers and deletion marks only; bare stores and seeding are left out. -/
def SessionStep.OfTrackers : SessionStep → Prop
  | .setClock at_ => at_.ReadsBack
  | .track _ _ _ | .shutdown _ | .drop _ | .reopen _ => True
  | .markDeleted _ _ | .inspect _ _ | .createTable => True
  | .storeInsert _ _ | .storeUpdate _ _ | .storeFlush _ _ _ | .storeShutdown _ | .storeDrop _
  | .storeReopen _ | .seed _ => False

namespace Session

variable {k : RecordKey}

theorem runAll_append (s : Session) (pre post : List SessionStep) :
    s.runAll (pre ++ post) = (s.runAll pre).runAll post := List.foldl_append

/-- The session is coherent over `t`, its clock reads back, and every tracker's queues keep
`k`'s first-indexed cell. -/
structure FirstSettled (k : RecordKey) (s : Session) (t : Table) : Prop where
  coherent : s.Coherent t
  clock : s.clock.ReadsBack
  stored : t.FirstStored k
  fits : ∀ tr, some tr ∈ s.trackers → tr.store.queues.FirstFits k t

theorem firstSettled_start {nt ns limit : Nat} {clock : Instant} {seeds : List RawRow}
    {s : Session} (h : start nt ns limit clock seeds = .ok s) (hclock : clock.ReadsBack)
    (hk : ∀ t, s.db = ⟨some t⟩ → t.FirstStored k) : ∃ t, s.FirstSettled k t := by
  obtain ⟨t, hc⟩ := coherent_start h
  unfold start at h
  simp only [bind, Except.bind, pure, Except.pure] at h
  split at h
  · cases h
  · cases h
    refine ⟨t, hc, hclock, hk t hc.db, fun tr hm => ?_⟩
    obtain ⟨-, he⟩ := List.mem_replicate.1 hm
    cases he
    exact Batcher.FirstFits.empty limit t

namespace FirstSettled

variable {s : Session} {t : Table}

theorem next (h : s.FirstSettled k t) {s' : Session} {t' : Table} (hdb : s'.db = ⟨some t'⟩)
    (hk : t.KeptIn t') (hkf : Table.FirstKept k t t') (hs : t'.FirstStored k)
    (hclock : s'.clock.ReadsBack)
    (htr : ∀ tr, some tr ∈ s'.trackers → some tr ∈ s.trackers ∨
      (tr.store.queues.Coherent t' ∧ tr.store.queues.FirstFits k t')) :
    s'.FirstSettled k t' := by
  refine ⟨h.coherent.next hdb hk fun tr hm => (htr tr hm).imp_right And.left, hclock, hs,
    fun tr hm => ?_⟩
  rcases htr tr hm with hold | ⟨-, hnew⟩
  · exact (h.fits tr hold).transfer (h.coherent.trackers tr hold) hkf
  · exact hnew

theorem of_set (h : s.FirstSettled k t) {s' : Session} {i : Nat} {x : Option Tracker}
    (htr : s'.trackers = s.trackers.set i x) {t' : Table} (hdb : s'.db = ⟨some t'⟩)
    (hk : t.KeptIn t') (hkf : Table.FirstKept k t t') (hs : t'.FirstStored k)
    (hclock : s'.clock.ReadsBack)
    (hx : ∀ tr, some tr = x → tr.store.queues.Coherent t' ∧ tr.store.queues.FirstFits k t') :
    s'.FirstSettled k t' :=
  h.next hdb hk hkf hs hclock fun tr hm => by
    rw [htr] at hm
    rcases List.mem_or_eq_of_mem_set hm with hold | hnew
    · exact .inl hold
    · exact .inr (hx tr hnew)

theorem of_db (h : s.FirstSettled k t) {s' : Session} (htr : s'.trackers = s.trackers)
    (hclock : s'.clock.ReadsBack) {t' : Table} (hdb : s'.db = ⟨some t'⟩) (hk : t.KeptIn t')
    (hkf : Table.FirstKept k t t') (hs : t'.FirstStored k) :
    ∃ t', s'.FirstSettled k t' ∧ Table.FirstKept k t t' :=
  ⟨t', h.next hdb hk hkf hs hclock fun _ hm => .inl (htr ▸ hm), hkf⟩

theorem onTracker (h : s.FirstSettled k t) {α : Type} (i : Nat)
    (f : Tracker → Database → α × Tracker × Database)
    (hf : ∀ tr, tr.store.queues.Coherent t → tr.store.queues.FirstFits k t →
      Store.FirstOver k t ((f tr ⟨some t⟩).2.1.store, (f tr ⟨some t⟩).2.2)) :
    ∃ t', (s.onTracker i f).2.FirstSettled k t' ∧ Table.FirstKept k t t' := by
  unfold Session.onTracker
  cases hi : s.tracker i with
  | error e => exact ⟨t, h, .refl t⟩
  | ok tr =>
    have hm := mem_of_tracker hi
    obtain ⟨t', hdb, hk, hkf, hs, hc, hfit⟩ := hf tr (h.coherent.trackers tr hm) (h.fits tr hm)
    dsimp only
    rw [h.coherent.db]
    generalize f tr ⟨some t⟩ = r at hdb hc hfit
    obtain ⟨a, tr', db'⟩ := r
    exact ⟨t', h.of_set rfl hdb hk hkf hs h.clock fun _ he => Option.some.inj he ▸ ⟨hc, hfit⟩,
      hkf⟩

theorem dropped (h : s.FirstSettled k t) {i : Nat} {tr : Tracker}
    (hslot : s.trackers[i]? = some (some tr)) :
    ∃ t', tr.store.drop s.db = ⟨some t'⟩ ∧ t.KeptIn t' ∧ Table.FirstKept k t t' ∧
      t'.FirstStored k := by
  have hm : some tr ∈ s.trackers := List.mem_of_getElem? hslot
  obtain ⟨t', hdb, hk, hkf, hs, -, -⟩ :=
    Store.firstOver_shutdown h.stored (h.coherent.trackers tr hm) (h.fits tr hm)
  exact ⟨t', by rw [h.coherent.db]; exact hdb, hk, hkf, hs⟩

theorem dropTracker (h : s.FirstSettled k t) (i : Nat) :
    ∃ t', (s.dropTracker i).2.FirstSettled k t' ∧ Table.FirstKept k t t' := by
  unfold Session.dropTracker
  cases hslot : s.trackers[i]? with
  | none => exact ⟨t, h, .refl t⟩
  | some old =>
    cases old with
    | none =>
      refine ⟨t, h.of_set rfl ?_ (.refl t) (.refl t) h.stored h.clock (fun _ he => by cases he),
        .refl t⟩
      exact h.coherent.db
    | some tr =>
      obtain ⟨t', hdb, hk, hkf, hs⟩ := h.dropped hslot
      exact ⟨t', h.of_set rfl hdb hk hkf hs h.clock (fun _ he => by cases he), hkf⟩

theorem reopenTracker (h : s.FirstSettled k t) (i : Nat) :
    ∃ t', (s.reopenTracker i).2.FirstSettled k t' ∧ Table.FirstKept k t t' := by
  unfold Session.reopenTracker
  have hfresh : ∀ t' (c : Connection) tr,
      some tr = some ({ store := { Store.fresh s.limit with conn := c } } : Tracker) →
      tr.store.queues.Coherent t' ∧ tr.store.queues.FirstFits k t' := fun t' _ _ he => by
    cases he
    exact ⟨Batcher.Coherent.empty s.limit t', Batcher.FirstFits.empty s.limit t'⟩
  cases hslot : s.trackers[i]? with
  | none => exact ⟨t, h, .refl t⟩
  | some old =>
    cases old with
    | none =>
      refine ⟨t, h.of_set rfl ?_ (.refl t) (.refl t) h.stored h.clock (hfresh t _), .refl t⟩
      exact h.coherent.db
    | some tr =>
      obtain ⟨t', hdb, hk, hkf, hs⟩ := h.dropped hslot
      exact ⟨t', h.of_set rfl hdb hk hkf hs h.clock (hfresh t' _), hkf⟩

/-- Every step of trackers and marks keeps the session settled and `k`'s first-indexed cell. -/
theorem run (h : s.FirstSettled k t) {st : SessionStep} (hst : st.OfTrackers) :
    ∃ t', (st.run s).FirstSettled k t' ∧ Table.FirstKept k t t' := by
  cases st with
  | setClock at_ => exact h.of_db rfl hst h.coherent.db (.refl t) (.refl t) h.stored
  | track i key changedAt =>
    exact h.onTracker i _ fun tr hc hf =>
      Tracker.track_keepsAt (Store.records_keepsAt_first t h.clock) tr
        (Store.firstOver_self h.stored hc hf) key changedAt
  | shutdown i => exact h.onTracker i _ fun _ hc hf => Store.firstOver_shutdown h.stored hc hf
  | drop i => exact h.dropTracker i
  | reopen i => exact h.reopenTracker i
  | markDeleted key at_ =>
    simp only [SessionStep.run, h.coherent.db, Database.markDeleted_of_table]
    exact h.of_db rfl h.clock rfl (t.keptIn_markDeleted key at_)
      (Table.firstKept_markDeleted t key at_) (h.stored.markDeleted key at_)
  | inspect env words =>
    show ∃ t', FirstSettled k { s with db := (runInspect env words s.db s.clock).2 } t' ∧ _
    rw [h.coherent.db]
    rcases runInspect_table env words t s.clock with he | ⟨key, at_, he⟩
    · exact h.of_db rfl h.clock he (.refl t) (.refl t) h.stored
    · exact h.of_db rfl h.clock he (t.keptIn_markDeleted key at_)
        (Table.firstKept_markDeleted t key at_) (h.stored.markDeleted key at_)
  | createTable =>
    show ∃ t', FirstSettled k { s with db := s.db.createTable } t' ∧ _
    rw [h.coherent.db]
    exact h.of_db rfl h.clock rfl (.refl t) (.refl t) h.stored
  | storeInsert _ _ | storeUpdate _ _ | storeFlush _ _ _ | storeShutdown _ | storeDrop _
  | storeReopen _ | seed _ => exact hst.elim

theorem runAll (h : s.FirstSettled k t) {steps : List SessionStep}
    (hsteps : ∀ st ∈ steps, st.OfTrackers) :
    ∃ t', (s.runAll steps).FirstSettled k t' ∧ Table.FirstKept k t t' := by
  induction steps generalizing s t with
  | nil => exact ⟨t, h, .refl t⟩
  | cons st rest ih =>
    obtain ⟨t₁, h₁, hk₁⟩ := h.run (hsteps st List.mem_cons_self)
    obtain ⟨t₂, h₂, hk₂⟩ := ih h₁ fun st' hm => hsteps st' (List.mem_cons_of_mem _ hm)
    exact ⟨t₂, h₂, hk₁.trans hk₂⟩

end FirstSettled

end Session

/-- Over any run of trackers and marks with clocks that read back, a key's first-indexed cell,
once its row exists, is never null, never rewritten, and is what every queued update writes. -/
theorem first_indexed_set_once {nt ns limit : Nat} {clock : Instant} {seeds : List RawRow}
    {s₀ : Session} (h₀ : Session.start nt ns limit clock seeds = .ok s₀)
    (hclock : clock.ReadsBack) {k : RecordKey} (hk : ∀ t, s₀.db = ⟨some t⟩ → t.FirstStored k)
    {pre post : List SessionStep} (hsteps : ∀ st ∈ pre ++ post, st.OfTrackers) :
    ∃ t, (s₀.runAll pre).db = ⟨some t⟩ ∧ ∀ c, t.firstIndexedOf k = some c →
      c.StoresInstant ∧
      (∀ tr, some tr ∈ (s₀.runAll pre).trackers → ∀ u ∈ tr.store.queues.updates.items,
        u.key = k → u.firstSeen.cell = c) ∧
      ∃ t', (s₀.runAll (pre ++ post)).db = ⟨some t'⟩ ∧ t'.firstIndexedOf k = some c := by
  obtain ⟨t₀, h₀'⟩ := Session.firstSettled_start h₀ hclock hk
  obtain ⟨t, h, -⟩ := h₀'.runAll fun st hm => hsteps st (List.mem_append_left _ hm)
  obtain ⟨t', h', hkept⟩ := h.runAll fun st hm => hsteps st (List.mem_append_right _ hm)
  refine ⟨t, h.coherent.db, fun c hc => ⟨h.stored c hc, fun tr hm u hu huk => ?_, ?_⟩⟩
  · exact (h.fits tr hm).updates u hu huk c hc
  · rw [Session.runAll_append]
    exact ⟨t', h'.coherent.db, hkept c hc⟩

/-- One tracker creates a record and commits it; another, at a later clock reading, rewrites it
for a newer change: the row keeps the first tracker's reading as first indexed. -/
theorem first_indexed_kept_by_later_tracker :
    let k : RecordKey := ⟨"libA", "rec1"⟩
    let e₁ : Instant := ⟨1577836800, 0⟩
    let e₂ : Instant := ⟨1577923200, 0⟩
    let now : Instant := ⟨1717228800, 0⟩
    let later : Instant := ⟨1717315200, 0⟩
    let pre : List SessionStep := [.track 0 k e₁, .shutdown 0]
    let post : List SessionStep := [.setClock later, .track 1 k e₂, .shutdown 1]
    let s₀ : Session := ⟨{}, now, 100, [some (Tracker.fresh 100), some (Tracker.fresh 100)], [], []⟩
    Session.start 2 0 100 now [] = .ok s₀ ∧ now.ReadsBack ∧
      (∀ st ∈ pre ++ post, st.OfTrackers) ∧
      (s₀.runAll pre).db = ⟨some [⟨k, now.cell, now.cell, e₁.cell, .null⟩]⟩ ∧
      (s₀.runAll (pre ++ post)).db = ⟨some [⟨k, now.cell, later.cell, e₂.cell, .null⟩]⟩ ∧
      ∃ t, (s₀.runAll pre).db = ⟨some t⟩ ∧ ∀ c, t.firstIndexedOf k = some c →
        c.StoresInstant ∧
        (∀ tr, some tr ∈ (s₀.runAll pre).trackers → ∀ u ∈ tr.store.queues.updates.items,
          u.key = k → u.firstSeen.cell = c) ∧
        ∃ t', (s₀.runAll (pre ++ post)).db = ⟨some t'⟩ ∧ t'.firstIndexedOf k = some c := by
  intro k e₁ e₂ now later pre post s₀
  have h₀ : Session.start 2 0 100 now [] = .ok s₀ := rfl
  have hclock : now.ReadsBack := by cbv
  have hlater : later.ReadsBack := by cbv
  have hsteps : ∀ st ∈ pre ++ post, st.OfTrackers := by
    simp only [pre, post, List.cons_append, List.nil_append, List.mem_cons, List.not_mem_nil,
      or_false, forall_eq_or_imp, forall_eq]
    exact ⟨trivial, trivial, hlater, trivial, trivial⟩
  have hk : ∀ t, s₀.db = ⟨some t⟩ → t.FirstStored k := fun t ht c hc => by
    cases ht
    cases hc
  exact ⟨h₀, hclock, hsteps, by decide +kernel, by decide +kernel,
    first_indexed_set_once h₀ hclock hk hsteps⟩

/-- Two trackers that both find a null first-indexed cell each queue their own reading: the later
commit overwrites the first. -/
theorem first_indexed_rewritten_after_null_race :
    let k : RecordKey := ⟨"libA", "rec1"⟩
    let e : Instant := ⟨1577836800, 0⟩
    let now : Instant := ⟨1717228800, 0⟩
    let later : Instant := ⟨1717315200, 0⟩
    let pre : List SessionStep := [.track 0 k e, .setClock later, .track 1 k e, .shutdown 0]
    let s₀ : Session := ⟨⟨some [⟨k, .null, .null, .null, .null⟩]⟩, now, 100,
      [some (Tracker.fresh 100), some (Tracker.fresh 100)], [], []⟩
    Session.start 2 0 100 now [⟨.text "libA", .text "rec1", .null, .null, .null, .null⟩] =
        .ok s₀ ∧
      (∀ st ∈ pre ++ [.shutdown 1], st.OfTrackers) ∧
      (s₀.runAll pre).db = ⟨some [⟨k, now.cell, now.cell, e.cell, .null⟩]⟩ ∧
      (s₀.runAll (pre ++ [.shutdown 1])).db = ⟨some [⟨k, later.cell, later.cell, e.cell, .null⟩]⟩ ∧
      now.cell ≠ later.cell := by
  intro k e now later pre s₀
  have hlater : later.ReadsBack := by cbv
  refine ⟨rfl, ?_, by decide +kernel, by decide +kernel, by decide +kernel⟩
  simp only [pre, List.cons_append, List.nil_append, List.mem_cons, List.not_mem_nil,
    or_false, forall_eq_or_imp, forall_eq]
  exact ⟨trivial, hlater, trivial, trivial, trivial⟩

end ChangeLedger
