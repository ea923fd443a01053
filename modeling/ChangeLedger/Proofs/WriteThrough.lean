import Mathlib
import ChangeLedger.Proofs.Tracking
/-! # Batching seen through a tracker

The write-through store is an exact map from keys to times (`RecordMap.store`): an insert
creates the row at once, an update overwrites the three times of an existing row and clears its
deletion marker at once. A tracker over the batched store that is the only writer of its table
is compared with a tracker over that map, started from the times the table holds.

While the batched store mirrors the map (`Mirrors`: the table the queues stand for reads as the
map, and no queued update is of a row that carries a marker), the two trackers cannot be told
apart (`mirrors_simulates`). The second half is what can fail: a lookup of a key with a queued
update reads the marker from the committed row, which the queued update is to clear. A first
track of a marked row queues such an update; once the update batch holds more than one row it
can stay queued, and the next track of that key after another key sees the marker again and
restores the record a second time, where the map has it unmarked.

So batching is invisible to the tracker, for every list of calls, exactly when the batch limit
is at most one or no key the tracker accepts has a marked row to begin with
(`batching_invisible_iff`).
-/
namespace ChangeLedger

/-- What an exact store knows: the times of each key that has a row. -/
abbrev RecordMap := RecordKey → Option RecordTimes

namespace RecordMap

def write (M : RecordMap) (w : RowWrite) : RecordMap := Function.update M w.key (some w.times)

/-- The write-through store: an insert creates its row, an update overwrites an existing one. -/
def store : RecordStore RecordMap where
  lookup M k := .ok (M k)
  looked M _ := M
  insert M w := (.ok (), M.write w)
  update M w := (.ok (), if (M w.key).isSome then M.write w else M)

def FirstSeenReadsBack (M : RecordMap) : Prop :=
  ∀ k tm i, M k = some tm → tm.firstSeen = some i → i.ReadsBack

theorem write_self (M : RecordMap) (w : RowWrite) : M.write w w.key = some w.times :=
  Function.update_self _ _ _

theorem write_of_ne (M : RecordMap) (w : RowWrite) {k : RecordKey} (hk : k ≠ w.key) :
    M.write w k = M k :=
  Function.update_of_ne hk _ _

theorem FirstSeenReadsBack.write {M : RecordMap} (h : M.FirstSeenReadsBack) {w : RowWrite}
    (hw : w.ReadsBack) : (M.write w).FirstSeenReadsBack := by
  intro k tm i hk hi
  by_cases hkw : k = w.key
  · subst hkw
    rw [write_self] at hk
    cases hk
    cases hi
    exact hw.1
  · rw [write_of_ne M w hkw] at hk
    exact h k tm i hk hi

end RecordMap

/-! ## Rows without a deletion marker -/

namespace Table

def Unmarked (t : Table) (k : RecordKey) : Prop := ∀ r, t.find? k = some r → r.deleted = .null

variable {t : Table} {k : RecordKey}

-- Every write leaves its own row unmarked and the other rows as they were.
theorem Unmarked.upsert (h : t.Unmarked k) (w : RowWrite) : (t.upsert w).Unmarked k := by
  intro r hr
  cases hf : t.find? w.key with
  | none =>
    rw [upsert_of_find?_eq_none hf, find?_append_row] at hr
    cases hk : t.find? k with
    | some r' =>
      rw [hk, Option.some_or] at hr
      rw [← Option.some.inj hr]
      exact h r' hk
    | none =>
      rw [hk, Option.none_or] at hr
      split at hr
      · cases hr
        rfl
      · cases hr
  | some r₀ =>
    rw [upsert_of_find?_eq_some hf, find?_modify t w.key k (·.merge w) fun _ => rfl] at hr
    split at hr
    · obtain ⟨r', -, rfl⟩ := Option.map_eq_some_iff.1 hr
      rfl
    · exact h r hr

theorem Unmarked.rewrite (h : t.Unmarked k) (w : RowWrite) : (t.rewrite w).Unmarked k := by
  intro r hr
  rw [find?_rewrite] at hr
  split at hr
  · obtain ⟨r', -, rfl⟩ := Option.map_eq_some_iff.1 hr
    rfl
  · exact h r hr

theorem Unmarked.commit (h : t.Unmarked k) (kind : BatchKind) (ws : List RowWrite) :
    (t.commit kind ws).Unmarked k := by
  induction ws generalizing t with
  | nil => cases kind <;> exact h
  | cons w ws ih =>
    cases kind with
    | insert => exact ih (h.upsert w)
    | update => exact ih (h.rewrite w)

theorem deletedAt?_of_find?_none (h : t.find? k = none) :
    (⟨some t⟩ : Database).deletedAt? k = .ok none := by
  unfold Database.deletedAt? Database.rows
  simp only [bind, Except.bind, h, pure, Except.pure]

theorem deletedAt?_of_find?_some {r : Row} (h : t.find? k = some r) :
    (⟨some t⟩ : Database).deletedAt? k = r.deleted.toInstant? 0 .deleted := by
  unfold Database.deletedAt? Database.rows
  simp only [bind, Except.bind, h]

theorem Unmarked.deletedAt? (h : t.Unmarked k) : (⟨some t⟩ : Database).deletedAt? k = .ok none := by
  cases hf : t.find? k with
  | none => exact deletedAt?_of_find?_none hf
  | some r =>
    rw [deletedAt?_of_find?_some hf, h r hf]
    rfl

end Table

theorem Database.times?_eq_ok_none {t : Table} {k : RecordKey}
    (h : (⟨some t⟩ : Database).times? k = .ok none) : t.find? k = none := by
  rw [Database.times?_of_table] at h
  cases hf : t.find? k with
  | none => rfl
  | some r =>
    rw [hf] at h
    cases hr : r.times 0 <;> simp [hr, Functor.map, Except.map] at h

theorem Database.times?_eq_ok_some {t : Table} {k : RecordKey} {tm : RecordTimes}
    (h : (⟨some t⟩ : Database).times? k = .ok (some tm)) :
    ∃ r, t.find? k = some r ∧ r.times 0 = .ok tm := by
  rw [Database.times?_of_table] at h
  cases hf : t.find? k with
  | none => simp [hf] at h
  | some r =>
    rw [hf] at h
    cases hr : r.times 0 <;> simp_all [Functor.map, Except.map]

theorem Batcher.unmarked_flushTo (q : Batcher) {t : Table} {k : RecordKey} (h : t.Unmarked k)
    (kind : BatchKind) (force : Bool) : (q.flushTo t kind force).2.Unmarked k := by
  cases hd : q.isDue kind force
  · rw [flushTo_of_not_due hd]
    exact h
  · rw [flushTo_of_due hd]
    exact h.commit kind _

/-! ## A table that reads as a map -/

section View

variable {V : Table} {M : RecordMap}

theorem view_upsert_new (hv : ∀ k, (⟨some V⟩ : Database).times? k = .ok (M k)) {w : RowWrite}
    (hw : w.ReadsBack) (hnew : M w.key = none) :
    ∀ k, (⟨some (V.upsert w)⟩ : Database).times? k = .ok (M.write w k) := by
  have hf : V.find? w.key = none := Database.times?_eq_ok_none (by rw [hv, hnew])
  rw [Table.upsert_of_find?_eq_none hf]
  intro k
  rw [Database.times?_of_table, Table.find?_append_row]
  by_cases hk : k = w.key
  · subst hk
    simp only [hf, Option.none_or, RowWrite.toRow_key, if_true, RecordMap.write_self]
    rw [RowWrite.toRow_times hw]
    rfl
  · have hne : ¬ w.key = k := fun he => hk he.symm
    simp only [RowWrite.toRow_key, hne, if_false, Option.or_none]
    rw [← Database.times?_of_table, hv, RecordMap.write_of_ne M w hk]

theorem view_rewrite_old (hv : ∀ k, (⟨some V⟩ : Database).times? k = .ok (M k)) {w : RowWrite}
    (hw : w.ReadsBack) {tm : RecordTimes} (hold : M w.key = some tm) :
    ∀ k, (⟨some (V.rewrite w)⟩ : Database).times? k = .ok (M.write w k) := by
  obtain ⟨r, hf, -⟩ := Database.times?_eq_ok_some (by rw [hv, hold])
  intro k
  rw [Database.times?_of_table, Table.find?_rewrite]
  by_cases hk : k = w.key
  · subst hk
    simp only [hf, if_true, Option.map_some, RecordMap.write_self]
    rw [Row.overwrite_times r hw]
    rfl
  · rw [if_neg hk, ← Database.times?_of_table, hv, RecordMap.write_of_ne M w hk]

end View

/-! ## The batched store mirrors the map -/

/-- The batched store on table `t` stands for the map `M`: it writes the table alone, and the
table it would commit reads as `M`. -/
structure Mirrors (limit : Nat) (s : Store) (t : Table) (M : RecordMap) : Prop where
  sole : s.Sole t
  isOpen : s.closed = false
  limit_eq : s.queues.updates.limit = limit
  settled : ∀ k ∈ s.queues.updateKeys, t.Unmarked k
  unmarked : limit ≤ 1 ∨ ∀ k, k.Trackable → t.Unmarked k
  view : ∀ k, (⟨some (s.queues.commitTo t)⟩ : Database).times? k = .ok (M k)
  firstSeen : M.FirstSeenReadsBack

namespace Mirrors

variable {limit : Nat} {s : Store} {t : Table} {M : RecordMap}

theorem withConn (h : Mirrors limit s t M) (c : Connection) : Mirrors limit { s with conn := c } t M :=
  ⟨h.sole.withConn c, h.isOpen, h.limit_eq, h.settled, h.unmarked, h.view, h.firstSeen⟩

/-- A mirroring store answers every lookup from the map. -/
theorem lookup (h : Mirrors limit s t M) (k : RecordKey) : s.lookup ⟨some t⟩ k = .ok (M k) := by
  by_cases hk : k ∈ s.queues.updateKeys
  · -- the queued update's times, with the committed row's marker, which there is none of
    obtain ⟨u, hview, hl⟩ := h.sole.lookup_of_updated hk
    rw [Store.forceCommit_of_table, h.view k] at hview
    rw [hl, (h.settled k hk).deletedAt?, Except.ok.inj hview]
    rfl
  · rw [h.sole.lookup_of_not_updated hk, Store.forceCommit_of_table, h.view k]
    rfl

theorem insert (h : Mirrors limit s t M) {w : RowWrite} (hw : w.ReadsBack) (hM : M w.key = none)
    (p : Connection) :
    Mirrors limit { s with queues := (s.queues.insertTo t w).1, conn := p }
      (s.queues.insertTo t w).2 (M.write w) := by
  obtain ⟨hu, hi, ht⟩ := Store.lookup_eq_ok_none (by rw [h.lookup, hM] : s.lookup ⟨some t⟩ w.key = _)
  have hupd : (s.queues.insertTo t w).1.updates = s.queues.updates :=
    Batcher.flushTo_insert_updates _ t false
  have hkeys : (s.queues.insertTo t w).1.updateKeys = s.queues.updateKeys := by
    simp only [Batcher.updateKeys, hupd]
  refine ⟨⟨h.sole.fresh.insertTo hi hu ht, h.sole.readsBack.insertTo t hw⟩, h.isOpen,
    hupd ▸ h.limit_eq, fun k hk => ?_, ?_, ?_, h.firstSeen.write hw⟩
  · exact Batcher.unmarked_flushTo _ (h.settled k (hkeys ▸ hk)) .insert false
  · exact h.unmarked.imp_right fun hall k hk => Batcher.unmarked_flushTo _ (hall k hk) .insert false
  · rw [Batcher.commitTo_insertTo h.sole.fresh.toCoherent hi hu]
    exact view_upsert_new h.view hw hM

theorem update (h : Mirrors limit s t M) {w : RowWrite} (hk : w.key.Trackable) (hw : w.ReadsBack)
    {tm : RecordTimes} (hM : M w.key = some tm) (p : Connection) :
    Mirrors limit { s with queues := (s.queues.updateTo t w).1, conn := p }
      (s.queues.updateTo t w).2 (M.write w) := by
  have hwk : w.key ∈ s.queues.insertKeys ∨ w.key ∈ t.keys := by
    rcases Store.lookup_eq_ok_some (by rw [h.lookup, hM] : s.lookup ⟨some t⟩ w.key = _)
      with hu | hi | ht
    · exact Or.inr (h.sole.fresh.updates_committed _ hu)
    · exact Or.inl hi
    · exact Or.inr ht
  -- the update is folded into a queued insert, committed with its queue, or left queued; in the
  -- last case the queue holds more than one row, so the key's row is unmarked
  have hq : (s.queues.updateTo t w).1.updates.limit = limit ∧
      (∀ k ∈ (s.queues.updateTo t w).1.updateKeys, (s.queues.updateTo t w).2.Unmarked k) ∧
      (limit ≤ 1 ∨ ∀ k, k.Trackable → (s.queues.updateTo t w).2.Unmarked k) := by
    rcases Batcher.updateTo_cases (t := t) w h.sole.fresh.inserts_nodup with ⟨-, he⟩ | ⟨-, he⟩
    · rw [he]
      exact ⟨h.limit_eq, h.settled, h.unmarked⟩
    · rw [he]
      cases hd : (s.queues.enqueue .update w).1.isDue .update false
      · rw [Batcher.flushTo_of_not_due hd]
        have hlim : ¬ limit ≤ 1 := by
          simp only [Batcher.enqueue_update_fst, Batcher.isDue, Batcher.batch, Batch.isDue,
            Batch.isReady, Batch.limit_push, Batch.size_push, h.limit_eq, Bool.false_and,
            Bool.or_false, decide_eq_false_iff_not] at hd
          omega
        refine ⟨h.limit_eq, fun k hk' => ?_, h.unmarked⟩
        simp only [Batcher.enqueue_update_fst, Batcher.updateKeys_push, List.mem_append,
          List.mem_singleton] at hk'
        rcases hk' with hk' | rfl
        · exact h.settled k hk'
        · exact h.unmarked.resolve_left hlim _ hk
      · rw [Batcher.flushTo_of_due hd]
        dsimp only
        exact ⟨h.limit_eq, fun k hk' => by simp [Batcher.updateKeys] at hk',
          h.unmarked.imp_right fun hall k hk => (hall k hk).commit _ _⟩
  refine ⟨⟨h.sole.fresh.updateTo hwk, h.sole.readsBack.updateTo t hw⟩,
    h.isOpen, hq.1, hq.2.1, hq.2.2, ?_, h.firstSeen.write hw⟩
  rw [Batcher.commitTo_updateTo h.sole.fresh hwk]
  exact view_rewrite_old h.view hw hM

theorem fresh {t₀ : Table} {M₀ : RecordMap}
    (hM : ∀ k, (⟨some t₀⟩ : Database).times? k = .ok (M₀ k)) (hrb : M₀.FirstSeenReadsBack)
    (hcond : limit ≤ 1 ∨ ∀ k, k.Trackable → t₀.Unmarked k) :
    Mirrors limit (Store.fresh limit) t₀ M₀ :=
  ⟨Store.sole_fresh limit t₀, rfl, rfl,
    fun _ hk => by simp [Batcher.updateKeys, Store.fresh, Batcher.empty, Batch.empty] at hk,
    hcond, hM, hrb⟩

end Mirrors

theorem Table.unmarked_of_times {t : Table} {M : RecordMap}
    (hM : ∀ k, (⟨some t⟩ : Database).times? k = .ok (M k)) {k : RecordKey}
    (h : ∀ tm, M k = some tm → tm.deletedAt = none) : t.Unmarked k := by
  intro r hr
  have ht := hM k
  rw [Database.times?_of_table, hr] at ht
  dsimp only at ht
  cases hr' : r.times 0 with
  | error e => simp [hr', Functor.map, Except.map] at ht
  | ok tm =>
    rw [hr'] at ht
    have hd := (Row.times_eq_ok hr').2.2.2
    rw [h tm (Except.ok.inj ht).symm] at hd
    exact Cell.eq_null_of_toInstant? hd

def MirrorsAt (limit : Nat) (sd : Store × Database) (M : RecordMap) : Prop :=
  ∃ t, sd.2 = ⟨some t⟩ ∧ Mirrors limit sd.1 t M

/-- While the batched store mirrors the write-through map, a tracker cannot tell them apart. -/
theorem mirrors_simulates (limit : Nat) :
    Store.records.Simulates RecordMap.store (MirrorsAt limit) where
  lookup := by
    rintro ⟨s, db⟩ M k ⟨t, rfl, h⟩ -
    exact h.lookup k
  looked := by
    rintro ⟨s, db⟩ M k ⟨t, rfl, h⟩ -
    obtain ⟨c, hc⟩ := Store.records_looked s ⟨some t⟩ k
    rw [hc]
    exact ⟨t, rfl, h.withConn c⟩
  insert := by
    rintro ⟨s, db⟩ M w ⟨t, rfl, h⟩ - hw hl
    obtain ⟨p, hp⟩ := Store.records_insert s t w
    rw [hp]
    exact ⟨rfl, _, rfl, h.insert hw (Except.ok.inj hl) p⟩
  update := by
    rintro ⟨s, db⟩ M w tm ⟨t, rfl, h⟩ hk hw hl
    have hM : M w.key = some tm := Except.ok.inj hl
    obtain ⟨p, hp⟩ := Store.records_update s t w
    rw [hp]
    refine ⟨rfl, _, rfl, ?_⟩
    simp only [RecordMap.store, hM, Option.isSome_some, if_true]
    exact h.update hk hw hM p
  firstSeen := by
    rintro ⟨s, db⟩ M k tm i ⟨t, rfl, h⟩ hl hf
    exact h.firstSeen k tm i (Except.ok.inj hl) hf

/-! ## Where batching shows -/

theorem Instant.sub_self (a : Instant) : a.sub a = 0 := by
  simp [Instant.sub, Instant.secondsOfDayDelta]

theorem Instant.readsBack_epoch : Instant.ReadsBack ⟨0, 0⟩ := by
  cbv

theorem RecordTimes.needsWrite_of_deleted {tm : RecordTimes} (h : tm.deletedAt.isSome = true)
    (changedAt : Instant) : tm.needsWrite changedAt = true := by
  simp [RecordTimes.needsWrite, h]

theorem RowWrite.needsWrite_times (w : RowWrite) : w.times.needsWrite w.lastChanged = false := by
  simp [RecordTimes.needsWrite, RowWrite.times, Instant.millisBetween, Instant.sub_self]

theorem Database.deletedAt?_of_times {t : Table} {k : RecordKey} {tm : RecordTimes}
    (h : (⟨some t⟩ : Database).times? k = .ok (some tm)) :
    (⟨some t⟩ : Database).deletedAt? k = .ok tm.deletedAt := by
  obtain ⟨r, hf, hr⟩ := Database.times?_eq_ok_some h
  rw [Table.deletedAt?_of_find?_some hf]
  exact Cell.toInstant?_index (Row.times_eq_ok hr).2.2.2 0 .deleted

section Marked

variable {limit : Nat} {t₀ : Table} {M₀ : RecordMap} {k k' : RecordKey} {tm : RecordTimes}
  (hM : ∀ k, (⟨some t₀⟩ : Database).times? k = .ok (M₀ k)) (hk : k.Trackable)
  (hk' : k'.Trackable) (hne : k' ≠ k) (hMk : M₀ k = some tm) (hdel : tm.deletedAt.isSome = true)
  (hnew : M₀ k' = none) (e : Instant)

include hM hk hk' hne hMk hdel hnew in
/-- With batches of more than one row, a marked row is restored twice around a new key's insert. -/
theorem batched_restores_twice (hlim : 1 < limit) :
    (((Tracker.fresh limit).on ⟨some t₀⟩).trackAll Store.records
      [⟨k, e, e⟩, ⟨k', e, e⟩, ⟨k, e, e⟩]).1 = [.ok .restored, .ok .inserted, .ok .restored] := by
  -- the first call queues the restoring update, which the batch does not commit yet
  let w₁ : RowWrite := ⟨k, tm.firstSeen.getD e, e, e⟩
  let q₁ : Batcher := ⟨Batch.empty limit, (Batch.empty limit).push w₁⟩
  have hq₁ : (Store.fresh limit).queues.updateTo t₀ w₁ = (q₁, t₀) :=
    Batcher.updateTo_of_not_ready (by simp [Batcher.insertKeys, Store.fresh, Batcher.empty,
      Batch.empty]) (by simpa [Store.fresh, Batcher.empty, Batch.empty, Batch.size] using hlim)
  obtain ⟨p₁, hu₁⟩ := Store.records_update (Store.fresh limit) t₀ w₁
  rw [hq₁] at hu₁
  let s₁ : Store := { Store.fresh limit with queues := q₁, conn := p₁ }
  obtain ⟨t₁, hb₁, ht₁⟩ : ∃ t₁, TrackerOn.track Store.records
      ⟨(Store.fresh limit, ⟨some t₀⟩), none, none⟩ k e e = (.ok .restored, t₁) ∧
      t₁ = ⟨(s₁, ⟨some t₀⟩), some k, some w₁.times⟩ := by
    have hl : Store.records.lookup (Store.fresh limit, ⟨some t₀⟩) k = .ok (some tm) := by
      simp [Store.records, Store.lookup_fresh, hM, hMk, Except.mapError]
    have hb : TrackerOn.track Store.records ⟨(Store.fresh limit, ⟨some t₀⟩), none, none⟩
        k e e = _ :=
      TrackerOn.track_of_rewrite hk (by simp) hl (RecordTimes.needsWrite_of_deleted hdel e)
        (by rw [hu₁])
    rw [hu₁, hdel, if_pos rfl] at hb
    exact ⟨_, hb, rfl⟩
  -- the second call queues the insert of the new key
  let w₂ : RowWrite := ⟨k', e, e, e⟩
  let q₂ : Batcher := { q₁ with inserts := q₁.inserts.push w₂ }
  have hq₂ : q₁.insertTo t₀ w₂ = (q₂, t₀) :=
    Batcher.insertTo_of_not_ready (by simpa [q₁, Batch.empty, Batch.size] using hlim)
  obtain ⟨p₂, hi₂⟩ := Store.records_insert s₁ t₀ w₂
  rw [show s₁.queues = q₁ from rfl, hq₂] at hi₂
  let s₂ : Store := { s₁ with queues := q₂, conn := p₂ }
  obtain ⟨t₂, hb₂, ht₂⟩ : ∃ t₂, TrackerOn.track Store.records t₁ k' e e = (.ok .inserted, t₂) ∧
      t₂ = ⟨(s₂, ⟨some t₀⟩), some k', some w₂.times⟩ := by
    have hnone : s₁.queues.updates.findLast? (·.key == k') = none := by
      simp [s₁, q₁, w₁, Batch.findLast?, Batch.push, Batch.empty, Ne.symm hne]
    have hl : Store.records.lookup t₁.store k' = .ok none := by
      rw [ht₁]
      simp [Store.records, Store.lookup_of_not_pending _ hnone rfl, hM, hnew, Except.mapError]
    have hb : TrackerOn.track Store.records t₁ k' e e = _ :=
      TrackerOn.track_of_absent hk' (by simp [ht₁, Ne.symm hne]) hl
        (by rw [ht₁]; exact congrArg Prod.fst hi₂)
    rw [ht₁] at hb ⊢
    rw [hi₂] at hb
    exact ⟨_, hb, rfl⟩
  -- the third call finds the queued update, and the marker the committed row still has
  have hsome : s₂.queues.updates.findLast? (·.key == k) = some w₁ := by
    simp [s₂, q₂, q₁, w₁, Batch.findLast?, Batch.push, Batch.empty]
  have hd : (⟨some t₀⟩ : Database).deletedAt? k = .ok tm.deletedAt :=
    Database.deletedAt?_of_times (by rw [hM, hMk])
  let stored : RecordTimes := { w₁.times with deletedAt := tm.deletedAt }
  obtain ⟨p₃, hu₃⟩ := Store.records_update s₂ t₀ ⟨k, stored.firstSeen.getD e, e, e⟩
  have hl₃ : Store.records.lookup t₂.store k = .ok (some stored) := by
    rw [ht₂]
    simp [Store.records, Store.lookup_of_pending_update _ hsome, hd, stored, Except.mapError,
      Except.map]
  have hb₃ : TrackerOn.track Store.records t₂ k e e = _ :=
    TrackerOn.track_of_rewrite hk (by simp [ht₂, hne]) hl₃
      (RecordTimes.needsWrite_of_deleted (by simpa [stored] using hdel) e)
      (by rw [ht₂]; exact congrArg Prod.fst hu₃)
  show (TrackerOn.trackAll Store.records ⟨(Store.fresh limit, ⟨some t₀⟩), none, none⟩ _).1 = _
  simp only [TrackerOn.trackAll, hb₁, hb₂, hb₃]
  simp [stored, hdel]

include hk hk' hne hMk hdel hnew in
/-- Over the write-through map the same calls restore the marked row once: the second look at
it finds the row as the restoring update left it. -/
theorem exact_restores_once :
    (TrackerOn.trackAll RecordMap.store { store := M₀ }
      [⟨k, e, e⟩, ⟨k', e, e⟩, ⟨k, e, e⟩]).1 = [.ok .restored, .ok .inserted, .ok .unchanged] := by
  let w₁ : RowWrite := ⟨k, tm.firstSeen.getD e, e, e⟩
  have hl₁ : RecordMap.store.lookup M₀ k = .ok (some tm) := by simp [RecordMap.store, hMk]
  have hb₁ : TrackerOn.track RecordMap.store { store := M₀ } k e e = _ :=
    TrackerOn.track_of_rewrite hk (by simp) hl₁ (RecordTimes.needsWrite_of_deleted hdel e) rfl
  have hM₁ : (RecordMap.store.update (RecordMap.store.looked M₀ k) w₁).2 = M₀.write w₁ := by
    simp [RecordMap.store, w₁, hMk]
  rw [hM₁, hdel, if_pos rfl] at hb₁
  have hl₂ : RecordMap.store.lookup (M₀.write w₁) k' = .ok none := by
    simp [RecordMap.store, RecordMap.write_of_ne M₀ w₁ hne, hnew]
  have hb₂ : TrackerOn.track RecordMap.store ⟨M₀.write w₁, some k, some w₁.times⟩ k' e e = _ :=
    TrackerOn.track_of_absent hk' (by simp [Ne.symm hne]) hl₂ rfl
  have hl₃ : RecordMap.store.lookup ((M₀.write w₁).write ⟨k', e, e, e⟩) k = .ok (some w₁.times) := by
    show Except.ok (((M₀.write w₁).write ⟨k', e, e, e⟩) k) = _
    rw [RecordMap.write_of_ne (M₀.write w₁) ⟨k', e, e, e⟩ (Ne.symm hne),
      RecordMap.write_self M₀ w₁]
  have hb₃ : TrackerOn.track RecordMap.store
      ⟨(M₀.write w₁).write ⟨k', e, e, e⟩, some k', some (RowWrite.times ⟨k', e, e, e⟩)⟩ k e e = _ :=
    TrackerOn.track_of_kept hk (by simp [hne]) hl₃ w₁.needsWrite_times
  simp only [TrackerOn.trackAll, hb₁]
  simp only [RecordMap.store] at hb₂ hb₃ ⊢
  rw [hb₂, hb₃]

end Marked

/-! ## When batching is invisible -/

/-- Every call of the tracker over the batched store answers as over the write-through map. -/
def BatchingInvisible (limit : Nat) (t₀ : Table) (M₀ : RecordMap) (calls : List TrackCall) :
    Prop :=
  let batched := (Tracker.fresh limit).trackAll ⟨some t₀⟩ calls
  let exact := TrackerOn.trackAll RecordMap.store { store := M₀ } calls
  batched.1 = exact.1 ∧ ∀ k, (batched.2.1.shutdown batched.2.2).2.times? k = .ok (exact.2.store k)

theorem Tracker.shutdown_snd (t : Tracker) (db : Database) :
    (t.shutdown db).2 = (t.store.shutdown db).2 := rfl

theorem batching_invisible_of_unmarked {limit : Nat} {t₀ : Table} {M₀ : RecordMap}
    (hM : ∀ k, (⟨some t₀⟩ : Database).times? k = .ok (M₀ k)) (hrb : M₀.FirstSeenReadsBack)
    (hcond : limit ≤ 1 ∨ ∀ k, k.Trackable → ∀ tm, M₀ k = some tm → tm.deletedAt = none)
    {calls : List TrackCall} (hcalls : ∀ c ∈ calls, c.ReadsBack) :
    BatchingInvisible limit t₀ M₀ calls := by
  have hstart : RecordStore.Agree (MirrorsAt limit) ((Tracker.fresh limit).on ⟨some t₀⟩)
      { store := M₀ } :=
    ⟨⟨t₀, rfl, Mirrors.fresh hM hrb
      (hcond.imp_right fun h k hk => Table.unmarked_of_times hM (h k hk))⟩, rfl, rfl⟩
  obtain ⟨hres, hend⟩ := (mirrors_simulates limit).trackAll hstart hcalls
  rw [← Tracker.trackAll_on] at hres hend
  obtain ⟨t, hdb, hm⟩ := hend.store
  refine ⟨hres, fun k => ?_⟩
  simp only [Tracker.on_store] at hdb hm
  rw [Tracker.shutdown_snd, hdb, Store.shutdown_of_open hm.isOpen, Store.forceCommit_of_table]
  exact hm.view k

theorem exists_fresh_key {t₀ : Table} {M₀ : RecordMap}
    (hM : ∀ k, (⟨some t₀⟩ : Database).times? k = .ok (M₀ k)) {k : RecordKey} (hk : k.Trackable) :
    ∃ k', k'.Trackable ∧ k' ≠ k ∧ M₀ k' = none := by
  obtain ⟨id, hid⟩ := Infinite.exists_notMem_finset ("" :: k.id :: t₀.keys.map (·.id)).toFinset
  simp only [List.mem_toFinset, List.mem_cons, List.mem_map, not_or, not_exists, not_and] at hid
  obtain ⟨hempty, hother, hnot⟩ := hid
  have hf : t₀.find? ⟨k.ns, id⟩ = none := Table.find?_eq_none_iff.2 fun hmem => hnot _ hmem rfl
  have hnew := hM ⟨k.ns, id⟩
  rw [Database.times?_of_table, hf] at hnew
  exact ⟨⟨k.ns, id⟩, ⟨hk.1, by simpa using hempty⟩, fun he => hother (by rw [← he]),
    (Except.ok.inj hnew).symm⟩

/-- Batching is invisible to the tracker over every list of calls whose times read back exactly
when batches commit each row at once or no key the tracker accepts starts out marked deleted. -/
theorem batching_invisible_iff {limit : Nat} {t₀ : Table} {M₀ : RecordMap}
    (hM : ∀ k, (⟨some t₀⟩ : Database).times? k = .ok (M₀ k)) (hrb : M₀.FirstSeenReadsBack) :
    (∀ calls : List TrackCall, (∀ c ∈ calls, c.ReadsBack) → BatchingInvisible limit t₀ M₀ calls) ↔
      (limit ≤ 1 ∨ ∀ k, k.Trackable → ∀ tm, M₀ k = some tm → tm.deletedAt = none) := by
  constructor
  · intro hall
    by_cases hlim : limit ≤ 1
    · exact Or.inl hlim
    refine Or.inr fun k hk tm hMk => ?_
    cases hd : tm.deletedAt with
    | none => rfl
    | some d =>
      -- the marked key, a fresh key, the marked key again: the third answers differ
      exfalso
      have hdel : tm.deletedAt.isSome = true := by simp [hd]
      obtain ⟨k', hk', hne, hnew⟩ := exists_fresh_key hM hk
      have hcalls : ∀ c ∈ ([⟨k, ⟨0, 0⟩, ⟨0, 0⟩⟩, ⟨k', ⟨0, 0⟩, ⟨0, 0⟩⟩, ⟨k, ⟨0, 0⟩, ⟨0, 0⟩⟩] :
          List TrackCall), c.ReadsBack := by
        intro c hc
        simp only [List.mem_cons, List.not_mem_nil, or_false] at hc
        rcases hc with rfl | rfl | rfl <;> exact ⟨Instant.readsBack_epoch, Instant.readsBack_epoch⟩
      have hres := (hall _ hcalls).1
      rw [congrArg Prod.fst (Tracker.trackAll_on _ _ _),
        batched_restores_twice hM hk hk' hne hMk hdel hnew _ (by omega),
        exact_restores_once hk hk' hne hMk hdel hnew] at hres
      simp at hres
  · intro hcond calls hcalls
    exact batching_invisible_of_unmarked hM hrb hcond hcalls

/-- A table holding one record marked deleted: with batches of a hundred rows some run of the
tracker tells batching apart. -/
theorem batching_visible_with_marked_row :
    let t₀ : Table := [⟨⟨"libA", "rec1"⟩, .text "2020-01-01 00:00:00+00:00",
      .text "2020-01-01 00:00:00+00:00", .text "2020-01-01 00:00:00+00:00",
      .text "2020-01-03 00:00:00+00:00"⟩]
    let M₀ : RecordMap := fun k => if k = ⟨"libA", "rec1"⟩ then
      some ⟨some ⟨1577836800, 0⟩, some ⟨1577836800, 0⟩, some ⟨1577836800, 0⟩, some ⟨1578009600, 0⟩⟩
      else none
    (∀ k, (⟨some t₀⟩ : Database).times? k = .ok (M₀ k)) ∧ M₀.FirstSeenReadsBack ∧
      ¬ ∀ calls : List TrackCall, (∀ c ∈ calls, c.ReadsBack) →
        BatchingInvisible 100 t₀ M₀ calls := by
  intro t₀ M₀
  have hM : ∀ k, (⟨some t₀⟩ : Database).times? k = .ok (M₀ k) := by
    intro k
    by_cases hk : k = ⟨"libA", "rec1"⟩
    · subst hk
      cbv
    · have hk' : (RecordKey.mk "libA" "rec1" == k) = false := beq_eq_false_iff_ne.2 (Ne.symm hk)
      simp [t₀, M₀, hk, hk', Database.times?_of_table, Table.find?]
  have hrb : M₀.FirstSeenReadsBack := by
    intro k tm i hk hi
    by_cases hk' : k = ⟨"libA", "rec1"⟩
    · simp only [M₀, hk', if_true, Option.some.injEq] at hk
      subst hk
      cases hi
      cbv
    · simp [M₀, hk'] at hk
  refine ⟨hM, hrb, fun hall => ?_⟩
  rcases (batching_invisible_iff hM hrb).1 hall with h | h
  · omega
  · have := h ⟨"libA", "rec1"⟩ ⟨rfl, rfl⟩ _ (if_pos rfl)
    simp at this

end ChangeLedger
