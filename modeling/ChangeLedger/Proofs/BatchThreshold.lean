import ChangeLedger.Proofs.BatchCommit
/-! # When a batch commits

Both batches of a store have one limit `B`, and a batch is ready at `B` rows or more. A flush
takes a batch that is ready, so right after a flush of a batch it holds fewer than `max B 1` rows,
whatever the flush met (`Store.flush_size_lt`). Every call of a store either adds nothing to a
batch or ends with a flush of the batch it added to, so from a fresh store on both batches always
hold fewer than `max B 1` rows (`Store.Reachable.queues_below`), whatever database each call meets and
whether its commits succeed or not.

So a write commits its batch exactly when it is the `B`-th row of it, or on every write when
`B ≤ 1` (`Store.enqueue_flush_law`); an update folded into a queued insert adds no row and commits
nothing (`Store.update_of_folded`). A flush that is not forced finds a batch ready only when
`B = 0`: then even an empty batch is ready, and the flush runs a transaction of no rows
(`Store.flush_unforced_law`). That transaction prepares its statement, so it fails once the
connection has read a schema without the table.

With `B ≥ 1`, on a table that is there, inserts of new, distinct keys are committed in whole
batches of `B`: of `n` inserts the first `B * (n / B)` rows are committed and the last `n % B`
wait (`Store.insertRun`).
-/
namespace ChangeLedger

namespace Batch

variable {α : Type}

/-- Below its threshold, a push makes a batch ready exactly when it reaches the limit. -/
theorem isReady_push_iff {b : Batch α} (hb : b.size < max b.limit 1) (a : α) :
    (b.push a).isReady = true ↔ b.size + 1 = b.limit ∨ b.limit ≤ 1 := by
  simp only [isReady, size_push, limit_push, decide_eq_true_eq]
  omega

theorem isReady_iff_of_lt {b : Batch α} (hb : b.size < max b.limit 1) :
    b.isReady = true ↔ b.limit = 0 := by
  simp only [isReady, decide_eq_true_eq]
  omega

theorem length_replaceLast {p : α → Bool} {f : α → α} {l l' : List α}
    (h : replaceLast p f l = some l') : l'.length = l.length := by
  induction l generalizing l' with
  | nil => cases h
  | cons a rest ih =>
    simp only [replaceLast] at h
    cases hr : replaceLast p f rest with
    | some rest' =>
      rw [hr, Option.some.injEq] at h
      subst h
      simp [ih hr]
    | none =>
      simp only [hr] at h
      by_cases hp : p a = true
      · rw [if_pos hp, Option.some.injEq] at h
        subst h
        rfl
      · rw [if_neg hp] at h
        cases h

end Batch

namespace Batcher

theorem batch_enqueue_self (q : Batcher) (kind : BatchKind) (w : RowWrite) :
    (q.enqueue kind w).1.batch kind = (q.batch kind).push w :=
  batch_setBatch_self _ _ _

theorem batch_enqueue_of_ne (q : Batcher) {kind other : BatchKind} (h : other ≠ kind)
    (w : RowWrite) : (q.enqueue kind w).1.batch other = q.batch other :=
  batch_setBatch_of_ne _ h _

theorem foldIntoInsert?_sizes {q q' : Batcher} {w : RowWrite} (h : q.foldIntoInsert? w = some q') :
    q'.inserts.limit = q.inserts.limit ∧ q'.inserts.size = q.inserts.size ∧
      q'.updates = q.updates := by
  simp only [foldIntoInsert?, Batch.modifyLast?, Option.map_map, Option.map_eq_some_iff] at h
  obtain ⟨l', hl', rfl⟩ := h
  exact ⟨rfl, Batch.length_replaceLast hl', rfl⟩

theorem insertTo_of_full {q : Batcher} {t : Table} {B : Nat} {p : List RowWrite} {w : RowWrite}
    (hq : q.inserts = ⟨B, p⟩) (hfull : p.length + 1 = B) (hnd : ((p ++ [w]).map (·.key)).Nodup)
    (hnew : ∀ v ∈ p ++ [w], v.key ∉ t.keys) :
    (q.insertTo t w).1.inserts = ⟨B, []⟩ ∧
      (q.insertTo t w).2 = t ++ (p ++ [w]).map RowWrite.toRow := by
  have hdue : (q.enqueue .insert w).1.isDue .insert false = true := by
    simp [isDue, batch, Batch.isDue, Batch.isReady, Batch.size, hq, hfull]
  rw [insertTo, flushTo_of_due hdue]
  refine ⟨by simp [hq, Batch.push], ?_⟩
  simp only [take_insert, enqueue_insert_fst, Batch.items_push, hq, Table.commit]
  exact Table.upsertAll_of_fresh hnd hnew

/-- Both batches are ready at `limit` rows and hold fewer than `max limit 1`. -/
def Below (q : Batcher) (limit : Nat) : Prop :=
  ∀ kind, (q.batch kind).limit = limit ∧ (q.batch kind).size < max limit 1

theorem Below.empty (limit : Nat) : (Batcher.empty limit).Below limit := by
  intro kind
  cases kind <;> simp [Batcher.empty, Batch.empty, batch, Batch.size]

theorem Below.size_lt_limit {q : Batcher} {limit : Nat} (h : q.Below limit) (kind : BatchKind) :
    (q.batch kind).size < max (q.batch kind).limit 1 := by
  rw [(h kind).1]
  exact (h kind).2

end Batcher

@[simp] theorem Table.keys_append_toRow (t : Table) (ws : List RowWrite) :
    (t ++ ws.map RowWrite.toRow).keys = t.keys ++ ws.map (·.key) := by
  simp [Table.keys, Function.comp_def]

namespace Store

section Flush

variable (s : Store) (db : Database) (kind : BatchKind) (force : Bool)

theorem flush_limit (other : BatchKind) :
    ((s.flush db kind force).store.queues.batch other).limit = (s.queues.batch other).limit := by
  by_cases h : other = kind
  · subst h
    cases hd : s.queues.isDue other force with
    | false => rw [flush_of_not_due s db other force hd]
    | true =>
      rw [(flush_of_due s db other force hd).1, Batcher.take_eq, Batcher.batch_setBatch_self]
  · rw [flush_batch_of_ne s db kind force h]

theorem flush_size_lt :
    ((s.flush db kind force).store.queues.batch kind).size < max (s.queues.batch kind).limit 1 := by
  cases hd : s.queues.isDue kind force with
  | false =>
    rw [flush_of_not_due s db kind force hd]
    have hlt := ((Batch.isDue_eq_false_iff _ _).1 hd).1
    show (s.queues.batch kind).size < max (s.queues.batch kind).limit 1
    omega
  | true =>
    rw [(flush_of_due s db kind force hd).1, Batcher.take_eq, Batcher.batch_setBatch_self]
    simp [Batch.size]

theorem below_flush_of {limit : Nat} (hlim : (s.queues.batch kind).limit = limit)
    (hother : ∀ other, other ≠ kind →
      (s.queues.batch other).limit = limit ∧ (s.queues.batch other).size < max limit 1) :
    (s.flush db kind force).store.queues.Below limit := by
  intro other
  by_cases h : other = kind
  · subst h
    refine ⟨(flush_limit s db other force other).trans hlim, ?_⟩
    have hlt := flush_size_lt s db other force
    rw [hlim] at hlt
    exact hlt
  · rw [flush_batch_of_ne s db kind force h]
    exact hother other h

theorem below_flush {limit : Nat} (h : s.queues.Below limit) :
    (s.flush db kind force).store.queues.Below limit :=
  below_flush_of s db kind force (h kind).1 fun other _ => h other

theorem below_enqueue_flush {limit : Nat} (h : s.queues.Below limit) (w : RowWrite) :
    ({ s with queues := (s.queues.enqueue kind w).1 }.flush db kind force).store.queues.Below
      limit := by
  apply below_flush_of
  · show ((s.queues.enqueue kind w).1.batch kind).limit = limit
    rw [Batcher.batch_enqueue_self, Batch.limit_push]
    exact (h kind).1
  · intro other ho
    show ((s.queues.enqueue kind w).1.batch other).limit = limit ∧
      ((s.queues.enqueue kind w).1.batch other).size < max limit 1
    rw [Batcher.batch_enqueue_of_ne _ ho]
    exact h other

end Flush

theorem update_of_folded (s : Store) (db : Database) {w : RowWrite}
    (hw : w.key ∈ s.queues.insertKeys) :
    ∃ q, s.update db w = ⟨.ok (), { s with queues := q }, db⟩ ∧
      q.inserts.limit = s.queues.inserts.limit ∧ q.inserts.size = s.queues.inserts.size ∧
      q.updates = s.queues.updates := by
  obtain ⟨q, hq⟩ := Option.ne_none_iff_exists'.1
    (mt Batcher.foldIntoInsert?_eq_none_iff.1 (not_not_intro hw))
  refine ⟨q, by simp [update, hq], Batcher.foldIntoInsert?_sizes hq⟩

theorem update_of_not_folded (s : Store) (db : Database) {w : RowWrite}
    (hw : w.key ∉ s.queues.insertKeys) :
    s.update db w = { s with queues := (s.queues.enqueue .update w).1 }.flush db .update false := by
  simp [update, Batcher.foldIntoInsert?_eq_none_iff.2 hw]

theorem below_update (s : Store) (db : Database) {limit : Nat} (h : s.queues.Below limit)
    (w : RowWrite) : (s.update db w).store.queues.Below limit := by
  by_cases hw : w.key ∈ s.queues.insertKeys
  · obtain ⟨q, hq, hlim, hsize, hupd⟩ := update_of_folded s db hw
    rw [hq]
    intro kind
    cases kind with
    | insert => exact ⟨hlim.trans (h .insert).1, hsize ▸ (h .insert).2⟩
    | update =>
      show (q.updates.limit = limit ∧ q.updates.size < max limit 1)
      rw [hupd]
      exact h .update
  · rw [update_of_not_folded s db hw]
    exact below_enqueue_flush s db .update false h w

theorem below_shutdown (s : Store) (db : Database) {limit : Nat} (h : s.queues.Below limit) :
    (s.shutdown db).1.queues.Below limit := by
  unfold Store.shutdown
  split
  · exact h
  · -- the insert batch is flushed, then the update batch
    have h₁ := below_flush { s with closed := true } db .insert true h
    exact below_flush _ _ .update true h₁

/-- The stores that calls and shutdowns lead to from a fresh store of limit `limit`. -/
inductive Reachable (limit : Nat) : Store → Prop
  | fresh : Reachable limit (Store.fresh limit)
  | step {s : Store} (u : StoreUse) (db : Database) :
      Reachable limit s → Reachable limit (u.run (s, db)).1

/-- Every call and every shutdown keeps both batches below the limit. -/
theorem below_run {s : Store} {limit : Nat} (h : s.queues.Below limit) (u : StoreUse)
    (db : Database) : (u.run (s, db)).1.queues.Below limit := by
  cases u with
  | call c =>
    cases c with
    | insert w => exact below_enqueue_flush s db .insert false h w
    | update w => exact below_update s db h w
    | lookup k => simpa [StoreUse.run, StoreCall.run] using h
    | flush kind force => exact below_flush s db kind force h
  | shutdown => exact below_shutdown s db h

theorem Reachable.queues_below {limit : Nat} {s : Store} (h : s.Reachable limit) :
    s.queues.Below limit := by
  induction h with
  | fresh => exact Batcher.Below.empty limit
  | step u db _ ih => exact below_run ih u db

end Store

/-- The step took the whole batch of `kind`, holding `rows`, and ran it as one transaction:
all of it and success, or a failure that left the database as it was. -/
def StoreStep.Commits (r : StoreStep Unit) (s : Store) (db : Database) (kind : BatchKind)
    (rows : List RowWrite) : Prop :=
  (r.store.queues.batch kind).items = [] ∧
    (∀ other, other ≠ kind → r.store.queues.batch other = s.queues.batch other) ∧
    ((r.result = .ok () ∧ db.applyAll (Store.statement kind) rows = .ok r.db) ∨
      ((∃ e, r.result = .error e) ∧ r.db = db))

namespace Store

variable (s : Store) (db : Database) (kind : BatchKind)

theorem flush_commits {force : Bool} (hd : s.queues.isDue kind force = true) :
    (s.flush db kind force).Commits s db kind (s.queues.batch kind).items := by
  obtain ⟨hq, hres⟩ := flush_of_due s db kind force hd
  rw [Batcher.take_eq] at hq hres
  exact ⟨by rw [hq, Batcher.batch_setBatch_self], fun other ho => flush_batch_of_ne s db kind force ho,
    hres⟩

/-- A queued row commits its batch exactly when it brings the batch to `limit` rows. -/
theorem enqueue_flush_law {limit : Nat} (h : s.queues.Below limit) (w : RowWrite) :
    ((s.queues.batch kind).size + 1 = limit ∨ limit ≤ 1 →
      ({ s with queues := (s.queues.enqueue kind w).1 }.flush db kind false).Commits s db kind
        ((s.queues.batch kind).items ++ [w])) ∧
    (¬((s.queues.batch kind).size + 1 = limit ∨ limit ≤ 1) →
      { s with queues := (s.queues.enqueue kind w).1 }.flush db kind false =
        ⟨.ok (), { s with queues := (s.queues.enqueue kind w).1 }, db⟩) := by
  have hb : (s.queues.enqueue kind w).1.batch kind = (s.queues.batch kind).push w :=
    Batcher.batch_enqueue_self _ _ _
  -- an unforced flush is due exactly when the batch, with the new row, is ready
  have hready : (s.queues.enqueue kind w).1.isDue kind false = true ↔
      (s.queues.batch kind).size + 1 = limit ∨ limit ≤ 1 := by
    rw [Batcher.isDue, hb, Batch.isDue, Bool.false_and, Bool.or_false,
      Batch.isReady_push_iff (Batcher.Below.size_lt_limit h kind) w, (h kind).1]
  refine ⟨fun hto => ?_, fun hbelow => flush_of_not_due _ db kind false ?_⟩
  · obtain ⟨hitems, hother, hres⟩ := flush_commits { s with queues := (s.queues.enqueue kind w).1 }
      db kind (hready.2 hto)
    refine ⟨hitems, fun other ho => (hother other ho).trans (Batcher.batch_enqueue_of_ne _ ho w), ?_⟩
    have hrows : ((s.queues.enqueue kind w).1.batch kind).items = (s.queues.batch kind).items ++ [w] := by
      rw [hb, Batch.items_push]
    rw [← hrows]
    exact hres
  · cases hd : (s.queues.enqueue kind w).1.isDue kind false
    · rfl
    · exact absurd (hready.1 hd) hbelow

/-- An unforced flush commits nothing when `limit ≥ 1`, and the empty batch when `limit = 0`. -/
theorem flush_unforced_law {limit : Nat} (h : s.queues.Below limit) :
    (0 < limit → s.flush db kind false = ⟨.ok (), s, db⟩) ∧
      (limit = 0 → (s.flush db kind false).Commits s db kind []) := by
  have hready : (s.queues.batch kind).isReady = true ↔ limit = 0 := by
    rw [Batch.isReady_iff_of_lt (Batcher.Below.size_lt_limit h kind), (h kind).1]
  have hdue : s.queues.isDue kind false = (s.queues.batch kind).isReady := by
    simp [Batcher.isDue, Batch.isDue]
  refine ⟨fun hpos => flush_of_not_due s db kind false ?_, fun hzero => ?_⟩
  · rw [hdue]
    cases hr : (s.queues.batch kind).isReady
    · rfl
    · exact absurd (hready.1 hr) (Nat.pos_iff_ne_zero.1 hpos)
  · -- below a limit of zero means empty
    have hempty : (s.queues.batch kind).items = [] := by
      have hlt := (h kind).2
      rw [hzero] at hlt
      exact List.eq_nil_of_length_eq_zero (by simp only [Batch.size] at hlt; omega)
    have hc := flush_commits s db kind (by rw [hdue, hready.2 hzero])
    rw [hempty] at hc
    exact hc

example :
    (((Store.fresh 0).afterLookup ⟨none⟩ ⟨"libA", "rec1"⟩).flush ⟨none⟩ .insert false).result =
        .error (.database .noSuchTable) ∧
      ((Store.fresh 1).flush ⟨none⟩ .insert false).result = .ok () :=
  ⟨rfl, rfl⟩

theorem cut_after_block {α : Type} {B : Nat} (hB : 0 < B) {blk : List α} (hblk : blk.length = B)
    (rest : List α) :
    (blk ++ rest).take (B * ((blk ++ rest).length / B)) =
        blk ++ rest.take (B * (rest.length / B)) ∧
      (blk ++ rest).drop (B * ((blk ++ rest).length / B)) = rest.drop (B * (rest.length / B)) := by
  have hn : B * ((blk ++ rest).length / B) = blk.length + B * (rest.length / B) := by
    rw [List.length_append, hblk, Nat.add_comm B, Nat.add_div_right _ hB, Nat.mul_add, Nat.mul_one,
      Nat.add_comm]
  rw [hn]
  exact ⟨by simp [List.take_append], by simp [List.drop_append]⟩

/-- Inserts of new, distinct keys are committed in whole batches of `B`, in order; the rest wait. -/
theorem insertRun {B : Nat} (hB : 0 < B) (ws : List RowWrite) :
    ∀ (s : Store) (t : Table) (p : List RowWrite), s.queues.inserts = ⟨B, p⟩ → p.length < B →
      ((p ++ ws).map (·.key)).Nodup → (∀ w ∈ p ++ ws, w.key ∉ t.keys) →
      (StoreCall.runAll (ws.map .insert) (s, ⟨some t⟩)).2 =
          ⟨some (t ++ ((p ++ ws).take (B * ((p ++ ws).length / B))).map RowWrite.toRow)⟩ ∧
        (StoreCall.runAll (ws.map .insert) (s, ⟨some t⟩)).1.queues.inserts.items =
          (p ++ ws).drop (B * ((p ++ ws).length / B)) ∧
        (StoreCall.runAll (ws.map .insert) (s, ⟨some t⟩)).1.queues.updates = s.queues.updates := by
  induction ws with
  | nil =>
    intro s t p hq hp _ _
    have h0 : B * (p.length / B) = 0 := by rw [Nat.div_eq_of_lt hp, Nat.mul_zero]
    simp [h0, hq]
  | cons w ws ih =>
    intro s t p hq hp hnd hnew
    rw [show p ++ w :: ws = (p ++ [w]) ++ ws by simp] at hnd hnew ⊢
    obtain ⟨pr, hpr⟩ := insert_of_table s t w
    have hstep : StoreCall.run (.insert w) (s, ⟨some t⟩) =
        ({ s with queues := (s.queues.insertTo t w).1, conn := pr },
          ⟨some (s.queues.insertTo t w).2⟩) := by
      simp only [StoreCall.run, hpr]
    have hupd : (s.queues.insertTo t w).1.updates = s.queues.updates :=
      Batcher.flushTo_insert_updates _ t false
    rw [List.map_cons, StoreCall.runAll_cons, hstep]
    by_cases hfull : p.length + 1 = B
    · -- the `B`-th row: the batch, new row included, is committed and the rest starts afresh
      rw [List.map_append] at hnd
      have hblk := Batcher.insertTo_of_full hq hfull (hnd.sublist (List.sublist_append_left _ _))
        fun v hv => hnew v (List.mem_append_left _ hv)
      have hfresh : ∀ v ∈ [] ++ ws, v.key ∉ (s.queues.insertTo t w).2.keys := by
        intro v hv
        rw [List.nil_append] at hv
        have hvp : v.key ∉ (p ++ [w]).map (·.key) :=
          fun hk => List.disjoint_of_nodup_append hnd hk (List.mem_map_of_mem hv)
        rw [hblk.2, Table.keys_append_toRow, List.mem_append, not_or]
        exact ⟨hnew v (List.mem_append_right _ hv), hvp⟩
      obtain ⟨hdb, hitems, hupd'⟩ := ih { s with queues := (s.queues.insertTo t w).1, conn := pr }
        _ [] hblk.1 hB
        (by simpa using hnd.sublist (List.sublist_append_right _ _)) hfresh
      obtain ⟨htake, hdrop⟩ := cut_after_block hB (show (p ++ [w]).length = B by simp [hfull]) ws
      rw [htake, hdrop]
      refine ⟨?_, by simpa using hitems, hupd'.trans hupd⟩
      rw [hdb, hblk.2]
      simp
    · -- short of the limit: the row only waits
      have hins : s.queues.insertTo t w = ({ s.queues with inserts := s.queues.inserts.push w }, t) :=
        Batcher.insertTo_of_not_ready (by simp [Batch.size, hq]; omega)
      have hq' : (s.queues.insertTo t w).1.inserts = ⟨B, p ++ [w]⟩ := by
        rw [hins, hq]
        rfl
      obtain ⟨hdb, hitems, hupd'⟩ := ih { s with queues := (s.queues.insertTo t w).1, conn := pr }
        (s.queues.insertTo t w).2 (p ++ [w]) hq' (by simp; omega) hnd
        (by rw [hins]; exact hnew)
      refine ⟨?_, hitems, hupd'.trans hupd⟩
      rw [hdb, hins]

end Store

/-- From a fresh store of limit `B`, each batch stays below `max B 1` rows, a write commits its
batch exactly when it is the batch's `B`-th row, and inserts commit in whole batches of `B`. -/
theorem batch_threshold_law {B : Nat} {s : Store} (hs : s.Reachable B) :
    (∀ kind, (s.queues.batch kind).size < max B 1) ∧
    (∀ db w,
      (s.queues.inserts.size + 1 = B ∨ B ≤ 1 →
        (s.insert db w).Commits s db .insert (s.queues.inserts.items ++ [w])) ∧
      (¬(s.queues.inserts.size + 1 = B ∨ B ≤ 1) →
        s.insert db w = ⟨.ok (), { s with queues := (s.queues.enqueue .insert w).1 }, db⟩)) ∧
    (∀ db w, w.key ∉ s.queues.insertKeys →
      (s.queues.updates.size + 1 = B ∨ B ≤ 1 →
        (s.update db w).Commits s db .update (s.queues.updates.items ++ [w])) ∧
      (¬(s.queues.updates.size + 1 = B ∨ B ≤ 1) →
        s.update db w = ⟨.ok (), { s with queues := (s.queues.enqueue .update w).1 }, db⟩)) ∧
    (∀ db w, w.key ∈ s.queues.insertKeys → ∃ q, s.update db w = ⟨.ok (), { s with queues := q }, db⟩ ∧
      q.inserts.size = s.queues.inserts.size ∧ q.updates = s.queues.updates) ∧
    (∀ db kind, (0 < B → s.flush db kind false = ⟨.ok (), s, db⟩) ∧
      (B = 0 → (s.flush db kind false).Commits s db kind [])) ∧
    (0 < B → ∀ (t : Table) (ws : List RowWrite), (ws.map (·.key)).Nodup →
      (∀ w ∈ ws, w.key ∉ t.keys) →
      (StoreCall.runAll (ws.map .insert) (Store.fresh B, ⟨some t⟩)).2 =
          ⟨some (t ++ (ws.take (B * (ws.length / B))).map RowWrite.toRow)⟩ ∧
        (StoreCall.runAll (ws.map .insert) (Store.fresh B, ⟨some t⟩)).1.queues.inserts.items =
          ws.drop (B * (ws.length / B)) ∧
        (ws.drop (B * (ws.length / B))).length = ws.length % B ∧
        (StoreCall.runAll (ws.map .insert) (Store.fresh B, ⟨some t⟩)).1.queues.updates.items = []) := by
  have hb := hs.queues_below
  refine ⟨fun kind => (hb kind).2, fun db w => Store.enqueue_flush_law s db .insert hb w,
    fun db w hw => ?_, fun db w hw => ?_, fun db kind => Store.flush_unforced_law s db kind hb,
    fun hB t ws hnd hnew => ?_⟩
  · rw [Store.update_of_not_folded s db hw]
    exact Store.enqueue_flush_law s db .update hb w
  · obtain ⟨q, hq, -, hsize, hupd⟩ := Store.update_of_folded s db hw
    exact ⟨q, hq, hsize, hupd⟩
  · obtain ⟨hdb, hitems, hupd⟩ := Store.insertRun hB ws (Store.fresh B) t [] rfl hB hnd
      (by simpa using hnew)
    refine ⟨by simpa using hdb, by simpa using hitems, ?_, by rw [hupd]; rfl⟩
    rw [List.length_drop, Nat.mod_eq_sub_mul_div]

/-- With a limit of two, the second insert into a fresh store commits the batch of both rows. -/
theorem second_insert_commits_batch_of_two :
    let w₁ : RowWrite := ⟨⟨"libA", "rec1"⟩, ⟨1577836800, 0⟩, ⟨1577836800, 0⟩, ⟨1577836800, 0⟩⟩
    let w₂ : RowWrite := ⟨⟨"libA", "rec2"⟩, ⟨1577836800, 0⟩, ⟨1577836800, 0⟩, ⟨1577836800, 0⟩⟩
    let s := ((Store.fresh 2).insert ⟨some []⟩ w₁).store
    s.Reachable 2 ∧ (s.insert ⟨some []⟩ w₂).Commits s ⟨some []⟩ .insert [w₁, w₂] := by
  intro w₁ w₂ s
  have hs : s.Reachable 2 := .step (.call (.insert w₁)) ⟨some []⟩ .fresh
  exact ⟨hs, ((batch_threshold_law hs).2.1 ⟨some []⟩ w₂).1 (.inl rfl)⟩

end ChangeLedger
