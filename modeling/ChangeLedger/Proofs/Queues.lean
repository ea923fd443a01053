import ChangeLedger.Proofs.TableCommit
/-! # The queues of a store

What each store operation does to its queues and to the table, once the table exists:
`Batcher.flushTo`, `Batcher.insertTo` and `Batcher.updateTo` are pure functions of the queues and
the table, and `Store.flush_of_table`, `Store.insert_of_table`, `Store.update_of_table` say that
the store operations are these, always succeeding. `Batcher.commitTo` is the table that
committing both queues leaves, inserts first: what a forced shutdown writes.

Two invariants tie the queues to the table.

* `Batcher.Coherent`: queued inserts have distinct keys, no key is queued in both queues, and
  every queued update has a committed row. Every operation of the store keeps it, and so does any
  change of the table that removes no row.
* `Batcher.Fresh`: coherent, and no queued insert has a committed row. A store that is the only
  writer keeps it as long as it inserts only keys it does not know and updates only keys it does.

Under `Coherent` a commit of either queue leaves `commitTo` as it was (`commitTo_flushTo`);
under `Fresh` an insert or update moves `commitTo` by exactly that write.
-/
namespace ChangeLedger

namespace Batch

variable {α : Type}

theorem findLast?_eq_none {b : Batch α} {p : α → Bool} :
    b.findLast? p = none ↔ ∀ a ∈ b.items, p a = false := by
  simp [findLast?, List.find?_eq_none]

theorem findLast?_eq_some {b : Batch α} {p : α → Bool} {a : α} (h : b.findLast? p = some a) :
    p a = true ∧ a ∈ b.items :=
  ⟨List.find?_some h, List.mem_reverse.1 (List.mem_of_find?_eq_some h)⟩

theorem replaceLast_eq_none_iff {p : α → Bool} {f : α → α} {l : List α} :
    replaceLast p f l = none ↔ ∀ a ∈ l, p a = false := by
  induction l with
  | nil => simp [replaceLast]
  | cons a rest ih =>
    simp only [replaceLast, List.mem_cons, forall_eq_or_imp]
    cases h : replaceLast p f rest with
    | some rest' =>
      have hne : ¬ ∀ x ∈ rest, p x = false := fun hall => by simp [ih.2 hall] at h
      simp [hne]
    | none =>
      have hall := ih.1 h
      cases hp : p a
      · simpa using hall
      · simp

theorem replaceLast_key_unique {l : List RowWrite} {w : RowWrite} (hnd : (l.map (·.key)).Nodup)
    (hmem : w.key ∈ l.map (·.key)) :
    replaceLast (fun p => p.key == w.key) (fun _ => w) l =
      some (l.map fun a => if a.key = w.key then w else a) := by
  induction l with
  | nil => simp at hmem
  | cons a rest ih =>
    rw [List.map_cons, List.nodup_cons] at hnd
    simp only [replaceLast, List.map_cons]
    by_cases hrest : w.key ∈ rest.map (·.key)
    · have ha : a.key ≠ w.key := fun he => hnd.1 (he ▸ hrest)
      rw [ih hnd.2 hrest]
      simp [ha]
    · have ha : a.key = w.key := by
        rcases List.mem_cons.1 (List.map_cons ▸ hmem) with h | h
        · exact h.symm
        · exact absurd h hrest
      have hnone : replaceLast (fun p => p.key == w.key) (fun _ => w) rest = none :=
        replaceLast_eq_none_iff.2 fun x hx => by
          have : x.key ≠ w.key := fun he => hrest (he ▸ List.mem_map_of_mem hx)
          simpa using this
      have hkeep : rest.map (fun x => if x.key = w.key then w else x) = rest :=
        (List.map_congr_left fun x hx => by
          have : x.key ≠ w.key := fun he => hrest (he ▸ List.mem_map_of_mem hx)
          simp [this]).trans (List.map_id' rest)
      simp [hnone, ha, hkeep]

theorem mem_of_replaceLast {p : α → Bool} {f : α → α} {l l' : List α}
    (h : replaceLast p f l = some l') {x : α} (hx : x ∈ l') : x ∈ l ∨ ∃ a ∈ l, x = f a := by
  induction l generalizing l' with
  | nil => cases h
  | cons a rest ih =>
    simp only [replaceLast] at h
    cases hr : replaceLast p f rest with
    | some rest' =>
      rw [hr, Option.some.injEq] at h
      subst h
      rcases List.mem_cons.1 hx with rfl | hx
      · exact .inl List.mem_cons_self
      · rcases ih hr hx with hx | ⟨b, hb, rfl⟩
        · exact .inl (List.mem_cons_of_mem _ hx)
        · exact .inr ⟨b, List.mem_cons_of_mem _ hb, rfl⟩
    | none =>
      simp only [hr] at h
      by_cases hp : p a = true
      · rw [if_pos hp, Option.some.injEq] at h
        subst h
        rcases List.mem_cons.1 hx with hxa | hx
        · exact .inr ⟨a, List.mem_cons_self, hxa⟩
        · exact .inl (List.mem_cons_of_mem _ hx)
      · rw [if_neg hp] at h
        cases h

end Batch

namespace Batcher

def insertKeys (q : Batcher) : List RecordKey := q.inserts.items.map (·.key)

def updateKeys (q : Batcher) : List RecordKey := q.updates.items.map (·.key)

/-- The table left by committing the insert queue and then the update queue. -/
def commitTo (q : Batcher) (t : Table) : Table :=
  (t.upsertAll q.inserts.items).rewriteAll q.updates.items

def flushTo (q : Batcher) (t : Table) (kind : BatchKind) (force : Bool) : Batcher × Table :=
  if q.isDue kind force then ((q.take kind).2, t.commit kind (q.take kind).1) else (q, t)

def insertTo (q : Batcher) (t : Table) (w : RowWrite) : Batcher × Table :=
  (q.enqueue .insert w).1.flushTo t .insert false

/-- An update on an existing table: folded into a queued insert, or queued and flushed if full. -/
def updateTo (q : Batcher) (t : Table) (w : RowWrite) : Batcher × Table :=
  match q.foldIntoInsert? w with
  | some q' => (q', t)
  | none => (q.enqueue .update w).1.flushTo t .update false

@[simp] theorem take_insert (q : Batcher) :
    q.take .insert = (q.inserts.items, { q with inserts := { q.inserts with items := [] } }) := rfl

@[simp] theorem take_update (q : Batcher) :
    q.take .update = (q.updates.items, { q with updates := { q.updates with items := [] } }) := rfl

@[simp] theorem enqueue_insert_fst (q : Batcher) (w : RowWrite) :
    (q.enqueue .insert w).1 = { q with inserts := q.inserts.push w } := rfl

@[simp] theorem enqueue_update_fst (q : Batcher) (w : RowWrite) :
    (q.enqueue .update w).1 = { q with updates := q.updates.push w } := rfl

@[simp] theorem insertKeys_with_updates (q : Batcher) (b : Batch RowWrite) :
    insertKeys { q with updates := b } = q.insertKeys := rfl

@[simp] theorem updateKeys_with_inserts (q : Batcher) (b : Batch RowWrite) :
    updateKeys { q with inserts := b } = q.updateKeys := rfl

theorem flushTo_of_due {q : Batcher} {t : Table} {kind : BatchKind} {force : Bool}
    (h : q.isDue kind force = true) :
    q.flushTo t kind force = ((q.take kind).2, t.commit kind (q.take kind).1) := by
  simp [flushTo, h]

theorem flushTo_of_not_due {q : Batcher} {t : Table} {kind : BatchKind} {force : Bool}
    (h : q.isDue kind force = false) : q.flushTo t kind force = (q, t) := by
  simp [flushTo, h]

@[simp] theorem insertKeys_push (q : Batcher) (w : RowWrite) :
    insertKeys { q with inserts := q.inserts.push w } = q.insertKeys ++ [w.key] := by
  simp [insertKeys]

@[simp] theorem updateKeys_push (q : Batcher) (w : RowWrite) :
    updateKeys { q with updates := q.updates.push w } = q.updateKeys ++ [w.key] := by
  simp [updateKeys]

theorem pendingRow_eq_none_iff {q : Batcher} {k : RecordKey} :
    q.pendingRow k = none ↔ k ∉ q.updateKeys ∧ k ∉ q.insertKeys := by
  have hu : q.updates.findLast? (fun w => w.key == k) = none ↔ k ∉ q.updateKeys := by
    simp [Batch.findLast?_eq_none, updateKeys]
  have hi : q.inserts.findLast? (fun w => w.key == k) = none ↔ k ∉ q.insertKeys := by
    simp [Batch.findLast?_eq_none, insertKeys]
  unfold pendingRow
  cases h : q.updates.findLast? (fun w => w.key == k) with
  | some u => simp [← hu, h]
  | none => simp [← hu, ← hi, h]

theorem foldIntoInsert?_eq_none_iff {q : Batcher} {w : RowWrite} :
    q.foldIntoInsert? w = none ↔ w.key ∉ q.insertKeys := by
  simp [foldIntoInsert?, Batch.modifyLast?, Batch.replaceLast_eq_none_iff, insertKeys]

theorem foldIntoInsert?_of_mem {q : Batcher} {w : RowWrite} (hnd : q.insertKeys.Nodup)
    (hmem : w.key ∈ q.insertKeys) :
    q.foldIntoInsert? w = some { q with inserts := { q.inserts with
      items := q.inserts.items.map fun a => if a.key = w.key then w else a } } := by
  simp [foldIntoInsert?, Batch.modifyLast?, Batch.replaceLast_key_unique hnd hmem]

theorem insertKeys_fold (q : Batcher) (w : RowWrite) :
    insertKeys { q with inserts := { q.inserts with
      items := q.inserts.items.map fun a => if a.key = w.key then w else a } } = q.insertKeys := by
  simp only [insertKeys, List.map_map]
  congr 1
  funext a
  by_cases h : a.key = w.key <;> simp [h]

/-! ## Coherent queues -/

/-- The queues agree with the table they will be committed to. -/
structure Coherent (q : Batcher) (t : Table) : Prop where
  inserts_nodup : q.insertKeys.Nodup
  disjoint : ∀ k ∈ q.insertKeys, k ∉ q.updateKeys
  updates_committed : ∀ k ∈ q.updateKeys, k ∈ t.keys

/-- Coherent queues whose inserts are all of keys the table does not have. -/
structure Fresh (q : Batcher) (t : Table) : Prop extends Coherent q t where
  inserts_new : ∀ k ∈ q.insertKeys, k ∉ t.keys

theorem Coherent.empty (limit : Nat) (t : Table) : (empty limit).Coherent t :=
  ⟨List.nodup_nil, fun _ h => by simp [insertKeys, Batcher.empty, Batch.empty] at h,
    fun _ h => by simp [updateKeys, Batcher.empty, Batch.empty] at h⟩

theorem Fresh.empty (limit : Nat) (t : Table) : (empty limit).Fresh t :=
  ⟨Coherent.empty limit t, fun _ h => by simp [insertKeys, Batcher.empty, Batch.empty] at h⟩

theorem Coherent.mono {q : Batcher} {t t' : Table} (h : q.Coherent t)
    (ht : ∀ k ∈ t.keys, k ∈ t'.keys) : q.Coherent t' :=
  ⟨h.inserts_nodup, h.disjoint, fun k hk => ht k (h.updates_committed k hk)⟩

theorem Coherent.flushTo {q : Batcher} {t : Table} (h : q.Coherent t) (kind : BatchKind)
    (force : Bool) : (q.flushTo t kind force).1.Coherent (q.flushTo t kind force).2 := by
  cases hd : q.isDue kind force
  · rw [flushTo_of_not_due hd]
    exact h
  · rw [flushTo_of_due hd]
    cases kind with
    | insert =>
      refine ⟨by simp [insertKeys], fun _ hk => by simp [insertKeys] at hk, fun k hk => ?_⟩
      exact Table.mem_keys_upsertAll.2 (Or.inl (h.updates_committed k hk))
    | update =>
      exact ⟨h.inserts_nodup, fun _ _ hk => by simp [updateKeys] at hk,
        fun _ hk => by simp [updateKeys] at hk⟩

theorem Fresh.flushTo {q : Batcher} {t : Table} (h : q.Fresh t) (kind : BatchKind)
    (force : Bool) : (q.flushTo t kind force).1.Fresh (q.flushTo t kind force).2 := by
  refine ⟨h.toCoherent.flushTo kind force, ?_⟩
  cases hd : q.isDue kind force
  · rw [flushTo_of_not_due hd]
    exact h.inserts_new
  · rw [flushTo_of_due hd]
    cases kind with
    | insert => exact fun _ hk => by simp [insertKeys] at hk
    | update => simpa [Table.commit] using h.inserts_new

theorem commitTo_flushTo {q : Batcher} {t : Table} (h : q.Coherent t) (kind : BatchKind)
    (force : Bool) : (q.flushTo t kind force).1.commitTo (q.flushTo t kind force).2 = q.commitTo t := by
  cases hd : q.isDue kind force
  · rw [flushTo_of_not_due hd]
  · rw [flushTo_of_due hd]
    cases kind with
    | insert => rfl
    | update =>
      simp only [commitTo, take_update, Table.commit, Table.rewriteAll_nil]
      refine (Table.rewriteAll_upsertAll_comm _ _ _ fun w hw u hu he => ?_).symm
      exact h.disjoint w.key (List.mem_map_of_mem hw) (he ▸ List.mem_map_of_mem hu)

/-! ## Inserts and updates -/

theorem Coherent.enqueue_insert {q : Batcher} {t : Table} (h : q.Coherent t) {w : RowWrite}
    (hi : w.key ∉ q.insertKeys) (hu : w.key ∉ q.updateKeys) :
    (q.enqueue .insert w).1.Coherent t := by
  refine ⟨?_, fun k hk => ?_, h.updates_committed⟩
  · simpa [List.nodup_append] using ⟨h.inserts_nodup, fun a ha he => hi (he ▸ ha)⟩
  · simp only [enqueue_insert_fst, insertKeys_push, List.mem_append, List.mem_singleton] at hk
    rcases hk with hk | rfl
    · exact h.disjoint k hk
    · exact hu

theorem Coherent.insertTo {q : Batcher} {t : Table} (h : q.Coherent t) {w : RowWrite}
    (hi : w.key ∉ q.insertKeys) (hu : w.key ∉ q.updateKeys) :
    (q.insertTo t w).1.Coherent (q.insertTo t w).2 :=
  (h.enqueue_insert hi hu).flushTo .insert false

theorem Fresh.insertTo {q : Batcher} {t : Table} (h : q.Fresh t) {w : RowWrite}
    (hi : w.key ∉ q.insertKeys) (hu : w.key ∉ q.updateKeys) (ht : w.key ∉ t.keys) :
    (q.insertTo t w).1.Fresh (q.insertTo t w).2 := by
  refine Fresh.flushTo ⟨h.toCoherent.enqueue_insert hi hu, fun k hk => ?_⟩ .insert false
  simp only [enqueue_insert_fst, insertKeys_push, List.mem_append, List.mem_singleton] at hk
  rcases hk with hk | rfl
  · exact h.inserts_new k hk
  · exact ht

/-- An insert of a key queued nowhere moves the committed table by that insert. -/
theorem commitTo_insertTo {q : Batcher} {t : Table} (h : q.Coherent t) {w : RowWrite}
    (hi : w.key ∉ q.insertKeys) (hu : w.key ∉ q.updateKeys) :
    (q.insertTo t w).1.commitTo (q.insertTo t w).2 = (q.commitTo t).upsert w := by
  rw [insertTo, commitTo_flushTo (h.enqueue_insert hi hu)]
  simp only [commitTo, enqueue_insert_fst, Batch.items_push, Table.upsertAll_append]
  exact Table.rewriteAll_upsertAll_comm _ [w] _ fun v hv u hu' he => by
    simp only [List.mem_singleton] at hv
    subst hv
    exact hu (he ▸ List.mem_map_of_mem hu')

theorem updateTo_cases {q : Batcher} {t : Table} (w : RowWrite) (hnd : q.insertKeys.Nodup) :
    (w.key ∈ q.insertKeys ∧ q.updateTo t w = ({ q with inserts := { q.inserts with
        items := q.inserts.items.map fun a => if a.key = w.key then w else a } }, t)) ∨
    (w.key ∉ q.insertKeys ∧ q.updateTo t w = (q.enqueue .update w).1.flushTo t .update false) := by
  by_cases hmem : w.key ∈ q.insertKeys
  · exact Or.inl ⟨hmem, by simp [updateTo, foldIntoInsert?_of_mem hnd hmem]⟩
  · exact Or.inr ⟨hmem, by simp [updateTo, foldIntoInsert?_eq_none_iff.2 hmem]⟩

theorem Coherent.enqueue_update {q : Batcher} {t : Table} (h : q.Coherent t) {w : RowWrite}
    (hi : w.key ∉ q.insertKeys) (ht : w.key ∈ t.keys) :
    (q.enqueue .update w).1.Coherent t := by
  refine ⟨h.inserts_nodup, fun k hk => ?_, fun k hk => ?_⟩
  · simp only [enqueue_update_fst, updateKeys_push, List.mem_append, List.mem_singleton, not_or]
    exact ⟨h.disjoint k hk, fun he => hi (he ▸ hk)⟩
  · simp only [enqueue_update_fst, updateKeys_push, List.mem_append, List.mem_singleton] at hk
    rcases hk with hk | rfl
    · exact h.updates_committed k hk
    · exact ht

theorem Coherent.updateTo {q : Batcher} {t : Table} (h : q.Coherent t) {w : RowWrite}
    (hw : w.key ∈ q.insertKeys ∨ w.key ∈ t.keys) :
    (q.updateTo t w).1.Coherent (q.updateTo t w).2 := by
  rcases updateTo_cases (t := t) w h.inserts_nodup with ⟨-, he⟩ | ⟨hi, he⟩
  · rw [he]
    exact ⟨by rw [insertKeys_fold]; exact h.inserts_nodup,
      fun k hk => by rw [insertKeys_fold] at hk; exact h.disjoint k hk, h.updates_committed⟩
  · rw [he]
    exact (h.enqueue_update hi (hw.resolve_left hi)).flushTo .update false

theorem Fresh.updateTo {q : Batcher} {t : Table} (h : q.Fresh t) {w : RowWrite}
    (hw : w.key ∈ q.insertKeys ∨ w.key ∈ t.keys) :
    (q.updateTo t w).1.Fresh (q.updateTo t w).2 := by
  refine ⟨h.toCoherent.updateTo hw, ?_⟩
  rcases updateTo_cases (t := t) w h.inserts_nodup with ⟨-, he⟩ | ⟨hi, he⟩
  · rw [he]
    intro k hk
    rw [insertKeys_fold] at hk
    exact h.inserts_new k hk
  · rw [he]
    exact (Fresh.flushTo ⟨h.toCoherent.enqueue_update hi (hw.resolve_left hi), h.inserts_new⟩
      .update false).inserts_new

/-- An update of a key the queues or the table know moves the committed table by that update. -/
theorem commitTo_updateTo {q : Batcher} {t : Table} (h : q.Fresh t) {w : RowWrite}
    (hw : w.key ∈ q.insertKeys ∨ w.key ∈ t.keys) :
    (q.updateTo t w).1.commitTo (q.updateTo t w).2 = (q.commitTo t).rewrite w := by
  have hc := h.toCoherent
  rcases updateTo_cases (t := t) w hc.inserts_nodup with ⟨hmem, he⟩ | ⟨hi, he⟩
  · -- the update takes the place of the queued insert of its key, which has no committed row
    rw [he]
    have hu : ∀ u ∈ q.updates.items, u.key ≠ w.key := fun u hu he' =>
      hc.disjoint w.key hmem (he' ▸ List.mem_map_of_mem hu)
    have hnd' : (insertKeys { q with inserts := { q.inserts with
        items := q.inserts.items.map fun a => if a.key = w.key then w else a } }).Nodup := by
      rw [insertKeys_fold]
      exact hc.inserts_nodup
    have hnew' : ∀ v ∈ (q.inserts.items.map fun a => if a.key = w.key then w else a),
        v.key ∉ t.keys := fun v hv => by
      have : v.key ∈ q.insertKeys := by
        rw [← insertKeys_fold q w]
        exact List.mem_map_of_mem hv
      exact h.inserts_new _ this
    simp only [commitTo]
    rw [Table.upsertAll_of_fresh hnd' hnew',
      Table.upsertAll_of_fresh hc.inserts_nodup fun v hv => h.inserts_new _ (List.mem_map_of_mem hv),
      Table.rewrite_rewriteAll_comm _ _ _ hu, Table.rewrite_append_rows,
      Table.rewrite_eq_modify t w, Table.modify_of_not_mem t (h.inserts_new _ hmem),
      Table.rewrite_map_toRow]
  · rw [he, commitTo_flushTo (hc.enqueue_update hi (hw.resolve_left hi))]
    simp [commitTo, Table.rewriteAll_append]

theorem insertTo_of_not_ready {q : Batcher} {t : Table} {w : RowWrite}
    (h : q.inserts.size + 1 < q.inserts.limit) :
    q.insertTo t w = ({ q with inserts := q.inserts.push w }, t) := by
  rw [insertTo, enqueue_insert_fst, flushTo_of_not_due]
  simp only [isDue, batch, Batch.isDue, Batch.isReady, Batch.size_push, Batch.limit_push,
    Bool.false_and, Bool.or_false, decide_eq_false_iff_not]
  omega

theorem updateTo_of_not_ready {q : Batcher} {t : Table} {w : RowWrite}
    (hi : w.key ∉ q.insertKeys) (h : q.updates.size + 1 < q.updates.limit) :
    q.updateTo t w = ({ q with updates := q.updates.push w }, t) := by
  rw [updateTo, foldIntoInsert?_eq_none_iff.2 hi]
  dsimp only
  rw [enqueue_update_fst, flushTo_of_not_due]
  simp only [isDue, batch, Batch.isDue, Batch.isReady, Batch.size_push, Batch.limit_push,
    Bool.false_and, Bool.or_false, decide_eq_false_iff_not]
  omega


/-! ## Every queued write -/

/-- Every queued write, insert or update, satisfies `P`. -/
def AllWrites (P : RowWrite → Prop) (q : Batcher) : Prop :=
  ∀ w, w ∈ q.inserts.items ∨ w ∈ q.updates.items → P w

namespace AllWrites

variable {P : RowWrite → Prop} {q : Batcher}

theorem empty (limit : Nat) : (Batcher.empty limit).AllWrites P := by
  intro w hw
  simp [Batcher.empty, Batch.empty] at hw

theorem take (h : q.AllWrites P) (kind : BatchKind) : ∀ w ∈ (q.take kind).1, P w := by
  intro w hw
  cases kind with
  | insert => exact h w (.inl hw)
  | update => exact h w (.inr hw)

theorem flushTo (h : q.AllWrites P) (t : Table) (kind : BatchKind) (force : Bool) :
    (q.flushTo t kind force).1.AllWrites P := by
  cases hd : q.isDue kind force
  · rw [flushTo_of_not_due hd]
    exact h
  · rw [flushTo_of_due hd]
    cases kind with
    | insert => exact fun w hw => h w (Or.inr (by simpa using hw))
    | update => exact fun w hw => h w (Or.inl (by simpa using hw))

theorem enqueue (h : q.AllWrites P) {w : RowWrite} (hw : P w) (kind : BatchKind) :
    (q.enqueue kind w).1.AllWrites P := by
  intro v hv
  cases kind with
  | insert =>
    simp only [enqueue_insert_fst, Batch.items_push, List.mem_append, List.mem_singleton] at hv
    rcases hv with (hv | rfl) | hv
    · exact h v (.inl hv)
    · exact hw
    · exact h v (.inr hv)
  | update =>
    simp only [enqueue_update_fst, Batch.items_push, List.mem_append, List.mem_singleton] at hv
    rcases hv with hv | hv | rfl
    · exact h v (.inl hv)
    · exact h v (.inr hv)
    · exact hw

theorem fold (h : q.AllWrites P) {w : RowWrite} (hw : P w) {q' : Batcher}
    (hf : q.foldIntoInsert? w = some q') : q'.AllWrites P := by
  simp only [foldIntoInsert?, Batch.modifyLast?, Option.map_map, Option.map_eq_some_iff] at hf
  obtain ⟨l', hl', rfl⟩ := hf
  intro v hv
  rcases hv with hv | hv
  · rcases Batch.mem_of_replaceLast hl' hv with hv | ⟨a, -, rfl⟩
    · exact h v (.inl hv)
    · exact hw
  · exact h v (.inr hv)

theorem insertTo (h : q.AllWrites P) (t : Table) {w : RowWrite} (hw : P w) :
    (q.insertTo t w).1.AllWrites P :=
  (h.enqueue hw .insert).flushTo t .insert false

theorem updateTo (h : q.AllWrites P) (t : Table) {w : RowWrite} (hw : P w) :
    (q.updateTo t w).1.AllWrites P := by
  unfold Batcher.updateTo
  cases hf : q.foldIntoInsert? w with
  | some q' => exact h.fold hw hf
  | none => exact (h.enqueue hw .update).flushTo t .update false

end AllWrites

end Batcher

/-! ## Store operations on an existing table -/

theorem Connection.prepare_of_table (c : Connection) (t : Table) (kind : BatchKind) :
    ∃ c', c.prepare ⟨some t⟩ kind = .ok c' := by
  unfold Connection.prepare
  split
  · exact ⟨c, rfl⟩
  · split <;> exact ⟨_, rfl⟩

namespace Store

/-- A lookup leaves the store as it was but for its connection. -/
theorem afterLookup_eq (s : Store) (db : Database) (k : RecordKey) :
    ∃ c, s.afterLookup db k = { s with conn := c } := by
  unfold afterLookup
  split
  · exact ⟨s.conn, rfl⟩
  · exact ⟨_, rfl⟩

@[simp] theorem lookup_withConn (s : Store) (c : Connection) :
    ({ s with conn := c } : Store).lookup = s.lookup := rfl

@[simp] theorem afterLookup_queues (s : Store) (db : Database) (k : RecordKey) :
    (s.afterLookup db k).queues = s.queues := by
  obtain ⟨c, hc⟩ := afterLookup_eq s db k
  rw [hc]

@[simp] theorem afterLookup_closed (s : Store) (db : Database) (k : RecordKey) :
    (s.afterLookup db k).closed = s.closed := by
  obtain ⟨c, hc⟩ := afterLookup_eq s db k
  rw [hc]

/-- A flush on an existing table always succeeds and does what `Batcher.flushTo` says. -/
theorem flush_of_table (s : Store) (t : Table) (kind : BatchKind) (force : Bool) :
    ∃ c, s.flush ⟨some t⟩ kind force = ⟨.ok (), { s with
      queues := (s.queues.flushTo t kind force).1, conn := c },
      ⟨some (s.queues.flushTo t kind force).2⟩⟩ := by
  cases hd : s.queues.isDue kind force
  · exact ⟨s.conn, by simp [flush, hd, Batcher.flushTo_of_not_due hd]⟩
  · obtain ⟨c, hc⟩ := s.conn.prepare_of_table t kind
    have happly := Database.applyAll_statement (show (⟨some t⟩ : Database).table = some t from rfl)
      kind (s.queues.take kind).1
    cases hr : (s.queues.take kind).1 with
    | nil =>
      refine ⟨c, ?_⟩
      cases kind <;> simp only [Batcher.take_insert, Batcher.take_update] at hr <;>
        simp [flush, hd, hc, hr, Batcher.flushTo_of_due hd, Table.commit, Table.upsertAll,
          Table.rewriteAll]
    | cons w ws =>
      refine ⟨c.refresh ⟨some t⟩, ?_⟩
      rw [hr] at happly
      simp [flush, hd, hc, hr, Batcher.flushTo_of_due hd, happly]

theorem insert_of_table (s : Store) (t : Table) (w : RowWrite) :
    ∃ c, s.insert ⟨some t⟩ w = ⟨.ok (), { s with
      queues := (s.queues.insertTo t w).1, conn := c }, ⟨some (s.queues.insertTo t w).2⟩⟩ :=
  flush_of_table { s with queues := (s.queues.enqueue .insert w).1 } t .insert false

theorem update_of_table (s : Store) (t : Table) (w : RowWrite) :
    ∃ c, s.update ⟨some t⟩ w = ⟨.ok (), { s with
      queues := (s.queues.updateTo t w).1, conn := c }, ⟨some (s.queues.updateTo t w).2⟩⟩ := by
  cases hf : s.queues.foldIntoInsert? w with
  | some q' => exact ⟨s.conn, by simp [update, hf, Batcher.updateTo]⟩
  | none =>
    obtain ⟨c, hc⟩ := flush_of_table { s with queues := (s.queues.enqueue .update w).1 } t .update false
    exact ⟨c, by simpa [update, hf, Batcher.updateTo] using hc⟩

/-- A key the store reports absent is queued nowhere and has no committed row. -/
theorem lookup_eq_ok_none {s : Store} {t : Table} {k : RecordKey}
    (h : s.lookup ⟨some t⟩ k = .ok none) :
    k ∉ s.queues.updateKeys ∧ k ∉ s.queues.insertKeys ∧ k ∉ t.keys := by
  unfold lookup at h
  cases hp : s.queues.pendingRow k with
  | some p =>
    obtain ⟨kind, tm⟩ := p
    cases kind with
    | insert => simp [hp] at h
    | update =>
      simp only [hp] at h
      split at h <;> simp at h
  | none =>
    obtain ⟨hu, hi⟩ := Batcher.pendingRow_eq_none_iff.1 hp
    refine ⟨hu, hi, Table.find?_eq_none_iff.1 ?_⟩
    simp only [hp, Database.times?, Database.rows] at h
    cases hf : t.find? k with
    | none => rfl
    | some r =>
      cases hr : r.times 0 <;> simp [hf, hr, Functor.map, Except.map, bind, Except.bind] at h

/-- A key the store reports present is queued or committed. -/
theorem lookup_eq_ok_some {s : Store} {t : Table} {k : RecordKey} {tm : RecordTimes}
    (h : s.lookup ⟨some t⟩ k = .ok (some tm)) :
    k ∈ s.queues.updateKeys ∨ k ∈ s.queues.insertKeys ∨ k ∈ t.keys := by
  unfold lookup at h
  cases hp : s.queues.pendingRow k with
  | some p =>
    have hne : s.queues.pendingRow k ≠ none := by simp [hp]
    rw [Ne, Batcher.pendingRow_eq_none_iff] at hne
    by_cases hu : k ∈ s.queues.updateKeys
    · exact Or.inl hu
    · exact Or.inr (Or.inl (Decidable.not_not.1 fun hi => hne ⟨hu, hi⟩))
  | none =>
    refine Or.inr (Or.inr (Table.find?_isSome_iff.1 ?_))
    simp only [hp, Database.times?, Database.rows] at h
    cases hf : t.find? k with
    | none => simp [hf, bind, Except.bind, pure, Except.pure] at h
    | some r => rfl

end Store

end ChangeLedger
