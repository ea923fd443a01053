import ChangeLedger.Proofs.WriteThrough
/-! # The deletion marker over any history

Three statements touch a row's deletion marker. A committed insert or update of the row clears
it. Marking a record deleted sets it to the mark's time unless the row already has one
(`Cell.orMark`), and reports whether the key has a row. Nothing else changes it, so no write of a
tracker or a store ever sets a marker.

`TableChange` is what the committed table sees from all of its writers together: a batch that
some tracker's or store's queue commits, or a deletion mark, in the order they happen. After any
such history (`TableChange.replay`) the row of a key is what the changes that do not write it
leave: the row as it was, with its marker followed by the first mark since
(`TableChange.find?_replay_of_unwritten`). So the marker is null after every write of the row,
and otherwise the time of the first mark since the last write, or the marker the row started
with (`deletion_marker_lifecycle`).
-/
namespace ChangeLedger

/-- The marker a cell holds after a first mark at `m`, if any: a marker already there stays. -/
def Cell.orMark : Cell → Option Instant → Cell
  | .null, some at_ => at_.cell
  | c, _ => c

@[simp] theorem Cell.orMark_none (c : Cell) : c.orMark none = c := by
  cases c <;> rfl

theorem Cell.orMark_orMark (c : Cell) (m₁ m₂ : Option Instant) :
    (c.orMark m₁).orMark m₂ = c.orMark (m₁.or m₂) := by
  cases c <;> cases m₁ <;> cases m₂ <;> rfl

def Row.mark (r : Row) (m : Option Instant) : Row := { r with deleted := r.deleted.orMark m }

@[simp] theorem Row.mark_none (r : Row) : r.mark none = r := by
  simp [Row.mark]

@[simp] theorem Row.mark_deleted (r : Row) (m : Option Instant) :
    (r.mark m).deleted = r.deleted.orMark m := rfl

theorem Row.mark_mark (r : Row) (m₁ m₂ : Option Instant) :
    (r.mark m₁).mark m₂ = r.mark (m₁.or m₂) := by
  simp [Row.mark, Cell.orMark_orMark]

namespace Table

/-- Marking a key deleted marks its row, by `COALESCE`. -/
theorem markDeleted_eq_modify (t : Table) (k : RecordKey) (at_ : Instant) :
    t.markDeleted k at_ = t.modify k (·.mark (some at_)) := by
  unfold markDeleted
  congr 1
  funext r
  cases r with
  | mk key first last change deleted => cases deleted <;> rfl

theorem find?_markDeleted (t : Table) (k k' : RecordKey) (at_ : Instant) :
    (t.markDeleted k at_).find? k' =
      if k' = k then (t.find? k).map (·.mark (some at_)) else t.find? k' := by
  rw [markDeleted_eq_modify]
  exact find?_modify t k k' _ fun _ => rfl

/-! ## A write clears the marker of its own row -/

theorem unmarked_upsert_self (t : Table) (w : RowWrite) : (t.upsert w).Unmarked w.key := by
  intro r hr
  cases hf : t.find? w.key with
  | none =>
    rw [upsert_of_find?_eq_none hf, find?_append_row, hf, Option.none_or, RowWrite.toRow_key,
      if_pos rfl] at hr
    cases hr
    rfl
  | some r₀ =>
    rw [upsert_of_find?_eq_some hf, find?_modify t w.key w.key (·.merge w) fun _ => rfl,
      if_pos rfl] at hr
    obtain ⟨r', -, rfl⟩ := Option.map_eq_some_iff.1 hr
    rfl

theorem unmarked_rewrite_self (t : Table) (w : RowWrite) : (t.rewrite w).Unmarked w.key := by
  intro r hr
  rw [find?_rewrite, if_pos rfl] at hr
  obtain ⟨r', -, rfl⟩ := Option.map_eq_some_iff.1 hr
  rfl

theorem unmarked_commit_of_mem {k : RecordKey} (kind : BatchKind) {ws : List RowWrite}
    (h : k ∈ ws.map (·.key)) (t : Table) : (t.commit kind ws).Unmarked k := by
  induction ws generalizing t with
  | nil => simp at h
  | cons w ws ih =>
    by_cases hrest : k ∈ ws.map (·.key)
    · cases kind with
      | insert => exact ih hrest (t.upsert w)
      | update => exact ih hrest (t.rewrite w)
    · -- the write of `k` is the first one, and the rest keep its row unmarked
      have hw : k = w.key := by simpa [hrest] using h
      subst hw
      cases kind with
      | insert => exact (t.unmarked_upsert_self w).commit .insert ws
      | update => exact (t.unmarked_rewrite_self w).commit .update ws

theorem find?_commit_of_not_mem {k : RecordKey} (kind : BatchKind) {ws : List RowWrite}
    (h : k ∉ ws.map (·.key)) (t : Table) : (t.commit kind ws).find? k = t.find? k := by
  have hne : ∀ w ∈ ws, w.key ≠ k := fun w hw he => h (he ▸ List.mem_map_of_mem hw)
  cases kind with
  | insert => exact Batcher.find?_upsertAll_of_not_mem t hne
  | update =>
    have hnone : ws.reverse.find? (·.key == k) = none :=
      List.find?_eq_none.2 fun w hw => by simpa using hne w (List.mem_reverse.1 hw)
    simp only [commit]
    rw [find?_rewriteAll, hnone]

end Table

theorem Database.markDeleted_of_table (t : Table) (k : RecordKey) (at_ : Instant) :
    (⟨some t⟩ : Database).markDeleted k at_ = .ok (⟨some (t.markDeleted k at_)⟩, decide (k ∈ t.keys)) := by
  have hb : (t.find? k).isSome = decide (k ∈ t.keys) := by
    rw [Bool.eq_iff_iff, Table.find?_isSome_iff, decide_eq_true_iff]
  show Except.ok (_, (t.find? k).isSome) = _
  rw [hb]

/-! ## Histories of changes -/

/-- A change of the committed table: a batch committed from some queue, or a deletion mark. -/
inductive TableChange
  | commit (kind : BatchKind) (ws : List RowWrite)
  | mark (key : RecordKey) (at_ : Instant)
  deriving Repr

namespace TableChange

def apply : TableChange → Table → Table
  | .commit kind ws, t => t.commit kind ws
  | .mark key at_, t => t.markDeleted key at_

/-- The table after the changes, in order. -/
def replay (changes : List TableChange) (t : Table) : Table :=
  changes.foldl (fun t e => e.apply t) t

def Writes (k : RecordKey) : TableChange → Prop
  | .commit _ ws => k ∈ ws.map (·.key)
  | .mark _ _ => False

def markOf? (k : RecordKey) : TableChange → Option Instant
  | .commit _ _ => none
  | .mark key at_ => if key = k then some at_ else none

/-- The time of the first mark of `k` among the changes. -/
def firstMark (k : RecordKey) (changes : List TableChange) : Option Instant :=
  changes.findSome? (markOf? k)

@[simp] theorem replay_nil (t : Table) : replay [] t = t := rfl

@[simp] theorem replay_cons (e : TableChange) (es : List TableChange) (t : Table) :
    replay (e :: es) t = replay es (e.apply t) := rfl

theorem replay_append (pre post : List TableChange) (t : Table) :
    replay (pre ++ post) t = replay post (replay pre t) := List.foldl_append

@[simp] theorem firstMark_nil (k : RecordKey) : firstMark k [] = none := rfl

theorem firstMark_cons (k : RecordKey) (e : TableChange) (es : List TableChange) :
    firstMark k (e :: es) = (e.markOf? k).or (firstMark k es) := by
  simp only [firstMark, List.findSome?_cons]
  cases e.markOf? k <;> rfl

theorem find?_apply_of_not_writes {k : RecordKey} {e : TableChange} (h : ¬ e.Writes k)
    (t : Table) : (e.apply t).find? k = (t.find? k).map (·.mark (e.markOf? k)) := by
  cases e with
  | commit kind ws =>
    simp only [apply, markOf?, Row.mark_none, Option.map_id']
    exact Table.find?_commit_of_not_mem kind h t
  | mark key at_ =>
    simp only [apply, markOf?, Table.find?_markDeleted]
    by_cases hk : key = k
    · subst hk
      simp
    · simp [hk, Ne.symm hk]

theorem unmarked_apply_of_writes {k : RecordKey} {e : TableChange} (h : e.Writes k)
    (t : Table) : (e.apply t).Unmarked k := by
  cases e with
  | commit kind ws => exact Table.unmarked_commit_of_mem kind h t
  | mark key at_ => exact h.elim

/-- Changes none of which writes `k` leave its row, with its marker, or the first mark since. -/
theorem find?_replay_of_unwritten {k : RecordKey} {changes : List TableChange}
    (h : ∀ e ∈ changes, ¬ e.Writes k) (t : Table) :
    (replay changes t).find? k = (t.find? k).map (·.mark (firstMark k changes)) := by
  induction changes generalizing t with
  | nil => simp
  | cons e es ih =>
    rw [replay_cons, ih (fun e' he' => h e' (List.mem_cons_of_mem _ he')),
      find?_apply_of_not_writes (h e List.mem_cons_self), Option.map_map, firstMark_cons]
    congr 1
    funext r
    exact Row.mark_mark r _ _

/-- After the last write of a row, its marker is null until the first mark since. -/
theorem marker_after_last_write {k : RecordKey} {pre post : List TableChange} {e : TableChange}
    (he : e.Writes k) (hpost : ∀ e' ∈ post, ¬ e'.Writes k) (t : Table) {r : Row}
    (hr : (replay (pre ++ e :: post) t).find? k = some r) :
    r.deleted = Cell.null.orMark (firstMark k post) := by
  rw [replay_append, replay_cons, find?_replay_of_unwritten hpost] at hr
  obtain ⟨r', hr', rfl⟩ := Option.map_eq_some_iff.1 hr
  rw [Row.mark_deleted, unmarked_apply_of_writes he _ r' hr']

end TableChange

open TableChange in
/-- Over any history of batches and marks, a written row's marker is null until the first mark
since, whose time it then keeps; no write sets a marker. -/
theorem deletion_marker_lifecycle (t₀ : Table) (changes : List TableChange) (k : RecordKey) :
    (∀ pre key at_ post, changes = pre ++ .mark key at_ :: post →
      (⟨some (replay pre t₀)⟩ : Database).markDeleted key at_ =
        .ok (⟨some (replay (pre ++ [.mark key at_]) t₀)⟩, decide (key ∈ (replay pre t₀).keys))) ∧
    (∀ pre e post, changes = pre ++ e :: post → e.Writes k → (∀ e' ∈ post, ¬ e'.Writes k) →
      ∀ r, (replay changes t₀).find? k = some r → r.deleted = Cell.null.orMark (firstMark k post)) ∧
    ((∀ e ∈ changes, ¬ e.Writes k) →
      ∀ r₀, t₀.find? k = some r₀ → ∃ r, (replay changes t₀).find? k = some r ∧
        r.deleted = r₀.deleted.orMark (firstMark k changes)) ∧
    ((∀ e ∈ changes, ¬ e.Writes k) → t₀.find? k = none → (replay changes t₀).find? k = none) := by
  refine ⟨fun pre key at_ post _ => ?_, fun pre e post hc he hpost r hr => ?_,
    fun h r₀ hr₀ => ?_, fun h hnone => ?_⟩
  · rw [replay_append]
    exact Database.markDeleted_of_table _ key at_
  · rw [hc] at hr
    exact marker_after_last_write he hpost t₀ hr
  · refine ⟨r₀.mark (firstMark k changes), ?_, rfl⟩
    rw [find?_replay_of_unwritten h, hr₀, Option.map_some]
  · rw [find?_replay_of_unwritten h, hnone, Option.map_none]

end ChangeLedger
