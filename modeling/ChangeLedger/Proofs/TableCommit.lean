import ChangeLedger.Store.Basic
/-! # Committing writes to the table

What a committed batch does to the table of tracked records: `Table.upsertAll` for a batch of
inserts and `Table.rewriteAll` for a batch of updates, each in queue order. A write touches the
row of its own key only, so writes to different keys commute (`Table.rewriteAll_upsertAll_comm`):
this is what lets the insert queue and the update queue be committed in either order. No write
removes a row, so a key once in the table stays there.

The time cells a write stores are read back through `Instant.ReadsBack`: reading the stored text
of an instant gives that instant back.
-/
namespace ChangeLedger

/-- Reading the stored text of an instant gives the instant back. -/
def Instant.ReadsBack (t : Instant) : Prop := Instant.ofStoredText t.toStoredText = .ok t

def RowWrite.ReadsBack (w : RowWrite) : Prop :=
  w.firstSeen.ReadsBack ∧ w.lastSeen.ReadsBack ∧ w.lastChanged.ReadsBack

/-- The row an update leaves: the three times of the write and no deletion marker. -/
def Row.overwrite (r : Row) (w : RowWrite) : Row :=
  { r with firstIndexed := w.firstSeen.cell, lastIndexed := w.lastSeen.cell,
           lastChange := w.lastChanged.cell, deleted := .null }

/-- The row an insert leaves on a key that already has one: its first-indexed time stays. -/
def Row.merge (r : Row) (w : RowWrite) : Row :=
  { r with lastIndexed := w.lastSeen.cell, lastChange := w.lastChanged.cell, deleted := .null }

@[simp] theorem Row.overwrite_key (r : Row) (w : RowWrite) : (r.overwrite w).key = r.key := rfl

@[simp] theorem Row.merge_key (r : Row) (w : RowWrite) : (r.merge w).key = r.key := rfl

@[simp] theorem Row.overwrite_overwrite (r : Row) (u w : RowWrite) :
    (r.overwrite u).overwrite w = r.overwrite w := rfl

@[simp] theorem RowWrite.toRow_key (w : RowWrite) : w.toRow.key = w.key := rfl

namespace Table

def keys (t : Table) : List RecordKey := t.map (·.key)

def upsertAll (t : Table) (ws : List RowWrite) : Table := ws.foldl upsert t

def rewriteAll (t : Table) (ws : List RowWrite) : Table := ws.foldl rewrite t

/-- Commit a batch of the given kind. -/
def commit (t : Table) : BatchKind → List RowWrite → Table
  | .insert, ws => t.upsertAll ws
  | .update, ws => t.rewriteAll ws

@[simp] theorem keys_append (t : Table) (r : Row) : keys (t ++ [r]) = t.keys ++ [r.key] := by
  simp [keys]

@[simp] theorem upsertAll_nil (t : Table) : t.upsertAll [] = t := rfl

@[simp] theorem upsertAll_cons (t : Table) (w : RowWrite) (ws : List RowWrite) :
    t.upsertAll (w :: ws) = (t.upsert w).upsertAll ws := rfl

@[simp] theorem rewriteAll_nil (t : Table) : t.rewriteAll [] = t := rfl

@[simp] theorem rewriteAll_cons (t : Table) (w : RowWrite) (ws : List RowWrite) :
    t.rewriteAll (w :: ws) = (t.rewrite w).rewriteAll ws := rfl

theorem upsertAll_append (t : Table) (ws vs : List RowWrite) :
    t.upsertAll (ws ++ vs) = (t.upsertAll ws).upsertAll vs := List.foldl_append

theorem rewriteAll_append (t : Table) (ws vs : List RowWrite) :
    t.rewriteAll (ws ++ vs) = (t.rewriteAll ws).rewriteAll vs := List.foldl_append

theorem rewrite_eq_modify (t : Table) (w : RowWrite) :
    t.rewrite w = t.modify w.key (·.overwrite w) := rfl

/-! ## Finding a key -/

theorem find?_eq_none_iff {t : Table} {k : RecordKey} : t.find? k = none ↔ k ∉ t.keys := by
  simp [find?, keys, List.find?_eq_none]

theorem find?_isSome_iff {t : Table} {k : RecordKey} : (t.find? k).isSome ↔ k ∈ t.keys := by
  rw [← Option.ne_none_iff_isSome, Ne, find?_eq_none_iff, Decidable.not_not]

theorem find?_append_row (t : Table) (r : Row) (k : RecordKey) :
    find? (t ++ [r]) k = (t.find? k).or (if r.key = k then some r else none) := by
  simp only [find?, List.find?_append, List.find?_cons, List.find?_nil]
  split <;> simp_all

theorem find?_modify (t : Table) (k k' : RecordKey) (f : Row → Row)
    (hf : ∀ r, (f r).key = r.key) :
    (t.modify k f).find? k' = if k' = k then (t.find? k).map f else t.find? k' := by
  have hp : ((fun r : Row => r.key == k') ∘ fun r => if r.key == k then f r else r) =
      fun r => r.key == k' := by
    funext r
    simp only [Function.comp_apply]
    split <;> simp [hf]
  simp only [modify, find?, List.find?_map, hp]
  cases h : List.find? (fun r => r.key == k') t with
  | none =>
    by_cases hk : k' = k
    · subst hk
      simp [h]
    · simp [hk]
  | some r =>
    have hr : r.key = k' := by simpa using List.find?_some h
    by_cases hk : k' = k
    · subst hk
      simp [h, hr]
    · simp [hk, hr]

theorem keys_modify (t : Table) (k : RecordKey) (f : Row → Row)
    (hf : ∀ r, r.key = k → (f r).key = r.key) : (t.modify k f).keys = t.keys := by
  simp only [keys, modify, List.map_map]
  congr 1
  funext r
  simp only [Function.comp_apply]
  split
  · rename_i hk
    exact hf r (by simpa using hk)
  · rfl

/-- Changes to the rows of two different keys commute. -/
theorem modify_comm (t : Table) {k k' : RecordKey} (hk : k ≠ k') (f g : Row → Row)
    (hf : ∀ r, (f r).key = r.key) (hg : ∀ r, (g r).key = r.key) :
    (t.modify k f).modify k' g = (t.modify k' g).modify k f := by
  simp only [modify, List.map_map]
  congr 1
  funext r
  simp only [Function.comp_apply]
  by_cases h₁ : r.key = k
  · have h₂ : r.key ≠ k' := h₁ ▸ hk
    simp [h₁, hf, hk]
  · by_cases h₂ : r.key = k'
    · simp [h₂, hg, hk.symm]
    · simp [h₁, h₂]

theorem modify_append_row (t : Table) (r : Row) {k : RecordKey} (hk : r.key ≠ k) (f : Row → Row) :
    modify (t ++ [r]) k f = t.modify k f ++ [r] := by
  simp [modify, hk]

theorem modify_of_not_mem (t : Table) {k : RecordKey} (h : k ∉ t.keys) (f : Row → Row) :
    t.modify k f = t := by
  induction t with
  | nil => rfl
  | cons r rs ih =>
    simp only [keys, List.map_cons, List.mem_cons, not_or] at h
    have hr : (r.key == k) = false := by simp [Ne.symm h.1]
    simp only [modify, List.map_cons, hr] at ih ⊢
    rw [ih h.2]
    rfl

/-! ## One write -/

theorem upsert_of_find?_eq_none {t : Table} {w : RowWrite} (h : t.find? w.key = none) :
    t.upsert w = t ++ [w.toRow] := by
  simp [upsert, h]

theorem upsert_of_find?_eq_some {t : Table} {w : RowWrite} {r : Row} (h : t.find? w.key = some r) :
    t.upsert w = t.modify w.key (·.merge w) := by
  simp only [upsert, h]
  rfl

theorem upsert_of_fresh {t : Table} {w : RowWrite} (h : w.key ∉ t.keys) :
    t.upsert w = t ++ [w.toRow] :=
  upsert_of_find?_eq_none (find?_eq_none_iff.2 h)

theorem find?_rewrite (t : Table) (w : RowWrite) (k : RecordKey) :
    (t.rewrite w).find? k = if k = w.key then (t.find? k).map (·.overwrite w) else t.find? k := by
  rw [rewrite_eq_modify, find?_modify t w.key k (·.overwrite w) fun _ => rfl]
  split
  · subst k
    rfl
  · rfl

@[simp] theorem keys_rewrite (t : Table) (w : RowWrite) : (t.rewrite w).keys = t.keys :=
  keys_modify t w.key (·.overwrite w) fun _ _ => rfl

theorem rewrite_comm (t : Table) {u w : RowWrite} (h : u.key ≠ w.key) :
    (t.rewrite u).rewrite w = (t.rewrite w).rewrite u := by
  simp only [rewrite_eq_modify]
  exact modify_comm t h (·.overwrite u) (·.overwrite w) (fun _ => rfl) fun _ => rfl

theorem rewrite_append_rows (t ts : Table) (w : RowWrite) :
    rewrite (t ++ ts) w = t.rewrite w ++ ts.rewrite w := by
  simp [rewrite_eq_modify, modify]

theorem mem_keys_upsert {t : Table} {w : RowWrite} {k : RecordKey} :
    k ∈ (t.upsert w).keys ↔ k ∈ t.keys ∨ k = w.key := by
  cases h : t.find? w.key with
  | none => simp [upsert_of_find?_eq_none h]
  | some r =>
    rw [upsert_of_find?_eq_some h, keys_modify t w.key (·.merge w) fun _ _ => rfl]
    have hw : w.key ∈ t.keys := find?_isSome_iff.1 (by simp [h])
    constructor
    · exact Or.inl
    · rintro (hk | rfl)
      · exact hk
      · exact hw

theorem keys_nodup_upsert {t : Table} (w : RowWrite) (h : t.keys.Nodup) :
    (t.upsert w).keys.Nodup := by
  cases hf : t.find? w.key with
  | none =>
    rw [upsert_of_find?_eq_none hf, keys_append, List.nodup_append]
    refine ⟨h, by simp, fun a ha b hb => ?_⟩
    rw [List.mem_singleton, RowWrite.toRow_key] at hb
    subst hb
    exact fun he => find?_eq_none_iff.1 hf (he ▸ ha)
  | some r =>
    rw [upsert_of_find?_eq_some hf, keys_modify t w.key (·.merge w) fun _ _ => rfl]
    exact h

theorem rewrite_upsert_comm (t : Table) {u w : RowWrite} (h : u.key ≠ w.key) :
    (t.upsert w).rewrite u = (t.rewrite u).upsert w := by
  have hfind : (t.rewrite u).find? w.key = t.find? w.key := by
    rw [find?_rewrite, if_neg (Ne.symm h)]
  cases hw : t.find? w.key with
  | none =>
    rw [upsert_of_find?_eq_none hw, upsert_of_find?_eq_none (hfind.trans hw), rewrite_eq_modify,
      rewrite_eq_modify, modify_append_row _ _ (Ne.symm h)]
  | some r =>
    rw [upsert_of_find?_eq_some hw, upsert_of_find?_eq_some (hfind.trans hw), rewrite_eq_modify,
      rewrite_eq_modify, modify_comm t (Ne.symm h) (·.merge w) (·.overwrite u) (fun _ => rfl)
        (fun _ => rfl)]

/-! ## Whole batches -/

theorem rewrite_upsertAll_comm (t : Table) (u : RowWrite) (ws : List RowWrite)
    (h : ∀ w ∈ ws, w.key ≠ u.key) :
    (t.upsertAll ws).rewrite u = (t.rewrite u).upsertAll ws := by
  induction ws generalizing t with
  | nil => rfl
  | cons w ws ih =>
    simp only [upsertAll_cons]
    rw [ih _ fun v hv => h v (List.mem_cons_of_mem _ hv),
      rewrite_upsert_comm _ (Ne.symm (h w List.mem_cons_self))]

/-- A batch of updates and a batch of inserts with no key in common commute. -/
theorem rewriteAll_upsertAll_comm (t : Table) (ws us : List RowWrite)
    (h : ∀ w ∈ ws, ∀ u ∈ us, w.key ≠ u.key) :
    (t.upsertAll ws).rewriteAll us = (t.rewriteAll us).upsertAll ws := by
  induction us generalizing t with
  | nil => rfl
  | cons u us ih =>
    simp only [rewriteAll_cons]
    rw [rewrite_upsertAll_comm _ _ _ fun w hw => h w hw u List.mem_cons_self,
      ih _ fun w hw v hv => h w hw v (List.mem_cons_of_mem _ hv)]

theorem rewrite_rewriteAll_comm (t : Table) (w : RowWrite) (us : List RowWrite)
    (h : ∀ u ∈ us, u.key ≠ w.key) :
    (t.rewriteAll us).rewrite w = (t.rewrite w).rewriteAll us := by
  induction us generalizing t with
  | nil => rfl
  | cons u us ih =>
    simp only [rewriteAll_cons]
    rw [ih _ fun v hv => h v (List.mem_cons_of_mem _ hv), rewrite_comm _ (h u List.mem_cons_self)]

/-- Inserts of distinct new keys append their rows. -/
theorem upsertAll_of_fresh {t : Table} {ws : List RowWrite} (hnd : (ws.map (·.key)).Nodup)
    (hf : ∀ w ∈ ws, w.key ∉ t.keys) : t.upsertAll ws = t ++ ws.map RowWrite.toRow := by
  induction ws generalizing t with
  | nil => simp
  | cons w ws ih =>
    rw [List.map_cons, List.nodup_cons] at hnd
    have hw := hf w List.mem_cons_self
    have hrest : ∀ v ∈ ws, v.key ∉ (t ++ [w.toRow]).keys := by
      intro v hv
      have hvw : v.key ≠ w.key := fun he => hnd.1 (he ▸ List.mem_map_of_mem hv)
      simpa [hvw] using hf v (List.mem_cons_of_mem _ hv)
    rw [upsertAll_cons, upsert_of_fresh hw, ih hnd.2 hrest]
    simp

@[simp] theorem keys_rewriteAll (t : Table) (ws : List RowWrite) : (t.rewriteAll ws).keys = t.keys := by
  induction ws generalizing t with
  | nil => rfl
  | cons w ws ih => rw [rewriteAll_cons, ih, keys_rewrite]

theorem mem_keys_upsertAll {t : Table} {ws : List RowWrite} {k : RecordKey} :
    k ∈ (t.upsertAll ws).keys ↔ k ∈ t.keys ∨ k ∈ ws.map (·.key) := by
  induction ws generalizing t with
  | nil => simp
  | cons w ws ih =>
    rw [upsertAll_cons, ih, mem_keys_upsert]
    simp only [List.map_cons, List.mem_cons, or_assoc]

theorem keys_nodup_upsertAll {t : Table} (ws : List RowWrite) (h : t.keys.Nodup) :
    (t.upsertAll ws).keys.Nodup := by
  induction ws generalizing t with
  | nil => exact h
  | cons w ws ih => exact ih (keys_nodup_upsert w h)

/-- After a batch of updates a key's row carries the newest update of that key, if any. -/
theorem find?_rewriteAll (t : Table) (us : List RowWrite) (k : RecordKey) :
    (t.rewriteAll us).find? k =
      match us.reverse.find? (·.key == k) with
      | some u => (t.find? k).map (·.overwrite u)
      | none => t.find? k := by
  induction us generalizing t with
  | nil => rfl
  | cons u us ih =>
    rw [rewriteAll_cons, ih, List.reverse_cons, List.find?_append, find?_rewrite]
    cases hl : us.reverse.find? (·.key == k) with
    | some v =>
      simp only [Option.some_or]
      split
      · simp [Option.map_map, Function.comp_def]
      · rfl
    | none =>
      simp only [Option.none_or, List.find?_cons, List.find?_nil]
      by_cases hk : u.key = k
      · subst k
        simp
      · have hb : (u.key == k) = false := by simp [hk]
        simp [hb, Ne.symm hk]

theorem rewrite_map_toRow (ws : List RowWrite) (w : RowWrite) :
    rewrite (ws.map RowWrite.toRow) w =
      (ws.map fun a => if a.key = w.key then w else a).map RowWrite.toRow := by
  simp only [rewrite_eq_modify, modify, List.map_map]
  congr 1
  funext a
  by_cases h : a.key = w.key
  · have hw : a.toRow.overwrite w = w.toRow := by
      cases a
      cases w
      simp only at h
      subst h
      rfl
    simp [h, hw]
  · simp [h]

theorem mem_keys_commit {t : Table} {kind : BatchKind} {ws : List RowWrite} {k : RecordKey}
    (h : k ∈ t.keys) : k ∈ (t.commit kind ws).keys := by
  cases kind with
  | insert => exact mem_keys_upsertAll.2 (Or.inl h)
  | update => simpa [commit] using h

theorem keys_nodup_commit {t : Table} (kind : BatchKind) (ws : List RowWrite) (h : t.keys.Nodup) :
    (t.commit kind ws).keys.Nodup := by
  cases kind with
  | insert => exact keys_nodup_upsertAll ws h
  | update => simpa [commit] using h

end Table

/-! ## Reading written cells back -/

theorem Instant.cell_toInstant? {t : Instant} (h : t.ReadsBack) (i : Nat) (col : TimeColumn) :
    t.cell.toInstant? i col = .ok (some t) := by
  simp only [Instant.cell, Cell.toInstant?]
  rw [h]

@[simp] theorem Cell.null_toInstant? (i : Nat) (col : TimeColumn) :
    Cell.null.toInstant? i col = .ok none := rfl

theorem RowWrite.toRow_times {w : RowWrite} (h : w.ReadsBack) (base : Nat) :
    w.toRow.times base = .ok w.times := by
  obtain ⟨h₁, h₂, h₃⟩ := h
  simp only [Row.times, Row.cell, RowWrite.toRow, Instant.cell_toInstant? h₁,
    Instant.cell_toInstant? h₂, Instant.cell_toInstant? h₃, Cell.null_toInstant?]
  rfl

theorem Row.overwrite_times (r : Row) {w : RowWrite} (h : w.ReadsBack) (base : Nat) :
    (r.overwrite w).times base = .ok w.times := by
  obtain ⟨h₁, h₂, h₃⟩ := h
  simp only [Row.times, Row.cell, Row.overwrite, Instant.cell_toInstant? h₁,
    Instant.cell_toInstant? h₂, Instant.cell_toInstant? h₃, Cell.null_toInstant?]
  rfl

/-- Reading a row's times reads each of its four cells. -/
theorem Row.times_eq_ok {r : Row} {base : Nat} {tm : RecordTimes} (h : r.times base = .ok tm) :
    r.firstIndexed.toInstant? base .firstIndexed = .ok tm.firstSeen ∧
      r.lastIndexed.toInstant? (base + 1) .lastIndexed = .ok tm.lastSeen ∧
      r.lastChange.toInstant? (base + 2) .lastChange = .ok tm.lastChanged ∧
      r.deleted.toInstant? (base + 3) .deleted = .ok tm.deletedAt := by
  simp only [Row.times, Row.cell] at h
  cases h₁ : r.firstIndexed.toInstant? base .firstIndexed <;>
    cases h₂ : r.lastIndexed.toInstant? (base + 1) .lastIndexed <;>
    cases h₃ : r.lastChange.toInstant? (base + 2) .lastChange <;>
    cases h₄ : r.deleted.toInstant? (base + 3) .deleted <;>
    simp only [h₁, h₂, h₃, h₄, bind, Except.bind, pure, Except.pure, reduceCtorEq,
      Except.ok.injEq] at h
  subst h
  exact ⟨rfl, rfl, rfl, rfl⟩

theorem Cell.eq_null_of_toInstant? {c : Cell} {i : Nat} {col : TimeColumn}
    (h : c.toInstant? i col = .ok none) : c = .null := by
  cases c with
  | null => rfl
  | text s =>
    simp only [Cell.toInstant?] at h
    split at h <;> simp at h
  | _ => simp [Cell.toInstant?] at h

theorem Cell.toInstant?_index {c : Cell} {i : Nat} {col : TimeColumn} {v : Option Instant}
    (h : c.toInstant? i col = .ok v) (j : Nat) (col' : TimeColumn) : c.toInstant? j col' = .ok v := by
  cases c with
  | null => exact h
  | text s =>
    simp only [Cell.toInstant?] at h ⊢
    split at h <;> simp_all
  | _ => simp [Cell.toInstant?] at h
/-! ## Committing through the database -/

namespace Database

theorem applyAll_upsert {db : Database} {t : Table} (h : db.table = some t) (ws : List RowWrite) :
    db.applyAll Database.upsert ws = .ok ⟨some (t.upsertAll ws)⟩ := by
  induction ws generalizing db t with
  | nil => cases db; cases h; rfl
  | cons w ws ih =>
    have hstep : db.upsert w = .ok ⟨some (t.upsert w)⟩ := by
      rw [Database.upsert, Database.update, Database.rows, h]
      rfl
    simp only [applyAll, hstep]
    exact ih rfl

theorem applyAll_rewrite {db : Database} {t : Table} (h : db.table = some t) (ws : List RowWrite) :
    db.applyAll Database.rewrite ws = .ok ⟨some (t.rewriteAll ws)⟩ := by
  induction ws generalizing db t with
  | nil => cases db; cases h; rfl
  | cons w ws ih =>
    have hstep : db.rewrite w = .ok ⟨some (t.rewrite w)⟩ := by
      rw [Database.rewrite, Database.update, Database.rows, h]
      rfl
    simp only [applyAll, hstep]
    exact ih rfl

/-- A batch run through its statement commits it to the table, when the table exists. -/
theorem applyAll_statement {db : Database} {t : Table} (h : db.table = some t) (kind : BatchKind)
    (ws : List RowWrite) : db.applyAll (Store.statement kind) ws = .ok ⟨some (t.commit kind ws)⟩ := by
  cases kind with
  | insert => exact applyAll_upsert h ws
  | update => exact applyAll_rewrite h ws

end Database

end ChangeLedger
