import ChangeLedger.Proofs.StoredTextOrder
/-! # Since-queries in time order

`Database.changedSince` and `Database.deletedSince` keep the rows whose time cell is greater, as
text, than the stored text of `since`, and sort them by that cell's text, then by id. When every
time cell holds nothing or the text of a valid instant with a four-digit year, and `since` is
such an instant too, text order is time order (`Instant.toStoredText_lt_iff`), and both queries
return exactly the rows that time order asks for: those of the namespace whose time is after
`since`, the earliest first, ids breaking ties (`since_queries_follow_time_order`).

Outside those years text and time part: a `since` in year 10000 is written `+10000-…`, which
sorts below every four-digit year, so every change in the namespace counts as later than it.
-/
namespace ChangeLedger

namespace Cell

/-- The cell holds the stored text of `i`, a valid instant with a four-digit year. -/
def Holds (c : Cell) (i : Instant) : Prop := i.FourDigitYear ∧ c = i.cell

/-- The cell holds nothing, or a time as the store writes it. -/
def HoldsTime (c : Cell) : Prop := c = .null ∨ ∃ i, c.Holds i

theorem isNull_iff {c : Cell} : c.isNull = true ↔ c = .null := by
  cases c <;> simp [isNull]

/-- A time cell is greater than the text of `since` exactly when it holds a later time. -/
theorem gtText_iff {c : Cell} (hc : c.HoldsTime) {since : Instant} (hs : since.FourDigitYear) :
    c.gtText since.toStoredText = true ↔ ∃ i, c.Holds i ∧ since < i := by
  rcases hc with rfl | ⟨i, hi, rfl⟩
  · simp [gtText, Holds, Instant.cell]
  · simp only [gtText, Instant.cell, decide_eq_true_eq]
    constructor
    · intro h
      exact ⟨i, ⟨hi, rfl⟩, (Instant.toStoredText_lt_iff hs hi).1 h⟩
    · rintro ⟨j, ⟨hj, hij⟩, hlt⟩
      have hji : i = j := (Instant.toStoredText_inj hi hj).1 (by simpa [Instant.cell] using hij)
      subst hji
      exact (Instant.toStoredText_lt_iff hs hi).2 hlt

end Cell

namespace Row

/-- Row `a` comes before row `b` by column `col`: both hold a time there, and `a`'s is earlier,
or the same with a smaller id. -/
def TimeBefore (col : TimeColumn) (a b : Row) : Prop :=
  ∃ x y, (a.cell col).Holds x ∧ (b.cell col).Holds y ∧ (x < y ∨ (x = y ∧ a.key.id < b.key.id))

def sortKey (col : TimeColumn) (r : Row) : String ×ₗ String :=
  toLex ((match r.cell col with
    | .text s => s
    | _ => ""), r.key.id)

def keyLe (col : TimeColumn) (a b : Row) : Bool := decide (a.sortKey col ≤ b.sortKey col)

theorem keyLe_trans (col : TimeColumn) :
    ∀ a b c : Row, keyLe col a b = true → keyLe col b c = true → keyLe col a c = true := by
  intro a b c hab hbc
  simp only [keyLe, decide_eq_true_eq] at hab hbc ⊢
  exact le_trans hab hbc

theorem keyLe_total (col : TimeColumn) : ∀ a b : Row, (keyLe col a b || keyLe col b a) = true := by
  intro a b
  simpa [keyLe] using le_total (a.sortKey col) (b.sortKey col)

@[simp] theorem mem_sortByColumn {col : TimeColumn} {rows : List Row} {r : Row} :
    r ∈ sortByColumn col rows ↔ r ∈ rows :=
  List.mem_mergeSort

theorem sortByColumn_eq {col : TimeColumn} {rows : List Row}
    (h : ∀ r ∈ rows, ∃ s, r.cell col = .text s) :
    sortByColumn col rows = rows.mergeSort (keyLe col) := by
  unfold sortByColumn
  rw [← List.map_id (rows.mergeSort _), List.map_mergeSort (s := keyLe col), List.map_id]
  intro a ha b hb
  obtain ⟨x, hx⟩ := h a ha
  obtain ⟨y, hy⟩ := h b hb
  simp only [id, keyLe, sortKey, hx, hy, Cell.compare, Prod.Lex.toLex_le_toLex]
  rcases lt_trichotomy x y with hxy | rfl | hxy
  · simp [compare_lt_iff_lt.2 hxy, hxy]
  · simp
  · simp [compare_gt_iff_gt.2 hxy, hxy.ne', not_lt_of_gt hxy]

theorem timeBefore_of_keyLe {col : TimeColumn} {a b : Row} {x y : Instant}
    (hx : (a.cell col).Holds x) (hy : (b.cell col).Holds y) (hle : keyLe col a b = true)
    (hne : a.key.id ≠ b.key.id) : TimeBefore col a b := by
  refine ⟨x, y, hx, hy, ?_⟩
  obtain ⟨hx, hxc⟩ := hx
  obtain ⟨hy, hyc⟩ := hy
  simp only [keyLe, sortKey, hxc, hyc, Instant.cell, decide_eq_true_eq,
    Prod.Lex.toLex_le_toLex] at hle
  rcases hle with hlt | ⟨heq, hid⟩
  · exact .inl ((Instant.toStoredText_lt_iff hx hy).1 hlt)
  · exact .inr ⟨(Instant.toStoredText_inj hx hy).1 heq, lt_of_le_of_ne hid hne⟩

/-- Rows with distinct ids that all hold a time in `col` are sorted by that time, then id. -/
theorem sortByColumn_pairwise {col : TimeColumn} {rows : List Row}
    (hids : (rows.map (·.key.id)).Nodup) (htimes : ∀ r ∈ rows, ∃ i, (r.cell col).Holds i) :
    (sortByColumn col rows).Pairwise (TimeBefore col) := by
  rw [sortByColumn_eq fun r hr => (htimes r hr).elim fun i hi => ⟨_, hi.2⟩]
  have hsorted := List.pairwise_mergeSort (keyLe_trans col) (keyLe_total col) rows
  have hdistinct : (rows.mergeSort (keyLe col)).Pairwise fun a b => a.key.id ≠ b.key.id :=
    List.pairwise_map.1 (((List.mergeSort_perm rows _).map _).nodup_iff.2 hids)
  refine (hsorted.and hdistinct).imp_of_mem fun ha hb ⟨hle, hne⟩ => ?_
  obtain ⟨x, hx⟩ := htimes _ (List.mem_mergeSort.1 ha)
  obtain ⟨y, hy⟩ := htimes _ (List.mem_mergeSort.1 hb)
  exact timeBefore_of_keyLe hx hy hle hne

end Row

theorem sortByColumn_filter_pairwise {t : Table} (hkeys : (t.map (·.key)).Nodup)
    {col : TimeColumn} (ns : String) {p : Row → Bool}
    (hp : ∀ r ∈ t, p r = true → r.key.ns = ns ∧ ∃ i, (r.cell col).Holds i) :
    (sortByColumn col (t.filter p)).Pairwise (Row.TimeBefore col) := by
  have hkept : ∀ r ∈ t.filter p, r.key.ns = ns ∧ ∃ i, (r.cell col).Holds i := fun r hr =>
    hp r (List.mem_filter.1 hr).1 (List.mem_filter.1 hr).2
  -- in one namespace, distinct keys are distinct ids
  have hids : ((t.filter p).map (·.key.id)).Nodup := by
    have hsub := (((List.filter_sublist (p := p) (l := t)).map (·.key)).nodup hkeys)
    have := hsub.map_on (f := RecordKey.id) fun k₁ hk₁ k₂ hk₂ hid => by
      obtain ⟨r₁, hr₁, rfl⟩ := List.mem_map.1 hk₁
      obtain ⟨r₂, hr₂, rfl⟩ := List.mem_map.1 hk₂
      have hns := (hkept r₁ hr₁).1.trans (hkept r₂ hr₂).1.symm
      cases h₁ : r₁.key
      cases h₂ : r₂.key
      simp_all
    simpa [Function.comp_def] using this
  exact Row.sortByColumn_pairwise hids fun r hr => (hkept r hr).2

/-- On a table with distinct keys and times written with four-digit years, the since-queries
return exactly the matching rows, ordered by time, then id. -/
theorem since_queries_follow_time_order {t : Table} (hkeys : (t.map (·.key)).Nodup)
    (hcells : ∀ r ∈ t, r.lastChange.HoldsTime ∧ r.deleted.HoldsTime)
    {since : Instant} (hs : since.FourDigitYear) (ns : String) (limit : Option Nat) :
    (∃ hits : List Row,
      (∀ r, r ∈ hits ↔ r ∈ t ∧ r.key.ns = ns ∧ r.deleted = .null ∧
        ∃ i, r.lastChange.Holds i ∧ since < i) ∧
      hits.Pairwise (Row.TimeBefore .lastChange) ∧
      ({ table := some t } : Database).changedSince ns since limit =
        readAll Row.record (limit.elim hits hits.take)) ∧
    (∃ hits : List Row,
      (∀ r, r ∈ hits ↔ r ∈ t ∧ r.key.ns = ns ∧ ∃ i, r.deleted.Holds i ∧ since < i) ∧
      hits.Pairwise (Row.TimeBefore .deleted) ∧
      ({ table := some t } : Database).deletedSince ns since = readAll Row.record hits) := by
  refine ⟨⟨sortByColumn .lastChange (t.filter fun r =>
      r.key.ns == ns && r.lastChange.gtText since.toStoredText && r.deleted.isNull), ?_, ?_, ?_⟩,
    ⟨sortByColumn .deleted
      (t.filter fun r => r.key.ns == ns && r.deleted.gtText since.toStoredText),
      ?_, ?_, rfl⟩⟩
  · intro r
    simp only [Row.mem_sortByColumn, List.mem_filter, Bool.and_eq_true, beq_iff_eq]
    constructor
    · rintro ⟨hr, ⟨hns, hgt⟩, hnull⟩
      exact ⟨hr, hns, Cell.isNull_iff.1 hnull, (Cell.gtText_iff (hcells r hr).1 hs).1 hgt⟩
    · rintro ⟨hr, hns, hnull, hlater⟩
      exact ⟨hr, ⟨hns, (Cell.gtText_iff (hcells r hr).1 hs).2 hlater⟩, Cell.isNull_iff.2 hnull⟩
  · refine sortByColumn_filter_pairwise hkeys ns fun r hr hp => ?_
    simp only [Bool.and_eq_true, beq_iff_eq] at hp
    obtain ⟨i, hi, -⟩ := (Cell.gtText_iff (hcells r hr).1 hs).1 hp.1.2
    exact ⟨hp.1.1, i, hi⟩
  · cases limit <;> rfl
  · intro r
    simp only [Row.mem_sortByColumn, List.mem_filter, Bool.and_eq_true, beq_iff_eq]
    constructor
    · rintro ⟨hr, hns, hgt⟩
      exact ⟨hr, hns, (Cell.gtText_iff (hcells r hr).2 hs).1 hgt⟩
    · rintro ⟨hr, hns, hlater⟩
      exact ⟨hr, hns, (Cell.gtText_iff (hcells r hr).2 hs).2 hlater⟩
  · refine sortByColumn_filter_pairwise hkeys ns fun r hr hp => ?_
    simp only [Bool.and_eq_true, beq_iff_eq] at hp
    obtain ⟨i, hi, -⟩ := (Cell.gtText_iff (hcells r hr).2 hs).1 hp.2
    exact ⟨hp.1, i, hi⟩

/-- A record changed on 2024-01-01 and never deleted, asked for since 2023-11-14. -/
theorem since_queries_on_one_row :
    (∃ hits : List Row,
      (∀ r, r ∈ hits ↔ r ∈ [⟨⟨"libA", "rec1"⟩, .null, .null, Instant.cell ⟨1704067200, 0⟩, .null⟩] ∧
        r.key.ns = "libA" ∧ r.deleted = .null ∧
        ∃ i, r.lastChange.Holds i ∧ (⟨1700000000, 0⟩ : Instant) < i) ∧
      hits.Pairwise (Row.TimeBefore .lastChange) ∧
      ({ table := some [⟨⟨"libA", "rec1"⟩, .null, .null, Instant.cell ⟨1704067200, 0⟩, .null⟩] } :
          Database).changedSince "libA" ⟨1700000000, 0⟩ none =
        readAll Row.record hits) ∧
    (∃ hits : List Row,
      (∀ r, r ∈ hits ↔ r ∈ [⟨⟨"libA", "rec1"⟩, .null, .null, Instant.cell ⟨1704067200, 0⟩, .null⟩] ∧
        r.key.ns = "libA" ∧ ∃ i, r.deleted.Holds i ∧ (⟨1700000000, 0⟩ : Instant) < i) ∧
      hits.Pairwise (Row.TimeBefore .deleted) ∧
      ({ table := some [⟨⟨"libA", "rec1"⟩, .null, .null, Instant.cell ⟨1704067200, 0⟩, .null⟩] } :
          Database).deletedSince "libA" ⟨1700000000, 0⟩ = readAll Row.record hits) :=
  since_queries_follow_time_order (by simp)
    (by
      simp only [List.mem_singleton, forall_eq]
      exact ⟨.inr ⟨_, ⟨⟨by decide, by decide, by decide⟩, by decide, by decide⟩, rfl⟩, .inl rfl⟩)
    ⟨⟨by decide, by decide, by decide⟩, by decide, by decide⟩ "libA" none

end ChangeLedger
