import ErrorBars.Proofs.Rows

/-!
# Columns and rows

What `rows` makes of a table depends on its lists.  The lengths that occur among them decide whether
there are rows at all: `Ragged` tables have none, a table without lists is its own single row, and
`Columns` have as many rows as their lists have items.  `Transposed` lists these outcomes.

As `rowEntry` has an answer beyond the end of a list too, the items of the rows are compared with
`item?`, which has none there.

`rows_transposed` is the main statement.  Two consequences are part of it.  The columns can be read
back from the rows; and a constant may as well be written down once for each row, because lists
count by their lengths only and `rows` looks at the set of these (`sortedLengths_congr`).
-/

set_option autoImplicit false

namespace ErrorBars

/-! ## The lengths that occur -/

/-- Some list of the table has this length. -/
def Occurs (n : Nat) (entries : List (Datum × Datum)) : Prop :=
  ∃ key items, (key, .list items) ∈ entries ∧ items.length = n

/-- Two lists of the table differ in length. -/
def Ragged (entries : List (Datum × Datum)) : Prop :=
  ∃ n m, n ≠ m ∧ Occurs n entries ∧ Occurs m entries

theorem mem_columnLengths {n : Nat} {entries : List (Datum × Datum)} :
    n ∈ columnLengths entries ↔ Occurs n entries := by
  rw [columnLengths_eq, List.mem_filterMap]
  constructor
  · rintro ⟨⟨key, d⟩, he, hn⟩
    cases d with
    | list items =>
      cases hn
      exact ⟨key, items, he, rfl⟩
    | _ => cases hn
  · rintro ⟨key, items, he, rfl⟩
    exact ⟨_, he, rfl⟩

/-- The lengths that occur, each of them once, in ascending order. -/
def sortedLengths (entries : List (Datum × Datum)) : List Nat :=
  (columnLengths entries).eraseDups.mergeSort (· ≤ ·)

theorem mem_sortedLengths {n : Nat} {entries : List (Datum × Datum)} :
    n ∈ sortedLengths entries ↔ Occurs n entries := by
  rw [sortedLengths, List.mem_mergeSort, List.mem_eraseDups, mem_columnLengths]

theorem pairwise_sortedLengths (entries : List (Datum × Datum)) :
    (sortedLengths entries).Pairwise (· < ·) := by
  have hle : (sortedLengths entries).Pairwise (· ≤ ·) := by
    refine (List.pairwise_mergeSort (fun a b c hab hbc => ?_) (fun a b => ?_) _).imp (by simp)
    · exact decide_eq_true (Nat.le_trans (of_decide_eq_true hab) (of_decide_eq_true hbc))
    · simpa using Nat.le_total a b
  have hne : (sortedLengths entries).Nodup :=
    (List.mergeSort_perm _ _).nodup_iff.2 (nodup_eraseDups _)
  exact hle.imp₂ (fun _ _ => Nat.lt_of_le_of_ne) hne

/-- Lists count by their lengths only, and by each of these once. -/
theorem sortedLengths_congr {entries entries' : List (Datum × Datum)}
    (h : ∀ n, Occurs n entries ↔ Occurs n entries') :
    sortedLengths entries = sortedLengths entries' := by
  have hperm : (sortedLengths entries).Perm (sortedLengths entries') := by
    refine (List.perm_ext_iff_of_nodup ?_ ?_).2 fun n => ?_
    · exact (pairwise_sortedLengths entries).imp Nat.ne_of_lt
    · exact (pairwise_sortedLengths entries').imp Nat.ne_of_lt
    · rw [mem_sortedLengths, mem_sortedLengths, h]
  refine hperm.eq_of_pairwise (fun a b _ _ hab hba => ?_)
    (pairwise_sortedLengths _) (pairwise_sortedLengths _)
  omega

/-! ## Three kinds of tables -/

theorem rows_of_ragged {entries : List (Datum × Datum)} (h : Ragged entries) :
    rows (.mapping entries) = .error (.lengths (sortedLengths entries)) := by
  obtain ⟨n, m, hne, hn, hm⟩ := h
  rw [← mem_columnLengths, ← List.mem_eraseDups] at hn hm
  rw [rows, tableRows, sortedLengths]
  split
  · rename_i hnil
    rw [hnil] at hn
    cases hn
  · rename_i l hone
    rw [hone, List.mem_singleton] at hn hm
    exact absurd (hn.trans hm.symm) hne
  · rfl

theorem rows_of_constants {entries : List (Datum × Datum)} (h : ∀ n, ¬ Occurs n entries) :
    rows (.mapping entries) = .ok [entries] := by
  have hnil : columnLengths entries = [] :=
    List.eq_nil_iff_forall_not_mem.2 fun n hn => h n (mem_columnLengths.1 hn)
  rw [rows, tableRows, hnil]
  rfl

theorem columns_iff {n : Nat} {entries : List (Datum × Datum)} :
    Columns n entries ↔ Occurs n entries ∧ ¬ Ragged entries := by
  constructor
  · intro h
    obtain ⟨key, items, hitems⟩ := h.some_list
    refine ⟨⟨key, items, hitems, h.length_eq key items hitems⟩, ?_⟩
    rintro ⟨l, m, hne, ⟨key, items, hl, rfl⟩, ⟨key', items', hm, rfl⟩⟩
    exact hne ((h.length_eq _ _ hl).trans (h.length_eq _ _ hm).symm)
  · rintro ⟨hn, hnot⟩
    obtain ⟨key, items, hitems, -⟩ := id hn
    refine ⟨⟨key, items, hitems⟩, fun key' items' hitems' => ?_⟩
    by_contra hne
    exact hnot ⟨_, n, hne, ⟨key', items', hitems', rfl⟩, hn⟩

/-! ## The items of the rows -/

/-- The item of a column in the `i`-th row: that of its list, or what is not a list. -/
def item? (i : Nat) : Datum → Option Datum
  | .list items => items[i]?
  | constant => some constant

/-- A row holds the keys of the table in their order, and under each of them the item that its
column has there. -/
def IsRow (entries : List (Datum × Datum)) (i : Nat) (cells : List (Datum × Datum)) : Prop :=
  List.Forall₂ (fun e cell => cell.1 = e.1 ∧ item? i e.2 = some cell.2) entries cells

/-- What becomes of a table. -/
inductive Transposed (entries : List (Datum × Datum)) :
    Except InputFault (List (List (Datum × Datum))) → Prop
  /-- lists differ in length; the fault tells the lengths, each of them once, in ascending order -/
  | ragged {found : List Nat} (differ : Ragged entries) (sorted : found.Pairwise (· < ·))
      (lengths : ∀ n, n ∈ found ↔ Occurs n entries) : Transposed entries (.error (.lengths found))
  /-- there is no list -/
  | constants (none : ∀ n, ¬ Occurs n entries) : Transposed entries (.ok [entries])
  /-- the lists have one length, and there are as many rows -/
  | columns {n : Nat} {table : List (List (Datum × Datum))} (columns : Columns n entries)
      (length_eq : table.length = n) (items : ∀ i (h : i < table.length), IsRow entries i table[i]) :
      Transposed entries (.ok table)

theorem Columns.isRow {n i : Nat} {entries : List (Datum × Datum)} (h : Columns n entries)
    (hi : i < n) : IsRow entries i (row entries i) := by
  rw [IsRow, row, List.forall₂_map_right_iff, List.forall₂_same]
  rintro ⟨key, d⟩ he
  refine ⟨rfl, ?_⟩
  cases d with
  | list items =>
    have hlength := h.length_eq key items he
    simp [item?, rowEntry, List.getElem?_eq_getElem (hlength ▸ hi)]
  | _ => rfl

theorem transposed (entries : List (Datum × Datum)) :
    Transposed entries (rows (.mapping entries)) := by
  by_cases hragged : Ragged entries
  · rw [rows_of_ragged hragged]
    exact .ragged hragged (pairwise_sortedLengths entries) fun n => mem_sortedLengths
  by_cases hlist : ∃ n, Occurs n entries
  · obtain ⟨n, hn⟩ := hlist
    have hcolumns := columns_iff.2 ⟨hn, hragged⟩
    rw [hcolumns.rows]
    refine .columns hcolumns (by simp) fun i hi => ?_
    rw [List.getElem_map, List.getElem_range]
    exact hcolumns.isRow (by simpa using hi)
  · rw [not_exists] at hlist
    rw [rows_of_constants hlist]
    exact .constants hlist

/-- A column with a list is read back from the rows, item by item. -/
theorem Columns.column_rows {n : Nat} {entries : List (Datum × Datum)} (h : Columns n entries)
    {k : Nat} {key : Datum} {items : List Datum} (hk : entries[k]? = some (key, .list items)) :
    ((List.range n).map (row entries)).map (·[k]?) = items.map fun item => some (key, item) := by
  have hlength := h.length_eq key items (List.mem_of_getElem? hk)
  refine List.ext_getElem (by simp [hlength]) fun i hi hi' => ?_
  rw [List.length_map] at hi'
  simp only [List.map_map, List.getElem_map, List.getElem_range, Function.comp, row,
    List.getElem?_map, hk, Option.map_some, rowEntry, List.getD_eq_getElem?_getD,
    List.getElem?_eq_getElem hi', Option.getD_some]

/-! ## Constants written out -/

section

variable {n k : Nat} {entries : List (Datum × Datum)} {key c : Datum}

/-- The table with its `k`-th entry written down `n` times. -/
def writtenOut (n k : Nat) (key c : Datum) (entries : List (Datum × Datum)) :
    List (Datum × Datum) :=
  entries.set k (key, .list (List.replicate n c))

theorem occurs_writtenOut (hk : entries[k]? = some (key, c)) (hc : ∀ items, c ≠ .list items)
    (hn : Occurs n entries) (m : Nat) : Occurs m (writtenOut n k key c entries) ↔ Occurs m entries := by
  have hlt : k < entries.length := (List.getElem?_eq_some_iff.1 hk).1
  constructor
  · rintro ⟨key', items, hmem, rfl⟩
    rcases List.mem_or_eq_of_mem_set hmem with hold | hnew
    · exact ⟨key', items, hold, rfl⟩
    · cases hnew
      rwa [List.length_replicate]
  · rintro ⟨key', items, hmem, rfl⟩
    obtain ⟨j, hj⟩ := List.mem_iff_getElem?.1 hmem
    have hjk : k ≠ j := by
      rintro rfl
      rw [hk] at hj
      exact hc items (Prod.mk.inj (Option.some.inj hj)).2
    refine ⟨key', items, List.mem_iff_getElem?.2 ⟨j, ?_⟩, rfl⟩
    rw [writtenOut, List.getElem?_set_ne hjk, hj]

theorem row_writtenOut (hk : entries[k]? = some (key, c)) (hc : ∀ items, c ≠ .list items)
    {i : Nat} (hi : i < n) : row (writtenOut n k key c entries) i = row entries i := by
  refine List.ext_getElem? fun j => ?_
  rw [row, row, List.getElem?_map, List.getElem?_map, writtenOut]
  by_cases hjk : k = j
  · subst hjk
    rw [List.getElem?_set_self (List.getElem?_eq_some_iff.1 hk).1, hk]
    simp [rowEntry, hi]
  · rw [List.getElem?_set_ne hjk]

theorem rows_writtenOut (hk : entries[k]? = some (key, c)) (hc : ∀ items, c ≠ .list items)
    (hn : Occurs n entries) :
    rows (.mapping (writtenOut n k key c entries)) = rows (.mapping entries) := by
  have hoccurs := occurs_writtenOut hk hc hn
  by_cases hragged : Ragged entries
  · have hragged' : Ragged (writtenOut n k key c entries) := by
      simpa only [Ragged, hoccurs] using hragged
    rw [rows_of_ragged hragged, rows_of_ragged hragged', sortedLengths_congr hoccurs]
  · have hcolumns := columns_iff.2 ⟨hn, hragged⟩
    have hcolumns' : Columns n (writtenOut n k key c entries) := by
      rw [columns_iff]
      simpa only [Ragged, hoccurs] using And.intro hn hragged
    rw [hcolumns.rows, hcolumns'.rows]
    congr 1
    exact List.map_congr_left fun i hi => row_writtenOut hk hc (List.mem_range.1 hi)

end

/-- **Columns become rows without loss.**  A table has no rows if two of its lists differ in length,
and the fault then tells the lengths; it is its own row if it has no list; and otherwise there are
as many rows as a list has items, each with the keys of the table in their order, the items of the
lists at its place and the constants as they are.  It is only for lists that differ in length that a
table is refused.

From the rows each list is read back, item by item.  And a constant may be written down as often as
a list of the table has items, which changes neither the rows nor the fault. -/
theorem rows_transposed (entries : List (Datum × Datum)) :
    Transposed entries (rows (.mapping entries)) ∧
    ((∃ fault, rows (.mapping entries) = .error fault) ↔ Ragged entries) ∧
    (∀ (table : List (List (Datum × Datum))) (k : Nat) (key : Datum) (items : List Datum),
      rows (.mapping entries) = .ok table → entries[k]? = some (key, .list items) →
      table.map (·[k]?) = items.map fun item => some (key, item)) ∧
    (∀ (n k : Nat) (key c : Datum), Occurs n entries → entries[k]? = some (key, c) →
      (∀ items, c ≠ .list items) →
      rows (.mapping (writtenOut n k key c entries)) = rows (.mapping entries)) := by
  refine ⟨transposed entries, ⟨?_, fun h => ⟨_, rows_of_ragged h⟩⟩, fun table k key items htable hk => ?_,
    fun n k key c hn hk hc => rows_writtenOut hk hc hn⟩
  · rintro ⟨fault, hfault⟩
    have h := transposed entries
    rw [hfault] at h
    cases h with
    | ragged differ _ _ => exact differ
  · have hlist : Occurs items.length entries := ⟨key, items, List.mem_of_getElem? hk, rfl⟩
    have hragged : ¬ Ragged entries := fun h => by
      rw [rows_of_ragged h] at htable
      cases htable
    have hcolumns := columns_iff.2 ⟨hlist, hragged⟩
    rw [hcolumns.rows] at htable
    cases htable
    exact hcolumns.column_rows hk

/-- A list with a list in it, and a pair, which is a constant. -/
def mixed : List (Datum × Datum) :=
  [(.text "x", .list [.number (.int 1), .list [.number (.int 2)]]),
    (.text "y", .tuple [.number (.int 3), .number (.int 4)])]

/-- The pair stands in both rows, and may be written down for each of them. -/
theorem rows_transposed_mixed :
    ∃ table, rows (.mapping mixed) = .ok table ∧
      table.map (·[0]?) = [some (.text "x", .number (.int 1)),
        some (.text "x", .list [.number (.int 2)])] ∧
      Occurs 2 mixed ∧
      rows (.mapping (writtenOut 2 1 (.text "y") (.tuple [.number (.int 3), .number (.int 4)])
        mixed)) = .ok table := by
  obtain ⟨-, -, hcolumn, hconstant⟩ := rows_transposed mixed
  have htable : rows (.mapping mixed) = .ok ((List.range 2).map (row mixed)) := rfl
  have hlist : Occurs 2 mixed := ⟨_, _, List.mem_cons_self, rfl⟩
  exact ⟨_, htable, hcolumn _ 0 _ _ htable rfl, hlist,
    (hconstant 2 1 _ _ hlist rfl (by simp)).trans htable⟩

end ErrorBars
