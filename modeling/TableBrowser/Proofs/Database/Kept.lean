import TableBrowser.Database.Term
import TableBrowser.Proofs.Database.CellOrder

/-!
# Kept tables

A column keeps its cells in the form of its affinity, and a column that numbers the rows
holds their numbers.  Tables are made and filled so.  What a word of a clause refers to
in a row of such a table is then told by what it seeks alone, and rows of which a column
equals the same constant have cells there that compare equal.
-/

namespace TableBrowser.Database

open TableBrowser.Sql

/-! ## Stored cells -/

/-- A cell that is left as it is where its column is compared with something. -/
structure IsStored (affinity : Affinity) (cell : Cell) : Prop where
  number : affinity.isNumeric = true → Affinity.numberIfText cell = cell
  text : affinity = .text → Affinity.textIfNumber cell = cell

theorem isStored_null (affinity : Affinity) : IsStored affinity .null :=
  ⟨fun _ => rfl, fun _ => rfl⟩

theorem isStored_none (cell : Cell) : IsStored .none cell :=
  ⟨nofun, nofun⟩

theorem isStored_integer (value : Int) : IsStored .integer (.integer value) :=
  ⟨fun _ => rfl, nofun⟩

/-- Whether a cell is a number. -/
def Cell.isNumber : Cell → Bool
  | .integer _ | .real _ => true
  | _ => false

theorem isNumber_toCell (numeral : Numeral) : numeral.toCell.isNumber = true := by
  unfold Numeral.toCell
  split <;> rfl

theorem isNumber_of_numberOfText? {t : Text} {cell : Cell}
    (hread : numberOfText? t = some cell) : cell.isNumber = true := by
  simp only [numberOfText?] at hread
  split at hread
  all_goals
    split at hread
    · cases hread
    · split at hread
      · cases hread
        exact isNumber_toCell _
      · split at hread
        · obtain ⟨exponent, -, rfl⟩ := Option.map_eq_some_iff.mp hread
          exact isNumber_toCell _
        · cases hread

theorem numberIfText_of_isNumber {cell : Cell} (hnumber : cell.isNumber = true) :
    Affinity.numberIfText cell = cell := by
  cases cell with
  | integer | real => rfl
  | null | text | blob => cases hnumber

theorem textIfNumber_textIfNumber (cell : Cell) :
    Affinity.textIfNumber (Affinity.textIfNumber cell) = Affinity.textIfNumber cell := by
  cases cell <;> rfl

theorem isNumber_wholeIfReal {cell : Cell} (hnumber : cell.isNumber = true) :
    (Affinity.wholeIfReal cell).isNumber = true := by
  cases cell with
  | real value =>
      rw [Affinity.wholeIfReal, wholeIfExact]
      split
      · split <;> rfl
      · rfl
  | integer value => rfl
  | null | text | blob => cases hnumber

/-- What text that is no number is left as is still no number after conversions that only
change numbers. -/
theorem numberIfText_convert (convert : Cell → Cell)
    (hnumber : ∀ cell : Cell, cell.isNumber = true → (convert cell).isNumber = true)
    (hother : ∀ cell : Cell, cell.isNumber = false → convert cell = cell) (cell : Cell) :
    Affinity.numberIfText (convert (Affinity.numberIfText cell)) =
      convert (Affinity.numberIfText cell) := by
  cases hcell : (Affinity.numberIfText cell).isNumber with
  | true => exact numberIfText_of_isNumber (hnumber _ hcell)
  | false =>
      rw [hother _ hcell]
      cases cell with
      | text value =>
          cases hread : numberOfText? value with
          | some number =>
              rw [Affinity.numberIfText, hread, Option.getD_some,
                isNumber_of_numberOfText? hread] at hcell
              cases hcell
          | none =>
              have hsame : Affinity.numberIfText (.text value) = .text value := by
                rw [Affinity.numberIfText, hread, Option.getD_none]
              rw [hsame, hsame]
      | null | integer | real | blob => rfl

theorem numberIfText_wholeIfReal (cell : Cell) :
    Affinity.numberIfText (Affinity.wholeIfReal (Affinity.numberIfText cell)) =
      Affinity.wholeIfReal (Affinity.numberIfText cell) := by
  refine numberIfText_convert Affinity.wholeIfReal (fun _ => isNumber_wholeIfReal)
    (fun cell hother => ?_) cell
  cases cell with
  | real value => cases hother
  | null | integer | text | blob => rfl

theorem numberIfText_realIfWhole (cell : Cell) :
    Affinity.numberIfText (Affinity.realIfWhole
        (Affinity.wholeIfReal (Affinity.numberIfText cell))) =
      Affinity.realIfWhole (Affinity.wholeIfReal (Affinity.numberIfText cell)) := by
  refine numberIfText_convert (fun cell => Affinity.realIfWhole (Affinity.wholeIfReal cell))
    (fun cell hnumber => ?_) (fun cell hother => ?_) cell
  · have hwhole := isNumber_wholeIfReal hnumber
    cases hcell : Affinity.wholeIfReal cell with
    | integer | real => rfl
    | null | text | blob =>
        rw [hcell] at hwhole
        cases hwhole
  · cases cell with
    | integer | real => cases hother
    | null | text | blob => rfl

/-- A column keeps a cell in a form that is left as it is. -/
theorem isStored_store (affinity : Affinity) (cell : Cell) :
    IsStored affinity (affinity.store cell) := by
  cases affinity with
  | none => exact isStored_none _
  | text => exact ⟨nofun, fun _ => textIfNumber_textIfNumber _⟩
  | numeric => exact ⟨fun _ => numberIfText_wholeIfReal _, nofun⟩
  | integer => exact ⟨fun _ => numberIfText_wholeIfReal _, nofun⟩
  | real => exact ⟨fun _ => numberIfText_realIfWhole _, nofun⟩

/-! ## Equal to a constant -/

/-- A constant as a column of an affinity is compared with it. -/
def convertedBy (affinity : Affinity) (constant : Cell) : Cell :=
  if affinity.isNumeric then Affinity.numberIfText constant
  else if affinity = .text then Affinity.textIfNumber constant
  else constant

theorem textIfNumber_of_key_eq {cell constant : Cell} (hcell : Affinity.textIfNumber cell = cell)
    (hkey : cell.key = constant.key) : Affinity.textIfNumber constant = constant := by
  have hkind : cell.kindRank = constant.kindRank := congrArg (fun key => (ofLex key).1) hkey
  cases constant with
  | null | text | blob => rfl
  | integer | real =>
      cases cell with
      | integer | real => cases hcell
      | null | text | blob => cases hkind

/-- Next to a stored text the constant is converted, if text takes part at all. -/
theorem reconcile_text {cell : Cell} (hcell : Affinity.textIfNumber cell = cell)
    (constant : Cell) :
    Affinity.reconcile .text .none cell constant = (cell, Affinity.textIfNumber constant) ∨
      Affinity.reconcile .text .none cell constant = (cell, constant) := by
  unfold Affinity.reconcile
  rw [if_neg (by decide), if_pos (by decide)]
  split
  · exact Or.inl (by rw [hcell])
  · exact Or.inl (by rw [hcell])
  · exact Or.inr rfl

/-- A stored cell that equals a constant compares equal with what the constant is converted
to by the column. -/
theorem key_eq_of_compareCells {affinity : Affinity} {cell constant : Cell}
    (hstored : IsStored affinity cell)
    (htrue : compareCells .equal affinity cell constant = some true) :
    cell.key = (convertedBy affinity constant).key := by
  simp only [compareCells] at htrue
  split at htrue
  · cases htrue
  rw [Option.some.injEq, satisfies, Cell.order_isEq_iff] at htrue
  have hnumber : affinity.isNumeric = true →
      Affinity.reconcile affinity .none cell constant =
        (cell, Affinity.numberIfText constant) := by
    intro hnumeric
    unfold Affinity.reconcile
    rw [hnumeric, Bool.true_or, if_pos rfl, hstored.number hnumeric]
  cases affinity with
  | none => exact htrue
  | text =>
      have hcell := hstored.text rfl
      rcases reconcile_text hcell constant with hpair | hpair
      · rw [hpair] at htrue
        exact htrue
      · rw [hpair] at htrue
        exact htrue.trans (by rw [convertedBy, if_neg (by decide), if_pos rfl,
          textIfNumber_of_key_eq hcell htrue])
  | numeric | integer | real =>
      rw [hnumber rfl] at htrue
      exact htrue

/-! ## Tables -/

/-- A table with its cells as its columns keep them, and with its rows numbered from one by
the column that numbers them. -/
structure Table.IsKept (table : Table) : Prop where
  rows_lt : table.rows.length < integerBound
  stored : ∀ row ∈ table.rows, ∀ (place : Nat) (column : Column),
    table.columns[place]? = some column →
      IsStored (.ofType column.type) ((row[place]?).getD .null)
  numbered : ∀ (place : Nat) (column : Column), table.columns[place]? = some column →
    table.numbered? = some column.name →
      Affinity.ofType column.type = .integer ∧
        ∀ (index : Nat) (row : Row), table.rows[index]? = some row →
          row[place]? = some (.integer (index + 1 : Nat))

namespace Table

/-- A table without rows is kept if the column that numbers them holds whole numbers. -/
theorem isKept_empty (name : Text) {columns : List Column} {numbered? : Option Text}
    (hnumbered : ∀ column ∈ columns, numbered? = some column.name →
      Affinity.ofType column.type = .integer) :
    (Table.mk name columns [] numbered?).IsKept where
  rows_lt := of_decide_eq_true rfl
  stored := nofun
  numbered := fun _ column hcolumn hname =>
    ⟨hnumbered column (List.mem_of_getElem? hcolumn) hname, nofun⟩

/-- The cell of a stored row in a column. -/
theorem storedRow_getElem? {table : Table} {place : Nat} {column : Column}
    (hcolumn : table.columns[place]? = some column) (names : List Text) (number : Nat)
    (cells : Row) :
    (table.storedRow names number cells)[place]? = some
      (match given? names cells column with
        | some cell => (Affinity.ofType column.type).store cell
        | none => if table.numbered? = some column.name then .integer number else .null) := by
  rw [storedRow, List.getElem?_map, hcolumn]
  rfl

theorem given?_eq_none {names : List Text} {column : Column}
    (hunnamed : ∀ name ∈ names, Text.sameLetters name column.name = false) (cells : Row) :
    given? names cells column = none := by
  rw [given?, Option.map_eq_none_iff, List.find?_eq_none]
  rintro ⟨name, cell⟩ hmem
  rw [hunnamed name (List.of_mem_zip hmem).1]
  exact Bool.false_ne_true

/-- Rows that are put into a kept table are kept, unless they give the numbers
themselves. -/
theorem IsKept.insert {table : Table} (hkept : table.IsKept) {names : List Text}
    {rows : List Row} (hrows : table.rows.length + rows.length < integerBound)
    (hunnamed : ∀ column ∈ table.columns, table.numbered? = some column.name →
      ∀ name ∈ names, Text.sameLetters name column.name = false) :
    (table.insert names rows).IsKept where
  rows_lt := by simpa [Table.insert] using hrows
  stored := by
    intro row hmem place column hcolumn
    replace hcolumn : table.columns[place]? = some column := hcolumn
    rcases List.mem_append.mp hmem with hold | hnew
    · exact hkept.stored row hold place column hcolumn
    · obtain ⟨⟨cells, index⟩, -, rfl⟩ := List.mem_map.mp hnew
      dsimp only
      rw [storedRow_getElem? hcolumn, Option.getD_some]
      split
      · exact isStored_store _ _
      · split
        · next hnumbered =>
            rw [(hkept.numbered place column hcolumn hnumbered).1]
            exact isStored_integer _
        · exact isStored_null _
  numbered := by
    intro place column hcolumn hnumbered
    replace hcolumn : table.columns[place]? = some column := hcolumn
    replace hnumbered : table.numbered? = some column.name := hnumbered
    obtain ⟨haffinity, hold⟩ := hkept.numbered place column hcolumn hnumbered
    refine ⟨haffinity, fun index row hrow => ?_⟩
    have hgiven := given?_eq_none (hunnamed column (List.mem_of_getElem? hcolumn) hnumbered)
    -- An old row keeps its number, and the new ones are numbered behind the old ones.
    by_cases hindex : index < table.rows.length
    · refine hold index row ?_
      rwa [Table.insert, List.getElem?_append_left hindex] at hrow
    · rw [Table.insert, List.getElem?_append_right (Nat.le_of_not_lt hindex), List.getElem?_map,
        Option.map_eq_some_iff] at hrow
      obtain ⟨⟨cells, place'⟩, hcells, rfl⟩ := hrow
      rw [List.getElem?_zipIdx, Option.map_eq_some_iff] at hcells
      obtain ⟨cells', -, heq⟩ := hcells
      cases heq
      dsimp only
      rw [storedRow_getElem? hcolumn, hgiven]
      dsimp only
      rw [if_pos hnumbered]
      congr 3
      omega

/-- A table of given rows is kept. -/
theorem isKept_ofRows (name : Text) (columns : List Column) {rows : List Row}
    (hrows : rows.length < integerBound) : (Table.ofRows name columns rows).IsKept :=
  (isKept_empty name (by rintro column - ⟨⟩)).insert (by simpa using hrows) nofun

end Table

/-- A database of kept tables. -/
def IsKept (db : Database) : Prop :=
  ∀ table, .table table ∈ db.relations → table.IsKept

theorem IsKept.sourceBehind {db : Database} (hkept : db.IsKept) {fuel : Nat}
    {passed : List Text} {name : Text} {source : Source}
    (hsource : db.sourceBehind fuel passed name = .ok source) : source.table.IsKept := by
  induction fuel generalizing passed name with
  | zero => cases hsource
  | succ fuel ih =>
      rw [Database.sourceBehind] at hsource
      split at hsource
      · next hrelation =>
          cases hsource
          exact hkept _ (List.mem_of_find?_eq_some hrelation)
      · split at hsource
        · cases hsource
        · exact ih hsource
      · cases hsource

end TableBrowser.Database
