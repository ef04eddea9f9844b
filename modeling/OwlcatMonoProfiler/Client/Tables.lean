import OwlcatMonoProfiler.Client.Cursors
import OwlcatMonoProfiler.Client.Migrations
import OwlcatMonoProfiler.Library.Sql

/-!
# What SQLite does with the texts

Tables of rows, and what the commands of `Library/Sql.lean` do with them.  Rows without an order
come in the order of their keys, which is that of the table.  An order is that of an index or of
the keys, so that rows with the same value come in the order of their keys, and all rows the other
way round if it is descending.

* `Tables`, `schema`: the tables a trace has, as the texts of the migrations create them;
* `select`, `insertRow`: the commands, for integers and texts that have the type of their columns;
  what SQLite does to convert values is left out;
* `traceSqlite`: SQLite on these tables;
* `select_map`, `insertRow_map`: the commands on tables whose rows stand for something.
-/

namespace Owlcat

/-! ### Tables -/

/-- The rows of the tables, by their names; they are in the order of their keys. -/
abbrev Tables := String → List (List SqlValue)

/-- The tables and indexes there are. -/
structure Schema where
  tables : List Sql.CreateTable
  indexes : List Sql.CreateIndex
  deriving DecidableEq

def SqlValue.int? : SqlValue → Option Int64
  | .integer value => some value
  | _ => none

namespace Tables

/-- The texts of the migrations. -/
def migrationTexts : List (List Char) :=
  allMigrations.flatMap fun m => m.queries.map fun q => q.bytes.map fun b => Char.ofNat b.toNat

/-- What the migrations create. -/
def schema : Schema where
  tables := migrationTexts.filterMap Sql.readCreateTable
  indexes := migrationTexts.filterMap Sql.readCreateIndex

/-- The value of a column in a row of a table. -/
def valueIn (t : Sql.CreateTable) (row : List SqlValue) (column : String) : SqlValue :=
  (columnValue (t.columns.map Sql.ColumnDef.name) row column).getD .null

/-- The value of an integer column. -/
def intIn (t : Sql.CreateTable) (row : List SqlValue) (column : String) : Int64 :=
  (valueIn t row column).int?.getD 0

/-- The key of a row. -/
def keyIn (t : Sql.CreateTable) (row : List SqlValue) : Int64 :=
  (t.columns.find? Sql.ColumnDef.isKey).elim 0 fun d => intIn t row d.name

def isInteger (d : Sql.ColumnDef) : Bool := d.type = "INTEGER" || d.type = "INT"

/-- The value has the type of a column. -/
def hasType (d : Sql.ColumnDef) : SqlValue → Bool
  | .null => !d.notNull && !d.isKey
  | .integer _ => isInteger d
  | .text _ => d.type = "TEXT"
  | _ => false

/-! ### Selecting -/

/-- The value of an operand, for the values of the parameters. -/
def operandValue (value : String → SqlValue) : Sql.Operand → SqlValue
  | .number n => .integer (Int64.ofNat n)
  | .parameter name => value name

/-- A comparison of integers; with NULL it does not hold. -/
def compares (c : Sql.Comparison) (a b : SqlValue) : Bool :=
  match a.int?, b.int?, c with
  | some x, some y, .le => x ≤ y
  | some x, some y, .ge => y ≤ x
  | some x, some y, .eq => x = y
  | _, _, _ => false

def satisfies (t : Sql.CreateTable) (value : String → SqlValue) (row : List SqlValue)
    (c : Sql.Condition) : Bool :=
  compares c.comparison (valueIn t row c.column) (operandValue value c.operand)

/-- The order and the limit of a command, for rows with the values of their columns. -/
def arrange {ρ : Type} (s : Sql.Select) (int : String → ρ → Int64) (rows : List ρ) : List ρ :=
  let rows :=
    match s.order with
    | none => rows
    | some o =>
      let sorted := rows.insertionSort fun x y => int o.column x ≤ int o.column y
      if o.descending then sorted.reverse else sorted
  match s.limit with
  | none => rows
  | some n => rows.take n

def isColumn : Sql.Output → Bool
  | .column _ => true
  | _ => false

/-- The value of an output in a row. -/
def cell (t : Sql.CreateTable) (row : List SqlValue) : Sql.Output → SqlValue
  | .column name => valueIn t row name
  | _ => .null

/-- The value of an output over all rows. -/
def aggregate (t : Sql.CreateTable) (rows : List (List SqlValue)) : Sql.Output → SqlValue
  | .column _ => .null
  | .min column _ => Cursor.ofInt (rows.filterMap fun row => (valueIn t row column).int?).min?
  | .max column _ => Cursor.ofInt (rows.filterMap fun row => (valueIn t row column).int?).max?
  | .count _ => .integer (Int64.ofNat rows.length)

/-- The rows of the result. -/
def select (t : Sql.CreateTable) (value : String → SqlValue) (s : Sql.Select)
    (rows : List (List SqlValue)) : List (List SqlValue) :=
  let found := rows.filter fun row => s.conditions.all (satisfies t value row)
  if s.outputs.all isColumn then
    (arrange s (fun column row => intIn t row column) found).map fun row =>
      s.outputs.map (cell t row)
  else [s.outputs.map (aggregate t found)]

/-- There is a column of this kind. -/
def hasColumn (t : Sql.CreateTable) (kind : Sql.ColumnDef → Bool) (column : String) : Bool :=
  t.columns.any fun d => d.name = column && kind d

def knowsOutput (t : Sql.CreateTable) : Sql.Output → Bool
  | .column name => hasColumn t (fun _ => true) name
  | .min column _ => hasColumn t isInteger column
  | .max column _ => hasColumn t isInteger column
  | .count _ => true

/-- An order by a column of integers comes from the keys or from an index. -/
def isSorted (s : Schema) (t : Sql.CreateTable) (d : Sql.ColumnDef) : Bool :=
  isInteger d && d.notNull && (d.isKey || s.indexes.contains ⟨t.name, d.name⟩)

/-- The columns there are, with the kinds the command needs; columns and functions of all rows are
not mixed. -/
def knowsSelect (s : Schema) (t : Sql.CreateTable) (c : Sql.Select) : Bool :=
  c.outputs.all (knowsOutput t) &&
    c.conditions.all (fun d => hasColumn t isInteger d.column) &&
    c.order.all (fun o => hasColumn t (isSorted s t) o.column) &&
    (c.outputs.all isColumn ||
      c.outputs.all (! isColumn ·) && c.order.isNone && c.limit.isNone)

/-! ### Inserting -/

/-- The key of a new row that is given none; NULL if the keys are used up. -/
def newKey (t : Sql.CreateTable) (rows : List (List SqlValue)) : SqlValue :=
  match rows.getLast? with
  | none => .integer 1
  | some row =>
    if keyIn t row = Int64.maxValue then .null else .integer (keyIn t row + 1)

/-- The value of a column in a new row. -/
def newValue (t : Sql.CreateTable) (value : String → SqlValue) (i : Sql.Insert)
    (rows : List (List SqlValue)) (d : Sql.ColumnDef) : SqlValue :=
  let given := ((i.columns.zip i.values).find? fun p => p.1 = d.name).map fun p =>
    operandValue value p.2
  match given.getD .null with
  | .null => if d.isKey then newKey t rows else .null
  | v => v

/-- Rows that cannot be there together. -/
def conflicts (t : Sql.CreateTable) (row row' : List SqlValue) : Bool :=
  t.columns.any fun d =>
    (d.isKey || d.unique) && valueIn t row d.name ≠ .null &&
      valueIn t row d.name = valueIn t row' d.name

/-- The rows after an insertion; `none` is an error. -/
def insertRow (t : Sql.CreateTable) (value : String → SqlValue) (i : Sql.Insert)
    (rows : List (List SqlValue)) : Option (List (List SqlValue)) :=
  let row := t.columns.map (newValue t value i rows)
  if (t.columns.zip row).all (fun p => hasType p.1 p.2) = false then none
  else if i.orReplace = false ∧ rows.any (conflicts t row) then none
  else
    some ((rows.filter fun r => !conflicts t row r).orderedInsert
      (fun x y => keyIn t x ≤ keyIn t y) row)

def knowsInsert (t : Sql.CreateTable) (i : Sql.Insert) : Bool :=
  i.columns.all (hasColumn t fun _ => true) && i.columns.length = i.values.length &&
    i.columns.Nodup

/-! ### Rows that stand for something -/

section Rows

variable {ρ : Type} {t : Sql.CreateTable} {value : String → SqlValue} {f : ρ → List SqlValue}

theorem arrange_map (s : Sql.Select) (int : String → List SqlValue → Int64) (l : List ρ) :
    arrange s int (l.map f) = (arrange s (fun column r => int column (f r)) l).map f := by
  have hsort : ∀ column, (l.map f).insertionSort (fun x y => int column x ≤ int column y) =
      (l.insertionSort fun x y => int column (f x) ≤ int column (f y)).map f := fun column =>
    (List.map_insertionSort _ _ f l fun _ _ _ _ => Iff.rfl).symm
  unfold arrange
  cases s.order with
  | none => cases s.limit <;> simp
  | some o =>
    dsimp only
    rw [hsort]
    cases s.limit <;> cases o.descending <;> simp

theorem filter_map_eq {c : Sql.Select} {p : ρ → Bool} {l : List ρ}
    (hp : ∀ r ∈ l, c.conditions.all (satisfies t value (f r)) = p r) :
    ((l.map f).filter fun row => c.conditions.all (satisfies t value row)) =
      (l.filter p).map f := by
  rw [List.filter_map]
  exact congrArg (List.map f) (List.filter_congr hp)

/-- **A command that selects columns**, for rows that meet its conditions where they meet `p`. -/
theorem select_map {c : Sql.Select} (hcolumns : c.outputs.all isColumn = true) {p : ρ → Bool}
    {l : List ρ} (hp : ∀ r ∈ l, c.conditions.all (satisfies t value (f r)) = p r) :
    select t value c (l.map f) =
      (arrange c (fun column r => intIn t (f r) column) (l.filter p)).map fun r =>
        c.outputs.map (cell t (f r)) := by
  unfold select
  dsimp only
  rw [if_pos hcolumns, filter_map_eq hp, arrange_map, List.map_map]
  rfl

/-- **A command that asks for functions of all rows.** -/
theorem select_aggregate {c : Sql.Select} (hcolumns : c.outputs.all isColumn = false)
    {p : ρ → Bool} {l : List ρ} (hp : ∀ r ∈ l, c.conditions.all (satisfies t value (f r)) = p r) :
    select t value c (l.map f) = [c.outputs.map (aggregate t ((l.filter p).map f))] := by
  unfold select
  dsimp only
  rw [hcolumns, if_neg (by decide), filter_map_eq hp]

/-- **A row is inserted** when it has the types of the columns, and no row there is conflicts with
it or such rows are replaced. -/
theorem insertRow_map {i : Sql.Insert} {l : List ρ} {r : ρ}
    (hrow : t.columns.map (newValue t value i (l.map f)) = f r)
    (htype : (t.columns.zip (f r)).all (fun p => hasType p.1 p.2) = true) :
    insertRow t value i (l.map f) =
      if i.orReplace = false ∧ ∃ x ∈ l, conflicts t (f r) (f x) then none
      else some (((l.filter fun x => !conflicts t (f r) (f x)).orderedInsert
        (fun x y => keyIn t (f x) ≤ keyIn t (f y)) r).map f) := by
  have hfilter : ((l.map f).filter fun x => !conflicts t (f r) x) =
      (l.filter fun x => !conflicts t (f r) (f x)).map f := List.filter_map
  have hinsert : ∀ l : List ρ,
      (l.map f).orderedInsert (fun x y => keyIn t x ≤ keyIn t y) (f r) =
        (l.orderedInsert (fun x y => keyIn t (f x) ≤ keyIn t (f y)) r).map f := fun l =>
    (List.map_orderedInsert _ _ f l r (fun _ _ => Iff.rfl) fun _ _ => Iff.rfl).symm
  have hany : (l.map f).any (conflicts t (f r)) = true ↔ ∃ x ∈ l, conflicts t (f r) (f x) := by
    simp
  unfold insertRow
  dsimp only
  rw [hrow, htype, if_neg (by decide), hfilter, hinsert]
  simp only [hany]

end Rows

/-! ### SQLite -/

/-- The table of a command, if the command compiles. -/
def resolve (s : Schema) : Sql.Command → Option Sql.CreateTable
  | .select c => s.tables.find? fun t => t.name = c.table && knowsSelect s t c
  | .insert i => s.tables.find? fun t => t.name = i.table && knowsInsert t i

/-- The operands are integers or NULL. -/
def comparable (value : String → SqlValue) (c : Sql.Select) : Bool :=
  c.conditions.all fun d =>
    match operandValue value d.operand with
    | .null => true
    | .integer _ => true
    | _ => false

/-- The rows of a command and the tables after it, for the values of the parameters. -/
def run (t : Sql.CreateTable) (value : String → SqlValue) (tables : Tables) :
    Sql.Command → Option (List (List SqlValue) × Tables)
  | .select c =>
    if comparable value c then some (select t value c (tables t.name), tables) else none
  | .insert i =>
    (insertRow t value i (tables t.name)).map fun rows =>
      ([], Function.update tables t.name rows)

end Tables

/-- SQLite on the tables of a trace. -/
def traceSqlite : Sqlite Tables where
  prepares text _ := ((Sql.readCommand text.toList).bind (Tables.resolve Tables.schema)).isSome
  names text := Sql.parameters text.toList
  run text value tables := do
    let command ← Sql.readCommand text.toList
    let t ← Tables.resolve Tables.schema command
    let names ← Sql.parameters text.toList
    Tables.run t (fun name => value (names.idxOf name + 1)) tables command

end Owlcat
