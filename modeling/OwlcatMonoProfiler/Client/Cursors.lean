import OwlcatMonoProfiler.Client.Statements

/-!
# Cursors

`cursor` of `persistent_storage.cpp`.  The columns of a row are taken over when the first of them is
asked for, into a vector that is kept from row to row: its names are never read again, and a value
is replaced only when the new one has a type the cursor knows.

* `Cursor`: the vector, and whether it is that of the current row;
* `next`, `populateColumns`, `getValue`, `getInt64`, `getUint64`, `getString`: the source;
* `columnValue`: the value of a column, said without a cursor;
* `Fits`: what is kept is right, if it is that of the current row;
* `getValue_of_run`: a cursor gives the value of the current row, whichever columns were asked for
  or passed over before;
* `Reads`, `readAll_eq`: loops over rows.
-/

namespace Owlcat

/-! ### Values -/

/-- `sqlite3_column_type` -/
inductive SqlType
  | null
  | integer
  | float
  | text
  | blob
  deriving DecidableEq

def SqlValue.type : SqlValue → SqlType
  | .null => .null
  | .integer _ => .integer
  | .float => .float
  | .text _ => .text
  | .blob _ => .blob

/-- `get_if<int64_t>` -/
def DbData.int64? : DbData → Option Int64
  | .int (.int64 value) => some value
  | _ => none

/-- `get_if<std::string>` -/
def DbData.str? : DbData → Option (List UInt8)
  | .str value => some value
  | _ => none

/-- `column_t` -/
structure Column where
  name : String
  type : SqlType
  value : DbData := .empty

/-- Take over the value of a row; nothing is done for a type the cursor does not know. -/
def Column.store (column : Column) (v : SqlValue) : Column :=
  { column with
    value :=
      match v with
      | .null => .empty
      | .integer value => .int (.int64 value)
      | .float => column.value
      | .text value => .str (getString value)
      | .blob value => .vec value }

/-- `cursor::details`, less the statement. -/
structure Cursor where
  columnsPopulated : Bool := false
  columns : List Column := []

namespace Cursor

/-- What `next` does to the cursor. -/
def next (c : Cursor) : Cursor := { c with columnsPopulated := false }

/-- `populate_columns`, for the names and values of the columns of a statement. -/
def populateColumns (names : List String) (row : List SqlValue) (c : Cursor) : Cursor :=
  let columns :=
    if c.columns = [] then List.zipWith (fun name v => { name := name, type := v.type }) names row
    else List.zipWith (fun column v => { column with type := v.type }) c.columns row
  { columnsPopulated := true, columns := List.zipWith Column.store columns row }

/-- `get_value`; `none` is a null pointer. -/
def getValue (names : List String) (row : List SqlValue) (name : String) (c : Cursor) :
    Option DbData × Cursor :=
  let c := if c.columnsPopulated then c else c.populateColumns names row
  ((c.columns.find? fun column => column.name = name).map Column.value, c)

def getInt64 (names : List String) (row : List SqlValue) (name : String) :
    StateM Cursor Int64 := do
  let value ← getValue names row name
  return Owlcat.getInt64 (value.bind DbData.int64?)

def getUint64 (names : List String) (row : List SqlValue) (name : String) :
    StateM Cursor UInt64 := do
  let value ← getValue names row name
  return Owlcat.getUint64 (value.bind DbData.int64?)

def getString (names : List String) (row : List SqlValue) (name : String) :
    StateM Cursor (List UInt8) := do
  let value ← getValue names row name
  return (value.bind DbData.str?).getD []

/-- The loop over the rows of a cursor; `read` is its body. -/
def readAll {α : Type} (read : List SqlValue → StateM Cursor α) :
    Cursor → List (List SqlValue) → List α
  | _, [] => []
  | c, row :: rows =>
    let (a, c) := read row c.next
    a :: readAll read c rows

end Cursor

/-! ### What is kept -/

/-- The value a column has in a row. -/
def columnValue (names : List String) (row : List SqlValue) (name : String) : Option SqlValue :=
  ((names.zip row).find? fun p => p.1 = name).map Prod.snd

/-- A value as `get_value` gives it. -/
def SqlValue.toDbData : SqlValue → DbData
  | .null => .empty
  | .integer value => .int (.int64 value)
  | .float => .empty
  | .text value => .str (Owlcat.getString value)
  | .blob value => .vec value

theorem Column.value_store (column : Column) {v : SqlValue} (hv : v ≠ .float) :
    (column.store v).value = v.toDbData := by
  cases v with
  | float => exact absurd rfl hv
  | null => rfl
  | integer value => rfl
  | text value => rfl
  | blob value => rfl

/-- Columns have the values of a row, as far as the cursor knows their types. -/
def Holds (row : List SqlValue) (columns : List Column) : Prop :=
  List.Forall₂ (fun column v => v ≠ SqlValue.float → column.value = v.toDbData) columns row

namespace Cursor

/-- The names are those of the statement, if there are any; so are the values, when they are of the
current row. -/
structure Fits (names : List String) (row : List SqlValue) (c : Cursor) : Prop where
  names_eq : c.columns = [] ∨ c.columns.map Column.name = names
  populated : c.columnsPopulated = true →
    c.columns.map Column.name = names ∧ Holds row c.columns

variable {names : List String} {row row' : List SqlValue} {c : Cursor}

theorem fits_empty (names : List String) (row : List SqlValue) : Fits names row {} :=
  ⟨.inl rfl, fun h => by cases h⟩

theorem Fits.next (h : Fits names row c) (row' : List SqlValue) : Fits names row' c.next :=
  ⟨h.names_eq, fun h => by cases h⟩

theorem map_name_store (columns : List Column) (row : List SqlValue)
    (hlen : columns.length = row.length) :
    (List.zipWith Column.store columns row).map Column.name = columns.map Column.name := by
  induction columns generalizing row with
  | nil => rfl
  | cons column columns ih =>
    cases row with
    | nil => cases hlen
    | cons v row => exact congrArg (column.name :: ·) (ih row (Nat.succ.inj hlen))

theorem holds_store (columns : List Column) (row : List SqlValue)
    (hlen : columns.length = row.length) : Holds row (List.zipWith Column.store columns row) := by
  induction columns generalizing row with
  | nil =>
    cases row with
    | nil => exact .nil
    | cons v row => cases hlen
  | cons column columns ih =>
    cases row with
    | nil => cases hlen
    | cons v row => exact .cons column.value_store (ih row (Nat.succ.inj hlen))

/-- Columns that are made, or get the types of a row. -/
theorem map_name_typed (hnames : c.columns = [] ∨ c.columns.map Column.name = names)
    (hlen : row.length = names.length) :
    (if c.columns = [] then
        List.zipWith (fun name v => ({ name := name, type := v.type } : Column)) names row
      else List.zipWith (fun column v => { column with type := v.type }) c.columns row).map
        Column.name = names := by
  split
  · rw [List.map_zipWith]
    clear hnames
    induction names generalizing row with
    | nil => rfl
    | cons name names ih =>
      cases row with
      | nil => cases hlen
      | cons v row => exact congrArg (name :: ·) (ih (Nat.succ.inj hlen))
  · next hne =>
    obtain rfl := hnames.resolve_left hne
    rw [List.length_map] at hlen
    rw [List.map_zipWith]
    generalize c.columns = columns at hlen
    clear hne hnames
    induction columns generalizing row with
    | nil => rfl
    | cons column columns ih =>
      cases row with
      | nil => cases hlen
      | cons v row => exact congrArg (column.name :: ·) (ih (Nat.succ.inj hlen))

theorem Fits.populateColumns (h : Fits names row c) (hlen : row.length = names.length) :
    Fits names row (c.populateColumns names row) ∧
      (c.populateColumns names row).columnsPopulated = true := by
  have htyped := map_name_typed h.names_eq hlen
  refine ⟨?_, rfl⟩
  unfold Cursor.populateColumns
  dsimp only
  generalize (if c.columns = [] then _ else _ : List Column) = columns at htyped
  have hcolumns : columns.length = row.length := by
    rw [hlen, ← htyped, List.length_map]
  have hname := (map_name_store columns row hcolumns).trans htyped
  exact ⟨.inr hname, fun _ => ⟨hname, holds_store columns row hcolumns⟩⟩

/-- The first column of a name has the value of the row, if the cursor knows its type. -/
theorem find?_of_holds {columns : List Column} (h : Holds row columns) (name : String) :
    match columnValue (columns.map Column.name) row name with
    | none => (columns.find? fun column => column.name = name) = none
    | some v => v ≠ .float →
      (columns.find? fun column => column.name = name).map Column.value = some v.toDbData := by
  induction h with
  | nil => rfl
  | @cons column v columns row hcolumn _ ih =>
    by_cases hname : column.name = name
    · simp only [columnValue, List.map_cons, List.zip_cons_cons, List.find?_cons, hname,
        decide_true, Option.map_some]
      exact fun hv => congrArg some (hcolumn hv)
    · simpa only [columnValue, List.map_cons, List.zip_cons_cons, List.find?_cons, hname,
        decide_false] using ih

/-- **One column is read.** -/
theorem Fits.getValue (h : Fits names row c) (hlen : row.length = names.length) (name : String) :
    Fits names row (c.getValue names row name).2 ∧
      (columnValue names row name = none → (c.getValue names row name).1 = none) ∧
      ∀ v, columnValue names row name = some v → v ≠ .float →
        (c.getValue names row name).1 = some v.toDbData := by
  have hpopulated : ∃ c', (if c.columnsPopulated then c else c.populateColumns names row) = c' ∧
      Fits names row c' ∧ c'.columnsPopulated = true := by
    cases hc : c.columnsPopulated with
    | true => exact ⟨c, rfl, h, hc⟩
    | false => exact ⟨_, rfl, h.populateColumns hlen⟩
  obtain ⟨c', hc', hfits, hpop⟩ := hpopulated
  unfold Cursor.getValue
  rw [hc']
  refine ⟨hfits, fun hnone => ?_, fun v hv hfloat => ?_⟩
  all_goals
    obtain ⟨hnames, hholds⟩ := hfits.populated hpop
    have hfind := find?_of_holds hholds name
    rw [hnames] at hfind
  · rw [hnone] at hfind
    exact congrArg (Option.map Column.value) hfind
  · rw [hv] at hfind
    exact hfind hfloat

/-! ### Runs -/

/-- `next` has come to a row, or a column is read. -/
inductive Action
  | next (row : List SqlValue)
  | getValue (name : String)

/-- The cursor and the row it is at. -/
def step (names : List String) (s : Cursor × List SqlValue) :
    Action → Option (Cursor × List SqlValue)
  | .next row => if row.length = names.length then some (s.1.next, row) else none
  | .getValue name => some ((s.1.getValue names s.2 name).2, s.2)

/-- Before the first row all columns are NULL. -/
def initial (names : List String) : Cursor × List SqlValue :=
  ({}, names.map fun _ => .null)

/-- **A cursor gives the values of the current row.**  Only a value of a type it does not know may
be one of a row before. -/
theorem getValue_of_run {l : List Action}
    (hrun : Run.run (Cursor.step names) (initial names) l = some (c, row)) (name : String) :
    (columnValue names row name = none → (c.getValue names row name).1 = none) ∧
      ∀ v, columnValue names row name = some v → v ≠ .float →
        (c.getValue names row name).1 = some v.toDbData := by
  have hinv : Fits names row c ∧ row.length = names.length := by
    refine Run.reachable_invariant
      (I := fun s : Cursor × List SqlValue => Fits names s.2 s.1 ∧ s.2.length = names.length)
      (fun s a t h hstep => ?_) ⟨fits_empty names _, List.length_map _⟩ ⟨l, hrun⟩
    cases a with
    | next row' =>
      rw [Cursor.step] at hstep
      split at hstep
      · next hlen =>
        cases hstep
        exact ⟨h.1.next row', hlen⟩
      · cases hstep
    | getValue name =>
      cases hstep
      exact ⟨(h.1.getValue h.2 name).1, h.2⟩
  exact (hinv.1.getValue hinv.2 name).2

/-- Two rows, of which only the first has a size; the row in between is passed over. -/
def sizesRead : List Action :=
  [.next [.integer 1, .integer 48], .getValue "size", .next [.integer 2, .integer 64],
    .next [.integer 3, .null]]

theorem getValue_of_run_sizesRead :
    ∃ c, Run.run (Cursor.step ["frame", "size"]) (initial ["frame", "size"]) sizesRead =
        some (c, [.integer 3, .null]) ∧
      (c.getValue ["frame", "size"] [.integer 3, .null] "size").1 = some .empty :=
  ⟨_, rfl, (getValue_of_run (l := sizesRead) rfl "size").2 .null rfl (by decide)⟩

/-! ### Loops -/

section Loops

variable {α β ρ : Type} {a : α} {b : β}

/-- What is read is `a`, whatever was read before. -/
def Reads (names : List String) (row : List SqlValue) (read : StateM Cursor α) (a : α) : Prop :=
  ∀ c, Fits names row c → (read c).1 = a ∧ Fits names row (read c).2

theorem Reads.pure (a : α) : Reads names row (Pure.pure a) a := fun _ h => ⟨rfl, h⟩

theorem Reads.bind {read : StateM Cursor α} {f : α → StateM Cursor β}
    (h : Reads names row read a) (hf : Reads names row (f a) b) :
    Reads names row (read >>= f) b := by
  intro c hc
  obtain ⟨hvalue, hfits⟩ := h c hc
  have hbind : (read >>= f) c = f (read c).1 (read c).2 := rfl
  rw [hbind, hvalue]
  exact hf _ hfits

theorem reads_getValue (hlen : row.length = names.length) {name : String} {v : SqlValue}
    (hv : columnValue names row name = some v) (hfloat : v ≠ .float) :
    Reads names row (Cursor.getValue names row name) (some v.toDbData) := fun _ hc =>
  ⟨(hc.getValue hlen name).2.2 v hv hfloat, (hc.getValue hlen name).1⟩

/-- An integer column; `none` is NULL. -/
def ofInt : Option Int64 → SqlValue
  | none => .null
  | some value => .integer value

theorem reads_getUint64 (hlen : row.length = names.length) {name : String} {v : Option Int64}
    (hv : columnValue names row name = some (ofInt v)) :
    Reads names row (Cursor.getUint64 names row name) (Owlcat.getUint64 v) := by
  cases v with
  | none => exact (reads_getValue hlen hv (by decide)).bind (.pure _)
  | some value =>
    exact (reads_getValue hlen hv (by simp [ofInt])).bind (.pure (Owlcat.getUint64 (some value)))

theorem reads_getInt64 (hlen : row.length = names.length) {name : String} {v : Option Int64}
    (hv : columnValue names row name = some (ofInt v)) :
    Reads names row (Cursor.getInt64 names row name) (Owlcat.getInt64 v) := by
  cases v with
  | none => exact (reads_getValue hlen hv (by decide)).bind (.pure _)
  | some value =>
    exact (reads_getValue hlen hv (by simp [ofInt])).bind (.pure (Owlcat.getInt64 (some value)))

theorem reads_getString (hlen : row.length = names.length) {name : String} {text : List UInt8}
    (hv : columnValue names row name = some (.text text)) :
    Reads names row (Cursor.getString names row name) (Owlcat.getString text) :=
  (reads_getValue hlen hv (by simp)).bind (.pure (Owlcat.getString text))

/-- A loop reads each row for itself. -/
theorem readAll_eq {read : List SqlValue → StateM Cursor α} {f : ρ → List SqlValue} {g : ρ → α}
    {rs : List ρ} (h : ∀ r ∈ rs, Reads names (f r) (read (f r)) (g r)) (hc : Fits names row c) :
    readAll read c (rs.map f) = rs.map g := by
  induction rs generalizing c row with
  | nil => rfl
  | cons r rs ih =>
    obtain ⟨hvalue, hfits⟩ := h r List.mem_cons_self c.next (hc.next (f r))
    show (read (f r) c.next).1 :: readAll read (read (f r) c.next).2 (rs.map f) = g r :: rs.map g
    rw [hvalue, ih (fun r hr => h r (List.mem_cons_of_mem _ hr)) hfits]

end Loops

end Cursor

end Owlcat
