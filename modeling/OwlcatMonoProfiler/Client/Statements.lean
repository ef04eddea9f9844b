import OwlcatMonoProfiler.Client.Database
import OwlcatMonoProfiler.Library.Run

/-!
# Prepared statements

`persistent_storage` of `persistent_storage.cpp` with the queries registered on it.  A statement of
SQLite is used for all calls of its query: what is bound to its parameters stays bound, and it stays
at the row the last call has left it at, until the next call.  Texts and blobs are bound without a
copy, so that a parameter a call leaves out may be in memory that is gone.

* `DbData`, `SqlValue`: `db_value`, and the values of SQLite;
* `Sqlite`: what SQLite makes of a text, on databases of any type;
* `Bound`, `Statement`, `StatementT`: a prepared statement, what is bound to its parameters, and
  their names;
* `PersistentStorage`: an open database; `query` and `select` run a registered text,
  `queryImmediate` and `selectImmediate` a text that is compiled for the call; the result is `none`
  where it is undefined;
* `Covers`: a call has a value for every parameter of a text;
* `query_eq_immediate_of_run`: whatever has been called before, the two kinds are then defined and
  do the same.
-/

namespace Owlcat

/-! ### Values -/

/-- `db_value`; its four integer types are those of `DbValue`. -/
inductive DbData
  | int (value : DbValue)
  | str (value : List UInt8)
  | vec (value : List UInt8)
  | empty

/-- A value of SQLite.  What is in a `float` is not read by anything. -/
inductive SqlValue
  | null
  | integer (value : Int64)
  | float
  | text (value : List UInt8)
  | blob (value : List UInt8)
  deriving DecidableEq

/-- What is bound to a parameter. -/
inductive Bound
  | copied (value : SqlValue)
  /-- A text or blob where it is (`SQLITE_STATIC`): in the parameters of a call, or in their copy
  in a cursor, which are numbered. -/
  | static (owner : ℕ) (value : SqlValue)
  /-- The text or blob has been destroyed. -/
  | gone
  deriving DecidableEq

/-- What `prepare_statement` binds; `data()` of an empty vector is a null pointer. -/
def DbData.bind (owner : ℕ) : DbData → Option Bound
  | .int value => some (.copied (.integer value.bind))
  | .str value => some (.static owner (.text value))
  | .vec [] => some (.copied .null)
  | .vec value => some (.static owner (.blob value))
  | .empty => none

def Bound.value : Bound → SqlValue
  | .copied value => value
  | .static _ value => value
  | .gone => .null

/-- Parameters are destroyed. -/
def Bound.destroyed (owner : ℕ) : Bound → Bound
  | .copied value => .copied value
  | .static owner' value => if owner' = owner then .gone else .static owner' value
  | .gone => .gone

/-- A name without the symbol in front. -/
def snip (name : String) : String := String.ofList name.toList.tail

/-- What SQLite makes of a text, in databases of type `δ`. -/
structure Sqlite (δ : Type) where
  /-- `sqlite3_prepare_v2` -/
  prepares : String → δ → Bool
  /-- `sqlite3_bind_parameter_name`, for all positions; it is `none` when one has no name. -/
  names : String → Option (List String)
  /-- All rows and the database afterwards, for the values of the parameters by their positions,
  of which the first one is 1; `none` is an error. -/
  run : String → (ℕ → SqlValue) → δ → Option (List (List SqlValue) × δ)

/-! ### Statements -/

/-- A prepared statement of SQLite. -/
structure Statement where
  text : String
  /-- What is bound to the parameters, by their position. -/
  bound : Dict ℕ Bound := ∅
  /-- The rows still to come, when the statement has been started. -/
  rows : Option (List (List SqlValue)) := none
  /-- The row it is at. -/
  row : Option (List SqlValue) := none

/-- The result of `sqlite3_step`; a cursor starts with `ok`. -/
inductive StepResult
  | ok
  | row
  | done
  | error
  deriving DecidableEq

namespace Statement

variable {δ : Type}

/-- `sqlite3_reset`, which leaves the bindings. -/
def reset (s : Statement) : Statement := { s with rows := none, row := none }

/-- The value of a parameter; one that is not bound is NULL. -/
def valueOf (s : Statement) (i : ℕ) : SqlValue := ((s.bound.lookup i).map Bound.value).getD .null

/-- Something that is bound has been destroyed. -/
def Dangles (s : Statement) : Prop := .gone ∈ Dict.values s.bound

instance (s : Statement) : Decidable s.Dangles :=
  inferInstanceAs (Decidable (.gone ∈ Dict.values s.bound))

/-- `sqlite3_step`; a statement that is done starts again.  It must not read what has been
destroyed. -/
def step (sql : Sqlite δ) (s : Statement) (db : δ) : Option (StepResult × Statement × δ) :=
  if s.Dangles then none
  else
    match s.rows with
    | some (row :: rows) => some (.row, { s with rows := some rows, row := some row }, db)
    | some [] => some (.done, s.reset, db)
    | none =>
      match sql.run s.text s.valueOf db with
      | none => some (.error, s.reset, db)
      | some (row :: rows, db) => some (.row, { s with rows := some rows, row := some row }, db)
      | some ([], db) => some (.done, s.reset, db)

/-- The loop `while (cursor.next())`, left after `n` rows: the rows, and where the statement is. -/
def fetch (sql : Sqlite δ) : ℕ → Statement → δ → Option (List (List SqlValue) × Statement × δ)
  | 0, s, db => some ([], s, db)
  | n + 1, s, db => do
    let (result, s, db) ← s.step sql db
    if result = .row then
      let (rows, s', db) ← fetch sql n s db
      return (s.row.getD [] :: rows, s', db)
    else return ([], s, db)

/-- Parameters are destroyed. -/
def destroyed (owner : ℕ) (s : Statement) : Statement :=
  { s with bound := Dict.mapEntries (fun _ => Bound.destroyed owner) s.bound }

end Statement

/-- `statement_t` -/
structure StatementT where
  sqliteStatement : Statement
  statementParams : Dict String ℕ := ∅

namespace StatementT

/-- `populate_statement_params`; names that are there stay. -/
def populateStatementParams (names : List String) (s : StatementT) : StatementT :=
  { s with
    statementParams := (names.zipIdx 1).foldl
      (fun params p => params.insert (snip p.1) p.2) s.statementParams }

/-- Bind a value to the parameter at a position. -/
def bindAt (owner : ℕ) (s : StatementT) (i : ℕ) (value : DbData) : StatementT :=
  match value.bind owner with
  | none => s
  | some v =>
    { s with sqliteStatement.bound := s.sqliteStatement.bound.insert i v }

/-- The loop of `prepare_statement`; it stops at a name that is no parameter. -/
def bindParams (owner : ℕ) : List (String × DbData) → StatementT → Bool × StatementT
  | [], s => (true, s)
  | (name, value) :: params, s =>
    match s.statementParams.lookup name with
    | none => (false, s)
    | some i => bindParams owner params (s.bindAt owner i value)

/-- `prepare_statement`, for parameters that belong to a call or cursor. -/
def prepare (owner : ℕ) (params : List (String × DbData)) (s : StatementT) : Bool × StatementT :=
  bindParams owner params { s with sqliteStatement := s.sqliteStatement.reset }

end StatementT

/-! ### The database -/

/-- `persistent_storage`, while it is open.  `rollback` and `faults` are as in `Storage`. -/
structure PersistentStorage (δ : Type) where
  db : δ
  rollback : Option δ := none
  faults : List Fault := []
  statements : Dict String StatementT := ∅

namespace PersistentStorage

variable {δ : Type}

/-- Keep a statement. -/
def put (c : PersistentStorage δ) (id : String) (s : StatementT) : PersistentStorage δ :=
  { c with statements := c.statements.insert id s }

/-- `register_query`.  When the id is in use, the names of the parameters stay.  A parameter
without a name would be read through a null pointer. -/
def registerQuery (sql : Sqlite δ) (c : PersistentStorage δ) (id text : String) :
    Option (Bool × PersistentStorage δ) :=
  if id = "" ∨ text = "" ∨ sql.prepares text c.db = false then some (false, c)
  else do
    let names ← sql.names text
    let params := (c.statements.lookup id).elim ∅ StatementT.statementParams
    return (true, c.put id (StatementT.populateStatementParams names ⟨{ text := text }, params⟩))

/-- The connection, when the next statement meets this fault and has no effect. -/
def struck (c : PersistentStorage δ) : Fault → PersistentStorage δ
  | .rollsBack =>
    { c with db := c.rollback.getD c.db, rollback := none, faults := c.faults.tail }
  | _ => { c with faults := c.faults.tail }

/-- `sqlite3_step` on a statement that is to change the database; it may fail for a reason of its
own. -/
def stepOnce (sql : Sqlite δ) (c : PersistentStorage δ) (s : Statement) :
    Option (StepResult × Statement × PersistentStorage δ) := do
  let (result, s', db) ← s.step sql c.db
  let fault := c.faults.headD .none
  if fault = .none then return (result, s', { c with db := db, faults := c.faults.tail })
  else return (.error, s.reset, c.struck fault)

/-- `query` -/
def query (sql : Sqlite δ) (c : PersistentStorage δ) (id : String)
    (params : List (String × DbData)) (owner : ℕ) : Option (Bool × PersistentStorage δ) :=
  match c.statements.lookup id with
  | none => some (false, c)
  | some s =>
    match s.prepare owner params with
    | (false, s) => some (false, c.put id s)
    | (true, s) => do
      let (result, stmt, c) ← c.stepOnce sql s.sqliteStatement
      return (result = .done, c.put id { s with sqliteStatement := stmt })

/-- `query_data`: whether the cursor is valid. -/
def queryData (c : PersistentStorage δ) (id : String) (params : List (String × DbData))
    (owner : ℕ) : Bool × PersistentStorage δ :=
  match c.statements.lookup id with
  | none => (false, c)
  | some s =>
    let (valid, s) := s.prepare owner params
    (valid, c.put id s)

/-- The loop over a cursor of a query, left after `n` rows. -/
def fetch (sql : Sqlite δ) (c : PersistentStorage δ) (id : String) (n : ℕ) :
    Option (List (List SqlValue) × PersistentStorage δ) :=
  match c.statements.lookup id with
  | none => some ([], c)
  | some s => do
    let (rows, stmt, db) ← s.sqliteStatement.fetch sql n c.db
    return (rows, { c with db := db }.put id { s with sqliteStatement := stmt })

/-- `query_data`, and the loop over its cursor. -/
def select (sql : Sqlite δ) (c : PersistentStorage δ) (id : String)
    (params : List (String × DbData)) (owner n : ℕ) :
    Option (List (List SqlValue) × PersistentStorage δ) :=
  match c.queryData id params owner with
  | (false, c) => some ([], c)
  | (true, c) => c.fetch sql id n

/-- `prepare_statement_from_text`; the inner `none` is a null pointer. -/
def prepareFromText (sql : Sqlite δ) (c : PersistentStorage δ) (text : String)
    (params : List (String × DbData)) (owner : ℕ) : Option (Option Statement) :=
  if sql.prepares text c.db = false then some none
  else do
    let names ← sql.names text
    match (StatementT.populateStatementParams names ⟨{ text := text }, ∅⟩).prepare owner params with
    | (false, _) => return none
    | (true, s) => return some s.sqliteStatement

/-- `query_immediate` -/
def queryImmediate (sql : Sqlite δ) (c : PersistentStorage δ) (text : String)
    (params : List (String × DbData)) (owner : ℕ) : Option (Bool × PersistentStorage δ) := do
  match ← c.prepareFromText sql text params owner with
  | none => return (false, c)
  | some stmt =>
    let (result, _, c) ← c.stepOnce sql stmt
    return (result = .done, c)

/-- `query_data_immediate`, and the loop over its cursor. -/
def selectImmediate (sql : Sqlite δ) (c : PersistentStorage δ) (text : String)
    (params : List (String × DbData)) (owner n : ℕ) :
    Option (List (List SqlValue) × PersistentStorage δ) := do
  match ← c.prepareFromText sql text params owner with
  | none => return ([], c)
  | some stmt =>
    let (rows, _, db) ← stmt.fetch sql n c.db
    return (rows, { c with db := db })

/-- The parameters of a call are destroyed, or a cursor with its copy of them. -/
def destroyed (c : PersistentStorage δ) (owner : ℕ) : PersistentStorage δ :=
  { c with
    statements := Dict.mapEntries
      (fun _ s => { s with sqliteStatement := s.sqliteStatement.destroyed owner }) c.statements }

/-- `sqlite3_exec` on a statement about transactions. -/
def exec (c : PersistentStorage δ) (f : PersistentStorage δ → PersistentStorage δ) :
    PersistentStorage δ :=
  let fault := c.faults.headD .none
  if fault = .none then f { c with faults := c.faults.tail } else c.struck fault

def beginTransaction (c : PersistentStorage δ) : PersistentStorage δ :=
  c.exec fun c => { c with rollback := some (c.rollback.getD c.db) }

def commit (c : PersistentStorage δ) : PersistentStorage δ :=
  c.exec fun c => { c with rollback := none }

def rollbackTransaction (c : PersistentStorage δ) : PersistentStorage δ :=
  c.exec fun c => { c with db := c.rollback.getD c.db, rollback := none }

/-! ### Runs -/

/-- The calls; `fetch` goes on with a cursor that was left, and `destroyed` is what the caller
does after a call. -/
inductive Action
  | registerQuery (id text : String)
  | query (id : String) (params : List (String × DbData)) (owner : ℕ)
  | queryData (id : String) (params : List (String × DbData)) (owner : ℕ)
  | fetch (id : String) (n : ℕ)
  | queryImmediate (text : String) (params : List (String × DbData)) (owner : ℕ)
  | selectImmediate (text : String) (params : List (String × DbData)) (owner n : ℕ)
  | destroyed (owner : ℕ)
  | beginTransaction
  | commit
  | rollbackTransaction

/-- The state after a call; `none` is undefined behaviour. -/
def step (sql : Sqlite δ) (c : PersistentStorage δ) : Action → Option (PersistentStorage δ)
  | .registerQuery id text => (c.registerQuery sql id text).map Prod.snd
  | .query id params owner => (c.query sql id params owner).map Prod.snd
  | .queryData id params owner => some (c.queryData id params owner).2
  | .fetch id n => (c.fetch sql id n).map Prod.snd
  | .queryImmediate text params owner => (c.queryImmediate sql text params owner).map Prod.snd
  | .selectImmediate text params owner n =>
    (c.selectImmediate sql text params owner n).map Prod.snd
  | .destroyed owner => some (c.destroyed owner)
  | .beginTransaction => some c.beginTransaction
  | .commit => some c.commit
  | .rollbackTransaction => some c.rollbackTransaction

end PersistentStorage

/-! ### What is bound -/

theorem DbData.isSome_bind {value : DbData} (h : value ≠ .empty) (owner : ℕ) :
    ∃ v, value.bind owner = some v ∧ v ≠ .gone := by
  cases value with
  | int value => exact ⟨_, rfl, by simp⟩
  | str value => exact ⟨_, rfl, by simp⟩
  | vec value =>
    cases value with
    | nil => exact ⟨_, rfl, by simp⟩
    | cons b value => exact ⟨_, rfl, by simp⟩
  | empty => exact absurd rfl h

theorem Statement.dangles_iff {s : Statement} : s.Dangles ↔ ∃ i, s.bound.lookup i = some .gone :=
  Dict.mem_values

/-- Statements that go on in the same way, with nothing bound that has been destroyed. -/
structure Statement.Alike (s t : Statement) : Prop where
  text : s.text = t.text
  rows : s.rows = t.rows
  row : s.row = t.row
  bound : ∀ i, s.bound.lookup i = t.bound.lookup i
  live : ¬t.Dangles

namespace Statement.Alike

variable {δ : Type} {s t : Statement}

theorem live_left (h : s.Alike t) : ¬s.Dangles := by
  intro hs
  obtain ⟨i, hi⟩ := dangles_iff.1 hs
  exact h.live (dangles_iff.2 ⟨i, (h.bound i).symm.trans hi⟩)

theorem valueOf_eq (h : s.Alike t) : s.valueOf = t.valueOf := by
  funext i
  rw [valueOf, valueOf, h.bound]

theorem reset (h : s.Alike t) : s.reset.Alike t.reset := ⟨h.text, rfl, rfl, h.bound, h.live⟩

/-- A step is defined and gives the same result, and alike statements. -/
theorem step (h : s.Alike t) (sql : Sqlite δ) (db : δ) :
    ∃ result s' t' db', s.step sql db = some (result, s', db') ∧
      t.step sql db = some (result, t', db') ∧ s'.Alike t' := by
  have hrun : sql.run s.text s.valueOf db = sql.run t.text t.valueOf db := by
    rw [h.text, h.valueOf_eq]
  unfold Statement.step
  rw [if_neg h.live_left, if_neg h.live, h.rows, hrun]
  cases t.rows with
  | some rows =>
    cases rows with
    | nil => exact ⟨_, _, _, _, rfl, rfl, h.reset⟩
    | cons row rows => exact ⟨_, _, _, _, rfl, rfl, ⟨h.text, rfl, rfl, h.bound, h.live⟩⟩
  | none =>
    cases sql.run t.text t.valueOf db with
    | none => exact ⟨_, _, _, _, rfl, rfl, h.reset⟩
    | some r =>
      obtain ⟨rows, db'⟩ := r
      cases rows with
      | nil => exact ⟨_, _, _, _, rfl, rfl, h.reset⟩
      | cons row rows => exact ⟨_, _, _, _, rfl, rfl, ⟨h.text, rfl, rfl, h.bound, h.live⟩⟩

/-- So does a loop. -/
theorem fetch (h : s.Alike t) (sql : Sqlite δ) (n : ℕ) (db : δ) :
    ∃ rows s' t' db', s.fetch sql n db = some (rows, s', db') ∧
      t.fetch sql n db = some (rows, t', db') ∧ s'.Alike t' := by
  induction n generalizing s t db with
  | zero => exact ⟨_, _, _, _, rfl, rfl, h⟩
  | succ n ih =>
    obtain ⟨result, s', t', db', hs, ht, h'⟩ := h.step sql db
    by_cases hresult : result = .row
    · obtain ⟨rows, s'', t'', db'', hs', ht', h''⟩ := ih h' db'
      refine ⟨s'.row.getD [] :: rows, s'', t'', db'', ?_, ?_, h''⟩
      · simp [Statement.fetch, hs, hresult, hs']
      · simp [Statement.fetch, ht, hresult, ht', h'.row]
    · refine ⟨[], s', t', db', ?_, ?_, h'⟩
      · simp [Statement.fetch, hs, hresult]
      · simp [Statement.fetch, ht, hresult]

end Statement.Alike

namespace StatementT

variable {owner : ℕ}

/-- Values are bound at positions of parameters only. -/
def Bounded (s : StatementT) : Prop :=
  ∀ i ∈ s.sqliteStatement.bound, ∃ name, s.statementParams.lookup name = some i

@[simp] theorem statementParams_bindAt (s : StatementT) (i : ℕ) (value : DbData) :
    (s.bindAt owner i value).statementParams = s.statementParams := by
  unfold bindAt
  cases value.bind owner <;> rfl

@[simp] theorem text_bindAt (s : StatementT) (i : ℕ) (value : DbData) :
    (s.bindAt owner i value).sqliteStatement.text = s.sqliteStatement.text := by
  unfold bindAt
  cases value.bind owner <;> rfl

theorem Bounded.bindAt {s : StatementT} (h : s.Bounded) {name : String} {i : ℕ}
    (hname : s.statementParams.lookup name = some i) (value : DbData) :
    (s.bindAt owner i value).Bounded := by
  intro j hj
  rw [statementParams_bindAt]
  unfold StatementT.bindAt at hj
  cases hvalue : value.bind owner with
  | none =>
    rw [hvalue] at hj
    exact h j hj
  | some v =>
    rw [hvalue] at hj
    rcases (AList.mem_insert _).1 hj with rfl | hj
    · exact ⟨name, hname⟩
    · exact h j hj

/-- What binding leaves as it is. -/
theorem bindParams_spec (owner : ℕ) (params : List (String × DbData)) {s : StatementT}
    (h : s.Bounded) :
    (bindParams owner params s).2.Bounded ∧
      (bindParams owner params s).2.statementParams = s.statementParams ∧
      (bindParams owner params s).2.sqliteStatement.text = s.sqliteStatement.text := by
  induction params generalizing s with
  | nil => exact ⟨h, rfl, rfl⟩
  | cons p params ih =>
    rw [bindParams]
    cases hname : s.statementParams.lookup p.1 with
    | none => exact ⟨h, rfl, rfl⟩
    | some i =>
      obtain ⟨h1, h2, h3⟩ := ih (h.bindAt hname p.2)
      exact ⟨h1, h2.trans (statementParams_bindAt s i p.2), h3.trans (text_bindAt s i p.2)⟩

/-- Binding brings in nothing that has been destroyed. -/
theorem not_dangles_bindAt {s : StatementT} (h : ¬s.sqliteStatement.Dangles) (i : ℕ)
    (value : DbData) : ¬(s.bindAt owner i value).sqliteStatement.Dangles := by
  unfold bindAt
  by_cases hvalue : value = .empty
  · rw [hvalue]
    exact h
  · obtain ⟨v, hv, hgone⟩ := DbData.isSome_bind hvalue owner
    rw [hv, Statement.dangles_iff]
    rintro ⟨j, hj⟩
    by_cases hji : j = i
    · rw [hji, AList.lookup_insert] at hj
      exact hgone (Option.some.inj hj)
    · rw [AList.lookup_insert_ne hji] at hj
      exact h (Statement.dangles_iff.2 ⟨j, hj⟩)

theorem not_dangles_bindParams (owner : ℕ) (params : List (String × DbData)) {s : StatementT}
    (h : ¬s.sqliteStatement.Dangles) :
    ¬(bindParams owner params s).2.sqliteStatement.Dangles := by
  induction params generalizing s with
  | nil => exact h
  | cons p params ih =>
    rw [bindParams]
    cases s.statementParams.lookup p.1 with
    | none => exact h
    | some i => exact ih (not_dangles_bindAt h i p.2)

/-- Statements of one text, which may differ in what is bound at the positions `I`. -/
structure AlikeBut (I : Set ℕ) (s t : StatementT) : Prop where
  statementParams : s.statementParams = t.statementParams
  text : s.sqliteStatement.text = t.sqliteStatement.text
  rows : s.sqliteStatement.rows = t.sqliteStatement.rows
  row : s.sqliteStatement.row = t.sqliteStatement.row
  bound : ∀ i, i ∉ I → s.sqliteStatement.bound.lookup i = t.sqliteStatement.bound.lookup i

namespace AlikeBut

variable {I J : Set ℕ} {s t : StatementT}

theorem mono (h : AlikeBut I s t) (hIJ : I ⊆ J) : AlikeBut J s t :=
  { h with bound := fun i hi => h.bound i fun hI => hi (hIJ hI) }

theorem alike (h : AlikeBut ∅ s t) (hlive : ¬t.sqliteStatement.Dangles) :
    s.sqliteStatement.Alike t.sqliteStatement :=
  ⟨h.text, h.rows, h.row, fun i => h.bound i (Set.notMem_empty i), hlive⟩

/-- Where the same is bound, there is no difference any more. -/
theorem bindAt (h : AlikeBut I s t) (i : ℕ) (value : DbData) :
    AlikeBut {j ∈ I | j = i → value = .empty} (s.bindAt owner i value)
      (t.bindAt owner i value) := by
  unfold StatementT.bindAt
  by_cases hvalue : value = .empty
  · rw [hvalue]
    exact h.mono fun j hj => ⟨hj, fun _ => rfl⟩
  · obtain ⟨v, hv, -⟩ := DbData.isSome_bind hvalue owner
    rw [hv]
    refine { h with bound := fun j hj => ?_ }
    dsimp only
    by_cases hji : j = i
    · rw [hji, AList.lookup_insert, AList.lookup_insert]
    · rw [AList.lookup_insert_ne hji, AList.lookup_insert_ne hji]
      exact h.bound j fun hI => hj ⟨hI, fun h => absurd h hji⟩

theorem bindParams (h : AlikeBut I s t) (owner : ℕ) (params : List (String × DbData)) :
    ∃ ok s' t', StatementT.bindParams owner params s = (ok, s') ∧
      StatementT.bindParams owner params t = (ok, t') ∧
      AlikeBut {j ∈ I | ok = true → ∀ p ∈ params, s.statementParams.lookup p.1 = some j →
        p.2 = .empty} s' t' := by
  induction params generalizing I s t with
  | nil => exact ⟨true, s, t, rfl, rfl, h.mono fun j hj => ⟨hj, fun _ p hp => by cases hp⟩⟩
  | cons p params ih =>
    rw [StatementT.bindParams, StatementT.bindParams, ← h.statementParams]
    cases hname : s.statementParams.lookup p.1 with
    | none => exact ⟨false, s, t, rfl, rfl, h.mono fun j hj => ⟨hj, fun h => by cases h⟩⟩
    | some i =>
      obtain ⟨ok, s', t', hs, ht, h'⟩ := ih (h.bindAt i p.2)
      refine ⟨ok, s', t', hs, ht, h'.mono fun j hj => ⟨hj.1.1, fun hok q hq hlookup => ?_⟩⟩
      rcases List.mem_cons.1 hq with rfl | hq
      · rw [hname, Option.some.injEq] at hlookup
        exact hj.1.2 hlookup.symm
      · refine hj.2 hok q hq ?_
        rw [statementParams_bindAt]
        exact hlookup

end AlikeBut

/-! ### Calls with all parameters -/

/-- The statement of a text, before the first call. -/
def fresh (names : List String) (text : String) : StatementT :=
  populateStatementParams names ⟨{ text := text }, ∅⟩

theorem not_dangles_fresh (names : List String) (text : String) :
    ¬(fresh names text).sqliteStatement.Dangles := by
  rw [Statement.dangles_iff]
  rintro ⟨i, hi⟩
  cases hi

theorem lookup_foldl_insert {l : List (String × ℕ)} {params : Dict String ℕ} {k : String} {i : ℕ}
    (h : (l.foldl (fun params p => params.insert (snip p.1) p.2) params).lookup k = some i) :
    params.lookup k = some i ∨ ∃ p ∈ l, snip p.1 = k ∧ p.2 = i := by
  induction l generalizing params with
  | nil => exact .inl h
  | cons p l ih =>
    rcases ih h with h | ⟨q, hq, hqk, hqi⟩
    · by_cases hk : k = snip p.1
      · subst hk
        rw [AList.lookup_insert, Option.some.injEq] at h
        exact .inr ⟨p, List.mem_cons_self, rfl, h⟩
      · rw [AList.lookup_insert_ne hk] at h
        exact .inl h
    · exact .inr ⟨q, List.mem_cons_of_mem _ hq, hqk, hqi⟩

/-- A position has a name, which is the key with a first character. -/
theorem exists_name_of_lookup {names : List String} {text k : String} {i : ℕ}
    (h : (fresh names text).statementParams.lookup k = some i) :
    ∃ name, names[i - 1]? = some name ∧ 1 ≤ i ∧ snip name = k := by
  rcases lookup_foldl_insert h with h | ⟨p, hp, hk, rfl⟩
  · cases h
  · obtain ⟨hle, hget⟩ := List.mk_mem_zipIdx_iff_le_and_getElem?_sub.1 hp
    exact ⟨p.1, hget, hle, hk⟩

/-- A statement that was used, for a text. -/
structure Used (names : List String) (text : String) (s : StatementT) : Prop where
  text_eq : s.sqliteStatement.text = text
  statementParams : s.statementParams = (fresh names text).statementParams
  bounded : s.Bounded

variable {names : List String} {text : String}

theorem used_fresh (names : List String) (text : String) : Used names text (fresh names text) :=
  ⟨rfl, rfl, fun _ hi => absurd hi (AList.notMem_empty _)⟩

theorem Used.prepare {s : StatementT} (h : Used names text s) (owner : ℕ)
    (params : List (String × DbData)) : Used names text (s.prepare owner params).2 := by
  obtain ⟨h1, h2, h3⟩ := bindParams_spec owner params (s := { s with
    sqliteStatement := s.sqliteStatement.reset }) h.bounded
  exact ⟨h3.trans h.text_eq, h2.trans h.statementParams, h1⟩

/-- Used statements differ in what is bound only. -/
theorem Used.alikeBut {s t : StatementT} (hs : Used names text s) (ht : Used names text t) :
    AlikeBut {i | ∃ name, (fresh names text).statementParams.lookup name = some i}
      { s with sqliteStatement := s.sqliteStatement.reset }
      { t with sqliteStatement := t.sqliteStatement.reset } where
  statementParams := hs.statementParams.trans ht.statementParams.symm
  text := hs.text_eq.trans ht.text_eq.symm
  rows := rfl
  row := rfl
  bound i hi := by
    have hnone : ∀ {u : StatementT}, Used names text u →
        u.sqliteStatement.bound.lookup i = none :=
      fun hu => AList.lookup_eq_none.2 fun hmem => hi (by
        obtain ⟨name, hname⟩ := hu.bounded i hmem
        exact ⟨name, hu.statementParams ▸ hname⟩)
    exact (hnone hs).trans (hnone ht).symm

/-- **After a call with all parameters nothing is left of the calls before.** -/
theorem Used.prepare_alike {s : StatementT} (hs : Used names text s)
    {params : List (String × DbData)}
    (hcovers : ∀ name ∈ names, ∃ p ∈ params, p.1 = snip name ∧ p.2 ≠ .empty) (owner : ℕ) :
    ∃ ok s' t', s.prepare owner params = (ok, s') ∧
      (fresh names text).prepare owner params = (ok, t') ∧
      (ok = true → s'.sqliteStatement.Alike t'.sqliteStatement) := by
  obtain ⟨ok, s', t', hs', ht', h⟩ :=
    (hs.alikeBut (used_fresh names text)).bindParams owner params
  refine ⟨ok, s', t', hs', ht', fun hok => AlikeBut.alike (h.mono ?_) ?_⟩
  · rintro i ⟨⟨k, hk⟩, hall⟩
    obtain ⟨name, hget, -, rfl⟩ := exists_name_of_lookup hk
    obtain ⟨p, hp, hpname, hvalue⟩ := hcovers name (List.mem_of_getElem? hget)
    refine hvalue (hall hok p hp ?_)
    show s.statementParams.lookup p.1 = some i
    rw [hs.statementParams, hpname]
    exact hk
  · have hlive := not_dangles_bindParams owner params
      (s := { fresh names text with
        sqliteStatement := (fresh names text).sqliteStatement.reset })
      (not_dangles_fresh names text)
    rw [ht'] at hlive
    exact hlive

/-! ### The values of the parameters -/

theorem mem_foldl_insert {l : List (String × ℕ)} {params : Dict String ℕ} {k : String}
    (h : k ∈ params ∨ ∃ p ∈ l, snip p.1 = k) :
    k ∈ l.foldl (fun params p => params.insert (snip p.1) p.2) params := by
  induction l generalizing params with
  | nil =>
    rcases h with h | ⟨p, hp, -⟩
    · exact h
    · cases hp
  | cons p l ih =>
    refine ih ?_
    rcases h with h | ⟨q, hq, rfl⟩
    · exact .inl ((AList.mem_insert _).2 (.inr h))
    · rcases List.mem_cons.1 hq with rfl | hq
      · exact .inl ((AList.mem_insert _).2 (.inl rfl))
      · exact .inr ⟨q, hq, rfl⟩

/-- The position of a name, when no two are the same without the symbols in front. -/
theorem lookup_fresh (hdistinct : (names.map snip).Nodup) {name : String} (hname : name ∈ names) :
    (fresh names text).statementParams.lookup (snip name) = some (names.idxOf name + 1) := by
  have hmem : snip name ∈ (fresh names text).statementParams := by
    obtain ⟨i, hi⟩ := List.getElem?_of_mem hname
    exact mem_foldl_insert (.inr
      ⟨(name, 1 + i), List.mk_add_mem_zipIdx_iff_getElem?.2 hi, rfl⟩)
  obtain ⟨i, hi⟩ := Dict.mem_iff_lookup.1 hmem
  obtain ⟨name', hget, hle, hsnip⟩ := exists_name_of_lookup hi
  obtain rfl := List.inj_on_of_nodup_map hdistinct (List.mem_of_getElem? hget) hname hsnip
  obtain ⟨hlt, hget⟩ := List.getElem?_eq_some_iff.1 hget
  have hidx : names.idxOf name' = i - 1 := by
    rw [← hget]
    exact List.Nodup.idxOf_getElem (List.Nodup.of_map snip hdistinct) (i - 1) hlt
  rw [hi, hidx, Nat.sub_add_cancel hle]

/-- Different names have different positions. -/
theorem eq_of_lookup {k k' : String} {i : ℕ}
    (h : (fresh names text).statementParams.lookup k = some i)
    (h' : (fresh names text).statementParams.lookup k' = some i) : k = k' := by
  obtain ⟨name, hname, -, rfl⟩ := exists_name_of_lookup h
  obtain ⟨name', hname', -, rfl⟩ := exists_name_of_lookup h'
  rw [hname, Option.some.injEq] at hname'
  rw [hname']

/-- A position stays as it is when no parameter has it. -/
theorem lookup_bindParams {params : List (String × DbData)} {s : StatementT} {i : ℕ}
    (h : ∀ p ∈ params, s.statementParams.lookup p.1 ≠ some i) :
    (bindParams owner params s).2.sqliteStatement.bound.lookup i =
      s.sqliteStatement.bound.lookup i := by
  induction params generalizing s with
  | nil => rfl
  | cons p params ih =>
    rw [bindParams]
    cases hname : s.statementParams.lookup p.1 with
    | none => rfl
    | some j =>
      have hij : i ≠ j := fun hij => h p List.mem_cons_self (hij ▸ hname)
      refine (ih fun q hq => ?_).trans ?_
      · rw [statementParams_bindAt]
        exact h q (List.mem_cons_of_mem _ hq)
      · unfold bindAt
        cases p.2.bind owner with
        | none => rfl
        | some v => exact AList.lookup_insert_ne hij

theorem bindParams_values (owner : ℕ) (params : List (String × DbData)) {s : StatementT}
    (hinj : ∀ k k' i, s.statementParams.lookup k = some i → s.statementParams.lookup k' = some i →
      k = k')
    (hnodup : (params.map Prod.fst).Nodup) (hknown : ∀ p ∈ params, p.1 ∈ s.statementParams) :
    (bindParams owner params s).1 = true ∧
      ∀ p ∈ params, ∀ v, p.2.bind owner = some v → ∀ i, s.statementParams.lookup p.1 = some i →
        (bindParams owner params s).2.sqliteStatement.bound.lookup i = some v := by
  induction params generalizing s with
  | nil => exact ⟨rfl, fun p hp => by cases hp⟩
  | cons p params ih =>
    obtain ⟨i, hi⟩ := Dict.mem_iff_lookup.1 (hknown p List.mem_cons_self)
    rw [List.map_cons, List.nodup_cons] at hnodup
    have hrest := ih (s := s.bindAt owner i p.2) (by rwa [statementParams_bindAt]) hnodup.2
      (fun q hq => by
        rw [statementParams_bindAt]
        exact hknown q (List.mem_cons_of_mem _ hq))
    rw [statementParams_bindAt] at hrest
    rw [bindParams, hi]
    refine ⟨hrest.1, fun q hq v hv j hj => ?_⟩
    rcases List.mem_cons.1 hq with rfl | hq
    · -- no parameter after this one has its position
      obtain rfl : i = j := by simpa [hi] using hj
      refine (lookup_bindParams fun r hr hlookup => ?_).trans ?_
      · rw [statementParams_bindAt] at hlookup
        exact hnodup.1 (hinj _ _ i hi hlookup ▸ List.mem_map_of_mem hr)
      · rw [bindAt, hv]
        exact AList.lookup_insert _
    · exact hrest.2 q hq v hv j hj

theorem rows_bindParams (params : List (String × DbData)) (s : StatementT) :
    (bindParams owner params s).2.sqliteStatement.rows = s.sqliteStatement.rows := by
  induction params generalizing s with
  | nil => rfl
  | cons p params ih =>
    rw [bindParams]
    cases s.statementParams.lookup p.1 with
    | none => rfl
    | some i =>
      refine (ih (s.bindAt owner i p.2)).trans ?_
      unfold bindAt
      cases p.2.bind owner <;> rfl

/-- **The parameters have the values of the call**, whatever was bound to them before. -/
theorem Used.prepare_values {s : StatementT} (h : Used names text s)
    (hdistinct : (names.map snip).Nodup) {params : List (String × DbData)}
    (hkeys : (params.map Prod.fst).Perm (names.map snip)) (hvalues : ∀ p ∈ params, p.2 ≠ .empty)
    (owner : ℕ) :
    ∃ s', s.prepare owner params = (true, s') ∧ s'.sqliteStatement.text = text ∧
      s'.sqliteStatement.rows = none ∧ ¬s'.sqliteStatement.Dangles ∧
      ∀ name ∈ names, ∀ p ∈ params, p.1 = snip name → ∀ v, p.2.bind owner = some v →
        s'.sqliteStatement.valueOf (names.idxOf name + 1) = v.value := by
  have hparams := h.statementParams
  have hmem : ∀ k ∈ names.map snip, ∃ p ∈ params, p.1 = k := fun k hk =>
    List.mem_map.1 (hkeys.symm.subset hk)
  obtain ⟨htrue, hbound⟩ := bindParams_values owner params
    (s := { s with sqliteStatement := s.sqliteStatement.reset })
    (fun k k' i hk hk' => eq_of_lookup (hparams ▸ hk) (hparams ▸ hk'))
    (hkeys.nodup_iff.2 hdistinct) (fun p hp => by
      obtain ⟨name, hname, hsnip⟩ := List.mem_map.1 (hkeys.subset (List.mem_map_of_mem hp))
      show p.1 ∈ s.statementParams
      rw [hparams, ← hsnip]
      exact Dict.mem_iff_lookup.2 ⟨_, lookup_fresh hdistinct hname⟩)
  have hcovers : ∀ name ∈ names, ∃ p ∈ params, p.1 = snip name ∧ p.2 ≠ .empty :=
    fun name hname => by
      obtain ⟨p, hp, hpname⟩ := hmem _ (List.mem_map_of_mem hname)
      exact ⟨p, hp, hpname, hvalues p hp⟩
  obtain ⟨ok, s', t', hs', -, halike⟩ := h.prepare_alike hcovers owner
  have hsnd : (s.prepare owner params).2 = s' := congrArg Prod.snd hs'
  obtain rfl : ok = true := (congrArg Prod.fst hs').symm.trans htrue
  refine ⟨s', hs', ?_, ?_, (halike rfl).live_left, fun name hname p hp hp1 v hv => ?_⟩
  · rw [← hsnd]
    exact (h.prepare owner params).text_eq
  · rw [← hsnd]
    exact rows_bindParams params _
  · have hlookup : s.statementParams.lookup p.1 = some (names.idxOf name + 1) := by
      rw [hparams, hp1, lookup_fresh hdistinct hname]
    have hvalue := hbound p hp v hv _ hlookup
    rw [← hsnd]
    exact congrArg (fun b => (Option.map Bound.value b).getD .null) hvalue

end StatementT

/-! ### Runs of calls -/

namespace Statement

variable {δ : Type} {sql : Sqlite δ}

theorem step_keeps {s : Statement} {db : δ} {r : StepResult × Statement × δ}
    (h : s.step sql db = some r) : r.2.1.text = s.text ∧ r.2.1.bound = s.bound := by
  unfold step at h
  split at h
  · cases h
  · split at h
    · cases h
      exact ⟨rfl, rfl⟩
    · cases h
      exact ⟨rfl, rfl⟩
    · split at h <;> cases h <;> exact ⟨rfl, rfl⟩

theorem fetch_keeps {n : ℕ} {s : Statement} {db : δ} {r : List (List SqlValue) × Statement × δ}
    (h : s.fetch sql n db = some r) : r.2.1.text = s.text ∧ r.2.1.bound = s.bound := by
  induction n generalizing s db r with
  | zero =>
    cases h
    exact ⟨rfl, rfl⟩
  | succ n ih =>
    simp only [fetch, Option.bind_eq_bind, Option.bind_eq_some_iff] at h
    obtain ⟨⟨result, s', db'⟩, hstep, h⟩ := h
    obtain ⟨htext, hbound⟩ := step_keeps hstep
    dsimp only at h
    split at h
    · obtain ⟨⟨rows, s'', db''⟩, hfetch, h⟩ := Option.bind_eq_some_iff.1 h
      obtain ⟨htext', hbound'⟩ := ih hfetch
      cases h
      exact ⟨htext'.trans htext, hbound'.trans hbound⟩
    · cases h
      exact ⟨htext, hbound⟩

/-- The rows still to come are fetched. -/
theorem fetch_started (sql : Sqlite δ) {s : Statement} (hlive : ¬s.Dangles)
    {rows : List (List SqlValue)} (h : s.rows = some rows) (n : ℕ) (db : δ) :
    ∃ s', s.fetch sql n db = some (rows.take n, s', db) := by
  induction rows generalizing s n with
  | nil =>
    cases n with
    | zero => exact ⟨_, rfl⟩
    | succ n => exact ⟨s.reset, by simp [fetch, step, h, hlive]⟩
  | cons row rows ih =>
    cases n with
    | zero => exact ⟨_, rfl⟩
    | succ n =>
      have hlive' : ¬Dangles { s with rows := some rows, row := some row } := hlive
      obtain ⟨s', hs'⟩ := ih hlive' rfl n
      exact ⟨s', by simp [fetch, step, h, hlive, hs']⟩

/-- A statement that has not been started fetches the rows of its text. -/
theorem fetch_of_run {s : Statement} (hlive : ¬s.Dangles) (h : s.rows = none) {db : δ}
    {rows : List (List SqlValue)} (hrun : sql.run s.text s.valueOf db = some (rows, db)) (n : ℕ) :
    ∃ s', s.fetch sql n db = some (rows.take n, s', db) := by
  cases n with
  | zero => exact ⟨_, rfl⟩
  | succ n =>
    cases rows with
    | nil => exact ⟨s.reset, by simp [fetch, step, h, hlive, hrun]⟩
    | cons row rows =>
      have hlive' : ¬Dangles { s with rows := some rows, row := some row } := hlive
      obtain ⟨s', hs'⟩ := fetch_started sql hlive' rfl n db
      exact ⟨s', by simp [fetch, step, h, hlive, hrun, hs']⟩

end Statement

open StatementT

theorem StatementT.Used.of_keeps {names : List String} {text : String} {s : StatementT}
    (h : Used names text s) {stmt : Statement} (htext : stmt.text = s.sqliteStatement.text)
    (hbound : ∀ i ∈ stmt.bound, i ∈ s.sqliteStatement.bound) :
    Used names text { s with sqliteStatement := stmt } where
  text_eq := htext.trans h.text_eq
  statementParams := h.statementParams
  bounded i hi := h.bounded i (hbound i hi)

namespace PersistentStorage

variable {δ : Type} {sql : Sqlite δ} {c d : PersistentStorage δ} {id text : String}
  {names : List String}

/-- A text is registered, perhaps used. -/
def Registered (c : PersistentStorage δ) (id : String) (names : List String) (text : String) :
    Prop :=
  ∃ s, c.statements.lookup id = some s ∧ Used names text s

/-- The same but for the statements. -/
structure SameData (c d : PersistentStorage δ) : Prop where
  db : c.db = d.db
  rollback : c.rollback = d.rollback
  faults : c.faults = d.faults

theorem statements_struck (c : PersistentStorage δ) (fault : Fault) :
    (c.struck fault).statements = c.statements := by
  cases fault <;> rfl

theorem stepOnce_keeps {s : Statement} {r : StepResult × Statement × PersistentStorage δ}
    (h : c.stepOnce sql s = some r) :
    r.2.1.text = s.text ∧ r.2.1.bound = s.bound ∧ r.2.2.statements = c.statements := by
  obtain ⟨⟨result, s', db⟩, hstep, h⟩ := Option.bind_eq_some_iff.1 h
  obtain ⟨htext, hbound⟩ := Statement.step_keeps hstep
  dsimp only at h
  split at h
  · cases h
    exact ⟨htext, hbound, rfl⟩
  · cases h
    exact ⟨rfl, rfl, c.statements_struck _⟩

theorem Registered.of_statements (h : c.Registered id names text)
    (heq : d.statements = c.statements) : d.Registered id names text := by
  unfold Registered
  rw [heq]
  exact h

theorem Registered.put (h : c.Registered id names text) {id' : String} {s : StatementT}
    (hs : id' = id → Used names text s) : (c.put id' s).Registered id names text := by
  by_cases hid : id' = id
  · subst hid
    exact ⟨s, AList.lookup_insert _, hs rfl⟩
  · obtain ⟨u, hu, hused⟩ := h
    exact ⟨u, (AList.lookup_insert_ne (Ne.symm hid)).trans hu, hused⟩

/-- What is registered is used, when a statement of the same id is. -/
theorem Registered.used (h : c.Registered id names text) {id' : String} {s : StatementT}
    (hs : c.statements.lookup id' = some s) (hid : id' = id) : Used names text s := by
  subst hid
  obtain ⟨u, hu, hused⟩ := h
  rw [hs, Option.some.injEq] at hu
  exact hu ▸ hused

theorem statements_exec (c : PersistentStorage δ)
    {f : PersistentStorage δ → PersistentStorage δ}
    (hf : ∀ c, (f c).statements = c.statements) : (c.exec f).statements = c.statements := by
  unfold exec
  dsimp only
  split
  · exact hf _
  · exact c.statements_struck _

theorem Registered.query (h : c.Registered id names text) {id' : String}
    {params : List (String × DbData)} {owner : ℕ} {r : Bool × PersistentStorage δ}
    (hquery : c.query sql id' params owner = some r) : r.2.Registered id names text := by
  unfold PersistentStorage.query at hquery
  split at hquery
  · cases hquery
    exact h
  · next s hs =>
    have hused : id' = id → Used names text (s.prepare owner params).2 :=
      fun hid => (h.used hs hid).prepare owner params
    split at hquery
    · next s' hs' =>
      rw [hs'] at hused
      cases hquery
      exact h.put hused
    · next s' hs' =>
      rw [hs'] at hused
      obtain ⟨⟨result, stmt, c'⟩, hstep, hquery⟩ := Option.bind_eq_some_iff.1 hquery
      obtain ⟨htext, hbound, hstatements⟩ := stepOnce_keeps hstep
      cases hquery
      exact (h.of_statements hstatements).put fun hid => (hused hid).of_keeps htext fun i hi => by
        rwa [← hbound]

theorem Registered.queryData (h : c.Registered id names text) (id' : String)
    (params : List (String × DbData)) (owner : ℕ) :
    (c.queryData id' params owner).2.Registered id names text := by
  unfold PersistentStorage.queryData
  split
  · exact h
  · next s hs => exact h.put fun hid => (h.used hs hid).prepare owner params

theorem Registered.fetch (h : c.Registered id names text) {id' : String} {n : ℕ}
    {r : List (List SqlValue) × PersistentStorage δ} (hfetch : c.fetch sql id' n = some r) :
    r.2.Registered id names text := by
  unfold PersistentStorage.fetch at hfetch
  split at hfetch
  · cases hfetch
    exact h
  · next s hs =>
    obtain ⟨⟨rows, stmt, db⟩, hrows, hfetch⟩ := Option.bind_eq_some_iff.1 hfetch
    obtain ⟨htext, hbound⟩ := Statement.fetch_keeps hrows
    cases hfetch
    have hd : PersistentStorage.Registered { c with db := db } id names text :=
      h.of_statements rfl
    exact hd.put fun hid => (h.used hs hid).of_keeps htext fun i hi => by rwa [← hbound]

/-- What is bound stays at its positions when its memory is gone. -/
theorem Registered.destroyed (h : c.Registered id names text) (owner : ℕ) :
    (c.destroyed owner).Registered id names text := by
  obtain ⟨s, hs, hused⟩ := h
  refine ⟨{ s with sqliteStatement := s.sqliteStatement.destroyed owner }, ?_, ?_⟩
  · show (Dict.mapEntries _ c.statements).lookup id = _
    rw [Dict.lookup_mapEntries, hs]
    rfl
  · exact hused.of_keeps rfl fun i hi => (Dict.mem_mapEntries _ _ i).1 hi

/-- The call registers another text under an id. -/
def Action.Registers (id : String) : Action → Prop
  | .registerQuery id' _ => id' = id
  | _ => False

/-- **A registered text stays registered.** -/
theorem Registered.step (h : c.Registered id names text) {a : Action} (ha : ¬a.Registers id)
    (hstep : c.step sql a = some d) : d.Registered id names text := by
  cases a with
  | registerQuery id' text' =>
    obtain ⟨r, hr, rfl⟩ := Option.map_eq_some_iff.1 hstep
    unfold PersistentStorage.registerQuery at hr
    split at hr
    · cases hr
      exact h
    · obtain ⟨names', -, hr⟩ := Option.bind_eq_some_iff.1 hr
      cases hr
      exact h.put fun hid => absurd hid ha
  | query id' params owner =>
    obtain ⟨r, hr, rfl⟩ := Option.map_eq_some_iff.1 hstep
    exact h.query hr
  | queryData id' params owner =>
    cases hstep
    exact h.queryData id' params owner
  | fetch id' n =>
    obtain ⟨r, hr, rfl⟩ := Option.map_eq_some_iff.1 hstep
    exact h.fetch hr
  | queryImmediate text' params owner =>
    obtain ⟨r, hr, rfl⟩ := Option.map_eq_some_iff.1 hstep
    obtain ⟨stmt, -, hr⟩ := Option.bind_eq_some_iff.1 hr
    cases stmt with
    | none =>
      cases hr
      exact h
    | some stmt =>
      obtain ⟨r', hr', hr⟩ := Option.bind_eq_some_iff.1 hr
      cases hr
      exact h.of_statements (stepOnce_keeps hr').2.2
  | selectImmediate text' params owner n =>
    obtain ⟨r, hr, rfl⟩ := Option.map_eq_some_iff.1 hstep
    obtain ⟨stmt, -, hr⟩ := Option.bind_eq_some_iff.1 hr
    cases stmt with
    | none =>
      cases hr
      exact h
    | some stmt =>
      obtain ⟨r', hr', hr⟩ := Option.bind_eq_some_iff.1 hr
      cases hr
      exact h.of_statements rfl
  | destroyed owner =>
    cases hstep
    exact h.destroyed owner
  | beginTransaction =>
    cases hstep
    exact h.of_statements (c.statements_exec fun _ => rfl)
  | commit =>
    cases hstep
    exact h.of_statements (c.statements_exec fun _ => rfl)
  | rollbackTransaction =>
    cases hstep
    exact h.of_statements (c.statements_exec fun _ => rfl)

theorem Registered.run (h : c.Registered id names text) {l : List Action}
    (hl : ∀ a ∈ l, ¬a.Registers id) (hrun : Run.run (PersistentStorage.step sql) c l = some d) :
    d.Registered id names text := by
  have halong : Run.Along (PersistentStorage.step sql) (fun _ a => ¬a.Registers id) c l :=
    Run.along_of_mem (fun a ha _ => hl a ha) c
  exact Run.run_invariant (I := fun c => c.Registered id names text)
    (fun _ _ _ h ha hstep => h.step ha hstep) h halong hrun

theorem registered_of_registerQuery (hnew : c.statements.lookup id = none)
    (hreg : c.registerQuery sql id text = some (true, d)) :
    ∃ names, sql.names text = some names ∧ d.Registered id names text := by
  unfold PersistentStorage.registerQuery at hreg
  split at hreg
  · cases hreg
  · obtain ⟨names, hnames, hreg⟩ := Option.bind_eq_some_iff.1 hreg
    cases hreg
    rw [hnew]
    exact ⟨names, hnames, _, AList.lookup_insert _, used_fresh names text⟩

/-! ### Registered and immediate -/

/-- A call has a value for every parameter of a text. -/
def Covers (sql : Sqlite δ) (text : String) (params : List (String × DbData)) : Prop :=
  ∀ names, sql.names text = some names →
    ∀ name ∈ names, ∃ p ∈ params, p.1 = snip name ∧ p.2 ≠ .empty

theorem prepareFromText_eq (hprepares : sql.prepares text c.db = true)
    (hnames : sql.names text = some names) (params : List (String × DbData)) (owner : ℕ) :
    c.prepareFromText sql text params owner =
      match (fresh names text).prepare owner params with
      | (false, _) => some none
      | (true, s) => some (some s.sqliteStatement) := by
  unfold prepareFromText
  rw [hprepares, if_neg (by decide), hnames]
  rfl

theorem stepOnce_alike {s t : Statement} (h : s.Alike t) (sql : Sqlite δ)
    (c : PersistentStorage δ) :
    ∃ result s' t' d, c.stepOnce sql s = some (result, s', d) ∧
      c.stepOnce sql t = some (result, t', d) := by
  obtain ⟨result, s', t', db, hs, ht, -⟩ := h.step sql c.db
  unfold stepOnce
  rw [hs, ht]
  dsimp only [Option.bind_eq_bind, Option.bind_some]
  split
  · exact ⟨_, _, _, _, rfl, rfl⟩
  · exact ⟨_, _, _, _, rfl, rfl⟩

theorem Registered.query_eq_immediate (h : c.Registered id names text)
    (hnames : sql.names text = some names) (hprepares : sql.prepares text c.db = true)
    {params : List (String × DbData)} (hcovers : Covers sql text params) (owner : ℕ) :
    ∃ result d d', c.query sql id params owner = some (result, d) ∧
      c.queryImmediate sql text params owner = some (result, d') ∧ SameData d d' := by
  obtain ⟨s, hs, hused⟩ := h
  obtain ⟨ok, s', t', hs', ht', halike⟩ := hused.prepare_alike (hcovers names hnames) owner
  unfold PersistentStorage.query PersistentStorage.queryImmediate
  rw [prepareFromText_eq hprepares hnames, hs, ht']
  dsimp only
  rw [hs']
  cases ok with
  | false => exact ⟨false, _, _, rfl, rfl, rfl, rfl, rfl⟩
  | true =>
    obtain ⟨result, u, v, d, hu, hv⟩ := stepOnce_alike (halike rfl) sql c
    refine ⟨result = .done, d.put id { s' with sqliteStatement := u }, d, ?_, ?_, rfl, rfl, rfl⟩
    · simp [hu]
    · simp [hv]

theorem Registered.select_eq_immediate (h : c.Registered id names text)
    (hnames : sql.names text = some names) (hprepares : sql.prepares text c.db = true)
    {params : List (String × DbData)} (hcovers : Covers sql text params) (owner n : ℕ) :
    ∃ rows d d', c.select sql id params owner n = some (rows, d) ∧
      c.selectImmediate sql text params owner n = some (rows, d') ∧ SameData d d' := by
  obtain ⟨s, hs, hused⟩ := h
  obtain ⟨ok, s', t', hs', ht', halike⟩ := hused.prepare_alike (hcovers names hnames) owner
  unfold PersistentStorage.select PersistentStorage.selectImmediate PersistentStorage.queryData
  rw [prepareFromText_eq hprepares hnames, hs, ht']
  dsimp only
  rw [hs']
  cases ok with
  | false => exact ⟨[], _, _, rfl, rfl, rfl, rfl, rfl⟩
  | true =>
    obtain ⟨rows, u, v, db, hu, hv, -⟩ := (halike rfl).fetch sql n c.db
    have hput : (c.put id s').statements.lookup id = some s' := AList.lookup_insert _
    have hdb : (c.put id s').db = c.db := rfl
    refine ⟨rows, { c.put id s' with db := db }.put id { s' with sqliteStatement := u },
      { c with db := db }, ?_, ?_, rfl, rfl, rfl⟩
    · simp only [PersistentStorage.fetch, hput, hdb, hu]
      rfl
    · simp [hv]

/-- The text of a query that inserts a row. -/
def insertText : String := "INSERT INTO ObjectTypes (type_id, name)VALUES ($id, $type)"

/-- SQLite on this text, in a database that has the one table. -/
def objectTypes : Sqlite (Dict Int64 (List UInt8)) where
  prepares text _ := text = insertText
  names text := if text = insertText then some ["$id", "$type"] else some []
  run _ value table :=
    match value 1, value 2 with
    | .integer id, .text type =>
      if id ∈ table ∨ (Dict.values table).contains type then none
      else some ([], table.insert id type)
    | _, _ => none

/-- A row is inserted, and a cursor is made for another one, which has no text of its own. -/
def insertedTwice : List Action :=
  [.query "insert_type" [("id", .int (.uint64 0)), ("type", .str [65])] 0, .destroyed 0,
    .queryData "insert_type" [("id", .int (.uint64 1))] 1, .destroyed 1, .beginTransaction]

/-- To go on with this cursor is to read the first text, which has been destroyed. -/
example : ((({ db := ∅ } : PersistentStorage _).registerQuery objectTypes "insert_type"
    insertText).bind fun r => Run.run (PersistentStorage.step objectTypes) r.2
      (insertedTwice ++ [.fetch "insert_type" 1])).isNone := by decide

end PersistentStorage

end Owlcat
