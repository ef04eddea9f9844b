import OwlcatMonoProfiler.Client.Database
import OwlcatMonoProfiler.Common.MemoryStream
import OwlcatMonoProfiler.Library.Attempts

/-!
# Migrations

`upgrade_database` of `db_migrations.cpp`, on a connection whose immediate queries may fail at any
point.  What a query text does to the tables is a parameter: SQLite runs it.

* `MigrationDb`: the tables, and apart from them the bookkeeping table `db_migrations`;
* `MigrationConnection`: the connection, with the transaction that is open on it;
* `runMigration`, `upgradeDatabase`: the source, with its exits;
* `perform`, `performAll`: what migrations do when nothing fails, said without a connection;
* `runMigration_spec`: a migration is performed, or it is struck or rejected and nothing is changed;
* `upgradeDatabase_resumable`: what an upgrade leaves behind, and how the next one goes on.
-/

namespace Owlcat

open Attempts

/-- `migration_t`; the index is given out by `upgrade_database`. -/
structure Migration where
  id : CString
  queries : List CString

/-- The migrations of this version of the client. -/
def allMigrations : List Migration :=
  [{ id := .ofLit "Create basic tables"
     queries :=
      [.ofLit ("CREATE TABLE ProfilerEvents(" ++
        "event_id INTEGER PRIMARY KEY NOT NULL," ++
        "event_type_id INT NOT NULL," ++
        "type_id INT," ++
        "address INT NOT NULL," ++
        "size INT," ++
        "frame INT NOT NULL," ++
        "callstack_id INT" ++
        ")"),
       .ofLit ("CREATE TABLE FrameStats(" ++
        "frame INTEGER PRIMARY KEY NOT NULL," ++
        "allocs INT NOT NULL," ++
        "frees INT NOT NULL," ++
        "size INT NOT NULL" ++
        ")"),
       .ofLit ("CREATE TABLE ObjectTypes(" ++
        "type_id INTEGER PRIMARY KEY NOT NULL," ++
        "name TEXT NOT NULL UNIQUE" ++
        ")"),
       .ofLit ("CREATE TABLE Callstacks(" ++
        "callstack_id INTEGER PRIMARY KEY NOT NULL," ++
        "callstack TEXT NOT NULL UNIQUE" ++
        ")"),
       .ofLit ("CREATE INDEX frame_index ON ProfilerEvents(" ++
        "    frame ASC" ++
        ");")] }]

/-- A database: `db_migrations`, if it exists, and everything else. -/
structure MigrationDb (σ : Type) where
  contents : σ
  migrations : Option (Dict CString ℕ)

namespace MigrationDb

variable {σ : Type}

/-- `CREATE TABLE IF NOT EXISTS db_migrations` -/
def createTable (db : MigrationDb σ) : MigrationDb σ :=
  { db with migrations := some (db.migrations.getD ∅) }

/-- `INSERT INTO db_migrations`; the identifier is the primary key. -/
def insertMigration (id : CString) (position : ℕ) (db : MigrationDb σ) : Option (MigrationDb σ) :=
  match db.migrations with
  | none => none
  | some table =>
    if id ∈ table then none else some { db with migrations := some (table.insert id position) }

/-- `SELECT identifier FROM db_migrations ORDER BY position` -/
def selectDbMigrations (db : MigrationDb σ) : List CString :=
  match db.migrations with
  | none => []
  | some table => (table.entries.insertionSort fun x y => x.2 ≤ y.2).map Sigma.fst

end MigrationDb

/-- A connection.  `saved` is what `ROLLBACK TRANSACTION` restores while a transaction is open,
`registers` is what `register_query` returns, and `faults` says which of the following immediate
queries fail for reasons of their own. -/
structure MigrationConnection (σ : Type) where
  db : MigrationDb σ
  saved : Option (MigrationDb σ) := none
  isOpen : Bool := true
  registers : Bool := true
  faults : List Bool := []

namespace MigrationConnection

variable {σ : Type}

/-- `query_immediate`; a statement that fails has no effect. -/
def queryImmediate (c : MigrationConnection σ)
    (statement : MigrationDb σ → Option (MigrationDb σ)) : Bool × MigrationConnection σ :=
  if c.faults.headD false then (false, { c with faults := c.faults.tail })
  else
    match statement c.db with
    | none => (false, { c with faults := c.faults.tail })
    | some db => (true, { c with db := db, faults := c.faults.tail })

/-- The constructor of `transaction`. -/
def beginTransaction (c : MigrationConnection σ) : MigrationConnection σ :=
  { c with saved := some c.db }

/-- `transaction::commit`; `m_done` is set when no transaction is open. -/
def commit (c : MigrationConnection σ) : Bool × MigrationConnection σ :=
  match c.saved with
  | none => (false, c)
  | some _ => (true, { c with saved := none })

/-- `transaction::rollback`, and the destructor of a transaction whose default is to roll back. -/
def rollback (c : MigrationConnection σ) : MigrationConnection σ :=
  match c.saved with
  | none => c
  | some db => { c with db := db, saved := none }

end MigrationConnection

section Upgrade

variable {σ : Type} (exec : CString → σ → Option σ)

/-- What a query of a migration does; it does not touch `db_migrations`. -/
def runStatement (query : CString) (db : MigrationDb σ) : Option (MigrationDb σ) :=
  (exec query db.contents).map fun contents => { db with contents := contents }

/-- The loop over the queries of a migration. -/
def runQueries : List CString → MigrationConnection σ → Bool × MigrationConnection σ
  | [], c => (true, c)
  | query :: queries, c =>
    let r := c.queryImmediate (runStatement exec query)
    if r.1 then runQueries queries r.2 else r

/-- One migration in its transaction; on every way out the destructor follows. -/
def runMigration (migration : Migration × ℕ) (c : MigrationConnection σ) :
    Bool × MigrationConnection σ :=
  let r := runQueries exec migration.1.queries c.beginTransaction
  if r.1 then
    let r := r.2.queryImmediate (MigrationDb.insertMigration migration.1.id migration.2)
    if r.1 then
      let r := r.2.commit
      (r.1, r.2.rollback)
    else (false, r.2.rollback.rollback)
  else (false, r.2.rollback.rollback)

/-- The loop over the migrations. -/
def runMigrations :
    List (Migration × ℕ) → MigrationConnection σ → Bool × MigrationConnection σ
  | [], c => (true, c)
  | migration :: migrations, c =>
    let r := runMigration exec migration c
    if r.1 then runMigrations migrations r.2 else r

/-- The migrations that are not recorded, each with its place in the whole list. -/
def incompleteMigrations (migrations : List Migration) (completed : List CString) :
    List (Migration × ℕ) :=
  migrations.zipIdx.filter fun m => m.1.id ∉ completed

/-- `upgrade_database` -/
def upgradeDatabase (migrations : List Migration) (c : MigrationConnection σ) :
    Bool × MigrationConnection σ :=
  if c.isOpen then
    let r := c.queryImmediate fun db => some db.createTable
    if r.1 then
      if r.2.registers then
        runMigrations exec (incompleteMigrations migrations r.2.db.selectDbMigrations) r.2
      else (false, r.2)
    else r
  else (false, c)

/-! ### Migrations without a connection -/

/-- Execute a migration and record it. -/
def perform (migration : Migration × ℕ) (db : MigrationDb σ) : Option (MigrationDb σ) :=
  (migration.1.queries.foldlM (fun db query => runStatement exec query db) db).bind
    (MigrationDb.insertMigration migration.1.id migration.2)

/-- Execute and record migrations one after the other. -/
def performAll (migrations : List (Migration × ℕ)) (db : MigrationDb σ) : Option (MigrationDb σ) :=
  migrations.foldlM (fun db migration => perform exec migration db) db

/-- How many immediate queries a migration takes: its own, and the one that records it. -/
def queryCount (migration : Migration × ℕ) : ℕ := migration.1.queries.length + 1

/-- How many several migrations take. -/
def queryCounts (migrations : List (Migration × ℕ)) : ℕ := (migrations.map queryCount).sum

/-- The record of a migration, if there is one. -/
def recordOf (db : MigrationDb σ) (id : CString) : Option ℕ := (db.migrations.getD ∅).lookup id

/-- The migrations without a record, in list order. -/
def unrecorded (migrations : List Migration) (db : MigrationDb σ) : List (Migration × ℕ) :=
  migrations.zipIdx.filter fun m => recordOf db m.1.id = none

/-! ### What each step does -/

/-- An immediate query takes effect, or it is struck or rejected and changes nothing. -/
theorem queryImmediate_cases (c : MigrationConnection σ)
    (statement : MigrationDb σ → Option (MigrationDb σ)) :
    (∃ db, c.queryImmediate statement = (true, { c with db := db, faults := c.faults.tail }) ∧
      ¬Struck c.faults 0 ∧ statement c.db = some db) ∨
    c.queryImmediate statement = (false, { c with faults := c.faults.tail }) ∧
      (Struck c.faults 0 ∨ statement c.db = none) := by
  have hhead : c.faults.headD false = true ↔ Struck c.faults 0 := by
    rw [struck_zero]
    cases c.faults with
    | nil => simp
    | cons fault faults => simp
  unfold MigrationConnection.queryImmediate
  split_ifs with hfault
  · exact Or.inr ⟨rfl, Or.inl (hhead.1 hfault)⟩
  · cases hdb : statement c.db with
    | none => exact Or.inr ⟨rfl, Or.inr rfl⟩
    | some db => exact Or.inl ⟨db, rfl, hhead.not.1 hfault, rfl⟩

/-- The queries of a migration: all of them take effect, or one of them is struck or rejected. -/
theorem runQueries_spec (queries : List CString) (c : MigrationConnection σ) :
    (∃ db, runQueries exec queries c =
        (true, { c with db := db, faults := c.faults.drop queries.length }) ∧
      NoFault c.faults queries.length ∧
      queries.foldlM (fun db query => runStatement exec query db) c.db = some db) ∨
    ∃ db faults, runQueries exec queries c = (false, { c with db := db, faults := faults }) ∧
      (¬NoFault c.faults queries.length ∨
        queries.foldlM (fun db query => runStatement exec query db) c.db = none) := by
  induction queries generalizing c with
  | nil => exact Or.inl ⟨c.db, rfl, noFault_zero _, rfl⟩
  | cons query queries ih =>
    rw [runQueries, List.foldlM_cons, List.length_cons, noFault_succ]
    rcases queryImmediate_cases c (runStatement exec query) with
      ⟨db, heq, hstruck, hdb⟩ | ⟨heq, hfail⟩
    · rw [heq, hdb]
      rcases ih { c with db := db, faults := c.faults.tail } with
        ⟨db', hrun, hfaults, hfold⟩ | ⟨db', faults, hrun, hfail⟩
      · refine Or.inl ⟨db', ?_, ⟨hstruck, hfaults⟩, hfold⟩
        rw [← List.drop_tail]
        exact hrun
      · exact Or.inr ⟨db', faults, hrun, hfail.imp (fun h hall => h hall.2) id⟩
    · refine Or.inr ⟨c.db, c.faults.tail, ?_, hfail.imp (fun h hall => hall.1 h) fun hnone => ?_⟩
      · rw [heq]
        rfl
      · rw [hnone]
        rfl

/-- **A migration is performed, or it is struck or rejected and nothing is changed.** -/
theorem runMigration_spec (migration : Migration × ℕ) {c : MigrationConnection σ}
    (hsaved : c.saved = none) :
    (∃ db, runMigration exec migration c =
        (true, { c with db := db, faults := c.faults.drop (queryCount migration) }) ∧
      NoFault c.faults (queryCount migration) ∧ perform exec migration c.db = some db) ∨
    ∃ faults, runMigration exec migration c = (false, { c with faults := faults }) ∧
      (¬NoFault c.faults (queryCount migration) ∨ perform exec migration c.db = none) := by
  obtain ⟨base, saved, isOpen, registers, before⟩ := c
  cases hsaved
  have hrun : ∀ r, runQueries exec migration.1.queries
      ⟨base, some base, isOpen, registers, before⟩ = r →
      runMigration exec migration ⟨base, none, isOpen, registers, before⟩ =
        if r.1 then
          let r := r.2.queryImmediate (MigrationDb.insertMigration migration.1.id migration.2)
          if r.1 then (r.2.commit.1, r.2.commit.2.rollback) else (false, r.2.rollback.rollback)
        else (false, r.2.rollback.rollback) := by
    rintro r rfl
    rfl
  have hcount : NoFault before (queryCount migration) ↔
      NoFault before migration.1.queries.length ∧
        ¬Struck (before.drop migration.1.queries.length) 0 := by
    rw [queryCount, noFault_add, noFault_one]
  rw [hcount]
  rcases runQueries_spec exec migration.1.queries ⟨base, some base, isOpen, registers, before⟩ with
    ⟨db, heq, hfaults, hfold⟩ | ⟨db, faults, heq, hfail⟩
  · rcases queryImmediate_cases
      ⟨db, some base, isOpen, registers, before.drop migration.1.queries.length⟩
      (MigrationDb.insertMigration migration.1.id migration.2) with
      ⟨db', hquery, hstruck, hinsert⟩ | ⟨hquery, hfail⟩
    · -- the transaction is committed, so its destructor has nothing to do
      refine Or.inl ⟨db', ?_, ⟨hfaults, hstruck⟩, ?_⟩
      · simp only [hrun _ heq, hquery, if_true, List.tail_drop, queryCount]
        rfl
      · rw [perform, hfold]
        exact hinsert
    · refine Or.inr ⟨(before.drop migration.1.queries.length).tail, ?_,
        hfail.imp (fun h hall => hall.2 h) fun hnone => ?_⟩
      · simp only [hrun _ heq, hquery, if_true]
        rfl
      · rw [perform, hfold]
        exact hnone
  · refine Or.inr ⟨faults, ?_, hfail.imp (fun h hall => h hall.1) fun hnone => ?_⟩
    · rw [hrun _ heq]
      rfl
    · rw [perform, hnone]
      rfl

/-- **The loop stops at the first migration that is struck or rejected**, the ones before it
performed. -/
theorem runMigrations_spec (migrations : List (Migration × ℕ)) {c : MigrationConnection σ}
    (hsaved : c.saved = none) :
    (∃ db faults, runMigrations exec migrations c = (true, { c with db := db, faults := faults }) ∧
      NoFault c.faults (queryCounts migrations) ∧ performAll exec migrations c.db = some db) ∨
    ∃ db faults done m rest, migrations = done ++ m :: rest ∧
      runMigrations exec migrations c = (false, { c with db := db, faults := faults }) ∧
      NoFault c.faults (queryCounts done) ∧ performAll exec done c.db = some db ∧
      (¬NoFault (c.faults.drop (queryCounts done)) (queryCount m) ∨ perform exec m db = none) := by
  induction migrations generalizing c with
  | nil => exact Or.inl ⟨c.db, c.faults, rfl, noFault_zero _, rfl⟩
  | cons m migrations ih =>
    rw [runMigrations]
    rcases runMigration_spec exec m hsaved with
      ⟨db, heq, hfaults, hperform⟩ | ⟨faults, heq, hfail⟩
    · have hall : ∀ done, performAll exec (m :: done) c.db = performAll exec done db := by
        intro done
        rw [performAll, List.foldlM_cons, hperform]
        rfl
      have hcount : ∀ done, queryCounts (m :: done) = queryCount m + queryCounts done :=
        fun done => List.sum_cons
      rw [heq]
      rcases ih (c := { c with db := db, faults := c.faults.drop (queryCount m) }) hsaved with
        ⟨db', faults, hrun, hrest, hdone⟩ |
        ⟨db', faults, done, m', rest, hsplit, hrun, hrest, hdone, hfail⟩
      · refine Or.inl ⟨db', faults, hrun, ?_, ?_⟩
        · rw [hcount, noFault_add]
          exact ⟨hfaults, hrest⟩
        · rw [hall]
          exact hdone
      · refine Or.inr ⟨db', faults, m :: done, m', rest, by rw [hsplit]; rfl, hrun, ?_, ?_, ?_⟩
        · rw [hcount, noFault_add]
          exact ⟨hfaults, hrest⟩
        · rw [hall]
          exact hdone
        · rw [hcount, ← List.drop_drop]
          exact hfail
    · refine Or.inr ⟨c.db, faults, [], m, migrations, rfl, ?_, noFault_zero _, rfl, hfail⟩
      rw [heq]
      rfl

/-- Without faults, migrations that can be performed are performed before the rest. -/
theorem runMigrations_append {done : List (Migration × ℕ)} (rest : List (Migration × ℕ))
    {c : MigrationConnection σ} {db : MigrationDb σ} (hsaved : c.saved = none)
    (hfaults : c.faults = []) (hdone : performAll exec done c.db = some db) :
    runMigrations exec (done ++ rest) c = runMigrations exec rest { c with db := db } := by
  induction done generalizing c with
  | nil => cases hdone; rfl
  | cons m done ih =>
    rw [performAll, List.foldlM_cons] at hdone
    obtain ⟨db', hperform, hdone⟩ := Option.bind_eq_some_iff.1 hdone
    have hnil : ∀ n, NoFault c.faults n := by
      rw [hfaults]
      exact noFault_nil
    rcases runMigration_spec exec m hsaved with ⟨db'', heq, -, hperform'⟩ | ⟨-, -, hfail⟩
    · rw [hperform, Option.some.injEq] at hperform'
      subst hperform'
      rw [hfaults, List.drop_nil] at heq
      rw [List.cons_append, runMigrations, heq]
      change runMigrations exec (done ++ rest) { c with db := db', faults := [] } = _
      rw [ih (c := { c with db := db', faults := [] }) hsaved rfl hdone, ← hfaults]
    · rw [hfail.resolve_left (not_not_intro (hnil _))] at hperform
      cases hperform

/-- A list with a migration that is struck or rejected is not performed. -/
theorem not_performed {done rest : List (Migration × ℕ)} {m : Migration × ℕ}
    {db db' : MigrationDb σ} {faults : List Bool} (hdone : performAll exec done db = some db')
    (hfail : ¬NoFault (faults.drop (queryCounts done)) (queryCount m) ∨ perform exec m db' = none) :
    ¬(NoFault faults (queryCounts (done ++ m :: rest)) ∧
      (performAll exec (done ++ m :: rest) db).isSome) := by
  rintro ⟨hfaults, hall⟩
  rw [queryCounts, List.map_append, List.sum_append, List.map_cons, List.sum_cons, noFault_add,
    noFault_add] at hfaults
  rw [performAll, List.foldlM_append] at hall
  rcases hfail with hstruck | hnone
  · exact hstruck hfaults.2.1
  · rw [show done.foldlM (fun db migration => perform exec migration db) db = some db' from hdone,
      Option.bind_eq_bind, Option.bind_some, List.foldlM_cons, hnone] at hall
    cases hall

/-! ### Records -/

theorem insertMigration_eq_some {id : CString} {position : ℕ} {db db' : MigrationDb σ}
    (h : db.insertMigration id position = some db') :
    recordOf db id = none ∧ db'.migrations.isSome ∧
      ∀ id', recordOf db' id' = if id' = id then some position else recordOf db id' := by
  unfold MigrationDb.insertMigration at h
  cases ht : db.migrations with
  | none => simp [ht] at h
  | some table =>
    simp only [ht] at h
    split_ifs at h with hid
    cases h
    refine ⟨?_, rfl, fun id' => ?_⟩
    · rw [recordOf, ht]
      exact AList.lookup_eq_none.2 hid
    · rw [recordOf, recordOf, ht]
      split_ifs with h'
      · rw [h']
        exact AList.lookup_insert _
      · exact AList.lookup_insert_ne h'

/-- Executing the queries of a migration leaves `db_migrations` alone. -/
theorem recordOf_runStatements {queries : List CString} {db db' : MigrationDb σ}
    (h : queries.foldlM (fun db query => runStatement exec query db) db = some db') :
    db'.migrations = db.migrations := by
  induction queries generalizing db with
  | nil => cases h; rfl
  | cons query queries ih =>
    rw [List.foldlM_cons] at h
    obtain ⟨db₁, hstep, h⟩ := Option.bind_eq_some_iff.1 h
    obtain ⟨contents, -, rfl⟩ := Option.map_eq_some_iff.1 hstep
    have hsame := ih h
    exact hsame

/-- A migration that is performed had no record, and gets one. -/
theorem recordOf_perform {m : Migration × ℕ} {db db' : MigrationDb σ}
    (h : perform exec m db = some db') :
    recordOf db m.1.id = none ∧ db'.migrations.isSome ∧
      ∀ id, recordOf db' id = if id = m.1.id then some m.2 else recordOf db id := by
  obtain ⟨db₁, hqueries, hinsert⟩ := Option.bind_eq_some_iff.1 h
  have hsame : ∀ id, recordOf db₁ id = recordOf db id := fun id => by
    rw [recordOf, recordOf, recordOf_runStatements exec hqueries]
  obtain ⟨h1, h2, h3⟩ := insertMigration_eq_some hinsert
  refine ⟨hsame m.1.id ▸ h1, h2, fun id => ?_⟩
  rw [h3, hsame]

/-- What is recorded after performing migrations: they, and what was recorded before. -/
theorem recordOf_performAll {migrations : List (Migration × ℕ)} {db db' : MigrationDb σ}
    (h : performAll exec migrations db = some db') :
    (∀ m ∈ migrations, recordOf db' m.1.id = some m.2) ∧
      (∀ id, recordOf db id ≠ none → recordOf db' id = recordOf db id) ∧
      ∀ id, recordOf db' id = none ↔ recordOf db id = none ∧ ∀ m ∈ migrations, m.1.id ≠ id := by
  induction migrations generalizing db with
  | nil => cases h; simp
  | cons m migrations ih =>
    rw [performAll, List.foldlM_cons] at h
    obtain ⟨db₁, hperform, h⟩ := Option.bind_eq_some_iff.1 h
    obtain ⟨hnone, -, hrecord⟩ := recordOf_perform exec hperform
    obtain ⟨ih1, ih2, ih3⟩ := ih h
    have hown : recordOf db₁ m.1.id = some m.2 := by rw [hrecord, if_pos rfl]
    refine ⟨?_, fun id hid => ?_, fun id => ?_⟩
    · rintro m' hm'
      rcases List.mem_cons.1 hm' with rfl | hm'
      · rw [ih2 _ (by rw [hown]; exact Option.some_ne_none _), hown]
      · exact ih1 m' hm'
    · have hne : id ≠ m.1.id := by
        rintro rfl
        exact hid hnone
      rw [ih2 id (by rw [hrecord, if_neg hne]; exact hid), hrecord, if_neg hne]
    · rw [ih3, hrecord, List.forall_mem_cons]
      by_cases hid : id = m.1.id
      · simp [hid]
      · rw [if_neg hid]
        constructor
        · rintro ⟨h1, h2⟩
          exact ⟨h1, Ne.symm hid, h2⟩
        · rintro ⟨h1, -, h2⟩
          exact ⟨h1, h2⟩

/-! ### The whole upgrade -/

theorem mem_selectDbMigrations {db : MigrationDb σ} {id : CString} :
    id ∈ db.selectDbMigrations ↔ recordOf db id ≠ none := by
  unfold MigrationDb.selectDbMigrations recordOf
  cases db.migrations with
  | none => simp
  | some table =>
    rw [Option.getD_some, ne_eq, AList.lookup_eq_none, not_not, AList.mem_keys, AList.keys,
      List.keys]
    exact ((List.perm_insertionSort _ _).map Sigma.fst).mem_iff

theorem incompleteMigrations_eq (migrations : List Migration) (db : MigrationDb σ) :
    incompleteMigrations migrations db.selectDbMigrations = unrecorded migrations db := by
  refine List.filter_congr fun m _ => decide_eq_decide.2 ?_
  rw [mem_selectDbMigrations, not_not]

@[simp] theorem recordOf_createTable (db : MigrationDb σ) (id : CString) :
    recordOf db.createTable id = recordOf db id := rfl

@[simp] theorem unrecorded_createTable (migrations : List Migration) (db : MigrationDb σ) :
    unrecorded migrations db.createTable = unrecorded migrations db := rfl

theorem createTable_eq_self {db : MigrationDb σ} (h : db.migrations.isSome) :
    db.createTable = db := by
  obtain ⟨table, ht⟩ := Option.isSome_iff_exists.1 h
  obtain ⟨contents, migrations⟩ := db
  cases ht
  rfl

/-- An upgrade is struck at its first statement, or goes on with the loop over the migrations. -/
theorem upgradeDatabase_cases (migrations : List Migration) {c : MigrationConnection σ}
    (hopen : c.isOpen = true) (hregisters : c.registers = true) :
    (Struck c.faults 0 ∧
      upgradeDatabase exec migrations c = (false, { c with faults := c.faults.tail })) ∨
    ¬Struck c.faults 0 ∧
      upgradeDatabase exec migrations c = runMigrations exec (unrecorded migrations c.db)
        { c with db := c.db.createTable, faults := c.faults.tail } := by
  rw [upgradeDatabase, if_pos hopen]
  rcases queryImmediate_cases c (fun db => some db.createTable) with
    ⟨db, heq, hstruck, hdb⟩ | ⟨heq, hfail⟩
  · cases hdb
    refine Or.inr ⟨hstruck, ?_⟩
    rw [heq]
    simp only [if_true, hregisters, incompleteMigrations_eq, unrecorded_createTable]
  · refine Or.inl ⟨hfail.resolve_right (Option.some_ne_none _), ?_⟩
    rw [heq]
    rfl

/-- Once some of them are performed, the rest is what is still unrecorded. -/
theorem unrecorded_of_performAll {migrations : List Migration} (db : MigrationDb σ)
    {db' : MigrationDb σ} (hids : (migrations.map Migration.id).Nodup)
    {done rest : List (Migration × ℕ)} (hsplit : unrecorded migrations db = done ++ rest)
    (hdone : performAll exec done db = some db') : unrecorded migrations db' = rest := by
  obtain ⟨-, -, hnone⟩ := recordOf_performAll exec hdone
  have hsub : unrecorded migrations db' =
      (unrecorded migrations db).filter fun m => ∀ m' ∈ done, m'.1.id ≠ m.1.id := by
    rw [unrecorded, unrecorded, List.filter_filter]
    refine List.filter_congr fun m _ => ?_
    rw [← Bool.decide_and]
    refine decide_eq_decide.2 ?_
    rw [hnone, and_comm]
  have hnodup : ((done ++ rest).map fun m => m.1.id).Nodup := by
    have hzip : (migrations.zipIdx.map fun m => m.1.id) = migrations.map Migration.id := by
      rw [show (fun m : Migration × ℕ => m.1.id) = Migration.id ∘ Prod.fst from rfl,
        ← List.map_map, List.zipIdx_map_fst]
    rw [← hsplit]
    exact (hzip ▸ hids).sublist (List.filter_sublist.map _)
  rw [List.map_append, List.nodup_append] at hnodup
  rw [hsub, hsplit, List.filter_append, List.filter_eq_nil_iff.2, List.nil_append,
    List.filter_eq_self.2]
  · intro m hm
    refine decide_eq_true fun m' hm' => ?_
    exact hnodup.2.2 _ (List.mem_map_of_mem hm') _ (List.mem_map_of_mem hm)
  · intro m hm hall
    exact of_decide_eq_true hall m hm rfl

/-- What an upgrade leaves behind. -/
structure Resumable (migrations : List Migration) (c : MigrationConnection σ) : Prop where
  /-- No transaction stays open. -/
  closed : (upgradeDatabase exec migrations c).2.saved = none
  /-- It succeeds exactly when no statement is struck and no unrecorded migration is rejected. -/
  returns : (upgradeDatabase exec migrations c).1 = true ↔
    NoFault c.faults (1 + queryCounts (unrecorded migrations c.db)) ∧
      (performAll exec (unrecorded migrations c.db) c.db.createTable).isSome
  /-- The first statement was struck and nothing has changed; or exactly the unrecorded migrations
  before the first one that is struck or rejected are executed and recorded. -/
  failed : (upgradeDatabase exec migrations c).1 = false →
    (Struck c.faults 0 ∧ (upgradeDatabase exec migrations c).2.db = c.db) ∨
    ∃ done m rest, unrecorded migrations c.db = done ++ m :: rest ∧
      NoFault c.faults (1 + queryCounts done) ∧
      performAll exec done c.db.createTable = some (upgradeDatabase exec migrations c).2.db ∧
      (¬NoFault (c.faults.drop (1 + queryCounts done)) (queryCount m) ∨
        perform exec m (upgradeDatabase exec migrations c).2.db = none)
  /-- All unrecorded migrations are executed and recorded with their place in the list; the records
  that were there stay. -/
  succeeded : (upgradeDatabase exec migrations c).1 = true →
    performAll exec (unrecorded migrations c.db) c.db.createTable =
        some (upgradeDatabase exec migrations c).2.db ∧
      (∀ m ∈ unrecorded migrations c.db,
        recordOf (upgradeDatabase exec migrations c).2.db m.1.id = some m.2) ∧
      ∀ id, recordOf c.db id ≠ none →
        recordOf (upgradeDatabase exec migrations c).2.db id = recordOf c.db id
  /-- A second upgrade without faults ends as the first would have without faults. -/
  resumes : upgradeDatabase exec migrations
      { (upgradeDatabase exec migrations c).2 with faults := [] } =
    upgradeDatabase exec migrations { c with faults := [] }
  upToDate : c.db.migrations.isSome → (∀ m ∈ migrations, recordOf c.db m.id ≠ none) →
    (upgradeDatabase exec migrations c).2.db = c.db

/-- `db_migrations` stays there while migrations are performed. -/
theorem isSome_performAll {migrations : List (Migration × ℕ)} {db db' : MigrationDb σ}
    (h : performAll exec migrations db = some db') (hdb : db.migrations.isSome) :
    db'.migrations.isSome := by
  induction migrations generalizing db with
  | nil => cases h; exact hdb
  | cons m migrations ih =>
    rw [performAll, List.foldlM_cons] at h
    obtain ⟨db₁, hperform, h⟩ := Option.bind_eq_some_iff.1 h
    exact ih h (recordOf_perform exec hperform).2.1

/-- An upgrade that goes on after some migrations does what one upgrade does. -/
theorem upgradeDatabase_resume {migrations : List Migration} {c : MigrationConnection σ}
    (hids : (migrations.map Migration.id).Nodup) (hopen : c.isOpen = true)
    (hregisters : c.registers = true) (hsaved : c.saved = none) {db : MigrationDb σ}
    {done rest : List (Migration × ℕ)} (hsplit : unrecorded migrations c.db = done ++ rest)
    (hdone : performAll exec done c.db.createTable = some db) :
    upgradeDatabase exec migrations { c with db := db, faults := [] } =
      upgradeDatabase exec migrations { c with faults := [] } := by
  have hloop : ∀ db', upgradeDatabase exec migrations { c with db := db', faults := [] } =
      runMigrations exec (unrecorded migrations db')
        { c with db := db'.createTable, faults := [] } := by
    intro db'
    rcases upgradeDatabase_cases exec migrations (c := { c with db := db', faults := [] }) hopen
      hregisters with ⟨hfault, -⟩ | ⟨-, heq⟩
    · exact absurd hfault (noFault_nil 1 0 Nat.one_pos)
    · exact heq
  have hrest : unrecorded migrations db = rest :=
    unrecorded_of_performAll exec c.db.createTable hids hsplit hdone
  calc upgradeDatabase exec migrations { c with db := db, faults := [] }
      = runMigrations exec rest { c with db := db, faults := [] } := by
        rw [hloop, hrest, createTable_eq_self (isSome_performAll exec hdone rfl)]
    _ = runMigrations exec (done ++ rest) { c with db := c.db.createTable, faults := [] } :=
        (runMigrations_append exec rest (c := { c with db := c.db.createTable, faults := [] })
          hsaved rfl hdone).symm
    _ = upgradeDatabase exec migrations { c with faults := [] } := by
        rw [← hsplit]
        exact (hloop c.db).symm

/-- An upgrade of a database that is up to date changes nothing. -/
theorem upgradeDatabase_upToDate {migrations : List Migration} {c : MigrationConnection σ}
    (hopen : c.isOpen = true) (hregisters : c.registers = true) (hexists : c.db.migrations.isSome)
    (hrecorded : ∀ m ∈ migrations, recordOf c.db m.id ≠ none) :
    (upgradeDatabase exec migrations c).2.db = c.db := by
  have hnil : unrecorded migrations c.db = [] := by
    refine List.filter_eq_nil_iff.2 fun m hm => ?_
    have hmem : m.1 ∈ migrations := by
      rw [← List.zipIdx_map_fst 0 migrations]
      exact List.mem_map_of_mem hm
    simpa using hrecorded m.1 hmem
  rcases upgradeDatabase_cases exec migrations hopen hregisters with ⟨-, heq⟩ | ⟨-, heq⟩
  · rw [heq]
  · rw [heq, hnil]
    exact createTable_eq_self hexists

/-- **Migrations are atomic and resumable.** -/
theorem upgradeDatabase_resumable {migrations : List Migration} {c : MigrationConnection σ}
    (hids : (migrations.map Migration.id).Nodup) (hopen : c.isOpen = true)
    (hregisters : c.registers = true) (hsaved : c.saved = none) :
    Resumable exec migrations c := by
  rcases upgradeDatabase_cases exec migrations hopen hregisters with
    ⟨hstruck, heq⟩ | ⟨hstruck, heq⟩
  · constructor
    · rw [heq]
      exact hsaved
    · rw [heq, add_comm, noFault_succ]
      simp [hstruck]
    · intro _
      exact Or.inl ⟨hstruck, by rw [heq]⟩
    · intro hok
      rw [heq] at hok
      cases hok
    · rw [heq]
    · exact upgradeDatabase_upToDate exec hopen hregisters
  · have hfirst : ∀ n, NoFault c.faults (1 + n) ↔ NoFault c.faults.tail n := fun n => by
      rw [add_comm, noFault_succ, and_iff_right hstruck]
    rcases runMigrations_spec exec (unrecorded migrations c.db)
        (c := { c with db := c.db.createTable, faults := c.faults.tail }) hsaved with
      ⟨db, faults, hrun, hfaults, hall⟩ |
      ⟨db, faults, done, m, rest, hsplit, hrun, hfaults, hdone, hfail⟩
    · rw [← heq] at hrun
      constructor
      · rw [hrun]
        exact hsaved
      · rw [hrun, hfirst, hall]
        exact iff_of_true rfl ⟨hfaults, rfl⟩
      · intro hno
        rw [hrun] at hno
        cases hno
      · intro _
        obtain ⟨h1, h2, -⟩ := recordOf_performAll exec hall
        rw [hrun]
        exact ⟨hall, h1, h2⟩
      · rw [hrun]
        exact upgradeDatabase_resume exec hids hopen hregisters hsaved
          (List.append_nil _).symm hall
      · exact upgradeDatabase_upToDate exec hopen hregisters
    · rw [← heq] at hrun
      constructor
      · rw [hrun]
        exact hsaved
      · rw [hrun, hfirst]
        refine iff_of_false (by simp) fun hall => ?_
        rw [hsplit] at hall
        exact not_performed exec hdone hfail hall
      · intro _
        refine Or.inr ⟨done, m, rest, hsplit, (hfirst _).2 hfaults, ?_, ?_⟩
        · rw [hrun]
          exact hdone
        · rw [hrun, ← List.drop_drop, List.drop_one]
          exact hfail
      · intro hok
        rw [hrun] at hok
        cases hok
      · rw [hrun]
        exact upgradeDatabase_resume exec hids hopen hregisters hsaved hsplit hdone
      · exact upgradeDatabase_upToDate exec hopen hregisters

end Upgrade

/-- The migrations of this version, on an empty database whose fourth statement fails. -/
theorem upgradeDatabase_resumable_allMigrations :
    Resumable (fun query (log : List CString) => some (log ++ [query])) allMigrations
      { db := ⟨[], none⟩, faults := [false, false, false, true] } :=
  upgradeDatabase_resumable _ (List.nodup_singleton _) rfl rfl rfl

end Owlcat
