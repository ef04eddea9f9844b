import OwlcatMonoProfiler.Client.Isolation
import OwlcatMonoProfiler.Library.Attempts

/-!
# Saving a frame while statements fail

`save_frame_events` runs its statements inside a transaction and looks at none of their results.

* `Interner.ask`, `bufferInserts`: the statements of a buffer, with the ids they carry;
* `saveFrameEvents_statements`: saving attempts them one after the other, changes the maps and
  clears the buffer, whatever becomes of the statements;
* `AllOrNothing`: everything is committed and the buffer is empty, or nothing is and buffer and maps
  are as before, and no transaction is open;
* `SavesAtomically`: the condition on the state and the failures under which this is so
  (`allOrNothing_saveFrameEvents_iff`).
-/

namespace Owlcat

open Attempts

/-! ### The statements of a buffer -/

namespace Interner

/-- The id of a text, and the maps after it was asked for. -/
def ask (i : Interner) (text : List UInt8) : UInt64 × Interner :=
  match i.toId.lookup text with
  | some id => (id, i)
  | none => (i.nextId, i.create text)

/-- The statement that a text without an id is stored with. -/
def newInserts (i : Interner) (insert : List UInt8 → UInt64 → Database → Option Database)
    (text : List UInt8) : List (Database → Option Database) :=
  match i.toId.lookup text with
  | some _ => []
  | none => [insert text i.nextId]

end Interner

/-- The type and callstack maps after an event. -/
def mapsAfter (types callstacks : Interner) (e : ProfilerEvent) : Interner × Interner :=
  match e.type with
  | .alloc => ((types.ask e.objType).2, (callstacks.ask e.callstack).2)
  | .free => (types, callstacks)

/-- The statements an event is saved with. -/
def eventInserts (types callstacks : Interner) (e : ProfilerEvent) :
    List (Database → Option Database) :=
  match e.type with
  | .alloc =>
    types.newInserts Database.insertType e.objType ++
      callstacks.newInserts Database.insertCallstack e.callstack ++
      [Database.insertAllocEvent e.frame e.addr e.size.toUInt64 (types.ask e.objType).1
        (callstacks.ask e.callstack).1]
  | .free => [Database.insertFreeEvent e.frame e.addr e.size]

/-- The statements of a buffer. -/
def bufferInserts (types callstacks : Interner) :
    List ProfilerEvent → List (Database → Option Database)
  | [] => []
  | e :: es =>
    eventInserts types callstacks e ++
      bufferInserts (mapsAfter types callstacks e).1 (mapsAfter types callstacks e).2 es

/-- The type and callstack maps after the events of a buffer. -/
def mapsAfterAll (types callstacks : Interner) (es : List ProfilerEvent) : Interner × Interner :=
  es.foldl (fun maps e => mapsAfter maps.1 maps.2 e) (types, callstacks)

/-! ### Their number -/

/-- The number of events, types and callstacks. -/
def Database.size (db : Database) : ℕ :=
  db.profilerEvents.length + db.objectTypes.keys.length + db.callstacks.keys.length

/-- A statement that adds an event, a type or a callstack. -/
def AddsRow (statement : Database → Option Database) : Prop :=
  ∀ db db', statement db = some db' →
    db'.size = db.size + 1 ∧ db'.frameStats = db.frameStats

theorem length_insertText {table table' : Dict Int64 (List UInt8)} {id : UInt64}
    {text : List UInt8} (h : Database.insertText table id text = some table') :
    table'.keys.length = table.keys.length + 1 := by
  unfold Database.insertText at h
  split_ifs at h with hmem
  rw [← Option.some.inj h]
  exact Interner.length_keys_insert (fun hid => hmem (Or.inl hid)) text

theorem addsRow_insertType (text : List UInt8) (id : UInt64) :
    AddsRow (Database.insertType text id) := by
  intro db db' h
  obtain ⟨table, htable, rfl⟩ := Option.map_eq_some_iff.1 h
  have hlen := length_insertText htable
  refine ⟨?_, rfl⟩
  show db.profilerEvents.length + table.keys.length + db.callstacks.keys.length = db.size + 1
  rw [hlen, Database.size]
  omega

theorem addsRow_insertCallstack (text : List UInt8) (id : UInt64) :
    AddsRow (Database.insertCallstack text id) := by
  intro db db' h
  obtain ⟨table, htable, rfl⟩ := Option.map_eq_some_iff.1 h
  have hlen := length_insertText htable
  refine ⟨?_, rfl⟩
  show db.profilerEvents.length + db.objectTypes.keys.length + table.keys.length = db.size + 1
  rw [hlen, Database.size]
  omega

/-- A statement that appends an event. -/
theorem addsRow_append {statement : Database → Option Database} {row : EventRow}
    (h : ∀ db, statement db = some { db with profilerEvents := db.profilerEvents ++ [row] }) :
    AddsRow statement := by
  intro db db' hdb
  rw [h] at hdb
  rw [← Option.some.inj hdb]
  refine ⟨?_, rfl⟩
  show (db.profilerEvents ++ [row]).length + db.objectTypes.keys.length +
    db.callstacks.keys.length = db.size + 1
  rw [List.length_append, List.length_singleton, Database.size]
  omega

theorem addsRow_newInserts {insert : List UInt8 → UInt64 → Database → Option Database}
    (h : ∀ text id, AddsRow (insert text id)) (i : Interner) (text : List UInt8) :
    ∀ statement ∈ i.newInserts insert text, AddsRow statement := by
  intro statement hmem
  unfold Interner.newInserts at hmem
  cases hid : i.toId.lookup text with
  | some id =>
    rw [hid] at hmem
    cases hmem
  | none =>
    rw [hid] at hmem
    rw [List.mem_singleton.1 hmem]
    exact h text i.nextId

theorem addsRow_eventInserts (types callstacks : Interner) (e : ProfilerEvent) :
    ∀ statement ∈ eventInserts types callstacks e, AddsRow statement := by
  intro statement hmem
  unfold eventInserts at hmem
  cases htype : e.type with
  | free =>
    rw [htype] at hmem
    rw [List.mem_singleton.1 hmem]
    exact addsRow_append fun db => rfl
  | alloc =>
    rw [htype] at hmem
    rcases List.mem_append.1 hmem with hnew | hevent
    · rcases List.mem_append.1 hnew with hnew | hnew
      · exact addsRow_newInserts addsRow_insertType types e.objType statement hnew
      · exact addsRow_newInserts addsRow_insertCallstack callstacks e.callstack statement hnew
    · rw [List.mem_singleton.1 hevent]
      exact addsRow_append fun db => rfl

theorem addsRow_bufferInserts (types callstacks : Interner) (es : List ProfilerEvent) :
    ∀ statement ∈ bufferInserts types callstacks es, AddsRow statement := by
  induction es generalizing types callstacks with
  | nil =>
    intro statement hmem
    cases hmem
  | cons e es ih =>
    intro statement hmem
    rcases List.mem_append.1 hmem with hevent | hrest
    · exact addsRow_eventInserts types callstacks e statement hevent
    · exact ih _ _ statement hrest

theorem grow_bufferInserts (types callstacks : Interner) (es : List ProfilerEvent) :
    Grow Database.size (bufferInserts types callstacks es) :=
  fun statement hmem db db' h =>
    (addsRow_bufferInserts types callstacks es statement hmem db db' h).1

/-- The statements of a buffer leave the statistics alone. -/
theorem frameStats_runAll {types callstacks : Interner} {es : List ProfilerEvent}
    {db db' : Database} (h : runAll (bufferInserts types callstacks es) db = some db') :
    db'.frameStats = db.frameStats :=
  runAll_keeps (fun statement hmem db db' h =>
    (addsRow_bufferInserts types callstacks es statement hmem db db' h).2) h

/-! ### Saving is attempting them -/

namespace Storage

/-- Which of the following statements fail for a reason of their own. -/
def strikes (st : Storage) : List Bool := st.faults.map fun fault => fault ≠ .none

/-- Which of them fail with a rollback of the whole transaction. -/
def rollbacks (st : Storage) : List Bool := st.faults.map fun fault => fault = .rollsBack

variable {st : Storage}

theorem not_rollbacks (h : ¬Struck st.strikes 0) : ¬Struck st.rollbacks 0 := by
  obtain ⟨db, rollback, faults⟩ := st
  cases faults with
  | nil => exact h
  | cons fault faults => cases fault <;> simp_all [Struck, strikes, rollbacks]

/-- Outside of a transaction nothing can be rolled back, so a failing statement has no effect. -/
theorem query_eq (statement : Database → Option Database)
    (h : st.rollback = none ∨ ¬Struck st.rollbacks 0) :
    st.query statement =
      { st with
        db := if st.strikes.head? = some true then st.db else (statement st.db).getD st.db
        faults := st.faults.tail } := by
  obtain ⟨db, rollback, faults⟩ := st
  cases faults with
  | nil => rfl
  | cons fault faults =>
    cases fault with
    | none | fails => rfl
    | rollsBack =>
      obtain rfl : rollback = none := h.resolve_right (not_not.2 rfl)
      rfl

theorem query_of_rollsBack (statement : Database → Option Database)
    (h : Struck st.rollbacks 0) :
    st.query statement = { db := st.written, faults := st.faults.tail } := by
  obtain ⟨db, rollback, faults⟩ := st
  cases faults with
  | nil => cases h
  | cons fault faults =>
    cases fault with
    | none | fails => cases h
    | rollsBack => rfl

theorem strikes_tail (st : Storage) (db : Database) (rollback : Option Database) :
    (⟨db, rollback, st.faults.tail⟩ : Storage).strikes = st.strikes.tail := List.map_tail

theorem rollbacks_tail (st : Storage) (db : Database) (rollback : Option Database) :
    (⟨db, rollback, st.faults.tail⟩ : Storage).rollbacks = st.rollbacks.tail := List.map_tail

/-- Statements one after the other, when no transaction is rolled back. -/
theorem foldl_query (st : Storage) (statements : List (Database → Option Database))
    (h : st.rollback = none ∨ NoFault st.rollbacks statements.length) :
    statements.foldl Storage.query st =
      { st with
        db := attemptAll statements st.strikes st.db
        faults := st.faults.drop statements.length } := by
  induction statements generalizing st with
  | nil => rfl
  | cons statement statements ih =>
    rw [List.length_cons, noFault_succ] at h
    rw [List.foldl_cons, query_eq statement (h.imp id And.left), ih, strikes_tail, attemptAll,
      List.length_cons, List.drop_tail]
    rw [rollbacks_tail]
    exact h.imp id And.right

/-- When the transaction is rolled back, the statements behind that place are on their own. -/
theorem foldl_query_rolledBack (st : Storage) (statements : List (Database → Option Database))
    {before : Database} (hopen : st.rollback = some before)
    (h : ¬NoFault st.rollbacks statements.length) :
    ∃ i < statements.length, ∃ struck, statements.foldl Storage.query st =
      { db := attemptAll (statements.drop (i + 1)) struck before
        faults := st.faults.drop statements.length } := by
  induction statements generalizing st with
  | nil => exact absurd (noFault_zero _) h
  | cons statement statements ih =>
    rw [List.foldl_cons, List.length_cons, ← List.drop_tail]
    by_cases hstruck : Struck st.rollbacks 0
    · refine ⟨0, Nat.succ_pos _, st.strikes.tail, ?_⟩
      rw [query_of_rollsBack statement hstruck, foldl_query _ statements (Or.inl rfl),
        strikes_tail, written, hopen]
      rfl
    · rw [List.length_cons, noFault_succ, not_and] at h
      rw [query_eq statement (Or.inr hstruck)]
      obtain ⟨i, hi, struck, heq⟩ := ih
        { st with
          db := if st.strikes.head? = some true then st.db else (statement st.db).getD st.db
          faults := st.faults.tail } hopen (by rw [rollbacks_tail]; exact h hstruck)
      exact ⟨i + 1, by omega, struck, heq⟩

end Storage

namespace Recorder

variable {d : Recorder} {st : Storage}

theorem query_statement (d : Recorder) (st : Storage) (types callstacks : Interner)
    (statement : Database → Option Database) :
    (d.record st types callstacks).query statement =
      d.record (st.query statement) types callstacks := rfl

theorem getOrCreateTypeId_statements (d : Recorder) (st : Storage) (types callstacks : Interner)
    (type : List UInt8) :
    (d.record st types callstacks).getOrCreateTypeId type =
      ((types.ask type).1,
        d.record ((types.newInserts Database.insertType type).foldl Storage.query st)
          (types.ask type).2 callstacks) := by
  unfold getOrCreateTypeId Interner.ask Interner.newInserts
  rw [types_record]
  cases types.toId.lookup type <;> rfl

theorem getOrCreateCallstackId_statements (d : Recorder) (st : Storage)
    (types callstacks : Interner) (callstack : List UInt8) :
    (d.record st types callstacks).getOrCreateCallstackId callstack =
      ((callstacks.ask callstack).1,
        d.record
          ((callstacks.newInserts Database.insertCallstack callstack).foldl Storage.query st)
          types (callstacks.ask callstack).2) := by
  unfold getOrCreateCallstackId Interner.ask Interner.newInserts
  rw [callstacks_record]
  cases callstacks.toId.lookup callstack <;> rfl

/-- One event: its statements are attempted, and its texts are in the maps from then on. -/
theorem saveEvent_statements (d : Recorder) (st : Storage) (types callstacks : Interner)
    (e : ProfilerEvent) :
    (d.record st types callstacks).saveEvent e =
      d.record ((eventInserts types callstacks e).foldl Storage.query st)
        (mapsAfter types callstacks e).1 (mapsAfter types callstacks e).2 := by
  unfold saveEvent eventInserts mapsAfter
  cases e.type with
  | free => exact query_statement d st types callstacks _
  | alloc =>
    simp only [getOrCreateTypeId_statements, getOrCreateCallstackId_statements, query_statement,
      List.foldl_append]
    rfl

theorem foldl_saveEvent_statements (d : Recorder) (st : Storage) (types callstacks : Interner)
    (es : List ProfilerEvent) :
    es.foldl saveEvent (d.record st types callstacks) =
      d.record ((bufferInserts types callstacks es).foldl Storage.query st)
        (mapsAfterAll types callstacks es).1 (mapsAfterAll types callstacks es).2 := by
  induction es generalizing st types callstacks with
  | nil => rfl
  | cons e es ih =>
    rw [List.foldl_cons, saveEvent_statements, ih, bufferInserts, List.foldl_append]
    rfl

/-- The statements of the events in the buffer. -/
def inserts (d : Recorder) : List (Database → Option Database) :=
  bufferInserts d.types d.callstacks d.frameEvents

/-- The statement of the statistics of the frame. -/
def statsInsert (d : Recorder) : Database → Option Database :=
  Database.insertFrameStats d.prevFrame d.frameAllocs d.frameFrees d.sizeRunningTotal

/-- **What `save_frame_events` does**, whatever fails. -/
theorem saveFrameEvents_statements (hdb : d.db = some st) (hframe : d.prevFrame ≠ noFrame) :
    d.saveFrameEvents = d.clearFrameEvents.record
      (((d.inserts ++ [d.statsInsert]).foldl Storage.query st.beginTransaction).commit)
      (mapsAfterAll d.types d.callstacks d.frameEvents).1
      (mapsAfterAll d.types d.callstacks d.frameEvents).2 := by
  have hbegin : d.beginTransaction = d.record st.beginTransaction d.types d.callstacks := by
    rw [beginTransaction, hdb]
    rfl
  rw [saveFrameEvents, if_neg hframe, hbegin, foldl_saveEvent_statements, List.foldl_append]
  rfl

end Recorder

/-! ### The transaction -/

namespace Storage

variable {st : Storage}

/-- A transaction is open behind `BEGIN`: it did not fail, or it failed alone and one was open
before. -/
def Begins (st : Storage) : Prop :=
  ¬Struck st.strikes 0 ∨ ¬Struck st.rollbacks 0 ∧ st.rollback.isSome

instance decidableBegins (st : Storage) : Decidable st.Begins :=
  inferInstanceAs (Decidable (_ ∨ _ ∧ _))

/-- The rows of a transaction that is open are added to those in the file. -/
def Grown (st : Storage) : Prop := st.written.size ≤ st.db.size

/-- What the statements behind `BEGIN` find; a transaction that was left open may be lost. -/
def found (st : Storage) : Database := if Struck st.rollbacks 0 then st.written else st.db

theorem found_of_begins (h : st.Begins) : st.found = st.db :=
  if_neg (h.elim not_rollbacks And.left)

theorem found_of_closed (h : st.rollback = none) : st.found = st.db := by
  rw [found, written, h]
  exact ite_self _

theorem beginTransaction_eq (st : Storage) :
    st.beginTransaction =
      { db := st.found
        rollback := if st.Begins then some st.written else none
        faults := st.faults.tail } := by
  obtain ⟨db, rollback, faults⟩ := st
  cases faults with
  | nil => rfl
  | cons fault faults =>
    cases fault with
    | none | rollsBack => rfl
    | fails => cases rollback <;> rfl

theorem commit_eq (st : Storage) :
    st.commit =
      { db := if Struck st.rollbacks 0 then st.written else st.db
        rollback :=
          if Struck st.strikes 0 ∧ ¬Struck st.rollbacks 0 then st.rollback else none
        faults := st.faults.tail } := by
  obtain ⟨db, rollback, faults⟩ := st
  cases faults with
  | nil => rfl
  | cons fault faults => cases fault <;> rfl

/-- The transaction that is open is rolled back by one of the first statements behind `BEGIN`. -/
def RollsBack (st : Storage) (n : ℕ) : Prop := st.Begins ∧ ¬NoFault st.rollbacks.tail n

/-- It stays open: it is not rolled back, and the last of them, `END`, fails. -/
def LeavesOpen (st : Storage) (n : ℕ) : Prop :=
  st.Begins ∧ NoFault st.rollbacks.tail n ∧ Struck st.strikes n

instance decidableRollsBack (st : Storage) (n : ℕ) : Decidable (st.RollsBack n) :=
  inferInstanceAs (Decidable (_ ∧ _))

instance decidableLeavesOpen (st : Storage) (n : ℕ) : Decidable (st.LeavesOpen n) :=
  inferInstanceAs (Decidable (_ ∧ _ ∧ _))

theorem commit_of_closed (h : st.rollback = none) :
    st.commit.rollback = none ∧ st.commit.db = st.db := by
  rw [commit_eq, written, h]
  exact ⟨ite_self _, ite_self _⟩

/-- The three ends of a transaction. -/
theorem commit_of_open {before : Database} (h : st.rollback = some before) :
    (¬Struck st.strikes 0 → st.commit.rollback = none ∧ st.commit.db = st.db) ∧
      (Struck st.strikes 0 → ¬Struck st.rollbacks 0 →
        st.commit.rollback = some before ∧ st.commit.db = st.db) ∧
      (Struck st.rollbacks 0 → st.commit.rollback = none ∧ st.commit.db = before) := by
  rw [commit_eq, written, h]
  refine ⟨fun hstruck => ⟨if_neg fun hand => hstruck hand.1, if_neg (not_rollbacks hstruck)⟩,
    fun hstruck hback => ⟨if_pos ⟨hstruck, hback⟩, if_neg hback⟩,
    fun hback => ⟨if_neg fun hand => hand.2 hback, if_pos hback⟩⟩

/-- The faults that are left behind the statements of a transaction. -/
theorem faults_foldl_query (statements : List (Database → Option Database)) (st : Storage) :
    (statements.foldl query st).faults = st.faults.drop statements.length := by
  induction statements generalizing st with
  | nil => rfl
  | cons statement statements ih =>
    have hfirst : (st.query statement).faults = st.faults.tail := by
      obtain ⟨db, rollback, faults⟩ := st
      cases faults with
      | nil => rfl
      | cons fault faults => cases fault <;> rfl
    rw [List.foldl_cons, ih, hfirst, List.length_cons, List.drop_tail]

/-- **A transaction with some statements in it** is closed behind them, stays open, or is rolled
back at one of them or at its end. -/
theorem transaction_cases (st : Storage) (statements : List (Database → Option Database)) :
    let st' := (statements.foldl query st.beginTransaction).commit
    (¬st.LeavesOpen (statements.length + 1) ∧ ¬st.RollsBack (statements.length + 1) ∧
      st'.rollback = none ∧ st'.db = attemptAll statements st.strikes.tail st.found) ∨
    (st.LeavesOpen (statements.length + 1) ∧ st'.rollback = some st.written ∧
      st'.db = attemptAll statements st.strikes.tail st.found) ∨
    ¬st.LeavesOpen (statements.length + 1) ∧ st.RollsBack (statements.length + 1) ∧
      st'.rollback = none ∧ ∃ i ≤ statements.length, ∃ struck,
        st'.db = attemptAll (statements.drop (i + 1)) struck st.written := by
  have hbegin := beginTransaction_eq st
  generalize hinner : st.beginTransaction = inner at hbegin ⊢
  have hstrikes : inner.strikes = st.strikes.tail := by
    rw [hbegin]
    exact strikes_tail st _ _
  have hrollbacks : inner.rollbacks = st.rollbacks.tail := by
    rw [hbegin]
    exact rollbacks_tail st _ _
  have hfound : inner.db = st.found := by rw [hbegin]
  have hkept := foldl_query inner statements
  have hfaults := faults_foldl_query statements inner
  have hback := fun before => @foldl_query_rolledBack inner statements before
  generalize statements.foldl query inner = last at hkept hfaults hback ⊢
  -- what `END` meets
  have hend : Struck last.strikes 0 ↔ Struck st.strikes (statements.length + 1) := by
    rw [strikes, hfaults, List.map_drop, struck_drop, Nat.add_zero, ← struck_tail, ← hstrikes]
    rfl
  have hendBack : NoFault st.rollbacks.tail (statements.length + 1) ↔
      NoFault inner.rollbacks statements.length ∧ ¬Struck last.rollbacks 0 := by
    rw [noFault_add, noFault_one, ← hrollbacks,
      show last.rollbacks = inner.rollbacks.drop statements.length by
        rw [Storage.rollbacks, hfaults, List.map_drop]
        rfl]
  by_cases hopen : st.Begins
  · have hrollback : inner.rollback = some st.written := by
      rw [hbegin]
      exact if_pos hopen
    by_cases hall : NoFault inner.rollbacks statements.length
    · have hlast := hkept (Or.inr hall)
      have hinner : last.rollback = some st.written := by
        rw [hlast]
        exact hrollback
      obtain ⟨hcommits, hfails, hrolls⟩ := commit_of_open hinner
      have hdb : last.db = attemptAll statements st.strikes.tail st.found := by
        rw [hlast, ← hstrikes, ← hfound]
      by_cases hstruck : Struck last.rollbacks 0
      · refine Or.inr (Or.inr ⟨fun h => (hendBack.1 h.2.1).2 hstruck,
          ⟨hopen, fun h => (hendBack.1 h).2 hstruck⟩, (hrolls hstruck).1, statements.length,
          le_refl _, [], ?_⟩)
        rw [(hrolls hstruck).2, List.drop_of_length_le (Nat.le_succ _)]
        rfl
      · have hnone := hendBack.2 ⟨hall, hstruck⟩
        by_cases hstrikes : Struck last.strikes 0
        · obtain ⟨hleft, hsame⟩ := hfails hstrikes hstruck
          exact Or.inr (Or.inl ⟨⟨hopen, hnone, hend.1 hstrikes⟩, hleft, hsame.trans hdb⟩)
        · obtain ⟨hclosed, hsame⟩ := hcommits hstrikes
          exact Or.inl ⟨fun h => hstrikes (hend.2 h.2.2), fun h => h.2 hnone, hclosed,
            hsame.trans hdb⟩
    · obtain ⟨i, hi, struck, hlast⟩ := hback st.written hrollback hall
      have hnone : last.rollback = none := by rw [hlast]
      obtain ⟨hclosed, hsame⟩ := commit_of_closed hnone
      refine Or.inr (Or.inr ⟨fun h => hall (hendBack.1 h.2.1).1,
        ⟨hopen, fun h => hall (hendBack.1 h).1⟩, hclosed, i, hi.le, struck, ?_⟩)
      rw [hsame, hlast]
  · have hrollback : inner.rollback = none := by
      rw [hbegin]
      exact if_neg hopen
    have hlast := hkept (Or.inl hrollback)
    have hnone : last.rollback = none := by
      rw [hlast]
      exact hrollback
    obtain ⟨hclosed, hsame⟩ := commit_of_closed hnone
    refine Or.inl ⟨fun h => hopen h.1, fun h => hopen h.1, hclosed, ?_⟩
    rw [hsame, hlast, ← hstrikes, ← hfound]

end Storage

/-! ### What the statements write when none fails -/

theorem Interner.ask_eq (i : Interner) (table : Dict Int64 (List UInt8)) (text : List UInt8) :
    i.ask text = ((i.intern table text).1, (i.intern table text).2.1) := by
  unfold ask intern
  cases i.toId.lookup text <;> rfl

/-- The row of a new text is not rejected while there are ids left. -/
theorem Interner.Interned.insertText {i : Interner} {table : Dict Int64 (List UInt8)}
    (h : Interned i table) (hlt : table.keys.length < 2 ^ 64) {text : List UInt8}
    (hid : i.toId.lookup text = none) :
    Database.insertText table i.nextId text = some (i.intern table text).2.2 := by
  have htext : text ∉ Dict.values table := fun ht => AList.lookup_eq_none.1 hid (h.texts text ht)
  rw [Interner.intern, hid, insertText_of_notMem (h.nextId_notMem hlt) htext, Option.getD_some]

namespace Records

variable {r : Records} {es : List ProfilerEvent}

theorem runAll_insertType (h : r.types.Interned r.db.objectTypes)
    (hlt : r.db.objectTypes.keys.length < 2 ^ 64) (type : List UInt8) :
    runAll (r.types.newInserts Database.insertType type) r.db =
      some { r.db with objectTypes := (r.types.intern r.db.objectTypes type).2.2 } := by
  unfold Interner.newInserts
  cases hid : r.types.toId.lookup type with
  | some id =>
    rw [Interner.intern, hid]
    rfl
  | none =>
    show runAll [Database.insertType type r.types.nextId] r.db = _
    rw [runAll_cons, Database.insertType, h.insertText hlt hid]
    rfl

theorem runAll_insertCallstack (h : r.callstacks.Interned r.db.callstacks)
    (hlt : r.db.callstacks.keys.length < 2 ^ 64) (callstack : List UInt8)
    (types : Dict Int64 (List UInt8)) :
    runAll (r.callstacks.newInserts Database.insertCallstack callstack)
        { r.db with objectTypes := types } =
      some { r.db with
        objectTypes := types
        callstacks := (r.callstacks.intern r.db.callstacks callstack).2.2 } := by
  unfold Interner.newInserts
  cases hid : r.callstacks.toId.lookup callstack with
  | some id =>
    rw [Interner.intern, hid]
    rfl
  | none =>
    show runAll [Database.insertCallstack callstack r.callstacks.nextId] _ = _
    rw [runAll_cons, Database.insertCallstack, h.insertText hlt hid]
    rfl

/-- One event: its statements have the effect of saving it. -/
theorem runAll_eventInserts (h : Recorded r.types r.callstacks r.db es) (hlt : es.length < 2 ^ 64)
    (e : ProfilerEvent) :
    runAll (eventInserts r.types r.callstacks e) r.db = some (r.save e).db ∧
      mapsAfter r.types r.callstacks e = ((r.save e).types, (r.save e).callstacks) := by
  unfold eventInserts mapsAfter
  cases he : e.type with
  | free =>
    simp only [save, he, storedRow]
    exact ⟨rfl, trivial⟩
  | alloc =>
    have htypes := h.typesLength
    have hcallstacks := h.callstacksLength
    have htype := Interner.lookup_intern r.types r.db.objectTypes e.objType
    have hcallstack := Interner.lookup_intern r.callstacks r.db.callstacks e.callstack
    simp only [save, he, storedRow, htype, hcallstack, runAll_append,
      runAll_insertType h.types (by omega), runAll_insertCallstack h.callstacks (by omega),
      Option.bind_some, Interner.ask_eq r.types r.db.objectTypes,
      Interner.ask_eq r.callstacks r.db.callstacks]
    exact ⟨rfl, trivial⟩

/-- The statements of a buffer have the effect of saving its events. -/
theorem runAll_bufferInserts (h : Recorded r.types r.callstacks r.db es) (l : List ProfilerEvent)
    (hlt : es.length + l.length < 2 ^ 64) :
    runAll (bufferInserts r.types r.callstacks l) r.db = some (l.foldl save r).db := by
  induction l generalizing r es with
  | nil => rfl
  | cons e l ih =>
    rw [List.length_cons] at hlt
    obtain ⟨hevent, hmaps⟩ := runAll_eventInserts h (by omega) e
    have hlen : (es ++ [e]).length + l.length < 2 ^ 64 := by
      rw [List.length_append, List.length_singleton]
      omega
    rw [bufferInserts, runAll_append, hevent, hmaps, Option.bind_some, List.foldl_cons]
    exact ih (recorded_save h e) hlen

end Records

/-! ### All or nothing -/

theorem SameRows.refl (db : Database) : SameRows db db :=
  ⟨rfl, fun _ => rfl, fun _ => rfl, fun _ => rfl⟩

theorem length_keys_of_lookup {table table' : Dict Int64 (List UInt8)}
    (h : ∀ id, table.lookup id = table'.lookup id) : table.keys.length = table'.keys.length := by
  have hperm := (Dict.perm_of_lookup h).map Sigma.fst
  exact hperm.length_eq

theorem SameRows.size {db db' : Database} (h : SameRows db db') : db.size = db'.size := by
  rw [Database.size, Database.size, h.profilerEvents, length_keys_of_lookup h.objectTypes,
    length_keys_of_lookup h.callstacks]

namespace Recorder

/-- Saving leaves everything behind or nothing.  The events of the buffer, their new types and
callstacks and the statistics of the frame are in the file and the buffer is empty, or nothing is
added, and the buffer and the maps are as before; no transaction is open.  What was there before
includes a transaction that was left open, unless SQLite has rolled it back. -/
def AllOrNothing (d : Recorder) (st : Storage) (d' : Recorder) : Prop :=
  ∃ st', d'.db = some st' ∧ st'.rollback = none ∧
    ((∃ db', runAll (d.inserts ++ [d.statsInsert]) st.found = some db' ∧
        SameRows st'.written db' ∧ d'.frameEvents = []) ∨
      (SameRows st'.written st.db ∨ SameRows st'.written st.written) ∧
        d'.frameEvents = d.frameEvents ∧ d'.types = d.types ∧ d'.callstacks = d.callstacks)

/-- The statistics of the frame are in the database already. -/
def StatsStored (d : Recorder) (db : Database) : Prop :=
  db.frameStats.lookup (DbValue.uint64 d.prevFrame).bind = some d.currentStats

instance (d : Recorder) (db : Database) : Decidable (d.StatsStored db) :=
  inferInstanceAs (Decidable (_ = _))

/-- All rows get into the database: no statement of an event fails or is rejected, and neither does
that of the statistics unless it changes nothing. -/
def InsertsAll (d : Recorder) (st : Storage) : Prop :=
  ((runAll d.inserts st.found).isSome ∧ NoFault st.strikes.tail d.inserts.length) ∧
    (¬Struck st.strikes (d.inserts.length + 1) ∨ d.StatsStored st.found)

/-- The condition under which saving is all or nothing.  Before the first frame it does nothing.
Otherwise no transaction stays open, and if there are events, all rows get into the database and no
transaction is rolled back. -/
def SavesAtomically (d : Recorder) (st : Storage) : Prop :=
  if d.prevFrame = noFrame then st.rollback = none
  else ¬st.LeavesOpen (d.inserts.length + 2) ∧
    (d.frameEvents = [] ∨ ¬st.RollsBack (d.inserts.length + 2) ∧ d.InsertsAll st)

instance (d : Recorder) (st : Storage) : Decidable (d.InsertsAll st) :=
  inferInstanceAs (Decidable ((_ ∧ _) ∧ (_ ∨ _)))

instance (d : Recorder) (st : Storage) : Decidable (d.SavesAtomically st) :=
  inferInstanceAs (Decidable (if d.prevFrame = noFrame then st.rollback = none
    else ¬st.LeavesOpen (d.inserts.length + 2) ∧
      (d.frameEvents = [] ∨ ¬st.RollsBack (d.inserts.length + 2) ∧ d.InsertsAll st)))

variable {d : Recorder} {st : Storage}

theorem statsInsert_eq (d : Recorder) (db : Database) :
    d.statsInsert db = some { db with
      frameStats := db.frameStats.insert (DbValue.uint64 d.prevFrame).bind d.currentStats } :=
  rfl

/-- Statistics that are there already change nothing. -/
theorem sameRows_statsInsert {db db' : Database} (h : d.statsInsert db = some db') :
    SameRows db db' ↔ d.StatsStored db := by
  rw [statsInsert_eq] at h
  rw [← Option.some.inj h]
  constructor
  · intro hrows
    have hlookup := hrows.frameStats (DbValue.uint64 d.prevFrame).bind
    rw [AList.lookup_insert] at hlookup
    exact hlookup
  · intro hstored
    refine ⟨rfl, fun id => ?_, fun _ => rfl, fun _ => rfl⟩
    show db.frameStats.lookup id = (db.frameStats.insert _ _).lookup id
    by_cases hid : id = (DbValue.uint64 d.prevFrame).bind
    · rw [hid, AList.lookup_insert]
      exact hstored
    · rw [AList.lookup_insert_ne hid]

theorem size_statsInsert {db db' : Database} (h : d.statsInsert db = some db') :
    db'.size = db.size := by
  rw [statsInsert_eq] at h
  rw [← Option.some.inj h]
  rfl

/-! ### The rows that are added -/

/-- The contents after some statements of a frame: the statistics add no row. -/
theorem attemptAll_stats (d : Recorder) (ops : List (Database → Option Database))
    (struck : List Bool) (db : Database) :
    attemptAll (ops ++ [d.statsInsert]) struck db =
      if Struck struck ops.length then attemptAll ops struck db
      else (d.statsInsert (attemptAll ops struck db)).getD (attemptAll ops struck db) := by
  have hstruck : (struck.drop ops.length).head? = some true ↔ Struck struck ops.length := by
    rw [← struck_zero, struck_drop, Nat.add_zero]
  rw [attemptAll_append, attemptAll, attemptAll]
  simp only [hstruck]

theorem size_attemptAll_stats (d : Recorder) (ops : List (Database → Option Database))
    (struck : List Bool) (db : Database) :
    (attemptAll (ops ++ [d.statsInsert]) struck db).size = (attemptAll ops struck db).size := by
  rw [attemptAll_stats]
  split_ifs with hstruck
  · rfl
  · exact size_statsInsert (statsInsert_eq d _)

theorem grow_inserts (d : Recorder) : Grow Database.size d.inserts :=
  grow_bufferInserts d.types d.callstacks d.frameEvents

theorem size_runAll_stats {db db' : Database}
    (h : runAll (d.inserts ++ [d.statsInsert]) db = some db') :
    db'.size = db.size + d.inserts.length := by
  rw [runAll_append, Option.bind_eq_some_iff] at h
  obtain ⟨db₁, hinserts, hstats⟩ := h
  rw [runAll_cons, Option.bind_eq_some_iff] at hstats
  obtain ⟨_, hstats, hnil⟩ := hstats
  cases hnil
  rw [size_statsInsert hstats, size_runAll d.grow_inserts hinserts]

/-- All rows are there exactly when nothing failed that adds one. -/
theorem sameRows_attempted_iff {struck : List Bool} {db : Database} :
    (∃ db', runAll (d.inserts ++ [d.statsInsert]) db = some db' ∧
        SameRows (attemptAll (d.inserts ++ [d.statsInsert]) struck db) db') ↔
      ((runAll d.inserts db).isSome ∧ NoFault struck d.inserts.length) ∧
        (¬Struck struck d.inserts.length ∨ d.StatsStored db) := by
  constructor
  · rintro ⟨db', hrun, hrows⟩
    -- the number of rows says that no insert was lost
    have hsize : (attemptAll d.inserts struck db).size = db.size + d.inserts.length := by
      rw [← size_attemptAll_stats, hrows.size, size_runAll_stats hrun]
    obtain ⟨hnone, hsome⟩ := (size_attemptAll_iff d.grow_inserts).1 hsize
    refine ⟨⟨hsome, hnone⟩, ?_⟩
    by_cases hstruck : Struck struck d.inserts.length
    · right
      rw [runAll_append, Option.bind_eq_some_iff] at hrun
      obtain ⟨db₁, hinserts, hstats⟩ := hrun
      rw [runAll_cons, Option.bind_eq_some_iff] at hstats
      obtain ⟨_, hstats, hnil⟩ := hstats
      cases hnil
      rw [attemptAll_stats, if_pos hstruck, attemptAll_of_noFault hnone hinserts] at hrows
      have hstored := (sameRows_statsInsert hstats).1 hrows
      rw [StatsStored, frameStats_runAll hinserts] at hstored
      exact hstored
    · exact Or.inl hstruck
  · rintro ⟨⟨hsome, hnone⟩, hlast⟩
    obtain ⟨db₁, hinserts⟩ := Option.isSome_iff_exists.1 hsome
    obtain ⟨db', hstats⟩ : ∃ db', d.statsInsert db₁ = some db' := ⟨_, statsInsert_eq d db₁⟩
    refine ⟨db', ?_, ?_⟩
    · rw [runAll_append, hinserts, Option.bind_some, runAll_cons, hstats, Option.bind_some,
        runAll_nil]
    · rw [attemptAll_stats, attemptAll_of_noFault hnone hinserts]
      split_ifs with hstruck
      · have hstored := hlast.resolve_left (not_not.2 hstruck)
        apply (sameRows_statsInsert hstats).2
        rw [StatsStored, frameStats_runAll hinserts]
        exact hstored
      · rw [hstats, Option.getD_some]
        exact SameRows.refl _

/-- An event has a statement of its own. -/
theorem inserts_ne_nil (h : d.frameEvents ≠ []) : 0 < d.inserts.length := by
  obtain ⟨e, es, hevents⟩ := List.exists_cons_of_ne_nil h
  rw [inserts, hevents, bufferInserts, List.length_append, eventInserts]
  cases e.type <;> simp only [List.length_append, List.length_singleton] <;> omega

/-- Behind a statement that is rolled back a row is missing. -/
theorem size_rolledBack_lt (h : d.frameEvents ≠ []) (i : ℕ) (struck : List Bool)
    (db : Database) :
    (attemptAll ((d.inserts ++ [d.statsInsert]).drop (i + 1)) struck db).size <
      db.size + d.inserts.length := by
  have hpos := inserts_ne_nil h
  by_cases hi : i < d.inserts.length
  · have hgrow : Grow Database.size (d.inserts.drop (i + 1)) := fun op hop =>
      d.grow_inserts op (List.mem_of_mem_drop hop)
    have hle := size_attemptAll_le hgrow struck db
    rw [List.length_drop] at hle
    rw [List.drop_append_of_le_length (show i + 1 ≤ d.inserts.length from hi),
      size_attemptAll_stats]
    omega
  · rw [List.drop_of_length_le (by rw [List.length_append, List.length_singleton]; omega),
      attemptAll]
    omega

/-! ### All or nothing -/

/-- Saving when there is a frame and there are events. -/
theorem allOrNothing_of_events (hdb : d.db = some st) (hgrown : st.Grown)
    (hframe : d.prevFrame ≠ noFrame) (hevents : d.frameEvents ≠ []) :
    d.AllOrNothing st d.saveFrameEvents ↔
      ¬st.LeavesOpen (d.inserts.length + 2) ∧ ¬st.RollsBack (d.inserts.length + 2) ∧
        d.InsertsAll st := by
  have hsave := saveFrameEvents_statements hdb hframe
  have hcases := st.transaction_cases (d.inserts ++ [d.statsInsert])
  rw [List.length_append, List.length_singleton] at hcases
  generalize ((d.inserts ++ [d.statsInsert]).foldl Storage.query st.beginTransaction).commit =
    st' at hsave hcases
  have hall : d.AllOrNothing st d.saveFrameEvents ↔ st'.rollback = none ∧
      ∃ db', runAll (d.inserts ++ [d.statsInsert]) st.found = some db' ∧ SameRows st'.db db' := by
    rw [hsave]
    constructor
    · rintro ⟨st'', hst'', hclosed, ⟨db', hrun, hrows, -⟩ | ⟨-, hsame, -⟩⟩
      · cases hst''
        rw [Storage.written, hclosed] at hrows
        exact ⟨hclosed, db', hrun, hrows⟩
      · -- the buffer is empty now, and was not
        exact absurd hsame.symm hevents
    · rintro ⟨hclosed, db', hrun, hrows⟩
      refine ⟨st', rfl, hclosed, Or.inl ⟨db', hrun, ?_, rfl⟩⟩
      rw [Storage.written, hclosed]
      exact hrows
  rw [hall]
  rcases hcases with ⟨hopen, hback, hclosed, hst'⟩ | ⟨hopen, hleft, -⟩ |
    ⟨-, hback, -, i, -, struck, hst'⟩
  · rw [hst', sameRows_attempted_iff, struck_tail, InsertsAll, and_iff_right hclosed,
      and_iff_right hopen, and_iff_right hback]
  · refine iff_of_false (fun h => ?_) fun h => h.1 hopen
    rw [hleft] at h
    cases h.1
  · refine iff_of_false (fun h => ?_) fun h => h.2.1 hback
    obtain ⟨-, db', hrun, hrows⟩ := h
    have hlt := size_rolledBack_lt hevents i struck st.written
    rw [← hst', hrows.size, size_runAll_stats hrun, Storage.found_of_begins hback.1] at hlt
    have hle : st.written.size ≤ st.db.size := hgrown
    omega

/-- Saving when there is a frame and the buffer is empty. -/
theorem allOrNothing_of_nil (hdb : d.db = some st) (hframe : d.prevFrame ≠ noFrame)
    (hnil : d.frameEvents = []) :
    d.AllOrNothing st d.saveFrameEvents ↔ ¬st.LeavesOpen (d.inserts.length + 2) := by
  have hinserts : d.inserts = [] := by rw [inserts, hnil, bufferInserts]
  have hsave := saveFrameEvents_statements hdb hframe
  rw [hnil] at hsave
  have hcases := st.transaction_cases (d.inserts ++ [d.statsInsert])
  rw [List.length_append, List.length_singleton] at hcases
  generalize ((d.inserts ++ [d.statsInsert]).foldl Storage.query st.beginTransaction).commit =
    st' at hsave hcases
  have hnothing : st'.rollback = none → st'.db = st.db ∨ st'.db = st.written →
      d.AllOrNothing st d.saveFrameEvents := by
    intro hclosed hsame
    rw [hsave]
    refine ⟨st', rfl, hclosed, Or.inr ⟨?_, hnil.symm, rfl, rfl⟩⟩
    rw [Storage.written, hclosed, Option.getD_none]
    rcases hsame with h | h
    · rw [h]
      exact Or.inl (.refl _)
    · rw [h]
      exact Or.inr (.refl _)
  rcases hcases with ⟨hopen, -, hclosed, hst'⟩ | ⟨hopen, hleft, -⟩ |
    ⟨hopen, -, hclosed, i, -, struck, hst'⟩
  · refine iff_of_true ?_ hopen
    by_cases hstruck : Struck st.strikes.tail 0
    · refine hnothing hclosed ?_
      rw [hst', attemptAll_stats, hinserts, List.length_nil, if_pos hstruck, attemptAll,
        Storage.found]
      split_ifs
      · exact Or.inr rfl
      · exact Or.inl rfl
    · rw [hsave]
      have haccepted : (runAll d.inserts st.found).isSome ∧
          NoFault st.strikes.tail d.inserts.length := by
        rw [hinserts]
        exact ⟨rfl, noFault_zero _⟩
      have hlast : ¬Struck st.strikes.tail d.inserts.length := by
        rw [hinserts]
        exact hstruck
      obtain ⟨db', hrun, hrows⟩ := sameRows_attempted_iff.2 ⟨haccepted, Or.inl hlast⟩
      refine ⟨st', rfl, hclosed, Or.inl ⟨db', hrun, ?_, rfl⟩⟩
      rw [Storage.written, hclosed, Option.getD_none, hst']
      exact hrows
  · refine iff_of_false (fun h => ?_) fun h => h hopen
    rw [hsave] at h
    obtain ⟨st'', hst'', hclosed, -⟩ := h
    cases hst''
    rw [hleft] at hclosed
    cases hclosed
  · refine iff_of_true (hnothing hclosed (Or.inr ?_)) hopen
    rw [hst', List.drop_of_length_le (by simp [hinserts])]
    rfl

/-- **Saving a frame is all or nothing exactly when no transaction stays open and, if there are
events, no insert of an event, type or callstack is lost, the statistics are not lost either or
change nothing, and no transaction is rolled back.**  Of a transaction that was open before it is
only known that it has not removed rows, which is so in every history (`grown_of_reachable`). -/
theorem allOrNothing_saveFrameEvents_iff (hdb : d.db = some st) (hgrown : st.Grown) :
    d.AllOrNothing st d.saveFrameEvents ↔ d.SavesAtomically st := by
  by_cases hframe : d.prevFrame = noFrame
  · rw [saveFrameEvents_of_noFrame hframe, SavesAtomically, if_pos hframe]
    constructor
    · rintro ⟨st', hst', hclosed, -⟩
      rw [hdb] at hst'
      cases hst'
      exact hclosed
    · intro hclosed
      exact ⟨st, hdb, hclosed, Or.inr ⟨Or.inr (.refl _), rfl, rfl, rfl⟩⟩
  · rw [SavesAtomically, if_neg hframe]
    by_cases hnil : d.frameEvents = []
    · rw [allOrNothing_of_nil hdb hframe hnil, and_iff_left (Or.inl hnil)]
    · rw [allOrNothing_of_events hdb hgrown hframe hnil, or_iff_right hnil]

/-- A client that has received one allocation of frame 0. -/
def oneAlloc (st : Storage) : Recorder where
  db := some st
  frameEvents := [⟨.alloc, 0, 0x10, 8, [0x54], [0x53]⟩]
  prevFrame := 0
  frameAllocs := 1
  sizeRunningTotal := 8
  hasMinFrame := true

/-- When the transaction cannot begin, every statement is committed by itself. -/
theorem allOrNothing_saveFrameEvents_noBegin :
    (oneAlloc { faults := [.fails] }).AllOrNothing { faults := [.fails] }
      (oneAlloc { faults := [.fails] }).saveFrameEvents :=
  (allOrNothing_saveFrameEvents_iff rfl (le_refl _)).2 (by decide)

/-- The insert of the type fails: the event is committed with the id of a type that has no row, the
buffer is empty, and the type keeps its id. -/
theorem saveFrameEvents_lostType :
    ¬(oneAlloc { faults := [.none, .fails] }).AllOrNothing { faults := [.none, .fails] }
        (oneAlloc { faults := [.none, .fails] }).saveFrameEvents ∧
      (oneAlloc { faults := [.none, .fails] }).saveFrameEvents.db.map (fun st =>
          (st.written.profilerEvents.map EventRow.typeId, st.written.objectTypes.keys)) =
        some ([some 0], []) ∧
      (oneAlloc { faults := [.none, .fails] }).saveFrameEvents.frameEvents = [] ∧
      (oneAlloc { faults := [.none, .fails] }).saveFrameEvents.types.toId.lookup [0x54] =
        some 0 := by
  refine ⟨?_, by decide, by decide, by decide⟩
  rw [allOrNothing_of_events rfl (le_refl _) (by decide) (by simp [oneAlloc])]
  decide

/-- In a session every statement is accepted, so a frame whose statements do not fail is saved. -/
theorem allOrNothing_of_healthy {es : List ProfilerEvent} (hdb : d.db = some st)
    (hst : st.Healthy) (h : Recorded d.types d.callstacks st.db es)
    (hlt : es.length + d.frameEvents.length < 2 ^ 64) (hframe : d.prevFrame ≠ noFrame) :
    d.AllOrNothing st d.saveFrameEvents := by
  have hstrikes : st.strikes = [] := by rw [Storage.strikes, hst.1, List.map_nil]
  have hrollbacks : st.rollbacks = [] := by rw [Storage.rollbacks, hst.1, List.map_nil]
  have hnone : ∀ i, ¬Struck st.strikes i := fun i => by
    rw [hstrikes]
    exact noFault_nil (i + 1) i (by omega)
  have hgrown : st.Grown := by
    rw [Storage.Grown, Storage.written, hst.2, Option.getD_none]
  have hopen : ∀ n, ¬st.LeavesOpen n := fun n h => hnone n h.2.2
  by_cases hnil : d.frameEvents = []
  · exact (allOrNothing_of_nil hdb hframe hnil).2 (hopen _)
  have hrun :=
    Records.runAll_bufferInserts (r := ⟨st.db, d.types, d.callstacks⟩) h d.frameEvents hlt
  have haccepted : (runAll d.inserts st.found).isSome := by
    rw [Storage.found_of_closed hst.2, inserts, hrun]
    rfl
  refine (allOrNothing_of_events hdb hgrown hframe hnil).2 ⟨hopen _, fun h => h.2 ?_,
    ⟨haccepted, fun i _ => ?_⟩, Or.inl (hnone _)⟩
  · rw [hrollbacks]
    exact noFault_nil _
  · rw [struck_tail]
    exact hnone (i + 1)

/-! ### An open transaction in every history -/

theorem db_saveEvent_of_none (hdb : d.db = none) (e : ProfilerEvent) :
    (d.saveEvent e).db = none := by
  have hquery : ∀ (d : Recorder) statement, d.db = none → (d.query statement).db = none :=
    fun d statement h => by rw [query, h, Option.map_none]
  have htype : (d.getOrCreateTypeId e.objType).2.db = none := by
    unfold getOrCreateTypeId
    cases d.types.toId.lookup e.objType with
    | some id => exact hdb
    | none => exact hquery _ _ hdb
  have hcallstack : ∀ d : Recorder, d.db = none →
      (d.getOrCreateCallstackId e.callstack).2.db = none := fun d hdb => by
    unfold getOrCreateCallstackId
    cases d.callstacks.toId.lookup e.callstack with
    | some id => exact hdb
    | none => exact hquery _ _ hdb
  unfold saveEvent
  cases e.type with
  | alloc => exact hquery _ _ (hcallstack _ htype)
  | free => exact hquery _ _ hdb

theorem db_saveFrameEvents_of_none (hdb : d.db = none) : d.saveFrameEvents.db = none := by
  have hfold : ∀ (es : List ProfilerEvent) (d : Recorder), d.db = none →
      (es.foldl saveEvent d).db = none := fun es => by
    induction es with
    | nil => exact fun _ h => h
    | cons e es ih => exact fun d h => ih _ (db_saveEvent_of_none h e)
  rw [saveFrameEvents]
  split_ifs with hframe
  · exact hdb
  · have hbegin : d.beginTransaction.db = none := by
      rw [beginTransaction, hdb, Option.map_none]
    have hall := hfold d.frameEvents _ hbegin
    show (((d.frameEvents.foldl saveEvent d.beginTransaction).db.map _).map _) = none
    rw [hall]
    rfl

/-- Saving adds rows to a transaction, or closes it. -/
theorem grown_saveFrameEvents (h : ∀ st ∈ d.db, st.Grown) :
    ∀ st ∈ d.saveFrameEvents.db, st.Grown := by
  by_cases hframe : d.prevFrame = noFrame
  · rw [saveFrameEvents_of_noFrame hframe]
    exact h
  cases hdb : d.db with
  | none =>
    rw [db_saveFrameEvents_of_none hdb]
    exact fun _ hst => by cases hst
  | some st =>
    rw [saveFrameEvents_statements hdb hframe]
    rintro st' ⟨⟩
    have hcases := st.transaction_cases (d.inserts ++ [d.statsInsert])
    generalize ((d.inserts ++ [d.statsInsert]).foldl Storage.query st.beginTransaction).commit =
      st' at hcases ⊢
    have hclosed : st'.rollback = none → st'.Grown := fun hclosed => by
      rw [Storage.Grown, Storage.written, hclosed, Option.getD_none]
    rcases hcases with ⟨-, -, hnone, -⟩ | ⟨hopen, hleft, hst'⟩ | ⟨-, -, hnone, -⟩
    · exact hclosed hnone
    · have hle : st.found.size ≤ (attemptAll d.inserts st.strikes.tail st.found).size :=
        le_size_attemptAll (fun op hop a b hab =>
          (d.grow_inserts op hop a b hab).symm ▸ Nat.le_succ _) _ _
      have hst : st.written.size ≤ st.db.size := h st hdb
      rw [Storage.Grown, Storage.written, hleft, Option.getD_some, hst', size_attemptAll_stats]
      rw [Storage.found_of_begins hopen.1] at hle ⊢
      exact hst.trans hle
    · exact hclosed hnone

end Recorder

namespace Details

variable {u : Uninit} {d d' : Details}

/-- Only the message loop runs statements; any other action keeps the connection, or makes a new
one. -/
theorem grown_of_ne_poll {a : Action} (ha : a ≠ .poll) (hstep : step u d a = some d')
    (h : ∀ st ∈ d.db, st.Grown) : ∀ st ∈ d'.db, st.Grown := by
  have hopen : ∀ file, ∀ st ∈ (d.openData file).2.db, st.Grown := by
    intro file st hst
    unfold Details.openData at hst
    split_ifs at hst
    · exact h st hst
    · cases file with
      | none => cases hst
      | some db =>
        cases hst
        exact le_refl _
  cases a with
  | poll => exact absurd rfl ha
  | start faults =>
    rw [Details.step] at hstep
    split_ifs at hstep
    cases hstep
    rintro st ⟨⟩
    exact le_refl _
  | joinThread =>
    rw [Details.step] at hstep
    split_ifs at hstep
    cases hstep
    exact h
  | closeDb =>
    rw [Details.step] at hstep
    split_ifs at hstep
    cases hstep
    exact fun st hst => by cases hst
  | receive msg =>
    cases hstep
    unfold Details.receive
    split_ifs <;> exact h
  | stop =>
    cases hstep
    split_ifs <;> exact h
  | openData file =>
    cases hstep
    exact hopen file
  | saveDb =>
    cases hstep
    unfold Details.saveDb
    cases hdb : d.db with
    | none => exact fun st hst => by rw [hdb] at hst; cases hst
    | some st => exact hopen _
  | findObjectsReferences | pauseApp | resumeApp =>
    cases hstep
    exact h

/-- **In every history the rows of an open transaction are added to those in the file.** -/
theorem grown_of_reachable (h : Run.Reachable (step u) {} d) : ∀ st ∈ d.db, st.Grown := by
  have hsave : ∀ d : Recorder, (∀ st ∈ d.db, st.Grown) → ∀ st ∈ d.saveFrameEvents.db, st.Grown :=
    fun _ h => Recorder.grown_saveFrameEvents h
  have hadd : ∀ (es : List ProfilerEvent) (d : Recorder), (∀ st ∈ d.db, st.Grown) →
      ∀ st ∈ (d.addEvents es).db, st.Grown := fun es => by
    induction es with
    | nil => exact fun _ h => h
    | cons e es ih =>
      exact fun d h => ih _ (Recorder.holds_addEvent (I := fun db _ _ => ∀ st ∈ db, st.Grown)
        hsave h e)
  have hboth : Between d ∧ ∀ st ∈ d.db, st.Grown := by
    refine Run.reachable_invariant (I := fun d => Between d ∧ ∀ st ∈ d.db, st.Grown)
      (fun d a d' hd hstep => ⟨hd.1.step hstep, ?_⟩) ⟨.initial, fun st hst => by cases hst⟩ h
    by_cases ha : a = .poll
    · rw [ha, step] at hstep
      split_ifs at hstep
      cases hstep
      unfold Details.poll
      cases d.readBuffer with
      | nil =>
        simp only
        split_ifs
        · exact Recorder.holds_submitLastEvents (I := fun db _ _ => ∀ st ∈ db, st.Grown) hsave hd.2
        · exact hd.2
      | cons msg rest =>
        obtain ⟨-, hrec⟩ :=
          processMessage_frame u (d := { d with readBuffer := rest }) hd.1.tidy.settled msg
        show ∀ st ∈ ({ d with readBuffer := rest }.processMessage u msg).toRecorder.db, st.Grown
        rw [hrec]
        exact hadd _ _ hd.2
    · exact grown_of_ne_poll ha hstep hd.2
  exact hboth.2

end Details

end Owlcat
