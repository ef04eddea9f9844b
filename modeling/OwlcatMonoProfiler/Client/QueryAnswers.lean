
import OwlcatMonoProfiler.Client.QueryTables

/-!
# What the queries answer

The functions of `db_queries.cpp` on a connection with its statements, against the functions on
`Database`.

* `Mirrors`, `Ready`: a connection and a `Storage` with the same data, and all queries registered;
* `Room`: there are ids left for some more events;
* `Ready.change_refines`, `Ready.loop_refines`: a statement, and a loop over its rows;
* `Ready.call_refines`: a call does the same on both;
* `answers_of_run`: so do all calls after `register_queries`.
-/

namespace Owlcat

open Queries (uint64)

/-! ### Connections -/

/-- A connection and a `Storage` with the same data. -/
structure Mirrors (c : PersistentStorage Tables) (st : Storage) : Prop where
  db : c.db.Represents st.db
  rollback : Option.Rel Tables.Represents c.rollback st.rollback
  faults : c.faults = st.faults

namespace Mirrors

variable {c d : PersistentStorage Tables} {st : Storage}

theorem of_same (h : Mirrors c st) (hd : PersistentStorage.SameData d c) : Mirrors d st :=
  ⟨hd.db ▸ h.db, hd.rollback ▸ h.rollback, hd.faults ▸ h.faults⟩

/-- What a transaction goes back to. -/
theorem written (h : Mirrors c st) : (c.rollback.getD c.db).Represents st.written := by
  obtain ⟨hdb, hrollback, -⟩ := h
  unfold Storage.written
  generalize c.rollback = x at hrollback ⊢
  generalize st.rollback = y at hrollback ⊢
  cases hrollback with
  | none => exact hdb
  | some hr => exact hr

/-- A statement that meets a fault. -/
theorem struck (h : Mirrors c st) {fault : Fault} {faults : List Fault}
    (hfaults : st.faults = fault :: faults) (hfault : fault ≠ .none)
    (f : Storage → Storage) : Mirrors (c.struck fault) (st.attempt f) := by
  have htail : c.faults.tail = faults := by rw [h.faults, hfaults, List.tail_cons]
  rw [Storage.attempt, hfaults]
  cases fault with
  | none => exact absurd rfl hfault
  | fails => exact ⟨h.db, h.rollback, htail⟩
  | rollsBack => exact ⟨h.written, .none, htail⟩

/-- Statements about transactions. -/
theorem exec (h : Mirrors c st) {f : PersistentStorage Tables → PersistentStorage Tables}
    {g : Storage → Storage} (hf : ∀ c st, Mirrors c st → Mirrors (f c) (g st)) :
    Mirrors (c.exec f) (st.attempt g) := by
  unfold PersistentStorage.exec
  dsimp only
  cases hfaults : st.faults with
  | nil =>
    rw [h.faults, hfaults, Storage.attempt, hfaults]
    exact hf _ _ ⟨h.db, h.rollback, hfaults.symm ▸ rfl⟩
  | cons fault faults =>
    rw [h.faults, hfaults, List.headD_cons]
    split
    · next hfault =>
      rw [Storage.attempt, hfaults, hfault]
      exact hf _ _ ⟨h.db, h.rollback, rfl⟩
    · next hfault => exact h.struck hfaults hfault g

theorem beginTransaction (h : Mirrors c st) : Mirrors c.beginTransaction st.beginTransaction :=
  h.exec fun _ _ h => ⟨h.db, .some h.written, h.faults⟩

theorem commit (h : Mirrors c st) : Mirrors c.commit st.commit :=
  h.exec fun _ _ h => ⟨h.db, .none, h.faults⟩

end Mirrors

namespace QueryId

theorem mem_all (q : QueryId) : q ∈ all := by cases q <;> decide

theorem id_injective : Function.Injective id := by
  intro p q h
  revert h
  cases p <;> cases q <;> decide

/-- The names without the symbols in front. -/
def keys : QueryId → List String
  | .insertType => ["id", "type"]
  | .insertCallstack => ["id", "stack"]
  | .selectLastGoodSize => ["from"]
  | .selectAllocationTypeAndStack => ["address"]
  | .insertAllocEvent => ["type_id", "address", "size", "frame", "callstack_id"]
  | .insertFreeEvent => ["address", "frame", "size"]
  | .insertFrameStats => ["frame", "allocs", "frees", "size"]
  | .selectEvents | .selectEventsCount | .selectStats => ["from", "to"]
  | .selectTypes | .selectCallstacks | .selectMinMaxFrame => []

theorem map_snip_parameters (q : QueryId) : q.parameters.map snip = q.keys := by
  cases q <;> decide

theorem nodup_keys (q : QueryId) : q.keys.Nodup := by cases q <;> decide

/-- The columns of the result are those the command has. -/
theorem columns_eq (q : QueryId) :
    q.columns =
      match q.command with
      | .select s => s.outputs.map Sql.Output.name
      | .insert _ => [] := by
  rw [columns, Sql.columnNames, q.read_text.1]
  cases q <;> rfl

end QueryId

namespace PersistentStorage

open Queries (silent loop change rows)

variable {c d : PersistentStorage Tables} {st : Storage} {q : QueryId}
  {params : List (String × DbData)}

/-- All queries are registered. -/
def Ready (c : PersistentStorage Tables) : Prop :=
  ∀ q : QueryId, c.Registered q.id q.parameters q.text

theorem Ready.of_keeps (h : c.Ready)
    (hd : ∀ {id : String} {names : List String} {text : String}, c.Registered id names text →
      d.Registered id names text) : d.Ready :=
  fun q => hd (h q)

/-- A query is prepared with the parameters of a call. -/
theorem Ready.prepare (h : c.Ready) (hkeys : params.map Prod.fst = q.keys)
    (hvalues : ∀ p ∈ params, p.2 ≠ .empty) :
    ∃ s s', c.statements.lookup q.id = some s ∧ s.prepare 0 params = (true, s') ∧
      s'.sqliteStatement.rows = none ∧ ¬s'.sqliteStatement.Dangles ∧
      ∃ value, Given q params value ∧ ∀ tables,
        traceSqlite.run s'.sqliteStatement.text s'.sqliteStatement.valueOf tables =
          Tables.run q.table value tables q.command := by
  obtain ⟨s, hs, hused⟩ := h q
  obtain ⟨s', hs', htext, hrows, hlive, hgiven⟩ :=
    hused.prepare_values (q.map_snip_parameters ▸ q.nodup_keys)
      (.of_eq (hkeys.trans q.map_snip_parameters.symm)) hvalues 0
  refine ⟨s, s', hs, hs', hrows, hlive, _, hgiven, fun tables => ?_⟩
  rw [htext, q.run_text]

/-- A call that changes the database. -/
theorem Ready.change_refines (h : c.Ready) (hm : Mirrors c st)
    (hkeys : params.map Prod.fst = q.keys)
    (hvalues : ∀ p ∈ params, p.2 ≠ .empty) {statement : Database → Option Database}
    (hrun : ∀ value, Given q params value →
      Tables.Agree (Tables.run q.table value c.db q.command) (statement st.db)) :
    ∃ d, silent (change traceSqlite c q params) = some ([], d) ∧
      Mirrors d (st.query statement) ∧ d.Ready := by
  obtain ⟨s, s', hs, hs', hrows, hlive, value, hgiven, htext⟩ := h.prepare hkeys hvalues
  have hagree := hrun value hgiven
  -- the step of the statement, before a fault is looked at
  have hstep : ∃ result stmt tables, s'.sqliteStatement.step traceSqlite c.db =
      some (result, stmt, tables) ∧ tables.Represents ((statement st.db).getD st.db) := by
    rw [Statement.step, if_neg hlive, hrows]
    dsimp only
    rw [htext]
    generalize Tables.run q.table value c.db q.command = r at hagree
    generalize statement st.db = o at hagree
    cases hagree with
    | none => exact ⟨_, _, _, rfl, hm.db⟩
    | @some r db' hr =>
      obtain ⟨rows, tables⟩ := r
      obtain ⟨rfl, hr⟩ := hr
      exact ⟨_, _, _, rfl, hr⟩
  obtain ⟨result, stmt, tables, hstep, hrepresents⟩ := hstep
  have honce : ∃ result stmt d, c.stepOnce traceSqlite s'.sqliteStatement =
      some (result, stmt, d) ∧ Mirrors d (st.query statement) := by
    unfold stepOnce
    rw [hstep]
    dsimp only [Option.bind_eq_bind, Option.bind_some]
    cases hfaults : st.faults with
    | nil =>
      rw [hm.faults, hfaults, Storage.query, Storage.attempt, hfaults]
      exact ⟨_, _, _, rfl, hrepresents, hm.rollback, rfl⟩
    | cons fault faults =>
      rw [hm.faults, hfaults, List.headD_cons]
      split
      · next hfault =>
        rw [Storage.query, Storage.attempt, hfaults, hfault]
        exact ⟨_, _, _, rfl, hrepresents, hm.rollback, rfl⟩
      · next hfault => exact ⟨_, _, _, rfl, hm.struck hfaults hfault _⟩
  obtain ⟨result, stmt, d, honce, hd⟩ := honce
  have hquery : ∃ ok, c.query traceSqlite q.id params 0 =
      some (ok, d.put q.id { s' with sqliteStatement := stmt }) := by
    refine ⟨result = .done, ?_⟩
    rw [query, hs]
    dsimp only
    rw [hs']
    dsimp only
    rw [honce]
    rfl
  obtain ⟨ok, hquery⟩ := hquery
  refine ⟨(d.put q.id { s' with sqliteStatement := stmt }).destroyed 0, ?_,
    hd.of_same ⟨rfl, rfl, rfl⟩, h.of_keeps fun h => (h.query hquery).destroyed 0⟩
  rw [silent, change, hquery]
  rfl

/-- A loop over the rows of a query. -/
theorem Ready.loop_refines (h : c.Ready) (hm : Mirrors c st)
    (hkeys : params.map Prod.fst = q.keys)
    (hvalues : ∀ p ∈ params, p.2 ≠ .empty) {ρ : Type} {rs : List ρ} {f : ρ → List SqlValue}
    {read : List SqlValue → StateM Cursor RowReading} {g : ρ → RowReading}
    (hrun : ∀ value, Given q params value →
      Tables.run q.table value c.db q.command = some (rs.map f, c.db))
    (hread : ∀ r, Cursor.Reads q.columns (f r) (read (f r)) (g r)) (n : ℕ) :
    ∃ d, loop read (rows traceSqlite c q params n) = some ((rs.take n).map g, d) ∧
      Mirrors d st ∧ d.Ready := by
  obtain ⟨s, s', hs, hs', hrows, hlive, value, hgiven, htext⟩ := h.prepare hkeys hvalues
  obtain ⟨stmt, hfetched⟩ := Statement.fetch_of_run hlive hrows
    ((htext c.db).trans (hrun value hgiven)) n
  have hput : (c.put q.id s').statements.lookup q.id = some s' := AList.lookup_insert _
  have hprepared : c.queryData q.id params 0 = (true, c.put q.id s') := by
    rw [queryData, hs]
    dsimp only
    rw [hs']
  have hfetch : (c.put q.id s').fetch traceSqlite q.id n =
      some ((rs.map f).take n, (c.put q.id s').put q.id { s' with sqliteStatement := stmt }) := by
    rw [fetch, hput]
    show (s'.sqliteStatement.fetch traceSqlite n c.db).bind _ = _
    rw [hfetched]
    rfl
  have hready : (c.put q.id s').Ready := by
    have hq := h.of_keeps fun h => h.queryData q.id params 0
    rwa [hprepared] at hq
  refine ⟨((c.put q.id s').put q.id { s' with sqliteStatement := stmt }).destroyed 0, ?_,
    hm.of_same ⟨rfl, rfl, rfl⟩, hready.of_keeps fun h => (h.fetch hfetch).destroyed 0⟩
  rw [loop, rows, select, hprepared]
  dsimp only
  rw [hfetch, ← List.map_take]
  have hread := Cursor.readAll_eq (fun r (_ : r ∈ rs.take n) => hread r)
    (Cursor.fits_empty q.columns [])
  exact congrArg (fun l => some (l, _)) hread

/-! ### Rows -/

section Rows

open Cursor Tables

theorem reads_text {q : QueryId} {id text : String} (hcolumns : q.columns = [id, text])
    (hne : id ≠ text) (e : Sigma fun _ : Int64 => List UInt8) :
    Reads q.columns (textRow e) (readText q.columns id text (textRow e)) (.ofText e) := by
  have hid : columnValue [id, text] (textRow e) id = some (ofInt (some e.1)) := by
    simp [columnValue, textRow, ofInt]
  have htext : columnValue [id, text] (textRow e) text = some (.text e.2) := by
    simp [columnValue, textRow, hne]
  rw [hcolumns]
  exact (reads_getUint64 rfl hid).bind ((reads_getString rfl htext).bind (.pure _))

theorem reads_boundaries (r : Option Int64 × Option Int64) :
    Reads QueryId.selectMinMaxFrame.columns [ofInt r.1, ofInt r.2]
      (readBoundaries [ofInt r.1, ofInt r.2]) (.boundaries (getUint64 r.1) (getUint64 r.2)) := by
  unfold readBoundaries
  rw [QueryId.columns_eq]
  exact (reads_getUint64 (v := r.1) rfl rfl).bind
    ((reads_getUint64 (v := r.2) rfl rfl).bind (.pure _))

theorem reads_size (size : Int64) :
    Reads QueryId.selectLastGoodSize.columns [.integer size] (readSize [.integer size])
      (.size (getUint64 (some size))) := by
  unfold readSize
  rw [QueryId.columns_eq]
  exact (reads_getUint64 (v := some size) rfl rfl).bind (.pure _)

theorem reads_stats (e : StatsEntry) :
    Reads QueryId.selectStats.columns (statsRow e) (readStats (statsRow e)) (.ofStats e) := by
  unfold readStats
  rw [QueryId.columns_eq]
  exact (reads_getUint64 (v := some e.1) rfl rfl).bind
    ((reads_getUint64 (v := some e.2.allocs) rfl rfl).bind
      ((reads_getUint64 (v := some e.2.frees) rfl rfl).bind
        ((reads_getInt64 (v := some e.2.size) rfl rfl).bind (.pure _))))

theorem reads_count (n : ℕ) :
    Reads QueryId.selectEventsCount.columns [.integer (Int64.ofNat n)]
      (readCount [.integer (Int64.ofNat n)]) (.count (Int64.ofNat n)) := by
  unfold readCount
  rw [QueryId.columns_eq]
  exact (reads_getInt64 (v := some (Int64.ofNat n)) rfl rfl).bind (.pure _)

theorem reads_event (p : EventRow × ℕ) :
    Reads QueryId.selectEvents.columns (eventColumns p) (readEvent (eventColumns p))
      (.ofEvent p.1) := by
  unfold readEvent
  rw [QueryId.columns_eq]
  refine (reads_getUint64 (v := some p.1.eventTypeId) rfl rfl).bind
    ((reads_getUint64 (v := some p.1.address) rfl rfl).bind ?_)
  unfold RowReading.ofEvent
  by_cases halloc : getUint64 (some p.1.eventTypeId) = 1
  · rw [if_pos halloc, if_pos halloc]
    exact (reads_getUint64 (v := some p.1.frame) rfl rfl).bind
      ((reads_getUint64 (v := some p.1.size) rfl rfl).bind
        ((reads_getUint64 (v := p.1.typeId) rfl rfl).bind
          ((reads_getUint64 (v := p.1.callstackId) rfl rfl).bind (.pure _))))
  · rw [if_neg halloc, if_neg halloc]
    exact .pure _

theorem reads_allocation (row : EventRow) :
    Reads QueryId.selectAllocationTypeAndStack.columns [ofInt row.typeId, ofInt row.callstackId]
      (readAllocation [ofInt row.typeId, ofInt row.callstackId])
      (.allocation (getUint64 row.typeId) (getUint64 row.callstackId)) := by
  unfold readAllocation
  rw [QueryId.columns_eq]
  exact (reads_getUint64 (v := row.typeId) rfl rfl).bind
    ((reads_getUint64 (v := row.callstackId) rfl rfl).bind (.pure _))

end Rows

/-! ### Calls -/

theorem Ready.of_statements (h : c.Ready) (heq : d.statements = c.statements) : d.Ready :=
  h.of_keeps fun h => h.of_statements heq

theorem take_one_toList {ρ : Type} (o : Option ρ) : o.toList.take 1 = o.toList := by
  cases o <;> rfl

/-- **A call of a function of the client does the same on both levels**, while there are ids for
one more event. -/
theorem Ready.call_refines (h : c.Ready) (hm : Mirrors c st)
    (hroom : st.db.profilerEvents.length + 1 < 2 ^ 63) (a : Queries.Call) :
    ∃ d, c.call traceSqlite a = some ((st.call a).1, d) ∧ Mirrors d (st.call a).2 ∧ d.Ready := by
  cases a with
  | insertType type id =>
    exact h.change_refines hm rfl (by simp [uint64]) fun _ => hm.db.insertType
  | insertCallstack callstack id =>
    exact h.change_refines hm rfl (by simp [uint64]) fun _ => hm.db.insertCallstack
  | insertAllocEvent frame addr size typeId callstackId =>
    exact h.change_refines hm rfl (by simp [uint64]) fun _ => hm.db.insertAllocEvent hroom
  | insertFreeEvent frame addr size =>
    exact h.change_refines hm rfl (by simp [uint64]) fun _ => hm.db.insertFreeEvent hroom
  | insertFrameStats frame allocs frees size =>
    exact h.change_refines hm rfl (by simp [uint64]) fun _ => hm.db.insertFrameStats
  | beginTransaction =>
    exact ⟨_, rfl, hm.beginTransaction, h.of_statements (c.statements_exec fun _ => rfl)⟩
  | commit => exact ⟨_, rfl, hm.commit, h.of_statements (c.statements_exec fun _ => rfl)⟩
  | selectTypes n =>
    exact h.loop_refines hm rfl (by simp) (fun _ _ => hm.db.selectTypes)
      (reads_text (QueryId.columns_eq _) (by decide)) n
  | selectCallstacks n =>
    exact h.loop_refines hm rfl (by simp) (fun _ _ => hm.db.selectCallstacks)
      (reads_text (QueryId.columns_eq _) (by decide)) n
  | selectMinMaxFrame =>
    exact h.loop_refines hm rfl (by simp) (fun _ _ => hm.db.selectMinMaxFrame) reads_boundaries 1
  | selectLastGoodSize fromFrame =>
    have hloop := h.loop_refines hm rfl (by simp [uint64])
      (fun _ (hvalue : Given _ [uint64 "from" fromFrame] _) => hm.db.selectLastGoodSize hvalue)
      reads_size 1
    rwa [take_one_toList] at hloop
  | selectStats fromFrame toFrame n =>
    exact h.loop_refines hm rfl (by simp [uint64]) (fun _ => hm.db.selectStats) reads_stats n
  | selectEventsCount fromFrame toFrame =>
    exact h.loop_refines hm rfl (by simp [uint64]) (fun _ => hm.db.selectEventsCount) reads_count 1
  | selectEvents fromFrame toFrame n =>
    have hloop := h.loop_refines hm rfl (by simp [uint64])
      (fun _ (hvalue : Given _ [uint64 "from" fromFrame, uint64 "to" toFrame] _) =>
        hm.db.selectEvents hvalue) reads_event n
    have hrows := Tables.map_fst_sortedWindow fromFrame toFrame st.db
    rw [Storage.call, ← hrows, ← List.map_take, List.map_map]
    exact hloop
  | selectAllocationTypeAndStack address =>
    have hloop := h.loop_refines hm rfl (by simp [uint64])
      (fun _ (hvalue : Given _ [uint64 "address" address] _) =>
        hm.db.selectAllocationTypeAndStack hvalue) reads_allocation 1
    rwa [take_one_toList] at hloop

end PersistentStorage

/-! ### Ids -/

/-- There are ids left for `n` more events. -/
structure Storage.Room (n : ℕ) (st : Storage) : Prop where
  db : st.db.profilerEvents.length + n < 2 ^ 63
  written : st.written.profilerEvents.length + n < 2 ^ 63

namespace Storage.Room

variable {n : ℕ} {st : Storage}

theorem pred (h : st.Room (n + 1)) : st.Room n :=
  ⟨Nat.lt_of_succ_lt h.db, Nat.lt_of_succ_lt h.written⟩

/-- A statement that fails makes no event. -/
theorem attempt (h : st.Room (n + 1)) {f : Storage → Storage}
    (hf : ∀ st : Storage, st.Room (n + 1) → (f st).Room n) : (st.attempt f).Room n := by
  unfold Storage.attempt
  split
  · exact hf _ h
  · exact hf _ ⟨h.db, h.written⟩
  · exact ⟨h.pred.db, h.pred.written⟩
  · exact ⟨h.pred.written, h.pred.written⟩

theorem query (h : st.Room (n + 1)) {statement : Database → Option Database}
    (hone : ∀ db db', statement db = some db' →
      db'.profilerEvents.length ≤ db.profilerEvents.length + 1) :
    (st.query statement).Room n := by
  refine h.attempt fun st h => ?_
  have hdb : ((statement st.db).getD st.db).profilerEvents.length ≤
      st.db.profilerEvents.length + 1 := by
    cases hstatement : statement st.db with
    | none => exact Nat.le_succ _
    | some db => exact hone _ _ hstatement
  have hroom : ((statement st.db).getD st.db).profilerEvents.length + n < 2 ^ 63 := by
    have := h.db
    omega
  refine ⟨hroom, ?_⟩
  have hwritten := h.pred.written
  unfold Storage.written at hwritten ⊢
  cases hrollback : st.rollback with
  | none => exact hroom
  | some db =>
    rw [hrollback] at hwritten
    exact hwritten

theorem beginTransaction (h : st.Room (n + 1)) : st.beginTransaction.Room n :=
  h.attempt fun _ h => ⟨h.pred.db, h.pred.written⟩

theorem commit (h : st.Room (n + 1)) : st.commit.Room n :=
  h.attempt fun _ h => ⟨h.pred.db, h.pred.db⟩

/-- **A call makes at most one event.** -/
theorem call (h : st.Room (n + 1)) (a : Queries.Call) : (st.call a).2.Room n := by
  cases a with
  | insertType type id | insertCallstack callstack id =>
    refine h.query fun db db' hdb => ?_
    obtain ⟨t, -, rfl⟩ := Option.map_eq_some_iff.1 hdb
    exact Nat.le_succ _
  | insertAllocEvent frame addr size typeId callstackId | insertFreeEvent frame addr size =>
    refine h.query fun db db' hdb => ?_
    cases hdb
    rw [List.length_append, List.length_singleton]
  | insertFrameStats frame allocs frees size =>
    refine h.query fun db db' hdb => ?_
    cases hdb
    exact Nat.le_succ _
  | beginTransaction => exact h.beginTransaction
  | commit => exact h.commit
  | selectTypes | selectCallstacks | selectMinMaxFrame | selectLastGoodSize | selectStats
    | selectEventsCount | selectEvents | selectAllocationTypeAndStack => exact h.pred

end Storage.Room

namespace PersistentStorage

variable {c d : PersistentStorage Tables} {st : Storage} {q : QueryId}

/-! ### All calls -/

/-- Registering one query. -/
theorem registerOne_spec (hnew : c.statements.lookup q.id = none) :
    ∃ d, registerOne traceSqlite (true, c) q = some (true, d) ∧ SameData d c ∧
      d.Registered q.id q.parameters q.text ∧
      ∀ p : QueryId, p ≠ q → d.statements.lookup p.id = c.statements.lookup p.id := by
  have hne : ¬(q.id = "" ∨ q.text = "" ∨ traceSqlite.prepares q.text c.db = false) := by
    rw [q.prepares_text]
    cases q <;> decide +kernel
  have hnames : traceSqlite.names q.text = some q.parameters := q.read_text.2
  have hreg : c.registerQuery traceSqlite q.id q.text =
      some (true, c.put q.id (StatementT.fresh q.parameters q.text)) := by
    rw [registerQuery, if_neg hne, hnames, hnew]
    rfl
  refine ⟨c.put q.id (StatementT.fresh q.parameters q.text), ?_, ⟨rfl, rfl, rfl⟩,
    ⟨_, AList.lookup_insert _, StatementT.used_fresh _ _⟩, fun p hp => ?_⟩
  · rw [registerOne, hreg]
    rfl
  · exact AList.lookup_insert_ne fun hid => hp (QueryId.id_injective hid)

theorem registerAll_spec {l : List QueryId} (hl : l.Nodup)
    (hnew : ∀ q ∈ l, c.statements.lookup q.id = none) :
    ∃ d, l.foldlM (registerOne traceSqlite) (true, c) = some (true, d) ∧ SameData d c ∧
      (∀ q ∈ l, d.Registered q.id q.parameters q.text) ∧
      ∀ q ∉ l, d.statements.lookup q.id = c.statements.lookup q.id := by
  induction l generalizing c with
  | nil => exact ⟨c, rfl, ⟨rfl, rfl, rfl⟩, fun q hq => absurd hq List.not_mem_nil, fun q _ => rfl⟩
  | cons q l ih =>
    obtain ⟨hq, hl⟩ := List.nodup_cons.1 hl
    obtain ⟨d, hd, hsame, ⟨s, hs, hused⟩, hother⟩ := registerOne_spec (hnew q List.mem_cons_self)
    obtain ⟨e, he, hsame', hall, hrest⟩ := ih (c := d) hl fun p hp => by
      rw [hother p fun hpq => hq (hpq ▸ hp)]
      exact hnew p (List.mem_cons_of_mem _ hp)
    refine ⟨e, ?_, ⟨hsame'.db.trans hsame.db, hsame'.rollback.trans hsame.rollback,
      hsame'.faults.trans hsame.faults⟩, fun p hp => ?_, fun p hp => ?_⟩
    · rw [List.foldlM_cons, hd]
      exact he
    · rcases List.mem_cons.1 hp with rfl | hp
      · exact ⟨s, (hrest p hq).trans hs, hused⟩
      · exact hall p hp
    · rw [List.mem_cons, not_or] at hp
      exact (hrest p hp.2).trans (hother p hp.1)

/-- **Calls by means of the texts give the answers of the functions on databases.**  All texts are
registered, no call is undefined, and the tables stay those of the database. -/
theorem answers_of_run (hm : Mirrors c st)
    (hnew : ∀ q : QueryId, c.statements.lookup q.id = none) {l : List Queries.Call}
    (hroom : st.Room l.length) :
    ∃ d e, registerQueries traceSqlite c = some (true, d) ∧
      Run.tryOutputs (call traceSqlite) d l = some ((Run.outputs Storage.call st l).1, e) ∧
      Mirrors e (Run.outputs Storage.call st l).2 := by
  obtain ⟨d, hd, hsame, hall, -⟩ :=
    registerAll_spec (l := QueryId.all) (by decide) fun q _ => hnew q
  have hready : d.Ready := fun q => hall q q.mem_all
  obtain ⟨e, he, hm', -⟩ := Run.tryOutputs_of_simulation
    (R := fun n (c : PersistentStorage Tables) st => Mirrors c st ∧ c.Ready ∧ st.Room n)
    (f := call traceSqlite) (g := Storage.call)
    (fun n c st a h => by
      obtain ⟨hm, h, hroom⟩ := h
      have hone : st.db.profilerEvents.length + 1 < 2 ^ 63 := by
        have := hroom.db
        omega
      obtain ⟨d, hd, hm', h'⟩ := h.call_refines hm hone a
      exact ⟨d, hd, hm', h', hroom.call a⟩) l ⟨hm.of_same hsame, hready, hroom⟩
  exact ⟨d, e, hd, he, hm'⟩

/-- Two frames are stored, and a loop over them is left after the first. -/
def twoFrames : List Queries.Call :=
  [.insertFrameStats 3 1 0 16, .insertFrameStats 5 0 1 0, .selectStats 0 9 1, .selectLastGoodSize 4,
    .selectStats 4 9 2]

theorem answers_of_run_twoFrames :
    ∃ d e, registerQueries traceSqlite { db := fun _ => [] } = some (true, d) ∧
      Run.tryOutputs (call traceSqlite) d twoFrames =
        some ([[], [], [.stats 3 1 0 16], [.size 16], [.stats 5 0 1 0]], e) := by
  have hm : Mirrors { db := fun _ => [] } {} := ⟨⟨rfl, rfl, rfl, rfl⟩, .none, rfl⟩
  have hroom : Storage.Room twoFrames.length {} := ⟨by decide, by decide⟩
  obtain ⟨d, e, hd, he, -⟩ := answers_of_run hm (fun _ => rfl) hroom
  refine ⟨d, e, hd, he.trans (congrArg (fun o => some (o, e)) ?_)⟩
  decide

end PersistentStorage

end Owlcat
