import OwlcatMonoProfiler.Client.Recording
import OwlcatMonoProfiler.Library.Run

/-!
# Opening traces

`open_data` and `save_db` load the texts of a trace into maps that keep what is there already.

* `shown_loadTexts`: the maps keep the first text of each id;
* `Call`, `callStep`: the calls that succeed, `opened` the traces they open, one after the other;
* `TextsMatch`, `NamesMatch`: the texts the client shows are those of the open trace;
* `namesMatch_iff`: that is so exactly when the first text of each id is the one of the open trace.
-/

namespace Owlcat

/-! ### Loading a table -/

/-- The text that is shown for an id the maps know. -/
def Interner.shown (i : Interner) (id : UInt64) : Option (List UInt8) :=
  (i.toText.lookup id).map untilNul

theorem untilNul_untilNul (text : List UInt8) : untilNul (untilNul text) = untilNul text :=
  List.takeWhile_idem

theorem shown_insert (i : Interner) (text : List UInt8) (id id' : UInt64) :
    (i.insert text id).shown id' =
      if id' = id then (i.shown id).or (some (untilNul text)) else i.shown id' := by
  rw [Interner.shown, Interner.insert, Dict.lookup_emplace]
  split_ifs with h
  · rw [Interner.shown]
    cases i.toText.lookup id <;> rfl
  · rfl

/-- The rows of a table, one after the other. -/
theorem shown_foldl_insert (rows : List (Sigma fun _ : Int64 => List UInt8)) (i : Interner)
    (id : UInt64) :
    (rows.foldl (fun i row => i.insert (getString row.2) (getUint64 (some row.1))) i).shown id =
      (i.shown id).or ((rows.dlookup (DbValue.uint64 id).bind).map getString) := by
  induction rows generalizing i with
  | nil => simp
  | cons row rows ih =>
    rw [List.foldl_cons, ih, shown_insert]
    by_cases hid : id = getUint64 (some row.1)
    · have hrow : (DbValue.uint64 id).bind = row.1 := by rw [hid, bind_getUint64]
      have hlookup : (row :: rows).dlookup (DbValue.uint64 id).bind = some row.2 := by
        rw [hrow, List.dlookup_cons_eq]
      rw [if_pos hid, ← hid, hlookup, Option.map_some, getString, untilNul_untilNul]
      cases i.shown id <;> rfl
    · have hrow : (DbValue.uint64 id).bind ≠ row.1 := fun h => hid (by rw [← h, getUint64_bind])
      rw [if_neg hid, List.dlookup_cons_ne _ _ hrow]

/-- **An id keeps its first text.** -/
theorem shown_loadTexts (i : Interner) (table : Dict Int64 (List UInt8)) (id : UInt64) :
    (Recorder.loadTexts i table).shown id =
      (i.shown id).or ((table.lookup (DbValue.uint64 id).bind).map getString) :=
  shown_foldl_insert table.entries i id

/-! ### Calls -/

/-- What the user does with traces. -/
inductive Call
  | openData (file : Option Database)
  | saveDb

/-- The state after a call, if it returns true. -/
def callStep (d : Details) : Call → Option Details
  | .openData file => if (d.openData file).1 then some (d.openData file).2 else none
  | .saveDb => if d.saveDb.1 then some d.saveDb.2 else none

/-- The traces that are opened by calls, when `current` is open before. -/
def opened : Option Database → List Call → List Database
  | _, [] => []
  | _, .openData file :: calls => file.toList ++ opened file calls
  | current, .saveDb :: calls => current.toList ++ opened current calls

/-- The first text of an id, in the maps `i` or in one of the tables. -/
def firstText (i : Interner) (tables : List (Dict Int64 (List UInt8))) (id : Int64) :
    Option (List UInt8) :=
  (i.shown (getUint64 (some id))).or ((tables.findSome? fun t => t.lookup id).map getString)

/-- The trace that is open, and the ones opened so far. -/
structure Opened (d₀ d : Details) (dbs : List Database) : Prop where
  types : ∀ id, d.types.shown id =
    firstText d₀.types (dbs.map Database.objectTypes) (DbValue.uint64 id).bind
  callstacks : ∀ id, d.callstacks.shown id =
    firstText d₀.callstacks (dbs.map Database.callstacks) (DbValue.uint64 id).bind

theorem firstText_append (i : Interner) (tables : List (Dict Int64 (List UInt8)))
    (table : Dict Int64 (List UInt8)) (id : Int64) :
    firstText i (tables ++ [table]) id =
      (firstText i tables id).or ((table.lookup id).map getString) := by
  rw [firstText, firstText, List.findSome?_append, Option.or_assoc]
  congr 1
  cases tables.findSome? fun t => t.lookup id <;> simp

theorem Opened.nil (d : Details) : Opened d d [] :=
  ⟨fun id => by simp [firstText], fun id => by simp [firstText]⟩

/-- One more trace is opened. -/
theorem Opened.openData {d₀ d : Details} {dbs : List Database} (h : Opened d₀ d dbs)
    (hthread : d.thread = .none) (db : Database) :
    Opened d₀ (d.openData (some db)).2 (dbs ++ [db]) ∧ (d.openData (some db)).1 = true ∧
      (d.openData (some db)).2.db = some { db := db } ∧
      (d.openData (some db)).2.thread = .none := by
  have hopen : d.openData (some db) = (true, { d with
      toRecorder := { d.toRecorder with db := some { db := db } }.loadTypesAndCallstacks db }) := by
    simp [Details.openData, hthread]
  rw [hopen]
  refine ⟨⟨fun id => ?_, fun id => ?_⟩, rfl, rfl, hthread⟩
  · rw [List.map_append, List.map_singleton, firstText_append, ← h.types]
    exact shown_loadTexts d.types db.objectTypes id
  · rw [List.map_append, List.map_singleton, firstText_append, ← h.callstacks]
    exact shown_loadTexts d.callstacks db.callstacks id

theorem thread_of_openData {d : Details} {file : Option Database} (h : (d.openData file).1 = true) :
    d.thread = .none := by
  by_contra hthread
  simp [Details.openData, hthread] at h

/-- A call that succeeds opens a trace. -/
theorem Opened.call {d₀ d d' : Details} {dbs : List Database} (h : Opened d₀ d dbs) {c : Call}
    (hcall : callStep d c = some d') :
    ∃ db, opened (d.db.map Storage.db) [c] = [db] ∧ Opened d₀ d' (dbs ++ [db]) ∧
      d'.db = some { db := db } := by
  cases c with
  | openData file =>
    simp only [callStep] at hcall
    split_ifs at hcall with hok
    cases hcall
    cases file with
    | none => simp [Details.openData, thread_of_openData hok] at hok
    | some db =>
      obtain ⟨h1, -, h2, -⟩ := h.openData (thread_of_openData hok) db
      exact ⟨db, rfl, h1, h2⟩
  | saveDb =>
    simp only [callStep] at hcall
    split_ifs at hcall with hok
    cases hcall
    unfold Details.saveDb at hok ⊢
    cases hdb : d.db with
    | none => simp [hdb] at hok
    | some st =>
      simp only [hdb] at hok
      obtain ⟨h1, -, h2, -⟩ := h.openData (thread_of_openData hok) st.db
      exact ⟨st.db, rfl, h1, h2⟩

/-- **Whatever was called, the maps hold the first text of each id.** -/
theorem Opened.run {d₀ d d' : Details} {dbs : List Database} (h : Opened d₀ d dbs)
    {calls : List Call} (hrun : Run.run callStep d calls = some d') :
    Opened d₀ d' (dbs ++ opened (d.db.map Storage.db) calls) ∧
      (calls ≠ [] → ∃ db, d'.db = some { db := db } ∧
        (opened (d.db.map Storage.db) calls).getLast? = some db) := by
  induction calls generalizing d dbs with
  | nil =>
    cases hrun
    exact ⟨by simpa [opened] using h, fun h => absurd rfl h⟩
  | cons c calls ih =>
    obtain ⟨d₁, hd₁, hrun⟩ := Option.bind_eq_some_iff.1 hrun
    obtain ⟨db, hopened, h1, hdb⟩ := h.call hd₁
    have hcons : opened (d.db.map Storage.db) (c :: calls) =
        db :: opened (d₁.db.map Storage.db) calls := by
      rw [hdb]
      cases c with
      | openData file =>
        have hfile : file.toList = [db] := by simpa [opened] using hopened
        simp only [opened, Option.toList_eq_singleton_iff.1 hfile]
        rfl
      | saveDb =>
        have hcurrent : (d.db.map Storage.db).toList = [db] := by simpa [opened] using hopened
        simp only [opened, Option.toList_eq_singleton_iff.1 hcurrent]
        rfl
    obtain ⟨h2, hlast⟩ := ih h1 hrun
    rw [hcons]
    refine ⟨by simpa using h2, fun _ => ?_⟩
    cases hcalls : calls with
    | nil =>
      rw [hcalls] at hrun
      cases hrun
      exact ⟨db, hdb, rfl⟩
    | cons c' calls' =>
      obtain ⟨db', hdb', hlast'⟩ := hlast (by simp [hcalls])
      refine ⟨db', hdb', ?_⟩
      rw [← hcalls, List.getLast?_cons, hlast', Option.getD_some]

/-! ### Texts shown -/

/-- The maps show the texts of the rows of a table, and no other. -/
structure TextsMatch (i : Interner) (table : Dict Int64 (List UInt8)) : Prop where
  shown : ∀ id text, table.lookup id = some text →
    untilNul ((i.toText.lookup (getUint64 (some id))).getD []) = getString text
  count : i.toText.keys.length = table.keys.length

/-- The names and callstacks the client shows, and their numbers, are those of a trace. -/
structure NamesMatch (d : Recorder) (db : Database) : Prop where
  typeName : ∀ id type, db.objectTypes.lookup id = some type →
    d.getTypeName (getUint64 (some id)) = getString type
  callstack : ∀ id callstack, db.callstacks.lookup id = some callstack →
    d.getCallstack (getUint64 (some id)) = getString callstack
  typesCount : d.getTypesCount = db.objectTypes.keys.length
  callstacksCount : d.getCallstacksCount = db.callstacks.keys.length

theorem namesMatch_iff_textsMatch {d : Recorder} {db : Database} :
    NamesMatch d db ↔ TextsMatch d.types db.objectTypes ∧ TextsMatch d.callstacks db.callstacks :=
  ⟨fun h => ⟨⟨h.typeName, h.typesCount⟩, ⟨h.callstack, h.callstacksCount⟩⟩,
    fun h => ⟨h.1.shown, h.2.shown, h.1.count, h.2.count⟩⟩

theorem mem_toText_iff {i : Interner} {id : UInt64} : id ∈ i.toText ↔ (i.shown id).isSome := by
  rw [Interner.shown, Option.isSome_map, AList.lookup_isSome]

/-- Maps that have the ids of a table have as many only when they have no other. -/
theorem length_keys_eq_iff {i : Interner} {table : Dict Int64 (List UInt8)}
    (h : ∀ id ∈ table, getUint64 (some id) ∈ i.toText) :
    i.toText.keys.length = table.keys.length ↔
      ∀ id, getUint64 (some id) ∈ i.toText → id ∈ table := by
  have hinj : Function.Injective fun id : Int64 => getUint64 (some id) := fun a b hab => by
    rw [← bind_getUint64 a, ← bind_getUint64 b]
    exact congrArg (fun x => (DbValue.uint64 x).bind) hab
  have hsub : (table.keys.map fun id => getUint64 (some id)).Subperm i.toText.keys := by
    refine (table.keys_nodup.map hinj).subperm fun x hx => ?_
    obtain ⟨id, hid, rfl⟩ := List.mem_map.1 hx
    exact AList.mem_keys.1 (h id (AList.mem_keys.2 hid))
  constructor
  · intro hlen id hid
    -- the ids of the table are as many as those of the map, so they are all of them
    have hperm := hsub.perm_of_length_le (by rw [List.length_map, hlen])
    obtain ⟨id', hid', heq⟩ := List.mem_map.1 (hperm.mem_iff.2 (AList.mem_keys.1 hid))
    rw [← hinj heq]
    exact AList.mem_keys.2 hid'
  · intro hall
    have hsuper : i.toText.keys.Subperm (table.keys.map fun id => getUint64 (some id)) := by
      refine i.toText.keys_nodup.subperm fun x hx =>
        List.mem_map.2 ⟨(DbValue.uint64 x).bind, ?_, ?_⟩
      · exact AList.mem_keys.1 (hall _ (by rw [getUint64_bind]; exact AList.mem_keys.2 hx))
      · exact getUint64_bind x
    have hle := hsub.length_le
    have hge := hsuper.length_le
    rw [List.length_map] at hle hge
    exact le_antisymm hge hle

/-- Every id has, as its first text, the one of the last table. -/
def FirstTextsLast (i : Interner) (tables : List (Dict Int64 (List UInt8)))
    (table : Dict Int64 (List UInt8)) : Prop :=
  ∀ id text, firstText i tables id = some text → (table.lookup id).map getString = some text

theorem textsMatch_iff {i₀ i : Interner} {tables : List (Dict Int64 (List UInt8))}
    {table : Dict Int64 (List UInt8)}
    (hshown : ∀ id, i.shown id = firstText i₀ tables (DbValue.uint64 id).bind)
    (hlast : tables.getLast? = some table) :
    TextsMatch i table ↔ FirstTextsLast i₀ tables table := by
  have hshown' : ∀ id, i.shown (getUint64 (some id)) = firstText i₀ tables id := fun id => by
    rw [hshown, bind_getUint64]
  have hmem : ∀ id ∈ table, getUint64 (some id) ∈ i.toText := by
    intro id hid
    obtain ⟨text, htext⟩ := Dict.mem_iff_lookup.1 hid
    obtain ⟨tables', rfl⟩ := List.getLast?_eq_some_iff.1 hlast
    rw [mem_toText_iff, hshown', firstText_append, htext, Option.map_some, Option.isSome_or]
    simp
  have htext : ∀ id, untilNul ((i.toText.lookup (getUint64 (some id))).getD []) =
      (i.shown (getUint64 (some id))).getD [] := by
    intro id
    rw [Interner.shown]
    cases i.toText.lookup (getUint64 (some id)) <;> rfl
  constructor
  · intro h id text hfirst
    have hid : id ∈ table := (length_keys_eq_iff hmem).1 h.count id
      (mem_toText_iff.2 (by rw [hshown', hfirst]; rfl))
    obtain ⟨text', htext'⟩ := Dict.mem_iff_lookup.1 hid
    have hsame := h.shown id text' htext'
    rw [htext, hshown', hfirst, Option.getD_some] at hsame
    rw [htext', Option.map_some, hsame]
  · intro h
    refine ⟨fun id text hid => ?_, (length_keys_eq_iff hmem).2 fun id hid => ?_⟩
    · rw [htext, hshown']
      have hsome := mem_toText_iff.1 (hmem id (Dict.mem_iff_lookup.2 ⟨text, hid⟩))
      rw [hshown'] at hsome
      obtain ⟨first, hfirst⟩ := Option.isSome_iff_exists.1 hsome
      have hsame := h id first hfirst
      rw [hid, Option.map_some, Option.some.injEq] at hsame
      rw [hfirst, Option.getD_some, hsame]
    · rw [mem_toText_iff, hshown'] at hid
      obtain ⟨first, hfirst⟩ := Option.isSome_iff_exists.1 hid
      obtain ⟨text, htext, -⟩ := Option.map_eq_some_iff.1 (h id first hfirst)
      exact Dict.mem_iff_lookup.2 ⟨text, htext⟩

/-- **The names a client shows are those of the open trace** exactly when each id it knows or has
met in a trace has its first text there. -/
theorem namesMatch_iff {d₀ d : Details} {calls : List Call}
    (hrun : Run.run callStep d₀ calls = some d) (hne : calls ≠ []) :
    let dbs := opened (d₀.db.map Storage.db) calls
    ∃ db, d.db = some { db := db } ∧ dbs.getLast? = some db ∧
      (NamesMatch d.toRecorder db ↔
        FirstTextsLast d₀.types (dbs.map Database.objectTypes) db.objectTypes ∧
        FirstTextsLast d₀.callstacks (dbs.map Database.callstacks) db.callstacks) := by
  intro dbs
  obtain ⟨hopened, hlast⟩ := (Opened.nil d₀).run hrun
  obtain ⟨db, hdb, hget⟩ := hlast hne
  rw [List.nil_append] at hopened
  refine ⟨db, hdb, hget, ?_⟩
  rw [namesMatch_iff_textsMatch,
    textsMatch_iff hopened.types (by rw [List.getLast?_map, hget, Option.map_some]),
    textsMatch_iff hopened.callstacks (by rw [List.getLast?_map, hget, Option.map_some])]

/-- A client that has met one trace only shows its texts. -/
theorem firstTextsLast_of_forall_eq {tables : List (Dict Int64 (List UInt8))}
    {table : Dict Int64 (List UInt8)} (h : ∀ t ∈ tables, t = table) :
    FirstTextsLast {} tables table := by
  intro id text hfirst
  obtain ⟨text', hfind, rfl⟩ := Option.map_eq_some_iff.1 hfirst
  obtain ⟨t, ht, hlookup⟩ := List.exists_of_findSome?_eq_some hfind
  rw [← h t ht, hlookup, Option.map_some]

/-- A trace with one type. -/
def traceOf (type : CString) : Database :=
  { objectTypes := (∅ : Dict Int64 (List UInt8)).insert 0 type.bytes }

theorem namesMatch_reopened :
    ∃ d db, Run.run callStep {} [.openData (some (traceOf (.ofLit "A"))), .saveDb] = some d ∧
      d.db = some { db := db } ∧ NamesMatch d.toRecorder db := by
  obtain ⟨db, hdb, hlast, hiff⟩ := @namesMatch_iff {} _
    [.openData (some (traceOf (.ofLit "A"))), .saveDb] rfl (by simp)
  cases hlast
  exact ⟨_, _, rfl, hdb, hiff.2 ⟨firstTextsLast_of_forall_eq (by simp [opened]),
    firstTextsLast_of_forall_eq (by simp [opened])⟩⟩

/-- The second trace gives another name to the same id. -/
theorem names_of_first_trace :
    ¬ ∀ (calls : List Call) (d : Details) (db : Database), Run.run callStep {} calls = some d →
      d.db = some { db := db } → NamesMatch d.toRecorder db := by
  intro h
  have hnames := h
    [.openData (some (traceOf (.ofLit "A"))), .openData (some (traceOf (.ofLit "B")))] _ _ rfl rfl
  have hname := hnames.typeName 0 _ rfl
  revert hname
  decide

end Owlcat
