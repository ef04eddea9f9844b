import OwlcatMonoProfiler.Library.Dict
import OwlcatMonoProfiler.Library.Run

/-!
# The files of traces

The part of `main_window.cpp` that opens, saves and removes traces.  A session that is started by
connecting is recorded in a file with a temporary name; one that is started with an application is
recorded in a database without a name, which is gone once it is closed.

* `MainWindow`: the files, the open database, and the members of `main_window`;
* `onOpenData`, `onSaveData`, `onStartProfiling`, `onRunUnityApp`, `trySaveUnsavedData`,
  `closeEvent`: the functions, with the answers to their dialogs; `none` is an exception that is not
  caught, or an assertion that does not hold;
* `Action`, `step`: they follow each other in any order, while a session goes on or not;
* `Spares`, `kept_iff`: when a file stays;
* `Holds`, `lost_iff`: when the rows of a database without a name are lost.
-/

namespace Owlcat

/-- The name of a file. -/
abbrev FileName := List UInt8

/-- A database: a file, or one without a name. -/
inductive OpenTrace (ε : Type)
  | file (name : FileName)
  | unnamed (rows : List ε)

/-- The database is in a file. -/
def OpenTrace.IsFile {ε : Type} (name : FileName) : OpenTrace ε → Bool
  | .file name' => name' = name
  | .unnamed _ => false

/-- The window, and the files that are traces; a trace is the list of its rows. -/
structure MainWindow (ε : Type) where
  files : Dict FileName (List ε) := ∅
  opened : Option (OpenTrace ε) := none
  dbFileName : FileName := []
  isDbTemporary : Bool := false
  profiling : Bool := false
  closed : Bool := false

namespace MainWindow

variable {ε : Type}

/-- The rows of the open database. -/
def contents (s : MainWindow ε) : Option (List ε) :=
  match s.opened with
  | none => none
  | some (.file name) => s.files.lookup name
  | some (.unnamed rows) => some rows

/-! ### Saving -/

/-- How `open_data` ends: it fails, and the file may be open all the same, or the trace is open. -/
inductive OpenResult
  | failed (opened : Bool)
  | ok
  deriving DecidableEq

/-- The file that is chosen, empty for none, whether the database can be written to it, and what
comes of opening the copy. -/
structure SaveDialog where
  fileName : FileName
  written : Bool
  reopened : OpenResult

/-- The copy is opened in place of the database.  While the message thread is there it is not, and
saving seems to have failed. -/
def openCopy (s : MainWindow ε) (dlg : SaveDialog) : MainWindow ε :=
  if s.profiling then s
  else match dlg.reopened with
    | .failed opened => { s with opened := if opened then some (.file dlg.fileName) else none }
    | .ok =>
      { s with
        opened := some (.file dlg.fileName)
        dbFileName := dlg.fileName
        isDbTemporary := false }

/-- `onSaveData`, `save_db` and `persistent_storage::save`: an old file is removed first, and this
fails when it is the one that is open. -/
def onSaveData (s : MainWindow ε) (dlg : SaveDialog) : Option (MainWindow ε) :=
  if dlg.fileName = [] then some s
  else match s.opened with
    | none => some s
    | some opened =>
      if opened.IsFile dlg.fileName then none
      else match s.contents.filter fun _ => dlg.written with
        | none => some { s with files := s.files.erase dlg.fileName }
        | some rows =>
          some ({ s with files := s.files.insert dlg.fileName rows }.openCopy dlg)

/-- The answer to the question whether to save. -/
inductive Answer
  | yes (dlg : SaveDialog)
  | no
  | cancel

/-- The question is asked. -/
def Asks (s : MainWindow ε) : Prop := s.isDbTemporary = true ∧ s.opened.isSome = true

instance (s : MainWindow ε) : Decidable s.Asks :=
  inferInstanceAs (Decidable (s.isDbTemporary = true ∧ s.opened.isSome = true))

/-- `trySaveUnsavedData`, which goes on after an attempt to save, whatever has come of it. -/
def trySaveUnsavedData (s : MainWindow ε) (answer : Answer) : Option (Bool × MainWindow ε) :=
  if s.Asks then
    match answer with
    | .yes dlg => (s.onSaveData dlg).map fun s => (true, s)
    | .no => some (true, s)
    | .cancel => some (false, s)
  else some (true, s)

/-! ### Sessions -/

/-- `close_db`, with its assertion; at a client `m_connected` is never `connection_connected`. -/
def closeDb (s : MainWindow ε) : Option (MainWindow ε) :=
  if s.profiling then none else some { s with opened := none }

/-- `std::filesystem::remove` of `m_db_file_name`. -/
def removeDbFile (s : MainWindow ε) : MainWindow ε :=
  if s.dbFileName = [] then s else { s with files := s.files.erase s.dbFileName }

/-- How `start` ends: there is no connection, no database (which may be open all the same), or a
session. -/
inductive StartResult
  | noConnection
  | noDatabase (opened : Bool)
  | ok

/-- `start` with `m_db_file_name`, an old file of this name is removed.  The database of a session
is temporary. -/
def start (s : MainWindow ε) (result : StartResult) : MainWindow ε :=
  let db : OpenTrace ε := if s.dbFileName = [] then .unnamed [] else .file s.dbFileName
  match result with
  | .noConnection => s
  | .noDatabase opened => { s.removeDbFile with opened := if opened then some db else none }
  | .ok =>
    { s.removeDbFile with
      files := if s.dbFileName = [] then s.files else s.files.insert s.dbFileName []
      opened := some db
      profiling := true
      isDbTemporary := true }

/-- `open_data`, and then the rest of `onOpenData`. -/
def openData (s : MainWindow ε) (fileName : FileName) : OpenResult → MainWindow ε
  | .failed opened => { s with opened := if opened then some (.file fileName) else none }
  | .ok => { s with opened := some (.file fileName), isDbTemporary := false }

/-- `onOpenData`; no file is chosen when its name is empty. -/
def onOpenData (s : MainWindow ε) (answer : Answer) (fileName : FileName) (result : OpenResult) :
    Option (MainWindow ε) := do
  let (goOn, s) ← s.trySaveUnsavedData answer
  if goOn = false then some s
  else
    let s ← s.closeDb
    some (if fileName = [] then s else s.openData fileName result)

/-- `onStartProfiling`; `tmp` is the name `std::tmpnam` returns. -/
def onStartProfiling (s : MainWindow ε) (answer : Answer) (accepted : Bool) (tmp : FileName)
    (result : StartResult) : Option (MainWindow ε) := do
  let (goOn, s) ← s.trySaveUnsavedData answer
  if goOn = false ∨ accepted = false then some s
  else
    let s ← s.closeDb
    some ({ s.removeDbFile with dbFileName := tmp }.start result)

/-- `onRunUnityApp` -/
def onRunUnityApp (s : MainWindow ε) (answer : Answer) (accepted : Bool) (result : StartResult) :
    Option (MainWindow ε) := do
  let (goOn, s) ← s.trySaveUnsavedData answer
  if goOn = false ∨ accepted = false then some s
  else
    let s ← s.closeDb
    some ({ s with dbFileName := [] }.start result)

/-- `closeEvent` and the destructor. -/
def closeEvent (s : MainWindow ε) (answer : Answer) : Option (MainWindow ε) := do
  let (goOn, s) ← s.trySaveUnsavedData answer
  if goOn = false then some s
  else
    let s := { s with profiling := false, opened := none, closed := true }
    some (if s.isDbTemporary then s.removeDbFile else s)

/-- More rows are stored. -/
def received (s : MainWindow ε) (rows : List ε) : MainWindow ε :=
  match s.opened with
  | none => s
  | some (.file name) => { s with files := Dict.modify name (· ++ rows) s.files }
  | some (.unnamed old) => { s with opened := some (.unnamed (old ++ rows)) }

/-! ### Runs -/

inductive Action (ε : Type)
  | onOpenData (answer : Answer) (fileName : FileName) (result : OpenResult)
  | onSaveData (dlg : SaveDialog)
  | onStartProfiling (answer : Answer) (accepted : Bool) (tmp : FileName) (result : StartResult)
  | onRunUnityApp (answer : Answer) (accepted : Bool) (result : StartResult)
  | onStopProfiling
  | received (rows : List ε)
  | closeEvent (answer : Answer)

/-- While a session goes on, saving and connecting are disabled, otherwise stopping is. -/
def step (s : MainWindow ε) (a : Action ε) : Option (MainWindow ε) :=
  if s.closed then none
  else match a with
    | .onOpenData answer fileName result => s.onOpenData answer fileName result
    | .onSaveData dlg => if s.profiling then none else s.onSaveData dlg
    | .onStartProfiling answer accepted tmp result =>
      if s.profiling then none else s.onStartProfiling answer accepted tmp result
    | .onRunUnityApp answer accepted result => s.onRunUnityApp answer accepted result
    | .onStopProfiling => if s.profiling then some { s with profiling := false } else none
    | .received rows => if s.profiling then some (s.received rows) else none
    | .closeEvent answer => s.closeEvent answer

/-! ### What the functions can do -/

section Cases

variable {s t : MainWindow ε} {answer : Answer}

theorem profiling_of_closeDb (h : s.closeDb = some t) :
    s.profiling = false ∧ t = { s with opened := none } := by
  unfold closeDb at h
  split at h
  · cases h
  · next hprofiling => exact ⟨by simpa using hprofiling, (Option.some.inj h).symm⟩

theorem onOpenData_cases {fileName : FileName} {result : OpenResult}
    (h : s.onOpenData answer fileName result = some t) :
    s.trySaveUnsavedData answer = some (false, t) ∨
      ∃ u, s.trySaveUnsavedData answer = some (true, u) ∧ u.profiling = false ∧
        t = if fileName = [] then { u with opened := none }
          else { u with opened := none }.openData fileName result := by
  simp only [onOpenData, Option.bind_eq_bind, Option.bind_eq_some_iff] at h
  obtain ⟨⟨goOn, u⟩, hu, h⟩ := h
  cases goOn with
  | false =>
    rw [if_pos rfl] at h
    cases h
    exact .inl hu
  | true =>
    rw [if_neg (by simp)] at h
    obtain ⟨v, hv, h⟩ := Option.bind_eq_some_iff.1 h
    obtain ⟨hidle, rfl⟩ := profiling_of_closeDb hv
    exact .inr ⟨u, hu, hidle, (Option.some.inj h).symm⟩

theorem onStartProfiling_cases {accepted : Bool} {tmp : FileName} {result : StartResult}
    (h : s.onStartProfiling answer accepted tmp result = some t) :
    (∃ goOn, s.trySaveUnsavedData answer = some (goOn, t) ∧ (goOn = false ∨ accepted = false)) ∨
      ∃ u, s.trySaveUnsavedData answer = some (true, u) ∧ accepted = true ∧ u.profiling = false ∧
        t = ({ { u with opened := none }.removeDbFile with dbFileName := tmp }).start result := by
  simp only [onStartProfiling, Option.bind_eq_bind, Option.bind_eq_some_iff] at h
  obtain ⟨⟨goOn, u⟩, hu, h⟩ := h
  split at h
  · next hstops =>
    cases h
    exact .inl ⟨goOn, hu, hstops⟩
  · next hgoes =>
    obtain ⟨v, hv, h⟩ := Option.bind_eq_some_iff.1 h
    obtain ⟨hidle, rfl⟩ := profiling_of_closeDb hv
    obtain ⟨rfl, rfl⟩ : goOn = true ∧ accepted = true := by simpa using hgoes
    exact .inr ⟨u, hu, rfl, hidle, (Option.some.inj h).symm⟩

theorem onRunUnityApp_cases {accepted : Bool} {result : StartResult}
    (h : s.onRunUnityApp answer accepted result = some t) :
    (∃ goOn, s.trySaveUnsavedData answer = some (goOn, t) ∧ (goOn = false ∨ accepted = false)) ∨
      ∃ u, s.trySaveUnsavedData answer = some (true, u) ∧ accepted = true ∧ u.profiling = false ∧
        t = ({ u with opened := none, dbFileName := [] }).start result := by
  simp only [onRunUnityApp, Option.bind_eq_bind, Option.bind_eq_some_iff] at h
  obtain ⟨⟨goOn, u⟩, hu, h⟩ := h
  split at h
  · next hstops =>
    cases h
    exact .inl ⟨goOn, hu, hstops⟩
  · next hgoes =>
    obtain ⟨v, hv, h⟩ := Option.bind_eq_some_iff.1 h
    obtain ⟨hidle, rfl⟩ := profiling_of_closeDb hv
    obtain ⟨rfl, rfl⟩ : goOn = true ∧ accepted = true := by simpa using hgoes
    exact .inr ⟨u, hu, rfl, hidle, (Option.some.inj h).symm⟩

/-- The window once it is closed, before the destructor removes a file. -/
def shut (s : MainWindow ε) : MainWindow ε :=
  { s with profiling := false, opened := none, closed := true }

theorem closeEvent_cases (h : s.closeEvent answer = some t) :
    s.trySaveUnsavedData answer = some (false, t) ∨
      ∃ u, s.trySaveUnsavedData answer = some (true, u) ∧
        t = if u.isDbTemporary then u.shut.removeDbFile else u.shut := by
  simp only [closeEvent, Option.bind_eq_bind, Option.bind_eq_some_iff] at h
  obtain ⟨⟨goOn, u⟩, hu, h⟩ := h
  cases goOn with
  | false =>
    rw [if_pos rfl] at h
    cases h
    exact .inl hu
  | true =>
    rw [if_neg (by simp)] at h
    exact .inr ⟨u, hu, (Option.some.inj h).symm⟩

@[simp] theorem opened_removeDbFile (s : MainWindow ε) : s.removeDbFile.opened = s.opened := by
  unfold removeDbFile
  split <;> rfl

@[simp] theorem profiling_removeDbFile (s : MainWindow ε) :
    s.removeDbFile.profiling = s.profiling := by
  unfold removeDbFile
  split <;> rfl

@[simp] theorem dbFileName_removeDbFile (s : MainWindow ε) :
    s.removeDbFile.dbFileName = s.dbFileName := by
  unfold removeDbFile
  split <;> rfl

end Cases

/-! ### Files that stay -/

/-- The file is not being recorded to, and is not thought to be temporary. -/
structure Apart (name : FileName) (s : MainWindow ε) : Prop where
  recording : s.profiling = true → s.opened ≠ some (.file name)
  temporary : s.dbFileName = name → s.isDbTemporary = false

/-- A file is left alone. -/
structure Leaves (name : FileName) (s t : MainWindow ε) : Prop where
  lookup : t.files.lookup name = s.files.lookup name
  dbFileName : t.dbFileName = name → s.dbFileName = name
  apart : Apart name s → Apart name t

theorem Leaves.refl (name : FileName) (s : MainWindow ε) : Leaves name s s := ⟨rfl, id, id⟩

theorem Leaves.trans {name : FileName} {s t u : MainWindow ε} (h : Leaves name s t)
    (h' : Leaves name t u) : Leaves name s u :=
  ⟨h'.lookup.trans h.lookup, h.dbFileName ∘ h'.dbFileName, h'.apart ∘ h.apart⟩

section Leaves

variable {name : FileName} {s t : MainWindow ε}

theorem leaves_openCopy {dlg : SaveDialog} (hname : dlg.fileName ≠ name) (s : MainWindow ε) :
    Leaves name s (s.openCopy dlg) := by
  unfold openCopy
  split
  · exact .refl name s
  · next hprofiling =>
    split
    · exact ⟨rfl, id, fun h => ⟨fun hrec => absurd hrec hprofiling, h.temporary⟩⟩
    · exact ⟨rfl, fun heq => absurd heq hname,
        fun _ => ⟨fun hrec => absurd hrec hprofiling, fun _ => rfl⟩⟩

theorem leaves_onSaveData {dlg : SaveDialog} (hname : dlg.fileName ≠ name)
    (h : s.onSaveData dlg = some t) : Leaves name s t := by
  unfold onSaveData at h
  split at h
  · cases h
    exact .refl name s
  · split at h
    · cases h
      exact .refl name s
    · split at h
      · cases h
      · split at h
        · cases h
          exact ⟨AList.lookup_erase_ne hname.symm, id, fun h => ⟨h.recording, h.temporary⟩⟩
        · cases h
          have hwritten : ∀ rows, Leaves name s
              { s with files := s.files.insert dlg.fileName rows } := fun rows =>
            ⟨AList.lookup_insert_ne hname.symm, id, fun h => ⟨h.recording, h.temporary⟩⟩
          exact (hwritten _).trans (leaves_openCopy hname _)

/-- The dialogs of the question do not choose a file. -/
def Answer.Avoids (name : FileName) : Answer → Prop
  | .yes dlg => dlg.fileName ≠ name
  | _ => True

theorem leaves_trySaveUnsavedData {answer : Answer} {goOn : Bool} (hname : answer.Avoids name)
    (h : s.trySaveUnsavedData answer = some (goOn, t)) : Leaves name s t := by
  unfold trySaveUnsavedData at h
  split at h
  · cases answer with
    | yes dlg =>
      obtain ⟨u, hu, heq⟩ := Option.map_eq_some_iff.1 h
      cases heq
      exact leaves_onSaveData hname hu
    | no => cases h; exact .refl name s
    | cancel => cases h; exact .refl name s
  · cases h
    exact .refl name s

/-- `close_db` leaves every file alone. -/
theorem leaves_opened_none (name : FileName) (s : MainWindow ε) :
    Leaves name s { s with opened := none } :=
  ⟨rfl, id, fun h => ⟨fun _ => Option.some_ne_none _ ∘ Eq.symm, h.temporary⟩⟩

theorem leaves_removeDbFile (hname : s.dbFileName ≠ name) : Leaves name s s.removeDbFile := by
  unfold removeDbFile
  split
  · exact .refl name s
  · exact ⟨AList.lookup_erase_ne hname.symm, id, fun h => ⟨h.recording, h.temporary⟩⟩

theorem leaves_start (hname : s.dbFileName ≠ name) (hidle : s.profiling = false)
    (result : StartResult) : Leaves name s (s.start result) := by
  have hremoved := leaves_removeDbFile hname
  cases result with
  | noConnection => exact .refl name s
  | noDatabase opened =>
    refine ⟨hremoved.lookup, hremoved.dbFileName, fun h => ⟨fun hrec => ?_, ?_⟩⟩
    · exact absurd ((profiling_removeDbFile s).symm.trans hrec) (by simp [hidle])
    · exact (hremoved.apart h).temporary
  | ok =>
    have hdb : s.removeDbFile.dbFileName ≠ name := by rwa [dbFileName_removeDbFile]
    refine ⟨?_, fun heq => absurd heq hdb, fun _ => ⟨fun _ => ?_, fun heq => absurd heq hdb⟩⟩
    · show (if s.dbFileName = [] then s.files else s.files.insert s.dbFileName []).lookup name = _
      split
      · rfl
      · exact AList.lookup_insert_ne hname.symm
    · show some (if s.dbFileName = [] then OpenTrace.unnamed [] else .file s.dbFileName) ≠ _
      split
      · simp
      · simpa using hname

theorem leaves_onOpenData {answer : Answer} {fileName : FileName} {result : OpenResult}
    (hname : answer.Avoids name) (h : s.onOpenData answer fileName result = some t) :
    Leaves name s t := by
  obtain hu | ⟨u, hu, hidle, rfl⟩ := onOpenData_cases h
  · exact leaves_trySaveUnsavedData hname hu
  · refine (leaves_trySaveUnsavedData hname hu).trans ((leaves_opened_none name u).trans ?_)
    have hrec : u.profiling ≠ true := by simp [hidle]
    split
    · exact .refl name _
    · cases result with
      | failed opened => exact ⟨rfl, id, fun h => ⟨fun h => absurd h hrec, h.temporary⟩⟩
      | ok => exact ⟨rfl, id, fun _ => ⟨fun h => absurd h hrec, fun _ => rfl⟩⟩

/-- A session leaves a file alone that is neither the old nor the new `m_db_file_name`. -/
theorem leaves_onStartProfiling {answer : Answer} {accepted : Bool} {tmp : FileName}
    {result : StartResult} (hname : answer.Avoids name) (htmp : tmp ≠ name)
    (hspares : accepted = true → s.dbFileName ≠ name)
    (h : s.onStartProfiling answer accepted tmp result = some t) : Leaves name s t := by
  obtain ⟨goOn, hu, -⟩ | ⟨u, hu, haccepted, hidle, rfl⟩ := onStartProfiling_cases h
  · exact leaves_trySaveUnsavedData hname hu
  · have hleaves := leaves_trySaveUnsavedData hname hu
    have hdb : u.dbFileName ≠ name := fun heq => hspares haccepted (hleaves.dbFileName heq)
    let v : MainWindow ε := { u with opened := none }
    have hremoved : Leaves name v v.removeDbFile := leaves_removeDbFile hdb
    have hrename : Leaves name v.removeDbFile { v.removeDbFile with dbFileName := tmp } :=
      ⟨rfl, fun heq => absurd heq htmp, fun h => ⟨h.recording, fun heq => absurd heq htmp⟩⟩
    refine hleaves.trans ((leaves_opened_none name u).trans (hremoved.trans (hrename.trans ?_)))
    refine leaves_start ?_ ?_ result
    · exact htmp
    · exact (profiling_removeDbFile v).trans hidle

theorem leaves_onRunUnityApp {answer : Answer} {accepted : Bool} {result : StartResult}
    (hempty : name ≠ []) (hname : answer.Avoids name)
    (h : s.onRunUnityApp answer accepted result = some t) : Leaves name s t := by
  obtain ⟨goOn, hu, -⟩ | ⟨u, hu, -, hidle, rfl⟩ := onRunUnityApp_cases h
  · exact leaves_trySaveUnsavedData hname hu
  · have hrename : Leaves name u { u with opened := none, dbFileName := [] } :=
      ⟨rfl, fun heq => absurd heq.symm hempty,
        fun _ => ⟨fun _ heq => (by cases heq), fun heq => absurd heq.symm hempty⟩⟩
    refine (leaves_trySaveUnsavedData hname hu).trans (hrename.trans ?_)
    refine leaves_start ?_ ?_ result
    · exact hempty.symm
    · exact hidle

theorem leaves_closeEvent {answer : Answer} (hapart : Apart name s) (hname : answer.Avoids name)
    (h : s.closeEvent answer = some t) : Leaves name s t := by
  obtain hu | ⟨u, hu, rfl⟩ := closeEvent_cases h
  · exact leaves_trySaveUnsavedData hname hu
  · have hleaves := leaves_trySaveUnsavedData hname hu
    have hshut : Leaves name u u.shut :=
      ⟨rfl, id, fun h => ⟨fun hrec => (Bool.false_ne_true hrec).elim, h.temporary⟩⟩
    refine hleaves.trans (hshut.trans ?_)
    split
    · next htemporary =>
      refine leaves_removeDbFile fun heq => ?_
      exact absurd ((hleaves.apart hapart).temporary heq) (by simpa using htemporary)
    · exact .refl name _

theorem leaves_received (hapart : Apart name s) (hprofiling : s.profiling = true) (rows : List ε) :
    Leaves name s (s.received rows) := by
  unfold received
  split
  · exact .refl name s
  · next chosen hopened =>
    have hne : name ≠ chosen := fun heq => hapart.recording hprofiling (by rw [hopened, heq])
    exact ⟨Dict.lookup_modify_ne hne _ _, id, fun h => ⟨h.recording, h.temporary⟩⟩
  · exact ⟨rfl, id, fun h => ⟨fun _ heq => (by cases heq), h.temporary⟩⟩

end Leaves

/-- No dialog chooses the file, and no session gets its name. -/
def Action.Avoids (name : FileName) : Action ε → Prop
  | .onOpenData answer _ _ => answer.Avoids name
  | .onSaveData dlg => dlg.fileName ≠ name
  | .onStartProfiling answer _ tmp _ => answer.Avoids name ∧ tmp ≠ name
  | .onRunUnityApp answer _ _ => answer.Avoids name
  | .closeEvent answer => answer.Avoids name
  | _ => True

/-- No session is started by connecting while the file is what `m_db_file_name` says. -/
def Spares (name : FileName) (s : MainWindow ε) : Action ε → Prop
  | .onStartProfiling _ accepted _ _ => accepted = true → s.dbFileName ≠ name
  | _ => True

/-- A session that is started by connecting removes the file `m_db_file_name` says, also when a
trace was saved to it. -/
theorem removed_onStartProfiling {name : FileName} {s t : MainWindow ε} {answer : Answer}
    {tmp : FileName} {result : StartResult} (hempty : name ≠ []) (hapart : Apart name s)
    (htmp : tmp ≠ name) (hdb : s.dbFileName = name)
    (h : s.onStartProfiling answer true tmp result = some t) :
    Apart name t ∧ t.files.lookup name = none := by
  have hgoes : s.trySaveUnsavedData answer = some (true, s) := by
    refine if_neg fun hasks => ?_
    exact absurd hasks.1 (by simp [hapart.temporary hdb])
  obtain ⟨goOn, hu, hstops⟩ | ⟨u, hu, -, hidle, rfl⟩ := onStartProfiling_cases h
  · rw [hgoes] at hu
    cases hu
    simp at hstops
  · rw [hgoes] at hu
    cases hu
    have hremoved : removeDbFile { s with opened := none } =
        { s with opened := none, files := s.files.erase name } := by
      rw [removeDbFile, if_neg (by rw [hdb]; exact hempty), hdb]
    rw [hremoved]
    have hstart := leaves_start (s := { s with
      opened := none, files := s.files.erase name, dbFileName := tmp }) htmp hidle result
    refine ⟨hstart.apart ⟨fun _ heq => (by cases heq), fun heq => absurd heq htmp⟩, ?_⟩
    rw [hstart.lookup]
    exact AList.lookup_erase _ _

/-- **What a step does to a file** that is not chosen in it. -/
theorem leaves_step {name : FileName} {s t : MainWindow ε} {a : Action ε} (hempty : name ≠ [])
    (h : Apart name s) (ha : a.Avoids name) (hstep : s.step a = some t) :
    Apart name t ∧ (Spares name s a → t.files.lookup name = s.files.lookup name) ∧
      (¬Spares name s a → t.files.lookup name = none) := by
  have hleaves : ∀ {t : MainWindow ε}, Leaves name s t → Spares name s a →
      Apart name t ∧ (Spares name s a → t.files.lookup name = s.files.lookup name) ∧
        (¬Spares name s a → t.files.lookup name = none) :=
    fun hl hspares => ⟨hl.apart h, fun _ => hl.lookup, fun hnot => absurd hspares hnot⟩
  unfold step at hstep
  split at hstep
  · cases hstep
  · cases a with
    | onOpenData answer fileName result => exact hleaves (leaves_onOpenData ha hstep) trivial
    | onSaveData dlg =>
      dsimp only at hstep
      split at hstep
      · cases hstep
      · exact hleaves (leaves_onSaveData ha hstep) trivial
    | onStartProfiling answer accepted tmp result =>
      dsimp only at hstep
      split at hstep
      · cases hstep
      · by_cases hspares : accepted = true → s.dbFileName ≠ name
        · exact hleaves (leaves_onStartProfiling ha.1 ha.2 hspares hstep) hspares
        · obtain ⟨haccepted, hdb⟩ := Classical.not_imp.1 hspares
          rw [haccepted] at hstep
          obtain ⟨hapart, hnone⟩ :=
            removed_onStartProfiling hempty h ha.2 (not_not.1 hdb) hstep
          exact ⟨hapart, fun h => absurd h hspares, fun _ => hnone⟩
    | onRunUnityApp answer accepted result =>
      exact hleaves (leaves_onRunUnityApp hempty ha hstep) trivial
    | onStopProfiling =>
      dsimp only at hstep
      split at hstep
      · cases hstep
        have hstopped : Leaves name s { s with profiling := false } :=
          ⟨rfl, id, fun h => ⟨fun hrec => (Bool.false_ne_true hrec).elim, h.temporary⟩⟩
        exact hleaves hstopped trivial
      · cases hstep
    | received rows =>
      dsimp only at hstep
      split at hstep
      · next hprofiling =>
        cases hstep
        exact hleaves (leaves_received h hprofiling rows) trivial
      · cases hstep
    | closeEvent answer => exact hleaves (leaves_closeEvent h ha hstep) trivial

/-- A file that is gone does not come back. -/
theorem gone_of_run {name : FileName} {s t : MainWindow ε} {l : List (Action ε)}
    (hempty : name ≠ []) (hgone : s.files.lookup name = none) (hapart : Apart name s)
    (hl : ∀ a ∈ l, a.Avoids name) (hrun : Run.run MainWindow.step s l = some t) :
    t.files.lookup name = none := by
  induction l generalizing s with
  | nil =>
    cases hrun
    exact hgone
  | cons a l ih =>
    obtain ⟨u, hu, hrun⟩ := Option.bind_eq_some_iff.1 hrun
    obtain ⟨hapart', hkept, hremoved⟩ := leaves_step hempty hapart (hl a List.mem_cons_self) hu
    refine ih ?_ hapart' (fun b hb => hl b (List.mem_cons_of_mem _ hb)) hrun
    by_cases hspares : Spares name s a
    · rw [hkept hspares, hgone]
    · exact hremoved hspares

/-- **A file stays just so long as no session is started by connecting while it is what
`m_db_file_name` says**: opening, recording, stopping, launching and closing leave it alone. -/
theorem kept_iff {name : FileName} {rows : List ε} {s t : MainWindow ε} {l : List (Action ε)}
    (hempty : name ≠ []) (hfile : s.files.lookup name = some rows) (hapart : Apart name s)
    (hl : ∀ a ∈ l, a.Avoids name) (hrun : Run.run MainWindow.step s l = some t) :
    t.files.lookup name = some rows ↔ Run.Along MainWindow.step (Spares name) s l := by
  induction l generalizing s with
  | nil =>
    cases hrun
    simp [hfile, Run.Along]
  | cons a l ih =>
    obtain ⟨u, hu, hrun⟩ := Option.bind_eq_some_iff.1 hrun
    obtain ⟨hapart', hkept, hremoved⟩ := leaves_step hempty hapart (hl a List.mem_cons_self) hu
    have hrest : ∀ b ∈ l, b.Avoids name := fun b hb => hl b (List.mem_cons_of_mem _ hb)
    have halong : Run.Along MainWindow.step (Spares name) s (a :: l) ↔
        Spares name s a ∧ Run.Along MainWindow.step (Spares name) u l := by
      simp [Run.Along, hu]
    rw [halong]
    by_cases hspares : Spares name s a
    · rw [ih ((hkept hspares).trans hfile) hapart' hrest hrun]
      exact ⟨fun h => ⟨hspares, h⟩, fun h => h.2⟩
    · have hgone := gone_of_run hempty (hremoved hspares) hapart' hrest hrun
      rw [hgone]
      exact ⟨fun h => (by cases h), fun h => absurd h.1 hspares⟩

/-- **A trace that was saved stays in its file just so long as no session is started by connecting**
while `m_db_file_name` is this file, as it is after saving, unless the copy could not be opened. -/
theorem saved_kept_iff {name : FileName} {rows : List ε} {s u t : MainWindow ε}
    {reopened : OpenResult} {l : List (Action ε)} (hempty : name ≠ [])
    (hrows : s.contents = some rows)
    (hsave : s.step (.onSaveData ⟨name, true, reopened⟩) = some u)
    (hfailed : reopened ≠ .ok → s.dbFileName ≠ name) (hl : ∀ a ∈ l, a.Avoids name)
    (hrun : Run.run MainWindow.step u l = some t) :
    (u.dbFileName = name ↔ reopened = .ok) ∧
      (t.files.lookup name = some rows ↔ Run.Along MainWindow.step (Spares name) u l) := by
  obtain ⟨opened, hopened⟩ : ∃ opened, s.opened = some opened := by
    cases hopened : s.opened with
    | none => rw [contents, hopened] at hrows; cases hrows
    | some opened => exact ⟨opened, rfl⟩
  unfold step at hsave
  split at hsave
  · cases hsave
  · dsimp only at hsave
    split at hsave
    · cases hsave
    · next hidle =>
      simp only [onSaveData, if_neg hempty, hopened, hrows, Option.filter_some, if_true, hidle]
        at hsave
      split at hsave
      · cases hsave
      · cases reopened with
        | failed opened =>
          have hdb : s.dbFileName ≠ name := hfailed nofun
          cases hsave
          refine ⟨iff_of_false hdb nofun, kept_iff hempty (AList.lookup_insert _) ?_ hl hrun⟩
          exact ⟨fun hrec => (Bool.false_ne_true hrec).elim, fun heq => absurd heq hdb⟩
        | ok =>
          cases hsave
          refine ⟨iff_of_true rfl rfl, kept_iff hempty (AList.lookup_insert _) ?_ hl hrun⟩
          exact ⟨fun hrec => (Bool.false_ne_true hrec).elim, fun _ => rfl⟩

/-- A session is started after a trace was saved. -/
def savedAndConnected : List (Action ℕ) :=
  [.onRunUnityApp .no true .ok, .received [1, 2], .onStopProfiling,
    .onSaveData ⟨[97], true, .ok⟩, .onStartProfiling .cancel true [98] .ok]

theorem saved_kept_iff_removed :
    ∃ t, Run.run MainWindow.step {} savedAndConnected = some t ∧
      t.files.lookup [97] ≠ some [1, 2] := by
  obtain ⟨t, ht⟩ := Option.isSome_iff_exists.1
    (show (Run.run MainWindow.step {} savedAndConnected).isSome by decide)
  refine ⟨t, ht, ?_⟩
  let s : MainWindow ℕ := { opened := some (.unnamed [1, 2]), isDbTemporary := true }
  let u : MainWindow ℕ := { files := AList.insert [97] [1, 2] ∅, opened := some (.file [97])
                            dbFileName := [97] }
  have hsave : s.step (.onSaveData ⟨[97], true, .ok⟩) = some u := rfl
  have hrun : Run.run MainWindow.step u [.onStartProfiling .cancel true [98] .ok] = some t := ht
  obtain ⟨-, hiff⟩ := saved_kept_iff (by decide) rfl hsave (absurd rfl)
    (by simp [Action.Avoids, Answer.Avoids]) hrun
  rw [ne_eq, hiff]
  simp [Run.Along, Spares, u]

/-! ### Rows without a file -/

/-- Some file starts with the rows. -/
def InFile (rows : List ε) (files : Dict FileName (List ε)) : Prop :=
  ∃ name kept, files.lookup name = some kept ∧ rows <+: kept

/-- The rows are in a file, or in the open database without a name. -/
def Holds (rows : List ε) (s : MainWindow ε) : Prop :=
  (∃ kept, s.opened = some (.unnamed kept) ∧ rows <+: kept) ∨ InFile rows s.files

/-- Nothing is saved by the answer. -/
def Answer.Loses : Answer → Prop
  | .yes dlg => dlg.fileName = [] ∨ dlg.written = false
  | .no => True
  | .cancel => False

/-- The file the rows are saved to is removed when a session is started by connecting: it is
`m_db_file_name` then, or else it gets the name of the new session. -/
def Answer.Removed (tmp : FileName) (result : StartResult) : Answer → Prop
  | .yes dlg => dlg.reopened = .ok ∨ dlg.fileName = tmp ∧ result ≠ .noConnection
  | _ => False

/-- The action discards the rows of the open database without a name.  Connecting discards them also
when they are saved. -/
def Action.Discards : Action ε → Prop
  | .onOpenData answer _ _ => answer.Loses
  | .onStartProfiling answer accepted tmp result =>
    accepted = true ∧ (answer.Loses ∨ answer.Removed tmp result)
  | .onRunUnityApp answer accepted _ => accepted = true ∧ answer.Loses
  | .closeEvent answer => answer.Loses
  | _ => False

section InFile

variable {rows : List ε} {files : Dict FileName (List ε)}

theorem InFile.of_erase {name : FileName} (h : InFile rows (files.erase name)) :
    InFile rows files := by
  obtain ⟨name', kept, hlookup, hprefix⟩ := h
  have hne : name' ≠ name := fun heq => by
    rw [heq, AList.lookup_erase] at hlookup
    cases hlookup
  rw [AList.lookup_erase_ne hne] at hlookup
  exact ⟨name', kept, hlookup, hprefix⟩

theorem InFile.of_insert {name : FileName} {new : List ε} (hnew : ¬rows <+: new)
    (h : InFile rows (files.insert name new)) : InFile rows (files.erase name) := by
  obtain ⟨name', kept, hlookup, hprefix⟩ := h
  have hne : name' ≠ name := fun heq => by
    rw [heq, AList.lookup_insert, Option.some.injEq] at hlookup
    exact hnew (hlookup ▸ hprefix)
  rw [AList.lookup_insert_ne hne, ← AList.lookup_erase_ne hne] at hlookup
  exact ⟨name', kept, hlookup, hprefix⟩

theorem InFile.of_erase_insert {name : FileName} {new : List ε}
    (h : InFile rows ((files.insert name new).erase name)) : InFile rows files := by
  obtain ⟨name', kept, hlookup, hprefix⟩ := h
  have hne : name' ≠ name := fun heq => by
    rw [heq, AList.lookup_erase] at hlookup
    cases hlookup
  rw [AList.lookup_erase_ne hne, AList.lookup_insert_ne hne] at hlookup
  exact ⟨name', kept, hlookup, hprefix⟩

theorem inFile_insert (name : FileName) : InFile rows (files.insert name rows) :=
  ⟨name, rows, AList.lookup_insert _, List.prefix_rfl⟩

end InFile

/-- A session is recorded in a temporary database, and so is what has no file. -/
structure Sound (s : MainWindow ε) : Prop where
  profiling : s.profiling = true → s.isDbTemporary = true
  dbFileName : ∀ rows, s.opened = some (.unnamed rows) → s.dbFileName = []
  unsaved : ∀ rows, s.opened = some (.unnamed rows) → rows ≠ [] → s.isDbTemporary = true

section Sound

variable {s t : MainWindow ε}

/-- Without a database nothing is unsaved. -/
theorem Sound.of_none (hopened : s.opened = none)
    (hprofiling : s.profiling = true → s.isDbTemporary = true) : Sound s :=
  ⟨hprofiling, fun rows heq => (by rw [hopened] at heq; cases heq),
    fun rows heq => (by rw [hopened] at heq; cases heq)⟩

/-- In a file nothing is unsaved. -/
theorem Sound.of_file {name : FileName} (hopened : s.opened = some (.file name))
    (hprofiling : s.profiling = true → s.isDbTemporary = true) : Sound s :=
  ⟨hprofiling, fun rows heq => (by rw [hopened] at heq; cases heq),
    fun rows heq => (by rw [hopened] at heq; cases heq)⟩

theorem sound_openCopy (h : Sound s) (dlg : SaveDialog) : Sound (s.openCopy dlg) := by
  unfold openCopy
  split
  · exact h
  · next hidle =>
    split
    · next opened _ =>
      cases opened with
      | false => exact .of_none rfl fun hrec => absurd hrec hidle
      | true => exact .of_file rfl fun hrec => absurd hrec hidle
    · exact .of_file rfl fun hrec => absurd hrec hidle

theorem sound_onSaveData {dlg : SaveDialog} (h : Sound s) (hsave : s.onSaveData dlg = some t) :
    Sound t := by
  unfold onSaveData at hsave
  split at hsave
  · cases hsave
    exact h
  · split at hsave
    · cases hsave
      exact h
    · split at hsave
      · cases hsave
      · split at hsave
        · cases hsave
          exact ⟨h.profiling, h.dbFileName, h.unsaved⟩
        · next rows _ =>
          cases hsave
          let written : MainWindow ε := { s with files := s.files.insert dlg.fileName rows }
          have hwritten : Sound written := ⟨h.profiling, h.dbFileName, h.unsaved⟩
          exact sound_openCopy hwritten dlg

theorem sound_trySaveUnsavedData {answer : Answer} {goOn : Bool} (h : Sound s)
    (hsave : s.trySaveUnsavedData answer = some (goOn, t)) : Sound t := by
  unfold trySaveUnsavedData at hsave
  split at hsave
  · cases answer with
    | yes dlg =>
      obtain ⟨u, hu, heq⟩ := Option.map_eq_some_iff.1 hsave
      cases heq
      exact sound_onSaveData h hu
    | no => cases hsave; exact h
    | cancel => cases hsave; exact h
  · cases hsave
    exact h

theorem sound_start (hopened : s.opened = none) (hidle : s.profiling = false)
    (result : StartResult) : Sound (s.start result) := by
  cases result with
  | noConnection => exact .of_none hopened fun hrec => absurd (hidle.symm.trans hrec) (by decide)
  | noDatabase opened =>
    have hrec : s.removeDbFile.profiling ≠ true := by simp [hidle]
    cases opened with
    | false => exact .of_none rfl fun h => absurd h hrec
    | true =>
      by_cases hempty : s.dbFileName = []
      · refine ⟨fun h => absurd h hrec, fun _ _ => ?_, fun rows heq hrows => ?_⟩
        · exact (dbFileName_removeDbFile s).trans hempty
        · simp only [start, if_pos hempty, if_true] at heq
          cases heq
          exact absurd rfl hrows
      · have hopened : (s.start (.noDatabase true)).opened = some (.file s.dbFileName) := by
          simp [start, hempty]
        exact .of_file hopened fun h => absurd h hrec
  | ok =>
    by_cases hempty : s.dbFileName = []
    · exact ⟨fun _ => rfl, fun _ _ => (dbFileName_removeDbFile s).trans hempty, fun _ _ _ => rfl⟩
    · have hopened : (s.start .ok).opened = some (.file s.dbFileName) := by
        simp [start, hempty]
      exact .of_file hopened fun _ => rfl

theorem sound_onOpenData {answer : Answer} {fileName : FileName} {result : OpenResult}
    (h : Sound s) (hopen : s.onOpenData answer fileName result = some t) : Sound t := by
  obtain hu | ⟨u, hu, hidle, rfl⟩ := onOpenData_cases hopen
  · exact sound_trySaveUnsavedData h hu
  · have hrec : u.profiling ≠ true := by simp [hidle]
    split
    · exact .of_none rfl fun h => absurd h hrec
    · cases result with
      | failed opened =>
        cases opened with
        | false => exact .of_none rfl fun h => absurd h hrec
        | true => exact .of_file rfl fun h => absurd h hrec
      | ok => exact .of_file rfl fun h => absurd h hrec

theorem sound_received (h : Sound s) (hprofiling : s.profiling = true) (rows : List ε) :
    Sound (s.received rows) := by
  unfold received
  split
  · exact h
  · exact ⟨h.profiling, h.dbFileName, h.unsaved⟩
  · next old hopened =>
    exact ⟨h.profiling, fun _ _ => h.dbFileName old hopened, fun _ _ _ => h.profiling hprofiling⟩

/-- What every step keeps. -/
theorem sound_step {a : Action ε} (h : Sound s) (hstep : s.step a = some t) : Sound t := by
  unfold step at hstep
  split at hstep
  · cases hstep
  · cases a with
    | onOpenData answer fileName result => exact sound_onOpenData h hstep
    | onSaveData dlg =>
      dsimp only at hstep
      split at hstep
      · cases hstep
      · exact sound_onSaveData h hstep
    | onStartProfiling answer accepted tmp result =>
      dsimp only at hstep
      split at hstep
      · cases hstep
      · obtain ⟨goOn, hu, -⟩ | ⟨u, hu, -, hidle, rfl⟩ := onStartProfiling_cases hstep
        · exact sound_trySaveUnsavedData h hu
        · refine sound_start ?_ ?_ result
          · exact opened_removeDbFile _
          · exact (profiling_removeDbFile _).trans hidle
    | onRunUnityApp answer accepted result =>
      obtain ⟨goOn, hu, -⟩ | ⟨u, hu, -, hidle, rfl⟩ := onRunUnityApp_cases hstep
      · exact sound_trySaveUnsavedData h hu
      · refine sound_start ?_ ?_ result
        · rfl
        · exact hidle
    | onStopProfiling =>
      dsimp only at hstep
      split at hstep
      · cases hstep
        exact ⟨fun hrec => (Bool.false_ne_true hrec).elim, h.dbFileName, h.unsaved⟩
      · cases hstep
    | received rows =>
      dsimp only at hstep
      split at hstep
      · next hprofiling =>
        cases hstep
        exact sound_received h hprofiling rows
      · cases hstep
    | closeEvent answer =>
      obtain hu | ⟨u, hu, rfl⟩ := closeEvent_cases hstep
      · exact sound_trySaveUnsavedData h hu
      · have hrec : u.shut.profiling ≠ true := Bool.false_ne_true
        split
        · exact .of_none (opened_removeDbFile _) fun h =>
            absurd ((profiling_removeDbFile _).symm.trans h) hrec
        · exact .of_none rfl fun h => absurd h hrec

theorem sound_of_run {files : Dict FileName (List ε)} {l : List (Action ε)}
    (hrun : Run.run MainWindow.step { files := files } l = some s) : Sound s :=
  Run.reachable_invariant (fun _ _ _ => sound_step)
    (Sound.of_none rfl fun h => (Bool.false_ne_true h).elim) ⟨l, hrun⟩

end Sound

section Lost

variable {rows : List ε} {s t : MainWindow ε} {answer : Answer}

theorem holds_of_opened (hopened : s.opened = some (.unnamed rows)) : Holds rows s :=
  .inl ⟨rows, hopened, List.prefix_rfl⟩

theorem files_start (hname : s.dbFileName = []) (result : StartResult) :
    (s.start result).files = s.files := by
  have hremoved : s.removeDbFile = s := if_pos hname
  cases result with
  | noConnection => rfl
  | noDatabase opened => rw [start, hremoved]
  | ok =>
    simp only [start]
    rw [if_pos hname]

theorem InFile.of_removeDbFile (h : InFile rows s.removeDbFile.files) : InFile rows s.files := by
  unfold removeDbFile at h
  split at h
  · exact h
  · exact h.of_erase

/-- A session has no rows to begin with. -/
theorem not_holds_start {result : StartResult} (hrows : rows ≠ []) (hopened : s.opened = none)
    (hconnection : result = .noConnection → ¬InFile rows s.files)
    (hfiles : ¬InFile rows s.removeDbFile.files) : ¬Holds rows (s.start result) := by
  have hempty : ¬rows <+: [] := fun hprefix => hrows (List.prefix_nil.1 hprefix)
  have hdb : ∀ kept, (if s.dbFileName = [] then OpenTrace.unnamed [] else .file s.dbFileName) =
      .unnamed kept → ¬rows <+: kept := fun kept heq => by
    split at heq
    · cases heq
      exact hempty
    · cases heq
  cases result with
  | noConnection =>
    rintro (⟨kept, heq, -⟩ | h)
    · exact absurd (hopened.symm.trans heq) nofun
    · exact hconnection rfl h
  | noDatabase opened =>
    rintro (⟨kept, heq, hprefix⟩ | h)
    · cases opened with
      | false => cases heq
      | true => exact hdb kept (Option.some.inj heq) hprefix
    · exact hfiles h
  | ok =>
    rintro (⟨kept, heq, hprefix⟩ | h)
    · exact hdb kept (Option.some.inj heq) hprefix
    · simp only [start] at h
      unfold removeDbFile at hfiles
      split at h
      · next hname => exact hfiles (by rwa [if_pos hname])
      · next hname =>
        rw [if_neg hname] at hfiles
        exact hfiles (h.of_insert hempty)

theorem holds_iff_inFile (hopened : ∀ kept, s.opened ≠ some (.unnamed kept)) :
    Holds rows s ↔ InFile rows s.files :=
  ⟨fun h => h.elim (fun ⟨kept, heq, _⟩ => absurd heq (hopened kept)) id, .inr⟩

theorem holds_ite_openData (s : MainWindow ε) (hopened : s.opened = none) (fileName : FileName)
    (result : OpenResult) :
    Holds rows (if fileName = [] then s else s.openData fileName result) ↔
      InFile rows s.files := by
  split
  · exact holds_iff_inFile fun kept heq => absurd (hopened.symm.trans heq) nofun
  · cases result with
    | failed opened =>
      refine holds_iff_inFile fun kept heq => ?_
      cases opened <;> cases heq
    | ok => exact holds_iff_inFile fun _ => nofun

theorem not_loses_yes {name : FileName} {reopened : OpenResult} (hname : name ≠ []) :
    ¬(Answer.yes ⟨name, true, reopened⟩).Loses :=
  fun h => h.elim hname nofun

section Asked

variable (h : Sound s) (hopened : s.opened = some (.unnamed rows)) (hrows : rows ≠ [])
  (hfiles : ¬InFile rows s.files)

include h hopened hrows hfiles

/-- What can come of the question when rows are unsaved: it is cancelled, nothing is saved, or the
rows are in the chosen file, which `m_db_file_name` says unless a session goes on or the copy could
not be opened. -/
theorem trySaveUnsavedData_cases {goOn : Bool}
    (htry : s.trySaveUnsavedData answer = some (goOn, t)) :
    (goOn = false ∧ answer = .cancel ∧ t = s) ∨
      (goOn = true ∧ answer.Loses ∧ t.opened = s.opened ∧ ¬InFile rows t.files) ∨
      (goOn = true ∧ ∃ name reopened, answer = .yes ⟨name, true, reopened⟩ ∧ name ≠ [] ∧
        t.files = s.files.insert name rows ∧
          (t.profiling = false → t.dbFileName = if reopened = .ok then name else []) ∧
          (t.isDbTemporary = true → t.dbFileName = [])) := by
  have hasks : s.Asks := ⟨h.unsaved rows hopened hrows, by simp [hopened]⟩
  unfold trySaveUnsavedData at htry
  rw [if_pos hasks] at htry
  cases answer with
  | cancel =>
    cases htry
    exact .inl ⟨rfl, rfl, rfl⟩
  | no =>
    cases htry
    exact .inr (.inl ⟨rfl, trivial, rfl, hfiles⟩)
  | yes dlg =>
    obtain ⟨u, hu, heq⟩ := Option.map_eq_some_iff.1 htry
    cases heq
    obtain ⟨name, written, reopened⟩ := dlg
    have hcontents : s.contents = some rows := by rw [contents, hopened]
    unfold onSaveData at hu
    split at hu
    · next hname =>
      cases hu
      exact .inr (.inl ⟨rfl, .inl hname, rfl, hfiles⟩)
    · next hname =>
      simp only [hopened, OpenTrace.IsFile, hcontents, Bool.false_eq_true, if_false] at hu
      cases written with
      | false =>
        cases hu
        exact .inr (.inl ⟨rfl, .inr rfl, hopened.symm, fun h => hfiles h.of_erase⟩)
      | true =>
        simp only [Option.filter_some, if_true, openCopy] at hu
        split at hu
        · next hprofiling =>
          cases hu
          refine .inr (.inr ⟨rfl, name, reopened, rfl, hname, rfl, fun hidle => ?_, fun _ => ?_⟩)
          · exact absurd (hidle.symm.trans hprofiling) (by decide)
          · exact h.dbFileName rows hopened
        · have hdb := h.dbFileName rows hopened
          cases reopened with
          | failed opened =>
            cases hu
            exact .inr (.inr ⟨rfl, name, _, rfl, hname, rfl, fun _ => hdb, fun _ => hdb⟩)
          | ok =>
            cases hu
            exact .inr (.inr ⟨rfl, name, _, rfl, hname, rfl, fun _ => rfl, nofun⟩)

/-- The question alone does not discard rows. -/
theorem holds_trySaveUnsavedData {goOn : Bool}
    (htry : s.trySaveUnsavedData answer = some (goOn, t)) : Holds rows t := by
  obtain ⟨-, -, rfl⟩ | ⟨-, -, hsame, -⟩ | ⟨-, name, _, -, -, hinsert, -⟩ :=
    trySaveUnsavedData_cases h hopened hrows hfiles htry
  · exact holds_of_opened hopened
  · exact holds_of_opened (hsame.trans hopened)
  · exact .inr (hinsert ▸ inFile_insert name)

theorem lost_onOpenData {fileName : FileName} {result : OpenResult}
    (hopen : s.onOpenData answer fileName result = some t) : ¬Holds rows t ↔ answer.Loses := by
  obtain hu | ⟨u, hu, -, rfl⟩ := onOpenData_cases hopen
  · have hholds := holds_trySaveUnsavedData h hopened hrows hfiles hu
    obtain ⟨-, rfl, -⟩ | ⟨hgoes, -⟩ | ⟨hgoes, -⟩ :=
      trySaveUnsavedData_cases h hopened hrows hfiles hu
    · exact ⟨fun hlost => absurd hholds hlost, False.elim⟩
    · cases hgoes
    · cases hgoes
  · rw [holds_ite_openData { u with opened := none } rfl fileName result]
    obtain ⟨hgoes, -⟩ | ⟨-, hloses, -, hnot⟩ | ⟨-, name, _, rfl, hname, hinsert, -⟩ :=
      trySaveUnsavedData_cases h hopened hrows hfiles hu
    · cases hgoes
    · exact ⟨fun _ => hloses, fun _ => hnot⟩
    · refine ⟨fun hnot => absurd (hinsert ▸ inFile_insert name) hnot, fun hloses => ?_⟩
      exact absurd hloses (not_loses_yes hname)

theorem lost_onStartProfiling {accepted : Bool} {tmp : FileName} {result : StartResult}
    (hstart : s.onStartProfiling answer accepted tmp result = some t) :
    ¬Holds rows t ↔ accepted = true ∧ (answer.Loses ∨ answer.Removed tmp result) := by
  obtain ⟨goOn, hu, hstops⟩ | ⟨u, hu, rfl, hidle, rfl⟩ := onStartProfiling_cases hstart
  · have hholds := holds_trySaveUnsavedData h hopened hrows hfiles hu
    refine ⟨fun hlost => absurd hholds hlost, fun ⟨haccepted, hanswer⟩ => ?_⟩
    obtain ⟨-, rfl, -⟩ | ⟨hgoes, -⟩ | ⟨hgoes, -⟩ :=
      trySaveUnsavedData_cases h hopened hrows hfiles hu
    · exact (hanswer.elim id id).elim
    · simp [hgoes, haccepted] at hstops
    · simp [hgoes, haccepted] at hstops
  · let v : MainWindow ε := { u with opened := none }
    let w : MainWindow ε := { v.removeDbFile with dbFileName := tmp }
    have hclosed : w.opened = none := opened_removeDbFile v
    have hlost (hremoved : ¬InFile rows v.removeDbFile.files) : ¬Holds rows (w.start result) :=
      not_holds_start hrows hclosed (fun _ => hremoved) fun hin =>
        hremoved (InFile.of_removeDbFile (s := w) hin)
    obtain ⟨hgoes, -⟩ | ⟨-, hloses, -, hnot⟩ | ⟨-, name, reopened, rfl, hname, hinsert, hdb, -⟩ :=
      trySaveUnsavedData_cases h hopened hrows hfiles hu
    · cases hgoes
    · refine iff_of_true (hlost fun hin => hnot ?_) ⟨rfl, .inl hloses⟩
      exact InFile.of_removeDbFile (s := v) hin
    · rw [and_iff_right rfl, or_iff_right (not_loses_yes hname)]
      specialize hdb hidle
      by_cases hreopened : reopened = .ok
      · -- `m_db_file_name` is the file the rows have just been saved to
        rw [if_pos hreopened] at hdb
        refine iff_of_true (hlost fun hin => hfiles ?_) (.inl hreopened)
        have hremove : v.removeDbFile.files = (s.files.insert name rows).erase name := by
          rw [removeDbFile, if_neg (by rw [hdb]; exact hname), hdb, ← hinsert]
        rw [hremove] at hin
        exact hin.of_erase_insert
      · -- it is still empty, and only the new session can remove a file
        rw [if_neg hreopened] at hdb
        have hfilesEq : w.files = s.files.insert name rows := by
          show v.removeDbFile.files = _
          rw [removeDbFile, if_pos hdb, ← hinsert]
        by_cases hremoved : name = tmp ∧ result ≠ .noConnection
        · obtain ⟨rfl, hresult⟩ := hremoved
          refine iff_of_true ?_ (.inr ⟨rfl, hresult⟩)
          refine not_holds_start hrows hclosed (absurd · hresult) fun hin => hfiles ?_
          rw [removeDbFile, if_neg hname] at hin
          rw [show w.dbFileName = name from rfl, hfilesEq] at hin
          exact hin.of_erase_insert
        · have hwritten : w.files.lookup name = some rows := hfilesEq ▸ AList.lookup_insert _
          have hkept : (w.start result).files.lookup name = some rows := by
            by_cases hresult : result = .noConnection
            · rw [hresult]
              exact hwritten
            · have hne : tmp ≠ name := fun heq => hremoved ⟨heq.symm, hresult⟩
              have hrec : w.profiling = false := (profiling_removeDbFile v).trans hidle
              exact (leaves_start (s := w) hne hrec result).lookup.trans hwritten
          refine iff_of_false (not_not.2 (.inr ⟨name, rows, hkept, List.prefix_rfl⟩)) ?_
          exact fun hanswer => hanswer.elim hreopened hremoved

theorem lost_onRunUnityApp {accepted : Bool} {result : StartResult}
    (hstart : s.onRunUnityApp answer accepted result = some t) :
    ¬Holds rows t ↔ accepted = true ∧ answer.Loses := by
  obtain ⟨goOn, hu, hstops⟩ | ⟨u, hu, rfl, hidle, rfl⟩ := onRunUnityApp_cases hstart
  · have hholds := holds_trySaveUnsavedData h hopened hrows hfiles hu
    refine ⟨fun hlost => absurd hholds hlost, fun ⟨haccepted, hloses⟩ => ?_⟩
    obtain ⟨-, rfl, -⟩ | ⟨hgoes, -⟩ | ⟨hgoes, -⟩ :=
      trySaveUnsavedData_cases h hopened hrows hfiles hu
    · exact hloses.elim
    · simp [hgoes, haccepted] at hstops
    · simp [hgoes, haccepted] at hstops
  · let v : MainWindow ε := { u with opened := none, dbFileName := [] }
    have hkept : (v.start result).files = u.files := files_start (s := v) rfl result
    obtain ⟨hgoes, -⟩ | ⟨-, hloses, -, hnot⟩ | ⟨-, name, _, rfl, hname, hinsert, -⟩ :=
      trySaveUnsavedData_cases h hopened hrows hfiles hu
    · cases hgoes
    · have hlost : ¬Holds rows (v.start result) :=
        not_holds_start (s := v) hrows rfl (fun _ => hnot) fun hin =>
          hnot (InFile.of_removeDbFile (s := v) hin)
      exact iff_of_true hlost ⟨rfl, hloses⟩
    · have hholds : Holds rows (v.start result) :=
        .inr (hkept.symm ▸ hinsert.symm ▸ inFile_insert name)
      exact ⟨fun hlost => absurd hholds hlost, fun hloses =>
        absurd hloses.2 (not_loses_yes hname)⟩

theorem lost_closeEvent (hclose : s.closeEvent answer = some t) :
    ¬Holds rows t ↔ answer.Loses := by
  obtain hu | ⟨u, hu, rfl⟩ := closeEvent_cases hclose
  · have hholds := holds_trySaveUnsavedData h hopened hrows hfiles hu
    obtain ⟨-, rfl, -⟩ | ⟨hgoes, -⟩ | ⟨hgoes, -⟩ :=
      trySaveUnsavedData_cases h hopened hrows hfiles hu
    · exact ⟨fun hlost => absurd hholds hlost, False.elim⟩
    · cases hgoes
    · cases hgoes
  · obtain ⟨hgoes, -⟩ | ⟨-, hloses, -, hnot⟩ | ⟨-, name, _, rfl, hname, hinsert, -, hdb⟩ :=
      trySaveUnsavedData_cases h hopened hrows hfiles hu
    · cases hgoes
    · refine ⟨fun _ => hloses, fun _ hholds => hnot ?_⟩
      split at hholds
      · have hclosed : ∀ kept, u.shut.removeDbFile.opened ≠ some (.unnamed kept) := fun _ heq =>
          absurd ((opened_removeDbFile u.shut).symm.trans heq) nofun
        exact InFile.of_removeDbFile (s := u.shut) ((holds_iff_inFile hclosed).1 hholds)
      · have hclosed : ∀ kept, u.shut.opened ≠ some (.unnamed kept) := fun _ => nofun
        exact (holds_iff_inFile hclosed).1 hholds
    · have hholds : InFile rows u.shut.files := hinsert.symm ▸ inFile_insert name
      have hkept : Holds rows (if u.isDbTemporary = true then u.shut.removeDbFile else u.shut) := by
        split
        · next htemporary =>
          have hsame : u.shut.removeDbFile = u.shut := if_pos (hdb htemporary)
          exact .inr (hsame.symm ▸ hholds)
        · exact .inr hholds
      exact ⟨fun hlost => absurd hkept hlost, fun hloses => absurd hloses (not_loses_yes hname)⟩

end Asked

/-- **When the rows of a database without a name are lost**, in every state the window can be in:
when the answer to the question does not save them, and, after connecting, also when it does, unless
the copy could not be opened. -/
theorem lost_iff {files : Dict FileName (List ε)} {l : List (Action ε)} {a : Action ε}
    (hrun : Run.run MainWindow.step { files := files } l = some s)
    (hopened : s.opened = some (.unnamed rows)) (hrows : rows ≠ [])
    (hfiles : ¬InFile rows s.files) (hstep : s.step a = some t) :
    ¬Holds rows t ↔ a.Discards := by
  have h := sound_of_run hrun
  have hstays : ∀ {t : MainWindow ε}, Holds rows t → (¬Holds rows t ↔ False) :=
    fun hholds => ⟨fun hlost => hlost hholds, False.elim⟩
  unfold step at hstep
  split at hstep
  · cases hstep
  · cases a with
    | onOpenData answer fileName result => exact lost_onOpenData h hopened hrows hfiles hstep
    | onSaveData dlg =>
      dsimp only at hstep
      split at hstep
      · cases hstep
      · -- as when the question is answered with yes
        have hasks : s.Asks := ⟨h.unsaved rows hopened hrows, by simp [hopened]⟩
        have htry : s.trySaveUnsavedData (.yes dlg) = some (true, t) := by
          unfold trySaveUnsavedData
          rw [if_pos hasks]
          exact Option.map_eq_some_iff.2 ⟨t, hstep, rfl⟩
        exact hstays (holds_trySaveUnsavedData h hopened hrows hfiles htry)
    | onStartProfiling answer accepted tmp result =>
      dsimp only at hstep
      split at hstep
      · cases hstep
      · exact lost_onStartProfiling h hopened hrows hfiles hstep
    | onRunUnityApp answer accepted result => exact lost_onRunUnityApp h hopened hrows hfiles hstep
    | onStopProfiling =>
      dsimp only at hstep
      split at hstep
      · cases hstep
        exact hstays (.inl ⟨rows, hopened, List.prefix_rfl⟩)
      · cases hstep
    | received new =>
      dsimp only at hstep
      split at hstep
      · cases hstep
        refine hstays (.inl ⟨rows ++ new, ?_, List.prefix_append _ _⟩)
        rw [received, hopened]
      · cases hstep
    | closeEvent answer => exact lost_closeEvent h hopened hrows hfiles hstep

end Lost

/-- An application has run. -/
def recordedOnce : List (Action ℕ) :=
  [.onRunUnityApp .no true .ok, .received [1, 2], .onStopProfiling]

theorem lost_iff_saved :
    ∃ s t, Run.run MainWindow.step {} recordedOnce = some s ∧
      s.step (.onStartProfiling (.yes ⟨[97], true, .ok⟩) true [98] .ok) = some t ∧
        ¬Holds [1, 2] t := by
  let s : MainWindow ℕ := { opened := some (.unnamed [1, 2]), isDbTemporary := true }
  have hrun : Run.run MainWindow.step {} recordedOnce = some s := rfl
  obtain ⟨t, ht⟩ := Option.isSome_iff_exists.1
    (show (s.step (.onStartProfiling (.yes ⟨[97], true, .ok⟩) true [98] .ok)).isSome by decide)
  refine ⟨s, t, hrun, ht, ?_⟩
  have hfiles : ¬InFile [1, 2] s.files := by
    rintro ⟨name, kept, hlookup, -⟩
    cases hlookup
  exact (lost_iff hrun rfl (by decide) hfiles ht).2 ⟨rfl, .inr (.inl rfl)⟩

end MainWindow

end Owlcat
