import OwlcatMonoProfiler.Ui.LiveObjectsData
import OwlcatMonoProfiler.Library.Run
import OwlcatMonoProfiler.Library.Sorting

/-!
# The two lists of live objects

`live_objects_by_type_model` and `live_callstacks_by_type_model` of `live_objects_data.cpp`, and the
functions of `main_window.cpp` that fill them.  The live objects are computed by a thread of its
own; its end is announced to the thread of the window, which then takes over the result.

* `comparer`, `sort`: `std::sort` may give any sorted order of the rows;
* `ByTypeModel`, `CallstacksModel`: the models, and `shown` for the rows a filter leaves;
* `Action`, `step`: the requests of the user and the steps of the thread, in any order;
* `ShowsTypes`, `ShowsCallstacks`: what the lists should contain;
* `shows_of_run`: they do, whatever the user sorts, filters and selects.
-/

namespace Owlcat

open Grouping LiveObjectsData

namespace LiveLists

/-! ### Sorting -/

/-- `Qt::SortOrder` -/
inductive SortOrder
  | ascending
  | descending
  deriving DecidableEq

/-- The comparison of two keys. -/
def SortOrder.before {α : Type} [LT α] [DecidableLT α] (order : SortOrder) (a b : α) : Bool :=
  match order with
  | .ascending => a < b
  | .descending => b < a

section Rows

variable {ρ : Type} [DecidableEq ρ]

/-- The comparer of a column; the texts are compared by `strcmp`. -/
def comparer (text : ρ → List UInt8) (count size : ρ → UInt64) (column : ℤ) (order : SortOrder) :
    Option (ρ → ρ → Bool) :=
  match column with
  | 0 => some fun r q => order.before (text r) (text q)
  | 1 => some fun r q => order.before (count r) (count q)
  | 2 => some fun r q => order.before (size r) (size q)
  | _ => none

/-- Sort the rows into `outcome`.  Rows the comparer does not tell apart may end up in any order. -/
def sort (comparer : Option (ρ → ρ → Bool)) (rows outcome : List ρ) : Option (List ρ) :=
  match comparer with
  | none => some rows
  | some before =>
    if outcome.Perm rows ∧ outcome.Pairwise fun r q => before q r = false then some outcome
    else none

theorem perm_of_sort {comparer : Option (ρ → ρ → Bool)} {rows outcome rows' : List ρ}
    (h : sort comparer rows outcome = some rows') : rows'.Perm rows := by
  unfold sort at h
  split at h
  · cases h
    exact List.Perm.refl rows
  · split at h
    · next hsorted =>
      cases h
      exact hsorted.1
    · cases h

/-- The keys of a column are compared by a strict weak order, so that sorting has an outcome. -/
theorem exists_sort_key {κ : Type} [LE κ] [LT κ] [DecidableLE κ] [DecidableLT κ]
    [Std.IsLinearOrder κ] [Std.LawfulOrderLT κ] (key : ρ → κ) (order : SortOrder) (rows : List ρ) :
    ∃ outcome, sort (some fun r q => order.before (key r) (key q)) rows outcome =
      some outcome := by
  have := Sorting.isTrans_key key
  have := Sorting.total_key key
  have hsorted := List.pairwise_insertionSort (fun r q => key r ≤ key q) rows
  have hperm := List.perm_insertionSort (fun r q => key r ≤ key q) rows
  cases order with
  | ascending =>
    refine ⟨rows.insertionSort fun r q => key r ≤ key q, if_pos ⟨hperm, ?_⟩⟩
    exact hsorted.imp fun h => decide_eq_false (Std.not_lt.2 h)
  | descending =>
    refine ⟨(rows.insertionSort fun r q => key r ≤ key q).reverse,
      if_pos ⟨(List.reverse_perm _).trans hperm, ?_⟩⟩
    exact (List.pairwise_reverse.2 hsorted).imp fun h => decide_eq_false (Std.not_lt.2 h)

/-- Every column can be sorted. -/
theorem exists_sort (text : ρ → List UInt8) (count size : ρ → UInt64) (column : ℤ)
    (order : SortOrder) (rows : List ρ) :
    ∃ outcome rows', sort (comparer text count size column order) rows outcome = some rows' := by
  unfold comparer
  split
  · obtain ⟨outcome, h⟩ := exists_sort_key text order rows
    exact ⟨outcome, outcome, h⟩
  · obtain ⟨outcome, h⟩ := exists_sort_key count order rows
    exact ⟨outcome, outcome, h⟩
  · obtain ⟨outcome, h⟩ := exists_sort_key size order rows
    exact ⟨outcome, outcome, h⟩
  · exact ⟨rows, rows, rfl⟩

end Rows

/-! ### The models -/

/-- `live_objects_by_type_model::row_data` -/
structure TypeRow where
  type : UInt64
  count : UInt64
  size : UInt64
  deriving DecidableEq

/-- `live_objects_by_type_model` -/
structure ByTypeModel where
  rows : List TypeRow := []
  totalSize : UInt64 := 0

/-- `live_callstacks_by_type_model`; its rows have the fields of `callstack_data`. -/
structure CallstacksModel where
  rows : List CallstackData := []

namespace ByTypeModel

def sort (names : UInt64 → List UInt8) (m : ByTypeModel) (column : ℤ) (order : SortOrder)
    (outcome : List TypeRow) : Option ByTypeModel :=
  (LiveLists.sort (comparer (fun r => names r.type) TypeRow.count TypeRow.size column order) m.rows
    outcome).map fun rows => { m with rows := rows }

/-- The row of a type, and the size it adds to the total. -/
def pushType (m : ByTypeModel) (t : TypeData) : ByTypeModel :=
  { rows := m.rows ++ [⟨t.type, t.count, t.size⟩]
    totalSize := m.totalSize + t.size }

/-- `update`, after which the list is sorted by size. -/
def update (names : UInt64 → List UInt8) (types : List TypeData) (outcome : List TypeRow) :
    Option ByTypeModel :=
  if types.length = 0 then some {}
  else (types.foldl pushType {}).sort names 2 .descending outcome

end ByTypeModel

namespace CallstacksModel

def sort (callstacks : UInt64 → List UInt8) (m : CallstacksModel) (column : ℤ) (order : SortOrder)
    (outcome : List CallstackData) : Option CallstacksModel :=
  (LiveLists.sort (comparer (fun r => callstacks r.callstack) CallstackData.count
    CallstackData.size column order) m.rows outcome).map fun rows => { m with rows := rows }

/-- `update`: the callstacks of the first type with the given id. -/
def update (callstacks : UInt64 → List UInt8) (types : List TypeData) (type : UInt64)
    (outcome : List CallstackData) : Option CallstacksModel :=
  match types.find? fun t => t.type = type with
  | none => some {}
  | some t =>
    if t.callstacks.length = 0 then some {}
    else CallstacksModel.sort callstacks { rows := t.callstacks } 2 .descending outcome

end CallstacksModel

end LiveLists

/-! ### The window -/

/-- The thread of `calculateLiveObjects`: its window of frames, and whether it still runs.  When it
has come to its end the callback of its end is due. -/
structure LiveLists.Worker where
  fromFrame : Int32
  toFrame : Int32
  running : Bool := true
  deriving DecidableEq

/-- The part of `main_window` that is about live objects. -/
structure LiveLists where
  data : LiveObjectsData := { data := none }
  types : LiveLists.ByTypeModel := {}
  callstacks : LiveLists.CallstacksModel := {}
  worker : Option LiveLists.Worker := none
  enabled : Bool := true
  acceptsType : List UInt8 → Bool := fun _ => true
  acceptsCallstack : List UInt8 → Bool := fun _ => true

namespace LiveLists

def getTypeName (s : LiveLists) (typeId : UInt64) : List UInt8 :=
  s.data.data.elim [] fun data => data.getTypeName typeId

def getCallstack (s : LiveLists) (callstackId : UInt64) : List UInt8 :=
  s.data.data.elim [] fun data => data.getCallstack callstackId

/-- The rows of the list of types the filter leaves, which are those of the view. -/
def shownTypes (s : LiveLists) : List TypeRow :=
  s.types.rows.filter fun r => s.acceptsType (s.getTypeName r.type)

def shownCallstacks (s : LiveLists) : List CallstackData :=
  s.callstacks.rows.filter fun r => s.acceptsCallstack (s.getCallstack r.callstack)

/-- The loop of the thread; the frames are passed on as 64-bit integers. -/
def Worker.update (w : Worker) (data : LiveObjectsData) (progressFunc : ℕ → ℕ → Bool) :
    LiveObjectsData :=
  data.update w.fromFrame.toInt64.toUInt64 w.toFrame.toInt64.toUInt64 (some progressFunc)

/-- `QVariant::toInt` of a 64-bit integer, and back to 64 bits. -/
def toIntAndBack (value : UInt64) : UInt64 := (toInt value).toInt64.toUInt64

/-- What happens to the lists.  A list that is sorted comes with its outcome. -/
inductive Action
  /-- A window of frames is picked.  A thread that still runs is interrupted, which its callback
  finds out at some time or other. -/
  | calculateLiveObjects (fromFrame toFrame : Int32) (notInterrupted : ℕ → ℕ → Bool)
  /-- The thread comes to its end. -/
  | run
  /-- The callback of its end. -/
  | finished (outcome : List TypeRow)
  | sortTypes (column : ℤ) (order : SortOrder) (outcome : List TypeRow)
  | sortCallstacks (column : ℤ) (order : SortOrder) (outcome : List CallstackData)
  | onTypeFilterChanged (accepts : List UInt8 → Bool)
  | onCallstackFilterChanged (accepts : List UInt8 → Bool)
  /-- A row of the view is selected. -/
  | onLiveObjectTypeSelected (row : ℕ) (outcome : List CallstackData)
  /-- The data of the client: more of it is received, or another trace is opened. -/
  | init (data : Option Recorder)

def calculateLiveObjects (s : LiveLists) (fromFrame toFrame : Int32)
    (notInterrupted : ℕ → ℕ → Bool) : LiveLists :=
  let data :=
    match s.worker with
    | some w => if w.running then w.update s.data notInterrupted else s.data
    | none => s.data
  { s with
    data := data
    enabled := false
    worker := some { fromFrame := fromFrame, toFrame := toFrame } }

def runWorker (s : LiveLists) : Option LiveLists := do
  let w ← s.worker
  guard w.running
  some { s with
    data := w.update s.data fun _ _ => true
    worker := some { w with running := false } }

def finished (s : LiveLists) (outcome : List TypeRow) : Option LiveLists := do
  let w ← s.worker
  guard (w.running = false)
  let types ← ByTypeModel.update s.getTypeName s.data.types outcome
  some { s with
    types := types
    callstacks := {}
    enabled := true
    worker := none }

def onLiveObjectTypeSelected (s : LiveLists) (row : ℕ) (outcome : List CallstackData) :
    Option LiveLists := do
  guard s.enabled
  let currentIndex ← s.shownTypes[row]?
  let callstacks ← CallstacksModel.update s.getCallstack s.data.types
    (toIntAndBack currentIndex.type) outcome
  some { s with callstacks := callstacks }

/-- A disabled list takes no clicks; the filters are never disabled. -/
def step (s : LiveLists) : Action → Option LiveLists
  | .calculateLiveObjects fromFrame toFrame notInterrupted =>
    some (s.calculateLiveObjects fromFrame toFrame notInterrupted)
  | .run => s.runWorker
  | .finished outcome => s.finished outcome
  | .sortTypes column order outcome => do
    guard s.enabled
    let types ← s.types.sort s.getTypeName column order outcome
    some { s with types := types }
  | .sortCallstacks column order outcome => do
    guard s.enabled
    let callstacks ← s.callstacks.sort s.getCallstack column order outcome
    some { s with callstacks := callstacks }
  | .onTypeFilterChanged accepts => some { s with acceptsType := accepts }
  | .onCallstackFilterChanged accepts => some { s with acceptsCallstack := accepts }
  | .onLiveObjectTypeSelected row outcome => s.onLiveObjectTypeSelected row outcome
  | .init data => some { s with data := { s.data with data := data } }

/-- The addresses `onCallstackMenuAction` searches for. -/
def onCallstackMenuAction (s : LiveLists) (row : ℕ) : Option (List UInt64) :=
  s.shownCallstacks[row]?.map CallstackData.addresses

/-! ### What the lists should contain -/

/-- The row of a type. -/
def typeRowOf (objs : List LiveObject) (typeId : UInt64) : TypeRow :=
  { type := typeId
    count := UInt64.ofNat (withKey LiveObject.typeId typeId objs).length
    size := ((withKey LiveObject.typeId typeId objs).map LiveObject.size).sum }

/-- The list of types has one row for each type of the objects. -/
structure ShowsTypes (objs : List LiveObject) (m : ByTypeModel) : Prop where
  nodup : (m.rows.map TypeRow.type).Nodup
  mem_rows : ∀ r, r ∈ m.rows ↔ ∃ o ∈ objs, r = typeRowOf objs o.typeId
  total : m.totalSize = (objs.map LiveObject.size).sum

/-- The list of callstacks has one row for each callstack of the objects of a type. -/
structure ShowsCallstacks (objs : List LiveObject) (typeId : UInt64) (m : CallstacksModel) :
    Prop where
  nodup : (m.rows.map CallstackData.callstack).Nodup
  mem_rows : ∀ r, r ∈ m.rows ↔ ∃ o ∈ objs, o.typeId = typeId ∧
    r = callstackOf o.callstackId (ofGroup objs typeId o.callstackId)

/-! ### Filling the lists -/

variable {names : UInt64 → List UInt8}

theorem foldl_pushType (types : List TypeData) (m : ByTypeModel) :
    types.foldl ByTypeModel.pushType m =
      { rows := m.rows ++ types.map fun t => ⟨t.type, t.count, t.size⟩
        totalSize := m.totalSize + (types.map TypeData.size).sum } := by
  induction types generalizing m with
  | nil => simp
  | cons t types ih =>
    rw [List.foldl_cons, ih]
    simp [ByTypeModel.pushType, add_assoc]

/-- The sizes of the types add up to those of the objects. -/
theorem sum_size_types (objs : List LiveObject) :
    ((addObjects objs).types.map TypeData.size).sum = (objs.map LiveObject.size).sum := by
  rw [types_addObjects, List.map_map]
  exact sum_withKey LiveObject.typeId objs (nodup_eraseDups _)
    (fun o ho => List.mem_eraseDups.2 (List.mem_map_of_mem ho)) LiveObject.size

/-- The rows are those of the types, in some order, and the total is theirs. -/
theorem update_spec {types : List TypeData} {outcome : List TypeRow} {m : ByTypeModel}
    (h : ByTypeModel.update names types outcome = some m) :
    m.rows.Perm (types.map fun t => ⟨t.type, t.count, t.size⟩) ∧
      m.totalSize = (types.map TypeData.size).sum := by
  unfold ByTypeModel.update at h
  split at h
  · next hempty =>
    cases h
    rw [List.eq_nil_of_length_eq_zero hempty]
    exact ⟨List.Perm.refl _, rfl⟩
  · rw [foldl_pushType] at h
    obtain ⟨rows, hsort, rfl⟩ := Option.map_eq_some_iff.1 h
    refine ⟨?_, ?_⟩
    · simpa using perm_of_sort hsort
    · simp

theorem showsTypes_update {objs : List LiveObject} {outcome : List TypeRow} {m : ByTypeModel}
    (h : ByTypeModel.update names (addObjects objs).types outcome = some m) :
    ShowsTypes objs m := by
  obtain ⟨hperm, htotal⟩ := update_spec h
  constructor
  · refine (hperm.map TypeRow.type).nodup_iff.2 ?_
    rw [List.map_map, types_addObjects, List.map_map]
    exact (List.map_id _).symm ▸ nodup_eraseDups _
  · intro r
    rw [hperm.mem_iff, List.mem_map]
    constructor
    · rintro ⟨t, ht, rfl⟩
      obtain ⟨o, ho, rfl⟩ := mem_types.1 ht
      exact ⟨o, ho, rfl⟩
    · rintro ⟨o, ho, rfl⟩
      exact ⟨_, mem_types.2 ⟨o, ho, rfl⟩, rfl⟩
  · rw [htotal, sum_size_types]

/-- A list that is sorted again shows the same. -/
theorem ShowsTypes.sort {objs : List LiveObject} {m m' : ByTypeModel} {column : ℤ}
    {order : SortOrder} {outcome : List TypeRow} (h : ShowsTypes objs m)
    (hsort : m.sort names column order outcome = some m') : ShowsTypes objs m' := by
  obtain ⟨rows, hrows, rfl⟩ := Option.map_eq_some_iff.1 hsort
  have hperm := perm_of_sort hrows
  exact ⟨(hperm.map TypeRow.type).nodup_iff.2 h.nodup,
    fun r => hperm.mem_iff.trans (h.mem_rows r), h.total⟩

theorem ShowsCallstacks.perm {objs : List LiveObject} {typeId : UInt64} {m m' : CallstacksModel}
    (h : ShowsCallstacks objs typeId m) (hperm : m'.rows.Perm m.rows) :
    ShowsCallstacks objs typeId m' :=
  ⟨(hperm.map CallstackData.callstack).nodup_iff.2 h.nodup,
    fun r => hperm.mem_iff.trans (h.mem_rows r)⟩

theorem ShowsCallstacks.sort {objs : List LiveObject} {typeId : UInt64} {m m' : CallstacksModel}
    {column : ℤ} {order : SortOrder} {outcome : List CallstackData}
    (h : ShowsCallstacks objs typeId m) (hsort : m.sort names column order outcome = some m') :
    ShowsCallstacks objs typeId m' := by
  obtain ⟨rows, hrows, rfl⟩ := Option.map_eq_some_iff.1 hsort
  exact h.perm (perm_of_sort hrows)

/-- The callstacks of a group are those of the objects of its type. -/
theorem showsCallstacks_typeOf (objs : List LiveObject) (typeId : UInt64) :
    ShowsCallstacks objs typeId
      { rows := callstacksOf (withKey LiveObject.typeId typeId objs) } := by
  constructor
  · show ((callstacksOf _).map CallstackData.callstack).Nodup
    rw [callstacksOf_eq, List.map_map]
    exact (List.map_id _).symm ▸ nodup_eraseDups _
  · intro r
    rw [mem_callstacksOf]
    simp only [withKey_withKey, mem_withKey, and_assoc]

theorem showsCallstacks_update {objs : List LiveObject} {typeId : UInt64}
    {outcome : List CallstackData} {m : CallstacksModel}
    (h : CallstacksModel.update names (addObjects objs).types typeId outcome = some m) :
    ShowsCallstacks objs typeId m := by
  unfold CallstacksModel.update at h
  split at h
  · next hfind =>
    cases h
    have hnone : ∀ o ∈ objs, o.typeId ≠ typeId := fun o ho htype => by
      have hnot := List.find?_eq_none.1 hfind _ (mem_types.2 ⟨o, ho, rfl⟩)
      exact hnot (decide_eq_true htype)
    refine ⟨List.nodup_nil, fun r => ⟨fun hr => (List.not_mem_nil hr).elim, ?_⟩⟩
    rintro ⟨o, ho, htype, -⟩
    exact absurd htype (hnone o ho)
  · next t hfind =>
    obtain ⟨o, -, rfl⟩ := mem_types.1 (List.mem_of_find?_eq_some hfind)
    have htype : (typeOf o.typeId (withKey LiveObject.typeId o.typeId objs)).type = typeId := by
      simpa using List.find?_some hfind
    change o.typeId = typeId at htype
    have hshows := showsCallstacks_typeOf objs o.typeId
    rw [htype] at hshows h
    split at h
    · next hempty =>
      cases h
      have hnil : callstacksOf (withKey LiveObject.typeId typeId objs) = [] :=
        List.eq_nil_of_length_eq_zero hempty
      rw [hnil] at hshows
      exact hshows
    · exact hshows.sort h

/-! ### Runs -/

/-- The type whose callstacks are listed after an action. -/
def Action.selected (s : LiveLists) (typeId : Option UInt64) : Action → Option UInt64
  | .onLiveObjectTypeSelected row _ => s.shownTypes[row]?.map TypeRow.type
  | .finished _ => none
  | _ => typeId

/-- The type whose callstacks are listed after some actions: the one that was selected last. -/
def selected : LiveLists → Option UInt64 → List Action → Option UInt64
  | _, typeId, [] => typeId
  | s, typeId, a :: l =>
    match step s a with
    | none => typeId
    | some t => selected t (a.selected s typeId) l

/-- The list of callstacks for the type that was selected. -/
def ShowsSelected (objs : List LiveObject) (typeId : Option UInt64) (m : CallstacksModel) : Prop :=
  match typeId with
  | none => m.rows = []
  | some typeId => ShowsCallstacks objs typeId m

/-- Another window of frames is picked. -/
def Action.picks : Action → Bool
  | .calculateLiveObjects .. => true
  | _ => false

/-- The lists are enabled only while no thread is at work. -/
def Quiet (s : LiveLists) : Prop := s.enabled = true ↔ s.worker = none

theorem quiet_step {s t : LiveLists} {a : Action} (h : s.Quiet) (hstep : step s a = some t) :
    t.Quiet := by
  cases a with
  | calculateLiveObjects fromFrame toFrame notInterrupted =>
    cases hstep
    simp [Quiet, calculateLiveObjects]
  | run =>
    simp only [step, runWorker, Option.bind_eq_bind, Option.bind_eq_some_iff] at hstep
    obtain ⟨w, hw, _, -, hstep⟩ := hstep
    cases hstep
    simpa [Quiet, hw] using h
  | finished outcome =>
    simp only [step, finished, Option.bind_eq_bind, Option.bind_eq_some_iff] at hstep
    obtain ⟨w, -, _, -, types, -, hstep⟩ := hstep
    cases hstep
    simp [Quiet]
  | sortTypes column order outcome =>
    simp only [step, Option.bind_eq_bind, Option.bind_eq_some_iff] at hstep
    obtain ⟨_, -, types, -, hstep⟩ := hstep
    cases hstep
    exact h
  | sortCallstacks column order outcome =>
    simp only [step, Option.bind_eq_bind, Option.bind_eq_some_iff] at hstep
    obtain ⟨_, -, callstacks, -, hstep⟩ := hstep
    cases hstep
    exact h
  | onTypeFilterChanged accepts =>
    cases hstep
    exact h
  | onCallstackFilterChanged accepts =>
    cases hstep
    exact h
  | onLiveObjectTypeSelected row outcome =>
    simp only [step, onLiveObjectTypeSelected, Option.bind_eq_bind, Option.bind_eq_some_iff]
      at hstep
    obtain ⟨_, -, currentIndex, -, callstacks, -, hstep⟩ := hstep
    cases hstep
    exact h
  | init data =>
    cases hstep
    exact h

/-- A result that is due can be taken over. -/
theorem exists_finished {s : LiveLists} {w : Worker} (hworker : s.worker = some w)
    (hrunning : w.running = false) : ∃ outcome t, step s (.finished outcome) = some t ∧
      t.enabled = true := by
  have hupdate : ∃ outcome types,
      ByTypeModel.update s.getTypeName s.data.types outcome = some types := by
    unfold ByTypeModel.update
    split
    · exact ⟨[], {}, rfl⟩
    · obtain ⟨outcome, rows, hrows⟩ := exists_sort (fun r : TypeRow => s.getTypeName r.type)
        TypeRow.count TypeRow.size 2 .descending (s.data.types.foldl ByTypeModel.pushType {}).rows
      exact ⟨outcome, _, Option.map_eq_some_iff.2 ⟨rows, hrows, rfl⟩⟩
  obtain ⟨outcome, types, htypes⟩ := hupdate
  have hstep : step s (.finished outcome) = some
      { s with types := types, callstacks := {}, enabled := true, worker := none } := by
    simp [step, finished, hworker, hrunning, htypes]
  exact ⟨outcome, _, hstep, rfl⟩

/-- The lists do not stay disabled. -/
theorem enabled_again {s : LiveLists} (h : s.Quiet) :
    ∃ t, Run.Reachable step s t ∧ t.enabled = true := by
  cases hworker : s.worker with
  | none => exact ⟨s, ⟨[], rfl⟩, h.2 hworker⟩
  | some w =>
    cases hrunning : w.running with
    | false =>
      obtain ⟨outcome, t, ht, henabled⟩ := exists_finished hworker hrunning
      refine ⟨t, ⟨[.finished outcome], ?_⟩, henabled⟩
      rw [Run.run_cons, ht]
      rfl
    | true =>
      let u : LiveLists := { s with
        data := w.update s.data fun _ _ => true
        worker := some { w with running := false } }
      have hrun : step s .run = some u := by
        simp [step, runWorker, hworker, hrunning, u]
      obtain ⟨outcome, t, ht, henabled⟩ := exists_finished (s := u) rfl rfl
      refine ⟨t, ⟨[.run, .finished outcome], ?_⟩, henabled⟩
      rw [Run.run_cons, hrun, Option.bind_some, Run.run_cons, ht]
      rfl

/-- After the end of the thread: its result is there, and the lists are disabled until it is taken
over, which they show from then on. -/
structure Computed (objs : List LiveObject) (typeId : Option UInt64) (s : LiveLists) : Prop where
  types : s.data.types = (addObjects objs).types
  stopped : ∀ w ∈ s.worker, w.running = false
  quiet : s.Quiet
  shows : s.enabled = true → ShowsTypes objs s.types ∧ ShowsSelected objs typeId s.callstacks

theorem toIntAndBack_of_lt {value : UInt64} (h : value < 0x80000000) :
    toIntAndBack value = value := toUInt64_toInt h

theorem computed_step {objs : List LiveObject} {typeId : Option UInt64} {s t : LiveLists}
    {a : Action} (hid : ∀ o ∈ objs, o.typeId < 0x80000000) (h : Computed objs typeId s)
    (ha : a.picks = false) (hstep : step s a = some t) :
    Computed objs (a.selected s typeId) t := by
  have hquiet := quiet_step h.quiet hstep
  cases a with
  | calculateLiveObjects fromFrame toFrame notInterrupted => cases ha
  | run =>
    -- the thread has come to its end already
    simp only [step, runWorker, Option.bind_eq_bind, Option.bind_eq_some_iff] at hstep
    obtain ⟨w, hw, _, hguard, -⟩ := hstep
    simp [h.stopped w hw, guard, failure] at hguard
  | finished outcome =>
    simp only [step, finished, Option.bind_eq_bind, Option.bind_eq_some_iff] at hstep
    obtain ⟨w, -, _, -, types, htypes, hstep⟩ := hstep
    cases hstep
    rw [h.types] at htypes
    exact ⟨h.types, fun _ hw => (Option.not_mem_none _ hw).elim, hquiet,
      fun _ => ⟨showsTypes_update htypes, rfl⟩⟩
  | sortTypes column order outcome =>
    simp only [step, Option.bind_eq_bind, Option.bind_eq_some_iff] at hstep
    obtain ⟨_, -, types, htypes, hstep⟩ := hstep
    cases hstep
    refine ⟨h.types, h.stopped, hquiet, fun henabled => ?_⟩
    obtain ⟨hshows, hselected⟩ := h.shows henabled
    exact ⟨hshows.sort htypes, hselected⟩
  | sortCallstacks column order outcome =>
    simp only [step, Option.bind_eq_bind, Option.bind_eq_some_iff] at hstep
    obtain ⟨_, -, callstacks, hcallstacks, hstep⟩ := hstep
    cases hstep
    refine ⟨h.types, h.stopped, hquiet, fun henabled => ?_⟩
    obtain ⟨hshows, hselected⟩ := h.shows henabled
    refine ⟨hshows, ?_⟩
    cases typeId with
    | none =>
      obtain ⟨rows, hrows, rfl⟩ := Option.map_eq_some_iff.1 hcallstacks
      have hperm := perm_of_sort hrows
      rw [show s.callstacks.rows = [] from hselected] at hperm
      exact hperm.eq_nil
    | some typeId => exact ShowsCallstacks.sort hselected hcallstacks
  | onTypeFilterChanged accepts =>
    cases hstep
    exact ⟨h.types, h.stopped, hquiet, h.shows⟩
  | onCallstackFilterChanged accepts =>
    cases hstep
    exact ⟨h.types, h.stopped, hquiet, h.shows⟩
  | onLiveObjectTypeSelected row outcome =>
    simp only [step, onLiveObjectTypeSelected, Option.bind_eq_bind, Option.bind_eq_some_iff]
      at hstep
    obtain ⟨_, -, currentIndex, hrow, callstacks, hcallstacks, hstep⟩ := hstep
    cases hstep
    refine ⟨h.types, h.stopped, hquiet, fun henabled => ?_⟩
    obtain ⟨hshows, -⟩ := h.shows henabled
    have hmem : currentIndex ∈ s.types.rows :=
      (List.mem_filter.1 (List.mem_of_getElem? hrow)).1
    obtain ⟨o, ho, hcurrent⟩ := (hshows.mem_rows currentIndex).1 hmem
    have hlt : currentIndex.type < 0x80000000 := by
      rw [hcurrent]
      exact hid o ho
    rw [h.types, toIntAndBack_of_lt hlt] at hcallstacks
    refine ⟨hshows, ?_⟩
    rw [Action.selected, hrow]
    exact showsCallstacks_update hcallstacks
  | init data =>
    cases hstep
    exact ⟨h.types, h.stopped, hquiet, h.shows⟩

theorem computed_run {objs : List LiveObject} {typeId : Option UInt64} {s t : LiveLists}
    {l : List Action} (hid : ∀ o ∈ objs, o.typeId < 0x80000000) (h : Computed objs typeId s)
    (hl : ∀ a ∈ l, a.picks = false) (hrun : Run.run step s l = some t) :
    Computed objs (selected s typeId l) t := by
  induction l generalizing s typeId with
  | nil =>
    cases hrun
    exact h
  | cons a l ih =>
    obtain ⟨u, hu, hrun⟩ := Option.bind_eq_some_iff.1 hrun
    have hstep := computed_step hid h (hl a List.mem_cons_self) hu
    rw [selected, hu]
    exact ih hstep (fun b hb => hl b (List.mem_cons_of_mem _ hb)) hrun

/-- The objects the thread finds when it is not interrupted. -/
def Worker.objects (w : Worker) (data : Recorder) : List LiveObject :=
  data.getLiveObjects w.fromFrame w.toFrame (some fun _ _ => true)

/-- A frame is an `int` again after it was passed on as a 64-bit integer. -/
theorem toInt_toUInt64 (frame : Int32) : toInt frame.toInt64.toUInt64 = frame := by
  apply Int32.toBitVec_inj.1
  simp only [toInt, UInt32.toBitVec_toInt32, UInt64.toBitVec_toUInt32, Int64.toBitVec_toUInt64,
    Int32.toBitVec_toInt64]
  apply BitVec.eq_of_getLsbD_eq
  intro i hi
  simp [BitVec.getLsbD_signExtend, hi]
  intro h
  omega

/-- The state after the thread has come to its end. -/
theorem computed_runWorker {s t : LiveLists} {w : Worker} {data : Recorder} (hquiet : s.Quiet)
    (hworker : s.worker = some w) (hdata : s.data.data = some data)
    (hstep : step s .run = some t) : Computed (w.objects data) none t := by
  have hquiet' := quiet_step hquiet hstep
  simp only [step, runWorker, Option.bind_eq_bind, Option.bind_eq_some_iff] at hstep
  obtain ⟨w', hw, _, -, hstep⟩ := hstep
  rw [hworker] at hw
  cases hw
  cases hstep
  refine ⟨?_, fun w' hw' => ?_, hquiet', fun henabled => ?_⟩
  · rw [Worker.update, types_update s.data hdata, toInt_toUInt64, toInt_toUInt64]
    rfl
  · cases hw'
    rfl
  · exact absurd (hquiet'.1 henabled) (Option.some_ne_none _)

/-- **The lists show the live objects of the window that was picked last**, however they are sorted,
filtered and selected from since the thread has found them, and the addresses of a callstack are
those of the objects of its row and of the type that was selected last. -/
theorem shows_of_run {s t : LiveLists} {w : Worker} {data : Recorder} {before l : List Action}
    (hbefore : Run.run step {} before = some s) (hworker : s.worker = some w)
    (hdata : s.data.data = some data) (hid : ∀ o ∈ w.objects data, o.typeId < 0x80000000)
    (hl : ∀ a ∈ l, a.picks = false) (hrun : Run.run step s (.run :: l) = some t)
    (henabled : t.enabled = true) :
    ShowsTypes (w.objects data) t.types ∧
      ShowsSelected (w.objects data) (selected s none (.run :: l)) t.callstacks ∧
      ∀ row addresses, t.onCallstackMenuAction row = some addresses →
        ∃ typeId r, selected s none (.run :: l) = some typeId ∧
          t.shownCallstacks[row]? = some r ∧
          addresses = (ofGroup (w.objects data) typeId r.callstack).map LiveObject.addr := by
  have hquiet : s.Quiet := Run.run_invariant (P := fun _ _ => True)
    (fun _ _ _ h _ hstep => quiet_step h hstep) (by simp [Quiet])
    (Run.along_of_forall (fun _ _ => trivial) _ _) hbefore
  obtain ⟨u, hu, hrun⟩ := Option.bind_eq_some_iff.1 hrun
  have hcomputed := computed_run hid (computed_runWorker hquiet hworker hdata hu) hl hrun
  have hselected : selected s none (.run :: l) = selected u none l := by
    rw [selected, hu]
    rfl
  rw [hselected]
  obtain ⟨htypes, hcallstacks⟩ := hcomputed.shows henabled
  refine ⟨htypes, hcallstacks, fun row addresses hmenu => ?_⟩
  obtain ⟨r, hr, rfl⟩ := Option.map_eq_some_iff.1 hmenu
  have hmem : r ∈ t.callstacks.rows := (List.mem_filter.1 (List.mem_of_getElem? hr)).1
  cases hsel : selected u none l with
  | none =>
    rw [hsel] at hcallstacks
    rw [show t.callstacks.rows = [] from hcallstacks] at hmem
    cases hmem
  | some typeId =>
    rw [hsel] at hcallstacks
    obtain ⟨o, -, -, hrow⟩ := (ShowsCallstacks.mem_rows hcallstacks r).1 hmem
    refine ⟨typeId, r, rfl, hr, ?_⟩
    rw [hrow]
    rfl

/-- Three objects, two of them of one type. -/
def threeObjects : Recorder :=
  { db := some { db := { profilerEvents :=
      [⟨1, some 3, 16, 24, 1, some 5⟩, ⟨1, some 4, 32, 48, 1, some 5⟩,
        ⟨1, some 3, 64, 24, 2, some 6⟩] } } }

/-- They are listed, sorted by their number, and the second row is selected. -/
def listed : List Action :=
  [.finished [⟨3, 2, 48⟩, ⟨4, 1, 48⟩], .sortTypes 1 .ascending [⟨4, 1, 48⟩, ⟨3, 2, 48⟩],
    .onLiveObjectTypeSelected 1 [⟨6, 1, 24, [64]⟩, ⟨5, 1, 24, [16]⟩]]

theorem shows_of_run_sortedTwice :
    ∃ t, Run.run step {} ([.init (some threeObjects), .calculateLiveObjects 1 2 fun _ _ => true] ++
        .run :: listed) = some t ∧
      ShowsTypes (Worker.objects ⟨1, 2, true⟩ threeObjects) t.types ∧
      ShowsSelected (Worker.objects ⟨1, 2, true⟩ threeObjects) (some 3) t.callstacks := by
  let s : LiveLists := calculateLiveObjects { data := { data := some threeObjects } } 1 2
    fun _ _ => true
  have henabled : (Run.run step s (.run :: listed)).map LiveLists.enabled = some true := by
    decide +kernel
  have hselected : selected s none (.run :: listed) = some 3 := by decide +kernel
  obtain ⟨t, hrun, ht⟩ := Option.map_eq_some_iff.1 henabled
  have hbefore : Run.run step {} [.init (some threeObjects),
      .calculateLiveObjects 1 2 fun _ _ => true] = some s := rfl
  have h := shows_of_run hbefore rfl rfl (by decide +kernel) (by decide) hrun ht
  rw [hselected] at h
  exact ⟨t, hrun, h.1, h.2.1⟩

end LiveLists

end Owlcat
