import OwlcatMonoProfiler.Client.LiveObjects
import OwlcatMonoProfiler.Library.Sorting

/-!
# Live objects of a window

`get_live_objects` for an arbitrary stored history and an arbitrary window, which may cut the
lifetime of an object anywhere.

* `Database.history`: the stored events in the order of their frames;
* `TakesTurns`: the allocations and frees of each address alternate;
* `lastEvent`: the last event of an address inside a window;
* `lookup_replay`: the replay keeps an object for each address whose last event is an allocation;
* `getLiveObjects_window`: what the list contains.
-/

namespace Owlcat

/-- The stored events in the order of their frames, those of one frame as they were inserted. -/
def Database.history (db : Database) : List EventRow :=
  db.profilerEvents.insertionSort fun x y => x.frame ≤ y.frame

namespace EventRow

/-- Allocations have the type 1. -/
def isAlloc (row : EventRow) : Bool := getUint64 (some row.eventTypeId) = 1

/-- The address of the object. -/
def addr (row : EventRow) : UInt64 := getUint64 (some row.address)

/-- The object an allocation is about, with the data of that allocation. -/
def liveObject (row : EventRow) : LiveObject :=
  { addr := row.addr
    size := getUint64 (some row.size)
    frame := getUint64 (some row.frame)
    typeId := getUint64 row.typeId
    callstackId := getUint64 row.callstackId }

/-- The event lies between two frames. -/
def within (fromFrame toFrame : Int32) (row : EventRow) : Bool :=
  fromFrame.toInt64 ≤ row.frame && row.frame ≤ toFrame.toInt64

end EventRow

/-- The allocations and frees of each address take turns; either may come first. -/
def TakesTurns (rows : List EventRow) : Prop :=
  ∀ a, ((rows.filter fun row => row.addr = a).map EventRow.isAlloc).IsChain (· ≠ ·)

/-- The last event of an address between two frames. -/
def Database.lastEvent (db : Database) (fromFrame toFrame : Int32) (a : UInt64) :
    Option EventRow :=
  (db.history.filter fun row => row.within fromFrame toFrame && row.addr = a).getLast?

/-! ### The rows of a window -/

theorem TakesTurns.part {rows rows' : List EventRow} (h : TakesTurns rows)
    (hpart : rows' <:+: rows) : TakesTurns rows' :=
  fun a => List.IsChain.infix (h a) ((hpart.filter _).map _)

/-- The query returns the part of the history that lies in the window. -/
theorem Database.selectEvents_eq_history (db : Database) (fromFrame toFrame : Int32) :
    db.selectEvents fromFrame.toInt64.toUInt64 toFrame.toInt64.toUInt64 =
      db.history.filter (EventRow.within fromFrame toFrame) := by
  have := Sorting.isTrans_key EventRow.frame
  have := Sorting.total_key EventRow.frame
  rw [Database.history, Sorting.filter_insertionSort, Database.selectEvents]
  congr 1
  refine List.filter_congr fun row _ => ?_
  rw [EventRow.within, Bool.decide_and]
  rfl

/-- **A window of a history that takes turns takes turns.** -/
theorem TakesTurns.selectEvents {db : Database} (h : TakesTurns db.history)
    (fromFrame toFrame : Int32) :
    TakesTurns (db.selectEvents fromFrame.toInt64.toUInt64 toFrame.toInt64.toUInt64) := by
  have := Sorting.isTrans_key EventRow.frame
  have := Sorting.total_key EventRow.frame
  rw [Database.selectEvents_eq_history]
  refine h.part (Sorting.infix_window (r := fun x y => x.frame ≤ y.frame) ?_ ?_
    (List.pairwise_insertionSort _ _))
  · intro x y hxy hx
    exact decide_eq_true (Int64.le_trans (of_decide_eq_true hx) hxy)
  · intro x y hxy hy
    exact decide_eq_true (Int64.le_trans hxy (of_decide_eq_true hy))

/-! ### The replay -/

theorem replayRow_alloc {row : EventRow} (h : row.isAlloc) (m : Dict UInt64 LiveObject) :
    replayRow m row = m.emplace row.addr row.liveObject :=
  if_pos (of_decide_eq_true h)

theorem replayRow_free {row : EventRow} (h : row.isAlloc = false) (m : Dict UInt64 LiveObject) :
    replayRow m row = m.erase row.addr :=
  if_neg (of_decide_eq_false h)

/-- **The replay keeps an object for each address whose last event is an allocation.**  When an
allocation comes, its address is not in the map, so `emplace` takes the new object. -/
theorem lookup_replay {rows : List EventRow} (h : TakesTurns rows) (a : UInt64) :
    (rows.foldl replayRow ∅).lookup a =
      ((rows.filter fun row => row.addr = a).getLast?.filter EventRow.isAlloc).map
        EventRow.liveObject := by
  induction rows using List.reverseRecOn with
  | nil => rfl
  | append_singleton rows row ih =>
    have ih := ih (h.part (List.prefix_append rows [row]).isInfix)
    rw [List.foldl_append, List.foldl_cons, List.foldl_nil, List.filter_append]
    by_cases ha : row.addr = a
    · have hturn := h a
      rw [List.filter_append, List.filter_cons_of_pos (by simpa using ha), List.filter_nil,
        List.map_append, List.map_singleton, List.isChain_append] at hturn
      rw [List.filter_cons_of_pos (by simpa using ha), List.filter_nil, List.getLast?_concat]
      cases hrow : row.isAlloc with
      | false =>
        rw [replayRow_free hrow, ha, AList.lookup_erase]
        simp [hrow]
      | true =>
        -- the event before is a free, or there is none
        have hnone : (rows.foldl replayRow ∅).lookup a = none := by
          rw [ih]
          cases hlast : (rows.filter fun row => row.addr = a).getLast? with
          | none => rfl
          | some last =>
            have hne := hturn.2.2 last.isAlloc (by simp [hlast]) row.isAlloc rfl
            rw [hrow, ne_eq, Bool.not_eq_true] at hne
            simp [hne]
        rw [replayRow_alloc hrow, Dict.lookup_emplace, ha, if_pos rfl, hnone]
        simp [hrow]
    · rw [List.filter_cons_of_neg (by simpa using ha), List.filter_nil, List.append_nil, ← ih]
      cases hrow : row.isAlloc with
      | false => rw [replayRow_free hrow, AList.lookup_erase_ne (Ne.symm ha)]
      | true => rw [replayRow_alloc hrow, Dict.lookup_emplace, if_neg (Ne.symm ha)]

/-- A callback that cancels at one of the rows. -/
theorem replayRows_of_cancels {f : ℕ → ℕ → Bool} {n i rowNum : ℕ} (hcancel : f rowNum n = false)
    {rows : List EventRow} (hi : i ≤ rowNum) (hrows : rowNum < i + rows.length)
    (m : Dict UInt64 LiveObject) : replayRows (some f) n i m rows = none := by
  induction rows generalizing i m with
  | nil =>
    rw [List.length_nil] at hrows
    omega
  | cons row rows ih =>
    rw [replayRows]
    split_ifs with hpass
    · have hne : i ≠ rowNum := by
        rintro rfl
        rw [Option.all_some, hcancel] at hpass
        cases hpass
      rw [List.length_cons] at hrows
      exact ih (by omega) (by omega) _
    · rfl

/-! ### The list of objects -/

/-- What `get_live_objects` should return for a window. -/
structure LiveInWindow (db : Database) (fromFrame toFrame : Int32) (objects : List LiveObject) :
    Prop where
  nodup : (objects.map (·.addr)).Nodup
  mem_iff : ∀ o, o ∈ objects ↔ ∃ a row, db.lastEvent fromFrame toFrame a = some row ∧
    row.isAlloc ∧ o = row.liveObject

theorem Database.addr_of_lastEvent {db : Database} {fromFrame toFrame : Int32} {a : UInt64}
    {row : EventRow} (h : db.lastEvent fromFrame toFrame a = some row) : row.addr = a := by
  have hmem := (List.mem_filter.1 (List.mem_of_getLast? h)).2
  rw [Bool.and_eq_true] at hmem
  exact of_decide_eq_true hmem.2

/-- **The live objects of a window**: one object for each address whose last event in the window is
an allocation, with the data of that allocation; nothing if the callback cancels. -/
theorem getLiveObjects_window {d : Recorder} {st : Storage} (hdb : d.db = some st)
    (hturns : TakesTurns st.db.history) (fromFrame toFrame : Int32)
    (progressFunc : Option (ℕ → ℕ → Bool)) :
    (NeverCancels progressFunc →
      LiveInWindow st.db fromFrame toFrame (d.getLiveObjects fromFrame toFrame progressFunc)) ∧
    ∀ f ∈ progressFunc,
      ∀ rowNum < (st.db.history.filter (EventRow.within fromFrame toFrame)).length,
        f rowNum (st.db.history.filter (EventRow.within fromFrame toFrame)).length = false →
          d.getLiveObjects fromFrame toFrame progressFunc = [] := by
  have hrows := st.db.selectEvents_eq_history fromFrame toFrame
  have hcount : st.db.selectEventsCount fromFrame.toInt64.toUInt64 toFrame.toInt64.toUInt64 =
      (st.db.history.filter (EventRow.within fromFrame toFrame)).length := by
    rw [← hrows, Database.selectEvents, List.length_insertionSort]
    rfl
  constructor
  · intro hnever
    have hlookup := lookup_replay (hturns.selectEvents fromFrame toFrame)
    have hlast : ∀ a, ((st.db.selectEvents fromFrame.toInt64.toUInt64
        toFrame.toInt64.toUInt64).filter fun row => row.addr = a).getLast? =
        st.db.lastEvent fromFrame toFrame a := by
      intro a
      rw [hrows, List.filter_filter, Database.lastEvent]
      congr 1
      exact List.filter_congr fun row _ => Bool.and_comm _ _
    have hobjects : d.getLiveObjects fromFrame toFrame progressFunc = Dict.values
        ((st.db.selectEvents fromFrame.toInt64.toUInt64 toFrame.toInt64.toUInt64).foldl
          replayRow ∅) := by
      unfold Recorder.getLiveObjects
      simp only [hdb, replayRows_of_neverCancels hnever]
    rw [hobjects]
    generalize (st.db.selectEvents fromFrame.toInt64.toUInt64 toFrame.toInt64.toUInt64).foldl
      replayRow ∅ = m at hlookup
    simp only [hlast] at hlookup
    have hentry : ∀ a o, m.lookup a = some o ↔ ∃ row, st.db.lastEvent fromFrame toFrame a =
        some row ∧ row.isAlloc ∧ o = row.liveObject := by
      intro a o
      rw [hlookup, Option.map_eq_some_iff]
      constructor
      · rintro ⟨row, hrow, rfl⟩
        obtain ⟨hrow, halloc⟩ := Option.filter_eq_some_iff.1 hrow
        exact ⟨row, hrow, halloc, rfl⟩
      · rintro ⟨row, hrow, halloc, rfl⟩
        exact ⟨row, Option.filter_eq_some_iff.2 ⟨hrow, halloc⟩, rfl⟩
    constructor
    · -- every object is stored under its own address
      have hkeys : (Dict.values m).map (·.addr) = m.keys := by
        rw [Dict.values, List.map_map]
        refine List.map_congr_left fun e he => ?_
        obtain ⟨row, hrow, -, ho⟩ := (hentry e.1 e.2).1 (AList.mem_lookup_iff.2 he)
        rw [Function.comp_apply, ho]
        exact Database.addr_of_lastEvent hrow
      rw [hkeys]
      exact m.keys_nodup
    · intro o
      rw [Dict.mem_values]
      exact exists_congr fun a => hentry a o
  · rintro f hf rowNum hlt hcancel
    rw [Option.mem_def.1 hf]
    rw [← hcount] at hcancel
    rw [← hrows, ← Nat.zero_add (List.length _)] at hlt
    unfold Recorder.getLiveObjects
    simp only [hdb, replayRows_of_cancels hcancel (Nat.zero_le _) hlt]

/-- An address that is used twice, in a window that begins after its first allocation. -/
def reusedAddress : Database :=
  { profilerEvents := [⟨1, some 1, 16, 8, 0, some 1⟩, ⟨2, none, 16, 8, 1, none⟩,
      ⟨1, some 2, 16, 24, 2, some 1⟩] }

theorem getLiveObjects_window_reusedAddress :
    LiveInWindow reusedAddress 1 2
      (Recorder.getLiveObjects { db := some { db := reusedAddress } } 1 2 none) := by
  have hturns : TakesTurns reusedAddress.history := by
    intro a
    have hhistory : reusedAddress.history = reusedAddress.profilerEvents := by decide
    rw [hhistory]
    by_cases ha : (16 : UInt64) = a
    · subst ha
      decide
    · have hnone : reusedAddress.profilerEvents.filter (fun row => row.addr = a) = [] := by
        refine List.filter_eq_nil_iff.2 fun row hrow => ?_
        have haddr : ∀ row ∈ reusedAddress.profilerEvents, row.addr = 16 := by decide
        simpa [haddr row hrow] using ha
      rw [hnone]
      exact .nil
  exact (getLiveObjects_window (d := { db := some { db := reusedAddress } }) rfl hturns 1 2 none).1
    (fun _ h => (by cases h))

end Owlcat
