import OwlcatMonoProfiler.Client.Recording
import OwlcatMonoProfiler.Library.Sorting

/-!
# Statistics of a window

`get_stats` of `mono_profiler_client.cpp`: three vectors with one entry for each frame of a window,
read from a table that has rows for some of the frames only.

* `Database.selectStats`, `Database.selectLastGoodSize`: the queries;
* `StatsLoop.row`: the loop over the rows, with two of the loops that fill gaps;
* `Recorder.getStats`: the whole function.  `none` is the access to the back of an empty vector, or
  the loop whose 64-bit counter never exceeds its bounds;
* `Aligned`: what the vectors should contain;
* `Filled`: the vectors describe a range of frames from the first one on, kept by each loop;
* `getStats_aligned`: the entries of the result describe the frames of the window.
-/

namespace Owlcat

/-- A row of `FrameStats` with its key. -/
abbrev StatsEntry := Sigma fun _ : Int64 => StatsRow

namespace Database

/-- `select_last_good_size`: the size in the latest row up to a frame. -/
def selectLastGoodSize (fromFrame : UInt64) (db : Database) : Option Int64 :=
  ((db.frameStats.entries.filter fun e => e.1 ≤ (DbValue.uint64 fromFrame).bind).insertionSort
    fun x y => y.1 ≤ x.1).head?.map fun e => e.2.size

/-- `select_stats`: the rows of a window in the order of their frames. -/
def selectStats (fromFrame toFrame : UInt64) (db : Database) : List StatsEntry :=
  (db.frameStats.entries.filter fun e =>
    (DbValue.uint64 fromFrame).bind ≤ e.1 ∧ e.1 ≤ (DbValue.uint64 toFrame).bind).insertionSort
      fun x y => x.1 ≤ y.1

end Database

/-- What `get_stats` returns. -/
structure Stats where
  allocCounts : List UInt64 := []
  freeCounts : List UInt64 := []
  maxAllocs : UInt64 := 0
  maxFrees : UInt64 := 0
  sizePoints : List UInt64 := []
  maxSize : Int64 := 0

namespace Stats

/-- Compare the maxima with a row. -/
def raise (s : Stats) (allocs frees : UInt64) (size : Int64) : Stats :=
  { s with
    maxAllocs := if allocs > s.maxAllocs then allocs else s.maxAllocs
    maxFrees := if frees > s.maxFrees then frees else s.maxFrees
    maxSize := if size > s.maxSize then size else s.maxSize }

/-- Add one entry. -/
def push (s : Stats) (allocs frees size : UInt64) : Stats :=
  { s with
    allocCounts := s.allocCounts ++ [allocs]
    freeCounts := s.freeCounts ++ [frees]
    sizePoints := s.sizePoints ++ [size] }

/-- Add `n` entries for frames without events. -/
def fill (s : Stats) (n : ℕ) (size : UInt64) : Stats :=
  { s with
    allocCounts := s.allocCounts ++ List.replicate n 0
    freeCounts := s.freeCounts ++ List.replicate n 0
    sizePoints := s.sizePoints ++ List.replicate n size }

end Stats

/-- The variables of the loop over the rows. -/
structure StatsLoop extends Stats where
  prevFrame : UInt64
  firstFrame : Bool := true

/-- Fill the gap in front of a row.  `t` has the vectors so far. -/
def StatsLoop.fillGap (s : StatsLoop) (fromFrame lastKnownFrameSize frame : UInt64) (t : Stats) :
    Option Stats :=
  -- the first reported frame is greater than the first requested frame
  if s.firstFrame ∧ frame > s.prevFrame then
    some (t.fill (frame.toNat - fromFrame.toNat) lastKnownFrameSize)
  -- no events were reported in some frame
  else if frame > s.prevFrame + 1 then
    t.sizePoints.getLast?.map fun back => t.fill (frame.toNat - (s.prevFrame + 1).toNat) back
  else some t

/-- The loop of `get_stats`, for a row. -/
def StatsLoop.row (fromFrame lastKnownFrameSize : UInt64) (s : StatsLoop) (e : StatsEntry) :
    Option StatsLoop :=
  let frame := getUint64 (some e.1)
  let allocs := getUint64 (some e.2.allocs)
  let frees := getUint64 (some e.2.frees)
  let size := e.2.size
  (s.fillGap fromFrame lastKnownFrameSize frame (s.toStats.raise allocs frees size)).map fun t =>
    { t.push allocs frees (getUint64 (some size)) with prevFrame := frame, firstFrame := false }

/-- Fill gaps to the last requested frame, or to the last one there is. -/
def StatsLoop.fillEnd (s : StatsLoop) (toFrame maxFrame : UInt64) : Option Stats :=
  if s.prevFrame < toFrame then
    match s.sizePoints.getLast? with
    | none => some s.toStats
    | some back =>
      let last := min toFrame.toNat maxFrame.toNat
      if last = 2 ^ 64 - 1 then none
      else some (s.toStats.fill (last + 1 - (s.prevFrame + 1).toNat) back)
  else some s.toStats

/-- `get_stats` -/
def Recorder.getStats (d : Recorder) (fromFrame toFrame : UInt64) : Option Stats :=
  match d.db with
  | none => some {}
  | some st =>
    let lastKnownFrameSize := getUint64 (st.db.selectLastGoodSize fromFrame)
    ((st.db.selectStats fromFrame toFrame).foldlM (StatsLoop.row fromFrame lastKnownFrameSize)
      { prevFrame := fromFrame }).bind fun s => s.fillEnd toFrame d.maxFrame

/-! ### What the vectors should contain -/

/-- The size in the latest row before frame `f`, zero if there is none. -/
def LatestBefore (table : Dict Int64 StatsRow) (f : ℕ) (size : UInt64) : Prop :=
  (∃ k row, table.lookup k = some row ∧ k.toInt < f ∧
      (∀ k' ∈ table, k'.toInt < f → k'.toInt ≤ k.toInt) ∧ size = getUint64 (some row.size)) ∨
    (∀ k ∈ table, ¬k.toInt < f) ∧ size = 0

/-- The entries for frame `f`. -/
def DescribesFrame (table : Dict Int64 StatsRow) (f : ℕ) (allocs frees size : UInt64) : Prop :=
  match table.lookup (Int64.ofNat f) with
  | some row => allocs = getUint64 (some row.allocs) ∧ frees = getUint64 (some row.frees) ∧
      size = getUint64 (some row.size)
  | none => allocs = 0 ∧ frees = 0 ∧ LatestBefore table f size

/-- `m` is the maximum of a column over the rows between two frames. -/
def IsMaximum (table : Dict Int64 StatsRow) (first last : ℕ) (column : StatsRow → ℤ) (m : ℤ) :
    Prop :=
  (∀ k row, table.lookup k = some row → first ≤ k.toInt → k.toInt ≤ last → column row ≤ m) ∧
    ∃ k row, table.lookup k = some row ∧ first ≤ k.toInt ∧ k.toInt ≤ last ∧ column row = m

/-- The vectors describe the frames from `first` to `last`, and the maxima are those of the rows
from `first` to `toFrame`. -/
structure Aligned (table : Dict Int64 StatsRow) (first last toFrame : ℕ) (s : Stats) : Prop where
  allocCounts_length : s.allocCounts.length = last - first + 1
  freeCounts_length : s.freeCounts.length = last - first + 1
  sizePoints_length : s.sizePoints.length = last - first + 1
  entry : ∀ i allocs frees size, s.allocCounts[i]? = some allocs → s.freeCounts[i]? = some frees →
    s.sizePoints[i]? = some size → DescribesFrame table (first + i) allocs frees size
  maxAllocs : IsMaximum table first toFrame
    (fun row => (getUint64 (some row.allocs)).toNat) s.maxAllocs.toNat
  maxFrees : IsMaximum table first toFrame
    (fun row => (getUint64 (some row.frees)).toNat) s.maxFrees.toNat
  maxSize : IsMaximum table first toFrame (fun row => row.size.toInt) s.maxSize.toInt

/-! ### Frames as numbers -/

theorem toInt_bind_ofNat {f : ℕ} (hf : f < 2 ^ 63) :
    (DbValue.uint64 (UInt64.ofNat f)).bind.toInt = f := by
  rw [bind_uint64_ofNat]
  exact Int64.toInt_ofNat_of_lt hf

/-- What SQLite takes a frame for. -/
theorem toInt_ofNat_eq_ite (f : ℕ) : (Int64.ofNat f).toInt =
    if f % 2 ^ 64 < 2 ^ 63 then ((f % 2 ^ 64 : ℕ) : ℤ) else ((f % 2 ^ 64 : ℕ) : ℤ) - 2 ^ 64 := by
  have hsize : Int64.size = 2 ^ 64 := rfl
  rw [Int64.toInt_ofNat', Int.bmod_def, hsize]
  split_ifs <;> omega

/-- A stored frame in a range of numbers is one of them. -/
theorem eq_ofNat_of_toInt {k : Int64} (h0 : 0 ≤ k.toInt) :
    ∃ f : ℕ, k = Int64.ofNat f ∧ k.toInt = f := by
  obtain ⟨f, hf⟩ := Int.eq_ofNat_of_zero_le h0
  refine ⟨f, Int64.toInt_inj.1 ?_, hf⟩
  have hlt := Int64.toInt_lt k
  rw [Int64.toInt_ofNat_of_lt (by omega), hf]

/-! ### The last known size -/

section LastGoodSize

variable {db : Database}

/-- The row with the largest frame up to a bound is the one the query finds. -/
theorem selectLastGoodSize_of_latest {k : Int64} {row : StatsRow} {f : UInt64}
    (hrow : db.frameStats.lookup k = some row) (hk : k ≤ (DbValue.uint64 f).bind)
    (hlatest : ∀ k' ∈ db.frameStats, k' ≤ (DbValue.uint64 f).bind → k' ≤ k) :
    db.selectLastGoodSize f = some row.size := by
  have : IsTrans StatsEntry fun x y => y.1 ≤ x.1 := ⟨fun _ _ _ h h' => Int64.le_trans h' h⟩
  have : Std.Total (α := StatsEntry) fun x y => y.1 ≤ x.1 := ⟨fun x y => Int64.le_total y.1 x.1⟩
  have hmem : ∀ e : StatsEntry, e ∈ (db.frameStats.entries.filter fun e =>
      e.1 ≤ (DbValue.uint64 f).bind).insertionSort (fun x y => y.1 ≤ x.1) ↔
      db.frameStats.lookup e.1 = some e.2 ∧ e.1 ≤ (DbValue.uint64 f).bind := by
    intro e
    rw [List.mem_insertionSort, List.mem_filter, ← AList.mem_lookup_iff, decide_eq_true_iff]
    rfl
  have hsorted := List.pairwise_insertionSort (fun x y : StatsEntry => y.1 ≤ x.1)
    (db.frameStats.entries.filter fun e => e.1 ≤ (DbValue.uint64 f).bind)
  rw [Database.selectLastGoodSize]
  generalize (db.frameStats.entries.filter fun e =>
      e.1 ≤ (DbValue.uint64 f).bind).insertionSort (fun x y => y.1 ≤ x.1) = rows at hmem hsorted
  have hin : (⟨k, row⟩ : StatsEntry) ∈ rows := (hmem ⟨k, row⟩).2 ⟨hrow, hk⟩
  cases rows with
  | nil => cases hin
  | cons e rows =>
    obtain ⟨he, hbound⟩ := (hmem e).1 List.mem_cons_self
    have hle : k ≤ e.1 := by
      rcases List.mem_cons.1 hin with h | h
      · rw [← h]
        exact Int64.le_refl k
      · exact (List.pairwise_cons.1 hsorted).1 _ h
    have heq : e.1 = k :=
      Int64.le_antisymm (hlatest e.1 (Dict.mem_iff_lookup.2 ⟨_, he⟩) hbound) hle
    rw [heq, hrow, Option.some.injEq] at he
    rw [List.head?_cons, Option.map_some, he]

/-- Where no row comes in between, the last known size stays the same. -/
theorem selectLastGoodSize_congr {f g : UInt64}
    (h : ∀ k ∈ db.frameStats, k ≤ (DbValue.uint64 f).bind ↔ k ≤ (DbValue.uint64 g).bind) :
    db.selectLastGoodSize f = db.selectLastGoodSize g := by
  rw [Database.selectLastGoodSize, Database.selectLastGoodSize]
  congr 3
  refine List.filter_congr fun e he => decide_eq_decide.2 (h e.1 ?_)
  exact Dict.mem_iff_lookup.2 ⟨e.2, AList.mem_lookup_iff.2 he⟩

theorem selectLastGoodSize_eq_none {f : UInt64} :
    db.selectLastGoodSize f = none ↔ ∀ k ∈ db.frameStats, ¬k ≤ (DbValue.uint64 f).bind := by
  rw [Database.selectLastGoodSize, Option.map_eq_none_iff, List.head?_eq_none_iff,
    ← List.length_eq_zero_iff, List.length_insertionSort, List.length_eq_zero_iff,
    List.filter_eq_nil_iff]
  constructor
  · intro h k hk
    obtain ⟨row, hrow⟩ := Dict.mem_iff_lookup.1 hk
    simpa using h ⟨k, row⟩ (AList.mem_lookup_iff.1 hrow)
  · intro h e he
    simpa using h e.1 (Dict.mem_iff_lookup.2 ⟨e.2, AList.mem_lookup_iff.2 he⟩)

/-- Among finitely many rows up to a bound there is a latest one. -/
theorem exists_latest {p : Int64 → Prop} (h : ∃ k ∈ db.frameStats, p k) :
    ∃ k row, db.frameStats.lookup k = some row ∧ p k ∧
      ∀ k' ∈ db.frameStats, p k' → k'.toInt ≤ k.toInt := by
  classical
  obtain ⟨k₀, hk₀, hp₀⟩ := h
  obtain ⟨k, hk, hmax⟩ := Finset.exists_max_image (db.frameStats.keys.toFinset.filter p)
    Int64.toInt ⟨k₀, Finset.mem_filter.2 ⟨List.mem_toFinset.2 (AList.mem_keys.1 hk₀), hp₀⟩⟩
  obtain ⟨hkeys, hp⟩ := Finset.mem_filter.1 hk
  obtain ⟨row, hrow⟩ := Dict.mem_iff_lookup.1 (AList.mem_keys.2 (List.mem_toFinset.1 hkeys))
  refine ⟨k, row, hrow, hp, fun k' hk' hp' => hmax k' ?_⟩
  exact Finset.mem_filter.2 ⟨List.mem_toFinset.2 (AList.mem_keys.1 hk'), hp'⟩

/-- What the query finds: the latest row below a bound, if there is one. -/
theorem latest_or_none {f : UInt64} {g : ℤ}
    (hiff : ∀ k ∈ db.frameStats, k ≤ (DbValue.uint64 f).bind ↔ k.toInt < g) :
    (∃ k row, db.frameStats.lookup k = some row ∧ k.toInt < g ∧
      (∀ k' ∈ db.frameStats, k'.toInt < g → k'.toInt ≤ k.toInt) ∧
        getUint64 (db.selectLastGoodSize f) = getUint64 (some row.size)) ∨
    (∀ k ∈ db.frameStats, ¬k.toInt < g) ∧ getUint64 (db.selectLastGoodSize f) = 0 := by
  by_cases hex : ∃ k ∈ db.frameStats, k.toInt < g
  · obtain ⟨k, row, hrow, hlt, hmax⟩ := exists_latest hex
    have hmem : k ∈ db.frameStats := Dict.mem_iff_lookup.2 ⟨row, hrow⟩
    refine Or.inl ⟨k, row, hrow, hlt, hmax, ?_⟩
    rw [selectLastGoodSize_of_latest hrow ((hiff k hmem).2 hlt)]
    intro k' hk' hle
    exact Int64.le_iff_toInt_le.2 (hmax k' hk' ((hiff k' hk').1 hle))
  · have hnone : ∀ k ∈ db.frameStats, ¬k.toInt < g := fun k hk hlt => hex ⟨k, hk, hlt⟩
    refine Or.inr ⟨hnone, ?_⟩
    rw [selectLastGoodSize_eq_none.2 fun k hk hle => hnone k hk ((hiff k hk).1 hle)]
    rfl

end LastGoodSize

/-- The rows of a window, in the order SQLite compares frames; these are a primary key, so that no
two rows have the same. -/
theorem selectStats_spec (db : Database) (fromFrame toFrame : UInt64) :
    (db.selectStats fromFrame toFrame).Pairwise (fun x y => x.1.toInt < y.1.toInt) ∧
      ∀ e : StatsEntry, e ∈ db.selectStats fromFrame toFrame ↔
        db.frameStats.lookup e.1 = some e.2 ∧ (DbValue.uint64 fromFrame).bind.toInt ≤ e.1.toInt ∧
          e.1.toInt ≤ (DbValue.uint64 toFrame).bind.toInt := by
  have := Sorting.isTrans_key fun e : StatsEntry => e.1
  have := Sorting.total_key fun e : StatsEntry => e.1
  constructor
  · have hsorted := List.pairwise_insertionSort (fun x y : StatsEntry => x.1 ≤ y.1)
      (db.frameStats.entries.filter fun e => (DbValue.uint64 fromFrame).bind ≤ e.1 ∧
        e.1 ≤ (DbValue.uint64 toFrame).bind)
    have hkeys : (db.selectStats fromFrame toFrame).Pairwise fun x y => x.1 ≠ y.1 := by
      have hperm := (List.perm_insertionSort (fun x y : StatsEntry => x.1 ≤ y.1)
        (db.frameStats.entries.filter fun e => (DbValue.uint64 fromFrame).bind ≤ e.1 ∧
          e.1 ≤ (DbValue.uint64 toFrame).bind)).map Sigma.fst
      have hnodup := hperm.nodup_iff.2 (db.frameStats.keys_nodup.sublist
        (List.filter_sublist.map Sigma.fst))
      exact List.pairwise_map.1 hnodup
    refine (hsorted.and hkeys).imp fun {x y} hxy => ?_
    rw [← Int64.lt_iff_toInt_lt]
    exact Int64.lt_of_le_of_ne hxy.1 hxy.2
  · intro e
    rw [Database.selectStats, List.mem_insertionSort, List.mem_filter, decide_eq_true_iff,
      ← AList.mem_lookup_iff, Int64.le_iff_toInt_le, Int64.le_iff_toInt_le]
    rfl

/-! ### One entry for each frame -/

section Entries

variable (db : Database)

/-- A column of the row of a frame, zero without a row. -/
def columnAt (column : StatsRow → Int64) (f : ℕ) : UInt64 :=
  getUint64 ((db.frameStats.lookup (Int64.ofNat f)).map column)

/-- The last known size in a frame. -/
def sizeAt (f : ℕ) : UInt64 := getUint64 (db.selectLastGoodSize (UInt64.ofNat f))

/-- Nothing happens after frame `p` and before frame `f`: the size stays what it is in `p`. -/
def Quiet (p f : ℕ) : Prop :=
  ∀ g, p < g → g < f → columnAt db StatsRow.allocs g = 0 ∧ columnAt db StatsRow.frees g = 0 ∧
    sizeAt db g = sizeAt db p

variable {db}

theorem columnAt_of_lookup {column : StatsRow → Int64} {f : ℕ} {row : StatsRow}
    (h : db.frameStats.lookup (Int64.ofNat f) = some row) :
    columnAt db column f = getUint64 (some (column row)) := by
  rw [columnAt, h, Option.map_some]

theorem columnAt_of_noRow {column : StatsRow → Int64} {f : ℕ}
    (h : Int64.ofNat f ∉ db.frameStats) : columnAt db column f = 0 := by
  rw [columnAt, AList.lookup_eq_none.2 h]
  rfl

theorem sizeAt_of_lookup {f : ℕ} {row : StatsRow}
    (h : db.frameStats.lookup (Int64.ofNat f) = some row) :
    sizeAt db f = getUint64 (some row.size) := by
  have hbind : (DbValue.uint64 (UInt64.ofNat f)).bind = Int64.ofNat f := bind_uint64_ofNat f
  rw [sizeAt, selectLastGoodSize_of_latest h (hbind ▸ Int64.le_refl _)
    fun k' _ hk' => hbind ▸ hk']

/-- The last known size changes only in frames with a row.  Frames are numbered modulo `2 ^ 64`, and
SQLite takes them for signed numbers, so that the order breaks off at `2 ^ 63`. -/
theorem sizeAt_succ {f : ℕ} (hf : (f + 1) % 2 ^ 64 ≠ 2 ^ 63)
    (h : Int64.ofNat (f + 1) ∉ db.frameStats) : sizeAt db (f + 1) = sizeAt db f := by
  rw [sizeAt, sizeAt]
  congr 1
  refine selectLastGoodSize_congr fun k hk => ?_
  have hne : k.toInt ≠ (Int64.ofNat (f + 1)).toInt := fun heq => h (Int64.toInt_inj.1 heq ▸ hk)
  rw [bind_uint64_ofNat, bind_uint64_ofNat, Int64.le_iff_toInt_le, Int64.le_iff_toInt_le]
  rw [toInt_ofNat_eq_ite] at hne ⊢
  rw [toInt_ofNat_eq_ite]
  have hlo := Int64.le_toInt k
  have hhi := Int64.toInt_lt k
  split_ifs at hne ⊢ <;> omega

/-- Frames without a row are quiet. -/
theorem quiet_of_noRow {p f : ℕ} (hpage : f ≤ 2 ^ 63 ∨ 2 ^ 63 ≤ p ∧ f ≤ 2 ^ 64 + 2 ^ 63)
    (h : ∀ g, p < g → g < f → Int64.ofNat g ∉ db.frameStats) : Quiet db p f := by
  have hsize : ∀ n, p + n < f → sizeAt db (p + n) = sizeAt db p := by
    intro n
    induction n with
    | zero => exact fun _ => rfl
    | succ n ih =>
      intro hn
      rw [← Nat.add_assoc, sizeAt_succ (by omega) (h _ (by omega) (by omega)), ih (by omega)]
  intro g hpg hgf
  have hno := h g hpg hgf
  obtain ⟨n, rfl⟩ := Nat.exists_eq_add_of_le hpg.le
  exact ⟨columnAt_of_noRow hno, columnAt_of_noRow hno, hsize n hgf⟩

/-- The last known size in a frame without a row is that of the latest row before. -/
theorem latestBefore_sizeAt {f : ℕ} (hf : f < 2 ^ 63)
    (h : db.frameStats.lookup (Int64.ofNat f) = none) :
    LatestBefore db.frameStats f (sizeAt db f) := by
  apply latest_or_none
  intro k hk
  have hne : k.toInt ≠ f := by
    intro heq
    have hkf : k = Int64.ofNat f := by
      rw [← Int64.toInt_inj, heq, Int64.toInt_ofNat_of_lt hf]
    exact AList.lookup_eq_none.1 h (hkf ▸ hk)
  rw [Int64.le_iff_toInt_le, toInt_bind_ofNat hf]
  omega

theorem describesFrame {f : ℕ} (hf : f < 2 ^ 63) :
    DescribesFrame db.frameStats f (columnAt db StatsRow.allocs f) (columnAt db StatsRow.frees f)
      (sizeAt db f) := by
  unfold DescribesFrame
  cases hrow : db.frameStats.lookup (Int64.ofNat f) with
  | some row =>
    exact ⟨columnAt_of_lookup hrow, columnAt_of_lookup hrow, sizeAt_of_lookup hrow⟩
  | none =>
    refine ⟨?_, ?_, latestBefore_sizeAt hf hrow⟩
    · rw [columnAt, hrow]
      rfl
    · rw [columnAt, hrow]
      rfl

end Entries

/-! ### The loops -/

/-- The vectors describe `n` frames, the first of which is `first`. -/
structure Filled (db : Database) (first n : ℕ) (s : Stats) : Prop where
  allocCounts : s.allocCounts =
    (List.range n).map fun i => columnAt db StatsRow.allocs (first + i)
  freeCounts : s.freeCounts = (List.range n).map fun i => columnAt db StatsRow.frees (first + i)
  sizePoints : s.sizePoints = (List.range n).map fun i => sizeAt db (first + i)

namespace Filled

variable {db : Database} {first n : ℕ} {s : Stats}

theorem raise (h : Filled db first n s) (allocs frees : UInt64) (size : Int64) :
    Filled db first n (s.raise allocs frees size) :=
  ⟨h.allocCounts, h.freeCounts, h.sizePoints⟩

theorem push (h : Filled db first n s) {allocs frees size : UInt64}
    (hallocs : columnAt db StatsRow.allocs (first + n) = allocs)
    (hfrees : columnAt db StatsRow.frees (first + n) = frees)
    (hsize : sizeAt db (first + n) = size) :
    Filled db first (n + 1) (s.push allocs frees size) := by
  constructor
  · rw [Stats.push, List.range_succ, List.map_append, h.allocCounts, List.map_singleton, hallocs]
  · rw [Stats.push, List.range_succ, List.map_append, h.freeCounts, List.map_singleton, hfrees]
  · rw [Stats.push, List.range_succ, List.map_append, h.sizePoints, List.map_singleton, hsize]

theorem map_range_add {f : ℕ → UInt64} {c : UInt64} {n k : ℕ}
    (h : ∀ i, n ≤ i → i < n + k → f i = c) :
    (List.range n).map f ++ List.replicate k c = (List.range (n + k)).map f := by
  rw [List.range_add, List.map_append, List.append_cancel_left_eq, eq_comm,
    List.eq_replicate_iff, List.length_map, List.length_map, List.length_range]
  refine ⟨rfl, fun b hb => ?_⟩
  obtain ⟨i, hi, rfl⟩ := List.mem_map.1 hb
  obtain ⟨j, hj, rfl⟩ := List.mem_map.1 hi
  rw [List.mem_range] at hj
  exact h (n + j) (by omega) (by omega)

/-- Frames without a row are filled with the size known before. -/
theorem fill (h : Filled db first n s) (k : ℕ) (size : UInt64)
    (hfill : ∀ f, first + n ≤ f → f < first + n + k → columnAt db StatsRow.allocs f = 0 ∧
      columnAt db StatsRow.frees f = 0 ∧ sizeAt db f = size) :
    Filled db first (n + k) (s.fill k size) := by
  constructor
  · rw [Stats.fill, h.allocCounts]
    exact map_range_add fun i hi hik => (hfill (first + i) (by omega) (by omega)).1
  · rw [Stats.fill, h.freeCounts]
    exact map_range_add fun i hi hik => (hfill (first + i) (by omega) (by omega)).2.1
  · rw [Stats.fill, h.sizePoints]
    exact map_range_add fun i hi hik => (hfill (first + i) (by omega) (by omega)).2.2

/-- The last size is that of the last frame. -/
theorem getLast? (h : Filled db first (n + 1) s) :
    s.sizePoints.getLast? = some (sizeAt db (first + n)) := by
  rw [h.sizePoints, List.range_succ, List.map_append, List.map_singleton, List.getLast?_concat]

end Filled

/-- The loop has described `n` frames. -/
structure Reached (db : Database) (first n : ℕ) (s : StatsLoop) : Prop where
  filled : Filled db first n s.toStats
  firstFrame : s.firstFrame = decide (n = 0)
  prevFrame : s.prevFrame = UInt64.ofNat (first + (n - 1))

/-- All frames of a range are in the same half of the 64-bit numbers. -/
def OneHalf (first last : ℕ) : Prop := last < 2 ^ 63 ∨ 2 ^ 63 ≤ first ∧ last < 2 ^ 64

/-- The gap before a row: its frames have no row, and the size of the frame before them. -/
theorem Filled.gap {db : Database} {first n f : ℕ} {s : Stats} (h : Filled db first n s)
    (hle : first + n ≤ f) (hhalf : OneHalf first f)
    (hgap : ∀ g, first + n ≤ g → g < f → Int64.ofNat g ∉ db.frameStats) :
    Filled db first (f - first)
      (s.fill (f - (first + n)) (sizeAt db (first + (n - 1)))) := by
  have hquiet : Quiet db (first + (n - 1)) f :=
    quiet_of_noRow (by unfold OneHalf at hhalf; omega) fun g hg hgf => hgap g (by omega) hgf
  have hfill := h.fill (f - (first + n)) (sizeAt db (first + (n - 1))) fun g hg hgf => by
    rcases Nat.eq_or_lt_of_le (show first + (n - 1) ≤ g by omega) with heq | hlt
    · -- without entries so far, the gap begins with the first frame
      have hno := hgap g hg (by omega)
      exact ⟨columnAt_of_noRow hno, columnAt_of_noRow hno, by rw [heq]⟩
    · exact hquiet g hlt (by omega)
  rwa [show n + (f - (first + n)) = f - first by omega] at hfill

theorem ofNat_lt_ofNat {f g : ℕ} (hf : f < 2 ^ 64) (hg : g < 2 ^ 64) :
    UInt64.ofNat f < UInt64.ofNat g ↔ f < g := by
  rw [UInt64.lt_iff_toNat_lt, UInt64.toNat_ofNat_of_lt' hf, UInt64.toNat_ofNat_of_lt' hg]

/-- The loops in front of a row fill the gap. -/
theorem Reached.fillGap {db : Database} {first n f : ℕ} {s : StatsLoop} (h : Reached db first n s)
    {t : Stats} (ht : Filled db first n t) (hle : first + n ≤ f) (hf : f < 2 ^ 64)
    (hfirst : first + 1 < 2 ^ 64) :
    s.fillGap (UInt64.ofNat first) (sizeAt db first) (UInt64.ofNat f) t =
      some (t.fill (f - (first + n)) (sizeAt db (first + (n - 1)))) := by
  -- a gap of no frames is filled by doing nothing
  have hnogap : f = first + n → t.fill (f - (first + n)) (sizeAt db (first + (n - 1))) = t := by
    rintro rfl
    simp [Stats.fill]
  have hlt : UInt64.ofNat f > s.prevFrame ↔ first + (n - 1) < f := by
    rw [h.prevFrame]
    exact ofNat_lt_ofNat (by omega) hf
  have hsucc : s.prevFrame + 1 = UInt64.ofNat (first + (n - 1) + 1) := by
    rw [h.prevFrame, UInt64.ofNat_add (first + (n - 1)) 1]
    rfl
  have hlt' : UInt64.ofNat f > s.prevFrame + 1 ↔ first + (n - 1) + 1 < f := by
    rw [hsucc]
    exact ofNat_lt_ofNat (by omega) hf
  simp only [StatsLoop.fillGap, h.firstFrame, hlt, hlt']
  rw [hsucc, UInt64.toNat_ofNat_of_lt' hf, UInt64.toNat_ofNat_of_lt' (by omega : first < 2 ^ 64),
    UInt64.toNat_ofNat_of_lt' (by omega : first + (n - 1) + 1 < 2 ^ 64)]
  rcases Nat.eq_zero_or_pos n with rfl | hn
  · split_ifs with h1 h2
    · rfl
    · simp only [decide_true, true_and] at h1
      omega
    · simp only [decide_true, true_and] at h1
      rw [hnogap (by omega)]
  · obtain ⟨m, rfl⟩ : ∃ m, n = m + 1 := ⟨n - 1, by omega⟩
    rw [ht.getLast?, if_neg (by simp)]
    split_ifs with h2
    · rfl
    · rw [hnogap (by omega)]

theorem getUint64_ofNat (f : ℕ) : getUint64 (some (Int64.ofNat f)) = UInt64.ofNat f := by
  rw [← bind_uint64_ofNat, getUint64_bind]

/-- **One row**: the gap before it is filled, and its own frame described. -/
theorem Reached.row {db : Database} {first n f : ℕ} {s : StatsLoop} {row : StatsRow}
    (h : Reached db first n s) (hle : first + n ≤ f) (hhalf : OneHalf first f)
    (hfirst : first + 1 < 2 ^ 64)
    (hrow : db.frameStats.lookup (Int64.ofNat f) = some row)
    (hgap : ∀ g, first + n ≤ g → g < f → Int64.ofNat g ∉ db.frameStats) :
    ∃ s', s.row (UInt64.ofNat first) (sizeAt db first) ⟨Int64.ofNat f, row⟩ = some s' ∧
      Reached db first (f - first + 1) s' := by
  have hf : f < 2 ^ 64 := by unfold OneHalf at hhalf; omega
  have hraised := h.filled.raise (getUint64 (some row.allocs)) (getUint64 (some row.frees)) row.size
  refine ⟨_, by rw [StatsLoop.row, getUint64_ofNat, h.fillGap hraised hle hf hfirst]; rfl,
    ?_, ?_, ?_⟩
  · have hf' : first + (f - first) = f := by omega
    refine (hraised.gap hle hhalf hgap).push ?_ ?_ ?_
    · rw [hf', columnAt_of_lookup hrow]
    · rw [hf', columnAt_of_lookup hrow]
    · rw [hf', sizeAt_of_lookup hrow]
  · simp
  · rw [show first + (f - first + 1 - 1) = f by omega]

/-- The rows that are left: those of the table from a frame on up to the last one, in order. -/
structure RowsFrom (db : Database) (start last : ℕ) (rows : List StatsEntry) : Prop where
  sorted : rows.Pairwise fun x y => x.1.toInt < y.1.toInt
  mem_iff : ∀ e : StatsEntry, e ∈ rows ↔
    db.frameStats.lookup e.1 = some e.2 ∧ start ≤ e.1.toInt ∧ e.1.toInt ≤ last

/-- The same for frames that are stored with an offset: 0, or `2 ^ 64` for negative numbers. -/
structure RowsAt (offset : ℕ) (db : Database) (start last : ℕ) (rows : List StatsEntry) : Prop where
  sorted : rows.Pairwise fun x y => x.1.toInt < y.1.toInt
  mem_iff : ∀ e : StatsEntry, e ∈ rows ↔
    db.frameStats.lookup e.1 = some e.2 ∧ start ≤ e.1.toInt + offset ∧ e.1.toInt + offset ≤ last

theorem RowsFrom.rowsAt {db : Database} {start last : ℕ} {rows : List StatsEntry}
    (h : RowsFrom db start last rows) : RowsAt 0 db start last rows :=
  ⟨h.sorted, fun e => by simpa using h.mem_iff e⟩

/-- The frames from `start` to `last` are stored as numbers with this offset. -/
def StoredAt (offset start last : ℕ) : Prop :=
  offset = 0 ∧ last < 2 ^ 63 ∨ offset = 2 ^ 64 ∧ 2 ^ 63 ≤ start ∧ last < 2 ^ 64 + 2 ^ 63

theorem StoredAt.toInt_ofNat {offset start last f : ℕ} (h : StoredAt offset start last)
    (hstart : start ≤ f) (hlast : f ≤ last) : (Int64.ofNat f).toInt + offset = f := by
  unfold StoredAt at h
  rw [toInt_ofNat_eq_ite]
  split_ifs <;> omega

theorem StoredAt.eq_ofNat {offset start last : ℕ} (h : StoredAt offset start last) {k : Int64}
    (hstart : start ≤ k.toInt + offset) (hlast : k.toInt + offset ≤ last) :
    ∃ f : ℕ, k = Int64.ofNat f ∧ k.toInt + offset = f := by
  obtain ⟨f, hf⟩ := Int.eq_ofNat_of_zero_le (show 0 ≤ k.toInt + offset by omega)
  refine ⟨f, Int64.toInt_inj.1 ?_, hf⟩
  have := h.toInt_ofNat (f := f) (by omega) (by omega)
  omega

/-- The row of a frame is among the rows. -/
theorem RowsAt.mem {offset : ℕ} {db : Database} {first start last f : ℕ} {rows : List StatsEntry}
    (h : RowsAt offset db start last rows) (hat : StoredAt offset first last) (hfirst : first ≤ f)
    (hf : start ≤ f) (hf' : f ≤ last) {row : StatsRow}
    (hrow : db.frameStats.lookup (Int64.ofNat f) = some row) : ⟨Int64.ofNat f, row⟩ ∈ rows := by
  have hint := hat.toInt_ofNat hfirst hf'
  apply (h.mem_iff ⟨Int64.ofNat f, row⟩).2
  exact ⟨hrow, by simp only; omega, by simp only; omega⟩

/-- When no rows are left, none of the frames has one. -/
theorem RowsAt.notMem {offset : ℕ} {db : Database} {first start last f : ℕ}
    (h : RowsAt offset db start last []) (hat : StoredAt offset first last) (hfirst : first ≤ f)
    (hf : start ≤ f) (hf' : f ≤ last) : Int64.ofNat f ∉ db.frameStats := by
  intro hmem
  obtain ⟨row, hrow⟩ := Dict.mem_iff_lookup.1 hmem
  cases h.mem hat hfirst hf hf' hrow

/-- The first of the rows: the frames before it have none, and the rest follows. -/
theorem RowsAt.cons {offset : ℕ} {db : Database} {start last : ℕ} {e : StatsEntry}
    {rows : List StatsEntry} (h : RowsAt offset db start last (e :: rows))
    (hat : StoredAt offset start last) :
    ∃ f row, e = ⟨Int64.ofNat f, row⟩ ∧ db.frameStats.lookup (Int64.ofNat f) = some row ∧
      start ≤ f ∧ f ≤ last ∧ (∀ g, start ≤ g → g < f → Int64.ofNat g ∉ db.frameStats) ∧
      RowsAt offset db (f + 1) last rows := by
  obtain ⟨hlookup, hstart, hlast⟩ := (h.mem_iff e).1 List.mem_cons_self
  obtain ⟨hfirst, hsorted⟩ := List.pairwise_cons.1 h.sorted
  obtain ⟨k, row⟩ := e
  simp only at hlookup hstart hlast hfirst
  obtain ⟨f, rfl, hf⟩ := hat.eq_ofNat hstart hlast
  refine ⟨f, row, rfl, hlookup, by omega, by omega, fun g hg hgf hmem => ?_, hsorted,
    fun e => ?_⟩
  · obtain ⟨row', hrow'⟩ := Dict.mem_iff_lookup.1 hmem
    have hgint := hat.toInt_ofNat hg (by omega)
    rcases List.mem_cons.1 (h.mem hat hg hg (by omega) hrow') with heq | hmem
    · rw [(Sigma.mk.inj heq).1] at hgint
      omega
    · have := hfirst _ hmem
      simp only at this
      omega
  · have hmem := h.mem_iff e
    constructor
    · intro he
      have hlt := hfirst e he
      obtain ⟨h1, h2, h3⟩ := hmem.1 (List.mem_cons_of_mem _ he)
      exact ⟨h1, by omega, h3⟩
    · rintro ⟨h1, h2, h3⟩
      rcases List.mem_cons.1 (hmem.2 ⟨h1, by omega, h3⟩) with rfl | he
      · simp only at h2
        omega
      · exact he

theorem StoredAt.oneHalf {offset start last f : ℕ} (h : StoredAt offset start last)
    (hlast : last < 2 ^ 64) (hf : f ≤ last) : OneHalf start f := by
  unfold StoredAt at h
  unfold OneHalf
  omega

theorem StoredAt.mono {offset start start' last : ℕ} (h : StoredAt offset start last)
    (hle : start ≤ start') : StoredAt offset start' last := by
  unfold StoredAt at h ⊢
  omega

/-- Where no rows are left, nothing happens any more. -/
theorem RowsAt.quiet {offset : ℕ} {db : Database} {first n last : ℕ}
    (h : RowsAt offset db (first + n) last []) (hat : StoredAt offset first last) (hn : 0 < n) :
    Quiet db (first + (n - 1)) (last + 1) := by
  apply quiet_of_noRow
  · unfold StoredAt at hat
    omega
  · intro g hg hgl
    exact h.notMem hat (by omega) (by omega) (by omega)

/-- **The loop over the rows** describes the frames up to that of the last row. -/
theorem Reached.rows {offset : ℕ} {db : Database} {first n last : ℕ} {s : StatsLoop}
    {rows : List StatsEntry} (h : Reached db first n s)
    (hrows : RowsAt offset db (first + n) last rows) (hat : StoredAt offset first last)
    (hfirst : first + 1 < 2 ^ 64) (hlast : last < 2 ^ 64) (hn : 0 < n → first + n ≤ last + 1) :
    ∃ s' n', rows.foldlM (StatsLoop.row (UInt64.ofNat first) (sizeAt db first)) s = some s' ∧
      Reached db first n' s' ∧ RowsAt offset db (first + n') last [] ∧
      (0 < n' → first + n' ≤ last + 1) ∧
      (rows = [] ∧ n' = n ∨ 0 < n' ∧ Int64.ofNat (first + (n' - 1)) ∈ db.frameStats) := by
  induction rows generalizing s n with
  | nil => exact ⟨s, n, rfl, h, hrows, hn, Or.inl ⟨rfl, rfl⟩⟩
  | cons e rows ih =>
    obtain ⟨f, row, rfl, hlookup, hstart, hle, hgap, htail⟩ :=
      hrows.cons (hat.mono (Nat.le_add_right first n))
    obtain ⟨s', hs', hreached⟩ := h.row hstart (hat.oneHalf hlast hle) hfirst hlookup hgap
    rw [show f + 1 = first + (f - first + 1) by omega] at htail
    obtain ⟨s'', n'', hfold, hreached', hnil, hle', hlastRow⟩ := ih hreached htail fun _ => by omega
    refine ⟨s'', n'', ?_, hreached', hnil, hle', Or.inr ?_⟩
    · rw [List.foldlM_cons, hs']
      exact hfold
    · rcases hlastRow with ⟨-, rfl⟩ | hlastRow
      · rw [show first + (f - first + 1 - 1) = f by omega]
        exact ⟨by omega, Dict.mem_iff_lookup.2 ⟨row, hlookup⟩⟩
      · exact hlastRow

/-- The rows the query returns. -/
theorem rowsFrom_selectStats {db : Database} {first last : ℕ} (hfirst : first < 2 ^ 63)
    (hlast : last < 2 ^ 63) :
    RowsFrom db first last (db.selectStats (UInt64.ofNat first) (UInt64.ofNat last)) := by
  obtain ⟨hsorted, hmem⟩ := selectStats_spec db (UInt64.ofNat first) (UInt64.ofNat last)
  refine ⟨hsorted, fun e => ?_⟩
  rw [hmem, toInt_bind_ofNat hfirst, toInt_bind_ofNat hlast]

/-- **The last loop** describes the frames up to the end of the window or of the trace. -/
theorem Reached.fillEnd {db : Database} {first n : ℕ} {s : StatsLoop}
    (h : Reached db first n s) (toFrame maxFrame : UInt64) (hn : 0 < n) (hlast : first + n ≤ 2 ^ 64)
    (hends : first + n ≤ toFrame.toNat → min toFrame.toNat maxFrame.toNat + 1 < 2 ^ 64)
    (hquiet : Quiet db (first + (n - 1)) (min toFrame.toNat maxFrame.toNat + 1)) :
    ∃ t, s.fillEnd toFrame maxFrame = some t ∧
      Filled db first (max n (min toFrame.toNat maxFrame.toNat + 1 - first)) t ∧
      t.maxAllocs = s.maxAllocs ∧ t.maxFrees = s.maxFrees ∧ t.maxSize = s.maxSize := by
  obtain ⟨m, rfl⟩ : ∃ m, n = m + 1 := ⟨n - 1, by omega⟩
  have hback := h.filled.getLast?
  have hprev : s.prevFrame = UInt64.ofNat (first + m) := h.prevFrame
  have hprev' : s.prevFrame.toNat = first + m := by
    rw [hprev]
    exact UInt64.toNat_ofNat_of_lt' (show first + m < 2 ^ 64 by omega)
  unfold StatsLoop.fillEnd
  split_ifs with hlt
  · rw [UInt64.lt_iff_toNat_lt, hprev'] at hlt
    have hlt64 := hends (by omega)
    rw [hback]
    have hsucc : (s.prevFrame + 1).toNat = first + (m + 1) := by
      have hto := UInt64.toNat_lt toFrame
      rw [UInt64.toNat_add, hprev', UInt64.toNat_one]
      exact Nat.mod_eq_of_lt (by omega)
    simp only [hsucc]
    rw [if_neg (by omega)]
    refine ⟨_, rfl, ?_, rfl, rfl, rfl⟩
    have hfill := h.filled.fill (min toFrame.toNat maxFrame.toNat + 1 - (first + (m + 1)))
      (sizeAt db (first + m)) fun f hf hf' => hquiet f (by omega) (by omega)
    rwa [show m + 1 + (min toFrame.toNat maxFrame.toNat + 1 - (first + (m + 1))) =
      max (m + 1) (min toFrame.toNat maxFrame.toNat + 1 - first) by omega] at hfill
  · refine ⟨s.toStats, rfl, ?_, rfl, rfl, rfl⟩
    rw [UInt64.not_lt, UInt64.le_iff_toNat_le, hprev'] at hlt
    rw [show max (m + 1) (min toFrame.toNat maxFrame.toNat + 1 - first) = m + 1 by omega]
    exact h.filled

/-! ### Maxima -/

theorem StatsLoop.maxima_row {fromFrame size : UInt64} {s s' : StatsLoop} {e : StatsEntry}
    (h : s.row fromFrame size e = some s') :
    s'.maxAllocs = (if getUint64 (some e.2.allocs) > s.maxAllocs then getUint64 (some e.2.allocs)
      else s.maxAllocs) ∧
    s'.maxFrees = (if getUint64 (some e.2.frees) > s.maxFrees then getUint64 (some e.2.frees)
      else s.maxFrees) ∧
    s'.maxSize = if e.2.size > s.maxSize then e.2.size else s.maxSize := by
  obtain ⟨t, ht, rfl⟩ := Option.map_eq_some_iff.1 h
  unfold StatsLoop.fillGap at ht
  split_ifs at ht
  · cases ht
    exact ⟨rfl, rfl, rfl⟩
  · obtain ⟨back, -, rfl⟩ := Option.map_eq_some_iff.1 ht
    exact ⟨rfl, rfl, rfl⟩
  · cases ht
    exact ⟨rfl, rfl, rfl⟩

theorem StatsLoop.maxima_rows {fromFrame size : UInt64} {s s' : StatsLoop}
    {rows : List StatsEntry} (h : rows.foldlM (StatsLoop.row fromFrame size) s = some s') :
    s'.maxAllocs = rows.foldl (fun m e => if getUint64 (some e.2.allocs) > m then
      getUint64 (some e.2.allocs) else m) s.maxAllocs ∧
    s'.maxFrees = rows.foldl (fun m e => if getUint64 (some e.2.frees) > m then
      getUint64 (some e.2.frees) else m) s.maxFrees ∧
    s'.maxSize = rows.foldl (fun m e => if e.2.size > m then e.2.size else m) s.maxSize := by
  induction rows generalizing s with
  | nil =>
    cases h
    exact ⟨rfl, rfl, rfl⟩
  | cons e rows ih =>
    rw [List.foldlM_cons] at h
    obtain ⟨t, ht, h⟩ := Option.bind_eq_some_iff.1 h
    obtain ⟨h1, h2, h3⟩ := StatsLoop.maxima_row ht
    obtain ⟨ih1, ih2, ih3⟩ := ih h
    rw [ih1, ih2, ih3, h1, h2, h3]
    exact ⟨rfl, rfl, rfl⟩

/-- The maximum a loop keeps, when it starts with a value no row is below. -/
theorem isMaximum_foldl {κ : Type} [LT κ] [DecidableLT κ] (toInt : κ → ℤ)
    (hlt : ∀ x y, x < y ↔ toInt x < toInt y) {db : Database} {first last : ℕ}
    {rows : List StatsEntry} (hrows : RowsFrom db first last rows) (hne : rows ≠ [])
    (column : StatsRow → κ) {b : κ} (hb : ∀ e ∈ rows, toInt b ≤ toInt (column e.2)) :
    IsMaximum db.frameStats first last (fun row => toInt (column row))
      (toInt (rows.foldl (fun m e => if column e.2 > m then column e.2 else m) b)) := by
  obtain ⟨hall, -, hsome⟩ :=
    Sorting.foldl_max_spec toInt hlt (fun e : StatsEntry => column e.2) rows b
  have hmem : ∀ e ∈ rows, ∃ k row, db.frameStats.lookup k = some row ∧ first ≤ k.toInt ∧
      k.toInt ≤ last ∧ toInt (column row) = toInt (column e.2) := by
    intro e he
    obtain ⟨h1, h2, h3⟩ := (hrows.mem_iff e).1 he
    exact ⟨e.1, e.2, h1, h2, h3, rfl⟩
  refine ⟨fun k row hrow h1 h2 => hall ⟨k, row⟩ ((hrows.mem_iff _).2 ⟨hrow, h1, h2⟩), ?_⟩
  rcases hsome with heq | ⟨e, he, heq⟩
  · obtain ⟨e, he⟩ := List.exists_mem_of_ne_nil rows hne
    obtain ⟨k, row, hrow, h1, h2, hval⟩ := hmem e he
    refine ⟨k, row, hrow, h1, h2, hval.trans (le_antisymm (hall e he) ?_)⟩
    rw [heq]
    exact hb e he
  · rw [heq]
    exact hmem e he

/-! ### The statistics of a window -/

theorem Filled.aligned {db : Database} {first last toFrame : ℕ} {s : Stats}
    (h : Filled db first (last - first + 1) s) (hle : first ≤ last) (hlast : last < 2 ^ 63)
    (hallocs : IsMaximum db.frameStats first toFrame
      (fun row => (getUint64 (some row.allocs)).toNat) s.maxAllocs.toNat)
    (hfrees : IsMaximum db.frameStats first toFrame
      (fun row => (getUint64 (some row.frees)).toNat) s.maxFrees.toNat)
    (hsize : IsMaximum db.frameStats first toFrame (fun row => row.size.toInt) s.maxSize.toInt) :
    Aligned db.frameStats first last toFrame s := by
  refine ⟨?_, ?_, ?_, fun i allocs frees size ha hf hs => ?_, hallocs, hfrees, hsize⟩
  · rw [h.allocCounts, List.length_map, List.length_range]
  · rw [h.freeCounts, List.length_map, List.length_range]
  · rw [h.sizePoints, List.length_map, List.length_range]
  · rw [h.allocCounts, List.getElem?_map, Option.map_eq_some_iff] at ha
    rw [h.freeCounts, List.getElem?_map, Option.map_eq_some_iff] at hf
    rw [h.sizePoints, List.getElem?_map, Option.map_eq_some_iff] at hs
    obtain ⟨j, hj, rfl⟩ := ha
    obtain ⟨j', hj', rfl⟩ := hf
    obtain ⟨j'', hj'', rfl⟩ := hs
    obtain ⟨hlt, rfl⟩ := List.getElem?_eq_some_iff.1 hj
    obtain ⟨-, rfl⟩ := List.getElem?_eq_some_iff.1 hj'
    obtain ⟨-, rfl⟩ := List.getElem?_eq_some_iff.1 hj''
    rw [List.length_range] at hlt
    rw [List.getElem_range]
    exact describesFrame (by omega)

/-- **Frame statistics are aligned with frames**, if the window contains a row. -/
theorem getStats_aligned {d : Recorder} {st : Storage} (hdb : d.db = some st)
    (hframes : ∀ k ∈ st.db.frameStats, k.toInt ≤ d.maxFrame.toNat)
    (hsizes : ∀ k row, st.db.frameStats.lookup k = some row → 0 ≤ row.size.toInt)
    (fromFrame toFrame : UInt64) (hto : toFrame.toNat < 2 ^ 63)
    (hrow : ∃ k ∈ st.db.frameStats, fromFrame.toNat ≤ k.toInt ∧ k.toInt ≤ toFrame.toNat) :
    ∃ s, d.getStats fromFrame toFrame = some s ∧
      Aligned st.db.frameStats fromFrame.toNat (min toFrame.toNat d.maxFrame.toNat)
        toFrame.toNat s := by
  obtain ⟨first, hfirst⟩ : ∃ first, fromFrame.toNat = first := ⟨_, rfl⟩
  obtain ⟨last, hlast⟩ : ∃ last, toFrame.toNat = last := ⟨_, rfl⟩
  obtain ⟨k, hk, hk1, hk2⟩ := hrow
  have hfrom : fromFrame = UInt64.ofNat first := by rw [← hfirst, UInt64.ofNat_toNat]
  have hto' : toFrame = UInt64.ofNat last := by rw [← hlast, UInt64.ofNat_toNat]
  have hkmax := hframes k hk
  obtain ⟨row, hrow⟩ := Dict.mem_iff_lookup.1 hk
  -- the rows of the window are those up to the last frame of the trace
  have hrows : RowsFrom st.db first last (st.db.selectStats fromFrame toFrame) := by
    rw [hfrom, hto']
    exact rowsFrom_selectStats (by omega) (by omega)
  have hne : st.db.selectStats fromFrame toFrame ≠ [] := by
    apply List.ne_nil_of_mem
    exact (hrows.mem_iff ⟨k, row⟩).2 ⟨hrow, by simp only; omega, by simp only; omega⟩
  have hrows' : RowsFrom st.db (first + 0) (min toFrame.toNat d.maxFrame.toNat)
      (st.db.selectStats fromFrame toFrame) := by
    refine ⟨hrows.sorted, fun e => ?_⟩
    rw [hrows.mem_iff e]
    refine and_congr_right fun he => ?_
    have hemax := hframes e.1 (Dict.mem_iff_lookup.2 ⟨e.2, he⟩)
    omega
  have hat : StoredAt 0 first (min toFrame.toNat d.maxFrame.toNat) := Or.inl ⟨rfl, by omega⟩
  have hstart : Reached st.db first 0 { prevFrame := fromFrame } := ⟨⟨rfl, rfl, rfl⟩, rfl, hfrom⟩
  obtain ⟨s, n, hfold, hreached, hnil, hle, hlastRow⟩ :=
    hstart.rows hrows'.rowsAt hat (by omega) (by omega) fun h => absurd h (lt_irrefl 0)
  have hn : 0 < n := by
    rcases hlastRow with ⟨hnil, -⟩ | ⟨hpos, -⟩
    · exact absurd hnil hne
    · exact hpos
  have hbound := hle hn
  have hquiet := hnil.quiet hat hn
  obtain ⟨t, hend, hfilled, h1, h2, h3⟩ :=
    hreached.fillEnd _ _ hn (by omega) (fun _ => by omega) hquiet
  rw [show max n (min toFrame.toNat d.maxFrame.toNat + 1 - first) =
    min toFrame.toNat d.maxFrame.toNat - first + 1 by omega] at hfilled
  obtain ⟨m1, m2, m3⟩ := StatsLoop.maxima_rows hfold
  refine ⟨t, ?_, ?_⟩
  · have hknown : getUint64 (st.db.selectLastGoodSize fromFrame) = sizeAt st.db first := by
      rw [sizeAt, hfrom]
    simp only [Recorder.getStats, hdb, hknown]
    rw [hfrom] at hfold ⊢
    rw [hfold]
    exact hend
  · have hunsigned : ∀ x y : UInt64, x < y ↔ (x.toNat : ℤ) < y.toNat := fun x y => by
      rw [UInt64.lt_iff_toNat_lt, Nat.cast_lt]
    rw [hfirst] at hk1 ⊢
    refine hfilled.aligned (by omega) (by omega) ?_ ?_ ?_
    · rw [h1, m1, hlast]
      exact isMaximum_foldl (fun x : UInt64 => (x.toNat : ℤ)) hunsigned hrows hne
        (fun row => getUint64 (some row.allocs)) fun _ _ => Int.natCast_nonneg _
    · rw [h2, m2, hlast]
      exact isMaximum_foldl (fun x : UInt64 => (x.toNat : ℤ)) hunsigned hrows hne
        (fun row => getUint64 (some row.frees)) fun _ _ => Int.natCast_nonneg _
    · rw [h3, m3, hlast]
      refine isMaximum_foldl Int64.toInt (fun _ _ => Int64.lt_iff_toInt_lt) hrows hne
        StatsRow.size fun e he => ?_
      exact hsizes e.1 e.2 ((hrows.mem_iff e).1 he).1

/-- A trace of five frames, with events in two of them. -/
def sparse : Recorder :=
  { db := some { db := { frameStats :=
      ((∅ : Dict Int64 StatsRow).insert 4 ⟨3, 1, 24⟩).insert 2 ⟨1, 0, 8⟩ } }
    maxFrame := 5 }

theorem getStats_aligned_sparse : ∃ st s, sparse.db = some st ∧ sparse.getStats 1 6 = some s ∧
    Aligned st.db.frameStats 1 5 6 s := by
  have hkeys : ∀ k ∈ [2, 4], Int64.toInt k ≤ (5 : ℕ) :=
    List.forall_mem_cons.2 ⟨by decide, List.forall_mem_singleton.2 (by decide)⟩
  have hvalues : ∀ e ∈ ([⟨2, ⟨1, 0, 8⟩⟩, ⟨4, ⟨3, 1, 24⟩⟩] : List StatsEntry),
      0 ≤ e.2.size.toInt := by
    decide
  obtain ⟨s, hs, haligned⟩ := getStats_aligned (d := sparse) rfl
    (fun k hk => hkeys k (AList.mem_keys.1 hk))
    (fun k row hrow => hvalues ⟨k, row⟩ (AList.mem_lookup_iff.1 hrow))
    1 6 (by decide) ⟨2, by decide, by decide, by decide⟩
  exact ⟨_, s, rfl, hs, haligned⟩

example : (sparse.getStats 1 6).map Stats.sizePoints = some [0, 8, 8, 24, 24] := by decide

end Owlcat
