import OwlcatMonoProfiler.Client.SignedWindows

/-!
# The graphs of the user interface

`update_region` and `get_closest_gc_frame` of `graphs_data.cpp`: the series of the visible window,
and the search for the frame with deallocations that is closest to a picked frame.

* `GraphsData`: the series and the window they were asked for;
* `scanDown`, `scanUp`: the two loops of the search;
* `getClosestGcFrame`: the whole function, where `none` is an access outside the series;
* `isSome_getClosestGcFrame`: when the search stays inside the series;
* `IsClosest`: what the search should find;
* `isClosest_getClosestGcFrame`: when it does;
* `EndsAt`, `endsAt_of_lookup`: the last point of the sizes is that of the last row.
-/

namespace Owlcat

/-- `graphs_data` -/
structure GraphsData where
  allocCount : List UInt64 := []
  freesCount : List UInt64 := []
  sizePoints : List UInt64 := []
  firstVisibleFrame : Int32 := -1
  lastVisibleFrame : Int32 := -1
  minFrame : UInt64 := 0
  maxFrame : UInt64 := 0
  maxAllocs : UInt64 := 0
  maxFrees : UInt64 := 0
  maxSize : Int64 := 0

namespace GraphsData

/-- `update_region` -/
def updateRegion (data : Recorder) (g : GraphsData) (fromFrame toFrame : Int32) :
    Option GraphsData :=
  (data.getStats (toUint64 fromFrame) (toUint64 toFrame)).map fun s =>
    { g with
      firstVisibleFrame := fromFrame
      lastVisibleFrame := toFrame
      allocCount := s.allocCounts
      freesCount := s.freeCounts
      maxAllocs := s.maxAllocs
      maxFrees := s.maxFrees
      sizePoints := s.sizePoints
      maxSize := s.maxSize }

/-- The first loop of `get_closest_gc_frame`, with at most `n` steps. -/
def scanDown (frees : List UInt64) (first : UInt64) : ℕ → UInt64 → Option (UInt64 × Bool)
  | 0, f1 => some (f1, false)
  | n + 1, f1 =>
    if f1 > first then
      frees[(f1 - first).toNat]?.bind fun count =>
        if count > 0 then some (f1, true) else scanDown frees first n (f1 - 1)
    else some (f1, false)

/-- The second loop of `get_closest_gc_frame`, with at most `n` steps. -/
def scanUp (frees : List UInt64) (first last : UInt64) : ℕ → UInt64 → Option (UInt64 × Bool)
  | 0, f2 => some (f2, false)
  | n + 1, f2 =>
    if f2 < last then
      frees[(f2 - first).toNat]?.bind fun count =>
        if count > 0 then some (f2, true) else scanUp frees first last n (f2 + 1)
    else some (f2, false)

/-- `get_closest_gc_frame` -/
def getClosestGcFrame (g : GraphsData) (frame : UInt64) : Option UInt64 :=
  let first := toUint64 g.firstVisibleFrame
  let last := toUint64 g.lastVisibleFrame
  if frame ≤ first ∨ frame ≥ last then some frame
  else
    (scanDown g.freesCount first (frame - first).toNat frame).bind fun (f1, f1found) =>
      (scanUp g.freesCount first last (last - frame).toNat frame).map fun (f2, f2found) =>
        if ¬f1found ∧ ¬f2found then frame
        else if f1found ≠ f2found then if f1found then f1 else f2
        else if frame - f1 > f2 - frame then f2
        else f1

/-! ### The loops -/

section Scan

variable {frees : List UInt64} {first : UInt64}

/-- The frame with an index in the window. -/
def frameAt (first : UInt64) (i : ℕ) : UInt64 := first + UInt64.ofNat i

theorem toNat_frameAt {i : ℕ} (h : first.toNat + i < 2 ^ 64) :
    (frameAt first i).toNat = first.toNat + i := by
  rw [frameAt, UInt64.toNat_add, UInt64.toNat_ofNat', Nat.add_mod_mod]
  exact Nat.mod_eq_of_lt h

theorem toNat_frameAt_sub {i : ℕ} (h : first.toNat + i < 2 ^ 64) :
    (frameAt first i - first).toNat = i := by
  rw [frameAt, UInt64.add_comm, UInt64.add_sub_cancel]
  exact UInt64.toNat_ofNat_of_lt' (show i < 2 ^ 64 by omega)

theorem frameAt_sub_one (i : ℕ) : frameAt first (i + 1) - 1 = frameAt first i := by
  have hsucc : UInt64.ofNat (i + 1) = UInt64.ofNat i + 1 := UInt64.ofNat_add i 1
  rw [frameAt, hsucc, ← UInt64.add_assoc, UInt64.add_sub_cancel, frameAt]

theorem frameAt_add_one (i : ℕ) : frameAt first i + 1 = frameAt first (i + 1) := by
  have hsucc : UInt64.ofNat (i + 1) = UInt64.ofNat i + 1 := UInt64.ofNat_add i 1
  rw [frameAt, frameAt, hsucc, UInt64.add_assoc]

/-- The loop down reads the entries from that of its frame on, to the first one with frees. -/
theorem scanDown_spec (first : UInt64) {i : ℕ} (h : first.toNat + i < 2 ^ 64)
    (hlen : i < frees.length) :
    ∃ j, j ≤ i ∧ (∀ k, j < k → k ≤ i → frees[k]? = some 0) ∧
      (j = 0 ∧ scanDown frees first i (frameAt first i) = some (frameAt first j, false) ∨
        0 < j ∧ (∃ count, frees[j]? = some count ∧ count ≠ 0) ∧
          scanDown frees first i (frameAt first i) = some (frameAt first j, true)) := by
  induction i with
  | zero => exact ⟨0, le_rfl, fun k h1 h2 => absurd h1 (by omega), Or.inl ⟨rfl, rfl⟩⟩
  | succ i ih =>
    have hgt : frameAt first (i + 1) > first := by
      rw [gt_iff_lt, UInt64.lt_iff_toNat_lt, toNat_frameAt h]
      omega
    have hcount := List.getElem?_eq_getElem hlen
    simp only [scanDown, if_pos hgt, toNat_frameAt_sub h, hcount, Option.bind_some,
      frameAt_sub_one]
    by_cases hzero : frees[i + 1] = 0
    · obtain ⟨j, hj, hall, hcase⟩ := ih (by omega) (by omega)
      rw [if_neg (by rw [hzero]; decide)]
      refine ⟨j, by omega, fun k h1 h2 => ?_, hcase⟩
      rcases Nat.eq_or_lt_of_le h2 with rfl | hlt
      · rw [hcount, hzero]
      · exact hall k h1 (by omega)
    · rw [if_pos (UInt64.pos_iff_ne_zero.2 hzero)]
      refine ⟨i + 1, le_rfl, fun k h1 h2 => absurd h1 (by omega), Or.inr ⟨by omega, ?_, rfl⟩⟩
      exact ⟨_, hcount, hzero⟩

theorem scanDown_eq_none {i : ℕ} (h : first.toNat + i < 2 ^ 64) (hlen : frees.length ≤ i)
    (hi : 0 < i) : scanDown frees first i (frameAt first i) = none := by
  obtain ⟨i, rfl⟩ : ∃ j, i = j + 1 := ⟨i - 1, by omega⟩
  have hgt : frameAt first (i + 1) > first := by
    rw [gt_iff_lt, UInt64.lt_iff_toNat_lt, toNat_frameAt h]
    omega
  rw [scanDown, if_pos hgt, toNat_frameAt_sub h, List.getElem?_eq_none hlen]
  rfl

/-- The loop up reads the entries from that of its frame on, to the first one with frees, or until
there are none left. -/
theorem scanUp_spec (frees : List UInt64) {last : UInt64} {i n : ℕ}
    (hlast : first.toNat + (i + n) = last.toNat) :
    ∃ j, i ≤ j ∧ j ≤ i + n ∧ (∀ k, i ≤ k → k < j → frees[k]? = some 0) ∧
      (j = i + n ∧ scanUp frees first last n (frameAt first i) = some (frameAt first j, false) ∨
        j < i + n ∧ (∃ count, frees[j]? = some count ∧ count ≠ 0) ∧
          scanUp frees first last n (frameAt first i) = some (frameAt first j, true) ∨
        j < i + n ∧ frees.length ≤ j ∧ scanUp frees first last n (frameAt first i) = none) := by
  induction n generalizing i with
  | zero => exact ⟨i, le_rfl, le_rfl, fun k h1 h2 => absurd h1 (by omega), Or.inl ⟨rfl, rfl⟩⟩
  | succ n ih =>
    have hlt64 := UInt64.toNat_lt last
    have hlt : frameAt first i < last := by
      rw [UInt64.lt_iff_toNat_lt, toNat_frameAt (by omega)]
      omega
    have hsub : (frameAt first i - first).toNat = i := toNat_frameAt_sub (by omega)
    simp only [scanUp, if_pos hlt, hsub, frameAt_add_one]
    rcases Nat.lt_or_ge i frees.length with hlen | hlen
    · have hcount := List.getElem?_eq_getElem hlen
      simp only [hcount, Option.bind_some]
      by_cases hzero : frees[i] = 0
      · obtain ⟨j, hij, hj, hall, hcase⟩ := ih (i := i + 1) (by omega)
        rw [if_neg (by rw [hzero]; decide)]
        refine ⟨j, by omega, by omega, fun k h1 h2 => ?_, ?_⟩
        · rcases Nat.eq_or_lt_of_le h1 with rfl | hlt
          · rw [hcount, hzero]
          · exact hall k hlt h2
        · rwa [show i + (n + 1) = i + 1 + n by omega]
      · rw [if_pos (UInt64.pos_iff_ne_zero.2 hzero)]
        refine ⟨i, le_rfl, by omega, fun k h1 h2 => absurd h1 (by omega), Or.inr (Or.inl ?_)⟩
        exact ⟨by omega, ⟨_, hcount, hzero⟩, rfl⟩
    · refine ⟨i, le_rfl, by omega, fun k h1 h2 => absurd h1 (by omega), Or.inr (Or.inr ?_)⟩
      refine ⟨by omega, hlen, ?_⟩
      rw [List.getElem?_eq_none hlen]
      rfl

end Scan

/-! ### Accesses to the series -/

section Safety

variable {g : GraphsData} {frame : UInt64}

/-- A picked frame inside the window is a number of steps away from both ends. -/
theorem exists_steps {first last : UInt64} (h1 : first < frame) (h2 : frame < last) :
    ∃ i n, 0 < i ∧ 0 < n ∧ first.toNat + (i + n) = last.toNat ∧ frame = frameAt first i ∧
      (frame - first).toNat = i ∧ (last - frame).toNat = n := by
  rw [UInt64.lt_iff_toNat_lt] at h1 h2
  have hlt := UInt64.toNat_lt last
  have hframe : frame = frameAt first (frame.toNat - first.toNat) := by
    rw [← UInt64.toNat_inj, toNat_frameAt (by omega)]
    omega
  refine ⟨frame.toNat - first.toNat, last.toNat - frame.toNat, by omega, by omega, by omega,
    hframe, ?_, ?_⟩
  · exact UInt64.toNat_sub_of_le frame first (UInt64.le_iff_toNat_le.2 h1.le)
  · exact UInt64.toNat_sub_of_le last frame (UInt64.le_iff_toNat_le.2 h2.le)

section Inside

variable {i n : ℕ}

theorem getClosestGcFrame_eq (hi : 0 < i) (hn : 0 < n)
    (hlast : (toUint64 g.firstVisibleFrame).toNat + (i + n) =
      (toUint64 g.lastVisibleFrame).toNat) :
    g.getClosestGcFrame (frameAt (toUint64 g.firstVisibleFrame) i) =
      (scanDown g.freesCount (toUint64 g.firstVisibleFrame) i
        (frameAt (toUint64 g.firstVisibleFrame) i)).bind fun p =>
      (scanUp g.freesCount (toUint64 g.firstVisibleFrame) (toUint64 g.lastVisibleFrame) n
        (frameAt (toUint64 g.firstVisibleFrame) i)).map fun q =>
      if ¬p.2 ∧ ¬q.2 then frameAt (toUint64 g.firstVisibleFrame) i
      else if p.2 ≠ q.2 then if p.2 then p.1 else q.1
      else if frameAt (toUint64 g.firstVisibleFrame) i - p.1 >
          q.1 - frameAt (toUint64 g.firstVisibleFrame) i then q.1
      else p.1 := by
  have hlt := UInt64.toNat_lt (toUint64 g.lastVisibleFrame)
  have hframe : (frameAt (toUint64 g.firstVisibleFrame) i).toNat =
      (toUint64 g.firstVisibleFrame).toNat + i := toNat_frameAt (by omega)
  have hinside : ¬(frameAt (toUint64 g.firstVisibleFrame) i ≤ toUint64 g.firstVisibleFrame ∨
      frameAt (toUint64 g.firstVisibleFrame) i ≥ toUint64 g.lastVisibleFrame) := by
    rw [ge_iff_le, UInt64.le_iff_toNat_le, UInt64.le_iff_toNat_le, hframe]
    omega
  have hup : (toUint64 g.lastVisibleFrame -
      frameAt (toUint64 g.firstVisibleFrame) i).toNat = n := by
    rw [UInt64.toNat_sub_of_le _ _ (UInt64.le_iff_toNat_le.2 (by omega)), hframe]
    omega
  simp only [getClosestGcFrame]
  rw [if_neg hinside, hup, toNat_frameAt_sub (by omega)]

/-- The search reads the entry of the picked frame, and those after it up to the first one with
frees or the end of the window. -/
theorem isSome_getClosestGcFrame_inside (hi : 0 < i) (hn : 0 < n)
    (hlast : (toUint64 g.firstVisibleFrame).toNat + (i + n) =
      (toUint64 g.lastVisibleFrame).toNat) :
    (g.getClosestGcFrame (frameAt (toUint64 g.firstVisibleFrame) i)).isSome ↔
      i < g.freesCount.length ∧ (i + n ≤ g.freesCount.length ∨
        ∃ j count, i ≤ j ∧ j < i + n ∧ g.freesCount[j]? = some count ∧ count ≠ 0) := by
  have hlt := UInt64.toNat_lt (toUint64 g.lastVisibleFrame)
  rw [getClosestGcFrame_eq hi hn hlast]
  rcases Nat.lt_or_ge i g.freesCount.length with hlen | hlen
  · obtain ⟨p, hp⟩ : ∃ p, scanDown g.freesCount (toUint64 g.firstVisibleFrame) i
        (frameAt (toUint64 g.firstVisibleFrame) i) = some p := by
      obtain ⟨j, -, -, ⟨-, hp⟩ | ⟨-, -, hp⟩⟩ :=
        scanDown_spec (toUint64 g.firstVisibleFrame) (by omega) hlen
      · exact ⟨_, hp⟩
      · exact ⟨_, hp⟩
    rw [hp, Option.bind_some, Option.isSome_map, and_iff_right hlen]
    obtain ⟨j, hij, hj, hall, hcase⟩ := scanUp_spec g.freesCount hlast
    rcases hcase with ⟨rfl, hq⟩ | ⟨hj, ⟨count, hcount, hne⟩, hq⟩ | ⟨hj, hshort, hq⟩
    · rw [hq]
      refine iff_of_true rfl (Or.inl ?_)
      obtain ⟨hlt, -⟩ := List.getElem?_eq_some_iff.1 (hall (i + n - 1) (by omega) (by omega))
      omega
    · rw [hq]
      exact iff_of_true rfl (Or.inr ⟨j, count, hij, hj, hcount, hne⟩)
    · rw [hq]
      refine iff_of_false (by simp) ?_
      rintro (hle | ⟨k, count, hik, hk, hcount, hne⟩)
      · omega
      · obtain ⟨hlt, -⟩ := List.getElem?_eq_some_iff.1 hcount
        rw [hall k hik (by omega), Option.some.injEq] at hcount
        exact hne hcount.symm
  · rw [scanDown_eq_none (by omega) hlen hi]
    refine iff_of_false (by simp) ?_
    rintro ⟨hlt, -⟩
    omega

end Inside

/-- The row of a frame of the window. -/
theorem exists_row {table : Dict Int64 StatsRow} {first last : UInt64} (hle : first ≤ last)
    (hhalf : OneHalf first.toNat last.toNat) {f : ℕ} (hmem : Int64.ofNat f ∈ table)
    (hf : first.toNat ≤ f) (hf' : f ≤ last.toNat) :
    (getUint64 (some (Int64.ofNat f))).toNat = f ∧
      ∃ row, table.lookup (Int64.ofNat f) = some row ∧
        (DbValue.uint64 first).bind.toInt ≤ (Int64.ofNat f).toInt ∧
        (Int64.ofNat f).toInt ≤ (DbValue.uint64 last).bind.toInt := by
  have hlt := UInt64.toNat_lt last
  have hframe : (getUint64 (some (Int64.ofNat f))).toNat = f := by
    rw [getUint64_ofNat]
    exact UInt64.toNat_ofNat_of_lt' (show f < 2 ^ 64 by omega)
  obtain ⟨row, hrow⟩ := Dict.mem_iff_lookup.1 hmem
  refine ⟨hframe, row, hrow, (toInt_window hle hhalf (Int64.ofNat f)).2 ?_⟩
  rw [UInt64.le_iff_toNat_le, UInt64.le_iff_toNat_le, hframe]
  exact ⟨hf, hf'⟩

/-- How far the series of frees reaches, by the rows of the window. -/
theorem freeCounts_reach {data : Recorder} {st : Storage} (hdb : data.db = some st)
    {first last : UInt64} {s : Stats} (hs : data.getStats first last = some s) {i n : ℕ}
    (hi : 0 < i) (hn : 0 < n) (hlast : first.toNat + (i + n) = last.toNat) :
    (i < s.freeCounts.length ∧ (i + n ≤ s.freeCounts.length ∨
      ∃ j count, i ≤ j ∧ j < i + n ∧ s.freeCounts[j]? = some count ∧ count ≠ 0)) ↔
      ∃ k row, st.db.frameStats.lookup k = some row ∧
        (DbValue.uint64 first).bind.toInt ≤ k.toInt ∧
        k.toInt ≤ (DbValue.uint64 last).bind.toInt ∧
        (last.toNat ≤ max (getUint64 (some k)).toNat data.maxFrame.toNat + 1 ∨
          frameAt first i ≤ getUint64 (some k) ∧ row.frees ≠ 0) := by
  have hlt64 := UInt64.toNat_lt last
  have hle : first ≤ last := UInt64.le_iff_toNat_le.2 (by omega)
  by_cases hrows : st.db.selectStats first last = []
  · rw [getStats_of_noRow hdb hrows, Option.some.injEq] at hs
    subst hs
    refine iff_of_false ?_ ?_
    · rintro ⟨hlt, -⟩
      exact absurd hlt (Nat.not_lt_zero i)
    · rintro ⟨k, row, hrow, h1, h2, -⟩
      exact List.eq_nil_iff_forall_not_mem.1 hrows ⟨k, row⟩ (mem_selectStats.2 ⟨hrow, h1, h2⟩)
  have hhalf := oneHalf_of_selectStats_ne_nil hrows
  obtain ⟨-, -, l, hl, -, hfilled⟩ := filled_of_getStats hdb hle hs hrows
  have hl1 := hl.first_le
  have hl2 := hl.le_last
  have hlength : s.freeCounts.length =
      max (l - first.toNat + 1) (min last.toNat data.maxFrame.toNat + 1 - first.toNat) := by
    rw [hfilled.freeCounts, List.length_map, List.length_range]
  constructor
  · rintro ⟨hlen, hle' | ⟨j, count, hij, hj, hcount, hne⟩⟩
    · obtain ⟨hframe, row, hrow, h1, h2⟩ := exists_row hle hhalf hl.mem hl1 hl2
      refine ⟨_, row, hrow, h1, h2, Or.inl ?_⟩
      omega
    · -- an entry that is not zero has a row
      obtain ⟨hlt, hget⟩ := List.getElem?_eq_some_iff.1 hcount
      have hcolumn : count = columnAt st.db StatsRow.frees (first.toNat + j) := by
        rw [← hget]
        simp only [hfilled.freeCounts, List.getElem_map, List.getElem_range]
      have hmem : Int64.ofNat (first.toNat + j) ∈ st.db.frameStats := by
        by_contra hno
        exact hne (hcolumn.trans (columnAt_of_noRow hno))
      obtain ⟨hframe, row, hrow, h1, h2⟩ := exists_row hle hhalf hmem (by omega) (by omega)
      refine ⟨_, row, hrow, h1, h2, Or.inr ⟨?_, fun hzero => hne ?_⟩⟩
      · rw [UInt64.le_iff_toNat_le, toNat_frameAt (by omega), hframe]
        omega
      · rw [hcolumn, columnAt_of_lookup hrow, hzero]
        rfl
  · rintro ⟨k, row, hrow, h1, h2, hcase⟩
    obtain ⟨hfirst, hto⟩ := (toInt_window hle hhalf k).1 ⟨h1, h2⟩
    have hkl := hl.le (Dict.mem_iff_lookup.2 ⟨row, hrow⟩) hto
    rw [UInt64.le_iff_toNat_le] at hfirst hto
    rcases hcase with hreach | ⟨hlater, hne⟩
    · exact ⟨by omega, Or.inl (by omega)⟩
    · rw [UInt64.le_iff_toNat_le, toNat_frameAt (by omega)] at hlater
      rcases Nat.lt_or_ge (getUint64 (some k)).toNat last.toNat with hlt | hge
      · refine ⟨by omega, Or.inr ⟨(getUint64 (some k)).toNat - first.toNat,
          columnAt st.db StatsRow.frees (getUint64 (some k)).toNat, by omega, by omega, ?_, ?_⟩⟩
        · rw [hfilled.freeCounts, List.getElem?_map, List.getElem?_range (by omega),
            Option.map_some, Nat.add_sub_cancel' hfirst]
        · have hlookup : st.db.frameStats.lookup
              (Int64.ofNat (getUint64 (some k)).toNat) = some row := by
            rw [ofNat_getUint64]
            exact hrow
          rw [columnAt_of_lookup hlookup]
          exact fun hzero => hne (getUint64_inj.1 hzero)
      · exact ⟨by omega, Or.inl (by omega)⟩

/-- **When the search stays inside the series**: the picked frame is not inside the window, or the
window has a row such that the series reaches to the end of the window, or a later one with
frees. -/
theorem isSome_getClosestGcFrame {data : Recorder} {st : Storage} (hdb : data.db = some st)
    {g g' : GraphsData} {fromFrame toFrame : Int32}
    (hregion : updateRegion data g fromFrame toFrame = some g') (frame : UInt64) :
    (g'.getClosestGcFrame frame).isSome ↔
      frame ≤ toUint64 fromFrame ∨ toUint64 toFrame ≤ frame ∨
      ∃ k row, st.db.frameStats.lookup k = some row ∧
        fromFrame.toInt ≤ k.toInt ∧ k.toInt ≤ toFrame.toInt ∧
        ((toUint64 toFrame).toNat ≤
            max (getUint64 (some k)).toNat data.maxFrame.toNat + 1 ∨
          frame ≤ getUint64 (some k) ∧ row.frees ≠ 0) := by
  obtain ⟨s, hs, rfl⟩ := Option.map_eq_some_iff.1 hregion
  by_cases hout : frame ≤ toUint64 fromFrame ∨ toUint64 toFrame ≤ frame
  · refine iff_of_true ?_ (or_assoc.1 (Or.inl hout))
    simp only [getClosestGcFrame]
    rw [if_pos hout]
    rfl
  rw [← or_assoc, or_iff_right hout]
  rw [not_or, UInt64.not_le, UInt64.not_le] at hout
  obtain ⟨i, n, hi, hn, hlast, rfl, -⟩ := exists_steps hout.1 hout.2
  have hreach := freeCounts_reach hdb hs hi hn hlast
  rw [bind_toUint64, bind_toUint64, Int32.toInt_toInt64, Int32.toInt_toInt64] at hreach
  rw [← hreach]
  exact isSome_getClosestGcFrame_inside hi hn hlast

end Safety

theorem isSome_getClosestGcFrame_sparse : ∃ st g', sparse.db = some st ∧
    updateRegion sparse {} 1 6 = some g' ∧
    ((g'.getClosestGcFrame 3).isSome ↔
      3 ≤ toUint64 1 ∨ toUint64 6 ≤ 3 ∨
      ∃ k row, st.db.frameStats.lookup k = some row ∧
        Int32.toInt 1 ≤ k.toInt ∧ k.toInt ≤ Int32.toInt 6 ∧
        ((toUint64 6).toNat ≤ max (getUint64 (some k)).toNat sparse.maxFrame.toNat + 1 ∨
          3 ≤ getUint64 (some k) ∧ row.frees ≠ 0)) := by
  have hsome : (updateRegion sparse {} 1 6).isSome := by decide
  obtain ⟨g', hg'⟩ := Option.isSome_iff_exists.1 hsome
  exact ⟨_, g', rfl, hg', isSome_getClosestGcFrame rfl hg' 3⟩

/-- A window that extends past the last frame of the trace. -/
theorem reads_outside : ∃ g', updateRegion sparse {} 0 20 = some g' ∧
    g'.getClosestGcFrame 10 = none := by
  have hnone : (updateRegion sparse {} 0 20).map (fun g => (g.getClosestGcFrame 10).isNone) =
    some true := by decide
  obtain ⟨g', hg', hread⟩ := Option.map_eq_some_iff.1 hnone
  exact ⟨g', hg', Option.isNone_iff_eq_none.1 hread⟩

/-! ### The closest frame -/

/-- The first frame of the window. -/
def firstFrame (g : GraphsData) : ℕ := (toUint64 g.firstVisibleFrame).toNat

/-- The last frame of the window. -/
def lastFrame (g : GraphsData) : ℕ := (toUint64 g.lastVisibleFrame).toNat

/-- The frees in a frame of the window. -/
def freesIn (g : GraphsData) (frame : ℕ) : UInt64 := g.freesCount[frame - g.firstFrame]?.getD 0

/-- How far a frame is from the picked one. -/
def distance (frame : UInt64) (c : ℕ) : ℕ := ((c : ℤ) - frame.toNat).natAbs

/-- `r` is the frame with frees that is closest to the picked one, the earlier one on a tie, and
the picked frame itself if there is none. -/
structure IsClosest (g : GraphsData) (frame r : UInt64) : Prop where
  nearest : (∃ c, g.firstFrame ≤ c ∧ c ≤ g.lastFrame ∧ g.freesIn c ≠ 0) →
    g.firstFrame ≤ r.toNat ∧ r.toNat ≤ g.lastFrame ∧ g.freesIn r.toNat ≠ 0 ∧
      ∀ c, g.firstFrame ≤ c → c ≤ g.lastFrame → g.freesIn c ≠ 0 →
        distance frame r.toNat ≤ distance frame c ∧
          (distance frame r.toNat = distance frame c → r.toNat ≤ c)
  self : r = frame ↔ (∀ c, g.firstFrame ≤ c → c ≤ g.lastFrame → g.freesIn c = 0) ∨
    g.freesIn frame.toNat ≠ 0

section Closest

variable {g : GraphsData} {i n : ℕ}

theorem freesIn_eq {k : ℕ} {count : UInt64} (h : g.freesCount[k]? = some count) :
    g.freesIn (g.firstFrame + k) = count := by
  rw [freesIn, Nat.add_sub_cancel_left, h, Option.getD_some]

theorem toNat_frameAt_sub_frameAt {first : UInt64} {a b : ℕ} (hba : b ≤ a)
    (ha : first.toNat + a < 2 ^ 64) : (frameAt first a - frameAt first b).toNat = a - b := by
  have hb : (frameAt first b).toNat = first.toNat + b := toNat_frameAt (by omega)
  have hle : frameAt first b ≤ frameAt first a := by
    rw [UInt64.le_iff_toNat_le, hb, toNat_frameAt ha]
    omega
  rw [UInt64.toNat_sub_of_le _ _ hle, hb, toNat_frameAt ha]
  omega

/-- What the search finds, by the numbers of steps from the first frame. -/
theorem getClosestGcFrame_spec (hi : 0 < i) (hn : 0 < n)
    (hlast : g.firstFrame + (i + n) = g.lastFrame) (hlen : i < g.freesCount.length)
    (hlen' : i + n ≤ g.freesCount.length) :
    ∃ j, 0 < j ∧ j < i + n ∧
      g.getClosestGcFrame (frameAt (toUint64 g.firstVisibleFrame) i) =
        some (frameAt (toUint64 g.firstVisibleFrame) j) ∧
      (j = i ∧ (∀ k, 0 < k → k < i + n → g.freesIn (g.firstFrame + k) = 0) ∨
        g.freesIn (g.firstFrame + j) ≠ 0 ∧
        ∀ k, 0 < k → k < i + n → g.freesIn (g.firstFrame + k) ≠ 0 →
          ((j : ℤ) - i).natAbs ≤ ((k : ℤ) - i).natAbs ∧
            (((j : ℤ) - i).natAbs = ((k : ℤ) - i).natAbs → j ≤ k)) := by
  have hlt := UInt64.toNat_lt (toUint64 g.lastVisibleFrame)
  have hlast' : (toUint64 g.firstVisibleFrame).toNat + (i + n) =
    (toUint64 g.lastVisibleFrame).toNat := hlast
  rw [getClosestGcFrame_eq hi hn hlast']
  obtain ⟨j₁, hj₁, hzero₁, hcase₁⟩ :=
    scanDown_spec (toUint64 g.firstVisibleFrame) (by omega) hlen
  obtain ⟨j₂, hj₂, hj₂', hzero₂, hcase₂⟩ := scanUp_spec g.freesCount hlast'
  -- no frame with frees is between the places where the two loops stop
  have houtside : ∀ k, g.freesIn (g.firstFrame + k) ≠ 0 → k ≤ j₁ ∨ j₂ ≤ k := by
    intro k hk
    by_contra hbetween
    rw [not_or, not_le, not_le] at hbetween
    apply hk
    rcases Nat.le_total k i with hki | hki
    · exact freesIn_eq (hzero₁ k hbetween.1 hki)
    · exact freesIn_eq (hzero₂ k hki hbetween.2)
  rcases hcase₁ with ⟨rfl, hp⟩ | ⟨hpos₁, ⟨count₁, hcount₁, hne₁⟩, hp⟩
  · rcases hcase₂ with ⟨rfl, hq⟩ | ⟨hlt₂, ⟨count₂, hcount₂, hne₂⟩, hq⟩ | ⟨hlt₂, hshort, -⟩
    · -- no frame with frees on either side
      refine ⟨i, hi, by omega, ?_, Or.inl ⟨rfl, fun k hk hk' => ?_⟩⟩
      · rw [hp, hq]
        rfl
      · by_contra hne
        have := houtside k hne
        omega
    · refine ⟨j₂, by omega, hlt₂, ?_, Or.inr ⟨?_, fun k hk hk' hne => ?_⟩⟩
      · rw [hp, hq]
        rfl
      · rw [freesIn_eq hcount₂]
        exact hne₂
      · have := houtside k hne
        omega
    · omega
  · rcases hcase₂ with ⟨rfl, hq⟩ | ⟨hlt₂, ⟨count₂, hcount₂, hne₂⟩, hq⟩ | ⟨hlt₂, hshort, -⟩
    · refine ⟨j₁, hpos₁, by omega, ?_, Or.inr ⟨?_, fun k hk hk' hne => ?_⟩⟩
      · rw [hp, hq]
        rfl
      · rw [freesIn_eq hcount₁]
        exact hne₁
      · have := houtside k hne
        omega
    · -- frames with frees on both sides
      have hfar : (frameAt (toUint64 g.firstVisibleFrame) i -
          frameAt (toUint64 g.firstVisibleFrame) j₁ >
          frameAt (toUint64 g.firstVisibleFrame) j₂ -
            frameAt (toUint64 g.firstVisibleFrame) i) ↔ j₂ - i < i - j₁ := by
        rw [gt_iff_lt, UInt64.lt_iff_toNat_lt, toNat_frameAt_sub_frameAt hj₁ (by omega),
          toNat_frameAt_sub_frameAt hj₂ (by omega)]
      by_cases hcloser : j₂ - i < i - j₁
      · refine ⟨j₂, by omega, hlt₂, ?_, Or.inr ⟨?_, fun k hk hk' hne => ?_⟩⟩
        · rw [hp, hq, Option.bind_some, Option.map_some, if_neg (by simp), if_neg (by simp),
            if_pos (hfar.2 hcloser)]
        · rw [freesIn_eq hcount₂]
          exact hne₂
        · have := houtside k hne
          omega
      · refine ⟨j₁, hpos₁, by omega, ?_, Or.inr ⟨?_, fun k hk hk' hne => ?_⟩⟩
        · rw [hp, hq, Option.bind_some, Option.map_some, if_neg (by simp), if_neg (by simp),
            if_neg fun h => hcloser (hfar.1 h)]
        · rw [freesIn_eq hcount₁]
          exact hne₁
        · have := houtside k hne
          omega
    · omega

/-- `r` is the closest of the frames with frees strictly inside the window, the earlier one on a
tie, and the picked frame itself if there is none. -/
structure IsClosestInside (g : GraphsData) (frame r : UInt64) : Prop where
  first_lt : g.firstFrame < r.toNat
  lt_last : r.toNat < g.lastFrame
  closest : r = frame ∧ (∀ c, g.firstFrame < c → c < g.lastFrame → g.freesIn c = 0) ∨
    g.freesIn r.toNat ≠ 0 ∧
    ∀ c, g.firstFrame < c → c < g.lastFrame → g.freesIn c ≠ 0 →
      distance frame r.toNat ≤ distance frame c ∧
        (distance frame r.toNat = distance frame c → r.toNat ≤ c)

/-- **What the search finds**: it does not look at the ends of the window. -/
theorem isClosestInside_getClosestGcFrame {frame : UInt64}
    (h1 : toUint64 g.firstVisibleFrame < frame) (h2 : frame < toUint64 g.lastVisibleFrame)
    (hlen : g.lastFrame ≤ g.firstFrame + g.freesCount.length) :
    ∃ r, g.getClosestGcFrame frame = some r ∧ g.IsClosestInside frame r := by
  obtain ⟨i, n, hi, hn, hlast, rfl, -⟩ := exists_steps h1 h2
  have hlast' : g.firstFrame + (i + n) = g.lastFrame := hlast
  have hlt := UInt64.toNat_lt (toUint64 g.lastVisibleFrame)
  have hframe : ∀ {j : ℕ}, j ≤ i + n →
      (frameAt (toUint64 g.firstVisibleFrame) j).toNat = g.firstFrame + j := fun hj =>
    toNat_frameAt (by omega)
  obtain ⟨j, hj, hj', hget, hcase⟩ :=
    getClosestGcFrame_spec hi hn hlast' (by omega) (by omega)
  have hr := hframe hj'.le
  refine ⟨_, hget, by omega, by omega, ?_⟩
  rw [hr]
  rcases hcase with ⟨rfl, hnone⟩ | ⟨hne, hmin⟩
  · left
    refine ⟨rfl, fun c hc hc' => ?_⟩
    obtain ⟨k, rfl⟩ := Nat.exists_eq_add_of_le hc.le
    exact hnone k (by omega) (by omega)
  · right
    refine ⟨hne, fun c hc hc' hnec => ?_⟩
    obtain ⟨k, rfl⟩ := Nat.exists_eq_add_of_le hc.le
    have hclosest := hmin k (by omega) (by omega) hnec
    rw [distance, distance, hframe (by omega)]
    omega

section Ends

variable {frame r : UInt64}

/-- A frame strictly inside the window is the closest only if the ends are no better. -/
theorem IsClosest.ends (h : g.IsClosest frame r) (hfirst : g.firstFrame < r.toNat)
    (hlast : r.toNat < g.lastFrame) :
    (g.freesIn g.firstFrame ≠ 0 → ∃ c, g.firstFrame < c ∧ c < g.lastFrame ∧
      g.freesIn c ≠ 0 ∧ distance frame c < distance frame g.firstFrame) ∧
    (g.freesIn g.lastFrame ≠ 0 → ∃ c, g.firstFrame < c ∧ c < g.lastFrame ∧
      g.freesIn c ≠ 0 ∧ distance frame c ≤ distance frame g.lastFrame) := by
  constructor
  · intro hne
    obtain ⟨-, -, hner, hmin⟩ := h.nearest ⟨_, le_rfl, by omega, hne⟩
    have hclosest := hmin _ le_rfl (by omega) hne
    refine ⟨r.toNat, hfirst, hlast, hner, ?_⟩
    omega
  · intro hne
    obtain ⟨-, -, hner, hmin⟩ := h.nearest ⟨_, by omega, le_rfl, hne⟩
    exact ⟨r.toNat, hfirst, hlast, hner, (hmin _ (by omega) le_rfl hne).1⟩

/-- If the ends are no better, a frame with frees is strictly inside, or one there is closer. -/
theorem exists_inside
    (hstart : g.freesIn g.firstFrame ≠ 0 → ∃ c, g.firstFrame < c ∧ c < g.lastFrame ∧
      g.freesIn c ≠ 0 ∧ distance frame c < distance frame g.firstFrame)
    (hend : g.freesIn g.lastFrame ≠ 0 → ∃ c, g.firstFrame < c ∧ c < g.lastFrame ∧
      g.freesIn c ≠ 0 ∧ distance frame c ≤ distance frame g.lastFrame)
    {c : ℕ} (hc : g.firstFrame ≤ c) (hc' : c ≤ g.lastFrame) (hne : g.freesIn c ≠ 0) :
    ∃ c', g.firstFrame < c' ∧ c' < g.lastFrame ∧ g.freesIn c' ≠ 0 ∧
      (c' = c ∨ distance frame c' < distance frame c ∨
        c = g.lastFrame ∧ distance frame c' ≤ distance frame c) := by
  rcases Nat.eq_or_lt_of_le hc with rfl | hlt
  · obtain ⟨c', h1, h2, h3, h4⟩ := hstart hne
    exact ⟨c', h1, h2, h3, Or.inr (Or.inl h4)⟩
  · rcases Nat.eq_or_lt_of_le hc' with rfl | hlt'
    · obtain ⟨c', h1, h2, h3, h4⟩ := hend hne
      exact ⟨c', h1, h2, h3, Or.inr (Or.inr ⟨rfl, h4⟩)⟩
    · exact ⟨c, hlt, hlt', hne, Or.inl rfl⟩

/-- The closest of the frames strictly inside is the closest of all if the ends are no better. -/
theorem IsClosestInside.isClosest (h : g.IsClosestInside frame r)
    (hfirst : g.firstFrame < frame.toNat) (hlast : frame.toNat < g.lastFrame)
    (hstart : g.freesIn g.firstFrame ≠ 0 → ∃ c, g.firstFrame < c ∧ c < g.lastFrame ∧
      g.freesIn c ≠ 0 ∧ distance frame c < distance frame g.firstFrame)
    (hend : g.freesIn g.lastFrame ≠ 0 → ∃ c, g.firstFrame < c ∧ c < g.lastFrame ∧
      g.freesIn c ≠ 0 ∧ distance frame c ≤ distance frame g.lastFrame) :
    g.IsClosest frame r := by
  have hr := h.first_lt
  have hr' := h.lt_last
  rcases h.closest with ⟨rfl, hnone⟩ | ⟨hne, hmin⟩
  · have hempty : ∀ c, g.firstFrame ≤ c → c ≤ g.lastFrame → g.freesIn c = 0 := by
      intro c hc hc'
      by_contra hnec
      obtain ⟨c', h1, h2, h3, -⟩ := exists_inside hstart hend hc hc' hnec
      exact h3 (hnone c' h1 h2)
    refine ⟨?_, iff_of_true rfl (Or.inl hempty)⟩
    rintro ⟨c, hc, hc', hnec⟩
    exact absurd (hempty c hc hc') hnec
  · refine ⟨fun _ => ⟨hr.le, hr'.le, hne, fun c hc hc' hnec => ?_⟩, ?_, ?_⟩
    · obtain ⟨c', h1, h2, h3, hcase⟩ := exists_inside hstart hend hc hc' hnec
      have hclosest := hmin c' h1 h2 h3
      rcases hcase with rfl | hcloser | ⟨rfl, hcloser⟩
      · exact hclosest
      · omega
      · omega
    · rintro rfl
      exact Or.inr hne
    · rintro (hzero | hpicked)
      · exact absurd (hzero _ hr.le hr'.le) hne
      · -- the picked frame is at distance 0
        have hclosest := (hmin _ hfirst hlast hpicked).1
        rw [distance, distance] at hclosest
        apply UInt64.toNat_inj.1
        omega

end Ends

/-- **When the search finds the closest frame.**  It does not look at the ends of the window, so
that a frame with frees strictly inside must be closer than the first frame, if that one has frees,
and at least as close as the last frame, if that one has. -/
theorem isClosest_getClosestGcFrame {frame : UInt64} (hfirst : 0 ≤ g.firstVisibleFrame)
    (hle : g.firstVisibleFrame ≤ g.lastVisibleFrame)
    (hlen : (g.freesCount.length : ℤ) =
      g.lastVisibleFrame.toInt - g.firstVisibleFrame.toInt + 1)
    (h1 : toUint64 g.firstVisibleFrame < frame) (h2 : frame < toUint64 g.lastVisibleFrame) :
    (∃ r, g.getClosestGcFrame frame = some r ∧ g.IsClosest frame r) ↔
      (g.freesIn g.firstFrame ≠ 0 → ∃ c, g.firstFrame < c ∧ c < g.lastFrame ∧
        g.freesIn c ≠ 0 ∧ distance frame c < distance frame g.firstFrame) ∧
      (g.freesIn g.lastFrame ≠ 0 → ∃ c, g.firstFrame < c ∧ c < g.lastFrame ∧
        g.freesIn c ≠ 0 ∧ distance frame c ≤ distance frame g.lastFrame) := by
  have hlength : g.lastFrame ≤ g.firstFrame + g.freesCount.length := by
    rw [Int32.le_iff_toInt_le] at hfirst hle
    have hzero : (0 : Int32).toInt = 0 := by decide
    have hfirst64 := toNat_toUint64 g.firstVisibleFrame
    have hlast64 := toNat_toUint64 g.lastVisibleFrame
    rw [if_pos (by omega)] at hfirst64 hlast64
    rw [firstFrame, lastFrame]
    omega
  obtain ⟨r, hget, hinside⟩ := isClosestInside_getClosestGcFrame h1 h2 hlength
  rw [UInt64.lt_iff_toNat_lt] at h1 h2
  constructor
  · rintro ⟨r', hr', hclosest⟩
    rw [hget, Option.some.injEq] at hr'
    subst hr'
    exact hclosest.ends hinside.first_lt hinside.lt_last
  · rintro ⟨hstart, hend⟩
    exact ⟨r, hget, hinside.isClosest h1 h2 hstart hend⟩

/-- Frees in the first two frames, of four. -/
def twoFrees : GraphsData :=
  { freesCount := [1, 1, 0, 0], firstVisibleFrame := 0, lastVisibleFrame := 3 }

theorem isClosest_getClosestGcFrame_twoFrees :
    (∃ r, twoFrees.getClosestGcFrame 2 = some r ∧ twoFrees.IsClosest 2 r) ↔
      (twoFrees.freesIn twoFrees.firstFrame ≠ 0 → ∃ c, twoFrees.firstFrame < c ∧
        c < twoFrees.lastFrame ∧ twoFrees.freesIn c ≠ 0 ∧
          distance 2 c < distance 2 twoFrees.firstFrame) ∧
      (twoFrees.freesIn twoFrees.lastFrame ≠ 0 → ∃ c, twoFrees.firstFrame < c ∧
        c < twoFrees.lastFrame ∧ twoFrees.freesIn c ≠ 0 ∧
          distance 2 c ≤ distance 2 twoFrees.lastFrame) :=
  isClosest_getClosestGcFrame (by decide) (by decide) (by decide) (by decide) (by decide)

/-- Frees in the first frame only, of three. -/
def freesAtStart : GraphsData :=
  { freesCount := [1, 0, 0], firstVisibleFrame := 0, lastVisibleFrame := 2 }

/-- The picked frame is returned, although it has no frees and the one before it has. -/
theorem first_frame_skipped : freesAtStart.getClosestGcFrame 1 = some 1 ∧
    ¬freesAtStart.IsClosest 1 1 := by
  refine ⟨by decide, fun h => ?_⟩
  obtain ⟨-, -, hne, -⟩ := h.nearest ⟨0, by decide, by decide, by decide⟩
  exact hne (by decide)

end Closest

/-! ### The last point of the sizes -/

/-- The last point of the sizes, in every window that has frame `f`. -/
def EndsAt (data : Recorder) (f size : UInt64) : Prop :=
  ∀ (g : GraphsData) (fromFrame toFrame : Int32), 0 ≤ fromFrame.toInt → fromFrame.toInt ≤ f.toNat →
    (f.toNat : ℤ) ≤ toFrame.toInt → ∃ g', g.updateRegion data fromFrame toFrame = some g' ∧
      g'.sizePoints.getLast? = some size

/-- It is the size in the last row, also when the window ends later. -/
theorem endsAt_of_lookup {data : Recorder} {st : Storage} (hdb : data.db = some st) {f : UInt64}
    {row : StatsRow} (hrow : st.db.frameStats.lookup (DbValue.uint64 f).bind = some row)
    (hlatest : ∀ g : UInt64, f < g → (DbValue.uint64 g).bind ∉ st.db.frameStats) :
    EndsAt data f (getUint64 (some row.size)) := by
  intro g fromFrame toFrame h0 h1 h2
  have hfrom : ((toUint64 fromFrame).toNat : ℤ) = _ := (toNat_toUint64 _).trans (if_pos h0)
  have hto : ((toUint64 toFrame).toNat : ℤ) = _ :=
    (toNat_toUint64 _).trans (if_pos (h0.trans (h1.trans h2)))
  have hbound := Int32.toInt_lt toFrame
  have hf : Int64.ofNat f.toNat = (DbValue.uint64 f).bind := by
    rw [← bind_uint64_ofNat, UInt64.ofNat_toNat]
  have hmem : Int64.ofNat f.toNat ∈ st.db.frameStats := hf ▸ Dict.mem_iff_lookup.2 ⟨row, hrow⟩
  have hlater : ∀ n, f.toNat < n → n < 2 ^ 64 → Int64.ofNat n ∉ st.db.frameStats := by
    intro n hn hn'
    rw [← bind_uint64_ofNat]
    refine hlatest _ (UInt64.lt_iff_toNat_lt.2 ?_)
    rwa [UInt64.toNat_ofNat_of_lt' hn']
  have hhas : HasRow st.db.frameStats (toUint64 fromFrame) (toUint64 toFrame) := by
    refine ⟨_, hf ▸ hmem, ?_⟩
    rw [getUint64_bind, UInt64.le_iff_toNat_le, UInt64.le_iff_toNat_le]
    omega
  obtain ⟨l, hl, ⟨-, hends, -⟩ | ⟨-, s, hs, hfilled⟩⟩ := getStats_of_rows hdb
    (UInt64.le_iff_toNat_le.2 (by omega)) (.inl (by omega)) (by omega) hhas
  · omega
  · have hlf : l = f.toNat := by
      by_contra hne
      rcases Nat.lt_or_gt_of_ne hne with hlt | hlt
      · exact hl.notMem _ hlt (by omega) hmem
      · have := hl.le_last
        exact hlater l hlt (by omega) hl.mem
    obtain ⟨m, hm⟩ : ∃ m, m = max (l - (toUint64 fromFrame).toNat)
      (min (toUint64 toFrame).toNat data.maxFrame.toNat - (toUint64 fromFrame).toNat) := ⟨_, rfl⟩
    have hlast := Filled.getLast? (n := m) (by convert hfilled using 1; omega)
    refine ⟨_, by rw [updateRegion, hs, Option.map_some], ?_⟩
    have hquiet : sizeAt st.db ((toUint64 fromFrame).toNat + m) = sizeAt st.db f.toNat := by
      rcases Nat.eq_or_lt_of_le (show f.toNat ≤ (toUint64 fromFrame).toNat + m by omega) with
        heq | hlt
      · rw [← heq]
      · exact (quiet_of_noRow (.inl (by omega)) (fun n hn hn' => hlater n hn (by omega)) _ hlt
          (Nat.lt_succ_self _)).2.2
    rw [hlast, hquiet, sizeAt_of_lookup (hf ▸ hrow)]

end GraphsData

end Owlcat
