import OwlcatMonoProfiler.Client.FrameStats

/-!
# Nested windows

Zooming in asks `get_stats` for a part of a window it was asked for before.

* `HasRow`: a window with events; `IsLastRow`: the last frame with events of a window;
* `getStats_of_rows`: what `get_stats` returns for a window with events, in either half of the
  64-bit numbers;
* `IsSlice`: the entries of some of the frames;
* `getStats_slice_iff`: the narrow window shows a slice of the wide one exactly when it has events
  itself, none of them later than the last frame of the trace.
-/

namespace Owlcat

/-- Some row is for a frame of the window. -/
def HasRow (table : Dict Int64 StatsRow) (fromFrame toFrame : UInt64) : Prop :=
  ∃ k ∈ table, fromFrame ≤ getUint64 (some k) ∧ getUint64 (some k) ≤ toFrame

/-- The last frame of a window with a row. -/
structure IsLastRow (table : Dict Int64 StatsRow) (first last l : ℕ) : Prop where
  mem : Int64.ofNat l ∈ table
  first_le : first ≤ l
  le_last : l ≤ last
  notMem : ∀ g, l < g → g ≤ last → Int64.ofNat g ∉ table

/-- The entries of `count` frames, without those of `skip` frames before them. -/
structure IsSlice (s : Stats) (skip count : ℕ) (t : Stats) : Prop where
  allocCounts : t.allocCounts = (s.allocCounts.drop skip).take count
  freeCounts : t.freeCounts = (s.freeCounts.drop skip).take count
  sizePoints : t.sizePoints = (s.sizePoints.drop skip).take count

/-! ### The rows of a window -/

theorem ofNat_getUint64 (k : Int64) : Int64.ofNat (getUint64 (some k)).toNat = k := by
  rw [← bind_uint64_ofNat, UInt64.ofNat_toNat, bind_getUint64]

theorem OneHalf.exists_storedAt {first last : ℕ} (h : OneHalf first last) :
    ∃ offset, StoredAt offset first last := by
  rcases h with h | ⟨h, h'⟩
  · exact ⟨0, Or.inl ⟨rfl, h⟩⟩
  · exact ⟨2 ^ 64, Or.inr ⟨rfl, h, by omega⟩⟩

theorem OneHalf.lt {first last : ℕ} (h : OneHalf first last) : last < 2 ^ 64 := by
  unfold OneHalf at h
  omega

theorem OneHalf.mono {first first' last last' : ℕ} (h : OneHalf first last)
    (hfirst : first ≤ first') (hlast : last' ≤ last) : OneHalf first' last' := by
  unfold OneHalf at h ⊢
  omega

/-- The rows the query returns for a window that does not cross the middle. -/
theorem rowsAt_selectStats (db : Database) {offset first last : ℕ}
    (hat : StoredAt offset first last) (hle : first ≤ last) :
    RowsAt offset db first last (db.selectStats (UInt64.ofNat first) (UInt64.ofNat last)) := by
  obtain ⟨hsorted, hmem⟩ := selectStats_spec db (UInt64.ofNat first) (UInt64.ofNat last)
  refine ⟨hsorted, fun e => ?_⟩
  have hfirst := hat.toInt_ofNat le_rfl hle
  have hlast := hat.toInt_ofNat hle le_rfl
  rw [hmem, bind_uint64_ofNat, bind_uint64_ofNat]
  refine and_congr_right fun _ => ?_
  omega

/-- SQLite compares frames as signed numbers. -/
theorem toInt_eq_ite (k : Int64) : k.toInt = if (getUint64 (some k)).toNat < 2 ^ 63
    then ((getUint64 (some k)).toNat : ℤ) else (getUint64 (some k)).toNat - 2 ^ 64 := by
  have hlt := UInt64.toNat_lt (getUint64 (some k))
  conv_lhs => rw [← ofNat_getUint64 k]
  rw [toInt_ofNat_eq_ite, Nat.mod_eq_of_lt hlt]

theorem mem_selectStats {db : Database} {fromFrame toFrame : UInt64} {e : StatsEntry} :
    e ∈ db.selectStats fromFrame toFrame ↔ db.frameStats.lookup e.1 = some e.2 ∧
      (DbValue.uint64 fromFrame).bind.toInt ≤ e.1.toInt ∧
        e.1.toInt ≤ (DbValue.uint64 toFrame).bind.toInt :=
  (selectStats_spec db fromFrame toFrame).2 e

/-- That makes no difference in a window that does not cross the middle. -/
theorem toInt_window {fromFrame toFrame : UInt64} (hle : fromFrame ≤ toFrame)
    (hhalf : OneHalf fromFrame.toNat toFrame.toNat) (k : Int64) :
    (DbValue.uint64 fromFrame).bind.toInt ≤ k.toInt ∧
        k.toInt ≤ (DbValue.uint64 toFrame).bind.toInt ↔
      fromFrame ≤ getUint64 (some k) ∧ getUint64 (some k) ≤ toFrame := by
  have hk := UInt64.toNat_lt (getUint64 (some k))
  unfold OneHalf at hhalf
  rw [UInt64.le_iff_toNat_le] at hle
  rw [UInt64.le_iff_toNat_le, UInt64.le_iff_toNat_le, toInt_eq_ite k, toInt_eq_ite,
    getUint64_bind, toInt_eq_ite, getUint64_bind]
  split_ifs <;> omega

theorem selectStats_ne_nil {db : Database} {fromFrame toFrame : UInt64}
    (hle : fromFrame ≤ toFrame) (hhalf : OneHalf fromFrame.toNat toFrame.toNat) :
    db.selectStats fromFrame toFrame ≠ [] ↔ HasRow db.frameStats fromFrame toFrame := by
  have hbounds := toInt_window hle hhalf
  constructor
  · intro hne
    obtain ⟨e, he⟩ := List.exists_mem_of_ne_nil _ hne
    obtain ⟨hrow, hin⟩ := mem_selectStats.1 he
    exact ⟨e.1, Dict.mem_iff_lookup.2 ⟨e.2, hrow⟩, (hbounds e.1).1 hin⟩
  · rintro ⟨k, hk, hin⟩
    obtain ⟨row, hrow⟩ := Dict.mem_iff_lookup.1 hk
    apply List.ne_nil_of_mem
    exact mem_selectStats (e := ⟨k, row⟩).2 ⟨hrow, (hbounds k).2 hin⟩

/-- A window that crosses the middle has no rows for SQLite. -/
theorem oneHalf_of_selectStats_ne_nil {db : Database} {fromFrame toFrame : UInt64}
    (h : db.selectStats fromFrame toFrame ≠ []) :
    OneHalf fromFrame.toNat toFrame.toNat := by
  obtain ⟨e, he⟩ := List.exists_mem_of_ne_nil _ h
  obtain ⟨-, h1, h2⟩ := mem_selectStats.1 he
  have hbounds := h1.trans h2
  have hto := UInt64.toNat_lt toFrame
  rw [toInt_eq_ite, getUint64_bind, toInt_eq_ite, getUint64_bind] at hbounds
  unfold OneHalf
  split_ifs at hbounds <;> omega

/-! ### What `get_stats` returns -/

section Result

variable {d : Recorder} {st : Storage} {fromFrame toFrame : UInt64}

theorem getStats_eq_bind (hdb : d.db = some st) : d.getStats fromFrame toFrame =
    ((st.db.selectStats fromFrame toFrame).foldlM
      (StatsLoop.row fromFrame (sizeAt st.db fromFrame.toNat))
      { prevFrame := fromFrame }).bind fun s => s.fillEnd toFrame d.maxFrame := by
  simp only [Recorder.getStats, hdb, sizeAt, UInt64.ofNat_toNat]

theorem getStats_of_noRow (hdb : d.db = some st)
    (h : st.db.selectStats fromFrame toFrame = []) : d.getStats fromFrame toFrame = some {} := by
  rw [getStats_eq_bind hdb, h]
  show StatsLoop.fillEnd { prevFrame := fromFrame } toFrame d.maxFrame = some {}
  unfold StatsLoop.fillEnd
  split_ifs
  · rfl
  · rfl

/-- A row after the largest number the counter can have is taken for one after a gap, although there
is no entry yet. -/
theorem StatsLoop.row_eq_none {size : UInt64} {e : StatsEntry}
    (hfrom : fromFrame.toNat + 1 = 2 ^ 64) (he : 0 < (getUint64 (some e.1)).toNat) :
    StatsLoop.row fromFrame size { prevFrame := fromFrame } e = none := by
  have hfrom' : fromFrame = 0xFFFFFFFFFFFFFFFF := UInt64.toNat_inj.1 (by
    rw [show (0xFFFFFFFFFFFFFFFF : UInt64).toNat = 2 ^ 64 - 1 by rfl]
    omega)
  have hlast : ¬getUint64 (some e.1) > fromFrame := by
    have hlt := UInt64.toNat_lt (getUint64 (some e.1))
    rw [gt_iff_lt, UInt64.lt_iff_toNat_lt]
    omega
  have hgap : getUint64 (some e.1) > fromFrame + 1 := by
    rw [hfrom', gt_iff_lt, UInt64.lt_iff_toNat_lt]
    exact he
  rw [StatsLoop.row, StatsLoop.fillGap, if_neg fun h => hlast h.2, if_pos hgap]
  rfl

theorem getStats_eq_none (hdb : d.db = some st) (hfrom : fromFrame.toNat + 1 = 2 ^ 64)
    (h : st.db.selectStats fromFrame fromFrame ≠ []) : d.getStats fromFrame fromFrame = none := by
  obtain ⟨e, rows, hrows⟩ := List.exists_cons_of_ne_nil h
  obtain ⟨-, h1, h2⟩ := mem_selectStats.1 (hrows ▸ List.mem_cons_self : e ∈ _)
  have he : e.1 = (DbValue.uint64 fromFrame).bind := Int64.toInt_inj.1 (le_antisymm h2 h1)
  rw [getStats_eq_bind hdb, hrows, List.foldlM_cons, StatsLoop.row_eq_none hfrom]
  · rfl
  · rw [he, getUint64_bind]
    omega

/-- The last loop does not end when its counter never exceeds the bounds. -/
theorem Reached.fillEnd_eq_none {db : Database} {first n : ℕ} {maxFrame : UInt64} {s : StatsLoop}
    (h : Reached db first n s) (hn : 0 < n) (hlt : first + n ≤ toFrame.toNat)
    (hends : min toFrame.toNat maxFrame.toNat + 1 = 2 ^ 64) :
    s.fillEnd toFrame maxFrame = none := by
  obtain ⟨m, rfl⟩ : ∃ m, n = m + 1 := ⟨n - 1, by omega⟩
  have hto := UInt64.toNat_lt toFrame
  have hprev : s.prevFrame < toFrame := by
    have hlt64 : first + (m + 1 - 1) < 2 ^ 64 := by omega
    rw [h.prevFrame, UInt64.lt_iff_toNat_lt, UInt64.toNat_ofNat_of_lt' hlt64]
    omega
  have hback := h.filled.getLast?
  unfold StatsLoop.fillEnd
  rw [if_pos hprev, hback]
  exact if_pos (by omega)

/-- **A window with events**: each frame has an entry, from the first one on up to the end of the
window or of the trace, but at least up to the last row. -/
theorem getStats_of_rows (hdb : d.db = some st) (hle : fromFrame ≤ toFrame)
    (hhalf : OneHalf fromFrame.toNat toFrame.toNat) (hfrom : fromFrame.toNat + 1 < 2 ^ 64)
    (hrow : HasRow st.db.frameStats fromFrame toFrame) :
    ∃ l, IsLastRow st.db.frameStats fromFrame.toNat toFrame.toNat l ∧
      (l < toFrame.toNat ∧ min toFrame.toNat d.maxFrame.toNat + 1 = 2 ^ 64 ∧
          d.getStats fromFrame toFrame = none ∨
        (l < toFrame.toNat → min toFrame.toNat d.maxFrame.toNat + 1 < 2 ^ 64) ∧
          ∃ t, d.getStats fromFrame toFrame = some t ∧
            Filled st.db fromFrame.toNat (max (l - fromFrame.toNat + 1)
              (min toFrame.toNat d.maxFrame.toNat + 1 - fromFrame.toNat)) t) := by
  obtain ⟨first, hfirst⟩ : ∃ first, fromFrame.toNat = first := ⟨_, rfl⟩
  obtain ⟨last, hlast⟩ : ∃ last, toFrame.toNat = last := ⟨_, rfl⟩
  have hfromEq : fromFrame = UInt64.ofNat first := by rw [← hfirst, UInt64.ofNat_toNat]
  have htoEq : toFrame = UInt64.ofNat last := by rw [← hlast, UInt64.ofNat_toNat]
  have hne := (selectStats_ne_nil hle hhalf).2 hrow
  rw [getStats_eq_bind hdb]
  rw [UInt64.le_iff_toNat_le] at hle
  rw [hfirst, hlast] at hhalf hle ⊢
  rw [hfirst] at hfrom
  have hlt := hhalf.lt
  obtain ⟨offset, hat⟩ := hhalf.exists_storedAt
  have hrows : RowsAt offset st.db (first + 0) last (st.db.selectStats fromFrame toFrame) := by
    rw [hfromEq, htoEq]
    exact rowsAt_selectStats _ hat hle
  have hstart : Reached st.db first 0 { prevFrame := fromFrame } :=
    ⟨⟨rfl, rfl, rfl⟩, rfl, hfromEq⟩
  obtain ⟨s, n, hfold, hreached, hnil, hle', hlastRow⟩ :=
    hstart.rows hrows hat hfrom hlt fun h => absurd h (lt_irrefl 0)
  obtain ⟨hn, hmem⟩ : 0 < n ∧ Int64.ofNat (first + (n - 1)) ∈ st.db.frameStats := by
    rcases hlastRow with ⟨hnil, -⟩ | hlastRow
    · exact absurd hnil hne
    · exact hlastRow
  have hbound := hle' hn
  rw [← hfromEq] at hfold
  rw [hfold, Option.bind_some]
  refine ⟨first + (n - 1), ⟨hmem, by omega, by omega, fun g hg hg' => ?_⟩, ?_⟩
  · -- a later row would be among those that are left
    exact hnil.notMem hat (by omega) (by omega) hg'
  · by_cases hends : first + n ≤ last ∧ min last d.maxFrame.toNat + 1 = 2 ^ 64
    · refine Or.inl ⟨by omega, hends.2, ?_⟩
      apply hreached.fillEnd_eq_none hn
      · omega
      · rw [hlast]
        exact hends.2
    · refine Or.inr ⟨fun _ => ?_, ?_⟩
      · omega
      · have hquiet := hnil.quiet hat hn
        obtain ⟨t, hend, hfilled, -⟩ := hreached.fillEnd toFrame d.maxFrame hn
          (by omega) (by omega) fun g hg hg' => hquiet g hg (by omega)
        refine ⟨t, hend, ?_⟩
        rw [show first + (n - 1) - first + 1 = n by omega, ← hlast]
        exact hfilled

/-- What it means that `get_stats` returned, for a window with events. -/
theorem filled_of_getStats (hdb : d.db = some st) (hle : fromFrame ≤ toFrame) {s : Stats}
    (hs : d.getStats fromFrame toFrame = some s)
    (hrows : st.db.selectStats fromFrame toFrame ≠ []) :
    fromFrame.toNat + 1 < 2 ^ 64 ∧ HasRow st.db.frameStats fromFrame toFrame ∧
      ∃ l, IsLastRow st.db.frameStats fromFrame.toNat toFrame.toNat l ∧
        (l < toFrame.toNat → min toFrame.toNat d.maxFrame.toNat + 1 < 2 ^ 64) ∧
        Filled st.db fromFrame.toNat (max (l - fromFrame.toNat + 1)
          (min toFrame.toNat d.maxFrame.toNat + 1 - fromFrame.toNat)) s := by
  have hhalf := oneHalf_of_selectStats_ne_nil hrows
  have hrow := (selectStats_ne_nil hle hhalf).1 hrows
  have hto := UInt64.toNat_lt toFrame
  have hfrom : fromFrame.toNat + 1 < 2 ^ 64 := by
    by_contra hlast
    rw [UInt64.le_iff_toNat_le] at hle
    have heq : toFrame = fromFrame := UInt64.toNat_inj.1 (by omega)
    subst heq
    rw [getStats_eq_none hdb (by omega) hrows] at hs
    cases hs
  refine ⟨hfrom, hrow, ?_⟩
  obtain ⟨l, hl, ⟨-, -, hnone⟩ | ⟨hends, t, ht, hfilled⟩⟩ :=
    getStats_of_rows hdb hle hhalf hfrom hrow
  · rw [hnone] at hs
    cases hs
  · rw [hs, Option.some.injEq] at ht
    subst ht
    exact ⟨l, hl, hends, hfilled⟩

end Result

/-! ### A window in a window -/

theorem drop_take_map_range {f : ℕ → UInt64} {skip count n : ℕ} (h : skip + count ≤ n) :
    (((List.range n).map f).drop skip).take count =
      (List.range count).map fun i => f (skip + i) := by
  apply List.ext_getElem
  · simp only [List.length_take, List.length_drop, List.length_map, List.length_range]
    omega
  · intro i h1 h2
    simp only [List.getElem_take, List.getElem_drop, List.getElem_map, List.getElem_range]

/-- Vectors that describe a later range of frames are a slice when they have as many entries. -/
theorem Filled.isSlice_iff {db : Database} {first n skip n' count : ℕ} {s t : Stats}
    (h : Filled db first n s) (h' : Filled db (first + skip) n' t) (hle : skip + count ≤ n) :
    IsSlice s skip count t ↔ n' = count := by
  constructor
  · intro hslice
    have hlength := congrArg List.length hslice.sizePoints
    rw [h'.sizePoints, h.sizePoints, drop_take_map_range hle, List.length_map, List.length_map,
      List.length_range, List.length_range] at hlength
    exact hlength
  · rintro rfl
    constructor
    · rw [h'.allocCounts, h.allocCounts, drop_take_map_range hle]
      simp only [Nat.add_assoc]
    · rw [h'.freeCounts, h.freeCounts, drop_take_map_range hle]
      simp only [Nat.add_assoc]
    · rw [h'.sizePoints, h.sizePoints, drop_take_map_range hle]
      simp only [Nat.add_assoc]

/-- Vectors without entries are no slice of vectors that have entries for its frames. -/
theorem Filled.not_isSlice_empty {db : Database} {first n skip count : ℕ} {s : Stats}
    (h : Filled db first n s) (hle : skip + count ≤ n) (hcount : 0 < count) :
    ¬IsSlice s skip count {} := by
  intro hslice
  have hempty : Filled db (first + skip) 0 ({} : Stats) := ⟨rfl, rfl, rfl⟩
  have := (h.isSlice_iff hempty hle).1 hslice
  omega

/-- The frames of the rows of a window are not after the last one. -/
theorem IsLastRow.le {table : Dict Int64 StatsRow} {fromFrame toFrame : UInt64} {l : ℕ} {k : Int64}
    (h : IsLastRow table fromFrame.toNat toFrame.toNat l) (hk : k ∈ table)
    (hto : getUint64 (some k) ≤ toFrame) : (getUint64 (some k)).toNat ≤ l := by
  by_contra hlt
  apply h.notMem (getUint64 (some k)).toNat (by omega) (UInt64.le_iff_toNat_le.1 hto)
  rwa [ofNat_getUint64]

/-- A window is a slice of a wider one exactly when it has events, and none of them is later than
the last frame of the trace.  (A window must not begin with the last 64-bit number either.) -/
theorem getStats_slice_iff {d : Recorder} {st : Storage} (hdb : d.db = some st)
    {fromFrame fromFrame2 toFrame2 toFrame : UInt64} (hfrom : fromFrame ≤ fromFrame2)
    (hle : fromFrame2 ≤ toFrame2) (hto : toFrame2 ≤ toFrame) (hmax : fromFrame2 ≤ d.maxFrame)
    {s : Stats} (hs : d.getStats fromFrame toFrame = some s) (hne : s.sizePoints ≠ []) :
    (∃ t, d.getStats fromFrame2 toFrame2 = some t ∧
      IsSlice s (fromFrame2.toNat - fromFrame.toNat)
        (min toFrame2.toNat d.maxFrame.toNat + 1 - fromFrame2.toNat) t) ↔
      HasRow st.db.frameStats fromFrame2 toFrame2 ∧
      (∀ k ∈ st.db.frameStats, fromFrame2 ≤ getUint64 (some k) → getUint64 (some k) ≤ toFrame2 →
        getUint64 (some k) ≤ d.maxFrame) ∧
      fromFrame2 ≠ 0xFFFFFFFFFFFFFFFF := by
  have hto64 := UInt64.toNat_lt toFrame
  have hwide : fromFrame ≤ toFrame := UInt64.le_trans hfrom (UInt64.le_trans hle hto)
  have hrows : st.db.selectStats fromFrame toFrame ≠ [] := by
    intro hnil
    rw [getStats_of_noRow hdb hnil, Option.some.injEq] at hs
    subst hs
    exact hne rfl
  have hhalf := oneHalf_of_selectStats_ne_nil hrows
  have hhalf2 := hhalf.mono (UInt64.le_iff_toNat_le.1 hfrom) (UInt64.le_iff_toNat_le.1 hto)
  obtain ⟨-, -, l, hl, hends, hfilled⟩ := filled_of_getStats hdb hwide hs hrows
  have hle' := UInt64.le_iff_toNat_le.1 hle
  rw [UInt64.le_iff_toNat_le] at hfrom hto hmax
  have hlast2 : fromFrame2 ≠ 0xFFFFFFFFFFFFFFFF ↔ fromFrame2.toNat + 1 < 2 ^ 64 := by
    rw [Ne, ← UInt64.toNat_inj, show (0xFFFFFFFFFFFFFFFF : UInt64).toNat = 2 ^ 64 - 1 by rfl]
    omega
  have hcount : fromFrame2.toNat - fromFrame.toNat +
      (min toFrame2.toNat d.maxFrame.toNat + 1 - fromFrame2.toNat) ≤ max (l - fromFrame.toNat + 1)
        (min toFrame.toNat d.maxFrame.toNat + 1 - fromFrame.toNat) := by
    omega
  have hskip : fromFrame.toNat + (fromFrame2.toNat - fromFrame.toNat) = fromFrame2.toNat := by
    omega
  rw [hlast2]
  constructor
  · rintro ⟨t, ht, hslice⟩
    have ht0 : st.db.selectStats fromFrame2 toFrame2 ≠ [] := by
      intro hnil
      rw [getStats_of_noRow hdb hnil, Option.some.injEq] at ht
      subst ht
      exact hfilled.not_isSlice_empty hcount (by omega) hslice
    obtain ⟨hstart2, hrow2, l2, hl2, -, hfilled2⟩ := filled_of_getStats hdb hle ht ht0
    rw [← hskip] at hfilled2
    have hlength := (hfilled.isSlice_iff hfilled2 hcount).1 hslice
    refine ⟨hrow2, fun k hk _ hkto => ?_, hstart2⟩
    have hkl := hl2.le hk hkto
    have := hl2.first_le
    rw [UInt64.le_iff_toNat_le]
    omega
  · rintro ⟨hrow2, hmax2, hstart2⟩
    obtain ⟨l2, hl2, hcase⟩ := getStats_of_rows hdb hle hhalf2 hstart2 hrow2
    have hl2lt : l2 < 2 ^ 64 := by
      have := hl2.le_last
      omega
    have hframe : getUint64 (some (Int64.ofNat l2)) = UInt64.ofNat l2 := getUint64_ofNat l2
    have hmaxl2 : l2 ≤ d.maxFrame.toNat := by
      have h1 := hl2.first_le
      have h2 := hl2.le_last
      have := hmax2 _ hl2.mem
      rw [hframe, UInt64.le_iff_toNat_le, UInt64.le_iff_toNat_le, UInt64.le_iff_toNat_le,
        UInt64.toNat_ofNat_of_lt' hl2lt] at this
      exact this h1 h2
    rcases hcase with ⟨hlt, hends2, -⟩ | ⟨-, t, ht, hfilled2⟩
    · -- then the wide window has the same end, and its last loop does not end either
      have heq : l = l2 := by
        have h1 := hl.le_last
        have h2 := hl2.first_le
        rcases Nat.lt_trichotomy l l2 with hlt | heq | hlt
        · exact absurd hl2.mem (hl.notMem l2 hlt (by omega))
        · exact heq
        · exact absurd hl.mem (hl2.notMem l hlt (by omega))
      omega
    · refine ⟨t, ht, ?_⟩
      rw [← hskip] at hfilled2
      apply (hfilled.isSlice_iff hfilled2 hcount).2
      have h1 := hl2.first_le
      have h2 := hl2.le_last
      omega

theorem getStats_slice_iff_sparse : ∃ st s, sparse.db = some st ∧
    sparse.getStats 1 6 = some s ∧ s.sizePoints ≠ [] ∧
    ((∃ t, sparse.getStats 3 4 = some t ∧ IsSlice s (3 - 1) (min 4 5 + 1 - 3) t) ↔
      HasRow st.db.frameStats 3 4 ∧
      (∀ k ∈ st.db.frameStats, 3 ≤ getUint64 (some k) → getUint64 (some k) ≤ 4 →
        getUint64 (some k) ≤ sparse.maxFrame) ∧ (3 : UInt64) ≠ 0xFFFFFFFFFFFFFFFF) := by
  have hsome : (sparse.getStats 1 6).map Stats.sizePoints = some [0, 8, 8, 24, 24] := by decide
  obtain ⟨s, hs, hpoints⟩ := Option.map_eq_some_iff.1 hsome
  have hne : s.sizePoints ≠ [] := by
    rw [hpoints]
    exact List.cons_ne_nil 0 _
  exact ⟨_, s, rfl, hs, hne, getStats_slice_iff rfl (by decide) (by decide) (by decide) (by decide)
    hs hne⟩

/-- The size stays what it is in a frame without events, but zooming in on it shows nothing. -/
theorem quiet_window_empty : ∃ s t, sparse.getStats 1 6 = some s ∧ s.sizePoints ≠ [] ∧
    (1 : UInt64) ≤ 3 ∧ (3 : UInt64) ≤ 6 ∧ (3 : UInt64) ≤ sparse.maxFrame ∧
    sparse.getStats 3 3 = some t ∧ ¬IsSlice s (3 - 1) (min 3 5 + 1 - 3) t := by
  have hwide : (sparse.getStats 1 6).map Stats.sizePoints = some [0, 8, 8, 24, 24] := by decide
  have hnarrow : (sparse.getStats 3 3).map Stats.sizePoints = some [] := by decide
  obtain ⟨s, hs, hpoints⟩ := Option.map_eq_some_iff.1 hwide
  obtain ⟨t, ht, hpoints'⟩ := Option.map_eq_some_iff.1 hnarrow
  refine ⟨s, t, hs, ?_, by decide, by decide, by decide, ht, fun hslice => ?_⟩
  · rw [hpoints]
    exact List.cons_ne_nil 0 _
  · have := hslice.sizePoints
    rw [hpoints, hpoints'] at this
    cases this

end Owlcat
