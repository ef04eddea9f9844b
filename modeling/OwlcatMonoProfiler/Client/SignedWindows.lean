import OwlcatMonoProfiler.Client.FrameWindows

/-!
# Windows that begin before frame 0

`graphs_data::update_region` passes an `int` for a `uint64_t`.  SQLite gets the same bits as a
signed number, so that it finds the rows of such a window, but `get_stats` takes a negative frame
for one that is later than all others.

* `toUint64`: the conversion;
* `SignedWindow.DescribesFrame`, `SignedWindow.Aligned`: what the entries should be;
* `IsAppend`, `Behind`: a loop that runs behind entries that are wrong appends what it appends
  without them;
* `SignedWindow.Flat`: nothing can be seen to be wrong, because nothing happens in the window;
* `SignedWindow.getStats_aligned_iff`: the windows for which the result is right.
-/

namespace Owlcat

/-- `uint64_t` from `int` -/
def toUint64 (frame : Int32) : UInt64 := frame.toInt64.toUInt64

namespace SignedWindow

/-- The size in the latest row before frame `f`, zero if there is none. -/
def LatestBefore (table : Dict Int64 StatsRow) (f : ℤ) (size : UInt64) : Prop :=
  (∃ k row, table.lookup k = some row ∧ k.toInt < f ∧
      (∀ k' ∈ table, k'.toInt < f → k'.toInt ≤ k.toInt) ∧ size = getUint64 (some row.size)) ∨
    (∀ k ∈ table, ¬k.toInt < f) ∧ size = 0

/-- The entries for frame `f`. -/
def DescribesFrame (table : Dict Int64 StatsRow) (f : ℤ) (allocs frees size : UInt64) : Prop :=
  match table.lookup (Int64.ofInt f) with
  | some row => allocs = getUint64 (some row.allocs) ∧ frees = getUint64 (some row.frees) ∧
      size = getUint64 (some row.size)
  | none => allocs = 0 ∧ frees = 0 ∧ LatestBefore table f size

/-- Each entry describes the frame with its index in the window. -/
structure Aligned (table : Dict Int64 StatsRow) (fromFrame : ℤ) (s : Stats) : Prop where
  freeCounts_length : s.freeCounts.length = s.allocCounts.length
  sizePoints_length : s.sizePoints.length = s.allocCounts.length
  entry : ∀ (i : ℕ) allocs frees size, s.allocCounts[i]? = some allocs →
    s.freeCounts[i]? = some frees → s.sizePoints[i]? = some size →
      DescribesFrame table (fromFrame + i) allocs frees size

/-- Nothing happens from frame 0 on: no row counts anything, and the size stays what it was. -/
def Flat (table : Dict Int64 StatsRow) (toFrame : ℤ) : Prop :=
  ∃ size, LatestBefore table 0 size ∧
    ∀ k row, table.lookup k = some row → 0 ≤ k.toInt → k.toInt ≤ toFrame →
      row.allocs = 0 ∧ row.frees = 0 ∧ getUint64 (some row.size) = size

end SignedWindow

/-! ### Signed frames -/

theorem bind_toUint64 (frame : Int32) : (DbValue.uint64 (toUint64 frame)).bind = frame.toInt64 :=
  Int64.toInt64_toUInt64 _

theorem toNat_toUint64 (frame : Int32) :
    ((toUint64 frame).toNat : ℤ) =
      if 0 ≤ frame.toInt then frame.toInt else frame.toInt + 2 ^ 64 := by
  have hlt := UInt64.toNat_lt (toUint64 frame)
  have hbind := toInt_eq_ite (DbValue.uint64 (toUint64 frame)).bind
  rw [getUint64_bind, bind_toUint64, Int32.toInt_toInt64] at hbind
  have h1 := Int32.toInt_lt frame
  have h2 := Int32.le_toInt frame
  split_ifs at hbind ⊢ <;> omega

namespace SignedWindow

theorem LatestBefore.unique {table : Dict Int64 StatsRow} {f : ℤ} {x y : UInt64}
    (hx : LatestBefore table f x) (hy : LatestBefore table f y) : x = y := by
  rcases hx with ⟨k, row, hrow, hlt, hmax, rfl⟩ | ⟨hnone, rfl⟩
  · have hk : k ∈ table := Dict.mem_iff_lookup.2 ⟨row, hrow⟩
    rcases hy with ⟨k', row', hrow', hlt', hmax', rfl⟩ | ⟨hnone, -⟩
    · have hk' : k' ∈ table := Dict.mem_iff_lookup.2 ⟨row', hrow'⟩
      have heq : k = k' := Int64.toInt_inj.1 (le_antisymm (hmax' k hk hlt) (hmax k' hk' hlt'))
      rw [← heq, hrow, Option.some.injEq] at hrow'
      rw [hrow']
    · exact absurd hlt (hnone k hk)
  · rcases hy with ⟨k', row', hrow', hlt', -⟩ | ⟨-, rfl⟩
    · exact absurd hlt' (hnone k' (Dict.mem_iff_lookup.2 ⟨row', hrow'⟩))
    · rfl

/-- Before a frame without a row, or up to it, there are the same rows. -/
theorem latestBefore_sizeAt {db : Database} {f : ℕ} {g : ℤ}
    (h : ∀ k ∈ db.frameStats, k.toInt ≤ (Int64.ofNat f).toInt ↔ k.toInt < g) :
    LatestBefore db.frameStats g (sizeAt db f) := by
  apply latest_or_none
  intro k hk
  rw [bind_uint64_ofNat, Int64.le_iff_toInt_le]
  exact h k hk

end SignedWindow

/-! ### Entries -/

/-- The entries that describe a frame. -/
def entryAt (db : Database) (f : ℕ) : UInt64 × UInt64 × UInt64 :=
  (columnAt db StatsRow.allocs f, columnAt db StatsRow.frees f, sizeAt db f)

/-- Frames are numbered modulo `2 ^ 64`. -/
theorem ofNat_add (f : ℕ) : Int64.ofNat (2 ^ 64 + f) = Int64.ofNat f := by
  rw [← Int64.toInt_inj, toInt_ofNat_eq_ite, toInt_ofNat_eq_ite, Nat.add_mod_left]

theorem entryAt_add (db : Database) (f : ℕ) : entryAt db (2 ^ 64 + f) = entryAt db f := by
  have h64' : UInt64.ofNat (2 ^ 64 + f) = UInt64.ofNat f := by
    rw [UInt64.ofNat_eq_iff_mod_eq_toNat, UInt64.toNat_ofNat', Nat.add_mod_left]
  unfold entryAt columnAt sizeAt
  rw [ofNat_add, h64']

theorem entryAt_of_lookup {db : Database} {f : ℕ} {row : StatsRow}
    (h : db.frameStats.lookup (Int64.ofNat f) = some row) : entryAt db f =
      (getUint64 (some row.allocs), getUint64 (some row.frees), getUint64 (some row.size)) := by
  rw [entryAt, columnAt_of_lookup h, columnAt_of_lookup h, sizeAt_of_lookup h]

theorem entryAt_of_noRow {db : Database} {f : ℕ} (h : Int64.ofNat f ∉ db.frameStats) :
    entryAt db f = (0, 0, sizeAt db f) := by
  rw [entryAt, columnAt_of_noRow h, columnAt_of_noRow h]

/-- The entries a frame should have are those with its number modulo `2 ^ 64`. -/
theorem SignedWindow.describesFrame_iff {db : Database} {f : ℕ} {allocs frees size : UInt64} :
    DescribesFrame db.frameStats (Int64.ofNat f).toInt allocs frees size ↔
      (allocs, frees, size) = entryAt db f := by
  unfold DescribesFrame
  rw [Int64.ofInt_toInt, Prod.mk.injEq, Prod.mk.injEq]
  cases hrow : db.frameStats.lookup (Int64.ofNat f) with
  | some row =>
    rw [entryAt_of_lookup hrow]
  | none =>
    have hno : Int64.ofNat f ∉ db.frameStats := AList.lookup_eq_none.1 hrow
    have hlatest : LatestBefore db.frameStats (Int64.ofNat f).toInt (sizeAt db f) := by
      apply latestBefore_sizeAt
      intro k hk
      have hne : k.toInt ≠ (Int64.ofNat f).toInt := fun heq => hno (Int64.toInt_inj.1 heq ▸ hk)
      omega
    rw [entryAt_of_noRow hno]
    refine and_congr_right fun _ => and_congr_right fun _ => ⟨fun h => h.unique hlatest, ?_⟩
    rintro rfl
    exact hlatest

/-! ### Behind other entries -/

namespace Stats

/-- The vectors of `s` are those of `q`, followed by those of `t`. -/
structure IsAppend (q t s : Stats) : Prop where
  allocCounts : s.allocCounts = q.allocCounts ++ t.allocCounts
  freeCounts : s.freeCounts = q.freeCounts ++ t.freeCounts
  sizePoints : s.sizePoints = q.sizePoints ++ t.sizePoints

variable {q t s : Stats}

theorem IsAppend.raise (h : IsAppend q t s) (allocs frees : UInt64) (size : Int64) :
    IsAppend q (t.raise allocs frees size) (s.raise allocs frees size) :=
  ⟨h.allocCounts, h.freeCounts, h.sizePoints⟩

theorem IsAppend.push (h : IsAppend q t s) (allocs frees size : UInt64) :
    IsAppend q (t.push allocs frees size) (s.push allocs frees size) := by
  constructor
  · rw [Stats.push, Stats.push, h.allocCounts, List.append_assoc]
  · rw [Stats.push, Stats.push, h.freeCounts, List.append_assoc]
  · rw [Stats.push, Stats.push, h.sizePoints, List.append_assoc]

theorem IsAppend.fill (h : IsAppend q t s) (n : ℕ) (size : UInt64) :
    IsAppend q (t.fill n size) (s.fill n size) := by
  constructor
  · rw [Stats.fill, Stats.fill, h.allocCounts, List.append_assoc]
  · rw [Stats.fill, Stats.fill, h.freeCounts, List.append_assoc]
  · rw [Stats.fill, Stats.fill, h.sizePoints, List.append_assoc]

end Stats

/-- Two loops that differ in entries that are there already. -/
structure Behind (q : Stats) (t s : StatsLoop) : Prop where
  isAppend : Stats.IsAppend q t.toStats s.toStats
  ne_nil : t.sizePoints ≠ []
  prevFrame : s.prevFrame = t.prevFrame
  firstFrame : s.firstFrame = false
  firstFrame' : t.firstFrame = false

namespace Behind

variable {q : Stats} {t s : StatsLoop}

theorem exists_back (h : Behind q t s) :
    ∃ back, t.sizePoints.getLast? = some back ∧ s.sizePoints.getLast? = some back := by
  refine ⟨t.sizePoints.getLast h.ne_nil, List.getLast?_eq_some_getLast h.ne_nil, ?_⟩
  rw [h.isAppend.sizePoints, List.getLast?_append_of_ne_nil _ h.ne_nil,
    List.getLast?_eq_some_getLast h.ne_nil]

theorem fillGap_later (s : StatsLoop) (hfirst : s.firstFrame = false)
    (fromFrame size frame : UInt64) (t : Stats) :
    s.fillGap fromFrame size frame t = if frame > s.prevFrame + 1
      then t.sizePoints.getLast?.map fun back => t.fill (frame.toNat - (s.prevFrame + 1).toNat) back
      else some t := by
  simp only [StatsLoop.fillGap, hfirst, Bool.false_eq_true, false_and, if_false]

/-- One row does the same to both. -/
theorem row (h : Behind q t s) {fromFrame size fromFrame' size' : UInt64} {e : StatsEntry}
    {t' : StatsLoop} (hrow : t.row fromFrame' size' e = some t') :
    ∃ s', s.row fromFrame size e = some s' ∧ Behind q t' s' := by
  obtain ⟨back, hback, hback'⟩ := h.exists_back
  have hraised :=
    h.isAppend.raise (getUint64 (some e.2.allocs)) (getUint64 (some e.2.frees)) e.2.size
  have hfilled : ∃ u v, t.fillGap fromFrame' size' (getUint64 (some e.1))
      (t.toStats.raise (getUint64 (some e.2.allocs)) (getUint64 (some e.2.frees)) e.2.size) =
        some u ∧
      s.fillGap fromFrame size (getUint64 (some e.1))
        (s.toStats.raise (getUint64 (some e.2.allocs)) (getUint64 (some e.2.frees)) e.2.size) =
          some v ∧ Stats.IsAppend q u v := by
    rw [fillGap_later t h.firstFrame', fillGap_later s h.firstFrame, h.prevFrame]
    by_cases hgap : getUint64 (some e.1) > t.prevFrame + 1
    · rw [if_pos hgap, if_pos hgap]
      refine ⟨_, _, ?_, ?_,
        hraised.fill ((getUint64 (some e.1)).toNat - (t.prevFrame + 1).toNat) back⟩
      · exact Option.map_eq_some_iff.2 ⟨back, hback, rfl⟩
      · exact Option.map_eq_some_iff.2 ⟨back, hback', rfl⟩
    · rw [if_neg hgap, if_neg hgap]
      exact ⟨_, _, rfl, rfl, hraised⟩
  obtain ⟨u, v, hu, hv, happend⟩ := hfilled
  simp only [StatsLoop.row, hu, Option.map_some, Option.some.injEq] at hrow
  subst hrow
  refine ⟨{ v.push (getUint64 (some e.2.allocs)) (getUint64 (some e.2.frees))
      (getUint64 (some e.2.size)) with prevFrame := getUint64 (some e.1), firstFrame := false },
    ?_, ?_, ?_, rfl, rfl, rfl⟩
  · simp only [StatsLoop.row, hv, Option.map_some]
  · exact happend.push _ _ _
  · exact List.append_ne_nil_of_right_ne_nil _ (List.cons_ne_nil _ _)

theorem rows (h : Behind q t s) (fromFrame size : UInt64) {fromFrame' size' : UInt64}
    {rows : List StatsEntry} {t' : StatsLoop}
    (hrows : rows.foldlM (StatsLoop.row fromFrame' size') t = some t') :
    ∃ s', rows.foldlM (StatsLoop.row fromFrame size) s = some s' ∧ Behind q t' s' := by
  induction rows generalizing t s with
  | nil =>
    cases hrows
    exact ⟨s, rfl, h⟩
  | cons e rows ih =>
    rw [List.foldlM_cons] at hrows
    obtain ⟨t₁, ht₁, hrows⟩ := Option.bind_eq_some_iff.1 hrows
    obtain ⟨s₁, hs₁, h₁⟩ := h.row ht₁
    obtain ⟨s', hs', h'⟩ := ih h₁ hrows
    refine ⟨s', ?_, h'⟩
    rw [List.foldlM_cons, hs₁]
    exact hs'

theorem fillEnd (h : Behind q t s) {toFrame maxFrame : UInt64} {u : Stats}
    (hend : t.fillEnd toFrame maxFrame = some u) :
    ∃ v, s.fillEnd toFrame maxFrame = some v ∧ Stats.IsAppend q u v := by
  obtain ⟨back, hback, hback'⟩ := h.exists_back
  unfold StatsLoop.fillEnd at hend ⊢
  rw [hback] at hend
  rw [hback', h.prevFrame]
  by_cases hlt : t.prevFrame < toFrame
  · rw [if_pos hlt] at hend ⊢
    simp only at hend ⊢
    by_cases hlast : min toFrame.toNat maxFrame.toNat = 2 ^ 64 - 1
    · rw [if_pos hlast] at hend
      cases hend
    · rw [if_neg hlast, Option.some.injEq] at hend
      rw [if_neg hlast, ← hend]
      exact ⟨_, rfl, h.isAppend.fill _ _⟩
  · rw [if_neg hlt, Option.some.injEq] at hend
    rw [if_neg hlt, ← hend]
    exact ⟨_, rfl, h.isAppend⟩

end Behind

/-! ### Entries that are not where they should be -/

theorem Filled.signedAligned {db : Database} {first n : ℕ} {s : Stats} {F : ℤ}
    (h : Filled db first n s) (hF : ∀ i, i < n → (Int64.ofNat (first + i)).toInt = F + i) :
    SignedWindow.Aligned db.frameStats F s := by
  refine ⟨?_, ?_, fun i allocs frees size ha hf hs => ?_⟩
  · rw [h.freeCounts, h.allocCounts, List.length_map, List.length_map]
  · rw [h.sizePoints, h.allocCounts, List.length_map, List.length_map]
  · have hi : i < n := by
      obtain ⟨hlt, -⟩ := List.getElem?_eq_some_iff.1 ha
      rwa [h.allocCounts, List.length_map, List.length_range] at hlt
    rw [h.allocCounts, List.getElem?_map, List.getElem?_range hi, Option.map_some,
      Option.some.injEq] at ha
    rw [h.freeCounts, List.getElem?_map, List.getElem?_range hi, Option.map_some,
      Option.some.injEq] at hf
    rw [h.sizePoints, List.getElem?_map, List.getElem?_range hi, Option.map_some,
      Option.some.injEq] at hs
    rw [← hF i hi, SignedWindow.describesFrame_iff, ← ha, ← hf, ← hs]
    rfl

theorem map_range_append {g : ℕ → UInt64} {a b m n : ℕ}
    (h : ∀ i, i < n → g (b + i) = g (a + m + i)) :
    ((List.range m).map fun i => g (a + i)) ++ ((List.range n).map fun i => g (b + i)) =
      (List.range (m + n)).map fun i => g (a + i) := by
  rw [List.range_add, List.map_append, List.map_map, List.append_cancel_left_eq]
  refine List.map_congr_left fun i hi => ?_
  rw [h i (List.mem_range.1 hi), Nat.add_assoc]
  rfl

section Shifted

variable {db : Database} {first m p n : ℕ} {q v w : Stats}

/-- Where the entries of other frames happen to be the same, nothing is wrong. -/
theorem Filled.append (hq : Filled db first m q) (hv : Filled db p n v)
    (hw : Stats.IsAppend q v w)
    (h : ∀ i, i < n → entryAt db (p + i) = entryAt db (first + m + i)) :
    Filled db first (m + n) w := by
  constructor
  · rw [hw.allocCounts, hq.allocCounts, hv.allocCounts]
    exact map_range_append fun i hi => congrArg Prod.fst (h i hi)
  · rw [hw.freeCounts, hq.freeCounts, hv.freeCounts]
    exact map_range_append fun i hi => congrArg (fun e => e.2.1) (h i hi)
  · rw [hw.sizePoints, hq.sizePoints, hv.sizePoints]
    exact map_range_append fun i hi => congrArg (fun e => e.2.2) (h i hi)

/-- Conversely, entries that are right are those of the frames they stand for. -/
theorem SignedWindow.Aligned.entryAt_eq {F : ℤ} (h : Aligned db.frameStats F w)
    (hq : Filled db first m q) (hv : Filled db p n v) (hw : Stats.IsAppend q v w)
    (hF : ∀ i, i < m + n → (Int64.ofNat (first + i)).toInt = F + i) :
    ∀ i, i < n → entryAt db (p + i) = entryAt db (first + m + i) := by
  intro i hi
  have hat : ∀ {xs ys zs : List UInt64} {g : ℕ → UInt64}, zs = xs ++ ys → xs.length = m →
      ys = (List.range n).map (fun i => g (p + i)) → zs[m + i]? = some (g (p + i)) := by
    rintro xs ys zs g rfl hxs rfl
    rw [List.getElem?_append_right (by omega), hxs, Nat.add_sub_cancel_left, List.getElem?_map,
      List.getElem?_range hi, Option.map_some]
  have hlen : ∀ {xs : List UInt64} {g : ℕ → UInt64}, xs = (List.range m).map g → xs.length = m := by
    rintro xs g rfl
    rw [List.length_map, List.length_range]
  have hentry := h.entry (m + i) _ _ _ (hat hw.allocCounts (hlen hq.allocCounts) hv.allocCounts)
    (hat hw.freeCounts (hlen hq.freeCounts) hv.freeCounts)
    (hat hw.sizePoints (hlen hq.sizePoints) hv.sizePoints)
  rw [← hF (m + i) (by omega), describesFrame_iff, ← Nat.add_assoc] at hentry
  exact hentry

end Shifted

/-- Before the first row from frame 0 on, nothing has happened since frame `g`. -/
theorem entryAt_quiet {db : Database} {p g f : ℕ} (hg : 2 ^ 63 ≤ g) (hp : p < 2 ^ 63)
    (hgap : ∀ f, g ≤ f → f < 2 ^ 64 + p → Int64.ofNat f ∉ db.frameStats) (hgf : g ≤ f)
    (hf : f < 2 ^ 64 + p) : entryAt db f = (0, 0, sizeAt db g) := by
  have hquiet : Quiet db g (2 ^ 64 + p) :=
    quiet_of_noRow (by omega) fun f hgf hf => hgap f hgf.le hf
  rw [entryAt_of_noRow (hgap f hgf hf)]
  rcases Nat.eq_or_lt_of_le hgf with rfl | hlt
  · rfl
  · rw [(hquiet f hlt hf).2.2]

section Flat

variable {db : Database} {p g n toFrame : ℕ}

/-- The size before frame 0 is the one of frame `g`. -/
theorem SignedWindow.latestBefore_zero (hg : 2 ^ 63 ≤ g) (hg' : g < 2 ^ 64)
    (hgap : ∀ f, g ≤ f → f < 2 ^ 64 + p → Int64.ofNat f ∉ db.frameStats) :
    LatestBefore db.frameStats 0 (sizeAt db g) := by
  apply latestBefore_sizeAt
  intro k hk
  have hlt := UInt64.toNat_lt (getUint64 (some k))
  have hno : ¬g ≤ (getUint64 (some k)).toNat := by
    intro hle
    apply hgap _ hle (by omega)
    rwa [ofNat_getUint64]
  rw [toInt_ofNat_eq_ite, toInt_eq_ite]
  split_ifs <;> omega

/-- The frames from `p` on have the entries of the frames from `g` on exactly when all of them have
the entry of frame `g`.  Later than `p`, the frames from `g` on are the frames from `p` on again. -/
theorem entryAt_shift_iff (hg : 2 ^ 63 ≤ g) (hg' : g < 2 ^ 64) (hp : p < 2 ^ 63)
    (hgap : ∀ f, g ≤ f → f < 2 ^ 64 + p → Int64.ofNat f ∉ db.frameStats) :
    (∀ i, i < n → entryAt db (p + i) = entryAt db (g + i)) ↔
      ∀ i, i < n → entryAt db (p + i) = (0, 0, sizeAt db g) := by
  have hlater : ∀ i, 2 ^ 64 + p ≤ g + i →
      entryAt db (g + i) = entryAt db (p + (g + i - (2 ^ 64 + p))) := by
    intro i hi
    rw [← entryAt_add db (p + _), show 2 ^ 64 + (p + (g + i - (2 ^ 64 + p))) = g + i by omega]
  constructor
  · intro h i
    induction i using Nat.strong_induction_on with
    | _ i ih =>
      intro hi
      rw [h i hi]
      rcases Nat.lt_or_ge (g + i) (2 ^ 64 + p) with hlt | hge
      · exact entryAt_quiet hg hp hgap (by omega) hlt
      · rw [hlater i hge]
        exact ih (g + i - (2 ^ 64 + p)) (by omega) (by omega)
  · intro h i hi
    rw [h i hi]
    rcases Nat.lt_or_ge (g + i) (2 ^ 64 + p) with hlt | hge
    · exact (entryAt_quiet hg hp hgap (by omega) hlt).symm
    · rw [hlater i hge]
      exact (h (g + i - (2 ^ 64 + p)) (by omega)).symm

/-- The entries of the frames from `p` on when the rows there change nothing. -/
theorem entryAt_of_flat (hp : Int64.ofNat p ∈ db.frameStats) (hle : p + n ≤ toFrame + 1)
    (hto : toFrame < 2 ^ 63) {size : UInt64}
    (hflat : ∀ k row, db.frameStats.lookup k = some row → 0 ≤ k.toInt → k.toInt ≤ toFrame →
      row.allocs = 0 ∧ row.frees = 0 ∧ getUint64 (some row.size) = size) :
    ∀ i, i < n → entryAt db (p + i) = (0, 0, size) := by
  have hentry : ∀ i row, i < n → db.frameStats.lookup (Int64.ofNat (p + i)) = some row →
      entryAt db (p + i) = (0, 0, size) := by
    intro i row hi hrow
    have hint := Int64.toInt_ofNat_of_lt (show p + i < 2 ^ 63 by omega)
    obtain ⟨h1, h2, h3⟩ := hflat _ row hrow (by omega) (by omega)
    rw [entryAt_of_lookup hrow, h1, h2, h3]
    rfl
  -- a frame without a row has the size of the frame before it, and `p` itself has a row
  intro i
  induction i with
  | zero =>
    intro hi
    obtain ⟨row, hrow⟩ := Dict.mem_iff_lookup.1 hp
    exact hentry 0 row hi hrow
  | succ i ih =>
    intro hi
    cases hrow : db.frameStats.lookup (Int64.ofNat (p + (i + 1))) with
    | some row => exact hentry (i + 1) row hi hrow
    | none =>
      have hno := AList.lookup_eq_none.1 hrow
      have hbefore := ih (by omega)
      rw [entryAt, Prod.mk.injEq, Prod.mk.injEq] at hbefore
      rw [entryAt_of_noRow hno, ← Nat.add_assoc, sizeAt_succ (f := p + i) (by omega) hno,
        hbefore.2.2]

/-- The frames from `p` on have the entries of the frames from `g` on, which is before frame 0,
exactly when nothing happens in any of them. -/
theorem SignedWindow.flat_iff (hg : 2 ^ 63 ≤ g) (hg' : g < 2 ^ 64)
    (hp : Int64.ofNat p ∈ db.frameStats) (hto : toFrame < 2 ^ 63) (hn : 0 < n)
    (hle : p + n ≤ toFrame + 1)
    (hgap : ∀ f, g ≤ f → f < 2 ^ 64 + p → Int64.ofNat f ∉ db.frameStats)
    (hrest : ∀ f, p + n ≤ f → f ≤ toFrame → Int64.ofNat f ∉ db.frameStats) :
    (∀ i, i < n → entryAt db (p + i) = entryAt db (g + i)) ↔ Flat db.frameStats toFrame := by
  have hlatest := latestBefore_zero hg hg' hgap
  rw [entryAt_shift_iff hg hg' (by omega) hgap]
  constructor
  · intro h
    refine ⟨sizeAt db g, hlatest, fun k row hrow h0 hk => ?_⟩
    obtain ⟨f, rfl, hf⟩ := eq_ofNat_of_toInt h0
    have hmem : Int64.ofNat f ∈ db.frameStats := Dict.mem_iff_lookup.2 ⟨row, hrow⟩
    have hpf : p ≤ f := by
      by_contra hlt
      apply hgap (2 ^ 64 + f) (by omega) (by omega)
      rwa [ofNat_add]
    have hfn : f < p + n := by
      by_contra hle
      exact hrest f (by omega) (by omega) hmem
    have hentry := h (f - p) (by omega)
    rw [Nat.add_sub_cancel' hpf, entryAt_of_lookup hrow, Prod.mk.injEq, Prod.mk.injEq] at hentry
    exact ⟨getUint64_inj.1 hentry.1, getUint64_inj.1 hentry.2.1, hentry.2.2⟩
  · rintro ⟨size, hsize, hflat⟩
    obtain rfl := hsize.unique hlatest
    exact entryAt_of_flat hp hle hto hflat

end Flat

/-! ### Crossing frame 0 -/

/-- The state of the loop after a row, if it had begun with that row. -/
def StatsLoop.single (e : StatsEntry) : StatsLoop :=
  { (({} : Stats).raise (getUint64 (some e.2.allocs)) (getUint64 (some e.2.frees)) e.2.size).push
      (getUint64 (some e.2.allocs)) (getUint64 (some e.2.frees)) (getUint64 (some e.2.size)) with
    prevFrame := getUint64 (some e.1)
    firstFrame := false }

theorem reached_single {db : Database} {p : ℕ} {row : StatsRow}
    (hrow : db.frameStats.lookup (Int64.ofNat p) = some row) :
    Reached db p 1 (StatsLoop.single ⟨Int64.ofNat p, row⟩) := by
  refine ⟨?_, rfl, getUint64_ofNat p⟩
  have hempty : Filled db p 0 ({} : Stats) := ⟨rfl, rfl, rfl⟩
  exact (hempty.raise _ _ _).push (columnAt_of_lookup hrow) (columnAt_of_lookup hrow)
    (sizeAt_of_lookup hrow)

/-- A row after a gap: its entry comes behind what was there and what fills the gap. -/
theorem StatsLoop.row_behind (s : StatsLoop) (e : StatsEntry) (fromFrame size : UInt64) (k : ℕ)
    (back : UInt64)
    (h : s.fillGap fromFrame size (getUint64 (some e.1))
      (s.toStats.raise (getUint64 (some e.2.allocs)) (getUint64 (some e.2.frees)) e.2.size) =
        some ((s.toStats.raise (getUint64 (some e.2.allocs)) (getUint64 (some e.2.frees))
          e.2.size).fill k back)) :
    ∃ s', s.row fromFrame size e = some s' ∧
      Behind (s.toStats.fill k back) (StatsLoop.single e) s' := by
  refine ⟨{ ((s.toStats.raise (getUint64 (some e.2.allocs)) (getUint64 (some e.2.frees))
      e.2.size).fill k back).push (getUint64 (some e.2.allocs)) (getUint64 (some e.2.frees))
      (getUint64 (some e.2.size)) with prevFrame := getUint64 (some e.1), firstFrame := false },
    ?_, ⟨rfl, rfl, rfl⟩, ?_, rfl, rfl, rfl⟩
  · simp only [StatsLoop.row, h, Option.map_some]
  · exact List.append_ne_nil_of_right_ne_nil _ (List.cons_ne_nil _ _)

/-- **The first row from frame 0 on.**  The frames before it get entries only if the frame before
frame 0 has one.  Otherwise the entry of the row stands for another frame. -/
theorem Reached.cross {db : Database} {first n p : ℕ} {s : StatsLoop}
    (h : Reached db first n s) (row : StatsRow) (hfirst : 2 ^ 63 ≤ first) (hfirst' : first < 2 ^ 64)
    (hn : first + n ≤ 2 ^ 64) (hp : p < 2 ^ 63)
    (hzero : n = 0 → first + 1 = 2 ^ 64 → p = 0)
    (hgap : ∀ f, f < p → Int64.ofNat f ∉ db.frameStats) (fromFrame size : UInt64) :
    ∃ q m s', Filled db first m q ∧
      (first + n = 2 ^ 64 ∧ first + m = 2 ^ 64 + p ∨ first + n < 2 ^ 64 ∧ m = n) ∧
      s.row fromFrame size ⟨Int64.ofNat p, row⟩ = some s' ∧
      Behind q (StatsLoop.single ⟨Int64.ofNat p, row⟩) s' := by
  have hraised := h.filled.raise (getUint64 (some row.allocs)) (getUint64 (some row.frees)) row.size
  have hprev : s.prevFrame.toNat = first + (n - 1) := by
    rw [h.prevFrame]
    exact UInt64.toNat_ofNat_of_lt' (show first + (n - 1) < 2 ^ 64 by omega)
  have hframe : (UInt64.ofNat p).toNat = p :=
    UInt64.toNat_ofNat_of_lt' (show p < 2 ^ 64 by omega)
  have hlater : ¬UInt64.ofNat p > s.prevFrame := by
    rw [gt_iff_lt, UInt64.lt_iff_toNat_lt, hprev, hframe]
    omega
  have hsucc : (s.prevFrame + 1).toNat = (first + (n - 1) + 1) % 2 ^ 64 := by
    rw [UInt64.toNat_add, hprev, UInt64.toNat_one]
  by_cases halign : first + n = 2 ^ 64
  · -- the counter wraps to frame 0, and the frames from there to `p` are filled
    obtain ⟨m, rfl⟩ : ∃ m, n = m + 1 := ⟨n - 1, by omega⟩
    have hquiet : Quiet db (first + m) (2 ^ 64 + p) :=
      quiet_of_noRow (by omega) fun f hf hf' => by
        rw [show f = 2 ^ 64 + (f - 2 ^ 64) by omega, ofNat_add]
        exact hgap (f - 2 ^ 64) (by omega)
    have hfill := h.filled.fill p (sizeAt db (first + m)) fun f hf hf' =>
      hquiet f (by omega) (by omega)
    have hwrap : (s.prevFrame + 1).toNat = 0 := by
      rw [hsucc, show first + (m + 1 - 1) + 1 = 2 ^ 64 by omega, Nat.mod_self]
    obtain ⟨s', hs', hbehind⟩ := StatsLoop.row_behind s ⟨Int64.ofNat p, row⟩ fromFrame size p
      (sizeAt db (first + m)) (by
        simp only [StatsLoop.fillGap]
        rw [getUint64_ofNat, if_neg fun h => hlater h.2, hraised.getLast?, Option.map_some, hwrap,
          hframe, Nat.sub_zero]
        split_ifs with hpos
        · rfl
        · rw [gt_iff_lt, UInt64.lt_iff_toNat_lt, hwrap, hframe] at hpos
          rw [show p = 0 by omega]
          simp [Stats.fill])
    exact ⟨_, m + 1 + p, s', hfill, Or.inl ⟨halign, by omega⟩, hs', hbehind⟩
  · have hnofill : ¬UInt64.ofNat p > s.prevFrame + 1 := by
      rw [gt_iff_lt, UInt64.lt_iff_toNat_lt, hsucc, hframe]
      rcases Nat.eq_zero_or_pos n with rfl | hpos
      · by_cases hlast : first + 1 = 2 ^ 64
        · rw [hzero rfl hlast]
          omega
        · omega
      · omega
    obtain ⟨s', hs', hbehind⟩ := StatsLoop.row_behind s ⟨Int64.ofNat p, row⟩ fromFrame size 0 0 (by
        simp only [StatsLoop.fillGap]
        rw [getUint64_ofNat, if_neg fun h => hlater h.2, if_neg hnofill]
        simp [Stats.fill])
    refine ⟨_, n, s', h.filled.fill 0 0 fun f hf hf' => ?_, Or.inr ⟨by omega, rfl⟩, hs', hbehind⟩
    omega

/-- **The rest of the window**, behind the entry of its first row from frame 0 on. -/
theorem Behind.rest {db : Database} {q : Stats} {p last : ℕ} {s : StatsLoop} {row : StatsRow}
    {rows : List StatsEntry} (h : Behind q (StatsLoop.single ⟨Int64.ofNat p, row⟩) s)
    (hrow : db.frameStats.lookup (Int64.ofNat p) = some row) (hp : p ≤ last)
    (hlast : last < 2 ^ 63) (hrows : RowsAt 0 db (p + 1) last rows)
    (fromFrame size maxFrame : UInt64) :
    ∃ w v n, (rows.foldlM (StatsLoop.row fromFrame size) s).bind
        (fun s => s.fillEnd (UInt64.ofNat last) maxFrame) = some w ∧
      Filled db p n v ∧ Stats.IsAppend q v w ∧ 0 < n ∧ p + n ≤ last + 1 ∧
      ∀ f, p + n ≤ f → f ≤ last → Int64.ofNat f ∉ db.frameStats := by
  have hat : StoredAt 0 p last := Or.inl ⟨rfl, hlast⟩
  have hto : (UInt64.ofNat last).toNat = last :=
    UInt64.toNat_ofNat_of_lt' (show last < 2 ^ 64 by omega)
  obtain ⟨t, n, hfold, hreached, hnil, hle, hlastRow⟩ :=
    (reached_single hrow).rows hrows hat (by omega) (by omega) fun _ => by omega
  have hn : 0 < n := by
    rcases hlastRow with ⟨-, rfl⟩ | ⟨hpos, -⟩
    · exact Nat.one_pos
    · exact hpos
  have hbound := hle hn
  have hquiet := hnil.quiet hat hn
  obtain ⟨v, hend, hfilled, -⟩ :=
    hreached.fillEnd (UInt64.ofNat last) maxFrame hn (by omega) (by omega)
      fun g hg hg' => hquiet g hg (by omega)
  obtain ⟨s', hs', hbehind⟩ := h.rows fromFrame size hfold
  obtain ⟨w, hw, happend⟩ := hbehind.fillEnd hend
  refine ⟨w, v, _, by rw [hs']; exact hw, hfilled, happend, by omega, by omega,
    fun f hf hf' => ?_⟩
  exact hnil.notMem hat (by omega) (by omega) hf'

/-- The loop over the rows from frame 0 on. -/
theorem Reached.aligned_iff {db : Database} {first n last : ℕ} {F : ℤ} {s : StatsLoop}
    {e : StatsEntry} {rows : List StatsEntry} (h : Reached db first n s) (hfirst : 2 ^ 63 ≤ first)
    (hfirst' : first < 2 ^ 64) (hF : (first : ℤ) = F + 2 ^ 64) (hn : first + n ≤ 2 ^ 64)
    (hno : ∀ f, first + n ≤ f → f < 2 ^ 64 → Int64.ofNat f ∉ db.frameStats)
    (hzero : n = 0 → first + 1 = 2 ^ 64 → Int64.ofNat 0 ∈ db.frameStats)
    (hlast : last < 2 ^ 63) (hrows : RowsAt 0 db 0 last (e :: rows))
    (fromFrame size maxFrame : UInt64) :
    (∃ w, ((e :: rows).foldlM (StatsLoop.row fromFrame size) s).bind
        (fun s => s.fillEnd (UInt64.ofNat last) maxFrame) = some w ∧
      SignedWindow.Aligned db.frameStats F w) ↔
        first + n = 2 ^ 64 ∨ SignedWindow.Flat db.frameStats last := by
  obtain ⟨p, row, rfl, hrow, -, hp, hgap, htail⟩ := hrows.cons (Or.inl ⟨rfl, hlast⟩)
  have hmem : Int64.ofNat p ∈ db.frameStats := Dict.mem_iff_lookup.2 ⟨row, hrow⟩
  have hint : ∀ i, first + i < 2 ^ 64 + 2 ^ 63 → (Int64.ofNat (first + i)).toInt = F + i := by
    intro i hi
    rw [toInt_ofNat_eq_ite]
    split_ifs <;> omega
  obtain ⟨q, m, s', hq, hm, hs', hbehind⟩ := h.cross row hfirst hfirst' hn
    (show p < 2 ^ 63 by omega)
    (fun h0 h1 => by
      by_contra hne
      exact hgap 0 (Nat.zero_le 0) (by omega) (hzero h0 h1))
    (fun f hf => hgap f (Nat.zero_le f) hf) fromFrame size
  obtain ⟨w, v, n', hw, hv, happend, hn', hle, hrest⟩ :=
    hbehind.rest hrow hp hlast htail fromFrame size maxFrame
  have hrun : ((⟨Int64.ofNat p, row⟩ :: rows).foldlM (StatsLoop.row fromFrame size) s).bind
      (fun s => s.fillEnd (UInt64.ofNat last) maxFrame) = some w := by
    rw [List.foldlM_cons, hs']
    exact hw
  have hcase : (∃ w, ((⟨Int64.ofNat p, row⟩ :: rows).foldlM (StatsLoop.row fromFrame size) s).bind
      (fun s => s.fillEnd (UInt64.ofNat last) maxFrame) = some w ∧
        SignedWindow.Aligned db.frameStats F w) ↔
      ∀ i, i < n' → entryAt db (p + i) = entryAt db (first + m + i) := by
    constructor
    · rintro ⟨w', hw', haligned⟩
      rw [hrun, Option.some.injEq] at hw'
      rw [← hw'] at haligned
      exact haligned.entryAt_eq hq hv happend fun i hi => hint i (by omega)
    · intro hsame
      refine ⟨w, hrun, (hq.append hv happend hsame).signedAligned fun i hi => hint i ?_⟩
      omega
  rw [hcase]
  rcases hm with ⟨halign, hm⟩ | ⟨hlt, rfl⟩
  · rw [hm, or_iff_left_of_imp fun _ => halign]
    refine iff_of_true (fun i _ => ?_) halign
    rw [Nat.add_assoc, entryAt_add]
  · rw [or_iff_right hlt.ne]
    refine SignedWindow.flat_iff (by omega) hlt hmem hlast hn' hle (fun f hf hf' => ?_) hrest
    rcases Nat.lt_or_ge f (2 ^ 64) with hf64 | hf64
    · exact hno f hf hf64
    · rw [show f = 2 ^ 64 + (f - 2 ^ 64) by omega, ofNat_add]
      exact hgap (f - 2 ^ 64) (Nat.zero_le _) (by omega)

/-! ### All windows -/

/-- A window that begins before frame 0 has the rows before frame 0, and those from there on. -/
theorem selectStats_eq_append (db : Database) {fromFrame toFrame : UInt64}
    (hfrom : 2 ^ 63 ≤ fromFrame.toNat) (hto : toFrame.toNat < 2 ^ 63) :
    db.selectStats fromFrame toFrame =
      db.selectStats fromFrame (UInt64.ofNat (2 ^ 64 - 1)) ++ db.selectStats 0 toFrame := by
  have hminus : (DbValue.uint64 (UInt64.ofNat (2 ^ 64 - 1))).bind.toInt = -1 := by decide
  have hzero : (DbValue.uint64 0).bind.toInt = 0 := by decide
  have hneg : (DbValue.uint64 fromFrame).bind.toInt < 0 := by
    have hlt := UInt64.toNat_lt fromFrame
    rw [toInt_eq_ite, getUint64_bind, if_neg (by omega)]
    omega
  have hnonneg : 0 ≤ (DbValue.uint64 toFrame).bind.toInt := by
    rw [toInt_eq_ite, getUint64_bind, if_pos hto]
    omega
  apply Sorting.eq_of_pairwise_lt fun e : StatsEntry => e.1.toInt
  · exact (selectStats_spec db fromFrame toFrame).1
  · refine List.pairwise_append.2 ⟨(selectStats_spec db _ _).1, (selectStats_spec db _ _).1, ?_⟩
    intro x hx y hy
    have h1 := (mem_selectStats.1 hx).2.2
    have h2 := (mem_selectStats.1 hy).2.1
    omega
  · intro e
    rw [List.mem_append, mem_selectStats, mem_selectStats, mem_selectStats, ← and_or_left]
    refine and_congr_right fun _ => ?_
    omega

theorem SignedWindow.flat_of_noRow {table : Dict Int64 StatsRow} {toFrame : ℤ}
    (h : ∀ k ∈ table, 0 ≤ k.toInt → ¬k.toInt ≤ toFrame) : Flat table toFrame := by
  have hlatest : LatestBefore table 0 (sizeAt { frameStats := table } (2 ^ 64 - 1)) := by
    refine @latestBefore_sizeAt { frameStats := table } _ _ fun k _ => ?_
    rw [show (Int64.ofNat (2 ^ 64 - 1)).toInt = -1 by decide]
    omega
  refine ⟨_, hlatest, fun k row hrow h0 hk => ?_⟩
  exact absurd hk (h k (Dict.mem_iff_lookup.2 ⟨row, hrow⟩) h0)

section Negative

variable {d : Recorder} {st : Storage} {fromFrame toFrame : UInt64} {F T : ℤ}

/-- The frames a window that begins before frame 0 has from there on. -/
theorem rowsAt_nonneg (db : Database) (hT : 0 ≤ T) (hto : (toFrame.toNat : ℤ) = T)
    (hT63 : T < 2 ^ 63) : RowsAt 0 db 0 toFrame.toNat (db.selectStats 0 toFrame) := by
  have hrows := rowsAt_selectStats db (show StoredAt 0 0 toFrame.toNat from Or.inl ⟨rfl, by omega⟩)
    (Nat.zero_le _)
  rwa [UInt64.ofNat_toNat] at hrows

theorem selectStats_zero_eq_nil (db : Database) (hto : (toFrame.toNat : ℤ) = T)
    (hT63 : T < 2 ^ 63) : db.selectStats 0 toFrame = [] ↔
      ∀ k ∈ db.frameStats, 0 ≤ k.toInt → ¬k.toInt ≤ T := by
  have hzero : (DbValue.uint64 0).bind.toInt = 0 := by decide
  have hlast : (DbValue.uint64 toFrame).bind.toInt = T := by
    rw [toInt_eq_ite, getUint64_bind, if_pos (by omega), hto]
  rw [List.eq_nil_iff_forall_not_mem]
  constructor
  · intro h k hk h0 hle
    obtain ⟨row, hrow⟩ := Dict.mem_iff_lookup.1 hk
    exact h ⟨k, row⟩ (mem_selectStats.2 ⟨hrow, by simp only; omega, by simp only; omega⟩)
  · intro h e he
    obtain ⟨hrow, h1, h2⟩ := mem_selectStats.1 he
    exact h e.1 (Dict.mem_iff_lookup.2 ⟨e.2, hrow⟩) (by omega) (by omega)

/-- The rows of a window that begins right before frame 0: there is at most one before frame 0. -/
theorem selectStats_last {db : Database} (hfrom : fromFrame.toNat + 1 = 2 ^ 64) {e : StatsEntry}
    (he : e ∈ db.selectStats fromFrame (UInt64.ofNat (2 ^ 64 - 1))) : e.1 = -1 := by
  have hminus : (DbValue.uint64 (UInt64.ofNat (2 ^ 64 - 1))).bind.toInt = -1 := by decide
  obtain ⟨-, h1, h2⟩ := mem_selectStats.1 he
  rw [toInt_eq_ite, getUint64_bind, if_neg (by omega)] at h1
  apply Int64.toInt_inj.1
  rw [show (-1 : Int64).toInt = -1 by decide]
  omega

theorem selectStats_last_eq_nil {db : Database} (hfrom : fromFrame.toNat + 1 = 2 ^ 64) :
    db.selectStats fromFrame (UInt64.ofNat (2 ^ 64 - 1)) = [] ↔ (-1 : Int64) ∉ db.frameStats := by
  constructor
  · intro hN hmem
    obtain ⟨row, hrow⟩ := Dict.mem_iff_lookup.1 hmem
    have hin : (⟨-1, row⟩ : StatsEntry) ∈
        db.selectStats fromFrame (UInt64.ofNat (2 ^ 64 - 1)) := by
      have hminus : (DbValue.uint64 (UInt64.ofNat (2 ^ 64 - 1))).bind = -1 := by decide
      refine mem_selectStats.2 ⟨hrow, ?_, by rw [hminus]⟩
      rw [toInt_eq_ite (DbValue.uint64 fromFrame).bind, getUint64_bind, if_neg (by omega)]
      simp only [show (-1 : Int64).toInt = -1 by decide]
      omega
    rw [hN] at hin
    cases hin
  · intro hno
    apply List.eq_nil_iff_forall_not_mem.2
    intro e he
    apply hno
    rw [← selectStats_last hfrom he]
    exact Dict.mem_iff_lookup.2 ⟨e.2, (mem_selectStats.1 he).1⟩

/-- When the rows before frame 0 are done, `n` frames have entries. -/
theorem SignedWindow.aligned_iff_of_reached (hdb : d.db = some st)
    (hfrom : (fromFrame.toNat : ℤ) = F + 2 ^ 64) (hF : F < 0) (hF63 : -2 ^ 63 ≤ F)
    (hto : (toFrame.toNat : ℤ) = T) (hT : 0 ≤ T) (hT63 : T < 2 ^ 63) {n : ℕ} {s : StatsLoop}
    (hfold : (st.db.selectStats fromFrame (UInt64.ofNat (2 ^ 64 - 1))).foldlM
      (StatsLoop.row fromFrame (sizeAt st.db fromFrame.toNat)) { prevFrame := fromFrame } = some s)
    (h : Reached st.db fromFrame.toNat n s) (hn : fromFrame.toNat + n ≤ 2 ^ 64)
    (hno : ∀ f, fromFrame.toNat + n ≤ f → f < 2 ^ 64 → Int64.ofNat f ∉ st.db.frameStats)
    (hzero : n = 0 → F = -1 → st.db.selectStats 0 toFrame ≠ [] → (0 : Int64) ∈ st.db.frameStats) :
    (∃ w, d.getStats fromFrame toFrame = some w ∧ Aligned st.db.frameStats F w) ↔
      st.db.selectStats 0 toFrame = [] ∨ fromFrame.toNat + n = 2 ^ 64 ∨
        Flat st.db.frameStats T := by
  have hrows := rowsAt_nonneg st.db hT hto hT63
  have hlast : toFrame.toNat < 2 ^ 63 := by omega
  rw [getStats_eq_bind hdb, selectStats_eq_append _ (by omega) hlast, List.foldlM_append, hfold,
    Option.bind_eq_bind, Option.bind_some]
  cases hP : st.db.selectStats 0 toFrame with
  | nil =>
    refine iff_of_true ⟨s.toStats, ?_, h.filled.signedAligned fun i hi => ?_⟩ (Or.inl rfl)
    · -- the last row is taken for one that is later than the end of the window
      show s.fillEnd toFrame d.maxFrame = some s.toStats
      unfold StatsLoop.fillEnd
      apply if_neg
      have hlt64 : fromFrame.toNat + (n - 1) < 2 ^ 64 := by omega
      rw [h.prevFrame, UInt64.lt_iff_toNat_lt, UInt64.toNat_ofNat_of_lt' hlt64]
      omega
    · rw [toInt_ofNat_eq_ite]
      split_ifs <;> omega
  | cons e rows =>
    rw [hP] at hrows
    have hiff := h.aligned_iff (F := F) (by omega) (by omega) hfrom hn hno
      (fun h0 h1 => hzero h0 (by omega) (hP ▸ List.cons_ne_nil e rows)) hlast hrows fromFrame
      (sizeAt st.db fromFrame.toNat) d.maxFrame
    rw [UInt64.ofNat_toNat, hto] at hiff
    rw [hiff, or_iff_right (List.cons_ne_nil e rows)]

/-- A window that begins right before frame 0 reads the back of an empty vector when its first row
is not for frame 0. -/
theorem getStats_eq_none_of_first (hdb : d.db = some st) (hfrom : fromFrame.toNat + 1 = 2 ^ 64)
    {e : StatsEntry} {rows : List StatsEntry}
    (hrows : st.db.selectStats fromFrame toFrame = e :: rows) (he : e.1 ≠ 0) :
    d.getStats fromFrame toFrame = none := by
  rw [getStats_eq_bind hdb, hrows, List.foldlM_cons, StatsLoop.row_eq_none hfrom]
  · rfl
  · have hne : getUint64 (some e.1) ≠ 0 := fun h => he (getUint64_inj.1 h)
    rw [Ne, ← UInt64.toNat_inj] at hne
    exact Nat.pos_of_ne_zero hne

theorem SignedWindow.aligned_iff_minusOne (hdb : d.db = some st)
    (hfrom : fromFrame.toNat + 1 = 2 ^ 64) (hto : (toFrame.toNat : ℤ) = T) (hT : 0 ≤ T)
    (hT63 : T < 2 ^ 63) :
    (∃ w, d.getStats fromFrame toFrame = some w ∧ Aligned st.db.frameStats (-1) w) ↔
      (-1 : Int64) ∉ st.db.frameStats ∧ (st.db.selectStats 0 toFrame = [] ∨
        (0 : Int64) ∈ st.db.frameStats ∧ Flat st.db.frameStats T) := by
  have hfrom63 : 2 ^ 63 ≤ fromFrame.toNat := by omega
  have hto63 : toFrame.toNat < 2 ^ 63 := by omega
  have happend := selectStats_eq_append st.db hfrom63 hto63
  have hlast := @selectStats_last_eq_nil fromFrame st.db hfrom
  cases hN : st.db.selectStats fromFrame (UInt64.ofNat (2 ^ 64 - 1)) with
  | cons e rows =>
    -- there is a row for the frame before frame 0
    have he := selectStats_last hfrom (hN ▸ List.mem_cons_self)
    rw [hN] at hlast happend
    rw [getStats_eq_none_of_first hdb hfrom happend (by rw [he]; decide)]
    refine iff_of_false ?_ fun h => List.cons_ne_nil e rows (hlast.2 h.1)
    rintro ⟨w, hw, -⟩
    cases hw
  | nil =>
    have hno := hlast.1 hN
    by_cases hzero : st.db.selectStats 0 toFrame ≠ [] → (0 : Int64) ∈ st.db.frameStats
    · have hstart : Reached st.db fromFrame.toNat 0 { prevFrame := fromFrame } :=
        ⟨⟨rfl, rfl, rfl⟩, rfl, (UInt64.ofNat_toNat).symm⟩
      rw [aligned_iff_of_reached hdb (F := -1) (by omega) (by omega) (by omega) hto hT hT63
        (by rw [hN]; rfl) hstart (by omega) _ fun _ _ => hzero]
      · have hlt : fromFrame.toNat + 0 ≠ 2 ^ 64 := by omega
        rw [or_iff_right hlt]
        tauto
      · intro f hf hf'
        rw [show f = 2 ^ 64 - 1 by omega]
        exact hno
    · obtain ⟨hne, hnot⟩ := Classical.not_imp.1 hzero
      obtain ⟨e, rows, hP⟩ := List.exists_cons_of_ne_nil hne
      have hin : e ∈ st.db.selectStats 0 toFrame := hP ▸ List.mem_cons_self
      have he : e.1 ≠ 0 := fun h0 =>
        hnot (h0 ▸ Dict.mem_iff_lookup.2 ⟨e.2, (mem_selectStats.1 hin).1⟩)
      rw [hN, hP, List.nil_append] at happend
      rw [getStats_eq_none_of_first hdb hfrom happend he]
      refine iff_of_false ?_ ?_
      · rintro ⟨w, hw, -⟩
        cases hw
      · rintro ⟨-, hnil | ⟨h0, -⟩⟩
        · exact hne hnil
        · exact hnot h0

theorem SignedWindow.aligned_iff_before (hdb : d.db = some st)
    (hfrom : (fromFrame.toNat : ℤ) = F + 2 ^ 64) (hF : F < -1) (hF63 : -2 ^ 63 ≤ F)
    (hto : (toFrame.toNat : ℤ) = T) (hT : 0 ≤ T) (hT63 : T < 2 ^ 63) :
    (∃ w, d.getStats fromFrame toFrame = some w ∧ Aligned st.db.frameStats F w) ↔
      (-1 : Int64) ∈ st.db.frameStats ∨ Flat st.db.frameStats T := by
  have hat : StoredAt (2 ^ 64) fromFrame.toNat (2 ^ 64 - 1) := Or.inr ⟨rfl, by omega, by omega⟩
  have hrows := rowsAt_selectStats st.db hat (by omega)
  rw [UInt64.ofNat_toNat] at hrows
  have hstart : Reached st.db fromFrame.toNat 0 { prevFrame := fromFrame } :=
    ⟨⟨rfl, rfl, rfl⟩, rfl, (UInt64.ofNat_toNat).symm⟩
  obtain ⟨s, n, hfold, hreached, hnil, hle, hlastRow⟩ :=
    hstart.rows hrows hat (by omega) (by omega) fun h => absurd h (lt_irrefl 0)
  rw [UInt64.ofNat_toNat] at hfold
  have hn : fromFrame.toNat + n ≤ 2 ^ 64 := by
    rcases Nat.eq_zero_or_pos n with rfl | hpos
    · omega
    · have := hle hpos
      omega
  have hno : ∀ f, fromFrame.toNat + n ≤ f → f < 2 ^ 64 → Int64.ofNat f ∉ st.db.frameStats := by
    intro f hf hf'
    exact hnil.notMem hat (by omega) hf (by omega)
  have hminus : Int64.ofNat (2 ^ 64 - 1) = -1 := by decide
  have hlast : fromFrame.toNat + n = 2 ^ 64 ↔ (-1 : Int64) ∈ st.db.frameStats := by
    constructor
    · intro heq
      rcases hlastRow with ⟨-, rfl⟩ | ⟨hpos, hmem⟩
      · omega
      · rwa [show fromFrame.toNat + (n - 1) = 2 ^ 64 - 1 by omega, hminus] at hmem
    · intro hmem
      by_contra hne
      apply hno (2 ^ 64 - 1) (by omega) (by omega)
      rwa [hminus]
  rw [aligned_iff_of_reached hdb hfrom (by omega) hF63 hto hT hT63 hfold hreached hn hno
    (fun _ h1 => by omega), hlast]
  refine ⟨?_, Or.inr⟩
  rintro (hP | h)
  · exact Or.inr (flat_of_noRow ((selectStats_zero_eq_nil st.db hto hT63).1 hP))
  · exact h

/-- From frame 0 on, frames are the same for SQLite and for `get_stats`. -/
theorem SignedWindow.aligned_of_nonneg (hdb : d.db = some st) (hfrom : (fromFrame.toNat : ℤ) = F)
    (hto : (toFrame.toNat : ℤ) = T) (hle : F ≤ T) (hT63 : T < 2 ^ 63) :
    ∃ w, d.getStats fromFrame toFrame = some w ∧ Aligned st.db.frameStats F w := by
  by_cases hrows : st.db.selectStats fromFrame toFrame = []
  · have hempty : Filled st.db 0 0 ({} : Stats) := ⟨rfl, rfl, rfl⟩
    refine ⟨{}, getStats_of_noRow hdb hrows, hempty.signedAligned fun i hi => ?_⟩
    exact absurd hi (Nat.not_lt_zero i)
  · have hhalf : OneHalf fromFrame.toNat toFrame.toNat := Or.inl (by omega)
    have hle' : fromFrame ≤ toFrame := UInt64.le_iff_toNat_le.2 (by omega)
    obtain ⟨l, hl, ⟨-, hends, -⟩ | ⟨-, t, ht, hfilled⟩⟩ :=
      getStats_of_rows hdb hle' hhalf (by omega) ((selectStats_ne_nil hle' hhalf).1 hrows)
    · omega
    · refine ⟨t, ht, hfilled.signedAligned fun i hi => ?_⟩
      have h1 := hl.first_le
      have h2 := hl.le_last
      rw [Int64.toInt_ofNat_of_lt (by omega)]
      omega

end Negative

/-- **Windows that begin before frame 0.**  The result is right in a window that begins in frame 0
or later.  Otherwise it is right only if the frame before frame 0 has a row itself, or if nothing
happens from frame 0 on; in a window that begins right before frame 0 there must be no row for that
frame, and the first one must be for frame 0. -/
theorem SignedWindow.getStats_aligned_iff {d : Recorder} {st : Storage} (hdb : d.db = some st)
    {fromFrame toFrame : Int32} (hle : fromFrame ≤ toFrame) (hto : 0 ≤ toFrame) :
    (∃ s, d.getStats (toUint64 fromFrame) (toUint64 toFrame) = some s ∧
      Aligned st.db.frameStats fromFrame.toInt s) ↔
      0 ≤ fromFrame ∨
      fromFrame = -1 ∧ (-1 : Int64) ∉ st.db.frameStats ∧
        ((∀ k ∈ st.db.frameStats, 0 ≤ k.toInt → ¬k.toInt ≤ toFrame.toInt) ∨
          (0 : Int64) ∈ st.db.frameStats ∧ Flat st.db.frameStats toFrame.toInt) ∨
      fromFrame < -1 ∧
        ((-1 : Int64) ∈ st.db.frameStats ∨ Flat st.db.frameStats toFrame.toInt) := by
  have hminus : (-1 : Int32).toInt = -1 := by decide
  have hzero : (0 : Int32).toInt = 0 := by decide
  have hfrom1 := Int32.le_toInt fromFrame
  have hto1 := Int32.toInt_lt toFrame
  have hfrom64 := toNat_toUint64 fromFrame
  have hto64 := toNat_toUint64 toFrame
  rw [Int32.le_iff_toInt_le] at hle hto
  rw [hzero] at hto
  rw [if_pos hto] at hto64
  rw [Int32.le_iff_toInt_le, Int32.lt_iff_toInt_lt, ← Int32.toInt_inj, hminus, hzero]
  generalize toUint64 fromFrame = fromFrame64 at hfrom64 ⊢
  generalize toUint64 toFrame = toFrame64 at hto64 ⊢
  generalize fromFrame.toInt = F at hle hfrom1 hfrom64 ⊢
  generalize toFrame.toInt = T at hle hto hto1 hto64 ⊢
  split_ifs at hfrom64 with hF
  · exact iff_of_true (aligned_of_nonneg hdb hfrom64 hto64 hle (by omega)) (Or.inl hF)
  · rw [or_iff_right hF]
    by_cases hone : F = -1
    · subst hone
      have hlt : ¬(-1 : ℤ) < -1 := lt_irrefl _
      rw [aligned_iff_minusOne hdb (by omega) hto64 hto (by omega),
        selectStats_zero_eq_nil st.db hto64 (by omega)]
      simp only [hlt, true_and, false_and, or_false]
    · have hlt : F < -1 := by omega
      rw [aligned_iff_before hdb hfrom64 hlt (by omega) hto64 hto (by omega)]
      simp only [hone, hlt, true_and, false_and, false_or]

theorem SignedWindow.getStats_aligned_iff_sparse : ∃ st, sparse.db = some st ∧
    ((∃ s, sparse.getStats (toUint64 (-3)) (toUint64 6) = some s ∧
      Aligned st.db.frameStats (Int32.toInt (-3)) s) ↔
      (0 : Int32) ≤ -3 ∨
      (-3 : Int32) = -1 ∧ (-1 : Int64) ∉ st.db.frameStats ∧
        ((∀ k ∈ st.db.frameStats, 0 ≤ k.toInt → ¬k.toInt ≤ Int32.toInt 6) ∨
          (0 : Int64) ∈ st.db.frameStats ∧ Flat st.db.frameStats (Int32.toInt 6)) ∨
      (-3 : Int32) < -1 ∧
        ((-1 : Int64) ∈ st.db.frameStats ∨ Flat st.db.frameStats (Int32.toInt 6))) :=
  ⟨_, rfl, getStats_aligned_iff rfl (by decide) (by decide)⟩

/-- The first events are in frame 2, and the window begins right before frame 0. -/
theorem SignedWindow.back_of_empty : (-1 : Int32) ≤ 6 ∧ (0 : Int32) ≤ 6 ∧
    sparse.getStats (toUint64 (-1)) (toUint64 6) = none :=
  ⟨by decide, by decide, Option.isNone_iff_eq_none.1 (by decide)⟩

/-- Here the first entry should be for frame -3, but it is for frame 2. -/
example : (sparse.getStats (toUint64 (-3)) (toUint64 6)).map Stats.sizePoints =
    some [8, 8, 24, 24] := by decide

end Owlcat
