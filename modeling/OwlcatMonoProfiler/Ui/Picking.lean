import OwlcatMonoProfiler.Library.Nearest
import OwlcatMonoProfiler.Ui.GraphsData

/-!
# Picking a band of the graphs

`onPickerChanged` of `main_window.cpp`: the frames of the picked band, which snap to the collections
that are closest if this is checked.  The picked frames are those below and above the corners of the
rectangle; bands that begin before frame 0 are left out.

* `onPickerChanged`: the zone that is shown, and the window of the live objects;
* `gcFrames`: the collections the search can find, which are those of the window unless it begins
  before frame 0;
* `isNearest_of_closestInside`: it finds the nearest one;
* `getClosestGcFrame_succ_iff`: what it finds from the frame after a frame it has found;
* `snaps_of_pick`: what snapping does to a band.
-/

namespace Owlcat

namespace GraphsData

/-- What `onPickerChanged` shows: the interval of the zones, and the frames whose live objects are
calculated. -/
structure Pick where
  zone : UInt64 × UInt64
  fromFrame : UInt64
  toFrame : UInt64
  deriving DecidableEq

/-- `onPickerChanged`; `none` is an access outside the series. -/
def onPickerChanged (g : GraphsData) (snapToGc : Bool) (x1 x2 : UInt64) : Option Pick :=
  if snapToGc then
    (g.getClosestGcFrame x1).bind fun x1 => (g.getClosestGcFrame x2).map fun x2 =>
      ⟨(x1, x2 + 1), x1, x2 + 1 - 1⟩
  else some ⟨(x1, x2), x1, x2 - 1⟩

/-! ### Series that end early -/

/-- The series, continued by frames without frees. -/
def padded (g : GraphsData) : GraphsData :=
  { g with freesCount := g.freesCount ++ List.replicate g.lastFrame 0 }

section Padded

variable {frees : List UInt64} {first last : UInt64}

theorem scanDown_append (more : List UInt64) {n : ℕ} {f : UInt64} {p : UInt64 × Bool}
    (h : scanDown frees first n f = some p) : scanDown (frees ++ more) first n f = some p := by
  induction n generalizing f with
  | zero => exact h
  | succ n ih =>
    simp only [scanDown] at h ⊢
    split
    · next hgt =>
      rw [if_pos hgt] at h
      obtain ⟨count, hcount, h⟩ := Option.bind_eq_some_iff.1 h
      rw [List.getElem?_append_left (List.getElem?_eq_some_iff.1 hcount).1, hcount,
        Option.bind_some]
      split
      · next hpos => rwa [if_pos hpos] at h
      · next hpos =>
        rw [if_neg hpos] at h
        exact ih h
    · next hgt => rwa [if_neg hgt] at h

theorem scanUp_append (more : List UInt64) {n : ℕ} {f : UInt64} {q : UInt64 × Bool}
    (h : scanUp frees first last n f = some q) :
    scanUp (frees ++ more) first last n f = some q := by
  induction n generalizing f with
  | zero => exact h
  | succ n ih =>
    simp only [scanUp] at h ⊢
    split
    · next hlt =>
      rw [if_pos hlt] at h
      obtain ⟨count, hcount, h⟩ := Option.bind_eq_some_iff.1 h
      rw [List.getElem?_append_left (List.getElem?_eq_some_iff.1 hcount).1, hcount,
        Option.bind_some]
      split
      · next hpos => rwa [if_pos hpos] at h
      · next hpos =>
        rw [if_neg hpos] at h
        exact ih h
    · next hlt => rwa [if_neg hlt] at h

variable {g : GraphsData} {frame r : UInt64}

theorem getClosestGcFrame_padded (h : g.getClosestGcFrame frame = some r) :
    g.padded.getClosestGcFrame frame = some r := by
  simp only [getClosestGcFrame] at h
  by_cases hout : frame ≤ toUint64 g.firstVisibleFrame ∨ frame ≥ toUint64 g.lastVisibleFrame
  · rw [if_pos hout] at h
    exact (if_pos hout).trans h
  · rw [if_neg hout] at h
    obtain ⟨p, hp, h⟩ := Option.bind_eq_some_iff.1 h
    obtain ⟨q, hq, h⟩ := Option.map_eq_some_iff.1 h
    refine (if_neg hout).trans (Option.bind_eq_some_iff.2 ⟨p, scanDown_append _ hp, ?_⟩)
    exact Option.map_eq_some_iff.2 ⟨q, scanUp_append _ hq, h⟩

theorem freesIn_padded (c : ℕ) : g.padded.freesIn c = g.freesIn c := by
  show (g.freesCount ++ List.replicate g.lastFrame 0)[c - g.firstFrame]?.getD 0 =
    g.freesCount[c - g.firstFrame]?.getD 0
  rcases Nat.lt_or_ge (c - g.firstFrame) g.freesCount.length with hlt | hge
  · rw [List.getElem?_append_left hlt]
  · rw [List.getElem?_append_right hge, List.getElem?_eq_none hge, List.getElem?_replicate]
    split <;> rfl

/-- **What the search finds**, whenever it stays inside the series. -/
theorem closestInside_of_eq_some (h : g.getClosestGcFrame frame = some r)
    (h1 : toUint64 g.firstVisibleFrame < frame) (h2 : frame < toUint64 g.lastVisibleFrame) :
    g.IsClosestInside frame r := by
  have hlen : g.padded.lastFrame ≤ g.padded.firstFrame + g.padded.freesCount.length := by
    show g.lastFrame ≤ g.firstFrame + (g.freesCount ++ List.replicate g.lastFrame 0).length
    rw [List.length_append, List.length_replicate]
    omega
  obtain ⟨r', hr', hclosest⟩ := isClosestInside_getClosestGcFrame (g := g.padded) h1 h2 hlen
  rw [getClosestGcFrame_padded h, Option.some.injEq] at hr'
  subst hr'
  refine ⟨hclosest.first_lt, hclosest.lt_last, ?_⟩
  have hcase := hclosest.closest
  simp only [freesIn_padded] at hcase
  exact hcase

end Padded

/-! ### The nearest collection -/

/-- The frames with frees strictly inside the window. -/
def collections (g : GraphsData) : Set ℤ :=
  {c | g.firstVisibleFrame.toInt < c ∧ c < g.lastVisibleFrame.toInt ∧
    g.freesCount[(c - g.firstVisibleFrame.toInt).toNat]?.getD 0 ≠ 0}

/-- Those the search can find: it compares the ends of the window as unsigned numbers. -/
def gcFrames (g : GraphsData) : Set ℤ :=
  {c | ∃ n : ℕ, (n : ℤ) = c ∧ g.firstFrame < n ∧ n < g.lastFrame ∧ g.freesIn n ≠ 0}

section Nearest

variable {g : GraphsData} {frame frame' r r' : UInt64}

theorem mem_gcFrames {n : ℕ} : (n : ℤ) ∈ g.gcFrames ↔
    g.firstFrame < n ∧ n < g.lastFrame ∧ g.freesIn n ≠ 0 := by
  constructor
  · rintro ⟨m, hm, h⟩
    rwa [Nat.cast_inj.1 hm] at h
  · exact fun h => ⟨n, rfl, h⟩

/-- In a window that does not begin before frame 0, they are all. -/
theorem gcFrames_eq (h : 0 ≤ g.firstVisibleFrame.toInt)
    (hle : g.firstVisibleFrame.toInt ≤ g.lastVisibleFrame.toInt) : g.gcFrames = g.collections := by
  have hfirst : (g.firstFrame : ℤ) = g.firstVisibleFrame.toInt :=
    (toNat_toUint64 _).trans (if_pos h)
  have hlast : (g.lastFrame : ℤ) = g.lastVisibleFrame.toInt :=
    (toNat_toUint64 _).trans (if_pos (h.trans hle))
  ext c
  constructor
  · rintro ⟨n, rfl, h1, h2, hne⟩
    have hindex : ((n : ℤ) - g.firstVisibleFrame.toInt).toNat = n - g.firstFrame := by omega
    refine ⟨by omega, by omega, ?_⟩
    rwa [hindex]
  · rintro ⟨h1, h2, hne⟩
    have hindex : (c - g.firstVisibleFrame.toInt).toNat = c.toNat - g.firstFrame := by omega
    rw [hindex] at hne
    exact ⟨c.toNat, by omega, by omega, by omega, hne⟩

theorem cast_distance (frame : UInt64) (c : ℕ) :
    (distance frame c : ℤ) = |(frame.toNat : ℤ) - c| := by
  rw [distance, Int.natCast_natAbs, abs_sub_comm]

/-- The search finds the nearest frame with frees, or leaves the frame where it is. -/
theorem isNearest_of_closestInside (h : g.IsClosestInside frame r) :
    g.gcFrames = ∅ ∧ r = frame ∨ IsNearest g.gcFrames (frame.toNat : ℤ) (r.toNat : ℤ) := by
  rcases h.closest with ⟨rfl, hnone⟩ | ⟨hne, hmin⟩
  · refine .inl ⟨?_, rfl⟩
    rw [Set.eq_empty_iff_forall_notMem]
    rintro c ⟨n, -, hfirst, hlast, hne⟩
    exact hne (hnone n hfirst hlast)
  · refine .inr ⟨mem_gcFrames.2 ⟨h.first_lt, h.lt_last, hne⟩, ?_, ?_⟩
    · rintro c ⟨n, rfl, hfirst, hlast, hnec⟩
      rw [← cast_distance, ← cast_distance, Nat.cast_le]
      exact (hmin n hfirst hlast hnec).1
    · rintro c ⟨n, rfl, hfirst, hlast, hnec⟩ heq
      rw [← cast_distance, ← cast_distance, Nat.cast_inj] at heq
      exact Nat.cast_le.2 ((hmin n hfirst hlast hnec).2 heq)

theorem inside_or_eq (h : g.getClosestGcFrame frame = some r) :
    (frame.toNat ≤ g.firstFrame ∨ g.lastFrame ≤ frame.toNat) ∧ r = frame ∨
      g.firstFrame < frame.toNat ∧ frame.toNat < g.lastFrame ∧ g.IsClosestInside frame r := by
  by_cases hout : frame ≤ toUint64 g.firstVisibleFrame ∨ toUint64 g.lastVisibleFrame ≤ frame
  · simp only [getClosestGcFrame] at h
    rw [if_pos hout, Option.some.injEq] at h
    rw [UInt64.le_iff_toNat_le, UInt64.le_iff_toNat_le] at hout
    exact .inl ⟨hout, h.symm⟩
  · rw [not_or, UInt64.not_le, UInt64.not_le] at hout
    have hclosest := closestInside_of_eq_some h hout.1 hout.2
    rw [UInt64.lt_iff_toNat_lt, UInt64.lt_iff_toNat_lt] at hout
    exact .inr ⟨hout.1, hout.2, hclosest⟩

/-- **The frame that is found grows with the frame that is picked.** -/
theorem getClosestGcFrame_mono (h : g.getClosestGcFrame frame = some r)
    (h' : g.getClosestGcFrame frame' = some r') (hle : frame ≤ frame') : r ≤ r' := by
  rw [UInt64.le_iff_toNat_le] at hle ⊢
  rcases inside_or_eq h with ⟨hout, rfl⟩ | ⟨hfirst, hlast, hclosest⟩
  · rcases inside_or_eq h' with ⟨-, rfl⟩ | ⟨hfirst', hlast', hclosest'⟩
    · exact hle
    · have := hclosest'.first_lt
      omega
  · rcases inside_or_eq h' with ⟨hout', rfl⟩ | ⟨hfirst', hlast', hclosest'⟩
    · have := hclosest.lt_last
      omega
    · rcases isNearest_of_closestInside hclosest with ⟨hempty, rfl⟩ | hnearest
      · rcases isNearest_of_closestInside hclosest' with ⟨-, rfl⟩ | hnearest'
        · exact hle
        · rw [hempty] at hnearest'
          exact absurd hnearest'.mem (Set.notMem_empty _)
      · rcases isNearest_of_closestInside hclosest' with ⟨hempty, -⟩ | hnearest'
        · rw [hempty] at hnearest
          exact absurd hnearest.mem (Set.notMem_empty _)
        · exact Nat.cast_le.1 (hnearest.mono hnearest' (Nat.cast_le.2 hle))

/-- **A frame that was found is found again.** -/
theorem getClosestGcFrame_idem (h : g.getClosestGcFrame frame = some r) :
    g.getClosestGcFrame r = some r := by
  rcases inside_or_eq h with ⟨-, rfl⟩ | ⟨-, -, hclosest⟩
  · exact h
  · rcases isNearest_of_closestInside hclosest with ⟨-, rfl⟩ | hnearest
    · exact h
    · obtain ⟨hfirst, hlast, hne⟩ := mem_gcFrames.1 hnearest.mem
      -- the search starts at a frame with frees, and so stays inside the series
      obtain ⟨i, n, hi, hn, hsteps, hframe, -⟩ :=
        exists_steps (UInt64.lt_iff_toNat_lt.2 hfirst) (UInt64.lt_iff_toNat_lt.2 hlast)
      have hindex : r.toNat - g.firstFrame = i := by
        have hlt := UInt64.toNat_lt (toUint64 g.lastVisibleFrame)
        rw [hframe, toNat_frameAt (by omega), firstFrame, Nat.add_sub_cancel_left]
      have hlen : i < g.freesCount.length := by
        by_contra hlen
        apply hne
        rw [freesIn, hindex, List.getElem?_eq_none (not_lt.1 hlen), Option.getD_none]
      have hsome : (g.getClosestGcFrame r).isSome := by
        rw [hframe, isSome_getClosestGcFrame_inside hi hn hsteps]
        refine ⟨hlen, .inr ⟨i, g.freesCount[i], le_rfl, by omega, ?_, ?_⟩⟩
        · exact List.getElem?_eq_getElem hlen
        · rwa [freesIn, hindex, List.getElem?_eq_getElem hlen, Option.getD_some] at hne
      obtain ⟨r', hr'⟩ := Option.isSome_iff_exists.1 hsome
      have hinside := closestInside_of_eq_some hr' (UInt64.lt_iff_toNat_lt.2 hfirst)
        (UInt64.lt_iff_toNat_lt.2 hlast)
      rcases isNearest_of_closestInside hinside with ⟨-, rfl⟩ | hnearest'
      · exact hr'
      · have heq := hnearest'.eq_of_mem hnearest.mem
        rw [hr', UInt64.toNat_inj.1 (Nat.cast_inj.1 heq)]

/-- **From the frame after a frame the search comes back** exactly if that one has frees and this
one has none, inside the window. -/
theorem getClosestGcFrame_succ_iff (h : g.getClosestGcFrame (r + 1) = some r') :
    r' = r ↔ (r.toNat : ℤ) ∈ g.gcFrames ∧ r.toNat + 1 < g.lastFrame ∧
      ((r.toNat + 1 : ℕ) : ℤ) ∉ g.gcFrames := by
  have hne : r + 1 ≠ r := by
    intro heq
    have := congrArg UInt64.toNat heq
    rw [UInt64.toNat_add, UInt64.toNat_one] at this
    have := UInt64.toNat_lt r
    omega
  have hlast := UInt64.toNat_lt (toUint64 g.lastVisibleFrame)
  change g.lastFrame < 2 ^ 64 at hlast
  rcases inside_or_eq h with ⟨hout, rfl⟩ | ⟨hfirst, hinside, hclosest⟩
  · refine iff_of_false hne ?_
    rintro ⟨hmem, hnext, -⟩
    obtain ⟨hfirst, -, -⟩ := mem_gcFrames.1 hmem
    rw [UInt64.toNat_add, UInt64.toNat_one, Nat.mod_eq_of_lt (by omega)] at hout
    omega
  · have hsucc : (r + 1).toNat = r.toNat + 1 := by
      rw [UInt64.toNat_add, UInt64.toNat_one] at hfirst ⊢
      have := UInt64.toNat_lt r
      omega
    rcases isNearest_of_closestInside hclosest with ⟨hempty, rfl⟩ | hnearest
    · refine iff_of_false hne ?_
      rintro ⟨hmem, -, -⟩
      rw [hempty] at hmem
      exact Set.notMem_empty _ hmem
    · rw [hsucc] at hnearest hinside
      constructor
      · rintro rfl
        refine ⟨hnearest.mem, hinside, fun hmem => ?_⟩
        have heq := Nat.cast_inj.1 (hnearest.eq_of_mem hmem)
        omega
      · rintro ⟨hmem, -, hnot⟩
        -- no other frame is as near, but for the one behind, which is not the smaller one
        have hle := hnearest.le _ hmem
        have htie := hnearest.first _ hmem
        rw [Nat.cast_add, Nat.cast_one, add_sub_cancel_left, abs_one] at hle htie
        rw [abs_le] at hle
        have hother : (r'.toNat : ℤ) ≠ r.toNat + 1 := by
          intro heq
          have hmem' := hnearest.mem
          rw [heq] at hmem'
          exact hnot hmem'
        have hbehind : (r'.toNat : ℤ) ≠ r.toNat + 2 := by
          intro heq
          have := htie (by rw [heq, add_sub_add_left_eq_sub]; norm_num)
          omega
        rw [← UInt64.toNat_inj]
        omega

/-- In a window that begins before frame 0 every frame is before the first one. -/
theorem getClosestGcFrame_of_neg (h : g.firstVisibleFrame.toInt < 0)
    (hframe : frame.toNat < 2 ^ 63) :
    g.getClosestGcFrame frame = some frame := by
  have hfirst := toNat_toUint64 g.firstVisibleFrame
  rw [if_neg (not_le.2 h)] at hfirst
  have hbound := Int32.le_toInt g.firstVisibleFrame
  have hle : frame ≤ toUint64 g.firstVisibleFrame := by
    rw [UInt64.le_iff_toNat_le]
    omega
  exact if_pos (.inl hle)

end Nearest

/-! ### Bands -/

section Bands

variable {g : GraphsData} {x1 x2 y1 y2 : UInt64} {p q : Pick}

theorem onPickerChanged_snap (h : g.onPickerChanged true x1 x2 = some p) :
    g.getClosestGcFrame x1 = some p.fromFrame ∧ g.getClosestGcFrame x2 = some p.toFrame ∧
      p.zone = (p.fromFrame, p.toFrame + 1) := by
  rw [onPickerChanged, if_pos rfl] at h
  obtain ⟨r1, hr1, h⟩ := Option.bind_eq_some_iff.1 h
  obtain ⟨r2, hr2, rfl⟩ := Option.map_eq_some_iff.1 h
  have hto : r2 + 1 - 1 = r2 := UInt64.add_sub_cancel r2 1
  exact ⟨hr1, hr2.trans (congrArg some hto.symm), by rw [hto]⟩

/-- The zone that is shown, picked again. -/
theorem eq_iff_of_zone (h : g.onPickerChanged true x1 x2 = some p)
    (hq : g.onPickerChanged true p.fromFrame (p.toFrame + 1) = some q) :
    q = p ↔ (p.toFrame.toNat : ℤ) ∈ g.gcFrames ∧ p.toFrame.toNat + 1 < g.lastFrame ∧
      ((p.toFrame.toNat + 1 : ℕ) : ℤ) ∉ g.gcFrames := by
  obtain ⟨h1, -, hzone⟩ := onPickerChanged_snap h
  obtain ⟨hq1, hq2, hzone'⟩ := onPickerChanged_snap hq
  rw [getClosestGcFrame_idem h1, Option.some.injEq] at hq1
  rw [← getClosestGcFrame_succ_iff hq2]
  constructor
  · rintro rfl
    rfl
  · intro heq
    obtain ⟨zone, fromFrame, toFrame⟩ := p
    obtain ⟨zone', fromFrame', toFrame'⟩ := q
    dsimp only at hq1 heq hzone hzone'
    rw [hzone, hzone', hq1, heq]

/-- **What snapping does to a band**: it stays a band, a wider band stays wider, and its frames
picked again stay; the zone that is shown, which is one frame longer, stays when the frame behind
the last one can still snap back to it.  Both ends that are inside the window are collections if
there are any, unless the window begins before frame 0: then nothing snaps. -/
theorem snaps_of_pick (h : g.onPickerChanged true x1 x2 = some p) (hle : x1 ≤ x2)
    (hwindow : g.firstVisibleFrame.toInt ≤ g.lastVisibleFrame.toInt) :
    p.fromFrame ≤ p.toFrame ∧
      (∀ {y1 y2 q}, g.onPickerChanged true y1 y2 = some q → y1 ≤ x1 → x2 ≤ y2 →
        q.fromFrame ≤ p.fromFrame ∧ p.toFrame ≤ q.toFrame) ∧
      g.onPickerChanged true p.fromFrame p.toFrame = some p ∧
      (∀ {q}, g.onPickerChanged true p.zone.1 p.zone.2 = some q → 0 ≤ g.firstVisibleFrame.toInt →
        (q = p ↔ (p.toFrame.toNat : ℤ) ∈ g.collections ∧
          (p.toFrame.toNat : ℤ) + 1 < g.lastVisibleFrame.toInt ∧
          (p.toFrame.toNat : ℤ) + 1 ∉ g.collections)) ∧
      (0 ≤ g.firstVisibleFrame.toInt → g.collections.Nonempty →
        ∀ x r, (x, r) ∈ [(x1, p.fromFrame), (x2, p.toFrame)] →
          g.firstVisibleFrame.toInt < x.toNat → (x.toNat : ℤ) < g.lastVisibleFrame.toInt →
          (r.toNat : ℤ) ∈ g.collections) ∧
      (g.firstVisibleFrame.toInt < 0 → x2.toNat < 2 ^ 63 → p.fromFrame = x1 ∧ p.toFrame = x2) := by
  obtain ⟨h1, h2, hzone⟩ := onPickerChanged_snap h
  refine ⟨getClosestGcFrame_mono h1 h2 hle, fun hq hy1 hy2 => ?_, ?_, fun hq hfirst => ?_,
    fun hfirst hne x r hmem => ?_, fun hfirst hx2 => ?_⟩
  · obtain ⟨hq1, hq2, -⟩ := onPickerChanged_snap hq
    exact ⟨getClosestGcFrame_mono hq1 h1 hy1, getClosestGcFrame_mono h2 hq2 hy2⟩
  · rw [onPickerChanged, if_pos rfl, getClosestGcFrame_idem h1, Option.bind_some,
      getClosestGcFrame_idem h2, Option.map_some, ← hzone, UInt64.add_sub_cancel]
  · have hlastFrame : (g.lastFrame : ℤ) = _ :=
      (toNat_toUint64 _).trans (if_pos (hfirst.trans hwindow))
    rw [hzone] at hq
    have hiff := eq_iff_of_zone h hq
    rw [gcFrames_eq hfirst hwindow, Nat.cast_add, Nat.cast_one] at hiff
    rw [hiff, ← hlastFrame]
    norm_cast
  · have hgc : ∀ {x r : UInt64}, g.getClosestGcFrame x = some r →
        g.firstVisibleFrame.toInt < x.toNat → (x.toNat : ℤ) < g.lastVisibleFrame.toInt →
        (r.toNat : ℤ) ∈ g.collections := by
      intro x r hr hx hx'
      have hfirstFrame : (g.firstFrame : ℤ) = _ := (toNat_toUint64 _).trans (if_pos hfirst)
      have hlastFrame : (g.lastFrame : ℤ) = _ :=
        (toNat_toUint64 _).trans (if_pos (hfirst.trans hwindow))
      have hclosest := closestInside_of_eq_some hr
        (UInt64.lt_iff_toNat_lt.2 (show g.firstFrame < x.toNat by omega))
        (UInt64.lt_iff_toNat_lt.2 (show x.toNat < g.lastFrame by omega))
      rw [← gcFrames_eq hfirst hwindow] at hne ⊢
      rcases isNearest_of_closestInside hclosest with ⟨hempty, -⟩ | hnearest
      · exact absurd hempty hne.ne_empty
      · exact hnearest.mem
    simp only [List.mem_cons, List.not_mem_nil, or_false, Prod.mk.injEq] at hmem
    rcases hmem with ⟨rfl, rfl⟩ | ⟨rfl, rfl⟩
    · exact hgc h1
    · exact hgc h2
  · have hx1 := UInt64.le_iff_toNat_le.1 hle
    rw [getClosestGcFrame_of_neg hfirst (by omega), Option.some.injEq] at h1
    rw [getClosestGcFrame_of_neg hfirst hx2, Option.some.injEq] at h2
    exact ⟨h1.symm, h2.symm⟩

/-- Collections in frames 2 and 6 of a window of nine frames. -/
def twoCollections : GraphsData :=
  { freesCount := [0, 0, 1, 0, 0, 0, 4, 0, 0], firstVisibleFrame := 0, lastVisibleFrame := 8 }

theorem snaps_of_pick_twoCollections :
    twoCollections.onPickerChanged true 3 5 = some ⟨(2, 7), 2, 6⟩ ∧
      twoCollections.onPickerChanged true 2 6 = some ⟨(2, 7), 2, 6⟩ := by
  have h : twoCollections.onPickerChanged true 3 5 = some ⟨(2, 7), 2, 6⟩ := by decide
  exact ⟨h, (snaps_of_pick h (by decide) (by decide)).2.2.1⟩

end Bands

end GraphsData

end Owlcat
