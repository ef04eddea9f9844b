import Mathlib.Data.UInt
import OwlcatMonoProfiler.Client.Stopping
import OwlcatMonoProfiler.Library.AllocLog

/-!
# The list of live objects

`get_live_objects` replays the stored events of a window of frames.  For well-formed streams of
events the result agrees with the statistics that were kept while the events came in.

* `getLiveObjects`: the replay;
* `ProfilerEvent.event`: the allocation or free an event is about, so that a stream is a log;
* `liveObjects_perm`: the objects are those the log leaves open;
* `accounts_agree`: their sizes and their number are those of the stored statistics.
-/

namespace Owlcat

open Blocks ProfilerEvent

/-- `live_object` -/
structure LiveObject where
  addr : UInt64
  size : UInt64
  frame : UInt64
  typeId : UInt64
  callstackId : UInt64
  deriving DecidableEq

/-- The loop of `get_live_objects`, for a row. -/
def replayRow (m : Dict UInt64 LiveObject) (row : EventRow) : Dict UInt64 LiveObject :=
  let addr := getUint64 (some row.address)
  if getUint64 (some row.eventTypeId) = 1 then
    m.emplace addr ⟨addr, getUint64 (some row.size), getUint64 (some row.frame),
      getUint64 row.typeId, getUint64 row.callstackId⟩
  else m.erase addr

/-- The loop of `get_live_objects` from the row `rowNum` on; `none` when `progressFunc` cancels. -/
def replayRows (progressFunc : Option (ℕ → ℕ → Bool)) (eventsCount : ℕ) :
    ℕ → Dict UInt64 LiveObject → List EventRow → Option (Dict UInt64 LiveObject)
  | _, m, [] => some m
  | rowNum, m, row :: rows =>
    if progressFunc.all fun f => f rowNum eventsCount then
      replayRows progressFunc eventsCount (rowNum + 1) (replayRow m row) rows
    else none

/-- `get_live_objects`; the frames are `int`s, and converted to 64 bits for the queries. -/
def Recorder.getLiveObjects (d : Recorder) (fromFrame toFrame : Int32)
    (progressFunc : Option (ℕ → ℕ → Bool)) : List LiveObject :=
  match d.db with
  | none => []
  | some st =>
    let first := fromFrame.toInt64.toUInt64
    let last := toFrame.toInt64.toUInt64
    match replayRows progressFunc (st.db.selectEventsCount first last) 0 ∅
        (st.db.selectEvents first last) with
    | none => []
    | some m => Dict.values m

/-- The conversion of a frame to an `int`. -/
def toInt (frame : UInt64) : Int32 := frame.toUInt32.toInt32

/-- The callback lets all rows pass. -/
def NeverCancels (progressFunc : Option (ℕ → ℕ → Bool)) : Prop :=
  ∀ f ∈ progressFunc, ∀ rowNum eventsCount, f rowNum eventsCount = true

theorem replayRows_of_neverCancels {progressFunc : Option (ℕ → ℕ → Bool)}
    (h : NeverCancels progressFunc) (n i : ℕ) (m : Dict UInt64 LiveObject) (rows : List EventRow) :
    replayRows progressFunc n i m rows = some (rows.foldl replayRow m) := by
  have hall : ∀ i, (progressFunc.all fun f => f i n) = true := fun i => by
    cases hf : progressFunc with
    | none => rfl
    | some f => exact h f (by rw [hf]; rfl) i n
  induction rows generalizing i m with
  | nil => rfl
  | cons row rows ih => rw [replayRows, if_pos (hall i), ih, List.foldl_cons]

/-! ### Events as a log -/

/-- The allocation or free an event is about. -/
def ProfilerEvent.event (e : ProfilerEvent) : AllocLog.Event UInt64 UInt32 :=
  match e.type with
  | .alloc => .alloc e.addr e.size
  | .free => .free e.addr e.size

/-- **The replay of stored rows is the replay of the log**, with the address of an object in it. -/
theorem lookup_replay_storedRow (types callstacks : Interner) (es : List ProfilerEvent)
    (a : UInt64) :
    (((es.map (storedRow types callstacks)).foldl replayRow ∅).lookup a).map
        (fun o => (o.addr, o.size)) =
      ((AllocLog.replay (es.map event)).lookup a).map fun size => (a, size.toUInt64) := by
  induction es using List.reverseRecOn generalizing a with
  | nil => rfl
  | append_singleton es e ih =>
    rw [List.map_append, List.map_append, List.foldl_append, List.map_singleton, List.map_singleton,
      List.foldl_cons, List.foldl_nil]
    generalize (es.map (storedRow types callstacks)).foldl replayRow ∅ = m at ih ⊢
    cases he : e.type with
    | alloc =>
      have hevent : e.event = .alloc e.addr e.size := by simp only [event, he]
      rw [hevent, AllocLog.replay_append_alloc, replayRow]
      simp only [storedRow, he, getUint64_bind]
      rw [if_pos (by decide), Dict.lookup_emplace, Dict.lookup_emplace]
      split_ifs with ha
      · subst ha
        have hsame := ih e.addr
        cases hm : m.lookup e.addr with
        | none => simp_all
        | some o => cases hr : (AllocLog.replay (es.map event)).lookup e.addr <;> simp_all
      · exact ih a
    | free =>
      have hevent : e.event = .free e.addr e.size := by simp only [event, he]
      rw [hevent, AllocLog.replay_append_free, replayRow]
      simp only [storedRow, he, getUint64_bind]
      rw [if_neg (by decide)]
      by_cases ha : a = e.addr
      · rw [ha, AList.lookup_erase, AList.lookup_erase]
        rfl
      · rw [AList.lookup_erase_ne ha, AList.lookup_erase_ne ha, ih]

/-- **The objects of the replay are those the log leaves open.** -/
theorem liveObjects_perm (types callstacks : Interner) (es : List ProfilerEvent) :
    ((Dict.values ((es.map (storedRow types callstacks)).foldl replayRow ∅)).map
        fun o => (o.addr, o.size)).Perm
      ((AllocLog.replay (es.map event)).entries.map fun e => (e.1, e.2.toUInt64)) := by
  have hperm : (Dict.mapEntries (fun _ o => (o.addr, o.size))
      ((es.map (storedRow types callstacks)).foldl replayRow ∅)).entries.Perm
      (Dict.mapEntries (fun a size => (a, size.toUInt64))
        (AllocLog.replay (es.map event))).entries :=
    Dict.perm_of_lookup fun a => by
      rw [Dict.lookup_mapEntries, Dict.lookup_mapEntries, lookup_replay_storedRow]
  have hvalues := hperm.map fun e => e.2
  rw [Dict.entries_mapEntries, Dict.entries_mapEntries, List.map_map, List.map_map] at hvalues
  rw [Dict.values, List.map_map]
  exact hvalues

/-! ### Sums over the log -/

theorem netSize_eq (es : List ProfilerEvent) :
    netSize es = ((AllocLog.allocTotal UInt32.toNat (es.map event) : ℕ) : ℤ) -
      (AllocLog.freeTotal UInt32.toNat (es.map event) : ℕ) := by
  induction es with
  | nil => rfl
  | cons e es ih =>
    simp only [netSize, AllocLog.allocTotal, AllocLog.freeTotal, List.map_cons, List.sum_cons,
      List.map_map] at ih ⊢
    rw [ih]
    cases he : e.type <;> simp only [signedSize, event, he] <;> push_cast <;> ring

theorem allocCount_eq (es : List ProfilerEvent) :
    allocCount es = AllocLog.allocTotal (fun _ => 1) (es.map event) := by
  induction es with
  | nil => rfl
  | cons e es ih =>
    rw [allocCount, List.countP_cons, ← allocCount, ih]
    cases he : e.type <;> simp [AllocLog.allocTotal, event, he, add_comm]

theorem freeCount_eq (es : List ProfilerEvent) :
    freeCount es = AllocLog.freeTotal (fun _ => 1) (es.map event) := by
  induction es with
  | nil => rfl
  | cons e es ih =>
    rw [freeCount, List.countP_cons, ← freeCount, ih]
    cases he : e.type <;> simp [AllocLog.freeTotal, event, he, add_comm]

/-- The objects of the replay of a well-formed stream: their sizes and their number. -/
theorem liveObjects_totals (types callstacks : Interner) {es : List ProfilerEvent}
    (h : AllocLog.WellFormed (es.map event)) :
    let objects := Dict.values ((es.map (storedRow types callstacks)).foldl replayRow ∅)
    (((objects.map fun o => o.size.toNat).sum : ℕ) : ℤ) = netSize es ∧
      objects.length + freeCount es = allocCount es := by
  intro objects
  have hperm : (objects.map fun o => (o.addr, o.size)).Perm _ :=
    liveObjects_perm types callstacks es
  have hsizes : (objects.map fun o => o.size.toNat).sum =
      Dict.total UInt32.toNat (AllocLog.replay (es.map event)) := by
    have hsum := (hperm.map fun p => p.2.toNat).sum_eq
    rw [List.map_map, List.map_map] at hsum
    rw [Dict.total, Dict.values, List.map_map]
    refine Eq.trans hsum (congrArg List.sum (List.map_congr_left fun e _ => ?_))
    exact UInt32.toNat_toUInt64 e.2
  have hlength : objects.length = Dict.total (fun _ => 1) (AllocLog.replay (es.map event)) := by
    have hlen := hperm.length_eq
    rw [List.length_map, List.length_map] at hlen
    rw [hlen, Dict.total, Dict.values, List.map_map]
    simp [Function.comp_def]
  constructor
  · have htotal := AllocLog.total_replay UInt32.toNat h
    rw [hsizes, netSize_eq, ← htotal]
    push_cast
    ring
  · rw [hlength, allocCount_eq, freeCount_eq]
    exact AllocLog.total_replay (fun _ => 1) h

/-! ### Frames as `int`s -/

theorem toUInt64_toInt {frame : UInt64} (h : frame < 0x80000000) :
    (toInt frame).toInt64.toUInt64 = frame := by
  have hnat : frame.toNat < 2147483648 := UInt64.lt_iff_toNat_lt.1 h
  have hnarrow : frame.toUInt32.toUInt64 = frame := by
    refine UInt64.toNat_inj.1 ?_
    rw [UInt32.toNat_toUInt64, UInt64.toNat_toUInt32]
    omega
  have hsmall : frame.toUInt32 < 0x80000000 := by
    rw [UInt32.lt_iff_toNat_lt, UInt64.toNat_toUInt32]
    exact lt_of_le_of_lt (Nat.mod_le _ _) hnat
  exact ((getUint64_bind_uint32 frame.toUInt32).2 hsmall).trans hnarrow

theorem toInt_bind {frame : UInt64} (h : frame < 0x80000000) :
    (DbValue.uint64 frame).bind.toInt = frame.toNat := by
  have hnat : frame.toNat < 2147483648 := UInt64.lt_iff_toNat_lt.1 h
  refine BitVec.toInt_eq_toNat_of_lt (x := frame.toBitVec) ?_
  rw [UInt64.toNat_toBitVec]
  omega

theorem bind_le_bind {f g : UInt64} (hf : f < 0x80000000) (hg : g < 0x80000000) :
    (DbValue.uint64 f).bind ≤ (DbValue.uint64 g).bind ↔ f ≤ g := by
  rw [Int64.le_iff_toInt_le, toInt_bind hf, toInt_bind hg, UInt64.le_iff_toNat_le, Int.ofNat_le]

/-- Frames, as the client counts them in `int`s. -/
def FramesFitInt (es : List ProfilerEvent) : Prop := ∀ e ∈ es, e.frame < 0x80000000

instance (es : List ProfilerEvent) : Decidable (FramesFitInt es) :=
  inferInstanceAs (Decidable (∀ e ∈ es, e.frame < 0x80000000))

theorem FramesFitInt.noSentinel {es : List ProfilerEvent} (h : FramesFitInt es) :
    NoSentinel es := by
  intro e he hsentinel
  have hlt := h e he
  rw [hsentinel] at hlt
  exact absurd hlt (by decide)

/-- The query of `get_live_objects` returns the rows of its window, as they came. -/
theorem Recorded.selectEvents_eq {types callstacks : Interner} {db : Database}
    {es : List ProfilerEvent} (h : Recorded types callstacks db es) (hseq : Sequential es)
    (hframes : FramesFitInt es) {first last : UInt64} (hfirst : first < 0x80000000)
    (hlast : last < 0x80000000) :
    db.selectEvents first last =
      (es.filter fun e => first ≤ e.frame ∧ e.frame ≤ last).map (storedRow types callstacks) := by
  have hframe : ∀ e : ProfilerEvent, (storedRow types callstacks e).frame =
      (DbValue.uint64 e.frame).bind := fun e => by cases he : e.type <;> simp only [storedRow, he]
  have hselect : (es.filter fun e =>
      (DbValue.uint64 first).bind ≤ (storedRow types callstacks e).frame ∧
        (storedRow types callstacks e).frame ≤ (DbValue.uint64 last).bind) =
      es.filter fun e => first ≤ e.frame ∧ e.frame ≤ last := by
    refine List.filter_congr fun e he => decide_eq_decide.2 ?_
    rw [hframe, bind_le_bind hfirst (hframes e he), bind_le_bind (hframes e he) hlast]
  rw [Database.selectEvents, h.events, List.filter_map, Function.comp_def, hselect]
  refine List.Pairwise.insertionSort_eq (List.pairwise_map.2 ?_)
  refine (hseq.filter _).imp_of_mem fun {x y} hx hy hxy => ?_
  rw [hframe, hframe]
  have hfitx := hframes x (List.mem_filter.1 hx).1
  have hfity := hframes y (List.mem_filter.1 hy).1
  exact (bind_le_bind hfitx hfity).2 hxy

/-- The list of live objects is the replay of the events of its window. -/
theorem Recorded.getLiveObjects_eq {d : Recorder} {db : Database} {es : List ProfilerEvent}
    (hdb : d.db = some { db := db }) (h : Recorded d.types d.callstacks db es)
    (hseq : Sequential es) (hframes : FramesFitInt es) {fromFrame toFrame : Int32}
    {first last : UInt64} (hfrom : fromFrame.toInt64.toUInt64 = first)
    (hto : toFrame.toInt64.toUInt64 = last) (hfirst : first < 0x80000000)
    (hlast : last < 0x80000000) {progressFunc : Option (ℕ → ℕ → Bool)}
    (hprogress : NeverCancels progressFunc) :
    d.getLiveObjects fromFrame toFrame progressFunc =
      Dict.values (((es.filter fun e => first ≤ e.frame ∧ e.frame ≤ last).map
        (storedRow d.types d.callstacks)).foldl replayRow ∅) := by
  unfold Recorder.getLiveObjects
  simp only [hdb, hfrom, hto, h.selectEvents_eq hseq hframes hfirst hlast,
    replayRows_of_neverCancels hprogress]

/-! ### Two accounts of the memory -/

/-- The sum of a column over the statistics up to a frame. -/
def sumOfStats (stats : Dict Int64 StatsRow) (f : UInt64) (column : StatsRow → Int64) : UInt64 :=
  ((stats.entries.filter fun e => e.1 ≤ (DbValue.uint64 f).bind).map
    fun e => getUint64 (some (column e.2))).sum

/-- The stored statistics agree with the lists of live objects: for a frame with a row and without
events in the buffer, the running total is the sum of the sizes, and allocations without frees are
the number of objects. -/
def AccountsAgree (d : Recorder) (progressFunc : Option (ℕ → ℕ → Bool)) : Prop :=
  ∀ st f row, d.db = some st → st.db.frameStats.lookup (DbValue.uint64 f).bind = some row →
    (∀ e ∈ d.frameEvents, e.frame ≠ f) →
    let objects := d.getLiveObjects (toInt d.minFrame) (toInt f) progressFunc
    row.size = Int64.ofNat (objects.map fun o => o.size.toNat).sum ∧
      sumOfStats st.db.frameStats f StatsRow.allocs - sumOfStats st.db.frameStats f StatsRow.frees =
        UInt64.ofNat objects.length

theorem sum_ofNat (l : List ℕ) : (l.map UInt64.ofNat).sum = UInt64.ofNat l.sum := by
  induction l with
  | nil => rfl
  | cons n l ih => rw [List.map_cons, List.sum_cons, ih, List.sum_cons, UInt64.ofNat_add]

namespace Ingested

variable {d : Recorder} {db : Database} {saved es : List ProfilerEvent} {f : UInt64}

/-- A frame without events in the buffer has its statistics. -/
theorem stats_of_saved (h : Ingested d db saved es) (hf : ∀ e ∈ d.frameEvents, e.frame ≠ f) :
    db.frameStats.lookup (DbValue.uint64 f).bind = statsOf? es f := by
  cases hbuf : d.frameEvents with
  | nil => exact h.stats_of_nil hbuf f
  | cons e l =>
    have he : e ∈ d.frameEvents := by simp [hbuf]
    refine h.stats f fun hlast => hf e he ?_
    rw [h.frame_of_mem he, h.prevFrame, hlast, Option.getD_some]

/-- What is in the buffer comes after such a frame. -/
theorem not_le_of_mem_buffer (h : Ingested d db saved es) (hseq : Sequential es)
    (hmem : f ∈ es.map frame) (hf : ∀ e ∈ d.frameEvents, e.frame ≠ f) :
    ∀ e ∈ d.frameEvents, ¬ e.frame ≤ f := by
  intro e he hle
  obtain ⟨x, hx, rfl⟩ := List.mem_map.1 hmem
  rw [h.events] at hx hseq
  rcases List.mem_append.1 hx with hx | hx
  · exact hf e he (UInt64.le_antisymm hle ((List.pairwise_append.1 hseq).2.2 x hx e he))
  · exact hf x hx rfl

theorem filter_saved (h : Ingested d db saved es) (hseq : Sequential es) (hmem : f ∈ es.map frame)
    (hf : ∀ e ∈ d.frameEvents, e.frame ≠ f) :
    saved.filter (fun e => e.frame ≤ f) = es.filter fun e => e.frame ≤ f := by
  have hnone : d.frameEvents.filter (fun e => decide (e.frame ≤ f)) = [] :=
    List.filter_eq_nil_iff.2 fun e he => by
      simpa using UInt64.not_le.1 (h.not_le_of_mem_buffer hseq hmem hf e he)
  rw [h.events, List.filter_append, hnone, List.append_nil]

/-- The objects that are live at the end of such a frame. -/
theorem getLiveObjects_eq (h : Ingested d db saved es) (hseq : Sequential es)
    (hframes : FramesFitInt es) (hmem : f ∈ es.map frame)
    (hf : ∀ e ∈ d.frameEvents, e.frame ≠ f) {progressFunc : Option (ℕ → ℕ → Bool)}
    (hprogress : NeverCancels progressFunc) :
    d.getLiveObjects (toInt d.minFrame) (toInt f) progressFunc =
      Dict.values (((es.filter fun e => e.frame ≤ f).map
        (storedRow d.types d.callstacks)).foldl replayRow ∅) := by
  have hsub : saved.Sublist es := by
    rw [h.events]
    exact List.sublist_append_left _ _
  have hmin : ∀ e ∈ es, d.minFrame ≤ e.frame ∧ d.minFrame < 0x80000000 := by
    cases es with
    | nil => simp
    | cons x es =>
      rw [h.minFrame x rfl]
      intro e he
      refine ⟨?_, hframes x List.mem_cons_self⟩
      rcases List.mem_cons.1 he with rfl | he
      · exact UInt64.le_refl _
      · exact List.rel_of_pairwise_cons hseq he
  obtain ⟨x, hx, hxf⟩ := List.mem_map.1 hmem
  have hfbound : f < 0x80000000 := hxf ▸ hframes x hx
  have hwindow : (saved.filter fun e => d.minFrame ≤ e.frame ∧ e.frame ≤ f) =
      es.filter fun e => e.frame ≤ f := by
    rw [← h.filter_saved hseq hmem hf]
    exact List.filter_congr fun e he =>
      decide_eq_decide.2 (and_iff_right (hmin e (hsub.subset he)).1)
  rw [Recorded.getLiveObjects_eq h.opened h.recorded (hseq.sublist hsub)
    (fun e he => hframes e (hsub.subset he)) (toUInt64_toInt (hmin x hx).2)
    (toUInt64_toInt hfbound) (hmin x hx).2 hfbound hprogress, hwindow]

/-- The rows of the statistics up to a frame are those of the frames of the events up to it. -/
theorem stats_upTo_perm (h : Ingested d db saved es) (hseq : Sequential es)
    (hframes : FramesFitInt es) (hmem : f ∈ es.map frame)
    (hf : ∀ e ∈ d.frameEvents, e.frame ≠ f) :
    (db.frameStats.entries.filter fun e => e.1 ≤ (DbValue.uint64 f).bind).Perm
      (((es.filter fun e => e.frame ≤ f).map frame).dedup.map
        fun g => ⟨(DbValue.uint64 g).bind, statsOf es g⟩) := by
  have hfbound : f < 0x80000000 := by
    obtain ⟨x, hx, rfl⟩ := List.mem_map.1 hmem
    exact hframes x hx
  have hbuffer := h.not_le_of_mem_buffer hseq hmem hf
  have hframes' : ∀ g, g ∈ ((es.filter fun e => e.frame ≤ f).map frame).dedup ↔
      g ∈ es.map frame ∧ g ≤ f := by
    intro g
    simp only [List.mem_dedup, List.mem_map, List.mem_filter, decide_eq_true_eq]
    constructor
    · rintro ⟨e, ⟨he, hle⟩, rfl⟩
      exact ⟨⟨e, he, rfl⟩, hle⟩
    · rintro ⟨⟨e, he, rfl⟩, hle⟩
      exact ⟨e, ⟨he, hle⟩, rfl⟩
  have hinj : Function.Injective fun g : UInt64 =>
      (⟨(DbValue.uint64 g).bind, statsOf es g⟩ : Sigma fun _ : Int64 => StatsRow) :=
    fun g g' hg => bind_uint64_inj (congrArg Sigma.fst hg)
  refine (List.perm_ext_iff_of_nodup (db.frameStats.nodupKeys.nodup.filter _)
    ((List.nodup_dedup _).map hinj)).2 ?_
  rintro ⟨k, row⟩
  rw [List.mem_filter, ← AList.mem_lookup_iff, List.mem_map, Option.mem_def, decide_eq_true_eq]
  constructor
  · rintro ⟨hrow, hle⟩
    obtain ⟨g, rfl⟩ : ∃ g, (DbValue.uint64 g).bind = k := ⟨k.toUInt64, Int64.toInt64_toUInt64 k⟩
    -- the events in the buffer come after frame `f`, so none of them is of frame `g`
    have hsaved : ∀ e ∈ d.frameEvents, e.frame ≠ g := by
      rintro e he rfl
      have hes : e ∈ es := by rw [h.events]; simp [he]
      exact hbuffer e he ((bind_le_bind (hframes e hes) hfbound).1 hle)
    rw [h.stats_of_saved hsaved, statsOf?] at hrow
    split_ifs at hrow with hg
    have hgbound : g < 0x80000000 := by
      obtain ⟨x, hx, rfl⟩ := List.mem_map.1 hg
      exact hframes x hx
    refine ⟨g, (hframes' g).2 ⟨hg, (bind_le_bind hgbound hfbound).1 hle⟩, ?_⟩
    rw [Option.some.inj hrow]
  · rintro ⟨g, hg, heq⟩
    obtain ⟨hg, hle⟩ := (hframes' g).1 hg
    cases heq
    have hgbound : g < 0x80000000 := by
      obtain ⟨x, hx, rfl⟩ := List.mem_map.1 hg
      exact hframes x hx
    refine ⟨?_, (bind_le_bind hgbound hfbound).2 hle⟩
    rw [h.stats_of_saved fun e he hgf => hbuffer e he (hgf ▸ hle), statsOf?, if_pos hg]

/-- A column that counts events sums up to the count of all events up to the frame. -/
theorem sumOfStats_eq (h : Ingested d db saved es) (hseq : Sequential es)
    (hframes : FramesFitInt es) (hmem : f ∈ es.map frame)
    (hf : ∀ e ∈ d.frameEvents, e.frame ≠ f) {column : StatsRow → Int64}
    {p : ProfilerEvent → Bool}
    (hcolumn : ∀ g, column (statsOf es g) = Int64.ofNat ((lastBlock frame g es).countP p)) :
    sumOfStats db.frameStats f column =
      UInt64.ofNat ((es.filter fun e => e.frame ≤ f).countP p) := by
  have hperm := (h.stats_upTo_perm hseq hframes hmem hf).map fun e => getUint64 (some (column e.2))
  refine hperm.sum_eq.trans ?_
  have hcount : ∀ l : List ProfilerEvent, ((l.map frame).dedup.map fun g =>
      (l.filter fun e => e.frame = g).countP p).sum = l.countP p := fun l =>
    sum_countP_filter (List.nodup_dedup _) fun e he => List.mem_dedup.2 (List.mem_map_of_mem he)
  rw [List.map_map, ← hcount, ← sum_ofNat, List.map_map]
  refine congrArg List.sum (List.map_congr_left fun g hg => ?_)
  have hle : g ≤ f := by
    obtain ⟨e, he, rfl⟩ := List.mem_map.1 (List.mem_dedup.1 hg)
    exact of_decide_eq_true (List.mem_filter.1 he).2
  have hblock : lastBlock frame g es =
      (es.filter fun e => e.frame ≤ f).filter fun e => e.frame = g := by
    rw [lastBlock_eq_filter hseq, List.filter_filter]
    refine List.filter_congr fun e _ => ?_
    by_cases he : e.frame = g <;> simp [he, hle]
  change getUint64 (some (column (statsOf es g))) = UInt64.ofNat _
  rw [hcolumn, ← bind_uint64_ofNat, getUint64_bind, hblock]

theorem accountsAgree (h : Ingested d db saved es) (hseq : Sequential es)
    (hframes : FramesFitInt es) (hwf : AllocLog.WellFormed (es.map event))
    {progressFunc : Option (ℕ → ℕ → Bool)} (hprogress : NeverCancels progressFunc) :
    AccountsAgree d progressFunc := by
  intro st f row hst hrow hf
  obtain rfl : { db := db } = st := by
    have := h.opened.symm.trans hst
    simpa using this
  rw [h.stats_of_saved hf, statsOf?] at hrow
  split_ifs at hrow with hmem
  cases hrow
  have hthrough : through frame f es = es.filter fun e => e.frame ≤ f :=
    through_eq_filter hseq (List.mem_map.1 hmem)
  have hprefix : es.filter (fun e => e.frame ≤ f) <+: es :=
    hthrough ▸ List.rdropWhile_prefix _ _
  -- a prefix of an alternating log alternates, so the replay finds every object it frees
  have hwf' : AllocLog.WellFormed ((es.filter fun e => e.frame ≤ f).map event) := by
    obtain ⟨rest, hrest⟩ := hprefix
    have hall := hwf
    rw [← hrest, List.map_append] at hall
    exact hall.of_prefix
  obtain ⟨hsizes, hlength⟩ := liveObjects_totals d.types d.callstacks hwf'
  rw [h.getLiveObjects_eq hseq hframes hmem hf hprogress]
  constructor
  · change Int64.ofInt (netSize (through frame f es)) = _
    rw [hthrough, ← hsizes]
    rfl
  · have hallocs : sumOfStats db.frameStats f StatsRow.allocs =
        UInt64.ofNat (allocCount (es.filter fun e => e.frame ≤ f)) :=
      h.sumOfStats_eq hseq hframes hmem hf fun _ => rfl
    have hfrees : sumOfStats db.frameStats f StatsRow.frees =
        UInt64.ofNat (freeCount (es.filter fun e => e.frame ≤ f)) :=
      h.sumOfStats_eq hseq hframes hmem hf fun _ => rfl
    rw [hallocs, hfrees, ← hlength, UInt64.ofNat_add, UInt64.add_sub_cancel]

end Ingested

/-- **Two accounts of the memory agree**, after every message of a well-formed stream. -/
theorem accounts_agree (u : Uninit) {msgs : List Packet} {es : List ProfilerEvent}
    (hmsgs : List.Forall₂ Carries msgs es) (hseq : Sequential es) (hframes : FramesFitInt es)
    (hwf : AllocLog.WellFormed (es.map event)) {progressFunc : Option (ℕ → ℕ → Bool)}
    (hprogress : NeverCancels progressFunc) :
    AccountsAgree (freshClient.processMessages u msgs).toRecorder progressFunc := by
  rw [Details.processMessages_of_carries hmsgs]
  obtain ⟨db, saved, h⟩ := ingested_freshClient hframes.noSentinel
  exact h.accountsAgree hseq hframes hwf hprogress

/-- One object that stays, one that goes, and the first event of the next frame. -/
def twoObjects : List Report :=
  [.alloc 0 16 64 (.ofLit "Big") (.ofLit "Main"), .alloc 1 32 8 (.ofLit "Small") (.ofLit "Main"),
    .free 1 32 8, .alloc 2 32 24 (.ofLit "Small") (.ofLit "Main")]

theorem carries_twoObjects :
    List.Forall₂ Carries (twoObjects.map reportPacket)
      (twoObjects.filterMap Report.profilerEvent) :=
  .cons (carries_reportPacket rfl (by simp [reportPacket]; decide))
    (.cons (carries_reportPacket rfl (by simp [reportPacket]; decide))
      (.cons (carries_reportPacket rfl (by simp [reportPacket]))
        (.cons (carries_reportPacket rfl (by simp [reportPacket]; decide)) .nil)))

theorem wellFormed_twoObjects :
    AllocLog.WellFormed ((twoObjects.filterMap Report.profilerEvent).map event) := by
  have h0 : AllocLog.WellFormed ([.alloc 16 64] : List (AllocLog.Event UInt64 UInt32)) :=
    AllocLog.wellFormed_nil.append_alloc (by decide) 64
  have h1 := h0.append_alloc (a := 32) (by decide) 8
  have h2 := h1.append_free (a := 32) (s := 8) (by decide)
  exact h2.append_alloc (a := 32) (by decide) 24

theorem accounts_agree_twoObjects :
    AccountsAgree (freshClient.processMessages ⟨0, 0, 0⟩ (twoObjects.map reportPacket)).toRecorder
      none :=
  accounts_agree ⟨0, 0, 0⟩ carries_twoObjects (by decide) (by decide) wellFormed_twoObjects
    (fun _ h => (by cases h))

end Owlcat
