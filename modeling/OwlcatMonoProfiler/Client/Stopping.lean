import OwlcatMonoProfiler.Client.Sessions

/-!
# The end of a session

What the database holds when the message thread returns.  The last call of `try_save_events` gets
the frame of the first event that is left, which is the current frame, and then saves nothing.

* `Sound`: what holds of the database after any events;
* `Ingested.submitLastEvents_eq`: the last call has no effect;
* `NoEventLost`: every event is stored, and every frame has its statistics;
* `noEventLost_iff`: when that is so.
-/

namespace Owlcat

open Blocks ProfilerEvent

/-- Rows are those of some events, and no statistics are stored for the frame that stands for no
frame. -/
def Sound (db : Option Storage) (types callstacks : Interner) : Prop :=
  ∃ contents saved, db = some { db := contents } ∧ Recorded types callstacks contents saved ∧
    contents.frameStats.lookup (DbValue.uint64 Recorder.noFrame).bind = none

theorem Sound.saveFrameEvents {d : Recorder} (h : Sound d.db d.types d.callstacks) :
    Sound d.saveFrameEvents.db d.saveFrameEvents.types d.saveFrameEvents.callstacks := by
  obtain ⟨db, saved, hdb, hrec, hnone⟩ := h
  by_cases hprev : d.prevFrame = Recorder.noFrame
  · rw [Recorder.saveFrameEvents_of_noFrame hprev]
    exact ⟨db, saved, hdb, hrec, hnone⟩
  · obtain ⟨db', types, callstacks, heq, hrec', hstats⟩ :=
      Recorder.saveFrameEvents_spec hdb hrec hprev
    rw [heq]
    refine ⟨db', saved ++ d.frameEvents, rfl, hrec', ?_⟩
    rw [hstats, AList.lookup_insert_ne fun h => hprev (bind_uint64_inj h).symm]
    exact hnone

theorem Sound.addEvents {d : Recorder} (h : Sound d.db d.types d.callstacks)
    (es : List ProfilerEvent) :
    Sound (d.addEvents es).db (d.addEvents es).types (d.addEvents es).callstacks := by
  induction es generalizing d with
  | nil => exact h
  | cons e es ih => exact ih (Recorder.holds_addEvent (fun _ h => h.saveFrameEvents) h e)

theorem sound_freshClient (es : List ProfilerEvent) :
    let d := (freshClient.toRecorder.addEvents es).submitLastEvents
    Sound d.db d.types d.callstacks := by
  have h : Sound freshClient.db freshClient.types freshClient.callstacks :=
    ⟨{}, [], rfl, .nil, rfl⟩
  exact Recorder.holds_submitLastEvents (fun _ h => h.saveFrameEvents) (h.addEvents es)

/-! ### The last call -/

namespace Ingested

variable {d : Recorder} {db : Database} {saved es : List ProfilerEvent}

/-- The buffer holds events of the current frame only. -/
theorem frame_of_mem (h : Ingested d db saved es) {e : ProfilerEvent} (he : e ∈ d.frameEvents) :
    e.frame = d.prevFrame := by
  have hlen : d.frameEvents.length ≤ (trailing frame es).length := by
    rw [h.length]
    exact Nat.mod_le _ _
  have hsuffix : d.frameEvents <:+ trailing frame es :=
    List.suffix_of_suffix_length_le ⟨saved, h.events.symm⟩ trailing_suffix hlen
  have hlast := lastKey_of_mem_trailing (hsuffix.subset he)
  rw [h.prevFrame, hlast, Option.getD_some]

/-- So the last call of `try_save_events` has no effect. -/
theorem submitLastEvents_eq (h : Ingested d db saved es) : d.submitLastEvents = d :=
  Recorder.Submitted.submitLastEvents_eq fun _ he => h.frame_of_mem (List.mem_of_mem_head? he)

/-- Everything is stored when nothing is left of the last frame. -/
theorem storedPart_eq_iff (es : List ProfilerEvent) :
    storedPart es = es ↔ (trailing frame es).length % 10001 = 0 := by
  have hle : (trailing frame es).length % 10001 ≤ es.length :=
    (Nat.mod_le _ _).trans length_trailing_le
  rw [storedPart, List.take_eq_self_iff]
  omega

end Ingested

/-! ### What a finished session has stored -/

/-- The events of a frame come one after the other. -/
def Contiguous (es : List ProfilerEvent) : Prop :=
  ∀ f, lastBlock frame f es = es.filter fun e => e.frame = f

/-- Every event is stored, exactly once, and every frame with events has a row with the numbers of
its events and the running total after the last of them. -/
def NoEventLost (d : Recorder) (es : List ProfilerEvent) : Prop :=
  ∃ db, d.db = some { db := db } ∧
    List.Forall₂ (Represents d.types d.callstacks) db.profilerEvents es ∧
    ∀ f ∈ es.map frame, db.frameStats.lookup (DbValue.uint64 f).bind =
      some ⟨Int64.ofNat (allocCount (es.filter fun e => e.frame = f)),
        Int64.ofNat (freeCount (es.filter fun e => e.frame = f)),
        Int64.ofInt (netSize (through frame f es))⟩

/-- The streams of events that are stored completely. -/
structure Storable (es : List ProfilerEvent) : Prop where
  noSentinel : NoSentinel es
  contiguous : Contiguous es
  fitsInt : ∀ e ∈ es, FitsInt e
  fullBuffers : (trailing frame es).length % 10001 = 0

theorem ofNat_inj {m n : ℕ} (hm : m < 2 ^ 64) (hn : n < 2 ^ 64)
    (h : Int64.ofNat m = Int64.ofNat n) : m = n := by
  rw [← UInt64.toInt64_ofNat', ← UInt64.toInt64_ofNat'] at h
  have h' := congrArg (fun x : Int64 => x.toUInt64.toNat) h
  simpa [UInt64.toNat_ofNat_of_lt' hm, UInt64.toNat_ofNat_of_lt' hn] using h'

theorem length_eq_counts (es : List ProfilerEvent) :
    es.length = allocCount es + freeCount es := by
  induction es with
  | nil => rfl
  | cons e es ih =>
    cases he : e.type <;> simp [allocCount, freeCount, he] at ih ⊢ <;> omega

/-- A last block with the counts of the whole frame is the whole frame. -/
theorem lastBlock_eq_filter_of_counts {es : List ProfilerEvent} {f : UInt64}
    (hlen : es.length < 2 ^ 64)
    (hallocs : Int64.ofNat (allocCount (lastBlock frame f es)) =
      Int64.ofNat (allocCount (es.filter fun e => e.frame = f)))
    (hfrees : Int64.ofNat (freeCount (lastBlock frame f es)) =
      Int64.ofNat (freeCount (es.filter fun e => e.frame = f))) :
    lastBlock frame f es = es.filter fun e => e.frame = f := by
  have hsub : (lastBlock frame f es).Sublist (es.filter fun e => e.frame = f) := lastBlock_sublist
  have hblock := length_eq_counts (lastBlock frame f es)
  have hfilter := length_eq_counts (es.filter fun e => e.frame = f)
  have hle := hsub.length_le
  have hle' : (es.filter fun e => e.frame = f).length ≤ es.length := List.length_filter_le _ _
  refine hsub.eq_of_length ?_
  have h1 := ofNat_inj (by omega) (by omega) hallocs
  have h2 := ofNat_inj (by omega) (by omega) hfrees
  omega

namespace Ingested

variable {d : Recorder} {db : Database} {saved es : List ProfilerEvent}

/-- With an empty buffer, all frames have their statistics. -/
theorem stats_of_nil (h : Ingested d db saved es) (hnil : d.frameEvents = []) (f : UInt64) :
    db.frameStats.lookup (DbValue.uint64 f).bind = statsOf? es f := by
  by_cases hlast : lastKey frame es = some f
  · exact h.last hnil f hlast
  · exact h.stats f hlast

/-- The buffer is empty when everything is stored. -/
theorem frameEvents_eq_nil_iff (h : Ingested d db saved es) :
    d.frameEvents = [] ↔ (trailing frame es).length % 10001 = 0 := by
  rw [← h.length, List.length_eq_zero_iff]

theorem noEventLost (h : Ingested d db saved es) (hstorable : Storable es) : NoEventLost d es := by
  have hnil : d.frameEvents = [] := h.frameEvents_eq_nil_iff.2 hstorable.fullBuffers
  have hsaved : saved = es := by rw [h.events, hnil, List.append_nil]
  refine ⟨db, h.opened, ?_, fun f hf => ?_⟩
  · rw [← hsaved, h.recorded.represents_iff, hsaved]
    exact hstorable.fitsInt
  · rw [h.stats_of_nil hnil, statsOf?, if_pos hf, statsOf, hstorable.contiguous f]

theorem storable (h : Ingested d db saved es) (hno : NoSentinel es) (hlen : es.length < 2 ^ 64)
    (hlost : NoEventLost d es) : Storable es := by
  obtain ⟨db', hdb', hrows, hstats⟩ := hlost
  obtain rfl : db = db' := by
    have := h.opened.symm.trans hdb'
    simpa using this
  have hsaved : saved = es := by
    have hrowsLen := hrows.length_eq
    rw [h.recorded.events, List.length_map] at hrowsLen
    have hprefix : saved <+: es := ⟨d.frameEvents, h.events.symm⟩
    exact hprefix.eq_of_length hrowsLen
  have hnil : d.frameEvents = [] := by
    have hevents := h.events
    rw [hsaved] at hevents
    exact List.self_eq_append_right.1 hevents
  refine ⟨hno, fun f => ?_, ?_, h.frameEvents_eq_nil_iff.1 hnil⟩
  · by_cases hf : f ∈ es.map frame
    · have hrow := hstats f hf
      rw [h.stats_of_nil hnil, statsOf?, if_pos hf, Option.some.injEq, statsOf,
        StatsRow.mk.injEq] at hrow
      exact lastBlock_eq_filter_of_counts hlen hrow.1 hrow.2.1
    · have hnone : (es.filter fun e => decide (e.frame = f)) = [] :=
        List.filter_eq_nil_iff.2 fun e he => by
          simpa using fun hef => hf (List.mem_map.2 ⟨e, he, hef⟩)
      exact (List.sublist_nil.1 (hnone ▸ lastBlock_sublist)).trans hnone.symm
  · have hfits := h.recorded.represents_iff.1 (by rw [hsaved]; exact hrows)
    rwa [hsaved] at hfits

end Ingested

/-- What a session of a fresh client makes of well-formed event messages. -/
theorem run_session_freshClient {u : Uninit} {msgs : List Packet} {es : List ProfilerEvent}
    {l : List Details.Action} {d : Details} (hmsgs : List.Forall₂ Carries msgs es)
    (hl : Details.Session msgs l) (hrun : Run.run (Details.step u) freshClient l = some d)
    (hreturned : d.thread = .returned) :
    d.toRecorder = (freshClient.toRecorder.addEvents es).submitLastEvents := by
  rw [Details.run_session rfl rfl ⟨rfl, rfl⟩ rfl (Or.inr rfl) hl hrun hreturned,
    decodeEvents_of_carries hmsgs]

/-- **No event is lost when a session is stopped** exactly when the stream is `Storable`. -/
theorem noEventLost_iff (u : Uninit) {msgs : List Packet} {es : List ProfilerEvent}
    {l : List Details.Action} {d : Details} (hmsgs : List.Forall₂ Carries msgs es)
    (hl : Details.Session msgs l) (hrun : Run.run (Details.step u) freshClient l = some d)
    (hreturned : d.thread = .returned) :
    (Storable es → NoEventLost d.toRecorder es) ∧
      (es.length < 2 ^ 64 → NoEventLost d.toRecorder es → Storable es) := by
  rw [run_session_freshClient hmsgs hl hrun hreturned]
  by_cases hno : NoSentinel es
  · obtain ⟨db, saved, h⟩ := ingested_freshClient hno
    rw [h.submitLastEvents_eq]
    exact ⟨h.noEventLost, h.storable hno⟩
  · -- the frame that stands for no frame never has statistics
    refine ⟨fun hstorable => absurd hstorable.noSentinel hno, fun _ hlost => absurd ?_ hno⟩
    intro e he hsentinel
    obtain ⟨db, hdb, -, hstats⟩ := hlost
    obtain ⟨db', saved, hdb', -, hnone⟩ := sound_freshClient es
    obtain rfl : db = db' := by
      have := hdb.symm.trans hdb'
      simpa using this
    have hrow := hstats e.frame (List.mem_map_of_mem he)
    rw [hsentinel, hnone] at hrow
    cases hrow

/-- The first event of the last frame is still in the buffer when the session ends. -/
theorem noEventLost_iff_object :
    ∃ l d, Details.Session ((objectOfSize 64).map reportPacket) l ∧
      Run.run (Details.step ⟨0, 0, 0⟩) freshClient l = some d ∧ d.thread = .returned ∧
      ¬ NoEventLost d.toRecorder ((objectOfSize 64).filterMap Report.profilerEvent) := by
  obtain ⟨l, d, hl, hrun, hreturned⟩ :=
    Details.exists_session ⟨0, 0, 0⟩ (d := freshClient) rfl (Or.inr rfl)
      ((objectOfSize 64).map reportPacket)
  have hiff := noEventLost_iff ⟨0, 0, 0⟩ (carries_objectOfSize 64) hl hrun hreturned
  refine ⟨l, d, hl, hrun, hreturned, fun hlost => ?_⟩
  have hfull := (hiff.2 (by decide) hlost).fullBuffers
  revert hfull
  decide

theorem event_lost_at_stop :
    ¬ ∀ (u : Uninit) (msgs : List Packet) (es : List ProfilerEvent) (l : List Details.Action)
      (d : Details), List.Forall₂ Carries msgs es → Details.Session msgs l →
        Run.run (Details.step u) freshClient l = some d → d.thread = .returned →
          NoEventLost d.toRecorder es := by
  intro h
  obtain ⟨l, d, hl, hrun, hreturned⟩ :=
    Details.exists_session ⟨0, 0, 0⟩ (d := freshClient) rfl (Or.inr rfl)
      ((objectOfSize 64).map reportPacket)
  obtain ⟨db, hdb, hrows, -⟩ := h _ _ _ l d (carries_objectOfSize 64) hl hrun hreturned
  rw [run_session_freshClient (carries_objectOfSize 64) hl hrun hreturned] at hdb
  cases hdb
  have hlen := hrows.length_eq
  revert hlen
  decide

end Owlcat
