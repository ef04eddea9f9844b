import OwlcatMonoProfiler.Client.Stopping
import OwlcatMonoProfiler.Client.Traces

/-!
# Sessions of one client

`start` opens a new database and leaves all other members as they are.  A session of a client with a
history is compared with a session of a fresh client that is sent the same messages.

* `buffered`, `storedAtEnd`: which events of a stream a fresh client has stored at the end, whatever
  the frames are;
* `AgreeOff`: two clients that differ only in what they know about some texts;
* `Beside`: both of them in the same session, which stays so while the stored events have other
  texts;
* `Between`: what a history leaves behind;
* `isolated_iff`: when the session is the one of a fresh client.
-/

namespace Owlcat

/-! ### What is stored -/

/-- The length of the buffer and the current frame, after an event of a frame. -/
def bufferStep (b : ℕ × UInt64) (frame : UInt64) : ℕ × UInt64 :=
  let n := if frame ≠ b.2 ∧ b.2 ≠ Recorder.noFrame then 1 else b.1 + 1
  (if 10000 < n ∧ frame ≠ Recorder.noFrame then 0 else n, frame)

/-- The length of the buffer and the current frame, after a stream of events. -/
def buffered (es : List ProfilerEvent) : ℕ × UInt64 :=
  es.foldl (fun b e => bufferStep b e.frame) (0, Recorder.noFrame)

/-- The events that are in the database when the session has ended.  What is in the buffer is not,
unless it begins with an event of another frame than the current one. -/
def storedAtEnd (es : List ProfilerEvent) : List ProfilerEvent :=
  let b := buffered es
  let rest := es.drop (es.length - b.1)
  if rest.head?.any fun e => e.frame ≠ b.2 ∧ b.2 ≠ Recorder.noFrame then es
  else es.take (es.length - b.1)

theorem length_storedAtEnd_le (es : List ProfilerEvent) : (storedAtEnd es).length ≤ es.length := by
  unfold storedAtEnd
  simp only
  split_ifs
  · rfl
  · exact List.length_take_le' _ _

namespace Recorder

/-- The length of the buffer and the current frame. -/
def buffer (d : Recorder) : ℕ × UInt64 := (d.frameEvents.length, d.prevFrame)

theorem frameEvents_trySaveEvents (d : Recorder) (frame : UInt64) :
    (d.trySaveEvents frame).frameEvents =
      if frame ≠ d.prevFrame ∧ d.prevFrame ≠ noFrame then [] else d.frameEvents := by
  rw [trySaveEvents]
  by_cases hsame : frame = d.prevFrame
  · rw [if_neg (not_not.2 hsame), if_neg fun h => h.1 hsame]
  · rw [if_pos hsame]
    by_cases hprev : d.prevFrame = noFrame
    · have hbounds : (d.updateFrameBounds frame).prevFrame = noFrame := hprev
      rw [if_neg fun h => h.2 hprev, saveFrameEvents_of_noFrame hbounds]
      rfl
    · rw [if_pos ⟨hsame, hprev⟩]
      exact frameEvents_saveFrameEvents (d.updateFrameBounds frame) hprev

theorem prevFrame_trySaveEvents (d : Recorder) (frame : UInt64) :
    (d.trySaveEvents frame).prevFrame = frame := by
  rw [trySaveEvents]
  split_ifs with hsame
  · rfl
  · exact (not_not.1 hsame).symm

theorem prevFrame_saveEvent (d : Recorder) (e : ProfilerEvent) :
    (d.saveEvent e).prevFrame = d.prevFrame := by
  have htype : ∀ d : Recorder, (d.getOrCreateTypeId e.objType).2.prevFrame = d.prevFrame := by
    intro d
    unfold getOrCreateTypeId
    cases d.types.toId.lookup e.objType <;> rfl
  have hcallstack : ∀ d : Recorder,
      (d.getOrCreateCallstackId e.callstack).2.prevFrame = d.prevFrame := by
    intro d
    unfold getOrCreateCallstackId
    cases d.callstacks.toId.lookup e.callstack <;> rfl
  unfold saveEvent
  cases e.type with
  | alloc => exact (hcallstack _).trans (htype d)
  | free => rfl

theorem prevFrame_foldl_saveEvent (d : Recorder) (l : List ProfilerEvent) :
    (l.foldl saveEvent d).prevFrame = d.prevFrame := by
  induction l generalizing d with
  | nil => rfl
  | cons e l ih => rw [List.foldl_cons, ih, prevFrame_saveEvent]

theorem prevFrame_saveFrameEvents (d : Recorder) : d.saveFrameEvents.prevFrame = d.prevFrame := by
  rw [saveFrameEvents]
  split_ifs
  · rfl
  · exact prevFrame_foldl_saveEvent d.beginTransaction d.frameEvents

theorem prevFrame_addEvent (d : Recorder) (e : ProfilerEvent) :
    (d.addEvent e).prevFrame = e.frame := by
  refine Eq.trans ?_ (prevFrame_trySaveEvents d e.frame)
  unfold addEvent pushEvent
  cases e.type <;> rfl

theorem frameEvents_addEvent (d : Recorder) (e : ProfilerEvent) :
    (d.addEvent e).frameEvents =
      (if e.frame ≠ d.prevFrame ∧ d.prevFrame ≠ noFrame then [] else d.frameEvents) ++ [e] := by
  rw [addEvent, Ready.frameEvents_pushEvent, frameEvents_trySaveEvents]

theorem frameEvents_flush (d : Recorder) :
    d.flush.frameEvents =
      if 10000 < d.frameEvents.length ∧ d.prevFrame ≠ noFrame then [] else d.frameEvents := by
  rw [flush]
  by_cases hlen : d.frameEvents.length > 10000
  · rw [if_pos hlen]
    by_cases hprev : d.prevFrame = noFrame
    · rw [if_neg fun h => h.2 hprev, saveFrameEvents_of_noFrame hprev]
    · rw [if_pos ⟨hlen, hprev⟩, frameEvents_saveFrameEvents d hprev]
  · rw [if_neg hlen, if_neg fun h => hlen h.1]

theorem prevFrame_flush (d : Recorder) : d.flush.prevFrame = d.prevFrame := by
  rw [flush]
  split_ifs
  · exact prevFrame_saveFrameEvents d
  · rfl

/-- One event. -/
theorem buffer_addEvent (d : Recorder) (e : ProfilerEvent) :
    (d.addEvent e).flush.buffer = bufferStep d.buffer e.frame := by
  have hlen : (d.addEvent e).frameEvents.length =
      if e.frame ≠ d.prevFrame ∧ d.prevFrame ≠ noFrame then 1 else d.frameEvents.length + 1 := by
    rw [frameEvents_addEvent, List.length_append]
    split_ifs <;> rfl
  refine Prod.ext ?_ ((prevFrame_flush _).trans (prevFrame_addEvent d e))
  show (d.addEvent e).flush.frameEvents.length = (bufferStep d.buffer e.frame).1
  rw [frameEvents_flush, prevFrame_addEvent, apply_ite List.length, hlen]
  rfl

theorem buffer_addEvents {d : Recorder} (h : d.buffer = (0, noFrame)) (es : List ProfilerEvent) :
    (d.addEvents es).buffer = buffered es := by
  induction es using List.reverseRecOn with
  | nil => exact h
  | append_singleton es e ih =>
    rw [addEvents_append, buffered, List.foldl_append]
    show ((d.addEvents es).addEvent e).flush.buffer = bufferStep (buffered es) e.frame
    rw [buffer_addEvent, ih]

theorem frameEvents_submitLastEvents (d : Recorder) :
    d.submitLastEvents.frameEvents =
      if d.frameEvents.head?.any fun e => e.frame ≠ d.prevFrame ∧ d.prevFrame ≠ noFrame then []
      else d.frameEvents := by
  unfold submitLastEvents
  cases hd : d.frameEvents with
  | nil => simpa using hd
  | cons e l => simp [frameEvents_trySaveEvents, hd]

end Recorder

/-! ### Clients that differ in what they know -/

/-- Both pairs of maps give the same ids to the texts that `base` does not know. -/
structure Interner.AgreeOff (base i j : Interner) : Prop where
  nextId : i.nextId = j.nextId
  lookup : ∀ text, text ∉ base.toId → i.toId.lookup text = j.toId.lookup text

/-- Asking for the id of such a text has the same outcome. -/
theorem Interner.AgreeOff.intern {base i j : Interner} (h : AgreeOff base i j) {text : List UInt8}
    (htext : text ∉ base.toId) (table : Dict Int64 (List UInt8)) :
    (i.intern table text).1 = (j.intern table text).1 ∧
      AgreeOff base (i.intern table text).2.1 (j.intern table text).2.1 ∧
      (i.intern table text).2.2 = (j.intern table text).2.2 := by
  unfold Interner.intern
  rw [h.lookup text htext]
  cases hj : j.toId.lookup text with
  | some id => exact ⟨rfl, h, rfl⟩
  | none =>
    have hi : i.toId.lookup text = none := (h.lookup text htext).trans hj
    refine ⟨h.nextId, ⟨?_, fun text' htext' => ?_⟩, ?_⟩
    · show i.nextId + 1 = j.nextId + 1
      rw [h.nextId]
    · rw [lookup_create hi, lookup_create hj, h.nextId, h.lookup text' htext']
    · rw [h.nextId]

/-- An event with texts that the maps do not know. -/
def New (types callstacks : Interner) (e : ProfilerEvent) : Prop :=
  e.type = .alloc → e.objType ∉ types.toId ∧ e.callstack ∉ callstacks.toId

instance (types callstacks : Interner) (e : ProfilerEvent) : Decidable (New types callstacks e) :=
  inferInstanceAs (Decidable (_ → _))

section AgreeOff

variable (types callstacks : Interner)

/-- The same contents, with maps that agree. -/
structure Records.AgreeOff (r r' : Records) : Prop where
  db : r.db = r'.db
  types : types.AgreeOff r.types r'.types
  callstacks : callstacks.AgreeOff r.callstacks r'.callstacks

/-- The same members, but for the maps and the bounds of the frames. -/
structure Recorder.AgreeOff (d f : Recorder) : Prop where
  db : d.db = f.db
  frameEvents : d.frameEvents = f.frameEvents
  prevFrame : d.prevFrame = f.prevFrame
  frameAllocs : d.frameAllocs = f.frameAllocs
  frameFrees : d.frameFrees = f.frameFrees
  sizeRunningTotal : d.sizeRunningTotal = f.sizeRunningTotal
  types : types.AgreeOff d.types f.types
  callstacks : callstacks.AgreeOff d.callstacks f.callstacks

variable {types callstacks}

/-- A new event is saved in the same way. -/
theorem Records.AgreeOff.save {r r' : Records} (h : r.AgreeOff types callstacks r')
    {e : ProfilerEvent} (he : New types callstacks e) :
    (r.save e).AgreeOff types callstacks (r'.save e) := by
  obtain ⟨hdb, htypes, hcallstacks⟩ := h
  cases htype : e.type with
  | free =>
    simp only [Records.save, htype, hdb, storedRow]
    exact ⟨rfl, htypes, hcallstacks⟩
  | alloc =>
    obtain ⟨hnew, hnew'⟩ := he htype
    obtain ⟨-, ht, htable⟩ := htypes.intern hnew r'.db.objectTypes
    obtain ⟨-, hc, hctable⟩ := hcallstacks.intern hnew' r'.db.callstacks
    simp only [Records.save, htype, hdb, storedRow]
    refine ⟨?_, ht, hc⟩
    rw [htable, hctable, ht.lookup _ hnew, hc.lookup _ hnew']

theorem Records.AgreeOff.foldl_save {r r' : Records} (h : r.AgreeOff types callstacks r')
    {l : List ProfilerEvent} (hl : ∀ e ∈ l, New types callstacks e) :
    (l.foldl Records.save r).AgreeOff types callstacks (l.foldl Records.save r') := by
  induction l generalizing r r' with
  | nil => exact h
  | cons e l ih =>
    obtain ⟨he, hl⟩ := List.forall_mem_cons.1 hl
    exact ih (h.save he) hl

namespace Recorder.AgreeOff

variable {d f : Recorder}

theorem saveFrameEvents (h : d.AgreeOff types callstacks f) {db : Database}
    (hdb : f.db = some { db := db }) (hnew : ∀ e ∈ f.frameEvents, New types callstacks e) :
    d.saveFrameEvents.AgreeOff types callstacks f.saveFrameEvents := by
  by_cases hprev : f.prevFrame = noFrame
  · rw [saveFrameEvents_of_noFrame hprev, saveFrameEvents_of_noFrame (h.prevFrame.trans hprev)]
    exact h
  · have hprev' : d.prevFrame ≠ noFrame := h.prevFrame ▸ hprev
    have hrec : Records.AgreeOff types callstacks ⟨db, d.types, d.callstacks⟩
        ⟨db, f.types, f.callstacks⟩ := ⟨rfl, h.types, h.callstacks⟩
    obtain ⟨hsame, ht, hc⟩ := hrec.foldl_save hnew
    rw [saveFrameEvents_record hdb hprev, saveFrameEvents_record (h.db.trans hdb) hprev']
    rw [← h.frameEvents] at hsame ht hc ⊢
    have hstats : d.currentStats = f.currentStats := by
      rw [currentStats, currentStats, h.frameAllocs, h.frameFrees, h.sizeRunningTotal]
    refine ⟨?_, rfl, h.prevFrame, h.frameAllocs, h.frameFrees, h.sizeRunningTotal, ht, hc⟩
    simp only [db_record, hsame, hstats, h.prevFrame]

theorem startFrame (h : d.AgreeOff types callstacks f) (frame : UInt64) :
    (d.startFrame frame).AgreeOff types callstacks (f.startFrame frame) :=
  ⟨h.db, h.frameEvents, rfl, rfl, rfl, h.sizeRunningTotal, h.types, h.callstacks⟩

theorem updateFrameBounds (h : d.AgreeOff types callstacks f) (frame : UInt64) :
    (d.updateFrameBounds frame).AgreeOff types callstacks (f.updateFrameBounds frame) :=
  ⟨h.db, h.frameEvents, h.prevFrame, h.frameAllocs, h.frameFrees, h.sizeRunningTotal, h.types,
    h.callstacks⟩

theorem pushEvent (h : d.AgreeOff types callstacks f) (e : ProfilerEvent) :
    (d.pushEvent e).AgreeOff types callstacks (f.pushEvent e) := by
  obtain ⟨hdb, hevents, hprev, hallocs, hfrees, htotal, ht, hc⟩ := h
  unfold Recorder.pushEvent
  cases e.type <;> constructor <;>
    simp only [hdb, hevents, hprev, hallocs, hfrees, htotal, ht, hc]

end Recorder.AgreeOff

/-! ### The same session -/

/-- The clients `d` and `f` in the same session, after the events `es`.  Of these `saved` are in the
database of `f`, and `d` agrees with it so long as they are new. -/
structure Beside (types callstacks : Interner) (d f : Recorder) (db : Database)
    (saved es : List ProfilerEvent) : Prop where
  opened : f.db = some { db := db }
  recorded : Recorded f.types f.callstacks db saved
  events : es = saved ++ f.frameEvents
  empty : saved = [] → db = {}
  agree : (∀ e ∈ saved, New types callstacks e) → d.AgreeOff types callstacks f

namespace Beside

variable {d f : Recorder} {db : Database} {saved es : List ProfilerEvent}

theorem subset (h : Beside types callstacks d f db saved es) : saved ⊆ es := by
  rw [h.events]
  exact List.subset_append_left _ _

theorem saveFrameEvents (h : Beside types callstacks d f db saved es)
    (hes : f.prevFrame ≠ Recorder.noFrame → es ≠ []) :
    ∃ db' saved', saved ⊆ saved' ∧
      Beside types callstacks d.saveFrameEvents f.saveFrameEvents db' saved' es := by
  by_cases hprev : f.prevFrame = Recorder.noFrame
  · refine ⟨db, saved, List.Subset.refl _, ?_⟩
    rw [Recorder.saveFrameEvents_of_noFrame hprev]
    refine { h with agree := fun hnew => ?_ }
    have hagree := h.agree hnew
    rw [Recorder.saveFrameEvents_of_noFrame (hagree.prevFrame.trans hprev)]
    exact hagree
  · -- everything received so far is in the database afterwards
    obtain ⟨db', types', callstacks', heq, hrec, -⟩ :=
      Recorder.saveFrameEvents_spec h.opened h.recorded hprev
    refine ⟨db', es, h.subset, ?_, ?_, ?_, fun hnil => absurd hnil (hes hprev), fun hnew => ?_⟩
    · rw [heq]
      rfl
    · rw [heq, h.events]
      exact hrec
    · rw [Recorder.frameEvents_saveFrameEvents f hprev, List.append_nil]
    · have hbuffer : f.frameEvents ⊆ es := by
        rw [h.events]
        exact List.subset_append_right _ _
      have hagree := h.agree fun e he => hnew e (h.subset he)
      exact hagree.saveFrameEvents h.opened fun e he => hnew e (hbuffer he)

theorem trySaveEvents (h : Beside types callstacks d f db saved es)
    (hes : f.prevFrame ≠ Recorder.noFrame → es ≠ []) (frame : UInt64) :
    ∃ db' saved', saved ⊆ saved' ∧
      Beside types callstacks (d.trySaveEvents frame) (f.trySaveEvents frame) db' saved' es := by
  by_cases hsame : frame = f.prevFrame
  · refine ⟨db, saved, List.Subset.refl _, ?_⟩
    rw [Recorder.trySaveEvents, Recorder.trySaveEvents, if_neg (not_not.2 hsame)]
    refine { h with agree := fun hnew => ?_ }
    have hagree := h.agree hnew
    rw [if_neg (not_not.2 (hsame.trans hagree.prevFrame.symm))]
    exact hagree
  · have hbounds : Beside types callstacks (d.updateFrameBounds frame) (f.updateFrameBounds frame)
        db saved es :=
      { h with agree := fun hnew => (h.agree hnew).updateFrameBounds frame }
    obtain ⟨db', saved', hsub, hsave⟩ := hbounds.saveFrameEvents hes
    refine ⟨db', saved', hsub, ?_⟩
    rw [Recorder.trySaveEvents, Recorder.trySaveEvents, if_pos hsame]
    refine ⟨hsave.opened, hsave.recorded, hsave.events, hsave.empty, fun hnew => ?_⟩
    have hprev : d.prevFrame = f.prevFrame := (h.agree fun e he => hnew e (hsub he)).prevFrame
    rw [if_pos (hprev ▸ hsame)]
    exact (hsave.agree hnew).startFrame frame

theorem pushEvent (h : Beside types callstacks d f db saved es) (e : ProfilerEvent) :
    Beside types callstacks (d.pushEvent e) (f.pushEvent e) db saved (es ++ [e]) := by
  have hsame : (f.pushEvent e).db = f.db ∧ (f.pushEvent e).types = f.types ∧
      (f.pushEvent e).callstacks = f.callstacks := by
    unfold Recorder.pushEvent
    cases e.type <;> exact ⟨rfl, rfl, rfl⟩
  refine ⟨hsame.1.trans h.opened, ?_, ?_, h.empty, fun hnew => (h.agree hnew).pushEvent e⟩
  · rw [hsame.2.1, hsame.2.2]
    exact h.recorded
  · rw [Ready.frameEvents_pushEvent, ← List.append_assoc, ← h.events]

theorem flush (h : Beside types callstacks d f db saved es) (hes : es ≠ []) :
    ∃ db' saved', saved ⊆ saved' ∧ Beside types callstacks d.flush f.flush db' saved' es := by
  by_cases hlen : f.frameEvents.length > 10000
  · obtain ⟨db', saved', hsub, hsave⟩ := h.saveFrameEvents fun _ => hes
    refine ⟨db', saved', hsub, ?_⟩
    rw [Recorder.flush, Recorder.flush, if_pos hlen]
    refine { hsave with agree := fun hnew => ?_ }
    have hagree := h.agree fun e he => hnew e (hsub he)
    rw [if_pos (hagree.frameEvents ▸ hlen)]
    exact hsave.agree hnew
  · refine ⟨db, saved, List.Subset.refl _, ?_⟩
    rw [Recorder.flush, Recorder.flush, if_neg hlen]
    refine { h with agree := fun hnew => ?_ }
    have hagree := h.agree hnew
    rw [if_neg (hagree.frameEvents ▸ hlen)]
    exact hagree

/-- One event. -/
theorem addEvent (h : Beside types callstacks d f db saved es)
    (hes : f.prevFrame ≠ Recorder.noFrame → es ≠ []) (e : ProfilerEvent) :
    ∃ db' saved',
      Beside types callstacks (d.addEvent e).flush (f.addEvent e).flush db' saved' (es ++ [e]) := by
  obtain ⟨db₁, saved₁, -, htry⟩ := h.trySaveEvents hes e.frame
  obtain ⟨db', saved', -, hflush⟩ := (htry.pushEvent e).flush (by simp)
  exact ⟨db', saved', hflush⟩

/-- **The events of a session.** -/
theorem addEvents (h : Beside types callstacks d f {} [] [])
    (hbuf : f.buffer = (0, Recorder.noFrame)) (es : List ProfilerEvent) :
    ∃ db saved, Beside types callstacks (d.addEvents es) (f.addEvents es) db saved es := by
  induction es using List.reverseRecOn with
  | nil => exact ⟨{}, [], h⟩
  | append_singleton es e ih =>
    obtain ⟨db, saved, hes⟩ := ih
    rw [Recorder.addEvents_append, Recorder.addEvents_append]
    refine hes.addEvent ?_ e
    rintro hprev rfl
    exact hprev (congrArg Prod.snd hbuf)

theorem submitLastEvents (h : Beside types callstacks d f db saved es) :
    ∃ db' saved', Beside types callstacks d.submitLastEvents f.submitLastEvents db' saved' es := by
  unfold Recorder.submitLastEvents
  cases hf : f.frameEvents with
  | nil =>
    refine ⟨db, saved, { h with agree := fun hnew => ?_ }⟩
    have hagree := h.agree hnew
    rw [hagree.frameEvents, hf]
    exact hagree
  | cons e l =>
    have hes : es ≠ [] := by
      rw [h.events, hf]
      simp
    obtain ⟨db', saved', hsub, htry⟩ := h.trySaveEvents (fun _ => hes) e.frame
    refine ⟨db', saved', { htry with agree := fun hnew => ?_ }⟩
    have hagree := h.agree fun x hx => hnew x (hsub hx)
    rw [hagree.frameEvents, hf]
    exact htry.agree hnew

/-- **A whole session**, with the events that are stored in the end. -/
theorem session (h : Beside types callstacks d f {} [] []) (hbuf : f.buffer = (0, Recorder.noFrame))
    (es : List ProfilerEvent) :
    ∃ db, Beside types callstacks (d.addEvents es).submitLastEvents
      (f.addEvents es).submitLastEvents db (storedAtEnd es) es := by
  obtain ⟨db₁, saved₁, hadd⟩ := h.addEvents hbuf es
  obtain ⟨db, saved, hsubmit⟩ := hadd.submitLastEvents
  have hbuffer := Recorder.buffer_addEvents hbuf es
  have hlen : (f.addEvents es).frameEvents.length = (buffered es).1 := congrArg Prod.fst hbuffer
  have hprev : (f.addEvents es).prevFrame = (buffered es).2 := congrArg Prod.snd hbuffer
  have hcount : es.length - (buffered es).1 = saved₁.length := by
    have htotal := congrArg List.length hadd.events
    rw [List.length_append] at htotal
    omega
  have hrest : (f.addEvents es).frameEvents = es.drop (es.length - (buffered es).1) := by
    rw [hcount]
    conv_rhs => rw [hadd.events, List.drop_left]
  have hfirst : saved₁ = es.take (es.length - (buffered es).1) := by
    rw [hcount]
    conv_rhs => rw [hadd.events, List.take_left]
  have hsaved : saved = storedAtEnd es := by
    have hevents := hsubmit.events
    rw [Recorder.frameEvents_submitLastEvents, hrest, hprev] at hevents
    unfold storedAtEnd
    simp only
    split_ifs at hevents ⊢ with hlast
    · rw [hevents, List.append_nil]
    · rw [← hrest] at hevents
      exact (List.append_cancel_right (hevents.symm.trans hadd.events)).trans hfirst
  exact ⟨db, hsaved ▸ hsubmit⟩

end Beside

/-- Two clients at the beginning of a session. -/
theorem beside_start {d : Recorder} (hdb : d.db = some {}) (hevents : d.frameEvents = [])
    (hprev : d.prevFrame = Recorder.noFrame) (hallocs : d.frameAllocs = 0)
    (hfrees : d.frameFrees = 0) (htotal : d.sizeRunningTotal = 0) (htypes : d.types.nextId = 0)
    (hcallstacks : d.callstacks.nextId = 0) :
    Beside d.types d.callstacks d freshClient.toRecorder {} [] [] where
  opened := rfl
  recorded := .nil
  events := rfl
  empty := fun _ => rfl
  agree := fun _ => ⟨hdb, hevents, hprev, hallocs, hfrees, htotal,
    ⟨htypes, fun _ htext => AList.lookup_eq_none.2 htext⟩,
    ⟨hcallstacks, fun _ htext => AList.lookup_eq_none.2 htext⟩⟩

/-- Without the frame that stands for no frame, these are the events of `storedPart`. -/
theorem storedAtEnd_eq_storedPart {es : List ProfilerEvent} (hno : NoSentinel es) :
    storedAtEnd es = storedPart es := by
  obtain ⟨db, saved, hing⟩ := ingested_freshClient hno
  have hstart := beside_start (d := freshClient.toRecorder) rfl rfl rfl rfl rfl rfl rfl rfl
  obtain ⟨db', hsession⟩ := hstart.session rfl es
  have hevents := hsession.events
  rw [hing.submitLastEvents_eq] at hevents
  rw [← hing.saved_eq]
  exact List.append_cancel_right (hevents.symm.trans hing.events)

end AgreeOff

/-! ### What a history leaves behind -/

namespace Recorder

/-- What holds between two sessions: a long buffer and one that is not saved belong to no frame. -/
structure Tidy (d : Recorder) : Prop where
  settled : d.Settled
  noFrame : d.prevFrame = noFrame → ∀ e ∈ d.frameEvents, e.frame = Recorder.noFrame

theorem Tidy.addEvent {d : Recorder} (h : d.Tidy) (e : ProfilerEvent) :
    (d.addEvent e).flush.Tidy := by
  refine ⟨settled_flush _, fun hprev x hx => ?_⟩
  rw [prevFrame_flush, prevFrame_addEvent] at hprev
  rw [frameEvents_flush, prevFrame_addEvent, if_neg fun hlen => hlen.2 hprev,
    frameEvents_addEvent, List.mem_append, List.mem_singleton] at hx
  rcases hx with hx | rfl
  · split_ifs at hx with hsaved
    · cases hx
    · have hsame : d.prevFrame = Recorder.noFrame := by
        by_contra hne
        exact hsaved ⟨fun heq => hne (heq.symm.trans hprev), hne⟩
      exact h.noFrame hsame x hx
  · exact hprev

theorem Tidy.addEvents {d : Recorder} (h : d.Tidy) (es : List ProfilerEvent) :
    (d.addEvents es).Tidy := by
  induction es generalizing d with
  | nil => exact h
  | cons e es ih => exact ih (h.addEvent e)

theorem Tidy.submitLastEvents {d : Recorder} (h : d.Tidy) : d.submitLastEvents.Tidy := by
  unfold Recorder.submitLastEvents
  cases hd : d.frameEvents with
  | nil => exact h
  | cons x l =>
    show (d.trySaveEvents x.frame).Tidy
    by_cases hx : x.frame = d.prevFrame
    · rw [trySaveEvents, if_neg (not_not.2 hx)]
      exact h
    · have hprev : d.prevFrame ≠ Recorder.noFrame := fun hprev =>
        hx ((h.noFrame hprev x (by rw [hd]; exact List.mem_cons_self)).trans hprev.symm)
      have hnil : (d.trySaveEvents x.frame).frameEvents = [] := by
        rw [frameEvents_trySaveEvents, if_pos ⟨hx, hprev⟩]
      refine ⟨Or.inl ?_, fun _ => ?_⟩
      · rw [hnil]
        exact Nat.zero_le _
      · rw [hnil]
        exact List.forall_mem_nil _

theorem nextId_loadTexts (i : Interner) (table : Dict Int64 (List UInt8)) :
    (loadTexts i table).nextId = i.nextId := by
  unfold loadTexts
  induction table.entries generalizing i with
  | nil => rfl
  | cons row rows ih => exact ih _

end Recorder

namespace Details

/-- The members a client is constructed with, but for the database, the texts and the commands. -/
structure Untouched (d : Details) : Prop where
  frameEvents : d.frameEvents = []
  prevFrame : d.prevFrame = Recorder.noFrame
  frameAllocs : d.frameAllocs = 0
  frameFrees : d.frameFrees = 0
  sizeRunningTotal : d.sizeRunningTotal = 0
  types : d.types.nextId = 0
  callstacks : d.callstacks.nextId = 0
  readBuffer : d.readBuffer = []
  socketOpen : d.socketOpen = false

/-- **What holds between two actions.**  A client without a session was not stopped and is
untouched, or was stopped and its network thread, too. -/
structure Between (d : Details) : Prop where
  tidy : d.toRecorder.Tidy
  submitted : d.thread ≠ .running → d.toRecorder.Submitted
  stopped : d.thread = .none → d.networkStop = d.stop
  untouched : d.thread = .none → d.stop = false → d.Untouched

variable {u : Uninit} {d d' : Details}

theorem Between.initial : Between {} :=
  ⟨⟨Or.inr rfl, fun _ => List.forall_mem_nil _⟩, fun _ => nofun, fun _ => rfl,
    fun _ _ => ⟨rfl, rfl, rfl, rfl, rfl, rfl, rfl, rfl, rfl⟩⟩

theorem Between.receive (h : Between d) (msg : Packet) : Between (d.receive msg) := by
  unfold Details.receive
  split_ifs with hopen
  · refine ⟨h.tidy, h.submitted, h.stopped, fun hthread hstop => ?_⟩
    have hclosed := (h.untouched hthread hstop).socketOpen
    simp [hclosed] at hopen
  · exact h

theorem Between.poll (h : Between d) (hrunning : d.thread = .running) : Between (d.poll u) := by
  unfold Details.poll
  cases hbuf : d.readBuffer with
  | nil =>
    simp only
    split_ifs with hstop
    · exact ⟨h.tidy.submitLastEvents, fun _ => d.toRecorder.submitted_submitLastEvents, nofun,
        nofun⟩
    · exact h
  | cons msg rest =>
    obtain ⟨hframe, hrec⟩ :=
      processMessage_frame u (d := { d with readBuffer := rest }) h.tidy.settled msg
    have hthread : ({ d with readBuffer := rest }.processMessage u msg).thread = .running :=
      hframe.thread.trans hrunning
    refine ⟨hrec ▸ h.tidy.addEvents _, fun hne => absurd hthread hne, fun hnone => ?_,
      fun hnone => ?_⟩ <;> simp [hthread] at hnone

theorem Between.openData (h : Between d) (file : Option Database) :
    Between (d.openData file).2 := by
  unfold Details.openData
  split_ifs with hthread
  · exact h
  · cases file with
    | none =>
      exact ⟨⟨h.tidy.settled, h.tidy.noFrame⟩, h.submitted, h.stopped, fun hnone hstop =>
        have hd := h.untouched hnone hstop
        ⟨hd.frameEvents, hd.prevFrame, hd.frameAllocs, hd.frameFrees, hd.sizeRunningTotal, hd.types,
          hd.callstacks, hd.readBuffer, hd.socketOpen⟩⟩
    | some db =>
      refine ⟨⟨h.tidy.settled, h.tidy.noFrame⟩, h.submitted, h.stopped, fun hnone hstop => ?_⟩
      have hd := h.untouched hnone hstop
      exact ⟨hd.frameEvents, hd.prevFrame, hd.frameAllocs, hd.frameFrees, hd.sizeRunningTotal,
        (Recorder.nextId_loadTexts _ _).trans hd.types,
        (Recorder.nextId_loadTexts _ _).trans hd.callstacks, hd.readBuffer, hd.socketOpen⟩

/-- **One action.** -/
theorem Between.step {a : Action} (h : Between d) (hstep : step u d a = some d') : Between d' := by
  cases a with
  | start faults =>
    rw [Details.step] at hstep
    split_ifs at hstep
    cases hstep
    have hthread : ThreadState.running ≠ .none := by decide
    exact ⟨⟨h.tidy.settled, h.tidy.noFrame⟩, fun hne => absurd rfl hne,
      fun hnone => absurd hnone hthread, fun hnone => absurd hnone hthread⟩
  | receive msg =>
    cases hstep
    exact h.receive msg
  | poll =>
    rw [Details.step] at hstep
    split_ifs at hstep with hrunning
    cases hstep
    exact h.poll hrunning
  | stop =>
    rw [Details.step] at hstep
    split_ifs at hstep with hthread
    · cases hstep
      exact ⟨⟨h.tidy.settled, h.tidy.noFrame⟩, fun _ => h.submitted (by simp [hthread]),
        fun _ => rfl, fun _ hstop => absurd rfl (ne_true_of_eq_false hstop)⟩
    · cases hstep
      exact ⟨⟨h.tidy.settled, h.tidy.noFrame⟩, h.submitted, fun hnone => absurd hnone hthread,
        fun _ hstop => absurd rfl (ne_true_of_eq_false hstop)⟩
  | joinThread =>
    rw [Details.step] at hstep
    split_ifs at hstep with hjoin
    obtain ⟨hreturned, hstop⟩ := hjoin
    cases hstep
    refine ⟨⟨h.tidy.settled, h.tidy.noFrame⟩, fun _ => h.submitted (by simp [hreturned]),
      fun _ => hstop.symm, fun _ hnot => ?_⟩
    exact absurd (hnot.symm.trans hstop) (by decide)
  | openData file =>
    cases hstep
    exact h.openData file
  | saveDb =>
    cases hstep
    unfold Details.saveDb
    cases d.db with
    | none => exact h
    | some st => exact h.openData _
  | closeDb =>
    rw [Details.step] at hstep
    split_ifs at hstep
    cases hstep
    exact ⟨⟨h.tidy.settled, h.tidy.noFrame⟩, h.submitted, h.stopped, fun hnone hstop =>
      have hd := h.untouched hnone hstop
      ⟨hd.frameEvents, hd.prevFrame, hd.frameAllocs, hd.frameFrees, hd.sizeRunningTotal, hd.types,
        hd.callstacks, hd.readBuffer, hd.socketOpen⟩⟩
  | findObjectsReferences | pauseApp | resumeApp =>
    cases hstep
    exact ⟨h.tidy, h.submitted, h.stopped, fun hnone hstop =>
      have hd := h.untouched hnone hstop
      ⟨hd.frameEvents, hd.prevFrame, hd.frameAllocs, hd.frameFrees, hd.sizeRunningTotal, hd.types,
        hd.callstacks, hd.readBuffer, hd.socketOpen⟩⟩

/-- **Every history.** -/
theorem between_of_reachable (h : Run.Reachable (step u) {} d) : Between d :=
  Run.reachable_invariant (fun _ _ _ hd hstep => hd.step hstep) .initial h

end Details

/-! ### Texts of earlier traces -/

/-- The maps still know what they knew, and the table has no text of it. -/
def Interner.Apart (base i : Interner) (table : Dict Int64 (List UInt8)) : Prop :=
  base.Le i ∧ ∀ text ∈ Dict.values table, text ∉ base.toId

theorem Interner.Apart.intern {base i : Interner} {table : Dict Int64 (List UInt8)}
    (h : Apart base i table) (text : List UInt8) :
    Apart base (i.intern table text).2.1 (i.intern table text).2.2 := by
  refine ⟨h.1.trans (le_intern i table text), ?_⟩
  unfold Interner.intern
  cases hi : i.toId.lookup text with
  | some id => exact h.2
  | none =>
    have hnew : text ∉ base.toId := fun hmem => AList.lookup_eq_none.1 hi (h.1.mem hmem)
    by_cases hrow : (DbValue.uint64 i.nextId).bind ∈ table ∨ text ∈ Dict.values table
    · rw [Database.insertText, if_pos hrow]
      exact h.2
    · obtain ⟨hid, htext⟩ := not_or.1 hrow
      rw [insertText_of_notMem hid htext, Option.getD_some, values_insert hid]
      exact List.forall_mem_cons.2 ⟨hnew, h.2⟩

/-- A database without texts that `types` and `callstacks` know. -/
def ApartFrom (types callstacks : Interner) (db : Option Storage) (t c : Interner) : Prop :=
  ∃ contents, db = some { db := contents } ∧ types.Apart t contents.objectTypes ∧
    callstacks.Apart c contents.callstacks

section ApartFrom

variable {types callstacks : Interner}

theorem Records.apart_foldl_save {r : Records} (ht : types.Apart r.types r.db.objectTypes)
    (hc : callstacks.Apart r.callstacks r.db.callstacks) (l : List ProfilerEvent) :
    types.Apart (l.foldl save r).types (l.foldl save r).db.objectTypes ∧
      callstacks.Apart (l.foldl save r).callstacks (l.foldl save r).db.callstacks := by
  induction l generalizing r with
  | nil => exact ⟨ht, hc⟩
  | cons e l ih =>
    rw [List.foldl_cons]
    cases htype : e.type with
    | free =>
      refine ih ?_ ?_ <;> simp only [save, htype]
      · exact ht
      · exact hc
    | alloc =>
      refine ih ?_ ?_ <;> simp only [save, htype]
      · exact ht.intern e.objType
      · exact hc.intern e.callstack

theorem ApartFrom.saveFrameEvents {d : Recorder}
    (h : ApartFrom types callstacks d.db d.types d.callstacks) :
    ApartFrom types callstacks d.saveFrameEvents.db d.saveFrameEvents.types
      d.saveFrameEvents.callstacks := by
  obtain ⟨db, hdb, ht, hc⟩ := h
  by_cases hprev : d.prevFrame = Recorder.noFrame
  · rw [Recorder.saveFrameEvents_of_noFrame hprev]
    exact ⟨db, hdb, ht, hc⟩
  · obtain ⟨ht', hc'⟩ :=
      Records.apart_foldl_save (r := ⟨db, d.types, d.callstacks⟩) ht hc d.frameEvents
    rw [Recorder.saveFrameEvents_record hdb hprev]
    exact ⟨_, rfl, ht', hc'⟩

/-- A session stores no text that was known before. -/
theorem apartFrom_session {d : Recorder} (hdb : d.db = some {}) (es : List ProfilerEvent) :
    let d' := (d.addEvents es).submitLastEvents
    ApartFrom d.types d.callstacks d'.db d'.types d'.callstacks := by
  have hsave : ∀ d' : Recorder, ApartFrom d.types d.callstacks d'.db d'.types d'.callstacks →
      ApartFrom d.types d.callstacks d'.saveFrameEvents.db d'.saveFrameEvents.types
        d'.saveFrameEvents.callstacks := fun _ h => h.saveFrameEvents
  refine Recorder.holds_submitLastEvents hsave ?_
  induction es using List.reverseRecOn with
  | nil =>
    have hnone : ∀ base : Interner, ∀ text ∈ Dict.values (∅ : Dict Int64 (List UInt8)),
        text ∉ base.toId := fun _ _ => nofun
    exact ⟨{}, hdb, ⟨.refl _, hnone _⟩, ⟨.refl _, hnone _⟩⟩
  | append_singleton es e ih =>
    rw [Recorder.addEvents_append]
    exact Recorder.holds_addEvent hsave ih e

end ApartFrom

/-! ### Isolation -/

/-- The tables have the same rows. -/
structure SameRows (db db' : Database) : Prop where
  profilerEvents : db.profilerEvents = db'.profilerEvents
  frameStats : ∀ id, db.frameStats.lookup id = db'.frameStats.lookup id
  objectTypes : ∀ id, db.objectTypes.lookup id = db'.objectTypes.lookup id
  callstacks : ∀ id, db.callstacks.lookup id = db'.callstacks.lookup id

/-- Every id of an event has a row. -/
structure Complete (db : Database) : Prop where
  types : ∀ row ∈ db.profilerEvents, ∀ id ∈ row.typeId, id ∈ db.objectTypes
  callstacks : ∀ row ∈ db.profilerEvents, ∀ id ∈ row.callstackId, id ∈ db.callstacks

theorem Recorded.complete {types callstacks : Interner} {db : Database} {es : List ProfilerEvent}
    (h : Recorded types callstacks db es) : Complete db := by
  constructor
  · intro row hrow id hid
    rw [h.events] at hrow
    obtain ⟨e, -, rfl⟩ := List.mem_map.1 hrow
    cases htype : e.type with
    | free => simp [storedRow, htype] at hid
    | alloc =>
      simp only [storedRow, htype, Option.mem_def, Option.map_eq_some_iff] at hid
      obtain ⟨typeId, hlookup, rfl⟩ := hid
      exact h.types.rows _ _ hlookup
  · intro row hrow id hid
    rw [h.events] at hrow
    obtain ⟨e, -, rfl⟩ := List.mem_map.1 hrow
    cases htype : e.type with
    | free => simp [storedRow, htype] at hid
    | alloc =>
      simp only [storedRow, htype, Option.mem_def, Option.map_eq_some_iff] at hid
      obtain ⟨callstackId, hlookup, rfl⟩ := hid
      exact h.callstacks.rows _ _ hlookup

/-- Whatever the schedule, a session of `d` in which the messages `msgs` are sent leaves behind the
database that one of a fresh client leaves behind, and every id in it has a row. -/
def Isolated (u : Uninit) (d : Details) (msgs : List Packet) : Prop :=
  ∀ l l' d' f', Details.Session msgs l → Details.Session msgs l' →
    Run.run (Details.step u) (d.start []) l = some d' → d'.thread = .returned →
    Run.run (Details.step u) freshClient l' = some f' → f'.thread = .returned →
    ∃ db db', d'.db = some { db := db } ∧ f'.db = some { db := db' } ∧ SameRows db db' ∧ Complete db

/-- Nothing that the client has from before shows in a session with these events: it was not stopped
and knows none of the texts that are stored, or nothing is left to receive and nothing is stored. -/
def Unseen (d : Details) (es : List ProfilerEvent) : Prop :=
  d.stop = false ∧ (∀ e ∈ storedAtEnd es, New d.types d.callstacks e) ∨
    d.readBuffer = [] ∧ storedAtEnd es = []

instance (d : Details) (es : List ProfilerEvent) : Decidable (Unseen d es) :=
  inferInstanceAs (Decidable (_ ∨ _))

section Sessions

variable {u : Uninit} {d d' : Details} {msgs : List Packet} {l : List Details.Action}

/-- The session of a client that was not stopped. -/
theorem Details.Between.session_unstopped (h : d.Between) (hthread : d.thread = .none)
    (hstop : d.stop = false) (hl : Session msgs l)
    (hrun : Run.run (Details.step u) (d.start []) l = some d') (hreturned : d'.thread = .returned) :
    d'.toRecorder = ((d.start []).toRecorder.addEvents (decodeEvents u msgs)).submitLastEvents := by
  have hnetwork : d.networkStop = false := (h.stopped hthread).trans hstop
  have hbuf : d.readBuffer = [] := (h.untouched hthread hstop).readBuffer
  exact Details.run_session (d := d.start []) rfl hstop ⟨rfl, hnetwork⟩ hbuf h.tidy.settled hl hrun
    hreturned

/-- The session of a client that was stopped, when nothing is left to receive. -/
theorem Details.Between.session_stopped (h : d.Between) (hthread : d.thread = .none)
    (hstop : d.stop = true) (hbuf : d.readBuffer = []) (hl : Session msgs l)
    (hrun : Run.run (Details.step u) (d.start []) l = some d') (hreturned : d'.thread = .returned) :
    d'.toRecorder = (d.start []).toRecorder := by
  have hnetwork : d.networkStop = true := (h.stopped hthread).trans hstop
  have hsession := Details.run_session_stopped (d := d.start []) rfl hnetwork h.tidy.settled hl hrun
    hreturned
  have hsubmitted : (d.start []).toRecorder.Submitted := h.submitted (by simp [hthread])
  rw [show (d.start []).readBuffer = [] from hbuf] at hsession
  exact hsession.trans hsubmitted.submitLastEvents_eq

/-- Client and fresh client at the beginning of a session. -/
theorem Details.Untouched.beside (h : d.Untouched) :
    Beside d.types d.callstacks (d.start []).toRecorder freshClient.toRecorder {} [] [] :=
  beside_start (d := (d.start []).toRecorder) rfl h.frameEvents h.prevFrame h.frameAllocs
    h.frameFrees h.sizeRunningTotal h.types h.callstacks

/-- The session of a fresh client, with what it stores. -/
theorem session_freshClient {f' : Details} (hl : Details.Session msgs l)
    (hrun : Run.run (Details.step u) freshClient l = some f') (hreturned : f'.thread = .returned) :
    ∃ db, f'.db = some { db := db } ∧
      Recorded f'.types f'.callstacks db (storedAtEnd (decodeEvents u msgs)) ∧
      (storedAtEnd (decodeEvents u msgs) = [] → db = {}) := by
  have hstart := beside_start (d := freshClient.toRecorder) rfl rfl rfl rfl rfl rfl rfl rfl
  obtain ⟨db, hsession⟩ := hstart.session rfl (decodeEvents u msgs)
  have hf' := Details.run_session rfl rfl ⟨rfl, rfl⟩ rfl (Or.inr rfl) hl hrun hreturned
  refine ⟨db, ?_, ?_, hsession.empty⟩
  · rw [hf']
    exact hsession.opened
  · rw [hf']
    exact hsession.recorded

theorem isolated_of_unseen (h : d.Between) (hthread : d.thread = .none)
    (hunseen : Unseen d (decodeEvents u msgs)) : Isolated u d msgs := by
  intro l l' d' f' hl hl' hrun hreturned hrun' hreturned'
  obtain ⟨db, hdb, hrec, hempty⟩ := session_freshClient hl' hrun' hreturned'
  have hsame : d'.db = some { db := db } := by
    rcases hunseen with ⟨hstop, hnew⟩ | ⟨hbuf, hnone⟩
    · -- both clients go through the same session and save the same rows
      have hd := (h.untouched hthread hstop).beside
      obtain ⟨db', hsession⟩ := hd.session rfl (decodeEvents u msgs)
      have hf' := Details.run_session rfl rfl ⟨rfl, rfl⟩ rfl (Or.inr rfl) hl' hrun' hreturned'
      rw [h.session_unstopped hthread hstop hl hrun hreturned, (hsession.agree hnew).db, ← hf']
      exact hdb
    · rw [hempty hnone]
      cases hstop : d.stop with
      | true =>
        rw [h.session_stopped hthread hstop hbuf hl hrun hreturned]
        rfl
      | false =>
        have hd := (h.untouched hthread hstop).beside
        obtain ⟨db', hsession⟩ := hd.session rfl (decodeEvents u msgs)
        rw [hnone] at hsession
        rw [h.session_unstopped hthread hstop hl hrun hreturned,
          (hsession.agree (List.forall_mem_nil _)).db, hsession.opened, hsession.empty rfl]
  exact ⟨db, db, hsame, hdb, ⟨rfl, fun _ => rfl, fun _ => rfl, fun _ => rfl⟩, hrec.complete⟩

theorem unseen_of_isolated (h : d.Between) (hthread : d.thread = .none) (hbuf : d.readBuffer = [])
    (hlen : msgs.length < 2 ^ 64) (hisolated : Isolated u d msgs) :
    Unseen d (decodeEvents u msgs) := by
  -- one session of each client is enough to see the difference
  obtain ⟨l, d', hl, hrun, hreturned⟩ :=
    Details.exists_session u (d := d.start []) rfl h.tidy.settled msgs
  obtain ⟨l', f', hl', hrun', hreturned'⟩ :=
    Details.exists_session u (d := freshClient) rfl (Or.inr rfl) msgs
  obtain ⟨db, db', hdb, hdb', hsame, -⟩ :=
    hisolated l l' d' f' hl hl' hrun hreturned hrun' hreturned'
  obtain ⟨db'', hdb'', hrec, -⟩ := session_freshClient hl' hrun' hreturned'
  obtain rfl : db' = db'' := by
    have := hdb'.symm.trans hdb''
    simpa using this
  have hes : (storedAtEnd (decodeEvents u msgs)).length < 2 ^ 64 :=
    lt_of_le_of_lt ((length_storedAtEnd_le _).trans (List.length_filterMap_le _ _)) hlen
  cases hstop : d.stop with
  | true =>
    rw [h.session_stopped hthread hstop hbuf hl hrun hreturned] at hdb
    cases hdb
    -- the loop of a stopped client ends before the first message
    refine Or.inr ⟨hbuf, ?_⟩
    have hrows := hrec.events
    rw [← hsame.profilerEvents] at hrows
    exact List.map_eq_nil_iff.1 hrows.symm
  | false =>
    refine Or.inl ⟨hstop, fun e he halloc => ?_⟩
    obtain ⟨contents, hcontents, ht, hc⟩ :=
      apartFrom_session (d := (d.start []).toRecorder) rfl (decodeEvents u msgs)
    rw [← h.session_unstopped hthread hstop hl hrun hreturned, hdb] at hcontents
    cases hcontents
    obtain ⟨htype, hcallstack⟩ := hrec.known e he halloc
    obtain ⟨typeId, htypeId⟩ := Dict.mem_iff_lookup.1 htype
    obtain ⟨callstackId, hcallstackId⟩ := Dict.mem_iff_lookup.1 hcallstack
    -- the rows of the two texts are in the other database, too
    have htypeRow := hrec.types.decode (hrec.typesLength.trans_lt hes) _ _ htypeId
    have hcallstackRow :=
      hrec.callstacks.decode (hrec.callstacksLength.trans_lt hes) _ _ hcallstackId
    rw [← hsame.objectTypes] at htypeRow
    rw [← hsame.callstacks] at hcallstackRow
    constructor
    · exact ht.2 _ (Dict.mem_values.2 ⟨_, htypeRow⟩)
    · exact hc.2 _ (Dict.mem_values.2 ⟨_, hcallstackRow⟩)

/-- **Session isolation.**  After any history, a session is that of a fresh client when nothing the
client has from before shows in it, and only then if no message is left from an earlier session. -/
theorem isolated_iff (hd : Run.Reachable (Details.step u) {} d) (hthread : d.thread = .none) :
    (Unseen d (decodeEvents u msgs) → Isolated u d msgs) ∧
      (d.readBuffer = [] → msgs.length < 2 ^ 64 → Isolated u d msgs →
        Unseen d (decodeEvents u msgs)) := by
  have hbetween := Details.between_of_reachable hd
  constructor
  · exact isolated_of_unseen hbetween hthread
  · exact unseen_of_isolated hbetween hthread

end Sessions

/-- A client that has opened a trace with one type. -/
def openedTrace (type : CString) : Details := (({} : Details).openData (some (traceOf type))).2

/-- A trace with another type was opened before. -/
theorem isolated_iff_otherType :
    Isolated ⟨0, 0, 0⟩ (openedTrace (.ofLit "A")) ((objectOfSize 64).map reportPacket) := by
  refine (isolated_iff (u := ⟨0, 0, 0⟩) ⟨[.openData (some (traceOf (.ofLit "A")))], rfl⟩ rfl).1 ?_
  rw [decodeEvents_of_carries (carries_objectOfSize 64)]
  decide

/-- A trace with the same type was opened before: the new trace has no row for it. -/
theorem session_not_isolated :
    ¬ ∀ (u : Uninit) (d : Details) (msgs : List Packet), Run.Reachable (Details.step u) {} d →
      d.thread = .none → Isolated u d msgs := by
  intro h
  have hd : Run.Reachable (Details.step ⟨0, 0, 0⟩) {} (openedTrace (.ofLit "Big")) :=
    ⟨[.openData (some (traceOf (.ofLit "Big")))], rfl⟩
  have hunseen := unseen_of_isolated (Details.between_of_reachable hd) rfl rfl (by decide)
    (h ⟨0, 0, 0⟩ _ ((objectOfSize 64).map reportPacket) hd rfl)
  rw [decodeEvents_of_carries (carries_objectOfSize 64)] at hunseen
  revert hunseen
  decide

end Owlcat
