import OwlcatMonoProfiler.Client.Sessions
import OwlcatMonoProfiler.Library.Grouping

/-!
# Stored allocations decode to what was received

The texts of a trace are numbered in the order in which they are first saved, and both maps and the
table are this numbering.

* `Interner.Numbered`: maps and table are the numbering of a list of texts;
* `Interner.Accepted`: no row of a sequence of texts is rejected; then the texts are numbered
  (`numbered_internAll`), and that is so as long as there are ids (`accepted_iff`);
* `Stored`: rows and buffer are the events received, and the maps have met their texts in this
  order.  Unlike `Ingested` it holds for all frames;
* `stored_allocations_decode`: rows joined with the tables give the events back.
-/

namespace Owlcat

/-! ### Numbering texts -/

namespace Interner

/-- If a text needs a row, the table takes it. -/
def Accepts (i : Interner) (table : Dict Int64 (List UInt8)) (text : List UInt8) : Prop :=
  i.toId.lookup text = none → (Database.insertText table i.nextId text).isSome

/-- Maps and table after the ids of some texts were asked for, one after the other. -/
def internAll (texts : List (List UInt8)) : Interner × Dict Int64 (List UInt8) :=
  texts.foldl (fun p text => (p.1.intern p.2 text).2) ({}, ∅)

/-- No row is rejected when the ids of these texts are asked for. -/
def Accepted (texts : List (List UInt8)) : Prop :=
  ∀ l text, l ++ [text] <+: texts → Accepts (internAll l).1 (internAll l).2 text

theorem internAll_append_singleton (texts : List (List UInt8)) (text : List UInt8) :
    internAll (texts ++ [text]) = ((internAll texts).1.intern (internAll texts).2 text).2 :=
  List.foldl_append

end Interner

/-- Maps and table number the texts `names`. -/
structure Interner.Numbered (i : Interner) (table : Dict Int64 (List UInt8))
    (names : List (List UInt8)) : Prop where
  nextId : i.nextId = UInt64.ofNat names.length
  toId : ∀ text id, i.toId.lookup text = some id ↔ names[id.toNat]? = some text
  toText : ∀ id, i.toText.lookup id = names[id.toNat]?
  table : ∀ id, table.lookup (DbValue.uint64 id).bind = names[id.toNat]?

namespace Interner.Numbered

theorem empty : Numbered {} ∅ [] :=
  ⟨rfl, by simp, by simp, by simp⟩

variable {i : Interner} {table : Dict Int64 (List UInt8)} {names : List (List UInt8)}
  {text : List UInt8}

theorem mem_iff (h : Numbered i table names) (hlen : names.length ≤ 2 ^ 64) :
    text ∈ names ↔ text ∈ i.toId := by
  rw [List.mem_iff_getElem?, Dict.mem_iff_lookup]
  constructor
  · rintro ⟨k, hk⟩
    have hlt : k < names.length := (List.getElem?_eq_some_iff.1 hk).1
    refine ⟨UInt64.ofNat k, (h.toId text _).2 ?_⟩
    rw [UInt64.toNat_ofNat_of_lt' (lt_of_lt_of_le hlt hlen)]
    exact hk
  · rintro ⟨id, hid⟩
    exact ⟨id.toNat, (h.toId text id).1 hid⟩

theorem notMem_values (h : Numbered i table names) (hnot : text ∉ names) :
    text ∉ Dict.values table := by
  intro hmem
  obtain ⟨e, he, hetext⟩ := List.mem_map.1 hmem
  have hlookup : table.lookup (DbValue.uint64 (getUint64 (some e.1))).bind = some text := by
    have hbind : (DbValue.uint64 (getUint64 (some e.1))).bind = e.1 := Int64.toInt64_toUInt64 e.1
    rw [hbind, ← hetext]
    exact AList.mem_lookup_iff.2 he
  rw [h.table] at hlookup
  exact hnot (List.mem_of_getElem? hlookup)

theorem toNat_nextId (h : Numbered i table names) (hlen : names.length < 2 ^ 64) :
    i.nextId.toNat = names.length := by
  rw [h.nextId, UInt64.toNat_ofNat_of_lt' hlen]

theorem nextId_notMem (h : Numbered i table names) (hlen : names.length < 2 ^ 64) :
    (DbValue.uint64 i.nextId).bind ∉ table := by
  rw [← AList.lookup_eq_none, h.table, h.toNat_nextId hlen]
  exact List.getElem?_eq_none le_rfl

/-- The row of a new text is rejected when its id has come back to `0`. -/
theorem isSome_insertText_iff (h : Numbered i table names) (hlen : names.length ≤ 2 ^ 64)
    (hnot : text ∉ names) :
    (Database.insertText table i.nextId text).isSome ↔ names.length < 2 ^ 64 := by
  constructor
  · intro hsome
    by_contra hge
    have hfull : names.length = 2 ^ 64 := le_antisymm hlen (not_lt.1 hge)
    -- after 2^64 texts the counter is back at an id with a row
    have hnext : i.nextId = 0 := by
      rw [h.nextId, hfull]
      rfl
    have hrow : (DbValue.uint64 i.nextId).bind ∈ table := by
      refine Dict.mem_iff_lookup.2 ⟨names[0], ?_⟩
      rw [h.table, hnext]
      exact List.getElem?_eq_getElem _
    rw [Database.insertText, if_pos (Or.inl hrow)] at hsome
    cases hsome
  · intro hlt
    rw [insertText_of_notMem (h.nextId_notMem hlt) (h.notMem_values hnot)]
    rfl

/-- **Asking for an id numbers the text, if it is new.** -/
theorem intern (h : Numbered i table names) (hlen : names.length ≤ 2 ^ 64)
    (hacc : Accepts i table text) :
    Numbered (i.intern table text).2.1 (i.intern table text).2.2
      (names ++ if text ∈ names then [] else [text]) := by
  unfold Interner.intern
  cases hid : i.toId.lookup text with
  | some id =>
    have hmem : text ∈ names := (h.mem_iff hlen).2 (Dict.mem_iff_lookup.2 ⟨id, hid⟩)
    rw [if_pos hmem, List.append_nil]
    exact h
  | none =>
    have hnot : text ∉ names := fun hmem =>
      AList.lookup_eq_none.1 hid ((h.mem_iff hlen).1 hmem)
    have hlt : names.length < 2 ^ 64 := (h.isSome_insertText_iff hlen hnot).1 (hacc hid)
    have hnext : i.nextId.toNat = names.length := h.toNat_nextId hlt
    -- the numbering with one more text
    have hget : ∀ id : UInt64, (names ++ [text])[id.toNat]? =
        if id = i.nextId then some text else names[id.toNat]? := by
      intro id
      by_cases he : id = i.nextId
      · rw [if_pos he, he, hnext, List.getElem?_concat_length]
      · rw [if_neg he]
        have hne : id.toNat ≠ names.length := fun h => he (UInt64.toNat_inj.1 (h.trans hnext.symm))
        rcases Nat.lt_or_ge id.toNat names.length with hlt | hge
        · rw [List.getElem?_append_left hlt]
        · rw [List.getElem?_eq_none hge, List.getElem?_eq_none]
          rw [List.length_append, List.length_singleton]
          omega
    rw [if_neg hnot, insertText_of_notMem (h.nextId_notMem hlt) (h.notMem_values hnot),
      Option.getD_some]
    refine ⟨?_, fun text' id => ?_, fun id => ?_, fun id => ?_⟩
    · change i.nextId + 1 = _
      rw [h.nextId, List.length_append, UInt64.ofNat_add]
      rfl
    · rw [hget, lookup_create hid]
      split_ifs with h1 h2 h2
      · simp [h1, h2]
      · simp only [Option.some.injEq]
        refine iff_of_false (fun he => h2 he.symm) fun hname => hnot ?_
        rw [← h1]
        exact List.mem_of_getElem? hname
      · simp only [Option.some.injEq]
        refine iff_of_false (fun hname => ?_) fun he => h1 he.symm
        rw [h.toId, h2, hnext] at hname
        simp at hname
      · exact h.toId text' id
    · rw [hget, create, insert, Dict.lookup_emplace]
      split_ifs with he
      · -- `emplace` would keep an older entry, but the id was not given out before
        rw [h.toText, hnext, List.getElem?_eq_none le_rfl, Option.getD_none]
      · exact h.toText id
    · rw [hget]
      split_ifs with he
      · rw [he, AList.lookup_insert]
      · rw [AList.lookup_insert_ne fun hb => he (bind_uint64_inj hb)]
        exact h.table id

end Interner.Numbered

namespace Interner

/-- **Texts whose rows are accepted are numbered** in the order in which they first occur. -/
theorem numbered_internAll {texts : List (List UInt8)} (h : Accepted texts) :
    Numbered (internAll texts).1 (internAll texts).2 texts.eraseDups ∧
      texts.eraseDups.length ≤ 2 ^ 64 := by
  induction texts using List.reverseRecOn with
  | nil => exact ⟨.empty, by simp⟩
  | append_singleton texts text ih =>
    obtain ⟨hnum, hlen⟩ := ih fun l t hl => h l t (hl.trans (List.prefix_append _ _))
    have hacc : Accepts (internAll texts).1 (internAll texts).2 text := h texts text List.prefix_rfl
    rw [internAll_append_singleton, Grouping.eraseDups_append_singleton]
    constructor
    · simpa only [List.mem_eraseDups] using hnum.intern hlen hacc
    · split_ifs with hmem
      · simpa using hlen
      · have hnot : text ∉ texts.eraseDups := fun hm => hmem (List.mem_eraseDups.1 hm)
        have hnone : (internAll texts).1.toId.lookup text = none :=
          AList.lookup_eq_none.2 fun hm => hnot ((hnum.mem_iff hlen).2 hm)
        have hlt := (hnum.isSome_insertText_iff hlen hnot).1 (hacc hnone)
        rw [List.length_append, List.length_singleton]
        omega

/-- Rows are rejected only when there are more texts than ids. -/
theorem accepted_iff (texts : List (List UInt8)) :
    Accepted texts ↔ texts.eraseDups.length ≤ 2 ^ 64 := by
  refine ⟨fun h => (numbered_internAll h).2, fun hlen => ?_⟩
  induction texts using List.reverseRecOn with
  | nil =>
    intro l text hl
    simp at hl
  | append_singleton texts text ih =>
    rw [Grouping.eraseDups_append_singleton, List.length_append] at hlen
    have hacc : Accepted texts := ih (by omega)
    intro l t hl
    rcases List.prefix_concat_iff.1 hl with heq | hl
    · obtain ⟨rfl, ht⟩ := List.append_inj' heq rfl
      cases ht
      intro hnone
      obtain ⟨hnum, hlen'⟩ := numbered_internAll hacc
      have hnot : text ∉ l.eraseDups := fun hm =>
        AList.lookup_eq_none.1 hnone ((hnum.mem_iff hlen').1 hm)
      refine (hnum.isSome_insertText_iff hlen' hnot).2 ?_
      rw [if_neg fun hm => hnot (List.mem_eraseDups.2 hm), List.length_singleton] at hlen
      omega
    · exact hacc l t hl

end Interner

/-! ### Contents and maps -/

namespace ProfilerEvent

/-- The types of the allocations, as often as they occur. -/
def typesOf (es : List ProfilerEvent) : List (List UInt8) :=
  (es.filter fun e => e.type = .alloc).map objType

/-- The callstacks of the allocations, as often as they occur. -/
def callstacksOf (es : List ProfilerEvent) : List (List UInt8) :=
  (es.filter fun e => e.type = .alloc).map callstack

end ProfilerEvent

open ProfilerEvent

/-- Contents and maps hold the events `saved`, whose texts have come one after the other. -/
structure Records.Coded (r : Records) (saved : List ProfilerEvent) : Prop where
  recorded : Recorded r.types r.callstacks r.db saved
  types : (r.types, r.db.objectTypes) = Interner.internAll (typesOf saved)
  callstacks : (r.callstacks, r.db.callstacks) = Interner.internAll (callstacksOf saved)

namespace Records.Coded

variable {r : Records} {saved : List ProfilerEvent}

theorem save (h : r.Coded saved) (e : ProfilerEvent) : (r.save e).Coded (saved ++ [e]) := by
  cases he : e.type with
  | free =>
    have htypes : typesOf (saved ++ [e]) = typesOf saved := by simp [typesOf, he]
    have hcallstacks : callstacksOf (saved ++ [e]) = callstacksOf saved := by
      simp [callstacksOf, he]
    refine ⟨recorded_save h.recorded e, ?_, ?_⟩
    · simp only [Records.save, he, htypes, h.types]
    · simp only [Records.save, he, hcallstacks, h.callstacks]
  | alloc =>
    have htypes : typesOf (saved ++ [e]) = typesOf saved ++ [e.objType] := by simp [typesOf, he]
    have hcallstacks : callstacksOf (saved ++ [e]) = callstacksOf saved ++ [e.callstack] := by
      simp [callstacksOf, he]
    refine ⟨recorded_save h.recorded e, ?_, ?_⟩
    · rw [htypes, Interner.internAll_append_singleton, ← h.types]
      simp only [Records.save, he]
    · rw [hcallstacks, Interner.internAll_append_singleton, ← h.callstacks]
      simp only [Records.save, he]

theorem foldl_save (h : r.Coded saved) (l : List ProfilerEvent) :
    (l.foldl Records.save r).Coded (saved ++ l) := by
  induction l generalizing r saved with
  | nil => simpa using h
  | cons e l ih => simpa using ih (h.save e)

end Records.Coded

/-! ### One session -/

/-- Rows and buffer are the events received, and the maps have met the texts of the rows. -/
def Stored (d : Recorder) (es : List ProfilerEvent) : Prop :=
  ∃ db saved, d.db = some { db := db } ∧
    Records.Coded ⟨db, d.types, d.callstacks⟩ saved ∧ es = saved ++ d.frameEvents

namespace Stored

variable {d : Recorder} {es : List ProfilerEvent}

theorem saveFrameEvents (h : Stored d es) : Stored d.saveFrameEvents es := by
  by_cases hprev : d.prevFrame = Recorder.noFrame
  · rw [Recorder.saveFrameEvents_of_noFrame hprev]
    exact h
  · obtain ⟨db, saved, hdb, hcoded, hevents⟩ := h
    have hcoded' := hcoded.foldl_save d.frameEvents
    rw [Recorder.saveFrameEvents_record hdb hprev]
    refine ⟨_, saved ++ d.frameEvents, rfl, ⟨?_, hcoded'.types, hcoded'.callstacks⟩, ?_⟩
    · obtain ⟨h1, h2, h3, h4, h5, h6⟩ := hcoded'.recorded
      exact ⟨h1, h2, h3, h4, h5, h6⟩
    · exact hevents.trans (List.append_nil _).symm

theorem trySaveEvents (h : Stored d es) (frame : UInt64) : Stored (d.trySaveEvents frame) es := by
  rw [Recorder.trySaveEvents]
  split_ifs
  · exact saveFrameEvents (d := d.updateFrameBounds frame) h
  · exact h

theorem pushEvent (h : Stored d es) (e : ProfilerEvent) : Stored (d.pushEvent e) (es ++ [e]) := by
  obtain ⟨db, saved, hdb, hcoded, hevents⟩ := h
  have hpush : es ++ [e] = saved ++ (d.pushEvent e).frameEvents := by
    rw [Ready.frameEvents_pushEvent, hevents, List.append_assoc]
  unfold Recorder.pushEvent at hpush ⊢
  cases he : e.type with
  | alloc => rw [he] at hpush; exact ⟨db, saved, hdb, hcoded, hpush⟩
  | free => rw [he] at hpush; exact ⟨db, saved, hdb, hcoded, hpush⟩

theorem flush (h : Stored d es) : Stored d.flush es := by
  rw [Recorder.flush]
  split_ifs
  · exact h.saveFrameEvents
  · exact h

theorem addEvents (h : Stored d es) (new : List ProfilerEvent) :
    Stored (d.addEvents new) (es ++ new) := by
  induction new generalizing d es with
  | nil => simpa [Recorder.addEvents] using h
  | cons e new ih =>
    rw [List.append_cons]
    exact ih ((h.trySaveEvents e.frame).pushEvent e).flush

theorem submitLastEvents (h : Stored d es) : Stored d.submitLastEvents es := by
  unfold Recorder.submitLastEvents
  cases d.frameEvents with
  | nil => exact h
  | cons e l => exact h.trySaveEvents e.frame

end Stored

theorem stored_freshClient : Stored freshClient.toRecorder [] :=
  ⟨{}, [], rfl, ⟨.nil, rfl, rfl⟩, rfl⟩

/-! ### Decoding -/

/-- Maps and table of the texts `names`: the maps are inverse to each other, a text has its position
as its id, and the rows of the table are the entries of the maps. -/
structure TextsNumbered (i : Interner) (table : Dict Int64 (List UInt8))
    (names : List (List UInt8)) : Prop where
  inverse : ∀ text id, i.toId.lookup text = some id ↔ i.toText.lookup id = some text
  ids : ∀ text id, i.toId.lookup text = some id ↔ names[id.toNat]? = some text
  count : i.nextId = UInt64.ofNat names.length
  table : ∀ id, table.lookup (DbValue.uint64 id).bind = i.toText.lookup id

theorem Interner.Numbered.textsNumbered {i : Interner} {table : Dict Int64 (List UInt8)}
    {names : List (List UInt8)} (h : i.Numbered table names) : TextsNumbered i table names :=
  ⟨fun text id => by rw [h.toId, h.toText], h.toId, h.nextId, fun id => by rw [h.table, h.toText]⟩

/-- A row, joined with the tables, is the event it was stored for. -/
structure Decodes (db : Database) (row : EventRow) (e : ProfilerEvent) : Prop where
  eventTypeId : row.eventTypeId = if e.type = .alloc then 1 else 2
  frame : getUint64 (some row.frame) = e.frame
  addr : getUint64 (some row.address) = e.addr
  size : e.type = .alloc → getUint64 (some row.size) = e.size.toUInt64
  type : e.type = .alloc → row.typeId.bind db.objectTypes.lookup = some e.objType
  callstack : e.type = .alloc → row.callstackId.bind db.callstacks.lookup = some e.callstack

/-- No insert into the tables of texts was rejected when these events were saved. -/
def WritesSucceed (saved : List ProfilerEvent) : Prop :=
  Interner.Accepted (typesOf saved) ∧ Interner.Accepted (callstacksOf saved)

/-- What is stored of the events `es` decodes to what was received, if its writes have succeeded. -/
def StoredDecodes (d : Recorder) (es : List ProfilerEvent) : Prop :=
  ∃ db saved, d.db = some { db := db } ∧ saved ++ d.frameEvents = es ∧
    (WritesSucceed saved →
      TextsNumbered d.types db.objectTypes (typesOf saved).eraseDups ∧
      TextsNumbered d.callstacks db.callstacks (callstacksOf saved).eraseDups ∧
      List.Forall₂ (Decodes db) db.profilerEvents saved)

theorem decodes_storedRow {types callstacks : Interner} {db : Database}
    {names texts : List (List UInt8)} (ht : types.Numbered db.objectTypes names)
    (hc : callstacks.Numbered db.callstacks texts) {e : ProfilerEvent}
    (he : Known types callstacks e) : Decodes db (storedRow types callstacks e) e := by
  cases hetype : e.type with
  | free =>
    have hne : e.type ≠ .alloc := by rw [hetype]; decide
    refine ⟨?_, ?_, ?_, fun h => absurd h hne, fun h => absurd h hne, fun h => absurd h hne⟩
    all_goals simp [storedRow, hetype]
  | alloc =>
    obtain ⟨typeId, htype⟩ := Dict.mem_iff_lookup.1 (he hetype).1
    obtain ⟨callstackId, hcallstack⟩ := Dict.mem_iff_lookup.1 (he hetype).2
    have htext : db.objectTypes.lookup (DbValue.uint64 typeId).bind = some e.objType := by
      rw [ht.table, (ht.toId _ _).1 htype]
    have hstack : db.callstacks.lookup (DbValue.uint64 callstackId).bind = some e.callstack := by
      rw [hc.table, (hc.toId _ _).1 hcallstack]
    refine ⟨?_, ?_, ?_, fun _ => ?_, fun _ => ?_, fun _ => ?_⟩
    all_goals simp [storedRow, hetype, htype, hcallstack, htext, hstack]

theorem Stored.storedDecodes {d : Recorder} {es : List ProfilerEvent} (h : Stored d es) :
    StoredDecodes d es := by
  obtain ⟨db, saved, hdb, hcoded, hevents⟩ := h
  refine ⟨db, saved, hdb, hevents.symm, fun ⟨htypes, hcallstacks⟩ => ?_⟩
  obtain ⟨ht, -⟩ := Interner.numbered_internAll htypes
  obtain ⟨hc, -⟩ := Interner.numbered_internAll hcallstacks
  rw [← hcoded.types] at ht
  rw [← hcoded.callstacks] at hc
  refine ⟨ht.textsNumbered, hc.textsNumbered, ?_⟩
  rw [show db.profilerEvents = _ from hcoded.recorded.events, List.forall₂_map_left_iff,
    List.forall₂_same]
  exact fun e he => decodes_storedRow ht hc (hcoded.recorded.known e he)

/-- **Stored allocations decode to what was received**, after each message and when the session has
ended. -/
theorem stored_allocations_decode (u : Uninit) (msgs : List Packet) :
    let d := (freshClient.processMessages u msgs).toRecorder
    StoredDecodes d (decodeEvents u msgs) ∧
      StoredDecodes d.submitLastEvents (decodeEvents u msgs) := by
  intro d
  have hd : d = freshClient.toRecorder.addEvents (decodeEvents u msgs) :=
    Details.processMessages_toRecorder u (Or.inr rfl) msgs
  have hstored : Stored d (decodeEvents u msgs) := by
    rw [hd]
    exact stored_freshClient.addEvents _
  exact ⟨hstored.storedDecodes, hstored.submitLastEvents.storedDecodes⟩

/-- Writes succeed while there are at most as many texts as ids. -/
theorem writesSucceed_iff (saved : List ProfilerEvent) :
    WritesSucceed saved ↔ (typesOf saved).eraseDups.length ≤ 2 ^ 64 ∧
      (callstacksOf saved).eraseDups.length ≤ 2 ^ 64 :=
  and_congr (Interner.accepted_iff _) (Interner.accepted_iff _)

end Owlcat
