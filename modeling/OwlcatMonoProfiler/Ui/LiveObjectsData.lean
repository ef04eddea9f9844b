import OwlcatMonoProfiler.Client.LiveObjects
import OwlcatMonoProfiler.Library.Grouping

/-!
# The list of live objects in the user interface

`live_objects_data::update` of `live_objects_data.cpp`, which groups the live objects of a window by
their types and the objects of a type by their callstacks.

* `TypeData`, `CallstackData`: the groups;
* `Loop.addObject`: the loop, with its map of indices;
* `update`: the whole function;
* `types_addObjects`: the loop groups twice, once for the types and once inside each type;
* `grouped_addObjects`: what the groups contain.
-/

namespace Owlcat

namespace LiveObjectsData

/-- `live_objects_data::callstack_data` -/
structure CallstackData where
  callstack : UInt64
  count : UInt64
  size : UInt64
  addresses : List UInt64
  deriving DecidableEq

/-- `live_objects_data::type_data` -/
structure TypeData where
  type : UInt64
  count : UInt64 := 0
  size : UInt64 := 0
  callstacks : List CallstackData := []
  deriving DecidableEq

/-- The second half of the loop: look for the callstack of an object among those of its type. -/
def TypeData.addCallstack (type : TypeData) (o : LiveObject) : TypeData :=
  { type with
    callstacks :=
      match type.callstacks.findIdx? fun c => c.callstack = o.callstackId with
      | none => type.callstacks ++ [⟨o.callstackId, 1, o.size, [o.addr]⟩]
      | some i => type.callstacks.modify i fun c =>
        { c with
          count := c.count + 1
          size := c.size + o.size
          addresses := c.addresses ++ [o.addr] } }

/-- Count an object among those of its type. -/
def TypeData.addObject (type : TypeData) (o : LiveObject) : TypeData :=
  { type with count := type.count + 1, size := type.size + o.size }.addCallstack o

/-- The variables of the loop of `update`. -/
structure Loop where
  types : List TypeData := []
  typeIndices : Dict UInt64 ℕ := ∅

/-- The first half of the loop: the index of a type, which is added when it is new. -/
def Loop.typeIndex (s : Loop) (typeId : UInt64) : ℕ × Loop :=
  match s.typeIndices.lookup typeId with
  | some i => (i, s)
  | none =>
    (s.types.length,
      { types := s.types ++ [{ type := typeId }]
        typeIndices := s.typeIndices.insert typeId s.types.length })

/-- The loop of `update`, for an object. -/
def Loop.addObject (s : Loop) (o : LiveObject) : Loop :=
  let (i, s) := s.typeIndex o.typeId
  { s with types := s.types.modify i (·.addObject o) }

/-- The loop of `update`. -/
def addObjects (result : List LiveObject) : Loop :=
  result.foldl Loop.addObject {}

end LiveObjectsData

/-- `live_objects_data` -/
structure LiveObjectsData where
  data : Option Recorder
  types : List LiveObjectsData.TypeData := []

namespace LiveObjectsData

/-- `update`; the frames are converted to `int`s for `get_live_objects`. -/
def update (d : LiveObjectsData) (fromFrame toFrame : UInt64)
    (progressFunc : Option (ℕ → ℕ → Bool)) : LiveObjectsData :=
  match d.data with
  | none => d
  | some data =>
    { d with
      types := (addObjects
        (data.getLiveObjects (toInt fromFrame) (toInt toFrame) progressFunc)).types }

/-- The types are those of the live objects of the window, whatever was there before. -/
theorem types_update (d : LiveObjectsData) {data : Recorder}
    (hdata : d.data = some data) (fromFrame toFrame : UInt64)
    (progressFunc : Option (ℕ → ℕ → Bool)) :
    (d.update fromFrame toFrame progressFunc).types =
      (addObjects (data.getLiveObjects (toInt fromFrame) (toInt toFrame) progressFunc)).types := by
  rw [update, hdata]

/-! ### What the groups should contain -/

/-- The objects of a type and a callstack. -/
def ofGroup (objs : List LiveObject) (typeId callstackId : UInt64) : List LiveObject :=
  objs.filter fun o => o.typeId = typeId ∧ o.callstackId = callstackId

/-- The groups are those of the objects, none is lost and none counted twice.  Counts and sizes are
sums of 64-bit integers. -/
structure GroupedObjects (objs : List LiveObject) (types : List TypeData) : Prop where
  types_nodup : (types.map TypeData.type).Nodup
  callstacks_nodup : ∀ t ∈ types, (t.callstacks.map CallstackData.callstack).Nodup
  group : ∀ t ∈ types, ∀ c ∈ t.callstacks,
    c.addresses = (ofGroup objs t.type c.callstack).map LiveObject.addr ∧
      c.count = UInt64.ofNat (ofGroup objs t.type c.callstack).length ∧
      c.size = ((ofGroup objs t.type c.callstack).map LiveObject.size).sum
  totals : ∀ t ∈ types, t.count = (t.callstacks.map CallstackData.count).sum ∧
    t.size = (t.callstacks.map CallstackData.size).sum
  exists_type : ∀ typeId, (∃ t ∈ types, t.type = typeId) ↔ ∃ o ∈ objs, o.typeId = typeId
  exists_group : ∀ typeId callstackId,
    (∃ t ∈ types, t.type = typeId ∧ ∃ c ∈ t.callstacks, c.callstack = callstackId) ↔
      ∃ o ∈ objs, o.typeId = typeId ∧ o.callstackId = callstackId

/-! ### The loop as grouping -/

open Grouping

/-- The group of some objects of one callstack. -/
def callstackOf (callstackId : UInt64) (objs : List LiveObject) : CallstackData :=
  { callstack := callstackId
    count := UInt64.ofNat objs.length
    size := (objs.map LiveObject.size).sum
    addresses := objs.map LiveObject.addr }

/-- Put an object into a group of its callstack. -/
def putCallstack (o : LiveObject) (c : Option CallstackData) : CallstackData :=
  match c with
  | none => ⟨o.callstackId, 1, o.size, [o.addr]⟩
  | some c =>
    { c with
      count := c.count + 1
      size := c.size + o.size
      addresses := c.addresses ++ [o.addr] }

/-- Put an object into a group of its type. -/
def putType (o : LiveObject) (t : Option TypeData) : TypeData :=
  (t.getD { type := o.typeId }).addObject o

theorem callstacks_addObject (t : TypeData) (o : LiveObject) :
    (t.addObject o).callstacks =
      upsert CallstackData.callstack o.callstackId (putCallstack o) t.callstacks := by
  rw [upsert_eq_findIdx?]
  rfl

/-- The callstacks of some objects of one type. -/
def callstacksOf (objs : List LiveObject) : List CallstackData :=
  groupBy LiveObject.callstackId CallstackData.callstack putCallstack objs

theorem callstacksOf_eq (objs : List LiveObject) :
    callstacksOf objs = (objs.map LiveObject.callstackId).eraseDups.map fun k =>
      callstackOf k (withKey LiveObject.callstackId k objs) := by
  refine groupBy_eq (fun _ _ => rfl) (fun o => ?_) (fun o l _ => ?_) objs
  · simp [putCallstack, callstackOf]
  · simp [putCallstack, callstackOf, UInt64.ofNat_add]

/-- The group of some objects of one type. -/
def typeOf (typeId : UInt64) (objs : List LiveObject) : TypeData :=
  { type := typeId
    count := UInt64.ofNat objs.length
    size := (objs.map LiveObject.size).sum
    callstacks := callstacksOf objs }

/-- Adding an object to a group adds it to the objects of the group. -/
theorem addObject_typeOf (typeId : UInt64) (objs : List LiveObject) (o : LiveObject) :
    (typeOf typeId objs).addObject o = typeOf typeId (objs ++ [o]) := by
  have hcallstacks :
      ((typeOf typeId objs).addObject o).callstacks = callstacksOf (objs ++ [o]) := by
    rw [callstacks_addObject, callstacksOf, groupBy_append_singleton]
    rfl
  have hcount : ((typeOf typeId objs).addObject o).count = UInt64.ofNat (objs ++ [o]).length := by
    rw [List.length_append, List.length_singleton, UInt64.ofNat_add]
    rfl
  have hsize : ((typeOf typeId objs).addObject o).size =
      ((objs ++ [o]).map LiveObject.size).sum := by
    rw [List.map_append, List.sum_append, List.map_singleton, List.sum_singleton]
    rfl
  have heta : ∀ t : TypeData, t = ⟨t.type, t.count, t.size, t.callstacks⟩ := fun _ => rfl
  rw [heta ((typeOf typeId objs).addObject o), hcount, hsize, hcallstacks]
  rfl

/-- The map of indices belongs to the list of types. -/
def Loop.Inv (s : Loop) : Prop :=
  Indexed TypeData.type s.types s.typeIndices.lookup

theorem Loop.addObject_spec {s : Loop} (h : s.Inv) (o : LiveObject) :
    (s.addObject o).Inv ∧
      (s.addObject o).types = upsert TypeData.type o.typeId (putType o) s.types := by
  have hkeep : ∀ t : TypeData, (t.addObject o).type = t.type := fun _ => rfl
  unfold addObject typeIndex
  cases hi : s.typeIndices.lookup o.typeId with
  | some i => exact ⟨h.modify hkeep i, h.modify_eq hi (putType o)⟩
  | none =>
    have hnew := h.insert (g := { type := o.typeId }) hi
    refine ⟨hnew.modify hkeep _, ?_⟩
    rw [upsert_of_notMem (h.notMem hi)]
    exact Indexed.modify_length_append _ _ _

/-- **The loop groups the objects by their types.** -/
theorem types_addObjects (objs : List LiveObject) :
    (addObjects objs).types = (objs.map LiveObject.typeId).eraseDups.map fun k =>
      typeOf k (withKey LiveObject.typeId k objs) := by
  have hloop : (addObjects objs).Inv ∧
      (addObjects objs).types = groupBy LiveObject.typeId TypeData.type putType objs := by
    induction objs using List.reverseRecOn with
    | nil => exact ⟨Indexed.nil, rfl⟩
    | append_singleton objs o ih =>
      obtain ⟨hinv, htypes⟩ := ih
      have hstep := Loop.addObject_spec hinv o
      rw [htypes] at hstep
      rw [groupBy_append_singleton, addObjects, List.foldl_append]
      exact hstep
  rw [hloop.2]
  refine groupBy_eq (fun _ _ => rfl) (fun o => ?_) (fun o l _ => ?_) objs
  · exact addObject_typeOf o.typeId [] o
  · exact addObject_typeOf o.typeId l o

/-! ### The contents of the groups -/

theorem mem_types {objs : List LiveObject} {t : TypeData} :
    t ∈ (addObjects objs).types ↔
      ∃ o ∈ objs, t = typeOf o.typeId (withKey LiveObject.typeId o.typeId objs) := by
  rw [types_addObjects]
  constructor
  · intro ht
    obtain ⟨k, hk, rfl⟩ := List.mem_map.1 ht
    obtain ⟨o, ho, rfl⟩ := List.mem_map.1 (List.mem_eraseDups.1 hk)
    exact ⟨o, ho, rfl⟩
  · rintro ⟨o, ho, rfl⟩
    exact List.mem_map.2 ⟨_, List.mem_eraseDups.2 (List.mem_map_of_mem ho), rfl⟩

theorem mem_callstacksOf {objs : List LiveObject} {c : CallstackData} :
    c ∈ callstacksOf objs ↔ ∃ o ∈ objs,
      c = callstackOf o.callstackId (withKey LiveObject.callstackId o.callstackId objs) := by
  rw [callstacksOf_eq]
  constructor
  · intro hc
    obtain ⟨k, hk, rfl⟩ := List.mem_map.1 hc
    obtain ⟨o, ho, rfl⟩ := List.mem_map.1 (List.mem_eraseDups.1 hk)
    exact ⟨o, ho, rfl⟩
  · rintro ⟨o, ho, rfl⟩
    exact List.mem_map.2 ⟨_, List.mem_eraseDups.2 (List.mem_map_of_mem ho), rfl⟩

/-- The objects of a callstack among those of a type. -/
theorem withKey_withKey (objs : List LiveObject) (typeId callstackId : UInt64) :
    withKey LiveObject.callstackId callstackId (withKey LiveObject.typeId typeId objs) =
      ofGroup objs typeId callstackId := by
  rw [withKey, withKey, List.filter_filter, ofGroup]
  refine List.filter_congr fun o _ => ?_
  rw [Bool.decide_and, Bool.and_comm]

/-- Summing over the callstacks of a type is summing over its objects. -/
theorem sum_callstacksOf (objs : List LiveObject) :
    ((callstacksOf objs).map CallstackData.count).sum = UInt64.ofNat objs.length ∧
      ((callstacksOf objs).map CallstackData.size).sum = (objs.map LiveObject.size).sum := by
  have hcount : ∀ l : List LiveObject,
      UInt64.ofNat l.length = (l.map fun _ => (1 : UInt64)).sum := by
    intro l
    induction l with
    | nil => rfl
    | cons o l ih =>
      rw [List.map_cons, List.sum_cons, ← ih, List.length_cons, Nat.add_comm, UInt64.ofNat_add]
      rfl
  have hsum := fun f : LiveObject → UInt64 =>
    sum_withKey LiveObject.callstackId objs (nodup_eraseDups _)
      (fun o ho => List.mem_eraseDups.2 (List.mem_map_of_mem ho)) f
  rw [callstacksOf_eq, List.map_map, List.map_map]
  constructor
  · rw [hcount objs, ← hsum]
    congr 1
    exact List.map_congr_left fun k _ => hcount _
  · exact hsum LiveObject.size

/-- **Grouping loses and duplicates nothing.** -/
theorem grouped_addObjects (objs : List LiveObject) :
    GroupedObjects objs (addObjects objs).types := by
  constructor
  · rw [types_addObjects, List.map_map]
    have hid : (TypeData.type ∘ fun k => typeOf k (withKey LiveObject.typeId k objs)) = id := rfl
    rw [hid, List.map_id]
    exact nodup_eraseDups _
  · intro t ht
    obtain ⟨o, -, rfl⟩ := mem_types.1 ht
    show ((callstacksOf _).map CallstackData.callstack).Nodup
    rw [callstacksOf_eq, List.map_map]
    have hid : ∀ l, (CallstackData.callstack ∘ fun k =>
        callstackOf k (withKey LiveObject.callstackId k l)) = id := fun _ => rfl
    rw [hid, List.map_id]
    exact nodup_eraseDups _
  · intro t ht c hc
    obtain ⟨o, -, rfl⟩ := mem_types.1 ht
    obtain ⟨o', -, rfl⟩ := mem_callstacksOf.1 hc
    rw [withKey_withKey]
    exact ⟨rfl, rfl, rfl⟩
  · intro t ht
    obtain ⟨o, -, rfl⟩ := mem_types.1 ht
    obtain ⟨hcount, hsize⟩ := sum_callstacksOf (withKey LiveObject.typeId o.typeId objs)
    exact ⟨hcount.symm, hsize.symm⟩
  · intro typeId
    constructor
    · rintro ⟨t, ht, rfl⟩
      obtain ⟨o, ho, rfl⟩ := mem_types.1 ht
      exact ⟨o, ho, rfl⟩
    · rintro ⟨o, ho, rfl⟩
      exact ⟨_, mem_types.2 ⟨o, ho, rfl⟩, rfl⟩
  · intro typeId callstackId
    constructor
    · rintro ⟨t, ht, rfl, c, hc, rfl⟩
      obtain ⟨o, -, rfl⟩ := mem_types.1 ht
      obtain ⟨o', ho', rfl⟩ := mem_callstacksOf.1 hc
      obtain ⟨hmem, htype⟩ := mem_withKey.1 ho'
      exact ⟨o', hmem, htype, rfl⟩
    · rintro ⟨o, ho, rfl, rfl⟩
      exact ⟨_, mem_types.2 ⟨o, ho, rfl⟩, rfl, _,
        mem_callstacksOf.2 ⟨o, mem_withKey.2 ⟨ho, rfl⟩, rfl⟩, rfl⟩

end LiveObjectsData

end Owlcat
