import OwlcatMonoProfiler.Client.Windows
import OwlcatMonoProfiler.Library.Grouping

/-!
# Searching for addresses

`search_results_data::search_address_list` of `search_results_data.cpp`, which looks for the
allocation of each of a list of addresses and groups them by type and callstack.

* `Recorder.getAllocationTypeAndStack`: the query for one address;
* `Loop.searchAddress`: the loop;
* `types_searchAddresses`: what the loop collects: each group has its callstack id once less often
  than there are addresses;
* `searchAddressList_grouped_iff`: the groups are those of the addresses just when no address has
  been allocated.
-/

namespace Owlcat

/-- `select_allocation_type_and_stack`: of the allocations at an address, the last row of the last
frame.  The rows are read backwards through the index of the frames. -/
def Database.selectAllocationTypeAndStack (address : UInt64) (db : Database) : Option EventRow :=
  ((db.profilerEvents.filter fun row =>
    row.eventTypeId = 1 ∧ row.address = (DbValue.uint64 address).bind).insertionSort
      fun x y => x.frame ≤ y.frame).getLast?

/-- `get_allocation_type_and_stack`; the output parameters stay as they are when it is `none`. -/
def Recorder.getAllocationTypeAndStack (d : Recorder) (address : UInt64) :
    Option (UInt64 × UInt64) :=
  match d.db with
  | none => none
  | some st => (st.db.selectAllocationTypeAndStack address).map fun row =>
    (getUint64 row.typeId, getUint64 row.callstackId)

namespace SearchResultsData

/-- `search_results_data::callstack_data` -/
structure CallstackData where
  callstack : UInt64
  addresses : List UInt64 := []
  deriving DecidableEq

/-- `search_results_data::type_data` -/
structure TypeData where
  type : UInt64
  callstacks : List CallstackData := []
  deriving DecidableEq

/-- Look for the callstack among those of a type. -/
def TypeData.addCallstack (type : TypeData) (stackId : UInt64) : TypeData :=
  { type with
    callstacks :=
      match type.callstacks.findIdx? fun c => c.callstack = stackId with
      | none => type.callstacks ++ [{ callstack := stackId }]
      | some i => type.callstacks.modify i fun c =>
        { c with addresses := c.addresses ++ [stackId] } }

/-- The variables of the loop of `search_address_list`. -/
structure Loop where
  types : List TypeData := []
  typeIndices : Dict UInt64 ℕ := ∅

/-- The index of a type, which is added when it is new. -/
def Loop.typeIndex (s : Loop) (typeId : UInt64) : ℕ × Loop :=
  match s.typeIndices.lookup typeId with
  | some i => (i, s)
  | none =>
    (s.types.length,
      { types := s.types ++ [{ type := typeId }]
        typeIndices := s.typeIndices.insert typeId s.types.length })

/-- `std::numeric_limits<uint64_t>::max()` -/
def notFound : UInt64 := 0xFFFFFFFFFFFFFFFF

/-- The loop of `search_address_list`, for an address. -/
def Loop.searchAddress (data : Recorder) (s : Loop) (addr : UInt64) : Loop :=
  let (typeId, stackId) := (data.getAllocationTypeAndStack addr).getD (notFound, notFound)
  if typeId = notFound then s
  else
    let (i, s) := s.typeIndex typeId
    { s with types := s.types.modify i (·.addCallstack stackId) }

end SearchResultsData

/-- `search_results_data` -/
structure SearchResultsData where
  data : Option Recorder
  types : List SearchResultsData.TypeData := []

namespace SearchResultsData

/-- `search_address_list`; the progress callback is not called. -/
def searchAddressList (d : SearchResultsData) (addresses : List UInt64) : SearchResultsData :=
  match d.data with
  | none => d
  | some data => { d with types := (addresses.foldl (Loop.searchAddress data) {}).types }

/-! ### What the groups should contain -/

/-- The groups are those of the addresses, `recorded` being the type and the callstack of the
allocation of an address. -/
structure GroupedAddresses (recorded : UInt64 → Option (UInt64 × UInt64)) (addresses : List UInt64)
    (types : List TypeData) : Prop where
  types_nodup : (types.map TypeData.type).Nodup
  callstacks_nodup : ∀ t ∈ types, (t.callstacks.map CallstackData.callstack).Nodup
  group : ∀ t ∈ types, ∀ c ∈ t.callstacks,
    c.addresses = addresses.filter fun a => recorded a = some (t.type, c.callstack)
  exists_group : ∀ typeId stackId,
    (∃ t ∈ types, t.type = typeId ∧ ∃ c ∈ t.callstacks, c.callstack = stackId) ↔
      ∃ a ∈ addresses, recorded a = some (typeId, stackId)

/-! ### The loop as grouping -/

open Grouping

/-- What the loop looks at: the types and callstacks of the addresses that were found. -/
def found (data : Recorder) (addresses : List UInt64) : List (UInt64 × UInt64) :=
  addresses.filterMap fun a => (data.getAllocationTypeAndStack a).filter fun p => p.1 ≠ notFound

theorem found_cons_of_none {data : Recorder} {a : UInt64} (addresses : List UInt64)
    (h : data.getAllocationTypeAndStack a = none) :
    found data (a :: addresses) = found data addresses := by
  rw [found, List.filterMap_cons, h]
  rfl

theorem found_cons_of_some {data : Recorder} {a : UInt64} (addresses : List UInt64)
    {p : UInt64 × UInt64} (h : data.getAllocationTypeAndStack a = some p) :
    found data (a :: addresses) =
      if p.1 = notFound then found data addresses else p :: found data addresses := by
  rw [found, List.filterMap_cons, h]
  by_cases hp : p.1 = notFound <;> simp [Option.filter, found, hp]

/-- As many addresses are found for a group as belong to it. -/
theorem length_found (data : Recorder) {typeId : UInt64} (hne : typeId ≠ notFound)
    (stackId : UInt64) (addresses : List UInt64) :
    ((found data addresses).filter fun p => p = (typeId, stackId)).length =
      (addresses.filter fun a =>
        data.getAllocationTypeAndStack a = some (typeId, stackId)).length := by
  induction addresses with
  | nil => rfl
  | cons a addresses ih =>
    rw [List.filter_cons]
    cases ha : data.getAllocationTypeAndStack a with
    | none =>
      rw [found_cons_of_none addresses ha, ih]
      simp
    | some p =>
      rw [found_cons_of_some addresses ha]
      by_cases hp : p = (typeId, stackId)
      · subst hp
        simp [hne, ih]
      · split_ifs <;> simp_all

/-- Put an address into a group of its callstack: a new group is left empty, and an old one gets
the id of the callstack. -/
def putCallstack (p : UInt64 × UInt64) (c : Option CallstackData) : CallstackData :=
  match c with
  | none => { callstack := p.2 }
  | some c => { c with addresses := c.addresses ++ [p.2] }

/-- Put an address into a group of its type. -/
def putType (p : UInt64 × UInt64) (t : Option TypeData) : TypeData :=
  (t.getD { type := p.1 }).addCallstack p.2

/-- The group of some addresses of one callstack. -/
def callstackOf (stackId : UInt64) (l : List (UInt64 × UInt64)) : CallstackData :=
  { callstack := stackId, addresses := List.replicate (l.length - 1) stackId }

/-- The callstacks of some addresses of one type. -/
def callstacksOf (l : List (UInt64 × UInt64)) : List CallstackData :=
  groupBy Prod.snd CallstackData.callstack putCallstack l

theorem callstacksOf_eq (l : List (UInt64 × UInt64)) :
    callstacksOf l =
      (l.map Prod.snd).eraseDups.map fun k => callstackOf k (withKey Prod.snd k l) := by
  refine groupBy_eq (fun _ _ => rfl) (fun _ => rfl) (fun p l hne => ?_) l
  have hlen : (l ++ [p]).length - 1 = l.length - 1 + 1 := by
    have := List.length_pos_of_ne_nil hne
    rw [List.length_append, List.length_singleton]
    omega
  rw [callstackOf, callstackOf, hlen, List.replicate_succ']
  rfl

/-- The group of some addresses of one type. -/
def typeOf (typeId : UInt64) (l : List (UInt64 × UInt64)) : TypeData :=
  { type := typeId, callstacks := callstacksOf l }

theorem addCallstack_typeOf (typeId : UInt64) (l : List (UInt64 × UInt64)) (p : UInt64 × UInt64) :
    (typeOf typeId l).addCallstack p.2 = typeOf typeId (l ++ [p]) := by
  have hcallstacks : ((typeOf typeId l).addCallstack p.2).callstacks = callstacksOf (l ++ [p]) := by
    rw [callstacksOf, groupBy_append_singleton, upsert_eq_findIdx?]
    rfl
  have heta : ∀ t : TypeData, t = ⟨t.type, t.callstacks⟩ := fun _ => rfl
  rw [heta ((typeOf typeId l).addCallstack p.2), hcallstacks]
  rfl

/-- The map of indices belongs to the list of types. -/
def Loop.Inv (s : Loop) : Prop := Indexed TypeData.type s.types s.typeIndices.lookup

/-- **One address**: it is put into its groups, or left out. -/
theorem Loop.searchAddress_spec {s : Loop} (h : s.Inv) (data : Recorder) (addr : UInt64) :
    (s.searchAddress data addr).Inv ∧
      (s.searchAddress data addr).types = (found data [addr]).foldl
        (fun ts p => upsert TypeData.type p.1 (putType p) ts) s.types := by
  have hkeep : ∀ (stackId : UInt64) (t : TypeData), (t.addCallstack stackId).type = t.type :=
    fun _ _ => rfl
  unfold searchAddress
  cases hp : data.getAllocationTypeAndStack addr with
  | none => exact ⟨h, by simp [found, hp]⟩
  | some p =>
    obtain ⟨typeId, stackId⟩ := p
    by_cases hfound : typeId = notFound
    · simp only [Option.getD_some, if_pos hfound]
      rw [found_cons_of_some [] hp, if_pos hfound]
      exact ⟨h, rfl⟩
    · have hlist : found data [addr] = [(typeId, stackId)] := by
        rw [found_cons_of_some [] hp, if_neg hfound]
        rfl
      simp only [Option.getD_some, if_neg hfound, hlist, List.foldl_cons, List.foldl_nil]
      unfold typeIndex
      cases hi : s.typeIndices.lookup typeId with
      | some i => exact ⟨h.modify (hkeep stackId) i, h.modify_eq hi (putType (typeId, stackId))⟩
      | none =>
        have hnew := h.insert (g := { type := typeId }) hi
        refine ⟨hnew.modify (hkeep stackId) _, ?_⟩
        rw [upsert_of_notMem (h.notMem hi)]
        exact Indexed.modify_length_append _ _ _

/-- **What the loop collects.** -/
theorem types_searchAddresses (data : Recorder) (addresses : List UInt64) :
    (addresses.foldl (Loop.searchAddress data) {}).types =
      ((found data addresses).map Prod.fst).eraseDups.map fun k =>
        typeOf k (withKey Prod.fst k (found data addresses)) := by
  have hloop : (addresses.foldl (Loop.searchAddress data) {}).Inv ∧
      (addresses.foldl (Loop.searchAddress data) {}).types =
        groupBy Prod.fst TypeData.type putType (found data addresses) := by
    induction addresses using List.reverseRecOn with
    | nil => exact ⟨Indexed.nil, rfl⟩
    | append_singleton addresses addr ih =>
      obtain ⟨hinv, htypes⟩ := ih
      have hstep := Loop.searchAddress_spec hinv data addr
      rw [htypes] at hstep
      rw [found, List.filterMap_append, groupBy, List.foldl_append, List.foldl_append]
      exact hstep
  rw [hloop.2]
  refine groupBy_eq (fun _ _ => rfl) (fun p => ?_) (fun p l _ => ?_) (found data addresses)
  · exact addCallstack_typeOf p.1 [] p
  · exact addCallstack_typeOf p.1 l p

/-- A group has its callstack id, once less often than there are addresses that belong to it. -/
theorem group_searchAddresses {data : Recorder} {addresses : List UInt64} {t : TypeData}
    {c : CallstackData} (ht : t ∈ (addresses.foldl (Loop.searchAddress data) {}).types)
    (hc : c ∈ t.callstacks) :
    c.addresses = List.replicate ((addresses.filter fun a =>
      data.getAllocationTypeAndStack a = some (t.type, c.callstack)).length - 1) c.callstack := by
  rw [types_searchAddresses] at ht
  obtain ⟨typeId, hmem, rfl⟩ := List.mem_map.1 ht
  obtain ⟨p, hp, rfl⟩ := List.mem_map.1 (List.mem_eraseDups.1 hmem)
  have hne : p.1 ≠ notFound := by
    obtain ⟨a, -, ha⟩ := List.mem_filterMap.1 hp
    simpa using (Option.filter_eq_some_iff.1 ha).2
  change c ∈ callstacksOf _ at hc
  rw [callstacksOf_eq] at hc
  obtain ⟨stackId, -, rfl⟩ := List.mem_map.1 hc
  have hfilter : withKey Prod.snd stackId (withKey Prod.fst p.1 (found data addresses)) =
      (found data addresses).filter fun q => q = (p.1, stackId) := by
    rw [withKey, withKey, List.filter_filter]
    refine List.filter_congr fun q _ => ?_
    rw [← Bool.decide_and, decide_eq_decide, Prod.ext_iff, and_comm]
  have hlen := length_found data hne stackId addresses
  rw [← hfilter] at hlen
  exact congrArg (fun n => List.replicate (n - 1) stackId) hlen

/-- The query finds nothing when there is no allocation at the address. -/
theorem getAllocationTypeAndStack_eq_none {data : Recorder} {address : UInt64} :
    data.getAllocationTypeAndStack address = none ↔
      ∀ st, data.db = some st → ∀ row ∈ st.db.profilerEvents, row.isAlloc → row.addr ≠ address := by
  have hrow : ∀ row : EventRow, row.eventTypeId = 1 ∧ row.address = (DbValue.uint64 address).bind ↔
      row.isAlloc ∧ row.addr = address := by
    intro row
    have htype : row.eventTypeId = 1 ↔ row.isAlloc := by
      rw [EventRow.isAlloc, decide_eq_true_iff, ← getUint64_inj]
      rfl
    have haddr : row.address = (DbValue.uint64 address).bind ↔ row.addr = address := by
      rw [EventRow.addr, ← getUint64_inj, getUint64_bind]
    rw [htype, haddr]
  unfold Recorder.getAllocationTypeAndStack
  cases hdb : data.db with
  | none => simp
  | some st =>
    rw [Option.map_eq_none_iff, Database.selectAllocationTypeAndStack, List.getLast?_eq_none_iff,
      ← List.length_eq_zero_iff, List.length_insertionSort, List.length_eq_zero_iff,
      List.filter_eq_nil_iff]
    constructor
    · intro h st' hst row hmem halloc haddr
      cases hst
      exact h row hmem (decide_eq_true ((hrow row).2 ⟨halloc, haddr⟩))
    · intro h row hmem hsel
      obtain ⟨halloc, haddr⟩ := (hrow row).1 (of_decide_eq_true hsel)
      exact h st rfl row hmem halloc haddr

/-- None of the addresses has been allocated. -/
theorem notAllocated_iff {data : Recorder} {addresses : List UInt64} :
    (∀ st, data.db = some st → ∀ row ∈ st.db.profilerEvents, row.isAlloc →
        row.addr ∉ addresses) ↔
      ∀ a ∈ addresses, data.getAllocationTypeAndStack a = none := by
  constructor
  · intro h a ha
    apply getAllocationTypeAndStack_eq_none.2
    intro st hst row hrow halloc haddr
    exact h st hst row hrow halloc (haddr ▸ ha)
  · intro h st hst row hrow halloc ha
    exact getAllocationTypeAndStack_eq_none.1 (h _ ha) st hst row hrow halloc rfl

/-- **The groups are right just when none of the addresses has been allocated.** -/
theorem searchAddressList_grouped_iff (d : SearchResultsData) {data : Recorder}
    (hdata : d.data = some data) (addresses : List UInt64) :
    GroupedAddresses data.getAllocationTypeAndStack addresses
        (d.searchAddressList addresses).types ↔
      ∀ st, data.db = some st → ∀ row ∈ st.db.profilerEvents, row.isAlloc →
        row.addr ∉ addresses := by
  have htypes : (d.searchAddressList addresses).types =
      (addresses.foldl (Loop.searchAddress data) {}).types := by
    rw [searchAddressList, hdata]
  rw [htypes]
  rw [notAllocated_iff]
  constructor
  · intro h a ha
    cases hrec : data.getAllocationTypeAndStack a with
    | none => rfl
    | some p =>
      -- the group of the address lacks an entry
      obtain ⟨t, ht, htype, c, hc, hstack⟩ := (h.exists_group p.1 p.2).2 ⟨a, ha, hrec⟩
      have hgroup := h.group t ht c hc
      have hmem : a ∈ addresses.filter fun a =>
          data.getAllocationTypeAndStack a = some (t.type, c.callstack) := by
        rw [List.mem_filter, decide_eq_true_iff, htype, hstack]
        exact ⟨ha, hrec⟩
      have hlen := congrArg List.length ((group_searchAddresses ht hc).symm.trans hgroup)
      rw [List.length_replicate] at hlen
      have hpos := List.length_pos_of_mem hmem
      omega
  · intro h
    have hempty : (addresses.foldl (Loop.searchAddress data) {}).types = [] := by
      have hfound : found data addresses = [] := by
        rw [found, List.filterMap_eq_nil_iff]
        intro a ha
        rw [h a ha]
        rfl
      rw [types_searchAddresses, hfound]
      rfl
    rw [hempty]
    refine ⟨List.nodup_nil, by simp, by simp, fun typeId stackId => ?_⟩
    constructor
    · rintro ⟨t, ht, -⟩
      cases ht
    · rintro ⟨a, ha, hrec⟩
      rw [h a ha] at hrec
      cases hrec

/-- A trace with an allocation at 16. -/
def oneAllocation : SearchResultsData :=
  { data := some { db := some { db := { profilerEvents := [⟨1, some 0, 16, 8, 1, some 0⟩] } } } }

theorem searchAddressList_grouped_iff_oneAllocation : ∃ data, oneAllocation.data = some data ∧
    (GroupedAddresses data.getAllocationTypeAndStack [16, 32]
        (oneAllocation.searchAddressList [16, 32]).types ↔
      ∀ st, data.db = some st → ∀ row ∈ st.db.profilerEvents, row.isAlloc →
        row.addr ∉ [16, 32]) :=
  ⟨_, rfl, searchAddressList_grouped_iff oneAllocation rfl [16, 32]⟩

/-- The group of the only address is empty. -/
theorem searched_address_lost : ¬ ∀ (d : SearchResultsData) (data : Recorder)
    (addresses : List UInt64), d.data = some data →
      GroupedAddresses data.getAllocationTypeAndStack addresses
        (d.searchAddressList addresses).types := by
  intro h
  have hgroup := (h oneAllocation _ [16] rfl).group ⟨0, [⟨0, []⟩]⟩ (by decide) ⟨0, []⟩ (by decide)
  exact absurd hgroup (by decide)

end SearchResultsData

end Owlcat
