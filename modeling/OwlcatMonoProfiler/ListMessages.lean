import OwlcatMonoProfiler.Client.BrokenEvents

/-!
# Messages that carry lists

The branches of `SRV_REFERENCES` in `mono_profiler_client.cpp` and of `CMD_REFERENCES` in
`mono_profiler_server.cpp`, on payloads whose declared counts need not be those of the elements.

* `objectField`, `addressField`: the elements, as fields;
* `finds_readParents`, `finds_readAddresses`: the loops find the list of fields, or fail;
* `receiveRequest`: what the server makes of a request;
* `ReferencesBounded`, `RequestBounded`: the loops are run at most as often as there are bytes, and
  the callback or the search gets nothing that was not read;
* `LoopOverflows`: a loop of the client comes to a string whose length overflows;
* `bounded_iff`: this is so exactly when the declared elements are all there, or no loop is entered,
  or the loop of the client is left by an exception.
-/

namespace Owlcat

open Protocol LittleEndian

/-! ### Elements -/

/-- The address of a request. -/
def addressField (l : List UInt8) : Option (UInt64 × List UInt8) :=
  (wordField 8 l).map fun p => (UInt64.ofNat p.1, p.2)

/-- The address of an object, its type, the number of its parents, and as many addresses. -/
def objectField (l : List UInt8) : Option (ReceivedReferences × List UInt8) :=
  (varintField l).bind fun addr =>
    (stringField addr.2).bind fun type =>
      (varintField type.2).bind fun count =>
        (listField varintField count.1.toNat count.2).map fun parents =>
          (⟨addr.1, type.1, parents.1⟩, parents.2)

/-- How often the bodies of the loops are run for an object. -/
def ReceivedReferences.iterations (obj : ReceivedReferences) : ℕ := 1 + obj.parents.length

/-- What is behind a string, or behind its length when the string is cut. -/
def behindString (l : List UInt8) : Option (List UInt8) :=
  (varintField l).map fun length =>
    ((bytesField length.1.toNat length.2).map Prod.snd).getD length.2

/-- The number of parents, and what is behind the parents of an object whose type begins here. -/
def behindObject (l : List UInt8) : Option (ℕ × List UInt8) :=
  (behindString l).bind fun type =>
    (varintField type).bind fun count =>
      (listField varintField count.1.toNat count.2).map fun parents =>
        (count.1.toNat, parents.2)

/-- The loop over `n` objects comes to a type whose length overflows, in a payload of `size`
bytes. -/
def LoopOverflows (size : ℕ) : ℕ → List UInt8 → Prop
  | 0, _ => False
  | n + 1, l =>
    ∃ addr ∈ varintField l, Overflows size addr.2 ∨
      ∃ next ∈ behindObject addr.2, LoopOverflows size n next.2

section Elements

variable {l rest : List UInt8}

theorem length_of_varints {n : ℕ} {vs : List UInt64}
    (h : listField varintField n l = some (vs, rest)) :
    n + rest.length ≤ l.length ∧ vs.length = n := by
  have hcost := length_of_listField (fun _ => 1)
    (fun l x rest hx => by have := length_of_varintField hx; omega) h
  rw [List.map_const', List.sum_replicate, smul_eq_mul, mul_one] at hcost
  omega

theorem length_of_objectField {obj : ReceivedReferences} (h : objectField l = some (obj, rest)) :
    obj.iterations + rest.length ≤ l.length := by
  obtain ⟨addr, haddr, h⟩ := Option.bind_eq_some_iff.1 h
  obtain ⟨type, htype, h⟩ := Option.bind_eq_some_iff.1 h
  obtain ⟨count, hcount, h⟩ := Option.bind_eq_some_iff.1 h
  obtain ⟨parents, hparents, heq⟩ := Option.map_eq_some_iff.1 h
  cases heq
  have h1 := length_of_varintField haddr
  have h2 := length_of_stringField htype
  have h3 := length_of_varintField hcount
  have h4 := length_of_varints hparents
  show 1 + parents.1.length + parents.2.length ≤ l.length
  omega

theorem length_of_behindObject {n : ℕ} (h : behindObject l = some (n, rest)) :
    n + rest.length ≤ l.length := by
  obtain ⟨type, htype, h⟩ := Option.bind_eq_some_iff.1 h
  obtain ⟨count, hcount, h⟩ := Option.bind_eq_some_iff.1 h
  obtain ⟨parents, hparents, heq⟩ := Option.map_eq_some_iff.1 h
  cases heq
  obtain ⟨length, hlength, rfl⟩ := Option.map_eq_some_iff.1 htype
  have h1 := length_of_varintField hlength
  have h2 : (((bytesField length.1.toNat length.2).map Prod.snd).getD length.2).length ≤
      length.2.length := by
    cases hbytes : bytesField length.1.toNat length.2 with
    | none => rfl
    | some p =>
      rw [Option.map_some, Option.getD_some, (bytesField_eq_some.1 hbytes).2.2, List.length_drop]
      exact Nat.sub_le _ _
  have h3 := length_of_varintField hcount
  have h4 := length_of_varints hparents
  omega

end Elements

/-! ### Loops -/

section Loops

open MemoryReader

variable {u : Uninit} {r : MemoryReader}

theorem finds_readParents (u : Uninit) (h : r.Inside) (n : ℕ) :
    r.Finds (readParents u n r) (listField varintField n r.rest) := by
  induction n generalizing r with
  | zero =>
    refine ⟨h.behind_self, fun p hp => ?_, fun hp => by cases hp⟩
    cases hp
    exact ⟨rfl, rfl, rfl⟩
  | succ n ih =>
    have hparent := h.finds_varint u.uint64
    exact hparent.pair (listField varintField n) (ih hparent.behind.inside) List.cons

theorem finds_readAddresses (u : Uninit) (h : r.Inside) (n : ℕ) :
    r.Finds (readAddresses u n r) (listField addressField n r.rest) := by
  induction n generalizing r with
  | zero =>
    refine ⟨h.behind_self, fun p hp => ?_, fun hp => by cases hp⟩
    cases hp
    exact ⟨rfl, rfl, rfl⟩
  | succ n ih =>
    have haddr := h.finds_uint64 u.uint64
    exact haddr.pair (listField addressField n) (ih haddr.behind.inside) List.cons

/-- The bodies of the loops for one object, when its type does not throw. -/
theorem objectsLoop_succ {n : ℕ} (hcall : (r.readVarint u.uint64).reader.stringCall ≠ none) :
    objectsLoop u (n + 1) r =
      let addr := r.readVarint u.uint64
      let type := addr.reader.readString []
      let count := type.reader.readVarint u.uint64
      let parents := readParents u count.value.toNat count.reader
      let rest := objectsLoop u n parents.reader
      ⟨1 + count.value.toNat + rest.iterations,
        rest.objects.map fun objects => ⟨addr.value, type.value, parents.value⟩ :: objects⟩ := by
  have hsome : ¬(r.readVarint u.uint64).reader.stringCall.isNone = true := by
    rwa [Option.isNone_iff_eq_none]
  rw [objectsLoop, if_neg hsome]

theorem length_rest_le (r : MemoryReader) : r.rest.length ≤ r.storage.length := by
  rw [length_rest]
  exact Nat.sub_le _ _

/-- **Objects that are all there** are what the loop returns. -/
theorem objectsLoop_of_fields {n : ℕ} {objects : List ReceivedReferences} {rest : List UInt8}
    (h : r.Inside) (hfields : listField objectField n r.rest = some (objects, rest)) :
    objectsLoop u n r = ⟨(objects.map ReceivedReferences.iterations).sum, some objects⟩ := by
  induction n generalizing r objects with
  | zero =>
    cases hfields
    rfl
  | succ n ih =>
    obtain ⟨obj, hobj, hmap⟩ := Option.bind_eq_some_iff.1 hfields
    obtain ⟨objs, hobjs, heq⟩ := Option.map_eq_some_iff.1 hmap
    cases heq
    obtain ⟨addr, haddr, hobj⟩ := Option.bind_eq_some_iff.1 hobj
    obtain ⟨type, htype, hobj⟩ := Option.bind_eq_some_iff.1 hobj
    obtain ⟨count, hcount, hobj⟩ := Option.bind_eq_some_iff.1 hobj
    obtain ⟨parents, hparents, heq⟩ := Option.map_eq_some_iff.1 hobj
    cases heq
    have hreadAddr := h.finds_varint u.uint64
    obtain ⟨-, hvalueAddr, hrestAddr⟩ := hreadAddr.found addr haddr
    have hinAddr := hreadAddr.behind.inside
    have hover : ¬Overflows (r.readVarint u.uint64).reader.storage.length
        (r.readVarint u.uint64).reader.rest :=
      not_overflows_of_stringField hinAddr.2 (length_rest_le _) (hrestAddr ▸ htype)
    obtain ⟨hreadType, hcall, -⟩ := hinAddr.finds_string hover
    rw [hrestAddr] at hreadType
    obtain ⟨-, hvalueType, hrestType⟩ := hreadType.found type htype
    have hreadCount := hreadType.behind.inside.finds_varint u.uint64
    rw [hrestType] at hreadCount
    obtain ⟨-, hvalueCount, hrestCount⟩ := hreadCount.found count hcount
    have hreadParents := finds_readParents u hreadCount.behind.inside count.1.toNat
    rw [hrestCount] at hreadParents
    obtain ⟨-, hvalueParents, hrestParents⟩ := hreadParents.found parents hparents
    have hrest := ih hreadParents.behind.inside (hrestParents ▸ hobjs)
    have hlen := (length_of_varints hparents).2
    rw [objectsLoop_succ (by rw [hcall]; simp)]
    simp only [hvalueAddr, hvalueType, hvalueCount, hvalueParents, hrest]
    rw [List.map_cons, List.sum_cons, ReceivedReferences.iterations, hlen]
    rfl

/-- Once only eight bytes are left, no string throws. -/
theorem objects_of_length_le {n : ℕ} (h : r.Inside) (hle : r.rest.length ≤ 8) :
    (objectsLoop u n r).objects ≠ none := by
  induction n generalizing r with
  | zero => exact Option.some_ne_none _
  | succ n ih =>
    have hbehindAddr := h.readVarint u.uint64
    have hover := not_overflows_of_length_le hbehindAddr.inside.2
      (hbehindAddr.length_le.trans hle)
    obtain ⟨hreadType, hcall, -⟩ := hbehindAddr.inside.finds_string hover
    have hbehindCount := hreadType.behind.inside.readVarint u.uint64
    have hreadParents := finds_readParents u hbehindCount.inside
      (((r.readVarint u.uint64).reader.readString []).reader.readVarint u.uint64).value.toNat
    have hbehind := ((hbehindAddr.trans hreadType.behind).trans hbehindCount).trans
      hreadParents.behind
    rw [objectsLoop_succ (by rw [hcall]; simp)]
    simpa using ih hreadParents.behind.inside (hbehind.length_le.trans hle)

theorem length_readParents_le {n : ℕ} (h : r.Inside)
    (hnone : listField varintField n r.rest = none) :
    (readParents u n r).reader.rest.length ≤ 8 := by
  induction n generalizing r with
  | zero => cases hnone
  | succ n ih =>
    have hparent := h.finds_varint u.uint64
    have hin := hparent.behind.inside
    show (readParents u n (r.readVarint u.uint64).reader).reader.rest.length ≤ 8
    cases hfield : varintField r.rest with
    | none =>
      have hbehind := hparent.behind.trans (finds_readParents u hin n).behind
      exact hbehind.length_le.trans (length_of_varintField_eq_none hfield)
    | some v =>
      rw [listField, hfield, Option.bind_some, Option.map_eq_none_iff] at hnone
      rw [← (hparent.found v hfield).2.2] at hnone
      exact ih hin hnone

/-- What a string leaves, when its length is there. -/
theorem rest_readString (h : r.Inside) (hover : ¬Overflows r.storage.length r.rest)
    {l : List UInt8} (hbehind : behindString r.rest = some l) :
    (r.readString []).reader.rest = l := by
  obtain ⟨hfinds, -, hcut⟩ := h.finds_string hover
  obtain ⟨length, hlength, rfl⟩ := Option.map_eq_some_iff.1 hbehind
  cases hbytes : bytesField length.1.toNat length.2 with
  | none =>
    have hstring : stringField r.rest = none := by
      rw [stringField, hlength, Option.bind_some, hbytes]
    exact hcut length hlength hstring
  | some p =>
    have hstring : stringField r.rest = some p := by
      rw [stringField, hlength, Option.bind_some, hbytes]
    exact (hfinds.found p hstring).2.2

/-- The type and the parents of an object are passed over, or only eight bytes are left. -/
theorem readParents_cases (h : r.Inside) (hover : ¬Overflows r.storage.length r.rest) :
    let count := (r.readString []).reader.readVarint u.uint64
    let parents := readParents u count.value.toNat count.reader
    r.Behind parents.reader ∧
      (behindObject r.rest = some (count.value.toNat, parents.reader.rest) ∨
        behindObject r.rest = none ∧ parents.reader.rest.length ≤ 8) := by
  intro count parents
  have hreadType := (h.finds_string hover).1
  have hreadCount := hreadType.behind.inside.finds_varint u.uint64
  have hreadParents := finds_readParents u hreadCount.behind.inside count.value.toNat
  have hbehind := hreadCount.behind.trans hreadParents.behind
  refine ⟨hreadType.behind.trans hbehind, ?_⟩
  unfold behindObject
  cases htype : behindString r.rest with
  | none =>
    have hlength : varintField r.rest = none := Option.map_eq_none_iff.1 htype
    exact Or.inr ⟨rfl, (hreadType.behind.trans hbehind).length_le.trans
      (length_of_varintField_eq_none hlength)⟩
  | some type =>
    have hrestType := rest_readString h hover htype
    rw [hrestType] at hreadCount
    rw [Option.bind_some]
    cases hcount : varintField type with
    | none =>
      rw [← hrestType] at hcount
      exact Or.inr ⟨rfl, hbehind.length_le.trans (length_of_varintField_eq_none hcount)⟩
    | some field =>
      obtain ⟨-, hvalueCount, hrestCount⟩ := hreadCount.found field hcount
      rw [Option.bind_some, ← hvalueCount, ← hrestCount]
      cases hparents : listField varintField count.value.toNat count.reader.rest with
      | none =>
        exact Or.inr ⟨rfl, length_readParents_le hreadCount.behind.inside hparents⟩
      | some field =>
        left
        rw [(hreadParents.found field hparents).2.2]
        rfl

/-- One object whose type does not throw: how many parents there are, and the reader behind them. -/
theorem objectsLoop_step {addr : UInt64 × List UInt8} (n : ℕ) (h : r.Inside)
    (haddr : varintField r.rest = some addr) (hover : ¬Overflows r.storage.length addr.2) :
    ∃ parents r', r.Behind r' ∧
      (objectsLoop u (n + 1) r).iterations = 1 + parents + (objectsLoop u n r').iterations ∧
      ((objectsLoop u (n + 1) r).objects = none ↔ (objectsLoop u n r').objects = none) ∧
      (behindObject addr.2 = some (parents, r'.rest) ∨
        behindObject addr.2 = none ∧ r'.rest.length ≤ 8) := by
  have hreadAddr := h.finds_varint u.uint64
  obtain ⟨-, -, hrest⟩ := hreadAddr.found addr haddr
  have hnot : ¬Overflows (r.readVarint u.uint64).reader.storage.length
      (r.readVarint u.uint64).reader.rest := by
    rwa [hreadAddr.behind.storage, hrest]
  obtain ⟨-, hcall, -⟩ := hreadAddr.behind.inside.finds_string hnot
  obtain ⟨hbehind, hnext⟩ := readParents_cases (u := u) hreadAddr.behind.inside hnot
  rw [hrest] at hnext
  rw [objectsLoop_succ (by rw [hcall]; simp)]
  exact ⟨_, _, hreadAddr.behind.trans hbehind, rfl, Option.map_eq_none_iff, hnext⟩

/-- **The loop over objects throws** exactly when it comes to a length that overflows, and then it
was run less often than there are bytes. -/
theorem objectsLoop_cases {n : ℕ} (h : r.Inside) :
    (objectsLoop u n r).objects = none ∧ LoopOverflows r.storage.length n r.rest ∧
        (objectsLoop u n r).iterations ≤ r.rest.length ∨
      (objectsLoop u n r).objects ≠ none ∧ ¬LoopOverflows r.storage.length n r.rest := by
  induction n generalizing r with
  | zero => exact Or.inr ⟨Option.some_ne_none _, id⟩
  | succ n ih =>
    cases haddr : varintField r.rest with
    | none =>
      refine Or.inr ⟨objects_of_length_le h (length_of_varintField_eq_none haddr), ?_⟩
      rintro ⟨addr, hmem, -⟩
      rw [haddr] at hmem
      cases hmem
    | some addr =>
      have hlt := length_of_varintField haddr
      by_cases hover : Overflows r.storage.length addr.2
      · have hreadAddr := h.finds_varint u.uint64
        have hthrows := hreadAddr.behind.inside.stringCall_of_overflows
          (by rwa [hreadAddr.behind.storage, (hreadAddr.found addr haddr).2.2])
        have hloop : objectsLoop u (n + 1) r = ⟨1, none⟩ := by
          simp only [objectsLoop, hthrows, Option.isNone_none, if_true]
        rw [hloop]
        exact Or.inl ⟨rfl, ⟨addr, haddr, Or.inl hover⟩, by show 1 ≤ r.rest.length; omega⟩
      · obtain ⟨parents, r', hbehind, hiterations, hobjects, hnext⟩ :=
          objectsLoop_step (u := u) n h haddr hover
        have hloop : LoopOverflows r.storage.length (n + 1) r.rest ↔
            ∃ next ∈ behindObject addr.2, LoopOverflows r.storage.length n next.2 := by
          rw [LoopOverflows, haddr]
          simp [hover]
        rw [hloop, hiterations, ne_eq, hobjects]
        rcases hnext with hnext | ⟨hnext, hleft⟩
        · have hlen := length_of_behindObject hnext
          have hcases := ih hbehind.inside
          rw [hbehind.storage] at hcases
          rw [hnext]
          simp only [Option.mem_some_iff, exists_eq_left']
          rcases hcases with ⟨hthrows, hover', hle⟩ | hend
          · exact Or.inl ⟨hthrows, hover', by omega⟩
          · exact Or.inr hend
        · right
          rw [hnext]
          refine ⟨objects_of_length_le hbehind.inside hleft, ?_⟩
          rintro ⟨next, hmem, -⟩
          cases hmem

end Loops

/-! ### The client -/

/-- The response has an id the client waits for, and a number of objects. -/
def Entered (d : Details) (payload : List UInt8) (count : UInt64 × List UInt8) : Prop :=
  8 ≤ payload.length ∧
    (∃ cmd ∈ d.commands, cmd.requestId = UInt64.ofNat (ofBytes (payload.take 8))) ∧
    count ∈ varintField (payload.drop 8)

/-- The objects were read from a response. -/
def ObjectsOf (payload : List UInt8) (objects : List ReceivedReferences) : Prop :=
  ∃ count ∈ varintField (payload.drop 8), ∃ n rest,
    listField objectField n count.2 = some (objects, rest)

/-- The loops of the client are run at most as often as a response has bytes, and the callback is
called with objects of the response. -/
def ReferencesBounded (d : Details) (payload : List UInt8) : Prop :=
  ∀ u, (d.receiveReferences u { storage := payload }).1 ≤ payload.length ∧
    ∀ d' ∈ (d.receiveReferences u { storage := payload }).2,
      d'.callbacks = d.callbacks ∨ ∃ cmd requestId objects,
        d'.callbacks = d.callbacks ++ [(cmd, .references requestId objects)] ∧
        ObjectsOf payload objects

/-- All of the declared objects are there, or the loop throws, when it is entered. -/
def ObjectsContained (d : Details) (payload : List UInt8) : Prop :=
  ∀ count, Entered d payload count →
    (listField objectField count.1.toNat count.2).isSome ∨
      LoopOverflows payload.length count.1.toNat count.2

section Client

open MemoryReader

variable {u : Uninit} {d : Details} {payload : List UInt8}

theorem length_objectsLoop {n : ℕ} {r : MemoryReader} {objects : List ReceivedReferences}
    (h : (objectsLoop u n r).objects = some objects) : objects.length = n := by
  induction n generalizing r objects with
  | zero =>
    cases h
    rfl
  | succ n ih =>
    simp only [objectsLoop] at h
    split_ifs at h
    obtain ⟨rest, hrest, rfl⟩ := Option.map_eq_some_iff.1 h
    rw [List.length_cons, ih hrest]

theorem length_of_objects {n : ℕ} {l rest : List UInt8} {objects : List ReceivedReferences}
    (h : listField objectField n l = some (objects, rest)) :
    (objects.map ReceivedReferences.iterations).sum ≤ l.length ∧ objects.length = n := by
  obtain ⟨hsum, hlen⟩ := length_of_listField ReceivedReferences.iterations
    (fun _ _ _ hobj => length_of_objectField hobj) h
  exact ⟨by omega, hlen⟩

/-- The branch of `SRV_REFERENCES` comes to its loop, or leaves the callbacks alone. -/
theorem receiveReferences_cases (u : Uninit) (d : Details) (hlen : payload.length < 2 ^ 63) :
    (∃ count r cmd requestId, ∃ d' : Details, Entered d payload count ∧ r.Inside ∧
        r.storage = payload ∧ r.rest = count.2 ∧ d'.callbacks = d.callbacks ∧
        d.receiveReferences u { storage := payload } =
          ((objectsLoop u count.1.toNat r).iterations,
            (objectsLoop u count.1.toNat r).objects.map fun objects =>
              (d'.callback cmd (.references requestId objects)).flush)) ∨
      (∀ count, ¬Entered d payload count) ∧
        ∃ d', d.receiveReferences u { storage := payload } = (0, some d') ∧
          d'.callbacks = d.callbacks := by
  have hstart := inside_start hlen
  have hid := hstart.finds_uint64 u.uint64
  simp only [Details.receiveReferences]
  by_cases h8 : 8 ≤ payload.length
  · have hfield : wordField 8 payload = some (ofBytes (payload.take 8), payload.drop 8) := by
      rw [wordField, bytesField, if_pos h8]
      rfl
    have hrest : MemoryReader.rest { storage := payload } = payload := rfl
    obtain ⟨hok, hvalue, hrestId⟩ := hid.found (UInt64.ofNat (ofBytes (payload.take 8)),
      payload.drop 8) (by rw [hrest, hfield]; rfl)
    have hbehind := hid.behind
    have hcount := hbehind.inside.finds_varint u.uint64
    generalize MemoryReader.readUint64 { storage := payload } u.uint64 = id at *
    rw [hrestId] at hcount
    simp only [hok, Bool.not_true, Bool.false_eq_true, if_false]
    cases hcmd : d.getCommand id.value cmdReferences with
    | none =>
      refine Or.inr ⟨fun count hentered => ?_, d, rfl, rfl⟩
      obtain ⟨-, ⟨cmd, hmem, hcmdId⟩, -⟩ := hentered
      have hnone := List.find?_eq_none.1 (Option.map_eq_none_iff.1 hcmd) cmd hmem
      rw [hvalue, decide_eq_true_iff] at hnone
      exact hnone hcmdId
    | some found =>
      obtain ⟨cmd, hfind, rfl⟩ := Option.map_eq_some_iff.1 hcmd
      have hcmdId := List.find?_some hfind
      rw [hvalue, decide_eq_true_iff] at hcmdId
      cases hfieldCount : varintField (payload.drop 8) with
      | none =>
        rw [hcount.missing hfieldCount]
        refine Or.inr ⟨fun count hentered => ?_, _, rfl, rfl⟩
        rw [Entered, hfieldCount] at hentered
        cases hentered.2.2
      | some count =>
        obtain ⟨hokCount, hvalueCount, hrestCount⟩ := hcount.found count hfieldCount
        simp only [hokCount, hvalueCount, Bool.not_true, Bool.false_eq_true, if_false]
        refine Or.inl ⟨count, _, cmd, id.value, _,
          ⟨h8, ⟨cmd, List.mem_of_find?_eq_some hfind, hcmdId⟩, hfieldCount⟩,
          hcount.behind.inside, hcount.behind.storage.trans hbehind.storage, hrestCount, ?_, rfl⟩
        rfl
  · rw [hid.skips.missing (Nat.not_le.1 h8)]
    exact Or.inr ⟨fun count hentered => h8 hentered.1, d, rfl, rfl⟩

/-- A loop that ends hands all of the declared objects to the callback, so they must be there. -/
theorem objectsContained_of_referencesBounded (hlen : payload.length < 2 ^ 63)
    (hbounded : ReferencesBounded d payload) : ObjectsContained d payload := by
  intro count hentered
  obtain ⟨-, hcallbacks⟩ := hbounded ⟨0, 0, 0⟩
  rcases receiveReferences_cases ⟨0, 0, 0⟩ d hlen with
    ⟨count', r, cmd, requestId, d', hentered', hin, hstorage, hrest, hsame, heq⟩ | ⟨hnot, -⟩
  · obtain rfl : count = count' := Option.some.inj (hentered.2.2.symm.trans hentered'.2.2)
    rcases objectsLoop_cases (u := ⟨0, 0, 0⟩) (n := count.1.toNat) hin with
      ⟨-, hover, -⟩ | ⟨hend, -⟩
    · rw [hstorage, hrest] at hover
      exact Or.inr hover
    · left
      obtain ⟨objects, hobjects⟩ := Option.ne_none_iff_exists'.1 hend
      rw [heq, hobjects] at hcallbacks
      have hlast : ((d'.callback cmd (.references requestId objects)).flush).callbacks =
          d.callbacks ++ [(cmd, .references requestId objects)] := by
        rw [← hsame]
        rfl
      rcases hcallbacks _ rfl with hnone | ⟨cmd', requestId', objects', hcall, hof⟩
      · rw [hlast] at hnone
        exact absurd hnone (by simp)
      · rw [hlast] at hcall
        have hargs : cmd = cmd' ∧ requestId = requestId' ∧ objects = objects' := by
          simpa using hcall
        obtain ⟨count', hcount', n, rest, hlist⟩ := hof
        obtain rfl : count = count' := Option.some.inj (hentered.2.2.symm.trans hcount')
        rw [← hargs.2.2] at hlist
        rw [← length_objectsLoop hobjects, (length_of_objects hlist).2, hlist]
        rfl
  · exact absurd hentered (hnot count)

/-- A loop over objects that are all there, or that throws, is run at most once for each byte. -/
theorem referencesBounded_of_objectsContained (hlen : payload.length < 2 ^ 63)
    (hcontained : ObjectsContained d payload) : ReferencesBounded d payload := by
  intro u
  rcases receiveReferences_cases u d hlen with
    ⟨count, r, cmd, requestId, d', hentered, hin, hstorage, hrest, hsame, heq⟩ |
      ⟨-, d', heq, hsame⟩
  · have hle : count.2.length ≤ payload.length := by
      have hlt := length_of_varintField hentered.2.2
      rw [List.length_drop] at hlt
      omega
    rw [heq]
    rcases hcontained count hentered with hall | hover
    · obtain ⟨⟨objects, rest⟩, hlist⟩ := Option.isSome_iff_exists.1 hall
      have hsum := (length_of_objects hlist).1
      rw [objectsLoop_of_fields hin (hrest ▸ hlist)]
      refine ⟨hsum.trans hle, fun d'' hd'' => ?_⟩
      cases hd''
      refine Or.inr ⟨cmd, requestId, objects, ?_, count, hentered.2.2, _, rest, hlist⟩
      rw [← hsame]
      rfl
    · rcases objectsLoop_cases (u := u) (n := count.1.toNat) hin with
        ⟨hthrows, -, hiterations⟩ | ⟨-, hnot⟩
      · rw [hthrows]
        rw [hrest] at hiterations
        refine ⟨hiterations.trans hle, fun d'' hd'' => ?_⟩
        cases hd''
      · rw [hstorage, hrest] at hnot
        exact absurd hover hnot
  · rw [heq]
    refine ⟨Nat.zero_le _, fun d'' hd'' => ?_⟩
    cases hd''
    exact Or.inl hsame

/-- **The client.** -/
theorem referencesBounded_iff (hlen : payload.length < 2 ^ 63) :
    ReferencesBounded d payload ↔ ObjectsContained d payload :=
  ⟨objectsContained_of_referencesBounded hlen, referencesBounded_of_objectsContained hlen⟩

end Client

/-! ### The server -/

/-- The branch of `CMD_REFERENCES`: how often the loop is run, and the addresses `find_references`
is called with. -/
def receiveRequest (u : Uninit) (payload : List UInt8) : ℕ × List UInt64 :=
  let requestId := MemoryReader.readUint64 { storage := payload } u.uint64
  let count := requestId.reader.readUint64 u.uint64
  (count.value.toNat, (readAddresses u count.value.toNat count.reader).value)

/-- The loop of the server is run at most as often as a request has bytes, and the search is made
for addresses of the request. -/
def RequestBounded (payload : List UInt8) : Prop :=
  ∀ u, (receiveRequest u payload).1 ≤ payload.length ∧
    ∃ n rest, listField addressField n (payload.drop 16) = some ((receiveRequest u payload).2, rest)

/-- All of the declared addresses are there. -/
def AddressesContained (payload : List UInt8) : Prop :=
  ∃ count ∈ wordField 8 (payload.drop 8), 8 * count.1 ≤ count.2.length

section Server

open MemoryReader

variable {u : Uninit} {payload : List UInt8}

/-- The addresses are those of the command the message is read as. -/
theorem receiveRequest_eq (u : Uninit) (payload : List UInt8) :
    (readCommand u ⟨cmdReferences, payload⟩).map ReadResult.value =
      some (.references (MemoryReader.readUint64 { storage := payload } u.uint64).value
        (receiveRequest u payload).2) := rfl

theorem length_readAddresses (u : Uninit) (n : ℕ) (r : MemoryReader) :
    (readAddresses u n r).value.length = n := by
  induction n generalizing r with
  | zero => rfl
  | succ n ih => exact congrArg Nat.succ (ih _)

theorem addressField_isSome_iff {n : ℕ} {l : List UInt8} :
    (listField addressField n l).isSome ↔ 8 * n ≤ l.length := by
  induction n generalizing l with
  | zero => exact iff_of_true rfl (Nat.zero_le _)
  | succ n ih =>
    rw [listField, addressField, wordField]
    by_cases h8 : 8 ≤ l.length
    · have hbytes : bytesField 8 l = some (l.take 8, l.drop 8) := if_pos h8
      rw [hbytes, Option.map_some, Option.map_some, Option.bind_some, Option.isSome_map, ih,
        List.length_drop]
      omega
    · rw [bytesField_eq_none.2 (Nat.not_le.1 h8)]
      refine iff_of_false (fun h => by cases h) ?_
      omega

theorem length_of_addresses {n : ℕ} {l rest : List UInt8} {addresses : List UInt64}
    (h : listField addressField n l = some (addresses, rest)) : addresses.length = n := by
  refine (length_of_listField (fun _ => 0) (fun l addr rest haddr => ?_) h).2
  obtain ⟨p, hp, heq⟩ := Option.map_eq_some_iff.1 haddr
  obtain ⟨q, hq, rfl⟩ := Option.map_eq_some_iff.1 hp
  cases heq
  rw [(bytesField_eq_some.1 hq).2.2, List.length_drop]
  omega

/-- The loop of the server starts behind the number of addresses, or with what the variable held. -/
theorem receiveRequest_cases (u : Uninit) (hlen : payload.length < 2 ^ 63) :
    (∃ count r, wordField 8 (payload.drop 8) = some count ∧ r.Inside ∧ r.rest = count.2 ∧
        receiveRequest u payload = (count.1, (readAddresses u count.1 r).value)) ∨
      wordField 8 (payload.drop 8) = none ∧ (receiveRequest u payload).1 = u.uint64.toNat ∧
        (receiveRequest u payload).2.length = u.uint64.toNat := by
  have hid := ((inside_start hlen).finds_uint64 u.uint64).skips
  have hcount := hid.behind.inside.finds_uint64 u.uint64
  unfold receiveRequest
  generalize MemoryReader.readUint64 { storage := payload } u.uint64 = id at *
  have hrest : MemoryReader.rest { storage := payload } = payload := rfl
  cases hfield : wordField 8 (payload.drop 8) with
  | none =>
    have hshort : (payload.drop 8).length < 8 :=
      bytesField_eq_none.1 (Option.map_eq_none_iff.1 hfield)
    have hleft : id.reader.rest.length < 8 := by
      by_cases h8 : 8 ≤ payload.length
      · rw [(hid.skipped h8).2]
        exact hshort
      · exact lt_of_le_of_lt hid.behind.length_le (Nat.not_le.1 h8)
    have hvalue := value_readUint64 (hcount.skips.missing hleft)
    dsimp only
    rw [hvalue]
    exact Or.inr ⟨rfl, rfl, length_readAddresses _ _ _⟩
  | some count =>
    have hle : 8 ≤ (payload.drop 8).length := by
      obtain ⟨q, hq, -⟩ := Option.map_eq_some_iff.1 hfield
      exact (bytesField_eq_some.1 hq).1
    have h8 : 8 ≤ payload.length := by
      rw [List.length_drop] at hle
      omega
    rw [(hid.skipped h8).2, hrest, hfield] at hcount
    obtain ⟨-, hvalue, hrestCount⟩ := hcount.found _ rfl
    have hnat : (UInt64.ofNat count.1).toNat = count.1 :=
      UInt64.toNat_ofNat_of_lt' (lt_of_wordField hfield)
    simp only [hvalue, hnat]
    exact Or.inl ⟨count, _, rfl, hcount.behind.inside, hrestCount, rfl⟩

/-- **The server.** -/
theorem requestBounded_iff (hlen : payload.length < 2 ^ 63) :
    RequestBounded payload ↔ AddressesContained payload := by
  constructor
  · intro hbounded
    -- one address too many when the variable holds a one
    obtain ⟨-, n, rest, hlist⟩ := hbounded ⟨0, 0, 1⟩
    have hn := length_of_addresses hlist
    have hsome : 8 * n ≤ (payload.drop 16).length := by
      rw [← addressField_isSome_iff, hlist]
      rfl
    rcases receiveRequest_cases ⟨0, 0, 1⟩ hlen with
      ⟨count, r, hfield, -, -, heq⟩ | ⟨hfield, -, hone⟩
    · rw [heq, length_readAddresses] at hn
      obtain ⟨q, hq, heqCount⟩ := Option.map_eq_some_iff.1 hfield
      refine ⟨count, hfield, ?_⟩
      rw [← heqCount] at hn ⊢
      rw [(bytesField_eq_some.1 hq).2.2, List.drop_drop]
      rwa [← hn] at hsome
    · have hshort := bytesField_eq_none.1 (Option.map_eq_none_iff.1 hfield)
      have hlast : (receiveRequest ⟨0, 0, 1⟩ payload).2.length = 1 := hone
      rw [hlast] at hn
      rw [List.length_drop] at hsome hshort
      omega
  · rintro ⟨count, hfield, hle⟩ u
    rcases receiveRequest_cases u hlen with ⟨count', r, hfield', hin, hrest, heq⟩ | ⟨hnone, -⟩
    · rw [hfield, Option.some.injEq] at hfield'
      subst hfield'
      obtain ⟨q, hq, heqCount⟩ := Option.map_eq_some_iff.1 hfield
      have hbehind : count.2 = payload.drop 16 := by
        rw [← heqCount, (bytesField_eq_some.1 hq).2.2, List.drop_drop]
      obtain ⟨p, hp⟩ := Option.isSome_iff_exists.1 (addressField_isSome_iff.2 hle)
      have hread := finds_readAddresses u hin count.1
      rw [hrest] at hread
      rw [heq]
      refine ⟨?_, count.1, p.2, ?_⟩
      · rw [hbehind, List.length_drop] at hle
        show count.1 ≤ payload.length
        omega
      · rw [← hbehind, hp, (hread.found p hp).2.1]
    · rw [hnone] at hfield
      cases hfield

end Server

/-- **List messages are bounded by their payload** exactly when the declared elements are there (or
the loop of the client is not entered, or throws). -/
theorem bounded_iff (d : Details) {payload : List UInt8} (hlen : payload.length < 2 ^ 63) :
    (ReferencesBounded d payload ↔ ObjectsContained d payload) ∧
      (RequestBounded payload ↔ AddressesContained payload) :=
  ⟨referencesBounded_iff hlen, requestBounded_iff hlen⟩

/-- The client waits for the response to its first request. -/
def waitingClient : Details := freshClient.findObjectsReferences []

/-- A response with one object that is there: address 7, an empty type, no parents. -/
theorem bounded_iff_oneObject :
    (ReferencesBounded waitingClient (List.replicate 8 0 ++ [1, 7, 0, 0]) ↔
        ObjectsContained waitingClient (List.replicate 8 0 ++ [1, 7, 0, 0])) ∧
      (RequestBounded (List.replicate 8 0 ++ [1, 7, 0, 0]) ↔
        AddressesContained (List.replicate 8 0 ++ [1, 7, 0, 0])) :=
  bounded_iff waitingClient (by decide)

/-- A response that declares an object and ends, and a request that declares a hundred addresses and
ends: the loops go on with what the variables held. -/
theorem truncated_lists_not_bounded :
    ((waitingClient.receiveReferences ⟨0, 0, 20⟩ { storage := List.replicate 8 0 ++ [1] }).1 = 21 ∧
      ¬ReferencesBounded waitingClient (List.replicate 8 0 ++ [1])) ∧
    ((receiveRequest ⟨0, 0, 20⟩ (List.replicate 8 0 ++ 100 :: List.replicate 7 0)).1 = 100 ∧
      ¬RequestBounded (List.replicate 8 0 ++ 100 :: List.replicate 7 0)) := by
  have hclient : (waitingClient.receiveReferences ⟨0, 0, 20⟩
      { storage := List.replicate 8 0 ++ [1] }).1 = 21 := by decide
  have hserver : (receiveRequest ⟨0, 0, 20⟩
      (List.replicate 8 0 ++ 100 :: List.replicate 7 0)).1 = 100 := by decide
  refine ⟨⟨hclient, fun hbounded => ?_⟩, hserver, fun hbounded => ?_⟩
  · have hle := (hbounded ⟨0, 0, 20⟩).1
    rw [hclient] at hle
    exact absurd hle (by decide)
  · have hle := (hbounded ⟨0, 0, 20⟩).1
    rw [hserver] at hle
    exact absurd hle (by decide)

end Owlcat
