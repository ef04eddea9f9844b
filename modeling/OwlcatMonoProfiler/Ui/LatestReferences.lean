import OwlcatMonoProfiler.Ui.ObjectReferencesModel

/-!
# The tree and the latest answer

The model keeps the entries of all answers, the first one for each address.  An address may belong
to another object by the time of a later answer.

* `given`, `stored`, `latest`: what the last answer says about an address, what the model keeps, and
  what is known when the last answer has the last word;
* `ShowsLatest`: every node with an address of the last answer is as this answer says;
* `Repeats`: earlier answers said the same about these addresses, as far as a tree shows it;
* `showsLatest_iff`: this is the exact condition;
* `not_showsLatest_reused`: an address that got another type.
-/

namespace Owlcat

namespace ObjectReferencesModel

/-- What an answer says about an address (the first entry, if there are several). -/
def given (answer : List ReceivedReferences) (address : UInt64) : Option ReceivedReferences :=
  answer.find? fun ref => ref.address = address

/-- What is stored about an address after an answer: an earlier entry is kept. -/
def stored (references : References) (answer : List ReceivedReferences) (address : UInt64) :
    Option ReceivedReferences :=
  (references.find address).or (given answer address)

/-- What is known about an address when an answer overrides the stored entries. -/
def latest (references : References) (answer : List ReceivedReferences) (address : UInt64) :
    Option ReceivedReferences :=
  (given answer address).or (references.find address)

/-- `entries`, with another way of looking an address up. -/
def entriesOf (find : UInt64 → Option ReceivedReferences) (addresses : List UInt64) :
    List ReceivedReferences :=
  addresses.flatMap fun address =>
    ((find address).elim [] ReceivedReferences.parents).filterMap find

/-- **The tree shows the latest answer**: a node with an address of the answer has the type given
there, and when it is filled, its children are formed from the parents given there. -/
def ShowsLatest (answer : List ReceivedReferences) (t : ObjectReferencesModel) : Prop :=
  ∀ index node, Forest.get t.roots index = some node →
    ∀ address ∈ node.label.addresses, ∀ ref, given answer address = some ref →
      node.label.type = ref.type ∧
        (Filled t.roots index → (node.children.map fun child => child.label.shown) =
          typeGroups (entriesOf (latest t.references answer) node.label.addresses))

/-- What was stored about an address of the answer has the type given there, and parents that make
the same children. -/
def Repeats (references : References) (answer : List ReceivedReferences) : Prop :=
  ∀ address ref old, given answer address = some ref → references.find address = some old →
    old.type = ref.type ∧ typeGroups (old.parents.filterMap (stored references answer)) =
      typeGroups (ref.parents.filterMap (stored references answer))

/-! ### What is stored -/

theorem find_insert (references : References) (ref : ReceivedReferences) (address : UInt64) :
    (references.insert ref).find address =
      (references.find address).or (if ref.address = address then some ref else none) := by
  show (Dict.emplace ref.address ref references.entries).lookup address = _
  rw [Dict.lookup_emplace]
  by_cases h : address = ref.address
  · subst h
    rw [if_pos rfl, if_pos rfl]
    show _ = (references.entries.lookup ref.address).or (some ref)
    cases references.entries.lookup ref.address <;> rfl
  · rw [if_neg h, if_neg (Ne.symm h), Option.or_none]
    rfl

/-- The first entry of an address is the one that is kept. -/
theorem find_foldl_insert (answer : List ReceivedReferences) (references : References) :
    (answer.foldl References.insert references).find = stored references answer := by
  funext address
  rw [stored]
  induction answer generalizing references with
  | nil => exact Option.or_none.symm
  | cons ref answer ih =>
    rw [List.foldl_cons, ih, find_insert, Option.or_assoc]
    congr 1
    show _ = (ref :: answer).find? _
    rw [List.find?_cons]
    by_cases h : ref.address = address
    · simp [h]
    · simp [h, given]

theorem address_of_given {answer : List ReceivedReferences} {address : UInt64}
    {ref : ReceivedReferences} (h : given answer address = some ref) : ref.address = address := by
  simpa using List.find?_some h

/-- The node of an address has the type of the stored entry. -/
theorem ShowsReferences.type_eq {references : References} {searched : List UInt64}
    {roots : Forest TreeNode} (h : ShowsReferences references searched roots) {index : List ℕ}
    {node : RoseTree TreeNode} (hnode : Forest.get roots index = some node) {address : UInt64}
    (haddress : address ∈ node.label.addresses) :
    ∃ ref, references.find address = some ref ∧ ref.type = node.label.type := by
  rcases List.eq_nil_or_concat index with rfl | ⟨above, i, rfl⟩
  · cases hnode
  rw [List.concat_eq_append] at hnode
  by_cases habove : above = []
  · -- a root
    subst habove
    obtain ⟨root, hroot, hget⟩ := Option.bind_eq_some_iff.1 hnode
    cases hget
    rw [(h.root_addresses node (List.mem_of_getElem? hroot)).2, List.mem_filter,
      decide_eq_true_iff] at haddress
    exact Option.map_eq_some_iff.1 haddress.2
  · rw [Forest.get_append_singleton habove] at hnode
    obtain ⟨parent, hparent, hchild⟩ := Option.bind_eq_some_iff.1 hnode
    have hmem := List.mem_of_getElem? hchild
    have hfilled : Filled roots above := by
      by_contra hf
      rw [h.nil above parent hparent hf] at hmem
      cases hmem
    have hshown := List.mem_map_of_mem (f := fun child => child.label.shown) hmem
    rw [h.children above parent hparent hfilled] at hshown
    obtain ⟨type, -, hgroup⟩ := List.mem_map.1 hshown
    obtain ⟨htype, haddresses⟩ := Prod.mk.inj hgroup
    rw [← haddresses] at haddress
    obtain ⟨ref, href, rfl⟩ := List.mem_map.1 haddress
    obtain ⟨hentry, hkey⟩ := Grouping.mem_withKey.1 href
    obtain ⟨below, -, hfind⟩ := List.mem_flatMap.1 hentry
    obtain ⟨found, -, hfound⟩ := List.mem_filterMap.1 hfind
    exact ⟨ref, find_address hfound, hkey.trans htype⟩

/-! ### Stored and latest entries -/

section Repeats

variable {references : References} {answer : List ReceivedReferences}

/-- Entries of the same types are grouped in the same way. -/
theorem typeGroups_filterMap_latest
    (h : ∀ address ref old, given answer address = some ref →
      references.find address = some old → old.type = ref.type) (parents : List UInt64) :
    typeGroups (parents.filterMap (answer.foldl References.insert references).find) =
      typeGroups
        (parents.filterMap (latest (answer.foldl References.insert references) answer)) := by
  have hsame : ∀ address,
      ((answer.foldl References.insert references).find address).map
          (fun ref => (ref.type, ref.address)) =
        (latest (answer.foldl References.insert references) answer address).map
          fun ref => (ref.type, ref.address) := by
    intro address
    rw [latest, find_foldl_insert, stored]
    cases hgiven : given answer address with
    | none => rw [Option.none_or]
    | some ref =>
      cases hold : references.find address with
      | none => rfl
      | some old =>
        show some (old.type, old.address) = some (ref.type, ref.address)
        rw [h address ref old hgiven hold, references.keyed address old hold,
          address_of_given hgiven]
  apply Grouping.groups_congr
  rw [List.map_filterMap, List.map_filterMap]
  congr 1
  funext address
  exact hsame address

/-- Nodes that show the stored entries show the latest ones. -/
theorem Repeats.typeGroups_entries (h : Repeats references answer) (addresses : List UInt64) :
    typeGroups (entries (answer.foldl References.insert references) addresses) =
      typeGroups
        (entriesOf (latest (answer.foldl References.insert references) answer) addresses) := by
  have htypes : ∀ address ref old, given answer address = some ref →
      references.find address = some old → old.type = ref.type :=
    fun address ref old hgiven hold => (h address ref old hgiven hold).1
  apply Grouping.groups_flatMap
  intro address _
  rw [← typeGroups, ← typeGroups, ← typeGroups_filterMap_latest htypes, latest]
  cases hgiven : given answer address with
  | none => rw [Option.none_or]
  | some ref =>
    rw [Option.some_or, find_foldl_insert, stored, hgiven]
    cases hold : references.find address with
    | none => rfl
    | some old => exact (h address ref old hgiven hold).2

end Repeats

/-- A search for an address makes a root for its stored entry. -/
theorem exists_root {m : ObjectReferencesModel} {answer : List ReceivedReferences}
    {address : UInt64} {old : ReceivedReferences}
    (h : (m.update [address] answer).references.find address = some old) :
    ∃ index root, Forest.get (m.update [address] answer).roots index = some root ∧
      Filled (m.update [address] answer).roots index ∧
      root.label.type = old.type ∧ root.label.addresses = [address] ∧
      (root.children.map fun child => child.label.shown) =
        typeGroups (old.parents.filterMap (m.update [address] answer).references.find) := by
  have hshows := (treeInv_update m [address] answer).showsReferences
  obtain ⟨root, hroot, htype⟩ := hshows.exists_root address List.mem_cons_self old h
  obtain ⟨i, hi⟩ := List.mem_iff_getElem?.1 hroot
  have hget : Forest.get (m.update [address] answer).roots [i] = some root := by
    simp [Forest.get, hi]
  have hfilled : Filled (m.update [address] answer).roots [i] := by
    intro parent hparent
    cases hparent
  have haddresses : root.label.addresses = [address] := by
    rw [(hshows.root_addresses root hroot).2, List.filter_cons_of_pos (by simp [h, htype]),
      List.filter_nil]
  refine ⟨[i], root, hget, hfilled, htype, haddresses, ?_⟩
  rw [hshows.children [i] root hget hfilled, haddresses, entries, List.flatMap_cons,
    List.flatMap_nil, List.append_nil, h]
  rfl

/-- **The tree shows the latest answer**, whatever was searched for and in whatever order nodes are
expanded, exactly when nothing else was stored about the addresses of this answer.  `m` is the model
after any earlier updates and expansions. -/
theorem showsLatest_iff (m : ObjectReferencesModel) (answer : List ReceivedReferences) :
    (∀ addresses l t, Run.run openNode (m.update addresses answer) l = some t →
      ShowsLatest answer t) ↔ Repeats m.references answer := by
  constructor
  · intro h
    have hfind : ∀ address old, m.references.find address = some old →
        (answer.foldl References.insert m.references).find address = some old := by
      intro address old hold
      rw [find_foldl_insert, stored, hold, Option.some_or]
    have hsearch : ∀ address ref old, given answer address = some ref →
        m.references.find address = some old → old.type = ref.type ∧
          typeGroups (old.parents.filterMap (answer.foldl References.insert m.references).find) =
            typeGroups (ref.parents.filterMap
              (latest (answer.foldl References.insert m.references) answer)) := by
      intro address ref old hgiven hold
      obtain ⟨index, root, hget, hfilled, htype, haddresses, hchildren⟩ :=
        exists_root (hfind address old hold)
      have hmem : address ∈ root.label.addresses := by
        rw [haddresses]
        exact List.mem_cons_self
      obtain ⟨htype', hlatest⟩ := h [address] [] _ rfl index root hget address hmem ref hgiven
      refine ⟨htype.symm.trans htype', hchildren.symm.trans ((hlatest hfilled).trans ?_)⟩
      rw [haddresses, entriesOf, List.flatMap_cons, List.flatMap_nil, List.append_nil, latest,
        hgiven]
      rfl
    intro address ref old hgiven hold
    obtain ⟨htype, hparents⟩ := hsearch address ref old hgiven hold
    refine ⟨htype, ?_⟩
    have htypes : ∀ address ref old, given answer address = some ref →
        m.references.find address = some old → old.type = ref.type :=
      fun address ref old hgiven hold => (hsearch address ref old hgiven hold).1
    rw [← find_foldl_insert, hparents, typeGroups_filterMap_latest htypes]
  · intro h addresses l t hrun index node hnode address haddress ref hgiven
    obtain ⟨href, hinv, -⟩ := treeInv_run (treeInv_update m addresses answer) hrun
    have hshows := hinv.showsReferences
    refine ⟨?_, fun hfilled => ?_⟩
    · obtain ⟨shown, hstored, htype⟩ := hshows.type_eq hnode haddress
      rw [← htype]
      rw [show (m.update addresses answer).references =
        answer.foldl References.insert m.references from rfl, find_foldl_insert, stored,
        hgiven] at hstored
      cases hold : m.references.find address with
      | none =>
        rw [hold] at hstored
        cases hstored
        rfl
      | some old =>
        rw [hold] at hstored
        cases hstored
        exact (h address ref _ hgiven hold).1
    · rw [hshows.children index node hnode hfilled, href]
      exact h.typeGroups_entries node.label.addresses

/-- An address that was an object of type `A` in the first answer and is one of type `B` in the
second. -/
theorem not_showsLatest_reused :
    ¬ ShowsLatest [⟨1, [0x42], []⟩]
      ((update {} [1] [⟨1, [0x41], []⟩]).update [1] [⟨1, [0x42], []⟩]) := by
  intro h
  have htype := (h [0] _ rfl 1 (by decide) ⟨1, [0x42], []⟩ rfl).1
  revert htype
  decide

end ObjectReferencesModel

end Owlcat
