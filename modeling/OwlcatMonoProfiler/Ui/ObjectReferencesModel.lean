import OwlcatMonoProfiler.Library.Forest
import OwlcatMonoProfiler.Library.Grouping
import OwlcatMonoProfiler.Library.Run
import OwlcatMonoProfiler.Network.Protocol

/-!
# The tree of references

`object_references_tree_model` of `object_references_model.cpp`: the objects that were searched for,
and below each object those that refer to it, grouped by their types.  The tree may be infinite, so
`update` makes the first two levels, and `expand` fills the children of a node when the user opens
it.

* `TreeNode`, `References`, `ObjectReferencesTreeModel`: the data of the class;
* `addNode`, `update`, `expand`: its functions;
* `typeGroups`, `entries`: the children a list of objects should have;
* `NodeInv`: a node is filled when it is a root or the node above was expanded, and only then;
* `IsExpanded`, `isExpanded_expandNode`: an expansion marks the node it is for and no other;
* `ShowsReferences`, `showsReferences_of_run`: the tree after any sequence of expansions.
-/

namespace Owlcat

namespace ObjectReferencesModel

/-- `tree_node_t`, less the children and the pointer to the parent. -/
structure TreeNode where
  wasExpanded : Bool := false
  addresses : List UInt64
  type : List UInt8
  deriving DecidableEq

/-- `m_references`: an object is stored under its address. -/
structure References where
  entries : Dict UInt64 ReceivedReferences
  keyed : ∀ address ref, entries.lookup address = some ref → ref.address = address

namespace References

def empty : References := ⟨∅, fun _ _ h => by cases h⟩

/-- `find`; `none` is the end of the map. -/
def find (references : References) (address : UInt64) : Option ReceivedReferences :=
  references.entries.lookup address

/-- Do something with the entry of an address, if there is one. -/
def whenFound {α : Type} (references : References) (address : UInt64)
    (f : ReceivedReferences → α → α) (a : α) : α :=
  match references.find address with
  | none => a
  | some ref => f ref a

/-- `insert` leaves an entry that is there alone. -/
def insert (references : References) (ref : ReceivedReferences) : References :=
  ⟨Dict.emplace ref.address ref references.entries, fun address ref' h => by
    rw [Dict.lookup_emplace] at h
    split_ifs at h with haddress
    · subst haddress
      cases hold : references.entries.lookup ref.address with
      | none =>
        rw [hold] at h
        cases h
        rfl
      | some old =>
        rw [hold] at h
        cases h
        exact references.keyed _ _ hold
    · exact references.keyed address ref' h⟩

theorem foldl_whenFound {α : Type} (references : References) (f : ReceivedReferences → α → α)
    (addresses : List UInt64) (a : α) :
    addresses.foldl (fun a address => references.whenFound address f a) a =
      (addresses.filterMap references.find).foldl (fun a ref => f ref a) a := by
  rw [List.foldl_filterMap]
  congr 1
  funext a address
  rw [whenFound]
  cases references.find address <;> rfl

end References

/-- The first half of `add_node`: an object goes into the node of its type, which is made when it is
new.  `further` is what becomes of the children of this node. -/
def addToType (ref : ReceivedReferences) (further : Forest TreeNode → Forest TreeNode)
    (children : Forest TreeNode) : Forest TreeNode :=
  match children.findIdx? fun node => node.label.type = ref.type with
  | none => children ++ [⟨{ addresses := [ref.address], type := ref.type }, further []⟩]
  | some i => children.modify i fun node =>
    ⟨{ node.label with addresses := node.label.addresses ++ [ref.address] }, further node.children⟩

/-- The loop over the parents of an object in `add_node` and in `expand`.  Both call `add_node` for
those that are found, at depth 1, where it goes no further. -/
def addParents (references : References) (parents : List UInt64) (children : Forest TreeNode) :
    Forest TreeNode :=
  parents.foldl (fun children parent =>
    references.whenFound parent (fun ref => addToType ref id) children) children

def addNode (references : References) (ref : ReceivedReferences) (depth : ℕ)
    (children : Forest TreeNode) : Forest TreeNode :=
  addToType ref (if depth = 0 then addParents references ref.parents else id) children

/-- What `expand` does with a child of the node that is expanded. -/
def fillChild (references : References) (child : RoseTree TreeNode) : RoseTree TreeNode :=
  if child.label.wasExpanded then child
  else
    { child with
      children := child.label.addresses.foldl (fun children address =>
        references.whenFound address (fun ref => addParents references ref.parents) children)
        child.children }

def expandNode (references : References) (node : RoseTree TreeNode) : RoseTree TreeNode :=
  if node.label.wasExpanded then node
  else ⟨{ node.label with wasExpanded := true }, node.children.map (fillChild references)⟩

end ObjectReferencesModel

open ObjectReferencesModel

/-- `object_references_tree_model` -/
structure ObjectReferencesModel where
  references : References := .empty
  roots : Forest TreeNode := []

namespace ObjectReferencesModel

/-- `update`, which does not look at its argument `error`. -/
def update (m : ObjectReferencesModel) (addresses : List UInt64)
    (references : List ReceivedReferences) : ObjectReferencesModel :=
  let stored := references.foldl References.insert m.references
  { references := stored
    roots := addresses.foldl (fun roots root =>
      stored.whenFound root (fun ref => addNode stored ref 0) roots) [] }

/-- `expand`; the index of a node is the path to it. -/
def expand (m : ObjectReferencesModel) (index : List ℕ) : ObjectReferencesModel :=
  { m with roots := Forest.modifyAt (expandNode m.references) index m.roots }

/-- A call of `expand` for a node with children, which a view can open. -/
def openNode (m : ObjectReferencesModel) (index : List ℕ) : Option ObjectReferencesModel :=
  (Forest.get m.roots index).bind fun node =>
    if node.children.isEmpty then none else some (m.expand index)

/-! ### The nodes of a sequence of objects -/

/-- What a node shows. -/
def TreeNode.shown (node : TreeNode) : List UInt8 × List UInt64 := (node.type, node.addresses)

/-- Objects grouped by type: the types in the order in which they first occur, each with the
addresses of its objects in order. -/
def typeGroups (refs : List ReceivedReferences) : List (List UInt8 × List UInt64) :=
  Grouping.groups ReceivedReferences.type ReceivedReferences.address refs

/-- The objects that refer to those in a list of addresses: the entries met by going through the
addresses in order, and through the parents of each in order. -/
def entries (references : References) (addresses : List UInt64) : List ReceivedReferences :=
  addresses.flatMap fun address =>
    ((references.find address).elim [] ReceivedReferences.parents).filterMap references.find

/-- Nodes without children. -/
def leaves (refs : List ReceivedReferences) : Forest TreeNode :=
  (typeGroups refs).map fun g => ⟨{ addresses := g.2, type := g.1 }, []⟩

/-- What becomes of the node of the type of an object. -/
def put (further : ReceivedReferences → Forest TreeNode → Forest TreeNode)
    (ref : ReceivedReferences) : Option (RoseTree TreeNode) → RoseTree TreeNode
  | none => ⟨{ addresses := [ref.address], type := ref.type }, further ref []⟩
  | some node =>
    ⟨{ node.label with addresses := node.label.addresses ++ [ref.address] },
      further ref node.children⟩

theorem addToType_eq_upsert (further : ReceivedReferences → Forest TreeNode → Forest TreeNode)
    (ref : ReceivedReferences) (children : Forest TreeNode) :
    addToType ref (further ref) children =
      Grouping.upsert (fun node : RoseTree TreeNode => node.label.type) ref.type (put further ref)
        children := by
  rw [Grouping.upsert_eq_findIdx?]
  rfl

/-- Objects that are added one after the other, when `below` is what is done to the children of a
node for all of its objects. -/
theorem foldl_addToType {further : ReceivedReferences → Forest TreeNode → Forest TreeNode}
    {below : List ReceivedReferences → Forest TreeNode} (hnil : below [] = [])
    (hbelow : ∀ refs ref, below (refs ++ [ref]) = further ref (below refs))
    (refs : List ReceivedReferences) :
    refs.foldl (fun children ref => addToType ref (further ref) children) [] =
      (refs.map ReceivedReferences.type).eraseDups.map fun type =>
        ⟨{ addresses := (Grouping.withKey ReceivedReferences.type type refs).map
              ReceivedReferences.address
           type := type },
          below (Grouping.withKey ReceivedReferences.type type refs)⟩ := by
  have hfold : (fun children ref => addToType ref (further ref) children) = fun children ref =>
      Grouping.upsert (fun node : RoseTree TreeNode => node.label.type)
        (ReceivedReferences.type ref) (put further ref) children := by
    funext children ref
    exact addToType_eq_upsert further ref children
  rw [hfold]
  let make : List UInt8 → List ReceivedReferences → RoseTree TreeNode := fun type l =>
    ⟨{ addresses := l.map ReceivedReferences.address, type := type }, below l⟩
  have hnew : ∀ ref, put further ref none = make ref.type [ref] := by
    intro ref
    show _ = (⟨{ addresses := [ref.address], type := ref.type }, below ([] ++ [ref])⟩ :
      RoseTree TreeNode)
    rw [hbelow, hnil]
    rfl
  have hput : ∀ ref l, l ≠ [] →
      put further ref (some (make ref.type l)) = make ref.type (l ++ [ref]) := by
    intro ref l _
    show (⟨{ addresses := l.map ReceivedReferences.address ++ [ref.address], type := ref.type },
      further ref (below l)⟩ : RoseTree TreeNode) = ⟨{ addresses := _, type := _ }, _⟩
    rw [← hbelow, List.map_append]
    rfl
  have hkey : ∀ type l, (fun node : RoseTree TreeNode => node.label.type) (make type l) = type :=
    fun _ _ => rfl
  exact @Grouping.groupBy_eq _ _ _ _ ReceivedReferences.type
    (fun node : RoseTree TreeNode => node.label.type) (put further) _ _ make hkey hnew hput refs

theorem foldl_addToType_id (refs : List ReceivedReferences) :
    refs.foldl (fun children ref => addToType ref id children) [] = leaves refs := by
  rw [leaves, typeGroups, Grouping.groups, List.map_map]
  exact @foldl_addToType (fun _ => id) (fun _ => []) rfl (fun _ _ => rfl) refs

@[simp] theorem shown_leaves (refs : List ReceivedReferences) :
    ((leaves refs).map fun node => node.label.shown) = typeGroups refs := by
  rw [leaves, List.map_map]
  exact List.map_id _

theorem addParents_eq (references : References) (parents : List UInt64)
    (children : Forest TreeNode) :
    addParents references parents children =
      (parents.filterMap references.find).foldl (fun children ref => addToType ref id children)
        children :=
  references.foldl_whenFound (fun ref => addToType ref id) parents children

/-- At depth 1, `add_node` looks no further. -/
theorem addParents_eq_addNode (references : References) (parents : List UInt64)
    (children : Forest TreeNode) :
    addParents references parents children =
      parents.foldl (fun children parent =>
        references.whenFound parent (fun ref => addNode references ref 1) children) children :=
  rfl

/-- The children `expand` makes for a node without any. -/
theorem fillChild_eq (references : References) {child : RoseTree TreeNode}
    (hexp : child.label.wasExpanded = false) (hnil : child.children = []) :
    fillChild references child =
      ⟨child.label, leaves (entries references child.label.addresses)⟩ := by
  have hfold : (fun children address =>
      references.whenFound address (fun ref => addParents references ref.parents) children) =
      fun children address =>
        (((references.find address).elim [] ReceivedReferences.parents).filterMap
          references.find).foldl (fun children ref => addToType ref id children) children := by
    funext children address
    rw [References.whenFound]
    cases references.find address with
    | none => rfl
    | some ref => exact addParents_eq references ref.parents children
  rw [fillChild, hexp, if_neg Bool.false_ne_true, hnil, hfold, ← List.foldl_flatMap]
  exact congrArg (RoseTree.mk child.label) (foldl_addToType_id _)

/-! ### The first two levels -/

theorem find_address {references : References} {address : UInt64} {ref : ReceivedReferences}
    (h : references.find address = some ref) : references.find ref.address = some ref := by
  rw [references.keyed address ref h, h]

/-- The entries below the objects of a list are those below the list of their addresses. -/
theorem entries_map_address {references : References} {refs : List ReceivedReferences}
    (h : ∀ ref ∈ refs, references.find ref.address = some ref) :
    entries references (refs.map ReceivedReferences.address) =
      refs.flatMap fun ref => ref.parents.filterMap references.find := by
  rw [entries, List.flatMap_map]
  exact List.flatMap_congr fun ref href => by rw [h ref href]; rfl

/-- The roots `update` makes for the entries it finds. -/
theorem foldl_addNode (references : References) (refs : List ReceivedReferences) :
    refs.foldl (fun roots ref => addNode references ref 0 roots) [] =
      (refs.map ReceivedReferences.type).eraseDups.map fun type =>
        ⟨{ addresses := (Grouping.withKey ReceivedReferences.type type refs).map
              ReceivedReferences.address
           type := type },
          leaves ((Grouping.withKey ReceivedReferences.type type refs).flatMap fun ref =>
            ref.parents.filterMap references.find)⟩ := by
  refine @foldl_addToType (fun ref => addParents references ref.parents)
    (fun refs => leaves (refs.flatMap fun ref => ref.parents.filterMap references.find)) rfl
    (fun refs ref => ?_) refs
  rw [addParents_eq, ← foldl_addToType_id, ← foldl_addToType_id, ← List.foldl_append,
    List.flatMap_append, List.flatMap_singleton]

/-! ### The invariant -/

/-- A filled node has the children it should have, any other node has none and was not expanded. -/
structure NodeInv (references : References) (filled : Bool) (node : RoseTree TreeNode) : Prop where
  children : filled = true → (node.children.map fun child => child.label.shown) =
    typeGroups (entries references node.label.addresses)
  nil : filled = false → node.children = [] ∧ node.label.wasExpanded = false

/-- The nodes below a node are filled when it was expanded. -/
abbrev Grown (references : References) : Bool → RoseTree TreeNode → Prop :=
  RoseTree.All TreeNode.wasExpanded (NodeInv references)

theorem grown_leaf (references : References) {label : TreeNode} (h : label.wasExpanded = false) :
    Grown references false ⟨label, []⟩ := by
  refine RoseTree.All.intro ⟨fun h => Bool.noConfusion h, fun _ => ⟨rfl, h⟩⟩ fun c hc => ?_
  cases hc

/-- A node that is made, or filled, with the children it should have. -/
theorem grown_filled {references : References} {label : TreeNode}
    (h : label.wasExpanded = false) :
    Grown references true ⟨label, leaves (entries references label.addresses)⟩ := by
  refine RoseTree.All.intro ⟨fun _ => shown_leaves _, fun h => Bool.noConfusion h⟩ fun c hc => ?_
  obtain ⟨g, -, rfl⟩ := List.mem_map.1 (show c ∈ leaves _ from hc)
  show Grown references label.wasExpanded _
  rw [h]
  exact grown_leaf references rfl

theorem grown_roots {references : References} {refs : List ReceivedReferences}
    (h : ∀ ref ∈ refs, references.find ref.address = some ref) :
    ∀ root ∈ refs.foldl (fun roots ref => addNode references ref 0 roots) [],
      Grown references true root := by
  intro root hroot
  rw [foldl_addNode] at hroot
  obtain ⟨type, -, rfl⟩ := List.mem_map.1 hroot
  rw [← entries_map_address fun ref href => h ref (Grouping.mem_withKey.1 href).1]
  exact grown_filled rfl

theorem label_fillChild (references : References) (child : RoseTree TreeNode) :
    (fillChild references child).label = child.label := by
  rw [fillChild]
  split_ifs <;> rfl

theorem shown_expandNode (references : References) (node : RoseTree TreeNode) :
    (expandNode references node).label.shown = node.label.shown := by
  rw [expandNode]
  split_ifs <;> rfl

/-- The expansion of a node with children. -/
theorem grown_expandNode {references : References} {b : Bool} {node : RoseTree TreeNode}
    (h : Grown references b node) (hchildren : node.children ≠ []) :
    Grown references b (expandNode references node) := by
  rw [expandNode]
  split_ifs with hexp
  · exact h
  have hexp' : node.label.wasExpanded = false := by simpa using hexp
  have hb : b = true := by
    by_contra hb
    exact hchildren (h.here.nil (by simpa using hb)).1
  subst hb
  refine RoseTree.All.intro ⟨fun _ => ?_, fun h => Bool.noConfusion h⟩ fun c hc => ?_
  · rw [← h.here.children rfl, List.map_map]
    exact List.map_congr_left fun child _ => congrArg TreeNode.shown (label_fillChild _ child)
  · -- the children were empty, and are filled
    obtain ⟨child, hchild, rfl⟩ := List.mem_map.1 (show c ∈ node.children.map _ from hc)
    have hgrown := h.children child hchild
    rw [hexp'] at hgrown
    obtain ⟨hnil, hfalse⟩ := hgrown.here.nil rfl
    rw [fillChild_eq references hfalse hnil]
    exact grown_filled hfalse

/-- A node that was expanded stays so. -/
def StaysExpanded (node node' : TreeNode) : Prop :=
  node.wasExpanded = true → node'.wasExpanded = true

/-- An expansion leaves all nodes where they are; only their labels change. -/
theorem grows_expandNode_of {r : TreeNode → TreeNode → Prop} (hr : ∀ node, r node node)
    (hexpanded : ∀ node, r node { node with wasExpanded := true }) {references : References}
    {b : Bool} {node : RoseTree TreeNode} (h : Grown references b node) :
    RoseTree.Grows r node (expandNode references node) := by
  rw [expandNode]
  split_ifs with hexp
  · exact RoseTree.Grows.refl hr node
  have hlabel := hexpanded node.label
  refine RoseTree.Grows.of_children hlabel fun i c hc => ⟨fillChild references c, ?_, ?_⟩
  · rw [List.getElem?_map, hc]
    rfl
  · -- the child has no children that could move
    have hgrown := h.children c (List.mem_of_getElem? hc)
    rw [show node.label.wasExpanded = false by simpa using hexp] at hgrown
    refine RoseTree.Grows.of_children ?_ fun j d hd => ?_
    · rw [label_fillChild]
      exact hr c.label
    · rw [(hgrown.here.nil rfl).1] at hd
      cases hd

theorem grows_expandNode {references : References} {b : Bool} {node : RoseTree TreeNode}
    (h : Grown references b node) :
    RoseTree.Grows StaysExpanded node (expandNode references node) :=
  grows_expandNode_of (fun _ => id) (fun _ _ => rfl) h

/-- The invariant of a tree: the roots are those of the addresses that were searched for. -/
structure TreeInv (references : References) (addresses : List UInt64) (roots : Forest TreeNode) :
    Prop where
  shown : (roots.map fun root => root.label.shown) =
    typeGroups (addresses.filterMap references.find)
  grown : ∀ root ∈ roots, Grown references true root

/-- The node at the end of a path was expanded. -/
def IsExpanded (roots : Forest TreeNode) (index : List ℕ) : Prop :=
  ∃ node, Forest.get roots index = some node ∧ node.label.wasExpanded = true

/-- No node of a tree was expanded. -/
def Unexpanded (tree : RoseTree TreeNode) : Prop :=
  ∀ path node, tree.get path = some node → node.label.wasExpanded = false

theorem unexpanded_intro {label : TreeNode} {children : Forest TreeNode}
    (hlabel : label.wasExpanded = false) (hchildren : ∀ child ∈ children, Unexpanded child) :
    Unexpanded ⟨label, children⟩ := by
  intro path node hnode
  cases path with
  | nil =>
    cases hnode
    exact hlabel
  | cons i path =>
    obtain ⟨child, hchild, hnode⟩ := Option.bind_eq_some_iff.1 hnode
    exact hchildren child (List.mem_of_getElem? hchild) path node hnode

/-- A node that was just made, or filled. -/
theorem unexpanded_leaves {label : TreeNode} (h : label.wasExpanded = false)
    (refs : List ReceivedReferences) : Unexpanded ⟨label, leaves refs⟩ := by
  refine unexpanded_intro h fun child hchild => ?_
  obtain ⟨g, -, rfl⟩ := List.mem_map.1 (show child ∈ leaves refs from hchild)
  exact unexpanded_intro rfl fun c hc => by cases hc

/-- Inside a node that is expanded, this node alone is marked. -/
theorem isExpanded_expandNode {references : References} {b : Bool} {node s : RoseTree TreeNode}
    (h : Grown references b node) {path : List ℕ}
    (hs : (expandNode references node).get path = some s) (hexp : s.label.wasExpanded = true) :
    path = [] ∨ ∃ s', node.get path = some s' ∧ s'.label.wasExpanded = true := by
  rw [expandNode] at hs
  split_ifs at hs with hexpanded
  · exact Or.inr ⟨s, hs, hexp⟩
  cases path with
  | nil => exact Or.inl rfl
  | cons i path =>
    -- the child this path goes through was empty, and was only filled
    obtain ⟨c, hc, hs⟩ := Option.bind_eq_some_iff.1 hs
    obtain ⟨child, hchild, rfl⟩ := List.mem_map.1
      (show c ∈ node.children.map _ from List.mem_of_getElem? hc)
    have hgrown := h.children child hchild
    rw [show node.label.wasExpanded = false by simpa using hexpanded] at hgrown
    obtain ⟨hnil, hfalse⟩ := hgrown.here.nil rfl
    rw [fillChild_eq references hfalse hnil] at hs
    rw [unexpanded_leaves hfalse _ path s hs] at hexp
    cases hexp

theorem update_roots (m : ObjectReferencesModel) (addresses : List UInt64)
    (references : List ReceivedReferences) :
    (m.update addresses references).roots =
      (addresses.filterMap (m.update addresses references).references.find).foldl
        (fun roots ref => addNode (m.update addresses references).references ref 0 roots) [] :=
  References.foldl_whenFound _ _ addresses []

/-- After `update` no node was expanded yet. -/
theorem not_isExpanded_update (m : ObjectReferencesModel) (addresses : List UInt64)
    (references : List ReceivedReferences) (index : List ℕ) :
    ¬IsExpanded (m.update addresses references).roots index := by
  rintro ⟨node, hnode, hexp⟩
  rw [update_roots, foldl_addNode] at hnode
  cases index with
  | nil => cases hnode
  | cons i path =>
    obtain ⟨root, hroot, hnode⟩ := Option.bind_eq_some_iff.1 hnode
    obtain ⟨type, -, rfl⟩ := List.mem_map.1 (List.mem_of_getElem? hroot)
    rw [unexpanded_leaves rfl _ path node hnode] at hexp
    cases hexp

theorem treeInv_update (m : ObjectReferencesModel) (addresses : List UInt64)
    (references : List ReceivedReferences) :
    TreeInv (m.update addresses references).references addresses
      (m.update addresses references).roots := by
  rw [update_roots]
  refine ⟨?_, grown_roots fun ref href => ?_⟩
  · rw [foldl_addNode, List.map_map]
    rfl
  · obtain ⟨address, -, haddress⟩ := List.mem_filterMap.1 href
    exact find_address haddress

/-- The step of the invariant. -/
theorem treeInv_openNode {m m' : ObjectReferencesModel} {addresses : List UInt64} {index : List ℕ}
    (h : TreeInv m.references addresses m.roots) (hstep : m.openNode index = some m') :
    m' = m.expand index ∧ TreeInv m.references addresses m'.roots ∧
      ∀ path, IsExpanded m'.roots path ↔ IsExpanded m.roots path ∨ path = index := by
  obtain ⟨node, hnode, hopen⟩ := Option.bind_eq_some_iff.1 hstep
  split_ifs at hopen with hempty
  cases hopen
  have hat : ∀ s, Forest.get m.roots index = some s → s = node := by
    intro s hs
    rw [hnode] at hs
    exact (Option.some.inj hs).symm
  refine ⟨rfl, ⟨?_, ?_⟩, fun path => ⟨?_, ?_⟩⟩
  · rw [← h.shown]
    exact Forest.map_modifyAt (shown_expandNode m.references) index m.roots
  · refine Forest.All.modifyAt (fun b t cs hcs ht => ⟨fun hb => ?_, fun hb => ?_⟩)
      (shown_expandNode m.references) (fun b s hs hgrown => ?_) h.grown
    · exact hcs.trans (ht.children hb)
    · obtain ⟨hnil, hexp⟩ := ht.nil hb
      rw [hnil, List.map_nil, List.map_eq_nil_iff] at hcs
      exact ⟨hcs, hexp⟩
    · rw [hat s hs] at hgrown ⊢
      exact grown_expandNode hgrown (by simpa using hempty)
  · rintro ⟨s, hs, hexp⟩
    by_cases hprefix : index <+: path
    · obtain ⟨rest, rfl⟩ := hprefix
      rw [expand, Forest.get_modifyAt_append hnode] at hs
      rcases isExpanded_expandNode (Forest.All.get h.grown hnode) hs hexp with
        rfl | ⟨s', hs', hexp'⟩
      · exact Or.inr (List.append_nil index)
      · refine Or.inl ⟨s', ?_, hexp'⟩
        rw [Forest.get_append (Forest.ne_nil_of_get hnode), hnode, Option.bind_some, hs']
    · -- elsewhere the labels are those of before
      have hlabel := Forest.label_get_modifyAt (g := expandNode m.references) hprefix m.roots
      rw [show Forest.get (Forest.modifyAt (expandNode m.references) index m.roots) path = some s
        from hs, Option.map_some, eq_comm] at hlabel
      obtain ⟨s', hs', heq⟩ := Option.map_eq_some_iff.1 hlabel
      exact Or.inl ⟨s', hs', heq ▸ hexp⟩
  · rintro (⟨s, hs, hexp⟩ | rfl)
    · have hgrows : Forest.Grows StaysExpanded m.roots (m.expand index).roots :=
        Forest.Grows.modifyAt (fun _ => id) fun s hs =>
          grows_expandNode (Forest.All.get h.grown hs)
      obtain ⟨s', hs', hstays⟩ := hgrows.get hs
      exact ⟨s', hs', hstays hexp⟩
    · refine ⟨expandNode m.references node, ?_, ?_⟩
      · rw [expand, Forest.get_modifyAt, hnode]
        rfl
      · rw [expandNode]
        split_ifs with hexp
        · exact hexp
        · rfl

/-! ### The tree the user sees -/

/-- The node is a root, or the node above it was expanded. -/
def Filled (roots : Forest TreeNode) (index : List ℕ) : Prop :=
  ∀ parent, Forest.get roots index.dropLast = some parent → parent.label.wasExpanded = true

/-- **What the tree shows.**  The roots are the addresses that were searched for and found, by type;
a filled node has below it the objects that refer to its own, by type; any other node has nothing
below it. -/
structure ShowsReferences (references : References) (addresses : List UInt64)
    (roots : Forest TreeNode) : Prop where
  roots_nodup : (roots.map fun root => root.label.type).Nodup
  exists_root : ∀ address ∈ addresses, ∀ ref, references.find address = some ref →
    ∃ root ∈ roots, root.label.type = ref.type
  root_addresses : ∀ root ∈ roots, root.label.addresses ≠ [] ∧
    root.label.addresses = addresses.filter fun address =>
      (references.find address).map ReceivedReferences.type = some root.label.type
  siblings : ∀ index node, Forest.get roots index = some node →
    (node.children.map fun child => child.label.type).Nodup
  children : ∀ index node, Forest.get roots index = some node → Filled roots index →
    (node.children.map fun child => child.label.shown) =
      typeGroups (entries references node.label.addresses)
  nil : ∀ index node, Forest.get roots index = some node → ¬ Filled roots index →
    node.children = []

/-- The types of the groups are different. -/
theorem nodup_of_shown {nodes : Forest TreeNode} {refs : List ReceivedReferences}
    (h : (nodes.map fun node => node.label.shown) = typeGroups refs) :
    (nodes.map fun node => node.label.type) = (refs.map ReceivedReferences.type).eraseDups ∧
      (nodes.map fun node => node.label.type).Nodup := by
  have htypes : (nodes.map fun node => node.label.type) =
      (refs.map ReceivedReferences.type).eraseDups := by
    have hfst := congrArg (fun groups => groups.map Prod.fst) h
    rw [typeGroups, Grouping.map_fst_groups, List.map_map] at hfst
    exact hfst
  refine ⟨htypes, ?_⟩
  rw [htypes]
  exact Grouping.nodup_eraseDups _

/-- The addresses with a type are those whose entries have it. -/
theorem withKey_filterMap (references : References) (type : List UInt8)
    (addresses : List UInt64) :
    (Grouping.withKey ReceivedReferences.type type
        (addresses.filterMap references.find)).map ReceivedReferences.address =
      addresses.filter fun address =>
        (references.find address).map ReceivedReferences.type = some type := by
  induction addresses with
  | nil => rfl
  | cons address addresses ih =>
    rw [Grouping.withKey] at ih ⊢
    cases hfind : references.find address with
    | none =>
      rw [List.filterMap_cons_none hfind, ih, List.filter_cons_of_neg (by simp [hfind])]
    | some ref =>
      rw [List.filterMap_cons_some hfind]
      by_cases htype : ref.type = type
      · rw [List.filter_cons_of_pos (by simpa using htype), List.map_cons, ih,
          List.filter_cons_of_pos (by simp [hfind, htype]), references.keyed address ref hfind]
      · rw [List.filter_cons_of_neg (by simpa using htype), ih,
          List.filter_cons_of_neg (by simp [hfind, htype])]

theorem TreeInv.showsReferences {references : References} {addresses : List UInt64}
    {roots : Forest TreeNode} (h : TreeInv references addresses roots) :
    ShowsReferences references addresses roots := by
  have hinv : ∀ index node, Forest.get roots index = some node →
      NodeInv references (Forest.context TreeNode.wasExpanded true roots index) node :=
    fun index node hnode => (Forest.All.get h.grown hnode).here
  have hfilled : ∀ index, Filled roots index ↔
      Forest.context TreeNode.wasExpanded true roots index = true := by
    intro index
    rw [Filled, Forest.context]
    cases Forest.get roots index.dropLast <;> simp
  obtain ⟨htypes, hnodup⟩ := nodup_of_shown h.shown
  refine ⟨hnodup, ?_, ?_, ?_, ?_, ?_⟩
  · intro address haddress ref hfind
    have hmem : ref.type ∈ roots.map fun root => root.label.type := by
      rw [htypes, List.mem_eraseDups]
      exact List.mem_map_of_mem (List.mem_filterMap.2 ⟨address, haddress, hfind⟩)
    exact List.mem_map.1 hmem
  · intro root hroot
    have hshown := List.mem_map_of_mem (f := fun node => node.label.shown) hroot
    rw [h.shown] at hshown
    obtain ⟨type, htype, heq⟩ := List.mem_map.1 hshown
    obtain ⟨htype', haddresses⟩ := Prod.mk.inj heq
    refine ⟨?_, ?_⟩
    · rw [← haddresses, ne_eq, List.map_eq_nil_iff, Grouping.withKey_eq_nil, not_not]
      exact List.mem_eraseDups.1 htype
    · rw [← haddresses, ← htype']
      exact withKey_filterMap references type addresses
  · intro index node hnode
    have hnode := hinv index node hnode
    cases hb : Forest.context TreeNode.wasExpanded true roots index with
    | true => exact (nodup_of_shown (hnode.children hb)).2
    | false =>
      rw [(hnode.nil hb).1]
      exact List.nodup_nil
  · intro index node hnode hf
    exact (hinv index node hnode).children ((hfilled index).1 hf)
  · intro index node hnode hf
    refine ((hinv index node hnode).nil ?_).1
    rwa [hfilled, Bool.not_eq_true] at hf

/-! ### Runs -/

/-- The invariant holds at the end of a run, and the nodes that were expanded in it, or before, are
those marked as expanded. -/
theorem treeInv_run {m t : ObjectReferencesModel} {addresses : List UInt64} {l : List (List ℕ)}
    (h : TreeInv m.references addresses m.roots) (hrun : Run.run openNode m l = some t) :
    t.references = m.references ∧ TreeInv m.references addresses t.roots ∧
      ∀ path, IsExpanded t.roots path ↔ IsExpanded m.roots path ∨ path ∈ l := by
  induction l generalizing m with
  | nil =>
    cases hrun
    exact ⟨rfl, h, fun path => by simp⟩
  | cons index l ih =>
    obtain ⟨u, hu, hrun⟩ := Option.bind_eq_some_iff.1 hrun
    obtain ⟨rfl, hinv, hstep⟩ := treeInv_openNode h hu
    obtain ⟨href, hinv', hrest⟩ := ih hinv hrun
    refine ⟨href, hinv', fun path => ?_⟩
    rw [hrest, hstep, List.mem_cons, or_assoc]

/-- A second expansion of a node changes nothing. -/
theorem expand_eq_self {m : ObjectReferencesModel} {index : List ℕ}
    (h : ∀ node, Forest.get m.roots index = some node → node.label.wasExpanded = true) :
    m.expand index = m := by
  rw [expand, Forest.modifyAt_eq_self fun node hnode => ?_]
  rw [expandNode, if_pos (h node hnode)]

/-- **The tree of references**, for any entries the model has stored so far: after `update` and any
sequence of expansions of nodes with children it shows what it should, the nodes that were opened
and no others are marked as expanded, and expanding one of them again changes nothing. -/
theorem showsReferences_of_run {m t : ObjectReferencesModel} {addresses : List UInt64}
    {references : List ReceivedReferences} {l : List (List ℕ)}
    (hrun : Run.run openNode (m.update addresses references) l = some t) :
    t.references = references.foldl References.insert m.references ∧
      ShowsReferences t.references addresses t.roots ∧
      (∀ index, IsExpanded t.roots index ↔ index ∈ l) ∧ ∀ index ∈ l, t.expand index = t := by
  obtain ⟨href, hinv, hexp⟩ :=
    treeInv_run (treeInv_update m addresses references) hrun
  have hopened : ∀ index, IsExpanded t.roots index ↔ index ∈ l := fun index => by
    rw [hexp, or_iff_right (not_isExpanded_update m addresses references index)]
  refine ⟨href, ?_, hopened, fun index hindex => expand_eq_self fun node hnode => ?_⟩
  · rw [href]
    exact hinv.showsReferences
  · obtain ⟨node', hnode', hexp'⟩ := (hopened index).2 hindex
    rw [hnode, Option.some.injEq] at hnode'
    rw [hnode', hexp']

/-- Three objects that refer to each other in a circle, one of them also to itself, and a parent the
answer does not contain. -/
def cyclicAnswer : List ReceivedReferences :=
  [⟨1, [0x41], [2, 3, 9]⟩, ⟨2, [0x41], [1]⟩, ⟨3, [0x42], [1, 3]⟩]

/-- The tree is opened along the circle, and its first node twice. -/
theorem showsReferences_cyclicAnswer :
    ∃ t, Run.run openNode (update {} [1, 2, 7] cyclicAnswer) [[0], [0, 1], [0], [0, 1, 0]] =
        some t ∧ ShowsReferences t.references [1, 2, 7] t.roots :=
  ⟨_, rfl,
    (@showsReferences_of_run {} _ [1, 2, 7] cyclicAnswer [[0], [0, 1], [0], [0, 1, 0]] rfl).2.1⟩

end ObjectReferencesModel

end Owlcat
