import OwlcatMonoProfiler.Ui.ObjectReferencesModel

/-!
# Indices of the tree of references

A view walks through `object_references_tree_model` by `rowCount`, `index` and `parent`.  An index
points to a node, and `parent` looks for the node above among its siblings by its type.

* `Action`, `step`: answers arrive while nodes are opened;
* `QModelIndex`: the index that is not valid points to nothing and stands for the root;
* `index`, `parent`, `rowCount`, `data`, `getAddresses`: the functions of the model; `none` is an
  access through a null pointer or to a node that is gone;
* `Handed`: the indices a view can get by going down from the root;
* `handed_iff`: they are the nodes of the tree;
* `index_laws_of_run`: the laws of the interface, in every state of the tree.
-/

namespace Owlcat

namespace ObjectReferencesModel

/-- What happens to the tree: an answer arrives, or the user opens a node. -/
inductive Action
  | update (addresses : List UInt64) (references : List ReceivedReferences)
  | openNode (index : List ℕ)

def step (m : ObjectReferencesModel) : Action → Option ObjectReferencesModel
  | .update addresses references => some (m.update addresses references)
  | .openNode index => m.openNode index

/-- The answer that arrives. -/
def Action.answer : Action → Option (List ReceivedReferences)
  | .update _ references => some references
  | .openNode _ => none

/-- A tree before anything was searched for. -/
theorem treeInv_nil : TreeInv ({} : ObjectReferencesModel).references []
    ({} : ObjectReferencesModel).roots :=
  ⟨rfl, fun _ hroot => by cases hroot⟩

/-- The tree shows what is stored, and stored is what has arrived. -/
theorem stored_of_run {m t : ObjectReferencesModel} {addresses : List UInt64} {l : List Action}
    (h : TreeInv m.references addresses m.roots)
    (hrun : Run.run ObjectReferencesModel.step m l = some t) :
    t.references = (l.filterMap Action.answer).flatten.foldl References.insert m.references ∧
      ∃ addresses, TreeInv t.references addresses t.roots := by
  induction l generalizing m addresses with
  | nil =>
    cases hrun
    exact ⟨rfl, addresses, h⟩
  | cons a l ih =>
    obtain ⟨u, hu, hrun⟩ := Option.bind_eq_some_iff.1 hrun
    cases a with
    | update searched references =>
      cases hu
      obtain ⟨href, hinv⟩ := ih (treeInv_update m searched references) hrun
      refine ⟨?_, hinv⟩
      rw [href, List.filterMap_cons_some (f := Action.answer) rfl, List.flatten_cons,
        List.foldl_append]
      rfl
    | openNode index =>
      obtain ⟨rfl, hinv, -⟩ := treeInv_openNode h hu
      exact ih (m := m.expand index) hinv hrun

/-! ### The functions of the interface -/

/-- `QModelIndex`.  The pointer to a node is the path to it, the null pointer is `none`. -/
structure QModelIndex where
  row : ℤ := -1
  column : ℤ := -1
  internalPointer : Option (List ℕ) := none
  deriving DecidableEq

/-- The pointer to the node above. -/
def above (path : List ℕ) : Option (List ℕ) :=
  if path.dropLast = [] then none else some path.dropLast

/-- The children of a node, or the roots for the null pointer. -/
def childrenOf (m : ObjectReferencesModel) : Option (List ℕ) → Forest TreeNode
  | none => m.roots
  | some path => (Forest.get m.roots path).elim [] RoseTree.children

def rowCount (m : ObjectReferencesModel) (index : QModelIndex) : ℤ :=
  (m.childrenOf index.internalPointer).length

def index (m : ObjectReferencesModel) (row column : ℤ) (parent : QModelIndex) : QModelIndex :=
  if row < 0 ∨ row ≥ (m.childrenOf parent.internalPointer).length then {}
  else ⟨row, column, some (parent.internalPointer.getD [] ++ [row.toNat])⟩

/-- `parent`: the first of the nodes next to the parent that has its type. -/
def parent (m : ObjectReferencesModel) (index : QModelIndex) : Option QModelIndex := do
  let path ← index.internalPointer
  let _ ← Forest.get m.roots path
  match above path with
  | none => some {}
  | some path =>
    let parent ← Forest.get m.roots path
    match (m.childrenOf (above path)).findIdx? fun node => node.label.type = parent.label.type with
    | none => some {}
    | some i => some ⟨i, index.column, some ((above path).getD [] ++ [i])⟩

/-- The text of a node: its type and the number of its objects. -/
def data (m : ObjectReferencesModel) (index : QModelIndex) : Option (List UInt8) := do
  let path ← index.internalPointer
  let node ← Forest.get m.roots path
  some ((node.label.type ++ (CString.ofLit " (").bytes ++
    (CString.ofLit (toString node.label.addresses.length)).bytes ++
    (CString.ofLit ")").bytes).takeWhile (· ≠ 0))

def getAddresses (m : ObjectReferencesModel) (index : QModelIndex) : Option (List UInt64) := do
  let path ← index.internalPointer
  let node ← Forest.get m.roots path
  some node.label.addresses

/-- The indices a view gets when it goes down from the root, in the only column. -/
inductive Handed (m : ObjectReferencesModel) : QModelIndex → Prop
  | root : Handed m {}
  | child {parent : QModelIndex} {row : ℤ} (above : Handed m parent) (nonneg : 0 ≤ row)
      (lt : row < m.rowCount parent) : Handed m (m.index row 0 parent)

/-! ### Indices and nodes -/

/-- The index of the node at the end of a path. -/
def indexAt (path : List ℕ) : QModelIndex :=
  match path.getLast? with
  | none => {}
  | some row => ⟨row, 0, some path⟩

@[simp] theorem indexAt_nil : indexAt [] = {} := rfl

@[simp] theorem indexAt_append (path : List ℕ) (i : ℕ) :
    indexAt (path ++ [i]) = ⟨i, 0, some (path ++ [i])⟩ := by
  rw [indexAt, List.getLast?_concat]

/-- The nodes next to each other below a path. -/
def siblings (m : ObjectReferencesModel) (path : List ℕ) : Forest TreeNode :=
  if path = [] then m.roots else (Forest.get m.roots path).elim [] RoseTree.children

theorem childrenOf_indexAt (m : ObjectReferencesModel) (path : List ℕ) :
    m.childrenOf (indexAt path).internalPointer = m.siblings path := by
  rcases List.eq_nil_or_concat path with rfl | ⟨path, i, rfl⟩
  · rfl
  · rw [List.concat_eq_append, indexAt_append, siblings, if_neg (by simp)]
    rfl

theorem childrenOf_above (m : ObjectReferencesModel) (path : List ℕ) :
    m.childrenOf (above path) = m.siblings path.dropLast := by
  rw [above, siblings]
  split_ifs <;> rfl

theorem getD_internalPointer (path : List ℕ) :
    (indexAt path).internalPointer.getD [] = path := by
  rcases List.eq_nil_or_concat path with rfl | ⟨path, i, rfl⟩
  · rfl
  · rw [List.concat_eq_append, indexAt_append]
    rfl

/-- There is a node at the end of a path, or the path is empty. -/
def IsNode (m : ObjectReferencesModel) (path : List ℕ) : Prop :=
  path = [] ∨ (Forest.get m.roots path).isSome

theorem get_append (m : ObjectReferencesModel) (path : List ℕ) (i : ℕ) :
    Forest.get m.roots (path ++ [i]) = (m.siblings path)[i]? := by
  rw [siblings]
  split_ifs with h
  · subst h
    show (m.roots[i]?.bind fun t => some t) = m.roots[i]?
    cases m.roots[i]? <;> rfl
  · rw [Forest.get_append_singleton h]
    cases Forest.get m.roots path <;> rfl

theorem isSome_get_append {m : ObjectReferencesModel} {path : List ℕ} {i : ℕ} :
    (Forest.get m.roots (path ++ [i])).isSome ↔ i < (m.siblings path).length := by
  rw [get_append]
  simp

theorem index_indexAt (m : ObjectReferencesModel) (path : List ℕ) (row : ℤ) :
    m.index row 0 (indexAt path) =
      if 0 ≤ row ∧ row < (m.siblings path).length then indexAt (path ++ [row.toNat]) else {} := by
  rw [index, childrenOf_indexAt, getD_internalPointer]
  by_cases h : 0 ≤ row ∧ row < (m.siblings path).length
  · rw [if_pos h, if_neg (by omega), indexAt_append, Int.toNat_of_nonneg h.1]
  · rw [if_neg h, if_pos (by omega)]

/-- **The indices that are handed out are the nodes of the tree**, and the root. -/
theorem handed_iff {m : ObjectReferencesModel} {idx : QModelIndex} :
    Handed m idx ↔ ∃ path, m.IsNode path ∧ idx = indexAt path := by
  constructor
  · intro h
    induction h with
    | root => exact ⟨[], Or.inl rfl, rfl⟩
    | @child parent row _ hnonneg hlt ih =>
      obtain ⟨path, hpath, rfl⟩ := ih
      rw [rowCount, childrenOf_indexAt] at hlt
      refine ⟨path ++ [row.toNat], Or.inr ?_, ?_⟩
      · rw [isSome_get_append]
        omega
      · rw [index_indexAt, if_pos ⟨hnonneg, hlt⟩]
  · rintro ⟨path, hpath, rfl⟩
    induction path using List.reverseRecOn with
    | nil => exact Handed.root
    | append_singleton path i ih =>
      have hget := hpath.resolve_left (by simp)
      have hi := isSome_get_append.1 hget
      have habove : m.IsNode path := by
        by_cases hnil : path = []
        · exact Or.inl hnil
        · rw [Forest.get_append_singleton hnil] at hget
          refine Or.inr ?_
          cases hp : Forest.get m.roots path with
          | none => rw [hp] at hget; exact hget
          | some node => rfl
      have hindex := m.index_indexAt path i
      rw [if_pos ⟨by omega, by omega⟩, Int.toNat_natCast] at hindex
      rw [← hindex]
      refine Handed.child (ih habove) (by omega) ?_
      rw [rowCount, childrenOf_indexAt]
      omega

/-! ### The laws -/

/-- Nodes next to each other have different types. -/
def DistinctTypes (m : ObjectReferencesModel) : Prop :=
  ∀ path, ((m.siblings path).map fun node => node.label.type).Nodup

theorem TreeInv.distinctTypes {m : ObjectReferencesModel} {addresses : List UInt64}
    (h : TreeInv m.references addresses m.roots) : m.DistinctTypes := by
  intro path
  rw [siblings]
  split_ifs with hnil
  · exact h.showsReferences.roots_nodup
  · cases hget : Forest.get m.roots path with
    | none => exact List.nodup_nil
    | some node => exact h.showsReferences.siblings path node hget

/-- A search by type finds the node it is the type of. -/
theorem findIdx?_type {nodes : Forest TreeNode} (h : (nodes.map fun node => node.label.type).Nodup)
    {i : ℕ} {node : RoseTree TreeNode} (hi : nodes[i]? = some node) :
    (nodes.findIdx? fun node' => node'.label.type = node.label.type) = some i := by
  obtain ⟨hlt, hget⟩ := List.getElem?_eq_some_iff.1 hi
  rw [List.findIdx?_eq_some_iff_getElem]
  refine ⟨hlt, by simp [hget], fun j hji => ?_⟩
  rw [decide_eq_true_iff]
  intro htype
  have hj : j < nodes.length := by omega
  have hsame : (nodes.map fun node => node.label.type)[j]? =
      (nodes.map fun node => node.label.type)[i]? := by
    simp [htype, hget, hj, hlt]
  have hji' : j = i := (List.getElem?_inj (by simpa using hj) h).1 hsame
  omega

/-- **Up is the way back from down.** -/
theorem parent_indexAt {m : ObjectReferencesModel} (h : m.DistinctTypes) {path : List ℕ} {i : ℕ}
    (hnode : (Forest.get m.roots (path ++ [i])).isSome) :
    m.parent (indexAt (path ++ [i])) = some (indexAt path) := by
  obtain ⟨child, hchild⟩ := Option.isSome_iff_exists.1 hnode
  rw [indexAt_append, parent]
  rcases List.eq_nil_or_concat path with rfl | ⟨path, j, rfl⟩
  · rw [List.nil_append] at hchild
    simp [hchild, above]
  · rw [List.concat_eq_append] at *
    have hparent := hchild
    rw [Forest.get_append_singleton (by simp)] at hparent
    obtain ⟨node, hnode, -⟩ := Option.bind_eq_some_iff.1 hparent
    have habove : above (path ++ [j] ++ [i]) = some (path ++ [j]) := by
      rw [above, List.dropLast_concat, if_neg (by simp)]
    have hj : (m.siblings path)[j]? = some node := by
      rw [← get_append, hnode]
    have hgetD : (above (path ++ [j])).getD [] = path := by
      rw [above, List.dropLast_concat]
      split_ifs with hnil
      · exact hnil.symm
      · rfl
    have hfind : ((m.childrenOf (above (path ++ [j]))).findIdx? fun node' =>
        node'.label.type = node.label.type) = some j := by
      rw [childrenOf_above, List.dropLast_concat]
      exact findIdx?_type (h path) hj
    simp only [Option.bind_eq_bind, Option.bind_some, hchild, habove, hnode, hfind, hgetD,
      indexAt_append]

/-! ### Opening nodes -/

/-- A node keeps its type and its addresses. -/
def StaysShown (node node' : TreeNode) : Prop := node'.shown = node.shown

/-- What a view knows about a node stays: its index, its text and its addresses. -/
theorem data_of_grows {m t : ObjectReferencesModel} (h : Forest.Grows StaysShown m.roots t.roots)
    {index : QModelIndex} {text : List UInt8} (hdata : m.data index = some text) :
    t.data index = some text ∧ t.getAddresses index = m.getAddresses index := by
  obtain ⟨path, hpath, hdata⟩ := Option.bind_eq_some_iff.1 hdata
  obtain ⟨node, hnode, htext⟩ := Option.bind_eq_some_iff.1 hdata
  obtain ⟨node', hnode', hshown⟩ := h.get hnode
  obtain ⟨htype, haddresses⟩ := Prod.mk.inj hshown
  refine ⟨?_, ?_⟩
  · rw [← htext]
    simp [data, hpath, hnode', htype, haddresses]
  · simp [getAddresses, hpath, hnode, hnode', haddresses]

/-- Opening nodes moves none. -/
theorem grows_of_opened {m t : ObjectReferencesModel} {addresses : List UInt64}
    {l : List (List ℕ)} (h : TreeInv m.references addresses m.roots)
    (hrun : Run.run openNode m l = some t) :
    Forest.Grows StaysShown m.roots t.roots := by
  have hrefl : ∀ node, StaysShown node node := fun _ => rfl
  induction l generalizing m with
  | nil =>
    cases hrun
    exact fun i root hroot => ⟨root, hroot, RoseTree.Grows.refl hrefl root⟩
  | cons index l ih =>
    obtain ⟨u, hu, hrun⟩ := Option.bind_eq_some_iff.1 hrun
    obtain ⟨rfl, hinv, -⟩ := treeInv_openNode h hu
    have hrest := ih (m := m.expand index) hinv hrun
    have hexpanded : ∀ node : TreeNode, StaysShown node { node with wasExpanded := true } :=
      fun _ => rfl
    have hfirst : Forest.Grows StaysShown m.roots (m.expand index).roots :=
      Forest.Grows.modifyAt hrefl fun s hs =>
        grows_expandNode_of hrefl hexpanded (Forest.All.get h.grown hs)
    exact hfirst.trans (fun _ _ _ hab hbc => hbc.trans hab) hrest

/-- **The laws of the interface.**  In every state of the tree a view finds a child for each row and
gets back from it to where it was; it comes to every node by exactly one index; and while nodes are
opened, the indices it has stay valid, with their texts, addresses and parents. -/
theorem index_laws_of_run {events : List Action} {m : ObjectReferencesModel}
    (hrun : Run.run ObjectReferencesModel.step {} events = some m) :
    (∀ parent, Handed m parent → ∀ row : ℤ,
      (m.index row 0 parent ≠ {} ↔ 0 ≤ row ∧ row < m.rowCount parent) ∧
      (m.index row 0 parent ≠ {} → m.parent (m.index row 0 parent) = some parent)) ∧
    (∀ path node, Forest.get m.roots path = some node →
      ∃! index, Handed m index ∧ index.internalPointer = some path) ∧
    ∀ opened t, Run.run openNode m opened = some t → ∀ index, Handed m index → index ≠ {} →
      Handed t index ∧ t.data index = m.data index ∧ t.getAddresses index = m.getAddresses index ∧
        t.parent index = m.parent index := by
  obtain ⟨-, addresses, hinv⟩ := stored_of_run treeInv_nil hrun
  have hdistinct := hinv.distinctTypes
  refine ⟨fun parent hparent row => ?_, fun path node hnode => ?_, ?_⟩
  · obtain ⟨path, hpath, rfl⟩ := handed_iff.1 hparent
    rw [index_indexAt, rowCount, childrenOf_indexAt]
    by_cases hrow : 0 ≤ row ∧ row < (m.siblings path).length
    · rw [if_pos hrow]
      refine ⟨iff_of_true (by simp) hrow, fun _ => ?_⟩
      exact parent_indexAt hdistinct (isSome_get_append.2 (by omega))
    · rw [if_neg hrow]
      exact ⟨iff_of_false (by simp) hrow, fun h => absurd rfl h⟩
  · refine ⟨indexAt path, ⟨handed_iff.2 ⟨path, Or.inr (by simp [hnode]), rfl⟩, ?_⟩, ?_⟩
    · rcases List.eq_nil_or_concat path with rfl | ⟨path, i, rfl⟩
      · cases hnode
      · simp
    · rintro index ⟨hindex, hpointer⟩
      obtain ⟨path', -, rfl⟩ := handed_iff.1 hindex
      rw [← getD_internalPointer path', hpointer]
      rfl
  · intro opened t hopened index hindex hvalid
    obtain ⟨path, hpath, rfl⟩ := handed_iff.1 hindex
    rcases List.eq_nil_or_concat path with rfl | ⟨path, i, rfl⟩
    · exact absurd rfl hvalid
    rw [List.concat_eq_append] at *
    obtain ⟨node, hnode⟩ := Option.isSome_iff_exists.1 (hpath.resolve_left (by simp))
    have hgrows := grows_of_opened hinv hopened
    obtain ⟨href, hinv', -⟩ := treeInv_run hinv hopened
    rw [← href] at hinv'
    obtain ⟨node', hnode', -⟩ := hgrows.get hnode
    obtain ⟨text, htext⟩ : ∃ text, m.data (indexAt (path ++ [i])) = some text := by
      simp [data, hnode]
    obtain ⟨hdata, haddresses⟩ := data_of_grows hgrows htext
    refine ⟨handed_iff.2 ⟨_, Or.inr (by simp [hnode']), rfl⟩, hdata.trans htext.symm,
      haddresses, ?_⟩
    rw [parent_indexAt hinv'.distinctTypes (by simp [hnode']),
      parent_indexAt hdistinct (by simp [hnode])]

/-- The tree of a circle, opened along it. -/
theorem index_laws_of_run_cyclicAnswer : ∃ m,
    Run.run ObjectReferencesModel.step {} [.update [1, 2, 7] cyclicAnswer, .openNode [0],
      .openNode [0, 1]] = some m ∧
    ∀ parent, Handed m parent → ∀ row : ℤ,
      (m.index row 0 parent ≠ {} ↔ 0 ≤ row ∧ row < m.rowCount parent) ∧
      (m.index row 0 parent ≠ {} → m.parent (m.index row 0 parent) = some parent) :=
  ⟨_, rfl, (@index_laws_of_run [.update [1, 2, 7] cyclicAnswer, .openNode [0],
    .openNode [0, 1]] _ rfl).1⟩

end ObjectReferencesModel

end Owlcat
