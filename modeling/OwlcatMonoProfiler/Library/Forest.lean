import Mathlib.Tactic

/-!
# Forests and paths

Trees with labels and any number of children, and forests, in which a node is found by a path: the
index of its tree, and the index of a child at each step down.

* `RoseTree.get`, `RoseTree.modifyAt`: look at the subtree at the end of a path, and change it;
  `Forest.get`, `Forest.modifyAt` are the same in a forest;
* `RoseTree.All`: a property of every subtree that may depend on the label of the node above;
  `All.modifyAt` keeps it, `Forest.All.get` finds it at the end of a path;
* `RoseTree.Grows`: nodes keep their paths, and their labels only change along a relation.
-/

/-- A tree whose nodes carry labels. -/
structure RoseTree (α : Type) where
  label : α
  children : List (RoseTree α)

/-- Some trees, in an order. -/
abbrev Forest (α : Type) := List (RoseTree α)

variable {α β γ : Type}

namespace RoseTree

/-- The subtree at the end of a path. -/
def get (t : RoseTree α) : List ℕ → Option (RoseTree α)
  | [] => some t
  | i :: p => t.children[i]?.bind fun c => c.get p

/-- Change the subtree at the end of a path. -/
def modifyAt (g : RoseTree α → RoseTree α) : List ℕ → RoseTree α → RoseTree α
  | [], t => g t
  | i :: p, t => { t with children := t.children.modify i (modifyAt g p) }

@[simp] theorem get_nil (t : RoseTree α) : t.get [] = some t := rfl

@[simp] theorem get_cons (t : RoseTree α) (i : ℕ) (p : List ℕ) :
    t.get (i :: p) = t.children[i]?.bind fun c => c.get p := rfl

/-- A path that goes on is followed from where its first part leads. -/
theorem get_append (t : RoseTree α) (p q : List ℕ) :
    t.get (p ++ q) = (t.get p).bind fun s => s.get q := by
  induction p generalizing t with
  | nil => rfl
  | cons j p ih =>
    rw [List.cons_append, get_cons, get_cons, Option.bind_assoc]
    congr 1
    funext c
    exact ih c

theorem get_singleton (t : RoseTree α) (i : ℕ) : t.get [i] = t.children[i]? := by
  rw [get_cons]
  cases t.children[i]? <;> rfl

theorem get_append_singleton (t : RoseTree α) (p : List ℕ) (i : ℕ) :
    t.get (p ++ [i]) = (t.get p).bind fun s => s.children[i]? := by
  rw [get_append]
  congr 1
  funext s
  exact s.get_singleton i

/-- Below the place of a change. -/
theorem get_modifyAt_append (g : RoseTree α → RoseTree α) (p q : List ℕ) (t : RoseTree α) :
    (t.modifyAt g p).get (p ++ q) = (t.get p).bind fun s => (g s).get q := by
  induction p generalizing t with
  | nil => rfl
  | cons i p ih =>
    show (t.children.modify i (modifyAt g p))[i]?.bind (fun c => c.get (p ++ q)) = _
    rw [List.getElem?_modify_eq, get_cons]
    cases t.children[i]? with
    | none => rfl
    | some c => exact ih c

theorem get_modifyAt (g : RoseTree α → RoseTree α) (p : List ℕ) (t : RoseTree α) :
    (t.modifyAt g p).get p = (t.get p).map g := by
  have h := get_modifyAt_append g p [] t
  rw [List.append_nil] at h
  rw [h, Option.map_eq_bind]
  rfl

/-- Anywhere else the labels stay. -/
theorem label_get_modifyAt {g : RoseTree α → RoseTree α} {p q : List ℕ} (h : ¬p <+: q)
    (t : RoseTree α) : ((t.modifyAt g p).get q).map label = (t.get q).map label := by
  induction p generalizing q t with
  | nil => exact absurd q.nil_prefix h
  | cons i p ih =>
    cases q with
    | nil => rfl
    | cons j q =>
      show ((t.children.modify i (modifyAt g p))[j]?.bind fun c => c.get q).map label = _
      by_cases hij : i = j
      · subst hij
        rw [List.getElem?_modify_eq, get_cons]
        cases t.children[i]? with
        | none => rfl
        | some c => exact ih (fun hprefix => h ((List.prefix_cons_inj i).2 hprefix)) c
      · rw [List.getElem?_modify_ne _ _ hij]
        rfl

theorem modifyAt_eq_self {g : RoseTree α → RoseTree α} {p : List ℕ} {t : RoseTree α}
    (h : ∀ s, t.get p = some s → g s = s) : t.modifyAt g p = t := by
  induction p generalizing t with
  | nil => exact h t rfl
  | cons i p ih =>
    have hchildren : t.children.modify i (modifyAt g p) = t.children := by
      apply List.ext_getElem?
      intro j
      rw [List.getElem?_modify]
      cases hc : t.children[j]? with
      | none => rfl
      | some c =>
        by_cases hij : i = j
        · subst hij
          have hself : c.modifyAt g p = c := ih fun s hs => h s (by simp [hc, hs])
          simp [hself]
        · simp [hij]
    show { t with children := t.children.modify i (modifyAt g p) } = t
    rw [hchildren]
    cases t
    rfl

section View

variable {view : α → γ} {g : RoseTree α → RoseTree α}

theorem view_modifyAt (hview : ∀ s, view (g s).label = view s.label) (p : List ℕ)
    (t : RoseTree α) : view (t.modifyAt g p).label = view t.label := by
  cases p with
  | nil => exact hview t
  | cons i p => rfl

/-- What is seen of the trees of a forest, when one of them is changed. -/
theorem map_modify_modifyAt (hview : ∀ s, view (g s).label = view s.label) (i : ℕ) (p : List ℕ)
    (f : Forest α) : ((f.modify i (modifyAt g p)).map fun t => view t.label) =
      f.map fun t => view t.label := by
  apply List.ext_getElem?
  intro j
  rw [List.getElem?_map, List.getElem?_map, List.getElem?_modify]
  cases f[j]? with
  | none => rfl
  | some t => by_cases hij : i = j <;> simp [hij, view_modifyAt hview]

end View

/-! ### Properties that depend on the node above -/

/-- Every subtree has a property that may depend on what `next` finds in the label of the node
above; for the whole tree this is `b`. -/
inductive All (next : α → β) (P : β → RoseTree α → Prop) : β → RoseTree α → Prop
  | intro {b : β} {t : RoseTree α} (here : P b t)
      (inside : ∀ c ∈ t.children, All next P (next t.label) c) : All next P b t

section All

variable {next : α → β} {P : β → RoseTree α → Prop} {b : β} {t : RoseTree α}

theorem All.here (h : All next P b t) : P b t := by
  cases h with
  | intro here _ => exact here

theorem All.children (h : All next P b t) : ∀ c ∈ t.children, All next P (next t.label) c := by
  cases h with
  | intro _ inside => exact inside

/-- The change of a subtree keeps a property that sees no more of the children of a node than what
the change leaves alone. -/
theorem All.modifyAt {view : α → γ} {g : RoseTree α → RoseTree α} {p : List ℕ}
    (hP : ∀ b t cs, (cs.map fun c => view c.label) = (t.children.map fun c => view c.label) →
      P b t → P b { t with children := cs })
    (hview : ∀ s, view (g s).label = view s.label)
    (hg : ∀ b s, t.get p = some s → All next P b s → All next P b (g s))
    (h : All next P b t) : All next P b (t.modifyAt g p) := by
  induction p generalizing b t with
  | nil => exact hg b t rfl h
  | cons i p ih =>
    refine All.intro (hP b t _ (map_modify_modifyAt hview i p _) h.here) fun c hc => ?_
    obtain ⟨j, hj⟩ := List.mem_iff_getElem?.1 (show c ∈ t.children.modify i _ from hc)
    rw [List.getElem?_modify] at hj
    obtain ⟨d, hd, rfl⟩ := Option.map_eq_some_iff.1 hj
    have hall := h.children d (List.mem_of_getElem? hd)
    by_cases hij : i = j
    · subst hij
      rw [if_pos rfl]
      exact ih (fun b s hs => hg b s (by simp [hd, hs])) hall
    · rw [if_neg hij]
      exact hall

theorem All.get {p : List ℕ} {s : RoseTree α} (h : All next P b t) (hs : t.get p = some s) :
    ∃ b', All next P b' s := by
  induction p generalizing b t with
  | nil =>
    cases hs
    exact ⟨b, h⟩
  | cons i p ih =>
    obtain ⟨c, hc, hs⟩ := Option.bind_eq_some_iff.1 hs
    exact ih (h.children c (List.mem_of_getElem? hc)) hs

end All

/-! ### Growth -/

/-- Every path to a node is still one, and the labels at its end are related. -/
def Grows (r : α → α → Prop) (t t' : RoseTree α) : Prop :=
  ∀ (p : List ℕ) (s : RoseTree α), t.get p = some s → ∃ s', t'.get p = some s' ∧ r s.label s'.label

variable {r : α → α → Prop} {t t' : RoseTree α}

theorem Grows.refl (hr : ∀ a, r a a) (t : RoseTree α) : Grows r t t :=
  fun _ s hs => ⟨s, hs, hr s.label⟩

/-- A tree grows when its children do; there may be new ones behind them. -/
theorem Grows.of_children (hlabel : r t.label t'.label)
    (h : ∀ (i : ℕ) c, t.children[i]? = some c → ∃ c', t'.children[i]? = some c' ∧ Grows r c c') :
    Grows r t t' := by
  intro p s hs
  cases p with
  | nil =>
    cases hs
    exact ⟨t', rfl, hlabel⟩
  | cons i p =>
    obtain ⟨c, hc, hs⟩ := Option.bind_eq_some_iff.1 hs
    obtain ⟨c', hc', hgrows⟩ := h i c hc
    obtain ⟨s', hs', hr⟩ := hgrows p s hs
    exact ⟨s', by simp [hc', hs'], hr⟩

theorem Grows.modifyAt (hr : ∀ a, r a a) {g : RoseTree α → RoseTree α}
    {p : List ℕ} {t : RoseTree α} (hg : ∀ s, t.get p = some s → Grows r s (g s)) :
    Grows r t (t.modifyAt g p) := by
  induction p generalizing t with
  | nil => exact hg t rfl
  | cons i p ih =>
    have hlabel : r t.label (t.modifyAt g (i :: p)).label := hr t.label
    apply Grows.of_children hlabel
    intro j c hc
    show ∃ c', (t.children.modify i (RoseTree.modifyAt g p))[j]? = some c' ∧ Grows r c c'
    rw [List.getElem?_modify, hc]
    by_cases hij : i = j
    · subst hij
      exact ⟨c.modifyAt g p, by simp, ih fun s hs => hg s (by simp [hc, hs])⟩
    · exact ⟨c, by simp [hij], Grows.refl hr c⟩

end RoseTree

/-! ### Forests -/

namespace Forest

/-- The subtree at the end of a path; the empty path leads to no tree. -/
def get (f : Forest α) : List ℕ → Option (RoseTree α)
  | [] => none
  | i :: p => f[i]?.bind fun t => t.get p

/-- Change the subtree at the end of a path. -/
def modifyAt (g : RoseTree α → RoseTree α) : List ℕ → Forest α → Forest α
  | [], f => f
  | i :: p, f => f.modify i (RoseTree.modifyAt g p)

theorem get_append {f : Forest α} {p : List ℕ} (hp : p ≠ []) (q : List ℕ) :
    get f (p ++ q) = (get f p).bind fun s => s.get q := by
  obtain ⟨j, p, rfl⟩ := List.exists_cons_of_ne_nil hp
  show (f[j]?.bind fun t => t.get (p ++ q)) = (f[j]?.bind fun t => t.get p).bind _
  rw [Option.bind_assoc]
  congr 1
  funext t
  exact t.get_append p q

theorem get_append_singleton {f : Forest α} {p : List ℕ} (hp : p ≠ []) (i : ℕ) :
    get f (p ++ [i]) = (get f p).bind fun s => s.children[i]? := by
  rw [get_append hp]
  congr 1
  funext s
  exact s.get_singleton i

theorem ne_nil_of_get {f : Forest α} {p : List ℕ} {s : RoseTree α} (h : get f p = some s) :
    p ≠ [] := by
  rintro rfl
  cases h

theorem get_modifyAt_append {g : RoseTree α → RoseTree α} {p : List ℕ} {f : Forest α}
    {s : RoseTree α} (hs : get f p = some s) (q : List ℕ) :
    get (modifyAt g p f) (p ++ q) = (g s).get q := by
  cases p with
  | nil => cases hs
  | cons i p =>
    obtain ⟨t, ht, hts⟩ := Option.bind_eq_some_iff.1 hs
    show (f.modify i (RoseTree.modifyAt g p))[i]?.bind (fun t => t.get (p ++ q)) = _
    rw [List.getElem?_modify_eq, ht]
    show (t.modifyAt g p).get (p ++ q) = (g s).get q
    rw [RoseTree.get_modifyAt_append, hts, Option.bind_some]

theorem label_get_modifyAt {g : RoseTree α → RoseTree α} {p q : List ℕ} (h : ¬p <+: q)
    (f : Forest α) :
    (get (modifyAt g p f) q).map RoseTree.label = (get f q).map RoseTree.label := by
  cases p with
  | nil => rfl
  | cons i p =>
    cases q with
    | nil => rfl
    | cons j q =>
      show ((f.modify i (RoseTree.modifyAt g p))[j]?.bind fun t => t.get q).map RoseTree.label =
        (f[j]?.bind fun t => t.get q).map RoseTree.label
      by_cases hij : i = j
      · subst hij
        rw [List.getElem?_modify_eq]
        cases f[i]? with
        | none => rfl
        | some t =>
          exact RoseTree.label_get_modifyAt
            (fun hprefix => h ((List.prefix_cons_inj i).2 hprefix)) t
      · rw [List.getElem?_modify_ne _ _ hij]

theorem get_modifyAt (g : RoseTree α → RoseTree α) (p : List ℕ) (f : Forest α) :
    get (modifyAt g p f) p = (get f p).map g := by
  cases p with
  | nil => rfl
  | cons i p =>
    show (f.modify i (RoseTree.modifyAt g p))[i]?.bind (fun t => t.get p) =
      (f[i]?.bind fun t => t.get p).map g
    rw [List.getElem?_modify_eq]
    cases f[i]? with
    | none => rfl
    | some t => exact t.get_modifyAt g p

theorem modifyAt_eq_self {g : RoseTree α → RoseTree α} {p : List ℕ} {f : Forest α}
    (h : ∀ s, get f p = some s → g s = s) : modifyAt g p f = f := by
  cases p with
  | nil => rfl
  | cons i p =>
    show f.modify i (RoseTree.modifyAt g p) = f
    apply List.ext_getElem?
    intro j
    rw [List.getElem?_modify]
    cases ht : f[j]? with
    | none => rfl
    | some t =>
      by_cases hij : i = j
      · subst hij
        have hself : t.modifyAt g p = t :=
          RoseTree.modifyAt_eq_self fun s hs => h s (by simp [get, ht, hs])
        simp [hself]
      · simp [hij]

theorem map_modifyAt {view : α → γ} {g : RoseTree α → RoseTree α}
    (hview : ∀ s, view (g s).label = view s.label) (p : List ℕ) (f : Forest α) :
    ((modifyAt g p f).map fun t => view t.label) = f.map fun t => view t.label := by
  cases p with
  | nil => rfl
  | cons i p => exact RoseTree.map_modify_modifyAt hview i p f

section All

variable {next : α → β} {P : β → RoseTree α → Prop} {b : β} {f : Forest α}

/-- What the property of the subtree at the end of a path depends on. -/
def context (next : α → β) (b : β) (f : Forest α) (p : List ℕ) : β :=
  (get f p.dropLast).elim b fun t => next t.label

theorem All.get {p : List ℕ} {s : RoseTree α} (h : ∀ t ∈ f, RoseTree.All next P b t)
    (hs : Forest.get f p = some s) : RoseTree.All next P (context next b f p) s := by
  rcases List.eq_nil_or_concat p with rfl | ⟨q, i, rfl⟩
  · cases hs
  rw [List.concat_eq_append] at hs ⊢
  rw [context, List.dropLast_concat]
  by_cases hq : q = []
  · subst hq
    obtain ⟨t, ht, hts⟩ := Option.bind_eq_some_iff.1 hs
    cases hts
    exact h s (List.mem_of_getElem? ht)
  · rw [get_append_singleton hq] at hs
    obtain ⟨u, hu, hus⟩ := Option.bind_eq_some_iff.1 hs
    rw [hu]
    obtain ⟨j, q', hq'⟩ := List.exists_cons_of_ne_nil hq
    rw [hq'] at hu
    obtain ⟨t, ht, htu⟩ := Option.bind_eq_some_iff.1 hu
    obtain ⟨b', hb'⟩ := (h t (List.mem_of_getElem? ht)).get htu
    exact hb'.children s (List.mem_of_getElem? hus)

theorem All.modifyAt {view : α → γ} {g : RoseTree α → RoseTree α} {p : List ℕ}
    (hP : ∀ b t cs, (cs.map fun c => view c.label) = (t.children.map fun c => view c.label) →
      P b t → P b { t with children := cs })
    (hview : ∀ s, view (g s).label = view s.label)
    (hg : ∀ b s, Forest.get f p = some s → RoseTree.All next P b s → RoseTree.All next P b (g s))
    (h : ∀ t ∈ f, RoseTree.All next P b t) :
    ∀ t ∈ Forest.modifyAt g p f, RoseTree.All next P b t := by
  cases p with
  | nil => exact h
  | cons i p =>
    intro t ht
    obtain ⟨j, hj⟩ := List.mem_iff_getElem?.1 (show t ∈ f.modify i _ from ht)
    rw [List.getElem?_modify] at hj
    obtain ⟨u, hu, rfl⟩ := Option.map_eq_some_iff.1 hj
    have hall := h u (List.mem_of_getElem? hu)
    by_cases hij : i = j
    · subst hij
      rw [if_pos rfl]
      exact hall.modifyAt hP hview fun b s hs => hg b s (by simp [Forest.get, hu, hs])
    · rw [if_neg hij]
      exact hall

end All

/-- The trees of a forest grow, and there may be new ones behind them. -/
def Grows (r : α → α → Prop) (f f' : Forest α) : Prop :=
  ∀ (i : ℕ) t, f[i]? = some t → ∃ t', f'[i]? = some t' ∧ RoseTree.Grows r t t'

theorem Grows.get {r : α → α → Prop} {f f' : Forest α} (h : Grows r f f') {p : List ℕ}
    {s : RoseTree α} (hs : Forest.get f p = some s) :
    ∃ s', Forest.get f' p = some s' ∧ r s.label s'.label := by
  cases p with
  | nil => cases hs
  | cons i p =>
    obtain ⟨t, ht, hs⟩ := Option.bind_eq_some_iff.1 hs
    obtain ⟨t', ht', hgrows⟩ := h i t ht
    obtain ⟨s', hs', hr⟩ := hgrows p s hs
    exact ⟨s', by simp [Forest.get, ht', hs'], hr⟩

theorem Grows.trans {r : α → α → Prop} (hr : ∀ a b c, r a b → r b c → r a c)
    {f f' f'' : Forest α} (h : Grows r f f') (h' : Grows r f' f'') : Grows r f f'' := by
  intro i t ht
  obtain ⟨t', ht', hgrows⟩ := h i t ht
  obtain ⟨t'', ht'', hgrows'⟩ := h' i t' ht'
  refine ⟨t'', ht'', fun p s hs => ?_⟩
  obtain ⟨s', hs', hs's⟩ := hgrows p s hs
  obtain ⟨s'', hs'', hs''s⟩ := hgrows' p s' hs'
  exact ⟨s'', hs'', hr _ _ _ hs's hs''s⟩

theorem Grows.modifyAt {r : α → α → Prop} (hr : ∀ a, r a a) {g : RoseTree α → RoseTree α}
    {p : List ℕ} {f : Forest α} (hg : ∀ s, Forest.get f p = some s → RoseTree.Grows r s (g s)) :
    Grows r f (Forest.modifyAt g p f) := by
  intro j t ht
  cases p with
  | nil => exact ⟨t, ht, RoseTree.Grows.refl hr t⟩
  | cons i p =>
    show ∃ t', (f.modify i (RoseTree.modifyAt g p))[j]? = some t' ∧ RoseTree.Grows r t t'
    rw [List.getElem?_modify, ht]
    by_cases hij : i = j
    · subst hij
      refine ⟨t.modifyAt g p, by simp, RoseTree.Grows.modifyAt hr fun s hs => hg s ?_⟩
      simp [Forest.get, ht, hs]
    · exact ⟨t, by simp [hij], RoseTree.Grows.refl hr t⟩

end Forest
