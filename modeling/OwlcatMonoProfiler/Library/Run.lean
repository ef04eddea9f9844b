import Mathlib.Tactic

/-!
# Runs of a labelled transition system

A system is a partial step function `step : σ → α → Option σ`: `step s a` is the state after the
action `a`, and `none` when `a` is not possible in `s`.

* `run step s l` takes the actions `l` one after the other;
* `Along step P s l` says that each of them meets the condition `P` in the state it is taken in;
* `Reachable step s t` forgets the actions;
* `run_invariant`, `reachable_invariant`: an invariant is proved by looking at one step;
* `latched_iff`: so is what the violations of a condition bring about;
* `exists_prefix_eq`: a counter comes to every value in between, or a step takes it past it;
* `run_filter`: actions that a relation between two systems does not see can be left out;
* `outputs`, `tryOutputs`: when actions have outputs, `tryOutputs_of_simulation` compares those of
  two systems.
-/

namespace Run

variable {σ τ α β : Type}

/-- The state after a list of actions (`none` once an action is not possible). -/
def run (step : σ → α → Option σ) : σ → List α → Option σ
  | s, [] => some s
  | s, a :: l => (step s a).bind fun t => run step t l

/-- Every action of the list meets `P` in the state it is taken in. -/
def Along (step : σ → α → Option σ) (P : σ → α → Prop) : σ → List α → Prop
  | _, [] => True
  | s, a :: l => P s a ∧ ∀ t ∈ step s a, Along step P t l

/-- `t` can be reached from `s`. -/
def Reachable (step : σ → α → Option σ) (s t : σ) : Prop := ∃ l, run step s l = some t

instance decidableAlong (step : σ → α → Option σ) (P : σ → α → Prop)
    [∀ s a, Decidable (P s a)] : ∀ s l, Decidable (Along step P s l)
  | _, [] => .isTrue trivial
  | s, a :: l =>
    match h : step s a with
    | none => decidable_of_iff (P s a) (by simp [Along, h])
    | some t =>
      have := decidableAlong step P t l
      decidable_of_iff (P s a ∧ Along step P t l) (by simp [Along, h])

variable {step : σ → α → Option σ} {P : σ → α → Prop}

@[simp] theorem run_nil (s : σ) : run step s [] = some s := rfl

@[simp] theorem run_cons (s : σ) (a : α) (l : List α) :
    run step s (a :: l) = (step s a).bind fun t => run step t l := rfl

theorem run_append (s : σ) (l m : List α) :
    run step s (l ++ m) = (run step s l).bind fun t => run step t m := by
  induction l generalizing s with
  | nil => rfl
  | cons a l ih =>
    rw [List.cons_append, run_cons, run_cons, Option.bind_assoc]
    congr 1
    funext t
    exact ih t

theorem Along.cons {s t : σ} {a : α} {l : List α} (hP : P s a) (hstep : step s a = some t)
    (h : Along step P t l) : Along step P s (a :: l) :=
  ⟨hP, fun u hu => by
    rw [Option.mem_def, hstep, Option.some.injEq] at hu
    exact hu ▸ h⟩

/-- A property of the first state that every step keeps holds of the last state of every run. -/
theorem run_invariant {I : σ → Prop} (hstep : ∀ s a t, I s → P s a → step s a = some t → I t)
    {s t : σ} {l : List α} (h : I s) (hP : Along step P s l) (hrun : run step s l = some t) :
    I t := by
  induction l generalizing s with
  | nil => cases hrun; exact h
  | cons a l ih =>
    obtain ⟨u, hu, hrun⟩ := Option.bind_eq_some_iff.1 hrun
    exact ih (hstep s a u h hP.1 hu) (hP.2 u hu) hrun

theorem along_of_mem {l : List α} (h : ∀ a ∈ l, ∀ s, P s a) (s : σ) : Along step P s l := by
  induction l generalizing s with
  | nil => trivial
  | cons a l ih =>
    exact ⟨h a List.mem_cons_self s, fun t _ => ih (fun b hb => h b (List.mem_cons_of_mem _ hb)) t⟩

theorem along_of_forall (h : ∀ s a, P s a) (s : σ) (l : List α) : Along step P s l :=
  along_of_mem (fun a _ s => h s a) s

theorem along_and {Q : σ → α → Prop} {s : σ} {l : List α} :
    Along step (fun s a => P s a ∧ Q s a) s l ↔ Along step P s l ∧ Along step Q s l := by
  induction l generalizing s with
  | nil => simp [Along]
  | cons a l ih =>
    simp only [Along, ih]
    exact ⟨fun h => ⟨⟨h.1.1, fun t ht => (h.2 t ht).1⟩, h.1.2, fun t ht => (h.2 t ht).2⟩,
      fun h => ⟨⟨h.1.1, h.2.1⟩, fun t ht => ⟨h.1.2 t ht, h.2.2 t ht⟩⟩⟩

theorem along_append {s t : σ} {l m : List α} (hrun : run step s l = some t) :
    Along step P s (l ++ m) ↔ Along step P s l ∧ Along step P t m := by
  induction l generalizing s with
  | nil =>
    cases hrun
    simp [Along]
  | cons a l ih =>
    obtain ⟨u, hu, hrun⟩ := Option.bind_eq_some_iff.1 hrun
    simp [Along, hu, ih hrun, and_assoc]

/-- Conditions that agree where an invariant holds are met along the same runs. -/
theorem along_congr {Q : σ → α → Prop} {I : σ → Prop} (hPQ : ∀ s a, I s → (P s a ↔ Q s a))
    (hstep : ∀ s a t, I s → P s a → step s a = some t → I t) {s : σ} (h : I s) (l : List α) :
    Along step P s l ↔ Along step Q s l := by
  induction l generalizing s with
  | nil => exact Iff.rfl
  | cons a l ih =>
    constructor
    · rintro ⟨hP, hl⟩
      exact ⟨(hPQ s a h).1 hP, fun t ht => (ih (hstep s a t h hP ht)).1 (hl t ht)⟩
    · rintro ⟨hQ, hl⟩
      have hP := (hPQ s a h).2 hQ
      exact ⟨hP, fun t ht => (ih (hstep s a t h hP ht)).2 (hl t ht)⟩

/-- What the steps outside of a condition bring about for good has come about exactly when the
condition was not met all along. -/
theorem latched_iff {I D : σ → Prop} (hI : ∀ s a t, I s → step s a = some t → I t)
    (hD : ∀ s a t, I s → step s a = some t → (D t ↔ D s ∨ ¬P s a)) {s t : σ} {l : List α}
    (h : I s) (hrun : run step s l = some t) : D t ↔ D s ∨ ¬Along step P s l := by
  induction l generalizing s with
  | nil =>
    cases hrun
    simp [Along]
  | cons a l ih =>
    obtain ⟨u, hu, hrun⟩ := Option.bind_eq_some_iff.1 hrun
    have hrest : Along step P s (a :: l) ↔ P s a ∧ Along step P u l := by
      simp [Along, hu]
    rw [ih (hI s a u h hu) hrun, hD s a u h hu, hrest, not_and_or, or_assoc]

/-- **A counter comes to a value in between, or a step takes it past it.** -/
theorem exists_prefix_eq {step : σ → α → Option σ} (f : σ → ℕ) {s t : σ} {l : List α} {n : ℕ}
    (hrun : run step s l = some t) (hs : f s ≤ n) (ht : n ≤ f t) :
    ∃ l₁ l₂ u, l = l₁ ++ l₂ ∧ run step s l₁ = some u ∧ run step u l₂ = some t ∧
      (f u = n ∨ ∃ l₀ a v, l₁ = l₀ ++ [a] ∧ run step s l₀ = some v ∧ step v a = some u ∧
        f v < n ∧ n < f u) := by
  induction l generalizing s with
  | nil =>
    cases hrun
    exact ⟨[], [], t, rfl, rfl, rfl, .inl (le_antisymm hs ht)⟩
  | cons a l ih =>
    obtain ⟨v, hv, hrest⟩ := Option.bind_eq_some_iff.1 hrun
    rcases Nat.lt_or_ge n (f v) with hpast | hge
    · rcases Nat.lt_or_ge (f s) n with hlt | hge
      · have hone : run step s [a] = some v := by rw [run_cons, hv]; rfl
        exact ⟨[a], l, v, rfl, hone, hrest, .inr ⟨[], a, s, rfl, rfl, hv, hlt, hpast⟩⟩
      · exact ⟨[], a :: l, s, rfl, rfl, hrun, .inl (le_antisymm hs hge)⟩
    · obtain ⟨l₁, l₂, u, rfl, hu, hl₂, hcase⟩ := ih hrest hge
      refine ⟨a :: l₁, l₂, u, rfl, by rw [run_cons, hv, Option.bind_some, hu], hl₂, ?_⟩
      rcases hcase with heq | ⟨l₀, b, w, rfl, hw, hstep, hlt, hpast⟩
      · exact .inl heq
      · exact .inr ⟨a :: l₀, b, w, rfl, by rw [run_cons, hv, Option.bind_some, hw], hstep, hlt,
          hpast⟩

/-- **Weak simulation.**  Hidden actions leave the related state where it is, each visible one is
matched by an action of the other system, and so a run is matched by one without hidden actions. -/
theorem run_filter {R : σ → τ → Prop} {S : α → β → Prop} {step' : τ → β → Option τ}
    {visible : α → Bool}
    (hvisible : ∀ s s' a t, R s s' → visible a = true → step s a = some t →
      ∃ b t', S a b ∧ step' s' b = some t' ∧ R t t')
    (hhidden : ∀ s s' a t, R s s' → visible a = false → step s a = some t → R t s')
    {s t : σ} {s' : τ} {l : List α} (h : R s s') (hrun : run step s l = some t) :
    ∃ l' t', List.Forall₂ S (l.filter visible) l' ∧ run step' s' l' = some t' ∧ R t t' := by
  induction l generalizing s s' with
  | nil =>
    cases hrun
    exact ⟨[], s', List.Forall₂.nil, rfl, h⟩
  | cons a l ih =>
    obtain ⟨u, hu, hrun⟩ := Option.bind_eq_some_iff.1 hrun
    cases hv : visible a with
    | true =>
      obtain ⟨b, u', hab, hu', hR⟩ := hvisible s s' a u h hv hu
      obtain ⟨l', t', hl, hrun', ht⟩ := ih hR hrun
      refine ⟨b :: l', t', ?_, ?_, ht⟩
      · rw [List.filter_cons_of_pos hv]
        exact List.Forall₂.cons hab hl
      · rw [run_cons, hu', Option.bind_some, hrun']
    | false =>
      obtain ⟨l', t', hl, hrun', ht⟩ := ih (hhidden s s' a u h hv hu) hrun
      refine ⟨l', t', ?_, hrun', ht⟩
      rw [List.filter_cons_of_neg (by simp [hv])]
      exact hl

theorem reachable_invariant {I : σ → Prop} (hstep : ∀ s a t, I s → step s a = some t → I t)
    {s t : σ} (h : I s) (hst : Reachable step s t) : I t := by
  obtain ⟨l, hl⟩ := hst
  exact run_invariant (P := fun _ _ => True) (fun s a t hs _ => hstep s a t hs) h
    (along_of_forall (fun _ _ => trivial) s l) hl

/-! ### Outputs -/

/-- The outputs of a list of actions, and the state afterwards. -/
def outputs (f : σ → α → β × σ) : σ → List α → List β × σ
  | s, [] => ([], s)
  | s, a :: l => ((f s a).1 :: (outputs f (f s a).2 l).1, (outputs f (f s a).2 l).2)

/-- The outputs of actions that may be impossible. -/
def tryOutputs (f : σ → α → Option (β × σ)) : σ → List α → Option (List β × σ)
  | s, [] => some ([], s)
  | s, a :: l => do
    let (b, s) ← f s a
    let (bs, s) ← tryOutputs f s l
    return (b :: bs, s)

/-- A system that is simulated by one whose actions are all possible has the same outputs.  The
relation may depend on how many actions are still to come. -/
theorem tryOutputs_of_simulation {f : σ → α → Option (β × σ)} {g : τ → α → β × τ}
    {R : ℕ → σ → τ → Prop}
    (h : ∀ n s t a, R (n + 1) s t → ∃ s', f s a = some ((g t a).1, s') ∧ R n s' (g t a).2)
    {s : σ} {t : τ} (l : List α) (hR : R l.length s t) :
    ∃ s', tryOutputs f s l = some ((outputs g t l).1, s') ∧ R 0 s' (outputs g t l).2 := by
  induction l generalizing s t with
  | nil => exact ⟨s, rfl, hR⟩
  | cons a l ih =>
    obtain ⟨s', hs', hR'⟩ := h l.length s t a hR
    obtain ⟨s'', hs'', hR''⟩ := ih hR'
    refine ⟨s'', ?_, hR''⟩
    rw [tryOutputs, hs']
    show (tryOutputs f s' l).bind _ = _
    rw [hs'']
    rfl

end Run
