import OwlcatMonoProfiler.Library.Run

/-!
# Getting somewhere

That a system can still reach a goal from each of its states is proved backwards from the goal, or
by a rank that each stretch of a run lowers.

* `CanReach step Q P s`: some run from `s`, each action of which meets `Q`, ends in a state with
  `P`;
* `CanReach.refl`, `CanReach.cons`, `CanReach.trans`: no action, one action, two stretches;
* `canReach_of_rank`: the goal is reached when every state short of it has a lower one ahead.
-/

namespace Run

variable {σ α : Type} {step : σ → α → Option σ} {Q R : σ → α → Prop} {P P' I : σ → Prop}

/-- A state with `P` can be reached by actions that meet `Q`. -/
def CanReach (step : σ → α → Option σ) (Q : σ → α → Prop) (P : σ → Prop) (s : σ) : Prop :=
  ∃ l t, Along step Q s l ∧ run step s l = some t ∧ P t

theorem Along.append {s t : σ} {l m : List α} (hl : Along step Q s l)
    (hrun : run step s l = some t) (hm : Along step Q t m) : Along step Q s (l ++ m) := by
  induction l generalizing s with
  | nil =>
    cases hrun
    exact hm
  | cons a l ih =>
    obtain ⟨u, hu, hrun⟩ := Option.bind_eq_some_iff.1 hrun
    exact Along.cons hl.1 hu (ih (hl.2 u hu) hrun)

theorem Along.mono (h : ∀ s a, Q s a → R s a) {s : σ} {l : List α} (hl : Along step Q s l) :
    Along step R s l := by
  induction l generalizing s with
  | nil => trivial
  | cons a l ih => exact ⟨h s a hl.1, fun t ht => ih (hl.2 t ht)⟩

theorem CanReach.refl {s : σ} (h : P s) : CanReach step Q P s := ⟨[], s, trivial, rfl, h⟩

theorem CanReach.trans {s : σ} (h : CanReach step Q P s)
    (h' : ∀ t, P t → CanReach step Q P' t) : CanReach step Q P' s := by
  obtain ⟨l, t, hl, hrun, ht⟩ := h
  obtain ⟨m, u, hm, hrun', hu⟩ := h' t ht
  refine ⟨l ++ m, u, hl.append hrun hm, ?_, hu⟩
  rw [run_append, hrun, Option.bind_some, hrun']

theorem CanReach.cons {s t : σ} {a : α} (hQ : Q s a) (hstep : step s a = some t)
    (h : CanReach step Q P t) : CanReach step Q P s := by
  obtain ⟨l, u, hl, hrun, hu⟩ := h
  refine ⟨a :: l, u, Along.cons hQ hstep hl, ?_, hu⟩
  rw [run_cons, hstep, Option.bind_some, hrun]

theorem CanReach.single {s t : σ} {a : α} (hQ : Q s a) (hstep : step s a = some t) (h : P t) :
    CanReach step Q P s :=
  CanReach.cons hQ hstep (CanReach.refl h)

theorem CanReach.mono (hQ : ∀ s a, Q s a → R s a) (hP : ∀ s, P s → P' s) {s : σ}
    (h : CanReach step Q P s) : CanReach step R P' s := by
  obtain ⟨l, t, hl, hrun, ht⟩ := h
  exact ⟨l, t, hl.mono hQ, hrun, hP t ht⟩

/-- **Ranks.**  From every state of `I` the goal can be reached, if from every one short of the goal
a lower one can. -/
theorem canReach_of_rank (rank : σ → ℕ)
    (h : ∀ s, I s → ¬P s → CanReach step Q (fun t => I t ∧ rank t < rank s) s) {s : σ} (hs : I s) :
    CanReach step Q (fun t => I t ∧ P t) s := by
  induction hn : rank s using Nat.strong_induction_on generalizing s with
  | _ n ih =>
    by_cases hP : P s
    · exact CanReach.refl ⟨hs, hP⟩
    · refine (h s hs hP).trans fun t ht => ?_
      exact ih (rank t) (hn ▸ ht.2) ht.1 rfl

end Run
