import OwlcatMonoProfiler.Library.Dict

/-!
# Logs of allocations and frees

A log lists allocations and frees of addresses, each with a size.  It is *well formed* when the
events of each address alternate, starting with an allocation, and every free carries the size of
the allocation it closes.

* `live l a` is the size of the allocation of `a` that the log leaves open;
* `WellFormed.append_alloc`, `WellFormed.append_free`: a well-formed log may be continued by an
  allocation of an address that is not live, and by the free of a live one with its size;
* `replay l` builds the map of live addresses, `lookup_replay` says that it is `live`, and
  `total_replay` accounts for its contents by the sums over the log;
* `WellFormed.free_of_part`: in a part of a log every free closes an allocation of the part, or one
  that was open before it;
* `Outstanding l m`: the entries `m` are what the log leaves open, wherever a program keeps them;
* `Outstanding.entries_replay_part`: who sees the end of a log only has the allocations of this end
  that are still open.
-/

namespace AllocLog

/-- An allocation or a free of an address, with its size. -/
inductive Event (α σ : Type)
  | alloc (a : α) (s : σ)
  | free (a : α) (s : σ)
  deriving DecidableEq

variable {α σ : Type}

/-- The address an event is about. -/
def Event.addr : Event α σ → α
  | .alloc a _ => a
  | .free a _ => a

/-- Alternating logs: alloc, free, alloc, …, each free with the address and size of the
allocation before it. -/
inductive Alternating : List (Event α σ) → Prop
  | nil : Alternating []
  | opened (a : α) (s : σ) : Alternating [.alloc a s]
  | closed (a : α) (s : σ) {l : List (Event α σ)} :
      Alternating l → Alternating (.alloc a s :: .free a s :: l)

/-- The size of the allocation a log ends with. -/
def lastOpen (l : List (Event α σ)) : Option σ :=
  match l.getLast? with
  | some (.alloc _ s) => some s
  | _ => none

@[simp] theorem lastOpen_nil : lastOpen ([] : List (Event α σ)) = none := rfl

@[simp] theorem lastOpen_append_alloc (l : List (Event α σ)) (a : α) (s : σ) :
    lastOpen (l ++ [.alloc a s]) = some s := by
  simp [lastOpen]

@[simp] theorem lastOpen_append_free (l : List (Event α σ)) (a : α) (s : σ) :
    lastOpen (l ++ [.free a s]) = none := by
  simp [lastOpen]

theorem lastOpen_closed (a b : α) (s t : σ) (l : List (Event α σ)) :
    lastOpen (.alloc a s :: .free b t :: l) = lastOpen l := by
  cases l <;> simp [lastOpen]

theorem Alternating.append_alloc {l : List (Event α σ)} (h : Alternating l) (hl : lastOpen l = none)
    (a : α) (s : σ) : Alternating (l ++ [.alloc a s]) := by
  induction h with
  | nil => exact .opened a s
  | opened b t => simp [lastOpen] at hl
  | closed b t _ ih =>
    rw [lastOpen_closed] at hl
    exact .closed b t (ih hl)

theorem Alternating.append_free {l : List (Event α σ)} (h : Alternating l) {a : α} {s : σ}
    (hl : lastOpen l = some s) (ha : ∀ e ∈ l, e.addr = a) : Alternating (l ++ [.free a s]) := by
  induction h with
  | nil => simp at hl
  | opened b t =>
    have hb : b = a := ha (.alloc b t) List.mem_cons_self
    have ht : t = s := by simpa [lastOpen] using hl
    rw [hb, ht]
    exact .closed a s .nil
  | closed b t _ ih =>
    rw [lastOpen_closed] at hl
    exact .closed b t (ih hl fun e he => ha e (by simp [he]))

/-- Whether an event fits after a log of its address that ends with `o` open. -/
def Event.Fits (o : Option σ) : Event α σ → Prop
  | .alloc _ _ => o = none
  | .free _ s => o = some s

/-- What a continued alternating log was before its last event. -/
theorem Alternating.of_append {l : List (Event α σ)} {e : Event α σ} (h : Alternating (l ++ [e])) :
    Alternating l ∧ e.Fits (lastOpen l) := by
  generalize hm : l ++ [e] = m at h
  induction h generalizing l with
  | nil => simp at hm
  | opened a s =>
    obtain ⟨rfl, rfl⟩ : l = [] ∧ e = .alloc a s := by
      cases l <;> simp_all
    exact ⟨.nil, rfl⟩
  | closed a s hl ih =>
    match l, hm with
    | [], hm => simp at hm
    | [b], hm =>
      obtain ⟨rfl, rfl, -⟩ : b = .alloc a s ∧ e = .free a s ∧ _ = [] := by simpa [eq_comm] using hm
      exact ⟨.opened a s, rfl⟩
    | b :: c :: l', hm =>
      obtain ⟨rfl, rfl, hm'⟩ : b = .alloc a s ∧ c = .free a s ∧ l' ++ [e] = _ := by simpa using hm
      obtain ⟨h1, h2⟩ := ih hm'
      refine ⟨.closed a s h1, ?_⟩
      rw [lastOpen_closed]
      exact h2

variable [DecidableEq α]

/-- The events of one address. -/
def eventsOf (l : List (Event α σ)) (a : α) : List (Event α σ) := l.filter fun e => e.addr = a

/-- The events of each address alternate. -/
def WellFormed (l : List (Event α σ)) : Prop := ∀ a, Alternating (eventsOf l a)

/-- The size of the allocation of `a` that the log leaves open. -/
def live (l : List (Event α σ)) (a : α) : Option σ := lastOpen (eventsOf l a)

theorem eventsOf_append_singleton (l : List (Event α σ)) (e : Event α σ) (a : α) :
    eventsOf (l ++ [e]) a = if a = e.addr then eventsOf l a ++ [e] else eventsOf l a := by
  split_ifs with h
  · simp [eventsOf, h]
  · simp [eventsOf, Ne.symm h]

@[simp] theorem live_nil (a : α) : live ([] : List (Event α σ)) a = none := rfl

theorem live_append_alloc (l : List (Event α σ)) (a : α) (s : σ) (b : α) :
    live (l ++ [.alloc a s]) b = if b = a then some s else live l b := by
  by_cases h : b = a <;> simp [live, eventsOf_append_singleton, Event.addr, h]

theorem live_append_free (l : List (Event α σ)) (a : α) (s : σ) (b : α) :
    live (l ++ [.free a s]) b = if b = a then none else live l b := by
  by_cases h : b = a <;> simp [live, eventsOf_append_singleton, Event.addr, h]

theorem eventsOf_append (l m : List (Event α σ)) (a : α) :
    eventsOf (l ++ m) a = eventsOf l a ++ eventsOf m a :=
  List.filter_append ..

theorem eventsOf_eq_nil {l : List (Event α σ)} {a : α} :
    eventsOf l a = [] ↔ ∀ e ∈ l, e.addr ≠ a := by
  simp [eventsOf]

/-- The events of an address in the second part decide, if there are any. -/
theorem live_append (l m : List (Event α σ)) (a : α) :
    live (l ++ m) a = if eventsOf m a = [] then live l a else live m a := by
  unfold live
  rw [eventsOf_append]
  split_ifs with h
  · rw [h, List.append_nil]
  · rw [lastOpen, lastOpen, List.getLast?_append_of_ne_nil _ h]

/-- An address is live when its last event is an allocation. -/
theorem live_eq_some {l : List (Event α σ)} {a : α} {s : σ} (h : live l a = some s) :
    ∃ p q, l = p ++ .alloc a s :: q ∧ ∀ e ∈ q, e.addr ≠ a := by
  induction l using List.reverseRecOn with
  | nil => simp at h
  | append_singleton l e ih =>
    by_cases he : e.addr = a
    · cases e with
      | alloc b t =>
        obtain rfl : b = a := he
        rw [live_append_alloc, if_pos rfl, Option.some.injEq] at h
        exact ⟨l, [], by rw [h], by simp⟩
      | free b t =>
        obtain rfl : b = a := he
        rw [live_append_free, if_pos rfl] at h
        cases h
    · have hnone : eventsOf [e] a = [] := eventsOf_eq_nil.2 (by simpa using he)
      rw [live_append, if_pos hnone] at h
      obtain ⟨p, q, rfl, hq⟩ := ih h
      refine ⟨p, q ++ [e], by simp, fun e' he' => ?_⟩
      rcases List.mem_append.1 he' with he' | he'
      · exact hq e' he'
      · rw [List.mem_singleton.1 he']
        exact he

theorem wellFormed_nil : WellFormed ([] : List (Event α σ)) := fun _ => .nil

theorem WellFormed.append_alloc {l : List (Event α σ)} (h : WellFormed l) {a : α}
    (ha : live l a = none) (s : σ) : WellFormed (l ++ [.alloc a s]) := by
  intro b
  rw [eventsOf_append_singleton]
  split_ifs with hb
  · have hba : b = a := hb
    rw [hba]
    exact (h a).append_alloc ha a s
  · exact h b

theorem WellFormed.append_free {l : List (Event α σ)} (h : WellFormed l) {a : α} {s : σ}
    (ha : live l a = some s) : WellFormed (l ++ [.free a s]) := by
  intro b
  rw [eventsOf_append_singleton]
  split_ifs with hb
  · have hba : b = a := hb
    rw [hba]
    exact (h a).append_free ha fun e he => by simpa [eventsOf] using (List.mem_filter.1 he).2
  · exact h b

/-- A continued well-formed log was well formed, and its last event fitted. -/
theorem WellFormed.of_append {l : List (Event α σ)} {e : Event α σ} (h : WellFormed (l ++ [e])) :
    WellFormed l ∧ e.Fits (live l e.addr) := by
  have he : Alternating (eventsOf l e.addr ++ [e]) := by
    simpa only [eventsOf_append_singleton, if_true] using h e.addr
  refine ⟨fun a => ?_, he.of_append.2⟩
  by_cases ha : a = e.addr
  · rw [ha]
    exact he.of_append.1
  · simpa only [eventsOf_append_singleton, if_neg ha] using h a

theorem WellFormed.of_prefix {l m : List (Event α σ)} (h : WellFormed (l ++ m)) : WellFormed l := by
  induction m using List.reverseRecOn with
  | nil => rwa [List.append_nil] at h
  | append_singleton m e ih =>
    rw [← List.append_assoc] at h
    exact ih h.of_append.1

/-! ### Replaying a log -/

/-- One event: an allocation is entered unless its address is there, a free removes its address. -/
def replayStep (m : Dict α σ) : Event α σ → Dict α σ
  | .alloc a s => m.emplace a s
  | .free a _ => m.erase a

/-- The map a log leaves behind. -/
def replay (l : List (Event α σ)) : Dict α σ := l.foldl replayStep ∅

theorem replay_append_alloc (l : List (Event α σ)) (a : α) (s : σ) :
    replay (l ++ [.alloc a s]) = (replay l).emplace a s := by
  simp [replay, replayStep]

theorem replay_append_free (l : List (Event α σ)) (a : α) (s : σ) :
    replay (l ++ [.free a s]) = (replay l).erase a := by
  simp [replay, replayStep]

/-- **The replay of a well-formed log is the map of its live addresses.** -/
theorem lookup_replay {l : List (Event α σ)} (h : WellFormed l) (a : α) :
    (replay l).lookup a = live l a := by
  induction l using List.reverseRecOn generalizing a with
  | nil => rfl
  | append_singleton l e ih =>
    obtain ⟨hl, he⟩ := h.of_append
    cases e with
    | alloc b s =>
      rw [replay_append_alloc, live_append_alloc, Dict.lookup_emplace, ih hl, ih hl]
      split_ifs
      · rw [show live l b = none from he, Option.getD_none]
      · rfl
    | free b s =>
      rw [replay_append_free, live_append_free]
      split_ifs with hab
      · rw [hab, AList.lookup_erase]
      · rw [AList.lookup_erase_ne hab, ih hl]

/-- The log has an allocation of the address. -/
def allocates (l : List (Event α σ)) (a : α) : Bool :=
  l.any fun
    | .alloc b _ => b = a
    | .free _ _ => false

@[simp] theorem allocates_append_alloc (l : List (Event α σ)) (b : α) (s : σ) (a : α) :
    allocates (l ++ [.alloc b s]) a = (allocates l a || decide (b = a)) := by
  simp [allocates]

@[simp] theorem allocates_append_free (l : List (Event α σ)) (b : α) (s : σ) (a : α) :
    allocates (l ++ [.free b s]) a = allocates l a := by
  simp [allocates]

/-- **The replay of the end of a well-formed log** has the live addresses that were allocated in
it. -/
theorem lookup_replay_part {l part : List (Event α σ)} (h : WellFormed (l ++ part)) (a : α) :
    (replay part).lookup a = if allocates part a then live (l ++ part) a else none := by
  induction part using List.reverseRecOn generalizing a with
  | nil => rfl
  | append_singleton part e ih =>
    rw [← List.append_assoc] at h ⊢
    obtain ⟨hpart, he⟩ := h.of_append
    cases e with
    | alloc b s =>
      have hclosed : (replay part).lookup b = none := by
        rw [ih hpart, show live (l ++ part) b = none from he]
        exact ite_self none
      rw [replay_append_alloc, live_append_alloc, Dict.lookup_emplace, allocates_append_alloc]
      by_cases hab : a = b
      · rw [if_pos hab, if_pos hab, hclosed, hab]
        simp
      · have hba : decide (b = a) = false := decide_eq_false (Ne.symm hab)
        rw [if_neg hab, if_neg hab, hba, Bool.or_false, ih hpart]
    | free b s =>
      rw [replay_append_free, live_append_free, allocates_append_free]
      by_cases hab : a = b
      · rw [if_pos hab, hab, AList.lookup_erase]
        exact (ite_self none).symm
      · rw [if_neg hab, AList.lookup_erase_ne hab, ih hpart]

/-- The sum of a measure over the allocations of a log. -/
def allocTotal {M : Type} [AddCommMonoid M] (f : σ → M) (l : List (Event α σ)) : M :=
  (l.map fun e => match e with | .alloc _ s => f s | .free _ _ => 0).sum

/-- The sum of a measure over the frees of a log. -/
def freeTotal {M : Type} [AddCommMonoid M] (f : σ → M) (l : List (Event α σ)) : M :=
  (l.map fun e => match e with | .alloc _ _ => 0 | .free _ s => f s).sum

omit [DecidableEq α] in
@[simp] theorem allocTotal_append {M : Type} [AddCommMonoid M] (f : σ → M)
    (l l' : List (Event α σ)) : allocTotal f (l ++ l') = allocTotal f l + allocTotal f l' := by
  simp [allocTotal]

omit [DecidableEq α] in
@[simp] theorem freeTotal_append {M : Type} [AddCommMonoid M] (f : σ → M)
    (l l' : List (Event α σ)) : freeTotal f (l ++ l') = freeTotal f l + freeTotal f l' := by
  simp [freeTotal]

/-- **What was allocated is what is live and what was freed.** -/
theorem total_replay {M : Type} [AddCommMonoid M] (f : σ → M) {l : List (Event α σ)}
    (h : WellFormed l) : Dict.total f (replay l) + freeTotal f l = allocTotal f l := by
  induction l using List.reverseRecOn with
  | nil => simp [replay, freeTotal, allocTotal]
  | append_singleton l e ih =>
    obtain ⟨hl, he⟩ := h.of_append
    have hmap : ∀ a, (replay l).lookup a = live l a := lookup_replay hl
    cases e with
    | alloc b s =>
      have hb : b ∉ replay l := AList.lookup_eq_none.1 ((hmap b).trans he)
      rw [replay_append_alloc, Dict.emplace_of_notMem hb, Dict.total_insert_of_notMem f hb]
      simp only [freeTotal, allocTotal, List.map_append, List.sum_append, List.map_cons,
        List.map_nil, List.sum_cons, List.sum_nil, add_zero] at ih ⊢
      rw [add_assoc, ih hl, add_comm]
    | free b s =>
      rw [replay_append_free]
      have ht := Dict.total_erase f ((hmap b).trans he)
      simp only [freeTotal, allocTotal, List.map_append, List.sum_append, List.map_cons,
        List.map_nil, List.sum_cons, List.sum_nil, add_zero] at ih ⊢
      rw [← ih hl, ← ht]
      abel

/-! ### A part of a log -/

/-- **What is known about a part of a well-formed log**: every free closes the last event of its
address in the part, or, if there is none, an allocation that the log before the part leaves
open. -/
theorem WellFormed.free_of_part {l m pre post : List (Event α σ)} {a : α} {s : σ}
    (h : WellFormed (l ++ m)) (hm : m = pre ++ .free a s :: post) :
    (∃ p q, pre = p ++ .alloc a s :: q ∧ ∀ e ∈ q, e.addr ≠ a) ∨
      (∀ e ∈ pre, e.addr ≠ a) ∧ live l a = some s := by
  have hfree : WellFormed ((l ++ pre) ++ [.free a s]) := by
    have : l ++ m = ((l ++ pre) ++ [.free a s]) ++ post := by simp [hm]
    rw [this] at h
    exact h.of_prefix
  have hlive : live (l ++ pre) a = some s := hfree.of_append.2
  rw [live_append] at hlive
  split_ifs at hlive with hpre
  · exact Or.inr ⟨eventsOf_eq_nil.1 hpre, hlive⟩
  · exact Or.inl (live_eq_some hlive)

/-- A part of a well-formed log frees no more than it allocates and finds open. -/
theorem WellFormed.freeTotal_part_le {f : σ → ℕ} {l m : List (Event α σ)}
    (h : WellFormed (l ++ m)) :
    freeTotal f m ≤ allocTotal f m + Dict.total f (replay l) := by
  have hall := total_replay f h
  have hpart := total_replay f h.of_prefix
  rw [freeTotal_append, allocTotal_append] at hall
  omega

/-! ### The allocations a log leaves open -/

/-- The log is well formed and leaves open exactly the allocations `m`. -/
structure Outstanding (l : List (Event α σ)) (m : List (Sigma fun _ : α => σ)) : Prop where
  wellFormed : WellFormed l
  nodupKeys : m.NodupKeys
  live_eq : ∀ a, live l a = m.dlookup a

namespace Outstanding

variable {l : List (Event α σ)} {m : List (Sigma fun _ : α => σ)}

theorem nil : Outstanding ([] : List (Event α σ)) [] :=
  ⟨wellFormed_nil, List.nodupKeys_nil, fun _ => rfl⟩

theorem perm {m' : List (Sigma fun _ : α => σ)} (h : Outstanding l m) (hm : m.Perm m') :
    Outstanding l m' := by
  have hm' : m'.NodupKeys := (List.perm_nodupKeys hm).1 h.nodupKeys
  exact ⟨h.wellFormed, hm', fun a => (h.live_eq a).trans (List.perm_dlookup a h.nodupKeys hm)⟩

/-- An allocation of an address that is not open. -/
theorem alloc (h : Outstanding l m) {a : α} (ha : a ∉ m.keys) (s : σ) :
    Outstanding (l ++ [.alloc a s]) (⟨a, s⟩ :: m) := by
  have hlive : live l a = none := by rw [h.live_eq, List.dlookup_eq_none.2 ha]
  refine ⟨h.wellFormed.append_alloc hlive s, List.nodupKeys_cons.2 ⟨ha, h.nodupKeys⟩, fun b => ?_⟩
  rw [live_append_alloc]
  split_ifs with hb
  · rw [hb, List.dlookup_cons_eq]
  · rw [List.dlookup_cons_ne _ _ hb, h.live_eq]

/-- The free of an open allocation. -/
theorem free {a : α} {s : σ} (h : Outstanding l (⟨a, s⟩ :: m)) :
    Outstanding (l ++ [.free a s]) m := by
  obtain ⟨ha, hm⟩ := List.nodupKeys_cons.1 h.nodupKeys
  have hlive : live l a = some s := by rw [h.live_eq, List.dlookup_cons_eq]
  refine ⟨h.wellFormed.append_free hlive, hm, fun b => ?_⟩
  rw [live_append_free]
  split_ifs with hb
  · rw [hb, List.dlookup_eq_none.2 ha]
  · rw [h.live_eq, List.dlookup_cons_ne _ _ hb]

/-- Before its last allocation a log left open what it leaves open now but for this one. -/
theorem of_alloc {a : α} {s : σ} (h : Outstanding (l ++ [.alloc a s]) m) :
    ∃ m', Outstanding l m' ∧ m.Perm (⟨a, s⟩ :: m') := by
  obtain ⟨hl, hclosed⟩ := h.wellFormed.of_append
  have hlive : m.dlookup a = some s := by
    rw [← h.live_eq, live_append_alloc, if_pos rfl]
  refine ⟨m.kerase a, ⟨hl, h.nodupKeys.kerase a, fun b => ?_⟩, ?_⟩
  · by_cases hb : b = a
    · rw [hb, List.dlookup_kerase a h.nodupKeys]
      exact hclosed
    · rw [List.dlookup_kerase_ne hb, ← h.live_eq, live_append_alloc, if_neg hb]
  · refine List.lookup_ext h.nodupKeys ?_ fun b t => ?_
    · exact List.nodupKeys_cons.2 ⟨List.notMem_keys_kerase a h.nodupKeys, h.nodupKeys.kerase a⟩
    · by_cases hb : b = a
      · rw [hb, hlive, List.dlookup_cons_eq]
      · rw [List.dlookup_cons_ne _ _ hb, List.dlookup_kerase_ne hb]

/-- The open allocations are the contents of the replayed map. -/
theorem entries_replay (h : Outstanding l m) : (replay l).entries.Perm m := by
  refine List.lookup_ext (replay l).nodupKeys h.nodupKeys fun a s => ?_
  rw [← h.live_eq a, ← lookup_replay h.wellFormed a]
  rfl

/-- **The end of a log** has the open allocations it contains. -/
theorem entries_replay_part {part : List (Event α σ)} (h : Outstanding (l ++ part) m) :
    (replay part).entries.Perm (m.filter fun e => allocates part e.1) := by
  have hnodup : (m.filter fun e => allocates part e.1).NodupKeys :=
    h.nodupKeys.sublist (List.filter_sublist)
  refine List.lookup_ext (replay part).nodupKeys hnodup fun a s => ?_
  have hlookup := lookup_replay_part h.wellFormed a
  rw [h.live_eq a] at hlookup
  rw [List.mem_dlookup_iff hnodup, List.mem_filter, ← List.mem_dlookup_iff h.nodupKeys]
  change s ∈ (replay part).lookup a ↔ _
  rw [hlookup]
  by_cases ha : allocates part a <;> simp [ha]

/-- **What was allocated is what was freed and what is open.** -/
theorem total_eq {M : Type} [AddCommMonoid M] (f : σ → M) (h : Outstanding l m) :
    allocTotal f l = freeTotal f l + (m.map fun e => f e.2).sum := by
  rw [← total_replay f h.wellFormed, add_comm]
  congr 1
  have hsum := (h.entries_replay.map fun e => f e.2).sum_eq
  simpa [Dict.total, Dict.values, Function.comp_def] using hsum

end Outstanding

end AllocLog
