import OwlcatMonoProfiler.Server.Transparency

/-!
# Collections, one after the other

What a collection does when another one, or an update of the parents, has just been made with the
same memory and the same roots.

* `kept`: the map a full collection leaves;
* `traversal_kept`: its objects are traversed as before, although the others are gone;
* `collect_again`: a second collection changes nothing, and an earlier update of the parents is
  without effect on a collection.
-/

namespace Owlcat

namespace WorkerThread

section Kept

variable (mem : Memory) (roots : List RootInfo) (m : Dict UInt64 AllocInfo)

theorem keys_mark : (mark mem roots m).1.1.keys = m.keys := by
  have hkeys := congrArg AList.keys (clearMarks_mark mem roots m)
  rwa [clearMarks, clearMarks, Dict.keys_mapEntries, Dict.keys_mapEntries] at hkeys

/-- The entries a full collection leaves in the map. -/
def kept : Dict UInt64 AllocInfo :=
  Dict.filterEntries (fun _ alloc => alloc.tmpAllocated) (mark mem roots m).1.1

/-- An object that is kept was reachable, and is as the marking has left it. -/
theorem lookup_kept {y : UInt64} {alloc : AllocInfo} :
    (kept mem roots m).lookup y = some alloc ↔
      (mark mem roots m).1.1.lookup y = some alloc ∧ Live mem roots (sizes m) y := by
  rw [kept, Dict.lookup_filterEntries, Option.filter_eq_some_iff]
  constructor
  · rintro ⟨hy, hmarked⟩
    exact ⟨hy, (marks_mark mem roots m hy).tmpAllocated.1 hmarked⟩
  · rintro ⟨hy, hlive⟩
    exact ⟨hy, (marks_mark mem roots m hy).tmpAllocated.2 hlive⟩

theorem sizes_kept {y : UInt64} (hy : Live mem roots (sizes m) y) :
    sizes (kept mem roots m) y = sizes m y := by
  have hsize := sizes_of_live mem roots m hy
  rw [← sizes_mark mem roots m] at hsize ⊢
  obtain ⟨size, hsize⟩ := Option.isSome_iff_exists.1 hsize
  obtain ⟨alloc, halloc, -⟩ := Option.map_eq_some_iff.1 hsize
  rw [sizes, sizes, (lookup_kept mem roots m).2 ⟨halloc, hy⟩, halloc]

theorem live_of_kept {y : UInt64} (hy : (sizes (kept mem roots m) y).isSome) :
    Live mem roots (sizes m) y := by
  obtain ⟨size, hsize⟩ := Option.isSome_iff_exists.1 hy
  obtain ⟨alloc, halloc, -⟩ := Option.map_eq_some_iff.1 hsize
  exact ((lookup_kept mem roots m).1 halloc).2

/-- The root areas mention no object that is gone. -/
theorem rootRefs_kept :
    rootRefs mem roots (sizes (kept mem roots m)) = rootRefs mem roots (sizes m) := by
  refine List.filter_congr fun r hr => ?_
  rw [decide_eq_decide]
  refine and_congr_right fun h0 => ?_
  constructor
  · intro h
    exact sizes_of_live mem roots m (live_of_kept mem roots m h)
  · intro h
    have hlive : Live mem roots (sizes m) r :=
      ⟨r, List.mem_filter.2 ⟨hr, decide_eq_true ⟨h0, h⟩⟩, .refl⟩
    rwa [sizes_kept mem roots m hlive]

/-- A live object mentions no object that is gone. -/
theorem pointees_kept {x : UInt64} (hx : Live mem roots (sizes m) x) :
    pointees mem (sizes (kept mem roots m)) x = pointees mem (sizes m) x := by
  unfold pointees
  rw [sizes_kept mem roots m hx]
  cases hsize : sizes m x with
  | none => rfl
  | some size =>
    refine List.filter_congr fun c hc => ?_
    rw [Bool.eq_iff_iff]
    constructor
    · intro h
      exact sizes_of_live mem roots m (live_of_kept mem roots m h)
    · intro h
      have hstep : c ∈ pointees mem (sizes m) x := by
        rw [pointees, hsize]
        exact List.mem_filter.2 ⟨hc, h⟩
      obtain ⟨r, hr, hrx⟩ := hx
      have hlive : Live mem roots (sizes m) c := ⟨r, hr, hrx.tail hstep⟩
      rwa [sizes_kept mem roots m hlive]

/-- **The second traversal is the first one.** -/
theorem traversal_kept : traversal mem roots (kept mem roots m) = traversal mem roots m := by
  have hpopped := (popped_traversal mem roots m).2.1
  have hle : (kept mem roots m).keys.length ≤ m.keys.length := by
    rw [← keys_mark mem roots m]
    exact (List.Sublist.map Sigma.fst List.filter_sublist).length_le
  have hstack := traversal_stack mem roots (kept mem roots m)
  have hsame : traversal mem roots m = Worklist.loop (pointees mem (sizes (kept mem roots m)))
      m.keys.length (Worklist.push ∅ [] (rootRefs mem roots (sizes m))).1
      (Worklist.push ∅ [] (rootRefs mem roots (sizes m))).2 :=
    Worklist.loop_congr fun x hx => (pointees_kept mem roots m ((hpopped x).1 hx)).symm
  rw [hsame]
  unfold traversal at hstack ⊢
  rw [rootRefs_kept] at hstack ⊢
  exact (Worklist.loop_of_finished hle hstack).symm

/-- The marking of what was kept changes nothing. -/
theorem mark_kept : (mark mem roots (kept mem roots m)).1.1 = kept mem roots m := by
  have hlookup : ∀ y, (mark mem roots (kept mem roots m)).1.1.lookup y =
      (kept mem roots m).lookup y := by
    intro y
    rw [(mark_spec mem roots (kept mem roots m)).2.2.2, traversal_kept, rootRefs_kept]
    cases hy : (kept mem roots m).lookup y with
    | none => rfl
    | some alloc =>
      obtain ⟨hmark, hlive⟩ := (lookup_kept mem roots m).1 hy
      rw [(mark_spec mem roots m).2.2.2] at hmark
      obtain ⟨a, ha, rfl⟩ := Option.map_eq_some_iff.1 hmark
      have hsucc : ∀ x ∈ (traversal mem roots m).popped,
          pointees mem (sizes (kept mem roots m)) x = pointees mem (sizes m) x :=
        fun x hx => pointees_kept mem roots m (((popped_traversal mem roots m).2.1 x).1 hx)
      have hflat := List.flatMap_congr hsucc
      have hparents : parentsFrom (pointees mem (sizes (kept mem roots m)))
          (traversal mem roots m).popped y =
          parentsFrom (pointees mem (sizes m)) (traversal mem roots m).popped y :=
        List.flatMap_congr fun x hx => by rw [hsucc x hx]
      rw [Option.map_some, hflat, hparents]
  exact Dict.ext_keys (keys_mark mem roots (kept mem roots m)) hlookup

theorem filterEntries_kept :
    Dict.filterEntries (fun _ alloc => alloc.tmpAllocated) (kept mem roots m) =
      kept mem roots m := by
  apply AList.ext
  refine List.filter_eq_self.2 fun e he => ?_
  exact (List.mem_filter.1 he).2

end Kept

/-- **A collection after another one.**  With the same memory and the same roots, a second
collection or an update of the parents changes nothing, and a collection does not notice that the
parents were updated before. -/
theorem collect_again (w : WorkerThread) (frame frame' : UInt64) (only : Bool) (mem : Memory) :
    ((w.doGcInternal frame false mem).2.doGcInternal frame' only mem).2 =
        (w.doGcInternal frame false mem).2 ∧
      (w.doGcInternal frame true mem).2.doGcInternal frame' only mem =
        w.doGcInternal frame' only mem := by
  constructor
  · have hmark : (mark mem (w.doGcInternal frame false mem).2.roots
        (w.doGcInternal frame false mem).2.allocations).1.1 =
          (w.doGcInternal frame false mem).2.allocations :=
      mark_kept mem w.roots w.allocations
    have hfilter : Dict.filterEntries (fun _ alloc => alloc.tmpAllocated)
        (w.doGcInternal frame false mem).2.allocations =
          (w.doGcInternal frame false mem).2.allocations :=
      filterEntries_kept mem w.roots w.allocations
    have hfreed : ((w.doGcInternal frame false mem).2.allocations.entries.filter
        fun e => !e.2.tmpAllocated) = [] := by
      refine List.filter_eq_nil_iff.2 fun e he => ?_
      rw [← hfilter] at he
      simpa using (List.mem_filter.1 he).2
    generalize (w.doGcInternal frame false mem).2 = w' at *
    rw [doGcInternal, hmark]
    cases only with
    | true => rfl
    | false =>
      show ({ w' with workItems := w'.workItems.enqueueAll _, allocations := _ } :
        WorkerThread) = w'
      rw [hfilter, hfreed]
      rfl
  · have hmark : mark mem w.roots (mark mem w.roots w.allocations).1.1 =
        mark mem w.roots w.allocations := by
      rw [← mark_clearMarks, clearMarks_mark, mark_clearMarks]
    show doGcInternal { w with allocations := (mark mem w.roots w.allocations).1.1 } frame' only
      mem = w.doGcInternal frame' only mem
    rw [doGcInternal, doGcInternal, hmark]

end WorkerThread

end Owlcat
