import OwlcatMonoProfiler.Library.Csv
import OwlcatMonoProfiler.Ui.LiveLists

/-!
# Exporting the list of types

`export_to_csv` of `live_objects_data.cpp`, and what a reader of such files finds in the file.

* `exportToCsv`: the file, which is written in the order of the types, not of the list;
* `readExport`: the table a reader of the format makes of it;
* `readExport_iff`: when it is the one that was meant;
* `exported_of_run`: then it is the list that is shown.
-/

namespace Owlcat

open LiveObjectsData

namespace LiveLists

/-! ### The file -/

/-- `%I64u` -/
def decimal (n : UInt64) : List UInt8 := (Nat.toDigits 10 n.toNat).map Char.toUInt8

/-- `export_to_csv`; the names have no zero in them. -/
def exportToCsv (names : UInt64 → List UInt8) (types : List TypeData) : List UInt8 :=
  (CString.ofLit "Type;Count;Size\n").bytes ++ types.flatMap fun t =>
    (CString.ofLit "\"").bytes ++ names t.type ++ (CString.ofLit "\";").bytes ++
      decimal t.count ++ (CString.ofLit ";").bytes ++ decimal t.size ++ (CString.ofLit "\n").bytes

/-! ### A reader -/

/-- Fields between semicolons. -/
def semicolons : Csv.Dialect UInt8 where
  sep := 59
  quote := 34
  newline := 10
  quote_ne_sep := by decide
  quote_ne_newline := by decide
  sep_ne_newline := by decide

/-- The number that is written. -/
def ofDecimal (text : List UInt8) : ℕ :=
  Nat.ofDigitChars 10 (text.map fun c => Char.ofNat c.toNat) 0

/-- A line of the table. -/
structure Line where
  name : Option (List UInt8)
  count : Option ℕ
  size : Option ℕ
  deriving DecidableEq

def ofFields (fields : List (List UInt8)) : Line :=
  ⟨fields[0]?, fields[1]?.map ofDecimal, fields[2]?.map ofDecimal⟩

/-- The lines of the table after the first one. -/
def readExport (file : List UInt8) : Option (List Line) :=
  (semicolons.read file).map fun records => records.tail.map ofFields

/-- The line that is meant for a row of the list. -/
def lineOf (names : UInt64 → List UInt8) (r : TypeRow) : Line :=
  ⟨some (names r.type), some r.count.toNat, some r.size.toNat⟩

/-- The row of a type in the list. -/
def toRow (t : TypeData) : TypeRow := ⟨t.type, t.count, t.size⟩

/-! ### Numbers -/

theorem toNat_digit {n : ℕ} {c : Char} (h : c ∈ Nat.toDigits 10 n) :
    c.toUInt8.toNat = c.toNat ∧ 48 ≤ c.toNat ∧ c.toNat ≤ 57 := by
  have hdigit := Char.isDigit_iff_toNat.1 (Nat.isDigit_of_mem_toDigits (by decide) (by decide) h)
  have hmod : c.toUInt8.toNat = c.toNat % 2 ^ 8 := UInt32.toNat_toUInt8 c.val
  have hle : c.toNat ≤ 57 := hdigit.2
  rw [Nat.mod_eq_of_lt (by omega)] at hmod
  exact ⟨hmod, hdigit⟩

theorem ofDecimal_decimal (n : UInt64) : ofDecimal (decimal n) = n.toNat := by
  have hid : (decimal n).map (fun c => Char.ofNat c.toNat) = Nat.toDigits 10 n.toNat := by
    rw [decimal, List.map_map]
    refine (List.map_congr_left fun c hc => ?_).trans (List.map_id _)
    rw [Function.comp_apply, (toNat_digit hc).1, Char.ofNat_toNat, id]
  rw [ofDecimal, hid, Nat.ofDigitChars_ten_toDigits]

theorem bare_decimal (n : UInt64) : semicolons.Bare (.bare (decimal n)) := by
  have hmem : ∀ b ∈ decimal n, 48 ≤ b.toNat ∧ b.toNat ≤ 57 := by
    intro b hb
    obtain ⟨c, hc, rfl⟩ := List.mem_map.1 hb
    obtain ⟨hbyte, hdigit⟩ := toNat_digit hc
    rwa [hbyte]
  exact ⟨fun h => absurd (hmem _ h) (by decide), fun h => absurd (hmem _ h) (by decide),
    fun h => absurd (hmem _ h) (by decide)⟩

/-! ### The table -/

section Table

variable (names : UInt64 → List UInt8) (types : List TypeData)

def headerCells : List (Csv.Cell UInt8) :=
  [.bare (CString.ofLit "Type").bytes, .bare (CString.ofLit "Count").bytes,
    .bare (CString.ofLit "Size").bytes]

def rowCells (t : TypeData) : List (Csv.Cell UInt8) :=
  [.between (names t.type), .bare (decimal t.count), .bare (decimal t.size)]

def tableCells : List (List (Csv.Cell UInt8)) := headerCells :: types.map (rowCells names)

/-- The file is a table in the dialect, with nothing written twice. -/
theorem exportToCsv_eq : exportToCsv names types = semicolons.write (tableCells names types) := by
  have hheader : (CString.ofLit "Type;Count;Size\n").bytes =
      semicolons.writeRecord headerCells := by decide
  rw [exportToCsv, hheader, tableCells, Csv.Dialect.write, List.flatMap_cons, List.flatMap_map]
  congr 2
  funext t
  have h1 : (CString.ofLit "\"").bytes = [34] := by decide
  have h2 : (CString.ofLit "\";").bytes = [34, 59] := by decide
  have h3 : (CString.ofLit ";").bytes = [59] := by decide
  have h4 : (CString.ofLit "\n").bytes = [10] := by decide
  rw [h1, h2, h3, h4]
  simp [rowCells, Csv.Dialect.writeRecord, Csv.Dialect.writeCell, semicolons]

theorem bare_tableCells : ∀ cells ∈ tableCells names types, ∀ cell ∈ cells,
    semicolons.Bare cell := by
  intro cells hcells cell hcell
  rcases List.mem_cons.1 hcells with rfl | hcells
  · simp only [headerCells, List.mem_cons, List.not_mem_nil, or_false] at hcell
    rcases hcell with rfl | rfl | rfl
    all_goals
      unfold Csv.Dialect.Bare
      decide
  · obtain ⟨t, -, rfl⟩ := List.mem_map.1 hcells
    simp only [rowCells, List.mem_cons, List.not_mem_nil, or_false] at hcell
    rcases hcell with rfl | rfl | rfl
    · trivial
    · exact bare_decimal _
    · exact bare_decimal _

theorem tableCells_ne_nil : ∀ cells ∈ tableCells names types, cells ≠ [] := by
  intro cells hcells
  rcases List.mem_cons.1 hcells with rfl | hcells
  · exact List.cons_ne_nil _ _
  · obtain ⟨t, -, rfl⟩ := List.mem_map.1 hcells
    exact List.cons_ne_nil _ _

/-- **The file is read as the table that was meant** exactly when no name has a quote. -/
theorem readExport_iff :
    readExport (exportToCsv names types) = some ((types.map toRow).map (lineOf names)) ↔
      ∀ t ∈ types, 34 ∉ names t.type := by
  rw [exportToCsv_eq]
  constructor
  · intro h
    obtain ⟨result, hread, hrows⟩ := Option.map_eq_some_iff.1 h
    cases result with
    | nil =>
      intro t ht
      rw [List.map_eq_nil_iff.1 (List.map_eq_nil_iff.1 hrows.symm)] at ht
      cases ht
    | cons header rows =>
      have heq : List.Forall₂ (· = ·) ((types.map toRow).map (lineOf names))
          (rows.map ofFields) := by
        rw [List.forall₂_eq_eq_eq]
        exact hrows.symm
      rw [List.map_map, List.forall₂_map_left_iff, List.forall₂_map_right_iff] at heq
      have hkeeps : List.Forall₂ Csv.Keeps (tableCells names types) (header :: rows) := by
        refine List.Forall₂.cons (fun i text hi => ?_) (List.forall₂_map_left_iff.2 ?_)
        · have hmem := List.mem_of_getElem? hi
          simp [headerCells] at hmem
        · refine heq.imp fun t fields hfields i text hi => ?_
          rcases i with _ | _ | _ | i
          · cases hi
            exact (congrArg Line.name hfields).symm
          all_goals simp [rowCells] at hi
      have hfits := Csv.Dialect.fits_of_read (tableCells_ne_nil names types)
        (bare_tableCells names types) hread hkeeps
      intro t ht
      exact hfits (rowCells names t) (List.mem_cons_of_mem _ (List.mem_map_of_mem ht))
        (.between (names t.type)) List.mem_cons_self
  · intro h
    have hfits : ∀ cells ∈ tableCells names types, ∀ cell ∈ cells, semicolons.Fits cell := by
      intro cells hcells cell hcell
      rcases List.mem_cons.1 hcells with rfl | hcells
      · simp only [headerCells, List.mem_cons, List.not_mem_nil, or_false] at hcell
        rcases hcell with rfl | rfl | rfl
        all_goals trivial
      · obtain ⟨t, ht, rfl⟩ := List.mem_map.1 hcells
        simp only [rowCells, List.mem_cons, List.not_mem_nil, or_false] at hcell
        rcases hcell with rfl | rfl | rfl
        · exact h t ht
        · trivial
        · trivial
    rw [readExport, Csv.Dialect.read_write (tableCells_ne_nil names types)
      (bare_tableCells names types) hfits, Option.map_some, tableCells, List.map_cons,
      List.tail_cons, List.map_map, List.map_map, List.map_map]
    congr 1
    refine List.map_congr_left fun t _ => ?_
    simp [ofFields, lineOf, toRow, rowCells, Csv.Cell.text, ofDecimal_decimal]

end Table

/-! ### Exporting what is shown -/

/-- The list of types shows the types that are exported. -/
theorem rows_perm {objs : List LiveObject} {m : ByTypeModel} (h : ShowsTypes objs m) :
    m.rows.Perm ((addObjects objs).types.map toRow) := by
  have hnodup : ((addObjects objs).types.map toRow).Nodup := by
    refine List.Nodup.of_map TypeRow.type ?_
    rw [List.map_map, types_addObjects, List.map_map]
    exact (List.map_id _).symm ▸ Grouping.nodup_eraseDups _
  refine (List.perm_ext_iff_of_nodup (List.Nodup.of_map _ h.nodup) hnodup).2 fun r => ?_
  rw [h.mem_rows, List.mem_map]
  constructor
  · rintro ⟨o, ho, rfl⟩
    exact ⟨_, mem_types.2 ⟨o, ho, rfl⟩, rfl⟩
  · rintro ⟨t, ht, rfl⟩
    obtain ⟨o, ho, rfl⟩ := mem_types.1 ht
    exact ⟨o, ho, rfl⟩

/-- **What is exported is what is shown**: once the lists are enabled, the rows the worker has made
are those of the list of types, and the file is read as these rows, in the order the worker has
them in, with their names, exactly when none of the names has a quote. -/
theorem exported_of_run {s t : LiveLists} {w : Worker} {data : Recorder} {before l : List Action}
    (hbefore : Run.run step {} before = some s) (hworker : s.worker = some w)
    (hdata : s.data.data = some data) (hid : ∀ o ∈ w.objects data, o.typeId < 0x80000000)
    (hl : ∀ a ∈ l, a.picks = false) (hrun : Run.run step s (.run :: l) = some t)
    (henabled : t.enabled = true) :
    (t.data.types.map toRow).Perm t.types.rows ∧
      (readExport (exportToCsv t.getTypeName t.data.types) =
          some ((t.data.types.map toRow).map (lineOf t.getTypeName)) ↔
        ∀ r ∈ t.types.rows, 34 ∉ t.getTypeName r.type) := by
  have hquiet : s.Quiet := Run.run_invariant (P := fun _ _ => True)
    (fun _ _ _ h _ hstep => quiet_step h hstep) (by simp [Quiet])
    (Run.along_of_forall (fun _ _ => trivial) _ _) hbefore
  obtain ⟨u, hu, hrun⟩ := Option.bind_eq_some_iff.1 hrun
  have hcomputed := computed_run hid (computed_runWorker hquiet hworker hdata hu) hl hrun
  have hperm := rows_perm (hcomputed.shows henabled).1
  rw [← hcomputed.types] at hperm
  refine ⟨hperm.symm, (readExport_iff t.getTypeName t.data.types).trans
    ⟨fun h r hr => ?_, fun h x hx => ?_⟩⟩
  · obtain ⟨x, hx, rfl⟩ := List.mem_map.1 (hperm.mem_iff.1 hr)
    exact h x hx
  · exact h (toRow x) (hperm.mem_iff.2 (List.mem_map_of_mem hx))

theorem exported_of_run_sortedTwice :
    ∃ t, Run.run step {} ([.init (some threeObjects),
        .calculateLiveObjects 1 2 fun _ _ => true] ++ .run :: listed) = some t ∧
      (t.data.types.map toRow).Perm [⟨4, 1, 48⟩, ⟨3, 2, 48⟩] ∧
      readExport (exportToCsv t.getTypeName t.data.types) =
        some ((t.data.types.map toRow).map (lineOf t.getTypeName)) := by
  let s : LiveLists := calculateLiveObjects { data := { data := some threeObjects } } 1 2
    fun _ _ => true
  have hshown : (Run.run step s (.run :: listed)).map
      (fun t => (t.enabled, t.types.rows, t.types.rows.map fun r => t.getTypeName r.type)) =
        some (true, [⟨4, 1, 48⟩, ⟨3, 2, 48⟩], [[], []]) := by
    decide +kernel
  obtain ⟨t, hrun, ht⟩ := Option.map_eq_some_iff.1 hshown
  rw [Prod.mk.injEq, Prod.mk.injEq] at ht
  have hbefore : Run.run step {} [.init (some threeObjects),
      .calculateLiveObjects 1 2 fun _ _ => true] = some s := rfl
  obtain ⟨hperm, hiff⟩ :=
    exported_of_run hbefore rfl rfl (by decide +kernel) (by decide) hrun ht.1
  refine ⟨t, hrun, ht.2.1 ▸ hperm, hiff.2 fun r hr => ?_⟩
  have hmem : t.getTypeName r.type ∈ t.types.rows.map fun r => t.getTypeName r.type :=
    List.mem_map_of_mem hr
  rw [ht.2.2] at hmem
  simp only [List.mem_cons, List.not_mem_nil, or_false, or_self] at hmem
  rw [hmem]
  exact List.not_mem_nil

end LiveLists

end Owlcat
