import Mathlib.Tactic

/-!
# Tables as text

Records of fields, one record a line, over any alphabet.  A field may stand between quotes, where a
quote is written twice.

* `Dialect`: the separator, the quote and the end of a line;
* `read`: the records of a text;
* `Cell`, `write`: fields as a program may write them, bare or between quotes, with nothing written
  twice;
* `read_write`: the text is read as the table if no field between quotes has a quote;
* `fits_of_read`: otherwise one of these fields is read as another.
-/

namespace Csv

/-- The signs of a table. -/
structure Dialect (α : Type) where
  sep : α
  quote : α
  newline : α
  quote_ne_sep : quote ≠ sep
  quote_ne_newline : quote ≠ newline
  sep_ne_newline : sep ≠ newline

variable {α : Type} [DecidableEq α]

namespace Dialect

variable (d : Dialect α)

/-! ### Reading -/

/-- The rest of a field between quotes, after the first one, and what comes after the field. -/
def readQuoted : List α → Option (List α × List α)
  | [] => none
  | [c] => if c = d.quote then some ([], []) else none
  | c :: c' :: l =>
    if c = d.quote then
      if c' = d.quote then (readQuoted l).map fun p => (c' :: p.1, p.2) else some ([], c' :: l)
    else (readQuoted (c' :: l)).map fun p => (c :: p.1, p.2)

/-- A field, and what comes after it. -/
def readField : List α → Option (List α × List α)
  | [] => some ([], [])
  | c :: l =>
    if c = d.quote then d.readQuoted l
    else some ((c :: l).span fun a => a ≠ d.sep ∧ a ≠ d.newline)

/-- At most `n` fields up to the end of a line, and what comes after it. -/
def readFields : ℕ → List α → Option (List (List α) × List α)
  | 0, _ => none
  | n + 1, l =>
    (d.readField l).bind fun (field, rest) =>
      match rest with
      | [] => none
      | c :: rest =>
        if c = d.sep then (readFields n rest).map fun p => (field :: p.1, p.2)
        else if c = d.newline then some ([field], rest)
        else none

/-- At most `n` records. -/
def readRecords : ℕ → List α → Option (List (List (List α)))
  | _, [] => some []
  | 0, _ :: _ => none
  | n + 1, c :: l =>
    (d.readFields (c :: l).length (c :: l)).bind fun (fields, rest) =>
      (readRecords n rest).map fun records => fields :: records

/-- The records of a text. -/
def read (l : List α) : Option (List (List (List α))) := d.readRecords l.length l

end Dialect

/-! ### Writing -/

/-- A field as it is written. -/
inductive Cell (α : Type)
  | bare (text : List α)
  | between (text : List α)

/-- The field that is meant. -/
def Cell.text : Cell α → List α
  | .bare text | .between text => text

namespace Dialect

variable (d : Dialect α)

def writeCell : Cell α → List α
  | .bare text => text
  | .between text => d.quote :: (text ++ [d.quote])

def writeRecord : List (Cell α) → List α
  | [] => []
  | [cell] => d.writeCell cell ++ [d.newline]
  | cell :: cell' :: cells => d.writeCell cell ++ d.sep :: writeRecord (cell' :: cells)

def write (records : List (List (Cell α))) : List α := records.flatMap d.writeRecord

/-- A bare field has no sign of the dialect. -/
def Bare : Cell α → Prop
  | .bare text => d.sep ∉ text ∧ d.quote ∉ text ∧ d.newline ∉ text
  | .between _ => True

/-- A field between quotes has no quote. -/
def Fits : Cell α → Prop
  | .bare _ => True
  | .between text => d.quote ∉ text

end Dialect

/-- The fields between quotes are read as they are meant. -/
def Keeps (cells : List (Cell α)) (fields : List (List α)) : Prop :=
  ∀ (i : ℕ) (text : List α), cells[i]? = some (.between text) → fields[i]? = some text

/-! ### Fields between quotes -/

namespace Dialect

variable {d : Dialect α}

/-- A text with its quotes written twice. -/
def escape (d : Dialect α) (text : List α) : List α :=
  text.flatMap fun c => if c = d.quote then [c, c] else [c]

theorem readQuoted_of_notMem {text rest : List α} {c : α} (h : d.quote ∉ text)
    (hc : c ≠ d.quote) : d.readQuoted (text ++ d.quote :: c :: rest) = some (text, c :: rest) := by
  induction text with
  | nil => simp [readQuoted, hc]
  | cons a text ih =>
    rw [List.mem_cons, not_or] at h
    have ha : a ≠ d.quote := Ne.symm h.1
    obtain ⟨b, l, hl⟩ : ∃ b l, text ++ d.quote :: c :: rest = b :: l := by
      cases text with
      | nil => exact ⟨_, _, rfl⟩
      | cons b text => exact ⟨_, _, rfl⟩
    rw [List.cons_append, hl, readQuoted, if_neg ha, ← hl, ih h.2]
    rfl

theorem eq_escape_of_readQuoted {l field rest : List α}
    (h : d.readQuoted l = some (field, rest)) : l = d.escape field ++ d.quote :: rest := by
  induction l using readQuoted.induct d generalizing field with
  | case1 => cases h
  | case2 =>
    rw [readQuoted, if_pos rfl] at h
    cases h
    rfl
  | case3 c hc =>
    rw [readQuoted, if_neg hc] at h
    cases h
  | case4 l ih =>
    rw [readQuoted, if_pos rfl, if_pos rfl] at h
    obtain ⟨⟨field', rest'⟩, hread, heq⟩ := Option.map_eq_some_iff.1 h
    cases heq
    rw [ih hread]
    simp [escape]
  | case5 c' l hc' =>
    rw [readQuoted, if_pos rfl, if_neg hc'] at h
    cases h
    rfl
  | case6 c c' l hc ih =>
    rw [readQuoted, if_neg hc] at h
    obtain ⟨⟨field', rest'⟩, hread, heq⟩ := Option.map_eq_some_iff.1 h
    cases heq
    rw [ih hread]
    simp [escape, hc]

/-- A text with a quote is not its own escaped form: each quote moves what follows it, and the
quote after the text comes too early. -/
theorem notMem_of_eq_escape {text rest rest' : List α} {c : α} (hc : c ≠ d.quote) {j : ℕ}
    (h : text ++ d.quote :: c :: rest =
      List.replicate j d.quote ++ (d.escape text ++ d.quote :: rest')) :
    j = 0 ∧ d.quote ∉ text := by
  induction text generalizing j with
  | nil =>
    cases j with
    | zero => exact ⟨rfl, List.not_mem_nil⟩
    | succ j =>
      exfalso
      rw [List.replicate_succ, List.cons_append, List.nil_append, List.cons_inj_right] at h
      cases j with
      | zero => exact hc (List.cons.inj h).1
      | succ j => exact hc (List.cons.inj h).1
  | cons a text ih =>
    by_cases ha : a = d.quote
    · -- one quote more is ahead than before
      exfalso
      rw [ha, escape, List.flatMap_cons, if_pos rfl, List.cons_append] at h
      have hahead : List.replicate j d.quote ++
          ([d.quote, d.quote] ++ (d.escape text) ++ d.quote :: rest') =
          d.quote :: (List.replicate (j + 1) d.quote ++ (d.escape text ++ d.quote :: rest')) := by
        rw [← List.cons_append, ← List.replicate_succ, List.replicate_add, List.replicate_add]
        simp [List.append_assoc]
      rw [escape] at hahead
      rw [hahead, List.cons_inj_right] at h
      exact absurd (ih h).1 (Nat.succ_ne_zero j)
    · cases j with
      | zero =>
        rw [escape, List.flatMap_cons, if_neg ha, List.replicate_zero, List.nil_append,
          List.cons_append, List.append_assoc, List.singleton_append, List.cons_inj_right] at h
        refine ⟨rfl, List.not_mem_cons_of_ne_of_not_mem (Ne.symm ha) ?_⟩
        exact (ih (j := 0) h).2
      | succ j =>
        rw [List.replicate_succ, List.cons_append, List.cons_append] at h
        exact absurd (List.cons.inj h).1 ha

theorem notMem_of_readQuoted {text rest rest' : List α} {c : α} (hc : c ≠ d.quote)
    (h : d.readQuoted (text ++ d.quote :: c :: rest) = some (text, rest')) : d.quote ∉ text :=
  (notMem_of_eq_escape (j := 0) hc (eq_escape_of_readQuoted h)).2

/-! ### Fields -/

/-- What ends a field. -/
def Ends (d : Dialect α) (c : α) : Prop := c = d.sep ∨ c = d.newline

omit [DecidableEq α] in
theorem Ends.ne_quote {c : α} (h : d.Ends c) : c ≠ d.quote := by
  rcases h with rfl | rfl
  · exact d.quote_ne_sep.symm
  · exact d.quote_ne_newline.symm

theorem readField_writeCell {cell : Cell α} {rest : List α} {c : α} (hbare : d.Bare cell)
    (hfits : d.Fits cell) (hc : d.Ends c) :
    d.readField (d.writeCell cell ++ c :: rest) = some (cell.text, c :: rest) := by
  cases cell with
  | between text =>
    rw [writeCell, List.cons_append, readField, if_pos rfl, List.append_assoc,
      List.singleton_append, readQuoted_of_notMem hfits hc.ne_quote]
    rfl
  | bare text =>
    obtain ⟨hsep, hquote, hnewline⟩ := hbare
    have hend : ¬(c ≠ d.sep ∧ c ≠ d.newline) := by
      rcases hc with rfl | rfl
      · exact fun h => h.1 rfl
      · exact fun h => h.2 rfl
    have hspan : (text ++ c :: rest).span (fun a => a ≠ d.sep ∧ a ≠ d.newline) =
        (text, c :: rest) := by
      have hall : ∀ a ∈ text, decide (a ≠ d.sep ∧ a ≠ d.newline) = true := fun a ha =>
        decide_eq_true ⟨fun h => hsep (h ▸ ha), fun h => hnewline (h ▸ ha)⟩
      rw [List.span_eq_takeWhile_dropWhile, List.takeWhile_append_of_pos hall,
        List.dropWhile_append_of_pos hall, List.takeWhile_cons_of_neg (by simpa using hend),
        List.dropWhile_cons_of_neg (by simpa using hend), List.append_nil]
    show d.readField (text ++ c :: rest) = some (text, c :: rest)
    rw [← hspan]
    cases text with
    | nil => exact if_neg hc.ne_quote
    | cons a text =>
      have ha : a ≠ d.quote := fun h => hquote (h ▸ List.mem_cons_self)
      exact if_neg ha

theorem fits_of_readField {cell : Cell α} {field rest rest' : List α} {c : α} (hc : d.Ends c)
    (h : d.readField (d.writeCell cell ++ c :: rest) = some (field, rest'))
    (hkeeps : ∀ text, cell = .between text → field = text) : d.Fits cell := by
  cases cell with
  | bare text => trivial
  | between text =>
    rw [writeCell, List.cons_append, readField, if_pos rfl, List.append_assoc,
      List.singleton_append, hkeeps text rfl] at h
    exact notMem_of_readQuoted hc.ne_quote h

/-! ### Records -/

omit [DecidableEq α] in
theorem length_le_writeRecord (cells : List (Cell α)) :
    cells.length ≤ (d.writeRecord cells).length := by
  induction cells using writeRecord.induct with
  | case1 => exact Nat.le_refl 0
  | case2 cell => simp [writeRecord]
  | case3 cell cell' cells ih =>
    rw [writeRecord, List.length_append, List.length_cons, List.length_cons (a := d.sep)]
    omega

theorem readFields_writeRecord {cells : List (Cell α)} {rest : List α} (hne : cells ≠ [])
    (hbare : ∀ cell ∈ cells, d.Bare cell) (hfits : ∀ cell ∈ cells, d.Fits cell) {n : ℕ}
    (hn : cells.length ≤ n) :
    d.readFields n (d.writeRecord cells ++ rest) = some (cells.map Cell.text, rest) := by
  induction cells using writeRecord.induct generalizing n with
  | case1 => exact absurd rfl hne
  | case2 cell =>
    obtain ⟨n, rfl⟩ := Nat.exists_eq_add_of_le' hn
    rw [writeRecord, List.append_assoc, List.singleton_append, List.length_singleton, readFields,
      readField_writeCell (hbare cell List.mem_cons_self) (hfits cell List.mem_cons_self)
        (.inr rfl), Option.bind_some]
    simp [d.sep_ne_newline.symm]
  | case3 cell cell' cells ih =>
    obtain ⟨n, rfl⟩ := Nat.exists_eq_add_of_le' (le_trans (Nat.le_add_left 1 _) hn)
    rw [writeRecord, List.append_assoc, List.cons_append, readFields,
      readField_writeCell (hbare cell List.mem_cons_self) (hfits cell List.mem_cons_self)
        (.inl rfl), Option.bind_some]
    have hrest := ih (List.cons_ne_nil _ _) (fun b hb => hbare b (List.mem_cons_of_mem _ hb))
      (fun b hb => hfits b (List.mem_cons_of_mem _ hb)) (Nat.le_of_succ_le_succ hn)
    simp [hrest]

theorem readFields_cases {n : ℕ} {l rest : List α} {fields : List (List α)}
    (h : d.readFields n l = some (fields, rest)) :
    ∃ m field c rest', n = m + 1 ∧ d.readField l = some (field, c :: rest') ∧
      ((c = d.sep ∧ ∃ fields', d.readFields m rest' = some (fields', rest) ∧
          fields = field :: fields') ∨
        c = d.newline ∧ fields = [field] ∧ rest' = rest) := by
  cases n with
  | zero => cases h
  | succ m =>
    rw [readFields] at h
    obtain ⟨⟨field, l'⟩, hread, h⟩ := Option.bind_eq_some_iff.1 h
    cases l' with
    | nil => cases h
    | cons c rest' =>
      refine ⟨m, field, c, rest', rfl, hread, ?_⟩
      dsimp only at h
      split at h
      · next hsep =>
        obtain ⟨⟨fields', rest''⟩, hfields, heq⟩ := Option.map_eq_some_iff.1 h
        cases heq
        exact .inl ⟨hsep, fields', hfields, rfl⟩
      · split at h
        · next hnewline =>
          cases h
          exact .inr ⟨hnewline, rfl, rfl⟩
        · cases h

/-- **A field between quotes that does not fit is read as another one**: the first of them is read
from its beginning. -/
theorem fits_of_readFields {cells : List (Cell α)} {fields : List (List α)} {rest rest' : List α}
    (hbare : ∀ cell ∈ cells, d.Bare cell) {n : ℕ}
    (h : d.readFields n (d.writeRecord cells ++ rest) = some (fields, rest'))
    (hkeeps : Keeps cells fields) : ∀ cell ∈ cells, d.Fits cell := by
  induction cells using writeRecord.induct generalizing n fields with
  | case1 => exact fun cell hcell => absurd hcell List.not_mem_nil
  | case2 cell =>
    obtain ⟨m, field, c, l, -, hread, hcase⟩ := readFields_cases h
    have hfield : ∀ text, cell = .between text → field = text := by
      intro text htext
      have hhead := hkeeps 0 text (congrArg some htext)
      rcases hcase with ⟨-, fields', -, rfl⟩ | ⟨-, rfl, -⟩
      all_goals exact Option.some.inj hhead
    rw [writeRecord, List.append_assoc, List.singleton_append] at hread
    intro b hb
    rw [List.mem_singleton.1 hb]
    exact fits_of_readField (.inr rfl) hread hfield
  | case3 cell cell' cells ih =>
    obtain ⟨m, field, c, l, -, hread, hcase⟩ := readFields_cases h
    have hfield : ∀ text, cell = .between text → field = text := by
      intro text htext
      have hhead := hkeeps 0 text (congrArg some htext)
      rcases hcase with ⟨-, fields', -, rfl⟩ | ⟨-, rfl, -⟩
      all_goals exact Option.some.inj hhead
    rw [writeRecord, List.append_assoc, List.cons_append] at hread
    have hfits := fits_of_readField (.inl rfl) hread hfield
    rw [readField_writeCell (hbare cell List.mem_cons_self) hfits (.inl rfl)] at hread
    cases hread
    intro b hb
    rcases List.mem_cons.1 hb with rfl | hb
    · exact hfits
    · rcases hcase with ⟨-, fields', hfields, rfl⟩ | ⟨hnewline, -, -⟩
      · exact ih (fun b hb => hbare b (List.mem_cons_of_mem _ hb)) hfields
          (fun i text hi => hkeeps (i + 1) text hi) b hb
      · exact absurd hnewline d.sep_ne_newline

/-! ### Tables -/

variable {records : List (List (Cell α))}

omit [DecidableEq α] in
theorem length_le_write (hne : ∀ cells ∈ records, cells ≠ []) :
    records.length ≤ (d.write records).length := by
  induction records with
  | nil => exact Nat.le_refl 0
  | cons cells records ih =>
    have hpos := List.length_pos_iff.2 (hne cells List.mem_cons_self)
    have hcells := length_le_writeRecord (d := d) cells
    have hrest := ih fun b hb => hne b (List.mem_cons_of_mem _ hb)
    rw [write] at hrest
    rw [write, List.flatMap_cons, List.length_append, List.length_cons]
    omega

omit [DecidableEq α] in
theorem writeRecord_ne_nil {cells : List (Cell α)} (hne : cells ≠ []) :
    d.writeRecord cells ≠ [] := by
  intro hnil
  have hle := length_le_writeRecord (d := d) cells
  rw [hnil] at hle
  exact hne (List.eq_nil_of_length_eq_zero (Nat.le_zero.1 hle))

theorem readRecords_write (hne : ∀ cells ∈ records, cells ≠ [])
    (hbare : ∀ cells ∈ records, ∀ cell ∈ cells, d.Bare cell)
    (hfits : ∀ cells ∈ records, ∀ cell ∈ cells, d.Fits cell) {n : ℕ}
    (hn : records.length ≤ n) :
    d.readRecords n (d.write records) = some (records.map (List.map Cell.text)) := by
  induction records generalizing n with
  | nil =>
    cases n
    all_goals rfl
  | cons cells records ih =>
    obtain ⟨n, rfl⟩ := Nat.exists_eq_add_of_le' (le_trans (Nat.le_add_left 1 _) hn)
    have hcells := hne cells List.mem_cons_self
    obtain ⟨c, l, hl⟩ := List.exists_cons_of_ne_nil (writeRecord_ne_nil (d := d) hcells)
    have hread : d.readFields (d.write (cells :: records)).length (d.write (cells :: records)) =
        some (cells.map Cell.text, d.write records) := by
      refine readFields_writeRecord hcells (hbare cells List.mem_cons_self)
        (hfits cells List.mem_cons_self) ?_
      rw [write, List.flatMap_cons, List.length_append]
      exact (length_le_writeRecord cells).trans (Nat.le_add_right _ _)
    have hwrite : d.write (cells :: records) = c :: (l ++ d.write records) := by
      rw [write, List.flatMap_cons, hl]
      rfl
    rw [hwrite] at hread ⊢
    have hrest := ih (fun b hb => hne b (List.mem_cons_of_mem _ hb))
      (fun b hb => hbare b (List.mem_cons_of_mem _ hb))
      (fun b hb => hfits b (List.mem_cons_of_mem _ hb)) (Nat.le_of_succ_le_succ hn)
    rw [readRecords, hread, Option.bind_some]
    dsimp only
    rw [hrest]
    rfl

/-- **A table is read as it is meant** if no field between quotes has a quote. -/
theorem read_write (hne : ∀ cells ∈ records, cells ≠ [])
    (hbare : ∀ cells ∈ records, ∀ cell ∈ cells, d.Bare cell)
    (hfits : ∀ cells ∈ records, ∀ cell ∈ cells, d.Fits cell) :
    d.read (d.write records) = some (records.map (List.map Cell.text)) :=
  readRecords_write hne hbare hfits (length_le_write hne)

theorem fits_of_readRecords (hne : ∀ cells ∈ records, cells ≠ [])
    (hbare : ∀ cells ∈ records, ∀ cell ∈ cells, d.Bare cell) {n : ℕ}
    {result : List (List (List α))} (h : d.readRecords n (d.write records) = some result)
    (hkeeps : List.Forall₂ Keeps records result) :
    ∀ cells ∈ records, ∀ cell ∈ cells, d.Fits cell := by
  induction hkeeps generalizing n with
  | nil => exact fun cells hcells => absurd hcells List.not_mem_nil
  | @cons cells fields records result hfields hrest ih =>
    have hcells := hne cells List.mem_cons_self
    obtain ⟨c, l, hl⟩ := List.exists_cons_of_ne_nil (writeRecord_ne_nil (d := d) hcells)
    have hwrite : d.write (cells :: records) = c :: (l ++ d.write records) := by
      rw [write, List.flatMap_cons, hl]
      rfl
    cases n with
    | zero =>
      rw [hwrite] at h
      cases h
    | succ n =>
      rw [hwrite, readRecords, ← hwrite] at h
      obtain ⟨⟨fields', rest⟩, hread, h⟩ := Option.bind_eq_some_iff.1 h
      obtain ⟨result', hresult, heq⟩ := Option.map_eq_some_iff.1 h
      cases heq
      have hfits := fits_of_readFields (hbare cells List.mem_cons_self) hread hfields
      have hn : cells.length ≤ (d.write (cells :: records)).length := by
        rw [write, List.flatMap_cons, List.length_append]
        exact (length_le_writeRecord cells).trans (Nat.le_add_right _ _)
      have hread' : d.readFields (d.write (cells :: records)).length
          (d.writeRecord cells ++ d.write records) =
            some (cells.map Cell.text, d.write records) :=
        readFields_writeRecord hcells (hbare cells List.mem_cons_self) hfits hn
      have hsame : rest = d.write records := by
        have := hread.symm.trans hread'
        simpa using (congrArg (Option.map Prod.snd) this)
      rw [hsame] at hresult
      intro b hb
      rcases List.mem_cons.1 hb with rfl | hb
      · exact hfits
      · exact ih (fun b hb => hne b (List.mem_cons_of_mem _ hb))
          (fun b hb => hbare b (List.mem_cons_of_mem _ hb)) hresult b hb

/-- **If all fields between quotes are read as they are meant, they have no quotes.** -/
theorem fits_of_read (hne : ∀ cells ∈ records, cells ≠ [])
    (hbare : ∀ cells ∈ records, ∀ cell ∈ cells, d.Bare cell) {result : List (List (List α))}
    (h : d.read (d.write records) = some result)
    (hkeeps : List.Forall₂ Keeps records result) :
    ∀ cells ∈ records, ∀ cell ∈ cells, d.Fits cell :=
  fits_of_readRecords hne hbare h hkeeps

end Dialect

end Csv
