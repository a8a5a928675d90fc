import Mathlib.Data.List.Basic
import Mathlib.Tactic.Common

/-!
Comma-separated values after RFC 4180, over any alphabet that has the four marks. The grammar
says which texts stand for which records, and the parser is a machine that goes through a
text once. A line break ends a record; the last record may do without one.
-/

namespace EnerSentry.Lib.Csv

variable {α : Type*}

/-- The four characters with a meaning of their own. -/
structure Marks (α : Type*) where
  comma : α
  quote : α
  cr : α
  lf : α
  distinct : [comma, quote, cr, lf].Nodup

namespace Marks
variable (m : Marks α)

def Special (c : α) : Prop := c = m.comma ∨ c = m.quote ∨ c = m.cr ∨ c = m.lf

theorem quote_ne_comma : m.quote ≠ m.comma := by
  have distinct := m.distinct
  simp only [List.nodup_cons, List.mem_cons, not_or] at distinct
  exact Ne.symm distinct.1.1

theorem cr_ne_comma : m.cr ≠ m.comma := by
  have distinct := m.distinct
  simp only [List.nodup_cons, List.mem_cons, not_or] at distinct
  exact Ne.symm distinct.1.2.1

theorem cr_ne_quote : m.cr ≠ m.quote := by
  have distinct := m.distinct
  simp only [List.nodup_cons, List.mem_cons, not_or] at distinct
  exact Ne.symm distinct.2.1.1

end Marks

section Grammar
variable [DecidableEq α] (m : Marks α)

/-- The inside of a quoted field. -/
def doubled (field : List α) : List α := field.flatMap fun c => if c = m.quote then [m.quote, c] else [c]

/-- The texts of a field: as it is, if it has no marks, or between quotes. -/
inductive Field : List α → List α → Prop where
  | plain (field : List α) (clean : ∀ c ∈ field, ¬m.Special c) : Field field field
  | quoted (field : List α) : Field field (m.quote :: (doubled m field ++ [m.quote]))

/-- The texts of a record without its line break. -/
inductive Record : List (List α) → List α → Prop where
  | single {field text : List α} (first : Field m field text) : Record [field] text
  | cons {field text : List α} {fields : List (List α)} {rest : List α} (first : Field m field text)
      (others : Record fields rest) : Record (field :: fields) (text ++ m.comma :: rest)

/-- The texts of records that each end in a line break. -/
inductive Records : List (List (List α)) → List α → Prop where
  | nil : Records [] []
  | cons {record : List (List α)} {text : List α} {records : List (List (List α))} {rest : List α}
      (first : Record m record text) (others : Records records rest) :
      Records (record :: records) (text ++ m.cr :: m.lf :: rest)

end Grammar

/-- Where in a record the parser is: before a field, in it, between its quotes, behind a quote
in it, or behind the first character of the line break. -/
inductive Place where
  | start | plain | quoted | closed | ended
  deriving DecidableEq, Repr

structure Parser (α : Type*) where
  place : Place := .start
  field : List α := []
  record : List (List α) := []
  records : List (List (List α)) := []

namespace Parser

/-- Behind a field, at the start of the next one. -/
def nextField (p : Parser α) : Parser α :=
  { p with place := .start, field := [], record := p.record ++ [p.field] }

/-- Behind a record, at the start of the next one. -/
def nextRecord (p : Parser α) : Parser α := { records := p.records ++ [p.record ++ [p.field]] }

def add (p : Parser α) (place : Place) (c : α) : Parser α := { p with place := place, field := p.field ++ [c] }

variable [DecidableEq α] (m : Marks α)

/-- One character; `none` where the grammar does not allow it. -/
def step (p : Parser α) (c : α) : Option (Parser α) :=
  match p.place with
  | .quoted => if c = m.quote then some { p with place := .closed } else some (p.add .quoted c)
  | .ended => if c = m.lf then some p.nextRecord else none
  | .closed =>
      if c = m.comma then some p.nextField
      else if c = m.quote then some (p.add .quoted c)
      else if c = m.cr then some { p with place := .ended }
      else none
  | .plain =>
      if c = m.comma then some p.nextField
      else if c = m.quote then none
      else if c = m.cr then some { p with place := .ended }
      else if c = m.lf then none
      else some (p.add .plain c)
  | .start =>
      if c = m.comma then some p.nextField
      else if c = m.quote then some { p with place := .quoted }
      else if c = m.cr then some { p with place := .ended }
      else if c = m.lf then none
      else some (p.add .plain c)

def run (p : Parser α) (text : List α) : Option (Parser α) := text.foldlM (step m) p

/-- At the end of the text a record that has begun is complete, unless a quote or a line break is not. -/
def finish (p : Parser α) : Option (List (List (List α))) :=
  match p.place with
  | .quoted => none
  | .ended => none
  | .start => if p.record.isEmpty then some p.records else some (p.records ++ [p.record ++ [p.field]])
  | _ => some (p.records ++ [p.record ++ [p.field]])

end Parser

def parse [DecidableEq α] (m : Marks α) (text : List α) : Option (List (List (List α))) :=
  (Parser.run m {} text).bind Parser.finish

namespace Parser
variable [DecidableEq α] {m : Marks α} {p q : Parser α} {field text rest : List α}

/-- The parser has read a field that may end here. -/
def Holding (p : Parser α) : Prop := p.place ≠ .quoted ∧ p.place ≠ .ended

theorem run_append (first : p.run m text = some q) (rest : List α) : p.run m (text ++ rest) = q.run m rest := by
  rw [run, List.foldlM_append]
  rw [run] at first
  rw [first]
  rfl

theorem run_cons {c : α} (first : p.step m c = some q) (text : List α) : p.run m (c :: text) = q.run m text := by
  rw [run, List.foldlM_cons, first]
  rfl

theorem step_comma (holding : p.Holding) : p.step m m.comma = some p.nextField := by
  unfold step
  cases place : p.place with
  | quoted => exact absurd place holding.1
  | ended => exact absurd place holding.2
  | start => exact if_pos rfl
  | plain => exact if_pos rfl
  | closed => exact if_pos rfl

theorem step_ordinary {c : α} (ordinary : ¬m.Special c) (outside : p.place = .start ∨ p.place = .plain) :
    p.step m c = some (p.add .plain c) := by
  rw [Marks.Special, not_or, not_or, not_or] at ordinary
  unfold step
  cases outside with
  | inl start =>
    simp only [start, if_neg ordinary.1, if_neg ordinary.2.1, if_neg ordinary.2.2.1, if_neg ordinary.2.2.2]
  | inr plain =>
    simp only [plain, if_neg ordinary.1, if_neg ordinary.2.1, if_neg ordinary.2.2.1, if_neg ordinary.2.2.2]

/-- A line break behind a field ends the record. -/
theorem run_break (holding : p.Holding) (rest : List α) :
    p.run m (m.cr :: m.lf :: rest) = p.nextRecord.run m rest := by
  have ends : p.step m m.cr = some { p with place := .ended } := by
    unfold step
    cases place : p.place with
    | quoted => exact absurd place holding.1
    | ended => exact absurd place holding.2
    | start => simp only [if_neg m.cr_ne_comma, if_neg m.cr_ne_quote, if_true]
    | plain => simp only [if_neg m.cr_ne_comma, if_neg m.cr_ne_quote, if_true]
    | closed => simp only [if_neg m.cr_ne_comma, if_neg m.cr_ne_quote, if_true]
  have breaks : ({ p with place := .ended } : Parser α).step m m.lf = some p.nextRecord := if_pos rfl
  rw [run_cons ends, run_cons breaks]

/-- Characters without a meaning of their own go into the field. -/
theorem run_clean (clean : ∀ c ∈ text, ¬m.Special c) (inside : p.place = .plain) :
    p.run m text = some { p with field := p.field ++ text } := by
  induction text generalizing p with
  | nil => rw [List.append_nil]; rfl
  | cons c text ih =>
    rw [List.forall_mem_cons] at clean
    have rest := ih (p := p.add .plain c) clean.2 rfl
    rw [run_cons (step_ordinary clean.1 (Or.inr inside)), rest, add, List.append_assoc, ← inside]
    rfl

/-- Between quotes a doubled quote stands for one, and every other character for itself. -/
theorem run_doubled (inside : p.place = .quoted) (field : List α) :
    p.run m (doubled m field) = some { p with field := p.field ++ field } := by
  induction field generalizing p with
  | nil => rw [List.append_nil]; rfl
  | cons c field ih =>
    have one : p.run m (if c = m.quote then [m.quote, c] else [c]) = some (p.add .quoted c) := by
      by_cases quote : c = m.quote
      · have first : p.step m m.quote = some { p with place := .closed } := by simp only [step, inside, if_true]
        have second : ({ p with place := .closed } : Parser α).step m m.quote = some (p.add .quoted m.quote) := by
          simp only [step, if_neg m.quote_ne_comma, if_true]
          rfl
        rw [if_pos quote, quote, run_cons first, run_cons second]
        rfl
      · have first : p.step m c = some (p.add .quoted c) := by simp only [step, inside, if_neg quote]
        rw [if_neg quote, run_cons first]
        rfl
    have rest := ih (p := p.add .quoted c) rfl
    rw [doubled, List.flatMap_cons, run_append one, ← doubled, rest, add, List.append_assoc, ← inside]
    rfl

/-- A field without marks leaves the parser in it, or where it was if it is empty. -/
theorem run_plain (clean : ∀ c ∈ field, ¬m.Special c) (start : p.place = .start) :
    ∃ q, p.run m field = some q ∧ q.Holding ∧ q.field = p.field ++ field ∧ q.record = p.record ∧
      q.records = p.records := by
  cases field with
  | nil =>
    have holding : p.Holding := by
      rw [Holding, start]
      decide
    exact ⟨p, rfl, holding, (List.append_nil _).symm, rfl, rfl⟩
  | cons c field =>
    rw [List.forall_mem_cons] at clean
    have rest := run_clean (p := p.add .plain c) clean.2 rfl
    have holding : ({ p.add .plain c with field := (p.add .plain c).field ++ field } : Parser α).Holding :=
      ⟨Place.noConfusion, Place.noConfusion⟩
    refine ⟨_, (run_cons (step_ordinary clean.1 (Or.inl start)) field).trans rest, holding, ?_, rfl, rfl⟩
    rw [add, List.append_assoc, List.singleton_append]

/-- A field between quotes leaves the parser behind the closing one. -/
theorem run_quoted (start : p.place = .start) (field : List α) :
    p.run m (m.quote :: (doubled m field ++ [m.quote])) =
      some { p with place := .closed, field := p.field ++ field } := by
  have opens : p.step m m.quote = some { p with place := .quoted } := by
    simp only [step, start, if_neg m.quote_ne_comma, if_true]
  have within := run_doubled (m := m) (p := { p with place := .quoted }) rfl field
  have closes : ({ p with place := .quoted, field := p.field ++ field } : Parser α).step m m.quote =
      some { p with place := .closed, field := p.field ++ field } := if_pos rfl
  calc p.run m (m.quote :: (doubled m field ++ [m.quote]))
      = ({ p with place := .quoted } : Parser α).run m (doubled m field ++ [m.quote]) := run_cons opens _
    _ = ({ p with place := .quoted, field := p.field ++ field } : Parser α).run m [m.quote] :=
        run_append within [m.quote]
    _ = some { p with place := .closed, field := p.field ++ field } := run_cons closes []

/-- Any text of a field is read as that field. -/
theorem run_field (grammar : Field m field text) (start : p.place = .start) (empty : p.field = []) :
    ∃ q, p.run m text = some q ∧ q.Holding ∧ q.field = field ∧ q.record = p.record ∧ q.records = p.records := by
  cases grammar with
  | plain clean =>
    obtain ⟨q, ran, holding, held, record, records⟩ := run_plain clean start
    exact ⟨q, ran, holding, by rw [held, empty, List.nil_append], record, records⟩
  | quoted =>
    refine ⟨_, run_quoted start field, ⟨Place.noConfusion, Place.noConfusion⟩, ?_, rfl, rfl⟩
    rw [empty, List.nil_append]

/-- Any text of a record is read as that record, with its last field not yet ended. -/
theorem run_record {fields : List (List α)} (grammar : Record m fields text) (start : p.place = .start)
    (empty : p.field = []) :
    ∃ q, p.run m text = some q ∧ q.Holding ∧ q.record ++ [q.field] = p.record ++ fields ∧ q.records = p.records := by
  induction grammar generalizing p with
  | single first =>
    obtain ⟨q, ran, holding, field, record, records⟩ := run_field first start empty
    exact ⟨q, ran, holding, by rw [field, record], records⟩
  | cons first others ih =>
    rename_i field text fields rest
    obtain ⟨q, ran, holding, held, record, records⟩ := run_field first start empty
    obtain ⟨r, onward, holding', fields', records'⟩ := ih (p := q.nextField) rfl rfl
    refine ⟨r, ?_, holding', ?_, ?_⟩
    · rw [run_append ran, run_cons (step_comma holding), onward]
    · rw [fields', nextField, held, record, List.append_assoc, List.singleton_append]
    · rw [records', nextField, records]

/-- Any text of records is read as these records. -/
theorem run_records {rows : List (List (List α))} (grammar : Records m rows text) (done : List (List (List α))) :
    run m { records := done } text = some { records := done ++ rows } := by
  induction grammar generalizing done with
  | nil => rw [List.append_nil]; rfl
  | cons first others ih =>
    rename_i record text rows rest
    obtain ⟨q, ran, holding, fields, records⟩ := run_record (p := { records := done }) first rfl rfl
    have next : q.nextRecord = { records := done ++ [record] } := by
      rw [nextRecord, fields, records, List.nil_append]
    rw [run_append ran, run_break holding, next, ih, List.append_assoc, List.singleton_append]

end Parser

/-- Every text that the grammar gives for some records is parsed as these records. -/
theorem parse_records [DecidableEq α] {m : Marks α} {rows : List (List (List α))} {text : List α}
    (grammar : Records m rows text) : parse m text = some rows := by
  rw [parse, Parser.run_records grammar [], Option.bind_some, List.nil_append]
  rfl

end EnerSentry.Lib.Csv
