import EnerSentry.Lib.Csv

/-!
The export of tables. A file begins with a byte order mark and goes on with one line for each
row; the stream takes all that it is given. What the rows add to the file is text of the
grammar for just these rows.
-/

namespace EnerSentry.Ui
open EnerSentry.Lib

/-- The marks as bytes. -/
def csvMarks : Csv.Marks UInt8 where
  comma := 0x2C
  quote := 0x22
  cr := 0x0D
  lf := 0x0A
  distinct := by decide

/-- The stream and what has gone into the file since it was last opened. -/
structure CsvWriter where
  isOpen : Bool := false
  out : List UInt8 := []

namespace CsvWriter

def kBom : List UInt8 := [0xEF, 0xBB, 0xBF]

def escapeField (field : List UInt8) : List UInt8 :=
  let needQuote := field.any fun c =>
    c == csvMarks.comma || c == csvMarks.quote || c == csvMarks.cr || c == csvMarks.lf
  if !needQuote then field
  else
    let out := field.foldl (fun out c => (if c == csvMarks.quote then out ++ [csvMarks.quote] else out) ++ [c])
      [csvMarks.quote]
    out ++ [csvMarks.quote]

/-- `opens` says whether the file can be opened. -/
def «open» (w : CsvWriter) (opens : Bool) : CsvWriter × Bool :=
  if w.isOpen then (w, false)
  else if !opens then (w, false)
  else ({ isOpen := true, out := kBom }, true)

/-- The line of a row goes to the end of the file, a comma before each field but the first. -/
def writeRow (w : CsvWriter) (fields : List (List UInt8)) : CsvWriter × Bool :=
  if !w.isOpen then (w, false)
  else
    let out := fields.zipIdx.foldl
      (fun out e => (if e.2 ≠ 0 then out ++ [csvMarks.comma] else out) ++ escapeField e.1) w.out
    ({ w with out := out ++ [csvMarks.cr, csvMarks.lf] }, true)

def close (w : CsvWriter) : CsvWriter := { w with isOpen := false }

/-- Rows written one after the other. -/
def writeRows (w : CsvWriter) (rows : List (List (List UInt8))) : CsvWriter :=
  rows.foldl (fun w fields => (w.writeRow fields).1) w

section Fields
variable {field : List UInt8}

theorem escape_loop (field out : List UInt8) :
    field.foldl (fun out c => (if c == csvMarks.quote then out ++ [csvMarks.quote] else out) ++ [c]) out =
      out ++ Csv.doubled csvMarks field := by
  induction field generalizing out with
  | nil => exact (List.append_nil out).symm
  | cons c field ih =>
    rw [List.foldl_cons, ih, Csv.doubled, Csv.doubled, List.flatMap_cons, ← List.append_assoc]
    congr 1
    by_cases quote : c = csvMarks.quote
    · rw [if_pos (beq_iff_eq.mpr quote), if_pos quote, List.append_assoc, List.singleton_append]
    · rw [if_neg (mt beq_iff_eq.mp quote), if_neg quote]

theorem needQuote_iff (field : List UInt8) :
    (field.any fun c => c == csvMarks.comma || c == csvMarks.quote || c == csvMarks.cr || c == csvMarks.lf) = true ↔
      ∃ c ∈ field, csvMarks.Special c := by
  rw [List.any_eq_true]
  apply exists_congr
  intro c
  apply and_congr_right
  intro _
  simp only [Bool.or_eq_true, beq_iff_eq, Csv.Marks.Special, or_assoc]

/-- An escaped field is a text of the field. -/
theorem field_escapeField (field : List UInt8) : Csv.Field csvMarks field (escapeField field) := by
  unfold escapeField
  simp only
  by_cases marked : ∃ c ∈ field, csvMarks.Special c
  · rw [(needQuote_iff field).mpr marked, escape_loop]
    exact Csv.Field.quoted field
  · rw [Bool.eq_false_iff.mpr (mt (needQuote_iff field).mp marked)]
    apply Csv.Field.plain
    intro c member special
    exact marked ⟨c, member, special⟩

/-- The later fields of a row come with a comma each. -/
theorem fields_loop (fields : List (List UInt8)) (i : Nat) (out : List UInt8) :
    (fields.zipIdx (i + 1)).foldl
        (fun out e => (if e.2 ≠ 0 then out ++ [csvMarks.comma] else out) ++ escapeField e.1) out =
      out ++ fields.flatMap fun field => csvMarks.comma :: escapeField field := by
  induction fields generalizing i out with
  | nil => exact (List.append_nil out).symm
  | cons field fields ih =>
    rw [List.zipIdx_cons, List.foldl_cons, ih, if_pos (Nat.succ_ne_zero i), List.flatMap_cons]
    simp only [List.append_assoc, List.cons_append, List.nil_append]

theorem record_fields (field : List UInt8) (fields : List (List UInt8)) :
    Csv.Record csvMarks (field :: fields)
      (escapeField field ++ fields.flatMap fun field => csvMarks.comma :: escapeField field) := by
  induction fields generalizing field with
  | nil =>
    rw [List.flatMap_nil, List.append_nil]
    exact Csv.Record.single (field_escapeField field)
  | cons next fields ih =>
    rw [List.flatMap_cons, List.cons_append]
    exact Csv.Record.cons (field_escapeField field) (ih next)

end Fields

section Rows
variable {w : CsvWriter}

/-- A row adds one line to the file, and the line is a text of the row. -/
theorem writeRow_line (opened : w.isOpen = true) {fields : List (List UInt8)} (some : fields ≠ []) :
    ∃ line, Csv.Record csvMarks fields line ∧
      w.writeRow fields = ({ w with out := w.out ++ line ++ [csvMarks.cr, csvMarks.lf] }, true) := by
  obtain ⟨field, rest, rfl⟩ := List.exists_cons_of_ne_nil some
  refine ⟨_, record_fields field rest, ?_⟩
  have first : (if (0 : Nat) ≠ 0 then w.out ++ [csvMarks.comma] else w.out) = w.out := if_neg (not_not.mpr rfl)
  rw [writeRow, opened, List.zipIdx_cons, List.foldl_cons, first, fields_loop, List.append_assoc]
  rfl

/-- Rows add text of the grammar for these rows. -/
theorem writeRows_records (opened : w.isOpen = true) {rows : List (List (List UInt8))}
    (filled : ∀ row ∈ rows, row ≠ []) :
    ∃ text, Csv.Records csvMarks rows text ∧ w.writeRows rows = { w with out := w.out ++ text } := by
  induction rows generalizing w with
  | nil =>
    refine ⟨[], Csv.Records.nil, ?_⟩
    rw [List.append_nil]
    rfl
  | cons row rows ih =>
    rw [List.forall_mem_cons] at filled
    obtain ⟨line, record, written⟩ := writeRow_line opened filled.1
    obtain ⟨text, records, after⟩ :=
      ih (w := { w with out := w.out ++ line ++ [csvMarks.cr, csvMarks.lf] }) opened filled.2
    refine ⟨line ++ csvMarks.cr :: csvMarks.lf :: text, Csv.Records.cons record records, ?_⟩
    rw [writeRows, List.foldl_cons, written, ← writeRows, after]
    simp only [List.append_assoc, List.cons_append, List.nil_append]

/-- What successive rows add to a file is parsed as these rows. -/
theorem csv_roundTrip (opened : w.isOpen = true) (rows : List (List (List UInt8))) (filled : ∀ row ∈ rows, row ≠ []) :
    ∃ text, (w.writeRows rows).out = w.out ++ text ∧ Csv.parse csvMarks text = some rows := by
  obtain ⟨text, records, written⟩ := writeRows_records opened filled
  refine ⟨text, ?_, Csv.parse_records records⟩
  rw [written]

/-- A row of an empty field, and one of a comma, two quotes and a line break. -/
theorem csv_roundTrip_marks :
    ∃ text, ((({} : CsvWriter).«open» true).1.writeRows [[[]], [[0x2C], [0x22, 0x22], [0x0D, 0x0A]]]).out =
        kBom ++ text ∧
      Csv.parse csvMarks text = some [[[]], [[0x2C], [0x22, 0x22], [0x0D, 0x0A]]] :=
  csv_roundTrip (w := (({} : CsvWriter).«open» true).1) rfl _ (by decide)

end Rows

end CsvWriter
end EnerSentry.Ui
