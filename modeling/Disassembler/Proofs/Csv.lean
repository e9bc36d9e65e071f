import Disassembler.Csv
import Mathlib.Data.List.Induction

/-!
# Reading comma-separated records

A table can be written in several ways, as each field may stand between quotation marks. A machine
reads a text character by character, and gives records exactly if the text is a table of them. So a
text is a table of one list of records at most, and a table that is printed is one of its records.
-/

namespace Disassembler.Csv

/-- How a field is written: as it is, or between quotation marks. It has to stand between quotation
marks if a special character is in it. -/
inductive FieldWritten : List Char → List Char → Prop where
  /-- A field without special characters, as it is. -/
  | plain {text : List Char} : (∀ c ∈ text, isSpecial c = false) → FieldWritten text text
  /-- A field between quotation marks, where each one inside it is written twice. -/
  | quoted (text : List Char) : FieldWritten text ('"' :: (double text ++ ['"']))

/-- How the first fields of a record are written, each with a comma behind it. -/
inductive FieldsWritten : List String → List Char → Prop where
  /-- There are none. -/
  | nil : FieldsWritten [] []
  /-- One more field behind the others. -/
  | snoc {texts : List String} {chars text written : List Char} : FieldsWritten texts chars →
      FieldWritten text written →
      FieldsWritten (texts ++ [String.ofList text]) (chars ++ written ++ [','])

/-- How records are written, each with a line feed behind its last field. -/
inductive Written : List (List String) → List Char → Prop where
  /-- There are none. -/
  | nil : Written [] []
  /-- One more record behind the others. -/
  | snoc {records : List (List String)} {texts : List String}
      {chars fields text written : List Char} : Written records chars →
      FieldsWritten texts fields → FieldWritten text written →
      Written (records ++ [texts ++ [String.ofList text]]) (chars ++ fields ++ written ++ ['\n'])

/-- Where the machine stands between two characters. -/
inductive Place where
  /-- At the start of a field. -/
  | start
  /-- Inside a field without quotation marks. -/
  | plain
  /-- Between quotation marks. -/
  | quoted
  /-- Behind a quotation mark that may end the field. -/
  | closed
  /-- Behind a character that no table has there. -/
  | broken
  deriving DecidableEq

/-- The machine: where it stands, and what it has read of the field, of the record and of the
table. -/
structure Reader where
  /-- Where it stands. -/
  place : Place := .start
  /-- The characters of the field. -/
  field : List Char := []
  /-- The fields of the record before this one. -/
  fields : List String := []
  /-- The records before this one. -/
  records : List (List String) := []

namespace Reader

/-- Adds a character to the field. -/
def push (reader : Reader) (place : Place) (c : Char) : Reader :=
  { reader with place := place, field := reader.field ++ [c] }

/-- Ends the field at a comma, and the record at a line feed. -/
def separate (reader : Reader) (c : Char) : Reader :=
  let fields := reader.fields ++ [String.ofList reader.field]
  if c = ',' then { fields := fields, records := reader.records }
  else if c = '\n' then { records := reader.records ++ [fields] }
  else { reader with place := .broken }

/-- Takes one character. -/
def step (reader : Reader) (c : Char) : Reader :=
  match reader.place with
  | .start =>
    if c = '"' then { reader with place := .quoted }
    else if isSpecial c then reader.separate c
    else reader.push .plain c
  | .plain => if isSpecial c then reader.separate c else reader.push .plain c
  | .quoted => if c = '"' then { reader with place := .closed } else reader.push .quoted c
  | .closed => if c = '"' then reader.push .quoted c else reader.separate c
  | .broken => reader

/-- The records at the end of a text, which has to be behind a line feed. -/
def finish (reader : Reader) : Option (List (List String)) :=
  if reader.place = .start ∧ reader.fields = [] then some reader.records else none

end Reader

/-- The records of a text, if it is a table. -/
def read? (text : List Char) : Option (List (List String)) := (text.foldl Reader.step {}).finish

variable {text chars written : List Char} {texts : List String} {records : List (List String)}

/-- Quotation marks are written twice in each part of a text. -/
theorem double_append (first second : List Char) :
    double (first ++ second) = double first ++ double second := by
  induction first with
  | nil => rfl
  | cons c rest ih =>
    rw [List.cons_append, double, double, ih]
    by_cases quote : c = '"'
    · rw [if_pos quote, if_pos quote]
      rfl
    · rw [if_neg quote, if_neg quote]
      rfl

/-- A character that is no quotation mark is written once. -/
theorem double_singleton {c : Char} (noQuote : c ≠ '"') : double [c] = [c] := if_neg noQuote

namespace Reader

/-- A field is read as it is up to its first special character. -/
theorem foldl_plain (plain : ∀ c ∈ text, isSpecial c = false) (nonempty : text ≠ [])
    (reader : Reader) (atField : reader.place = .start ∨ reader.place = .plain) :
    text.foldl step reader =
      { reader with place := .plain, field := reader.field ++ text } := by
  induction text generalizing reader with
  | nil => exact absurd rfl nonempty
  | cons c rest ih =>
    obtain ⟨first, others⟩ := List.forall_mem_cons.mp plain
    have noQuote : c ≠ '"' := by
      rintro rfl
      cases first
    have taken : reader.step c = reader.push .plain c := by
      rcases atField with place | place <;> simp [step, place, first, noQuote]
    rw [List.foldl_cons, taken]
    by_cases last : rest = []
    · rw [last]
      rfl
    · rw [ih others last _ (Or.inr rfl)]
      simp [push]

/-- Between quotation marks a text is read with each quotation mark inside it written twice. -/
theorem foldl_double (text before : List Char) (texts : List String)
    (records : List (List String)) :
    (double text).foldl step ⟨.quoted, before, texts, records⟩ =
      ⟨.quoted, before ++ text, texts, records⟩ := by
  induction text generalizing before with
  | nil => rw [double, List.foldl_nil, List.append_nil]
  | cons c rest ih =>
    rw [double]
    by_cases quote : c = '"'
    · rw [if_pos quote, quote]
      refine (ih (before ++ ['"'])).trans ?_
      rw [List.append_assoc]
      rfl
    · have taken : step ⟨.quoted, before, texts, records⟩ c =
          ⟨.quoted, before ++ [c], texts, records⟩ := by
        simp [step, quote, push]
      rw [if_neg quote, List.foldl_cons, taken, ih, List.append_assoc]
      rfl

/-- A field and what separates it from the next one are read. -/
theorem foldl_field (field : FieldWritten text written) (texts : List String)
    (records : List (List String)) {c : Char} (separator : c = ',' ∨ c = '\n') :
    (written ++ [c]).foldl step ⟨.start, [], texts, records⟩ =
      separate ⟨.start, text, texts, records⟩ c := by
  rw [List.foldl_append, List.foldl_cons, List.foldl_nil]
  cases field with
  | plain plain =>
    by_cases empty : text = []
    · rw [empty]
      rcases separator with rfl | rfl <;> rfl
    · rw [foldl_plain plain empty _ (Or.inl rfl)]
      rcases separator with rfl | rfl <;> rfl
  | quoted =>
    have opened : step ⟨.start, [], texts, records⟩ '"' = ⟨.quoted, [], texts, records⟩ := rfl
    rw [List.foldl_cons, opened, List.foldl_append, foldl_double]
    rcases separator with rfl | rfl <;> rfl

/-- Fields with commas behind them are read. -/
theorem foldl_fields (fields : FieldsWritten texts chars) (records : List (List String)) :
    chars.foldl step ⟨.start, [], [], records⟩ = ⟨.start, [], texts, records⟩ := by
  induction fields with
  | nil => rfl
  | snoc _ field ih =>
    rw [List.append_assoc, List.foldl_append, ih, foldl_field field _ _ (Or.inl rfl)]
    rfl

/-- Records with line feeds behind them are read. -/
theorem foldl_written (table : Written records chars) :
    chars.foldl step {} = ⟨.start, [], [], records⟩ := by
  induction table with
  | nil => rfl
  | snoc _ fields field ih =>
    rw [List.append_assoc, List.append_assoc, List.foldl_append, ih, List.foldl_append,
      foldl_fields fields, foldl_field field _ _ (Or.inr rfl)]
    rfl

/-- What the machine has read when it stands at a place. -/
inductive Has : Reader → List Char → Prop where
  /-- At the start of a field it has read records and fields. -/
  | start {chars fields : List Char} {texts : List String} {records : List (List String)} :
      Written records chars → FieldsWritten texts fields →
      Has ⟨.start, [], texts, records⟩ (chars ++ fields)
  /-- Inside a field without quotation marks it has read the characters of the field too. -/
  | plain {chars fields text : List Char} {texts : List String} {records : List (List String)} :
      Written records chars → FieldsWritten texts fields → (∀ c ∈ text, isSpecial c = false) →
      Has ⟨.plain, text, texts, records⟩ (chars ++ fields ++ text)
  /-- Between quotation marks it has read the first one too. -/
  | quoted {chars fields : List Char} {texts : List String} {records : List (List String)}
      (text : List Char) : Written records chars → FieldsWritten texts fields →
      Has ⟨.quoted, text, texts, records⟩ (chars ++ fields ++ '"' :: double text)
  /-- Behind a quotation mark it has read that too. -/
  | closed {chars fields : List Char} {texts : List String} {records : List (List String)}
      (text : List Char) : Written records chars → FieldsWritten texts fields →
      Has ⟨.closed, text, texts, records⟩ (chars ++ fields ++ ('"' :: (double text ++ ['"'])))
  /-- Behind a character that no table has it has read anything. -/
  | broken {chars text : List Char} {texts : List String} {records : List (List String)} :
      Has ⟨.broken, text, texts, records⟩ chars

/-- A field is complete at a comma or a line feed behind it. -/
theorem has_separate {fields : List Char} (table : Written records chars)
    (before : FieldsWritten texts fields) (field : FieldWritten text written) (place : Place)
    (c : Char) :
    Has (separate ⟨place, text, texts, records⟩ c) (chars ++ fields ++ written ++ [c]) := by
  unfold separate
  by_cases comma : c = ','
  · rw [if_pos comma, comma, List.append_assoc, List.append_assoc, ← List.append_assoc fields]
    exact .start table (before.snoc field)
  · rw [if_neg comma]
    by_cases newLine : c = '\n'
    · have complete := Has.start (table.snoc before field) .nil
      rw [List.append_nil] at complete
      rw [if_pos newLine, newLine]
      exact complete
    · rw [if_neg newLine]
      exact .broken

/-- Each character keeps what the machine has read. -/
theorem Has.step {reader : Reader} (has : reader.Has chars) (c : Char) :
    (reader.step c).Has (chars ++ [c]) := by
  cases has with
  | @start chars fields texts records table before =>
    dsimp only [Reader.step]
    by_cases quote : c = '"'
    · rw [if_pos quote, quote]
      exact .quoted [] table before
    · rw [if_neg quote]
      by_cases special : isSpecial c = true
      · have separated := has_separate table before
          (FieldWritten.plain (List.forall_mem_nil _)) .start c
        rw [List.append_nil] at separated
        rw [if_pos special]
        exact separated
      · rw [if_neg special]
        exact .plain table before (List.forall_mem_singleton.mpr (eq_false_of_ne_true special))
  | @plain chars fields text texts records table before plain =>
    dsimp only [Reader.step]
    by_cases special : isSpecial c = true
    · rw [if_pos special]
      exact has_separate table before (.plain plain) .plain c
    · rw [if_neg special, List.append_assoc]
      refine .plain table before (List.forall_mem_append.mpr ⟨plain, ?_⟩)
      exact List.forall_mem_singleton.mpr (eq_false_of_ne_true special)
  | @quoted chars fields texts records text table before =>
    dsimp only [Reader.step]
    rw [List.append_assoc, List.cons_append]
    by_cases quote : c = '"'
    · rw [if_pos quote, quote]
      exact .closed text table before
    · have further : double (text ++ [c]) = double text ++ [c] := by
        rw [double_append, double_singleton quote]
      rw [if_neg quote, ← further]
      exact .quoted (text ++ [c]) table before
  | @closed chars fields texts records text table before =>
    dsimp only [Reader.step]
    by_cases quote : c = '"'
    · have again : double (text ++ ['"']) = double text ++ ['"'] ++ ['"'] := by
        rw [double_append, List.append_assoc]
        rfl
      rw [if_pos quote, quote, List.append_assoc, List.cons_append, ← again]
      exact .quoted (text ++ ['"']) table before
    · rw [if_neg quote]
      exact has_separate table before (.quoted text) .closed c
  | broken => exact .broken

/-- What the machine has read at the end of a text is the text. -/
theorem has_foldl (text : List Char) : (text.foldl step {}).Has text := by
  have behind (reader : Reader) (before : List Char) (has : reader.Has before) :
      (text.foldl Reader.step reader).Has (before ++ text) := by
    induction text generalizing reader before with
    | nil =>
      rw [List.append_nil]
      exact has
    | cons c rest ih =>
      rw [List.append_cons]
      exact ih _ _ (has.step c)
  exact behind {} [] (.start .nil .nil)

/-- At the end of a table the machine has read its records. -/
theorem Has.finish {reader : Reader} (has : reader.Has chars)
    (finished : reader.finish = some records) : Written records chars := by
  unfold Reader.finish at finished
  split at finished
  · rename_i ended
    cases has with
    | start table before =>
      obtain ⟨-, rfl⟩ := ended
      cases finished
      generalize none : ([] : List String) = texts at before
      cases before with
      | nil =>
        rw [List.append_nil]
        exact table
      | snoc _ _ => simp at none
    | plain _ _ _ | quoted _ _ _ | closed _ _ _ | broken => cases ended.1
  · cases finished

end Reader

/-- A text is read as records exactly if it is a table of them. -/
theorem read?_eq_some_iff : read? chars = some records ↔ Written records chars := by
  constructor
  · exact (Reader.has_foldl chars).finish
  · intro table
    rw [read?, Reader.foldl_written table]
    rfl

/-- A field is printed as fields are written. -/
theorem fieldWritten_field (text : List Char) : FieldWritten text (field text) := by
  unfold field
  by_cases special : text.any isSpecial = true
  · rw [if_pos special]
    exact .quoted text
  · rw [if_neg special]
    refine .plain fun c among => ?_
    simp only [List.any_eq_true, not_exists, not_and] at special
    exact eq_false_of_ne_true (special c among)

/-- The fields of a record are printed with commas behind all but the last one. -/
theorem fields_append_singleton (texts : List String) (text : String) :
    fields (texts ++ [text]) =
      texts.flatMap (fun text => field text.toList ++ [',']) ++ field text.toList := by
  induction texts with
  | nil => rfl
  | cons first rest ih =>
    have split : fields (first :: (rest ++ [text])) =
        field first.toList ++ ',' :: fields (rest ++ [text]) := by
      cases rest <;> rfl
    rw [List.cons_append, split, ih, List.flatMap_cons, List.append_assoc, List.append_assoc]
    rfl

/-- Fields are printed with commas behind them as fields are written. -/
theorem fieldsWritten_flatMap (texts : List String) :
    FieldsWritten texts (texts.flatMap fun text => field text.toList ++ [',']) := by
  induction texts using List.reverseRecOn with
  | nil => exact .nil
  | append_singleton texts text ih =>
    have more := ih.snoc (fieldWritten_field text.toList)
    rw [String.ofList_toList] at more
    rw [List.flatMap_append, List.flatMap_singleton, ← List.append_assoc]
    exact more

/-- A printed table is a table of its records, as long as each of them has a field. -/
theorem written_table (nonempty : ∀ texts ∈ records, texts ≠ []) :
    Written records (table records) := by
  induction records using List.reverseRecOn with
  | nil => exact .nil
  | append_singleton records texts ih =>
    obtain ⟨others, some⟩ := List.forall_mem_append.mp nonempty
    obtain empty | ⟨initial, last, rfl⟩ := List.eq_nil_or_concat texts
    · exact absurd empty (some texts (List.mem_singleton_self _))
    · have more := (ih others).snoc (fieldsWritten_flatMap initial)
        (fieldWritten_field last.toList)
      rw [String.ofList_toList] at more
      rw [table, List.flatMap_append, List.flatMap_singleton, record,
        List.concat_eq_append, fields_append_singleton]
      simp only [List.append_assoc] at more ⊢
      exact more

end Disassembler.Csv
