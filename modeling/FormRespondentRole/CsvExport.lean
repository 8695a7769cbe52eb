import FormRespondentRole.AdminRuns
import FormRespondentRole.Foundations.Csv

/-!
# The CSV export

The document that `responses_csv` builds reads back as the rows that were written
(`csv_reads_back`): a cell is quoted just when it holds a comma, a quote or the end of a line, and
its quotes are doubled.
-/

namespace FormRespondentRole

open Foundations

namespace Admin

variable {a s : Text} {cells : List Text} {rows : List (List Text)}

/-! ### Cells and rows -/

theorem read_csvEscape (hs : Csv.Ends s) :
    Csv.readFrom .start (csvEscape a ++ s) = (Csv.readFrom .closed s).map (.prepend a) := by
  rw [csvEscape]
  split
  · rw [List.cons_append, List.cons_append, List.append_assoc, List.singleton_append]
    exact Csv.readFrom_quoted a s
  · rename_i hplain
    simp only [not_or] at hplain
    exact Csv.readFrom_plain hplain (Or.inl rfl) hs

private theorem csvRow_cons (hcells : cells ≠ []) :
    csvRow (a :: cells) = csvEscape a ++ ',' :: csvRow cells := by
  obtain ⟨b, cells, rfl⟩ := List.exists_cons_of_ne_nil hcells
  simp only [csvRow, List.map_cons, List.intercalate_cons_cons, List.append_assoc, List.cons_append,
    List.nil_append]

/-- A row is read to its end, whatever follows. -/
theorem read_csvRow (a : Text) (cells : List Text) (s : Text) :
    Csv.readFrom .start (csvRow (a :: cells) ++ s) =
      if s = [] then some ⟨a, cells, []⟩ else (Csv.readFrom .start s).map fun r =>
        ⟨a, cells, r.row :: r.rows⟩ := by
  induction cells generalizing a with
  | nil =>
    have hrow : csvRow [a] ++ s = csvEscape a ++ '\n' :: s := by simp [csvRow]
    rw [hrow, read_csvEscape (Or.inr rfl), Csv.readFrom_line]
    split
    · rw [Option.map_some, Csv.Rest.prepend, List.append_nil]
    · rw [Option.map_map]
      refine congrFun (congrArg Option.map (funext fun r => ?_)) _
      simp only [Function.comp_apply, Csv.Rest.prepend, Csv.Rest.afterLine, List.append_nil]
  | cons b cells ih =>
    rw [csvRow_cons (List.cons_ne_nil b cells), List.append_assoc, List.cons_append,
      read_csvEscape (Or.inl rfl),
      Csv.readFrom_comma, ih]
    split
    · simp [Csv.Rest.prepend, Csv.Rest.afterComma, Csv.Rest.row]
    · rw [Option.map_map, Option.map_map]
      refine congrFun (congrArg Option.map (funext fun r => ?_)) _
      simp only [Function.comp_apply, Csv.Rest.prepend, Csv.Rest.afterComma, Csv.Rest.row,
        List.append_nil]

/-- A document of rows, none of them without cells, reads as its rows. -/
theorem read_csvRows (hrows : ∀ cells ∈ rows, cells ≠ []) :
    Csv.read (rows.flatMap csvRow) = some rows := by
  induction rows with
  | nil => rfl
  | cons cells rows ih =>
    obtain ⟨a, cells, rfl⟩ := List.exists_cons_of_ne_nil (hrows cells List.mem_cons_self)
    have hrest := ih fun cells hmem => hrows cells (List.mem_cons_of_mem _ hmem)
    have hne : csvRow (a :: cells) ++ rows.flatMap csvRow ≠ [] := by simp [csvRow]
    rw [Csv.read] at hrest
    rw [List.flatMap_cons, Csv.read, if_neg hne, read_csvRow]
    split at hrest
    · rename_i hempty
      rw [if_pos hempty, ← Option.some.inj hrest]
      rfl
    · rename_i hmore
      rw [if_neg hmore, Option.map_map]
      obtain ⟨r, hr, hrows'⟩ := Option.map_eq_some_iff.1 hrest
      rw [hr, ← hrows']
      rfl

/-! ### The document -/

section

variable {libs : AdminLibs} {guildId formId : Text} {clock : Nat → Instant} {u : Uuid}
  {d : Database} {form : Form} {schema : FormSchema}

private theorem length_csvCells (libs : AdminLibs) (isQuiz : Bool) (answerable : List Question)
    (row : FormResponse) :
    (csvCells libs isQuiz answerable row).length = (csvHeader isQuiz answerable).length := by
  cases isQuiz <;> simp [csvCells, csvHeader]

private theorem csvHeader_ne_nil (isQuiz : Bool) (answerable : List Question) :
    csvHeader isQuiz answerable ≠ [] :=
  List.cons_ne_nil _ _

private theorem csvCells_ne_nil (isQuiz : Bool) (answerable : List Question) (row : FormResponse) :
    csvCells libs isQuiz answerable row ≠ [] := List.cons_ne_nil _ _

/-- The export reads back as its header and one row for each response in order, each with a cell for
every column. -/
theorem csv_reads_back (hu : libs.parseUuid formId = some u) (hform : d.form? u guildId = some form)
    (hschema : libs.schemaFromValue form.schema = .ok schema) :
    ∃ name body, (responsesCsv libs guildId formId).exec (calm clock) ⟨d, none, 0⟩ =
      (.ok (name, body), ⟨d, none, 2⟩) ∧
      Csv.read body = some (csvHeader form.isQuiz schema.iterQuestions ::
        (d.answer (.selectResponses formId)).map (csvCells libs form.isQuiz schema.iterQuestions)) ∧
      ∀ cells ∈ (d.answer (.selectResponses formId)).map
      (csvCells libs form.isQuiz schema.iterQuestions),
        cells.length = (csvHeader form.isQuiz schema.iterQuestions).length := by
  have hexec := @exec_responsesCsv libs clock guildId formId u d hu
  rw [hform] at hexec
  dsimp only at hexec
  rw [hschema] at hexec
  refine ⟨_, _, hexec, ?_, ?_⟩
  · have hrows : ∀ cells ∈ csvHeader form.isQuiz schema.iterQuestions ::
        (d.answer (.selectResponses formId)).map (csvCells libs form.isQuiz schema.iterQuestions),
            cells ≠ [] := by
      intro cells hcells
      rcases List.mem_cons.1 hcells with rfl | hcells
      · exact csvHeader_ne_nil _ _
      · obtain ⟨row, -, rfl⟩ := List.mem_map.1 hcells
        exact csvCells_ne_nil _ _ row
    have hdocument := read_csvRows hrows
    rw [List.flatMap_cons, List.flatMap_map] at hdocument
    exact hdocument
  · intro cells hcells
    obtain ⟨row, -, rfl⟩ := List.mem_map.1 hcells
    exact length_csvCells libs _ _ row

end

/-! ### A title that needs quotes -/

def quotedTitle : Text := "Name, \"nick\"\nor both".toList

def titledAdminLibs : AdminLibs :=
  { plainAdminLibs with
    schemaFromValue := fun _ =>
      .ok { pages := [{ id := ['p'],
                        questions := [{ id := ['q'], kind := .shortText,
                                        title := quotedTitle }] }] } }

theorem csv_reads_back_quoted :
    ∃ name body, (responsesCsv titledAdminLibs ['g'] surveyId.text).exec (calm fun _ => 0)
    ⟨surveyDatabase, none, 0⟩ =
        (.ok (name, body), ⟨surveyDatabase, none, 2⟩) ∧
      Csv.read body = some
      [["discord_id".toList, "submitted_at".toList, "last_edited_at".toList, quotedTitle],
        [['m'], "1970-01-01T00:00:00+00:00".toList, "1970-01-01T00:00:00+00:00".toList, []]] := by
  have hid : titledAdminLibs.parseUuid surveyId.text = some surveyId :=
    Uuid.parseHyphenated_text surveyId
  obtain ⟨form, hform⟩ : ∃ form, surveyDatabase.form? surveyId ['g'] = some form := ⟨_, rfl⟩
  obtain ⟨name, body, hexec, hread, -⟩ :=
    @csv_reads_back titledAdminLibs ['g'] surveyId.text (fun _ => 0) surveyId
    surveyDatabase form _ hid hform rfl
  cases hform
  exact ⟨name, body, hexec, hread⟩

end Admin

end FormRespondentRole
