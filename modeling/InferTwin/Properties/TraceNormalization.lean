import InferTwin.Trace.Normalizer

namespace InferTwin

open Effect

/-- A dictionary that is written key by key. -/
theorem Dict.lookup_of_keys {κ ν : Type} [DecidableEq κ] (f : κ → ν) (keys : List κ) (key : κ) :
    Finmap.lookup key (Dict.ofPairs (keys.map fun key ↦ (key, f key))) =
      if key ∈ keys then some (f key) else none := by
  induction keys using List.reverseRecOn with
  | nil => simp [Dict.ofPairs]
  | append_singleton keys last ih =>
    rw [List.map_append, List.map_singleton, Dict.of_pairs_concat]
    rcases eq_or_ne key last with rfl | hne
    · rw [Finmap.lookup_insert, if_pos (by simp)]
    · rw [Finmap.lookup_insert_of_ne _ hne, ih]
      simp [hne]

theorem CsvTable.row_written (fieldnames : List String) (value : String → String)
    {column : String} (h : column ∈ fieldnames) :
    (CsvTable.row fieldnames (fieldnames.map value)).cell column = some (value column) := by
  have hpairs : fieldnames.zip ((fieldnames.map value).map some ++
      List.replicate (fieldnames.length - (fieldnames.map value).length) none) =
        fieldnames.map fun fieldname ↦ (fieldname, some (value fieldname)) := by
    rw [List.length_map, Nat.sub_self, List.replicate_zero, List.append_nil, List.map_map]
    have hzip := List.zip_map' (f := id) (g := some ∘ value) (l := fieldnames)
    rwa [List.map_id] at hzip
  rw [CsvRow.cell, row, hpairs, Dict.lookup_of_keys, if_pos h]
  rfl

section Reading

variable {fromisoformat : String → Option Datetime} {path : String}

/-- The reader asks a row for the columns of a trace only. -/
theorem read_trace_row_congr {row row' : CsvRow}
    (h : ∀ column ∈ TRACE_COLUMNS, row.cell column = row'.cell column) (lineNumber : ℕ) :
    readTraceRow fromisoformat path row lineNumber =
      readTraceRow fromisoformat path row' lineNumber := by
  have hinstance := h "instance_uuid" (by decide)
  have hrequest := h "request_id" (by decide)
  have hparams := h "request_params" (by decide)
  have htime := h "service_start_time" (by decide)
  have htenant := h "tenant_id" (by decide)
  unfold readTraceRow parseServiceStartTime requiredNonEmpty
  simp only [hinstance, hrequest, hparams, htime, htenant]

theorem read_trace_rows_congr {rows rows' : List CsvRow}
    (h : List.Forall₂ (fun row row' ↦ ∀ column ∈ TRACE_COLUMNS,
      row.cell column = row'.cell column) rows rows') (lineNumber : ℕ) :
    readTraceRows fromisoformat path lineNumber rows =
      readTraceRows fromisoformat path lineNumber rows' := by
  induction h generalizing lineNumber with
  | nil => rfl
  | cons hrow _ ih =>
    unfold readTraceRows
    rw [read_trace_row_congr hrow, ih]

theorem read_trace_row_instance {row : CsvRow} {lineNumber : ℕ} {record : TraceRecord}
    (h : readTraceRow fromisoformat path row lineNumber = .ok record) :
    row.cell "instance_uuid" = some record.instanceUuid := by
  obtain ⟨requestId, -, h⟩ := except_bind_ok.mp h
  obtain ⟨tenantId, -, h⟩ := except_bind_ok.mp h
  obtain ⟨instanceUuid, hinstance, h⟩ := except_bind_ok.mp h
  obtain ⟨requestParams, -, h⟩ := except_bind_ok.mp h
  obtain ⟨time, -, h⟩ := except_bind_ok.mp h
  cases h
  unfold requiredNonEmpty at hinstance
  cases hcell : row.cell "instance_uuid" with
  | none =>
    rw [hcell] at hinstance
    cases hinstance
  | some value =>
    simp only [hcell] at hinstance
    split_ifs at hinstance
    cases hinstance
    rfl

theorem read_trace_rows_instance {rows : List CsvRow} {instanceUuid : String}
    (hrows : ∀ row ∈ rows, row.cell "instance_uuid" = some instanceUuid) {lineNumber : ℕ}
    {records : List TraceRecord}
    (h : readTraceRows fromisoformat path lineNumber rows = .ok records) :
    ∀ record ∈ records, record.instanceUuid = instanceUuid := by
  induction rows generalizing lineNumber records with
  | nil =>
    cases h
    simp
  | cons row rows ih =>
    obtain ⟨record, hrecord, h⟩ := except_bind_ok.mp h
    obtain ⟨rest, hrest, h⟩ := except_bind_ok.mp h
    cases h
    obtain ⟨hrow, hrows⟩ := List.forall_mem_cons.mp hrows
    refine List.forall_mem_cons.mpr ⟨?_, ih hrows hrest⟩
    exact Option.some.inj ((read_trace_row_instance hrecord).symm.trans hrow)

end Reading

section Normalizing

variable {path instanceUuid : String} {fieldnames : List String}

theorem mem_insert_instance {column : String} :
    column ∈ insertInstanceUuidAfterTenant fieldnames ↔
      column ∈ fieldnames ∨ (column = "instance_uuid" ∧ "tenant_id" ∈ fieldnames) := by
  unfold insertInstanceUuidAfterTenant
  rw [List.mem_flatMap]
  constructor
  · rintro ⟨fieldname, hmem, hcolumn⟩
    split_ifs at hcolumn with htenant
    · rcases List.mem_pair.mp hcolumn with rfl | rfl
      · exact .inl hmem
      · exact .inr ⟨rfl, htenant ▸ hmem⟩
    · rw [List.mem_singleton.mp hcolumn]
      exact .inl hmem
  · rintro (hmem | ⟨rfl, htenant⟩)
    · refine ⟨column, hmem, ?_⟩
      split_ifs <;> exact List.mem_cons_self
    · exact ⟨"tenant_id", htenant, by rw [if_pos rfl]; exact List.mem_pair.mpr (.inr rfl)⟩

theorem filter_missing_eq_nil {columns : List String} :
    columns.filter (· ∉ fieldnames) = [] ↔ ∀ column ∈ columns, column ∈ fieldnames := by
  simp [List.filter_eq_nil_iff]

theorem validate_unrouted_columns_ok (h : validateUnroutedColumns fieldnames path = .ok ()) :
    "instance_uuid" ∉ fieldnames ∧ ∀ column ∈ REQUIRED_UNROUTED_COLUMNS, column ∈ fieldnames := by
  unfold validateUnroutedColumns at h
  dsimp only at h
  split_ifs at h with hinstance hmissing
  exact ⟨hinstance, filter_missing_eq_nil.mp hmissing⟩

theorem mem_trace_columns {column : String} (h : column ∈ TRACE_COLUMNS) :
    column = "instance_uuid" ∨ column ∈ REQUIRED_UNROUTED_COLUMNS := List.mem_cons.mp h

theorem validate_row_shape_ok {cells : List String} {lineNumber : ℕ}
    (h : validateRowShape path fieldnames cells lineNumber = .ok ()) :
    ∀ column ∈ fieldnames, ∃ value, (CsvTable.row fieldnames cells).cell column = some value := by
  unfold validateRowShape at h
  dsimp only at h
  split_ifs at h with hsurplus hmissing
  intro column hcolumn
  have hsome := List.filter_eq_nil_iff.mp hmissing column hcolumn
  rwa [Bool.not_eq_true, Option.isNone_eq_false_iff, Option.isSome_iff_exists] at hsome

/-- A row of the output has the cells of its row of the input, and its instance. -/
theorem normalize_rows_ok {lineNumber : ℕ} {rows written : List (List String)}
    (hcolumns : ∀ column ∈ REQUIRED_UNROUTED_COLUMNS, column ∈ fieldnames)
    (h : normalizeRows path fieldnames instanceUuid lineNumber rows = .ok written) :
    List.Forall₂ (fun row row' : CsvRow ↦ ∀ column ∈ TRACE_COLUMNS,
        row.cell column = row'.cell column)
      (written.map (CsvTable.row (insertInstanceUuidAfterTenant fieldnames)))
      (rows.map (routedRow fieldnames instanceUuid)) := by
  have htenant : "tenant_id" ∈ fieldnames := hcolumns _ (by decide)
  induction rows generalizing lineNumber written with
  | nil =>
    cases h
    exact .nil
  | cons cells rows ih =>
    obtain ⟨u, hshape, h⟩ := except_bind_ok.mp h
    obtain ⟨rest, hrest, h⟩ := except_bind_ok.mp h
    cases h
    refine .cons (fun column hcolumn ↦ ?_) (ih hrest)
    have hwritten : column ∈ insertInstanceUuidAfterTenant fieldnames := mem_insert_instance.mpr
      ((mem_trace_columns hcolumn).symm.imp (hcolumns column) fun hinstance ↦ ⟨hinstance, htenant⟩)
    have hvalue : ∃ value, (routedRow fieldnames instanceUuid cells).cell column = some value := by
      unfold routedRow CsvRow.cell
      rcases eq_or_ne column "instance_uuid" with rfl | hne
      · rw [Finmap.lookup_insert]
        exact ⟨_, rfl⟩
      · rw [Finmap.lookup_insert_of_ne _ hne]
        exact validate_row_shape_ok hshape column
          (hcolumns column ((mem_trace_columns hcolumn).resolve_left hne))
    obtain ⟨value, hvalue⟩ := hvalue
    rw [CsvTable.row_written _ _ hwritten, hvalue]
    rfl

theorem normalize_rows_length {lineNumber : ℕ} {rows written : List (List String)}
    (h : normalizeRows path fieldnames instanceUuid lineNumber rows = .ok written) :
    written.length = rows.length := by
  induction rows generalizing lineNumber written with
  | nil =>
    cases h
    rfl
  | cons cells rows ih =>
    obtain ⟨u, -, h⟩ := except_bind_ok.mp h
    obtain ⟨rest, hrest, h⟩ := except_bind_ok.mp h
    cases h
    exact congrArg Nat.succ (ih hrest)

theorem routed_row_instance (cells : List String) :
    (routedRow fieldnames instanceUuid cells).cell "instance_uuid" = some instanceUuid := by
  rw [routedRow, CsvRow.cell, Finmap.lookup_insert]
  rfl

theorem validate_instance_uuid_ok {normalized : String}
    (h : validateInstanceUuid instanceUuid = .ok normalized) :
    normalized = stripText instanceUuid := by
  unfold validateInstanceUuid at h
  dsimp only at h
  split_ifs at h
  exact (Except.ok.inj h).symm

/-- What a normalized table is: it is read, and not normalized again, where its input is not
read. -/
theorem normalize_table_ok (fromisoformat : String → Option Datetime) {input output : CsvTable}
    (h : normalizeTable path instanceUuid input = .ok output) :
    output.rows.length = input.rows.length ∧
      readTraceCsv fromisoformat path input = .error (.missingColumns path ["instance_uuid"]) ∧
      (∀ outputPath, readTraceCsv fromisoformat outputPath output =
        readTraceRows fromisoformat outputPath 2
          (input.rows.map (routedRow input.fieldnames instanceUuid))) ∧
      ∀ outputPath, validateUnroutedColumns output.fieldnames outputPath =
        .error (.columnExists outputPath) := by
  obtain ⟨u, hunrouted, h⟩ := except_bind_ok.mp h
  obtain ⟨rows, hrows, h⟩ := except_bind_ok.mp h
  cases h
  obtain ⟨hfresh, hcolumns⟩ := validate_unrouted_columns_ok hunrouted
  have htenant : "tenant_id" ∈ input.fieldnames := hcolumns _ (by decide)
  have hinstance : "instance_uuid" ∈ insertInstanceUuidAfterTenant input.fieldnames :=
    mem_insert_instance.mpr (.inr ⟨rfl, htenant⟩)
  refine ⟨normalize_rows_length hrows, ?_, fun outputPath ↦ ?_, fun outputPath ↦ if_pos hinstance⟩
  · have hmissing : TRACE_COLUMNS.filter (· ∉ input.fieldnames) = ["instance_uuid"] := by
      have hrest : REQUIRED_UNROUTED_COLUMNS.filter (· ∉ input.fieldnames) = [] :=
        filter_missing_eq_nil.mpr hcolumns
      change ("instance_uuid" :: REQUIRED_UNROUTED_COLUMNS).filter (· ∉ input.fieldnames) = _
      rw [List.filter_cons_of_pos (by simpa using hfresh), hrest]
    rw [readTraceCsv, validateColumns, hmissing]
    rfl
  · have hmissing : TRACE_COLUMNS.filter (· ∉ insertInstanceUuidAfterTenant input.fieldnames) =
        [] := by
      refine filter_missing_eq_nil.mpr fun column hcolumn ↦ mem_insert_instance.mpr ?_
      exact (mem_trace_columns hcolumn).symm.imp (hcolumns column) fun heq ↦ ⟨heq, htenant⟩
    rw [readTraceCsv, validateColumns]
    dsimp only
    rw [hmissing, if_pos rfl, except_ok_bind]
    exact read_trace_rows_congr (normalize_rows_ok hcolumns hrows) 2

end Normalizing

variable {fromisoformat : String → Option Datetime}
  {inputPath outputPath instanceUuid : String} {files files' : CsvFiles}
  {result : TraceNormalizeResult}

/-- An unrouted trace is refused by the reader. What it is normalized to is read instead, row by
row as it stands, with the one instance; no other file is touched, and a second time it is not
normalized. -/
theorem normalized_trace_reads
    (h : normalizeUnroutedTrace inputPath outputPath instanceUuid files = .ok (result, files')) :
    ∃ input output, Finmap.lookup inputPath files = some input ∧
      Finmap.lookup outputPath files = none ∧ files' = Finmap.insert outputPath output files ∧
      result.rowCount = input.rows.length ∧ result.instanceUuid = stripText instanceUuid ∧
      readTraceCsv fromisoformat inputPath input =
        .error (.missingColumns inputPath ["instance_uuid"]) ∧
      readTraceCsv fromisoformat outputPath output = readTraceRows fromisoformat outputPath 2
        (input.rows.map (routedRow input.fieldnames result.instanceUuid)) ∧
      (∀ records, readTraceCsv fromisoformat outputPath output = .ok records →
        ∀ record ∈ records, record.instanceUuid = result.instanceUuid) ∧
      ∀ path, Finmap.lookup path files' = none →
        normalizeUnroutedTrace outputPath path instanceUuid files' =
          .error (.columnExists outputPath) := by
  obtain ⟨normalized, hvalid, h⟩ := except_bind_ok.mp h
  have hinstance := validate_instance_uuid_ok hvalid
  cases houtput : Finmap.lookup outputPath files with
  | some _ =>
    simp only [houtput] at h
    cases h
  | none =>
    cases hinput : Finmap.lookup inputPath files with
    | none =>
      simp only [houtput, hinput] at h
      cases h
    | some input =>
      simp only [houtput, hinput] at h
      obtain ⟨output, htable, h⟩ := except_bind_ok.mp h
      cases h
      obtain ⟨hlength, hrefused, hreads, hagain⟩ := normalize_table_ok fromisoformat htable
      refine ⟨input, output, rfl, rfl, rfl, hlength, hinstance, hrefused, hreads outputPath,
        fun records hrecords ↦ ?_, fun path hpath ↦ ?_⟩
      · rw [hreads] at hrecords
        refine read_trace_rows_instance (fun row hrow ↦ ?_) hrecords
        obtain ⟨cells, -, rfl⟩ := List.mem_map.mp hrow
        exact routed_row_instance cells
      · unfold normalizeUnroutedTrace
        rw [hvalid, except_ok_bind, hpath, Finmap.lookup_insert]
        simp only [normalizeTable, hagain]
        rfl

namespace Sample

/-- A trace of one row, without its instance. -/
def unroutedTable : CsvTable where
  fieldnames := ["request_id", "tenant_id", "request_params", "service_start_time"]
  rows := [["1", "t", "\x7b\x7d", "1970-01-01T00:00:00"]]

def epochOnly (text : String) : Option Datetime :=
  if text = "1970-01-01T00:00:00" then some { microseconds := 0 } else none

theorem unrouted_normalizes : ∃ result files', normalizeUnroutedTrace "unrouted.csv" "trace.csv"
    " a " (Finmap.insert "unrouted.csv" unroutedTable ∅) = .ok (result, files') := ⟨_, _, rfl⟩

theorem unrouted_reads : ∃ record, readTraceRows epochOnly "trace.csv" 2
    (unroutedTable.rows.map (routedRow unroutedTable.fieldnames "a")) = .ok [record] := ⟨_, rfl⟩

end Sample

/-- The row is read with its instance, whose name has lost its blanks. -/
theorem normalized_trace_reads_one : ∃ result files' output record,
    normalizeUnroutedTrace "unrouted.csv" "trace.csv" " a "
      (Finmap.insert "unrouted.csv" Sample.unroutedTable ∅) = .ok (result, files') ∧
    Finmap.lookup "trace.csv" files' = some output ∧
    readTraceCsv Sample.epochOnly "trace.csv" output = .ok [record] ∧
    record.instanceUuid = "a" := by
  obtain ⟨result, files', hnormalizes⟩ := Sample.unrouted_normalizes
  obtain ⟨record, hread⟩ := Sample.unrouted_reads
  obtain ⟨input, output, hinput, -, rfl, -, hinstance, -, hreads, howned, -⟩ :=
    @normalized_trace_reads Sample.epochOnly _ _ _ _ _ _ hnormalizes
  rw [Finmap.lookup_insert] at hinput
  cases hinput
  have hstrip : stripText " a " = "a" := by decide
  rw [hstrip] at hinstance
  rw [hinstance] at hreads howned
  have hrecords := hreads.trans hread
  exact ⟨result, _, output, record, hnormalizes, Finmap.lookup_insert _, hrecords,
    howned _ hrecords record (List.mem_singleton_self record)⟩

end InferTwin
