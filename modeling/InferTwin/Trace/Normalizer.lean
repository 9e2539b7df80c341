import InferTwin.Trace.Reader
import Mathlib.Data.List.DropRight

namespace InferTwin

open Config

/-- `text.strip()`. -/
def stripText (text : String) : String :=
  String.ofList ((text.toList.dropWhile isSpace).rdropWhile isSpace)

/-- The CSV files of a disk. -/
abbrev CsvFiles := Dict String CsvTable

structure TraceNormalizeResult where
  inputPath : String
  outputPath : String
  rowCount : ℕ
  addedInstanceUuidColumn : Bool := true
  filledEmptyInstanceUuidCount : ℕ := 0
  instanceUuid : String

/-- `_validate_instance_uuid`. -/
def validateInstanceUuid (instanceUuid : String) : Except TraceError String :=
  let normalized := stripText instanceUuid
  if normalized = "" then .error .emptyInstanceUuid
  else if '\n' ∈ normalized.toList ∨ '\r' ∈ normalized.toList then .error .instanceUuidNewlines
  else .ok normalized

/-- `_REQUIRED_UNROUTED_COLUMNS`, sorted. -/
def REQUIRED_UNROUTED_COLUMNS : List String :=
  ["request_id", "request_params", "service_start_time", "tenant_id"]

/-- `_validate_unrouted_columns`. -/
def validateUnroutedColumns (fieldnames : List String) (path : String) : Except TraceError Unit :=
  if "instance_uuid" ∈ fieldnames then .error (.columnExists path)
  else
    let missing := REQUIRED_UNROUTED_COLUMNS.filter (· ∉ fieldnames)
    if missing = [] then .ok () else .error (.missingColumns path missing)

/-- `_insert_instance_uuid_after_tenant`. -/
def insertInstanceUuidAfterTenant (fieldnames : List String) : List String :=
  fieldnames.flatMap fun fieldname ↦
    if fieldname = "tenant_id" then [fieldname, "instance_uuid"] else [fieldname]

section Rows

variable (path : String) (fieldnames : List String) (instanceUuid : String)

/-- `_validate_row_shape`. -/
def validateRowShape (cells : List String) (lineNumber : ℕ) : Except TraceError Unit :=
  if fieldnames.length < cells.length then .error (.surplusFields path lineNumber)
  else
    let missing := fieldnames.filter fun fieldname ↦
      ((CsvTable.row fieldnames cells).cell fieldname).isNone
    if missing = [] then .ok () else .error (.missingValues path lineNumber missing)

/-- The row with its instance. -/
def routedRow (cells : List String) : CsvRow :=
  Finmap.insert "instance_uuid" (some instanceUuid) (CsvTable.row fieldnames cells)

/-- The loop of `normalize_unrouted_trace`, with what `csv.DictWriter` writes. -/
def normalizeRows : ℕ → List (List String) → Except TraceError (List (List String))
  | _, [] => .ok []
  | lineNumber, cells :: rows => do
    validateRowShape path fieldnames cells lineNumber
    let written := (insertInstanceUuidAfterTenant fieldnames).map fun fieldname ↦
      ((routedRow fieldnames instanceUuid cells).cell fieldname).getD ""
    return written :: (← normalizeRows (lineNumber + 1) rows)

end Rows

/-- What is read from the input and written to the output. -/
def normalizeTable (path instanceUuid : String) (input : CsvTable) :
    Except TraceError CsvTable := do
  validateUnroutedColumns input.fieldnames path
  let rows ← normalizeRows path input.fieldnames instanceUuid 2 input.rows
  return {
    fieldnames := insertInstanceUuidAfterTenant input.fieldnames
    rows }

/-- Convert an unrouted trace CSV into a single-instance routed trace CSV. The output is written
under another name, which an exception removes. -/
def normalizeUnroutedTrace (inputPath outputPath instanceUuid : String) (files : CsvFiles) :
    Except TraceError (TraceNormalizeResult × CsvFiles) := do
  let instanceUuid ← validateInstanceUuid instanceUuid
  match Finmap.lookup outputPath files, Finmap.lookup inputPath files with
  | some _, _ => throw (.fileExists outputPath)
  | none, none => throw (.fileNotFound inputPath)
  | none, some input =>
    let output ← normalizeTable inputPath instanceUuid input
    return ({
      inputPath
      outputPath
      rowCount := output.rows.length
      instanceUuid }, Finmap.insert outputPath output files)

end InferTwin
