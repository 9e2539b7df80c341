import InferTwin.Config.Parsers
import InferTwin.Streaming.Build

namespace InferTwin

open Config

/-- A CSV file as `csv.reader` reads it and `csv.writer` writes it: the header, and the lines that
are not empty. -/
structure CsvTable where
  fieldnames : List String
  rows : List (List String)

/-- The exceptions of the trace reader and of the normalizer. -/
inductive TraceError
  | missingColumns (path : String) (columns : List String)
  | nonEmptyColumn (path : String) (lineNumber : ℕ) (column : String)
  | unrouted (path : String) (lineNumber : ℕ)
  | isoDatetime (path : String) (lineNumber : ℕ) (value : String)
  | emptyInstanceUuid
  | instanceUuidNewlines
  | fileExists (path : String)
  | fileNotFound (path : String)
  | columnExists (path : String)
  | surplusFields (path : String) (lineNumber : ℕ)
  | missingValues (path : String) (lineNumber : ℕ) (columns : List String)
  deriving DecidableEq

/-- `repr` of a list of column names. -/
def reprColumns (columns : List String) : String :=
  "[" ++ ", ".intercalate (columns.map reprText) ++ "]"

def TraceError.message : TraceError → String
  | missingColumns path columns => path ++ ": missing required columns " ++ reprColumns columns
  | nonEmptyColumn path lineNumber column =>
    path ++ ": row " ++ toString lineNumber ++ " column " ++ reprText column ++
      " must be non-empty"
  | unrouted path lineNumber =>
    path ++ ": row " ++ toString lineNumber ++ " column 'instance_uuid' must be non-empty; " ++
      "core replay requires a routed trace. If you explicitly do not want " ++
      "gateway routing simulation, run `infertwin normalize-trace` first."
  | isoDatetime path lineNumber value =>
    path ++ ": row " ++ toString lineNumber ++
      " column 'service_start_time' must be ISO datetime, got " ++ reprText value
  | emptyInstanceUuid => "instance_uuid must be a non-empty string"
  | instanceUuidNewlines => "instance_uuid must not contain newlines"
  | fileExists path => path ++ ": output path already exists"
  | fileNotFound path => "[Errno 2] No such file or directory: " ++ reprText path
  | columnExists path => path ++ ": instance_uuid column already exists"
  | surplusFields path lineNumber =>
    path ++ ": row " ++ toString lineNumber ++ " has more fields than the header"
  | missingValues path lineNumber columns =>
    path ++ ": row " ++ toString lineNumber ++ " has missing values for columns " ++
      reprColumns columns

/-- A row of `csv.DictReader`: of columns with one name the last counts, and a line that ends
early leaves its last columns without a value. -/
abbrev CsvRow := Dict String (Option String)

def CsvTable.row (fieldnames cells : List String) : CsvRow :=
  Dict.ofPairs (fieldnames.zip
    (cells.map some ++ List.replicate (fieldnames.length - cells.length) none))

/-- `row.get(column)`. -/
def CsvRow.cell (row : CsvRow) (column : String) : Option String := (Finmap.lookup column row).join

theorem isBlank_empty : isBlank "" = true := by decide

theorem nonempty_of_not_blank {value : String} (h : ¬isBlank value) : value ≠ "" := by
  rintro rfl
  exact h isBlank_empty

/-- A cell that is not blank. -/
structure FilledCell where
  text : String
  nonempty : text ≠ ""

section Reader

-- `datetime.fromisoformat`
variable (fromisoformat : String → Option Datetime) (path : String)

/-- The columns of a routed trace, sorted. -/
def TRACE_COLUMNS : List String :=
  ["instance_uuid", "request_id", "request_params", "service_start_time", "tenant_id"]

/-- `_validate_columns`. -/
def validateColumns (fieldnames : List String) : Except TraceError Unit :=
  let missing := TRACE_COLUMNS.filter (· ∉ fieldnames)
  if missing = [] then .ok () else .error (.missingColumns path missing)

/-- `_required_non_empty`, and its variant for the instance, by the exception that it raises. -/
def requiredNonEmpty (row : CsvRow) (column : String) (error : TraceError) :
    Except TraceError FilledCell :=
  match row.cell column with
  | none => .error error
  | some value => if h : isBlank value then .error error else .ok ⟨value, nonempty_of_not_blank h⟩

/-- `_parse_service_start_time`. -/
def parseServiceStartTime (row : CsvRow) (lineNumber : ℕ) : Except TraceError Datetime := do
  let value ← requiredNonEmpty row "service_start_time"
    (.nonEmptyColumn path lineNumber "service_start_time")
  match fromisoformat value.text with
  | some time => return time
  | none => throw (.isoDatetime path lineNumber value.text)

/-- The body of the loop of `read_trace_csv`. -/
def readTraceRow (row : CsvRow) (lineNumber : ℕ) : Except TraceError TraceRecord := do
  let required (column : String) :=
    requiredNonEmpty row column (.nonEmptyColumn path lineNumber column)
  let requestId ← required "request_id"
  let tenantId ← required "tenant_id"
  let instanceUuid ← requiredNonEmpty row "instance_uuid" (.unrouted path lineNumber)
  let requestParams ← required "request_params"
  return {
    requestId := requestId.text
    tenantId := tenantId.text
    instanceUuid := instanceUuid.text
    requestParams := requestParams.text
    serviceStartTime := ← parseServiceStartTime fromisoformat path row lineNumber
    request_id_nonempty := requestId.nonempty
    tenant_id_nonempty := tenantId.nonempty
    instance_uuid_nonempty := instanceUuid.nonempty }

def readTraceRows : ℕ → List CsvRow → Except TraceError (List TraceRecord)
  | _, [] => .ok []
  | lineNumber, row :: rows => do
    let record ← readTraceRow fromisoformat path row lineNumber
    return record :: (← readTraceRows (lineNumber + 1) rows)

def readTraceCsv (table : CsvTable) : Except TraceError (List TraceRecord) := do
  validateColumns path table.fieldnames
  readTraceRows fromisoformat path 2 (table.rows.map (CsvTable.row table.fieldnames))

end Reader

end InferTwin
