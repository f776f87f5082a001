import StormReview.Js.Json
import StormReview.Js.Lines
import StormReview.Js.Utf8

/-! The audit log as a file: one row of JSON is appended for each decision, and the log is read
back whole. The content of a file is the text it reads back as. -/
namespace StormReview.AuditFile
open Js

/-- `AuditEntry`; the two inputs stand in an object of their own. -/
structure Entry where
  ts : Text
  runId : Text
  caseId : Text
  claimId : Text
  wordingId : Text
  weatherStatus : Text
  toolCalls : List Value
  review : Value
  decision : Text
  reason : Text
  failureMode : Option Text
  domainNote : Option Text
  model : Text
  promptVersion : Text
  guard : Value

/-- A text that may be undefined. -/
def textOr : Option Text → Value
  | some s => .str s
  | none => .undefined

def Entry.fields (entry : Entry) : List (Text × Value) :=
  [(lit "ts", .str entry.ts), (lit "runId", .str entry.runId), (lit "caseId", .str entry.caseId),
    (lit "claimId", .str entry.claimId),
    (lit "inputs", .obj [(lit "wordingId", .str entry.wordingId),
      (lit "weatherStatus", .str entry.weatherStatus)]),
    (lit "toolCalls", .arr entry.toolCalls), (lit "review", entry.review),
    (lit "decision", .str entry.decision), (lit "reason", .str entry.reason),
    (lit "failureMode", textOr entry.failureMode), (lit "domainNote", textOr entry.domainNote),
    (lit "model", .str entry.model), (lit "promptVersion", .str entry.promptVersion),
    (lit "guard", entry.guard)]

def Entry.toJs (entry : Entry) : Value := .obj entry.fields

/-- `fs.appendFileSync(.., 'utf8')`, which makes the file when there is none. -/
def appendFile (text : Text) (file : Option Text) : Option Text :=
  some (file.getD [] ++ toWellFormed text)

/-- The row of an entry. -/
def row (entry : Entry) : Text := entry.toJs.stringify.getD (lit "undefined") ++ lit "\n"

def appendAudit (log : Option Text) (entry : Entry) : Option Text := appendFile (row entry) log

/-- One row that does not parse, and nothing is returned. -/
def readAudit (numberText : Text → Text) (log : Option Text) : List Value :=
  match log with
  | none => []
  | some text => ((linesOf text).mapM (Json.parse numberText)).getD []

/-- `GET /audit`. -/
def getAudit (numberText : Text → Text) (log : Option Text) : Value :=
  let entries := readAudit numberText log
  .obj [(lit "entries", .arr (entries.drop (entries.length - 25)).reverse)]

end StormReview.AuditFile
