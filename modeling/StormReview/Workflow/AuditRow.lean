import StormReview.Js.Json.RoundTrip
import StormReview.Lib.Audit
import StormReview.Workflow.Flow

/-! The entry of the workflow as the log file gets it. -/
namespace StormReview
open Js Zod
open Js.Json (IsJson IsJsonItems IsJsonFields)

def ToolCall.toJs (call : ToolCall) : Value :=
  .obj [(lit "tool", call.tool), (lit "args", call.args),
    (lit "resultSummary", .str call.resultSummary)]

def PrecedentCheck.toJs (c : PrecedentCheck) : Value :=
  .obj [(lit "ok", .bool c.ok), (lit "offending", texts c.offending),
    (lit "returned", texts c.returned)]

def ScopeCheck.toJs (c : ScopeCheck) : Value :=
  .obj [(lit "ok", .bool c.ok), (lit "fatal", .bool c.fatal), (lit "warnings", texts c.warnings)]

def GuardResult.toJs (g : GuardResult) : Value :=
  .obj [(lit "precedent", g.precedent.toJs), (lit "scope", g.scope.toJs),
    (lit "blocked", .bool g.blocked), (lit "blockReason", AuditFile.textOr g.blockReason)]

/-- A missing review is null, a missing guard result undefined. -/
def AuditEntry.filed (entry : AuditEntry) : AuditFile.Entry where
  ts := entry.ts
  runId := entry.runId
  caseId := entry.caseId
  claimId := entry.claimId
  wordingId := entry.wordingId
  weatherStatus := entry.weatherStatus
  toolCalls := entry.toolCalls.map ToolCall.toJs
  review := (entry.review.map Review.toJs).getD .null
  decision := entry.decision.text
  reason := entry.reason
  failureMode := entry.failureMode.map Enum.text
  domainNote := entry.domainNote
  model := entry.model
  promptVersion := entry.promptVersion
  guard := (entry.guard.map GuardResult.toJs).getD .undefined

/-- The log file, an append for each entry of the log. -/
def logFile (disk : AuditDisk) : Option Text :=
  (disk.log.map AuditEntry.filed).foldl AuditFile.appendAudit none

/-- An append to the log is an append to the file; one that fails is taken to leave the file
alone. -/
theorem logFile_append {faults : Faults} {entry : AuditEntry} {disk disk' : AuditDisk}
    (h : appendAudit faults entry disk = .ok disk') :
    logFile disk' = AuditFile.appendAudit (logFile disk) entry.filed := by
  by_cases hf : faults.appends
  · rw [appendAudit_ok hf] at h
    obtain rfl := Except.ok.inj h
    simp [logFile]
  · obtain ⟨e, he⟩ := appendAudit_error hf entry disk
    rw [he] at h
    cases h

/-! What the workflow puts into an entry is JSON. -/

section
variable {numberText : Text → Text}

/-- Different keys, and none of them an index. -/
def areNames (keys : List Text) : Bool :=
  decide keys.Nodup && keys.all fun k => (Json.index? k).isNone

theorem isJson_obj {fields : List (Text × Value)} (hkeys : areNames (fields.map (·.1)) = true)
    (h : IsJsonFields numberText fields) : IsJson numberText (.obj fields) := by
  rw [areNames, Bool.and_eq_true, decide_eq_true_eq] at hkeys
  exact ⟨Json.pairwise_names hkeys.1 hkeys.2, h⟩

theorem isJson_arr {α : Type} {f : α → Value} (h : ∀ a, IsJson numberText (f a)) (l : List α) :
    IsJson numberText (.arr (l.map f)) := by
  induction l with
  | nil => exact trivial
  | cons a l ih => exact ⟨h a, ih⟩

theorem isJson_textOr (s : Option Text) :
    AuditFile.textOr s = .undefined ∨ IsJson numberText (AuditFile.textOr s) := by
  cases s with
  | none => exact .inl rfl
  | some s => exact .inr trivial

theorem isJson_str (s : Text) : IsJson numberText (.str s) := trivial

theorem isJson_word {α : Type} [Enum α] (a : α) : IsJson numberText (word a) := trivial

theorem isJson_texts (ts : List Text) : IsJson numberText (texts ts) := isJson_arr isJson_str ts

theorem isJson_evidence (e : Evidence) : IsJson numberText e.toJs :=
  isJson_obj rfl
    ⟨.inr trivial, .inr trivial, .inr trivial, trivial⟩

theorem isJson_finding {φ : Type} [Enum φ] (f : Finding φ) : IsJson numberText f.toJs :=
  isJson_obj rfl
    ⟨.inr trivial, .inr (isJson_arr isJson_evidence _), .inr (isJson_texts _), trivial⟩

theorem isJson_quality (q : AdjusterReportQuality) : IsJson numberText q.toJs :=
  isJson_obj rfl
    ⟨.inr trivial, .inr trivial, .inr trivial, .inr trivial, .inr trivial, trivial⟩

theorem isJson_carveOuts (c : CarveOuts) : IsJson numberText c.toJs :=
  isJson_obj rfl
    ⟨.inr trivial, .inr trivial, trivial⟩

theorem isJson_dutyChecks (c : ConsumerDutyChecks) : IsJson numberText c.toJs :=
  isJson_obj rfl
    ⟨.inr trivial, .inr trivial, .inr trivial, trivial⟩

theorem isJson_escalate (e : Escalate) : IsJson numberText e.toJs :=
  isJson_obj rfl
    ⟨.inr trivial, .inr (isJson_arr isJson_word _), .inr trivial, trivial⟩

theorem isJson_review (r : Review) : IsJson numberText r.toJs :=
  isJson_obj rfl
    ⟨.inr trivial, .inr trivial, .inr (isJson_finding _), .inr (isJson_finding _),
      .inr (isJson_finding _), .inr (isJson_quality _), .inr trivial, .inr trivial,
      .inr (isJson_texts _), .inr (isJson_texts _), .inr (isJson_carveOuts _),
      .inr (isJson_dutyChecks _), .inr (isJson_escalate _), .inr (isJson_texts _), .inr trivial,
      trivial⟩

theorem isJson_precedent (c : PrecedentCheck) : IsJson numberText c.toJs :=
  isJson_obj rfl
    ⟨.inr trivial, .inr (isJson_texts _), .inr (isJson_texts _), trivial⟩

theorem isJson_scope (c : ScopeCheck) : IsJson numberText c.toJs :=
  isJson_obj rfl
    ⟨.inr trivial, .inr trivial, .inr (isJson_texts _), trivial⟩

theorem isJson_guard (g : GuardResult) : IsJson numberText g.toJs :=
  isJson_obj rfl
    ⟨.inr (isJson_precedent _), .inr (isJson_scope _), .inr trivial,
      isJson_textOr _, trivial⟩

end

end StormReview
