import StormReview.Lib.Context
import StormReview.Guards.PrecedentGuard
import StormReview.Guards.ScopeGuard

/-! The state threaded through the workflow, what a handler sends back, what is shown to the
handler at the gate, and what the audit trail keeps. -/
namespace StormReview
open Js Zod

/-- The variables of `process.env` that the workflow reads. -/
structure Env where
  demoAlwaysGateVar : Option Text
  useGoldenVar : Option Text
  anthropicApiKeyVar : Option Text
  agentModelVar : Option Text

/-- `DEMO_ALWAYS_GATE`. -/
def demoAlwaysGate (env : Env) : Bool := env.demoAlwaysGateVar != some (lit "false")

/-- A variable that is set to something. -/
def present (var : Option Text) : Bool := var.any (· != [])

/-- `AGENT_MODEL`. -/
def agentModel (env : Env) : Text :=
  if present env.agentModelVar then env.agentModelVar.getD []
  else lit "anthropic/claude-sonnet-4-5"

def shouldUseGolden (env : Env) : Bool :=
  if env.useGoldenVar = some (lit "1") then true
  else if env.useGoldenVar = some (lit "0") then false
  else !present env.anthropicApiKeyVar

inductive Decision where
  | approve | override | escalate
  deriving DecidableEq

instance : Enum Decision where
  options := [.approve, .override, .escalate]
  text
    | .approve => lit "approve"
    | .override => lit "override"
    | .escalate => lit "escalate"
  mem_options a := by cases a <;> decide
  text_inj a b := by cases a <;> cases b <;> decide

inductive FailureMode where
  | extraction | reasoning | rules
  deriving DecidableEq

instance : Enum FailureMode where
  options := [.extraction, .reasoning, .rules]
  text
    | .extraction => lit "extraction"
    | .reasoning => lit "reasoning"
    | .rules => lit "rules"
  mem_options a := by cases a <;> decide
  text_inj a b := by cases a <;> cases b <;> decide

structure ResumeData where
  decision : Decision
  reason : Text
  failureMode : Option FailureMode
  domainNote : Option Text
  deriving DecidableEq

/-- `ResumeSchema`. -/
def resumeSchema : Parser ResumeData := object fun v =>
  ResumeData.mk <$> field "decision" enum v <*> field "reason" string v <*>
    field "failureMode" (optional enum) v <*> field "domainNote" (optional string) v

/-- How a run was decided: by a handler, or by the gate itself. -/
inductive Filing where
  | signed (d : Decision)
  | autoFiled
  deriving DecidableEq

def Filing.text : Filing → Text
  | .signed d => Enum.text d
  | .autoFiled => lit "auto_filed"

structure HumanDecision where
  decision : Filing
  reason : Option Text
  failureMode : Option FailureMode
  domainNote : Option Text
  deriving DecidableEq

def ResumeData.humanDecision (data : ResumeData) : HumanDecision :=
  { decision := .signed data.decision
    reason := some data.reason
    failureMode := data.failureMode
    domainNote := data.domainNote }

/-- `{ decision: 'auto_filed' }`. -/
def autoFiledDecision : HumanDecision :=
  { decision := .autoFiled, reason := none, failureMode := none, domainNote := none }

structure Prefetched where
  caseRecord : CaseRecord
  wording : Option Wording
  weather : WeatherResult
  report : AdjusterReport
  customer : Option Customer

structure GateFacts where
  recommendation : Recommendation
  vulnerabilityFlag : Bool
  weatherStatus : WeatherStatus
  deriving DecidableEq

structure GuardResult where
  precedent : PrecedentCheck
  scope : ScopeCheck
  blocked : Bool
  blockReason : Option Text
  deriving DecidableEq

structure AuditInfo where
  runId : Text
  audited : Bool
  notePath : Text
  decision : Filing

/-- One permissive object threaded through every step; each step fills more of it. -/
structure Flow where
  caseId : Text
  claimId : Option Text
  contextBlock : Option Text
  prefetch : Option Prefetched
  gateFacts : Option GateFacts
  review : Option Review
  structuringFailed : Option Bool
  structuringError : Option Text
  modelUsed : Option Text
  toolCalls : Option (List ToolCall)
  returnedDrns : Option (List Text)
  guard : Option GuardResult
  needsHuman : Option Bool
  humanDecision : Option HumanDecision
  audit : Option AuditInfo

/-- `{ caseId }`, with every other field unset. -/
def Flow.initial (caseId : Text) : Flow where
  caseId
  claimId := none
  contextBlock := none
  prefetch := none
  gateFacts := none
  review := none
  structuringFailed := none
  structuringError := none
  modelUsed := none
  toolCalls := none
  returnedDrns := none
  guard := none
  needsHuman := none
  humanDecision := none
  audit := none

structure SuspendPayload where
  reason : Option Text
  claimId : Option Text
  review : Option Review
  gateFacts : Option GateFacts
  guard : Option GuardResult
  toolCalls : List ToolCall
  returnedDrns : List Text
  modelUsed : Option Text
  contextSummary : Text

structure AuditEntry where
  ts : Text
  runId : Text
  caseId : Text
  claimId : Text
  wordingId : Text
  weatherStatus : Text
  toolCalls : List ToolCall
  review : Option Review
  decision : Filing
  reason : Text
  failureMode : Option FailureMode
  domainNote : Option Text
  model : Text
  promptVersion : Text
  guard : Option GuardResult

/-- The audit log, a row for each append, and the claim notes by path. -/
structure AuditDisk where
  log : List AuditEntry
  notes : Text → Option Text

/-- What each file operation of the record step throws, if it fails. Each write is taken to be
atomic: one that fails has written nothing. `recordFiles` is the step without this assumption, and
`recordFiles_torn` says what it then leaves behind. -/
structure Faults where
  mkdirForLog : Option Thrown
  append : Option Thrown
  mkdirForNote : Option Thrown
  writeNote : Text → Option Thrown

/-- The texts of errors that the runtime and the workflow engine word themselves. -/
structure ErrorTexts where
  notIterable : Text
  notMappable : Text
  notSuspended : Text
  invalidResume : List Issue → Text
  invalidInput : List Issue → Text

/-- What is outside the process while a request is handled; `agent` is `agent.generate`. -/
structure World where
  files : Files
  agent : Text → Except Thrown Value
  now : Text
  faults : Faults
  errors : ErrorTexts

def orFail {α : Type} (fault : Option Thrown) (a : α) : Except Thrown α :=
  match fault with
  | some e => .error e
  | none => .ok a

/-- An append that fails leaves the log as it was. -/
def appendAudit (faults : Faults) (entry : AuditEntry) (disk : AuditDisk) :
    Except Thrown AuditDisk := do
  orFail faults.mkdirForLog ()
  orFail faults.append { disk with log := disk.log ++ [entry] }

/-- The audit append, with the directory made for it, does not fail. -/
def Faults.appends (faults : Faults) : Prop := faults.mkdirForLog = none ∧ faults.append = none

theorem appendAudit_ok {faults : Faults} (h : faults.appends) (entry : AuditEntry)
    (disk : AuditDisk) :
    appendAudit faults entry disk = .ok { disk with log := disk.log ++ [entry] } := by
  simp only [appendAudit, h.1, h.2, orFail]
  rfl

theorem appendAudit_error {faults : Faults} (h : ¬ faults.appends) (entry : AuditEntry)
    (disk : AuditDisk) : ∃ e, appendAudit faults entry disk = .error e := by
  cases hm : faults.mkdirForLog with
  | some e => exact ⟨e, by simp only [appendAudit, hm, orFail]; rfl⟩
  | none =>
    cases ha : faults.append with
    | some e => exact ⟨e, by simp only [appendAudit, hm, ha, orFail]; rfl⟩
    | none => exact absurd ⟨hm, ha⟩ h

/-- Named by claim and run. -/
def notePath (files : Files) (claimId runId : Text) : Text :=
  Path.join [files.notesDir, claimId ++ lit "-" ++ runId ++ lit ".txt"]

/-- A write that fails leaves the notes as they were. -/
def writeClaimNote (files : Files) (faults : Faults) (claimId runId text : Text)
    (disk : AuditDisk) : Except Thrown (Text × AuditDisk) := do
  orFail faults.mkdirForNote ()
  let p := notePath files claimId runId
  orFail (faults.writeNote p) (p, { disk with notes := Function.update disk.notes p (some text) })

/-- Writing the note at a path, with the directory made for it, does not fail. -/
def Faults.writes (faults : Faults) (path : Text) : Prop :=
  faults.mkdirForNote = none ∧ faults.writeNote path = none

/-- The writes of a record step all go through. -/
def Faults.Clear (faults : Faults) : Prop := faults.appends ∧ ∀ path, faults.writes path

theorem writeClaimNote_ok {files : Files} {faults : Faults} {claimId runId : Text}
    (h : faults.writes (notePath files claimId runId)) (text : Text) (disk : AuditDisk) :
    writeClaimNote files faults claimId runId text disk =
      .ok (notePath files claimId runId,
        { disk with
          notes := Function.update disk.notes (notePath files claimId runId) (some text) }) := by
  simp only [writeClaimNote, h.1, h.2, orFail]
  rfl

theorem writeClaimNote_error {files : Files} {faults : Faults} {claimId runId : Text}
    (h : ¬ faults.writes (notePath files claimId runId)) (text : Text) (disk : AuditDisk) :
    ∃ e, writeClaimNote files faults claimId runId text disk = .error e := by
  cases hm : faults.mkdirForNote with
  | some e => exact ⟨e, by simp only [writeClaimNote, hm, orFail]; rfl⟩
  | none =>
    cases hw : faults.writeNote (notePath files claimId runId) with
    | some e => exact ⟨e, by simp only [writeClaimNote, hm, hw, orFail]; rfl⟩
    | none => exact absurd ⟨hm, hw⟩ h

end StormReview
