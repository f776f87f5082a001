import StormReview.Workflow.Steps

/-! The HTTP server over the workflow: a run is started, suspends, and is resumed by its id from
what the engine persisted, in this process or a later one. -/
namespace StormReview
open Js Zod Engine

structure LeftReport where
  claimId : Text
  author : Author
  recommendation : Recommendation
  statedReason : Text
  narrative : Text
  photos : List Photo
  priorRepairsObserved : Bool
  causationReasoned : Bool
  customerEmergencyRepairCost : Option Number
  guardEvents : Option GuardEvents

structure LeftCustomer where
  vulnerabilityFlag : Option Bool
  vulnerabilityCategory : Option VulnerabilityCategory
  tenureYears : Number
  priorClaims : Number
  ageBand : Text

structure LeftWording where
  version : Text
  discretionary : Bool
  brand : Text

structure LeftWeather where
  status : WeatherStatus
  reason : Option Text
  namedStorm : Option Text
  stations : List WeatherStation

structure Left where
  caseRecord : CaseRecord
  report : Option LeftReport
  customer : Option LeftCustomer
  wording : Option LeftWording
  weather : Option LeftWeather

/-- The left-column payload, straight from the fixtures. -/
def buildLeft (files : Files) (caseId : Text) : Option Left :=
  (loadCase files caseId).map fun caseRecord =>
    { caseRecord
      report := (loadReport files caseRecord.claimId).map fun report =>
        { claimId := report.claimId
          author := report.author
          recommendation := report.recommendation
          statedReason := report.statedReason
          narrative := report.narrative
          photos := report.photos
          priorRepairsObserved := report.priorRepairsObserved
          causationReasoned := report.causationReasoned
          customerEmergencyRepairCost := report.customerEmergencyRepairCost
          guardEvents := report.guardEvents }
      customer := (loadCustomer files caseRecord.customerId).map fun customer =>
        { vulnerabilityFlag := customer.vulnerabilityFlag
          vulnerabilityCategory := customer.vulnerabilityCategory
          tenureYears := customer.tenureYears
          priorClaims := customer.priorClaims
          ageBand := customer.ageBand }
      wording := (loadWording files caseRecord.policyId).map fun wording =>
        { version := wording.version
          discretionary := wording.discretionary
          brand := wording.brand }
      weather := (loadWeather files caseRecord.postcodeDistrict caseRecord.dateOfLoss).map
        fun weatherRaw =>
          { status := weatherRaw.status
            reason := weatherRaw.reason
            namedStorm := weatherRaw.namedStorm
            stations := weatherRaw.stations } }

structure RunBody where
  runId : Text
  status : Text
  caseId : Text
  claimId : Text
  left : Left
  review : Option Review
  guard : Option GuardResult
  gateFacts : Option GateFacts
  toolCalls : List ToolCall
  returnedDrns : List Text
  modelUsed : Option Text
  suspendReason : Option Text
  autoFiled : Bool
  audit : Option AuditInfo

inductive Response where
  /-- An error answered before the engine is asked. -/
  | refused (code : Nat) (error : Text)
  /-- The engine rejected a resume. -/
  | rejected (runId error : Text)
  | ran (body : RunBody)
  | resumed (runId status : Text) (decision : Decision) (audit : Option AuditInfo)
  | restarted

/-- `env` is what the running process was started with; the rest is persisted. -/
structure ServerState where
  env : Env
  runs : Runs Text Flow
  disk : AuditDisk

/-- A request, or a restart of the process. `runId` is the id the engine gives a new run; a body
that is not JSON is absent. -/
inductive Request where
  | run (caseId runId : Text)
  | resume (runId : Text) (body : Option Value)
  | restart (env : Env)

def statusText : RunResult → Text
  | .success _ => lit "success"
  | .suspended _ _ _ => lit "suspended"
  | .failed _ => lit "failed"

/-- The state a finished run carries; a failed one has none. -/
def finalState : RunResult → Option Flow
  | .success flow => some flow
  | _ => none

def suspendedBody (runId caseId : Text) (left : Left) (p : SuspendPayload) : RunBody where
  runId
  status := lit "suspended"
  caseId
  claimId := p.claimId.getD left.caseRecord.claimId
  left
  review := p.review
  guard := p.guard
  gateFacts := p.gateFacts
  toolCalls := p.toolCalls
  returnedDrns := p.returnedDrns
  modelUsed := p.modelUsed
  suspendReason := some (p.reason.getD [])
  autoFiled := false
  audit := none

/-- The answer for every run that did not suspend. -/
def finishedBody (runId caseId status : Text) (left : Left) (r : Option Flow) : RunBody where
  runId
  status
  caseId
  claimId := left.caseRecord.claimId
  left
  review := r.bind (·.review)
  guard := r.bind (·.guard)
  gateFacts := r.bind (·.gateFacts)
  toolCalls := (r.bind (·.toolCalls)).getD []
  returnedDrns := (r.bind (·.returnedDrns)).getD []
  modelUsed := r.bind (·.modelUsed)
  suspendReason := none
  autoFiled := true
  audit := r.bind (·.audit)

def startRun (env : Env) (world : World) (runId caseId : Text) (disk : AuditDisk) :
    RunResult × AuditDisk :=
  start (stormReview env world runId) (Flow.initial caseId) disk

def postRun (world : World) (caseId runId : Text) (s : ServerState) : Response × ServerState :=
  match buildLeft world.files caseId with
  | none => (.refused 404 (lit "unknown case " ++ caseId), s)
  | some left =>
    let (res, disk) := startRun s.env world runId caseId s.disk
    let body :=
      match res with
      | .suspended _ _ p => suspendedBody runId caseId left p
      | _ => finishedBody runId caseId (statusText res) left (finalState res)
    (.ran body, { s with runs := Function.update s.runs runId res.status, disk })

/-- The server's own checks of a resume body; what passes is handed to the engine. -/
def checkResume (body : Value) : Except Text (Decision × Value) :=
  match enum (body.get (lit "decision")) with
  | .issues _ => .error (lit "decision must be one of 'approve', 'override', 'escalate'")
  | .ok decision =>
    let reason := body.get (lit "reason")
    let failureMode := body.get (lit "failureMode")
    if (decision = .override ∨ decision = .escalate) ∧ !reason.truthy then
      .error (lit "a reason is required to " ++ Enum.text decision)
    else if decision = .override ∧ !failureMode.truthy then
      .error (lit "override requires a failureMode (extraction | reasoning | rules)")
    else
      .ok (decision, .obj [(lit "decision", word decision),
        (lit "reason", reason.orElse (.str [])), (lit "failureMode", failureMode),
        (lit "domainNote", body.get (lit "domainNote"))])

def resumeRun (env : Env) (world : World) (runId : Text) (data : ResumeData) (input : Flow)
    (disk : AuditDisk) : RunResult × AuditDisk :=
  resume (stormReview env world runId) "gate" data input disk

/-- `c.req.json().catch(() => ({}))`. -/
def bodyOf (body : Option Value) : Value := body.getD (.obj [])

def postResume (world : World) (runId : Text) (body : Option Value) (s : ServerState) :
    Response × ServerState :=
  match checkResume (bodyOf body) with
  | .error error => (.refused 400 error, s)
  | .ok (decision, resumeData) =>
    match (s.runs runId).inputAt "gate", resumeSchema resumeData with
    | none, _ => (.rejected runId world.errors.notSuspended, s)
    | _, .issues found => (.rejected runId (world.errors.invalidResume found), s)
    | some input, .ok data =>
      let (res, disk) := resumeRun s.env world runId data input s.disk
      (.resumed runId (statusText res) decision ((finalState res).bind (·.audit)),
       { s with runs := Function.update s.runs runId res.status, disk })

def handle (world : World) (request : Request) (s : ServerState) : Response × ServerState :=
  match request with
  | .run caseId runId => postRun world caseId runId s
  | .resume runId body => postResume world runId body s
  | .restart env => (.restarted, { s with env })

/-- What a history of requests, each in the world of its moment, leaves behind. -/
def serve (history : List (World × Request)) (s : ServerState) : ServerState :=
  history.foldl (fun s e => (handle e.1 e.2 s).2) s

end StormReview
