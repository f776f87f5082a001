import StormReview.Server.Server

/-! record-golden: a live run of one case is kept as the recording that later runs replay. -/
namespace StormReview
open Js Zod Engine

/-- What the gate's payload and the finished state have in common for who reads them. -/
structure RunView where
  claimId : Option Text
  review : Option Review
  gateFacts : Option GateFacts
  guard : Option GuardResult
  toolCalls : List ToolCall
  returnedDrns : List Text

def SuspendPayload.view (p : SuspendPayload) : RunView where
  claimId := p.claimId
  review := p.review
  gateFacts := p.gateFacts
  guard := p.guard
  toolCalls := p.toolCalls
  returnedDrns := p.returnedDrns

def Flow.view (flow : Flow) : RunView where
  claimId := flow.claimId
  review := flow.review
  gateFacts := flow.gateFacts
  guard := flow.guard
  toolCalls := flow.toolCalls.getD []
  returnedDrns := flow.returnedDrns.getD []

/-- `res.status === 'suspended' ? res.suspendPayload?.gate : res.result`. -/
def viewOf : RunResult → Option RunView
  | .suspended _ _ p => some p.view
  | .success flow => some flow.view
  | .failed _ => none

inductive Recording where
  | noKey
  | refused (status : Text) (blockReason : Option Text)
  | recorded (file : Text) (golden : GoldenRun)

/-- The model is called although a recording may exist. -/
def liveEnv (env : Env) : Env := { env with useGoldenVar := some (lit "0") }

def goldenFile (files : Files) (caseId : Text) : Text :=
  Path.join [files.goldenDir, lit "case" ++ caseId ++ lit ".json"]

def recordGolden (env : Env) (world : World) (runId caseId : Text) (disk : AuditDisk) :
    Recording × AuditDisk :=
  if present env.anthropicApiKeyVar then
    let (res, disk) := startRun (liveEnv env) world runId caseId disk
    let p := viewOf res
    match p.bind (·.review) with
    | some rev =>
      (.recorded (goldenFile world.files caseId)
        { review := rev.toJs
          toolCalls := p.map (·.toolCalls)
          returnedDrns := p.map (·.returnedDrns) }, disk)
    | none =>
      (.refused (statusText res) ((p.bind (·.guard)).bind (·.blockReason)), disk)
  else (.noKey, disk)

/-- The files once a recording is written. -/
def Files.withGolden (files : Files) (file : Text) (golden : GoldenRun) : Files :=
  { files with golden := Function.update files.golden file (some golden) }

end StormReview
