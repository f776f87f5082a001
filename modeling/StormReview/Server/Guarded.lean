import StormReview.Server.Server

/-! The server when steps may throw for reasons the fixtures' types rule out: a malformed
fixture, an agent that is not registered. `stop` gives what a step throws. -/
namespace StormReview
open Js Zod Engine

abbrev Stop := String → Option Thrown

section guarded
variable (stop : Stop)

def guardedReview (env : Env) (world : World) (runId : Text) : List WorkflowStep :=
  (stormReview env world runId).map (Step.guarded stop)

def startGuarded (env : Env) (world : World) (runId caseId : Text) (disk : AuditDisk) :
    RunResult × AuditDisk :=
  start (guardedReview stop env world runId) (Flow.initial caseId) disk

def resumeGuarded (env : Env) (world : World) (runId : Text) (data : ResumeData) (input : Flow)
    (disk : AuditDisk) : RunResult × AuditDisk :=
  resume (guardedReview stop env world runId) "gate" data input disk

def postRunGuarded (world : World) (caseId runId : Text) (s : ServerState) :
    Response × ServerState :=
  match buildLeft world.files caseId with
  | none => (.refused 404 (lit "unknown case " ++ caseId), s)
  | some left =>
    let (res, disk) := startGuarded stop s.env world runId caseId s.disk
    let body :=
      match res with
      | .suspended _ _ p => suspendedBody runId caseId left p
      | _ => finishedBody runId caseId (statusText res) left (finalState res)
    (.ran body, { s with runs := Function.update s.runs runId res.status, disk })

def postResumeGuarded (world : World) (runId : Text) (body : Option Value) (s : ServerState) :
    Response × ServerState :=
  match checkResume (bodyOf body) with
  | .error error => (.refused 400 error, s)
  | .ok (decision, resumeData) =>
    match (s.runs runId).inputAt "gate", resumeSchema resumeData with
    | none, _ => (.rejected runId world.errors.notSuspended, s)
    | _, .issues found => (.rejected runId (world.errors.invalidResume found), s)
    | some input, .ok data =>
      let (res, disk) := resumeGuarded stop s.env world runId data input s.disk
      (.resumed runId (statusText res) decision ((finalState res).bind (·.audit)),
       { s with runs := Function.update s.runs runId res.status, disk })

end guarded

theorem guardedReview_open (env : Env) (world : World) (runId : Text) :
    guardedReview (fun _ => none) env world runId = stormReview env world runId :=
  (List.map_congr_left fun _ _ => Step.guarded_of_none rfl).trans (List.map_id' _)

/-- Where no step throws by itself, this is the server. -/
theorem postRunGuarded_open (world : World) (caseId runId : Text) (s : ServerState) :
    postRunGuarded (fun _ => none) world caseId runId s = postRun world caseId runId s := by
  have hstart : startGuarded (fun _ => none) s.env world runId caseId s.disk =
      startRun s.env world runId caseId s.disk := by
    rw [startGuarded, guardedReview_open, startRun]
  rw [postRunGuarded, hstart]
  rfl

theorem postResumeGuarded_open (world : World) (runId : Text) (body : Option Value)
    (s : ServerState) :
    postResumeGuarded (fun _ => none) world runId body s = postResume world runId body s := by
  have hresume (data : ResumeData) (input : Flow) :
      resumeGuarded (fun _ => none) s.env world runId data input s.disk =
        resumeRun s.env world runId data input s.disk := by
    rw [resumeGuarded, guardedReview_open, resumeRun]
  simp only [postResumeGuarded, hresume]
  rfl

end StormReview
