import StormReview.Server.Server

/-! The eval: a case is run through the workflow and its review is scored. -/
namespace StormReview
open Js Engine

structure CaseFixture where
  caseId : Text
  controllingDrns : List Text

/-- The review and the DRNs of a run, from the gate's payload or from the finished state. -/
def runCase (env : Env) (world : World) (runId : Text) (fx : CaseFixture) (disk : AuditDisk) :
    Option Review × List Text :=
  match (startRun env world runId fx.caseId disk).1 with
  | .suspended _ _ p => (p.review, p.returnedDrns)
  | .success flow => (flow.review, flow.returnedDrns.getD [])
  | .failed _ => (none, [])

/-- `hasAgentKey`. -/
def hasAgentKey (env : Env) : Bool := present env.anthropicApiKeyVar

/-- What `runCase` puts into HOLDOUT while its run lasts: in live mode the controlling DRNs. -/
def holdoutOf (env : Env) (fx : CaseFixture) : List Text :=
  if hasAgentKey env ∧ fx.controllingDrns.length ≠ 0 then fx.controllingDrns else []

/-- `runCase` with an agent whose tools read HOLDOUT. -/
def runCaseHeldOut (env : Env) (world : World) (agent : List Text → Text → Except Thrown Value)
    (runId : Text) (fx : CaseFixture) (disk : AuditDisk) : Option Review × List Text :=
  runCase env { world with agent := agent (holdoutOf env fx) } runId fx disk

structure Faithfulness where
  score : Nat
  offending : List Text
  deriving DecidableEq

def citationFaithfulness (citedDrns returnedDrns : List Text) : Faithfulness :=
  let returned := distinct returnedDrns
  let offending := citedDrns.filter fun d => d ∉ returned
  { score := if offending.length = 0 then 1 else 0, offending }

/-- What the eval prints as faithful for a case. -/
def caseFaithfulness (env : Env) (world : World) (runId : Text) (fx : CaseFixture)
    (disk : AuditDisk) : Faithfulness :=
  match runCase env world runId fx disk with
  | (some review, returnedDrns) => citationFaithfulness review.citedDrns returnedDrns
  | (none, _) => { score := 0, offending := [] }

end StormReview
