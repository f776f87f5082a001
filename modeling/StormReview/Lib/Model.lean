import StormReview.Workflow.Flow

/-! The judge of the evals: its model and its key. The agent's are read with the workflow. -/
namespace StormReview
open Js

/-- The variables of `process.env` that only the evals and the preflight read. -/
structure JudgeEnv where
  judgeModelVar : Option Text
  judgeApiKeyVar : Option Text
  openaiApiKeyVar : Option Text

/-- `JUDGE_MODEL`. -/
def judgeModel (env : JudgeEnv) : Text :=
  if present env.judgeModelVar then env.judgeModelVar.getD [] else lit "openai/gpt-4.1-mini"

def hasJudgeKey (env : JudgeEnv) : Bool :=
  present env.judgeApiKeyVar || present env.openaiApiKeyVar

end StormReview
