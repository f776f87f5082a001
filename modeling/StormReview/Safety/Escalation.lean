import StormReview.Safety.AutoFile

/-! Reviews that ask for a human themselves. -/
namespace StormReview
open Js Zod Engine

section escalation
variable (env : Env) (world : World) (runId caseId : Text) (disk : AuditDisk)

variable {env world runId caseId disk}

end escalation

end StormReview
