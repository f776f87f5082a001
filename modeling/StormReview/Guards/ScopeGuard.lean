import StormReview.Js.Scan
import StormReview.Schemas.Review

/-! scopeGuard: the verdict must be a review value; a directive in the prose is a warning. -/
namespace StormReview
open Js Zod Regex

/-- `[^.?!]`. -/
def inSentence : Regex := .unit fun u => !(u == cu '.' || u == cu '?' || u == cu '!')

/-- `ACTION_DIRECTIVE_RE`. -/
def actionDirectiveRe : Regex :=
  chain [.boundary, opt (.seq (charI 'i') (plus space)),
    oneOf [wordI "recommend", wordI "advise", wordI "instruct", wordI "direct", wordI "hereby"],
    .boundary, .star inSentence, .boundary,
    oneOf [wordI "decline", wordI "reject", wordI "refuse"], .boundary, .star inSentence,
    .boundary, wordI "claim", .boundary]

structure ScopeCheck where
  ok : Bool
  fatal : Bool
  warnings : List Text
  deriving DecidableEq

def directiveWarning : Text :=
  lit ("draftParagraph reads as an imperative decline directive; the reviewer reviews " ++
    "recommendations, it does not issue them")

/-- The verdict is checked as the text it is at run time. -/
def checkScope (verdict draftParagraph : Text) : ScopeCheck :=
  if verdict ∉ reviewVerdicts then
    { ok := false
      fatal := true
      warnings := [lit "verdict \"" ++ verdict ++
        lit "\" is not a review value; the reviewer never emits an action"] }
  else
    { ok := true
      fatal := false
      warnings := if actionDirectiveRe.test draftParagraph then [directiveWarning] else [] }

theorem verdict_mem_reviewVerdicts (v : Verdict) : Enum.text v ∈ reviewVerdicts := by
  cases v <;> decide

/-- The verdict of a parsed review is never fatal, whatever its prose. -/
theorem checkScope_of_verdict (v : Verdict) (draftParagraph : Text) :
    checkScope (Enum.text v) draftParagraph =
      { ok := true
        fatal := false
        warnings := if actionDirectiveRe.test draftParagraph then [directiveWarning] else [] } := by
  rw [checkScope, if_neg (not_not.mpr (verdict_mem_reviewVerdicts v))]

end StormReview
