import StormReview.Evals.Run
import StormReview.Lib.Model

/-! The whole eval: its other scorers, the loop over the cases with its counts, and the report.
A score that can be a half is counted in halves. -/
namespace StormReview
open Js Zod Engine

/-- A fixture with what the scorers read of it. -/
structure SuiteFixture extends CaseFixture where
  expected : Text
  decisiveFactKeywords : List Text
  borderline : Bool

structure PairedRegression where
  base : Text
  variant : Text

/-! The scorers. -/

def outcomeAgreement (expected : Text) (actual : Option Verdict) (borderline : Bool) : Nat :=
  match actual with
  | none => 0
  | some v =>
    if Enum.text v = expected then 2
    else if borderline ∧ v = .cannotDetermine then 1
    else 0

/-- `judge.generate`. -/
abbrev Judge := Text → Except Thrown Text

structure JudgeResult where
  pass : Bool
  note : Text

def rubric (review : Review) (decisiveFactKeywords : List Text) : Text :=
  join (lit "\n")
    [lit ("You are grading a home-insurance claim review. Question: does the review quote or " ++
       "clearly reference the fact the Ombudsman decision turned on?"),
     lit "The decisive fact concerns: " ++ join (lit ", ") decisiveFactKeywords ++ lit ".",
     lit "Answer with PASS or FAIL on the first line, then one sentence of justification.",
     [],
     lit "REVIEW:",
     (Value.obj [(lit "q1", review.q1StormConditions.toJs),
       (lit "q2", review.q2DamageConsistent.toJs), (lit "q3", review.q3MainCause.toJs),
       (lit "draftParagraph", .str review.draftParagraph)]).stringify.getD []]

/-- `/^\s*PASS/i`. -/
def saysPass (out : Text) : Bool := (lit "pass").isPrefixOf ((trimStart out).map foldCase)

def decisiveFactRecall (review : Review) (decisiveFactKeywords : List Text)
    (judge : Option Judge) : Except Thrown (Option JudgeResult) :=
  match judge with
  | none => .ok none
  | some judge =>
    (judge (rubric review decisiveFactKeywords)).map fun out => some
      { pass := saysPass out
        note := (join (lit " ") ((out.splitOn (cu '\n')).take 2)).take 200 }

/-! The counts. -/

structure EvalRow where
  case : Text
  expected : Text
  actual : Text
  agreement : Nat
  faithful : Text
  decisiveFact : Text

structure Bucket where
  n : Nat
  agree : Nat

structure Tally where
  rows : List EvalRow
  confBuckets : Confidence → Bucket
  agreeSum : Nat
  faithSum : Nat
  judgePass : Nat
  judgeScored : Nat
  abstentions : Nat
  wronglyUpheld : Nat
  verdicts : Text → Option Text

def Tally.empty : Tally where
  rows := []
  confBuckets := fun _ => { n := 0, agree := 0 }
  agreeSum := 0
  faithSum := 0
  judgePass := 0
  judgeScored := 0
  abstentions := 0
  wronglyUpheld := 0
  verdicts := fun _ => none

/-- What a case is graded on. -/
structure Graded where
  fx : SuiteFixture
  review : Option Review
  returnedDrns : List Text

namespace Graded
variable (g : Graded)

def actual : Option Verdict := g.review.map (·.verdict)

def verdictText : Text := g.actual.elim (lit "none") Enum.text

/-- In halves. -/
def agreement : Nat := outcomeAgreement g.fx.expected g.actual g.fx.borderline

def faith : Faithfulness :=
  match g.review with
  | some review => citationFaithfulness review.citedDrns g.returnedDrns
  | none => { score := 0, offending := [] }

def faithText : Text :=
  if g.faith.score = 1 then lit "yes"
  else lit "NO (" ++ join (lit ",") g.faith.offending ++ lit ")"

def abstains : Bool := g.actual = some .cannotDetermine

def wronglyUpholds : Bool :=
  g.fx.expected = lit "disagree_decline" && g.actual = some .agreeDecline

/-- The case counts in the bucket of this confidence. -/
def confident (conf : Confidence) : Bool := g.review.any (·.confidence = conf)

def row (judgeResult : Option JudgeResult) : EvalRow where
  case := g.fx.caseId
  expected := g.fx.expected
  actual := g.verdictText
  agreement := g.agreement
  faithful := g.faithText
  decisiveFact :=
    match judgeResult with
    | some result => if result.pass then lit "PASS" else lit "FAIL"
    | none => lit "skipped"

def judged (judge : Option Judge) : Except Thrown (Option JudgeResult) :=
  match g.review with
  | some review => decisiveFactRecall review g.fx.decisiveFactKeywords judge
  | none => .ok none

end Graded

def Bucket.count (g : Graded) (b : Bucket) : Bucket :=
  { n := b.n + 1, agree := if g.agreement = 2 then b.agree + 1 else b.agree }

def Tally.add (t : Tally) (g : Graded) (judgeResult : Option JudgeResult) : Tally where
  rows := t.rows ++ [g.row judgeResult]
  confBuckets := fun conf =>
    if g.confident conf then (t.confBuckets conf).count g else t.confBuckets conf
  agreeSum := t.agreeSum + g.agreement
  faithSum := t.faithSum + g.faith.score
  judgePass := if judgeResult.any (·.pass) then t.judgePass + 1 else t.judgePass
  judgeScored := if judgeResult.isSome then t.judgeScored + 1 else t.judgeScored
  abstentions := if g.abstains then t.abstentions + 1 else t.abstentions
  wronglyUpheld := if g.wronglyUpholds then t.wronglyUpheld + 1 else t.wronglyUpheld
  verdicts := Function.update t.verdicts g.fx.caseId (some g.verdictText)

/-- The body of the loop, from the run of its case on. -/
def scoreCase (judge : Option Judge) (t : Tally) (g : Graded) : Except Thrown Tally :=
  (g.judged judge).map (t.add g)

/-! The loop. -/

/-- A case and the moment at which it is run; the agent's tools read HOLDOUT. -/
structure Turn where
  fx : SuiteFixture
  world : World
  agent : List Text → Text → Except Thrown Value
  runId : Text

namespace Turn
variable (env : Env) (turn : Turn)

/-- The world of the run, with the holdout of the case in place. -/
def heldOut : World := { turn.world with agent := turn.agent (holdoutOf env turn.fx.toCaseFixture) }

def graded (disk : AuditDisk) : Graded :=
  let outcome :=
    runCaseHeldOut env turn.world turn.agent turn.runId turn.fx.toCaseFixture disk
  { fx := turn.fx, review := outcome.1, returnedDrns := outcome.2 }

/-- What the run leaves on the disk. -/
def leaves (disk : AuditDisk) : AuditDisk :=
  (startRun env (turn.heldOut env) turn.runId turn.fx.caseId disk).2

end Turn

/-- A judge that throws ends the eval; what the runs have written stays. -/
def evalLoop (env : Env) (judge : Option Judge) :
    List Turn → Tally → AuditDisk → Except Thrown Tally × AuditDisk
  | [], t, disk => (.ok t, disk)
  | turn :: turns, t, disk =>
    match scoreCase judge t (turn.graded env disk) with
    | .error e => (.error e, turn.leaves env disk)
    | .ok t => evalLoop env judge turns t (turn.leaves env disk)

structure EvalReport where
  tally : Tally
  n : Nat
  prPass : Bool

def prPass (pr : PairedRegression) (t : Tally) : Bool :=
  t.verdicts pr.base = some (lit "disagree_decline") &&
    t.verdicts pr.variant = some (lit "cannot_determine")

/-- `main`. -/
def evalMain (env : Env) (judge : Option Judge) (pr : PairedRegression) (turns : List Turn)
    (disk : AuditDisk) : Except Thrown EvalReport × AuditDisk :=
  let (t, left) := evalLoop env judge turns Tally.empty disk
  (t.map fun t => { tally := t, n := turns.length, prPass := prPass pr t }, left)

end StormReview
