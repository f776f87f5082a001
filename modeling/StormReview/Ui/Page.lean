import StormReview.Server.Server

/-! The page a handler decides on: what it shows of an answer, what each control does to it, and
what it posts. -/
namespace StormReview
open Js Zod

/-! An answer as the page reads it; a field it does not have is absent. -/
namespace Response

def runId : Response → Option Text
  | .rejected runId _ | .resumed runId _ _ _ => some runId
  | .ran body => some body.runId
  | .refused _ _ | .restarted => none

def status : Response → Option Text
  | .rejected _ _ => some (lit "error")
  | .ran body => some body.status
  | .resumed _ status _ _ => some status
  | .refused _ _ | .restarted => none

def error : Response → Option Text
  | .refused _ error | .rejected _ error => some error
  | _ => none

def left : Response → Option Left
  | .ran body => some body.left
  | _ => none

def review : Response → Option Review
  | .ran body => body.review
  | _ => none

def suspendReason : Response → Option Text
  | .ran body => body.suspendReason
  | _ => none

end Response

/-- `t || u` where `t` may be missing. -/
def orText (t : Option Text) (u : Text) : Text := if t.getD [] = [] then u else t.getD []

structure VerdictView where
  tone : Text
  label : Text
  line : Text
  action : Text

/-- `VERDICT`. -/
def verdictView : Verdict → VerdictView
  | .disagreeDecline =>
    { tone := lit "attention"
      label := lit "Decline NOT defensible"
      line := lit "The adjuster's decline is NOT defensible on the evidence."
      action := lit "You are being asked to overturn the decline, or override with a reason." }
  | .disagreeCash =>
    { tone := lit "attention"
      label := lit "Cash offer NOT defensible"
      line := lit "The cash settlement is NOT defensible on the evidence."
      action := lit "You are being asked to overturn the cash offer, or override with a reason." }
  | .agreeDecline =>
    { tone := lit "neutral"
      label := lit "Decline defensible"
      line := lit "The adjuster's decline is defensible."
      action := lit "You are being asked to uphold the decline. A decline is customer-adverse, so " ++
        lit "read the evidence before signing." }
  | .agreeCash =>
    { tone := lit "neutral"
      label := lit "Cash offer defensible"
      line := lit "The cash settlement is defensible."
      action := lit "You are being asked to uphold the cash offer." }
  | .cannotDetermine =>
    { tone := lit "unresolved"
      label := lit "Cannot be judged from the file"
      line := lit "This cannot be judged from the evidence on file."
      action := lit "You are being asked to decide next steps given the evidence gap." }

def willRecordText (rev : Review) : Text :=
  match rev.verdict with
  | .disagreeDecline =>
    lit "Records: decline recommendation NOT upheld (AI assessment accepted)."
  | .agreeDecline => lit "Records: decline recommendation upheld."
  | .disagreeCash => lit "Records: cash offer NOT upheld."
  | .agreeCash => lit "Records: cash offer upheld."
  | .cannotDetermine => lit "Records: cannot determine from the file; referred."

/-- Whether accepting the assessment first asks for a tick. -/
def needsFriction (review : Option Review) : Bool :=
  review.any fun rev =>
    (lit "disagree").isPrefixOf (Enum.text rev.verdict) || rev.verdict = .cannotDetermine ||
      rev.confidence ≠ .high

/-! The state of the page. -/

/-- `{ runId, caseId, payload }` of the last answer to a run. -/
structure Current where
  runId : Option Text
  caseId : Text
  payload : Response

inductive LeftPanel where
  | pick
  | skeleton
  | blank
  | shown (left : Left)

inductive RightPanel where
  | blank
  | running
  | unreachable
  | notProduced (message : Text)
  | noReview
  | reviewed (body : RunBody) (rev : Review)

/-- The decision bar; what is not shown cannot be clicked. -/
structure Bar where
  shown : Bool
  actionsShown : Bool
  reason : Text
  reasonShown : Bool
  frictionShown : Bool
  readEvidence : Bool
  willRecord : Text
  approveDisabled : Bool
  overrideForm : Bool
  escalateForm : Bool
  doneMsg : Option Response
  doneShown : Bool

/-- The options of the select for the replacement outcome. -/
inductive Outcome where
  | overturnDecline | upholdDecline | refer
  deriving DecidableEq

def Outcome.text : Outcome → Text
  | .overturnDecline => lit "overturn_decline"
  | .upholdDecline => lit "uphold_decline"
  | .refer => lit "refer"

structure OverrideForm where
  ovOutcome : Outcome
  ovMode : Option FailureMode
  ovReason : Text

structure EscalateForm where
  esTo : EscalateTo
  esReason : Text

structure Page where
  current : Option Current
  active : Option Text
  left : LeftPanel
  right : RightPanel
  bar : Bar
  override : OverrideForm
  escalate : EscalateForm

/-- The page as it is loaded, with the bar hidden. -/
def Page.initial : Page where
  current := none
  active := none
  left := .pick
  right := .blank
  bar :=
    { shown := false, actionsShown := true, reason := [], reasonShown := true
      frictionShown := false, readEvidence := false, willRecord := [], approveDisabled := false
      overrideForm := false, escalateForm := false, doneMsg := none, doneShown := false }
  override := { ovOutcome := .overturnDecline, ovMode := none, ovReason := [] }
  escalate := { esTo := .technicalLead, esReason := [] }

/-! What an answer does to the page. -/

def showRunning (p : Page) : Page :=
  { p with left := .skeleton, right := .running, bar := { p.bar with shown := false } }

def renderLeft (left : Option Left) (p : Page) : Page :=
  { p with left := left.elim .blank .shown }

def renderRight (d : Response) (p : Page) : Page :=
  match d, d.review with
  | .ran body, some rev => { p with right := .reviewed body rev }
  | _, _ => if d.status = some (lit "failed") then p else { p with right := .noReview }

def renderBar (d : Response) (p : Page) : Page :=
  { p with
    bar :=
      { doneMsg := p.bar.doneMsg
        doneShown := false
        actionsShown := true
        reasonShown := true
        reason := lit "Suspended for a human: " ++ orText d.suspendReason []
        shown := true
        overrideForm := false
        escalateForm := false
        frictionShown := needsFriction d.review
        readEvidence := false
        willRecord := d.review.elim [] willRecordText
        approveDisabled := needsFriction d.review } }

/-- `runCase`, from its answer on. -/
def runAnswered (caseId : Text) (d : Response) (p : Page) : Page :=
  let p :=
    if d.status = some (lit "failed") ∨ d.review.isNone ∧ d.status ≠ some (lit "suspended") then
      { renderLeft d.left p with right := .notProduced (orText d.error (orText d.suspendReason [])) }
    else p
  let p := { p with current := some { runId := d.runId, caseId, payload := d } }
  let p := renderRight d (renderLeft d.left p)
  if d.status = some (lit "suspended") then renderBar d p else p

def lockAndShowDone (d : Response) (p : Page) : Page :=
  { p with
    bar :=
      { p.bar with
        actionsShown := false
        reasonShown := false
        overrideForm := false
        escalateForm := false
        doneMsg := some d
        doneShown := true
        shown := true } }

def barSays (text : Text) (p : Page) : Page := { p with bar := { p.bar with reason := text } }

/-- `resume`, from its answer on. -/
def resumeAnswered (d : Response) (p : Page) : Page :=
  if d.error.getD [] = [] then lockAndShowDone d p
  else barSays (lit "Error: " ++ d.error.getD []) p

/-! What the page posts. -/

/-- A call of the page: the text is the JSON of a resume's body. The id, put into the path as it
is, is taken to come out of it as the route's parameter, which it does where it holds nothing that
a path reads otherwise. -/
inductive PageCall where
  | run (caseId : Text)
  | resume (runId text : Text)

/-- The path segment that `'/resume/' + current.runId` ends in. -/
def Current.resumeId (c : Current) : Text := c.runId.getD (lit "undefined")

/-- `resume`, up to its call; with no current run it does nothing. -/
def Page.resume (p : Page) (body : Value) : Option PageCall :=
  p.current.map fun c => .resume c.resumeId (body.stringify.getD [])

def Page.review (p : Page) : Option Review := p.current.bind fun c => c.payload.review

def approveReason (review : Option Review) : Text :=
  lit "Accepted AI assessment: " ++ review.elim [] fun rev => (verdictView rev.verdict).label

def overrideReason (outcome : Outcome) (reason : Text) : Text :=
  outcome.text ++ lit ": " ++ reason

def escalateReason (esTo : EscalateTo) (reason : Text) : Text :=
  lit "to " ++ Enum.text esTo ++ lit ": " ++ reason

def approveBody (review : Option Review) : Value :=
  .obj [(lit "decision", .str (lit "approve")), (lit "reason", .str (approveReason review))]

def overrideBody (outcome : Outcome) (reason : Text) (mode : FailureMode) : Value :=
  .obj [(lit "decision", .str (lit "override")),
    (lit "reason", .str (overrideReason outcome reason)),
    (lit "failureMode", word mode), (lit "domainNote", .str outcome.text)]

def escalateBody (esTo : EscalateTo) (reason : Text) : Value :=
  .obj [(lit "decision", .str (lit "escalate")),
    (lit "reason", .str (escalateReason esTo reason)),
    (lit "domainNote", word esTo)]

/-! The controls. -/

/-- What the handler does on the page. -/
inductive PageAct where
  | runCase (caseId : Text)
  | tick
  | approve
  | overrideBtn
  | escalateBtn
  | fillOverride (form : OverrideForm)
  | fillEscalate (form : EscalateForm)
  | ovSubmit
  | esSubmit

/-- The buttons of the bar are there to be clicked. -/
def Bar.live (b : Bar) : Bool := b.shown && b.actionsShown

/-- The page after an act and what it posts; absent where the control is not there. -/
def Page.act : PageAct → Page → Option (Page × Option PageCall)
  | .runCase caseId, p => some (showRunning { p with active := some caseId }, some (.run caseId))
  | .tick, p =>
    let checked := !p.bar.readEvidence
    if p.bar.live ∧ p.bar.frictionShown then
      some ({ p with bar := { p.bar with readEvidence := checked, approveDisabled := !checked } },
        none)
    else none
  | .approve, p =>
    if p.bar.live ∧ !p.bar.approveDisabled then some (p, p.resume (approveBody p.review)) else none
  | .overrideBtn, p =>
    if p.bar.live then
      some ({ p with
        bar := { p.bar with overrideForm := !p.bar.overrideForm, escalateForm := false } }, none)
    else none
  | .escalateBtn, p =>
    if p.bar.live then
      some ({ p with
        bar := { p.bar with escalateForm := !p.bar.escalateForm, overrideForm := false } }, none)
    else none
  | .fillOverride form, p =>
    if p.bar.shown ∧ p.bar.overrideForm then some ({ p with override := form }, none) else none
  | .fillEscalate form, p =>
    if p.bar.shown ∧ p.bar.escalateForm then some ({ p with escalate := form }, none) else none
  | .ovSubmit, p =>
    if p.bar.shown ∧ p.bar.overrideForm then
      match trim p.override.ovReason, p.override.ovMode with
      | c :: reason, some mode =>
        some (p, p.resume (overrideBody p.override.ovOutcome (c :: reason) mode))
      | _, _ => some (barSays (lit "Override needs a reason and a failure mode.") p, none)
    else none
  | .esSubmit, p =>
    if p.bar.shown ∧ p.bar.escalateForm then
      match trim p.escalate.esReason with
      | c :: reason => some (p, p.resume (escalateBody p.escalate.esTo (c :: reason)))
      | [] => some (barSays (lit "Escalation needs a reason.") p, none)
    else none

/-- How the page goes on when a call is answered, or fails. -/
def Page.read : PageCall → Option Response → Page → Page
  | .run caseId, some d, p => runAnswered caseId d p
  | .run _, none, p => { p with right := .unreachable }
  | .resume _ _, some d, p => resumeAnswered d p
  | .resume _ _, none, p => p

end StormReview
