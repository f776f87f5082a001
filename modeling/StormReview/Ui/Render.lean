import StormReview.Js.Html
import StormReview.Ui.Page

/-! The markup that the page writes into its panels, as the strings it concatenates. -/
namespace StormReview
open Js Zod

/-- `esc(s)`. -/
def esc (s : Text) : Text := Html.escape s

/-- `esc(s)` where `s` may be missing. -/
def escOpt (s : Option Text) : Text := esc (s.getD [])

def onOff (b : Bool) : Text := if b then lit "on" else lit "off"

def yesNo (b : Bool) : Text := if b then lit "yes" else lit "no"

/-- The key and the value of a line in a panel. -/
def row (k : String) (v : Text) : Text :=
  lit "<div class=\"row\"><span class=\"k\">" ++ lit k ++ lit "</span><span class=\"v\">" ++ v ++
    lit "</span></div>"

def kvNone : Text := lit "<div class=\"kv\">none</div>"

def errorPanel (inner : Text) : Text :=
  lit "<div class=\"panel\"><div class=\"error\">" ++ inner ++ lit "</div></div>"

/-! `showRunning`. -/

def runningHtml : Text :=
  lit "<div class=\"panel\"><div class=\"loading\">Running the reviewer..." ++
    lit "<div class=\"steps\"><span class=\"step active\">prefetch</span>" ++
    lit "<span class=\"step\">investigate</span><span class=\"step\">guard</span>" ++
    lit "<span class=\"step\">gate</span></div>" ++
    lit "<div class=\"skel\" style=\"width:80%;margin:20px auto 0\"></div>" ++
    lit "<div class=\"skel\" style=\"width:60%;margin:10px auto\"></div></div></div>"

def skeletonHtml : Text :=
  lit "<div class=\"panel\"><div class=\"skel\"></div>" ++
    lit "<div class=\"skel\" style=\"width:70%\"></div>" ++
    lit "<div class=\"skel\" style=\"width:50%\"></div></div>"

/-! `renderLeft`. -/

def photoHtml (p : Photo) : Text :=
  lit "<div class=\"photo\"><div class=\"desc\">" ++ esc p.description ++
    lit "</div><div class=\"tags\">" ++
    lit "<span class=\"badge\">" ++ esc (Enum.text p.taken) ++ lit "</span>" ++
    lit "<span class=\"badge " ++ onOff p.dated ++ lit "\">" ++
      (if p.dated then lit "dated" else lit "undated") ++ lit "</span>" ++
    lit "<span class=\"badge " ++ onOff p.exifPresent ++ lit "\">" ++
      (if p.exifPresent then lit "EXIF" else lit "no EXIF") ++ lit "</span>" ++
    (if p.showsPriorRepair then lit "<span class=\"badge on\">prior repair</span>" else []) ++
    lit "</div></div>"

/-- How many fragments the guard took out of the narrative. -/
def removedCount (rep : Option LeftReport) : Nat :=
  ((rep.bind (·.guardEvents)).map (·.injectionRemoved.length)).getD 0

def guardNote (rep : Option LeftReport) : Text :=
  if removedCount rep = 0 then []
  else
    lit "<div class=\"guardline\">injectionGuard removed " ++ natText (removedCount rep) ++
      lit " instruction-shaped fragment(s) from the narrative</div>"

def isTruthy (n : Number) : Bool := n != lit "0" && n != lit "NaN"

def emergencyRow (rep : Option LeftReport) : Text :=
  match (rep.bind (·.customerEmergencyRepairCost)).filter isTruthy with
  | some cost => row "Emergency repair paid" (esc cost ++ lit " GBP")
  | none => []

def recommendationPanel (rep : Option LeftReport) : Text :=
  lit "<div class=\"panel\"><h2>Adjuster recommendation</h2>" ++
    row "Recommendation"
      (lit "<b>" ++ escOpt (rep.map fun r => Enum.text r.recommendation) ++ lit "</b>") ++
    row "Stated reason" (escOpt (rep.map (·.statedReason))) ++
    row "Author"
      (escOpt (rep.map fun r => Enum.text r.author.type) ++ lit " - " ++
        escOpt (rep.map (·.author.firm))) ++
    row "Prior repairs seen" (yesNo (rep.any (·.priorRepairsObserved))) ++
    row "Causation reasoned" (yesNo (rep.any (·.causationReasoned))) ++
    emergencyRow rep ++
    lit "<details><summary>Narrative (sanitized, untrusted evidence)</summary>" ++
    lit "<div class=\"kv\" style=\"margin-top:6px\">" ++ escOpt (rep.map (·.narrative)) ++
    lit "</div></details>" ++ guardNote rep ++ lit "</div>"

def photosPanel (rep : Option LeftReport) : Text :=
  let photos := (rep.elim [] (·.photos)).flatMap photoHtml
  lit "<div class=\"panel\"><h2>Photos</h2>" ++ (if photos = [] then kvNone else photos) ++
    lit "</div>"

def vulnerability : Option LeftCustomer → Text
  | some cust =>
    if cust.vulnerabilityFlag.getD false then
      lit "<span class=\"badge off\">flagged" ++
        (match cust.vulnerabilityCategory with
          | some category => lit ": " ++ esc (Enum.text category)
          | none => []) ++
        lit "</span>"
    else lit "<span class=\"badge\">none</span>"
  | none => lit "<span class=\"badge\">none</span>"

def weatherValue (w : Option LeftWeather) : Text :=
  if w.any (·.status = .unavailable) then
    lit "<span class=\"badge off\">unavailable: " ++ escOpt (w.bind (·.reason)) ++ lit "</span>"
  else
    lit "named storm " ++ esc (orText (w.bind (·.namedStorm)) (lit "none")) ++ lit ", " ++
      natText (w.elim 0 (·.stations.length)) ++ lit " stations"

def policyPanel (left : Left) : Text :=
  lit "<div class=\"panel\"><h2>Policy and customer</h2>" ++
    row "Wording"
      (escOpt (left.wording.map (·.version)) ++ lit " (" ++
        (if left.wording.any (·.discretionary) then lit "discretionary"
          else lit "hard threshold") ++ lit ")") ++
    row "Vulnerability" (vulnerability left.customer) ++
    row "Tenure"
      (escOpt (left.customer.map (·.tenureYears)) ++ lit " yrs, " ++
        escOpt (left.customer.map (·.priorClaims)) ++ lit " prior claims") ++
    row "Weather" (weatherValue left.weather) ++ lit "</div>"

def leftHtml (left : Left) : Text :=
  recommendationPanel left.report ++ photosPanel left.report ++ policyPanel left

/-! `renderRight`. -/

def evidenceHtml (e : Evidence) : Text :=
  lit "<div class=\"ev\">" ++ esc e.quote ++ lit "<div class=\"src\">" ++
    esc (Enum.text e.source) ++ lit " : " ++ esc e.ref ++ lit "</div></div>"

def gapHtml (g : Text) : Text := lit "<div class=\"gap\">gap: " ++ esc g ++ lit "</div>"

def findingBlock {φ : Type} [Enum φ] (id title : String) (f : Finding φ) : Text :=
  lit "<div class=\"q\"><div class=\"qhead\"><span class=\"qid\">" ++ lit id ++
    lit "</span><span class=\"finding " ++ esc (Enum.text f.finding) ++ lit "\">" ++
    esc (Enum.text f.finding) ++
    lit "</span><span class=\"kv\" style=\"color:var(--ink-dim)\">" ++ lit title ++
    lit "</span></div>" ++ f.evidence.flatMap evidenceHtml ++ f.gaps.flatMap gapHtml ++
    lit "</div>"

/-- The banner; `adjuster` is the recommendation that the verdict is compared with. -/
def bannerOf (v : VerdictView) (adjuster : Text) (rev : Review) : Text :=
  lit "<div class=\"banner " ++ v.tone ++ lit "\">" ++
    lit "<span class=\"pill " ++ v.tone ++ lit "\">" ++ esc v.label ++ lit "</span>" ++
    lit "<span class=\"badge\" style=\"margin-left:8px\">confidence: " ++
      esc (Enum.text rev.confidence) ++ lit "</span>" ++
    lit "<div class=\"headline\">" ++ esc v.line ++ lit "</div>" ++
    lit "<div class=\"action\">" ++ esc v.action ++ lit "</div>" ++
    lit "<div class=\"compare\"><div class=\"box\"><div class=\"t\">Adjuster</div>" ++
      esc adjuster ++ lit "</div>" ++
    lit "<div class=\"box\"><div class=\"t\">Reviewer</div>" ++ esc (Enum.text rev.verdict) ++
      lit "</div></div>" ++
    lit "</div>"

/-- `d.left?.report?.recommendation || 'decline'`. -/
def adjusterText (left : Left) : Text :=
  left.report.elim (lit "decline") fun r => Enum.text r.recommendation

def bannerHtml (left : Left) (rev : Review) : Text :=
  bannerOf (verdictView rev.verdict) (adjusterText left) rev

def headlineControl : Text :=
  lit "no outbound network: the agent has private data and reads untrusted text, so it cannot " ++
    lit "send. This is the headline control."

def guardPanel (guard : Option GuardResult) : Text :=
  let warnings := guard.elim [] (·.scope.warnings)
  lit "<div class=\"panel\"><h2>Guards</h2>" ++
    lit "<div class=\"guardline\">precedentGuard: " ++
      (if guard.any (·.precedent.ok) then lit "ok (every cited DRN was returned this run)"
        else lit "BLOCKED") ++ lit "</div>" ++
    lit "<div class=\"guardline\">scopeGuard: " ++
      (if guard.any (·.scope.ok) then lit "ok (verdict is a review value, never an action)"
        else lit "BLOCKED") ++
      (if warnings = [] then [] else lit " - " ++ esc (join (lit "; ") warnings)) ++
      lit "</div>" ++
    (if guard.any (·.blocked) then
      lit "<div class=\"guardline block\">BLOCKED: " ++ escOpt (guard.bind (·.blockReason)) ++
        lit "</div>"
    else []) ++
    lit "<div class=\"guardline\">" ++ headlineControl ++ lit "</div>" ++
    lit "</div>"

def liHtml (x : Text) : Text := lit "<li>" ++ esc x ++ lit "</li>"

def traceItem (t : ToolCall) : Text :=
  lit "<div class=\"trace-item\"><span class=\"tool\">" ++
    (if t.tool.isNullish then [] else esc t.tool.display) ++
    lit "</span> <span class=\"args\">" ++ escOpt t.args.stringify ++
    lit "</span><div class=\"kv\" style=\"color:var(--ink-mute)\">" ++ esc t.resultSummary ++
    lit "</div></div>"

def citedText (rev : Review) : Text :=
  if rev.citedDrns = [] then lit "none" else join (lit ", ") (rev.citedDrns.map esc)

def qualityPanel (body : RunBody) (rev : Review) : Text :=
  let quality := rev.adjusterReportQuality
  lit "<div class=\"panel\">" ++
    lit "<details open><summary>Report quality, carve-outs, Consumer Duty, citations</summary>" ++
    row "Photos dated" (yesNo quality.photosDated) ++
    row "Correct property" (yesNo quality.photosOfCorrectProperty) ++
    row "Prior repairs documented" (yesNo quality.priorRepairsDocumented) ++
    row "Causation reasoned" (yesNo quality.causationReasoned) ++
    row "Temp repair payable" (esc (Enum.text rev.carveOuts.temporaryRepairPayable)) ++
    row "Internal accidental" (esc (Enum.text rev.carveOuts.accidentalDamageInternal)) ++
    row "Cash criteria met" (esc (Enum.text rev.consumerDutyChecks.cashCriteriaMet)) ++
    row "Escalate"
      (if rev.escalate.required then
        lit "yes: " ++ esc (join (lit ", ") (rev.escalate.toTargets.map Enum.text))
      else lit "no") ++
    row "Cited DRNs" (citedText rev) ++
    row "Produced by" (esc (orText body.modelUsed [])) ++ lit "</details></div>"

def reviewHtml (body : RunBody) (rev : Review) : Text :=
  let trace := body.toolCalls.flatMap traceItem
  bannerHtml body.left rev ++
    lit "<div class=\"panel\"><h2>Ombudsman questions</h2>" ++
    findingBlock "Q1" "storm conditions occurred?" rev.q1StormConditions ++
    findingBlock "Q2" "damage of a storm kind?" rev.q2DamageConsistent ++
    findingBlock "Q3" "storm the main cause?" rev.q3MainCause ++
    lit "</div>" ++
    guardPanel body.guard ++
    lit "<div class=\"panel\"><h2>Draft paragraph for the handler</h2><div class=\"kv\">" ++
    esc rev.draftParagraph ++ lit "</div></div>" ++
    lit "<div class=\"panel\"><h2>Why this confidence</h2><ul class=\"drivers\">" ++
    rev.confidenceDrivers.flatMap liHtml ++ lit "</ul>" ++
    lit "<h2 style=\"margin-top:12px\">Would change my mind</h2><ul class=\"change\">" ++
    rev.wouldChangeMind.flatMap liHtml ++ lit "</ul></div>" ++
    qualityPanel body rev ++
    lit "<div class=\"panel\"><h2>Tool-call trace</h2>" ++
    (if trace = [] then kvNone else trace) ++ lit "</div>"

/-! What stands in each place of the page. -/

/-- The left panel; `pick` is what the page is loaded with. -/
def LeftPanel.html : LeftPanel → Text
  | .pick =>
    lit "<div class=\"panel\"><div class=\"empty\">Pick a case above to run the reviewer." ++
      lit "</div></div>"
  | .skeleton => skeletonHtml
  | .blank => []
  | .shown left => leftHtml left

/-- The right panel; `message` words the error of a server that could not be reached. -/
def RightPanel.html (message : Text) : RightPanel → Text
  | .blank => []
  | .running => runningHtml
  | .unreachable => errorPanel (lit "Could not reach the server. " ++ esc message)
  | .notProduced said =>
    errorPanel
      (lit "The review could not be produced, so it was sent to a human.<br>" ++ esc said)
  | .noReview => errorPanel (lit "No structured review available. Sent to a human.")
  | .reviewed body rev => reviewHtml body rev

def Response.decision : Response → Option Decision
  | .resumed _ _ decision _ => some decision
  | _ => none

def Response.filing : Response → Option Filing
  | .resumed _ _ _ audit => audit.map (·.decision)
  | .ran body => body.audit.map (·.decision)
  | _ => none

/-- `lockAndShowDone`. -/
def doneHtml (d : Response) : Text :=
  let decision := d.decision.map Enum.text
  lit "Filed. Decision: <b>" ++ escOpt decision ++ lit "</b>. Run " ++ escOpt d.runId ++
    lit " recorded to the audit log (" ++
    escOpt (some (orText (d.filing.map Filing.text) (decision.getD []))) ++
    lit "). The action bar is locked. Pick another case to continue."

/-- The button of a case. -/
def caseButtonHtml (c : CaseRecord) : Text :=
  lit "<b>Case " ++ esc c.id ++ lit ": " ++ esc c.title ++ lit "</b><span>" ++
    esc (c.summary.take 90) ++ lit "...</span>"

end StormReview
