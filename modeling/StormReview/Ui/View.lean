import StormReview.Ui.Elements

/-! What the page means to show: trees whose texts are the texts of the answer, as they are. -/
namespace StormReview
open Js Zod Html

/-! The left panel. -/

def rowView (k : String) (v : List Node) : Node := div "row" [span "k" (literal k), span "v" v]

@[simp] theorem print_rowView {k : String} (h : isPlain (lit k) = true) (v : List Node) :
    print (rowView k v) = row k (printAll v) := by
  simp (disch := decide) only [rowView, row, print_div, print_span, printAll_cons, printAll_nil,
    printAll_literal h]
  generalize lit k = key
  simp

def yesNoView (b : Bool) : List Node := literal (if b then "yes" else "no")

@[simp] theorem printAll_yesNoView (b : Bool) : printAll (yesNoView b) = yesNo b := by
  cases b <;> simp (disch := decide) [yesNoView, yesNo]

def noneView : Node := div "kv" (literal "none")

@[simp] theorem print_noneView : print noneView = kvNone := by
  simp (disch := decide) [noneView, kvNone]

def onOffBadge (b : Bool) (label : List Node) : Node :=
  classed spanTag (lit "badge " ++ onOff b) label

@[simp] theorem print_onOffBadge (b : Bool) (label : List Node) :
    print (onOffBadge b label) =
      lit "<span class=\"badge " ++ (onOff b ++ (lit "\">" ++ (printAll label ++ lit "</span>"))) := by
  have hclass : escape (lit "badge " ++ onOff b) = lit "badge " ++ onOff b :=
    escape_of_plain (by cases b <;> decide)
  simp [onOffBadge, print_classed, hclass]

def photoView (p : Photo) : Node :=
  div "photo"
    [div "desc" (text p.description),
      div "tags"
        ([span "badge" (text (Enum.text p.taken)),
          onOffBadge p.dated (if p.dated then literal "dated" else literal "undated"),
          onOffBadge p.exifPresent (if p.exifPresent then literal "EXIF" else literal "no EXIF")] ++
          if p.showsPriorRepair then [span "badge on" (literal "prior repair")] else [])]

@[simp] theorem print_photoView (p : Photo) : print (photoView p) = photoHtml p := by
  unfold photoView photoHtml
  simp (disch := decide)

def guardNoteView (rep : Option LeftReport) : List Node :=
  if removedCount rep = 0 then []
  else
    [div "guardline"
      (literal "injectionGuard removed " ++ text (natText (removedCount rep)) ++
        literal " instruction-shaped fragment(s) from the narrative")]

theorem isPlain_natText (n : Nat) : isPlain (natText n) = true := by
  refine List.all_eq_true.mpr fun c hc => ?_
  have hdigit := isDigit_of_mem_natText hc
  have hother {d : UInt16} (hd : isDigit d = false) : c ≠ d := by
    rintro rfl
    simp [hdigit] at hd
  simp [hother (d := cu '&') (by decide), hother (d := cu '<') (by decide),
    hother (d := cu '>') (by decide), hother (d := cu '"') (by decide)]

@[simp] theorem printAll_guardNoteView (rep : Option LeftReport) :
    printAll (guardNoteView rep) = guardNote rep := by
  by_cases h : removedCount rep = 0
  · simp [guardNoteView, guardNote, h]
  · simp (disch := decide) [guardNoteView, guardNote, h, escape_of_plain (isPlain_natText _)]

def emergencyView (rep : Option LeftReport) : List Node :=
  ((rep.bind (·.customerEmergencyRepairCost)).filter isTruthy).elim [] fun cost =>
    [rowView "Emergency repair paid" (text cost ++ literal " GBP")]

@[simp] theorem printAll_emergencyView (rep : Option LeftReport) :
    printAll (emergencyView rep) = emergencyRow rep := by
  cases h : (rep.bind (·.customerEmergencyRepairCost)).filter isTruthy <;>
    simp (disch := decide) [emergencyView, emergencyRow, h]

def recommendationView (rep : Option LeftReport) : Node :=
  div "panel"
    ([bare h2Tag (literal "Adjuster recommendation"),
      rowView "Recommendation" [bare bTag (textOpt (rep.map fun r => Enum.text r.recommendation))],
      rowView "Stated reason" (textOpt (rep.map (·.statedReason))),
      rowView "Author"
        (textOpt (rep.map fun r => Enum.text r.author.type) ++ literal " - " ++
          textOpt (rep.map (·.author.firm))),
      rowView "Prior repairs seen" (yesNoView (rep.any (·.priorRepairsObserved))),
      rowView "Causation reasoned" (yesNoView (rep.any (·.causationReasoned)))] ++
      emergencyView rep ++
      [bare detailsTag
        [bare summaryTag (literal "Narrative (sanitized, untrusted evidence)"),
          styled divTag "kv" "margin-top:6px" (textOpt (rep.map (·.narrative)))]] ++
      guardNoteView rep)

@[simp] theorem print_recommendationView (rep : Option LeftReport) :
    print (recommendationView rep) = recommendationPanel rep := by
  unfold recommendationView recommendationPanel
  simp (disch := decide) [print_styled]

def photosView (rep : Option LeftReport) : Node :=
  let photos := (rep.elim [] (·.photos)).map photoView
  div "panel"
    (bare h2Tag (literal "Photos") :: if photos = [] then [noneView] else photos)

theorem photoHtml_ne_nil (p : Photo) : photoHtml p ≠ [] := by
  have h : lit "<div class=\"photo\"><div class=\"desc\">" ≠ [] := by decide
  simp only [photoHtml, ne_eq, List.append_eq_nil_iff, h, false_and, not_false_eq_true]

@[simp] theorem print_photosView (rep : Option LeftReport) :
    print (photosView rep) = photosPanel rep := by
  cases h : rep.elim [] (·.photos) with
  | nil => simp (disch := decide) [photosView, photosPanel, h]
  | cons p ps =>
    simp (disch := decide) [photosView, photosPanel, h, photoHtml_ne_nil p]

def vulnerabilityView (cust : Option LeftCustomer) : Node :=
  if (cust.bind (·.vulnerabilityFlag)).getD false then
    span "badge off"
      (literal "flagged" ++ (cust.bind (·.vulnerabilityCategory)).elim [] fun category =>
        literal ": " ++ text (Enum.text category))
  else span "badge" (literal "none")

@[simp] theorem print_vulnerabilityView (cust : Option LeftCustomer) :
    print (vulnerabilityView cust) = vulnerability cust := by
  cases cust with
  | none => simp (disch := decide) [vulnerabilityView, vulnerability]
  | some cust =>
    cases hf : cust.vulnerabilityFlag.getD false <;> cases hc : cust.vulnerabilityCategory <;>
      simp (disch := decide) [vulnerabilityView, vulnerability, hf, hc]

def weatherView (w : Option LeftWeather) : List Node :=
  if w.any (·.status = .unavailable) then
    [span "badge off" (literal "unavailable: " ++ textOpt (w.bind (·.reason)))]
  else
    literal "named storm " ++ text (orText (w.bind (·.namedStorm)) (lit "none")) ++
      literal ", " ++ text (natText (w.elim 0 (·.stations.length))) ++ literal " stations"

@[simp] theorem printAll_weatherView (w : Option LeftWeather) :
    printAll (weatherView w) = weatherValue w := by
  cases h : w.any (·.status = .unavailable) <;>
    simp (disch := decide) [weatherView, weatherValue, h, escape_of_plain (isPlain_natText _)]

def policyView (left : Left) : Node :=
  div "panel"
    [bare h2Tag (literal "Policy and customer"),
      rowView "Wording"
        (textOpt (left.wording.map (·.version)) ++ literal " (" ++
          (if left.wording.any (·.discretionary) then literal "discretionary"
            else literal "hard threshold") ++ literal ")"),
      rowView "Vulnerability" [vulnerabilityView left.customer],
      rowView "Tenure"
        (textOpt (left.customer.map (·.tenureYears)) ++ literal " yrs, " ++
          textOpt (left.customer.map (·.priorClaims)) ++ literal " prior claims"),
      rowView "Weather" (weatherView left.weather)]

@[simp] theorem print_policyView (left : Left) : print (policyView left) = policyPanel left := by
  unfold policyView policyPanel
  simp (disch := decide)

def leftView (left : Left) : List Node :=
  [recommendationView left.report, photosView left.report, policyView left]

theorem printAll_leftView (left : Left) : printAll (leftView left) = leftHtml left := by
  unfold leftView leftHtml
  simp []

/-! The right panel. -/

/-- What the panel shows of a tool call. -/
@[ext] structure SeenCall where
  tool : Text
  args : Text
  resultSummary : Text

@[ext] structure SeenGuard where
  precedentOk : Bool
  scopeOk : Bool
  warnings : Option Text
  blocked : Option Text

/-- What the panel shows of an answer. -/
@[ext] structure Seen where
  adjuster : Text
  verdict : Verdict
  confidence : Confidence
  q1StormConditions : Finding StormConditions
  q2DamageConsistent : Finding DamageConsistent
  q3MainCause : Finding MainCause
  guard : SeenGuard
  draftParagraph : Text
  confidenceDrivers : List Text
  wouldChangeMind : List Text
  photosDated : Bool
  photosOfCorrectProperty : Bool
  priorRepairsDocumented : Bool
  causationReasoned : Bool
  carveOuts : CarveOuts
  cashCriteriaMet : CashCriteria
  escalate : Option Text
  cited : Text
  producedBy : Text
  toolCalls : List SeenCall

def seenCall (t : ToolCall) : SeenCall where
  tool := if t.tool.isNullish then [] else t.tool.display
  args := t.args.stringify.getD []
  resultSummary := t.resultSummary

def seenGuard (guard : Option GuardResult) : SeenGuard :=
  let warnings := guard.elim [] (·.scope.warnings)
  { precedentOk := guard.any (·.precedent.ok)
    scopeOk := guard.any (·.scope.ok)
    warnings := if warnings = [] then none else some (join (lit "; ") warnings)
    blocked :=
      if guard.any (·.blocked) then some ((guard.bind (·.blockReason)).getD []) else none }

@[simps] def seen (body : RunBody) (rev : Review) : Seen where
  adjuster := adjusterText body.left
  verdict := rev.verdict
  confidence := rev.confidence
  q1StormConditions := rev.q1StormConditions
  q2DamageConsistent := rev.q2DamageConsistent
  q3MainCause := rev.q3MainCause
  guard := seenGuard body.guard
  draftParagraph := rev.draftParagraph
  confidenceDrivers := rev.confidenceDrivers
  wouldChangeMind := rev.wouldChangeMind
  photosDated := rev.adjusterReportQuality.photosDated
  photosOfCorrectProperty := rev.adjusterReportQuality.photosOfCorrectProperty
  priorRepairsDocumented := rev.adjusterReportQuality.priorRepairsDocumented
  causationReasoned := rev.adjusterReportQuality.causationReasoned
  carveOuts := rev.carveOuts
  cashCriteriaMet := rev.consumerDutyChecks.cashCriteriaMet
  escalate :=
    if rev.escalate.required then
      some (join (lit ", ") (rev.escalate.toTargets.map Enum.text))
    else none
  cited := if rev.citedDrns = [] then lit "none" else join (lit ", ") rev.citedDrns
  producedBy := orText body.modelUsed []
  toolCalls := body.toolCalls.map seenCall

def evidenceView (e : Evidence) : Node :=
  div "ev"
    (text e.quote ++ [div "src" (text (Enum.text e.source) ++ literal " : " ++ text e.ref)])

@[simp] theorem print_evidenceView (e : Evidence) : print (evidenceView e) = evidenceHtml e := by
  simp (disch := decide) [evidenceView, evidenceHtml]

def gapView (g : Text) : Node := div "gap" (literal "gap: " ++ text g)

@[simp] theorem print_gapView (g : Text) : print (gapView g) = gapHtml g := by
  simp (disch := decide) [gapView, gapHtml]

def findingView {φ : Type} [Enum φ] (id title : String) (f : Finding φ) : Node :=
  div "q"
    (div "qhead"
        [span "qid" (literal id),
          classed spanTag (lit "finding " ++ Enum.text f.finding) (text (Enum.text f.finding)),
          styled spanTag "kv" "color:var(--ink-dim)" (literal title)] ::
      (f.evidence.map evidenceView ++ f.gaps.map gapView))

@[simp] theorem print_findingView {φ : Type} [Enum φ] {id title : String}
    (hid : isPlain (lit id) = true) (htitle : isPlain (lit title) = true) (f : Finding φ) :
    print (findingView id title f) = findingBlock id title f := by
  have hclass : escape (lit "finding ") = lit "finding " := escape_of_plain (by decide)
  simp (disch := decide) only [findingView, findingBlock, print_div, print_span, print_classed,
    print_styled, printAll_cons, printAll_nil, printAll_append, printAll_map, printAll_text,
    printAll_literal hid, printAll_literal htitle, escape_append, hclass, esc_eq,
    print_evidenceView, print_gapView]
  generalize lit id = i
  generalize lit title = t
  simp

def bannerView (v : VerdictView) (s : Seen) : Node :=
  classed divTag (lit "banner " ++ v.tone)
    [classed spanTag (lit "pill " ++ v.tone) (text v.label),
      styled spanTag "badge" "margin-left:8px"
        (literal "confidence: " ++ text (Enum.text s.confidence)),
      div "headline" (text v.line),
      div "action" (text v.action),
      div "compare"
        [div "box" (div "t" (literal "Adjuster") :: text s.adjuster),
          div "box" (div "t" (literal "Reviewer") :: text (Enum.text s.verdict))]]

theorem isPlain_tone (v : Verdict) : isPlain (verdictView v).tone = true := by
  cases v <;> decide

theorem print_bannerView {v : VerdictView} (h : isPlain v.tone = true) (body : RunBody)
    (rev : Review) :
    print (bannerView v (seen body rev)) = bannerOf v (adjusterText body.left) rev := by
  have hbanner : escape (lit "banner ") = lit "banner " := escape_of_plain (by decide)
  have hpill : escape (lit "pill ") = lit "pill " := escape_of_plain (by decide)
  unfold bannerView bannerOf
  simp (disch := decide) [print_classed, print_styled, escape_append, hbanner, hpill,
    escape_of_plain h]

def guardView (g : SeenGuard) : Node :=
  div "panel"
    ([bare h2Tag (literal "Guards"),
      div "guardline"
        (literal "precedentGuard: " ++
          if g.precedentOk then literal "ok (every cited DRN was returned this run)"
          else literal "BLOCKED"),
      div "guardline"
        (literal "scopeGuard: " ++
          (if g.scopeOk then literal "ok (verdict is a review value, never an action)"
          else literal "BLOCKED") ++ g.warnings.elim [] fun w => literal " - " ++ text w)] ++
      (g.blocked.elim [] fun why => [div "guardline block" (literal "BLOCKED: " ++ text why)]) ++
      [div "guardline" (text headlineControl)])

theorem isPlain_headlineControl : isPlain headlineControl = true := by decide

@[simp] theorem print_guardView (guard : Option GuardResult) :
    print (guardView (seenGuard guard)) = guardPanel guard := by
  unfold guardView guardPanel seenGuard
  simp (disch := decide) [elim_ite, escape_of_plain isPlain_headlineControl, escOpt]

def liView (x : Text) : Node := bare liTag (text x)

@[simp] theorem print_liView (x : Text) : print (liView x) = liHtml x := by
  simp [liView, liHtml]

def traceView (t : SeenCall) : Node :=
  div "trace-item"
    ([span "tool" (text t.tool)] ++ literal " " ++
      [span "args" (text t.args),
        styled divTag "kv" "color:var(--ink-mute)" (text t.resultSummary)])

@[simp] theorem print_traceView (t : ToolCall) : print (traceView (seenCall t)) = traceItem t := by
  unfold traceView traceItem seenCall
  simp (disch := decide) [print_styled, apply_ite escape, escOpt]

theorem traceItem_ne_nil (t : ToolCall) : traceItem t ≠ [] := by
  have h : lit "<div class=\"trace-item\"><span class=\"tool\">" ≠ [] := by decide
  simp only [traceItem, ne_eq, List.append_eq_nil_iff, h, false_and, not_false_eq_true]

def callsView (calls : List SeenCall) : List Node :=
  if calls.isEmpty then [noneView] else calls.map traceView

@[simp] theorem printAll_callsView (calls : List ToolCall) :
    printAll (callsView (calls.map seenCall)) =
      if calls.flatMap traceItem = [] then kvNone else calls.flatMap traceItem := by
  cases calls with
  | nil => simp [callsView]
  | cons t ts => simp [callsView, traceItem_ne_nil t]

theorem escape_join {sep : Text} (h : isPlain sep = true) (parts : List Text) :
    escape (join sep parts) = join sep (parts.map escape) := by
  induction parts with
  | nil => rfl
  | cons u parts ih =>
    by_cases hp : parts = []
    · simp [hp, join_singleton]
    · have hmap : parts.map escape ≠ [] := by simpa using hp
      rw [List.map_cons, join_cons hp, join_cons hmap, escape_append, escape_append, ih,
        escape_of_plain h]

def qualityView (s : Seen) : Node :=
  div "panel"
    [.element detailsTag [(openAttr, none)]
      [bare summaryTag (literal "Report quality, carve-outs, Consumer Duty, citations"),
        rowView "Photos dated" (yesNoView s.photosDated),
        rowView "Correct property" (yesNoView s.photosOfCorrectProperty),
        rowView "Prior repairs documented" (yesNoView s.priorRepairsDocumented),
        rowView "Causation reasoned" (yesNoView s.causationReasoned),
        rowView "Temp repair payable" (text (Enum.text s.carveOuts.temporaryRepairPayable)),
        rowView "Internal accidental" (text (Enum.text s.carveOuts.accidentalDamageInternal)),
        rowView "Cash criteria met" (text (Enum.text s.cashCriteriaMet)),
        rowView "Escalate" (s.escalate.elim (literal "no") fun t => literal "yes: " ++ text t),
        rowView "Cited DRNs" (text s.cited),
        rowView "Produced by" (text s.producedBy)]]

theorem escape_cited (rev : Review) :
    escape (if rev.citedDrns = [] then lit "none" else join (lit ", ") rev.citedDrns) =
      citedText rev := by
  unfold citedText
  simp (disch := decide) [apply_ite escape, escape_join, escape_of_plain]

@[simp] theorem print_qualityView (body : RunBody) (rev : Review) :
    print (qualityView (seen body rev)) = qualityPanel body rev := by
  unfold qualityView qualityPanel
  simp (disch := decide) [print, printOpen, printAttr, elim_ite, escape_cited]

def Seen.view (s : Seen) : List Node :=
  [bannerView (verdictView s.verdict) s,
    div "panel"
      [bare h2Tag (literal "Ombudsman questions"),
        findingView "Q1" "storm conditions occurred?" s.q1StormConditions,
        findingView "Q2" "damage of a storm kind?" s.q2DamageConsistent,
        findingView "Q3" "storm the main cause?" s.q3MainCause],
    guardView s.guard,
    div "panel"
      [bare h2Tag (literal "Draft paragraph for the handler"), div "kv" (text s.draftParagraph)],
    div "panel"
      [bare h2Tag (literal "Why this confidence"),
        classed ulTag (lit "drivers") (s.confidenceDrivers.map liView),
        .element h2Tag [(styleAttr, some (lit "margin-top:12px"))]
          (literal "Would change my mind"),
        classed ulTag (lit "change") (s.wouldChangeMind.map liView)],
    qualityView s,
    div "panel"
      (bare h2Tag (literal "Tool-call trace") :: callsView s.toolCalls)]

theorem printAll_seen (body : RunBody) (rev : Review) :
    printAll (seen body rev).view = reviewHtml body rev := by
  have hbanner := print_bannerView (isPlain_tone rev.verdict) body rev
  unfold Seen.view reviewHtml bannerHtml
  simp (disch := decide) [hbanner, print_classed, print, printOpen, printAttr, escape_of_plain]

/-! What stands in each place of the page. -/

def errorView (inner : List Node) : List Node := [div "panel" [div "error" inner]]

@[simp] theorem printAll_errorView (inner : List Node) :
    printAll (errorView inner) = errorPanel (printAll inner) := by
  simp (disch := decide) [errorView, errorPanel]

def skeletonView : List Node :=
  [div "panel"
    [div "skel" [], styled divTag "skel" "width:70%" [], styled divTag "skel" "width:50%" []]]

theorem printAll_skeletonView : printAll skeletonView = skeletonHtml := by
  decide

def runningView : List Node :=
  [div "panel"
    [div "loading"
      (literal "Running the reviewer..." ++
        [div "steps"
          [span "step active" (literal "prefetch"), span "step" (literal "investigate"),
            span "step" (literal "guard"), span "step" (literal "gate")],
          styled divTag "skel" "width:80%;margin:20px auto 0" [],
          styled divTag "skel" "width:60%;margin:10px auto" []])]]

theorem printAll_runningView : printAll runningView = runningHtml := by
  decide +kernel

def LeftPanel.view : LeftPanel → List Node
  | .pick => [div "panel" [div "empty" (literal "Pick a case above to run the reviewer.")]]
  | .skeleton => skeletonView
  | .blank => []
  | .shown left => leftView left

theorem LeftPanel.printAll_view (p : LeftPanel) : printAll p.view = p.html := by
  cases p with
  | pick => simp (disch := decide) [LeftPanel.view, LeftPanel.html]
  | skeleton => exact printAll_skeletonView
  | blank => rfl
  | shown left => exact printAll_leftView left

def RightPanel.view (message : Text) : RightPanel → List Node
  | .blank => []
  | .running => runningView
  | .unreachable => errorView (literal "Could not reach the server. " ++ text message)
  | .notProduced said =>
    errorView
      (literal "The review could not be produced, so it was sent to a human." ++
        .void brTag [] :: text said)
  | .noReview => errorView (literal "No structured review available. Sent to a human.")
  | .reviewed body rev => (seen body rev).view

theorem RightPanel.printAll_view (message : Text) (p : RightPanel) :
    printAll (p.view message) = p.html message := by
  cases p with
  | blank => rfl
  | running => exact printAll_runningView
  | unreachable => simp (disch := decide) [RightPanel.view, RightPanel.html]
  | notProduced said =>
    simp (disch := decide) [RightPanel.view, RightPanel.html, print, printOpen]
  | noReview => simp (disch := decide) [RightPanel.view, RightPanel.html]
  | reviewed body rev => exact printAll_seen body rev

def doneView (d : Response) : List Node :=
  let decision := d.decision.map Enum.text
  literal "Filed. Decision: " ++ [bare bTag (textOpt decision)] ++ literal ". Run " ++
    textOpt d.runId ++ literal " recorded to the audit log (" ++
    text (orText (d.filing.map Filing.text) (decision.getD [])) ++
    literal "). The action bar is locked. Pick another case to continue."

theorem printAll_doneView (d : Response) : printAll (doneView d) = doneHtml d := by
  unfold doneView doneHtml
  simp (disch := decide) [escOpt]

def caseButtonView (c : CaseRecord) : List Node :=
  [bare bTag (literal "Case " ++ text c.id ++ literal ": " ++ text c.title),
    bare spanTag (text (c.summary.take 90) ++ literal "...")]

theorem printAll_caseButtonView (c : CaseRecord) :
    printAll (caseButtonView c) = caseButtonHtml c := by
  simp (disch := decide) [caseButtonView, caseButtonHtml]

end StormReview
