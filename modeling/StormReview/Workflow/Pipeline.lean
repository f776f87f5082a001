import StormReview.Server.Server

/-! One run from its start: the state that reaches the gate, and what the gate and the record
step make of it. -/
namespace StormReview
open Js Zod Engine

/-- The case has a record and an adjuster report. -/
structure OnFile (files : Files) (caseId : Text) (caseRecord : CaseRecord)
    (report : AdjusterReport) : Prop where
  case : loadCase files caseId = some caseRecord
  report : loadReport files caseRecord.claimId = some report

/-- What is on file for a case is determined. -/
theorem OnFile.unique {files : Files} {caseId : Text} {caseRecord caseRecord' : CaseRecord}
    {report report' : AdjusterReport} (h : OnFile files caseId caseRecord report)
    (h' : OnFile files caseId caseRecord' report') : caseRecord' = caseRecord ∧ report' = report := by
  obtain rfl := Option.some.inj (h'.case.symm.trans h.case)
  exact ⟨rfl, Option.some.inj (h'.report.symm.trans h.report)⟩

section produced
variable (env : Env) (world : World) (caseId : Text) (contextBlock : Option Text)

/-- The value handed to the schema, if the run gets that far: the recorded review, or the object
of an agent call whose tool results could be read. -/
def rawReview : Option Value :=
  if shouldUseGolden env then (loadGolden world.files caseId).map (·.review)
  else
    match world.agent (agentMessage contextBlock) with
    | .error _ => none
    | .ok res =>
      match (toolResults res).mapItems world.errors.notMappable with
      | .error _ => none
      | .ok results =>
        match collectReturnedDrns world.errors.notIterable results with
        | .error _ => none
        | .ok _ => some (res.get (lit "object"))

/-- The raw review, when the schema accepts it. -/
def parsedReview : Option Review :=
  (rawReview env world caseId contextBlock).bind fun v =>
    match reviewSchema v with
    | .ok parsed => some parsed
    | .issues _ => none

theorem structured_review (value : Value) (error : List Issue → Text) (toolCalls : List ToolCall)
    (returnedDrns : List Value) (modelUsed : Text) :
    (structured value error toolCalls returnedDrns modelUsed).review =
      (match reviewSchema value with
        | .ok parsed => some parsed
        | .issues _ => none).map tidyReview := by
  cases h : reviewSchema value <;> simp [structured, h, structuringFailure]

theorem structured_failed (value : Value) (error : List Issue → Text) (toolCalls : List ToolCall)
    (returnedDrns : List Value) (modelUsed : Text) :
    (structured value error toolCalls returnedDrns modelUsed).structuringFailed =
      (structured value error toolCalls returnedDrns modelUsed).review.isNone := by
  cases h : reviewSchema value <;> simp [structured, h, structuringFailure]

theorem structured_returnedDrns (value : Value) (error : List Issue → Text)
    (toolCalls : List ToolCall) (returnedDrns : List Value) (modelUsed : Text) :
    (structured value error toolCalls returnedDrns modelUsed).returnedDrns = returnedDrns := by
  cases h : reviewSchema value <;> simp [structured, h, structuringFailure]

theorem structured_toolCalls (value : Value) (error : List Issue → Text)
    (toolCalls : List ToolCall) (returnedDrns : List Value) (modelUsed : Text) :
    (structured value error toolCalls returnedDrns modelUsed).toolCalls = toolCalls := by
  cases h : reviewSchema value <;> simp [structured, h, structuringFailure]

/-- The review of a run is the tidied raw review. -/
theorem produce_review : (produce env world caseId contextBlock).review =
    (parsedReview env world caseId contextBlock).map tidyReview := by
  unfold produce parsedReview rawReview
  by_cases hg : shouldUseGolden env = true
  · rw [if_pos hg, if_pos hg]
    cases h : loadGolden world.files caseId with
    | none => simp [reviewGolden, h, structuringFailure]
    | some g => simp [reviewGolden, h, structured_review]
  · rw [if_neg hg, if_neg hg, reviewLive]
    cases world.agent (agentMessage contextBlock) with
    | error err => rfl
    | ok res =>
      simp only
      cases (toolResults res).mapItems world.errors.notMappable with
      | error err => rfl
      | ok results =>
        simp only
        cases collectReturnedDrns world.errors.notIterable results with
        | error err => rfl
        | ok drns => exact structured_review ..

/-- There is no review exactly when structuring failed. -/
theorem produce_failed : (produce env world caseId contextBlock).structuringFailed =
    (produce env world caseId contextBlock).review.isNone := by
  unfold produce
  split
  · unfold reviewGolden
    split
    · rfl
    · exact structured_failed ..
  · unfold reviewLive
    split
    · rfl
    · split
      · rfl
      · dsimp only
        split
        · rfl
        · exact structured_failed ..

/-- The model that a produced review is attributed to. -/
def modelFor : Text := if shouldUseGolden env then goldenCache else agentModel env

variable {env world caseId contextBlock}

theorem parsedReview_eq_some {rev : Review} :
    parsedReview env world caseId contextBlock = some rev ↔
      ∃ raw, rawReview env world caseId contextBlock = some raw ∧ reviewSchema raw = .ok rev := by
  simp only [parsedReview, Option.bind_eq_some_iff]
  constructor
  · rintro ⟨raw, hraw, h⟩
    cases hs : reviewSchema raw with
    | ok parsed =>
      rw [hs] at h
      obtain rfl : parsed = rev := by simpa using h
      exact ⟨raw, hraw, hs⟩
    | issues found => simp [hs] at h
  · rintro ⟨raw, hraw, hs⟩
    exact ⟨raw, hraw, by rw [hs]⟩

/-- With a review, its source shows only in the tools' results and in the model. -/
theorem produce_parsed {rev : Review} (h : parsedReview env world caseId contextBlock = some rev) :
    produce env world caseId contextBlock =
      { review := some (tidyReview rev)
        structuringFailed := false
        structuringError := none
        toolCalls := (produce env world caseId contextBlock).toolCalls
        returnedDrns := (produce env world caseId contextBlock).returnedDrns
        modelUsed := modelFor env } := by
  obtain ⟨raw, hraw, hschema⟩ := parsedReview_eq_some.mp h
  unfold rawReview at hraw
  unfold produce modelFor
  by_cases hg : shouldUseGolden env = true
  · simp only [hg, if_true] at hraw ⊢
    obtain ⟨g, hload, rfl⟩ := Option.map_eq_some_iff.mp hraw
    simp only [reviewGolden, hload, structured, hschema]
  · simp only [hg, Bool.false_eq_true, if_false] at hraw ⊢
    cases hagent : world.agent (agentMessage contextBlock) with
    | error err => simp [hagent] at hraw
    | ok res =>
      simp only [hagent] at hraw
      cases hresults : (toolResults res).mapItems world.errors.notMappable with
      | error err => simp [hresults] at hraw
      | ok results =>
        simp only [hresults] at hraw
        cases hdrns : collectReturnedDrns world.errors.notIterable results with
        | error err => simp [hdrns] at hraw
        | ok drns =>
          simp only [hdrns, Option.some.injEq] at hraw
          simp only [reviewLive, hagent, hresults, hdrns, structured, hraw, hschema]

/-- An agent call whose tool results can be read leads to the schema. -/
theorem produce_live {res : Value} {results drns : List Value}
    (hlive : shouldUseGolden env = false)
    (hagent : world.agent (agentMessage contextBlock) = .ok res)
    (hresults : toolResults res = .arr results)
    (hdrns : collectReturnedDrns world.errors.notIterable results = .ok drns) :
    produce env world caseId contextBlock =
      structured (res.get (lit "object")) liveError (results.map toolCallOf) drns
        (agentModel env) := by
  have hitems : (toolResults res).mapItems world.errors.notMappable = .ok results := by
    rw [hresults]
    rfl
  simp only [produce, hlive, Bool.false_eq_true, if_false, reviewLive, hagent, hitems, hdrns]

theorem rawReview_live {res : Value} {results drns : List Value}
    (hlive : shouldUseGolden env = false)
    (hagent : world.agent (agentMessage contextBlock) = .ok res)
    (hresults : toolResults res = .arr results)
    (hdrns : collectReturnedDrns world.errors.notIterable results = .ok drns) :
    rawReview env world caseId contextBlock = some (res.get (lit "object")) := by
  have hitems : (toolResults res).mapItems world.errors.notMappable = .ok results := by
    rw [hresults]
    rfl
  simp only [rawReview, hlive, Bool.false_eq_true, if_false, hagent, hitems, hdrns]

end produced

/-- The review step's abstention, from the facts of the case. -/
def backstop (facts : GateFacts) (rev : Review) : Review :=
  if facts.weatherStatus = .unavailable then abstain rev else rev

section run
variable (env : Env) (world : World) (caseId : Text) (caseRecord : CaseRecord)
  (report : AdjusterReport)

/-- What the review step has for a case that is on file. -/
def producedFor : Reviewed :=
  produce env world caseId (some (contextOf (prefetchRecords world.files caseRecord report)))

/-- The raw review of a case that is on file, when the schema accepts it. -/
def parsedFor : Option Review :=
  parsedReview env world caseId (some (contextOf (prefetchRecords world.files caseRecord report)))

/-- The DRNs returned in the run, as far as they are texts. -/
def returnedFor : List Text :=
  (producedFor env world caseId caseRecord report).returnedDrns.filterMap Value.textOf

/-- The DRNs returned in the run are texts, as the tool's output schema has them. -/
def DrnsAreTexts : Prop :=
  ∀ v ∈ (producedFor env world caseId caseRecord report).returnedDrns, ∃ drn, v = .str drn

/-- The case is on file, and its run arrives at its gate. -/
structure Arrives : Prop where
  onFile : OnFile world.files caseId caseRecord report
  texts : DrnsAreTexts env world caseId caseRecord report

def factsFor : GateFacts := gateFactsOf (prefetchRecords world.files caseRecord report)

/-- The review the guard checks. -/
def checkedReview : Option Review :=
  (parsedFor env world caseId caseRecord report).map fun rev =>
    backstop (factsFor world caseRecord report) (tidyReview rev)

def prefetchedFlow : Flow :=
  { Flow.initial caseId with
    claimId := some caseRecord.claimId
    contextBlock := some (contextOf (prefetchRecords world.files caseRecord report))
    prefetch := some (prefetchRecords world.files caseRecord report)
    gateFacts := some (factsFor world caseRecord report) }

def reviewedFlow : Flow :=
  let made := producedFor env world caseId caseRecord report
  { prefetchedFlow world caseId caseRecord report with
    review := checkedReview env world caseId caseRecord report
    structuringFailed := some made.structuringFailed
    structuringError := made.structuringError
    toolCalls := some made.toolCalls
    returnedDrns := some (returnedFor env world caseId caseRecord report)
    modelUsed := some made.modelUsed }

/-- The state that reaches the gate. -/
def gateFlow : Flow :=
  let made := producedFor env world caseId caseRecord report
  let rev := checkedReview env world caseId caseRecord report
  let returned := returnedFor env world caseId caseRecord report
  { reviewedFlow env world caseId caseRecord report with
    review := rev.map fun r => (guardReview r returned).1
    guard := some
      (match rev with
        | some r => (guardReview r returned).2
        | none => unstructuredGuard made.structuringError returned) }

variable {env world caseId caseRecord report}

theorem mem_returnedFor {drn : Text} : drn ∈ returnedFor env world caseId caseRecord report ↔
    .str drn ∈ (producedFor env world caseId caseRecord report).returnedDrns := by
  simp only [returnedFor, List.mem_filterMap, Value.textOf_eq_some, exists_eq_right]

theorem drnsAreTexts_of_map {drns : List Text}
    (h : (producedFor env world caseId caseRecord report).returnedDrns = drns.map .str) :
    DrnsAreTexts env world caseId caseRecord report := by
  intro v hv
  rw [h] at hv
  obtain ⟨drn, -, rfl⟩ := List.mem_map.mp hv
  exact ⟨drn, rfl⟩

/-- A recording holds texts. -/
theorem golden_returnedDrns (h : shouldUseGolden env = true) :
    (producedFor env world caseId caseRecord report).returnedDrns =
      (((loadGolden world.files caseId).bind (·.returnedDrns)).getD []).map .str := by
  rw [producedFor, produce, if_pos h, reviewGolden]
  cases loadGolden world.files caseId with
  | none => rfl
  | some g => exact structured_returnedDrns ..

theorem drnsAreTexts_golden (h : shouldUseGolden env = true) :
    DrnsAreTexts env world caseId caseRecord report :=
  drnsAreTexts_of_map (golden_returnedDrns h)

theorem checkedReview_parsed {rev : Review}
    (h : parsedFor env world caseId caseRecord report = some rev) :
    checkedReview env world caseId caseRecord report =
      some (backstop (factsFor world caseRecord report) (tidyReview rev)) := by
  simp [checkedReview, h]

theorem prefetch_onFile (h : OnFile world.files caseId caseRecord report) :
    prefetch world (Flow.initial caseId) = .next (prefetchedFlow world caseId caseRecord report) := by
  have hcase : loadCase world.files (Flow.initial caseId).caseId = some caseRecord := h.case
  simp only [prefetch, hcase, h.report]
  rfl

/-- Without a record or a report the run ends in prefetch. -/
theorem prefetch_offFile (h : ¬ ∃ caseRecord report, OnFile world.files caseId caseRecord report) :
    ∃ e, prefetch world (Flow.initial caseId) = .throw e := by
  unfold prefetch
  have hid : (Flow.initial caseId).caseId = caseId := rfl
  rw [hid]
  split
  · exact ⟨_, rfl⟩
  · rename_i caseRecord hcase
    split
    · exact ⟨_, rfl⟩
    · rename_i report hreport
      exact absurd ⟨caseRecord, report, hcase, hreport⟩ h

/-- The review step leaves the checked review. -/
theorem reviewed_review :
    (reviewed env world (prefetchedFlow world caseId caseRecord report)).review =
      checkedReview env world caseId caseRecord report := by
  have hproduced := produce_review env world caseId
    (some (contextOf (prefetchRecords world.files caseRecord report)))
  have hreview : (if weatherUnavailable (some (factsFor world caseRecord report)) then
        (producedFor env world caseId caseRecord report).review.map abstain
      else (producedFor env world caseId caseRecord report).review) =
      checkedReview env world caseId caseRecord report := by
    rw [producedFor, hproduced, checkedReview, parsedFor]
    by_cases hw : (factsFor world caseRecord report).weatherStatus = .unavailable
    · simp [weatherUnavailable, hw, backstop, Function.comp_def]
    · simp [weatherUnavailable, hw, backstop]
  exact hreview

theorem review_texts (h : DrnsAreTexts env world caseId caseRecord report) :
    review env world (prefetchedFlow world caseId caseRecord report) =
      .next (reviewedFlow env world caseId caseRecord report) := by
  have hread : array string
      (.arr (reviewed env world (prefetchedFlow world caseId caseRecord report)).returnedDrns) =
      .ok (returnedFor env world caseId caseRecord report) :=
    array_string_eq_ok.mpr (Value.map_textOf h).symm
  simp only [review, hread, Parsed.within_ok, reviewed_review]
  rfl

/-- A DRN that is no text ends the run between the review and the guard. -/
theorem review_notTexts (h : ¬ DrnsAreTexts env world caseId caseRecord report) :
    ∃ e, review env world (prefetchedFlow world caseId caseRecord report) = .throw e := by
  cases hread : (array string (.arr (reviewed env world
      (prefetchedFlow world caseId caseRecord report)).returnedDrns)).within
      (lit "returnedDrns") with
  | issues found =>
    exact ⟨.error (world.errors.invalidInput found), by simp only [review, hread]⟩
  | ok drns =>
    exact absurd (drnsAreTexts_of_map (array_string_eq_ok.mp (Parsed.within_eq_ok.mp hread))) h

theorem guard_onFile : guard (reviewedFlow env world caseId caseRecord report) =
    .next (gateFlow env world caseId caseRecord report) := by
  have hproduced := produce_review env world caseId
    (some (contextOf (prefetchRecords world.files caseRecord report)))
  have hfailed := produce_failed env world caseId
    (some (contextOf (prefetchRecords world.files caseRecord report)))
  rw [hproduced] at hfailed
  cases hr : parsedFor env world caseId caseRecord report with
  | none =>
    have hchecked : checkedReview env world caseId caseRecord report = none := by
      simp [checkedReview, hr]
    simp [guard, gateFlow, reviewedFlow, hchecked]
  | some rev =>
    rw [parsedFor] at hr
    have hfalse : (producedFor env world caseId caseRecord report).structuringFailed = false := by
      rw [producedFor, hfailed, hr]
      rfl
    simp [guard, gateFlow, reviewedFlow, checkedReview, parsedFor, hr, hfalse]

/-- The steps before the gate lead to `gateFlow`, and touch nothing. -/
theorem drive_to_gate (h : Arrives env world caseId caseRecord report)
    (rest : List WorkflowStep) (disk : AuditDisk) :
    drive (.quiet "prefetch" (fun _ => prefetch world) ::
        .quiet "review" (fun _ => review env world) :: .quiet "guard" (fun _ => guard) :: rest)
        none (Flow.initial caseId) disk =
      drive rest none (gateFlow env world caseId caseRecord report) disk := by
  rw [drive_quiet_next (prefetch_onFile h.onFile),
    drive_quiet_next (f := fun _ => review env world) (review_texts h.texts),
    drive_quiet_next guard_onFile]

/-- A run that does not arrive at its gate fails, and touches nothing. -/
theorem drive_not_arrives (h : ¬ ∃ caseRecord report, Arrives env world caseId caseRecord report) :
    ∃ e, ∀ (rest : List WorkflowStep) (disk : AuditDisk),
      drive (.quiet "prefetch" (fun _ => prefetch world) ::
        .quiet "review" (fun _ => review env world) :: rest) none (Flow.initial caseId) disk =
      (.failed e, disk) := by
  by_cases hfile : ∃ caseRecord report, OnFile world.files caseId caseRecord report
  · obtain ⟨caseRecord, report, hon⟩ := hfile
    obtain ⟨e, he⟩ := review_notTexts fun htexts => h ⟨caseRecord, report, hon, htexts⟩
    refine ⟨e, fun rest disk => ?_⟩
    rw [drive_quiet_next (prefetch_onFile hon),
      drive_quiet_throw (f := fun _ => review env world) he]
  · obtain ⟨e, he⟩ := prefetch_offFile hfile
    exact ⟨e, fun _ _ => drive_quiet_throw he⟩

/-- The review at the gate is the checked one, without the citations that were not returned. -/
theorem gateFlow_review : (gateFlow env world caseId caseRecord report).review =
    (checkedReview env world caseId caseRecord report).map fun r =>
      { r with citedDrns := r.citedDrns.filter fun d =>
          d ∈ returnedFor env world caseId caseRecord report } := by
  simp only [gateFlow, guardReview_review]

/-- The state that reaches the gate with a review, from the prefetched one, the results of the
tools and what the guard made of the review. -/
def guardedFlow (env : Env) (prefetched : Flow) (toolCalls : List ToolCall)
    (returnedDrns : List Text) (guarded : Review × GuardResult) : Flow :=
  { prefetched with
    review := some guarded.1
    structuringFailed := some false
    structuringError := none
    toolCalls := some toolCalls
    returnedDrns := some returnedDrns
    modelUsed := some (modelFor env)
    guard := some guarded.2 }

theorem gateFlow_parsed {rev : Review} (h : parsedFor env world caseId caseRecord report = some rev) :
    gateFlow env world caseId caseRecord report =
      guardedFlow env (prefetchedFlow world caseId caseRecord report)
        (producedFor env world caseId caseRecord report).toolCalls
        (returnedFor env world caseId caseRecord report)
        (guardReview (backstop (factsFor world caseRecord report) (tidyReview rev))
          (returnedFor env world caseId caseRecord report)) := by
  have hmade : producedFor env world caseId caseRecord report = _ := produce_parsed h
  have hfailed := congrArg Reviewed.structuringFailed hmade
  have herror := congrArg Reviewed.structuringError hmade
  have hmodel := congrArg Reviewed.modelUsed hmade
  simp only at hfailed herror hmodel
  simp only [gateFlow, reviewedFlow, checkedReview_parsed h, hfailed, herror, hmodel, returnedFor,
    Option.map_some, guardedFlow]

/-- The state `flow` of a run reaches its gate. -/
def ReachesGate (env : Env) (world : World) (runId caseId : Text) (disk : AuditDisk)
    (flow : Flow) : Prop :=
  start ((stormReview env world runId).take 3) (Flow.initial caseId) disk = (.success flow, disk)

theorem reachesGate_iff {runId : Text} {disk : AuditDisk} {flow : Flow} :
    ReachesGate env world runId caseId disk flow ↔
      ∃ caseRecord report, Arrives env world caseId caseRecord report ∧
        flow = gateFlow env world caseId caseRecord report := by
  constructor
  · intro hreach
    by_cases harrives : ∃ caseRecord report, Arrives env world caseId caseRecord report
    · obtain ⟨caseRecord, report, h⟩ := harrives
      have hflow := Eq.trans (drive_to_gate h [] disk).symm hreach
      exact ⟨caseRecord, report, h, by simpa [drive] using hflow.symm⟩
    · obtain ⟨e, he⟩ := drive_not_arrives harrives
      have hflow := (he [.quiet "guard" fun _ => guard] disk).symm.trans hreach
      simp at hflow
  · rintro ⟨caseRecord, report, h, rfl⟩
    exact drive_to_gate h [] disk

theorem startRun_arrives (h : Arrives env world caseId caseRecord report) (runId : Text)
    (disk : AuditDisk) :
    startRun env world runId caseId disk =
      drive [gateStep env, recordStep env world runId] none
        (gateFlow env world caseId caseRecord report) disk := drive_to_gate h _ disk

/-- A run that does not arrive at its gate neither suspends nor files. -/
theorem startRun_not_arrives (h : ¬ ∃ caseRecord report, Arrives env world caseId caseRecord report)
    (runId : Text) (disk : AuditDisk) :
    ∃ e, startRun env world runId caseId disk = (.failed e, disk) :=
  (drive_not_arrives h).imp fun _ he => he _ disk

theorem Arrives.not_of_notTexts (hfile : OnFile world.files caseId caseRecord report)
    (h : ¬ DrnsAreTexts env world caseId caseRecord report) :
    ¬ ∃ caseRecord report, Arrives env world caseId caseRecord report := by
  rintro ⟨caseRecord', report', harrives⟩
  obtain ⟨rfl, rfl⟩ := hfile.unique harrives.onFile
  exact h harrives.texts

theorem startRun_notTexts (hfile : OnFile world.files caseId caseRecord report)
    (h : ¬ DrnsAreTexts env world caseId caseRecord report) (runId : Text) (disk : AuditDisk) :
    ∃ e, startRun env world runId caseId disk = (.failed e, disk) :=
  startRun_not_arrives (Arrives.not_of_notTexts hfile h) runId disk

end run

/-! The gate without resume data, and with it. -/

section gate
variable {env : Env} {world : World} {runId : Text} {flow : Flow} {disk : AuditDisk}

theorem drive_gate_suspends (rest : List WorkflowStep)
    (h : needsHuman (demoAlwaysGate env) flow = true) :
    drive (gateStep env :: rest) none flow disk =
      (.suspended "gate" flow (suspendPayload flow), disk) :=
  drive_quiet_suspend (by simp [gate, h])

theorem drive_gate_files (rest : List WorkflowStep)
    (h : needsHuman (demoAlwaysGate env) flow = false) :
    drive (gateStep env :: rest) none flow disk =
      drive rest none
        { flow with needsHuman := some false, humanDecision := some autoFiledDecision } disk :=
  drive_quiet_next (by simp [gate, h])

/-- A resume executes the gate again, which takes the decision and does not look at the review. -/
theorem resumeRun_eq (data : ResumeData) :
    resumeRun env world runId data flow disk =
      drive [recordStep env world runId] none
        { flow with humanDecision := some data.humanDecision, needsHuman := some true } disk := by
  have hsteps : (stormReview env world runId).dropWhile (fun st => st.id ≠ "gate") =
      [gateStep env, recordStep env world runId] := by
    simp [stormReview, Step.quiet, gateStep, List.dropWhile]
  rw [resumeRun, resume, hsteps]
  exact drive_quiet_next rfl

end gate

/-- A run up to and with its gate. -/
def runToGate (env : Env) (world : World) (runId caseId : Text) (disk : AuditDisk) :
    RunResult × AuditDisk :=
  start ((stormReview env world runId).take 4) (Flow.initial caseId) disk

section runToGate
variable {env : Env} {world : World} {runId caseId : Text} {caseRecord : CaseRecord}
  {report : AdjusterReport} {disk : AuditDisk}

theorem runToGate_suspends (h : Arrives env world caseId caseRecord report)
    (hneeds : needsHuman (demoAlwaysGate env) (gateFlow env world caseId caseRecord report) = true) :
    runToGate env world runId caseId disk =
      (.suspended "gate" (gateFlow env world caseId caseRecord report)
        (suspendPayload (gateFlow env world caseId caseRecord report)), disk) :=
  (drive_to_gate h [gateStep env] disk).trans (drive_gate_suspends [] hneeds)

theorem runToGate_files (h : Arrives env world caseId caseRecord report)
    (hneeds : needsHuman (demoAlwaysGate env) (gateFlow env world caseId caseRecord report) = false) :
    runToGate env world runId caseId disk =
      (.success { gateFlow env world caseId caseRecord report with
        needsHuman := some false, humanDecision := some autoFiledDecision }, disk) :=
  (drive_to_gate h [gateStep env] disk).trans (drive_gate_files [] hneeds)

theorem runToGate_not_arrives
    (h : ¬ ∃ caseRecord report, Arrives env world caseId caseRecord report) :
    ∃ e, runToGate env world runId caseId disk = (.failed e, disk) :=
  (drive_not_arrives h).imp fun _ he => he _ disk

theorem runToGate_notTexts (hfile : OnFile world.files caseId caseRecord report)
    (h : ¬ DrnsAreTexts env world caseId caseRecord report) (runId : Text) (disk : AuditDisk) :
    ∃ e, runToGate env world runId caseId disk = (.failed e, disk) :=
  runToGate_not_arrives (Arrives.not_of_notTexts hfile h)

theorem startRun_suspends (h : Arrives env world caseId caseRecord report)
    (hneeds : needsHuman (demoAlwaysGate env) (gateFlow env world caseId caseRecord report) = true) :
    startRun env world runId caseId disk =
      (.suspended "gate" (gateFlow env world caseId caseRecord report)
        (suspendPayload (gateFlow env world caseId caseRecord report)), disk) := by
  rw [startRun_arrives h, drive_gate_suspends _ hneeds]

theorem startRun_files (h : Arrives env world caseId caseRecord report)
    (hneeds : needsHuman (demoAlwaysGate env) (gateFlow env world caseId caseRecord report) = false) :
    startRun env world runId caseId disk =
      drive [recordStep env world runId] none
        { gateFlow env world caseId caseRecord report with
          needsHuman := some false, humanDecision := some autoFiledDecision } disk := by
  rw [startRun_arrives h, drive_gate_files _ hneeds]

end runToGate

/-! How a run left its gate. -/

inductive Ending where
  | suspended (reason : Option Text)
  | filed
  deriving DecidableEq

def endingOf : RunResult → Option Ending
  | .suspended _ _ p => some (.suspended p.reason)
  | .success _ => some .filed
  | .failed _ => none

def gateEnding (always : Bool) (flow : Flow) : Ending :=
  if needsHuman always flow then .suspended (suspendReason flow) else .filed

/-- The gate reads the guard's answer, the review and the facts of the case, and nothing else. -/
theorem gateEnding_congr (always : Bool) {flow flow' : Flow} (hguard : flow.guard = flow'.guard)
    (hreview : flow.review = flow'.review) (hfacts : flow.gateFacts = flow'.gateFacts) :
    gateEnding always flow = gateEnding always flow' := by
  unfold gateEnding needsHuman suspendReason
  rw [hguard, hreview, hfacts]

/-! The record step: what it can do to the disk. -/

section record
variable (env : Env) (world : World) (runId : Text) (flow : Flow) (disk : AuditDisk)

def decisionOf : HumanDecision := flow.humanDecision.getD autoFiledDecision

/-- The row a run leaves. -/
def rowOf : AuditEntry := auditEntryOf env world.now runId flow (decisionOf flow)

def withRow : AuditDisk := { disk with log := disk.log ++ [rowOf env world runId flow] }

def notePathOf : Text := notePath world.files (flow.claimId.getD (lit "unknown")) runId

def withNote : AuditDisk :=
  { withRow env world runId flow disk with
    notes := Function.update disk.notes (notePathOf world runId flow)
      (some (noteText runId flow (decisionOf flow))) }

def recordedFlow : Flow :=
  { flow with
    audit := some
      { runId, audited := true, notePath := notePathOf world runId flow
        decision := (decisionOf flow).decision } }

/-- Nothing is done, or the row is appended and then the note may be written. -/
theorem record_cases :
    (¬ world.faults.appends ∧ ∃ e, record env world runId flow disk = (.throw e, disk)) ∨
    (world.faults.appends ∧
      ((¬ world.faults.writes (notePathOf world runId flow) ∧
          ∃ e, record env world runId flow disk = (.throw e, withRow env world runId flow disk)) ∨
        (world.faults.writes (notePathOf world runId flow) ∧
          record env world runId flow disk =
            (.next (recordedFlow world runId flow), withNote env world runId flow disk)))) := by
  by_cases h : world.faults.appends
  · refine .inr ⟨h, ?_⟩
    have happend := appendAudit_ok h (rowOf env world runId flow) disk
    simp only [rowOf, decisionOf] at happend
    by_cases hw : world.faults.writes (notePathOf world runId flow)
    · have hnote := writeClaimNote_ok hw (noteText runId flow (decisionOf flow))
        (withRow env world runId flow disk)
      simp only [rowOf, withRow, decisionOf] at hnote
      refine .inr ⟨hw, ?_⟩
      simp only [record, happend, hnote, recordedFlow, withNote, withRow, rowOf, decisionOf,
        notePathOf]
    · obtain ⟨e, he⟩ := writeClaimNote_error hw (noteText runId flow (decisionOf flow))
        (withRow env world runId flow disk)
      simp only [rowOf, withRow, decisionOf] at he
      exact .inl ⟨hw, e, by simp only [record, happend, he, withRow, rowOf, decisionOf]⟩
  · obtain ⟨e, he⟩ := appendAudit_error h (rowOf env world runId flow) disk
    refine .inl ⟨h, e, ?_⟩
    simp only [rowOf, decisionOf] at he
    simp only [record, he]

/-- What the last step of a run leaves, as the engine reports it. -/
theorem drive_record_cases :
    (¬ world.faults.appends ∧
      ∃ e, drive [recordStep env world runId] none flow disk = (.failed e, disk)) ∨
    (world.faults.appends ∧
      ((¬ world.faults.writes (notePathOf world runId flow) ∧
          ∃ e, drive [recordStep env world runId] none flow disk =
            (.failed e, withRow env world runId flow disk)) ∨
        (world.faults.writes (notePathOf world runId flow) ∧
          drive [recordStep env world runId] none flow disk =
            (.success (recordedFlow world runId flow), withNote env world runId flow disk)))) := by
  rcases record_cases env world runId flow disk with ⟨hf, e, h⟩ | ⟨hf, ⟨hw, e, h⟩ | ⟨hw, h⟩⟩
  · exact .inl ⟨hf, e, by simp [drive, recordStep, h]⟩
  · exact .inr ⟨hf, .inl ⟨hw, e, by simp [drive, recordStep, h]⟩⟩
  · exact .inr ⟨hf, .inr ⟨hw, by simp [drive, recordStep, h]⟩⟩

/-- The last step does not suspend. -/
theorem drive_record_not_suspended {step : String} {input : Flow} {payload : SuspendPayload}
    {left : AuditDisk} : drive [recordStep env world runId] none flow disk ≠
      (.suspended step input payload, left) := by
  rcases drive_record_cases env world runId flow disk with ⟨-, e, he⟩ | ⟨-, ⟨-, e, he⟩ | ⟨-, he⟩⟩
  · simp [he]
  · simp [he]
  · simp [he]

/-- Where the audit append works, the row is there whatever becomes of the note. -/
theorem drive_record_log (h : world.faults.appends) :
    (drive [recordStep env world runId] none flow disk).2.log =
      disk.log ++ [rowOf env world runId flow] := by
  rcases drive_record_cases env world runId flow disk with ⟨hf, -⟩ | ⟨-, ⟨-, e, he⟩ | ⟨-, he⟩⟩
  · exact absurd h hf
  · rw [he]
    rfl
  · rw [he]
    rfl

end record

/-- What a run that arrives at its gate can end in: it suspends, or its record step fails, or it
is filed. -/
theorem startRun_outcomes {env : Env} {world : World} {runId caseId : Text}
    {caseRecord : CaseRecord} {report : AdjusterReport} {disk : AuditDisk}
    (h : Arrives env world caseId caseRecord report) :
    let flow := gateFlow env world caseId caseRecord report
    let writable := world.faults.appends ∧
      world.faults.writes (notePath world.files caseRecord.claimId runId)
    (gateEnding (demoAlwaysGate env) flow = .suspended (suspendReason flow) ∧
        startRun env world runId caseId disk =
          (.suspended "gate" flow (suspendPayload flow), disk)) ∨
      gateEnding (demoAlwaysGate env) flow = .filed ∧
        ((¬ writable ∧ ∃ e left, startRun env world runId caseId disk = (.failed e, left)) ∨
          (writable ∧ ∃ left, startRun env world runId caseId disk =
            (.success (recordedFlow world runId
              { flow with needsHuman := some false, humanDecision := some autoFiledDecision }),
              left))) := by
  intro flow writable
  cases hn : needsHuman (demoAlwaysGate env) flow with
  | true => exact .inl ⟨by simp [gateEnding, hn], startRun_suspends h hn⟩
  | false =>
    refine .inr ⟨by simp [gateEnding, hn], ?_⟩
    rw [startRun_files h hn]
    rcases drive_record_cases env world runId _ disk with
      ⟨hf, e, he⟩ | ⟨ha, ⟨hf, e, he⟩ | ⟨hw, he⟩⟩
    · exact .inl ⟨fun hwritable => hf hwritable.1, e, _, he⟩
    · exact .inl ⟨fun hwritable => hf hwritable.2, e, _, he⟩
    · exact .inr ⟨⟨ha, hw⟩, _, he⟩

/-! An installation with one case, whose agent always hands back the same thing. -/

section sample

def sampleCase : CaseRecord where
  id := lit "A"
  title := lit "Ridge tiles"
  claimId := lit "CLM-A"
  customerId := lit "CUST-A"
  policyId := lit "v8"
  postcodeDistrict := lit "WV"
  dateOfLoss := lit "2025-12-09"
  damageType := lit "roof_tiles"
  brand := lit "Aviva"
  summary := []

def sampleReport (recommendation : Recommendation) : AdjusterReport where
  claimId := lit "CLM-A"
  author := { type := .tpa, firm := lit "Meridian" }
  recommendation
  statedReason := lit "wear"
  narrative := []
  photos := []
  priorRepairsObserved := false
  causationReasoned := false
  cashAmount := none
  cashBasis := none
  customerEmergencyRepairCost := none
  guardEvents := none

def sampleWeather : WeatherReport where
  postcodeDistrict := lit "WV"
  dateOfLoss := lit "2025-12-09"
  windowFrom := lit "2025-12-09T00:00:00Z"
  windowTo := lit "2025-12-09T23:59:00Z"
  namedStorm := some (lit "Bram")
  status := .ok
  reason := none
  stations := []

def sampleCustomer (vulnerabilityFlag : Bool) : Customer where
  customerId := lit "CUST-A"
  vulnerabilityFlag := some vulnerabilityFlag
  vulnerabilityCategory := none
  tenureYears := lit "9"
  priorClaims := lit "0"
  ageBand := lit "45-54"
  other := []

def sampleFiles (recommendation : Recommendation) (weather : Option WeatherReport)
    (customer : Option Customer) : Files where
  projectRoot := lit "/app"
  cases := fun _ => some [sampleCase]
  wording := fun _ => none
  weather := fun _ => weather
  report := fun _ => some (sampleReport recommendation)
  customer := fun _ => customer
  golden := fun _ => none
  readdir := fun _ => some [lit "WV.json"]

/-- A live process, with the demo gate on or off. -/
def sampleEnv (demo : Bool) : Env where
  demoAlwaysGateVar := if demo then none else some (lit "false")
  useGoldenVar := some (lit "0")
  anthropicApiKeyVar := some (lit "key")
  agentModelVar := none

def sampleWorld (files : Files) (res : Value) : World where
  files
  agent := fun _ => .ok res
  now := lit "2026-01-01T00:00:00.000Z"
  faults :=
    { mkdirForLog := none, append := none, mkdirForNote := none, writeNote := fun _ => none }
  errors :=
    { notIterable := [], notMappable := [], notSuspended := [], invalidResume := fun _ => [],
      invalidInput := fun _ => [] }

def sampleReview (verdict : Verdict) (citedDrns : List Text) (evidence : List Evidence) :
    Review where
  wordingVersion := lit "v8"
  wordingNote := []
  q1StormConditions := { finding := .yes, evidence, gaps := [] }
  q2DamageConsistent := { finding := .yes, evidence := [], gaps := [] }
  q3MainCause := { finding := .preExisting, evidence := [], gaps := [] }
  adjusterReportQuality :=
    { photosOfCorrectProperty := true, photosDated := true, priorRepairsDocumented := true,
      causationReasoned := true, note := [] }
  verdict
  confidence := .high
  confidenceDrivers := []
  wouldChangeMind := []
  carveOuts := { temporaryRepairPayable := .notApplicable, accidentalDamageInternal := .notApplicable }
  consumerDutyChecks :=
    { vulnerabilityConsidered := true, cashCriteriaMet := .notApplicable, reasonsExplainable := true }
  escalate := { required := false, toTargets := [], why := [] }
  citedDrns
  draftParagraph := []

/-- The result of one call of the precedent tool. -/
def sampleToolResult (drns : List Text) : Value :=
  .obj [(lit "toolName", .str (lit "findFosPrecedents")),
    (lit "result", .obj [(lit "precedents", .arr (drns.map fun d => .obj [(lit "drn", .str d)]))])]

/-- The agent called the precedent tool once, got `drns` and returned a review. -/
def sampleCall (drns : List Text) (rev : Review) : Value :=
  .obj [(lit "toolResults", .arr [sampleToolResult drns]), (lit "object", rev.toJs)]

def emptyDisk : AuditDisk := { log := [], notes := fun _ => none }

variable (recommendation : Recommendation) (weather : Option WeatherReport)
  (customer : Option Customer) (res : Value)

/-- The report as the loader returns it: an empty narrative goes through the guards unchanged. -/
def sampleLoaded : AdjusterReport :=
  { sampleReport recommendation with
    guardEvents := some { injectionRemoved := [], privacyRedactions := 0 } }

theorem sample_onFile : OnFile (sampleWorld (sampleFiles recommendation weather customer) res).files
    (lit "A") sampleCase (sampleLoaded recommendation) := ⟨rfl, rfl⟩

variable (demo : Bool) (files : Files) (drns : List Text) (rev : Review) (caseId : Text)
  (caseRecord : CaseRecord) (report : AdjusterReport)

theorem sample_drns (message : Text) (h : ∀ d ∈ drns, d ≠ []) :
    collectReturnedDrns message [sampleToolResult drns] = .ok ((distinct drns).map .str) := by
  have hkept : ∀ d ∈ drns, (drnOf ∘ fun d => Value.obj [(lit "drn", .str d)]) d =
      (some ∘ Value.str) d := by
    intro d hd
    have hget : (Value.obj [(lit "drn", .str d)]).get (lit "drn") = .str d := rfl
    simp [drnOf, hget, Value.truthy_str_iff, h d hd]
  have hdrn : (drns.map fun d => Value.obj [(lit "drn", .str d)]).filterMap drnOf =
      drns.map .str := by
    rw [List.filterMap_map, List.filterMap_congr hkept, List.filterMap_eq_map]
  have hone : precedentDrns message (sampleToolResult drns) = .ok (drns.map .str) := by
    have hcall : isPrecedentCall (sampleToolResult drns) = true := rfl
    have hresult : ((toolResult (sampleToolResult drns)).get (lit "precedents")).orElse (.arr []) =
        .arr (drns.map fun d => .obj [(lit "drn", .str d)]) := rfl
    rw [precedentDrns, if_pos hcall, hresult, Value.iterate_arr]
    exact congrArg Except.ok hdrn
  simp [collectReturnedDrns, hone, Value.members_map_str]

theorem sample_producedDrns (h : ∀ d ∈ drns, d ≠ []) :
    (producedFor (sampleEnv demo) (sampleWorld files (sampleCall drns rev)) caseId caseRecord
      report).returnedDrns = (distinct drns).map .str := by
  rw [producedFor, produce_live rfl rfl rfl (sample_drns drns _ h), structured_returnedDrns]

/-- The run sees the DRNs of the call, and its raw review is the one of the call. -/
theorem sample_returned (h : ∀ d ∈ drns, d ≠ []) :
    returnedFor (sampleEnv demo) (sampleWorld files (sampleCall drns rev)) caseId caseRecord
      report = distinct drns := by
  rw [returnedFor, sample_producedDrns demo files drns rev caseId caseRecord report h,
    Value.filterMap_textOf_map]

theorem sample_arrives (h : ∀ d ∈ drns, d ≠ []) : Arrives (sampleEnv demo)
    (sampleWorld (sampleFiles recommendation weather customer) (sampleCall drns rev)) (lit "A")
    sampleCase (sampleLoaded recommendation) :=
  ⟨sample_onFile .., drnsAreTexts_of_map (sample_producedDrns _ _ _ _ _ _ _ h)⟩

theorem sample_raw (contextBlock : Option Text) (h : ∀ d ∈ drns, d ≠ []) :
    rawReview (sampleEnv demo) (sampleWorld files (sampleCall drns rev)) caseId contextBlock =
      some rev.toJs := by
  rw [rawReview_live rfl rfl rfl (sample_drns drns _ h)]
  rfl

variable {caseId caseRecord report}

theorem sample_parsed (h : ∀ d ∈ drns, d ≠ []) :
    parsedFor (sampleEnv demo) (sampleWorld files (sampleCall drns rev)) caseId caseRecord
      report = some rev :=
  parsedReview_eq_some.mpr ⟨_, sample_raw _ _ _ _ _ _ h, reviewSchema_toJs _⟩

end sample
end StormReview
