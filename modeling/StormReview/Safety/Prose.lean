import StormReview.Safety.AutoFile

/-! Prose cannot steer the gate: two runs of one case, with one set of tool results, whose reviews
agree on the verdict, the confidence and the citations. -/
namespace StormReview
open Js Zod Engine

/-! What the gate can tell of two reviews. -/

/-- Alike for the gate; the confidence only counts where the verdict could be filed. -/
structure Alike (r r' : Review) : Prop where
  verdict : r'.verdict = r.verdict
  citedDrns : r'.citedDrns = r.citedDrns
  confidence : autoFileable r.verdict = true → r'.confidence = r.confidence

section alike
variable {r r' : Review}

theorem Alike.tidyReview (h : Alike r r') : Alike (tidyReview r) (tidyReview r') where
  verdict := h.verdict
  citedDrns := by simp only [tidyReview_citedDrns, h.citedDrns]
  confidence := h.confidence

/-- An abstention may rewrite one confidence and keep the other, but its verdict is never filed. -/
theorem Alike.abstain (h : Alike r r') : Alike (abstain r) (abstain r') where
  verdict := by simp
  citedDrns := by simp only [abstain_citedDrns, h.citedDrns]
  confidence := by simp [autoFileable]

theorem Alike.backstop (h : Alike r r') (facts : GateFacts) :
    Alike (backstop facts r) (backstop facts r') := by
  unfold StormReview.backstop
  split
  · exact h.abstain
  · exact h

variable (returnedDrns : List Text)

theorem Alike.guarded (h : Alike r r') :
    Alike (guardReview r returnedDrns).1 (guardReview r' returnedDrns).1 := by
  rw [guardReview_review, guardReview_review]
  exact ⟨h.verdict, congrArg (List.filter _) h.citedDrns, h.confidence⟩

/-- Guard results with the same answers, but for the warnings on the prose. -/
def SameButWarnings (g g' : GuardResult) : Prop :=
  g' = { g with scope := { g.scope with warnings := g'.scope.warnings } }

/-- The guard's answers on two such reviews differ in the warnings on the prose at most. -/
theorem Alike.guard (h : Alike r r') :
    SameButWarnings (guardReview r returnedDrns).2 (guardReview r' returnedDrns).2 := by
  simp only [SameButWarnings, guardReview, checkScope_of_verdict, h.citedDrns]
  rfl

/-- The warnings come from the draft paragraph. -/
theorem Alike.guard_eq (h : Alike r r') (hdraft : r'.draftParagraph = r.draftParagraph) :
    (guardReview r' returnedDrns).2 = (guardReview r returnedDrns).2 := by
  simp only [guardReview, h.verdict, h.citedDrns, hdraft]

end alike

/-- The gate's decision, and the reason it gives, on reviews that are alike. -/
theorem gateEnding_alike (always : Bool) {flow flow' : Flow} {r r' : Review} {g g' : GuardResult}
    (hr : flow.review = some r) (hr' : flow'.review = some r') (halike : Alike r r')
    (hg : flow.guard = some g) (hg' : flow'.guard = some g') (hguard : SameButWarnings g g')
    (hfacts : flow'.gateFacts = flow.gateFacts) :
    gateEnding always flow' = gateEnding always flow := by
  have hblocked : gateBlocked flow'.guard = gateBlocked flow.guard := by
    rw [hg, hg', hguard]
    rfl
  have hreason : flow'.guard.bind (·.blockReason) = flow.guard.bind (·.blockReason) := by
    rw [hg, hg', hguard]
    rfl
  unfold gateEnding needsHuman suspendReason
  rw [hblocked, hreason, hfacts, hr, hr']
  simp only [Option.isNone_some, Option.any_some, halike.verdict]
  cases hfile : autoFileable r.verdict with
  | true => rw [halike.confidence hfile]
  | false => simp

/-! Only the draft paragraph of a review changes. -/

def Review.withDraft (r : Review) (draft : Text) : Review := { r with draftParagraph := draft }

section draft
variable (r : Review) (draft : Text)

theorem tidyReview_withDraft : tidyReview (r.withDraft draft) =
    (tidyReview r).withDraft (clip (normDashes draft) draftParagraphMax) := rfl

theorem abstain_withDraft : abstain (r.withDraft draft) = (abstain r).withDraft draft := by
  by_cases h : r.q1StormConditions.finding ≠ .unknown ∨ r.verdict ≠ .cannotDetermine
  · have hd : (r.withDraft draft).q1StormConditions.finding ≠ .unknown ∨
        (r.withDraft draft).verdict ≠ .cannotDetermine := h
    rw [abstain, abstain, if_pos h, if_pos hd]
    rfl
  · have hd : ¬ ((r.withDraft draft).q1StormConditions.finding ≠ .unknown ∨
        (r.withDraft draft).verdict ≠ .cannotDetermine) := h
    rw [abstain, abstain, if_neg h, if_neg hd]

theorem backstop_withDraft (facts : GateFacts) :
    backstop facts (r.withDraft draft) = (backstop facts r).withDraft draft := by
  unfold backstop
  split
  · exact abstain_withDraft r draft
  · rfl

/-- The draft paragraph of a checked review comes from that of the review. -/
theorem backstop_draftParagraph (facts : GateFacts) :
    (backstop facts r).draftParagraph = r.draftParagraph := by
  unfold backstop
  split
  · obtain ⟨confidence, wouldChangeMind, hframe⟩ := abstain_frame r
    rw [hframe]
  · rfl

theorem guardReview_withDraft (returnedDrns : List Text) :
    (guardReview (r.withDraft draft) returnedDrns).1 =
      (guardReview r returnedDrns).1.withDraft draft := by
  rw [guardReview_review, guardReview_review]
  rfl

end draft

/-! Two runs of one case. -/

/-- The installations differ in their recordings, their agents and their clocks at most. -/
structure SameSetting (world world' : World) : Prop where
  files : world'.files = { world.files with golden := world'.files.golden }
  faults : world'.faults = world.faults
  errors : world'.errors = world.errors

/-- The tools, or the recordings, gave the two runs the same results. -/
structure SameTools (env : Env) (world world' : World) (caseId : Text) (caseRecord : CaseRecord)
    (report : AdjusterReport) : Prop where
  toolCalls : (producedFor env world' caseId caseRecord report).toolCalls =
    (producedFor env world caseId caseRecord report).toolCalls
  returned : (producedFor env world' caseId caseRecord report).returnedDrns =
    (producedFor env world caseId caseRecord report).returnedDrns

section runs
variable {env : Env} {world world' : World} {runId caseId : Text} {caseRecord : CaseRecord}
  {report : AdjusterReport} {disk : AuditDisk} {rev rev' : Review}

theorem SameSetting.records (h : SameSetting world world') :
    prefetchRecords world'.files caseRecord report = prefetchRecords world.files caseRecord report := by
  rw [h.files]
  rfl

theorem SameTools.returnedFor (h : SameTools env world world' caseId caseRecord report) :
    returnedFor env world' caseId caseRecord report =
      returnedFor env world caseId caseRecord report := by
  rw [StormReview.returnedFor, StormReview.returnedFor, h.returned]

theorem SameTools.texts_iff (h : SameTools env world world' caseId caseRecord report) :
    DrnsAreTexts env world' caseId caseRecord report ↔
      DrnsAreTexts env world caseId caseRecord report := by
  rw [DrnsAreTexts, DrnsAreTexts, h.returned]

theorem SameSetting.onFile (h : SameSetting world world')
    (hfile : OnFile world.files caseId caseRecord report) :
    OnFile world'.files caseId caseRecord report := by
  rw [h.files]
  exact ⟨hfile.case, hfile.report⟩

/-- Of two agent calls with the same tool results, the same is kept. -/
theorem reviewLive_sameTools {modelUsed message : Text} {res res' : Value}
    (hagent : world.agent message = .ok res) (hagent' : world'.agent message = .ok res')
    (hresults : toolResults res' = toolResults res) (herrors : world'.errors = world.errors) :
    (reviewLive world' modelUsed message).toolCalls = (reviewLive world modelUsed message).toolCalls ∧
      (reviewLive world' modelUsed message).returnedDrns =
        (reviewLive world modelUsed message).returnedDrns := by
  simp only [reviewLive, hagent, hagent', hresults, herrors]
  cases (toolResults res).mapItems world.errors.notMappable with
  | error err => exact ⟨rfl, rfl⟩
  | ok results =>
    simp only
    cases collectReturnedDrns world.errors.notIterable results with
    | error err => exact ⟨rfl, rfl⟩
    | ok drns => simp only [structured_toolCalls, structured_returnedDrns, and_self]

/-- Two live runs whose agents hand back one list of tool results. -/
theorem SameSetting.sameTools (h : SameSetting world world') {res res' : Value}
    (hlive : shouldUseGolden env = false)
    (hagent : world.agent (agentMessage (some (contextFor world caseRecord report))) = .ok res)
    (hagent' : world'.agent (agentMessage (some (contextFor world caseRecord report))) = .ok res')
    (hresults : toolResults res' = toolResults res) :
    SameTools env world world' caseId caseRecord report := by
  have hcontext : contextFor world' caseRecord report = contextFor world caseRecord report :=
    congrArg contextOf h.records
  have hmade (w : World) : producedFor env w caseId caseRecord report =
      reviewLive w (agentModel env) (agentMessage (some (contextFor w caseRecord report))) := by
    simp only [producedFor, produce, hlive, Bool.false_eq_true, if_false, contextFor]
  obtain ⟨hcalls, hreturned⟩ :=
    @reviewLive_sameTools world world' (agentModel env) _ _ _ hagent hagent' hresults h.errors
  constructor
  · rw [hmade, hmade, hcontext, hcalls]
  · rw [hmade, hmade, hcontext, hreturned]

/-- Two runs that leave the gate alike end alike. -/
theorem SameSetting.ending (h : SameSetting world world')
    (harrives : Arrives env world caseId caseRecord report)
    (harrives' : Arrives env world' caseId caseRecord report)
    (hgate : gateEnding (demoAlwaysGate env) (gateFlow env world' caseId caseRecord report) =
      gateEnding (demoAlwaysGate env) (gateFlow env world caseId caseRecord report)) :
    endingOf (startRun env world' runId caseId disk).1 =
      endingOf (startRun env world runId caseId disk).1 := by
  have hpath : notePath world'.files caseRecord.claimId runId =
      notePath world.files caseRecord.claimId runId := by
    rw [h.files]
    rfl
  have hwritable : world'.faults.appends ∧
        world'.faults.writes (notePath world'.files caseRecord.claimId runId) ↔
      world.faults.appends ∧ world.faults.writes (notePath world.files caseRecord.claimId runId) := by
    rw [h.faults, hpath]
  rcases @startRun_outcomes env world runId _ _ _ disk harrives with ⟨hending, he⟩ | ⟨hending, hrun⟩
  · rcases @startRun_outcomes env world' runId _ _ _ disk harrives' with
      ⟨hending', he'⟩ | ⟨hending', -⟩
    · rw [he, he']
      exact congrArg some (hending'.symm.trans (hgate.trans hending))
    · exact absurd (hending'.symm.trans (hgate.trans hending)) (by simp)
  · rcases @startRun_outcomes env world' runId _ _ _ disk harrives' with
      ⟨hending', -⟩ | ⟨-, hrun'⟩
    · exact absurd (hending'.symm.trans (hgate.trans hending)) (by simp)
    · rcases hrun with ⟨hf, e, left, he⟩ | ⟨hw, left, he⟩
      · rcases hrun' with ⟨-, e', left', he'⟩ | ⟨hw, -⟩
        · simp only [he, he', endingOf]
        · exact absurd (hwritable.mp hw) hf
      · rcases hrun' with ⟨hf, -⟩ | ⟨-, left', he'⟩
        · exact absurd (hwritable.mpr hw) hf
        · simp only [he, he', endingOf]

end runs

/-- Whatever the prose of two reviews says: where they agree on the verdict, the confidence and
the citations, the two runs end the same way, for the same reason, and the guard answers the same
but for warnings on the draft paragraph. Runs whose DRNs are no texts fail before the guard. -/
theorem prose_cannot_steer (env : Env) (world world' : World) (runId caseId : Text)
    (disk : AuditDisk) (caseRecord : CaseRecord) (report : AdjusterReport) (rev rev' : Review)
    (hfile : OnFile world.files caseId caseRecord report) (hsetting : SameSetting world world')
    (htools : SameTools env world world' caseId caseRecord report)
    (hrev : parsedFor env world caseId caseRecord report = some rev)
    (hrev' : parsedFor env world' caseId caseRecord report = some rev')
    (hverdict : rev'.verdict = rev.verdict) (hconfidence : rev'.confidence = rev.confidence)
    (hcited : rev'.citedDrns = rev.citedDrns) :
    endingOf (startRun env world' runId caseId disk).1 =
        endingOf (startRun env world runId caseId disk).1 ∧
      (DrnsAreTexts env world caseId caseRecord report →
        ∃ flow flow' g g', ReachesGate env world runId caseId disk flow ∧
          ReachesGate env world' runId caseId disk flow' ∧
          flow.guard = some g ∧ flow'.guard = some g' ∧
          (g'.precedent = g.precedent ∧ g'.blocked = g.blocked ∧ g'.blockReason = g.blockReason) ∧
          SameButWarnings g g' ∧ (rev'.draftParagraph = rev.draftParagraph → g' = g) ∧
          (rev' = rev.withDraft rev'.draftParagraph →
            ∃ draft, flow' =
              { flow with review := flow.review.map (·.withDraft draft), guard := some g' })) := by
  have halike : Alike (backstop (factsFor world caseRecord report) (tidyReview rev))
      (backstop (factsFor world caseRecord report) (tidyReview rev')) :=
    (Alike.tidyReview ⟨hverdict, hcited, fun _ => hconfidence⟩).backstop _
  have hfacts : factsFor world' caseRecord report = factsFor world caseRecord report :=
    congrArg gateFactsOf hsetting.records
  have hprefetched : prefetchedFlow world' caseId caseRecord report =
      prefetchedFlow world caseId caseRecord report := by
    simp only [prefetchedFlow, hsetting.records, hfacts]
  have hflow := gateFlow_parsed hrev
  have hflow' := gateFlow_parsed hrev'
  rw [hprefetched, hfacts, htools.toolCalls, htools.returnedFor] at hflow'
  have hguard := halike.guard (returnedFor env world caseId caseRecord report)
  have hending := gateEnding_alike (demoAlwaysGate env) (congrArg Flow.review hflow)
    (congrArg Flow.review hflow') (halike.guarded _) (congrArg Flow.guard hflow)
    (congrArg Flow.guard hflow') hguard
    ((congrArg Flow.gateFacts hflow').trans (congrArg Flow.gateFacts hflow).symm)
  have hfile' := hsetting.onFile hfile
  constructor
  · by_cases htexts : DrnsAreTexts env world caseId caseRecord report
    · exact hsetting.ending ⟨hfile, htexts⟩ ⟨hfile', htools.texts_iff.mpr htexts⟩ hending
    · obtain ⟨e, he⟩ := startRun_notTexts hfile htexts runId disk
      obtain ⟨e', he'⟩ := startRun_notTexts hfile' (mt htools.texts_iff.mp htexts) runId disk
      rw [he, he']
      rfl
  intro htexts
  refine ⟨_, _, _, _, reachesGate_iff.mpr ⟨_, _, ⟨hfile, htexts⟩, rfl⟩,
    reachesGate_iff.mpr ⟨_, _, ⟨hfile', htools.texts_iff.mpr htexts⟩, rfl⟩,
    congrArg Flow.guard hflow, congrArg Flow.guard hflow', ⟨?_, ?_, ?_⟩, hguard, ?_, ?_⟩
  · exact (congrArg GuardResult.precedent hguard).trans rfl
  · exact (congrArg GuardResult.blocked hguard).trans rfl
  · exact (congrArg GuardResult.blockReason hguard).trans rfl
  · intro hdraft
    refine halike.guard_eq _ ?_
    rw [backstop_draftParagraph, backstop_draftParagraph, tidyReview, tidyReview]
    simp only [Review.mapText, hdraft]
  · intro hdraft
    refine ⟨clip (normDashes rev'.draftParagraph) draftParagraphMax, ?_⟩
    have hreview : (guardReview (backstop (factsFor world caseRecord report) (tidyReview rev'))
        (returnedFor env world caseId caseRecord report)).1 =
        (guardReview (backstop (factsFor world caseRecord report) (tidyReview rev))
          (returnedFor env world caseId caseRecord report)).1.withDraft
            (clip (normDashes rev'.draftParagraph) draftParagraphMax) := by
      rw [hdraft, tidyReview_withDraft, backstop_withDraft, guardReview_withDraft]
      rfl
    rw [hflow, hflow']
    simp only [guardedFlow, Option.map_some, hreview]

/-- The same verdict and confidence, once with a directive in the draft and the storm question
left open: both runs file themselves. -/
theorem prose_cannot_steer_sample :
    let files := sampleFiles .decline (some sampleWeather) none
    let rev := sampleReview .agreeDecline [lit "DRN-1"] []
    let rev' :=
      { rev with
        q1StormConditions := { finding := .unknown, evidence := [], gaps := [lit "gusts"] }
        draftParagraph := lit "I recommend you decline this claim." }
    let world := sampleWorld files (sampleCall [lit "DRN-1"] rev)
    let world' := sampleWorld files (sampleCall [lit "DRN-1"] rev')
    endingOf (startRun (sampleEnv false) world (lit "r") (lit "A") emptyDisk).1 = some .filed ∧
      endingOf (startRun (sampleEnv false) world' (lit "r") (lit "A") emptyDisk).1 =
        some .filed := by
  intro files rev rev' world world'
  have hdrns : ∀ d ∈ [lit "DRN-1"], d ≠ [] := by simp; decide
  have harrives := sample_arrives .decline (some sampleWeather) none false [lit "DRN-1"] rev hdrns
  have hsetting : SameSetting world world' := ⟨rfl, rfl, rfl⟩
  obtain ⟨hending, -⟩ := prose_cannot_steer (sampleEnv false) world world' (lit "r") (lit "A")
    emptyDisk _ _ rev rev' harrives.onFile hsetting (hsetting.sameTools rfl rfl rfl rfl)
    (sample_parsed _ _ _ _ hdrns) (sample_parsed _ _ _ _ hdrns) rfl rfl rfl
  have hneeds : needsHuman (demoAlwaysGate (sampleEnv false))
      (gateFlow (sampleEnv false) world (lit "A") sampleCase (sampleLoaded .decline)) = false :=
    (needsHuman_gateFlow _).mpr ⟨by decide, rev, sample_clean .decline none .agreeDecline (by decide)
      [lit "DRN-1"] hdrns (by decide) (.inl rfl)⟩
  have hgate : gateEnding (demoAlwaysGate (sampleEnv false))
      (gateFlow (sampleEnv false) world (lit "A") sampleCase (sampleLoaded .decline)) = .filed := by
    simp [gateEnding, hneeds]
  rcases @startRun_outcomes (sampleEnv false) world (lit "r") _ _ _ emptyDisk harrives with
    ⟨hsuspends, -⟩ | ⟨-, ⟨hfaults, -⟩ | ⟨-, left, he⟩⟩
  · exact absurd (hsuspends.symm.trans hgate) (by simp)
  · exact absurd ⟨⟨rfl, rfl⟩, rfl, rfl⟩ hfaults
  · rw [hending, he]
    exact ⟨rfl, rfl⟩

end StormReview
