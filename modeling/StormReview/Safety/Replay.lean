import StormReview.Scripts.RecordGolden
import StormReview.Workflow.Settled
import StormReview.Safety.AutoFile

/-! A recorded run and its replay. -/
namespace StormReview
open Js Zod Engine

/-! What the readers of a run see of it. -/

section view
variable {env : Env} {world : World} {runId caseId : Text} {caseRecord : CaseRecord}
  {report : AdjusterReport} {disk : AuditDisk}

/-- A run that the record step does not fail shows the state that reached its gate. -/
theorem startRun_view (h : Arrives env world caseId caseRecord report) :
    viewOf (startRun env world runId caseId disk).1 = none ∧ ¬ world.faults.Clear ∨
      viewOf (startRun env world runId caseId disk).1 =
          some (gateFlow env world caseId caseRecord report).view ∧
        endingOf (startRun env world runId caseId disk).1 =
          some (gateEnding (demoAlwaysGate env) (gateFlow env world caseId caseRecord report)) := by
  rcases startRun_outcomes h with ⟨hending, hrun⟩ | ⟨hending, ⟨hf, e, left, hrun⟩ | ⟨-, left, hrun⟩⟩
  · rw [hrun, hending]
    exact .inr ⟨rfl, rfl⟩
  · rw [hrun]
    exact .inl ⟨rfl, fun hclear => hf ⟨hclear.1, hclear.2 _⟩⟩
  · rw [hrun, hending]
    exact .inr ⟨rfl, rfl⟩

theorem viewOf_startRun {v : RunView} (h : viewOf (startRun env world runId caseId disk).1 = some v) :
    ∃ caseRecord report, Arrives env world caseId caseRecord report ∧
      v = (gateFlow env world caseId caseRecord report).view ∧
      endingOf (startRun env world runId caseId disk).1 =
        some (gateEnding (demoAlwaysGate env) (gateFlow env world caseId caseRecord report)) := by
  by_cases harrives : ∃ caseRecord report, Arrives env world caseId caseRecord report
  · obtain ⟨caseRecord, report, harrives⟩ := harrives
    rcases @startRun_view env world runId caseId _ _ disk harrives with
      ⟨hnone, -⟩ | ⟨hview, hending⟩
    · simp [hnone] at h
    · exact ⟨caseRecord, report, harrives, by simpa [hview] using h.symm, hending⟩
  · obtain ⟨e, he⟩ : ∃ e, startRun env world runId caseId disk = (.failed e, disk) :=
      startRun_not_arrives harrives runId disk
    simp [he, viewOf] at h

end view

/-! The review at the gate goes through the review step and the guard again unchanged. -/

section again
variable {env : Env} {world : World} {caseId : Text} {caseRecord : CaseRecord}
  {report : AdjusterReport}

theorem backstop_settled {facts : GateFacts} {r : Review} (h : Settled r) :
    Settled (backstop facts r) := by
  unfold backstop
  split
  · exact h.abstain
  · exact h

/-- With citations dropped or not, a review that had its backstop needs no other. -/
theorem backstop_again (facts : GateFacts) (r : Review) (citedDrns : List Text) :
    backstop facts { backstop facts r with citedDrns } =
      { backstop facts r with citedDrns } := by
  by_cases hw : facts.weatherStatus = .unavailable
  · have hback (x : Review) : backstop facts x = abstain x := if_pos hw
    rw [hback, hback]
    exact abstain_of_abstained (abstain_q1_finding r) (abstain_verdict r)
  · have hback (x : Review) : backstop facts x = x := if_neg hw
    rw [hback]

theorem guardReview_again (r : Review) (returnedDrns : List Text) :
    (guardReview (guardReview r returnedDrns).1 returnedDrns).1 = (guardReview r returnedDrns).1 := by
  simp only [guardReview_review, List.filter_filter, Bool.and_self]

/-- What the guard has cleaned it does not block. -/
theorem guardReview_again_open (r : Review) (returnedDrns : List Text) :
    (guardReview (guardReview r returnedDrns).1 returnedDrns).2.blocked = false := by
  rw [← Bool.not_eq_true, guardReview_blocked_iff, guardReview_review]
  rintro ⟨d, hd, hnot⟩
  exact hnot (by simpa using (List.mem_filter.mp hd).2)

theorem guardReview_unblocked {r : Review} {returnedDrns : List Text}
    (h : (guardReview r returnedDrns).2.blocked = false) : (guardReview r returnedDrns).1 = r := by
  rw [guardReview_review, List.filter_eq_self.mpr]
  intro d hd
  by_contra hnot
  have hblocked := (guardReview_blocked_iff r returnedDrns).mpr ⟨d, hd, by simpa using hnot⟩
  simp [h] at hblocked

/-- What a recording makes of the review step. -/
theorem produce_golden {contextBlock : Option Text} {g : GoldenRun} {rev : Review}
    (hgolden : shouldUseGolden env = true) (hfile : loadGolden world.files caseId = some g)
    (hrev : reviewSchema g.review = .ok rev) :
    produce env world caseId contextBlock =
      { review := some (tidyReview rev)
        structuringFailed := false
        structuringError := none
        toolCalls := g.toolCalls.getD []
        returnedDrns := (g.returnedDrns.getD []).map .str
        modelUsed := goldenCache } := by
  simp only [produce, hgolden, if_true, reviewGolden, hfile, structured, hrev]

end again

section replay
variable {env env' : Env} {world world' : World} {caseId : Text} {caseRecord : CaseRecord}
  {report : AdjusterReport} {rev : Review} {g : GoldenRun}

/-- The gate's review is a settled one with citations dropped, and its guard is the guard's
answer on the review before that. -/
theorem gateFlow_of_review
    (h : (gateFlow env world caseId caseRecord report).review = some rev) :
    ∃ checked, Settled checked ∧
      (∀ citedDrns, backstop (factsFor world caseRecord report) { checked with citedDrns } =
        { checked with citedDrns }) ∧
      rev = (guardReview checked (returnedFor env world caseId caseRecord report)).1 ∧
      (gateFlow env world caseId caseRecord report).guard =
        some (guardReview checked (returnedFor env world caseId caseRecord report)).2 := by
  cases hp : parsedFor env world caseId caseRecord report with
  | none => simp [gateFlow_review, checkedReview, hp] at h
  | some parsed =>
    rw [gateFlow_parsed hp] at h ⊢
    exact ⟨_, backstop_settled (settled_tidyReview parsed), backstop_again _ _,
      (Option.some.inj h).symm, rfl⟩

/-- The state `new` of a replay at its gate, against the state `live` of the recorded run. -/
structure Replayed (live new : Flow) (rev : Review) (drns : List Text) : Prop where
  recorded : live.review = some rev
  review : new.review = some rev
  toolCalls : new.view.toolCalls = live.view.toolCalls
  returnedDrns : new.view.returnedDrns = live.view.returnedDrns
  gateFacts : new.gateFacts = live.gateFacts
  guard : new.guard = some (guardReview rev drns).2

/-- A replay of what was recorded reaches the gate as the recorded run did. -/
theorem gateFlow_replayed
    (hrev : (gateFlow env world caseId caseRecord report).review = some rev)
    (hgolden : shouldUseGolden env' = true)
    (hload : loadGolden world'.files caseId = some g) (hreview : g.review = rev.toJs)
    (htools : g.toolCalls = some (gateFlow env world caseId caseRecord report).view.toolCalls)
    (hreturned : g.returnedDrns = some (returnedFor env world caseId caseRecord report))
    (hrecords : prefetchRecords world'.files caseRecord report =
      prefetchRecords world.files caseRecord report) :
    Replayed (gateFlow env world caseId caseRecord report)
      (gateFlow env' world' caseId caseRecord report) rev
      (returnedFor env world caseId caseRecord report) := by
  obtain ⟨checked, hsettled, hback, rfl, -⟩ := gateFlow_of_review hrev
  have hfacts : factsFor world' caseRecord report = factsFor world caseRecord report :=
    congrArg gateFactsOf hrecords
  have hcleaned := guardReview_review checked (returnedFor env world caseId caseRecord report)
  have hparsed : reviewSchema g.review =
      .ok (guardReview checked (returnedFor env world caseId caseRecord report)).1 := by
    rw [hreview, reviewSchema_toJs]
  have hproduced : producedFor env' world' caseId caseRecord report = _ :=
    produce_golden hgolden hload hparsed
  have hreturned' : returnedFor env' world' caseId caseRecord report =
      returnedFor env world caseId caseRecord report := by
    rw [returnedFor, hproduced]
    simp only [hreturned, Option.getD_some, Value.filterMap_textOf_map]
  have hchecked : checkedReview env' world' caseId caseRecord report =
      some (guardReview checked (returnedFor env world caseId caseRecord report)).1 := by
    have hraw : parsedFor env' world' caseId caseRecord report =
        some (guardReview checked (returnedFor env world caseId caseRecord report)).1 := by
      simp [parsedFor, parsedReview, rawReview, hgolden, hload, hparsed]
    rw [checkedReview, hraw, Option.map_some, hfacts, hcleaned, (hsettled.filter _).tidyReview_eq,
      hback]
  refine ⟨hrev, ?_, ?_, hreturned', congrArg some hfacts, ?_⟩
  · rw [gateFlow_review, hchecked, Option.map_some, hreturned', ← guardReview_review,
      guardReview_again]
  · have hmade : (gateFlow env' world' caseId caseRecord report).view.toolCalls =
        (producedFor env' world' caseId caseRecord report).toolCalls := rfl
    rw [hmade, hproduced, htools, Option.getD_some]
  · have hguard : (gateFlow env' world' caseId caseRecord report).guard =
        some (guardReview (guardReview checked (returnedFor env world caseId caseRecord report)).1
          (returnedFor env' world' caseId caseRecord report)).2 := by
      simp only [gateFlow, hchecked]
    rw [hguard, hreturned']

/-- What was not blocked gets the same answer from the guard once more. -/
theorem gateFlow_guard_again
    (hrev : (gateFlow env world caseId caseRecord report).review = some rev)
    (hopen : gateBlocked (gateFlow env world caseId caseRecord report).guard = false) :
    (gateFlow env world caseId caseRecord report).guard =
      some (guardReview rev (returnedFor env world caseId caseRecord report)).2 := by
  obtain ⟨checked, -, -, rfl, hguard⟩ := gateFlow_of_review hrev
  have hsame : (guardReview checked (returnedFor env world caseId caseRecord report)).1 = checked := by
    refine guardReview_unblocked ?_
    simpa [hguard, gateBlocked] using hopen
  rw [hsame, hguard]

end replay

section recording
variable {env : Env} {world : World} {runId caseId : Text} {disk : AuditDisk}

/-- What is recorded is what the readers of the live run see. -/
theorem recordGolden_recorded {file : Text} {g : GoldenRun}
    (h : (recordGolden env world runId caseId disk).1 = .recorded file g) :
    ∃ live rev, viewOf (startRun (liveEnv env) world runId caseId disk).1 = some live ∧
      live.review = some rev ∧ file = goldenFile world.files caseId ∧
      g = { review := rev.toJs, toolCalls := some live.toolCalls,
            returnedDrns := some live.returnedDrns } := by
  unfold recordGolden at h
  split at h
  · cases hv : viewOf (startRun (liveEnv env) world runId caseId disk).1 with
    | none => simp [hv] at h
    | some live =>
      cases hr : live.review with
      | none => simp [hv, hr] at h
      | some rev =>
        simp only [hv, hr, Option.bind_some, Option.map_some, Recording.recorded.injEq] at h
        exact ⟨live, rev, rfl, hr, h.1.symm, h.2.symm⟩
  · simp at h

theorem recordGolden_of_view {live : RunView} {rev : Review}
    (hkey : present env.anthropicApiKeyVar = true)
    (hv : viewOf (startRun (liveEnv env) world runId caseId disk).1 = some live)
    (hr : live.review = some rev) :
    (recordGolden env world runId caseId disk).1 = .recorded (goldenFile world.files caseId)
      { review := rev.toJs, toolCalls := some live.toolCalls,
        returnedDrns := some live.returnedDrns } := by
  simp only [recordGolden, hkey, if_true, hv, hr, Option.bind_some, Option.map_some]

theorem loadGolden_withGolden (files : Files) (caseId : Text) (g : GoldenRun) :
    loadGolden (files.withGolden (goldenFile files caseId) g) caseId = some g :=
  Function.update_self ..

end recording

/-- The two runs behind a replay, at their gates. -/
theorem replay_gates {env env' : Env} {world world' : World} {runId caseId : Text}
    {disk : AuditDisk} {file : Text} {g : GoldenRun}
    (hrec : (recordGolden env world runId caseId disk).1 = .recorded file g)
    (hgolden : shouldUseGolden env' = true) (hfiles : world'.files = world.files.withGolden file g) :
    ∃ caseRecord report rev, Arrives env' world' caseId caseRecord report ∧
      viewOf (startRun (liveEnv env) world runId caseId disk).1 =
        some (gateFlow (liveEnv env) world caseId caseRecord report).view ∧
      endingOf (startRun (liveEnv env) world runId caseId disk).1 =
        some (gateEnding (demoAlwaysGate env)
          (gateFlow (liveEnv env) world caseId caseRecord report)) ∧
      g = { review := rev.toJs
            toolCalls := some (gateFlow (liveEnv env) world caseId caseRecord report).view.toolCalls
            returnedDrns :=
              some (gateFlow (liveEnv env) world caseId caseRecord report).view.returnedDrns } ∧
      Replayed (gateFlow (liveEnv env) world caseId caseRecord report)
        (gateFlow env' world' caseId caseRecord report)
        rev (returnedFor (liveEnv env) world caseId caseRecord report) := by
  obtain ⟨live, rev, hlive, hrev, rfl, rfl⟩ := recordGolden_recorded hrec
  obtain ⟨caseRecord, report, harrives, rfl, hending⟩ := viewOf_startRun hlive
  have hload := loadGolden_withGolden world.files caseId
    { review := rev.toJs
      toolCalls := some (gateFlow (liveEnv env) world caseId caseRecord report).view.toolCalls
      returnedDrns :=
        some (gateFlow (liveEnv env) world caseId caseRecord report).view.returnedDrns }
  rw [← hfiles] at hload
  have hfile' : OnFile world'.files caseId caseRecord report := by
    rw [hfiles]
    exact ⟨harrives.onFile.case, harrives.onFile.report⟩
  have hrecords : prefetchRecords world'.files caseRecord report =
      prefetchRecords world.files caseRecord report := by
    rw [hfiles]
    rfl
  exact ⟨caseRecord, report, rev, ⟨hfile', drnsAreTexts_golden hgolden⟩, hlive, hending, rfl,
    gateFlow_replayed hrev hgolden hload rfl rfl rfl hrecords⟩

/-- Replaying a recording reproduces the recorded run. -/
theorem replay_reproduces (env : Env) (world : World) (runId caseId : Text) (disk : AuditDisk)
    (file : Text) (g : GoldenRun) (env' : Env) (world' : World) (runId' : Text)
    (disk' : AuditDisk) (hrec : (recordGolden env world runId caseId disk).1 = .recorded file g)
    (hgolden : shouldUseGolden env' = true) (hfiles : world'.files = world.files.withGolden file g) :
    ∃ live, viewOf (startRun (liveEnv env) world runId caseId disk).1 = some live ∧
      (world'.faults.Clear →
        ∃ new, viewOf (startRun env' world' runId' caseId disk').1 = some new) ∧
      ∀ new, viewOf (startRun env' world' runId' caseId disk').1 = some new →
        (new.review.map Review.toJs = some g.review ∧ some new.returnedDrns = g.returnedDrns ∧
          some new.toolCalls = g.toolCalls) ∧
        (new.review = live.review ∧ new.returnedDrns = live.returnedDrns ∧
          new.toolCalls = live.toolCalls) ∧
        (gateBlocked live.guard = false →
          new.guard = live.guard ∧ new.gateFacts = live.gateFacts ∧
            (demoAlwaysGate env' = demoAlwaysGate env →
              endingOf (startRun env' world' runId' caseId disk').1 =
                endingOf (startRun (liveEnv env) world runId caseId disk).1)) := by
  obtain ⟨caseRecord, report, rev, harrives, hlive, hending, rfl, hreplayed⟩ :=
    replay_gates hrec hgolden hfiles
  have hcases := @startRun_view env' world' runId' caseId _ _ disk' harrives
  refine ⟨_, hlive, fun hclear => ?_, fun new hnew => ?_⟩
  · rcases hcases with ⟨-, hf⟩ | ⟨hview, -⟩
    · exact absurd hclear hf
    · exact ⟨_, hview⟩
  · rcases hcases with ⟨hnone, -⟩ | ⟨hview, hending'⟩
    · simp [hnone] at hnew
    · obtain rfl : (gateFlow env' world' caseId caseRecord report).view = new := by
        simpa [hview] using hnew
      have hreview : (gateFlow env' world' caseId caseRecord report).view.review = some rev :=
        hreplayed.review
      refine ⟨⟨by rw [hreview, Option.map_some], congrArg some hreplayed.returnedDrns,
          congrArg some hreplayed.toolCalls⟩,
        ⟨hreview.trans hreplayed.recorded.symm, hreplayed.returnedDrns, hreplayed.toolCalls⟩,
        fun hopen => ?_⟩
      have hguard : (gateFlow env' world' caseId caseRecord report).guard =
          (gateFlow (liveEnv env) world caseId caseRecord report).guard :=
        hreplayed.guard.trans (gateFlow_guard_again hreplayed.recorded hopen).symm
      refine ⟨hguard, hreplayed.gateFacts, fun hdemo => ?_⟩
      rw [hending, hending', hdemo, gateEnding_congr _ hguard
        (hreplayed.review.trans hreplayed.recorded.symm) hreplayed.gateFacts]

/-- A clean live run that files itself, recorded and replayed. -/
theorem replay_reproduces_sample :
    let world := sampleWorld (sampleFiles .decline (some sampleWeather) none)
      (sampleCall [lit "DRN-1"] (sampleReview .agreeDecline [lit "DRN-1"] []))
    let replaying := { sampleEnv false with useGoldenVar := some (lit "1") }
    ∃ file g, (recordGolden (sampleEnv false) world (lit "r") (lit "A") emptyDisk).1 =
        .recorded file g ∧
      let replay := (startRun replaying { world with files := world.files.withGolden file g }
        (lit "s") (lit "A") emptyDisk).1
      ∃ new, viewOf replay = some new ∧ new.review.map Review.toJs = some g.review ∧
        endingOf replay = some .filed := by
  intro world replaying
  have harrives := sample_arrives .decline (some sampleWeather) none false [lit "DRN-1"]
    (sampleReview .agreeDecline [lit "DRN-1"] []) (by decide)
  have hclean := sample_clean .decline none .agreeDecline (by decide) [lit "DRN-1"] (by decide)
    (by decide) (.inl rfl)
  have hclear : world.faults.Clear := ⟨⟨rfl, rfl⟩, fun _ => ⟨rfl, rfl⟩⟩
  have hn : needsHuman (demoAlwaysGate (sampleEnv false))
      (gateFlow (sampleEnv false) world (lit "A") sampleCase (sampleLoaded .decline)) = false :=
    (needsHuman_gateFlow _).mpr ⟨by decide, _, hclean⟩
  rcases @startRun_view (sampleEnv false) world (lit "r") (lit "A") _ _ emptyDisk harrives with
    ⟨-, hf⟩ | ⟨hview, hending⟩
  · exact absurd hclear hf
  · cases hreview : (gateFlow (sampleEnv false) world (lit "A") sampleCase
        (sampleLoaded .decline)).review with
    | none => simp [needsHuman, hreview] at hn
    | some reached =>
      have hrec := @recordGolden_of_view (sampleEnv false) world (lit "r") (lit "A") emptyDisk _ _
        rfl hview hreview
      refine ⟨_, _, hrec, ?_⟩
      intro replay
      obtain ⟨live, hlive, hexists, hall⟩ := replay_reproduces (sampleEnv false) world (lit "r")
        (lit "A") emptyDisk _ _ replaying
        { world with files := world.files.withGolden _ _ } (lit "s") emptyDisk hrec rfl rfl
      obtain ⟨new, hnew⟩ := hexists hclear
      obtain ⟨⟨hrecorded, -, -⟩, -, hopen⟩ := hall new hnew
      have hliveEq : live = (gateFlow (sampleEnv false) world (lit "A") sampleCase
          (sampleLoaded .decline)).view := Option.some.inj (hlive.symm.trans hview)
      have hblocked : gateBlocked live.guard = false := by
        rw [hliveEq]
        simp only [needsHuman, Bool.or_eq_false_iff] at hn
        exact hn.1.1.1.1.1
      obtain ⟨-, -, hsame⟩ := hopen hblocked
      refine ⟨new, hnew, hrecorded, (hsame rfl).trans (hending.trans ?_)⟩
      rw [gateEnding, hn]
      rfl

/-! A blocked run. -/

def offendingOf (v : RunView) : List Text := (v.guard.map (·.precedent.offending)).getD []

/-- If a live run with a review was blocked and a recording of it is written, every replay is
blocked over the same DRNs. -/
def BlockedStaysBlocked (env : Env) (world : World) (runId caseId : Text) (disk : AuditDisk) :
    Prop :=
  ∀ live rev file g, viewOf (startRun (liveEnv env) world runId caseId disk).1 = some live →
    live.review = some rev → gateBlocked live.guard = true →
    (recordGolden env world runId caseId disk).1 = .recorded file g →
    ∀ env' world' runId' disk' new, shouldUseGolden env' = true →
      world'.files = world.files.withGolden file g →
      viewOf (startRun env' world' runId' caseId disk').1 = some new →
      gateBlocked new.guard = true ∧ offendingOf new = offendingOf live

/-- The schema-valid output of the live model cites a DRN that was not returned. -/
def CitesUnreturned (env : Env) (world : World) (caseId : Text) : Prop :=
  ∃ caseRecord report rev, OnFile world.files caseId caseRecord report ∧
    DrnsAreTexts (liveEnv env) world caseId caseRecord report ∧
    parsedFor (liveEnv env) world caseId caseRecord report = some rev ∧
    ∃ drn ∈ rev.citedDrns, normDashes drn ∉
      returnedFor (liveEnv env) world caseId caseRecord report

/-- A replay is never blocked: the recording holds the review the guard has cleaned. -/
theorem replay_open {env env' : Env} {world world' : World} {runId runId' caseId : Text}
    {disk disk' : AuditDisk} {file : Text} {g : GoldenRun}
    (hrec : (recordGolden env world runId caseId disk).1 = .recorded file g)
    (hgolden : shouldUseGolden env' = true) (hfiles : world'.files = world.files.withGolden file g)
    (hclear : world'.faults.Clear) :
    ∃ new, viewOf (startRun env' world' runId' caseId disk').1 = some new ∧
      gateBlocked new.guard = false := by
  obtain ⟨caseRecord, report, rev, harrives, -, -, -, hreplayed⟩ := replay_gates hrec hgolden hfiles
  rcases @startRun_view env' world' runId' caseId _ _ disk' harrives with ⟨-, hf⟩ | ⟨hview, -⟩
  · exact absurd hclear hf
  · refine ⟨_, hview, ?_⟩
    have hguard : (gateFlow env' world' caseId caseRecord report).view.guard = _ := hreplayed.guard
    obtain ⟨checked, -, -, rfl, -⟩ := gateFlow_of_review hreplayed.recorded
    rw [hguard]
    exact guardReview_again_open _ _

/-- A recording of a blocked run is written all the same, and its replay is open. -/
theorem blocked_replays_open {env : Env} {world : World} {caseId : Text}
    (hkey : present env.anthropicApiKeyVar = true) (hcites : CitesUnreturned env world caseId)
    (runId : Text) (disk : AuditDisk) : ¬ BlockedStaysBlocked env world runId caseId disk := by
  intro hstays
  obtain ⟨caseRecord, report, rev, hfile, htexts, hparsed, hcites⟩ := hcites
  have hblocked : gateBlocked
      (gateFlow (liveEnv env) world caseId caseRecord report).guard = true :=
    (gateBlocked_gateFlow hparsed).mpr hcites
  have hneeds : needsHuman (demoAlwaysGate (liveEnv env))
      (gateFlow (liveEnv env) world caseId caseRecord report) = true := by
    simp [needsHuman, hblocked]
  have hlive : viewOf (startRun (liveEnv env) world runId caseId disk).1 =
      some (gateFlow (liveEnv env) world caseId caseRecord report).view := by
    rw [startRun_suspends ⟨hfile, htexts⟩ hneeds]
    rfl
  obtain ⟨reached, hreached⟩ : ∃ reached,
      (gateFlow (liveEnv env) world caseId caseRecord report).view.review = some reached := by
    have hreview : (gateFlow (liveEnv env) world caseId caseRecord report).view.review = _ :=
      gateFlow_review
    rw [hreview, checkedReview, hparsed]
    exact ⟨_, rfl⟩
  have hrec := recordGolden_of_view hkey hlive hreached
  have hgolden : shouldUseGolden { env with useGoldenVar := some (lit "1") } = true := by
    simp [shouldUseGolden]
  have hclear : Faults.Clear
      { mkdirForLog := none, append := none, mkdirForNote := none, writeNote := fun _ => none } :=
    ⟨⟨rfl, rfl⟩, fun _ => ⟨rfl, rfl⟩⟩
  obtain ⟨new, hnew, hopen⟩ := @replay_open env _ world
    { world with
      files := world.files.withGolden _ _
      faults :=
        { mkdirForLog := none, append := none, mkdirForNote := none
          writeNote := fun _ => none } }
    runId runId caseId disk disk _ _ hrec hgolden rfl hclear
  have hagain := hstays _ _ _ _ hlive hreached hblocked hrec _ _ _ _ _ hgolden rfl hnew
  simp [hopen] at hagain

/-- A blocked run stays blocked only where none can be recorded: without a key, or where the
model cites nothing that was not returned. -/
theorem blocked_stays_blocked_iff (env : Env) (world : World) (runId caseId : Text)
    (disk : AuditDisk) :
    BlockedStaysBlocked env world runId caseId disk ↔
      ¬ (present env.anthropicApiKeyVar = true ∧ CitesUnreturned env world caseId) := by
  constructor
  · rintro hstays ⟨hkey, hcites⟩
    exact blocked_replays_open hkey hcites runId disk hstays
  · intro hno live rev file g hlive hrev hblocked hrec
    have hkey : present env.anthropicApiKeyVar = true := by
      by_contra hkey
      simp [recordGolden, hkey] at hrec
    obtain ⟨caseRecord, report, harrives, rfl, -⟩ := viewOf_startRun hlive
    cases hp : parsedFor (liveEnv env) world caseId caseRecord report with
    | none =>
      have hreview : (gateFlow (liveEnv env) world caseId caseRecord report).review = none := by
        simp [gateFlow_review, checkedReview, hp]
      exact absurd (hrev.symm.trans hreview) (by simp)
    | some parsed =>
      exact absurd ⟨hkey, caseRecord, report, parsed, harrives.onFile, harrives.texts, hp,
        (gateBlocked_gateFlow hp).mp hblocked⟩ hno

/-- The model cites DRN-9, the tool returned DRN-1: the live run is blocked, its recording is
written, and the replay is not blocked. -/
theorem blocked_run_replays_open :
    ¬ BlockedStaysBlocked (sampleEnv false)
      (sampleWorld (sampleFiles .decline (some sampleWeather) none)
        (sampleCall [lit "DRN-1"] (sampleReview .agreeDecline [lit "DRN-9"] [])))
      (lit "r") (lit "A") emptyDisk := by
  have hparsed := @sample_parsed false (sampleFiles .decline (some sampleWeather) none)
    [lit "DRN-1"] (sampleReview .agreeDecline [lit "DRN-9"] []) (lit "A") sampleCase
    (sampleLoaded .decline) (by decide)
  have harrives := sample_arrives .decline (some sampleWeather) none false [lit "DRN-1"]
    (sampleReview .agreeDecline [lit "DRN-9"] []) (by decide)
  refine blocked_replays_open rfl ⟨sampleCase, sampleLoaded .decline, _, harrives.onFile,
    harrives.texts, hparsed, lit "DRN-9", List.mem_singleton_self _, ?_⟩ _ _
  have hreturned := sample_returned false (sampleFiles .decline (some sampleWeather) none)
    [lit "DRN-1"] (sampleReview .agreeDecline [lit "DRN-9"] []) (lit "A") sampleCase
    (sampleLoaded .decline) (by decide)
  rw [normDashes_of_no_dash (no_dash (by decide))]
  exact fun hmem => absurd (hreturned ▸ hmem) (by decide)

end StormReview
