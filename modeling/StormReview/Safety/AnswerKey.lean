import StormReview.Evals.Process
import StormReview.Safety.Grading
import StormReview.Safety.Holdout

/-! In a live eval no case is graded on a decision that controls it, although all cases share one
HOLDOUT. -/
namespace StormReview
open Js Zod Engine

section graded
variable {env : Env} {turn : Turn} {disk : AuditDisk} {locale : Locale}
  {precedents : List Precedent} {drn : Text}

/-- The eval calls the model. -/
structure LiveEval (env : Env) : Prop where
  key : hasAgentKey env = true
  notForced : env.useGoldenVar ≠ some (lit "1")

theorem LiveEval.live (h : LiveEval env) : shouldUseGolden env = false := by
  rw [← Bool.not_eq_true, hasAgentKey_golden h.key]
  exact h.notForced

/-- The tool reads the case's own holdout, and the DRNs of a live run come from the tool. -/
theorem graded_returned (hlive : LiveEval env) (htool : UsesTool locale precedents turn.agent)
    (hdrn : drn ∈ turn.fx.controllingDrns) : drn ∉ (turn.graded env disk).returnedDrns := by
  intro hmem
  have hview : drn ∈ ((viewOf (startRun env (turn.heldOut env) turn.runId turn.fx.caseId
      disk).1).map (·.returnedDrns)).getD [] := runCase_returnedDrns ▸ hmem
  cases hv : viewOf (startRun env (turn.heldOut env) turn.runId turn.fx.caseId disk).1 with
  | none => simp [hv] at hview
  | some v =>
    obtain ⟨caseRecord, report, -, rfl, -⟩ := viewOf_startRun hv
    rw [hv, Option.map_some, Option.getD_some] at hview
    have hreturned : drn ∈ returnedFor env (turn.heldOut env) turn.fx.caseId caseRecord report :=
      hview
    rw [mem_returnedFor_live hlive.live] at hreturned
    obtain ⟨res, results, tr, ds, hagent, hresults, htr, hds, hd⟩ := mem_reviewLive hreturned
    have hout : drn ∉ holdoutOf env turn.fx.toCaseFixture :=
      precedentDrns_heldOut (htool _ _ _ _ hagent hresults tr htr) hds hd
    rw [holdoutOf_live hlive.key (List.ne_nil_of_mem hdrn)] at hout
    exact hout hdrn

/-- What the guard leaves of the citations was returned. -/
theorem graded_cited {review : Review} (hreview : (turn.graded env disk).review = some review)
    (hcited : drn ∈ review.citedDrns) : drn ∈ (turn.graded env disk).returnedDrns := by
  have hfaithful := runCase_faithful (Prod.ext hreview rfl)
  have hoffending : (review.citedDrns.filter fun d =>
      d ∉ distinct (turn.graded env disk).returnedDrns) = [] :=
    congrArg Faithfulness.offending hfaithful
  simpa [mem_distinct] using List.filter_eq_nil_iff.mp hoffending drn hcited

end graded

/-- No decision that controls the case was returned in its run or is cited in its review. -/
def Graded.HeldOut (g : Graded) : Prop :=
  ∀ drn ∈ g.fx.controllingDrns,
    drn ∉ g.returnedDrns ∧ ∀ review, g.review = some review → drn ∉ review.citedDrns

/-- In a live eval, whatever the suite, the agents and the judge: HOLDOUT is empty when the eval
ends, also when a start or the judge has thrown, and what it reports are the figures of the suite
with each case graded on a run that had exactly its own controlling decisions held out. -/
theorem answer_key_is_held_out (env : Env) (judge : Option Judge)
    (rejects : Turn → Option (Thrown × AuditDisk)) (pr : PairedRegression) (turns : List Turn)
    (disk : AuditDisk) (locale : Locale) (readPrecedents : Text → Option (List Precedent))
    (result : Except Thrown EvalReport) (left : EvalProcess) (hlive : LiveEval env)
    (htools : ∀ turn ∈ turns,
      UsesTool locale (loadPrecedents readPrecedents turn.world.files) turn.agent)
    (h : EvalProcess.evalMain env rejects judge pr turns ⟨[], disk⟩ = (result, left)) :
    left.holdout = [] ∧
      ∀ report, result = .ok report →
        evalMain env judge pr turns disk = (.ok report, left.disk) ∧
          (gradedOf env turns disk).map (·.fx) = turns.map (·.fx) ∧
          Counts judge (gradedOf env turns disk) report.tally ∧
          ∀ g ∈ gradedOf env turns disk, g.HeldOut := by
  constructor
  · have hclear := @EvalProcess.holdout_evalMain env rejects judge turns ⟨[], disk⟩ rfl pr
    rwa [h] at hclear
  · rintro report rfl
    have hstarts : ∀ turn ∈ turns, rejects turn = none :=
      EvalProcess.evalMain_ok (congrArg Prod.fst h)
    have hmain : evalMain env judge pr turns disk = (.ok report, left.disk) := by
      rw [EvalProcess.evalMain_refines rfl hstarts] at h
      obtain ⟨hreport, hleft⟩ := Prod.mk.inj h
      exact Prod.ext hreport (congrArg EvalProcess.disk hleft)
    have hcounts := (Counts.report (congrArg Prod.fst hmain)).1
    refine ⟨hmain, map_fx_gradedOf env turns disk, hcounts, ?_⟩
    intro g hg drn hdrn
    obtain ⟨turn, hturn, d, rfl⟩ := mem_gradedOf hg
    have hout : drn ∉ (turn.graded env d).returnedDrns :=
      graded_returned hlive (htools turn hturn) hdrn
    exact ⟨hout, fun review hreview hcited => hout (graded_cited hreview hcited)⟩

theorem EvalProcess.evalMain_noJudge (env : Env) {rejects : Turn → Option (Thrown × AuditDisk)}
    {turns : List Turn} {p : EvalProcess} (h : p.holdout = [])
    (hstarts : ∀ turn ∈ turns, rejects turn = none) (pr : PairedRegression) :
    ∃ report left, p.evalMain env rejects none pr turns = (.ok report, left) := by
  obtain ⟨t, n, passed, hmain⟩ := StormReview.evalMain_noJudge env pr turns p.disk
  rw [EvalProcess.evalMain_refines h hstarts, hmain]
  exact ⟨_, _, rfl⟩

/-- Case A, whose agent asks the tool for decisions, with these held out. -/
def sampleAskingTurn (controllingDrns : List Text) : Turn where
  fx :=
    { sampleFixture with
      controllingDrns, expected := lit "disagree_decline", decisiveFactKeywords := []
      borderline := false }
  world := sampleWorld recordedFiles .undefined
  agent := sampleAgent
  runId := lit "r1"

theorem sampleAskingTurn_returned {drn shown : Text} (disk : AuditDisk)
    (h : collectReturnedDrns [] [sampleAsked [drn]] = .ok [.str shown]) :
    ((sampleAskingTurn [drn]).graded (sampleEnv true) disk).returnedDrns = [shown] := by
  have hproduced : (producedFor (sampleEnv true) ((sampleAskingTurn [drn]).heldOut (sampleEnv true))
      (lit "A") sampleCase (sampleLoaded .decline)).returnedDrns = [shown].map .str := by
    rw [producedFor, produce_live rfl rfl rfl h, structured_returnedDrns]
    rfl
  have harrives : Arrives (sampleEnv true) ((sampleAskingTurn [drn]).heldOut (sampleEnv true))
      (lit "A") sampleCase (sampleLoaded .decline) :=
    ⟨⟨rfl, rfl⟩, drnsAreTexts_of_map hproduced⟩
  rw [graded_gate rfl harrives]
  exact congrArg (List.filterMap Value.textOf) hproduced

/-- Two turns of one case: what the first held out the second is shown. -/
theorem answer_key_is_held_out_sample :
    let turns := [sampleAskingTurn [lit "DRN-1"], sampleAskingTurn [lit "DRN-2"]]
    ∃ report left, EvalProcess.evalMain (sampleEnv true) (fun _ => none) none samplePair turns
        ⟨[], emptyDisk⟩ = (.ok report, left) ∧ left.holdout = [] ∧
      (gradedOf (sampleEnv true) turns emptyDisk).map (·.returnedDrns) =
        [[lit "DRN-2"], [lit "DRN-1"]] ∧
      Counts none (gradedOf (sampleEnv true) turns emptyDisk) report.tally ∧
      ∀ g ∈ gradedOf (sampleEnv true) turns emptyDisk, g.HeldOut := by
  intro turns
  have htools : ∀ turn ∈ turns,
      UsesTool sampleLocale (loadPrecedents sampleStore turn.world.files) turn.agent := by
    intro turn hturn
    have hpair : turn = sampleAskingTurn [lit "DRN-1"] ∨ turn = sampleAskingTurn [lit "DRN-2"] := by
      simpa [turns] using hturn
    rcases hpair with rfl | rfl <;> exact sampleAgent_usesTool
  have hlive : LiveEval (sampleEnv true) := ⟨rfl, by decide⟩
  obtain ⟨report, left, hmain⟩ := @EvalProcess.evalMain_noJudge (sampleEnv true) (fun _ => none)
    turns ⟨[], emptyDisk⟩ rfl (fun _ _ => rfl) samplePair
  obtain ⟨hclear, hfigures⟩ := answer_key_is_held_out (sampleEnv true) none (fun _ => none)
    samplePair turns emptyDisk sampleLocale sampleStore _ left hlive htools hmain
  obtain ⟨-, -, hcounts, hheld⟩ := hfigures report rfl
  have hfirst (d : AuditDisk) :
      ((sampleAskingTurn [lit "DRN-1"]).graded (sampleEnv true) d).returnedDrns = [lit "DRN-2"] :=
    sampleAskingTurn_returned d rfl
  have hsecond (d : AuditDisk) :
      ((sampleAskingTurn [lit "DRN-2"]).graded (sampleEnv true) d).returnedDrns = [lit "DRN-1"] :=
    sampleAskingTurn_returned d rfl
  refine ⟨report, left, hmain, hclear, ?_, hcounts, hheld⟩
  simp only [turns, gradedOf, List.map_cons, List.map_nil, hfirst, hsecond]

end StormReview
