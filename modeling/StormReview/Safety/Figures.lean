import Mathlib.Algebra.Ring.Nat
import StormReview.Evals.Suite
import StormReview.Workflow.Pipeline

/-! What the figures of the eval are figures of, and how they account for each other. -/
namespace StormReview
open Js Zod Engine

/-! The loop counts what its cases were graded on. -/

/-- The cases of a run of the loop, as they were graded. -/
def gradedOf (env : Env) : List Turn → AuditDisk → List Graded
  | [], _ => []
  | turn :: turns, disk => turn.graded env disk :: gradedOf env turns (turn.leaves env disk)

theorem map_fx_gradedOf (env : Env) (turns : List Turn) (disk : AuditDisk) :
    (gradedOf env turns disk).map (·.fx) = turns.map (·.fx) := by
  induction turns generalizing disk with
  | nil => rfl
  | cons turn turns ih => exact congrArg (turn.fx :: ·) (ih _)

/-- The counts are those of these cases. -/
structure Counts (judge : Option Judge) (gs : List Graded) (t : Tally) : Prop where
  rows : t.rows.map (·.case) = gs.map (·.fx.caseId)
  row_faithful : t.rows.map (fun row => (row.actual, row.faithful)) =
    gs.map fun g => (g.verdictText, g.faithText)
  row_agreement : t.rows.map (·.agreement) = gs.map (·.agreement)
  bucket_n : ∀ conf, (t.confBuckets conf).n = gs.countP (·.confident conf)
  bucket_agree : ∀ conf, (t.confBuckets conf).agree =
    gs.countP fun g => g.confident conf && decide (g.agreement = 2)
  agreeSum : t.agreeSum = (gs.map (·.agreement)).sum
  faithSum : t.faithSum = (gs.map (·.faith.score)).sum
  judgePass : t.judgePass ≤ t.judgeScored
  judgeScored : t.judgeScored = if judge.isSome then gs.countP (·.review.isSome) else 0
  abstentions : t.abstentions = gs.countP (·.abstains)
  wronglyUpheld : t.wronglyUpheld = gs.countP (·.wronglyUpholds)
  verdicts : ∀ id, t.verdicts id =
    (gs.reverse.find? fun g => g.fx.caseId = id).map (·.verdictText)

theorem counts_empty (judge : Option Judge) : Counts judge [] Tally.empty := by
  constructor <;> simp [Tally.empty]

/-- The judge scores a case just when there is a judge and a review. -/
theorem judged_isSome {judge : Option Judge} {g : Graded} {result : Option JudgeResult}
    (h : g.judged judge = .ok result) :
    result.isSome = (judge.isSome && g.review.isSome) := by
  unfold Graded.judged at h
  cases hr : g.review with
  | none => simp_all
  | some review =>
    rw [hr] at h
    cases judge with
    | none => simp_all [decisiveFactRecall]
    | some judge =>
      unfold decisiveFactRecall at h
      cases hj : judge (rubric review g.fx.decisiveFactKeywords) with
      | error e => simp [hj, Except.map] at h
      | ok out =>
        simp only [hj, Except.map, Except.ok.injEq] at h
        simp [← h]

theorem Counts.add {judge : Option Judge} {gs : List Graded} {g : Graded} {t : Tally}
    {result : Option JudgeResult} (ht : Counts judge gs t)
    (hresult : result.isSome = (judge.isSome && g.review.isSome)) :
    Counts judge (gs ++ [g]) (t.add g result) where
  rows := by simp [Tally.add, ht.rows, Graded.row]
  row_faithful := by simp [Tally.add, ht.row_faithful, Graded.row]
  row_agreement := by simp [Tally.add, ht.row_agreement, Graded.row]
  bucket_n conf := by
    cases hc : g.confident conf <;> simp [Tally.add, hc, ht.bucket_n, Bucket.count]
  bucket_agree conf := by
    by_cases ha : g.agreement = 2 <;> cases hc : g.confident conf <;>
      simp [Tally.add, hc, ha, ht.bucket_agree, Bucket.count]
  agreeSum := by simp [Tally.add, ht.agreeSum]
  faithSum := by simp [Tally.add, ht.faithSum]
  judgePass := by
    have := ht.judgePass
    cases result with
    | none => simpa [Tally.add]
    | some result => cases hp : result.pass <;> simp [Tally.add, hp] <;> omega
  judgeScored := by
    have := ht.judgeScored
    cases judge <;> cases hr : g.review <;> simp_all [Tally.add]
  abstentions := by
    cases h : g.abstains <;> simp [Tally.add, h, ht.abstentions]
  wronglyUpheld := by
    cases h : g.wronglyUpholds <;> simp [Tally.add, h, ht.wronglyUpheld]
  verdicts id := by
    by_cases h : g.fx.caseId = id
    · subst h
      simp [Tally.add]
    · simp [Tally.add, h, ht.verdicts, Ne.symm h]

section answers
variable {judge : Option Judge} (hjudge : ∀ ask ∈ judge, ∀ prompt, ∃ out, ask prompt = .ok out)
include hjudge

/-- A judge that always answers does not stop the eval. -/
theorem evalLoop_answers (env : Env) (turns : List Turn) (t : Tally) (disk : AuditDisk) :
    ∃ t' left, evalLoop env judge turns t disk = (.ok t', left) := by
  induction turns generalizing t disk with
  | nil => exact ⟨t, disk, rfl⟩
  | cons turn turns ih =>
    obtain ⟨result, hresult⟩ : ∃ result, (turn.graded env disk).judged judge = .ok result := by
      unfold Graded.judged
      cases (turn.graded env disk).review with
      | none => exact ⟨none, rfl⟩
      | some review =>
        cases judge with
        | none => exact ⟨none, rfl⟩
        | some ask =>
          obtain ⟨out, hout⟩ := hjudge ask rfl
            (rubric review (turn.graded env disk).fx.decisiveFactKeywords)
          simp [decisiveFactRecall, hout, Except.map]
    unfold evalLoop scoreCase
    rw [hresult]
    exact ih _ _

theorem evalMain_answers (env : Env) (pr : PairedRegression) (turns : List Turn)
    (disk : AuditDisk) : ∃ t n passed,
      (evalMain env judge pr turns disk).1 = .ok { tally := t, n, prPass := passed } := by
  obtain ⟨t, left, ht⟩ := evalLoop_answers hjudge env turns Tally.empty disk
  exact ⟨t, turns.length, prPass pr t, by rw [evalMain, ht]; rfl⟩

end answers

theorem evalMain_noJudge (env : Env) (pr : PairedRegression) (turns : List Turn)
    (disk : AuditDisk) : ∃ t n passed,
      (evalMain env none pr turns disk).1 = .ok { tally := t, n, prPass := passed } :=
  evalMain_answers (by simp) env pr turns disk

/-- What a whole loop has counted, when no judge has stopped it. -/
theorem Counts.loop {env : Env} {judge : Option Judge} {turns : List Turn} {t t' : Tally}
    {disk left : AuditDisk} {gs : List Graded} (ht : Counts judge gs t)
    (h : evalLoop env judge turns t disk = (.ok t', left)) :
    Counts judge (gs ++ gradedOf env turns disk) t' := by
  induction turns generalizing t disk gs with
  | nil =>
    obtain rfl := Except.ok.inj (congrArg Prod.fst h)
    simpa [gradedOf] using ht
  | cons turn turns ih =>
    unfold evalLoop scoreCase at h
    cases hj : (turn.graded env disk).judged judge with
    | error e =>
      rw [hj] at h
      cases congrArg Prod.fst h
    | ok result =>
      rw [hj] at h
      have hrest := ih (ht.add (judged_isSome hj)) h
      rwa [List.append_assoc] at hrest

theorem Counts.report {env : Env} {judge : Option Judge} {pr : PairedRegression}
    {turns : List Turn} {disk : AuditDisk} {report : EvalReport}
    (h : (evalMain env judge pr turns disk).1 = .ok report) :
    Counts judge (gradedOf env turns disk) report.tally ∧ report.n = turns.length ∧
      report.prPass = prPass pr report.tally := by
  unfold evalMain at h
  cases hloop : evalLoop env judge turns Tally.empty disk with
  | mk t left =>
    rw [hloop] at h
    cases t with
    | error e => cases h
    | ok t =>
      obtain rfl := Except.ok.inj h
      exact ⟨(counts_empty judge).loop hloop, rfl, rfl⟩

/-! How the figures of one case go together, and of all of them. -/

section figures
variable (g : Graded) (gs : List Graded)

/-- The number of cases that are in some bucket. -/
def Tally.reviewed (t : Tally) : Nat :=
  (t.confBuckets .high).n + (t.confBuckets .medium).n + (t.confBuckets .low).n

/-- The number of cases that were agreed with in some bucket. -/
def Tally.agreed (t : Tally) : Nat :=
  (t.confBuckets .high).agree + (t.confBuckets .medium).agree + (t.confBuckets .low).agree

theorem Graded.faith_le : g.faith.score ≤ if g.review.isSome then 1 else 0 := by
  unfold Graded.faith
  cases g.review with
  | none => simp
  | some review =>
    simp only [citationFaithfulness, Option.isSome_some, if_true]
    split <;> omega

/-- A verdict that agrees upholds nothing wrongly, and half a credit is an abstention. -/
theorem Graded.agreement_cases :
    g.agreement = 0 ∨ (g.agreement = 1 ∧ g.abstains = true ∧ g.wronglyUpholds = false) ∨
      g.agreement = 2 ∧ g.review.isSome ∧ g.wronglyUpholds = false := by
  unfold Graded.agreement outcomeAgreement Graded.abstains Graded.wronglyUpholds Graded.actual
  cases g.review with
  | none => exact .inl rfl
  | some review =>
    simp only [Option.map_some, Option.isSome_some, Option.some.injEq]
    by_cases hv : Enum.text review.verdict = g.fx.expected
    · refine .inr (.inr ⟨if_pos hv, trivial, ?_⟩)
      have hne : Enum.text Verdict.agreeDecline ≠ lit "disagree_decline" := by decide
      rw [← hv]
      by_cases ha : review.verdict = .agreeDecline
      · simp [ha, hne]
      · simp [ha]
    · rw [if_neg hv]
      by_cases hb : g.fx.borderline = true ∧ review.verdict = .cannotDetermine
      · exact .inr (.inl ⟨if_pos hb, by simp [hb.2], by simp [hb.2]⟩)
      · exact .inl (if_neg hb)

/-- A review is in one bucket, and no review in none. -/
theorem Graded.confident_cases :
    (g.review = none ∧ ∀ conf, g.confident conf = false) ∨
      g.review.isSome ∧ ∃ own, ∀ conf, g.confident conf = decide (own = conf) := by
  unfold Graded.confident
  cases g.review with
  | none => exact .inl ⟨rfl, fun _ => rfl⟩
  | some review => exact .inr ⟨rfl, review.confidence, fun _ => rfl⟩

theorem Graded.verdictText_eq_none_iff : g.verdictText = lit "none" ↔ g.review = none := by
  unfold Graded.verdictText Graded.actual
  cases g.review with
  | none => simp
  | some review => cases hv : review.verdict <;> simp [hv] <;> decide

theorem countP_confident :
    gs.countP (·.confident .high) + gs.countP (·.confident .medium) +
      gs.countP (·.confident .low) = gs.countP (·.review.isSome) := by
  induction gs with
  | nil => rfl
  | cons g gs ih =>
    simp only [List.countP_cons]
    rcases g.confident_cases with ⟨hr, hc⟩ | ⟨hr, own, hc⟩
    · simp only [hr, hc, Option.isSome_none, Bool.false_eq_true, if_false]
      omega
    · simp only [hr, hc, if_true]
      cases own <;> simp <;> omega

/-- The cases that were agreed with. -/
def agreedOf : Nat := gs.countP fun g => decide (g.agreement = 2)

theorem countP_agreed :
    gs.countP (fun g => g.confident .high && decide (g.agreement = 2)) +
        gs.countP (fun g => g.confident .medium && decide (g.agreement = 2)) +
        gs.countP (fun g => g.confident .low && decide (g.agreement = 2)) = agreedOf gs := by
  unfold agreedOf
  induction gs with
  | nil => rfl
  | cons g gs ih =>
    simp only [List.countP_cons]
    rcases g.confident_cases with ⟨hr, hc⟩ | ⟨hr, own, hc⟩
    · have hne : g.agreement ≠ 2 := by
        simp [Graded.agreement, Graded.actual, outcomeAgreement, hr]
      simp only [hc, hne, Bool.false_and, Bool.false_eq_true, if_false, decide_false]
      omega
    · simp only [hc]
      by_cases ha : g.agreement = 2
      · cases own <;> simp [ha] <;> omega
      · cases own <;> simp [ha] <;> omega

theorem agreement_sum :
    2 * agreedOf gs ≤ (gs.map (·.agreement)).sum ∧
      (gs.map (·.agreement)).sum ≤ 2 * agreedOf gs + gs.countP (·.abstains) ∧
      (gs.map (·.agreement)).sum + 2 * gs.countP (·.wronglyUpholds) ≤ 2 * gs.length := by
  unfold agreedOf
  induction gs with
  | nil => simp
  | cons g gs ih =>
    simp only [List.countP_cons, List.map_cons, List.sum_cons, List.length_cons]
    rcases g.agreement_cases with h | ⟨h, ha, hw⟩ | ⟨h, -, hw⟩
    · cases g.abstains <;> cases g.wronglyUpholds <;> simp [h] <;> omega
    · simp [h, ha, hw]
      omega
    · cases g.abstains <;> simp [h, hw] <;> omega

/-- Full marks are full marks in every case. -/
theorem agreement_full : (gs.map (·.agreement)).sum = 2 * gs.length ↔ ∀ g ∈ gs, g.agreement = 2 := by
  have hle (g : Graded) : g.agreement ≤ 2 := by
    rcases g.agreement_cases with h | ⟨h, -⟩ | ⟨h, -⟩ <;> omega
  have hsum : (gs.map (·.agreement)).sum ≤ 2 * gs.length := by
    have := agreement_sum gs
    omega
  induction gs with
  | nil => simp
  | cons g gs ih =>
    have htail : (gs.map (·.agreement)).sum ≤ 2 * gs.length := by
      have := agreement_sum gs
      omega
    have hg := hle g
    have hrest := ih htail
    simp only [List.map_cons, List.sum_cons, List.length_cons, List.forall_mem_cons]
    constructor
    · intro h
      exact ⟨by omega, hrest.mp (by omega)⟩
    · rintro ⟨hfull, hall⟩
      have := hrest.mpr hall
      omega

theorem faith_sum : (gs.map (·.faith.score)).sum ≤ gs.countP (·.review.isSome) := by
  induction gs with
  | nil => simp
  | cons g gs ih =>
    have := g.faith_le
    simp only [List.map_cons, List.sum_cons, List.countP_cons]
    omega

/-- A case abstains or wrongly upholds, and has a review to do so. -/
theorem Graded.abstains_le :
    ((if g.abstains then 1 else 0) + if g.wronglyUpholds then 1 else 0) ≤
      if g.review.isSome then 1 else 0 := by
  unfold Graded.abstains Graded.wronglyUpholds Graded.actual
  cases g.review with
  | none => simp
  | some review =>
    cases hv : review.verdict <;> simp [hv]
    split <;> omega

theorem abstains_disjoint :
    gs.countP (·.abstains) + gs.countP (·.wronglyUpholds) ≤ gs.countP (·.review.isSome) := by
  induction gs with
  | nil => simp
  | cons g gs ih =>
    have := g.abstains_le
    simp only [List.countP_cons]
    omega

end figures

namespace Counts
variable {judge : Option Judge} {gs : List Graded} {t : Tally}

/-- The buckets hold the cases with a review. -/
theorem reviewed_cases (hc : Counts judge gs t) : t.reviewed = gs.countP (·.review.isSome) := by
  rw [Tally.reviewed, hc.bucket_n, hc.bucket_n, hc.bucket_n, countP_confident]

theorem row_actual (hc : Counts judge gs t) :
    t.rows.map (·.actual) = gs.map (·.verdictText) := by
  have hfst := congrArg (List.map Prod.fst) hc.row_faithful
  rwa [List.map_map, List.map_map] at hfst

/-- They are the rows with a verdict. -/
theorem reviewed (hc : Counts judge gs t) :
    t.reviewed = t.rows.countP fun row => row.actual ≠ lit "none" := by
  calc t.reviewed = gs.countP (·.review.isSome) := hc.reviewed_cases
    _ = (gs.map (·.verdictText)).countP fun actual => actual ≠ lit "none" := by
      rw [List.countP_map]
      refine List.countP_congr fun g _ => ?_
      simp [g.verdictText_eq_none_iff, Option.isSome_iff_ne_none]
    _ = t.rows.countP fun row => row.actual ≠ lit "none" := by
      rw [← hc.row_actual, List.countP_map]
      rfl

end Counts

/-- The figures of a report account for each other, whatever the cases, the agent, the recordings
and the judge: every case has a row, a wrongly upheld decline costs the agreement its case, what
the agreement has beyond the buckets is half credits for abstentions, the buckets hold the cases
with a review, a judge scores each of these, and full marks are full marks in every row. -/
theorem figures_account (env : Env) (judge : Option Judge) (pr : PairedRegression)
    (turns : List Turn) (disk : AuditDisk) (t : Tally) (n : Nat) (passed : Bool)
    (h : (evalMain env judge pr turns disk).1 = .ok { tally := t, n, prPass := passed }) :
    t.rows.map (·.case) = turns.map (·.fx.caseId) ∧ n = turns.length ∧
      t.agreeSum + 2 * t.wronglyUpheld ≤ 2 * n ∧
      2 * t.agreed ≤ t.agreeSum ∧ t.agreeSum ≤ 2 * t.agreed + t.abstentions ∧
      (t.agreeSum = 2 * n ↔ ∀ row ∈ t.rows, row.agreement = 2) ∧
      t.reviewed = t.rows.countP (fun row => row.actual ≠ lit "none") ∧
      t.faithSum ≤ t.reviewed ∧ t.reviewed ≤ n ∧
      t.abstentions + t.wronglyUpheld ≤ t.reviewed ∧
      t.judgePass ≤ t.judgeScored ∧ t.judgeScored = (if judge.isSome then t.reviewed else 0) := by
  obtain ⟨hc, hn, -⟩ := Counts.report h
  simp only at hc hn
  have hfx := map_fx_gradedOf env turns disk
  have hlength : (gradedOf env turns disk).length = n := by
    rw [hn]
    simpa using congrArg List.length hfx
  generalize gradedOf env turns disk = gs at hc hfx hlength
  have hreviewed := hc.reviewed_cases
  have hagreed : t.agreed = agreedOf gs := by
    rw [Tally.agreed, hc.bucket_agree, hc.bucket_agree, hc.bucket_agree, countP_agreed]
  have hcases : t.rows.map (·.case) = turns.map (·.fx.caseId) := by
    have := congrArg (List.map fun fx : SuiteFixture => fx.caseId) hfx
    rw [List.map_map, List.map_map] at this
    rw [hc.rows]
    exact this
  have hfull : t.agreeSum = 2 * n ↔ ∀ row ∈ t.rows, row.agreement = 2 := by
    have hrows : (∀ a ∈ t.rows.map (·.agreement), a = 2) ↔ ∀ a ∈ gs.map (·.agreement), a = 2 := by
      rw [hc.row_agreement]
    rw [hc.agreeSum, ← hlength, agreement_full]
    simpa only [List.forall_mem_map] using hrows.symm
  obtain ⟨hbelow, habove, hwrong⟩ := agreement_sum gs
  have hin : gs.countP (·.review.isSome) ≤ gs.length := List.countP_le_length
  rw [hlength] at hwrong hin
  refine ⟨hcases, hn, ?_, ?_, ?_, hfull, hc.reviewed, ?_, ?_, ?_, hc.judgePass, ?_⟩
  · rwa [hc.agreeSum, hc.wronglyUpheld]
  · rwa [hc.agreeSum, hagreed]
  · rwa [hc.agreeSum, hagreed, hc.abstentions]
  · rw [hc.faithSum, hreviewed]
    exact faith_sum gs
  · rwa [hreviewed]
  · rw [hc.abstentions, hc.wronglyUpheld, hreviewed]
    exact abstains_disjoint gs
  · rw [hc.judgeScored, hreviewed]

/-- With the demo gate on, a case that arrives at its gate is graded on what waits there. -/
theorem graded_gate {env : Env} {turn : Turn} {disk : AuditDisk} {caseRecord : CaseRecord}
    {report : AdjusterReport} (hdemo : demoAlwaysGate env = true)
    (h : Arrives env (turn.heldOut env) turn.fx.caseId caseRecord report) :
    turn.graded env disk =
      { fx := turn.fx
        review := (gateFlow env (turn.heldOut env) turn.fx.caseId caseRecord report).review
        returnedDrns := returnedFor env (turn.heldOut env) turn.fx.caseId caseRecord report } := by
  have hrun := @startRun_suspends env (turn.heldOut env) turn.runId _ _ _ disk h
    (by simp [needsHuman, hdemo])
  have hcase : runCase env (turn.heldOut env) turn.runId turn.fx.toCaseFixture disk =
      ((gateFlow env (turn.heldOut env) turn.fx.caseId caseRecord report).review,
        returnedFor env (turn.heldOut env) turn.fx.caseId caseRecord report) := by
    rw [runCase, hrun]
    rfl
  exact congrArg (fun outcome : Option Review × List Text =>
    ({ fx := turn.fx, review := outcome.1, returnedDrns := outcome.2 } : Graded)) hcase

/-- Case A: the agent is handed DRN-1, cites DRN-9 and finds against the decline. -/
def sampleTurn : Turn where
  fx :=
    { caseId := lit "A", controllingDrns := [], expected := lit "disagree_decline"
      decisiveFactKeywords := [], borderline := false }
  world := sampleWorld (sampleFiles .decline (some sampleWeather) none) .undefined
  agent := fun _ _ =>
    .ok (sampleCall [lit "DRN-1"] (sampleReview .disagreeDecline [lit "DRN-9"] []))
  runId := lit "r1"

/-- Case E, which is not on file. -/
def sampleAbsentTurn : Turn := { sampleTurn with fx := { sampleTurn.fx with caseId := lit "E" } }

def samplePair : PairedRegression where
  base := lit "A"
  variant := lit "E"

theorem sampleTurn_review (disk : AuditDisk) :
    (sampleTurn.graded (sampleEnv true) disk).review.map (·.verdict) = some .disagreeDecline := by
  have hne : ∀ d ∈ [lit "DRN-1"], d ≠ [] := by decide
  have hchecked : checkedReview (sampleEnv true) (sampleTurn.heldOut (sampleEnv true)) (lit "A")
      sampleCase (sampleLoaded .decline) = some _ := checkedReview_parsed (sample_parsed _ _ _ _ hne)
  rw [graded_gate rfl (sample_arrives .decline (some sampleWeather) none true [lit "DRN-1"]
    (sampleReview .disagreeDecline [lit "DRN-9"] []) hne)]
  exact congrArg (Option.map (·.verdict)) (gateFlow_review.trans (congrArg _ hchecked))

theorem sampleTurn_verdictText (disk : AuditDisk) :
    (sampleTurn.graded (sampleEnv true) disk).verdictText = lit "disagree_decline" := by
  rw [Graded.verdictText, Graded.actual, sampleTurn_review]
  rfl

theorem sampleAbsentTurn_review (disk : AuditDisk) :
    (sampleAbsentTurn.graded (sampleEnv true) disk).review = none := by
  have habsent : ¬ ∃ caseRecord report, Arrives (sampleEnv true)
      (sampleAbsentTurn.heldOut (sampleEnv true)) sampleAbsentTurn.fx.caseId caseRecord report := by
    rintro ⟨caseRecord, report, h⟩
    cases h.onFile.case
  obtain ⟨e, he⟩ := startRun_not_arrives habsent sampleAbsentTurn.runId disk
  have hgraded : (sampleAbsentTurn.graded (sampleEnv true) disk).review =
      (runCase (sampleEnv true) (sampleAbsentTurn.heldOut (sampleEnv true)) sampleAbsentTurn.runId
        sampleAbsentTurn.fx.toCaseFixture disk).1 := rfl
  rw [hgraded, runCase, he]

/-- Of two cases one has a review, and the judge scores that one. -/
theorem figures_account_sample : ∃ t n passed,
    (evalMain (sampleEnv true) (some fun _ => .ok (lit "PASS")) samplePair
        [sampleTurn, sampleAbsentTurn] emptyDisk).1 = .ok { tally := t, n, prPass := passed } ∧
      n = 2 ∧ t.rows.countP (fun row => row.actual ≠ lit "none") = 1 ∧ t.reviewed = 1 ∧
      t.judgeScored = 1 := by
  obtain ⟨t, n, passed, h⟩ := @evalMain_answers (some fun _ => .ok (lit "PASS"))
    (fun ask hask prompt => ⟨lit "PASS", by rw [← Option.some.inj hask]⟩)
    (sampleEnv true) samplePair [sampleTurn, sampleAbsentTurn] emptyDisk
  obtain ⟨-, hn, -, -, -, -, hrows, -, -, -, -, hscored⟩ := figures_account (sampleEnv true)
    (some fun _ => .ok (lit "PASS")) samplePair [sampleTurn, sampleAbsentTurn] emptyDisk t n passed h
  have hone : t.reviewed = 1 := by
    have hsome (disk : AuditDisk) : (sampleTurn.graded (sampleEnv true) disk).review.isSome := by
      rw [← Option.isSome_map, sampleTurn_review]
      rfl
    have hnone (disk : AuditDisk) :
        (sampleAbsentTurn.graded (sampleEnv true) disk).review.isSome = false := by
      rw [sampleAbsentTurn_review]
      rfl
    rw [(Counts.report h).1.reviewed_cases]
    simp only [gradedOf, List.countP_cons, hsome, hnone]
    rfl
  exact ⟨t, n, passed, h, hn, hrows ▸ hone, hone, hscored.trans hone⟩

end StormReview
