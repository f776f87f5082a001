import StormReview.Safety.Figures
import StormReview.Safety.Abstention
import StormReview.Ui.Session

/-! What the eval grades is what the guard and the abstention left of it, and what its runs leave
in the audit log. -/
namespace StormReview
open Js Zod Engine

section runCase
variable {env : Env} {world : World} {runId : Text} {fx : CaseFixture} {disk : AuditDisk}

/-- What is graded is the review at the gate of a case that arrives there, with the DRNs of that
run. -/
theorem runCase_review {review : Review} {returnedDrns : List Text}
    (h : runCase env world runId fx disk = (some review, returnedDrns)) :
    ∃ caseRecord report, Arrives env world fx.caseId caseRecord report ∧
      (gateFlow env world fx.caseId caseRecord report).review = some review ∧
      returnedDrns = returnedFor env world fx.caseId caseRecord report := by
  by_cases harrives : ∃ caseRecord report, Arrives env world fx.caseId caseRecord report
  · obtain ⟨caseRecord, report, harrives⟩ := harrives
    refine ⟨caseRecord, report, harrives, ?_⟩
    unfold runCase at h
    rcases @startRun_outcomes env world runId _ _ _ disk harrives with
      ⟨-, hs⟩ | ⟨-, ⟨-, e, left, hs⟩ | ⟨-, left, hs⟩⟩
    · rw [hs] at h
      exact ⟨(congrArg Prod.fst h), (congrArg Prod.snd h).symm⟩
    · rw [hs] at h
      cases congrArg Prod.fst h
    · rw [hs] at h
      exact ⟨(congrArg Prod.fst h), (congrArg Prod.snd h).symm⟩
  · obtain ⟨e, he⟩ := startRun_not_arrives harrives runId disk
    rw [runCase, he] at h
    cases congrArg Prod.fst h

/-- The guard has stripped what was not returned before the eval looks. -/
theorem runCase_faithful {review : Review} {returnedDrns : List Text}
    (h : runCase env world runId fx disk = (some review, returnedDrns)) :
    citationFaithfulness review.citedDrns returnedDrns = { score := 1, offending := [] } := by
  obtain ⟨caseRecord, report, -, hreview, rfl⟩ := runCase_review h
  rw [gateFlow_review, Option.map_eq_some_iff] at hreview
  obtain ⟨checked, -, rfl⟩ := hreview
  simp only [citationFaithfulness, List.filter_filter, mem_distinct]
  simp

theorem runCase_abstains {caseRecord : CaseRecord} {report : AdjusterReport} {review : Review}
    {returnedDrns : List Text} (hfile : OnFile world.files fx.caseId caseRecord report)
    (hmissing : WeatherMissing world.files caseRecord)
    (h : runCase env world runId fx disk = (some review, returnedDrns)) :
    review.verdict = .cannotDetermine := by
  obtain ⟨caseRecord', report', harrives, hreview, -⟩ := runCase_review h
  obtain ⟨rfl, rfl⟩ := hfile.unique harrives.onFile
  obtain ⟨raw, rev, citedDrns, -, rfl⟩ := gateFlow_abstains hmissing hreview
  exact abstain_verdict _

end runCase

theorem mem_gradedOf {env : Env} {turns : List Turn} {disk : AuditDisk} {g : Graded}
    (h : g ∈ gradedOf env turns disk) : ∃ turn ∈ turns, ∃ d, g = turn.graded env d := by
  induction turns generalizing disk with
  | nil => simp [gradedOf] at h
  | cons turn turns ih =>
    rcases List.mem_cons.mp h with rfl | h
    · exact ⟨turn, List.mem_cons_self, disk, rfl⟩
    · obtain ⟨turn', hturn, d, hd⟩ := ih h
      exact ⟨turn', List.mem_cons_of_mem _ hturn, d, hd⟩

/-! The line for citation faithfulness. -/

theorem graded_faith (env : Env) (turn : Turn) (disk : AuditDisk) :
    (turn.graded env disk).faith =
      { score := if (turn.graded env disk).review.isSome then 1 else 0, offending := [] } := by
  unfold Graded.faith
  cases hr : (turn.graded env disk).review with
  | none => rfl
  | some review => exact runCase_faithful (Prod.ext hr rfl)

/-- The line for citation faithfulness counts the cases with a review and nothing else, whatever
was cited: the guard has stripped every citation that was not returned before it is graded. -/
theorem faithfulness_counts_reviews (env : Env) (judge : Option Judge) (pr : PairedRegression)
    (turns : List Turn) (disk : AuditDisk) (t : Tally) (n : Nat) (passed : Bool)
    (h : (evalMain env judge pr turns disk).1 = .ok { tally := t, n, prPass := passed }) :
    t.faithSum = t.rows.countP (fun row => row.actual ≠ lit "none") ∧
      ∀ row ∈ t.rows, row.faithful = if row.actual = lit "none" then lit "NO ()" else lit "yes" := by
  obtain ⟨hc, -, -⟩ := Counts.report h
  have hfaith : ∀ g ∈ gradedOf env turns disk,
      g.faith = { score := if g.review.isSome then 1 else 0, offending := [] } := by
    intro g hg
    obtain ⟨turn, -, d, rfl⟩ := mem_gradedOf hg
    exact graded_faith env turn d
  simp only at hc
  generalize gradedOf env turns disk = gs at hc hfaith
  constructor
  · rw [← hc.reviewed, hc.reviewed_cases, hc.faithSum]
    clear hc h
    induction gs with
    | nil => rfl
    | cons g gs ih =>
      have hg := congrArg Faithfulness.score (hfaith g List.mem_cons_self)
      have htail := ih fun g' hg' => hfaith g' (List.mem_cons_of_mem _ hg')
      rw [List.map_cons, List.sum_cons, List.countP_cons, htail, hg, Nat.add_comm]
  · intro row hrow
    have hpair : (row.actual, row.faithful) ∈ gs.map fun g => (g.verdictText, g.faithText) :=
      hc.row_faithful ▸ List.mem_map_of_mem hrow
    obtain ⟨g, hg, hrow⟩ := List.mem_map.mp hpair
    have hactual : g.verdictText = row.actual := congrArg Prod.fst hrow
    have htext : g.faithText = row.faithful := congrArg Prod.snd hrow
    simp only [← hactual, ← htext, Graded.verdictText_eq_none_iff, Graded.faithText, hfaith g hg]
    cases g.review with
    | none => rfl
    | some review => simp

/-- The citation of DRN-9 is stripped, and the case that cites it counts as faithful. -/
theorem faithfulness_counts_reviews_sample : ∃ t n passed,
    (evalMain (sampleEnv true) none samplePair [sampleTurn, sampleAbsentTurn] emptyDisk).1 =
        .ok { tally := t, n, prPass := passed } ∧ t.faithSum = 1 ∧
      t.rows.map (·.faithful) = [lit "yes", lit "NO ()"] := by
  obtain ⟨t, n, passed, h⟩ := evalMain_noJudge (sampleEnv true) samplePair
    [sampleTurn, sampleAbsentTurn] emptyDisk
  obtain ⟨hsum, hrow⟩ := faithfulness_counts_reviews (sampleEnv true) none samplePair
    [sampleTurn, sampleAbsentTurn] emptyDisk t n passed h
  have hactual : t.rows.map (·.actual) = [lit "disagree_decline", lit "none"] := by
    have habsent (disk : AuditDisk) :
        (sampleAbsentTurn.graded (sampleEnv true) disk).verdictText = lit "none" :=
      (Graded.verdictText_eq_none_iff _).mpr (sampleAbsentTurn_review disk)
    rw [(Counts.report h).1.row_actual]
    simp only [gradedOf, List.map_cons, List.map_nil, sampleTurn_verdictText, habsent]
  have hfaithful : t.rows.map (·.faithful) = (t.rows.map (·.actual)).map fun actual =>
      if actual = lit "none" then lit "NO ()" else lit "yes" := by
    rw [List.map_map]
    exact List.map_congr_left hrow
  have hcount : t.faithSum = (t.rows.map (·.actual)).countP fun actual => actual ≠ lit "none" := by
    rw [hsum, List.countP_map]
    rfl
  rw [hactual] at hfaithful hcount
  exact ⟨t, n, passed, h, hcount.trans (by decide), hfaithful.trans (by decide)⟩

/-! The paired regression. -/

/-- A case whose weather is missing wherever it is on file is graded as an abstention or not at
all. -/
theorem graded_missing {env : Env} {turn : Turn} {disk : AuditDisk}
    (h : ∀ caseRecord report, OnFile turn.world.files turn.fx.caseId caseRecord report →
      WeatherMissing turn.world.files caseRecord) :
    (turn.graded env disk).verdictText = lit "cannot_determine" ∨
      (turn.graded env disk).verdictText = lit "none" := by
  cases hr : (turn.graded env disk).review with
  | none => exact .inr (Graded.verdictText_eq_none_iff _ |>.mpr hr)
  | some review =>
    obtain ⟨caseRecord, report, harrives, -, -⟩ := runCase_review (Prod.ext hr rfl)
    have hverdict : review.verdict = .cannotDetermine :=
      runCase_abstains harrives.onFile (h caseRecord report harrives.onFile) (Prod.ext hr rfl)
    exact .inl (by simp [Graded.verdictText, Graded.actual, hr, hverdict]; rfl)

/-- Where the variant's weather is missing, the agent cannot fail the pair on the variant by a
verdict of its own: the variant abstains or has no review, and the pair passes just when the base
is overturned and the variant has one. -/
theorem pair_is_decided_by_base (env : Env) (judge : Option Judge) (pr : PairedRegression)
    (turns : List Turn) (disk : AuditDisk) (t : Tally) (n : Nat) (passed : Bool)
    (h : (evalMain env judge pr turns disk).1 = .ok { tally := t, n, prPass := passed })
    (hvariant : pr.variant ∈ turns.map (·.fx.caseId))
    (hmissing : ∀ turn ∈ turns, turn.fx.caseId = pr.variant → ∀ caseRecord report,
      OnFile turn.world.files pr.variant caseRecord report →
        WeatherMissing turn.world.files caseRecord) :
    (t.verdicts pr.variant = some (lit "cannot_determine") ∨
        t.verdicts pr.variant = some (lit "none")) ∧
      (passed = true ↔ t.verdicts pr.base = some (lit "disagree_decline") ∧
        t.verdicts pr.variant ≠ some (lit "none")) := by
  obtain ⟨hc, -, hpass⟩ := Counts.report h
  simp only at hc hpass
  have hlast : t.verdicts pr.variant = some (lit "cannot_determine") ∨
      t.verdicts pr.variant = some (lit "none") := by
    have hin : pr.variant ∈ (gradedOf env turns disk).map (·.fx.caseId) := by
      have hfx := congrArg (List.map fun fx : SuiteFixture => fx.caseId)
        (map_fx_gradedOf env turns disk)
      rw [List.map_map, List.map_map] at hfx
      exact hfx ▸ hvariant
    obtain ⟨g, hg, hid⟩ := List.mem_map.mp hin
    have hfound : ((gradedOf env turns disk).reverse.find? fun g =>
        g.fx.caseId = pr.variant).isSome :=
      List.find?_isSome.mpr ⟨g, List.mem_reverse.mpr hg, by simpa using hid⟩
    obtain ⟨last, hlast⟩ := Option.isSome_iff_exists.mp hfound
    have hid : last.fx.caseId = pr.variant := by simpa using List.find?_some hlast
    obtain ⟨turn, hturn, d, rfl⟩ :=
      mem_gradedOf (List.mem_reverse.mp (List.mem_of_find?_eq_some hlast))
    have hturnId : turn.fx.caseId = pr.variant := hid
    rw [hc.verdicts, hlast]
    rcases @graded_missing env turn d (hturnId ▸ hmissing turn hturn hturnId) with hv | hv
    · exact .inl (congrArg some hv)
    · exact .inr (congrArg some hv)
  refine ⟨hlast, ?_⟩
  have hne : lit "cannot_determine" ≠ lit "none" := by decide
  rw [hpass, prPass]
  rcases hlast with hv | hv
  · simp [hv, hne]
  · simp [hv, hne.symm]

/-- Case E, with no weather for it: the agent agrees with the decline all the same. -/
def sampleVariantTurn : Turn :=
  let files := sampleFiles .decline none none
  { sampleTurn with
    fx := { sampleTurn.fx with caseId := lit "E", expected := lit "cannot_determine" }
    world := sampleWorld
      { files with cases := fun _ => some [{ sampleCase with id := lit "E" }] } .undefined
    agent := fun _ _ => .ok (sampleCall [lit "DRN-1"] (sampleReview .agreeDecline [lit "DRN-1"] [])) }

theorem sampleVariantTurn_review (disk : AuditDisk) :
    (sampleVariantTurn.graded (sampleEnv true) disk).review.isSome := by
  have hne : ∀ d ∈ [lit "DRN-1"], d ≠ [] := by decide
  have harrives : Arrives (sampleEnv true) (sampleVariantTurn.heldOut (sampleEnv true)) (lit "E")
      { sampleCase with id := lit "E" } (sampleLoaded .decline) :=
    ⟨⟨rfl, rfl⟩, drnsAreTexts_of_map (sample_producedDrns _ _ _ _ _ _ _ hne)⟩
  rw [graded_gate rfl harrives, gateFlow_review, Option.isSome_map]
  exact congrArg Option.isSome (checkedReview_parsed (sample_parsed _ _ _ _ hne))

/-- The agent answers agree_decline on the variant, and the pair passes. -/
theorem pair_is_decided_by_base_sample : ∃ t n passed,
    (evalMain (sampleEnv true) none samplePair [sampleTurn, sampleVariantTurn] emptyDisk).1 =
        .ok { tally := t, n, prPass := passed } ∧
      t.verdicts (lit "A") = some (lit "disagree_decline") ∧
      t.verdicts (lit "E") = some (lit "cannot_determine") ∧ passed = true := by
  obtain ⟨t, n, passed, h⟩ := evalMain_noJudge (sampleEnv true) samplePair
    [sampleTurn, sampleVariantTurn] emptyDisk
  have hmissing : ∀ turn ∈ [sampleTurn, sampleVariantTurn], turn.fx.caseId = lit "E" →
      ∀ caseRecord report, OnFile turn.world.files (lit "E") caseRecord report →
        WeatherMissing turn.world.files caseRecord := by
    intro turn hturn hid caseRecord report hfile w hw
    have hbase : lit "A" ≠ lit "E" := by decide
    rcases List.mem_cons.mp hturn with rfl | hturn
    · exact absurd hid hbase
    · obtain rfl := List.mem_singleton.mp hturn
      rw [loadWeather_eq_none.mpr fun _ _ _ _ _ _ hread => (by cases hread)] at hw
      cases hw
  obtain ⟨hvariant, hpass⟩ := pair_is_decided_by_base (sampleEnv true) none samplePair
    [sampleTurn, sampleVariantTurn] emptyDisk t n passed h (by decide) hmissing
  have hverdicts := (Counts.report h).1.verdicts
  have hfirst (disk : AuditDisk) : (sampleTurn.graded (sampleEnv true) disk).fx.caseId = lit "A" :=
    rfl
  have hsecond (disk : AuditDisk) :
      (sampleVariantTurn.graded (sampleEnv true) disk).fx.caseId = lit "E" := rfl
  have hne : lit "E" ≠ lit "A" := by decide
  have hbase : t.verdicts (lit "A") = some (lit "disagree_decline") := by
    rw [hverdicts]
    simp [gradedOf, hfirst, hsecond, hne, sampleTurn_verdictText]
  have hnone : t.verdicts (lit "E") ≠ some (lit "none") := by
    rw [hverdicts]
    simp [gradedOf, hsecond, Graded.verdictText_eq_none_iff, ← Option.isSome_iff_ne_none,
      sampleVariantTurn_review]
  exact ⟨t, n, passed, h, hbase, hvariant.resolve_right hnone, hpass.mpr ⟨hbase, hnone⟩⟩

/-! What the runs leave on the disk. -/

theorem leaves_demo {env : Env} (hdemo : demoAlwaysGate env = true) (turn : Turn)
    (disk : AuditDisk) : turn.leaves env disk = disk := by
  unfold Turn.leaves
  by_cases harrives : ∃ caseRecord report,
      Arrives env (turn.heldOut env) turn.fx.caseId caseRecord report
  · obtain ⟨caseRecord, report, harrives⟩ := harrives
    rw [startRun_suspends harrives (by simp [needsHuman, hdemo])]
  · obtain ⟨e, he⟩ := startRun_not_arrives harrives turn.runId disk
    rw [he]

theorem evalLoop_demo {env : Env} (hdemo : demoAlwaysGate env = true) (judge : Option Judge)
    (turns : List Turn) (t : Tally) (disk : AuditDisk) :
    (evalLoop env judge turns t disk).2 = disk := by
  induction turns generalizing t disk with
  | nil => rfl
  | cons turn turns ih =>
    unfold evalLoop
    rw [leaves_demo hdemo]
    cases scoreCase judge t (turn.graded env disk) with
    | error e => rfl
    | ok t' => exact ih t' disk

theorem evalLoop_log (env : Env) (judge : Option Judge) (turns : List Turn) (t : Tally)
    (disk : AuditDisk) :
    ∃ rows, (evalLoop env judge turns t disk).2.log = disk.log ++ rows ∧
      (rows.map (·.runId)).Sublist (turns.map (·.runId)) ∧
      ∀ row ∈ rows, row.decision = .autoFiled := by
  induction turns generalizing t disk with
  | nil => exact ⟨[], by simp [evalLoop], by simp, by simp⟩
  | cons turn turns ih =>
    obtain ⟨first, hfirst, hsub, hrows⟩ : ∃ rows, (turn.leaves env disk).log = disk.log ++ rows ∧
        (rows.map (·.runId)).Sublist [turn.runId] ∧ ∀ row ∈ rows, row.decision = .autoFiled := by
      rcases startRun_log env (turn.heldOut env) turn.runId turn.fx.caseId disk with
        hlog | ⟨-, row, hlog, hid, hrow⟩
      · exact ⟨[], by simpa [Turn.leaves] using hlog, by simp, by simp⟩
      · exact ⟨[row], hlog, by simp [hid], by simp [hrow]⟩
    unfold evalLoop
    cases scoreCase judge t (turn.graded env disk) with
    | error e =>
      exact ⟨first, hfirst, hsub.trans (by simp), hrows⟩
    | ok t' =>
      obtain ⟨rows, hlog, hsubs, hall⟩ := ih t' (turn.leaves env disk)
      refine ⟨first ++ rows, by rw [hlog, hfirst, List.append_assoc], ?_, ?_⟩
      · rw [List.map_append]
        exact hsub.append hsubs
      · intro row hrow
        rcases List.mem_append.mp hrow with hrow | hrow
        · exact hrows row hrow
        · exact hall row hrow

/-- An eval puts no one's decision into the audit log: what it adds are rows of its own runs that
filed themselves, one for each at most, also when the judge stops it; with the demo gate on it
leaves the log and the notes as they are. -/
theorem evals_sign_nothing (env : Env) (judge : Option Judge) (pr : PairedRegression)
    (turns : List Turn) (disk : AuditDisk) :
    (∃ rows, (evalMain env judge pr turns disk).2.log = disk.log ++ rows ∧
      (rows.map (·.runId)).Sublist (turns.map (·.runId)) ∧
      ∀ row ∈ rows, row.decision = .autoFiled) ∧
      (demoAlwaysGate env = true → (evalMain env judge pr turns disk).2 = disk) :=
  ⟨evalLoop_log env judge turns Tally.empty disk,
    fun hdemo => evalLoop_demo hdemo judge turns Tally.empty disk⟩

end StormReview
