import StormReview.Safety.AutoFile
import StormReview.Safety.Fidelity

/-! Abstention where the weather is not known. -/
namespace StormReview
open Js Zod Engine

/-- The weather lookup finds nothing, or a report that says it is unavailable. -/
def WeatherMissing (files : Files) (caseRecord : CaseRecord) : Prop :=
  ∀ w, loadWeather files caseRecord.postcodeDistrict caseRecord.dateOfLoss = some w →
    w.status = .unavailable

theorem weatherMissing_iff (files : Files) (caseRecord : CaseRecord) :
    WeatherMissing files caseRecord ↔ ¬ WeatherOnFile files caseRecord := by
  simp [WeatherMissing, WeatherOnFile]

/-- The ways the lookup comes back empty: no directory, or no readable file for the pair. -/
theorem loadWeather_eq_none {files : Files} {postcodeDistrict dateOfLoss : Text} :
    loadWeather files postcodeDistrict dateOfLoss = none ↔
      ∀ names, files.readdir (files.dataPath (lit "weather")) = some names →
        ∀ f ∈ names, (lit ".json").isSuffixOf f = true →
          ∀ w, files.weather (Path.join [files.dataPath (lit "weather"), f]) = some w →
            ¬ (w.postcodeDistrict = postcodeDistrict ∧ w.dateOfLoss = dateOfLoss) := by
  cases h : files.readdir (files.dataPath (lit "weather")) with
  | none => simp [loadWeather, h]
  | some names => simp [loadWeather, h, List.findSome?_eq_none_iff, Option.filter_eq_none_iff]

section gate
variable {env : Env} {world : World} {caseId : Text} {caseRecord : CaseRecord}
  {report : AdjusterReport} {rev reached : Review}

theorem factsFor_missing (h : WeatherMissing world.files caseRecord) :
    (factsFor world caseRecord report).weatherStatus = .unavailable :=
  not_not.mp fun hne => (weatherMissing_iff _ _).mp h (factsFor_weather.mp hne)

/-- Without weather the review at the gate is the tidied one after the abstention, with the
citations the guard left. -/
theorem gateFlow_abstains (h : WeatherMissing world.files caseRecord)
    (hreached : (gateFlow env world caseId caseRecord report).review = some reached) :
    ∃ raw rev citedDrns, RawReview env world caseId caseRecord report raw rev ∧
      reached = { abstain (tidyReview rev) with citedDrns } := by
  have hfacts : (factsFor world caseRecord report).weatherStatus = .unavailable :=
    factsFor_missing h
  rw [gateFlow_review, Option.map_eq_some_iff] at hreached
  obtain ⟨checked, hchecked, rfl⟩ := hreached
  rw [checkedReview, Option.map_eq_some_iff] at hchecked
  obtain ⟨rev, hrev, rfl⟩ := hchecked
  obtain ⟨raw, hraw⟩ := parsedFor_eq_some.mp hrev
  have hback : backstop (factsFor world caseRecord report) (tidyReview rev) =
      abstain (tidyReview rev) := by simp [backstop, hfacts]
  rw [hback]
  exact ⟨raw, rev, (abstain (tidyReview rev)).citedDrns.filter fun d =>
    d ∈ returnedFor env world caseId caseRecord report, hraw, rfl⟩

theorem wouldChangeMind_le (rev : Review) :
    (abstain (tidyReview rev)).wouldChangeMind.length ≤ 3 := by
  unfold abstain
  split
  · exact List.length_take_le _ _
  · exact List.length_take_le _ _

end gate

/-- Everything an abstention must leave as the tidied model review has it. -/
structure SameElsewhere (reached tidied : Review) : Prop where
  q1 : reached.q1StormConditions.evidence = tidied.q1StormConditions.evidence ∧
    reached.q1StormConditions.gaps = tidied.q1StormConditions.gaps
  q2 : reached.q2DamageConsistent = tidied.q2DamageConsistent
  q3 : reached.q3MainCause = tidied.q3MainCause
  draftParagraph : reached.draftParagraph = tidied.draftParagraph
  carveOuts : reached.carveOuts = tidied.carveOuts
  escalate : reached.escalate = tidied.escalate
  confidenceDrivers : reached.confidenceDrivers = tidied.confidenceDrivers

/-- Without weather, whatever the model says and whether or not the demo gate is on: the run
suspends with an abstention that is otherwise the tidied model review, and the row of a resume
says so; there is no row only where the append fails. Where a returned DRN is no text, the run
fails before the guard. -/
theorem abstains_without_weather (env : Env) (world : World) (runId caseId : Text)
    (disk : AuditDisk) (caseRecord : CaseRecord) (report : AdjusterReport)
    (hfile : OnFile world.files caseId caseRecord report)
    (hweather : WeatherMissing world.files caseRecord) :
    (DrnsAreTexts env world caseId caseRecord report →
      ∃ flow payload, startRun env world runId caseId disk =
          (.suspended "gate" flow payload, disk) ∧
        payload.review = flow.review ∧
        payload.gateFacts.map (·.weatherStatus) = some .unavailable ∧
        (∀ reached, flow.review = some reached →
          reached.q1StormConditions.finding = .unknown ∧ reached.verdict = .cannotDetermine ∧
          reached.wouldChangeMind.length ≤ 3 ∧
          ∃ raw rev, RawReview env world caseId caseRecord report raw rev ∧
            SameElsewhere reached (tidyReview rev)) ∧
        ∀ env' world' data disk',
          (world'.faults.appends →
            ∃ row, (resumeRun env' world' runId data flow disk').2.log = disk'.log ++ [row] ∧
              row.weatherStatus = lit "unavailable" ∧ row.review = flow.review) ∧
          (¬ world'.faults.appends → (resumeRun env' world' runId data flow disk').2 = disk')) ∧
      (¬ DrnsAreTexts env world caseId caseRecord report →
        ∃ e, startRun env world runId caseId disk = (.failed e, disk)) := by
  refine ⟨fun htexts => ?_, fun hno => startRun_notTexts hfile hno runId disk⟩
  have hfacts : (factsFor world caseRecord report).weatherStatus = .unavailable :=
    factsFor_missing hweather
  have hneeds : needsHuman (demoAlwaysGate env) (gateFlow env world caseId caseRecord report) =
      true := by
    rw [← Bool.not_eq_false, needsHuman_gateFlow]
    rintro ⟨-, rev, hclean⟩
    exact (weatherMissing_iff _ _).mp hweather hclean.weather
  refine ⟨_, _, startRun_suspends ⟨hfile, htexts⟩ hneeds, rfl, ?_, fun reached hreached => ?_,
    fun env' world' data disk' => ⟨fun happends => ?_, fun hfails => ?_⟩⟩
  · exact congrArg some hfacts
  · obtain ⟨raw, rev, citedDrns, hraw, rfl⟩ := gateFlow_abstains hweather hreached
    refine ⟨abstain_q1_finding _, abstain_verdict _, wouldChangeMind_le rev, raw, rev, hraw, ?_⟩
    obtain ⟨confidence, wouldChangeMind, h⟩ := abstain_frame (tidyReview rev)
    rw [h]
    exact ⟨⟨rfl, rfl⟩, rfl, rfl, rfl, rfl, rfl, rfl⟩
  · refine ⟨_, resumeRun_log env' runId data _ disk' happends, ?_, rfl⟩
    have hstatus : (resumedRow env' world' runId data
        (gateFlow env world caseId caseRecord report)).weatherStatus =
        Enum.text (factsFor world caseRecord report).weatherStatus := rfl
    rw [hstatus, hfacts]
    rfl
  · rcases resumeRun_outcomes env' world' runId data
      (gateFlow env world caseId caseRecord report) disk' with ⟨-, e, he⟩ | ⟨happends, -⟩
    · rw [he]
    · exact absurd happends hfails

/-- The model agrees to the decline although there is no weather; the handler approves, and the
row says that nothing could be determined. -/
theorem abstains_without_weather_sample :
    let world := sampleWorld (sampleFiles .decline none none)
      (sampleCall [lit "DRN-1"] (sampleReview .agreeDecline [lit "DRN-1"] []))
    let approval : ResumeData :=
      { decision := .approve, reason := [], failureMode := none, domainNote := none }
    ∃ flow payload row, startRun (sampleEnv false) world (lit "r") (lit "A") emptyDisk =
        (.suspended "gate" flow payload, emptyDisk) ∧
      payload.gateFacts.map (·.weatherStatus) = some .unavailable ∧
      (resumeRun (sampleEnv false) world (lit "r") approval flow emptyDisk).2.log = [row] ∧
      row.weatherStatus = lit "unavailable" ∧
      row.review.map (·.verdict) = some .cannotDetermine := by
  intro world approval
  have hmissing : WeatherMissing world.files sampleCase := fun w hw => (by cases hw)
  have harrives := sample_arrives .decline none none false [lit "DRN-1"]
    (sampleReview .agreeDecline [lit "DRN-1"] []) (by decide)
  obtain ⟨flow, payload, hrun, -, hstatus, hreview, hrow⟩ :=
    (abstains_without_weather (sampleEnv false) world (lit "r") (lit "A") emptyDisk sampleCase
      (sampleLoaded .decline) harrives.onFile hmissing).1 harrives.texts
  obtain ⟨row, hlog, hunavailable, hsame⟩ :=
    (hrow (sampleEnv false) world approval emptyDisk).1 ⟨rfl, rfl⟩
  refine ⟨flow, payload, row, hrun, hstatus, hlog, hunavailable, ?_⟩
  have hflow : flow = gateFlow (sampleEnv false) world (lit "A") sampleCase (sampleLoaded .decline) := by
    obtain ⟨caseRecord, report, hcase, -, rfl, -⟩ := startRun_suspended hrun
    obtain ⟨rfl, rfl⟩ := harrives.onFile.unique hcase.onFile
    rfl
  have hsome : ∃ reached, flow.review = some reached := by
    rw [hflow, gateFlow_review, checkedReview, sample_parsed _ _ _ _ (by decide)]
    exact ⟨_, rfl⟩
  obtain ⟨reached, hreached⟩ := hsome
  rw [hsame, hreached, Option.map_some, (hreview reached hreached).2.1]

/-- Without weather, and with a number for a DRN: the run does not suspend. -/
theorem numbered_drn_stops_abstention :
    let world := sampleWorld (sampleFiles .decline none none)
      (numberedCall (sampleReview .agreeDecline [] []).toJs)
    OnFile world.files (lit "A") sampleCase (sampleLoaded .decline) ∧
      WeatherMissing world.files sampleCase ∧
      ¬ ∃ flow payload left, startRun (sampleEnv true) world (lit "r") (lit "A") emptyDisk =
        (.suspended "gate" flow payload, left) := by
  refine ⟨sample_onFile .., fun w hw => (by cases hw), ?_⟩
  rintro ⟨flow, payload, left, hrun⟩
  obtain ⟨e, he⟩ := startRun_notTexts (sample_onFile ..)
    (numberedCall_notTexts true (sampleFiles .decline none none)
      (sampleReview .agreeDecline [] []).toJs (lit "A") sampleCase (sampleLoaded .decline))
    (lit "r") emptyDisk
  exact absurd (he.symm.trans hrun) (by simp)

/-! How confident an abstention is, and whether it names the gap. -/

/-- The model already abstained: the backstop has nothing to correct. -/
def AlreadyAbstains (rev : Review) : Prop :=
  rev.q1StormConditions.finding = .unknown ∧ rev.verdict = .cannotDetermine

/-- An abstention the backstop makes has low confidence and asks for the weather report first. -/
theorem abstain_corrects {r : Review} (h : ¬ AlreadyAbstains r) :
    (abstain r).confidence = .low ∧ weatherRequest ∈ (abstain r).wouldChangeMind := by
  have hfires : r.q1StormConditions.finding ≠ .unknown ∨ r.verdict ≠ .cannotDetermine := by
    by_cases hf : r.q1StormConditions.finding = .unknown
    · exact .inr fun hv => h ⟨hf, hv⟩
    · exact .inl hf
  simp [abstain, hfires, distinct_cons, wouldChangeMindMax]

theorem abstain_keeps {r : Review} (h : AlreadyAbstains r) : abstain r = r := by
  simp [abstain, h.1, h.2]

/-- Without weather, a review at the gate has low confidence and asks for the report. -/
def AbstentionNamesGap (env : Env) (world : World) (runId caseId : Text) (disk : AuditDisk) : Prop :=
  ∀ flow reached, ReachesGate env world runId caseId disk flow →
    weatherUnavailable flow.gateFacts = true → flow.review = some reached →
    reached.confidence = .low ∧ weatherRequest ∈ reached.wouldChangeMind

/-- The backstop speaks for reviews it has to correct; one that already abstains keeps its own
confidence and its own list. -/
theorem abstention_confidence (env : Env) (world : World) (runId caseId : Text) (disk : AuditDisk)
    (flow : Flow) (reached : Review) (hreach : ReachesGate env world runId caseId disk flow)
    (hweather : weatherUnavailable flow.gateFacts = true) (hreview : flow.review = some reached) :
    ∃ caseRecord report raw rev, OnFile world.files caseId caseRecord report ∧
      RawReview env world caseId caseRecord report raw rev ∧
      (¬ AlreadyAbstains rev →
        reached.confidence = .low ∧ weatherRequest ∈ reached.wouldChangeMind) ∧
      (AlreadyAbstains rev → reached.confidence = rev.confidence ∧
        reached.wouldChangeMind = (tidyReview rev).wouldChangeMind) := by
  obtain ⟨caseRecord, report, harrives, rfl⟩ := reachesGate_iff.mp hreach
  have hfacts : (factsFor world caseRecord report).weatherStatus = .unavailable := by
    simpa [weatherUnavailable, gateFlow, reviewedFlow, prefetchedFlow] using hweather
  have hmissing : WeatherMissing world.files caseRecord :=
    (weatherMissing_iff _ _).mpr fun h => factsFor_weather.mpr h hfacts
  obtain ⟨raw, rev, citedDrns, hraw, rfl⟩ := gateFlow_abstains hmissing hreview
  refine ⟨caseRecord, report, raw, rev, harrives.onFile, hraw, fun hnot => abstain_corrects hnot,
    fun halready => ?_⟩
  rw [abstain_keeps (r := tidyReview rev) halready]
  exact ⟨rfl, rfl⟩

/-- A model that abstains by itself with high confidence and no list of what is missing. -/
def confidentAbstention : Review :=
  { sampleReview .cannotDetermine [] [] with
    q1StormConditions := { finding := .unknown, evidence := [], gaps := [] } }

theorem confident_abstention_stands :
    ¬ AbstentionNamesGap (sampleEnv true)
      (sampleWorld (sampleFiles .decline none none) (sampleCall [] confidentAbstention))
      (lit "r") (lit "A") emptyDisk := by
  intro h
  have hreview : ∃ reached, (gateFlow (sampleEnv true)
      (sampleWorld (sampleFiles .decline none none) (sampleCall [] confidentAbstention))
      (lit "A") sampleCase (sampleLoaded .decline)).review = some reached ∧
        reached.confidence = .high := by
    rw [gateFlow_review, checkedReview, sample_parsed _ _ _ _ (by simp)]
    exact ⟨_, rfl, rfl⟩
  obtain ⟨reached, hreached, hhigh⟩ := hreview
  have harrives := sample_arrives .decline none none true [] confidentAbstention (by simp)
  have hlow := (h _ reached (reachesGate_iff.mpr ⟨_, _, harrives, rfl⟩) rfl hreached).1
  rw [hhigh] at hlow
  cases hlow

theorem abstention_confidence_sample :
    ∃ reached, (gateFlow (sampleEnv true) (sampleWorld (sampleFiles .decline none none)
        (sampleCall [] confidentAbstention)) (lit "A") sampleCase
        (sampleLoaded .decline)).review = some reached ∧
      reached.confidence = .high ∧ reached.wouldChangeMind = [] := by
  have hreview : ∃ reached, (gateFlow (sampleEnv true)
      (sampleWorld (sampleFiles .decline none none) (sampleCall [] confidentAbstention))
      (lit "A") sampleCase (sampleLoaded .decline)).review = some reached := by
    rw [gateFlow_review, checkedReview, sample_parsed _ _ _ _ (by simp)]
    exact ⟨_, rfl⟩
  obtain ⟨reached, hreached⟩ := hreview
  have harrives := sample_arrives .decline none none true [] confidentAbstention (by simp)
  obtain ⟨_, _, raw, rev, -, hraw, -, hkeeps⟩ := abstention_confidence _ _ (lit "r") _ emptyDisk _
    reached (reachesGate_iff.mpr ⟨_, _, harrives, rfl⟩) rfl hreached
  have hparsed := parsedFor_eq_some.mpr ⟨raw, hraw⟩
  rw [sample_parsed _ _ _ _ (by simp)] at hparsed
  obtain rfl : confidentAbstention = rev := Option.some.inj hparsed
  obtain ⟨hconfidence, hlist⟩ := hkeeps ⟨rfl, rfl⟩
  exact ⟨reached, hreached, hconfidence, hlist⟩

end StormReview
