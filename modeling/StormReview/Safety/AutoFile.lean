import StormReview.Workflow.Pipeline

/-! When a run is filed without a human. -/
namespace StormReview
open Js Zod Engine

section conditions
variable (env : Env) (world : World) (caseId : Text) (caseRecord : CaseRecord)
  (report : AdjusterReport)

/-- The context block of a case that is on file. -/
def contextFor : Text := contextOf (prefetchRecords world.files caseRecord report)

/-- The raw review of the run is `raw`, and the schema reads `rev` from it. -/
structure RawReview (raw : Value) (rev : Review) : Prop where
  handed : rawReview env world caseId (some (contextFor world caseRecord report)) = some raw
  accepted : reviewSchema raw = .ok rev

/-- A weather report is on file and does not say it is unavailable. -/
def WeatherOnFile (files : Files) (caseRecord : CaseRecord) : Prop :=
  ∃ w, loadWeather files caseRecord.postcodeDistrict caseRecord.dateOfLoss = some w ∧
    w.status ≠ .unavailable

def KnownVulnerable (files : Files) (caseRecord : CaseRecord) : Prop :=
  ∃ c, loadCustomer files caseRecord.customerId = some c ∧ c.vulnerabilityFlag = some true

/-- A clean, confident agreement on complete facts, from the raw inputs of the run. -/
structure CleanAgreement (rev : Review) : Prop where
  raw : ∃ raw, RawReview env world caseId caseRecord report raw rev
  weather : WeatherOnFile world.files caseRecord
  cited : ∀ drn ∈ rev.citedDrns, normDashes drn ∈ returnedFor env world caseId caseRecord report
  verdict : rev.verdict = .agreeDecline ∨ rev.verdict = .agreeCash
  confidence : rev.confidence = .high
  cash : ¬ (report.recommendation = .cashSettle ∧ KnownVulnerable world.files caseRecord)

variable {env world caseId caseRecord report}

theorem parsedFor_eq_some {rev : Review} : parsedFor env world caseId caseRecord report = some rev ↔
    ∃ raw, RawReview env world caseId caseRecord report raw rev := by
  rw [parsedFor, parsedReview_eq_some]
  exact exists_congr fun raw => ⟨fun h => ⟨h.1, h.2⟩, fun h => ⟨h.handed, h.accepted⟩⟩

theorem factsFor_weather :
    (factsFor world caseRecord report).weatherStatus ≠ .unavailable ↔
      WeatherOnFile world.files caseRecord := by
  cases h : loadWeather world.files caseRecord.postcodeDistrict caseRecord.dateOfLoss with
  | none => simp [factsFor, gateFactsOf, prefetchRecords, weatherResult, WeatherResult.status,
      WeatherOnFile, h]
  | some w =>
    by_cases hs : w.status = .unavailable <;>
      simp [factsFor, gateFactsOf, prefetchRecords, weatherResult, WeatherResult.status,
        WeatherOnFile, h, hs]

theorem factsFor_vulnerable :
    (factsFor world caseRecord report).vulnerabilityFlag = true ↔
      KnownVulnerable world.files caseRecord := by
  cases h : loadCustomer world.files caseRecord.customerId with
  | none => simp [factsFor, gateFactsOf, prefetchRecords, KnownVulnerable, h]
  | some c => cases hf : c.vulnerabilityFlag <;>
      simp [factsFor, gateFactsOf, prefetchRecords, KnownVulnerable, h, hf]

theorem cashPlusVulnerable_factsFor :
    cashPlusVulnerable (some (factsFor world caseRecord report)) = true ↔
      report.recommendation = .cashSettle ∧ KnownVulnerable world.files caseRecord := by
  have hv : (factsFor world caseRecord report).vulnerabilityFlag = true ↔
      KnownVulnerable world.files caseRecord := factsFor_vulnerable
  rw [← hv]
  simp [cashPlusVulnerable, factsFor, gateFactsOf, prefetchRecords]

/-- The backstop leaves an agreement only where there is weather to agree about, and then it
leaves the confidence too. -/
theorem backstop_agrees (world : World) (caseRecord : CaseRecord) (report : AdjusterReport)
    (rev : Review) :
    autoFileable (backstop (factsFor world caseRecord report) rev).verdict = true ∧
        (backstop (factsFor world caseRecord report) rev).confidence = .high ↔
      WeatherOnFile world.files caseRecord ∧
        (rev.verdict = .agreeDecline ∨ rev.verdict = .agreeCash) ∧ rev.confidence = .high := by
  have hweather : (factsFor world caseRecord report).weatherStatus ≠ .unavailable ↔
      WeatherOnFile world.files caseRecord := factsFor_weather
  rw [← hweather]
  by_cases hw : (factsFor world caseRecord report).weatherStatus = .unavailable
  · simp [backstop, hw, autoFileable]
  · simp [backstop, hw, autoFileable]

theorem backstop_citedDrns (facts : GateFacts) (rev : Review) :
    (backstop facts rev).citedDrns = rev.citedDrns := by
  unfold backstop
  split <;> simp

/-- With a review, the guard blocks exactly the citation of a DRN that was not returned. -/
theorem gateBlocked_gateFlow {rev : Review}
    (h : parsedFor env world caseId caseRecord report = some rev) :
    gateBlocked (gateFlow env world caseId caseRecord report).guard = true ↔
      ∃ drn ∈ rev.citedDrns, normDashes drn ∉ returnedFor env world caseId caseRecord report := by
  simp [gateFlow, checkedReview, h, gateBlocked, guardReview_blocked_iff, backstop_citedDrns,
    returnedFor]

/-- The gate's disjunction, read back to the raw inputs: none of the rewrites on the way makes
an adverse review fileable, and none blocks a clean one. -/
theorem needsHuman_gateFlow (always : Bool) :
    needsHuman always (gateFlow env world caseId caseRecord report) = false ↔
      always = false ∧ ∃ rev, CleanAgreement env world caseId caseRecord report rev := by
  cases hp : parsedFor env world caseId caseRecord report with
  | none =>
    have hnone : (gateFlow env world caseId caseRecord report).review = none := by
      simp [gateFlow, checkedReview, hp]
    have hno : ¬ ∃ rev, CleanAgreement env world caseId caseRecord report rev := by
      rintro ⟨rev, h⟩
      simp [parsedFor_eq_some.mpr h.raw] at hp
    simp [needsHuman, hnone, hno]
  | some rev =>
    have hraw := parsedFor_eq_some.mp hp
    have hclean : (∃ r, CleanAgreement env world caseId caseRecord report r) ↔
        CleanAgreement env world caseId caseRecord report rev := by
      constructor
      · rintro ⟨r, h⟩
        obtain rfl : rev = r := by simpa [hp] using parsedFor_eq_some.mpr h.raw
        exact h
      · exact fun h => ⟨rev, h⟩
    have hblocked : gateBlocked (gateFlow env world caseId caseRecord report).guard = false ↔
        ∀ drn ∈ rev.citedDrns, normDashes drn ∈ returnedFor env world caseId caseRecord report := by
      rw [← Bool.not_eq_true, gateBlocked_gateFlow hp]
      push Not
      rfl
    have hagrees := backstop_agrees world caseRecord report (tidyReview rev)
    have hcash : cashPlusVulnerable (gateFlow env world caseId caseRecord report).gateFacts = true ↔
        report.recommendation = .cashSettle ∧ KnownVulnerable world.files caseRecord :=
      cashPlusVulnerable_factsFor
    have hchecked := checkedReview_parsed hp
    rw [hclean, needsHuman, gateFlow_review, hchecked]
    simp only [Option.map_some, Option.isNone_some, Option.any_some, Bool.or_eq_false_iff,
      Bool.not_eq_false', hblocked, decide_eq_true_eq]
    rw [← Bool.not_eq_true, hcash]
    constructor
    · rintro ⟨⟨⟨⟨⟨hb, -⟩, hv⟩, hc⟩, hcv⟩, ha⟩
      obtain ⟨hw, hverdict, hconf⟩ := hagrees.mp ⟨hv, hc⟩
      exact ⟨ha, hraw, hw, hb, hverdict, hconf, hcv⟩
    · rintro ⟨ha, h⟩
      obtain ⟨hv, hc⟩ := hagrees.mpr ⟨h.weather, h.verdict, h.confidence⟩
      exact ⟨⟨⟨⟨⟨h.cited, trivial⟩, hv⟩, hc⟩, h.cash⟩, ha⟩

end conditions

/-- The sample case is a clean agreement unless it is cash for a vulnerable customer. -/
theorem sample_clean (recommendation : Recommendation) (customer : Option Customer)
    (verdict : Verdict) (hverdict : autoFileable verdict = true) (drns : List Text)
    (hne : ∀ d ∈ drns, d ≠ []) (hdash : ∀ d ∈ drns, d.any isLongDash = false)
    (hcash : recommendation = .decline ∨ customer.all fun c => c.vulnerabilityFlag ≠ some true) :
    CleanAgreement (sampleEnv false)
      (sampleWorld (sampleFiles recommendation (some sampleWeather) customer)
        (sampleCall drns (sampleReview verdict drns [])))
      (lit "A") sampleCase (sampleLoaded recommendation) (sampleReview verdict drns []) where
  raw := parsedFor_eq_some.mp (sample_parsed _ _ _ _ hne)
  weather := ⟨sampleWeather, rfl, by decide⟩
  cited := by
    intro drn hdrn
    rw [sample_returned _ _ _ _ _ _ _ hne, normDashes_of_no_dash (no_dash (hdash drn hdrn))]
    exact mem_distinct.mpr hdrn
  verdict := by simpa [autoFileable, sampleReview] using hverdict
  confidence := rfl
  cash := by
    rintro ⟨hrec, c, hc, hflag⟩
    obtain rfl : customer = some c := hc
    rcases hcash with h | h
    · rw [show recommendation = .cashSettle from hrec] at h
      cases h
    · simp [hflag] at h

/-- The run passes the gate without a human exactly for a clean agreement on a case that is on
file, and then its row says so; every other run on file suspends, and nothing is written. Where a
returned DRN is no text the run does neither: it fails before the guard, and nothing is written. -/
theorem auto_file_iff (env : Env) (world : World) (runId caseId : Text) (disk : AuditDisk)
    (hdemo : demoAlwaysGate env = false) :
    ((∃ flow, runToGate env world runId caseId disk = (.success flow, disk) ∧
          flow.humanDecision = some autoFiledDecision) ↔
        ∃ caseRecord report rev, OnFile world.files caseId caseRecord report ∧
          DrnsAreTexts env world caseId caseRecord report ∧
          CleanAgreement env world caseId caseRecord report rev) ∧
      (∀ caseRecord report rev, OnFile world.files caseId caseRecord report →
        DrnsAreTexts env world caseId caseRecord report →
        CleanAgreement env world caseId caseRecord report rev → world.faults.appends →
        ∃ row, (startRun env world runId caseId disk).2.log = disk.log ++ [row] ∧
          row.runId = runId ∧ row.decision = .autoFiled) ∧
      (∀ caseRecord report, OnFile world.files caseId caseRecord report →
        DrnsAreTexts env world caseId caseRecord report →
        (¬ ∃ rev, CleanAgreement env world caseId caseRecord report rev) →
        ∃ input payload, startRun env world runId caseId disk =
          (.suspended "gate" input payload, disk)) ∧
      ∀ caseRecord report, OnFile world.files caseId caseRecord report →
        ¬ DrnsAreTexts env world caseId caseRecord report →
        ∃ e, startRun env world runId caseId disk = (.failed e, disk) := by
  have hneeds (caseRecord : CaseRecord) (report : AdjusterReport) :
      needsHuman (demoAlwaysGate env) (gateFlow env world caseId caseRecord report) = false ↔
        ∃ rev, CleanAgreement env world caseId caseRecord report rev := by
    rw [needsHuman_gateFlow, hdemo]
    simp
  refine ⟨⟨?_, ?_⟩, ?_, ?_, ?_⟩
  · rintro ⟨flow, hrun, -⟩
    by_cases harrives : ∃ caseRecord report, Arrives env world caseId caseRecord report
    · obtain ⟨caseRecord, report, h⟩ := harrives
      cases hn : needsHuman (demoAlwaysGate env) (gateFlow env world caseId caseRecord report) with
      | true =>
        rw [runToGate_suspends h hn] at hrun
        simp at hrun
      | false =>
        obtain ⟨rev, hrev⟩ := (hneeds caseRecord report).mp hn
        exact ⟨caseRecord, report, rev, h.onFile, h.texts, hrev⟩
    · obtain ⟨e, he⟩ : ∃ e, runToGate env world runId caseId disk = (.failed e, disk) :=
        runToGate_not_arrives harrives
      rw [he] at hrun
      simp at hrun
  · rintro ⟨caseRecord, report, rev, hfile, htexts, hrev⟩
    exact ⟨_, runToGate_files ⟨hfile, htexts⟩ ((hneeds caseRecord report).mpr ⟨rev, hrev⟩), rfl⟩
  · intro caseRecord report rev hfile htexts hrev happends
    rw [startRun_files ⟨hfile, htexts⟩ ((hneeds caseRecord report).mpr ⟨rev, hrev⟩)]
    exact ⟨_, drive_record_log _ _ _ _ _ happends, rfl, rfl⟩
  · intro caseRecord report hfile htexts hno
    have hn : needsHuman (demoAlwaysGate env) (gateFlow env world caseId caseRecord report) = true := by
      rw [← Bool.not_eq_false, hneeds]
      exact hno
    exact ⟨_, _, startRun_suspends ⟨hfile, htexts⟩ hn⟩
  · exact fun caseRecord report hfile htexts => startRun_notTexts hfile htexts runId disk

theorem auto_file_iff_sample :
    let env := sampleEnv false
    let world := sampleWorld (sampleFiles .decline (some sampleWeather) (some (sampleCustomer true)))
      (sampleCall [lit "DRN-1"] (sampleReview .agreeDecline [lit "DRN-1"] []))
    ∃ flow, runToGate env world (lit "r") (lit "A") emptyDisk = (.success flow, emptyDisk) ∧
      flow.humanDecision = some autoFiledDecision :=
  have harrives := sample_arrives .decline (some sampleWeather) (some (sampleCustomer true)) false
    [lit "DRN-1"] (sampleReview .agreeDecline [lit "DRN-1"] []) (by decide)
  (auto_file_iff _ _ _ _ _ (by decide)).1.mpr
    ⟨_, _, _, harrives.onFile, harrives.texts, sample_clean .decline _ .agreeDecline (by decide) _
      (by decide) (by decide) (.inl rfl)⟩

/-- An agent call in which the precedent tool answered with a number where a DRN should stand. -/
def numberedCall (object : Value) : Value :=
  .obj [(lit "toolResults", .arr [.obj [(lit "toolName", .str (lit "findFosPrecedents")),
      (lit "result", .obj [(lit "precedents", .arr [.obj [(lit "drn", .num (lit "5"))]])])]]),
    (lit "object", object)]

theorem numberedCall_drns (demo : Bool) (files : Files) (object : Value) (caseId : Text)
    (caseRecord : CaseRecord) (report : AdjusterReport) :
    (producedFor (sampleEnv demo) (sampleWorld files (numberedCall object)) caseId caseRecord
      report).returnedDrns = [.num (lit "5")] := by
  rw [producedFor, produce_live rfl rfl rfl rfl, structured_returnedDrns]
  rfl

theorem numberedCall_notTexts (demo : Bool) (files : Files) (object : Value) (caseId : Text)
    (caseRecord : CaseRecord) (report : AdjusterReport) :
    ¬ DrnsAreTexts (sampleEnv demo) (sampleWorld files (numberedCall object)) caseId caseRecord
      report := by
  intro h
  obtain ⟨drn, hdrn⟩ := h (.num (lit "5")) (by
    rw [numberedCall_drns]
    exact List.mem_cons_self)
  cases hdrn

/-- A clean agreement that cites nothing, with such a call: the run neither files nor suspends. -/
theorem numbered_drn_fails_run :
    let env := sampleEnv false
    let world := sampleWorld (sampleFiles .decline (some sampleWeather) none)
      (numberedCall (sampleReview .agreeDecline [] []).toJs)
    OnFile world.files (lit "A") sampleCase (sampleLoaded .decline) ∧
      CleanAgreement env world (lit "A") sampleCase (sampleLoaded .decline)
        (sampleReview .agreeDecline [] []) ∧
      ∃ e, runToGate env world (lit "r") (lit "A") emptyDisk = (.failed e, emptyDisk) := by
  refine ⟨sample_onFile .., ?_, ?_⟩
  · exact
      { raw := ⟨_, rawReview_live rfl rfl rfl rfl, reviewSchema_toJs _⟩
        weather := ⟨sampleWeather, rfl, by decide⟩
        cited := fun drn hdrn => (by cases hdrn)
        verdict := .inl rfl
        confidence := rfl
        cash := fun hcash => (by cases hcash.1) }
  · exact runToGate_not_arrives fun ⟨_, _, h⟩ => numberedCall_notTexts _ _ _ _ _ _ h.texts

/-! Cash settlements and vulnerability. -/

section cash
variable {env : Env} {world : World} {runId caseId : Text} {caseRecord : CaseRecord}
  {report : AdjusterReport} {rev : Review} {disk : AuditDisk} {flow : Flow}

/-- What a run that files itself looks like, from its inputs. -/
theorem filed_run (hfile : OnFile world.files caseId caseRecord report)
    (hrun : runToGate env world runId caseId disk = (.success flow, disk)) :
    demoAlwaysGate env = false ∧ DrnsAreTexts env world caseId caseRecord report ∧
      ∃ rev, CleanAgreement env world caseId caseRecord report rev ∧
        flow = { gateFlow env world caseId caseRecord report with
          needsHuman := some false, humanDecision := some autoFiledDecision } := by
  have htexts : DrnsAreTexts env world caseId caseRecord report := by
    by_contra hno
    obtain ⟨e, he⟩ := runToGate_notTexts hfile hno runId disk
    simp [he] at hrun
  cases hn : needsHuman (demoAlwaysGate env) (gateFlow env world caseId caseRecord report) with
  | true =>
    rw [runToGate_suspends ⟨hfile, htexts⟩ hn] at hrun
    simp at hrun
  | false =>
    obtain ⟨hdemo, rev, hrev⟩ := (needsHuman_gateFlow _).mp hn
    rw [runToGate_files ⟨hfile, htexts⟩ hn] at hrun
    exact ⟨hdemo, htexts, rev, hrev, by simpa using hrun.symm⟩

/-- A clean agreement reaches the gate with the verdict the model gave. -/
theorem CleanAgreement.gate_verdict (h : CleanAgreement env world caseId caseRecord report rev) :
    (gateFlow env world caseId caseRecord report).review.map (·.verdict) = some rev.verdict := by
  have hw : (factsFor world caseRecord report).weatherStatus ≠ .unavailable :=
    factsFor_weather.mpr h.weather
  have hp := parsedFor_eq_some.mpr h.raw
  simp [gateFlow_review, checkedReview, hp, backstop, hw]

/-- If the run files a cash settlement by itself, the customer is on file and not vulnerable. -/
def CashFailsSafe (env : Env) (world : World) (runId caseId : Text) (disk : AuditDisk) : Prop :=
  ∀ caseRecord report flow, OnFile world.files caseId caseRecord report →
    runToGate env world runId caseId disk = (.success flow, disk) →
    flow.humanDecision = some autoFiledDecision →
    report.recommendation = .cashSettle ∨ flow.review.map (·.verdict) = some .agreeCash →
    ∃ c, loadCustomer world.files caseRecord.customerId = some c ∧ c.vulnerabilityFlag = some false

/-- No customer record is on file, or one without the flag. -/
def VulnerabilityUnknown (files : Files) (caseRecord : CaseRecord) : Prop :=
  (loadCustomer files caseRecord.customerId).bind (·.vulnerabilityFlag) = none

/-- Cash for a customer of whom it is not known, or an agreement to cash for one flagged
vulnerable. -/
def UnsafeCash (files : Files) (caseRecord : CaseRecord) (report : AdjusterReport) (rev : Review) :
    Prop :=
  (VulnerabilityUnknown files caseRecord ∧
    (report.recommendation = .cashSettle ∨ rev.verdict = .agreeCash)) ∨
  (KnownVulnerable files caseRecord ∧ rev.verdict = .agreeCash)

theorem known_or_absent (files : Files) (caseRecord : CaseRecord) :
    (∃ c, loadCustomer files caseRecord.customerId = some c ∧ c.vulnerabilityFlag = some false) ↔
      ¬ VulnerabilityUnknown files caseRecord ∧ ¬ KnownVulnerable files caseRecord := by
  cases h : loadCustomer files caseRecord.customerId with
  | none => simp [VulnerabilityUnknown, KnownVulnerable, h]
  | some c =>
    cases hf : c.vulnerabilityFlag with
    | none => simp [VulnerabilityUnknown, KnownVulnerable, h, hf]
    | some flag => cases flag <;> simp [VulnerabilityUnknown, KnownVulnerable, h, hf]

end cash

/-- A cash settlement fails safe exactly when no clean agreement rests on a customer record that
is missing or has no flag, or agrees to cash for a vulnerable customer whose report recommends
something else. -/
theorem cash_fails_safe_iff (env : Env) (world : World) (runId caseId : Text) (disk : AuditDisk)
    (hdemo : demoAlwaysGate env = false) :
    CashFailsSafe env world runId caseId disk ↔
      ¬ ∃ caseRecord report rev, OnFile world.files caseId caseRecord report ∧
        DrnsAreTexts env world caseId caseRecord report ∧
        CleanAgreement env world caseId caseRecord report rev ∧
        UnsafeCash world.files caseRecord report rev := by
  constructor
  · rintro hsafe ⟨caseRecord, report, rev, hfile, htexts, hclean, hunsafe⟩
    have hn : needsHuman (demoAlwaysGate env) (gateFlow env world caseId caseRecord report) = false :=
      (needsHuman_gateFlow _).mpr ⟨hdemo, rev, hclean⟩
    have hcash : report.recommendation = .cashSettle ∨ rev.verdict = .agreeCash :=
      hunsafe.elim (·.2) fun h => .inr h.2
    obtain ⟨hsome, hnot⟩ := (known_or_absent world.files caseRecord).mp
      (hsafe caseRecord report _ hfile (runToGate_files ⟨hfile, htexts⟩ hn) rfl
        (hcash.imp_right fun hv => by rw [hclean.gate_verdict, hv]))
    exact hunsafe.elim (fun h => hsome h.1) fun h => hnot h.1
  · intro hno caseRecord report flow hfile hrun _ hcash
    obtain ⟨-, htexts, rev, hclean, rfl⟩ := filed_run hfile hrun
    have hcash' : report.recommendation = .cashSettle ∨ rev.verdict = .agreeCash :=
      hcash.imp_right fun hv => by simpa [hclean.gate_verdict] using hv
    refine (known_or_absent world.files caseRecord).mpr ⟨fun habsent => ?_, fun hknown => ?_⟩
    · exact hno ⟨caseRecord, report, rev, hfile, htexts, hclean, .inl ⟨habsent, hcash'⟩⟩
    · rcases hcash' with hrec | hverdict
      · exact hclean.cash ⟨hrec, hknown⟩
      · exact hno ⟨caseRecord, report, rev, hfile, htexts, hclean, .inr ⟨hknown, hverdict⟩⟩

/-- No customer record, a cash settlement recommended and agreed: the run files itself. -/
theorem cash_for_unknown_customer_files :
    ¬ CashFailsSafe (sampleEnv false)
      (sampleWorld (sampleFiles .cashSettle (some sampleWeather) none)
        (sampleCall [] (sampleReview .agreeCash [] []))) (lit "r") (lit "A") emptyDisk := by
  intro hsafe
  have hclean := sample_clean .cashSettle none .agreeCash (by decide) [] (by simp)
    (by simp) (.inr rfl)
  have hn := (needsHuman_gateFlow (demoAlwaysGate (sampleEnv false))).mpr ⟨by decide, _, hclean⟩
  have harrives := sample_arrives .cashSettle (some sampleWeather) none false []
    (sampleReview .agreeCash [] []) (by simp)
  obtain ⟨c, hc, -⟩ := hsafe _ _ _ harrives.onFile (runToGate_files harrives hn) rfl (.inl rfl)
  cases hc

theorem cash_fails_safe_sample :
    CashFailsSafe (sampleEnv false)
      (sampleWorld (sampleFiles .cashSettle (some sampleWeather) (some (sampleCustomer false)))
        (sampleCall [] (sampleReview .agreeCash [] []))) (lit "r") (lit "A") emptyDisk := by
  refine (cash_fails_safe_iff _ _ _ _ _ (by decide)).mpr ?_
  rintro ⟨caseRecord, report, rev, -, -, -, ⟨habsent, -⟩ | ⟨⟨c, hc, hflag⟩, -⟩⟩
  · cases habsent
  · cases hc
    cases hflag

end StormReview
