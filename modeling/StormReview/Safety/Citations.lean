import StormReview.Evals.Run
import StormReview.Safety.AutoFile

/-! Citations, from the raw tool results to the gate, the audit row and the eval. -/
namespace StormReview
open Js Zod Engine

/-! The shapes of a tool result. -/

/-- `name` stands in the result itself, or else under its payload. -/
inductive Named (tr : Value) (name : Text) : Prop
  | flat (h : tr.get (lit "toolName") = .str name)
  | payload (hflat : (tr.get (lit "toolName")).isNullish = true)
    (h : (tr.get (lit "payload")).get (lit "toolName") = .str name)

/-- What the tool gave is in `result`, or else in `output`, or else in the payload's `result`. -/
inductive Gave (tr : Value) : Value → Prop
  | result (h : (tr.get (lit "result")).isNullish = false) : Gave tr (tr.get (lit "result"))
  | output (hresult : (tr.get (lit "result")).isNullish = true)
    (h : (tr.get (lit "output")).isNullish = false) : Gave tr (tr.get (lit "output"))
  | payload (hresult : (tr.get (lit "result")).isNullish = true)
    (houtput : (tr.get (lit "output")).isNullish = true) :
    Gave tr ((tr.get (lit "payload")).get (lit "result"))

/-- A result of the precedent tool, in any of these shapes, has its precedents in a list or leaves
them out; results of other tools are as they may be. -/
def Readable (tr : Value) : Prop :=
  ∀ given, Named tr (lit "findFosPrecedents") → Gave tr given →
    (given.get (lit "precedents")).isNullish = true ∨
      ∃ precedents, given.get (lit "precedents") = .arr precedents

/-- `v` is the drn, and no empty one, of a precedent in one of the results of the precedent tool. -/
def ReturnedBy (results : List Value) (v : Value) : Prop :=
  v.truthy = true ∧ ∃ tr ∈ results, Named tr (lit "findFosPrecedents") ∧
    ∃ given precedents, Gave tr given ∧ given.get (lit "precedents") = .arr precedents ∧
      ∃ p ∈ precedents, p.get (lit "drn") = v

section shapes
variable {tr : Value}

theorem named_precedents_iff :
    Named tr (lit "findFosPrecedents") ↔ isPrecedentCall tr = true := by
  have htext (v : Value) (s : Text) : v.isText s = true ↔ v = .str s := by
    cases v <;> simp [Value.isText]
  rw [isPrecedentCall, htext, toolName, Value.orElse]
  by_cases hflat : (tr.get (lit "toolName")).isNullish = true
  · rw [if_pos hflat]
    constructor
    · rintro (h | ⟨-, h⟩)
      · rw [h] at hflat
        cases hflat
      · exact h
    · exact .payload hflat
  · rw [if_neg hflat]
    constructor
    · rintro (h | ⟨h, -⟩)
      · exact h
      · exact absurd h hflat
    · exact .flat

theorem gave_iff {given : Value} : Gave tr given ↔ given = toolResult tr := by
  simp only [toolResult, Value.orElse]
  constructor
  · rintro (h | ⟨hresult, h⟩ | ⟨hresult, houtput⟩)
    · simp [h]
    · simp [hresult, h]
    · simp [hresult, houtput]
  · rintro rfl
    by_cases hresult : (tr.get (lit "result")).isNullish = true
    · by_cases houtput : (tr.get (lit "output")).isNullish = true
      · simpa [hresult, houtput] using Gave.payload hresult houtput
      · simpa [hresult, houtput] using Gave.output hresult (by simpa using houtput)
    · simpa [hresult] using Gave.result (by simpa using hresult)

/-- The precedents of a result, where they are a list or left out. -/
def precedentsOf (tr : Value) : List Value :=
  match ((toolResult tr).get (lit "precedents")).orElse (.arr []) with
  | .arr ps => ps
  | _ => []

theorem mem_precedentsOf {p : Value} : p ∈ precedentsOf tr ↔
    ∃ ps, (toolResult tr).get (lit "precedents") = .arr ps ∧ p ∈ ps := by
  unfold precedentsOf
  cases (toolResult tr).get (lit "precedents") <;> simp [Value.orElse, Value.isNullish]

theorem Readable.precedents (h : Readable tr) (hcall : isPrecedentCall tr = true) :
    ((toolResult tr).get (lit "precedents")).orElse (.arr []) = .arr (precedentsOf tr) := by
  rcases h _ (named_precedents_iff.mpr hcall) (gave_iff.mpr rfl) with hnone | ⟨ps, hps⟩
  · simp [precedentsOf, Value.orElse, hnone]
  · simp [precedentsOf, Value.orElse, hps]

end shapes

/-! What the collector returns. -/

def drnsOf (tr : Value) : List Value :=
  if isPrecedentCall tr then (precedentsOf tr).filterMap drnOf else []

theorem precedentDrns_of_readable (message : Text) {tr : Value} (h : Readable tr) :
    precedentDrns message tr = .ok (drnsOf tr) := by
  by_cases hc : isPrecedentCall tr = true
  · rw [precedentDrns, drnsOf, if_pos hc, if_pos hc, h.precedents hc, Value.iterate_arr]
    rfl
  · rw [precedentDrns, drnsOf, if_neg hc, if_neg hc]
    rfl

theorem drnOf_eq_some {p v : Value} :
    drnOf p = some v ↔ v.truthy = true ∧ p.get (lit "drn") = v := by
  unfold drnOf
  split
  · rename_i h
    rw [Option.some.injEq]
    exact ⟨fun hv => ⟨hv ▸ h, hv⟩, And.right⟩
  · rename_i h
    refine ⟨fun hv => (by cases hv), ?_⟩
    rintro ⟨hv, rfl⟩
    exact absurd hv h

theorem mem_drnsOf {tr v : Value} : v ∈ drnsOf tr ↔
    isPrecedentCall tr = true ∧ ∃ p ∈ precedentsOf tr, v.truthy = true ∧ p.get (lit "drn") = v := by
  by_cases hc : isPrecedentCall tr = true
  · simp [drnsOf, hc, List.mem_filterMap, drnOf_eq_some]
  · simp [drnsOf, hc]

theorem returnedBy_iff {results : List Value} {v : Value} :
    ReturnedBy results v ↔ ∃ tr ∈ results, v ∈ drnsOf tr := by
  simp only [ReturnedBy, mem_drnsOf, mem_precedentsOf, named_precedents_iff, gave_iff]
  constructor
  · rintro ⟨hv, tr, htr, hcall, _, ps, rfl, hps, p, hp, hdrn⟩
    exact ⟨tr, htr, hcall, p, ⟨ps, hps, hp⟩, hv, hdrn⟩
  · rintro ⟨tr, htr, hcall, p, ⟨ps, hps, hp⟩, hv, hdrn⟩
    exact ⟨hv, tr, htr, hcall, _, ps, rfl, hps, p, hp, hdrn⟩

/-- Readable results give every drn of every precedent call, once. -/
theorem collectReturnedDrns_of_readable (message : Text) {results : List Value}
    (h : ∀ tr ∈ results, Readable tr) :
    ∃ drns, collectReturnedDrns message results = .ok drns ∧
      drns.Pairwise (fun v w => w.same v = false) ∧ ∀ v, v ∈ drns ↔ ReturnedBy results v := by
  have hall := mapM_eq_ok fun tr htr => precedentDrns_of_readable message (h tr htr)
  refine ⟨_, by rw [collectReturnedDrns, hall]; rfl, Value.pairwise_members _, fun v => ?_⟩
  simp only [Value.mem_members, List.mem_flatten, List.mem_map, exists_exists_and_eq_and,
    returnedBy_iff]

/-! What the gate sees of the model's citations. -/

/-- The citations of a review, dash-normalised, that were returned in the run. -/
def survivors (rev : Review) (returned : List Text) : List Text :=
  (rev.citedDrns.map normDashes).filter fun d => d ∈ returned

/-- Those that were not. -/
def removed (rev : Review) (returned : List Text) : List Text :=
  (rev.citedDrns.map normDashes).filter fun d => d ∉ returned

section gate
variable {env : Env} {world : World} {caseId : Text} {caseRecord : CaseRecord}
  {report : AdjusterReport} {rev : Review}

theorem gateFlow_citations
    (hp : parsedFor env world caseId caseRecord report = some rev) :
    ∃ reached g, (gateFlow env world caseId caseRecord report).review = some reached ∧
      (gateFlow env world caseId caseRecord report).guard = some g ∧
      reached.citedDrns = survivors rev (returnedFor env world caseId caseRecord report) ∧
      (g.blocked = true ↔ removed rev (returnedFor env world caseId caseRecord report) ≠ []) ∧
      g.blockReason =
        if removed rev (returnedFor env world caseId caseRecord report) = [] then none
        else some (precedentReason
          (removed rev (returnedFor env world caseId caseRecord report))) := by
  have hcited : (backstop (factsFor world caseRecord report) (tidyReview rev)).citedDrns =
      rev.citedDrns.map normDashes := by rw [backstop_citedDrns, tidyReview_citedDrns]
  rw [gateFlow_parsed hp]
  refine ⟨_, _, rfl, rfl, ?_, ?_, ?_⟩
  · rw [guardReview_review, hcited]
    rfl
  · rw [guardReview_blocked_iff, hcited]
    simp [removed, List.filter_eq_nil_iff]
  · rw [guardReview_blockReason, hcited]
    rfl

end gate

/-- An agent call with a schema-valid review, whose tool results are in shapes that can be read. -/
structure LiveCall (env : Env) (world : World) (contextBlock : Option Text) (results : List Value)
    (rev : Review) : Prop where
  live : shouldUseGolden env = false
  answered : ∃ res, world.agent (agentMessage contextBlock) = .ok res ∧
    (res.get (lit "toolResults") = .arr results ∨
      ((res.get (lit "toolResults")).isNullish = true ∧ results = [])) ∧
    reviewSchema (res.get (lit "object")) = .ok rev
  readable : ∀ tr ∈ results, Readable tr

theorem LiveCall.parsed {env : Env} {world : World} {caseRecord : CaseRecord}
    {report : AdjusterReport} {results : List Value} {rev : Review}
    (h : LiveCall env world (some (contextFor world caseRecord report)) results rev)
    (caseId : Text) :
    parsedFor env world caseId caseRecord report = some rev ∧
      (producedFor env world caseId caseRecord report).returnedDrns.Pairwise
        (fun v w => w.same v = false) ∧
      ∀ v, v ∈ (producedFor env world caseId caseRecord report).returnedDrns ↔
        ReturnedBy results v := by
  obtain ⟨res, hagent, hgiven, hreview⟩ := h.answered
  have hresults : toolResults res = .arr results := by
    rcases hgiven with hgiven | ⟨hnone, rfl⟩
    · simp [toolResults, Value.orElse, hgiven]
    · simp [toolResults, Value.orElse, hnone]
  obtain ⟨drns, hdrns, hpairwise, hmem⟩ :=
    collectReturnedDrns_of_readable world.errors.notIterable h.readable
  have hreturned : (producedFor env world caseId caseRecord report).returnedDrns = drns := by
    rw [producedFor, ← contextFor, produce_live h.live hagent hresults hdrns,
      structured_returnedDrns]
  rw [hreturned]
  exact ⟨parsedFor_eq_some.mpr ⟨_, rawReview_live h.live hagent hresults hdrns, hreview⟩,
    hpairwise, hmem⟩

/-- If the model cites a DRN without a long dash that the run did not return, the case scores
zero and names that DRN. -/
def FabricationDetected (env : Env) (world : World) (runId : Text) (fx : CaseFixture)
    (disk : AuditDisk) : Prop :=
  ∀ caseRecord report raw rev drn, OnFile world.files fx.caseId caseRecord report →
    RawReview env world fx.caseId caseRecord report raw rev →
    drn ∈ rev.citedDrns → (∀ c ∈ drn, isLongDash c = false) →
    drn ∉ returnedFor env world fx.caseId caseRecord report →
    (caseFaithfulness env world runId fx disk).score = 0 ∧
      drn ∈ (caseFaithfulness env world runId fx disk).offending

/-- A fabricated citation blocks the run, so it suspends, with the citation stripped: the eval
gives full marks. -/
theorem fabrication_scores_one {env : Env} {world : World} {runId : Text} {fx : CaseFixture}
    {disk : AuditDisk} {caseRecord : CaseRecord} {report : AdjusterReport} {raw : Value}
    {rev : Review} {drn : Text} (harrives : Arrives env world fx.caseId caseRecord report)
    (hraw : RawReview env world fx.caseId caseRecord report raw rev)
    (hcited : drn ∈ rev.citedDrns) (hdash : ∀ c ∈ drn, isLongDash c = false)
    (hfabricated : drn ∉ returnedFor env world fx.caseId caseRecord report) :
    caseFaithfulness env world runId fx disk = { score := 1, offending := [] } := by
  obtain ⟨reached, g, hreview, hguard, hsurvive, hblocked, -⟩ :=
    gateFlow_citations (parsedFor_eq_some.mpr ⟨raw, hraw⟩)
  have hremoved : g.blocked = true := by
    rw [hblocked, removed, ne_eq, List.filter_eq_nil_iff]
    intro hnone
    have := hnone (normDashes drn) (List.mem_map_of_mem hcited)
    rw [normDashes_of_no_dash hdash] at this
    simp [hfabricated] at this
  have hneeds : needsHuman (demoAlwaysGate env)
      (gateFlow env world fx.caseId caseRecord report) = true := by
    simp [needsHuman, gateBlocked, hguard, hremoved]
  have hcase : runCase env world runId fx disk =
      (some reached, returnedFor env world fx.caseId caseRecord report) := by
    rw [runCase, startRun_suspends harrives hneeds]
    exact congrArg (·, _) hreview
  rw [caseFaithfulness, hcase]
  simp only [citationFaithfulness, hsurvive, survivors, List.filter_filter, mem_distinct]
  simp

/-- A run that fails has no review to score, and nothing to name. -/
theorem failed_run_names_none {env : Env} {world : World} {runId : Text} {fx : CaseFixture}
    {disk : AuditDisk} {e : Thrown} {left : AuditDisk}
    (h : startRun env world runId fx.caseId disk = (.failed e, left)) :
    caseFaithfulness env world runId fx disk = { score := 0, offending := [] } := by
  rw [caseFaithfulness, runCase, h]

/-- The eval meets its purpose only where there is nothing to detect. -/
theorem fabrication_detected_iff (env : Env) (world : World) (runId : Text) (fx : CaseFixture)
    (disk : AuditDisk) :
    FabricationDetected env world runId fx disk ↔
      ¬ ∃ caseRecord report raw rev drn, OnFile world.files fx.caseId caseRecord report ∧
        RawReview env world fx.caseId caseRecord report raw rev ∧ drn ∈ rev.citedDrns ∧
        (∀ c ∈ drn, isLongDash c = false) ∧
        drn ∉ returnedFor env world fx.caseId caseRecord report := by
  constructor
  · rintro hdetected ⟨caseRecord, report, raw, rev, drn, hfile, hraw, hcited, hdash, hfab⟩
    obtain ⟨hzero, hnamed⟩ := hdetected _ _ _ _ _ hfile hraw hcited hdash hfab
    by_cases htexts : DrnsAreTexts env world fx.caseId caseRecord report
    · rw [fabrication_scores_one ⟨hfile, htexts⟩ hraw hcited hdash hfab] at hzero
      cases hzero
    · obtain ⟨e, he⟩ := startRun_notTexts hfile htexts runId disk
      rw [failed_run_names_none he] at hnamed
      cases hnamed
  · intro hnone caseRecord report raw rev drn hfile hraw hcited hdash hfab
    exact absurd ⟨caseRecord, report, raw, rev, drn, hfile, hraw, hcited, hdash, hfab⟩ hnone

/-- The model cites DRN-9, the tool returned DRN-1. -/
theorem fabricated_citation_scores_one :
    ¬ FabricationDetected (sampleEnv true)
      (sampleWorld (sampleFiles .decline (some sampleWeather) none)
        (sampleCall [lit "DRN-1"] (sampleReview .agreeDecline [lit "DRN-9"] [])))
      (lit "r") { caseId := lit "A", controllingDrns := [] } emptyDisk := by
  intro hdetected
  let rev := sampleReview .agreeDecline [lit "DRN-9"] []
  let world := sampleWorld (sampleFiles .decline (some sampleWeather) none)
    (sampleCall [lit "DRN-1"] rev)
  have hne : ∀ d ∈ [lit "DRN-1"], d ≠ [] := by decide
  have hraw : RawReview (sampleEnv true) world (lit "A") sampleCase (sampleLoaded .decline) _ rev :=
    ⟨sample_raw _ _ _ _ _ _ hne, reviewSchema_toJs _⟩
  have hcited : lit "DRN-9" ∈ rev.citedDrns := by decide
  have hfab : lit "DRN-9" ∉ returnedFor (sampleEnv true) world (lit "A") sampleCase
      (sampleLoaded .decline) := by
    rw [sample_returned _ _ _ _ _ _ _ hne]
    decide
  have hdash : ∀ c ∈ lit "DRN-9", isLongDash c = false := no_dash (by decide)
  have harrives := sample_arrives .decline (some sampleWeather) none true [lit "DRN-1"] rev hne
  have hzero := (hdetected _ _ _ _ _ harrives.onFile hraw hcited hdash hfab).1
  have hone := @fabrication_scores_one (sampleEnv true) world (lit "r")
    { caseId := lit "A", controllingDrns := [] } emptyDisk _ _ _ _ _ harrives hraw hcited hdash hfab
  rw [hone] at hzero
  cases hzero

/-! Evidence that quotes a precedent. -/

/-- A DRN as the store writes it: the letters, a hyphen and digits. -/
def IsDrn (t : Text) : Prop :=
  ∃ digits, t = lit "DRN-" ++ digits ∧ digits ≠ [] ∧ ∀ c ∈ digits, isDigit c = true

/-- The evidence of a review, over its three questions. -/
def Review.evidence (r : Review) : List Evidence :=
  r.q1StormConditions.evidence ++ r.q2DamageConsistent.evidence ++ r.q3MainCause.evidence

/-- In a run that is not blocked, every precedent quoted as evidence was returned. -/
def EvidenceRetrieved (env : Env) (world : World) (runId caseId : Text) (disk : AuditDisk) : Prop :=
  ∀ flow reached g returned, ReachesGate env world runId caseId disk flow →
    flow.review = some reached → flow.guard = some g → g.blocked = false →
    flow.returnedDrns = some returned →
    ∀ e ∈ reached.evidence, e.source = .precedent → IsDrn e.ref → e.ref ∈ returned

/-- The model's own precedent evidence names only returned decisions. -/
def OwnEvidenceRetrieved (rev : Review) (returned : List Text) : Prop :=
  ∀ e ∈ rev.evidence, e.source = .precedent → IsDrn (normDashes e.ref) → normDashes e.ref ∈ returned

/-- Nothing on the way to the gate looks at the evidence, but for its dashes. -/
theorem gateFlow_evidence {env : Env} {world : World} {caseId : Text} {caseRecord : CaseRecord}
    {report : AdjusterReport} {rev reached : Review}
    (hp : parsedFor env world caseId caseRecord report = some rev)
    (hreached : (gateFlow env world caseId caseRecord report).review = some reached) :
    reached.evidence = rev.evidence.map (Evidence.mapText normDashes) := by
  have htidy : (tidyReview rev).evidence = rev.evidence.map (Evidence.mapText normDashes) := by
    simp [Review.evidence, tidyReview, Review.mapText, Finding.mapText]
  have hback (facts : GateFacts) :
      (backstop facts (tidyReview rev)).evidence = (tidyReview rev).evidence := by
    unfold backstop
    split
    · obtain ⟨confidence, wouldChangeMind, h⟩ := abstain_frame (tidyReview rev)
      rw [h]
      rfl
    · rfl
  have hchecked := checkedReview_parsed hp
  rw [gateFlow_review, hchecked, Option.map_some, Option.some.injEq] at hreached
  rw [← htidy, ← hback (factsFor world caseRecord report), ← hreached]
  rfl

/-- The guard does not inspect evidence: what is quoted was retrieved exactly when the run is
blocked for another reason or the model's own evidence was. -/
theorem evidence_retrieved_iff (env : Env) (world : World) (runId caseId : Text)
    (disk : AuditDisk) :
    EvidenceRetrieved env world runId caseId disk ↔
      ∀ caseRecord report raw rev, OnFile world.files caseId caseRecord report →
        DrnsAreTexts env world caseId caseRecord report →
        RawReview env world caseId caseRecord report raw rev →
        (∀ d ∈ rev.citedDrns, normDashes d ∈ returnedFor env world caseId caseRecord report) →
        OwnEvidenceRetrieved rev (returnedFor env world caseId caseRecord report) := by
  constructor
  · intro h caseRecord report raw rev hfile htexts hraw hcited e he hsource hdrn
    have hp := parsedFor_eq_some.mpr ⟨raw, hraw⟩
    obtain ⟨reached, g, hreview, hguard, -, hblocked, -⟩ := gateFlow_citations hp
    have hclean : g.blocked = false := by
      rw [← Bool.not_eq_true, hblocked, not_not, removed, List.filter_eq_nil_iff]
      simpa using hcited
    have hmem : e.mapText normDashes ∈ reached.evidence := by
      rw [gateFlow_evidence hp hreview]
      exact List.mem_map_of_mem he
    exact h _ reached g _ (reachesGate_iff.mpr ⟨_, _, ⟨hfile, htexts⟩, rfl⟩) hreview hguard hclean
      rfl (e.mapText normDashes) hmem hsource hdrn
  · intro h flow reached g returned hreach hreview hguard hclean hreturned e he hsource hdrn
    obtain ⟨caseRecord, report, harrives, rfl⟩ := reachesGate_iff.mp hreach
    obtain rfl : returnedFor env world caseId caseRecord report = returned :=
      Option.some.inj hreturned
    cases hp : parsedFor env world caseId caseRecord report with
    | none => simp [gateFlow_review, checkedReview, hp] at hreview
    | some rev =>
      obtain ⟨raw, hraw⟩ := parsedFor_eq_some.mp hp
      obtain ⟨reached', g', hreview', hguard', -, hblocked, -⟩ := gateFlow_citations hp
      obtain rfl : g' = g := by simpa [hguard'] using hguard
      have hcited : ∀ d ∈ rev.citedDrns,
          normDashes d ∈ returnedFor env world caseId caseRecord report := by
        rw [← Bool.not_eq_true, hblocked, not_not, removed, List.filter_eq_nil_iff] at hclean
        simpa using hclean
      rw [gateFlow_evidence hp hreview] at he
      obtain ⟨own, hown, rfl⟩ := List.mem_map.mp he
      exact h caseRecord report raw rev harrives.onFile harrives.texts hraw hcited own hown hsource
        hdrn

/-- Nothing is cited, DRN-9 is quoted as evidence, the tool returned DRN-1. -/
theorem unreturned_evidence_passes :
    ¬ EvidenceRetrieved (sampleEnv true)
      (sampleWorld (sampleFiles .decline (some sampleWeather) none)
        (sampleCall [lit "DRN-1"] (sampleReview .agreeDecline []
          [{ source := .precedent, ref := lit "DRN-9", quote := [] }])))
      (lit "r") (lit "A") emptyDisk := by
  intro h
  let rev := sampleReview .agreeDecline [] [{ source := .precedent, ref := lit "DRN-9", quote := [] }]
  let world := sampleWorld (sampleFiles .decline (some sampleWeather) none)
    (sampleCall [lit "DRN-1"] rev)
  have hne : ∀ d ∈ [lit "DRN-1"], d ≠ [] := by decide
  have hp : parsedFor (sampleEnv true) world (lit "A") sampleCase (sampleLoaded .decline) =
      some rev := sample_parsed _ _ _ _ hne
  have harrives := sample_arrives .decline (some sampleWeather) none true [lit "DRN-1"] rev hne
  obtain ⟨reached, g, hreview, hguard, -, hblocked, -⟩ := gateFlow_citations hp
  have hclean : g.blocked = false := by
    rw [← Bool.not_eq_true, hblocked]
    exact fun hremoved => hremoved rfl
  have hquoted : (⟨.precedent, lit "DRN-9", []⟩ : Evidence) ∈ reached.evidence := by
    rw [gateFlow_evidence hp hreview]
    decide
  have hret := h _ reached g _ (reachesGate_iff.mpr ⟨_, _, harrives, rfl⟩) hreview hguard hclean
    (congrArg Flow.returnedDrns (gateFlow_parsed hp)) _ hquoted rfl
    ⟨lit "9", by decide, by decide, by simp [lit, encode, isDigit]⟩
  have hreturned : lit "DRN-9" ∈ distinct [lit "DRN-1"] := by
    rwa [← sample_returned true _ _ _ _ _ _ hne]
  exact absurd hreturned (by decide)

end StormReview
