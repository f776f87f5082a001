import StormReview.Tools.FindFosPrecedents
import StormReview.Evals.Run
import StormReview.Safety.Replay

/-! The eval's holdout: what the model is graded on is kept out of its reach. -/
namespace StormReview
open Js Zod Engine

/-- The agent's precedent results are the tool's answers under the holdout, or failed calls,
which carry no precedents. -/
def UsesTool (locale : Locale) (precedents : List Precedent)
    (agent : List Text → Text → Except Thrown Value) : Prop :=
  ∀ heldOut message res results, agent heldOut message = .ok res → toolResults res = .arr results →
    ∀ tr ∈ results, isPrecedentCall tr = true →
      (∃ damageType tags,
        toolResult tr = findFosPrecedents locale precedents heldOut damageType tags) ∨
      ((toolResult tr).get (lit "precedents")).isNullish = true

section tool
variable {locale : Locale} {precedents : List Precedent} {heldOut : List Text} {drn : Text}

theorem drnOf_summary (s : PrecedentSummary) :
    drnOf s.toJs = if s.drn = [] then none else some (.str s.drn) := by
  have hget : s.toJs.get (lit "drn") = .str s.drn := rfl
  by_cases h : s.drn = [] <;> simp [drnOf, hget, Value.truthy, h]

/-- No held-out DRN comes out of a result of the tool. -/
theorem precedentDrns_heldOut {message : Text} {tr : Value} {drns : List Value}
    (htool : isPrecedentCall tr = true →
      (∃ damageType tags,
        toolResult tr = findFosPrecedents locale precedents heldOut damageType tags) ∨
      ((toolResult tr).get (lit "precedents")).isNullish = true)
    (h : precedentDrns message tr = .ok drns) (hmem : .str drn ∈ drns) : drn ∉ heldOut := by
  by_cases hc : isPrecedentCall tr = true
  · rw [precedentDrns, if_pos hc] at h
    rcases htool hc with ⟨damageType, tags, hresult⟩ | hnull
    · have hget : (toolResult tr).get (lit "precedents") = .arr ((queryPrecedents locale precedents
          heldOut damageType tags { holdout := none, limit := none }).map
            PrecedentSummary.toJs) := by
        rw [hresult]
        rfl
      rw [hget, Value.orElse_of_not_nullish (Value.isNullish_arr _), Value.iterate_arr] at h
      obtain rfl := Except.ok.inj h
      obtain ⟨p, hp, hd⟩ := List.mem_filterMap.mp hmem
      obtain ⟨s, hs, rfl⟩ := List.mem_map.mp hp
      obtain ⟨q, -, rfl, hout⟩ := mem_queryPrecedents hs
      rw [drnOf_summary] at hd
      split at hd
      · cases hd
      · obtain rfl := Value.str.inj (Option.some.inj hd)
        exact hout
    · have hempty : ((toolResult tr).get (lit "precedents")).orElse (.arr []) = .arr [] := by
        simp [Value.orElse, hnull]
      rw [hempty, Value.iterate_arr] at h
      obtain rfl := Except.ok.inj h
      cases hmem
  · rw [precedentDrns, if_neg hc] at h
    obtain rfl := Except.ok.inj h
    cases hmem

end tool

/-- A collected DRN is in one of the tool results. -/
theorem mem_collectReturnedDrns {message : Text} {results drns : List Value} {drn : Value}
    (h : collectReturnedDrns message results = .ok drns) (hmem : drn ∈ drns) :
    ∃ tr ∈ results, ∃ ds, precedentDrns message tr = .ok ds ∧ drn ∈ ds := by
  rw [collectReturnedDrns] at h
  cases hall : results.mapM (precedentDrns message) with
  | error e => simp [hall, bind, Except.bind] at h
  | ok all =>
    obtain rfl : Value.members all.flatten = drns := by
      simpa [hall, bind, Except.bind, pure, Except.pure] using h
    obtain ⟨ds, hds, hd⟩ := List.mem_flatten.mp (Value.mem_members.mp hmem)
    obtain ⟨tr, htr, hok⟩ := mem_mapM hall hds
    exact ⟨tr, htr, ds, hok, hd⟩

/-- What a live review step returns comes out of the agent's tool results. -/
theorem mem_reviewLive {world : World} {modelUsed message : Text} {drn : Value}
    (h : drn ∈ (reviewLive world modelUsed message).returnedDrns) :
    ∃ res results tr ds, world.agent message = .ok res ∧ toolResults res = .arr results ∧
      tr ∈ results ∧ precedentDrns world.errors.notIterable tr = .ok ds ∧ drn ∈ ds := by
  unfold reviewLive at h
  cases ha : world.agent message with
  | error err => simp [ha, structuringFailure] at h
  | ok res =>
    cases hm : (toolResults res).mapItems world.errors.notMappable with
    | error err => simp [ha, hm, structuringFailure] at h
    | ok results =>
      cases hd : collectReturnedDrns world.errors.notIterable results with
      | error err => simp [ha, hm, hd, structuringFailure] at h
      | ok drns =>
        simp only [ha, hm, hd, structured_returnedDrns] at h
        obtain ⟨tr, htr, ds, hok, hmem⟩ := mem_collectReturnedDrns hd h
        exact ⟨res, results, tr, ds, rfl, Value.mapItems_eq_ok.mp hm, htr, hok, hmem⟩

section eval
variable {env : Env} {world : World} {runId : Text} {fx : CaseFixture} {disk : AuditDisk}

/-- The eval reads of a run what every reader sees, and nothing of a failed one. -/
theorem runCase_returnedDrns : (runCase env world runId fx disk).2 =
    ((viewOf (startRun env world runId fx.caseId disk).1).map (·.returnedDrns)).getD [] := by
  unfold runCase
  cases (startRun env world runId fx.caseId disk).1 <;> rfl

theorem holdoutOf_live (h : hasAgentKey env = true) (hne : fx.controllingDrns ≠ []) :
    holdoutOf env fx = fx.controllingDrns := by
  simp [holdoutOf, h, hne]

theorem returnedFor_golden {caseRecord : CaseRecord} {report : AdjusterReport} {caseId : Text}
    (h : shouldUseGolden env = true) : returnedFor env world caseId caseRecord report =
      ((loadGolden world.files caseId).bind (·.returnedDrns)).getD [] := by
  rw [returnedFor, golden_returnedDrns h, Value.filterMap_textOf_map]

theorem mem_returnedFor_live {caseRecord : CaseRecord} {report : AdjusterReport} {caseId drn : Text}
    (h : shouldUseGolden env = false) : drn ∈ returnedFor env world caseId caseRecord report ↔
      .str drn ∈ (reviewLive world (agentModel env)
        (agentMessage (some (contextFor world caseRecord report)))).returnedDrns := by
  simp only [mem_returnedFor, producedFor, produce, h, Bool.false_eq_true, if_false, contextFor]

theorem hasAgentKey_golden (h : hasAgentKey env = true) :
    shouldUseGolden env = true ↔ env.useGoldenVar = some (lit "1") := by
  have hkey : present env.anthropicApiKeyVar = true := h
  by_cases h1 : env.useGoldenVar = some (lit "1")
  · simp [shouldUseGolden, h1]
  · simp [shouldUseGolden, h1, hkey]

end eval

/-- No run of the case in live mode shows a DRN that was to be held out. -/
def HoldoutEffective (env : Env) (files : Files)
    (agent : List Text → Text → Except Thrown Value) (fx : CaseFixture) : Prop :=
  ∀ world runId disk, world.files = files → hasAgentKey env = true →
    ∀ drn ∈ fx.controllingDrns, drn ∉ (runCaseHeldOut env world agent runId fx disk).2

/-- With a key the eval says live, with USE_GOLDEN it replays, and the recording was made
without a holdout. -/
structure LeakingReplay (env : Env) (files : Files) (fx : CaseFixture) : Prop where
  key : hasAgentKey env = true
  forced : env.useGoldenVar = some (lit "1")
  onFile : ∃ caseRecord report, OnFile files fx.caseId caseRecord report
  leaks : ∃ g drn, loadGolden files fx.caseId = some g ∧ drn ∈ g.returnedDrns.getD [] ∧
    drn ∈ fx.controllingDrns

theorem leaking_replay_leaks {env : Env} {files : Files} {fx : CaseFixture}
    (agent : List Text → Text → Except Thrown Value) (h : LeakingReplay env files fx) :
    ¬ HoldoutEffective env files agent fx := by
  intro heffective
  obtain ⟨caseRecord, report, hfile⟩ := h.onFile
  obtain ⟨g, drn, hload, hreturned, hcontrolling⟩ := h.leaks
  -- any world will do whose writes go through
  let world := { sampleWorld files .undefined with agent := agent (holdoutOf env fx) }
  have hgolden : shouldUseGolden env = true := (hasAgentKey_golden h.key).mpr h.forced
  have hdrns : returnedFor env world fx.caseId caseRecord report = g.returnedDrns.getD [] := by
    have hload' : loadGolden world.files fx.caseId = some g := hload
    rw [returnedFor_golden hgolden, hload', Option.bind_some]
  have hclear : world.faults.Clear := ⟨⟨rfl, rfl⟩, fun _ => ⟨rfl, rfl⟩⟩
  have harrives : Arrives env world fx.caseId caseRecord report :=
    ⟨hfile, drnsAreTexts_golden hgolden⟩
  rcases @startRun_view env world [] fx.caseId _ _ emptyDisk harrives with ⟨-, hf⟩ | ⟨hview, -⟩
  · exact hf hclear
  · refine heffective (sampleWorld files .undefined) [] emptyDisk rfl h.key drn hcontrolling ?_
    rw [runCaseHeldOut, runCase_returnedDrns, hview]
    have hshown : (gateFlow env world fx.caseId caseRecord report).view.returnedDrns =
        returnedFor env world fx.caseId caseRecord report := rfl
    rw [Option.map_some, Option.getD_some, hshown, hdrns]
    exact hreturned

/-- The holdout works unless the run replays a recording that holds a controlling DRN. -/
theorem holdout_effective_iff (env : Env) (files : Files) (fx : CaseFixture) (locale : Locale)
    (readPrecedents : Text → Option (List Precedent))
    (agent : List Text → Text → Except Thrown Value)
    (htool : UsesTool locale (loadPrecedents readPrecedents files) agent) :
    HoldoutEffective env files agent fx ↔ ¬ LeakingReplay env files fx := by
  refine ⟨fun heffective hleak => leaking_replay_leaks agent hleak heffective, ?_⟩
  rintro hno world runId disk rfl hkey drn hdrn hmem
  rw [runCaseHeldOut, runCase_returnedDrns] at hmem
  cases hv : viewOf (startRun env { world with agent := agent (holdoutOf env fx) } runId fx.caseId
      disk).1 with
  | none => simp [hv] at hmem
  | some v =>
    obtain ⟨caseRecord, report, harrives, rfl, -⟩ := viewOf_startRun hv
    have hreturned : drn ∈ returnedFor env { world with agent := agent (holdoutOf env fx) }
        fx.caseId caseRecord report := by
      rw [hv] at hmem
      exact hmem
    cases hg : shouldUseGolden env with
    | true =>
      rw [returnedFor_golden hg] at hreturned
      cases hload : loadGolden world.files fx.caseId with
      | none => simp [hload] at hreturned
      | some g =>
        exact hno ⟨hkey, (hasAgentKey_golden hkey).mp hg, ⟨caseRecord, report, harrives.onFile⟩, g, drn,
          hload, by simpa [hload] using hreturned, hdrn⟩
    | false =>
      rw [mem_returnedFor_live hg] at hreturned
      obtain ⟨res, results, tr, ds, hagent, hresults, htr, hds, hd⟩ := mem_reviewLive hreturned
      have hout : drn ∉ holdoutOf env fx :=
        precedentDrns_heldOut (htool _ _ _ _ hagent hresults tr htr) hds hd
      rw [holdoutOf_live hkey (List.ne_nil_of_mem hdrn)] at hout
      exact hout hdrn

/-! A store of two decisions, the first of which controls the case. -/

section sample

def sampleLocale : Locale where
  toLowerCase := List.map foldCase
  localeCompare a b := if a = b then 0 else if a.map (·.toNat) < b.map (·.toNat) then -1 else 1

def samplePrecedent (drn : Text) : Precedent where
  drn
  insurer := lit "Aviva"
  damageType := lit "roof_tiles"
  weatherCited := lit "gusts"
  outcome := .upheld
  decisiveFact := lit "burden"
  tags := [lit "burden_of_proof"]

def sampleStore (_ : Text) : Option (List Precedent) :=
  some [samplePrecedent (lit "DRN-1"), samplePrecedent (lit "DRN-2")]

/-- One call of the tool. -/
def sampleAsked (heldOut : List Text) : Value :=
  .obj [(lit "toolName", .str (lit "findFosPrecedents")),
    (lit "result", findFosPrecedents sampleLocale
      [samplePrecedent (lit "DRN-1"), samplePrecedent (lit "DRN-2")] heldOut (lit "Roof_Tiles") [])]

/-- The agent asks the tool once, and reviews. -/
def sampleAgent (heldOut : List Text) (_ : Text) : Except Thrown Value :=
  .ok (.obj [(lit "toolResults", .arr [sampleAsked heldOut]),
    (lit "object", (sampleReview .agreeDecline [] []).toJs)])

/-- The recording of the case was made without a holdout. -/
def recordedFiles : Files :=
  { sampleFiles .decline (some sampleWeather) none with
    golden := fun _ =>
      some { review := .undefined, toolCalls := none, returnedDrns := some [lit "DRN-1"] } }

def sampleFixture : CaseFixture where
  caseId := lit "A"
  controllingDrns := [lit "DRN-1"]

theorem sampleAgent_usesTool :
    UsesTool sampleLocale (loadPrecedents sampleStore recordedFiles) sampleAgent := by
  intro heldOut message res results hagent hresults tr htr hcall
  obtain rfl := Except.ok.inj hagent
  have hone : tr ∈ [sampleAsked heldOut] := by
    rw [← Value.arr.inj hresults] at htr
    exact htr
  obtain rfl := List.mem_singleton.mp hone
  exact .inl ⟨_, _, rfl⟩

/-- A key and USE_GOLDEN=1: the eval says live, and the replay shows the controlling DRN. -/
theorem forced_replay_leaks :
    ¬ HoldoutEffective { sampleEnv false with useGoldenVar := some (lit "1") } recordedFiles
      sampleAgent sampleFixture :=
  leaking_replay_leaks _ ⟨rfl, rfl, ⟨_, _, rfl, rfl⟩, _, lit "DRN-1", rfl,
    List.mem_singleton_self _, List.mem_singleton_self _⟩

theorem holdout_effective_sample :
    HoldoutEffective (sampleEnv false) recordedFiles sampleAgent sampleFixture :=
  (holdout_effective_iff _ _ _ sampleLocale sampleStore _ sampleAgent_usesTool).mpr
    fun hleak => absurd hleak.forced (by decide)

end sample
end StormReview
