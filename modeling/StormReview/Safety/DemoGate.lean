import StormReview.Safety.AutoFile

/-! The demo flag: the runs it stops are the ones that would have been filed, and it labels
them. -/
namespace StormReview
open Js Zod Engine

def demoReason : Text := lit "demo policy: every case is signed by a human"

/-- The same process with the demo variable set to something else. -/
def Env.withDemoVar (env : Env) (var : Option Text) : Env :=
  { env with demoAlwaysGateVar := var }

/-- The payload shows a handler what the state `flow` was filed on. -/
structure Shows (payload : SuspendPayload) (flow : Flow) : Prop where
  review : payload.review = flow.review
  guard : payload.guard = flow.guard
  gateFacts : payload.gateFacts = flow.gateFacts
  toolCalls : some payload.toolCalls = flow.toolCalls
  returnedDrns : some payload.returnedDrns = flow.returnedDrns
  modelUsed : payload.modelUsed = flow.modelUsed

/-- The run is filed without a human, in the state `flow`: where it leaves its gate, or where it
ends if the record step goes through. -/
def FiledAs (env : Env) (world : World) (runId caseId : Text) (disk : AuditDisk) (flow : Flow) :
    Prop :=
  runToGate env world runId caseId disk = (.success flow, disk) ∨
    ∃ left, startRun env world runId caseId disk = (.success flow, left)

theorem ne_demoReason {text : Text} {c : UInt16} (h : text.head? = some c) (hc : c ≠ cu 'd') :
    text ≠ demoReason := by
  rintro rfl
  exact hc (Option.some.inj h).symm

/-- The reasons a guard gives are its own. -/
theorem guard_blockReason_ne (rev : Review) (returnedDrns : List Text) :
    (guardReview rev returnedDrns).2.blockReason ≠ some demoReason := by
  rw [guardReview_blockReason]
  split
  · simp
  · intro h
    exact ne_demoReason (c := cu 'p') rfl (by decide) (Option.some.inj h)

theorem unstructured_blockReason_ne (error : Option Text) (returnedDrns : List Text) :
    (unstructuredGuard error returnedDrns).blockReason ≠ some demoReason := by
  unfold unstructuredGuard
  intro h
  dsimp only at h
  split at h
  · exact ne_demoReason (c := cu 'c') rfl (by decide) (Option.some.inj h)
  · exact ne_demoReason (c := cu 'c') rfl (by decide) (Option.some.inj h)

/-- The chain of reasons ends in the demo text where the disjunction without the flag is false,
and nowhere else. -/
theorem suspendReason_demo_iff {flow : Flow}
    (hguard : flow.guard.bind (·.blockReason) ≠ some demoReason) :
    suspendReason flow = some demoReason ↔ needsHuman false flow = false := by
  unfold suspendReason needsHuman
  cases hb : gateBlocked flow.guard with
  | true => simpa using hguard
  | false =>
    cases hr : flow.review with
    | none =>
      have hne : lit "the review could not be produced; a human must assess this claim" ≠
          demoReason := ne_demoReason (c := cu 't') rfl (by decide)
      simpa using hne
    | some rev =>
      cases hv : autoFileable rev.verdict with
      | false =>
        have hne : lit "verdict is \"" ++ Enum.text rev.verdict ++
            lit "\"; a customer-adverse or non-agreement outcome is signed by a human" ≠
              demoReason := ne_demoReason (c := cu 'v') rfl (by decide)
        simpa [hv] using hne
      | true =>
        by_cases hc : rev.confidence = .high
        · cases hcash : cashPlusVulnerable flow.gateFacts with
          | true =>
            have hne : lit "cash settlement for a vulnerable customer always goes to a human" ≠
                demoReason := ne_demoReason (c := cu 'c') rfl (by decide)
            simpa [hv, hc, hcash] using hne
          | false => simp [hv, hc, demoReason]
        · have hne : lit "confidence is \"" ++ Enum.text rev.confidence ++
              lit "\"; only high-confidence agreements could auto-file" ≠ demoReason :=
            ne_demoReason (c := cu 'c') rfl (by decide)
          simpa [hv, hc] using hne

section run
variable {env : Env} {world : World} {runId caseId : Text} {caseRecord : CaseRecord}
  {report : AdjusterReport} {disk : AuditDisk} {var : Option Text}

/-- Nothing before the gate looks at the flag. -/
theorem gateFlow_withDemoVar :
    gateFlow (env.withDemoVar var) world caseId caseRecord report =
      gateFlow env world caseId caseRecord report := rfl

theorem gateFlow_suspendReason_demo_iff :
    suspendReason (gateFlow env world caseId caseRecord report) = some demoReason ↔
      needsHuman false (gateFlow env world caseId caseRecord report) = false := by
  apply suspendReason_demo_iff
  cases hc : checkedReview env world caseId caseRecord report with
  | some rev =>
    have hguard : (gateFlow env world caseId caseRecord report).guard =
        some (guardReview rev (returnedFor env world caseId caseRecord report)).2 := by
      simp [gateFlow, hc]
    rw [hguard]
    exact guard_blockReason_ne _ _
  | none =>
    have hguard : (gateFlow env world caseId caseRecord report).guard =
        some (unstructuredGuard (producedFor env world caseId caseRecord report).structuringError
          (returnedFor env world caseId caseRecord report)) := by
      simp [gateFlow, hc]
    rw [hguard]
    exact unstructured_blockReason_ne _ _

/-- With the flag on every run that arrives at its gate suspends. -/
theorem startRun_demo (hon : demoAlwaysGate (env.withDemoVar var) = true)
    (h : Arrives env world caseId caseRecord report) :
    startRun (env.withDemoVar var) world runId caseId disk =
      (.suspended "gate" (gateFlow env world caseId caseRecord report)
        (suspendPayload (gateFlow env world caseId caseRecord report)), disk) := by
  have hneeds : needsHuman (demoAlwaysGate (env.withDemoVar var))
      (gateFlow (env.withDemoVar var) world caseId caseRecord report) = true := by
    simp [needsHuman, hon]
  have harrives : Arrives (env.withDemoVar var) world caseId caseRecord report := ⟨h.onFile, h.texts⟩
  rw [startRun_suspends harrives hneeds, gateFlow_withDemoVar]

/-- A run that does not arrive at its gate is the same with the flag on or off. -/
theorem not_arrives_withDemoVar
    (h : ¬ ∃ caseRecord report, Arrives env world caseId caseRecord report) :
    startRun (env.withDemoVar var) world runId caseId disk =
      startRun env world runId caseId disk := by
  obtain ⟨e, he⟩ := drive_not_arrives h
  exact (he _ disk).trans (he _ disk).symm

/-- What a run that is filed left its gate with; the record step adds its audit field only. -/
theorem filedAs_arrives {flow : Flow} (hoff : demoAlwaysGate env = false)
    (h : FiledAs env world runId caseId disk flow) :
    ∃ caseRecord report, Arrives env world caseId caseRecord report ∧
      needsHuman false (gateFlow env world caseId caseRecord report) = false ∧
      Shows (suspendPayload (gateFlow env world caseId caseRecord report)) flow := by
  by_cases harrives : ∃ caseRecord report, Arrives env world caseId caseRecord report
  · obtain ⟨caseRecord, report, hon⟩ := harrives
    refine ⟨caseRecord, report, hon, ?_⟩
    cases hn : needsHuman false (gateFlow env world caseId caseRecord report) with
    | true =>
      have hneeds : needsHuman (demoAlwaysGate env)
          (gateFlow env world caseId caseRecord report) = true := by rw [hoff, hn]
      rcases h with h | ⟨left, h⟩
      · rw [runToGate_suspends hon hneeds] at h
        simp at h
      · rw [startRun_suspends hon hneeds] at h
        simp at h
    | false =>
      have hneeds : needsHuman (demoAlwaysGate env)
          (gateFlow env world caseId caseRecord report) = false := by rw [hoff, hn]
      refine ⟨rfl, ?_⟩
      rcases h with h | ⟨left, h⟩
      · rw [runToGate_files hon hneeds] at h
        obtain rfl := by simpa using h
        exact ⟨rfl, rfl, rfl, rfl, rfl, rfl⟩
      · rw [startRun_files hon hneeds] at h
        obtain ⟨input, hinput, hrun⟩ : ∃ input, input =
            { gateFlow env world caseId caseRecord report with
              needsHuman := some false, humanDecision := some autoFiledDecision } ∧
            drive [recordStep env world runId] none input disk = (.success flow, left) :=
          ⟨_, rfl, h⟩
        rcases drive_record_cases env world runId input disk with
          ⟨-, e, he⟩ | ⟨-, ⟨-, e, he⟩ | ⟨-, he⟩⟩
        · simp [he] at hrun
        · simp [he] at hrun
        · rw [he] at hrun
          obtain ⟨rfl, -⟩ := by simpa using hrun
          subst hinput
          exact ⟨rfl, rfl, rfl, rfl, rfl, rfl⟩
  · exfalso
    rcases h with h | ⟨left, h⟩
    · obtain ⟨e, he⟩ : ∃ e, runToGate env world runId caseId disk = (.failed e, disk) :=
        runToGate_not_arrives harrives
      simp [he] at h
    · obtain ⟨e, he⟩ : ∃ e, startRun env world runId caseId disk = (.failed e, disk) :=
        startRun_not_arrives harrives runId disk
      simp [he] at h

end run

/-- The flag leaves a run that suspends as it is, and makes a run that would be filed suspend on
the same facts; only the latter is labelled with the demo policy. -/
theorem demo_flag_labels (env : Env) (var : Option Text) (world : World) (runId caseId : Text)
    (disk : AuditDisk) (hoff : demoAlwaysGate env = false)
    (hon : demoAlwaysGate (env.withDemoVar var) = true) :
    (∀ step input payload left,
        startRun env world runId caseId disk = (.suspended step input payload, left) →
          startRun (env.withDemoVar var) world runId caseId disk =
            (.suspended step input payload, left)) ∧
      (∀ flow, FiledAs env world runId caseId disk flow →
        ∃ input payload, startRun (env.withDemoVar var) world runId caseId disk =
            (.suspended "gate" input payload, disk) ∧
          payload.reason = some demoReason ∧ Shows payload flow) ∧
      ((∃ step input payload left, startRun (env.withDemoVar var) world runId caseId disk =
            (.suspended step input payload, left) ∧ payload.reason = some demoReason) ↔
        ∃ flow, FiledAs env world runId caseId disk flow) := by
  have hfiled : ∀ flow, FiledAs env world runId caseId disk flow →
      ∃ input payload, startRun (env.withDemoVar var) world runId caseId disk =
          (.suspended "gate" input payload, disk) ∧
        payload.reason = some demoReason ∧ Shows payload flow := by
    intro flow h
    obtain ⟨caseRecord, report, harrives, hn, hshows⟩ := filedAs_arrives hoff h
    exact ⟨_, _, startRun_demo hon harrives, gateFlow_suspendReason_demo_iff.mpr hn, hshows⟩
  refine ⟨?_, hfiled, ?_, ?_⟩
  · intro step input payload left h
    by_cases harrives : ∃ caseRecord report, Arrives env world caseId caseRecord report
    · obtain ⟨caseRecord, report, hcase⟩ := harrives
      rw [startRun_demo hon hcase, ← h]
      cases hn : needsHuman (demoAlwaysGate env) (gateFlow env world caseId caseRecord report) with
      | true => exact (startRun_suspends hcase hn).symm
      | false =>
        rw [startRun_files hcase hn] at h
        exact absurd h (drive_record_not_suspended _ _ _ _ _)
    · rw [not_arrives_withDemoVar harrives, h]
  · rintro ⟨step, input, payload, left, h, hreason⟩
    by_cases harrives : ∃ caseRecord report, Arrives env world caseId caseRecord report
    · obtain ⟨caseRecord, report, hcase⟩ := harrives
      rw [startRun_demo hon hcase] at h
      obtain ⟨⟨-, -, rfl⟩, -⟩ := by simpa using h
      have hn := gateFlow_suspendReason_demo_iff.mp hreason
      exact ⟨_, .inl (runToGate_files hcase (by rw [hoff, hn]))⟩
    · obtain ⟨e, he⟩ : ∃ e, startRun env world runId caseId disk = (.failed e, disk) :=
        startRun_not_arrives harrives runId disk
      simp [not_arrives_withDemoVar harrives, he] at h
  · rintro ⟨flow, h⟩
    obtain ⟨input, payload, hrun, hreason, -⟩ := hfiled flow h
    exact ⟨_, _, _, _, hrun, hreason⟩

theorem demo_flag_labels_sample :
    let world := sampleWorld (sampleFiles .decline (some sampleWeather) (some (sampleCustomer true)))
      (sampleCall [lit "DRN-1"] (sampleReview .agreeDecline [lit "DRN-1"] []))
    (∃ step input payload left,
        startRun ((sampleEnv false).withDemoVar none) world (lit "r") (lit "A") emptyDisk =
          (.suspended step input payload, left) ∧ payload.reason = some demoReason) ∧
      ∃ flow, FiledAs (sampleEnv false) world (lit "r") (lit "A") emptyDisk flow := by
  intro world
  have hiff := (demo_flag_labels (sampleEnv false) none world (lit "r") (lit "A") emptyDisk rfl
    rfl).2.2
  have hclean := sample_clean .decline (some (sampleCustomer true)) .agreeDecline (by decide)
    [lit "DRN-1"] (by decide) (by decide) (.inl rfl)
  have harrives := sample_arrives .decline (some sampleWeather) (some (sampleCustomer true)) false
    [lit "DRN-1"] (sampleReview .agreeDecline [lit "DRN-1"] []) (by decide)
  have hn := (needsHuman_gateFlow (demoAlwaysGate (sampleEnv false))).mpr ⟨rfl, _, hclean⟩
  have hfiled : ∃ flow, FiledAs (sampleEnv false) world (lit "r") (lit "A") emptyDisk flow :=
    ⟨_, .inl (runToGate_files harrives hn)⟩
  exact ⟨hiff.mpr hfiled, hfiled⟩

end StormReview
