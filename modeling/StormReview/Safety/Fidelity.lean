import StormReview.Safety.SignOff

/-! What the handler was shown is what is recorded. -/
namespace StormReview
open Js Zod Engine

/-! A suspended run keeps its input, whatever is requested in between, until it is over. -/

/-- The run waits at the gate with `flow`, or is over. -/
def Held (runId : Text) (flow : Flow) (s : ServerState) : Prop :=
  s.runs runId = .suspended "gate" flow ∨ s.runs runId = .closed

section held
variable {runId : Text} {flow : Flow} {s : ServerState}

theorem postRun_other (world : World) (caseId : Text) {other : Text} (h : runId ≠ other) :
    (postRun world caseId other s).2.runs runId = s.runs runId := by
  unfold postRun
  cases buildLeft world.files caseId with
  | none => rfl
  | some left => simp [h]

/-- One request that does not start this run again. -/
theorem Held.handle (hs : Held runId flow s) (e : World × Request)
    (hfresh : ∀ caseId, e.2 ≠ .run caseId runId) : Held runId flow (handle e.1 e.2 s).2 := by
  obtain ⟨world, request⟩ := e
  cases request with
  | restart env => exact hs
  | run caseId other =>
    have hne : runId ≠ other := fun h => hfresh caseId (by rw [h])
    have hsame : (postRun world caseId other s).2.runs runId = s.runs runId :=
      postRun_other world caseId hne
    exact hs.imp hsame.trans hsame.trans
  | resume other body =>
    rcases postResume_cases world other body s with h | ⟨data, input, -, h⟩
    · have hsame : (StormReview.handle world (.resume other body) s).2 = s := h
      rwa [hsame]
    · have hnext : (StormReview.handle world (.resume other body) s).2.runs =
          Function.update s.runs other .closed := congrArg ServerState.runs h
      by_cases hid : runId = other
      · exact .inr (by simp [hnext, hid])
      · have hsame : (StormReview.handle world (.resume other body) s).2.runs runId =
            s.runs runId := by rw [hnext, Function.update_of_ne hid]
        exact hs.imp hsame.trans hsame.trans

theorem Held.serve (hs : Held runId flow s) (history : List (World × Request))
    (hfresh : runId ∉ startedIds history) : Held runId flow (serve history s) := by
  induction history generalizing s with
  | nil => exact hs
  | cons e history ih =>
    have hhead : ∀ caseId, e.2 ≠ .run caseId runId := by
      intro caseId he
      exact hfresh (by simp [startedIds, he])
    have htail : runId ∉ startedIds history := by
      intro hmem
      refine hfresh ?_
      simp only [startedIds, List.mem_filterMap, List.mem_cons] at hmem ⊢
      obtain ⟨a, ha, hid⟩ := hmem
      exact ⟨a, .inr ha, hid⟩
    exact ih (hs.handle e hhead) htail

theorem serve_restart (world : World) (env : Env) (s : ServerState) :
    serve [(world, .restart env)] s = { s with env } := rfl

/-- What a held run is resumed from is what it was suspended with. -/
theorem Held.accepted (hs : Held runId flow s) {body : Option Value} {data : ResumeData}
    {input : Flow} (h : Accepted s runId body data input) : input = flow := by
  have hsusp := h.suspended
  rcases hs with hw | hc
  · simpa [hw] using hsusp.symm
  · simp [hc] at hsusp

end held

/-! The run that was shown. -/

section shown
variable {env : Env} {world : World} {runId caseId : Text} {disk : AuditDisk}

/-- A started run suspends at the gate only, with what reached it, and writes nothing. -/
theorem startRun_suspended {step : String} {input : Flow} {payload : SuspendPayload}
    {left : AuditDisk} (h : startRun env world runId caseId disk =
      (.suspended step input payload, left)) :
    ∃ caseRecord report, Arrives env world caseId caseRecord report ∧ step = "gate" ∧
      input = gateFlow env world caseId caseRecord report ∧ payload = suspendPayload input ∧
      left = disk := by
  by_cases harrives : ∃ caseRecord report, Arrives env world caseId caseRecord report
  · obtain ⟨caseRecord, report, hcase⟩ := harrives
    cases hn : needsHuman (demoAlwaysGate env) (gateFlow env world caseId caseRecord report) with
    | true =>
      rw [startRun_suspends hcase hn] at h
      cases h
      exact ⟨caseRecord, report, hcase, rfl, rfl, rfl, rfl⟩
    | false =>
      rw [startRun_files hcase hn] at h
      exact (drive_record_not_suspended _ _ _ _ _ h).elim
  · obtain ⟨e, he⟩ : ∃ e, startRun env world runId caseId disk = (.failed e, disk) :=
      startRun_not_arrives harrives runId disk
    rw [he] at h
    cases h

theorem buildLeft_onFile {caseRecord : CaseRecord} {report : AdjusterReport}
    (h : OnFile world.files caseId caseRecord report) :
    ∃ left, buildLeft world.files caseId = some left ∧ left.caseRecord = caseRecord := by
  rw [buildLeft, h.case]
  exact ⟨_, rfl, rfl⟩

theorem postRun_suspends {s : ServerState} {caseRecord : CaseRecord} {report : AdjusterReport}
    {left : Left} (harrives : Arrives s.env world caseId caseRecord report)
    (hleft : buildLeft world.files caseId = some left)
    (hneeds : needsHuman (demoAlwaysGate s.env) (gateFlow s.env world caseId caseRecord report) =
      true) :
    postRun world caseId runId s =
      (.ran (suspendedBody runId caseId left
          (suspendPayload (gateFlow s.env world caseId caseRecord report))),
        { s with
          runs := Function.update s.runs runId
            (.suspended "gate" (gateFlow s.env world caseId caseRecord report)) }) := by
  simp only [postRun, hleft, startRun_suspends harrives hneeds]
  rfl

/-- An answer with status suspended shows the state that waits at the gate. -/
theorem postRun_suspended {s : ServerState} {body : RunBody}
    (hrun : (postRun world caseId runId s).1 = .ran body) (hstatus : body.status = lit "suspended") :
    ∃ caseRecord report left, Arrives s.env world caseId caseRecord report ∧
      left.caseRecord = caseRecord ∧
      body = suspendedBody runId caseId left
        (suspendPayload (gateFlow s.env world caseId caseRecord report)) ∧
      (postRun world caseId runId s).2 =
        { s with
          runs := Function.update s.runs runId
            (.suspended "gate" (gateFlow s.env world caseId caseRecord report)) } := by
  unfold postRun at hrun ⊢
  cases hl : buildLeft world.files caseId with
  | none => simp [hl] at hrun
  | some left =>
    simp only [hl] at hrun ⊢
    cases hres : startRun s.env world runId caseId s.disk with
    | mk res disk =>
      simp only [hres] at hrun ⊢
      cases res with
      | suspended step input payload =>
        obtain ⟨caseRecord, report, harrives, rfl, rfl, rfl, rfl⟩ := startRun_suspended hres
        have hleft : left.caseRecord = caseRecord := by
          rw [buildLeft, harrives.onFile.case, Option.map_some, Option.some.injEq] at hl
          rw [← hl]
        exact ⟨caseRecord, report, left, harrives, hleft, (Response.ran.inj hrun).symm, rfl⟩
      | success flow =>
        obtain rfl := Response.ran.inj hrun
        exact absurd hstatus (by simp [finishedBody, statusText]; decide)
      | failed e =>
        obtain rfl := Response.ran.inj hrun
        exact absurd hstatus (by simp [finishedBody, statusText]; decide)

end shown

/-- A run that suspended is held through every later history. -/
theorem held_after_run {s : ServerState} {world : World} {runId caseId : Text} {flow : Flow}
    (hrun : (postRun world caseId runId s).2 =
      { s with runs := Function.update s.runs runId (.suspended "gate" flow) })
    {history : List (World × Request)} (hfresh : runId ∉ startedIds history) :
    Held runId flow (serve history (postRun world caseId runId s).2) := by
  refine Held.serve (.inl ?_) history hfresh
  rw [hrun]
  exact Function.update_self ..

/-- The row says what the body of the request said; a missing reason is an empty one. -/
structure SaidBy (body : Value) (row : AuditEntry) : Prop where
  decision : ∃ d, row.decision = .signed d ∧ body.get (lit "decision") = word d
  reason : (body.get (lit "reason")).orElse (.str []) = .str row.reason
  failureMode : optional enum (body.get (lit "failureMode")) = .ok row.failureMode
  domainNote : optional string (body.get (lit "domainNote")) = .ok row.domainNote

/-- The row shows what the answer to the run showed. -/
structure ShownIn (body : RunBody) (row : AuditEntry) : Prop where
  runId : row.runId = body.runId
  caseId : row.caseId = body.caseId
  claimId : row.claimId = body.claimId
  review : row.review = body.review
  toolCalls : row.toolCalls = body.toolCalls
  guard : row.guard = body.guard
  model : some row.model = body.modelUsed

theorem resumedRow_saidBy {s : ServerState} (env : Env) (world : World) {runId : Text}
    {body : Option Value} {data : ResumeData} {input : Flow}
    (h : Accepted s runId body data input) :
    SaidBy (bodyOf body) (resumedRow env world runId data input) := by
  obtain ⟨decision, resumeData, hcheck, hschema⟩ := h.checked
  obtain ⟨-, rfl, -, -⟩ := checkResume_eq_ok hcheck
  obtain ⟨-, hreason, hmode, hnote⟩ := resumeSchema_eq_ok hschema
  exact ⟨⟨data.decision, rfl, h.decision.1⟩, hreason, hmode, hnote⟩

/-- The input a run was suspended with gives, on its resume, a row with what was shown. -/
theorem resumedRow_shownIn (env env' : Env) (world world' : World) (runId caseId : Text)
    (report : AdjusterReport) (left : Left) (data : ResumeData) :
    ShownIn
      (suspendedBody runId caseId left
        (suspendPayload (gateFlow env world caseId left.caseRecord report)))
      (resumedRow env' world' runId data (gateFlow env world caseId left.caseRecord report)) :=
  ⟨rfl, rfl, rfl, rfl, rfl, rfl, rfl⟩

/-- A run that suspended and is resumed later, in whatever state the process, the files and the
environment are by then, leaves a row with what its answer showed and what the request said;
only where the append fails is there no row. -/
theorem shown_is_recorded (s : ServerState) (world : World) (caseId runId : Text) (body : RunBody)
    (history : List (World × Request)) (world' : World) (request : Option Value)
    (data : ResumeData) (input : Flow)
    (hrun : (postRun world caseId runId s).1 = .ran body)
    (hstatus : body.status = lit "suspended") (hfresh : runId ∉ startedIds history)
    (hacc : Accepted (serve history (postRun world caseId runId s).2) runId request data input) :
    body.caseId = caseId ∧ body.runId = runId ∧
    let before := serve history (postRun world caseId runId s).2
    let after := (postResume world' runId request before).2
    (after.disk = before.disk ∧ ¬ world'.faults.appends) ∨
      ∃ row, after.disk.log = before.disk.log ++ [row] ∧ ShownIn body row ∧
        SaidBy (bodyOf request) row := by
  obtain ⟨caseRecord, report, left, -, rfl, rfl, hs⟩ := postRun_suspended hrun hstatus
  refine ⟨rfl, rfl, ?_⟩
  intro before after
  obtain rfl := (held_after_run hs hfresh).accepted hacc
  have hafter : after.disk = (resumeRun before.env world' runId data _ before.disk).2 :=
    congrArg (fun answer => answer.2.disk) (postResume_accepted world' hacc)
  rw [hafter]
  rcases resumeRun_outcomes before.env world' runId data
    (gateFlow s.env world caseId left.caseRecord report) before.disk with
    ⟨hf, e, he⟩ | ⟨-, ⟨-, e, he⟩ | ⟨-, he⟩⟩
  · exact .inl ⟨by rw [he], hf⟩
  · exact .inr ⟨_, by rw [he]; rfl, resumedRow_shownIn .., resumedRow_saidBy _ world' hacc⟩
  · exact .inr ⟨_, by rw [he]; rfl, resumedRow_shownIn .., resumedRow_saidBy _ world' hacc⟩

/-- The case is run and suspends; the process restarts with other settings, the files change
and no review can be produced any more; then the handler approves. -/
theorem shown_is_recorded_sample :
    let s := ServerState.initial (sampleEnv true)
    let world := sampleWorld (sampleFiles .decline (some sampleWeather) none)
      (sampleCall [] (sampleReview .agreeDecline [] []))
    let world' := sampleWorld (sampleFiles .cashSettle none none) .undefined
    let approval := Value.obj [(lit "decision", .str (lit "approve"))]
    let history := [(world', Request.restart (sampleEnv false))]
    let before := serve history (postRun world (lit "A") (lit "r") s).2
    ∃ body row, (postRun world (lit "A") (lit "r") s).1 = .ran body ∧
      (postResume world' (lit "r") (some approval) before).2.disk.log = [row] ∧
      ShownIn body row ∧ SaidBy approval row := by
  intro s world world' approval history before
  have harrives := sample_arrives .decline (some sampleWeather) none true []
    (sampleReview .agreeDecline [] []) (by simp)
  obtain ⟨left, hleft, -⟩ := buildLeft_onFile harrives.onFile
  have hneeds : needsHuman (demoAlwaysGate s.env)
      (gateFlow s.env world (lit "A") sampleCase (sampleLoaded .decline)) = true := by
    have hdemo : demoAlwaysGate s.env = true := rfl
    simp [needsHuman, hdemo]
  have hrun : postRun world (lit "A") (lit "r") s = _ := postRun_suspends harrives hleft hneeds
  have hbefore : before = { (postRun world (lit "A") (lit "r") s).2 with env := sampleEnv false } :=
    serve_restart ..
  have hacc : Accepted before (lit "r") (some approval)
      { decision := .approve, reason := [], failureMode := none, domainNote := none }
      (gateFlow s.env world (lit "A") sampleCase (sampleLoaded .decline)) := by
    refine ⟨⟨.approve, _, rfl, rfl⟩, ?_⟩
    simp only [hbefore, hrun, Function.update_self]
  obtain ⟨-, -, hrow⟩ := shown_is_recorded s world (lit "A") (lit "r") _ history world'
    (some approval) _ _ (congrArg Prod.fst hrun) rfl (by simp [history, startedIds]) hacc
  -- the state before the resume under its name, so that no run is evaluated below
  rw [show serve history (postRun world (lit "A") (lit "r") s).2 = before from rfl] at hrow
  rcases hrow with ⟨-, hfaults⟩ | ⟨row, hlog, hshown, hsaid⟩
  · exact absurd ⟨rfl, rfl⟩ hfaults
  · refine ⟨_, row, congrArg Prod.fst hrun, ?_, hshown, hsaid⟩
    have hempty : before.disk.log = [] := by
      rw [hbefore, hrun]
      rfl
    rw [hlog, hempty]
    rfl

end StormReview
