import Mathlib.Data.List.Induction
import Mathlib.Order.BooleanAlgebra.Set
import StormReview.Engine.Ledger
import StormReview.Workflow.Pipeline

/-! Human sign-off over whole histories of requests. -/
namespace StormReview
open Js Zod Engine

/-! What one request can do, while the demo gate is on. -/

section request
variable {world : World} {s : ServerState} {runId : Text} {body : Option Value}

/-- A resume that the server's checks, the schema and the engine all let through. -/
structure Accepted (s : ServerState) (runId : Text) (body : Option Value) (data : ResumeData)
    (input : Flow) : Prop where
  checked : ∃ decision resumeData, checkResume (bodyOf body) = .ok (decision, resumeData) ∧
    resumeSchema resumeData = .ok data
  suspended : s.runs runId = .suspended "gate" input

/-- What the server and the schema together ask of a decision; neither does so alone. -/
structure LawfulDecision (d : Decision) (reason : Text) (failureMode : Option FailureMode) :
    Prop where
  override : d = .override → reason ≠ [] ∧ failureMode.isSome = true
  escalate : d = .escalate → reason ≠ []

theorem resumeSchema_eq_ok {v : Value} {data : ResumeData} (h : resumeSchema v = .ok data) :
    v.get (lit "decision") = word data.decision ∧ v.get (lit "reason") = .str data.reason ∧
      optional enum (v.get (lit "failureMode")) = .ok data.failureMode ∧
      optional string (v.get (lit "domainNote")) = .ok data.domainNote := by
  have h := object_eq_ok h
  simp only [Parsed.seq_eq_ok, Parsed.map_eq_ok, field_eq_ok] at h
  obtain ⟨_, note, ⟨_, mode, ⟨_, reason, ⟨d, hd, rfl⟩, hr, rfl⟩, hm, rfl⟩, hn, rfl⟩ := h
  exact ⟨enum_eq_ok.mp hd, string_eq_ok.mp hr, hm, hn⟩

theorem checkResume_eq_ok {v resumeData : Value} {decision : Decision}
    (h : checkResume v = .ok (decision, resumeData)) :
    v.get (lit "decision") = word decision ∧
      resumeData = .obj [(lit "decision", word decision),
        (lit "reason", (v.get (lit "reason")).orElse (.str [])),
        (lit "failureMode", v.get (lit "failureMode")),
        (lit "domainNote", v.get (lit "domainNote"))] ∧
      (decision = .override ∨ decision = .escalate → (v.get (lit "reason")).truthy = true) ∧
      (decision = .override → (v.get (lit "failureMode")).truthy = true) := by
  unfold checkResume at h
  cases hd : (enum (v.get (lit "decision")) : Parsed Decision) with
  | issues found => simp [hd] at h
  | ok d =>
    simp only [hd] at h
    split at h
    · cases h
    · rename_i hreason
      split at h
      · cases h
      · rename_i hmode
        simp only [Except.ok.injEq, Prod.mk.injEq] at h
        obtain ⟨rfl, rfl⟩ := h
        refine ⟨enum_eq_ok.mp hd, rfl, fun ho => ?_, fun ho => ?_⟩
        · simpa [ho] using hreason
        · simpa [ho] using hmode

/-- What is accepted is the decision of the body, and a lawful one. -/
theorem Accepted.decision {data : ResumeData} {input : Flow}
    (h : Accepted s runId body data input) :
    (bodyOf body).get (lit "decision") = word data.decision ∧
      LawfulDecision data.decision data.reason data.failureMode := by
  obtain ⟨decision, resumeData, hcheck, hschema⟩ := h.checked
  obtain ⟨hbody, rfl, hreason, hmode⟩ := checkResume_eq_ok hcheck
  obtain ⟨hd, hr, hm, -⟩ := resumeSchema_eq_ok hschema
  obtain rfl : decision = data.decision := by
    have hword : word decision = word data.decision := hd
    exact Enum.text_inj _ _ (by simpa [word] using hword)
  -- the two required fields, as the engine receives them
  have hreason' : ((bodyOf body).get (lit "reason")).orElse (.str []) = .str data.reason := hr
  have hmode' : optional enum ((bodyOf body).get (lit "failureMode")) = .ok data.failureMode := hm
  have hgiven (hneeds : data.decision = .override ∨ data.decision = .escalate) :
      data.reason ≠ [] := by
    have ht := hreason hneeds
    rw [Value.orElse_of_not_nullish (Value.isNullish_of_truthy ht)] at hreason'
    rw [hreason'] at ht
    exact (Value.truthy_str_iff _).mp ht
  refine ⟨hbody, fun ho => ⟨hgiven (.inl ho), ?_⟩, fun he => hgiven (.inr he)⟩
  obtain ⟨mode, -, hsome⟩ := optional_eq_ok_of_truthy (hmode ho) hmode'
  simp [hsome]

/-- What the gate hands on when it is resumed. -/
def ResumeData.decided (data : ResumeData) (input : Flow) : Flow :=
  { input with humanDecision := some data.humanDecision, needsHuman := some true }

/-- The row that a resumed run appends, if it appends one. -/
def resumedRow (env : Env) (world : World) (runId : Text) (data : ResumeData) (input : Flow) :
    AuditEntry :=
  rowOf env world runId
    { input with humanDecision := some data.humanDecision, needsHuman := some true }

/-- What a resumed execution can end in. -/
theorem resumeRun_outcomes (env : Env) (world : World) (runId : Text) (data : ResumeData)
    (input : Flow) (disk : AuditDisk) :
    (¬ world.faults.appends ∧
      ∃ e, resumeRun env world runId data input disk = (.failed e, disk)) ∨
    (world.faults.appends ∧
      ((¬ world.faults.writes (notePathOf world runId input) ∧
          ∃ e, resumeRun env world runId data input disk =
            (.failed e, withRow env world runId (data.decided input) disk)) ∨
        (world.faults.writes (notePathOf world runId input) ∧
          resumeRun env world runId data input disk =
            (.success (recordedFlow world runId (data.decided input)),
              withNote env world runId (data.decided input) disk)))) := by
  rw [resumeRun_eq]
  exact drive_record_cases env world runId (data.decided input) disk

/-- Where the append works, a resumed run leaves its row, whatever becomes of the note. -/
theorem resumeRun_log (env : Env) {world : World} (runId : Text) (data : ResumeData)
    (input : Flow) (disk : AuditDisk) (h : world.faults.appends) :
    (resumeRun env world runId data input disk).2.log =
      disk.log ++ [resumedRow env world runId data input] := by
  rcases resumeRun_outcomes env world runId data input disk with
    ⟨hf, -⟩ | ⟨-, ⟨-, e, he⟩ | ⟨-, he⟩⟩
  · exact absurd h hf
  · rw [he]
    rfl
  · rw [he]
    rfl

/-- A resumed run is closed, and its log is as before or has one row more. -/
theorem resumeRun_cases (env : Env) (world : World) (runId : Text) (data : ResumeData)
    (input : Flow) (disk : AuditDisk) :
    (resumeRun env world runId data input disk).1.status = .closed ∧
      ((resumeRun env world runId data input disk).2 = disk ∨
        (resumeRun env world runId data input disk).2.log =
          disk.log ++ [resumedRow env world runId data input]) := by
  rcases resumeRun_outcomes env world runId data input disk with
    ⟨-, e, he⟩ | ⟨-, ⟨-, e, he⟩ | ⟨-, he⟩⟩
  · rw [he]
    exact ⟨rfl, .inl rfl⟩
  · rw [he]
    exact ⟨rfl, .inr rfl⟩
  · rw [he]
    exact ⟨rfl, .inr rfl⟩

/-- How an accepted resume comes through the handler: its decision is the one of the data. -/
theorem Accepted.decoded {data : ResumeData} {input : Flow} (h : Accepted s runId body data input) :
    ∃ resumeData, checkResume (bodyOf body) = .ok (data.decision, resumeData) ∧
      resumeSchema resumeData = .ok data ∧ (s.runs runId).inputAt "gate" = some input := by
  obtain ⟨decision, resumeData, hcheck, hschema⟩ := h.checked
  obtain ⟨-, rfl, -, -⟩ := checkResume_eq_ok hcheck
  obtain ⟨hd, -, -, -⟩ := resumeSchema_eq_ok hschema
  obtain rfl : decision = data.decision :=
    Enum.text_inj _ _ (by simpa [word] using (show word decision = word data.decision from hd))
  exact ⟨_, hcheck, hschema, Status.inputAt_eq_some.mpr h.suspended⟩

/-- The answer to an accepted resume, and the state it leaves. -/
theorem postResume_accepted (world : World) {data : ResumeData} {input : Flow}
    (h : Accepted s runId body data input) :
    let res := resumeRun s.env world runId data input s.disk
    postResume world runId body s =
      (.resumed runId (statusText res.1) data.decision ((finalState res.1).bind (·.audit)),
        { s with runs := Function.update s.runs runId .closed, disk := res.2 }) := by
  intro res
  obtain ⟨resumeData, hcheck, hschema, hinput⟩ := h.decoded
  have hclosed : res.1.status = .closed := (resumeRun_cases _ _ _ _ _ _).1
  simp only [postResume, hcheck, hinput, hschema]
  rw [← hclosed]

theorem postResume_cases (world : World) (runId : Text) (body : Option Value) (s : ServerState) :
    (postResume world runId body s).2 = s ∨
    ∃ data input, Accepted s runId body data input ∧
      (postResume world runId body s).2 =
        { s with
          runs := Function.update s.runs runId .closed
          disk := (resumeRun s.env world runId data input s.disk).2 } := by
  cases hc : checkResume (bodyOf body) with
  | error error => exact .inl (by simp only [postResume, hc])
  | ok checked =>
    obtain ⟨decision, resumeData⟩ := checked
    cases hi : (s.runs runId).inputAt "gate" with
    | none => exact .inl (by simp only [postResume, hc, hi])
    | some input =>
      cases hs : resumeSchema resumeData with
      | issues found => exact .inl (by simp only [postResume, hc, hi, hs])
      | ok data =>
        have hacc : Accepted s runId body data input :=
          ⟨⟨decision, resumeData, hc, hs⟩, Status.inputAt_eq_some.mp hi⟩
        exact .inr ⟨data, input, hacc, congrArg Prod.snd (postResume_accepted world hacc)⟩

/-- With the demo gate on, a started run waits at the gate or is over, and nothing is written. -/
theorem postRun_cases (hdemo : demoAlwaysGate s.env = true) (world : World) (caseId runId : Text) :
    (postRun world caseId runId s).2 = s ∨
    ∃ status, (status = .closed ∨ ∃ input, status = .suspended "gate" input) ∧
      (postRun world caseId runId s).2 = { s with runs := Function.update s.runs runId status } := by
  unfold postRun
  cases hl : buildLeft world.files caseId with
  | none => exact .inl rfl
  | some left =>
    refine .inr ?_
    by_cases harrives : ∃ caseRecord report, Arrives s.env world caseId caseRecord report
    · obtain ⟨caseRecord, report, h⟩ := harrives
      have hneeds : needsHuman (demoAlwaysGate s.env)
          (gateFlow s.env world caseId caseRecord report) = true := by simp [needsHuman, hdemo]
      refine ⟨_, .inr ⟨gateFlow s.env world caseId caseRecord report, rfl⟩, ?_⟩
      simp [startRun_suspends h hneeds, Result.status]
    · obtain ⟨e, he⟩ : ∃ e, startRun s.env world runId caseId s.disk = (.failed e, s.disk) :=
        startRun_not_arrives harrives runId s.disk
      refine ⟨.closed, .inl rfl, ?_⟩
      simp [he, Result.status]

end request
/-! Histories, and the ledger of sign-offs they keep. -/

def ServerState.initial (env : Env) : ServerState where
  env
  runs := fun _ => .absent
  disk := { log := [], notes := fun _ => none }

/-- The ids the engine gives to the runs of a history. -/
def startedIds (history : List (World × Request)) : List Text :=
  history.filterMap fun e =>
    match e.2 with
    | .run _ runId => some runId
    | _ => none

/-- Every process of the history is started with the demo gate on. -/
def RestartsGated (history : List (World × Request)) : Prop :=
  ∀ e ∈ history, ∀ env, e.2 = .restart env → demoAlwaysGate env = true

/-- A run waits while it is suspended at the gate; a row is its signature. -/
def ledgerOf (s : ServerState) : Ledger.State Text AuditEntry where
  waiting := { runId | ∃ input, s.runs runId = .suspended "gate" input }
  signed := s.disk.log.map fun row => (row.runId, row)

/-- A row for the run it names, signed by a human and lawful. -/
def Admissible (runId : Text) (row : AuditEntry) : Prop :=
  row.runId = runId ∧
    ∃ d, row.decision = .signed d ∧ LawfulDecision d row.reason row.failureMode

theorem serve_append (history : List (World × Request)) (e : World × Request) (s : ServerState) :
    serve (history ++ [e]) s = (handle e.1 e.2 (serve history s)).2 := by
  simp [serve]

/-- What holds after a history: the gate is on, only started runs exist, and a run with a row is
over. -/
structure Tracked (history : List (World × Request)) (s : ServerState) : Prop where
  gated : demoAlwaysGate s.env = true
  started : ∀ runId, runId ∉ startedIds history → s.runs runId = .absent
  settled : ∀ row ∈ s.disk.log, s.runs row.runId = .closed

theorem resumedRow_admissible {s : ServerState} (world : World) {runId : Text}
    {body : Option Value} {data : ResumeData} {input : Flow}
    (h : Accepted s runId body data input) :
    Admissible runId (resumedRow s.env world runId data input) :=
  ⟨rfl, data.decision, rfl, h.decision.2⟩

section step
variable {history : List (World × Request)} {s : ServerState}

theorem Tracked.extend (hs : Tracked history s) (e : World × Request) :
    Tracked (history ++ [e]) s where
  gated := hs.gated
  started runId hid := hs.started runId fun h =>
    hid (by rw [startedIds, List.filterMap_append]; exact List.mem_append_left _ h)
  settled := hs.settled

theorem waiting_closed (s : ServerState) (runId : Text) :
    { id | ∃ input, Function.update s.runs runId Status.closed id = .suspended "gate" input } =
      (ledgerOf s).waiting \ {runId} := by
  ext id
  by_cases h : id = runId
  · subst h
    simp
  · simp [ledgerOf, h]

theorem waiting_suspended (s : ServerState) (runId : Text) (input : Flow) :
    { id | ∃ flow, Function.update s.runs runId (.suspended "gate" input) id =
        .suspended "gate" flow } = insert runId (ledgerOf s).waiting := by
  ext id
  by_cases h : id = runId
  · subst h
    simp
  · simp [ledgerOf, h]

/-- Starting a run under a fresh id opens it, or leaves the ledger as it is. -/
theorem run_tracked (hs : Tracked history s) (world : World) (caseId : Text) {runId : Text}
    (hfresh : runId ∉ startedIds history) :
    Tracked (history ++ [(world, .run caseId runId)]) (postRun world caseId runId s).2 ∧
      (ledgerOf (postRun world caseId runId s).2 = ledgerOf s ∨
        Ledger.Step Admissible (ledgerOf s) (ledgerOf (postRun world caseId runId s).2)) := by
  have habsent : s.runs runId = .absent := hs.started runId hfresh
  have hrow : ∀ row ∈ s.disk.log, row.runId ≠ runId := by
    rintro row hmem rfl
    simp [hs.settled row hmem] at habsent
  rcases postRun_cases hs.gated world caseId runId with h | ⟨status, hstatus, h⟩
  · rw [h]
    exact ⟨hs.extend _, .inl rfl⟩
  · rw [h]
    have htracked : Tracked (history ++ [(world, .run caseId runId)])
        { s with runs := Function.update s.runs runId status } := by
      refine ⟨hs.gated, fun id hid => ?_, fun row hmem => ?_⟩
      · have hne : id ≠ runId ∧ id ∉ startedIds history := by
          simpa [startedIds, not_or, and_comm] using hid
        simp [hne.1, hs.started id hne.2]
      · simp [hrow row hmem, hs.settled row hmem]
    refine ⟨htracked, ?_⟩
    rcases hstatus with rfl | ⟨input, rfl⟩
    · refine .inl ?_
      have hout : runId ∉ (ledgerOf s).waiting := by simp [ledgerOf, habsent]
      have hwaiting := waiting_closed s runId
      rw [Set.sdiff_singleton_eq_self hout] at hwaiting
      exact congrArg (Ledger.State.mk · (ledgerOf s).signed) hwaiting
    · refine .inr ?_
      have hout : runId ∉ (ledgerOf s).waiting := by simp [ledgerOf, habsent]
      have hsigned : runId ∉ (ledgerOf s).signed.map Prod.fst := by
        simpa [ledgerOf] using hrow
      have hstep : Ledger.Step Admissible (ledgerOf s) _ := .opened hout hsigned
      rw [← waiting_suspended s runId input] at hstep
      exact hstep

/-- A resume changes nothing, or takes its run out of the waiting room, signed or not. -/
theorem resume_tracked (hs : Tracked history s) (world : World) (runId : Text)
    (body : Option Value) :
    Tracked (history ++ [(world, .resume runId body)]) (postResume world runId body s).2 ∧
      (ledgerOf (postResume world runId body s).2 = ledgerOf s ∨
        Ledger.Step Admissible (ledgerOf s) (ledgerOf (postResume world runId body s).2)) := by
  rcases postResume_cases world runId body s with h | ⟨data, input, hacc, h⟩
  · rw [h]
    exact ⟨hs.extend _, .inl rfl⟩
  · rw [h]
    have hin : runId ∈ (ledgerOf s).waiting := ⟨input, hacc.suspended⟩
    obtain ⟨-, hlog⟩ := resumeRun_cases s.env world runId data input s.disk
    have hclosed : ∀ row ∈ s.disk.log, Function.update s.runs runId .closed row.runId = .closed := by
      intro row hmem
      by_cases hr : row.runId = runId
      · simp [hr]
      · simp [hr, hs.settled row hmem]
    have hstarted : ∀ id, id ∉ startedIds (history ++ [(world, .resume runId body)]) →
        Function.update s.runs runId .closed id = .absent := by
      intro id hid
      have habsent := (hs.extend (world, .resume runId body)).started id hid
      have hne : id ≠ runId := by
        rintro rfl
        simp [hacc.suspended] at habsent
      simpa [hne] using habsent
    rcases hlog with hdisk | hlog
    · refine ⟨⟨hs.gated, hstarted, by simpa only [hdisk] using hclosed⟩, .inr ?_⟩
      have hstep : Ledger.Step Admissible (ledgerOf s) _ := .dropped hin
      rw [← waiting_closed s runId] at hstep
      rw [hdisk]
      exact hstep
    · refine ⟨⟨hs.gated, hstarted, ?_⟩, .inr ?_⟩
      · simp only [hlog]
        intro row hmem
        rcases List.mem_append.mp hmem with hmem | hmem
        · exact hclosed row hmem
        · obtain rfl := List.mem_singleton.mp hmem
          exact Function.update_self ..
      · have hstep : Ledger.Step Admissible (ledgerOf s) _ :=
          .signedOff hin (resumedRow_admissible world hacc)
        rw [← waiting_closed s runId] at hstep
        simp only [ledgerOf, hlog, List.map_append, List.map_cons, List.map_nil]
        exact hstep

end step

/-- One request, on a tracked state: the ledger stands still or makes one of its steps. -/
theorem handle_tracked {history : List (World × Request)} {s : ServerState}
    (hs : Tracked history s) (e : World × Request)
    (hgated : ∀ env, e.2 = .restart env → demoAlwaysGate env = true)
    (hfresh : ∀ caseId runId, e.2 = .run caseId runId → runId ∉ startedIds history) :
    Tracked (history ++ [e]) (handle e.1 e.2 s).2 ∧
      (ledgerOf (handle e.1 e.2 s).2 = ledgerOf s ∨
        Ledger.Step Admissible (ledgerOf s) (ledgerOf (handle e.1 e.2 s).2)) := by
  obtain ⟨world, request⟩ := e
  cases request with
  | restart env =>
    have hext := hs.extend (world, .restart env)
    exact ⟨⟨hgated env rfl, hext.started, hext.settled⟩, .inl rfl⟩
  | run caseId runId => exact run_tracked hs world caseId (hfresh caseId runId rfl)
  | resume runId body => exact resume_tracked hs world runId body

theorem restartsGated_append {history : List (World × Request)} {e : World × Request}
    (h : RestartsGated (history ++ [e])) : RestartsGated history ∧
      ∀ env, e.2 = .restart env → demoAlwaysGate env = true :=
  ⟨fun x hx => h x (List.mem_append_left _ hx), h e (by simp)⟩

theorem startedIds_append {history : List (World × Request)} {e : World × Request}
    (h : (startedIds (history ++ [e])).Nodup) : (startedIds history).Nodup ∧
      ∀ caseId runId, e.2 = .run caseId runId → runId ∉ startedIds history := by
  rw [startedIds, List.filterMap_append] at h
  refine ⟨h.of_append_left, fun caseId runId he hmem => ?_⟩
  refine List.disjoint_of_nodup_append h hmem ?_
  simp [he]

/-- Over a whole history the server keeps the ledger. -/
theorem serve_tracked (env : Env) (history : List (World × Request))
    (henv : demoAlwaysGate env = true) (hgated : RestartsGated history)
    (hfresh : (startedIds history).Nodup) :
    Tracked history (serve history (.initial env)) ∧
      Relation.ReflTransGen (Ledger.Step Admissible) (ledgerOf (.initial env))
        (ledgerOf (serve history (.initial env))) := by
  induction history using List.reverseRecOn with
  | nil =>
    exact ⟨⟨henv, fun _ _ => rfl, fun row hmem => by simp [serve, ServerState.initial] at hmem⟩,
      .refl⟩
  | append_singleton history e ih =>
    obtain ⟨hgated', he⟩ := restartsGated_append hgated
    obtain ⟨hfresh', hnew⟩ := startedIds_append hfresh
    obtain ⟨htracked, hsteps⟩ := ih hgated' hfresh'
    rw [serve_append]
    obtain ⟨hnext, hsame | hstep⟩ := handle_tracked htracked e he hnew
    · exact ⟨hnext, hsame ▸ hsteps⟩
    · exact ⟨hnext, hsteps.tail hstep⟩

/-- The request that appended a row. -/
structure AppendedBy (env : Env) (history : List (World × Request)) (row : AuditEntry)
    (before : List (World × Request)) (world : World) (body : Option Value)
    (data : ResumeData) : Prop where
  occurs : ∃ after, history = before ++ (world, .resume row.runId body) :: after
  accepted : ∃ input, Accepted (serve before (.initial env)) row.runId body data input ∧
    row = resumedRow (serve before (.initial env)).env world row.runId data input
  appended : (serve (before ++ [(world, .resume row.runId body)]) (.initial env)).disk.log =
    (serve before (.initial env)).disk.log ++ [row]

theorem AppendedBy.extend {env : Env} {history : List (World × Request)} {row : AuditEntry}
    {before : List (World × Request)} {world : World} {body : Option Value} {data : ResumeData}
    (h : AppendedBy env history row before world body data) (e : World × Request) :
    AppendedBy env (history ++ [e]) row before world body data := by
  obtain ⟨after, rfl⟩ := h.occurs
  exact ⟨⟨after ++ [e], by simp⟩, h.accepted, h.appended⟩

/-- Every row was appended by an accepted resume of a run that was waiting at the gate. -/
theorem rows_appended (env : Env) (history : List (World × Request))
    (henv : demoAlwaysGate env = true) (hgated : RestartsGated history)
    (hfresh : (startedIds history).Nodup) (row : AuditEntry)
    (hrow : row ∈ (serve history (.initial env)).disk.log) :
    ∃ before world body data, AppendedBy env history row before world body data := by
  induction history using List.reverseRecOn with
  | nil => simp [serve, ServerState.initial] at hrow
  | append_singleton history e ih =>
    obtain ⟨hgated', -⟩ := restartsGated_append hgated
    obtain ⟨hfresh', -⟩ := startedIds_append hfresh
    have htracked := (serve_tracked env history henv hgated' hfresh').1
    have hold (hmem : row ∈ (serve history (.initial env)).disk.log) :
        ∃ before world body data, AppendedBy env (history ++ [e]) row before world body data := by
      obtain ⟨before, world, body, data, h⟩ := ih hgated' hfresh' hmem
      exact ⟨before, world, body, data, h.extend e⟩
    rw [serve_append] at hrow
    obtain ⟨world, request⟩ := e
    cases request with
    | restart env' => exact hold hrow
    | run caseId runId =>
      rcases postRun_cases htracked.gated world caseId runId with h | ⟨status, -, h⟩
      · exact hold (by simpa only [handle, h] using hrow)
      · exact hold (by simpa only [handle, h] using hrow)
    | resume runId body =>
      rcases postResume_cases world runId body (serve history (.initial env)) with
        h | ⟨data, input, hacc, h⟩
      · exact hold (by simpa only [handle, h] using hrow)
      · have hafter : (serve (history ++ [(world, .resume runId body)]) (.initial env)).disk =
            (resumeRun (serve history (.initial env)).env world runId data input
              (serve history (.initial env)).disk).2 := by
          rw [serve_append]
          simp only [handle, h]
        simp only [handle, h] at hrow
        obtain ⟨-, hdisk | hlog⟩ := resumeRun_cases (serve history (.initial env)).env world runId
          data input (serve history (.initial env)).disk
        · exact hold (by simpa only [hdisk] using hrow)
        · rw [hlog] at hrow
          rcases List.mem_append.mp hrow with hmem | hmem
          · exact hold hmem
          · obtain rfl := List.mem_singleton.mp hmem
            exact ⟨history, world, body, data, ⟨[], rfl⟩, ⟨input, hacc, rfl⟩,
              (congrArg AuditDisk.log hafter).trans hlog⟩

/-- A request answered with an error before, or by, the engine changes nothing. -/
theorem handle_error_unchanged (world : World) (request : Request) (s : ServerState)
    (h : (∃ code error, (handle world request s).1 = .refused code error) ∨
      ∃ runId error, (handle world request s).1 = .rejected runId error) :
    (handle world request s).2 = s := by
  cases request with
  | restart env => simp [handle] at h
  | run caseId runId =>
    cases hl : buildLeft world.files caseId with
    | none => simp [handle, postRun, hl]
    | some left => simp [handle, postRun, hl] at h
  | resume runId body =>
    cases hc : checkResume (bodyOf body) with
    | error error => simp [handle, postResume, hc]
    | ok checked =>
      cases hi : (s.runs runId).inputAt "gate" with
      | none => simp [handle, postResume, hc, hi]
      | some input =>
        cases hs : resumeSchema checked.2 with
        | issues found => simp [handle, postResume, hc, hi, hs]
        | ok data => simp [handle, postResume, hc, hi, hs] at h

/-- With the demo gate on, over every history: each row was appended by an accepted resume of a
run suspended at the gate, carries the decision of that request, and is the only row of its run;
an override has its reason and failure mode, an escalation its reason; and a request answered
with an error leaves everything as it was. -/
theorem signed_off (env : Env) (history : List (World × Request))
    (henv : demoAlwaysGate env = true) (hgated : RestartsGated history)
    (hfresh : (startedIds history).Nodup) :
    ((serve history (.initial env)).disk.log.map (·.runId)).Nodup ∧
      (∀ row ∈ (serve history (.initial env)).disk.log,
        ∃ before world body data, AppendedBy env history row before world body data ∧
          row.decision = .signed data.decision ∧
          (bodyOf body).get (lit "decision") = word data.decision ∧
          (data.decision = .override → row.reason ≠ [] ∧ row.failureMode.isSome = true) ∧
          (data.decision = .escalate → row.reason ≠ [])) ∧
      ∀ world request,
        ((∃ code error, (handle world request (serve history (.initial env))).1 =
            .refused code error) ∨
          ∃ runId error, (handle world request (serve history (.initial env))).1 =
            .rejected runId error) →
        (handle world request (serve history (.initial env))).2 = serve history (.initial env) := by
  have hsound : Ledger.Sound Admissible (ledgerOf (serve history (.initial env))) :=
    Ledger.sound_of_steps (serve_tracked env history henv hgated hfresh).2
      (Ledger.sound_empty _)
  refine ⟨?_, fun row hrow => ?_, fun world request => handle_error_unchanged world request _⟩
  · simpa [ledgerOf, Function.comp_def] using hsound.once
  · obtain ⟨before, world, body, data, h⟩ := rows_appended env history henv hgated hfresh row hrow
    obtain ⟨input, hacc, heq⟩ := h.accepted
    obtain ⟨hbody, hlawful⟩ := hacc.decision
    refine ⟨before, world, body, data, h, ?_, hbody, fun ho => ?_, fun he => ?_⟩
    · rw [heq]
      rfl
    · rw [heq]
      exact hlawful.override ho
    · rw [heq]
      exact hlawful.escalate he

/-- A run that suspends, an escalation without a reason, a restart, and an override. -/
def sampleHistory : List (World × Request) :=
  let world := sampleWorld (sampleFiles .decline (some sampleWeather) none) .undefined
  [(world, .run (lit "A") (lit "r1")),
    (world, .resume (lit "r1") (some (.obj [(lit "decision", .str (lit "escalate"))]))),
    (world, .restart (sampleEnv true)),
    (world, .resume (lit "r1") (some (.obj [(lit "decision", .str (lit "override")),
      (lit "reason", .str (lit "burden")), (lit "failureMode", .str (lit "reasoning"))])))]

theorem signed_off_sample :
    ((serve sampleHistory (.initial (sampleEnv true))).disk.log.map (·.decision) =
        [.signed .override]) ∧
      ((serve sampleHistory (.initial (sampleEnv true))).disk.log.map (·.runId)).Nodup := by
  have hgated : RestartsGated sampleHistory := by
    intro e he env hrestart
    simp only [sampleHistory, List.mem_cons, List.not_mem_nil, or_false] at he
    rcases he with rfl | rfl | rfl | rfl
    · cases hrestart
    · cases hrestart
    · cases hrestart
      decide
    · cases hrestart
  exact ⟨rfl, (signed_off (sampleEnv true) sampleHistory (by decide) hgated (by decide)).1⟩

end StormReview
