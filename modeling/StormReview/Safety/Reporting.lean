import StormReview.Server.Guarded
import StormReview.Safety.AutoFile
import StormReview.Safety.Fidelity

/-! Whether the server's answers say what the audit log holds, however the steps end. -/
namespace StormReview
open Js Zod Engine

section start
variable {stop : Stop} {env : Env} {world : World} {runId caseId : Text} {disk : AuditDisk}

/-- No step throws by itself before the gate has decided. -/
def Undisturbed (stop : Stop) : Prop :=
  stop "prefetch" = none ∧ stop "review" = none ∧ stop "guard" = none ∧ stop "gate" = none

/-- A run fails before its gate has decided, with nothing written, or it reaches the gate. -/
theorem startGuarded_cases :
    (¬ (Undisturbed stop ∧ ∃ caseRecord report, Arrives env world caseId caseRecord report) ∧
      ∃ e, startGuarded stop env world runId caseId disk = (.failed e, disk)) ∨
    (Undisturbed stop ∧ ∃ caseRecord report, Arrives env world caseId caseRecord report ∧
      startGuarded stop env world runId caseId disk =
        drive [gateStep env, (recordStep env world runId).guarded stop] none
          (gateFlow env world caseId caseRecord report) disk) := by
  have hstopped {id : String} {e : Thrown} (hid : Undisturbed stop → stop id = none)
      (hstop : stop id = some e) :
      ¬ (Undisturbed stop ∧ ∃ caseRecord report, Arrives env world caseId caseRecord report) :=
    fun hreach => by simp [hid hreach.1] at hstop
  simp only [startGuarded, guardedReview, stormReview, List.map_cons, List.map_nil, start]
  cases hp : stop "prefetch" with
  | some e => exact .inl ⟨hstopped (·.1) hp, e, drive_guarded_stopped hp⟩
  | none =>
    rw [drive_guarded_none (by exact hp)]
    by_cases hfile : ∃ caseRecord report, OnFile world.files caseId caseRecord report
    · obtain ⟨caseRecord, report, hfile⟩ := hfile
      rw [drive_quiet_next (prefetch_onFile hfile)]
      cases hr : stop "review" with
      | some e => exact .inl ⟨hstopped (·.2.1) hr, e, drive_guarded_stopped hr⟩
      | none =>
        rw [drive_guarded_none (by exact hr)]
        by_cases htexts : DrnsAreTexts env world caseId caseRecord report
        · rw [drive_quiet_next (f := fun _ => review env world) (review_texts htexts)]
          cases hg : stop "guard" with
          | some e => exact .inl ⟨hstopped (·.2.2.1) hg, e, drive_guarded_stopped hg⟩
          | none =>
            rw [drive_guarded_none (by exact hg), drive_quiet_next guard_onFile]
            cases ht : stop "gate" with
            | some e => exact .inl ⟨hstopped (·.2.2.2) ht, e, drive_guarded_stopped ht⟩
            | none =>
              rw [drive_guarded_none (by exact ht)]
              exact .inr ⟨⟨hp, hr, hg, ht⟩, caseRecord, report, ⟨hfile, htexts⟩, rfl⟩
        · obtain ⟨e, he⟩ := review_notTexts htexts
          exact .inl ⟨fun hreach => Arrives.not_of_notTexts hfile htexts hreach.2, e,
            drive_quiet_throw (f := fun _ => review env world) he⟩
    · obtain ⟨e, he⟩ := prefetch_offFile hfile
      have hnot : ¬ ∃ caseRecord report, Arrives env world caseId caseRecord report := by
        rintro ⟨caseRecord, report, harrives⟩
        exact hfile ⟨caseRecord, report, harrives.onFile⟩
      exact .inl ⟨fun hreach => hnot hreach.2, e, drive_quiet_throw he⟩

/-- The record step, as the engine reports it, with an exception of its own. -/
theorem drive_guarded_record (flow : Flow) :
    ((∃ e, drive [(recordStep env world runId).guarded stop] none flow disk = (.failed e, disk)) ∧
      ¬ (stop "record" = none ∧ world.faults.appends)) ∨
    (stop "record" = none ∧ world.faults.appends ∧
      (drive [(recordStep env world runId).guarded stop] none flow disk).2.log =
        disk.log ++ [rowOf env world runId flow]) := by
  cases hs : stop "record" with
  | some e => exact .inl ⟨⟨e, drive_guarded_stopped hs⟩, by simp⟩
  | none =>
    rw [drive_guarded_none (by exact hs)]
    by_cases happends : world.faults.appends
    · exact .inr ⟨rfl, happends, drive_record_log _ _ _ _ _ happends⟩
    · rcases drive_record_cases env world runId flow disk with ⟨-, he⟩ | ⟨h, -⟩
      · exact .inl ⟨he, fun h => happends h.2⟩
      · exact absurd h happends

end start

/-! POST /run. -/

section run
variable (stop : Stop) (world : World) (caseId runId : Text) (s : ServerState)

/-- An answer that says auto-filed has appended the row that says so. -/
def AutoFilingTruthful : Prop :=
  ∀ body, (postRunGuarded stop world caseId runId s).1 = .ran body → body.autoFiled = true →
    ∃ row, (postRunGuarded stop world caseId runId s).2.disk.log = s.disk.log ++ [row] ∧
      row.runId = runId ∧ row.decision = .autoFiled

/-- The run gets through its gate, and where it files itself the row can be appended. -/
def FilesCleanly : Prop :=
  Undisturbed stop ∧ ∃ caseRecord report, OnFile world.files caseId caseRecord report ∧
    DrnsAreTexts s.env world caseId caseRecord report ∧
    (demoAlwaysGate s.env = false →
      (∃ rev, CleanAgreement s.env world caseId caseRecord report rev) →
      stop "record" = none ∧ world.faults.appends)

variable {stop world caseId runId s}

/-- A run that did not suspend is answered as auto-filed, whatever it ended in. -/
theorem postRunGuarded_answer {left : Left} (hleft : buildLeft world.files caseId = some left) :
    ∃ body, (postRunGuarded stop world caseId runId s).1 = .ran body ∧
      (postRunGuarded stop world caseId runId s).2.disk =
        (startGuarded stop s.env world runId caseId s.disk).2 ∧
      (body.autoFiled = false ↔ ∃ step input payload,
        (startGuarded stop s.env world runId caseId s.disk).1 = .suspended step input payload) := by
  unfold postRunGuarded
  rw [hleft]
  refine ⟨_, rfl, rfl, ?_⟩
  cases (startGuarded stop s.env world runId caseId s.disk).1 <;>
    simp [suspendedBody, finishedBody]

theorem buildLeft_eq_none : buildLeft world.files caseId = none ↔
    loadCase world.files caseId = none := by
  rw [buildLeft, Option.map_eq_none_iff]

/-- A failed run is answered as auto-filed, although nothing was appended. -/
theorem not_truthful_of_failed (hknown : loadCase world.files caseId ≠ none) {e : Thrown}
    (h : startGuarded stop s.env world runId caseId s.disk = (.failed e, s.disk)) :
    ¬ AutoFilingTruthful stop world caseId runId s := by
  intro htruthful
  obtain ⟨left, hleft⟩ := Option.ne_none_iff_exists'.mp (mt buildLeft_eq_none.mp hknown)
  obtain ⟨body, hbody, hdisk, hfiled⟩ := @postRunGuarded_answer stop world caseId runId s left hleft
  have htrue : body.autoFiled = true := by
    rw [← Bool.not_eq_false, hfiled, h]
    simp
  obtain ⟨row, hlog, -⟩ := htruthful body hbody htrue
  rw [hdisk, h] at hlog
  simp at hlog

end run

/-- The answer is truthful exactly where the case is unknown, or no step throws on the way to
the gate and a run that is filed there gets its row. -/
theorem auto_filing_truthful_iff (stop : Stop) (world : World) (caseId runId : Text)
    (s : ServerState) : AutoFilingTruthful stop world caseId runId s ↔
      loadCase world.files caseId = none ∨ FilesCleanly stop world caseId s := by
  by_cases hknown : loadCase world.files caseId = none
  · refine iff_of_true (fun body hbody => ?_) (.inl hknown)
    simp [postRunGuarded, buildLeft_eq_none.mpr hknown] at hbody
  · have hneeds {caseRecord : CaseRecord} {report : AdjusterReport} :
        needsHuman (demoAlwaysGate s.env) (gateFlow s.env world caseId caseRecord report) = false ↔
          demoAlwaysGate s.env = false ∧
            ∃ rev, CleanAgreement s.env world caseId caseRecord report rev := needsHuman_gateFlow _
    rw [or_iff_right hknown]
    constructor
    · intro htruthful
      rcases @startGuarded_cases stop s.env world runId caseId s.disk with
        ⟨-, e, he⟩ | ⟨hquiet, caseRecord, report, harrives, hstart⟩
      · exact absurd htruthful (not_truthful_of_failed hknown he)
      · refine ⟨hquiet, caseRecord, report, harrives.onFile, harrives.texts, fun hdemo hclean => ?_⟩
        rw [drive_gate_files _ (hneeds.mpr ⟨hdemo, hclean⟩)] at hstart
        rcases drive_guarded_record _ with ⟨⟨e, he⟩, -⟩ | ⟨hrecord, happends, -⟩
        · exact absurd htruthful (not_truthful_of_failed hknown (hstart.trans he))
        · exact ⟨hrecord, happends⟩
    · rintro ⟨hquiet, caseRecord, report, hfile, htexts, hfiles⟩ body hbody hfiled
      rcases @startGuarded_cases stop s.env world runId caseId s.disk with
        ⟨hnot, -⟩ | ⟨-, caseRecord', report', harrives, hstart⟩
      · exact absurd ⟨hquiet, caseRecord, report, hfile, htexts⟩ hnot
      · obtain ⟨rfl, rfl⟩ := hfile.unique harrives.onFile
        obtain ⟨left, hleft⟩ := Option.ne_none_iff_exists'.mp (mt buildLeft_eq_none.mp hknown)
        obtain ⟨body', hbody', hdisk, hsuspended⟩ :=
          @postRunGuarded_answer stop world caseId runId s left hleft
        obtain rfl := Response.ran.inj (hbody.symm.trans hbody')
        cases hn : needsHuman (demoAlwaysGate s.env)
            (gateFlow s.env world caseId caseRecord' report') with
        | true =>
          have hfalse : body.autoFiled = false := hsuspended.mpr
            ⟨_, _, _, by rw [hstart, drive_gate_suspends _ hn]⟩
          simp [hfalse] at hfiled
        | false =>
          obtain ⟨hdemo, hclean⟩ := hneeds.mp hn
          rw [drive_gate_files _ hn] at hstart
          rcases drive_guarded_record _ with ⟨-, hnot⟩ | ⟨-, -, hlog⟩
          · exact absurd (hfiles hdemo hclean) hnot
          · exact ⟨_, by rw [hdisk, hstart, hlog], rfl, rfl⟩

/-- The case is known, its report is missing, and nothing else goes wrong. -/
theorem missing_report_answered_as_filed :
    let files := { sampleFiles .decline (some sampleWeather) none with report := fun _ => none }
    let world := sampleWorld files .undefined
    let s := ServerState.initial (sampleEnv true)
    (∃ body, (postRunGuarded (fun _ => none) world (lit "A") (lit "r") s).1 = .ran body ∧
        body.status = lit "failed" ∧ body.autoFiled = true) ∧
      ¬ AutoFilingTruthful (fun _ => none) world (lit "A") (lit "r") s := by
  refine ⟨⟨_, rfl, rfl, rfl⟩, ?_⟩
  exact not_truthful_of_failed (by decide) (e := noReport (lit "CLM-A")) rfl

/-! POST /resume. -/

section resume
variable (stop : Stop) (world : World) (runId : Text) (body : Option Value) (s : ServerState)

/-- An answer without an error, on which the screen says filed and recorded, finds a row with the
decision in the log and a note for the run. -/
def RecordingTruthful : Prop :=
  ∀ status decision audit,
    (postResumeGuarded stop world runId body s).1 = .resumed runId status decision audit →
    (∃ row ∈ (postResumeGuarded stop world runId body s).2.disk.log,
      row.runId = runId ∧ row.decision = .signed decision) ∧
    ∃ input, s.runs runId = .suspended "gate" input ∧
      ((postResumeGuarded stop world runId body s).2.disk.notes
        (notePathOf world runId input)).isSome = true

/-- Neither of the two resumed steps throws by itself, and the row can be appended. -/
def RowGoesThrough : Prop := stop "gate" = none ∧ stop "record" = none ∧ world.faults.appends

variable {stop world runId body s} {data : ResumeData} {input : Flow}

/-- What a resumed execution can end in, with exceptions of the steps' own. -/
theorem resumeGuarded_outcomes (env : Env) (disk : AuditDisk) :
    (¬ RowGoesThrough stop world ∧
      ∃ e, resumeGuarded stop env world runId data input disk = (.failed e, disk)) ∨
    (RowGoesThrough stop world ∧ resumeGuarded stop env world runId data input disk =
      resumeRun env world runId data input disk) := by
  have hsteps : (guardedReview stop env world runId).dropWhile (fun st => st.id ≠ "gate") =
      [(gateStep env).guarded stop, (recordStep env world runId).guarded stop] := by
    simp [guardedReview, stormReview, Step.guarded, Step.quiet, gateStep, List.dropWhile]
  rw [resumeGuarded, Engine.resume, hsteps, resumeRun_eq]
  cases ht : stop "gate" with
  | some e => exact .inl ⟨fun h => by simp [h.1] at ht, e, drive_guarded_stopped ht⟩
  | none =>
    have hgate : gate env (some data) input = .next (data.decided input) := rfl
    rw [drive_guarded_none (by exact ht), gateStep, drive_quiet_next hgate]
    cases hr : stop "record" with
    | some e => exact .inl ⟨fun h => by simp [h.2.1] at hr, e, drive_guarded_stopped hr⟩
    | none =>
      rw [drive_guarded_none (by exact hr)]
      rcases drive_record_cases env world runId (data.decided input) disk with ⟨hf, he⟩ | ⟨hok, -⟩
      · exact .inl ⟨fun h => hf h.2.2, he⟩
      · exact .inr ⟨⟨ht, hr, hok⟩, rfl⟩

/-- The answer to an accepted resume carries no error, whatever its steps did. -/
theorem postResumeGuarded_accepted (h : Accepted s runId body data input) :
    let res := resumeGuarded stop s.env world runId data input s.disk
    postResumeGuarded stop world runId body s =
      (.resumed runId (statusText res.1) data.decision ((finalState res.1).bind (·.audit)),
        { s with runs := Function.update s.runs runId res.1.status, disk := res.2 }) := by
  intro res
  obtain ⟨resumeData, hcheck, hschema, hinput⟩ := h.decoded
  simp only [postResumeGuarded, hcheck, hschema, hinput]
  rfl

/-- Truthful, in terms of the disk the resumed execution leaves. -/
theorem recordingTruthful_of_accepted (h : Accepted s runId body data input) {left : AuditDisk}
    (hleft : (resumeGuarded stop s.env world runId data input s.disk).2 = left) :
    RecordingTruthful stop world runId body s ↔
      (∃ row ∈ left.log, row.runId = runId ∧ row.decision = .signed data.decision) ∧
        (left.notes (notePathOf world runId input)).isSome = true := by
  rw [RecordingTruthful, postResumeGuarded_accepted h, hleft]
  constructor
  · intro htruthful
    obtain ⟨hrow, input', hinput', hnote⟩ := htruthful _ _ _ rfl
    obtain ⟨-, rfl⟩ := Status.suspended.inj (h.suspended.symm.trans hinput')
    exact ⟨hrow, hnote⟩
  · rintro ⟨hrow, hnote⟩ status decision audit heq
    obtain ⟨-, -, rfl, -⟩ := Response.resumed.inj heq
    exact ⟨hrow, input, h.suspended, hnote⟩

end resume

/-- The answer is truthful exactly where the row goes through, and the note after it; what is
not written now is only there if it was there before. -/
theorem recording_truthful_iff (stop : Stop) (world : World) (runId : Text) (body : Option Value)
    (s : ServerState) (data : ResumeData) (input : Flow) (hacc : Accepted s runId body data input) :
    RecordingTruthful stop world runId body s ↔
      (RowGoesThrough stop world ∨
        ∃ row ∈ s.disk.log, row.runId = runId ∧ row.decision = .signed data.decision) ∧
      (RowGoesThrough stop world ∧ world.faults.writes (notePathOf world runId input) ∨
        (s.disk.notes (notePathOf world runId input)).isSome = true) := by
  rcases @resumeGuarded_outcomes stop world runId data input s.env s.disk with
    ⟨hno, e, he⟩ | ⟨hthrough, he⟩
  · rw [recordingTruthful_of_accepted hacc (congrArg Prod.snd he)]
    simp [hno]
  · have hrow : ∃ row ∈ s.disk.log ++ [resumedRow s.env world runId data input],
        row.runId = runId ∧ row.decision = .signed data.decision :=
      ⟨_, List.mem_append_right _ (List.mem_singleton_self _), rfl, rfl⟩
    rcases resumeRun_outcomes s.env world runId data input s.disk with
      ⟨hf, -⟩ | ⟨-, ⟨hw, e, he'⟩ | ⟨hw, he'⟩⟩
    · exact absurd hthrough.2.2 hf
    · rw [recordingTruthful_of_accepted hacc (congrArg Prod.snd (he.trans he'))]
      simp only [hthrough, hw, true_or, and_false, false_or, true_and]
      exact and_iff_right hrow
    · rw [recordingTruthful_of_accepted hacc (congrArg Prod.snd (he.trans he'))]
      refine iff_of_true ⟨hrow, ?_⟩ ⟨.inl hthrough, .inl ⟨hthrough, hw⟩⟩
      have hpath : notePathOf world runId (data.decided input) = notePathOf world runId input := rfl
      simp [withNote, hpath]

/-- An installation where the append of a row does what `append` says. -/
def sampleFaulty (append : Option Thrown) : World :=
  { sampleWorld (sampleFiles .decline (some sampleWeather) none) .undefined with
    faults := { mkdirForLog := none, append, mkdirForNote := none, writeNote := fun _ => none } }

def sampleAwaiting (append : Option Thrown) : ServerState :=
  (postRun (sampleFaulty append) (lit "A") (lit "r") (.initial (sampleEnv true))).2

def sampleApproval : Value := .obj [(lit "decision", .str (lit "approve"))]

theorem sample_accepted (append : Option Thrown) :
    Accepted (sampleAwaiting append) (lit "r") (some sampleApproval)
      { decision := .approve, reason := [], failureMode := none, domainNote := none }
      (gateFlow (sampleEnv true) (sampleFaulty append) (lit "A") sampleCase
        (sampleLoaded .decline)) :=
  ⟨⟨.approve, _, rfl, rfl⟩, rfl⟩

/-- The append fails; the answer says failed, carries no error, and the log is empty. -/
theorem unrecorded_decision_answered_without_error :
    let append := some (Thrown.error (lit "EACCES: permission denied"))
    (postResume (sampleFaulty append) (lit "r") (some sampleApproval) (sampleAwaiting append)).1 =
        .resumed (lit "r") (lit "failed") .approve none ∧
      ¬ RecordingTruthful (fun _ => none) (sampleFaulty append) (lit "r") (some sampleApproval)
        (sampleAwaiting append) := by
  intro append
  refine ⟨rfl, ?_⟩
  rw [recordingTruthful_of_accepted (sample_accepted append) rfl]
  rintro ⟨⟨row, hrow, -⟩, -⟩
  exact List.not_mem_nil hrow

/-- Nothing fails, and nothing was on the disk before. -/
theorem recording_truthful_sample :
    RecordingTruthful (fun _ => none) (sampleFaulty none) (lit "r") (some sampleApproval)
      (sampleAwaiting none) :=
  (recording_truthful_iff _ _ _ _ _ _ _ (sample_accepted none)).mpr
    ⟨.inl ⟨rfl, rfl, rfl, rfl⟩, .inl ⟨⟨rfl, rfl, rfl, rfl⟩, rfl, rfl⟩⟩

end StormReview
