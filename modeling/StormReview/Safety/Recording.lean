import StormReview.Workflow.RecordFiles

/-! What the record step leaves behind when one of its writes fails. -/
namespace StormReview
open Js Zod Engine

/-- The step returned a state that says `audited: true`. -/
def audited : StepOutcome → Bool
  | .next flow => flow.audit.any (·.audited)
  | _ => false

/-- Without `audited: true` nothing is left on disk; with it there is one row and its note. -/
def AllOrNothing (env : Env) (world : World) (faults : FileFaults) (runId : Text) (flow : Flow)
    (files : AuditFiles) : Prop :=
  let (outcome, left) := recordFiles env world faults runId flow files
  (audited outcome = false → left = files) ∧
    (audited outcome = true → ∃ row : AuditEntry, row.runId = runId ∧
      left.log = some (files.log.getD [] ++ row.bytes) ∧
      left.notes (notePathOf world runId flow) ≠ none)

/-- The row is written first and the note second, and nothing is taken back: an append that fails
may leave a part of the row, and where the note fails the row stays, with a part of the note at
its path or what was there before. Only with both is the run audited. -/
theorem record_effects (env : Env) (world : World) (faults : FileFaults) (runId : Text)
    (flow : Flow) (files : AuditFiles) :
    let (outcome, left) := recordFiles env world faults runId flow files
    let path := notePathOf world runId flow
    let row := (rowOf env world runId flow).bytes
    let note := utf8 (noteText runId flow (decisionOf flow))
    (rowOf env world runId flow).runId = runId ∧
      (faults.mkdirForLog ≠ none → (∃ e, outcome = .throw e) ∧ left = files) ∧
      (faults.mkdirForLog = none → faults.append ≠ none →
        (∃ e, outcome = .throw e) ∧ left.notes = files.notes ∧
          (left.log = files.log ∨
            ∃ part, part <+: row ∧ left.log = some (files.log.getD [] ++ part))) ∧
      (faults.mkdirForLog = none → faults.append = none →
        (faults.mkdirForNote ≠ none ∨ faults.writeNote path ≠ none) →
        (∃ e, outcome = .throw e) ∧ left.log = some (files.log.getD [] ++ row) ∧
          (∀ p, p ≠ path → left.notes p = files.notes p) ∧
          (left.notes path = files.notes path ∨
            faults.mkdirForNote = none ∧ ∃ part, part <+: note ∧ left.notes path = some part)) ∧
      (faults.mkdirForLog = none → faults.append = none → faults.mkdirForNote = none →
        faults.writeNote path = none →
        audited outcome = true ∧ left.log = some (files.log.getD [] ++ row) ∧
          left.notes = Function.update files.notes path (some note)) := by
  cases hm : faults.mkdirForLog with
  | some e =>
    rw [recordFiles_noLogDir hm]
    exact ⟨rfl, fun _ => ⟨⟨e, rfl⟩, rfl⟩, by simp, by simp, by simp⟩
  | none =>
    cases ha : faults.append with
    | some failure =>
      rw [recordFiles_noRow hm ha]
      exact ⟨rfl, by simp, fun _ _ => ⟨⟨_, rfl⟩, rfl, appendFileSync_cases ..⟩, by simp, by simp⟩
    | none =>
      cases hd : faults.mkdirForNote with
      | some e =>
        rw [recordFiles_noNoteDir hm ha hd]
        exact ⟨rfl, by simp, by simp, fun _ _ _ => ⟨⟨e, rfl⟩, rfl, fun _ _ => rfl, .inl rfl⟩,
          by simp⟩
      | none =>
        cases hw : faults.writeNote (notePathOf world runId flow) with
        | some failure =>
          rw [recordFiles_noNote hm ha hd hw]
          refine ⟨rfl, by simp, by simp, fun _ _ _ => ⟨⟨_, rfl⟩, rfl, ?_, ?_⟩, by simp [hw]⟩
          · exact fun p hp => Function.update_of_ne hp ..
          · simp only [Function.update_self]
            exact (writeFileSync_cases ..).imp_right fun hpart => ⟨trivial, hpart⟩
        | none =>
          rw [recordFiles_recorded hm ha hd hw]
          exact ⟨rfl, by simp, by simp, by simp [hw], fun _ _ _ _ => ⟨rfl, rfl, rfl⟩⟩

/-- Nothing takes the row back when the note fails. -/
theorem not_allOrNothing {env : Env} {world : World} {faults : FileFaults} {runId : Text}
    {flow : Flow} {files : AuditFiles} {failure : Failure} (hm : faults.mkdirForLog = none)
    (ha : faults.append = none) (hd : faults.mkdirForNote = none)
    (hw : faults.writeNote (notePathOf world runId flow) = some failure) :
    ¬ AllOrNothing env world faults runId flow files := by
  rw [AllOrNothing, recordFiles_noNote hm ha hd hw]
  rintro ⟨hnothing, -⟩
  have hlog : some (files.log.getD [] ++ (rowOf env world runId flow).bytes) = files.log :=
    congrArg AuditFiles.log (hnothing rfl)
  have hnewline : lit "\n" ≠ [] := by decide
  have hbytes : (rowOf env world runId flow).bytes ≠ [] := by
    simp [AuditEntry.bytes, AuditFile.row, utf8_eq_nil, hnewline]
  cases hold : files.log with
  | none => simp [hold] at hlog
  | some old => simp [hold, hbytes] at hlog

/-- The log can be written, the notes directory cannot. -/
def unwritableNotes : FileFaults where
  mkdirForLog := none
  append := none
  mkdirForNote := none
  writeNote _ := some { thrown := .error (lit "EACCES"), written := none }

/-- A handler approves, the row is appended and the note fails: the row stays in the log. -/
theorem failed_note_leaves_row :
    let world := sampleWorld (sampleFiles .decline (some sampleWeather) none) .undefined
    ∃ flow data signed, ReachesGate (sampleEnv true) world (lit "r") (lit "A") emptyDisk flow ∧
      gate (sampleEnv true) (some data) flow = .next signed ∧
      ¬ AllOrNothing (sampleEnv true) world unwritableNotes (lit "r") signed emptyDisk.files := by
  intro world
  refine ⟨gateFlow (sampleEnv true) world (lit "A") sampleCase (sampleLoaded .decline),
    { decision := .approve, reason := [], failureMode := none, domainNote := none }, _,
    reachesGate_iff.mpr ⟨_, _, ⟨⟨rfl, rfl⟩, fun v hv => (by cases hv)⟩, rfl⟩, rfl,
    not_allOrNothing rfl rfl rfl rfl⟩

end StormReview
