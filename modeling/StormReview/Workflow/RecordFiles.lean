import StormReview.Workflow.AuditRow
import StormReview.Workflow.Pipeline

/-! The record step on the files it writes, where a write that fails may have written a part. The
disk of a run is what the files hold as long as a write that fails leaves its file alone; where it
does not, the step still ends in the same way and the files differ by the part that was written. -/
namespace StormReview
open Js Zod Engine

/-- A write that fails: what it throws, and how many bytes it has written by then, if it has opened
the file. -/
structure Failure where
  thrown : Thrown
  written : Option Nat

/-- How each file operation of the record step fails, if it does. -/
structure FileFaults where
  mkdirForLog : Option Thrown
  append : Option Failure
  mkdirForNote : Option Thrown
  writeNote : Text → Option Failure

/-- The files of the audit directory. -/
structure AuditFiles where
  log : Option (List UInt8)
  notes : Text → Option (List UInt8)

/-- What gets written of the data, once the file is open. -/
def writtenOf (fault : Option Failure) (data : List UInt8) : Option (List UInt8) :=
  match fault with
  | none => some data
  | some failure => failure.written.map data.take

/-- `fs.appendFileSync`. -/
def appendFileSync (fault : Option Failure) (data : List UInt8) (file : Option (List UInt8)) :
    Option (List UInt8) :=
  match writtenOf fault data with
  | none => file
  | some part => some (file.getD [] ++ part)

/-- `fs.writeFileSync`, which empties the file as it opens it. -/
def writeFileSync (fault : Option Failure) (data : List UInt8) (file : Option (List UInt8)) :
    Option (List UInt8) :=
  match writtenOf fault data with
  | none => file
  | some part => some part

def AuditEntry.bytes (entry : AuditEntry) : List UInt8 := utf8 (AuditFile.row entry.filed)

/-- `record` on the files. -/
def recordFiles (env : Env) (world : World) (faults : FileFaults) (runId : Text) (inputData : Flow)
    (files : AuditFiles) : StepOutcome × AuditFiles :=
  let decision := inputData.humanDecision.getD autoFiledDecision
  match faults.mkdirForLog with
  | some e => (.throw e, files)
  | none =>
    let entry := auditEntryOf env world.now runId inputData decision
    let files := { files with log := appendFileSync faults.append entry.bytes files.log }
    match faults.append, faults.mkdirForNote with
    | some failure, _ => (.throw failure.thrown, files)
    | none, some e => (.throw e, files)
    | none, none =>
      let p := notePath world.files (inputData.claimId.getD (lit "unknown")) runId
      let note := utf8 (noteText runId inputData decision)
      let files := { files with
        notes := Function.update files.notes p
          (writeFileSync (faults.writeNote p) note (files.notes p)) }
      match faults.writeNote p with
      | some failure => (.throw failure.thrown, files)
      | none =>
        (.next { inputData with
          audit := some { runId, audited := true, notePath := p, decision := decision.decision } },
         files)

section writes
variable (fault : Option Failure) (data : List UInt8) (file : Option (List UInt8))

theorem writtenOf_isPrefix {part : List UInt8} (h : writtenOf fault data = some part) :
    part <+: data := by
  cases fault with
  | none =>
    obtain rfl := Option.some.inj h
    exact List.prefix_rfl
  | some failure =>
    obtain ⟨n, -, rfl⟩ := Option.map_eq_some_iff.mp h
    exact List.take_prefix ..

theorem appendFileSync_cases : appendFileSync fault data file = file ∨
    ∃ part, part <+: data ∧ appendFileSync fault data file = some (file.getD [] ++ part) := by
  unfold appendFileSync
  cases h : writtenOf fault data with
  | none => exact .inl rfl
  | some part => exact .inr ⟨part, writtenOf_isPrefix fault data h, rfl⟩

theorem writeFileSync_cases : writeFileSync fault data file = file ∨
    ∃ part, part <+: data ∧ writeFileSync fault data file = some part := by
  unfold writeFileSync
  cases h : writtenOf fault data with
  | none => exact .inl rfl
  | some part => exact .inr ⟨part, writtenOf_isPrefix fault data h, rfl⟩

end writes

/-! What the step does, by the operation that fails. -/

section record
variable {env : Env} {world : World} {faults : FileFaults} {runId : Text} {flow : Flow}
  {files : AuditFiles} {e : Thrown} {failure : Failure}

/-- The files once the row is appended. -/
def AuditFiles.withRow (env : Env) (world : World) (runId : Text) (flow : Flow)
    (files : AuditFiles) : AuditFiles :=
  { files with log := some (files.log.getD [] ++ (rowOf env world runId flow).bytes) }

theorem recordFiles_noLogDir (hm : faults.mkdirForLog = some e) :
    recordFiles env world faults runId flow files = (.throw e, files) := by
  simp only [recordFiles, hm]

theorem recordFiles_noRow (hm : faults.mkdirForLog = none) (ha : faults.append = some failure) :
    recordFiles env world faults runId flow files =
      (.throw failure.thrown,
        { files with
          log := appendFileSync (some failure) (rowOf env world runId flow).bytes files.log }) := by
  simp only [recordFiles, hm, ha]
  rfl

theorem recordFiles_noNoteDir (hm : faults.mkdirForLog = none) (ha : faults.append = none)
    (hd : faults.mkdirForNote = some e) :
    recordFiles env world faults runId flow files =
      (.throw e, files.withRow env world runId flow) := by
  simp only [recordFiles, hm, ha, hd]
  rfl

theorem recordFiles_noNote (hm : faults.mkdirForLog = none) (ha : faults.append = none)
    (hd : faults.mkdirForNote = none)
    (hw : faults.writeNote (notePathOf world runId flow) = some failure) :
    recordFiles env world faults runId flow files =
      (.throw failure.thrown,
        { files.withRow env world runId flow with
          notes := Function.update files.notes (notePathOf world runId flow)
            (writeFileSync (some failure) (utf8 (noteText runId flow (decisionOf flow)))
              (files.notes (notePathOf world runId flow))) }) := by
  rw [notePathOf] at hw
  simp only [recordFiles, hm, ha, hd, hw]
  rfl

theorem recordFiles_recorded (hm : faults.mkdirForLog = none) (ha : faults.append = none)
    (hd : faults.mkdirForNote = none)
    (hw : faults.writeNote (notePathOf world runId flow) = none) :
    recordFiles env world faults runId flow files =
      (.next (recordedFlow world runId flow),
        { files.withRow env world runId flow with
          notes := Function.update files.notes (notePathOf world runId flow)
            (some (utf8 (noteText runId flow (decisionOf flow)))) }) := by
  rw [notePathOf] at hw
  simp only [recordFiles, hm, ha, hd, hw]
  rfl

end record

/-! The disk of a run stands for its files. -/

/-- Every write goes through or leaves its file alone. -/
def Faults.atOnce (faults : Faults) : FileFaults where
  mkdirForLog := faults.mkdirForLog
  append := faults.append.map ({ thrown := ·, written := none })
  mkdirForNote := faults.mkdirForNote
  writeNote p := (faults.writeNote p).map ({ thrown := ·, written := none })

def AuditDisk.files (disk : AuditDisk) : AuditFiles where
  log := (logFile disk).map utf8
  notes p := (disk.notes p).map utf8

theorem wellFormed_appends (entries : List AuditFile.Entry) {log : Option Text}
    (h : ∀ text ∈ log, WellFormed text) :
    ∀ text ∈ entries.foldl AuditFile.appendAudit log, WellFormed text := by
  induction entries generalizing log with
  | nil => exact h
  | cons entry entries ih =>
    refine ih fun text htext => ?_
    obtain rfl := Option.some.inj htext
    have hold : WellFormed (log.getD []) := by
      cases log with
      | none => exact .nil
      | some old => exact h old rfl
    exact hold.append (wellFormed_toWellFormed _)

/-- An entry more is its bytes at the end of the log file. -/
theorem files_append (disk : AuditDisk) (entry : AuditEntry) :
    ({ disk with log := disk.log ++ [entry] } : AuditDisk).files =
      { disk.files with log := some (disk.files.log.getD [] ++ entry.bytes) } := by
  have hlog : logFile { disk with log := disk.log ++ [entry] } =
      some ((logFile disk).getD [] ++ toWellFormed (AuditFile.row entry.filed)) := by
    simp [logFile, AuditFile.appendAudit, AuditFile.appendFile]
  have hwell : ∀ text ∈ logFile disk, WellFormed text := wellFormed_appends _ (by simp)
  rw [AuditDisk.files, AuditDisk.files, hlog, Option.map_some, AuditEntry.bytes]
  cases h : logFile disk with
  | none => simp [utf8_toWellFormed]
  | some old => simp [(hwell old h).utf8_append, utf8_toWellFormed]

/-- A note more is its bytes at its path. -/
theorem files_note (disk : AuditDisk) (p text : Text) :
    ({ disk with notes := Function.update disk.notes p (some text) } : AuditDisk).files =
      { disk.files with notes := Function.update disk.files.notes p (some (utf8 text)) } := by
  have hlog : logFile { disk with notes := Function.update disk.notes p (some text) } =
      logFile disk := rfl
  rw [AuditDisk.files, AuditDisk.files, hlog, AuditFiles.mk.injEq]
  exact ⟨rfl, funext fun q =>
    Function.apply_update (fun _ => Option.map utf8) disk.notes p (some text) q⟩

/-- With writes that go through or leave their file alone, the disk follows the files. -/
theorem recordFiles_atOnce (env : Env) (world : World) (runId : Text) (flow : Flow)
    (disk : AuditDisk) :
    recordFiles env world world.faults.atOnce runId flow disk.files =
      ((record env world runId flow disk).1, (record env world runId flow disk).2.files) := by
  have hrow := files_append disk (rowOf env world runId flow)
  have hnote := files_note (withRow env world runId flow disk) (notePathOf world runId flow)
    (noteText runId flow (decisionOf flow))
  simp only [withRow, hrow] at hnote
  simp only [rowOf, decisionOf, notePathOf] at hrow hnote
  unfold recordFiles record appendAudit writeClaimNote
  generalize notePath world.files (flow.claimId.getD (lit "unknown")) runId = p at hnote ⊢
  cases hm : world.faults.mkdirForLog with
  | some e =>
    simp only [Faults.atOnce, hm]
    rfl
  | none =>
    cases ha : world.faults.append with
    | some e =>
      simp only [Faults.atOnce, hm, ha]
      rfl
    | none =>
      simp only [Faults.atOnce, hm, ha, orFail]
      cases hd : world.faults.mkdirForNote with
      | some e => exact congrArg _ hrow.symm
      | none =>
        cases hw : world.faults.writeNote p with
        | some e =>
          have hself : Function.update disk.files.notes p (disk.files.notes p) = disk.files.notes :=
            Function.update_eq_self ..
          rw [← hself] at hrow
          exact congrArg (Prod.mk _) hrow.symm
        | none => exact congrArg (Prod.mk _) hnote.symm

/-- What the operations throw, where one that fails leaves its file alone. -/
def FileFaults.whole (faults : FileFaults) : Faults where
  mkdirForLog := faults.mkdirForLog
  append := faults.append.map (·.thrown)
  mkdirForNote := faults.mkdirForNote
  writeNote p := (faults.writeNote p).map (·.thrown)

/-- `left` is `whole` but for what a failed write has put there of the row or of the note. -/
structure TornFrom (env : Env) (world : World) (faults : FileFaults) (runId : Text) (flow : Flow)
    (left whole : AuditFiles) : Prop where
  log : left.log = whole.log ∨ faults.append ≠ none ∧
    ∃ part, part <+: (rowOf env world runId flow).bytes ∧
      left.log = some (whole.log.getD [] ++ part)
  notes : ∀ p, left.notes p = whole.notes p ∨
    p = notePathOf world runId flow ∧ faults.writeNote p ≠ none ∧
      ∃ part, part <+: utf8 (noteText runId flow (decisionOf flow)) ∧ left.notes p = some part

theorem recordFiles_whole (env : Env) (world : World) (faults : FileFaults) (runId : Text)
    (flow : Flow) (files : AuditFiles) :
    (recordFiles env world faults runId flow files).1 =
        (recordFiles env world faults.whole.atOnce runId flow files).1 ∧
      TornFrom env world faults runId flow (recordFiles env world faults runId flow files).2
        (recordFiles env world faults.whole.atOnce runId flow files).2 := by
  have happend (a : Option Failure) (h : faults.append = a) : faults.whole.atOnce.append =
      a.map fun failure => { failure with written := none } := by
    simp [Faults.atOnce, FileFaults.whole, h, Function.comp_def]
  have hwrite (p : Text) (a : Option Failure) (h : faults.writeNote p = a) :
      faults.whole.atOnce.writeNote p =
        a.map fun failure => { failure with written := none } := by
    simp [Faults.atOnce, FileFaults.whole, h, Function.comp_def]
  cases hm : faults.mkdirForLog with
  | some e =>
    have hm' : faults.whole.atOnce.mkdirForLog = some e := hm
    rw [recordFiles_noLogDir hm, recordFiles_noLogDir hm']
    exact ⟨rfl, .inl rfl, fun _ => .inl rfl⟩
  | none =>
    have hm' : faults.whole.atOnce.mkdirForLog = none := hm
    cases ha : faults.append with
    | some failure =>
      rw [recordFiles_noRow hm ha, recordFiles_noRow hm' (happend _ ha)]
      refine ⟨rfl, ?_, fun _ => .inl rfl⟩
      exact (appendFileSync_cases ..).imp_right fun hpart => ⟨by simp [ha], hpart⟩
    | none =>
      cases hd : faults.mkdirForNote with
      | some e =>
        have hd' : faults.whole.atOnce.mkdirForNote = some e := hd
        rw [recordFiles_noNoteDir hm ha hd, recordFiles_noNoteDir hm' (happend _ ha) hd']
        exact ⟨rfl, .inl rfl, fun _ => .inl rfl⟩
      | none =>
        have hd' : faults.whole.atOnce.mkdirForNote = none := hd
        cases hw : faults.writeNote (notePathOf world runId flow) with
        | some failure =>
          rw [recordFiles_noNote hm ha hd hw,
            recordFiles_noNote hm' (happend _ ha) hd' (hwrite _ _ hw)]
          refine ⟨rfl, .inl rfl, fun p => ?_⟩
          by_cases hp : p = notePathOf world runId flow
          · subst hp
            simp only [Function.update_self]
            exact (writeFileSync_cases ..).imp_right fun hpart => ⟨trivial, by simp [hw], hpart⟩
          · exact .inl (by simp only [Function.update_of_ne hp])
        | none =>
          rw [recordFiles_recorded hm ha hd hw,
            recordFiles_recorded hm' (happend _ ha) hd' (hwrite _ _ hw)]
          exact ⟨rfl, .inl rfl, fun _ => .inl rfl⟩

/-- Whatever the writes that fail have written, the step ends as it does on the disk of a run, and
leaves the files of that disk but for a part of the row or of the note. -/
theorem recordFiles_torn (env : Env) (world : World) (faults : FileFaults) (runId : Text)
    (flow : Flow) (disk : AuditDisk) :
    let (outcome, left) := recordFiles env world faults runId flow disk.files
    let (outcome', disk') := record env { world with faults := faults.whole } runId flow disk
    outcome = outcome' ∧ TornFrom env world faults runId flow left disk'.files := by
  have hdisk : recordFiles env world faults.whole.atOnce runId flow disk.files = _ :=
    recordFiles_atOnce env { world with faults := faults.whole } runId flow disk
  have hwhole := recordFiles_whole env world faults runId flow disk.files
  rwa [hdisk] at hwhole

end StormReview
