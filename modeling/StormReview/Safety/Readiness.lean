import StormReview.Scripts.Doctor
import StormReview.Safety.Reporting
import StormReview.Safety.Wishes

/-! An installation that the preflight passes serves each of its cases. -/
namespace StormReview
open Js Engine

/-- Every section of the left column has something to show. -/
structure Left.Complete (left : Left) : Prop where
  report : left.report.isSome
  customer : left.customer.isSome
  wording : left.wording.isSome
  weather : left.weather.isSome

/-- The left column is as complete as what is on file for its case. -/
theorem buildLeft_complete {files : Files} {caseRecord : CaseRecord} {left : Left} {caseId : Text}
    (hcase : loadCase files caseId = some caseRecord) (hleft : buildLeft files caseId = some left)
    (hreport : (loadReport files caseRecord.claimId).isSome)
    (hcustomer : (loadCustomer files caseRecord.customerId).isSome)
    (hwording : (loadWording files caseRecord.policyId).isSome)
    (hweather : (loadWeather files caseRecord.postcodeDistrict caseRecord.dateOfLoss).isSome) :
    left.Complete := by
  rw [buildLeft, hcase, Option.map_some] at hleft
  obtain rfl := Option.some.inj hleft
  exact ⟨by simp [hreport], by simp [hcustomer], by simp [hwording], by simp [hweather]⟩

/-- A case may stand twice in the list: the first record of its id is served, and was checked. -/
theorem Machine.Prepared.onFile {machine : Machine} {c : CaseRecord} (h : machine.Prepared)
    (hc : c ∈ loadCases machine.files) :
    ∃ caseRecord report left, OnFile machine.files c.id caseRecord report ∧
      buildLeft machine.files c.id = some left ∧ left.Complete := by
  have hfound : (loadCase machine.files c.id).isSome :=
    List.find?_isSome.mpr ⟨c, hc, by simp⟩
  obtain ⟨caseRecord, hcase⟩ := Option.isSome_iff_exists.mp hfound
  have hcomplete := h.complete caseRecord (List.mem_of_find?_eq_some hcase)
  obtain ⟨report, hreport⟩ := Option.isSome_iff_exists.mp hcomplete.report
  have hleft : (buildLeft machine.files c.id).isSome := by
    rw [buildLeft, hcase]
    rfl
  obtain ⟨left, hleft⟩ := Option.isSome_iff_exists.mp hleft
  exact ⟨caseRecord, report, left, ⟨hcase, hreport⟩, hleft, buildLeft_complete hcase hleft
    hcomplete.report hcomplete.customer hcomplete.wording hcomplete.weather⟩

section served
variable {stop : Stop} {world : World} {runId caseId : Text} {caseRecord : CaseRecord}
  {report : AdjusterReport} {left : Left} {s : ServerState}

theorem postRunGuarded_waits {input : Flow} {payload : SuspendPayload}
    (hleft : buildLeft world.files caseId = some left)
    (hstart : startGuarded stop s.env world runId caseId s.disk =
      (.suspended "gate" input payload, s.disk)) :
    postRunGuarded stop world caseId runId s =
      (.ran (suspendedBody runId caseId left payload),
        { s with runs := Function.update s.runs runId (.suspended "gate" input) }) := by
  simp only [postRunGuarded, hleft, hstart]
  rfl

theorem postRunGuarded_ended {res : RunResult} {disk : AuditDisk}
    (hleft : buildLeft world.files caseId = some left)
    (hstart : startGuarded stop s.env world runId caseId s.disk = (res, disk))
    (hres : ∀ step input p, res ≠ .suspended step input p) :
    postRunGuarded stop world caseId runId s =
      (.ran (finishedBody runId caseId (statusText res) left (finalState res)),
        { s with runs := Function.update s.runs runId res.status, disk }) := by
  simp only [postRunGuarded, hleft, hstart]

/-- The run waits for its handler, with nothing written. -/
def Waits (runId : Text) (s : ServerState) (body : RunBody) (s' : ServerState) : Prop :=
  body.status = lit "suspended" ∧ (∃ input, s'.runs runId = .suspended "gate" input) ∧
    s'.disk = s.disk

/-- The run has filed itself, with one row. -/
def FiledItself (runId : Text) (s : ServerState) (body : RunBody) (s' : ServerState) : Prop :=
  body.status = lit "success" ∧ ∃ row, s'.disk.log = s.disk.log ++ [row] ∧ row.runId = runId ∧
    row.decision = .autoFiled

/-- How a started run of a case on file is answered. -/
theorem postRunGuarded_onFile (hfile : OnFile world.files caseId caseRecord report)
    (hleft : buildLeft world.files caseId = some left) :
    ∃ body s', postRunGuarded stop world caseId runId s = (.ran body, s') ∧ body.left = left ∧
      (Waits runId s body s' ∨
        demoAlwaysGate s.env = false ∧ FiledItself runId s body s' ∨
        body.status = lit "failed" ∧ s'.disk = s.disk ∧
          ¬ (Undisturbed stop ∧ DrnsAreTexts s.env world caseId caseRecord report) ∨
        body.status = lit "failed" ∧ demoAlwaysGate s.env = false ∧
          ¬ (stop "record" = none ∧ world.faults.Clear)) := by
  rcases @startGuarded_cases stop s.env world runId caseId s.disk with
    ⟨hnot, e, he⟩ | ⟨-, caseRecord', report', harrives, hstart⟩
  · exact ⟨_, _, postRunGuarded_ended hleft he (by simp), rfl, .inr (.inr (.inl ⟨rfl, rfl,
      fun h => hnot ⟨h.1, caseRecord, report, hfile, h.2⟩⟩))⟩
  cases hneeds : needsHuman (demoAlwaysGate s.env)
      (gateFlow s.env world caseId caseRecord' report') with
  | true =>
    rw [drive_gate_suspends _ hneeds] at hstart
    exact ⟨_, _, postRunGuarded_waits hleft hstart, rfl,
      .inl ⟨rfl, ⟨_, Function.update_self ..⟩, rfl⟩⟩
  | false =>
    have hdemo : demoAlwaysGate s.env = false := by
      cases hd : demoAlwaysGate s.env with
      | false => rfl
      | true => simp [needsHuman, hd] at hneeds
    rw [drive_gate_files _ hneeds] at hstart
    cases hrecord : stop "record" with
    | some e =>
      rw [drive_guarded_stopped hrecord] at hstart
      exact ⟨_, _, postRunGuarded_ended hleft hstart (by simp), rfl,
        .inr (.inr (.inr ⟨rfl, hdemo, by simp⟩))⟩
    | none =>
      rw [drive_guarded_none (by exact hrecord)] at hstart
      rcases drive_record_cases s.env world runId _ s.disk with
        ⟨hf, e, he⟩ | ⟨-, ⟨hw, e, he⟩ | ⟨-, he⟩⟩
      · exact ⟨_, _, postRunGuarded_ended hleft (hstart.trans he) (by simp), rfl,
          .inr (.inr (.inr ⟨rfl, hdemo, fun h => hf h.2.1⟩))⟩
      · exact ⟨_, _, postRunGuarded_ended hleft (hstart.trans he) (by simp), rfl,
          .inr (.inr (.inr ⟨rfl, hdemo, fun h => hw (h.2.2 _)⟩))⟩
      · exact ⟨_, _, postRunGuarded_ended hleft (hstart.trans he) (by simp), rfl,
          .inr (.inl ⟨hdemo, rfl, _, rfl, rfl, rfl⟩)⟩

end served

/-- An installation that the preflight passes serves every case it lists, whatever the server has
been through and whatever its steps throw by themselves: the left column is complete, and the run
waits for its handler or, outside the demo, files itself. It fails with nothing written where a
step before the record throws or a DRN returned is no text, and otherwise only outside the demo,
where the record step throws or the log or the note cannot be written. -/
theorem passed_case_is_served (machine : Machine) (hpass : machine.doctor.2 = 0) (c : CaseRecord)
    (hc : c ∈ loadCases machine.files) (stop : Stop) (world : World)
    (hfiles : world.files = machine.files) (runId : Text) (s : ServerState) :
    ∃ body s', postRunGuarded stop world c.id runId s = (.ran body, s') ∧ body.left.Complete ∧
      (Waits runId s body s' ∨
        demoAlwaysGate s.env = false ∧ FiledItself runId s body s' ∨
        body.status = lit "failed" ∧ s'.disk = s.disk ∧
          ¬ (Undisturbed stop ∧ ∀ caseRecord report, OnFile world.files c.id caseRecord report →
            DrnsAreTexts s.env world c.id caseRecord report) ∨
        body.status = lit "failed" ∧ demoAlwaysGate s.env = false ∧
          ¬ (stop "record" = none ∧ world.faults.Clear)) := by
  obtain ⟨caseRecord, report, left, hfile, hleft, hcomplete⟩ :=
    (Machine.doctor_exit_zero_iff.mp hpass).onFile hc
  rw [← hfiles] at hfile hleft
  obtain ⟨body, s', hrun, hbody, houtcome⟩ :=
    @postRunGuarded_onFile stop world runId c.id caseRecord report left s hfile hleft
  refine ⟨body, s', hrun, hbody ▸ hcomplete, ?_⟩
  rcases houtcome with hwaits | hfiled | ⟨hstatus, hdisk, hnot⟩ | hfailed
  · exact .inl hwaits
  · exact .inr (.inl hfiled)
  · exact .inr (.inr (.inl ⟨hstatus, hdisk, fun h => hnot ⟨h.1, h.2 _ _ hfile⟩⟩))
  · exact .inr (.inr (.inr hfailed))

def sampleWording : Wording where
  id := lit "v8"
  brand := lit "Aviva"
  version := lit "v8"
  effectiveFrom := lit "2024-01-01"
  discretionary := true
  stormDefinition := []
  exclusions := []
  cashSettlementClause := []
  previousVersion := none

/-- One case with everything on file. -/
def sampleMachine : Machine where
  nodeVersion := lit "22.1.0"
  nodeMajor := 22
  env := sampleEnv true
  judgeEnv := { judgeModelVar := none, judgeApiKeyVar := none, openaiApiKeyVar := none }
  files :=
    { sampleFiles .decline (some sampleWeather) (some (sampleCustomer false)) with
      wording := fun _ => some sampleWording }
  existsSync := fun _ => true
  precedents := some (.arr [])
  mastra := .ok true

theorem sampleMachine_passes : sampleMachine.doctor.2 = 0 := by
  have hcomplete : sampleMachine.Complete sampleCase := ⟨rfl, rfl, rfl, rfl, rfl⟩
  exact Machine.doctor_exit_zero_iff.mpr ⟨le_rfl, fun h => (by cases h), fun c hc => by
    obtain rfl := List.mem_singleton.mp hc
    exact hcomplete, ⟨_, rfl, rfl⟩, rfl⟩

/-- In the demo, with a record step that throws: the run waits all the same. -/
theorem passed_case_is_served_sample :
    let stop : Stop := fun id => if id = "record" then some (.error []) else none
    let world := { sampleServing with files := sampleMachine.files }
    ∃ body s', postRunGuarded stop world (lit "A") (lit "r1") (.initial (sampleEnv true)) =
        (.ran body, s') ∧ body.left.Complete ∧ body.status = lit "suspended" := by
  intro stop world
  obtain ⟨body, s', hrun, hcomplete, houtcome⟩ :=
    passed_case_is_served sampleMachine sampleMachine_passes sampleCase (List.mem_singleton_self _)
      stop world rfl (lit "r1") (.initial (sampleEnv true))
  have hdemo : demoAlwaysGate (sampleEnv true) ≠ false := by decide
  have hquiet : Undisturbed stop := by
    refine ⟨?_, ?_, ?_, ?_⟩ <;> rfl
  refine ⟨body, s', hrun, hcomplete, ?_⟩
  rcases houtcome with ⟨hs, -⟩ | ⟨hd, -⟩ | ⟨-, -, hnot⟩ | ⟨-, hd, -⟩
  · exact hs
  · exact absurd hd hdemo
  · refine absurd ⟨hquiet, fun caseRecord report hfile v hv => ?_⟩ hnot
    cases hv
  · exact absurd hd hdemo

end StormReview
