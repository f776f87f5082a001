import StormReview.Safety.AuditTrail
import StormReview.Ui.Session

/-! What `GET /audit` shows after any history of requests: the end of the log, from the bytes that
its appends left. -/
namespace StormReview
open Js Zod Engine
open Js.Json (IsJson IsJsonItems IsJsonFields asRead)

/-! What stands in JSON is JSON, and what does not stand in it is undefined. -/

section reading
variable {numberText : Text → Text} {v w : Value}

/-- JSON, or nothing. -/
def Given (numberText : Text → Text) (v : Value) : Prop := v = .undefined ∨ IsJson numberText v

theorem given_lookup {fields : List (Text × Value)} (h : IsJsonFields numberText fields)
    (key : Text) : Given numberText ((fields.lookup key).getD .undefined) := by
  induction fields with
  | nil => exact .inl rfl
  | cons field fields ih =>
    obtain ⟨k, v⟩ := field
    rw [List.lookup_cons]
    by_cases hk : (key == k) = true
    · rw [hk]
      exact h.1
    · rw [Bool.not_eq_true] at hk
      rw [hk]
      exact ih h.2

theorem Given.get (h : Given numberText v) (key : Text) : Given numberText (v.get key) := by
  rcases h with rfl | h
  · exact .inl rfl
  · cases v with
    | obj fields => exact given_lookup h.2 key
    | _ => exact .inl rfl

theorem isJson_orElse (hv : Given numberText v) (hw : IsJson numberText w) :
    IsJson numberText (v.orElse w) := by
  unfold Value.orElse
  split
  · exact hw
  · rename_i hnullish
    rcases hv with rfl | hv
    · exact absurd rfl hnullish
    · exact hv

theorem Given.orElse (hv : Given numberText v) (hw : Given numberText w) :
    Given numberText (v.orElse w) := by
  rcases hw with rfl | hw
  · unfold Value.orElse
    split
    · exact .inl rfl
    · exact hv
  · exact .inr (isJson_orElse hv hw)

theorem isJson_of_mem {items : List Value} (h : IsJsonItems numberText items) (hv : v ∈ items) :
    IsJson numberText v := by
  induction items with
  | nil => cases hv
  | cons w items ih =>
    rcases List.mem_cons.mp hv with rfl | hv
    · exact h.1
    · exact ih h.2 hv

end reading

/-! Tool calls that are JSON, from the agent or a recording into the log. -/

def ToolCall.Plain (numberText : Text → Text) (call : ToolCall) : Prop :=
  IsJson numberText call.tool ∧ IsJson numberText call.args

/-- The agent answers with JSON, and recordings hold it. -/
structure World.Plain (numberText : Text → Text) (world : World) : Prop where
  agent : ∀ message res, world.agent message = .ok res → Given numberText res
  golden : ∀ caseId g, loadGolden world.files caseId = some g →
    ∀ call ∈ g.toolCalls.getD [], call.Plain numberText

section plain
variable {numberText : Text → Text} {env : Env} {world : World} {runId caseId : Text}
  {caseRecord : CaseRecord} {report : AdjusterReport}

theorem toolCallOf_plain {tr : Value} (h : IsJson numberText tr) :
    (toolCallOf tr).Plain numberText := by
  have htr : Given numberText tr := .inr h
  have hpayload : Given numberText (tr.get (lit "payload")) := htr.get _
  have hname : Given numberText (toolName tr) := (htr.get _).orElse (hpayload.get _)
  have hargs : Given numberText
      (((tr.get (lit "args")).orElse (tr.get (lit "input"))).orElse
        ((tr.get (lit "payload")).get (lit "args"))) :=
    ((htr.get _).orElse (htr.get _)).orElse (hpayload.get _)
  exact ⟨isJson_orElse hname (isJson_str _), isJson_orElse hargs ⟨.nil, trivial⟩⟩

theorem toolResults_plain {res tr : Value} {items : List Value} (h : Given numberText res)
    (hitems : toolResults res = .arr items) (htr : tr ∈ items) : IsJson numberText tr := by
  have hall : IsJson numberText (toolResults res) := isJson_orElse (h.get _) trivial
  rw [hitems] at hall
  exact isJson_of_mem hall htr

theorem produce_plain (h : world.Plain numberText) (contextBlock : Option Text) :
    ∀ call ∈ (produce env world caseId contextBlock).toolCalls, call.Plain numberText := by
  have hnone : ∀ call ∈ ([] : List ToolCall), call.Plain numberText := fun _ hc => (by cases hc)
  unfold produce
  split
  · unfold reviewGolden
    cases hg : loadGolden world.files caseId with
    | none => exact hnone
    | some g =>
      simp only [structured_toolCalls]
      exact h.golden caseId g hg
  · unfold reviewLive
    cases hres : world.agent (agentMessage contextBlock) with
    | error err => exact hnone
    | ok res =>
      simp only
      cases hitems : (toolResults res).mapItems world.errors.notMappable with
      | error err => exact hnone
      | ok results =>
        have hcalls : ∀ call ∈ results.map toolCallOf, call.Plain numberText := by
          intro call hcall
          obtain ⟨tr, htr, rfl⟩ := List.mem_map.mp hcall
          exact toolCallOf_plain (toolResults_plain (h.agent _ res hres)
            (Value.mapItems_eq_ok.mp hitems) htr)
        simp only
        cases collectReturnedDrns world.errors.notIterable results with
        | error err => exact hcalls
        | ok returnedDrns => simpa only [structured_toolCalls] using hcalls

def Flow.CallsPlain (numberText : Text → Text) (flow : Flow) : Prop :=
  ∀ call ∈ flow.toolCalls.getD [], call.Plain numberText

theorem gateFlow_plain (h : world.Plain numberText) :
    (gateFlow env world caseId caseRecord report).CallsPlain numberText :=
  produce_plain h _

end plain

/-! The invariant of the server. -/

/-- Every run that waits, and every row, has tool calls that are JSON. -/
structure ServerState.Plain (numberText : Text → Text) (s : ServerState) : Prop where
  waiting : ∀ runId flow, s.runs runId = .suspended "gate" flow → flow.CallsPlain numberText
  log : ∀ row ∈ s.disk.log, row.CallsPlain numberText

/-- The log is as it was, or has one row more, whose tool calls are JSON. -/
def Grows (numberText : Text → Text) (log log' : List AuditEntry) : Prop :=
  log' = log ∨ ∃ row, log' = log ++ [row] ∧ row.CallsPlain numberText

section step
variable {numberText : Text → Text} {world : World} {s : ServerState}

theorem Grows.plain {log log' : List AuditEntry} (h : Grows numberText log log')
    (hlog : ∀ row ∈ log, row.CallsPlain numberText) :
    ∀ row ∈ log', row.CallsPlain numberText := by
  rcases h with rfl | ⟨last, rfl, hlast⟩
  · exact hlog
  · intro row hrow
    rcases List.mem_append.mp hrow with hrow | hrow
    · exact hlog row hrow
    · rwa [List.mem_singleton.mp hrow]

/-- What a record step leaves of the log. -/
theorem record_grows (env : Env) (runId : Text) {flow : Flow} (h : flow.CallsPlain numberText)
    (disk : AuditDisk) :
    Grows numberText disk.log (drive [recordStep env world runId] none flow disk).2.log := by
  by_cases happends : world.faults.appends
  · exact .inr ⟨_, drive_record_log env world runId flow disk happends, h⟩
  · rcases drive_record_cases env world runId flow disk with ⟨-, e, he⟩ | ⟨hf, -⟩
    · rw [he]
      exact .inl rfl
    · exact absurd hf happends

theorem startRun_plain (h : world.Plain numberText) (env : Env) (runId caseId : Text)
    (disk : AuditDisk) :
    (∀ flow, (startRun env world runId caseId disk).1.status = .suspended "gate" flow →
      flow.CallsPlain numberText) ∧
    Grows numberText disk.log (startRun env world runId caseId disk).2.log := by
  constructor
  · intro flow hflow
    cases hrun : startRun env world runId caseId disk with
    | mk res left =>
      rw [hrun] at hflow
      cases res with
      | suspended step input payload =>
        obtain ⟨caseRecord, report, -, -, hinput, -⟩ := startRun_suspended hrun
        have hsame : input = flow := (Status.suspended.inj hflow).2
        rw [← hsame, hinput]
        exact gateFlow_plain h
      | success _ => cases hflow
      | failed _ => cases hflow
  · by_cases harrives : ∃ caseRecord report, Arrives env world caseId caseRecord report
    · obtain ⟨caseRecord, report, hcase⟩ := harrives
      cases hn : needsHuman (demoAlwaysGate env) (gateFlow env world caseId caseRecord report) with
      | true =>
        rw [startRun_suspends hcase hn]
        exact .inl rfl
      | false =>
        rw [startRun_files hcase hn]
        have hgate : (gateFlow env world caseId caseRecord report).CallsPlain numberText :=
          gateFlow_plain h
        refine record_grows env runId ?_ disk
        exact hgate
    · obtain ⟨e, he⟩ : ∃ e, startRun env world runId caseId disk = (.failed e, disk) :=
        startRun_not_arrives harrives runId disk
      rw [he]
      exact .inl rfl

/-- One request. -/
theorem ServerState.Plain.handle (hs : s.Plain numberText) (h : world.Plain numberText)
    (request : Request) :
    (handle world request s).2.Plain numberText ∧
      Grows numberText s.disk.log (handle world request s).2.disk.log := by
  cases request with
  | restart env => exact ⟨⟨hs.waiting, hs.log⟩, .inl rfl⟩
  | run caseId runId =>
    obtain ⟨hflow, hgrows⟩ := startRun_plain h s.env runId caseId s.disk
    simp only [StormReview.handle, postRun]
    cases buildLeft world.files caseId with
    | none => exact ⟨hs, .inl rfl⟩
    | some left =>
      refine ⟨⟨fun other flow hother => ?_, hgrows.plain hs.log⟩, hgrows⟩
      by_cases hid : other = runId
      · subst hid
        simp only [Function.update_self] at hother
        exact hflow flow hother
      · simp only [Function.update_of_ne hid] at hother
        exact hs.waiting other flow hother
  | resume runId body =>
    simp only [StormReview.handle]
    rcases postResume_cases world runId body s with he | ⟨data, input, hacc, he⟩
    · rw [he]
      exact ⟨hs, .inl rfl⟩
    · have hgrows : Grows numberText s.disk.log
          (resumeRun s.env world runId data input s.disk).2.log := by
        rw [resumeRun_eq]
        have hinput : input.CallsPlain numberText := hs.waiting runId input hacc.suspended
        refine record_grows s.env runId ?_ s.disk
        exact hinput
      rw [he]
      refine ⟨⟨fun other flow hother => ?_, hgrows.plain hs.log⟩, hgrows⟩
      by_cases hid : other = runId
      · subst hid
        simp at hother
      · simp only [Function.update_of_ne hid] at hother
        exact hs.waiting other flow hother

/-- A whole history. -/
theorem ServerState.Plain.serve (hs : s.Plain numberText) (history : List (World × Request))
    (h : ∀ e ∈ history, e.1.Plain numberText) : (serve history s).Plain numberText := by
  induction history generalizing s with
  | nil => exact hs
  | cons e history ih =>
    exact ih (hs.handle (h e List.mem_cons_self) e.2).1 fun e' he' =>
      h e' (List.mem_cons_of_mem _ he')

theorem initial_plain (env : Env) : (ServerState.initial env).Plain numberText :=
  ⟨fun _ _ h => (by cases h), fun _ h => (by cases h)⟩

end step

/-- The screen of these rows, the first on top. -/
def screenOf (rows : List AuditEntry) : Value :=
  .obj [(lit "entries", .arr (rows.map fun row => asRead row.filed.toJs))]

theorem getAudit_plain {numberText : Text → Text} {s : ServerState} (hs : s.Plain numberText) :
    AuditFile.getAudit numberText (logFile s.disk) = screenOf (s.disk.log.reverse.take 25) := by
  rw [getAudit_logFile hs.log, screenOf, List.map_take, List.map_reverse]

/-- After every history, where agents and recordings deal in JSON and an append that fails has
written nothing: the screen, read from the bytes of the log file, shows the latest 25 rows, the
latest on top; and one more request leaves the file as it is, or closes a run and puts its row on
top. -/
theorem audit_screen_follows_log (numberText : Text → Text) (env : Env)
    (history : List (World × Request)) (last : World × Request)
    (h : ∀ e ∈ history ++ [last], e.1.Plain numberText) :
    let s := serve history (.initial env)
    let s' := serve (history ++ [last]) (.initial env)
    AuditFile.getAudit numberText (logFile s.disk) = screenOf (s.disk.log.reverse.take 25) ∧
      (logFile s'.disk = logFile s.disk ∨
        ∃ row, s'.runs row.runId = .closed ∧
          logFile s'.disk = AuditFile.appendAudit (logFile s.disk) row.filed ∧
          AuditFile.getAudit numberText (logFile s'.disk) =
            screenOf (row :: s.disk.log.reverse.take 24)) := by
  intro s s'
  have hs : s.Plain numberText := (initial_plain env).serve history fun e he =>
    h e (List.mem_append_left _ he)
  have hs' : s'.Plain numberText := (initial_plain env).serve (history ++ [last]) h
  refine ⟨getAudit_plain hs, ?_⟩
  have hnext : s' = (handle last.1 last.2 s).2 := serve_append history last _
  rcases handle_log last.1 last.2 s with hlog | ⟨row, hlog, hclosed, -⟩
  · rw [← hnext] at hlog
    exact .inl (by rw [logFile, hlog, logFile])
  · rw [← hnext] at hlog hclosed
    refine .inr ⟨row, hclosed, ?_, ?_⟩
    · simp only [logFile, hlog, List.map_append, List.foldl_append, List.map_cons, List.map_nil,
        List.foldl_cons, List.foldl_nil]
    · rw [getAudit_plain hs', hlog, List.reverse_append]
      rfl

/-- The override of the history is on the screen. -/
theorem audit_screen_follows_log_sample :
    ∃ row, row.decision = .signed .override ∧
      AuditFile.getAudit id (logFile (serve sampleHistory (.initial (sampleEnv true))).disk) =
        screenOf [row] := by
  have hplain : ∀ e ∈ sampleHistory ++
      [(sampleWorld (sampleFiles .decline none none) .undefined, .restart (sampleEnv true))],
      e.1.Plain id := by
    have hworld (weather : Option WeatherReport) :
        (sampleWorld (sampleFiles .decline weather none) .undefined).Plain id :=
      ⟨fun _ res hres => .inl (Except.ok.inj hres).symm, fun _ _ hg => (by cases hg)⟩
    intro e he
    simp only [sampleHistory, List.cons_append, List.nil_append, List.mem_cons,
      List.not_mem_nil, or_false] at he
    rcases he with rfl | rfl | rfl | rfl | rfl
    all_goals exact hworld _
  exact ⟨_, rfl, (audit_screen_follows_log id (sampleEnv true) sampleHistory _ hplain).1⟩

end StormReview
