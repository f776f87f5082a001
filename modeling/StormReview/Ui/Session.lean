import StormReview.Engine.Rpc
import StormReview.Js.Json.RoundTrip
import StormReview.Safety.Fidelity
import StormReview.Ui.Page

/-! Any number of pages before one server: what they post and what they are answered crosses a
network, while others post too and the process is restarted. -/
namespace StormReview
open Js Zod Engine

/-- What a call meets when it is served: the world, the id the engine gives a new run, and how
the language prints the number a numeral stands for. -/
structure Moment where
  world : World
  newId : Text
  numberText : Text → Text

def PageCall.request (m : Moment) : PageCall → Request
  | .run caseId => .run caseId m.newId
  | .resume runId text => .resume runId (Json.parse m.numberText text)

def session : Rpc.Program Page ServerState PageAct PageCall Response Moment where
  act := Page.act
  serve m call s := handle m.world (call.request m) s
  read := Page.read

/-- An id that the engine may give: no run has it, and it is not the word for a missing one. -/
def FreshId (s : ServerState) (id : Text) : Prop := s.runs id = .absent ∧ id ≠ lit "undefined"

/-- The engine gives fresh ids, and its error for a run that is not suspended says something. -/
def Ready (m : Moment) (s : ServerState) : Prop :=
  FreshId s m.newId ∧ m.world.errors.notSuspended ≠ []

/-- What happens to the server besides: any request from elsewhere, or a restart. -/
def Elsewhere (s t : ServerState) : Prop :=
  ∃ world request, (∀ caseId id, request = .run caseId id → FreshId s id) ∧
    t = (handle world request s).2

abbrev Network (ι : Type) := Rpc.System ι Page ServerState PageCall Response

/-- Every page as loaded, before a server that has not run anything. -/
def Network.initial {ι : Type} (env : Env) : Network ι :=
  Rpc.System.initial (ServerState.initial env) Page.initial

/-- A state that the pages, the server and the network can get to. -/
def Reached {ι : Type} [DecidableEq ι] (env : Env) (n : Network ι) : Prop :=
  Relation.ReflTransGen (Rpc.Step session Ready Elsewhere) (Network.initial env) n

/-! What one request does to a run that it does not start, and to the log. -/

section request
variable {world : World} {request : Request} {s : ServerState} {runId : Text}

theorem handle_runs_other (world : World) (h : ∀ caseId, request ≠ .run caseId runId) :
    (handle world request s).2.runs runId = s.runs runId ∨
      (∃ input, s.runs runId = .suspended "gate" input) ∧
        (handle world request s).2.runs runId = .closed := by
  cases request with
  | restart env => exact .inl rfl
  | run caseId other =>
    have hne : runId ≠ other := fun he => h caseId (by rw [he])
    exact .inl (postRun_other world caseId hne)
  | resume other body =>
    rcases postResume_cases world other body s with hs | ⟨data, input, hacc, hs⟩
    · exact .inl (by simp only [handle, hs])
    · by_cases hid : runId = other
      · subst hid
        refine .inr ⟨⟨input, hacc.suspended⟩, ?_⟩
        simp only [handle, hs, Function.update_self]
      · refine .inl ?_
        simp only [handle, hs]
        exact Function.update_of_ne hid ..

/-- A started run that appends a row files itself, and is over. -/
theorem startRun_log (env : Env) (world : World) (runId caseId : Text) (disk : AuditDisk) :
    (startRun env world runId caseId disk).2.log = disk.log ∨
      (startRun env world runId caseId disk).1.status = .closed ∧
        ∃ row, (startRun env world runId caseId disk).2.log = disk.log ++ [row] ∧
          row.runId = runId ∧ row.decision = .autoFiled := by
  by_cases harrives : ∃ caseRecord report, Arrives env world caseId caseRecord report
  · obtain ⟨caseRecord, report, hcase⟩ := harrives
    cases hn : needsHuman (demoAlwaysGate env) (gateFlow env world caseId caseRecord report) with
    | true =>
      rw [startRun_suspends hcase hn]
      exact .inl rfl
    | false =>
      rw [startRun_files hcase hn]
      rcases drive_record_cases env world runId _ disk with
        ⟨-, e, he⟩ | ⟨-, ⟨-, e, he⟩ | ⟨-, he⟩⟩
      · rw [he]
        exact .inl rfl
      · rw [he]
        exact .inr ⟨rfl, _, rfl, rfl, rfl⟩
      · rw [he]
        exact .inr ⟨rfl, _, rfl, rfl, rfl⟩
  · obtain ⟨e, he⟩ : ∃ e, startRun env world runId caseId disk = (.failed e, disk) :=
      startRun_not_arrives harrives runId disk
    rw [he]
    exact .inl rfl

/-- A request leaves the log as it is, or appends the row of a run that it closes: one it started,
or one it resumed. -/
theorem handle_log (world : World) (request : Request) (s : ServerState) :
    (handle world request s).2.disk.log = s.disk.log ∨
      ∃ row, (handle world request s).2.disk.log = s.disk.log ++ [row] ∧
        (handle world request s).2.runs row.runId = .closed ∧
        ((row.decision = .autoFiled ∧ ∃ caseId, request = .run caseId row.runId) ∨
          ∃ body data input, request = .resume row.runId body ∧
            Accepted s row.runId body data input ∧
            row = resumedRow s.env world row.runId data input) := by
  cases request with
  | restart env => exact .inl rfl
  | run caseId runId =>
    simp only [handle, postRun]
    cases buildLeft world.files caseId with
    | none => exact .inl rfl
    | some left =>
      rcases startRun_log s.env world runId caseId s.disk with h | ⟨hclosed, row, h, rfl, hrow⟩
      · exact .inl h
      · refine .inr ⟨row, h, ?_, .inl ⟨hrow, caseId, rfl⟩⟩
        simp only [Function.update_self, hclosed]
  | resume runId body =>
    rcases postResume_cases world runId body s with hs | ⟨data, input, hacc, hs⟩
    · exact .inl (by simp only [handle, hs])
    · simp only [handle, hs]
      rcases (resumeRun_cases s.env world runId data input s.disk).2 with h | h
      · exact .inl (by rw [h])
      · exact .inr ⟨_, h, Function.update_self .., .inr ⟨body, data, input, rfl, hacc, rfl⟩⟩

/-- The log only grows. -/
theorem mem_log_handle {row : AuditEntry} (h : row ∈ s.disk.log) :
    row ∈ (handle world request s).2.disk.log := by
  rcases handle_log world request s with hs | ⟨last, hs, -⟩
  · rwa [hs]
  · rw [hs]
    exact List.mem_append_left _ h

/-- An answer to a started run that did not suspend: the run is over. -/
theorem postRun_over {caseId : Text} {body : RunBody}
    (hrun : (postRun world caseId runId s).1 = .ran body)
    (hstatus : body.status ≠ lit "suspended") :
    body.runId = runId ∧ (postRun world caseId runId s).2.runs runId = .closed := by
  unfold postRun at hrun ⊢
  cases hl : buildLeft world.files caseId with
  | none => simp [hl] at hrun
  | some left =>
    simp only [hl] at hrun ⊢
    cases hres : startRun s.env world runId caseId s.disk with
    | mk res disk =>
      simp only [hres] at hrun ⊢
      cases res with
      | suspended step input payload =>
        obtain rfl := Response.ran.inj hrun
        exact absurd rfl hstatus
      | success flow =>
        obtain rfl := Response.ran.inj hrun
        exact ⟨rfl, Function.update_self ..⟩
      | failed e =>
        obtain rfl := Response.ran.inj hrun
        exact ⟨rfl, Function.update_self ..⟩

end request
end StormReview
