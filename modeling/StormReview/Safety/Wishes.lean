import StormReview.Safety.Shown

/-! What a handler wishes to decide, and how a page takes it to the server with nothing in the
way. -/
namespace StormReview
open Js Zod Engine

/-- A decision a handler may wish to take, complete with what the form asks for. -/
inductive Wish where
  | approve
  | override (outcome : Outcome) (mode : FailureMode) (typed : Text) (h : trim typed ≠ [])
  | escalate (esTo : EscalateTo) (typed : Text) (h : trim typed ≠ [])

namespace Wish

/-- What the page posts for it. -/
def body (review : Option Review) : Wish → Value
  | .approve => approveBody review
  | .override outcome mode typed _ => overrideBody outcome (trim typed) mode
  | .escalate esTo typed _ => escalateBody esTo (trim typed)

/-- What the gate receives. -/
def data (review : Option Review) : Wish → ResumeData
  | .approve =>
    { decision := .approve, reason := approveReason review, failureMode := none, domainNote := none }
  | .override outcome mode typed _ =>
    { decision := .override, reason := overrideReason outcome (trim typed)
      failureMode := some mode, domainNote := some outcome.text }
  | .escalate esTo typed _ =>
    { decision := .escalate, reason := escalateReason esTo (trim typed)
      failureMode := none, domainNote := some (Enum.text esTo) }

/-- How it is taken on a bar that has just been drawn. -/
def acts (review : Option Review) : Wish → List PageAct
  | .approve => if needsFriction review then [.tick, .approve] else [.approve]
  | .override outcome mode typed _ =>
    [.overrideBtn, .fillOverride { ovOutcome := outcome, ovMode := some mode, ovReason := typed },
      .ovSubmit]
  | .escalate esTo typed _ =>
    [.escalateBtn, .fillEscalate { esTo, esReason := typed }, .esSubmit]

variable (wish : Wish) (review : Option Review)

theorem carries : Carries (wish.body review) (wish.data review) := by
  cases wish <;> exact ⟨rfl, rfl, rfl, rfl⟩

theorem lawful : LawfulDecision (wish.data review).decision (wish.data review).reason
    (wish.data review).failureMode := by
  cases wish with
  | approve => exact ⟨fun ho => (by cases ho), fun he => (by cases he)⟩
  | override outcome mode typed h =>
    exact ⟨fun _ => ⟨by simp [data, overrideReason, h], rfl⟩, fun he => (by cases he)⟩
  | escalate esTo typed h =>
    exact ⟨fun ho => (by cases ho), fun _ => by simp [data, escalateReason, h]⟩

theorem parse_body (numberText : Text → Text) :
    Json.parse numberText ((wish.body review).stringify.getD []) = some (wish.body review) := by
  cases wish with
  | approve => exact parse_approveBody review
  | override outcome mode typed h => exact parse_overrideBody ..
  | escalate esTo typed h => exact parse_escalateBody ..

end Wish

/-- The page after an answer that suspended: the bar is drawn anew, whatever it was before. -/
theorem runAnswered_suspended {body : RunBody} (hs : body.status = lit "suspended")
    (caseId : Text) (p : Page) :
    (runAnswered caseId (.ran body) p).current =
        some { runId := some body.runId, caseId, payload := .ran body } ∧
      (runAnswered caseId (.ran body) p).bar = (renderBar (.ran body) p).bar := by
  have hstatus : (Response.ran body).status = some (lit "suspended") := congrArg some hs
  rw [runAnswered_eq, if_pos hstatus]
  exact ⟨rfl, rfl⟩

/-- On a bar that has just been drawn every wish can be taken, and is posted for its run. -/
theorem wish_posted (wish : Wish) {p before : Page} {body : RunBody} {caseId : Text}
    (hc : p.current = some { runId := some body.runId, caseId, payload := .ran body })
    (hbar : p.bar = (renderBar (.ran body) before).bar) :
    ∃ next, session.acts (wish.acts body.review) p =
      some (next, [.resume body.runId ((wish.body body.review).stringify.getD [])]) := by
  obtain ⟨current, active, left, right, bar, override, escalate⟩ := p
  cases hc
  cases hbar
  cases wish with
  | approve =>
    cases hneeds : needsFriction body.review with
    | true =>
      simp [Wish.acts, Wish.body, Rpc.Program.acts, session, Page.act, Bar.live, hneeds,
        Page.resume, Page.review, Current.resumeId, Response.review]
    | false =>
      simp [Wish.acts, Wish.body, Rpc.Program.acts, session, Page.act, Bar.live, hneeds,
        Page.resume, Page.review, Current.resumeId, Response.review]
  | override outcome mode typed h =>
    obtain ⟨u, reason, hreason⟩ := List.exists_cons_of_ne_nil h
    simp [Wish.acts, Wish.body, Rpc.Program.acts, session, Page.act, Bar.live, hreason,
      Page.resume, Current.resumeId]
  | escalate esTo typed h =>
    obtain ⟨u, reason, hreason⟩ := List.exists_cons_of_ne_nil h
    simp [Wish.acts, Wish.body, Rpc.Program.acts, session, Page.act, Bar.live, hreason,
      Page.resume, Current.resumeId]

section run
variable {ι : Type} [DecidableEq ι] {n : Network ι} {m : Moment} {caseId : Text}
  {caseRecord : CaseRecord} {report : AdjusterReport} {moves : ServerState → ServerState → Prop}

/-- The case is picked on a page, served and answered: the page is on the run, which waits. -/
theorem case_can_be_run (i : ι) (hready : Ready m n.server)
    (harrives : Arrives n.server.env m.world caseId caseRecord report)
    (hgate : needsHuman (demoAlwaysGate n.server.env)
      (gateFlow n.server.env m.world caseId caseRecord report) = true) :
    ∃ (n' : Network ι) (body : RunBody) (before : Page),
      Relation.ReflTransGen (Rpc.Step session Ready moves) n n' ∧
        n'.server = (postRun m.world caseId m.newId n.server).2 ∧
        n'.server.disk = n.server.disk ∧
        n'.server.runs m.newId = .suspended "gate"
          (gateFlow n.server.env m.world caseId caseRecord report) ∧
        (n'.clients i).current =
          some { runId := some body.runId, caseId, payload := .ran body } ∧
        (n'.clients i).bar = (renderBar (.ran body) before).bar ∧
        body.runId = m.newId ∧ body.caseId = caseId ∧
        Pictures body (gateFlow n.server.env m.world caseId caseRecord report) := by
  obtain ⟨left, hleft, rfl⟩ := buildLeft_onFile harrives.onFile
  have hrun : postRun m.world caseId m.newId n.server = _ := postRun_suspends harrives hleft hgate
  have hact : session.act (.runCase caseId) (n.clients i) =
      some (showRunning { n.clients i with active := some caseId }, some (.run caseId)) := rfl
  have hsteps : Relation.ReflTransGen (Rpc.Step session Ready moves) n _ :=
    Rpc.steps_exchange hact hready
  let body := suspendedBody m.newId caseId left
    (suspendPayload (gateFlow n.server.env m.world caseId left.caseRecord report))
  let running := showRunning { n.clients i with active := some caseId }
  have hread := @runAnswered_suspended body rfl caseId running
  refine ⟨_, body, running, hsteps, rfl, ?_, ?_, ?_, ?_, rfl, rfl, n.server.env, m.world, caseId, left,
    report, rfl, rfl⟩
  · simp only [session, PageCall.request, handle, hrun]
  · simp only [session, PageCall.request, handle, hrun, Function.update_self]
  · simp only [session, PageCall.request, handle, hrun, Function.update_self, Page.read]
    exact hread.1
  · simp only [session, PageCall.request, handle, hrun, Function.update_self, Page.read]
    exact hread.2

/-- With the run answered, the wish is posted for it, from a page that shows it. -/
theorem wish_in_flight (i : ι) (wish : Wish) (hready : Ready m n.server)
    (harrives : Arrives n.server.env m.world caseId caseRecord report)
    (hgate : needsHuman (demoAlwaysGate n.server.env)
      (gateFlow n.server.env m.world caseId caseRecord report) = true) :
    ∃ (n' : Network ι) (body : RunBody) (calls : List (Rpc.Call ι Page PageCall))
      (call : Rpc.Call ι Page PageCall),
      Relation.ReflTransGen (Rpc.Step session Ready moves) n n' ∧
        n'.server = (postRun m.world caseId m.newId n.server).2 ∧
        n'.server.disk = n.server.disk ∧
        n'.server.runs m.newId = .suspended "gate"
          (gateFlow n.server.env m.world caseId caseRecord report) ∧
        n'.calls = calls ++ [call] ∧ call.client = i ∧
        call.request = .resume m.newId ((wish.body body.review).stringify.getD []) ∧
        body.runId = m.newId ∧ body.caseId = caseId ∧
        Pictures body (gateFlow n.server.env m.world caseId caseRecord report) := by
  obtain ⟨n', body, before, hsteps, hserver, hdisk, hsuspended, hcurrent, hbar, hid, hcase,
    hpicture⟩ := case_can_be_run i hready harrives hgate
  obtain ⟨next, hacts⟩ := wish_posted wish hcurrent hbar
  obtain ⟨calls, hcalls, hclient, hposted⟩ : ∃ calls : List (Rpc.Call ι Page PageCall),
      calls.map (·.request) = _ ∧ (∀ call ∈ calls, call.client = i) ∧
        Relation.ReflTransGen (Rpc.Step session Ready moves) n' _ := Rpc.steps_acts hacts
  obtain ⟨call, rfl, hrequest⟩ := List.map_eq_singleton_iff.mp hcalls
  exact ⟨_, body, n'.calls, call, hsteps.trans hposted, hserver, hdisk, hsuspended, rfl,
    hclient call (List.mem_singleton_self _), by rw [hrequest, hid], hid, hcase, hpicture⟩

/-- And once it is served it is recorded, if the log can be written, and answered. -/
theorem wish_served (i : ι) (wish : Wish) {m' : Moment} (hready : Ready m n.server)
    (harrives : Arrives n.server.env m.world caseId caseRecord report)
    (hgate : needsHuman (demoAlwaysGate n.server.env)
      (gateFlow n.server.env m.world caseId caseRecord report) = true)
    (hready' : Ready m' (postRun m.world caseId m.newId n.server).2)
    (happends : m'.world.faults.appends) :
    ∃ (n' : Network ι) (body : RunBody) (call : Rpc.Call ι Page PageCall) (replies : List _)
      (status : Text) (audit : Option AuditInfo) (row : AuditEntry),
      Relation.ReflTransGen (Rpc.Step session Ready moves) n n' ∧
        n'.server.disk.log = n.server.disk.log ++ [row] ∧ ShownIn body row ∧
        Signs (wish.data body.review) row ∧ body.runId = m.newId ∧ body.caseId = caseId ∧
        call.client = i ∧ (∃ text, call.request = .resume m.newId text) ∧
        n'.replies = replies ++ [(call,
          some (.resumed m.newId status (wish.data body.review).decision audit))] := by
  obtain ⟨n₁, body, calls, call, hsteps, hserver, hdisk, hsuspended, hcalls, hclient, hrequest,
    hid, hcase, hpicture⟩ := wish_in_flight i wish hready harrives hgate
  have hserved : Rpc.Step session Ready moves n₁ _ :=
    Rpc.Step.serve_last hcalls (hserver ▸ hready')
  -- the run waits with what the page was told, and the wish comes through
  obtain ⟨resumeData, hcheck, hschema⟩ :=
    (wish.carries body.review).comes_through (wish.lawful body.review)
  have hacc : Accepted n₁.server m.newId (some (wish.body body.review)) (wish.data body.review)
      (gateFlow n.server.env m.world caseId caseRecord report) :=
    ⟨⟨_, resumeData, hcheck, hschema⟩, hsuspended⟩
  have hanswer : session.serve m' call.request n₁.server =
      postResume m'.world m.newId (some (wish.body body.review)) n₁.server := by
    simp only [hrequest, session, PageCall.request, handle, wish.parse_body]
  have hin : ShownIn body (resumedRow n₁.server.env m'.world body.runId (wish.data body.review)
    (gateFlow n.server.env m.world caseId caseRecord report)) := hpicture.shownIn ..
  rw [hid] at hin
  obtain ⟨status, audit, hreply⟩ : ∃ status audit, (session.serve m' call.request n₁.server).1 =
      .resumed m.newId status (wish.data body.review).decision audit := by
    rw [hanswer, postResume_accepted m'.world hacc]
    exact ⟨_, _, rfl⟩
  refine ⟨_, body, call, n₁.replies, status, audit, _, hsteps.tail hserved, ?_, hin, resumedRow_signs ..,
    hid, hcase, hclient, ⟨_, hrequest⟩, ?_⟩
  · rw [← hdisk]
    simp only [hanswer, postResume_accepted m'.world hacc]
    exact resumeRun_log _ _ _ _ _ happends
  · rw [hreply]

end run

/-! A case on file, an agent whose output has no review, and an engine that words its error. -/

def sampleServing : World :=
  { sampleWorld (sampleFiles .decline (some sampleWeather) none) .undefined with
    errors :=
      { notIterable := [], notMappable := [], invalidResume := fun _ => []
        invalidInput := fun _ => []
        notSuspended := lit "This workflow run was not suspended" } }

def sampleMoment (newId : Text) : Moment := { world := sampleServing, newId, numberText := id }

/-- A rule was misread: the decline is overturned. -/
def sampleWish : Wish := .override .overturnDecline .rules (lit "v9") (by decide)

section sample
variable {env : Env} {moves : ServerState → ServerState → Prop}

theorem sample_onServing : OnFile sampleServing.files (lit "A") sampleCase (sampleLoaded .decline) :=
  sample_onFile _ _ _ .undefined

theorem sample_servingTexts : DrnsAreTexts (sampleEnv true) sampleServing (lit "A") sampleCase
    (sampleLoaded .decline) := fun v hv => by cases hv

theorem sample_servingArrives : Arrives (sampleEnv true) sampleServing (lit "A") sampleCase
    (sampleLoaded .decline) := ⟨sample_onServing, sample_servingTexts⟩

theorem sample_ready {s : ServerState} {newId : Text} (h : s.runs newId = .absent)
    (hne : newId ≠ lit "undefined") : Ready (sampleMoment newId) s := by
  have htext : lit "This workflow run was not suspended" ≠ [] := by decide
  exact ⟨⟨h, hne⟩, htext⟩

theorem sample_ready_next (s : ServerState) (h : s.runs (lit "r2") = .absent) :
    Ready (sampleMoment (lit "r2"))
      (postRun sampleServing (lit "A") (lit "r1") s).2 := by
  have hne : lit "r2" ≠ lit "r1" := by decide
  refine sample_ready ?_ (by decide)
  rw [postRun_other _ _ hne, h]

theorem sample_gates : needsHuman (demoAlwaysGate (sampleEnv true))
    (gateFlow (sampleEnv true) sampleServing (lit "A") sampleCase (sampleLoaded .decline)) = true := by
  have hdemo : demoAlwaysGate (sampleEnv true) = true := rfl
  simp [needsHuman, hdemo]

end sample
end StormReview
