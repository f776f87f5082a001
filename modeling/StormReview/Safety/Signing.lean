import StormReview.Safety.Wishes

/-! Pages, server and network together: a decision is recorded for what its handler was shown, the
message that it was filed is true, and the log holds only what the pages can say. -/
namespace StormReview
open Js Zod Engine

/-- What the page showed when its handler decided: the panels of the answer, and a bar for its
review. -/
structure ShownAs (p : Page) (runId : Text) (body : RunBody) : Prop where
  current : ∃ caseId, p.current = some { runId := some runId, caseId, payload := .ran body }
  runId : body.runId = runId
  panels : Displays p (.ran body)
  bar : BarFor body.review p.bar

section decision
variable {s : ServerState} {p : Page} {data : ResumeData}

/-- A decision is taken on a live bar. -/
theorem Decides.live (h : Decides p data) (hp : PageSound s p) : p.bar.live = true := by
  cases h with
  | approve hlive _ => exact hlive
  | override hshown hform _ _ =>
    simp only [Bar.live, hshown, Bool.true_and]
    exact hp.forms (.inl hform)
  | escalate hshown hform _ =>
    simp only [Bar.live, hshown, Bool.true_and]
    exact hp.forms (.inr hform)

theorem Shut.not_suspended {id : Text} (h : Shut id s) (input : Flow) :
    s.runs id ≠ .suspended "gate" input := by
  rcases h with h | ⟨-, h⟩
  · simp [h]
  · simp [h]

/-- A decision of a page that knows: where it is accepted, the run is the one the page shows and
waits with what the page shows. -/
theorem Decides.accepted (h : Decides p data) (hp : PageSound s p) {c : Current}
    (hc : p.current = some c) {v : Value} {input : Flow}
    (hacc : Accepted s c.resumeId (some v) data input) :
    ∃ body, ShownAs p c.resumeId body ∧ Pictures body input := by
  rcases hp.current c hc with ⟨body, flow, hpayload, hid, -, hpicture, hheld⟩ | ⟨-, hshut⟩
  · have hresume : c.resumeId = body.runId := by simp [Current.resumeId, hid]
    rw [hresume] at hacc ⊢
    obtain rfl := hheld.accepted hacc
    obtain ⟨shown, hshown, hpanels⟩ := hp.panels (h.live hp)
    obtain rfl : shown = c := Option.some.inj (hshown.symm.trans hc)
    rw [hpayload] at hpanels
    have hstatus : body.status = lit "suspended" := by
      obtain ⟨env, world, caseId, left, report, hbody, -⟩ := hpicture
      rw [hbody]
      rfl
    have hbar := hp.bar shown hc (by rw [hpayload]; exact congrArg some hstatus)
    rw [hpayload] at hbar
    refine ⟨body, ⟨⟨shown.caseId, ?_⟩, rfl, hpanels, hbar⟩, hpicture⟩
    rw [hc, ← hpayload, ← hid]
  · exact absurd hacc.suspended (hshut.not_suspended input)

/-- An assessment is accepted as the one the page shows, and after the tick it calls for. -/
theorem Decides.approval (h : Decides p data) {runId : Text} {body : RunBody}
    (hshown : ShownAs p runId body) (ha : data.decision = .approve) :
    data.reason = approveReason body.review ∧
      (needsFriction body.review = true → p.bar.readEvidence = true) := by
  obtain ⟨caseId, hc⟩ := hshown.current
  have hreview : p.review = body.review := by
    rw [Page.review, hc]
    rfl
  cases h with
  | override => cases ha
  | escalate => cases ha
  | approve _ henabled =>
    refine ⟨by rw [hreview], fun hneeds => ?_⟩
    rw [hshown.bar.approve, hneeds] at henabled
    simpa using henabled

end decision

/-- What becomes of a decision that a page posted. -/
theorem decision_served {s : ServerState} {p : Page} (hp : PageSound s p) {a : PageAct}
    {next : Page} {runId text : Text} (hact : p.act a = some (next, some (.resume runId text)))
    (m : Moment) :
    ∃ data, Decides p data ∧ Posts text data ∧
      ((∀ input, s.runs runId ≠ .suspended "gate" input) ∧
          postResume m.world runId (Json.parse m.numberText text) s =
            (.rejected runId m.world.errors.notSuspended, s) ∨
        ∃ body input v, Accepted s runId (some v) data input ∧ Json.parse m.numberText text = some v ∧
          ShownAs p runId body ∧ Pictures body input) := by
  obtain ⟨data, c, hdecides, hc, rfl, v, hcarries, hparse⟩ := act_resume hact
  refine ⟨data, hdecides, ⟨v, hcarries, hparse⟩, ?_⟩
  rcases hcarries.served hdecides.lawful m.world c.resumeId s with ⟨input, hacc⟩ | hrejected
  · obtain ⟨body, hshown, hpicture⟩ := hdecides.accepted hp hc hacc
    exact .inr ⟨body, input, v, hacc, hparse _, hshown, hpicture⟩
  · rw [hparse]
    exact .inl hrejected

/-- However pages, server and network interleave: a decision in flight, once served, is rejected
and changes nothing if its run does not wait, and otherwise closes the run and is recorded, if
the log can be written, in a row with what the page showed and with what its handler decided. -/
theorem decision_signs_what_was_shown {ι : Type} [DecidableEq ι] (env : Env) (n : Network ι)
    (h : Reached env n) (call : Rpc.Call ι Page PageCall) (hcall : call ∈ n.calls)
    (runId text : Text) (hresume : call.request = .resume runId text) (m : Moment) :
    let page := call.sentIn
    let answer := session.serve m call.request n.server
    ∃ data, Decides page data ∧ Posts text data ∧
      ((∀ input, n.server.runs runId ≠ .suspended "gate" input) ∧
          answer = (.rejected runId m.world.errors.notSuspended, n.server) ∨
        (∃ input, n.server.runs runId = .suspended "gate" input) ∧
          answer.2.runs runId = .closed ∧
          ∃ body, ShownAs page runId body ∧
            (¬ m.world.faults.appends ∧ answer.2.disk = n.server.disk ∨
              ∃ row, answer.2.disk.log = n.server.disk.log ++ [row] ∧ ShownIn body row ∧
                Signs data row ∧ page.bar.willRecord = row.review.elim [] willRecordText ∧
                (data.decision = .approve → row.reason = approveReason row.review ∧
                  (needsFriction row.review = true → page.bar.readEvidence = true)))) := by
  intro page answer
  obtain ⟨hknows, a, next, hact⟩ := (reached_sound h).calls call hcall
  rw [hresume] at hact
  have hanswer : answer = postResume m.world runId (Json.parse m.numberText text) n.server := by
    simp only [answer, session, hresume, PageCall.request, handle]
  obtain ⟨data, hdecides, hposts, hserved⟩ := decision_served hknows hact m
  refine ⟨data, hdecides, hposts, ?_⟩
  rw [hanswer]
  rcases hserved with hrejected | ⟨body, input, v, hacc, hparse, hshown, hpicture⟩
  · exact .inl hrejected
  · rw [hparse, postResume_accepted m.world hacc]
    refine .inr ⟨⟨input, hacc.suspended⟩, Function.update_self .., body, hshown, ?_⟩
    by_cases happends : m.world.faults.appends
    · have hin : ShownIn body (resumedRow n.server.env m.world runId data input) := by
        rw [← hshown.runId]
        exact hpicture.shownIn ..
      refine .inr ⟨_, ?_, hin, resumedRow_signs .., ?_, fun ha => ?_⟩
      · exact resumeRun_log _ _ _ _ _ happends
      · rw [hin.review]
        exact hshown.bar.willRecord
      · rw [hin.review]
        exact hdecides.approval hshown ha
    · rcases resumeRun_outcomes n.server.env m.world runId data input n.server.disk with
        ⟨-, e, he⟩ | ⟨hf, -⟩
      · rw [he]
        exact .inl ⟨happends, rfl⟩
      · exact absurd hf happends

/-- An override is in flight for a run that waits; served, it is the one row of the log. -/
theorem decision_signs_what_was_shown_sample :
    ∃ (n : Network Unit) (call : Rpc.Call Unit Page PageCall) (row : AuditEntry),
      Reached (sampleEnv true) n ∧ call ∈ n.calls ∧
        (session.serve (sampleMoment (lit "r2")) call.request n.server).2.disk.log = [row] ∧
        row.decision = .signed .override := by
  obtain ⟨n, body, calls, call, hsteps, -, hdisk, hsuspended, hcalls, -, hrequest, -⟩ :=
    wish_in_flight (n := Network.initial (sampleEnv true)) (m := sampleMoment (lit "r1")) () sampleWish
      (sample_ready rfl (by decide)) sample_servingArrives sample_gates
  have hcall : call ∈ n.calls := by simp [hcalls]
  obtain ⟨data, -, ⟨v, hcarries, hparse⟩,
    ⟨hnot, -⟩ | ⟨-, -, shown, -, ⟨hf, -⟩ | ⟨row, hlog, -, hsigns, -⟩⟩⟩ :=
    decision_signs_what_was_shown (sampleEnv true) n hsteps call hcall _ _ hrequest
      (sampleMoment (lit "r2"))
  · exact absurd hsuspended (hnot _)
  · exact absurd ⟨rfl, rfl⟩ hf
  · refine ⟨n, call, row, hsteps, hcall, ?_, ?_⟩
    · rw [hlog, hdisk]
      rfl
    · obtain rfl := Option.some.inj ((hparse id).symm.trans (sampleWish.parse_body _ id))
      have hword : word data.decision = word Decision.override := hcarries.decision.symm
      rw [hsigns.decision, Enum.text_inj data.decision .override (by simpa [word] using hword)]

/-! One row a run. -/

/-- A run with a row is over, and has no other. -/
structure RowsClosed (s : ServerState) : Prop where
  closed : ∀ row ∈ s.disk.log, s.runs row.runId = .closed
  once : (s.disk.log.map (·.runId)).Nodup

theorem RowsClosed.moved {s : ServerState} {world : World} {request : Request} (hs : RowsClosed s)
    (hfresh : ∀ caseId id, request = .run caseId id → FreshId s id) :
    RowsClosed (handle world request s).2 := by
  have hold : ∀ row ∈ s.disk.log, (handle world request s).2.runs row.runId = .closed :=
    fun row hrow => closed_moved (hs.closed row hrow) hfresh
  rcases handle_log world request s with h | ⟨last, h, hclosed, hlast⟩
  · exact ⟨by rwa [h], by rw [h]; exact hs.once⟩
  · -- the run of the new row was not over before
    have hopen : s.runs last.runId ≠ .closed := by
      rcases hlast with ⟨-, caseId, hrun⟩ | ⟨body, data, input, -, hacc, -⟩
      · simp [(hfresh caseId _ hrun).1]
      · simp [hacc.suspended]
    have hnew : last.runId ∉ s.disk.log.map (·.runId) := by
      intro hmem
      obtain ⟨row, hrow, hid⟩ := List.mem_map.mp hmem
      exact hopen (hid ▸ hs.closed row hrow)
    refine ⟨fun row hrow => ?_, ?_⟩
    · rw [h, List.mem_append, List.mem_singleton] at hrow
      rcases hrow with hrow | rfl
      · exact hold row hrow
      · exact hclosed
    · rw [h, List.map_append, List.nodup_append_comm]
      exact List.nodup_cons.mpr ⟨hnew, hs.once⟩

theorem reached_rowsClosed {ι : Type} [DecidableEq ι] {env : Env} {n : Network ι}
    (h : Reached env n) : RowsClosed n.server := by
  refine Rpc.server_invariant session_lasting (Rpc.sound_initial (pageSound_initial env))
    (fun m call s hready _ _ hs => hs.moved (hready.fresh call.request)) ?_
    ⟨fun row hrow => ?_, List.nodup_nil⟩ h
  · rintro s t ⟨world, request, hfresh, rfl⟩ hs
    exact hs.moved hfresh
  · cases hrow

/-- While a page says that a decision was filed, no further decision can be taken on it; the run
it names is over; and if the run ended well the log holds that decision for the run, and nothing
else for it. -/
theorem filed_message_holds {ι : Type} [DecidableEq ι] (env : Env) (n : Network ι)
    (h : Reached env n) (i : ι) (hdone : (n.clients i).bar.doneShown = true) :
    (∀ a next runId text, (n.clients i).act a ≠ some (next, some (.resume runId text))) ∧
      ∃ runId status decision audit,
        (n.clients i).bar.doneMsg = some (.resumed runId status decision audit) ∧
        n.server.runs runId = .closed ∧
        (status = lit "success" →
          ∃ row ∈ n.server.disk.log, row.runId = runId ∧ row.decision = .signed decision ∧
            ∀ other ∈ n.server.disk.log, other.runId = runId → other = row) := by
  have hp := (reached_sound h).clients i
  constructor
  · intro a next runId text hact
    obtain ⟨data, -, hdecides, -⟩ := act_resume hact
    have hlive := hdecides.live hp
    simp [Bar.live, hp.locked hdone] at hlive
  · obtain ⟨d, hmsg, runId, status, decision, audit, rfl, hclosed, hrow⟩ := hp.done hdone
    refine ⟨runId, status, decision, audit, hmsg, hclosed, fun hs => ?_⟩
    obtain ⟨row, hmem, hid, hdecision⟩ := hrow hs
    refine ⟨row, hmem, hid, hdecision, fun other hother hsame => ?_⟩
    exact List.inj_on_of_nodup_map (reached_rowsClosed h).once hother hmem (hsame.trans hid.symm)

/-- The override was served and its answer is read: the page says that it was filed. -/
theorem filed_message_holds_sample : ∃ (n : Network Unit) (runId status : Text)
    (decision : Decision) (audit : Option AuditInfo), Reached (sampleEnv true) n ∧
      (n.clients ()).bar.doneMsg = some (.resumed runId status decision audit) ∧
      n.server.runs runId = .closed := by
  obtain ⟨n, body, call, replies, status, audit, row, hsteps, -, -, -, -, -, hclient, ⟨text, hrequest⟩,
    hreplies⟩ := wish_served (n := Network.initial (sampleEnv true)) (m := sampleMoment (lit "r1"))
      () sampleWish (sample_ready rfl (by decide)) sample_servingArrives sample_gates
      (sample_ready_next _ rfl) ⟨rfl, rfl⟩
  have hread : Rpc.Step session Ready Elsewhere n _ := .read hreplies
  have hreached : Reached (sampleEnv true) _ := hsteps.tail hread
  obtain ⟨-, runId, status, decision, audit, hmsg, hclosed, -⟩ :=
    filed_message_holds (sampleEnv true) _ hreached () (by
      simp [hclient, hrequest, session, Page.read, resumeAnswered, Response.error, lockAndShowDone])
  exact ⟨_, runId, status, decision, audit, hreached, hmsg, hclosed⟩

/-! What the log can say when nobody but the pages posts. -/

/-- The process may be restarted with other settings, and nothing else happens to the server. -/
def Restarted (s t : ServerState) : Prop := ∃ env, t = { s with env }

/-- A row as a page words it, or one that the gate filed itself. -/
inductive Worded (row : AuditEntry) : Prop
  | filed : row.decision = .autoFiled → Worded row
  | approved : row.decision = .signed .approve → row.reason = approveReason row.review →
      row.failureMode = none → row.domainNote = none → Worded row
  | overridden {outcome : Outcome} {typed : Text} {mode : FailureMode} :
      row.decision = .signed .override → trim typed ≠ [] →
      row.reason = overrideReason outcome (trim typed) → row.failureMode = some mode →
      row.domainNote = some outcome.text → Worded row
  | escalated {esTo : EscalateTo} {typed : Text} :
      row.decision = .signed .escalate → trim typed ≠ [] →
      row.reason = escalateReason esTo (trim typed) → row.failureMode = none →
      row.domainNote = some (Enum.text esTo) → Worded row

theorem Decides.worded {p : Page} {data : ResumeData} (h : Decides p data) {runId : Text}
    {body : RunBody} (hshown : ShownAs p runId body) {row : AuditEntry} (hin : ShownIn body row)
    (hsigns : Signs data row) : Worded row := by
  have happroval := h.approval hshown
  rw [← hin.review] at happroval
  obtain ⟨hdecision, hreason, hmode, hnote⟩ := hsigns
  cases h with
  | approve _ _ => exact .approved hdecision (hreason.trans (happroval rfl).1) hmode hnote
  | override _ _ _ htyped => exact .overridden hdecision htyped hreason hmode hnote
  | escalate _ _ htyped => exact .escalated hdecision htyped hreason hmode hnote

theorem worded_served {ι : Type} {m : Moment} {call : Rpc.Call ι Page PageCall} {s : ServerState}
    (hp : PageSound s call.sentIn) (hmade : call.Made session)
    (hs : ∀ row ∈ s.disk.log, Worded row) :
    ∀ row ∈ (session.serve m call.request s).2.disk.log, Worded row := by
  obtain ⟨client, sentIn, request⟩ := call
  obtain ⟨a, next, hact⟩ := hmade
  -- at most one row is new, and it is worded
  have hnew {t : ServerState} (ht : t.disk.log = s.disk.log ∨
      ∃ row, t.disk.log = s.disk.log ++ [row] ∧ Worded row) : ∀ row ∈ t.disk.log, Worded row := by
    rcases ht with ht | ⟨last, ht, hlast⟩
    · rwa [ht]
    · intro row hrow
      rw [ht, List.mem_append, List.mem_singleton] at hrow
      rcases hrow with hrow | rfl
      · exact hs row hrow
      · exact hlast
  cases request with
  | run caseId =>
    refine hnew ?_
    rcases handle_log m.world (.run caseId m.newId) s with h | ⟨row, h, -, hrow⟩
    · exact .inl h
    · refine .inr ⟨row, h, ?_⟩
      rcases hrow with ⟨hfiled, -⟩ | ⟨_, _, _, he, -⟩
      · exact .filed hfiled
      · cases he
  | resume runId text =>
    obtain ⟨data, hdecides, -,
      ⟨-, hrejected⟩ | ⟨body, input, v, hacc, hparse, hshown, hpicture⟩⟩ :=
      decision_served hp hact m
    · have hsame : (session.serve m (.resume runId text) s).2 = s := congrArg Prod.snd hrejected
      rwa [hsame]
    · refine hnew ?_
      have hstate : (session.serve m (.resume runId text) s).2.disk =
          (resumeRun s.env m.world runId data input s.disk).2 := by
        simp only [session, PageCall.request, handle, hparse, postResume_accepted m.world hacc]
      rw [hstate]
      rcases (resumeRun_cases s.env m.world runId data input s.disk).2 with h | h
      · exact .inl (by rw [h])
      · refine .inr ⟨_, h, hdecides.worded hshown ?_ (resumedRow_signs ..)⟩
        rw [← hshown.runId]
        exact hpicture.shownIn ..

/-- Where only pages post, in any number and order, over lossy connections and restarts: every row
of the log was filed by the gate itself, or says in a page's words what was decided, and an
approval names the assessment that stands in its row. -/
theorem pages_word_the_log {ι : Type} [DecidableEq ι] (env : Env) (n : Network ι)
    (h : Relation.ReflTransGen (Rpc.Step session Ready Restarted) (Network.initial env) n) :
    ∀ row ∈ n.server.disk.log, Worded row := by
  have helse : ∀ s t, Restarted s t → Elsewhere s t := by
    rintro s t ⟨env, rfl⟩
    exact ⟨sampleWorld (sampleFiles .decline none none) .undefined, .restart env,
      fun caseId id he => (by cases he), rfl⟩
  refine Rpc.server_invariant (session_lasting.mono helse)
    (Rpc.sound_initial (pageSound_initial env))
    (fun m call s _ hp hmade hs => worded_served hp hmade hs) ?_ ?_ h
  · rintro s t ⟨env, rfl⟩ hs
    exact hs
  · intro row hrow
    cases hrow

/-- One page overrides, and nothing else happens: the log holds its one worded row. -/
theorem pages_word_the_log_sample : ∃ (n : Network Unit) (row : AuditEntry),
    Relation.ReflTransGen (Rpc.Step session Ready Restarted) (Network.initial (sampleEnv true)) n ∧
      n.server.disk.log = [row] ∧ Worded row := by
  obtain ⟨n, body, call, replies, status, audit, row, hsteps, hlog, -⟩ :=
    wish_served (n := Network.initial (sampleEnv true)) (m := sampleMoment (lit "r1"))
      () sampleWish (sample_ready rfl (by decide)) sample_servingArrives sample_gates
      (sample_ready_next _ rfl) ⟨rfl, rfl⟩
  exact ⟨n, row, hsteps, hlog, pages_word_the_log (sampleEnv true) n hsteps row (by simp [hlog])⟩

end StormReview
