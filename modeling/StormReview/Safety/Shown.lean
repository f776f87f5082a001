import StormReview.Safety.Posting

/-! What a page knows of the server, however what it posted and was answered got mixed up on the
way; and from it, that a decision is recorded for what the page showed when it was taken. -/
namespace StormReview
open Js Zod Engine

/-! What a page shows of an answer to a run. -/

/-- The right panel after the answer. -/
def rightPanel (d : Response) : RightPanel :=
  match d, d.review with
  | .ran body, some rev => .reviewed body rev
  | _, _ =>
    if d.status = some (lit "failed") then .notProduced (orText d.error (orText d.suspendReason []))
    else .noReview

theorem renderRight_of_review {d : Response} {rev : Review} (h : d.review = some rev) (p : Page) :
    renderRight d p = { p with right := rightPanel d } := by
  cases d with
  | ran body => simp [renderRight, rightPanel, h]
  | _ => cases h

theorem renderRight_of_none {d : Response} (h : d.review = none) (p : Page) :
    renderRight d p =
      if d.status = some (lit "failed") then p else { p with right := .noReview } := by
  cases d with
  | ran body => simp [renderRight, h]
  | _ => rfl

theorem rightPanel_of_none {d : Response} (h : d.review = none) :
    rightPanel d =
      if d.status = some (lit "failed") then
        .notProduced (orText d.error (orText d.suspendReason []))
      else .noReview := by
  cases d with
  | ran body => simp [rightPanel, h]
  | _ => rfl

/-- Everything of the page that an answer to a run replaces. -/
theorem runAnswered_eq (caseId : Text) (d : Response) (p : Page) :
    runAnswered caseId d p =
      { p with
        current := some { runId := d.runId, caseId, payload := d }
        left := d.left.elim .blank .shown
        right := rightPanel d
        bar := if d.status = some (lit "suspended") then (renderBar d p).bar else p.bar } := by
  have hne : (some (lit "suspended") : Option Text) ≠ some (lit "failed") := by decide
  unfold runAnswered
  cases hr : d.review with
  | some rev =>
    simp only [renderRight_of_review hr]
    split <;> split <;> rfl
  | none =>
    rw [rightPanel_of_none hr]
    simp only [renderRight_of_none hr]
    by_cases hs : d.status = some (lit "suspended")
    · simp only [hs, hne, if_true, if_false, ne_eq, not_true_eq_false, and_false, or_self]
      rfl
    · by_cases hf : d.status = some (lit "failed")
      · simp only [hf, hne.symm, if_true, if_false, true_or]
        rfl
      · simp only [hs, hf, if_true, if_false, ne_eq, not_false_eq_true, and_true, false_or,
          Option.isNone_none]
        rfl

/-- The panels are those of the answer; the right one may report a case that was not reached. -/
def Displays (p : Page) (d : Response) : Prop :=
  p.left = d.left.elim .blank .shown ∧ (p.right = rightPanel d ∨ p.right = .unreachable)

/-- The bar announces what accepting the review records, and accepting it asks for the tick that
the review calls for. -/
structure BarFor (review : Option Review) (b : Bar) : Prop where
  willRecord : b.willRecord = review.elim [] willRecordText
  friction : b.frictionShown = needsFriction review
  approve : b.approveDisabled = (needsFriction review && !b.readEvidence)

/-! What an answer tells of the server, for as long as it is remembered. -/

/-- The body is the answer to a run that suspended with `flow`. -/
def Pictures (body : RunBody) (flow : Flow) : Prop :=
  ∃ env world caseId left report,
    body = suspendedBody body.runId caseId left (suspendPayload flow) ∧
      flow = gateFlow env world caseId left.caseRecord report

/-- No resume under this id is accepted any more, or ever. -/
def Shut (id : Text) (s : ServerState) : Prop :=
  s.runs id = .closed ∨ id = lit "undefined" ∧ s.runs id = .absent

/-- What the page is on: a run that suspended with what the page was told, and is over by now if
it no longer waits; or nothing that can be decided. -/
def Grounded (s : ServerState) (c : Current) : Prop :=
  (∃ body flow, c.payload = .ran body ∧ c.runId = some body.runId ∧ body.caseId = c.caseId ∧
      Pictures body flow ∧ Held body.runId flow s) ∨
    c.payload.status ≠ some (lit "suspended") ∧ Shut c.resumeId s

/-- The decision was accepted: its run is over, and its row is in the log if the run says so. -/
def Filed (s : ServerState) (d : Response) : Prop :=
  ∃ runId status decision audit, d = .resumed runId status decision audit ∧
    s.runs runId = .closed ∧
    (status = lit "success" →
      ∃ row ∈ s.disk.log, row.runId = runId ∧ row.decision = .signed decision)

/-- What the answer to a call tells. -/
def Told (s : ServerState) : PageCall → Response → Prop
  | .run caseId, d => Grounded s { runId := d.runId, caseId, payload := d }
  | .resume _ _, d => d.error.getD [] ≠ [] ∨ Filed s d

/-- What a page knows. -/
structure PageSound (s : ServerState) (p : Page) : Prop where
  unnamed : s.runs (lit "undefined") = .absent
  current : ∀ c, p.current = some c → Grounded s c
  bar : ∀ c, p.current = some c → c.payload.status = some (lit "suspended") →
    BarFor c.payload.review p.bar
  forms : p.bar.overrideForm = true ∨ p.bar.escalateForm = true → p.bar.actionsShown = true
  panels : p.bar.live = true → ∃ c, p.current = some c ∧ Displays p c.payload
  done : p.bar.doneShown = true → ∃ d, p.bar.doneMsg = some d ∧ Filed s d
  locked : p.bar.doneShown = true → p.bar.actionsShown = false

/-! The server moves, and all of it stays true. -/

section moves
variable {world : World} {request : Request} {s : ServerState}

theorem FreshId.ne {id runId : Text} (h : FreshId s id) (hruns : s.runs runId ≠ .absent) :
    id ≠ runId := fun he => hruns (he ▸ h.1)

theorem Held.moved {runId : Text} {flow : Flow} (hs : Held runId flow s)
    (hfresh : ∀ caseId id, request = .run caseId id → FreshId s id) :
    Held runId flow (StormReview.handle world request s).2 := by
  refine hs.handle (world, request) fun caseId he => (hfresh caseId runId he).ne ?_ rfl
  rcases hs with h | h
  · simp [h]
  · simp [h]

theorem closed_moved {runId : Text} (hs : s.runs runId = .closed)
    (hfresh : ∀ caseId id, request = .run caseId id → FreshId s id) :
    (handle world request s).2.runs runId = .closed := by
  have hother : ∀ caseId, request ≠ .run caseId runId := fun caseId he =>
    (hfresh caseId runId he).ne (by simp [hs]) rfl
  rcases handle_runs_other world hother with h | ⟨-, h⟩
  · exact h.trans hs
  · exact h

theorem unnamed_moved (hs : s.runs (lit "undefined") = .absent)
    (hfresh : ∀ caseId id, request = .run caseId id → FreshId s id) :
    (handle world request s).2.runs (lit "undefined") = .absent := by
  have hother : ∀ caseId, request ≠ .run caseId (lit "undefined") := fun caseId he =>
    (hfresh caseId _ he).2 rfl
  rcases handle_runs_other world hother with h | ⟨⟨input, h⟩, -⟩
  · exact h.trans hs
  · simp [hs] at h

theorem Grounded.moved {c : Current} (h : Grounded s c)
    (hfresh : ∀ caseId id, request = .run caseId id → FreshId s id) :
    Grounded (handle world request s).2 c := by
  rcases h with ⟨body, flow, hpayload, hid, hcase, hpicture, hheld⟩ | ⟨hstatus, hshut⟩
  · exact .inl ⟨body, flow, hpayload, hid, hcase, hpicture, hheld.moved hfresh⟩
  · refine .inr ⟨hstatus, ?_⟩
    rcases hshut with hclosed | ⟨hname, habsent⟩
    · exact .inl (closed_moved hclosed hfresh)
    · rw [hname] at habsent ⊢
      exact .inr ⟨rfl, unnamed_moved habsent hfresh⟩

theorem Filed.moved {d : Response} (h : Filed s d)
    (hfresh : ∀ caseId id, request = .run caseId id → FreshId s id) :
    Filed (handle world request s).2 d := by
  obtain ⟨runId, status, decision, audit, rfl, hclosed, hrow⟩ := h
  refine ⟨runId, status, decision, audit, rfl, closed_moved hclosed hfresh, fun hs => ?_⟩
  obtain ⟨row, hmem, hsays⟩ := hrow hs
  exact ⟨row, mem_log_handle hmem, hsays⟩

theorem Told.moved {call : PageCall} {d : Response} (h : Told s call d)
    (hfresh : ∀ caseId id, request = .run caseId id → FreshId s id) :
    Told (handle world request s).2 call d := by
  cases call with
  | run caseId => exact Grounded.moved h hfresh
  | resume runId text => exact h.imp id fun hfiled => hfiled.moved hfresh

theorem PageSound.moved {p : Page} (h : PageSound s p)
    (hfresh : ∀ caseId id, request = .run caseId id → FreshId s id) :
    PageSound (handle world request s).2 p where
  unnamed := unnamed_moved h.unnamed hfresh
  current c hc := (h.current c hc).moved hfresh
  bar := h.bar
  forms := h.forms
  panels := h.panels
  done hd := by
    obtain ⟨d, hmsg, hfiled⟩ := h.done hd
    exact ⟨d, hmsg, hfiled.moved hfresh⟩
  locked := h.locked

end moves

/-- The request of a call starts a run under the id of its moment only. -/
theorem Ready.fresh {m : Moment} {s : ServerState} (h : Ready m s) (call : PageCall) :
    ∀ caseId id, call.request m = .run caseId id → FreshId s id := by
  intro caseId id he
  cases call with
  | run _ =>
    cases he
    exact h.1
  | resume _ _ => cases he

/-- The row of a run that suspended shows what its answer showed. -/
theorem Pictures.shownIn {body : RunBody} {flow : Flow} (h : Pictures body flow) (env : Env)
    (world : World) (data : ResumeData) :
    ShownIn body (resumedRow env world body.runId data flow) := by
  obtain ⟨env', world', caseId, left, report, hbody, rfl⟩ := h
  rw [hbody]
  exact resumedRow_shownIn ..

/-! The handler acts. -/

theorem pageSound_initial (env : Env) : PageSound (.initial env) .initial where
  unnamed := rfl
  current c hc := by cases hc
  bar c hc := by cases hc
  forms h := by simp [Page.initial] at h
  panels h := by simp [Page.initial, Bar.live] at h
  done h := by cases h
  locked h := by cases h

theorem PageSound.says {s : ServerState} {p : Page} (h : PageSound s p) (text : Text) :
    PageSound s (barSays text p) := by
  refine ⟨h.unnamed, h.current, fun c hc hs => ?_, h.forms, h.panels, h.done, h.locked⟩
  exact ⟨(h.bar c hc hs).willRecord, (h.bar c hc hs).friction, (h.bar c hc hs).approve⟩

theorem PageSound.act {s : ServerState} {p next : Page} {a : PageAct} {sent : Option PageCall}
    (h : PageSound s p) (hact : p.act a = some (next, sent)) : PageSound s next := by
  cases a with
  | runCase caseId =>
    obtain ⟨rfl, -⟩ : showRunning { p with active := some caseId } = next ∧ _ := by
      simpa [Page.act] using hact
    refine ⟨h.unnamed, h.current, fun c hc hs => ?_, h.forms, fun hlive => ?_, h.done, h.locked⟩
    · exact ⟨(h.bar c hc hs).willRecord, (h.bar c hc hs).friction, (h.bar c hc hs).approve⟩
    · simp [showRunning, Bar.live] at hlive
  | tick =>
    simp only [Page.act] at hact
    split at hact
    · rename_i hshown
      cases hact
      refine ⟨h.unnamed, h.current, fun c hc hs => ?_, h.forms, h.panels, h.done, h.locked⟩
      obtain ⟨hrecord, hfriction, -⟩ := h.bar c hc hs
      exact ⟨hrecord, hfriction, by simp [← hfriction, hshown.2]⟩
    · cases hact
  | approve =>
    simp only [Page.act] at hact
    split at hact
    · cases hact
      exact h
    · cases hact
  | overrideBtn =>
    simp only [Page.act] at hact
    split at hact
    · rename_i hlive
      cases hact
      have hactions : p.bar.actionsShown = true := by
        simp only [Bar.live, Bool.and_eq_true] at hlive
        exact hlive.2
      refine ⟨h.unnamed, h.current, fun c hc hs => ?_, fun _ => hactions, h.panels, h.done,
        h.locked⟩
      exact ⟨(h.bar c hc hs).willRecord, (h.bar c hc hs).friction, (h.bar c hc hs).approve⟩
    · cases hact
  | escalateBtn =>
    simp only [Page.act] at hact
    split at hact
    · rename_i hlive
      cases hact
      have hactions : p.bar.actionsShown = true := by
        simp only [Bar.live, Bool.and_eq_true] at hlive
        exact hlive.2
      refine ⟨h.unnamed, h.current, fun c hc hs => ?_, fun _ => hactions, h.panels, h.done,
        h.locked⟩
      exact ⟨(h.bar c hc hs).willRecord, (h.bar c hc hs).friction, (h.bar c hc hs).approve⟩
    · cases hact
  | fillOverride form =>
    simp only [Page.act] at hact
    split at hact
    · cases hact
      exact ⟨h.unnamed, h.current, h.bar, h.forms, h.panels, h.done, h.locked⟩
    · cases hact
  | fillEscalate form =>
    simp only [Page.act] at hact
    split at hact
    · cases hact
      exact ⟨h.unnamed, h.current, h.bar, h.forms, h.panels, h.done, h.locked⟩
    · cases hact
  | ovSubmit =>
    simp only [Page.act] at hact
    split at hact
    · split at hact
      · cases hact
        exact h
      · cases hact
        exact h.says _
    · cases hact
  | esSubmit =>
    simp only [Page.act] at hact
    split at hact
    · split at hact
      · cases hact
        exact h
      · cases hact
        exact h.says _
    · cases hact

/-! The server answers, and the page reads the answer. -/

theorem told_postRun {m : Moment} {s : ServerState}
    (hunnamed : s.runs (lit "undefined") = .absent) (caseId : Text) :
    Told (postRun m.world caseId m.newId s).2 (.run caseId)
      (postRun m.world caseId m.newId s).1 := by
  cases hl : buildLeft m.world.files caseId with
  | none =>
    simp only [postRun, hl]
    exact .inr ⟨fun he => (by cases he), .inr ⟨rfl, hunnamed⟩⟩
  | some left =>
    obtain ⟨body, hrun⟩ : ∃ body, (postRun m.world caseId m.newId s).1 = .ran body :=
      ⟨_, by simp only [postRun, hl]; rfl⟩
    rw [hrun]
    by_cases hstatus : body.status = lit "suspended"
    · obtain ⟨caseRecord, report, left, -, rfl, hbody, hs⟩ := postRun_suspended hrun hstatus
      have hid : body.runId = m.newId := by
        rw [hbody]
        rfl
      have hcase : body.caseId = caseId := by
        rw [hbody]
        rfl
      have hpicture : Pictures body (gateFlow s.env m.world caseId left.caseRecord report) :=
        ⟨s.env, m.world, caseId, left, report, by rw [hid, ← hbody], rfl⟩
      refine .inl ⟨body, _, rfl, rfl, hcase, hpicture, .inl ?_⟩
      rw [hs, hid]
      exact Function.update_self ..
    · obtain ⟨hid, hclosed⟩ := postRun_over hrun hstatus
      refine .inr ⟨fun he => hstatus (Option.some.inj he), .inl ?_⟩
      show (postRun m.world caseId m.newId s).2.runs body.runId = .closed
      rw [hid, hclosed]

theorem told_postResume {m : Moment} {s : ServerState} (hready : Ready m s) {p next : Page}
    {a : PageAct} {runId text : Text} (hact : p.act a = some (next, some (.resume runId text))) :
    Told (postResume m.world runId (Json.parse m.numberText text) s).2 (.resume runId text)
      (postResume m.world runId (Json.parse m.numberText text) s).1 := by
  obtain ⟨data, c, hdecides, -, -, v, hcarries, hparse⟩ := act_resume hact
  rw [hparse]
  rcases hcarries.served hdecides.lawful m.world runId s with ⟨input, hacc⟩ | ⟨-, hrejected⟩
  · rw [postResume_accepted m.world hacc]
    refine .inr ⟨runId, _, _, _, rfl, Function.update_self .., fun hstatus => ?_⟩
    have hfailed : lit "failed" ≠ lit "success" := by decide
    rcases resumeRun_outcomes s.env m.world runId data input s.disk with
      ⟨-, e, he⟩ | ⟨-, ⟨-, e, he⟩ | ⟨-, he⟩⟩
    · rw [he] at hstatus
      exact absurd hstatus hfailed
    · rw [he] at hstatus
      exact absurd hstatus hfailed
    · rw [he]
      exact ⟨resumedRow s.env m.world runId data input,
        List.mem_append_right _ (List.mem_singleton_self _), rfl, rfl⟩
  · rw [hrejected]
    exact .inl hready.2

theorem PageSound.reads_run {s : ServerState} {p : Page} (h : PageSound s p) {caseId : Text}
    {d : Response} (ht : Told s (.run caseId) d) : PageSound s (runAnswered caseId d p) := by
  rw [runAnswered_eq]
  refine ⟨h.unnamed, fun c hc => ?_, fun c hc hs => ?_, fun hforms => ?_, fun _ => ?_,
    fun hd => ?_, fun hd => ?_⟩
  · cases hc
    exact ht
  · cases hc
    simp only [if_pos (show d.status = some (lit "suspended") from hs)]
    exact ⟨rfl, rfl, by simp [renderBar]⟩
  · by_cases hs : d.status = some (lit "suspended")
    · simp [hs, renderBar] at hforms
    · simp only [hs, if_false] at hforms ⊢
      exact h.forms hforms
  · exact ⟨_, rfl, rfl, .inl rfl⟩
  · by_cases hs : d.status = some (lit "suspended")
    · simp [hs, renderBar] at hd
    · simp only [hs, if_false] at hd ⊢
      exact h.done hd
  · by_cases hs : d.status = some (lit "suspended")
    · simp [hs, renderBar] at hd
    · simp only [hs, if_false] at hd ⊢
      exact h.locked hd

theorem PageSound.reads_resume {s : ServerState} {p : Page} (h : PageSound s p)
    {runId text : Text} {d : Response} (ht : Told s (.resume runId text) d) :
    PageSound s (resumeAnswered d p) := by
  unfold resumeAnswered
  split
  · rename_i herror
    rcases ht with hne | hfiled
    · exact absurd herror hne
    · refine ⟨h.unnamed, h.current, fun c hc hs => ?_, nofun, nofun, fun _ => ⟨d, rfl, hfiled⟩,
        fun _ => rfl⟩
      exact ⟨(h.bar c hc hs).willRecord, (h.bar c hc hs).friction, (h.bar c hc hs).approve⟩
  · exact h.says _

/-- What a page knows stays true, and what it is told it may believe. -/
theorem session_lasting : Rpc.Lasting session Ready Elsewhere PageSound Told where
  served hready h := h.moved (hready.fresh _)
  moved := by
    rintro s t c ⟨world, request, hfresh, rfl⟩ h
    exact h.moved hfresh
  toldServed hready h := h.moved (hready.fresh _)
  toldMoved := by
    rintro s t n r ⟨world, request, hfresh, rfl⟩ h
    exact h.moved hfresh
  acts h hact := h.act hact
  answers {m call s _ _ _} hready h hact := by
    cases call with
    | run caseId => exact told_postRun h.unnamed caseId
    | resume runId text => exact told_postResume hready hact
  reads {_ call _ _} h ht := by
    cases call with
    | run caseId => exact h.reads_run ht
    | resume runId text => exact h.reads_resume ht
  fails {_ call _} h := by
    cases call with
    | run caseId =>
      refine ⟨h.unnamed, h.current, h.bar, h.forms, fun hlive => ?_, h.done, h.locked⟩
      obtain ⟨c, hc, hleft, -⟩ := h.panels hlive
      exact ⟨c, hc, hleft, .inr rfl⟩
    | resume runId text => exact h

theorem reached_sound {ι : Type} [DecidableEq ι] {env : Env} {n : Network ι}
    (h : Reached env n) : Rpc.Sound session PageSound Told n :=
  (Rpc.sound_initial (pageSound_initial env)).steps session_lasting h

end StormReview
