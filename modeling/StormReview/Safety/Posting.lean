import StormReview.Ui.Session

/-! What a page posts is always a decision that the server's checks and the schema let through. -/
namespace StormReview
open Js Zod Engine

/-- A body that says what the gate will be resumed with. -/
structure Carries (v : Value) (data : ResumeData) : Prop where
  decision : v.get (lit "decision") = word data.decision
  reason : v.get (lit "reason") = .str data.reason
  failureMode : v.get (lit "failureMode") = data.failureMode.elim .undefined word
  domainNote : v.get (lit "domainNote") = data.domainNote.elim .undefined .str

/-- A lawful decision, put into a body, comes through to the engine as it is. -/
theorem Carries.comes_through {v : Value} {data : ResumeData} (h : Carries v data)
    (hlawful : LawfulDecision data.decision data.reason data.failureMode) :
    ∃ resumeData, checkResume v = .ok (data.decision, resumeData) ∧
      resumeSchema resumeData = .ok data := by
  have hdecision : (enum (v.get (lit "decision")) : Parsed Decision) = .ok data.decision :=
    enum_eq_ok.mpr h.decision
  have hreason (hneeds : data.decision = .override ∨ data.decision = .escalate) :
      (v.get (lit "reason")).truthy = true := by
    rw [h.reason, Value.truthy_str_iff]
    exact hneeds.elim (fun ho => (hlawful.override ho).1) hlawful.escalate
  have hmode (ho : data.decision = .override) : (v.get (lit "failureMode")).truthy = true := by
    obtain ⟨mode, hsome⟩ := Option.isSome_iff_exists.mp (hlawful.override ho).2
    rw [h.failureMode, hsome]
    cases mode <;> rfl
  refine ⟨.obj [(lit "decision", word data.decision), (lit "reason", .str data.reason),
    (lit "failureMode", data.failureMode.elim .undefined word),
    (lit "domainNote", data.domainNote.elim .undefined .str)], ?_, ?_⟩
  · simp only [checkResume, hdecision]
    rw [if_neg (by simpa using hreason), if_neg (by simpa using hmode)]
    rw [h.reason, h.failureMode, h.domainNote, Value.orElse_of_not_nullish (Value.isNullish_str _)]
  · obtain ⟨decision, reason, failureMode, domainNote⟩ := data
    have hd : (enum (word decision) : Parsed Decision) = .ok decision := enum_eq_ok.mpr rfl
    have hm : optional enum (failureMode.elim .undefined word) = .ok failureMode := by
      cases failureMode with
      | none => rfl
      | some mode => cases mode <;> rfl
    have hn : optional string (domainNote.elim .undefined .str) = .ok domainNote := by
      cases domainNote <;> rfl
    rw [resumeSchema, object_of_obj _ _ ⟨_, rfl⟩, field_of_get rfl hd,
      field_of_get rfl (string_str reason), field_of_get rfl hm, field_of_get rfl hn]
    rfl

/-- A decision that the state of the page lets its handler take, as the gate will receive it. -/
inductive Decides (p : Page) : ResumeData → Prop
  | approve : p.bar.live = true → p.bar.approveDisabled = false →
      Decides p
        { decision := .approve, reason := approveReason p.review
          failureMode := none, domainNote := none }
  | override {mode : FailureMode} : p.bar.shown = true → p.bar.overrideForm = true →
      p.override.ovMode = some mode → trim p.override.ovReason ≠ [] →
      Decides p
        { decision := .override
          reason := overrideReason p.override.ovOutcome (trim p.override.ovReason)
          failureMode := some mode, domainNote := some p.override.ovOutcome.text }
  | escalate : p.bar.shown = true → p.bar.escalateForm = true → trim p.escalate.esReason ≠ [] →
      Decides p
        { decision := .escalate
          reason := escalateReason p.escalate.esTo (trim p.escalate.esReason)
          failureMode := none, domainNote := some (Enum.text p.escalate.esTo) }

theorem Decides.lawful {p : Page} {data : ResumeData} (h : Decides p data) :
    LawfulDecision data.decision data.reason data.failureMode := by
  cases h with
  | approve => exact ⟨nofun, nofun⟩
  | override _ _ _ hreason => exact ⟨fun _ => ⟨by simp [overrideReason, hreason], rfl⟩, nofun⟩
  | escalate _ _ hreason => exact ⟨nofun, fun _ => by simp [escalateReason, hreason]⟩

section posted
variable {numberText : Text → Text}

/-- An object of texts under distinct names reads back from its JSON. -/
theorem parse_texts {fields : List (Text × Value)}
    (hkeys : (fields.map (·.1)).Pairwise fun k k' => k ≠ k' ∧ Json.listedBefore k k' = true)
    (hvalues : ∀ f ∈ fields, ∃ s, f.2 = .str s) :
    Json.parse numberText ((Value.obj fields).stringify.getD []) = some (.obj fields) := by
  have hfields : Json.IsJsonFields numberText fields ∧ Json.asReadFields fields = fields := by
    clear hkeys
    induction fields with
    | nil => exact ⟨trivial, rfl⟩
    | cons f fields ih =>
      obtain ⟨hjson, hread⟩ := ih fun g hg => hvalues g (List.mem_cons_of_mem _ hg)
      obtain ⟨key, v⟩ := f
      obtain ⟨s, rfl⟩ := hvalues _ List.mem_cons_self
      exact ⟨⟨.inr trivial, hjson⟩, congrArg (List.cons (key, Value.str s)) hread⟩
  have hread : Json.parse numberText ((Value.obj fields).stringify.getD []) =
      some (Json.asRead (.obj fields)) := Json.parse_stringify ⟨hkeys, hfields.1⟩ rfl
  rw [hread, Json.asRead, hfields.2]

theorem parse_approveBody (review : Option Review) :
    Json.parse numberText ((approveBody review).stringify.getD []) = some (approveBody review) :=
  parse_texts (by simp only [List.map_cons, List.map_nil]; decide) (by simp)

theorem parse_overrideBody (outcome : Outcome) (reason : Text) (mode : FailureMode) :
    Json.parse numberText ((overrideBody outcome reason mode).stringify.getD []) =
      some (overrideBody outcome reason mode) :=
  parse_texts (by simp only [List.map_cons, List.map_nil]; decide) (by simp [word])

theorem parse_escalateBody (esTo : EscalateTo) (reason : Text) :
    Json.parse numberText ((escalateBody esTo reason).stringify.getD []) =
      some (escalateBody esTo reason) :=
  parse_texts (by simp only [List.map_cons, List.map_nil]; decide) (by simp [word])

end posted

/-- The text is JSON that carries the decision, however numerals are read. -/
def Posts (text : Text) (data : ResumeData) : Prop :=
  ∃ v, Carries v data ∧ ∀ numberText, Json.parse numberText text = some v

/-- A resume that the page posts carries a decision of its handler, for its current run. -/
theorem act_resume {a : PageAct} {p next : Page} {runId text : Text}
    (h : p.act a = some (next, some (.resume runId text))) :
    ∃ data c, Decides p data ∧ p.current = some c ∧ runId = c.resumeId ∧ Posts text data := by
  have hpost {body : Value} (hresume : p.resume body = some (.resume runId text)) :
      ∃ c, p.current = some c ∧ runId = c.resumeId ∧ text = body.stringify.getD [] := by
    obtain ⟨c, hc, he⟩ := Option.map_eq_some_iff.mp hresume
    cases he
    exact ⟨c, hc, rfl, rfl⟩
  cases a with
  | runCase caseId => simp [Page.act] at h
  | tick => simp [Page.act] at h
  | overrideBtn => simp [Page.act] at h
  | escalateBtn => simp [Page.act] at h
  | fillOverride form => simp [Page.act] at h
  | fillEscalate form => simp [Page.act] at h
  | approve =>
    simp only [Page.act] at h
    split at h
    · rename_i hlive
      simp only [Option.some.injEq, Prod.mk.injEq] at h
      obtain ⟨c, hc, rfl, rfl⟩ := hpost h.2
      exact ⟨_, c, .approve hlive.1 (by simpa using hlive.2), hc, rfl, _, ⟨rfl, rfl, rfl, rfl⟩,
        fun _ => parse_approveBody _⟩
    · cases h
  | ovSubmit =>
    simp only [Page.act] at h
    split at h
    · rename_i hform
      cases hreason : trim p.override.ovReason with
      | nil => simp [hreason] at h
      | cons u reason =>
        cases hmode : p.override.ovMode with
        | none => simp [hreason, hmode] at h
        | some mode =>
          simp only [hreason, hmode, Option.some.injEq, Prod.mk.injEq] at h
          obtain ⟨c, hc, rfl, rfl⟩ := hpost h.2
          have hdecides := Decides.override hform.1 hform.2 hmode (by simp [hreason])
          rw [hreason] at hdecides
          exact ⟨_, c, hdecides, hc, rfl, _, ⟨rfl, rfl, rfl, rfl⟩,
            fun _ => parse_overrideBody ..⟩
    · cases h
  | esSubmit =>
    simp only [Page.act] at h
    split at h
    · rename_i hform
      cases hreason : trim p.escalate.esReason with
      | nil => simp [hreason] at h
      | cons u reason =>
        simp only [hreason, Option.some.injEq, Prod.mk.injEq] at h
        obtain ⟨c, hc, rfl, rfl⟩ := hpost h.2
        have hdecides := Decides.escalate hform.1 hform.2 (by simp [hreason])
        rw [hreason] at hdecides
        exact ⟨_, c, hdecides, hc, rfl, _, ⟨rfl, rfl, rfl, rfl⟩, fun _ => parse_escalateBody ..⟩
    · cases h

/-- How the server takes a decision: the run waits at the gate and is resumed with it, or it does
not and nothing changes. -/
theorem Carries.served {v : Value} {data : ResumeData} (h : Carries v data)
    (hlawful : LawfulDecision data.decision data.reason data.failureMode) (world : World)
    (runId : Text) (s : ServerState) :
    (∃ input, Accepted s runId (some v) data input) ∨
      (∀ input, s.runs runId ≠ .suspended "gate" input) ∧
        postResume world runId (some v) s = (.rejected runId world.errors.notSuspended, s) := by
  obtain ⟨resumeData, hcheck, hschema⟩ := h.comes_through hlawful
  cases hi : (s.runs runId).inputAt "gate" with
  | none =>
    refine .inr ⟨fun input hinput => ?_, by simp only [postResume, bodyOf, Option.getD_some, hcheck, hi]⟩
    rw [Status.inputAt_eq_some.mpr hinput] at hi
    cases hi
  | some input =>
    exact .inl ⟨input, ⟨_, _, hcheck, hschema⟩, Status.inputAt_eq_some.mp hi⟩

/-- The row says what was decided. -/
structure Signs (data : ResumeData) (row : AuditEntry) : Prop where
  decision : row.decision = .signed data.decision
  reason : row.reason = data.reason
  failureMode : row.failureMode = data.failureMode
  domainNote : row.domainNote = data.domainNote

theorem resumedRow_signs (env : Env) (world : World) (runId : Text) (data : ResumeData)
    (input : Flow) : Signs data (resumedRow env world runId data input) := ⟨rfl, rfl, rfl, rfl⟩

end StormReview
