import StormReview.Schemas.Accepted
import StormReview.Safety.Listing

/-! Reviews and answers may carry further keys. The schema drops them, and no run depends on them. -/
namespace StormReview
open Js Zod Engine

/-- What is accepted as the review `r` is the plain form of `r`, but for further keys, at any depth. -/
theorem review_accepted_iff (v : Value) (r : Review) :
    reviewSchema v = .ok r ↔ Holds v r.toJs := exact_review v r

/-- The same object, or two that hold one review. -/
def SameReview (v v' : Value) : Prop := v' = v ∨ ∃ r : Review, Holds v r.toJs ∧ Holds v' r.toJs

inductive SameAnswer : Except Thrown Value → Except Thrown Value → Prop
  | thrown (e : Thrown) : SameAnswer (.error e) (.error e)
  | handed {res res' : Value} (results : res'.get (lit "toolResults") = res.get (lit "toolResults"))
      (object : SameReview (res.get (lit "object")) (res'.get (lit "object"))) :
      SameAnswer (.ok res) (.ok res')

structure SameRecording (g g' : GoldenRun) : Prop where
  rest : g' = { g with review := g'.review }
  review : SameReview g.review g'.review

/-- The keys that are read of the body of a resume. -/
def resumeKeys : List Text :=
  [lit "decision", lit "reason", lit "failureMode", lit "domainNote"]

inductive SameRequest : Request → Request → Prop
  | refl (request : Request) : SameRequest request request
  | resume (runId : Text) {body body' : Option Value}
      (same : ∀ key ∈ resumeKeys, (bodyOf body').get key = (bodyOf body).get key) :
      SameRequest (.resume runId body) (.resume runId body')

/-- The same moment, but for further keys in what the agent hands back, in the reviews on record
and in the body of a resume. -/
structure Padded (e e' : World × Request) : Prop where
  request : SameRequest e.2 e'.2
  world : e'.1 = { e.1 with
    agent := e'.1.agent, files := { e.1.files with golden := e'.1.files.golden } }
  agent : ∀ message, SameAnswer (e.1.agent message) (e'.1.agent message)
  golden : ∀ path, Option.Rel SameRecording (e.1.files.golden path) (e'.1.files.golden path)

section run
variable {env : Env} {world world' : World} {v v' : Value}

theorem SameReview.reviewSchema (h : SameReview v v') :
    reviewSchema v' = reviewSchema v := by
  rcases h with rfl | ⟨r, hr, hr'⟩
  · rfl
  · rw [(review_accepted_iff v r).mpr hr, (review_accepted_iff v' r).mpr hr']

theorem SameReview.structured (h : SameReview v v') (error : List Issue → Text)
    (toolCalls : List ToolCall) (returnedDrns : List Value) (modelUsed : Text) :
    structured v' error toolCalls returnedDrns modelUsed =
      structured v error toolCalls returnedDrns modelUsed := by
  simp only [StormReview.structured, h.reviewSchema]

theorem reviewLive_padded (herrors : world'.errors = world.errors) {message : Text}
    (h : SameAnswer (world.agent message) (world'.agent message)) (modelUsed : Text) :
    reviewLive world' modelUsed message = reviewLive world modelUsed message := by
  rw [reviewLive, reviewLive, herrors]
  generalize world.agent message = answer at h ⊢
  generalize world'.agent message = answer' at h ⊢
  cases h with
  | thrown e => rfl
  | handed hresults hobject => simp only [toolResults, hresults, hobject.structured]

theorem reviewGolden_padded {files files' : Files} (hdir : files'.goldenDir = files.goldenDir)
    (h : ∀ path, Option.Rel SameRecording (files.golden path) (files'.golden path))
    (caseId : Text) : reviewGolden files' caseId = reviewGolden files caseId := by
  rw [reviewGolden, reviewGolden, loadGolden, loadGolden, hdir]
  have hpath := h (Path.join [files.goldenDir, lit "case" ++ caseId ++ lit ".json"])
  generalize files.golden _ = recording at hpath ⊢
  generalize files'.golden _ = recording' at hpath ⊢
  cases hpath with
  | none => rfl
  | some hsame =>
    rw [hsame.rest]
    exact hsame.review.structured ..

/-- The review step is the only one that meets what is padded. -/
theorem Padded.stormReview {e e' : World × Request} (h : Padded e e') (env : Env) (runId : Text) :
    stormReview env e'.1 runId = stormReview env e.1 runId := by
  have hprefetch : prefetch e'.1 = prefetch e.1 := by
    rw [h.world]
    rfl
  have hrecord : recordStep env e'.1 runId = recordStep env e.1 runId := by
    rw [h.world]
    rfl
  have hdir : e'.1.files.goldenDir = e.1.files.goldenDir := by
    rw [h.world]
    rfl
  have herrors : e'.1.errors = e.1.errors := by
    rw [h.world]
  have hproduce : produce env e'.1 = produce env e.1 := by
    funext caseId contextBlock
    rw [produce, produce, reviewGolden_padded hdir h.golden, reviewLive_padded herrors (h.agent _)]
  have hreview : review env e'.1 = review env e.1 := by
    funext flow
    rw [review, review, reviewed, reviewed, hproduce, herrors]
  simp only [StormReview.stormReview, hprefetch, hreview, hrecord]

/-- The server reads four keys of a body. -/
theorem checkResume_same {body body' : Value}
    (h : ∀ key ∈ resumeKeys, body'.get key = body.get key) :
    checkResume body' = checkResume body := by
  have hdecision := h (lit "decision") (by simp [resumeKeys])
  have hreason := h (lit "reason") (by simp [resumeKeys])
  have hmode := h (lit "failureMode") (by simp [resumeKeys])
  have hnote := h (lit "domainNote") (by simp [resumeKeys])
  simp only [checkResume, hdecision, hreason, hmode, hnote]

/-- One request. -/
theorem Padded.handle {e e' : World × Request} (h : Padded e e') (s : ServerState) :
    handle e'.1 e'.2 s = handle e.1 e.2 s := by
  have hsteps : ∀ runId, StormReview.stormReview s.env e'.1 runId =
      StormReview.stormReview s.env e.1 runId := h.stormReview s.env
  have herrors : e'.1.errors = e.1.errors := by
    rw [h.world]
  have hleft : buildLeft e'.1.files = buildLeft e.1.files := by
    rw [h.world]
    rfl
  have hrequest := h.request
  generalize e.2 = request at hrequest ⊢
  generalize e'.2 = request' at hrequest ⊢
  cases hrequest with
  | refl =>
    cases request with
    | restart env => rfl
    | run caseId runId => simp only [StormReview.handle, postRun, startRun, hsteps, hleft]
    | resume runId body => simp only [StormReview.handle, postResume, resumeRun, hsteps, herrors]
  | resume runId hsame =>
    simp only [StormReview.handle, postResume, resumeRun, hsteps, herrors, checkResume_same hsame]

/-- Further keys, at any depth, in what the agent hands back as its object, in the review of a
recording and in the body of a resume change no answer and no state over any history. -/
theorem further_keys_are_dropped (history history' : List (World × Request))
    (last last' : World × Request) (s : ServerState)
    (h : List.Forall₂ Padded history history') (hlast : Padded last last') :
    handle last'.1 last'.2 (serve history' s) = handle last.1 last.2 (serve history s) := by
  have hanswers := h.imp fun _ _ hsame => hsame.handle
  rw [serve_congr hanswers, hlast.handle]

end run

/-- An object with one key more. -/
def withKey (key : Text) (w : Value) : Value → Value
  | .obj fs => .obj (fs ++ [(key, w)])
  | v => v

/-- The agent hands back a review with a key that the schema does not name. -/
theorem further_keys_are_dropped_sample :
    let rev := sampleReview .agreeDecline [] []
    let padded := withKey (lit "notes") (.str (lit "x")) rev.toJs
    let files := sampleFiles .decline (some sampleWeather) none
    let request := Request.run (lit "A") (lit "r1")
    let s := ServerState.initial (sampleEnv true)
    handle (sampleWorld files (.obj [(lit "object", padded)])) request s =
        handle (sampleWorld files (.obj [(lit "object", rev.toJs)])) request s ∧
      padded ≠ rev.toJs := by
  intro rev padded files request s
  have hplain : reviewSchema rev.toJs = .ok rev := reviewSchema_toJs rev
  have hmore : reviewSchema padded = .ok rev := rfl
  have hobject : SameReview rev.toJs padded :=
    .inr ⟨rev, (exact_review _ rev).mp hplain, (exact_review padded rev).mp hmore⟩
  have hgolden : ∀ path, Option.Rel SameRecording (files.golden path) (files.golden path) :=
    fun _ => .none
  have hsame : Padded (sampleWorld files (.obj [(lit "object", rev.toJs)]), request)
      (sampleWorld files (.obj [(lit "object", padded)]), request) :=
    ⟨.refl request, rfl, fun _ => .handed rfl hobject, hgolden⟩
  refine ⟨further_keys_are_dropped [] [] _ _ s .nil hsame, fun h => ?_⟩
  have hlengths := congrArg (fun | Value.obj fs => fs.length | _ => 0) h
  simp [padded, withKey, Review.toJs] at hlengths

end StormReview
