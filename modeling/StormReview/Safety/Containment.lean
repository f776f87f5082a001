import StormReview.Safety.AutoFile
import StormReview.Safety.Fidelity

/-! A review that cannot be produced is contained: it waits for a human like any other. -/
namespace StormReview
open Js Zod Engine

/-- What `for .. of` takes: a list, or a string. -/
def Iterable (v : Value) : Prop := (∃ items, v = .arr items) ∨ ∃ s, v = .str s

/-- The precedents of a tool result cannot be iterated. -/
def Stuck (tr : Value) : Prop :=
  isPrecedentCall tr = true ∧
    ¬ Iterable (((toolResult tr).get (lit "precedents")).orElse (.arr []))

section failure
variable (env : Env) (world : World) (caseId : Text) (contextBlock : Option Text)

/-- The ways a review can fail to be produced, live and recorded. -/
inductive ReviewFails : Prop
  | agentThrows {err : Thrown} (live : shouldUseGolden env = false)
      (thrown : world.agent (agentMessage contextBlock) = .error err)
  | returnsNothing {res : Value} (live : shouldUseGolden env = false)
      (returned : world.agent (agentMessage contextBlock) = .ok res) (nothing : res.isNullish)
  | resultsNotListed {res : Value} (live : shouldUseGolden env = false)
      (returned : world.agent (agentMessage contextBlock) = .ok res)
      (notListed : ∀ results, toolResults res ≠ .arr results)
  | resultStuck {res tr : Value} {results : List Value} (live : shouldUseGolden env = false)
      (returned : world.agent (agentMessage contextBlock) = .ok res)
      (listed : toolResults res = .arr results) (mem : tr ∈ results) (stuck : Stuck tr)
  | objectInvalid {res : Value} {found : List Issue} (live : shouldUseGolden env = false)
      (returned : world.agent (agentMessage contextBlock) = .ok res)
      (invalid : reviewSchema (res.get (lit "object")) = .issues found)
  | noRecording (golden : shouldUseGolden env = true)
      (absent : loadGolden world.files caseId = none)
  | recordingInvalid {g : GoldenRun} {found : List Issue} (golden : shouldUseGolden env = true)
      (recorded : loadGolden world.files caseId = some g)
      (invalid : reviewSchema g.review = .issues found)

variable {env world caseId contextBlock}

theorem iterate_error_iff {v : Value} (message : Text) :
    (∃ e, v.iterate message = .error e) ↔ ¬ Iterable v := by
  cases v <;> simp [Value.iterate, Iterable]

theorem precedentDrns_error_iff (message : Text) {tr : Value} :
    (∃ e, precedentDrns message tr = .error e) ↔ Stuck tr := by
  rw [Stuck, ← iterate_error_iff message]
  by_cases hc : isPrecedentCall tr = true
  · rw [precedentDrns, if_pos hc]
    cases (((toolResult tr).get (lit "precedents")).orElse (.arr [])).iterate message with
    | error e => simp [hc]
    | ok items => simp [hc]
  · rw [precedentDrns, if_neg hc]
    simp [hc, pure, Except.pure]

theorem collectReturnedDrns_error_iff (message : Text) {results : List Value} :
    (∃ e, collectReturnedDrns message results = .error e) ↔ ∃ tr ∈ results, Stuck tr := by
  simp only [← precedentDrns_error_iff message, ← mapM_error_iff, collectReturnedDrns]
  cases results.mapM (precedentDrns message) <;> simp

theorem reviewSchema_nullish {v : Value} (h : v.isNullish = true) (key : Text) :
    ∃ found, reviewSchema (v.get key) = .issues found := by
  cases v with
  | undefined => exact ⟨_, rfl⟩
  | null => exact ⟨_, rfl⟩
  | _ => simp [Value.isNullish] at h

end failure

/-- Of the ways to fail, only an object that the schema rejects comes with DRNs that may be no
texts: the others have collected none, or texts. -/
theorem ReviewFails.texts {env : Env} {world : World} {caseId : Text} {caseRecord : CaseRecord}
    {report : AdjusterReport}
    (h : ReviewFails env world caseId (some (contextFor world caseRecord report))) :
    DrnsAreTexts env world caseId caseRecord report ∨
      ∃ res found, shouldUseGolden env = false ∧
        world.agent (agentMessage (some (contextFor world caseRecord report))) = .ok res ∧
        reviewSchema (res.get (lit "object")) = .issues found := by
  have hnothing : (produce env world caseId
      (some (contextFor world caseRecord report))).returnedDrns = [] →
      DrnsAreTexts env world caseId caseRecord report := fun hnil =>
    @drnsAreTexts_of_map _ _ _ _ _ [] hnil
  cases h with
  | agentThrows live thrown =>
    exact .inl (hnothing (by simp [produce, live, reviewLive, thrown, structuringFailure]))
  | returnsNothing live returned nothing =>
    obtain ⟨found, hfound⟩ := reviewSchema_nullish nothing (lit "object")
    exact .inr ⟨_, found, live, returned, hfound⟩
  | resultsNotListed live returned notListed =>
    obtain ⟨e, he⟩ := (Value.mapItems_error_iff world.errors.notMappable).mpr notListed
    exact .inl (hnothing (by simp [produce, live, reviewLive, returned, he, structuringFailure]))
  | resultStuck live returned listed mem stuck =>
    obtain ⟨e, he⟩ := (collectReturnedDrns_error_iff world.errors.notIterable).mpr ⟨_, mem, stuck⟩
    exact .inl (hnothing (by
      simp [produce, live, reviewLive, returned, listed, Value.mapItems, he, structuringFailure]))
  | objectInvalid live returned invalid => exact .inr ⟨_, _, live, returned, invalid⟩
  | noRecording golden _ => exact .inl (drnsAreTexts_golden golden)
  | recordingInvalid golden _ _ => exact .inl (drnsAreTexts_golden golden)

end StormReview
