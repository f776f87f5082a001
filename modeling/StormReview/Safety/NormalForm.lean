import StormReview.Safety.Replay

/-! The normal form of a review: what tidyReview brings about, the later steps keep. -/
namespace StormReview
open Js Zod Engine

/-! Strings at any depth. -/

mutual
def strings : Value → List Text
  | .str s => [s]
  | .arr vs => stringsOfItems vs
  | .obj fs => stringsOfFields fs
  | _ => []

def stringsOfItems : List Value → List Text
  | [] => []
  | v :: vs => strings v ++ stringsOfItems vs

def stringsOfFields : List (Text × Value) → List Text
  | [] => []
  | (_, v) :: fs => strings v ++ stringsOfFields fs
end

mutual
/-- Normalising reaches every string, however deep. -/
theorem noDash_deepNormDashes : (v : Value) → ∀ t ∈ strings (deepNormDashes v), NoDash t
  | .str s => by
    intro t ht
    obtain rfl : t = normDashes s := by simpa [deepNormDashes, strings] using ht
    exact noDash_normDashes s
  | .arr vs => by
    simpa [deepNormDashes, strings] using noDash_deepNormItems vs
  | .obj fs => by
    simpa [deepNormDashes, strings] using noDash_deepNormFields fs
  | .undefined | .null | .bool _ | .num _ => by simp [deepNormDashes, strings]

theorem noDash_deepNormItems :
    (vs : List Value) → ∀ t ∈ stringsOfItems (deepNormItems vs), NoDash t
  | [] => by simp [deepNormItems, stringsOfItems]
  | v :: vs => by
    intro t ht
    simp only [deepNormItems, stringsOfItems, List.mem_append] at ht
    rcases ht with ht | ht
    · exact noDash_deepNormDashes v t ht
    · exact noDash_deepNormItems vs t ht

theorem noDash_deepNormFields :
    (fs : List (Text × Value)) → ∀ t ∈ stringsOfFields (deepNormFields fs), NoDash t
  | [] => by simp [deepNormFields, stringsOfFields]
  | (_, v) :: fs => by
    intro t ht
    simp only [deepNormFields, stringsOfFields, List.mem_append] at ht
    rcases ht with ht | ht
    · exact noDash_deepNormDashes v t ht
    · exact noDash_deepNormFields fs t ht
end

/-! The fields of a review that are not free text. -/

/-- The answers of one question: its finding and where its evidence is from. -/
structure Answers (φ : Type) where
  finding : φ
  sources : List EvidenceSource
  deriving DecidableEq

def Finding.answers {φ : Type} (x : Finding φ) : Answers φ where
  finding := x.finding
  sources := x.evidence.map (·.source)

/-- Every enum and boolean field. -/
structure Choices where
  q1StormConditions : Answers StormConditions
  q2DamageConsistent : Answers DamageConsistent
  q3MainCause : Answers MainCause
  photosOfCorrectProperty : Bool
  photosDated : Bool
  priorRepairsDocumented : Bool
  causationReasoned : Bool
  verdict : Verdict
  confidence : Confidence
  carveOuts : CarveOuts
  consumerDutyChecks : ConsumerDutyChecks
  escalateRequired : Bool
  escalateTo : List EscalateTo
  deriving DecidableEq

def Review.choices (r : Review) : Choices where
  q1StormConditions := r.q1StormConditions.answers
  q2DamageConsistent := r.q2DamageConsistent.answers
  q3MainCause := r.q3MainCause.answers
  photosOfCorrectProperty := r.adjusterReportQuality.photosOfCorrectProperty
  photosDated := r.adjusterReportQuality.photosDated
  priorRepairsDocumented := r.adjusterReportQuality.priorRepairsDocumented
  causationReasoned := r.adjusterReportQuality.causationReasoned
  verdict := r.verdict
  confidence := r.confidence
  carveOuts := r.carveOuts
  consumerDutyChecks := r.consumerDutyChecks
  escalateRequired := r.escalate.required
  escalateTo := r.escalate.toTargets

/-- What the weather override sets. -/
def Choices.abstained (c : Choices) : Choices :=
  { c with
    q1StormConditions := { c.q1StormConditions with finding := .unknown }
    verdict := .cannotDetermine
    confidence := .low }

/-- There is no weather, and the review answers what it cannot know. -/
def OverReaches (facts : GateFacts) (r : Review) : Prop :=
  facts.weatherStatus = .unavailable ∧
    (r.q1StormConditions.finding ≠ .unknown ∨ r.verdict ≠ .cannotDetermine)

instance (facts : GateFacts) (r : Review) : Decidable (OverReaches facts r) :=
  inferInstanceAs (Decidable (_ ∧ _))

theorem Finding.answers_mapText {φ : Type} (f : Text → Text) (x : Finding φ) :
    (x.mapText f).answers = x.answers := by
  simp only [answers, mapText, List.map_map]
  rfl

theorem tidyReview_choices (r : Review) : (tidyReview r).choices = r.choices := by
  simp only [Review.choices, tidyReview, Review.mapText, Finding.answers_mapText]

theorem backstop_choices (facts : GateFacts) (r : Review) : (backstop facts r).choices =
    if OverReaches facts r then r.choices.abstained else r.choices := by
  by_cases hw : facts.weatherStatus = .unavailable
  · by_cases ho : r.q1StormConditions.finding ≠ .unknown ∨ r.verdict ≠ .cannotDetermine
    · rw [backstop, if_pos hw, abstain, if_pos ho, if_pos ⟨hw, ho⟩]
      rfl
    · rw [backstop, if_pos hw, abstain, if_neg ho, if_neg fun h => ho h.2]
  · rw [backstop, if_neg hw, if_neg fun h => hw h.1]

theorem guardReview_choices (r : Review) (returnedDrns : List Text) :
    (guardReview r returnedDrns).1.choices = r.choices := by
  rw [guardReview_review]
  rfl

/-! The normal form. -/

structure NormalForm (r : Review) : Prop where
  strings : ∀ t ∈ strings r.toJs, NoDash t
  draftParagraph : r.draftParagraph.length ≤ 600
  confidenceDrivers : r.confidenceDrivers.length ≤ 4
  wouldChangeMind : r.wouldChangeMind.length ≤ 3
  parses : reviewSchema r.toJs = .ok r
  tidied : tidyReview r = r

theorem Settled.normalForm {r : Review} (h : Settled r) : NormalForm r where
  strings := by
    have hmap : r.mapText normDashes = r := h.text.mapText_eq fun _ ht => ht.normDashes_eq
    have hplain : r.toJs = deepNormDashes r.toJs := by rw [r.deepNormDashes_toJs, hmap]
    rw [hplain]
    exact noDash_deepNormDashes r.toJs
  draftParagraph := h.draftParagraph
  confidenceDrivers := h.confidenceDrivers
  wouldChangeMind := h.wouldChangeMind
  parses := reviewSchema_toJs r
  tidied := h.tidyReview_eq

theorem settled_guardReview {r : Review} (h : Settled r) (returnedDrns : List Text) :
    Settled (guardReview r returnedDrns).1 := by
  rw [guardReview_review]
  exact h.filter _

/-- A review that reaches the gate of a run is in normal form. -/
theorem gateFlow_normalForm {env : Env} {world : World} {caseId : Text} {caseRecord : CaseRecord}
    {report : AdjusterReport} {rev : Review}
    (h : (gateFlow env world caseId caseRecord report).review = some rev) : NormalForm rev := by
  obtain ⟨checked, hsettled, -, rfl, -⟩ := gateFlow_of_review h
  exact (settled_guardReview hsettled _).normalForm

/-- tidyReview brings a review into normal form, and it stays there through the weather override
and the guard; of the enums and booleans only the override sets any. -/
theorem review_normal_form (parsed : Review) (facts : GateFacts) (returnedDrns : List Text) :
    let tidied := tidyReview parsed
    let checked := backstop facts tidied
    let cleaned := (guardReview checked returnedDrns).1
    (NormalForm tidied ∧ NormalForm checked ∧ NormalForm cleaned) ∧
      tidied.choices = parsed.choices ∧
      checked.choices =
        (if OverReaches facts tidied then tidied.choices.abstained else tidied.choices) ∧
      cleaned.choices = checked.choices := by
  intro tidied checked cleaned
  have htidied : Settled tidied := settled_tidyReview parsed
  have hchecked : Settled checked := backstop_settled htidied
  have hcleaned : Settled cleaned := settled_guardReview hchecked returnedDrns
  exact ⟨⟨htidied.normalForm, hchecked.normalForm, hcleaned.normalForm⟩, tidyReview_choices parsed,
    backstop_choices facts tidied, guardReview_choices checked returnedDrns⟩

end StormReview
