import StormReview.Js.Scan
import StormReview.Schemas.Review

/-! tidyReview: house style and soft bounds, enforced in code on a parsed review. -/
namespace StormReview
open Js Zod Regex

def isLongDash (u : UInt16) : Bool := u == 0x2014 || u == 0x2013

/-- `\s*[—–]\s*`. -/
def dashRe : Regex := chain [.star space, .unit isLongDash, .star space]

def normDashes (s : Text) : Text := replaceAll dashRe.first (fun _ _ => lit " - ") s

mutual
def deepNormDashes : Value → Value
  | .str s => .str (normDashes s)
  | .arr vs => .arr (deepNormItems vs)
  | .obj fs => .obj (deepNormFields fs)
  | v => v

def deepNormItems : List Value → List Value
  | [] => []
  | v :: vs => deepNormDashes v :: deepNormItems vs

def deepNormFields : List (Text × Value) → List (Text × Value)
  | [] => []
  | (k, v) :: fs => (k, deepNormDashes v) :: deepNormFields fs
end

/-! The same on a parsed review: every free text is normalised. -/

def Evidence.mapText (f : Text → Text) (e : Evidence) : Evidence :=
  { e with ref := f e.ref, quote := f e.quote }

def Finding.mapText {φ : Type} (f : Text → Text) (x : Finding φ) : Finding φ :=
  { x with evidence := x.evidence.map (Evidence.mapText f), gaps := x.gaps.map f }

def Review.mapText (f : Text → Text) (r : Review) : Review :=
  { r with
    wordingVersion := f r.wordingVersion
    wordingNote := f r.wordingNote
    q1StormConditions := r.q1StormConditions.mapText f
    q2DamageConsistent := r.q2DamageConsistent.mapText f
    q3MainCause := r.q3MainCause.mapText f
    adjusterReportQuality :=
      { r.adjusterReportQuality with note := f r.adjusterReportQuality.note }
    confidenceDrivers := r.confidenceDrivers.map f
    wouldChangeMind := r.wouldChangeMind.map f
    escalate := { r.escalate with why := f r.escalate.why }
    citedDrns := r.citedDrns.map f
    draftParagraph := f r.draftParagraph }

/-- `s.lastIndexOf(c)`. -/
def lastIndexOf (c : UInt16) (s : Text) : Int :=
  match s.reverse.findIdx? (· == c) with
  | some i => (s.length : Int) - 1 - i
  | none => -1

/-- `s.slice(0, stop)`: a negative stop counts from the end. -/
def sliceTo (s : Text) (stop : Int) : Text :=
  s.take (if stop < 0 then (s.length : Int) + stop else stop).toNat

/-- The class `[\s.,;:\-]`. -/
def isLoose (u : UInt16) : Bool :=
  isSpace u || u == cu '.' || u == cu ',' || u == cu ';' || u == cu ':' || u == cu '-'

def stripLoose (s : Text) : Text := (s.reverse.dropWhile isLoose).reverse

/-- Over the bound, the text is cut at a word border if one is near, and ends in an ellipsis. -/
def clip (s : Text) (max : Nat) : Text :=
  if s.length ≤ max then s
  else
    let cut := sliceTo s ((max : Int) - 3)
    let lastSpace := lastIndexOf (cu ' ') cut
    let base := if lastSpace > (max : Int) - 80 then sliceTo cut lastSpace else cut
    stripLoose base ++ lit "..."

def tidyReview (review : Review) : Review :=
  let r := review.mapText normDashes
  { r with
    draftParagraph := clip r.draftParagraph draftParagraphMax
    confidenceDrivers := r.confidenceDrivers.take confidenceDriversMax
    wouldChangeMind := r.wouldChangeMind.take wouldChangeMindMax }

section fields
variable (r : Review)

@[simp] theorem tidyReview_verdict : (tidyReview r).verdict = r.verdict := rfl
@[simp] theorem tidyReview_confidence : (tidyReview r).confidence = r.confidence := rfl
@[simp] theorem tidyReview_citedDrns :
    (tidyReview r).citedDrns = r.citedDrns.map normDashes := rfl
@[simp] theorem tidyReview_q1_finding :
    (tidyReview r).q1StormConditions.finding = r.q1StormConditions.finding := rfl

end fields

/-! Text without a long dash is left as it is. -/

theorem dashRe_needs_dash {prev : Option UInt16} {w rest : Text} (h : Match dashRe prev w rest) :
    ∃ c ∈ w, isLongDash c = true := by
  simp only [dashRe, chain, match_seq, match_unit] at h
  obtain ⟨u, v, rfl, -, u', v', rfl, ⟨c, hc, rfl⟩, -⟩ := h
  exact ⟨c, by simp, hc⟩

theorem normDashes_of_no_dash {s : Text} (h : ∀ c ∈ s, isLongDash c = false) :
    normDashes s = s := by
  refine render_tokens_of_none fun a b hs => ?_
  refine first_eq_none.mpr ?_
  by_contra hne
  obtain ⟨w, rest, rfl, hm⟩ := run_ne_nil.mp hne
  obtain ⟨c, hc, hdash⟩ := dashRe_needs_dash hm
  simp [h c (by simp [hs, hc])] at hdash

/-! On the plain form of a review, normalising every string at any depth is normalising the
free text: no word of an enumeration holds a long dash. -/

theorem no_dash {t : Text} (h : t.any isLongDash = false) : ∀ c ∈ t, isLongDash c = false := by
  simpa using h

def Dashless (α : Type) [Enum α] : Prop := ∀ a : α, ∀ c ∈ Enum.text a, isLongDash c = false

theorem deepNormDashes_word {α : Type} [Enum α] (h : Dashless α) (a : α) :
    deepNormDashes (word a) = word a := by
  simp only [word, deepNormDashes, normDashes_of_no_dash (h a)]

theorem deepNormItems_map {α : Type} {enc : α → Value} {f : α → α} {xs : List α}
    (h : ∀ a ∈ xs, deepNormDashes (enc a) = enc (f a)) :
    deepNormItems (xs.map enc) = (xs.map f).map enc := by
  induction xs with
  | nil => rfl
  | cons a xs ih =>
    simp only [List.map_cons, deepNormItems, h a (by simp), ih fun b hb => h b (by simp [hb])]

theorem deepNormDashes_texts (ts : List Text) :
    deepNormDashes (texts ts) = texts (ts.map normDashes) := by
  simp only [texts, deepNormDashes]
  rw [deepNormItems_map (f := normDashes) fun t _ => by simp only [deepNormDashes]]

theorem Evidence.deepNormDashes_toJs (e : Evidence) :
    deepNormDashes e.toJs = (e.mapText normDashes).toJs := by
  have hs : Dashless EvidenceSource := fun a => no_dash (by cases a <;> decide)
  simp only [toJs, deepNormDashes, deepNormFields, deepNormDashes_word hs, mapText]

theorem Finding.deepNormDashes_toJs {φ : Type} [Enum φ] (h : Dashless φ) (x : Finding φ) :
    deepNormDashes x.toJs = (x.mapText normDashes).toJs := by
  simp only [toJs, deepNormDashes, deepNormFields, deepNormDashes_word h, mapText,
    deepNormDashes_texts, deepNormItems_map fun e _ => Evidence.deepNormDashes_toJs e]

theorem AdjusterReportQuality.deepNormDashes_toJs (q : AdjusterReportQuality) :
    deepNormDashes q.toJs = { q with note := normDashes q.note }.toJs := by
  simp only [toJs, deepNormDashes, deepNormFields]

theorem CarveOuts.deepNormDashes_toJs (c : CarveOuts) : deepNormDashes c.toJs = c.toJs := by
  have ht : Dashless TemporaryRepair := fun a => no_dash (by cases a <;> decide)
  have ha : Dashless AccidentalDamage := fun a => no_dash (by cases a <;> decide)
  simp only [toJs, deepNormDashes, deepNormFields, deepNormDashes_word ht, deepNormDashes_word ha]

theorem ConsumerDutyChecks.deepNormDashes_toJs (c : ConsumerDutyChecks) :
    deepNormDashes c.toJs = c.toJs := by
  have hc : Dashless CashCriteria := fun a => no_dash (by cases a <;> decide)
  simp only [toJs, deepNormDashes, deepNormFields, deepNormDashes_word hc]

theorem Escalate.deepNormDashes_toJs (e : Escalate) :
    deepNormDashes e.toJs = { e with why := normDashes e.why }.toJs := by
  have ht : Dashless EscalateTo := fun a => no_dash (by cases a <;> decide)
  simp only [toJs, deepNormDashes, deepNormFields,
    deepNormItems_map (f := id) fun a _ => deepNormDashes_word ht a, List.map_id]

theorem Review.deepNormDashes_toJs (r : Review) :
    deepNormDashes r.toJs = (r.mapText normDashes).toJs := by
  have h1 : Dashless StormConditions := fun a => no_dash (by cases a <;> decide)
  have h2 : Dashless DamageConsistent := fun a => no_dash (by cases a <;> decide)
  have h3 : Dashless MainCause := fun a => no_dash (by cases a <;> decide)
  have hv : Dashless Verdict := fun a => no_dash (by cases a <;> decide)
  have hc : Dashless Confidence := fun a => no_dash (by cases a <;> decide)
  simp only [toJs, deepNormDashes, deepNormFields, deepNormDashes_word hv,
    deepNormDashes_word hc, deepNormDashes_texts, Finding.deepNormDashes_toJs h1,
    Finding.deepNormDashes_toJs h2, Finding.deepNormDashes_toJs h3,
    AdjusterReportQuality.deepNormDashes_toJs, CarveOuts.deepNormDashes_toJs,
    ConsumerDutyChecks.deepNormDashes_toJs, Escalate.deepNormDashes_toJs, mapText]

end StormReview
