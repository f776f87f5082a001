import Mathlib.Data.List.Infix
import Mathlib.Data.List.Sort
import StormReview.Lib.Loader
import StormReview.Schemas.Review

/-! findFosPrecedents: the Ombudsman decisions nearest to a damage type and a dispute pattern.
The eval takes some of them out of the tool's reach, the holdout. -/
namespace StormReview
open Js Zod

inductive PrecedentOutcome where
  | upheld | notUpheld | upheldInPart
  deriving DecidableEq

instance : Enum PrecedentOutcome where
  options := [.upheld, .notUpheld, .upheldInPart]
  text
    | .upheld => lit "upheld"
    | .notUpheld => lit "not_upheld"
    | .upheldInPart => lit "upheld_in_part"
  mem_options a := by cases a <;> decide
  text_inj a b := by cases a <;> cases b <;> decide

structure Precedent where
  drn : Text
  insurer : Text
  damageType : Text
  weatherCited : Text
  outcome : PrecedentOutcome
  decisiveFact : Text
  tags : List Text
  deriving DecidableEq

structure PrecedentSummary where
  drn : Text
  insurer : Text
  damageType : Text
  outcome : PrecedentOutcome
  weatherCited : Text
  decisiveFact : Text
  tags : List Text
  deriving DecidableEq

/-- `readPrecedents` is what reading and parsing the file at a path gives. -/
def loadPrecedents (readPrecedents : Text → Option (List Precedent)) (files : Files) :
    List Precedent :=
  (readPrecedents (files.dataPath (lit "precedents.json"))).getD []

/-- The language's case mapping and collation. -/
structure Locale where
  toLowerCase : Text → Text
  localeCompare : Text → Text → Int

structure QueryOptions where
  holdout : Option (List Text)
  limit : Option Nat

section query
variable (locale : Locale)

/-- Exact damage type or dispute pattern counts twice, the damage family once. -/
def precedentScore (damageType : Text) (wantTags : List Text) (p : Precedent) : Nat :=
  let pdt := locale.toLowerCase p.damageType
  let exact := if pdt = damageType then 2 else 0
  let family :=
    if exact = 0 ∧ damageType ≠ [] ∧ (damageType <:+: pdt ∨ pdt <:+: damageType) then 1 else 0
  let overlap := (p.tags.filter fun t => locale.toLowerCase t ∈ wantTags).length * 2
  exact + family + overlap

/-- `b.score - a.score || a.p.drn.localeCompare(b.p.drn)` is not positive. -/
def Ranked (a b : Precedent × Nat) : Prop :=
  b.2 < a.2 ∨ b.2 = a.2 ∧ locale.localeCompare a.1.drn b.1.drn ≤ 0

instance (a b : Precedent × Nat) : Decidable (Ranked locale a b) :=
  inferInstanceAs (Decidable (_ ∨ _))

def summaryOf (p : Precedent) : PrecedentSummary where
  drn := p.drn
  insurer := p.insurer
  damageType := p.damageType
  outcome := p.outcome
  weatherCited := p.weatherCited
  decisiveFact := p.decisiveFact
  tags := p.tags

/-- `heldOut` is the module's HOLDOUT. -/
def queryPrecedents (precedents : List Precedent) (heldOut : List Text) (damageType : Text)
    (tags : List Text) (opts : QueryOptions) : List PrecedentSummary :=
  let holdout := opts.holdout.getD heldOut
  let limit := opts.limit.getD 5
  let wantTags := distinct (tags.map locale.toLowerCase)
  let dt := locale.toLowerCase damageType
  let scored := (precedents.filter fun p => p.drn ∉ holdout).map fun p =>
    (p, precedentScore locale dt wantTags p)
  (((scored.filter fun x => x.2 > 0).insertionSort (Ranked locale)).take limit).map fun x =>
    summaryOf x.1

def PrecedentSummary.toJs (p : PrecedentSummary) : Value :=
  .obj [(lit "drn", .str p.drn), (lit "insurer", .str p.insurer),
    (lit "damageType", .str p.damageType), (lit "outcome", word p.outcome),
    (lit "weatherCited", .str p.weatherCited), (lit "decisiveFact", .str p.decisiveFact),
    (lit "tags", texts p.tags)]

/-- The tool's `execute`. -/
def findFosPrecedents (precedents : List Precedent) (heldOut : List Text) (damageType : Text)
    (tags : List Text) : Value :=
  .obj [(lit "precedents", .arr ((queryPrecedents locale precedents heldOut damageType tags
    { holdout := none, limit := none }).map PrecedentSummary.toJs))]

variable {locale}

/-- What is returned is in the store and not held out, whatever is asked for. -/
theorem mem_queryPrecedents {precedents : List Precedent} {heldOut : List Text} {damageType : Text}
    {tags : List Text} {opts : QueryOptions} {s : PrecedentSummary}
    (h : s ∈ queryPrecedents locale precedents heldOut damageType tags opts) :
    ∃ p ∈ precedents, s = summaryOf p ∧ p.drn ∉ opts.holdout.getD heldOut := by
  simp only [queryPrecedents, List.mem_map] at h
  obtain ⟨x, hx, rfl⟩ := h
  have hscored := (List.mem_insertionSort _).mp (List.mem_of_mem_take hx)
  obtain ⟨p, hp, rfl⟩ := List.mem_map.mp (List.mem_filter.mp hscored).1
  obtain ⟨hmem, hout⟩ := List.mem_filter.mp hp
  exact ⟨p, hmem, rfl, by simpa using hout⟩

theorem length_queryPrecedents_le (precedents : List Precedent) (heldOut : List Text)
    (damageType : Text) (tags : List Text) (opts : QueryOptions) :
    (queryPrecedents locale precedents heldOut damageType tags opts).length ≤
      opts.limit.getD 5 := by
  simp only [queryPrecedents, List.length_map, List.length_take]
  exact Nat.min_le_left _ _

end query
end StormReview
