import StormReview.Js.Value

/-! precedentGuard: every cited DRN must be one that was returned to this run. -/
namespace StormReview
open Js

structure PrecedentCheck where
  ok : Bool
  offending : List Text
  returned : List Text
  deriving DecidableEq

def checkPrecedents (citedDrns returnedDrns : List Text) : PrecedentCheck :=
  let returned := distinct returnedDrns
  let offending := citedDrns.filter fun drn => drn ∉ returned
  { ok := offending.length == 0, offending, returned }

section checkPrecedents
variable (cited returned : List Text)

@[simp] theorem mem_checkPrecedents_returned {drn : Text} :
    drn ∈ (checkPrecedents cited returned).returned ↔ drn ∈ returned := mem_distinct

theorem checkPrecedents_offending :
    (checkPrecedents cited returned).offending = cited.filter fun drn => drn ∉ returned := by
  simp [checkPrecedents]

theorem checkPrecedents_ok_iff :
    (checkPrecedents cited returned).ok = true ↔ ∀ drn ∈ cited, drn ∈ returned := by
  simp [checkPrecedents, List.filter_eq_nil_iff]

end checkPrecedents
end StormReview
