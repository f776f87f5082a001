import StormReview.Guards.Truncation
import StormReview.Guards.InjectionGuard

/-! What the injection patterns have in common: each starts with a word, takes no digit, bracket
or sentence end, and does not end in a space. -/
namespace StormReview
open Js Regex

def isLetter (u : UInt16) : Bool := isUpper u || isLower u

/-- Three letters open the text. -/
def lettered : Text → Bool
  | a :: b :: c :: _ => isLetter a && isLetter b && isLetter c
  | _ => false

theorem lettered_eq_false {t : Text} {k : Nat} (hk : k < 3)
    (h : ∀ c ∈ (t.drop k).head?, isLetter c = false) : lettered t = false := by
  rcases t with _ | ⟨a, _ | ⟨b, _ | ⟨c, t⟩⟩⟩
  · rfl
  · rfl
  · rfl
  · match k with
    | 0 => simp [lettered, h a rfl]
    | 1 => simp [lettered, h b rfl]
    | 2 => simp [lettered, h c rfl]
    | _ + 3 => omega

theorem isLetter_eq_false_of_isDigit {c : UInt16} (h : isDigit c = true) : isLetter c = false := by
  simp [isLetter, isUpper_eq_false_of_isDigit h, isLower_eq_false_of_isDigit h]

theorem isLetter_eq_false_of_isWord_eq_false {c : UInt16} (h : isWord c = false) :
    isLetter c = false := by
  simp [isLetter, isUpper_eq_false_of_isWord_eq_false h, isLower_eq_false_of_isWord_eq_false h]

theorem isLower_foldCase (u : UInt16) : isLower (foldCase u) = isLetter u := by
  cases hu : isUpper u with
  | true => simp [isLower_foldCase_of_isUpper hu, isLetter, hu]
  | false => simp [foldCase, isLetter, hu]

/-- What the text after the marker's number says. -/
def markerText : Text := lit " instruction-shaped fragment(s) removed by injectionGuard]"

structure InstructionRe (r : Regex) : Prop where
  looks : r.looksBehind = false
  nonempty : r.nullable = false
  opening : r.rejects (cu '[') = true
  closing : r.rejects (cu ']') = true
  digit {d} : isDigit d = true → r.rejects d = true
  terminator {u} : isTerminator u = true → r.rejects u = true
  space : r.canEnd (cu ' ') = false
  customer : testFrom r (some (cu '[')) (lit "customer") = false
  marker : testFrom r (some (cu '0')) markerText = false
  starts {q s} : r.startsWith q s = true → lettered s = true

theorem lettered_of_word {s : String} {tail : Regex} (hs : lettered (s.toList.map cu) = true)
    {q : Option UInt16} {t : Text} (h : (Regex.seq (wordI s) tail).startsWith q t = true) :
    lettered t = true := by
  obtain ⟨w, rest, rfl, hm⟩ := startsWith_iff.mp h
  obtain ⟨u, v, rfl, hu, -⟩ := match_seq.mp hm
  have hfold := match_ofChars.mp hu
  match s.toList, hfold, hs with
  | a :: b :: c :: l, .cons ha (.cons hb (.cons hc _)), hs =>
    simp only [List.map_cons, lettered, ← isLower_foldCase] at hs
    simp only [List.cons_append, lettered, ← isLower_foldCase, eq_of_beq ha, eq_of_beq hb,
      eq_of_beq hc, hs]

theorem startsWith_of_boundary {r : Regex} {q : Option UInt16} {t : Text}
    (h : (Regex.seq .boundary r).startsWith q t = true) : r.startsWith q t = true := by
  obtain ⟨w, rest, rfl, hm⟩ := startsWith_iff.mp h
  exact startsWith_iff.mpr ⟨w, rest, rfl, (match_seq_boundary.mp hm).2⟩

theorem injectionPatterns_start : ∀ p ∈ injectionPatterns, ∀ q s,
    p.re.startsWith q s = true → lettered s = true := by
  simp only [injectionPatterns, List.forall_mem_cons, List.not_mem_nil, false_implies,
    implies_true, and_true]
  exact ⟨fun q s h => lettered_of_word (by decide) h, fun q s h => lettered_of_word (by decide) h,
    fun q s h => lettered_of_word (by decide) (startsWith_of_boundary h),
    fun q s h => lettered_of_word (by decide) h,
    fun q s h => lettered_of_word (by decide) (startsWith_of_boundary h),
    fun q s h => lettered_of_word (by decide) (startsWith_of_boundary h),
    fun q s h => lettered_of_word (by decide) (startsWith_of_boundary h)⟩

theorem instructionRe {p : InjectionPattern} (hp : p ∈ injectionPatterns) :
    InstructionRe p.re where
  looks := (by decide : ∀ p ∈ injectionPatterns, p.re.looksBehind = false) p hp
  nonempty := (by decide : ∀ p ∈ injectionPatterns, p.re.nullable = false) p hp
  opening := (by decide : ∀ p ∈ injectionPatterns, p.re.rejects (cu '[') = true) p hp
  closing := (by decide : ∀ p ∈ injectionPatterns, p.re.rejects (cu ']') = true) p hp
  digit := of_isDigit
    ((by decide : ∀ p ∈ injectionPatterns, (lit "0123456789").all p.re.rejects = true) p hp)
  terminator h := by
    have key : ∀ p ∈ injectionPatterns, (lit ".!?").all p.re.rejects = true := by decide
    refine List.all_eq_true.mp (key p hp) _ ?_
    simp only [isTerminator, Bool.or_eq_true, beq_iff_eq] at h
    rcases h with (rfl | rfl) | rfl <;> decide
  space := (by decide : ∀ p ∈ injectionPatterns, p.re.canEnd (cu ' ') = false) p hp
  customer := (by decide : ∀ p ∈ injectionPatterns,
    testFrom p.re (some (cu '[')) (lit "customer") = false) p hp
  marker := (by decide : ∀ p ∈ injectionPatterns,
    testFrom p.re (some (cu '0')) markerText = false) p hp
  starts h := injectionPatterns_start p hp _ _ h

end StormReview
