import StormReview.Js.Json.RoundTrip
import StormReview.Js.Utf8

/-! What `JSON.stringify` writes is one line of well-formed text. -/
namespace Js.Json

/-- Well formed, and without control characters. -/
structure Printed (t : Text) : Prop where
  wellFormed : WellFormed t
  noControl : ∀ c ∈ t, 32 ≤ c.toNat

theorem Printed.append {t u : Text} (ht : Printed t) (hu : Printed u) : Printed (t ++ u) where
  wellFormed := ht.wellFormed.append hu.wellFormed
  noControl c hc := by
    rcases List.mem_append.mp hc with hc | hc
    · exact ht.noControl c hc
    · exact hu.noControl c hc

theorem printed_of_all {t : Text} (h : ∀ c ∈ t, 32 ≤ c.toNat ∧ isSurrogate c = false) :
    Printed t where
  wellFormed := wellFormed_of_all fun c hc => (h c hc).2
  noControl c hc := (h c hc).1

theorem printed_singleton {c : UInt16} (hlow : 32 ≤ c.toNat)
    (h : c.toNat < 0xD800 ∨ 0xE000 ≤ c.toNat) : Printed [c] := by
  apply printed_of_all
  intro d hd
  rw [List.mem_singleton.mp hd]
  refine ⟨hlow, ?_⟩
  simp only [isSurrogate, Bool.and_eq_false_iff, decide_eq_false_iff_not]
  omega

/-- Plain characters only. -/
def isPlain (t : Text) : Bool := t.all fun c => 32 ≤ c.toNat && !isSurrogate c

theorem printed_of_isPlain {t : Text} (h : isPlain t = true) : Printed t := by
  apply printed_of_all
  intro c hc
  simpa using List.all_eq_true.mp h c hc

theorem printed_join {sep : Text} (hsep : Printed sep) {parts : List Text}
    (h : ∀ u ∈ parts, Printed u) : Printed (join sep parts) := by
  induction parts with
  | nil => exact printed_of_isPlain rfl
  | cons u parts ih =>
    have ih := ih fun v hv => h v (by simp [hv])
    by_cases hnil : parts = []
    · subst hnil
      rw [join_singleton]
      exact h u (by simp)
    · rw [join_cons hnil]
      exact ((h u (by simp)).append hsep).append ih

theorem printed_hexDigit {n : Nat} (h : n < 16) :
    32 ≤ (Value.hexDigit n).toNat ∧ isSurrogate (Value.hexDigit n) = false := by
  have hall : ∀ n : Fin 16, 32 ≤ (Value.hexDigit n).toNat ∧
      isSurrogate (Value.hexDigit n) = false := by decide
  exact hall ⟨n, h⟩

theorem printed_unicodeEscape (c : UInt16) : Printed (Value.unicodeEscape c) := by
  have hc : c.toNat < 65536 := c.toNat_lt
  refine Printed.append (printed_of_isPlain (by decide)) (printed_of_all fun d hd => ?_)
  simp only [List.mem_cons, List.not_mem_nil, or_false] at hd
  rcases hd with rfl | rfl | rfl | rfl
  all_goals exact printed_hexDigit (by omega)

theorem printed_quoteUnit (c : UInt16) : Printed (Value.quoteUnit c) := by
  rcases quoteUnit_cases c with ⟨d, hc, -, -, hlow, hhigh⟩ | hc | ⟨hc, -, -, hlow, hplain⟩
  · rw [hc]
    refine Printed.append (t := [cu '\\']) (printed_of_isPlain (by decide)) ?_
    apply printed_singleton hlow
    omega
  · rw [hc]
    exact printed_unicodeEscape c
  · rw [hc]
    exact printed_singleton hlow hplain

theorem printed_quoteUnits (s : Text) : Printed (Value.quoteUnits s) := by
  induction s using Value.quoteUnits.induct with
  | case1 => exact printed_of_isPlain rfl
  | case2 c => exact printed_quoteUnit c
  | case3 c d t hpair ih =>
    rw [Value.quoteUnits, if_pos hpair]
    simp only [Bool.and_eq_true, decide_eq_true_eq] at hpair
    refine ⟨.pair ?_ ?_ ih.wellFormed, ?_⟩
    · simp only [isHigh, Bool.and_eq_true, decide_eq_true_eq]
      omega
    · simp only [isLow, Bool.and_eq_true, decide_eq_true_eq]
      omega
    · intro u hu
      rcases List.mem_cons.mp hu with rfl | hu
      · omega
      rcases List.mem_cons.mp hu with rfl | hu
      · omega
      · exact ih.noControl u hu
  | case4 c d t hpair ih =>
    rw [Value.quoteUnits, if_neg hpair]
    exact (printed_quoteUnit c).append ih

theorem printed_quote (s : Text) : Printed (Value.quote s) :=
  ((printed_of_isPlain (by decide)).append (printed_quoteUnits s)).append
    (printed_of_isPlain (by decide))

theorem isNumeralUnit_plain {c : UInt16} (h : isNumeralUnit c = true) :
    32 ≤ c.toNat ∧ isSurrogate c = false := by
  simp only [isNumeralUnit, isDigit, isSign, Bool.or_eq_true, Bool.and_eq_true,
    decide_eq_true_eq, beq_iff_eq, or_assoc] at h
  rcases h with ⟨hlow, hhigh⟩ | rfl | rfl | rfl | rfl | rfl
  · refine ⟨by omega, ?_⟩
    simp only [isSurrogate, Bool.and_eq_false_iff, decide_eq_false_iff_not]
    omega
  all_goals decide

section stringify
variable {numberText : Text → Text}

mutual
theorem printed_stringify (v : Value) (h : IsJson numberText v) {t : Text}
    (ht : v.stringify = some t) : Printed t := by
  match v, h with
  | .undefined, h => exact h.elim
  | .null, _ => exact Option.some.inj ht ▸ printed_of_isPlain (by decide)
  | .bool true, _ => exact Option.some.inj ht ▸ printed_of_isPlain (by decide)
  | .bool false, _ => exact Option.some.inj ht ▸ printed_of_isPlain (by decide)
  | .num t, h =>
    rw [Value.stringify, numberJson_numeral h.1] at ht
    rw [← Option.some.inj ht]
    exact printed_of_all fun c hc => isNumeralUnit_plain (isNumeral_units h.1 c hc)
  | .str s, _ => exact Option.some.inj ht ▸ printed_quote s
  | .arr items, h =>
    rw [← Option.some.inj ht]
    exact ((printed_of_isPlain (by decide)).append (printed_join (printed_of_isPlain (by decide))
      (printed_items items h))).append (printed_of_isPlain (by decide))
  | .obj fields, h =>
    rw [← Option.some.inj ht]
    exact ((printed_of_isPlain (by decide)).append (printed_join (printed_of_isPlain (by decide))
      (printed_fields fields h.2))).append (printed_of_isPlain (by decide))

theorem printed_items (items : List Value) (h : IsJsonItems numberText items) :
    ∀ u ∈ Value.stringifyItems items, Printed u := by
  match items, h with
  | [], _ => exact fun u hu => nomatch hu
  | v :: items, h =>
    intro u hu
    rcases List.mem_cons.mp hu with rfl | hu
    · cases hv : v.stringify with
      | none => exact printed_of_isPlain (by decide)
      | some t => exact printed_stringify v h.1 hv
    · exact printed_items items h.2 u hu

theorem printed_fields (fields : List (Text × Value)) (h : IsJsonFields numberText fields) :
    ∀ u ∈ Value.stringifyFields fields, Printed u := by
  match fields, h with
  | [], _ => exact fun u hu => nomatch hu
  | (k, v) :: fields, h =>
    intro u hu
    cases hv : v.stringify with
    | none =>
      rw [Value.stringifyFields, hv] at hu
      exact printed_fields fields h.2 u hu
    | some t =>
      rw [stringifyFields_cons hv] at hu
      rcases List.mem_cons.mp hu with rfl | hu
      · have hdefined : v ≠ .undefined := by
          rintro rfl
          cases hv
        exact ((printed_quote k).append (printed_of_isPlain (by decide))).append
          (printed_stringify v (h.1.resolve_left hdefined) hv)
      · exact printed_fields fields h.2 u hu
end

end stringify

end Js.Json
