import Mathlib.Data.List.TakeWhile
import StormReview.Js.Json

/-! What `JSON.stringify` writes, `JSON.parse` reads back. -/
namespace Js.Json

section tokens
variable {numberText : Text → Text} {stack : List Frame} {isKey : Bool} {read : Text}

/-! Strings. -/

theorem hexValue_hexDigit (n : Nat) (h : n < 16) : hexValue (Value.hexDigit n) = some n := by
  have hall : ∀ n : Fin 16, hexValue (Value.hexDigit n) = some n.val := by decide
  exact hall ⟨n, h⟩

theorem step_hex {count value n : Nat} (h : n < 16) :
    step numberText ⟨stack, .text isKey read (.unicode count value)⟩ (Value.hexDigit n) =
      some ⟨stack, if count = 3 then .text isKey (read ++ [UInt16.ofNat (16 * value + n)]) .none
        else .text isKey read (.unicode (count + 1) (16 * value + n))⟩ := by
  simp only [step, inText, hexValue_hexDigit n h, Option.map_some]

theorem run_unicodeEscape (c : UInt16) :
    run numberText ⟨stack, .text isKey read .none⟩ (Value.unicodeEscape c) =
      some ⟨stack, .text isKey (read ++ [c]) .none⟩ := by
  have hc : c.toNat < 65536 := c.toNat_lt
  have hopen : run numberText ⟨stack, .text isKey read .none⟩ (lit "\\u") =
      some ⟨stack, .text isKey read (.unicode 0 0)⟩ := rfl
  rw [Value.unicodeEscape, run_append_of hopen, run_cons_of (step_hex (by omega)),
    if_neg (by decide), run_cons_of (step_hex (by omega)), if_neg (by decide),
    run_cons_of (step_hex (by omega)), if_neg (by decide), run_cons_of (step_hex (by omega)),
    if_pos rfl, run_nil]
  have hvalue : 16 * (16 * (16 * (16 * 0 + c.toNat / 4096) + c.toNat / 256 % 16) +
      c.toNat / 16 % 16) + c.toNat % 16 = c.toNat := by omega
  rw [hvalue, UInt16.ofNat_toNat]

theorem step_plain {c : UInt16} (hquote : c ≠ cu '"') (hslash : c ≠ cu '\\')
    (hc : ¬ c.toNat < 32) :
    step numberText ⟨stack, .text isKey read .none⟩ c =
      some ⟨stack, .text isKey (read ++ [c]) .none⟩ := by
  simp only [step, inText, if_neg hquote, if_neg hslash, if_neg hc, Option.map_some]

theorem run_escaped {c d : UInt16} (hd : d ≠ cu 'u') (h : escaped d = some c) :
    run numberText ⟨stack, .text isKey read .none⟩ [cu '\\', d] =
      some ⟨stack, .text isKey (read ++ [c]) .none⟩ := by
  have hslash : step numberText ⟨stack, .text isKey read .none⟩ (cu '\\') =
      some ⟨stack, .text isKey read .backslash⟩ := rfl
  have hletter : step numberText ⟨stack, .text isKey read .backslash⟩ d =
      some ⟨stack, .text isKey (read ++ [c]) .none⟩ := by
    simp only [step, inText, if_neg hd, h, Option.map_some]
  rw [run_cons_of hslash, run_cons_of hletter, run_nil]

/-- A unit is written as a backslash and a letter, by its number, or as it is. -/
theorem quoteUnit_cases (c : UInt16) :
    (∃ d, Value.quoteUnit c = [cu '\\', d] ∧ escaped d = some c ∧ d ≠ cu 'u' ∧
      32 ≤ d.toNat ∧ d.toNat < 128) ∨
    Value.quoteUnit c = Value.unicodeEscape c ∨
    (Value.quoteUnit c = [c] ∧ c ≠ cu '"' ∧ c ≠ cu '\\' ∧ 32 ≤ c.toNat ∧
      (c.toNat < 0xD800 ∨ 0xE000 ≤ c.toNat)) := by
  unfold Value.quoteUnit
  split_ifs with h1 h2 h3 h4 h5 h6 h7 h8
  · exact .inl ⟨cu '"', rfl, by rw [h1]; decide⟩
  · exact .inl ⟨cu '\\', rfl, by rw [h2]; decide⟩
  · exact .inl ⟨cu 'b', rfl, by rw [h3]; decide⟩
  · exact .inl ⟨cu 'f', rfl, by rw [h4]; decide⟩
  · exact .inl ⟨cu 'n', rfl, by rw [h5]; decide⟩
  · exact .inl ⟨cu 'r', rfl, by rw [h6]; decide⟩
  · exact .inl ⟨cu 't', rfl, by rw [h7]; decide⟩
  · exact .inr (.inl rfl)
  · simp only [Bool.or_eq_true, Bool.and_eq_true, decide_eq_true_eq] at h8
    exact .inr (.inr ⟨rfl, h1, h2, by omega, by omega⟩)

theorem run_quoteUnit (c : UInt16) :
    run numberText ⟨stack, .text isKey read .none⟩ (Value.quoteUnit c) =
      some ⟨stack, .text isKey (read ++ [c]) .none⟩ := by
  rcases quoteUnit_cases c with ⟨d, hc, hd, hu, -⟩ | hc | ⟨hc, hquote, hslash, hlow, -⟩
  · rw [hc]
    exact run_escaped hu hd
  · rw [hc]
    exact run_unicodeEscape c
  · rw [hc, run_cons_of (step_plain hquote hslash (by omega)), run_nil]

/-- A unit of a surrogate pair is no quote, no backslash and no control character. -/
theorem step_surrogate {c : UInt16} (h : 0xD800 ≤ c.toNat) :
    step numberText ⟨stack, .text isKey read .none⟩ c =
      some ⟨stack, .text isKey (read ++ [c]) .none⟩ := by
  have hquote : (cu '"').toNat < 0xD800 := by decide
  have hslash : (cu '\\').toNat < 0xD800 := by decide
  refine step_plain ?_ ?_ (by omega)
  · rintro rfl
    omega
  · rintro rfl
    omega

theorem run_quoteUnits (s : Text) :
    run numberText ⟨stack, .text isKey read .none⟩ (Value.quoteUnits s) =
      some ⟨stack, .text isKey (read ++ s) .none⟩ := by
  induction s using Value.quoteUnits.induct generalizing read with
  | case1 => simp [Value.quoteUnits]
  | case2 c => exact run_quoteUnit c
  | case3 c d t hpair ih =>
    have hc : 0xD800 ≤ c.toNat := by
      simp only [Bool.and_eq_true, decide_eq_true_eq] at hpair
      omega
    have hd : 0xD800 ≤ d.toNat := by
      simp only [Bool.and_eq_true, decide_eq_true_eq] at hpair
      omega
    rw [Value.quoteUnits, if_pos hpair, run_cons_of (step_surrogate hc),
      run_cons_of (step_surrogate hd), ih]
    simp
  | case4 c d t hpair ih =>
    rw [Value.quoteUnits, if_neg hpair, run_append_of (run_quoteUnit c), ih]
    simp

theorem run_quote_value (s : Text) :
    run numberText ⟨stack, .value⟩ (Value.quote s) = some ⟨stack, .after (.str s)⟩ := by
  have hopen : run numberText ⟨stack, .value⟩ (lit "\"") =
      some ⟨stack, .text false [] .none⟩ := rfl
  rw [Value.quote, List.append_assoc, run_append_of hopen, run_append_of (run_quoteUnits s)]
  rfl

theorem run_quote_key (s : Text) :
    run numberText ⟨stack, .key⟩ (Value.quote s) = some ⟨stack, .colon s⟩ := by
  have hopen : run numberText ⟨stack, .key⟩ (lit "\"") = some ⟨stack, .text true [] .none⟩ := rfl
  rw [Value.quote, List.append_assoc, run_append_of hopen, run_append_of (run_quoteUnits s)]
  rfl

/-! Numbers and literals. -/

def isNumeralUnit (c : UInt16) : Bool :=
  isDigit c || isSign c || c == cu '.' || c == cu 'e' || c == cu 'E'

theorem isNumeralUnit_of_isDigit {c : UInt16} (h : isDigit c = true) : isNumeralUnit c = true := by
  simp [isNumeralUnit, h]

theorem isNumeralUnit_of_isSign {c : UInt16} (h : isSign c = true) : isNumeralUnit c = true := by
  simp [isNumeralUnit, h]

theorem isExponent_units {t : Text} (h : isExponent t = true) :
    ∀ c ∈ t, isNumeralUnit c = true := by
  cases t with
  | nil => exact fun c hc => nomatch hc
  | cons e t =>
    simp only [isExponent, Bool.and_eq_true, Bool.or_eq_true, beq_iff_eq, List.all_eq_true] at h
    obtain ⟨⟨he, -⟩, hdigits⟩ := h
    intro c hc
    rcases List.mem_cons.mp hc with rfl | hc
    · rcases he with rfl | rfl <;> decide
    cases t with
    | nil => cases hc
    | cons d t =>
      by_cases hsign : isSign d = true
      · rw [List.head?_cons, Option.any_some, if_pos hsign] at hdigits
        rcases List.mem_cons.mp hc with rfl | hc
        · exact isNumeralUnit_of_isSign hsign
        · exact isNumeralUnit_of_isDigit (hdigits c hc)
      · rw [List.head?_cons, Option.any_some, if_neg hsign] at hdigits
        exact isNumeralUnit_of_isDigit (hdigits c hc)

/-- Digits and what comes after them. -/
theorem units_span {t : Text} (h : ∀ c ∈ t.dropWhile isDigit, isNumeralUnit c = true) :
    ∀ c ∈ t, isNumeralUnit c = true := by
  intro c hc
  rw [← @List.takeWhile_append_dropWhile _ isDigit t, List.mem_append] at hc
  rcases hc with hc | hc
  · exact isNumeralUnit_of_isDigit (List.all_eq_true.mp List.all_takeWhile c hc)
  · exact h c hc

theorem isFraction_units {t : Text} (h : isFraction t = true) :
    ∀ c ∈ t, isNumeralUnit c = true := by
  cases t with
  | nil => exact fun c hc => nomatch hc
  | cons d t =>
    rw [isFraction] at h
    split_ifs at h with hdot
    · rw [Bool.and_eq_true] at h
      intro c hc
      rcases List.mem_cons.mp hc with rfl | hc
      · rw [hdot]
        decide
      · exact units_span (isExponent_units h.2) c hc
    · exact isExponent_units h

theorem isNumeral_units {t : Text} (h : isNumeral t = true) : ∀ c ∈ t, isNumeralUnit c = true := by
  rw [isNumeral, Bool.and_eq_true] at h
  intro c hc
  split_ifs at h with hminus
  · obtain ⟨t, rfl⟩ := List.head?_eq_some_iff.mp hminus
    rcases List.mem_cons.mp hc with rfl | hc
    · decide
    · exact units_span (isFraction_units h.2) c hc
  · exact units_span (isFraction_units h.2) c hc

theorem isNumeral_ne_nil {t : Text} (h : isNumeral t = true) : t ≠ [] := by
  rintro rfl
  revert h
  decide

theorem isDelimiter_numeralUnit {c : UInt16} (h : isNumeralUnit c = true) :
    isDelimiter c = false := by
  cases hc : isDelimiter c with
  | false => rfl
  | true =>
    simp only [isDelimiter, isBlank, Bool.or_eq_true, beq_iff_eq, or_assoc] at hc
    rcases hc with rfl | rfl | rfl | rfl | rfl | rfl | rfl
    all_goals exact absurd h (by decide)

theorem openValue_numeralUnit {c : UInt16} (h : isNumeralUnit c = true) :
    openValue stack c = some ⟨stack, .token [c]⟩ := by
  have hne (d : UInt16) (hd : isNumeralUnit d = false) : c ≠ d := by
    rintro rfl
    rw [h] at hd
    cases hd
  have hdelimiter := isDelimiter_numeralUnit h
  have hblank : isBlank c = false := by
    simp only [isDelimiter, Bool.or_eq_false_iff] at hdelimiter
    exact hdelimiter.1.1.1
  simp only [openValue, hblank, hdelimiter, Bool.false_eq_true, if_false,
    if_neg (hne (cu '"') (by decide)), if_neg (hne (cu '[') (by decide)),
    if_neg (hne (cu '\x7b') (by decide))]

theorem run_token {t : Text} (h : ∀ c ∈ t, isDelimiter c = false) :
    run numberText ⟨stack, .token read⟩ t = some ⟨stack, .token (read ++ t)⟩ := by
  induction t generalizing read with
  | nil => simp
  | cons c t ih =>
    have hstep : step numberText ⟨stack, .token read⟩ c =
        some ⟨stack, .token (read ++ [c])⟩ := by
      simp only [step, h c (by simp), Bool.false_eq_true, if_false]
    rw [run_cons_of hstep, ih fun d hd => h d (by simp [hd])]
    simp

theorem run_numeral {t : Text} (h : isNumeral t = true) :
    run numberText ⟨stack, .value⟩ t = some ⟨stack, .token t⟩ := by
  have hunits := isNumeral_units h
  obtain ⟨c, t, rfl⟩ := List.exists_cons_of_ne_nil (isNumeral_ne_nil h)
  have hopen : step numberText ⟨stack, .value⟩ c = some ⟨stack, .token [c]⟩ :=
    openValue_numeralUnit (hunits c (by simp))
  rw [run_cons_of hopen]
  exact run_token fun d hd => isDelimiter_numeralUnit (hunits d (by simp [hd]))

/-- A numeral is none of the literals. -/
theorem word_numeral {t : Text} (h : isNumeral t = true) :
    word numberText t = some (.num (numberText t)) := by
  have hne (u : Text) (hu : isNumeral u = false) : t ≠ u := by
    rintro rfl
    rw [h] at hu
    cases hu
  rw [word, if_neg (hne _ (by decide)), if_neg (hne _ (by decide)), if_neg (hne _ (by decide)),
    if_pos h]

end tokens

/-! What reads back. -/

mutual
/-- Data as `JSON.parse` returns it, save that a field may be undefined: every number prints as
its text, and every object lists its keys in the order of the language. -/
def IsJson (numberText : Text → Text) : Value → Prop
  | .undefined => False
  | .null => True
  | .bool _ => True
  | .num t => isNumeral t = true ∧ numberText t = t
  | .str _ => True
  | .arr items => IsJsonItems numberText items
  | .obj fields =>
    (fields.map (·.1)).Pairwise (fun k k' => k ≠ k' ∧ listedBefore k k' = true) ∧
      IsJsonFields numberText fields

def IsJsonItems (numberText : Text → Text) : List Value → Prop
  | [] => True
  | v :: vs => IsJson numberText v ∧ IsJsonItems numberText vs

def IsJsonFields (numberText : Text → Text) : List (Text × Value) → Prop
  | [] => True
  | (_, v) :: fs => (v = .undefined ∨ IsJson numberText v) ∧ IsJsonFields numberText fs
end

mutual
/-- The same data without the fields that are undefined. -/
def asRead : Value → Value
  | .undefined => .undefined
  | .null => .null
  | .bool b => .bool b
  | .num t => .num t
  | .str s => .str s
  | .arr items => .arr (asReadItems items)
  | .obj fields => .obj (asReadFields fields)

def asReadItems : List Value → List Value
  | [] => []
  | v :: vs => asRead v :: asReadItems vs

def asReadFields : List (Text × Value) → List (Text × Value)
  | [] => []
  | (k, v) :: fs =>
    match v with
    | .undefined => asReadFields fs
    | v => (k, asRead v) :: asReadFields fs
end

/-- Keys that are names are listed in the order they come. -/
theorem pairwise_names {keys : List Text} (hnodup : keys.Nodup)
    (hnames : (keys.all fun k => (index? k).isNone) = true) :
    keys.Pairwise fun k k' => k ≠ k' ∧ listedBefore k k' = true := by
  refine hnodup.imp_of_mem fun {k k'} _ hk' hne => ⟨hne, ?_⟩
  have hname : index? k' = none := by simpa using List.all_eq_true.mp hnames k' hk'
  unfold listedBefore
  rw [hname]
  split <;> simp_all

theorem put_last {fields : List (Text × Value)} {key : Text} (v : Value)
    (h : ∀ f ∈ fields, f.1 ≠ key ∧ listedBefore f.1 key = true) :
    put fields key v = fields ++ [(key, v)] := by
  have hnew : ¬ (fields.any fun f => f.1 = key) = true := by
    rw [List.any_eq_true]
    rintro ⟨f, hf, hkey⟩
    exact (h f hf).1 (by simpa using hkey)
  have hall : ∀ f ∈ fields, (fun f : Text × Value => listedBefore f.1 key) f = true :=
    fun f hf => (h f hf).2
  rw [put, if_neg hnew, List.takeWhile_eq_self_iff.mpr hall, List.dropWhile_eq_nil_iff.mpr hall]

/-- The end of a token is seen at the unit after it. -/
def settle (numberText : Text → Text) (s : State) : Option State :=
  match s.mode with
  | .token read => (word numberText read).map fun v => ⟨s.stack, .after v⟩
  | _ => some s

section settle
variable {numberText : Text → Text} {stack : List Frame} {s : State} {v : Value}

theorem settle_cases (h : settle numberText s = some ⟨stack, .after v⟩) :
    s = ⟨stack, .after v⟩ ∨
      ∃ read, s = ⟨stack, .token read⟩ ∧ word numberText read = some v := by
  obtain ⟨below, mode⟩ := s
  cases mode with
  | token read =>
    simp only [settle, Option.map_eq_some_iff, State.mk.injEq, Mode.after.injEq] at h
    obtain ⟨w, hw, rfl, rfl⟩ := h
    exact .inr ⟨read, rfl, hw⟩
  | _ => exact .inl (Option.some.inj h)

theorem step_settled (h : settle numberText s = some ⟨stack, .after v⟩) {c : UInt16}
    (hc : isDelimiter c = true) : step numberText s c = afterValue stack v c := by
  rcases settle_cases h with rfl | ⟨read, rfl, hread⟩
  · rfl
  · simp only [step, if_pos hc, hread, Option.bind_some]

theorem finish_settled (h : settle numberText s = some ⟨[], .after v⟩) :
    finish numberText s = some v := by
  rcases settle_cases h with rfl | ⟨read, rfl, hread⟩
  · rfl
  · exact hread

end settle

section roundTrip
variable {numberText : Text → Text} {stack : List Frame} {t : Text} {v : Value}

/-- The machine reads `t` as a value. -/
def Reads (numberText : Text → Text) (t : Text) (v : Value) : Prop :=
  ∀ stack, ∃ s, run numberText ⟨stack, .value⟩ t = some s ∧
    settle numberText s = some ⟨stack, .after v⟩

theorem Reads.of_run (h : ∀ stack, run numberText ⟨stack, .value⟩ t = some ⟨stack, .after v⟩) :
    Reads numberText t v :=
  fun stack => ⟨_, h stack, rfl⟩

theorem Reads.numeral (h : isNumeral t = true) : Reads numberText t (.num (numberText t)) := by
  intro stack
  refine ⟨_, run_numeral h, ?_⟩
  simp only [settle, word_numeral h, Option.map_some]

theorem Reads.run_delimiter (h : Reads numberText t v) {c : UInt16} (hc : isDelimiter c = true)
    (u : Text) : run numberText ⟨stack, .value⟩ (t ++ c :: u) =
      (afterValue stack v c).bind fun s => run numberText s u := by
  obtain ⟨s, hrun, hsettle⟩ := h stack
  rw [run_append_of hrun, run_cons, step_settled hsettle hc]

theorem Reads.parse (h : Reads numberText t v) : Json.parse numberText t = some v := by
  obtain ⟨s, hrun, hsettle⟩ := h []
  rw [Json.parse, hrun, Option.bind_some, finish_settled hsettle]

/-- A member of an object, with what follows it. -/
theorem Reads.run_member (h : Reads numberText t v) {done : List (Text × Value)} {key : Text}
    {c : UInt16} (hc : isDelimiter c = true) (u : Text) :
    run numberText ⟨.fields done :: stack, .key⟩
        ((Value.quote key ++ lit ":" ++ t) ++ c :: u) =
      (afterValue (.field done key :: stack) v c).bind fun s => run numberText s u := by
  have hcolon : run numberText ⟨.fields done :: stack, .colon key⟩ (lit ":") =
      some ⟨.field done key :: stack, .value⟩ := rfl
  rw [List.append_assoc, List.append_assoc, run_append_of (run_quote_key key),
    run_append_of hcolon, h.run_delimiter hc]

theorem numberJson_numeral {t : Text} (h : isNumeral t = true) : Value.numberJson t = t := by
  refine if_neg ?_
  rintro (rfl | rfl | rfl)
  all_goals exact absurd h (by decide)

theorem stringifyItems_ne_nil {items : List Value} (h : items ≠ []) :
    Value.stringifyItems items ≠ [] := by
  cases items with
  | nil => exact absurd rfl h
  | cons v vs => simp [Value.stringifyItems]

theorem asReadFields_cons {k : Text} (h : v ≠ .undefined) (fields : List (Text × Value)) :
    asReadFields ((k, v) :: fields) = (k, asRead v) :: asReadFields fields := by
  cases v with
  | undefined => exact absurd rfl h
  | _ => rfl

theorem stringifyFields_cons {k : Text} (h : v.stringify = some t)
    (fields : List (Text × Value)) : Value.stringifyFields ((k, v) :: fields) =
      (Value.quote k ++ lit ":" ++ t) :: Value.stringifyFields fields := by
  rw [Value.stringifyFields, h]

theorem stringify_eq_none (h : v.stringify = none) : v = .undefined := by
  cases v with
  | undefined => rfl
  | _ => simp [Value.stringify] at h

theorem asReadFields_eq_nil {fields : List (Text × Value)}
    (h : Value.stringifyFields fields = []) : asReadFields fields = [] := by
  induction fields with
  | nil => rfl
  | cons f fields ih =>
    obtain ⟨k, v⟩ := f
    cases ht : v.stringify with
    | none =>
      rw [stringify_eq_none ht] at h ⊢
      exact ih h
    | some t =>
      rw [stringifyFields_cons ht] at h
      cases h

mutual
theorem reads_stringify (v : Value) (h : IsJson numberText v) :
    ∃ t, v.stringify = some t ∧ Reads numberText t (asRead v) := by
  match v, h with
  | .undefined, h => exact h.elim
  | .null, _ => exact ⟨_, rfl, fun stack => ⟨_, rfl, rfl⟩⟩
  | .bool true, _ => exact ⟨_, rfl, fun stack => ⟨_, rfl, rfl⟩⟩
  | .bool false, _ => exact ⟨_, rfl, fun stack => ⟨_, rfl, rfl⟩⟩
  | .num t, h =>
    have hnum : Reads numberText t (.num t) := by
      have hread : Reads numberText t (.num (numberText t)) := .numeral h.1
      rwa [h.2] at hread
    refine ⟨t, ?_, hnum⟩
    rw [Value.stringify, numberJson_numeral h.1]
  | .str s, _ => exact ⟨_, rfl, .of_run fun stack => run_quote_value s⟩
  | .arr items, h =>
    refine ⟨_, rfl, .of_run fun stack => ?_⟩
    have hopen : run numberText ⟨stack, .value⟩ (lit "[") = some ⟨.items [] :: stack, .value⟩ := rfl
    rw [List.append_assoc, run_append_of hopen, run_items items h stack [] fun _ => rfl]
    rfl
  | .obj fields, h =>
    refine ⟨_, rfl, .of_run fun stack => ?_⟩
    have hopen : run numberText ⟨stack, .value⟩ (lit "\x7b") = some ⟨.fields [] :: stack, .key⟩ :=
      rfl
    rw [List.append_assoc, run_append_of hopen, run_fields fields h.2 stack [] (by simpa using h.1)
      fun _ => rfl]
    rfl

theorem run_items (items : List Value) (h : IsJsonItems numberText items) (stack : List Frame)
    (done : List Value) (hdone : items = [] → done = []) :
    run numberText ⟨.items done :: stack, .value⟩
        (join (lit ",") (Value.stringifyItems items) ++ lit "]") =
      some ⟨stack, .after (.arr (done ++ asReadItems items))⟩ := by
  match items, h with
  | [], _ =>
    rw [hdone rfl]
    rfl
  | v :: items, h =>
    obtain ⟨t, ht, hreads⟩ := reads_stringify v h.1
    simp only [Value.stringifyItems, ht, Option.getD_some, asReadItems]
    by_cases hnil : items = []
    · subst hnil
      rw [Value.stringifyItems, join_singleton]
      exact hreads.run_delimiter (c := cu ']') rfl []
    · have hcomma : afterValue (.items done :: stack) (asRead v) (cu ',') =
          some ⟨.items (done ++ [asRead v]) :: stack, .value⟩ := rfl
      rw [join_cons (stringifyItems_ne_nil hnil), List.append_assoc, List.append_assoc]
      refine (hreads.run_delimiter (c := cu ',') rfl
        (join (lit ",") (Value.stringifyItems items) ++ lit "]")).trans ?_
      rw [hcomma, Option.bind_some, run_items items h.2 stack _ fun h => absurd h hnil,
        List.append_assoc]
      rfl

theorem run_fields (fields : List (Text × Value)) (h : IsJsonFields numberText fields)
    (stack : List Frame) (done : List (Text × Value))
    (hkeys : ((done ++ fields).map (·.1)).Pairwise
      fun k k' => k ≠ k' ∧ listedBefore k k' = true)
    (hdone : Value.stringifyFields fields = [] → done = []) :
    run numberText ⟨.fields done :: stack, .key⟩
        (join (lit ",") (Value.stringifyFields fields) ++ lit "\x7d") =
      some ⟨stack, .after (.obj (done ++ asReadFields fields))⟩ := by
  match fields, h with
  | [], _ =>
    rw [hdone rfl]
    rfl
  | (k, v) :: fields, h =>
    rcases h.1 with hv | hv
    · subst hv
      refine run_fields fields h.2 stack done (hkeys.sublist ?_) hdone
      exact (List.Sublist.append_left (List.sublist_cons_self ..) done).map _
    obtain ⟨t, ht, hreads⟩ := reads_stringify v hv
    have hdefined : v ≠ .undefined := by
      rintro rfl
      exact hv
    have hput : put done k (asRead v) = done ++ [(k, asRead v)] := by
      refine put_last _ fun f hf => ?_
      rw [List.map_append, List.pairwise_append] at hkeys
      exact hkeys.2.2 f.1 (List.mem_map_of_mem hf) k (by simp)
    rw [stringifyFields_cons ht, asReadFields_cons hdefined]
    by_cases hnil : Value.stringifyFields fields = []
    · rw [hnil, join_singleton, asReadFields_eq_nil hnil]
      have hclose : afterValue (.field done k :: stack) (asRead v) (cu '\x7d') =
          some ⟨stack, .after (.obj (put done k (asRead v)))⟩ := rfl
      refine (hreads.run_member (c := cu '\x7d') rfl []).trans ?_
      rw [hclose, hput]
      rfl
    · have hcomma : afterValue (.field done k :: stack) (asRead v) (cu ',') =
          some ⟨.fields (put done k (asRead v)) :: stack, .key⟩ := rfl
      rw [join_cons hnil, List.append_assoc, List.append_assoc]
      refine (hreads.run_member (c := cu ',') rfl
        (join (lit ",") (Value.stringifyFields fields) ++ lit "\x7d")).trans ?_
      rw [hcomma, Option.bind_some, hput, run_fields fields h.2 stack _ ?_ fun h => absurd h hnil,
        List.append_assoc]
      · rfl
      · simpa using hkeys
end

/-- What `JSON.stringify` writes reads back, without the fields that are undefined. -/
theorem parse_stringify (h : IsJson numberText v) (ht : v.stringify = some t) :
    parse numberText t = some (asRead v) := by
  obtain ⟨t', ht', hreads⟩ := reads_stringify v h
  obtain rfl := Option.some.inj (ht.symm.trans ht')
  exact hreads.parse

end roundTrip

end Js.Json
