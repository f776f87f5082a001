import StormReview.Js.Pieces
import StormReview.Guards.PrivacyGuard

/-! The texts that privacyGuard recognises: what a full postcode and a titled name look like. -/
namespace StormReview
open Js Regex

/-! Full postcodes. -/

/-- An outward district: one or two letters, a digit, and perhaps one more letter or digit. -/
def District (g : Text) : Prop :=
  ∃ a u d o, g = a :: (u ++ d :: o) ∧ isUpper a = true ∧
    (u.length ≤ 1 ∧ ∀ c ∈ u, isUpper c = true) ∧ isDigit d = true ∧
    (o = [] ∨ ∃ x, o = [x] ∧ (isUpper x = true ∨ isDigit x = true))

def Inward (v : Text) : Prop :=
  ∃ sp d x y, v = sp ++ [d, x, y] ∧ (∀ c ∈ sp, isSpace c = true) ∧ isDigit d = true ∧
    isUpper x = true ∧ isUpper y = true

theorem match_district {prev : Option UInt16} {g rest : Text} :
    Match districtRe prev g rest ↔ wordAt prev = false ∧ District g := by
  simp only [districtRe, chain, match_seq, match_boundary, upper, match_unit, match_opt, digit]
  constructor
  · rintro ⟨_, _, rfl, ⟨rfl, hb⟩, _, _, rfl, ⟨a, ha, rfl⟩, u, _, rfl, hu, _, o, rfl, ⟨d, hd, rfl⟩,
      ho⟩
    refine ⟨?_, a, u, d, o, rfl, ha, ?_, hd, ?_⟩
    · simpa [isWord_of_isUpper ha] using hb
    · rcases hu with ⟨c, hc, rfl⟩ | rfl
      · simpa using hc
      · simp
    · rcases ho with ⟨x, hx, rfl⟩ | rfl
      · exact .inr ⟨x, rfl, by simpa using hx⟩
      · exact .inl rfl
  · rintro ⟨hb, a, u, d, o, rfl, ha, ⟨hlen, hu⟩, hd, ho⟩
    refine ⟨[], _, rfl, ⟨rfl, by simp [hb, isWord_of_isUpper ha]⟩, [a], _, rfl, ⟨a, ha, rfl⟩, u, _,
      rfl, ?_, [d], o, rfl, ⟨d, hd, rfl⟩, ?_⟩
    · rcases u with _ | ⟨c, _ | ⟨_, _⟩⟩
      · exact .inr rfl
      · exact .inl ⟨c, hu c (by simp), rfl⟩
      · simp at hlen
    · rcases ho with rfl | ⟨x, rfl, hx⟩
      · exact .inr rfl
      · exact .inl ⟨x, by simpa using hx, rfl⟩

theorem match_inward {prev : Option UInt16} {v rest : Text} :
    Match inwardRe prev v rest ↔ Inward v ∧ wordAt rest.head? = false := by
  simp only [inwardRe, chain, match_seq, match_boundary, upper, match_unit, digit, space,
    match_star_unit]
  constructor
  · rintro ⟨sp, _, rfl, hsp, _, _, rfl, ⟨d, hd, rfl⟩, _, _, rfl, ⟨x, hx, rfl⟩, _, _, rfl,
      ⟨y, hy, rfl⟩, rfl, hb⟩
    refine ⟨⟨sp, d, x, y, rfl, hsp, hd, hx, hy⟩, ?_⟩
    simpa [isWord_of_isUpper hy] using hb
  · rintro ⟨⟨sp, d, x, y, rfl, hsp, hd, hx, hy⟩, hb⟩
    exact ⟨sp, [d, x, y], rfl, hsp, [d], [x, y], rfl, ⟨d, hd, rfl⟩, [x], [y], rfl, ⟨x, hx, rfl⟩,
      [y], [], rfl, ⟨y, hy, rfl⟩, rfl, by simp [isWord_of_isUpper hy, hb]⟩

theorem Inward.head {v : Text} (h : Inward v) (r : Text) :
    ∃ c s, v ++ r = c :: s ∧ isUpper c = false := by
  obtain ⟨sp, d, x, y, rfl, hsp, hd, -, -⟩ := h
  cases sp with
  | nil => exact ⟨d, _, rfl, isUpper_eq_false_of_isDigit hd⟩
  | cons c sp =>
    exact ⟨c, _, rfl, isUpper_eq_false_of_isWord_eq_false
      (isWord_eq_false_of_isSpace (hsp c (by simp)))⟩

theorem Inward.unique {v v' r r' : Text} (hv : Inward v) (hv' : Inward v')
    (h : v ++ r = v' ++ r') : v = v' := by
  obtain ⟨sp, d, x, y, rfl, hsp, hd, -, -⟩ := hv
  obtain ⟨sp', d', x', y', rfl, hsp', hd', -, -⟩ := hv'
  have digit_not_space {d : UInt16} (hd : isDigit d = true) : isSpace d = false :=
    isSpace_eq_false_of_isWord (isWord_of_isDigit hd)
  rw [List.append_assoc, List.append_assoc] at h
  obtain ⟨rfl, hr⟩ := span_unique hsp hsp' (by simpa using digit_not_space hd)
    (by simpa using digit_not_space hd') h
  simp only [List.cons_append, List.nil_append, List.cons.injEq] at hr
  obtain ⟨rfl, rfl, rfl, -⟩ := hr
  rfl

/-- An inward part does not begin with the last character of a district. -/
theorem Inward.not_shifted {v v' r r' : Text} {x : UInt16} (hv : Inward v) (hv' : Inward v')
    (hx : isUpper x = true ∨ isDigit x = true) : v ++ r ≠ x :: (v' ++ r') := by
  intro h
  obtain ⟨sp, d, y, z, rfl, hsp, -, hy, -⟩ := hv
  obtain ⟨c, s, hs, hc⟩ := hv'.head r'
  cases sp with
  | nil =>
    simp only [List.nil_append, List.cons_append, hs, List.cons.injEq] at h
    rw [h.2.1, hc] at hy
    cases hy
  | cons e sp =>
    simp only [List.cons_append, List.cons.injEq] at h
    have hsx : isSpace x = true := h.1 ▸ hsp e (by simp)
    rw [isSpace_eq_false_of_isWord (hx.elim isWord_of_isUpper isWord_of_isDigit)] at hsx
    cases hsx

/-- Two districts at one place are the same, or one of them is a character longer. -/
theorem District.unique_or_shift {g g' s s' : Text} (hg : District g) (hg' : District g')
    (h : g ++ s = g' ++ s') : (g = g' ∧ s = s') ∨
      ∃ x, (isUpper x = true ∨ isDigit x = true) ∧ (s = x :: s' ∨ s' = x :: s) := by
  obtain ⟨a, u, d, o, rfl, -, ⟨-, hu⟩, hd, ho⟩ := hg
  obtain ⟨a', u', d', o', rfl, -, ⟨-, hu'⟩, hd', ho'⟩ := hg'
  simp only [List.cons_append, List.append_assoc, List.cons.injEq] at h
  obtain ⟨rfl, h⟩ := h
  obtain ⟨rfl, hs⟩ := span_unique hu hu' (by simpa using isUpper_eq_false_of_isDigit hd)
    (by simpa using isUpper_eq_false_of_isDigit hd') h
  simp only [List.cons.injEq] at hs
  obtain ⟨rfl, hs⟩ := hs
  rcases ho with rfl | ⟨x, rfl, hx⟩ <;> rcases ho' with rfl | ⟨x', rfl, hx'⟩ <;>
    simp only [List.cons_append, List.nil_append, List.cons.injEq] at hs
  · exact .inl ⟨rfl, hs⟩
  · exact .inr ⟨x', hx', .inl hs⟩
  · exact .inr ⟨x, hx, .inr hs.symm⟩
  · obtain ⟨rfl, hs⟩ := hs
    exact .inl ⟨rfl, hs⟩

theorem postcode_unique {g g' v v' r r' : Text} (hg : District g) (hg' : District g')
    (hv : Inward v) (hv' : Inward v') (h : g ++ (v ++ r) = g' ++ (v' ++ r')) :
    g = g' ∧ v = v' := by
  rcases hg.unique_or_shift hg' h with ⟨rfl, hs⟩ | ⟨x, hx, hs | hs⟩
  · exact ⟨rfl, hv.unique hv' hs⟩
  · exact absurd hs (hv.not_shifted hv' hx)
  · exact absurd hs (hv'.not_shifted hv hx)

/-- The search for full postcodes, with the district it captures. -/
abbrev postcodes : Matcher Text := districtRe.group inwardRe

theorem postcodes_proper : postcodes.Proper := group_proper rfl

theorem postcodes_bordered : postcodes.Bordered := group_bordered rfl rfl

theorem match_fullPostcode {prev : Option UInt16} {w rest : Text} :
    Match fullPostcodeRe prev w rest ↔ ∃ g v, w = g ++ v ∧ Match districtRe prev g (v ++ rest) ∧
      Inward v ∧ wordAt rest.head? = false := by
  rw [fullPostcodeRe, match_seq]
  simp only [match_inward]

theorem postcodes_eq_some {prev : Option UInt16} {t w g : Text} :
    postcodes prev t = some (w, g) ↔ ∃ v rest, w = g ++ v ∧ t = g ++ (v ++ rest) ∧
      Match districtRe prev g (v ++ rest) ∧ Inward v ∧ wordAt rest.head? = false := by
  have sound {w g : Text} (h : postcodes prev t = some (w, g)) : ∃ v rest, w = g ++ v ∧
      t = g ++ (v ++ rest) ∧ Match districtRe prev g (v ++ rest) ∧ Inward v ∧
        wordAt rest.head? = false := by
    obtain ⟨v, rest, hw, ht, hg, hv⟩ := group_eq_some h
    exact ⟨v, rest, hw, ht, hg, match_inward.mp hv⟩
  refine ⟨sound, ?_⟩
  rintro ⟨v, rest, rfl, ht, hg, hv, hb⟩
  cases h : postcodes prev t with
  | none =>
    refine absurd (group_eq_none.mp h) (run_ne_nil.mpr ⟨g ++ v, rest, by simp [ht], ?_⟩)
    exact match_fullPostcode.mpr ⟨g, v, rfl, hg, hv, hb⟩
  | some wg =>
    obtain ⟨w', g'⟩ := wg
    obtain ⟨v', rest', rfl, ht', hg', hv', -⟩ := sound h
    obtain ⟨rfl, rfl⟩ := postcode_unique (match_district.mp hg').2 (match_district.mp hg).2 hv' hv
      (ht'.symm.trans ht)
    rfl

theorem postcodes_eq_none {prev : Option UInt16} {t : Text} :
    postcodes prev t = none ↔ fullPostcodeRe.startsWith prev t = false := by
  rw [group_eq_none, startsWith, bne_eq_false_iff_eq]
  rfl

/-- A full postcode opens with a letter after a border, and then a letter or a digit. -/
theorem postcode_opening {prev : Option UInt16} {t : Text}
    (h : fullPostcodeRe.startsWith prev t = true) : wordAt prev = false ∧
      ∃ a c s, t = a :: c :: s ∧ isUpper a = true ∧ isLower c = false := by
  obtain ⟨w, rest, rfl, hm⟩ := startsWith_iff.mp h
  obtain ⟨g, v, rfl, hg, -, -⟩ := match_fullPostcode.mp hm
  obtain ⟨hb, a, u, d, o, rfl, ha, ⟨-, hu⟩, hd, -⟩ := match_district.mp hg
  refine ⟨hb, ?_⟩
  cases u with
  | nil => exact ⟨a, d, _, rfl, ha, isLower_eq_false_of_isDigit hd⟩
  | cons c u => exact ⟨a, c, _, rfl, ha, isLower_eq_false_of_isUpper (hu c (by simp))⟩

/-! Titled names. -/

/-- Every capital is followed by a small letter. -/
def capitalised : Text → Bool
  | [] => true
  | c :: t => (!isUpper c || t.head?.any isLower) && capitalised t

theorem capitalised_append {s t : Text} (hs : capitalised s = true) (ht : capitalised t = true) :
    capitalised (s ++ t) = true := by
  induction s with
  | nil => exact ht
  | cons c s ih =>
    simp only [capitalised, Bool.and_eq_true, Bool.or_eq_true] at hs
    simp only [List.cons_append, capitalised, ih hs.2, Bool.and_true, Bool.or_eq_true]
    refine hs.1.imp id fun h => ?_
    cases s with
    | nil => simp at h
    | cons d s => exact h

theorem capitalised_of_no_upper {t : Text} (h : ∀ c ∈ t, isUpper c = false) :
    capitalised t = true := by
  induction t with
  | nil => rfl
  | cons c t ih => simp [capitalised, h c (by simp), ih fun d hd => h d (by simp [hd])]

theorem capitalised_split {a s : Text} {u : UInt16} (h : capitalised (a ++ u :: s) = true)
    (hu : isUpper u = true) : ∃ l s', s = l :: s' ∧ isLower l = true := by
  induction a with
  | nil =>
    simp only [List.nil_append, capitalised, hu, Bool.not_true, Bool.false_or,
      Bool.and_eq_true] at h
    cases s with
    | nil => simp at h
    | cons l s' => exact ⟨l, s', rfl, by simpa using h.1⟩
  | cons c a ih =>
    simp only [List.cons_append, capitalised, Bool.and_eq_true] at h
    exact ih h.2

def titles : List Text :=
  ["Mr", "Mrs", "Ms", "Miss", "Dr", "Mx"].map fun title => title.toList.map cu

def NameWord (n : Text) : Prop :=
  ∃ u l, n = u :: l ∧ isUpper u = true ∧ l ≠ [] ∧ ∀ c ∈ l, isLower c = true

theorem match_nameWord {prev : Option UInt16} {n rest : Text} (h : Match nameWord prev n rest) :
    NameWord n := by
  simp only [nameWord, match_seq, upper, lower, match_unit, match_plus_unit] at h
  obtain ⟨_, l, rfl, ⟨u, hu, rfl⟩, hne, hl⟩ := h
  exact ⟨u, l, rfl, hu, hne, hl⟩

theorem match_titledName {prev : Option UInt16} {w rest : Text}
    (h : Match titledNameRe prev w rest) : wordAt prev ≠ wordAt (w ++ rest).head? ∧
      ∃ title dot sp n o, w = title ++ (dot ++ (sp ++ (n ++ o))) ∧ title ∈ titles ∧
        (dot = [] ∨ dot = [cu '.']) ∧ (∀ c ∈ sp, isSpace c = true) ∧ NameWord n ∧
        (o = [] ∨ ∃ sp' n', o = sp' ++ n' ∧ (∀ c ∈ sp', isSpace c = true) ∧ NameWord n') := by
  simp only [titledNameRe, chain, oneOf, match_seq, match_boundary, match_alt, match_opt,
    match_word, char, space, match_plus_unit, match_unit] at h
  obtain ⟨_, _, rfl, ⟨rfl, hb⟩, title, _, rfl, htitle, dot, _, rfl, hdot, sp, _, rfl, ⟨-, hsp⟩,
    n, o, rfl, hn, ho⟩ := h
  refine ⟨hb, title, dot, sp, n, o, rfl, ?_, ?_, hsp, match_nameWord hn, ?_⟩
  · simpa [titles] using htitle
  · rcases hdot with ⟨c, hc, rfl⟩ | rfl
    · exact .inr (by rw [eq_of_beq hc])
    · exact .inl rfl
  · rcases ho with ⟨sp', n', rfl, ⟨-, hsp'⟩, hn'⟩ | rfl
    · exact .inr ⟨sp', n', rfl, hsp', match_nameWord hn'⟩
    · exact .inl rfl

theorem NameWord.capitalised {n : Text} (h : NameWord n) : capitalised n = true := by
  obtain ⟨u, l, rfl, -, hne, hl⟩ := h
  cases l with
  | nil => exact absurd rfl hne
  | cons c l =>
    have hrest : StormReview.capitalised (c :: l) = true := capitalised_of_no_upper fun d hd =>
      (Bool.eq_false_iff.mpr fun hu => by simpa [isLower_eq_false_of_isUpper hu] using hl d hd)
    simp only [StormReview.capitalised, List.head?_cons, Option.any_some, hl c (by simp),
      Bool.or_true, Bool.true_and] at hrest ⊢
    exact hrest

theorem NameWord.ends {n : Text} (h : NameWord n) : ∃ a l, n = a ++ [l] ∧ isLower l = true := by
  obtain ⟨u, l, rfl, -, hne, hl⟩ := h
  refine ⟨u :: l.dropLast, l.getLast hne, ?_, hl _ (List.getLast_mem hne)⟩
  rw [List.cons_append, List.dropLast_append_getLast hne]

theorem capitalised_of_spaces {sp : Text} (h : ∀ c ∈ sp, isSpace c = true) :
    capitalised sp = true := capitalised_of_no_upper fun c hc =>
  isUpper_eq_false_of_isWord_eq_false (isWord_eq_false_of_isSpace (h c hc))

theorem name_capitalised {prev : Option UInt16} {w rest : Text}
    (h : Match titledNameRe prev w rest) : capitalised w = true := by
  obtain ⟨-, title, dot, sp, n, o, rfl, htitle, hdot, hsp, hn, ho⟩ := match_titledName h
  have title_capitalised : ∀ title ∈ titles, capitalised title = true := by decide
  refine capitalised_append (title_capitalised title htitle) (capitalised_append ?_
    (capitalised_append (capitalised_of_spaces hsp) (capitalised_append hn.capitalised ?_)))
  · rcases hdot with rfl | rfl <;> decide
  · rcases ho with rfl | ⟨sp', n', rfl, hsp', hn'⟩
    · rfl
    · exact capitalised_append (capitalised_of_spaces hsp') hn'.capitalised

theorem name_ends {prev : Option UInt16} {w rest : Text} (h : Match titledNameRe prev w rest) :
    ∃ a l, w = a ++ [l] ∧ isLower l = true := by
  obtain ⟨-, title, dot, sp, n, o, rfl, -, -, -, hn, ho⟩ := match_titledName h
  have ending (x : Text) {y : Text} : (∃ a l, y = a ++ [l] ∧ isLower l = true) →
      ∃ a l, x ++ y = a ++ [l] ∧ isLower l = true := by
    rintro ⟨a, l, rfl, hl⟩
    exact ⟨x ++ a, l, by simp, hl⟩
  refine ending title (ending dot (ending sp ?_))
  rcases ho with rfl | ⟨sp', n', rfl, -, hn'⟩
  · simpa using hn.ends
  · exact ending n (ending sp' hn'.ends)

theorem wordAt_after_name {prev prev' : Option UInt16} {w rest : Text}
    (h : Match titledNameRe prev w rest) : wordAt (after prev' w) = true := by
  obtain ⟨a, l, rfl, hl⟩ := name_ends h
  simp [isWord_of_isLower hl]

/-- A titled name opens with a capital after a border, and then a small letter. -/
theorem name_opening {prev : Option UInt16} {t : Text}
    (h : titledNameRe.startsWith prev t = true) : wordAt prev = false ∧
      ∃ a l s, t = a :: l :: s ∧ isUpper a = true ∧ isLower l = true := by
  obtain ⟨w, rest, rfl, hm⟩ := startsWith_iff.mp h
  obtain ⟨hb, title, dot, sp, n, o, rfl, htitle, -⟩ := match_titledName hm
  have opens : ∀ title ∈ titles,
      (title.head?.any isUpper && title.tail.head?.any isLower) = true := by
    decide
  have ho := opens title htitle
  cases title with
  | nil => cases ho
  | cons a s =>
    cases s with
    | nil => simp at ho
    | cons l s =>
      simp only [List.head?_cons, Option.any_some, List.tail_cons, Bool.and_eq_true] at ho
      refine ⟨?_, a, l, _, rfl, ho.1, ho.2⟩
      simpa [isWord_of_isUpper ho.1] using hb

/-- The search for titled names. -/
abbrev names : Matcher Unit := titledNameRe.first

theorem names_proper : names.Proper := first_proper rfl

theorem names_bordered : names.Bordered := first_bordered rfl

theorem names_eq_none {prev : Option UInt16} {t : Text} :
    names prev t = none ↔ titledNameRe.startsWith prev t = false := by
  rw [first_eq_none, startsWith, bne_eq_false_iff_eq]

theorem match_of_names {prev : Option UInt16} {t w : Text} {g : Unit}
    (h : names prev t = some (w, g)) : ∃ rest, t = w ++ rest ∧ Match titledNameRe prev w rest :=
  mem_run.mp (first_eq_some h)

theorem titledName_rejects {d : UInt16} (h : isDigit d = true) : titledNameRe.rejects d = true :=
  of_isDigit (by decide) h

theorem fullPostcode_rejects {l : UInt16} (h : isLower l = true) :
    fullPostcodeRe.rejects l = true := of_isLower (by decide) h

end StormReview
