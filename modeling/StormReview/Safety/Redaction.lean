import StormReview.Guards.Truncation
import StormReview.Lib.Loader

/-! What privacyGuard leaves of the full postcodes and titled names it recognises. -/
namespace StormReview
open Js Regex

/-- `\s+\d[A-Z]{2}\b`. -/
def inwardAgainRe : Regex := chain [plus space, digit, upper, upper, .boundary]

/-- A full postcode with a second inward part after it. -/
def chainedPostcodeRe : Regex := .seq fullPostcodeRe inwardAgainRe

/-- The stretches of a text that each follow a titled name, as a search from the left finds
the names. -/
def afterNames (t : Text) : List Text := rests names none t

/-- No full postcode has a second inward part, and no name runs on into a full postcode or
into another titled name. -/
structure Separable (t : Text) : Prop where
  chained : chainedPostcodeRe.test t = false
  postcode : ∀ x ∈ afterNames t, fullPostcodeRe.startsWith none x = false
  name : ∀ x ∈ afterNames t, titledNameRe.startsWith none x = false

/-! Stretches in which no full postcode can start: every capital has a word character before it. -/

def hidden : Option UInt16 → Text → Bool
  | _, [] => true
  | q, c :: m => (wordAt q || !isUpper c) && hidden (some c) m

theorem hidden_append (q : Option UInt16) (a b : Text) :
    hidden q (a ++ b) = (hidden q a && hidden (after q a) b) := by
  induction a generalizing q with
  | nil => rfl
  | cons c a ih => simp [hidden, ih, Bool.and_assoc]

theorem hidden_of_no_upper {m : Text} (h : ∀ c ∈ m, isUpper c = false) (q : Option UInt16) :
    hidden q m = true := by
  induction m generalizing q with
  | nil => rfl
  | cons c m ih => simp [hidden, h c (by simp), ih fun d hd => h d (by simp [hd])]

theorem hidden_of_word {m : Text} (h : ∀ c ∈ m, isWord c = true) {q : Option UInt16}
    (hq : wordAt q = true) : hidden q m = true := by
  induction m generalizing q with
  | nil => rfl
  | cons c m ih =>
    have hm : hidden (some c) m = true :=
      ih (fun d hd => h d (by simp [hd])) (h c (by simp))
    simp [hidden, hq, hm]

theorem Inward.hidden {v : Text} (h : Inward v) (q : Option UInt16) : hidden q v = true := by
  obtain ⟨sp, d, x, y, rfl, hsp, hd, hx, hy⟩ := h
  have hspaces : StormReview.hidden q sp = true := hidden_of_no_upper (fun c hc =>
    isUpper_eq_false_of_isWord_eq_false (isWord_eq_false_of_isSpace (hsp c hc))) q
  simp [hidden_append, hspaces, StormReview.hidden, isUpper_eq_false_of_isDigit hd,
    isWord_of_isDigit hd, isWord_of_isUpper hx]

theorem District.opens {g : Text} (h : District g) : ∃ a m, g = a :: m ∧ isUpper a = true ∧
    hidden (some a) m = true ∧ wordAt (after (some a) m) = true := by
  obtain ⟨a, u, d, o, rfl, ha, ⟨-, hu⟩, hd, ho⟩ := h
  have hword : ∀ c ∈ o, isWord c = true := by
    rcases ho with rfl | ⟨x, rfl, hx⟩
    · simp
    · simpa using hx.elim isWord_of_isUpper isWord_of_isDigit
  have hall : ∀ c ∈ u ++ d :: o, isWord c = true := by
    intro c hc
    simp only [List.mem_append, List.mem_cons] at hc
    rcases hc with hc | rfl | hc
    · exact isWord_of_isUpper (hu c hc)
    · exact isWord_of_isDigit hd
    · exact hword c hc
  refine ⟨a, u ++ d :: o, rfl, ha, hidden_of_word hall (isWord_of_isUpper ha), ?_⟩
  rcases ho with rfl | ⟨x, rfl, hx⟩
  · simpa using isWord_of_isDigit hd
  · simpa [after_append] using hword x (by simp)

/-- Expressions that start as a full postcode does: at a border, with a capital. -/
def OpensUpper (r : Regex) : Prop := ∀ {q : Option UInt16} {s : Text}, r.startsWith q s = true →
  wordAt q = false ∧ ∃ a c s', s = a :: c :: s' ∧ isUpper a = true ∧ isLower c = false

theorem OpensUpper.silent {r : Regex} (hr : OpensUpper r) {q : Option UInt16} {u : Text}
    (hu : hidden q u = true) (t : Text) : Silent r q u t := by
  rintro a b rfl hb
  refine Bool.eq_false_iff.mpr fun h => ?_
  obtain ⟨hq, x, c, s, hs, hx, -⟩ := hr h
  cases b with
  | nil => exact absurd rfl hb
  | cons y b =>
    simp only [List.cons_append, List.cons.injEq] at hs
    simp [hidden_append, hidden, hq, hs.1, hx] at hu

theorem opensUpper_fullPostcode : OpensUpper fullPostcodeRe := postcode_opening

theorem postcodes_idle_of_hidden {q : Option UInt16} {u : Text} (hu : hidden q u = true)
    (t : Text) : Idle postcodes q u t := fun a b hab hb =>
  postcodes_eq_none.mpr (opensUpper_fullPostcode.silent hu t a b hab hb)

/-- What stands in a truncated text and hides no full postcode stood there before. -/
theorem truncate_verbatim {q : Option UInt16} {m rest t : Text} (hm : hidden q m = true)
    (h : truncate q t = m ++ rest) :
    ∃ rest', t = m ++ rest' ∧ truncate (after q m) rest' = rest := by
  induction m generalizing q t with
  | nil => exact ⟨t, rfl, h⟩
  | cons c m ih =>
    simp only [hidden, Bool.and_eq_true, Bool.or_eq_true, Bool.not_eq_true'] at hm
    cases t with
    | nil => simp at h
    | cons d t =>
      have hd : d = c := by
        have := head_truncate q (d :: t)
        rw [h] at this
        simpa using this.symm
      subst hd
      cases hp : postcodes q (d :: t) with
      | none =>
        rw [truncate_plain hp, List.cons_append, List.cons.injEq] at h
        obtain ⟨rest', rfl, hrest⟩ := ih hm.2 h.2
        exact ⟨rest', rfl, hrest⟩
      | some wg =>
        have hs : fullPostcodeRe.startsWith q (d :: t) = true := by
          refine Bool.not_eq_false _ ▸ fun hf => ?_
          rw [postcodes_eq_none.mpr hf] at hp
          cases hp
        obtain ⟨hq, a, c, s, hs, ha, -⟩ := postcode_opening hs
        simp only [List.cons.injEq] at hs
        simp [hq, hs.1, ha] at hm

/-! A truncated text contains a full postcode where the text has one with two inward parts. -/

theorem startsWith_truncate {prev : Option UInt16} {t : Text} (h : postcodes prev t = none)
    (q : Option UInt16) :
    fullPostcodeRe.startsWith q (truncate prev t) = fullPostcodeRe.startsWith q t := by
  rw [Bool.eq_iff_iff, startsWith_iff, startsWith_iff]
  have opens {w rest : Text} (hm : Match fullPostcodeRe q w rest) :
      ∃ a m, w = a :: m ∧ hidden (some a) m = true := by
    obtain ⟨g, v, rfl, hg, hv, -⟩ := match_fullPostcode.mp hm
    obtain ⟨a, m, rfl, -, hm, -⟩ := (match_district.mp hg).2.opens
    exact ⟨a, m ++ v, rfl, by rw [hidden_append, hm, hv.hidden, Bool.and_self]⟩
  constructor
  · rintro ⟨w, rest, ht, hm⟩
    obtain ⟨a, m, rfl, hhid⟩ := opens hm
    cases t with
    | nil => simp at ht
    | cons c t =>
      rw [truncate_plain h, List.cons_append, List.cons.injEq] at ht
      obtain ⟨rfl, ht⟩ := ht
      obtain ⟨rest', rfl, rfl⟩ := truncate_verbatim hhid ht
      exact ⟨c :: m, rest', rfl, hm.context rfl rfl (by rw [head_truncate])⟩
  · rintro ⟨w, rest, rfl, hm⟩
    obtain ⟨a, m, rfl, hhid⟩ := opens hm
    have hidle : Idle postcodes prev (a :: m) rest :=
      Along.cons h (postcodes_idle_of_hidden hhid rest)
    exact ⟨a :: m, truncate (after prev (a :: m)) rest, truncate_idle hidle,
      hm.context rfl rfl (by rw [head_truncate])⟩

theorem match_inwardAgain {q : Option UInt16} {s rest : Text} :
    Match inwardAgainRe q s rest ↔
      Inward s ∧ wordAt s.head? = false ∧ wordAt rest.head? = false := by
  simp only [inwardAgainRe, chain, match_seq, match_boundary, upper, match_unit, digit, space,
    match_plus_unit]
  constructor
  · rintro ⟨sp, _, rfl, ⟨hne, hsp⟩, _, _, rfl, ⟨d, hd, rfl⟩, _, _, rfl, ⟨x, hx, rfl⟩, _, _, rfl,
      ⟨y, hy, rfl⟩, rfl, hb⟩
    refine ⟨⟨sp, d, x, y, rfl, hsp, hd, hx, hy⟩, ?_, ?_⟩
    · cases sp with
      | nil => exact absurd rfl hne
      | cons c sp => exact isWord_eq_false_of_isSpace (hsp c (by simp))
    · simpa [isWord_of_isUpper hy] using hb
  · rintro ⟨⟨sp, d, x, y, rfl, hsp, hd, hx, hy⟩, hs, hb⟩
    refine ⟨sp, [d, x, y], rfl, ⟨?_, hsp⟩, [d], [x, y], rfl, ⟨d, hd, rfl⟩, [x], [y], rfl,
      ⟨x, hx, rfl⟩, [y], [], rfl, ⟨y, hy, rfl⟩, rfl, by simp [isWord_of_isUpper hy, hb]⟩
    rintro rfl
    simp [isWord_of_isDigit hd] at hs

theorem opensUpper_chained : OpensUpper chainedPostcodeRe := by
  intro q s h
  obtain ⟨w, rest, rfl, hm⟩ := startsWith_iff.mp h
  obtain ⟨p, v, rfl, hp, -⟩ := match_seq.mp hm
  exact postcode_opening (startsWith_iff.mpr ⟨p, v ++ rest, by simp, hp⟩)

/-- After a district that is all its postcode left, what follows is read as it was. -/
theorem district_inward {g g' v s rest : Text} (hg : District g) (hg' : District g')
    (hv : Inward v) (hs : wordAt s.head? = false) (h : g ++ s = g' ++ (v ++ rest)) :
    g = g' ∧ s = v ++ rest := by
  rcases hg.unique_or_shift hg' h with h | ⟨x, hx, rfl | hvx⟩
  · exact h
  · simp [hx.elim isWord_of_isUpper isWord_of_isDigit] at hs
  · obtain ⟨sp, d, y, z, rfl, hsp, -, hy, -⟩ := hv
    cases sp with
    | nil =>
      simp only [List.nil_append, List.cons_append, List.cons.injEq] at hvx
      rw [← hvx.2] at hs
      simp [isWord_of_isUpper hy] at hs
    | cons c sp =>
      simp only [List.cons_append, List.cons.injEq] at hvx
      have hc := isWord_eq_false_of_isSpace (hsp c (by simp))
      rw [hvx.1, hx.elim isWord_of_isUpper isWord_of_isDigit] at hc
      cases hc

/-- Where a postcode was cut to its district, one is left exactly if an inward part follows. -/
theorem startsWith_after_hit {prev : Option UInt16} {w t g : Text}
    (h : postcodes prev (w ++ t) = some (w, g)) :
    fullPostcodeRe.startsWith prev (g ++ truncate (after prev w) t) =
      chainedPostcodeRe.startsWith prev (w ++ t) := by
  obtain ⟨hbw, -, hbt⟩ := postcode_borders h prev
  obtain ⟨v, t', rfl, ht, hg, hv, hb⟩ := postcodes_eq_some.mp h
  obtain rfl : t = t' := by simpa using ht
  have hword := match_district.mp hg
  rw [Bool.eq_iff_iff, startsWith_iff, startsWith_iff]
  constructor
  · rintro ⟨p, rest, hp, hm⟩
    obtain ⟨g', v', rfl, hg', hv', hb'⟩ := match_fullPostcode.mp hm
    have hs : wordAt (truncate (after prev (g ++ v)) t).head? = false := by
      rw [head_truncate, hbt]
    obtain ⟨rfl, hv''⟩ := district_inward hword.2 (match_district.mp hg').2 hv' hs
      (by simpa using hp)
    obtain ⟨rest', rfl, rfl⟩ := truncate_verbatim (hv'.hidden _) hv''
    refine ⟨(g ++ v) ++ v', rest', by simp, match_seq.mpr ⟨g ++ v, v', rfl, ?_, ?_⟩⟩
    · exact match_fullPostcode.mpr ⟨g, v, rfl, match_district.mpr hword, hv, hbt⟩
    · refine match_inwardAgain.mpr ⟨hv', ?_, by rwa [head_truncate] at hb'⟩
      obtain ⟨sp, d, x, y, rfl, -, -, -, -⟩ := hv'
      cases sp <;> simpa using hbt
  · rintro ⟨p, rest, hp, hm⟩
    obtain ⟨p, s, rfl, hfull, hagain⟩ := match_seq.mp hm
    obtain ⟨g', v', rfl, hg', hv', -⟩ := match_fullPostcode.mp hfull
    have hsame : g ++ (v ++ t) = g' ++ (v' ++ (s ++ rest)) := by simpa using hp
    obtain ⟨rfl, rfl⟩ := postcode_unique hword.2 (match_district.mp hg').2 hv hv' hsame
    obtain rfl : t = s ++ rest := by simpa using hp
    obtain ⟨hs, -, hb'⟩ := match_inwardAgain.mp hagain
    rw [truncate_idle (postcodes_idle_of_hidden (hs.hidden _) rest)]
    refine ⟨g ++ s, truncate (after (after prev (g ++ v)) s) rest, by simp, ?_⟩
    exact match_fullPostcode.mpr ⟨g, s, rfl, match_district.mpr hword, hs, by rwa [head_truncate]⟩

theorem testFrom_truncate (prev : Option UInt16) (t : Text) :
    testFrom fullPostcodeRe prev (truncate prev t) = testFrom chainedPostcodeRe prev t := by
  refine postcodes_proper.induction (motive := fun prev t =>
    testFrom fullPostcodeRe prev (truncate prev t) = testFrom chainedPostcodeRe prev t)
    ?_ ?_ ?_ prev t
  · intro prev
    rw [truncate_nil, testFrom_nil rfl, testFrom_nil rfl]
  · intro prev c t h ih
    have hfull : fullPostcodeRe.startsWith prev (c :: t) = false := postcodes_eq_none.mp h
    have hfull' := startsWith_truncate h prev
    have hchain : chainedPostcodeRe.startsWith prev (c :: t) = false := by
      refine Bool.eq_false_iff.mpr fun hc => ?_
      obtain ⟨w, rest, ht, hm⟩ := startsWith_iff.mp hc
      obtain ⟨p, v, rfl, hp, -⟩ := match_seq.mp hm
      rw [startsWith_iff.mpr ⟨p, v ++ rest, by rw [ht]; simp, hp⟩] at hfull
      cases hfull
    rw [truncate_plain h, hfull] at hfull'
    rw [startsWith] at hfull' hchain
    rw [truncate_plain h, testFrom, testFrom, hfull', hchain, ih]
  · intro prev w t g hw h ih
    -- only the first position of the postcode, or of the district left of it, can start a match
    obtain ⟨hbw, hbg, -⟩ := postcode_borders h prev
    have hstart := startsWith_after_hit h
    obtain ⟨v, t', rfl, ht, hg, hv, -⟩ := postcodes_eq_some.mp h
    obtain ⟨a, m, rfl, -, hhid, -⟩ := (match_district.mp hg).2.opens
    have hhid' : hidden (some a) (m ++ v) = true := by
      rw [hidden_append, hhid, hv.hidden, Bool.and_self]
    rw [truncate_hit hw h]
    simp only [startsWith, List.cons_append, List.append_assoc] at hstart ⊢
    rw [testFrom, testFrom, hstart, testFrom_silent (opensUpper_fullPostcode.silent hhid _),
      ← List.append_assoc m v t, testFrom_silent (opensUpper_chained.silent hhid' _)]
    have hctx : wordAt (after (some a) m) = wordAt (after prev (a :: (m ++ v))) := by
      rw [← List.cons_append, hbw]
      exact hbg
    rw [List.cons_append] at ih
    rw [testFrom_context rfl hctx, ih]
    rfl

/-! The redacted text is read stretch by stretch. -/

theorem endsInward_chained : EndsInward chainedPostcodeRe where
  looks := rfl
  rejects h := of_isLower (by decide) h
  ends h := by
    obtain ⟨p, s, rfl, -, hs⟩ := match_seq.mp h
    obtain ⟨⟨sp, d, x, y, rfl, -, -, -, hy⟩, -, hb⟩ := match_inwardAgain.mp hs
    exact ⟨⟨p ++ (sp ++ [d, x]), y, by simp, hy⟩, hb⟩

theorem test_chained (t : Text) : chainedPostcodeRe.test t =
    (chainedPostcodeRe.test (lead names none t) ||
      (afterNames t).any (testFrom chainedPostcodeRe (some (cu 'r')))) := by
  refine testFrom_pieces names_proper rfl rfl endsInward_chained.startsWith_lead
    (fun prev w t g h => ?_) none t
  obtain ⟨rest, hrest, hm⟩ := match_of_names h
  obtain rfl : t = rest := by simpa using hrest
  exact ⟨silent_of_capitalised (fun _ _ hs => (opensUpper_chained hs).2) (name_capitalised hm),
    wordAt_after_name hm⟩

theorem lead_free (prev : Option UInt16) (t : Text) :
    testFrom titledNameRe prev (lead names prev t) = false := by
  obtain ⟨s, -, hidle, hs⟩ := names_seam prev t
  refine Bool.eq_false_iff.mpr fun h => ?_
  obtain ⟨a, w, rest, hlead, hm⟩ := testFrom_iff.mp h
  have hne : w ≠ [] := hm.ne_nil rfl
  have hborder : s = [] ∨ wordAt (after (after prev a) (w ++ rest)) = false := by
    refine hs.imp id fun h => ?_
    rw [← after_append, ← hlead]
    exact h.1
  have hstart := names_eq_none.mp (hidle a (w ++ rest) hlead (by simp [hne]))
  rw [startsWith_iff.mpr ⟨w, rest ++ s, by simp,
    hm.extend rfl (wordAt_after_name hm) hborder⟩] at hstart
  cases hstart

theorem rests_free (prev : Option UInt16) (t : Text) :
    ∀ x ∈ rests names prev t, testFrom titledNameRe (some (cu 'r')) x = false := by
  refine names_proper.induction (motive := fun prev t =>
    ∀ x ∈ rests names prev t, testFrom titledNameRe (some (cu 'r')) x = false) ?_ ?_ ?_ prev t
  · simp
  · intro prev c t h ih
    rwa [rests_plain h]
  · intro prev w t g hw h ih
    obtain ⟨rest, -, hm⟩ := match_of_names h
    have hb : wordAt (some (cu 'r')) = wordAt (after prev w) := (wordAt_after_name hm).symm
    rw [rests_hit hw h]
    intro x hx
    rcases List.mem_cons.mp hx with rfl | hx
    · rw [testFrom_context rfl hb]
      exact lead_free (after prev w) t
    · exact ih x hx

theorem redactNames_eq (t : Text) : redactNames t =
    join (cu '[' :: (lit "customer" ++ [cu ']'])) (lead names none t :: rests names none t) :=
  render_const ..

theorem test_redactNames {r : Regex} (hr : r.looksBehind = false) (hn : r.nullable = false)
    (ho : r.rejects (cu '[') = true) (hc : r.rejects (cu ']') = true)
    (hi : testFrom r (some (cu '[')) (lit "customer") = false) (t : Text) :
    r.test (redactNames t) = (r.test (lead names none t) || (afterNames t).any r.test) := by
  rw [redactNames_eq]
  exact testFrom_join hr hn ho hc rfl rfl hi none _ _

theorem pseudonymise_clean (t : Text) :
    (pseudonymise t).clean = redactNames (truncate none t) := by
  by_cases h : t = []
  · subst h
    rfl
  · rw [pseudonymise, if_neg h, truncatePostcodes_eq]

/-- In what a name leaves behind, only the start is new to a search that takes capitals at a
border. -/
theorem test_after_name {r : Regex} (hn : r.nullable = false)
    (hopen : ∀ {q s}, r.startsWith q s = true → wordAt q = false) (x : Text) :
    r.test x = (r.startsWith none x || testFrom r (some (cu 'r')) x) := by
  refine testFrom_eq_start_or hn none (Bool.eq_false_iff.mpr fun h => ?_)
  cases hopen h

theorem any_or {α : Type} (p q : α → Bool) (l : List α) :
    l.any (fun x => p x || q x) = (l.any p || l.any q) := by
  induction l with
  | nil => rfl
  | cons x l ih => simp only [List.any_cons, ih, Bool.or_assoc, Bool.or_left_comm]

theorem fullPostcode_clean (t : Text) : fullPostcodeRe.test (pseudonymise t).clean =
    (chainedPostcodeRe.test t || (afterNames t).any (fullPostcodeRe.startsWith none)) := by
  have piece (x : Text) : fullPostcodeRe.test (truncate (some (cu 'r')) x) =
      (fullPostcodeRe.startsWith none x || testFrom chainedPostcodeRe (some (cu 'r')) x) := by
    have hnone : postcodes (some (cu 'r')) x = none := by
      refine postcodes_eq_none.mpr (Bool.eq_false_iff.mpr fun h => ?_)
      cases (postcode_opening h).1
    rw [test_after_name rfl (fun h => (postcode_opening h).1), startsWith_truncate hnone,
      testFrom_truncate]
  obtain ⟨hlead, hrests⟩ := names_pieces_truncate none t
  rw [pseudonymise_clean, test_redactNames rfl rfl rfl rfl (by decide), hlead, test_chained,
    afterNames, hrests, List.any_map, test, testFrom_truncate]
  simp only [Function.comp_def, piece, any_or]
  rw [afterNames, Bool.or_assoc, Bool.or_comm (List.any _ _)]
  rfl

theorem titledName_clean (t : Text) : titledNameRe.test (pseudonymise t).clean =
    (afterNames t).any (titledNameRe.startsWith none) := by
  obtain ⟨-, hrests⟩ := names_pieces_truncate none t
  have hlead : titledNameRe.test (lead names none (truncate none t)) = false := lead_free none _
  have pieces : (afterNames (truncate none t)).any titledNameRe.test =
      (afterNames (truncate none t)).any (titledNameRe.startsWith none) := by
    rw [Bool.eq_iff_iff, List.any_eq_true, List.any_eq_true]
    refine exists_congr fun x => and_congr_right fun hx => ?_
    rw [test_after_name rfl (fun h => (name_opening h).1), rests_free none _ x hx, Bool.or_false]
  rw [pseudonymise_clean, test_redactNames rfl rfl rfl rfl (by decide), hlead, Bool.false_or,
    pieces, afterNames, hrests, List.any_map]
  simp only [Function.comp_def, startsWith, run_truncate (fun _ => titledName_rejects)]
  rfl

theorem clean_iff (t : Text) :
    fullPostcodeRe.test (pseudonymise t).clean = false ∧
      titledNameRe.test (pseudonymise t).clean = false ↔ Separable t := by
  rw [fullPostcode_clean, titledName_clean, Bool.or_eq_false_iff]
  simp only [List.any_eq_false, Bool.not_eq_true]
  exact ⟨fun ⟨⟨hc, hp⟩, hn⟩ => ⟨hc, hp, hn⟩, fun h => ⟨⟨h.chained, h.postcode⟩, h.name⟩⟩

theorem redactions_eq_zero (t : Text) : (pseudonymise t).redactions = 0 ↔
    fullPostcodeRe.test t = false ∧ titledNameRe.test t = false := by
  have hpost : hits (tokens postcodes none t) = 0 ↔ fullPostcodeRe.test t = false := by
    rw [hits_eq_zero postcodes_proper, test, test_eq_false_iff]
    simp only [group_eq_none]
    rfl
  have hname (s : Text) : hits (tokens names none s) = 0 ↔ titledNameRe.test s = false := by
    rw [hits_eq_zero names_proper, test, test_eq_false_iff]
    simp only [first_eq_none]
  by_cases h : t = []
  · subst h
    decide
  rw [pseudonymise, if_neg h]
  simp only [Nat.add_eq_zero_iff, truncatePostcodes_eq, hname]
  rw [hpost]
  refine and_congr_right fun hp => ?_
  have hid : truncate none t = t := by
    refine render_tokens_of_none fun a b hab => postcodes_eq_none.mpr ?_
    rw [startsWith, bne_eq_false_iff_eq]
    exact test_eq_false_iff.mp hp a b hab
  rw [hid]

/-- Redaction leaves no full postcode and no titled name exactly in the separable texts, and so
no report leaves the loader with one exactly when its sanitized narrative is separable. -/
theorem redaction_complete_iff (t : Text) (files : Files) (claimId : Text) :
    (fullPostcodeRe.test (pseudonymise t).clean = false ∧
      titledNameRe.test (pseudonymise t).clean = false ↔ Separable t) ∧
    ((pseudonymise (pseudonymise t).clean).redactions = 0 ↔ Separable t) ∧
    ((∀ r, loadReport files claimId = some r →
        fullPostcodeRe.test r.narrative = false ∧ titledNameRe.test r.narrative = false) ↔
      ∀ file, files.report (files.recordPath "reports" claimId) = some file →
        Separable (sanitizeNarrative file.narrative).clean) := by
  refine ⟨clean_iff t, by rw [redactions_eq_zero, clean_iff], ?_⟩
  cases hfile : files.report (files.recordPath "reports" claimId) with
  | none => simp [loadReport, hfile]
  | some file =>
    simp only [loadReport, hfile, Option.map_some, Option.some.injEq, forall_eq']
    exact clean_iff _

theorem second_inward_part_survives :
    fullPostcodeRe.test (pseudonymise (lit "AB1 2CD 3EF")).clean = true ∧
      (pseudonymise (pseudonymise (lit "AB1 2CD 3EF")).clean).redactions = 1 ∧
      titledNameRe.test (pseudonymise (lit "Mr JohnMr Smith")).clean = true := by
  decide

end StormReview
