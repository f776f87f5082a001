import StormReview.Safety.Instructions

/-! injectionGuard works sentence by sentence: what it does to one text does not depend on the
text before or after it. -/
namespace StormReview
open Js Regex

/-! Where a text is cut. -/

theorem sentenceBreak_of_not_terminator {prev : Option UInt16}
    (h : prev.any isTerminator = false) (t : Text) : sentenceBreak.first prev t = none := by
  have hrun : sentenceBreak.run prev t = [] := by
    have hseq : sentenceBreak.run prev t = (run (.behind isTerminator) prev t).flatMap fun u =>
        ((plus space).run (after prev u) (t.drop u.length)).map (u ++ ·) := rfl
    simp [hseq, run, h]
  rw [first, hrun]
  rfl

theorem sentenceBreak_plain_iff {prev : Option UInt16} {c : UInt16} {t : Text} :
    sentenceBreak.first prev (c :: t) = none ↔
      prev.any isTerminator = false ∨ isSpace c = false := by
  cases hp : prev.any isTerminator with
  | false => simp [sentenceBreak_of_not_terminator hp]
  | true =>
    rw [sentenceBreak_of_terminator hp, space, first_plus_unit]
    cases hc : isSpace c <;> simp [hc]

theorem sentenceBreak_run {prev : Option UInt16} {u t : Text} (hp : prev.any isTerminator = true)
    (hu : u ≠ []) (hspaces : ∀ c ∈ u, isSpace c = true) (ht : ∀ c ∈ t.head?, isSpace c = false) :
    sentenceBreak.first prev (u ++ t) = some (u, ()) := by
  rw [sentenceBreak_of_terminator hp]
  exact first_plus_unit_run prev hu hspaces ht

/-- The text after white space is split as it is on its own. -/
theorem tokens_sentenceBreak {prev prev' : Option UInt16} {b : Text}
    (h : prev.any isTerminator = false) (h' : prev'.any isTerminator = false) :
    tokens sentenceBreak.first prev b = tokens sentenceBreak.first prev' b := by
  cases b with
  | nil => rfl
  | cons c b =>
    rw [tokens_plain (sentenceBreak_of_not_terminator h _),
      tokens_plain (sentenceBreak_of_not_terminator h' _)]

/-- The sentences of a text that a sentence end closes are those before the white space. -/
theorem pieces_sentenceBreak {w b : Text} (hw : w ≠ []) (hspaces : ∀ c ∈ w, isSpace c = true)
    (hb : ∀ c ∈ b.head?, isSpace c = false) (prev : Option UInt16) (a : Text)
    (ha : (after prev a).any isTerminator = true) :
    lead sentenceBreak.first prev (a ++ (w ++ b)) = lead sentenceBreak.first prev a ∧
      rests sentenceBreak.first prev (a ++ (w ++ b)) =
        rests sentenceBreak.first prev a ++ splitSentences b := by
  refine (first_proper (r := sentenceBreak) rfl).induction (motive := fun prev a =>
    (after prev a).any isTerminator = true →
      lead sentenceBreak.first prev (a ++ (w ++ b)) = lead sentenceBreak.first prev a ∧
        rests sentenceBreak.first prev (a ++ (w ++ b)) =
          rests sentenceBreak.first prev a ++ splitSentences b) ?_ ?_ ?_ prev a ha
  · intro prev hp
    rw [after_nil] at hp
    have hhit := sentenceBreak_run hp hw hspaces hb
    have htokens : tokens sentenceBreak.first (after prev w) b = tokens sentenceBreak.first none b :=
      tokens_sentenceBreak (after_spaces_not_terminator hw hspaces prev) rfl
    have hlead : lead sentenceBreak.first (after prev w) b = lead sentenceBreak.first none b := by
      rw [lead, htokens, lead]
    have hrests : rests sentenceBreak.first (after prev w) b =
        rests sentenceBreak.first none b := by rw [rests, htokens, rests]
    rw [List.nil_append, lead_hit hw hhit, rests_hit hw hhit, hlead, hrests]
    exact ⟨rfl, rfl⟩
  · intro prev c a hplain ih hp
    have hplain' : sentenceBreak.first prev (c :: (a ++ (w ++ b))) = none :=
      sentenceBreak_plain_iff.mpr (sentenceBreak_plain_iff.mp hplain)
    obtain ⟨hlead, hrests⟩ := ih hp
    rw [List.cons_append, lead_plain hplain', rests_plain hplain', lead_plain hplain,
      rests_plain hplain, hlead, hrests]
    exact ⟨rfl, rfl⟩
  · intro prev u a g hu hhit ih hp
    obtain ⟨hterm, -, hus, ha⟩ := sentenceBreak_hit hhit
    rw [after_append] at hp
    -- the white space cannot run on into `w`: the text ends with a sentence end
    have hne : a ≠ [] := by
      rintro rfl
      rw [after_nil, after_spaces_not_terminator hu hus] at hp
      cases hp
    have hnext : ∀ c ∈ (a ++ (w ++ b)).head?, isSpace c = false := by
      rwa [List.head?_append_of_ne_nil _ hne]
    have hhit' := sentenceBreak_run hterm hu hus hnext
    obtain ⟨hlead, hrests⟩ := ih hp
    rw [List.append_assoc, lead_hit hu hhit', rests_hit hu hhit', lead_hit hu hhit,
      rests_hit hu hhit, hlead, hrests]
    exact ⟨rfl, rfl⟩

theorem splitSentences_append {a w b : Text} (ha : (after none a).any isTerminator = true)
    (hw : w ≠ []) (hspaces : ∀ c ∈ w, isSpace c = true) (hb : ∀ c ∈ b.head?, isSpace c = false) :
    splitSentences (a ++ (w ++ b)) = splitSentences a ++ splitSentences b := by
  obtain ⟨hlead, hrests⟩ := pieces_sentenceBreak hw hspaces hb none a ha
  rw [splitSentences, split, pieces_eq, hlead, hrests]
  rfl

/-! The clean text, without its marker and with it. -/

theorem squeeze_eq (t : Text) : squeeze t = join (lit " ") (words t) := trim_collapse t

theorem squeeze_join_append (us vs : List Text) :
    squeeze (join (lit " ") (us ++ vs)) =
      glue (squeeze (join (lit " ") us)) (squeeze (join (lit " ") vs)) := by
  by_cases hus : us = []
  · subst hus
    rfl
  by_cases hvs : vs = []
  · subst hvs
    rw [List.append_nil, show squeeze (join (lit " ") []) = [] from rfl, glue]
    split
    · assumption
    · rfl
  have hspace : words (join (lit " ") us ++ lit " " ++ join (lit " ") vs) =
      words (join (lit " ") us) ++ words (join (lit " ") vs) := by
    rw [List.append_assoc]
    exact words_append_space (c := cu ' ') rfl _ _
  rw [join_append hus hvs, squeeze_eq, hspace, join_words_append (fun w hw => words_ne_nil hw)
    fun w hw => words_ne_nil hw, squeeze_eq, squeeze_eq]

/-- `base` with the marker for `n` fragments, if there are any. -/
def marked (base : Text) (n : Nat) : Text :=
  if n > 0 then trim (base ++ removalMarker n) else base

theorem hitCount_eq (t : Text) : hitCount t = (sanitizeNarrative t).removed.length := by
  rw [sanitizeNarrative_removed, List.length_filterMap_eq_countP, hitCount]
  simp only [removalOf, Option.isSome_map]

/-- The clean text is the unflagged sentences, marked with how many were removed. -/
theorem clean_eq_marked (t : Text) : (sanitizeNarrative t).clean =
    marked (unflagged t) (sanitizeNarrative t).removed.length := by
  rw [sanitizeNarrative_clean, hitCount_eq]
  rfl

/-- The marker shows. -/
theorem marked_eq_iff (t : Text) (n : Nat) : marked (unflagged t) n = unflagged t ↔ n = 0 := by
  constructor
  · intro h
    by_contra hn
    rw [marked, if_pos (Nat.pos_of_ne_zero hn), trim_marker] at h
    have hlen := congrArg List.length h
    rw [glue, if_neg (List.cons_ne_nil _ _)] at hlen
    split at hlen
    · simp_all
    · simp only [List.length_append, List.length_cons] at hlen
      omega
  · rintro rfl
    rfl

/-- A text after a sentence end and white space: what is removed from the two parts is removed
from the whole, what is kept of them is kept with one space between, and the marker counts what
was removed from both. -/
theorem removal_is_sentence_local (a w b : Text)
    (ha : ∃ c, a.getLast? = some c ∧ isTerminator c = true) (hw : w ≠ [])
    (hspaces : ∀ c ∈ w, isSpace c = true) (hb : ∃ c, b.head? = some c ∧ isSpace c = false) :
    let whole := sanitizeNarrative (a ++ w ++ b)
    let left := sanitizeNarrative a
    let right := sanitizeNarrative b
    whole.removed = left.removed ++ right.removed ∧
      unflagged (a ++ w ++ b) = glue (unflagged a) (unflagged b) ∧
      whole.clean = marked (unflagged (a ++ w ++ b)) (left.removed.length + right.removed.length) ∧
      left.clean = marked (unflagged a) left.removed.length ∧
      right.clean = marked (unflagged b) right.removed.length ∧
      (whole.clean = unflagged (a ++ w ++ b) ↔ left.removed ++ right.removed = []) := by
  intro whole left right
  obtain ⟨c, hc, hterm⟩ := ha
  obtain ⟨d, hd, hword⟩ := hb
  have hend : (after none a).any isTerminator = true := by
    obtain ⟨a, rfl⟩ := List.getLast?_eq_some_iff.mp hc
    simpa using hterm
  have hhead : ∀ c ∈ b.head?, isSpace c = false := by
    intro e he
    obtain rfl := Option.some.inj (hd.symm.trans he)
    exact hword
  have hsplit := splitSentences_append hend hw hspaces hhead
  rw [← List.append_assoc] at hsplit
  have hremoved : whole.removed = left.removed ++ right.removed := by
    simp only [whole, left, right, sanitizeNarrative_removed, hsplit, List.filterMap_append]
  have hkept : unflagged (a ++ w ++ b) = glue (unflagged a) (unflagged b) := by
    rw [unflagged, hsplit, List.filter_append, squeeze_join_append]
    rfl
  have hclean : whole.clean =
      marked (unflagged (a ++ w ++ b)) (left.removed.length + right.removed.length) := by
    rw [← List.length_append, ← hremoved]
    exact clean_eq_marked _
  refine ⟨hremoved, hkept, hclean, clean_eq_marked a, clean_eq_marked b, ?_⟩
  rw [hclean, marked_eq_iff, ← List.length_append, List.length_eq_zero_iff]

theorem removal_is_sentence_local_sample :
    (sanitizeNarrative (lit "You must pay." ++ lit "\n " ++ lit "The ridge lifted.")).removed =
      (sanitizeNarrative (lit "You must pay.")).removed ++
        (sanitizeNarrative (lit "The ridge lifted.")).removed :=
  (removal_is_sentence_local (lit "You must pay.") (lit "\n ") (lit "The ridge lifted.")
    ⟨cu '.', rfl, rfl⟩ (by decide) (fun _ => List.all_eq_true.mp (by decide) _)
    ⟨cu 'T', rfl, rfl⟩).1

end StormReview
