import StormReview.Js.Words
import StormReview.Safety.Redaction
import StormReview.Guards.Stretches
import StormReview.Workflow.Pipeline

/-! What injectionGuard and privacyGuard together leave of the patterns injectionGuard knows. -/
namespace StormReview
open Js Regex

/-- The sentences of a narrative in which no pattern is found, in a row and with every stretch of
white space made one space. -/
def unflagged (narrative : Text) : Text :=
  squeeze (join (lit " ") ((splitSentences narrative).filter fun s => (injectionHit s).isNone))

/-- No stretch of the kept sentences that lies between two titled names matches a pattern, also
where a blank of the pattern stands as other white space. -/
def FreeOfInstructions (narrative : Text) : Prop :=
  ∀ p ∈ injectionPatterns, ∀ x ∈ stretches (keptSentences narrative), (loosen p.re).test x = false

/-! Truncation is nothing to the patterns: they take no digit and start with three letters. -/

section truncation
variable {r : Regex} {q : Option UInt16}

theorem InstructionRe.not_start (hr : InstructionRe r) {t : Text} (k : Nat) (hk : k < 3)
    (h : ∀ c ∈ (t.drop k).head?, isLetter c = false) : r.startsWith q t = false := by
  refine Bool.eq_false_iff.mpr fun hs => ?_
  have hl := hr.starts hs
  rw [lettered_eq_false hk h] at hl
  cases hl

theorem InstructionRe.silent_of_not_letter (hr : InstructionRe r) {u : Text}
    (hu : ∀ c ∈ u, isLetter c = false) (t : Text) : Silent r q u t := by
  induction u generalizing q with
  | nil => exact Along.nil
  | cons c u ih =>
    exact Along.cons (hr.not_start 0 (by decide) (by simpa using hu c (by simp)))
      (ih fun d hd => hu d (by simp [hd]))

theorem InstructionRe.silent_district (hr : InstructionRe r) {g t : Text} (hg : District g)
    (ht : ∀ c ∈ t.head?, isLetter c = false) : Silent r q g t := by
  obtain ⟨a, u, d, o, rfl, -, ⟨hlen, -⟩, hd, ho⟩ := hg
  have hd' := isLetter_eq_false_of_isDigit hd
  have hend (q : Option UInt16) : Silent r q (d :: o) t := by
    refine Along.cons (hr.not_start 0 (by decide) (by simpa using hd')) ?_
    rcases ho with rfl | ⟨x, rfl, -⟩
    · exact Along.nil
    · exact Along.cons (hr.not_start 1 (by decide) (by simpa using ht)) Along.nil
  rcases u with _ | ⟨b, _ | ⟨_, _⟩⟩
  · exact Along.cons (hr.not_start 1 (by decide) (by simpa using hd')) (hend _)
  · exact Along.cons (hr.not_start 2 (by decide) (by simpa using hd'))
      (Along.cons (hr.not_start 1 (by decide) (by simpa using hd')) (hend _))
  · simp at hlen

theorem InstructionRe.silent_inward (hr : InstructionRe r) {v t : Text} (hv : Inward v)
    (ht : ∀ c ∈ t.head?, isLetter c = false) : Silent r q v t := by
  obtain ⟨sp, d, x, y, rfl, hsp, hd, -, -⟩ := hv
  refine Along.append (hr.silent_of_not_letter (fun c hc =>
    isLetter_eq_false_of_isWord_eq_false (isWord_eq_false_of_isSpace (hsp c hc))) _) ?_
  refine Along.cons (hr.not_start 0 (by decide) (by simpa using isLetter_eq_false_of_isDigit hd)) ?_
  exact Along.cons (hr.not_start 2 (by decide) (by simpa using ht))
    (Along.cons (hr.not_start 1 (by decide) (by simpa using ht)) Along.nil)

theorem head_not_letter {t : Text} (h : wordAt t.head? = false) :
    ∀ c ∈ t.head?, isLetter c = false := by
  intro c hc
  rw [Option.mem_def.mp hc] at h
  exact isLetter_eq_false_of_isWord_eq_false h

theorem InstructionRe.testFrom_truncate (hr : InstructionRe r) (q prev : Option UInt16) (t : Text) :
    testFrom r q (truncate prev t) = testFrom r q t := by
  refine postcodes_proper.induction (motive := fun prev t =>
    ∀ q, testFrom r q (truncate prev t) = testFrom r q t) ?_ ?_ ?_ prev t q
  · exact fun _ _ => rfl
  · intro prev c t h ih q
    have hrun := run_truncate (fun _ => hr.digit) q prev (c :: t)
    rw [truncate_plain h] at hrun ⊢
    rw [testFrom, testFrom, hrun, ih]
  · intro prev w t g hw h ih q
    obtain ⟨hbw, hbg, hbt⟩ := postcode_borders h q
    obtain ⟨v, rest, rfl, ht, hg, hv, -⟩ := postcodes_eq_some.mp h
    have hd := (match_district.mp hg).2
    have ht' := head_not_letter hbt
    have hv' : ∀ c ∈ (v ++ t).head?, isLetter c = false := by
      obtain ⟨sp, d, x, y, rfl, hsp, hdig, -, -⟩ := hv
      cases sp with
      | nil => simpa using isLetter_eq_false_of_isDigit hdig
      | cons c sp =>
        simpa using isLetter_eq_false_of_isWord_eq_false
          (isWord_eq_false_of_isSpace (hsp c (by simp)))
    rw [truncate_hit hw h, testFrom_silent (hr.silent_district hd (by rwa [head_truncate])),
      testFrom_silent (Along.append (hr.silent_district hd hv') (hr.silent_inward hv ht')), ih,
      testFrom_context hr.looks (hbg.trans hbw.symm)]

end truncation

theorem outsideNames_truncate {r : Regex} (hr : InstructionRe r) (t : Text) :
    r.test (pseudonymise t).clean = outsideNames r t := by
  obtain ⟨hlead, hrests⟩ := names_pieces_truncate none t
  rw [pseudonymise_clean, test_redactNames hr.looks hr.nonempty hr.opening hr.closing hr.customer,
    afterNames, hlead, hrests, List.any_map, outsideNames, pieces_eq, List.any_cons]
  simp only [Function.comp_def, test, hr.testFrom_truncate]
  rfl

/-! The marker adds nothing for the patterns to find. -/

theorem removalMarker_eq (n : Nat) :
    removalMarker n = cu ' ' :: cu '[' :: (natText n ++ markerText) := by
  simp only [removalMarker, List.append_assoc]
  rfl

theorem testFrom_marker {r : Regex} (hl : r.looksBehind = false) (hn : r.nullable = false)
    (ho : r.rejects (cu '[') = true) (hd : ∀ {d}, isDigit d = true → r.rejects d = true)
    (hm : testFrom r (some (cu '0')) markerText = false) (n : Nat) (q : Option UInt16) :
    testFrom r q (cu '[' :: (natText n ++ markerText)) = false := by
  have digits (u : Text) (hu : ∀ d ∈ u, isDigit d = true) (q : Option UInt16) :
      testFrom r q (u ++ markerText) = testFrom r (after q u) markerText := by
    induction u generalizing q with
    | nil => rfl
    | cons d u ih =>
      rw [List.cons_append, testFrom_cons_of_rejects hn (hd (hu d (by simp))),
        ih fun e he => hu e (by simp [he]), after_cons]
  have hword : wordAt (after (some (cu '[')) (natText n)) = wordAt (some (cu '0')) := by
    have hdigit {c : UInt16} (hc : c ∈ natText n) := isWord_of_isDigit (isDigit_of_mem_natText hc)
    cases hu : natText n with
    | nil => exact absurd hu (natText_ne_nil n)
    | cons d u =>
      rw [hu] at hdigit
      have hword : wordAt (some d) = true := hdigit (by simp)
      exact wordAt_after_of_word (u := u) (fun c hc => hdigit (by simp [hc])) hword
  rw [testFrom_cons_of_rejects hn ho, digits _ fun _ => isDigit_of_mem_natText,
    testFrom_context hl hword, hm]

theorem outsideNames_marker {r : Regex} (hr : InstructionRe r) (n : Nat) (a : Text) :
    outsideNames r (a ++ cu '[' :: (natText n ++ markerText)) = outsideNames r a := by
  have hname : testFrom titledNameRe (some (cu '0')) markerText = false := by decide
  refine outsideNames_append
    (testFrom_marker rfl rfl rfl titledName_rejects hname n) (fun prev a => ?_) (fun x => ?_) a
  · have hbracket : titledNameRe.Stops (cu '[' :: (natText n ++ markerText)) := by
      simp [Stops]
      rfl
    have hend : titledNameRe.Stops [] := by simp [Stops]
    have hrun := run_stop hbracket hend rfl prev a
    rw [List.append_nil] at hrun
    simp only [names, first, hrun]
  · have hm := testFrom_marker hr.looks hr.nonempty hr.opening hr.digit hr.marker n none
    rw [testFrom_cons_of_rejects hr.nonempty hr.opening] at hm
    rw [test, testFrom_append_of_rejects hr.nonempty hr.opening rfl, hm, Bool.or_false, test]

/-- The marker stands behind what is kept, with a space between them. -/
theorem trim_marker (t : Text) (n : Nat) : trim (unflagged t ++ removalMarker n) =
    glue (unflagged t) (cu '[' :: (natText n ++ markerText)) := by
  have hlast (x : Text) : ∀ c ∈ (x ++ cu '[' :: (natText n ++ markerText)).getLast?,
      isSpace c = false := by
    have hmarker : markerText.getLast? = some (cu ']') := by decide
    have hend : (x ++ cu '[' :: (natText n ++ markerText)).getLast? = some (cu ']') := by
      rw [show x ++ cu '[' :: (natText n ++ markerText) =
        (x ++ cu '[' :: natText n) ++ markerText by simp, List.getLast?_append, hmarker]
      rfl
    rw [hend]
    simp; rfl
  rw [removalMarker_eq]
  cases hk : unflagged t with
  | nil =>
    have hhead : ∀ c ∈ (cu '[' :: (natText n ++ markerText)).head?, isSpace c = false := by
      simp; rfl
    rw [List.nil_append, trim_cons rfl, trim_of_ends hhead (hlast []), glue, if_pos rfl]
  | cons c k =>
    have hhead : ∀ d ∈ (unflagged t).head?, isSpace d = false := head_trim _
    rw [hk] at hhead
    have hsplit : c :: k ++ cu ' ' :: cu '[' :: (natText n ++ markerText) =
        (c :: k ++ lit " ") ++ cu '[' :: (natText n ++ markerText) := by simp; rfl
    rw [hsplit, trim_of_ends (by simpa using hhead) (hlast _), glue, if_neg (by simp),
      if_neg (by simp)]

theorem outsideNames_clean {r : Regex} (hr : InstructionRe r) (t : Text) :
    outsideNames r (sanitizeNarrative t).clean = outsideNames r (unflagged t) := by
  have marked (n : Nat) : outsideNames r (trim (unflagged t ++ removalMarker n)) =
      outsideNames r (unflagged t) := by
    rw [trim_marker, glue, if_neg (List.cons_ne_nil _ _)]
    split
    · rename_i hk
      rw [hk]
      exact outsideNames_marker hr n []
    · rw [outsideNames_marker hr]
      exact outsideNames_space hr _
  rw [sanitizeNarrative_clean, cleanOf]
  split
  · exact marked _
  · rfl

/-! A pattern is found in a text when it is found in one of its sentences. -/

theorem not_letter_of_spaces {w : Text} (h : ∀ c ∈ w, isSpace c = true) :
    ∀ c ∈ w, isLetter c = false := fun c hc =>
  isLetter_eq_false_of_isWord_eq_false (isWord_eq_false_of_isSpace (h c hc))

theorem InstructionRe.startsWith_lead {r : Regex} (hr : InstructionRe r) (prev : Option UInt16)
    (t : Text) :
    r.startsWith prev t = r.startsWith prev (lead sentenceBreak.first prev t) := by
  obtain ⟨s, ht, -, hs⟩ := eq_lead_append (first_proper (r := sentenceBreak) rfl) prev t
  rcases hs with rfl | ⟨⟨w, g⟩, hw⟩
  · rw [List.append_nil] at ht
    rw [← ht]
  obtain ⟨rest, rfl, hm⟩ := mem_run.mp (first_eq_some hw)
  obtain ⟨hterm, hne, hspace⟩ := match_sentenceBreak hm
  generalize hl : lead sentenceBreak.first prev t = l at ht hterm
  rw [ht]
  rcases List.eq_nil_or_concat l with rfl | ⟨a, c, rfl⟩
  -- a separator at the position itself, or after a sentence end that no pattern takes
  · have hrest : ∀ c ∈ (w ++ rest).head?, isLetter c = false := by
      cases w with
      | nil => exact absurd rfl hne
      | cons c w => simpa using not_letter_of_spaces hspace c (by simp)
    rw [List.nil_append, hr.not_start 0 (by decide) hrest, hr.not_start 0 (by decide) (by simp)]
  · have hc : r.rejects c = true := hr.terminator (by simpa using hterm)
    have hstop (y : Text) : r.Stops (c :: y) := by simpa [Stops] using hc
    have hrun := run_stop (hstop (w ++ rest)) (hstop []) rfl prev a
    simp only [startsWith, List.concat_eq_append, List.append_assoc, List.cons_append,
      List.nil_append, hrun]

theorem test_sentences {r : Regex} (hr : InstructionRe r) (t : Text) :
    r.test t = (splitSentences t).any r.test := by
  refine testFrom_pieces (first_proper (r := sentenceBreak) rfl) hr.looks hr.nonempty
    hr.startsWith_lead (fun prev w s g h => ?_) none t
  obtain ⟨rest, hrest, hm⟩ := mem_run.mp (first_eq_some h)
  obtain ⟨-, hne, hspace⟩ := match_sentenceBreak hm
  refine ⟨hr.silent_of_not_letter (not_letter_of_spaces hspace) s, ?_⟩
  rcases List.eq_nil_or_concat w with rfl | ⟨a, c, rfl⟩
  · exact absurd rfl hne
  · simpa using isWord_eq_false_of_isSpace (hspace c (by simp))

theorem removed_eq_nil (t : Text) :
    (sanitizeNarrative t).removed = [] ↔ ∀ p ∈ injectionPatterns, p.re.test t = false := by
  simp only [sanitizeNarrative_removed, List.filterMap_eq_nil_iff, removalOf, Option.map_eq_none_iff,
    injectionHit, List.find?_eq_none, Bool.not_eq_true]
  constructor
  · intro h p hp
    rw [test_sentences (instructionRe hp), List.any_eq_false]
    exact fun s hs => by simpa using h s hs p hp
  · intro h s hs p hp
    have hall := h p hp
    rw [test_sentences (instructionRe hp), List.any_eq_false] at hall
    simpa using hall s hs

/-- The loader returns no narrative with a pattern in it, and the guard would remove nothing
more, exactly when no pattern is spelt with other white space in a kept sentence, nor bared by a
name that is taken out. -/
theorem instructions_removed_iff (files : Files) (claimId : Text) :
    ((∀ r, loadReport files claimId = some r →
        ∀ p ∈ injectionPatterns, p.re.test r.narrative = false) ↔
      ∀ file, files.report (files.recordPath "reports" claimId) = some file →
        FreeOfInstructions file.narrative) ∧
    ((∀ r, loadReport files claimId = some r → (sanitizeNarrative r.narrative).removed = []) ↔
      ∀ file, files.report (files.recordPath "reports" claimId) = some file →
        FreeOfInstructions file.narrative) := by
  have loaded (t : Text) :
      (∀ p ∈ injectionPatterns,
        p.re.test (pseudonymise (sanitizeNarrative t).clean).clean = false) ↔
        FreeOfInstructions t := by
    refine forall₂_congr fun p hp => ?_
    have hr := instructionRe hp
    have hs := spaced_injection p hp
    have hkept : unflagged t = squeeze (join (lit " ") (keptSentences t)) := rfl
    rw [outsideNames_truncate hr, outsideNames_clean hr, hkept, outsideNames_squeeze hr hs,
      ← any_stretches (hr.phraseRe hs), List.any_eq_false]
    simp only [Bool.not_eq_true]
  simp only [removed_eq_nil]
  cases hfile : files.report (files.recordPath "reports" claimId) with
  | none => simp [loadReport, hfile]
  | some file =>
    simp only [loadReport, hfile, Option.map_some, Option.some.injEq, forall_eq', loaded, and_self]

/-- An installation with one report, whose narrative is given. -/
def reportFiles (narrative : Text) : Files :=
  { sampleFiles .decline none none with
    report := fun _ => some { sampleReport .decline with narrative } }

theorem split_phrase_survives :
    (loadReport (reportFiles (lit "You  must pay.")) (lit "CLM-A")).map (·.narrative) =
        some (lit "You must pay.") ∧
      (¬ ∀ p ∈ injectionPatterns, p.re.test (lit "You must pay.") = false) ∧
      (sanitizeNarrative (lit "You must pay.")).removed ≠ [] := by
  decide

end StormReview
