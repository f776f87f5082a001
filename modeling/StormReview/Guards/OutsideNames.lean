import Mathlib.Data.List.Induction
import StormReview.Js.Respacing
import StormReview.Guards.InjectionShapes

/-! What the patterns find between the titled names of a text whose white space is collapsed. -/
namespace StormReview
open Js Regex

/-- Whether the expression matches in a stretch of the text that no titled name takes. -/
def outsideNames (r : Regex) (t : Text) : Bool := (pieces names t).any r.test

/-! White space in the patterns and in the names. -/

theorem spaced_injection : ∀ p ∈ injectionPatterns, Spaced true p.re true := by
  have optWord {s : String} (h : singleBlanks false s.toList = some true) :
      Spaced false (opt (.seq (wordI s) (plus space))) false :=
    .alt (.seq (spaced_wordI h) spaced_plus_space) .empty
  simp only [injectionPatterns, List.forall_mem_cons, List.not_mem_nil, false_implies,
    implies_true, and_true]
  refine ⟨?_, ?_, ?_, ?_, ?_, ?_, ?_⟩
  · exact .seq (spaced_wordI (by decide)) (.seq spaced_plus_space (.seq (optWord (by decide))
      (.seq (optWord (by decide)) (.seq (.alt (spaced_wordI (by decide))
        (.alt (spaced_wordI (by decide)) (.alt (spaced_wordI (by decide))
          (spaced_wordI (by decide))))) (.seq spaced_plus_space (spaced_wordI (by decide)))))))
  · exact .seq (spaced_wordI (by decide)) (.seq spaced_plus_space (.seq (optWord (by decide))
      (.seq (optWord (by decide)) (.seq (.alt (.forget (.alt (spaced_wordI (by decide))
        (spaced_wordI (by decide)))) .empty) (.seq .spaces (.alt (spaced_wordI (by decide))
          (.alt (spaced_wordI (by decide)) (.alt (spaced_wordI (by decide))
            (spaced_wordI (by decide))))))))))
  · exact .seq .border (.seq (spaced_wordI (by decide)) .border)
  · exact .seq (spaced_wordI (by decide)) (.seq spaced_plus_space (.alt (spaced_wordI (by decide))
      (.alt (spaced_wordI (by decide)) (.alt (spaced_wordI (by decide))
        (.alt (spaced_wordI (by decide)) (.alt (spaced_wordI (by decide))
          (.alt (spaced_wordI (by decide)) (spaced_wordI (by decide)))))))))
  · exact .seq .border (.seq (spaced_wordI (by decide)) (.seq spaced_plus_space
      (.seq (.alt (spaced_wordI (by decide)) (.alt (spaced_wordI (by decide))
        (spaced_wordI (by decide)))) (.seq spaced_plus_space
          (.seq (spaced_wordI (by decide)) .border)))))
  · exact .seq .border (.seq (spaced_wordI (by decide)) (.seq .spaces (spaced_charI rfl)))
  · exact .seq .border (.seq (spaced_wordI (by decide)) .border)

theorem InstructionRe.wordFirst {r : Regex} (hr : InstructionRe r) : r.WordFirst := fun q c t hc => by
  refine Bool.eq_false_iff.mpr fun hs => ?_
  have hletter : isLetter c = false :=
    isLetter_eq_false_of_isWord_eq_false (isWord_eq_false_of_isSpace hc)
  have hl := hr.starts hs
  rw [lettered_eq_false (k := 0) (by decide) (by simpa using hletter)] at hl
  cases hl

theorem wordFirst_titledName : titledNameRe.WordFirst := fun q c t hc => by
  refine Bool.eq_false_iff.mpr fun hs => ?_
  obtain ⟨-, a, l, s, ht, ha, -⟩ := name_opening hs
  rw [(List.cons.inj ht).1, isSpace_eq_false_of_isWord (isWord_of_isUpper ha)] at hc
  cases hc

theorem isSpace_of_upper (c : UInt16) (h : isUpper c = true) : isSpace c = false :=
  isSpace_eq_false_of_isWord (isWord_of_isUpper h)

theorem isSpace_of_lower (c : UInt16) (h : isLower c = true) : isSpace c = false :=
  isSpace_eq_false_of_isWord (isWord_of_isLower h)

theorem wordFirst_nameWord : nameWord.WordFirst := wordFirst_unit isSpace_of_upper _

/-- The words of a name, behind a title. -/
def nameTail : Regex := .seq nameWord (opt (.seq (plus space) nameWord))

theorem wordFirst_nameTail : nameTail.WordFirst := fun q c t hc => by
  have h := wordFirst_unit isSpace_of_upper (.seq (plus lower)
    (opt (.seq (plus space) nameWord))) q c t hc
  rwa [startsWith, ← run_seq_assoc] at h

theorem respaces_nameTail : Respaces nameTail := by
  have hword : Respaces nameWord := (Respaces.letters_last isSpace_of_lower).letter isSpace_of_upper
  have hsecond : Respaces (opt (.seq (plus space) nameWord)) :=
    (hword.spaces wordFirst_nameWord).alt respaces_empty
  have htotal (q : Option UInt16) (t : Text) : (opt (.seq (plus space) nameWord)).run q t ≠ [] :=
    List.append_ne_nil_of_right_ne_nil _ (List.cons_ne_nil _ _)
  exact ((hsecond.letters isSpace_of_lower htotal).letter isSpace_of_upper).assoc

theorem respaces_titledName : Respaces titledNameRe := by
  have hchar {d : Char} (hd : isSpace (cu d) = false) (c : UInt16) (h : (c == cu d) = true) :
      isSpace c = false := by rwa [eq_of_beq h]
  have hspaces : Respaces (.seq (plus space) nameTail) :=
    respaces_nameTail.spaces wordFirst_nameTail
  have hdot : Respaces (.seq (opt (char '.')) (.seq (plus space) nameTail)) :=
    (hspaces.letter (hchar rfl)).seq_alt hspaces.seq_empty
  have htitle {s : String} (h : s.toList.all (fun d => !isSpace (cu d)) = true) :
      Respaces (.seq (word s) (.seq (opt (char '.')) (.seq (plus space) nameTail))) :=
    hdot.word s.toList fun d hd => hchar (by simpa using List.all_eq_true.mp h d hd)
  exact ((htitle (by decide)).seq_alt ((htitle (by decide)).seq_alt ((htitle (by decide)).seq_alt
    ((htitle (by decide)).seq_alt ((htitle (by decide)).seq_alt (htitle (by decide))))))).border

theorem name_last {prev : Option UInt16} {w rest : Text} (h : Match titledNameRe prev w rest) :
    ∀ c ∈ w.getLast?, isSpace c = false := by
  obtain ⟨a, l, rfl, hl⟩ := name_ends h
  simpa using isSpace_of_lower l hl

/-- A pattern is found outside the names of a collapsed text when it is found, with any white
space for its blanks, outside the names of the text. -/
theorem outsideNames_collapse {r : Regex} (hr : InstructionRe r) (hs : Spaced true r true)
    (t : Text) : outsideNames r (collapse t) = outsideNames (loosen r) t := by
  have hstart : wordAt none = wordAt none := rfl
  obtain ⟨hlead, hrests⟩ :=
    pieces_collapse rfl respaces_titledName wordFirst_titledName name_last hstart t
  have htest (x : Text) : r.test (collapse x) = (loosen r).test x :=
    hs.testFrom_collapse hr.wordFirst rfl x
  rw [outsideNames, outsideNames, pieces_eq, pieces_eq, hlead, hrests, List.any_cons,
    List.any_cons, htest, List.any_map]
  simp only [Function.comp_def, htest]

/-! White space at the ends of a text. -/

theorem outsideNames_append {r : Regex} {s : Text}
    (hidle : ∀ prev, testFrom titledNameRe prev s = false)
    (hs : ∀ prev a, names prev (a ++ s) = names prev a)
    (hr : ∀ x, r.test (x ++ s) = r.test x) (a : Text) :
    outsideNames r (a ++ s) = outsideNames r a := by
  have hidle' (prev : Option UInt16) : Idle names prev s [] := by
    intro b c hbc _
    rw [List.append_nil, first_eq_none]
    exact test_eq_false_iff.mp (hidle prev) b c hbc
  obtain ⟨ps, x, hps, hps'⟩ := pieces_append names_proper hidle' hs none a
  simp only [outsideNames, pieces_eq, hps, hps', List.any_append, List.any_cons, List.any_nil, hr]

theorem outsideNames_space {r : Regex} (hr : InstructionRe r) (a : Text) :
    outsideNames r (a ++ [cu ' ']) = outsideNames r a := by
  refine outsideNames_append (fun prev => ?_) (fun prev a => ?_) (fun x => ?_) a
  · have h := testFrom_concat (r := titledNameRe) (d := cu ' ') rfl rfl rfl prev []
    rwa [testFrom_nil rfl] at h
  · simp only [names, first, run_concat (r := titledNameRe) (d := cu ' ') rfl rfl]
  · exact testFrom_concat hr.nonempty hr.space rfl none x

theorem outsideNames_cons {r : Regex} (hr : InstructionRe r) {c : UInt16} (hc : isSpace c = true)
    (t : Text) : outsideNames r (c :: t) = outsideNames r t := by
  have hnone : names none (c :: t) = none := names_eq_none.mpr (wordFirst_titledName none c t hc)
  have hborder : wordAt (some c) = wordAt none := isWord_eq_false_of_isSpace hc
  have htest (x : Text) : r.test (c :: x) = r.test x := by
    have hstart := hr.wordFirst none c x hc
    rw [startsWith] at hstart
    rw [test, testFrom, hstart, Bool.false_or, testFrom_context hr.looks hborder, test]
  rw [outsideNames, outsideNames, pieces_eq, pieces_eq, lead_plain hnone, rests_plain hnone,
    lead_context names_bordered hborder, rests_context names_bordered hborder, List.any_cons,
    List.any_cons, htest]

theorem outsideNames_trimStart {r : Regex} (hr : InstructionRe r) (t : Text) :
    outsideNames r (trimStart t) = outsideNames r t := by
  induction t with
  | nil => rfl
  | cons c t ih =>
    cases hc : isSpace c with
    | true => rw [trimStart, List.dropWhile_cons_of_pos hc, outsideNames_cons hr hc, ← ih, trimStart]
    | false => rw [trimStart, List.dropWhile_cons_of_neg (by simp [hc])]

theorem outsideNames_trimEnd {r : Regex} (hr : InstructionRe r) {t : Text}
    (ht : ∀ c ∈ t, isSpace c = true → c = cu ' ') :
    outsideNames r (trimEnd t) = outsideNames r t := by
  induction t using List.reverseRecOn with
  | nil => rfl
  | append_singleton t c ih =>
    cases hc : isSpace c with
    | true =>
      obtain rfl := ht c (by simp) hc
      have htrim : trimEnd (t ++ [cu ' ']) = trimEnd t := by
        simp only [trimEnd, trimStart, List.reverse_append, List.reverse_singleton,
          List.singleton_append, List.dropWhile_cons_of_pos hc]
      rw [htrim, outsideNames_space hr, ih fun d hd => ht d (by simp [hd])]
    | false =>
      have htrim : trimEnd (t ++ [c]) = t ++ [c] := by
        rw [trimEnd, trimStart, List.reverse_append, List.reverse_singleton, List.singleton_append,
          List.dropWhile_cons_of_neg (by simp [hc])]
        simp
      rw [htrim]

theorem outsideNames_squeeze {r : Regex} (hr : InstructionRe r) (hs : Spaced true r true)
    (t : Text) : outsideNames r (squeeze t) = outsideNames (loosen r) t := by
  have hblank : ∀ c ∈ trimStart (collapse t), isSpace c = true → c = cu ' ' := fun c hc =>
    collapse_blank t c ((List.dropWhile_sublist _).subset hc)
  have htrim : squeeze t = trimEnd (trimStart (collapse t)) := rfl
  rw [htrim, outsideNames_trimEnd hr hblank, outsideNames_trimStart hr, outsideNames_collapse hr hs]

end StormReview
