import StormReview.Js.Words

/-! White space in an expression: how it matches a text once every run of white space in the text
is one blank, and what it matches when its own blanks stand for any white space. -/
namespace Js
open Regex

section collapse

/-- Induction along a text: it ends, a word goes on, or a whole run of white space is passed. -/
theorem spacing_induction {motive : Text → Prop} (nil : motive [])
    (word : ∀ c t, isSpace c = false → motive t → motive (c :: t))
    (spaces : ∀ u t, u ≠ [] → (∀ c ∈ u, isSpace c = true) → (∀ c ∈ t.head?, isSpace c = false) →
      motive t → motive (u ++ t)) (t : Text) : motive t := by
  induction hn : t.length using Nat.strongRecOn generalizing t with
  | ind n ih =>
    cases t with
    | nil => exact nil
    | cons c t =>
      cases hc : isSpace c with
      | false => exact word c t hc (ih t.length (by simp [← hn]) t rfl)
      | true =>
        obtain ⟨hsplit, hspaces, hrest⟩ := span_spec isSpace (c :: t)
        have hne : (c :: t).takeWhile isSpace ≠ [] := by simp [hc]
        have hpos := List.length_pos_iff.mpr hne
        have hlen := congrArg List.length hsplit
        rw [List.length_append, hn] at hlen
        rw [hsplit]
        exact spaces _ _ hne hspaces hrest (ih _ (by omega) _ rfl)

theorem head_trimStart (t : Text) : ∀ c ∈ (trimStart t).head?, isSpace c = false :=
  (span_spec isSpace t).2.2

theorem isSpace_blank : ∀ c ∈ lit " ", isSpace c = true := List.all_eq_true.mp rfl

theorem collapse_spaces {u : Text} (hu : u ≠ []) (hall : ∀ c ∈ u, isSpace c = true) (t : Text) :
    collapse (u ++ t) = cu ' ' :: collapse (trimStart t) := by
  obtain ⟨hsplit, hspaces, -⟩ := span_spec isSpace t
  have hne : u ++ t.takeWhile isSpace ≠ [] := by simp [hu]
  have hall' : ∀ c ∈ u ++ t.takeWhile isSpace, isSpace c = true := by
    intro c hc
    exact (List.mem_append.mp hc).elim (hall c) (hspaces c)
  conv_lhs => rw [hsplit, ← List.append_assoc]
  exact collapse_run hne hall' (head_trimStart t)

theorem trimStart_spaces {u : Text} (hall : ∀ c ∈ u, isSpace c = true) (t : Text) :
    trimStart (u ++ t) = trimStart t := List.dropWhile_append_of_pos hall

theorem collapse_append {a : Text} (ha : ∀ c ∈ a.getLast?, isSpace c = false) (t : Text) :
    collapse (a ++ t) = collapse a ++ collapse t := by
  induction a using spacing_induction with
  | nil => rfl
  | word c a hc ih =>
    have hlast : ∀ d ∈ a.getLast?, isSpace d = false := by
      cases a with
      | nil => simp
      | cons e a => simpa [List.getLast?_cons_cons] using ha
    rw [List.cons_append, collapse_plain hc, collapse_plain hc, ih hlast, List.cons_append]
  | spaces u a hu hall hhead ih =>
    have hne : a ≠ [] := by
      rintro rfl
      rw [List.append_nil] at ha
      have hlast := hall _ (List.getLast_mem hu)
      rw [ha _ (List.getLast?_eq_getLast_of_ne_nil hu)] at hlast
      cases hlast
    have hlast : ∀ d ∈ a.getLast?, isSpace d = false := by
      rwa [List.getLast?_append_of_ne_nil _ hne] at ha
    have hhead' : ∀ c ∈ (a ++ t).head?, isSpace c = false := by
      rwa [List.head?_append_of_ne_nil _ hne]
    rw [List.append_assoc, collapse_run hu hall hhead', collapse_run hu hall hhead, ih hlast,
      List.cons_append]

theorem wordAt_after_spaces {u : Text} (hu : u ≠ []) (hall : ∀ c ∈ u, isSpace c = true)
    (prev : Option UInt16) : wordAt (after prev u) = false := by
  rw [after_eq_getLast prev hu, List.getLast?_eq_getLast_of_ne_nil hu, wordAt_some]
  exact isWord_eq_false_of_isSpace (hall _ (List.getLast_mem hu))

theorem head_collapse_space {c : UInt16} (hc : isSpace c = true) (t : Text) :
    collapse (c :: t) = cu ' ' :: collapse (trimStart t) :=
  collapse_spaces (u := [c]) (by simp) (by simpa using hc) t

/-- A text borders on a word as before. -/
theorem wordAt_head_collapse (t : Text) : wordAt (collapse t).head? = wordAt t.head? := by
  cases t with
  | nil => rfl
  | cons c t =>
    cases hc : isSpace c with
    | false => rw [collapse_plain hc, List.head?_cons, List.head?_cons]
    | true =>
      rw [head_collapse_space hc, List.head?_cons, List.head?_cons, wordAt_some, wordAt_some,
        isWord_eq_false_of_isSpace hc]
      rfl

/-- The only white space that is left is blanks. -/
theorem collapse_blank (t : Text) : ∀ c ∈ collapse t, isSpace c = true → c = cu ' ' := by
  induction t using spacing_induction with
  | nil => simp [collapse_nil]
  | word c t hc ih =>
    rw [collapse_plain hc]
    intro d hd hspace
    rcases List.mem_cons.mp hd with rfl | hd
    · rw [hc] at hspace
      cases hspace
    · exact ih d hd hspace
  | spaces u t hu hall hhead ih =>
    rw [collapse_run hu hall hhead]
    intro d hd hspace
    exact (List.mem_cons.mp hd).elim id fun hd => ih d hd hspace

theorem getLast_collapse {t : Text} (ht : ∀ c ∈ t.getLast?, isSpace c = false) :
    (collapse t).getLast? = t.getLast? := by
  rcases List.eq_nil_or_concat' t with rfl | ⟨t, c, rfl⟩
  · rfl
  have hc : isSpace c = false := ht c (by simp)
  suffices h : ∀ t : Text, (collapse (t ++ [c])).getLast? = some c by simpa using h t
  intro t
  induction t using spacing_induction with
  | nil => rw [List.nil_append, collapse_plain hc, collapse_nil, List.getLast?_singleton]
  | word d t hd ih =>
    rw [List.cons_append, collapse_plain hd, List.getLast?_cons, ih]
    rfl
  | spaces u t hu hall ht ih =>
    have hhead : ∀ d ∈ (t ++ [c]).head?, isSpace d = false := by
      cases t with
      | nil => simpa using hc
      | cons d t => simpa using ht
    rw [List.append_assoc, collapse_run hu hall hhead, List.getLast?_cons, ih]
    rfl

end collapse

namespace Regex

/-- The expression with any white space where it takes a blank. -/
def loosen : Regex → Regex
  | .unit p => if p (cu ' ') then plus space else .unit p
  | .seq r s => .seq (loosen r) (loosen s)
  | .alt r s => .alt (loosen r) (loosen s)
  | r => r

/-- An expression that asks for white space only where none has been taken before it. The
flags say that the code unit before a match, and the last one of it, is known to be none. -/
inductive Spaced : Bool → Regex → Bool → Prop
  | empty {i} : Spaced i .empty i
  | letter {i p} : (∀ c, p c = true → isSpace c = false) → Spaced i (.unit p) true
  | gap {p} : p (cu ' ') = true → (∀ c, p c = true → isSpace c = true) →
      Spaced true (.unit p) false
  | spaces {i} : Spaced i (.star space) false
  | seq {i j o r s} : Spaced i r j → Spaced j s o → Spaced i (.seq r s) o
  | alt {i o r s} : Spaced i r o → Spaced i s o → Spaced i (.alt r s) o
  | border : Spaced true .boundary true
  | forget {i r} : Spaced i r true → Spaced i r false

theorem loosen_letter {p : UInt16 → Bool} (hp : ∀ c, p c = true → isSpace c = false) :
    loosen (.unit p) = .unit p := by
  have hblank : p (cu ' ') ≠ true := fun h => absurd (hp _ h) (by decide)
  rw [loosen, if_neg hblank]

/-- What is left of a text once white space has been taken, or has not, with its white space
collapsed. -/
def collapseFrom (taken : Bool) (t : Text) : Text :=
  collapse (if taken then trimStart t else t)

theorem collapseFrom_letter {c : UInt16} (hc : isSpace c = false) (b : Bool) (t : Text) :
    collapseFrom b (c :: t) = c :: collapseFrom false t := by
  have hstart : trimStart (c :: t) = c :: t := trimStart_of_head (by simpa using hc)
  simp only [collapseFrom, hstart, ite_self, collapse_plain hc, Bool.false_eq_true, if_false]

/-- What the loosened expression matches is matched in the collapsed text. -/
theorem Spaced.collapse_match {i o : Bool} {r : Regex} (hr : Spaced i r o) {b : Bool}
    (hb : i = true → b = false) {prev prev' : Option UInt16} {w rest : Text}
    (hp : b = false → wordAt prev = wordAt prev') (h : Match (loosen r) prev w rest) :
    ∃ w' b', collapseFrom b (w ++ rest) = w' ++ collapseFrom b' rest ∧
      Match r prev' w' (collapseFrom b' rest) ∧ (o = true → b' = false) ∧
      (b' = false → wordAt (after prev w) = wordAt (after prev' w')) := by
  induction hr generalizing b prev prev' w rest with
  | empty =>
    obtain rfl := match_empty.mp h
    exact ⟨[], b, rfl, .empty, hb, hp⟩
  | letter hletter =>
    rw [loosen_letter hletter] at h
    obtain ⟨c, hc, rfl⟩ := match_unit.mp h
    exact ⟨[c], false, collapseFrom_letter (hletter c hc) b rest, .unit hc, fun _ => rfl,
      fun _ => rfl⟩
  | gap hblank hspace =>
    obtain rfl := hb rfl
    rw [loosen, if_pos hblank] at h
    obtain ⟨hne, hall⟩ := match_plus_unit.mp h
    exact ⟨lit " ", true, collapse_spaces hne hall rest, .unit hblank, fun h => (by cases h),
      fun h => (by cases h)⟩
  | spaces =>
    have hall := match_star_unit.mp h
    by_cases hne : w = []
    · subst hne
      exact ⟨[], b, rfl, .starNil, fun h => (by cases h), hp⟩
    cases b with
    | false =>
      exact ⟨lit " ", true, collapse_spaces hne hall rest, match_star_unit.mpr isSpace_blank,
        fun h => (by cases h), fun h => (by cases h)⟩
    | true =>
      refine ⟨[], true, ?_, .starNil, fun h => (by cases h), fun h => (by cases h)⟩
      simp only [collapseFrom, if_true, trimStart_spaces hall, List.nil_append]
  | seq _ _ ihr ihs =>
    obtain ⟨u, v, rfl, hu, hv⟩ := match_seq.mp h
    obtain ⟨u', j, htext, hu', hj, hborder⟩ := ihr hb hp hu
    obtain ⟨v', b', htext', hv', ho, hborder'⟩ := ihs hj hborder hv
    rw [htext'] at hu' htext
    refine ⟨u' ++ v', b', ?_, .seq hu' hv', ho, fun h => ?_⟩
    · rw [List.append_assoc, htext, List.append_assoc]
    · rw [after_append, after_append, hborder' h]
  | alt _ _ ihr ihs =>
    rcases match_alt.mp h with h | h
    · obtain ⟨w', b', htext, hm, hrest⟩ := ihr hb hp h
      exact ⟨w', b', htext, .altL hm, hrest⟩
    · obtain ⟨w', b', htext, hm, hrest⟩ := ihs hb hp h
      exact ⟨w', b', htext, .altR hm, hrest⟩
  | border =>
    obtain rfl := hb rfl
    obtain ⟨rfl, hborder⟩ := match_boundary.mp h
    refine ⟨[], false, rfl, .boundary ?_, fun _ => rfl, hp⟩
    rwa [← hp rfl, collapseFrom, if_neg Bool.false_ne_true, wordAt_head_collapse]
  | forget _ ih =>
    obtain ⟨w', b', htext, hm, ho, hborder⟩ := ih hb hp h
    exact ⟨w', b', htext, hm, fun h => (by cases h), hborder⟩

theorem collapse_eq_letter {c : UInt16} {t x : Text} (hc : isSpace c = false)
    (h : collapse t = c :: x) : ∃ t', t = c :: t' ∧ collapse t' = x := by
  cases t with
  | nil => simp [collapse_nil] at h
  | cons d t =>
    cases hd : isSpace d with
    | false =>
      rw [collapse_plain hd, List.cons.injEq] at h
      obtain ⟨rfl, h⟩ := h
      exact ⟨t, rfl, h⟩
    | true =>
      rw [head_collapse_space hd, List.cons.injEq] at h
      obtain ⟨rfl, -⟩ := h
      exact absurd hc (by decide)

theorem collapse_eq_space {c : UInt16} {t x : Text} (hc : isSpace c = true)
    (h : collapse t = c :: x) : ∃ u t', t = u ++ t' ∧ u ≠ [] ∧ (∀ c ∈ u, isSpace c = true) ∧
      (∀ c ∈ t'.head?, isSpace c = false) ∧ collapse t' = x := by
  induction t using spacing_induction with
  | nil => simp [collapse_nil] at h
  | word d t hd =>
    rw [collapse_plain hd, List.cons.injEq] at h
    rw [h.1, hc] at hd
    cases hd
  | spaces u t hu hall hhead =>
    rw [collapse_run hu hall hhead, List.cons.injEq] at h
    exact ⟨u, t, rfl, hu, hall, hhead, h.2⟩

/-- What is matched in the collapsed text is matched by the loosened expression before it. -/
theorem Spaced.match_of_collapse {i o : Bool} {r : Regex} (hr : Spaced i r o)
    {prev prev' : Option UInt16} {t w' rest' : Text} (hp : wordAt prev = wordAt prev')
    (ht : collapse t = w' ++ rest') (h : Match r prev' w' rest') :
    ∃ w rest, t = w ++ rest ∧ collapse rest = rest' ∧ Match (loosen r) prev w rest ∧
      wordAt (after prev w) = wordAt (after prev' w') := by
  induction hr generalizing prev prev' t w' rest' with
  | empty =>
    obtain rfl := match_empty.mp h
    exact ⟨[], t, rfl, ht, .empty, hp⟩
  | letter hletter =>
    obtain ⟨c, hc, rfl⟩ := match_unit.mp h
    obtain ⟨rest, rfl, hrest⟩ := collapse_eq_letter (hletter c hc) ht
    rw [loosen_letter hletter]
    exact ⟨[c], rest, rfl, hrest, .unit hc, rfl⟩
  | gap hblank hspace =>
    obtain ⟨c, hc, rfl⟩ := match_unit.mp h
    obtain ⟨u, rest, rfl, hu, hall, -, hrest⟩ := collapse_eq_space (hspace c hc) ht
    rw [loosen, if_pos hblank]
    refine ⟨u, rest, rfl, hrest, match_plus_unit.mpr ⟨hu, hall⟩, ?_⟩
    rw [wordAt_after_spaces hu hall, after_cons, after_nil, wordAt_some,
      isWord_eq_false_of_isSpace (hspace c hc)]
  | spaces =>
    have hall' := match_star_unit.mp h
    cases w' with
    | nil => exact ⟨[], t, rfl, ht, .starNil, hp⟩
    | cons c w' =>
      obtain ⟨u, rest, rfl, hu, hall, hhead, hrest⟩ := collapse_eq_space (hall' c (by simp)) ht
      -- the run is one blank, so nothing more of it is taken
      have hnil : w' = [] := by
        cases w' with
        | nil => rfl
        | cons d w' =>
          have hd := head_collapse hhead d (by simp [hrest])
          rw [hall' d (by simp)] at hd
          cases hd
      subst hnil
      refine ⟨u, rest, rfl, hrest, match_star_unit.mpr hall, ?_⟩
      rw [wordAt_after_spaces hu hall, after_cons, after_nil, wordAt_some,
        isWord_eq_false_of_isSpace (hall' c (by simp))]
  | seq _ _ ihr ihs =>
    obtain ⟨u', v', rfl, hu, hv⟩ := match_seq.mp h
    rw [List.append_assoc] at ht
    obtain ⟨u, t', rfl, ht', hu', hborder⟩ := ihr hp ht hu
    obtain ⟨v, rest, rfl, hrest, hv', hborder'⟩ := ihs hborder ht' hv
    refine ⟨u ++ v, rest, by simp, hrest, .seq hu' hv', ?_⟩
    rw [after_append, after_append, hborder']
  | alt _ _ ihr ihs =>
    rcases match_alt.mp h with h | h
    · obtain ⟨w, rest, rfl, hrest, hm, hborder⟩ := ihr hp ht h
      exact ⟨w, rest, rfl, hrest, .altL hm, hborder⟩
    · obtain ⟨w, rest, rfl, hrest, hm, hborder⟩ := ihs hp ht h
      exact ⟨w, rest, rfl, hrest, .altR hm, hborder⟩
  | border =>
    obtain ⟨rfl, hborder⟩ := match_boundary.mp h
    refine ⟨[], t, rfl, ht, .boundary ?_, hp⟩
    rwa [hp, ← wordAt_head_collapse, ht]
  | forget _ ih => exact ih hp ht h

theorem Spaced.startsWith_collapse {o : Bool} {r : Regex} (hr : Spaced true r o)
    {prev prev' : Option UInt16} (hp : wordAt prev = wordAt prev') (t : Text) :
    r.startsWith prev' (collapse t) = (loosen r).startsWith prev t := by
  refine Bool.eq_iff_iff.mpr ⟨fun h => ?_, fun h => ?_⟩
  · obtain ⟨w', rest', ht, hm⟩ := startsWith_iff.mp h
    obtain ⟨w, rest, rfl, -, hm', -⟩ := hr.match_of_collapse hp ht hm
    exact startsWith_iff.mpr ⟨w, rest, rfl, hm'⟩
  · obtain ⟨w, rest, rfl, hm⟩ := startsWith_iff.mp h
    obtain ⟨w', b, ht, hm', -⟩ := hr.collapse_match (fun _ => rfl) (fun _ => hp) hm
    exact startsWith_iff.mpr ⟨w', _, ht, hm'⟩

/-- No match of the expression starts with white space. -/
def WordFirst (r : Regex) : Prop :=
  ∀ (q : Option UInt16) (c : UInt16) (t : Text), isSpace c = true → r.startsWith q (c :: t) = false

theorem WordFirst.silent {r : Regex} (hr : r.WordFirst) {q : Option UInt16} {u : Text}
    (hu : ∀ c ∈ u, isSpace c = true) (t : Text) : Silent r q u t := by
  induction u generalizing q with
  | nil => exact Along.nil
  | cons c u ih => exact Along.cons (hr _ c _ (hu c (by simp))) (ih fun d hd => hu d (by simp [hd]))

theorem Spaced.wordFirst_loosen {o : Bool} {r : Regex} (hr : Spaced true r o)
    (hw : r.WordFirst) : (loosen r).WordFirst := fun q c t hc => by
  have hborder : wordAt q = wordAt q := rfl
  rw [← hr.startsWith_collapse hborder, head_collapse_space hc]
  exact hw _ _ _ rfl

/-- The loosened expression finds in a text what the expression finds in it collapsed. -/
theorem Spaced.testFrom_collapse {o : Bool} {r : Regex} (hr : Spaced true r o)
    (hw : r.WordFirst) {prev prev' : Option UInt16} (hp : wordAt prev = wordAt prev') (t : Text) :
    testFrom r prev' (collapse t) = testFrom (loosen r) prev t := by
  have step (r : Regex) (q : Option UInt16) (c : UInt16) (t : Text) :
      testFrom r q (c :: t) = (r.startsWith q (c :: t) || testFrom r (some c) t) := rfl
  induction t using spacing_induction generalizing prev prev' with
  | nil => exact hr.startsWith_collapse hp []
  | word c t hc ih =>
    have hstart := hr.startsWith_collapse hp (c :: t)
    rw [collapse_plain hc] at hstart
    rw [collapse_plain hc, step, step, hstart, ih rfl]
  | spaces u t hu hall hhead ih =>
    have hborder : wordAt (after prev u) = wordAt (some (cu ' ')) := wordAt_after_spaces hu hall prev
    rw [collapse_run hu hall hhead, step, hw _ _ _ rfl, Bool.false_or, ih hborder,
      testFrom_silent ((hr.wordFirst_loosen hw).silent hall t)]

/-! Loosening an expression changes little else about it. -/

theorem looksBehind_loosen (r : Regex) : (loosen r).looksBehind = r.looksBehind := by
  induction r with
  | unit p =>
    rw [loosen]
    split <;> rfl
  | seq r s ihr ihs | alt r s ihr ihs => simp only [loosen, looksBehind, ihr, ihs]
  | _ => rfl

theorem nullable_loosen (r : Regex) : (loosen r).nullable = r.nullable := by
  induction r with
  | unit p =>
    rw [loosen]
    split <;> rfl
  | seq r s ihr ihs | alt r s ihr ihs => simp only [loosen, nullable, ihr, ihs]
  | _ => rfl

theorem rejects_loosen {r : Regex} {d : UInt16} (hd : isSpace d = false)
    (hr : r.rejects d = true) : (loosen r).rejects d = true := by
  induction r with
  | unit p =>
    rw [loosen]
    split
    · simp [plus, space, rejects, hd]
    · exact hr
  | seq r s ihr ihs | alt r s ihr ihs =>
    simp only [loosen, rejects, Bool.and_eq_true] at hr ⊢
    exact ⟨ihr hr.1, ihs hr.2⟩
  | _ => exact hr

/-! The words and phrases of an expression. -/

/-- Whether the characters after a word, or after a blank, never have two blanks in a row. -/
def singleBlanks : Bool → List Char → Option Bool
  | inWord, [] => some inWord
  | inWord, c :: cs =>
    if c = ' ' then if inWord then singleBlanks false cs else none
    else if isSpace (foldCase (cu c)) then none
    else singleBlanks true cs

theorem foldCase_of_isSpace {u : UInt16} (h : isSpace u = true) : foldCase u = u := by
  rw [foldCase, if_neg]
  simp [isUpper_eq_false_of_isWord_eq_false (isWord_eq_false_of_isSpace h)]

theorem spaced_charI {c : Char} (hc : isSpace (foldCase (cu c)) = false) {i : Bool} :
    Spaced i (charI c) true := by
  refine .letter fun u hu => Bool.eq_false_iff.mpr fun hspace => ?_
  rw [beq_iff_eq, foldCase_of_isSpace hspace] at hu
  rw [hu, hc] at hspace
  cases hspace

theorem spaced_blank : Spaced true (charI ' ') false := by
  refine .gap rfl fun u hu => ?_
  rw [beq_iff_eq, foldCase_of_isSpace (u := cu ' ') rfl, foldCase] at hu
  split at hu
  · rename_i hupper
    have hlow := isLower_foldCase_of_isUpper hupper
    rw [foldCase, if_pos hupper, hu] at hlow
    cases hlow
  · rw [hu]
    rfl

theorem spaced_ofChars {cs : List Char} {i o : Bool} (h : singleBlanks i cs = some o) :
    Spaced i (ofChars charI cs) o := by
  induction cs generalizing i with
  | nil =>
    obtain rfl := Option.some.inj h
    exact .empty
  | cons c cs ih =>
    have hone : ∃ j, Spaced i (charI c) j ∧ singleBlanks j cs = some o := by
      rw [singleBlanks] at h
      split at h
      · rename_i hblank
        subst hblank
        cases i with
        | true => exact ⟨false, spaced_blank, h⟩
        | false => cases h
      · split at h
        · cases h
        · rename_i hc
          exact ⟨true, spaced_charI (by simpa using hc), h⟩
    obtain ⟨j, hc, hcs⟩ := hone
    cases cs with
    | nil =>
      obtain rfl := Option.some.inj hcs
      exact hc
    | cons d cs => exact .seq hc (ih hcs)

/-- A word, or a phrase with single blanks. -/
theorem spaced_wordI {s : String} {i : Bool} (h : singleBlanks i s.toList = some true) :
    Spaced i (wordI s) true := spaced_ofChars h

theorem spaced_plus_space : Spaced true (plus space) false :=
  .seq (.gap rfl fun _ h => h) .spaces

end Regex

end Js
