import StormReview.Guards.OutsideNames
import StormReview.Guards.SentenceRow

/-! The stretches of a row of sentences that lie between titled names, where a title that ends a
sentence makes a name with the words that open the next. What the patterns find in them is what
they find between the names of the sentences joined. -/
namespace StormReview
open Js Regex

/-- A title with a dot that is all that is left of a sentence. -/
def openTitle (prev : Option UInt16) (t : Text) : Bool :=
  !wordAt prev && titles.any fun title => t == title ++ lit "."

/-- The search for the titled names of a sentence and for a title that ends it. -/
def sentenceNames : Matcher Unit := fun prev t =>
  if openTitle prev t then some (t, ()) else names prev t

/-- No name ends with a dot, so a title does. -/
def endsInTitle (toks : List (Token Unit)) : Bool :=
  toks.getLast?.any fun tok => match tok with
    | .hit w _ => w.getLast? == some (cu '.')
    | .plain _ => false

/-- The stretches of a sentence, and of those that follow it, that no titled name takes. A title
that ends a sentence makes a name with the words that open the next. -/
def stretchesFrom (prev : Option UInt16) (s : Text) : List Text → List Text
  | [] => lead names prev s :: rests names prev s
  | next :: more =>
    match if endsInTitle (tokens sentenceNames prev s) then nameTail.first none next else none with
    | some (n, _) => lead sentenceNames prev s :: (rests sentenceNames prev s ++
        stretchesFrom (after none n) (next.drop n.length) more)
    | none => lead names prev s :: (rests names prev s ++ stretchesFrom none next more)

def stretches : List Text → List Text
  | [] => []
  | s :: more => stretchesFrom none s more

theorem NameWord.not_terminator {n : Text} (h : NameWord n) : ∀ c ∈ n, isTerminator c = false := by
  obtain ⟨u, l, rfl, hu, -, hl⟩ := h
  intro c hc
  rcases List.mem_cons.mp hc with rfl | hc
  · exact StormReview.not_terminator (p := isUpper) (by decide) hu
  · exact StormReview.not_terminator (p := isLower) (by decide) (hl c hc)

theorem openTitle_iff {prev : Option UInt16} {t : Text} : openTitle prev t = true ↔
    wordAt prev = false ∧ ∃ title ∈ titles, t = title ++ lit "." := by
  simp [openTitle]

/-- A name that goes on behind a sentence starts with the title that ends it. -/
theorem openTitle_of_enters {prev : Option UInt16} {s w rest t : Text} (hs : Ended s)
    (h : Match titledNameRe prev w rest) (ht : s ++ t = w ++ rest) (hne : s ≠ [])
    (hlen : s.length < w.length) : openTitle prev s = true := by
  have hborder := (name_opening (startsWith_iff.mpr ⟨w, rest, rfl, h⟩)).1
  obtain ⟨-, title, dot, sp, n, o, rfl, htitle, hdot, hsp, hn, ho⟩ := match_titledName h
  refine openTitle_iff.mpr ⟨hborder, title, htitle, ?_⟩
  obtain ⟨a, d, rfl⟩ := (List.eq_nil_or_concat' s).resolve_left hne
  have hd : isTerminator d = true := hs d (by simp)
  have hfree : ∀ c ∈ sp ++ (n ++ o), isTerminator c = false := by
    simp only [List.mem_append]
    rintro c (hc | hc | hc)
    · exact space_not_terminator (hsp c hc)
    · exact hn.not_terminator c hc
    · rcases ho with rfl | ⟨sp', n', rfl, hsp', hn'⟩
      · cases hc
      · rcases List.mem_append.mp hc with hc | hc
        · exact space_not_terminator (hsp' c hc)
        · exact hn'.not_terminator c hc
  have htitles : ∀ title ∈ titles, title.all (fun c => !isTerminator c) = true := by decide
  have hplain : d ∉ title := fun hmem => by
    simpa [hd] using List.all_eq_true.mp (htitles title htitle) d hmem
  have hplain' : d ∉ sp ++ (n ++ o) := fun hmem => by
    simpa [hd] using hfree d hmem
  -- the sentence end is the dot: nothing else in a name ends a sentence
  obtain ⟨v, hv⟩ : ∃ v, title ++ (dot ++ (sp ++ (n ++ o))) = a ++ d :: v := by
    rcases List.append_eq_append_iff.mp ht with ⟨v, hw, -⟩ | ⟨v, hs, -⟩
    · exact ⟨v, by simpa using hw⟩
    · rw [hs, List.length_append] at hlen
      omega
  rcases hdot with rfl | rfl
  · have hmem : d ∈ title ++ ([] ++ (sp ++ (n ++ o))) := hv ▸ List.mem_append_right a (by simp)
    exact absurd (List.mem_append.mp hmem) (not_or.mpr ⟨hplain, hplain'⟩)
  · obtain ⟨rfl, rfl⟩ := prefix_of_unique hplain hplain' hv
    rfl

/-- What follows a sentence changes none of its names, but for a title that ends it. -/
theorem names_append {prev : Option UInt16} {s t : Text} (hs : Ended s) (hne : s ≠ [])
    (ht : wordAt t.head? = false) (hopen : openTitle prev s = false) :
    names prev (s ++ t) = names prev s := by
  have hrun : titledNameRe.run prev (s ++ t) = titledNameRe.run prev (s ++ []) := by
    refine run_append_eq (by simp [ht]) (fun w rest hw hm => ?_) fun w rest hw _ => ?_
    · by_contra hlen
      rw [openTitle_of_enters hs hm hw hne (by omega)] at hopen
      cases hopen
    · have hlen := congrArg List.length hw
      simp only [List.length_append, List.length_nil] at hlen
      omega
  rw [List.append_nil] at hrun
  rw [names, first, hrun, first]

/-- The dot tells the titles apart, also those of which one begins another. -/
theorem run_title {s : Regex} (hs : ∀ q t, s.run q (cu 's' :: t) = []) {title : Text}
    (htitle : title ∈ titles) (prev : Option UInt16) (t : Text) :
    (Regex.seq (oneOf [word "Mr", word "Mrs", word "Ms", word "Miss", word "Dr", word "Mx"]) s).run
      prev (title ++ cu '.' :: t) = (s.run (after prev title) (cu '.' :: t)).map (title ++ ·) := by
  generalize hre : oneOf [word "Mr", word "Mrs", word "Ms", word "Miss", word "Dr", word "Mx"] = re
  have hcons : (Regex.seq re s).run prev (title ++ cu '.' :: t) =
      (re.run prev (title ++ cu '.' :: t)).flatMap fun u =>
        (s.run (after prev u) ((title ++ cu '.' :: t).drop u.length)).map (u ++ ·) := rfl
  have alone (h : re.run prev (title ++ cu '.' :: t) = [title]) :
      (Regex.seq re s).run prev (title ++ cu '.' :: t) =
        (s.run (after prev title) (cu '.' :: t)).map (title ++ ·) := by
    rw [hcons, h, List.flatMap_singleton, List.drop_left]
  simp only [titles, List.map_cons, List.map_nil, List.mem_cons, List.not_mem_nil, or_false]
    at htitle
  subst hre
  rcases htitle with rfl | rfl | rfl | rfl | rfl | rfl
  · exact alone rfl
  · have hboth : (oneOf [word "Mr", word "Mrs", word "Ms", word "Miss", word "Dr", word "Mx"]).run
        prev ("Mrs".toList.map cu ++ cu '.' :: t) = [lit "Mr", "Mrs".toList.map cu] := rfl
    have hshort : s.run (after prev (lit "Mr"))
        (("Mrs".toList.map cu ++ cu '.' :: t).drop (lit "Mr").length) = [] := hs _ _
    rw [hcons, hboth, List.flatMap_cons, hshort, List.map_nil, List.nil_append,
      List.flatMap_singleton, List.drop_left]
  · exact alone rfl
  · exact alone rfl
  · exact alone rfl
  · exact alone rfl

/-- A title that ends a sentence makes a name with the words that open what follows. -/
theorem names_openTitle {prev : Option UInt16} {s t : Text} (hs : openTitle prev s = true)
    (ht : ∀ c ∈ t.head?, isSpace c = false) : names prev (s ++ cu ' ' :: t) =
      (nameTail.first none t).map fun n => (s ++ cu ' ' :: n.1, ()) := by
  obtain ⟨hprev, title, htitle, rfl⟩ := openTitle_iff.mp hs
  have hletter : ∀ title ∈ titles, wordAt title.head? = true := by decide
  have hhead : wordAt (title ++ lit "." ++ cu ' ' :: t).head? = true := by
    have hword := hletter title htitle
    cases title with
    | nil => cases hword
    | cons c title => exact hword
  have hspaces (q : Option UInt16) {c : UInt16} (x : Text) (hc : isSpace c = false) :
      (Regex.seq (plus space) nameTail).run q (c :: x) = [] := by
    rw [plus, run_seq_assoc, space, run_seq_unit, if_neg (by simp [hc])]
  have hdot (q : Option UInt16) (c : UInt16) (x : Text) :
      (Regex.seq (opt (char '.')) (.seq (plus space) nameTail)).run q (c :: x) =
        (if c == cu '.' then ((Regex.seq (plus space) nameTail).run (some c) x).map (c :: ·)
          else []) ++ (Regex.seq (plus space) nameTail).run q (c :: x) := by
    rw [opt, run_seq_alt, char, run_seq_unit, run_seq_empty]
  have hletter (q : Option UInt16) (x : Text) :
      (Regex.seq (opt (char '.')) (.seq (plus space) nameTail)).run q (cu 's' :: x) = [] := by
    rw [hdot, hspaces q x rfl]
    rfl
  have htext : title ++ lit "." ++ cu ' ' :: t = title ++ cu '.' :: cu ' ' :: t := by
    rw [List.append_assoc]
    rfl
  have hname : titledNameRe.run prev (title ++ lit "." ++ cu ' ' :: t) =
      ((Regex.seq (plus space) nameTail).run (some (cu '.')) (lit " " ++ t)).map
        (title ++ lit "." ++ ·) := by
    have hborder : wordAt prev != wordAt (title ++ lit "." ++ cu ' ' :: t).head? := by
      rw [hprev, hhead]
      rfl
    refine (run_seq_boundary _ prev _).trans ?_
    rw [if_pos hborder, htext]
    refine (run_title hletter htitle prev _).trans ?_
    have hend : isSpace (cu '.') = false := rfl
    rw [hdot, if_pos (beq_self_eq_true _), hspaces _ _ hend, List.append_nil, List.map_map]
    refine List.map_congr_left fun w _ => ?_
    simp
    rfl
  have hfirst := head_run_spaces wordFirst_nameTail (u := lit " ") (by decide) isSpace_blank ht
    (some (cu '.'))
  have hlooks : nameTail.looksBehind = false := rfl
  have hcontext : nameTail.run (after (some (cu '.')) (lit " ")) t = nameTail.run none t :=
    run_context hlooks (by rfl) t
  rw [names, first, hname, List.head?_map, hfirst, hcontext, first, Option.map_map, Option.map_map,
    Option.map_map]
  refine Option.map_congr fun w _ => ?_
  simp
  rfl

/-- In a sentence there is a title that ends it, or a name or nothing as in any other text. -/
theorem sentenceNames_cases {prev : Option UInt16} {s : Text} {x : Option (Text × Unit)}
    (h : sentenceNames prev s = x) :
    (openTitle prev s = true ∧ x = some (s, ())) ∨ (openTitle prev s = false ∧ names prev s = x) := by
  rw [sentenceNames] at h
  split at h
  · rename_i hopen
    exact .inl ⟨hopen, h.symm⟩
  · rename_i hopen
    exact .inr ⟨by simpa using hopen, h⟩

theorem sentenceNames_proper : sentenceNames.Proper where
  nonempty {prev t w g} h := by
    rcases sentenceNames_cases h with ⟨hopen, heq⟩ | ⟨-, hname⟩
    · obtain ⟨-, title, -, rfl⟩ := openTitle_iff.mp hopen
      obtain ⟨rfl, -⟩ := Prod.mk.inj (Option.some.inj heq)
      exact List.append_ne_nil_of_right_ne_nil title (List.cons_ne_nil _ _)
    · exact names_proper.nonempty hname
  reads {prev t w g} h := by
    rcases sentenceNames_cases h with ⟨-, heq⟩ | ⟨-, hname⟩
    · obtain ⟨rfl, -⟩ := Prod.mk.inj (Option.some.inj heq)
      exact ⟨[], by simp⟩
    · exact names_proper.reads hname

theorem sentenceNames_plain {prev : Option UInt16} {s : Text} (h : sentenceNames prev s = none) :
    openTitle prev s = false ∧ names prev s = none := by
  rcases sentenceNames_cases h with ⟨-, heq⟩ | hplain
  · cases heq
  · exact hplain

/-- A title that ends the sentence is all there is. -/
theorem sentenceNames_hit {prev : Option UInt16} {w s : Text} {g : Unit}
    (h : sentenceNames prev (w ++ s) = some (w, g)) :
    (openTitle prev w = true ∧ s = []) ∨
      (openTitle prev (w ++ s) = false ∧ names prev (w ++ s) = some (w, g)) := by
  rcases sentenceNames_cases h with ⟨hopen, heq⟩ | hname
  · obtain ⟨hw, -⟩ := Prod.mk.inj (Option.some.inj heq)
    obtain rfl : s = [] := by simpa using hw
    exact .inl ⟨by simpa using hopen, rfl⟩
  · exact .inr hname

theorem name_not_dot {prev : Option UInt16} {t w : Text} {g : Unit}
    (h : names prev t = some (w, g)) : (w.getLast? == some (cu '.')) = false := by
  obtain ⟨rest, -, hm⟩ := match_of_names h
  obtain ⟨a, l, rfl, hl⟩ := name_ends hm
  have hne : l ≠ cu '.' := by
    rintro rfl
    cases hl
  simpa using hne

theorem endsInTitle_plain (c : UInt16) (toks : List (Token Unit)) :
    endsInTitle (.plain c :: toks) = endsInTitle toks := by
  rw [endsInTitle, endsInTitle, List.getLast?_cons]
  cases toks.getLast? <;> rfl

theorem endsInTitle_hit {w : Text} (hw : (w.getLast? == some (cu '.')) = false)
    (toks : List (Token Unit)) : endsInTitle (.hit w () :: toks) = endsInTitle toks := by
  rw [endsInTitle, endsInTitle, List.getLast?_cons]
  cases toks.getLast? with
  | some tok => rfl
  | none => simpa using hw

theorem idle_openTitle {prev : Option UInt16} {s t : Text} (hs : openTitle prev s = true)
    (h : names prev (s ++ t) = none) : Idle names prev s t := by
  obtain ⟨-, title, htitle, rfl⟩ := openTitle_iff.mp hs
  have hlow : ∀ title ∈ titles, (title ++ lit ".").tail.all (fun c => !isUpper c) = true := by decide
  have hlow' := List.all_eq_true.mp (hlow title htitle)
  generalize title ++ lit "." = s at h hlow'
  cases s with
  | nil => exact Along.nil
  | cons c s =>
    refine Along.cons h fun a b hab hb => names_eq_none.mpr (Bool.eq_false_iff.mpr fun hstart => ?_)
    obtain ⟨-, u, l, x, hx, hu, -⟩ := name_opening hstart
    obtain ⟨d, b, rfl⟩ := List.exists_cons_of_ne_nil hb
    obtain ⟨rfl, -⟩ := List.cons.inj hx
    have hmem : d ∈ (c :: s).tail := by simp [hab]
    simpa [hu] using hlow' d hmem

theorem endsInTitle_openTitle {prev : Option UInt16} {s : Text} (hs : openTitle prev s = true)
    (g : Unit) : endsInTitle [.hit s g] = true := by
  obtain ⟨-, title, -, rfl⟩ := openTitle_iff.mp hs
  have hlast : (title ++ lit ".").getLast? = some (cu '.') := List.getLast?_concat
  rw [endsInTitle, List.getLast?_singleton, Option.any_some]
  exact beq_iff_eq.mpr hlast

theorem names_title_alone {prev : Option UInt16} {s : Text} (hs : openTitle prev s = true) :
    names prev s = none := by
  obtain ⟨hprev, title, htitle, rfl⟩ := openTitle_iff.mp hs
  have halone : ∀ title ∈ titles, (names none (title ++ lit ".")).isNone = true := by decide
  have hborder : names prev (title ++ lit ".") = names none (title ++ lit ".") :=
    names_bordered _ hprev
  rw [hborder]
  exact Option.isNone_iff_eq_none.mp (halone title htitle)

/-- A sentence with no name that goes on behind it. -/
theorem tokens_apart {t : Text} (ht : ∀ c ∈ t.head?, isSpace c = false) (prev : Option UInt16)
    (s : Text) (hs : Ended s) (h : endsInTitle (tokens sentenceNames prev s) = false ∨
      nameTail.first none t = none) :
    tokens names prev (s ++ cu ' ' :: t) =
      tokens names prev s ++ tokens names (after prev s) (cu ' ' :: t) := by
  have hspace : wordAt (cu ' ' :: t).head? = false := rfl
  refine sentenceNames_proper.induction (motive := fun prev s => Ended s →
    (endsInTitle (tokens sentenceNames prev s) = false ∨ nameTail.first none t = none) →
      tokens names prev (s ++ cu ' ' :: t) =
        tokens names prev s ++ tokens names (after prev s) (cu ' ' :: t)) ?_ ?_ ?_ prev s hs h
  · exact fun _ _ _ => rfl
  · intro prev c s hplain ih hs h
    rw [tokens_plain hplain, endsInTitle_plain] at h
    obtain ⟨hopen, hnone⟩ := sentenceNames_plain hplain
    have hnone' := names_append hs (by simp) hspace hopen
    rw [hnone, List.cons_append] at hnone'
    rw [List.cons_append, tokens_plain hnone', tokens_plain hnone,
      ih (Ended.tail (u := [c]) hs) h]
    rfl
  · intro prev w s g hw hhit ih hs h
    rw [tokens_hit hw hhit] at h
    rcases sentenceNames_hit hhit with ⟨hopen, rfl⟩ | ⟨hopen, hname⟩
    · rw [List.append_nil]
      -- the title takes the rest of the sentence, and nothing behind it makes it a name
      have hnone : nameTail.first none t = none := by
        rw [tokens_nil, endsInTitle_openTitle hopen] at h
        exact h.resolve_left Bool.noConfusion
      have hjoined : names prev (w ++ cu ' ' :: t) = none := by
        rw [names_openTitle hopen ht, hnone, Option.map_none]
      have halone := tokens_idle (idle_openTitle (t := []) hopen
        (by rw [List.append_nil, names_title_alone hopen]))
      rw [List.append_nil, tokens_nil, List.append_nil] at halone
      rw [tokens_idle (idle_openTitle hopen hjoined), halone]
    · have hname' := names_append hs (by simp [hw]) hspace hopen
      rw [hname, List.append_assoc] at hname'
      rw [endsInTitle_hit (name_not_dot hname)] at h
      rw [List.append_assoc, tokens_hit hw hname', tokens_hit hw hname, ih hs.tail h, after_append]
      rfl

/-- A sentence with a title at its end that makes a name with what follows. -/
theorem tokens_shared {t n : Text} (ht : ∀ c ∈ (n ++ t).head?, isSpace c = false) {g : Unit}
    (hn : nameTail.first none (n ++ t) = some (n, g)) (prev : Option UInt16) (s : Text)
    (hs : Ended s) (h : endsInTitle (tokens sentenceNames prev s) = true) :
    ∃ toks w w', tokens sentenceNames prev s = toks ++ [.hit w ()] ∧
      tokens names prev (s ++ cu ' ' :: (n ++ t)) =
        toks ++ .hit w' () :: tokens names (after none n) t := by
  have hspace : wordAt (cu ' ' :: (n ++ t)).head? = false := rfl
  refine sentenceNames_proper.induction (motive := fun prev s => Ended s →
    endsInTitle (tokens sentenceNames prev s) = true →
      ∃ toks w w', tokens sentenceNames prev s = toks ++ [.hit w ()] ∧
        tokens names prev (s ++ cu ' ' :: (n ++ t)) =
          toks ++ .hit w' () :: tokens names (after none n) t) ?_ ?_ ?_ prev s hs h
  · exact fun _ _ h => (by cases h)
  · intro prev c s hplain ih hs h
    rw [tokens_plain hplain, endsInTitle_plain] at h
    obtain ⟨toks, w, w', htoks, htoks'⟩ := ih (Ended.tail (u := [c]) hs) h
    rw [tokens_plain hplain, htoks]
    obtain ⟨hopen, hnone⟩ := sentenceNames_plain hplain
    have hnone' := names_append hs (by simp) hspace hopen
    rw [hnone, List.cons_append] at hnone'
    refine ⟨.plain c :: toks, w, w', rfl, ?_⟩
    rw [List.cons_append, tokens_plain hnone', htoks']
    rfl
  · intro prev w s g' hw hhit ih hs h
    rw [tokens_hit hw hhit] at h ⊢
    rcases sentenceNames_hit hhit with ⟨hopen, rfl⟩ | ⟨hopen, hname⟩
    · rw [List.append_nil]
      have hne : n ≠ [] := (first_proper (r := nameTail) rfl).nonempty hn
      have hhit' : names prev ((w ++ cu ' ' :: n) ++ t) = some (w ++ cu ' ' :: n, ()) := by
        rw [List.append_assoc, List.cons_append, names_openTitle hopen ht, hn, Option.map_some]
      have htokens := tokens_hit (by simp) hhit'
      rw [List.append_assoc, List.cons_append, after_append, after_cons,
        after_of_ne_nil (some (cu ' ')) none hne] at htokens
      exact ⟨[], w, w ++ cu ' ' :: n, rfl, htokens⟩
    · have hname' := names_append hs (by simp [hw]) hspace hopen
      rw [hname, List.append_assoc] at hname'
      rw [endsInTitle_hit (name_not_dot hname)] at h
      obtain ⟨toks, v, v', htoks, htoks'⟩ := ih hs.tail h
      refine ⟨.hit w g' :: toks, v, v', by rw [htoks]; rfl, ?_⟩
      rw [List.append_assoc, tokens_hit hw hname', htoks']
      rfl

/-! Searching the stretches. -/

/-- An expression that keeps to one sentence and starts with no white space, as a pattern does
with any white space for its blanks. -/
structure PhraseRe (r : Regex) : Prop where
  looks : r.looksBehind = false
  nonempty : r.nullable = false
  terminator {u} : isTerminator u = true → r.rejects u = true
  wordFirst : r.WordFirst

theorem InstructionRe.phraseRe {r : Regex} (hr : InstructionRe r) (hs : Spaced true r true) :
    PhraseRe (loosen r) where
  looks := by rw [looksBehind_loosen, hr.looks]
  nonempty := by rw [nullable_loosen, hr.nonempty]
  terminator {u} hu := by
    have hspace : isSpace u = false := Bool.eq_false_iff.mpr fun h => by
      rw [space_not_terminator h] at hu
      cases hu
    exact rejects_loosen hspace (hr.terminator hu)
  wordFirst := hs.wordFirst_loosen hr.wordFirst

theorem PhraseRe.test_space {r : Regex} (hr : PhraseRe r) (prev : Option UInt16) (x : Text) :
    testFrom r prev (cu ' ' :: x) = r.test x := by
  have hstart := hr.wordFirst prev (cu ' ') x rfl
  rw [startsWith] at hstart
  have hborder : wordAt (some (cu ' ')) = wordAt none := rfl
  rw [testFrom, hstart, Bool.false_or, testFrom_context hr.looks hborder, test]

/-- Nothing is found across a sentence end. -/
theorem PhraseRe.test_ended {r : Regex} (hr : PhraseRe r) {x : Text} (hx : Ended x) (y : Text) :
    r.test (x ++ cu ' ' :: y) = (r.test x || r.test y) := by
  rcases List.eq_nil_or_concat' x with rfl | ⟨x, d, rfl⟩
  · have hnil : r.test [] = false := testFrom_nil hr.nonempty none
    rw [List.nil_append, test, hr.test_space, hnil, Bool.false_or]
  · have hd : isTerminator d = true := hx d (by simp)
    have hword : isWord d = false := by
      simp only [isTerminator, Bool.or_eq_true, beq_iff_eq] at hd
      rcases hd with (rfl | rfl) | rfl <;> rfl
    have hrejects := hr.terminator hd
    rw [List.append_assoc, List.singleton_append, test, test,
      testFrom_append_of_rejects hr.nonempty hrejects hword,
      testFrom_append_of_rejects hr.nonempty hrejects hword, testFrom_nil hr.nonempty,
      Bool.or_false, hr.test_space]

/-- Whether the expression matches in a stretch between the names. -/
def found (r : Regex) (prev : Option UInt16) (t : Text) : Bool :=
  (lead names prev t :: rests names prev t).any r.test

theorem found_apart {r : Regex} (hr : PhraseRe r) {t : Text}
    (ht : ∀ c ∈ t.head?, isSpace c = false) {prev : Option UInt16} {s : Text} (hs : Ended s)
    (h : endsInTitle (tokens sentenceNames prev s) = false ∨ nameTail.first none t = none) :
    found r prev (s ++ cu ' ' :: t) =
      ((lead names prev s :: rests names prev s).any r.test || found r none t) := by
  have hspace : names (after prev s) (cu ' ' :: t) = none :=
    names_eq_none.mpr (wordFirst_titledName _ _ t rfl)
  have hborder : wordAt (some (cu ' ')) = wordAt none := rfl
  obtain ⟨ps, x, hps, hps'⟩ := cut_append (tokens names prev s)
    (tokens names (after prev s) (cu ' ' :: t))
  have hlead : (cut (tokens names (after prev s) (cu ' ' :: t))).1 =
      cu ' ' :: lead names none t := by
    rw [← lead_context names_bordered hborder, ← lead_plain hspace, lead]
  have hrests : (cut (tokens names (after prev s) (cu ' ' :: t))).2 = rests names none t := by
    rw [← rests_context names_bordered hborder, ← rests_plain hspace, rests]
  have hx : Ended x := by
    obtain ⟨y, rfl⟩ := last_stretch names_proper prev s hps
    exact hs.tail
  rw [← tokens_apart ht prev s hs h, hlead, hrests] at hps'
  have hown : (lead names prev s :: rests names prev s).any r.test = (ps ++ [x]).any r.test :=
    congrArg (·.any r.test) hps
  have hall : found r prev (s ++ cu ' ' :: t) =
      (ps ++ (x ++ cu ' ' :: lead names none t) :: rests names none t).any r.test :=
    congrArg (·.any r.test) hps'
  rw [hall, hown, found, List.any_append, List.any_cons, hr.test_ended hx]
  simp [Bool.or_assoc]

theorem found_shared {r : Regex} (hr : PhraseRe r) {t n : Text} {g : Unit}
    (ht : ∀ c ∈ (n ++ t).head?, isSpace c = false)
    (hn : nameTail.first none (n ++ t) = some (n, g)) {prev : Option UInt16} {s : Text}
    (hs : Ended s) (h : endsInTitle (tokens sentenceNames prev s) = true) :
    found r prev (s ++ cu ' ' :: (n ++ t)) =
      ((lead sentenceNames prev s :: rests sentenceNames prev s).any r.test ||
        found r (after none n) t) := by
  obtain ⟨toks, w, w', htoks, htoks'⟩ := tokens_shared ht hn prev s hs h
  obtain ⟨ps, x, hps, hps'⟩ := cut_append toks [Token.hit w ()]
  obtain ⟨qs, y, hqs, hqs'⟩ := cut_append toks
    (Token.hit w' () :: tokens names (after none n) t)
  obtain ⟨rfl, hxy⟩ := List.append_inj' (hps.symm.trans hqs) rfl
  obtain rfl := (List.cons.inj hxy).1
  have hnil : r.test [] = false := testFrom_nil hr.nonempty none
  rw [found, lead, rests, htoks', hqs', lead, rests, htoks, hps', found]
  simp [cut, hnil, lead, rests, Bool.or_assoc]

theorem rejects_nameTail {d : UInt16} (hd : isTerminator d = true) : nameTail.rejects d = true := by
  simp only [isTerminator, Bool.or_eq_true, beq_iff_eq] at hd
  rcases hd with (rfl | rfl) | rfl <;> rfl

/-- The name that opens a sentence does not go on behind the sentence. -/
theorem first_nameTail {s : Text} (hs : Ended s) (hne : s ≠ []) (t : Text) :
    nameTail.first none (s ++ t) = nameTail.first none s := by
  obtain ⟨a, d, rfl⟩ := (List.eq_nil_or_concat' s).resolve_left hne
  have hd : nameTail.rejects d = true := rejects_nameTail (hs d (by simp))
  have hstop (y : Text) : nameTail.Stops (d :: y) := by simpa [Stops] using hd
  have hrun := run_stop (hstop t) (hstop []) rfl none a
  rw [List.append_assoc, List.singleton_append, first, first, hrun]

/-- What is found in the stretches of a row of sentences is found in the sentences joined. -/
theorem any_stretchesFrom {r : Regex} (hr : PhraseRe r) (more : List Text) {s : Text}
    (prev : Option UInt16) (hs : more ≠ [] → Ended s)
    (hhead : ∀ s' ∈ more, ∀ c ∈ s'.head?, isSpace c = false) (hmore : more.Pairwise Follows) :
    (stretchesFrom prev s more).any r.test = found r prev (join (lit " ") (s :: more)) := by
  induction more generalizing s prev with
  | nil => rw [join_singleton, stretchesFrom, found]
  | cons next more ih =>
    have hend : Ended s := hs (List.cons_ne_nil _ _)
    have hnext : more ≠ [] → Ended next ∧ next ≠ [] := by
      intro hne
      obtain ⟨s', hs'⟩ := List.exists_mem_of_ne_nil more hne
      obtain ⟨h, hne', -⟩ := (List.pairwise_cons.mp hmore).1 s' hs'
      exact ⟨h, hne'⟩
    have hspace : ∀ c ∈ (join (lit " ") (next :: more)).head?, isSpace c = false := by
      cases more with
      | nil =>
        rw [join_singleton]
        exact hhead next (by simp)
      | cons s' more =>
        have hne := (hnext (List.cons_ne_nil _ _)).2
        rw [join_cons (List.cons_ne_nil _ _), List.append_assoc, List.head?_append_of_ne_nil _ hne]
        exact hhead next (by simp)
    have hname : nameTail.first none (join (lit " ") (next :: more)) =
        nameTail.first none next := by
      cases more with
      | nil => rw [join_singleton]
      | cons s' more =>
        obtain ⟨hends, hne⟩ := hnext (List.cons_ne_nil _ _)
        rw [join_cons (List.cons_ne_nil _ _), List.append_assoc, first_nameTail hends hne]
    have hjoin : join (lit " ") (s :: next :: more) =
        s ++ cu ' ' :: join (lit " ") (next :: more) := by
      rw [join_cons (List.cons_ne_nil _ _), List.append_assoc]
      rfl
    have hrest := (List.pairwise_cons.mp hmore).2
    have hhead' : ∀ s' ∈ more, ∀ c ∈ s'.head?, isSpace c = false :=
      fun s' hs' => hhead s' (List.mem_cons_of_mem _ hs')
    rw [stretchesFrom, hjoin]
    split
    · rename_i n g htaken
      split at htaken
      · rename_i htitle
        obtain ⟨x, rfl⟩ := (first_proper (r := nameTail) rfl).reads htaken
        rw [← hname, join_head_append] at htaken
        rw [join_head_append] at hspace ⊢
        have hx : more ≠ [] → Ended x := fun hne => (hnext hne).1.tail
        rw [List.any_cons, List.any_append, List.drop_left, ih (after none n) hx hhead' hrest,
          found_shared hr hspace htaken hend htitle, List.any_cons, Bool.or_assoc]
      · cases htaken
    · rename_i hnone
      have hapart : endsInTitle (tokens sentenceNames prev s) = false ∨
          nameTail.first none (join (lit " ") (next :: more)) = none := by
        rw [hname]
        split at hnone
        · exact .inr hnone
        · rename_i htitle
          exact .inl (by simpa using htitle)
      rw [List.any_cons, List.any_append, ih none (fun hne => (hnext hne).1) hhead' hrest,
        found_apart hr hspace hend hapart, List.any_cons, Bool.or_assoc]

/-- What is found in the stretches of the kept sentences is found in the kept sentences joined. -/
theorem any_stretches {r : Regex} (hr : PhraseRe r) (t : Text) :
    (stretches (keptSentences t)).any r.test =
      outsideNames r (join (lit " ") (keptSentences t)) := by
  have hfollow : (keptSentences t).Pairwise Follows := (sentences_follow t).filter _
  cases hkept : keptSentences t with
  | nil =>
    have hnil : r.test [] = false := testFrom_nil hr.nonempty none
    simp [stretches, outsideNames, pieces_eq, join, hnil]
  | cons s more =>
    rw [hkept] at hfollow
    obtain ⟨hfirst, hmore⟩ := List.pairwise_cons.mp hfollow
    refine any_stretchesFrom hr more none (fun hne => ?_) (fun s' hs' => (hfirst s' hs').2.2) hmore
    obtain ⟨s', hs'⟩ := List.exists_mem_of_ne_nil more hne
    exact (hfirst s' hs').1

example : stretches [lit "See Mr.", lit "AbYou must pay."] =
    [lit "See ", [], lit "You must pay."] := by decide

end StormReview
