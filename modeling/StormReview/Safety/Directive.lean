import StormReview.Js.Runs
import StormReview.Guards.ScopeGuard

/-! scopeGuard warns of a directive exactly when one sentence has its words in order. -/
namespace StormReview
open Js Zod Regex

def isStop (u : UInt16) : Bool := u == cu '.' || u == cu '?' || u == cu '!'

def isGap (u : UInt16) : Bool := !isWord u

def directiveVerbs : List Text :=
  [lit "recommend", lit "advise", lit "instruct", lit "direct", lit "hereby"]

def refusalVerbs : List Text := [lit "decline", lit "reject", lit "refuse"]

/-- One sentence has a verb of direction, then a refusal, then the claim, as whole words. -/
def Directive (t : Text) : Prop :=
  ∃ s ∈ t.splitOnP isStop, ∃ verb ∈ directiveVerbs, ∃ refusal ∈ refusalVerbs,
    [verb, refusal, lit "claim"].Sublist ((runs isGap s).map (·.map foldCase))

instance : DecidablePred Directive := fun t => inferInstanceAs (Decidable
  (∃ s ∈ t.splitOnP isStop, ∃ verb ∈ directiveVerbs, ∃ refusal ∈ refusalVerbs,
    [verb, refusal, lit "claim"].Sublist ((runs isGap s).map (·.map foldCase))))

/-! Words under the i flag. -/

/-- The expression matches exactly these words, whatever their case. -/
structure Spells (r : Regex) (ws : List Text) : Prop where
  iff : ∀ {prev w rest}, Match r prev w rest ↔ w.map foldCase ∈ ws
  word : ∀ w ∈ ws, w ≠ [] ∧ w.all isWord = true

theorem Spells.ne_nil {r : Regex} {ws : List Text} (hr : Spells r ws) {w : Text}
    (hw : w.map foldCase ∈ ws) : w ≠ [] := by
  simpa using (hr.word _ hw).1

theorem Spells.isWord {r : Regex} {ws : List Text} (hr : Spells r ws) {w : Text}
    (hw : w.map foldCase ∈ ws) : ∀ c ∈ w, isWord c = true := by
  have hall := (hr.word _ hw).2
  rw [List.all_map] at hall
  intro c hc
  simpa [isWord_foldCase] using List.all_eq_true.mp hall c hc

theorem spells_oneOf (ss : List String) {ws : List Text}
    (hws : ws = ss.map fun s => s.toList.map fun c => foldCase (cu c))
    (hword : ∀ w ∈ ws, w ≠ [] ∧ w.all isWord = true) : Spells (oneOf (ss.map wordI)) ws where
  iff := by simp [match_oneOf, match_wordI, hws, eq_comm]
  word := hword

theorem spells_directive : Spells (oneOf [wordI "recommend", wordI "advise", wordI "instruct",
    wordI "direct", wordI "hereby"]) directiveVerbs :=
  spells_oneOf ["recommend", "advise", "instruct", "direct", "hereby"] (by decide) (by decide)

theorem spells_refusal :
    Spells (oneOf [wordI "decline", wordI "reject", wordI "refuse"]) refusalVerbs :=
  spells_oneOf ["decline", "reject", "refuse"] (by decide) (by decide)

theorem spells_claim : Spells (wordI "claim") [lit "claim"] :=
  spells_oneOf ["claim"] (by decide) (by decide)

/-! The directive expression, stage by stage. -/

/-- What may stand between two words of one sentence. -/
structure Gap (g : Text) : Prop where
  ne_nil : g ≠ []
  inSentence : ∀ c ∈ g, isStop c = false
  opens : wordAt g.head? = false
  closes : wordAt g.getLast? = false

section stages
variable {r k : Regex} {ws : List Text} {prev : Option UInt16} {u w rest : Text}

theorem Spells.wordAt_head (hr : Spells r ws) (hu : u.map foldCase ∈ ws) (t : Text) :
    wordAt (u ++ t).head? = true := by
  obtain ⟨c, v, rfl⟩ := List.exists_cons_of_ne_nil (hr.ne_nil hu)
  exact hr.isWord hu c (by simp)

theorem Spells.wordAt_last (hr : Spells r ws) (hu : u.map foldCase ∈ ws) :
    wordAt u.getLast? = true := by
  rcases List.eq_nil_or_concat' u with rfl | ⟨v, c, rfl⟩
  · exact absurd rfl (hr.ne_nil hu)
  · rw [List.getLast?_concat]
    exact hr.isWord hu c (by simp)

/-- A word and what comes behind it. -/
theorem match_spells (hr : Spells r ws) : Match (.seq r k) prev w rest ↔
    ∃ u v, w = u ++ v ∧ u.map foldCase ∈ ws ∧ Match k (u.getLast?) v rest := by
  rw [match_seq]
  constructor
  · rintro ⟨u, v, rfl, hu, hk⟩
    have hmem := hr.iff.mp hu
    exact ⟨u, v, rfl, hmem, by rwa [← after_eq_getLast prev (hr.ne_nil hmem)]⟩
  · rintro ⟨u, v, rfl, hmem, hk⟩
    exact ⟨u, v, rfl, hr.iff.mpr hmem, by rwa [after_eq_getLast prev (hr.ne_nil hmem)]⟩

/-- From the end of a word to the end of the next one. -/
theorem match_gap (hr : Spells r ws) (hp : wordAt prev = true) :
    Match (.seq .boundary (.seq (.star inSentence) (.seq .boundary (.seq r k)))) prev w rest ↔
      ∃ g u v, w = g ++ (u ++ v) ∧ Gap g ∧ u.map foldCase ∈ ws ∧ Match k u.getLast? v rest := by
  have hstops {g : Text} : (∀ c ∈ g, (!(c == cu '.' || c == cu '?' || c == cu '!')) = true) ↔
      ∀ c ∈ g, isStop c = false := by simp only [isStop, Bool.not_eq_true']
  rw [match_seq_boundary, match_seq, hp]
  constructor
  · rintro ⟨hopens, g, t, rfl, hg, hk⟩
    obtain ⟨hcloses, hk⟩ := match_seq_boundary.mp hk
    obtain ⟨u, v, rfl, hu, hk⟩ := (match_spells hr).mp hk
    rw [List.append_assoc, hr.wordAt_head hu] at hcloses
    have hne : g ≠ [] := by
      rintro rfl
      exact hcloses hp
    rw [List.append_assoc, List.head?_append_of_ne_nil _ hne] at hopens
    rw [after_eq_getLast prev hne] at hcloses
    exact ⟨g, u, v, rfl, ⟨hne, hstops.mp (match_star_unit.mp hg), by simpa using hopens,
      by simpa using hcloses⟩, hu, hk⟩
  · rintro ⟨g, u, v, rfl, hg, hu, hk⟩
    have hopens : wordAt (g ++ (u ++ v) ++ rest).head? = false := by
      rw [List.append_assoc, List.head?_append_of_ne_nil _ hg.ne_nil, hg.opens]
    have hcloses : wordAt (after prev g) = false := by
      rw [after_eq_getLast prev hg.ne_nil, hg.closes]
    have hborder : wordAt (after prev g) ≠ wordAt (u ++ v ++ rest).head? := by
      rw [List.append_assoc, hr.wordAt_head hu, hcloses]
      decide
    refine ⟨by rw [hopens]; decide, g, u ++ v, rfl,
      match_star_unit.mpr (hstops.mpr hg.inSentence), ?_⟩
    exact match_seq_boundary.mpr ⟨hborder, (match_spells hr).mpr ⟨u, v, rfl, hu, hk⟩⟩

end stages

/-- The words of a directive in place: `before` and `behind` are what surrounds them. -/
structure Spread (t before verb gap refusal gap' claim behind : Text) : Prop where
  eq : t = before ++ (verb ++ (gap ++ (refusal ++ (gap' ++ (claim ++ behind)))))
  left : wordAt before.getLast? = false
  verb : verb.map foldCase ∈ directiveVerbs
  gap : Gap gap
  refusal : refusal.map foldCase ∈ refusalVerbs
  gap' : Gap gap'
  claim : claim.map foldCase ∈ [lit "claim"]
  right : wordAt behind.head? = false

theorem spread_of_match {a m b : Text} (hm : Match actionDirectiveRe (after none a) m b) :
    ∃ a' u g v h w, Spread (a ++ (m ++ b)) a' u g v h w b := by
  obtain ⟨hborder, hm⟩ := match_seq_boundary.mp hm
  obtain ⟨q, n, rfl, hq, hm⟩ := match_seq.mp hm
  obtain ⟨u, n, rfl, hu, hm⟩ := (match_spells spells_directive).mp hm
  have hverb := spells_directive.wordAt_last hu
  obtain ⟨g, v, n, rfl, hg, hv, hm⟩ := (match_gap spells_refusal hverb).mp hm
  have hrefusal := spells_refusal.wordAt_last hv
  obtain ⟨h, w, n, rfl, hh, hw, hm⟩ := (match_gap spells_claim hrefusal).mp hm
  obtain ⟨rfl, hright⟩ := match_boundary.mp hm
  rw [spells_claim.wordAt_last hw] at hright
  refine ⟨a ++ q, u, g, v, h, w, by simp, ?_, hu, hg, hv, hh, hw, by simpa using hright⟩
  rcases match_opt.mp hq with hq | rfl
  · -- the subject `i` ends in the space before the verb
    obtain ⟨i, s, rfl, -, hs⟩ := match_seq.mp hq
    obtain ⟨hne, hspaces⟩ := match_plus_unit.mp hs
    rcases List.eq_nil_or_concat' s with rfl | ⟨s, c, rfl⟩
    · exact absurd rfl hne
    · have hc : isWord c = false := isWord_eq_false_of_isSpace (hspaces c (by simp))
      simpa [← List.append_assoc] using hc
  · rw [List.nil_append, List.append_assoc, spells_directive.wordAt_head hu,
      after_none] at hborder
    simpa using hborder

theorem match_of_spread {t a u g v h w b : Text} (s : Spread t a u g v h w b) :
    Match actionDirectiveRe (after none a) (u ++ (g ++ (v ++ (h ++ (w ++ []))))) b := by
  have hclaim : Match .boundary w.getLast? [] b :=
    .boundary (by simp [spells_claim.wordAt_last s.claim, s.right])
  have hrefusal := (match_gap spells_claim (spells_refusal.wordAt_last s.refusal)).mpr
    ⟨h, w, [], rfl, s.gap', s.claim, hclaim⟩
  have hverb := (match_gap spells_refusal (spells_directive.wordAt_last s.verb)).mpr
    ⟨g, v, _, rfl, s.gap, s.refusal, hrefusal⟩
  rw [after_none]
  apply match_seq_boundary.mpr
  constructor
  · rw [List.append_assoc, spells_directive.wordAt_head s.verb, s.left]
    decide
  · -- the subject is optional
    apply Match.seq (u := []) (.altR .empty)
    exact (match_spells spells_directive).mpr ⟨u, _, rfl, s.verb, hverb⟩

theorem test_actionDirectiveRe (t : Text) : actionDirectiveRe.test t = true ↔
    ∃ a u g v h w b, Spread t a u g v h w b := by
  rw [test, testFrom_iff]
  constructor
  · rintro ⟨a, m, b, rfl, hm⟩
    obtain ⟨a', u, g, v, h, w, s⟩ := spread_of_match hm
    exact ⟨a', u, g, v, h, w, b, s⟩
  · rintro ⟨a, u, g, v, h, w, b, s⟩
    exact ⟨a, _, b, by simp [s.eq], match_of_spread s⟩

/-! The same places, found by cutting the text at the sentence ends and each sentence between
its words. -/

theorem isWord_eq_false_of_isStop {c : UInt16} (h : isStop c = true) : isWord c = false := by
  simp only [isStop, Bool.or_eq_true, beq_iff_eq] at h
  rcases h with (rfl | rfl) | rfl <;> decide

theorem isStop_eq_false_of_isWord {c : UInt16} (h : isWord c = true) : isStop c = false := by
  apply Bool.eq_false_iff.mpr
  intro hstop
  rw [isWord_eq_false_of_isStop hstop] at h
  cases h

theorem wordAt_eq_false_iff {o : Option UInt16} :
    wordAt o = false ↔ ∀ c ∈ o, isGap c = true := by
  cases o <;> simp [isGap]

theorem wordAt_getLast_append {x y : Text} (hx : ∀ c ∈ x.getLast?, isStop c = true)
    (hy : ∀ c ∈ y.getLast?, isGap c = true) : wordAt (x ++ y).getLast? = false := by
  apply wordAt_eq_false_iff.mpr
  intro c hc
  rcases List.eq_nil_or_concat' y with rfl | ⟨y, d, rfl⟩
  · rw [List.append_nil] at hc
    simp [isGap, isWord_eq_false_of_isStop (hx c hc)]
  · apply hy
    simpa [← List.append_assoc] using hc

theorem wordAt_head_append {x y : Text} (hx : ∀ c ∈ x.head?, isGap c = true)
    (hy : ∀ c ∈ y.head?, isStop c = true) : wordAt (x ++ y).head? = false := by
  apply wordAt_eq_false_iff.mpr
  intro c hc
  cases x with
  | nil => simp [isGap, isWord_eq_false_of_isStop (hy c hc)]
  | cons d x => exact hx c hc

theorem getLast_of_append {x y : Text} (h : wordAt (x ++ y).getLast? = false) :
    ∀ c ∈ y.getLast?, isGap c = true := by
  rcases List.eq_nil_or_concat' y with rfl | ⟨y, d, rfl⟩
  · simp
  · apply wordAt_eq_false_iff.mp
    simpa [← List.append_assoc] using h

theorem head_of_append {x y : Text} (h : wordAt (x ++ y).head? = false) :
    ∀ c ∈ x.head?, isGap c = true := by
  cases x with
  | nil => simp
  | cons d x => exact wordAt_eq_false_iff.mp h

/-- Between two whole words of one sentence there is a gap. -/
theorem gap_of_stands {a u g v b : Text} (hu : Stands isGap a u (g ++ v ++ b))
    (hv : Stands isGap g v b) (hg : ∀ c ∈ g, isStop c = false) : Gap g := by
  have hne : g ≠ [] := by
    rintro rfl
    obtain ⟨c, v, rfl⟩ := List.exists_cons_of_ne_nil hv.ne_nil
    have hgap : isGap c = true := hu.right c rfl
    rw [hv.free c (by simp)] at hgap
    cases hgap
  have hopens := hu.right
  rw [List.append_assoc, List.head?_append_of_ne_nil _ hne] at hopens
  exact ⟨hne, hg, wordAt_eq_false_iff.mpr hopens, wordAt_eq_false_iff.mpr hv.left⟩

theorem Spells.stands {r : Regex} {ws : List Text} (hr : Spells r ws) {a u b : Text}
    (hu : u.map foldCase ∈ ws) (ha : ∀ c ∈ a.getLast?, isGap c = true)
    (hb : ∀ c ∈ b.head?, isGap c = true) : Stands isGap a u b where
  ne_nil := hr.ne_nil hu
  free c hc := by simp [isGap, hr.isWord hu c hc]
  left := ha
  right := hb

theorem Gap.left {g : Text} (hg : Gap g) : ∀ c ∈ g.getLast?, isGap c = true :=
  wordAt_eq_false_iff.mp hg.closes

theorem Gap.right {g : Text} (hg : Gap g) (t : Text) : ∀ c ∈ (g ++ t).head?, isGap c = true := by
  rw [List.head?_append_of_ne_nil _ hg.ne_nil]
  exact wordAt_eq_false_iff.mp hg.opens

theorem directive_of_spread {t a u g v h w b : Text} (s : Spread t a u g v h w b) :
    Directive t := by
  have hfree : ∀ c ∈ u ++ (g ++ (v ++ (h ++ w))), isStop c = false := by
    intro c hc
    simp only [List.mem_append] at hc
    rcases hc with hc | hc | hc | hc | hc
    · exact isStop_eq_false_of_isWord (spells_directive.isWord s.verb c hc)
    · exact s.gap.inSentence c hc
    · exact isStop_eq_false_of_isWord (spells_refusal.isWord s.refusal c hc)
    · exact s.gap'.inSentence c hc
    · exact isStop_eq_false_of_isWord (spells_claim.isWord s.claim c hc)
  obtain ⟨a₁, a₂, b₁, b₂, rfl, rfl, hmem⟩ := exists_mem_splitOnP a _ b hfree
  have ht : t = a₁ ++ a₂ ++ (u ++ (g ++ (v ++ (h ++ w)))) ++ (b₁ ++ b₂) := by simp [s.eq]
  rw [← ht] at hmem
  refine ⟨_, hmem, u.map foldCase, s.verb, v.map foldCase, s.refusal, ?_⟩
  apply cons_sublist_runs.mpr
  refine ⟨a₂, u, g ++ (v ++ (h ++ (w ++ b₁))), by simp,
    spells_directive.stands s.verb (getLast_of_append s.left) (s.gap.right _), rfl, ?_⟩
  apply cons_sublist_runs.mpr
  refine ⟨g, v, h ++ (w ++ b₁), by simp,
    spells_refusal.stands s.refusal s.gap.left (s.gap'.right _), rfl, ?_⟩
  apply cons_sublist_runs.mpr
  exact ⟨h, w, b₁, by simp, spells_claim.stands s.claim s.gap'.left (head_of_append s.right),
    by simpa using s.claim, by simp⟩

theorem spread_of_directive {t : Text} (ht : Directive t) :
    ∃ a u g v h w b, Spread t a u g v h w b := by
  obtain ⟨s, hs, verb, hverb, refusal, hrefusal, hwords⟩ := ht
  obtain ⟨hfree, x, y, rfl, hx, hy⟩ := mem_splitOnP_iff.mp hs
  obtain ⟨a, u, s₁, rfl, hu, rfl, hafter⟩ := cons_sublist_runs.mp hwords
  obtain ⟨g, v, s₂, rfl, hv, rfl, hlast⟩ := cons_sublist_runs.mp hafter
  obtain ⟨h, w, b, rfl, hw, hclaim, -⟩ := cons_sublist_runs.mp hlast
  refine ⟨x ++ a, u, g, v, h, w, b ++ y, by simp, wordAt_getLast_append hx hu.left, hverb, ?_,
    hrefusal, ?_, by simpa using hclaim, wordAt_head_append hw.right hy⟩
  · exact gap_of_stands hu hv fun c hc => hfree c (by simp [hc])
  · exact gap_of_stands hv hw fun c hc => hfree c (by simp [hc])

/-- A review value is never fatal, and the paragraph is warned of exactly when it has a
directive within one sentence. -/
theorem scope_warning_iff_directive (v : Verdict) (draftParagraph : Text) :
    (checkScope (Enum.text v) draftParagraph).fatal = false ∧
      (directiveWarning ∈ (checkScope (Enum.text v) draftParagraph).warnings ↔
        Directive draftParagraph) ∧
      (¬ Directive draftParagraph →
        (checkScope (Enum.text v) draftParagraph).warnings = []) := by
  have htest : actionDirectiveRe.test draftParagraph = true ↔ Directive draftParagraph := by
    rw [test_actionDirectiveRe]
    constructor
    · rintro ⟨a, u, g, v, h, w, b, s⟩
      exact directive_of_spread s
    · exact spread_of_directive
  rw [checkScope_of_verdict, ← htest]
  refine ⟨rfl, ?_, ?_⟩
  · cases actionDirectiveRe.test draftParagraph <;> simp
  · intro hnot
    simp [hnot]

example : Directive (lit "I Recommend that we DECLINE this claim") := by decide
example : ¬ Directive (lit "We recommend a review. A decline of the claim stands.") := by decide

end StormReview
