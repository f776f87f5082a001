import StormReview.Workflow.Steps

/-! A review that has been through the review step is settled: going through it again changes
nothing. -/
namespace StormReview
open Js Zod Regex

/-! Text without long dashes. -/

def NoDash (t : Text) : Prop := ∀ c ∈ t, isLongDash c = false

theorem dashRe_at_dash (prev : Option UInt16) {c : UInt16} (t : Text) (h : isLongDash c = true) :
    Match dashRe prev [c] t :=
  .seq .starNil (.seq (.unit h) .starNil)

/-- Normalised text has no long dash left: a search does not pass one by. -/
theorem noDash_normDashes (s : Text) : NoDash (normDashes s) := by
  have hall : ∀ c ∈ normDashes s, (!isLongDash c) = true := by
    refine render_all (first_proper rfl) (fun _ _ => List.all_eq_true.mp (by decide))
      (fun prev c t hnone => ?_) none s
    by_contra hdash
    have hrun : dashRe.run prev (c :: t) ≠ [] :=
      run_ne_nil.mpr ⟨[c], t, rfl, dashRe_at_dash prev t (by simpa using hdash)⟩
    exact hrun (first_eq_none.mp hnone)
  exact fun c hc => by simpa using hall c hc

theorem NoDash.normDashes_eq {t : Text} (h : NoDash t) : normDashes t = t :=
  normDashes_of_no_dash h

theorem NoDash.subset {t u : Text} (h : NoDash t) (hu : u ⊆ t) : NoDash u :=
  fun c hc => h c (hu hc)

/-! Clipped text is within its bound. -/

section clip
variable (s : Text)

theorem sliceTo_isPrefix (stop : Int) : sliceTo s stop <+: s := List.take_prefix _ _

theorem stripLoose_isPrefix : stripLoose s <+: s := by
  have h := (List.dropWhile_suffix isLoose (l := s.reverse)).reverse
  rwa [List.reverse_reverse] at h

/-- Over the bound, what is kept is a prefix of the text, and the ellipsis fits behind it. -/
theorem clip_cases (max : Nat) (hmax : 3 ≤ max) :
    clip s max = s ∧ s.length ≤ max ∨
      ∃ base, base <+: s ∧ base.length ≤ max - 3 ∧ clip s max = base ++ lit "..." := by
  by_cases h : s.length ≤ max
  · exact .inl ⟨if_pos h, h⟩
  · have hstop : ¬ ((max : Int) - 3 < 0) := by omega
    have hcut : (sliceTo s ((max : Int) - 3)).length ≤ max - 3 := by
      rw [sliceTo, if_neg hstop, List.length_take]
      omega
    refine .inr ?_
    rw [clip, if_neg h]
    dsimp only
    split
    · have hbase := (stripLoose_isPrefix _).trans (sliceTo_isPrefix (sliceTo s ((max : Int) - 3))
        (lastIndexOf (cu ' ') (sliceTo s ((max : Int) - 3))))
      exact ⟨_, hbase.trans (sliceTo_isPrefix _ _), Nat.le_trans hbase.length_le hcut, rfl⟩
    · have hbase := stripLoose_isPrefix (sliceTo s ((max : Int) - 3))
      exact ⟨_, hbase.trans (sliceTo_isPrefix _ _), Nat.le_trans hbase.length_le hcut, rfl⟩

theorem length_clip_le (max : Nat) (hmax : 3 ≤ max) : (clip s max).length ≤ max := by
  rcases clip_cases s max hmax with ⟨h, hle⟩ | ⟨base, -, hlen, h⟩
  · rwa [h]
  · have hdots : (lit "...").length = 3 := by decide
    rw [h, List.length_append, hdots]
    omega

theorem clip_of_le {max : Nat} (h : s.length ≤ max) : clip s max = s := if_pos h

theorem noDash_clip {s : Text} (h : NoDash s) (max : Nat) (hmax : 3 ≤ max) :
    NoDash (clip s max) := by
  rcases clip_cases s max hmax with ⟨heq, -⟩ | ⟨base, hbase, -, heq⟩
  · rwa [heq]
  · rw [heq]
    intro c hc
    rcases List.mem_append.mp hc with hc | hc
    · exact h c (hbase.subset hc)
    · exact no_dash (by decide) c hc

end clip

/-! What holds of every free text of a review. -/

def Finding.AllText {φ : Type} (p : Text → Prop) (x : Finding φ) : Prop :=
  (∀ e ∈ x.evidence, p e.ref ∧ p e.quote) ∧ ∀ g ∈ x.gaps, p g

structure Review.AllText (p : Text → Prop) (r : Review) : Prop where
  wordingVersion : p r.wordingVersion
  wordingNote : p r.wordingNote
  q1StormConditions : r.q1StormConditions.AllText p
  q2DamageConsistent : r.q2DamageConsistent.AllText p
  q3MainCause : r.q3MainCause.AllText p
  reportNote : p r.adjusterReportQuality.note
  confidenceDrivers : ∀ t ∈ r.confidenceDrivers, p t
  wouldChangeMind : ∀ t ∈ r.wouldChangeMind, p t
  why : p r.escalate.why
  citedDrns : ∀ t ∈ r.citedDrns, p t
  draftParagraph : p r.draftParagraph

section allText
variable {φ : Type} {p : Text → Prop} {f : Text → Text}

theorem map_eq_of_all {ts : List Text} (hf : ∀ t, p t → f t = t) (h : ∀ t ∈ ts, p t) :
    ts.map f = ts :=
  (List.map_congr_left fun t ht => hf t (h t ht)).trans (List.map_id' ts)

theorem all_map (hp : ∀ t, p (f t)) (ts : List Text) : ∀ t ∈ ts.map f, p t := by
  simpa using fun t _ => hp t

theorem Finding.AllText.mapText_eq {x : Finding φ} (hf : ∀ t, p t → f t = t) (h : x.AllText p) :
    x.mapText f = x := by
  have hevidence : x.evidence.map (Evidence.mapText f) = x.evidence := by
    refine (List.map_congr_left fun e he => ?_).trans (List.map_id' x.evidence)
    obtain ⟨href, hquote⟩ := h.1 e he
    rw [Evidence.mapText, hf _ href, hf _ hquote]
  rw [mapText, hevidence, map_eq_of_all hf h.2]

theorem Finding.allText_mapText (hp : ∀ t, p (f t)) (x : Finding φ) : (x.mapText f).AllText p := by
  refine ⟨fun e he => ?_, all_map hp _⟩
  obtain ⟨e', -, rfl⟩ := List.mem_map.mp he
  exact ⟨hp _, hp _⟩

theorem Review.AllText.mapText_eq {r : Review} (hf : ∀ t, p t → f t = t) (h : r.AllText p) :
    r.mapText f = r := by
  simp only [mapText, hf _ h.wordingVersion, hf _ h.wordingNote, h.q1StormConditions.mapText_eq hf,
    h.q2DamageConsistent.mapText_eq hf, h.q3MainCause.mapText_eq hf, hf _ h.reportNote,
    map_eq_of_all hf h.confidenceDrivers, map_eq_of_all hf h.wouldChangeMind, hf _ h.why,
    map_eq_of_all hf h.citedDrns, hf _ h.draftParagraph]

theorem Review.allText_mapText (hp : ∀ t, p (f t)) (r : Review) : (r.mapText f).AllText p where
  wordingVersion := hp _
  wordingNote := hp _
  q1StormConditions := Finding.allText_mapText hp _
  q2DamageConsistent := Finding.allText_mapText hp _
  q3MainCause := Finding.allText_mapText hp _
  reportNote := hp _
  confidenceDrivers := all_map hp _
  wouldChangeMind := all_map hp _
  why := hp _
  citedDrns := all_map hp _
  draftParagraph := hp _

end allText

/-! Settled reviews. -/

/-- Nothing for tidyReview to do: no long dash, and every soft bound is met. -/
structure Settled (r : Review) : Prop where
  text : r.AllText NoDash
  draftParagraph : r.draftParagraph.length ≤ draftParagraphMax
  confidenceDrivers : r.confidenceDrivers.length ≤ confidenceDriversMax
  wouldChangeMind : r.wouldChangeMind.length ≤ wouldChangeMindMax

section settled
variable {r : Review}

theorem Settled.tidyReview_eq (h : Settled r) : tidyReview r = r := by
  have hmap : r.mapText normDashes = r := h.text.mapText_eq fun _ ht => ht.normDashes_eq
  simp only [tidyReview, hmap, clip_of_le _ h.draftParagraph,
    List.take_of_length_le h.confidenceDrivers, List.take_of_length_le h.wouldChangeMind]

theorem settled_tidyReview (r : Review) : Settled (tidyReview r) where
  text :=
    { Review.allText_mapText noDash_normDashes r with
      confidenceDrivers := fun t ht =>
        all_map noDash_normDashes r.confidenceDrivers t (List.mem_of_mem_take ht)
      wouldChangeMind := fun t ht =>
        all_map noDash_normDashes r.wouldChangeMind t (List.mem_of_mem_take ht)
      draftParagraph := noDash_clip (noDash_normDashes _) _ (by decide) }
  draftParagraph := length_clip_le _ _ (by decide)
  confidenceDrivers := List.length_take_le _ _
  wouldChangeMind := List.length_take_le _ _

/-- The abstention adds one text, and keeps the bound of its list. -/
theorem Settled.abstain (h : Settled r) : Settled (abstain r) := by
  unfold StormReview.abstain
  split
  · refine
      { h with
        text :=
          { h.text with
            wouldChangeMind := fun t ht => ?_ }
        wouldChangeMind := List.length_take_le _ _ }
    rcases List.mem_cons.mp (mem_distinct.mp (List.mem_of_mem_take ht)) with rfl | ht
    · exact no_dash (by decide)
    · exact h.text.wouldChangeMind t ht
  · exact h

theorem Settled.filter (h : Settled r) (p : Text → Bool) :
    Settled { r with citedDrns := r.citedDrns.filter p } :=
  { h with
    text := { h.text with citedDrns := fun t ht => h.text.citedDrns t (List.mem_of_mem_filter ht) } }

/-- Where both answers are already those of an abstention, there is nothing to replace. -/
theorem abstain_of_abstained (hfinding : r.q1StormConditions.finding = .unknown)
    (hverdict : r.verdict = .cannotDetermine) : abstain r = r := by
  simp [abstain, hfinding, hverdict]

end settled
end StormReview
