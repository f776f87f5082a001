import StormReview.Js.Words
import StormReview.Guards.InjectionGuard

/-! Where the sentences of a narrative end, and what stands at their borders. -/
namespace StormReview
open Js Regex

theorem not_terminator {p : UInt16 → Bool} (hp : (lit ".!?").all (fun c => !p c) = true) {c : UInt16}
    (hc : p c = true) : isTerminator c = false := by
  refine Bool.eq_false_iff.mpr fun ht => ?_
  have hmem : c ∈ lit ".!?" := by
    simp only [isTerminator, Bool.or_eq_true, beq_iff_eq] at ht
    rcases ht with (rfl | rfl) | rfl <;> decide
  simpa [hc] using List.all_eq_true.mp hp c hmem

theorem space_not_terminator {c : UInt16} (h : isSpace c = true) : isTerminator c = false :=
  not_terminator (p := isSpace) (by decide) h

/-- An empty text, or one that ends with a sentence end. -/
def Ended (s : Text) : Prop := ∀ c ∈ s.getLast?, isTerminator c = true

theorem Ended.tail {u s : Text} (h : Ended (u ++ s)) : Ended s := by
  intro c hc
  refine h c ?_
  rw [List.getLast?_append, Option.mem_def.mp hc]
  rfl

theorem sentenceBreak_of_terminator {prev : Option UInt16} (h : prev.any isTerminator = true)
    (t : Text) : sentenceBreak.first prev t = (plus space).first prev t := by
  have hrun : sentenceBreak.run prev t = (plus space).run prev t := by
    have hseq : sentenceBreak.run prev t = (run (.behind isTerminator) prev t).flatMap fun u =>
        ((plus space).run (after prev u) (t.drop u.length)).map (u ++ ·) := rfl
    simp [hseq, run, h]
  rw [first, first, hrun]

theorem match_sentenceBreak {prev : Option UInt16} {w rest : Text}
    (h : Match sentenceBreak prev w rest) :
    prev.any isTerminator = true ∧ w ≠ [] ∧ ∀ c ∈ w, isSpace c = true := by
  obtain ⟨u, v, rfl, hu, hv⟩ := match_seq.mp h
  obtain ⟨rfl, hp⟩ := match_behind.mp hu
  exact ⟨hp, match_plus_unit.mp hv⟩

/-- A hit is the whole run of white space after a sentence end. -/
theorem sentenceBreak_hit {prev : Option UInt16} {u t : Text} {g : Unit}
    (h : sentenceBreak.first prev (u ++ t) = some (u, g)) :
    prev.any isTerminator = true ∧ u ≠ [] ∧ (∀ c ∈ u, isSpace c = true) ∧
      ∀ c ∈ t.head?, isSpace c = false := by
  obtain ⟨rest, hrest, hm⟩ := mem_run.mp (first_eq_some h)
  obtain ⟨hp, hne, hspaces⟩ := match_sentenceBreak hm
  refine ⟨hp, hne, hspaces, ?_⟩
  rw [sentenceBreak_of_terminator hp, space, first_plus_unit] at h
  split at h
  · cases h
  · have htake : (u ++ t).takeWhile isSpace = u := (Prod.mk.inj (Option.some.inj h)).1
    rw [List.takeWhile_append_of_pos hspaces] at htake
    intro c hc
    obtain ⟨t, rfl⟩ := List.head?_eq_some_iff.mp hc
    by_contra hspace
    have hlen := congrArg List.length htake
    simp [show isSpace c = true by simpa using hspace] at hlen

theorem after_spaces_not_terminator {u : Text} (hu : u ≠ []) (h : ∀ c ∈ u, isSpace c = true)
    (prev : Option UInt16) : (after prev u).any isTerminator = false := by
  rcases List.eq_nil_or_concat u with rfl | ⟨v, c, rfl⟩
  · exact absurd rfl hu
  · simpa using space_not_terminator (h c (by simp))

theorem ended_of_after {q : Option UInt16} {l : Text} (hq : q.any isTerminator = false)
    (h : (after q l).any isTerminator = true) : Ended l ∧ l ≠ [] := by
  have hne : l ≠ [] := by
    rintro rfl
    rw [after_nil, hq] at h
    cases h
  rw [after_eq_getLast q hne] at h
  refine ⟨fun c hc => ?_, hne⟩
  rwa [Option.mem_def.mp hc] at h

/-- What a row of sentences is like: each but the last ends, and each but the first starts with
no white space. -/
def Follows (s s' : Text) : Prop := Ended s ∧ s ≠ [] ∧ ∀ c ∈ s'.head?, isSpace c = false

/-- Sentences end with a sentence end, and the white space behind it belongs to none. -/
theorem sentences_follow (t : Text) : (splitSentences t).Pairwise Follows := by
  have key (prev : Option UInt16) (t : Text) :
      (rests sentenceBreak.first prev t ≠ [] →
        (after prev (lead sentenceBreak.first prev t)).any isTerminator = true) ∧
      (∀ s ∈ rests sentenceBreak.first prev t, ∀ c ∈ s.head?, isSpace c = false) ∧
      (rests sentenceBreak.first prev t).Pairwise Follows := by
    refine (first_proper (r := sentenceBreak) rfl).induction (motive := fun prev t =>
      (rests sentenceBreak.first prev t ≠ [] →
        (after prev (lead sentenceBreak.first prev t)).any isTerminator = true) ∧
      (∀ s ∈ rests sentenceBreak.first prev t, ∀ c ∈ s.head?, isSpace c = false) ∧
      (rests sentenceBreak.first prev t).Pairwise Follows) ?_ ?_ ?_ prev t
    · exact fun prev => ⟨fun h => absurd rfl h, by simp, List.Pairwise.nil⟩
    · intro prev c t hplain ih
      rwa [lead_plain hplain, rests_plain hplain]
    · rintro prev w t g hw hhit ⟨ihend, ihhead, ihfollow⟩
      obtain ⟨hterm, -, hspaces, hnext⟩ := sentenceBreak_hit hhit
      have hblank := after_spaces_not_terminator hw hspaces prev
      rw [lead_hit hw hhit, rests_hit hw hhit]
      generalize after prev w = q at ihend ihhead ihfollow hblank
      have hhead : ∀ c ∈ (lead sentenceBreak.first q t).head?, isSpace c = false := by
        obtain ⟨y, hy, -⟩ := eq_lead_append (first_proper (r := sentenceBreak) rfl) q t
        generalize lead sentenceBreak.first q t = l at hy
        subst hy
        cases l with
        | nil => simp
        | cons d l => simpa using hnext
      refine ⟨fun _ => hterm, List.forall_mem_cons.mpr ⟨hhead, ihhead⟩,
        List.pairwise_cons.mpr ⟨fun s hs => ?_, ihfollow⟩⟩
      obtain ⟨hend, hne⟩ := ended_of_after hblank (ihend (List.ne_nil_of_mem hs))
      exact ⟨hend, hne, ihhead s hs⟩
  obtain ⟨hend, hhead, hfollow⟩ := key none t
  rw [splitSentences, split, pieces_eq]
  refine List.pairwise_cons.mpr ⟨fun s hs => ?_, hfollow⟩
  obtain ⟨hended, hne⟩ := ended_of_after rfl (hend (List.ne_nil_of_mem hs))
  exact ⟨hended, hne, hhead s hs⟩

end StormReview
