import Mathlib.Data.List.Induction
import StormReview.Js.Words
import StormReview.Workflow.Settled

/-! Over its bound, a text is cut between two words whenever a space is near the bound. -/
namespace StormReview
open Js

/-- A space near enough to the bound for the cut to be made there. -/
def CutSpace (s : Text) (max i : Nat) : Prop :=
  max - 80 < i ∧ i < max - 3 ∧ s[i]? = some (cu ' ')

/-- `p` is kept of `s`: it fits with the ellipsis, ends in a word, and reaches to the last space
near the bound but for what may be stripped. -/
structure Kept (s : Text) (max : Nat) (p : Text) : Prop where
  isPrefix : p <+: s
  length_le : p.length ≤ max - 3
  last : ∀ c ∈ p.getLast?, isLoose c = false
  next : (∃ i, CutSpace s max i) → ∃ c, s[p.length]? = some c ∧ isLoose c = true
  space : (∃ i, CutSpace s max i) → ∃ i, CutSpace s max i ∧ (∀ j, CutSpace s max j → j ≤ i) ∧
    p.length ≤ i ∧ ∀ j c, p.length ≤ j → j < i → s[j]? = some c → isLoose c = true

theorem lastIndexOf_concat (c d : UInt16) (s : Text) :
    lastIndexOf c (s ++ [d]) = if d = c then (s.length : Int) else lastIndexOf c s := by
  by_cases h : d = c
  · simp [lastIndexOf, h, List.findIdx?_cons]
  · have hne : (d == c) = false := beq_false_of_ne h
    simp only [lastIndexOf, List.reverse_append, List.reverse_singleton, List.singleton_append,
      List.findIdx?_cons, hne, h, if_false, List.length_append, List.length_singleton]
    cases s.reverse.findIdx? (· == c) with
    | none => rfl
    | some i =>
      simp only [Option.map_some, Bool.false_eq_true, if_false]
      omega

/-- The last place of a code unit, or -1 where there is none. -/
theorem lastIndexOf_spec (c : UInt16) (s : Text) : lastIndexOf c s = -1 ∧ c ∉ s ∨
    ∃ i : Nat, lastIndexOf c s = i ∧ s[i]? = some c ∧ ∀ j, i < j → s[j]? ≠ some c := by
  induction s using List.reverseRecOn with
  | nil => exact .inl ⟨rfl, by simp⟩
  | append_singleton s d ih =>
    rw [lastIndexOf_concat]
    by_cases h : d = c
    · refine .inr ⟨s.length, if_pos h, by simp [h], ?_⟩
      intro j hj
      simp [List.getElem?_eq_none (l := s ++ [d]) (i := j) (by simp; omega)]
    · rw [if_neg h]
      rcases ih with ⟨hnone, hmem⟩ | ⟨i, hi, hat, hlast⟩
      · exact .inl ⟨hnone, by simp [hmem, Ne.symm h]⟩
      · have hlt : i < s.length := (List.getElem?_eq_some_iff.mp hat).1
        refine .inr ⟨i, hi, by rwa [List.getElem?_append_left hlt], ?_⟩
        intro j hj
        rcases Nat.lt_trichotomy j s.length with hlt | rfl | hgt
        · rw [List.getElem?_append_left hlt]
          exact hlast j hj
        · simpa using h
        · simp [List.getElem?_eq_none (l := s ++ [d]) (i := j) (by simp; omega)]

theorem stripLoose_spec (s : Text) : ∃ t, s = stripLoose s ++ t ∧ (∀ c ∈ t, isLoose c = true) ∧
    ∀ c ∈ (stripLoose s).getLast?, isLoose c = false := by
  obtain ⟨hsplit, hloose, hnext⟩ := span_spec isLoose s.reverse
  refine ⟨(s.reverse.takeWhile isLoose).reverse, ?_, by simpa using hloose, ?_⟩
  · rw [stripLoose, ← List.reverse_append, ← hsplit, List.reverse_reverse]
  · rwa [stripLoose, List.getLast?_reverse]

section kept
variable {s : Text} {max : Nat}

theorem kept_of_cutSpace {i : Nat} (hi : CutSpace s max i) (hlast : ∀ j, CutSpace s max j → j ≤ i) :
    Kept s max (stripLoose (s.take i)) := by
  obtain ⟨hmax, hat⟩ := hi.2
  obtain ⟨t, ht, hloose, hend⟩ := stripLoose_spec (s.take i)
  generalize stripLoose (s.take i) = p at ht hend
  have hs : s = p ++ t ++ s.drop i := by rw [← ht, List.take_append_drop]
  have hlt : i < s.length := (List.getElem?_eq_some_iff.mp hat).1
  have hlen : p.length + t.length = i := by
    rw [← List.length_append, ← ht, List.length_take]
    omega
  have hstripped : ∀ j c, p.length ≤ j → j < i → s[j]? = some c → isLoose c = true := by
    intro j c hle hj hc
    rw [hs, List.append_assoc, List.getElem?_append_right hle,
      List.getElem?_append_left (by omega)] at hc
    exact hloose c (List.mem_of_getElem? hc)
  refine ⟨⟨t ++ s.drop i, by rw [← List.append_assoc, ← hs]⟩, by omega, hend, ?_, ?_⟩
  · intro _
    by_cases hp : p.length = i
    · rw [hp]
      exact ⟨cu ' ', hat, by decide⟩
    · have hnext : s[p.length]? = some s[p.length] := List.getElem?_eq_getElem (by omega)
      exact ⟨_, hnext, hstripped p.length _ (Nat.le_refl _) (by omega) hnext⟩
  · intro _
    exact ⟨i, hi, hlast, by omega, hstripped⟩

theorem kept_of_no_cutSpace (hnone : ∀ i, ¬ CutSpace s max i) :
    Kept s max (stripLoose (s.take (max - 3))) := by
  obtain ⟨t, ht, -, hend⟩ := stripLoose_spec (s.take (max - 3))
  refine ⟨(stripLoose_isPrefix _).trans (List.take_prefix _ _), ?_, hend, ?_, ?_⟩
  · apply Nat.le_trans (stripLoose_isPrefix _).length_le
    exact List.length_take_le _ _
  · rintro ⟨i, hi⟩
    exact absurd hi (hnone i)
  · rintro ⟨i, hi⟩
    exact absurd hi (hnone i)

theorem sliceTo_natCast (s : Text) (n : Nat) : sliceTo s (n : Int) = s.take n := by
  rw [sliceTo, if_neg (by omega), Int.toNat_natCast]

/-- Where an over-long text is cut. -/
theorem clip_eq (hmax : 80 ≤ max) (hlong : max < s.length) :
    (∃ i, CutSpace s max i ∧ (∀ j, CutSpace s max j → j ≤ i) ∧
      clip s max = stripLoose (s.take i) ++ lit "...") ∨
    ((∀ i, ¬ CutSpace s max i) ∧ clip s max = stripLoose (s.take (max - 3)) ++ lit "...") := by
  have hcut : sliceTo s ((max : Int) - 3) = s.take (max - 3) := by
    rw [← sliceTo_natCast]
    congr 1
    omega
  have hread {j : Nat} (hj : j < max - 3) : (s.take (max - 3))[j]? = s[j]? :=
    List.getElem?_take_of_lt hj
  rw [clip, if_neg (Nat.not_le.mpr hlong), hcut]
  dsimp only
  rcases lastIndexOf_spec (cu ' ') (s.take (max - 3)) with ⟨hi, hmem⟩ | ⟨i, hi, hat, hlast⟩
  · refine .inr ⟨?_, by rw [hi, if_neg (by omega)]⟩
    rintro j ⟨-, hj, hspace⟩
    rw [← hread hj] at hspace
    exact hmem (List.mem_of_getElem? hspace)
  · have hlt : i < max - 3 := by
      have hlen := (List.getElem?_eq_some_iff.mp hat).1
      rw [List.length_take] at hlen
      omega
    have hbefore {j : Nat} (hj : CutSpace s max j) : j ≤ i := by
      obtain ⟨-, hj, hspace⟩ := hj
      rw [← hread hj] at hspace
      by_contra hgt
      exact hlast j (by omega) hspace
    rw [hi]
    by_cases hnear : max - 80 < i
    · refine .inl ⟨i, ⟨hnear, hlt, by rwa [← hread hlt]⟩, fun j hj => hbefore hj, ?_⟩
      rw [if_pos (by omega), sliceTo_natCast, List.take_take, Nat.min_eq_left (by omega)]
    · refine .inr ⟨?_, by rw [if_neg (by omega)]⟩
      intro j hj
      have hle := hbefore hj
      have hfar := hj.1
      omega

end kept

/-- A clipped text fits its bound; over the bound it is cut between two words whenever a space
is near enough, and only what may be stripped is lost between the cut and the last such space. -/
theorem clip_between_words (s : Text) (max : Nat) (hmax : 80 ≤ max) :
    (clip s max).length ≤ max ∧ (s.length ≤ max → clip s max = s) ∧
      (max < s.length → ∃ p, clip s max = p ++ lit "..." ∧ Kept s max p) := by
  refine ⟨length_clip_le s max (by omega), fun hle => clip_of_le s hle, fun hlong => ?_⟩
  rcases clip_eq hmax hlong with ⟨i, hi, hlast, h⟩ | ⟨hnone, h⟩
  · exact ⟨_, h, kept_of_cutSpace hi hlast⟩
  · exact ⟨_, h, kept_of_no_cutSpace hnone⟩

/-- The cut is made before the comma that the last space follows. -/
theorem clip_between_words_sample :
    let s := List.replicate 60 (cu 'a') ++ lit ", " ++ List.replicate 40 (cu 'b')
    CutSpace s 80 61 ∧ clip s 80 = List.replicate 60 (cu 'a') ++ lit "..." ∧
      ∃ p, clip s 80 = p ++ lit "..." ∧ Kept s 80 p :=
  ⟨⟨by decide, by decide, rfl⟩, by decide,
    (clip_between_words _ 80 (by decide)).2.2 (by decide)⟩

end StormReview
