import Mathlib.Data.List.Sort

/-! Stable sorting by a comparison that is only known to be an order on the elements at hand. -/
namespace Js.Sort

variable {α : Type*} {r : α → α → Prop}

/-- On the elements of `l`, `r` compares any two and is transitive. -/
structure OrdersOn (r : α → α → Prop) (l : List α) : Prop where
  total : ∀ a ∈ l, ∀ b ∈ l, r a b ∨ r b a
  trans : ∀ a ∈ l, ∀ b ∈ l, ∀ c ∈ l, r a b → r b c → r a c

theorem OrdersOn.mono {l l' : List α} (h : OrdersOn r l) (hsub : l' ⊆ l) : OrdersOn r l' where
  total a ha b hb := h.total a (hsub ha) b (hsub hb)
  trans a ha b hb c hc := h.trans a (hsub ha) b (hsub hb) c (hsub hc)

section sort
variable [DecidableRel r]

theorem pairwise_orderedInsert {a : α} {s : List α} (h : OrdersOn r (a :: s))
    (hs : s.Pairwise r) : (s.orderedInsert r a).Pairwise r := by
  induction s with
  | nil => simp
  | cons b s ih =>
    obtain ⟨hb, hs⟩ := List.pairwise_cons.mp hs
    by_cases hab : r a b
    · rw [List.orderedInsert_cons_of_le _ _ hab]
      refine List.pairwise_cons.mpr ⟨?_, List.pairwise_cons.mpr ⟨hb, hs⟩⟩
      intro c hc
      rcases List.mem_cons.mp hc with rfl | hc
      · exact hab
      · exact h.trans a (by simp) b (by simp) c (by simp [hc]) hab (hb c hc)
    · have hba : r b a := (h.total a (by simp) b (by simp)).resolve_left hab
      rw [List.orderedInsert_of_not_le _ _ hab]
      refine List.pairwise_cons.mpr ⟨?_, ih (h.mono (by simp)) hs⟩
      intro c hc
      rcases (List.mem_orderedInsert r).mp hc with rfl | hc
      · exact hba
      · exact hb c hc

theorem pairwise_insertionSort {l : List α} (h : OrdersOn r l) :
    (l.insertionSort r).Pairwise r := by
  induction l with
  | nil => simp
  | cons a l ih =>
    have hsub : a :: l.insertionSort r ⊆ a :: l := by
      intro b hb
      simpa using hb
    exact pairwise_orderedInsert (h.mono hsub) (ih (h.mono (by simp)))

/-- A kept element keeps its place among the kept ones when another one is inserted. -/
theorem filter_orderedInsert (p : α → Bool) {a : α} {s : List α} (h : OrdersOn r (a :: s))
    (hs : s.Pairwise r) :
    (s.orderedInsert r a).filter p =
      if p a then (s.filter p).orderedInsert r a else s.filter p := by
  induction s with
  | nil => cases hp : p a <;> simp [hp]
  | cons b s ih =>
    obtain ⟨hb, hs⟩ := List.pairwise_cons.mp hs
    by_cases hab : r a b
    · rw [List.orderedInsert_cons_of_le _ _ hab]
      cases hp : p a with
      | false => simp [hp]
      | true =>
        -- what is left of the list still comes after `a`
        have hafter : ∀ c ∈ (b :: s).filter p, r a c := by
          intro c hc
          rcases List.mem_cons.mp (List.mem_filter.mp hc).1 with rfl | hc
          · exact hab
          · exact h.trans a (by simp) b (by simp) c (by simp [hc]) hab (hb c hc)
        rw [List.filter_cons_of_pos hp, if_pos rfl]
        cases hf : (b :: s).filter p with
        | nil => simp
        | cons c t =>
          rw [List.orderedInsert_cons_of_le]
          apply hafter
          simp [hf]
    · rw [List.orderedInsert_of_not_le _ _ hab, List.filter_cons, ih (h.mono (by simp)) hs,
        List.filter_cons]
      cases hp : p a <;> cases hpb : p b <;> simp [hab]

/-- Sorting what is left after a removal is removing from what was sorted. -/
theorem filter_insertionSort (p : α → Bool) {l : List α} (h : OrdersOn r l) :
    (l.insertionSort r).filter p = (l.filter p).insertionSort r := by
  induction l with
  | nil => simp
  | cons a l ih =>
    have htail : OrdersOn r l := h.mono (by simp)
    have hsub : a :: l.insertionSort r ⊆ a :: l := by
      intro b hb
      simpa using hb
    rw [List.insertionSort_cons,
      filter_orderedInsert p (h.mono hsub) (pairwise_insertionSort htail), ih htail]
    cases hp : p a <;> simp [hp]

end sort

/-! The first elements of a list, and of what is left of it. -/

/-- Removing from the first `n` leaves a beginning of the first `n` of what is left. -/
theorem filter_take_isPrefix (p : α → Bool) (l : List α) (n : Nat) :
    (l.take n).filter p <+: (l.filter p).take n := by
  have hlen : ((l.take n).filter p).length ≤ n :=
    (List.length_filter_le ..).trans (List.length_take_le ..)
  rw [← List.take_append_drop n l, List.filter_append]
  simp only [List.take_append_drop]
  rw [List.take_append, List.take_of_length_le hlen]
  exact List.prefix_append ..

/-- In a sorted list what is cut off comes after what is kept. -/
theorem rel_of_mem_take_of_notMem {l : List α} (h : l.Pairwise r) (n : Nat) {a b : α}
    (ha : a ∈ l.take n) (hb : b ∈ l) (hout : b ∉ l.take n) : r a b := by
  have hdrop : b ∈ l.drop n := by
    rw [← List.take_append_drop n l] at hb
    exact (List.mem_append.mp hb).resolve_left hout
  rw [← List.take_append_drop n l] at h
  exact (List.pairwise_append.mp h).2.2 a ha b hdrop

end Js.Sort
