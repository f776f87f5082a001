import Mathlib.Data.List.Basic

/-! The runs of a list between separators: the nonempty pieces that hold no separator and that
a separator or an end of the list borders on both sides. -/
namespace Js

section runs
variable {α β : Type} {p : α → Bool}

/-- `u` is a whole run of `a ++ u ++ b`. -/
structure Stands (p : α → Bool) (a u b : List α) : Prop where
  ne_nil : u ≠ []
  free : ∀ c ∈ u, p c = false
  left : ∀ c ∈ a.getLast?, p c = true
  right : ∀ c ∈ b.head?, p c = true

def runs (p : α → Bool) (l : List α) : List (List α) := (l.splitOnP p).filter fun u => !u.isEmpty

/-- A list still ends in a separator when one and more is put before it. -/
theorem left_append_cons {u a : List α} {c : α} (hc : p c = true)
    (ha : ∀ d ∈ a.getLast?, p d = true) : ∀ d ∈ (u ++ c :: a).getLast?, p d = true := by
  cases a with
  | nil => simpa using hc
  | cons e a => simpa [List.getLast?_append, List.getLast?_cons_cons] using ha

@[simp] theorem runs_nil (p : α → Bool) : runs p [] = [] := rfl

/-- Runs split at a separator. -/
theorem runs_append_cons {c : α} (hc : p c = true) (a b : List α) :
    runs p (a ++ c :: b) = runs p a ++ runs p b := by
  rw [runs, List.splitOnP_append_cons a b hc, List.filter_append, runs, runs]

theorem runs_cons {c : α} (hc : p c = true) (l : List α) : runs p (c :: l) = runs p l :=
  runs_append_cons hc [] l

theorem runs_of_free {u : List α} (hu : u ≠ []) (hfree : ∀ c ∈ u, p c = false) :
    runs p u = [u] := by
  simp [runs, List.splitOnP_eq_singleton hfree, hu]

theorem Stands.runs_eq {a u b : List α} (h : Stands p a u b) :
    runs p (a ++ u ++ b) = runs p a ++ u :: runs p b := by
  have hright : runs p (u ++ b) = u :: runs p b := by
    cases b with
    | nil => simp [runs_of_free h.ne_nil h.free]
    | cons c b =>
      have hc : p c = true := h.right c rfl
      rw [runs_append_cons hc, runs_cons hc, runs_of_free h.ne_nil h.free]
      rfl
  rcases List.eq_nil_or_concat' a with rfl | ⟨a, c, rfl⟩
  · exact hright
  · have hc : p c = true := h.left c (by simp)
    rw [List.append_assoc, List.append_assoc, List.singleton_append, runs_append_cons hc, hright,
      runs_append_cons hc, runs_nil, List.append_nil]

/-- A list splits where a class stops. -/
theorem span_spec (p : α → Bool) (l : List α) :
    l = l.takeWhile p ++ l.dropWhile p ∧ (∀ c ∈ l.takeWhile p, p c = true) ∧
      ∀ c ∈ (l.dropWhile p).head?, p c = false := by
  refine ⟨List.takeWhile_append_dropWhile.symm, List.all_eq_true.mp List.all_takeWhile, ?_⟩
  intro c hc
  have hnot := List.head?_dropWhile_not p l
  rw [Option.mem_def.mp hc] at hnot
  exact hnot

/-- Induction over the separators of a list. -/
theorem separator_induction {motive : List α → Prop}
    (free : ∀ l, (∀ c ∈ l, p c = false) → motive l)
    (cut : ∀ u c l, (∀ d ∈ u, p d = false) → p c = true → motive l → motive (u ++ c :: l))
    (l : List α) : motive l := by
  induction hn : l.length using Nat.strongRecOn generalizing l with
  | ind n ih =>
    obtain ⟨hsplit, hfree, hnext⟩ := span_spec (fun c => !p c) l
    generalize l.takeWhile (fun c => !p c) = u at hsplit hfree
    generalize l.dropWhile (fun c => !p c) = rest at hsplit hnext
    have hfree : ∀ c ∈ u, p c = false := by simpa using hfree
    cases rest with
    | nil =>
      rw [List.append_nil] at hsplit
      exact free l (hsplit ▸ hfree)
    | cons c rest =>
      have hc : p c = true := by simpa using hnext c rfl
      have hlt : rest.length < n := by
        rw [← hn, hsplit, List.length_append, List.length_cons]
        omega
      rw [hsplit]
      exact cut u c rest hfree hc (ih rest.length hlt rest rfl)

/-- The first of some runs in order is a whole run, and the others are runs of what follows. -/
theorem cons_sublist_runs {f : List α → β} {x : β} {xs : List β} {l : List α} :
    (x :: xs).Sublist ((runs p l).map f) ↔
      ∃ a u b, l = a ++ u ++ b ∧ Stands p a u b ∧ f u = x ∧ xs.Sublist ((runs p b).map f) := by
  constructor
  · induction l using separator_induction (p := p) with
    | free l hl =>
      intro h
      by_cases hnil : l = []
      · simp [hnil] at h
      · rw [runs_of_free hnil hl] at h
        obtain ⟨rfl, rfl⟩ : x = f l ∧ xs = [] := by simpa using h
        exact ⟨[], l, [], by simp, ⟨hnil, hl, by simp, by simp⟩, rfl, by simp⟩
    | cut u c l hu hc ih =>
      intro h
      have later (h : (x :: xs).Sublist ((runs p l).map f)) : ∃ a v b, u ++ c :: l = a ++ v ++ b ∧
          Stands p a v b ∧ f v = x ∧ xs.Sublist ((runs p b).map f) := by
        obtain ⟨a, v, b, rfl, hv, hx, hxs⟩ := ih h
        exact ⟨u ++ c :: a, v, b, by simp, { hv with left := left_append_cons hc hv.left }, hx,
          hxs⟩
      by_cases hnil : u = []
      · subst hnil
        rw [List.nil_append, runs_cons hc] at h
        exact later h
      · rw [runs_append_cons hc, runs_of_free hnil hu, List.map_append] at h
        cases h with
        | cons _ h => exact later h
        | cons_cons _ h =>
          exact ⟨[], u, c :: l, by simp, ⟨hnil, hu, by simp, by simpa using hc⟩, rfl,
            by rwa [runs_cons hc]⟩
  · rintro ⟨a, u, b, rfl, hu, rfl, hxs⟩
    rw [hu.runs_eq, List.map_append, List.map_cons]
    exact (hxs.cons_cons (f u)).trans (List.sublist_append_right _ _)

/-- A piece of a split is free of separators and reaches to one, or to an end, on both sides. -/
theorem mem_splitOnP_iff {s l : List α} : s ∈ l.splitOnP p ↔ (∀ c ∈ s, p c = false) ∧
    ∃ a b, l = a ++ s ++ b ∧ (∀ c ∈ a.getLast?, p c = true) ∧ ∀ c ∈ b.head?, p c = true := by
  constructor
  · induction l using separator_induction (p := p) with
    | free l hl =>
      intro h
      obtain rfl : s = l := by simpa [List.splitOnP_eq_singleton hl] using h
      exact ⟨hl, [], [], by simp, by simp, by simp⟩
    | cut u c l hu hc ih =>
      intro h
      rw [List.splitOnP_append_cons u l hc, List.splitOnP_eq_singleton hu] at h
      rcases List.mem_append.mp h with h | h
      · obtain rfl : s = u := by simpa using h
        exact ⟨hu, [], c :: l, by simp, by simp, by simpa using hc⟩
      · obtain ⟨hs, a, b, rfl, ha, hb⟩ := ih h
        exact ⟨hs, u ++ c :: a, b, by simp, left_append_cons hc ha, hb⟩
  · rintro ⟨hs, a, b, rfl, ha, hb⟩
    have hright : s ∈ (s ++ b).splitOnP p := by
      cases b with
      | nil => simp [List.splitOnP_eq_singleton hs]
      | cons c b =>
        rw [List.splitOnP_append_cons s b (hb c rfl), List.splitOnP_eq_singleton hs]
        simp
    rcases List.eq_nil_or_concat' a with rfl | ⟨a, c, rfl⟩
    · exact hright
    · rw [List.append_assoc, List.append_assoc, List.singleton_append,
        List.splitOnP_append_cons _ _ (ha c (by simp))]
      exact List.mem_append_right _ hright

theorem exists_last_stretch (p : α → Bool) (l : List α) :
    ∃ a s, l = a ++ s ∧ (∀ c ∈ s, p c = false) ∧ ∀ c ∈ a.getLast?, p c = true := by
  induction l using separator_induction (p := p) with
  | free l hl => exact ⟨[], l, rfl, hl, by simp⟩
  | cut u c l hu hc ih =>
    obtain ⟨a, s, rfl, hs, ha⟩ := ih
    exact ⟨u ++ c :: a, s, by simp, hs, left_append_cons hc ha⟩

theorem exists_first_stretch (p : α → Bool) (l : List α) :
    ∃ s b, l = s ++ b ∧ (∀ c ∈ s, p c = false) ∧ ∀ c ∈ b.head?, p c = true := by
  induction l using separator_induction (p := p) with
  | free l hl => exact ⟨l, [], by simp, hl, by simp⟩
  | cut u c l hu hc ih => exact ⟨u, c :: l, rfl, hu, by simpa using hc⟩

/-- What holds no separator lies in one piece. -/
theorem exists_mem_splitOnP (a m b : List α) (hm : ∀ c ∈ m, p c = false) :
    ∃ a₁ a₂ b₁ b₂, a = a₁ ++ a₂ ∧ b = b₁ ++ b₂ ∧ a₂ ++ m ++ b₁ ∈ (a ++ m ++ b).splitOnP p := by
  obtain ⟨a₁, a₂, rfl, ha₂, ha₁⟩ := exists_last_stretch p a
  obtain ⟨b₁, b₂, rfl, hb₁, hb₂⟩ := exists_first_stretch p b
  refine ⟨a₁, a₂, b₁, b₂, rfl, rfl, mem_splitOnP_iff.mpr ⟨?_, a₁, b₂, by simp, ha₁, hb₂⟩⟩
  intro c hc
  rcases List.mem_append.mp hc with hc | hc
  · rcases List.mem_append.mp hc with hc | hc
    · exact ha₂ c hc
    · exact hm c hc
  · exact hb₁ c hc

end runs
end Js
