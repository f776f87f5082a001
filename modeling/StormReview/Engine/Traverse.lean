import Mathlib.Data.List.Forall2

/-! Traversals that may fail: a list is mapped in order, and the first error ends it. -/
namespace Engine

variable {α β ε : Type} {f : α → Except ε β} {xs : List α} {ys : List β}

theorem mapM_cons_eq_ok {x : α} : (x :: xs).mapM f = .ok ys ↔
    ∃ b bs, f x = .ok b ∧ xs.mapM f = .ok bs ∧ ys = b :: bs := by
  rw [List.mapM_cons]
  cases hx : f x with
  | error e => simp [bind, Except.bind]
  | ok b =>
    cases hxs : xs.mapM f with
    | error e => simp [bind, Except.bind]
    | ok bs => simp [bind, Except.bind, pure, Except.pure, eq_comm]

/-- A traversal succeeds with what the single steps succeed with. -/
theorem mapM_eq_ok_iff :
    xs.mapM f = .ok ys ↔ List.Forall₂ (fun x y => f x = .ok y) xs ys := by
  induction xs generalizing ys with
  | nil =>
    rw [List.mapM_nil, List.forall₂_nil_left_iff]
    simp [pure, Except.pure, eq_comm]
  | cons x xs ih =>
    rw [mapM_cons_eq_ok, List.forall₂_cons_left_iff]
    simp only [ih, exists_and_left]

theorem mapM_eq_ok {g : α → β} (h : ∀ x ∈ xs, f x = .ok (g x)) : xs.mapM f = .ok (xs.map g) := by
  rw [mapM_eq_ok_iff, List.forall₂_map_right_iff, List.forall₂_same]
  exact h

theorem mem_mapM {y : β} (h : xs.mapM f = .ok ys) (hy : y ∈ ys) : ∃ x ∈ xs, f x = .ok y := by
  have hall := mapM_eq_ok_iff.mp h
  clear h
  induction hall with
  | nil => cases hy
  | @cons x b xs bs hx _ ih =>
    rcases List.mem_cons.mp hy with rfl | hy
    · exact ⟨x, by simp, hx⟩
    · obtain ⟨x', hmem, hx'⟩ := ih hy
      exact ⟨x', by simp [hmem], hx'⟩

theorem mapM_error_iff : (∃ e, xs.mapM f = .error e) ↔ ∃ x ∈ xs, ∃ e, f x = .error e := by
  induction xs with
  | nil => simp [pure, Except.pure]
  | cons x xs ih =>
    simp only [List.mapM_cons, List.mem_cons, exists_eq_or_imp, ← ih]
    cases hx : f x with
    | error e => simp [bind, Except.bind]
    | ok b => cases hxs : xs.mapM f <;> simp [bind, Except.bind, pure, Except.pure]

section option
variable {read : α → Option β}

theorem mapM_eq_some {g : α → β} (h : ∀ x ∈ xs, read x = some (g x)) :
    xs.mapM read = some (xs.map g) := by
  induction xs with
  | nil => rfl
  | cons x xs ih =>
    rw [List.mapM_cons, h x (by simp), ih fun y hy => h y (by simp [hy])]
    rfl

theorem mapM_eq_none {x : α} (hx : x ∈ xs) (h : read x = none) : xs.mapM read = none := by
  induction xs with
  | nil => cases hx
  | cons y xs ih =>
    rw [List.mapM_cons]
    rcases List.mem_cons.mp hx with rfl | hx
    · rw [h]
      rfl
    · rw [ih hx]
      cases read y <;> rfl

end option

end Engine
