import Mathlib.Data.List.Perm.Basic

/-! A search for the first hit in a list, and when the order of the list does not matter to it. -/
namespace Engine

variable {α β : Type} {f : α → Option β} {l l' : List α}

/-- Any two hits are the same. -/
def HitsAgree (f : α → Option β) (l : List α) : Prop :=
  ∀ a ∈ l, ∀ b ∈ l, ∀ x y, f a = some x → f b = some y → x = y

theorem findSome?_of_agree (h : HitsAgree f l) (hperm : l'.Perm l) :
    l'.findSome? f = l.findSome? f := by
  cases hl : l.findSome? f with
  | none =>
    rw [List.findSome?_eq_none_iff] at hl ⊢
    exact fun a ha => hl a (hperm.mem_iff.mp ha)
  | some x =>
    obtain ⟨a, ha, hx⟩ := List.exists_of_findSome?_eq_some hl
    cases hl' : l'.findSome? f with
    | none =>
      rw [List.findSome?_eq_none_iff.mp hl' a (hperm.mem_iff.mpr ha)] at hx
      cases hx
    | some y =>
      obtain ⟨b, hb, hy⟩ := List.exists_of_findSome?_eq_some hl'
      exact congrArg some (h b (hperm.mem_iff.mp hb) a ha y x hy hx)

/-- Every hit is the first one in some order. -/
theorem exists_perm_findSome? {a : α} {x : β} (ha : a ∈ l) (hx : f a = some x) :
    ∃ l' : List α, l'.Perm l ∧ l'.findSome? f = some x := by
  obtain ⟨s, t, rfl⟩ := List.append_of_mem ha
  exact ⟨a :: (s ++ t), List.perm_middle.symm, by rw [List.findSome?_cons, hx]⟩

/-- The first hit does not depend on the order just when all hits agree. -/
theorem findSome?_perm_iff :
    (∀ l' : List α, l'.Perm l → l'.findSome? f = l.findSome? f) ↔ HitsAgree f l := by
  constructor
  · intro h a ha b hb x y hx hy
    obtain ⟨l₁, h₁, hf₁⟩ := exists_perm_findSome? ha hx
    obtain ⟨l₂, h₂, hf₂⟩ := exists_perm_findSome? hb hy
    have hsame : some x = some y := by rw [← hf₁, ← hf₂, h l₁ h₁, h l₂ h₂]
    exact Option.some.inj hsame
  · exact fun h l' => findSome?_of_agree h

end Engine
