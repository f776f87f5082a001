import Mathlib.Data.Set.Insert
import Mathlib.Logic.Relation
import Mathlib.Data.List.Nodup

/-! A sign-off ledger, whatever is being signed: an item is opened once, waits for a decision,
and is signed at most once, with an admissible decision, while it waits. -/
namespace Ledger

variable {κ δ : Type}

structure State (κ δ : Type) where
  waiting : Set κ
  signed : List (κ × δ)

inductive Step (admissible : κ → δ → Prop) : State κ δ → State κ δ → Prop
  /-- An item that was neither opened nor signed before starts to wait. -/
  | opened {s : State κ δ} {k : κ} : k ∉ s.waiting → k ∉ s.signed.map Prod.fst →
      Step admissible s { s with waiting := insert k s.waiting }
  | signedOff {s : State κ δ} {k : κ} {d : δ} : k ∈ s.waiting → admissible k d →
      Step admissible s { waiting := s.waiting \ {k}, signed := s.signed ++ [(k, d)] }
  /-- An item leaves the waiting room without a signature. -/
  | dropped {s : State κ δ} {k : κ} : k ∈ s.waiting →
      Step admissible s { s with waiting := s.waiting \ {k} }

structure Sound (admissible : κ → δ → Prop) (s : State κ δ) : Prop where
  once : (s.signed.map Prod.fst).Nodup
  settled : ∀ k ∈ s.signed.map Prod.fst, k ∉ s.waiting
  lawful : ∀ e ∈ s.signed, admissible e.1 e.2

variable {admissible : κ → δ → Prop} {s t : State κ δ}

theorem sound_empty (waiting : Set κ) : Sound admissible ⟨waiting, ([] : List (κ × δ))⟩ :=
  ⟨by simp, by simp, by simp⟩

theorem Step.sound (h : Step admissible s t) (hs : Sound admissible s) : Sound admissible t := by
  cases h with
  | @opened k hw hsig =>
    refine ⟨hs.once, fun j hj => ?_, hs.lawful⟩
    rintro (rfl | hmem)
    · exact hsig hj
    · exact hs.settled j hj hmem
  | @signedOff k d hw had =>
    have hnew : k ∉ s.signed.map Prod.fst := fun hk => hs.settled k hk hw
    refine ⟨?_, fun j hj => ?_, fun e he => ?_⟩
    · rw [List.map_append, List.nodup_append_comm]
      exact List.nodup_cons.mpr ⟨hnew, hs.once⟩
    · rw [List.map_append, List.mem_append] at hj
      rintro ⟨hmem, hne⟩
      rcases hj with hj | hj
      · exact hs.settled j hj hmem
      · exact hne (by simpa using hj)
    · rcases List.mem_append.mp he with he | he
      · exact hs.lawful e he
      · obtain rfl : e = (k, d) := by simpa using he
        exact had
  | dropped hw =>
    exact ⟨hs.once, fun j hj hmem => hs.settled j hj hmem.1, hs.lawful⟩

/-- Whatever is done to the ledger, nothing is signed twice or against the rules. -/
theorem sound_of_steps (h : Relation.ReflTransGen (Step admissible) s t)
    (hs : Sound admissible s) : Sound admissible t := by
  induction h with
  | refl => exact hs
  | tail _ hstep ih => exact hstep.sound ih

end Ledger
