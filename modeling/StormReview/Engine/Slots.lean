import Mathlib.Data.List.Nodup

/-! A store of slots, whatever is kept in them: each writer has a slot of its own and leaves
every other slot as it was. -/
namespace Slots

variable {σ κ ν τ : Type}

/-- The writer `t` changes at most the slot `key t`. -/
def Slotted (read : σ → κ → ν) (key : τ → κ) (act : τ → σ → σ) : Prop :=
  ∀ t s k, key t ≠ k → read (act t s) k = read s k

def run (act : τ → σ → σ) (ts : List τ) (s : σ) : σ := ts.foldl (fun s t => act t s) s

variable {read : σ → κ → ν} {key : τ → κ} {act : τ → σ → σ}

theorem run_append (act : τ → σ → σ) (ts us : List τ) (s : σ) :
    run act (ts ++ us) s = run act us (run act ts s) := by
  rw [run, List.foldl_append, run, run]

theorem run_cons (act : τ → σ → σ) (t : τ) (ts : List τ) (s : σ) :
    run act (t :: ts) s = run act ts (act t s) := rfl

/-- A slot of none of the writers keeps what it holds. -/
theorem Slotted.run_other (h : Slotted read key act) {ts : List τ} {k : κ}
    (hk : ∀ t ∈ ts, key t ≠ k) (s : σ) : read (run act ts s) k = read s k := by
  induction ts generalizing s with
  | nil => rfl
  | cons t ts ih =>
    rw [run_cons, ih fun u hu => hk u (List.mem_cons_of_mem t hu)]
    exact h t s k (hk t List.mem_cons_self)

/-- Where no two writers share a slot, each slot ends with what its writer left there. -/
theorem Slotted.run_own (h : Slotted read key act) {before later : List τ} {t : τ}
    (hkeys : ((before ++ t :: later).map key).Nodup) (s : σ) :
    read (run act (before ++ t :: later) s) (key t) =
      read (act t (run act before s)) (key t) := by
  rw [run_append, run_cons]
  apply h.run_other
  intro u hu heq
  rw [List.map_append, List.map_cons, List.nodup_append] at hkeys
  have hnot := (List.nodup_cons.mp hkeys.2.1).1
  exact hnot (heq ▸ List.mem_map_of_mem hu)

end Slots
