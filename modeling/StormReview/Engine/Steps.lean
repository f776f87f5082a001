import Mathlib.Logic.Function.Basic

/-! A workflow engine: steps run in order over a threaded state `σ`, a step may suspend with a
payload, and a later resume executes that step again on the input it was suspended with.

What an engine has to keep to so as to be this one: a step that hands on a state is followed by
the next step of the list, once; a step that suspends ends the run, and the input it had is kept
for the resume; only the resumed step gets the data of the resume, and the steps behind it run as
in a start; a step that throws ends the run, and what it did to the world stays. Whether the
next step accepts the state it is handed is for the step that hands it on to say. -/
namespace Engine

variable {σ ρ π ε ω κ : Type}

inductive Outcome (σ π ε : Type) where
  | next (s : σ)
  | suspend (payload : π)
  | throw (e : ε)

/-- A step reads the resume data, if it is being resumed, and may act on the world `ω`. -/
structure Step (σ ρ π ε ω : Type) where
  id : String
  execute : Option ρ → σ → ω → Outcome σ π ε × ω

/-- A step that leaves the world alone. -/
def Step.quiet (id : String) (f : Option ρ → σ → Outcome σ π ε) : Step σ ρ π ε ω where
  id
  execute := fun r s w => (f r s, w)

/-- A step that may throw for a reason of its own before it does anything. -/
def Step.guarded (stop : String → Option ε) (st : Step σ ρ π ε ω) : Step σ ρ π ε ω where
  id := st.id
  execute := fun r s w =>
    match stop st.id with
    | some e => (.throw e, w)
    | none => st.execute r s w

theorem Step.guarded_of_none {stop : String → Option ε} {st : Step σ ρ π ε ω}
    (h : stop st.id = none) : st.guarded stop = st := by
  simp [guarded, h]

inductive Result (σ π ε : Type) where
  | success (s : σ)
  | suspended (step : String) (input : σ) (payload : π)
  | failed (e : ε)

def drive : List (Step σ ρ π ε ω) → Option ρ → σ → ω → Result σ π ε × ω
  | [], _, s, w => (.success s, w)
  | st :: rest, r, s, w =>
    match st.execute r s w with
    | (.next s', w') => drive rest none s' w'
    | (.suspend payload, w') => (.suspended st.id s payload, w')
    | (.throw e, w') => (.failed e, w')

def start (steps : List (Step σ ρ π ε ω)) (s : σ) (w : ω) : Result σ π ε × ω :=
  drive steps none s w

/-- Only the resumed step sees the data. -/
def resume (steps : List (Step σ ρ π ε ω)) (step : String) (data : ρ) (input : σ) (w : ω) :
    Result σ π ε × ω :=
  drive (steps.dropWhile fun st => st.id ≠ step) (some data) input w

section drive
variable {rest : List (Step σ ρ π ε ω)} {r : Option ρ} {s s' : σ} {w : ω} {payload : π} {e : ε}

theorem drive_quiet_next {id : String} {f : Option ρ → σ → Outcome σ π ε}
    (h : f r s = .next s') : drive (.quiet id f :: rest) r s w = drive rest none s' w := by
  simp [drive, Step.quiet, h]

theorem drive_quiet_suspend {id : String} {f : Option ρ → σ → Outcome σ π ε}
    (h : f r s = .suspend payload) :
    drive (.quiet id f :: rest) r s w = (.suspended id s payload, w) := by
  simp [drive, Step.quiet, h]

theorem drive_quiet_throw {id : String} {f : Option ρ → σ → Outcome σ π ε}
    (h : f r s = .throw e) : drive (.quiet id f :: rest) r s w = (.failed e, w) := by
  simp [drive, Step.quiet, h]

theorem drive_guarded_stopped {stop : String → Option ε} {st : Step σ ρ π ε ω}
    (h : stop st.id = some e) : drive (st.guarded stop :: rest) r s w = (.failed e, w) := by
  simp [drive, Step.guarded, h]

theorem drive_guarded_none {stop : String → Option ε} {st : Step σ ρ π ε ω}
    (h : stop st.id = none) : drive (st.guarded stop :: rest) r s w = drive (st :: rest) r s w := by
  rw [Step.guarded_of_none h]

end drive

/-! The runs the engine has persisted. -/

inductive Status (σ : Type) where
  | absent
  | suspended (step : String) (input : σ)
  | closed

def Result.status : Result σ π ε → Status σ
  | .success _ | .failed _ => .closed
  | .suspended step input _ => .suspended step input

/-- The input of a run that is suspended at a step. -/
def Status.inputAt (step : String) : Status σ → Option σ
  | .suspended at_ input => if at_ = step then some input else none
  | _ => none

abbrev Runs (κ σ : Type) := κ → Status σ

theorem Status.inputAt_eq_some {step : String} {status : Status σ} {input : σ} :
    status.inputAt step = some input ↔ status = .suspended step input := by
  cases status with
  | suspended at_ stored =>
    by_cases h : at_ = step <;> simp [inputAt, h]
  | _ => simp [inputAt]

end Engine
