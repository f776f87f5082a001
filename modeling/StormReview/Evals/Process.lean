import StormReview.Evals.Suite

/-! The eval as a process. HOLDOUT is a variable of the tool's module: the run of a case sets it
and clears it, and the tool reads what it finds there. -/
namespace StormReview
open Js Engine

structure EvalProcess where
  /-- `HOLDOUT`. -/
  holdout : List Text
  disk : AuditDisk

namespace EvalProcess
variable (env : Env) (rejects : Turn → Option (Thrown × AuditDisk)) (judge : Option Judge)

def setPrecedentHoldout (drns : List Text) (p : EvalProcess) : EvalProcess :=
  { p with holdout := drns }

def clearPrecedentHoldout (p : EvalProcess) : EvalProcess := { p with holdout := [] }

/-- What `runCase` does to HOLDOUT before its run starts. -/
def hold (fx : CaseFixture) (p : EvalProcess) : EvalProcess :=
  if hasAgentKey env ∧ fx.controllingDrns.length ≠ 0 then p.setPrecedentHoldout fx.controllingDrns
  else p

/-- `runCase`. A start that rejects throws and leaves the disk as `rejects` has it; HOLDOUT is
cleared either way. -/
def runCase (turn : Turn) (p : EvalProcess) :
    Except Thrown (Option Review × List Text) × EvalProcess :=
  let p := p.hold env turn.fx.toCaseFixture
  match rejects turn with
  | some (e, disk) => (.error e, clearPrecedentHoldout { p with disk })
  | none =>
    let world := { turn.world with agent := turn.agent p.holdout }
    let (_, disk) := startRun env world turn.runId turn.fx.caseId p.disk
    (.ok (StormReview.runCase env world turn.runId turn.fx.toCaseFixture p.disk),
      clearPrecedentHoldout { p with disk })

/-- What is thrown by a run or by the judge ends the eval. -/
def evalLoop : List Turn → Tally → EvalProcess → Except Thrown Tally × EvalProcess
  | [], t, p => (.ok t, p)
  | turn :: turns, t, p =>
    match p.runCase env rejects turn with
    | (.error e, p) => (.error e, p)
    | (.ok (review, returnedDrns), p) =>
      match scoreCase judge t { fx := turn.fx, review, returnedDrns } with
      | .error e => (.error e, p)
      | .ok t => evalLoop turns t p

/-- `main`. -/
def evalMain (pr : PairedRegression) (turns : List Turn) (p : EvalProcess) :
    Except Thrown EvalReport × EvalProcess :=
  let (t, p) := p.evalLoop env rejects judge turns Tally.empty
  (t.map fun t => { tally := t, n := turns.length, prPass := prPass pr t }, p)

variable {env rejects judge} {turn : Turn} {turns : List Turn} {p : EvalProcess}

/-- A case finds HOLDOUT empty, so what its tool reads is its own. -/
theorem holdout_hold (h : p.holdout = []) (fx : CaseFixture) :
    (p.hold env fx).holdout = holdoutOf env fx := by
  unfold hold holdoutOf
  split
  · rfl
  · exact h

theorem disk_hold (fx : CaseFixture) : (p.hold env fx).disk = p.disk := by
  unfold hold
  split <;> rfl

/-- HOLDOUT is cleared whether the run throws or not. -/
theorem holdout_runCase : (p.runCase env rejects turn).2.holdout = [] := by
  unfold runCase
  cases rejects turn <;> rfl

/-- A case that starts is the case of the loop that has no variable. -/
theorem runCase_started (h : p.holdout = []) (hstarts : rejects turn = none) :
    p.runCase env rejects turn =
      (.ok ((turn.graded env p.disk).review, (turn.graded env p.disk).returnedDrns),
        ⟨[], turn.leaves env p.disk⟩) := by
  simp only [runCase, hstarts, holdout_hold h, disk_hold]
  rfl

theorem holdout_evalLoop (h : p.holdout = []) (t : Tally) :
    (p.evalLoop env rejects judge turns t).2.holdout = [] := by
  induction turns generalizing t p with
  | nil => exact h
  | cons turn turns ih =>
    have hclear : (p.runCase env rejects turn).2.holdout = [] := holdout_runCase
    unfold evalLoop
    split
    · rename_i hrun
      rwa [hrun] at hclear
    · rename_i hrun
      rw [hrun] at hclear
      split
      · exact hclear
      · exact ih hclear _

/-- Where every case starts, the loop is the one that has no variable. -/
theorem evalLoop_refines (h : p.holdout = []) (hstarts : ∀ turn ∈ turns, rejects turn = none)
    (t : Tally) : p.evalLoop env rejects judge turns t =
      ((StormReview.evalLoop env judge turns t p.disk).1,
        ⟨[], (StormReview.evalLoop env judge turns t p.disk).2⟩) := by
  induction turns generalizing t p with
  | nil =>
    obtain ⟨holdout, disk⟩ := p
    obtain rfl : holdout = [] := h
    rfl
  | cons turn turns ih =>
    have hgraded : Graded.mk turn.fx (turn.graded env p.disk).review
        (turn.graded env p.disk).returnedDrns = turn.graded env p.disk := rfl
    have hrest : ∀ turn ∈ turns, rejects turn = none := fun turn hturn =>
      hstarts turn (List.mem_cons_of_mem _ hturn)
    simp only [evalLoop, StormReview.evalLoop, runCase_started h (hstarts turn List.mem_cons_self),
      hgraded]
    cases scoreCase judge t (turn.graded env p.disk) with
    | error e => rfl
    | ok t => exact @ih ⟨[], turn.leaves env p.disk⟩ rfl hrest t

/-- A loop that ends has started every case. -/
theorem evalLoop_ok {t t' : Tally} {left : EvalProcess}
    (h : p.evalLoop env rejects judge turns t = (.ok t', left)) :
    ∀ turn ∈ turns, rejects turn = none := by
  induction turns generalizing t p with
  | nil => simp
  | cons turn turns ih =>
    unfold evalLoop at h
    cases hrejects : rejects turn with
    | some thrown =>
      have hrun : ∃ e p', p.runCase env rejects turn = (.error e, p') := by
        unfold runCase
        rw [hrejects]
        exact ⟨_, _, rfl⟩
      obtain ⟨e, p', hrun⟩ := hrun
      rw [hrun] at h
      cases congrArg Prod.fst h
    | none =>
      refine List.forall_mem_cons.mpr ⟨hrejects, ?_⟩
      split at h
      · cases congrArg Prod.fst h
      · split at h
        · cases congrArg Prod.fst h
        · exact ih h

theorem holdout_evalMain (h : p.holdout = []) (pr : PairedRegression) :
    (p.evalMain env rejects judge pr turns).2.holdout = [] := by
  rw [evalMain]
  exact holdout_evalLoop h Tally.empty

theorem evalMain_refines (h : p.holdout = []) (hstarts : ∀ turn ∈ turns, rejects turn = none)
    (pr : PairedRegression) : p.evalMain env rejects judge pr turns =
      ((StormReview.evalMain env judge pr turns p.disk).1,
        ⟨[], (StormReview.evalMain env judge pr turns p.disk).2⟩) := by
  simp only [evalMain, StormReview.evalMain, evalLoop_refines h hstarts]

theorem evalMain_ok {pr : PairedRegression} {report : EvalReport}
    (h : (p.evalMain env rejects judge pr turns).1 = .ok report) :
    ∀ turn ∈ turns, rejects turn = none := by
  cases hloop : p.evalLoop env rejects judge turns Tally.empty with
  | mk t left =>
    rw [evalMain, hloop] at h
    cases t with
    | ok t => exact evalLoop_ok hloop
    | error e => cases h

end EvalProcess

end StormReview
