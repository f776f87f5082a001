import StormReview.Evals.Run
import StormReview.Lib.Model

/-! The preflight: what it looks at, what it says of it, and how it exits. -/
namespace StormReview
open Js

/-- What the script finds where it runs. -/
structure Machine where
  nodeVersion : Text
  /-- `Number(process.versions.node.split('.')[0])`. -/
  nodeMajor : Nat
  env : Env
  judgeEnv : JudgeEnv
  files : Files
  /-- `fs.existsSync`. -/
  existsSync : Text → Bool
  /-- `data/precedents.json`, if it is read and parsed. -/
  precedents : Option Value
  /-- Whether the instance has the workflow and the agent, once it constructs. -/
  mastra : Except Thrown Bool

/-- A line of the report. -/
inductive Check where
  | ok (m : Text)
  | warn (m : Text)
  | fail (m : Text)

def Check.isWarn : Check → Bool
  | .warn _ => true
  | _ => false

def Check.isFail : Check → Bool
  | .fail _ => true
  | _ => false

namespace Machine

def checkNode (machine : Machine) : Check :=
  if 22 ≤ machine.nodeMajor then .ok (lit "node " ++ machine.nodeVersion)
  else .fail (lit "node " ++ machine.nodeVersion ++ lit " (need >= 22)")

def checkAgentKey (machine : Machine) : Check :=
  if hasAgentKey machine.env then
    .ok (lit "ANTHROPIC_API_KEY set - live runs use " ++ agentModel machine.env)
  else
    .warn (lit "ANTHROPIC_API_KEY not set - dev/serve/demo run from the cached golden run " ++
      lit "(zero-key). Set it for live runs.")

def checkJudgeKey (machine : Machine) : Check :=
  if hasJudgeKey machine.judgeEnv then
    .ok (lit "judge key set - evals grade decisive-fact recall with " ++
      judgeModel machine.judgeEnv)
  else
    .warn (lit "no judge key - evals run the deterministic scorers and skip the LLM judge line.")

/-- `path.join(GOLDEN_DIR, ..)` of a case. -/
def goldenPath (machine : Machine) (c : CaseRecord) : Text :=
  Path.join [machine.files.goldenDir, lit "case" ++ c.id ++ lit ".json"]

/-- What is missing of a case, in the order it is looked for. -/
def problems (machine : Machine) (c : CaseRecord) : List Text :=
  let files := machine.files
  (if (loadWording files c.policyId).isNone then [lit "wording " ++ c.policyId] else []) ++
    (if (loadWeather files c.postcodeDistrict c.dateOfLoss).isNone then
      [lit "weather " ++ c.postcodeDistrict ++ lit "/" ++ c.dateOfLoss]
    else []) ++
    (if (loadReport files c.claimId).isNone then [lit "report " ++ c.claimId] else []) ++
    (if (loadCustomer files c.customerId).isNone then [lit "customer " ++ c.customerId] else []) ++
    (if machine.existsSync (machine.goldenPath c) then []
    else [lit "golden case" ++ c.id ++ lit ".json"])

def checkCase (machine : Machine) (c : CaseRecord) : Check :=
  if machine.problems c = [] then
    .ok (lit "Case " ++ c.id ++ lit " (" ++ c.claimId ++ lit ") complete")
  else
    .fail (lit "Case " ++ c.id ++ lit ": missing " ++ join (lit ", ") (machine.problems c))

def checkCases (machine : Machine) : List Check :=
  (if loadCases machine.files = [] then [.fail (lit "no cases in data/cases.json")] else []) ++
    (loadCases machine.files).map machine.checkCase

/-- `${p.length}`, unless reading it throws. -/
def lengthText : Value → Option Text
  | .undefined | .null => none
  | .arr items => some (natText items.length)
  | .str s => some (natText s.length)
  | v => some (v.get (lit "length")).display

def isSeventeen : Value → Bool
  | .arr items => items.length == 17
  | _ => false

def checkPrecedents (machine : Machine) : Check :=
  match machine.precedents.bind fun p => (lengthText p).map fun n => (p, n) with
  | none => .fail (lit "could not read data/precedents.json")
  | some (p, n) =>
    if isSeventeen p then .ok (lit "17 precedents loaded")
    else .warn (lit "expected 17 precedents, found " ++ n)

def checkMastra (machine : Machine) : Check :=
  match machine.mastra with
  | .ok true =>
    .ok (lit "constructs; workflow \"stormReview\" and agent \"reviewer\" registered")
  | .ok false => .fail (lit "workflow or agent missing")
  | .error e => .fail (lit "Mastra instance failed to construct: " ++ e.text)

/-- The lines of the report, without its headings. -/
def checks (machine : Machine) : List Check :=
  [machine.checkNode, machine.checkAgentKey, machine.checkJudgeKey] ++ machine.checkCases ++
    [machine.checkPrecedents, machine.checkMastra]

def warns (machine : Machine) : Nat := machine.checks.countP Check.isWarn

def fails (machine : Machine) : Nat := machine.checks.countP Check.isFail

/-- The last line, and the code the process exits with. -/
def doctor (machine : Machine) : Text × Nat :=
  if machine.fails ≠ 0 then
    (lit "doctor: " ++ natText machine.fails ++ lit " failure(s), " ++ natText machine.warns ++
      lit " warning(s). Fix the failures before running.", 1)
  else
    (lit "doctor: ready. " ++ natText machine.warns ++
      lit " warning(s). Try: npm run demo, then npm run serve.", 0)

/-! What a clean report says. -/

/-- Everything that is shown of a case and asked about it is on file. -/
structure Complete (machine : Machine) (c : CaseRecord) : Prop where
  wording : (loadWording machine.files c.policyId).isSome
  weather : (loadWeather machine.files c.postcodeDistrict c.dateOfLoss).isSome
  report : (loadReport machine.files c.claimId).isSome
  customer : (loadCustomer machine.files c.customerId).isSome
  golden : machine.existsSync (machine.goldenPath c) = true

structure Prepared (machine : Machine) : Prop where
  node : 22 ≤ machine.nodeMajor
  cases_ne_nil : loadCases machine.files ≠ []
  complete : ∀ c ∈ loadCases machine.files, machine.Complete c
  precedents : ∃ p, machine.precedents = some p ∧ p.isNullish = false
  mastra : machine.mastra = .ok true

variable {machine : Machine} {c : CaseRecord}

theorem problems_eq_nil_iff : machine.problems c = [] ↔ machine.Complete c := by
  have hsome {α : Type} (o : Option α) : o.isNone = false ↔ o.isSome = true := by
    cases o <;> simp
  simp only [problems, List.append_eq_nil_iff, ite_eq_right_iff, ite_eq_left_iff,
    List.cons_ne_nil, imp_false, Bool.not_eq_true, hsome, Bool.not_eq_false]
  constructor
  · rintro ⟨⟨⟨⟨hwording, hweather⟩, hreport⟩, hcustomer⟩, hgolden⟩
    exact ⟨hwording, hweather, hreport, hcustomer, hgolden⟩
  · intro h
    exact ⟨⟨⟨⟨h.wording, h.weather⟩, h.report⟩, h.customer⟩, h.golden⟩

theorem checkCase_isFail : (machine.checkCase c).isFail = false ↔ machine.Complete c := by
  rw [← problems_eq_nil_iff, checkCase]
  split
  · exact iff_of_true rfl ‹_›
  · exact iff_of_false (by simp [Check.isFail]) ‹_›

theorem checkCases_isFail : (∀ check ∈ machine.checkCases, check.isFail = false) ↔
    loadCases machine.files ≠ [] ∧ ∀ c ∈ loadCases machine.files, machine.Complete c := by
  by_cases h : loadCases machine.files = []
  · simp [checkCases, h, Check.isFail]
  · simp [checkCases, h, checkCase_isFail]

theorem checkPrecedents_isFail : machine.checkPrecedents.isFail = false ↔
    ∃ p, machine.precedents = some p ∧ p.isNullish = false := by
  cases hp : machine.precedents with
  | none => simp [checkPrecedents, hp, Check.isFail]
  | some p =>
    have hlength : (lengthText p).isSome = !p.isNullish := by
      cases p <;> rfl
    cases hn : lengthText p with
    | none =>
      have hnull : p.isNullish = true := by simpa [hn] using hlength.symm
      simp [checkPrecedents, hp, hn, Check.isFail, hnull]
    | some n =>
      have hnull : p.isNullish = false := by simpa [hn] using hlength.symm
      cases hs : isSeventeen p <;> simp [checkPrecedents, hp, hn, hs, Check.isFail, hnull]

/-- The process exits with success just when everything is in place. -/
theorem doctor_exit_zero_iff : machine.doctor.2 = 0 ↔ machine.Prepared := by
  have hkeys : machine.checkAgentKey.isFail = false ∧ machine.checkJudgeKey.isFail = false := by
    constructor
    · unfold checkAgentKey
      split <;> rfl
    · unfold checkJudgeKey
      split <;> rfl
  have hnode : machine.checkNode.isFail = false ↔ 22 ≤ machine.nodeMajor := by
    unfold checkNode
    split
    · exact iff_of_true rfl ‹_›
    · exact iff_of_false (by simp [Check.isFail]) ‹_›
  have hmastra : machine.checkMastra.isFail = false ↔ machine.mastra = .ok true := by
    unfold checkMastra
    split <;> simp_all [Check.isFail]
  have hexit : machine.doctor.2 = 0 ↔ ∀ check ∈ machine.checks, check.isFail = false := by
    have hcount : machine.fails = 0 ↔ ∀ check ∈ machine.checks, ¬ check.isFail = true :=
      List.countP_eq_zero
    unfold doctor
    split
    · simp_all
    · simp_all
  rw [hexit]
  simp only [checks, List.cons_append, List.nil_append, List.forall_mem_cons,
    List.forall_mem_append, hnode, hkeys, checkCases_isFail, checkPrecedents_isFail, hmastra]
  constructor
  · rintro ⟨hn, -, -, ⟨hne, hcases⟩, hp, hm, -⟩
    exact ⟨hn, hne, hcases, hp, hm⟩
  · intro h
    exact ⟨h.node, trivial, trivial, ⟨h.cases_ne_nil, h.complete⟩, h.precedents, h.mastra, by simp⟩

end Machine
end StormReview
