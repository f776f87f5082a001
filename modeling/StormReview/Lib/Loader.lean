import StormReview.Js.Path
import StormReview.Zod.Schema
import StormReview.Guards.InjectionGuard
import StormReview.Guards.PrivacyGuard

/-! The fixture records and the loader that reads them. The guards on the narrative run here,
so no reader of a report sees it unguarded. -/
namespace StormReview
open Js Zod

structure Wording where
  id : Text
  brand : Text
  version : Text
  effectiveFrom : Text
  discretionary : Bool
  stormDefinition : Text
  exclusions : List Text
  cashSettlementClause : Text
  previousVersion : Option Text
  deriving DecidableEq

structure WeatherStation where
  name : Text
  distanceKm : Number
  meanWindMph : Number
  maxGustMph : Number
  maxRainMmPerHr : Number
  snowCm : Number
  deriving DecidableEq

inductive WeatherStatus where
  | ok | unavailable
  deriving DecidableEq

instance : Enum WeatherStatus where
  options := [.ok, .unavailable]
  text
    | .ok => lit "ok"
    | .unavailable => lit "unavailable"
  mem_options a := by cases a <;> decide
  text_inj a b := by cases a <;> cases b <;> decide

structure WeatherReport where
  postcodeDistrict : Text
  dateOfLoss : Text
  windowFrom : Text
  windowTo : Text
  namedStorm : Option Text
  status : WeatherStatus
  reason : Option Text
  stations : List WeatherStation
  deriving DecidableEq

inductive PhotoTaken where
  | ground | roof | customer
  deriving DecidableEq

instance : Enum PhotoTaken where
  options := [.ground, .roof, .customer]
  text
    | .ground => lit "ground"
    | .roof => lit "roof"
    | .customer => lit "customer"
  mem_options a := by cases a <;> decide
  text_inj a b := by cases a <;> cases b <;> decide

structure Photo where
  id : Text
  description : Text
  taken : PhotoTaken
  dated : Bool
  exifPresent : Bool
  showsPriorRepair : Bool
  deriving DecidableEq

inductive AuthorType where
  | desk | field | tpa
  deriving DecidableEq

instance : Enum AuthorType where
  options := [.desk, .field, .tpa]
  text
    | .desk => lit "desk"
    | .field => lit "field"
    | .tpa => lit "tpa"
  mem_options a := by cases a <;> decide
  text_inj a b := by cases a <;> cases b <;> decide

structure Author where
  type : AuthorType
  firm : Text
  deriving DecidableEq

inductive Recommendation where
  | decline | cashSettle
  deriving DecidableEq

instance : Enum Recommendation where
  options := [.decline, .cashSettle]
  text
    | .decline => lit "decline"
    | .cashSettle => lit "cash_settle"
  mem_options a := by cases a <;> decide
  text_inj a b := by cases a <;> cases b <;> decide

inductive CashBasis where
  | networkRates | customerQuotes
  deriving DecidableEq

instance : Enum CashBasis where
  options := [.networkRates, .customerQuotes]
  text
    | .networkRates => lit "network_rates"
    | .customerQuotes => lit "customer_quotes"
  mem_options a := by cases a <;> decide
  text_inj a b := by cases a <;> cases b <;> decide

structure GuardEvents where
  injectionRemoved : List InjectionRemoval
  privacyRedactions : Nat
  deriving DecidableEq

/-- `guardEvents` is never on disk: the loader fills it in. -/
structure AdjusterReport where
  claimId : Text
  author : Author
  recommendation : Recommendation
  statedReason : Text
  narrative : Text
  photos : List Photo
  priorRepairsObserved : Bool
  causationReasoned : Bool
  cashAmount : Option Number
  cashBasis : Option CashBasis
  customerEmergencyRepairCost : Option Number
  guardEvents : Option GuardEvents
  deriving DecidableEq

inductive VulnerabilityCategory where
  | health | lifeEvent | resilience | capability
  deriving DecidableEq

instance : Enum VulnerabilityCategory where
  options := [.health, .lifeEvent, .resilience, .capability]
  text
    | .health => lit "health"
    | .lifeEvent => lit "life_event"
    | .resilience => lit "resilience"
    | .capability => lit "capability"
  mem_options a := by cases a <;> decide
  text_inj a b := by cases a <;> cases b <;> decide

/-- `other` holds what the file stores beyond the fields the type names. Nothing checks that the
file has the flag. -/
structure Customer where
  customerId : Text
  vulnerabilityFlag : Option Bool
  vulnerabilityCategory : Option VulnerabilityCategory
  tenureYears : Number
  priorClaims : Number
  ageBand : Text
  other : List (Text × Value)

structure CaseRecord where
  id : Text
  title : Text
  claimId : Text
  customerId : Text
  policyId : Text
  postcodeDistrict : Text
  dateOfLoss : Text
  damageType : Text
  brand : Text
  summary : Text
  deriving DecidableEq

structure ToolCall where
  tool : Value
  args : Value
  resultSummary : Text

structure GoldenRun where
  review : Value
  toolCalls : Option (List ToolCall)
  returnedDrns : Option (List Text)

/-- What reading and parsing the file at an absolute path gives, as the type the caller asks
for: nothing when the file is missing, unreadable, not JSON, or null. -/
structure Files where
  projectRoot : Text
  cases : Text → Option (List CaseRecord)
  wording : Text → Option Wording
  weather : Text → Option WeatherReport
  report : Text → Option AdjusterReport
  customer : Text → Option Customer
  golden : Text → Option GoldenRun
  /-- `fs.readdirSync`. -/
  readdir : Text → Option (List Text)

def Files.dataDir (files : Files) : Text := Path.join [files.projectRoot, lit "data"]
def Files.auditDir (files : Files) : Text := Path.join [files.projectRoot, lit "audit"]
def Files.notesDir (files : Files) : Text := Path.join [files.auditDir, lit "notes"]
def Files.goldenDir (files : Files) : Text := Path.join [files.projectRoot, lit "golden"]

/-- Where `readJson` looks for a path given relative to the data directory. -/
def Files.dataPath (files : Files) (relFromData : Text) : Text :=
  Path.join [files.dataDir, relFromData]

/-- The file of a record in one of the stores under the data directory. -/
def Files.recordPath (files : Files) (store : String) (id : Text) : Text :=
  files.dataPath (Path.join [lit store, id ++ lit ".json"])

def loadCases (files : Files) : List CaseRecord :=
  (files.cases (files.dataPath (lit "cases.json"))).getD []

def loadCase (files : Files) (caseId : Text) : Option CaseRecord :=
  (loadCases files).find? fun c => c.id = caseId

def loadWording (files : Files) (policyId : Text) : Option Wording :=
  files.wording (files.recordPath "wordings" policyId)

def loadCustomer (files : Files) (customerId : Text) : Option Customer :=
  files.customer (files.recordPath "customers" customerId)

/-- The first readable report for the district and the date, in the order of the listing. -/
def loadWeather (files : Files) (postcodeDistrict dateOfLoss : Text) : Option WeatherReport :=
  let dir := files.dataPath (lit "weather")
  match files.readdir dir with
  | none => none
  | some names =>
    (names.filter fun f => (lit ".json").isSuffixOf f).findSome? fun f =>
      (files.weather (Path.join [dir, f])).filter fun w =>
        w.postcodeDistrict = postcodeDistrict ∧ w.dateOfLoss = dateOfLoss

def loadReport (files : Files) (claimId : Text) : Option AdjusterReport :=
  (files.report (files.recordPath "reports" claimId)).map fun report =>
    let injection := sanitizeNarrative report.narrative
    let privacy := pseudonymise injection.clean
    { report with
      narrative := privacy.clean
      guardEvents := some
        { injectionRemoved := injection.removed, privacyRedactions := privacy.redactions } }

def loadGolden (files : Files) (caseId : Text) : Option GoldenRun :=
  files.golden (Path.join [files.goldenDir, lit "case" ++ caseId ++ lit ".json"])

end StormReview
