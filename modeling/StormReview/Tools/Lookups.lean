import StormReview.Lib.Loader

/-! The agent's tools that look up one record. A record that is not on file is an answer too:
no tool throws. -/
namespace StormReview
open Js Zod

/-- The data of a tool, or `Unavailable`. -/
inductive Lookup (α : Type) where
  | found (data : α)
  | unavailable (reason : Text)

/-- `ReportOut`: no guard events. -/
structure ReportOut where
  claimId : Text
  author : Author
  recommendation : Recommendation
  statedReason : Text
  narrative : Text
  photos : List Photo
  priorRepairsObserved : Bool
  causationReasoned : Bool
  cashAmount : Option Number
  cashBasis : Option CashBasis
  customerEmergencyRepairCost : Option Number

def getAdjusterReport (files : Files) (claimId : Text) : Lookup ReportOut :=
  match loadReport files claimId with
  | none => .unavailable (lit "no adjuster report on file for claim " ++ claimId)
  | some r =>
    .found
      { claimId := r.claimId
        author := r.author
        recommendation := r.recommendation
        statedReason := r.statedReason
        narrative := r.narrative
        photos := r.photos
        priorRepairsObserved := r.priorRepairsObserved
        causationReasoned := r.causationReasoned
        cashAmount := r.cashAmount
        cashBasis := r.cashBasis
        customerEmergencyRepairCost := r.customerEmergencyRepairCost }

/-- `CustomerOut`: no free text, whatever the file stores. -/
structure CustomerOut where
  vulnerabilityFlag : Option Bool
  vulnerabilityCategory : Option VulnerabilityCategory
  tenureYears : Number
  priorClaims : Number
  ageBand : Text

def getCustomerContext (files : Files) (customerId : Text) : Lookup CustomerOut :=
  match loadCustomer files customerId with
  | none => .unavailable (lit "no customer record on file for " ++ customerId)
  | some c =>
    .found
      { vulnerabilityFlag := c.vulnerabilityFlag
        vulnerabilityCategory := c.vulnerabilityCategory
        tenureYears := c.tenureYears
        priorClaims := c.priorClaims
        ageBand := c.ageBand }

/-- `WeatherOut`: no status, since it is there only when the source is available. -/
structure WeatherOut where
  postcodeDistrict : Text
  dateOfLoss : Text
  windowFrom : Text
  windowTo : Text
  namedStorm : Option Text
  stations : List WeatherStation

def getWeatherReport (files : Files) (postcodeDistrict dateOfLoss : Text) : Lookup WeatherOut :=
  match loadWeather files postcodeDistrict dateOfLoss with
  | none =>
    .unavailable (lit "no weather report on file for " ++ postcodeDistrict ++ lit " on " ++
      dateOfLoss)
  | some w =>
    if w.status = .unavailable then
      .unavailable (w.reason.getD (lit "weather source unavailable"))
    else
      .found
        { postcodeDistrict := w.postcodeDistrict
          dateOfLoss := w.dateOfLoss
          windowFrom := w.windowFrom
          windowTo := w.windowTo
          namedStorm := w.namedStorm
          stations := w.stations }

structure WordingOut where
  wordingId : Text
  brand : Text
  version : Text
  discretionary : Bool
  stormDefinition : Text
  exclusions : List Text
  cashSettlementClause : Text
  previousVersion : Option Text

/-- An empty previous version is left out, as a missing one is. -/
def getPolicyWording (files : Files) (policyId : Text) : Lookup WordingOut :=
  match loadWording files policyId with
  | none => .unavailable (lit "no wording on file for policyId " ++ policyId)
  | some w =>
    .found
      { wordingId := w.id
        brand := w.brand
        version := w.version
        discretionary := w.discretionary
        stormDefinition := w.stormDefinition
        exclusions := w.exclusions
        cashSettlementClause := w.cashSettlementClause
        previousVersion := w.previousVersion.filter (· ≠ []) }

end StormReview
