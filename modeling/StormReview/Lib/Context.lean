import StormReview.Lib.Loader

/-! The structured context block of the user turn, built from the prefetched records. -/
namespace StormReview
open Js Zod

inductive WeatherResult where
  | report (w : WeatherReport)
  | unavailable (reason : Text)
  deriving DecidableEq

def WeatherResult.status : WeatherResult → WeatherStatus
  | .report w => w.status
  | .unavailable _ => .unavailable

def WeatherResult.reason : WeatherResult → Option Text
  | .report w => w.reason
  | .unavailable reason => some reason

def boolText (b : Bool) : Text := if b then lit "true" else lit "false"

/-- An optional text as a template literal shows it. -/
def shown (t : Option Text) : Text := t.getD (lit "undefined")

def stationLine (s : WeatherStation) : Text :=
  s.name ++ lit " (" ++ s.distanceKm ++ lit "km): meanWind " ++ s.meanWindMph ++
    lit "mph, maxGust " ++ s.maxGustMph ++ lit "mph, maxRain " ++ s.maxRainMmPerHr ++
    lit "mm/hr, snow " ++ s.snowCm ++ lit "cm"

def wordingLine : Option Wording → Text
  | some w =>
    w.stormDefinition ++ lit " | discretionary=" ++ boolText w.discretionary ++
      lit " | exclusions: " ++ join (lit "; ") w.exclusions ++ lit " | cash: " ++
      w.cashSettlementClause ++
      (match w.previousVersion with
        | some v => if v = [] then [] else lit " | previousVersion: " ++ v
        | none => [])
  | none => lit "unavailable: no wording on file"

def weatherOkLine (w : WeatherReport) : Text :=
  lit "namedStorm: " ++ w.namedStorm.getD (lit "none") ++ lit " | status: ok | stations: " ++
    join (lit " | ") (w.stations.map stationLine)

def weatherLine (weather : WeatherResult) : Text :=
  match weather.status, weather with
  | .ok, .report w => weatherOkLine w
  | _, _ =>
    lit "status: unavailable - " ++ shown weather.reason ++ lit (". No station data for this " ++
      "postcode. Do not infer wind speed from the named-storm list alone.")

structure ContextArgs where
  caseRecord : CaseRecord
  wording : Option Wording
  weather : WeatherResult
  report : AdjusterReport
  customer : Option Customer

def buildContextBlock (args : ContextArgs) : Text :=
  let report := args.report
  let caseRecord := args.caseRecord
  let wordingId := (args.wording.map (·.id)).getD (lit "unknown")
  let discretionary := (args.wording.map fun w => boolText w.discretionary).getD (lit "unknown")
  let vulnerabilityFlag :=
    (args.customer.map fun c => shown (c.vulnerabilityFlag.map boolText)).getD (lit "unknown")
  join (lit "\n")
    [lit "<goal>Review adjuster recommendation for claim " ++ report.claimId ++ lit ": " ++
       Enum.text report.recommendation ++ lit " - \"" ++ report.statedReason ++ lit "\".</goal>",
     lit ("<returnFormat>Answer Q1, Q2, Q3 in order, each with quoted evidence and any gaps, " ++
       "then produce the structured verdict.</returnFormat>"),
     lit ("<warnings>1. Use gusts, not means. 2. The wording in force governs: it is ") ++
       wordingId ++ lit ", discretionary=" ++ discretionary ++
       lit (". 3. Stage 2 burden: the insurer must prove any exclusion it relies on; a bare " ++
         "deterioration assertion without dated photos does not discharge it.</warnings>"),
     lit "<wording>" ++ wordingLine args.wording ++ lit "</wording>",
     lit "<weather>" ++ weatherLine args.weather ++ lit "</weather>",
     lit "<case>book=" ++ caseRecord.brand ++ lit ", postcodeDistrict=" ++
       caseRecord.postcodeDistrict ++ lit ", dateOfLoss=" ++ caseRecord.dateOfLoss ++
       lit ", customerId=" ++ caseRecord.customerId ++ lit ", claimId=" ++ report.claimId ++
       lit ", vulnerabilityFlag=" ++ vulnerabilityFlag ++ lit "</case>"]

end StormReview
