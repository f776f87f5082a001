import StormReview.Tools.Lookups
import StormReview.Safety.Abstention

/-! The four readers of the weather: the gate's facts, the context block, the agent's tool and the
screen. -/
namespace StormReview
open Js Zod Engine

/-- What a line of the context block starts with when there is no weather. -/
def SaysUnavailable (line : Text) : Prop := lit "status: unavailable" <+: line

/-- A file of the weather directory is readable and is for the case's district and date. -/
def WeatherFileMatches (files : Files) (caseRecord : CaseRecord) : Prop :=
  ∃ names, files.readdir (files.dataPath (lit "weather")) = some names ∧
    ∃ f ∈ names, (lit ".json").isSuffixOf f = true ∧
      ∃ w, files.weather (Path.join [files.dataPath (lit "weather"), f]) = some w ∧
        w.postcodeDistrict = caseRecord.postcodeDistrict ∧ w.dateOfLoss = caseRecord.dateOfLoss

/-- For a case on file the four readers say alike whether the weather is unavailable. -/
def ReadersAgree (world : World) (caseId : Text) : Prop :=
  ∀ caseRecord report, OnFile world.files caseId caseRecord report →
    ∃ flow p facts left,
      prefetch world (Flow.initial caseId) = .next flow ∧ flow.prefetch = some p ∧
        flow.gateFacts = some facts ∧ flow.contextBlock = some (contextOf p) ∧
        buildLeft world.files caseId = some left ∧
        (facts.weatherStatus = .unavailable ↔ SaysUnavailable (weatherLine p.weather)) ∧
        (SaysUnavailable (weatherLine p.weather) ↔ ∃ reason, getWeatherReport world.files
          caseRecord.postcodeDistrict caseRecord.dateOfLoss = .unavailable reason) ∧
        ((∃ reason, getWeatherReport world.files caseRecord.postcodeDistrict
          caseRecord.dateOfLoss = .unavailable reason) ↔
            left.weather.map (·.status) = some .unavailable)

theorem weatherFileMatches_iff (files : Files) (caseRecord : CaseRecord) :
    WeatherFileMatches files caseRecord ↔
      loadWeather files caseRecord.postcodeDistrict caseRecord.dateOfLoss ≠ none := by
  rw [ne_eq, loadWeather_eq_none, WeatherFileMatches]
  push Not
  rfl

section readers
variable {files : Files} {world : World} {caseId : Text} {caseRecord : CaseRecord}
  {report : AdjusterReport}

theorem weatherLine_of_unavailable {weather : WeatherResult} (h : weather.status = .unavailable) :
    weatherLine weather = lit "status: unavailable - " ++ shown weather.reason ++
      lit (". No station data for this " ++
        "postcode. Do not infer wind speed from the named-storm list alone.") := by
  cases weather with
  | unavailable reason => rfl
  | report w =>
    have hs : w.status = .unavailable := h
    simp only [weatherLine, WeatherResult.status, hs]

theorem weatherLine_of_ok {w : WeatherReport} (h : w.status = .ok) :
    weatherLine (.report w) = weatherOkLine w := by
  simp only [weatherLine, WeatherResult.status, h]

/-- The context block goes by the status of what prefetch made of the lookup. -/
theorem saysUnavailable_iff (weather : WeatherResult) :
    SaysUnavailable (weatherLine weather) ↔ weather.status = .unavailable := by
  constructor
  · intro h
    cases weather with
    | unavailable reason => rfl
    | report w =>
      cases hs : w.status with
      | unavailable => exact hs
      | ok =>
        rw [weatherLine_of_ok hs] at h
        obtain ⟨rest, hrest⟩ := h
        have hhead : some (cu 's') = some (cu 'n') := congrArg List.head? hrest
        exact absurd hhead (by decide)
  · intro h
    have hstart : lit "status: unavailable" <+: lit "status: unavailable - " := ⟨lit " - ", rfl⟩
    rw [weatherLine_of_unavailable h]
    exact hstart.trans ((List.prefix_append _ _).trans (List.prefix_append _ _))

theorem weatherResult_unavailable_iff (weatherRaw : Option WeatherReport) :
    (weatherResult weatherRaw).status = .unavailable ↔
      ∀ w, weatherRaw = some w → w.status = .unavailable := by
  cases weatherRaw with
  | none => simp [weatherResult, WeatherResult.status]
  | some w =>
    by_cases hs : w.status = .unavailable
    · simp [weatherResult, WeatherResult.status, hs]
    · simp [weatherResult, WeatherResult.status, hs]

theorem getWeatherReport_unavailable_iff (postcodeDistrict dateOfLoss : Text) :
    (∃ reason, getWeatherReport files postcodeDistrict dateOfLoss = .unavailable reason) ↔
      ∀ w, loadWeather files postcodeDistrict dateOfLoss = some w → w.status = .unavailable := by
  unfold getWeatherReport
  cases loadWeather files postcodeDistrict dateOfLoss with
  | none => simp
  | some w =>
    by_cases hs : w.status = .unavailable
    · simp [hs]
    · simp [hs]

/-- The screen shows the status of the file itself, and nothing where there is no file. -/
theorem buildLeft_weather (h : loadCase files caseId = some caseRecord) :
    ∃ left, buildLeft files caseId = some left ∧
      (left.weather.map (·.status) = some .unavailable ↔
        ∃ w, loadWeather files caseRecord.postcodeDistrict caseRecord.dateOfLoss = some w ∧
          w.status = .unavailable) := by
  refine ⟨_, by rw [buildLeft, h, Option.map_some], ?_⟩
  cases loadWeather files caseRecord.postcodeDistrict caseRecord.dateOfLoss <;> simp

end readers

/-- The readers agree exactly where a weather file matches the case: with none, the first three
say that there is no weather and the screen has nothing to say. -/
theorem readers_agree_iff (world : World) (caseId : Text) :
    ReadersAgree world caseId ↔ ∀ caseRecord report,
      OnFile world.files caseId caseRecord report →
        WeatherFileMatches world.files caseRecord := by
  refine forall₂_congr fun caseRecord report => imp_congr_right fun hfile => ?_
  obtain ⟨left, hleft, hscreen⟩ := buildLeft_weather hfile.case
  have hfacts := weatherResult_unavailable_iff
    (loadWeather world.files caseRecord.postcodeDistrict caseRecord.dateOfLoss)
  have hline := saysUnavailable_iff (weatherResult
    (loadWeather world.files caseRecord.postcodeDistrict caseRecord.dateOfLoss))
  have htool := @getWeatherReport_unavailable_iff world.files
    caseRecord.postcodeDistrict caseRecord.dateOfLoss
  rw [weatherFileMatches_iff]
  constructor
  · rintro ⟨flow, p, facts, left', -, -, -, -, hleft', -, -, hagree⟩ hnone
    obtain rfl := Option.some.inj (hleft.symm.trans hleft')
    rw [htool, hscreen, hnone] at hagree
    simp at hagree
  · intro hsome
    refine ⟨_, _, _, left, prefetch_onFile hfile, rfl, rfl, rfl, hleft, hline.symm,
      hline.trans (hfacts.trans htool.symm), ?_⟩
    obtain ⟨w, hw⟩ := Option.ne_none_iff_exists'.mp hsome
    rw [htool, hscreen]
    simp [hw]

/-- No weather file: the handler's screen does not say that the weather is unavailable. -/
theorem missing_weather_file_disagrees :
    ¬ ReadersAgree (sampleWorld (sampleFiles .decline none none) .undefined) (lit "A") := by
  intro h
  obtain ⟨flow, p, facts, left, -, -, -, -, hleft, -, -, hagree⟩ := h _ _ (sample_onFile ..)
  obtain rfl := Option.some.inj hleft
  cases hagree.mp ⟨_, rfl⟩

end StormReview
