import Mathlib.Data.List.Forall2
import StormReview.Engine.FirstHit
import StormReview.Tools.Lookups
import StormReview.Safety.SignOff

/-! The weather directory is scanned in the order the file system lists it. Where each case has one
report, that order is immaterial to every run. -/
namespace StormReview
open Js Zod Engine

/-- The report of a listed file, if it is for the district and the date. -/
def weatherHit (files : Files) (postcodeDistrict dateOfLoss f : Text) : Option WeatherReport :=
  (files.weather (Path.join [files.dataPath (lit "weather"), f])).filter fun w =>
    w.postcodeDistrict = postcodeDistrict ∧ w.dateOfLoss = dateOfLoss

/-- The listed files that are scanned. -/
def scanned (names : List Text) : List Text := names.filter fun f => (lit ".json").isSuffixOf f

theorem loadWeather_eq (files : Files) (postcodeDistrict dateOfLoss : Text) :
    loadWeather files postcodeDistrict dateOfLoss =
      (files.readdir (files.dataPath (lit "weather"))).bind fun names =>
        (scanned names).findSome? (weatherHit files postcodeDistrict dateOfLoss) := by
  rw [loadWeather]
  cases files.readdir (files.dataPath (lit "weather")) <;> rfl

/-- The same installation, its directories listed in another order. -/
structure Relisted (files files' : Files) : Prop where
  rest : files' = { files with readdir := files'.readdir }
  listed : ∀ dir, Option.Rel List.Perm (files.readdir dir) (files'.readdir dir)

/-- All the reports on file for a district and a date are one. -/
def OneReport (files : Files) (postcodeDistrict dateOfLoss : Text) : Prop :=
  ∀ names, files.readdir (files.dataPath (lit "weather")) = some names →
    HitsAgree (weatherHit files postcodeDistrict dateOfLoss) (scanned names)

section files
variable {files files' : Files} {postcodeDistrict dateOfLoss : Text}

theorem Relisted.loadWeather (h : Relisted files files')
    (hone : OneReport files postcodeDistrict dateOfLoss) :
    loadWeather files' postcodeDistrict dateOfLoss = loadWeather files postcodeDistrict dateOfLoss := by
  have hdir : files'.dataPath (lit "weather") = files.dataPath (lit "weather") := by
    rw [h.rest]
    rfl
  have hhit : weatherHit files' postcodeDistrict dateOfLoss =
      weatherHit files postcodeDistrict dateOfLoss := by
    rw [h.rest]
    rfl
  have hlisted := h.listed (files.dataPath (lit "weather"))
  rw [loadWeather_eq, loadWeather_eq, hdir, hhit]
  unfold OneReport at hone
  generalize files.readdir (files.dataPath (lit "weather")) = names at hone hlisted ⊢
  generalize files'.readdir (files.dataPath (lit "weather")) = names' at hlisted ⊢
  cases hlisted with
  | none => rfl
  | @some names names' hperm => exact findSome?_of_agree (hone names rfl) (hperm.symm.filter _)

/-- Any order of the files that are scanned is that of some listing. -/
theorem exists_relisted {names order : List Text}
    (hnames : files.readdir (files.dataPath (lit "weather")) = some names)
    (horder : order.Perm (scanned names)) :
    ∃ files', Relisted files files' ∧ ∃ names',
      files'.readdir (files.dataPath (lit "weather")) = some names' ∧ scanned names' = order := by
  have hall : ∀ f ∈ order, (lit ".json").isSuffixOf f = true := fun f hf =>
    (List.mem_filter.mp (horder.mem_iff.mp hf)).2
  let others := names.filter fun f => !(lit ".json").isSuffixOf f
  have hperm : names.Perm (order ++ others) :=
    (List.filter_append_perm _ names).symm.trans (horder.symm.append_right others)
  refine ⟨{ files with
    readdir := Function.update files.readdir (files.dataPath (lit "weather"))
      (some (order ++ others)) }, ⟨rfl, fun dir => ?_⟩, _, Function.update_self .., ?_⟩
  · by_cases hdir : dir = files.dataPath (lit "weather")
    · subst hdir
      simp only [Function.update_self, hnames]
      exact .some hperm
    · simp only [Function.update_of_ne hdir]
      cases files.readdir dir with
      | none => exact .none
      | some listed => exact .some (.refl _)
  · rw [scanned, List.filter_append, List.filter_eq_self.mpr hall, List.filter_filter]
    simp

/-- The report that is found does not depend on the listing just when there is only one. -/
theorem loadWeather_relisted_iff (files : Files) (postcodeDistrict dateOfLoss : Text) :
    (∀ files', Relisted files files' → loadWeather files' postcodeDistrict dateOfLoss =
        loadWeather files postcodeDistrict dateOfLoss) ↔
      OneReport files postcodeDistrict dateOfLoss := by
  constructor
  · intro h names hnames
    apply findSome?_perm_iff.mp
    intro order horder
    obtain ⟨files', hrelisted, names', hnames', rfl⟩ := exists_relisted hnames horder
    have hsame := h files' hrelisted
    have hdir : files'.dataPath (lit "weather") = files.dataPath (lit "weather") := by
      rw [hrelisted.rest]
      rfl
    have hhit : weatherHit files' postcodeDistrict dateOfLoss =
        weatherHit files postcodeDistrict dateOfLoss := by
      rw [hrelisted.rest]
      rfl
    rwa [loadWeather_eq, loadWeather_eq, hdir, hhit, hnames, hnames', Option.bind_some,
      Option.bind_some] at hsame
  · exact fun hone files' h => h.loadWeather hone

end files

/-! Whole runs. -/

/-- Each case has one weather report. -/
def Files.CasesOneReport (files : Files) : Prop :=
  ∀ c ∈ loadCases files, OneReport files c.postcodeDistrict c.dateOfLoss

/-- The same moment, but for the order of the listings. -/
structure SameButListed (e e' : World × Request) : Prop where
  request : e'.2 = e.2
  world : e'.1 = { e.1 with files := e'.1.files }
  files : Relisted e.1.files e'.1.files

section run
variable {world world' : World}

theorem Relisted.loadCase {files files' : Files} (h : Relisted files files') (caseId : Text) :
    loadCase files' caseId = loadCase files caseId := by
  rw [h.rest]
  rfl

theorem mem_of_loadCase {files : Files} {caseId : Text} {c : CaseRecord}
    (h : loadCase files caseId = some c) : c ∈ loadCases files :=
  List.mem_of_find?_eq_some h

theorem Relisted.buildLeft {files files' : Files} (h : Relisted files files')
    (hone : files.CasesOneReport) (caseId : Text) :
    buildLeft files' caseId = buildLeft files caseId := by
  rw [StormReview.buildLeft, StormReview.buildLeft, h.loadCase]
  cases hc : StormReview.loadCase files caseId with
  | none => rfl
  | some c =>
    have hweather := h.loadWeather (hone c (mem_of_loadCase hc))
    simp only [Option.map_some, hweather]
    rw [h.rest]
    rfl

theorem Relisted.prefetchRecords {files files' : Files} (h : Relisted files files')
    {c : CaseRecord} (hone : OneReport files c.postcodeDistrict c.dateOfLoss)
    (report : AdjusterReport) :
    prefetchRecords files' c report = prefetchRecords files c report := by
  rw [StormReview.prefetchRecords, StormReview.prefetchRecords, h.loadWeather hone, h.rest]
  rfl

/-- Every step of a run is the same. -/
theorem stormReview_relisted (hworld : world' = { world with files := world'.files })
    (h : Relisted world.files world'.files) (hone : world.files.CasesOneReport) (env : Env)
    (runId : Text) : stormReview env world' runId = stormReview env world runId := by
  have hprefetch : prefetch world' = prefetch world := by
    funext flow
    rw [prefetch, prefetch, h.loadCase]
    cases hc : loadCase world.files flow.caseId with
    | none => rfl
    | some c =>
      have hreport : loadReport world'.files c.claimId = loadReport world.files c.claimId := by
        rw [h.rest]
        rfl
      simp only [hreport]
      cases loadReport world.files c.claimId with
      | none => rfl
      | some report => simp only [h.prefetchRecords (hone c (mem_of_loadCase hc)) report]
  have hreview : review env world' = review env world := by
    rw [hworld, h.rest]
    rfl
  have hrecord : recordStep env world' runId = recordStep env world runId := by
    rw [hworld, h.rest]
    rfl
  simp only [stormReview, hprefetch, hreview, hrecord]

/-- One request. -/
theorem SameButListed.handle {e e' : World × Request} (h : SameButListed e e')
    (hone : e.1.files.CasesOneReport) (s : ServerState) :
    handle e'.1 e'.2 s = handle e.1 e.2 s := by
  have hsteps : ∀ runId, stormReview s.env e'.1 runId = stormReview s.env e.1 runId :=
    stormReview_relisted h.world h.files hone s.env
  have herrors : e'.1.errors = e.1.errors := by
    rw [h.world]
  rw [h.request]
  cases e.2 with
  | restart env => rfl
  | run caseId runId =>
    simp only [StormReview.handle, postRun, startRun, hsteps, h.files.buildLeft hone]
  | resume runId body =>
    simp only [StormReview.handle, postResume, resumeRun, hsteps, herrors]

/-- Moments that are answered alike leave the same state. -/
theorem serve_congr {history history' : List (World × Request)}
    (h : List.Forall₂ (fun e e' : World × Request => ∀ s, handle e'.1 e'.2 s = handle e.1 e.2 s)
      history history') (s : ServerState) : serve history' s = serve history s := by
  induction h generalizing s with
  | nil => rfl
  | @cons e e' history history' hfirst _ ih =>
    have hhead : (handle e'.1 e'.2 s).2 = (handle e.1 e.2 s).2 := by
      rw [hfirst]
    simpa only [serve, List.foldl_cons, hhead] using ih (handle e.1 e.2 s).2

/-- A whole history. -/
theorem serve_relisted {history history' : List (World × Request)}
    (h : List.Forall₂ SameButListed history history')
    (hone : ∀ e ∈ history, e.1.files.CasesOneReport) (s : ServerState) :
    serve history' s = serve history s := by
  have hboth := (List.forall₂_and_left history history').mpr ⟨hone, h⟩
  exact serve_congr (hboth.imp fun _ _ hsame => hsame.2.handle hsame.1) s

end run

/-- Where each case has one weather report, the order in which the file system lists the weather
directory, which may change from request to request, changes no answer and no state over any
history, nor what the agent's tool finds for a case. -/
theorem listing_order_is_immaterial (history history' : List (World × Request))
    (last last' : World × Request) (s : ServerState)
    (h : List.Forall₂ SameButListed history history') (hlast : SameButListed last last')
    (hone : ∀ e ∈ history, e.1.files.CasesOneReport) (honeLast : last.1.files.CasesOneReport) :
    handle last'.1 last'.2 (serve history' s) = handle last.1 last.2 (serve history s) ∧
      ∀ c ∈ loadCases last.1.files,
        getWeatherReport last'.1.files c.postcodeDistrict c.dateOfLoss =
          getWeatherReport last.1.files c.postcodeDistrict c.dateOfLoss := by
  refine ⟨?_, fun c hc => ?_⟩
  · rw [serve_relisted h hone, hlast.handle honeLast]
  · rw [getWeatherReport, getWeatherReport, hlast.files.loadWeather (honeLast c hc)]

/-- The sample installation with a second weather file, listed first or last. -/
def listedFiles (names : List Text) : Files :=
  { sampleFiles .decline (some sampleWeather) none with readdir := fun _ => some names }

theorem listing_order_is_immaterial_sample :
    let first := [lit "CF.json", lit "WV.json"]
    let second := [lit "WV.json", lit "CF.json"]
    handle (sampleWorld (listedFiles second) .undefined) (.run (lit "A") (lit "r1"))
        (.initial (sampleEnv true)) =
      handle (sampleWorld (listedFiles first) .undefined) (.run (lit "A") (lit "r1"))
        (.initial (sampleEnv true)) ∧ first ≠ second := by
  intro first second
  have hsame : SameButListed
      (sampleWorld (listedFiles first) .undefined, .run (lit "A") (lit "r1"))
      (sampleWorld (listedFiles second) .undefined, .run (lit "A") (lit "r1")) :=
    ⟨rfl, rfl, rfl, fun _ => .some (.swap ..)⟩
  have hone : (listedFiles first).CasesOneReport := fun c _ names _ f _ g _ w v hw hv =>
    Option.some.inj (hw.symm.trans hv)
  exact ⟨(listing_order_is_immaterial [] [] _ _ (.initial (sampleEnv true)) .nil hsame
    (fun _ he => (by cases he)) hone).1, by decide⟩

end StormReview
