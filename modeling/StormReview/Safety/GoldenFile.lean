import StormReview.Js.Json.Indented
import StormReview.Safety.AuditScreen
import StormReview.Safety.Replay

/-! The recording as a file: what record-golden writes of a live run is what a later run reads. -/
namespace StormReview
open Js Zod Engine
open Js.Json (IsJson asRead asReadItems asReadFields indented)

/-- `out`: what is recorded of a run. -/
def goldenOut (env : Env) (world : World) (caseId : Text) (p : RunView) (rev : Review) : Value :=
  .obj [(lit "caseId", .str caseId), (lit "claimId", AuditFile.textOr p.claimId),
    (lit "recordedFrom", .str (lit "live " ++ agentModel env ++ lit " at " ++ world.now)),
    (lit "returnedDrns", texts p.returnedDrns),
    (lit "toolCalls", .arr (p.toolCalls.map ToolCall.toJs)), (lit "review", rev.toJs)]

/-- `JSON.stringify(out, null, 2)` and a newline. -/
def goldenText (out : Value) : Text :=
  (indented (lit "  ") [] out).getD (lit "undefined") ++ lit "\n"

/-- The file that record-golden leaves, as it reads back. -/
def writtenGolden (env : Env) (world : World) (runId caseId : Text) (disk : AuditDisk) :
    Option Text :=
  if present env.anthropicApiKeyVar then
    (viewOf (startRun (liveEnv env) world runId caseId disk).1).bind fun p =>
      p.review.map fun rev => toWellFormed (goldenText (goldenOut env world caseId p rev))
  else none

/-! `JSON.parse(..) as GoldenRun`: the fields that a run reads, under their declared types. -/

def itemsOf : Value → Option (List Value)
  | .arr items => some items
  | _ => none

def callOfJs (v : Value) : ToolCall where
  tool := v.get (lit "tool")
  args := v.get (lit "args")
  resultSummary := ((v.get (lit "resultSummary")).textOf).getD []

def goldenOfJs (v : Value) : GoldenRun where
  review := v.get (lit "review")
  toolCalls := (itemsOf (v.get (lit "toolCalls"))).map (·.map callOfJs)
  returnedDrns := (itemsOf (v.get (lit "returnedDrns"))).map (·.filterMap Value.textOf)

/-- `loadGolden`, on the text of its file; what is read is used if it is truthy. -/
def readGolden (numberText : Text → Text) (file : Option Text) : Option GoldenRun :=
  file.bind fun text =>
    (Json.parse numberText text).bind fun v => if v.truthy then some (goldenOfJs v) else none

/-! What has no undefined field is not changed on the way. -/

/-- Defined, and all of it is. -/
def Whole (v : Value) : Prop := v ≠ .undefined ∧ asRead v = v

theorem whole_str (s : Text) : Whole (.str s) := ⟨fun h => (by cases h), rfl⟩

theorem whole_bool (b : Bool) : Whole (.bool b) := ⟨fun h => (by cases h), rfl⟩

theorem whole_word {α : Type} [Enum α] (a : α) : Whole (word a) := whole_str _

theorem whole_arr {α : Type} {enc : α → Value} (h : ∀ a, Whole (enc a)) (l : List α) :
    Whole (.arr (l.map enc)) := by
  refine ⟨fun h => (by cases h), ?_⟩
  rw [asRead]
  induction l with
  | nil => rfl
  | cons a l ih => rw [List.map_cons, asReadItems, (h a).2, Value.arr.inj ih]

theorem whole_texts (ts : List Text) : Whole (texts ts) := whole_arr whole_str ts

theorem whole_obj {fields : List (Text × Value)} (h : fields.Forall fun f => Whole f.2) :
    Whole (.obj fields) := by
  refine ⟨fun h => (by cases h), ?_⟩
  rw [asRead]
  induction fields with
  | nil => rfl
  | cons f fields ih =>
    obtain ⟨hf, hfields⟩ := (List.forall_cons ..).mp h
    rw [Json.asReadFields_cons hf.1, hf.2, Value.obj.inj (ih hfields)]

theorem whole_evidence (e : Evidence) : Whole e.toJs :=
  whole_obj ⟨whole_word _, whole_str _, whole_str _⟩

theorem whole_finding {φ : Type} [Enum φ] (f : Finding φ) : Whole f.toJs :=
  whole_obj ⟨whole_word _, whole_arr whole_evidence _, whole_texts _⟩

theorem whole_review (r : Review) : Whole r.toJs :=
  whole_obj ⟨whole_str _, whole_str _, whole_finding _, whole_finding _, whole_finding _,
    whole_obj ⟨whole_bool _, whole_bool _, whole_bool _, whole_bool _, whole_str _⟩,
    whole_word _, whole_word _, whole_texts _, whole_texts _,
    whole_obj ⟨whole_word _, whole_word _⟩,
    whole_obj ⟨whole_bool _, whole_word _, whole_bool _⟩,
    whole_obj ⟨whole_bool _, whole_arr whole_word _, whole_str _⟩,
    whole_texts _, whole_str _⟩

theorem asReadItems_eq (items : List Value) : asReadItems items = items.map asRead := by
  induction items with
  | nil => rfl
  | cons v items ih => rw [asReadItems, ih, List.map_cons]

/-- A key of an object, where no key stands twice. -/
theorem get_asRead {fields : List (Text × Value)} (h : (fields.map (·.1)).Nodup) (key : Text) :
    (asRead (.obj fields)).get key = asRead ((Value.obj fields).get key) := by
  rw [asRead]
  induction fields with
  | nil => rfl
  | cons f fields ih =>
    obtain ⟨k, v⟩ := f
    obtain ⟨hk, hfields⟩ := List.nodup_cons.mp h
    have ih := ih hfields
    simp only [Value.get] at ih ⊢
    rw [List.lookup_cons]
    by_cases hkey : key = k
    · subst hkey
      have hother : fields.lookup key = none := by
        rw [List.lookup_eq_none_iff]
        intro g hg
        apply bne_iff_ne.mpr
        intro hsame
        have hmem : g.1 ∈ fields.map (·.1) := List.mem_map_of_mem hg
        exact hk (hsame ▸ hmem)
      by_cases hv : v = .undefined
      · subst hv
        rw [hother] at ih
        rw [beq_self_eq_true]
        exact ih
      · rw [Json.asReadFields_cons hv, List.lookup_cons, beq_self_eq_true]
        rfl
    · have hbeq : (key == k) = false := beq_eq_false_iff_ne.mpr hkey
      by_cases hv : v = .undefined
      · subst hv
        rw [hbeq]
        exact ih
      · rw [Json.asReadFields_cons hv, List.lookup_cons, hbeq]
        exact ih

/-! The recording. -/

/-- A tool call as it stands in the file. -/
def ToolCall.asRead (call : ToolCall) : ToolCall where
  tool := Json.asRead call.tool
  args := Json.asRead call.args
  resultSummary := call.resultSummary

theorem callOfJs_asRead (call : ToolCall) : callOfJs (Json.asRead call.toJs) = call.asRead := by
  have hkeys : [lit "tool", lit "args", lit "resultSummary"].Nodup := by decide
  have hget (key : Text) : (Json.asRead call.toJs).get key = Json.asRead (call.toJs.get key) :=
    get_asRead (by exact hkeys) key
  rw [callOfJs, hget, hget, hget]
  rfl

section golden
variable {numberText : Text → Text} {env : Env} {world : World} {caseId : Text} {p : RunView}
  {rev : Review}

theorem goldenOut_isJson (hcalls : ∀ call ∈ p.toolCalls, call.Plain numberText) :
    IsJson numberText (goldenOut env world caseId p rev) := by
  have hitems : ∀ v ∈ p.toolCalls.map ToolCall.toJs, IsJson numberText v := by
    intro v hv
    obtain ⟨call, hcall, rfl⟩ := List.mem_map.mp hv
    exact isJson_call (hcalls call hcall)
  exact isJson_obj rfl
    ⟨.inr trivial, isJson_textOr _, .inr trivial, .inr (isJson_texts _),
      .inr (AuditFile.isJsonItems_of_forall hitems), .inr (isJson_review rev), trivial⟩

theorem goldenOfJs_out : goldenOfJs (asRead (goldenOut env world caseId p rev)) =
    { review := rev.toJs
      toolCalls := some (p.toolCalls.map ToolCall.asRead)
      returnedDrns := some p.returnedDrns } := by
  have hkeys : [lit "caseId", lit "claimId", lit "recordedFrom", lit "returnedDrns",
      lit "toolCalls", lit "review"].Nodup := by decide
  have hget (key : Text) : (asRead (goldenOut env world caseId p rev)).get key =
      asRead ((goldenOut env world caseId p rev).get key) := get_asRead (by exact hkeys) key
  have hreview : asRead ((goldenOut env world caseId p rev).get (lit "review")) = rev.toJs :=
    (whole_review rev).2
  have hdrns : asRead ((goldenOut env world caseId p rev).get (lit "returnedDrns")) =
      texts p.returnedDrns := (whole_texts p.returnedDrns).2
  have hcalls : itemsOf (asRead ((goldenOut env world caseId p rev).get (lit "toolCalls"))) =
      some ((p.toolCalls.map ToolCall.toJs).map asRead) :=
    congrArg some (asReadItems_eq (p.toolCalls.map ToolCall.toJs))
  have htexts (ts : List Text) : (ts.map Value.str).filterMap Value.textOf = ts := by
    rw [List.filterMap_map]
    exact List.filterMap_some
  rw [goldenOfJs, hget, hget, hget, hreview, hdrns, hcalls]
  simp only [texts, itemsOf, Option.map_some, htexts, List.map_map, Function.comp_def,
    callOfJs_asRead]

theorem readGolden_written (hcalls : ∀ call ∈ p.toolCalls, call.Plain numberText) :
    readGolden numberText (some (toWellFormed (goldenText (goldenOut env world caseId p rev)))) =
      some
        { review := rev.toJs
          toolCalls := some (p.toolCalls.map ToolCall.asRead)
          returnedDrns := some p.returnedDrns } := by
  have hjson : IsJson numberText (goldenOut env world caseId p rev) := goldenOut_isJson hcalls
  have hgap : Json.Blank (lit "  ") := List.all_eq_true.mp rfl
  obtain ⟨t, ht, -⟩ := Json.reads_indented hgap _ hjson Json.blank_nil
  have hnewline : Json.Blank (lit "\n") := Json.blank_lineAt Json.blank_nil
  have htext : goldenText (goldenOut env world caseId p rev) = t ++ lit "\n" := by
    rw [goldenText, ht, Option.getD_some]
  have hwell : WellFormed (t ++ lit "\n") :=
    (Json.wellFormed_indented hgap _ hjson Json.blank_nil ht).append hnewline.wellFormed
  rw [readGolden, Option.bind_some, htext, hwell.toWellFormed_eq,
    Json.parse_indented hjson hgap ht hnewline, Option.bind_some, goldenOfJs_out]
  rfl

end golden

/-- A live run that is recorded, from an agent that deals in JSON: the file that is written reads
back as the recording, up to undefined fields in the tool calls, and a run on the file has the
review and the DRNs that a run on the recording has. -/
theorem golden_file_round_trip (numberText : Text → Text) (env : Env) (world : World)
    (runId caseId file : Text) (disk : AuditDisk) (golden : GoldenRun)
    (hplain : world.Plain numberText)
    (h : (recordGolden env world runId caseId disk).1 = .recorded file golden) :
    ∃ g, readGolden numberText (writtenGolden env world runId caseId disk) = some g ∧
      g = { golden with toolCalls := golden.toolCalls.map (·.map ToolCall.asRead) } ∧
      reviewGolden (world.files.withGolden file g) caseId =
        { reviewGolden (world.files.withGolden file golden) caseId with
          toolCalls := (golden.toolCalls.getD []).map ToolCall.asRead } := by
  have hkey : present env.anthropicApiKeyVar = true := by
    by_contra hkey
    rw [recordGolden, if_neg hkey] at h
    cases h
  obtain ⟨live, rev, hlive, hrev, rfl, rfl⟩ := recordGolden_recorded h
  have hcalls : ∀ call ∈ live.toolCalls, call.Plain numberText := by
    obtain ⟨caseRecord, report, -, rfl, -⟩ := viewOf_startRun hlive
    exact gateFlow_plain hplain
  refine ⟨_, ?_, rfl, ?_⟩
  · rw [writtenGolden, if_pos hkey, hlive, Option.bind_some, hrev, Option.map_some]
    exact readGolden_written hcalls
  · simp only [reviewGolden, loadGolden_withGolden, structured]
    cases reviewSchema rev.toJs <;> rfl

/-- The sample agent's answer is JSON. -/
theorem sampleWorld_plain (files : Files) (hgolden : ∀ path, files.golden path = none)
    (drns : List Text) (rev : Review) :
    (sampleWorld files (sampleCall drns rev)).Plain id where
  agent message res hres := by
    have hprecedent (d : Text) : IsJson id (.obj [(lit "drn", .str d)]) :=
      isJson_obj rfl ⟨.inr trivial, trivial⟩
    have hprecedents : IsJson id (.arr (drns.map fun d => .obj [(lit "drn", .str d)])) :=
      isJson_arr hprecedent drns
    obtain rfl := Except.ok.inj hres
    exact .inr (isJson_obj rfl
      ⟨.inr ⟨isJson_obj rfl ⟨.inr trivial,
        .inr (isJson_obj rfl ⟨.inr hprecedents, trivial⟩), trivial⟩, trivial⟩,
        .inr (isJson_review rev), trivial⟩)
  golden caseId g hg := by
    rw [loadGolden, show (sampleWorld files (sampleCall drns rev)).files = files from rfl,
      hgolden] at hg
    cases hg

/-- The run of the sample agent is recorded, and the file reads back. -/
theorem golden_file_round_trip_sample :
    let world := sampleWorld (sampleFiles .decline (some sampleWeather) none)
      (sampleCall [lit "DRN-1"] (sampleReview .agreeDecline [lit "DRN-1"] []))
    ∃ file golden g,
      (recordGolden (sampleEnv false) world (lit "r") (lit "A") emptyDisk).1 =
        .recorded file golden ∧
      readGolden id (writtenGolden (sampleEnv false) world (lit "r") (lit "A") emptyDisk) = some g ∧
      g.review = golden.review := by
  intro world
  have harrives : Arrives (sampleEnv false) world (lit "A") sampleCase (sampleLoaded .decline) :=
    sample_arrives _ _ _ _ _ _ (by decide)
  have hclean := sample_clean .decline none .agreeDecline (by decide) [lit "DRN-1"] (by decide)
    (by decide) (.inl rfl)
  have hn : needsHuman (demoAlwaysGate (sampleEnv false))
      (gateFlow (sampleEnv false) world (lit "A") sampleCase (sampleLoaded .decline)) = false :=
    (needsHuman_gateFlow _).mpr ⟨by decide, _, hclean⟩
  rcases @startRun_view (sampleEnv false) world (lit "r") (lit "A") _ _ emptyDisk harrives with
    ⟨-, hf⟩ | ⟨hview, -⟩
  · exact absurd ⟨⟨rfl, rfl⟩, fun _ => ⟨rfl, rfl⟩⟩ hf
  · cases hreview : (gateFlow (sampleEnv false) world (lit "A") sampleCase
        (sampleLoaded .decline)).review with
    | none => simp [needsHuman, hreview] at hn
    | some reached =>
      have hrec := @recordGolden_of_view (sampleEnv false) world (lit "r") (lit "A") emptyDisk _ _
        rfl hview hreview
      obtain ⟨g, hread, hg, -⟩ := golden_file_round_trip id (sampleEnv false) world (lit "r")
        (lit "A") _ emptyDisk _ (sampleWorld_plain _ (fun _ => rfl) _ _) hrec
      exact ⟨_, _, g, hrec, hread, congrArg GoldenRun.review hg⟩

end StormReview
