import StormReview.Engine.Traverse
import StormReview.Js.Json.Cut
import StormReview.Js.Json.Printed
import StormReview.Workflow.AuditRow

/-! What the audit log gives back: every row that was appended, and what is left of them after a
torn write. -/
namespace StormReview.AuditFile
open Js
open Js.Json (IsJson IsJsonItems Printed asRead)

/-- The data of an entry is JSON; the review and the guard may be undefined. -/
structure Entry.Plain (numberText : Text → Text) (entry : Entry) : Prop where
  toolCalls : ∀ v ∈ entry.toolCalls, IsJson numberText v
  review : entry.review = .undefined ∨ IsJson numberText entry.review
  guard : entry.guard = .undefined ∨ IsJson numberText entry.guard

/-- The text of a row, without its newline. -/
def Entry.json (entry : Entry) : Text :=
  lit "\x7b" ++ join (lit ",") (Value.stringifyFields entry.fields) ++ lit "\x7d"

theorem Entry.stringify (entry : Entry) : entry.toJs.stringify = some entry.json := rfl

theorem Entry.row_eq (entry : Entry) : row entry = entry.json ++ [newline] := rfl

section entries
variable {numberText : Text → Text} {entry : Entry}

theorem isJsonItems_of_forall {items : List Value} (h : ∀ v ∈ items, IsJson numberText v) :
    IsJsonItems numberText items := by
  induction items with
  | nil => exact trivial
  | cons v items ih => exact ⟨h v (by simp), ih fun w hw => h w (by simp [hw])⟩

theorem isJson_inputs (wordingId weatherStatus : Text) :
    IsJson numberText (.obj [(lit "wordingId", .str wordingId),
      (lit "weatherStatus", .str weatherStatus)]) :=
  isJson_obj rfl ⟨.inr trivial, .inr trivial, trivial⟩

theorem Entry.Plain.isJson (h : entry.Plain numberText) : IsJson numberText entry.toJs :=
  isJson_obj rfl ⟨.inr trivial, .inr trivial, .inr trivial, .inr trivial,
    .inr (isJson_inputs ..), .inr (isJsonItems_of_forall h.toolCalls), h.review, .inr trivial,
    .inr trivial, isJson_textOr _, isJson_textOr _, .inr trivial, .inr trivial, h.guard, trivial⟩

/-- What is left of a row's text after its first brace. -/
def Entry.body (entry : Entry) : Text :=
  join (lit ",") (Value.stringifyFields entry.fields) ++ [cu '\x7d']

theorem Entry.json_eq (entry : Entry) : entry.json = cu '\x7b' :: entry.body := rfl

theorem Entry.Plain.printed (h : entry.Plain numberText) : Printed entry.json :=
  Json.printed_stringify entry.toJs h.isJson entry.stringify

theorem Entry.json_last (entry : Entry) : ∀ c ∈ entry.json.getLast?, isSpace c = false := by
  refine not_space_of_eq (c := cu '\x7d') ?_ (by decide)
  rw [Entry.json_eq, Entry.body, ← List.cons_append, List.getLast?_concat]

theorem brace_head (t : Text) : ∀ c ∈ (cu '\x7b' :: t).head?, isSpace c = false :=
  not_space_of_eq List.head?_cons (by decide)

theorem Entry.Plain.isLine (h : entry.Plain numberText) : IsLine entry.json where
  ne_nil := by simp [Entry.json_eq]
  noNewline hmem := absurd (h.printed.noControl newline hmem) (by decide)
  head := brace_head entry.body
  last := entry.json_last

theorem Entry.Plain.parse (h : entry.Plain numberText) :
    Json.parse numberText entry.json = some (asRead entry.toJs) :=
  Json.parse_stringify h.isJson entry.stringify

/-- A row is read to its end with nothing left open. -/
theorem Entry.Plain.run (h : entry.Plain numberText) :
    Json.run numberText ⟨[], .value⟩ entry.json = some ⟨[], .after (asRead entry.toJs)⟩ := by
  obtain ⟨s, hrun, hfinish⟩ := Option.bind_eq_some_iff.mp h.parse
  rw [hrun, (Json.run_object (entry.json_eq ▸ hrun)).finish hfinish]

end entries

/-! The file. -/

section file
variable {numberText : Text → Text} {entries : List Entry}

/-- The log after these entries were appended to no file at all. -/
def written (entries : List Entry) : Option Text := entries.foldl appendAudit none

/-- The rows as lines. -/
def jsons (entries : List Entry) : List Text := entries.map Entry.json

theorem row_wellFormed {entry : Entry} (h : entry.Plain numberText) :
    toWellFormed (row entry) = row entry :=
  (h.printed.wellFormed.append (.unit (by decide) .nil)).toWellFormed_eq

theorem appendAll_text (h : ∀ e ∈ entries, e.Plain numberText) (log : Option Text) :
    (entries.foldl appendAudit log).getD [] = log.getD [] ++ unlines (jsons entries) := by
  induction entries generalizing log with
  | nil => simp [jsons, unlines]
  | cons e entries ih =>
    rw [List.foldl_cons, ih fun e he => h e (by simp [he]), appendAudit, appendFile,
      row_wellFormed (h e (by simp)), Option.getD_some, Entry.row_eq]
    simp [jsons, unlines]

/-- A missing log reads as an empty one. -/
theorem readAudit_eq (log : Option Text) :
    readAudit numberText log = ((linesOf (log.getD [])).mapM (Json.parse numberText)).getD [] := by
  cases log <;> rfl

theorem isLine_jsons (h : ∀ e ∈ entries, e.Plain numberText) : ∀ l ∈ jsons entries, IsLine l := by
  intro l hl
  obtain ⟨e, he, rfl⟩ := List.mem_map.mp hl
  exact (h e he).isLine

/-- An entry whose texts need escaping. -/
def sampleEntry : Entry where
  ts := lit "2026-01-01T00:00:00.000Z"
  runId := lit "r"
  caseId := lit "A"
  claimId := lit "CLM-A"
  wordingId := lit "aviva_v8"
  weatherStatus := lit "ok"
  toolCalls := [.obj [(lit "args", .arr [.null, .str (lit "a\r\n")])]]
  review := .null
  decision := lit "override"
  reason := lit "\"said so\"\nand \\ left"
  failureMode := none
  domainNote := none
  model := lit "golden-cache"
  promptVersion := lit "v1"
  guard := .undefined

theorem sampleEntry_plain : sampleEntry.Plain id where
  toolCalls v hv := by
    rw [List.mem_singleton.mp hv]
    exact isJson_obj rfl ⟨.inr ⟨trivial, trivial, trivial⟩, trivial⟩
  review := .inr trivial
  guard := .inl rfl

/-- An entry with a review, and with text beyond the basic plane. -/
def sampleReviewed : Entry :=
  { sampleEntry with
    runId := lit "s"
    toolCalls := []
    review := .obj [(lit "verdict", .str (lit "agree_cash")), (lit "citedDrns", .arr [])]
    decision := lit "accept"
    domainNote := some (lit "\x7b£5\x7d ☂ 𝄞") }

theorem sampleReviewed_plain : sampleReviewed.Plain id where
  toolCalls v hv := by cases hv
  review := .inr (isJson_obj rfl ⟨.inr trivial, .inr trivial, trivial⟩)
  guard := .inl rfl

/-- An entry with the guard's result. -/
def sampleFiled : Entry :=
  { sampleEntry with
    runId := lit "t"
    decision := lit "auto_filed"
    reason := []
    guard := .obj [(lit "blocked", .bool false)] }

theorem sampleFiled_plain : sampleFiled.Plain id where
  toolCalls := sampleEntry_plain.toolCalls
  review := .inr trivial
  guard := .inr (isJson_obj rfl ⟨.inr trivial, trivial⟩)

theorem readAudit_written (h : ∀ e ∈ entries, e.Plain numberText) :
    readAudit numberText (written entries) = entries.map fun e => asRead e.toJs := by
  have hparse : (jsons entries).mapM (Json.parse numberText) =
      some (entries.map fun e => asRead e.toJs) := by
    rw [jsons, List.mapM_map]
    exact Engine.mapM_eq_some fun e he => (h e he).parse
  rw [readAudit_eq, written, appendAll_text h, Option.getD_none, List.nil_append,
    linesOf_unlines (isLine_jsons h), hparse, Option.getD_some]

theorem getAudit_written (h : ∀ e ∈ entries, e.Plain numberText) :
    getAudit numberText (written entries) = .obj [(lit "entries",
      .arr ((entries.map fun e => asRead e.toJs).reverse.take 25))] := by
  rw [getAudit, readAudit_written h, List.take_reverse]

/-- Every row that was appended reads back, in the order of the appends, and the screen gets the
last of them first. -/
theorem audit_round_trip (numberText : Text → Text) (entries : List Entry)
    (h : ∀ e ∈ entries, e.Plain numberText) :
    readAudit numberText (written entries) = entries.map (fun e => asRead e.toJs) ∧
      getAudit numberText (written entries) = .obj [(lit "entries",
        .arr ((entries.map fun e => asRead e.toJs).reverse.take 25))] :=
  ⟨readAudit_written h, getAudit_written h⟩

theorem audit_round_trip_sample :
    readAudit id (written [sampleEntry, sampleReviewed, sampleFiled]) =
        [asRead sampleEntry.toJs, asRead sampleReviewed.toJs, asRead sampleFiled.toJs] ∧
      getAudit id (written [sampleEntry, sampleReviewed, sampleFiled]) =
        .obj [(lit "entries", .arr
          [asRead sampleFiled.toJs, asRead sampleReviewed.toJs, asRead sampleEntry.toJs])] :=
  audit_round_trip id [sampleEntry, sampleReviewed, sampleFiled]
    (by simpa using ⟨sampleEntry_plain, sampleReviewed_plain, sampleFiled_plain⟩)

end file

/-! A torn write. -/

/-- A proper prefix of what was to be written, and not nothing. -/
structure Torn (text part : Text) : Prop where
  ne_nil : part ≠ []
  isPrefix : part <+: text
  proper : part ≠ text

section torn
variable {numberText : Text → Text} {entries : List Entry} {entry : Entry} {part : Text}

/-- The torn part of a row starts with its brace and lacks at least its newline. -/
theorem torn_row (h : Torn (row entry) part) :
    ∃ cut rest, part = cu '\x7b' :: cut ∧ entry.body = cut ++ rest := by
  have hjson : part <+: entry.json := by
    have hprefix := h.isPrefix
    rw [Entry.row_eq, List.prefix_concat_iff] at hprefix
    exact hprefix.resolve_left fun heq => h.proper (heq.trans entry.row_eq.symm)
  obtain ⟨c, cut, rfl⟩ := List.exists_cons_of_ne_nil h.ne_nil
  rw [Entry.json_eq, List.cons_prefix_cons] at hjson
  obtain ⟨rfl, rest, hrest⟩ := hjson
  exact ⟨cut, rest, rfl, hrest.symm⟩

theorem newline_notMem (h : entry.Plain numberText) {t : Text} (ht : t <+: entry.json) :
    newline ∉ t :=
  fun hmem => h.isLine.noNewline (ht.subset hmem)

/-- The last line of the log when a row was cut short, even within a character. -/
theorem cut_line (h : entry.Plain numberText) {cut rest : Text} (hbody : entry.body = cut ++ rest)
    (hrest : rest ≠ []) :
    newline ∉ trimEnd (cu '\x7b' :: toWellFormed cut) ∧
      Json.parse numberText (trimEnd (cu '\x7b' :: toWellFormed cut)) = none := by
  have hjson : entry.json = cu '\x7b' :: cut ++ rest := by rw [Entry.json_eq, hbody]; rfl
  have hbrace : ∃ c ∈ rest, Json.isBlank c = false := by
    have hlast : rest.getLast? = some (cu '\x7d') := by
      rw [← List.getLast?_append_of_ne_nil cut hrest, ← hbody, Entry.body, List.getLast?_concat]
    exact ⟨_, List.mem_of_mem_getLast? hlast, by decide⟩
  have hwell : WellFormed entry.body := h.printed.wellFormed.tail (by decide)
  rcases hwell.cut (t := cut) (hbody ▸ List.prefix_append ..) with hcut | ⟨s, hs, hcut⟩
  · rw [hcut]
    obtain ⟨tail, htail⟩ := trimEnd_prefix (cu '\x7b' :: cut)
    have hne : trimEnd (cu '\x7b' :: cut) ≠ [] := trimEnd_ne_nil (by simp) (brace_head cut)
    obtain ⟨c, line, hline⟩ := List.exists_cons_of_ne_nil hne
    rw [hline, List.cons_append] at htail
    obtain ⟨rfl, rfl⟩ := List.cons.inj htail
    rw [hline]
    have hwhole : entry.json = cu '\x7b' :: line ++ (tail ++ rest) := by
      rw [hjson]
      simp
    have hrun := h.run
    rw [hwhole] at hrun
    obtain ⟨c, hc, hblank⟩ := hbrace
    exact ⟨newline_notMem h (by rw [hwhole]; exact List.prefix_append ..),
      Json.parse_cut hrun ⟨c, List.mem_append_right tail hc, hblank⟩⟩
  · have hend : trimEnd (cu '\x7b' :: s ++ [replacement]) = cu '\x7b' :: s ++ [replacement] := by
      apply trimEnd_of_last
      exact not_space_of_eq List.getLast?_concat (by decide)
    have hprefix : cu '\x7b' :: s <+: entry.json := by
      rw [hjson]
      exact (List.cons_prefix_cons.mpr ⟨rfl, hs⟩).trans (List.prefix_append ..)
    rw [hcut, ← List.cons_append, hend]
    refine ⟨?_, Json.parse_replaced (by decide)⟩
    rw [List.mem_append, not_or]
    exact ⟨newline_notMem h hprefix, by decide⟩

/-- Two rows on one line. -/
theorem joined_line (h : entry.Plain numberText) (next : Entry) :
    Json.parse numberText (entry.json ++ next.json) = none :=
  Json.parse_followed h.run ⟨cu '\x7b', by simp [Entry.json_eq], by decide⟩

theorem readAudit_of_line (h : ∀ e ∈ entries, e.Plain numberText) {log : Option Text} {u : Text}
    (hlog : log.getD [] = unlines (jsons entries) ++ cu '\x7b' :: u)
    (hline : newline ∉ trimEnd (cu '\x7b' :: u))
    (hparse : Json.parse numberText (trimEnd (cu '\x7b' :: u)) = none) :
    readAudit numberText log = [] := by
  rw [readAudit_eq, hlog, linesOf_unlines_append (isLine_jsons h) (by simp) (brace_head u) hline,
    Engine.mapM_eq_none (by simp) hparse, Option.getD_none]

/-- The complete rows before the torn one stay readable, now and after any further appends. -/
def HistoryKept (numberText : Text → Text) (entries : List Entry) (part : Text) : Prop :=
  ∀ more, (∀ e ∈ more, Entry.Plain numberText e) →
    List.Sublist (entries.map fun e => asRead e.toJs)
      (readAudit numberText (List.foldl appendAudit (appendFile part (written entries)) more))

/-- The log with the torn part, and then with one more row, or without: nothing is returned. -/
theorem torn_hides (hentries : ∀ e ∈ entries, e.Plain numberText) (hentry : entry.Plain numberText)
    (htorn : Torn (row entry) part) :
    ∃ more : List Entry, (∀ e ∈ more, e.Plain numberText) ∧
      readAudit numberText (more.foldl appendAudit (appendFile part (written entries))) = [] := by
  obtain ⟨cut, rest, rfl, hbody⟩ := torn_row htorn
  have hlog : (appendFile (cu '\x7b' :: cut) (written entries)).getD [] =
      unlines (jsons entries) ++ cu '\x7b' :: toWellFormed cut := by
    rw [appendFile, Option.getD_some, written, appendAll_text hentries,
      toWellFormed_unit (by decide)]
    rfl
  by_cases hrest : rest = []
  · subst hrest
    rw [List.append_nil] at hbody
    subst hbody
    have hwell : WellFormed entry.body := hentry.printed.wellFormed.tail (by decide)
    have htwo : trimEnd (cu '\x7b' :: (entry.body ++ row entry)) = entry.json ++ entry.json := by
      rw [← List.cons_append, ← Entry.json_eq, Entry.row_eq, ← List.append_assoc, trimEnd_newline,
        trimEnd_append]
      · rw [trimEnd_of_last entry.json_last]
      · rw [trimEnd_of_last entry.json_last]
        exact hentry.isLine.ne_nil
    refine ⟨[entry], by simpa using hentry, readAudit_of_line hentries (u := entry.body ++ row entry)
      ?_ ?_ ?_⟩
    · rw [List.foldl_cons, List.foldl_nil, appendAudit, appendFile, Option.getD_some, hlog,
        row_wellFormed hentry, hwell.toWellFormed_eq, List.append_assoc]
      rfl
    · rw [htwo, List.mem_append, not_or]
      exact ⟨hentry.isLine.noNewline, hentry.isLine.noNewline⟩
    · rw [htwo]
      exact joined_line hentry entry
  · obtain ⟨hline, hparse⟩ := cut_line hentry hbody hrest
    exact ⟨[], by simp, readAudit_of_line hentries hlog hline hparse⟩

/-- One torn row hides the whole history: only a log without complete rows keeps them all. -/
theorem history_kept_iff (numberText : Text → Text) (entries : List Entry) (entry : Entry)
    (part : Text) (hentries : ∀ e ∈ entries, e.Plain numberText) (hentry : entry.Plain numberText)
    (htorn : Torn (row entry) part) : HistoryKept numberText entries part ↔ entries = [] := by
  constructor
  · intro hkept
    obtain ⟨more, hmore, hread⟩ := torn_hides hentries hentry htorn
    have hsub := hkept more hmore
    rw [hread, List.sublist_nil, List.map_eq_nil_iff] at hsub
    exact hsub
  · rintro rfl
    exact fun more _ => List.nil_sublist _

theorem history_kept_sample : HistoryKept id [] (lit "\x7b") :=
  (history_kept_iff id [] sampleEntry (lit "\x7b") (fun e he => nomatch he) sampleEntry_plain
    ⟨by decide, by decide, by decide⟩).mpr rfl

/-- A row, and the first unit of another: the row is not returned. -/
theorem torn_row_hides_history : ¬ HistoryKept id [sampleEntry] (lit "\x7b") := by
  intro hkept
  have htorn : Torn (row sampleEntry) (lit "\x7b") := ⟨by decide, by decide, by decide⟩
  have hplain : ∀ e ∈ [sampleEntry], e.Plain id := by simpa using sampleEntry_plain
  obtain ⟨more, hmore, hread⟩ := torn_hides hplain sampleEntry_plain htorn
  have hsub := hkept more hmore
  rw [hread, List.sublist_nil] at hsub
  cases hsub

end torn

end StormReview.AuditFile

/-! The log of the workflow. -/
namespace StormReview
open Js
open Js.Json (IsJson asRead)

/-- The tool calls that an entry keeps are JSON. -/
def AuditEntry.CallsPlain (numberText : Text → Text) (entry : AuditEntry) : Prop :=
  ∀ call ∈ entry.toolCalls, IsJson numberText call.tool ∧ IsJson numberText call.args

theorem isJson_call {numberText : Text → Text} {call : ToolCall}
    (h : IsJson numberText call.tool ∧ IsJson numberText call.args) :
    IsJson numberText call.toJs :=
  isJson_obj rfl
    ⟨.inr h.1, .inr h.2, .inr trivial, trivial⟩

theorem AuditEntry.filed_plain {numberText : Text → Text} {entry : AuditEntry}
    (h : entry.CallsPlain numberText) : entry.filed.Plain numberText where
  toolCalls v hv := by
    obtain ⟨call, hcall, rfl⟩ := List.mem_map.mp hv
    exact isJson_call (h call hcall)
  review := by
    cases hreview : entry.review with
    | none => exact .inr (by rw [AuditEntry.filed, hreview]; trivial)
    | some r => exact .inr (by rw [AuditEntry.filed, hreview]; exact isJson_review r)
  guard := by
    cases hguard : entry.guard with
    | none => exact .inl (by rw [AuditEntry.filed, hguard]; rfl)
    | some g => exact .inr (by rw [AuditEntry.filed, hguard]; exact isJson_guard g)

/-- What the screen shows is the end of the log, the latest entry first. -/
theorem getAudit_logFile {numberText : Text → Text} {disk : AuditDisk}
    (h : ∀ entry ∈ disk.log, entry.CallsPlain numberText) :
    AuditFile.getAudit numberText (logFile disk) = .obj [(lit "entries",
      .arr ((disk.log.map fun entry => asRead entry.filed.toJs).reverse.take 25))] := by
  have hplain : ∀ e ∈ disk.log.map AuditEntry.filed, e.Plain numberText := by
    intro e he
    obtain ⟨entry, hentry, rfl⟩ := List.mem_map.mp he
    exact AuditEntry.filed_plain (h entry hentry)
  have hshown := AuditFile.getAudit_written hplain
  rwa [List.map_map] at hshown

end StormReview
