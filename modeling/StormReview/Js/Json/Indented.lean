import Mathlib.Data.List.Forall2
import StormReview.Js.Json.Printed

/-! `JSON.stringify(v, null, gap)`, which spreads a value over lines, reads back like the plain
form: what the machine skips stands where the machine skips it. -/
namespace Js.Json

/-! Blanks between the tokens. -/

def Blank (t : Text) : Prop := ∀ c ∈ t, isBlank c = true

theorem blank_nil : Blank [] := fun _ hc => by cases hc

theorem Blank.append {t u : Text} (ht : Blank t) (hu : Blank u) : Blank (t ++ u) := by
  intro c hc
  rcases List.mem_append.mp hc with hc | hc
  · exact ht c hc
  · exact hu c hc

theorem isDelimiter_of_isBlank {c : UInt16} (h : isBlank c = true) : isDelimiter c = true := by
  simp [isDelimiter, h]

section blanks
variable {numberText : Text → Text} {stack : List Frame} {t w : Text} {v : Value}

theorem run_blank {s : State} (hskip : ∀ c, isBlank c = true → step numberText s c = some s)
    (hw : Blank w) (u : Text) : run numberText s (w ++ u) = run numberText s u := by
  induction w with
  | nil => rfl
  | cons c w ih =>
    rw [List.cons_append, run_cons_of (hskip c (hw c (by simp)))]
    exact ih fun d hd => hw d (by simp [hd])

theorem run_blank_value (hw : Blank w) (u : Text) :
    run numberText ⟨stack, .value⟩ (w ++ u) = run numberText ⟨stack, .value⟩ u :=
  run_blank (fun c hc => by simp [step, openValue, hc]) hw u

theorem run_blank_key (hw : Blank w) (u : Text) :
    run numberText ⟨stack, .key⟩ (w ++ u) = run numberText ⟨stack, .key⟩ u :=
  run_blank (fun c hc => by simp [step, openKey, hc]) hw u

theorem run_blank_after (hw : Blank w) (u : Text) :
    run numberText ⟨stack, .after v⟩ (w ++ u) = run numberText ⟨stack, .after v⟩ u :=
  run_blank (fun c hc => by simp [step, afterValue, hc]) hw u

theorem Reads.blank_append (h : Reads numberText t v) (hw : Blank w) :
    Reads numberText (w ++ t) v := by
  intro stack
  rw [run_blank_value hw]
  exact h stack

/-- A value, blanks, and the unit that says what comes next. -/
theorem Reads.run_blank (h : Reads numberText t v) (hw : Blank w) {c : UInt16}
    (hc : isDelimiter c = true) (u : Text) :
    run numberText ⟨stack, .value⟩ (t ++ (w ++ c :: u)) =
      (afterValue stack v c).bind fun s => run numberText s u := by
  cases w with
  | nil => exact h.run_delimiter hc u
  | cons b w =>
    have hb : isBlank b = true := hw b (by simp)
    have hskip : afterValue stack v b = some ⟨stack, .after v⟩ := by simp [afterValue, hb]
    rw [List.cons_append, h.run_delimiter (isDelimiter_of_isBlank hb), hskip, Option.bind_some,
      run_blank_after fun d hd => hw d (by simp [hd]), run_cons]
    rfl

/-- A text that reads as a value, and blanks after it, is parsed. -/
theorem Reads.parse_blank (h : Reads numberText t v) (hw : Blank w) :
    Json.parse numberText (t ++ w) = some v := by
  cases w with
  | nil =>
    rw [List.append_nil]
    exact h.parse
  | cons b w =>
    have hb : isBlank b = true := hw b (by simp)
    have hskip : afterValue [] v b = some ⟨[], .after v⟩ := by simp [afterValue, hb]
    have hrest : run numberText ⟨[], .after v⟩ (w ++ []) = run numberText ⟨[], .after v⟩ [] :=
      run_blank_after (fun d hd => hw d (by simp [hd])) []
    rw [List.append_nil] at hrest
    rw [Json.parse, h.run_delimiter (isDelimiter_of_isBlank hb), hskip, Option.bind_some, hrest]
    rfl

end blanks

/-! Lists of what reads. -/

/-- A member of an object. -/
def ReadsMember (numberText : Text → Text) (m : Text) (field : Text × Value) : Prop :=
  ∃ t, m = Value.quote field.1 ++ lit ":" ++ t ∧ Reads numberText t field.2

section lists
variable {numberText : Text → Text} {stack : List Frame} {w w' : Text}

/-- The items of an array up to its bracket, with blanks after each comma and before the bracket. -/
theorem run_parts {ts : List Text} {vs : List Value} (h : List.Forall₂ (Reads numberText) ts vs)
    (hw : Blank w) (hw' : Blank w') (hne : ts ≠ []) (done : List Value) (u : Text) :
    run numberText ⟨.items done :: stack, .value⟩
        (join (cu ',' :: w) ts ++ (w' ++ cu ']' :: u)) =
      run numberText ⟨stack, .after (.arr (done ++ vs))⟩ u := by
  induction h generalizing done with
  | nil => exact absurd rfl hne
  | @cons t v ts vs ht hts ih =>
    by_cases hnil : ts = []
    · subst hnil
      cases hts
      rw [join_singleton, ht.run_blank hw' rfl]
      rfl
    · rw [join_cons hnil, List.append_assoc, List.append_assoc, List.cons_append,
        ht.run_delimiter rfl]
      have hcomma : afterValue (.items done :: stack) v (cu ',') =
          some ⟨.items (done ++ [v]) :: stack, .value⟩ := rfl
      rw [hcomma, Option.bind_some, run_blank_value hw, ih hnil (done ++ [v]), List.append_assoc]
      rfl

theorem ReadsMember.run_blank {m : Text} {field : Text × Value}
    (h : ReadsMember numberText m field) {done : List (Text × Value)} (hw : Blank w) {c : UInt16}
    (hc : isDelimiter c = true) (u : Text) :
    run numberText ⟨.fields done :: stack, .key⟩ (m ++ (w ++ c :: u)) =
      (afterValue (.field done field.1 :: stack) field.2 c).bind fun s => run numberText s u := by
  obtain ⟨t, rfl, ht⟩ := h
  have hcolon : run numberText ⟨.fields done :: stack, .colon field.1⟩ (lit ":") =
      some ⟨.field done field.1 :: stack, .value⟩ := rfl
  rw [List.append_assoc, List.append_assoc, run_append_of (run_quote_key field.1),
    run_append_of hcolon, ht.run_blank hw hc]

theorem run_members {ms : List Text} {fields : List (Text × Value)}
    (h : List.Forall₂ (ReadsMember numberText) ms fields) (hw : Blank w) (hw' : Blank w')
    (hne : ms ≠ []) (done : List (Text × Value))
    (hkeys : ((done ++ fields).map (·.1)).Pairwise fun k k' => k ≠ k' ∧ listedBefore k k' = true)
    (u : Text) :
    run numberText ⟨.fields done :: stack, .key⟩
        (join (cu ',' :: w) ms ++ (w' ++ cu '\x7d' :: u)) =
      run numberText ⟨stack, .after (.obj (done ++ fields))⟩ u := by
  induction h generalizing done with
  | nil => exact absurd rfl hne
  | @cons m field ms fields hm hms ih =>
    have hput : put done field.1 field.2 = done ++ [field] := by
      refine put_last _ fun f hf => ?_
      rw [List.map_append, List.pairwise_append] at hkeys
      exact hkeys.2.2 f.1 (List.mem_map_of_mem hf) field.1 (by simp)
    by_cases hnil : ms = []
    · subst hnil
      cases hms
      have hclose : afterValue (.field done field.1 :: stack) field.2 (cu '\x7d') =
          some ⟨stack, .after (.obj (put done field.1 field.2))⟩ := rfl
      rw [join_singleton, hm.run_blank hw' rfl, hclose, hput]
      rfl
    · have hcomma : afterValue (.field done field.1 :: stack) field.2 (cu ',') =
          some ⟨.fields (put done field.1 field.2) :: stack, .key⟩ := rfl
      rw [join_cons hnil, List.append_assoc, List.append_assoc, List.cons_append]
      refine (hm.run_blank blank_nil (c := cu ',') rfl _).trans ?_
      rw [hcomma, Option.bind_some, hput, run_blank_key hw,
        ih hnil (done ++ [field]) (by simpa using hkeys), List.append_assoc]
      rfl

end lists

/-! Values over several lines. -/

/-- The start of a line. -/
def lineAt (indent : Text) : Text := cu '\n' :: indent

/-- The parts of a container on lines of their own; a container without parts stays on its line. -/
def block (gap indent : Text) (opening closing : UInt16) (parts : List Text) : Text :=
  if parts = [] then [opening, closing]
  else
    opening :: (lineAt (indent ++ gap) ++ (join (cu ',' :: lineAt (indent ++ gap)) parts ++
      (lineAt indent ++ [closing])))

mutual
/-- `JSON.stringify(v, null, gap)` for a gap that is not empty, inside containers at `indent`. -/
def indented (gap indent : Text) : Value → Option Text
  | .undefined => none
  | .null => some (lit "null")
  | .bool b => some (if b then lit "true" else lit "false")
  | .num text => some (Value.numberJson text)
  | .str s => some (Value.quote s)
  | .arr items => some (block gap indent (cu '[') (cu ']') (indentedItems gap (indent ++ gap) items))
  | .obj fields =>
    some (block gap indent (cu '\x7b') (cu '\x7d') (indentedFields gap (indent ++ gap) fields))

def indentedItems (gap indent : Text) : List Value → List Text
  | [] => []
  | v :: vs => (indented gap indent v).getD (lit "null") :: indentedItems gap indent vs

def indentedFields (gap indent : Text) : List (Text × Value) → List Text
  | [] => []
  | (k, v) :: fs =>
    match indented gap indent v with
    | none => indentedFields gap indent fs
    | some t => (Value.quote k ++ lit ":" ++ (lit " " ++ t)) :: indentedFields gap indent fs
end

theorem blank_lineAt {indent : Text} (h : Blank indent) : Blank (lineAt indent) := by
  intro c hc
  rcases List.mem_cons.mp hc with rfl | hc
  · rfl
  · exact h c hc

theorem asReadFields_sublist (fields : List (Text × Value)) :
    ((asReadFields fields).map (·.1)).Sublist (fields.map (·.1)) := by
  induction fields with
  | nil => exact .slnil
  | cons f fields ih =>
    obtain ⟨k, v⟩ := f
    by_cases hv : v = .undefined
    · subst hv
      exact ih.cons k
    · rw [asReadFields_cons hv]
      exact ih.cons_cons k

section indented
variable {numberText : Text → Text} {gap : Text}

theorem reads_items_block {ts : List Text} {vs : List Value} {indent : Text} (hgap : Blank gap)
    (hindent : Blank indent) (h : List.Forall₂ (Reads numberText) ts vs) :
    Reads numberText (block gap indent (cu '[') (cu ']') ts) (.arr vs) := by
  refine .of_run fun stack => ?_
  have hopen : step numberText ⟨stack, .value⟩ (cu '[') = some ⟨.items [] :: stack, .value⟩ := rfl
  have hline : Blank (lineAt (indent ++ gap)) := blank_lineAt (hindent.append hgap)
  unfold block
  split
  · rename_i hnil
    subst hnil
    cases h
    rfl
  · rename_i hne
    rw [run_cons_of hopen, run_blank_value hline, run_parts h hline (blank_lineAt hindent) hne]
    rfl

theorem reads_fields_block {ms : List Text} {fields : List (Text × Value)} {indent : Text}
    (hgap : Blank gap) (hindent : Blank indent)
    (hkeys : (fields.map (·.1)).Pairwise fun k k' => k ≠ k' ∧ listedBefore k k' = true)
    (h : List.Forall₂ (ReadsMember numberText) ms fields) :
    Reads numberText (block gap indent (cu '\x7b') (cu '\x7d') ms) (.obj fields) := by
  refine .of_run fun stack => ?_
  have hopen : step numberText ⟨stack, .value⟩ (cu '\x7b') = some ⟨.fields [] :: stack, .key⟩ := rfl
  have hline : Blank (lineAt (indent ++ gap)) := blank_lineAt (hindent.append hgap)
  unfold block
  split
  · rename_i hnil
    subst hnil
    cases h
    rfl
  · rename_i hne
    rw [run_cons_of hopen, run_blank_key hline,
      run_members h hline (blank_lineAt hindent) hne [] (by simpa using hkeys)]
    rfl

mutual
/-- What stands over several lines reads as what stands on one. -/
theorem reads_indented (hgap : Blank gap) (v : Value) (h : IsJson numberText v) {indent : Text}
    (hindent : Blank indent) :
    ∃ t, indented gap indent v = some t ∧ Reads numberText t (asRead v) := by
  match v, h with
  | .undefined, h => exact h.elim
  | .null, h => exact reads_stringify _ h
  | .bool b, h => exact reads_stringify (.bool b) h
  | .num t, h => exact reads_stringify (.num t) h
  | .str s, h => exact reads_stringify (.str s) h
  | .arr items, h =>
    exact ⟨_, rfl, reads_items_block hgap hindent (reads_indentedItems hgap items h
      (hindent.append hgap))⟩
  | .obj fields, h =>
    exact ⟨_, rfl, reads_fields_block hgap hindent (h.1.sublist (asReadFields_sublist fields))
      (reads_indentedFields hgap fields h.2 (hindent.append hgap))⟩

theorem reads_indentedItems (hgap : Blank gap) (items : List Value)
    (h : IsJsonItems numberText items) {indent : Text} (hindent : Blank indent) :
    List.Forall₂ (Reads numberText) (indentedItems gap indent items) (asReadItems items) := by
  match items, h with
  | [], _ => exact .nil
  | v :: items, h =>
    obtain ⟨t, ht, hreads⟩ := reads_indented hgap v h.1 hindent
    rw [indentedItems, ht, Option.getD_some, asReadItems]
    exact .cons hreads (reads_indentedItems hgap items h.2 hindent)

theorem reads_indentedFields (hgap : Blank gap) (fields : List (Text × Value))
    (h : IsJsonFields numberText fields) {indent : Text} (hindent : Blank indent) :
    List.Forall₂ (ReadsMember numberText) (indentedFields gap indent fields)
      (asReadFields fields) := by
  match fields, h with
  | [], _ => exact .nil
  | (k, v) :: fields, h =>
    have hrest := reads_indentedFields hgap fields h.2 hindent
    rcases h.1 with rfl | hv
    · exact hrest
    · obtain ⟨t, ht, hreads⟩ := reads_indented hgap v hv hindent
      have hdefined : v ≠ .undefined := by
        rintro rfl
        exact hv
      have hspace : Blank (lit " ") := fun c hc => by
        rw [List.mem_singleton.mp hc]
        rfl
      rw [indentedFields, ht, asReadFields_cons hdefined]
      exact .cons ⟨_, rfl, hreads.blank_append hspace⟩ hrest
end

/-- What `JSON.stringify` spreads over lines reads back, with whatever blanks end the text. -/
theorem parse_indented {v : Value} (h : IsJson numberText v) (hgap : Blank gap) {t w : Text}
    (ht : indented gap [] v = some t) (hw : Blank w) :
    parse numberText (t ++ w) = some (asRead v) := by
  obtain ⟨t', ht', hreads⟩ := reads_indented hgap v h blank_nil
  obtain rfl := Option.some.inj (ht.symm.trans ht')
  exact hreads.parse_blank hw

/-! Written as UTF-8 it is unchanged. -/

theorem Blank.wellFormed {w : Text} (h : Blank w) : WellFormed w := by
  refine wellFormed_of_all fun c hc => ?_
  have hblank := h c hc
  simp only [isBlank, Bool.or_eq_true, beq_iff_eq, or_assoc] at hblank
  rcases hblank with rfl | rfl | rfl | rfl
  all_goals decide

theorem wellFormed_join {sep : Text} (hsep : WellFormed sep) {parts : List Text}
    (h : ∀ u ∈ parts, WellFormed u) : WellFormed (join sep parts) := by
  induction parts with
  | nil => exact blank_nil.wellFormed
  | cons u parts ih =>
    have ih := ih fun v hv => h v (by simp [hv])
    by_cases hnil : parts = []
    · subst hnil
      rw [join_singleton]
      exact h u (by simp)
    · rw [join_cons hnil]
      exact ((h u (by simp)).append hsep).append ih

theorem wellFormed_of_isPlain {t : Text} (h : isPlain t = true) : WellFormed t :=
  (printed_of_isPlain h).wellFormed

theorem wellFormed_block {indent : Text} (hgap : Blank gap) (hindent : Blank indent)
    {opening closing : UInt16} (hopening : isPlain [opening] = true)
    (hclosing : isPlain [closing] = true) {parts : List Text}
    (h : ∀ u ∈ parts, WellFormed u) : WellFormed (block gap indent opening closing parts) := by
  have hline : WellFormed (lineAt (indent ++ gap)) :=
    (blank_lineAt (hindent.append hgap)).wellFormed
  have hcomma : WellFormed (cu ',' :: lineAt (indent ++ gap)) :=
    (wellFormed_of_isPlain (t := [cu ',']) rfl).append hline
  unfold block
  split
  · exact (wellFormed_of_isPlain hopening).append (wellFormed_of_isPlain hclosing)
  · exact (wellFormed_of_isPlain hopening).append (hline.append ((wellFormed_join hcomma h).append
      ((blank_lineAt hindent).wellFormed.append (wellFormed_of_isPlain hclosing))))

mutual
theorem wellFormed_indented (hgap : Blank gap) (v : Value) (h : IsJson numberText v)
    {indent : Text} (hindent : Blank indent) {t : Text} (ht : indented gap indent v = some t) :
    WellFormed t := by
  match v, h with
  | .undefined, h => exact h.elim
  | .null, h => exact (printed_stringify _ h ht).wellFormed
  | .bool b, h => exact (printed_stringify (.bool b) h ht).wellFormed
  | .num text, h => exact (printed_stringify (.num text) h ht).wellFormed
  | .str s, h => exact (printed_stringify (.str s) h ht).wellFormed
  | .arr items, h =>
    rw [← Option.some.inj ht]
    exact wellFormed_block hgap hindent rfl rfl
      (wellFormed_indentedItems hgap items h (hindent.append hgap))
  | .obj fields, h =>
    rw [← Option.some.inj ht]
    exact wellFormed_block hgap hindent rfl rfl
      (wellFormed_indentedFields hgap fields h.2 (hindent.append hgap))

theorem wellFormed_indentedItems (hgap : Blank gap) (items : List Value)
    (h : IsJsonItems numberText items) {indent : Text} (hindent : Blank indent) :
    ∀ u ∈ indentedItems gap indent items, WellFormed u := by
  match items, h with
  | [], _ => exact fun u hu => by cases hu
  | v :: items, h =>
    intro u hu
    rcases List.mem_cons.mp hu with rfl | hu
    · obtain ⟨t, ht, -⟩ := reads_indented hgap v h.1 hindent
      rw [ht]
      exact wellFormed_indented hgap v h.1 hindent ht
    · exact wellFormed_indentedItems hgap items h.2 hindent u hu

theorem wellFormed_indentedFields (hgap : Blank gap) (fields : List (Text × Value))
    (h : IsJsonFields numberText fields) {indent : Text} (hindent : Blank indent) :
    ∀ u ∈ indentedFields gap indent fields, WellFormed u := by
  match fields, h with
  | [], _ => exact fun u hu => by cases hu
  | (k, v) :: fields, h =>
    have hrest := wellFormed_indentedFields hgap fields h.2 hindent
    rcases h.1 with rfl | hv
    · exact hrest
    · obtain ⟨t, ht, -⟩ := reads_indented hgap v hv hindent
      rw [indentedFields, ht]
      intro u hu
      rcases List.mem_cons.mp hu with rfl | hu
      · exact ((printed_quote k).wellFormed.append (wellFormed_of_isPlain rfl)).append
          ((wellFormed_of_isPlain rfl).append (wellFormed_indented hgap v hv hindent ht))
      · exact hrest u hu
end

end indented

example : indented (lit "  ") []
      (.obj [(lit "a", .arr [.num (lit "1"), .obj []]), (lit "b", .undefined)]) =
    some (lit "\x7b\n  \"a\": [\n    1,\n    \x7b\x7d\n  ]\n\x7d") := by
  decide

end Js.Json
