import StormReview.Js.Html

/-! A tree reads back from what it prints, whatever its texts and attribute values are. -/
namespace Js.Html

variable {b : Builder} {tag name : Name} {attrs : List Attr} {read rest : Text}

/-! References. -/

/-- The printed form of a unit: a reference that stands for it, or the unit, which is no markup. -/
theorem escUnit_cases (c : UInt16) :
    (∃ ref, escUnit c = cu '&' :: ref ++ [cu ';'] ∧ (∀ d ∈ ref, d ≠ cu ';') ∧
        referenced ref = some c) ∨
      escUnit c = [c] ∧ c ≠ cu '&' ∧ c ≠ cu '<' ∧ c ≠ cu '"' := by
  by_cases hamp : c = cu '&'
  · refine .inl ⟨lit "amp", by rw [hamp]; rfl, List.forall_mem_ne'.mpr ?_, by rw [hamp]; rfl⟩
    decide
  by_cases hlt : c = cu '<'
  · refine .inl ⟨lit "lt", by rw [hlt]; rfl, List.forall_mem_ne'.mpr ?_, by rw [hlt]; rfl⟩
    decide
  by_cases hgt : c = cu '>'
  · refine .inl ⟨lit "gt", by rw [hgt]; rfl, List.forall_mem_ne'.mpr ?_, by rw [hgt]; rfl⟩
    decide
  by_cases hquot : c = cu '"'
  · refine .inl ⟨lit "quot", by rw [hquot]; rfl, List.forall_mem_ne'.mpr ?_, by rw [hquot]; rfl⟩
    decide
  · exact .inr ⟨by simp [escUnit, hamp, hlt, hgt, hquot], hamp, hlt, hquot⟩

/-- A mode that goes on reading keeps what it has read. -/
theorem run_reading (mode : Text → Mode) (p : UInt16 → Prop)
    (h : ∀ read c, p c → step ⟨mode read, b⟩ c = some ⟨mode (read ++ [c]), b⟩)
    {u : Text} (hu : ∀ c ∈ u, p c) (read rest : Text) :
    run ⟨mode read, b⟩ (u ++ rest) = run ⟨mode (read ++ u), b⟩ rest := by
  induction u generalizing read with
  | nil => simp
  | cons c u ih =>
    rw [List.cons_append, run_cons_of (h read c (hu c (by simp))),
      ih fun d hd => hu d (by simp [hd])]
    simp

theorem run_reference {ref : Text} {c : UInt16} (hplain : ∀ d ∈ ref, d ≠ cu ';')
    (href : referenced ref = some c) (rest : Text) :
    run ⟨.reference [], b⟩ (ref ++ cu ';' :: rest) = run ⟨.data, b.push (.char c)⟩ rest := by
  rw [run_reading .reference (· ≠ cu ';') (fun read d hd => by simp [step, hd]) hplain]
  exact run_cons_of (by simp [step, href]) rest

/-- A text is read as its units. -/
theorem run_escUnit (c : UInt16) (rest : Text) :
    run ⟨.data, b⟩ (escUnit c ++ rest) = run ⟨.data, b.push (.char c)⟩ rest := by
  rcases escUnit_cases c with ⟨ref, he, hplain, href⟩ | ⟨he, hamp, hlt, -⟩
  · have hopen : step ⟨.data, b⟩ (cu '&') = some ⟨.reference [], b⟩ := rfl
    rw [he, List.cons_append, List.cons_append, run_cons_of hopen, List.append_assoc]
    exact run_reference hplain href rest
  · rw [he]
    exact run_cons_of (by simp [step, hamp, hlt]) rest

/-- The value of an attribute is read as its units. -/
theorem run_escape (v : Text) (read rest : Text) :
    run ⟨.value tag attrs name read, b⟩ (escape v ++ rest) =
      run ⟨.value tag attrs name (read ++ v), b⟩ rest := by
  induction v generalizing read with
  | nil => simp [escape]
  | cons c v ih =>
    have hunit : run ⟨.value tag attrs name read, b⟩ (escUnit c ++ (escape v ++ rest)) =
        run ⟨.value tag attrs name (read ++ [c]), b⟩ (escape v ++ rest) := by
      rcases escUnit_cases c with ⟨ref, he, hplain, href⟩ | ⟨he, hamp, -, hquot⟩
      · have hopen : step ⟨.value tag attrs name read, b⟩ (cu '&') =
            some ⟨.valueReference tag attrs name read [], b⟩ := rfl
        rw [he, List.cons_append, List.cons_append, run_cons_of hopen, List.append_assoc,
          run_reading (.valueReference tag attrs name read) (· ≠ cu ';')
            (fun read d hd => by simp [step, hd]) hplain]
        exact run_cons_of (by simp [step, href]) _
      · rw [he]
        exact run_cons_of (by simp [step, hamp, hquot]) _
    have happend : escape (c :: v) ++ rest = escUnit c ++ (escape v ++ rest) := by
      simp [escape]
    rw [happend, hunit, ih]
    simp

/-! Names. -/

theorem isName_cons {t : Text} (h : isName t = true) :
    ∃ c u, t = c :: u ∧ isLower c = true ∧ ∀ d ∈ u, isNameUnit d = true := by
  cases t with
  | nil => simp [isName] at h
  | cons c u =>
    simp only [isName, List.head?_cons, Option.any_some, List.all_cons, Bool.and_eq_true,
      List.all_eq_true] at h
    exact ⟨c, u, rfl, h.1, h.2.2⟩

@[simp] theorem nameOf_val (n : Name) : nameOf n.1 = some n := by
  simp [nameOf, n.2]

/-- From `s` a space goes on to the next attribute, and `>` ends the tag. -/
structure Between (s : State) (b : Builder) (tag : Name) (attrs : List Attr) : Prop where
  space : step s (cu ' ') = some ⟨.beforeAttr tag attrs, b⟩
  close : step s (cu '>') = started b (some tag) attrs

theorem between_tagName (b : Builder) (tag : Name) : Between ⟨.tagName tag.1, b⟩ b tag [] where
  space := by
    have hne : isNameUnit (cu ' ') = false := by decide
    simp [step, hne]
  close := by
    have hne : isNameUnit (cu '>') = false := by decide
    have hspace : cu '>' ≠ cu ' ' := by decide
    simp [step, hne, hspace]

theorem between_attrName (b : Builder) (tag name : Name) (attrs : List Attr) :
    Between ⟨.attrName tag attrs name.1, b⟩ b tag (attrs ++ [(name, none)]) where
  space := by
    have hne : isNameUnit (cu ' ') = false := by decide
    have heq : cu ' ' ≠ cu '=' := by decide
    simp [step, hne, heq]
  close := by
    have hne : isNameUnit (cu '>') = false := by decide
    have heq : cu '>' ≠ cu '=' := by decide
    have hspace : cu '>' ≠ cu ' ' := by decide
    simp [step, hne, heq, hspace]

theorem between_afterValue (b : Builder) (tag : Name) (attrs : List Attr) :
    Between ⟨.afterValue tag attrs, b⟩ b tag attrs where
  space := rfl
  close := by
    have hspace : cu '>' ≠ cu ' ' := by decide
    simp [step, hspace]

/-- A name is read from its first unit on. -/
theorem run_attrName (name : Name) (rest : Text) :
    run ⟨.beforeAttr tag attrs, b⟩ (name.1 ++ rest) =
      run ⟨.attrName tag attrs name.1, b⟩ rest := by
  obtain ⟨c, u, hname, hc, hu⟩ := isName_cons name.2
  have hopen : step ⟨.beforeAttr tag attrs, b⟩ c = some ⟨.attrName tag attrs [c], b⟩ := by
    simp [step, hc]
  rw [hname, List.cons_append, run_cons_of hopen,
    run_reading (.attrName tag attrs) (isNameUnit · = true) (fun read d hd => by simp [step, hd]) hu]
  rfl

/-- One attribute, and the tag goes on. -/
theorem run_printAttr {s : State} (h : Between s b tag attrs) (a : Attr) (rest : Text) :
    ∃ s', Between s' b tag (attrs ++ [a]) ∧ run s (printAttr a ++ rest) = run s' rest := by
  obtain ⟨name, value⟩ := a
  cases value with
  | none =>
    refine ⟨_, between_attrName b tag name attrs, ?_⟩
    have hprint : printAttr (name, none) ++ rest = cu ' ' :: (name.1 ++ rest) := rfl
    rw [hprint, run_cons_of h.space, run_attrName]
  | some v =>
    refine ⟨_, between_afterValue b tag _, ?_⟩
    have hprint : printAttr (name, some v) ++ rest =
        cu ' ' :: (name.1 ++ (cu '=' :: cu '"' :: (escape v ++ (cu '"' :: rest)))) := by
      have hspace : lit " " = [cu ' '] := rfl
      have hopen : lit "=\"" = [cu '=', cu '"'] := rfl
      have hclose : lit "\"" = [cu '"'] := rfl
      simp [printAttr, hspace, hopen, hclose]
    have heq : step ⟨.attrName tag attrs name.1, b⟩ (cu '=') =
        some ⟨.beforeValue tag attrs name, b⟩ := by
      have hne : isNameUnit (cu '=') = false := by decide
      simp [step, hne]
    have hquote : step ⟨.beforeValue tag attrs name, b⟩ (cu '"') =
        some ⟨.value tag attrs name [], b⟩ := rfl
    have hend : step ⟨.value tag attrs name ([] ++ v), b⟩ (cu '"') =
        some ⟨.afterValue tag (attrs ++ [(name, some v)]), b⟩ := rfl
    rw [hprint, run_cons_of h.space, run_attrName, run_cons_of heq, run_cons_of hquote, run_escape,
      run_cons_of hend]

theorem run_attrs {s : State} (h : Between s b tag attrs) (more : List Attr) (rest : Text) :
    run s (more.flatMap printAttr ++ (cu '>' :: rest)) =
      (started b (some tag) (attrs ++ more)).bind fun s => run s rest := by
  induction more generalizing s attrs with
  | nil => rw [List.flatMap_nil, List.nil_append, run_cons, h.close, List.append_nil]
  | cons a more ih =>
    obtain ⟨s', hs, hrun⟩ := run_printAttr h a (more.flatMap printAttr ++ (cu '>' :: rest))
    rw [List.flatMap_cons, List.append_assoc, hrun, ih hs]
    simp

/-- A start tag. -/
theorem run_printOpen (tag : Name) (attrs : List Attr) (rest : Text) :
    run ⟨.data, b⟩ (printOpen tag.1 attrs ++ rest) =
      (started b (some tag) attrs).bind fun s => run s rest := by
  obtain ⟨c, u, hname, hc, hu⟩ := isName_cons tag.2
  have hprint : printOpen tag.1 attrs ++ rest =
      cu '<' :: c :: (u ++ (attrs.flatMap printAttr ++ (cu '>' :: rest))) := by
    have hopen : lit "<" = [cu '<'] := rfl
    have hclose : lit ">" = [cu '>'] := rfl
    simp [printOpen, hname, hopen, hclose]
  have hopen : step ⟨.data, b⟩ (cu '<') = some ⟨.tagOpen, b⟩ := rfl
  have hfirst : step ⟨.tagOpen, b⟩ c = some ⟨.tagName [c], b⟩ := by
    have hslash : c ≠ cu '/' := by
      rintro rfl
      cases hc
    simp [step, hslash, hc]
  rw [hprint, run_cons_of hopen, run_cons_of hfirst,
    run_reading .tagName (isNameUnit · = true) (fun read d hd => by simp [step, hd]) hu,
    List.singleton_append, ← hname, run_attrs (between_tagName b tag) attrs rest]
  rfl

/-- An end tag. -/
theorem run_printClose (tag : Name) (rest : Text) :
    run ⟨.data, b⟩ (lit "</" ++ tag.1 ++ lit ">" ++ rest) =
      (b.close tag.1).bind fun b => run ⟨.data, b⟩ rest := by
  obtain ⟨c, u, hname, hc, hu⟩ := isName_cons tag.2
  have hprint : lit "</" ++ tag.1 ++ lit ">" ++ rest =
      cu '<' :: cu '/' :: c :: (u ++ (cu '>' :: rest)) := by
    have hopen : lit "</" = [cu '<', cu '/'] := rfl
    have hclose : lit ">" = [cu '>'] := rfl
    simp [hname, hopen, hclose]
  have hopen : step ⟨.data, b⟩ (cu '<') = some ⟨.tagOpen, b⟩ := rfl
  have hslash : step ⟨.tagOpen, b⟩ (cu '/') = some ⟨.endOpen, b⟩ := rfl
  have hfirst : step ⟨.endOpen, b⟩ c = some ⟨.endName [c], b⟩ := by simp [step, hc]
  have hne : isNameUnit (cu '>') = false := by decide
  have hend : step ⟨.endName tag.1, b⟩ (cu '>') = (b.close tag.1).map fun b => ⟨.data, b⟩ := by
    simp [step, hne]
  rw [hprint, run_cons_of hopen, run_cons_of hslash, run_cons_of hfirst,
    run_reading .endName (isNameUnit · = true) (fun read d hd => by simp [step, hd]) hu,
    List.singleton_append, ← hname, run_cons, hend]
  cases b.close tag.1 <;> rfl

theorem started_void (b : Builder) (tag : VoidTag) (attrs : List Attr) :
    started b (some tag.1) attrs = some ⟨.data, b.push (.void tag attrs)⟩ := by
  simp [started, Builder.start, tag.2]

theorem started_element (b : Builder) (tag : Tag) (attrs : List Attr) :
    started b (some tag.1) attrs =
      some ⟨.data, { nodes := [], stack := { tag, attrs, before := b.nodes } :: b.stack }⟩ := by
  simp [started, Builder.start, tag.2.1, tag.2.2]

mutual
/-- A printed node is read as itself, below whatever is open. -/
theorem run_print (n : Node) (b : Builder) (rest : Text) :
    run ⟨.data, b⟩ (print n ++ rest) = run ⟨.data, b.push n⟩ rest := by
  match n with
  | .char c => exact run_escUnit c rest
  | .void tag attrs =>
    rw [print, run_printOpen, started_void, Option.bind_some]
  | .element tag attrs children =>
    have hclose : Builder.close
        { nodes := children, stack := { tag, attrs, before := b.nodes } :: b.stack } tag.1.1 =
          some (b.push (.element tag attrs children)) := by
      simp [Builder.close, Builder.push]
    have hprint : print (.element tag attrs children) ++ rest =
        printOpen tag.1.1 attrs ++
          (printAll children ++ (lit "</" ++ tag.1.1 ++ lit ">" ++ rest)) := by
      simp [print]
    rw [hprint, run_printOpen, started_element, Option.bind_some, run_printAll children,
      List.nil_append, run_printClose, hclose, Option.bind_some]

theorem run_printAll (ns : List Node) (b : Builder) (rest : Text) :
    run ⟨.data, b⟩ (printAll ns ++ rest) = run ⟨.data, { b with nodes := b.nodes ++ ns }⟩ rest := by
  match ns with
  | [] => simp
  | n :: ns =>
    rw [printAll_cons, List.append_assoc, run_print n, run_printAll ns]
    simp [Builder.push]
end

/-- What a tree prints is read as that tree. -/
theorem parse_printAll (ns : List Node) : parse (printAll ns) = some ns := by
  have h := run_printAll ns ⟨[], []⟩ []
  rw [List.append_nil] at h
  rw [parse, h]
  rfl

theorem printAll_injective : Function.Injective printAll := fun ns ms h =>
  Option.some.inj ((parse_printAll ns).symm.trans ((congrArg parse h).trans (parse_printAll ms)))

end Js.Html
