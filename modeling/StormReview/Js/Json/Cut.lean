import StormReview.Js.Json

/-! Texts that `JSON.parse` rejects: an object that is cut short, or that more follows. -/
namespace Js.Json

section grounded
variable {numberText : Text → Text} {s s' : State} {t : Text} {c : UInt16}

/-- Once every container is closed, the value has been read. -/
def Grounded (s : State) : Prop := s.stack = [] → ∃ v, s.mode = .after v

/-- Whether a value can be complete after this unit. -/
def isEnd (c : UInt16) : Bool := isBlank c || c == cu '"' || c == cu ']' || c == cu '\x7d'

/-- Where a unit leads: on inside a container, or to the end of a value. -/
def Follows (c : UInt16) (s : State) : Prop :=
  (s.stack ≠ [] ∧ ∀ v, s.mode ≠ .after v) ∨ (isEnd c = true ∧ ∃ v, s.mode = .after v)

theorem Follows.grounded (h : Follows c s) : Grounded s := by
  intro hnil
  rcases h with ⟨hne, -⟩ | ⟨-, hafter⟩
  · exact absurd hnil hne
  · exact hafter

section parts
variable {stack below : List Frame} {mode : Mode}

theorem follows_inside (hne : stack ≠ []) (hmode : ∀ v, mode ≠ .after v) :
    Follows c ⟨stack, mode⟩ := .inl ⟨hne, hmode⟩

theorem follows_end (hc : isEnd c = true) (v : Value) : Follows c ⟨stack, .after v⟩ :=
  .inr ⟨hc, v, rfl⟩

theorem follows_openValue (hne : stack ≠ []) (h : openValue stack c = some s') :
    Follows c s' := by
  unfold openValue at h
  split_ifs at h with hblank hquote hitems hfields hend hclose
  · exact Option.some.inj h ▸ follows_inside hne nofun
  · exact Option.some.inj h ▸ follows_inside hne nofun
  · exact Option.some.inj h ▸ follows_inside (by simp) nofun
  · exact Option.some.inj h ▸ follows_inside (by simp) nofun
  · split at h
    · exact Option.some.inj h ▸ follows_end (by rw [hclose]; decide) _
    · cases h
  · split at h <;> cases h
  · exact Option.some.inj h ▸ follows_inside hne nofun

theorem follows_openKey (hne : stack ≠ []) (h : openKey stack c = some s') : Follows c s' := by
  unfold openKey at h
  split_ifs at h with hblank hquote hclose
  · exact Option.some.inj h ▸ follows_inside hne nofun
  · exact Option.some.inj h ▸ follows_inside hne nofun
  · split at h
    · exact Option.some.inj h ▸ follows_end (by rw [hclose]; decide) _
    · cases h
  · split at h <;> cases h

theorem follows_afterKey {key : Text} (hne : stack ≠ []) (h : afterKey stack key c = some s') :
    Follows c s' := by
  unfold afterKey at h
  split_ifs at h with hblank hcolon
  · exact Option.some.inj h ▸ follows_inside hne nofun
  · split at h
    · exact Option.some.inj h ▸ follows_inside (by simp) nofun
    · cases h
  · split at h <;> cases h

theorem follows_inText {isKey : Bool} {read : Text} {escape : Escape} (hne : stack ≠ [])
    (h : inText isKey read escape c = some mode) : Follows c ⟨stack, mode⟩ := by
  unfold inText at h
  split at h
  · split_ifs at h with hquote hkey
    · exact Option.some.inj h ▸ follows_inside hne nofun
    · exact Option.some.inj h ▸ follows_end (by rw [hquote]; decide) _
    · exact Option.some.inj h ▸ follows_inside hne nofun
    · exact Option.some.inj h ▸ follows_inside hne nofun
  · split_ifs at h
    · exact Option.some.inj h ▸ follows_inside hne nofun
    · obtain ⟨u, -, rfl⟩ := Option.map_eq_some_iff.mp h
      exact follows_inside hne nofun
  · obtain ⟨d, -, rfl⟩ := Option.map_eq_some_iff.mp h
    split_ifs
    · exact follows_inside hne nofun
    · exact follows_inside hne nofun

theorem follows_afterValue {v : Value} (h : afterValue stack v c = some s') : Follows c s' := by
  by_cases hblank : isBlank c = true
  · rw [afterValue.eq_def, if_pos hblank] at h
    exact Option.some.inj h ▸ follows_end (by simp [isEnd, hblank]) _
  rw [afterValue.eq_def, if_neg hblank] at h
  split at h
  · split_ifs at h with hcomma hclose
    · exact Option.some.inj h ▸ follows_inside (by simp) nofun
    · exact Option.some.inj h ▸ follows_end (by rw [hclose]; decide) _
  · split_ifs at h with hcomma hclose
    · exact Option.some.inj h ▸ follows_inside (by simp) nofun
    · exact Option.some.inj h ▸ follows_end (by rw [hclose]; decide) _
  · cases h

end parts

theorem Grounded.step (h : Grounded s) (hstep : step numberText s c = some s') :
    Follows c s' := by
  obtain ⟨stack, mode⟩ := s
  have hne : (∀ v, mode ≠ .after v) → stack ≠ [] := by
    rintro hmode rfl
    obtain ⟨v, hv⟩ := h rfl
    exact hmode v hv
  cases mode with
  | value => exact follows_openValue (hne fun v => nofun) hstep
  | key => exact follows_openKey (hne fun v => nofun) hstep
  | colon key => exact follows_afterKey (hne fun v => nofun) hstep
  | text isKey read escape =>
    obtain ⟨mode, hmode, rfl⟩ := Option.map_eq_some_iff.mp hstep
    exact follows_inText (hne fun v => nofun) hmode
  | token read =>
    simp only [Json.step] at hstep
    split_ifs at hstep
    · obtain ⟨v, -, hafter⟩ := Option.bind_eq_some_iff.mp hstep
      exact follows_afterValue hafter
    · exact Option.some.inj hstep ▸ follows_inside (hne fun v => nofun) nofun
  | after v => exact follows_afterValue hstep

theorem Grounded.run (h : Grounded s) (hrun : run numberText s t = some s') : Grounded s' := by
  induction t generalizing s with
  | nil => exact Option.some.inj hrun ▸ h
  | cons c t ih =>
    rw [run_cons] at hrun
    obtain ⟨s1, hstep, hrun⟩ := Option.bind_eq_some_iff.mp hrun
    exact ih (h.step hstep).grounded hrun

theorem Grounded.finish (h : Grounded s) {v : Value} (hfinish : finish numberText s = some v) :
    s = ⟨[], .after v⟩ := by
  obtain ⟨stack, mode⟩ := s
  cases stack with
  | cons frame stack => cases hfinish
  | nil =>
    obtain ⟨w, rfl⟩ := h rfl
    rw [← Option.some.inj hfinish]

/-- The text of an object is open until its last brace. -/
theorem run_object (h : run numberText ⟨[], .value⟩ (cu '\x7b' :: t) = some s) : Grounded s := by
  have hopen : Json.step numberText ⟨[], .value⟩ (cu '\x7b') = some ⟨[.fields []], .key⟩ := rfl
  have hinside : Grounded ⟨[.fields []], .key⟩ := fun hnil => nomatch hnil
  rw [run_cons_of hopen] at h
  exact hinside.run h

/-- After the value only white space may follow. -/
theorem run_after_nil {v : Value} (h : run numberText ⟨[], .after v⟩ t = some s) :
    ∀ c ∈ t, isBlank c = true := by
  induction t with
  | nil => exact fun c hc => nomatch hc
  | cons c t ih =>
    rw [run_cons] at h
    obtain ⟨s1, hstep, hrun⟩ := Option.bind_eq_some_iff.mp h
    simp only [Json.step, afterValue] at hstep
    split_ifs at hstep with hc
    obtain rfl := Option.some.inj hstep
    intro d hd
    rcases List.mem_cons.mp hd with rfl | hd
    · exact hc
    · exact ih hrun d hd

/-- An object whose text is cut short is no JSON text. -/
theorem parse_cut {u : Text} (h : run numberText ⟨[], .value⟩ (cu '\x7b' :: t ++ u) = some s)
    (hu : ∃ c ∈ u, isBlank c = false) : parse numberText (cu '\x7b' :: t) = none := by
  rw [Option.eq_none_iff_forall_ne_some]
  intro v hv
  obtain ⟨s1, hrun, hfinish⟩ := Option.bind_eq_some_iff.mp hv
  obtain rfl := (run_object hrun).finish hfinish
  rw [run_append_of hrun] at h
  obtain ⟨c, hc, hblank⟩ := hu
  rw [run_after_nil h c hc] at hblank
  cases hblank

/-- Nor is one that is cut short by a unit that ends no value. -/
theorem parse_replaced (hc : isEnd c = false) :
    parse numberText (cu '\x7b' :: t ++ [c]) = none := by
  rw [Option.eq_none_iff_forall_ne_some]
  intro v hv
  obtain ⟨s, hrun, hfinish⟩ := Option.bind_eq_some_iff.mp hv
  obtain rfl := (run_object hrun).finish hfinish
  rw [run_append] at hrun
  obtain ⟨s1, hrun1, hlast⟩ := Option.bind_eq_some_iff.mp hrun
  rw [run_cons] at hlast
  obtain ⟨s2, hstep, hnil⟩ := Option.bind_eq_some_iff.mp hlast
  obtain rfl := Option.some.inj hnil
  rcases (run_object hrun1).step hstep with ⟨-, hmode⟩ | ⟨hend, -⟩
  · exact hmode v rfl
  · rw [hc] at hend
    cases hend

/-- Nor is one with more than white space after it. -/
theorem parse_followed {v : Value} (h : run numberText ⟨[], .value⟩ t = some ⟨[], .after v⟩)
    {u : Text} (hu : ∃ c ∈ u, isBlank c = false) : parse numberText (t ++ u) = none := by
  obtain ⟨c, hc, hblank⟩ := hu
  rw [parse, run_append_of h, Option.bind_eq_none_iff]
  intro s hrun
  rw [run_after_nil hrun c hc] at hblank
  cases hblank

end grounded

end Js.Json
