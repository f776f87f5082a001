import StormReview.Ui.View

/-! What the panel of an assessment tells apart: two answers look alike there just when they agree
in everything that it shows. -/
namespace StormReview
open Js Zod Html

/-- Two lists written one after the other can be told apart when their elements can. -/
theorem map_append_map_inj {α β γ : Type} {f : α → γ} {g : β → γ} (hf : Function.Injective f)
    (hg : Function.Injective g) (hne : ∀ a b, f a ≠ g b) {as as' : List α} {bs bs' : List β}
    (h : as.map f ++ bs.map g = as'.map f ++ bs'.map g) : as = as' ∧ bs = bs' := by
  induction as generalizing as' with
  | nil =>
    cases as' with
    | nil => exact ⟨rfl, hg.list_map (by simpa using h)⟩
    | cons a' as' =>
      cases bs with
      | nil => simp at h
      | cons b bs => exact absurd (List.cons.inj h).1.symm (hne a' b)
  | cons a as ih =>
    cases as' with
    | nil =>
      cases bs' with
      | nil => simp at h
      | cons b bs' => exact absurd (List.cons.inj h).1 (hne a b)
    | cons a' as' =>
      obtain ⟨ha, htail⟩ := List.cons.inj h
      obtain ⟨has, hbs⟩ := ih htail
      exact ⟨by rw [hf ha, has], hbs⟩

/-- What stands before the first separator, and after it. -/
theorem append_cons_inj {α : Type} {a : α} {u u' v v' : List α} (hu : a ∉ u) (hu' : a ∉ u')
    (h : u ++ a :: v = u' ++ a :: v') : u = u' ∧ v = v' := by
  induction u generalizing u' with
  | nil =>
    cases u' with
    | nil => exact ⟨rfl, (List.cons.inj h).2⟩
    | cons c u' => exact absurd (List.cons.inj h).1 fun hc => hu' (hc ▸ List.mem_cons_self)
  | cons c u ih =>
    cases u' with
    | nil => exact absurd (List.cons.inj h).1.symm fun hc => hu (hc ▸ List.mem_cons_self)
    | cons c' u' =>
      obtain ⟨hc, htail⟩ := List.cons.inj h
      obtain ⟨hue, hv⟩ := ih (fun ha => hu (List.mem_cons_of_mem c ha))
        (fun ha => hu' (List.mem_cons_of_mem c' ha)) htail
      exact ⟨by rw [hc, hue], hv⟩

@[simp] theorem text_append_eq (t u : Text) : text t ++ text u = text (t ++ u) :=
  (List.map_append).symm

@[simp] theorem classed_inj {tag : Tag} {cls cls' : Text} {ns ms : List Node} :
    classed tag cls ns = classed tag cls' ms ↔ cls = cls' ∧ ns = ms := by
  simp [classed]

@[simp] theorem styled_inj {tag : Tag} {cls style : String} {ns ms : List Node} :
    styled tag cls style ns = styled tag cls style ms ↔ ns = ms := by
  simp [styled]

@[simp] theorem bare_inj {tag : Tag} {ns ms : List Node} : bare tag ns = bare tag ms ↔ ns = ms := by
  simp [bare]

@[simp] theorem div_inj {cls : String} {ns ms : List Node} : div cls ns = div cls ms ↔ ns = ms := by
  simp [div]

@[simp] theorem span_inj {cls : String} {ns ms : List Node} :
    span cls ns = span cls ms ↔ ns = ms := by
  simp [span]

@[simp] theorem rowView_inj {k : String} {v w : List Node} :
    rowView k v = rowView k w ↔ v = w := by
  simp [rowView]

@[simp] theorem enumText_inj {α : Type} [Enum α] {a b : α} :
    Enum.text a = Enum.text b ↔ a = b :=
  ⟨Enum.text_inj a b, congrArg _⟩

@[simp] theorem yesNoView_inj {b c : Bool} : yesNoView b = yesNoView c ↔ b = c := by
  have hne : lit "yes" ≠ lit "no" := by decide
  cases b <;> cases c <;> simp [yesNoView, literal, hne, hne.symm]

theorem space_notMem (s : EvidenceSource) : cu ' ' ∉ Enum.text s := by
  cases s <;> decide

theorem evidenceView_injective : Function.Injective evidenceView := by
  intro e e' h
  rw [evidenceView, evidenceView, div_inj] at h
  obtain ⟨hquote, hsrc⟩ := List.append_inj' h rfl
  have hquote : e.quote = e'.quote := text_injective hquote
  have hsep (u : Text) : lit " : " ++ u = cu ' ' :: (lit ": " ++ u) := rfl
  have hsrc : Enum.text e.source ++ cu ' ' :: (lit ": " ++ e.ref) =
      Enum.text e'.source ++ cu ' ' :: (lit ": " ++ e'.ref) := by
    simpa only [literal, List.cons.injEq, and_true, div_inj, List.append_assoc, text_append_eq,
      text_inj, hsep] using hsrc
  obtain ⟨hsource, hrest⟩ := append_cons_inj (space_notMem e.source) (space_notMem e'.source) hsrc
  have hsource : e.source = e'.source := enumText_inj.mp hsource
  have href : e.ref = e'.ref := List.append_cancel_left hrest
  cases e
  cases e'
  simp_all

theorem gapView_injective : Function.Injective gapView := by
  intro g g' h
  simpa [gapView] using h

theorem evidenceView_ne_gapView (e : Evidence) (g : Text) : evidenceView e ≠ gapView g := by
  have hne : lit "ev" ≠ lit "gap" := by decide
  simp [evidenceView, gapView, div, hne]

theorem findingView_inj {φ : Type} [Enum φ] {id title : String} {f f' : Finding φ}
    (h : findingView id title f = findingView id title f') : f = f' := by
  simp only [findingView, div_inj, List.cons.injEq, classed_inj, text_inj, enumText_inj,
    and_true, true_and] at h
  obtain ⟨⟨-, hfinding⟩, hlists⟩ := h
  obtain ⟨hevidence, hgaps⟩ := map_append_map_inj evidenceView_injective gapView_injective
    evidenceView_ne_gapView hlists
  cases f
  cases f'
  simp_all

theorem traceView_injective : Function.Injective traceView := by
  intro t t' h
  simp only [traceView, div_inj, List.cons_append, List.nil_append,
    List.cons.injEq, span_inj, text_inj, List.append_cancel_left_eq, styled_inj, and_true] at h
  exact SeenCall.ext h.1 h.2.1 h.2.2

theorem noneView_ne_traceView (t : SeenCall) : noneView ≠ traceView t := by
  have hne : lit "kv" ≠ lit "trace-item" := by decide
  simp [noneView, traceView, div, hne]

theorem callsView_injective : Function.Injective callsView := by
  intro ts ts' h
  cases ts with
  | nil =>
    cases ts' with
    | nil => rfl
    | cons t' ts' => exact absurd (List.cons.inj h).1 (noneView_ne_traceView t')
  | cons t ts =>
    cases ts' with
    | nil => exact absurd (List.cons.inj h).1.symm (noneView_ne_traceView t)
    | cons t' ts' => exact traceView_injective.list_map h

/-- A line that says one of two things tells which. -/
theorem line_inj {s t : String} {c d : UInt16} (hs : (lit s).head? = some c)
    (ht : (lit t).head? = some d) (hne : c ≠ d) {b b' : Bool} {ns ns' : List Node}
    (h : (if b then literal s else literal t) ++ ns =
      (if b' then literal s else literal t) ++ ns') : b = b' ∧ ns = ns' := by
  have hdiff (ns ns' : List Node) : literal s ++ ns ≠ literal t ++ ns' := by
    obtain ⟨u, hu⟩ := List.head?_eq_some_iff.mp hs
    obtain ⟨v, hv⟩ := List.head?_eq_some_iff.mp ht
    simp [literal, hu, hv, text, hne]
  cases b with
  | false =>
    cases b' with
    | false => exact ⟨rfl, List.append_cancel_left h⟩
    | true => exact absurd h.symm (hdiff ns' ns)
  | true =>
    cases b' with
    | false => exact absurd h (hdiff ns ns')
    | true => exact ⟨rfl, List.append_cancel_left h⟩

/-- So does a line that is only there with something to say. -/
theorem elim_inj {α : Type} {ns : List Node} {f : α → List Node} (hf : Function.Injective f)
    (hne : ∀ a, f a ≠ ns) {o o' : Option α} (h : o.elim ns f = o'.elim ns f) : o = o' := by
  cases o with
  | none =>
    cases o' with
    | none => rfl
    | some a' => exact absurd h.symm (hne a')
  | some a =>
    cases o' with
    | none => exact absurd h (hne a)
    | some a' => rw [hf h]

theorem guardView_injective : Function.Injective guardView := by
  intro g g' h
  simp only [guardView, div_inj, List.append_assoc, List.cons_append, List.nil_append,
    List.cons.injEq, List.append_cancel_left_eq, true_and] at h
  obtain ⟨hprecedent, hscope, hblocked⟩ := h
  have hprecedent := line_inj rfl rfl (by decide) (congrArg (· ++ []) hprecedent)
  obtain ⟨hok, hwarnings⟩ := line_inj rfl rfl (by decide) hscope
  have hwarnings := elim_inj (fun w w' hw => text_injective (List.append_cancel_left hw))
    (fun w hw => by simp [literal, lit, encode, text] at hw) hwarnings
  have hblocked := elim_inj (fun why why' hw => by simpa using hw) (by simp)
    (List.append_cancel_right hblocked)
  exact SeenGuard.ext hprecedent.1 hok hwarnings hblocked

theorem escalateView_inj {o o' : Option Text}
    (h : (o.elim (literal "no") fun t => literal "yes: " ++ text t) =
      o'.elim (literal "no") fun t => literal "yes: " ++ text t) : o = o' :=
  elim_inj (fun t t' ht => text_injective (List.append_cancel_left ht))
    (fun t ht => by simp [literal, lit, encode, text] at ht) h

theorem bannerView_inj {v v' : VerdictView} {s s' : Seen}
    (h : bannerView v s = bannerView v' s') :
    s.confidence = s'.confidence ∧ s.adjuster = s'.adjuster ∧ s.verdict = s'.verdict := by
  simp only [bannerView, classed_inj, styled_inj, div_inj, List.cons.injEq,
    List.append_cancel_left_eq, text_inj, enumText_inj, and_true, true_and] at h
  exact ⟨h.2.2.1, h.2.2.2.2.2⟩

theorem listView_injective (cls : String) :
    Function.Injective fun xs : List Text => classed ulTag (lit cls) (xs.map liView) := by
  have hli : Function.Injective liView := fun x x' h => by simpa [liView] using h
  intro xs xs' h
  exact hli.list_map (classed_inj.mp h).2

/-- The panel holds all that it was given to show. -/
theorem Seen.view_injective : Function.Injective Seen.view := by
  intro s s' h
  simp only [Seen.view, List.cons.injEq, div_inj, true_and, and_true] at h
  obtain ⟨hbanner, ⟨hq1, hq2, hq3⟩, hguard, hdraft, ⟨hdrivers, hchange⟩, hquality, hcalls⟩ := h
  obtain ⟨hconfidence, hadjuster, hverdict⟩ := bannerView_inj hbanner
  simp only [qualityView, div_inj, Node.element.injEq, List.cons.injEq, rowView_inj,
    yesNoView_inj, text_inj, enumText_inj, true_and, and_true] at hquality
  obtain ⟨hdated, hproperty, hrepairs, hcausation, htemporary, hinternal, hcash, hescalate, hcited,
    hproduced⟩ := hquality
  have hcarve : s.carveOuts = s'.carveOuts := by
    cases hs : s.carveOuts
    cases hs' : s'.carveOuts
    simp_all
  exact Seen.ext hadjuster hverdict hconfidence (findingView_inj hq1) (findingView_inj hq2)
    (findingView_inj hq3) (guardView_injective hguard) (text_injective hdraft)
    (listView_injective "drivers" hdrivers) (listView_injective "change" hchange) hdated hproperty
    hrepairs hcausation hcarve hcash (escalateView_inj hescalate) hcited hproduced
    (callsView_injective hcalls)

/-- Two assessments make the same panel just when they agree in all that the panel shows. -/
theorem panels_alike_iff (body body' : RunBody) (rev rev' : Review) :
    reviewHtml body rev = reviewHtml body' rev' ↔ seen body rev = seen body' rev' := by
  rw [← printAll_seen, ← printAll_seen, printAll_injective.eq_iff, Seen.view_injective.eq_iff]

end StormReview
