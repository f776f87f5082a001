import StormReview.Ui.View

/-! No text of an answer becomes markup: whatever a panel is given to show, it is read as the tree
that is meant, whose elements carry nothing but the classes and styles of the page. -/
namespace StormReview
open Js Zod Html

def pageTags : List Text :=
  [lit "div", lit "span", lit "b", lit "h2", lit "ul", lit "li", lit "details", lit "summary",
    lit "br"]

/-- The styles that the page sets on an element. -/
def pageStyles : List Text :=
  [lit "margin-top:6px", lit "margin-top:12px", lit "margin-left:8px", lit "color:var(--ink-dim)",
    lit "color:var(--ink-mute)", lit "width:50%", lit "width:70%", lit "width:80%;margin:20px auto 0",
    lit "width:60%;margin:10px auto"]

inductive InertAttr : Attr → Prop where
  | ofClass (v : Text) : InertAttr (classAttr, some v)
  | ofStyle {v : Text} (h : v ∈ pageStyles) : InertAttr (styleAttr, some v)
  | ofOpen : InertAttr (openAttr, none)

/-- An element that runs nothing, loads nothing and leads nowhere. -/
structure Inert (head : Text × List Attr) : Prop where
  tag : head.1 ∈ pageTags
  attrs : ∀ a ∈ head.2, InertAttr a

def InertNode (n : Node) : Prop := ∀ head ∈ heads n, Inert head

def AllInert (ns : List Node) : Prop := ∀ head ∈ headsAll ns, Inert head

@[simp] theorem allInert_nil : AllInert [] := nofun

@[simp] theorem allInert_cons (n : Node) (ns : List Node) :
    AllInert (n :: ns) ↔ InertNode n ∧ AllInert ns := by
  simp [AllInert, InertNode, or_imp, forall_and]

@[simp] theorem allInert_append (ns ms : List Node) :
    AllInert (ns ++ ms) ↔ AllInert ns ∧ AllInert ms := by
  simp [AllInert, or_imp, forall_and]

@[simp] theorem allInert_text (t : Text) : AllInert (text t) := by
  simp [AllInert]

@[simp] theorem allInert_literal (s : String) : AllInert (literal s) := allInert_text _

@[simp] theorem allInert_textOpt (t : Option Text) : AllInert (textOpt t) := allInert_text _

@[simp] theorem allInert_map {α : Type} (l : List α) (f : α → Node) :
    AllInert (l.map f) ↔ ∀ a ∈ l, InertNode (f a) := by
  induction l with
  | nil => simp
  | cons a l ih => simp [ih]

theorem inertNode_element {tag : Tag} {attrs : List Attr} {children : List Node}
    (htag : tag.1.1 ∈ pageTags) (hattrs : ∀ a ∈ attrs, InertAttr a) :
    InertNode (.element tag attrs children) ↔ AllInert children := by
  have hhead : Inert (tag.1.1, attrs) := ⟨htag, hattrs⟩
  simp [InertNode, AllInert, heads, hhead]

@[simp] theorem inertNode_bare {tag : Tag} (h : tag.1.1 ∈ pageTags) (children : List Node) :
    InertNode (bare tag children) ↔ AllInert children :=
  inertNode_element h (by simp)

@[simp] theorem inertNode_classed {tag : Tag} (h : tag.1.1 ∈ pageTags) (cls : Text)
    (children : List Node) : InertNode (classed tag cls children) ↔ AllInert children :=
  inertNode_element h (by simp [InertAttr.ofClass])

@[simp] theorem inertNode_styled {tag : Tag} {style : String} (h : tag.1.1 ∈ pageTags)
    (hs : lit style ∈ pageStyles) (cls : String) (children : List Node) :
    InertNode (styled tag cls style children) ↔ AllInert children :=
  inertNode_element h (by simp [InertAttr.ofClass, InertAttr.ofStyle hs])

theorem inertNode_heading {style : String} (hs : lit style ∈ pageStyles) (children : List Node) :
    InertNode (.element h2Tag [(styleAttr, some (lit style))] children) ↔ AllInert children :=
  inertNode_element (by decide) (by simp [InertAttr.ofStyle hs])

theorem inertNode_openDetails (children : List Node) :
    InertNode (.element detailsTag [(openAttr, none)] children) ↔ AllInert children :=
  inertNode_element (by decide) (by simp [InertAttr.ofOpen])

@[simp] theorem inertNode_div (cls : String) (children : List Node) :
    InertNode (div cls children) ↔ AllInert children :=
  inertNode_classed (by decide) _ _

@[simp] theorem inertNode_span (cls : String) (children : List Node) :
    InertNode (span cls children) ↔ AllInert children :=
  inertNode_classed (by decide) _ _

@[simp] theorem inertNode_rowView (k : String) (v : List Node) :
    InertNode (rowView k v) ↔ AllInert v := by
  simp [rowView]

@[simp] theorem allInert_ite (c : Prop) [Decidable c] (ns ms : List Node) :
    AllInert (if c then ns else ms) ↔ (c → AllInert ns) ∧ (¬c → AllInert ms) := by
  by_cases h : c <;> simp [h]

@[simp] theorem allInert_elim {α : Type} (o : Option α) (ns : List Node) (f : α → List Node) :
    AllInert (o.elim ns f) ↔ (o = none → AllInert ns) ∧ ∀ a, o = some a → AllInert (f a) := by
  cases o <;> simp

/-! The panels. -/

theorem inert_photosView (rep : Option LeftReport) : InertNode (photosView rep) := by
  simp (disch := decide) [photosView, noneView, photoView, onOffBadge]

theorem inert_vulnerabilityView (cust : Option LeftCustomer) :
    InertNode (vulnerabilityView cust) := by
  cases h : (cust.bind (·.vulnerabilityFlag)).getD false <;> simp [vulnerabilityView, h]

theorem LeftPanel.inert_view (p : LeftPanel) : AllInert p.view := by
  cases p with
  | pick => simp [LeftPanel.view]
  | skeleton => simp (disch := decide) [LeftPanel.view, skeletonView]
  | blank => simp [LeftPanel.view]
  | shown left =>
    simp (disch := decide) [LeftPanel.view, leftView, recommendationView, yesNoView, guardNoteView,
      emergencyView, inert_photosView, policyView, inert_vulnerabilityView, weatherView]

theorem inert_callsView (calls : List SeenCall) : AllInert (callsView calls) := by
  simp (disch := decide) [callsView, noneView, traceView]

theorem Seen.inert_view (s : Seen) : AllInert s.view := by
  simp (disch := decide) [Seen.view, bannerView, findingView, evidenceView, gapView, guardView,
    liView, qualityView, yesNoView, inert_callsView, inertNode_heading, inertNode_openDetails]

theorem RightPanel.inert_view (message : Text) (p : RightPanel) : AllInert (p.view message) := by
  cases p with
  | blank => simp [RightPanel.view]
  | running => simp (disch := decide) [RightPanel.view, runningView]
  | unreachable => simp [RightPanel.view, errorView]
  | notProduced said =>
    have hbr : InertNode (.void brTag []) := fun _ h => by
      cases List.mem_singleton.mp h
      exact ⟨by decide, fun _ h => by cases h⟩
    simp [RightPanel.view, errorView, hbr]
  | noReview => simp [RightPanel.view, errorView]
  | reviewed body rev => exact (seen body rev).inert_view

/-- A text that the browser reads as these nodes, which do nothing but show. -/
structure ReadsAs (html : Text) (nodes : List Node) : Prop where
  read : parse html = some nodes
  inert : AllInert nodes

theorem readsAs_of {html : Text} {nodes : List Node} (h : printAll nodes = html)
    (hi : AllInert nodes) : ReadsAs html nodes :=
  ⟨h ▸ parse_printAll nodes, hi⟩

/-- Whatever the report, the agent, the files or the server put into an answer, each panel is read
as the tree that is meant: their texts stand in it as they are, and add no element to it. -/
theorem answers_are_never_markup (p : Page) (message : Text) (d : Response) (c : CaseRecord) :
    ReadsAs p.left.html p.left.view ∧ ReadsAs (p.right.html message) (p.right.view message) ∧
      ReadsAs (doneHtml d) (doneView d) ∧ ReadsAs (caseButtonHtml c) (caseButtonView c) := by
  refine ⟨readsAs_of p.left.printAll_view p.left.inert_view,
    readsAs_of (p.right.printAll_view message) (p.right.inert_view message),
    readsAs_of (printAll_doneView d) ?_, readsAs_of (printAll_caseButtonView c) ?_⟩
  · simp (disch := decide) [doneView]
  · simp (disch := decide) [caseButtonView]

end StormReview
