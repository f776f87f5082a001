import StormReview.Js.Html.RoundTrip
import StormReview.Ui.Render

/-! The elements that the page is built of, and the strings they print as. -/
namespace StormReview
open Js Zod Html

/-! The elements that the page uses. -/

def divTag : Tag := ⟨⟨lit "div", by decide⟩, by decide, by decide⟩
def spanTag : Tag := ⟨⟨lit "span", by decide⟩, by decide, by decide⟩
def bTag : Tag := ⟨⟨lit "b", by decide⟩, by decide, by decide⟩
def h2Tag : Tag := ⟨⟨lit "h2", by decide⟩, by decide, by decide⟩
def ulTag : Tag := ⟨⟨lit "ul", by decide⟩, by decide, by decide⟩
def liTag : Tag := ⟨⟨lit "li", by decide⟩, by decide, by decide⟩
def detailsTag : Tag := ⟨⟨lit "details", by decide⟩, by decide, by decide⟩
def summaryTag : Tag := ⟨⟨lit "summary", by decide⟩, by decide, by decide⟩
def brTag : VoidTag := ⟨⟨lit "br", by decide⟩, by decide⟩

@[simp] theorem divTag_val : divTag.1.1 = lit "div" := rfl
@[simp] theorem spanTag_val : spanTag.1.1 = lit "span" := rfl
@[simp] theorem bTag_val : bTag.1.1 = lit "b" := rfl
@[simp] theorem h2Tag_val : h2Tag.1.1 = lit "h2" := rfl
@[simp] theorem ulTag_val : ulTag.1.1 = lit "ul" := rfl
@[simp] theorem liTag_val : liTag.1.1 = lit "li" := rfl
@[simp] theorem detailsTag_val : detailsTag.1.1 = lit "details" := rfl
@[simp] theorem summaryTag_val : summaryTag.1.1 = lit "summary" := rfl
@[simp] theorem brTag_val : brTag.1.1 = lit "br" := rfl

def classAttr : Name := ⟨lit "class", by decide⟩
def styleAttr : Name := ⟨lit "style", by decide⟩
def openAttr : Name := ⟨lit "open", by decide⟩

@[simp] theorem classAttr_val : classAttr.1 = lit "class" := rfl
@[simp] theorem styleAttr_val : styleAttr.1 = lit "style" := rfl
@[simp] theorem openAttr_val : openAttr.1 = lit "open" := rfl

def classed (tag : Tag) (cls : Text) (children : List Node) : Node :=
  .element tag [(classAttr, some cls)] children

/-- An element with a class and a style. -/
def styled (tag : Tag) (cls style : String) (children : List Node) : Node :=
  .element tag [(classAttr, some (lit cls)), (styleAttr, some (lit style))] children

def bare (tag : Tag) (children : List Node) : Node := .element tag [] children

def div (cls : String) (children : List Node) : Node := classed divTag (lit cls) children

def span (cls : String) (children : List Node) : Node := classed spanTag (lit cls) children

def literal (s : String) : List Node := text (lit s)

def textOpt (t : Option Text) : List Node := text (t.getD [])

/-! Printing them gives the strings that the page concatenates. -/

@[simp] theorem lit_append (s t : String) : lit s ++ lit t = lit (s ++ t) := by
  simp [lit]

@[simp] theorem lit_append_append (s t : String) (r : Text) :
    lit s ++ (lit t ++ r) = lit (s ++ t) ++ r := by
  simp [lit]

theorem print_classed (tag : Tag) (cls : Text) (children : List Node) :
    print (classed tag cls children) =
      lit "<" ++ (tag.1.1 ++ (lit " class=\"" ++ (escape cls ++ (lit "\">" ++
        (printAll children ++ (lit "</" ++ (tag.1.1 ++ lit ">"))))))) := by
  simp [classed, print, printOpen, printAttr, classAttr_val]

theorem print_styled {cls style : String} (hc : isPlain (lit cls) = true)
    (hs : isPlain (lit style) = true) (tag : Tag) (children : List Node) :
    print (styled tag cls style children) =
      lit "<" ++ (tag.1.1 ++ (lit " class=\"" ++ (lit cls ++ (lit "\" style=\"" ++
        (lit style ++ (lit "\">" ++
          (printAll children ++ (lit "</" ++ (tag.1.1 ++ lit ">"))))))))) := by
  simp only [styled, print, printOpen, printAttr, List.flatMap_cons, List.flatMap_nil, classAttr_val,
    styleAttr_val, escape_of_plain hc, escape_of_plain hs]
  generalize lit cls = c
  generalize lit style = d
  simp

@[simp] theorem print_bare (tag : Tag) (children : List Node) :
    print (bare tag children) =
      lit "<" ++ (tag.1.1 ++ (lit ">" ++
        (printAll children ++ (lit "</" ++ (tag.1.1 ++ lit ">"))))) := by
  simp [bare, print, printOpen]

@[simp] theorem print_div {cls : String} (h : isPlain (lit cls) = true) (children : List Node) :
    print (div cls children) =
      lit "<div class=\"" ++ (lit cls ++ (lit "\">" ++ (printAll children ++ lit "</div>"))) := by
  rw [div, print_classed, divTag_val, escape_of_plain h]
  generalize lit cls = c
  simp

@[simp] theorem print_span {cls : String} (h : isPlain (lit cls) = true) (children : List Node) :
    print (span cls children) =
      lit "<span class=\"" ++ (lit cls ++ (lit "\">" ++ (printAll children ++ lit "</span>"))) := by
  rw [span, print_classed, spanTag_val, escape_of_plain h]
  generalize lit cls = c
  simp

@[simp] theorem printAll_literal {s : String} (h : isPlain (lit s) = true) :
    printAll (literal s) = lit s := by
  rw [literal, printAll_text, escape_of_plain h]

@[simp] theorem printAll_textOpt (t : Option Text) : printAll (textOpt t) = escOpt t :=
  printAll_text _

@[simp] theorem printAll_flatMap {α : Type} (l : List α) (f : α → List Node) :
    printAll (l.flatMap f) = l.flatMap fun a => printAll (f a) := by
  induction l with
  | nil => rfl
  | cons a l ih => simp [ih]

@[simp] theorem printAll_map {α : Type} (l : List α) (f : α → Node) :
    printAll (l.map f) = l.flatMap fun a => print (f a) := by
  induction l with
  | nil => rfl
  | cons a l ih => simp [ih]

@[simp] theorem printAll_ite (c : Prop) [Decidable c] (ns ms : List Node) :
    printAll (if c then ns else ms) = if c then printAll ns else printAll ms :=
  apply_ite printAll c ns ms

@[simp] theorem esc_eq : esc = escape := rfl

@[simp] theorem printAll_elim {α : Type} (o : Option α) (ns : List Node) (f : α → List Node) :
    printAll (o.elim ns f) = o.elim (printAll ns) fun a => printAll (f a) := by
  cases o <;> rfl

theorem elim_ite {α β : Type} (c : Prop) [Decidable c] (o p : Option α) (b : β) (f : α → β) :
    (if c then o else p).elim b f = if c then o.elim b f else p.elim b f :=
  apply_ite (Option.elim · b f) c o p

@[simp] theorem escape_nil : escape [] = [] := rfl

end StormReview
