import StormReview.Js.Text

/-! Markup as a browser reads it, for a part of the language: lowercase tags, quoted attributes,
the four named references, and every end tag there and in its place; what is outside this part is
not read at all. Elements nest as their tags do: none is closed for another to start, as the
language has it for a paragraph or for an item in an item. New lines and NUL stay as they are. -/
namespace Js.Html

/-! Trees. Text is kept one code unit a node, so that no two texts can merge. -/

def isName (t : Text) : Bool :=
  t.head?.any isLower && t.all fun c => isLower c || isDigit c || c == cu '-'

/-- The elements that have no end tag. -/
def voidNames : List Text :=
  [lit "area", lit "base", lit "br", lit "col", lit "embed", lit "hr", lit "img", lit "input",
    lit "link", lit "meta", lit "source", lit "track", lit "wbr"]

/-- The elements whose content is not read as markup. -/
def rawNames : List Text :=
  [lit "iframe", lit "noembed", lit "noframes", lit "noscript", lit "plaintext", lit "script",
    lit "style", lit "textarea", lit "title", lit "xmp"]

abbrev Name := { t : Text // isName t = true }

abbrev Tag := { t : Name // t.1 ∉ voidNames ∧ t.1 ∉ rawNames }

abbrev VoidTag := { t : Name // t.1 ∈ voidNames }

/-- An attribute with its value, or one that is only named. -/
abbrev Attr := Name × Option Text

inductive Node where
  | char (c : UInt16)
  | void (tag : VoidTag) (attrs : List Attr)
  | element (tag : Tag) (attrs : List Attr) (children : List Node)

/-- Text to be shown as it is. -/
def text (t : Text) : List Node := t.map .char

/-! Printing. -/

/-- `&`, `<`, `>` and `"` become references. -/
def escUnit (c : UInt16) : Text :=
  if c = cu '&' then lit "&amp;"
  else if c = cu '<' then lit "&lt;"
  else if c = cu '>' then lit "&gt;"
  else if c = cu '"' then lit "&quot;"
  else [c]

def escape (t : Text) : Text := t.flatMap escUnit

def printAttr (a : Attr) : Text :=
  match a.2 with
  | none => lit " " ++ a.1.1
  | some v => lit " " ++ a.1.1 ++ lit "=\"" ++ escape v ++ lit "\""

def printOpen (name : Text) (attrs : List Attr) : Text :=
  lit "<" ++ name ++ attrs.flatMap printAttr ++ lit ">"

mutual
def print : Node → Text
  | .char c => escUnit c
  | .void tag attrs => printOpen tag.1.1 attrs
  | .element tag attrs children =>
    printOpen tag.1.1 attrs ++ printAll children ++ lit "</" ++ tag.1.1 ++ lit ">"

def printAll : List Node → Text
  | [] => []
  | n :: ns => print n ++ printAll ns
end

/-! What a tree is made of. -/

mutual
/-- The tag and the attributes of every element of a node. -/
def heads : Node → List (Text × List Attr)
  | .char _ => []
  | .void tag attrs => [(tag.1.1, attrs)]
  | .element tag attrs children => (tag.1.1, attrs) :: headsAll children

def headsAll : List Node → List (Text × List Attr)
  | [] => []
  | n :: ns => heads n ++ headsAll ns
end

/-! Reading: a machine over code units, which keeps the elements that are still open. -/

/-- An open element and the nodes before it. -/
structure Frame where
  tag : Tag
  attrs : List Attr
  before : List Node

structure Builder where
  nodes : List Node
  stack : List Frame

inductive Mode where
  | data
  /-- In a reference, in a text or in the value of an attribute. -/
  | reference (read : Text)
  | tagOpen
  | tagName (read : Text)
  | endOpen
  | endName (read : Text)
  | beforeAttr (tag : Name) (attrs : List Attr)
  | attrName (tag : Name) (attrs : List Attr) (read : Text)
  | beforeValue (tag : Name) (attrs : List Attr) (name : Name)
  | value (tag : Name) (attrs : List Attr) (name : Name) (read : Text)
  | valueReference (tag : Name) (attrs : List Attr) (name : Name) (read ref : Text)
  | afterValue (tag : Name) (attrs : List Attr)

structure State where
  mode : Mode
  built : Builder

def Builder.push (b : Builder) (n : Node) : Builder := { b with nodes := b.nodes ++ [n] }

/-- A start tag is complete. -/
def Builder.start (b : Builder) (tag : Name) (attrs : List Attr) : Option Builder :=
  if h : tag.1 ∈ voidNames then some (b.push (.void ⟨tag, h⟩ attrs))
  else if hr : tag.1 ∈ rawNames then none
  else
    some { nodes := [], stack := { tag := ⟨tag, h, hr⟩, attrs, before := b.nodes } :: b.stack }

/-- An end tag is complete: it closes the element that was opened last. -/
def Builder.close (b : Builder) (name : Text) : Option Builder :=
  match b.stack with
  | [] => none
  | f :: below =>
    if f.tag.1.1 = name then
      some { nodes := f.before ++ [.element f.tag f.attrs b.nodes], stack := below }
    else none

def nameOf (t : Text) : Option Name := if h : isName t = true then some ⟨t, h⟩ else none

/-- What a reference stands for. -/
def referenced (read : Text) : Option UInt16 :=
  if read = lit "amp" then some (cu '&')
  else if read = lit "lt" then some (cu '<')
  else if read = lit "gt" then some (cu '>')
  else if read = lit "quot" then some (cu '"')
  else none

def isNameUnit (c : UInt16) : Bool := isLower c || isDigit c || c == cu '-'

def started (b : Builder) (tag : Option Name) (attrs : List Attr) : Option State :=
  (tag.bind fun tag => b.start tag attrs).map fun b => ⟨.data, b⟩

def step (s : State) (c : UInt16) : Option State :=
  let b := s.built
  match s.mode with
  | .data =>
    if c = cu '<' then some ⟨.tagOpen, b⟩
    else if c = cu '&' then some ⟨.reference [], b⟩
    else some ⟨.data, b.push (.char c)⟩
  | .reference read =>
    if c = cu ';' then (referenced read).map fun u => ⟨.data, b.push (.char u)⟩
    else some ⟨.reference (read ++ [c]), b⟩
  | .tagOpen =>
    if c = cu '/' then some ⟨.endOpen, b⟩
    else if isLower c then some ⟨.tagName [c], b⟩
    else none
  | .tagName read =>
    if isNameUnit c then some ⟨.tagName (read ++ [c]), b⟩
    else if c = cu ' ' then (nameOf read).map fun tag => ⟨.beforeAttr tag [], b⟩
    else if c = cu '>' then started b (nameOf read) []
    else none
  | .endOpen => if isLower c then some ⟨.endName [c], b⟩ else none
  | .endName read =>
    if isNameUnit c then some ⟨.endName (read ++ [c]), b⟩
    else if c = cu '>' then (b.close read).map fun b => ⟨.data, b⟩
    else none
  | .beforeAttr tag attrs => if isLower c then some ⟨.attrName tag attrs [c], b⟩ else none
  | .attrName tag attrs read =>
    if isNameUnit c then some ⟨.attrName tag attrs (read ++ [c]), b⟩
    else if c = cu '=' then (nameOf read).map fun name => ⟨.beforeValue tag attrs name, b⟩
    else if c = cu ' ' then
      (nameOf read).map fun name => ⟨.beforeAttr tag (attrs ++ [(name, none)]), b⟩
    else if c = cu '>' then
      (nameOf read).bind fun name => started b (some tag) (attrs ++ [(name, none)])
    else none
  | .beforeValue tag attrs name => if c = cu '"' then some ⟨.value tag attrs name [], b⟩ else none
  | .value tag attrs name read =>
    if c = cu '"' then some ⟨.afterValue tag (attrs ++ [(name, some read)]), b⟩
    else if c = cu '&' then some ⟨.valueReference tag attrs name read [], b⟩
    else some ⟨.value tag attrs name (read ++ [c]), b⟩
  | .valueReference tag attrs name read ref =>
    if c = cu ';' then (referenced ref).map fun u => ⟨.value tag attrs name (read ++ [u]), b⟩
    else some ⟨.valueReference tag attrs name read (ref ++ [c]), b⟩
  | .afterValue tag attrs =>
    if c = cu ' ' then some ⟨.beforeAttr tag attrs, b⟩
    else if c = cu '>' then started b (some tag) attrs
    else none

def run (s : State) (t : Text) : Option State := t.foldlM step s

/-- The nodes of a text that leaves nothing open. -/
def parse (t : Text) : Option (List Node) :=
  (run ⟨.data, ⟨[], []⟩⟩ t).bind fun s =>
    match s with
    | ⟨.data, ⟨nodes, []⟩⟩ => some nodes
    | _ => none

theorem run_cons (s : State) (c : UInt16) (t : Text) :
    run s (c :: t) = (step s c).bind fun s => run s t := by
  rw [run, List.foldlM_cons]
  rfl

theorem run_append (s : State) (t u : Text) :
    run s (t ++ u) = (run s t).bind fun s => run s u := by
  rw [run, List.foldlM_append]
  rfl

theorem run_append_of {s s' : State} {t : Text} (h : run s t = some s') (u : Text) :
    run s (t ++ u) = run s' u := by
  rw [run_append, h, Option.bind_some]

theorem run_cons_of {s s' : State} {c : UInt16} (h : step s c = some s') (t : Text) :
    run s (c :: t) = run s' t := by
  rw [run_cons, h, Option.bind_some]

@[simp] theorem printAll_nil : printAll [] = [] := rfl

@[simp] theorem printAll_cons (n : Node) (ns : List Node) :
    printAll (n :: ns) = print n ++ printAll ns := rfl

@[simp] theorem printAll_append (ns ms : List Node) :
    printAll (ns ++ ms) = printAll ns ++ printAll ms := by
  induction ns with
  | nil => rfl
  | cons n ns ih => simp [ih]

/-- A text in which there is nothing to escape. -/
def isPlain (t : Text) : Bool :=
  t.all fun c => !(c == cu '&' || c == cu '<' || c == cu '>' || c == cu '"')

theorem escape_append (t u : Text) : escape (t ++ u) = escape t ++ escape u :=
  List.flatMap_append

theorem escape_of_plain {t : Text} (h : isPlain t = true) : escape t = t := by
  induction t with
  | nil => rfl
  | cons c t ih =>
    simp only [isPlain, List.all_cons, Bool.and_eq_true, Bool.not_eq_true', Bool.or_eq_false_iff,
      beq_eq_false_iff_ne] at h
    obtain ⟨⟨⟨⟨hamp, hlt⟩, hgt⟩, hquot⟩, ht⟩ := h
    have hunit : escUnit c = [c] := by simp [escUnit, hamp, hlt, hgt, hquot]
    have htail : escape t = t := ih ht
    rw [escape, List.flatMap_cons, hunit]
    exact congrArg (c :: ·) htail

/-- A text prints as its escaped form. -/
@[simp] theorem printAll_text (t : Text) : printAll (text t) = escape t := by
  induction t with
  | nil => rfl
  | cons c t ih => exact congrArg (escUnit c ++ ·) ih

theorem text_injective : Function.Injective text :=
  List.map_injective_iff.mpr fun _ _ h => (Node.char.inj h)

@[simp] theorem text_inj {t u : Text} : text t = text u ↔ t = u := text_injective.eq_iff

@[simp] theorem headsAll_nil : headsAll [] = [] := rfl

@[simp] theorem headsAll_cons (n : Node) (ns : List Node) :
    headsAll (n :: ns) = heads n ++ headsAll ns := rfl

@[simp] theorem headsAll_append (ns ms : List Node) :
    headsAll (ns ++ ms) = headsAll ns ++ headsAll ms := by
  induction ns with
  | nil => rfl
  | cons n ns ih => simp [ih]

@[simp] theorem headsAll_text (t : Text) : headsAll (text t) = [] := by
  induction t with
  | nil => rfl
  | cons c t ih => exact ih

end Js.Html
