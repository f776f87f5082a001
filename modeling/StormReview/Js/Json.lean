import StormReview.Js.Value

/-! `JSON.parse`: a machine that reads one code unit at a time and keeps the containers that are
still open on a stack. -/
namespace Js.Json

/-- White space between tokens. -/
def isBlank (c : UInt16) : Bool := c == 32 || c == 9 || c == 10 || c == 13

/-- What ends a number or a literal. -/
def isDelimiter (c : UInt16) : Bool := isBlank c || c == cu ',' || c == cu ']' || c == cu '\x7d'

/-! Numbers. -/

def isSign (c : UInt16) : Bool := c == cu '-' || c == cu '+'

def isExponent : Text → Bool
  | [] => true
  | c :: t =>
    let digits := if t.head?.any isSign then t.tail else t
    (c == cu 'e' || c == cu 'E') && digits != [] && digits.all isDigit

def isFraction : Text → Bool
  | [] => true
  | c :: t =>
    if c = cu '.' then t.takeWhile isDigit != [] && isExponent (t.dropWhile isDigit)
    else isExponent (c :: t)

/-- `-? int frac? exp?`. -/
def isNumeral (t : Text) : Bool :=
  let unsigned := if t.head? = some (cu '-') then t.tail else t
  let int := unsigned.takeWhile isDigit
  (int == lit "0" || int != [] && int.head? != some (cu '0')) &&
    isFraction (unsigned.dropWhile isDigit)

/-! Keys: an object lists its array indices first, in ascending order, and then its other keys
in the order they were added. -/

/-- The array index a key stands for. -/
def index? (key : Text) : Option Nat :=
  if key = lit "0" ∨ key ≠ [] ∧ key.all isDigit ∧ key.head? ≠ some (cu '0') then
    let n := key.foldl (fun n c => 10 * n + (c.toNat - 48)) 0
    if n < 4294967295 then some n else none
  else none

/-- Whether a key that is there is listed before one that is added. -/
def listedBefore (old new : Text) : Bool :=
  match index? old, index? new with
  | some m, some n => m < n
  | none, some _ => false
  | _, none => true

def put (fields : List (Text × Value)) (key : Text) (v : Value) : List (Text × Value) :=
  if fields.any fun f => f.1 = key then
    fields.map fun f => if f.1 = key then (key, v) else f
  else
    fields.takeWhile (fun f => listedBefore f.1 key) ++
      (key, v) :: fields.dropWhile fun f => listedBefore f.1 key

/-! The machine. -/

/-- A container that is still open: an array, an object between two members, or an object whose
next value is being read. -/
inductive Frame where
  | items (read : List Value)
  | fields (read : List (Text × Value))
  | field (read : List (Text × Value)) (key : Text)

inductive Escape where
  | none
  | backslash
  | unicode (count value : Nat)

inductive Mode where
  | value
  | key
  | colon (key : Text)
  | text (isKey : Bool) (read : Text) (escape : Escape)
  | token (read : Text)
  | after (v : Value)

structure State where
  stack : List Frame
  mode : Mode

def openValue (stack : List Frame) (c : UInt16) : Option State :=
  if isBlank c then some ⟨stack, .value⟩
  else if c = cu '"' then some ⟨stack, .text false [] .none⟩
  else if c = cu '[' then some ⟨.items [] :: stack, .value⟩
  else if c = cu '\x7b' then some ⟨.fields [] :: stack, .key⟩
  else if isDelimiter c then
    match stack with
    | .items [] :: below => if c = cu ']' then some ⟨below, .after (.arr [])⟩ else none
    | _ => none
  else some ⟨stack, .token [c]⟩

def openKey (stack : List Frame) (c : UInt16) : Option State :=
  if isBlank c then some ⟨stack, .key⟩
  else if c = cu '"' then some ⟨stack, .text true [] .none⟩
  else
    match stack with
    | .fields [] :: below => if c = cu '\x7d' then some ⟨below, .after (.obj [])⟩ else none
    | _ => none

def afterKey (stack : List Frame) (key : Text) (c : UInt16) : Option State :=
  if isBlank c then some ⟨stack, .colon key⟩
  else
    match stack with
    | .fields read :: below => if c = cu ':' then some ⟨.field read key :: below, .value⟩ else none
    | _ => none

def afterValue (stack : List Frame) (v : Value) (c : UInt16) : Option State :=
  if isBlank c then some ⟨stack, .after v⟩
  else
    match stack with
    | .items read :: below =>
      if c = cu ',' then some ⟨.items (read ++ [v]) :: below, .value⟩
      else if c = cu ']' then some ⟨below, .after (.arr (read ++ [v]))⟩
      else none
    | .field read key :: below =>
      if c = cu ',' then some ⟨.fields (put read key v) :: below, .key⟩
      else if c = cu '\x7d' then some ⟨below, .after (.obj (put read key v))⟩
      else none
    | _ => none

/-- What a unit after a backslash stands for. -/
def escaped (c : UInt16) : Option UInt16 :=
  if c = cu '"' ∨ c = cu '\\' ∨ c = cu '/' then some c
  else if c = cu 'b' then some 8
  else if c = cu 'f' then some 12
  else if c = cu 'n' then some 10
  else if c = cu 'r' then some 13
  else if c = cu 't' then some 9
  else none

def hexValue (c : UInt16) : Option Nat :=
  if isDigit c then some (c.toNat - 48)
  else if 97 ≤ c.toNat ∧ c.toNat ≤ 102 then some (c.toNat - 87)
  else if 65 ≤ c.toNat ∧ c.toNat ≤ 70 then some (c.toNat - 55)
  else none

def inText (isKey : Bool) (read : Text) (escape : Escape) (c : UInt16) : Option Mode :=
  match escape with
  | .none =>
    if c = cu '"' then some (if isKey then .colon read else .after (.str read))
    else if c = cu '\\' then some (.text isKey read .backslash)
    else if c.toNat < 32 then none
    else some (.text isKey (read ++ [c]) .none)
  | .backslash =>
    if c = cu 'u' then some (.text isKey read (.unicode 0 0))
    else (escaped c).map fun u => .text isKey (read ++ [u]) .none
  | .unicode count value =>
    (hexValue c).map fun d =>
      if count = 3 then .text isKey (read ++ [UInt16.ofNat (16 * value + d)]) .none
      else .text isKey read (.unicode (count + 1) (16 * value + d))

section machine
-- `String(Number(t))`
variable (numberText : Text → Text)

def word (t : Text) : Option Value :=
  if t = lit "null" then some .null
  else if t = lit "true" then some (.bool true)
  else if t = lit "false" then some (.bool false)
  else if isNumeral t then some (.num (numberText t))
  else none

def step (s : State) (c : UInt16) : Option State :=
  match s.mode with
  | .value => openValue s.stack c
  | .key => openKey s.stack c
  | .colon key => afterKey s.stack key c
  | .text isKey read escape => (inText isKey read escape c).map fun mode => ⟨s.stack, mode⟩
  | .token read =>
    if isDelimiter c then (word numberText read).bind fun v => afterValue s.stack v c
    else some ⟨s.stack, .token (read ++ [c])⟩
  | .after v => afterValue s.stack v c

def run (s : State) (t : Text) : Option State := t.foldlM (step numberText) s

/-- At the end of the text a value has been read, and nothing is open. -/
def finish (s : State) : Option Value :=
  match s.stack, s.mode with
  | [], .after v => some v
  | [], .token read => word numberText read
  | _, _ => none

/-- `JSON.parse`; nothing where it throws. -/
def parse (t : Text) : Option Value := (run numberText ⟨[], .value⟩ t).bind (finish numberText)

variable {numberText}

@[simp] theorem run_nil (s : State) : run numberText s [] = some s := rfl

theorem run_cons (s : State) (c : UInt16) (t : Text) :
    run numberText s (c :: t) = (step numberText s c).bind fun s => run numberText s t := by
  rw [run, List.foldlM_cons]
  rfl

theorem run_append (s : State) (t u : Text) :
    run numberText s (t ++ u) = (run numberText s t).bind fun s => run numberText s u := by
  rw [run, List.foldlM_append]
  rfl

theorem run_append_of (h : run numberText s t = some s') (u : Text) :
    run numberText s (t ++ u) = run numberText s' u := by
  rw [run_append, h, Option.bind_some]

theorem run_cons_of (h : step numberText s c = some s') (u : Text) :
    run numberText s (c :: u) = run numberText s' u := by
  rw [run_cons, h, Option.bind_some]

end machine

end Js.Json
