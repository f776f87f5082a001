import StormReview.Js.Text

/-! Plain data of the language: what `JSON.parse` returns and what a library hands over
without methods of its own. A number is kept as the text `String(n)` gives it. -/
namespace Js

abbrev Number := Text

inductive Value where
  | undefined
  | null
  | bool (b : Bool)
  | num (text : Number)
  | str (s : Text)
  | arr (items : List Value)
  | obj (fields : List (Text × Value))
  deriving Inhabited

/-- What a `throw` carries: an `Error` with its message, or another value as `String` shows it. -/
inductive Thrown where
  | error (message : Text)
  | other (text : Text)
  deriving DecidableEq

/-- `err instanceof Error ? err.message : String(err)`. -/
def Thrown.text : Thrown → Text
  | .error message => message
  | .other text => text

namespace Value

def isNullish : Value → Bool
  | .undefined | .null => true
  | _ => false

/-- `v ?? w`. -/
def orElse (v w : Value) : Value := if v.isNullish then w else v

def truthy : Value → Bool
  | .undefined | .null => false
  | .bool b => b
  | .num text => text != lit "0" && text != lit "NaN"
  | .str s => s != []
  | .arr _ | .obj _ => true

/-- `v?.key`: reading a field of anything but an object that has it gives undefined. -/
def get (v : Value) (key : Text) : Value :=
  match v with
  | .obj fields => (fields.lookup key).getD .undefined
  | _ => .undefined

def isText (v : Value) (s : Text) : Bool :=
  match v with
  | .str t => t == s
  | _ => false

def textOf : Value → Option Text
  | .str s => some s
  | _ => none

/-- SameValueZero, for values that were made apart: no two objects are the same. -/
def same : Value → Value → Bool
  | .undefined, .undefined | .null, .null => true
  | .bool a, .bool b => a == b
  | .num s, .num t | .str s, .str t => s == t
  | _, _ => false

/-- `[...new Set(vs)]`. -/
def members (vs : List Value) : List Value := vs.eraseDupsBy same

/-- The strings that iterating over a string yields: one for each code point. -/
def codePoints : Text → List Value
  | [] => []
  | [c] => [.str [c]]
  | c :: d :: t =>
    if 0xD800 ≤ c.toNat && c.toNat < 0xDC00 && 0xDC00 ≤ d.toNat && d.toNat < 0xE000 then
      .str [c, d] :: codePoints t
    else .str [c] :: codePoints (d :: t)

/-- `for (const x of v)`; `message` is the text of the TypeError when `v` is not iterable. -/
def iterate (v : Value) (message : Text) : Except Thrown (List Value) :=
  match v with
  | .arr items => .ok items
  | .str s => .ok (codePoints s)
  | _ => .error (.error message)

/-- The receiver of `v.map(..)`: no other plain value has the method. -/
def mapItems (v : Value) (message : Text) : Except Thrown (List Value) :=
  match v with
  | .arr items => .ok items
  | _ => .error (.error message)

def hexDigit (n : Nat) : UInt16 := if n < 10 then UInt16.ofNat (48 + n) else UInt16.ofNat (87 + n)

def unicodeEscape (c : UInt16) : Text :=
  lit "\\u" ++ [hexDigit (c.toNat / 4096), hexDigit (c.toNat / 256 % 16),
    hexDigit (c.toNat / 16 % 16), hexDigit (c.toNat % 16)]

def quoteUnit (c : UInt16) : Text :=
  if c = cu '"' then lit "\\\""
  else if c = cu '\\' then lit "\\\\"
  else if c = 8 then lit "\\b"
  else if c = 12 then lit "\\f"
  else if c = 10 then lit "\\n"
  else if c = 13 then lit "\\r"
  else if c = 9 then lit "\\t"
  else if c.toNat < 32 || (0xD800 ≤ c.toNat && c.toNat < 0xE000) then unicodeEscape c
  else [c]

def quoteUnits : Text → Text
  | [] => []
  | [c] => quoteUnit c
  | c :: d :: t =>
    -- a surrogate pair is written as it is, a lone surrogate is escaped
    if 0xD800 ≤ c.toNat && c.toNat < 0xDC00 && 0xDC00 ≤ d.toNat && d.toNat < 0xE000 then
      c :: d :: quoteUnits t
    else quoteUnit c ++ quoteUnits (d :: t)

def quote (s : Text) : Text := lit "\"" ++ quoteUnits s ++ lit "\""

def numberJson (text : Text) : Text :=
  if text = lit "NaN" ∨ text = lit "Infinity" ∨ text = lit "-Infinity" then lit "null" else text

mutual
/-- `JSON.stringify(v)`; undefined has no JSON text. -/
def stringify : Value → Option Text
  | .undefined => none
  | .null => some (lit "null")
  | .bool b => some (if b then lit "true" else lit "false")
  | .num text => some (numberJson text)
  | .str s => some (quote s)
  | .arr items => some (lit "[" ++ join (lit ",") (stringifyItems items) ++ lit "]")
  | .obj fields => some (lit "\x7b" ++ join (lit ",") (stringifyFields fields) ++ lit "\x7d")

def stringifyItems : List Value → List Text
  | [] => []
  | v :: vs => (stringify v).getD (lit "null") :: stringifyItems vs

def stringifyFields : List (Text × Value) → List Text
  | [] => []
  | (k, v) :: fs =>
    match stringify v with
    | none => stringifyFields fs
    | some t => (quote k ++ lit ":" ++ t) :: stringifyFields fs
end

mutual
/-- `String(v)`. -/
def display : Value → Text
  | .undefined => lit "undefined"
  | .null => lit "null"
  | .bool b => if b then lit "true" else lit "false"
  | .num text => text
  | .str s => s
  | .arr items => join (lit ",") (displayItems items)
  | .obj _ => lit "[object Object]"

def displayItems : List Value → List Text
  | [] => []
  | v :: vs => (if v.isNullish then [] else display v) :: displayItems vs
end

@[simp] theorem isNullish_undefined : isNullish .undefined = true := rfl
@[simp] theorem isNullish_null : isNullish .null = true := rfl
@[simp] theorem isNullish_str (s : Text) : isNullish (.str s) = false := rfl
@[simp] theorem isNullish_arr (xs : List Value) : isNullish (.arr xs) = false := rfl
@[simp] theorem isNullish_obj (fs : List (Text × Value)) : isNullish (.obj fs) = false := rfl
@[simp] theorem truthy_undefined : truthy .undefined = false := rfl
@[simp] theorem truthy_obj (fs : List (Text × Value)) : truthy (.obj fs) = true := rfl

theorem isNullish_of_truthy {v : Value} (h : v.truthy = true) : v.isNullish = false := by
  cases v <;> simp [truthy, isNullish] at h ⊢

theorem truthy_str_iff (s : Text) : truthy (.str s) = true ↔ s ≠ [] := by
  simp [truthy]

@[simp] theorem iterate_arr (items : List Value) (message : Text) :
    (Value.arr items).iterate message = .ok items := rfl

theorem mapItems_error_iff {v : Value} (message : Text) :
    (∃ e, v.mapItems message = .error e) ↔ ∀ items, v ≠ .arr items := by
  cases v <;> simp [mapItems]

theorem mapItems_eq_ok {v : Value} {message : Text} {items : List Value} :
    v.mapItems message = .ok items ↔ v = .arr items := by
  cases v <;> simp [mapItems]

@[simp] theorem orElse_of_not_nullish {v : Value} (h : v.isNullish = false) (w : Value) :
    v.orElse w = v := by
  simp [orElse, h]

end Value

/-! `[...new Set(xs)]`: the elements in the order they are first added. -/

section distinct
variable {α : Type} [DecidableEq α]

def distinct (xs : List α) : List α := xs.eraseDups

@[simp] theorem mem_distinct {a : α} {xs : List α} : a ∈ distinct xs ↔ a ∈ xs :=
  List.mem_eraseDups

theorem distinct_cons (a : α) (xs : List α) :
    distinct (a :: xs) = a :: distinct (xs.filter (· ≠ a)) := by
  simp only [distinct, List.eraseDups_cons]
  congr 2
  refine List.filter_congr fun b _ => ?_
  by_cases h : b = a <;> simp [h]

end distinct

/-! A set of values: its texts are distinct, and it holds what was put in. -/

namespace Value

theorem textOf_eq_some {v : Value} {s : Text} : v.textOf = some s ↔ v = .str s := by
  cases v <;> simp [textOf]

@[simp] theorem filterMap_textOf_map (ts : List Text) :
    (ts.map Value.str).filterMap textOf = ts := by
  rw [List.filterMap_map]
  exact List.filterMap_some

/-- Only equal values are the same. -/
theorem eq_of_same {v w : Value} (h : v.same w = true) : v = w := by
  cases v <;> cases w <;> simp_all [same]

theorem members_cons (v : Value) (vs : List Value) :
    members (v :: vs) = v :: members (vs.filter fun w => w.same v = false) :=
  List.eraseDupsBy_cons

/-- A set is made of its first value and of what differs from it. -/
theorem members_induction {motive : List Value → Prop} (nil : motive [])
    (cons : ∀ v vs, motive (vs.filter fun w => w.same v = false) → motive (v :: vs))
    (vs : List Value) : motive vs := by
  induction hn : vs.length using Nat.strongRecOn generalizing vs with
  | ind n ih =>
    cases vs with
    | nil => exact nil
    | cons v vs =>
      have hlt : (vs.filter fun w => w.same v = false).length < n := by
        have := List.length_filter_le (fun w => w.same v = false) vs
        simp only [List.length_cons] at hn
        omega
      exact cons v vs (ih _ hlt _ rfl)

theorem filterMap_textOf_members (vs : List Value) :
    (members vs).filterMap textOf = distinct (vs.filterMap textOf) := by
  induction vs using members_induction with
  | nil => rfl
  | cons v vs ih =>
    rw [members_cons]
    cases hv : v.textOf with
    | none =>
      -- what is left out is the same as `v`, so none of it is a text
      have hkept : (vs.filter fun w => w.same v = false).filterMap textOf = vs.filterMap textOf := by
        rw [List.filterMap_filter]
        refine List.filterMap_congr fun w _ => ?_
        by_cases hw : w.same v = true
        · simp [eq_of_same hw, hv]
        · simp [hw]
      rw [List.filterMap_cons_none hv, List.filterMap_cons_none hv, ih, hkept]
    | some s =>
      obtain rfl := textOf_eq_some.mp hv
      have hkept : (vs.filter fun w => w.same (.str s) = false).filterMap textOf =
          (vs.filterMap textOf).filter (· ≠ s) := by
        rw [List.filterMap_filter, List.filter_filterMap]
        refine List.filterMap_congr fun w _ => ?_
        cases w with
        | str t => by_cases ht : t = s <;> simp [same, textOf, ht, Option.filter]
        | _ => simp [same, textOf]
      rw [List.filterMap_cons_some hv, List.filterMap_cons_some hv, ih, hkept, distinct_cons]

theorem mem_of_mem_members {v : Value} {vs : List Value} (h : v ∈ members vs) : v ∈ vs := by
  induction vs using members_induction with
  | nil => exact h
  | cons w vs ih =>
    rw [members_cons] at h
    rcases List.mem_cons.mp h with rfl | h
    · exact List.mem_cons_self
    · exact List.mem_cons_of_mem _ (List.mem_of_mem_filter (ih h))

theorem mem_members {v : Value} {vs : List Value} : v ∈ members vs ↔ v ∈ vs := by
  refine ⟨mem_of_mem_members, fun h => ?_⟩
  induction vs using members_induction with
  | nil => exact h
  | cons w vs ih =>
    rw [members_cons]
    by_cases hsame : v.same w = true
    · exact List.mem_cons.mpr (.inl (eq_of_same hsame))
    · rcases List.mem_cons.mp h with rfl | h
      · exact List.mem_cons_self
      · exact List.mem_cons_of_mem _ (ih (List.mem_filter.mpr ⟨h, by simpa using hsame⟩))

theorem pairwise_members (vs : List Value) :
    (members vs).Pairwise fun v w => w.same v = false := by
  induction vs using members_induction with
  | nil => exact .nil
  | cons v vs ih =>
    rw [members_cons]
    refine List.pairwise_cons.mpr ⟨fun w hw => ?_, ih⟩
    simpa using (List.mem_filter.mp (mem_of_mem_members hw)).2

theorem map_textOf {vs : List Value} (h : ∀ v ∈ vs, ∃ s, v = .str s) :
    (vs.filterMap textOf).map .str = vs := by
  induction vs with
  | nil => rfl
  | cons v vs ih =>
    obtain ⟨s, rfl⟩ := h v List.mem_cons_self
    exact congrArg (Value.str s :: ·) (ih fun w hw => h w (List.mem_cons_of_mem _ hw))

theorem members_map_str (ts : List Text) : members (ts.map Value.str) = (distinct ts).map .str := by
  have htexts : ∀ v ∈ members (ts.map Value.str), ∃ s, v = .str s := by
    intro v hv
    obtain ⟨s, -, rfl⟩ := List.mem_map.mp (mem_members.mp hv)
    exact ⟨s, rfl⟩
  rw [← map_textOf htexts, filterMap_textOf_members, filterMap_textOf_map]

end Value
end Js
