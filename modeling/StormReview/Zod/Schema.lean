import StormReview.Js.Value

/-! Schemas over plain values: what `safeParse` accepts, and the issues it reports otherwise.
An object or a list is read to its end, so the issues of all its parts are collected. An object
is copied key by key, without the keys its schema does not name, and no value is coerced. -/
namespace Zod
open Js

structure Issue where
  path : List Text
  message : Text
  deriving DecidableEq

inductive Parsed (α : Type) where
  | ok (a : α)
  | issues (found : List Issue)
  deriving DecidableEq

namespace Parsed
variable {α β : Type}

/-- The issues of both sides are kept. -/
instance : Applicative Parsed where
  pure := .ok
  seq f x :=
    match f, x () with
    | .ok f, .ok a => .ok (f a)
    | .ok _, .issues ys => .issues ys
    | .issues xs, .ok _ => .issues xs
    | .issues xs, .issues ys => .issues (xs ++ ys)

def within (key : Text) : Parsed α → Parsed α
  | .ok a => .ok a
  | .issues found => .issues (found.map fun i => { i with path := key :: i.path })

@[simp] theorem map_ok (f : α → β) (a : α) : f <$> Parsed.ok a = .ok (f a) := rfl
@[simp] theorem seq_ok (f : α → β) (a : α) : Parsed.ok f <*> Parsed.ok a = .ok (f a) := rfl
@[simp] theorem within_ok (key : Text) (a : α) : within key (.ok a) = .ok a := rfl

theorem within_eq_ok {key : Text} {x : Parsed α} {a : α} : within key x = .ok a ↔ x = .ok a := by
  cases x <;> simp [within]

theorem map_eq_ok {f : α → β} {x : Parsed α} {b : β} :
    f <$> x = .ok b ↔ ∃ a, x = .ok a ∧ f a = b := by
  cases x with
  | ok a => simp
  | issues found =>
    have h : f <$> (Parsed.issues found : Parsed α) = .issues found := rfl
    simp [h]

theorem seq_eq_ok {f : Parsed (α → β)} {x : Parsed α} {b : β} :
    f <*> x = .ok b ↔ ∃ g a, f = .ok g ∧ x = .ok a ∧ g a = b := by
  cases f with
  | ok g =>
    cases x with
    | ok a => simp
    | issues ys =>
      have h : (Parsed.ok g <*> Parsed.issues ys : Parsed β) = .issues ys := rfl
      simp [h]
  | issues xs =>
    cases x with
    | ok a =>
      have h : (Parsed.issues xs <*> Parsed.ok a : Parsed β) = .issues xs := rfl
      simp [h]
    | issues ys =>
      have h : (Parsed.issues xs : Parsed (α → β)) <*> (Parsed.issues ys : Parsed α) =
          .issues (xs ++ ys) := rfl
      simp [h]

end Parsed

abbrev Parser (α : Type) := Value → Parsed α

/-- The name a message gives to the type of a value. -/
def received : Value → Text
  | .undefined => lit "undefined"
  | .null => lit "null"
  | .bool _ => lit "boolean"
  | .num text => if text = lit "NaN" then lit "NaN" else lit "number"
  | .str _ => lit "string"
  | .arr _ => lit "array"
  | .obj _ => lit "object"

def invalidType {α : Type} (expected : String) (v : Value) : Parsed α :=
  .issues [{ path := []
             message := lit "Invalid input: expected " ++ lit expected ++ lit ", received " ++
               received v }]

def string : Parser Text
  | .str s => .ok s
  | v => invalidType "string" v

def boolean : Parser Bool
  | .bool b => .ok b
  | v => invalidType "boolean" v

section schemas
variable {α : Type}

def invalidOption (options : List Text) : Parsed α :=
  .issues [{ path := []
             message := lit "Invalid option: expected one of " ++
               join (lit "|") (options.map fun o => lit "\"" ++ o ++ lit "\"") }]

/-- A type of words: its values in the order the schema lists them, each with its text. -/
class Enum (α : Type) where
  options : List α
  text : α → Text
  mem_options : ∀ a, a ∈ options
  text_inj : ∀ a b, text a = text b → a = b

def wordOf? [Enum α] (s : Text) : Option α := Enum.options.find? fun o => Enum.text o = s

def enum [Enum α] : Parser α
  | .str s =>
    match wordOf? s with
    | some o => .ok o
    | none => invalidOption ((Enum.options : List α).map Enum.text)
  | _ => invalidOption ((Enum.options : List α).map Enum.text)

def optional (p : Parser α) : Parser (Option α)
  | .undefined => .ok none
  | v => some <$> p v

def items (p : Parser α) : Nat → List Value → Parsed (List α)
  | _, [] => .ok []
  | i, v :: vs => List.cons <$> (p v).within (natText i) <*> items p (i + 1) vs

def array (p : Parser α) : Parser (List α)
  | .arr vs => items p 0 vs
  | v => invalidType "array" v

/-- One field of the object `v`. -/
def field (key : String) (p : Parser α) (v : Value) : Parsed α :=
  (p (v.get (lit key))).within (lit key)

/-- `z.object`: the keys the schema does not name are dropped. -/
def object (fields : Value → Parsed α) : Parser α
  | .obj fs => fields (.obj fs)
  | v => invalidType "object" v

@[simp] theorem string_str (s : Text) : string (.str s) = .ok s := rfl
@[simp] theorem boolean_bool (b : Bool) : boolean (.bool b) = .ok b := rfl
@[simp] theorem optional_undefined (p : Parser α) : optional p .undefined = .ok none := rfl
theorem optional_eq_ok_of_truthy {p : Parser α} {v : Value} {a : Option α}
    (hv : v.truthy = true) (h : optional p v = .ok a) : ∃ b, p v = .ok b ∧ a = some b := by
  have hsome : optional p v = some <$> p v := by
    cases v <;> first | rfl | simp at hv
  rw [hsome, Parsed.map_eq_ok] at h
  obtain ⟨b, hb, rfl⟩ := h
  exact ⟨b, hb, rfl⟩

theorem object_of_obj (fields : Value → Parsed α) (v : Value) (h : ∃ fs, v = .obj fs) :
    object fields v = fields v := by
  obtain ⟨fs, rfl⟩ := h
  rfl

theorem string_eq_ok {v : Value} {s : Text} : string v = .ok s ↔ v = .str s := by
  cases v <;> simp [string, invalidType]

theorem field_of_get {key : String} {p : Parser α} {v w : Value} {a : α}
    (hv : v.get (lit key) = w) (hp : p w = .ok a) : field key p v = .ok a := by
  rw [field, hv, hp, Parsed.within_ok]

theorem field_eq_ok {key : String} {p : Parser α} {v : Value} {a : α} :
    field key p v = .ok a ↔ p (v.get (lit key)) = .ok a := Parsed.within_eq_ok

theorem wordOf?_eq_some [Enum α] {s : Text} {a : α} :
    wordOf? s = some a ↔ s = Enum.text a := by
  constructor
  · intro h
    have ha : Enum.text a = s := by simpa using List.find?_some h
    exact ha.symm
  · rintro rfl
    cases h : (wordOf? (Enum.text a) : Option α) with
    | none => exact absurd (by simp) (List.find?_eq_none.mp h a (Enum.mem_options a))
    | some b =>
      have hb : Enum.text b = Enum.text a := by simpa using List.find?_some h
      rw [Enum.text_inj b a hb]

theorem enum_eq_ok [Enum α] {v : Value} {a : α} : enum v = .ok a ↔ v = .str (Enum.text a) := by
  cases v with
  | str s =>
    cases h : (wordOf? s : Option α) with
    | none =>
      have hne : s ≠ Enum.text a := fun hs => by simp [wordOf?_eq_some.mpr hs] at h
      simp [enum, h, invalidOption, hne]
    | some b =>
      obtain rfl := wordOf?_eq_some.mp h
      have hinj : Enum.text b = Enum.text a ↔ b = a := ⟨Enum.text_inj b a, congrArg _⟩
      simp [enum, h, hinj]
  | _ => simp [enum, invalidOption]

@[simp] theorem enum_text [Enum α] (a : α) : enum (.str (Enum.text a)) = .ok a :=
  enum_eq_ok.mpr rfl

theorem items_map {p : Parser α} {enc : α → Value} {xs : List α} (h : ∀ a ∈ xs, p (enc a) = .ok a)
    (i : Nat) : items p i (xs.map enc) = .ok xs := by
  induction xs generalizing i with
  | nil => rfl
  | cons a xs ih =>
    simp [items, h a (by simp), ih (fun b hb => h b (by simp [hb]))]

/-- A schema that reads back what is written reads back lists of it. -/
theorem array_map {p : Parser α} {enc : α → Value} {xs : List α} (h : ∀ a ∈ xs, p (enc a) = .ok a) :
    array p (.arr (xs.map enc)) = .ok xs := items_map h 0

theorem items_string_eq_ok {vs : List Value} {ts : List Text} (i : Nat) :
    items string i vs = .ok ts ↔ vs = ts.map .str := by
  induction vs generalizing ts i with
  | nil => cases ts <;> simp [items]
  | cons v vs ih =>
    rw [items, Parsed.seq_eq_ok]
    constructor
    · rintro ⟨_, ts', hfirst, hrest, rfl⟩
      obtain ⟨t, ht, rfl⟩ := Parsed.map_eq_ok.mp hfirst
      rw [string_eq_ok.mp (Parsed.within_eq_ok.mp ht), (ih _).mp hrest]
      rfl
    · cases ts with
      | nil => exact fun h => (by cases h)
      | cons t ts =>
        intro h
        obtain ⟨rfl, hrest⟩ := List.cons.inj h
        exact ⟨_, ts, rfl, (ih _).mpr hrest, rfl⟩

theorem array_string_eq_ok {vs : List Value} {ts : List Text} :
    array string (.arr vs) = .ok ts ↔ vs = ts.map .str := items_string_eq_ok 0

theorem object_eq_ok {fields : Value → Parsed α} {v : Value} {a : α} (h : object fields v = .ok a) :
    fields v = .ok a := by
  cases v <;> simp [object, invalidType] at h ⊢
  exact h

end schemas
end Zod
