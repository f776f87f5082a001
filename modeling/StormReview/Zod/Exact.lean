import StormReview.Zod.Schema

/-! A schema is exact when it accepts just the values that hold, up to further keys, the plain form
of what it reads. Schemas that are built from exact ones are exact. -/
namespace Zod
open Js

mutual
/-- `v` is the given value, but for further keys in its objects. -/
def Holds (v : Value) : Value → Prop
  | .undefined => v = .undefined
  | .null => v = .null
  | .bool b => v = .bool b
  | .num t => v = .num t
  | .str s => v = .str s
  | .arr ws => ∃ vs, v = .arr vs ∧ HoldsItems vs ws
  | .obj fs => (∃ gs, v = .obj gs) ∧ HoldsFields v fs

def HoldsItems (vs : List Value) : List Value → Prop
  | [] => vs = []
  | w :: ws => ∃ v vs', vs = v :: vs' ∧ Holds v w ∧ HoldsItems vs' ws

def HoldsFields (v : Value) : List (Text × Value) → Prop
  | [] => True
  | (k, w) :: fs => Holds (v.get k) w ∧ HoldsFields v fs
end

variable {α : Type} {p : Parser α} {enc : α → Value}

/-- What `p` reads, written down by `enc`, is what it was given. -/
def Exact (p : Parser α) (enc : α → Value) : Prop := ∀ v a, p v = .ok a ↔ Holds v (enc a)

theorem exact_string : Exact string .str := fun _ _ => by rw [string_eq_ok, Holds]

theorem exact_boolean : Exact boolean .bool := fun v b => by
  rw [Holds]
  cases v <;> simp [boolean, invalidType]

theorem exact_enum [Enum α] : Exact (enum : Parser α) fun a => .str (Enum.text a) := fun _ _ => by
  rw [enum_eq_ok, Holds]

theorem items_eq_ok (h : Exact p enc) (vs : List Value) (as : List α) (i : Nat) :
    items p i vs = .ok as ↔ HoldsItems vs (as.map enc) := by
  induction vs generalizing as i with
  | nil =>
    cases as with
    | nil => simp [items, HoldsItems]
    | cons a as => simp [items, HoldsItems]
  | cons v vs ih =>
    rw [items, Parsed.seq_eq_ok]
    constructor
    · rintro ⟨_, as', hfirst, hrest, rfl⟩
      obtain ⟨a, ha, rfl⟩ := Parsed.map_eq_ok.mp hfirst
      exact ⟨v, vs, rfl, (h v a).mp (Parsed.within_eq_ok.mp ha), (ih as' _).mp hrest⟩
    · cases as with
      | nil => exact fun hnil => by cases hnil
      | cons a as =>
        rintro ⟨_, _, hsame, hfirst, hrest⟩
        obtain ⟨rfl, rfl⟩ := List.cons.inj hsame
        exact ⟨_, as, Parsed.map_eq_ok.mpr ⟨a, Parsed.within_eq_ok.mpr ((h v a).mpr hfirst), rfl⟩,
          (ih as _).mpr hrest, rfl⟩

theorem exact_array (h : Exact p enc) : Exact (array p) fun as => .arr (as.map enc) := by
  intro v as
  rw [Holds]
  cases v with
  | arr vs =>
    rw [array, items_eq_ok h]
    constructor
    · exact fun hitems => ⟨vs, rfl, hitems⟩
    · rintro ⟨_, hsame, hitems⟩
      rwa [Value.arr.inj hsame]
  | _ => simp [array, invalidType]

/-- An object is read field by field. -/
theorem exact_object {read : Value → Parsed α} {fields : α → List (Text × Value)}
    (h : ∀ v a, read v = .ok a ↔ HoldsFields v (fields a)) :
    Exact (object read) fun a => .obj (fields a) := by
  intro v a
  rw [Holds]
  cases v with
  | obj gs => simpa [object] using h (.obj gs) a
  | _ => simp [object, invalidType]

/-- A field of an object whose schema is exact. -/
theorem exact_field (h : Exact p enc) (key : String) (v : Value) (a : α) :
    field key p v = .ok a ↔ Holds (v.get (lit key)) (enc a) := field_eq_ok.trans (h _ a)

end Zod
