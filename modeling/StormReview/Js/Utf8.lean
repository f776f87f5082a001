import StormReview.Js.Text

/-! Text that survives being written and read as UTF-8: no surrogate stands alone. -/
namespace Js

def isHigh (c : UInt16) : Bool := 0xD800 ≤ c.toNat && c.toNat < 0xDC00
def isLow (c : UInt16) : Bool := 0xDC00 ≤ c.toNat && c.toNat < 0xE000
def isSurrogate (c : UInt16) : Bool := 0xD800 ≤ c.toNat && c.toNat < 0xE000

/-- What a lone surrogate is written as. -/
def replacement : UInt16 := 0xFFFD

/-- What a text reads back as: `String.prototype.toWellFormed`. -/
def toWellFormed : Text → Text
  | [] => []
  | [c] => [if isSurrogate c then replacement else c]
  | c :: d :: t =>
    if isHigh c && isLow d then c :: d :: toWellFormed t
    else (if isSurrogate c then replacement else c) :: toWellFormed (d :: t)

/-- The bytes of a code point. -/
def utf8Point (n : Nat) : List UInt8 :=
  if n < 0x80 then [n.toUInt8]
  else if n < 0x800 then [(0xC0 + n / 0x40).toUInt8, (0x80 + n % 0x40).toUInt8]
  else if n < 0x10000 then
    [(0xE0 + n / 0x1000).toUInt8, (0x80 + n / 0x40 % 0x40).toUInt8, (0x80 + n % 0x40).toUInt8]
  else
    [(0xF0 + n / 0x40000).toUInt8, (0x80 + n / 0x1000 % 0x40).toUInt8,
      (0x80 + n / 0x40 % 0x40).toUInt8, (0x80 + n % 0x40).toUInt8]

/-- The bytes a text is written as. -/
def utf8 : Text → List UInt8
  | [] => []
  | [c] => utf8Point (if isSurrogate c then replacement else c).toNat
  | c :: d :: t =>
    if isHigh c && isLow d then
      utf8Point (0x10000 + (c.toNat - 0xD800) * 0x400 + (d.toNat - 0xDC00)) ++ utf8 t
    else utf8Point (if isSurrogate c then replacement else c).toNat ++ utf8 (d :: t)

example : utf8 [0xD83D, 0xDE00, 0xD83D] = [0xF0, 0x9F, 0x98, 0x80, 0xEF, 0xBF, 0xBD] := by decide

inductive WellFormed : Text → Prop where
  | nil : WellFormed []
  | unit {c : UInt16} {t : Text} (hc : isSurrogate c = false) (ht : WellFormed t) :
    WellFormed (c :: t)
  | pair {c d : UInt16} {t : Text} (hc : isHigh c = true) (hd : isLow d = true)
    (ht : WellFormed t) : WellFormed (c :: d :: t)

section
variable {c d : UInt16} {s t u : Text}

theorem isHigh_of_not_surrogate (h : isSurrogate c = false) : isHigh c = false := by
  simp only [isSurrogate, isHigh, Bool.and_eq_false_iff, decide_eq_false_iff_not] at h ⊢
  omega

theorem isSurrogate_of_isHigh (h : isHigh c = true) : isSurrogate c = true := by
  simp only [isSurrogate, isHigh, Bool.and_eq_true, decide_eq_true_eq] at h ⊢
  omega

theorem toWellFormed_unit (hc : isSurrogate c = false) (t : Text) :
    toWellFormed (c :: t) = c :: toWellFormed t := by
  cases t with
  | nil => simp [toWellFormed, hc]
  | cons d t => simp [toWellFormed, hc, isHigh_of_not_surrogate hc]

theorem toWellFormed_pair (hc : isHigh c = true) (hd : isLow d = true) (t : Text) :
    toWellFormed (c :: d :: t) = c :: d :: toWellFormed t := by
  simp [toWellFormed, hc, hd]

theorem WellFormed.toWellFormed_eq (h : WellFormed t) : toWellFormed t = t := by
  induction h with
  | nil => rfl
  | unit hc _ ih => rw [toWellFormed_unit hc, ih]
  | pair hc hd _ ih => rw [toWellFormed_pair hc hd, ih]

theorem WellFormed.tail (h : WellFormed (c :: t)) (hc : isSurrogate c = false) :
    WellFormed t := by
  cases h with
  | unit _ ht => exact ht
  | pair hhigh =>
    rw [isHigh_of_not_surrogate hc] at hhigh
    cases hhigh

theorem WellFormed.append (ht : WellFormed t) (hu : WellFormed u) : WellFormed (t ++ u) := by
  induction ht with
  | nil => exact hu
  | unit hc _ ih => exact .unit hc ih
  | pair hc hd _ ih => exact .pair hc hd ih

theorem wellFormed_of_all (h : ∀ c ∈ t, isSurrogate c = false) : WellFormed t := by
  induction t with
  | nil => exact .nil
  | cons c t ih => exact .unit (h c (by simp)) (ih fun d hd => h d (by simp [hd]))

theorem isSurrogate_replaced (c : UInt16) :
    isSurrogate (if isSurrogate c then replacement else c) = false := by
  cases h : isSurrogate c
  · simp [h]
  · simp only [if_true]
    decide

theorem utf8_unit (hc : isSurrogate c = false) (t : Text) :
    utf8 (c :: t) = utf8Point c.toNat ++ utf8 t := by
  cases t with
  | nil => simp [utf8, hc]
  | cons d t => simp [utf8, hc, isHigh_of_not_surrogate hc]

theorem utf8_pair (hc : isHigh c = true) (hd : isLow d = true) (t : Text) :
    utf8 (c :: d :: t) =
      utf8Point (0x10000 + (c.toNat - 0xD800) * 0x400 + (d.toNat - 0xDC00)) ++ utf8 t := by
  simp [utf8, hc, hd]

theorem utf8_eq_nil : utf8 t = [] ↔ t = [] := by
  have hpoint (n : Nat) : utf8Point n ≠ [] := by
    unfold utf8Point
    split_ifs <;> simp
  cases t with
  | nil => simp [utf8]
  | cons c t =>
    cases t with
    | nil => simp [utf8, hpoint]
    | cons d t =>
      rw [utf8]
      split <;> simp [hpoint]

/-- What follows a text without half characters is written after it. -/
theorem WellFormed.utf8_append (hs : WellFormed s) (t : Text) :
    utf8 (s ++ t) = utf8 s ++ utf8 t := by
  induction hs with
  | nil => rfl
  | unit hc _ ih => rw [List.cons_append, utf8_unit hc, utf8_unit hc, ih, List.append_assoc]
  | pair hc hd _ ih =>
    rw [List.cons_append, List.cons_append, utf8_pair hc hd, utf8_pair hc hd, ih, List.append_assoc]

theorem wellFormed_toWellFormed (t : Text) : WellFormed (toWellFormed t) := by
  fun_induction toWellFormed t with
  | case1 => exact .nil
  | case2 c => exact .unit (isSurrogate_replaced c) .nil
  | case3 c d t h ih =>
    rw [Bool.and_eq_true] at h
    exact .pair h.1 h.2 ih
  | case4 c d t h ih => exact .unit (isSurrogate_replaced c) ih

/-- A text is written as what it reads back as. -/
theorem utf8_toWellFormed (t : Text) : utf8 (toWellFormed t) = utf8 t := by
  fun_induction toWellFormed t with
  | case1 => rfl
  | case2 c =>
    rw [utf8_unit (isSurrogate_replaced c)]
    exact List.append_nil _
  | case3 c d t h ih =>
    rw [Bool.and_eq_true] at h
    rw [utf8_pair h.1 h.2, utf8_pair h.1 h.2, ih]
  | case4 c d t h ih =>
    rw [utf8_unit (isSurrogate_replaced c), ih, utf8, if_neg h]

/-- A text cut short reads back as it was cut, or with its last half character replaced. -/
theorem WellFormed.cut (h : WellFormed u) (ht : t <+: u) :
    toWellFormed t = t ∨ ∃ s, s <+: t ∧ toWellFormed t = s ++ [replacement] := by
  induction h generalizing t with
  | nil =>
    rw [List.prefix_nil.mp ht]
    exact .inl rfl
  | @unit c u hc _ ih =>
    cases t with
    | nil => exact .inl rfl
    | cons d t =>
      obtain ⟨rfl, htail⟩ := List.cons_prefix_cons.mp ht
      rw [toWellFormed_unit hc]
      rcases ih htail with h | ⟨s, hs, h⟩
      · exact .inl (by rw [h])
      · exact .inr ⟨d :: s, List.cons_prefix_cons.mpr ⟨rfl, hs⟩, by rw [h]; rfl⟩
  | @pair c d u hc hd _ ih =>
    match t, ht with
    | [], _ => exact .inl rfl
    | [c'], ht =>
      obtain ⟨rfl, -⟩ := List.cons_prefix_cons.mp ht
      refine .inr ⟨[], List.nil_prefix, ?_⟩
      rw [toWellFormed, isSurrogate_of_isHigh hc, if_pos rfl]
      rfl
    | c' :: d' :: t, ht =>
      obtain ⟨rfl, hrest⟩ := List.cons_prefix_cons.mp ht
      obtain ⟨rfl, htail⟩ := List.cons_prefix_cons.mp hrest
      rw [toWellFormed_pair hc hd]
      rcases ih htail with h | ⟨s, hs, h⟩
      · exact .inl (by rw [h])
      · refine .inr ⟨c' :: d' :: s, ?_, by rw [h]; rfl⟩
        exact List.cons_prefix_cons.mpr ⟨rfl, List.cons_prefix_cons.mpr ⟨rfl, hs⟩⟩

end

end Js
