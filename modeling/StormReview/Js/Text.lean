import Mathlib.Data.List.Basic

/-! Text as the language has it: a string is the list of its UTF-16 code units.
The character classes are those of its regular expressions, read without the u flag. -/
namespace Js

abbrev Text := List UInt16

instance : LawfulBEq Text := inferInstanceAs (LawfulBEq (List UInt16))

def encode (c : Char) : Text :=
  if c.toNat < 0x10000 then [UInt16.ofNat c.toNat]
  else
    let v := c.toNat - 0x10000
    [UInt16.ofNat (0xD800 + v / 0x400), UInt16.ofNat (0xDC00 + v % 0x400)]

def lit (s : String) : Text := s.toList.flatMap encode

/-- The code unit of a character of the basic plane. -/
def cu (c : Char) : UInt16 := UInt16.ofNat c.toNat

def natText (n : Nat) : Text := lit (toString n)

def isDigit (u : UInt16) : Bool := 48 ≤ u.toNat && u.toNat ≤ 57
def isUpper (u : UInt16) : Bool := 65 ≤ u.toNat && u.toNat ≤ 90
def isLower (u : UInt16) : Bool := 97 ≤ u.toNat && u.toNat ≤ 122

/-- The class `\w`. -/
def isWord (u : UInt16) : Bool := isDigit u || isUpper u || isLower u || u.toNat == 95

/-- The class `\s`, which is also what `trim` removes: white space and line terminators. -/
def isSpace (u : UInt16) : Bool :=
  (9 ≤ u.toNat && u.toNat ≤ 13) || u.toNat == 0x20 || u.toNat == 0xA0 || u.toNat == 0x1680 ||
  (0x2000 ≤ u.toNat && u.toNat ≤ 0x200A) || u.toNat == 0x2028 || u.toNat == 0x2029 ||
  u.toNat == 0x202F || u.toNat == 0x205F || u.toNat == 0x3000 || u.toNat == 0xFEFF

/-- Case folding of the i flag: a code unit from 128 on never folds to an ASCII letter. -/
def foldCase (u : UInt16) : UInt16 := if isUpper u then UInt16.ofNat (u.toNat + 32) else u

def trimStart (t : Text) : Text := t.dropWhile isSpace
def trimEnd (t : Text) : Text := (trimStart t.reverse).reverse
def trim (t : Text) : Text := trimEnd (trimStart t)

/-- In a text with one place for `d`, what ends with `d` ends there. -/
theorem prefix_of_unique {x y a v : Text} {d e : UInt16} (hx : d ∉ x) (hy : d ∉ y)
    (h : x ++ e :: y = a ++ d :: v) : x = a ∧ e = d := by
  rcases List.append_eq_append_iff.mp h with ⟨c, rfl, hc⟩ | ⟨c, rfl, hc⟩
  · cases c with
    | nil => exact ⟨by simp, (List.cons.inj hc).1⟩
    | cons f c =>
      obtain ⟨-, rfl⟩ := List.cons.inj hc
      simp at hy
  · cases c with
    | nil => exact ⟨by simp, (List.cons.inj hc).1.symm⟩
    | cons f c =>
      obtain ⟨rfl, -⟩ := List.cons.inj hc
      simp at hx

/-- `Array.prototype.join`. -/
def join (sep : Text) (parts : List Text) : Text := sep.intercalate parts

theorem join_singleton (sep u : Text) : join sep [u] = u := List.intercalate_singleton

theorem join_cons {sep u : Text} {parts : List Text} (h : parts ≠ []) :
    join sep (u :: parts) = u ++ sep ++ join sep parts := by
  obtain ⟨v, parts, rfl⟩ := List.exists_cons_of_ne_nil h
  simp [join, List.intercalate_cons_cons]

theorem join_eq_nil_iff {sep : Text} {parts : List Text} (h : ∀ u ∈ parts, u ≠ []) :
    join sep parts = [] ↔ parts = [] := by
  match parts, h with
  | [], _ => simp [join]
  | [u], h => simp [join, h u (by simp)]
  | u :: v :: parts, h => simp [join, List.intercalate_cons_cons, h u (by simp)]

theorem join_append {sep : Text} {us vs : List Text} (hu : us ≠ []) (hv : vs ≠ []) :
    join sep (us ++ vs) = join sep us ++ sep ++ join sep vs := by
  induction us with
  | nil => exact absurd rfl hu
  | cons u us ih =>
    by_cases hus : us = []
    · subst hus
      rw [List.singleton_append, join_cons hv, join_singleton]
    · have hne : us ++ vs ≠ [] := by simp [hus]
      rw [List.cons_append, join_cons hne, join_cons hus, ih hus]
      simp

theorem join_head_append (sep u v : Text) (parts : List Text) :
    join sep ((u ++ v) :: parts) = u ++ join sep (v :: parts) := by
  cases parts with
  | nil => simp [join_singleton]
  | cons p parts =>
    rw [join_cons (List.cons_ne_nil _ _), join_cons (List.cons_ne_nil _ _)]
    simp

/-- The code unit just before a position, once `u` has been read from one that had `prev`. -/
def after (prev : Option UInt16) : Text → Option UInt16
  | [] => prev
  | c :: u => after (some c) u

@[simp] theorem after_nil (prev : Option UInt16) : after prev [] = prev := rfl

@[simp] theorem after_cons (prev : Option UInt16) (c : UInt16) (u : Text) :
    after prev (c :: u) = after (some c) u := rfl

theorem after_append (prev : Option UInt16) (u v : Text) :
    after prev (u ++ v) = after (after prev u) v := by
  induction u generalizing prev with
  | nil => rfl
  | cons c u ih => exact ih (some c)

@[simp] theorem after_concat (prev : Option UInt16) (u : Text) (c : UInt16) :
    after prev (u ++ [c]) = some c := by
  simp [after_append]

/-- A context that has been read past depends only on what was read. -/
theorem after_of_ne_nil (prev prev' : Option UInt16) {u : Text} (h : u ≠ []) :
    after prev u = after prev' u := by
  cases u with
  | nil => exact absurd rfl h
  | cons c u => rfl

theorem after_eq_getLast (prev : Option UInt16) {u : Text} (h : u ≠ []) : after prev u = u.getLast? := by
  rcases List.eq_nil_or_concat' u with rfl | ⟨u, c, rfl⟩
  · exact absurd rfl h
  · rw [after_concat, List.getLast?_concat]

theorem after_none (u : Text) : after none u = u.getLast? := by
  cases u with
  | nil => rfl
  | cons c u => exact after_eq_getLast none (List.cons_ne_nil c u)

/-- Whether a position borders on a word character; the ends of the text do not. -/
def wordAt (c : Option UInt16) : Bool := c.any isWord

@[simp] theorem wordAt_none : wordAt none = false := rfl
@[simp] theorem wordAt_some (c : UInt16) : wordAt (some c) = isWord c := rfl

/-! A code unit is of one class only. -/

section classes
variable {c : UInt16}

theorem isWord_of_isDigit (h : isDigit c = true) : isWord c = true := by
  simp [isWord, h]

theorem isWord_of_isUpper (h : isUpper c = true) : isWord c = true := by
  simp [isWord, h]

theorem isWord_of_isLower (h : isLower c = true) : isWord c = true := by
  simp [isWord, h]

theorem isWord_eq_false_of_isSpace (h : isSpace c = true) : isWord c = false := by
  simp only [isSpace, isWord, isDigit, isUpper, isLower, Bool.or_eq_true, Bool.and_eq_true,
    decide_eq_true_eq, beq_iff_eq, Bool.or_eq_false_iff, Bool.and_eq_false_iff,
    decide_eq_false_iff_not, beq_eq_false_iff_ne] at h ⊢
  omega

theorem isLower_eq_false_of_isUpper (h : isUpper c = true) : isLower c = false := by
  simp only [isUpper, isLower, Bool.and_eq_true, decide_eq_true_eq, Bool.and_eq_false_iff,
    decide_eq_false_iff_not] at h ⊢
  omega

theorem isDigit_eq_false_of_isUpper (h : isUpper c = true) : isDigit c = false := by
  simp only [isUpper, isDigit, Bool.and_eq_true, decide_eq_true_eq, Bool.and_eq_false_iff,
    decide_eq_false_iff_not] at h ⊢
  omega

theorem isDigit_eq_false_of_isLower (h : isLower c = true) : isDigit c = false := by
  simp only [isLower, isDigit, Bool.and_eq_true, decide_eq_true_eq, Bool.and_eq_false_iff,
    decide_eq_false_iff_not] at h ⊢
  omega

theorem isUpper_eq_false_of_isDigit (h : isDigit c = true) : isUpper c = false :=
  Bool.eq_false_iff.mpr fun hu => by simp [isDigit_eq_false_of_isUpper hu] at h

theorem isLower_eq_false_of_isDigit (h : isDigit c = true) : isLower c = false :=
  Bool.eq_false_iff.mpr fun hl => by simp [isDigit_eq_false_of_isLower hl] at h

theorem isLower_foldCase_of_isUpper (h : isUpper c = true) : isLower (foldCase c) = true := by
  have hle : 65 ≤ c.toNat ∧ c.toNat ≤ 90 := by simpa [isUpper] using h
  have hval : (UInt16.ofNat (c.toNat + 32)).toNat = c.toNat + 32 := by
    apply UInt16.toNat_ofNat_of_lt'
    simp only [UInt16.size]
    omega
  simp only [foldCase, h, if_true, isLower, hval, Bool.and_eq_true, decide_eq_true_eq]
  omega

theorem isWord_foldCase (c : UInt16) : isWord (foldCase c) = isWord c := by
  cases hu : isUpper c with
  | false => simp [foldCase, hu]
  | true => rw [isWord_of_isLower (isLower_foldCase_of_isUpper hu), isWord_of_isUpper hu]

theorem isSpace_eq_false_of_isWord (h : isWord c = true) : isSpace c = false :=
  Bool.eq_false_iff.mpr fun hs => by simp [isWord_eq_false_of_isSpace hs] at h

theorem isUpper_eq_false_of_isWord_eq_false (h : isWord c = false) : isUpper c = false :=
  Bool.eq_false_iff.mpr fun hu => by simp [isWord_of_isUpper hu] at h

theorem isLower_eq_false_of_isWord_eq_false (h : isWord c = false) : isLower c = false :=
  Bool.eq_false_iff.mpr fun hl => by simp [isWord_of_isLower hl] at h

/-- What holds of the ten digits holds of every digit. -/
theorem of_isDigit {p : UInt16 → Bool} (hp : (lit "0123456789").all p = true)
    (h : isDigit c = true) : p c = true := by
  simp only [isDigit, Bool.and_eq_true, decide_eq_true_eq] at h
  have key : ∀ n < 10, UInt16.ofNat (48 + n) ∈ lit "0123456789" := by decide
  have hc := key (c.toNat - 48) (by omega)
  rw [show 48 + (c.toNat - 48) = c.toNat by omega, UInt16.ofNat_toNat] at hc
  exact List.all_eq_true.mp hp c hc

theorem of_isLower {p : UInt16 → Bool} (hp : (lit "abcdefghijklmnopqrstuvwxyz").all p = true)
    (h : isLower c = true) : p c = true := by
  simp only [isLower, Bool.and_eq_true, decide_eq_true_eq] at h
  have key : ∀ n < 26, UInt16.ofNat (97 + n) ∈ lit "abcdefghijklmnopqrstuvwxyz" := by decide
  have hc := key (c.toNat - 97) (by omega)
  rw [show 97 + (c.toNat - 97) = c.toNat by omega, UInt16.ofNat_toNat] at hc
  exact List.all_eq_true.mp hp c hc

end classes

/-- A run of one class that the rest does not go on with is found in one way. -/
theorem span_unique {p : UInt16 → Bool} {u u' s s' : Text} (hu : ∀ c ∈ u, p c = true)
    (hu' : ∀ c ∈ u', p c = true) (hs : ∀ c ∈ s.head?, p c = false)
    (hs' : ∀ c ∈ s'.head?, p c = false) (h : u ++ s = u' ++ s') : u = u' ∧ s = s' := by
  induction u generalizing u' with
  | nil =>
    cases u' with
    | nil => exact ⟨rfl, h⟩
    | cons c u' =>
      have hc := hs c (by simp only [List.nil_append] at h; simp [h])
      rw [hu' c (by simp)] at hc
      cases hc
  | cons c u ih =>
    cases u' with
    | nil =>
      have hc := hs' c (by simp only [List.nil_append] at h; simp [← h])
      rw [hu c (by simp)] at hc
      cases hc
    | cons d u' =>
      simp only [List.cons_append, List.cons.injEq] at h
      obtain ⟨rfl, h⟩ := h
      obtain ⟨rfl, hs⟩ := ih (fun c hc => hu c (by simp [hc])) (fun c hc => hu' c (by simp [hc])) h
      exact ⟨rfl, hs⟩

/-! Numbers are printed in digits. -/

theorem isDigit_of_mem_natText {n : Nat} {c : UInt16} (h : c ∈ natText n) : isDigit c = true := by
  simp only [natText, lit, List.mem_flatMap] at h
  obtain ⟨d, hd, hc⟩ := h
  have hmem : d ∈ Nat.toDigits 10 n := by simpa [Nat.repr] using hd
  have hdig := Nat.isDigit_of_mem_toDigits (by decide) (by decide) hmem
  simp only [Char.isDigit, Bool.and_eq_true, decide_eq_true_eq] at hdig
  have hlow : 48 ≤ d.toNat := hdig.1
  have hhigh : d.toNat ≤ 57 := hdig.2
  have hbasic : d.toNat < 0x10000 := by omega
  simp only [encode, hbasic, if_true, List.mem_singleton] at hc
  have hval : (UInt16.ofNat d.toNat).toNat = d.toNat :=
    UInt16.toNat_ofNat_of_lt' (by simpa only [UInt16.size] using hbasic)
  simp [hc, isDigit, hval, hlow, hhigh]

theorem natText_ne_nil (n : Nat) : natText n ≠ [] := by
  have hpos : 0 < (Nat.toDigits 10 n).length := Nat.length_toDigits_pos
  cases hd : Nat.toDigits 10 n with
  | nil => simp [hd] at hpos
  | cons d ds =>
    have hencode : encode d ≠ [] := by
      unfold encode
      split <;> simp
    simp [natText, lit, Nat.repr, hd, hencode]

theorem wordAt_after_of_word {u : Text} (hu : ∀ c ∈ u, isWord c = true) {prev : Option UInt16}
    (hp : wordAt prev = true) : wordAt (after prev u) = true := by
  induction u generalizing prev with
  | nil => exact hp
  | cons c u ih => exact ih (fun d hd => hu d (by simp [hd])) (hu c (by simp))

/-! Trimming. -/

theorem trimStart_of_head {t : Text} (h : ∀ c ∈ t.head?, isSpace c = false) : trimStart t = t := by
  cases t with
  | nil => rfl
  | cons c t => simp [trimStart, h c (by simp)]

theorem trim_of_ends {t : Text} (hs : ∀ c ∈ t.head?, isSpace c = false)
    (he : ∀ c ∈ t.getLast?, isSpace c = false) : trim t = t := by
  rw [trim, trimStart_of_head hs, trimEnd,
    trimStart_of_head (by simpa [List.head?_reverse] using he), List.reverse_reverse]

theorem trim_cons {c : UInt16} (h : isSpace c = true) (t : Text) : trim (c :: t) = trim t := by
  simp [trim, trimStart, h]

theorem trimEnd_prefix (t : Text) : trimEnd t <+: t := by
  have h := (List.dropWhile_suffix isSpace (l := t.reverse)).reverse
  rwa [List.reverse_reverse] at h

theorem head_trim (t : Text) : ∀ c ∈ (trim t).head?, isSpace c = false := by
  intro c hc
  obtain ⟨s, hs⟩ := trimEnd_prefix (trimStart t)
  have hhead : (trimStart t).head? = some c := by
    rw [← hs, List.head?_append]
    simp only [trim] at hc
    simp [Option.mem_def.mp hc]
  have key := List.head?_dropWhile_not isSpace t
  rw [trimStart] at hhead
  rwa [hhead] at key

end Js
