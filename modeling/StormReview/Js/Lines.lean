import Mathlib.Data.List.Induction
import Mathlib.Data.List.TakeWhile
import StormReview.Js.Text

/-! Text kept as lines, each appended with a newline behind it, and read back trimmed and split,
without empty lines. -/
namespace Js

def newline : UInt16 := cu '\n'

/-- `t.trim().split('\n').filter(Boolean)`. -/
def linesOf (t : Text) : List Text := ((trim t).splitOn newline).filter (· ≠ [])

def unlines (lines : List Text) : Text := lines.flatMap (· ++ [newline])

/-- A line that reading back leaves as it is. -/
structure IsLine (t : Text) : Prop where
  ne_nil : t ≠ []
  noNewline : newline ∉ t
  head : ∀ c ∈ t.head?, isSpace c = false
  last : ∀ c ∈ t.getLast?, isSpace c = false

section
variable {lines : List Text} {t u : Text}

theorem isSpace_newline : isSpace newline = true := rfl

theorem not_space_of_eq {o : Option UInt16} {c : UInt16} (h : o = some c)
    (hc : isSpace c = false) : ∀ d ∈ o, isSpace d = false := by
  intro d hd
  rw [h] at hd
  rwa [← Option.some.inj hd]

theorem trimEnd_of_last (h : ∀ c ∈ t.getLast?, isSpace c = false) : trimEnd t = t := by
  rw [trimEnd, trimStart_of_head (by simpa [List.head?_reverse] using h), List.reverse_reverse]

theorem trimEnd_newline (t : Text) : trimEnd (t ++ [newline]) = trimEnd t := by
  rw [trimEnd, trimStart, List.reverse_append, List.reverse_singleton, List.singleton_append,
    List.dropWhile_cons_of_pos isSpace_newline]
  rfl

/-- Trimming stops in the last part that is more than white space. -/
theorem trimEnd_append (h : trimEnd u ≠ []) (t : Text) : trimEnd (t ++ u) = t ++ trimEnd u := by
  have hne : u.reverse.dropWhile isSpace ≠ [] := by simpa [trimEnd, trimStart] using h
  rw [trimEnd, trimStart, List.reverse_append, List.dropWhile_append,
    if_neg (by simpa using hne), List.reverse_append, List.reverse_reverse]
  rfl

theorem trimEnd_ne_nil (hne : t ≠ []) (h : ∀ c ∈ t.head?, isSpace c = false) : trimEnd t ≠ [] := by
  obtain ⟨c, t, rfl⟩ := List.exists_cons_of_ne_nil hne
  intro hnil
  have hall : ∀ d ∈ (c :: t).reverse, isSpace d = true := by
    simpa [trimEnd, trimStart, List.dropWhile_eq_nil_iff] using hnil
  have hc : isSpace c = false := h c (by simp)
  rw [hall c (by simp)] at hc
  cases hc

theorem unlines_append (lines lines' : List Text) :
    unlines (lines ++ lines') = unlines lines ++ unlines lines' := List.flatMap_append

theorem unlines_singleton (t : Text) : unlines [t] = t ++ [newline] := by
  simp [unlines]

theorem head_unlines (h : ∀ l ∈ lines, IsLine l) (hu : ∀ c ∈ u.head?, isSpace c = false) :
    ∀ c ∈ (unlines lines ++ u).head?, isSpace c = false := by
  cases lines with
  | nil => exact hu
  | cons l lines =>
    obtain ⟨c, l', hl⟩ := List.exists_cons_of_ne_nil (h l (by simp)).ne_nil
    have hhead := (h l (by simp)).head
    rw [hl] at hhead
    simpa [unlines, hl] using hhead

theorem unlines_eq_join (lines : List Text) (t : Text) :
    unlines lines ++ t = join [newline] (lines ++ [t]) := by
  induction lines with
  | nil => simp [unlines, join_singleton]
  | cons l lines ih =>
    rw [List.cons_append, join_cons (by simp), ← ih]
    simp [unlines]

/-- Lines with some text behind them, which may be unfinished, read back as the lines and that
text without white space at its end. -/
theorem linesOf_unlines_append (h : ∀ l ∈ lines, IsLine l) (hne : u ≠ [])
    (hhead : ∀ c ∈ u.head?, isSpace c = false) (hline : newline ∉ trimEnd u) :
    linesOf (unlines lines ++ u) = lines ++ [trimEnd u] := by
  have hlast := trimEnd_ne_nil hne hhead
  have hall : ∀ l ∈ lines ++ [trimEnd u], newline ∉ l ∧ l ≠ [] := by
    intro l hl
    rcases List.mem_append.mp hl with hl | hl
    · exact ⟨(h l hl).noNewline, (h l hl).ne_nil⟩
    · rw [List.mem_singleton.mp hl]
      exact ⟨hline, hlast⟩
  have hsplit : (unlines lines ++ trimEnd u).splitOn newline = lines ++ [trimEnd u] := by
    rw [unlines_eq_join]
    exact List.splitOn_intercalate newline (fun l hl => (hall l hl).1) (by simp)
  rw [linesOf, trim, trimStart_of_head (head_unlines h hhead), trimEnd_append hlast, hsplit,
    List.filter_eq_self]
  intro l hl
  simpa using (hall l hl).2

theorem linesOf_unlines (h : ∀ l ∈ lines, IsLine l) : linesOf (unlines lines) = lines := by
  cases lines using List.reverseRecOn with
  | nil => rfl
  | append_singleton lines l =>
    have hl := h l (by simp)
    have hend : trimEnd (l ++ [newline]) = l := by
      rw [trimEnd_newline, trimEnd_of_last hl.last]
    have hhead : ∀ c ∈ (l ++ [newline]).head?, isSpace c = false := by
      obtain ⟨c, l', rfl⟩ := List.exists_cons_of_ne_nil hl.ne_nil
      simpa using hl.head
    rw [unlines_append, unlines_singleton, linesOf_unlines_append (fun l' hl' => h l' (by simp [hl']))
      (by simp) hhead (by rw [hend]; exact hl.noNewline), hend]

end

end Js
