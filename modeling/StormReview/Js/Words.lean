import Mathlib.Data.List.Basic
import StormReview.Js.Pieces
import StormReview.Js.Runs

/-! White space: a greedy run of it, and text squeezed to its words with one space between. -/
namespace Js
open Regex

namespace Regex
variable {p : UInt16 → Bool}

/-- The preferred repetition of a class takes all it can. -/
theorem head_iterate_unit (n : Nat) (prev : Option UInt16) {t : Text} (h : t.length ≤ n) :
    (iterate (run (.unit p)) n prev t).head? = some (t.takeWhile p) := by
  induction n generalizing prev t with
  | zero =>
    obtain rfl := List.length_eq_zero_iff.mp (Nat.le_zero.mp h)
    rfl
  | succ n ih =>
    cases t with
    | nil => rfl
    | cons c t =>
      have ih := ih (some c) (t := t) (by simpa using h)
      cases hc : p c with
      | false => simp [iterate, run, hc]
      | true =>
        have hstep : run (.unit p) prev (c :: t) = [[c]] := by simp [run, hc]
        simp [iterate, hstep, hc, ih]

/-- The first match of `p+` is the whole run of `p` at the position, if there is one. -/
theorem first_plus_unit (prev : Option UInt16) (t : Text) :
    (plus (.unit p)).first prev t =
      if t.takeWhile p = [] then none else some (t.takeWhile p, ()) := by
  cases t with
  | nil => simp [first, plus, run]
  | cons c t =>
    have hrest := head_iterate_unit (p := p) t.length (some c) (Nat.le_refl t.length)
    cases hc : p c with
    | false => simp [first, plus, run, hc]
    | true =>
      have hstep : run (.unit p) prev (c :: t) = [[c]] := by simp [run, hc]
      have hrun : run (plus (.unit p)) prev (c :: t) =
          (run (.unit p) prev (c :: t)).flatMap fun u =>
            (iterate (run (.unit p)) ((c :: t).drop u.length).length (after prev u)
              ((c :: t).drop u.length)).map (u ++ ·) := rfl
      rw [hstep] at hrun
      simp [first, hrun, hrest, hc]

theorem first_plus_unit_run {u t : Text} (prev : Option UInt16) (hu : u ≠ [])
    (hall : ∀ c ∈ u, p c = true) (ht : ∀ c ∈ t.head?, p c = false) :
    (plus (.unit p)).first prev (u ++ t) = some (u, ()) := by
  have hrun : (u ++ t).takeWhile p = u := by
    rw [List.takeWhile_append_of_pos hall]
    cases t with
    | nil => simp
    | cons c t => simp [ht c (by simp)]
  rw [first_plus_unit, hrun, if_neg hu]

theorem first_plus_unit_stop {c : UInt16} (prev : Option UInt16) (t : Text) (hc : p c = false) :
    (plus (.unit p)).first prev (c :: t) = none := by
  simp [first_plus_unit, hc]

end Regex

/-- The words of a text: what stands between its white space. -/
def words (t : Text) : List Text := (t.splitOnP isSpace).filter (· ≠ [])

theorem words_eq_runs (t : Text) : words t = runs isSpace t := by
  apply List.filter_congr
  intro u _
  cases u <;> rfl

@[simp] theorem words_nil : words [] = [] := rfl

theorem words_append_space {c : UInt16} (hc : isSpace c = true) (x y : Text) :
    words (x ++ c :: y) = words x ++ words y := by
  rw [words_eq_runs, runs_append_cons hc, words_eq_runs, words_eq_runs]

theorem words_space {c : UInt16} (hc : isSpace c = true) (t : Text) : words (c :: t) = words t :=
  words_append_space hc [] t

theorem words_word {u : Text} (hu : u ≠ []) (hall : ∀ c ∈ u, isSpace c = false) :
    words u = [u] := by
  rw [words_eq_runs, runs_of_free hu hall]

theorem words_ne_nil {t u : Text} (hu : u ∈ words t) : u ≠ [] := by
  simpa using (List.mem_filter.mp hu).2

/-- One text after another, with a space between them unless one of them is empty. -/
def glue (u v : Text) : Text :=
  if u = [] then v else if v = [] then u else u ++ lit " " ++ v

theorem join_words_append {us vs : List Text} (hu : ∀ w ∈ us, w ≠ []) (hv : ∀ w ∈ vs, w ≠ []) :
    join (lit " ") (us ++ vs) = glue (join (lit " ") us) (join (lit " ") vs) := by
  by_cases hus : us = []
  · subst hus
    simp [glue, join]
  by_cases hvs : vs = []
  · subst hvs
    simp [glue, join, List.intercalate]
  have hu' : join (lit " ") us ≠ [] := fun h => hus ((join_eq_nil_iff hu).mp h)
  have hv' : join (lit " ") vs ≠ [] := fun h => hvs ((join_eq_nil_iff hv).mp h)
  rw [join_append hus hvs, glue, if_neg hu', if_neg hv']

/-! Squeezing white space. -/

/-- `.replace(/\s+/g, ' ')`. -/
def collapse (t : Text) : Text := replaceAll (plus space).first (fun _ _ => lit " ") t

theorem collapse_nil : collapse [] = [] := rfl

/-- The search for white space does not look at what is before. -/
theorem tokens_space (prev prev' : Option UInt16) (t : Text) :
    tokens (plus space).first prev t = tokens (plus space).first prev' t := by
  cases t with
  | nil => rfl
  | cons c t => simp only [tokens, scan, space, first_plus_unit]

theorem collapse_plain {c : UInt16} (hc : isSpace c = false) (t : Text) :
    collapse (c :: t) = c :: collapse t := by
  have hstop : (plus space).first none (c :: t) = none := first_plus_unit_stop none t hc
  rw [collapse, replaceAll, tokens_plain hstop, render, tokens_space (some c) none, collapse,
    replaceAll]

theorem collapse_run {u t : Text} (hu : u ≠ []) (hall : ∀ c ∈ u, isSpace c = true)
    (ht : ∀ c ∈ t.head?, isSpace c = false) : collapse (u ++ t) = cu ' ' :: collapse t := by
  have hrun : (plus space).first none (u ++ t) = some (u, ()) :=
    first_plus_unit_run none hu hall ht
  rw [collapse, replaceAll, tokens_hit hu hrun, render, tokens_space _ none, collapse, replaceAll]
  rfl

theorem collapse_word {u : Text} (hall : ∀ c ∈ u, isSpace c = false) (t : Text) :
    collapse (u ++ t) = u ++ collapse t := by
  induction u with
  | nil => rfl
  | cons c u ih =>
    rw [List.cons_append, collapse_plain (hall c (by simp)), ih fun d hd => hall d (by simp [hd]),
      List.cons_append]

/-- Text that does not start with white space still does not when it is collapsed. -/
theorem head_collapse {t : Text} (ht : ∀ c ∈ t.head?, isSpace c = false) :
    ∀ c ∈ (collapse t).head?, isSpace c = false := by
  cases t with
  | nil => simp [collapse_nil]
  | cons c t =>
    rw [collapse_plain (ht c (by simp))]
    simpa using ht c (by simp)

theorem trimEnd_append_word {u : Text} (hu : u ≠ []) (hall : ∀ c ∈ u, isSpace c = false)
    (t : Text) : trimEnd (u ++ t) = u ++ trimEnd t := by
  have hrev : ∀ c ∈ u.reverse, isSpace c = false := by simpa using hall
  obtain ⟨c, v, hv⟩ := List.exists_cons_of_ne_nil (l := u.reverse) (by simpa using hu)
  rw [trimEnd, trimStart, List.reverse_append, List.dropWhile_append]
  split
  · rename_i hnil
    have hempty : t.reverse.dropWhile isSpace = [] := by simpa using hnil
    have hc : isSpace c = false := hrev c (by simp [hv])
    have hword : u.reverse.dropWhile isSpace = u.reverse := by simp [hv, hc]
    rw [hword, trimEnd, trimStart, hempty]
    simp
  · rw [trimEnd, trimStart]
    simp

theorem trimEnd_space (t : Text) :
    trimEnd (cu ' ' :: t) = if trimEnd t = [] then [] else cu ' ' :: trimEnd t := by
  have hspace : isSpace (cu ' ') = true := rfl
  simp only [trimEnd, trimStart, List.reverse_cons, List.dropWhile_append, List.reverse_eq_nil_iff,
    List.isEmpty_iff]
  split
  · simp [hspace]
  · simp

theorem words_spaces {u : Text} (hall : ∀ c ∈ u, isSpace c = true) (t : Text) :
    words (u ++ t) = words t := by
  induction u with
  | nil => rfl
  | cons c u ih =>
    rw [List.cons_append, words_space (hall c (by simp)), ih fun d hd => hall d (by simp [hd])]

/-- A word, with what is left after it and the white space behind it. -/
theorem trim_collapse_word {u s t : Text} (hu : u ≠ []) (hword : ∀ c ∈ u, isSpace c = false)
    (hs : s ≠ []) (hspace : ∀ c ∈ s, isSpace c = true) (ht : ∀ c ∈ t.head?, isSpace c = false) :
    trim (collapse (u ++ (s ++ t))) = glue u (trim (collapse t)) := by
  have hhead : ∀ c ∈ (u ++ cu ' ' :: collapse t).head?, isSpace c = false := by
    obtain ⟨c, u, rfl⟩ := List.exists_cons_of_ne_nil hu
    simpa using hword c (by simp)
  rw [collapse_word hword, collapse_run hs hspace ht, trim, trimStart_of_head hhead,
    trimEnd_append_word hu hword, trimEnd_space, trim, trimStart_of_head (head_collapse ht), glue,
    if_neg hu]
  split
  · simp
  · rw [List.append_assoc]
    rfl

/-- Nothing is trimmed or collapsed in one word. -/
theorem trim_collapse_alone {u : Text} (hword : ∀ c ∈ u, isSpace c = false) :
    trim (collapse u) = u := by
  have hcollapse := collapse_word hword []
  rw [collapse_nil, List.append_nil] at hcollapse
  rw [hcollapse]
  apply trim_of_ends
  · exact fun c hc => hword c (List.mem_of_mem_head? hc)
  · exact fun c hc => hword c (List.mem_of_mem_getLast? hc)

theorem words_word_spaces {u s : Text} (hu : u ≠ []) (hword : ∀ c ∈ u, isSpace c = false)
    (hs : s ≠ []) (hspaces : ∀ c ∈ s, isSpace c = true) (t : Text) :
    words (u ++ (s ++ t)) = [u] ++ words t := by
  obtain ⟨e, s, rfl⟩ := List.exists_cons_of_ne_nil hs
  rw [List.cons_append, words_append_space (hspaces e (by simp)), words_word hu hword,
    words_spaces fun c hc => hspaces c (by simp [hc])]

/-- Trimmed, the collapsed text is its words with one space between them. -/
theorem trim_collapse (t : Text) : trim (collapse t) = join (lit " ") (words t) := by
  induction hn : t.length using Nat.strongRecOn generalizing t with
  | ind n ih =>
    cases t with
    | nil => rfl
    | cons c t =>
      cases hc : isSpace c with
      | true =>
        obtain ⟨hsplit, hspaces, hrest⟩ := span_spec isSpace (c :: t)
        generalize hu : (c :: t).takeWhile isSpace = u at hsplit hspaces
        generalize (c :: t).dropWhile isSpace = r at hsplit hrest
        have hne : u ≠ [] := by simp [← hu, hc]
        have hpos : 0 < u.length := List.length_pos_iff.mpr hne
        have hlt : r.length < n := by
          rw [← hn, hsplit, List.length_append]
          omega
        have hblank : trim (cu ' ' :: collapse r) = trim (collapse r) := trim_cons rfl _
        rw [hsplit, collapse_run hne hspaces hrest, hblank, words_spaces hspaces,
          ih r.length hlt r rfl]
      | false =>
        obtain ⟨hsplit, hword, hrest⟩ := span_spec (fun c => !isSpace c) (c :: t)
        generalize hu : (c :: t).takeWhile (fun c => !isSpace c) = u at hsplit hword
        generalize (c :: t).dropWhile (fun c => !isSpace c) = r at hsplit hrest
        have hne : u ≠ [] := by simp [← hu, hc]
        have hpos : 0 < u.length := List.length_pos_iff.mpr hne
        have hword : ∀ c ∈ u, isSpace c = false := by simpa using hword
        obtain ⟨hr, hspaces, hnext⟩ := span_spec isSpace r
        generalize hs : r.takeWhile isSpace = s at hr hspaces
        generalize r.dropWhile isSpace = r' at hr hnext
        cases r with
        | nil =>
          rw [hsplit, List.append_nil, trim_collapse_alone hword, words_word hne hword,
            join_singleton]
        | cons d r =>
          have hd : isSpace d = true := by simpa using hrest d (by simp)
          have hsne : s ≠ [] := by simp [← hs, hd]
          have hlt : r'.length < n := by
            rw [← hn, hsplit, hr, List.length_append, List.length_append]
            omega
          have hall : ∀ w ∈ [u], w ≠ [] := by simpa using hne
          rw [hsplit, hr, trim_collapse_word hne hword hsne hspaces hnext,
            words_word_spaces hne hword hsne hspaces,
            join_words_append hall fun w hw => words_ne_nil hw, join_singleton,
            ih r'.length hlt r' rfl]

end Js
