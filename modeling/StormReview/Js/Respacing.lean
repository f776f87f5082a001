import StormReview.Js.Spacing

/-! The preferred match of an expression, and the stretches between its matches, when the white
space of a text is collapsed. -/
namespace Js
open Regex

namespace Regex

/-- The expression prefers the same match when the white space of a text is collapsed. -/
def Respaces (r : Regex) : Prop :=
  ∀ (prev prev' : Option UInt16) (t : Text), wordAt prev = wordAt prev' →
    (r.run prev' (collapse t)).head? = (r.run prev t).head?.map collapse

section respaces
variable {r s : Regex} {p : UInt16 → Bool}

theorem run_seq_unit (s : Regex) (prev : Option UInt16) (c : UInt16) (t : Text) :
    (Regex.seq (.unit p) s).run prev (c :: t) =
      if p c then (s.run (some c) t).map (c :: ·) else [] := by
  simp only [run]
  split <;> simp

/-- What may come first in a word is no white space. -/
theorem wordFirst_unit (hp : ∀ c, p c = true → isSpace c = false) (s : Regex) :
    (Regex.seq (.unit p) s).WordFirst := fun q c t hc => by
  have hpc : p c ≠ true := fun h => by simp [hp c h] at hc
  rw [startsWith, run_seq_unit, if_neg hpc]
  rfl

theorem run_seq_assoc (r s q : Regex) (prev : Option UInt16) (t : Text) :
    (Regex.seq (.seq r s) q).run prev t = (Regex.seq r (.seq s q)).run prev t := by
  simp only [run, List.flatMap_assoc, List.flatMap_map, List.map_flatMap, List.map_map,
    after_append, List.length_append, List.drop_drop]
  refine List.flatMap_congr fun u _ => List.flatMap_congr fun v _ => ?_
  simp [Function.comp_def]

theorem run_seq_alt (r s q : Regex) (prev : Option UInt16) (t : Text) :
    (Regex.seq (.alt r s) q).run prev t =
      (Regex.seq r q).run prev t ++ (Regex.seq s q).run prev t := by
  simp only [run, List.flatMap_append]

theorem run_seq_empty (s : Regex) (prev : Option UInt16) (t : Text) :
    (Regex.seq .empty s).run prev t = s.run prev t := by simp [run]

theorem run_seq_boundary (s : Regex) (prev : Option UInt16) (t : Text) :
    (Regex.seq .boundary s).run prev t =
      if wordAt prev != wordAt t.head? then s.run prev t else [] := by
  simp only [run]
  split <;> simp

theorem respaces_empty : Respaces .empty := fun _ _ _ _ => rfl

theorem Respaces.alt (hr : Respaces r) (hs : Respaces s) :
    Respaces (.alt r s) := fun prev prev' t hp => by
  simp only [run, List.head?_append, hr prev prev' t hp, hs prev prev' t hp]
  cases (r.run prev t).head? <;> rfl

theorem Respaces.seq_alt {q : Regex} (hr : Respaces (.seq r q)) (hs : Respaces (.seq s q)) :
    Respaces (.seq (.alt r s) q) := fun prev prev' t hp => by
  rw [run_seq_alt, run_seq_alt]
  exact hr.alt hs prev prev' t hp

theorem Respaces.seq_empty (hs : Respaces s) :
    Respaces (.seq .empty s) := fun prev prev' t hp => by
  rw [run_seq_empty, run_seq_empty]
  exact hs prev prev' t hp

theorem Respaces.letter (hp : ∀ c, p c = true → isSpace c = false) (hs : Respaces s) :
    Respaces (.seq (.unit p) s) := fun prev prev' t hb => by
  cases t with
  | nil => simp [run, collapse_nil]
  | cons c t =>
    cases hc : isSpace c with
    | true =>
      have hblank : p (cu ' ') ≠ true := fun h => absurd (hp _ h) (by decide)
      have hpc : p c ≠ true := fun h => by simp [hp c h] at hc
      rw [head_collapse_space hc, run_seq_unit, run_seq_unit, if_neg hblank, if_neg hpc]
      rfl
    | false =>
      rw [collapse_plain hc, run_seq_unit, run_seq_unit]
      split
      · rw [List.head?_map, List.head?_map, hs (some c) (some c) t rfl, Option.map_map, Option.map_map]
        refine Option.map_congr fun w _ => ?_
        exact (collapse_plain hc w).symm
      · rfl

theorem Respaces.border (hs : Respaces s) :
    Respaces (.seq .boundary s) := fun prev prev' t hp => by
  rw [run_seq_boundary, run_seq_boundary, wordAt_head_collapse, hp]
  split
  · exact hs prev prev' t hp
  · rfl

/-- A word, code unit by code unit. -/
theorem Respaces.word {f : Char → UInt16 → Bool} (hs : Respaces s) (cs : List Char)
    (hcs : ∀ d ∈ cs, ∀ c, f d c = true → isSpace c = false) :
    Respaces (.seq (ofChars (fun d => .unit (f d)) cs) s) := by
  induction cs with
  | nil => exact hs.seq_empty
  | cons d cs ih =>
    have hrest := ih fun e he => hcs e (by simp [he])
    cases cs with
    | nil => exact hs.letter (hcs d (by simp))
    | cons e cs =>
      intro prev prev' t hp
      rw [ofChars, run_seq_assoc, run_seq_assoc]
      · exact hrest.letter (hcs d (by simp)) prev prev' t hp
      · simp

/-- White space before something that takes none: all of it goes to the first. -/
theorem head_run_spaces (hs : s.WordFirst) {u t : Text} (hu : u ≠ [])
    (hall : ∀ c ∈ u, isSpace c = true) (ht : ∀ c ∈ t.head?, isSpace c = false)
    (prev : Option UInt16) : ((Regex.seq (plus space) s).run prev (u ++ t)).head? =
      (s.run (after prev u) t).head?.map (u ++ ·) := by
  have hfirst : (plus space).first prev (u ++ t) = some (u, ()) :=
    first_plus_unit_run prev hu hall ht
  obtain ⟨us, hus⟩ : ∃ us, (plus space).run prev (u ++ t) = u :: us := by
    simp only [first, Option.map_eq_some_iff, Prod.mk.injEq, and_true, exists_eq_right] at hfirst
    exact List.head?_eq_some_iff.mp hfirst
  have hcons : (Regex.seq (plus space) s).run prev (u ++ t) =
      ((plus space).run prev (u ++ t)).flatMap fun v =>
        (s.run (after prev v) ((u ++ t).drop v.length)).map (v ++ ·) := rfl
  -- after only a part of the white space `s` would start in the rest of it
  have hpart : ∀ v ∈ us, v = u ∨ s.run (after prev v) ((u ++ t).drop v.length) = [] := by
    intro v hv
    obtain ⟨rest, hrest, hm⟩ := mem_run.mp (hus ▸ List.mem_cons_of_mem u hv)
    obtain ⟨-, hspaces⟩ := match_plus_unit.mp hm
    rw [hrest, List.drop_left]
    by_cases hword : ∀ c ∈ rest.head?, isSpace c = false
    · exact .inl (span_unique hspaces hall hword ht hrest.symm).1
    · push Not at hword
      obtain ⟨c, hc, hspace⟩ := hword
      obtain ⟨rest, rfl⟩ := List.head?_eq_some_iff.mp hc
      exact .inr (by simpa [startsWith] using hs (after prev v) c rest (by simpa using hspace))
  rw [hcons, hus, List.flatMap_cons, List.drop_left, List.head?_append, List.head?_map]
  cases hrun : (s.run (after prev u) t).head? with
  | some w => rfl
  | none =>
    rw [List.head?_eq_none_iff] at hrun
    rw [Option.map_none, Option.none_or, List.head?_eq_none_iff, List.flatMap_eq_nil_iff]
    intro v hv
    rcases hpart v hv with rfl | hnil
    · rw [List.drop_left, hrun, List.map_nil]
    · rw [hnil, List.map_nil]

theorem Respaces.spaces (hs : Respaces s) (hw : s.WordFirst) :
    Respaces (.seq (plus space) s) := fun prev prev' t hp => by
  cases t with
  | nil => rfl
  | cons c t =>
    cases hc : isSpace c with
    | false =>
      have hrun (q : Option UInt16) (t : Text) :
          (Regex.seq (plus space) s).run q (c :: t) = [] := by
        rw [plus, run_seq_assoc, space, run_seq_unit, if_neg (by simp [hc])]
      rw [collapse_plain hc, hrun, hrun]
      rfl
    | true =>
      obtain ⟨hsplit, hspaces, hrest⟩ := span_spec isSpace (c :: t)
      have hne : (c :: t).takeWhile isSpace ≠ [] := by simp [hc]
      generalize (c :: t).takeWhile isSpace = u at hsplit hspaces hne
      generalize (c :: t).dropWhile isSpace = x at hsplit hrest
      have hblank := head_run_spaces hw (u := lit " ") (by decide) isSpace_blank
        (head_collapse hrest) prev'
      have hborder : wordAt (after prev u) = wordAt (after prev' (lit " ")) :=
        wordAt_after_spaces hne hspaces prev
      have hcollapse : collapse (u ++ x) = lit " " ++ collapse x := collapse_run hne hspaces hrest
      rw [hsplit, hcollapse, hblank, head_run_spaces hw hne hspaces hrest, hs _ _ x hborder,
        Option.map_map, Option.map_map]
      refine Option.map_congr fun v hv => ?_
      have hhead : ∀ d ∈ v.head?, isSpace d = false := by
        obtain ⟨rest, rfl⟩ := run_prefix (List.mem_of_mem_head? hv)
        cases v with
        | nil => simp
        | cons d v => simpa using hrest
      exact (collapse_run hne hspaces hhead).symm

/-- A class before something that always matches takes all it can. -/
theorem head_run_letters (hs : ∀ q t, s.run q t ≠ []) (prev : Option UInt16) (t : Text) :
    ((Regex.seq (plus (.unit p)) s).run prev t).head? =
      if t.takeWhile p = [] then none
      else (s.run (after prev (t.takeWhile p)) (t.dropWhile p)).head?.map (t.takeWhile p ++ ·) := by
  have hfirst := first_plus_unit (p := p) prev t
  have hcons : (Regex.seq (plus (.unit p)) s).run prev t =
      ((plus (.unit p)).run prev t).flatMap fun v =>
        (s.run (after prev v) (t.drop v.length)).map (v ++ ·) := rfl
  have hdrop : t.drop (t.takeWhile p).length = t.dropWhile p := by
    conv_lhs => arg 2; rw [(span_spec p t).1]
    exact List.drop_left
  split at hfirst
  · rename_i hnil
    rw [hcons, first_eq_none.mp hfirst, if_pos hnil]
    rfl
  · rename_i hne
    simp only [first, Option.map_eq_some_iff, Prod.mk.injEq, and_true, exists_eq_right] at hfirst
    obtain ⟨us, hus⟩ := List.head?_eq_some_iff.mp hfirst
    rw [hcons, hus, List.flatMap_cons, hdrop, List.head?_append, List.head?_map, if_neg hne]
    cases hrun : (s.run (after prev (t.takeWhile p)) (t.dropWhile p)).head? with
    | some w => rfl
    | none => exact absurd (List.head?_eq_none_iff.mp hrun) (hs _ _)

theorem takeWhile_collapse (hp : ∀ c, p c = true → isSpace c = false) (t : Text) :
    (collapse t).takeWhile p = t.takeWhile p ∧
      (collapse t).dropWhile p = collapse (t.dropWhile p) := by
  induction t with
  | nil => exact ⟨rfl, rfl⟩
  | cons c t ih =>
    cases hc : isSpace c with
    | true =>
      have hblank : p (cu ' ') ≠ true := fun h => absurd (hp _ h) (by decide)
      have hpc : p c ≠ true := fun h => by simp [hp c h] at hc
      rw [head_collapse_space hc]
      simp only [List.takeWhile_cons_of_neg hblank, List.dropWhile_cons_of_neg hblank,
        List.takeWhile_cons_of_neg hpc, List.dropWhile_cons_of_neg hpc, head_collapse_space hc,
        and_self]
    | false =>
      rw [collapse_plain hc]
      by_cases hpc : p c = true
      · simpa [hpc] using ih
      · simp [hpc, collapse_plain hc]

theorem Respaces.letters (hp : ∀ c, p c = true → isSpace c = false) (hs : Respaces s)
    (htotal : ∀ q t, s.run q t ≠ []) :
    Respaces (.seq (plus (.unit p)) s) := fun prev prev' t hb => by
  obtain ⟨htake, hdrop⟩ := takeWhile_collapse hp t
  rw [head_run_letters htotal, head_run_letters htotal, htake, hdrop]
  split
  · rfl
  · rename_i hne
    have hborder : after prev (t.takeWhile p) = after prev' (t.takeWhile p) :=
      after_of_ne_nil prev prev' hne
    rw [hs _ _ (t.dropWhile p) (congrArg wordAt hborder), Option.map_map, Option.map_map]
    refine Option.map_congr fun v _ => ?_
    exact (collapse_word (fun c hc => hp c ((span_spec p t).2.1 c hc)) v).symm

theorem Respaces.letters_last (hp : ∀ c, p c = true → isSpace c = false) :
    Respaces (plus (.unit p)) := fun prev prev' t hb => by
  have hrun (q : Option UInt16) (t : Text) :
      (Regex.seq (plus (.unit p)) .empty).run q t = (plus (.unit p)).run q t := by
    rw [run]
    simp [run]
  rw [← hrun, ← hrun]
  exact respaces_empty.letters hp (fun _ _ => List.cons_ne_nil _ _) prev prev' t hb

theorem Respaces.assoc {q : Regex} (h : Respaces (.seq r (.seq s q))) :
    Respaces (.seq (.seq r s) q) := fun prev prev' t hp => by
  rw [run_seq_assoc, run_seq_assoc]
  exact h prev prev' t hp

end respaces

/-! The stretches between the matches of an expression, in a text and in the text collapsed. -/

theorem WordFirst.idle {r : Regex} (hr : r.WordFirst) {q : Option UInt16} {u : Text}
    (hu : ∀ c ∈ u, isSpace c = true) (t : Text) : Idle r.first q u t := fun a b hab hb =>
  first_eq_none.mpr (by simpa [startsWith] using hr.silent (q := q) hu t a b hab hb)

theorem pieces_collapse {r : Regex} (hn : r.nullable = false) (hr : Respaces r) (hw : r.WordFirst)
    (hend : ∀ {q w rest}, Match r q w rest → ∀ c ∈ w.getLast?, isSpace c = false)
    {prev prev' : Option UInt16} (hp : wordAt prev = wordAt prev') (t : Text) :
    lead r.first prev' (collapse t) = collapse (lead r.first prev t) ∧
      rests r.first prev' (collapse t) = (rests r.first prev t).map collapse := by
  induction hlen : t.length using Nat.strongRecOn generalizing t prev prev' with
  | ind n ih =>
    have hfirst : r.first prev' (collapse t) =
        (r.first prev t).map fun w => (collapse w.1, w.2) := by
      rw [first, hr prev prev' t hp, first, Option.map_map, Option.map_map]
      rfl
    cases h : r.first prev t with
    | some wg =>
      obtain ⟨w, g⟩ := wg
      rw [h, Option.map_some] at hfirst
      obtain ⟨x, rfl, hm⟩ := mem_run.mp (first_eq_some h)
      have hne : w ≠ [] := hm.ne_nil hn
      have hne' : collapse w ≠ [] := (first_proper hn).nonempty hfirst
      have hlast := getLast_collapse (hend hm)
      have hborder : wordAt (after prev w) = wordAt (after prev' (collapse w)) := by
        rw [after_eq_getLast prev hne, after_eq_getLast prev' hne', hlast]
      have hpos := List.length_pos_iff.mpr hne
      obtain ⟨ihl, ihr⟩ := ih x.length (by rw [← hlen, List.length_append]; omega) hborder x rfl
      rw [collapse_append (hend hm)] at hfirst ⊢
      rw [lead_hit hne' hfirst, rests_hit hne' hfirst, lead_hit hne h, rests_hit hne h, ihl, ihr]
      exact ⟨rfl, rfl⟩
    | none =>
      rw [h, Option.map_none] at hfirst
      cases t with
      | nil => exact ⟨rfl, rfl⟩
      | cons c t =>
        cases hc : isSpace c with
        | false =>
          obtain ⟨ihl, ihr⟩ := ih t.length (by simp [← hlen]) rfl t rfl
          rw [collapse_plain hc] at hfirst ⊢
          rw [lead_plain hfirst, rests_plain hfirst, lead_plain h, rests_plain h, ihl, ihr,
            collapse_plain hc]
          exact ⟨rfl, rfl⟩
        | true =>
          obtain ⟨hsplit, hspaces, hrest⟩ := span_spec isSpace (c :: t)
          have hne : (c :: t).takeWhile isSpace ≠ [] := by simp [hc]
          generalize (c :: t).takeWhile isSpace = u at hsplit hspaces hne
          generalize (c :: t).dropWhile isSpace = x at hsplit hrest
          have hpos := List.length_pos_iff.mpr hne
          have hborder : wordAt (after prev u) = wordAt (after prev' (lit " ")) :=
            wordAt_after_spaces hne hspaces prev
          obtain ⟨ihl, ihr⟩ := ih x.length (by rw [← hlen, hsplit, List.length_append]; omega)
            hborder x rfl
          have hidle := hw.idle (q := prev) hspaces x
          have hidle' := hw.idle (q := prev') isSpace_blank (collapse x)
          have hlead : ∀ d ∈ (lead r.first (after prev u) x).head?, isSpace d = false := by
            obtain ⟨y, hy, -⟩ := eq_lead_append (first_proper hn) (after prev u) x
            generalize lead r.first (after prev u) x = l at hy
            subst hy
            cases l with
            | nil => simp
            | cons d l => simpa using hrest
          have hcollapse : collapse (u ++ x) = lit " " ++ collapse x :=
            collapse_run hne hspaces hrest
          rw [hsplit, hcollapse, lead_idle hidle', rests_idle hidle', lead_idle hidle,
            rests_idle hidle, ihl, ihr, collapse_run hne hspaces hlead]
          exact ⟨rfl, rfl⟩

end Regex

end Js
