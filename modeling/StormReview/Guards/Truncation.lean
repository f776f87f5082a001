import StormReview.Guards.PrivacyShapes

/-! The two passes of privacyGuard side by side. Full postcodes and titled names lie apart, so
that the names of a truncated text are the names of the text itself. -/
namespace StormReview
open Js Regex

/-- The first pass over a text that stands after `prev`. -/
def truncate (prev : Option UInt16) (t : Text) : Text :=
  render (fun _ district => district) (tokens postcodes prev t)

theorem truncatePostcodes_eq (t : Text) : truncatePostcodes t = truncate none t := rfl

@[simp] theorem truncate_nil (prev : Option UInt16) : truncate prev [] = [] := rfl

theorem truncate_plain {prev : Option UInt16} {c : UInt16} {t : Text}
    (h : postcodes prev (c :: t) = none) : truncate prev (c :: t) = c :: truncate (some c) t := by
  rw [truncate, tokens_plain h, render, truncate]

theorem truncate_hit {prev : Option UInt16} {w t g : Text} (hw : w ≠ [])
    (h : postcodes prev (w ++ t) = some (w, g)) :
    truncate prev (w ++ t) = g ++ truncate (after prev w) t := by
  rw [truncate, tokens_hit hw h, render, truncate]

theorem truncate_idle {prev : Option UInt16} {u t : Text} (h : Idle postcodes prev u t) :
    truncate prev (u ++ t) = u ++ truncate (after prev u) t := by
  rw [truncate, tokens_idle h, render_plains, truncate]

theorem truncate_context {prev prev' : Option UInt16} (hp : wordAt prev = wordAt prev')
    (t : Text) : truncate prev t = truncate prev' t := by
  rw [truncate, tokens_context postcodes_bordered hp, truncate]

/-- A text and its truncation agree up to a digit, if they differ at all. -/
theorem truncate_agrees (prev : Option UInt16) (t : Text) : truncate prev t = t ∨
    ∃ a d s s', t = a ++ d :: s ∧ truncate prev t = a ++ d :: s' ∧ isDigit d = true := by
  refine postcodes_proper.induction (motive := fun prev t => truncate prev t = t ∨
    ∃ a d s s', t = a ++ d :: s ∧ truncate prev t = a ++ d :: s' ∧ isDigit d = true)
    ?_ ?_ ?_ prev t
  · exact fun prev => .inl rfl
  · rintro prev c t h (ih | ⟨a, d, s, s', ht, ht', hd⟩)
    · exact .inl (by rw [truncate_plain h, ih])
    · exact .inr ⟨c :: a, d, s, s', by rw [ht, List.cons_append],
        by rw [truncate_plain h, ht', List.cons_append], hd⟩
  · intro prev w t g hw h _
    rw [truncate_hit hw h]
    obtain ⟨v, rest, rfl, -, hg, -, -⟩ := postcodes_eq_some.mp h
    obtain ⟨-, a, u, d, o, rfl, -, -, hd, -⟩ := match_district.mp hg
    exact .inr ⟨a :: u, d, o ++ (v ++ t), o ++ truncate (after prev (a :: (u ++ d :: o) ++ v)) t,
      by simp, by simp, hd⟩

/-- An expression that takes no digit cannot tell a text from its truncation. -/
theorem run_truncate {r : Regex} (hr : ∀ d, isDigit d = true → r.rejects d = true)
    (q prev : Option UInt16) (t : Text) : r.run q (truncate prev t) = r.run q t := by
  rcases truncate_agrees prev t with h | ⟨a, d, s, s', ht, ht', hd⟩
  · rw [h]
  · have hstop (s : Text) : r.Stops (d :: s) := by simpa [Stops] using hr d hd
    rw [ht', ht]
    exact run_stop (hstop s') (hstop s) rfl q a

theorem names_truncate (q prev : Option UInt16) (t : Text) :
    names q (truncate prev t) = names q t := by
  simp only [names, first, run_truncate (fun _ => titledName_rejects)]

/-! No name starts inside a full postcode, and no full postcode inside a name. -/

theorem inward_no_lower {v : Text} (h : Inward v) : ∀ c ∈ v, isLower c = false := by
  obtain ⟨sp, d, x, y, rfl, hsp, hd, hx, hy⟩ := h
  intro c hc
  simp only [List.mem_append, List.mem_cons, List.not_mem_nil, or_false] at hc
  rcases hc with hc | rfl | rfl | rfl
  · exact isLower_eq_false_of_isWord_eq_false (isWord_eq_false_of_isSpace (hsp c hc))
  · exact isLower_eq_false_of_isDigit hd
  · exact isLower_eq_false_of_isUpper hx
  · exact isLower_eq_false_of_isUpper hy

theorem district_no_lower {g : Text} (h : District g) : ∀ c ∈ g, isLower c = false := by
  obtain ⟨a, u, d, o, rfl, ha, ⟨-, hu⟩, hd, ho⟩ := h
  intro c hc
  simp only [List.mem_append, List.mem_cons] at hc
  rcases hc with rfl | hc | rfl | hc
  · exact isLower_eq_false_of_isUpper ha
  · exact isLower_eq_false_of_isUpper (hu c hc)
  · exact isLower_eq_false_of_isDigit hd
  · rcases ho with rfl | ⟨x, rfl, hx⟩
    · simp at hc
    · obtain rfl : c = x := by simpa using hc
      exact hx.elim isLower_eq_false_of_isUpper isLower_eq_false_of_isDigit

theorem names_idle_of_no_lower {prev : Option UInt16} {u t : Text}
    (hu : ∀ c ∈ u, isLower c = false) (ht : wordAt t.head? = false) : Idle names prev u t := by
  rintro a b rfl hb
  refine names_eq_none.mpr (Bool.eq_false_iff.mpr fun h => ?_)
  obtain ⟨-, c, l, s, hs, -, hl⟩ := name_opening h
  cases b with
  | nil => exact absurd rfl hb
  | cons x b =>
    simp only [List.cons_append, List.cons.injEq] at hs
    cases b with
    | nil =>
      have ht' : t = l :: s := hs.2
      simp [ht', isWord_of_isLower hl] at ht
    | cons y b =>
      simp only [List.cons_append, List.cons.injEq] at hs
      have hy := hu y (by simp)
      rw [hs.2.1, hl] at hy
      cases hy

theorem names_idle_of_postcode {prev : Option UInt16} {w t g : Text}
    (h : postcodes prev (w ++ t) = some (w, g)) :
    (∀ prev', Idle names prev' w t) ∧ ∀ prev' s, wordAt s.head? = false → Idle names prev' g s := by
  obtain ⟨v, rest, rfl, ht, hg, hv, hb⟩ := postcodes_eq_some.mp h
  obtain rfl : t = rest := by simpa using ht
  have hg' := district_no_lower (match_district.mp hg).2
  refine ⟨fun prev' => names_idle_of_no_lower ?_ hb, fun prev' s hs =>
    names_idle_of_no_lower hg' hs⟩
  intro c hc
  exact (List.mem_append.mp hc).elim (hg' c) (inward_no_lower hv c)

theorem silent_of_capitalised {r : Regex} {prev : Option UInt16} {w t : Text}
    (hr : ∀ q s, r.startsWith q s = true →
      ∃ a c s', s = a :: c :: s' ∧ isUpper a = true ∧ isLower c = false)
    (hw : capitalised w = true) : Silent r prev w t := by
  rintro a b rfl hb
  refine Bool.eq_false_iff.mpr fun h => ?_
  obtain ⟨u, c, s, hs, hu, hc⟩ := hr _ _ h
  cases b with
  | nil => exact absurd rfl hb
  | cons x b =>
    simp only [List.cons_append, List.cons.injEq] at hs
    obtain ⟨rfl, hs⟩ := hs
    obtain ⟨l, b', rfl, hl⟩ := capitalised_split hw hu
    simp only [List.cons_append, List.cons.injEq] at hs
    rw [hs.1, hc] at hl
    cases hl

theorem postcodes_idle_of_name {prev : Option UInt16} {w t : Text}
    (h : Match titledNameRe prev w t) : Idle postcodes prev w t := by
  have hs : Silent fullPostcodeRe prev w t := silent_of_capitalised
    (fun q s hq => (postcode_opening hq).2) (name_capitalised h)
  exact fun a b hab hb => postcodes_eq_none.mpr (hs a b hab hb)

/-! A full postcode ends before the next name begins. -/

theorem names_seam (prev : Option UInt16) (t : Text) :
    ∃ s, t = lead names prev t ++ s ∧ Idle names prev (lead names prev t) s ∧
      (s = [] ∨ wordAt (after prev (lead names prev t)) = false ∧
        ∃ a l s', s = a :: l :: s' ∧ isUpper a = true ∧ isLower l = true) := by
  obtain ⟨s, ht, hidle, hs⟩ := eq_lead_append names_proper prev t
  refine ⟨s, ht, hidle, hs.imp id ?_⟩
  rintro ⟨⟨w, g⟩, hw⟩
  refine name_opening (Bool.eq_false_iff.not_left.mp fun hf => ?_)
  rw [names_eq_none.mpr hf] at hw
  cases hw

/-- Expressions whose matches contain no small letter and end in a capital at a border. -/
structure EndsInward (r : Regex) : Prop where
  looks : r.looksBehind = false
  rejects : ∀ {l}, isLower l = true → r.rejects l = true
  ends : ∀ {prev w rest}, Match r prev w rest →
    (∃ a y, w = a ++ [y] ∧ isUpper y = true) ∧ wordAt rest.head? = false

/-- Such a match does not run on into a capital and a small letter. -/
theorem EndsInward.not_into_name {r : Regex} (hr : EndsInward r) {prev : Option UInt16}
    {l c rest s : Text} {x y : UInt16} (hm : Match r prev (l ++ c) rest) (hc : c ≠ [])
    (hs : c ++ rest = x :: y :: s) : isLower y = false := by
  refine Bool.eq_false_iff.mpr fun hy => ?_
  cases c with
  | nil => exact hc rfl
  | cons d c =>
    simp only [List.cons_append, List.cons.injEq] at hs
    cases c with
    | nil =>
      have hb := (hr.ends hm).2
      rw [show rest = y :: s from hs.2, List.head?_cons, wordAt_some, isWord_of_isLower hy] at hb
      cases hb
    | cons e c =>
      simp only [List.cons_append, List.cons.injEq] at hs
      exact hm.not_mem (hr.rejects hy) (by simp [hs.2.1])

theorem EndsInward.match_lead {r : Regex} (hr : EndsInward r) {prev : Option UInt16}
    {t w : Text} : (∃ rest, t = w ++ rest ∧ Match r prev w rest) ↔
      ∃ rest, lead names prev t = w ++ rest ∧ Match r prev w rest := by
  obtain ⟨s, ht, -, hs⟩ := names_seam prev t
  have word {rest : Text} (hm : Match r prev w rest) : wordAt (after prev w) = true := by
    obtain ⟨⟨a, y, rfl, hy⟩, -⟩ := hr.ends hm
    simp [isWord_of_isUpper hy]
  have seam {rest : Text} (hlead : lead names prev t = w ++ rest) :
      s = [] ∨ wordAt (after prev (w ++ rest)) = false := by
    rw [← hlead]
    exact hs.imp id (·.1)
  constructor
  · rintro ⟨rest, hw, hm⟩
    have inside : ∃ c, lead names prev t = w ++ c ∧ rest = c ++ s := by
      rw [ht] at hw
      rcases List.append_eq_append_iff.mp hw with ⟨c, hwc, hsc⟩ | h
      · by_cases hc : c = []
        · subst hc
          exact ⟨[], by simpa using hwc.symm, by simpa using hsc.symm⟩
        rcases hs with rfl | ⟨-, x, y, s', rfl, -, hy⟩
        · exact absurd (List.append_eq_nil_iff.mp hsc.symm).1 hc
        · rw [hwc] at hm
          rw [hr.not_into_name hm hc hsc.symm] at hy
          cases hy
      · exact h
    obtain ⟨c, hlead, rfl⟩ := inside
    exact ⟨c, hlead, hm.restrict hr.looks (word hm) (seam hlead)⟩
  · rintro ⟨rest, hlead, hm⟩
    exact ⟨rest ++ s, by rw [← List.append_assoc, ← hlead, ← ht],
      hm.extend hr.looks (word hm) (seam hlead)⟩

theorem EndsInward.startsWith_lead {r : Regex} (hr : EndsInward r) (prev : Option UInt16)
    (t : Text) : r.startsWith prev t = r.startsWith prev (lead names prev t) := by
  rw [Bool.eq_iff_iff, startsWith_iff, startsWith_iff]
  exact exists_congr fun w => hr.match_lead

theorem endsInward_fullPostcode : EndsInward fullPostcodeRe where
  looks := rfl
  rejects := fullPostcode_rejects
  ends h := by
    obtain ⟨g, v, rfl, -, ⟨sp, d, x, y, rfl, -, -, -, hy⟩, hb⟩ := match_fullPostcode.mp h
    exact ⟨⟨g ++ (sp ++ [d, x]), y, by simp, hy⟩, hb⟩

theorem postcodes_iff_match {prev : Option UInt16} {t w g : Text} :
    postcodes prev t = some (w, g) ↔ (∃ v, w = g ++ v ∧ District g ∧ Inward v) ∧
      ∃ rest, t = w ++ rest ∧ Match fullPostcodeRe prev w rest := by
  constructor
  · intro h
    obtain ⟨v, rest, rfl, ht, hg, hv, hb⟩ := postcodes_eq_some.mp h
    exact ⟨⟨v, rfl, (match_district.mp hg).2, hv⟩, rest, by simpa using ht,
      match_fullPostcode.mpr ⟨g, v, rfl, hg, hv, hb⟩⟩
  · rintro ⟨⟨v, rfl, hg, hv⟩, rest, rfl, hm⟩
    obtain ⟨g', v', hw, hg', hv', hb⟩ := match_fullPostcode.mp hm
    have hsame : g ++ (v ++ []) = g' ++ (v' ++ []) := by simpa using hw
    obtain ⟨rfl, rfl⟩ := postcode_unique hg (match_district.mp hg').2 hv hv' hsame
    exact postcodes_eq_some.mpr ⟨v, rest, rfl, by simp, hg', hv', hb⟩

theorem postcodes_lead (prev : Option UInt16) (t : Text) :
    postcodes prev (lead names prev t) = postcodes prev t := by
  refine Option.ext fun ⟨w, g⟩ => ?_
  rw [postcodes_iff_match, postcodes_iff_match, ← endsInward_fullPostcode.match_lead]

theorem head_truncate (prev : Option UInt16) (t : Text) : (truncate prev t).head? = t.head? := by
  rcases truncate_agrees prev t with h | ⟨a, d, s, s', ht, ht', -⟩
  · rw [h]
  · rw [ht', ht]
    cases a <;> rfl

/-- A full postcode stands between borders, and so does the district in its place. -/
theorem postcode_borders {prev : Option UInt16} {w t g : Text}
    (h : postcodes prev (w ++ t) = some (w, g)) (q : Option UInt16) :
    wordAt (after q w) = true ∧ wordAt (after q g) = true ∧ wordAt t.head? = false := by
  obtain ⟨v, rest, rfl, ht, hg, ⟨sp, d, x, y, rfl, -, -, -, hy⟩, hb⟩ := postcodes_eq_some.mp h
  obtain rfl : t = rest := by simpa using ht
  obtain ⟨-, a, u, e, o, rfl, -, -, he, ho⟩ := match_district.mp hg
  refine ⟨by simp [after_append, isWord_of_isUpper hy], ?_, hb⟩
  rcases ho with rfl | ⟨x', rfl, hx'⟩
  · simp [after_append, isWord_of_isDigit he]
  · simp [after_append, hx'.elim isWord_of_isUpper isWord_of_isDigit]

/-- Truncation works on the stretches between the names, each for itself. -/
theorem names_pieces_truncate (prev : Option UInt16) (t : Text) :
    lead names prev (truncate prev t) = truncate prev (lead names prev t) ∧
      rests names prev (truncate prev t) =
        (rests names prev t).map (truncate (some (cu 'r'))) := by
  induction hn : t.length using Nat.strongRecOn generalizing prev t with
  | ind n ih =>
    have shorter {w s : Text} (hw : w ≠ []) (ht : t = w ++ s) : s.length < n := by
      have := List.length_pos_iff.mpr hw
      rw [← hn, ht, List.length_append]
      omega
    cases hp : postcodes prev t with
    | some wg =>
      -- a full postcode: no name starts in it, nor in its district
      obtain ⟨w, g⟩ := wg
      have hw : w ≠ [] := postcodes_proper.nonempty hp
      obtain ⟨s, rfl⟩ := postcodes_proper.reads hp
      obtain ⟨hidle, hidle'⟩ := names_idle_of_postcode hp
      have hl : postcodes prev (w ++ lead names (after prev w) s) = some (w, g) := by
        rw [← lead_idle (hidle prev), postcodes_lead, hp]
      obtain ⟨hbw, hbg, hbs⟩ := postcode_borders hp prev
      have hb : wordAt (after prev g) = wordAt (after prev w) := by rw [hbw, hbg]
      have hg := hidle' prev (truncate (after prev w) s) (by rw [head_truncate, hbs])
      obtain ⟨ihl, ihr⟩ := ih s.length (shorter hw rfl) (after prev w) s rfl
      rw [truncate_hit hw hp, lead_idle (hidle prev), truncate_hit hw hl, rests_idle (hidle prev),
        lead_idle hg, rests_idle hg, lead_context names_bordered hb,
        rests_context names_bordered hb, ihl]
      exact ⟨rfl, ihr⟩
    | none =>
      cases t with
      | nil => exact ⟨rfl, rfl⟩
      | cons c t =>
        cases hm : names prev (c :: t) with
        | some wg =>
          -- a name: it stands in the truncated text too, and no full postcode starts in it
          obtain ⟨w, g⟩ := wg
          have hw : w ≠ [] := names_proper.nonempty hm
          obtain ⟨s, hs, hmatch⟩ := match_of_names hm
          have hm' := names_truncate prev prev (c :: t)
          rw [hm, hs, truncate_idle (postcodes_idle_of_name hmatch)] at hm'
          rw [hs] at hm
          have hb : wordAt (after prev w) = wordAt (some (cu 'r')) := wordAt_after_name hmatch
          obtain ⟨ihl, ihr⟩ := ih s.length (shorter hw hs) (after prev w) s rfl
          rw [hs, truncate_idle (postcodes_idle_of_name hmatch), lead_hit hw hm', lead_hit hw hm,
            rests_hit hw hm', rests_hit hw hm, ihl, ihr, List.map_cons, truncate_context hb]
          exact ⟨rfl, rfl⟩
        | none =>
          have hm' := names_truncate prev prev (c :: t)
          rw [hm, truncate_plain hp] at hm'
          have hl : postcodes prev (c :: lead names (some c) t) = none := by
            rw [← lead_plain hm, postcodes_lead, hp]
          obtain ⟨ihl, ihr⟩ := ih t.length (shorter (w := [c]) (by simp) rfl) (some c) t rfl
          rw [truncate_plain hp, lead_plain hm', rests_plain hm', lead_plain hm, rests_plain hm,
            truncate_plain hl, ihl]
          exact ⟨rfl, ihr⟩

end StormReview
