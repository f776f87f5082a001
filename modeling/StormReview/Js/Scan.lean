import StormReview.Js.Regex

/-! Searching a text from left to right: `test`, the global `replace` and `split`. A search
is given by what it takes at a position; here it always takes some text or nothing at all. -/
namespace Js

/-- What a search takes at a position and what it captures there. -/
abbrev Matcher (γ : Type) := Option UInt16 → Text → Option (Text × γ)

inductive Token (γ : Type) where
  | plain (c : UInt16)
  | hit (w : Text) (g : γ)

namespace Regex

/-- The preferred match at a position. -/
def first (r : Regex) : Matcher Unit := fun prev t => (r.run prev t).head?.map fun w => (w, ())

/-- The preferred match of `(r)s`, with the text of its group. -/
def group (r s : Regex) : Matcher Text := fun prev t =>
  ((r.run prev t).flatMap fun u =>
    (s.run (after prev u) (t.drop u.length)).map fun v => (u ++ v, u)).head?

/-- Whether the expression matches anywhere in `t`, read after `prev`. -/
def testFrom (r : Regex) : Option UInt16 → Text → Bool
  | prev, [] => r.run prev [] != []
  | prev, c :: t => r.run prev (c :: t) != [] || testFrom r (some c) t

def test (r : Regex) (t : Text) : Bool := testFrom r none t

/-- Whether the expression matches at the start of `t`. -/
def startsWith (r : Regex) (prev : Option UInt16) (t : Text) : Bool := r.run prev t != []

end Regex

section scan
variable {γ : Type}

/-- The search over a text: `skip` code units of the current match are still to be passed. -/
def scan (m : Matcher γ) : Nat → Option UInt16 → Text → List (Token γ)
  | _, _, [] => []
  | k + 1, _, c :: t => scan m k (some c) t
  | 0, prev, c :: t =>
    match m prev (c :: t) with
    | some (x :: w, g) => .hit (x :: w) g :: scan m w.length (some c) t
    | _ => .plain c :: scan m 0 (some c) t

def tokens (m : Matcher γ) (prev : Option UInt16) (t : Text) : List (Token γ) := scan m 0 prev t

def render (f : Text → γ → Text) : List (Token γ) → Text
  | [] => []
  | .plain c :: toks => c :: render f toks
  | .hit w g :: toks => f w g ++ render f toks

/-- The global `replace`. -/
def replaceAll (m : Matcher γ) (f : Text → γ → Text) (t : Text) : Text :=
  render f (tokens m none t)

def hits : List (Token γ) → Nat
  | [] => 0
  | .plain _ :: toks => hits toks
  | .hit _ _ :: toks => 1 + hits toks

/-- The stretch of text before the first match, and those that each follow one. -/
def cut : List (Token γ) → Text × List Text
  | [] => ([], [])
  | .plain c :: toks => (c :: (cut toks).1, (cut toks).2)
  | .hit _ _ :: toks => ([], (cut toks).1 :: (cut toks).2)

def pieces (m : Matcher γ) (t : Text) : List Text :=
  (cut (tokens m none t)).1 :: (cut (tokens m none t)).2

/-- `split` at the matches of a separator. -/
def split (m : Matcher γ) (t : Text) : List Text := pieces m t

/-- A search that takes some of the text that stands at the position, if anything. -/
structure Matcher.Proper (m : Matcher γ) : Prop where
  nonempty : ∀ {prev t w g}, m prev t = some (w, g) → w ≠ []
  reads : ∀ {prev t w g}, m prev t = some (w, g) → ∃ rest, t = w ++ rest

variable {m : Matcher γ}

theorem Matcher.Proper.none_nil (hm : m.Proper) (prev : Option UInt16) : m prev [] = none := by
  cases h : m prev [] with
  | none => rfl
  | some wg =>
    obtain ⟨rest, ht⟩ := hm.reads h
    exact absurd (List.append_eq_nil_iff.mp ht.symm).1 (hm.nonempty h)

theorem scan_skip (m : Matcher γ) (prev : Option UInt16) (u t : Text) :
    scan m u.length prev (u ++ t) = tokens m (after prev u) t := by
  induction u generalizing prev with
  | nil => rfl
  | cons c u ih => exact ih (some c)

@[simp] theorem tokens_nil (m : Matcher γ) (prev : Option UInt16) : tokens m prev [] = [] := rfl

theorem tokens_plain {prev : Option UInt16} {c : UInt16} {t : Text} (h : m prev (c :: t) = none) :
    tokens m prev (c :: t) = .plain c :: tokens m (some c) t := by
  simp [tokens, scan, h]

theorem tokens_hit {prev : Option UInt16} {w t : Text} {g : γ} (hw : w ≠ [])
    (h : m prev (w ++ t) = some (w, g)) :
    tokens m prev (w ++ t) = .hit w g :: tokens m (after prev w) t := by
  cases w with
  | nil => exact absurd rfl hw
  | cons c w =>
    rw [List.cons_append] at h
    simp only [tokens, List.cons_append, scan, h]
    exact congrArg _ (scan_skip m (some c) w t)

/-- Induction along a search: the text ends, nothing is taken, or a match is passed. -/
theorem Matcher.Proper.induction (hm : m.Proper) {motive : Option UInt16 → Text → Prop}
    (nil : ∀ prev, motive prev [])
    (plain : ∀ prev c t, m prev (c :: t) = none → motive (some c) t → motive prev (c :: t))
    (hit : ∀ prev w t g, w ≠ [] → m prev (w ++ t) = some (w, g) → motive (after prev w) t →
      motive prev (w ++ t)) (prev : Option UInt16) (t : Text) : motive prev t := by
  induction hn : t.length using Nat.strongRecOn generalizing prev t with
  | ind n ih =>
    cases t with
    | nil => exact nil prev
    | cons c t =>
      cases h : m prev (c :: t) with
      | none => exact plain prev c t h (ih t.length (by simp [← hn]) _ t rfl)
      | some wg =>
        obtain ⟨w, g⟩ := wg
        have hw : w ≠ [] := hm.nonempty h
        obtain ⟨rest, ht⟩ := hm.reads h
        rw [ht] at h hn ⊢
        have hpos : 0 < w.length := List.length_pos_iff.mpr hw
        have hlt : rest.length < n := by
          rw [← hn, List.length_append]
          omega
        exact hit prev w rest g hw h (ih rest.length hlt _ rest rfl)

/-- A search that finds nothing changes nothing. -/
theorem render_tokens_of_none {f : Text → γ → Text} {prev : Option UInt16} {t : Text}
    (h : ∀ a b, t = a ++ b → m (after prev a) b = none) : render f (tokens m prev t) = t := by
  induction t generalizing prev with
  | nil => rfl
  | cons c t ih =>
    have hc : m prev (c :: t) = none := h [] (c :: t) rfl
    rw [tokens_plain hc, render, ih fun a b ht => h (c :: a) b (by rw [ht, List.cons_append])]

/-- What holds of every code unit that is left and of every replacement holds of the result. -/
theorem render_all (hm : m.Proper) {p : UInt16 → Bool} {f : Text → γ → Text}
    (hf : ∀ w g, ∀ c ∈ f w g, p c = true)
    (hplain : ∀ prev c t, m prev (c :: t) = none → p c = true) (prev : Option UInt16) (t : Text) :
    ∀ c ∈ render f (tokens m prev t), p c = true := by
  induction prev, t using hm.induction with
  | nil prev => simp [render]
  | plain prev c t h ih =>
    rw [tokens_plain h]
    intro d hd
    rcases List.mem_cons.mp hd with rfl | hd
    · exact hplain _ _ _ h
    · exact ih d hd
  | hit prev w t g hw h ih =>
    rw [tokens_hit hw h]
    intro d hd
    rcases List.mem_append.mp hd with hd | hd
    · exact hf w g d hd
    · exact ih d hd

/-- The stretches between the hits of one list of tokens after another. -/
theorem cut_append (xs ys : List (Token γ)) : ∃ ps x, (cut xs).1 :: (cut xs).2 = ps ++ [x] ∧
    (cut (xs ++ ys)).1 :: (cut (xs ++ ys)).2 = ps ++ (x ++ (cut ys).1) :: (cut ys).2 := by
  induction xs with
  | nil => exact ⟨[], [], rfl, rfl⟩
  | cons tok xs ih =>
    obtain ⟨ps, x, hps, hps'⟩ := ih
    cases tok with
    | hit w g => exact ⟨[] :: ps, x, by simp [cut, hps], by simp [cut, hps']⟩
    | plain c =>
      cases ps with
      | nil =>
        simp only [List.nil_append, List.cons.injEq] at hps hps'
        exact ⟨[], c :: x, by simp [cut, hps], by simp [cut, hps']⟩
      | cons p ps =>
        simp only [List.cons_append, List.cons.injEq] at hps hps'
        exact ⟨(c :: p) :: ps, x, by simp [cut, hps], by simp [cut, hps']⟩

/-- Replacing every match by one text puts that text between the pieces. -/
theorem render_const (sep : Text) (toks : List (Token γ)) :
    render (fun _ _ => sep) toks = join sep ((cut toks).1 :: (cut toks).2) := by
  induction toks with
  | nil => simp [render, cut, join]
  | cons tok toks ih =>
    cases tok with
    | plain c =>
      cases h : (cut toks).2 <;> simp [render, cut, join, h, ih, List.intercalate]
    | hit w g => simp [render, cut, join, ih, List.intercalate]

end scan

namespace Regex

theorem first_eq_some {r : Regex} {prev : Option UInt16} {t w : Text} {g : Unit}
    (h : r.first prev t = some (w, g)) : w ∈ r.run prev t := by
  simp only [first, Option.map_eq_some_iff, Prod.mk.injEq] at h
  obtain ⟨a, ha, rfl, -⟩ := h
  exact List.mem_of_mem_head? ha

theorem first_eq_none {r : Regex} {prev : Option UInt16} {t : Text} :
    r.first prev t = none ↔ r.run prev t = [] := by
  simp [first]

theorem first_proper {r : Regex} (hr : r.nullable = false) : r.first.Proper where
  nonempty h := by
    obtain ⟨rest, -, hm⟩ := mem_run.mp (first_eq_some h)
    exact hm.ne_nil hr
  reads h := run_prefix (first_eq_some h)

theorem group_eq_some {r s : Regex} {prev : Option UInt16} {t w g : Text}
    (h : r.group s prev t = some (w, g)) :
    ∃ v rest, w = g ++ v ∧ t = g ++ (v ++ rest) ∧ Match r prev g (v ++ rest) ∧
      Match s (after prev g) v rest := by
  have hmem := List.mem_of_mem_head? h
  simp only [List.mem_flatMap, List.mem_map, Prod.mk.injEq] at hmem
  obtain ⟨u, hu, v, hv, rfl, rfl⟩ := hmem
  obtain ⟨rest, rfl, hmr⟩ := mem_run.mp hu
  rw [List.drop_left] at hv
  obtain ⟨rest', rfl, hms⟩ := mem_run.mp hv
  exact ⟨v, rest', rfl, rfl, hmr, hms⟩

theorem group_eq_none {r s : Regex} {prev : Option UInt16} {t : Text} :
    r.group s prev t = none ↔ (Regex.seq r s).run prev t = [] := by
  simp only [group, run, List.head?_eq_none_iff, List.flatMap_eq_nil_iff, List.map_eq_nil_iff]

theorem group_proper {r s : Regex} (hr : (Regex.seq r s).nullable = false) :
    (r.group s).Proper where
  nonempty h := by
    obtain ⟨v, rest, rfl, -, hmr, hms⟩ := group_eq_some h
    exact (Match.seq hmr hms).ne_nil hr
  reads h := by
    obtain ⟨v, rest, rfl, rfl, -, -⟩ := group_eq_some h
    exact ⟨rest, by simp⟩

theorem run_ne_nil {r : Regex} {prev : Option UInt16} {t : Text} :
    r.run prev t ≠ [] ↔ ∃ w rest, t = w ++ rest ∧ Match r prev w rest := by
  constructor
  · intro h
    obtain ⟨w, hw⟩ := List.exists_mem_of_ne_nil _ h
    obtain ⟨rest, ht, hm⟩ := mem_run.mp hw
    exact ⟨w, rest, ht, hm⟩
  · rintro ⟨w, rest, ht, hm⟩
    exact List.ne_nil_of_mem (mem_run.mpr ⟨rest, ht, hm⟩)

theorem startsWith_iff {r : Regex} {prev : Option UInt16} {t : Text} :
    r.startsWith prev t = true ↔ ∃ w rest, t = w ++ rest ∧ Match r prev w rest := by
  rw [startsWith, bne_iff_ne, run_ne_nil]

theorem testFrom_iff {r : Regex} {prev : Option UInt16} {t : Text} :
    testFrom r prev t = true ↔
      ∃ a w b, t = a ++ (w ++ b) ∧ Match r (after prev a) w b := by
  induction t generalizing prev with
  | nil =>
    rw [testFrom, bne_iff_ne, run_ne_nil]
    constructor
    · rintro ⟨w, b, ht, h⟩
      exact ⟨[], w, b, ht, h⟩
    · rintro ⟨a, w, b, ht, h⟩
      obtain ⟨rfl, hwb⟩ := List.append_eq_nil_iff.mp ht.symm
      exact ⟨w, b, hwb.symm, h⟩
  | cons c t ih =>
    rw [testFrom, Bool.or_eq_true, bne_iff_ne, run_ne_nil, ih]
    constructor
    · rintro (⟨w, b, ht, h⟩ | ⟨a, w, b, rfl, h⟩)
      · exact ⟨[], w, b, ht, h⟩
      · exact ⟨c :: a, w, b, rfl, h⟩
    · rintro ⟨a, w, b, ht, h⟩
      cases a with
      | nil => exact .inl ⟨w, b, ht, h⟩
      | cons d a =>
        simp only [List.cons_append, List.cons.injEq] at ht
        obtain ⟨rfl, rfl⟩ := ht
        exact .inr ⟨a, w, b, rfl, h⟩

/-- A search reads the context before a text only through its word border. -/
theorem testFrom_context {r : Regex} (hr : r.looksBehind = false) {prev prev' : Option UInt16}
    (hp : wordAt prev = wordAt prev') (t : Text) : testFrom r prev t = testFrom r prev' t := by
  have one {p p' : Option UInt16} (hp : wordAt p = wordAt p') (h : testFrom r p t = true) :
      testFrom r p' t = true := by
    obtain ⟨a, w, b, ht, hm⟩ := testFrom_iff.mp h
    refine testFrom_iff.mpr ⟨a, w, b, ht, hm.context hr ?_ rfl⟩
    cases a with
    | nil => exact hp
    | cons c a => rfl
  exact Bool.eq_iff_iff.mpr ⟨one hp, one hp.symm⟩

/-- No match starts at a code unit the expression does not take. -/
theorem testFrom_cons_of_rejects {r : Regex} (hn : r.nullable = false) {d : UInt16}
    (hd : r.rejects d = true) (prev : Option UInt16) (t : Text) :
    testFrom r prev (d :: t) = testFrom r (some d) t := by
  have hnil : r.run prev (d :: t) = [] := by
    by_contra hne
    obtain ⟨w, rest, ht, hm⟩ := run_ne_nil.mp hne
    cases w with
    | nil => exact hm.ne_nil hn rfl
    | cons c w =>
      simp only [List.cons_append, List.cons.injEq] at ht
      exact hm.not_mem hd (by simp [ht.1])
  simp [testFrom, hnil]

/-- A code unit that the expression does not take and that is no word character separates
the matches before it from those after it. -/
theorem testFrom_append_of_rejects {r : Regex} (hn : r.nullable = false) {d : UInt16}
    (hd : r.rejects d = true) (hw : isWord d = false) (prev : Option UInt16) (x y : Text) :
    testFrom r prev (x ++ d :: y) = (testFrom r prev x || testFrom r (some d) y) := by
  have hs : r.Stops (d :: y) := by simpa [Stops] using hd
  have hs' : r.Stops [] := by simp [Stops]
  induction x generalizing prev with
  | nil =>
    have hnil : r.run prev [] = [] := by
      by_contra hne
      obtain ⟨w, rest, ht, hm⟩ := run_ne_nil.mp hne
      exact hm.ne_nil hn (List.append_eq_nil_iff.mp ht.symm).1
    simp [testFrom_cons_of_rejects hn hd, testFrom, hnil]
  | cons c x ih =>
    have hrun : r.run prev (c :: x ++ d :: y) = r.run prev (c :: x) := by
      simpa using run_stop hs hs' (by simp [hw]) prev (c :: x)
    rw [List.cons_append] at hrun
    simp only [List.cons_append, testFrom, hrun, ih, Bool.or_assoc]

end Regex
end Js
