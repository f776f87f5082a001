import Mathlib.Data.List.Forall2
import StormReview.Js.Text

/-! Regular expressions with backtracking: `run` lists what an expression can consume at a
position in the order the engine tries it, `Match` says which consumptions are matches. -/
namespace Js

inductive Regex where
  | empty
  | unit (p : UInt16 → Bool)
  | seq (r s : Regex)
  | alt (r s : Regex)
  | star (r : Regex)
  | boundary
  | behind (p : UInt16 → Bool)

namespace Regex

/-- The greedy `r?`. -/
def opt (r : Regex) : Regex := .alt r .empty
/-- The greedy `r+`. -/
def plus (r : Regex) : Regex := .seq r (.star r)
def space : Regex := .unit isSpace
def digit : Regex := .unit isDigit
def char (c : Char) : Regex := .unit (· == cu c)
/-- A letter, or any other character, under the i flag. -/
def charI (c : Char) : Regex := .unit (fun u => foldCase u == foldCase (cu c))

def ofChars (one : Char → Regex) : List Char → Regex
  | [] => .empty
  | [c] => one c
  | c :: cs => .seq (one c) (ofChars one cs)

def word (s : String) : Regex := ofChars char s.toList
def wordI (s : String) : Regex := ofChars charI s.toList

def oneOf : List Regex → Regex
  | [] => .unit (fun _ => false)
  | [r] => r
  | r :: rs => .alt r (oneOf rs)

def chain : List Regex → Regex
  | [] => .empty
  | [r] => r
  | r :: rs => .seq r (chain rs)

/-- The greedy repetition of a step: an iteration that consumes nothing is refused. -/
def iterate (step : Option UInt16 → Text → List Text) : Nat → Option UInt16 → Text → List Text
  | 0, _, _ => [[]]
  | n + 1, prev, t =>
    (((step prev t).filter (· ≠ [])).flatMap fun u =>
      (iterate step n (after prev u) (t.drop u.length)).map (u ++ ·)) ++ [[]]

/-- What the expression can consume at the start of `t`, preferred alternatives first;
`prev` is the code unit before the position. -/
def run : Regex → Option UInt16 → Text → List Text
  | .empty, _, _ => [[]]
  | .unit p, _, t =>
    match t with
    | [] => []
    | c :: _ => if p c then [[c]] else []
  | .seq r s, prev, t =>
    (run r prev t).flatMap fun u => (run s (after prev u) (t.drop u.length)).map (u ++ ·)
  | .alt r s, prev, t => run r prev t ++ run s prev t
  | .star r, prev, t => iterate (run r) t.length prev t
  | .boundary, prev, t => if wordAt prev != wordAt t.head? then [[]] else []
  | .behind p, prev, _ => if prev.any p then [[]] else []

/-- `r` matches the text `w` that stands between `prev` and `rest`. -/
inductive Match : Regex → Option UInt16 → Text → Text → Prop
  | empty {prev rest} : Match .empty prev [] rest
  | unit {p prev c rest} : p c = true → Match (.unit p) prev [c] rest
  | seq {r s prev u v rest} : Match r prev u (v ++ rest) → Match s (after prev u) v rest →
      Match (.seq r s) prev (u ++ v) rest
  | altL {r s prev w rest} : Match r prev w rest → Match (.alt r s) prev w rest
  | altR {r s prev w rest} : Match s prev w rest → Match (.alt r s) prev w rest
  | starNil {r prev rest} : Match (.star r) prev [] rest
  | starCons {r prev u v rest} : u ≠ [] → Match r prev u (v ++ rest) →
      Match (.star r) (after prev u) v rest → Match (.star r) prev (u ++ v) rest
  | boundary {prev rest} : wordAt prev ≠ wordAt rest.head? → Match .boundary prev [] rest
  | behind {p prev rest} : prev.any p = true → Match (.behind p) prev [] rest

section inversion
variable {r s : Regex} {p : UInt16 → Bool} {prev : Option UInt16} {w rest : Text}

@[simp] theorem match_empty : Match .empty prev w rest ↔ w = [] :=
  ⟨fun h => by cases h; rfl, fun h => h ▸ .empty⟩

@[simp] theorem match_unit : Match (.unit p) prev w rest ↔ ∃ c, p c = true ∧ w = [c] :=
  ⟨fun h => by cases h with | unit hp => exact ⟨_, hp, rfl⟩,
   fun ⟨_, hp, hw⟩ => hw ▸ .unit hp⟩

theorem match_seq : Match (.seq r s) prev w rest ↔
    ∃ u v, w = u ++ v ∧ Match r prev u (v ++ rest) ∧ Match s (after prev u) v rest :=
  ⟨fun h => by cases h with | seq hr hs => exact ⟨_, _, rfl, hr, hs⟩,
   fun ⟨_, _, hw, hr, hs⟩ => hw ▸ .seq hr hs⟩

theorem match_alt : Match (.alt r s) prev w rest ↔ Match r prev w rest ∨ Match s prev w rest :=
  ⟨fun h => by cases h with | altL h => exact .inl h | altR h => exact .inr h,
   fun h => h.elim .altL .altR⟩

theorem match_opt : Match (opt r) prev w rest ↔ Match r prev w rest ∨ w = [] := by
  rw [opt, match_alt, match_empty]

@[simp] theorem match_boundary :
    Match .boundary prev w rest ↔ w = [] ∧ wordAt prev ≠ wordAt rest.head? :=
  ⟨fun h => by cases h with | boundary hb => exact ⟨rfl, hb⟩,
   fun ⟨hw, hb⟩ => hw ▸ .boundary hb⟩

@[simp] theorem match_behind : Match (.behind p) prev w rest ↔ w = [] ∧ prev.any p = true :=
  ⟨fun h => by cases h with | behind hp => exact ⟨rfl, hp⟩,
   fun ⟨hw, hp⟩ => hw ▸ .behind hp⟩

theorem match_seq_boundary : Match (.seq .boundary r) prev w rest ↔
    wordAt prev ≠ wordAt (w ++ rest).head? ∧ Match r prev w rest := by
  rw [match_seq]
  constructor
  · rintro ⟨b, v, rfl, hb, hr⟩
    obtain ⟨rfl, hborder⟩ := match_boundary.mp hb
    exact ⟨hborder, hr⟩
  · rintro ⟨hborder, hr⟩
    exact ⟨[], w, rfl, .boundary hborder, hr⟩

end inversion

/-- Repetition of a class of code units. -/
theorem match_star_unit {p : UInt16 → Bool} {prev : Option UInt16} {w rest : Text} :
    Match (.star (.unit p)) prev w rest ↔ ∀ c ∈ w, p c = true := by
  constructor
  · intro h
    generalize hr : Regex.star (.unit p) = r at h
    induction h with
    | starNil => simp
    | starCons _ hu _ _ ih =>
      cases hr
      obtain ⟨c, hc, rfl⟩ := match_unit.mp hu
      simpa [hc] using ih rfl
    | _ => cases hr
  · intro h
    induction w generalizing prev with
    | nil => exact .starNil
    | cons c w ih =>
      have hc : Match (.unit p) prev [c] (w ++ rest) := .unit (h c (by simp))
      exact .starCons (by simp) hc (ih fun d hd => h d (by simp [hd]))

theorem match_plus_unit {p : UInt16 → Bool} {prev : Option UInt16} {w rest : Text} :
    Match (plus (.unit p)) prev w rest ↔ w ≠ [] ∧ ∀ c ∈ w, p c = true := by
  rw [plus, match_seq]
  constructor
  · rintro ⟨u, v, rfl, hu, hv⟩
    obtain ⟨c, hc, rfl⟩ := match_unit.mp hu
    have := match_star_unit.mp hv
    exact ⟨by simp, by simpa [hc] using this⟩
  · rintro ⟨hne, h⟩
    cases w with
    | nil => exact absurd rfl hne
    | cons c w =>
      exact ⟨[c], w, rfl, .unit (h c (by simp)), match_star_unit.mpr fun d hd => h d (by simp [hd])⟩

theorem match_ofChars {p : Char → UInt16 → Bool} {cs : List Char} {prev : Option UInt16}
    {w rest : Text} : Match (ofChars (fun c => .unit (p c)) cs) prev w rest ↔
      List.Forall₂ (fun c u => p c u = true) cs w := by
  induction cs generalizing prev w with
  | nil => simp [ofChars]
  | cons c cs ih =>
    cases cs with
    | nil =>
      simp only [ofChars, match_unit, List.forall₂_cons_left_iff, List.forall₂_nil_left_iff]
      exact ⟨fun ⟨u, hu, hw⟩ => ⟨u, [], hu, rfl, hw⟩, fun ⟨u, _, hu, hv, hw⟩ => ⟨u, hu, hv ▸ hw⟩⟩
    | cons d cs =>
      rw [ofChars, match_seq]
      · simp only [ih, match_unit, List.forall₂_cons_left_iff (l := d :: cs)]
        constructor
        · rintro ⟨_, v, rfl, ⟨u, hu, rfl⟩, hv⟩
          exact ⟨u, v, hu, hv, rfl⟩
        · rintro ⟨u, v, hu, hv, rfl⟩
          exact ⟨[u], v, rfl, ⟨u, hu, rfl⟩, hv⟩
      · simp

theorem match_word {s : String} {prev : Option UInt16} {w rest : Text} :
    Match (word s) prev w rest ↔ w = s.toList.map cu := by
  refine match_ofChars.trans ?_
  simp only [beq_iff_eq]
  rw [← List.forall₂_map_left_iff (R := fun c u : UInt16 => u = c)]
  constructor
  · intro h
    exact (List.forall₂_eq_eq_eq ▸ h.imp fun _ _ he => he.symm : _ = w).symm
  · rintro rfl
    exact List.forall₂_same.mpr fun _ _ => rfl

theorem match_wordI {s : String} {prev : Option UInt16} {w rest : Text} :
    Match (wordI s) prev w rest ↔ w.map foldCase = s.toList.map fun c => foldCase (cu c) := by
  refine match_ofChars.trans ?_
  simp only [beq_iff_eq]
  rw [← List.forall₂_map_left_iff (f := fun c => foldCase (cu c)) (R := fun c u => foldCase u = c),
    ← List.forall₂_map_right_iff (f := foldCase) (R := fun c u : UInt16 => u = c)]
  constructor
  · intro h
    exact (List.forall₂_eq_eq_eq ▸ h.imp fun _ _ he => he.symm : _ = w.map foldCase).symm
  · intro h
    rw [h]
    exact List.forall₂_same.mpr fun _ _ => rfl

theorem match_oneOf {rs : List Regex} {prev : Option UInt16} {w rest : Text} :
    Match (oneOf rs) prev w rest ↔ ∃ r ∈ rs, Match r prev w rest := by
  induction rs with
  | nil => simp [oneOf]
  | cons r rs ih =>
    cases rs with
    | nil => simp [oneOf]
    | cons s rs =>
      rw [oneOf, match_alt, ih, List.exists_mem_cons_iff (l := s :: rs)]
      simp

/-! `run` lists exactly the matches. -/

theorem mem_iterate_nil (step : Option UInt16 → Text → List Text) (n : Nat)
    (prev : Option UInt16) (t : Text) : [] ∈ iterate step n prev t := by
  cases n <;> simp [iterate]

theorem mem_iterate {r : Regex}
    (hr : ∀ prev t u, u ∈ run r prev t ↔ ∃ rest, t = u ++ rest ∧ Match r prev u rest)
    (n : Nat) (prev : Option UInt16) (t w : Text) (hn : t.length ≤ n) :
    w ∈ iterate (run r) n prev t ↔ ∃ rest, t = w ++ rest ∧ Match (.star r) prev w rest := by
  induction n generalizing prev t w with
  | zero =>
    have ht : t = [] := List.length_eq_zero_iff.mp (by omega)
    subst ht
    constructor
    · intro h
      obtain rfl : w = [] := by simpa [iterate] using h
      exact ⟨[], rfl, .starNil⟩
    · rintro ⟨rest, ht, -⟩
      obtain ⟨rfl, rfl⟩ := List.append_eq_nil_iff.mp ht.symm
      exact mem_iterate_nil ..
  | succ n ih =>
    constructor
    · intro h
      simp only [iterate, List.mem_append, List.mem_flatMap, List.mem_filter, decide_eq_true_eq,
        List.mem_map, List.mem_singleton] at h
      rcases h with ⟨u, ⟨hu, hne⟩, v, hv, rfl⟩ | rfl
      · obtain ⟨rest, rfl, hmu⟩ := (hr prev t u).mp hu
        have hlen : 0 < u.length := List.length_pos_iff.mpr hne
        simp only [List.length_append] at hn
        rw [List.drop_left] at hv
        obtain ⟨rest', rfl, hmv⟩ := (ih (after prev u) rest v (by omega)).mp hv
        exact ⟨rest', by simp, .starCons hne hmu hmv⟩
      · exact ⟨t, rfl, .starNil⟩
    · rintro ⟨rest, rfl, hm⟩
      cases hm with
      | starNil => exact mem_iterate_nil ..
      | @starCons _ _ u v _ hne hmu hmv =>
        have hlen : 0 < u.length := List.length_pos_iff.mpr hne
        have hu : u ∈ run r prev (u ++ v ++ rest) := (hr ..).mpr ⟨v ++ rest, by simp, hmu⟩
        have hdrop : (u ++ v ++ rest).drop u.length = v ++ rest := by simp
        have hv : v ∈ iterate (run r) n (after prev u) ((u ++ v ++ rest).drop u.length) := by
          rw [hdrop]
          refine (ih (after prev u) (v ++ rest) v ?_).mpr ⟨rest, rfl, hmv⟩
          simp only [List.length_append] at hn ⊢
          omega
        simp only [iterate, List.mem_append, List.mem_flatMap, List.mem_filter,
          decide_eq_true_eq, List.mem_map]
        exact .inl ⟨u, ⟨hu, hne⟩, v, hv, rfl⟩

theorem mem_run_unit {p : UInt16 → Bool} {prev : Option UInt16} {t w : Text} :
    w ∈ run (.unit p) prev t ↔ ∃ rest, t = w ++ rest ∧ Match (.unit p) prev w rest := by
  simp only [match_unit]
  cases t with
  | nil =>
    simp only [run, List.not_mem_nil, false_iff]
    rintro ⟨rest, ht, c, -, rfl⟩
    simp at ht
  | cons c t =>
    constructor
    · intro h
      by_cases hc : p c = true
      · obtain rfl : w = [c] := by simpa [run, hc] using h
        exact ⟨t, rfl, c, hc, rfl⟩
      · simp [run, hc] at h
    · rintro ⟨rest, ht, d, hd, rfl⟩
      obtain ⟨rfl, rfl⟩ := List.cons.inj ht
      simp [run, hd]

theorem mem_run_boundary {prev : Option UInt16} {t w : Text} :
    w ∈ run .boundary prev t ↔ ∃ rest, t = w ++ rest ∧ Match .boundary prev w rest := by
  simp only [match_boundary]
  constructor
  · intro h
    by_cases hb : wordAt prev = wordAt t.head?
    · simp [run, hb] at h
    · obtain rfl : w = [] := by simpa [run, hb] using h
      exact ⟨t, rfl, rfl, hb⟩
  · rintro ⟨rest, rfl, rfl, hb⟩
    rw [List.nil_append]
    simp [run, hb]

theorem mem_run {r : Regex} {prev : Option UInt16} {t w : Text} :
    w ∈ run r prev t ↔ ∃ rest, t = w ++ rest ∧ Match r prev w rest := by
  induction r generalizing prev t w with
  | empty =>
    simp only [run, List.mem_singleton, match_empty]
    exact ⟨fun h => ⟨t, by simp [h], h⟩, fun ⟨_, _, h⟩ => h⟩
  | unit p => exact mem_run_unit
  | seq r s ihr ihs =>
    simp only [run, List.mem_flatMap, List.mem_map, match_seq]
    constructor
    · rintro ⟨u, hu, v, hv, rfl⟩
      obtain ⟨rest, rfl, hmu⟩ := ihr.mp hu
      rw [List.drop_left] at hv
      obtain ⟨rest', rfl, hmv⟩ := ihs.mp hv
      exact ⟨rest', by simp, u, v, rfl, hmu, hmv⟩
    · rintro ⟨rest, rfl, u, v, rfl, hmu, hmv⟩
      refine ⟨u, ihr.mpr ⟨v ++ rest, by simp, hmu⟩, v, ?_, rfl⟩
      have hdrop : (u ++ v ++ rest).drop u.length = v ++ rest := by simp
      exact hdrop ▸ ihs.mpr ⟨rest, rfl, hmv⟩
  | alt r s ihr ihs =>
    simp only [run, List.mem_append, ihr, ihs, match_alt]
    constructor
    · rintro (⟨rest, ht, h⟩ | ⟨rest, ht, h⟩)
      · exact ⟨rest, ht, .inl h⟩
      · exact ⟨rest, ht, .inr h⟩
    · rintro ⟨rest, ht, h | h⟩
      · exact .inl ⟨rest, ht, h⟩
      · exact .inr ⟨rest, ht, h⟩
  | star r ih => exact mem_iterate (fun _ _ _ => ih) t.length prev t w (Nat.le_refl _)
  | boundary => exact mem_run_boundary
  | behind p =>
    simp only [run, match_behind]
    by_cases hp : prev.any p = true
    · simp only [hp, if_true, List.mem_singleton, and_true]
      exact ⟨fun h => ⟨t, by simp [h], h⟩, fun ⟨_, _, h⟩ => h⟩
    · simp [hp]

theorem run_prefix {r : Regex} {prev : Option UInt16} {t w : Text} (h : w ∈ run r prev t) :
    ∃ rest, t = w ++ rest := by
  obtain ⟨rest, ht, -⟩ := mem_run.mp h
  exact ⟨rest, ht⟩

/-! What an expression takes inside a text does not depend on what follows the text. -/

theorem iterate_nil_text {step : Option UInt16 → Text → List Text}
    (hstep : ∀ prev t u, u ∈ step prev t → ∃ rest, t = u ++ rest) (n : Nat)
    (prev : Option UInt16) : iterate step n prev [] = [[]] := by
  cases n with
  | zero => rfl
  | succ n =>
    have hnone : (step prev []).filter (· ≠ []) = [] := by
      refine List.filter_eq_nil_iff.mpr fun u hu => ?_
      obtain ⟨rest, ht⟩ := hstep prev [] u hu
      simp [(List.append_eq_nil_iff.mp ht.symm).1]
    rw [iterate, hnone]
    rfl

/-- Any fuel that covers the text gives the same repetitions. -/
theorem iterate_fuel {step : Option UInt16 → Text → List Text}
    (hstep : ∀ prev t u, u ∈ step prev t → ∃ rest, t = u ++ rest) (n m : Nat)
    (prev : Option UInt16) (t : Text) (hn : t.length ≤ n) (hm : t.length ≤ m) :
    iterate step n prev t = iterate step m prev t := by
  induction n generalizing m prev t with
  | zero =>
    obtain rfl : t = [] := List.length_eq_zero_iff.mp (by omega)
    simp only [iterate_nil_text hstep]
  | succ n ih =>
    cases m with
    | zero =>
      obtain rfl : t = [] := List.length_eq_zero_iff.mp (by omega)
      simp only [iterate_nil_text hstep]
    | succ m =>
      simp only [iterate]
      congr 1
      refine List.flatMap_congr fun u hu => ?_
      simp only [List.mem_filter, decide_eq_true_eq] at hu
      have hpos : 0 < u.length := List.length_pos_iff.mpr hu.2
      rw [ih m (after prev u) (t.drop u.length)] <;> simp only [List.length_drop] <;> omega

theorem flatMap_filter_of_nil {α β : Type} {l : List α} {f : α → List β} {p : α → Bool}
    (h : ∀ u ∈ l, p u = false → f u = []) : l.flatMap f = (l.filter p).flatMap f := by
  induction l with
  | nil => rfl
  | cons u l ih =>
    have ih' := ih fun v hv => h v (List.mem_cons_of_mem u hv)
    cases hu : p u with
    | true => simp [hu, ih']
    | false => simp [hu, ih', h u (by simp) hu]

/-- One step of a sequence, kept to the consumptions that stay inside `a`. -/
theorem flatMap_within {xs xs' : List Text} {k j : Text → Text → List Text}
    {a s s' : Text}
    (hxs : xs.filter (·.length ≤ a.length) = xs'.filter (·.length ≤ a.length))
    (hpre : ∀ u ∈ xs, ∃ rest, a ++ s = u ++ rest)
    (hk : ∀ u a', a = u ++ a' → u ∈ xs → (k u (a' ++ s)).filter (·.length ≤ a'.length) =
      (j u (a' ++ s')).filter (·.length ≤ a'.length)) :
    (xs.flatMap fun u => (k u ((a ++ s).drop u.length)).map (u ++ ·)).filter
        (·.length ≤ a.length) =
      (xs'.flatMap fun u => (j u ((a ++ s').drop u.length)).map (u ++ ·)).filter
        (·.length ≤ a.length) := by
  have long (u : Text) (l : List Text) (hu : decide (u.length ≤ a.length) = false) :
      (l.map (u ++ ·)).filter (·.length ≤ a.length) = [] := by
    refine List.filter_eq_nil_iff.mpr fun w hw => ?_
    obtain ⟨v, -, rfl⟩ := List.mem_map.mp hw
    simp only [decide_eq_false_iff_not, List.length_append, decide_eq_true_eq] at hu ⊢
    omega
  rw [List.filter_flatMap, List.filter_flatMap,
    flatMap_filter_of_nil fun u _ hu => long u _ hu, hxs,
    flatMap_filter_of_nil (l := xs') fun u _ hu => long u _ hu]
  refine List.flatMap_congr fun u hu => ?_
  rw [← hxs] at hu
  obtain ⟨hmem, hlen⟩ := List.mem_filter.mp hu
  simp only [decide_eq_true_eq] at hlen
  obtain ⟨rest, hrest⟩ := hpre u hmem
  obtain ⟨a', ha⟩ : ∃ a', a = u ++ a' := by
    refine ⟨a.drop u.length, ?_⟩
    have := congrArg (List.take u.length) hrest
    rw [List.take_append_of_le_length hlen, List.take_left] at this
    conv_lhs => rw [← List.take_append_drop u.length a, this]
  have hcomp : ((fun w : Text => decide (w.length ≤ a.length)) ∘ fun v => u ++ v) =
      fun v => decide (v.length ≤ a'.length) := by
    funext v
    simp [ha]
  rw [List.filter_map, List.filter_map, hcomp]
  simp only [ha, List.append_assoc, List.drop_left]
  rw [hk u a' ha hmem]

theorem run_within {s s' : Text} (hw : wordAt s.head? = wordAt s'.head?) (r : Regex)
    (prev : Option UInt16) (a : Text) :
    (run r prev (a ++ s)).filter (·.length ≤ a.length) =
      (run r prev (a ++ s')).filter (·.length ≤ a.length) := by
  induction r generalizing prev a with
  | empty => rfl
  | unit p =>
    cases a with
    | nil =>
      have hnil (t : Text) : (run (.unit p) prev t).filter (·.length ≤ ([] : Text).length) = [] := by
        refine List.filter_eq_nil_iff.mpr fun u hu => ?_
        obtain ⟨rest, -, hm⟩ := mem_run.mp hu
        obtain ⟨c, -, rfl⟩ := match_unit.mp hm
        simp
      rw [hnil, hnil]
    | cons c a => rfl
  | seq r q ihr ihq =>
    exact flatMap_within (k := fun u => run q (after prev u)) (j := fun u => run q (after prev u))
      (ihr prev a) (fun u hu => run_prefix hu) fun u a' _ _ => ihq _ a'
  | alt r q ihr ihq => simp only [run, List.filter_append, ihr prev a, ihq prev a]
  | star r ih =>
    have hstep : ∀ prev t u, u ∈ run r prev t → ∃ rest, t = u ++ rest :=
      fun _ _ _ h => run_prefix h
    have hsame (n : Nat) : ∀ prev a,
        (iterate (run r) n prev (a ++ s)).filter (·.length ≤ a.length) =
          (iterate (run r) n prev (a ++ s')).filter (·.length ≤ a.length) := by
      induction n with
      | zero => intros; rfl
      | succ n ihn =>
        intro prev a
        simp only [iterate, List.filter_append]
        congr 1
        refine flatMap_within (k := fun u => iterate (run r) n (after prev u))
          (j := fun u => iterate (run r) n (after prev u)) ?_ ?_ fun u a' _ _ => ihn _ a'
        · rw [List.filter_comm, ih, List.filter_comm]
        · exact fun u hu => run_prefix (List.mem_filter.mp hu).1
    simp only [run]
    rw [iterate_fuel hstep (a ++ s).length ((a ++ s).length + (a ++ s').length)
        prev _ (Nat.le_refl _) (by omega), hsame,
      iterate_fuel hstep (a ++ s').length ((a ++ s).length + (a ++ s').length)
        prev _ (Nat.le_refl _) (by omega)]
  | boundary =>
    cases a with
    | nil => simp only [List.nil_append, run, hw]
    | cons c a => rfl
  | behind p => rfl

/-- Two continuations that no match enters leave an expression the same choices. -/
theorem run_append_eq {r : Regex} {prev : Option UInt16} {a s s' : Text}
    (hw : wordAt s.head? = wordAt s'.head?)
    (h : ∀ w rest, a ++ s = w ++ rest → Match r prev w rest → w.length ≤ a.length)
    (h' : ∀ w rest, a ++ s' = w ++ rest → Match r prev w rest → w.length ≤ a.length) :
    run r prev (a ++ s) = run r prev (a ++ s') := by
  have all {t : Text}
      (ht : ∀ w rest, a ++ t = w ++ rest → Match r prev w rest → w.length ≤ a.length) :
      (run r prev (a ++ t)).filter (·.length ≤ a.length) = run r prev (a ++ t) := by
    refine List.filter_eq_self.mpr fun w hmem => ?_
    obtain ⟨rest, hrest, hm⟩ := mem_run.mp hmem
    simpa using ht w rest hrest hm
  rw [← all h, run_within hw, all h']

/-! An expression that takes no code unit `d` never looks past one. -/

def rejects : Regex → UInt16 → Bool
  | .empty, _ | .boundary, _ | .behind _, _ => true
  | .unit p, d => !p d
  | .seq r s, d | .alt r s, d => rejects r d && rejects s d
  | .star r, d => rejects r d

theorem Match.not_mem {r : Regex} {prev : Option UInt16} {w rest : Text} {d : UInt16}
    (h : Match r prev w rest) (hd : r.rejects d = true) : d ∉ w := by
  induction h with
  | empty | starNil | boundary _ | behind _ => simp
  | unit hp =>
    simp only [rejects, Bool.not_eq_true'] at hd
    simp only [List.mem_singleton]
    rintro rfl
    simp [hp] at hd
  | seq _ _ ihr ihs =>
    simp only [rejects, Bool.and_eq_true] at hd
    simp [ihr hd.1, ihs hd.2]
  | altL _ ih =>
    simp only [rejects, Bool.and_eq_true] at hd
    exact ih hd.1
  | altR _ ih =>
    simp only [rejects, Bool.and_eq_true] at hd
    exact ih hd.2
  | starCons _ _ _ ihu ihv =>
    have hr := ihu (by simpa [rejects] using hd)
    simp [hr, ihv hd]

/-- The text `s` starts with nothing that `r` could take. -/
def Stops (r : Regex) (s : Text) : Prop := ∀ d ∈ s.head?, r.rejects d = true

theorem Match.length_le_of_stops {r : Regex} {prev : Option UInt16} {w rest a s : Text}
    (h : Match r prev w rest) (hs : r.Stops s) (ht : a ++ s = w ++ rest) :
    w.length ≤ a.length := by
  rcases List.append_eq_append_iff.mp ht with ⟨c, hw, hrest⟩ | ⟨c, ha, -⟩
  · cases c with
    | nil => simp [hw]
    | cons d c =>
      have hd : r.rejects d = true := hs d (by simp [hrest])
      exact absurd (by simp [hw]) (h.not_mem hd)
  · simp [ha]

theorem run_stop {r : Regex} {s s' : Text} (hs : r.Stops s) (hs' : r.Stops s')
    (hw : wordAt s.head? = wordAt s'.head?) (prev : Option UInt16) (a : Text) :
    run r prev (a ++ s) = run r prev (a ++ s') :=
  run_append_eq hw (fun _ _ ht hm => hm.length_le_of_stops hs ht)
    (fun _ _ ht hm => hm.length_le_of_stops hs' ht)

/-! The only contexts a match depends on are the word borders, unless it looks behind. -/

def looksBehind : Regex → Bool
  | .empty | .boundary | .unit _ => false
  | .behind _ => true
  | .seq r s | .alt r s => looksBehind r || looksBehind s
  | .star r => looksBehind r

theorem Match.context {r : Regex} {prev prev' : Option UInt16} {w rest rest' : Text}
    (h : Match r prev w rest) (hr : r.looksBehind = false) (hp : wordAt prev = wordAt prev')
    (hs : wordAt rest.head? = wordAt rest'.head?) : Match r prev' w rest' := by
  induction h generalizing prev' rest' with
  | empty => exact .empty
  | unit hc => exact .unit hc
  | @seq r s prev u v rest _ _ ihr ihs =>
    simp only [looksBehind, Bool.or_eq_false_iff] at hr
    refine .seq (ihr hr.1 hp ?_) (ihs hr.2 ?_ hs)
    · cases v <;> simp [hs]
    · cases u with
      | nil => exact hp
      | cons c u => simp
  | altL _ ih =>
    simp only [looksBehind, Bool.or_eq_false_iff] at hr
    exact .altL (ih hr.1 hp hs)
  | altR _ ih =>
    simp only [looksBehind, Bool.or_eq_false_iff] at hr
    exact .altR (ih hr.2 hp hs)
  | starNil => exact .starNil
  | @starCons r prev u v rest hne _ _ ihr ihs =>
    refine .starCons hne (ihr (by simpa [looksBehind] using hr) hp ?_) (ihs hr ?_ hs)
    · cases v <;> simp [hs]
    · cases u with
      | nil => exact absurd rfl hne
      | cons c u => simp
  | boundary hb => exact .boundary (by rwa [← hp, ← hs])
  | behind _ => simp [looksBehind] at hr

/-! An expression that is not nullable takes at least one code unit. -/

def nullable : Regex → Bool
  | .empty | .boundary | .behind _ | .star _ => true
  | .unit _ => false
  | .seq r s => nullable r && nullable s
  | .alt r s => nullable r || nullable s

theorem Match.ne_nil {r : Regex} {prev : Option UInt16} {w rest : Text} (h : Match r prev w rest)
    (hr : r.nullable = false) : w ≠ [] := by
  induction h with
  | empty | starNil | boundary _ | behind _ | starCons _ _ _ _ _ => simp [nullable] at hr
  | unit _ => simp
  | seq _ _ ihr ihs =>
    simp only [nullable, Bool.and_eq_false_iff] at hr
    rcases hr with hr | hr
    · simp [ihr hr]
    · simp [ihs hr]
  | altL _ ih | altR _ ih =>
    simp only [nullable, Bool.or_eq_false_iff] at hr
    first | exact ih hr.1 | exact ih hr.2

end Regex
end Js
