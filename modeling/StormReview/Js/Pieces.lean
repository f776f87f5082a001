import StormReview.Js.Scan

/-! How the matches of one search lie to those of another over the same text. -/
namespace Js

/-- `P` holds at every position inside `u`, of the code unit before it and the text from it on. -/
def Along (P : Option UInt16 → Text → Prop) (prev : Option UInt16) (u t : Text) : Prop :=
  ∀ a b, u = a ++ b → b ≠ [] → P (after prev a) (b ++ t)

section along
variable {P : Option UInt16 → Text → Prop} {prev : Option UInt16} {c : UInt16} {u v t : Text}

theorem Along.nil : Along P prev [] t := fun _ _ hu hb =>
  absurd (List.append_eq_nil_iff.mp hu.symm).2 hb

theorem Along.cons (hc : P prev (c :: (u ++ t))) (h : Along P (some c) u t) :
    Along P prev (c :: u) t := by
  intro a b hu hb
  cases a with
  | nil =>
    obtain rfl : c :: u = b := hu
    exact hc
  | cons d a =>
    simp only [List.cons_append, List.cons.injEq] at hu
    obtain ⟨rfl, hu⟩ := hu
    exact h a b hu hb

theorem Along.head (h : Along P prev (c :: u) t) : P prev (c :: (u ++ t)) :=
  h [] (c :: u) rfl (by simp)

theorem Along.tail (h : Along P prev (c :: u) t) : Along P (some c) u t :=
  fun a b hu hb => h (c :: a) b (by rw [hu, List.cons_append]) hb

theorem Along.append (hu : Along P prev u (v ++ t)) (hv : Along P (after prev u) v t) :
    Along P prev (u ++ v) t := by
  induction u generalizing prev with
  | nil => exact hv
  | cons c u ih =>
    have hc := hu.head
    rw [← List.append_assoc] at hc
    exact Along.cons hc (ih hu.tail hv)

end along

section tokens
variable {γ : Type} {m : Matcher γ}

/-- The stretch before the first match. -/
def lead (m : Matcher γ) (prev : Option UInt16) (t : Text) : Text := (cut (tokens m prev t)).1

/-- The stretches that each follow a match. -/
def rests (m : Matcher γ) (prev : Option UInt16) (t : Text) : List Text :=
  (cut (tokens m prev t)).2

@[simp] theorem lead_nil (prev : Option UInt16) : lead m prev [] = [] := rfl
@[simp] theorem rests_nil (prev : Option UInt16) : rests m prev [] = [] := rfl

theorem pieces_eq (t : Text) : pieces m t = lead m none t :: rests m none t := rfl

theorem lead_plain {prev : Option UInt16} {c : UInt16} {t : Text} (h : m prev (c :: t) = none) :
    lead m prev (c :: t) = c :: lead m (some c) t := by
  rw [lead, tokens_plain h, cut, lead]

theorem rests_plain {prev : Option UInt16} {c : UInt16} {t : Text} (h : m prev (c :: t) = none) :
    rests m prev (c :: t) = rests m (some c) t := by
  rw [rests, tokens_plain h, cut, rests]

theorem lead_hit {prev : Option UInt16} {w t : Text} {g : γ} (hw : w ≠ [])
    (h : m prev (w ++ t) = some (w, g)) : lead m prev (w ++ t) = [] := by
  rw [lead, tokens_hit hw h, cut]

theorem rests_hit {prev : Option UInt16} {w t : Text} {g : γ} (hw : w ≠ [])
    (h : m prev (w ++ t) = some (w, g)) :
    rests m prev (w ++ t) = lead m (after prev w) t :: rests m (after prev w) t := by
  rw [rests, tokens_hit hw h, cut, lead, rests]

/-- Nothing is taken at any position inside `u`. -/
abbrev Idle (m : Matcher γ) : Option UInt16 → Text → Text → Prop :=
  Along fun prev t => m prev t = none

theorem tokens_idle {prev : Option UInt16} {u t : Text} (h : Idle m prev u t) :
    tokens m prev (u ++ t) = u.map .plain ++ tokens m (after prev u) t := by
  induction u generalizing prev with
  | nil => rfl
  | cons c u ih =>
    rw [List.cons_append, tokens_plain h.head, ih h.tail]
    rfl

theorem cut_plains (u : Text) (toks : List (Token γ)) :
    cut (u.map .plain ++ toks) = (u ++ (cut toks).1, (cut toks).2) := by
  induction u with
  | nil => rfl
  | cons c u ih => simp [cut, ih]

theorem lead_idle {prev : Option UInt16} {u t : Text} (h : Idle m prev u t) :
    lead m prev (u ++ t) = u ++ lead m (after prev u) t := by
  rw [lead, tokens_idle h, cut_plains, lead]

theorem rests_idle {prev : Option UInt16} {u t : Text} (h : Idle m prev u t) :
    rests m prev (u ++ t) = rests m (after prev u) t := by
  rw [rests, tokens_idle h, cut_plains, rests]

theorem render_plains (f : Text → γ → Text) (u : Text) (toks : List (Token γ)) :
    render f (u.map .plain ++ toks) = u ++ render f toks := by
  induction u with
  | nil => rfl
  | cons c u ih => simp [render, ih]

/-- A text begins with its first stretch, and a match follows that unless it is all there is. -/
theorem eq_lead_append (hm : m.Proper) (prev : Option UInt16) (t : Text) :
    ∃ s, t = lead m prev t ++ s ∧ Idle m prev (lead m prev t) s ∧
      (s = [] ∨ ∃ wg, m (after prev (lead m prev t)) s = some wg) := by
  refine hm.induction (motive := fun prev t => ∃ s, t = lead m prev t ++ s ∧
    Idle m prev (lead m prev t) s ∧
      (s = [] ∨ ∃ wg, m (after prev (lead m prev t)) s = some wg)) ?_ ?_ ?_ prev t
  · exact fun prev => ⟨[], rfl, Along.nil, .inl rfl⟩
  · rintro prev c t h ⟨s, hs, hidle, hm⟩
    rw [lead_plain h]
    refine ⟨s, by rw [List.cons_append, ← hs], Along.cons ?_ hidle, hm⟩
    rwa [← hs]
  · intro prev w t g hw h _
    rw [lead_hit hw h]
    exact ⟨w ++ t, rfl, Along.nil, .inr ⟨(w, g), h⟩⟩

theorem lead_of_no_rests (hm : m.Proper) {prev : Option UInt16} {s : Text} (h : rests m prev s = []) :
    lead m prev s = s := by
  refine hm.induction (motive := fun prev s => rests m prev s = [] →
    lead m prev s = s) ?_ ?_ ?_ prev s h
  · exact fun _ _ => rfl
  · intro prev c s hplain ih h
    rw [rests_plain hplain] at h
    rw [lead_plain hplain, ih h]
  · intro prev w s g hw hhit _ h
    rw [rests_hit hw hhit] at h
    cases h

/-- The last stretch goes on to the end of the text. -/
theorem last_stretch (hm : m.Proper) (prev : Option UInt16) (s : Text) {ps : List Text} {x : Text}
    (h : lead m prev s :: rests m prev s = ps ++ [x]) : ∃ y, s = y ++ x := by
  refine hm.induction (motive := fun prev s => ∀ ps,
    lead m prev s :: rests m prev s = ps ++ [x] → ∃ y, s = y ++ x) ?_ ?_ ?_ prev s ps h
  · intro prev ps h
    have hx : x ∈ [([] : Text)] := by
      rw [lead_nil, rests_nil] at h
      simp [h]
    exact ⟨[], by simpa using hx⟩
  · intro prev c s hplain ih ps h
    rw [lead_plain hplain, rests_plain hplain] at h
    cases ps with
    | cons p ps =>
      obtain ⟨-, h⟩ := List.cons.inj h
      obtain ⟨y, rfl⟩ := ih (lead m (some c) s :: ps) (congrArg _ h)
      exact ⟨c :: y, rfl⟩
    | nil =>
      obtain ⟨rfl, hrests⟩ := List.cons.inj h
      rw [lead_of_no_rests hm hrests]
      exact ⟨[], rfl⟩
  · intro prev w s g hw hhit ih ps h
    rw [lead_hit hw hhit, rests_hit hw hhit] at h
    cases ps with
    | nil => simp at h
    | cons p ps =>
      obtain ⟨y, rfl⟩ := ih ps (List.cons.inj h).2
      exact ⟨w ++ y, by simp⟩

theorem hits_eq_zero (hm : m.Proper) (prev : Option UInt16) (t : Text) :
    hits (tokens m prev t) = 0 ↔ ∀ a b, t = a ++ b → m (after prev a) b = none := by
  refine hm.induction (motive := fun prev t =>
    hits (tokens m prev t) = 0 ↔ ∀ a b, t = a ++ b → m (after prev a) b = none) ?_ ?_ ?_ prev t
  · intro prev
    refine ⟨fun _ a b h => ?_, fun _ => rfl⟩
    obtain ⟨rfl, rfl⟩ := List.append_eq_nil_iff.mp h.symm
    exact hm.none_nil _
  · intro prev c t h ih
    rw [tokens_plain h, hits, ih]
    constructor
    · intro hall a b hab
      cases a with
      | nil =>
        obtain rfl : c :: t = b := hab
        exact h
      | cons d a =>
        simp only [List.cons_append, List.cons.injEq] at hab
        obtain ⟨rfl, hab⟩ := hab
        exact hall a b hab
    · exact fun hall a b hab => hall (c :: a) b (by rw [hab, List.cons_append])
  · intro prev w t g hw h _
    rw [tokens_hit hw h, hits]
    refine ⟨fun hz => by omega, fun hall => ?_⟩
    have hnone : m prev (w ++ t) = none := hall [] _ rfl
    rw [h] at hnone
    exact absurd hnone (by simp)

/-- The only thing a search reads of the context is its word border. -/
def Matcher.Bordered (m : Matcher γ) : Prop :=
  ∀ {prev prev' : Option UInt16} (t : Text), wordAt prev = wordAt prev' → m prev t = m prev' t

theorem tokens_context (hb : m.Bordered) {prev prev' : Option UInt16}
    (hp : wordAt prev = wordAt prev') (t : Text) : tokens m prev t = tokens m prev' t := by
  cases t with
  | nil => rfl
  | cons c t => simp only [tokens, scan, hb (c :: t) hp]

theorem lead_context (hb : m.Bordered) {prev prev' : Option UInt16}
    (hp : wordAt prev = wordAt prev') (t : Text) : lead m prev t = lead m prev' t := by
  rw [lead, tokens_context hb hp, lead]

theorem rests_context (hb : m.Bordered) {prev prev' : Option UInt16}
    (hp : wordAt prev = wordAt prev') (t : Text) : rests m prev t = rests m prev' t := by
  rw [rests, tokens_context hb hp, rests]

/-- What is appended to a text changes none of its matches, where the search takes no notice. -/
theorem tokens_append (hm : m.Proper) {s : Text} (hs : ∀ prev a, m prev (a ++ s) = m prev a)
    (prev : Option UInt16) (a : Text) :
    tokens m prev (a ++ s) = tokens m prev a ++ tokens m (after prev a) s := by
  refine hm.induction (motive := fun prev a =>
    tokens m prev (a ++ s) = tokens m prev a ++ tokens m (after prev a) s) ?_ ?_ ?_ prev a
  · exact fun _ => rfl
  · intro prev c a h ih
    have h' : m prev (c :: (a ++ s)) = none := by rw [← List.cons_append, hs, h]
    rw [List.cons_append, tokens_plain h', tokens_plain h, ih]
    rfl
  · intro prev w a g hw h ih
    have h' : m prev (w ++ (a ++ s)) = some (w, g) := by rw [← List.append_assoc, hs, h]
    rw [List.append_assoc, tokens_hit hw h', tokens_hit hw h, ih, after_append]
    rfl

/-- What is appended to a text and takes part in no match ends up in the last piece. -/
theorem pieces_append (hm : m.Proper) {s : Text} (hidle : ∀ prev, Idle m prev s [])
    (hs : ∀ prev a, m prev (a ++ s) = m prev a) (prev : Option UInt16) (a : Text) :
    ∃ ps x, lead m prev a :: rests m prev a = ps ++ [x] ∧
      lead m prev (a ++ s) :: rests m prev (a ++ s) = ps ++ [x ++ s] := by
  obtain ⟨ps, x, hps, hps'⟩ := cut_append (tokens m prev a) (tokens m (after prev a) s)
  have hcut : cut (tokens m (after prev a) s) = (s, []) := by
    have htokens := tokens_idle (hidle (after prev a))
    rw [List.append_nil, tokens_nil] at htokens
    rw [htokens, cut_plains, cut, List.append_nil]
  rw [hcut] at hps'
  exact ⟨ps, x, hps, by rw [lead, rests, tokens_append hm hs, hps']⟩

end tokens

namespace Regex

theorem iterate_context {step : Option UInt16 → Text → List Text}
    {prev prev' : Option UInt16} (hstep : ∀ t, step prev t = step prev' t) (n : Nat) (t : Text) :
    iterate step n prev t = iterate step n prev' t := by
  cases n with
  | zero => rfl
  | succ n =>
    simp only [iterate, hstep t]
    congr 1
    refine List.flatMap_congr fun u hu => ?_
    have hne : u ≠ [] := by simpa using (List.mem_filter.mp hu).2
    rw [after_of_ne_nil prev prev' hne]

theorem wordAt_after {prev prev' : Option UInt16} (hp : wordAt prev = wordAt prev') (u : Text) :
    wordAt (after prev u) = wordAt (after prev' u) := by
  cases u with
  | nil => exact hp
  | cons c u => rfl

theorem run_context {r : Regex} (hr : r.looksBehind = false) {prev prev' : Option UInt16}
    (hp : wordAt prev = wordAt prev') (t : Text) : r.run prev t = r.run prev' t := by
  induction r generalizing prev prev' t with
  | empty | unit _ => rfl
  | seq r s ihr ihs =>
    simp only [looksBehind, Bool.or_eq_false_iff] at hr
    simp only [run, ihr hr.1 hp]
    exact List.flatMap_congr fun u _ => by rw [ihs hr.2 (wordAt_after hp u)]
  | alt r s ihr ihs =>
    simp only [looksBehind, Bool.or_eq_false_iff] at hr
    simp only [run, ihr hr.1 hp, ihs hr.2 hp]
  | star r ih => exact iterate_context (fun t => ih hr hp t) ..
  | boundary => simp only [run, hp]
  | behind _ => simp [looksBehind] at hr

theorem first_bordered {r : Regex} (hr : r.looksBehind = false) : r.first.Bordered :=
  fun t hp => by simp only [first, run_context hr hp]

theorem group_bordered {r s : Regex} (hr : r.looksBehind = false) (hs : s.looksBehind = false) :
    (r.group s).Bordered := fun t hp => by
  simp only [group, run_context hr hp]
  congr 1
  exact List.flatMap_congr fun u _ => by rw [run_context hs (wordAt_after hp u)]

theorem test_eq_false_iff {r : Regex} {prev : Option UInt16} {t : Text} :
    testFrom r prev t = false ↔ ∀ a b, t = a ++ b → r.run (after prev a) b = [] := by
  rw [← Bool.not_eq_true, testFrom_iff]
  constructor
  · intro h a b hab
    by_contra hne
    obtain ⟨w, rest, rfl, hm⟩ := run_ne_nil.mp hne
    exact h ⟨a, w, rest, hab, hm⟩
  · rintro h ⟨a, w, b, hab, hm⟩
    exact run_ne_nil.mpr ⟨w, b, rfl, hm⟩ (h a (w ++ b) hab)

/-! A match that ends in a word character is the same at the end of a text as before anything
that follows a text with a border. -/

theorem Match.extend {r : Regex} (hr : r.looksBehind = false) {prev : Option UInt16}
    {w rest s : Text} (h : Match r prev w rest) (hw : wordAt (after prev w) = true)
    (hs : s = [] ∨ wordAt (after prev (w ++ rest)) = false) : Match r prev w (rest ++ s) := by
  rcases hs with rfl | hs
  · simpa using h
  cases rest with
  | nil => simp [hw] at hs
  | cons c rest => exact h.context hr rfl rfl

theorem Match.restrict {r : Regex} (hr : r.looksBehind = false) {prev : Option UInt16}
    {w rest s : Text} (h : Match r prev w (rest ++ s)) (hw : wordAt (after prev w) = true)
    (hs : s = [] ∨ wordAt (after prev (w ++ rest)) = false) : Match r prev w rest := by
  rcases hs with rfl | hs
  · simpa using h
  cases rest with
  | nil => simp [hw] at hs
  | cons c rest => exact h.context hr rfl rfl

theorem testFrom_nil {r : Regex} (hn : r.nullable = false) (prev : Option UInt16) :
    testFrom r prev [] = false := by
  refine Bool.eq_false_iff.mpr fun h => ?_
  obtain ⟨a, w, b, hab, hm⟩ := testFrom_iff.mp h
  exact hm.ne_nil hn (List.append_eq_nil_iff.mp (List.append_eq_nil_iff.mp hab.symm).2).1

/-- Whether a match could end with the code unit `d`. -/
def canEnd : Regex → UInt16 → Bool
  | .empty, _ | .boundary, _ | .behind _, _ => false
  | .unit p, d => p d
  | .seq r s, d => canEnd s d || (nullable s && canEnd r d)
  | .alt r s, d => canEnd r d || canEnd s d
  | .star r, d => canEnd r d

theorem Match.not_end {r : Regex} {prev : Option UInt16} {w rest : Text} {d : UInt16}
    (h : Match r prev w rest) (hd : r.canEnd d = false) : w.getLast? ≠ some d := by
  induction h with
  | empty | starNil | boundary _ | behind _ => simp
  | unit hp =>
    rintro hlast
    obtain rfl := by simpa using hlast
    simp [canEnd, hp] at hd
  | @seq r s prev u v rest _ hs ihr ihs =>
    simp only [canEnd, Bool.or_eq_false_iff, Bool.and_eq_false_iff] at hd
    rw [List.getLast?_append]
    cases hv : v.getLast? with
    | some c => simpa [hv] using ihs hd.1
    | none =>
      have hnil : v = [] := List.getLast?_eq_none_iff.mp hv
      have hr : r.canEnd d = false := by
        refine hd.2.resolve_left fun hn => ?_
        exact hs.ne_nil hn hnil
      simpa using ihr hr
  | altL _ ih =>
    simp only [canEnd, Bool.or_eq_false_iff] at hd
    exact ih hd.1
  | altR _ ih =>
    simp only [canEnd, Bool.or_eq_false_iff] at hd
    exact ih hd.2
  | @starCons r prev u v rest _ _ _ ihu ihv =>
    rw [List.getLast?_append]
    cases hv : v.getLast? with
    | some c => simpa [hv] using ihv hd
    | none => simpa using ihu (by simpa [canEnd] using hd)

/-- A code unit that ends no match and is no word character may be left out at the end. -/
theorem run_concat {r : Regex} {d : UInt16} (hr : r.canEnd d = false) (hd : isWord d = false)
    (prev : Option UInt16) (a : Text) : r.run prev (a ++ [d]) = r.run prev a := by
  have key : r.run prev (a ++ [d]) = r.run prev (a ++ []) := by
    refine run_append_eq (by simp [hd]) (fun w rest ht hm => ?_) fun w rest ht _ => ?_
    · cases rest with
      | nil =>
        rw [List.append_nil] at ht
        exact absurd (by simp [← ht]) (hm.not_end hr)
      | cons c rest =>
        have := congrArg List.length ht
        simp only [List.length_append, List.length_cons, List.length_nil] at this
        omega
    · have := congrArg List.length ht
      simp only [List.length_append, List.length_nil] at this
      omega
  rwa [List.append_nil] at key

theorem testFrom_concat {r : Regex} {d : UInt16} (hn : r.nullable = false)
    (hr : r.canEnd d = false) (hd : isWord d = false) (prev : Option UInt16) (a : Text) :
    testFrom r prev (a ++ [d]) = testFrom r prev a := by
  induction a generalizing prev with
  | nil =>
    have hrun : r.run prev [d] = [] := by
      rw [← List.nil_append [d], run_concat hr hd]
      by_contra hne
      obtain ⟨w, rest, ht, hm⟩ := run_ne_nil.mp hne
      exact hm.ne_nil hn (List.append_eq_nil_iff.mp ht.symm).1
    have hone : testFrom r prev [d] = (r.run prev [d] != [] || testFrom r (some d) []) := rfl
    rw [List.nil_append, hone, hrun, testFrom_nil hn, testFrom_nil hn]
    rfl
  | cons c a ih =>
    have hrun := run_concat hr hd prev (c :: a)
    rw [List.cons_append] at hrun
    rw [List.cons_append, testFrom, testFrom, hrun, ih]

/-- No match of the expression starts inside `u`. -/
abbrev Silent (r : Regex) : Option UInt16 → Text → Text → Prop :=
  Along fun prev t => r.startsWith prev t = false

theorem testFrom_silent {r : Regex} {prev : Option UInt16} {u t : Text} (h : Silent r prev u t) :
    testFrom r prev (u ++ t) = testFrom r (after prev u) t := by
  induction u generalizing prev with
  | nil => rfl
  | cons c u ih =>
    have hc : r.startsWith prev (c :: (u ++ t)) = false := h.head
    rw [startsWith] at hc
    rw [List.cons_append, testFrom, hc, ih h.tail]
    rfl

/-- In another context a search only differs in what it finds at the start. -/
theorem testFrom_eq_start_or {r : Regex} (hn : r.nullable = false) (prev : Option UInt16)
    {border : Option UInt16} {t : Text} (h : r.startsWith border t = false) :
    testFrom r prev t = (r.startsWith prev t || testFrom r border t) := by
  cases t with
  | nil =>
    have hnil : r.startsWith prev [] = testFrom r prev [] := rfl
    rw [hnil, testFrom_nil hn, testFrom_nil hn, Bool.or_self]
  | cons c t =>
    rw [startsWith] at h
    rw [testFrom, testFrom, h, startsWith, Bool.false_or]

/-- Where the matches of `r` stay clear of those of a search `m`, they are the matches of `r`
in the stretches between. -/
theorem testFrom_pieces {γ : Type} {m : Matcher γ} (hm : m.Proper) {r : Regex}
    (hr : r.looksBehind = false) (hn : r.nullable = false) {border : Option UInt16}
    (hlead : ∀ prev t, r.startsWith prev t = r.startsWith prev (lead m prev t))
    (hhit : ∀ prev w t g, m prev (w ++ t) = some (w, g) →
      Silent r prev w t ∧ wordAt (after prev w) = wordAt border)
    (prev : Option UInt16) (t : Text) :
    testFrom r prev t =
      (testFrom r prev (lead m prev t) || (rests m prev t).any (testFrom r border)) := by
  refine hm.induction (motive := fun prev t => testFrom r prev t =
    (testFrom r prev (lead m prev t) || (rests m prev t).any (testFrom r border))) ?_ ?_ ?_ prev t
  · intro prev
    simp
  · intro prev c t h ih
    have hstart := hlead prev (c :: t)
    rw [lead_plain h] at hstart
    simp only [startsWith] at hstart
    rw [lead_plain h, rests_plain h, testFrom, testFrom, hstart, ih, Bool.or_assoc]
  · intro prev w t g hw h ih
    obtain ⟨hsilent, hborder⟩ := hhit prev w t g h
    rw [lead_hit hw h, rests_hit hw h, testFrom_silent hsilent, ih, testFrom_nil hn, List.any_cons,
      testFrom_context hr hborder (lead m (after prev w) t)]
    rfl

/-- A separator in brackets that the expression does not take keeps the matches in the parts. -/
theorem testFrom_join {r : Regex} (hr : r.looksBehind = false) (hn : r.nullable = false)
    {opening closing : UInt16} {inner : Text} (ho : r.rejects opening = true)
    (hc : r.rejects closing = true) (ho' : isWord opening = false) (hc' : isWord closing = false)
    (hi : testFrom r (some opening) inner = false) (prev : Option UInt16) (p : Text)
    (ps : List Text) :
    testFrom r prev (join (opening :: (inner ++ [closing])) (p :: ps)) =
      (testFrom r prev p || ps.any (test r)) := by
  induction ps generalizing prev p with
  | nil => simp [join]
  | cons q ps ih =>
    have hjoin : join (opening :: (inner ++ [closing])) (p :: q :: ps) =
        p ++ opening :: (inner ++ closing :: join (opening :: (inner ++ [closing])) (q :: ps)) := by
      simp [join, List.intercalate]
    rw [hjoin, testFrom_append_of_rejects hn ho ho', testFrom_append_of_rejects hn hc hc', hi, ih,
      testFrom_context hr (show wordAt (some closing) = wordAt none from hc') q]
    rfl

end Regex
end Js
