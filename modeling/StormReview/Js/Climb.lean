import Mathlib.Data.List.Induction
import StormReview.Js.Path

/-! What a path comes to: so many directories up, and then down through names. -/
namespace Js.Path

/-- A segment that names something. -/
structure IsName (seg : Text) : Prop where
  ne_nil : seg ≠ []
  ne_dot : seg ≠ dot
  ne_dots : seg ≠ dots
  noSlash : slash ∉ seg

/-- `ups` directories up, then down through `names`, the last one first. -/
@[ext] structure Climb where
  ups : Nat
  names : List Text
  deriving DecidableEq

namespace Climb

def here : Climb := { ups := 0, names := [] }

def step (c : Climb) (seg : Text) : Climb :=
  if seg = [] ∨ seg = dot then c
  else if seg = dots then
    match c.names with
    | [] => { c with ups := c.ups + 1 }
    | _ :: rest => { c with names := rest }
  else { c with names := seg :: c.names }

/-- First `c`, and from there `d`. -/
def andThen (c d : Climb) : Climb where
  ups := c.ups + (d.ups - c.names.length)
  names := d.names ++ c.names.drop d.ups

variable {c d : Climb} {seg : Text}

theorem step_skip (h : seg = [] ∨ seg = dot) : c.step seg = c := if_pos h

theorem step_name (h : IsName seg) : c.step seg = { c with names := seg :: c.names } := by
  rw [step, if_neg (not_or.mpr ⟨h.ne_nil, h.ne_dot⟩), if_neg h.ne_dots]

theorem step_dots : c.step dots =
    match c.names with
    | [] => { c with ups := c.ups + 1 }
    | _ :: rest => { c with names := rest } := by
  have hskip : ¬ (dots = [] ∨ dots = dot) := by decide
  rw [step, if_neg hskip, if_pos rfl]

/-- A segment without a slash is skipped, climbs, or is a name. -/
theorem segment_cases (h : slash ∉ seg) : (seg = [] ∨ seg = dot) ∨ seg = dots ∨ IsName seg := by
  by_cases hskip : seg = [] ∨ seg = dot
  · exact .inl hskip
  by_cases hdots : seg = dots
  · exact .inr (.inl hdots)
  obtain ⟨hnil, hdot⟩ := not_or.mp hskip
  exact .inr (.inr ⟨hnil, hdot, hdots, h⟩)

theorem andThen_step (h : slash ∉ seg) : (c.andThen d).step seg = c.andThen (d.step seg) := by
  rcases segment_cases h with hskip | rfl | hname
  · rw [step_skip hskip, step_skip hskip]
  · rw [step_dots, step_dots]
    cases hd : d.names with
    | cons n ns => simp [andThen, hd]
    | nil =>
      cases hdrop : c.names.drop d.ups with
      | nil =>
        have hlen : c.names.length ≤ d.ups := List.drop_eq_nil_iff.mp hdrop
        simp only [andThen, hd, hdrop, List.nil_append, Climb.mk.injEq]
        refine ⟨by omega, ?_⟩
        exact (List.drop_eq_nil_iff.mpr (by omega)).symm
      | cons n ns =>
        have hlt : d.ups < c.names.length := by
          by_contra hle
          rw [List.drop_eq_nil_iff.mpr (by omega)] at hdrop
          cases hdrop
        simp only [andThen, hd, hdrop, List.nil_append, Climb.mk.injEq]
        refine ⟨by omega, ?_⟩
        rw [← List.drop_drop, hdrop]
        rfl
  · rw [step_name hname, step_name hname]
    rfl

end Climb

/-- Where the segments lead. -/
def climb (segs : List Text) : Climb := segs.foldl Climb.step Climb.here

theorem climb_concat (segs : List Text) (seg : Text) : climb (segs ++ [seg]) =
    (climb segs).step seg := by
  rw [climb, List.foldl_append]
  rfl

theorem climb_append {segs segs' : List Text} (h : ∀ s ∈ segs', slash ∉ s) :
    climb (segs ++ segs') = (climb segs).andThen (climb segs') := by
  induction segs' using List.reverseRecOn with
  | nil => simp [climb, Climb.andThen, Climb.here]
  | append_singleton segs' seg ih =>
    rw [← List.append_assoc, climb_concat, climb_concat, ih fun s hs => h s (by simp [hs]),
      Climb.andThen_step (h seg (by simp))]

theorem climb_names {names : List Text} (h : ∀ n ∈ names, IsName n) :
    climb names = { ups := 0, names := names.reverse } := by
  induction names using List.reverseRecOn with
  | nil => rfl
  | append_singleton names n ih =>
    rw [climb_concat, ih fun m hm => h m (by simp [hm]), Climb.step_name (h n (by simp)),
      List.reverse_append]
    rfl

theorem climb_replicate_dots (k : Nat) :
    climb (List.replicate k dots) = { ups := k, names := [] } := by
  induction k with
  | zero => rfl
  | succ k ih => rw [List.replicate_succ', climb_concat, ih, Climb.step_dots]

theorem isName_climb {segs : List Text} (h : ∀ s ∈ segs, slash ∉ s) :
    ∀ n ∈ (climb segs).names, IsName n := by
  induction segs using List.reverseRecOn with
  | nil => simp [climb, Climb.here]
  | append_singleton segs seg ih =>
    have ih := ih fun s hs => h s (by simp [hs])
    rw [climb_concat]
    rcases Climb.segment_cases (h seg (by simp)) with hskip | rfl | hname
    · rwa [Climb.step_skip hskip]
    · rw [Climb.step_dots]
      cases hc : (climb segs).names with
      | nil => simp
      | cons n ns => exact fun m hm => ih m (by simp [hc, hm])
    · rw [Climb.step_name hname]
      intro n hn
      rcases List.mem_cons.mp hn with rfl | hn
      · exact hname
      · exact ih n hn

/-! The stack that normalising keeps, against the climb. -/

theorem push_skip {above : Bool} {segs : List Text} {seg : Text} (h : seg = [] ∨ seg = dot) :
    push above segs seg = segs := if_pos h

theorem push_name {above : Bool} {segs : List Text} {seg : Text} (h : IsName seg) :
    push above segs seg = seg :: segs := by
  have hskip : ¬ (seg = [] ∨ seg = dot) := not_or.mpr ⟨h.ne_nil, h.ne_dot⟩
  exact (if_neg hskip).trans (if_neg h.ne_dots)

theorem push_dots_nil (above : Bool) : push above [] dots = if above then [dots] else [] := rfl

theorem push_dots_name {above : Bool} {segs : List Text} {n : Text} (h : n ≠ dots) :
    push above (n :: segs) dots = segs := by
  have hskip : ¬ (dots = [] ∨ dots = dot) := by decide
  rw [push.eq_def, if_neg hskip, if_pos rfl]
  exact if_neg h

theorem push_dots_dots (segs : List Text) : push true (dots :: segs) dots = dots :: dots :: segs :=
  rfl

/-- The names lie on top of what the climb leaves of the stack below them: `left k` is that
stack once `k` directories have been climbed. -/
theorem foldl_push {above : Bool} (left : Nat → List Text)
    (hup : ∀ k, push above (left k) dots = left (k + 1)) {segs : List Text}
    (h : ∀ s ∈ segs, slash ∉ s) :
    segs.foldl (push above) (left 0) = (climb segs).names ++ left (climb segs).ups := by
  induction segs using List.reverseRecOn with
  | nil => rfl
  | append_singleton segs seg ih =>
    have hsegs : ∀ s ∈ segs, slash ∉ s := fun s hs => h s (by simp [hs])
    have hnames := isName_climb hsegs
    rw [List.foldl_append, ih hsegs, climb_concat]
    simp only [List.foldl_cons, List.foldl_nil]
    rcases Climb.segment_cases (h seg (by simp)) with hskip | rfl | hname
    · rw [Climb.step_skip hskip, push_skip hskip]
    · rw [Climb.step_dots]
      cases hc : (climb segs).names with
      | nil => exact hup _
      | cons n ns => exact push_dots_name (hnames n (by simp [hc])).ne_dots
    · rw [Climb.step_name hname, push_name hname]
      rfl

/-- Below a relative path the climb is kept in front of the names. -/
theorem foldl_push_true {segs : List Text} (h : ∀ s ∈ segs, slash ∉ s) :
    segs.foldl (push true) [] = (climb segs).names ++ List.replicate (climb segs).ups dots := by
  apply foldl_push (fun k => List.replicate k dots) ?_ h
  intro k
  cases k with
  | zero => exact push_dots_nil true
  | succ k => exact push_dots_dots _

/-- Below an absolute path the climb takes directories away, and stops at the root. -/
theorem foldl_push_false {segs base : List Text} (h : ∀ s ∈ segs, slash ∉ s)
    (hbase : ∀ n ∈ base, IsName n) :
    segs.foldl (push false) base = (climb segs).names ++ base.drop (climb segs).ups := by
  apply foldl_push (fun k => base.drop k) ?_ h
  intro k
  rw [← List.drop_drop]
  cases hd : base.drop k with
  | nil => rfl
  | cons n ns => exact push_dots_name (hbase n (List.mem_of_mem_drop (by rw [hd]; simp))).ne_dots

/-! Paths as text. -/

def segments (path : Text) : List Text := path.splitOn slash

theorem segments_slash (path : Text) : segments (slash :: path) = [] :: segments path := by
  rw [segments, List.splitOn_cons_eq_if_modifyHead, if_pos (beq_self_eq_true slash)]
  rfl

/-- A unit that is no slash goes to the first segment. -/
theorem segments_cons {c : UInt16} (hc : c ≠ slash) {path seg : Text} {segs : List Text}
    (h : segments path = seg :: segs) : segments (c :: path) = (c :: seg) :: segs := by
  have hne : ¬ (c == slash) = true := fun heq => hc (beq_iff_eq.mp heq)
  rw [segments] at h
  rw [segments, List.splitOn_cons_eq_if_modifyHead, if_neg hne, h, List.modifyHead_cons]

theorem segments_ne_nil (path : Text) : segments path ≠ [] := List.splitOn_ne_nil slash path

theorem noSlash_of_mem_segments {path seg : Text} (h : seg ∈ segments path) : slash ∉ seg := by
  induction path generalizing seg with
  | nil =>
    rw [List.mem_singleton.mp h]
    exact List.not_mem_nil
  | cons c path ih =>
    by_cases hc : c = slash
    · rw [hc, segments_slash] at h
      rcases List.mem_cons.mp h with rfl | h
      · exact List.not_mem_nil
      · exact ih h
    · obtain ⟨s, ss, hs⟩ := List.exists_cons_of_ne_nil (segments_ne_nil path)
      rw [segments_cons hc hs] at h
      rcases List.mem_cons.mp h with rfl | h
      · have hs : slash ∉ s := ih (by simp [hs])
        exact List.not_mem_cons_of_ne_of_not_mem (Ne.symm hc) hs
      · exact ih (by simp [hs, h])

theorem segments_append (path path' : Text) :
    segments (path ++ slash :: path') = segments path ++ segments path' :=
  List.splitOn_append_cons_self _ _

theorem segments_join {segs : List Text} (h : ∀ s ∈ segs, slash ∉ s) (hne : segs ≠ []) :
    segments (Js.join [slash] segs) = segs := List.splitOn_intercalate slash h hne

/-- What is appended without a slash goes to the last segment. -/
theorem segments_extend (path : Text) {ext : Text} (h : slash ∉ ext) :
    ∃ segs seg, segments path = segs ++ [seg] ∧ segments (path ++ ext) = segs ++ [seg ++ ext] := by
  induction path with
  | nil => exact ⟨[], [], rfl, List.splitOn_eq_singleton h⟩
  | cons c path ih =>
    obtain ⟨segs, seg, hpath, hext⟩ := ih
    by_cases hc : c = slash
    · subst hc
      refine ⟨[] :: segs, seg, ?_, ?_⟩
      · rw [segments_slash, hpath, List.cons_append]
      · rw [List.cons_append, segments_slash, hext, List.cons_append]
    · cases segs with
      | nil => exact ⟨[], c :: seg, segments_cons hc hpath, segments_cons hc hext⟩
      | cons s segs => exact ⟨(c :: s) :: segs, seg, segments_cons hc hpath, segments_cons hc hext⟩

/-- The absolute path down through `names`. -/
def absolute (names : List Text) : Text := slash :: Js.join [slash] names

/-- No slash is left at the end. -/
theorem getLast_join {segs : List Text} (h : ∀ s ∈ segs, slash ∉ s ∧ s ≠ []) :
    (Js.join [slash] segs).getLast? ≠ some slash := by
  induction segs with
  | nil => simp [Js.join]
  | cons s segs ih =>
    obtain ⟨hslash, hs⟩ := h s (by simp)
    cases segs with
    | nil =>
      intro hlast
      exact hslash (List.mem_of_mem_getLast? (by simpa [Js.join] using hlast))
    | cons s' segs =>
      have hne : Js.join [slash] (s' :: segs) ≠ [] :=
        mt (join_eq_nil_iff fun t ht => (h t (by simp [ht])).2).mp (by simp)
      have ih := ih fun t ht => h t (by simp [ht])
      simp only [Js.join, List.intercalate_cons_cons] at hne ih ⊢
      rwa [List.getLast?_append_of_ne_nil _ hne]

/-! Normalising. -/

/-- The climb of a relative path as segments again. -/
def Climb.segments (c : Climb) : List Text := List.replicate c.ups dots ++ c.names.reverse

theorem climb_segments {c : Climb} (h : ∀ n ∈ c.names, IsName n) : climb c.segments = c := by
  have hnames : ∀ n ∈ c.names.reverse, IsName n := by simpa using h
  rw [Climb.segments, climb_append fun s hs => (hnames s hs).noSlash, climb_replicate_dots,
    climb_names hnames]
  simp [Climb.andThen]

/-- A relative path that goes down to a name normalises to its climb. -/
theorem normalize_relative {path : Text} (hrel : isAbsolute path = false)
    (hdown : (climb (segments path)).names ≠ []) (hend : path.getLast? ≠ some slash) :
    normalize path = Js.join [slash] (climb (segments path)).segments := by
  have hpath : path ≠ [] := by
    rintro rfl
    exact hdown rfl
  have hslash : ∀ s ∈ segments path, slash ∉ s := fun s hs => noSlash_of_mem_segments hs
  have hnormal : normalSegments true path = (climb (segments path)).segments := by
    have hfold := foldl_push_true hslash
    rw [normalSegments, ← segments, hfold]
    simp [Climb.segments]
  have hne : (climb (segments path)).segments ≠ [] := by simp [Climb.segments, hdown]
  have hbody : Js.join [slash] (climb (segments path)).segments ≠ [] := by
    refine mt (join_eq_nil_iff fun s hs => ?_).mp hne
    rcases List.mem_append.mp hs with hs | hs
    · rw [List.eq_of_mem_replicate hs]
      decide
    · exact (isName_climb hslash s (by simpa using hs)).ne_nil
  have htrailing : (path.getLast? == some slash) = false := by simpa using hend
  rw [normalize, if_neg hpath]
  simp only [hrel, Bool.not_false, hnormal, Bool.false_eq_true, if_false, if_neg hbody, htrailing]

/-- Joined to an absolute path, a relative one is followed from there, and `..` stops at the
root. -/
theorem join_absolute {base : List Text} {path : Text} (hbase : ∀ n ∈ base, IsName n)
    (hrel : path ≠ []) (hdown : (climb (segments path)).names ≠ [])
    (hend : path.getLast? ≠ some slash) :
    join [absolute base, path] = absolute
      ((climb (segments path)).names ++ base.reverse.drop (climb (segments path)).ups).reverse := by
  have hslash : ∀ s ∈ segments path, slash ∉ s := fun s hs => noSlash_of_mem_segments hs
  have hfold : (segments (absolute base)).foldl (push false) [] = base.reverse := by
    have hall : (segments (absolute base)).foldl (push false) [] =
        (climb (segments (absolute base))).names ++ [].drop (climb (segments (absolute base))).ups :=
      foldl_push_false (fun s hs => noSlash_of_mem_segments hs) (by simp)
    have hclimb : climb (segments (absolute base)) = { ups := 0, names := base.reverse } := by
      have hsplit : segments (absolute base) = [] :: segments (Js.join [slash] base) :=
        segments_append [] _
      have hskip (segs : List Text) : climb ([] :: segs) = climb segs := rfl
      rw [hsplit, hskip]
      by_cases hnil : base = []
      · subst hnil
        rfl
      · rw [segments_join (fun n hn => (hbase n hn).noSlash) hnil, climb_names hbase]
    rw [hall, hclimb]
    simp
  have hjoined : Js.join [slash] [absolute base, path] = absolute base ++ slash :: path := by
    simp [Js.join, List.intercalate_cons_cons]
  have hnormal : normalSegments false (absolute base ++ slash :: path) =
      ((climb (segments path)).names ++ base.reverse.drop (climb (segments path)).ups).reverse := by
    rw [normalSegments, ← segments, segments_append, List.foldl_append, hfold,
      foldl_push_false hslash (by simpa using hbase)]
  have hbody : Js.join [slash] ((climb (segments path)).names ++
      base.reverse.drop (climb (segments path)).ups).reverse ≠ [] := by
    refine mt (join_eq_nil_iff fun s hs => ?_).mp (by simp [hdown])
    rcases List.mem_append.mp (List.mem_reverse.mp hs) with hs | hs
    · exact (isName_climb hslash s hs).ne_nil
    · exact (hbase s (by simpa using List.mem_of_mem_drop hs)).ne_nil
  have htrailing : ((absolute base ++ slash :: path).getLast? == some slash) = false := by
    rw [List.getLast?_append_of_ne_nil _ (by simp), List.getLast?_cons_of_ne_nil hrel]
    simpa using hend
  have habs : isAbsolute (absolute base ++ slash :: path) = true := rfl
  have hparts : List.filter (· ≠ []) [absolute base, path] = [absolute base, path] := by
    simp [absolute, hrel]
  rw [join, hparts, hjoined, if_neg (by simp), normalize, if_neg (by simp)]
  simp only [habs, if_true, Bool.not_true, hnormal, htrailing, Bool.false_eq_true, and_false,
    if_false]
  rfl

theorem climb_cons_name {dir : Text} {segs : List Text} (hdir : IsName dir)
    (h : ∀ s ∈ segs, slash ∉ s) : climb (dir :: segs) =
      { ups := (climb segs).ups - 1
        names := (climb segs).names ++ [dir].drop (climb segs).ups } := by
  have hsingle : climb [dir] = { ups := 0, names := [dir] } := by
    apply climb_names
    intro n hn
    rwa [List.mem_singleton.mp hn]
  rw [← List.singleton_append, climb_append h, hsingle]
  simp [Climb.andThen]

/-- Two relative parts, the second going down to a name, come to their climb. -/
theorem join_relative {dir path : Text} (hdir : IsName dir)
    (hdown : (climb (segments path)).names ≠ []) (hend : path.getLast? ≠ some slash) :
    climb (segments (join [dir, path])) = climb (dir :: segments path) ∧
      join [dir, path] ≠ [] ∧ (join [dir, path]).getLast? ≠ some slash := by
  have hpath : path ≠ [] := by
    rintro rfl
    exact hdown rfl
  have hslash : ∀ s ∈ dir :: segments path, slash ∉ s := by
    intro s hs
    rcases List.mem_cons.mp hs with rfl | hs
    · exact hdir.noSlash
    · exact noSlash_of_mem_segments hs
  have hnames := isName_climb hslash
  have hsegments : segments (dir ++ slash :: path) = dir :: segments path := by
    rw [segments_append, segments, List.splitOn_eq_singleton hdir.noSlash, List.singleton_append]
  have hdown' : (climb (dir :: segments path)).names ≠ [] := by
    rw [climb_cons_name hdir fun s hs => hslash s (List.mem_cons_of_mem _ hs)]
    simp [hdown]
  have hrel : isAbsolute (dir ++ slash :: path) = false := by
    have hne := hdir.ne_nil
    have hnot := hdir.noSlash
    cases dir with
    | nil => exact absurd rfl hne
    | cons c cs =>
      have hc : c ≠ slash := fun h => hnot (by simp [h])
      exact beq_false_of_ne fun h => hc (Option.some.inj h)
  have hjoin : join [dir, path] = Js.join [slash] (climb (dir :: segments path)).segments := by
    have hparts : List.filter (· ≠ []) [dir, path] = [dir, path] := by simp [hdir.ne_nil, hpath]
    have hjoined : Js.join [slash] [dir, path] = dir ++ slash :: path := by
      simp [Js.join, List.intercalate_cons_cons]
    rw [join, hparts, hjoined, if_neg (by simp),
      normalize_relative hrel (by rwa [hsegments]) ?_, hsegments]
    rwa [List.getLast?_append_of_ne_nil _ (by simp), List.getLast?_cons_of_ne_nil hpath]
  have hparts : ∀ s ∈ (climb (dir :: segments path)).segments, slash ∉ s ∧ s ≠ [] := by
    intro s hs
    rcases List.mem_append.mp hs with hs | hs
    · rw [List.eq_of_mem_replicate hs]
      decide
    · have hname := hnames s (by simpa using hs)
      exact ⟨hname.noSlash, hname.ne_nil⟩
  have hne : (climb (dir :: segments path)).segments ≠ [] := by simp [Climb.segments, hdown']
  rw [hjoin]
  refine ⟨?_, mt (join_eq_nil_iff fun s hs => (hparts s hs).2).mp hne, getLast_join hparts⟩
  rw [segments_join (fun s hs => (hparts s hs).1) hne, climb_segments hnames]

/-! The last name of a path stays when the path is normalised, wherever it leads. -/

theorem foldl_push_concat {above : Bool} {segs : List Text} {seg : Text} (h : IsName seg) :
    ((segs ++ [seg]).foldl (push above) []).reverse =
      (segs.foldl (push above) []).reverse ++ [seg] := by
  rw [List.foldl_append, List.foldl_cons, List.foldl_nil, push_name h, List.reverse_cons]

theorem suffix_join_concat (segs : List Text) (seg : Text) :
    seg <:+ Js.join [slash] (segs ++ [seg]) := by
  by_cases h : segs = []
  · simp [h, join_singleton]
  · rw [join_append h (by simp), join_singleton]
    exact List.suffix_append _ _

theorem suffix_normalize {path seg : Text} {segs : List Text}
    (hpath : segments path = segs ++ [seg]) (h : IsName seg) : seg <:+ normalize path := by
  have hne : path ≠ [] := by
    rintro rfl
    have hlast := congrArg List.getLast? hpath
    rw [List.getLast?_concat] at hlast
    exact h.ne_nil (Option.some.inj hlast).symm
  have hend : (path.getLast? == some slash) = false := by
    apply beq_false_of_ne
    intro hslash
    obtain ⟨dir, rfl⟩ := List.getLast?_eq_some_iff.mp hslash
    have hempty : segments [] = [[]] := rfl
    have hlast := congrArg List.getLast? hpath
    rw [segments_append, hempty, List.getLast?_concat, List.getLast?_concat] at hlast
    exact h.ne_nil (Option.some.inj hlast).symm
  have hbody (above : Bool) : seg <:+ Js.join [slash] (normalSegments above path) := by
    rw [normalSegments, ← segments, hpath, foldl_push_concat h]
    exact suffix_join_concat _ seg
  have hbody_ne (above : Bool) : Js.join [slash] (normalSegments above path) ≠ [] := by
    intro hnil
    have hsuffix := hbody above
    rw [hnil] at hsuffix
    exact h.ne_nil (List.suffix_nil.mp hsuffix)
  rw [normalize, if_neg hne]
  simp only [hend, Bool.false_eq_true, and_false, if_false, if_neg (hbody_ne _)]
  split
  · exact (hbody _).trans (List.suffix_cons _ _)
  · exact hbody _

/-- A file name ends as it did before it was joined to a directory. -/
theorem suffix_join (dir name : Text) {ext : Text} (hslash : slash ∉ ext) (hlong : 2 < ext.length) :
    ext <:+ join [dir, name ++ ext] := by
  have hlen (seg : Text) : 2 < (seg ++ ext).length := by
    rw [List.length_append]
    omega
  have hext : name ++ ext ≠ [] := List.ne_nil_of_length_pos (Nat.zero_lt_of_lt (hlen name))
  have key (front : Text) : ext <:+ normalize (front ++ ext) := by
    obtain ⟨segs, seg, hfront, hpath⟩ := segments_extend front hslash
    have hmem : seg ++ ext ∈ segments (front ++ ext) := by simp [hpath]
    have hname : IsName (seg ++ ext) := by
      refine ⟨?_, ?_, ?_, ?_⟩
      · exact List.ne_nil_of_length_pos (Nat.zero_lt_of_lt (hlen seg))
      · exact fun heq => absurd (heq ▸ hlen seg) (by decide)
      · exact fun heq => absurd (heq ▸ hlen seg) (by decide)
      · exact noSlash_of_mem_segments hmem
    exact (List.suffix_append seg ext).trans (suffix_normalize hpath hname)
  by_cases hdir : dir = []
  · have hparts : List.filter (· ≠ []) [dir, name ++ ext] = [name ++ ext] := by simp [hdir, hext]
    rw [join, hparts, join_singleton, if_neg hext]
    exact key name
  · have hparts : List.filter (· ≠ []) [dir, name ++ ext] = [dir, name ++ ext] := by
      simp [hdir, hext]
    have hjoined : Js.join [slash] [dir, name ++ ext] = (dir ++ slash :: name) ++ ext := by
      simp [Js.join, List.intercalate_cons_cons]
    rw [join, hparts, hjoined, if_neg (by simp)]
    exact key _

end Js.Path
