import StormReview.Js.Sort
import StormReview.Safety.Holdout

/-! What queryPrecedents returns: the top of one ranking, whatever the order of the store and of
the tags, and with or without a holdout. -/
namespace StormReview
open Js Zod

/-- On these texts `localeCompare` compares as an order does. -/
structure Collates (locale : Locale) (drns : List Text) : Prop where
  swap : ∀ a ∈ drns, ∀ b ∈ drns, locale.localeCompare a b < 0 ↔ 0 < locale.localeCompare b a
  trans : ∀ a ∈ drns, ∀ b ∈ drns, ∀ c ∈ drns, locale.localeCompare a b ≤ 0 →
    locale.localeCompare b c ≤ 0 → locale.localeCompare a c ≤ 0

/-- And it tells any two of them apart. -/
structure Separates (locale : Locale) (drns : List Text) : Prop extends Collates locale drns where
  eq_of_zero : ∀ a ∈ drns, ∀ b ∈ drns, locale.localeCompare a b = 0 → a = b

section ranking
variable (locale : Locale) (damageType : Text) (tags : List Text)

/-- It is about the damage that was asked about. -/
def SameDamage (p : Precedent) : Prop :=
  locale.toLowerCase p.damageType = locale.toLowerCase damageType

/-- Its damage type and the one asked about, if one was, are of one family. -/
def Akin (p : Precedent) : Prop :=
  locale.toLowerCase damageType ≠ [] ∧
    (locale.toLowerCase damageType <:+: locale.toLowerCase p.damageType ∨
      locale.toLowerCase p.damageType <:+: locale.toLowerCase damageType)

/-- A tag of the decision was asked about. -/
def AskedAbout (tag : Text) : Prop := ∃ t ∈ tags, locale.toLowerCase t = locale.toLowerCase tag

instance : DecidablePred (SameDamage locale damageType) := fun _ =>
  inferInstanceAs (Decidable (_ = _))

instance : DecidablePred (Akin locale damageType) := fun _ => inferInstanceAs (Decidable (_ ∧ _))

instance : DecidablePred (AskedAbout locale tags) := fun _ =>
  inferInstanceAs (Decidable (∃ _ ∈ _, _))

/-- The same damage counts two, the family one, and each tag asked about two. -/
def scoreFor (p : Precedent) : Nat :=
  (if SameDamage locale damageType p then 2 else if Akin locale damageType p then 1 else 0) +
    2 * p.tags.countP (AskedAbout locale tags)

/-- The query scores in three parts, of which the first two exclude each other. -/
theorem precedentScore_eq (p : Precedent) :
    precedentScore locale (locale.toLowerCase damageType) (distinct (tags.map locale.toLowerCase))
      p = scoreFor locale damageType tags p := by
  have hoverlap : (p.tags.filter fun t =>
        locale.toLowerCase t ∈ distinct (tags.map locale.toLowerCase)).length =
      p.tags.countP (AskedAbout locale tags) := by
    rw [List.countP_eq_length_filter]
    congr 1
    refine List.filter_congr fun t _ => decide_eq_decide.mpr ?_
    rw [mem_distinct, List.mem_map, AskedAbout]
  rw [precedentScore, hoverlap, scoreFor, Nat.mul_comm 2, Nat.add_left_inj]
  by_cases hsame : locale.toLowerCase p.damageType = locale.toLowerCase damageType
  · have hdamage : SameDamage locale damageType p := hsame
    rw [if_pos hsame, if_pos hdamage]
    rfl
  · have hdamage : ¬ SameDamage locale damageType p := hsame
    rw [if_neg hsame, if_neg hdamage, Nat.zero_add]
    exact if_congr (and_iff_right rfl) rfl rfl

/-- A higher score, or the same score and a DRN that sorts earlier. -/
def Before (p q : Precedent) : Prop :=
  scoreFor locale damageType tags q < scoreFor locale damageType tags p ∨
    scoreFor locale damageType tags q = scoreFor locale damageType tags p ∧
      locale.localeCompare p.drn q.drn < 0

instance : DecidableRel (Before locale damageType tags) := fun _ _ =>
  inferInstanceAs (Decidable (_ ∨ _))

/-- The precedents that match at all and are not held out, in the order of the store. -/
def eligible (precedents : List Precedent) (holdout : List Text) : List Precedent :=
  precedents.filter fun p => p.drn ∉ holdout ∧ 0 < scoreFor locale damageType tags p

/-- All the eligible precedents, in strict order. -/
structure IsRanking (precedents : List Precedent) (holdout : List Text)
    (ranked : List Precedent) : Prop where
  perm : ranked.Perm (eligible locale damageType tags precedents holdout)
  sorted : ranked.Pairwise (Before locale damageType tags)

def withScore (p : Precedent) : Precedent × Nat := (p, scoreFor locale damageType tags p)

/-- The eligible precedents with their scores, sorted. -/
def sortedScores (precedents : List Precedent) (holdout : List Text) : List (Precedent × Nat) :=
  ((eligible locale damageType tags precedents holdout).map
    (withScore locale damageType tags)).insertionSort (Ranked locale)

def ranking (precedents : List Precedent) (holdout : List Text) : List Precedent :=
  (sortedScores locale damageType tags precedents holdout).map (·.1)

/-- The query cuts the ranking off. -/
theorem queryPrecedents_eq (precedents : List Precedent) (heldOut : List Text)
    (opts : QueryOptions) : queryPrecedents locale precedents heldOut damageType tags opts =
      ((ranking locale damageType tags precedents (opts.holdout.getD heldOut)).take
        (opts.limit.getD 5)).map summaryOf := by
  have hscored (holdout : List Text) :
      ((precedents.filter fun p => p.drn ∉ holdout).map (withScore locale damageType tags)).filter
          (fun x => 0 < x.2) =
        (eligible locale damageType tags precedents holdout).map
          (withScore locale damageType tags) := by
    rw [List.filter_map, List.filter_filter, eligible]
    congr 1
    refine List.filter_congr fun p _ => ?_
    change (decide (0 < scoreFor locale damageType tags p) && decide (p.drn ∉ holdout)) = _
    rw [Bool.decide_and, Bool.and_comm]
  simp only [queryPrecedents, precedentScore_eq, ranking, sortedScores, ← List.map_take,
    List.map_map, ← hscored]
  rfl

end ranking

section order
variable {locale : Locale} {damageType : Text} {tags : List Text} {precedents : List Precedent}
  {holdout : List Text}

theorem Collates.ranked {drns : List Text} (h : Collates locale drns)
    {l : List (Precedent × Nat)} (hl : ∀ x ∈ l, x.1.drn ∈ drns) :
    Sort.OrdersOn (Ranked locale) l where
  total a ha b hb := by
    have hswap := h.swap _ (hl b hb) _ (hl a ha)
    unfold Ranked
    omega
  trans a ha b hb c hc hab hbc := by
    have htrans := h.trans _ (hl a ha) _ (hl b hb) _ (hl c hc)
    unfold Ranked at hab hbc ⊢
    omega

theorem mem_eligible {p : Precedent} : p ∈ eligible locale damageType tags precedents holdout ↔
    p ∈ precedents ∧ p.drn ∉ holdout ∧ 0 < scoreFor locale damageType tags p := by
  simp [eligible]

theorem drn_mem_of_eligible {x : Precedent × Nat}
    (h : x ∈ (eligible locale damageType tags precedents holdout).map
      (withScore locale damageType tags)) : x.1.drn ∈ precedents.map (·.drn) := by
  obtain ⟨p, hp, rfl⟩ := List.mem_map.mp h
  exact List.mem_map_of_mem (mem_eligible.mp hp).1

theorem Collates.ordersOn (h : Collates locale (precedents.map (·.drn))) :
    Sort.OrdersOn (Ranked locale)
      ((eligible locale damageType tags precedents holdout).map
        (withScore locale damageType tags)) := h.ranked fun _ hx => drn_mem_of_eligible hx

theorem ranking_perm : (ranking locale damageType tags precedents holdout).Perm
    (eligible locale damageType tags precedents holdout) := by
  have hperm := (List.perm_insertionSort (Ranked locale)
    ((eligible locale damageType tags precedents holdout).map
      (withScore locale damageType tags))).map Prod.fst
  rw [List.map_map] at hperm
  simpa [ranking, sortedScores, withScore, Function.comp_def] using hperm

theorem mem_ranking {p : Precedent} : p ∈ ranking locale damageType tags precedents holdout ↔
    p ∈ precedents ∧ p.drn ∉ holdout ∧ 0 < scoreFor locale damageType tags p :=
  ranking_perm.mem_iff.trans mem_eligible

theorem mem_sortedScores {x : Precedent × Nat}
    (h : x ∈ sortedScores locale damageType tags precedents holdout) :
    x.1 ∈ precedents ∧ x.2 = scoreFor locale damageType tags x.1 := by
  obtain ⟨p, hp, rfl⟩ := List.mem_map.mp ((List.mem_insertionSort _).mp h)
  exact ⟨(mem_eligible.mp hp).1, rfl⟩

theorem ranking_drns_nodup (hdistinct : (precedents.map (·.drn)).Nodup) :
    ((ranking locale damageType tags precedents holdout).map (·.drn)).Nodup := by
  have hsub := (List.filter_sublist (l := precedents)
    (p := fun p => p.drn ∉ holdout ∧ 0 < scoreFor locale damageType tags p)).map (·.drn)
  have hperm : (ranking locale damageType tags precedents holdout).Perm
      (eligible locale damageType tags precedents holdout) := ranking_perm
  exact (hperm.map (·.drn)).nodup_iff.mpr (hsub.nodup hdistinct)

/-- Where no two DRNs tie, the ranking is strict. -/
theorem ranking_sorted (hdistinct : (precedents.map (·.drn)).Nodup)
    (hlocale : Separates locale (precedents.map (·.drn))) :
    (ranking locale damageType tags precedents holdout).Pairwise
      (Before locale damageType tags) := by
  have hnodup : ((ranking locale damageType tags precedents holdout).map (·.drn)).Nodup :=
    ranking_drns_nodup hdistinct
  have horders : Sort.OrdersOn (Ranked locale)
      ((eligible locale damageType tags precedents holdout).map
        (withScore locale damageType tags)) := hlocale.toCollates.ordersOn
  have hsorted := Sort.pairwise_insertionSort horders
  rw [ranking, List.map_map, List.Nodup, List.pairwise_map] at hnodup
  rw [ranking, List.pairwise_map]
  refine (hsorted.and hnodup).imp_of_mem ?_
  rintro x y hx hy ⟨hxy, hne⟩
  obtain ⟨hxmem, hxscore⟩ := mem_sortedScores hx
  obtain ⟨hymem, hyscore⟩ := mem_sortedScores hy
  have hzero : locale.localeCompare x.1.drn y.1.drn ≠ 0 := fun h =>
    hne (hlocale.eq_of_zero _ (List.mem_map_of_mem hxmem) _ (List.mem_map_of_mem hymem) h)
  unfold Ranked at hxy
  unfold Before
  rw [← hxscore, ← hyscore]
  omega

/-- There is one way to order the eligible precedents strictly. -/
theorem IsRanking.unique {ranked ranked' : List Precedent}
    (hlocale : Collates locale (precedents.map (·.drn)))
    (h : IsRanking locale damageType tags precedents holdout ranked)
    (h' : IsRanking locale damageType tags precedents holdout ranked') : ranked' = ranked := by
  refine (h'.perm.trans h.perm.symm).eq_of_pairwise ?_ h'.sorted h.sorted
  intro p q hp hq hpq hqp
  have hmem {ranked : List Precedent} {p : Precedent} (hp : p ∈ ranked)
      (h : IsRanking locale damageType tags precedents holdout ranked) :
      p.drn ∈ precedents.map (·.drn) :=
    List.mem_map_of_mem (mem_eligible.mp (h.perm.subset hp)).1
  have hswap := hlocale.swap _ (hmem hp h') _ (hmem hq h)
  unfold Before at hpq hqp
  omega

/-- A permuted store is ranked the same. -/
theorem ranking_eq_of_perm {precedents' : List Precedent}
    (hdistinct : (precedents.map (·.drn)).Nodup)
    (hlocale : Separates locale (precedents.map (·.drn))) (hperm : precedents'.Perm precedents) :
    ranking locale damageType tags precedents' holdout =
      ranking locale damageType tags precedents holdout := by
  have hdrns := hperm.map (·.drn)
  have hlocale' : Separates locale (precedents'.map (·.drn)) :=
    { swap := fun a ha b hb => hlocale.swap a (hdrns.subset ha) b (hdrns.subset hb)
      trans := fun a ha b hb c hc =>
        hlocale.trans a (hdrns.subset ha) b (hdrns.subset hb) c (hdrns.subset hc)
      eq_of_zero := fun a ha b hb =>
        hlocale.eq_of_zero a (hdrns.subset ha) b (hdrns.subset hb) }
  refine IsRanking.unique hlocale.toCollates ⟨ranking_perm, ranking_sorted hdistinct hlocale⟩
    ⟨ranking_perm.trans (hperm.filter _), ?_⟩
  exact ranking_sorted (hdrns.nodup_iff.mpr hdistinct) hlocale'

end order

/-! The query decides the ranking only by its damage type and tags up to letter case. -/

section congr
variable {locale : Locale} {damageType damageType' : Text} {tags tags' : List Text}

theorem precedentScore_congr {damageType : Text} {want want' : List Text}
    (h : ∀ t, t ∈ want' ↔ t ∈ want) (p : Precedent) :
    precedentScore locale damageType want' p = precedentScore locale damageType want p := by
  simp only [precedentScore, h]

/-- The same query up to letter case, and the order and the repetition of the tags. -/
structure SameQuery (locale : Locale) (damageType damageType' : Text) (tags tags' : List Text) :
    Prop where
  damageType : locale.toLowerCase damageType' = locale.toLowerCase damageType
  tags : ∀ t, t ∈ tags'.map locale.toLowerCase ↔ t ∈ tags.map locale.toLowerCase

theorem scoreFor_congr (h : SameQuery locale damageType damageType' tags tags') :
    scoreFor locale damageType' tags' = scoreFor locale damageType tags := by
  funext p
  rw [← precedentScore_eq, ← precedentScore_eq, h.damageType]
  refine precedentScore_congr (fun t => ?_) p
  rw [mem_distinct, mem_distinct, h.tags]

theorem queryPrecedents_congr (h : SameQuery locale damageType damageType' tags tags')
    (precedents : List Precedent) (heldOut : List Text) (opts : QueryOptions) :
    queryPrecedents locale precedents heldOut damageType' tags' opts =
      queryPrecedents locale precedents heldOut damageType tags opts := by
  have hscore := scoreFor_congr h
  have hwith : withScore locale damageType' tags' = withScore locale damageType tags := by
    funext p
    rw [withScore, withScore, hscore]
  rw [queryPrecedents_eq, queryPrecedents_eq, ranking, ranking, sortedScores, sortedScores, hwith,
    eligible, eligible, hscore]

end congr

/-- The query is the top of the one strict ranking of the eligible precedents, and does not
depend on the order of the store, on the order or repetition of the tags, or on letter case. -/
theorem queryPrecedents_top (locale : Locale) (precedents : List Precedent) (heldOut : List Text)
    (damageType : Text) (tags : List Text) (opts : QueryOptions)
    (hdistinct : (precedents.map (·.drn)).Nodup)
    (hlocale : Separates locale (precedents.map (·.drn))) :
    let holdout := opts.holdout.getD heldOut
    let limit := opts.limit.getD 5
    let result := queryPrecedents locale precedents heldOut damageType tags opts
    (∃ ranked, IsRanking locale damageType tags precedents holdout ranked ∧
        (∀ other, IsRanking locale damageType tags precedents holdout other → other = ranked) ∧
        result = (ranked.take limit).map summaryOf) ∧
      (∀ p ∈ eligible locale damageType tags precedents holdout,
        ∀ q ∈ eligible locale damageType tags precedents holdout,
        summaryOf p ∈ result → summaryOf q ∉ result → Before locale damageType tags p q) ∧
      ((result.map (·.drn)).Nodup ∧ result.length ≤ limit) ∧
      (∀ precedents', precedents'.Perm precedents →
        queryPrecedents locale precedents' heldOut damageType tags opts = result) ∧
      (∀ tags', (∀ t, t ∈ tags' ↔ t ∈ tags) →
        queryPrecedents locale precedents heldOut damageType tags' opts = result) ∧
      (∀ damageType' tags', locale.toLowerCase damageType' = locale.toLowerCase damageType →
        tags'.map locale.toLowerCase = tags.map locale.toLowerCase →
        queryPrecedents locale precedents heldOut damageType' tags' opts = result) := by
  intro holdout limit result
  have hresult : result = ((ranking locale damageType tags precedents holdout).take
      limit).map summaryOf := queryPrecedents_eq ..
  have hranking : IsRanking locale damageType tags precedents holdout
      (ranking locale damageType tags precedents holdout) :=
    ⟨ranking_perm, ranking_sorted hdistinct hlocale⟩
  refine ⟨⟨_, hranking, fun _ h => hranking.unique hlocale.toCollates h, hresult⟩, ?_, ⟨?_, ?_⟩,
    ?_, ?_, ?_⟩
  · intro p hp q hq hin hout
    rw [hresult] at hin hout
    obtain ⟨p', hp', hsummary⟩ := List.mem_map.mp hin
    have hdrn : p'.drn = p.drn := congrArg PrecedentSummary.drn hsummary
    have hmem : p' ∈ precedents := (mem_ranking.mp (List.mem_of_mem_take hp')).1
    obtain rfl := List.inj_on_of_nodup_map hdistinct hmem (mem_eligible.mp hp).1 hdrn
    refine Sort.rel_of_mem_take_of_notMem hranking.sorted limit hp' ?_ fun hq' => hout ?_
    · exact ranking_perm.symm.subset hq
    · exact List.mem_map_of_mem hq'
  · have hdrns : result.map (·.drn) =
        ((ranking locale damageType tags precedents holdout).map (·.drn)).take limit := by
      rw [hresult, List.map_map, List.map_take]
      rfl
    rw [hdrns]
    exact (ranking_drns_nodup hdistinct).sublist (List.take_sublist ..)
  · exact length_queryPrecedents_le ..
  · intro precedents' hperm
    rw [hresult, queryPrecedents_eq, ranking_eq_of_perm hdistinct hlocale hperm]
  · intro tags' h
    exact queryPrecedents_congr ⟨rfl, fun t => by simp [h]⟩ ..
  · intro damageType' tags' hdamage htags
    exact queryPrecedents_congr ⟨hdamage, fun t => by rw [htags]⟩ ..

theorem sampleLocale_separates :
    Separates sampleLocale
      ([samplePrecedent (lit "DRN-1"), samplePrecedent (lit "DRN-2")].map (·.drn)) where
  swap := by decide
  trans := by decide
  eq_of_zero := by decide

/-- Asked about roof tiles and the burden of proof: DRN-5 has only the tag, DRN-2 only the family,
DRN-3 neither. -/
def sampleShelf : List Precedent :=
  [{ samplePrecedent (lit "DRN-2") with damageType := lit "roof", tags := [] },
    { samplePrecedent (lit "DRN-3") with damageType := lit "wall", tags := [] },
    samplePrecedent (lit "DRN-4"),
    { samplePrecedent (lit "DRN-5") with damageType := lit "wall" },
    samplePrecedent (lit "DRN-0"),
    samplePrecedent (lit "DRN-1")]

/-- DRN-0 is held out; DRN-1 and DRN-4 tie, and DRN-2 is cut off. -/
theorem queryPrecedents_top_sample :
    (queryPrecedents sampleLocale sampleShelf [lit "DRN-0"] (lit "ROOF_TILES")
        [lit "burden_of_proof"] { holdout := none, limit := some 3 }).map (·.drn) =
      [lit "DRN-1", lit "DRN-4", lit "DRN-5"] := by
  have hlocale : Separates sampleLocale (sampleShelf.map (·.drn)) :=
    { swap := by decide, trans := by decide, eq_of_zero := by decide }
  obtain ⟨⟨ranked, -, hunique, hresult⟩, -⟩ := queryPrecedents_top sampleLocale sampleShelf
    [lit "DRN-0"] (lit "ROOF_TILES") [lit "burden_of_proof"] { holdout := none, limit := some 3 }
    (by decide) hlocale
  have hranking : IsRanking sampleLocale (lit "ROOF_TILES") [lit "burden_of_proof"] sampleShelf
      [lit "DRN-0"] [samplePrecedent (lit "DRN-1"), samplePrecedent (lit "DRN-4"),
        { samplePrecedent (lit "DRN-5") with damageType := lit "wall" },
        { samplePrecedent (lit "DRN-2") with damageType := lit "roof", tags := [] }] :=
    { perm := by decide, sorted := by decide }
  rw [hresult, ← hunique _ hranking]
  decide

/-! Holding decisions out. -/

section holdout
variable {locale : Locale} {damageType : Text} {tags : List Text} {precedents : List Precedent}

theorem eligible_holdout (holdout : List Text) :
    eligible locale damageType tags precedents holdout =
      (eligible locale damageType tags precedents []).filter fun p => p.drn ∉ holdout := by
  rw [eligible, eligible, List.filter_filter]
  refine List.filter_congr fun p _ => ?_
  simp

/-- Removing decisions and ranking what is left is ranking and then removing. -/
theorem ranking_holdout (hlocale : Collates locale (precedents.map (·.drn)))
    (holdout : List Text) :
    ranking locale damageType tags precedents holdout =
      (ranking locale damageType tags precedents []).filter fun p => p.drn ∉ holdout := by
  have horders : Sort.OrdersOn (Ranked locale)
      ((eligible locale damageType tags precedents []).map
        (withScore locale damageType tags)) := hlocale.ordersOn
  have hsorted := Sort.filter_insertionSort (fun x => decide (x.1.drn ∉ holdout)) horders
  rw [ranking, ranking, List.filter_map, sortedScores, sortedScores, eligible_holdout]
  have hscores : ((eligible locale damageType tags precedents []).filter
        fun p => p.drn ∉ holdout).map (withScore locale damageType tags) =
      ((eligible locale damageType tags precedents []).map
        (withScore locale damageType tags)).filter fun x => x.1.drn ∉ holdout := by
    rw [List.filter_map]
    rfl
  rw [hscores, ← hsorted]
  rfl

/-- A store without the held-out decisions is ranked as the whole store is with them held out. -/
theorem ranking_deleted (holdout : List Text) :
    ranking locale damageType tags (precedents.filter fun p => p.drn ∉ holdout) [] =
      ranking locale damageType tags precedents holdout := by
  have heligible : eligible locale damageType tags (precedents.filter fun p => p.drn ∉ holdout) [] =
      eligible locale damageType tags precedents holdout := by
    rw [eligible, eligible, List.filter_filter]
    refine List.filter_congr fun p _ => ?_
    simp [Bool.and_comm]
  rw [ranking, ranking, sortedScores, sortedScores, heligible]

theorem length_ranking_le :
    (ranking locale damageType tags precedents holdout).length ≤ precedents.length := by
  have hperm : (ranking locale damageType tags precedents holdout).Perm
      (eligible locale damageType tags precedents holdout) := ranking_perm
  rw [hperm.length_eq]
  exact List.length_filter_le ..

end holdout

/-- Holding decisions out is deleting them from the store, and from the ranking before it is cut
off: the others keep their order and at most move up. -/
theorem queryPrecedents_holdout (locale : Locale) (precedents : List Precedent)
    (heldOut : List Text) (damageType : Text) (tags : List Text) (opts : QueryOptions)
    (hlocale : Collates locale (precedents.map (·.drn))) :
    let holdout := opts.holdout.getD heldOut
    let limit := opts.limit.getD 5
    let result := queryPrecedents locale precedents heldOut damageType tags opts
    result = queryPrecedents locale (precedents.filter fun p => p.drn ∉ holdout) heldOut damageType
        tags { opts with holdout := some [] } ∧
      (∀ unlimited, precedents.length ≤ unlimited → result =
        ((queryPrecedents locale precedents heldOut damageType tags
          { holdout := some [], limit := some unlimited }).filter
            fun s => s.drn ∉ holdout).take limit) ∧
      ((queryPrecedents locale precedents heldOut damageType tags
        { opts with holdout := some [] }).filter fun s => s.drn ∉ holdout) <+: result ∧
      ∀ s ∈ result, s.drn ∉ holdout := by
  intro holdout limit result
  have hresult : result = (((ranking locale damageType tags precedents []).filter
      fun p => p.drn ∉ holdout).take limit).map summaryOf := by
    rw [← ranking_holdout hlocale]
    exact queryPrecedents_eq ..
  have hsummaries (ranked : List Precedent) :
      (ranked.map summaryOf).filter (fun s => s.drn ∉ holdout) =
        (ranked.filter fun p => p.drn ∉ holdout).map summaryOf := by
    rw [List.filter_map]
    rfl
  refine ⟨?_, ?_, ?_, ?_⟩
  · have hquery : result = ((ranking locale damageType tags precedents holdout).take
        limit).map summaryOf := queryPrecedents_eq ..
    rw [hquery, ← ranking_deleted, queryPrecedents_eq]
    rfl
  · intro unlimited hunlimited
    have hlength : (ranking locale damageType tags precedents []).length ≤ unlimited :=
      length_ranking_le.trans hunlimited
    rw [queryPrecedents_eq, hresult]
    simp only [Option.getD_some, List.take_of_length_le hlength, hsummaries, List.map_take]
  · rw [queryPrecedents_eq, hresult, hsummaries]
    exact (Sort.filter_take_isPrefix ..).map summaryOf
  · intro s hs
    obtain ⟨p, -, rfl, hout⟩ := mem_queryPrecedents hs
    exact hout

theorem queryPrecedents_holdout_sample :
    let store := [samplePrecedent (lit "DRN-1"), samplePrecedent (lit "DRN-2")]
    queryPrecedents sampleLocale store [] (lit "roof_tiles") []
        { holdout := some [lit "DRN-1"], limit := none } =
      queryPrecedents sampleLocale (store.filter fun p => p.drn ∉ [lit "DRN-1"]) []
        (lit "roof_tiles") [] { holdout := some [], limit := none } :=
  (queryPrecedents_holdout sampleLocale
    [samplePrecedent (lit "DRN-1"), samplePrecedent (lit "DRN-2")] [] (lit "roof_tiles") []
    { holdout := some [lit "DRN-1"], limit := none } sampleLocale_separates.toCollates).1

end StormReview
