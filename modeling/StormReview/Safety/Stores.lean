import StormReview.Js.Climb
import StormReview.Workflow.Pipeline
import StormReview.Tools.Lookups

/-! Which file a lookup opens, and when it is one of the lookup's own store. -/
namespace StormReview
open Js Zod
open Js.Path (IsName Climb absolute climb segments slash isName_climb noSlash_of_mem_segments)

/-- The stores a record is looked up in. -/
def stores : List String := ["reports", "customers", "wordings"]

/-- `path` lies below the directory `dir`. -/
def Inside (dir path : Text) : Prop := dir ++ [slash] <+: path

/-- What an id comes to as a path from its store. -/
def idClimb (id : Text) : Climb := climb (segments (id ++ lit ".json"))

/-- From the root to the store. -/
def storeNames (root : List Text) (store : String) : List Text :=
  root ++ [lit "data", lit store]

/-- As many directories as an id climbs, it comes down again first, and by the same names. -/
def ComesBack (root : List Text) (store : String) (id : Text) : Prop :=
  (storeNames root store).reverse.take (idClimb id).ups <:+ (idClimb id).names

instance (root : List Text) (store : String) (id : Text) : Decidable (ComesBack root store id) :=
  inferInstanceAs (Decidable (_ <:+ _))

theorem json_ne {seg short : Text} (h : short.length < 5) : seg ++ lit ".json" ≠ short := by
  rintro rfl
  have hlen : (lit ".json").length = 5 := by decide
  rw [List.length_append] at h
  omega

theorem isName_json (seg : Text) (h : slash ∉ seg) : IsName (seg ++ lit ".json") where
  ne_nil := List.append_ne_nil_of_right_ne_nil _ (by decide)
  ne_dot := json_ne (by decide)
  ne_dots := json_ne (by decide)
  noSlash := by
    rw [List.mem_append, not_or]
    exact ⟨h, by decide⟩

theorem isName_store (hstore : store ∈ stores) : IsName (lit store) := by
  simp only [stores, List.mem_cons, List.not_mem_nil, or_false] at hstore
  rcases hstore with rfl | rfl | rfl <;> exact ⟨by decide, by decide, by decide, by decide⟩

theorem isName_data : IsName (lit "data") := ⟨by decide, by decide, by decide, by decide⟩

/-- An id comes to a file name, whatever it climbs on the way. -/
theorem idClimb_names (id : Text) :
    ∃ seg rest, (idClimb id).names = (seg ++ lit ".json") :: rest := by
  obtain ⟨segs, seg, hid, hfile⟩ := Path.segments_extend id (by decide : slash ∉ lit ".json")
  have hseg : slash ∉ seg := noSlash_of_mem_segments (by rw [hid]; simp)
  refine ⟨seg, (climb segs).names, ?_⟩
  rw [idClimb, hfile, Path.climb_concat, Climb.step_name (isName_json seg hseg)]

theorem getLast_json (id : Text) : (id ++ lit ".json").getLast? ≠ some slash := by
  rw [List.getLast?_append_of_ne_nil _ (by decide)]
  decide

section paths
variable {files : Files} {root : List Text} {store : String}

theorem storeNames_isName (hroot : ∀ n ∈ root, IsName n) (hstore : store ∈ stores) :
    ∀ n ∈ storeNames root store, IsName n := by
  intro n hn
  simp only [storeNames, List.mem_append, List.mem_cons, List.not_mem_nil, or_false] at hn
  rcases hn with hn | rfl | rfl
  · exact hroot n hn
  · exact isName_data
  · exact isName_store hstore

/-- A name below an absolute directory. -/
theorem join_name {base : List Text} {name : Text} (hbase : ∀ n ∈ base, IsName n)
    (hname : IsName name) : Path.join [absolute base, name] = absolute (base ++ [name]) := by
  have hsegments : segments name = [name] := List.splitOn_eq_singleton hname.noSlash
  have hclimb : climb (segments name) = { ups := 0, names := [name] } := by
    rw [hsegments]
    apply Path.climb_names
    intro n hn
    rwa [List.mem_singleton.mp hn]
  have hend : name.getLast? ≠ some slash := fun h => hname.noSlash (List.mem_of_mem_getLast? h)
  rw [Path.join_absolute hbase hname.ne_nil (by rw [hclimb]; simp) hend, hclimb]
  simp

theorem dataDir_eq (hroot : ∀ n ∈ root, IsName n) (hfiles : files.projectRoot = absolute root) :
    files.dataDir = absolute (root ++ [lit "data"]) := by
  rw [Files.dataDir, hfiles, join_name hroot isName_data]

theorem dataNames_isName (hroot : ∀ n ∈ root, IsName n) :
    ∀ n ∈ root ++ [lit "data"], IsName n := by
  intro n hn
  rcases List.mem_append.mp hn with hn | hn
  · exact hroot n hn
  · rw [List.mem_singleton.mp hn]
    exact isName_data

theorem storePath_eq (hroot : ∀ n ∈ root, IsName n) (hfiles : files.projectRoot = absolute root)
    (hstore : store ∈ stores) :
    files.dataPath (lit store) = absolute (storeNames root store) := by
  rw [Files.dataPath, dataDir_eq hroot hfiles,
    join_name (dataNames_isName hroot) (isName_store hstore), List.append_assoc]
  rfl

/-- The file an id opens: the id climbs from the store and goes down from there. -/
theorem recordPath_eq (hroot : ∀ n ∈ root, IsName n) (hfiles : files.projectRoot = absolute root)
    (hstore : store ∈ stores) (id : Text) :
    files.recordPath store id = absolute ((idClimb id).names ++
      (storeNames root store).reverse.drop (idClimb id).ups).reverse := by
  obtain ⟨seg, rest, hnames⟩ := idClimb_names id
  have hdown : (climb (segments (id ++ lit ".json"))).names ≠ [] := by
    rw [← idClimb, hnames]
    simp
  obtain ⟨hclimb, hne, hend⟩ := Path.join_relative (isName_store hstore) hdown (getLast_json id)
  rw [Path.climb_cons_name (isName_store hstore) fun s hs => noSlash_of_mem_segments hs,
    ← idClimb] at hclimb
  rw [Files.recordPath, Files.dataPath, dataDir_eq hroot hfiles,
    Path.join_absolute (dataNames_isName hroot) hne (by rw [hclimb, hnames]; simp) hend, hclimb]
  congr 2
  rw [List.append_assoc]
  congr 1
  rw [storeNames]
  cases (idClimb id).ups with
  | zero => simp
  | succ k => simp

/-- One absolute path is below another exactly when its names go on from the other's. -/
theorem inside_absolute {names below : List Text} (hnames : ∀ n ∈ names, IsName n)
    (hbelow : ∀ n ∈ below, IsName n) (hne : names ≠ []) :
    Inside (absolute names) (absolute below) ↔ ∃ rest, rest ≠ [] ∧ below = names ++ rest := by
  constructor
  · rintro ⟨path, hpath⟩
    have hpath : Js.join [slash] names ++ slash :: path = Js.join [slash] below := by
      simpa [absolute] using hpath
    have hbelow' : below ≠ [] := by
      rintro rfl
      simp [Js.join] at hpath
    refine ⟨segments path, List.splitOn_ne_nil _ _, ?_⟩
    rw [← Path.segments_join (fun n hn => (hbelow n hn).noSlash) hbelow', ← hpath,
      Path.segments_append, Path.segments_join (fun n hn => (hnames n hn).noSlash) hne]
  · rintro ⟨rest, hrest, rfl⟩
    refine ⟨Js.join [slash] rest, ?_⟩
    rw [absolute, absolute, join_append hne hrest]
    simp

/-- No store is called as a file is. -/
theorem take_storeNames_ne (hstore : store ∈ stores) (k : Nat) (seg : Text) (below : List Text) :
    (storeNames root store).reverse.take k ≠ (seg ++ lit ".json") :: below := by
  have hchain : (storeNames root store).reverse = lit store :: lit "data" :: root.reverse := by
    simp [storeNames]
  rw [hchain]
  cases k with
  | zero => simp
  | succ k =>
    intro h
    have hname : lit ".json" <:+ lit store := ⟨seg, (List.cons.inj h).1.symm⟩
    simp only [stores, List.mem_cons, List.not_mem_nil, or_false] at hstore
    rcases hstore with rfl | rfl | rfl
    · exact absurd hname (by decide)
    · exact absurd hname (by decide)
    · exact absurd hname (by decide)

theorem comesBack_iff (hstore : store ∈ stores) (id : Text) :
    ComesBack root store id ↔ ∃ rest, rest ≠ [] ∧
      ((idClimb id).names ++ (storeNames root store).reverse.drop (idClimb id).ups).reverse =
        storeNames root store ++ rest := by
  obtain ⟨seg, below, hid⟩ := idClimb_names id
  have hcancel (rest : List Text) :
      ((idClimb id).names ++ (storeNames root store).reverse.drop (idClimb id).ups).reverse =
          storeNames root store ++ rest ↔
        rest.reverse ++ (storeNames root store).reverse.take (idClimb id).ups =
          (idClimb id).names := by
    rw [List.reverse_eq_iff, List.reverse_append]
    nth_rewrite 2 [← List.take_append_drop (idClimb id).ups (storeNames root store).reverse]
    rw [← List.append_assoc, List.append_left_inj]
    exact eq_comm
  constructor
  · rintro ⟨rest, hrest⟩
    refine ⟨rest.reverse, ?_, (hcancel _).mpr (by rwa [List.reverse_reverse])⟩
    intro hnil
    rw [List.reverse_eq_nil_iff.mp hnil, List.nil_append, hid] at hrest
    exact take_storeNames_ne hstore _ seg below hrest
  · rintro ⟨rest, -, h⟩
    exact ⟨rest.reverse, (hcancel rest).mp h⟩

theorem recordPath_inside_iff (hroot : ∀ n ∈ root, IsName n)
    (hfiles : files.projectRoot = absolute root) (hstore : store ∈ stores) (id : Text) :
    Inside (files.dataPath (lit store)) (files.recordPath store id) ↔
      ComesBack root store id := by
  have hnames := storeNames_isName hroot hstore
  rw [storePath_eq hroot hfiles hstore, recordPath_eq hroot hfiles hstore,
    inside_absolute hnames _ (by simp [storeNames]), comesBack_iff hstore]
  intro n hn
  rcases List.mem_append.mp (List.mem_reverse.mp hn) with hn | hn
  · exact isName_climb (fun s hs => noSlash_of_mem_segments hs) n hn
  · exact hnames n (List.mem_reverse.mp (List.mem_of_mem_drop hn))

end paths

/-- `lookup` reads nothing but the file at `path`. -/
def Opens {α β : Type} (lookup : Files → Text → Lookup α) (read : Files → Text → Option β)
    (files : Files) (id path : Text) : Prop :=
  ∀ files' : Files, files'.projectRoot = files.projectRoot →
    read files' path = read files path → lookup files' id = lookup files id

section readers
variable (files : Files) (id : Text)

theorem recordPath_congr {files files' : Files} (hroot : files'.projectRoot = files.projectRoot)
    (store : String) (id : Text) : files'.recordPath store id = files.recordPath store id := by
  rw [Files.recordPath, Files.dataPath, Files.dataDir, hroot]
  rfl

theorem getAdjusterReport_opens : Opens getAdjusterReport Files.report files id
    (files.recordPath "reports" id) := by
  intro files' hroot h
  rw [getAdjusterReport, loadReport, recordPath_congr hroot, h]
  rfl

theorem getCustomerContext_opens : Opens getCustomerContext Files.customer files id
    (files.recordPath "customers" id) := by
  intro files' hroot h
  rw [getCustomerContext, loadCustomer, recordPath_congr hroot, h]
  rfl

theorem getPolicyWording_opens : Opens getPolicyWording Files.wording files id
    (files.recordPath "wordings" id) := by
  intro files' hroot h
  rw [getPolicyWording, loadWording, recordPath_congr hroot, h]
  rfl

end readers

/-- Each of the three lookups opens one file, and it is a file of the lookup's own store exactly
when the id does not climb out of the store, or comes back into it by the way it went. -/
theorem lookup_inside_iff (files : Files) (root : List Text) (hroot : ∀ n ∈ root, IsName n)
    (hfiles : files.projectRoot = absolute root) (id : Text) :
    (Opens getAdjusterReport Files.report files id (files.recordPath "reports" id) ∧
      (Inside (files.dataPath (lit "reports")) (files.recordPath "reports" id) ↔
        ComesBack root "reports" id)) ∧
    (Opens getCustomerContext Files.customer files id (files.recordPath "customers" id) ∧
      (Inside (files.dataPath (lit "customers")) (files.recordPath "customers" id) ↔
        ComesBack root "customers" id)) ∧
    (Opens getPolicyWording Files.wording files id (files.recordPath "wordings" id) ∧
      (Inside (files.dataPath (lit "wordings")) (files.recordPath "wordings" id) ↔
        ComesBack root "wordings" id)) := by
  refine ⟨⟨getAdjusterReport_opens files id, ?_⟩, ⟨getCustomerContext_opens files id, ?_⟩,
    ⟨getPolicyWording_opens files id, ?_⟩⟩
  · exact recordPath_inside_iff hroot hfiles (by simp [stores]) id
  · exact recordPath_inside_iff hroot hfiles (by simp [stores]) id
  · exact recordPath_inside_iff hroot hfiles (by simp [stores]) id

/-- An id that climbs one directory and names its store again stays inside it. -/
theorem lookup_inside_climbed :
    let files := sampleFiles .decline none none
    Inside (files.dataPath (lit "reports")) (files.recordPath "reports" (lit "../reports/CLM-A")) :=
  (lookup_inside_iff (sampleFiles .decline none none) [lit "app"]
    (by
      intro n hn
      rw [List.mem_singleton.mp hn]
      exact ⟨by decide, by decide, by decide, by decide⟩)
    (by decide) (lit "../reports/CLM-A")).1.2.mpr (by decide)

/-- The report tool opens a customer's file. -/
theorem report_lookup_leaves_store :
    let files := sampleFiles .decline none none
    files.recordPath "reports" (lit "../customers/CUST-A") =
        lit "/app/data/customers/CUST-A.json" ∧
      ¬ Inside (files.dataPath (lit "reports"))
        (files.recordPath "reports" (lit "../customers/CUST-A")) := by
  constructor
  · decide
  · unfold Inside
    decide

end StormReview
