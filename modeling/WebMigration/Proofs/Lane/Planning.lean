import Mathlib.Data.Prod.Lex
import Mathlib.Data.String.Basic
import WebMigration.Proofs.Lane.AppRouter
import WebMigration.Structure.Plan

/-!
# Plans for the app router as a whole

Changes are compared by four keys, each of which decides where the ones before it agree.  This is a
linear order of the keys, so that sorting by it puts layouts before everything else, what is created
before what is moved and what is deleted, and shallow paths before deep ones.

For a migration to the app router, a plan has a change for every path that the layout needs.  No file
is created where something is moved to or where another one is created, every created file has
content, no file of the repository has two changes, and the changes are in order.
-/

/-! ## The order of changes -/

namespace WebMigration.Structure

variable {a b : FileChange}

/-- Layouts have the smallest rank. -/
def layoutRank (c : FileChange) : ℕ := if c.role == "layout" then 0 else 1

/-- What changes are sorted by, as one key. -/
def sortKey (c : FileChange) : ℕ ×ₗ ℕ ×ₗ ℕ ×ₗ String :=
  toLex (layoutRank c, toLex (actionRank c.action, toLex (Text.Path.depth (sortPath c), sortPath c)))

theorem sortKey_le_iff :
    sortKey a ≤ sortKey b ↔ layoutRank a < layoutRank b ∨ layoutRank a = layoutRank b ∧
      (actionRank a.action < actionRank b.action ∨ actionRank a.action = actionRank b.action ∧
        (Text.Path.depth (sortPath a) < Text.Path.depth (sortPath b) ∨
          Text.Path.depth (sortPath a) = Text.Path.depth (sortPath b) ∧ sortPath a ≤ sortPath b)) := by
  simp only [sortKey, Prod.Lex.toLex_le_toLex]

/-- A change is put before another one as its key is. -/
theorem beforeOrEqual_iff : beforeOrEqual a b = true ↔ sortKey a ≤ sortKey b := by
  have hkeys : beforeOrEqual a b =
      if [layoutRank a, actionRank a.action, Text.Path.depth (sortPath a)] ==
          [layoutRank b, actionRank b.action, Text.Path.depth (sortPath b)] then
        !(sortPath b < sortPath a)
      else precedes [layoutRank a, actionRank a.action, Text.Path.depth (sortPath a)]
        [layoutRank b, actionRank b.action, Text.Path.depth (sortPath b)] := rfl
  rw [sortKey_le_iff, hkeys]
  by_cases hsame : layoutRank a = layoutRank b ∧ actionRank a.action = actionRank b.action ∧
      Text.Path.depth (sortPath a) = Text.Path.depth (sortPath b)
  · obtain ⟨hlayout, haction, hdepth⟩ := hsame
    simp [hlayout, haction, hdepth, -String.lt_iff_ltb]
  · rw [if_neg (by simpa using hsame)]
    simp only [precedes, Bool.or_eq_true, decide_eq_true_eq, Bool.and_eq_true, beq_iff_eq, and_true]
    grind

/-- How two changes of a plan stand to each other, the first of them before the second. -/
structure Before (a b : FileChange) : Prop where
  /-- Layouts come first. -/
  layout : b.role = "layout" → a.role = "layout"
  /-- Then what is created comes before what is moved, and this before what is deleted. -/
  action : (a.role = "layout" ↔ b.role = "layout") → actionRank a.action ≤ actionRank b.action
  /-- Then shallow paths come before deep ones. -/
  depth : (a.role = "layout" ↔ b.role = "layout") → actionRank a.action = actionRank b.action →
    Text.Path.depth (sortPath a) ≤ Text.Path.depth (sortPath b)
  /-- Then the paths decide. -/
  path : (a.role = "layout" ↔ b.role = "layout") → actionRank a.action = actionRank b.action →
    Text.Path.depth (sortPath a) = Text.Path.depth (sortPath b) → sortPath a ≤ sortPath b

theorem layoutRank_eq_iff :
    layoutRank a = layoutRank b ↔ (a.role = "layout" ↔ b.role = "layout") := by
  unfold layoutRank
  by_cases ha : a.role = "layout" <;> by_cases hb : b.role = "layout" <;> simp [ha, hb]

theorem before_of_sortKey_le (h : sortKey a ≤ sortKey b) : Before a b := by
  rw [sortKey_le_iff, layoutRank_eq_iff] at h
  refine ⟨fun hb => ?_, fun hlayout => ?_, fun hlayout haction => ?_,
    fun hlayout haction hdepth => ?_⟩
  · rcases h with hlt | ⟨hlayout, -⟩
    · simp [layoutRank, hb] at hlt
    · exact hlayout.2 hb
  all_goals
    rcases h with hlt | ⟨-, h⟩
    · exact absurd (layoutRank_eq_iff.2 hlayout) hlt.ne
  · omega
  · omega
  · rcases h with hlt | ⟨-, hlt | ⟨-, hpath⟩⟩
    · exact absurd haction hlt.ne
    · exact absurd hdepth hlt.ne
    · exact hpath

theorem beforeOrEqual_trans (a b c : FileChange) (hab : beforeOrEqual a b = true)
    (hbc : beforeOrEqual b c = true) : beforeOrEqual a c = true :=
  beforeOrEqual_iff.2 ((beforeOrEqual_iff.1 hab).trans (beforeOrEqual_iff.1 hbc))

theorem beforeOrEqual_total (a b : FileChange) :
    (beforeOrEqual a b || beforeOrEqual b a) = true := by
  rw [Bool.or_eq_true, beforeOrEqual_iff, beforeOrEqual_iff]
  exact le_total _ _

/-- **A plan is in order**, whatever lanes there are. -/
theorem pairwise_before_plan (lanes : LaneRegistry) (files : Files) (spec : Specification) :
    (plan lanes files spec).Pairwise Before := by
  unfold plan
  split
  · exact (List.pairwise_mergeSort beforeOrEqual_trans beforeOrEqual_total _).imp
      fun h => before_of_sortKey_le (beforeOrEqual_iff.1 h)
  · exact .nil

end WebMigration.Structure

/-! ## Plans of the lane -/

namespace WebMigration.Lane.AppRouter

open Text

variable {files : Structure.Files} {spec : Specification} {c d : FileChange} {path content : String}

/-! ### The migrations that the lane is for -/

/-- A migration from React to the app router of Next.js, whatever names it uses for them. -/
structure ToAppRouter (spec : Specification) : Prop where
  source : normalizedKey spec.source.framework ∈ Lane.appRouter.sources.map normalizedKey
  target : normalizedKey spec.target.framework ∈ Lane.appRouter.targets.map normalizedKey
  routing : normalizedKey spec.target.routing ∈ ["approuter", "app"]

/-- A lane fits the names that it gives. -/
theorem fitByName_of_mem {sources targets : List String} {source target : String}
    (hsource : normalizedKey source ∈ sources.map normalizedKey)
    (htarget : normalizedKey target ∈ targets.map normalizedKey) :
    fitByName sources targets source target = .ofNat 1 := by
  have hs := List.contains_iff_mem.2 hsource
  have ht := List.contains_iff_mem.2 htarget
  simp only [fitByName, hs, ht, Bool.and_self, if_true]

/-- The lane is found by the names of the two frameworks. -/
theorem ToAppRouter.laneOf? (h : ToAppRouter spec) :
    LaneRegistry.builtIn.laneOf? spec = some Lane.appRouter := by
  have hfit : Lane.appRouter.applicability spec.source.framework spec.target.framework =
      .ok (.ofNat 1) := congrArg Except.ok (fitByName_of_mem h.source h.target)
  have hone : (Number.Binary64.ofNat 0).lt (.ofNat 1) = true := by decide +kernel
  rw [LaneRegistry.laneOf?, LaneRegistry.detect?, lanes_builtIn, List.map_singleton, List.foldl_cons,
    List.foldl_nil, LaneRegistry.better, if_neg (by decide), hfit]
  simp only [hone, if_true]

/-! ### Changes of files of the repository -/

theorem PlannedFor.originalPath (h : PlannedFor path content c) : c.originalPath = path := by
  cases h with
  | delete hpath _ => exact hpath
  | moveSheet _ hmove => exact hmove ▸ rfl
  | moveOther hmove => exact hmove.original

theorem PlannedFor.action (h : PlannedFor path content c) : c.action = .move ∨ c.action = .delete := by
  cases h with
  | delete _ hdelete => exact .inr hdelete
  | moveSheet _ hmove => exact .inl (hmove ▸ rfl)
  | moveOther hmove => exact .inl hmove.action

theorem action_of_mem_perFile (h : c ∈ perFile files spec) :
    c.action = .move ∨ c.action = .delete := by
  obtain ⟨f, -, hplanned⟩ := plannedFor_of_mem h
  exact hplanned.action

/-- The changes are those of some of the files, in the order of the files. -/
theorem originalPath_perFile_sublist (files : Structure.Files) (spec : Specification) :
    ((perFile files spec).map (·.originalPath)).Sublist (files.map (·.1)) := by
  induction files with
  | nil => exact .slnil
  | cons f rest ih =>
    rw [perFile, List.filterMap_cons, List.map_cons]
    cases hplan : plan f.1 f.2 spec with
    | none => exact ih.cons _
    | some c =>
      rw [List.map_cons, (plan_cases hplan).originalPath]
      exact ih.cons_cons _

/-! ### Created files -/

/-- Of the wanted files each path is left once. -/
theorem nodup_notTaken (taken : List String) (ws : List Wanted) :
    ((notTaken taken ws).map (·.path)).Nodup := by
  induction ws generalizing taken with
  | nil => exact .nil
  | cons w rest ih =>
    rw [notTaken]
    split
    · exact ih taken
    · refine List.nodup_cons.2 ⟨fun htwice => ?_, ih _⟩
      obtain ⟨v, hv, hpath⟩ := List.mem_map.1 htwice
      exact (mem_notTaken hv).2 (hpath ▸ List.mem_cons_self)

/-- The created files of a plan, with their contents. -/
def created (files : Structure.Files) (spec : Specification) : List FileChange :=
  (required (perFile files spec) spec).map (Structure.withScaffold Lane.appRouter spec)

/-- A file is created at a path that is free, with content, and in place of no other file. -/
structure Created (files : Structure.Files) (spec : Specification) (c : FileChange) : Prop where
  action : c.action = .create
  content : ∃ text, c.content = some text ∧ text ≠ ""
  original : c.originalPath = ""
  free : c.newPath ∉ (perFile files spec).map (·.newPath)
  noNeeds : c.needsLayout = false ∧ c.needsLoading = false ∧ c.needsError = false

theorem withScaffold_newPath (c : FileChange) :
    (Structure.withScaffold Lane.appRouter spec c).newPath = c.newPath := by
  unfold Structure.withScaffold
  split <;> rfl

theorem created_of_mem (h : c ∈ created files spec) : Created files spec c := by
  obtain ⟨d, hd, rfl⟩ := List.mem_map.1 h
  obtain ⟨haction, hpath, hfull⟩ := withScaffold_of_mem_required hd
  obtain ⟨hrouted, -, hcontent, hrole⟩ := of_mem_required hd
  obtain ⟨text, htext, hnonempty⟩ := scaffold_of_role hrole spec
  have hscaffold : Structure.withScaffold Lane.appRouter spec d = { d with content := some text } := by
    unfold Structure.withScaffold
    rw [hcontent]
    exact congrArg (fun content => { d with content := content }) htext
  have hfree := ((mem_required_paths hrouted).1 ⟨d, hd, rfl⟩).2
  rw [required, if_pos hrouted] at hd
  obtain ⟨w, -, rfl⟩ := List.mem_map.1 hd
  rw [hscaffold]
  refine ⟨rfl, ⟨text, rfl, ?_⟩, rfl, hfree, rfl, rfl, rfl⟩
  rintro rfl
  cases hnonempty

theorem nodup_created (files : Structure.Files) (spec : Specification) :
    ((created files spec).map (·.newPath)).Nodup := by
  have hpaths : (created files spec).map (·.newPath) =
      (required (perFile files spec) spec).map (·.newPath) := by
    rw [created, List.map_map]
    exact List.map_congr_left fun c _ => withScaffold_newPath c
  rw [hpaths, required]
  split
  · dsimp only
    rw [List.map_map]
    exact nodup_notTaken _ _
  · exact .nil

/-- A plan consists of the changes of the files and of the created files. -/
theorem plan_perm (hlane : LaneRegistry.builtIn.laneOf? spec = some Lane.appRouter) :
    (Structure.plan .builtIn files spec).Perm (perFile files spec ++ created files spec) := by
  have hplan : Lane.appRouter.plan = plan := by simp only [Lane.appRouter]
  have hrequired : Lane.appRouter.required = required := by simp only [Lane.appRouter]
  rw [Structure.plan, hlane]
  dsimp only
  rw [Structure.unsorted, hplan, hrequired]
  exact List.mergeSort_perm _ _

/-! ### What the layout needs -/

/-- A page of a route below the root directory. -/
structure IsOuterPage (base : String) (c : FileChange) : Prop where
  route : c.isRoute = true
  role : c.role = "page"
  outside : Path.beforeLastSlash c.newPath ≠ base

/-- The paths that a layout with some changes needs. -/
inductive Needed (base : String) (changes : List FileChange) : String → Prop
  | rootLayout : Needed base changes (base ++ "/layout.tsx")
  | rootError : Needed base changes (base ++ "/error.tsx")
  | notFound : Needed base changes (base ++ "/not-found.tsx")
  | sheet : Needed base changes globalStyles
  | layout {c : FileChange} : c ∈ changes → IsOuterPage base c → c.needsLayout = true →
      Needed base changes (Path.beforeLastSlash c.newPath ++ "/layout.tsx")
  | loading {c : FileChange} : c ∈ changes → IsOuterPage base c → c.needsLoading = true →
      Needed base changes (Path.beforeLastSlash c.newPath ++ "/loading.tsx")
  | error {c : FileChange} : c ∈ changes → IsOuterPage base c → c.needsError = true →
      Needed base changes (Path.beforeLastSlash c.newPath ++ "/error.tsx")

/-- What a page outside of the root directory asks for is wanted. -/
theorem wants_of_isOuterPage {w : Wanted} (hc : c ∈ perFile files spec)
    (hpage : IsOuterPage spec.target.fileStructure.pages c)
    (hw : w ∈
      (if c.needsLayout then
        [⟨Path.beforeLastSlash c.newPath ++ "/layout.tsx", "layout", c.routeSegment⟩] else []) ++
      (if c.needsLoading then
        [⟨Path.beforeLastSlash c.newPath ++ "/loading.tsx", "loading", c.routeSegment⟩] else []) ++
      (if c.needsError then
        [⟨Path.beforeLastSlash c.newPath ++ "/error.tsx", "error", c.routeSegment⟩] else [])) :
    Wants (perFile files spec) spec w := by
  refine List.mem_append_right _ (List.mem_flatMap.2 ⟨c, hc, ?_⟩)
  have hasks : ¬ (!c.isRoute || c.role != "page" ||
      Path.beforeLastSlash c.newPath == spec.target.fileStructure.pages) = true := by
    simp [hpage.route, hpage.role, hpage.outside]
  rwa [wantedBy, if_neg hasks]

/-- Only changes of files have needs. -/
theorem mem_perFile_of_needs (hlane : LaneRegistry.builtIn.laneOf? spec = some Lane.appRouter)
    (hc : c ∈ Structure.plan .builtIn files spec)
    (hneeds : c.needsLayout = true ∨ c.needsLoading = true ∨ c.needsError = true) :
    c ∈ perFile files spec := by
  rcases List.mem_append.1 ((plan_perm hlane).mem_iff.1 hc) with hc | hc
  · exact hc
  · obtain ⟨hlayout, hloading, herror⟩ := (created_of_mem hc).noNeeds
    simp [hlayout, hloading, herror] at hneeds

/-- What the layout of a plan needs is wanted when the plan is made. -/
theorem Needed.wants (hlane : LaneRegistry.builtIn.laneOf? spec = some Lane.appRouter)
    (h : Needed spec.target.fileStructure.pages (Structure.plan .builtIn files spec) path) :
    ∃ w, Wants (perFile files spec) spec w ∧ w.path = path := by
  cases h with
  | rootLayout => exact ⟨_, List.mem_append_left _ (.head _), rfl⟩
  | rootError => exact ⟨_, List.mem_append_left _ (.tail _ (.head _)), rfl⟩
  | notFound => exact ⟨_, List.mem_append_left _ (.tail _ (.tail _ (.head _))), rfl⟩
  | sheet => exact ⟨_, List.mem_append_left _ (.tail _ (.tail _ (.tail _ (.head _)))), rfl⟩
  | layout hc hpage hneeds =>
    have hfile := mem_perFile_of_needs hlane hc (.inl hneeds)
    exact ⟨_, wants_of_isOuterPage hfile hpage
      (List.mem_append_left _ (List.mem_append_left _ (by rw [if_pos hneeds]; exact .head _))), rfl⟩
  | loading hc hpage hneeds =>
    have hfile := mem_perFile_of_needs hlane hc (.inr (.inl hneeds))
    exact ⟨_, wants_of_isOuterPage hfile hpage
      (List.mem_append_left _ (List.mem_append_right _ (by rw [if_pos hneeds]; exact .head _))), rfl⟩
  | error hc hpage hneeds =>
    have hfile := mem_perFile_of_needs hlane hc (.inr (.inr hneeds))
    exact ⟨_, wants_of_isOuterPage hfile hpage
      (List.mem_append_right _ (by rw [if_pos hneeds]; exact .head _)), rfl⟩

/-- There is a change for every path that is needed. -/
theorem exists_change_of_needed (h : ToAppRouter spec)
    (hneeded : Needed spec.target.fileStructure.pages (Structure.plan .builtIn files spec) path) :
    ∃ c ∈ Structure.plan .builtIn files spec, c.newPath = path := by
  have hwants := hneeded.wants h.laneOf?
  by_cases htaken : path ∈ (perFile files spec).map (·.newPath)
  · obtain ⟨c, hc, hpath⟩ := List.mem_map.1 htaken
    exact ⟨c, (mem_plan_builtIn h.laneOf?).2 (.inl hc), hpath⟩
  · obtain ⟨c, hc, -, -, hpath⟩ := exists_created_iff.2
      ⟨h.laneOf?, List.contains_iff_mem.2 h.routing, hwants, htaken⟩
    exact ⟨c, hc, hpath⟩

/-! ### The plan as a whole -/

/-- A plan has what it needs, nothing twice, and an order. -/
structure WellPlanned (files : Structure.Files) (spec : Specification) (changes : List FileChange) :
    Prop where
  /-- There is a change for every path that is needed. -/
  needed : ∀ path, Needed spec.target.fileStructure.pages changes path →
    ∃ c ∈ changes, c.newPath = path
  action : ∀ c ∈ changes, c.action = .create ∨ c.action = .move ∨ c.action = .delete
  /-- No two files are created at one path. -/
  created : ((changes.filter (·.action = .create)).map (·.newPath)).Nodup
  /-- No file is created where another one is moved to. -/
  unmoved : ∀ c ∈ changes, ∀ d ∈ changes, c.action = .create → d.action = .move →
    c.newPath ≠ d.newPath
  /-- Every created file has content and takes the place of no other file. -/
  content : ∀ c ∈ changes, c.action = .create →
    (∃ text, c.content = some text ∧ text ≠ "") ∧ c.originalPath = ""
  /-- All other changes are those of files of the repository. -/
  file : ∀ c ∈ changes, c.action ≠ .create → c.originalPath ∈ files.map (·.1)
  /-- No file has two changes. -/
  once : ((changes.filter (·.action ≠ .create)).map (·.originalPath)).Nodup
  order : changes.Pairwise Structure.Before

/-- The changes of the plan that create files are the created ones, and the others are those for the files
of the repository. -/
theorem filter_plan_perm (hlane : LaneRegistry.builtIn.laneOf? spec = some Lane.appRouter)
    (p : Bool → Bool) :
    ((Structure.plan .builtIn files spec).filter fun c => p (decide (c.action = .create))).Perm
      ((if p false then perFile files spec else []) ++ if p true then created files spec else []) := by
  have hfiles : ∀ c ∈ perFile files spec, decide (c.action = .create) = false := fun c hc => by
    rcases action_of_mem_perFile hc with haction | haction <;> simp [haction]
  have hcreated : ∀ c ∈ created files spec, decide (c.action = .create) = true := fun c hc => by
    simp [(created_of_mem hc).action]
  have hpart : ∀ (changes : List FileChange) (b : Bool),
      (∀ c ∈ changes, decide (c.action = .create) = b) →
        (changes.filter fun c => p (decide (c.action = .create))) = if p b then changes else [] := by
    intro changes b hall
    rw [List.filter_congr fun c hc => congrArg p (hall c hc)]
    cases p b <;> simp
  rw [← hpart _ _ hfiles, ← hpart _ _ hcreated, ← List.filter_append]
  exact (plan_perm hlane).filter _

/-- **Plans for the app router are complete, free of duplicates and in order.** -/
theorem wellPlanned (h : ToAppRouter spec) (hfiles : (files.map (·.1)).Nodup) :
    WellPlanned files spec (Structure.plan .builtIn files spec) := by
  have hcreated : ((Structure.plan .builtIn files spec).filter (·.action = .create)).Perm
      (created files spec) := by simpa using filter_plan_perm h.laneOf? (·)
  have hothers : ((Structure.plan .builtIn files spec).filter (·.action ≠ .create)).Perm
      (perFile files spec) := by simpa using filter_plan_perm h.laneOf? (!·)
  have hsplit : ∀ c ∈ Structure.plan .builtIn files spec,
      c ∈ perFile files spec ∨ c ∈ created files spec :=
    fun c hc => List.mem_append.1 ((plan_perm h.laneOf?).mem_iff.1 hc)
  have hcreate : ∀ c ∈ Structure.plan .builtIn files spec, c.action = .create →
      Created files spec c := fun c hc haction =>
    created_of_mem (hcreated.mem_iff.1 (List.mem_filter.2 ⟨hc, by simpa⟩))
  have hother : ∀ c ∈ Structure.plan .builtIn files spec, c.action ≠ .create →
      c ∈ perFile files spec := fun c hc haction =>
    hothers.mem_iff.1 (List.mem_filter.2 ⟨hc, by simpa⟩)
  have horiginals := originalPath_perFile_sublist files spec
  refine ⟨fun path => exists_change_of_needed h, fun c hc => ?_, ?_, fun c hc d hd hcreated hmoved => ?_,
    fun c hc haction => ⟨(hcreate c hc haction).content, (hcreate c hc haction).original⟩,
    fun c hc haction => ?_, ?_, Structure.pairwise_before_plan ..⟩
  · exact (hsplit c hc).elim (fun hc => .inr (action_of_mem_perFile hc))
      fun hc => .inl (created_of_mem hc).action
  · exact (hcreated.map _).nodup_iff.2 (nodup_created files spec)
  · have hd : d ∈ perFile files spec := hother d hd (by simp [hmoved])
    exact fun hsame => (hcreate c hc hcreated).free (hsame ▸ List.mem_map_of_mem hd)
  · exact horiginals.subset (List.mem_map_of_mem (hother c hc haction))
  · exact (hothers.map _).nodup_iff.2 (horiginals.nodup hfiles)

/-- A small site with a page of its own, which fetches what it shows. -/
def smallSite : Structure.Files :=
  [("src/App.jsx", "export default App;"), ("src/index.js", "import App from './App';"),
    ("src/index.css", "body \x7b margin: 0; \x7d"),
    ("src/pages/about.jsx", "export const load = async () => fetch('/about');")]

theorem wellPlanned_smallSite :
    ToAppRouter {} ∧ (smallSite.map (·.1)).Nodup ∧
      WellPlanned smallSite {} (Structure.plan .builtIn smallSite {}) :=
  have hlane : ToAppRouter {} := ⟨by decide +kernel, by decide +kernel, by decide +kernel⟩
  have hfiles : (smallSite.map (·.1)).Nodup := by decide +kernel
  ⟨hlane, hfiles, wellPlanned hlane hfiles⟩

end WebMigration.Lane.AppRouter
