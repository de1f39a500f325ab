import Mathlib.Data.List.Basic
import WebMigration.Lane.AppRouter
import WebMigration.Structure.Placement
import WebMigration.Structure.Plan

/-!
# What the lane to the app router plans

Each planned change moves or deletes one file; style sheets are only moved to the global style sheet.
Beyond these, exactly the files that the layout needs and no file is moved to are created, and each of
them has content.
-/

namespace WebMigration.Lane.AppRouter

open Text

/-! ### Files of a repository -/

/-- A file is a style sheet for the whole site. -/
def IsGlobalSheet (path : String) : Prop :=
  isStyleSheet (Path.withSlashes path) = true ∧ isGlobalStyleSheet (Path.withSlashes path) = true

/-- A change moves a file that is no style sheet. -/
structure MovesOther (path : String) (c : FileChange) : Prop where
  original : c.originalPath = path
  action : c.action = .move
  role : c.role ≠ "style"

theorem movesOther_requestChange (path relative content base : String) :
    MovesOther path (requestChange path relative content base) :=
  ⟨rfl, rfl, show "api" ≠ "style" by decide⟩

theorem movesOther_pageChange (path relative content base : String) :
    MovesOther path (pageChange path relative content base) :=
  ⟨rfl, rfl, show "page" ≠ "style" by decide⟩

theorem movesOther_componentChange {path slashed content components : String} {c : FileChange}
    (h : componentChange? path slashed content components = some c) : MovesOther path c := by
  obtain ⟨d, -, rfl⟩ := Option.map_eq_some_iff.1 h
  exact ⟨rfl, rfl, show "component" ≠ "style" by decide⟩

/-- What can be planned for a file. -/
inductive PlannedFor (path content : String) (c : FileChange) : Prop
  | delete : c.originalPath = path → c.action = .delete → PlannedFor path content c
  | moveSheet : IsGlobalSheet path → c = moveTo path globalStyles "style" content →
      PlannedFor path content c
  | moveOther : MovesOther path c → PlannedFor path content c

theorem plan_cases {path content : String} {spec : Specification} {c : FileChange}
    (h : plan path content spec = some c) : PlannedFor path content c := by
  unfold plan at h
  dsimp only at h
  generalize (if startsWith "src/" (Path.withSlashes path) = true then
    drop 4 (Path.withSlashes path) else Path.withSlashes path) = relative at h
  split at h
  · obtain rfl := Option.some.inj h
    exact .delete rfl rfl
  split at h
  · rename_i hsheet
    split at h
    · rename_i hglobal
      exact .moveSheet ⟨hsheet, hglobal⟩ (Option.some.inj h).symm
    · cases h
  split at h
  · cases h
  split at h
  · obtain rfl := Option.some.inj h
    exact .moveOther ⟨rfl, rfl, show "test" ≠ "style" by decide⟩
  split at h
  · obtain rfl := Option.some.inj h
    exact .moveOther ⟨rfl, rfl, show "page" ≠ "style" by decide⟩
  split at h
  · obtain rfl := Option.some.inj h
    exact .moveOther (movesOther_requestChange ..)
  split at h
  · obtain rfl := Option.some.inj h
    exact .moveOther (movesOther_pageChange ..)
  · exact .moveOther (movesOther_componentChange h)

/-- A file of the old layout is no style sheet for the whole site. -/
theorem not_isGlobalStyleSheet_removed : ∀ path ∈ removedFiles, isGlobalStyleSheet path = false := by
  decide +kernel

/-- A style sheet for the whole site becomes the global one. -/
theorem plan_globalSheet {path : String} (h : IsGlobalSheet path) (content : String)
    (spec : Specification) :
    plan path content spec = some (moveTo path globalStyles "style" content) := by
  have hstays : ¬ removedFiles.contains (Path.withSlashes path) = true := by
    rw [List.contains_iff_mem]
    intro hremoved
    have hglobal := h.2
    rw [not_isGlobalStyleSheet_removed _ hremoved] at hglobal
    cases hglobal
  rw [plan]
  dsimp only
  rw [if_neg hstays, if_pos h.1, if_pos h.2]

/-! ### Files that are needed -/

/-- The roles of the files that the layout may need. -/
def neededRoles : List String := ["layout", "error", "page", "style", "loading"]

/-- A file that the layout needs, given the planned changes. -/
def Wants (planned : List FileChange) (spec : Specification) (w : Wanted) : Prop :=
  w ∈ wantedAtRoot spec.target.fileStructure.pages ++
    planned.flatMap (wantedBy spec.target.fileStructure.pages)

/-- A wanted file is the global style sheet or a script. -/
theorem Wants.styles_or_script {planned : List FileChange} {spec : Specification} {w : Wanted}
    (h : Wants planned spec w) : w.path = globalStyles ∧ w.role = "style" ∨
      (∃ front, w.path = front ++ ".tsx") ∧ w.role ∈ ["layout", "error", "page", "loading"] := by
  have script : ∀ directory name : String, ∃ front, directory ++ (name ++ ".tsx") = front ++ ".tsx" :=
    fun directory name => ⟨directory ++ name, (String.append_assoc ..).symm⟩
  rcases List.mem_append.1 h with h | h
  · simp only [wantedAtRoot, List.mem_cons, List.not_mem_nil, or_false] at h
    rcases h with rfl | rfl | rfl | rfl
    · exact .inr ⟨script _ "/layout", by simp⟩
    · exact .inr ⟨script _ "/error", by simp⟩
    · exact .inr ⟨script _ "/not-found", by simp⟩
    · exact .inl ⟨rfl, rfl⟩
  · obtain ⟨c, -, hw⟩ := List.mem_flatMap.1 h
    unfold wantedBy at hw
    dsimp only at hw
    split at hw
    · cases hw
    · simp only [List.mem_append, List.mem_ite_nil_right, List.mem_singleton] at hw
      rcases hw with (⟨-, rfl⟩ | ⟨-, rfl⟩) | ⟨-, rfl⟩
      · exact .inr ⟨script _ "/layout", by simp⟩
      · exact .inr ⟨script _ "/loading", by simp⟩
      · exact .inr ⟨script _ "/error", by simp⟩

theorem Wants.role {planned : List FileChange} {spec : Specification} {w : Wanted}
    (h : Wants planned spec w) : w.role ∈ neededRoles := by
  rcases h.styles_or_script with ⟨-, hrole⟩ | ⟨-, hrole⟩
  · simp [neededRoles, hrole]
  · simp only [List.mem_cons, List.not_mem_nil, or_false] at hrole
    rcases hrole with hrole | hrole | hrole | hrole <;> simp [neededRoles, hrole]

/-- Of the wanted files only the global style sheet is no script. -/
theorem Wants.path {planned : List FileChange} {spec : Specification} {w : Wanted}
    (h : Wants planned spec w) : w.path = globalStyles ∨ ∃ front, w.path = front ++ ".tsx" :=
  h.styles_or_script.imp And.left And.left

/-- The lower case of a text ends with the lower case of its end. -/
theorem exists_lowerFrom_append (before front back : List Char) :
    ∃ lowered, lowerFrom before (front ++ back) =
      lowered ++ lowerFrom (front.reverse ++ before) back := by
  induction front generalizing before with
  | nil => exact ⟨[], rfl⟩
  | cons c rest ih =>
    obtain ⟨lowered, hrest⟩ := ih (c :: before)
    rw [List.reverse_cons, List.append_assoc, List.singleton_append, List.cons_append, lowerFrom, hrest]
    split
    · exact ⟨_ :: lowered, rfl⟩
    · exact ⟨lowerChar c ++ lowered, (List.append_assoc ..).symm⟩

/-- A script is no style sheet. -/
theorem not_isStyleSheet_script (front : String) :
    Structure.isStyleSheet (front ++ ".tsx") = false := by
  have hend : ∀ before, lowerFrom before ".tsx".toList = ['.', 't', 's', 'x'] := fun _ => rfl
  obtain ⟨lowered, hlower⟩ := exists_lowerFrom_append [] front.toList ".tsx".toList
  unfold Structure.isStyleSheet endsWith lower
  rw [String.toList_append, hlower, hend, String.toList_ofList]
  simp [List.isSuffixOf, List.isPrefixOf]

/-- Content is there for every role. -/
theorem scaffold_of_role {c : FileChange} (h : c.role ∈ neededRoles) (spec : Specification) :
    ∃ text, scaffold c spec = some text ∧ text.isEmpty = false := by
  unfold neededRoles at h
  simp only [List.mem_cons, List.not_mem_nil, or_false] at h
  unfold scaffold
  rcases h with h | h | h | h | h <;> rw [h]
  · by_cases hroot : c.newPath = spec.target.fileStructure.pages ++ "/layout.tsx"
    · exact ⟨rootLayout, by simp [hroot], by decide +kernel⟩
    · exact ⟨segmentLayout, by simp [hroot], by decide +kernel⟩
  · exact ⟨errorPage, by simp, by decide +kernel⟩
  · by_cases hmissing : contains "not-found" c.newPath = true
    · exact ⟨notFoundPage, by simp [hmissing], by decide +kernel⟩
    · exact ⟨emptyPage, by simp [hmissing], by decide +kernel⟩
  · exact ⟨styleDirectives, by simp, by decide +kernel⟩
  · exact ⟨loadingPage, by simp, by decide +kernel⟩

/-- Of the wanted files those are left whose paths are not taken. -/
theorem mem_notTaken {taken : List String} {ws : List Wanted} {w : Wanted}
    (h : w ∈ notTaken taken ws) : w ∈ ws ∧ w.path ∉ taken := by
  induction ws generalizing taken with
  | nil => cases h
  | cons v rest ih =>
    rw [notTaken] at h
    split at h
    · exact ⟨List.mem_cons_of_mem _ (ih h).1, (ih h).2⟩
    · rename_i hfree
      rcases List.mem_cons.1 h with rfl | h
      · exact ⟨List.mem_cons_self, by simpa using hfree⟩
      · exact ⟨List.mem_cons_of_mem _ (ih h).1, fun hw => (ih h).2 (List.mem_cons_of_mem _ hw)⟩

/-- A path that is wanted and not taken is left. -/
theorem exists_mem_notTaken {taken : List String} {ws : List Wanted} {w : Wanted} (hw : w ∈ ws)
    (hfree : w.path ∉ taken) : ∃ v ∈ notTaken taken ws, v.path = w.path := by
  induction ws generalizing taken with
  | nil => cases hw
  | cons v rest ih =>
    rw [notTaken]
    by_cases hsame : v.path = w.path
    · rw [if_neg (by simpa [hsame] using hfree)]
      exact ⟨v, List.mem_cons_self, hsame⟩
    · have hrest : w ∈ rest := by
        rcases List.mem_cons.1 hw with rfl | hw
        · exact absurd rfl hsame
        · exact hw
      split
      · exact ih hrest hfree
      · have hfree' : w.path ∉ v.path :: taken := by
          simpa [Ne.symm hsame] using hfree
        obtain ⟨u, hu, hpath⟩ := ih hrest hfree'
        exact ⟨u, List.mem_cons_of_mem _ hu, hpath⟩

/-- The files that the layout needs and that no file is moved to. -/
theorem mem_required_paths {planned : List FileChange} {spec : Specification} {path : String}
    (hrouted : ["approuter", "app"].contains (normalizedKey spec.target.routing) = true) :
    (∃ c ∈ required planned spec, c.newPath = path) ↔
      (∃ w, Wants planned spec w ∧ w.path = path) ∧ path ∉ planned.map (·.newPath) := by
  unfold required
  rw [if_pos hrouted]
  dsimp only
  constructor
  · rintro ⟨c, hc, rfl⟩
    obtain ⟨w, hw, rfl⟩ := List.mem_map.1 hc
    obtain ⟨hwants, hfree⟩ := mem_notTaken hw
    exact ⟨⟨w, hwants, rfl⟩, hfree⟩
  · rintro ⟨⟨w, hw, rfl⟩, hfree⟩
    obtain ⟨v, hv, hpath⟩ := exists_mem_notTaken hw hfree
    exact ⟨v.change, List.mem_map_of_mem hv, hpath⟩

/-- A needed file is created and has one of the roles. -/
theorem of_mem_required {planned : List FileChange} {spec : Specification} {c : FileChange}
    (hc : c ∈ required planned spec) :
    ["approuter", "app"].contains (normalizedKey spec.target.routing) = true ∧
      c.action = .create ∧ c.content = none ∧ c.role ∈ neededRoles := by
  unfold required at hc
  split at hc
  · rename_i hrouted
    dsimp only at hc
    obtain ⟨w, hw, rfl⟩ := List.mem_map.1 hc
    exact ⟨hrouted, rfl, rfl, Wants.role (mem_notTaken hw).1⟩
  · cases hc

/-! ### The plan for a repository -/

/-- The only lane that is built in is that to the app router. -/
theorem lanes_builtIn : LaneRegistry.builtIn.lanes = [("react_to_nextjs", Lane.appRouter)] := by
  have hprofiles : (FrameworkProfile.builtIn.foldl LaneRegistry.registerProfile {}).lanes = [] :=
    List.foldlRecOn (motive := fun r : LaneRegistry => r.lanes = []) _ _ rfl fun _ h _ _ => h
  rw [LaneRegistry.builtIn, LaneRegistry.register, hprofiles]
  rfl

/-- There is one lane, and it applies or not. -/
theorem laneOf?_builtIn (spec : Specification) :
    LaneRegistry.builtIn.laneOf? spec = some Lane.appRouter ∨
      LaneRegistry.builtIn.laneOf? spec = none := by
  rw [LaneRegistry.laneOf?, LaneRegistry.detect?, lanes_builtIn, List.map_singleton, List.foldl_cons,
    List.foldl_nil, LaneRegistry.better, if_neg (by decide)]
  dsimp only [Lane.appRouter]
  split
  · exact .inl rfl
  · exact .inr rfl

variable {files : Structure.Files} {spec : Specification} {c : FileChange} {path : String}

/-- What is planned for the files of a repository, each for itself. -/
def perFile (files : Structure.Files) (spec : Specification) : List FileChange :=
  files.filterMap fun f => plan f.1 f.2 spec

theorem mem_plan_builtIn (hlane : LaneRegistry.builtIn.laneOf? spec = some Lane.appRouter) :
    c ∈ Structure.plan .builtIn files spec ↔ c ∈ perFile files spec ∨
      ∃ d ∈ required (perFile files spec) spec, Structure.withScaffold Lane.appRouter spec d = c := by
  have hplan : Lane.appRouter.plan = plan := by simp only [Lane.appRouter]
  have hrequired : Lane.appRouter.required = required := by simp only [Lane.appRouter]
  rw [Structure.plan, hlane]
  dsimp only
  rw [List.mem_mergeSort, Structure.unsorted, hplan, hrequired, List.mem_append, List.mem_map,
    perFile]

theorem plan_builtIn_laneless (hlane : LaneRegistry.builtIn.laneOf? spec = none) :
    Structure.plan .builtIn files spec = [] := by
  rw [Structure.plan, hlane]

theorem lane_of_mem_plan (h : c ∈ Structure.plan .builtIn files spec) :
    LaneRegistry.builtIn.laneOf? spec = some Lane.appRouter := by
  refine (laneOf?_builtIn spec).resolve_right fun hnone => ?_
  rw [plan_builtIn_laneless hnone] at h
  cases h

theorem plannedFor_of_mem (h : c ∈ perFile files spec) :
    ∃ f ∈ files, PlannedFor f.1 f.2 c := by
  obtain ⟨f, hf, hplan⟩ := List.mem_filterMap.1 h
  exact ⟨f, hf, plan_cases hplan⟩

/-- A style sheet for the whole site is planned to become the global one. -/
theorem moveTo_mem_perFile {f : String × String} (hf : f ∈ files) (hglobal : IsGlobalSheet f.1) :
    moveTo f.1 globalStyles "style" f.2 ∈ perFile files spec :=
  List.mem_filterMap.2 ⟨f, hf, plan_globalSheet hglobal _ _⟩

/-- A needed file is created with content. -/
theorem withScaffold_of_mem_required {planned : List FileChange} (h : c ∈ required planned spec) :
    (Structure.withScaffold Lane.appRouter spec c).action = .create ∧
      (Structure.withScaffold Lane.appRouter spec c).newPath = c.newPath ∧
      ((Structure.withScaffold Lane.appRouter spec c).content.getD "").isEmpty = false := by
  obtain ⟨-, haction, hcontent, hrole⟩ := of_mem_required h
  obtain ⟨text, htext, hfull⟩ := scaffold_of_role hrole spec
  unfold Structure.withScaffold
  rw [hcontent]
  refine ⟨haction, rfl, ?_⟩
  show ((scaffold c spec).getD "").isEmpty = false
  rw [htext]
  exact hfull

/-- A repository gets a file at a path: one that its layout needs and to which nothing is moved. -/
structure Adds (files : Structure.Files) (spec : Specification) (path : String) : Prop where
  lane : LaneRegistry.builtIn.laneOf? spec = some Lane.appRouter
  routed : ["approuter", "app"].contains (normalizedKey spec.target.routing) = true
  wanted : ∃ w, Wants (perFile files spec) spec w ∧ w.path = path
  unplanned : path ∉ (perFile files spec).map (·.newPath)

/-- **Exactly the needed files are created.** -/
theorem exists_created_iff :
    (∃ c ∈ Structure.plan .builtIn files spec, c.action = .create ∧
      (c.content.getD "").isEmpty = false ∧ c.newPath = path) ↔ Adds files spec path := by
  constructor
  · rintro ⟨c, hc, haction, -, rfl⟩
    have hlane := lane_of_mem_plan hc
    rcases (mem_plan_builtIn hlane).1 hc with hc | ⟨d, hd, rfl⟩
    · obtain ⟨f, -, hplanned⟩ := plannedFor_of_mem hc
      cases hplanned with
      | delete _ hdelete =>
        rw [hdelete] at haction
        cases haction
      | moveSheet _ hmove =>
        rw [hmove] at haction
        cases haction
      | moveOther hmove =>
        rw [hmove.action] at haction
        cases haction
    · have hrouted := (of_mem_required hd).1
      rw [(withScaffold_of_mem_required hd).2.1]
      obtain ⟨hwanted, hfree⟩ := (mem_required_paths hrouted).1 ⟨d, hd, rfl⟩
      exact ⟨hlane, hrouted, hwanted, hfree⟩
  · rintro ⟨hlane, hrouted, hwanted, hfree⟩
    obtain ⟨d, hd, rfl⟩ := (mem_required_paths hrouted).2 ⟨hwanted, hfree⟩
    obtain ⟨haction, hpath, hcontent⟩ := withScaffold_of_mem_required hd
    exact ⟨_, (mem_plan_builtIn hlane).2 (.inr ⟨d, hd, rfl⟩), haction, hcontent, hpath⟩

/-- **Style sheets are moved exactly where there are some for the whole site.** -/
theorem exists_sheet_move_iff :
    (∃ c ∈ Structure.plan .builtIn files spec, c.role = "style" ∧ c.action = .move ∧
      c.originalPath = path) ↔
      LaneRegistry.builtIn.laneOf? spec = some Lane.appRouter ∧ path ∈ files.map (·.1) ∧
        IsGlobalSheet path := by
  constructor
  · rintro ⟨c, hc, hrole, haction, rfl⟩
    have hlane := lane_of_mem_plan hc
    rcases (mem_plan_builtIn hlane).1 hc with hc | ⟨d, hd, rfl⟩
    · obtain ⟨f, hf, hplanned⟩ := plannedFor_of_mem hc
      cases hplanned with
      | delete _ hdelete =>
        rw [hdelete] at haction
        cases haction
      | moveSheet hglobal hmove =>
        rw [hmove]
        exact ⟨hlane, List.mem_map_of_mem hf, hglobal⟩
      | moveOther hmove => exact absurd hrole hmove.role
    · rw [(withScaffold_of_mem_required hd).1] at haction
      cases haction
  · rintro ⟨hlane, hfile, hglobal⟩
    obtain ⟨f, hf, rfl⟩ := List.mem_map.1 hfile
    have hmem := (mem_plan_builtIn hlane).2 (.inl (moveTo_mem_perFile hf hglobal))
    exact ⟨_, hmem, rfl, rfl, rfl⟩

theorem isGlobalSheet_globalStyles : IsGlobalSheet globalStyles := by
  constructor <;> decide +kernel

namespace Adds

/-- A file that is there and at whose path one is added is no style sheet. -/
theorem not_isStyleSheet (h : Adds files spec path) (hfile : path ∈ files.map (·.1)) :
    Structure.isStyleSheet path = false := by
  obtain ⟨w, hw, rfl⟩ := h.wanted
  rcases hw.path with hglobal | ⟨front, hscript⟩
  · -- The global style sheet would be moved to where it is.
    obtain ⟨f, hf, hpath⟩ := List.mem_map.1 hfile
    rw [hglobal] at hpath
    have hsheet : IsGlobalSheet f.1 := hpath ▸ isGlobalSheet_globalStyles
    exact absurd (List.mem_map.2 ⟨_, moveTo_mem_perFile hf hsheet, hglobal.symm⟩) h.unplanned
  · rw [hscript]
    exact not_isStyleSheet_script front

/-- Nothing is moved to where a file is added. -/
theorem not_moved (h : Adds files spec path) (hc : c ∈ Structure.plan .builtIn files spec)
    (haction : c.action = .move) : c.newPath ≠ path := by
  rcases (mem_plan_builtIn h.lane).1 hc with hc | ⟨d, hd, rfl⟩
  · rintro rfl
    exact h.unplanned (List.mem_map_of_mem hc)
  · rw [(withScaffold_of_mem_required hd).1] at haction
    cases haction

end Adds

end WebMigration.Lane.AppRouter
