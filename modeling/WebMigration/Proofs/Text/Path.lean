import Mathlib.Data.List.TakeWhile
import WebMigration.Proofs.Text.Pieces
import WebMigration.Text.Path

/-!
# Paths and where they lead

A path is its segments with slashes between, and no segment has a slash.  A slash between two paths puts
the segments of the one behind those of the other.  A chain of segments leads from a directory below a
root to a place below the root, or out of the root.  Cancelling double dots finds this place, and a chain
that leads out of the root keeps double dots in front.
-/

namespace WebMigration.Text

/-! ### Texts with something in front -/

theorem startsWith_iff {start s : String} : startsWith start s = true ↔ ∃ rest, s = start ++ rest := by
  rw [startsWith, List.isPrefixOf_iff_prefix]
  constructor
  · rintro ⟨rest, hrest⟩
    refine ⟨String.ofList rest, ?_⟩
    rw [← String.toList_inj, ← hrest, String.toList_append, String.toList_ofList]
  · rintro ⟨rest, rfl⟩
    rw [String.toList_append]
    exact List.prefix_append _ _

/-! ### Trailing slashes -/

/-- A name and the same name without the slashes at its end. -/
structure Bare (name bare : String) : Prop where
  slashes : ∃ n, name.toList = bare.toList ++ List.replicate n '/'
  ending : bare.toList.getLast? ≠ some '/'

theorem bare_withoutTrailingSlashes (name : String) : Bare name (withoutTrailingSlashes name) := by
  have htail : ∀ c ∈ name.toList.reverse.takeWhile (· == '/'), c = '/' := by
    intro c hc
    simpa using List.mem_takeWhile_imp hc
  constructor
  · refine ⟨(name.toList.reverse.takeWhile (· == '/')).length, ?_⟩
    rw [withoutTrailingSlashes, String.toList_ofList, dropEndWhile, ← List.reverse_inj,
      List.reverse_append, List.reverse_reverse, List.reverse_replicate,
      ← List.eq_replicate_of_mem htail, List.takeWhile_append_dropWhile]
  · rw [withoutTrailingSlashes, String.toList_ofList, dropEndWhile, List.getLast?_reverse]
    intro hhead
    have hfirst := List.head?_dropWhile_not (· == '/') name.toList.reverse
    rw [hhead] at hfirst
    simp at hfirst

theorem bare_iff {name bare : String} : Bare name bare ↔ withoutTrailingSlashes name = bare := by
  constructor
  · rintro ⟨⟨n, hname⟩, hending⟩
    have hkept : bare.toList.reverse.dropWhile (· == '/') = bare.toList.reverse := by
      rw [List.dropWhile_eq_self_iff]
      intro hlength hhead
      apply hending
      rw [← List.head?_reverse, List.head?_eq_getElem?, List.getElem?_eq_getElem hlength]
      simpa using hhead
    rw [withoutTrailingSlashes, dropEndWhile, hname, List.reverse_append, List.reverse_replicate,
      List.dropWhile_append_of_pos (by simp), hkept, List.reverse_reverse, String.ofList_toList]
  · rintro rfl
    exact bare_withoutTrailingSlashes name

namespace Path

/-! ### Segments -/

theorem segments_eq (path : String) : segments path = (path.toList.splitOn '/').map String.ofList := by
  rw [segments, splitOn, show "/".toList = ['/'] from rfl, pieces_eq_splitOn]

theorem map_toList_segments (path : String) : (segments path).map String.toList = path.toList.splitOn '/' := by
  rw [segments_eq, List.map_map, List.map_congr_left (g := id) (by simp), List.map_id]

theorem segments_ne_nil (path : String) : segments path ≠ [] := by
  rw [segments_eq]
  simp [List.splitOn_ne_nil]

/-- The segments of one path below another. -/
theorem segments_append (front back : String) :
    segments (front ++ "/" ++ back) = segments front ++ segments back := by
  have hlist : (front ++ "/" ++ back).toList = front.toList ++ '/' :: back.toList := by simp
  rw [segments_eq, segments_eq, segments_eq, hlist, List.splitOn_append_cons_self, List.map_append]

theorem not_mem_of_mem_splitOn {c : Char} {cs piece : List Char} (h : piece ∈ cs.splitOn c) : c ∉ piece := by
  induction cs generalizing piece with
  | nil =>
    rw [List.splitOn_nil, List.mem_singleton] at h
    rw [h]
    exact List.not_mem_nil
  | cons d rest ih =>
    rw [List.splitOn, List.splitOnP_cons_eq_if_modifyHead] at h
    split at h
    · rcases List.mem_cons.1 h with rfl | h
      · exact List.not_mem_nil
      · exact ih h
    · rename_i hd
      obtain ⟨first, others, hpieces⟩ := List.exists_cons_of_ne_nil (List.splitOn_ne_nil c rest)
      rw [← List.splitOn, hpieces, List.modifyHead_cons] at h
      rw [hpieces] at ih
      rcases List.mem_cons.1 h with rfl | h
      · rw [List.mem_cons, not_or]
        exact ⟨fun hc => hd (by simp [hc]), ih List.mem_cons_self⟩
      · exact ih (List.mem_cons_of_mem _ h)

/-- No segment has a slash. -/
theorem slash_not_mem {path segment : String} (h : segment ∈ segments path) : '/' ∉ segment.toList := by
  rw [segments_eq] at h
  obtain ⟨cs, hcs, rfl⟩ := List.mem_map.1 h
  rw [String.toList_ofList]
  exact not_mem_of_mem_splitOn hcs

/-- Texts without slashes are the segments of the path that they make up. -/
theorem segments_join {parts : List String} (hparts : ∀ s ∈ parts, '/' ∉ s.toList) (hne : parts ≠ []) :
    segments (join "/" parts) = parts := by
  rw [segments_eq, join, String.toList_intercalate, show "/".toList = ['/'] from rfl,
    List.splitOn_intercalate, List.map_map, List.map_congr_left (g := id) (by simp), List.map_id]
  · simpa using hparts
  · simpa using hne

theorem join_segments (path : String) : join "/" (segments path) = path := by
  rw [join, ← String.toList_inj, String.toList_intercalate, map_toList_segments]
  exact List.intercalate_splitOn '/'

theorem join_append {front back : List String} (hfront : front ≠ []) (hback : back ≠ []) :
    join "/" (front ++ back) = join "/" front ++ "/" ++ join "/" back := by
  unfold join
  induction front with
  | nil => exact absurd rfl hfront
  | cons first rest ih =>
    by_cases hrest : rest = []
    · subst hrest
      rw [List.singleton_append, String.intercalate_cons_of_ne_nil hback, String.intercalate_singleton]
    · rw [List.cons_append, String.intercalate_cons_of_ne_nil (by simp [hrest]), ih hrest,
        String.intercalate_cons_of_ne_nil hrest]
      simp [String.append_assoc]

end Path

end WebMigration.Text

namespace WebMigration.Text.Path

variable {here there path front back : List String} {segment dir name : String}

/-! ### Walking -/

/-- One segment from a directory, which is given by the names on the way from the root: empty segments and
single dots stay there, and double dots lead up, though not from the root. -/
def go (here : List String) (segment : String) : Option (List String) :=
  if segment = "" ∨ segment = "." then some here
  else if segment = ".." then if here = [] then none else some here.dropLast
  else some (here ++ [segment])

/-- Where a chain of segments leads, unless it leads out of the root on its way. -/
def walk (here : List String) : List String → Option (List String)
  | [] => some here
  | segment :: rest => (go here segment).bind fun there => walk there rest

theorem walk_append (here front back : List String) :
    walk here (front ++ back) = (walk here front).bind fun there => walk there back := by
  induction front generalizing here with
  | nil => rfl
  | cons segment rest ih =>
    rw [List.cons_append, walk, walk]
    cases go here segment with
    | none => rfl
    | some there => exact ih there

theorem go_of_name (hempty : segment ≠ "") (hdot : segment ≠ ".") (hdots : segment ≠ "..") :
    go here segment = some (here ++ [segment]) := by
  rw [go, if_neg (by simp [hempty, hdot]), if_neg hdots]

theorem walk_empty (here : List String) : walk here (segments "") = some here := by
  have h : segments "" = [""] := by rw [segments_eq]; rfl
  rw [h]
  simp [walk, go]

/-- A name that can stand on the way from a root. -/
structure IsName (segment : String) : Prop where
  ne_empty : segment ≠ ""
  ne_dot : segment ≠ "."
  ne_dots : segment ≠ ".."
  slashless : '/' ∉ segment.toList

/-- A walk leads from names to names. -/
theorem isName_of_walk (hsegments : ∀ s ∈ back, '/' ∉ s.toList) (hhere : ∀ n ∈ here, IsName n)
    (h : walk here back = some there) : ∀ n ∈ there, IsName n := by
  induction back generalizing here with
  | nil =>
    obtain rfl := Option.some.inj h
    exact hhere
  | cons segment rest ih =>
    obtain ⟨next, hgo, hrest⟩ := Option.bind_eq_some_iff.1 h
    refine ih (fun s hs => hsegments s (List.mem_cons_of_mem _ hs)) ?_ hrest
    rw [go] at hgo
    split at hgo
    · obtain rfl := Option.some.inj hgo
      exact hhere
    · rename_i hblank
      split at hgo
      · split at hgo
        · cases hgo
        · obtain rfl := Option.some.inj hgo
          exact fun n hn => hhere n ((List.dropLast_sublist here).subset hn)
      · rename_i hdots
        obtain rfl := Option.some.inj hgo
        intro n hn
        rcases List.mem_append.1 hn with hn | hn
        · exact hhere n hn
        · obtain rfl := List.mem_singleton.1 hn
          exact ⟨fun h => hblank (.inl h), fun h => hblank (.inr h), hdots,
            hsegments n List.mem_cons_self⟩

/-! ### Cancelling -/

theorem step_of_go (hhere : ".." ∉ here) (h : go here segment = some there) :
    step false here.reverse segment = there.reverse ∧ ".." ∉ there := by
  rw [go] at h
  unfold step
  split at h
  · rename_i hblank
    obtain rfl := Option.some.inj h
    exact ⟨if_pos (by simpa [String.isEmpty_iff] using hblank), hhere⟩
  · rename_i hblank
    rw [if_neg (by simpa [String.isEmpty_iff] using hblank)]
    split at h
    · rename_i hdots
      subst hdots
      split at h
      · cases h
      · rename_i hne
        obtain rfl := Option.some.inj h
        obtain ⟨front, last, rfl⟩ := List.eq_nil_or_concat' here |>.resolve_left hne
        have hlast : last ≠ ".." := by
          rintro rfl
          exact hhere (by simp)
        refine ⟨?_, fun hmem => hhere ((List.dropLast_sublist _).subset hmem)⟩
        simp [hlast]
    · rename_i hdots
      obtain rfl := Option.some.inj h
      refine ⟨?_, ?_⟩
      · rw [if_pos (by simpa using hdots), List.reverse_append]
        rfl
      · intro hmem
        rcases List.mem_append.1 hmem with hmem | hmem
        · exact hhere hmem
        · exact hdots (List.mem_singleton.1 hmem).symm

theorem foldl_step_of_walk {segments : List String} (hhere : ".." ∉ here) (h : walk here segments = some there) :
    segments.foldl (step false) here.reverse = there.reverse := by
  induction segments generalizing here with
  | nil => rw [List.foldl_nil, Option.some.inj h]
  | cons segment rest ih =>
    obtain ⟨next, hgo, hrest⟩ := Option.bind_eq_some_iff.1 h
    obtain ⟨hstep, hnext⟩ := step_of_go hhere hgo
    rw [List.foldl_cons, hstep, ih hnext hrest]

/-- Double dots that led out of the root stay in front of everything. -/
theorem getLast?_foldl_step {segments stack : List String} (h : stack.getLast? = some "..") :
    (segments.foldl (step false) stack).getLast? = some ".." := by
  induction segments generalizing stack with
  | nil => exact h
  | cons segment rest ih =>
    rw [List.foldl_cons]
    apply ih
    unfold step
    split
    · exact h
    · split
      · rw [List.getLast?_cons, h]
        rfl
      · cases stack with
        | nil => cases h
        | cons last more =>
          dsimp only
          split
          · rw [List.getLast?_cons, h]
            rfl
          · rename_i hlast
            cases more with
            | nil => exact absurd (by simpa using h) hlast
            | cons next more => rwa [List.getLast?_cons_cons] at h

theorem foldl_step_of_walk_none {segments : List String} (hhere : ".." ∉ here)
    (h : walk here segments = none) :
    (segments.foldl (step false) here.reverse).getLast? = some ".." := by
  -- As long as the walk goes on, the stack is the place turned around; at the root `..` is pushed and stays.
  induction segments generalizing here with
  | nil => cases h
  | cons segment rest ih =>
    rw [walk] at h
    rw [List.foldl_cons]
    cases hgo : go here segment with
    | some next =>
      obtain ⟨hstep, hnext⟩ := step_of_go hhere hgo
      rw [hgo] at h
      rw [hstep]
      exact ih hnext h
    | none =>
      rw [go] at hgo
      split at hgo
      · cases hgo
      · split at hgo
        · rename_i hdots
          subst hdots
          split at hgo
          · rename_i hroot
            subst hroot
            exact getLast?_foldl_step rfl
          · cases hgo
        · cases hgo

theorem cancel_of_walk {segments : List String} (h : walk [] segments = some path) :
    cancel false segments = path := by
  rw [cancel, ← List.reverse_nil, foldl_step_of_walk List.not_mem_nil h, List.reverse_reverse]

theorem cancel_of_walk_none {segments : List String} (h : walk [] segments = none) :
    ∃ rest, cancel false segments = ".." :: rest := by
  have hlast := foldl_step_of_walk_none List.not_mem_nil h
  rw [← List.head?_reverse] at hlast
  exact List.head?_eq_some_iff.1 hlast

/-! ### Directories -/

theorem walk_slash (here : List String) (name : String) :
    walk here (segments (name ++ "/")) = walk here (segments name) := by
  have h : segments (name ++ "/") = segments name ++ segments "" := by
    rw [← segments_append, String.append_empty]
  rw [h, walk_append]
  cases walk here (segments name) with
  | none => rfl
  | some there => exact walk_empty there

theorem walk_of_bare {bare : String} (here : List String) (h : Bare name bare) :
    walk here (segments name) = walk here (segments bare) := by
  obtain ⟨⟨n, hname⟩, -⟩ := h
  induction n generalizing name with
  | zero =>
    rw [List.replicate_zero, List.append_nil, String.toList_inj] at hname
    rw [hname]
  | succ n ih =>
    have hslash : name = String.ofList (bare.toList ++ List.replicate n '/') ++ "/" := by
      rw [← String.toList_inj, hname, List.replicate_succ']
      simp
    rw [hslash, walk_slash]
    exact ih (by simp)

/-- A path has no slash, or it is a path and a last segment. -/
theorem slashless_or_below (path : String) : '/' ∉ path.toList ∨
    ∃ front last : String, path = front ++ "/" ++ last ∧ '/' ∉ last.toList := by
  by_cases hslash : '/' ∈ path.toList
  · obtain ⟨last, front, hreverse, hlast⟩ := List.eq_append_cons_of_mem (List.mem_reverse.2 hslash)
    refine .inr ⟨String.ofList front.reverse, String.ofList last.reverse, ?_, by simpa using hlast⟩
    rw [← String.toList_inj, ← List.reverse_inj, hreverse]
    simp
  · exact .inl hslash

theorem fileName_of_slashless (h : '/' ∉ name.toList) : fileName name = name := by
  have htake : name.toList.reverse.takeWhile (· != '/') = name.toList.reverse := by
    rw [List.takeWhile_eq_self_iff]
    intro c hc
    simpa using fun heq : c = '/' => h (heq ▸ List.mem_reverse.1 hc)
  rw [fileName, splitLast, htake, List.reverse_reverse, String.ofList_toList]

theorem fileName_below {front last : String} (h : '/' ∉ last.toList) :
    fileName (front ++ "/" ++ last) = last := by
  have htake : (front ++ "/" ++ last).toList.reverse.takeWhile (· != '/') = last.toList.reverse := by
    have hlist : (front ++ "/" ++ last).toList.reverse = last.toList.reverse ++ '/' :: front.toList.reverse := by
      simp
    rw [hlist, List.takeWhile_append_of_pos, List.takeWhile_cons_of_neg (by simp), List.append_nil]
    intro c hc
    simpa using fun heq : c = '/' => h (heq ▸ List.mem_reverse.1 hc)
  rw [fileName, splitLast, htake, List.reverse_reverse, String.ofList_toList]

theorem directory_of_slashless (h : '/' ∉ name.toList) : directory name = "" := by
  rw [directory, fileName_of_slashless h, Nat.sub_self, List.take_zero]
  rfl

theorem directory_below {front last : String} (h : '/' ∉ last.toList) :
    directory (front ++ "/" ++ last) =
      if withoutTrailingSlashes front = "" then front ++ "/" else withoutTrailingSlashes front := by
  have hhead : (front ++ "/" ++ last).toList.take ((front ++ "/" ++ last).length - last.length) =
      (front ++ "/").toList := by
    have hlength : (front ++ "/" ++ last).length - last.length = (front ++ "/").toList.length := by
      rw [String.length_append, Nat.add_sub_cancel, String.length_toList]
    rw [hlength, show (front ++ "/" ++ last).toList = (front ++ "/").toList ++ last.toList from
      String.toList_append, List.take_left]
  have hbare : dropEndWhile (· == '/') (front ++ "/").toList = dropEndWhile (· == '/') front.toList := by
    simp [dropEndWhile]
  unfold directory
  rw [fileName_below h, hhead]
  dsimp only
  rw [hbare]
  by_cases hempty : dropEndWhile (· == '/') front.toList = []
  · rw [withoutTrailingSlashes, hempty, List.isEmpty_nil, if_pos rfl, if_pos rfl, String.ofList_toList]
  · have hne : withoutTrailingSlashes front ≠ "" := by
      simpa [withoutTrailingSlashes, String.ofList_eq_empty_iff] using hempty
    rw [if_neg (by simp [hempty]), if_neg hne, withoutTrailingSlashes]

/-- Where a file lies is where the segments before its last one lead. -/
theorem walk_directory (here : List String) (path : String) :
    walk here (segments (directory path)) = walk here (segments path).dropLast := by
  rcases slashless_or_below path with h | ⟨front, last, rfl, h⟩
  · have hone : segments path = [path] := by
      rw [segments_eq, List.splitOn_eq_singleton h, List.map_singleton, String.ofList_toList]
    rw [directory_of_slashless h, walk_empty, hone]
    rfl
  · have hone : segments last = [last] := by
      rw [segments_eq, List.splitOn_eq_singleton h, List.map_singleton, String.ofList_toList]
    rw [directory_below h, segments_append, hone, List.dropLast_concat]
    split
    · exact walk_slash here front
    · exact (walk_of_bare here (bare_withoutTrailingSlashes front)).symm

/-- A path below a directory leads on from where the directory leads. -/
theorem walk_below (here : List String) (h : startsWith "/" name = false) :
    walk here (segments (below dir name)) = walk here (segments dir ++ segments name) := by
  rw [below, if_neg (by simp [h])]
  split
  · rename_i hjoined
    rw [Bool.or_eq_true, String.isEmpty_iff] at hjoined
    rcases hjoined with rfl | hslash
    · rw [walk_append, walk_empty, String.empty_append]
      rfl
    · obtain ⟨front, hfront⟩ := List.isSuffixOf_iff_suffix.1 hslash
      have hdir : dir = String.ofList front ++ "/" := by
        rw [← String.toList_inj, ← hfront]
        simp
      rw [hdir, segments_append, walk_append, walk_append, walk_slash]
  · rw [segments_append]

/-! ### Absolute paths -/

theorem startsWith_slash_iff (name : String) : startsWith "/" name = true ↔ name.toList.head? = some '/' := by
  rw [startsWith, show "/".toList = ['/'] from rfl, List.isPrefixOf_iff_prefix]
  cases name.toList with
  | nil => simp
  | cons c rest => simp [List.cons_prefix_cons, eq_comm]

theorem head?_append_of_ne {a b : String} (h : a ≠ "") : (a ++ b).toList.head? = a.toList.head? := by
  have hne : a.toList ≠ [] := by simpa using h
  rw [String.toList_append, List.head?_append_of_ne_nil _ hne]

/-- A file and its directory are both absolute or both relative. -/
theorem startsWith_slash_directory (path : String) :
    startsWith "/" (directory path) = startsWith "/" path := by
  rw [Bool.eq_iff_iff, startsWith_slash_iff, startsWith_slash_iff]
  rcases slashless_or_below path with h | ⟨front, last, rfl, h⟩
  · rw [directory_of_slashless h]
    constructor
    · intro hhead
      cases hhead
    · intro hhead
      exact absurd (List.mem_of_mem_head? hhead) h
  · rw [directory_below h]
    split
    · rw [head?_append_of_ne (b := last) (by simp)]
    · rename_i hne
      obtain ⟨⟨n, hfront⟩, -⟩ := bare_withoutTrailingSlashes front
      have hsplit : front = withoutTrailingSlashes front ++ String.ofList (List.replicate n '/') := by
        rw [← String.toList_inj, hfront]
        simp
      have hwhole : (front ++ "/" ++ last).toList.head? = (withoutTrailingSlashes front).toList.head? := by
        conv_lhs => rw [hsplit, String.append_assoc, String.append_assoc]
        exact head?_append_of_ne hne
      rw [hwhole]

theorem startsWith_slash_below (h : startsWith "/" name = false) :
    startsWith "/" (below dir name) = startsWith "/" dir := by
  rw [below, if_neg (by simp [h])]
  by_cases hempty : dir = ""
  · subst hempty
    rw [if_pos (by simp), String.empty_append, h]
    rfl
  · rw [Bool.eq_iff_iff, startsWith_slash_iff, startsWith_slash_iff]
    split
    · rw [head?_append_of_ne hempty]
    · rw [String.append_assoc, head?_append_of_ne hempty]

theorem rootSlashes_eq_zero_iff (path : String) : rootSlashes path = 0 ↔ startsWith "/" path = false := by
  rw [← Bool.not_eq_true, startsWith_slash_iff, rootSlashes]
  cases hpath : path.toList with
  | nil => simp
  | cons c rest =>
    by_cases hc : c = '/'
    · subst hc
      simp
      split <;> simp
    · simp [hc]

/-- The path that some names make up starts with the first of them. -/
theorem exists_join_cons (first : String) (rest : List String) :
    ∃ more, join "/" (first :: rest) = first ++ more := by
  by_cases hrest : rest = []
  · subst hrest
    exact ⟨"", by rw [join, String.intercalate_singleton, String.append_empty]⟩
  · exact ⟨"/" ++ join "/" rest, by
      rw [join, String.intercalate_cons_of_ne_nil hrest, String.append_assoc, join]⟩

theorem join_ne_empty {first : String} {rest : List String} (h : first ≠ "") :
    join "/" (first :: rest) ≠ "" := by
  obtain ⟨more, hmore⟩ := exists_join_cons first rest
  rw [hmore]
  simp [h]

theorem normalize_of_relative (h : startsWith "/" name = false) (hne : join "/" (cancel false (segments name)) ≠ "") :
    normalize name = join "/" (cancel false (segments name)) := by
  rw [normalize, (rootSlashes_eq_zero_iff name).2 h]
  simp [hne]

/-- The shortest spelling of a path that leads to a place below the root. -/
theorem normalize_of_walk (h : startsWith "/" name = false) (hwalk : walk [] (segments name) = some path) :
    normalize name = if path = [] then "." else join "/" path := by
  have hcancel := cancel_of_walk hwalk
  cases path with
  | nil =>
    rw [normalize, (rootSlashes_eq_zero_iff name).2 h]
    simp [hcancel, join]
  | cons first rest =>
    have hfirst := isName_of_walk (fun _ hs => slash_not_mem hs) (by simp) hwalk first List.mem_cons_self
    have hne : join "/" (cancel false (segments name)) ≠ "" := by
      rw [hcancel]
      exact join_ne_empty hfirst.ne_empty
    rw [normalize_of_relative h hne, hcancel, if_neg (List.cons_ne_nil _ _)]

/-- The shortest spelling of a path that leads out of the root. -/
theorem normalize_of_walk_none (h : startsWith "/" name = false) (hwalk : walk [] (segments name) = none) :
    ∃ more, normalize name = ".." ++ more := by
  obtain ⟨rest, hcancel⟩ := cancel_of_walk_none hwalk
  have hne : join "/" (cancel false (segments name)) ≠ "" := by
    rw [hcancel]
    exact join_ne_empty (by decide)
  rw [normalize_of_relative h hne, hcancel]
  exact exists_join_cons ".." rest

/-- An absolute path stays absolute. -/
theorem startsWith_slash_normalize (h : startsWith "/" name = true) :
    startsWith "/" (normalize name) = true := by
  have hroots : rootSlashes name ≠ 0 := by
    rw [ne_eq, rootSlashes_eq_zero_iff, h]
    decide
  obtain ⟨n, hn⟩ := Nat.exists_eq_succ_of_ne_zero hroots
  rw [startsWith_slash_iff, normalize, hn, List.replicate_succ]
  simp

end WebMigration.Text.Path
