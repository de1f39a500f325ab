import WebMigration.Framework.Profile
import WebMigration.Proofs.Table
import WebMigration.Proofs.Text.Path
import WebMigration.Rewrite.Import

/-!
# Abbreviated module names

The abbreviation of a relative module name tells the place that the name leads to, up to the source
directory: the names on the way from the root are those of the abbreviation, with the alias of the first
one in its place.
-/

namespace WebMigration.Rewrite

open Text
open Text.Path (IsName)

variable {aliases : Table String} {source filePath short : String} {place rest : List String}

/-! ### Places -/

/-- What a module name in a file with a relative path denotes, by the names on the way from the root. -/
def Denotes (source filePath : String) (place : List String) : Prop :=
  Path.walk [] ((Path.segments (Path.withSlashes filePath)).dropLast ++ Path.segments source) = some place

/-- A place, seen from the source directory if it lies in there. -/
def afterSource : List String → List String
  | "src" :: next :: rest => next :: rest
  | place => place

/-- Aliases of some directories of a repository other than the source directory, all different and
without slashes. -/
structure Plain (aliases : Table String) : Prop where
  keys : ∀ e ∈ aliases, IsName e.1 ∧ e.1 ≠ "src" ∧ startsWith ".." e.1 = false
  values : ∀ e ∈ aliases, '/' ∉ e.2.toList
  distinct : ∀ e ∈ aliases, ∀ e' ∈ aliases, e.2 = e'.2 → e.1 = e'.1

theorem isName_of_denotes (h : Denotes source filePath place) : ∀ n ∈ place, IsName n := by
  apply Path.isName_of_walk _ (by simp) h
  intro s hs
  rcases List.mem_append.1 hs with hs | hs
  · exact Path.slash_not_mem (List.dropLast_subset _ hs)
  · exact Path.slash_not_mem hs

theorem afterSource_of_ne {first : String} (h : first ≠ "src") :
    afterSource (first :: rest) = first :: rest := by
  unfold afterSource
  split
  · rename_i heq
    exact absurd (List.cons.inj heq).1 h
  · rfl

/-- A place with an alias is seen as it is, or it lies in the source directory. -/
theorem eq_or_of_afterSource {head : String} (h : afterSource place = head :: rest) :
    place = head :: rest ∨ place = "src" :: head :: rest := by
  unfold afterSource at h
  split at h
  · rw [← h]
    exact .inr rfl
  · exact .inl h

theorem mem_afterSource {n : String} (h : n ∈ afterSource place) : n ∈ place := by
  unfold afterSource at h
  split at h
  · exact List.mem_cons_of_mem _ h
  · exact h

theorem withoutSourceDirectory_join (hplace : ∀ n ∈ place, IsName n) (hne : place ≠ []) :
    withoutSourceDirectory (join "/" place) = join "/" (afterSource place) := by
  have hsegments := Path.segments_join (fun n hn => (hplace n hn).slashless) hne
  unfold withoutSourceDirectory
  split
  · rename_i hstart
    obtain ⟨more, hmore⟩ := startsWith_iff.1 hstart
    have hsrc : join "/" place = "src" ++ "/" ++ more := by
      rw [hmore]
      rfl
    have hparts : place = "src" :: Path.segments more := by
      rw [← hsegments, hsrc, Path.segments_append]
      rfl
    obtain ⟨next, rest, hrest⟩ := List.exists_cons_of_ne_nil (Path.segments_ne_nil more)
    have hafter : afterSource place = Path.segments more := by
      rw [hparts, hrest, afterSource]
    rw [hafter, Path.join_segments, hmore, drop, String.toList_append]
    simp
  · rename_i hstart
    congr 1
    unfold afterSource
    split
    · rename_i next rest
      refine absurd (startsWith_iff.2 ⟨join "/" (next :: rest), ?_⟩) hstart
      exact @Path.join_append ["src"] _ (List.cons_ne_nil _ _) (List.cons_ne_nil _ _)
    · rfl

theorem partitionOn_join {head : String} (h : '/' ∉ head.toList) :
    partitionOn "/" (join "/" (head :: rest)) = (head, join "/" rest) := by
  rw [partitionOn, show "/".toList = ['/'] from rfl]
  by_cases hrest : rest = []
  · subst hrest
    rw [join, String.intercalate_singleton, breakOn?_eq_none h]
    rfl
  · have hlist : (join "/" (head :: rest)).toList = head.toList ++ '/' :: (join "/" rest).toList := by
      rw [join, String.intercalate_cons_of_ne_nil hrest]
      simp [join]
    rw [hlist, breakOn?_append h]
    simp

/-- A path that starts with two dots has a first name that does. -/
theorem startsWith_dots_of_join {first : String} (hfirst : IsName first)
    (h : startsWith ".." (join "/" (first :: rest)) = true) : startsWith ".." first = true := by
  obtain ⟨more, hmore⟩ := Path.exists_join_cons first rest
  obtain ⟨hempty, hdot, -, -⟩ := hfirst
  rw [ne_eq, ← String.toList_inj] at hempty hdot
  unfold startsWith at h ⊢
  rw [hmore, String.toList_append] at h
  cases hlist : first.toList with
  | nil => exact absurd hlist hempty
  | cons c cs =>
    cases cs with
    | nil =>
      rw [hlist] at h hdot
      simp at h
      exact absurd (by rw [← h.1]; rfl) hdot
    | cons d cs =>
      rw [hlist] at h
      simpa using h

/-! ### Abbreviations -/

theorem get?_of_not_key (h : ∀ e ∈ aliases, e.1 ≠ source) : aliases.get? source = none := by
  cases hget : aliases.get? source with
  | none => rfl
  | some short => exact absurd rfl (h _ (Table.mem_of_get? hget))

theorem abbreviation_eq (hrest : ∀ n ∈ rest, IsName n) :
    (if (join "/" rest).isEmpty then short else short ++ "/" ++ join "/" rest) = join "/" (short :: rest) := by
  cases rest with
  | nil => simp [join]
  | cons next more =>
    have hne := @Path.join_ne_empty next more (hrest next List.mem_cons_self).ne_empty
    rw [if_neg (by simpa [String.isEmpty_iff] using hne)]
    conv_rhs => rw [join, String.intercalate_cons_of_ne_nil (List.cons_ne_nil _ _)]
    rfl

theorem not_startsWith_slash (h : isRelative source = true) : startsWith "/" source = false := by
  rw [Bool.eq_false_iff, ne_eq, Path.startsWith_slash_iff]
  intro hhead
  rw [isRelative, Bool.or_eq_true] at h
  rcases h with h | h
  · obtain ⟨more, rfl⟩ := startsWith_iff.1 h
    simp at hhead
  · obtain ⟨more, rfl⟩ := startsWith_iff.1 h
    simp at hhead

/-- The spelling of what a relative name denotes: the names on the way from the root, or something that
no directory with an alias starts with. -/
theorem denotedPath_cases (hrelative : isRelative source = true) :
    (startsWith "/" (Path.withSlashes filePath) = true ∧
      startsWith "/" (denotedPath source filePath) = true) ∨
    startsWith "/" (Path.withSlashes filePath) = false ∧
      ((∀ place, ¬ Denotes source filePath place) ∧ startsWith ".." (denotedPath source filePath) = true ∨
        ∃ place, Denotes source filePath place ∧
          denotedPath source filePath = if place = [] then "." else join "/" place) := by
  have hslash := not_startsWith_slash hrelative
  have hbelow : startsWith "/" (Path.below (Path.directory (Path.withSlashes filePath)) source) =
      startsWith "/" (Path.directory (Path.withSlashes filePath)) := Path.startsWith_slash_below hslash
  rw [Path.startsWith_slash_directory] at hbelow
  have hwalk : Path.walk [] (Path.segments
      (Path.below (Path.directory (Path.withSlashes filePath)) source)) =
        Path.walk [] ((Path.segments (Path.withSlashes filePath)).dropLast ++ Path.segments source) := by
    rw [Path.walk_below [] hslash, Path.walk_append, Path.walk_directory, ← Path.walk_append]
  cases habsolute : startsWith "/" (Path.withSlashes filePath) with
  | true => exact .inl ⟨rfl, Path.startsWith_slash_normalize (hbelow.trans habsolute)⟩
  | false =>
    refine .inr ⟨rfl, ?_⟩
    rw [habsolute] at hbelow
    cases hplace : Path.walk []
        ((Path.segments (Path.withSlashes filePath)).dropLast ++ Path.segments source) with
    | none =>
      refine .inl ⟨fun place h => ?_, ?_⟩
      · rw [Denotes, hplace] at h
        cases h
      · obtain ⟨more, hmore⟩ := Path.normalize_of_walk_none hbelow (hwalk.trans hplace)
        exact startsWith_iff.2 ⟨more, hmore⟩
    | some place => exact .inr ⟨place, hplace, Path.normalize_of_walk hbelow (hwalk.trans hplace)⟩

theorem pathAlias_of_relative (hrelative : isRelative source = true) :
    pathAlias source filePath aliases =
      if startsWith ".." (denotedPath source filePath) then none
      else
        let (head, rest) := partitionOn "/" (withoutSourceDirectory (denotedPath source filePath))
        (aliases.get? head).map fun a => if rest.isEmpty then a else a ++ "/" ++ rest := by
  unfold pathAlias
  cases aliases with
  | nil =>
    rw [List.isEmpty_nil, Bool.true_or, if_pos rfl]
    split <;> simp
  | cons e rest =>
    rw [List.isEmpty_cons, hrelative, Bool.not_true, Bool.or_false, if_neg (by decide)]

theorem partitionOn_of_absolute {path : String} (h : startsWith "/" path = true) :
    (partitionOn "/" (withoutSourceDirectory path)).1 = "" ∧ startsWith ".." path = false := by
  obtain ⟨more, rfl⟩ := startsWith_iff.1 h
  have hno : ∀ start : String, start.toList.head? ≠ some '/' → start ≠ "" →
      startsWith start ("/" ++ more) = false := by
    intro start hstart hne
    rw [Bool.eq_false_iff]
    intro hit
    obtain ⟨rest, hrest⟩ := startsWith_iff.1 hit
    apply hstart
    rw [← Path.head?_append_of_ne (b := rest) hne, ← hrest]
    simp
  refine ⟨?_, hno ".." (by decide) (by decide)⟩
  rw [withoutSourceDirectory, if_neg (by simp [hno "src/" (by decide) (by decide)]), partitionOn]
  have hlist : ("/" ++ more).toList = [] ++ '/' :: more.toList := by simp
  rw [hlist, show "/".toList = ['/'] from rfl, breakOn?_append List.not_mem_nil]

/-- A module has the abbreviation that the alias of the first directory gives to the place that it
denotes, seen from the source directory. -/
theorem pathAlias_of_denotes (haliases : Plain aliases) (hrelative : isRelative source = true)
    (hpath : denotedPath source filePath = if place = [] then "." else join "/" place)
    (hplace : Denotes source filePath place) : pathAlias source filePath aliases =
      (afterSource place).head?.bind fun head =>
        (aliases.get? head).map fun a => join "/" (a :: (afterSource place).tail) := by
  have hnames := isName_of_denotes hplace
  rw [pathAlias_of_relative hrelative, hpath]
  cases place with
  | nil =>
    have hdot : aliases.get? "." = none :=
      get?_of_not_key fun e he => (haliases.keys e he).1.ne_dot
    rw [if_pos rfl, if_neg (by decide)]
    exact congrArg (Option.map _) hdot
  | cons first others =>
    rw [if_neg (List.cons_ne_nil _ _)]
    obtain ⟨head, rest, hafter⟩ : ∃ head rest, afterSource (first :: others) = head :: rest := by
      unfold afterSource
      split
      · exact ⟨_, _, rfl⟩
      · exact ⟨_, _, rfl⟩
    have hafterNames : ∀ n ∈ head :: rest, IsName n := by
      intro n hn
      rw [← hafter] at hn
      exact hnames n (mem_afterSource hn)
    have hhead := hafterNames head List.mem_cons_self
    have hrest := fun n hn => hafterNames n (List.mem_cons_of_mem _ hn)
    rw [hafter, List.head?_cons, Option.bind_some, List.tail_cons]
    split
    · rename_i hdots
      have hfirst := startsWith_dots_of_join (hnames first List.mem_cons_self) hdots
      have hsame : head = first := by
        rw [afterSource_of_ne] at hafter
        · exact (List.cons.inj hafter).1.symm
        · rintro rfl
          cases hfirst
      rw [get?_of_not_key, Option.map_none]
      intro e he heq
      have hkey := (haliases.keys e he).2.2
      rw [heq, hsame, hfirst] at hkey
      cases hkey
    · rw [withoutSourceDirectory_join hnames (List.cons_ne_nil _ _), hafter, partitionOn_join hhead.slashless]
      simp only [abbreviation_eq hrest]

/-- Only relative names in files with relative paths have abbreviations, and only if they denote a place
below a directory with an alias. -/
theorem pathAlias_eq_some_iff (haliases : Plain aliases) : pathAlias source filePath aliases = some short ↔
    isRelative source = true ∧ startsWith "/" (Path.withSlashes filePath) = false ∧
      ∃ place head rest a, Denotes source filePath place ∧ afterSource place = head :: rest ∧
        aliases.get? head = some a ∧ short = join "/" (a :: rest) := by
  by_cases hrelative : isRelative source = true
  · obtain ⟨habsolute, hpath⟩ | ⟨habsolute, ⟨hno, hpath⟩ | ⟨place, hplace, hpath⟩⟩ :=
      @denotedPath_cases source filePath hrelative
    · obtain ⟨hhead, hdots⟩ := partitionOn_of_absolute hpath
      have hnone : aliases.get? "" = none :=
        get?_of_not_key fun e he => (haliases.keys e he).1.ne_empty
      rw [pathAlias_of_relative hrelative, hdots]
      simp [hhead, hnone, habsolute]
    · rw [pathAlias_of_relative hrelative, if_pos hpath]
      simp only [reduceCtorEq, false_iff]
      rintro ⟨-, -, place, _, _, _, hplace, -⟩
      exact hno place hplace
    · rw [pathAlias_of_denotes haliases hrelative hpath hplace]
      constructor
      · intro h
        obtain ⟨head, hhead, h⟩ := Option.bind_eq_some_iff.1 h
        obtain ⟨a, ha, rfl⟩ := Option.map_eq_some_iff.1 h
        obtain ⟨rest, hrest⟩ := List.head?_eq_some_iff.1 hhead
        exact ⟨hrelative, habsolute, place, head, rest, a, hplace, hrest, ha, by rw [hrest, List.tail_cons]⟩
      · rintro ⟨-, -, place', head, rest, a, hplace', hafter, ha, rfl⟩
        obtain rfl := Option.some.inj (hplace.symm.trans hplace')
        rw [hafter, List.head?_cons, Option.bind_some, ha, List.tail_cons, Option.map_some]
  · rw [pathAlias, if_pos (by simp [hrelative])]
    simp [hrelative]

/-! ### Places with an abbreviation -/

/-- Two modules have the same abbreviation only if they denote the same place, seen from the source
directory. -/
theorem abbreviation_injective (haliases : Plain aliases) {head head' a a' : String} {rest rest' : List String}
    (hhead : aliases.get? head = some a) (hhead' : aliases.get? head' = some a')
    (hrest : ∀ n ∈ rest, IsName n) (hrest' : ∀ n ∈ rest', IsName n)
    (h : join "/" (a :: rest) = join "/" (a' :: rest')) : head :: rest = head' :: rest' := by
  have hmem := Table.mem_of_get? hhead
  have hmem' := Table.mem_of_get? hhead'
  have hparts : a :: rest = a' :: rest' := by
    rw [← @Path.segments_join (a :: rest), h, Path.segments_join]
    · exact List.forall_mem_cons.2 ⟨haliases.values _ hmem', fun n hn => (hrest' n hn).slashless⟩
    · exact List.cons_ne_nil _ _
    · exact List.forall_mem_cons.2 ⟨haliases.values _ hmem, fun n hn => (hrest n hn).slashless⟩
    · exact List.cons_ne_nil _ _
  obtain ⟨ha, hrest⟩ := List.cons.inj hparts
  have hkeys : head = head' := haliases.distinct _ hmem _ hmem' ha
  rw [hkeys, hrest]

/-- Two places that are seen below directories with aliases are seen as the same one exactly if they are
the same or one of them is the other one in the source directory. -/
theorem afterSource_eq_iff {p q r s : List String} {head head' : String}
    (hp : afterSource p = head :: r) (hq : afterSource q = head' :: s) (hhead : head ≠ "src")
    (hhead' : head' ≠ "src") :
    head :: r = head' :: s ↔ p = q ∨ p = "src" :: q ∨ q = "src" :: p := by
  constructor
  · intro h
    rw [← h] at hq
    rcases eq_or_of_afterSource hp with rfl | rfl <;> rcases eq_or_of_afterSource hq with rfl | rfl <;> simp
  · rintro (rfl | rfl | rfl)
    · exact hp.symm.trans hq
    · rcases eq_or_of_afterSource hq with rfl | rfl
      · exact hp.symm
      · exact absurd (List.cons.inj hp).1.symm hhead
    · rcases eq_or_of_afterSource hp with rfl | rfl
      · exact hq
      · exact absurd (List.cons.inj hq).1.symm hhead'

theorem pathAlias_eq_iff (haliases : Plain aliases) {source' filePath' short' : String}
    (h : pathAlias source filePath aliases = some short)
    (h' : pathAlias source' filePath' aliases = some short') :
    short = short' ↔ ∃ p q, Denotes source filePath p ∧ Denotes source' filePath' q ∧
      (p = q ∨ p = "src" :: q ∨ q = "src" :: p) := by
  obtain ⟨-, -, p, head, rest, a, hp, hafter, ha, rfl⟩ := (pathAlias_eq_some_iff haliases).1 h
  obtain ⟨-, -, q, head', rest', a', hq, hafter', ha', rfl⟩ := (pathAlias_eq_some_iff haliases).1 h'
  have hnames : ∀ n ∈ head :: rest, IsName n := fun n hn =>
    isName_of_denotes hp n (mem_afterSource (hafter ▸ hn))
  have hnames' : ∀ n ∈ head' :: rest', IsName n := fun n hn =>
    isName_of_denotes hq n (mem_afterSource (hafter' ▸ hn))
  have hiff := afterSource_eq_iff hafter hafter' (haliases.keys _ (Table.mem_of_get? ha)).2.1
    (haliases.keys _ (Table.mem_of_get? ha')).2.1
  constructor
  · intro hshort
    refine ⟨p, q, hp, hq, hiff.1 ?_⟩
    exact abbreviation_injective haliases ha ha' (fun n hn => hnames n (List.mem_cons_of_mem _ hn))
      (fun n hn => hnames' n (List.mem_cons_of_mem _ hn)) hshort
  · rintro ⟨p', q', hp', hq', hsame⟩
    obtain rfl := Option.some.inj (hp.symm.trans hp')
    obtain rfl := Option.some.inj (hq.symm.trans hq')
    obtain ⟨rfl, rfl⟩ := List.cons.inj (hiff.2 hsame)
    rw [Option.some.inj (ha.symm.trans ha')]

/-! ### Redundant segments -/

/-- A module name only matters by being relative and by where it leads. -/
theorem pathAlias_congr (haliases : Plain aliases) {source' : String}
    (hrelative : isRelative source = isRelative source')
    (hwalk : ∀ here, Path.walk here (Path.segments source) = Path.walk here (Path.segments source')) :
    pathAlias source filePath aliases = pathAlias source' filePath aliases := by
  have hdenotes (place : List String) : Denotes source filePath place ↔ Denotes source' filePath place := by
    rw [Denotes, Denotes, Path.walk_append, Path.walk_append, funext hwalk]
  apply Option.ext
  intro short
  rw [pathAlias_eq_some_iff haliases, pathAlias_eq_some_iff haliases, hrelative]
  simp only [hdenotes]

theorem isRelative_iff (source : String) : isRelative source = true ↔
    ∃ rest, rest ≠ [] ∧ (Path.segments source = "." :: rest ∨ Path.segments source = ".." :: rest) := by
  have hstart (dots : String) (h : Path.segments dots = [dots]) : startsWith (dots ++ "/") source = true ↔
      ∃ rest, rest ≠ [] ∧ Path.segments source = dots :: rest := by
    rw [startsWith_iff]
    constructor
    · rintro ⟨more, rfl⟩
      exact ⟨Path.segments more, Path.segments_ne_nil more, by rw [Path.segments_append, h]; rfl⟩
    · rintro ⟨rest, hne, hrest⟩
      refine ⟨join "/" rest, ?_⟩
      rw [← Path.join_segments source, hrest]
      exact @Path.join_append [dots] _ (List.cons_ne_nil _ _) hne
  have hdot := hstart "." (by decide +kernel)
  have hdots := hstart ".." (by decide +kernel)
  rw [isRelative, Bool.or_eq_true]
  constructor
  · rintro (h | h)
    · obtain ⟨rest, hne, hrest⟩ := hdot.1 h
      exact ⟨rest, hne, .inl hrest⟩
    · obtain ⟨rest, hne, hrest⟩ := hdots.1 h
      exact ⟨rest, hne, .inr hrest⟩
  · rintro ⟨rest, hne, hrest | hrest⟩
    · exact .inl (hdot.2 ⟨rest, hne, hrest⟩)
    · exact .inr (hdots.2 ⟨rest, hne, hrest⟩)

/-- Whether a name with a slash is relative is decided before the slash. -/
theorem isRelative_below (front back : String) : isRelative (front ++ "/" ++ back) = true ↔
    (Path.segments front).head? = some "." ∨ (Path.segments front).head? = some ".." := by
  obtain ⟨first, others, hfront⟩ := List.exists_cons_of_ne_nil (Path.segments_ne_nil front)
  have hne : others ++ Path.segments back ≠ [] := by simp [Path.segments_ne_nil]
  rw [isRelative_iff, Path.segments_append, hfront]
  simp only [List.cons_append, List.cons.injEq, List.head?_cons, Option.some.injEq]
  constructor
  · rintro ⟨rest, -, h | h⟩
    · exact .inl h.1
    · exact .inr h.1
  · rintro (h | h)
    · exact ⟨_, hne, .inl ⟨h, rfl⟩⟩
    · exact ⟨_, hne, .inr ⟨h, rfl⟩⟩

/-- Segments behind a slash that lead nowhere make no difference. -/
theorem pathAlias_redundant (haliases : Plain aliases) (front back : String) {middle : String}
    (hmiddle : ∀ here, Path.walk here (Path.segments middle) = some here) :
    pathAlias (front ++ "/" ++ middle ++ "/" ++ back) filePath aliases =
      pathAlias (front ++ "/" ++ back) filePath aliases := by
  apply pathAlias_congr haliases
  · have hassoc : front ++ "/" ++ middle ++ "/" ++ back = front ++ "/" ++ (middle ++ "/" ++ back) := by
      simp only [String.append_assoc]
    rw [hassoc, Bool.eq_iff_iff, isRelative_below, isRelative_below]
  · intro here
    rw [Path.segments_append, Path.segments_append, Path.segments_append, Path.walk_append,
      Path.walk_append, Path.walk_append]
    cases Path.walk here (Path.segments front) with
    | none => rfl
    | some there =>
      dsimp only [Option.bind_some]
      rw [hmiddle]
      rfl

theorem pathAlias_trailing (haliases : Plain aliases) (h : isRelative source = true) :
    pathAlias (source ++ "/") filePath aliases = pathAlias source filePath aliases := by
  apply pathAlias_congr haliases
  · obtain ⟨rest, -, hrest⟩ := (isRelative_iff source).1 h
    have hback := (isRelative_below source "").2
    rw [String.append_empty] at hback
    rw [h]
    apply hback
    rcases hrest with hrest | hrest
    · exact .inl (by rw [hrest]; rfl)
    · exact .inr (by rw [hrest]; rfl)
  · intro here
    exact Path.walk_slash here source

theorem pathAlias_leading (haliases : Plain aliases) (h : isRelative source = true) :
    pathAlias ("./" ++ source) filePath aliases = pathAlias source filePath aliases := by
  have hsource : "./" ++ source = "." ++ "/" ++ source := rfl
  have hdot : Path.segments "." = ["."] := by decide +kernel
  rw [hsource]
  apply pathAlias_congr haliases
  · rw [h, isRelative_below, hdot]
    exact .inl rfl
  · intro here
    rw [Path.segments_append, hdot]
    rfl

/-! ### The aliases of Next.js -/

theorem plain_nextJs : Plain FrameworkProfile.nextJs.pathAliases := by
  have hkeys : ∀ e ∈ FrameworkProfile.nextJs.pathAliases, (e.1 ≠ "" ∧ e.1 ≠ "." ∧ e.1 ≠ ".." ∧
      '/' ∉ e.1.toList) ∧ e.1 ≠ "src" ∧ startsWith ".." e.1 = false := by
    decide +kernel
  constructor
  · intro e he
    obtain ⟨⟨hempty, hdot, hdots, hslash⟩, hsource, hstart⟩ := hkeys e he
    exact ⟨⟨hempty, hdot, hdots, hslash⟩, hsource, hstart⟩
  · decide +kernel
  · decide +kernel

/-- The aliases of Next.js identify modules.  A module name has an abbreviation exactly if it is relative,
in a file with a relative path, and leads to a place in the repository below a directory with an alias,
seen from the source directory; two names with abbreviations have the same one exactly if they denote the
same place up to the source directory in front.  Segments of the name that lead nowhere make no
difference. -/
theorem nextJs_pathAlias_identifies :
    (∀ s f short, pathAlias s f FrameworkProfile.nextJs.pathAliases = some short ↔
      isRelative s = true ∧ startsWith "/" (Path.withSlashes f) = false ∧
        ∃ place head rest a, Denotes s f place ∧ afterSource place = head :: rest ∧
          FrameworkProfile.nextJs.pathAliases.get? head = some a ∧ short = join "/" (a :: rest)) ∧
    (∀ s f t g short short', pathAlias s f FrameworkProfile.nextJs.pathAliases = some short →
      pathAlias t g FrameworkProfile.nextJs.pathAliases = some short' →
      (short = short' ↔ ∃ p q, Denotes s f p ∧ Denotes t g q ∧
        (p = q ∨ p = "src" :: q ∨ q = "src" :: p))) ∧
    (∀ front back f,
      pathAlias (front ++ "/./" ++ back) f FrameworkProfile.nextJs.pathAliases =
        pathAlias (front ++ "/" ++ back) f FrameworkProfile.nextJs.pathAliases ∧
      pathAlias (front ++ "//" ++ back) f FrameworkProfile.nextJs.pathAliases =
        pathAlias (front ++ "/" ++ back) f FrameworkProfile.nextJs.pathAliases ∧
      ∀ x, IsName x → pathAlias (front ++ "/" ++ x ++ "/../" ++ back) f FrameworkProfile.nextJs.pathAliases =
        pathAlias (front ++ "/" ++ back) f FrameworkProfile.nextJs.pathAliases) ∧
    ∀ s f, isRelative s = true →
      pathAlias (s ++ "/") f FrameworkProfile.nextJs.pathAliases =
        pathAlias s f FrameworkProfile.nextJs.pathAliases ∧
      pathAlias ("./" ++ s) f FrameworkProfile.nextJs.pathAliases =
        pathAlias s f FrameworkProfile.nextJs.pathAliases := by
  refine ⟨fun s f short => pathAlias_eq_some_iff plain_nextJs,
    fun s f t g short short' => pathAlias_eq_iff plain_nextJs, ?_, fun s f hs =>
    ⟨pathAlias_trailing plain_nextJs hs, pathAlias_leading plain_nextJs hs⟩⟩
  intro front back f
  have hdot : front ++ "/./" ++ back = front ++ "/" ++ "." ++ "/" ++ back := by
    rw [show "/./" = "/" ++ "." ++ "/" from rfl]
    simp only [String.append_assoc]
  have hnone : front ++ "//" ++ back = front ++ "/" ++ "" ++ "/" ++ back := by
    rw [show "//" = "/" ++ "" ++ "/" from rfl]
    simp only [String.append_assoc]
  refine ⟨?_, ?_, ?_⟩
  · rw [hdot]
    refine pathAlias_redundant plain_nextJs front back fun here => ?_
    rw [show Path.segments "." = ["."] by decide +kernel]
    rfl
  · rw [hnone]
    exact pathAlias_redundant plain_nextJs front back Path.walk_empty
  · intro x hx
    have hname : front ++ "/" ++ x ++ "/../" ++ back = front ++ "/" ++ (x ++ "/" ++ "..") ++ "/" ++ back := by
      rw [show "/../" = "/" ++ ".." ++ "/" from rfl]
      simp only [String.append_assoc]
    rw [hname]
    refine pathAlias_redundant plain_nextJs front back fun here => ?_
    have hsegments : Path.segments x = [x] := by
      rw [Path.segments_eq, List.splitOn_eq_singleton hx.slashless, List.map_singleton,
        String.ofList_toList]
    rw [Path.segments_append, hsegments, show Path.segments ".." = [".."] by decide +kernel,
      List.singleton_append, Path.walk, Path.go_of_name hx.ne_empty hx.ne_dot hx.ne_dots,
      Option.bind_some, Path.walk, Path.go, if_neg (by decide), if_pos rfl, if_neg (by simp),
      List.dropLast_concat]
    rfl

end WebMigration.Rewrite
