import WebMigration.Disk.Basic
import Mathlib.Data.List.Nodup
import WebMigration.Proofs.Text.Pieces

/-!
# Where addresses lead

An address leads to the location that its names come to once the dots in it are cancelled, if there
are directories all the way.  Whether it leads anywhere depends on the directories alone.
-/

namespace WebMigration.Disk

/-! ### Following names -/

/-- The location that one more name leads to. -/
def onward (l : Location) (name : String) : Location :=
  if name == ".." then l.dropLast else l ++ [name]

/-- The location that an address comes to. -/
def Address.location (p : Address) : Location := p.names.foldl onward []

variable {d d' : Disk} {p : Address} {l m : Location}

theorem follow_ok {path : String} {names : List String} (h : d.follow path l names = .ok m) :
    m = names.foldl onward l := by
  induction names generalizing l with
  | nil => exact (Except.ok.inj h).symm
  | cons name rest ih =>
    rw [follow] at h
    split at h
    · exact ih h
    · cases h
    · cases h

theorem follow_mono {path : String} {names : List String}
    (hdirs : ∀ l, d.lookup? l = some .directory → d'.lookup? l = some .directory)
    (h : d.follow path l names = .ok m) : d'.follow path l names = .ok m := by
  induction names generalizing l with
  | nil => exact h
  | cons name rest ih =>
    rw [follow] at h ⊢
    split at h
    · rename_i hl
      rw [hdirs l hl]
      exact ih h
    · cases h
    · cases h

theorem locate_ok (h : d.locate p = .ok l) : l = p.location := follow_ok h

/-- An address leads where it led as long as directories stay. -/
theorem locate_mono
    (hdirs : ∀ l, d.lookup? l = some .directory → d'.lookup? l = some .directory)
    (h : d.locate p = .ok l) : d'.locate p = .ok l := follow_mono hdirs h

theorem locate_ok_congr
    (hdirs : ∀ l, d.lookup? l = some .directory ↔ d'.lookup? l = some .directory) :
    d.locate p = .ok l ↔ d'.locate p = .ok l :=
  ⟨locate_mono fun l => (hdirs l).1, locate_mono fun l => (hdirs l).2⟩

theorem has_iff : d.has p = true ↔ ∃ l e, d.locate p = .ok l ∧ d.lookup? l = some e := by
  rw [has, at?]
  cases d.locate p with
  | error fault => exact iff_of_false Bool.false_ne_true (by rintro ⟨_, _, h, -⟩; cases h)
  | ok l =>
    show (d.lookup? l).isSome = true ↔ _
    rw [Option.isSome_iff_exists]
    exact ⟨fun ⟨e, he⟩ => ⟨l, e, rfl, he⟩, fun ⟨m, e, hm, he⟩ => ⟨e, Except.ok.inj hm ▸ he⟩⟩

theorem hasDirectory_iff :
    d.hasDirectory p = true ↔ ∃ l, d.locate p = .ok l ∧ d.lookup? l = some .directory := by
  rw [hasDirectory, beq_iff_eq, at?]
  cases d.locate p with
  | error fault => exact iff_of_false nofun (by rintro ⟨_, h, -⟩; cases h)
  | ok l => exact ⟨fun h => ⟨l, rfl, h⟩, fun ⟨m, hm, h⟩ => Except.ok.inj hm ▸ h⟩

/-! ### Names -/

/-- A name that something in a directory can have. -/
def IsName (name : String) : Prop :=
  name ≠ "" ∧ name ≠ "." ∧ name ≠ ".." ∧ '/' ∉ name.toList

instance (name : String) : Decidable (IsName name) := inferInstanceAs (Decidable (_ ∧ _))

/-- A disk on which every location is entered at most once, and only by names that there can be. -/
structure WellFormed (d : Disk) : Prop where
  nodup : (d.entries.map (·.1)).Nodup
  names : ∀ e ∈ d.entries, e.1 ≠ [] ∧ ∀ name ∈ e.1, IsName name

theorem WellFormed.lookup?_of_mem (h : d.WellFormed) {e : Entry} (he : (l, e) ∈ d.entries) :
    d.lookup? l = some e := by
  have hne : l.isEmpty = false := by simpa using (h.names _ he).1
  rw [lookup?, hne, if_neg Bool.false_ne_true]
  cases hfind : d.entries.find? (·.1 == l) with
  | none =>
    have := List.find?_eq_none.1 hfind _ he
    simp at this
  | some found =>
    have hkey : found.1 = l := by simpa using List.find?_some hfind
    have hmem := List.mem_of_find?_eq_some hfind
    rw [List.inj_on_of_nodup_map h.nodup hmem he hkey]
    rfl

theorem mem_of_lookup? {e : Entry} (hne : l ≠ []) (h : d.lookup? l = some e) :
    (l, e) ∈ d.entries := by
  rw [lookup?, if_neg (by simpa using hne), Option.map_eq_some_iff] at h
  obtain ⟨found, hfind, rfl⟩ := h
  have hkey : found.1 = l := by simpa using List.find?_some hfind
  rw [← hkey]
  exact List.mem_of_find?_eq_some hfind

theorem foldl_onward {names : List String} (h : ".." ∉ names) :
    names.foldl onward l = l ++ names := by
  induction names generalizing l with
  | nil => exact (List.append_nil l).symm
  | cons name rest ih =>
    obtain ⟨hname, hrest⟩ := List.ne_and_not_mem_of_not_mem_cons h
    have honward : onward l name = l ++ [name] := if_neg (by simpa using fun h => hname h.symm)
    rw [List.foldl_cons, honward, ih hrest, List.append_assoc, List.singleton_append]

theorem dots_not_mem_cancel (segments : List String) :
    ".." ∉ Text.Path.cancel true segments := by
  have hstep : ∀ before segment, ".." ∉ before → ".." ∉ Text.Path.step true before segment := by
    intro before segment h
    unfold Text.Path.step
    split
    · exact h
    · split
      · rename_i hne
        simpa [eq_comm] using ⟨by simpa using hne, h⟩
      · split
        · simp
        · rename_i last rest
          obtain ⟨hlast, hrest⟩ := List.ne_and_not_mem_of_not_mem_cons h
          rw [if_neg (by simpa using fun h => hlast h.symm)]
          exact hrest
  rw [Text.Path.cancel, List.mem_reverse]
  exact List.foldlRecOn (motive := fun before => ".." ∉ before) segments _ (by simp)
    fun before h segment _ => hstep before segment h

theorem Address.dots_not_mem_settled (p : Address) : ".." ∉ p.settled.names :=
  dots_not_mem_cancel p.names

/-- A settled address comes to its names. -/
theorem Address.location_settled (p : Address) : p.settled.location = p.settled.names :=
  foldl_onward p.dots_not_mem_settled

/-! ### Paths of files -/

/-- A path of names has these names again. -/
theorem namesOf_join {names : List String} (hne : names ≠ []) (h : ∀ name ∈ names, IsName name) :
    Address.namesOf (Text.join "/" names) = names := by
  have hpieces : Text.pieces ['/'] (Text.join "/" names).toList = names.map String.toList := by
    rw [Text.join, String.toList_intercalate, Text.pieces_eq_splitOn]
    refine List.splitOn_intercalate '/' ?_ (by simpa using hne)
    simpa using fun name hname => (h name hname).2.2.2
  have hsegments : Text.Path.segments (Text.join "/" names) = names := by
    show (Text.pieces ['/'] _).map String.ofList = names
    rw [hpieces, List.map_map]
    simp [Function.comp_def]
  rw [Address.namesOf, hsegments, List.filter_eq_self]
  intro name hname
  obtain ⟨hempty, hdot, -⟩ := h name hname
  simp [hempty, hdot]

/-- A path of names does not start at the root. -/
theorem join_not_absolute {names : List String} (hne : names ≠ [])
    (h : ∀ name ∈ names, IsName name) : Text.startsWith "/" (Text.join "/" names) = false := by
  obtain ⟨name, rest, rfl⟩ := List.exists_cons_of_ne_nil hne
  obtain ⟨hempty, -, -, hslash⟩ := h name List.mem_cons_self
  obtain ⟨c, cs, hname⟩ := List.exists_cons_of_ne_nil (l := name.toList) (by simpa using hempty)
  rw [hname] at hslash
  have hc : '/' ≠ c := (List.ne_and_not_mem_of_not_mem_cons hslash).1
  rw [Text.startsWith, Text.join, String.toList_intercalate, List.map_cons, hname]
  cases rest <;> simp [List.isPrefixOf, hc]

/-- A path of names below a settled directory comes to the names after those of the directory. -/
theorem Address.location_below {directory : Address} {names : List String}
    (hdots : ".." ∉ directory.names) (hne : names ≠ []) (h : ∀ name ∈ names, IsName name) :
    (directory.below (Text.join "/" names)).location = directory.names ++ names := by
  have hnames : (directory.below (Text.join "/" names)).names = directory.names ++ names := by
    rw [below, join_not_absolute hne h, namesOf_join hne h]
    rfl
  rw [location, hnames, foldl_onward, List.nil_append]
  rw [List.mem_append]
  rintro (hmem | hmem)
  · exact hdots hmem
  · exact (h _ hmem).2.2.1 rfl

end WebMigration.Disk
