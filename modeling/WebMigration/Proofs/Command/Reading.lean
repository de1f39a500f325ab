import WebMigration.Command.Tree
import WebMigration.Proofs.Disk.Change

/-!
# What is read of a source tree

The records of a source tree are those of the files below it that are in no skipped directory and
hold text, each with its text, at paths that lead back to the files.
-/

namespace WebMigration.Command

open Disk (Address Location IsName)
open Run (Keeps keeps_closed)

/-- The disk of a session and the new files that it keeps in mind. -/
def Session.tree (s : Session) : Disk × List Address := (s.disk, s.written)

theorem tell_keeps (level : LogLevel) (text : String) :
    Keeps Session.tree _ (Session.tell level text) := fun _ => rfl

theorem disk?_keeps : Keeps Session.tree _ Session.disk? := fun _ => rfl

/-- A file below a directory is read as a text. -/
def IsRead (d : Disk) (root l : Location) (text : String) : Prop :=
  ∃ names bytes, l = root ++ names ∧ d.bytesAt? l = some bytes ∧
    names.dropLast.any skippedDirectories.contains = false ∧ Disk.textOf? bytes = some text

variable {d : Disk} {root : Address} {names : Location} {bytes : List UInt8}

theorem mem_filesBelow (hd : d.WellFormed) {root : Location} :
    (names, bytes) ∈ filesBelow d root ↔ d.bytesAt? (root ++ names) = some bytes ∧
      names.dropLast.any skippedDirectories.contains = false := by
  unfold filesBelow
  rw [List.mem_mergeSort, List.mem_filterMap]
  constructor
  · rintro ⟨⟨l, bytes'⟩, hfile, h⟩
    dsimp only at h
    split at h
    · rename_i hbelow
      rw [Bool.and_eq_true, List.isPrefixOf_iff_prefix, Bool.not_eq_true'] at hbelow
      obtain ⟨⟨rest, rfl⟩, hskipped⟩ := hbelow
      rw [List.drop_left] at hskipped h
      cases h
      exact ⟨hd.mem_files.1 hfile, hskipped⟩
    · cases h
  · rintro ⟨hfound, hskipped⟩
    refine ⟨(root ++ names, bytes), hd.mem_files.2 hfound, ?_⟩
    have hprefix : root.isPrefixOf (root ++ names) = true := by simp
    simp only [List.drop_left, hprefix, hskipped]
    rfl

theorem recordsOf_ok {found : List (Location × List UInt8)} {files : List FileRecord}
    {s s' : Logged Session} (h : recordsOf root found s = (.ok files, s')) :
    files = found.filterMap fun f =>
      (Disk.textOf? f.2).map fun text => ⟨Text.join "/" f.1, some text⟩ := by
  induction found generalizing files s s' with
  | nil => exact (Run.pure_ok.1 h).1.symm
  | cons f rest ih =>
    obtain ⟨names, bytes⟩ := f
    rw [recordsOf] at h
    rw [List.filterMap_cons]
    rcases htext : Disk.textOf? bytes with _ | text <;> rw [htext] at h <;>
      obtain ⟨more, t, hmore, h⟩ := Run.bind_ok.1 h
    · exact ih h
    · rw [← (Run.pure_ok.1 h).1, ih hmore]
      rfl

theorem recordsOf_keeps (root : Address) (found : List (Location × List UInt8)) :
    Keeps Session.tree _ (recordsOf root found) := by
  have hclosed := keeps_closed Session.tree
  induction found with
  | nil => exact hclosed.pure []
  | cons f rest ih =>
    rw [recordsOf]
    split
    · exact hclosed.bind ih fun more => hclosed.pure _
    · exact hclosed.bind (tell_keeps _ _) fun _ => ih

theorem collectFiles_keeps (root : Address) : Keeps Session.tree _ (collectFiles root) :=
  (keeps_closed Session.tree).bind disk?_keeps fun _ => recordsOf_keeps root _

/-- The records of a source tree are those of the files that are read. -/
theorem mem_collectFiles {s s' : Logged Session} (hd : s.state.disk.WellFormed)
    {files : List FileRecord} (h : collectFiles root s = (.ok files, s')) {f : FileRecord} :
    f ∈ files ↔ ∃ names text, f = ⟨Text.join "/" names, some text⟩ ∧
      IsRead s.state.disk root.names (root.names ++ names) text := by
  unfold collectFiles at h
  obtain ⟨d, t, hdisk, h⟩ := Run.bind_ok.1 h
  have hdisk : s.state.disk = d := (Run.pure_ok.1 hdisk).1
  subst hdisk
  rw [recordsOf_ok h, List.mem_filterMap]
  constructor
  · rintro ⟨⟨names, bytes⟩, hbelow, hrecord⟩
    obtain ⟨text, htext, rfl⟩ := Option.map_eq_some_iff.1 hrecord
    obtain ⟨hfound, hskipped⟩ := (mem_filesBelow hd).1 hbelow
    exact ⟨names, text, rfl, names, bytes, rfl, hfound, hskipped, htext⟩
  · rintro ⟨names, text, rfl, names', bytes, heq, hfound, hskipped, htext⟩
    obtain rfl := List.append_cancel_left heq
    refine ⟨(names, bytes), (mem_filesBelow hd).2 ⟨hfound, hskipped⟩, ?_⟩
    rw [htext]
    rfl

theorem IsRead.bytesAt? {root l : Location} {text : String} (h : IsRead d root l text) :
    ∃ bytes, d.bytesAt? l = some bytes ∧ Disk.textOf? bytes = some text := by
  obtain ⟨_, bytes, -, hfound, -, htext⟩ := h
  exact ⟨bytes, hfound, htext⟩

theorem IsRead.unique {root l : Location} {text text' : String} (h : IsRead d root l text)
    (h' : IsRead d root l text') : text = text' := by
  obtain ⟨bytes, hfound, htext⟩ := h.bytesAt?
  obtain ⟨bytes', hfound', htext'⟩ := h'.bytesAt?
  obtain rfl := Option.some.inj (hfound.symm.trans hfound')
  exact Option.some.inj (htext.symm.trans htext')

/-- The path of a file that is read leads to it. -/
theorem IsRead.location_eq (hd : d.WellFormed) (hdots : ".." ∉ root.names)
    (hroot : d.lookup? root.names = some .directory) {text : String}
    (h : IsRead d root.names (root.names ++ names) text) :
    (root.below (Text.join "/" names)).location = root.names ++ names := by
  obtain ⟨_, bytes, -, hfound, -, -⟩ := h
  have hlookup := Disk.bytesAt?_eq_some.1 hfound
  have hne : names ≠ [] := by
    rintro rfl
    rw [List.append_nil, hroot] at hlookup
    cases hlookup
  have hmem := Disk.mem_of_lookup? (by simp [hne]) hlookup
  exact Address.location_below hdots hne fun name hname =>
    (hd.names _ hmem).2 name (List.mem_append_right _ hname)

end WebMigration.Command
