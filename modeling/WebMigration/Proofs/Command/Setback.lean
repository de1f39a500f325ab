import WebMigration.Command.Run
import WebMigration.Proofs.Backup.Transaction
import WebMigration.Proofs.Command.Writing
import WebMigration.Proofs.Disk.Text

/-!
# Writing in place that is undone

When results cannot be written in place, the contents that were read are written back and the new
files are removed.  What is found then at a location depends on whether it was read, and on what the
writing left there.
-/

namespace WebMigration.Command

open Disk (Address Location)
open Run (Keeps Moves keeps_closed)

/-! ### The contents that are given back -/

/-- A transaction that gives back what it was given gives the originals back. -/
theorem contentsToRestore_eq {t : Backup.Transaction} {files : List FileRecord}
    (h : t.restored? = none ∨
      t.restored? = some (files.map fun f => (f.path, some (f.content.getD "")))) :
    contentsToRestore t (contentsOf files) = contentsOf files := by
  unfold contentsToRestore
  rcases h with h | h <;> rw [h]
  cases files with
  | nil => rfl
  | cons f rest => simp [contentsOf]

theorem onDisk_keeps_backups {α : Type} (r : Run Disk α) :
    Keeps Session.backups _ (Session.onDisk r) := by
  intro s
  rcases h : Session.onDisk r s with ⟨x, t⟩
  obtain ⟨u, -, hstate⟩ := Run.exists_of_onPart h
  dsimp only
  rw [hstate]

theorem writeBelow_keeps_backups (root : Address) (path : String) (content : Option String) :
    Keeps Session.backups _ (writeBelow root path content) := by
  have hclosed := keeps_closed Session.backups
  exact hclosed.bind (onDisk_keeps_backups _) fun _ =>
    hclosed.bind (hclosed.demand _ _) fun _ => onDisk_keeps_backups _

theorem writeResults_keeps_backups (root : Address) (results : Table FileResult) :
    Keeps Session.backups _ (writeResults root results) := by
  have hclosed := keeps_closed Session.backups
  induction results with
  | nil => exact hclosed.pure ()
  | cons r rest ih =>
    obtain ⟨path, result⟩ := r
    have hnext := hclosed.bind (writeBelow_keeps_backups root path result.code) fun _ => ih
    rw [writeResults]
    refine hclosed.bind (fun _ => rfl) fun d => ?_
    split
    · exact hclosed.bind (fun _ => rfl) fun _ => hnext
    · exact hnext

theorem removeRelocated_keeps_backups (root : Address) (results : Table FileResult)
    (originals : Table String) :
    Keeps Session.backups _ (removeRelocated root results originals) := by
  have hclosed := keeps_closed Session.backups
  induction originals with
  | nil => exact hclosed.pure ()
  | cons o rest ih =>
    obtain ⟨path, text⟩ := o
    rw [removeRelocated]
    split
    · exact hclosed.bind (onDisk_keeps_backups _) fun _ => ih
    · exact ih

/-! ### Undone -/

/-- The results that are written in place and the originals that are removed then. -/
def writing (root : Address) (files : List FileRecord) (results : Table FileResult) :
    Action Unit := do
  writeResults root results
  removeRelocated root results (contentsOf files)

theorem writing_keeps_backups (root : Address) (files : List FileRecord)
    (results : Table FileResult) : Keeps Session.backups _ (writing root files results) :=
  (keeps_closed Session.backups).bind (writeResults_keeps_backups root results) fun _ =>
    removeRelocated_keeps_backups root results _

/-- Writing in place that could not be done failed, and the originals were restored. -/
theorem writeInPlace_false {w : Surroundings} {root : Address} {jobId : String}
    {spec : Specification} {files : List FileRecord} {batch : BatchResult} {s s' : Logged Session}
    (h : writeInPlace w root jobId spec files batch s = (.ok false, s')) :
    ∃ t u v fault, t.state.tree = s.state.tree ∧
      writing root files batch.results t = (.error fault, u) ∧ fault.isSystem = true ∧
      v.state.tree = u.state.tree ∧ restore root (contentsOf files) v = (.ok (), s') := by
  unfold writeInPlace at h
  obtain ⟨_, t, hbegin, h⟩ := Run.bind_ok.1 h
  obtain ⟨outcome, u, houtcome, h⟩ := Run.bind_ok.1 h
  obtain ⟨transaction, v, hclose, h⟩ := Run.bind_ok.1 h
  obtain ⟨begun, hbegin, ht⟩ := Run.exists_of_onPart hbegin
  obtain ⟨closed, hclose, hv⟩ := Run.exists_of_onPart hclose
  rw [Run.attempt_eq] at houtcome
  obtain ⟨houtcome, hu⟩ := Run.end_inj.1 houtcome
  have houtcome := Except.ok.inj houtcome
  cases outcome with
  | ok => cases (Run.pure_ok.1 h).1
  | error fault =>
    have hwriting : writing root files batch.results t = (.error fault, u) := Prod.ext houtcome hu
    -- The writing does not touch the backups, so the snapshot is still the one of these files.
    have hbackups : u.state.backups = begun.state := by
      rw [(writing_keeps_backups root files batch.results).of_eq hwriting, ht]
    have hrestored : contentsToRestore transaction (contentsOf files) = contentsOf files :=
      contentsToRestore_eq (Backup.restored?_of_begin hbegin hbackups hclose)
    dsimp only at h
    by_cases hsystem : fault.isSystem = true
    · rw [if_pos hsystem] at h
      obtain ⟨_, x, htell, h⟩ := Run.bind_ok.1 h
      obtain ⟨_, y, hrestore, h⟩ := Run.bind_ok.1 h
      obtain ⟨-, rfl⟩ := Run.pure_ok.1 h
      have hx : x.state.tree = u.state.tree := by
        rw [(tell_keeps _ _).of_eq htell, hv]
        rfl
      rw [hrestored] at hrestore
      exact ⟨t, u, x, fault, by rw [ht]; rfl, hwriting, hsystem, hx, hrestore⟩
    · rw [if_neg hsystem] at h
      cases (Run.end_inj.1 h).1

/-- Nothing is read at a location. -/
def IsUnread (d : Disk) (root l : Location) : Prop := ∀ text, ¬ IsRead d root l text

/-- Every file below a directory has the bytes that it had. -/
def Restored (root : Location) (before after : Disk) : Prop :=
  ∀ l bytes, root <+: l → before.bytesAt? l = some bytes → after.bytesAt? l = some bytes

/-- An address that is kept in mind leads to a location. -/
def Remembers (s : Session) (l : Location) : Prop := ∃ p ∈ s.written, s.disk.locate p = .ok l

/-- A migration of a directory from one session to another one whose writing in place failed and was
undone: what was read and what came of it, where the writing began, and what it left. -/
structure Setback (w : Surroundings) (root : Address) (s s' : Logged Session) where
  files : List FileRecord
  batch : BatchResult
  start : Logged Session
  fault : Fault
  failed : Logged Session
  transforms : ∃ settings semantic spec jobId t u v, t.state.tree = s.state.tree ∧
    collectFiles root t = (.ok files, u) ∧
    transformFiles (engineOf w settings semantic) files spec jobId u = (.ok (some batch), v)
  start_tree : start.state.tree = s.state.tree
  fails : writing root files batch.results start = (.error fault, failed)
  isSystem : fault.isSystem = true
  restores : ∃ t, t.state.tree = failed.state.tree ∧
    restore root (contentsOf files) t = (.ok (), s')

namespace Setback

variable {w : Surroundings} {root : Address} {s s' : Logged Session}

/-- A migration may as well begin in a session with the same disk and the same files kept in mind. -/
def ofTree {t : Logged Session} (b : Setback w root t s')
    (h : t.state.tree = s.state.tree) : Setback w root s s' :=
  { b with
    transforms := by rw [← h]; exact b.transforms
    start_tree := b.start_tree.trans h }

/-- What was read has no carriage returns, and what was not read is untouched by the writing. -/
def Reversible (b : Setback w root s s') : Prop :=
  (∀ l text bytes, IsRead s.state.disk root.names l text → s.state.disk.bytesAt? l = some bytes →
      13 ∉ bytes) ∧
    ∀ l bytes, root.names <+: l → s.state.disk.bytesAt? l = some bytes →
      IsUnread s.state.disk root.names l →
      b.failed.state.disk.bytesAt? l = some bytes ∧ ¬ Remembers b.failed.state l

/-- What restoring leaves: the texts that were read, and elsewhere what the writing left, less the
files whose addresses are kept in mind. -/
structure Undone (b : Setback w root s s') : Prop where
  read : ∀ l text, IsRead s.state.disk root.names l text →
    s'.state.disk.bytesAt? l = some (Text.encode text)
  removed : ∀ l, IsUnread s.state.disk root.names l → Remembers b.failed.state l →
    s'.state.disk.bytesAt? l = none
  left : ∀ l, IsUnread s.state.disk root.names l → ¬ Remembers b.failed.state l →
    s'.state.disk.bytesAt? l = b.failed.state.disk.bytesAt? l

variable (hd : s.state.disk.WellFormed) (hdots : ".." ∉ root.names)
  (hroot : s.state.disk.lookup? root.names = some .directory) (b : Setback w root s s')

include hd in
theorem mem_contents {x : String × String} : x ∈ contentsOf b.files ↔
    ∃ names text, x = (Text.join "/" names, text) ∧
      IsRead s.state.disk root.names (root.names ++ names) text := by
  obtain ⟨_, _, _, _, t, u, v, htree, hfiles, -⟩ := b.transforms
  obtain ⟨hdisk, -⟩ := Prod.mk.inj htree
  rw [← hdisk] at hd ⊢
  unfold contentsOf
  rw [List.mem_map]
  constructor
  · rintro ⟨f, hf, rfl⟩
    obtain ⟨names, text, rfl, hread⟩ := (mem_collectFiles hd hfiles).1 hf
    exact ⟨names, text, rfl, hread⟩
  · rintro ⟨names, text, rfl, hread⟩
    exact ⟨_, (mem_collectFiles hd hfiles).2 ⟨names, text, rfl, hread⟩, rfl⟩

/-- The paths that the writing works at. -/
def paths (b : Setback w root s s') : List String :=
  b.batch.results.map (·.1) ++ (contentsOf b.files).map (·.1)

theorem wrote : Wrote root b.paths b.start.state b.failed.state := by
  have hresults : Moves (Wrote root b.paths) _ (writeResults root b.batch.results) :=
    writeResults_wrote _ fun r hr => List.mem_append_left _ (List.mem_map_of_mem hr)
  have horiginals : Moves (Wrote root b.paths) _
      (removeRelocated root b.batch.results (contentsOf b.files)) :=
    removeRelocated_wrote _ _ fun o ho => List.mem_append_right _ (List.mem_map_of_mem ho)
  exact (wrote_closed.bind hresults fun _ => horiginals).of_eq b.fails

include hd hdots hroot in
/-- The contents that are written back are at the locations of the files that were read. -/
theorem location_of_mem {x : String × String} (hx : x ∈ contentsOf b.files) :
    IsRead s.state.disk root.names (root.below x.1).location x.2 := by
  obtain ⟨names, text, rfl, hread⟩ := (mem_contents hd b).1 hx
  dsimp only
  rw [hread.location_eq hd hdots hroot]
  exact hread

include hd hdots hroot in
theorem undone : b.Undone := by
  obtain ⟨v, hv, h⟩ := b.restores
  obtain ⟨hdisk, hwritten⟩ := Prod.mk.inj hv
  unfold restore at h
  rw [Run.bind_of_ok Run.state_eq] at h
  obtain ⟨_, t, hremove, hwrite⟩ := Run.bind_ok.1 h
  have hcleared := removeAll_ok hremove
  rw [hdisk, hwritten] at hcleared
  have hread : ∀ x ∈ contentsOf b.files, ∀ l, (root.below x.1).location = l →
      IsRead s.state.disk root.names l x.2 := by
    rintro x hx l rfl
    exact location_of_mem hd hdots hroot b hx
  -- Everything that is written back is at a location that was read.
  have hunread : ∀ l, IsUnread s.state.disk root.names l →
      s'.state.disk.bytesAt? l = t.state.disk.bytesAt? l := by
    intro l hl
    rcases writeAll_ok hwrite l with ⟨x, hx, hlocation, -⟩ | ⟨-, hsame⟩
    · exact absurd (hread x hx l hlocation) (hl x.2)
    · exact hsame
  refine ⟨fun l text hl => ?_, fun l hl hremembered => ?_, fun l hl hremembered => ?_⟩
  · rcases writeAll_ok hwrite l with ⟨x, hx, hlocation, hfound⟩ | ⟨hnone, -⟩
    · rw [hfound, (hread x hx l hlocation).unique hl]
    · obtain ⟨names, bytes, rfl, hrest⟩ := id hl
      have hmem := (mem_contents hd b).2 ⟨names, text, rfl, hl⟩
      exact absurd (hl.location_eq hd hdots hroot) (hnone _ hmem)
  · rw [hunread l hl, hcleared.none_of_gone l hremembered]
  · rw [hunread l hl, hcleared.eq_of_not_gone l hremembered]

variable {b}

namespace Undone

variable (h : b.Undone)

include h

/-- A tree is as it was exactly when the writing was reversible. -/
theorem restored_iff : Restored root.names s.state.disk s'.state.disk ↔ b.Reversible := by
  constructor
  · intro hrestored
    refine ⟨fun l text bytes hl hbytes => ?_, fun l bytes hbelow hbytes hl => ?_⟩
    · obtain ⟨names, bytes', rfl, hfound, -, htext⟩ := id hl
      obtain rfl := Option.some.inj (hbytes.symm.trans hfound)
      have hafter := hrestored _ bytes (List.prefix_append _ _) hbytes
      rw [h.read _ text hl, Option.some.injEq] at hafter
      exact (Disk.encode_textOf?_iff htext).1 hafter
    · have hafter := hrestored l bytes hbelow hbytes
      have hkept : ¬ Remembers b.failed.state l := fun hremembered => by
        rw [h.removed l hl hremembered] at hafter
        cases hafter
      exact ⟨(h.left l hl hkept).symm.trans hafter, hkept⟩
  · rintro ⟨htexts, hothers⟩ l bytes hbelow hbytes
    by_cases hl : ∃ text, IsRead s.state.disk root.names l text
    · obtain ⟨text, hl⟩ := hl
      obtain ⟨bytes', hfound, htext⟩ := hl.bytesAt?
      obtain rfl := Option.some.inj (hbytes.symm.trans hfound)
      rw [h.read l text hl,
        (Disk.encode_textOf?_iff htext).2 (htexts l text bytes hl hbytes)]
    · have hl := not_exists.1 hl
      obtain ⟨hleft, hkept⟩ := hothers l bytes hbelow hbytes hl
      rw [h.left l hl hkept, hleft]

/-- No file is new. -/
theorem no_new_file {l : Location} (hl : (s'.state.disk.bytesAt? l).isSome) :
    (s.state.disk.bytesAt? l).isSome := by
  by_cases hread : ∃ text, IsRead s.state.disk root.names l text
  · obtain ⟨text, hread⟩ := hread
    obtain ⟨bytes, hfound, -⟩ := hread.bytesAt?
    rw [hfound]
    rfl
  · have hunread := not_exists.1 hread
    by_cases hremembered : Remembers b.failed.state l
    · rw [h.removed l hunread hremembered] at hl
      cases hl
    · rw [h.left l hunread hremembered] at hl
      obtain ⟨hstart, -⟩ := Prod.mk.inj b.start_tree
      rw [← hstart]
      exact (b.wrote.remembered l hl).resolve_right hremembered

include hd hdots hroot in
/-- What is not read stays as it was where no result leads. -/
theorem unread_eq (hnone : s.state.written = []) {l : Location}
    (hl : IsUnread s.state.disk root.names l)
    (hresults : ∀ r ∈ b.batch.results, (root.below r.1).location ≠ l) :
    s'.state.disk.bytesAt? l = s.state.disk.bytesAt? l := by
  have hpaths : ∀ path ∈ b.paths, (root.below path).location ≠ l := by
    intro path hpath hlocation
    rcases List.mem_append.1 hpath with hpath | hpath
    · obtain ⟨r, hr, rfl⟩ := List.mem_map.1 hpath
      exact hresults r hr hlocation
    · obtain ⟨x, hx, rfl⟩ := List.mem_map.1 hpath
      have hread := location_of_mem hd hdots hroot b hx
      rw [hlocation] at hread
      exact hl _ hread
  obtain ⟨hdisk, hwritten⟩ := Prod.mk.inj b.start_tree
  have hkept : ¬ Remembers b.failed.state l := by
    rintro ⟨p, hp, hlocate⟩
    rcases b.wrote.addresses p hp with hold | ⟨path, hpath, rfl⟩
    · rw [hwritten, hnone] at hold
      cases hold
    · exact hpaths path hpath (Disk.locate_ok hlocate).symm
  rw [h.left l hl hkept, b.wrote.elsewhere l hpaths, hdisk]

end Undone

end Setback

end WebMigration.Command
