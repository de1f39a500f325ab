import WebMigration.Disk.Edit
import WebMigration.Proofs.Disk.Location
import WebMigration.Proofs.Failure.Closed
import Mathlib.Logic.Function.Basic

/-!
# What working on a disk changes

Each step is described by what is found at locations before and after it, also where it fails.
Writing and removing a file change what is at one location, making directories only adds directories
where nothing was, and no step takes a directory away.
-/

namespace WebMigration.Disk

/-- The bytes of the file at a location. -/
def bytesAt? (d : Disk) (l : Location) : Option (List UInt8) :=
  match d.lookup? l with
  | some (.file bytes) => some bytes
  | _ => none

variable {d d' d'' : Disk} {p : Address} {l m : Location} {bytes : List UInt8}

theorem bytesAt?_eq_some : d.bytesAt? l = some bytes ↔ d.lookup? l = some (.file bytes) := by
  unfold bytesAt?
  split
  · rename_i bytes' h
    rw [h]
    simp
  · rename_i h
    exact iff_of_false nofun (h bytes)

theorem bytesAt?_congr (h : d'.lookup? l = d.lookup? l) : d'.bytesAt? l = d.bytesAt? l := by
  unfold bytesAt?
  rw [h]

theorem ne_nil_of_file (h : d.lookup? l = some (.file bytes)) : l ≠ [] := by
  rintro rfl
  cases h

theorem ne_nil_of_lookup? (h : d.lookup? l ≠ some .directory) : l ≠ [] := by
  rintro rfl
  exact h rfl

/-- The files of a disk are those that are found at locations. -/
theorem WellFormed.mem_files (h : d.WellFormed) :
    (l, bytes) ∈ d.files ↔ d.bytesAt? l = some bytes := by
  have hentry : (l, bytes) ∈ d.files ↔ (l, Entry.file bytes) ∈ d.entries := by
    unfold files
    rw [List.mem_filterMap]
    constructor
    · rintro ⟨⟨m, _ | _⟩, he, hfile⟩ <;> cases hfile
      exact he
    · exact fun he => ⟨_, he, rfl⟩
  rw [hentry, bytesAt?_eq_some]
  exact ⟨h.lookup?_of_mem, fun hfound => mem_of_lookup? (ne_nil_of_file hfound) hfound⟩

theorem put_lookup? {e : Entry} (h : l ≠ []) :
    (d.put l e).lookup? = Function.update d.lookup? l (some e) := by
  funext m
  rw [lookup?_put d l m e h, Function.update_apply]

theorem without_lookup? (h : l ≠ []) :
    (d.without l).lookup? = Function.update d.lookup? l none := by
  funext m
  rw [lookup?_without d l m h, Function.update_apply]

/-! ### Changes -/

/-- A change that is tried is made, or nothing is changed, or a file is cut short. -/
theorem attempt_cases {path : String} {c : Change} {s s' : Logged Disk} {x : Except Fault Unit}
    (h : attempt path c s = (x, s')) :
    (x = .ok () ∧ s'.state.lookup? = (s.state.after c).lookup?) ∨
      x ≠ .ok () ∧ ∃ mishap, s'.state.lookup? = (s.state.afterMishap mishap c).lookup? := by
  unfold attempt Run.onState at h
  dsimp only at h
  split at h <;> rename_i hmishap <;> dsimp only at h hmishap <;>
    obtain ⟨rfl, rfl⟩ := Run.end_inj.1 h
  · refine .inl ⟨rfl, ?_⟩
    cases c <;> rfl
  · rename_i mishap
    refine .inr ⟨nofun, mishap, ?_⟩
    cases mishap <;> cases c <;> rfl

/-- Writing a file fails and changes nothing, or puts a file where the address leads; if it
succeeds, the file has the given bytes. -/
theorem write_cases {s s' : Logged Disk} {x : Except Fault Unit}
    (h : write p bytes s = (x, s')) :
    (x ≠ .ok () ∧ s'.state.lookup? = s.state.lookup?) ∨
      ∃ l bytes', s.state.locate p = .ok l ∧ s.state.lookup? l ≠ some .directory ∧
        s'.state.lookup? = Function.update s.state.lookup? l (some (.file bytes')) ∧
        (x = .ok () → bytes' = bytes) := by
  unfold write at h
  rw [Run.bind_of_ok Run.state_eq] at h
  rcases hlocate : s.state.locate p with fault | l <;> rw [hlocate] at h
  · obtain ⟨rfl, rfl⟩ := Run.end_inj.1 h
    exact .inl ⟨nofun, rfl⟩
  · rw [Run.bind_of_ok (Run.ofExcept_ok.2 ⟨rfl, rfl⟩)] at h
    by_cases hdir : s.state.lookup? l = some .directory
    · rw [hdir] at h
      obtain ⟨rfl, rfl⟩ := Run.end_inj.1 h
      exact .inl ⟨nofun, rfl⟩
    · have h : attempt p.text (.write l bytes) s = (x, s') := by
        rcases hfound : s.state.lookup? l with _ | _ | _ <;> rw [hfound] at h hdir
        · exact h
        · exact h
        · exact absurd rfl hdir
      have hne : l ≠ [] := ne_nil_of_lookup? hdir
      -- A mishap refuses the file, or puts it there with its first bytes only.
      rcases attempt_cases h with ⟨-, hafter⟩ | ⟨hx, mishap, hafter⟩
      · exact .inr ⟨l, bytes, rfl, hdir, hafter.trans (put_lookup? hne), fun _ => rfl⟩
      · cases mishap with
        | refused => exact .inl ⟨hx, hafter⟩
        | cutShort kept =>
          exact .inr ⟨l, bytes.take kept, rfl, hdir, hafter.trans (put_lookup? hne),
            fun hok => absurd hok hx⟩

/-- Removing a file that may be there changes nothing, or takes the file away where the address
leads; if it succeeds, nothing is there afterwards. -/
theorem removeIfThere_cases {s s' : Logged Disk} {x : Except Fault Unit}
    (h : removeIfThere p s = (x, s')) :
    (s'.state.lookup? = s.state.lookup? ∧ (x = .ok () → s.state.has p = false)) ∨
      ∃ l bytes, s.state.locate p = .ok l ∧ s.state.lookup? l = some (.file bytes) ∧
        s'.state.lookup? = Function.update s.state.lookup? l none := by
  unfold removeIfThere at h
  rw [Run.bind_of_ok Run.state_eq] at h
  by_cases hhas : s.state.has p = true
  · rw [if_pos hhas, remove, Run.bind_of_ok Run.state_eq] at h
    rcases hlocate : s.state.locate p with fault | l <;> rw [hlocate] at h
    · obtain ⟨rfl, rfl⟩ := Run.end_inj.1 h
      exact .inl ⟨rfl, nofun⟩
    · rw [Run.bind_of_ok (Run.ofExcept_ok.2 ⟨rfl, rfl⟩)] at h
      rcases hfound : s.state.lookup? l with _ | bytes | _ <;> rw [hfound] at h
      · obtain ⟨rfl, rfl⟩ := Run.end_inj.1 h
        exact .inl ⟨rfl, nofun⟩
      · have hne : l ≠ [] := ne_nil_of_file hfound
        rcases attempt_cases h with ⟨-, hafter⟩ | ⟨hx, mishap, hafter⟩
        · exact .inr ⟨l, bytes, rfl, hfound, hafter.trans (without_lookup? hne)⟩
        · refine .inl ⟨?_, fun hok => absurd hok hx⟩
          cases mishap <;> exact hafter
      · obtain ⟨rfl, rfl⟩ := Run.end_inj.1 h
        exact .inl ⟨rfl, nofun⟩
  · rw [if_neg hhas] at h
    obtain ⟨rfl, rfl⟩ := Run.end_inj.1 h
    exact .inl ⟨rfl, fun _ => by simpa using hhas⟩

/-- Files went from some locations, and nothing else changed. -/
structure Cleared (gone : Location → Prop) (d d' : Disk) : Prop where
  directory_iff : ∀ l, d.lookup? l = some .directory ↔ d'.lookup? l = some .directory
  none_of_gone : ∀ l, gone l → d'.bytesAt? l = none
  eq_of_not_gone : ∀ l, ¬ gone l → d'.bytesAt? l = d.bytesAt? l

theorem Cleared.trans {gone gone' : Location → Prop} (h : Cleared gone d d')
    (h' : Cleared gone' d' d'') : Cleared (fun l => gone l ∨ gone' l) d d'' where
  directory_iff l := (h.directory_iff l).trans (h'.directory_iff l)
  none_of_gone l hl := by
    by_cases hgone' : gone' l
    · exact h'.none_of_gone l hgone'
    · rw [h'.eq_of_not_gone l hgone', h.none_of_gone l (hl.resolve_right hgone')]
  eq_of_not_gone l hl := by
    rw [not_or] at hl
    rw [h'.eq_of_not_gone l hl.2, h.eq_of_not_gone l hl.1]

/-- Once a file was removed that may have been there, none is where the address leads. -/
theorem removeIfThere_ok {s s' : Logged Disk} (h : removeIfThere p s = (.ok (), s')) :
    Cleared (fun l => s.state.locate p = .ok l) s.state s'.state := by
  rcases removeIfThere_cases h with ⟨hsame, hhas⟩ | ⟨l, bytes, hlocate, hfile, hgone⟩
  · refine ⟨fun l => by rw [hsame], fun l hl => ?_, fun l _ => bytesAt?_congr (by rw [hsame])⟩
    rcases hfound : s.state.lookup? l with _ | e
    · unfold bytesAt?
      rw [hsame, hfound]
    · have := (has_iff.2 ⟨l, e, hl, hfound⟩).symm.trans (hhas rfl)
      cases this
  · refine ⟨fun m => ?_, fun m hm => ?_, fun m hm => ?_⟩
    · by_cases heq : m = l
      · subst heq
        rw [hgone, hfile, Function.update_self]
        exact iff_of_false nofun nofun
      · rw [hgone, Function.update_of_ne heq]
    · obtain rfl := Except.ok.inj (hlocate.symm.trans hm)
      unfold bytesAt?
      rw [hgone, Function.update_self]
    · refine bytesAt?_congr ?_
      rw [hgone, Function.update_of_ne]
      rintro rfl
      exact hm hlocate

/-! ### Directories -/

/-- One disk has what the other one has, and directories besides. -/
def Grows (d d' : Disk) : Prop :=
  ∀ l, d'.lookup? l = d.lookup? l ∨ d.lookup? l = none ∧ d'.lookup? l = some .directory

theorem Grows.refl (d : Disk) : Grows d d := fun _ => .inl rfl

theorem Grows.trans (h : Grows d d') (h' : Grows d' d'') : Grows d d'' := by
  intro l
  rcases h l with heq | ⟨hnone, hdir⟩ <;> rcases h' l with heq' | ⟨hnone', hdir'⟩
  · exact .inl (heq'.trans heq)
  · exact .inr ⟨heq ▸ hnone', hdir'⟩
  · exact .inr ⟨hnone, heq'.trans hdir⟩
  · exact .inr ⟨hnone, hdir'⟩

theorem Grows.bytesAt? (h : Grows d d') (l : Location) : d'.bytesAt? l = d.bytesAt? l := by
  rcases h l with heq | ⟨hnone, hdir⟩
  · exact bytesAt?_congr heq
  · unfold Disk.bytesAt?
    rw [hnone, hdir]

theorem Grows.directory (h : Grows d d') (hl : d.lookup? l = some .directory) :
    d'.lookup? l = some .directory := by
  rcases h l with heq | ⟨hnone, -⟩
  · rw [heq, hl]
  · cases hl.symm.trans hnone

theorem makeWay_grows (path : String) (names : List String) (l : Location) :
    Run.Moves Grows _ (makeWay path l names) := by
  induction names generalizing l with
  | nil => exact fun s => .refl s.state
  | cons name rest ih =>
    intro s
    rw [makeWay, Run.bind_of_ok Run.state_eq]
    rw [← onward]
    -- Only where nothing is found a directory is made; an attempt that fails leaves the disk as it was.
    rcases hfound : s.state.lookup? (onward l name) with _ | _ | _
    · have hne : onward l name ≠ [] := ne_nil_of_lookup? (by rw [hfound]; nofun)
      rcases hmade : attempt path (.makeDirectory (onward l name)) s with ⟨x, t⟩
      have hgrows : Grows s.state t.state := by
        rcases attempt_cases hmade with ⟨-, hafter⟩ | ⟨-, mishap, hafter⟩
        · intro m
          rw [hafter.trans (put_lookup? hne), Function.update_apply]
          by_cases hm : m = onward l name
          · subst hm
            exact .inr ⟨hfound, if_pos rfl⟩
          · exact .inl (if_neg hm)
        · have hsame : t.state.lookup? = s.state.lookup? := by cases mishap <;> exact hafter
          exact fun m => .inl (congrFun hsame m)
      cases x with
      | error fault =>
        dsimp only
        rw [Run.bind_of_error hmade]
        exact hgrows
      | ok =>
        dsimp only
        rw [Run.bind_of_ok hmade]
        exact hgrows.trans (ih _ t)
    · exact .refl s.state
    · exact ih _ s

/-- Making directories adds directories, whether it succeeds or not. -/
theorem makeDirectories_grows (p : Address) : Run.Moves Grows _ (makeDirectories p) :=
  makeWay_grows p.text p.names []

end WebMigration.Disk
