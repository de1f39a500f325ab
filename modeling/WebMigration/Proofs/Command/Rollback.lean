import WebMigration.Proofs.Command.Preparing
import WebMigration.Proofs.Command.Setback

/-!
# When a source tree is restored

A run that hands back one has either not begun to write, or its writing failed and was undone.
-/

namespace WebMigration.Command

open Disk (Address)

variable {w : Surroundings} {o : Options} {spec : Specification} {settings : Settings}
  {root : Address} {s s' : Logged Session}

/-- Only writing in place may say that it could not be done. -/
theorem deliver_false {jobId : String} {files : List FileRecord} {batch : BatchResult}
    (h : deliver w o root jobId spec files batch s = (.ok false, s')) :
    o.inPlace = true ∧ writeInPlace w root jobId spec files batch s = (.ok false, s') := by
  unfold deliver at h
  cases hplace : o.inPlace with
  | true =>
    rw [hplace, if_pos rfl] at h
    exact ⟨rfl, h⟩
  | false =>
    rw [hplace, if_neg Bool.false_ne_true] at h
    rcases houtput : o.output with _ | output <;> rw [houtput] at h
    · cases (Run.pure_ok.1 h).1
    · obtain ⟨_, t, -, h⟩ := Run.bind_ok.1 h
      cases (Run.pure_ok.1 h).1

/-- A migration that ends with one leaves the disk alone, or its writing in place was undone. -/
theorem migrate_one (hw : w.Harmless) (h : migrate w o settings spec root s = (.ok 1, s')) :
    s'.state.disk = s.state.disk ∨ o.inPlace = true ∧ Nonempty (Setback w root s s') := by
  unfold migrate at h
  obtain ⟨semantic, t, hchosen, h⟩ := Run.bind_ok.1 h
  obtain ⟨hsemantic, rfl⟩ := Run.ofExcept_ok.1 hchosen
  obtain ⟨_, t, hupdate, h⟩ := Run.bind_ok.1 h
  obtain ⟨files, u, hfiles, h⟩ := Run.bind_ok.1 h
  obtain ⟨answer, v, hbatch, h⟩ := Run.bind_ok.1 h
  have ht : t.state.tree = s.state.tree := by rw [← (Run.end_inj.1 hupdate).2]; rfl
  have hu : u.state.tree = s.state.tree := ((collectFiles_keeps root).of_eq hfiles).trans ht
  have hv : v.state.tree = s.state.tree :=
    ((transformFiles_keeps hw hsemantic _ _ _).of_eq hbatch).trans hu
  cases answer with
  | none =>
    obtain ⟨-, rfl⟩ := Run.pure_ok.1 h
    exact .inl (Prod.mk.inj hv).1
  | some batch =>
    obtain ⟨delivered, x, hdeliver, h⟩ := Run.bind_ok.1 h
    cases delivered with
    | true =>
      obtain ⟨_, y, -, h⟩ := Run.bind_ok.1 h
      cases (Run.pure_ok.1 h).1
    | false =>
      obtain ⟨-, rfl⟩ := Run.pure_ok.1 h
      obtain ⟨hplace, hwrite⟩ := deliver_false hdeliver
      obtain ⟨start, failed, y, fault, hstart, hfails, hsystem, hy, hrestore⟩ :=
        writeInPlace_false hwrite
      exact .inr ⟨hplace, ⟨{
        files, batch, start, fault, failed
        transforms := ⟨settings, semantic, spec, _, t, u, v, ht, hfiles, hbatch⟩
        start_tree := hstart.trans hv
        fails := hfails
        isSystem := hsystem
        restores := ⟨y, hy, hrestore⟩ }⟩⟩

/-- The directory that options name, from the root on. -/
def Options.sourceRoot (o : Options) (w : Surroundings) : Address :=
  (Address.ofPath w.working o.source).settled

/-- What options ask for ends with one only if the disk was left alone, or if writing in place was
undone. -/
theorem perform_one (hw : w.Harmless) (h : perform w o s = (.ok 1, s')) :
    s'.state.disk = s.state.disk ∨
      o.inPlace = true ∧ s.state.disk.lookup? (o.sourceRoot w).names = some .directory ∧
        Nonempty (Setback w (o.sourceRoot w) s s') := by
  unfold perform at h
  obtain ⟨settings, t, hsettings, h⟩ := Run.bind_ok.1 h
  obtain ⟨_, u, hshow, h⟩ := Run.bind_ok.1 h
  obtain ⟨answer, v, hspec, h⟩ := Run.bind_ok.1 h
  have ht : t.state.tree = s.state.tree := (loadSettings_keeps w o).of_eq hsettings
  have hu : u.state.tree = s.state.tree := ((showFrom_keeps _).of_eq hshow).trans ht
  have hv : v.state.tree = s.state.tree :=
    ((tree_closed.attempt (loadSpec_keeps _)).of_eq hspec).trans hu
  obtain ⟨hdisk, -⟩ := Prod.mk.inj hv
  rcases answer with fault | spec <;> dsimp only at h
  · by_cases hrefusal : isRefusal fault = true
    · rw [if_pos hrefusal] at h
      obtain ⟨_, x, -, h⟩ := Run.bind_ok.1 h
      cases (Run.pure_ok.1 h).1
    · rw [if_neg hrefusal] at h
      cases (Run.end_inj.1 h).1
  · have hlook : Session.disk? v = (.ok v.state.disk, v) := rfl
    rw [Run.bind_of_ok hlook] at h
    by_cases hroot : v.state.disk.hasDirectory (o.sourceRoot w) = true
    · rw [← Options.sourceRoot, if_pos hroot] at h
      obtain ⟨l, hlocate, hdirectory⟩ := Disk.hasDirectory_iff.1 hroot
      rw [Disk.locate_ok hlocate, Options.sourceRoot, Address.location_settled] at hdirectory
      rw [← hdisk]
      exact (migrate_one hw h).imp_right fun ⟨hplace, ⟨b⟩⟩ => ⟨hplace, hdirectory, ⟨b.ofTree hv⟩⟩
    · rw [← Options.sourceRoot, if_neg hroot] at h
      obtain ⟨_, x, -, h⟩ := Run.bind_ok.1 h
      cases (Run.pure_ok.1 h).1

/-- **When a tree is restored.**  A run that hands back one leaves no new file.  It has left the
disk alone, or writing in place failed and was undone.  Then every file below the directory is as it
was exactly when what was read had no carriage returns and what was not read was untouched by the
writing, as it is where no result leads. -/
theorem tree_restored_iff {words : List String} (hw : w.Harmless)
    (hd : s.state.disk.WellFormed) (hnone : s.state.written = [])
    (h : run w words s = (.ok (.finished 1), s')) :
    (∀ l, (s'.state.disk.bytesAt? l).isSome → (s.state.disk.bytesAt? l).isSome) ∧
      ∃ o, Options.read words = .ok o ∧ (s'.state.disk = s.state.disk ∨
        o.inPlace = true ∧ ∃ b : Setback w (o.sourceRoot w) s s',
          (Restored (o.sourceRoot w).names s.state.disk s'.state.disk ↔ b.Reversible) ∧
          ∀ l, IsUnread s.state.disk (o.sourceRoot w).names l →
            (∀ r ∈ b.batch.results, ((o.sourceRoot w).below r.1).location ≠ l) →
            s'.state.disk.bytesAt? l = s.state.disk.bytesAt? l) := by
  unfold run at h
  rcases hread : Options.read words with reason | o <;> rw [hread] at h
  · cases (Run.pure_ok.1 h).1
  · obtain ⟨code, t, hperform, hend⟩ := Run.bind_ok.1 h
    obtain ⟨hcode, rfl⟩ := Run.pure_ok.1 hend
    obtain rfl : code = 1 := by cases hcode; rfl
    rcases perform_one hw hperform with hsame | ⟨hplace, hroot, ⟨b⟩⟩
    · refine ⟨fun l hl => ?_, o, rfl, .inl hsame⟩
      rw [← hsame]
      exact hl
    · have hdots := Address.dots_not_mem_settled (Address.ofPath w.working o.source)
      have hundone := b.undone hd hdots hroot
      exact ⟨fun l => hundone.no_new_file, o, rfl, .inr ⟨hplace, b, hundone.restored_iff,
        fun l hl => hundone.unread_eq hd hdots hroot hnone hl⟩⟩

/-! ### A tree that is not restored -/

/-- Surroundings with a model that never answers. -/
def silent : Surroundings where
  working := ["w"]
  freshJobId := "job"
  model _ _ _ := pure none

theorem silent_harmless : silent.Harmless := fun _ _ _ => tree_closed.pure none

/-- Two scripts, one next to a file that is no text and one next to a directory, with the names that
the scripts are to get. -/
def crowded : Disk where
  entries :=
    [(["w"], .directory),
      (["w", "spec.json"],
        .file (Text.encode "\x7b\"target\": \x7b\"framework\": \"Svelte\"\x7d\x7d")),
      (["w", "app"], .directory), (["w", "app", "a.js"], .file (Text.encode "f();\n")),
      (["w", "app", "A.tsx"], .file [255]), (["w", "app", "b.js"], .file (Text.encode "g();\n")),
      (["w", "app", "B.tsx"], .directory)]

theorem crowded_wellFormed : crowded.WellFormed := ⟨by decide +kernel, by decide +kernel⟩

/-- The words that ask for a migration of the scripts in place. -/
def inPlaceWords : List String := ["app", "--spec", "spec.json", "--in-place"]

theorem filesBelow_crowded : filesBelow crowded ["w", "app"] =
    [(["A.tsx"], [255]), (["a.js"], Text.encode "f();\n"), (["b.js"], Text.encode "g();\n")] := by
  have hread : (crowded.files.filterMap fun f =>
      if ["w", "app"].isPrefixOf f.1 && !(f.1.drop 2).dropLast.any skippedDirectories.contains then
        some (f.1.drop 2, f.2)
      else none) =
      [(["a.js"], Text.encode "f();\n"), (["A.tsx"], [255]), (["b.js"], Text.encode "g();\n")] := by
    decide +kernel
  have hfirst : comesBefore ["a.js"] ["A.tsx"] = false := by decide +kernel
  have hmiddle : comesBefore ["A.tsx"] ["b.js"] = true := by decide +kernel
  have hlast : comesBefore ["a.js"] ["b.js"] = true := by decide +kernel
  simp only [filesBelow, List.length_cons, List.length_nil]
  rw [hread]
  simp [List.mergeSort, List.MergeSort.Internal.splitInTwo, hfirst, hmiddle, hlast]

/-- The walk of the crowded tree can be looked up, so that a run needs no sorting. -/
theorem filesBelow_eq_of_crowded : filesBelow = fun d root =>
    if d.entries = crowded.entries ∧ root = ["w", "app"] then
      [(["A.tsx"], [255]), (["a.js"], Text.encode "f();\n"), (["b.js"], Text.encode "g();\n")]
    else filesBelow d root := by
  funext d root
  split_ifs with h
  · obtain ⟨hentries, rfl⟩ := h
    rw [← filesBelow_crowded]
    unfold filesBelow Disk.files
    rw [hentries]
  · rfl

/-- The first result goes where the file is that is no text, the second one cannot be written. -/
theorem run_crowded : ∃ s', run silent inPlaceWords ⟨{ disk := crowded }, []⟩ =
      (.ok (.finished 1), s') ∧
    s'.state.disk.bytesAt? ["w", "app", "A.tsx"] = some (Text.encode "f();\n") := by
  have ends : (match run silent inPlaceWords ⟨{ disk := crowded }, []⟩ with
      | (.ok (.finished 1), s') =>
          s'.state.disk.bytesAt? ["w", "app", "A.tsx"] == some (Text.encode "f();\n")
      | _ => false) = true := by
    unfold run perform migrate collectFiles
    rw [filesBelow_eq_of_crowded]
    decide +kernel
  split at ends
  · rename_i s' h
    exact ⟨s', h, eq_of_beq ends⟩
  · cases ends

theorem tree_restored_iff_crowded : ∃ s', silent.Harmless ∧ crowded.WellFormed ∧
    run silent inPlaceWords ⟨{ disk := crowded }, []⟩ = (.ok (.finished 1), s') ∧
    ∃ o, Options.read inPlaceWords = .ok o ∧
      ∃ b : Setback silent (o.sourceRoot silent) ⟨{ disk := crowded }, []⟩ s', ¬ b.Reversible := by
  obtain ⟨s', h, hafter⟩ := run_crowded
  have hbefore : crowded.bytesAt? ["w", "app", "A.tsx"] = some [255] := by decide +kernel
  have hchanged : Text.encode "f();\n" ≠ [255] := by decide +kernel
  obtain ⟨-, o, ho, hsame | ⟨-, b, hrestored, -⟩⟩ :=
    tree_restored_iff (s := ⟨{ disk := crowded }, []⟩) silent_harmless crowded_wellFormed rfl h
  · rw [hsame] at hafter
    exact absurd (Option.some.inj (hafter.symm.trans hbefore)) hchanged
  · refine ⟨s', silent_harmless, crowded_wellFormed, h, o, ho, b, fun hreversible => ?_⟩
    have hroot : (o.sourceRoot silent).names <+: ["w", "app", "A.tsx"] := by
      have hread : Options.read inPlaceWords =
          .ok { source := "app", spec := "spec.json", inPlace := true } := by decide +kernel
      obtain rfl := Except.ok.inj (hread.symm.trans ho)
      decide +kernel
    have hback := hrestored.2 hreversible _ _ hroot hbefore
    exact hchanged (Option.some.inj (hafter.symm.trans hback))

/-- A file that was not read and that a result was written to is not restored. -/
theorem overwritten_file_not_restored :
    ∃ s', run silent inPlaceWords ⟨{ disk := crowded }, []⟩ = (.ok (.finished 1), s') ∧
      ¬ Restored ["w", "app"] crowded s'.state.disk := by
  obtain ⟨s', h, hafter⟩ := run_crowded
  refine ⟨s', h, fun hrestored => ?_⟩
  have hback := hrestored ["w", "app", "A.tsx"] [255] (by decide) (by decide +kernel)
  have hchanged : Text.encode "f();\n" ≠ [255] := by decide +kernel
  exact hchanged (Option.some.inj (hafter.symm.trans hback))

end WebMigration.Command
