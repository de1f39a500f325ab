import WebMigration.Command.Tree
import WebMigration.Proofs.Disk.Change
import WebMigration.Proofs.Command.Reading

/-!
# What writing and restoring leave

Wherever writing results into a source tree and removing relocated files stops, every file that is
new is at an address that is kept in mind, and only what the paths of results and originals lead to
is touched.  Restoring removes every file that is at an address kept in mind and writes the old
contents.  If it succeeds, these are what is found at their paths, and everywhere else is what was
left before, less the removed files.
-/

namespace WebMigration.Command

open Disk (Address Location Grows Cleared)
open Run (Moves)

/-! ### Working on the disk of a session -/

theorem onDisk_eq {α : Type} {r : Run Disk α} {s : Logged Session} {x : Except Fault α}
    {t : Logged Disk} (h : r ⟨s.state.disk, s.log⟩ = (x, t)) :
    Session.onDisk r s = (x, ⟨{ s.state with disk := t.state }, t.log⟩) := Run.onPart_eq h

/-- One session comes from another one by work at some paths below a directory: directories stay,
and every file that is new is at an address that is kept in mind. -/
structure Wrote (root : Address) (paths : List String) (s s' : Session) : Prop where
  directory : ∀ l, s.disk.lookup? l = some .directory → s'.disk.lookup? l = some .directory
  kept : ∀ p ∈ s.written, p ∈ s'.written
  remembered : ∀ l, (s'.disk.bytesAt? l).isSome →
    (s.disk.bytesAt? l).isSome ∨ ∃ p ∈ s'.written, s'.disk.locate p = .ok l
  elsewhere : ∀ l, (∀ path ∈ paths, (root.below path).location ≠ l) →
    s'.disk.bytesAt? l = s.disk.bytesAt? l
  addresses : ∀ p ∈ s'.written, p ∈ s.written ∨ ∃ path ∈ paths, p = root.below path

namespace Wrote

variable {root : Address} {paths : List String} {s s' s'' : Session}

theorem refl (s : Session) : Wrote root paths s s :=
  ⟨fun _ h => h, fun _ h => h, fun _ h => .inl h, fun _ _ => rfl, fun _ h => .inl h⟩

theorem trans (h : Wrote root paths s s') (h' : Wrote root paths s' s'') :
    Wrote root paths s s'' where
  directory l hl := h'.directory l (h.directory l hl)
  kept p hp := h'.kept p (h.kept p hp)
  remembered l hl := by
    rcases h'.remembered l hl with hold | hnew
    · rcases h.remembered l hold with hold | ⟨p, hp, hlocate⟩
      · exact .inl hold
      · exact .inr ⟨p, h'.kept p hp, Disk.locate_mono h'.directory hlocate⟩
    · exact .inr hnew
  elsewhere l hl := (h'.elsewhere l hl).trans (h.elsewhere l hl)
  addresses p hp := by
    rcases h'.addresses p hp with hold | hnew
    · exact h.addresses p hold
    · exact .inr hnew

/-- New directories do no harm. -/
theorem of_grows {d : Disk} (h : Grows s.disk d) : Wrote root paths s { s with disk := d } where
  directory _ hl := h.directory hl
  kept _ hp := hp
  remembered l hl := by
    rw [h.bytesAt? l] at hl
    exact .inl hl
  elsewhere l _ := h.bytesAt? l
  addresses _ hp := .inl hp

/-- A file comes, changes or goes where the address of a path leads. -/
theorem of_update {path : String} {d : Disk} {l : Location} {e : Option Disk.Entry}
    (hpath : path ∈ paths) (hlocate : s.disk.locate (root.below path) = .ok l)
    (hfree : s.disk.lookup? l ≠ some .directory)
    (hupdate : d.lookup? = Function.update s.disk.lookup? l e)
    (hknown : (d.bytesAt? l).isSome → (s.disk.bytesAt? l).isSome ∨ root.below path ∈ s.written) :
    Wrote root paths s { s with disk := d } := by
  have hdirs : ∀ m, s.disk.lookup? m = some .directory → d.lookup? m = some .directory := by
    intro m hm
    rw [hupdate, Function.update_of_ne (by rintro rfl; exact hfree hm), hm]
  have hother : ∀ m, m ≠ l → d.bytesAt? m = s.disk.bytesAt? m := fun m hm =>
    Disk.bytesAt?_congr (by rw [hupdate, Function.update_of_ne hm])
  refine ⟨hdirs, fun _ hp => hp, fun m hm => ?_, fun m hm => ?_, fun _ hp => .inl hp⟩
  · by_cases heq : m = l
    · subst heq
      exact (hknown hm).imp_right fun hwritten =>
        ⟨_, hwritten, Disk.locate_mono hdirs hlocate⟩
    · rw [hother m heq] at hm
      exact .inl hm
  · refine hother m ?_
    rintro rfl
    exact hm path hpath (Disk.locate_ok hlocate).symm

end Wrote

variable {root : Address} {paths : List String}

theorem wrote_closed : (Moves (Wrote root paths)).Closed :=
  Run.moves_closed Wrote.refl fun _ _ _ => Wrote.trans

/-! ### Writing results -/

/-- Writing below a directory adds directories and then fails or puts a file where the address
leads; if it succeeds, the file holds the text. -/
theorem writeBelow_cases {path : String} {content : Option String} {s s' : Logged Session}
    {x : Except Fault Unit} (h : writeBelow root path content s = (x, s')) :
    ∃ d d', Grows s.state.disk d ∧ s'.state = { s.state with disk := d' } ∧
      ((x ≠ .ok () ∧ d'.lookup? = d.lookup?) ∨
        ∃ l bytes, d.locate (root.below path) = .ok l ∧ d.lookup? l ≠ some .directory ∧
          d'.lookup? = Function.update d.lookup? l (some (.file bytes)) ∧
          (x = .ok () → ∃ text, content = some text ∧ bytes = Text.encode text)) := by
  unfold writeBelow at h
  rcases hmade : Disk.makeDirectories (root.below path).parent ⟨s.state.disk, s.log⟩ with
    ⟨fault | ⟨⟩, t⟩
  all_goals have hgrows := (Disk.makeDirectories_grows (root.below path).parent).of_eq hmade
  · rw [Run.bind_of_error (onDisk_eq hmade)] at h
    obtain ⟨rfl, rfl⟩ := Run.end_inj.1 h
    exact ⟨t.state, t.state, hgrows, rfl, .inl ⟨nofun, rfl⟩⟩
  · rw [Run.bind_of_ok (onDisk_eq hmade)] at h
    cases content with
    | none =>
      obtain ⟨rfl, rfl⟩ := Run.end_inj.1 h
      exact ⟨t.state, t.state, hgrows, rfl, .inl ⟨nofun, rfl⟩⟩
    | some text =>
      rw [Run.bind_of_ok (Run.demand_ok.2 ⟨rfl, rfl⟩)] at h
      obtain ⟨u, hwrite, hstate⟩ := Run.exists_of_onPart h
      refine ⟨t.state, u.state, hgrows, hstate, ?_⟩
      rcases Disk.write_cases hwrite with hnone | ⟨l, bytes, hlocate, hfree, hput, hbytes⟩
      · exact .inl hnone
      · exact .inr ⟨l, bytes, hlocate, hfree, hput, fun hx => ⟨text, rfl, hbytes hx⟩⟩

/-- A file is written at a path that has one already or whose address is kept in mind. -/
theorem writeBelow_wrote {path : String} (hpath : path ∈ paths) (content : Option String)
    (s : Logged Session)
    (hknown : s.state.disk.has (root.below path) = true ∨ root.below path ∈ s.state.written) :
    Wrote root paths s.state (writeBelow root path content s).2.state := by
  rcases hend : writeBelow root path content s with ⟨x, s'⟩
  obtain ⟨d, d', hgrows, hstate, hcases⟩ := writeBelow_cases hend
  dsimp only
  rw [hstate]
  refine (Wrote.of_grows hgrows).trans ?_
  rcases hcases with ⟨-, hsame⟩ | ⟨l, bytes, hlocate, hfree, hput, -⟩
  · exact .of_grows fun l => .inl (congrFun hsame l)
  · refine Wrote.of_update (s := { s.state with disk := d }) hpath hlocate hfree hput fun _ => ?_
    rcases hknown with hhas | hwritten
    · obtain ⟨m, e, hm, he⟩ := Disk.has_iff.1 hhas
      have hml := (Disk.locate_mono (fun _ => hgrows.directory) hm).symm.trans hlocate
      obtain rfl := Except.ok.inj hml
      cases e with
      | directory => exact absurd (hgrows.directory he) hfree
      | file bytes =>
        refine .inl ?_
        dsimp only
        rw [hgrows.bytesAt?, Disk.bytesAt?_eq_some.2 he]
        rfl
    · exact .inr hwritten

theorem writeResults_wrote (results : Table FileResult) (hpaths : ∀ r ∈ results, r.1 ∈ paths) :
    Moves (Wrote root paths) _ (writeResults root results) := by
  induction results with
  | nil => exact fun s => .refl s.state
  | cons r rest ih =>
    obtain ⟨path, result⟩ := r
    obtain ⟨hpath, hrest⟩ := List.forall_mem_cons.1 hpaths
    -- Whether or not the address had to be kept in mind first, it is known when the file is written.
    have hnext : ∀ s : Logged Session,
        s.state.disk.has (root.below path) = true ∨ root.below path ∈ s.state.written →
        Wrote root paths s.state ((writeBelow root path result.code >>= fun _ =>
          writeResults root rest) s).2.state := by
      intro s hknown
      have hwrote := writeBelow_wrote hpath result.code s hknown
      rcases hend : writeBelow root path result.code s with ⟨fault | ⟨⟩, t⟩ <;> rw [hend] at hwrote
      · rw [Run.bind_of_error hend]
        exact hwrote
      · rw [Run.bind_of_ok hend]
        exact hwrote.trans (ih hrest t)
    intro s
    have hdisk : Session.disk? s = (.ok s.state.disk, s) := rfl
    rw [writeResults, Run.bind_of_ok hdisk]
    by_cases hhas : s.state.disk.has (root.below path) = true
    · rw [hhas]
      exact hnext s (.inl hhas)
    · rw [Bool.not_eq_true] at hhas
      rw [hhas]
      refine Wrote.trans ?_ (hnext ⟨{ s.state with
        written := s.state.written ++ [root.below path] }, s.log⟩
        (.inr (List.mem_append_right _ List.mem_cons_self)))
      refine ⟨fun _ h => h, fun _ => List.mem_append_left _, fun _ => .inl, fun _ _ => rfl, ?_⟩
      intro p hp
      rcases List.mem_append.1 hp with hold | hnew
      · exact .inl hold
      · exact .inr ⟨path, hpath, List.mem_singleton.1 hnew⟩

/-! ### Removing originals -/

theorem removeIfThere_wrote {path : String} (hpath : path ∈ paths) :
    Moves (Wrote root paths) _ (Session.onDisk (Disk.removeIfThere (root.below path))) := by
  intro s
  rcases hend : Session.onDisk (Disk.removeIfThere (root.below path)) s with ⟨x, s'⟩
  obtain ⟨t, hremove, hstate⟩ := Run.exists_of_onPart hend
  dsimp only
  rw [hstate]
  rcases Disk.removeIfThere_cases hremove with ⟨hsame, -⟩ | ⟨l, bytes, hlocate, hfile, hgone⟩
  · exact .of_grows fun l => .inl (congrFun hsame l)
  · refine Wrote.of_update hpath hlocate (by rw [hfile]; nofun) hgone fun _ => .inl ?_
    rw [Disk.bytesAt?_eq_some.2 hfile]
    rfl

theorem removeRelocated_wrote (results : Table FileResult) (originals : Table String)
    (hpaths : ∀ o ∈ originals, o.1 ∈ paths) :
    Moves (Wrote root paths) _ (removeRelocated root results originals) := by
  induction originals with
  | nil => exact fun s => .refl s.state
  | cons o rest ih =>
    obtain ⟨path, text⟩ := o
    obtain ⟨hpath, hrest⟩ := List.forall_mem_cons.1 hpaths
    rw [removeRelocated]
    split
    · exact wrote_closed.bind (removeIfThere_wrote hpath) fun _ => ih hrest
    · exact ih hrest

/-! ### Restoring -/

section Restoring

variable {root : Address} {s s' : Logged Session}

theorem removeAll_ok {ps : List Address} (h : removeAll ps s = (.ok (), s')) :
    Cleared (fun l => ∃ p ∈ ps, s.state.disk.locate p = .ok l) s.state.disk s'.state.disk := by
  induction ps generalizing s with
  | nil =>
    obtain ⟨-, rfl⟩ := Run.pure_ok.1 h
    refine ⟨fun _ => .rfl, ?_, fun _ _ => rfl⟩
    rintro l ⟨p, hp, -⟩
    cases hp
  | cons p rest ih =>
    rw [removeAll] at h
    obtain ⟨_, t, hremove, hrest⟩ := Run.bind_ok.1 h
    obtain ⟨u, hremove, ht⟩ := Run.exists_of_onPart hremove
    have hfirst := Disk.removeIfThere_ok hremove
    have hrest := ih hrest
    rw [ht] at hrest
    have hboth := hfirst.trans hrest
    refine ⟨hboth.directory_iff, fun l hl => hboth.none_of_gone l ?_,
      fun l hl => hboth.eq_of_not_gone l ?_⟩
    · obtain ⟨q, hq, hlocate⟩ := hl
      rcases List.mem_cons.1 hq with rfl | hq
      · exact .inl hlocate
      · exact .inr ⟨q, hq, (Disk.locate_ok_congr hfirst.directory_iff).1 hlocate⟩
    · rintro (hlocate | ⟨q, hq, hlocate⟩)
      · exact hl ⟨p, List.mem_cons_self, hlocate⟩
      · exact hl ⟨q, List.mem_cons_of_mem _ hq,
          (Disk.locate_ok_congr hfirst.directory_iff).2 hlocate⟩

/-- Once a text was written below a directory, it is found at its path, and everything else is as it
was. -/
theorem writeBelow_ok {path text : String}
    (h : writeBelow root path (some text) s = (.ok (), s')) (l : Location) :
    s'.state.disk.bytesAt? l = if (root.below path).location = l then some (Text.encode text)
      else s.state.disk.bytesAt? l := by
  obtain ⟨d, d', hgrows, hstate, hcases⟩ := writeBelow_cases h
  rw [hstate]
  rcases hcases with ⟨hfail, -⟩ | ⟨m, bytes, hlocate, -, hput, hbytes⟩
  · exact absurd rfl hfail
  · obtain ⟨_, ⟨⟩, rfl⟩ := hbytes rfl
    rw [← Disk.locate_ok hlocate]
    split
    · rename_i heq
      subst heq
      rw [Disk.bytesAt?_eq_some, hput, Function.update_self]
    · rename_i hne
      rw [← hgrows.bytesAt? l]
      exact Disk.bytesAt?_congr (by rw [hput, Function.update_of_ne (Ne.symm hne)])

/-- Once contents were written, what is found at a location is one of those whose path leads there,
or what was found before. -/
theorem writeAll_ok {contents : Table String} (h : writeAll root contents s = (.ok (), s'))
    (l : Location) :
    (∃ x ∈ contents, (root.below x.1).location = l ∧
        s'.state.disk.bytesAt? l = some (Text.encode x.2)) ∨
      (∀ x ∈ contents, (root.below x.1).location ≠ l) ∧
        s'.state.disk.bytesAt? l = s.state.disk.bytesAt? l := by
  induction contents generalizing s with
  | nil =>
    obtain ⟨-, rfl⟩ := Run.pure_ok.1 h
    exact .inr ⟨nofun, rfl⟩
  | cons x rest ih =>
    obtain ⟨path, text⟩ := x
    rw [writeAll] at h
    obtain ⟨_, t, hwrite, hrest⟩ := Run.bind_ok.1 h
    have hfirst := writeBelow_ok hwrite l
    rcases ih hrest with ⟨x, hx, hfound⟩ | ⟨hnone, hsame⟩
    · exact .inl ⟨x, List.mem_cons_of_mem _ hx, hfound⟩
    · by_cases heq : (root.below path).location = l
      · rw [if_pos heq] at hfirst
        exact .inl ⟨_, List.mem_cons_self, heq, hsame.trans hfirst⟩
      · rw [if_neg heq] at hfirst
        exact .inr ⟨List.forall_mem_cons.2 ⟨heq, hnone⟩, hsame.trans hfirst⟩

end Restoring

end WebMigration.Command
