import WebMigration.Backup.Input
import WebMigration.Proofs.Backup.Calls
import Mathlib.Data.List.Induction

/-!
# A store over time

Calls on a store come in any order and at any times of the clock, which may go back, and some of them
fail.  The store stays in order all the same, and the contents that a job gets back are those that
were given when its snapshot was taken.
-/

namespace WebMigration.Backup

open Run (Ends)

/-! ### Histories -/

/-- A call that changes a store or reads contents from it. -/
inductive Call
  | create (jobId : String) (time : Int) (input : FileInput) (metadata : List (String × Json))
  | restore (jobId : String)
  | restoreFile (jobId path : String)
  | cleanup (jobId : String)
  | clear

namespace Call

/-- Makes a call, whatever it answers. -/
def perform : Call → Run Store Unit
  | create jobId time input metadata => do
      let files ← Run.ofExcept input.contents
      (fun _ => ()) <$> Backup.create jobId time files metadata
  | restore jobId => (fun _ => ()) <$> Backup.restore jobId
  | restoreFile jobId path => (fun _ => ()) <$> Backup.restoreFile jobId path
  | cleanup jobId => Backup.cleanup jobId
  | clear => Backup.clear

/-- The store that a call leaves. -/
def effect : Call → Store → Store
  | create jobId time input metadata, s =>
      match input.contents with
      | .ok files => if s.has jobId then s else (s.enlarged jobId time files metadata).evict
      | .error _ => s
  | restore _, s => s
  | restoreFile _ _, s => s
  | cleanup jobId, s => s.remove jobId
  | clear, s => { s with snapshots := [] }

/-- A call leaves its effect, whether it answers or fails. -/
theorem perform_state (c : Call) (s : Logged Store) :
    (c.perform s).2.state = c.effect s.state := by
  suffices h : ∃ x, Ends c.perform s x (c.effect s.state) from h.elim fun _ hends => hends.2
  cases c with
  | create jobId time input metadata =>
    have hread := Ends.ofExcept (s := s) input.contents
    rcases hcontents : input.contents with fault | files <;> rw [hcontents] at hread <;>
      simp only [perform, effect, hcontents]
    · exact ⟨_, hread.bind_error⟩
    · by_cases hhas : s.state.has jobId = true
      · rw [if_pos hhas]
        exact ⟨_, hread.bind fun log => (create_duplicate (s := ⟨_, log⟩) hhas).map⟩
      · rw [if_neg hhas]
        exact ⟨_, hread.bind fun log =>
          (create_new (s := ⟨_, log⟩) (Bool.eq_false_iff.2 hhas)).map⟩
  | restore jobId => exact ⟨_, restore_ends.map⟩
  | restoreFile jobId path => exact ⟨_, restoreFile_ends.map⟩
  | cleanup jobId => exact ⟨_, cleanup_ends⟩
  | clear => exact ⟨_, clear_ends⟩

end Call

/-- The store after some calls; one that fails is followed by the next one all the same. -/
def after (calls : List Call) (s : Logged Store) : Logged Store :=
  calls.foldl (fun s c => (c.perform s).2) s

theorem after_append (calls more : List Call) (s : Logged Store) :
    after (calls ++ more) s = after more (after calls s) := List.foldl_append

theorem after_concat_state (calls : List Call) (c : Call) (s : Logged Store) :
    (after (calls ++ [c]) s).state = c.effect (after calls s).state := by
  rw [after_append]
  exact c.perform_state _

/-! ### What holds at any time -/

/-- Names and numbers tell the snapshots of a store apart, and the next number is a new one. -/
structure Store.Labelled (s : Store) : Prop where
  named : (s.snapshots.map (·.jobId)).Nodup
  numbered : s.Numbered
  counted : ∀ x ∈ s.snapshots, x.sequence ≤ s.created

/-- A store whose snapshots are told apart and that holds no more than it may. -/
structure Store.Sound (s : Store) : Prop extends s.Labelled where
  bounded : s.snapshots.length ≤ s.capacity

namespace Store

variable {s t : Store} {jobId : String}

theorem Labelled.eq_of_jobId (h : s.Labelled) {x y : Snapshot} (hx : x ∈ s.snapshots)
    (hy : y ∈ s.snapshots) (hxy : x.jobId = y.jobId) : x = y :=
  List.inj_on_of_nodup_map h.named hx hy hxy

theorem Labelled.find?_of_mem (h : s.Labelled) {x : Snapshot} (hx : x ∈ s.snapshots) :
    s.find? x.jobId = some x := by
  have hsome := has_of_mem hx
  rw [has_eq_isSome, Option.isSome_iff_exists] at hsome
  obtain ⟨y, hy⟩ := hsome
  rw [hy, h.eq_of_jobId (mem_of_find? hy) hx (jobId_of_find? hy)]

/-- Without some of its snapshots a store is still labelled. -/
theorem Labelled.sublist (h : s.Labelled) (hsub : t.snapshots.Sublist s.snapshots)
    (hcreated : t.created = s.created) : t.Labelled where
  named := h.named.sublist (hsub.map _)
  numbered := List.Nodup.sublist (hsub.map _) h.numbered
  counted x hx := hcreated ▸ h.counted x (hsub.subset hx)

theorem Sound.remove (h : s.Sound) (jobId : String) : (s.remove jobId).Sound where
  toLabelled := h.toLabelled.sublist List.filter_sublist rfl
  bounded := Nat.le_trans (List.length_filter_le _ _) h.bounded

theorem Sound.clear (h : s.Sound) : Sound { s with snapshots := [] } where
  toLabelled := h.toLabelled.sublist (List.nil_sublist _) rfl
  bounded := Nat.zero_le _

section Enlarged

variable (hnew : s.has jobId = false) (time : Int) (files : Contents)
  (metadata : List (String × Json))

include hnew

/-- The next snapshot has a new name and a new number. -/
theorem Labelled.enlarged (h : s.Labelled) :
    (s.enlarged jobId time files metadata).Labelled where
  named := by
    rw [enlarged_snapshots, List.map_append, List.nodup_append]
    refine ⟨h.named, List.nodup_singleton _, ?_⟩
    rintro _ hname _ hlast rfl
    obtain ⟨x, hx, hxname⟩ := List.mem_map.1 hname
    exact jobId_ne_of_mem hnew hx (hxname.trans (List.mem_singleton.1 hlast))
  numbered := by
    unfold Numbered
    rw [enlarged_snapshots, List.map_append, List.nodup_append]
    refine ⟨h.numbered, List.nodup_singleton _, ?_⟩
    rintro _ hnumber _ hlast rfl
    obtain ⟨x, hx, hxnumber⟩ := List.mem_map.1 hnumber
    have hle := h.counted x hx
    have hlast : x.sequence = s.created + 1 := hxnumber.trans (List.mem_singleton.1 hlast)
    omega
  counted x hx := by
    rw [enlarged_snapshots, List.mem_append, List.mem_singleton] at hx
    rcases hx with hx | rfl
    · exact Nat.le_succ_of_le (h.counted x hx)
    · exact Nat.le_refl _

/-- There is room for the next snapshot, or the oldest one goes, be it the new one itself. -/
theorem Sound.evict_enlarged (h : s.Sound) :
    s.snapshots.length < s.capacity ∧
      (s.enlarged jobId time files metadata).evict = s.enlarged jobId time files metadata ∨
    s.snapshots.length = s.capacity ∧
      ∃ x, IsOldest x (s.enlarged jobId time files metadata).snapshots ∧
        (s.enlarged jobId time files metadata).evict =
          (s.enlarged jobId time files metadata).remove x.jobId := by
  have hlength : (s.enlarged jobId time files metadata).snapshots.length =
      s.snapshots.length + 1 := by
    rw [enlarged_snapshots, List.length_append, List.length_singleton]
  rcases Nat.lt_or_eq_of_le h.bounded with hroom | hfull
  · exact .inl ⟨hroom, evict_of_le (hlength ▸ hroom)⟩
  · have hlabelled := h.toLabelled.enlarged hnew time files metadata
    refine .inr ⟨hfull, evict_of_full hlabelled.numbered ?_⟩
    rw [hlength, hfull]
    rfl

theorem Sound.create (h : s.Sound) :
    (s.enlarged jobId time files metadata).evict.Sound := by
  have hlabelled := h.toLabelled.enlarged hnew time files metadata
  rcases h.evict_enlarged hnew time files metadata with
    ⟨hroom, hevict⟩ | ⟨hfull, x, ⟨hx, -⟩, hevict⟩ <;> rw [hevict]
  · refine ⟨hlabelled, ?_⟩
    rw [enlarged_snapshots, List.length_append, List.length_singleton]
    exact hroom
  · refine ⟨hlabelled.sublist List.filter_sublist rfl, ?_⟩
    have hfewer : ((s.enlarged jobId time files metadata).remove x.jobId).snapshots.length <
        (s.enlarged jobId time files metadata).snapshots.length :=
      List.length_filter_lt_length_iff_exists.2 ⟨x, hx, by simp⟩
    rw [enlarged_snapshots, List.length_append, List.length_singleton, hfull] at hfewer
    exact Nat.le_of_lt_succ hfewer

end Enlarged

/-- A store before the first call. -/
theorem sound_empty (capacity : Nat) : Sound { capacity } where
  named := List.nodup_nil
  numbered := List.nodup_nil
  counted _ hx := by cases hx
  bounded := Nat.zero_le _

end Store

/-- No call, whether it answers or fails, brings a store out of order. -/
theorem Call.effect_sound (c : Call) {s : Store} (h : s.Sound) : (c.effect s).Sound := by
  cases c with
  | create jobId time input metadata =>
    rcases hcontents : input.contents with fault | files <;> simp only [effect, hcontents]
    · exact h
    · split_ifs with hhas
      · exact h
      · exact h.create (Bool.eq_false_iff.2 hhas) time files metadata
  | restore jobId => exact h
  | restoreFile jobId path => exact h
  | cleanup jobId => exact h.remove jobId
  | clear => exact h.clear

theorem Call.effect_capacity (c : Call) {s : Store} (h : s.Sound) :
    (c.effect s).capacity = s.capacity := by
  cases c with
  | create jobId time input metadata =>
    rcases hcontents : input.contents with fault | files <;> simp only [effect, hcontents]
    split_ifs with hhas
    · rfl
    · rcases h.evict_enlarged (Bool.eq_false_iff.2 hhas) time files metadata with
        ⟨-, hevict⟩ | ⟨-, x, -, hevict⟩ <;> rw [hevict] <;> rfl
  | restore jobId => rfl
  | restoreFile jobId path => rfl
  | cleanup jobId => rfl
  | clear => rfl

theorem after_sound (calls : List Call) {s : Logged Store} (h : s.state.Sound) :
    (after calls s).state.Sound ∧ (after calls s).state.capacity = s.state.capacity := by
  induction calls generalizing s with
  | nil => exact ⟨h, rfl⟩
  | cons c rest ih =>
    have hstate := c.perform_state s
    obtain ⟨hsound, hcapacity⟩ := ih (hstate ▸ c.effect_sound h)
    exact ⟨hsound, hcapacity.trans (hstate ▸ c.effect_capacity h)⟩

/-! ### Where contents come from -/

/-- Since a call gave a job some contents, in a snapshot that it had not before, the job has always had
a snapshot. -/
def HeldSince (calls : List Call) (s : Logged Store) (jobId : String) (files : Contents) : Prop :=
  ∃ before time input metadata later,
    calls = before ++ .create jobId time input metadata :: later ∧ input.contents = .ok files ∧
    (after before s).state.has jobId = false ∧
    ∀ part, part <+: later →
      (after (before ++ .create jobId time input metadata :: part) s).state.has jobId = true

/-- What is found after a call was there before it, or it is what the call created. -/
theorem Call.find?_effect {c : Call} {s : Store} (h : s.Sound) {jobId : String} {x : Snapshot}
    (hx : (c.effect s).find? jobId = some x) :
    s.find? jobId = some x ∨
      s.has jobId = false ∧ ∃ time input metadata files,
        c = .create jobId time input metadata ∧ input.contents = .ok files ∧ x.files = files := by
  have hmem := Store.mem_of_find? hx
  have hjob := Store.jobId_of_find? hx
  have old : x ∈ s.snapshots → s.find? jobId = some x := fun hold => hjob ▸ h.find?_of_mem hold
  cases c with
  | create other time input metadata =>
    rcases hcontents : input.contents with fault | files <;>
      simp only [effect, hcontents] at hmem
    · exact .inl (old hmem)
    · split_ifs at hmem with hhas
      · exact .inl (old hmem)
      · have hadded := Store.mem_of_mem_evict hmem
        rw [Store.enlarged_snapshots, List.mem_append, List.mem_singleton] at hadded
        rcases hadded with hold | rfl
        · exact .inl (old hold)
        · obtain rfl : other = jobId := hjob
          exact .inr ⟨Bool.eq_false_iff.2 hhas, time, input, metadata, files, rfl, hcontents, rfl⟩
  | restore other => exact .inl hx
  | restoreFile other path => exact .inl hx
  | cleanup other => exact .inl (old (Store.mem_remove.1 hmem).1)
  | clear => cases hmem

section HeldSince

variable {s : Logged Store} (h : s.state.Sound) {jobId : String}

include h

/-- Whatever snapshot a job has, its contents were given when it was created. -/
theorem heldSince_of_find? (hempty : s.state.snapshots = []) {calls : List Call} {x : Snapshot}
    (hx : (after calls s).state.find? jobId = some x) : HeldSince calls s jobId x.files := by
  induction calls using List.reverseRecOn generalizing x with
  | nil =>
    have hmem := Store.mem_of_find? hx
    rw [show (after [] s).state = s.state from rfl, hempty] at hmem
    cases hmem
  | append_singleton calls c ih =>
    have hhas : (after (calls ++ [c]) s).state.has jobId = true := by
      rw [Store.has_eq_isSome, hx]
      rfl
    rw [after_concat_state] at hx
    rcases c.find?_effect (after_sound calls h).1 hx with hbefore |
      ⟨hnew, time, input, metadata, files, rfl, hcontents, rfl⟩
    · obtain ⟨before, time, input, metadata, later, rfl, hcontents, hnew, hheld⟩ := ih hbefore
      refine ⟨before, time, input, metadata, later ++ [c], by simp, hcontents, hnew, ?_⟩
      intro part hpart
      rcases List.prefix_concat_iff.1 hpart with rfl | hpart
      · simpa using hhas
      · exact hheld part hpart
    · refine ⟨calls, time, input, metadata, [], rfl, hcontents, hnew, ?_⟩
      intro part hpart
      rw [List.prefix_nil.1 hpart]
      exact hhas

/-- As long as a job has a snapshot, its contents are those that were given when it was created. -/
theorem find?_of_heldSince {calls : List Call} {files : Contents}
    (hheld : HeldSince calls s jobId files) :
    ∃ x, (after calls s).state.find? jobId = some x ∧ x.files = files := by
  obtain ⟨before, time, input, metadata, later, rfl, hcontents, hnew, hheld⟩ := hheld
  -- The snapshot is there before the last call, so this call does not make another one.
  induction later using List.reverseRecOn with
  | nil =>
    have hhas := hheld [] (List.prefix_refl _)
    rw [Store.has_eq_isSome, Option.isSome_iff_exists] at hhas
    obtain ⟨x, hx⟩ := hhas
    refine ⟨x, hx, ?_⟩
    rw [after_concat_state] at hx
    rcases Call.find?_effect (after_sound before h).1 hx with hbefore |
      ⟨-, time', input', metadata', files', hcall, hcontents', hfiles⟩
    · rw [Store.has_eq_false_iff.1 hnew] at hbefore
      cases hbefore
    · obtain ⟨-, -, rfl, -⟩ := Call.create.inj hcall
      exact hfiles.trans (Except.ok.inj (hcontents'.symm.trans hcontents))
  | append_singleton later c ih =>
    obtain ⟨x, hx, hfiles⟩ := ih fun part hpart => hheld part (hpart.trans (List.prefix_append _ _))
    have hhas := hheld _ (List.prefix_refl _)
    rw [Store.has_eq_isSome, Option.isSome_iff_exists] at hhas
    obtain ⟨y, hy⟩ := hhas
    refine ⟨y, hy, ?_⟩
    rw [show before ++ Call.create jobId time input metadata :: (later ++ [c]) =
        before ++ Call.create jobId time input metadata :: later ++ [c] by simp,
      after_concat_state] at hy
    rcases Call.find?_effect (after_sound _ h).1 hy with hbefore | ⟨habsent, -⟩
    · rw [hx] at hbefore
      rw [← Option.some.inj hbefore]
      exact hfiles
    · rw [Store.has_eq_isSome, hx] at habsent
      cases habsent

end HeldSince

end WebMigration.Backup
