import WebMigration.Proofs.Engine.Keeping

/-!
# Under which paths results are kept

A result reports the new path of its file, and is kept under it unless another result is there; then
it is kept under the path of the file, and still reports the new one.  No other result of a batch is
kept under a path that it does not report.
-/

namespace WebMigration.Engine

variable {σ : Type} {e : Engine σ} {job : Job} {spec : Specification} {changes : List FileChange}
  {results : Results} {r : FileResult}

/-! ### Keys and new paths -/

/-- A result has another path than its file, but there is no such path or it is taken. -/
def Diverted (results : Results) (r : FileResult) : Prop :=
  r.newPath ≠ r.path ∧ (r.newPath = "" ∨ results.has r.newPath = true)

/-- A result that cannot be kept under its new path is kept under the path of its file. -/
theorem keyOf_of_taken (h : r.newPath = "" ∨ results.has r.newPath = true) :
    keyOf results r = r.path := by
  unfold keyOf
  rcases h with h | h
  · simp [h]
  · by_cases hempty : r.newPath.isEmpty = true
    · simp [hempty]
    · simp [hempty, h]

theorem keyOf_of_free (hpath : r.newPath ≠ "") (hfree : results.has r.newPath = false) :
    keyOf results r = r.newPath := by
  have hnonempty : r.newPath.isEmpty = false := by simpa using hpath
  simp [keyOf, hnonempty, hfree]

/-- Exactly the diverted results are kept under a path that they do not report. -/
theorem keyOf_ne_newPath_iff : keyOf results r ≠ r.newPath ↔ Diverted results r := by
  unfold Diverted
  by_cases htaken : r.newPath = "" ∨ results.has r.newPath = true
  · rw [keyOf_of_taken htaken, and_iff_left htaken, ne_comm]
  · refine iff_of_false (fun hne => hne ?_) fun h => htaken h.2
    rw [not_or, Bool.not_eq_true] at htaken
    exact keyOf_of_free htaken.1 htaken.2

theorem Diverted.keyOf_eq (h : Diverted results r) : keyOf results r = r.path := keyOf_of_taken h.2

/-- What is kept was there before, or is one of the results, at its key among those before it. -/
theorem mem_foldl_keep {outcomes : List FileResult} {results : Results} {x : String × FileResult}
    (h : x ∈ outcomes.foldl keep results) :
    x ∈ results ∨ ∃ before after, outcomes = before ++ x.2 :: after ∧
      x.1 = keyOf (before.foldl keep results) x.2 := by
  induction outcomes generalizing results with
  | nil => exact .inl h
  | cons r rest ih =>
    rcases ih h with hkept | ⟨before, after, rfl, hkey⟩
    · rcases Table.mem_put hkept with rfl | hmem
      · exact .inr ⟨[], rest, rfl, rfl⟩
      · exact .inl hmem
    · exact .inr ⟨r :: before, after, rfl, hkey⟩

/-! ### The first letters of notes -/

theorem initial_unreadable (path : String) (fault : Fault) :
    initial (unreadable spec path fault) = some 'B' := by
  simp [initial, unreadable, FileResult.failed]

theorem initial_givenUp (path : String) (original : Option String) (fault : Fault) :
    initial (givenUp job path original fault) = some 'T' := by
  simp [initial, givenUp, FileResult.failed]

/-- The notes on a file that was transformed are not those on one that could not be read. -/
theorem Produces.initial_ne {f : String × Option String} (h : Produces e job changes f r) :
    initial r ≠ some 'B' := by
  obtain ⟨t, u, hrun⟩ := h
  cases course_of_transformFor hrun with
  | unreadable => simp [initial_givenUp]
  | failed => simp [initial_givenUp]
  | concluded _ ht =>
    obtain ⟨w, o, c, -, -, -, rfl⟩ := transformContent_result ht
    simp [initial_notes]

/-! ### The results of a batch -/

namespace BatchTrace

variable {records : List FileRecord} {jobId : Option String} {s : Logged σ}
  (b : BatchTrace e records spec jobId s) {before after : List FileResult}

theorem nodup_keptAfter (outcomes : List FileResult) :
    ((b.keptAfter outcomes).map (·.1)).Nodup := by
  have hunread : (b.unread.map (·.1)).Nodup := by
    have hnil : (([] : Results).map (·.1)).Nodup := List.nodup_nil
    refine List.foldlRecOn (motive := fun t : Results => (t.map (·.1)).Nodup) _ _ hnil
      fun t ht a _ => ?_
    unfold addUnreadable
    split
    · exact ht
    · exact Table.nodup_put ht _ _
  exact List.foldlRecOn (motive := fun t : Results => (t.map (·.1)).Nodup) _ _ hunread
    fun t ht r _ => Table.nodup_put ht _ _

/-- No path has two results. -/
theorem nodup_results : (b.results.map (·.1)).Nodup :=
  withGenerated_induction (T := fun t : Results => (t.map (·.1)).Nodup)
    (fun _ _ _ _ _ _ _ _ _ ht => Table.nodup_put ht _ _) (b.nodup_keptAfter _)

theorem mem_results_iff {key : String} :
    (key, r) ∈ b.results ↔ b.results.get? key = some r :=
  ⟨Table.get?_of_mem b.nodup_results, Table.mem_of_get?⟩

/-- A result of a transformed file is at the end where it was kept, if nothing replaced it. -/
theorem mem_results_outcome (ho : b.outcomes = before ++ r :: after) {key : String} :
    (key, r) ∈ b.results ↔ key = keyOf (b.keptAfter before) r ∧ b.Undisturbed before r after := by
  obtain ⟨f, -, hproduces⟩ := exists_of_mem_right b.produced (ho ▸ List.mem_append_cons_self)
  obtain ⟨hbefore, hafter⟩ := b.outcome_ne ho
  have hunread : ∀ k, b.unread.get? k ≠ some r := by
    intro k hget
    obtain ⟨a, -, fault, -, hx⟩ := b.exists_of_mem_unread (Table.mem_of_get? hget)
    obtain ⟨-, rfl⟩ := Prod.mk.inj hx
    exact hproduces.initial_ne (initial_unreadable a.1.path fault)
  obtain ⟨t, u, hrun⟩ := hproduces
  rw [mem_results_iff]
  exact b.get?_results ho (course_of_transformFor hrun).ofFile
    (fun k => get?_foldl_keep_ne (hunread k) hbefore) hafter

/-- An entry whose path is not the new path of the result is that of a transformed file. -/
theorem outcome_of_key_ne {key : String} (h : (key, r) ∈ b.results) (hne : key ≠ r.newPath) :
    ∃ before after, b.outcomes = before ++ r :: after ∧ key = keyOf (b.keptAfter before) r := by
  have hkept : (key, r) ∈ b.keptAfter b.outcomes := by
    have horigin : ∀ x ∈ b.results, x ∈ b.keptAfter b.outcomes ∨ x.1 = x.2.newPath := by
      refine withGenerated_induction
        (T := fun t : Results => ∀ x ∈ t, x ∈ b.keptAfter b.outcomes ∨ x.1 = x.2.newPath)
        (fun t path code original role language notes added change ht x hx => ?_)
        fun x hx => .inl hx
      rcases Table.mem_put hx with rfl | hx
      · exact .inr rfl
      · exact ht x hx
    exact (horigin _ h).resolve_right hne
  refine (mem_foldl_keep hkept).resolve_left fun hunread => hne ?_
  obtain ⟨a, -, fault, -, hx⟩ := b.exists_of_mem_unread hunread
  obtain ⟨rfl, rfl⟩ := Prod.mk.inj hx
  rfl

/-- A result is kept under the path of its file and reports another: it was diverted when the file was
transformed, and nothing replaced it. -/
structure Misreports (key : String) (r : FileResult) : Prop where
  key_eq : key = r.path
  diverted : ∃ before after, b.outcomes = before ++ r :: after ∧
    Diverted (b.keptAfter before) r ∧ b.Undisturbed before r after

/-- Exactly the misreporting entries have a path that is not the new path of the result. -/
theorem misreports_iff {key : String} :
    (key, r) ∈ b.results ∧ key ≠ r.newPath ↔ b.Misreports key r := by
  constructor
  · rintro ⟨hmem, hne⟩
    obtain ⟨before, after, ho, rfl⟩ := b.outcome_of_key_ne hmem hne
    have hdiverted := keyOf_ne_newPath_iff.1 hne
    exact ⟨hdiverted.keyOf_eq, before, after, ho, hdiverted, ((b.mem_results_outcome ho).1 hmem).2⟩
  · rintro ⟨rfl, before, after, ho, hdiverted, hundisturbed⟩
    refine ⟨(b.mem_results_outcome ho).2 ⟨hdiverted.keyOf_eq.symm, hundisturbed⟩, ?_⟩
    exact hdiverted.1.symm

/-- The data on a result has its new path. -/
theorem metadata_newPath {key : String} (h : (key, r) ∈ b.results) :
    r.metadata.newPath = r.newPath := by
  have hall : b.results.All fun r => r.metadata.newPath = r.newPath := by
    refine b.all_results (fun _ _ => rfl) ?_ fun _ _ _ _ _ _ _ _ => rfl
    rintro f r ⟨t, u, hrun⟩
    cases course_of_transformFor hrun with
    | unreadable => rfl
    | failed => rfl
    | concluded _ ht =>
      obtain ⟨w, o, c, -, -, -, rfl⟩ := transformContent_result ht
      rfl
  exact hall _ h

end BatchTrace

/-- **Which results are kept under a path that they do not report.**  In every batch that answers, the
path of an entry is the new path of its result, which its data has too, unless the result misreports:
it was to get another path than its file has, that path was taken, and it is found under the path of
the file. -/
theorem key_ne_newPath_iff {records : List FileRecord} {jobId : Option String} {s s' : Logged σ}
    {batch : BatchResult} (h : e.transformBatch records spec jobId s = (.ok batch, s')) :
    ∃ b : BatchTrace e records spec jobId s, batch = .ofResults b.results ∧
      (∀ key r, (key, r) ∈ batch.results ∧ key ≠ r.newPath ↔ b.Misreports key r) ∧
      ∀ key r, (key, r) ∈ batch.results → r.metadata.newPath = r.newPath := by
  obtain ⟨b, rfl⟩ := transformBatch_ok h
  exact ⟨b, rfl, fun _ _ => b.misreports_iff, fun _ _ => b.metadata_newPath⟩

section

attribute [local instance] Module.Salvage.stopping

/-- Two scripts that are to be moved to one path. -/
def twins : List FileRecord := [⟨"foo-bar.js", some "f()\n"⟩, ⟨"foo_bar.js", some "g()\n"⟩]

/-- The second one is kept under its own path and reports the path of the first; nothing else is kept
under a path that it does not report. -/
theorem transformBatch_twins :
    ∃ batch s', plain.transformBatch twins laneless none ⟨(), []⟩ = (.ok batch, s') ∧
      (∃ r, ("foo_bar.js", r) ∈ batch.results ∧ r.newPath = "FooBar.tsx") ∧
      ∀ x ∈ batch.results, x.1 = "foo_bar.js" ∨ x.1 = x.2.newPath := by
  have kept : ((plain.transformBatch twins laneless none ⟨(), []⟩).1.toOption.any fun batch =>
      batch.results.any (fun x => x.1 == "foo_bar.js" && x.2.newPath == "FooBar.tsx") &&
      batch.results.all fun x => x.1 == "foo_bar.js" || x.1 == x.2.newPath) = true := by
    decide +kernel
  obtain ⟨batch, s', h, hbatch⟩ := Run.ok_of_any kept
  simp only [Bool.and_eq_true, List.any_eq_true, List.all_eq_true, Bool.or_eq_true, beq_iff_eq]
    at hbatch
  obtain ⟨⟨⟨_, r⟩, hmem, rfl, hnew⟩, hothers⟩ := hbatch
  exact ⟨batch, s', h, ⟨r, hmem, hnew⟩, hothers⟩

/-- Of the twins exactly the second one misreports. -/
theorem key_ne_newPath_twins :
    ∃ batch s', plain.transformBatch twins laneless none ⟨(), []⟩ = (.ok batch, s') ∧
      ∃ b : BatchTrace plain twins laneless none ⟨(), []⟩, batch = .ofResults b.results ∧
        (∃ r, b.Misreports "foo_bar.js" r ∧ r.metadata.newPath = "FooBar.tsx") ∧
        ∀ key r, b.Misreports key r → key = "foo_bar.js" := by
  obtain ⟨batch, s', h, ⟨r, hmem, hnew⟩, hothers⟩ := transformBatch_twins
  obtain ⟨b, hb, hmisreports, hdata⟩ := key_ne_newPath_iff h
  have hne : "foo_bar.js" ≠ r.newPath := by
    rw [hnew]
    decide
  refine ⟨batch, s', h, b, hb, ⟨r, (hmisreports _ r).1 ⟨hmem, hne⟩, ?_⟩, fun key r hr => ?_⟩
  · exact (hdata _ r hmem).trans hnew
  · obtain ⟨hentry, hkey⟩ := (hmisreports key r).2 hr
    exact (hothers _ hentry).resolve_right hkey

/-- The result that is kept under `foo_bar.js` does not report that path. -/
theorem twin_misreported :
    ∃ batch s', plain.transformBatch twins laneless none ⟨(), []⟩ = (.ok batch, s') ∧
      ¬ ∀ key r, (key, r) ∈ batch.results → key = r.newPath := by
  obtain ⟨batch, s', h, ⟨r, hmem, hnew⟩, -⟩ := transformBatch_twins
  refine ⟨batch, s', h, fun hall => ?_⟩
  have hkey := hall _ r hmem
  rw [hnew] at hkey
  exact absurd hkey (by decide)

end

end WebMigration.Engine
