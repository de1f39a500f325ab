import WebMigration.Rules.Validation

/-!
# Suppressed findings

Of all findings with one key only the first is reported.  The checks run in a fixed order, and a key
does not tell how serious a finding is: an import that should have been removed, which is a warning,
comes before a use of a name that a change breaks, which is an error, and may have its key.
-/

namespace WebMigration

namespace Violation

variable {vs ws : List Violation} {v w : Violation}

/-- The first finding with its key. -/
def IsFirst (vs : List Violation) (v : Violation) : Prop :=
  ∃ before after, vs = before ++ v :: after ∧ ∀ w ∈ before, w.key ≠ v.key

theorem IsFirst.mem (h : IsFirst vs v) : v ∈ vs := by
  obtain ⟨before, after, rfl, -⟩ := h
  exact List.mem_append_right _ List.mem_cons_self

theorem isFirst_cons : IsFirst (w :: vs) v ↔ v = w ∨ w.key ≠ v.key ∧ IsFirst vs v := by
  constructor
  · rintro ⟨before, after, hvs, hbefore⟩
    cases before with
    | nil => exact .inl (List.cons.inj hvs).1.symm
    | cons b before =>
      obtain ⟨rfl, rfl⟩ := List.cons.inj hvs
      obtain ⟨hb, hbefore⟩ := List.forall_mem_cons.1 hbefore
      exact .inr ⟨hb, before, after, rfl, hbefore⟩
  · rintro (rfl | ⟨hw, before, after, rfl, hbefore⟩)
    · exact ⟨[], vs, rfl, nofun⟩
    · exact ⟨w :: before, after, rfl, List.forall_mem_cons.2 ⟨hw, hbefore⟩⟩

theorem isFirst_append :
    IsFirst (vs ++ ws) v ↔ IsFirst vs v ∨ (∀ w ∈ vs, w.key ≠ v.key) ∧ IsFirst ws v := by
  induction vs with
  | nil => simp [IsFirst]
  | cons w vs ih =>
    rw [List.cons_append, isFirst_cons, isFirst_cons, ih, List.forall_mem_cons, and_or_left, or_assoc,
      and_assoc]

/-- Every key of a finding has a first finding. -/
theorem exists_isFirst (h : v ∈ vs) : ∃ w, IsFirst vs w ∧ w.key = v.key := by
  induction vs with
  | nil => cases h
  | cons u vs ih =>
    by_cases hkey : u.key = v.key
    · exact ⟨u, isFirst_cons.2 (.inl rfl), hkey⟩
    · rcases List.mem_cons.1 h with rfl | h
      · exact absurd rfl hkey
      · obtain ⟨w, hw, hwkey⟩ := ih h
        exact ⟨w, isFirst_cons.2 (.inr ⟨hwkey ▸ hkey, hw⟩), hwkey⟩

theorem mem_distinctFrom {seen : List (Int × Int × String)} :
    v ∈ distinctFrom seen vs ↔ v.key ∉ seen ∧ IsFirst vs v := by
  induction vs generalizing seen with
  | nil => simp [distinctFrom, IsFirst]
  | cons w vs ih =>
    rw [distinctFrom, isFirst_cons]
    split
    · rename_i hseen
      rw [List.contains_iff_mem] at hseen
      rw [ih]
      constructor
      · rintro ⟨hv, hfirst⟩
        exact ⟨hv, .inr ⟨fun hkey => hv (hkey ▸ hseen), hfirst⟩⟩
      · rintro ⟨hv, rfl | ⟨-, hfirst⟩⟩
        · exact absurd hseen hv
        · exact ⟨hv, hfirst⟩
    · rename_i hseen
      rw [List.contains_iff_mem] at hseen
      rw [List.mem_cons, ih, List.mem_cons, not_or, ne_comm]
      constructor
      · rintro (rfl | ⟨⟨hne, hv⟩, hfirst⟩)
        · exact ⟨hseen, .inl rfl⟩
        · exact ⟨hv, .inr ⟨hne, hfirst⟩⟩
      · rintro ⟨hv, rfl | ⟨hne, hfirst⟩⟩
        · exact .inl rfl
        · exact .inr ⟨⟨hne, hv⟩, hfirst⟩

/-- The findings that are reported are the first ones of their keys. -/
theorem mem_distinct : v ∈ distinct vs ↔ IsFirst vs v := by
  rw [distinct, mem_distinctFrom]
  exact and_iff_right List.not_mem_nil

theorem nodup_distinctFrom (seen : List (Int × Int × String)) (vs : List Violation) :
    ((distinctFrom seen vs).map key).Nodup := by
  induction vs generalizing seen with
  | nil => exact List.nodup_nil
  | cons w vs ih =>
    rw [distinctFrom]
    split
    · exact ih seen
    · rw [List.map_cons, List.nodup_cons]
      refine ⟨fun hmem => ?_, ih _⟩
      obtain ⟨v, hv, hkey⟩ := List.mem_map.1 hmem
      exact (mem_distinctFrom.1 hv).1 (hkey ▸ List.mem_cons_self)

/-- No two findings with one key are reported. -/
theorem nodup_distinct (vs : List Violation) : ((distinct vs).map key).Nodup :=
  nodup_distinctFrom [] vs

end Violation

namespace RuleSet

open WebMigration.Module (Source)
open Violation (IsFirst)

section Checks

variable {s : Source} {rules : MigrationRules} {profile : FrameworkProfile} {code path : String}
  {uses : List (String × Place)} {f w : Violation}

/-! ### The checks -/

theorem error_of_mem_transformation (h : f ∈ transformation s rules profile path) :
    f.isError = true ∧ ∃ name, f.id = "untransformed-" ++ name := by
  rcases List.mem_append.1 h with h | h
  · split at h
    · obtain ⟨r, -, rfl⟩ := List.mem_map.1 h
      exact ⟨rfl, "import-" ++ r.source, by rw [← String.append_assoc]; rfl⟩
    · cases h
  · split at h
    · obtain ⟨n, -, hf⟩ := List.mem_filterMap.1 h
      dsimp only at hf
      split at hf
      · obtain rfl := Option.some.inj hf
        exact ⟨rfl, "routing-" ++ Rewrite.tagName s n, by rw [← String.append_assoc]; rfl⟩
      · cases hf
    · cases h

theorem isError_of_mem_transformation (h : f ∈ transformation s rules profile path) :
    f.isError = true :=
  (error_of_mem_transformation h).1

theorem not_isError_of_mem_removal (h : f ∈ removal s rules path) : f.isError = false := by
  obtain ⟨r, -, rfl⟩ := List.mem_map.1 h
  rfl

theorem isError_of_mem_breakages {changes : List BreakingChange}
    (h : f ∈ breakages code path uses changes) : f.isError = true := by
  obtain ⟨c, -, h⟩ := List.mem_flatMap.1 h
  obtain ⟨name, -, h⟩ := List.mem_flatMap.1 h
  obtain ⟨p, -, rfl⟩ := List.mem_map.1 h
  rfl

theorem not_isError_of_mem_deprecatedUses {deprecations : List Deprecation}
    (h : f ∈ deprecatedUses code path uses deprecations) : f.isError = false := by
  obtain ⟨d, -, h⟩ := List.mem_flatMap.1 h
  obtain ⟨p, -, rfl⟩ := List.mem_map.1 h
  rfl

theorem id_of_mem_removal (h : f ∈ removal s rules path) : ∃ name, f.id = "should-remove-" ++ name := by
  obtain ⟨r, -, rfl⟩ := List.mem_map.1 h
  exact ⟨r.source, rfl⟩

/-- What should have been transformed and what should have been removed have different keys. -/
theorem key_ne_of_transformation_removal (hf : f ∈ transformation s rules profile path)
    (hw : w ∈ removal s rules path) : f.key ≠ w.key := by
  intro hkey
  obtain ⟨-, a, ha⟩ := error_of_mem_transformation hf
  obtain ⟨b, hb⟩ := id_of_mem_removal hw
  have hid : f.id = w.id := congrArg (·.2.2) hkey
  rw [ha, hb] at hid
  have hhead := congrArg (·.toList.head?) hid
  simp [String.toList_append] at hhead

end Checks

variable (r : RuleSet) (s : Source) (code path : String)

/-- What the breaking changes of a rule set find. -/
def broken : List Violation := breakages code path (Usage.inTree s) r.rules.breakingChanges

/-- What the deprecations of a rule set find. -/
def deprecated : List Violation := deprecatedUses code path (Usage.inTree s) r.rules.deprecations

/-- The four checks come one after the other. -/
theorem findings_eq : r.findings s code path =
    transformation s r.rules r.profile path ++ (removal s r.rules path ++
      (r.broken s code path ++ r.deprecated s code path)) := by
  unfold findings broken deprecated
  dsimp only
  split
  · rename_i hnone
    rw [Bool.and_eq_true, List.isEmpty_iff, List.isEmpty_iff] at hnone
    rw [hnone.1, hnone.2]
    simp [breakages, deprecatedUses]
  · simp only [List.append_assoc]

variable {r s code path} {f : Violation}

theorem isFirst_findings : IsFirst (r.findings s code path) f ↔
    IsFirst (transformation s r.rules r.profile path) f ∨
    (∀ w ∈ transformation s r.rules r.profile path, w.key ≠ f.key) ∧
      (IsFirst (removal s r.rules path) f ∨ (∀ w ∈ removal s r.rules path, w.key ≠ f.key) ∧
        (IsFirst (r.broken s code path) f ∨
          (∀ w ∈ r.broken s code path, w.key ≠ f.key) ∧ IsFirst (r.deprecated s code path) f)) := by
  rw [findings_eq, Violation.isFirst_append, Violation.isFirst_append, Violation.isFirst_append]

/-- An error that is the first of its key is found by the first or by the third check. -/
theorem exists_error_iff :
    (∃ v, IsFirst (r.findings s code path) v ∧ v.isError = true) ↔
      transformation s r.rules r.profile path ≠ [] ∨
      ∃ f ∈ r.broken s code path, ∀ w ∈ removal s r.rules path, w.key ≠ f.key := by
  constructor
  · rintro ⟨v, hfirst, herror⟩
    rcases isFirst_findings.1 hfirst with h | ⟨-, h | ⟨hremoval, h | ⟨-, h⟩⟩⟩
    · exact .inl (List.ne_nil_of_mem h.mem)
    · simp [not_isError_of_mem_removal h.mem] at herror
    · exact .inr ⟨v, h.mem, hremoval⟩
    · simp [not_isError_of_mem_deprecatedUses h.mem] at herror
  · rintro (h | ⟨f, hf, hremoval⟩)
    · obtain ⟨t, ht⟩ := List.exists_mem_of_ne_nil _ h
      obtain ⟨v, hv, -⟩ := Violation.exists_isFirst ht
      exact ⟨v, isFirst_findings.2 (.inl hv), isError_of_mem_transformation hv.mem⟩
    · have hmem : f ∈ r.findings s code path := by
        rw [findings_eq]
        simp [hf]
      obtain ⟨v, hv, hkey⟩ := Violation.exists_isFirst hmem
      refine ⟨v, hv, ?_⟩
      rcases isFirst_findings.1 hv with h | ⟨-, h | ⟨-, h | ⟨hbroken, -⟩⟩⟩
      · exact isError_of_mem_transformation h.mem
      · exact absurd hkey (hremoval v h.mem)
      · exact isError_of_mem_breakages h.mem
      · exact absurd hkey.symm (hbroken f hf)

/-- An error whose key a warning has first is found by the third check, and the warning by the second. -/
theorem exists_warning_iff (hf : f ∈ r.findings s code path) (herror : f.isError = true) :
    (∃ w, IsFirst (r.findings s code path) w ∧ w.key = f.key ∧ w.isError = false) ↔
      f ∈ r.broken s code path ∧ ∃ w ∈ removal s r.rules path, w.key = f.key := by
  constructor
  · rintro ⟨w, hfirst, hkey, hwarning⟩
    have hside : w ∈ removal s r.rules path ∨ ∀ u ∈ r.broken s code path, u.key ≠ w.key := by
      rcases isFirst_findings.1 hfirst with h | ⟨-, h | ⟨-, h | ⟨hbroken, -⟩⟩⟩
      · simp [isError_of_mem_transformation h.mem] at hwarning
      · exact .inl h.mem
      · simp [isError_of_mem_breakages h.mem] at hwarning
      · exact .inr hbroken
    have htransformation : f ∉ transformation s r.rules r.profile path := by
      intro hmem
      rcases isFirst_findings.1 hfirst with h | ⟨hne, -⟩
      · simp [isError_of_mem_transformation h.mem] at hwarning
      · exact hne f hmem hkey.symm
    have hbroken : f ∈ r.broken s code path := by
      rw [findings_eq, List.mem_append, List.mem_append, List.mem_append] at hf
      rcases hf with h | h | h | h
      · exact absurd h htransformation
      · simp [not_isError_of_mem_removal h] at herror
      · exact h
      · simp [not_isError_of_mem_deprecatedUses h] at herror
    exact ⟨hbroken, w, hside.resolve_right fun hne => hne f hbroken hkey.symm, hkey⟩
  · rintro ⟨-, u, hu, hkey⟩
    obtain ⟨w, hw, hwkey⟩ := Violation.exists_isFirst hu
    refine ⟨w, isFirst_findings.2 (.inr ⟨fun t ht => ?_, .inl hw⟩), hwkey.trans hkey,
      not_isError_of_mem_removal hw.mem⟩
    exact key_ne_of_transformation_removal ht hw.mem

/-! ### The verdict -/

theorem judge_of_error (h : s.hasError = true) :
    r.judge s code path = ⟨false, [syntaxFinding s.firstError path], []⟩ :=
  if_pos h

theorem judge_of_parsed (h : s.hasError = false) : r.judge s code path =
    ⟨!(Violation.distinct (r.findings s code path)).any (·.isError),
      Violation.distinct (r.findings s code path), preservation s r.rules⟩ :=
  if_neg (h ▸ Bool.false_ne_true)

/-- **What a verdict reports and what it suppresses.**  The findings that are reported have different
keys: in a file that parses they are the first findings of their keys, in the order of the checks.  A
file is invalid exactly if it does not parse, if something should have been transformed, or if a
breaking change finds a use at whose key nothing is found that should have been removed.  So the errors
that are suppressed in favour of a warning are those of breaking changes at whose key something should
have been removed, and no others. -/
theorem validate_suppresses [Module.Salvage] (r : RuleSet) (code path : String) :
    let s := Source.parse code path r.language
    let verdict := r.validate code path
    (verdict.violations.map (·.key)).Nodup ∧
    (verdict.valid = false ↔ s.hasError = true ∨
      transformation s r.rules r.profile path ≠ [] ∨
      ∃ f ∈ r.broken s code path, ∀ w ∈ removal s r.rules path, w.key ≠ f.key) ∧
    (s.hasError = false →
      (∀ v, v ∈ verdict.violations ↔ IsFirst (r.findings s code path) v) ∧
      ∀ f ∈ r.findings s code path, f.isError = true →
        ((∃ w ∈ verdict.violations, w.key = f.key ∧ w.isError = false) ↔
          f ∈ r.broken s code path ∧ ∃ w ∈ removal s r.rules path, w.key = f.key)) := by
  unfold validate
  generalize Source.parse code path r.language = s
  dsimp only
  cases herror : s.hasError with
  | true =>
    rw [judge_of_error herror]
    exact ⟨List.pairwise_singleton _ _, by simp, nofun⟩
  | false =>
    rw [judge_of_parsed herror]
    dsimp only
    refine ⟨Violation.nodup_distinct _, ?_, fun _ => ⟨fun v => Violation.mem_distinct, ?_⟩⟩
    · rw [or_iff_right Bool.false_ne_true, ← exists_error_iff]
      simp only [Bool.not_eq_false', List.any_eq_true, Violation.mem_distinct]
    · intro f hf hferror
      simp only [Violation.mem_distinct]
      exact exists_warning_iff hf hferror

section

attribute [local instance] Module.Salvage.stopping

/-- Rules against an import, and against the word that imports it. -/
def rulesOnRequire : RuleSet where
  rules :=
    { mustRemove := ["Remove redux"]
      breakingChanges := [{ id := "should-remove-redux", affectedApis := ["require"] }] }

/-- A file that imports a module and calls nothing else. -/
def requireText : String := "require(\"redux\");\n"

/-- The breaking change is found where the module is imported, and it has the same key. -/
theorem validate_suppresses_require :
    (Source.parse requireText "a.js" none).hasError = false ∧
    ∃ f ∈ rulesOnRequire.broken (Source.parse requireText "a.js" none) requireText "a.js",
      f.isError = true ∧
      ∃ w ∈ (rulesOnRequire.validate requireText "a.js").violations,
        w.key = f.key ∧ w.isError = false := by
  have hparses : (Source.parse requireText "a.js" none).hasError = false := by decide +kernel
  have hfound : ∃ f ∈ rulesOnRequire.broken (Source.parse requireText "a.js" none) requireText "a.js",
      f ∈ rulesOnRequire.findings (Source.parse requireText "a.js" none) requireText "a.js" ∧
      f.isError = true ∧
      ∃ w ∈ removal (Source.parse requireText "a.js" none) rulesOnRequire.rules "a.js",
        w.key = f.key := by
    decide +kernel
  obtain ⟨f, hbroken, hf, herror, hremoval⟩ := hfound
  have hhidden := ((validate_suppresses rulesOnRequire requireText "a.js").2.2 hparses).2 f hf herror
  exact ⟨hparses, f, hbroken, herror, hhidden.2 ⟨hbroken, hremoval⟩⟩

/-- The file is valid although an error is found in it, in whose place a warning is reported. -/
theorem error_hidden_by_warning :
    (Source.parse requireText "a.js" none).hasError = false ∧
    (rulesOnRequire.validate requireText "a.js").valid = true ∧
    ∃ f ∈ rulesOnRequire.findings (Source.parse requireText "a.js" none) requireText "a.js",
      f.isError = true ∧ f ∉ (rulesOnRequire.validate requireText "a.js").violations ∧
      ∃ w ∈ (rulesOnRequire.validate requireText "a.js").violations,
        w.key = f.key ∧ w.isError = false := by
  decide +kernel

end

end RuleSet

end WebMigration
