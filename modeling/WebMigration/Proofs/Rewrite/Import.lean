import WebMigration.Proofs.Module.Identity
import WebMigration.Proofs.Rewrite.Careful
import WebMigration.Proofs.Rewrite.Simultaneous
import WebMigration.Proofs.Table

/-!
# The imports of a file, rewritten

Renaming modules replaces the names of those modules that the table or an alias renames, and tells of
each of them once; removing repeated imports cuts out those that import what an earlier one imports.
Nothing else changes: the ranges lie apart, so that all of them are edited at once.
-/

namespace WebMigration.Syntax

/-- A range lies inside a text of some length. -/
def Span.Inside (length : Nat) (p : Span) : Prop := p.start ≤ p.stop ∧ p.stop ≤ length

/-- One of two ranges ends before the other starts. -/
def Span.Apart (p q : Span) : Prop := p.stop ≤ q.start ∨ q.stop ≤ p.start

instance (length : Nat) (p : Span) : Decidable (p.Inside length) := inferInstanceAs (Decidable (_ ∧ _))

instance (p q : Span) : Decidable (p.Apart q) := inferInstanceAs (Decidable (_ ∨ _))

theorem Span.Apart.symm {p q : Span} (h : p.Apart q) : q.Apart p := Or.symm h

end WebMigration.Syntax

namespace WebMigration.Rewrite

open Syntax Text
open WebMigration.Module (Salvage Source Reference Binding Content)

variable {s : Source} {text : String}

/-! ### Edits of a file -/

theorem content_list (hs : s.content = Content.ofString text) : s.content.list = encode text := by
  rw [hs]
  rfl

theorem text_eq (hs : s.content = Content.ofString text) : s.text = text := by
  rw [Source.text, hs]
  exact between_all text

theorem encode_injective : Function.Injective encode := by
  intro a b h
  have := decode?_bytesOf a.toList
  rw [← encode_eq, h, encode_eq, decode?_bytesOf] at this
  simpa using this.symm

/-- Edits of a file that do not overlap replace all their ranges at once; without any the file stays
as it is. -/
theorem edited_eq_ok_iff (hs : s.content = Content.ofString text) {edits : List Edit}
    (hedits : ∀ e ∈ edits, e.InRange (encode text).length) (hapart : edits.Pairwise Edit.Apart) :
    ∃ sorted, sorted.Perm edits ∧ (sorted.Pairwise fun a b => a.stop ≤ b.start) ∧
      ∀ new, (if edits.isEmpty then .ok s.text else Edit.apply s.content.list edits) =
        (.ok new : Except Fault String) ↔ encode new = Edit.replaced (encode text) 0 sorted := by
  cases edits with
  | nil =>
    refine ⟨[], .nil, .nil, fun new => ?_⟩
    rw [List.isEmpty_nil, if_pos rfl, text_eq hs, Edit.replaced, List.drop_zero,
      encode_injective.eq_iff]
    exact ⟨fun h => (Except.ok.inj h).symm, fun h => by rw [h]⟩
  | cons e rest =>
    rw [List.isEmpty_cons, if_neg (by decide), content_list hs]
    exact Edit.apply_eq_ok_iff_replaced hedits hapart

/-- Edits of a file at cuts give a text. -/
theorem edited_ok (hs : s.content = Content.ofString text) {edits : List Edit}
    (hfits : ∀ e ∈ edits, e.Fits text.toList) :
    ∃ new, (if edits.isEmpty then .ok s.text else Edit.apply s.content.list edits) =
      (.ok new : Except Fault String) := by
  split
  · exact ⟨s.text, rfl⟩
  · rw [content_list hs]
    exact Edit.apply_ok hfits

/-! ### Renamed modules -/

/-- An entry of a table covers a module whose name is the entry's key, without slashes at its end, and
a rest that starts with a slash. -/
def Covers (key source rest : String) : Prop :=
  stemOf key ≠ "" ∧ source = stemOf key ++ rest ∧ startsWith "/" rest = true

/-- The new name that a table gives to a module: that of its own entry, or else that of the entry with
the longest key that covers it, the first of those, with the rest of the module's name. -/
inductive MapsTo (mappings : Table String) (source : String) : String → Prop
  | exact {target} (h : mappings.get? source = some target) : MapsTo mappings source target
  | covered {before key target rest after} (hno : mappings.get? source = none)
      (hmappings : mappings = before ++ (key, target) :: after) (hcovers : Covers key source rest)
      (hbefore : ∀ e ∈ before, (∃ rest, Covers e.1 source rest) → e.1.length < key.length)
      (hafter : ∀ e ∈ after, (∃ rest, Covers e.1 source rest) → e.1.length ≤ key.length) :
      MapsTo mappings source (withoutTrailingSlashes target ++ rest)

/-- What becomes of the module that a reference names, with the line for the audit trail: the new name
that the table gives to it, or its abbreviation if the table leaves its name as it is. -/
inductive Retargets (mappings aliases : Table String) (filePath : String) (r : Reference) :
    String → String → Prop
  | mapped {target} (h : MapsTo mappings r.source target) (hne : target ≠ r.source)
      (hkind : r.kind ≠ .dynamic) :
      Retargets mappings aliases filePath r target (r.source ++ " -> " ++ target)
  | mappedDynamic {target} (h : MapsTo mappings r.source target) (hne : target ≠ r.source)
      (hkind : r.kind = .dynamic) :
      Retargets mappings aliases filePath r target ("dynamic: " ++ (r.source ++ " -> " ++ target))
  | abbreviated {short} (h : ∀ target, MapsTo mappings r.source target → target = r.source)
      (hshort : pathAlias r.source filePath aliases = some short) :
      Retargets mappings aliases filePath r short (r.source ++ " -> " ++ short ++ " (path alias)")

/-- The references whose modules get new names, each with its name and its line, in order. -/
inductive Renamed (mappings aliases : Table String) (filePath : String) :
    List Reference → List (Reference × String × String) → Prop
  | nil : Renamed mappings aliases filePath [] []
  | same {r rest changes} (h : ∀ target line, ¬ Retargets mappings aliases filePath r target line)
      (hrest : Renamed mappings aliases filePath rest changes) :
      Renamed mappings aliases filePath (r :: rest) changes
  | renamed {r rest changes target line} (h : Retargets mappings aliases filePath r target line)
      (hrest : Renamed mappings aliases filePath rest changes) :
      Renamed mappings aliases filePath (r :: rest) ((r, target, line) :: changes)

theorem covers_iff {source : String} {e : String × String} :
    covers source e = true ↔ ∃ rest, Covers e.1 source rest := by
  unfold covers Covers startsWith
  simp only [Bool.and_eq_true, Bool.not_eq_true', List.isPrefixOf_iff_prefix,
    ← Bool.not_eq_true, String.isEmpty_iff]
  constructor
  · rintro ⟨hne, more, hmore⟩
    refine ⟨String.ofList ('/' :: more), hne, ?_, by simp⟩
    rw [← String.toList_inj, ← hmore]
    simp
  · rintro ⟨rest, hne, rfl, more, hmore⟩
    exact ⟨hne, more, by simp [← hmore]⟩

/-- The rest of a name after the stem of an entry that covers it. -/
theorem drop_of_covers {key source rest : String} (h : Covers key source rest) :
    drop (stemOf key).length source = rest := by
  obtain ⟨-, rfl, -⟩ := h
  rw [drop, String.toList_append, ← String.length_toList, List.drop_left, String.ofList_toList]

/-- An entry of a kind whose key is longer than those of the entries of the kind before it and than
that of `best`, and not shorter than those of the entries after it. -/
def FirstLongest (p : String × String → Bool) (best : Option (String × String))
    (entries : List (String × String)) (e : String × String) : Prop :=
  ∃ before after, entries = before ++ e :: after ∧ p e = true ∧
    (∀ b ∈ best, b.1.length < e.1.length) ∧
    (∀ x ∈ before, p x = true → x.1.length < e.1.length) ∧
    ∀ x ∈ after, p x = true → x.1.length ≤ e.1.length

section FirstLongest

variable {p : String × String → Bool} {best : Option (String × String)}
  {entries rest : List (String × String)} {a e : String × String}

theorem firstLongest_cons : FirstLongest p best (a :: rest) e ↔
    (a = e ∧ p e = true ∧ (∀ b ∈ best, b.1.length < e.1.length) ∧
      ∀ x ∈ rest, p x = true → x.1.length ≤ e.1.length) ∨
    (p a = true → a.1.length < e.1.length) ∧ FirstLongest p best rest e := by
  constructor
  · rintro ⟨_ | ⟨a', before⟩, after, heq, he, hbest, hbefore, hafter⟩
    · obtain ⟨rfl, rfl⟩ := List.cons.inj heq
      exact .inl ⟨rfl, he, hbest, hafter⟩
    · obtain ⟨rfl, rfl⟩ := List.cons.inj heq
      obtain ⟨ha, hbefore⟩ := List.forall_mem_cons.1 hbefore
      exact .inr ⟨ha, before, after, rfl, he, hbest, hbefore, hafter⟩
  · rintro (⟨rfl, he, hbest, hafter⟩ | ⟨ha, before, after, rfl, he, hbest, hbefore, hafter⟩)
    · exact ⟨[], rest, rfl, he, hbest, by simp, hafter⟩
    · exact ⟨a :: before, after, rfl, he, hbest, List.forall_mem_cons.2 ⟨ha, hbefore⟩, hafter⟩

theorem longerKey_eq_some_iff : longerKey best a = some e ↔
    (best = some e ∧ a.1.length ≤ e.1.length) ∨
      (a = e ∧ ∀ b ∈ best, b.1.length < e.1.length) := by
  cases best with
  | none => simp [longerKey]
  | some b =>
    simp only [longerKey, Option.mem_some_iff, Option.some.injEq, forall_eq']
    split <;> grind

theorem forall_longerKey {n : Nat} : (∀ b ∈ longerKey best a, b.1.length < n) ↔
    (∀ b ∈ best, b.1.length < n) ∧ a.1.length < n := by
  cases best with
  | none => simp [longerKey]
  | some b =>
    simp only [longerKey]
    split <;> simp <;> omega

/-- The longest key is found by keeping the longer of two, the earlier of equally long ones. -/
theorem foldl_longerKey : (entries.filter p).foldl longerKey best = some e ↔
    (best = some e ∧ ∀ x ∈ entries, p x = true → x.1.length ≤ e.1.length) ∨
      FirstLongest p best entries e := by
  induction entries generalizing best with
  | nil => simp [FirstLongest]
  | cons a rest ih =>
    rw [firstLongest_cons]
    by_cases ha : p a = true
    · rw [List.filter_cons_of_pos ha, List.foldl_cons, ih, longerKey_eq_some_iff]
      have hrest : FirstLongest p (longerKey best a) rest e ↔
          a.1.length < e.1.length ∧ FirstLongest p best rest e := by
        unfold FirstLongest
        simp only [forall_longerKey]
        grind
      simp only [hrest, List.forall_mem_cons, ha, forall_const]
      grind
    · rw [List.filter_cons_of_neg ha, ih]
      simp only [List.forall_mem_cons, ha]
      grind

end FirstLongest

theorem mapModule_eq_some_iff {mappings : Table String} {source target : String} :
    mapModule source mappings = some target ↔ MapsTo mappings source target := by
  unfold mapModule
  constructor
  · intro h
    split at h
    · rename_i found hfound
      obtain rfl := Option.some.inj h
      exact .exact hfound
    · rename_i hno
      obtain ⟨⟨key, value⟩, hlongest, rfl⟩ := Option.map_eq_some_iff.1 h
      obtain ⟨hnone, -⟩ | ⟨before, after, hmappings, he, -, hbefore, hafter⟩ :=
        foldl_longerKey.1 hlongest
      · cases hnone
      · obtain ⟨rest, hrest⟩ := covers_iff.1 he
        dsimp only at hrest ⊢
        rw [drop_of_covers hrest]
        exact .covered hno hmappings hrest (fun e he hc => hbefore e he (covers_iff.2 hc))
          fun e he hc => hafter e he (covers_iff.2 hc)
  · rintro (h | ⟨hno, rfl, hcovers, hbefore, hafter⟩)
    · rw [h]
    · rename_i before key value rest after
      have hlongest : FirstLongest (covers source) none (before ++ (key, value) :: after)
          (key, value) :=
        ⟨before, after, rfl, covers_iff.2 ⟨rest, hcovers⟩, by simp,
          fun x hx hc => hbefore x hx (covers_iff.1 hc),
          fun x hx hc => hafter x hx (covers_iff.1 hc)⟩
      rw [hno]
      dsimp only
      rw [foldl_longerKey.2 (.inr hlongest), Option.map_some, drop_of_covers hcovers]

theorem retarget_eq_some_iff {mappings aliases : Table String} {filePath : String} {r : Reference}
    {target line : String} : retarget mappings aliases filePath r = some (target, line) ↔
      Retargets mappings aliases filePath r target line := by
  unfold retarget
  dsimp only
  constructor
  · intro h
    split at h
    · rename_i found hfound
      obtain ⟨hmaps, hne⟩ := Option.filter_eq_some_iff.1 hfound
      obtain ⟨rfl, rfl⟩ := Prod.mk.inj (Option.some.inj h)
      have hmaps := mapModule_eq_some_iff.1 hmaps
      have hne : found ≠ r.source := by simpa using hne
      by_cases hkind : r.kind = .dynamic
      · simpa [hkind] using Retargets.mappedDynamic hmaps hne hkind
      · simpa [hkind] using Retargets.mapped hmaps hne hkind
    · rename_i hnone
      obtain ⟨short, hshort, hpair⟩ := Option.map_eq_some_iff.1 h
      obtain ⟨rfl, rfl⟩ := Prod.mk.inj hpair
      refine .abbreviated (fun target htarget => ?_) hshort
      simpa using Option.filter_eq_none_iff.1 hnone target (mapModule_eq_some_iff.2 htarget)
  · have renamed {target : String} (h : MapsTo mappings r.source target) (hne : target ≠ r.source) :
        (mapModule r.source mappings).filter (· != r.source) = some target :=
      Option.filter_eq_some_iff.2 ⟨mapModule_eq_some_iff.2 h, by simpa using hne⟩
    rintro (⟨h, hne, hkind⟩ | ⟨h, hne, hkind⟩ | ⟨h, hshort⟩)
    · simp [renamed h hne, hkind]
    · simp [renamed h hne, hkind]
    · have hnone : (mapModule r.source mappings).filter (· != r.source) = none := by
        refine Option.filter_eq_none_iff.2 fun target htarget => ?_
        simpa using h target (mapModule_eq_some_iff.1 htarget)
      rw [hnone]
      simp [hshort]

theorem Renamed.sublist {mappings aliases : Table String} {filePath : String}
    {references : List Reference} {changes : List (Reference × String × String)}
    (h : Renamed mappings aliases filePath references changes) :
    (changes.map (·.1)).Sublist references := by
  induction h with
  | nil => exact .slnil
  | same _ _ ih => exact ih.cons _
  | renamed _ _ ih => exact ih.cons_cons _

theorem renamings_renamed {mappings aliases : Table String} {filePath : String} :
    Renamed mappings aliases filePath s.references (renamings s mappings aliases filePath) := by
  unfold renamings
  induction s.references with
  | nil => exact .nil
  | cons r rest ih =>
    rw [List.filterMap_cons]
    cases h : retarget mappings aliases filePath r with
    | none =>
      refine .same (fun target line hr => ?_) ih
      rw [← retarget_eq_some_iff, h] at hr
      cases hr
    | some change => exact .renamed (retarget_eq_some_iff.1 h) ih

/-- The edit that gives a module its new name. -/
def namingEdit (change : Reference × String × String) : Edit :=
  Edit.replacing change.1.sourceSpan.start change.1.sourceSpan.stop change.2.1

/-- **Renaming modules touches nothing else.**  If the names of the modules lie apart inside the file,
exactly the names of those modules are replaced that the table maps to another name or else an alias
abbreviates, each by that name, and all other bytes stay; and the context gets exactly one line for each
of them, in order.  At cuts of the file the result is a text again. -/
theorem renameModules_replaces {s : Source} {text : String} (hs : s.content = Content.ofString text)
    (hinside : ∀ r ∈ s.references, r.sourceSpan.Inside (encode text).length)
    (hapart : s.references.Pairwise fun r r' => r.sourceSpan.Apart r'.sourceSpan)
    (mappings aliases : Table String) (context : FileContext) :
    ∃ changes edits, Renamed mappings aliases context.path s.references changes ∧
      edits.Perm (changes.map namingEdit) ∧ (edits.Pairwise fun a b => a.stop ≤ b.start) ∧
      (∀ new, (renameModules s mappings aliases context).1 = .ok new ↔
        encode new = Edit.replaced (encode text) 0 edits) ∧
      ((∀ r ∈ s.references, r.Fits text.toList) →
        ∃ new, (renameModules s mappings aliases context).1 = .ok new) ∧
      (renameModules s mappings aliases context).2 =
        { context with imports := context.imports ++ changes.map (·.2.2) } := by
  have hrenamed : Renamed mappings aliases context.path s.references
      (renamings s mappings aliases context.path) := renamings_renamed
  have hsublist := hrenamed.sublist
  have hranges : ∀ e ∈ (renamings s mappings aliases context.path).map namingEdit,
      e.InRange (encode text).length := by
    intro e he
    obtain ⟨change, hchange, rfl⟩ := List.mem_map.1 he
    obtain ⟨hle, hstop⟩ := hinside change.1 (hsublist.mem (List.mem_map_of_mem hchange))
    exact ⟨Int.natCast_nonneg _, Int.ofNat_le.2 hle, Int.ofNat_le.2 hstop⟩
  have hedits : ((renamings s mappings aliases context.path).map namingEdit).Pairwise Edit.Apart := by
    refine List.pairwise_map.2 ((List.pairwise_map.1 (hapart.sublist hsublist)).imp fun h => ?_)
    exact h.imp Int.ofNat_le.2 Int.ofNat_le.2
  obtain ⟨edits, hperm, hsorted, hnew⟩ := edited_eq_ok_iff hs hranges hedits
  exact ⟨_, edits, hrenamed, hperm, hsorted, hnew, fun hfit => edited_ok hs (renamings_fit hfit),
    renameModules_context⟩

section

attribute [local instance] Salvage.stopping

/-- A text that names modules in all ways. -/
def manyModules : String :=
  "import x from \"lodash/fp\";\nexport * from \"./ui/b\";\nimport(\"vue\");\nrequire(\"fs\");\n"

/-- The new names of some modules. -/
def newModules : Table String := [("lodash/", "es"), ("vue", "nuxt"), ("fs", "fs")]

/-- One module is mapped by a part of its name and another by its name, one is abbreviated, and one
keeps its name. -/
theorem renameModules_replaces_manyModules :
    (∀ r ∈ (Source.parse manyModules "src/a.js" none).references,
      r.sourceSpan.Inside (encode manyModules).length) ∧
    ((Source.parse manyModules "src/a.js" none).references.Pairwise
      fun r r' => r.sourceSpan.Apart r'.sourceSpan) ∧
    (renameModules (Source.parse manyModules "src/a.js" none) newModules [("ui", "@ui")]
      { path := "src/a.js" }).2.imports =
        ["lodash/fp -> es/fp", "./ui/b -> @ui/b (path alias)", "dynamic: vue -> nuxt"] ∧
    ∃ changes edits, Renamed newModules [("ui", "@ui")] "src/a.js"
        (Source.parse manyModules "src/a.js" none).references changes ∧
      edits.Perm (changes.map namingEdit) ∧ (edits.Pairwise fun a b => a.stop ≤ b.start) ∧
      (∀ new, (renameModules (Source.parse manyModules "src/a.js" none) newModules [("ui", "@ui")]
          { path := "src/a.js" }).1 = .ok new ↔
        encode new = Edit.replaced (encode manyModules) 0 edits) ∧
      ((∀ r ∈ (Source.parse manyModules "src/a.js" none).references, r.Fits manyModules.toList) →
        ∃ new, (renameModules (Source.parse manyModules "src/a.js" none) newModules [("ui", "@ui")]
          { path := "src/a.js" }).1 = .ok new) ∧
      (renameModules (Source.parse manyModules "src/a.js" none) newModules [("ui", "@ui")]
          { path := "src/a.js" }).2 =
        { path := "src/a.js", imports := changes.map (·.2.2) } := by
  have hinside : ∀ r ∈ (Source.parse manyModules "src/a.js" none).references,
      r.sourceSpan.Inside (encode manyModules).length := by decide +kernel
  have hapart : (Source.parse manyModules "src/a.js" none).references.Pairwise
      fun r r' => r.sourceSpan.Apart r'.sourceSpan := by decide +kernel
  exact ⟨hinside, hapart, by decide +kernel,
    renameModules_replaces Source.parse_content hinside hapart newModules [("ui", "@ui")]
      { path := "src/a.js" }⟩

end

/-! ### Repeated imports -/

/-- The static imports of a file, in order. -/
def staticImports (s : Source) : List Reference := s.references.filter (·.kind == .static)

/-- Imports, part of them kept and the others removed: an import is removed if it imports what an
earlier one imports. -/
inductive FirstKept : List Reference → List Reference → List Reference → List Reference → Prop
  | nil {earlier} : FirstKept earlier [] [] []
  | first {earlier r rest kept removed} (h : ∀ r' ∈ earlier, ¬ r'.SameImport r)
      (hrest : FirstKept (earlier ++ [r]) rest kept removed) :
      FirstKept earlier (r :: rest) (r :: kept) removed
  | again {earlier r rest kept removed} (h : ∃ r' ∈ earlier, r'.SameImport r)
      (hrest : FirstKept (earlier ++ [r]) rest kept removed) :
      FirstKept earlier (r :: rest) kept (r :: removed)

namespace FirstKept

variable {earlier imports kept removed : List Reference}

/-- Each import is kept or removed. -/
theorem perm (h : FirstKept earlier imports kept removed) : imports.Perm (kept ++ removed) := by
  induction h with
  | nil => exact .nil
  | first _ _ ih => exact ih.cons _
  | again _ _ ih => exact (ih.cons _).trans List.perm_middle.symm

/-- What an import imports is imported by one that is kept. -/
theorem exists_kept (h : FirstKept earlier imports kept removed) :
    ∀ r ∈ imports, ∃ r' ∈ earlier ++ kept, r'.SameImport r := by
  induction h with
  | nil => simp
  | @first earlier r rest kept removed _ _ ih =>
    rw [List.append_assoc, List.singleton_append] at ih
    exact List.forall_mem_cons.2 ⟨⟨r, by simp, .refl r⟩, ih⟩
  | @again earlier r rest kept removed h _ ih =>
    obtain ⟨r', hr', hsame⟩ := h
    refine List.forall_mem_cons.2 ⟨⟨r', List.mem_append_left _ hr', hsame⟩, fun x hx => ?_⟩
    obtain ⟨y, hy, hyx⟩ := ih x hx
    rw [List.append_assoc, List.singleton_append, List.mem_append, List.mem_cons] at hy
    -- An import that stands for `x` is kept; if it is `r`, then `r'` stands for `x` as well.
    rcases hy with hy | rfl | hy
    · exact ⟨y, List.mem_append_left _ hy, hyx⟩
    · exact ⟨r', List.mem_append_left _ hr', hsame.trans hyx⟩
    · exact ⟨y, List.mem_append_right _ hy, hyx⟩

/-- The keys of imports tell which ones repeat an earlier one. -/
theorem of_repeatedFrom {seen : List String}
    (hread : ∀ r ∈ earlier ++ imports, ∀ b ∈ r.bindings, b.AsRead)
    (hseen : ∀ key, key ∈ seen ↔ ∃ r ∈ earlier, r.dedupeKey = key) :
    ∃ kept, FirstKept earlier imports kept (repeatedFrom seen imports) := by
  -- What was seen are the keys of the imports before, also where one was not kept.
  induction imports generalizing earlier seen with
  | nil => exact ⟨[], .nil⟩
  | cons r rest ih =>
    rw [← List.singleton_append, ← List.append_assoc] at hread
    have hrepeats : r.dedupeKey ∈ seen ↔ ∃ r' ∈ earlier, r'.SameImport r := by
      rw [hseen]
      refine exists_congr fun r' => and_congr_right fun hr' => ?_
      exact Reference.dedupeKey_eq_iff (hread r' (by simp [hr'])) (hread r (by simp))
    rw [repeatedFrom]
    by_cases h : r.dedupeKey ∈ seen
    · have hsame := hrepeats.1 h
      have hseen' : ∀ key, key ∈ seen ↔ ∃ r' ∈ earlier ++ [r], r'.dedupeKey = key := by
        intro key
        simp only [List.mem_append, List.mem_singleton, or_and_right, exists_or, exists_eq_left]
        rw [← hseen]
        exact ⟨.inl, fun hkey => hkey.elim id fun hkey => hkey ▸ h⟩
      obtain ⟨kept, hkept⟩ := ih hread hseen'
      exact ⟨kept, by simpa [h] using .again hsame hkept⟩
    · have hfirst : ∀ r' ∈ earlier, ¬ r'.SameImport r := by
        intro r' hr' hsame
        exact h (hrepeats.2 ⟨r', hr', hsame⟩)
      have hseen' : ∀ key, key ∈ seen ++ [r.dedupeKey] ↔
          ∃ r' ∈ earlier ++ [r], r'.dedupeKey = key := by
        intro key
        simp only [List.mem_append, List.mem_singleton, or_and_right, exists_or, exists_eq_left]
        rw [← hseen, eq_comm (a := key)]
      obtain ⟨kept, hkept⟩ := ih hread hseen'
      exact ⟨r :: kept, by simpa [h] using .first hfirst hkept⟩

end FirstKept

/-- The edit that removes an import, with a line feed right after it. -/
def removal (bytes : List UInt8) (r : Reference) : Edit :=
  Edit.replacing r.span.start
    (if bytes[r.span.stop]? = some 10 then r.span.stop + 1 else r.span.stop) ""

theorem slice_succ_eq {bytes : List UInt8} {k : Nat} {b : UInt8} :
    slice bytes k (k + 1) = [b] ↔ bytes[k]? = some b := by
  rw [slice, List.drop_take, Nat.add_sub_cancel_left, ← List.head?_drop]
  cases bytes.drop k <;> simp

theorem removeImport_eq (hs : s.content = Content.ofString text) (r : Reference) :
    removeImport s r = removal (encode text) r := by
  unfold removeImport removal
  rw [content_list hs]
  dsimp only
  congr 1
  by_cases h : (encode text)[r.span.stop]? = some 10
  · rw [if_pos h, if_pos (beq_iff_eq.2 (slice_succ_eq.2 h))]
  · rw [if_neg h, if_neg (fun hc => h (slice_succ_eq.1 (beq_iff_eq.1 hc)))]

/-- Where an import starts no line feed stands. -/
theorem ne_lineFeed_of_stands {k : Nat} (h : Stands text.toList k "import") :
    (encode text)[k]? ≠ some 10 := by
  obtain ⟨before, after, hfile, rfl⟩ := h
  have hfirst : (bytesOf ("import".toList ++ after)).head? = some 105 := rfl
  rw [encode_eq, ← List.head?_drop, ← hfile, drop_bytesOf, hfirst]
  decide

/-- A removed import ends where the import ends, or after the line feed that stands there. -/
theorem removal_stop (bytes : List UInt8) (r : Reference) :
    (removal bytes r).stop = r.span.stop ∨
      (removal bytes r).stop = r.span.stop + 1 ∧ bytes[r.span.stop]? = some 10 := by
  unfold removal Edit.replacing
  split
  · exact .inr ⟨rfl, by assumption⟩
  · exact .inl rfl

theorem removal_inRange {bytes : List UInt8} {r : Reference} (h : r.span.Inside bytes.length) :
    (removal bytes r).InRange bytes.length := by
  obtain ⟨hle, hstop⟩ := h
  have hstart : (removal bytes r).start = r.span.start := rfl
  rcases removal_stop bytes r with hr | ⟨hr, hnewline⟩
  · exact ⟨by omega, by omega, by omega⟩
  · have := (List.getElem?_eq_some_iff.1 hnewline).1
    exact ⟨by omega, by omega, by omega⟩

/-- A removed import with a line feed after it ends before whatever comes after the import and does not
start with a line feed. -/
theorem removal_stop_le {bytes : List UInt8} {r : Reference} {k : Nat} (h : r.span.stop ≤ k)
    (hk : bytes[k]? ≠ some 10) : (removal bytes r).stop ≤ k := by
  rcases removal_stop bytes r with hr | ⟨hr, hnewline⟩
  · omega
  · have : r.span.stop ≠ k := by
      rintro rfl
      exact hk hnewline
    omega

/-- Imports lie apart from the removed ones that they lie apart from. -/
theorem apart_removal {bytes : List UInt8} {r r' : Reference} (h : r.span.Apart r'.span)
    (hr : bytes[r.span.start]? ≠ some 10) :
    r.span.stop ≤ (removal bytes r').start ∨ (removal bytes r').stop ≤ r.span.start := by
  rcases h with h | h
  · left
    show (r.span.stop : Int) ≤ r'.span.start
    omega
  · exact .inr (removal_stop_le h hr)

theorem removal_apart {bytes : List UInt8} {r r' : Reference} (h : r.span.Apart r'.span)
    (hr : bytes[r.span.start]? ≠ some 10) (hr' : bytes[r'.span.start]? ≠ some 10) :
    (removal bytes r).Apart (removal bytes r') := by
  rcases h with h | h
  · exact .inl (removal_stop_le h hr')
  · exact .inr (removal_stop_le h hr)

/-- The edits that remove some imports which lie apart and start with no line feed. -/
theorem removals_apart {bytes : List UInt8} {imports : List Reference}
    (hapart : imports.Pairwise fun r r' => r.span.Apart r'.span)
    (hstart : ∀ r ∈ imports, bytes[r.span.start]? ≠ some 10) :
    (imports.map (removal bytes)).Pairwise Edit.Apart := by
  refine List.pairwise_map.2 (hapart.imp_of_mem fun {r r'} hr hr' h => ?_)
  exact removal_apart h (hstart r hr) (hstart r' hr')

/-- What is known of the static imports of a file: they lie apart inside the file, each between its
characters and with its keyword first, and what they bind is read off the file. -/
structure ImportsRead (s : Source) (text : String) : Prop where
  inside : ∀ r ∈ staticImports s, r.span.Inside (encode text).length
  atCuts : ∀ r ∈ staticImports s, r.span.AtCuts text.toList
  stands : ∀ r ∈ staticImports s, Stands text.toList r.span.start "import"
  apart : (staticImports s).Pairwise fun r r' => r.span.Apart r'.span
  asRead : ∀ r ∈ staticImports s, ∀ b ∈ r.bindings, b.AsRead

/-- In a file that parses, imports lie between characters and start with their keyword. -/
theorem importsRead_of_parse [Salvage] {text path : String} {language : Option String}
    (hparses : (Source.parse text path language).hasError = false)
    (hinside : ∀ r ∈ staticImports (Source.parse text path language),
      r.span.Inside (encode text).length)
    (hapart : (staticImports (Source.parse text path language)).Pairwise
      fun r r' => r.span.Apart r'.span)
    (hread : ∀ r ∈ staticImports (Source.parse text path language), ∀ b ∈ r.bindings, b.AsRead) :
    ImportsRead (Source.parse text path language) text where
  inside := hinside
  atCuts r hr := by
    have hfit := Source.parse_references_fit hparses (List.mem_of_mem_filter hr)
    exact ⟨hfit.start, hfit.stop⟩
  stands r hr := by
    obtain ⟨hmem, hstatic⟩ := List.mem_filter.1 hr
    exact Source.parse_references_stand hparses hmem (by simpa using hstatic)
  apart := hapart
  asRead := hread

/-- **Removing repeated imports loses no binding.**  Whether the file parses or its tree is what is left
of it, exactly those static imports are removed that import from their module what an earlier one
imports from it, in any order, each with at most the line feed right after it; all other bytes stay,
those of the imports that are kept among them, and whatever a static import binds is still bound by one
from the same module. -/
theorem withoutRepeatedImports_keeps {s : Source} {text : String}
    (hs : s.content = Content.ofString text) (h : ImportsRead s text) :
    ∃ kept cuts new, FirstKept [] (staticImports s) kept (repeatedImports s) ∧
      cuts.Perm ((repeatedImports s).map (removal (encode text))) ∧
      (cuts.Pairwise fun a b => a.stop ≤ b.start) ∧
      withoutRepeatedImports s = .ok new ∧ encode new = Edit.replaced (encode text) 0 cuts ∧
      (∀ r ∈ kept, ∀ e ∈ cuts, (r.span.stop : Int) ≤ e.start ∨ e.stop ≤ r.span.start) ∧
      ∀ r ∈ staticImports s, ∀ b ∈ r.bindings, ∃ r' ∈ kept, r'.source = r.source ∧ b ∈ r'.bindings := by
  have hstart : ∀ r ∈ staticImports s, (encode text)[r.span.start]? ≠ some 10 :=
    fun r hr => ne_lineFeed_of_stands (h.stands r hr)
  obtain ⟨kept, hkept⟩ : ∃ kept, FirstKept [] (staticImports s) kept (repeatedImports s) :=
    FirstKept.of_repeatedFrom h.asRead (by simp)
  have hparts := List.pairwise_append.1
    ((hkept.perm.pairwise_iff Span.Apart.symm).1 h.apart)
  have hremoved : ∀ r ∈ repeatedImports s, r ∈ staticImports s := fun _ => mem_of_mem_repeatedFrom
  have hremovals : (repeatedImports s).map (removeImport s) =
      (repeatedImports s).map (removal (encode text)) :=
    List.map_congr_left fun r _ => removeImport_eq hs r
  have hinside : ∀ e ∈ (repeatedImports s).map (removal (encode text)),
      e.InRange (encode text).length := by
    simpa using fun r hr => removal_inRange (h.inside r (hremoved r hr))
  obtain ⟨cuts, hcuts, hsorted, hnew⟩ := edited_eq_ok_iff hs hinside
    (removals_apart hparts.2.1 fun r hr => hstart r (hremoved r hr))
  obtain ⟨new, hok⟩ := edited_ok hs (removals_fit h.atCuts (by rw [content_list hs, encode_eq]))
  rw [hremovals] at hok
  refine ⟨kept, cuts, new, hkept, hcuts, hsorted, ?_, (hnew new).1 hok, ?_, ?_⟩
  · unfold withoutRepeatedImports
    dsimp only
    rw [hremovals, hok]
  · intro r hr e he
    obtain ⟨r', hr', rfl⟩ := List.mem_map.1 (hcuts.mem_iff.1 he)
    exact apart_removal (hparts.2.2 r hr r' hr') (hstart r (hkept.perm.mem_iff.2 (by simp [hr])))
  · intro r hr b hb
    obtain ⟨r', hr', hsame⟩ := hkept.exists_kept r hr
    exact ⟨r', hr', hsame.1, hsame.2.mem_iff.2 hb⟩

/-- Imports, of which the third one repeats the first one and the fourth one does not repeat the
second. -/
def repeatingImports : String :=
  "import \x7b a, b as c \x7d from \"m\";\nimport d from \"m\";\n" ++
    "import \x7b b as c, a \x7d from \"m\";\nimport \x7b \"d,x\" as d \x7d from \"m\";\n"

/-- The imports and a brace after them that closes nothing. -/
def repeatingText : String := repeatingImports ++ "\x7d\n"

/-- What is left of the text, which does not parse: its imports and the brace. -/
def repeatingSource : Source :=
  let imports := match Syntax.parse .javascript repeatingImports.toList with
    | .ok piece => piece.node.children
    | .error _ => []
  Source.ofTree .javascript repeatingText "a.js"
    ⟨.program, none, 0, 115, imports ++ [.leaf .error 113 114]⟩ (some ⟨⟨4, 0⟩, false⟩)

/-- Of what is left of the text the third import is removed. -/
theorem withoutRepeatedImports_keeps_repeatingSource :
    ImportsRead repeatingSource repeatingText ∧
    ∃ kept cuts new, FirstKept [] (staticImports repeatingSource) kept
        (repeatedImports repeatingSource) ∧
      cuts.Perm ((repeatedImports repeatingSource).map (removal (encode repeatingText))) ∧
      (cuts.Pairwise fun a b => a.stop ≤ b.start) ∧
      withoutRepeatedImports repeatingSource = .ok new ∧
      encode new = Edit.replaced (encode repeatingText) 0 cuts ∧
      (∀ r ∈ kept, ∀ e ∈ cuts, (r.span.stop : Int) ≤ e.start ∨ e.stop ≤ r.span.start) ∧
      ∀ r ∈ staticImports repeatingSource, ∀ b ∈ r.bindings,
        ∃ r' ∈ kept, r'.source = r.source ∧ b ∈ r'.bindings := by
  have h : ImportsRead repeatingSource repeatingText :=
    ⟨by decide +kernel, by decide +kernel, by decide +kernel, by decide +kernel, by decide +kernel⟩
  exact ⟨h, withoutRepeatedImports_keeps rfl h⟩

end WebMigration.Rewrite
