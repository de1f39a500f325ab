import WebMigration.Rules.Validation
import WebMigration.Failure.Record
import Mathlib.Data.List.Find
import Mathlib.Data.List.Forall2
import Mathlib.Data.List.Pairwise

/-!
# The two spellings of a specification

A field of a specification has a name with underscores and an alias in camel case.  Respelling a
document exchanges any of them, at any depth where a field is expected; keys that no field has, and
the keys of the tables that users fill, stay as they are.

The fields of every part of a specification are listed here once more, with the aliases made
from the names.  A reader is *blind* to a relation if it accepts the same value from both sides or
nothing from either.  Blindness is closed under the operations that readers are built with, so it
comes down to single fields, and there to the fact that a record in which a field occurs once shows
the same value under whichever spelling.
-/

namespace WebMigration

open Decoder

namespace Spelling

/-! ## Respelling -/

/-- A name with underscores in camel case. -/
def camelCase (name : String) : String := String.ofList (humps false name.toList)
where
  humps (raised : Bool) : List Char → List Char
    | [] => []
    | '_' :: cs => humps true cs
    | c :: cs => (if raised then c.toUpper else c) :: humps false cs

/-- A field of a model: its name, its alias, and how its value may be respelled. -/
structure Field where
  name : String
  camel : String := camelCase name
  inside : Json → Json → Prop := Eq

namespace Field

/-- The spellings of a field, the alias first. -/
def spellings (d : Field) : List String :=
  if d.camel = d.name then [d.name] else [d.camel, d.name]

end Field

/-- No two fields share a spelling. -/
def Apart (fields : List Field) : Prop :=
  fields.Pairwise fun d e => ∀ s ∈ d.spellings, s ∉ e.spellings

instance (fields : List Field) : Decidable (Apart fields) :=
  inferInstanceAs (Decidable (fields.Pairwise _))

/-- An entry of a record and what respelling makes of it. -/
inductive Entry (fields : List Field) : String × Json → String × Json → Prop
  | field {d : Field} {s t : String} {v w : Json} (known : d ∈ fields) (hs : s ∈ d.spellings)
      (ht : t ∈ d.spellings) (inside : d.inside v w) : Entry fields (s, v) (t, w)
  | unknown {s : String} {v : Json} (hs : ∀ d ∈ fields, s ∉ d.spellings) :
      Entry fields (s, v) (s, v)

/-- The entries of a record that gives every field at most once, and what respelling makes of them,
in any order. -/
structure Entries (fields : List Field) (fs gs : List (String × Json)) : Prop where
  once : ∀ d ∈ fields, (fs.filter fun f => f.1 ∈ d.spellings).length ≤ 1
  respelled : ∃ hs, List.Forall₂ (Entry fields) fs hs ∧ hs.Perm gs

/-- A value and the same value with its fields respelled if it is a record. -/
inductive Respelled (fields : List Field) : Json → Json → Prop
  | same (v : Json) : Respelled fields v v
  | record {fs gs : List (String × Json)} (entries : Entries fields fs gs) :
      Respelled fields (.record fs) (.record gs)

/-- A value and the same value with its items respelled if it is a list. -/
inductive EachRespelled (fields : List Field) : Json → Json → Prop
  | same (v : Json) : EachRespelled fields v v
  | list {vs ws : List Json} (items : List.Forall₂ (Respelled fields) vs ws) :
      EachRespelled fields (.list vs) (.list ws)

namespace Field

/-- A field whose value is left alone. -/
def plain (name : String) : Field := { name }

/-- A field for a model with some fields. -/
def model (name : String) (fields : List Field) : Field := { name, inside := Respelled fields }

/-- A field for a list of models with some fields. -/
def models (name : String) (fields : List Field) : Field := { name, inside := EachRespelled fields }

end Field

/-! ## What a record shows under a field -/

section Shown

variable {fields : List Field} {fs gs : List (String × Json)} {d : Field} {α β : Type}

theorem rel_cases {related : α → β → Prop} {x : Option α} {y : Option β}
    (h : Option.Rel related x y) :
    x = none ∧ y = none ∨ ∃ a b, x = some a ∧ y = some b ∧ related a b := by
  cases h with
  | none => exact .inl ⟨rfl, rfl⟩
  | some h => exact .inr ⟨_, _, rfl, rfl, h⟩

theorem lookup?_filter {p : String × Json → Bool} {s : String} (h : ∀ v, p (s, v)) :
    Json.lookup? (fs.filter p) s = Json.lookup? fs s := by
  unfold Json.lookup?
  rw [← List.filter_reverse, List.find?_filter]
  congr 2
  funext f
  by_cases hf : f.1 = s
  · subst hf
    simp [h f.2]
  · simp [hf]

theorem firstSpelled?_congr {spellings : List String}
    (h : ∀ s ∈ spellings, Json.lookup? fs s = Json.lookup? gs s) :
    firstSpelled? spellings fs = firstSpelled? spellings gs := by
  induction spellings with
  | nil => rfl
  | cons s rest ih =>
    have := ih fun t ht => h t (List.mem_cons_of_mem _ ht)
    simp only [firstSpelled?, List.findSome?_cons, h s List.mem_cons_self] at this ⊢
    rw [this]

/-- Only the entries for a field decide what is shown under it. -/
theorem firstSpelled?_filter (spellings : List String) (fs : List (String × Json)) :
    firstSpelled? spellings (fs.filter fun f => f.1 ∈ spellings) = firstSpelled? spellings fs :=
  firstSpelled?_congr fun _ hs => lookup?_filter fun _ => decide_eq_true hs

theorem firstSpelled?_singleton {spellings : List String} {f : String × Json}
    (h : f.1 ∈ spellings) : firstSpelled? spellings [f] = some f := by
  induction spellings with
  | nil => cases h
  | cons s rest ih =>
    by_cases hf : f.1 = s
    · subst hf
      simp [firstSpelled?, Json.lookup?]
    · have := ih ((List.mem_cons.1 h).resolve_left hf)
      simpa [firstSpelled?, Json.lookup?, hf] using this

/-- A spelling that is given twice counts once. -/
theorem firstSpelled?_pair (d : Field) (fs : List (String × Json)) :
    firstSpelled? [d.camel, d.name] fs = firstSpelled? d.spellings fs := by
  unfold Field.spellings
  split
  · rename_i h
    rw [h]
    cases hv : Json.lookup? fs d.name <;> simp [firstSpelled?, hv]
  · rfl

/-- Of related lists with one entry at most, related entries are shown. -/
theorem firstSpelled?_rel {related : String × Json → String × Json → Prop} {spellings : List String}
    (h : List.Forall₂ related fs gs) (few : fs.length ≤ 1) (hf : ∀ f ∈ fs, f.1 ∈ spellings)
    (hg : ∀ g ∈ gs, g.1 ∈ spellings) :
    Option.Rel related (firstSpelled? spellings fs) (firstSpelled? spellings gs) := by
  cases h with
  | nil =>
    have : firstSpelled? spellings [] = none := by simp [firstSpelled?, Json.lookup?]
    rw [this]
    exact .none
  | @cons f g fs gs hfg rest =>
    obtain rfl := List.eq_nil_of_length_eq_zero (Nat.le_zero.1 (Nat.le_of_succ_le_succ few))
    cases rest
    rw [firstSpelled?_singleton (hf f (by simp)), firstSpelled?_singleton (hg g (by simp))]
    exact .some hfg

/-- Fields that share a spelling are one. -/
theorem Apart.eq_of_mem (apart : Apart fields) {e : Field} (hd : d ∈ fields) (he : e ∈ fields)
    {s : String} (hs : s ∈ d.spellings) (hs' : s ∈ e.spellings) : d = e := by
  by_contra ne
  have : Std.Symm fun d e : Field => ∀ s ∈ d.spellings, s ∉ e.spellings :=
    ⟨fun _ _ h s hs hs' => h s hs' hs⟩
  exact apart.forall hd he ne s hs hs'

/-- Respelling an entry does not make it an entry for another field. -/
theorem Entry.mem_spellings_iff (apart : Apart fields) (hd : d ∈ fields) {f g : String × Json}
    (h : Entry fields f g) : f.1 ∈ d.spellings ↔ g.1 ∈ d.spellings := by
  cases h with
  | field known hs ht _ =>
    constructor
    · intro h
      obtain rfl := apart.eq_of_mem hd known h hs
      exact ht
    · intro h
      obtain rfl := apart.eq_of_mem hd known h ht
      exact hs
  | unknown _ => rfl

/-- The entry for a field stays one. -/
theorem Entry.inside (apart : Apart fields) (hd : d ∈ fields) {f g : String × Json}
    (h : Entry fields f g) (hf : f.1 ∈ d.spellings) : d.inside f.2 g.2 := by
  cases h with
  | field known hs _ inside =>
    obtain rfl := apart.eq_of_mem hd known hf hs
    exact inside
  | unknown hs => exact absurd hf (hs d hd)

theorem eq_of_perm_of_length_le_one {xs ys : List α} (h : xs.Perm ys) (few : xs.length ≤ 1) :
    xs = ys := by
  rcases xs with - | ⟨x, - | ⟨y, xs⟩⟩
  · exact (List.nil_perm.1 h).symm
  · exact List.singleton_perm.1 h
  · simp at few

/-- Both records show a value under a field or neither does, and the values are the same up to
respelling. -/
theorem Entries.shown (apart : Apart fields) (h : Entries fields fs gs) (hd : d ∈ fields) :
    Option.Rel (fun f g => d.inside f.2 g.2) (firstSpelled? d.spellings fs)
      (firstSpelled? d.spellings gs) := by
  obtain ⟨hs, related, perm⟩ := h.respelled
  let own : String × Json → Bool := fun f => f.1 ∈ d.spellings
  have mem {l : List (String × Json)} : ∀ f ∈ l.filter own, f.1 ∈ d.spellings :=
    fun f hf => of_decide_eq_true (List.mem_filter.1 hf).2
  have related : List.Forall₂ (Entry fields) (fs.filter own) (hs.filter own) :=
    List.rel_filter (fun f g hfg => by simpa [own] using hfg.mem_spellings_iff apart hd) related
  -- A field is given once, so the order of the entries no longer matters among its own.
  have eq : hs.filter own = gs.filter own :=
    eq_of_perm_of_length_le_one (perm.filter own) (related.length_eq ▸ h.once d hd)
  have inside : List.Forall₂ (fun f g => d.inside f.2 g.2) (fs.filter own) (gs.filter own) :=
    ((List.forall₂_and_left _ _).2 ⟨mem, eq ▸ related⟩).imp fun _ _ h => h.2.inside apart hd h.1
  rw [← firstSpelled?_filter, ← firstSpelled?_filter d.spellings gs]
  exact firstSpelled?_rel inside (h.once d hd) mem mem

/-- A field with one spelling, looked up. -/
theorem Entries.lookup? (apart : Apart fields) (h : Entries fields fs gs) (hd : d ∈ fields)
    (sole : d.camel = d.name) :
    Option.Rel d.inside (Json.lookup? fs d.name) (Json.lookup? gs d.name) := by
  have value (l : List (String × Json)) :
      Json.lookup? l d.name = (firstSpelled? d.spellings l).map (·.2) := by
    rw [Field.spellings, if_pos sole]
    cases hv : Json.lookup? l d.name <;> simp [firstSpelled?, hv]
  rw [value, value]
  obtain ⟨hf, hg⟩ | ⟨f, g, hf, hg, inside⟩ := rel_cases (h.shown apart hd)
  · rw [hf, hg]
    exact .none
  · rw [hf, hg]
    exact .some inside

end Shown

/-! ## Blind readers -/

/-- A reader that reads the same from related values, or nothing from either. -/
def Blind {α : Type} (related : Json → Json → Prop) (item : Decoder α) : Prop :=
  ∀ ⦃v w : Json⦄, related v w → (item v).toOption = (item w).toOption

/-- A reader of fields that reads the same from a record and its respelling, or nothing. -/
def BlindFields {α : Type} (fields : List Field) (reader : Fields α) : Prop :=
  ∀ ⦃fs gs : List (String × Json)⦄, Entries fields fs gs →
    (reader fs).toOption = (reader gs).toOption

section Readers

variable {fields : List Field} {d : Field} {α β : Type} {f : Decoded (α → β)} {a : Decoded α}

theorem toOption_apply :
    (Decoded.apply f a).toOption = f.toOption.bind fun g => a.toOption.map g := by
  rcases f with - | g <;> rcases a with - | x <;> rfl

theorem toOption_under (step : PathStep) (a : Decoded α) :
    (Decoded.under step a).toOption = a.toOption := by
  rcases a with - | x <;> rfl

theorem toOption_all {as bs : List (Decoded α)}
    (h : List.Forall₂ (fun a b : Decoded α => a.toOption = b.toOption) as bs) :
    (Decoded.all as).toOption = (Decoded.all bs).toOption := by
  induction h with
  | nil => rfl
  | cons h _ ih => simp only [Decoded.all, toOption_apply, h, ih]

theorem forall₂_mapIdx {γ δ : Type} {R : α → β → Prop} {S : γ → δ → Prop} {xs : List α}
    {ys : List β} (f : ℕ → α → γ) (g : ℕ → β → δ) (hfg : ∀ i x y, R x y → S (f i x) (g i y))
    (h : List.Forall₂ R xs ys) : List.Forall₂ S (xs.mapIdx f) (ys.mapIdx g) := by
  induction h generalizing f g with
  | nil => exact .nil
  | cons hxy _ ih =>
    rw [List.mapIdx_cons, List.mapIdx_cons]
    exact .cons (hfg 0 _ _ hxy) (ih _ _ fun i => hfg (i + 1))

theorem BlindFields.seq {f : Fields (α → β)} {a : Fields α} (hf : BlindFields fields f)
    (ha : BlindFields fields a) : BlindFields fields (f <*> a) := by
  intro fs gs h
  show (Decoded.apply (f fs) (a fs)).toOption = (Decoded.apply (f gs) (a gs)).toOption
  rw [toOption_apply, toOption_apply, hf h, ha h]

theorem BlindFields.pure (x : α) : BlindFields fields (pure x : Fields α) := fun _ _ _ => rfl

/-- A reader of the value that is shown under a field, with something else where none is. -/
theorem BlindFields.shown (apart : Apart fields) (hd : d ∈ fields) {item : Decoder α}
    (hi : Blind d.inside item) (other : Decoded α) :
    BlindFields fields fun fs =>
      match firstSpelled? d.spellings fs with
      | some (s, v) => Decoded.under (.field s) (item v)
      | none => other := by
  intro fs gs h
  dsimp only
  obtain ⟨hf, hg⟩ | ⟨f, g, hf, hg, inside⟩ := rel_cases (h.shown apart hd)
  · rw [hf, hg]
  · rw [hf, hg, toOption_under, toOption_under, hi inside]

theorem BlindFields.field (apart : Apart fields) {item : Decoder α} {spellings : List String}
    {default : α} (hd : fields.find? (·.spellings = spellings) = some d)
    (hi : Blind d.inside item) : BlindFields fields (Decoder.field spellings default item) := by
  obtain rfl : d.spellings = spellings := by
    simpa using List.find?_some hd
  exact .shown apart (List.mem_of_find?_eq_some hd) hi (.ok default)

theorem BlindFields.required (apart : Apart fields) {item : Decoder α} {spellings : List String}
    (hd : fields.find? (·.spellings = spellings) = some d) (hi : Blind d.inside item) :
    BlindFields fields (Decoder.required spellings item) := by
  obtain rfl : d.spellings = spellings := by
    simpa using List.find?_some hd
  exact .shown apart (List.mem_of_find?_eq_some hd) hi (.error _)

theorem Blind.model {reader : Fields α} (h : BlindFields fields reader) :
    Blind (Respelled fields) (Decoder.model reader) := by
  intro v w hvw
  cases hvw with
  | same _ => rfl
  | record entries => exact h entries

theorem Blind.list {item : Decoder α} (h : Blind (Respelled fields) item) :
    Blind (EachRespelled fields) (Decoder.list item) := by
  intro v w hvw
  cases hvw with
  | same _ => rfl
  | list items => exact toOption_all (forall₂_mapIdx _ _ (fun _ _ _ hxy => by
      rw [toOption_under, toOption_under, h hxy]) items)

theorem Blind.eq (item : Decoder α) : Blind Eq item := by
  rintro v _ rfl
  rfl

end Readers

end Spelling

open Spelling

/-! ## The fields of each part

With the fields of a part goes that no two of them share a spelling, and with that its reader is
blind: the operations are taken off until one goal is left for every field. -/

namespace FileStructure

def fields : List Field :=
  [.plain "pages", .plain "components", .plain "layouts", .plain "api"]

theorem fields_apart : Apart fields := by decide

theorem decode_blind : Blind (Respelled fields) decode := by
  refine .model ?_
  repeat' first | apply BlindFields.seq | apply BlindFields.pure
  all_goals exact .field fields_apart rfl (.eq _)

end FileStructure

namespace ComponentConventions

def fields : List Field :=
  [.plain "file_extension", .plain "naming_convention", .plain "export_style",
    .plain "server_components"]

theorem fields_apart : Apart fields := by decide

theorem decode_blind : Blind (Respelled fields) decode := by
  refine .model ?_
  repeat' first | apply BlindFields.seq | apply BlindFields.pure
  all_goals exact .field fields_apart rfl (.eq _)

end ComponentConventions

namespace SourceStack

def fields : List Field :=
  [.plain "language", .plain "framework", .plain "version", .plain "routing", .plain "patterns",
    .plain "build_tool", .plain "package_manager"]

theorem fields_apart : Apart fields := by decide

theorem decode_blind : Blind (Respelled fields) decode := by
  refine .model ?_
  repeat' first | apply BlindFields.seq | apply BlindFields.pure
  all_goals exact .field fields_apart rfl (.eq _)

end SourceStack

namespace TargetStack

def fields : List Field :=
  [.plain "language", .plain "framework", .plain "version", .plain "routing",
    .model "file_structure" FileStructure.fields,
    .model "component_conventions" ComponentConventions.fields,
    .plain "syntax_mappings", .plain "api_mappings", .plain "lifecycle_mappings",
    .plain "build_tool", .plain "package_manager"]

theorem fields_apart : Apart fields := by decide

theorem decode_blind : Blind (Respelled fields) decode := by
  refine .model ?_
  repeat' first | apply BlindFields.seq | apply BlindFields.pure
  all_goals first
    | exact .field fields_apart rfl (.eq _)
    | exact .field fields_apart rfl FileStructure.decode_blind
    | exact .field fields_apart rfl ComponentConventions.decode_blind

end TargetStack

namespace SymbolMappings

def fields : List Field :=
  [.plain "imports", .plain "routing", .plain "components", .plain "styling",
    .plain "state_management", .plain "build_system"]

theorem fields_apart : Apart fields := by decide

theorem decode_blind : Blind (Respelled fields) decode := by
  refine .model ?_
  repeat' first | apply BlindFields.seq | apply BlindFields.pure
  all_goals exact .field fields_apart rfl (.eq _)

end SymbolMappings

namespace BreakingChange

def fields : List Field :=
  [.plain "id", .plain "description", { name := "affected_apis", camel := "affectedAPIs" },
    .plain "migration_path", .plain "auto_fixable"]

theorem fields_apart : Apart fields := by decide

theorem decode_blind : Blind (Respelled fields) decode := by
  refine .model ?_
  repeat' first | apply BlindFields.seq | apply BlindFields.pure
  all_goals first
    | exact .field fields_apart rfl (.eq _)
    | exact .required fields_apart rfl (.eq _)

end BreakingChange

namespace Deprecation

def fields : List Field :=
  [.plain "id", .plain "deprecated", .plain "replacement", .plain "version",
    .plain "removal_version"]

theorem fields_apart : Apart fields := by decide

theorem decode_blind : Blind (Respelled fields) decode := by
  refine .model ?_
  repeat' first | apply BlindFields.seq | apply BlindFields.pure
  all_goals first
    | exact .field fields_apart rfl (.eq _)
    | exact .required fields_apart rfl (.eq _)

end Deprecation

namespace MigrationRules

def fields : List Field :=
  [.plain "must_preserve", .plain "must_transform", .plain "must_remove", .plain "must_refactor",
    .models "breaking_changes" BreakingChange.fields, .models "deprecations" Deprecation.fields]

theorem fields_apart : Apart fields := by decide

theorem decode_blind : Blind (Respelled fields) decode := by
  refine .model ?_
  repeat' first | apply BlindFields.seq | apply BlindFields.pure
  all_goals first
    | exact .field fields_apart rfl (.eq _)
    | exact .field fields_apart rfl (.list BreakingChange.decode_blind)
    | exact .field fields_apart rfl (.list Deprecation.decode_blind)

end MigrationRules

namespace SpecMetadata

def fields : List Field :=
  [.plain "version", .plain "generated_at", .plain "estimated_complexity",
    .plain "estimated_duration"]

theorem fields_apart : Apart fields := by decide

theorem decode_blind : Blind (Respelled fields) decode := by
  refine .model ?_
  repeat' first | apply BlindFields.seq | apply BlindFields.pure
  all_goals exact .field fields_apart rfl (.eq _)

end SpecMetadata

namespace Specification

def fields : List Field :=
  [.model "source" SourceStack.fields, .model "target" TargetStack.fields,
    .model "mappings" SymbolMappings.fields, .model "rules" MigrationRules.fields,
    .model "metadata" SpecMetadata.fields]

theorem fields_apart : Apart fields := by decide

theorem decode_blind : Blind (Respelled fields) decode := by
  refine .model ?_
  repeat' first | apply BlindFields.seq | apply BlindFields.pure
  all_goals first
    | exact .field fields_apart rfl (.eq _)
    | exact .field fields_apart rfl SourceStack.decode_blind
    | exact .field fields_apart rfl TargetStack.decode_blind
    | exact .field fields_apart rfl SymbolMappings.decode_blind
    | exact .field fields_apart rfl MigrationRules.decode_blind
    | exact .field fields_apart rfl SpecMetadata.decode_blind

end Specification

/-! ## The shape of rules -/

namespace MigrationRules

theorem checkShape_value (fs : List (String × Json)) (s : String × String) :
    checkShape.value fs s = (firstSpelled? [s.1, s.2] fs).map (·.2) := by
  unfold checkShape.value firstSpelled?
  cases h₁ : Json.lookup? fs s.1 <;> cases h₂ : Json.lookup? fs s.2 <;>
    simp [h₁, h₂]

/-- The check of the shape knows the fields by the same spellings. -/
theorem fields_spellings : fields.map (fun d => (d.camel, d.name)) = spellings := by decide

/-- Respelling the value of a field of the rules keeps whether it is a list. -/
theorem isList_inside {d : Field} (hd : d ∈ fields) {v w : Json} (h : d.inside v w) :
    checkShape.isList (some v) = checkShape.isList (some w) := by
  have plain {v w : Json} (h : v = w) : checkShape.isList (some v) = checkShape.isList (some w) :=
    h ▸ rfl
  have models {items : List Field} (h : EachRespelled items v w) :
      checkShape.isList (some v) = checkShape.isList (some w) := by
    cases h with
    | same _ => rfl
    | list _ => rfl
  simp only [fields, List.mem_cons, List.not_mem_nil, or_false] at hd
  rcases hd with rfl | rfl | rfl | rfl | rfl | rfl
  exacts [plain h, plain h, plain h, plain h, models h, models h]

/-- A respelled record has a list of rules where the record has one. -/
theorem isList_value {fs gs : List (String × Json)} (h : Entries fields fs gs)
    {s : String × String} (hs : s ∈ spellings) :
    checkShape.isList (checkShape.value fs s) = checkShape.isList (checkShape.value gs s) := by
  obtain ⟨d, hd, rfl⟩ := List.mem_map.1 (fields_spellings ▸ hs)
  rw [checkShape_value, checkShape_value, firstSpelled?_pair, firstSpelled?_pair]
  obtain ⟨hf, hg⟩ | ⟨f, g, hf, hg, inside⟩ := rel_cases (h.shown fields_apart hd)
  · rw [hf, hg]
  · rw [hf, hg]
    exact isList_inside hd inside

/-- The shape of respelled rules is as good, or as bad for the same reason. -/
theorem checkShape_respelled {v w : Json} (h : Respelled fields v w) :
    checkShape v = checkShape w := by
  cases h with
  | same _ => rfl
  | @record fs gs entries =>
    have : spellings.find? (fun s => !checkShape.isList (checkShape.value fs s)) =
        spellings.find? fun s => !checkShape.isList (checkShape.value gs s) :=
      List.find?_congr fun s hs => by rw [isList_value entries hs]
    simp only [checkShape, this]

end MigrationRules

/-! ## Whole documents -/

namespace Specification

/-- Both documents give rules or neither does, and the shape of their rules is checked alike. -/
theorem rules_respelled {v w : Json} (h : Respelled fields v w) :
    Option.Rel (Respelled MigrationRules.fields) (v.field? "rules") (w.field? "rules") := by
  cases h with
  | same _ =>
    cases v.field? "rules" with
    | none => exact .none
    | some rules => exact .some (.same rules)
  | record entries =>
    exact entries.lookup? fields_apart (d := .model "rules" MigrationRules.fields)
      (by simp [fields]) (by decide)

/-- The check of the rules of a document that need not give any. -/
def rulesShape (document : Json) : Except Failure Unit :=
  match document.field? "rules" with
  | some rules => MigrationRules.checkShape rules
  | none => pure ()

theorem rulesShape_respelled {v w : Json} (h : Respelled fields v w) :
    rulesShape v = rulesShape w := by
  unfold rulesShape
  obtain ⟨hv, hw⟩ | ⟨r, r', hv, hw, rules⟩ := rel_cases (rules_respelled h)
  · rw [hv, hw]
  · rw [hv, hw]
    exact MigrationRules.checkShape_respelled rules

/-- What is read from a record: the shape of its rules comes first. -/
theorem mapError_ofDocument_record (fs : List (String × Json)) :
    (ofDocument (.record fs)).mapError Failure.kind =
      match rulesShape (.record fs), (decode (.record fs)).toOption with
      | .error failure, _ => .error failure.kind
      | .ok (), some spec => .ok spec
      | .ok (), none => .error "ValidationError" := by
  simp only [ofDocument, rulesShape, Json.field?]
  cases Json.lookup? fs "rules" with
  | none => cases decode (.record fs) <;> rfl
  | some rules =>
    dsimp only
    cases MigrationRules.checkShape rules with
    | error _ => rfl
    | ok _ => cases decode (.record fs) <;> rfl

theorem mapError_ofDocument_respelled {v w : Json} (h : Respelled fields v w) :
    (ofDocument v).mapError Failure.kind = (ofDocument w).mapError Failure.kind := by
  have shape := rulesShape_respelled h
  have read := decode_blind h
  cases h with
  | same _ => rfl
  | record _ => rw [mapError_ofDocument_record, mapError_ofDocument_record, shape, read]

end Specification

namespace RuleSet

theorem mapError_ofDocument (lanes : LaneRegistry) (document : Json) :
    (ofDocument lanes document).mapError Failure.kind =
      ((MigrationRules.checkShape ((document.field? "rules").getD .null)).mapError
        Failure.kind).bind fun _ =>
          ((Specification.ofDocument document).mapError Failure.kind).map (ofSpec lanes) := by
  unfold ofDocument
  rcases MigrationRules.checkShape ((document.field? "rules").getD .null) with f | _
  · rfl
  rcases Specification.ofDocument document with f | spec <;> rfl

theorem mapError_ofDocument_respelled (lanes : LaneRegistry) {v w : Json}
    (h : Respelled Specification.fields v w) :
    (ofDocument lanes v).mapError Failure.kind = (ofDocument lanes w).mapError Failure.kind := by
  have rules : MigrationRules.checkShape ((v.field? "rules").getD .null) =
      MigrationRules.checkShape ((w.field? "rules").getD .null) := by
    obtain ⟨hv, hw⟩ | ⟨r, r', hv, hw, rules⟩ := rel_cases (Specification.rules_respelled h)
    · rw [hv, hw]
    · rw [hv, hw]
      exact MigrationRules.checkShape_respelled rules
  rw [mapError_ofDocument, mapError_ofDocument, rules,
    Specification.mapError_ofDocument_respelled h]

end RuleSet

/-! ## Either spelling -/

/-- **Both spellings of a specification mean the same.**  A document and its respelling are both
accepted, as the same specification, or both refused with failures of one kind, and so are the rules
in them. -/
theorem ofDocument_respelled (lanes : LaneRegistry) {v w : Json}
    (h : Respelled Specification.fields v w) :
    (Specification.ofDocument v).mapError Failure.kind =
        (Specification.ofDocument w).mapError Failure.kind ∧
      (RuleSet.ofDocument lanes v).mapError Failure.kind =
        (RuleSet.ofDocument lanes w).mapError Failure.kind :=
  ⟨Specification.mapError_ofDocument_respelled h, RuleSet.mapError_ofDocument_respelled lanes h⟩

/-- A document that gives its rules under the names of the fields. -/
def underscored : Json :=
  .record [("target", .record [("api_mappings", .record [("old_name", .string "new_name")])]),
    ("rules", .record [("must_preserve", .strings ["business logic"]), ("must_transform", .list []),
      ("must_remove", .list []), ("must_refactor", .list []),
      ("breaking_changes", .list [.record [("id", .string "router"),
        ("affected_apis", .strings ["useNavigate"])]]),
      ("deprecations", .list [])])]

/-- The same document with some of the aliases, and its parts the other way round. -/
def camelled : Json :=
  .record [("rules", .record [("mustPreserve", .strings ["business logic"]),
      ("must_transform", .list []), ("must_remove", .list []), ("mustRefactor", .list []),
      ("breakingChanges", .list [.record [("id", .string "router"),
        ("affectedAPIs", .strings ["useNavigate"])]]),
      ("deprecations", .list [])]),
    ("target", .record [("apiMappings", .record [("old_name", .string "new_name")])])]

theorem camelled_respelled : Respelled Specification.fields underscored camelled := by
  have known {fields : List Field} {s t : String} {v w : Json} {d : Field}
      (hd : fields.find? (s ∈ ·.spellings) = some d) (ht : t ∈ d.spellings) (h : d.inside v w) :
      Entry fields (s, v) (t, w) :=
    .field (List.mem_of_find?_eq_some hd) (by simpa using List.find?_some hd) ht h
  have change : Respelled BreakingChange.fields
      (.record [("id", .string "router"), ("affected_apis", .strings ["useNavigate"])])
      (.record [("id", .string "router"), ("affectedAPIs", .strings ["useNavigate"])]) :=
    .record ⟨by decide, _, .cons (known rfl (by decide) rfl)
      (.cons (known rfl (by decide) rfl) .nil), .refl _⟩
  have target : Respelled TargetStack.fields
      (.record [("api_mappings", .record [("old_name", .string "new_name")])])
      (.record [("apiMappings", .record [("old_name", .string "new_name")])]) :=
    .record ⟨by decide, _, .cons (known rfl (by decide) rfl) .nil, .refl _⟩
  refine .record ⟨by decide, _, .cons (known rfl (by decide) target)
    (.cons (known rfl (by decide) (.record ⟨by decide, _, ?_, .refl _⟩)) .nil), .swap _ _ _⟩
  exact .cons (known rfl (by decide) rfl) (.cons (known rfl (by decide) rfl)
    (.cons (known rfl (by decide) rfl) (.cons (known rfl (by decide) rfl)
    (.cons (known rfl (by decide) (.list (.cons change .nil)))
    (.cons (known rfl (by decide) (.same _)) .nil)))))

theorem camelled_read_alike :
    Respelled Specification.fields underscored camelled ∧
      (Specification.ofDocument underscored).mapError Failure.kind =
        (Specification.ofDocument camelled).mapError Failure.kind ∧
      (RuleSet.ofDocument {} underscored).mapError Failure.kind =
        (RuleSet.ofDocument {} camelled).mapError Failure.kind :=
  ⟨camelled_respelled, ofDocument_respelled {} camelled_respelled⟩

example :
    (Specification.ofDocument camelled).toOption.map
      (·.rules.breakingChanges.map (·.affectedApis)) = some [["useNavigate"]] := by
  decide

end WebMigration
