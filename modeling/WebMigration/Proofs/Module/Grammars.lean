import Mathlib.Data.List.Pairwise
import WebMigration.Module.Grammars
import WebMigration.Proofs.Table
import WebMigration.Proofs.Text.Key

/-!
# Registering grammars and asking for parsers

Three tables are kept of what was registered: the profiles, the names that lead to them, and the parsers
made so far.  After any calls they say the same as the list of registrations, and a parser that is
kept is one that the latest factory of its language made.  A file is read by the parser of the first
grammar that claims its extension as long as the name of that grammar still leads to it: a later
grammar may take the name over.
-/

namespace WebMigration.Module

open Syntax

variable {Parser : Type}

namespace GrammarProfile

variable {rs : List (GrammarProfile Parser)} {p q : GrammarProfile Parser} {name language : String}

/-! ### Registrations -/

/-- The profile that a language was registered with last; `rs` are all registrations, oldest first. -/
def latest? (rs : List (GrammarProfile Parser)) (language : String) :
    Option (GrammarProfile Parser) := rs.reverse.find? (·.language == language)

/-- The language that was registered last under a name. -/
def leading? (rs : List (GrammarProfile Parser)) (name : String) : Option String :=
  (rs.reverse.find? (·.names.contains name)).map (·.language)

/-- One language was registered when another one was not yet. -/
def Precedes (rs : List (GrammarProfile Parser)) (a b : String) : Prop :=
  ∃ front, front <+: rs ∧ a ∈ front.map (·.language) ∧ b ∉ front.map (·.language)

/-- A profile is registered. -/
def Registered (rs : List (GrammarProfile Parser)) (p : GrammarProfile Parser) : Prop :=
  latest? rs p.language = some p

instance [DecidableEq Parser] (rs : List (GrammarProfile Parser)) (p : GrammarProfile Parser) :
    Decidable (Registered rs p) := inferInstanceAs (Decidable (_ = _))

/-- A registered profile claims the extension of a path. -/
structure Claims (rs : List (GrammarProfile Parser)) (p : GrammarProfile Parser) (path : String) :
    Prop where
  registered : Registered rs p
  extension : p.extensions.contains (Text.lower (Grammars.extension path)) = true

/-- Of the profiles that claim the extension of a path, this is the one whose language was registered
first. -/
structure ClaimsFirst (rs : List (GrammarProfile Parser)) (p : GrammarProfile Parser)
    (path : String) : Prop extends Claims rs p path where
  first : ∀ q, Claims rs q path → q.language ≠ p.language → Precedes rs p.language q.language

theorem latest?_concat (rs : List (GrammarProfile Parser)) (p : GrammarProfile Parser)
    (language : String) : latest? (rs ++ [p]) language =
      if p.language = language then some p else latest? rs language := by
  unfold latest?
  rw [List.reverse_append, List.reverse_singleton, List.singleton_append, List.find?_cons]
  by_cases h : p.language = language
  · rw [if_pos h, beq_iff_eq.2 h]
  · rw [if_neg h, beq_eq_false_iff_ne.2 h]

theorem leading?_concat (rs : List (GrammarProfile Parser)) (p : GrammarProfile Parser)
    (name : String) : leading? (rs ++ [p]) name =
      if p.names.contains name then some p.language else leading? rs name := by
  unfold leading?
  rw [List.reverse_append, List.reverse_singleton, List.singleton_append, List.find?_cons]
  cases p.names.contains name <;> rfl

theorem language_of_latest? (h : latest? rs language = some p) : p.language = language := by
  simpa using List.find?_some h

theorem mem_of_latest? (h : latest? rs language = some p) : p ∈ rs :=
  List.mem_reverse.1 (List.mem_of_find?_eq_some h)

/-- A language that is among the registrations has a latest one. -/
theorem exists_latest?_iff : (∃ p, latest? rs language = some p) ↔ language ∈ rs.map (·.language) := by
  rw [← Option.isSome_iff_exists, latest?, List.find?_isSome]
  simp

/-- A name leads to a language that is registered. -/
theorem exists_registered_of_leading? (h : leading? rs name = some language) :
    ∃ p, Registered rs p ∧ p.language = language := by
  obtain ⟨r, hr, rfl⟩ := Option.map_eq_some_iff.1 h
  have hmem : r.language ∈ rs.map (·.language) :=
    List.mem_map_of_mem (List.mem_reverse.1 (List.mem_of_find?_eq_some hr))
  obtain ⟨p, hp⟩ := exists_latest?_iff.2 hmem
  have hlanguage := language_of_latest? hp
  exact ⟨p, by rw [Registered, hlanguage, hp], hlanguage⟩

theorem Precedes.concat {a b : String} (h : Precedes rs a b) (p : GrammarProfile Parser) :
    Precedes (rs ++ [p]) a b := by
  obtain ⟨front, hfront, ha, hb⟩ := h
  exact ⟨front, hfront.trans (List.prefix_append _ _), ha, hb⟩

theorem Precedes.asymm {a b : String} (h : Precedes rs a b) : ¬Precedes rs b a := by
  rintro ⟨front, hfront, hb, ha⟩
  obtain ⟨front', hfront', ha', hb'⟩ := h
  rcases List.prefix_or_prefix_of_prefix hfront hfront' with hle | hle
  · exact hb' ((hle.map _).subset hb)
  · exact ha ((hle.map _).subset ha')

end GrammarProfile

open GrammarProfile

namespace Grammars

variable {g g' : Grammars Parser} {rs : List (GrammarProfile Parser)}
  {p q : GrammarProfile Parser} {d : Parser} {path : String} {declared : Option String}

/-! ### What the tables say -/

/-- The tables say what the registrations say, and every parser that is kept is up to date. -/
structure Reflects (g : Grammars Parser) (rs : List (GrammarProfile Parser)) : Prop where
  profiles : ∀ language, g.profiles.get? language = latest? rs language
  distinct : (g.profiles.map (·.1)).Nodup
  inOrder : (g.profiles.map (·.1)).Pairwise (Precedes rs)
  names : ∀ name, g.names.get? name = leading? rs name
  parsers : ∀ language d, g.parsers.get? language = some d →
    ∃ p, latest? rs language = some p ∧ p.parser = d

theorem reflects_empty : ({} : Grammars Parser).Reflects [] where
  profiles _ := rfl
  distinct := List.nodup_nil
  inOrder := .nil
  names _ := rfl
  parsers := nofun

/-- The languages of the profiles stand in the order in which they were first registered. -/
theorem Reflects.inOrder_put (h : g.Reflects rs) (p : GrammarProfile Parser) :
    ((g.profiles.put p.language p).map (·.1)).Pairwise (Precedes (rs ++ [p])) := by
  have hkept : (g.profiles.map (·.1)).Pairwise (Precedes (rs ++ [p])) :=
    h.inOrder.imp fun hab => hab.concat p
  unfold Table.put
  split
  · have hsame : (g.profiles.map fun e => if e.1 == p.language then (p.language, p) else e).map (·.1) =
        g.profiles.map (·.1) := by
      rw [List.map_map]
      refine List.map_congr_left fun e _ => ?_
      by_cases he : e.1 = p.language <;> simp [he]
    rwa [hsame]
  · rename_i hnew
    rw [List.map_append, List.pairwise_append]
    refine ⟨hkept, List.pairwise_singleton _ _, fun a ha b hb => ?_⟩
    obtain rfl : b = p.language := by simpa using hb
    -- Only the registrations before this one are compared: they have `a` and not the new language.
    refine ⟨rs, List.prefix_append _ _, ?_, fun hmem => hnew ?_⟩
    · obtain ⟨⟨a, r⟩, he, rfl⟩ := List.mem_map.1 ha
      exact exists_latest?_iff.1 ⟨r, by rw [← h.profiles, Table.get?_of_mem h.distinct he]⟩
    · obtain ⟨r, hr⟩ := exists_latest?_iff.2 hmem
      exact Table.has_of_get? ((h.profiles _).trans hr)

/-- **Registering.**  The tables then say what the registrations with the new one say: a parser of the
language that was kept is given up. -/
theorem Reflects.register (h : g.Reflects rs) (language : String) (extensions : List String)
    (parser : Parser) (aliases : List String) :
    (g.register language extensions parser aliases).2.Reflects
      (rs ++ [.of language extensions parser aliases]) where
  profiles other := by rw [Grammars.register, Table.get?_put, latest?_concat, h.profiles]
  distinct := Table.nodup_put h.distinct _ _
  inOrder := h.inOrder_put _
  names name := by
    rw [Grammars.register, Table.get?_foldl_put_const, leading?_concat, h.names]
  parsers other d hd := by
    rw [Grammars.register, Table.get?_erase] at hd
    rw [latest?_concat]
    split at hd
    · cases hd
    · rename_i hne
      rw [if_neg hne]
      exact h.parsers other d hd

/-- The language that a name for a parser leads to; an empty name leads nowhere. -/
def named? (rs : List (GrammarProfile Parser)) (name : Option String) : Option String :=
  name.bind fun n => if n.isEmpty then none else leading? rs (Text.normalizedKey n)

theorem Reflects.normalize?_eq (h : g.Reflects rs) (name : Option String) :
    g.normalize? name = named? rs name := by
  cases name with
  | none => rfl
  | some n => rw [normalize?, named?, Option.bind_some, h.names]

/-- A parser that is asked for under a name is that of the profile that the name leads to. -/
theorem Reflects.parser_ok (h : g.Reflects rs) {name : Option String}
    (hparser : g.parser name = .ok (d, g')) :
    (∃ p, named? rs name = some p.language ∧ Registered rs p ∧ p.parser = d) ∧ g'.Reflects rs := by
  rw [parser, h.normalize?_eq] at hparser
  rcases hname : named? rs name with _ | language <;> rw [hname] at hparser
  · cases hparser
  · dsimp only at hparser
    rcases hkept : g.parsers.get? language with _ | d' <;> rw [hkept] at hparser
    · rcases hprofile : g.profiles.get? language with _ | p <;> rw [hprofile] at hparser
      · cases hparser
      · obtain ⟨rfl, rfl⟩ := Prod.mk.inj (Except.ok.inj hparser)
        rw [h.profiles] at hprofile
        have hlanguage := language_of_latest? hprofile
        refine ⟨⟨p, by rw [hlanguage], by rw [Registered, hlanguage, hprofile], rfl⟩, ?_⟩
        refine ⟨h.profiles, h.distinct, h.inOrder, h.names, fun other d hd => ?_⟩
        rw [Table.get?_put] at hd
        split at hd
        · rename_i heq
          exact ⟨p, heq ▸ hprofile, Option.some.inj hd⟩
        · exact h.parsers other d hd
    · obtain ⟨rfl, rfl⟩ := Prod.mk.inj (Except.ok.inj hparser)
      obtain ⟨p, hp, hd⟩ := h.parsers _ _ hkept
      have hlanguage := language_of_latest? hp
      exact ⟨⟨p, by rw [hlanguage], by rw [Registered, hlanguage, hp], hd⟩, h⟩

/-- Under a name that leads to a profile its parser is given. -/
theorem Reflects.exists_parser (h : g.Reflects rs) {name : Option String}
    (hname : named? rs name = some p.language) (hp : Registered rs p) :
    ∃ g', g.parser name = .ok (p.parser, g') := by
  rw [parser, h.normalize?_eq, hname]
  dsimp only
  rcases hkept : g.parsers.get? p.language with _ | d
  · rw [h.profiles, hp]
    exact ⟨_, rfl⟩
  · obtain ⟨q, hq, rfl⟩ := h.parsers _ _ hkept
    obtain rfl := Option.some.inj (hp.symm.trans hq)
    exact ⟨_, rfl⟩

/-- A name gives a parser exactly when it leads to a profile with that parser. -/
theorem Reflects.parser_iff (h : g.Reflects rs) {name : Option String} :
    (∃ g', g.parser name = .ok (d, g')) ↔
      ∃ q, Registered rs q ∧ named? rs name = some q.language ∧ q.parser = d := by
  constructor
  · rintro ⟨g', hg⟩
    obtain ⟨⟨q, hname, hq, hd⟩, -⟩ := h.parser_ok hg
    exact ⟨q, hq, hname, hd⟩
  · rintro ⟨q, hq, hname, rfl⟩
    exact h.exists_parser hname hq

/-- The extension of a path leads to the language that claims it first. -/
theorem Reflects.detect?_eq (h : g.Reflects rs) (hp : ClaimsFirst rs p path) :
    g.detect? path = some p.language := by
  unfold detect?
  dsimp only
  have hmem : (p.language, p) ∈ g.profiles :=
    Table.mem_of_get? ((h.profiles _).trans hp.registered)
  have hfound : (g.profiles.find? fun e =>
      e.2.extensions.contains (Text.lower (extension path))).isSome := by
    rw [List.find?_isSome]
    exact ⟨_, hmem, hp.extension⟩
  obtain ⟨⟨language, q⟩, hq⟩ := Option.isSome_iff_exists.1 hfound
  rw [hq, Option.map_some]
  obtain ⟨hclaims, front, back, hsplit, hfront⟩ := List.find?_eq_some_iff_append.1 hq
  have hlatest : latest? rs language = some q := by
    rw [← h.profiles, Table.get?_of_mem h.distinct (List.mem_of_find?_eq_some hq)]
  obtain rfl := language_of_latest? hlatest
  by_contra hne
  have hne : q.language ≠ p.language := fun heq => hne (congrArg some heq)
  -- Whoever is found stands before the profile `p`, but `p` was registered before everyone else.
  have hbefore : Precedes rs q.language p.language := by
    have horder := h.inOrder
    rw [hsplit] at horder hmem
    rcases List.mem_append.1 hmem with hmem | hmem
    · have hnot := hfront _ hmem
      rw [hp.extension] at hnot
      cases hnot
    · rcases List.mem_cons.1 hmem with heq | hmem
      · exact absurd (congrArg Prod.fst heq).symm hne
      · rw [List.map_append, List.map_cons, List.pairwise_append, List.pairwise_cons] at horder
        exact horder.2.1.1 _ (List.mem_map_of_mem hmem)
  exact hbefore.asymm (hp.first q ⟨hlatest, hclaims⟩ hne)

/-! ### Calls -/

/-- A call that registers a grammar, or asks for a parser by a name or for a file. -/
inductive Call (Parser : Type)
  | register (language : String) (extensions : List String) (made : Parser) (aliases : List String)
  | parser (name : Option String)
  | parse (declared : Option String) (path : String)

/-- The grammars after someone was given a parser or was refused one. -/
def following (g : Grammars Parser) : Except Fault (Parser × Grammars Parser) → Grammars Parser
  | .ok (_, g') => g'
  | .error _ => g

namespace Call

/-- The grammars after a call. -/
def effect : Call Parser → Grammars Parser → Grammars Parser
  | .register language extensions made aliases, g =>
      (g.register language extensions made aliases).2
  | .parser name, g => g.following (g.parser name)
  | .parse declared path, g => g.following (g.parserFor declared path)

/-- The profile that a call registers. -/
def registered? : Call Parser → Option (GrammarProfile Parser)
  | .register language extensions made aliases => some (.of language extensions made aliases)
  | .parser _ => none
  | .parse _ _ => none

end Call

/-- The grammars after some calls. -/
def after (calls : List (Call Parser)) : Grammars Parser :=
  calls.foldl (fun g c => c.effect g) {}

/-- What some calls register, oldest first. -/
def registrations (calls : List (Call Parser)) : List (GrammarProfile Parser) :=
  calls.filterMap Call.registered?

theorem Reflects.following (h : g.Reflects rs) (name : Option String) :
    (g.following (g.parser name)).Reflects rs := by
  rcases hanswer : g.parser name with fault | ⟨d, g'⟩
  · exact h
  · exact (h.parser_ok hanswer).2

theorem Reflects.effect (h : g.Reflects rs) (c : Call Parser) :
    (c.effect g).Reflects (rs ++ c.registered?.toList) := by
  cases c with
  | register language extensions made aliases => exact h.register _ _ _ _
  | parser name =>
    rw [Call.registered?, Option.toList_none, List.append_nil]
    exact h.following name
  | parse declared path =>
    rw [Call.registered?, Option.toList_none, List.append_nil]
    exact h.following _

/-- **After any calls the tables say what was registered.** -/
theorem reflects_after (calls : List (Call Parser)) : (after calls).Reflects (registrations calls) := by
  suffices ∀ (g : Grammars Parser) rs, g.Reflects rs →
      (calls.foldl (fun g c => c.effect g) g).Reflects (rs ++ registrations calls) from
    this {} [] reflects_empty
  induction calls with
  | nil =>
    intro g rs h
    rwa [registrations, List.filterMap_nil, List.append_nil]
  | cons c rest ih =>
    intro g rs h
    have hrest := ih _ _ (h.effect c)
    have hregistered : registrations (c :: rest) = c.registered?.toList ++ registrations rest := by
      unfold registrations
      rw [List.filterMap_cons]
      cases c.registered? <;> rfl
    rwa [hregistered, ← List.append_assoc]

/-! ### The parser of a profile -/

/-- The name under which the parser for a file is looked up whose extension a profile claims.  A
language without letters and numerals does not count as one. -/
def soughtName (rs : List (GrammarProfile Parser)) (p : GrammarProfile Parser)
    (declared : Option String) : String :=
  if p.language.isEmpty then ((named? rs declared).filter (!·.isEmpty)).getD "javascript"
  else p.language

theorem Reflects.resolve_eq (h : g.Reflects rs) (hp : ClaimsFirst rs p path) (declared : Option String) :
    g.resolve declared path = soughtName rs p declared := by
  rw [resolve, h.detect?_eq hp, h.normalize?_eq, soughtName]
  by_cases hempty : p.language.isEmpty = true <;> simp [Option.filter, hempty]

/-- What the languages of all registered profiles are: keys of names. -/
theorem isKey_of_registered {calls : List (Call Parser)} (hp : Registered (registrations calls) p) :
    Text.normalizedKey p.language = p.language := by
  obtain ⟨c, -, hc⟩ := List.mem_filterMap.1 (mem_of_latest? hp)
  cases c with
  | register language extensions made aliases =>
    obtain rfl := Option.some.inj hc
    exact Text.normalizedKey_normalizedKey language
  | parser name => cases hc
  | parse declared path => cases hc

theorem isKey_soughtName {calls : List (Call Parser)} (hp : Registered (registrations calls) p)
    (declared : Option String) :
    Text.normalizedKey (soughtName (registrations calls) p declared) =
        soughtName (registrations calls) p declared ∧
      soughtName (registrations calls) p declared ≠ "" := by
  unfold soughtName
  by_cases hempty : p.language.isEmpty = true
  · rw [if_pos hempty]
    rcases hname : (named? (registrations calls) declared).filter (!·.isEmpty) with _ | language <;>
      rw [hname]
    · exact ⟨by decide +kernel, by decide⟩
    · obtain ⟨hnamed, hne⟩ := Option.filter_eq_some_iff.1 hname
      obtain ⟨n, -, hn⟩ := Option.bind_eq_some_iff.1 hnamed
      split at hn
      · cases hn
      · obtain ⟨q, hq, rfl⟩ := exists_registered_of_leading? hn
        exact ⟨isKey_of_registered hq, by simpa using hne⟩
  · rw [if_neg hempty]
    exact ⟨isKey_of_registered hp, by simpa using hempty⟩

/-- A key leads where it was registered last. -/
theorem named?_key {name : String} (hkey : Text.normalizedKey name = name) (hne : name ≠ "") :
    named? rs (some name) = leading? rs name := by
  rw [named?, Option.bind_some, if_neg (by simpa using hne), hkey]

/-- **Whose parser is given.**  After any calls, a name is answered with the parser of the profile that
it leads to, as the language of that was registered last: no parser outlives a registration of its
language.  The language of a profile gives the profile's parser, and a file whose extension the profile
claims first is read by it, exactly when the name that is looked up was registered last for the profile
itself, or else for one with the same parser. -/
theorem claimed_parser_iff (calls : List (Call Parser)) :
    (∀ name d, (∃ g', (after calls).parser name = .ok (d, g')) ↔
      ∃ q, Registered (registrations calls) q ∧
        named? (registrations calls) name = some q.language ∧ q.parser = d) ∧
    (∀ p, Registered (registrations calls) p →
      ((∃ g', (after calls).parser (some p.language) = .ok (p.parser, g')) ↔
        p.language ≠ "" ∧ ∃ q, Registered (registrations calls) q ∧
          leading? (registrations calls) p.language = some q.language ∧ q.parser = p.parser)) ∧
    ∀ p path declared, ClaimsFirst (registrations calls) p path →
      ((∃ g', (after calls).parserFor declared path = .ok (p.parser, g')) ↔
        ∃ q, Registered (registrations calls) q ∧
          leading? (registrations calls) (soughtName (registrations calls) p declared) =
            some q.language ∧ q.parser = p.parser) := by
  have h := reflects_after calls
  refine ⟨fun name d => h.parser_iff, fun p hp => ?_, fun p path declared hp => ?_⟩
  · rw [h.parser_iff]
    by_cases hempty : p.language = ""
    · simp [hempty, named?]
    · rw [named?_key (isKey_of_registered hp) hempty]
      simp [hempty]
  · obtain ⟨hkey, hne⟩ := isKey_soughtName hp.registered declared
    rw [parserFor, h.resolve_eq hp, h.parser_iff, named?_key hkey hne]

/-- Calls that register a language, read a file of it, and register it anew. -/
def renewed : List (Call Dialect) :=
  [.register "Vue" [".vue"] .javascript [], .parse none "a.vue",
    .register "Vue" [".vue"] .typescript ["Single file"]]

/-- The only profile that is left after `renewed`. -/
def renewedProfile : GrammarProfile := ⟨"vue", [".vue"], .typescript, ["Single file"]⟩

theorem claimsFirst_renewed : ClaimsFirst (registrations renewed) renewedProfile "pages/A.vue" where
  registered := by decide +kernel
  extension := by decide +kernel
  first q hq hne := by
    have hlanguages : ∀ r ∈ registrations renewed, r.language = renewedProfile.language := by
      decide +kernel
    exact absurd (hlanguages q (mem_of_latest? hq.registered)) hne

/-- The parser that was made before is given up: the file is read by the new one. -/
theorem claimed_parser_iff_renewed :
    (after renewed).parsers = [] ∧
    ((after (renewed.take 2)).parserFor none "pages/A.vue").toOption.map (·.1) =
      some .javascript ∧
    Registered (registrations renewed) renewedProfile ∧
    ClaimsFirst (registrations renewed) renewedProfile "pages/A.vue" ∧
    (∃ g', (after renewed).parser (some "vue") = .ok (.typescript, g')) ∧
    ∃ g', (after renewed).parserFor none "pages/A.vue" = .ok (.typescript, g') := by
  obtain ⟨-, hparser, hfile⟩ := claimed_parser_iff renewed
  have hregistered := claimsFirst_renewed.registered
  have hleading : leading? (registrations renewed) "vue" = some renewedProfile.language := by
    decide +kernel
  refine ⟨by decide +kernel, by decide +kernel, hregistered, claimsFirst_renewed, ?_, ?_⟩
  · exact (hparser _ hregistered).2 ⟨by decide, renewedProfile, hregistered, hleading, rfl⟩
  · exact (hfile _ _ none claimsFirst_renewed).2 ⟨renewedProfile, hregistered, hleading, rfl⟩

/-- Calls that register a language, and another one under a further name that is the first one. -/
def overtaken : List (Call Dialect) :=
  [.register "vue" [".vue"] .javascript [], .register "svelte" [".svelte"] .typescript ["Vue"]]

/-- The first of these profiles. -/
def overtakenProfile : GrammarProfile := ⟨"vue", [".vue"], .javascript, []⟩

/-- The only profile that claims an extension, as its language was registered last, does not get its
files once a later one has taken its name. -/
theorem claimed_file_overtaken :
    ClaimsFirst (registrations overtaken) overtakenProfile "a.vue" ∧
    ((after overtaken).parserFor none "a.vue").toOption.map (·.1) = some .typescript ∧
    ((after overtaken).parser (some overtakenProfile.language)).toOption.map (·.1) =
      some .typescript ∧
    overtakenProfile.parser = .javascript := by
  refine ⟨⟨⟨by decide +kernel, by decide +kernel⟩, fun q hq hne => ?_⟩, by decide +kernel,
    by decide +kernel, rfl⟩
  -- The other profile does not claim the extension.
  have hothers : ∀ r ∈ registrations overtaken, r.language = overtakenProfile.language ∨
      r.extensions.contains (Text.lower (extension "a.vue")) = false := by decide +kernel
  rcases hothers q (mem_of_latest? hq.registered) with hlanguage | hextension
  · exact absurd hlanguage hne
  · have hclaims := hq.extension
    rw [hextension] at hclaims
    cases hclaims

end Grammars

end WebMigration.Module
