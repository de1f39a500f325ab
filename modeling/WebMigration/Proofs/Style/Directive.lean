import WebMigration.Proofs.Style.Reading
import WebMigration.Proofs.Text.Matching

/-!
# Directives on lines of their own

The pattern for directives removes a directive with the blanks around it, from the start of one line to the end
of another.  Every directive that stands alone on its lines is removed: of the characters that stay, no semicolon
ends one.
-/

namespace WebMigration.Style

open Text
open Pattern (Cursor Links Swept)

variable {before after front lead core trail cs m rest kept : List Char} {c d : Cursor}

/-! ### Lines -/

/-- A line starts behind the characters. -/
def StartsLine (before : List Char) : Prop := before = [] ∨ before.getLast? = some '\n'

/-- A line ends in front of the characters. -/
def EndsLine (after : List Char) : Prop := after = [] ∨ after.head? = some '\n'

/-- The characters are blank. -/
def Blank (cs : List Char) : Prop := ∀ c ∈ cs, isSpace c = true

theorem Blank.nil : Blank [] := List.forall_mem_nil _

theorem Blank.append (h : Blank front) (h' : Blank rest) : Blank (front ++ rest) :=
  fun c hc => (List.mem_append.1 hc).elim (h c) (h' c)

theorem Blank.left (h : Blank (front ++ rest)) : Blank front := fun c hc => h c (List.mem_append_left _ hc)

theorem Blank.right (h : Blank (front ++ rest)) : Blank rest := fun c hc => h c (List.mem_append_right _ hc)

/-- The characters of a directive up to its semicolon. -/
def IsCore (core : List Char) : Prop :=
  ∃ gap name after, gap ≠ [] ∧ Blank gap ∧ name ≠ [] ∧ (∀ c ∈ name, (isWord c || c == '-') = true) ∧ Blank after ∧
    core = "@tailwind".toList ++ (gap ++ (name ++ after))

/-- Behind the characters stands a semicolon that ends a directive, alone on its lines. -/
def EndsAlone (before after : List Char) : Prop :=
  ∃ front lead core trail rest, before = front ++ (lead ++ core) ∧ StartsLine front ∧ Blank lead ∧ IsCore core ∧
    after = trail ++ rest ∧ Blank trail ∧ EndsLine rest

theorem isDirective_iff :
    IsDirective m ↔ ∃ lead core trail, Blank lead ∧ IsCore core ∧ Blank trail ∧ m = lead ++ (core ++ ';' :: trail) := by
  constructor
  · rintro ⟨lead, gap, name, after, trail, hlead, hgap, hname, hafter, htrail, rfl⟩
    exact ⟨lead, _, trail, hlead, ⟨gap, name, after, hgap.1, hgap.2, hname.1, hname.2, hafter, rfl⟩, htrail,
      by simp⟩
  · rintro ⟨lead, core, trail, hlead, ⟨gap, name, after, hne, hgap, hname, hword, hafter, rfl⟩, htrail, rfl⟩
    exact ⟨lead, gap, name, after, trail, hlead, ⟨hne, hgap⟩, ⟨hname, hword⟩, hafter, htrail, by simp⟩

/-- A directive is written with blanks, letters, digits, hyphens and an at sign. -/
theorem IsCore.forall_mem {P : Char → Prop} (h : IsCore core) (hspace : ∀ c, isSpace c = true → P c)
    (hword : ∀ c, (isWord c || c == '-') = true → P c) (hat : P '@') : ∀ c ∈ core, P c := by
  obtain ⟨gap, name, after, -, hgap, -, hname, hafter, rfl⟩ := h
  have htailwind : "tailwind".toList.all isWord = true := by decide
  intro c hc
  rw [show "@tailwind".toList = '@' :: "tailwind".toList from rfl, List.cons_append, List.mem_cons,
    List.mem_append, List.mem_append, List.mem_append] at hc
  rcases hc with rfl | hc | hc | hc | hc
  · exact hat
  · exact hword c (by rw [List.all_eq_true.1 htailwind c hc]; rfl)
  · exact hspace c (hgap c hc)
  · exact hword c (hname c hc)
  · exact hspace c (hafter c hc)

theorem IsCore.exists_cons (h : IsCore core) : ∃ more, core = '@' :: more := by
  obtain ⟨gap, name, after, -, -, -, -, -, rfl⟩ := h
  exact ⟨_, rfl⟩

theorem IsCore.not_mem {c : Char} (h : IsCore core) (hspace : isSpace c = false)
    (hword : (isWord c || c == '-') = false) (hat : c ≠ '@') : c ∉ core := by
  intro hc
  refine h.forall_mem (P := (· ≠ c)) ?_ ?_ hat.symm c hc rfl
  · rintro d hd rfl
    rw [hspace] at hd
    cases hd
  · rintro d hd rfl
    rw [hword] at hd
    cases hd

theorem Blank.not_mem {c : Char} (h : Blank cs) (hc : isSpace c = false) : c ∉ cs := by
  intro hmem
  rw [h c hmem] at hc
  cases hc

/-- Blanks are passed up to the at sign of a directive. -/
theorem Blank.exists_of_append {lead' rest' : List Char} (h : Blank lead)
    (heq : lead ++ rest = lead' ++ '@' :: rest') : ∃ more, lead' = lead ++ more ∧ rest = more ++ '@' :: rest' := by
  rcases List.append_eq_append_iff.1 heq with ⟨more, hmore, hrest⟩ | ⟨more, hmore, hrest⟩
  · exact ⟨more, hmore, hrest⟩
  · cases more with
    | nil => exact ⟨[], by simpa using hmore.symm, by simpa using hrest.symm⟩
    | cons x more =>
      obtain rfl := (List.cons.inj hrest).1
      exact absurd (hmore ▸ List.mem_append_right _ List.mem_cons_self) (h.not_mem (by decide))

/-! ### Places of directives -/

/-- From the start of a line to the end of one, a directive stands at the place. -/
def StandsAt (before cs : List Char) : Prop :=
  StartsLine before ∧ ∃ m rest, cs = m ++ rest ∧ IsDirective m ∧ EndsLine rest

theorem StandsAt.exists_mem (h : StandsAt before cs) : '@' ∈ cs := by
  obtain ⟨-, m, rest, rfl, hm, -⟩ := h
  obtain ⟨lead, core, trail, -, hcore, -, rfl⟩ := isDirective_iff.1 hm
  obtain ⟨more, rfl⟩ := hcore.exists_cons
  simp

/-- A directive also stands behind some of the blanks in front of it, if a line starts there. -/
theorem StandsAt.of_blank (h : StandsAt front (lead ++ cs)) (hlead : Blank lead) (hstart : StartsLine before) :
    StandsAt before cs := by
  obtain ⟨-, m, rest, heq, hm, hend⟩ := h
  obtain ⟨lead', core, trail, hlead', hcore, htrail, rfl⟩ := isDirective_iff.1 hm
  obtain ⟨more, rfl⟩ := hcore.exists_cons
  rw [List.append_assoc, List.cons_append] at heq
  obtain ⟨gap, rfl, rfl⟩ := hlead.exists_of_append heq
  refine ⟨hstart, gap ++ ('@' :: more ++ ';' :: trail), rest, by simp, isDirective_iff.2 ?_, hend⟩
  exact ⟨gap, '@' :: more, trail, hlead'.right, hcore, htrail, rfl⟩

theorem EndsAlone.standsAt (h : EndsAlone before after) :
    ∃ front lead core, before = front ++ (lead ++ core) ∧ Blank lead ∧ IsCore core ∧
      StandsAt front (lead ++ (core ++ ';' :: after)) := by
  obtain ⟨front, lead, core, trail, rest, hbefore, hstart, hlead, hcore, rfl, htrail, hend⟩ := h
  refine ⟨front, lead, core, hbefore, hlead, hcore, hstart, lead ++ (core ++ ';' :: trail), rest, by simp, ?_, hend⟩
  exact isDirective_iff.2 ⟨lead, core, trail, hlead, hcore, htrail, rfl⟩

section Links

theorem startsLine_iff (hbefore : c.before = before.getLast?) :
    (c.before.isNone || c.before == '\n') = true ↔ StartsLine before := by
  rw [hbefore, StartsLine]
  cases hlast : before.getLast? with
  | none => simpa using List.getLast?_eq_none_iff.1 hlast
  | some x =>
    have hne : before ≠ [] := by
      rintro rfl
      cases hlast
    simp [hne]

theorem endsLine_iff : (d.rest.isEmpty || d.rest.head? == '\n') = true ↔ EndsLine d.rest := by
  simp [EndsLine]

/-- The pattern links places with a directive between them, from the start of a line to the end of one. -/
theorem links_directiveLine_iff (hbefore : c.before = before.getLast?) :
    directiveLine.Links c d ↔
      StartsLine before ∧ EndsLine d.rest ∧ ∃ m, IsDirective m ∧ c.Passes m d := by
  rw [← startsLine_iff hbefore, ← endsLine_iff]
  unfold directiveLine Pattern.all
  constructor
  · rintro ⟨_, ⟨hstart, rfl⟩, c₁, hlead, c₂, hat, c₃, hgap, c₄, hname, c₅, hafter, c₆, hsemicolon, c₇, htrail, _,
      ⟨hend, rfl⟩, rfl⟩
    obtain ⟨lead, hblank, h₁⟩ := Pattern.links_many_one_iff.1 hlead
    have h₂ := Pattern.links_literal_iff.1 hat
    obtain ⟨gap, hne, hgap, h₃⟩ := Pattern.links_some_one_iff.1 hgap
    obtain ⟨name, hname, hword, h₄⟩ := Pattern.links_some_one_iff.1 hname
    obtain ⟨after, hafter, h₅⟩ := Pattern.links_many_one_iff.1 hafter
    have h₆ := Pattern.links_literal_iff.1 hsemicolon
    obtain ⟨trail, htrail, h₇⟩ := Pattern.links_many_one_iff.1 htrail
    have hcore : IsCore ("@tailwind".toList ++ (gap ++ (name ++ after))) :=
      ⟨gap, name, after, hne, hgap, hname, hword, hafter, rfl⟩
    refine ⟨hstart, hend, _, isDirective_iff.2 ⟨lead, _, trail, hblank, hcore, htrail, rfl⟩, ?_⟩
    exact h₁.trans ((h₂.trans (h₃.trans (h₄.trans h₅))).trans (h₆.trans h₇))
  · rintro ⟨hstart, hend, m, hm, h⟩
    obtain ⟨lead, core, trail, hlead, hcore, htrail, rfl⟩ := isDirective_iff.1 hm
    obtain ⟨gap, name, after, hne, hgap, hname, hword, hafter, rfl⟩ := hcore
    obtain ⟨c₁, h₁, h⟩ := h.exists_between
    obtain ⟨c₅, hcore, h⟩ := h.exists_between
    obtain ⟨c₂, h₂, hcore⟩ := hcore.exists_between
    obtain ⟨c₃, h₃, hcore⟩ := hcore.exists_between
    obtain ⟨c₄, h₄, h₅⟩ := hcore.exists_between
    obtain ⟨c₆, h₆, h₇⟩ := @Cursor.Passes.exists_between c₅ d [';'] trail h
    exact ⟨c, ⟨hstart, rfl⟩, c₁, Pattern.links_many_one_iff.2 ⟨lead, hlead, h₁⟩,
      c₂, Pattern.links_literal_iff.2 h₂, c₃, Pattern.links_some_one_iff.2 ⟨gap, hne, hgap, h₃⟩,
      c₄, Pattern.links_some_one_iff.2 ⟨name, hname, hword, h₄⟩,
      c₅, Pattern.links_many_one_iff.2 ⟨after, hafter, h₅⟩, c₆, Pattern.links_literal_iff.2 h₆,
      d, Pattern.links_many_one_iff.2 ⟨trail, htrail, h₇⟩, d, ⟨hend, rfl⟩, rfl⟩

theorem exists_links_iff (hbefore : c.before = before.getLast?) :
    (∃ d, directiveLine.Links c d) ↔ StandsAt before c.rest := by
  constructor
  · rintro ⟨d, h⟩
    obtain ⟨hstart, hend, m, hm, hpasses⟩ := (links_directiveLine_iff hbefore).1 h
    exact ⟨hstart, m, d.rest, hpasses.rest, hm, hend⟩
  · rintro ⟨hstart, m, rest, hrest, hm, hend⟩
    obtain ⟨d, hpasses, rfl⟩ := Pattern.Cursor.Passes.exists_of_rest hrest
    exact ⟨d, (links_directiveLine_iff hbefore).2 ⟨hstart, hend, m, hm, hpasses⟩⟩

theorem position_lt_of_links (h : directiveLine.Links c d) : c.position < d.position := by
  obtain ⟨before, hbefore⟩ : ∃ before : List Char, c.before = before.getLast? := by
    cases hc : c.before with
    | none => exact ⟨[], rfl⟩
    | some x => exact ⟨[x], rfl⟩
  obtain ⟨-, -, m, hm, hpasses⟩ := (links_directiveLine_iff hbefore).1 h
  obtain ⟨lead, core, trail, -, -, -, rfl⟩ := isDirective_iff.1 hm
  rw [hpasses.position, List.length_append, List.length_append, List.length_cons]
  omega

end Links

/-! ### What is left -/

/-- A text and what is left of it without directives on lines of their own: no semicolon that stays ends such a
directive. -/
inductive Cleaned : List Char → List Char → List Char → Prop
  | nil {before : List Char} : Cleaned before [] []
  | keep {before cs kept : List Char} {x : Char} (h : x = ';' → ¬ EndsAlone before cs)
      (hlater : Cleaned (before ++ [x]) cs kept) : Cleaned before (x :: cs) (x :: kept)
  | remove {before m cs kept : List Char} (hm : IsDirective m) (hstart : StartsLine before) (hend : EndsLine cs)
      (hlater : Cleaned (before ++ m) cs kept) : Cleaned before (m ++ cs) kept

/-- Between two places of the search, no directive has been passed over: one that can be seen from the start of
the line is found here, or behind the next line end. -/
structure Searched (before cs : List Char) : Prop where
  ahead : ∀ front lead, before = front ++ lead → Blank lead → StandsAt front (lead ++ cs) →
    StandsAt before cs ∨ cs.head? = some '\n'
  within : ∀ front lead core, before = front ++ (lead ++ core) → Blank lead → core.head? = some '@' → ';' ∉ core →
    ¬ StandsAt front (lead ++ (core ++ cs))

theorem Searched.start (cs : List Char) : Searched [] cs where
  ahead := by
    intro front lead h _ hstands
    obtain ⟨rfl, rfl⟩ := List.append_eq_nil_iff.1 h.symm
    exact .inl hstands
  within := by
    intro front lead core h _ hcore
    obtain ⟨-, h⟩ := List.append_eq_nil_iff.1 h.symm
    rw [(List.append_eq_nil_iff.1 h).2] at hcore
    cases hcore

theorem Searched.keep {x : Char} (h : Searched before (x :: cs)) (hno : ¬ StandsAt before (x :: cs)) :
    Searched (before ++ [x]) cs where
  ahead := by
    intro front lead hbefore hlead hstands
    rcases List.eq_nil_or_concat lead with rfl | ⟨lead, y, rfl⟩
    · rw [List.append_nil] at hbefore
      exact .inl (hbefore ▸ hstands)
    · rw [List.concat_eq_append] at hbefore hlead hstands
      rw [← List.append_assoc] at hbefore
      obtain ⟨rfl, hy⟩ := List.append_inj' hbefore rfl
      obtain rfl := (List.cons.inj hy).1
      rw [List.append_assoc] at hstands
      rcases h.ahead front lead rfl hlead.left hstands with hhere | hend
      · exact absurd hhere hno
      · obtain rfl := Option.some.inj hend
        rw [← List.append_assoc] at hstands
        exact .inl (hstands.of_blank hlead (.inr List.getLast?_concat))
  within := by
    intro front lead core hbefore hlead hat hsemicolon hstands
    rcases List.eq_nil_or_concat core with rfl | ⟨core, y, rfl⟩
    · cases hat
    · rw [List.concat_eq_append] at hbefore hat hsemicolon hstands
      rw [← List.append_assoc, ← List.append_assoc] at hbefore
      obtain ⟨rfl, hy⟩ := List.append_inj' hbefore rfl
      obtain rfl := (List.cons.inj hy).1
      rw [List.append_assoc, List.singleton_append] at hstands
      cases core with
      | nil =>
        obtain rfl := Option.some.inj hat
        rcases h.ahead front lead (List.append_nil _) hlead hstands with hhere | hend
        · exact hno hhere
        · cases hend
      | cons z core =>
        refine h.within front lead (z :: core) (List.append_assoc _ _ _) hlead hat ?_ hstands
        exact fun hmem => hsemicolon (List.mem_append_left _ hmem)

theorem Searched.remove (hm : IsDirective m) (hend : EndsLine cs) : Searched (before ++ m) cs := by
  obtain ⟨lead₀, core₀, trail, -, -, htrail, rfl⟩ := isDirective_iff.1 hm
  constructor
  · intro front lead _ hlead hstands
    rcases hend with rfl | hend
    · rw [List.append_nil] at hstands
      exact absurd hstands.exists_mem (hlead.not_mem (by decide))
    · exact .inr hend
  · intro front lead core hbefore hlead hat hsemicolon hstands
    -- A text without a semicolon at the end of the directive is one of the blanks behind it.
    have hcore : core <:+ trail := by
      have hdirective : ';' :: trail <:+ before ++ (lead₀ ++ (core₀ ++ ';' :: trail)) :=
        ⟨before ++ (lead₀ ++ core₀), by simp⟩
      have hall : core <:+ before ++ (lead₀ ++ (core₀ ++ ';' :: trail)) := ⟨front ++ lead, by simp [hbefore]⟩
      rcases List.suffix_or_suffix_of_suffix hall hdirective with h | h
      · exact (List.suffix_cons_iff.1 h).resolve_left fun heq => hsemicolon (heq ▸ List.mem_cons_self)
      · exact absurd (h.subset List.mem_cons_self) hsemicolon
    obtain ⟨core, rfl⟩ := List.head?_eq_some_iff.1 hat
    exact htrail.not_mem (by decide) (hcore.subset List.mem_cons_self)

theorem cleaned_of_swept {c : Cursor} (h : Swept directiveLine c kept) (hbefore : c.before = before.getLast?)
    (hsearched : Searched before c.rest) : Cleaned before c.rest kept := by
  induction h generalizing before with
  | nil hrest =>
    rw [hrest]
    exact .nil
  | @keep c x r kept hrest hno hlater ih =>
    rw [@exists_links_iff before { c with kept := [] } hbefore, hrest] at hno
    rw [hrest] at hsearched ⊢
    refine .keep ?_ (ih ?_ (hsearched.keep hno))
    · rintro rfl hends
      obtain ⟨front, lead, core, rfl, hlead, hcore, hstands⟩ := hends.standsAt
      refine hsearched.within front lead core rfl hlead ?_ (hcore.not_mem (by decide) (by decide) (by decide)) hstands
      obtain ⟨more, rfl⟩ := hcore.exists_cons
      rfl
    · rw [List.getLast?_concat]
  | @remove c d kept h hlater ih =>
    obtain ⟨hstart, hend, m, hm, hpasses⟩ := (@links_directiveLine_iff before { c with kept := [] } d hbefore).1 h
    have hrest : c.rest = m ++ d.rest := hpasses.rest
    rw [hrest]
    refine .remove hm hstart hend (ih ?_ (.remove hm hend))
    rw [hpasses.before, List.getLast?_append]
    exact congrArg _ hbefore

/-- **A style sheet without its directive lines**: every directive alone on its lines is gone. -/
theorem cleaned_removeAll (css : String) : Cleaned [] css.toList (directiveLine.removeAll css).toList := by
  have hswept := Pattern.swept_removeAll (fun _ _ => position_lt_of_links) css
  exact cleaned_of_swept hswept rfl (.start _)

end WebMigration.Style
