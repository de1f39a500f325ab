import Mathlib.Logic.Relation
import WebMigration.Proofs.Text.Pattern

/-!
# Where a pattern matches

A pattern links two places of a text if it can be read from the first to the second.  The matcher finds a match
at a place exactly when the pattern links the place to another one, so removing all matches keeps only
characters at which no match starts.
-/

namespace WebMigration.Text.Pattern

variable {α : Type} {p : Pattern} {c d e : Cursor}

/-- The pattern can be read from one place to another. -/
def Links : Pattern → Cursor → Cursor → Prop
  | empty, c, d => d = c
  | one test, c, d => ∃ x r, c.rest = x :: r ∧ test x = true ∧
      d = { c with position := c.position + 1, before := x, rest := r }
  | wordEdge present, c, d => (c.isWordEdge == present) = true ∧ d = c
  | textStart, c, d => c.before.isNone = true ∧ d = c
  | textEnd, c, d => (c.rest.isEmpty || c.rest == ['\n']) = true ∧ d = c
  | lineStart, c, d => (c.before.isNone || c.before == '\n') = true ∧ d = c
  | lineEnd, c, d => (c.rest.isEmpty || c.rest.head? == '\n') = true ∧ d = c
  | both p q, c, d => ∃ e, p.Links c e ∧ q.Links e d
  | either p q, c, d => p.Links c d ∨ q.Links c d
  | many _ p, c, d => Relation.ReflTransGen (fun c d => p.Links c d ∧ c.position < d.position) c d
  | capture p, c, d => ∃ e, p.Links c e ∧
      d = { e with kept := c.rest.take (e.position - c.position) :: e.kept }

/-! ### The matcher -/

/-- A step goes on only at places that are linked. -/
def Follows (step : (Cursor → Option α) → Cursor → Option α) (links : Cursor → Cursor → Prop) : Prop :=
  ∀ next c a, step next c = Option.some a → ∃ d, links c d ∧ next d = Option.some a

/-- A step succeeds if it can go on at a place that is linked. -/
def Tries (step : (Cursor → Option α) → Cursor → Option α) (links : Cursor → Cursor → Prop) : Prop :=
  ∀ next c d, links c d → (next d).isSome = true → (step next c).isSome = true

theorem repeated_follows {step : (Cursor → Option α) → Cursor → Option α} {links : Cursor → Cursor → Prop}
    (hstep : Follows step links) {greedy : Bool} {next : Cursor → Option α} (fuel : Nat) {c : Cursor} {a : α}
    (h : repeated greedy step next fuel c = Option.some a) :
    ∃ d, Relation.ReflTransGen (fun c d => links c d ∧ c.position < d.position) c d ∧
      next d = Option.some a := by
  induction fuel generalizing c with
  | zero => exact ⟨c, .refl, h⟩
  | succ fuel ih =>
    rcases repeated_succ_cases h with hagain | hstop
    · obtain ⟨e, hlink, hrest⟩ := hstep _ _ _ hagain
      split at hrest
      · rename_i hforward
        obtain ⟨d, hmore, hnext⟩ := ih hrest
        exact ⟨d, .head ⟨hlink, hforward⟩ hmore, hnext⟩
      · cases hrest
    · exact ⟨c, .refl, hstop⟩

/-- The matcher goes on only at places that the pattern links. -/
theorem run_follows (p : Pattern) : Follows (α := α) p.run p.Links := by
  intro next c a h
  induction p generalizing next c a with
  | empty => exact ⟨c, rfl, h⟩
  | one test =>
    rw [run] at h
    split at h
    · rename_i x r hrest
      split at h
      · exact ⟨_, ⟨x, r, hrest, ‹_›, rfl⟩, h⟩
      · cases h
    · cases h
  | wordEdge | textStart | textEnd | lineStart | lineEnd =>
    rw [run] at h
    split at h
    · exact ⟨c, ⟨‹_›, rfl⟩, h⟩
    · cases h
  | both p q ihp ihq =>
    obtain ⟨d, hd, hq⟩ := ihp _ _ _ h
    obtain ⟨e, he, hnext⟩ := ihq _ _ _ hq
    exact ⟨e, ⟨d, hd, he⟩, hnext⟩
  | either p q ihp ihq =>
    rw [run] at h
    split at h
    · cases h
      obtain ⟨d, hd, hnext⟩ := ihp _ _ _ ‹_›
      exact ⟨d, .inl hd, hnext⟩
    · obtain ⟨d, hd, hnext⟩ := ihq _ _ _ h
      exact ⟨d, .inr hd, hnext⟩
  | many greedy p ih =>
    have hbody : Follows (α := α) p.run p.Links := ih
    exact repeated_follows hbody _ h
  | capture p ih =>
    obtain ⟨e, he, hnext⟩ := ih _ _ _ h
    exact ⟨_, ⟨e, he, rfl⟩, hnext⟩

/-- The places that a pattern links are places of one text. -/
theorem Links.reads (h : p.Links c d) : ∃ cs, c.Reads cs d := by
  induction p generalizing c d with
  | empty =>
    obtain rfl := h
    exact ⟨[], .refl _⟩
  | one test =>
    obtain ⟨x, r, hrest, -, rfl⟩ := h
    exact ⟨[x], hrest, rfl⟩
  | wordEdge | textStart | textEnd | lineStart | lineEnd =>
    obtain ⟨-, rfl⟩ := h
    exact ⟨[], .refl _⟩
  | both p q ihp ihq =>
    obtain ⟨e, hp, hq⟩ := h
    obtain ⟨front, hfront⟩ := ihp hp
    obtain ⟨back, hback⟩ := ihq hq
    exact ⟨front ++ back, hfront.trans hback⟩
  | either p q ihp ihq => exact h.elim ihp ihq
  | many greedy p ih =>
    induction h with
    | refl => exact ⟨[], .refl _⟩
    | tail _ hlast ihchain =>
      obtain ⟨front, hfront⟩ := ihchain
      obtain ⟨back, hback⟩ := ih hlast.1
      exact ⟨front ++ back, hfront.trans hback⟩
  | capture p ih =>
    obtain ⟨e, he, rfl⟩ := h
    obtain ⟨cs, hcs⟩ := ih he
    exact ⟨cs, hcs.rest, hcs.position⟩

theorem Links.length_lt (h : p.Links c d) (hforward : c.position < d.position) :
    d.rest.length < c.rest.length := by
  obtain ⟨cs, hcs⟩ := h.reads
  have hposition := hcs.position
  rw [hcs.rest, List.length_append]
  omega

/-- As many repetitions are tried as there are characters, so none that goes on is missed. -/
theorem repeated_tries {greedy : Bool} {next : Cursor → Option α} (hbody : Tries (α := α) p.run p.Links)
    (h : Relation.ReflTransGen (fun c d => p.Links c d ∧ c.position < d.position) c d)
    (hnext : (next d).isSome = true) {fuel : Nat} (hfuel : c.rest.length ≤ fuel) :
    (repeated greedy p.run next fuel c).isSome = true := by
  induction h using Relation.ReflTransGen.head_induction_on generalizing fuel with
  | refl =>
    cases fuel with
    | zero => exact hnext
    | succ fuel => rw [isSome_repeated_succ, hnext, Bool.or_true]
  | @head c e hfirst hrest ih =>
    obtain ⟨hlink, hforward⟩ := hfirst
    have hshorter := hlink.length_lt hforward
    cases fuel with
    | zero => omega
    | succ fuel =>
      have hlater := @ih fuel (by omega)
      have hagain := hbody (fun d => if c.position < d.position then repeated greedy p.run next fuel d else none)
        c e hlink
        (by rw [if_pos hforward]; exact hlater)
      rw [isSome_repeated_succ, hagain, Bool.true_or]

/-- The matcher succeeds if it can go on at a place that the pattern links. -/
theorem run_tries (p : Pattern) : Tries (α := α) p.run p.Links := by
  intro next c d h hnext
  induction p generalizing next c d with
  | empty =>
    obtain rfl := h
    exact hnext
  | one test =>
    obtain ⟨x, r, hrest, htest, rfl⟩ := h
    rw [run, hrest]
    simpa [htest] using hnext
  | wordEdge | textStart | textEnd | lineStart | lineEnd =>
    obtain ⟨hplace, rfl⟩ := h
    rw [run, if_pos hplace]
    exact hnext
  | both p q ihp ihq =>
    obtain ⟨e, hp, hq⟩ := h
    exact ihp _ _ _ hp (ihq _ _ _ hq hnext)
  | either p q ihp ihq =>
    rw [run]
    split
    · rfl
    · rename_i hnone
      rcases h with hp | hq
      · have hfirst := ihp _ _ _ hp hnext
        rw [hnone] at hfirst
        cases hfirst
      · exact ihq _ _ _ hq hnext
  | many greedy p ih =>
    have hbody : Tries (α := α) p.run p.Links := ih
    exact repeated_tries hbody h hnext (Nat.le_refl _)
  | capture p ih =>
    obtain ⟨e, he, rfl⟩ := h
    exact ih _ _ _ he hnext

/-- **There is a match at a place exactly when the pattern links the place to another one**, and the match is
one of these. -/
theorem matchAt?_spec (p : Pattern) (c : Cursor) :
    (∀ d, p.matchAt? c = Option.some d → p.Links { c with kept := [] } d) ∧
      (p.matchAt? c = none → ¬ ∃ d, p.Links { c with kept := [] } d) := by
  constructor
  · intro d h
    obtain ⟨e, he, hd⟩ := p.run_follows _ _ _ h
    obtain rfl := Option.some.inj hd
    exact he
  · rintro h ⟨d, hd⟩
    have hsome := p.run_tries Option.some _ _ hd rfl
    rw [← matchAt?, h] at hsome
    cases hsome

/-! ### Patterns of characters -/

/-- From one place to another some characters are passed. -/
structure Cursor.Passes (c : Cursor) (cs : List Char) (d : Cursor) : Prop where
  rest : c.rest = cs ++ d.rest
  position : d.position = c.position + cs.length
  before : d.before = cs.getLast?.or c.before
  kept : d.kept = c.kept

namespace Cursor.Passes

theorem refl (c : Cursor) : c.Passes [] c := ⟨rfl, rfl, rfl, rfl⟩

theorem eq_of_nil (h : c.Passes [] d) : d = c := by
  obtain ⟨hrest, hposition, hbefore, hkept⟩ := h
  cases c
  cases d
  simp_all

theorem trans {front back : List Char} (h : c.Passes front e) (h' : e.Passes back d) :
    c.Passes (front ++ back) d where
  rest := by rw [h.rest, h'.rest, List.append_assoc]
  position := by rw [h'.position, h.position, List.length_append, Nat.add_assoc]
  before := by
    rw [h'.before, h.before, List.getLast?_append]
    cases back.getLast? <;> rfl
  kept := h'.kept.trans h.kept

/-- There is a place between two texts that are passed one after the other. -/
theorem exists_between {front back : List Char} (h : c.Passes (front ++ back) d) :
    ∃ e, c.Passes front e ∧ e.Passes back d := by
  let e : Cursor := ⟨c.position + front.length, front.getLast?.or c.before, back ++ d.rest, c.kept⟩
  have hfront : c.Passes front e := ⟨by rw [h.rest, List.append_assoc], rfl, rfl, rfl⟩
  refine ⟨e, hfront, rfl, ?_, ?_, h.kept⟩
  · rw [h.position, List.length_append, ← Nat.add_assoc]
  · rw [h.before, List.getLast?_append]
    cases back.getLast? <;> rfl

theorem exists_of_rest {cs r : List Char} (h : c.rest = cs ++ r) : ∃ d, c.Passes cs d ∧ d.rest = r :=
  ⟨⟨c.position + cs.length, cs.getLast?.or c.before, r, c.kept⟩, ⟨h, rfl, rfl, rfl⟩, rfl⟩

end Cursor.Passes

theorem links_one_iff {test : Char → Bool} : (one test).Links c d ↔ ∃ x, test x = true ∧ c.Passes [x] d := by
  constructor
  · rintro ⟨x, r, hrest, htest, rfl⟩
    exact ⟨x, htest, hrest, rfl, rfl, rfl⟩
  · rintro ⟨x, htest, h⟩
    refine ⟨x, d.rest, h.rest, htest, ?_⟩
    obtain ⟨hrest, hposition, hbefore, hkept⟩ := h
    cases d
    simp_all

theorem links_many_one_iff {greedy : Bool} {test : Char → Bool} :
    (many greedy (one test)).Links c d ↔ ∃ cs, (∀ x ∈ cs, test x = true) ∧ c.Passes cs d := by
  constructor
  · intro h
    induction h with
    | refl => exact ⟨[], List.forall_mem_nil _, .refl _⟩
    | tail _ hlast ih =>
      obtain ⟨cs, hcs, hpasses⟩ := ih
      obtain ⟨x, hx, hone⟩ := links_one_iff.1 hlast.1
      refine ⟨cs ++ [x], ?_, hpasses.trans hone⟩
      intro y hy
      rcases List.mem_append.1 hy with hy | hy
      · exact hcs y hy
      · exact List.mem_singleton.1 hy ▸ hx
  · rintro ⟨cs, hcs, h⟩
    induction cs generalizing c with
    | nil =>
      obtain rfl := h.eq_of_nil
      exact .refl
    | cons x cs ih =>
      obtain ⟨hx, hcs⟩ := List.forall_mem_cons.1 hcs
      obtain ⟨e, hone, hmore⟩ := @Cursor.Passes.exists_between c d [x] cs h
      refine .head ⟨links_one_iff.2 ⟨x, hx, hone⟩, ?_⟩ (ih hcs hmore)
      rw [hone.position]
      exact Nat.lt_succ_self _

theorem links_some_one_iff {greedy : Bool} {test : Char → Bool} :
    (some greedy (one test)).Links c d ↔ ∃ cs, cs ≠ [] ∧ (∀ x ∈ cs, test x = true) ∧ c.Passes cs d := by
  constructor
  · rintro ⟨e, hfirst, hmore⟩
    obtain ⟨x, hx, hone⟩ := links_one_iff.1 hfirst
    obtain ⟨cs, hcs, hpasses⟩ := links_many_one_iff.1 hmore
    exact ⟨x :: cs, List.cons_ne_nil _ _, List.forall_mem_cons.2 ⟨hx, hcs⟩, hone.trans hpasses⟩
  · rintro ⟨cs, hne, hcs, h⟩
    obtain ⟨x, cs, rfl⟩ := List.exists_cons_of_ne_nil hne
    obtain ⟨hx, hcs⟩ := List.forall_mem_cons.1 hcs
    obtain ⟨e, hone, hmore⟩ := @Cursor.Passes.exists_between c d [x] cs h
    exact ⟨e, links_one_iff.2 ⟨x, hx, hone⟩, links_many_one_iff.2 ⟨cs, hcs, hmore⟩⟩

theorem links_literal_iff {s : String} : (literal s).Links c d ↔ c.Passes s.toList d := by
  unfold literal
  generalize s.toList = expected
  induction expected generalizing c with
  | nil =>
    constructor
    · rintro rfl
      exact .refl _
    · exact Cursor.Passes.eq_of_nil
  | cons x rest ih =>
    constructor
    · rintro ⟨e, hfirst, hmore⟩
      obtain ⟨y, hy, hone⟩ := links_one_iff.1 hfirst
      rw [← eq_of_beq hy]
      exact hone.trans (ih.1 hmore)
    · intro h
      obtain ⟨e, hone, hmore⟩ := @Cursor.Passes.exists_between c d [x] rest h
      exact ⟨e, links_one_iff.2 ⟨x, beq_self_eq_true x, hone⟩, ih.2 hmore⟩

/-! ### Removing all matches -/

/-- From a place on, a text and what is left of it: a character stays only where no match starts. -/
inductive Swept (p : Pattern) : Cursor → List Char → Prop
  | nil {c : Cursor} (hrest : c.rest = []) : Swept p c []
  | keep {c : Cursor} {x : Char} {r left : List Char} (hrest : c.rest = x :: r) (h : ¬ ∃ d, p.Links { c with kept := [] } d)
      (hlater : Swept p ⟨c.position + 1, x, r, []⟩ left) : Swept p c (x :: left)
  | remove {c d : Cursor} {left : List Char} (h : p.Links { c with kept := [] } d) (hlater : Swept p d left) : Swept p c left

/-- A pattern that matches no empty text is removed wherever it can be. -/
theorem swept_matchesFrom (hfull : ∀ c d, p.Links c d → c.position < d.position) {fuel : Nat} {c : Cursor}
    (hfuel : c.rest.length < fuel) :
    Swept p c (replaceRanges [] c.position c.rest (p.matchesFrom fuel c)) := by
  induction fuel generalizing c with
  | zero => cases hfuel
  | succ fuel ih =>
    obtain ⟨hfound, hnone⟩ := p.matchAt?_spec c
    rw [matchesFrom]
    split
    · rename_i d hd
      have hlink := hfound d hd
      have hforward : c.position < d.position := hfull { c with kept := [] } d hlink
      have hshorter : d.rest.length < c.rest.length := @Links.length_lt p { c with kept := [] } d hlink hforward
      obtain ⟨cs, -, hread⟩ := matchAt?_sound hd
      rw [replaceRanges_match hread, if_pos hforward]
      exact .remove hlink (ih (by omega))
    · rename_i hd
      split
      · rename_i x r hrest
        rw [hrest, replaceRanges_cons fun m hm => from_of_mem_matchesFrom hm]
        refine .keep hrest (hnone hd) (ih ?_)
        rw [hrest, List.length_cons] at hfuel
        exact Nat.lt_of_succ_lt_succ hfuel
      · rename_i hrest
        rw [hrest]
        exact .nil hrest

theorem swept_removeAll (hfull : ∀ c d, p.Links c d → c.position < d.position) (s : String) :
    Swept p (Cursor.start s.toList) (p.removeAll s).toList := by
  have hfuel : (Cursor.start s.toList).rest.length < 2 * s.length + 2 := by
    have hlength : s.toList.length = s.length := rfl
    show s.toList.length < _
    omega
  rw [removeAll, replaceAll, String.toList_ofList]
  exact swept_matchesFrom hfull hfuel

end WebMigration.Text.Pattern
