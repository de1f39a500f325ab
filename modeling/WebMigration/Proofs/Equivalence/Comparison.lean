import Mathlib.Algebra.Order.Ring.Abs
import WebMigration.Equivalence.Comparison
import WebMigration.Proofs.Module.Source
import WebMigration.Proofs.Number.Exact

/-!
# The guard on the structure of a rewrite

A fingerprint counts the named nodes of each category in the whole tree of a file.  Two files count as
equivalent exactly if both parse and each count keeps within the tolerance for its category.
-/

namespace WebMigration

open Syntax
open WebMigration.Module (Salvage Source)
open Number (Binary64)

/-! ### Nodes of a category -/

namespace Syntax.Node

mutual

/-- The number of the nodes of a tree that pass a test. -/
def tally (test : Node → Bool) : Node → Nat
  | ⟨kind, field, start, stop, children⟩ =>
      (if test ⟨kind, field, start, stop, children⟩ then 1 else 0) + tallyList test children

/-- The number of the nodes of some trees that pass a test. -/
def tallyList (test : Node → Bool) : List Node → Nat
  | [] => 0
  | n :: rest => n.tally test + tallyList test rest

end

mutual

theorem countP_preorder (test : Node → Bool) : ∀ n : Node, n.preorder.countP test = n.tally test
  | ⟨kind, field, start, stop, children⟩ => by
    rw [preorder, tally, List.countP_cons, countP_preorderList test children, Nat.add_comm]

theorem countP_preorderList (test : Node → Bool) :
    ∀ nodes : List Node, (preorderList nodes).countP test = tallyList test nodes
  | [] => rfl
  | n :: rest => by
    rw [preorderList, tallyList, List.countP_append, countP_preorder test n,
      countP_preorderList test rest]

end

end Syntax.Node

/-- What the nodes that are counted have in common. -/
inductive Category
  | functions | conditionals | loops | returns | elements
  deriving DecidableEq, Repr

namespace Category

/-- The kinds of the nodes of a category. -/
def kinds : Category → List Kind
  | functions => [.functionDeclaration, .generatorFunctionDeclaration, .methodDefinition,
      .functionExpression, .generatorFunction, .arrowFunction]
  | conditionals => [.ifStatement, .ternaryExpression, .switchStatement]
  | loops => [.forStatement, .forInStatement, .whileStatement, .doStatement]
  | returns => [.returnStatement]
  | elements => [.jsxElement, .jsxSelfClosingElement]

/-- Whether a node is a named node of a category. -/
def has (c : Category) (n : Node) : Bool := n.isNamed && c.kinds.contains n.kind

/-- The number of the named nodes of a category in a tree. -/
def count (c : Category) (tree : Node) : Nat := tree.tally c.has

/-- What holds for a category, where markup elements are treated apart. -/
def pick {α : Type} (controlFlow elements : α) : Category → α
  | .elements => elements
  | _ => controlFlow

/-- The number of a category in a fingerprint. -/
def counted (f : Fingerprint) : Category → Nat
  | functions => f.functions.length
  | conditionals => f.conditionals
  | loops => f.loops
  | returns => f.returns
  | elements => f.elements

theorem forall_iff {p : Category → Prop} : (∀ c, p c) ↔
    p functions ∧ p conditionals ∧ p loops ∧ p returns ∧ p elements := by
  constructor
  · intro h
    exact ⟨h _, h _, h _, h _, h _⟩
  · rintro ⟨hfunctions, hconditionals, hloops, hreturns, helements⟩ c
    cases c <;> assumption

/-- A fingerprint tests each node for each category. -/
theorem has_eq (n : Node) : Fingerprint.isFunction n = functions.has n ∧
    Fingerprint.isConditional n = conditionals.has n ∧ Fingerprint.isLoop n = loops.has n ∧
    Fingerprint.isReturn n = returns.has n ∧ Fingerprint.isElement n = elements.has n := by
  unfold Fingerprint.isFunction Fingerprint.isConditional Fingerprint.isLoop Fingerprint.isReturn
    Fingerprint.isElement has Node.isNamed
  cases n.kind <;> exact ⟨rfl, rfl, rfl, rfl, rfl⟩

theorem counted_ofSource (s : Source) (c : Category) : c.counted (.ofSource s) = c.count s.root := by
  have hcount (test : Node → Bool) (h : ∀ n, test n = c.has n) :
      s.root.walk.countP test = c.count s.root := by
    rw [Node.walk_eq_preorder, funext h, Node.countP_preorder, count]
  cases c with
  | functions =>
    rw [counted, Fingerprint.ofSource, List.length_map, ← List.countP_eq_length_filter]
    exact hcount _ fun n => (has_eq n).1
  | conditionals => exact hcount _ fun n => (has_eq n).2.1
  | loops => exact hcount _ fun n => (has_eq n).2.2.1
  | returns => exact hcount _ fun n => (has_eq n).2.2.2.1
  | elements => exact hcount _ fun n => (has_eq n).2.2.2.2

end Category

/-! ### Tolerances -/

/-- How much the counts of a category may change: by a share of the first count, or by a fixed number if
that is more.  Neither is negative. -/
structure Tolerance where
  ratio : ℚ
  floor : ℚ
  ratio_nonneg : 0 ≤ ratio
  floor_nonneg : 0 ≤ floor

namespace Tolerance

variable {t u : Tolerance} {a b floor : Nat} {ratio : Binary64}

/-- A change by at most the tolerance. -/
def Admits (t : Tolerance) (a b : Nat) : Prop := |(a : ℚ) - b| ≤ max t.floor (t.ratio * a)

instance (t : Tolerance) (a b : Nat) : Decidable (t.Admits a b) := inferInstanceAs (Decidable (_ ≤ _))

/-- A tolerance that is applied exactly. -/
def allowance (t : Tolerance) : Allowance := fun a b => decide (t.Admits a b)

theorem admits_self (t : Tolerance) (a : Nat) : t.Admits a a := by
  rw [Admits, sub_self, abs_zero]
  exact le_max_of_le_left t.floor_nonneg

theorem Admits.mono (h : t.Admits a b) (hratio : t.ratio ≤ u.ratio) (hfloor : t.floor ≤ u.floor) :
    u.Admits a b :=
  calc |(a : ℚ) - b|
    _ ≤ max t.floor (t.ratio * a) := h
    _ ≤ max u.floor (u.ratio * a) :=
        max_le_max hfloor (mul_le_mul_of_nonneg_right hratio (Nat.cast_nonneg a))

/-- A rounded share and a fixed number are those of a tolerance at a count that is small enough. -/
structure Agrees (t : Tolerance) (ratio : Binary64) (floor a b : Nat) : Prop where
  floor_eq : t.floor = floor
  product : ((Binary64.ofNat a).mul ratio).value? = some (t.ratio * a)
  small : a < 2 ^ 53 ∧ b < 2 ^ 53

theorem value?_ofNat {n : Nat} (hsmall : n < 2 ^ 53) : (Binary64.ofNat n).value? = some (n : ℚ) := by
  rcases Nat.eq_zero_or_pos n with rfl | hn
  · exact (Binary64.value?_finite 0 (-1074)).trans (by rw [Nat.cast_zero, zero_mul])
  · have h := Binary64.value?_ofQuotient_whole Nat.one_pos hn hsmall
    rwa [Nat.mul_one] at h

/-- Where the share of a count is exact, rounding makes no difference. -/
theorem Agrees.allowance_eq (h : t.Agrees ratio floor a b) :
    Allowance.of ratio floor a b = t.allowance a b := by
  obtain ⟨hfloor, hproduct, ha, hb⟩ := h
  have hchange : ((max (a - b) (b - a) : Nat) : ℚ) = |(a : ℚ) - b| := by
    rcases Nat.le_total a b with hab | hab
    · rw [Nat.sub_eq_zero_of_le hab, Nat.zero_max, Nat.cast_sub hab, abs_sub_comm, abs_of_nonneg]
      exact sub_nonneg.2 (Nat.cast_le.2 hab)
    · rw [Nat.sub_eq_zero_of_le hab, Nat.max_zero, Nat.cast_sub hab, abs_of_nonneg]
      exact sub_nonneg.2 (Nat.cast_le.2 hab)
  have hsmall : max (a - b) (b - a) < 2 ^ 53 := by omega
  rw [Bool.eq_iff_iff, allowance, decide_eq_true_eq, Admits, Allowance.of, Bool.or_eq_true,
    decide_eq_true_eq, Binary64.le_iff_value (value?_ofNat hsmall) hproduct, hchange, le_max_iff,
    hfloor, ← hchange, Nat.cast_le]

end Tolerance

namespace Equivalence

variable {v original rewritten : Version} {tree before after : Node} {control elements : Allowance}

/-! ### Files that parse -/

/-- The dialect that the grammar for the path and the declared language of a file reads. -/
def Version.dialect (v : Version) : Dialect := Source.dialectOf v.path v.language

/-- A file parses, and this is its tree. -/
def Version.Reads (v : Version) (tree : Node) : Prop :=
  ∃ hwithin, Syntax.parse v.dialect v.code.toList = .ok ⟨tree, hwithin⟩

theorem ofCode_of_reads [Salvage] (h : v.Reads tree) :
    ∃ f, Fingerprint.ofCode v.code v.path v.language = .ok f ∧
      ∀ c : Category, c.counted f = c.count tree := by
  obtain ⟨hwithin, hparse⟩ := h
  obtain ⟨piece, hpiece, hs⟩ | ⟨⟨reach, herror⟩, -⟩ :=
    Source.parseAs_cases v.dialect v.code v.path
  · obtain rfl := Except.ok.inj (hpiece.symm.trans hparse)
    refine ⟨.ofSource (.ofTree v.dialect v.code v.path tree none), ?_, fun c => ?_⟩
    · rw [Fingerprint.ofCode, Source.parse, ← Version.dialect, hs]
      rfl
    · exact Category.counted_ofSource _ c
  · rw [hparse] at herror
    cases herror

theorem ofCode_of_not_reads [Salvage] (h : ∀ tree, ¬ v.Reads tree) :
    ∃ fault, Fingerprint.ofCode v.code v.path v.language = .error fault := by
  obtain ⟨piece, hpiece, -⟩ | ⟨-, hs⟩ := Source.parseAs_cases v.dialect v.code v.path
  · exact absurd ⟨piece.within, hpiece⟩ (h piece.node)
  · rw [Fingerprint.ofCode, Source.parse, ← Version.dialect, hs]
    exact ⟨_, rfl⟩

theorem Version.Reads.unique {tree' : Node} (h : v.Reads tree) (h' : v.Reads tree') : tree = tree' := by
  obtain ⟨_, hparse⟩ := h
  obtain ⟨_, hparse'⟩ := h'
  exact congrArg Piece.node (Except.ok.inj (hparse.symm.trans hparse'))

/-! ### The verdict -/

/-- Two fingerprints count as equivalent if each count may change as it does. -/
theorem ofFingerprints_equivalent_iff {a b : Fingerprint} :
    (ofFingerprints control elements a b).equivalent = true ↔
      ∀ c : Category, c.pick control elements (c.counted a) (c.counted b) = true := by
  have hpick : (∀ c : Category, c.pick control elements (c.counted a) (c.counted b) = true) ↔
      (∀ c ∈ controlFlow a b, control c.before c.after = true) ∧
        elements (markup a b).before (markup a b).after = true := by
    simp [Category.forall_iff, controlFlow, markup, Category.pick, Category.counted, and_assoc]
  rw [hpick, ofFingerprints]
  cases hfind : (controlFlow a b).find? fun c => !control c.before c.after with
  | some c =>
    have hmem := List.mem_of_find?_eq_some hfind
    have hrefused : control c.before c.after = false := by simpa using List.find?_some hfind
    simp only [Bool.false_eq_true, false_iff, not_and]
    intro hall
    rw [hall c hmem] at hrefused
    cases hrefused
  | none =>
    have hall : ∀ c ∈ controlFlow a b, control c.before c.after = true := by
      simpa using List.find?_eq_none.1 hfind
    by_cases helements : elements (markup a b).before (markup a b).after = true
    · simpa [helements] using hall
    · simp [helements]

/-- Either both files parse and their fingerprints decide, or the answer is no whatever is allowed. -/
theorem compareWith_cases [Salvage] (original rewritten : Version) :
    (∃ before after a b, original.Reads before ∧ rewritten.Reads after ∧
      (∀ c : Category, c.counted a = c.count before ∧ c.counted b = c.count after) ∧
      ∀ control elements, compareWith control elements original rewritten =
        ofFingerprints control elements a b) ∨
    (∀ before after, original.Reads before → ¬ rewritten.Reads after) ∧
      ∃ reason, ∀ control elements, compareWith control elements original rewritten = ⟨false, reason⟩ := by
  unfold compareWith
  by_cases hbefore : ∃ before, original.Reads before
  · obtain ⟨before, hbefore⟩ := hbefore
    obtain ⟨a, ha, hcounts⟩ := ofCode_of_reads hbefore
    rw [ha]
    by_cases hafter : ∃ after, rewritten.Reads after
    · obtain ⟨after, hafter⟩ := hafter
      obtain ⟨b, hb, hcounts'⟩ := ofCode_of_reads hafter
      rw [hb]
      exact .inl ⟨before, after, a, b, hbefore, hafter, fun c => ⟨hcounts c, hcounts' c⟩, fun _ _ => rfl⟩
    · obtain ⟨fault, hfault⟩ := ofCode_of_not_reads (not_exists.1 hafter)
      rw [hfault]
      exact .inr ⟨fun _ after _ h => hafter ⟨after, h⟩, _, fun _ _ => rfl⟩
  · obtain ⟨fault, hfault⟩ := ofCode_of_not_reads (not_exists.1 hbefore)
    rw [hfault]
    exact .inr ⟨fun before _ h => absurd ⟨before, h⟩ hbefore, _, fun _ _ => rfl⟩

theorem compareWith_equivalent_iff [Salvage] :
    (compareWith control elements original rewritten).equivalent = true ↔
      ∃ before after, original.Reads before ∧ rewritten.Reads after ∧
        ∀ c : Category, c.pick control elements (c.count before) (c.count after) = true := by
  obtain ⟨before, after, a, b, hbefore, hafter, hcounts, hequal⟩ | ⟨hno, reason, hequal⟩ :=
    compareWith_cases original rewritten
  · rw [hequal, ofFingerprints_equivalent_iff]
    simp only [hcounts]
    constructor
    · intro h
      exact ⟨before, after, hbefore, hafter, h⟩
    · rintro ⟨before', after', hbefore', hafter', h⟩
      rwa [hbefore.unique hbefore', hafter.unique hafter']
  · rw [hequal]
    simp only [Bool.false_eq_true, false_iff]
    rintro ⟨before, after, hbefore, hafter, -⟩
    exact hno before after hbefore hafter

/-- Only what is allowed of the counts themselves matters. -/
theorem ofFingerprints_congr {control' elements' : Allowance} {a b : Fingerprint}
    (h : ∀ c : Category, c.pick control elements (c.counted a) (c.counted b) =
      c.pick control' elements' (c.counted a) (c.counted b)) :
    ofFingerprints control elements a b = ofFingerprints control' elements' a b := by
  obtain ⟨hfunctions, hconditionals, hloops, hreturns, helements⟩ := Category.forall_iff.1 h
  simp only [Category.pick, Category.counted] at hfunctions hconditionals hloops hreturns helements
  have hfind : (controlFlow a b).find? (fun c => !control c.before c.after) =
      (controlFlow a b).find? fun c => !control' c.before c.after := by
    simp only [controlFlow, List.find?_cons, List.find?_nil, hfunctions, hconditionals, hloops, hreturns]
  unfold ofFingerprints
  rw [hfind]
  cases (controlFlow a b).find? fun c => !control' c.before c.after with
  | some c => rfl
  | none =>
    dsimp only [markup]
    rw [helements]

theorem compareWith_congr [Salvage] {control' elements' : Allowance}
    (h : ∀ before after, original.Reads before → rewritten.Reads after → ∀ c : Category,
      c.pick control elements (c.count before) (c.count after) =
        c.pick control' elements' (c.count before) (c.count after)) :
    compareWith control elements original rewritten = compareWith control' elements' original rewritten := by
  obtain ⟨before, after, a, b, hbefore, hafter, hcounts, hequal⟩ | ⟨-, reason, hequal⟩ :=
    compareWith_cases original rewritten
  · rw [hequal, hequal]
    apply ofFingerprints_congr
    intro c
    rw [(hcounts c).1, (hcounts c).2]
    exact h before after hbefore hafter c
  · rw [hequal, hequal]

/-! ### The law -/

theorem pick_allowance_iff {c : Category} {control elements : Tolerance} {a b : Nat} :
    c.pick control.allowance elements.allowance a b = true ↔ (c.pick control elements).Admits a b := by
  cases c <;> exact decide_eq_true_iff

/-- The settings and the tolerances allow the same differences from the counts of one tree to those of the
other. -/
def Agreement (settings : EquivalenceSettings) (control elements : Tolerance) (before after : Node) : Prop :=
  ∀ c : Category, (c.pick control elements).Agrees
    (c.pick settings.controlFlowTolerance settings.elementTolerance)
    (c.pick settings.controlFlowMinDelta settings.elementMinDelta) (c.count before) (c.count after)

/-- Two files count as equivalent exactly if both parse and the numbers of the named nodes of each
category in their trees differ by no more than its tolerance allows.  So a file that parses is equivalent
to itself, and larger tolerances accept whatever smaller ones accept.  Settings whose shares of the counts
are exact decide in the same way. -/
theorem compareWith_counts [Salvage] (control elements : Tolerance) (original rewritten : Version) :
    ((compareWith control.allowance elements.allowance original rewritten).equivalent = true ↔
      ∃ before after, original.Reads before ∧ rewritten.Reads after ∧ ∀ c : Category,
        |(c.count before : ℚ) - c.count after| ≤ max (c.pick control elements).floor
          ((c.pick control elements).ratio * c.count before)) ∧
    (∀ tree, original.Reads tree → original.code = rewritten.code → original.dialect = rewritten.dialect →
      (compareWith control.allowance elements.allowance original rewritten).equivalent = true) ∧
    (∀ control' elements' : Tolerance, control.ratio ≤ control'.ratio → control.floor ≤ control'.floor →
      elements.ratio ≤ elements'.ratio → elements.floor ≤ elements'.floor →
      (compareWith control.allowance elements.allowance original rewritten).equivalent = true →
      (compareWith control'.allowance elements'.allowance original rewritten).equivalent = true) ∧
    ∀ settings, (∀ before after, original.Reads before → rewritten.Reads after →
        Agreement settings control elements before after) →
      compare settings original rewritten =
        compareWith control.allowance elements.allowance original rewritten := by
  have hlaw (control elements : Tolerance) :
      (compareWith control.allowance elements.allowance original rewritten).equivalent = true ↔
        ∃ before after, original.Reads before ∧ rewritten.Reads after ∧ ∀ c : Category,
          (c.pick control elements).Admits (c.count before) (c.count after) := by
    simp only [compareWith_equivalent_iff, pick_allowance_iff]
  refine ⟨hlaw control elements, ?_, ?_, ?_⟩
  · intro tree hreads hcode hdialect
    refine (hlaw control elements).2 ⟨tree, tree, hreads, ?_, fun c => Tolerance.admits_self _ _⟩
    rwa [Version.Reads, ← hcode, ← hdialect]
  · intro control' elements' hcontrol hcontrolFloor helements helementsFloor hequivalent
    obtain ⟨before, after, hbefore, hafter, h⟩ := (hlaw control elements).1 hequivalent
    refine (hlaw control' elements').2 ⟨before, after, hbefore, hafter, fun c => ?_⟩
    have hadmits := h c
    cases c with
    | elements => exact hadmits.mono helements helementsFloor
    | functions | conditionals | loops | returns => exact hadmits.mono hcontrol hcontrolFloor
  · intro settings hagrees
    apply compareWith_congr
    intro before after hbefore hafter c
    have hagree := hagrees before after hbefore hafter c
    cases c <;> exact hagree.allowance_eq

/-- Settings by which half of a count may change. -/
def halves : EquivalenceSettings :=
  { controlFlowTolerance := .ofDecimal false 5 (-1), elementTolerance := .ofDecimal false 5 (-1) }

/-- Half of a count, or a fixed number. -/
def halfOr (floor : Nat) : Tolerance := ⟨1 / 2, floor, by norm_num, Nat.cast_nonneg floor⟩

/-- Half of a small number is exact. -/
theorem agrees_halfOr {floor a b : Nat} (ha : a ≤ 2) (hb : b ≤ 2) :
    (halfOr floor).Agrees (.ofDecimal false 5 (-1)) floor a b where
  floor_eq := rfl
  product := by
    have hzero : (Binary64.ofNat 0).mul (.ofDecimal false 5 (-1)) = .finite false 0 (-1074) := by
      decide +kernel
    have hone : (Binary64.ofNat 1).mul (.ofDecimal false 5 (-1)) = .finite false (2 ^ 52) (-53) := by
      decide +kernel
    have htwo : (Binary64.ofNat 2).mul (.ofDecimal false 5 (-1)) = .finite false (2 ^ 52) (-52) := by
      decide +kernel
    obtain rfl | rfl | rfl : a = 0 ∨ a = 1 ∨ a = 2 := by omega
    · rw [hzero, Binary64.value?_finite]
      norm_num [halfOr]
    · rw [hone, Binary64.value?_finite]
      norm_num [halfOr]
    · rw [htwo, Binary64.value?_finite]
      norm_num [halfOr]
  small := by omega

/-- A function with two loops. -/
def twoLoops : Version := ⟨"function f() \x7b for (;;) g(); while (h()) return; \x7d\n", "a.js", none⟩

/-- The function with one of its loops. -/
def oneLoop : Version := ⟨"function f() \x7b while (h()) return; \x7d\n", "a.js", none⟩

/-- The tree of a file that parses. -/
def Version.readTree (v : Version) : Node :=
  match Syntax.parse v.dialect v.code.toList with
  | .ok piece => piece.node
  | .error _ => default

theorem Version.Reads.eq_readTree (h : v.Reads tree) : tree = v.readTree := by
  obtain ⟨_, hparse⟩ := h
  rw [Version.readTree, hparse]

section

attribute [local instance] Salvage.stopping

/-- One loop of two may go where half of a count may change. -/
theorem compareWith_counts_halves :
    (∀ before after, twoLoops.Reads before → oneLoop.Reads after →
      Agreement halves (halfOr 1) (halfOr 2) before after) ∧
    compare halves twoLoops oneLoop =
      compareWith (halfOr 1).allowance (halfOr 2).allowance twoLoops oneLoop ∧
    (compare halves twoLoops oneLoop).equivalent = true := by
  have hcounts : ∀ c : Category, c.count twoLoops.readTree ≤ 2 ∧ c.count oneLoop.readTree ≤ 2 :=
    Category.forall_iff.2 (by decide +kernel)
  have hagrees : ∀ before after, twoLoops.Reads before → oneLoop.Reads after →
      Agreement halves (halfOr 1) (halfOr 2) before after := by
    intro before after hbefore hafter c
    obtain ⟨ha, hb⟩ := hcounts c
    rw [hbefore.eq_readTree, hafter.eq_readTree]
    cases c <;> exact agrees_halfOr ha hb
  exact ⟨hagrees, (compareWith_counts (halfOr 1) (halfOr 2) twoLoops oneLoop).2.2.2 halves hagrees,
    by decide +kernel⟩

end

end Equivalence

end WebMigration
