import WebMigration.Equivalence.Fingerprint
import WebMigration.Settings.Basic

/-!
# Comparing the structure of two files

A guard against rewrites that lose functions, branches, loops, returns or markup elements: the counts
of both files may differ by a share of the first one's count, or by a fixed number if that is more.
-/

namespace WebMigration

open Number (Binary64)

/-- Whether a count may change from one number to another. -/
abbrev Allowance := Nat → Nat → Bool

/-- A change by at most a share of the first count, or by at most a fixed number. -/
def Allowance.of (ratio : Binary64) (floor : Nat) : Allowance := fun a b =>
  let change := max (a - b) (b - a)
  change ≤ floor || (Binary64.ofNat change).le ((Binary64.ofNat a).mul ratio)

/-- Whether two files have the same structure, and what differs otherwise. -/
structure Equivalence where
  equivalent : Bool
  reason : Option String := none
  deriving DecidableEq, Repr

namespace Equivalence

open WebMigration.Module (Salvage)

def toJson (e : Equivalence) : Json :=
  .record [("equivalent", .bool e.equivalent), ("reason", .optional e.reason)]

/-- Two counts with their name. -/
structure Counts where
  label : String
  before : Nat
  after : Nat

/-- What is said about counts that differ too much. -/
def Counts.complaint (c : Counts) : String :=
  c.label ++ " differs significantly: " ++ toString c.before ++ " vs " ++ toString c.after

/-- The counts of the control flow of two files. -/
def controlFlow (a b : Fingerprint) : List Counts :=
  [⟨"Function count", a.functions.length, b.functions.length⟩,
    ⟨"Conditional count", a.conditionals, b.conditionals⟩, ⟨"Loop count", a.loops, b.loops⟩,
    ⟨"Return statement count", a.returns, b.returns⟩]

/-- The counts of the markup elements of two files. -/
def markup (a b : Fingerprint) : Counts := ⟨"JSX element count", a.elements, b.elements⟩

/-- Compares two fingerprints; the first count that differs too much is the reason. -/
def ofFingerprints (control elements : Allowance) (a b : Fingerprint) : Equivalence :=
  match (controlFlow a b).find? fun c => !control c.before c.after with
  | some c => ⟨false, some c.complaint⟩
  | none =>
      let c := markup a b
      if elements c.before c.after then ⟨true, none⟩ else ⟨false, some c.complaint⟩

/-- A text of a file with its path and its declared language. -/
structure Version where
  code : String
  path : String
  language : Option String

/-- Compares two versions of a file. -/
def compareWith [Salvage] (control elements : Allowance) (original rewritten : Version) :
    Equivalence :=
  match Fingerprint.ofCode original.code original.path original.language with
  | .error fault => ⟨false, some ("Semantic check failed: " ++ fault.message)⟩
  | .ok a =>
      match Fingerprint.ofCode rewritten.code rewritten.path rewritten.language with
      | .error fault => ⟨false, some ("Semantic check failed: " ++ fault.message)⟩
      | .ok b => ofFingerprints control elements a b

/-- Compares two versions of a file under some settings. -/
def compare [Salvage] (settings : EquivalenceSettings) (original rewritten : Version) :
    Equivalence :=
  compareWith (.of settings.controlFlowTolerance settings.controlFlowMinDelta)
    (.of settings.elementTolerance settings.elementMinDelta) original rewritten

end Equivalence

end WebMigration
