import WebMigration.Json.Decoder

/-!
# Settings

The numbers and choices that a deployment may change, with their defaults and their limits.
-/

namespace WebMigration

open Number (Binary64)
open Decoder

/-- How many files are transformed together. -/
structure BatchSettings where
  size : Nat := 5
  deriving Repr, DecidableEq

/-- How often and after which pauses a step is tried again. -/
structure RecoverySettings where
  maxRetries : Nat := 3
  initialBackoff : Nat := 1000
  maxBackoff : Nat := 30000
  backoffMultiplier : Binary64 := .ofNat 2
  deriving Repr, DecidableEq

/-- How far the structure of a rewritten file may differ from that of the original. -/
structure EquivalenceSettings where
  controlFlowTolerance : Binary64 := .ofDecimal false 2 (-1)
  controlFlowMinDelta : Nat := 1
  elementTolerance : Binary64 := .ofDecimal false 3 (-1)
  elementMinDelta : Nat := 2
  deriving Repr, DecidableEq

/-- The confidences that matter for reviews. -/
structure ScoringSettings where
  reviewThreshold : Nat := 70
  /-- The confidence of a semantic pass that was not needed. -/
  skippedConfidence : Nat := 80
  /-- The confidence of a result whose semantic pass failed. -/
  failedConfidence : Nat := 40
  deriving Repr, DecidableEq

/-- How many snapshots are kept. -/
structure BackupSettings where
  maxBackups : Nat := 10
  deriving Repr, DecidableEq

/-- Which model runs the semantic pass. -/
structure SemanticSettings where
  enabled : Bool := false
  provider : String := "ollama"
  model : String := "llama3.1"
  baseUrl : Option String := none
  apiKey : Option String := none
  temperature : Binary64 := .ofNat 0
  requestTimeout : Binary64 := .ofNat 120
  deriving Repr, DecidableEq

/-- All settings. -/
structure Settings where
  logLevel : String := "INFO"
  batch : BatchSettings := {}
  recovery : RecoverySettings := {}
  equivalence : EquivalenceSettings := {}
  scoring : ScoringSettings := {}
  backup : BackupSettings := {}
  semantic : SemanticSettings := {}
  deriving Repr, DecidableEq

/-! ## Reading -/

namespace Settings

/-- A whole number from a lower limit on. -/
def natural (low : Nat) : Decoder Nat := fun v => (atLeast low integer v).map (·.toNat)

/-- A whole number from 0 to 100. -/
def percentage : Decoder Nat := fun v => (atMost 100 (atLeast 0 integer) v).map (·.toNat)

end Settings

namespace BatchSettings

def decode : Decoder BatchSettings :=
  let base : BatchSettings := {}
  model (BatchSettings.mk <$> field ["size"] base.size (Settings.natural 1))

end BatchSettings

namespace RecoverySettings

def decode : Decoder RecoverySettings :=
  let base : RecoverySettings := {}
  model (RecoverySettings.mk
    <$> field ["max_retries"] base.maxRetries (Settings.natural 1)
    <*> field ["initial_backoff_ms"] base.initialBackoff (Settings.natural 0)
    <*> field ["max_backoff_ms"] base.maxBackoff (Settings.natural 0)
    <*> field ["backoff_multiplier"] base.backoffMultiplier (realAtLeast 1 real))

end RecoverySettings

namespace EquivalenceSettings

def decode : Decoder EquivalenceSettings :=
  let base : EquivalenceSettings := {}
  model (EquivalenceSettings.mk
    <$> field ["control_flow_tolerance"] base.controlFlowTolerance (realAtLeast 0 real)
    <*> field ["control_flow_min_delta"] base.controlFlowMinDelta (Settings.natural 0)
    <*> field ["ui_element_tolerance"] base.elementTolerance (realAtLeast 0 real)
    <*> field ["ui_element_min_delta"] base.elementMinDelta (Settings.natural 0))

end EquivalenceSettings

namespace ScoringSettings

def decode : Decoder ScoringSettings :=
  let base : ScoringSettings := {}
  model (ScoringSettings.mk
    <$> field ["review_threshold"] base.reviewThreshold Settings.percentage
    <*> field ["semantic_skipped_confidence"] base.skippedConfidence Settings.percentage
    <*> field ["semantic_failed_confidence"] base.failedConfidence Settings.percentage)

end ScoringSettings

namespace BackupSettings

def decode : Decoder BackupSettings :=
  let base : BackupSettings := {}
  model (BackupSettings.mk <$> field ["max_backups"] base.maxBackups (Settings.natural 1))

end BackupSettings

namespace SemanticSettings

def decode : Decoder SemanticSettings :=
  let base : SemanticSettings := {}
  Decoder.model (SemanticSettings.mk
    <$> field ["enabled"] base.enabled boolean
    <*> field ["provider"] base.provider text
    <*> field ["model"] base.model text
    <*> field ["base_url"] base.baseUrl optionalText
    <*> field ["api_key"] base.apiKey optionalText
    <*> field ["temperature"] base.temperature real
    <*> field ["request_timeout"] base.requestTimeout real)

end SemanticSettings

namespace Settings

def decode : Decoder Settings :=
  model (Settings.mk
    <$> field ["log_level"] "INFO" text
    <*> field ["batch"] {} BatchSettings.decode
    <*> field ["recovery"] {} RecoverySettings.decode
    <*> field ["equivalence"] {} EquivalenceSettings.decode
    <*> field ["scoring"] {} ScoringSettings.decode
    <*> field ["backup"] {} BackupSettings.decode
    <*> field ["semantic"] {} SemanticSettings.decode)

/-- The value that a decoder reads, or the error that names the problems of the settings. -/
def accept {α : Type} (decoder : Decoder α) (document : Json) : Except Fault α :=
  match decoder document with
  | .ok a => .ok a
  | .error problems => .error (.foreign .settings "" problems)

/-- Reads settings. -/
def ofDocument (document : Json) : Except Fault Settings := accept decode document

/-! ## As structured values -/

def toJson (s : Settings) : Json :=
  .record [("log_level", .string s.logLevel),
    ("batch", .record [("size", .ofNat s.batch.size)]),
    ("recovery", .record [("max_retries", .ofNat s.recovery.maxRetries),
      ("initial_backoff_ms", .ofNat s.recovery.initialBackoff),
      ("max_backoff_ms", .ofNat s.recovery.maxBackoff),
      ("backoff_multiplier", .float s.recovery.backoffMultiplier)]),
    ("equivalence", .record [("control_flow_tolerance", .float s.equivalence.controlFlowTolerance),
      ("control_flow_min_delta", .ofNat s.equivalence.controlFlowMinDelta),
      ("ui_element_tolerance", .float s.equivalence.elementTolerance),
      ("ui_element_min_delta", .ofNat s.equivalence.elementMinDelta)]),
    ("scoring", .record [("review_threshold", .ofNat s.scoring.reviewThreshold),
      ("semantic_skipped_confidence", .ofNat s.scoring.skippedConfidence),
      ("semantic_failed_confidence", .ofNat s.scoring.failedConfidence)]),
    ("backup", .record [("max_backups", .ofNat s.backup.maxBackups)]),
    ("semantic", .record [("enabled", .bool s.semantic.enabled),
      ("provider", .string s.semantic.provider), ("model", .string s.semantic.model),
      ("base_url", .optional s.semantic.baseUrl), ("api_key", .optional s.semantic.apiKey),
      ("temperature", .float s.semantic.temperature),
      ("request_timeout", .float s.semantic.requestTimeout)])]

end Settings

end WebMigration
