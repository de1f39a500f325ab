import WebMigration.Recovery.Strategy
import WebMigration.Spec.Basic

/-!
# The recovery manager

Choosing a strategy by the code of a failure.  Whatever a strategy does, the answer is an outcome.
-/

namespace WebMigration.Recovery

/-- Strategies by the codes of failures, and one for all other codes. -/
structure Manager (σ α : Type) where
  strategies : Table (Strategy σ α) := []
  default : Option (Strategy σ α) := none

namespace Manager

variable {σ α : Type}

/-- The strategy for a code. -/
def strategyFor? (m : Manager σ α) (code : String) : Option (Strategy σ α) :=
  m.strategies.get? code <|> m.default

/-- Recovers from an error. -/
def recover (m : Manager σ α) (fault : Fault) (context : Context) (operation : Run σ α) :
    Run σ (Outcome α) := do
  let failure := fault.toFailure
  match m.strategyFor? failure.code with
  | none =>
      Strategy.warn "no-strategy" context [("error", .string failure.code)]
      return .failed "none" 0 (.failure failure)
  | some strategy =>
      if ← strategy.accepts failure then
        match ← Run.attempt (strategy.recover failure context operation) with
        | .ok outcome => return outcome
        | .error raised => return .failed strategy.name 0 raised
      else
        Strategy.warn "cannot-recover" context
          [("error", .string failure.code), ("strategy", .string strategy.name)]
        return .failed strategy.name 0 (.failure failure)

/-- Whether a failure of a transformation may be accepted: where nothing critical is at stake. -/
def mayBeSkipped (failure : Failure) (context : Context) : Bool :=
  failure.code == "TRANSFORMATION_ERROR" &&
    !((Json.lookup? context.metadata "critical").map (·.isTruthy)).getD false

/-- The strategy that accepts failures of transformations. -/
def skipTransformation : Strategy σ α :=
  .skip (fun failure context => pure (mayBeSkipped failure context)) fun _ _ => pure ()

/-- The usual strategies: calls to services are tried again, failures of transformations accepted,
and for other failures both are tried in turn. -/
def standard (policy : RetryPolicy) : Manager σ α where
  strategies :=
    [("RATE_LIMIT_EXCEEDED", .retry policy), ("GITHUB_API_ERROR", .retry policy),
      ("AI_SERVICE_ERROR", .retry policy), ("TRANSFORMATION_ERROR", skipTransformation)]
  default := some (.composite [.retry policy, skipTransformation])

end Manager

end WebMigration.Recovery
