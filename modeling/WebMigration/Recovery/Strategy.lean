import WebMigration.Recovery.Basic

/-!
# Recovery strategies

Trying the failed step again, running something else in its place, accepting the failure, or a
combination of these in which the first that succeeds counts.  Conditions, hooks and steps are
computations that may themselves fail.
-/

namespace WebMigration.Recovery

/-- Something to run in place of a failed step. -/
structure Fallback (σ α : Type) where
  name : String
  /-- Whether it fits a failure. -/
  fits : Failure → Run σ Bool
  run : Context → Run σ α

/-- A way to recover from a failure. -/
inductive Strategy (σ α : Type)
  | retry (policy : RetryPolicy)
  | fallback (options : List (Fallback σ α))
  | skip (condition : Failure → Context → Run σ Bool) (hook : Failure → Context → Run σ Unit)
  | composite (members : List (Strategy σ α))
  /-- A strategy of someone else. -/
  | custom (name : String) (accepts : Failure → Run σ Bool)
      (recover : Failure → Context → Run σ α → Run σ (Outcome α))

namespace Strategy

variable {σ α : Type}

def name : Strategy σ α → String
  | retry _ => "RetryStrategy"
  | fallback _ => "FallbackStrategy"
  | skip _ _ => "SkipStrategy"
  | composite _ => "CompositeRecoveryStrategy"
  | custom name _ _ => name

/-- An event about a recovery. -/
def log (event : String) (context : Context) (data : List (String × Json)) : Run σ Unit :=
  Run.event ("recovery:" ++ event) (("context", context.toJson) :: data)

/-- A warning about a recovery. -/
def warn (event : String) (context : Context) (data : List (String × Json)) : Run σ Unit :=
  Run.warning ("recovery:" ++ event) (("context", context.toJson) :: data)

/-- Whether some option fits a failure, asking them in turn. -/
def anyFits (failure : Failure) : List (Fallback σ α) → Run σ Bool
  | [] => pure false
  | f :: rest => do if ← f.fits failure then pure true else anyFits failure rest

mutual

/-- Whether a strategy takes on a failure. -/
def accepts (failure : Failure) : Strategy σ α → Run σ Bool
  | retry _ => pure failure.recoverable
  | fallback options => anyFits failure options
  | skip _ _ => pure true
  | composite members => anyAccepts failure members
  | custom _ accepts _ => accepts failure

/-- Whether some strategy takes on a failure, asking them in turn. -/
def anyAccepts (failure : Failure) : List (Strategy σ α) → Run σ Bool
  | [] => pure false
  | s :: rest => do if ← accepts failure s then pure true else anyAccepts failure rest

end

/-! ## Trying again -/

/-- Runs a step for the `count`-th time. -/
def tryOnce (policy : RetryPolicy) (context : Context) (operation : Run σ α) (count : Nat) :
    Run σ (Except Fault α) := do
  log "retry:attempt" context
    [("attempt", .ofNat count), ("max_retries", .ofNat policy.maxRetries)]
  Run.attempt operation

/-- The end of the tries when the last one succeeded. -/
def succeedAfter (context : Context) (count : Nat) (data : α) : Run σ (Outcome α) := do
  log "retry:success" context [("attempt", .ofNat count)]
  return .succeeded "RetryStrategy" count (some data)

/-- The end of the tries when the last one failed. -/
def failAfter (context : Context) (count : Nat) (fault : Fault) : Run σ (Outcome α) := do
  warn "retry:exhausted" context [("attempts", .ofNat count)]
  return .failed "RetryStrategy" count fault

/-- Runs a step for the `count`-th time, and again after a pause while it fails, at most `left` times
more.  An error that trying again cannot help ends the tries, and so does a pause that has grown too
large for a number. -/
def tryAgain (policy : RetryPolicy) (context : Context) (operation : Run σ α) :
    Nat → Nat → Nat → Run σ (Outcome α)
  | 0, count, _ => do
      match ← tryOnce policy context operation count with
      | .ok data => succeedAfter context count data
      | .error fault => failAfter context count fault
  | left + 1, count, steps => do
      match ← tryOnce policy context operation count with
      | .ok data => succeedAfter context count data
      | .error fault =>
          if fault.isFatal then failAfter context count fault
          else if policy.outgrows steps then
            return .failed "RetryStrategy" count policy.outgrown
          else
            log "retry:waiting" context [("attempt", .ofNat count),
              ("wait_s", .float ((policy.pause steps).roundPlaces 3)),
              ("error", .string fault.message)]
            tryAgain policy context operation left (count + 1) (policy.nextStep steps)

/-- Runs a step until it succeeds, as often as the policy allows; a policy whose pauses are no numbers
of seconds does not get to run it. -/
def runRetry (policy : RetryPolicy) (failure : Failure) (context : Context) (operation : Run σ α) :
    Run σ (Outcome α) := do
  log "retry:start" context
    [("error", .string failure.code), ("max_retries", .ofNat policy.maxRetries)]
  if policy.isTimed then tryAgain policy context operation (policy.maxRetries - 1) 1 0
  else Run.raise RetryPolicy.untimed

/-! ## Something else -/

/-- Runs the options that fit until one succeeds; `count` is the number of all options. -/
def runOptions (failure : Failure) (context : Context) (count : Nat) :
    List (Fallback σ α) → Run σ (Outcome α)
  | [] => do
      log "fallback:exhausted" context []
      return .failed "FallbackStrategy" count (.failure failure)
  | f :: rest => do
      if ← f.fits failure then
        match ← Run.attempt (f.run context) with
        | .ok data =>
            log "fallback:success" context [("fallback", .string f.name)]
            return .succeeded ("FallbackStrategy:" ++ f.name) 1 (some data)
        | .error fault =>
            log "fallback:failed" context
              [("fallback", .string f.name), ("error", .string fault.message)]
            runOptions failure context count rest
      else runOptions failure context count rest

/-- Runs options in place of a failed step. -/
def runFallback (options : List (Fallback σ α)) (failure : Failure) (context : Context) :
    Run σ (Outcome α) := do
  log "fallback:start" context
    [("error", .string failure.code), ("fallback_count", .ofNat options.length)]
  runOptions failure context options.length options

/-! ## Accepting the failure -/

/-- Accepts a failure where the condition holds. -/
def runSkip (condition : Failure → Context → Run σ Bool) (hook : Failure → Context → Run σ Unit)
    (failure : Failure) (context : Context) : Run σ (Outcome α) := do
  if ← condition failure context then
    log "skip" context [("error", .string failure.code)]
    hook failure context
    return .succeeded "SkipStrategy" 1 none
  else return .failed "SkipStrategy" 0 (.failure failure)

/-! ## All strategies -/

mutual

/-- Recovers by a strategy. -/
def recover (failure : Failure) (context : Context) (operation : Run σ α) :
    Strategy σ α → Run σ (Outcome α)
  | retry policy => runRetry policy failure context operation
  | fallback options => runFallback options failure context
  | skip condition hook => runSkip condition hook failure context
  | composite members => do
      log "composite:start" context
        [("error", .string failure.code), ("strategy_count", .ofNat members.length)]
      recoverByFirst failure context operation members.length [] members
  | custom _ _ recover => recover failure context operation

/-- Recovers by the first strategy that takes on the failure and succeeds. -/
def recoverByFirst (failure : Failure) (context : Context) (operation : Run σ α) (count : Nat)
    (tried : List String) : List (Strategy σ α) → Run σ (Outcome α)
  | [] => do
      log "composite:exhausted" context []
      return { Outcome.failed "CompositeRecoveryStrategy" count (.failure failure) with tried }
  | s :: rest => do
      if ← accepts failure s then
        let outcome ← recover failure context operation s
        if outcome.success then
          log "composite:success" context [("strategy", .string s.name)]
          return { outcome with tried := tried ++ [s.name] }
        else
          log "composite:failed" context [("strategy", .string s.name)]
          recoverByFirst failure context operation count (tried ++ [s.name]) rest
      else recoverByFirst failure context operation count tried rest

end

end Strategy

end WebMigration.Recovery
