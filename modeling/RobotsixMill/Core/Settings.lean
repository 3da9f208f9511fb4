import Mathlib.Data.Rat.Defs

/-!
# `Core.Settings` — the settings the modelled code reads

Limits the configuration constrains to be non-negative are naturals; `0` disables the limit.
-/

namespace RobotsixMill
namespace Core

structure Settings where
  maxArchivedTickets : Nat := 40
  maxEventsPerTicket : Nat := 200
  maxCommentsPerTicket : Nat := 500
  implementMaxSpawnsPerTicket : Nat := 3
  maxImplementReviewCycles : Nat := 10
  implementStallThreshold : Nat := 2
  implementZeroDiffAbortThreshold : Nat := 2
  ciFixMaxIdenticalFailures : Nat := 2
  autoFixMaxCycles : Nat := 6
  ciFixMaxTotalAttempts : Nat := 2
  ciTransientMaxRetries : Nat := 3
  /-- Unconstrained in the configuration. -/
  stageRetryMaxAttempts : Int := 5
  /-- Constrained to be at least one, as the delays below. -/
  modelOutageMaxParks : Nat := 20
  networkOutageRetrySeconds : Nat := 120
  diskFullRetrySeconds : Nat := 600
  diskMinFreeMb : Nat := 5120
  modelOutageRetrySeconds : Nat := 120
  claudeUsageExhaustedRetrySeconds : Nat := 900
  defaultRepoId : String := ""
  /-- Unconstrained in the configuration; at most `0` disables the limit. -/
  maxSpendUsdPerTicket : ℚ := 0
  maxTracesPerTicket : Nat := 0
  /-- Constrained to be non-negative. -/
  maxOpenrouterMarginalUsdPerTicket : ℚ := 0
  maxStuckCycles : Nat := 3
  branchPrefix : String := "mill/"
  rebaseMaxAttempts : Nat := 3
  pingPongMaxAlternations : Nat := 3
  greenUnpromotableMaxPolls : Nat := 10
  emptyRollupMaxPolls : Nat := 3
  mergePrMissingMaxPolls : Nat := 20
  autoMergeMainDebtDetectionEnabled : Bool := true
  autoMergeEnabled : Bool := true
  autoMergeKillSwitch : Bool := false
  reviewEnabled : Bool := false
  autoMergeInfraDenylist : List String := ["robotsix-central-deploy"]
  autoMergeSensitiveGlobs : List String :=
    [".github/workflows/**", "**/secrets/**", "**/*.secret*", ".env*"]
  orphanedPrBotLogins : List String := []
  autonomousRebaseEnabled : Bool := true
  reviewFeedbackEnabled : Bool := false
  /-- Constrained to be at least one. -/
  reviewRevisionMaxAttempts : Nat := 2
  ciFixMaxAttempts : Nat := 2
  ciFixMaxCycles : Nat := 3
  codeqlFpTriageEnabled : Bool := true
  /-- `0` disables the ceiling. -/
  ticketStateCycleLimit : Nat := 3
  reviewMaxRounds : Nat := 3
deriving DecidableEq, Repr

end Core
end RobotsixMill
