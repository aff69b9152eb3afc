import DreamStudio.Review.Answer

namespace DreamStudio.Review

open Library

/-- What `verify` returns: whether the reproduction holds, the run, the reason. -/
structure Verified where
  holds : Bool
  run : Option Run
  reason : String

/-- `RUN_TIMEOUT_S`. -/
def runTimeout : Nat := 600

/-- `verify_reproduction`; `runner` is what running a command in an image comes to. -/
def verifyReproduction (runner : String → String → Run) (image : String)
    (reproduction : Reproduction) : Verified :=
  let command := pyStrip reproduction.command
  if command = "" then { holds := false, run := none, reason := "the reproduction has no command" }
  else
    match reproduction.exitCode with
    | .int reported =>
      let run := runner image command
      if run.timedOut then
        {
          holds := false, run := some run
          reason := "re-running it timed out after " ++ toString runTimeout ++ "s" }
      else if run.exitCode ≠ some reported then
        {
          holds := false, run := some run
          reason :=
            "re-run exited " ++ ((run.exitCode.map toString).getD "None") ++
              ", the reviewer reported " ++ toString reported ++
              " -- the reproduction does not reproduce" }
      else { holds := true, run := some run, reason := "reproduced" }
    | _ =>
      {
        holds := false, run := none
        reason := "the reproduction must report the integer exit_code it saw" }

/-- A reproduction that holds ran and exited with the code it reports, and one that ran to its end
and does not hold exited with another. -/
structure Verified.Honest (v : Verified) (code : Int) : Prop where
  holds : v.holds = true → ∃ run, v.run = some run ∧ run.exitCode = some code
  fails : v.holds = false → ∀ run, v.run = some run → run.timedOut = false →
    ∃ other, run.exitCode = some other ∧ other ≠ code

end DreamStudio.Review
