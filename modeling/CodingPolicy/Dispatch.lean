/-
CodingPolicy/Dispatch.lean

From the arguments after the generic options to a command: the first names it,
the others are its own. A command that was resolved is logged when it starts
and when it is done; an invalid argument has a status of its own.
-/
import CodingPolicy.Command.Run
import CodingPolicy.Config.Generic

namespace CodingPolicy.Dispatch

open SessionM

variable {σ : Type}

/-- Writes the short catalogue and the usage of the generic options. -/
def complainCatalog : SessionM σ Unit := do
  complain (Command.catalog false)
  complain []
  complain Config.genericUsage

/-- Answers a name that is no command. -/
def reportUnknown (name : Text) (f : Failure) : SessionM σ Int := do
  complain f.message
  if name.head? ≠ some (.char '-') then complain "Command names must start with dashes.".text
  complainCatalog
  return Status.usage

/-- Answers an invalid argument of a command. -/
def reportInvalid (c : Setting σ) (command : Text) (f : Failure) : SessionM σ Int := do
  log c .warning "invalid_argument" [("command", .text command), ("error", .text f.message)]
  complain f.summary
  return Status.invalidArgument

/-- Carries out a command; an invalid argument is answered. -/
def attempt (c : Setting σ) (config : Config) (s : Command.Spec) (args : List Text) :
    SessionM σ Int :=
  tryCatch (Command.run c config s args) fun
    | .invalidArgument cause => reportInvalid c s.name (.invalidArgument cause)
    | f => throw f

/-- Carries out the command that the arguments name. -/
def run (c : Setting σ) (config : Config) : List Text → SessionM σ Int
  | [] => do
    complainCatalog
    return Status.usage
  | name :: args =>
    match Command.resolve name with
    | .error f => reportUnknown name f
    | .ok s => do
      log c .info "command_start"
        [("command", .text s.name), ("args", .list (args.map .text))]
      let status ← attempt c config s args
      log c .info "command_finish" [("command", .text s.name), ("status", .int status)]
      return status

end CodingPolicy.Dispatch
