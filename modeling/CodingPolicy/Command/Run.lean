/-
CodingPolicy/Command/Run.lean

Carrying out commands. Each gives a status: zero where all went well, one where
the command was called the wrong way, two where the namespace service reports a
failure. An invalid argument has no status here; whoever dispatches commands
answers it.
-/
import CodingPolicy.Command.Answer
import CodingPolicy.Command.Basic
import CodingPolicy.Command.Session
import CodingPolicy.Config.Basic

namespace CodingPolicy

/-! ### Statuses -/

namespace Status

/-- All went well. -/
def ok : Int := 0

/-- The program or a command was called the wrong way. -/
def usage : Int := 1

/-- The namespace service reports a failure. -/
def service : Int := 2

/-- An argument has the wrong shape. -/
def invalidArgument : Int := -1

end Status

namespace Command

open SessionM

variable {σ : Type}

/-! ### The commands -/

/-- Answers a failure that the service reports. -/
def reportFailure (c : Setting σ) (operation : String) (path : Option Text)
    (cause : ServiceFailure) : SessionM σ Int := do
  let f := Failure.service cause
  log c .warning "namespace_call_failed"
    [("operation", .text operation.text), ("path", path.elim .null .text),
      ("error_type", .text f.kind), ("error", .text f.message)]
  complain f.summary
  return Status.service

/-- Lists the known policies. -/
def runListPolicies (c : Setting σ) : SessionM σ Int := do
  contact c none
  match ← call c c.backend.list with
  | .error cause => reportFailure c "list_policies" none cause
  | .ok policies =>
    (Answer.policies ((policies.filterMap id).map Policy.name)).forM say
    return Status.ok

/-- Tells the policy in effect at a place. -/
def runGetPolicy (c : Setting σ) (p : NamespacePath) : SessionM σ Int := do
  contact c (some p)
  match ← call c (c.backend.get p) with
  | .error cause => reportFailure c "get_policy" (some p.render) cause
  | .ok policy =>
    say (policy.elim (Answer.unspecified p.render) Policy.name)
    return Status.ok

/-- Gives a place a policy of its own. -/
def runSetPolicy (c : Setting σ) (p : NamespacePath) (name : Text) : SessionM σ Int := do
  contact c (some p)
  match ← call c (c.backend.set p name) with
  | .error cause => reportFailure c "set_policy" (some p.render) cause
  | .ok () =>
    log c .info "policy_set" [("path", .text p.render), ("policy", .text name)]
    say (Answer.set name p.render)
    return Status.ok

/-- Takes a place's own policy away. -/
def runUnsetPolicy (c : Setting σ) (p : NamespacePath) : SessionM σ Int := do
  contact c (some p)
  match ← call c (c.backend.unset p) with
  | .error cause => reportFailure c "unset_policy" (some p.render) cause
  | .ok () =>
    log c .info "policy_unset" [("path", .text p.render)]
    say (Answer.unset p.render)
    return Status.ok

/-- A name without the dashes in front. -/
def withoutDashes (t : Text) : Text :=
  t.dropWhile (· == .char '-')

/-- The words on a topic that is no command. -/
def unknownTopic (topic : Text) : Text :=
  said "Unknown command '" (topic ++ said "'.\nValid help command names are:\n"
    (Text.joinWith ", ".text (names.map withoutDashes)))

/-- Explains one command, or all of them. -/
def runHelp : Option Text → SessionM σ Int
  | none => do
    complain (catalog true)
    return Status.ok
  | some topic =>
    match resolve (.char '-' :: withoutDashes topic) with
    | .ok s => do
      say s.longUsage
      return Status.ok
    | .error _ => do
      complain (unknownTopic topic)
      return Status.usage

/-- Carries out a command. -/
def execute (c : Setting σ) : Command → SessionM σ Int
  | .listPolicies => runListPolicies c
  | .getPolicy p => runGetPolicy c p
  | .setPolicy p name => runSetPolicy c p name
  | .unsetPolicy p => runUnsetPolicy c p
  | .help topic => runHelp topic
  | .unspecified => throw (.misuse .unsupportedCommand)

/-! ### From arguments -/

/-- What is said about a command that was called the wrong way. -/
def usageAnswer (s : Spec) : UsageFailure → Text
  | .missingOption _ hint => hint ++ said "\nUsage: " s.longUsage
  | .tooManyArguments _ => s.name ++ ": Too many arguments".text
  | cause => cause.message

/-- Carries out the command of a description and its arguments. -/
def run (c : Setting σ) (config : Config) (s : Spec) (args : List Text) : SessionM σ Int :=
  match parse s args config.workingDir with
  | .ok command => execute c command
  | .error (.usage cause) => do
    complain (usageAnswer s cause)
    return Status.usage
  | .error f => throw f

end Command

end CodingPolicy
