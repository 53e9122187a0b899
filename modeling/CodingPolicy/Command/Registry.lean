/-
CodingPolicy/Command/Registry.lean

The commands that there are, in the order in which they are listed, and the
catalogue of their usages.
-/
import CodingPolicy.Command.Spec

namespace CodingPolicy.Command

/-- The name of the program. -/
def programName : Text := "ecadmin".text

/-- The options of a command that works on one path. -/
def pathOption (hint : String) : OptionSpec :=
  { name := "-path".text, hint := hint.text }

/-- The description of each command. -/
def spec : Name → Spec
  | .listPolicies =>
    { name := Name.listPolicies.text
      description := "Get the list of supported erasure coding policies.".text }
  | .getPolicy =>
    { name := Name.getPolicy.text
      synopsis := "-path <path>".text
      description := "Get the erasure coding policy of a file/directory.".text
      options := [pathOption "Please specify the path with -path."]
      rows := [("<path>".text,
        "The path of the file/directory for getting the erasure coding policy".text)] }
  | .setPolicy =>
    { name := Name.setPolicy.text
      synopsis := "-path <path> -policy <policy>".text
      description := "Set the erasure coding policy for a file/directory.".text
      options := [pathOption "Please specify the path for setting the EC policy.",
        { name := "-policy".text, hint := "Please specify the policy name.".text }]
      rows := [("<path>".text,
          "The path of the file/directory to set the erasure coding policy".text),
        ("<policy>".text, "The name of the erasure coding policy".text)] }
  | .unsetPolicy =>
    { name := Name.unsetPolicy.text
      synopsis := "-path <path>".text
      description := "Unset the erasure coding policy for a directory.".text
      options := [pathOption "Please specify a path."]
      rows := [("<path>".text, ("The path of the directory from which the erasure coding "
        ++ "policy will be unset.").text)] }
  | .help =>
    { name := Name.help.text
      synopsis := "<command-name>".text
      description := "Get detailed help about a command.".text
      rows := [("<command-name>".text, ("The command for which to get detailed help. If no "
        ++ "command is specified, print detailed help for all commands.").text)] }

/-- The descriptions of all commands. -/
def registry : List Spec :=
  Name.all.map spec

/-- The names of all commands. -/
def names : List Text :=
  registry.map Spec.name

/-- The command of exactly this name. -/
def resolve (name : Text) : Except Failure Spec :=
  match registry.find? fun s => s.name = name with
  | some s => .ok s
  | none => .error (.usage (.unknownCommand name))

/-- The indentation of the catalogue. -/
def catalogIndent : Text := List.replicate 10 (.char ' ')

/-- The lines of the short catalogue: one per command. -/
def shortCatalog : List Text :=
  registry.map fun s => catalogIndent ++ s.shortUsage

/-- The lines of the long catalogue: the long usage of every command, each
followed by an empty line. -/
def longCatalog : List Text :=
  registry.flatMap fun s => [s.longUsage, []]

/-- The catalogue of all commands, without line ends behind it. -/
def catalog (long : Bool) : Text :=
  let head := said "Usage: " (programName ++ " [COMMAND]".text)
  Text.dropTrailing (· == .char '\n')
    (Text.joinWith [.char '\n'] (head :: if long then longCatalog else shortCatalog))

/-- Every command is found under its name. -/
theorem resolve_text (n : Name) : resolve n.text = .ok (spec n) := by
  cases n <;> rfl

end CodingPolicy.Command
