/-
CodingPolicy/Config/Generic.lean

The options that may stand before any command: the configuration file, the file
system, and the definition of a single setting, which may be written together
with its option. They end at the first argument that is none of them.
-/
import CodingPolicy.Config.Basic

namespace CodingPolicy.Config

/-- How the generic options are used. -/
def genericUsage : Text :=
  ("Generic options supported are:\n"
    ++ "-conf <configuration file>    specify an application configuration file\n"
    ++ "-D <key=value>                define a value for a given property\n"
    ++ "-fs <uri>                     specify the default filesystem URI, overrides\n"
    ++ "                              the 'default_fs' property from configurations\n"
    ++ "\n"
    ++ "The general command line syntax is:\n"
    ++ "ecadmin [genericOptions] [COMMAND]").text

/-- What the generic options say. -/
structure GenericOptions where
  /-- The configuration file. -/
  configFile : Option FilePath := none
  /-- Settings that stand above those of the configuration file. -/
  overrides : OrderedMap Text Text := .empty
  deriving DecidableEq

namespace GenericOptions

/-- The option of the configuration file. -/
def fileOption : Text := "-conf".text

/-- The option of a single setting. -/
def settingOption : Text := "-D".text

/-- The option of the file system. -/
def fsOption : Text := "-fs".text

/-- A generic option that takes the next argument as its value. -/
def isOption (a : Text) : Bool :=
  a = fileOption || a = settingOption || a = fsOption

/-- The setting that follows its option in the same argument. -/
def joined? (a : Text) : Option Text :=
  if settingOption.isPrefixOf a ∧ settingOption.length < a.length then
    some (a.drop settingOption.length)
  else none

/-- The options with one setting more: a key without white space around it, the
first equals sign, and the value. -/
def define (o : GenericOptions) (definition : Text) : Except Failure GenericOptions :=
  match Text.cutAt [.char '='] definition with
  | some (key, value) =>
    if Text.trim key = [] then .error (.config (.badDefinition definition))
    else .ok { o with overrides := o.overrides.insert (Text.trim key) value }
  | none => .error (.config (.badDefinition definition))

/-- The options with one more of the given name. -/
def apply (homes : Homes) (o : GenericOptions) (option value : Text) :
    Except Failure GenericOptions :=
  if option = fileOption then
    (FilePath.expandHome homes (.ofText value)).map fun p => { o with configFile := some p }
  else if option = fsOption then
    .ok { o with overrides := o.overrides.insert "default_fs".text value }
  else o.define value

/-- Takes the generic options from the front of the arguments. -/
def take (homes : Homes) (o : GenericOptions) :
    List Text → Except Failure (GenericOptions × List Text)
  | [] => .ok (o, [])
  | [a] =>
    if isOption a then .error (.config (.valueMissing a))
    else
      match joined? a with
      | some definition => (o.define definition).map fun o => (o, [])
      | none => .ok (o, [a])
  | a :: value :: r =>
    if isOption a then
      match o.apply homes a value with
      | .ok o => take homes o r
      | .error f => .error f
    else
      match joined? a with
      | some definition =>
        match o.define definition with
        | .ok o => take homes o (value :: r)
        | .error f => .error f
      | none => .ok (o, a :: value :: r)

/-- The generic options and the arguments after them. -/
def parse (homes : Homes) (args : List Text) : Except Failure (GenericOptions × List Text) :=
  take homes {} args

end GenericOptions

end CodingPolicy.Config
