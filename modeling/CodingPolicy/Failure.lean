/-
CodingPolicy/Failure.lean

Everything that can go wrong, by its cause, and the words for it. Failures
fall into groups, and a caller that knows how to answer one group lets the
others pass: usage failures are the user's way of calling, service failures
come from the namespace, a configuration failure stops the program before any
command, and an invalid argument is a value of the wrong shape.
-/
import CodingPolicy.Json.Reader
import CodingPolicy.Text.Lines
import CodingPolicy.Text.Utf8
import CodingPolicy.Uri.Basic
import CodingPolicy.Violation

namespace CodingPolicy

/-! ### Details -/

/-- Something that is given along with a failure. -/
inductive Detail where
  /-- A text. -/
  | text (value : Text)
  /-- Any other value, by its literal. -/
  | literal (value : Text)
  deriving DecidableEq, Repr

namespace Detail

/-- The detail as it is shown alone. -/
def shown : Detail → Text
  | text t => t
  | literal t => t

/-- The detail as it is shown among others. -/
def quoted : Detail → Text
  | text t => Text.quote t
  | literal t => t

/-- Details in words: a single one as it is, several as a list in brackets. -/
def message : List Detail → Text
  | [] => []
  | [d] => d.shown
  | ds => .char '(' :: Text.joinWith ", ".text (ds.map quoted) ++ [.char ')']

end Detail

/-! ### Causes -/

/-- A value of the wrong shape. -/
inductive InvalidArgument where
  /-- The text of a path is empty. -/
  | emptyPath
  /-- The text of a path holds the NUL character. -/
  | nulInPath
  /-- The text of a path looks like a URI and has no scheme. -/
  | noScheme (raw : Text)
  /-- A path with a query or a fragment. -/
  | queryOrFragment (raw : Text)
  /-- A path that climbs above the root. -/
  | aboveRoot (raw : Text)
  /-- A path on another file system than the one that is served. -/
  | otherFileSystem (path expected : Text)
  /-- An option that takes a value stands last. -/
  | valueMissing (option : Text)
  /-- Any other reason, by its details. -/
  | other (details : List Detail)
  deriving DecidableEq, Repr

/-- A command that was called the wrong way. -/
inductive UsageFailure where
  /-- A required option is absent; the hint says what to do. -/
  | missingOption (option hint : Text)
  /-- Arguments that no option takes. -/
  | tooManyArguments (leftover : List Text)
  /-- No command has this name. -/
  | unknownCommand (name : Text)
  /-- Help was asked for on more than one topic. -/
  | tooManyTopics
  /-- The command has this name, and its arguments have no meaning. -/
  | noParser (name : Text)
  /-- Any other reason, by its details. -/
  | other (details : List Detail)
  deriving DecidableEq, Repr

/-- Why a path cannot carry a policy of its own. -/
inductive Ineligible where
  /-- A policy was to be set on a regular file. -/
  | setOnFile (path : Text)
  /-- A policy was to be taken from a regular file. -/
  | unsetOnFile (path : Text)
  /-- Any other reason, by its details. -/
  | other (details : List Detail)
  deriving DecidableEq, Repr

/-- Why the namespace could not be reached. -/
inductive Unavailable where
  /-- The state file cannot be read as text. -/
  | unreadable (file : Text)
  /-- The state file holds no JSON. -/
  | noJson (file : Text)
  /-- The state file holds no state. -/
  | noState (file : Text)
  /-- The state file cannot be written. -/
  | unwritable (file : Text)
  /-- Any other reason, by its details. -/
  | other (details : List Detail)
  deriving DecidableEq, Repr

/-- The name of a kind of failure that a service brings along. It stands on one line. -/
structure KindName where
  /-- The name. -/
  text : Text
  /-- No line ends within the name. -/
  oneLine : ∀ c ∈ text, Text.isLineBreak c = false
  deriving DecidableEq, Repr

/-- A failure that the namespace service reports. -/
inductive ServiceFailure where
  /-- The policy is not among those that are known. -/
  | policyNotFound (name : Text) (available : List Text)
  /-- The path cannot carry a policy of its own. -/
  | ineligible (reason : Ineligible)
  /-- The path has no policy of its own. -/
  | noPolicySet (path : Text)
  /-- The namespace could not be reached. -/
  | unavailable (reason : Unavailable)
  /-- A failure of a kind that the service brings along, by its details. -/
  | special (kind : KindName) (details : List Detail)
  /-- Any other reason, by its details. -/
  | other (details : List Detail)
  deriving DecidableEq, Repr

/-- What is wrong with the configuration. -/
inductive ConfigFailure where
  /-- A generic option stands last and has no value. -/
  | valueMissing (option : Text)
  /-- The definition of a property is not of the form key=value. -/
  | badDefinition (definition : Text)
  /-- The configuration file cannot be read. -/
  | unreadable (file : Text)
  /-- The configuration file holds no JSON. -/
  | noJson (file : Text)
  /-- The configuration file holds JSON that is no object. -/
  | noObject (file : Text)
  /-- The settings break this rule, the first of those that they break. -/
  | invalid (violation : Violation)
  /-- The log file cannot be opened. -/
  | logFile (file : Text)
  /-- Any other reason, by its details. -/
  | other (details : List Detail)
  deriving DecidableEq, Repr

/-- A value that an operation cannot take. -/
inductive ValueFailure where
  /-- A text is no URI. -/
  | uri (fault : Uri.Fault)
  /-- The name of a file holds the NUL character. -/
  | nulInFileName
  /-- A whole number has too many digits. -/
  | tooManyDigits (count : Nat)
  /-- Any other reason, by its details. -/
  | other (details : List Detail)
  deriving DecidableEq, Repr

/-- A use of an operation that it is not made for. -/
inductive Misuse where
  /-- A command without a meaning was to be carried out. -/
  | unsupportedCommand
  /-- An event was given its name twice. -/
  | nameTwice
  /-- An event was given its level twice. -/
  | levelTwice
  /-- The level of an event is no whole number. -/
  | levelNotWhole
  /-- Any other reason, by its details. -/
  | other (details : List Detail)
  deriving DecidableEq, Repr

/-- A request that the operating system turns down. -/
inductive SystemFailure where
  /-- The name of a file is too long. -/
  | nameTooLong (file : Text)
  deriving DecidableEq, Repr

/-- A failure. -/
inductive Failure where
  /-- A failure of the program that belongs to no narrower group. -/
  | general (details : List Detail)
  /-- The configuration is wrong. -/
  | config (cause : ConfigFailure)
  /-- An argument has the wrong shape. -/
  | invalidArgument (cause : InvalidArgument)
  /-- A command was called the wrong way. -/
  | usage (cause : UsageFailure)
  /-- The namespace service reports a failure. -/
  | service (cause : ServiceFailure)
  /-- An operation cannot take a value. -/
  | value (cause : ValueFailure)
  /-- Bytes are no text. -/
  | undecodable (fault : Utf8.Fault)
  /-- A text has no bytes. -/
  | unencodable (fault : Utf8.WriteFault)
  /-- The operating system turns a request down. -/
  | system (cause : SystemFailure)
  /-- A value does not fit its model. -/
  | invalidModel (violations : List Violation)
  /-- The home directory cannot be told. -/
  | noHome
  /-- A circumstance of the running program. -/
  | circumstance (details : List Detail)
  /-- An operation was used in a way that it is not made for. -/
  | misuse (cause : Misuse)
  /-- A key that should be there is not. -/
  | missingKey (key : Text)
  deriving DecidableEq, Repr

/-! ### In words -/

/-- The word before what follows in a message. -/
def said (lead : String) (rest : Text) : Text :=
  lead.text ++ rest

/-- The cause in words. -/
def InvalidArgument.message : InvalidArgument → Text
  | emptyPath => "Can not create a Path from an empty string".text
  | nulInPath => "Path contains NUL (\\0) character.".text
  | noScheme raw => said "Invalid path URI: " raw
  | queryOrFragment raw => said "Path must not carry a query or fragment: " raw
  | aboveRoot raw => said "Path escapes the namespace root: " raw
  | otherFileSystem path expected => said "Wrong FS: " (path ++ said ", expected: " expected)
  | valueMissing option => said "option " (option ++ " requires 1 argument.".text)
  | other details => Detail.message details

/-- The hint on a missing option that has no hint of its own. -/
def defaultHint (option : Text) : Text :=
  said "Please specify " (option ++ ".".text)

/-- The cause in words. -/
def UsageFailure.message : UsageFailure → Text
  | missingOption _ hint => hint
  | tooManyArguments leftover => said "Too many arguments: " (Text.joinWith [.char ' '] leftover)
  | unknownCommand name => said "Can't understand command '" (name ++ "'".text)
  | tooManyTopics => "You must give exactly one argument to -help.".text
  | noParser name => said "No parser for command '" (name ++ "'".text)
  | other details => Detail.message details

/-- The reason in words. -/
def Ineligible.message : Ineligible → Text
  | setOnFile path => said "Attempt to set an erasure coding policy for a file " path
  | unsetOnFile path => said "Cannot unset an erasure coding policy on a file " path
  | other details => Detail.message details

/-- The reason in words. -/
def Unavailable.message : Unavailable → Text
  | unreadable file => said "Could not read namespace state: " file
  | noJson file => said "Invalid namespace state JSON: " file
  | noState file => said "Invalid namespace state: " file
  | unwritable file => said "Could not write namespace state: " file
  | other details => Detail.message details

/-- The cause in words. -/
def ServiceFailure.message : ServiceFailure → Text
  | policyNotFound name available =>
    said "Policy '" (name
      ++ said "' does not match any enabled erasure coding policies: ["
        (Text.joinWith ", ".text available ++ "]".text))
  | ineligible reason => reason.message
  | noPolicySet path => said "No erasure coding policy explicitly set on " path
  | unavailable reason => reason.message
  | special _ details => Detail.message details
  | other details => Detail.message details

/-- A way into a value, its steps separated by dots. -/
def placeText (place : List Place) : Text :=
  Text.joinWith [.char '.'] (place.map fun
    | .key name => name
    | .item index => Number.natText index)

/-- A violation in words, after the place where it is. -/
def Violation.message (v : Violation) : Text :=
  let place := placeText v.place
  if place = [] then v.cause.message else place ++ said ": " v.cause.message

/-- The cause in words. -/
def ConfigFailure.message : ConfigFailure → Text
  | valueMissing option => option ++ " requires an argument.".text
  | badDefinition definition => said "Property definition must be key=value: " definition
  | unreadable file => said "Could not read configuration file: " file
  | noJson file => said "Invalid configuration JSON: " file
  | noObject file => said "Configuration JSON must be an object: " file
  | invalid violation => said "Invalid configuration: " violation.message
  | logFile file => said "Could not open log file: " file
  | other details => Detail.message details

/-- The cause in words. -/
def ValueFailure.message : ValueFailure → Text
  | uri fault => fault.message
  | nulInFileName => "embedded null byte".text
  | tooManyDigits count => (Json.Fault.tooManyDigits count).message
  | other details => Detail.message details

/-- The cause in words. -/
def Misuse.message : Misuse → Text
  | unsupportedCommand => "Unsupported command: ParsedCommand()".text
  | nameTwice => "log_event() got multiple values for argument 'event'".text
  | levelTwice =>
    ("ecadmin.logging_utils.log_event() got multiple values for keyword argument "
      ++ "'level'").text
  | levelNotWhole => "level must be an integer".text
  | other details => Detail.message details

/-- The cause in words, after its number. -/
def SystemFailure.message : SystemFailure → Text
  | nameTooLong file => said "[Errno 36] File name too long: " (Text.quote file)

namespace Failure

/-- The failure in words. -/
def message : Failure → Text
  | general details => Detail.message details
  | config cause => cause.message
  | invalidArgument cause => cause.message
  | usage cause => cause.message
  | service cause => cause.message
  | value cause => cause.message
  | undecodable fault => fault.message
  | unencodable fault => fault.message
  | system cause => cause.message
  | invalidModel violations => Text.joinWith [.char '\n'] (violations.map Violation.message)
  | noHome => "Could not determine home directory.".text
  | circumstance details => Detail.message details
  | misuse cause => cause.message
  | missingKey key => Text.quote key

/-- The details of a failure: those that were given along with it, and its words
where it has a cause of its own. -/
def details : Failure → List Detail
  | general ds | circumstance ds => ds
  | config (.other ds) | invalidArgument (.other ds) | usage (.other ds) | value (.other ds)
  | misuse (.other ds) => ds
  | service (.other ds) | service (.special _ ds) | service (.ineligible (.other ds))
  | service (.unavailable (.other ds)) => ds
  | missingKey key => [.text key]
  | f => [.text f.message]

/-! ### Kinds -/

/-- The name under which a failure is reported. -/
def kind : Failure → Text
  | general _ => "EcAdminError".text
  | config _ => "ConfigError".text
  | invalidArgument _ => "InvalidArgumentError".text
  | usage cause =>
    match cause with
    | .missingOption _ _ => "MissingOptionError".text
    | .tooManyArguments _ => "TooManyArgumentsError".text
    | .unknownCommand _ => "UnknownCommandError".text
    | _ => "CommandUsageError".text
  | service cause =>
    match cause with
    | .policyNotFound _ _ => "PolicyNotFoundError".text
    | .ineligible _ => "IneligiblePathError".text
    | .noPolicySet _ => "NoPolicySetError".text
    | .unavailable _ => "NamespaceUnavailableError".text
    | .special kind _ => kind.text
    | .other _ => "NamespaceError".text
  | value _ => "ValueError".text
  | undecodable _ => "UnicodeDecodeError".text
  | unencodable _ => "UnicodeEncodeError".text
  | system _ => "OSError".text
  | invalidModel _ => "ValidationError".text
  | noHome => "RuntimeError".text
  | circumstance _ => "RuntimeError".text
  | misuse _ => "TypeError".text
  | missingKey _ => "KeyError".text

/-- The failure is of one of the program's own kinds. -/
def isOwn : Failure → Bool
  | service (.special _ _) => false
  | general _ | config _ | invalidArgument _ | usage _ | service _ => true
  | _ => false

/-- The names of the groups that the failure belongs to, the narrowest first. -/
def groups (f : Failure) : List Text :=
  let general := "EcAdminError".text
  let value := "ValueError".text
  let within (group : Text) : List Text := if f.kind = group then [] else [group]
  f.kind :: match f with
    | .general _ => []
    | .config _ => [general]
    | .invalidArgument _ => [value, general]
    | .usage _ => within "CommandUsageError".text ++ [general]
    | .service _ => within "NamespaceError".text ++ [general]
    | .undecodable _ | .unencodable _ => ["UnicodeError".text, value]
    | .invalidModel _ => [value]
    | .missingKey _ => ["LookupError".text]
    | _ => []

/-- The failure on one line: its kind and the first line of its words. -/
def summary (f : Failure) : Text :=
  f.kind ++ said ": " (Text.firstLine f.message)

/-- The name of the failure's kind, with the place where the program's own
kinds are at home. -/
def fullKind (f : Failure) : Text :=
  if f.isOwn then said "ecadmin.errors." f.kind else f.kind

/-- The failure as it is reported to people who look for its cause: its full
kind, and its words if it has any. -/
def report (f : Failure) : Text :=
  if f.message = [] then f.fullKind else f.fullKind ++ said ": " f.message

end Failure

end CodingPolicy
