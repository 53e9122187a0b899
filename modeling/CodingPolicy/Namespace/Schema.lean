/-
CodingPolicy/Namespace/Schema.lean

The JSON form of a namespace's state: an object with the keys policies,
assignments and files. A key that is absent has its default, and other keys
are ignored, here and in the policies. A value that breaks the rules is refused
with the list of everything that is wrong, in the order of the keys; within one
key the form of every item is looked at before the rules on the whole.

Main results: a step further in nothing more is accepted (`within_eq_ok`), and a text
is read of a text alone (`readTextValue_eq_ok`).
-/
import CodingPolicy.Failure
import CodingPolicy.Namespace.State

namespace CodingPolicy

/-! ### Collecting violations -/

/-- Results of independent checks together: all values, or the violations of
all. -/
def gather {α : Type} : List (Except (List Violation) α) → Except (List Violation) (List α)
  | [] => .ok []
  | .ok a :: r =>
    match gather r with
    | .ok as => .ok (a :: as)
    | .error vs => .error vs
  | .error v :: r =>
    match gather r with
    | .ok _ => .error v
    | .error vs => .error (v ++ vs)

/-- The violations that a check found. -/
def violations {α : Type} : Except (List Violation) α → List Violation
  | .ok _ => []
  | .error vs => vs

/-- The result of a check one step further in. -/
def within {α : Type} (step : Place) : Except (List Violation) α → Except (List Violation) α
  | .ok a => .ok a
  | .error vs => .error (vs.map (Violation.under step))

theorem within_eq_ok {α : Type} {step : Place} {result : Except (List Violation) α} {a : α} :
    within step result = .ok a ↔ result = .ok a := by
  rcases result with vs | a' <;> simp [within]

/-- A single violation at the value itself. -/
def refuse {α : Type} (cause : Violation.Cause) : Except (List Violation) α :=
  .error [⟨[], cause⟩]

/-- A text. -/
def readTextValue : Json → Except (List Violation) Text
  | .string t => .ok t
  | _ => refuse .noText

theorem readTextValue_eq_ok {v : Json} {t : Text} : readTextValue v = .ok t ↔ v = .string t := by
  cases v <;> simp [readTextValue, refuse]

/-- The items of a list, each checked at its place. -/
def readItemsWith {α : Type} (check : Json → Except (List Violation) α) (items : List Json) :
    Except (List Violation) (List α) :=
  gather (items.mapIdx fun i v => within (.item i) (check v))

namespace Policy

/-- The rule on policy names. -/
def checkName (name : Text) : Except (List Violation) Policy :=
  if Text.isBlankText name then refuse (.refused "policy name cannot be empty".text)
  else .ok ⟨name⟩

/-- A policy from the value of its name. -/
def readName (v : Json) : Except (List Violation) Policy :=
  within (.key "name".text) (readTextValue v >>= checkName)

/-- A policy from its JSON form. -/
def ofJson : Json → Except (List Violation) Policy
  | .object members =>
    match Entries.get? "name".text members with
    | some v => readName v
    | none => .error [⟨[.key "name".text], .missing⟩]
  | _ => refuse (.noObject "ErasureCodingPolicy".text)

/-- The JSON form of a policy. -/
def toJson (p : Policy) : Json :=
  .object [("name".text, .string p.name)]

end Policy

namespace State

/-- A place in the list of policies: a policy or a gap. -/
def readSlot : Json → Except (List Violation) (Option Policy)
  | .null => .ok none
  | v => (Policy.ofJson v).map some

/-- The list of policies. -/
def readPolicies : Json → Except (List Violation) (List (Option Policy))
  | .array items => readItemsWith readSlot items
  | _ => refuse .noList

/-- The first rule that an entry of the assignments breaks. -/
def entryFault? (e : Text × Text) : Option Text :=
  if e.1.head? ≠ some (.char '/') then some (said "assignment path must be absolute: " e.1)
  else if Text.isBlankText e.2 then some (said "assignment on " (e.1 ++ " names no policy".text))
  else none

/-- The assignments. -/
def readAssignments : Json → Except (List Violation) (OrderedMap Text Text)
  | .object members => do
    let entries ← gather (members.map fun e =>
      within (.key e.1) ((readTextValue e.2).map fun name => (e.1, name)))
    match entries.findSome? entryFault? with
    | some reason => refuse (.refused reason)
    | none => return .ofList entries
  | _ => refuse .noMap

/-- The paths of regular files. -/
def readFiles : Json → Except (List Violation) (List Text)
  | .array items => do
    let files ← readItemsWith readTextValue items
    match files.find? fun f => f.head? ≠ some (.char '/') with
    | some f => refuse (.refused (said "file path must be absolute: " f))
    | none => return files
  | _ => refuse .noList

/-- The value at a key, or the default where the key is absent. -/
def readKey {α : Type} (key : String) (check : Json → Except (List Violation) α) (default : α)
    (members : List (Text × Json)) : Except (List Violation) α :=
  match Entries.get? key.text members with
  | some v => within (.key key.text) (check v)
  | none => .ok default

/-- A state from its JSON form, or everything that is wrong with it. -/
def ofJson : Json → Except (List Violation) State
  | .object members =>
    let blank : State := {}
    match readKey "policies" readPolicies blank.policies members,
        readKey "assignments" readAssignments blank.assignments members,
        readKey "files" readFiles blank.files members with
    | .ok policies, .ok assignments, .ok files => .ok { policies, assignments, files }
    | p, a, f => .error (violations p ++ violations a ++ violations f)
  | _ => refuse (.noObject "NamespaceState".text)

/-- The JSON form of a state. -/
def toJson (s : State) : Json :=
  .object
    [("policies".text, .array (s.policies.map fun
        | some p => p.toJson
        | none => .null)),
      ("assignments".text, .object (s.assignments.entries.map fun e => (e.1, .string e.2))),
      ("files".text, .array (s.files.map .string))]

end State

end CodingPolicy
