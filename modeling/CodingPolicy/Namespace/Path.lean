/-
CodingPolicy/Namespace/Path.lean

Places in the namespace. A place is an absolute path, with the scheme and the
authority of a URI if it was given as one. A path is written bare, relative to
a working directory, or as a URI; empty segments and single dots are dropped, a
double dot takes the segment before it away, and no path climbs above the root.
-/
import CodingPolicy.Failure

namespace CodingPolicy

/-- A place in the namespace; scheme and authority are empty for a bare path. -/
structure NamespacePath where
  /-- The absolute path. -/
  path : Text
  /-- The scheme of the URI. -/
  scheme : Text := []
  /-- The authority of the URI. -/
  authority : Text := []
  deriving DecidableEq, Repr

namespace NamespacePath

/-- What separates the segments of a path. -/
def separator : CodePoint := '/'

/-- What follows the scheme of a URI. -/
def schemeMark : Text := "://".text

/-- The place as text: a URI if it has a scheme. -/
def render (p : NamespacePath) : Text :=
  if p.scheme = [] then p.path else p.scheme ++ schemeMark ++ p.authority ++ p.path

/-! ### Ancestors -/

/-- The place is the root. -/
def isRoot (p : NamespacePath) : Bool :=
  p.path = [separator]

/-- The place one step up; the root has none. -/
def parent? (p : NamespacePath) : Option NamespacePath :=
  if p.isRoot then none
  else
    let above := Text.beforeLast separator p.path
    some { p with path := if above = [] then [separator] else above }

/-- The place and its ancestors, the nearest first, at most `bound` of them. -/
def lineageWithin : Nat → NamespacePath → List NamespacePath
  | 0, _ => []
  | bound + 1, p =>
    p :: match p.parent? with
      | none => []
      | some q => lineageWithin bound q

/-- The place and all its ancestors up to the root, the nearest first. Each step
up makes an absolute path shorter, so its length bounds their number. -/
def lineage (p : NamespacePath) : List NamespacePath :=
  lineageWithin (p.path.length + 2) p

/-! ### Reading -/

/-- The segments that are left when empty ones and single dots are dropped and
every double dot has taken the segment before it away; nothing if there is none
to take. The segments so far are given in reverse. -/
def resolve (behind : List Text) : List Text → Option (List Text)
  | [] => some behind.reverse
  | s :: r =>
    if s = [] ∨ s = [.char '.'] then resolve behind r
    else if s = [.char '.', .char '.'] then
      match behind with
      | [] => none
      | _ :: b => resolve b r
    else resolve (s :: behind) r

/-- The absolute path of these segments. -/
def ofSegments (segments : List Text) : Text :=
  separator :: Text.joinWith [separator] segments

/-- The absolute path that a text stands for; nothing if it climbs above the root. -/
def normalize? (t : Text) : Option Text :=
  (resolve [] (Text.splitOn separator t)).map ofSegments

/-- The text starts with a scheme mark that no separator stands before. -/
def looksLikeUri (raw : Text) : Bool :=
  match Text.cutAt schemeMark raw with
  | some (before, _) => separator ∉ before
  | none => false

/-- The parts of a text given as a URI; it must have a scheme, and neither a
query nor a fragment. An empty path is the root. -/
def splitUri (raw : Text) : Except Failure NamespacePath :=
  match Uri.split raw with
  | .error fault => .error (.value (.uri fault))
  | .ok uri =>
    if uri.scheme = [] then .error (.invalidArgument (.noScheme raw))
    else if uri.query ≠ [] ∨ uri.fragment ≠ [] then
      .error (.invalidArgument (.queryOrFragment raw))
    else .ok ⟨if uri.path = [] then [separator] else uri.path, uri.scheme, uri.authority⟩

/-- The text itself where it is absolute, or the text below the working directory. -/
def absolute (workingDir t : Text) : Text :=
  if t.head? = some separator then t
  else Text.dropTrailing (· == separator) workingDir ++ separator :: t

/-- The place that a text stands for, seen from a working directory. -/
def parse (workingDir raw : Text) : Except Failure NamespacePath := do
  if raw = [] then throw (.invalidArgument .emptyPath)
  if .char '\x00' ∈ raw then throw (.invalidArgument .nulInPath)
  let p ← if looksLikeUri raw then splitUri raw else pure { path := raw }
  match normalize? (absolute workingDir p.path) with
  | some path => return { p with path }
  | none => throw (.invalidArgument (.aboveRoot raw))

/-! ### File systems -/

/-- The place is on the given file system: it is bare, or its scheme is that of
the file system and its authority is empty or that of the file system. -/
def checkFileSystem (p : NamespacePath) (defaultFs : Text) : Except Failure Unit :=
  if p.scheme = [] then .ok ()
  else
    match Uri.split defaultFs with
    | .error fault => .error (.value (.uri fault))
    | .ok expected =>
      if p.scheme = expected.scheme ∧ (p.authority = [] ∨ p.authority = expected.authority) then
        .ok ()
      else .error (.invalidArgument (.otherFileSystem p.render defaultFs))

end NamespacePath

end CodingPolicy
