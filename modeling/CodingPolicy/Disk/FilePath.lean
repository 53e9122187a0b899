/-
CodingPolicy/Disk/FilePath.lean

Names of files: where the walk starts, and the segments on the way. Empty
segments and single dots vanish when a name is read; double dots stay, since
they are walked and not cancelled. Two slashes in front are told apart from one
and from three or more.

Main result: a name without a tilde in front expands to itself
(`expandHome_eq_self`).
-/
import CodingPolicy.Failure

namespace CodingPolicy

/-- The home directories: that of the user at work, and those of the users that
are known, by name. -/
structure Homes where
  /-- The home directory of the user at work. -/
  own : Text
  /-- The home directories of users. -/
  users : List (Text × Text) := []
  deriving DecidableEq, Repr

/-- A home directory by itself, with no user known. -/
instance : Coe Text Homes := ⟨fun own => { own }⟩

/-- The home directory that a tilde with a user's name after it stands for. -/
def Homes.find? (homes : Homes) : Text → Option Text
  | [] => some homes.own
  | user => homes.users.lookup user

/-- Where the walk of a file name starts. -/
inductive FilePath.Anchor where
  /-- The working directory. -/
  | here
  /-- The root. -/
  | root
  /-- The root, written with two slashes. -/
  | doubleRoot
  deriving DecidableEq, Repr

/-- The name of a file. -/
structure FilePath where
  /-- Where the walk starts. -/
  anchor : FilePath.Anchor := .here
  /-- The segments on the way. -/
  segments : List Text := []
  deriving DecidableEq, Repr

namespace FilePath

/-- The text of an anchor. -/
def Anchor.text : Anchor → Text
  | here => []
  | root => [.char '/']
  | doubleRoot => [.char '/', .char '/']

/-- The anchor that a text starts with. -/
def Anchor.ofText (t : Text) : Anchor :=
  match (t.takeWhile (· == .char '/')).length with
  | 0 => here
  | 2 => doubleRoot
  | _ => root

/-- A segment that takes part in the walk. -/
def isSegment (s : Text) : Bool :=
  s ≠ [] && s ≠ [.char '.']

/-- The name that a text stands for. -/
def ofText (t : Text) : FilePath where
  anchor := .ofText t
  segments := (Text.splitOn '/' t).filter isSegment

/-- The name as text; a single dot where nothing else is left. -/
def render (p : FilePath) : Text :=
  match p.anchor.text ++ Text.joinWith [.char '/'] p.segments with
  | [] => [.char '.']
  | t => t

/-- The name without its last segment. -/
def parent (p : FilePath) : FilePath :=
  { p with segments := p.segments.dropLast }

/-- The segments as a disk lists them. -/
def onDisk (p : FilePath) : List Text :=
  p.segments.map Utf8.nameOnDisk

/-! ### Texts that are no names -/

/-- Why a text can be the name of no file. -/
inductive Fault where
  /-- It holds the NUL character. -/
  | nul
  /-- It has no bytes. -/
  | unencodable (fault : Utf8.WriteFault)
  deriving DecidableEq, Repr

/-- The failure of an operation that is given such a text. -/
def Fault.failure : Fault → Failure
  | nul => .value .nulInFileName
  | unencodable fault => .unencodable fault

/-- What is wrong with a text that is the name of a file or a user, if anything. -/
def faultOf? (t : Text) : Option Fault :=
  match Utf8.nameFault? t with
  | some fault => some (.unencodable fault)
  | none => if .char '\x00' ∈ t then some .nul else none

/-- What is wrong with the name, if anything. -/
def fault? (p : FilePath) : Option Fault :=
  faultOf? p.render

/-! ### The home directory -/

/-- The text of the home directory without slashes at its end; the root where
nothing is left. -/
def homeText (home : Text) : Text :=
  match Text.dropTrailing (· == .char '/') home with
  | [] => [.char '/']
  | t => t

/-- The name with a first segment of a tilde replaced by the home directory. A
tilde with a name after it stands for that user's. A home directory that starts
with a tilde itself is of no use. -/
def expandHome (homes : Homes) (p : FilePath) : Except Failure FilePath :=
  match p.anchor, p.segments with
  | .here, (.char '~' :: user) :: rest =>
    match faultOf? user with
    | some fault => .error fault.failure
    | none =>
      match (homes.find? (Utf8.nameOnDisk user)).map homeText with
      | none | some (.char '~' :: _) => .error .noHome
      | some t =>
        let base := ofText t
        .ok { base with segments := base.segments ++ rest }
  | _, _ => .ok p

/-- A text is a name where every code point in it may stand in one. -/
theorem faultOf?_eq_none_iff {t : Text} :
    faultOf? t = none ↔ ∀ c ∈ t, Utf8.isNameable c = true ∧ c ≠ '\x00' := by
  have hne : (∀ c ∈ t, c ≠ '\x00') ↔ .char '\x00' ∉ t :=
    ⟨fun h hm => h _ hm rfl, fun h c hc he => h (he ▸ hc)⟩
  simp only [imp_and, forall_and]
  rw [← Utf8.nameFault?_eq_none_iff, hne, faultOf?]
  cases Utf8.nameFault? t with
  | some fault => simp
  | none => simp

/-- A name is one where all its segments are. -/
theorem fault?_eq_none_iff {p : FilePath} :
    p.fault? = none ↔ ∀ s ∈ p.segments, faultOf? s = none := by
  have hslash : Utf8.isNameable '/' = true ∧ CodePoint.char '/' ≠ '\x00' := by decide
  have hanchor : ∀ c ∈ p.anchor.text, c = '/' := by
    cases p.anchor <;> simp [Anchor.text]
  simp only [fault?, faultOf?_eq_none_iff]
  constructor
  · intro h s hs c hc
    have hm : c ∈ p.anchor.text ++ Text.joinWith [.char '/'] p.segments :=
      List.mem_append_right _ (Text.mem_joinWith_of_mem hs hc)
    apply h c
    rw [render]
    split
    · next hnil =>
      rw [hnil] at hm
      cases hm
    · exact hm
  · intro h c hc
    rw [render] at hc
    split at hc
    · rw [List.mem_singleton.1 hc]
      decide
    · rcases List.mem_append.1 hc with hc | hc
      · rw [hanchor c hc]
        exact hslash
      · rcases Text.mem_joinWith hc with hc | ⟨s, hs, hc⟩
        · rw [List.mem_singleton.1 hc]
          exact hslash
        · exact h s hs c hc

/-- What stands above a name is a name. -/
theorem fault?_parent {p : FilePath} (h : p.fault? = none) : p.parent.fault? = none := by
  rw [fault?_eq_none_iff] at h ⊢
  exact fun s hs => h s (List.dropLast_subset _ hs)

/-- A name that is not shown with a tilde in front expands to itself. -/
theorem expandHome_eq_self {homes : Homes} {p : FilePath} (h : p.render.head? ≠ some (.char '~')) :
    p.expandHome homes = .ok p := by
  rcases p with ⟨anchor, segments⟩
  unfold expandHome
  split
  · next user rest hanchor hsegments =>
    simp only at hanchor hsegments
    subst hanchor hsegments
    refine absurd ?_ h
    cases rest <;> rfl
  · rfl

end FilePath

end CodingPolicy
