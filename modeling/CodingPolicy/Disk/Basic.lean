/-
CodingPolicy/Disk/Basic.lean

A disk: directories and regular files by their location, and a working
directory. A file name is walked segment by segment; every segment but the last
must lead into a directory, and a double dot goes one step up, at the root to
the root itself. Names have a largest size, and so have their segments; a text that
has no bytes, or holds the NUL character, is the name of nothing.

A file is emptied when it is opened for writing, and only then are the bytes
written. Where the disk has no room for all of them, the file is left with those
that it took. No entry is a link: every file has one location.

Main results: after a write the file's location has what was written, and every
other location is as before (`find?_of_write`); the bytes that were written are
read back (`read_of_write`).
-/
import CodingPolicy.Disk.FilePath
import CodingPolicy.OrderedMap
import CodingPolicy.Text.Utf8

namespace CodingPolicy

/-- A place on the disk: the names on the way from the root. -/
abbrev Location := List Text

/-- What stands at a location. -/
inductive Disk.Entry where
  /-- A directory. -/
  | directory
  /-- A regular file with its bytes. -/
  | file (bytes : List UInt8)
  deriving DecidableEq, Repr

/-- A disk. -/
structure Disk where
  /-- What stands where; the root is a directory and not listed. -/
  entries : List (Location × Disk.Entry) := []
  /-- The working directory. -/
  workingDir : Location := []
  /-- How many bytes of a file that is written anew the disk takes; all of them
  where there is no such number. -/
  room : Option Nat := none
  deriving DecidableEq, Repr

namespace Disk

/-- Why an operation on files fails. -/
inductive Fault where
  /-- There is nothing at a location on the way or at its end. -/
  | notFound
  /-- A regular file stands where a directory is needed. -/
  | notADirectory
  /-- A directory stands where a regular file is needed. -/
  | isADirectory
  /-- Something stands where a new directory was to be made. -/
  | exists
  /-- The text is no name. -/
  | name (fault : FilePath.Fault)
  /-- The name, or a segment of it, has too many bytes. -/
  | tooLong
  /-- There is no room for all of the bytes. -/
  | full
  /-- The text that was to be written has no bytes. -/
  | unencodable (fault : Utf8.WriteFault)
  deriving DecidableEq, Repr

/-! ### Looking -/

/-- What stands at a location. -/
def find? (d : Disk) (l : Location) : Option Entry :=
  if l = [] then some .directory else Entries.get? l d.entries

/-- The disk with the entry at the location. -/
def put (d : Disk) (l : Location) (e : Entry) : Disk :=
  { d with entries := Entries.insert l e d.entries }

/-- A directory stands at the location. -/
def checkDirectory (d : Disk) (l : Location) : Except Fault Unit :=
  match d.find? l with
  | some .directory => .ok ()
  | some (.file _) => .error .notADirectory
  | none => .error .notFound

/-! ### Walking -/

/-- One step of a walk. -/
def stepInto (l : Location) (s : Text) : Location :=
  if s = [.char '.', .char '.'] then l.dropLast else l ++ [s]

/-- The largest number of bytes in a segment of a name. -/
def segmentLimit : Nat := 255

/-- The largest number of bytes in a name. -/
def nameLimit : Nat := 4095

/-- A text that has more bytes than the limit. -/
def exceeds (limit : Nat) (t : Text) : Bool :=
  limit < (Utf8.nameBytes t).length

/-- The location that a walk from a directory ends at. Every location that is
left by a further step must be a directory; the end may be missing. -/
def walk (d : Disk) (l : Location) : List Text → Except Fault Location
  | [] => .ok l
  | s :: r =>
    match d.checkDirectory l with
    | .ok () => if exceeds segmentLimit s then .error .tooLong else walk d (stepInto l s) r
    | .error e => .error e

/-- Where the walk of a file name starts. -/
def start (d : Disk) (p : FilePath) : Location :=
  match p.anchor with
  | .here => d.workingDir
  | _ => []

/-- The location of a file name. -/
def locate (d : Disk) (p : FilePath) : Except Fault Location :=
  match p.fault? with
  | some fault => .error (.name fault)
  | none =>
    if exceeds nameLimit p.render then .error .tooLong
    else d.walk (d.start p) p.onDisk

/-- What a file name leads to. -/
def lookUp (d : Disk) (p : FilePath) : Except Fault Entry :=
  match d.locate p with
  | .error e => .error e
  | .ok l =>
    match d.find? l with
    | some e => .ok e
    | none => .error .notFound

/-- Whether the file name leads to something. Only a name that is too long is not
looked up. -/
def holds (d : Disk) (p : FilePath) : Except Fault Bool :=
  match d.lookUp p with
  | .ok _ => .ok true
  | .error .tooLong => .error .tooLong
  | .error _ => .ok false

/-- The file name leads to a directory. -/
def holdsDirectory (d : Disk) (p : FilePath) : Bool :=
  match d.lookUp p with
  | .ok .directory => true
  | _ => false

/-! ### Reading and writing -/

/-- The bytes of a regular file. -/
def read (d : Disk) (p : FilePath) : Except Fault (List UInt8) :=
  match d.lookUp p with
  | .ok (.file bytes) => .ok bytes
  | .ok .directory => .error .isADirectory
  | .error e => .error e

/-- A regular file can stand at the location: there is one, or there is nothing
and the directory above is there. -/
def checkWritable (d : Disk) (l : Location) : Except Fault Unit :=
  match d.find? l with
  | some .directory => .error .isADirectory
  | some (.file _) => .ok ()
  | none => d.checkDirectory l.dropLast

/-- The location of a file that is opened for writing. -/
def target (d : Disk) (p : FilePath) : Except Fault Location :=
  match d.locate p with
  | .error e => .error e
  | .ok l =>
    match d.checkWritable l with
    | .error e => .error e
    | .ok () => .ok l

/-- The disk has room for all of the bytes. -/
def hasRoom (d : Disk) (bytes : List UInt8) : Bool :=
  match d.room with
  | none => true
  | some n => bytes.length ≤ n

/-- Those of the bytes of a file that the disk takes. -/
def taken (d : Disk) (bytes : List UInt8) : List UInt8 :=
  match d.room with
  | none => bytes
  | some n => bytes.take n

/-- Writes a regular file of these bytes under the name. The file is opened first,
and from then on it has nothing but what the disk takes of the bytes. -/
def write (d : Disk) (p : FilePath) (bytes : List UInt8) : Except Fault Unit × Disk :=
  match d.target p with
  | .error e => (.error e, d)
  | .ok l =>
    (if d.hasRoom bytes then .ok () else .error .full, d.put l (.file (d.taken bytes)))

/-- The disk with the bytes behind those of the regular file at the location;
where there is no regular file, nothing happens. -/
def appendAt (d : Disk) (l : Location) (bytes : List UInt8) : Disk :=
  match d.find? l with
  | some (.file old) => d.put l (.file (old ++ bytes))
  | _ => d

/-! ### Making directories -/

/-- The disk with a new directory under the name. -/
def makeDir (d : Disk) (p : FilePath) : Except Fault Disk :=
  match d.locate p with
  | .error e => .error e
  | .ok l =>
    match d.find? l with
    | some _ => .error .exists
    | none => .ok (d.put l .directory)

/-- A new directory, or the one that is there already. A failure that comes of
a directory being there is none. -/
def makeDirHere (d : Disk) (p : FilePath) : Except Fault Disk :=
  match d.makeDir p with
  | .ok d' => .ok d'
  | .error .notFound => .error .notFound
  | .error (.name fault) => .error (.name fault)
  | .error e => if d.holdsDirectory p then .ok d else .error e

/-- A directory under the name, with the directories above it made as needed;
`bound` limits their number. The directories that were made stay even if a
later one cannot be made. -/
def makeDirsWithin : Nat → Disk → FilePath → Except Fault Unit × Disk
  | 0, d, _ => (.error .notFound, d)
  | bound + 1, d, p =>
    match d.makeDirHere p with
    | .ok d' => (.ok (), d')
    | .error .notFound =>
      if p.segments = [] then (.error .notFound, d)
      else
        match makeDirsWithin bound d p.parent with
        | (.error e, d') => (.error e, d')
        | (.ok (), d') =>
          match d'.makeDirHere p with
          | .ok d'' => (.ok (), d'')
          | .error e => (.error e, d')
    | .error e => (.error e, d)

/-- A directory under the name, with the directories above it. -/
def makeDirs (d : Disk) (p : FilePath) : Except Fault Unit × Disk :=
  makeDirsWithin (p.segments.length + 1) d p

/-! ### Files by their place alone -/

/-- The location that a name stands for when double dots are cancelled without
looking at the disk. -/
def absolute (d : Disk) (p : FilePath) : Location :=
  p.onDisk.foldl stepInto (d.start p)

/-- The name from the root, with double dots cancelled; two slashes in front stay. -/
def absoluteName (d : Disk) (p : FilePath) : FilePath where
  anchor := if p.anchor = .doubleRoot then .doubleRoot else .root
  segments := p.segments.foldl stepInto (d.start p)

/-- What is wrong with a name that is used from the root, if anything; the place of
the fault is that in the name from the root. -/
def faultFromRoot? (d : Disk) (p : FilePath) : Option FilePath.Fault :=
  p.fault?.map fun fault => (d.absoluteName p).fault?.getD fault

/-- The disk with a regular file at the place of a name, an empty one if there was
nothing; the directories on the way must be there. -/
def openAt (d : Disk) (p : FilePath) : Except Fault Disk :=
  match d.faultFromRoot? p with
  | some fault => .error (.name fault)
  | none =>
    if exceeds nameLimit (d.absoluteName p).render then .error .tooLong
    else
      match d.walk [] (d.absolute p) with
      | .error e => .error e
      | .ok l =>
        match d.checkWritable l with
        | .error e => .error e
        | .ok () => .ok (if (d.find? l).isNone then d.put l (.file []) else d)

/-! ### Where a name leads -/

/-- A step is made from a directory, and by a segment that is not too long. -/
theorem walk_cons_eq_ok {d : Disk} {l m : Location} {s : Text} {r : List Text} :
    d.walk l (s :: r) = .ok m ↔ d.checkDirectory l = .ok () ∧ exceeds segmentLimit s = false ∧
      d.walk (stepInto l s) r = .ok m := by
  rw [walk]
  rcases d.checkDirectory l with e | ⟨⟩
  · simp
  · cases exceeds segmentLimit s <;> simp

/-- A name leads where the walk of its segments ends, if it can be a name. -/
theorem locate_eq_ok {d : Disk} {p : FilePath} {l : Location} :
    d.locate p = .ok l ↔ p.fault? = none ∧ exceeds nameLimit p.render = false ∧
      d.walk (d.start p) p.onDisk = .ok l := by
  rw [locate]
  cases p.fault? with
  | none => cases exceeds nameLimit p.render <;> simp
  | some fault => simp

/-! ### What a write does -/

theorem ne_nil_of_checkWritable {d : Disk} {l : Location} (h : d.checkWritable l = .ok ()) :
    l ≠ [] := by
  intro hl
  simp [checkWritable, find?, hl] at h

theorem find?_put {d : Disk} {l m : Location} {e : Entry} (h : l ≠ []) :
    (d.put l e).find? m = if l = m then some e else d.find? m := by
  by_cases hm : m = []
  · simp [find?, hm, h]
  · simp [find?, hm, put, Entries.get?_insert]

/-- A file is opened at the location of its name, where no directory stands. -/
theorem target_eq_ok {d : Disk} {p : FilePath} {l : Location} (h : d.target p = .ok l) :
    d.locate p = .ok l ∧ l ≠ [] ∧ d.find? l ≠ some .directory := by
  rw [target] at h
  split at h
  · cases h
  · next hl =>
    split at h
    · cases h
    · next hw =>
      cases h
      refine ⟨hl, ne_nil_of_checkWritable hw, fun he => ?_⟩
      simp [checkWritable, he] at hw

theorem taken_of_hasRoom {d : Disk} {bytes : List UInt8} (h : d.hasRoom bytes = true) :
    d.taken bytes = bytes := by
  unfold hasRoom at h
  unfold taken
  split at h
  · rfl
  · exact List.take_of_length_le (of_decide_eq_true h)

/-- Without room for all of the bytes the disk takes a beginning of them. -/
theorem taken_of_not_hasRoom {d : Disk} {bytes : List UInt8} (h : d.hasRoom bytes = false) :
    d.taken bytes <+: bytes ∧ (d.taken bytes).length < bytes.length := by
  unfold hasRoom at h
  unfold taken
  split at h
  · cases h
  · next n _ =>
    have hlt : n < bytes.length := Nat.lt_of_not_le (of_decide_eq_false h)
    exact ⟨List.take_prefix n bytes, by rw [List.length_take]; omega⟩

/-- The ways in which a write can go. -/
inductive Writing (d : Disk) (p : FilePath) (bytes : List UInt8) : Except Fault Unit → Disk → Prop
  /-- The file cannot be opened, and nothing has changed. -/
  | unopened {e : Fault} (h : d.target p = .error e) : Writing d p bytes (.error e) d
  /-- The file is open, and there is no room for all of the bytes. -/
  | brokenOff {l : Location} (h : d.target p = .ok l) (hroom : d.hasRoom bytes = false) :
      Writing d p bytes (.error .full) (d.put l (.file (d.taken bytes)))
  /-- The file has the bytes. -/
  | written {l : Location} (h : d.target p = .ok l) (hroom : d.hasRoom bytes = true) :
      Writing d p bytes (.ok ()) (d.put l (.file bytes))

/-- **Every write goes one of these ways.** -/
theorem writing (d : Disk) (p : FilePath) (bytes : List UInt8) :
    Writing d p bytes (d.write p bytes).1 (d.write p bytes).2 := by
  unfold write
  split
  · next h => exact .unopened h
  · next l h =>
    dsimp only
    split
    · next hroom =>
      rw [taken_of_hasRoom hroom]
      exact .written h hroom
    · next hroom => exact .brokenOff h (Bool.eq_false_iff.2 hroom)

/-- A write that succeeds goes to a location where no directory stands. -/
theorem write_eq_ok {d d' : Disk} {p : FilePath} {bytes : List UInt8}
    (h : d.write p bytes = (.ok (), d')) :
    ∃ l, d.target p = .ok l ∧ d.hasRoom bytes = true ∧ d' = d.put l (.file bytes) := by
  have hw := d.writing p bytes
  rw [h] at hw
  cases hw with
  | written hl hroom => exact ⟨_, hl, hroom, rfl⟩

/-- The way to a location does not change with what is put where no directory stands. -/
theorem walk_put {d : Disk} {l : Location} {e : Entry} (hd : d.find? l ≠ some .directory)
    (hl : l ≠ []) (from_ : Location) (segments : List Text) {m : Location}
    (h : d.walk from_ segments = .ok m) : (d.put l e).walk from_ segments = .ok m := by
  induction segments generalizing from_ with
  | nil => exact h
  | cons s r ih =>
    obtain ⟨hc, hs, h⟩ := walk_cons_eq_ok.1 h
    refine walk_cons_eq_ok.2 ⟨?_, hs, ih _ h⟩
    by_cases he : l = from_
    · -- the way does not lead through what is no directory
      subst he
      rcases e : d.find? l with - | ⟨_ | b⟩
      · simp [checkDirectory, e] at hc
      · exact absurd e hd
      · simp [checkDirectory, e] at hc
    · rw [checkDirectory, find?_put hl, if_neg he]
      exact hc

/-- A name leads where it led before something was put where no directory stands. -/
theorem locate_put {d : Disk} {l m : Location} {e : Entry} {p : FilePath}
    (hd : d.find? l ≠ some .directory) (hl : l ≠ []) (h : d.locate p = .ok m) :
    (d.put l e).locate p = .ok m := by
  obtain ⟨hn, hs, h⟩ := locate_eq_ok.1 h
  exact locate_eq_ok.2 ⟨hn, hs, walk_put hd hl _ _ h⟩

/-- **The bytes that were written are read back.** -/
theorem read_of_write {d d' : Disk} {p : FilePath} {bytes : List UInt8}
    (h : d.write p bytes = (.ok (), d')) : d'.read p = .ok bytes := by
  obtain ⟨l, ht, -, rfl⟩ := write_eq_ok h
  obtain ⟨hl, hne, hd⟩ := target_eq_ok ht
  simp [read, lookUp, locate_put hd hne hl, find?_put hne]

end Disk

end CodingPolicy
