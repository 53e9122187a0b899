/-
CodingPolicy/Disk/Text.lean

Files as text: UTF-8, read with every kind of line end as one newline.

Main result: a written text without carriage returns is read back
(`readText_of_writeText`).
-/
import CodingPolicy.Disk.Basic
import CodingPolicy.Text.Lines

namespace CodingPolicy.Disk

/-- Why a file cannot be read as text. -/
inductive TextFault where
  /-- The file cannot be read. -/
  | file (fault : Fault)
  /-- The bytes are no text. -/
  | bytes (fault : Utf8.Fault)
  deriving DecidableEq, Repr

/-- The text of a file. -/
def readText (d : Disk) (p : FilePath) : Except TextFault Text :=
  match d.read p with
  | .error e => .error (.file e)
  | .ok bytes =>
    match Utf8.decode bytes with
    | .error e => .error (.bytes e)
    | .ok t => .ok (Text.unifyNewlines t)

/-- Writes a file of this text. A text that has no bytes is found out when the file is
open. -/
def writeText (d : Disk) (p : FilePath) (t : Text) : Except Fault Unit × Disk :=
  match Utf8.writeFault? t with
  | none => d.write p (Utf8.encode t)
  | some fault =>
    match d.write p [] with
    | (.error e, d) => (.error e, d)
    | (.ok (), d) => (.error (.unencodable fault), d)

/-- The text of a file is read from its bytes. -/
theorem readText_of_lookUp {d : Disk} {p : FilePath} {t : Text} (hr : .char '\r' ∉ t)
    (ht : Utf8.writeFault? t = none) (h : d.lookUp p = .ok (.file (Utf8.encode t))) :
    d.readText p = .ok t := by
  simp [readText, read, h, Utf8.decode_encode ht, Text.unifyNewlines_eq_self hr]

/-- A text that is written has bytes, and they are what is written. -/
theorem writeText_eq_ok {d d' : Disk} {p : FilePath} {t : Text} :
    d.writeText p t = (.ok (), d') ↔
      Utf8.writeFault? t = none ∧ d.write p (Utf8.encode t) = (.ok (), d') := by
  unfold writeText
  cases Utf8.writeFault? t with
  | none => simp
  | some fault => rcases d.write p [] with ⟨e | _, d'⟩ <;> simp

/-- The ways in which the writing of a text fails. -/
inductive NotWritten (d : Disk) (p : FilePath) (t : Text) : Fault → Disk → Prop
  /-- The file cannot be opened, and nothing has changed. -/
  | unopened {e : Fault} (h : d.target p = .error e) : NotWritten d p t e d
  /-- The file is open, and there is no room for all of the bytes. -/
  | brokenOff {l : Location} (h : d.target p = .ok l) (hb : Utf8.writeFault? t = none)
      (hroom : d.hasRoom (Utf8.encode t) = false) :
      NotWritten d p t .full (d.put l (.file (d.taken (Utf8.encode t))))
  /-- The file is open, and the text has no bytes. -/
  | unencodable {l : Location} {fault : Utf8.WriteFault} (h : d.target p = .ok l)
      (hb : Utf8.writeFault? t = some fault) :
      NotWritten d p t (.unencodable fault) (d.put l (.file []))

theorem write_nil {d : Disk} {p : FilePath} {l : Location} (h : d.target p = .ok l) :
    d.write p [] = (.ok (), d.put l (.file [])) := by
  have hroom : d.hasRoom [] = true := by
    unfold hasRoom
    split <;> rfl
  simp only [write, h, hroom, if_true, taken_of_hasRoom hroom]

/-- A file that cannot be opened is not written. -/
theorem writeText_of_target_error {d : Disk} {p : FilePath} {t : Text} {e : Fault}
    (h : d.target p = .error e) : d.writeText p t = (.error e, d) := by
  unfold writeText write
  rw [h]
  split <;> rfl

/-- Where there is no room for all of the bytes a beginning of them is written. -/
theorem writeText_of_not_hasRoom {d : Disk} {p : FilePath} {t : Text} {l : Location}
    (h : d.target p = .ok l) (hb : Utf8.writeFault? t = none)
    (hroom : d.hasRoom (Utf8.encode t) = false) :
    d.writeText p t = (.error .full, d.put l (.file (d.taken (Utf8.encode t)))) := by
  simp [writeText, hb, write, h, hroom]

/-- A text that has no bytes leaves an empty file. -/
theorem writeText_of_writeFault {d : Disk} {p : FilePath} {t : Text} {l : Location}
    {fault : Utf8.WriteFault} (h : d.target p = .ok l) (hb : Utf8.writeFault? t = some fault) :
    d.writeText p t = (.error (.unencodable fault), d.put l (.file [])) := by
  simp only [writeText, hb, write_nil h]

/-- **There are no other ways.** -/
theorem notWritten {d d' : Disk} {p : FilePath} {t : Text} {e : Fault}
    (h : d.writeText p t = (.error e, d')) : NotWritten d p t e d' := by
  rcases hb : Utf8.writeFault? t with - | fault
  · have hw := d.writing p (Utf8.encode t)
    simp only [writeText, hb] at h
    rw [h] at hw
    cases hw with
    | unopened ht => exact .unopened ht
    | brokenOff ht hroom => exact .brokenOff ht hb hroom
  · rcases ht : d.target p with g | l
    · simp only [writeText, hb, write, ht] at h
      cases h
      exact .unopened ht
    · rw [writeText_of_writeFault ht hb] at h
      cases h
      exact .unencodable ht hb

/-- **A written text without carriage returns is read back.** -/
theorem readText_of_writeText {d d' : Disk} {p : FilePath} {t : Text} (hr : .char '\r' ∉ t)
    (h : d.writeText p t = (.ok (), d')) : d'.readText p = .ok t := by
  obtain ⟨ht, hw⟩ := writeText_eq_ok.1 h
  rw [readText, read_of_write hw]
  simp [Utf8.decode_encode ht, Text.unifyNewlines_eq_self hr]

end CodingPolicy.Disk
