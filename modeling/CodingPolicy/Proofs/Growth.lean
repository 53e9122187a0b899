/-
CodingPolicy/Proofs/Growth.lean

What stays on a disk.  No operation takes anything away: directories are made
where nothing stood, and a regular file changes where it is written, and
nowhere else.  `Disk.Grown` says this of two disks and a choice of locations;
every operation is an instance, with the one location that it writes
(`Disk.Grown.write`, `Disk.Grown.openAt`, `Disk.Grown.appendAt`) or with none
(`Disk.Grown.makeDirs`).

Main results: a disk that has grown leads every name where it led before
(`Disk.Grown.locate`), and has the same regular files but for those that were
chosen (`Disk.Grown.fileAt?`).
-/
import CodingPolicy.Log.File
import CodingPolicy.Proofs.Directories

namespace CodingPolicy

namespace Disk

variable {touched chosen : Location → Prop} {d d' e : Disk} {p q : FilePath} {l m : Location}
variable {bytes : List UInt8}

/-- The bytes of the regular file at a location. -/
def fileAt? (d : Disk) (l : Location) : Option (List UInt8) :=
  match d.find? l with
  | some (.file bytes) => some bytes
  | _ => none

/-! ### Locations without looking -/

/-- A walk that ends does so where the steps lead without looking. -/
theorem eq_foldl_of_walk {segments : List Text} (h : d.walk l segments = .ok m) :
    m = segments.foldl stepInto l := by
  induction segments generalizing l with
  | nil =>
    cases h
    rfl
  | cons s r ih =>
    obtain ⟨-, -, h⟩ := walk_cons_eq_ok.1 h
    exact ih h

theorem eq_absolute_of_locate (h : d.locate p = .ok l) : l = d.absolute p :=
  eq_foldl_of_walk (locate_eq_ok.1 h).2.2

/-- The place of a name does not depend on what is on the disk. -/
theorem absolute_congr (h : d'.workingDir = d.workingDir) (p : FilePath) :
    d'.absolute p = d.absolute p := by
  have hstart : d'.start p = d.start p := by
    unfold start
    split
    · exact h
    · rfl
  rw [absolute, absolute, hstart]

/-- Steps never leave a double dot behind. -/
theorem dots_not_mem_foldl (segments : List Text) (h : [.char '.', .char '.'] ∉ l) :
    [.char '.', .char '.'] ∉ segments.foldl stepInto l := by
  induction segments generalizing l with
  | nil => exact h
  | cons s r ih =>
    rw [List.foldl_cons]
    apply ih
    unfold stepInto
    split
    · exact fun hm => h (List.dropLast_subset l hm)
    · next hs => simp [h, Ne.symm hs]

/-- Without double dots the steps lead from one name to the next. -/
theorem foldl_stepInto {segments : List Text} (h : [.char '.', .char '.'] ∉ segments)
    (l : Location) :
    segments.foldl stepInto l = l ++ segments := by
  induction segments generalizing l with
  | nil => simp
  | cons s r ih =>
    rw [List.mem_cons, not_or] at h
    rw [List.foldl_cons, stepInto, if_neg (Ne.symm h.1), ih h.2]
    simp

/-- What is opened is a file at the place of its name. -/
theorem openAt_eq_ok (h : d.openAt p = .ok d') (hp : [.char '.', .char '.'] ∉ d.absolute p) :
    d.checkWritable (d.absolute p) = .ok () ∧
      d' = if (d.find? (d.absolute p)).isNone then d.put (d.absolute p) (.file []) else d := by
  unfold openAt at h
  split at h
  · cases h
  · split at h
    · cases h
    · split at h
      · cases h
      · next m hm =>
        obtain rfl : m = d.absolute p := (eq_foldl_of_walk hm).trans (foldl_stepInto hp [])
        split at h
        · cases h
        · next hw =>
          cases h
          exact ⟨hw, rfl⟩

theorem dots_not_mem_absolute (h : [.char '.', .char '.'] ∉ d.workingDir) (p : FilePath) :
    [.char '.', .char '.'] ∉ d.absolute p := by
  apply dots_not_mem_foldl
  unfold start
  split
  · exact h
  · exact List.not_mem_nil

/-! ### Growth -/

/-- The disk `d'` has grown out of `d`: every directory is still there, and but
for the chosen locations nothing is another, except that a directory may stand
where nothing did. -/
structure Grown (chosen : Location → Prop) (d d' : Disk) : Prop where
  /-- The working directory is the same. -/
  workingDir : d'.workingDir = d.workingDir
  /-- Every directory is still there. -/
  directory : ∀ l, d.find? l = some .directory → d'.find? l = some .directory
  /-- Nothing is another, but for the chosen locations and new directories. -/
  entry : ∀ l, ¬ chosen l →
    d'.find? l = d.find? l ∨ d.find? l = none ∧ d'.find? l = some .directory

/-- A disk that has grown by directories alone. -/
abbrev GrownByDirectories (d d' : Disk) : Prop := Grown (fun _ => False) d d'

namespace Grown

theorem refl (d : Disk) : Grown chosen d d := ⟨rfl, fun _ h => h, fun _ _ => .inl rfl⟩

theorem trans (h : Grown chosen d d') (h' : Grown chosen d' e) : Grown chosen d e where
  workingDir := h'.workingDir.trans h.workingDir
  directory l hl := h'.directory l (h.directory l hl)
  entry l hl := by
    rcases h.entry l hl with hsame | ⟨hnone, hdir⟩
    · rw [← hsame]
      exact h'.entry l hl
    · exact .inr ⟨hnone, h'.directory l hdir⟩

/-- **The regular files are the same but for the chosen locations.** -/
theorem fileAt? (h : Grown chosen d d') (hl : ¬ chosen l) : d'.fileAt? l = d.fileAt? l := by
  unfold Disk.fileAt?
  rcases h.entry l hl with hsame | ⟨hnone, hdir⟩
  · rw [hsame]
  · rw [hnone, hdir]

theorem walk (h : Grown chosen d d') {segments : List Text} (hw : d.walk l segments = .ok m) :
    d'.walk l segments = .ok m := by
  induction segments generalizing l with
  | nil => exact hw
  | cons s r ih =>
    obtain ⟨hd, hs, hw⟩ := walk_cons_eq_ok.1 hw
    refine walk_cons_eq_ok.2 ⟨?_, hs, ih hw⟩
    -- a step is made from a directory, which is still there
    unfold checkDirectory at hd ⊢
    split at hd
    · next hdir => simp [h.directory l hdir]
    · cases hd
    · cases hd

/-- **A name leads where it led before.** -/
theorem locate (h : Grown chosen d d') (hp : d.locate p = .ok l) : d'.locate p = .ok l := by
  have hstart : d'.start p = d.start p := by
    unfold start
    split
    · exact h.workingDir
    · rfl
  obtain ⟨hn, hs, hp⟩ := locate_eq_ok.1 hp
  rw [locate_eq_ok, hstart]
  exact ⟨hn, hs, h.walk hp⟩

/-- A file is read as before where its name led to some place that was not chosen. -/
theorem read (h : Grown chosen d d') (hp : d.locate p = .ok l) (hl : ¬ chosen l) :
    (d'.read p).toOption = (d.read p).toOption := by
  unfold Disk.read lookUp
  rw [hp, h.locate hp]
  dsimp only
  rcases h.entry l hl with hsame | ⟨hnone, hdir⟩
  · rw [hsame]
  · rw [hnone, hdir]
    rfl

/-! ### Operations -/

theorem put_directory (h : d.find? l = none) : Grown chosen d (d.put l .directory) where
  workingDir := rfl
  directory m hm := by
    rw [find?_put (ne_nil_of_find? h)]
    split
    · rfl
    · exact hm
  entry m _ := by
    rw [find?_put (ne_nil_of_find? h)]
    split
    · next hm => exact .inr ⟨hm ▸ h, rfl⟩
    · exact .inl rfl

theorem put_file (hd : d.find? l ≠ some .directory) (hl : l ≠ []) (hc : chosen l) :
    Grown chosen d (d.put l (.file bytes)) where
  workingDir := rfl
  directory m hm := by
    rw [find?_put hl, if_neg, hm]
    rintro rfl
    exact hd hm
  entry m hm := by
    rw [find?_put hl, if_neg]
    · exact .inl rfl
    · rintro rfl
      exact hm hc

theorem makeDir (h : d.makeDir p = .ok d') : Grown chosen d d' := by
  obtain ⟨l, -, hnone, rfl⟩ := makeDir_eq_ok h
  exact put_directory hnone

theorem makeDirHere (h : d.makeDirHere p = .ok d') : Grown chosen d d' := by
  unfold Disk.makeDirHere at h
  split at h
  · next hm =>
    cases h
    exact makeDir hm
  · cases h
  · cases h
  · split at h
    · cases h
      exact refl d
    · cases h

theorem makeDirsWithin (bound : Nat) (d : Disk) (p : FilePath) :
    Grown chosen d (makeDirsWithin bound d p).2 := by
  induction bound generalizing d p with
  | zero => exact refl d
  | succ bound ih =>
    rw [Disk.makeDirsWithin]
    split
    · next hm => exact makeDirHere hm
    · split
      · exact refl d
      · -- what was made above stays, also where the last directory cannot be made
        have habove := ih d p.parent
        split
        · next e =>
          rw [e] at habove
          exact habove
        · next e =>
          rw [e] at habove
          split
          · next hm => exact habove.trans (makeDirHere hm)
          · exact habove
    · exact refl d

/-- **Making directories changes no regular file**, also where it fails. -/
theorem makeDirs {result : Except Fault Unit} (h : d.makeDirs p = (result, d')) :
    Grown chosen d d' := by
  have hgrown : Grown chosen d (d.makeDirs p).2 := makeDirsWithin _ d p
  rwa [h] at hgrown

/-- **A write changes no other file**, also where it breaks off. -/
theorem write {result : Except Fault Unit} (h : d.write p bytes = (result, d'))
    (hc : chosen (d.absolute p)) : Grown chosen d d' := by
  have hput {l : Location} {kept : List UInt8} (ht : d.target p = .ok l) :
      Grown chosen d (d.put l (.file kept)) := by
    obtain ⟨hl, hne, hd⟩ := target_eq_ok ht
    exact put_file hd hne (eq_absolute_of_locate hl ▸ hc)
  have hw := d.writing p bytes
  rw [h] at hw
  cases hw with
  | unopened => exact refl _
  | brokenOff ht _ => exact hput ht
  | written ht _ => exact hput ht

/-- **A text that is written changes no other file**, also where it has no bytes. -/
theorem writeText {t : Text} {result : Except Fault Unit} (h : d.writeText p t = (result, d'))
    (hc : chosen (d.absolute p)) : Grown chosen d d' := by
  unfold Disk.writeText at h
  split at h
  · exact write h hc
  · split at h
    · next hw =>
      cases h
      exact write hw hc
    · next hw =>
      cases h
      exact write hw hc

/-- **Opening changes no other file.**  A location has no double dots. -/
theorem openAt (h : d.openAt p = .ok d') (hp : [.char '.', .char '.'] ∉ d.absolute p)
    (hc : chosen (d.absolute p)) : Grown chosen d d' := by
  obtain ⟨hw, rfl⟩ := openAt_eq_ok h hp
  split
  · next hnone =>
    have hnone : d.find? (d.absolute p) = none := Option.isNone_iff_eq_none.1 hnone
    have hd : d.find? (d.absolute p) ≠ some .directory := by
      rw [hnone]
      nofun
    exact put_file hd (ne_nil_of_checkWritable hw) hc
  · exact refl d

/-- **Appending changes no other file.** -/
theorem appendAt (hc : chosen l) : Grown chosen d (d.appendAt l bytes) := by
  unfold Disk.appendAt
  split
  · next old hf =>
    have hd : d.find? l ≠ some .directory := by
      rw [hf]
      nofun
    have hl : l ≠ [] := by
      rintro rfl
      cases hf
    exact put_file hd hl hc
  · exact refl d

end Grown

/-! ### The file that is written -/

theorem fileAt?_put (h : l ≠ []) : (d.put l (.file bytes)).fileAt? l = some bytes := by
  rw [fileAt?, find?_put h, if_pos rfl]

/-- A regular file stands where there are bytes. -/
theorem find?_of_fileAt? {old : List UInt8} (h : d.fileAt? l = some old) :
    d.find? l = some (.file old) := by
  unfold fileAt? at h
  split at h
  · next hfile =>
    cases h
    exact hfile
  · cases h

/-- **What is appended stands behind what was there.** -/
theorem fileAt?_appendAt {old : List UInt8} (h : d.fileAt? l = some old) :
    (d.appendAt l bytes).fileAt? l = some (old ++ bytes) := by
  have hfile := find?_of_fileAt? h
  have hl : l ≠ [] := by
    rintro rfl
    cases hfile
  rw [appendAt, hfile]
  exact fileAt?_put hl

/-- **A file that was opened has the bytes that it had**, or none if it is new. -/
theorem fileAt?_openAt (h : d.openAt p = .ok d') (hp : [.char '.', .char '.'] ∉ d.absolute p) :
    d'.fileAt? (d.absolute p) = some ((d.fileAt? (d.absolute p)).getD []) := by
  obtain ⟨hw, rfl⟩ := openAt_eq_ok h hp
  rcases e : d.find? (d.absolute p) with - | ⟨_ | old⟩
  · rw [Option.isNone_none, if_pos rfl, fileAt?_put (ne_nil_of_checkWritable hw), fileAt?, e]
    rfl
  · -- a directory cannot be opened
    rw [checkWritable, e] at hw
    cases hw
  · rw [Option.isNone_some, if_neg Bool.false_ne_true, fileAt?, e]
    rfl

end Disk

/-! ### The log file -/

namespace Log.File

variable {chosen : Location → Prop} {d d' : Disk} {p : FilePath} {file : File}

/-- The ways in which the opening of a log file can go. -/
inductive Opening (d : Disk) (p : FilePath) : Except Failure File → Disk → Prop
  /-- The directories above it cannot be made. -/
  | unreached {fault : Disk.Fault} {d' : Disk} (hm : d.makeDirs p.parent = (.error fault, d')) :
      Opening d p (.error (failureOf p fault)) d'
  /-- The file cannot be opened. -/
  | unopened {fault : Disk.Fault} {d' : Disk} (hm : d.makeDirs p.parent = (.ok (), d'))
      (ho : d'.openAt p = .error fault) : Opening d p (.error (failureOf p fault)) d'
  /-- The file is open. -/
  | opened {d' d'' : Disk} (hm : d.makeDirs p.parent = (.ok (), d'))
      (ho : d'.openAt p = .ok d'') : Opening d p (.ok { location := d'.absolute p }) d''

/-- **Every opening goes one of these ways.** -/
theorem opening (d : Disk) (p : FilePath) : Opening d p (openFile d p).1 (openFile d p).2 := by
  unfold openFile
  split
  · next hm => exact .unreached hm
  · next d' hm =>
    split
    · next ho => exact .unopened hm ho
    · next ho => exact .opened hm ho

/-- A log file can be opened in a directory that is there, where no directory is in its
place. -/
theorem exists_openFile (hdir : d.holdsDirectory p.parent = true) (hn : p.fault? = none)
    (hshort : Disk.exceeds Disk.nameLimit (d.absoluteName p).render = false)
    (hwalk : d.walk [] (d.absolute p) = .ok (d.absolute p))
    (hw : d.checkWritable (d.absolute p) = .ok ()) :
    ∃ d', openFile d p = (.ok { location := d.absolute p }, d') := by
  have hroot : d.faultFromRoot? p = none := by rw [Disk.faultFromRoot?, hn, Option.map_none]
  obtain ⟨d', ho⟩ : ∃ d', d.openAt p = .ok d' := by
    unfold Disk.openAt
    simp only [hroot, hshort, hwalk, hw]
    exact ⟨_, rfl⟩
  refine ⟨d', ?_⟩
  unfold openFile
  simp only [Disk.makeDirs_of_holdsDirectory hdir, ho]

/-- An open log file is at the place of its name. -/
theorem Opening.location (h : Opening d p (.ok file) d') : file.location = d.absolute p := by
  cases h with
  | opened hm _ =>
    have hgrown : d.GrownByDirectories _ := .makeDirs hm
    exact Disk.absolute_congr hgrown.workingDir p

/-- A log file that cannot be opened leaves directories behind, and no file. -/
theorem Opening.grownByDirectories {f : Failure} (h : Opening d p (.error f) d') :
    d.GrownByDirectories d' := by
  cases h with
  | unreached hm => exact .makeDirs hm
  | unopened hm _ => exact .makeDirs hm

/-- **A log file that is opened touches no other file.** -/
theorem Opening.grown {result : Except Failure File} (h : Opening d p result d')
    (hd : [.char '.', .char '.'] ∉ d.workingDir) (hc : chosen (d.absolute p)) :
    d.Grown chosen d' := by
  cases h with
  | unreached hm => exact .makeDirs hm
  | unopened hm _ => exact .makeDirs hm
  | opened hm ho =>
    have hgrown : d.Grown chosen _ := .makeDirs hm
    rw [← Disk.absolute_congr hgrown.workingDir p] at hc
    have hdots := Disk.dots_not_mem_absolute (hgrown.workingDir ▸ hd) p
    exact hgrown.trans (.openAt ho hdots hc)

end Log.File

end CodingPolicy
