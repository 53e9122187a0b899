/-
CodingPolicy/Proofs/Directories.lean

Making the directories above a file.  Where it succeeds there is a directory
(`Disk.holdsDirectory_of_makeDirs`), and where there is one it does nothing
(`Disk.makeDirs_of_holdsDirectory`).  A text that is no name is refused as such by
every operation, and no other is (`Disk.makeDirs_name_iff`, `Disk.openAt_name_iff`).
-/
import CodingPolicy.Disk.Basic

namespace CodingPolicy.Disk

variable {d d' : Disk} {p q : FilePath} {l : Location} {bytes : List UInt8}

/-! ### Directories that are there -/

theorem holdsDirectory_iff :
    d.holdsDirectory p = true ↔ ∃ l, d.locate p = .ok l ∧ d.find? l = some .directory := by
  unfold holdsDirectory lookUp
  rcases d.locate p with fault | l
  · simp
  · rcases e : d.find? l with - | ⟨_ | b⟩ <;> simp [e]

theorem makeDir_eq_ok (h : d.makeDir p = .ok d') :
    ∃ l, d.locate p = .ok l ∧ d.find? l = none ∧ d' = d.put l .directory := by
  unfold makeDir at h
  rcases hl : d.locate p with fault | l
  · rw [hl] at h
    cases h
  · rw [hl] at h
    dsimp only at h
    rcases e : d.find? l with - | entry
    · rw [e] at h
      cases h
      exact ⟨l, rfl, e, rfl⟩
    · rw [e] at h
      cases h

/-- There is always something at the root. -/
theorem ne_nil_of_find? (h : d.find? l = none) : l ≠ [] := by
  rintro rfl
  cases h

theorem holdsDirectory_of_makeDirHere (h : d.makeDirHere p = .ok d') :
    d'.holdsDirectory p = true := by
  unfold makeDirHere at h
  split at h
  · next hm =>
    cases h
    -- nothing was there, so that the way to the name does not lead through the new directory
    obtain ⟨l, hl, hnone, rfl⟩ := makeDir_eq_ok hm
    have hne := ne_nil_of_find? hnone
    have hd : d.find? l ≠ some .directory := by
      rw [hnone]
      rintro ⟨⟩
    refine holdsDirectory_iff.2 ⟨l, locate_put hd hne hl, ?_⟩
    rw [find?_put hne, if_pos rfl]
  · cases h
  · cases h
  · split at h
    · next hd =>
      cases h
      exact hd
    · cases h

/-- **Where directories were made there is a directory.** -/
theorem holdsDirectory_of_makeDirs (h : d.makeDirs p = (.ok (), d')) :
    d'.holdsDirectory p = true := by
  unfold makeDirs at h
  rw [makeDirsWithin] at h
  split at h
  · next hm =>
    cases h
    exact holdsDirectory_of_makeDirHere hm
  · split at h
    · cases h
    · split at h
      · cases h
      · -- the directories above were missing, and the last one is made below them
        split at h
        · next hm =>
          cases h
          exact holdsDirectory_of_makeDirHere hm
        · cases h
  · cases h

/-- **Where there is a directory nothing is made.** -/
theorem makeDirs_of_holdsDirectory (h : d.holdsDirectory p = true) :
    d.makeDirs p = (.ok (), d) := by
  obtain ⟨l, hl, hd⟩ := holdsDirectory_iff.1 h
  have hm : d.makeDir p = .error .exists := by
    simp only [makeDir, hl, hd]
  have hhere : d.makeDirHere p = .ok d := by
    simp only [makeDirHere, hm, h, if_true]
  rw [makeDirs, makeDirsWithin, hhere]

/-- A directory is there after the writing of a file, too. -/
theorem holdsDirectory_of_write (h : d.write p bytes = (.ok (), d'))
    (hq : d.holdsDirectory q = true) : d'.holdsDirectory q = true := by
  obtain ⟨l, ht, -, rfl⟩ := write_eq_ok h
  obtain ⟨-, hne, hd⟩ := target_eq_ok ht
  obtain ⟨k, hk, hdir⟩ := holdsDirectory_iff.1 hq
  refine holdsDirectory_iff.2 ⟨k, locate_put hd hne hk, ?_⟩
  have hlk : l ≠ k := by
    rintro rfl
    exact hd hdir
  rw [find?_put hne, if_neg hlk, hdir]

/-- What is written again is there already. -/
theorem write_of_write (h : d.write p bytes = (.ok (), d')) :
    d'.write p bytes = (.ok (), d') := by
  obtain ⟨l, ht, hroom, rfl⟩ := write_eq_ok h
  obtain ⟨hl, hne, hd⟩ := target_eq_ok ht
  have hf : (d.put l (.file bytes)).find? l = some (.file bytes) := by
    rw [find?_put hne, if_pos rfl]
  have hsame : (d.put l (.file bytes)).put l (.file bytes) = d.put l (.file bytes) := by
    rw [find?, if_neg hne] at hf
    rw [put, Entries.insert_of_get? hf]
  -- there is as much room as before
  have hroom' : (d.put l (.file bytes)).hasRoom bytes = true := hroom
  simp only [write, target, locate_put hd hne hl, checkWritable, hf, hroom', if_true,
    taken_of_hasRoom hroom', hsame]

/-! ### Texts that are no names -/

/-- The fault is met on the disk, and not in the name or in the text that is written. -/
def Fault.IsMet : Fault → Prop
  | .name _ | .unencodable _ => False
  | _ => True

variable {bad : FilePath.Fault} {e : Fault}

theorem isMet_of_checkDirectory (h : d.checkDirectory l = .error e) : e.IsMet := by
  unfold checkDirectory at h
  split at h <;> cases h <;> trivial

theorem isMet_of_walk {segments : List Text} (h : d.walk l segments = .error e) : e.IsMet := by
  induction segments generalizing l with
  | nil => cases h
  | cons s r ih =>
    rw [walk] at h
    split at h
    · split at h
      · cases h
        trivial
      · exact ih h
    · next hd =>
      cases h
      exact isMet_of_checkDirectory hd

theorem isMet_of_checkWritable (h : d.checkWritable l = .error e) : e.IsMet := by
  unfold checkWritable at h
  split at h
  · cases h
    trivial
  · cases h
  · exact isMet_of_checkDirectory h

section Named

variable (hp : p.fault? = none)
include hp

theorem isMet_of_locate (h : d.locate p = .error e) : e.IsMet := by
  rw [locate, hp] at h
  dsimp only at h
  split at h
  · cases h
    trivial
  · exact isMet_of_walk h

theorem isMet_of_target (h : d.target p = .error e) : e.IsMet := by
  unfold target at h
  split at h
  · next hl =>
    cases h
    exact isMet_of_locate hp hl
  · split at h
    · next hw =>
      cases h
      exact isMet_of_checkWritable hw
    · cases h

theorem isMet_of_makeDir (h : d.makeDir p = .error e) : e.IsMet := by
  unfold makeDir at h
  split at h
  · next hl =>
    cases h
    exact isMet_of_locate hp hl
  · split at h
    · cases h
      trivial
    · cases h

theorem isMet_of_makeDirHere (h : d.makeDirHere p = .error e) : e.IsMet := by
  unfold makeDirHere at h
  split at h
  · cases h
  · cases h
    trivial
  · next hm => exact absurd (isMet_of_makeDir hp hm) id
  · next hm =>
    split at h
    · cases h
    · cases h
      exact isMet_of_makeDir hp hm

end Named

theorem isMet_of_makeDirsWithin {bound : Nat} (hp : p.fault? = none)
    (h : (makeDirsWithin bound d p).1 = .error e) : e.IsMet := by
  induction bound generalizing d p with
  | zero =>
    cases h
    trivial
  | succ bound ih =>
    rw [makeDirsWithin] at h
    split at h
    · cases h
    · split at h
      · cases h
        trivial
      · split at h
        · next hm =>
          -- a name above a name is one
          cases h
          exact ih (FilePath.fault?_parent hp) (by rw [hm])
        · split at h
          · cases h
          · next hm =>
            cases h
            exact isMet_of_makeDirHere hp hm
    · next hm =>
      cases h
      exact isMet_of_makeDirHere hp hm

/-- Where a text is no name nothing is looked for. -/
theorem locate_of_fault (hn : p.fault? = some bad) : d.locate p = .error (.name bad) := by
  rw [locate, hn]

theorem makeDirs_of_fault (hn : p.fault? = some bad) :
    d.makeDirs p = (.error (.name bad), d) := by
  rw [makeDirs, makeDirsWithin, makeDirHere, makeDir, locate_of_fault hn]

theorem target_of_fault (hn : p.fault? = some bad) : d.target p = .error (.name bad) := by
  rw [target, locate_of_fault hn]

/-- What is refused for a text that is no name, and otherwise for what is met, is refused
for the name exactly where it is none. -/
theorem name_iff {α : Type} {result : Except Fault α}
    (hbad : ∀ bad, p.fault? = some bad → result = .error (.name bad))
    (hmet : p.fault? = none → ∀ e, result = .error e → e.IsMet) :
    result = .error (.name bad) ↔ p.fault? = some bad := by
  refine ⟨fun h => ?_, hbad bad⟩
  cases hn : p.fault? with
  | none => exact absurd (hmet hn _ h) id
  | some fault =>
    rw [hbad fault hn] at h
    cases h
    rfl

/-- **Directories are refused for their name exactly where it is none.** -/
theorem makeDirs_name_iff : (d.makeDirs p).1 = .error (.name bad) ↔ p.fault? = some bad :=
  name_iff (fun _ hn => by rw [makeDirs_of_fault hn]) fun hp _ => isMet_of_makeDirsWithin hp

theorem openAt_name_iff :
    d.openAt p = .error (.name bad) ↔ d.faultFromRoot? p = some bad := by
  unfold openAt
  split
  · next fault hf => simp [hf]
  · next hf =>
    simp only [hf, reduceCtorEq, iff_false]
    split
    · rintro ⟨⟩
    · split
      · next hw =>
        rintro ⟨⟩
        exact isMet_of_walk hw
      · split
        · next hw =>
          rintro ⟨⟩
          exact isMet_of_checkWritable hw
        · rintro ⟨⟩

end CodingPolicy.Disk
