/-
CodingPolicy/Proofs/Persistence.lean

A state outlives the program in its file.  Where a state was saved it is loaded
again, and saving it once more finds the directories and the very bytes that it
would write (`save_of_save`), so nothing on the disk changes.

Main result: `load_of_saved`.
-/
import CodingPolicy.Proofs.Directories
import CodingPolicy.Proofs.Refinement

namespace CodingPolicy.Store

variable {d d' : Disk} {p : FilePath} {s : State} {now : Text}

/-- A save that succeeds makes the directories and then writes the file. -/
theorem save_eq_ok (h : (save now s p d).outcome = .ok ()) :
    ∃ d₁, d.makeDirs p.parent = (.ok (), d₁) ∧
      d₁.writeText p (textOfState s) = (.ok (), (save now s p d).world) := by
  unfold save at h ⊢
  rcases hm : d.makeDirs p.parent with ⟨fault | ⟨⟩, d₁⟩
  · rw [hm] at h
    cases h
  · rw [hm] at h
    dsimp only at h ⊢
    rcases hw : d₁.writeText p (textOfState s) with ⟨fault | ⟨⟩, d₂⟩
    · rw [hw] at h
      cases h
    · exact ⟨d₁, rfl, hw⟩

/-- The file holds the text of the state that was saved. -/
theorem read_of_save (h : (save now s p d).outcome = .ok ()) :
    (save now s p d).world.read p = .ok (Utf8.encode (textOfState s)) := by
  obtain ⟨d₁, -, hw⟩ := save_eq_ok h
  exact Disk.read_of_write (Disk.writeText_eq_ok.1 hw).2

/-- **Saving a state again succeeds and leaves the disk as it is.** -/
theorem save_of_save (h : (save now s p d).outcome = .ok ()) (later : Text) :
    (save later s p (save now s p d).world).outcome = .ok () ∧
      (save later s p (save now s p d).world).world = (save now s p d).world := by
  obtain ⟨d₁, hm, hw⟩ := save_eq_ok h
  -- the directories are there, and so are the bytes
  obtain ⟨hbytes, hwrite⟩ := Disk.writeText_eq_ok.1 hw
  have hdir := Disk.holdsDirectory_of_write hwrite (Disk.holdsDirectory_of_makeDirs hm)
  have hm' := Disk.makeDirs_of_holdsDirectory hdir
  have hw' : (save now s p d).world.writeText p (textOfState s) =
      (.ok (), (save now s p d).world) :=
    Disk.writeText_eq_ok.2 ⟨hbytes, Disk.write_of_write hwrite⟩
  rw [save.eq_def later, hm']
  dsimp only
  rw [hw']
  exact ⟨rfl, rfl⟩

/-- **A state that was saved is loaded.**  It is any state that is read from a
form, without a surrogate in the path of an assignment, on any disk and under any name
under which it can be saved.  What is loaded is that state, with its policies and gaps,
its assignments and its files in their order; saved again, it changes nothing on the
disk, and under any other name it makes a file of the same bytes. -/
theorem load_of_saved (v : Json) (s : State) (hv : State.ofJson v = .ok s)
    (hpaths : KeepsPaths s) (now : Text) (p : FilePath) (d : Disk)
    (hsaved : (save now s p d).outcome = .ok ()) :
    load (save now s p d).world p = .ok s ∧
    ∃ bytes, (save now s p d).world.read p = .ok bytes ∧
      ∀ t, load (save now s p d).world p = .ok t →
        (∀ later, (save later t p (save now s p d).world).outcome = .ok () ∧
          (save later t p (save now s p d).world).world = (save now s p d).world) ∧
        ∀ later q d', (save later t q d').outcome = .ok () →
          (save later t q d').world.read q = .ok bytes := by
  have hs : s.Valid := State.valid_of_ofJson hv
  have hload : load (save now s p d).world p = .ok s := by
    rcases load_of_save hs now p d with ⟨-, hl⟩ | ⟨fault, hf⟩
    · rw [hl, saved_eq_self_iff.2 hpaths]
    · cases hsaved.symm.trans hf
  refine ⟨hload, _, read_of_save hsaved, fun t ht => ?_⟩
  cases hload.symm.trans ht
  exact ⟨save_of_save hsaved, fun later q d' h => read_of_save h⟩

/-- A state with a gap, a policy twice and line ends within a path is loaded
from below a directory that was not there. -/
theorem load_of_saved_below_missing_directory :
    let s : State :=
      { policies := [none, some ⟨"\"\\\u2028𝄞".text⟩, some ⟨"\"\\\u2028𝄞".text⟩]
        assignments := .ofList [("/\r\n\x00".text, "x".text), ("/".text, "y".text)]
        files := [] }
    let p : FilePath := { segments := ["new".text, "s.json".text] }
    load (save [] s p {}).world p = .ok s := by
  intro s p
  have hpaths : KeepsPaths s := by
    unfold KeepsPaths
    decide
  have hsaved : (save [] s p {}).outcome = .ok () := by decide +kernel
  exact (load_of_saved s.toJson s (by rfl) hpaths [] p {} hsaved).1

end CodingPolicy.Store
