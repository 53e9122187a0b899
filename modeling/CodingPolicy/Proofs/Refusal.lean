/-
CodingPolicy/Proofs/Refusal.lean

What a call that is refused leaves behind.  In memory it leaves the state as it is
(`Backend.world_of_error`), even where the refusal comes after the step: a policy is
taken away before it is known that there was one (`Backend.world_of_unset`).  On a
disk there may be new directories, but no file is another (`Store.grown_or_torn`)
and nothing is logged (`Store.events_of_perform`), whether the state was not loaded,
the call was refused or the state file was not opened.  Only where the writing of the
new state breaks off is the state file left with a part of it (`Store.Torn`): the
file is emptied first, and then there may be no room for the text, or no bytes.

Main result: `Backend.refusal_without_trace`.
-/
import CodingPolicy.Proofs.Footprint
import CodingPolicy.Proofs.Form

namespace CodingPolicy

/-! ### Calls in memory -/

namespace Backend

variable {s : State}

/-- **To take a policy away is to take what the place has, be it nothing.**  Where nothing
is set the call fails, and the place has been cleared as it is where the call succeeds. -/
theorem world_of_unset {p : NamespacePath} (hf : p.path ∉ s.files) :
    (inMemory.perform (.unset p) s).world =
      { s with assignments := s.assignments.erase p.path } := by
  rw [perform_unset, Reply.map_world, State.unsetPolicy, if_neg hf]
  rcases e : s.assignments.get? p.path with - | name
  · have herase : s.assignments.erase p.path = s.assignments :=
      OrderedMap.ext (Entries.erase_of_get? e)
    rw [herase]
    rfl
  · rfl

end Backend

/-! ### Calls on a disk -/

namespace Store

variable {d : Disk} {p : FilePath} {now : Text} {f : Failure}

/-- A saving that fails logs nothing. -/
theorem Saving.events_of_error {s : State} {reply : Reply Disk Unit} (h : Saving now s p d reply)
    (he : reply.outcome = .error f) : reply.events = [] := by
  cases h with
  | unreached => rfl
  | unwritten => rfl
  | written => cases he

theorem events_of_change_error {step : State → Except Failure State}
    (h : (change now p step d).outcome = .error f) : (change now p step d).events = [] := by
  unfold change at h ⊢
  split
  · rfl
  · next hs =>
    rw [hs] at h
    exact (saving now _ p d).events_of_error h

/-- **Only a change that succeeds is logged.** -/
theorem events_of_perform (call : Call) (h : ¬ call.IsChange ∨
    ∃ f, ((backend now p).perform call d).outcome = .error f) :
    ((backend now p).perform call d).events = [] := by
  cases call with
  | list => rfl
  | get path => rfl
  | set path name =>
    obtain ⟨f, hf⟩ := h.resolve_left (not_not_intro trivial)
    exact events_of_change_error (map_eq_error.1 hf)
  | unset path =>
    obtain ⟨f, hf⟩ := h.resolve_left (not_not_intro trivial)
    exact events_of_change_error (map_eq_error.1 hf)

end Store

namespace Backend

/-! ### Main result -/

/-- The names that are told of are those of the policies without the gaps, in their order. -/
theorem message_policyNotFound (s : State) (name : Text) :
    (Failure.service (.policyNotFound name s.policyNames)).message =
      "Policy '".text ++ name ++
        "' does not match any enabled erasure coding policies: [".text ++
        Text.joinWith ", ".text (s.policies.filterMap (Option.map Policy.name)) ++
        "]".text := by
  have hnames : s.policyNames = s.policies.filterMap (Option.map Policy.name) :=
    List.map_filterMap
  have hsaid : (Failure.service (.policyNotFound name s.policyNames)).message =
      said "Policy '" (name ++
        said "' does not match any enabled erasure coding policies: ["
          (Text.joinWith ", ".text s.policyNames ++ "]".text)) := rfl
  rw [hsaid, hnames]
  generalize Text.joinWith ", ".text _ = names
  simp only [said, List.append_assoc]

/-- **A call is refused for the given reasons, and without a trace.**  On a valid state a
call fails just where the state refuses it, and so it succeeds where the state does
not; one that names no known policy is told the known ones.  In memory a call that
fails leaves the state as it is, though a policy that is to be taken away is taken
before it is known that there is one.  On a disk, whatever is on it and whatever a call
fails for, a call that fails makes, changes and removes no file and logs nothing, and
a question leaves the whole disk as it is.  The exception is a change whose writing breaks
off: it leaves the state file with a part of the new text, or with nothing where the text
has no bytes. -/
theorem refusal_without_trace (s : State) (hs : s.Valid) :
    (∀ call f, (inMemory.perform call s).outcome = .error f ↔
      ∃ cause, s.Refuses call cause ∧ f = .service cause) ∧
    (∀ call, (∀ cause, ¬ s.Refuses call cause) →
      ∃ result, (inMemory.perform call s).outcome = .ok result) ∧
    (∀ name, (Failure.service (.policyNotFound name s.policyNames)).message =
      "Policy '".text ++ name ++
        "' does not match any enabled erasure coding policies: [".text ++
        Text.joinWith ", ".text (s.policies.filterMap (Option.map Policy.name)) ++
        "]".text) ∧
    (∀ call f, (inMemory.perform call s).outcome = .error f →
      (inMemory.perform call s).world = s) ∧
    (∀ p : NamespacePath, p.path ∉ s.files → (inMemory.perform (.unset p) s).world =
      { s with assignments := s.assignments.erase p.path }) ∧
    ∀ now d p call,
      (¬ call.IsChange → ((Store.backend now p).perform call d).world = d) ∧
      (¬ call.IsChange ∨ (∃ f, ((Store.backend now p).perform call d).outcome = .error f) →
        ((∀ l, ((Store.backend now p).perform call d).world.fileAt? l = d.fileAt? l) ∨
          ∃ f, ((Store.backend now p).perform call d).outcome = .error f ∧
            Store.Torn p d f ((Store.backend now p).perform call d).world) ∧
          ((Store.backend now p).perform call d).events = []) := by
  refine ⟨fun call f => refused_iff hs, fun call hno => ?_, message_policyNotFound s,
    fun call f => world_of_error, fun p => world_of_unset,
    fun now d p call => ⟨Store.world_of_question, fun h => ?_⟩⟩
  · rcases e : (inMemory.perform call s).outcome with f | result
    · obtain ⟨cause, hcause, -⟩ := (refused_iff hs).1 e
      exact absurd hcause (hno cause)
    · exact ⟨result, rfl⟩
  · refine ⟨?_, Store.events_of_perform call h⟩
    refine (Store.grown_or_torn call ?_).imp_left fun hgrown l => hgrown.fileAt? not_false
    rintro ⟨hchange, result, hok⟩
    rcases h with hquestion | ⟨f, hf⟩
    · exact hquestion hchange
    · cases hok.symm.trans hf

/-- The root has a policy and `/a` inherits it, so there is nothing to take away from `/a`.
And where a state cannot be saved, for a file is in the way of its directory, that file
keeps its bytes. -/
theorem refusal_without_trace_below_root :
    let s : State :=
      { policies := [some ⟨"XOR-2-1-1024k".text⟩, none, some ⟨"RS-3-2-1024k".text⟩]
        assignments := .ofList [("/".text, "XOR-2-1-1024k".text)], files := ["/f".text] }
    let p : NamespacePath := { path := "/a".text }
    let set : Call := .set p "XOR-2-1-1024k".text
    let store := Store.backend [] { segments := ["s.json".text, "state.json".text] }
    (inMemory.perform (.unset p) s).outcome = .error (.service (.noPolicySet "/a".text)) ∧
      (inMemory.perform (.unset p) s).world = s ∧
      (inMemory.perform (.set p "gone".text) s).outcome =
        .error (.service (.policyNotFound "gone".text
          ["XOR-2-1-1024k".text, "RS-3-2-1024k".text])) ∧
      (∃ result, (inMemory.perform set s).outcome = .ok result) ∧
      (store.perform set Invocation.smallDisk).outcome =
        .error (Store.unavailable (.unwritable "s.json/state.json".text)) ∧
      (store.perform set Invocation.smallDisk).world.fileAt? ["s.json".text] =
        some [0x7b, 0x7d] := by
  intro s p set store
  have hs : s.Valid := State.valid_of_ofJson (v := s.toJson) rfl
  obtain ⟨hrefused, hdone, -, hworld, -, hdisk⟩ := refusal_without_trace s hs
  have hunset : (inMemory.perform (.unset p) s).outcome =
      .error (.service (.noPolicySet "/a".text)) :=
    (hrefused _ _).2 ⟨_, .nothingSet (by decide) rfl, rfl⟩
  have hunsaved : (store.perform set Invocation.smallDisk).outcome =
      .error (Store.unavailable (.unwritable "s.json/state.json".text)) := rfl
  refine ⟨hunset, hworld _ _ hunset, (hrefused _ _).2 ⟨_, .unknown (by decide), rfl⟩,
    hdone set ?_, hunsaved, ?_⟩
  · intro cause (hcause : s.Refuses (.set p "XOR-2-1-1024k".text) cause)
    cases hcause with
    | unknown hk => exact hk (by decide)
    | setOnFile _ hf => exact absurd hf (by decide)
  · rcases ((hdisk _ _ _ set).2 (.inr ⟨_, hunsaved⟩)).1 with hsame | ⟨f, -, htorn⟩
    · exact hsame ["s.json".text]
    · -- nothing stands below a file
      obtain ⟨s', bytes, hfile, -⟩ := htorn.part
      cases hfile

/-- A disk with a state file in which a surrogate stands in the path of a file. -/
def unwritableDisk : Disk :=
  { entries := [(["s.json".text], .file
      (Utf8.encode "\x7b\"files\": [\"/\\ud800\"]\x7d".text))] }

/-- A policy cannot be set there, and the state file is emptied. -/
theorem not_always_without_trace :
    ¬ ∀ now d p call f, ((Store.backend now p).perform call d).outcome = .error f →
      ∀ l, ((Store.backend now p).perform call d).world.fileAt? l = d.fileAt? l := by
  intro h
  let text : Text := "\x7b\"files\": [\"/\\ud800\"]\x7d".text
  let s : State := { files := [[.char '/', .surrogate 0]] }
  let p : FilePath := { segments := ["s.json".text] }
  let call : Call := .set ⟨"/a".text, [], []⟩ "RS-3-2-1024k".text
  have hload : Store.load unwritableDisk p = .ok s := by
    have hr : unwritableDisk.readText p = .ok text :=
      Disk.readText_of_lookUp (by decide) (by decide) rfl
    rw [Store.load_of_readText hr]
    simp only [text, String.text, Text.ofChars, String.reduceToList, List.map_cons, List.map_nil]
    rfl
  have hfailed : ((Store.backend [] p).perform call unwritableDisk).outcome =
      .error (.unencodable ⟨309, 1, .surrogate 0⟩) := by
    show Except.map _ (Store.change _ _ _ _).outcome = _
    rw [Store.change, hload]
    decide +kernel
  have hemptied : ((Store.backend [] p).perform call unwritableDisk).world.fileAt?
      ["s.json".text] = some [] := by
    show (Store.change _ _ _ _).world.fileAt? _ = _
    rw [Store.change, hload]
    decide +kernel
  have hsame := h [] unwritableDisk p call _ hfailed ["s.json".text]
  rw [hemptied] at hsame
  exact absurd hsame (by decide)

end Backend

end CodingPolicy
