/-
CodingPolicy/Proofs/Refinement.lean

The namespace in a file does what the namespace in memory does.  The relation
between the two is that the file holds the state (`load d p = .ok s`); it
carries the rules on states along, since whatever is loaded keeps them
(`valid_of_load`).  One call preserves it (`perform_refines`), unless the call
fails on the way to the file, and so do calls one after the other.

Main result: `trace_refines`.
-/
import CodingPolicy.Proofs.Form
import CodingPolicy.Proofs.Paths
import CodingPolicy.Store

namespace CodingPolicy.Store

variable {d d' : Disk} {p : FilePath} {s : State} {now : Text}

/-! ### Saved states -/

/-- A path is saved as it is just where no surrogate stands in it. -/
theorem savedPath_eq_self_iff {path : Text} :
    savedPath path = path ↔ Utf8.writeFault? path = none := by
  rw [Utf8.writeFault?_eq_none_iff]
  constructor
  · -- what is saved has no surrogate
    intro h c hc
    rw [← h] at hc
    obtain ⟨x, -, hx⟩ := List.mem_flatMap.1 hc
    split at hx
    · rw [List.eq_of_mem_replicate hx]
      rfl
    · next hno =>
      rw [List.mem_singleton.1 hx]
      exact Bool.eq_false_iff.2 hno
  · intro h
    unfold savedPath
    induction path with
    | nil => rfl
    | cons c path ih =>
      rw [List.forall_mem_cons] at h
      rw [List.flatMap_cons, ih h.2, h.1]
      rfl

theorem writeFault?_savedPath (path : Text) : Utf8.writeFault? (savedPath path) = none := by
  rw [Utf8.writeFault?_eq_none_iff]
  intro c hc
  obtain ⟨x, -, hx⟩ := List.mem_flatMap.1 hc
  split at hx
  · rw [List.eq_of_mem_replicate hx]
    rfl
  · next hno =>
    rw [List.mem_singleton.1 hx]
    exact Bool.eq_false_iff.2 hno

/-- No surrogate stands in the path of an assignment. -/
def KeepsPaths (s : State) : Prop :=
  ∀ path ∈ s.assignments.keys, Utf8.writeFault? path = none

theorem mem_saved {s : State} {e : Text × Text} (h : e ∈ (saved s).assignments.entries) :
    ∃ e' ∈ s.assignments.entries, e = (savedPath e'.1, e'.2) := by
  rcases Entries.mem_merge h with h | h
  · cases h
  · obtain ⟨e', he', rfl⟩ := List.mem_map.1 h
    exact ⟨e', he', rfl⟩

/-- **A state is saved as it is just where no surrogate stands in the path of an
assignment.** -/
theorem saved_eq_self_iff {s : State} : saved s = s ↔ KeepsPaths s := by
  constructor
  · intro h path hpath
    obtain ⟨e, he, rfl⟩ := List.mem_map.1 hpath
    rw [← h] at he
    obtain ⟨e', -, rfl⟩ := mem_saved he
    exact writeFault?_savedPath e'.1
  · intro h
    have hentries : (s.assignments.entries.map fun e => (savedPath e.1, e.2)) =
        s.assignments.entries := by
      refine (List.map_congr_left fun e he => ?_).trans (List.map_id _)
      rw [savedPath_eq_self_iff.2 (h e.1 (List.mem_map_of_mem he)), id]
    rw [saved, hentries, OrderedMap.ofList_entries]

/-- What is saved keeps the rules. -/
theorem valid_saved (hs : s.Valid) : (saved s).Valid where
  policies := hs.policies
  files := hs.files
  assignments := by
    intro e he
    obtain ⟨e', he', rfl⟩ := mem_saved he
    obtain ⟨hhead, hname⟩ := hs.assignments e' he'
    obtain ⟨r, hr⟩ := List.head?_eq_some_iff.1 hhead
    refine ⟨?_, hname⟩
    rw [hr]
    rfl

/-- What is read from the text of a state is the state as it is saved. -/
theorem stateOfText_textOfState (hs : s.Valid) (file : Text) :
    stateOfText file (textOfState s) = .ok (saved s) := by
  rw [stateOfText, textOfState,
    Json.read_print Json.Layout.blank_indented (saved s).plain_toJson (List.all_eq_true.1 rfl)]
  simp only [State.ofJson_toJson (valid_saved hs)]

/-- The text of a state is not changed by the reading of line ends. -/
theorem not_mem_textOfState (s : State) : .char '\r' ∉ textOfState s := by
  intro h
  rcases List.mem_append.1 h with h | h
  · -- the layout breaks lines with line feeds only
    refine (saved s).plain_toJson.not_mem_printAt (by decide) (fun depth hm => ?_) (by decide) 0 h
    rcases List.mem_cons.1 hm with hm | hm
    · exact absurd hm (by decide)
    · exact absurd (List.eq_of_mem_replicate hm) (by decide)
  · exact absurd h (by decide)

theorem holds_of_readText {t : Text} (h : d.readText p = .ok t) : d.holds p = .ok true := by
  unfold Disk.readText Disk.read at h
  unfold Disk.holds
  rcases e : d.lookUp p with f | entry
  · rw [e] at h
    cases h
  · rfl

/-- The state that a file holds is that of its text. -/
theorem load_of_readText {t : Text} (h : d.readText p = .ok t) :
    load d p = stateOfText p.render t := by
  rw [load, holds_of_readText h, h]

/-- **A state that was written is loaded as it was saved.** -/
theorem load_of_writeText (hs : s.Valid) (h : d.writeText p (textOfState s) = (.ok (), d')) :
    load d' p = .ok (saved s) := by
  rw [load_of_readText (Disk.readText_of_writeText (not_mem_textOfState s) h)]
  exact stateOfText_textOfState hs p.render

/-- Saving succeeds, and the state is loaded from then on, or it fails on the way to the file. -/
theorem load_of_save (hs : s.Valid) (now : Text) (p : FilePath) (d : Disk) :
    ((save now s p d).outcome = .ok () ∧ load (save now s p d).world p = .ok (saved s)) ∨
      ∃ fault, (save now s p d).outcome = .error (writeFailure p fault) := by
  unfold save
  rcases hm : d.makeDirs p.parent with ⟨fault | ⟨⟩, d₁⟩
  · exact .inr ⟨fault, rfl⟩
  · dsimp only
    rcases hw : d₁.writeText p (textOfState s) with ⟨fault | ⟨⟩, d₂⟩
    · exact .inr ⟨fault, rfl⟩
    · exact .inl ⟨rfl, load_of_writeText hs hw⟩

/-- **Whatever is loaded keeps the rules.** -/
theorem valid_of_load (h : load d p = .ok s) : s.Valid := by
  unfold load at h
  split at h
  · cases h
  · cases h
    exact State.valid_new
  · split at h
    · cases h
    · cases h
    · unfold stateOfText at h
      split at h
      · cases h
      · cases h
      · split at h
        · next hv =>
          cases h
          exact State.valid_of_ofJson hv
        · cases h

/-! ### One call -/

/-- A call that succeeds with a change. -/
def Succeeds (call : Call) (outcome : Except Failure Call.Result) : Prop :=
  call.IsChange ∧ ∃ result, outcome = .ok result

/-- A call on the file and the same call in memory: they come to the same, and after a
change that succeeds the file holds the new state as it is saved. -/
structure Alike (p : FilePath) (call : Call) (s : State) (onFile : Reply Disk Call.Result)
    (inMemory : Reply State Call.Result) : Prop where
  /-- The calls come to the same. -/
  outcome : onFile.outcome = inMemory.outcome
  /-- What was changed is saved. -/
  changed : Succeeds call inMemory.outcome → load onFile.world p = .ok (saved inMemory.world)
  /-- What was not changed is still there. -/
  unchanged : ¬ Succeeds call inMemory.outcome →
    load onFile.world p = .ok s ∧ inMemory.world = s

/-- A question is answered alike. -/
theorem alike_of_ask {α : Type} {question : State → Except Failure α} {g : α → Call.Result}
    {call : Call} (hc : ¬ call.IsChange) (h : load d p = .ok s) :
    Alike p call s ((ask p question d).map g) ((Backend.asked s (question s)).map g) where
  outcome := by
    show Except.map _ (load d p >>= _) = _
    rw [h, ok_bind]
    rfl
  changed hs := absurd hs.1 hc
  unchanged _ := ⟨h, rfl⟩

/-- A change is made alike, unless it fails on the way to the file. -/
theorem alike_of_change (now : Text) {step : State → Except Failure State} {call : Call}
    (hc : call.IsChange) (h : load d p = .ok s) (hv : ∀ u, step s = .ok u → u.Valid)
    (hio : ∀ fault, (change now p step d).outcome ≠ .error (writeFailure p fault)) :
    Alike p call s ((change now p step d).map fun _ => .done)
      ((Backend.changed s (step s)).map fun _ => .done) := by
  unfold change at hio ⊢
  rw [h, ok_bind] at hio ⊢
  rcases e : step s with f | u
  · -- a change that is refused saves nothing
    refine ⟨rfl, fun hs => ?_, fun _ => ⟨h, rfl⟩⟩
    obtain ⟨-, result, hok⟩ := hs
    cases hok
  · rw [e] at hio
    rcases load_of_save (hv u e) now p d with ⟨ho, hl⟩ | ⟨fault, ho⟩
    · refine ⟨?_, fun _ => hl, fun hs => absurd ⟨hc, _, rfl⟩ hs⟩
      show Except.map _ (save now u p d).outcome = _
      rw [ho]
      rfl
    · exact absurd ho (hio fault)

/-- **One call on the file comes to what it comes to in memory**, unless it fails on the
way to the file. -/
theorem perform_refines (h : load d p = .ok s) {call : Call}
    (hp : ∀ q, call.place? = some q → q.path.head? = some (.char '/'))
    (hio : ∀ fault, ((backend now p).perform call d).outcome ≠ .error (writeFailure p fault)) :
    Alike p call s ((backend now p).perform call d) (Backend.inMemory.perform call s) := by
  have hs := valid_of_load h
  have hchange {step : State → Except Failure State} (hno : ∀ fault,
      ((change now p step d).map fun _ => Call.Result.done).outcome ≠
        .error (writeFailure p fault)) (fault : Disk.Fault) :
      (change now p step d).outcome ≠ .error (writeFailure p fault) :=
    fun hf => hno fault (map_eq_error.2 hf)
  cases call with
  | list => exact alike_of_ask id h
  | get q => exact alike_of_ask id h
  | set q name =>
    exact alike_of_change now trivial h (fun u hu => hs.setPolicy (hp q rfl) hu) (hchange hio)
  | unset q =>
    exact alike_of_change now trivial h (fun u hu => hs.unsetPolicy hu) (hchange hio)

/-! ### Calls one after the other -/

/-- The state is saved in the course of the calls: it is the one that a change among them
leaves. -/
inductive IsSaved : State → List Call → State → Prop
  /-- The first call leaves it. -/
  | first {s : State} {call : Call} {calls : List Call}
      (h : Succeeds call (Backend.inMemory.perform call s).outcome) :
      IsSaved s (call :: calls) (Backend.inMemory.perform call s).world
  /-- A later call leaves it. -/
  | later {s u : State} {call : Call} {calls : List Call}
      (h : IsSaved (Backend.inMemory.perform call s).world calls u) : IsSaved s (call :: calls) u

/-- **When the namespace in a file refines the namespace in memory.**  The calls are
made on places that were read, each on a service of its own at its own time.  The
file holds a state and no call fails on the way to the file.  Then every call comes
to the same as on a single namespace in memory, and after every call the file holds
the state that is in memory, exactly if no surrogate stands in the path of an
assignment of a state that is saved. -/
theorem trace_refines (d : Disk) (p : FilePath) (s : State) (calls : List (Text × Call))
    (hload : load d p = .ok s)
    (hplaces : ∀ c ∈ calls, ∀ q, c.2.place? = some q →
      ∃ workingDir raw, NamespacePath.parse workingDir raw = .ok q)
    (hio : ∀ e ∈ Backend.trace (calls.map fun c => (backend c.1 p, c.2)) d, ∀ fault,
      e.1 ≠ .error (writeFailure p fault)) :
    (Backend.trace (calls.map fun c => (backend c.1 p, c.2)) d).map
        (fun e => (e.1, load e.2 p)) =
      ((Backend.trace (calls.map fun c => (Backend.inMemory, c.2)) s).map
        fun e => (e.1, .ok e.2)) ↔
    ∀ u, IsSaved s (calls.map Prod.snd) u → KeepsPaths u := by
  -- the file holds the state: given at the start, and kept by each call
  induction calls generalizing d s with
  | nil => exact iff_of_true rfl nofun
  | cons c calls ih =>
    obtain ⟨now, call⟩ := c
    have hplace : ∀ q, call.place? = some q → q.path.head? = some (.char '/') := by
      intro q hq
      obtain ⟨workingDir, raw, hparse⟩ := hplaces (now, call) (.head _) q hq
      exact NamespacePath.head?_path_of_parse hparse
    have hcall := perform_refines hload hplace fun fault => hio _ (.head _) fault
    have hrest (hl : load ((backend now p).perform call d).world p =
        .ok (Backend.inMemory.perform call s).world) :=
      ih _ _ hl (fun c hc => hplaces c (.tail _ hc)) fun e he => hio e (.tail _ he)
    simp only [List.map_cons, Backend.trace, List.cons.injEq, Prod.mk.injEq]
    constructor
    · rintro ⟨⟨-, hl⟩, htail⟩ u hu
      cases hu with
      | first hs => exact saved_eq_self_iff.1 (Except.ok.inj ((hcall.changed hs).symm.trans hl))
      | later hu => exact (hrest hl).1 htail u hu
    · intro hkeeps
      have hl : load ((backend now p).perform call d).world p =
          .ok (Backend.inMemory.perform call s).world := by
        by_cases hs : Succeeds call (Backend.inMemory.perform call s).outcome
        · rw [hcall.changed hs, saved_eq_self_iff.2 (hkeeps _ (.first hs))]
        · obtain ⟨hl, hsame⟩ := hcall.unchanged hs
          rw [hl, hsame]
      exact ⟨⟨hcall.outcome, hl⟩, (hrest hl).2 fun u hu => hkeeps u (.later hu)⟩

/-- A policy that is set where there is no file yet is in the file afterwards. -/
theorem trace_refines_without_file :
    (Backend.trace [(backend [] { segments := ["s.json".text] },
        .set ⟨"/a".text, [], []⟩ "XOR-2-1-1024k".text)] {}).map
        (fun e => (e.1, load e.2 { segments := ["s.json".text] })) =
      (Backend.trace [(Backend.inMemory, .set ⟨"/a".text, [], []⟩ "XOR-2-1-1024k".text)]
        {}).map fun e => (e.1, .ok e.2) := by
  have hok : ((backend [] { segments := ["s.json".text] }).perform
      (.set ⟨"/a".text, [], []⟩ "XOR-2-1-1024k".text) {}).outcome = .ok .done := by
    decide +kernel
  refine (trace_refines {} { segments := ["s.json".text] } {}
    [([], .set ⟨"/a".text, [], []⟩ "XOR-2-1-1024k".text)] rfl ?_ ?_).2 ?_
  · intro c hc q hq
    rw [List.mem_singleton.1 hc] at hq
    cases hq
    exact ⟨"/".text, "a".text, rfl⟩
  · intro e he fault hf
    rw [List.mem_singleton.1 he, hok] at hf
    cases hf
  · intro u hu
    cases hu with
    | first h =>
      intro path hpath
      rw [List.mem_singleton.1 hpath]
      rfl
    | later h => cases h

/-- A disk with a state file in which a surrogate stands in the path of an assignment. -/
def surrogateDisk : Disk :=
  { entries := [(["s.json".text], .file
      (Utf8.encode "\x7b\"assignments\":\x7b\"/\\ud800\":\"x\"\x7d\x7d".text))] }

/-- The assignment of such a path is lost when a policy is set elsewhere. -/
theorem not_always_refined :
    ¬ ∀ d p s (calls : List (Text × Call)), load d p = .ok s →
      (∀ c ∈ calls, ∀ q, c.2.place? = some q →
        ∃ workingDir raw, NamespacePath.parse workingDir raw = .ok q) →
      (∀ e ∈ Backend.trace (calls.map fun c => (backend c.1 p, c.2)) d, ∀ fault,
        e.1 ≠ .error (writeFailure p fault)) →
      (Backend.trace (calls.map fun c => (backend c.1 p, c.2)) d).map
          (fun e => (e.1, load e.2 p)) =
        (Backend.trace (calls.map fun c => (Backend.inMemory, c.2)) s).map
          fun e => (e.1, .ok e.2) := by
  intro h
  let text : Text := "\x7b\"assignments\":\x7b\"/\\ud800\":\"x\"\x7d\x7d".text
  let s : State := { assignments := .ofList [([.char '/', .surrogate 0], "x".text)] }
  let call : Call := .set ⟨"/a".text, [], []⟩ "XOR-2-1-1024k".text
  have hload : load surrogateDisk { segments := ["s.json".text] } = .ok s := by
    have hr : surrogateDisk.readText { segments := ["s.json".text] } = .ok text :=
      Disk.readText_of_lookUp (by decide) (by decide) rfl
    rw [load_of_readText hr]
    simp only [text, String.text, Text.ofChars, String.reduceToList, List.map_cons, List.map_nil]
    rfl
  have hok : ((backend [] { segments := ["s.json".text] }).perform call surrogateDisk).outcome =
      .ok .done := by
    show Except.map _ (change _ _ _ _).outcome = _
    rw [change, hload]
    decide +kernel
  have hplaces : ∀ c ∈ [(([] : Text), call)], ∀ q, c.2.place? = some q →
      ∃ workingDir raw, NamespacePath.parse workingDir raw = .ok q := by
    intro c hc q hq
    rw [List.mem_singleton.1 hc] at hq
    cases hq
    exact ⟨"/".text, "a".text, rfl⟩
  have hio : ∀ e ∈ Backend.trace [(backend [] { segments := ["s.json".text] }, call)] surrogateDisk,
      ∀ fault, e.1 ≠ .error (writeFailure { segments := ["s.json".text] } fault) := by
    intro e he fault hf
    rw [List.mem_singleton.1 he, hok] at hf
    cases hf
  have hkeeps := (trace_refines surrogateDisk _ s [([], call)] hload hplaces hio).1
    (h surrogateDisk _ s [([], call)] hload hplaces hio) _ (.first ⟨trivial, .done, rfl⟩)
  exact absurd (hkeeps [.char '/', .surrogate 0] (.head _)) (by decide)

end CodingPolicy.Store
