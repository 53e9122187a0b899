/-
CodingPolicy/Proofs/StateFile.lean

How a call fails on the namespace in a file.  The ways are given one by one:
the state is not loaded (`Unloadable`), the call is refused as it would be in
memory, or the new state is not saved (`Unsavable`); `Fails` puts them together.
Most of them make a failure of the service itself.  But a whole number with too many
digits is taken for a wrong value, a name that is too long is turned down by the
system where the file is looked for, a text that is no name is found out where the
file or the directories above it are to be made, and a state whose text has no bytes
where the file is open.  These pass (`Escapes`).

Main result: `failure_of_perform`.
-/
import CodingPolicy.Proofs.Directories
import CodingPolicy.Proofs.Refinement

namespace CodingPolicy

/-! ### Long numbers -/

namespace Json

variable {c : CodePoint} {r : Text}

/-- **A text of more digits than the limit holds no value.** -/
theorem read_of_digits (hc : c.isDigit = true) (h0 : c ≠ '0')
    (hr : ∀ x ∈ r, x.isDigit = true) (hl : digitLimit < (c :: r).length) :
    read (c :: r) = .error (.tooManyDigits (c :: r).length) := by
  have hne : ∀ {x : CodePoint}, x.isDigit = false → c ≠ x := fun hx => ne_of_isDigit hc hx
  have hblank : isBlank c = false := by
    have hspace : c ≠ ' ' := hne rfl
    have htab : c ≠ '\t' := hne rfl
    have hfeed : c ≠ '\n' := hne rfl
    have hreturn : c ≠ '\r' := hne rfl
    simp [isBlank, hspace, htab, hfeed, hreturn]
  rw [read, skipBlank_of_head, readValue, if_neg (hne rfl), if_neg (hne rfl), if_neg (hne rfl),
    readWord?_of_digit hc]
  · dsimp only
    rw [readNumber_of_digits hc h0 hr hl]
    rfl
  · intro x hx
    cases hx
    exact hblank

end Json

namespace Store

variable {d d' : Disk} {p : FilePath} {s : State} {now : Text} {f : Failure} {call : Call}
variable {bad : FilePath.Fault}

/-! ### Loading -/

/-- How the state in a file is not loaded. -/
inductive Unloadable (d : Disk) (p : FilePath) : Failure → Prop
  /-- The name is too long to be looked up. -/
  | nameTooLong (hd : d.lookUp p = .error .tooLong) :
      Unloadable d p (.system (.nameTooLong p.render))
  /-- Something is there that cannot be read, or its bytes are no text. -/
  | unreadable {fault : Disk.TextFault} (hd : d.holds p = .ok true)
      (hr : d.readText p = .error fault) : Unloadable d p (unavailable (.unreadable p.render))
  /-- The text is no JSON. -/
  | noJson {t : Text} (hr : d.readText p = .ok t) (hj : Json.read t = .error .malformed) :
      Unloadable d p (unavailable (.noJson p.render))
  /-- The JSON is not the form of a state. -/
  | noState {t : Text} {v : Json} {vs : List Violation} (hr : d.readText p = .ok t)
      (hj : Json.read t = .ok v) (hv : State.ofJson v = .error vs) :
      Unloadable d p (unavailable (.noState p.render))
  /-- A whole number in the text has too many digits. -/
  | tooManyDigits {t : Text} {n : Nat} (hr : d.readText p = .ok t)
      (hj : Json.read t = .error (.tooManyDigits n)) :
      Unloadable d p (.value (.tooManyDigits n))

/-- A text that is no name leads to nothing. -/
theorem holds_of_fault (h : p.fault? = some bad) : d.holds p = .ok false := by
  rw [Disk.holds, Disk.lookUp, Disk.locate_of_fault h]

/-- A name is not looked up just where it is too long. -/
theorem holds_eq_error {fault : Disk.Fault} (h : d.holds p = .error fault) :
    d.lookUp p = .error .tooLong := by
  unfold Disk.holds at h
  split at h
  · cases h
  · next e => exact e
  · cases h

theorem readText_ne_name (h : d.holds p = .ok true) :
    d.readText p ≠ .error (.file (.name bad)) := by
  unfold Disk.holds at h
  unfold Disk.readText Disk.read
  rcases e : d.lookUp p with fault | ⟨_ | bytes⟩
  · rw [e] at h
    cases fault <;> cases h
  · rintro ⟨⟩
  · dsimp only
    split <;> rintro ⟨⟩

/-- **A state is not loaded in just these ways.** -/
theorem load_eq_error : load d p = .error f ↔ Unloadable d p f := by
  constructor
  · intro h
    unfold load at h
    split at h
    · next hd =>
      cases h
      exact .nameTooLong (holds_eq_error hd)
    · cases h
    · next hd =>
      split at h
      · -- the file is there, so that it has a name
        next hr => exact absurd hr (readText_ne_name hd)
      · next hr =>
        cases h
        exact .unreadable hd hr
      · next t hr =>
        unfold stateOfText at h
        split at h
        · next hj =>
          cases h
          exact .tooManyDigits hr hj
        · next hj =>
          cases h
          exact .noJson hr hj
        · next v hj =>
          split at h
          · cases h
          · next hv =>
            cases h
            exact .noState hr hj hv
  · intro h
    cases h with
    | nameTooLong hd => simp only [load, Disk.holds, hd]
    | @unreadable fault hd hr =>
      rw [load, hd, hr]
      rcases fault with (_ | _ | _ | _ | _ | _ | _ | _) | _
      all_goals first | rfl | exact absurd hr (readText_ne_name hd)
    | noJson hr hj => simp only [load_of_readText hr, stateOfText, hj]
    | noState hr hj hv => simp only [load_of_readText hr, stateOfText, hj, hv]
    | tooManyDigits hr hj => simp only [load_of_readText hr, stateOfText, hj]

/-! ### Saving -/

/-- How a state is not saved in a file. -/
inductive Unsavable (s : State) (d : Disk) (p : FilePath) : Failure → Prop
  /-- The directories above the file cannot be made. -/
  | noDirectories {fault : Disk.Fault} {d' : Disk} (hn : p.parent.fault? = none)
      (hm : d.makeDirs p.parent = (.error fault, d')) :
      Unsavable s d p (unavailable (.unwritable p.render))
  /-- The file cannot be opened. -/
  | noFile {fault : Disk.Fault} {d' : Disk} (hn : p.fault? = none)
      (hm : d.makeDirs p.parent = (.ok (), d')) (ht : d'.target p = .error fault) :
      Unsavable s d p (unavailable (.unwritable p.render))
  /-- The file is open, and there is no room for the whole text. -/
  | noRoom {d' : Disk} {l : Location} (hm : d.makeDirs p.parent = (.ok (), d'))
      (ht : d'.target p = .ok l) (hb : Utf8.writeFault? (textOfState s) = none)
      (hroom : d'.hasRoom (Utf8.encode (textOfState s)) = false) :
      Unsavable s d p (unavailable (.unwritable p.render))
  /-- The text that is used as a name is none: that of the directories, or that of the file
  when they are there. -/
  | noName {q : FilePath} {bad : FilePath.Fault} (hn : q.fault? = some bad)
      (hq : q = p.parent ∨ q = p ∧ (d.makeDirs p.parent).1 = .ok ()) :
      Unsavable s d p bad.failure
  /-- The file is open, and the text has no bytes. -/
  | noBytes {d' : Disk} {l : Location} {fault : Utf8.WriteFault}
      (hm : d.makeDirs p.parent = (.ok (), d')) (ht : d'.target p = .ok l)
      (hb : Utf8.writeFault? (textOfState s) = some fault) :
      Unsavable s d p (.unencodable fault)

/-- A fault that is met on the disk makes the namespace unavailable. -/
theorem writeFailure_of_isMet {fault : Disk.Fault} (h : fault.IsMet) :
    writeFailure p fault = unavailable (.unwritable p.render) := by
  cases fault with
  | name bad => cases h
  | unencodable fault => cases h
  | _ => rfl

theorem unsavable_of_save (h : (save now s p d).outcome = .error f) : Unsavable s d p f := by
  unfold save at h
  rcases hm : d.makeDirs p.parent with ⟨fault | ⟨⟩, d₁⟩
  · rw [hm] at h
    cases h
    cases hn : p.parent.fault? with
    | some bad =>
      rw [Disk.makeDirs_of_fault hn] at hm
      cases hm
      exact .noName hn (.inl rfl)
    | none =>
      have hmet : fault.IsMet :=
        Disk.isMet_of_makeDirsWithin hn (congrArg Prod.fst hm)
      rw [writeFailure_of_isMet hmet]
      exact .noDirectories hn hm
  · rw [hm] at h
    dsimp only at h
    rcases hw : d₁.writeText p (textOfState s) with ⟨fault | ⟨⟩, d₂⟩
    · rw [hw] at h
      cases h
      cases Disk.notWritten hw with
      | unopened ht =>
        cases hn : p.fault? with
        | some bad =>
          cases (Disk.target_of_fault hn).symm.trans ht
          exact .noName hn (.inr ⟨rfl, congrArg Prod.fst hm⟩)
        | none =>
          rw [writeFailure_of_isMet (Disk.isMet_of_target hn ht)]
          exact .noFile hn hm ht
      | brokenOff ht hb hroom => exact .noRoom hm ht hb hroom
      | unencodable ht hb => exact .noBytes hm ht hb
    · rw [hw] at h
      cases h

theorem save_of_unsavable (h : Unsavable s d p f) : (save now s p d).outcome = .error f := by
  unfold save
  cases h with
  | noDirectories hn hm =>
    rw [hm]
    exact congrArg Except.error
      (writeFailure_of_isMet (Disk.isMet_of_makeDirsWithin hn (congrArg Prod.fst hm)))
  | noFile hn hm ht =>
    rw [hm]
    dsimp only
    rw [Disk.writeText_of_target_error ht]
    exact congrArg Except.error (writeFailure_of_isMet (Disk.isMet_of_target hn ht))
  | noRoom hm ht hb hroom =>
    rw [hm]
    dsimp only
    rw [Disk.writeText_of_not_hasRoom ht hb hroom]
    rfl
  | @noName q bad hn hq =>
    rcases hq with rfl | ⟨rfl, hm⟩
    · rw [Disk.makeDirs_of_fault hn]
      rfl
    · rcases e : d.makeDirs q.parent with ⟨result, d₁⟩
      rw [e] at hm
      cases hm
      dsimp only
      rw [Disk.writeText_of_target_error (Disk.target_of_fault hn)]
      rfl
  | noBytes hm ht hb =>
    rw [hm]
    dsimp only
    rw [Disk.writeText_of_writeFault ht hb]
    rfl

/-- **A state is not saved in just these ways.** -/
theorem save_eq_error : (save now s p d).outcome = .error f ↔ Unsavable s d p f :=
  ⟨unsavable_of_save, save_of_unsavable⟩

/-! ### Calls -/

/-- How a call fails on the namespace in a file. -/
inductive Fails (d : Disk) (p : FilePath) (call : Call) : Failure → Prop
  /-- The state is not loaded. -/
  | unloadable {f : Failure} (h : Unloadable d p f) : Fails d p call f
  /-- The call is refused on the state that is loaded, as it is in memory. -/
  | refused {s : State} {cause : ServiceFailure} (hl : load d p = .ok s)
      (ho : (Backend.inMemory.perform call s).outcome = .error (.service cause)) :
      Fails d p call (.service cause)
  /-- The change is made, and the new state is not saved. -/
  | unsavable {s : State} {result : Call.Result} {f : Failure} (hl : load d p = .ok s)
      (hc : call.IsChange) (ho : (Backend.inMemory.perform call s).outcome = .ok result)
      (h : Unsavable (Backend.inMemory.perform call s).world d p f) : Fails d p call f

/-- A question fails where the state is not loaded or does not answer it. -/
theorem ask_eq_error {α : Type} {question : State → Except Failure α} :
    (ask p question d).outcome = .error f ↔
      Unloadable d p f ∨ ∃ s, load d p = .ok s ∧ question s = .error f := by
  rw [← load_eq_error]
  exact bind_eq_error

/-- A change fails where the state is not loaded, does not admit it, or is not saved with it. -/
theorem change_eq_error {step : State → Except Failure State} :
    (change now p step d).outcome = .error f ↔
      Unloadable d p f ∨ ∃ s, load d p = .ok s ∧
        (step s = .error f ∨ ∃ t, step s = .ok t ∧ Unsavable t d p f) := by
  rw [← load_eq_error]
  unfold change
  rcases hl : load d p with g | s
  · simp
  · rcases hs : step s with g | t
    · simp [hs]
    · simp [hs, save_eq_error]

/-- A call that asks fails as its question does. -/
theorem perform_eq_error_of_ask {α : Type} {question : State → Except Failure α}
    {g : α → Call.Result} (hc : ¬ call.IsChange)
    (hb : (backend now p).perform call d = (ask p question d).map g)
    (hm : ∀ s, Backend.inMemory.perform call s = (Backend.asked s (question s)).map g) :
    ((backend now p).perform call d).outcome = .error f ↔ Fails d p call f := by
  have ho : ∀ s g, (Backend.inMemory.perform call s).outcome = .error g ↔
      question s = .error g := by
    intro s g
    rw [hm, Reply.map_outcome]
    exact map_eq_error
  rw [hb, Reply.map_outcome, map_eq_error, ask_eq_error]
  constructor
  · rintro (h | ⟨s, hl, h⟩)
    · exact .unloadable h
    · -- what was loaded keeps the rules, and so it refuses in the service's own way
      obtain ⟨cause, rfl⟩ := Backend.own_of_perform (valid_of_load hl) ((ho s f).2 h)
      exact .refused hl ((ho s _).2 h)
  · intro h
    cases h with
    | unloadable h => exact .inl h
    | refused hl h => exact .inr ⟨_, hl, (ho _ _).1 h⟩
    | unsavable _ hchange => exact absurd hchange hc

/-- A call that changes the state fails as its change does. -/
theorem perform_eq_error_of_change {step : State → Except Failure State} (hc : call.IsChange)
    (hb : (backend now p).perform call d = (change now p step d).map fun _ => .done)
    (hm : ∀ s, Backend.inMemory.perform call s =
      (Backend.changed s (step s)).map fun _ => .done) :
    ((backend now p).perform call d).outcome = .error f ↔ Fails d p call f := by
  have hrefused : ∀ s g, (Backend.inMemory.perform call s).outcome = .error g ↔
      step s = .error g := by
    intro s g
    rw [hm, Reply.map_outcome, map_eq_error, Backend.changed_eq_error]
  rw [hb, Reply.map_outcome, map_eq_error, change_eq_error]
  constructor
  · rintro (h | ⟨s, hl, h | ⟨t, ht, h⟩⟩)
    · exact .unloadable h
    · obtain ⟨cause, rfl⟩ := Backend.own_of_perform (valid_of_load hl) ((hrefused s f).2 h)
      exact .refused hl ((hrefused s _).2 h)
    · have hdone : Backend.inMemory.perform call s = { outcome := .ok .done, world := t } := by
        rw [hm, ht]
        rfl
      refine .unsavable hl hc (congrArg Reply.outcome hdone) ?_
      rw [hdone]
      exact h
  · intro h
    cases h with
    | unloadable h => exact .inl h
    | refused hl h => exact .inr ⟨_, hl, .inl ((hrefused _ _).1 h)⟩
    | @unsavable s result _ hl _ ho h =>
      rw [hm] at ho h
      rcases e : step s with g | t
      · rw [e] at ho
        cases ho
      · rw [e] at h
        exact .inr ⟨s, hl, .inr ⟨t, e, h⟩⟩

/-- **A call fails in just these ways.** -/
theorem perform_eq_error :
    ((backend now p).perform call d).outcome = .error f ↔ Fails d p call f := by
  cases call with
  | list => exact perform_eq_error_of_ask id rfl fun _ => rfl
  | get q => exact perform_eq_error_of_ask id rfl fun _ => rfl
  | set q name => exact perform_eq_error_of_change trivial rfl fun _ => rfl
  | unset q => exact perform_eq_error_of_change trivial rfl fun _ => rfl

/-! ### Failures that are not the service's own -/

/-- The failures of the service are those of its group. -/
theorem mem_groups_iff : "NamespaceError".text ∈ f.groups ↔ ∃ cause, f = .service cause := by
  cases f with
  | service cause =>
    refine iff_of_true ?_ ⟨cause, rfl⟩
    by_cases hk : (Failure.service cause).kind = "NamespaceError".text
    · rw [Failure.groups, hk]
      exact .head _
    · simp [Failure.groups, hk]
  | usage cause => cases cause <;> simp [Failure.groups, Failure.kind]
  | _ => simp [Failure.groups, Failure.kind]

/-- What passes the service by. -/
inductive Escapes (d : Disk) (p : FilePath) (call : Call) : Failure → Prop
  /-- The name of the file is too long to be looked up. -/
  | longName (hd : d.lookUp p = .error .tooLong) :
      Escapes d p call (.system (.nameTooLong p.render))
  /-- A whole number in the text has too many digits. -/
  | number {t : Text} {n : Nat} (hr : d.readText p = .ok t)
      (hj : Json.read t = .error (.tooManyDigits n)) :
      Escapes d p call (.value (.tooManyDigits n))
  /-- The text that is used as a name is none, a policy of a new namespace is set, and
  nothing fails before. -/
  | name {q : FilePath} {bad : FilePath.Fault} {place : NamespacePath} {name : Text}
      (hn : q.fault? = some bad) (hq : q = p.parent ∨ q = p ∧ (d.makeDirs p.parent).1 = .ok ())
      (hc : call = .set place name) (hk : name ∈ Policy.systemNames) :
      Escapes d p call bad.failure
  /-- A change is made, the file is open, and the text of the new state has no bytes. -/
  | noBytes {s : State} {result : Call.Result} {d' : Disk} {l : Location}
      {fault : Utf8.WriteFault} (hl : load d p = .ok s) (hc : call.IsChange)
      (ho : (Backend.inMemory.perform call s).outcome = .ok result)
      (hm : d.makeDirs p.parent = (.ok (), d')) (ht : d'.target p = .ok l)
      (hb : Utf8.writeFault? (textOfState (Backend.inMemory.perform call s).world) = some fault) :
      Escapes d p call (.unencodable fault)

/-- Under a text that is no name a new namespace is loaded. -/
theorem load_of_fault (h : p.fault? = some bad) : load d p = .ok {} := by
  rw [load, holds_of_fault h]

/-- Where the text of the directories or of the file is no name, that of the file is none. -/
theorem fault?_of_noName {q : FilePath} (hn : q.fault? = some bad)
    (hq : q = p.parent ∨ q = p ∧ (d.makeDirs p.parent).1 = .ok ()) :
    ∃ bad, p.fault? = some bad := by
  rcases hq with rfl | ⟨rfl, -⟩
  · cases hp : p.fault? with
    | some bad => exact ⟨bad, rfl⟩
    | none =>
      rw [FilePath.fault?_parent hp] at hn
      cases hn
  · exact ⟨bad, hn⟩

/-- The policies of a new namespace are those of the system. -/
theorem known_new {name : Text} :
    (∃ policy ∈ ({} : State).known, policy.name = name) ↔ name ∈ Policy.systemNames := by
  have hknown : ({} : State).known = Policy.systemNames.map Policy.mk := rfl
  rw [hknown]
  constructor
  · rintro ⟨policy, hp, rfl⟩
    obtain ⟨name, hn, rfl⟩ := List.mem_map.1 hp
    exact hn
  · intro h
    exact ⟨⟨name⟩, List.mem_map_of_mem h, rfl⟩

/-- **A failure is one of the service's own, or one that passes it by.** -/
theorem escapes_of_fails (h : Fails d p call f) :
    (∃ cause, f = .service cause) ∨ Escapes d p call f := by
  cases h with
  | unloadable h =>
    cases h with
    | nameTooLong hd => exact .inr (.longName hd)
    | tooManyDigits hr hj => exact .inr (.number hr hj)
    | _ => exact .inl ⟨_, rfl⟩
  | refused => exact .inl ⟨_, rfl⟩
  | @unsavable s result _ hl hc ho h =>
    cases h with
    | noName hn hq =>
      right
      -- no file is there under such a text
      obtain ⟨_, hp⟩ := fault?_of_noName hn hq
      cases (load_of_fault hp).symm.trans hl
      -- of the changes of a new namespace only the setting of a policy succeeds
      cases call with
      | set place name =>
        rw [Backend.perform_set] at ho
        rcases e : ({} : State).setPolicy place name with g | t
        · rw [e] at ho
          cases ho
        · obtain ⟨hk, -⟩ := State.setPolicy_eq_ok.1 e
          exact .name hn hq rfl (known_new.1 hk)
      | unset place => cases ho
      | list => cases hc
      | get place => cases hc
    | noBytes hm ht hb => exact .inr (.noBytes hl hc ho hm ht hb)
    | _ => exact .inl ⟨_, rfl⟩

/-- What passes is a failure. -/
theorem fails_of_escapes (h : Escapes d p call f) : Fails d p call f := by
  cases h with
  | longName hd => exact .unloadable (.nameTooLong hd)
  | number hr hj => exact .unloadable (.tooManyDigits hr hj)
  | @name _ _ place name hn hq hc hk =>
    subst hc
    have hset : ({} : State).setPolicy place name = .ok _ :=
      State.setPolicy_eq_ok.2 ⟨known_new.2 hk, List.not_mem_nil, rfl⟩
    have ho : (Backend.inMemory.perform (.set place name) {}).outcome = .ok .done := by
      rw [Backend.perform_set, hset]
      rfl
    obtain ⟨_, hp⟩ := fault?_of_noName hn hq
    exact .unsavable (load_of_fault hp) trivial ho (.noName hn hq)
  | noBytes hl hc ho hm ht hb => exact .unsavable hl hc ho (.noBytes hm ht hb)

/-- What passes is no failure of the service itself. -/
theorem ne_service_of_escapes (h : Escapes d p call f) (cause : ServiceFailure) :
    f ≠ .service cause := by
  cases h with
  | @name _ bad => cases bad <;> nofun
  | _ => nofun

/-- **How the namespace in a file fails.**  On every disk and under every name
of the file, the loading, the saving and the calls fail in the ways that are
given, and in no other.  A call fails with a failure of the service itself, but
for a whole number of too many digits, a name that is too long to be looked up, a text
that is used as a name and is none, and a new state whose text has no bytes. -/
theorem failure_of_perform (now : Text) (d : Disk) (p : FilePath) :
    (∀ f, load d p = .error f ↔ Unloadable d p f) ∧
    (∀ s f, (save now s p d).outcome = .error f ↔ Unsavable s d p f) ∧
    ∀ call f, (((backend now p).perform call d).outcome = .error f ↔ Fails d p call f) ∧
      (((backend now p).perform call d).outcome = .error f ∧ (∀ cause, f ≠ .service cause) ↔
        Escapes d p call f) := by
  refine ⟨fun f => load_eq_error, fun s f => save_eq_error, fun call f => ⟨perform_eq_error, ?_⟩⟩
  rw [perform_eq_error]
  constructor
  · rintro ⟨h, hown⟩
    rcases escapes_of_fails h with ⟨cause, rfl⟩ | he
    · exact absurd rfl (hown cause)
    · exact he
  · intro he
    exact ⟨fails_of_escapes he, ne_service_of_escapes he⟩

/-- A policy that is set under a name with a NUL character is met by a wrong value. -/
theorem failure_under_name_with_nul :
    ((backend [] { segments := ["a\x00b".text] }).perform
      (.set ⟨"/a".text, [], []⟩ "XOR-2-1-1024k".text) {}).outcome =
      .error (.value .nulInFileName) := by
  have h := ((failure_of_perform [] {} { segments := ["a\x00b".text] }).2.2
    (.set ⟨"/a".text, [], []⟩ "XOR-2-1-1024k".text) (.value .nulInFileName)).2
  have hn : FilePath.fault? { segments := ["a\x00b".text] } = some .nul := by decide
  exact (h.2 (.name hn (.inr ⟨rfl, rfl⟩) rfl (by decide))).1

/-- A disk with a file that holds nothing but a whole number of 4301 digits. -/
def longNumberDisk : Disk :=
  { entries := [(["s.json".text], .file (Utf8.encode (List.replicate 4301 (.char '1'))))] }

/-- A call on a file that holds too long a number fails, and not in the service's own way. -/
theorem not_always_own :
    ¬ ∀ now d p call, (∀ q, Call.place? call = some q →
        ∃ workingDir raw, NamespacePath.parse workingDir raw = .ok q) →
      (∃ result, ((backend now p).perform call d).outcome = .ok result) ∨
        ∃ cause, ((backend now p).perform call d).outcome = .error (.service cause) := by
  intro h
  have hr : longNumberDisk.readText { segments := ["s.json".text] } =
      .ok (List.replicate 4301 (.char '1')) := by
    refine Disk.readText_of_lookUp (fun hm => ?_) ?_ (by rfl)
    · exact absurd (List.eq_of_mem_replicate hm) (by decide)
    · refine Utf8.writeFault?_eq_none_iff.2 fun c hc => ?_
      rw [List.eq_of_mem_replicate hc]
      rfl
  have hj : Json.read (List.replicate 4301 (.char '1')) = .error (.tooManyDigits 4301) := by
    have hlength : (CodePoint.char '1' :: List.replicate 4300 (.char '1')).length = 4301 := by
      rw [List.length_cons, List.length_replicate]
    have hdigits : ∀ x ∈ List.replicate 4300 (CodePoint.char '1'), x.isDigit = true := by
      intro x hx
      rw [List.eq_of_mem_replicate hx]
      rfl
    have hread := Json.read_of_digits (c := '1') rfl (by decide) hdigits
      (by rw [hlength]; decide)
    rw [hlength] at hread
    rw [List.replicate_succ]
    exact hread
  have ho : ((backend [] { segments := ["s.json".text] }).perform .list longNumberDisk).outcome =
      .error (.value (.tooManyDigits 4301)) :=
    perform_eq_error.2 (fails_of_escapes (.number hr hj))
  rcases h [] longNumberDisk { segments := ["s.json".text] } .list nofun with
    ⟨result, hok⟩ | ⟨cause, hs⟩
  · cases ho.symm.trans hok
  · cases ho.symm.trans hs

end Store

end CodingPolicy
