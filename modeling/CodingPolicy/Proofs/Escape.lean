/-
CodingPolicy/Proofs/Escape.lean

Failures that nobody answers.  The dispatcher answers invalid arguments and
lets everything else pass.  Over a valid state there is one kind of failure
that passes: a text that is taken for a URI and cannot be split.  It is met
in two places, where the text of a path is read and where the place is held
against the file system that is served.

Main result: `outcome_over_valid_state`, which gives the exact condition of
an escape and the answer to every other malformed path.
-/
import CodingPolicy.Proofs.Paths
import CodingPolicy.Proofs.Status

namespace CodingPolicy

/-- An invalid argument is told after the name of its kind. -/
theorem summary_invalidArgument (cause : InvalidArgument) :
    (Failure.invalidArgument cause).summary =
      "InvalidArgumentError: ".text ++ Text.firstLine cause.message := by
  have hkind : (Failure.invalidArgument cause).kind ++ ": ".text =
      "InvalidArgumentError: ".text := rfl
  rw [← hkind, List.append_assoc]
  rfl

/-! ### Escapes -/

namespace Dispatch

open SessionM Command

/-- What the arguments give as a path makes a split fail: the text itself, or the
file system that its place is held against. -/
inductive Escapes (config : Config) (argv : List Text) (fault : Uri.Fault) : Prop where
  /-- The text of the path cannot be split. -/
  | path {n : Name} {args : List Text} {raw : Text} (ha : argv = n.text :: args)
      (ht : PathText (spec n) args raw) (hs : NamespacePath.Unsplittable raw fault)
  /-- The path is given as a URI, and the file system that is served cannot be split. -/
  | fileSystem {n : Name} {args : List Text} {raw : Text} {p : NamespacePath}
      (ha : argv = n.text :: args) (ht : PathText (spec n) args raw)
      (hp : NamespacePath.parse config.workingDir raw = .ok p) (hs : p.scheme ≠ [])
      (hf : Uri.split config.defaultFs = .error fault)

variable {config : Config} {now : Text} {s : State} {argv : List Text}

/-- A run over a valid state that gives no status met a text that cannot be split. -/
theorem escapes_of_course (hs : s.Valid) {f : Failure} {t : Session State}
    (h : Course (connected config now) config s argv (.error f) t) :
    ∃ fault, Escapes config argv fault ∧ f = .value (.uri fault) := by
  cases h with
  | @escaped name args d _ _ hn hc hf =>
    obtain ⟨n, rfl, rfl⟩ := eq_spec_of_resolve hn
    cases hc with
    | malformed hp hu =>
      rcases parse_error hp with (⟨cause, rfl⟩ | ⟨cause, rfl⟩) | ⟨raw, ht, hraw⟩
      · exact absurd rfl (hu cause)
      · exact absurd rfl (hf cause)
      · rcases NamespacePath.parse_error hraw with ⟨cause, rfl⟩ | ⟨fault, hsplit, rfl⟩
        · exact absurd rfl (hf cause)
        · exact ⟨fault, .path rfl ht hsplit, rfl⟩
    | @turnedAway call _ hp ha =>
      rcases hplace : call.place? with - | p
      · rw [hplace] at ha
        cases ha
      · rw [hplace] at ha
        obtain ⟨raw, ht, hraw⟩ := pathText_of_call hp hplace
        rcases NamespacePath.checkFileSystem_error ha with ⟨cause, rfl⟩ | ⟨fault, hsch, hfs, rfl⟩
        · exact absurd rfl (hf cause)
        · exact ⟨fault, .fileSystem rfl ht hraw hsch hfs, rfl⟩
    | @broken call _ hp ha hr hfs =>
      -- over a valid state the service fails only in its own way
      have hw : (started (connected config now) s (spec n) args).world = s := rfl
      rw [Call.reply, hw] at hr
      obtain ⟨cause, rfl⟩ := Backend.own_of_perform hs hr
      exact absurd rfl (hfs cause)

/-- A text that cannot be split is answered by nobody. -/
theorem exec_of_escapes {fault : Uri.Fault} (h : Escapes config argv fault) (now : Text)
    (s : State) :
    (exec (run (connected config now) config argv) (fresh s)).1 = .error (.value (.uri fault)) := by
  -- the fault is a wrong value, which the dispatcher does not answer
  cases h with
  | @path n args raw ha ht hsplit =>
    subst ha
    have hp := (parse_of_pathText ht config.workingDir).1 _ (hsplit.parse config.workingDir)
    rw [exec_of_course (.escaped (resolve_text n) (.malformed hp fun _ h => nomatch h)
      fun _ h => nomatch h)]
  | @fileSystem n args raw p ha ht hp hsch hfs =>
    subst ha
    obtain ⟨call, hplace, hc⟩ := (parse_of_pathText ht config.workingDir).2 p hp
    have hadmits : (connected config now).admitted call.place? = .error (.value (.uri fault)) := by
      rw [hplace]
      exact NamespacePath.checkFileSystem_of_split_error hsch hfs
    rw [exec_of_course (.escaped (resolve_text n) (.turnedAway hc hadmits) fun _ h => nomatch h)]

/-- A malformed path that is an invalid argument is answered as one. -/
theorem exec_of_malformed {n : Name} {args : List Text} {raw : Text} {cause : InvalidArgument}
    (ht : PathText (spec n) args raw)
    (hp : NamespacePath.parse config.workingDir raw = .error (.invalidArgument cause)) (now : Text)
    (s : State) :
    (exec (run (connected config now) config (n.text :: args)) (fresh s)).1 =
        .ok Status.invalidArgument ∧
      (exec (run (connected config now) config (n.text :: args)) (fresh s)).2.err =
        (Failure.invalidArgument cause).summary ++ [.char '\n'] := by
  have hc := (parse_of_pathText ht config.workingDir).1 _ hp
  rw [exec_of_course (.invalid (resolve_text n) (.malformed hc fun _ h => nomatch h))]
  exact ⟨rfl, rfl⟩

/-- **What becomes of a run over a valid state.**  It gives one of the four
statuses, unless a text cannot be split; then the fault of the split passes,
and this is the only failure that does.  A malformed path is answered as an
invalid argument in every other case. -/
theorem outcome_over_valid_state (config : Config) (now : Text) (s : State) (hs : s.Valid)
    (argv : List Text) :
    (∀ f, (exec (run (connected config now) config argv) (fresh s)).1 = .error f ↔
      ∃ fault, Escapes config argv fault ∧ f = .value (.uri fault)) ∧
    (∀ status, (exec (run (connected config now) config argv) (fresh s)).1 = .ok status →
      status ∈ [Status.ok, Status.usage, Status.service, Status.invalidArgument]) ∧
    ∀ n args raw f, argv = Name.text n :: args → PathText (spec n) args raw →
      NamespacePath.parse config.workingDir raw = .error f →
      (∃ fault, NamespacePath.Unsplittable raw fault ∧ f = .value (.uri fault)) ∨
        ∃ cause, f = .invalidArgument cause ∧
          (exec (run (connected config now) config argv) (fresh s)).1 =
            .ok Status.invalidArgument ∧
          (exec (run (connected config now) config argv) (fresh s)).2.err =
            "InvalidArgumentError: ".text ++ Text.firstLine cause.message ++ [.char '\n'] := by
  have hc := course (connected config now) config s argv
  refine ⟨fun f => ⟨fun h => ?_, ?_⟩, fun status h => ?_, ?_⟩
  · rw [h] at hc
    exact escapes_of_course hs hc
  · rintro ⟨fault, he, rfl⟩
    exact exec_of_escapes he now s
  · -- the statuses are known of runs on record, and the record changes none
    have hown : (connected config now).FailsOnItsOwn s := Setting.failsOnItsOwn_inMemory hs
    have hrec := course (connected config now).recorded config (s, []) argv
    rw [exec_run_plain (connected config now) config argv s []] at h
    rw [h] at hrec
    exact (ending hown hrec).status_mem
  · rintro n args raw f rfl ht hp
    rcases NamespacePath.parse_error hp with ⟨cause, rfl⟩ | ⟨fault, hsplit, rfl⟩
    · obtain ⟨hstatus, herr⟩ := exec_of_malformed ht hp now s
      rw [summary_invalidArgument] at herr
      exact .inr ⟨cause, rfl, hstatus, herr⟩
    · exact .inl ⟨fault, hsplit, rfl⟩

/-- A file system that cannot be split is met by the first path that is given as a URI. -/
theorem outcome_on_unsplittable_file_system :
    (exec (run
      (connected { defaultFs := "ecfs://[x".text, stateFile := {}, workingDir := [.char '/'],
                   logFile := none } [])
      { defaultFs := "ecfs://[x".text, stateFile := {}, workingDir := [.char '/'], logFile := none }
      ["-getPolicy".text, "-path".text, "ecfs://h/a".text]) (fresh {})).1 =
      .error (.value (.uri .misplacedBrackets)) := by
  refine ((outcome_over_valid_state _ [] {} State.valid_new _).1 _).2 ⟨.misplacedBrackets, ?_, rfl⟩
  exact .fileSystem (n := .getPolicy) rfl ⟨_, rfl, rfl⟩ rfl (by decide) rfl

/-- A path that opens a bracket and does not close it is answered with no status. -/
theorem not_always_a_status :
    ¬ ∀ homes value config, Config.ofJson homes value = .ok config →
      ∀ now (s : State) argv, s.Valid →
      ∃ status ∈ [Status.ok, Status.usage, Status.service, Status.invalidArgument],
        (exec (run (connected config now) config argv) (fresh s)).1 = .ok status := by
  intro h
  obtain ⟨status, -, hs⟩ := h "/root".text (.object []) _ rfl [] {}
    ["-getPolicy".text, "-path".text, "ecfs://[x/a".text] State.valid_new
  cases hs

end Dispatch

end CodingPolicy
