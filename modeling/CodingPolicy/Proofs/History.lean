/-
CodingPolicy/Proofs/History.lean

Many runs over one namespace in memory.  What a path carries of its own after
them is told by the runs alone: by the last change of that path that was
answered with success, or by the state at the start where there was none
(`explicit?`).  The state agrees with this after every run
(`get?_after_turns`), so a question is answered from the runs that came
before it.

Main result: `policy_in_effect`.
-/
import CodingPolicy.Proofs.Ancestors
import CodingPolicy.Proofs.Memory

namespace CodingPolicy.Dispatch

open SessionM

/-! ### Runs one after the other -/

/-- A run that was made. -/
structure Turn where
  /-- The arguments. -/
  argv : List Text
  /-- The status, or the failure that nobody answered. -/
  outcome : Except Failure Int
  /-- The traces. -/
  traces : Session State

/-- Runs over one namespace in memory, one after the other, each at its own time. -/
def turns (config : Config) : State → List (Text × List Text) → List Turn
  | _, [] => []
  | s, (now, argv) :: r =>
    let result := exec (run (connected config now) config argv) (fresh s)
    { argv, outcome := result.1, traces := result.2 } :: turns config result.2.world r

/-- The command that the arguments ask for. -/
def asked? (config : Config) : List Text → Option Command
  | [] => none
  | name :: args =>
    match Command.resolve name with
    | .ok d => (Command.parse d args config.workingDir).toOption
    | .error _ => none

variable {config : Config}

theorem asked?_eq_some {argv : List Text} {command : Command} :
    asked? config argv = some command ↔ Asks config argv command := by
  constructor
  · intro h
    rcases argv with - | ⟨name, args⟩
    · cases h
    · rcases hn : Command.resolve name with f | d
      · simp only [asked?, hn] at h
        cases h
      · simp only [asked?, hn] at h
        exact ⟨name, args, d, rfl, hn, toOption_eq_some.1 h⟩
  · rintro ⟨name, args, d, rfl, hn, hp⟩
    simp only [asked?, hn]
    exact toOption_eq_some.2 hp

/-- The path that a run changes, and what the path carries from then on: only a
run that succeeds changes anything. -/
def Turn.change? (config : Config) (turn : Turn) : Option (Text × Option Text) :=
  if turn.outcome.toOption = some Status.ok then
    match asked? config turn.argv with
    | some (.setPolicy p name) => some (p.path, some name)
    | some (.unsetPolicy p) => some (p.path, none)
    | _ => none
  else none

/-- What the last change of a path left it, if there was one. -/
def lastChange? (config : Config) (made : List Turn) (path : Text) : Option (Option Text) :=
  ((made.filterMap (Turn.change? config)).reverse.find? fun change => change.1 = path).map Prod.snd

/-- What a path carries of its own after runs: what the last change of the path
left it, or what it carried at the start. -/
def explicit? (config : Config) (s : State) (made : List Turn) (path : Text) : Option Text :=
  (lastChange? config made path).getD (s.assignments.get? path)

/-! ### One run -/

variable {now : Text} {argv : List Text} {s : State} {outcome : Except Failure Int}
variable {t : Session State} {turn : Turn}

theorem change?_of_asks {command : Command} (ho : turn.outcome = .ok Status.ok)
    (ha : Asks config turn.argv command) :
    turn.change? config =
      match command with
      | .setPolicy p name => some (p.path, some name)
      | .unsetPolicy p => some (p.path, none)
      | _ => none := by
  rw [Turn.change?, if_pos (toOption_eq_some.2 ho), asked?_eq_some.2 ha]
  cases command <;> rfl

/-- A run without a successful change is none that counts. -/
theorem change?_eq_none (h : ∀ call : Call, call.IsChange → Asks config turn.argv call.command →
    turn.outcome ≠ .ok Status.ok) : turn.change? config = none := by
  unfold Turn.change?
  split
  · next ho =>
    have ho := toOption_eq_some.1 ho
    split
    · next p name ha => exact absurd ho (h (.set p name) trivial (asked?_eq_some.1 ha))
    · next p ha => exact absurd ho (h (.unset p) trivial (asked?_eq_some.1 ha))
    · rfl
  · rfl

/-- A single run leaves the path that it changes what it says, and the others as they are. -/
theorem explicit?_singleton (s : State) (turn : Turn) (path : Text) :
    explicit? config s [turn] path =
      match turn.change? config with
      | some change => if change.1 = path then change.2 else s.assignments.get? path
      | none => s.assignments.get? path := by
  unfold explicit? lastChange?
  rcases e : turn.change? config with - | change
  · simp [e]
  · by_cases h : change.1 = path <;> simp [e, h]

/-- **One run leaves each path what its change says.** -/
theorem get?_after_turn (h : Course (connected config now) config s argv outcome t) (path : Text) :
    t.world.assignments.get? path = explicit? config s [⟨argv, outcome, t⟩] path := by
  rw [explicit?_singleton]
  rcases world_of_course h with ⟨call, hchange, ha, ho, ⟨result, hr⟩, hw⟩ | ⟨hw, hne⟩
  · have hc : Turn.change? config ⟨argv, outcome, t⟩ = _ := change?_of_asks ho ha
    rw [hw, hc]
    -- a change that succeeded is an insertion or an erasure at its path
    cases call with
    | set p name =>
      rw [Backend.perform_set] at hr ⊢
      rcases e : s.setPolicy p name with f | u
      · rw [e] at hr
        cases hr
      · obtain ⟨-, -, rfl⟩ := State.setPolicy_eq_ok.1 e
        exact OrderedMap.get?_insert s.assignments path p.path name
    | unset p =>
      rw [Backend.perform_unset] at hr ⊢
      rcases e : s.unsetPolicy p with f | u
      · rw [e] at hr
        cases hr
      · obtain ⟨-, -, rfl⟩ := State.unsetPolicy_eq_ok.1 e
        exact OrderedMap.get?_erase s.assignments path p.path
    | list => cases hchange
    | get p => cases hchange
  · -- a run that leaves the state as it is counts for no path
    rw [hw, change?_eq_none hne]

/-! ### All runs -/

/-- The changes of later runs come before those of the first. -/
theorem lastChange?_cons (turn : Turn) (made : List Turn) (path : Text) :
    lastChange? config (turn :: made) path =
      (lastChange? config made path).or (lastChange? config [turn] path) := by
  unfold lastChange?
  rw [← List.singleton_append, List.filterMap_append, List.reverse_append, List.find?_append,
    Option.map_or]

/-- The first of several runs may be taken for the start of the others. -/
theorem explicit?_cons {u : State} {turn : Turn} {path : Text}
    (h : u.assignments.get? path = explicit? config s [turn] path) (made : List Turn) :
    explicit? config s (turn :: made) path = explicit? config u made path := by
  unfold explicit? at h ⊢
  rw [lastChange?_cons]
  cases lastChange? config made path with
  | none => exact h.symm
  | some change => rfl

/-- **After any runs each path carries what they say.**  Every run starts from a
state in which this holds of the runs before it. -/
theorem get?_after_turns {rounds : List (Text × List Text)} {earlier later : List Turn}
    (ht : turns config s rounds = earlier ++ turn :: later) :
    ∃ u now, (∀ path, u.assignments.get? path = explicit? config s earlier path) ∧
      Course (connected config now) config u turn.argv turn.outcome turn.traces := by
  -- the start is general: the later runs start from what the first one leaves
  induction earlier generalizing s rounds with
  | nil =>
    rcases rounds with - | ⟨⟨now, argv⟩, r⟩
    · cases ht
    · cases ht
      exact ⟨s, now, fun _ => rfl, course (connected config now) config s argv⟩
  | cons first earlier ih =>
    rcases rounds with - | ⟨⟨now, argv⟩, r⟩
    · cases ht
    · have hfirst := course (connected config now) config s argv
      rw [turns, List.cons_append, List.cons_eq_cons] at ht
      obtain ⟨rfl, ht⟩ := ht
      obtain ⟨u, now', hu, hc⟩ := ih ht
      refine ⟨u, now', fun path => ?_, hc⟩
      rw [hu, explicit?_cons (get?_after_turn hfirst path)]

/-- A place that is asked for has a canonical path. -/
theorem canonical_of_asks {call : Call} {p : NamespacePath} (ha : Asks config argv call.command)
    (hp : call.place? = some p) : NamespacePath.Canonical p.path := by
  obtain ⟨name, args, d, rfl, hn, hparse⟩ := ha
  obtain ⟨n, -, rfl⟩ := Command.eq_spec_of_resolve hn
  obtain ⟨raw, -, hraw⟩ := Command.pathText_of_call hparse hp
  exact NamespacePath.canonical_of_parse hraw

open NamespacePath in
/-- **A question that succeeds is answered with the policy in effect.**  It is the
one that the nearest path up to the root carries of its own after the runs that
came before, on one line; without any, the answer says that it is unspecified. -/
theorem policy_in_effect (config : Config) (s : State) (rounds : List (Text × List Text))
    (earlier later : List Turn) (turn : Turn) (q : NamespacePath)
    (ht : turns config s rounds = earlier ++ turn :: later)
    (ha : Asks config turn.argv (.getPolicy q)) (ho : turn.outcome = .ok Status.ok) :
    (∃ node name, Above node q.path ∧ explicit? config s earlier node = some name ∧
      (∀ other, Above other q.path → explicit? config s earlier other ≠ none →
        other.length ≤ node.length) ∧
      turn.traces.out = name ++ [.char '\n']) ∨
    ((∀ node, Above node q.path → explicit? config s earlier node = none) ∧
      turn.traces.out =
        "The erasure coding policy of ".text ++ q.render ++ " is unspecified".text ++
          [.char '\n']) := by
  obtain ⟨u, now, hu, hc⟩ := get?_after_turns ht
  rw [ho] at hc
  have hout := answer_of_get hc ha
  have hget : Asks config turn.argv (Call.get q).command := ha
  have hcanonical : Canonical q.path := canonical_of_asks hget rfl
  -- the answer is what the state before the run gives, and the earlier runs tell that state
  rcases e : u.inheritedName? q with - | name
  · right
    refine ⟨fun node hn => ?_, ?_⟩
    · rw [← hu]
      exact State.none_of_inheritedName? hcanonical e hn
    · rw [hout, e]
      simp [Command.Answer.unspecified, said]
  · left
    obtain ⟨node, habove, hcarried, hlongest⟩ := State.nearest_of_inheritedName? hcanonical e
    refine ⟨node, name, habove, ?_, fun other h hne => ?_, ?_⟩
    · rw [← hu, hcarried]
    · rw [← hu] at hne
      exact hlongest other h hne
    · rw [hout, e]
      rfl

open NamespacePath in
/-- A policy that was set on a path is told below it. -/
theorem policy_in_effect_after_setPolicy :
    let config : Config :=
      { defaultFs := Config.defaultFileSystem, stateFile := {}, workingDir := "/a".text,
        logFile := none }
    let rounds : List (Text × List Text) :=
      [([], ["-setPolicy".text, "-path".text, "/a".text, "-policy".text,
          "XOR-2-1-1024k".text]),
        ([], ["-getPolicy".text, "-path".text, "b".text])]
    ∃ earlier turn, turns config {} rounds = earlier ++ [turn] ∧
      ∃ node name, Above node "/a/b".text ∧ explicit? config {} earlier node = some name ∧
        (∀ other, Above other "/a/b".text → explicit? config {} earlier other ≠ none →
          other.length ≤ node.length) ∧
        turn.traces.out = name ++ [.char '\n'] := by
  intro config rounds
  refine ⟨[_], _, rfl, ?_⟩
  rcases policy_in_effect config {} rounds [_] [] _ ⟨"/a/b".text, [], []⟩ rfl
    ⟨_, _, _, rfl, rfl, rfl⟩ rfl with h | ⟨hnone, -⟩
  · exact h
  · exact absurd (hnone "/a".text (.inr (.inr ⟨by decide, by decide⟩))) (by decide)

end CodingPolicy.Dispatch
