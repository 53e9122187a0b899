/-
CodingPolicy/Proofs/OptionOrder.lean

Options in any order.  What is chosen for an option is given as a block of
arguments, its name and its value if it takes one.  As long as no value looks like
the name of an option or ends the search (`Options.Choice`), the search for a name
comes to its own block and to no other, whatever the order of the blocks: taken out,
it leaves the blocks of the other options behind (`Options.rebuilt_of_choice`).

Main result: the blocks give the same values in every order, the same command, and
the same run but for the event that quotes the arguments
(`Options.parse_of_choice`).
-/
import Mathlib.Data.List.Forall2
import CodingPolicy.Proofs.Alike
import CodingPolicy.Proofs.Extraction

namespace CodingPolicy

open SessionM

namespace Options

variable {names : List Text} {o : OptionSpec} {specs : List OptionSpec}
variable {v : OptionValue} {found : List OptionValue} {given one other : List (List Text)}

/-! ### Choices -/

/-- What may be chosen for an option, where `names` are those of all options. -/
inductive Choice (names : List Text) (o : OptionSpec) : OptionValue → Prop where
  /-- A value that is no name and does not end the search. -/
  | text {value : Text} (hv : o.takesValue = true) (he : value ≠ terminator)
      (hn : value ∉ names) : Choice names o (.text value)
  /-- A flag is there. -/
  | flag (hv : o.takesValue = false) : Choice names o (.flag true)
  /-- An option that is not required is not there. -/
  | absent (hr : o.required = false) : Choice names o o.unset

/-- What stands in the block of an option is its name, or nothing that a search
stops at. -/
theorem Choice.not_mem (h : Choice names o v) {a : Text} (ha : a ∈ names ∨ a = terminator)
    (hne : a ≠ o.name) : a ∉ (o.block? v).toList.flatten := by
  cases h with
  | @text value hv he hn =>
    have hvalue : a ≠ value := by
      rintro rfl
      exact ha.elim hn he
    simp [OptionSpec.block?, hne, hvalue]
  | flag hv => simp [OptionSpec.block?, hne]
  | absent hr => simp [o.block?_unset]

/-- A search stops at no block of an option with another name. -/
theorem not_mem_blocks (hc : List.Forall₂ (Choice names) specs found) {a : Text}
    (ha : a ∈ names ∨ a = terminator) (hs : a ∉ specs.map OptionSpec.name) :
    a ∉ (blocks specs found).flatten := by
  induction hc with
  | nil => simp [blocks]
  | @cons o v specs found ho _ ih =>
    rw [List.map_cons, List.mem_cons, not_or] at hs
    rw [blocks_cons, List.flatten_append, List.mem_append, not_or]
    exact ⟨ho.not_mem ha hs.1, ih hs.2⟩

/-! ### Blocks in any order -/

/-- A block among others, and the others without it. -/
theorem exists_parted {block : List Text} {others : List (List Text)}
    (h : given.Perm (block :: others)) :
    ∃ before after, given = before ++ block :: after ∧ (before ++ after).Perm others := by
  obtain ⟨before, after, rfl⟩ := List.append_of_mem (h.symm.subset (List.mem_cons_self ..))
  exact ⟨before, after, rfl, (List.perm_middle.symm.trans h).cons_inv⟩

/-- The search for a name goes past blocks that it does not stop at. -/
theorem passes_of_perm {name : Text} {before after others : List (List Text)}
    (h : (before ++ after).Perm others) (hn : name ∉ others.flatten)
    (he : terminator ∉ others.flatten) : Passes name before.flatten := by
  have hsub : before.flatten ⊆ others.flatten := by
    intro a ha
    apply h.flatten.subset
    rw [List.flatten_append]
    exact List.mem_append_left _ ha
  exact ⟨fun hm => hn (hsub hm), fun hm => he (hsub hm)⟩

/-- **Blocks in any order are taken out one after the other until nothing is left.** -/
theorem rebuilt_of_choice (hc : List.Forall₂ (Choice names) specs found)
    (hnames : specs.map OptionSpec.name ⊆ names) (hd : (specs.map OptionSpec.name).Nodup)
    (ht : terminator ∉ specs.map OptionSpec.name) (hp : given.Perm (blocks specs found)) :
    Rebuilt specs found [] given.flatten := by
  induction hc generalizing given with
  | nil =>
    obtain rfl := hp.eq_nil
    exact .nil
  | @cons o v specs found ho hs ih =>
    rw [List.map_cons, List.nodup_cons] at hd
    rw [List.map_cons, List.mem_cons, not_or] at ht
    rw [List.map_cons, List.cons_subset] at hnames
    -- the search for this option stops at no block of the options declared behind
    have hname := not_mem_blocks hs (.inl hnames.1) hd.1
    have hend := not_mem_blocks hs (.inr rfl) ht.2
    rw [blocks_cons] at hp
    cases ho with
    | @text value hv _ _ =>
      obtain ⟨before, after, rfl, hothers⟩ := exists_parted hp
      have hput : PutBack o (.text value) (before.flatten ++ after.flatten)
          (before.flatten ++ o.name :: value :: after.flatten) :=
        .value hv (passes_of_perm hothers hname hend)
      apply Rebuilt.cons (ih hnames.2 hd.2 ht.2 hothers)
      simpa using hput
    | flag hv =>
      obtain ⟨before, after, rfl, hothers⟩ := exists_parted hp
      have hput : PutBack o (.flag true) (before.flatten ++ after.flatten)
          (before.flatten ++ o.name :: after.flatten) :=
        .flag hv (passes_of_perm hothers hname hend)
      apply Rebuilt.cons (ih hnames.2 hd.2 ht.2 hothers)
      simpa using hput
    | absent hr =>
      rw [o.block?_unset] at hp
      apply Rebuilt.cons (ih hnames.2 hd.2 ht.2 hp)
      apply PutBack.absent hr
      intro hm
      exact hname (hp.flatten.subset (List.takeWhile_subset _ hm))

/-! ### What the options are for -/

end Options

/-- Of arguments for help only their number and the single one count. -/
theorem Command.parseHelp_of_perm {args args' : List Text} (h : args.Perm args') :
    parseHelp args = parseHelp args' := by
  rcases args with - | ⟨a, - | ⟨b, r⟩⟩
  · rw [h.nil_eq]
  · rw [List.perm_singleton.1 h.symm]
  · -- there are too many in both
    have hl := h.length_eq
    rcases args' with - | ⟨a', - | ⟨b', r'⟩⟩
    · simp at hl
    · simp at hl
    · rfl

/-- Arguments that give the same values make the same command. -/
theorem Command.parse_of_perm {d : Command.Spec} {args args' : List Text} (h : args.Perm args')
    (hv : Options.parse d.options args = Options.parse d.options args') (workingDir : Text) :
    parse d args workingDir = parse d args' workingDir := by
  rw [parse, parse, parseHelp_of_perm h, hv]

namespace Options

variable {names : List Text} {specs : List OptionSpec} {found : List OptionValue}
variable {one other : List (List Text)}

/-- **Options may be given in any order.**  The blocks of what was chosen give just
that, in the order of the declarations.  In every order they make the same command,
which does the same; and a whole run comes to the same, with the same traces but for
the event that quotes the arguments. -/
theorem parse_of_choice (hd : (specs.map OptionSpec.name).Nodup)
    (ht : terminator ∉ specs.map OptionSpec.name)
    (hc : List.Forall₂ (Choice (specs.map OptionSpec.name)) specs found)
    (hone : one.Perm (blocks specs found)) (hother : other.Perm (blocks specs found)) :
    (∃ values, parse specs one.flatten = .ok values ∧
        values.entries = (specs.map OptionSpec.name).zip found) ∧
      (∀ d : Command.Spec, d.options = specs →
        (∀ workingDir,
          Command.parse d one.flatten workingDir = Command.parse d other.flatten workingDir) ∧
        ∀ (σ : Type) (c : Setting σ) (config : Config),
          Command.run c config d one.flatten = Command.run c config d other.flatten) ∧
      ∀ (σ : Type) (c : Setting σ) (Same : σ → σ → Prop) (config : Config) (w : σ) (name : Text),
        c.LogApart Same → Same w w →
        (∀ d, Command.resolve name = .ok d → d.options = specs) →
        (exec (Dispatch.run c config (name :: one.flatten)) (Dispatch.fresh w)).1 =
            (exec (Dispatch.run c config (name :: other.flatten)) (Dispatch.fresh w)).1 ∧
          (exec (Dispatch.run c config (name :: one.flatten)) (Dispatch.fresh w)).2.Alike Same
            (exec (Dispatch.run c config (name :: other.flatten)) (Dispatch.fresh w)).2 := by
  have hvalues {given : List (List Text)} (hp : given.Perm (blocks specs found)) :
      parse specs given.flatten =
        .ok (OrderedMap.empty.insertAll ((specs.map OptionSpec.name).zip found)) := by
    rw [parse, takeAll_of_rebuilt ht (rebuilt_of_choice hc (List.Subset.refl _) hd ht hp)]
  have hcommand (d : Command.Spec) (ho : d.options = specs) (workingDir : Text) :
      Command.parse d one.flatten workingDir = Command.parse d other.flatten workingDir := by
    apply Command.parse_of_perm (hone.trans hother.symm).flatten
    rw [ho, hvalues hone, hvalues hother]
  refine ⟨⟨_, hvalues hone, entries_insertAll hd hc.length_eq.symm⟩, ?_, ?_⟩
  · intro d ho
    refine ⟨hcommand d ho, fun σ c config => ?_⟩
    rw [Command.run, Command.run, hcommand d ho]
  · intro σ c Same config w name hapart hsame hresolve
    exact Dispatch.exec_run_alike hapart config hsame fun d hd => hcommand d (hresolve d hd) _

/-- A policy is set with the name of the policy in front of the path. -/
theorem parse_of_choice_reversed :
    let specs := (Command.spec .setPolicy).options
    let found := [.text "/a".text, .text "XOR-2-1-1024k".text]
    let one := blocks specs found
    let other := [["-policy".text, "XOR-2-1-1024k".text], ["-path".text, "/a".text]]
    let c : Setting State := .inMemory (fun _ => .ok ()) []
    let config : Config :=
      { defaultFs := Config.defaultFileSystem, stateFile := {}, workingDir := [.char '/'],
        logFile := none }
    let run (blocks : List (List Text)) :=
      exec (Dispatch.run c config ("-setPolicy".text :: blocks.flatten)) (Dispatch.fresh {})
    (specs.map OptionSpec.name).Nodup ∧ terminator ∉ specs.map OptionSpec.name ∧
      List.Forall₂ (Choice (specs.map OptionSpec.name)) specs found ∧
      one.Perm (blocks specs found) ∧ other.Perm (blocks specs found) ∧
      c.LogApart (· = ·) ∧
      (∀ d, Command.resolve "-setPolicy".text = .ok d → d.options = specs) ∧
      (∃ values, parse specs one.flatten = .ok values ∧
        values.entries = (specs.map OptionSpec.name).zip found) ∧
      (run one).1 = (run other).1 ∧ (run one).2.Alike (· = ·) (run other).2 := by
  intro specs found one other c config run
  have hd : (specs.map OptionSpec.name).Nodup := by decide
  have ht : terminator ∉ specs.map OptionSpec.name := by decide
  have hc : List.Forall₂ (Choice (specs.map OptionSpec.name)) specs found :=
    .cons (.text rfl (by decide) (by decide)) (.cons (.text rfl (by decide) (by decide)) .nil)
  have hother : other.Perm (blocks specs found) := .swap _ _ []
  have hresolve : ∀ d, Command.resolve "-setPolicy".text = .ok d → d.options = specs := by
    intro d hd
    cases hd
    rfl
  have hapart := Setting.logApart_inMemory (fun _ => .ok ()) []
  obtain ⟨hvalues, -, hrun⟩ := parse_of_choice hd ht hc (.refl _) hother
  exact ⟨hd, ht, hc, .refl _, hother, hapart, hresolve, hvalues,
    hrun State c (· = ·) config {} _ hapart rfl hresolve⟩

end Options

end CodingPolicy
