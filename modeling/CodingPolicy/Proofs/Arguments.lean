/-
CodingPolicy/Proofs/Arguments.lean

From arguments to commands.  What the options of a registered command come
to decides everything: a command on a path has a path text (`PathText`), and
then only the reading of that text can still go wrong (`parse_of_pathText`);
without one the arguments are misused, an option lacks its value, or the
command needs no path (`parse_of_no_pathText`).
-/
import CodingPolicy.Proofs.Call
import CodingPolicy.Proofs.Outcome

namespace CodingPolicy

/-! ### Options -/

namespace Options

/-- A failure of the options is a misuse or an option without its value. -/
def OwnFailure (f : Failure) : Prop :=
  (∃ cause, f = .usage cause) ∨ ∃ cause, f = .invalidArgument cause

theorem ownFailure_of_takeValue {name : Text} {args : List Text} {f : Failure}
    (h : takeValue name args = .error f) : OwnFailure f := by
  fun_induction takeValue name args with
  | case1 => cases h
  | case2 => cases h
  | case3 =>
    -- the option stands at the end, where its value should be
    cases h
    exact .inr ⟨_, rfl⟩
  | case4 => cases h
  | case5 => cases h
  | case6 a r _ _ f' hf ih =>
    cases h
    exact ih hf

theorem ownFailure_of_takeOption {o : OptionSpec} {args : List Text} {f : Failure}
    (h : takeOption o args = .error f) : OwnFailure f := by
  unfold takeOption at h
  split at h
  · rcases e : takeValue o.name args with f' | ⟨_ | value, rest⟩ <;> simp only [e] at h
    · cases h
      exact ownFailure_of_takeValue e
    · split at h <;> cases h
      exact .inl ⟨_, rfl⟩
    · cases h
  · rcases e : takeFlag o.name args with ⟨_ | _, rest⟩ <;> simp only [e] at h
    · split at h <;> cases h
      exact .inl ⟨_, rfl⟩
    · cases h

theorem ownFailure_of_takeAll {values : OrderedMap Text OptionValue} {specs : List OptionSpec}
    {args : List Text} {f : Failure} (h : takeAll values specs args = .error f) :
    OwnFailure f := by
  induction specs generalizing values args with
  | nil => cases h
  | cons o specs ih =>
    rw [takeAll] at h
    rcases e : takeOption o args with f' | ⟨value, rest⟩ <;> simp only [e] at h
    · cases h
      exact ownFailure_of_takeOption e
    · exact ih h

theorem ownFailure_of_parse {specs : List OptionSpec} {args : List Text} {f : Failure}
    (h : parse specs args = .error f) : OwnFailure f := by
  unfold parse at h
  rcases e : takeAll .empty specs args with f' | ⟨values, _ | ⟨a, rest⟩⟩ <;> simp only [e] at h
  · cases h
    exact ownFailure_of_takeAll e
  · cases h
  · cases h
    exact .inl ⟨_, rfl⟩

/-- A required option that takes a value is found with one. -/
theorem takeOption_required {o : OptionSpec} (hv : o.takesValue = true) (hr : o.required = true)
    {args rest : List Text} {value : OptionValue} (h : takeOption o args = .ok (value, rest)) :
    ∃ t, value = .text t := by
  rw [takeOption, if_pos hv] at h
  rcases e : takeValue o.name args with f | ⟨_ | t, rest'⟩ <;> simp only [e] at h
  · cases h
  · rw [if_pos hr] at h
    cases h
  · cases h
    exact ⟨t, rfl⟩

/-- The values found before are kept where no option of their name follows. -/
theorem get?_of_takeAll {values values' : OrderedMap Text OptionValue} {specs : List OptionSpec}
    {args rest : List Text} {name : Text} (h : takeAll values specs args = .ok (values', rest))
    (hn : name ∉ specs.map OptionSpec.name) : values'.get? name = values.get? name := by
  induction specs generalizing values args with
  | nil =>
    cases h
    rfl
  | cons o specs ih =>
    rw [List.map_cons, List.mem_cons, not_or] at hn
    rw [takeAll] at h
    rcases e : takeOption o args with f | ⟨value, rest'⟩ <;> simp only [e] at h
    · cases h
    · rw [ih h hn.2, OrderedMap.get?_insert, if_neg (Ne.symm hn.1)]

/-- **Every required option that takes a value has one in the end.** -/
theorem text_of_takeAll {values values' : OrderedMap Text OptionValue} {specs : List OptionSpec}
    {args rest : List Text} (h : takeAll values specs args = .ok (values', rest))
    (hd : (specs.map OptionSpec.name).Nodup) {o : OptionSpec} (ho : o ∈ specs)
    (hv : o.takesValue = true) (hr : o.required = true) :
    ∃ t, values'.get? o.name = some (.text t) := by
  induction specs generalizing values args with
  | nil => cases ho
  | cons o' specs ih =>
    rw [List.map_cons, List.nodup_cons] at hd
    rw [takeAll] at h
    rcases e : takeOption o' args with f | ⟨value, rest'⟩ <;> simp only [e] at h
    · cases h
    · rcases List.mem_cons.1 ho with rfl | ho
      · -- the options behind it have other names, so its value stays
        obtain ⟨t, rfl⟩ := takeOption_required hv hr e
        exact ⟨t, by rw [get?_of_takeAll h hd.1, OrderedMap.get?_insert, if_pos rfl]⟩
      · exact ih h hd.2 ho

/-- The values of options that were read are those that were found. -/
theorem takeAll_of_parse {specs : List OptionSpec} {args : List Text}
    {values : OrderedMap Text OptionValue} (h : parse specs args = .ok values) :
    takeAll .empty specs args = .ok (values, []) := by
  unfold parse at h
  rcases e : takeAll .empty specs args with f | ⟨values', _ | ⟨a, rest⟩⟩ <;> simp only [e] at h <;>
    cases h
  rfl

end Options

/-! ### Commands -/

namespace Command

/-- No description and no arguments make a command that cannot be carried out. -/
theorem parse_ne_unspecified (d : Spec) (args : List Text) (workingDir : Text) :
    parse d args workingDir ≠ .ok .unspecified := by
  intro h
  unfold parse at h
  split at h
  · unfold parseHelp at h
    split at h <;> cases h
  · obtain ⟨values, -, h⟩ := bind_eq_ok.1 h
    split at h
    · cases h
    · obtain ⟨p, -, h⟩ := bind_eq_ok.1 h
      cases h
    · obtain ⟨p, -, h⟩ := bind_eq_ok.1 h
      obtain ⟨name, -, h⟩ := bind_eq_ok.1 h
      cases h
    · obtain ⟨p, -, h⟩ := bind_eq_ok.1 h
      cases h
    · cases h

/-- Every command that can be made from arguments asks for help or makes one call. -/
theorem help_or_call {d : Spec} {args : List Text} {workingDir : Text} {command : Command}
    (h : parse d args workingDir = .ok command) :
    (∃ topic, command = .help topic) ∨ ∃ call : Call, command = call.command := by
  cases command with
  | listPolicies => exact .inr ⟨.list, rfl⟩
  | getPolicy p => exact .inr ⟨.get p, rfl⟩
  | setPolicy p name => exact .inr ⟨.set p name, rfl⟩
  | unsetPolicy p => exact .inr ⟨.unset p, rfl⟩
  | help topic => exact .inl ⟨topic, rfl⟩
  | unspecified => exact absurd h (parse_ne_unspecified d args workingDir)

/-- The command that is found under a name is a registered one of that name. -/
theorem eq_spec_of_resolve {name : Text} {d : Spec} (h : resolve name = .ok d) :
    ∃ n : Name, name = n.text ∧ d = spec n := by
  unfold resolve at h
  split at h
  · next d' hd =>
    cases h
    obtain ⟨n, -, hn⟩ := List.mem_map.1 (List.mem_of_find?_eq_some hd)
    have hname := List.find?_some hd
    subst hn
    refine ⟨n, ?_, rfl⟩
    have : (spec n).name = n.text := by cases n <;> rfl
    rw [← this]
    exact (of_decide_eq_true hname).symm
  · cases h

/-! The meaning of each registered command, by its own description. -/

theorem parse_listPolicies (args : List Text) (workingDir : Text) :
    parse (spec .listPolicies) args workingDir =
      Options.parse [] args >>= fun _ => .ok .listPolicies := rfl

theorem parse_getPolicy (args : List Text) (workingDir : Text) :
    parse (spec .getPolicy) args workingDir =
      Options.parse (spec .getPolicy).options args >>= fun values =>
        optionPath values workingDir >>= fun p => .ok (.getPolicy p) := rfl

theorem parse_setPolicy (args : List Text) (workingDir : Text) :
    parse (spec .setPolicy) args workingDir =
      Options.parse (spec .setPolicy).options args >>= fun values =>
        optionPath values workingDir >>= fun p =>
          optionText values "-policy" >>= fun name => .ok (.setPolicy p name) := rfl

theorem parse_unsetPolicy (args : List Text) (workingDir : Text) :
    parse (spec .unsetPolicy) args workingDir =
      Options.parse (spec .unsetPolicy).options args >>= fun values =>
        optionPath values workingDir >>= fun p => .ok (.unsetPolicy p) := rfl

theorem parse_help (args : List Text) (workingDir : Text) :
    parse (spec .help) args workingDir = parseHelp args := rfl

/-- The name of the command that makes a call. -/
def nameOf : Call → Name
  | .list => .listPolicies
  | .get _ => .getPolicy
  | .set _ _ => .setPolicy
  | .unset _ => .unsetPolicy

/-- A required option with a value that is read has a text. -/
theorem exists_text {specs : List OptionSpec} {args : List Text}
    {values : OrderedMap Text OptionValue} (h : Options.parse specs args = .ok values)
    (hd : (specs.map OptionSpec.name).Nodup) {o : OptionSpec} (ho : o ∈ specs)
    (hv : o.takesValue = true) (hr : o.required = true) :
    ∃ t, values.get? o.name = some (.text t) :=
  Options.text_of_takeAll (Options.takeAll_of_parse h) hd ho hv hr

/-! ### The text of a path -/

/-- The arguments give this text on the option of the path. -/
def PathText (d : Spec) (args : List Text) (raw : Text) : Prop :=
  ∃ values, Options.parse d.options args = .ok values ∧
    values.get? "-path".text = some (.text raw)

/-- A command without options is given no path. -/
theorem not_pathText {d : Spec} (hd : d.options = []) (args : List Text) (raw : Text) :
    ¬ PathText d args raw := by
  rintro ⟨values, hv, hg⟩
  rw [hd] at hv
  cases Options.takeAll_of_parse hv
  cases hg

theorem optionPath_of_text {values : OrderedMap Text OptionValue} {raw : Text}
    (h : values.get? "-path".text = some (.text raw)) (workingDir : Text) :
    optionPath values workingDir = NamespacePath.parse workingDir raw := by
  simp only [optionPath, optionText, h]
  rfl

/-- **Given the text of a path, only the reading of that text can still fail.** -/
theorem parse_of_pathText {n : Name} {args : List Text} {raw : Text}
    (h : PathText (spec n) args raw) (workingDir : Text) :
    (∀ f, NamespacePath.parse workingDir raw = .error f →
      parse (spec n) args workingDir = .error f) ∧
    (∀ p, NamespacePath.parse workingDir raw = .ok p →
      ∃ call : Call, call.place? = some p ∧
        parse (spec n) args workingDir = .ok call.command) := by
  obtain ⟨values, hv, hg⟩ := id h
  have hp := optionPath_of_text hg workingDir
  cases n with
  | listPolicies => exact absurd h (not_pathText rfl args raw)
  | help => exact absurd h (not_pathText rfl args raw)
  | getPolicy =>
    rw [parse_getPolicy, hv, ok_bind, hp]
    refine ⟨fun f hf => ?_, fun p hq => ⟨.get p, rfl, ?_⟩⟩
    · rw [hf, error_bind]
    · rw [hq, ok_bind, Call.command]
  | setPolicy =>
    -- the name of the policy is there as well, since its option is required
    obtain ⟨name, hn⟩ := exists_text hv (o := { name := "-policy".text, hint := _ })
      (by decide) (.tail _ (.head _)) rfl rfl
    have ho : optionText values "-policy" = .ok name := by
      simp only [optionText, hn]
      rfl
    rw [parse_setPolicy, hv, ok_bind, hp]
    refine ⟨fun f hf => ?_, fun p hq => ⟨.set p name, rfl, ?_⟩⟩
    · rw [hf, error_bind]
    · rw [hq, ok_bind, ho, ok_bind, Call.command]
  | unsetPolicy =>
    rw [parse_unsetPolicy, hv, ok_bind, hp]
    refine ⟨fun f hf => ?_, fun p hq => ⟨.unset p, rfl, ?_⟩⟩
    · rw [hf, error_bind]
    · rw [hq, ok_bind, Call.command]

/-- A command with a path option is given the text of a path, unless its options fail. -/
theorem pathText_or_failure (d : Spec) (args : List Text) {hint : String}
    (hd : (d.options.map OptionSpec.name).Nodup) (ho : pathOption hint ∈ d.options) :
    (∃ raw, PathText d args raw) ∨
      ∃ f, Options.parse d.options args = .error f ∧ Options.OwnFailure f := by
  rcases hv : Options.parse d.options args with f | values
  · exact .inr ⟨f, rfl, Options.ownFailure_of_parse hv⟩
  · obtain ⟨raw, hr⟩ := exists_text hv hd ho rfl rfl
    exact .inl ⟨raw, values, hv, hr⟩

/-- **Without the text of a path, the arguments are wrong or no path is needed.** -/
theorem parse_of_no_pathText {n : Name} {args : List Text} (h : ∀ raw, ¬ PathText (spec n) args raw)
    (workingDir : Text) :
    (∃ f, parse (spec n) args workingDir = .error f ∧ Options.OwnFailure f) ∨
      (∃ topic, parse (spec n) args workingDir = .ok (.help topic)) ∨
      parse (spec n) args workingDir = .ok .listPolicies := by
  cases n with
  | listPolicies =>
    rw [parse_listPolicies]
    rcases hv : Options.parse [] args with f | values
    · exact .inl ⟨f, rfl, Options.ownFailure_of_parse hv⟩
    · exact .inr (.inr rfl)
  | help =>
    rw [parse_help]
    rcases args with - | ⟨topic, - | ⟨b, r⟩⟩
    · exact .inr (.inl ⟨none, rfl⟩)
    · exact .inr (.inl ⟨some topic, rfl⟩)
    · exact .inl ⟨_, rfl, .inl ⟨_, rfl⟩⟩
  | getPolicy =>
    rcases pathText_or_failure (spec .getPolicy) args (by decide) (.head _) with
      ⟨raw, hr⟩ | ⟨f, hf, ho⟩
    · exact absurd hr (h raw)
    · exact .inl ⟨f, by rw [parse_getPolicy, hf, error_bind], ho⟩
  | setPolicy =>
    rcases pathText_or_failure (spec .setPolicy) args (by decide) (.head _) with
      ⟨raw, hr⟩ | ⟨f, hf, ho⟩
    · exact absurd hr (h raw)
    · exact .inl ⟨f, by rw [parse_setPolicy, hf, error_bind], ho⟩
  | unsetPolicy =>
    rcases pathText_or_failure (spec .unsetPolicy) args (by decide) (.head _) with
      ⟨raw, hr⟩ | ⟨f, hf, ho⟩
    · exact absurd hr (h raw)
    · exact .inl ⟨f, by rw [parse_unsetPolicy, hf, error_bind], ho⟩

/-- What fails in the arguments of a command is their own, or the text of a path. -/
theorem parse_error {n : Name} {args : List Text} {workingDir : Text} {f : Failure}
    (h : parse (spec n) args workingDir = .error f) :
    Options.OwnFailure f ∨
      ∃ raw, PathText (spec n) args raw ∧ NamespacePath.parse workingDir raw = .error f := by
  -- with the text of a path only its reading can fail, without it only the options
  by_cases hraw : ∃ raw, PathText (spec n) args raw
  · obtain ⟨raw, hr⟩ := hraw
    obtain ⟨herror, hok⟩ := parse_of_pathText hr workingDir
    rcases e : NamespacePath.parse workingDir raw with g | p
    · cases h.symm.trans (herror g e)
      exact .inr ⟨raw, hr, e⟩
    · obtain ⟨call, -, hc⟩ := hok p e
      cases h.symm.trans hc
  · rcases parse_of_no_pathText (fun raw hr => hraw ⟨raw, hr⟩) workingDir with
      ⟨g, hg, ho⟩ | ⟨topic, ht⟩ | hl
    · cases h.symm.trans hg
      exact .inl ho
    · cases h.symm.trans ht
    · cases h.symm.trans hl

/-- The place that a call is for is read from the text of the path. -/
theorem pathText_of_call {n : Name} {args : List Text} {workingDir : Text} {call : Call}
    {p : NamespacePath} (h : parse (spec n) args workingDir = .ok call.command)
    (hp : call.place? = some p) :
    ∃ raw, PathText (spec n) args raw ∧ NamespacePath.parse workingDir raw = .ok p := by
  by_cases hraw : ∃ raw, PathText (spec n) args raw
  · obtain ⟨raw, hr⟩ := hraw
    obtain ⟨herror, hok⟩ := parse_of_pathText hr workingDir
    rcases e : NamespacePath.parse workingDir raw with g | q
    · cases h.symm.trans (herror g e)
    · obtain ⟨call', hq, hc⟩ := hok q e
      have : call = call' := Call.command_injective (Except.ok.inj (h.symm.trans hc))
      subst this
      cases hp.symm.trans hq
      exact ⟨raw, hr, e⟩
  · rcases parse_of_no_pathText (fun raw hr => hraw ⟨raw, hr⟩) workingDir with
      ⟨g, hg, -⟩ | ⟨topic, ht⟩ | hl
    · cases h.symm.trans hg
    · have := Except.ok.inj (h.symm.trans ht)
      cases call <;> cases this
    · have : call = .list := Call.command_injective (Except.ok.inj (h.symm.trans hl))
      subst this
      cases hp

end Command

end CodingPolicy
