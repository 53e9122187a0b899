/-
CodingPolicy/Proofs/Independence.lean

Changes at different places do not disturb each other.  What a change comes to
at a place depends on the known policies, on the files and on the policy that the
place itself carries (`State.AgreeAt`), never on what the places above or below
carry.  A change at a path therefore does the same to two states that agree there
(`Backend.perform_of_agreeAt`), and a change at another path leaves what counts at
the path as it is (`Backend.agreeAt_perform`).  So the calls at one path go as if
no others were made (`Backend.visits_filter`).

Main result: changes may be made in any order that keeps the order at each path
(`Backend.visits_of_rearranged`).
-/
import CodingPolicy.Proofs.Record
import CodingPolicy.Proofs.Validity

namespace CodingPolicy

variable {path : Text}

/-! ### Calls at a path -/

/-- The call is made at a place with the path. -/
def Call.isAt (path : Text) (call : Call) : Bool :=
  call.place?.map NamespacePath.path = some path

/-- A change is made at the path of its place. -/
theorem Call.isAt_iff {call : Call} {p : NamespacePath} (h : call.place? = some p) :
    call.isAt path = true ↔ p.path = path := by
  simp [isAt, h]

/-- The same calls in another order, in which the calls at each path keep theirs. -/
structure Rearranged (one other : List Call) : Prop where
  /-- The calls are the same. -/
  perm : one.Perm other
  /-- At each path they come in the same order. -/
  order : ∀ path, one.filter (Call.isAt path) = other.filter (Call.isAt path)

/-- Two calls that follow one another at different paths may change places. -/
theorem Rearranged.swap {first second : Call} (before after : List Call)
    (h : ∀ path, first.isAt path = true → second.isAt path = false) :
    Rearranged (before ++ first :: second :: after) (before ++ second :: first :: after) where
  perm := (List.Perm.swap second first after).append_left before
  order path := by
    rw [List.filter_append, List.filter_append]
    refine congrArg _ ?_
    cases hf : first.isAt path with
    | true =>
      have hs := h path hf
      simp [hf, hs]
    | false => simp [List.filter_cons, hf]

/-! ### What counts at a path -/

namespace State

variable {s t : State}

/-- The states do not differ in what counts for changes at the path. -/
structure AgreeAt (path : Text) (s t : State) : Prop where
  /-- The known policies are the same. -/
  policies : s.policies = t.policies
  /-- The files are the same. -/
  files : s.files = t.files
  /-- The path carries the same policy of its own, or none. -/
  own : s.assignments.get? path = t.assignments.get? path

theorem AgreeAt.refl (path : Text) (s : State) : AgreeAt path s s := ⟨rfl, rfl, rfl⟩

theorem AgreeAt.symm (h : AgreeAt path s t) : AgreeAt path t s :=
  ⟨h.policies.symm, h.files.symm, h.own.symm⟩

theorem AgreeAt.trans {u : State} (h : AgreeAt path s t) (h' : AgreeAt path t u) :
    AgreeAt path s u :=
  ⟨h.policies.trans h'.policies, h.files.trans h'.files, h.own.trans h'.own⟩

/-- A policy that is known to the one is known to the other. -/
theorem AgreeAt.findPolicy? (h : AgreeAt path s t) (name : Text) :
    s.findPolicy? name = t.findPolicy? name := by
  simp only [State.findPolicy?, known, h.policies]

/-- States that agree at every path tell the same policies in effect. -/
theorem effectivePolicy_of_agreeAt (h : ∀ path, AgreeAt path s t) (q : NamespacePath) :
    s.effectivePolicy q = t.effectivePolicy q := by
  have hname : s.inheritedName? q = t.inheritedName? q := by
    have hget : (fun p : NamespacePath => s.assignments.get? p.path) =
        fun p => t.assignments.get? p.path := by
      funext p
      exact (h p.path).own
    rw [inheritedName?, inheritedName?, hget]
  have hfind (name : Text) : s.findPolicy? name = t.findPolicy? name := (h q.path).findPolicy? name
  simp only [effectivePolicy, hname, hfind]

end State

/-! ### One change -/

namespace Backend

open State

variable {s t : State} {call : Call}

/-- **A change at a path does the same to states that agree there**: it comes to the
same, and afterwards they agree again. -/
theorem perform_of_agreeAt (hc : call.IsChange) (hat : call.isAt path = true)
    (h : AgreeAt path s t) :
    (inMemory.perform call s).outcome = (inMemory.perform call t).outcome ∧
      AgreeAt path (inMemory.perform call s).world (inMemory.perform call t).world := by
  cases call with
  | list => exact hc.elim
  | get p => exact hc.elim
  | set p name =>
    obtain rfl := (Call.isAt_iff rfl).1 hat
    have hnames : s.policyNames = t.policyNames := by simp only [policyNames, known, h.policies]
    rw [perform_set, perform_set, State.setPolicy, State.setPolicy, h.findPolicy? name, hnames,
      h.files]
    rcases t.findPolicy? name with - | policy
    · exact ⟨rfl, h⟩
    · by_cases hf : p.path ∈ t.files
      · simp only [if_pos hf]
        exact ⟨rfl, h⟩
      · simp only [if_neg hf]
        refine ⟨rfl, h.policies, rfl, ?_⟩
        show (s.assignments.insert _ _).get? _ = (t.assignments.insert _ _).get? _
        rw [OrderedMap.get?_insert, OrderedMap.get?_insert, if_pos rfl, if_pos rfl]
  | unset p =>
    obtain rfl := (Call.isAt_iff rfl).1 hat
    rw [perform_unset, perform_unset, State.unsetPolicy, State.unsetPolicy, h.files, h.own]
    by_cases hf : p.path ∈ t.files
    · simp only [if_pos hf]
      exact ⟨rfl, h⟩
    · simp only [if_neg hf]
      rcases t.assignments.get? p.path with - | name
      · exact ⟨rfl, h⟩
      · refine ⟨rfl, h.policies, rfl, ?_⟩
        show (s.assignments.erase _).get? _ = (t.assignments.erase _).get? _
        rw [OrderedMap.get?_erase, OrderedMap.get?_erase, if_pos rfl, if_pos rfl]

/-- **A change at another path leaves what counts at the path.** -/
theorem agreeAt_perform (hat : call.isAt path = false) (s : State) :
    AgreeAt path s (inMemory.perform call s).world := by
  have hne (p : NamespacePath) (hp : call.place? = some p) : p.path ≠ path := fun he => by
    rw [(Call.isAt_iff hp).2 he] at hat
    cases hat
  cases call with
  | list => exact .refl path s
  | get p => exact .refl path s
  | set p name =>
    rw [perform_set]
    rcases e : s.setPolicy p name with f | t
    · exact .refl path s
    · obtain ⟨-, -, rfl⟩ := setPolicy_eq_ok.1 e
      refine ⟨rfl, rfl, ?_⟩
      show _ = (s.assignments.insert _ _).get? _
      rw [OrderedMap.get?_insert, if_neg (hne p rfl)]
  | unset p =>
    rw [perform_unset]
    rcases e : s.unsetPolicy p with f | t
    · exact .refl path s
    · obtain ⟨-, -, rfl⟩ := unsetPolicy_eq_ok.1 e
      refine ⟨rfl, rfl, ?_⟩
      show _ = (s.assignments.erase _).get? _
      rw [OrderedMap.get?_erase, if_neg (hne p rfl)]

/-! ### Runs of changes -/

/-- The calls with what they came to, made one after the other on one service. -/
def visits {σ : Type} (b : Backend σ) : List Call → σ → List Visit
  | [], _ => []
  | call :: r, w => ⟨call, (b.perform call w).outcome⟩ :: b.visits r (b.perform call w).world

variable {calls one other : List Call}

/-- **The changes at a path come to what they come to without the others**, on a
state that agrees there. -/
theorem visits_filter (hall : ∀ call ∈ calls, call.IsChange) (h : AgreeAt path s t) :
    (inMemory.visits calls s).filter (fun visit => visit.call.isAt path) =
      inMemory.visits (calls.filter (Call.isAt path)) t := by
  induction calls generalizing s t with
  | nil => rfl
  | cons call calls ih =>
    obtain ⟨hcall, hall⟩ := List.forall_mem_cons.1 hall
    rw [visits]
    cases hat : call.isAt path with
    | true =>
      obtain ⟨houtcome, hworld⟩ := perform_of_agreeAt hcall hat h
      rw [List.filter_cons_of_pos (by exact hat), List.filter_cons_of_pos hat, visits, houtcome,
        ih hall hworld]
    | false =>
      -- a change elsewhere is left out, and what counts at the path is as before
      have hworld : AgreeAt path (inMemory.perform call s).world t :=
        (agreeAt_perform hat s).symm.trans h
      rw [List.filter_cons_of_neg (by simp [hat]), List.filter_cons_of_neg (by simp [hat]),
        ih hall hworld]

/-- **The changes at a path leave there what they leave without the others.** -/
theorem agreeAt_after (hall : ∀ call ∈ calls, call.IsChange) (h : AgreeAt path s t) :
    AgreeAt path (inMemory.after calls s) (inMemory.after (calls.filter (Call.isAt path)) t) := by
  induction calls generalizing s t with
  | nil => exact h
  | cons call calls ih =>
    obtain ⟨hcall, hall⟩ := List.forall_mem_cons.1 hall
    rw [after_cons]
    cases hat : call.isAt path with
    | true =>
      rw [List.filter_cons_of_pos hat, after_cons]
      exact ih hall (perform_of_agreeAt hcall hat h).2
    | false =>
      rw [List.filter_cons_of_neg (by simp [hat])]
      exact ih hall ((agreeAt_perform hat s).symm.trans h)

/-- **Changes at different places are independent.**  Where changes are made in
another order that keeps the order at each path, each of them comes to the same: at
each path the same calls succeed, and the same ones fail with the same failures.
Every path is left with the same policy of its own, or without one, and the same
policy is in effect at every place. -/
theorem visits_of_rearranged (s : State) (hall : ∀ call ∈ one, call.IsChange)
    (h : Rearranged one other) :
    (∀ path, (inMemory.visits one s).filter (fun visit => visit.call.isAt path) =
        (inMemory.visits other s).filter fun visit => visit.call.isAt path) ∧
      (∀ path, (inMemory.after one s).assignments.get? path =
        (inMemory.after other s).assignments.get? path) ∧
      ∀ q, (inMemory.after one s).effectivePolicy q =
        (inMemory.after other s).effectivePolicy q := by
  have hother : ∀ call ∈ other, call.IsChange := fun call hc => hall call (h.perm.mem_iff.2 hc)
  have hagree (path : Text) :
      AgreeAt path (inMemory.after one s) (inMemory.after other s) := by
    -- both ways leave at the path what the changes at it leave alone
    have halone := agreeAt_after hall (AgreeAt.refl path s)
    rw [h.order path] at halone
    exact halone.trans (agreeAt_after hother (AgreeAt.refl path s)).symm
  refine ⟨fun path => ?_, fun path => (hagree path).own, effectivePolicy_of_agreeAt hagree⟩
  rw [visits_filter hall (AgreeAt.refl path s), visits_filter hother (AgreeAt.refl path s),
    h.order path]

/-- Two changes at one path with a failing one at another between them, or before
both: the failure is the same. -/
theorem visits_of_rearranged_failure :
    let first : Call := .set ⟨"/a".text, [], []⟩ "XOR-2-1-1024k".text
    let failing : Call := .unset ⟨"/a/b".text, [], []⟩
    let last : Call := .unset ⟨"/a".text, "ecfs".text, "h".text⟩
    let one := [first, failing, last]
    let other := [failing, first, last]
    (∀ call ∈ one, call.IsChange) ∧ Rearranged one other ∧
      (inMemory.visits one {}).filter (fun visit => visit.call.isAt "/a/b".text) =
        [⟨failing, .error (.service (.noPolicySet "/a/b".text))⟩] ∧
      (inMemory.visits one {}).filter (fun visit => visit.call.isAt "/a/b".text) =
        (inMemory.visits other {}).filter (fun visit => visit.call.isAt "/a/b".text) := by
  intro first failing last one other
  have hall : ∀ call ∈ one, call.IsChange := by simp [one, first, failing, last, Call.IsChange]
  have hswap : Rearranged one other := by
    refine Rearranged.swap [] [last] fun path hat => ?_
    obtain rfl := (Call.isAt_iff rfl).1 hat
    rfl
  exact ⟨hall, hswap, rfl, (visits_of_rearranged {} hall hswap).1 _⟩

end Backend

end CodingPolicy
