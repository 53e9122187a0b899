/-
CodingPolicy/Proofs/Provenance.lean

Where the assignments of a state come from.  Calls on a namespace in memory are
put on record, so that it is known of every path whether a call has changed
what it carries.  An assignment was there at the start and nothing has changed
it since, or a call has made it, and then it is in order (`Proper`): its path is
canonical and no file's, and its policy is known.

`Kept` says this of a state together with the rules on states and with what no
call touches.  A call preserves it (`Kept.perform`), and so do calls one after
the other (`Kept.after`).

Main result: `kept_after`.
-/
import CodingPolicy.Proofs.Form
import CodingPolicy.Proofs.Paths
import CodingPolicy.Proofs.Record

namespace CodingPolicy

/-- The call of the visit changed what the path carries. -/
structure Visit.Changed (visit : Visit) (path : Text) : Prop where
  /-- The call is one that changes assignments. -/
  isChange : visit.call.IsChange
  /-- The place of the call has this path. -/
  path_eq : visit.call.place?.map NamespacePath.path = some path
  /-- The call succeeded. -/
  succeeded : ∃ result, visit.outcome = .ok result

namespace State

open NamespacePath

variable {s t u : State} {visits : List Visit} {p : NamespacePath} {name : Text}

/-- An assignment as a call makes it. -/
structure Proper (s : State) (e : Text × Text) : Prop where
  /-- The path is canonical. -/
  canonical : Canonical e.1
  /-- The path is not the one of a regular file. -/
  no_file : e.1 ∉ s.files
  /-- The policy is known. -/
  known : ∃ policy ∈ s.known, policy.name = e.2

/-- What holds of a state that calls have led to, with the calls on record. -/
structure Kept (s : State) (visits : List Visit) (t : State) : Prop where
  /-- The state keeps the rules. -/
  valid : t.Valid
  /-- The known policies and the gaps are those of the start. -/
  policies : t.policies = s.policies
  /-- The files are those of the start. -/
  files : t.files = s.files
  /-- An assignment is one of the start that no call has changed, or it is in order. -/
  origin : ∀ e ∈ t.assignments.entries,
    (e ∈ s.assignments.entries ∧ ∀ visit ∈ visits, ¬ visit.Changed e.1) ∨ s.Proper e

namespace Kept

/-- It holds of the start. -/
theorem start (hs : s.Valid) : Kept s [] s :=
  ⟨hs, rfl, rfl, fun _ he => .inl ⟨he, nofun⟩⟩

/-- An assignment stays what it is over a visit that does not change its path. -/
theorem origin_of_not_changed (h : Kept s visits t) {visit : Visit} {e : Text × Text}
    (he : e ∈ t.assignments.entries) (hv : ¬ visit.Changed e.1) :
    (e ∈ s.assignments.entries ∧ ∀ v ∈ visits ++ [visit], ¬ v.Changed e.1) ∨ s.Proper e := by
  rcases h.origin e he with ⟨hstart, hnone⟩ | hproper
  · refine .inl ⟨hstart, fun v hm => ?_⟩
    rcases List.mem_append.1 hm with hm | hm
    · exact hnone v hm
    · rw [List.mem_singleton.1 hm]
      exact hv
  · exact .inr hproper

/-- A visit that changes nothing preserves it. -/
theorem quiet (h : Kept s visits t) {visit : Visit} (hv : ∀ path, ¬ visit.Changed path) :
    Kept s (visits ++ [visit]) t :=
  ⟨h.valid, h.policies, h.files, fun e he => h.origin_of_not_changed he (hv e.1)⟩

/-- A policy that is set on a canonical path preserves it. -/
theorem set (h : Kept s visits t) (hp : Canonical p.path) (hset : t.setPolicy p name = .ok u)
    {result : Call.Result} : Kept s (visits ++ [⟨.set p name, .ok result⟩]) u := by
  have hvalid := h.valid.setPolicy hp.head? hset
  obtain ⟨⟨policy, hknown, rfl⟩, hfile, rfl⟩ := setPolicy_eq_ok.1 hset
  refine ⟨hvalid, h.policies, h.files, fun e he => ?_⟩
  rcases OrderedMap.mem_insert_iff.1 he with rfl | ⟨hne, he⟩
  · -- the new assignment: the call has looked at the files and the known policies
    rw [h.files] at hfile
    have hknown' : policy ∈ s.known := by
      rw [known, ← h.policies]
      exact hknown
    exact .inr ⟨hp, hfile, policy, hknown', rfl⟩
  · refine h.origin_of_not_changed he fun hc => ?_
    exact hne (Option.some.inj hc.path_eq).symm

/-- A policy that is taken away preserves it. -/
theorem unset (h : Kept s visits t) (hunset : t.unsetPolicy p = .ok u) {result : Call.Result} :
    Kept s (visits ++ [⟨.unset p, .ok result⟩]) u := by
  have hvalid := h.valid.unsetPolicy hunset
  obtain ⟨-, -, rfl⟩ := unsetPolicy_eq_ok.1 hunset
  refine ⟨hvalid, h.policies, h.files, fun e he => ?_⟩
  obtain ⟨hne, he⟩ := OrderedMap.mem_erase_iff.1 he
  refine h.origin_of_not_changed he fun hc => ?_
  exact hne (Option.some.inj hc.path_eq).symm

/-- **A call on a canonical path preserves it**, whether it succeeds or fails. -/
theorem perform (h : Kept s visits t) {call : Call}
    (hp : ∀ q, call.place? = some q → Canonical q.path) :
    Kept s (visits ++ [⟨call, (Backend.inMemory.perform call t).outcome⟩])
      (Backend.inMemory.perform call t).world := by
  cases call with
  | list => exact h.quiet fun _ hc => hc.isChange
  | get q => exact h.quiet fun _ hc => hc.isChange
  | set q name =>
    rw [Backend.perform_set]
    rcases e : t.setPolicy q name with f | u
    · exact h.quiet fun _ hc => nomatch hc.succeeded
    · exact h.set (hp q rfl) e
  | unset q =>
    rw [Backend.perform_unset]
    rcases e : t.unsetPolicy q with f | u
    · exact h.quiet fun _ hc => nomatch hc.succeeded
    · exact h.unset e

/-- **Calls one after the other preserve it.** -/
theorem after (h : Kept s visits t) {calls : List Call}
    (hp : ∀ call ∈ calls, ∀ q, call.place? = some q → Canonical q.path) :
    Kept s (Backend.inMemory.recorded.after calls (t, visits)).2
      (Backend.inMemory.recorded.after calls (t, visits)).1 := by
  induction calls generalizing t visits with
  | nil => exact h
  | cons call calls ih =>
    rw [Backend.after_cons, Backend.perform_recorded]
    exact ih (h.perform (hp call (.head _))) fun c hc => hp c (.tail _ hc)

end Kept

/-- **What holds after any calls.**  They are made one after the other on places
that were read, over a state that was read from a form, and may succeed or
fail.  The state that they leave is read from its own form.  The policies and
the files are those of the start, and every assignment is one of the start that
no call has changed, or it is in order.  At every place the policy in effect is
told, and the name that is inherited there is never blank. -/
theorem kept_after (v : Json) (s : State) (hv : ofJson v = .ok s) (calls : List Call)
    (hplaces : ∀ call ∈ calls, ∀ q, call.place? = some q →
      ∃ workingDir raw, parse workingDir raw = .ok q) :
    Kept s (Backend.inMemory.recorded.after calls (s, [])).2 (Backend.inMemory.after calls s) ∧
    ofJson (Backend.inMemory.after calls s).toJson = .ok (Backend.inMemory.after calls s) ∧
    ∀ q, (∃ inEffect, (Backend.inMemory.after calls s).effectivePolicy q = .ok inEffect) ∧
      ∀ name, (Backend.inMemory.after calls s).inheritedName? q = some name →
        Text.isBlankText name = false := by
  have hcanonical : ∀ call ∈ calls, ∀ q, call.place? = some q → Canonical q.path := by
    intro call hcall q hq
    obtain ⟨workingDir, raw, hparse⟩ := hplaces call hcall q hq
    exact canonical_of_parse hparse
  have hkept := (Kept.start (valid_of_ofJson hv)).after hcanonical
  rw [Backend.after_recorded] at hkept
  refine ⟨hkept, ofJson_toJson hkept.valid, fun q => ⟨⟨_, hkept.valid.effectivePolicy q⟩, ?_⟩⟩
  intro name hname
  obtain ⟨path, hmem⟩ := mem_of_inheritedName? hname
  exact (hkept.valid.assignments _ hmem).2

/-- A path that no place has keeps an unknown policy, beside a path where one
was replaced and another that was asked for what it does not carry. -/
theorem kept_after_replacing :
    let s : State :=
      { assignments := .ofList [("/a/../b".text, "gone".text), ("/a".text, "gone".text)]
        files := ["/f".text] }
    let calls : List Call :=
      [.set ⟨"/a".text, [], []⟩ "XOR-2-1-1024k".text, .unset ⟨"/b".text, [], []⟩]
    Kept s (Backend.inMemory.recorded.after calls (s, [])).2 (Backend.inMemory.after calls s) ∧
      (Backend.inMemory.after calls s).assignments.entries =
        [("/a/../b".text, "gone".text), ("/a".text, "XOR-2-1-1024k".text)] := by
  intro s calls
  refine ⟨(kept_after s.toJson s (by rfl) calls fun call hcall q hq => ?_).1, by rfl⟩
  simp only [calls, List.mem_cons, List.not_mem_nil, or_false] at hcall
  rcases hcall with rfl | rfl
  · cases hq
    exact ⟨"/".text, "/a".text, rfl⟩
  · cases hq
    exact ⟨"/".text, "/b".text, rfl⟩

end State

end CodingPolicy
