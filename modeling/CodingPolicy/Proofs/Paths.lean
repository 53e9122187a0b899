/-
CodingPolicy/Proofs/Paths.lean

What reading a path can come to.  `NamespacePath.parse_eq` gives the reading in
its steps; from it follow the two kinds of failure (`parse_error`) and the form
of the paths that are read (`canonical_of_parse`).
-/
import CodingPolicy.Namespace.Path
import CodingPolicy.Proofs.Outcome

namespace CodingPolicy

/-! ### Reading a path -/

namespace NamespacePath

/-- The text is taken for a URI and cannot be split. -/
structure Unsplittable (raw : Text) (fault : Uri.Fault) : Prop where
  /-- The text is not empty. -/
  ne_nil : raw ≠ []
  /-- The text does not hold the NUL character. -/
  no_nul : .char '\x00' ∉ raw
  /-- The text looks like a URI. -/
  looks : looksLikeUri raw = true
  /-- The text cannot be split. -/
  split : Uri.split raw = .error fault

/-- The place that is left of the parts of a path, or the failure of its text. -/
def settle (workingDir raw : Text) (p : NamespacePath) : Except Failure NamespacePath :=
  match normalize? (absolute workingDir p.path) with
  | some path => .ok { p with path }
  | none => .error (.invalidArgument (.aboveRoot raw))

/-- Reading a path in its steps. -/
theorem parse_eq (workingDir raw : Text) :
    parse workingDir raw =
      if raw = [] then .error (.invalidArgument .emptyPath)
      else if .char '\x00' ∈ raw then .error (.invalidArgument .nulInPath)
      else (if looksLikeUri raw then splitUri raw else .ok { path := raw }) >>=
        settle workingDir raw := by
  unfold parse
  by_cases h₁ : raw = []
  · rw [if_pos h₁, if_pos h₁]
    rfl
  · by_cases h₂ : .char '\x00' ∈ raw
    · rw [if_neg h₁, if_pos h₂, if_neg h₁, if_pos h₂]
      rfl
    · rw [if_neg h₁, if_neg h₂, if_neg h₁, if_neg h₂]
      dsimp only
      by_cases h₃ : looksLikeUri raw = true
      · rw [if_pos h₃, if_pos h₃]
        rfl
      · rw [if_neg h₃, if_neg h₃]
        rfl

theorem settle_error {workingDir raw : Text} {p : NamespacePath} {f : Failure}
    (h : settle workingDir raw p = .error f) : f = .invalidArgument (.aboveRoot raw) := by
  unfold settle at h
  split at h <;> cases h
  rfl

theorem splitUri_error {raw : Text} {f : Failure} (h : splitUri raw = .error f) :
    (∃ cause, f = .invalidArgument cause) ∨
      ∃ fault, Uri.split raw = .error fault ∧ f = .value (.uri fault) := by
  unfold splitUri at h
  split at h
  · next fault e =>
    cases h
    exact .inr ⟨fault, e, rfl⟩
  · left
    split at h
    · cases h
      exact ⟨_, rfl⟩
    · split at h <;> cases h
      exact ⟨_, rfl⟩

/-- A text that is no path is an invalid argument, or it is taken for a URI and
cannot be split. -/
theorem parse_error {workingDir raw : Text} {f : Failure} (h : parse workingDir raw = .error f) :
    (∃ cause, f = .invalidArgument cause) ∨
      ∃ fault, Unsplittable raw fault ∧ f = .value (.uri fault) := by
  rw [parse_eq] at h
  by_cases h₁ : raw = []
  · rw [if_pos h₁] at h
    cases h
    exact .inl ⟨_, rfl⟩
  · by_cases h₂ : .char '\x00' ∈ raw
    · rw [if_neg h₁, if_pos h₂] at h
      cases h
      exact .inl ⟨_, rfl⟩
    · -- the split comes first, and what it gives can still lead above the root
      rw [if_neg h₁, if_neg h₂] at h
      rcases bind_eq_error.1 h with h | ⟨p, -, h⟩
      · split at h
        · next h₃ =>
          rcases splitUri_error h with hc | ⟨fault, hs, rfl⟩
          · exact .inl hc
          · exact .inr ⟨fault, ⟨h₁, h₂, h₃, hs⟩, rfl⟩
        · cases h
      · exact .inl ⟨_, settle_error h⟩

/-- A text that cannot be split fails with the fault of the split. -/
theorem Unsplittable.parse {raw : Text} {fault : Uri.Fault} (h : Unsplittable raw fault)
    (workingDir : Text) : NamespacePath.parse workingDir raw = .error (.value (.uri fault)) := by
  rw [parse_eq, if_neg h.ne_nil, if_neg h.no_nul, if_pos h.looks, splitUri]
  simp only [h.split]
  rfl

/-- A place is not admitted as an invalid argument, or the file system that is
served cannot be split. -/
theorem checkFileSystem_error {p : NamespacePath} {defaultFs : Text} {f : Failure}
    (h : p.checkFileSystem defaultFs = .error f) :
    (∃ cause, f = .invalidArgument cause) ∨
      ∃ fault, p.scheme ≠ [] ∧ Uri.split defaultFs = .error fault ∧ f = .value (.uri fault) := by
  unfold checkFileSystem at h
  by_cases hs : p.scheme = []
  · rw [if_pos hs] at h
    cases h
  · rw [if_neg hs] at h
    split at h
    · next fault e =>
      cases h
      exact .inr ⟨fault, hs, e, rfl⟩
    · left
      split at h <;> cases h
      exact ⟨_, rfl⟩

/-- A place with a scheme cannot be held against what cannot be split. -/
theorem checkFileSystem_of_split_error {p : NamespacePath} {defaultFs : Text} {fault : Uri.Fault}
    (hs : p.scheme ≠ []) (hf : Uri.split defaultFs = .error fault) :
    p.checkFileSystem defaultFs = .error (.value (.uri fault)) := by
  rw [checkFileSystem, if_neg hs]
  simp only [hf]

/-! ### Canonical paths -/

/-- What may stand between two separators of a canonical path. -/
structure Segment (x : Text) : Prop where
  /-- A segment is not empty. -/
  ne_nil : x ≠ []
  /-- A segment is not the single dot. -/
  ne_dot : x ≠ [.char '.']
  /-- A segment is not the double dot. -/
  ne_dots : x ≠ [.char '.', .char '.']
  /-- A segment holds no separator. -/
  no_separator : separator ∉ x

/-- The text is the absolute path of segments. -/
def Canonical (t : Text) : Prop :=
  ∃ segments, (∀ x ∈ segments, Segment x) ∧ t = ofSegments segments

theorem Canonical.head? {t : Text} (h : Canonical t) : t.head? = some (.char '/') := by
  obtain ⟨segments, -, rfl⟩ := h
  rfl

/-- The segments of a canonical path, from the last to the first. -/
theorem Canonical.exists_reversed {t : Text} (h : Canonical t) :
    ∃ reversed : List Text, (∀ x ∈ reversed, Segment x) ∧ t = ofSegments reversed.reverse := by
  obtain ⟨segments, hseg, rfl⟩ := h
  refine ⟨segments.reverse, fun x hx => hseg x (List.mem_reverse.1 hx), ?_⟩
  rw [List.reverse_reverse]

/-- The segments that are left when dots are resolved can stand in a path. -/
theorem segment_of_resolve {behind pieces segments : List Text}
    (h : resolve behind pieces = some segments) (hb : ∀ x ∈ behind, Segment x)
    (hp : ∀ x ∈ pieces, separator ∉ x) : ∀ x ∈ segments, Segment x := by
  fun_induction resolve behind pieces with
  | case1 behind =>
    cases h
    intro x hx
    exact hb x (List.mem_reverse.1 hx)
  -- an empty piece or a single dot is passed over
  | case2 behind s r hs ih => exact ih h hb fun x hx => hp x (.tail _ hx)
  | case3 => cases h
  -- a double dot takes the last segment away
  | case4 r b _ hs ih =>
    exact ih h (fun x hx => hb x (.tail _ hx)) fun x hx => hp x (.tail _ hx)
  | case5 behind s r hs hd ih =>
    rw [not_or] at hs
    refine ih h (fun x hx => ?_) fun x hx => hp x (.tail _ hx)
    rcases List.mem_cons.1 hx with rfl | hx
    · exact ⟨hs.1, hs.2, hd, hp _ (.head _)⟩
    · exact hb x hx

/-- **A path that was read is canonical.** -/
theorem canonical_of_parse {workingDir raw : Text} {p : NamespacePath}
    (h : parse workingDir raw = .ok p) : Canonical p.path := by
  rw [parse_eq] at h
  split at h
  · cases h
  · split at h
    · cases h
    · obtain ⟨q, -, hq⟩ := bind_eq_ok.1 h
      unfold settle at hq
      split at hq
      · next path hn =>
        cases hq
        obtain ⟨segments, hs, rfl⟩ := Option.map_eq_some_iff.1 hn
        refine ⟨segments, segment_of_resolve hs (fun x hx => nomatch hx) fun x hx => ?_, rfl⟩
        exact Text.not_mem_of_mem_splitOn hx
      · cases hq

/-- A path that was read is absolute. -/
theorem head?_path_of_parse {workingDir raw : Text} {p : NamespacePath}
    (h : parse workingDir raw = .ok p) : p.path.head? = some (.char '/') :=
  (canonical_of_parse h).head?

end NamespacePath

end CodingPolicy
