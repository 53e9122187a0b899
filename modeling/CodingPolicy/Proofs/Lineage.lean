/-
CodingPolicy/Proofs/Lineage.lean

The places on the way from an absolute path up to the root.  What holds of the walk holds of
the lineage, and from a canonical path the walk is known in full: one segment less at each step
(`NamespacePath.ascent_pathsUp`).

Main result: from an absolute path, canonical or not, the places of the walk are those of the
lineage, no more of them than there are separators and one, the root the last; from a canonical
path they are the ancestors of the path, each of them once
(`NamespacePath.lineage_of_absolute`).
-/
import CodingPolicy.Proofs.Inheritance

namespace CodingPolicy

namespace NamespacePath

/-! ### The paths up to the root -/

theorem length_pathsUp (reversed : List Text) :
    (pathsUp reversed).length = reversed.length + 1 := by
  induction reversed with
  | nil => rfl
  | cons x r ih => rw [pathsUp, List.length_cons, ih, List.length_cons]

/-- One step up takes one segment away. -/
theorem getElem?_pathsUp {reversed : List Text} {k : Nat} (hk : k ≤ reversed.length) :
    (pathsUp reversed)[k]? = some (ofSegments (reversed.drop k).reverse) := by
  induction reversed generalizing k with
  | nil =>
    rw [List.length_nil, Nat.le_zero] at hk
    subst hk
    rfl
  | cons x r ih =>
    cases k with
    | zero => simp [pathsUp]
    | succ k =>
      rw [pathsUp, List.getElem?_cons_succ, List.drop_succ_cons]
      exact ih (Nat.le_of_succ_le_succ hk)

/-- **The walk from an absolute path ends at the root, after no more steps than the path has
separators.**  Its places are those of the lineage, none of them twice.  From a canonical path
they are as many as its segments and one, each has one segment less than the one before, and
together they are the path and all that is above it. -/
theorem lineage_of_absolute (p : NamespacePath) (hp : p.path.head? = some separator) :
    (∀ places, Ascent p places ↔ places = p.lineage) ∧
    p.lineage.length ≤ p.path.count separator + 1 ∧
    p.lineage.getLast? = some (p.moveTo [separator]) ∧
    p.lineage.Nodup ∧
    ∀ segments, (∀ x ∈ segments, Segment x) → p.path = ofSegments segments →
      p.lineage.length = segments.length + 1 ∧
      (∀ k ≤ segments.length, p.lineage[k]? =
        some (p.moveTo (ofSegments (segments.take (segments.length - k))))) ∧
      (∀ q ∈ p.lineage, Canonical q.path) ∧
      ∀ q, q ∈ p.lineage ↔ ∃ path, Above path p.path ∧ q = p.moveTo path := by
  have hascent : Ascent p p.lineage := ascent_lineage hp
  refine ⟨fun places => ⟨fun h => h.unique hascent, fun h => h ▸ hascent⟩, ?_, hascent.getLast?,
    hascent.nodup hp, fun segments hs hpath => ?_⟩
  · have := hascent.length_le hp
    have := height_le p
    omega
  · have hrev : ∀ x ∈ segments.reverse, Segment x := fun x hx => hs x (List.mem_reverse.1 hx)
    rw [← List.reverse_reverse segments] at hpath
    have hwalk : p.lineage = (pathsUp segments.reverse).map p.moveTo :=
      hascent.unique (ascent_pathsUp hrev hpath)
    rw [hwalk]
    refine ⟨?_, fun k hk => ?_, fun q hq => ?_, fun q => ?_⟩
    · rw [List.length_map, length_pathsUp, List.length_reverse]
    · have hk' : k ≤ segments.reverse.length := by rwa [List.length_reverse]
      rw [List.getElem?_map, getElem?_pathsUp hk', List.drop_reverse, List.reverse_reverse]
      rfl
    · obtain ⟨path, hmem, rfl⟩ := List.mem_map.1 hq
      exact canonical_of_mem_pathsUp hrev hmem
    · rw [hpath, List.mem_map]
      exact exists_congr fun path => and_congr (mem_pathsUp hrev) eq_comm

/-- A walk of two steps, and one from a path that is not canonical. -/
theorem lineage_of_absolute_two_steps :
    let p : NamespacePath := ⟨"/a/b".text, "ecfs".text, "h".text⟩
    let q : NamespacePath := ⟨"//a//".text, [], []⟩
    p.path.head? = some separator ∧ Ascent p p.lineage ∧ p.lineage.length = 3 ∧
      p.lineage[1]? = some (p.moveTo "/a".text) ∧
      q.path.head? = some separator ∧ q.lineage.length ≤ 5 ∧
      q.lineage.getLast? = some (q.moveTo [separator]) := by
  intro p q
  have ha : Segment [.char 'a'] := ⟨by decide, by decide, by decide, by decide⟩
  have hb : Segment [.char 'b'] := ⟨by decide, by decide, by decide, by decide⟩
  have hs : ∀ x ∈ [[.char 'a'], [.char 'b']], Segment x :=
    List.forall_mem_cons.2 ⟨ha, List.forall_mem_singleton.2 hb⟩
  obtain ⟨hwalk, -, -, -, hp⟩ := lineage_of_absolute p rfl
  obtain ⟨hlength, hstep, -, -⟩ := hp [[.char 'a'], [.char 'b']] hs rfl
  obtain ⟨-, hbound, hlast, -, -⟩ := lineage_of_absolute q rfl
  exact ⟨rfl, (hwalk _).2 rfl, hlength, hstep 1 (by decide), rfl, hbound, hlast⟩

end NamespacePath

end CodingPolicy
