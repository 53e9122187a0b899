/-
CodingPolicy/Proofs/FileSystems.lean

File systems and their own paths.  A file system is given as a URI, and its own paths
are those with its scheme and its authority, such as `NamespacePath.own`.  What stands
before the first mark of a scheme, the lead, and the authority behind it are the same in
both; so whatever a split makes of the lead and the authority, it makes of both, and an
own path that is read at all is on the file system (`NamespacePath.checkFileSystem_own`).

But the check of the setting asks for nothing but a lead, while an own path is read in one
of three forms (`NamespacePath.OwnForm`).  With a separator in the lead it is no URI, and
may lead above the root.  With a scheme as its lead it is a URI, whose authority must pass
the rules on brackets and delimiters.  With an early colon in its lead it is a URI without
an authority, and runs into a query or a fragment if the lead has a mark of one.  In any
other form it has no scheme, and is refused.

Main result: `Config.admitsOwn_iff_of_accepted`.
-/
import CodingPolicy.Proofs.Cancellation
import CodingPolicy.Proofs.Joining
import CodingPolicy.Proofs.Precedence
import CodingPolicy.Proofs.UriPaths

namespace CodingPolicy

/-! ### The first mark -/

/-- The first mark in a text is the first one whatever follows it. -/
theorem Text.cutAt_of_cutAt {mark t a b : Text} (hmark : mark ≠ [])
    (h : cutAt mark t = some (a, b)) (b' : Text) :
    cutAt mark (a ++ mark ++ b') = some (a, b') := by
  induction t generalizing a with
  | nil =>
    rw [cutAt, if_neg hmark] at h
    cases h
  | cons c r ih =>
    rw [cutAt] at h
    split at h
    · cases h
      obtain ⟨m, ms, rfl⟩ := List.exists_cons_of_ne_nil hmark
      have hfirst : (m :: ms).isPrefixOf (m :: (ms ++ b')) = true :=
        List.isPrefixOf_iff_prefix.2 (List.prefix_append (m :: ms) b')
      rw [List.nil_append, List.cons_append, cutAt, if_pos hfirst, ← List.cons_append,
        List.drop_left]
    · next hnot =>
      obtain ⟨⟨x, y⟩, hcut, he⟩ := Option.map_eq_some_iff.1 h
      cases he
      -- a mark in front would stand before what follows, and so in the text itself
      have hnot' : ¬ mark.isPrefixOf (c :: (x ++ mark ++ b')) = true := by
        intro hp
        refine hnot (List.isPrefixOf_iff_prefix.2 ?_)
        have hbefore : mark <+: c :: (x ++ mark) :=
          List.prefix_of_prefix_length_le (List.isPrefixOf_iff_prefix.1 hp)
            (List.prefix_append (c :: (x ++ mark)) b') (by simp; omega)
        rw [eq_of_cutAt hcut]
        exact hbefore.trans (List.prefix_append (c :: (x ++ mark)) y)
      rw [List.cons_append, List.cons_append, cutAt, if_neg hnot', ih hcut]
      rfl

/-! ### Splitting behind a lead -/

namespace Uri

variable {lead authority text rest s m : Text} {u : Uri}

/-- What is left out in front ends before the first other character. -/
theorem cleaned_append_cons {c : CodePoint} (hc : isControlOrSpace c = false) (t r : Text) :
    cleaned (t ++ c :: r) = cleaned t ++ visible (c :: r) := by
  have hdrop : (t ++ c :: r).dropWhile isControlOrSpace =
      t.dropWhile isControlOrSpace ++ c :: r := by
    induction t with
    | nil => simp [hc]
    | cons d t ih => cases hd : isControlOrSpace d <;> simp [hd, ih]
  rw [cleaned, hdrop, List.filter_append]
  rfl

theorem cleaned_spell (lead authority text : Text) :
    cleaned (spell lead authority text) =
      cleaned lead ++
        .char ':' :: .char '/' :: .char '/' :: (visible authority ++ visible text) := by
  have htext : spell lead authority text =
      lead ++ .char ':' :: .char '/' :: .char '/' :: (authority ++ text) := by
    simp [spell, String.text, Text.ofChars]
  rw [htext, cleaned_append_cons rfl]
  simp [visible, isLeftOut]

/-- What stands behind an authority still does when characters are left out. -/
theorem head?_visible (h : ∀ c, rest.head? = some c → endsAuthority c = true) :
    ∀ c, (visible rest).head? = some c → endsAuthority c = true := by
  intro c hc
  cases rest with
  | nil => cases hc
  | cons d r =>
    have hd := h d rfl
    have hkept : isLeftOut d = false := by
      simp only [endsAuthority, Bool.or_eq_true, beq_iff_eq] at hd
      rcases hd with (rfl | rfl) | rfl <;> rfl
    have hvisible : visible (d :: r) = d :: visible r := List.filter_cons_of_pos (by simp [hkept])
    rw [hvisible] at hc
    cases hc
    exact hd

/-- **A lead that is a scheme is split off with the authority behind it.** -/
theorem split_spell_of_isScheme (hs : isScheme (cleaned lead) = true)
    (ha : ∀ c ∈ authority, endsAuthority c = false)
    (hrest : ∀ c, rest.head? = some c → endsAuthority c = true) :
    split (spell lead authority rest) =
      checkBrackets (visible authority) >>= fun _ =>
        checkDelimiters (visible authority) >>= fun _ =>
          .ok { scheme := (cleaned lead).map CodePoint.toLower
                authority := visible authority
                path := (splitAt '?' (splitAt '#' (visible rest)).1).1
                query := (splitAt '?' (splitAt '#' (visible rest)).1).2
                fragment := (splitAt '#' (visible rest)).2 } := by
  have hopen : ∀ c ∈ visible authority, endsAuthority c = false := fun c hc =>
    ha c (List.mem_filter.1 hc).1
  rw [split_eq, cleaned_spell, splitScheme_append hs, splitAuthority_of_open hopen
    (head?_visible hrest)]

/-- What stands behind the scheme where the lead has an early colon. -/
def behindColon (m authority rest : Text) : Text :=
  m ++ .char ':' :: .char '/' :: .char '/' :: (visible authority ++ visible rest)

/-- **A lead with an early colon is split at it**, and leaves no authority. -/
theorem split_spell_of_early (he : cleaned lead = s ++ .char ':' :: m) (hs : isScheme s = true)
    (hm : .char '/' ∉ m) (authority rest : Text) :
    split (spell lead authority rest) =
      .ok { scheme := s.map CodePoint.toLower
            authority := []
            path := (splitAt '?' (splitAt '#' (behindColon m authority rest)).1).1
            query := (splitAt '?' (splitAt '#' (behindColon m authority rest)).1).2
            fragment := (splitAt '#' (behindColon m authority rest)).2 } := by
  have htext : cleaned (spell lead authority rest) =
      s ++ .char ':' :: behindColon m authority rest := by
    rw [cleaned_spell, he, List.append_assoc]
    rfl
  have hnone : splitAuthority (behindColon m authority rest) =
      ([], behindColon m authority rest) := by
    cases m with
    | nil => rfl
    | cons c m =>
      have hc : c ≠ '/' := fun h => hm (h ▸ .head _)
      unfold splitAuthority
      split
      · next h => exact absurd (List.cons.inj h).1 hc
      · rfl
  rw [split_eq, htext, splitScheme_append hs, hnone]
  rfl

/-- **A scheme comes from the lead**: it is the lead, or what stands before an early colon. -/
theorem lead_of_split (hu : split (spell lead authority rest) = .ok u) (hs : u.scheme ≠ []) :
    isScheme (cleaned lead) = true ∨
      ∃ s m, cleaned lead = s ++ .char ':' :: m ∧ isScheme s = true := by
  obtain ⟨-, -, -, -, hscheme, -⟩ := split_eq_ok hu
  rw [hscheme] at hs
  obtain ⟨s, hs, -, htext⟩ := isScheme_of_splitScheme hs
  rw [cleaned_spell] at htext
  rcases List.append_eq_append_iff.1 htext with
    ⟨between, rfl, hbetween⟩ | ⟨between, hlead, hbetween⟩
  · -- the lead is not longer than the scheme, which holds no colon
    cases between with
    | nil =>
      rw [List.append_nil] at hs
      exact .inl hs
    | cons c between =>
      cases (List.cons.inj hbetween).1
      have hcolon := isSchemeChar_of_mem hs (List.mem_append_right _ (.head _))
      cases hcolon
  · cases between with
    | nil =>
      rw [List.append_nil] at hlead
      rw [hlead]
      exact .inl hs
    | cons c between =>
      cases (List.cons.inj hbetween).1
      exact .inr ⟨s, between, hlead, hs⟩

/-- A text without marks has neither a query nor a fragment. -/
theorem splitAt_of_no_mark (h : ∀ c ∈ text, isMark c = false) :
    splitAt '#' text = (text, []) ∧ splitAt '?' text = (text, []) :=
  ⟨splitAt_of_not_mem fun hc => Bool.false_ne_true ((h _ hc).symm.trans rfl),
    splitAt_of_not_mem fun hc => Bool.false_ne_true ((h _ hc).symm.trans rfl)⟩

/-- What stands behind the scheme of a URI with an early colon is all path just where the
lead has no mark behind the colon. -/
theorem splitAt_behindColon (ha : ∀ c ∈ authority, isMark c = false)
    (hrest : ∀ c ∈ rest, isMark c = false) :
    ((splitAt '?' (splitAt '#' (behindColon m authority rest)).1).2 = [] ∧
      (splitAt '#' (behindColon m authority rest)).2 = [] ↔ ∀ c ∈ m, isMark c = false) ∧
    ((∀ c ∈ m, isMark c = false) →
      (splitAt '?' (splitAt '#' (behindColon m authority rest)).1).1 =
        behindColon m authority rest) := by
  have hall (hm : ∀ c ∈ m, isMark c = false) :
      ∀ c ∈ behindColon m authority rest, isMark c = false := by
    intro c hc
    simp only [behindColon, visible, List.mem_append, List.mem_cons, List.mem_filter] at hc
    rcases hc with hc | rfl | rfl | rfl | ⟨hc, -⟩ | ⟨hc, -⟩
    · exact hm c hc
    · rfl
    · rfl
    · rfl
    · exact ha c hc
    · exact hrest c hc
  refine ⟨⟨fun hempty => ?_, fun hm => ?_⟩, fun hm => ?_⟩
  · by_contra hmark
    -- the path ends before the first mark, and the colon of the mark of the scheme follows
    have hbefore : ∀ c ∈ m.takeWhile fun c => !isMark c, isMark c = false := fun c =>
      Text.not_of_mem_takeWhile
    have hne : m.dropWhile (fun c => !isMark c) ≠ [] := by
      rw [Ne, List.dropWhile_eq_nil_iff]
      simpa using hmark
    obtain ⟨c, r, hr⟩ := List.exists_cons_of_ne_nil hne
    have hc : isMark c = true := by
      apply Text.of_head?_dropWhile (t := m)
      rw [hr]
      rfl
    have hparts : behindColon m authority rest = m.takeWhile (fun c => !isMark c) ++
        (c :: (r ++
          .char ':' :: .char '/' :: .char '/' :: (visible authority ++ visible rest))) := by
      rw [← List.cons_append, ← hr, ← List.append_assoc, List.takeWhile_append_dropWhile]
      rfl
    rw [hparts] at hempty
    have htail := (splitAt_path hbefore fun d hd => by cases hd; exact hc).2.1 hempty
    have hcolon : ∀ t ∈ emptyTails, .char ':' ∉ t := by decide
    exact hcolon _ htail (by simp)
  · obtain ⟨hfragment, hquery⟩ := splitAt_of_no_mark (hall hm)
    rw [hfragment, hquery]
    exact ⟨rfl, rfl⟩
  · obtain ⟨hfragment, hquery⟩ := splitAt_of_no_mark (hall hm)
    rw [hfragment, hquery]

end Uri

/-! ### Own paths -/

namespace NamespacePath

open Uri

variable {lead authority rest t : Text} {p : NamespacePath}

/-- The path of the name `x` in the root of a file system. -/
def own (lead authority : Text) : Text :=
  spell lead authority [.char '/', .char 'x']

/-- No mark of a scheme stands before the one behind the lead. -/
def FirstMark (lead : Text) : Prop :=
  ∀ rest, Text.cutAt schemeMark (lead ++ schemeMark ++ rest) = some (lead, rest)

/-- The forms in which an own path is read. -/
inductive OwnForm (lead authority : Text) : Prop
  /-- A separator stands before the mark: the path is bare. -/
  | bare (hsep : separator ∈ lead) (hbalance : ¬ ClimbsOut (steps (own lead authority)))
  /-- The lead is a scheme, and the authority passes its checks. -/
  | uri (hsep : separator ∉ lead) (hscheme : isScheme (cleaned lead) = true)
      (hbrackets : checkBrackets (visible authority) = .ok ())
      (hdelimiters : checkDelimiters (visible authority) = .ok ())
  /-- A scheme ends at an early colon, and nothing behind it leads into a query or a
  fragment. -/
  | early (s m : Text) (hsep : separator ∉ lead) (hlead : cleaned lead = s ++ .char ':' :: m)
      (hscheme : isScheme s = true) (hmarks : ∀ c ∈ m, isMark c = false)

theorem looksLikeUri_spell (hlead : FirstMark lead) (authority text : Text) :
    looksLikeUri (spell lead authority text) = decide (separator ∉ lead) := by
  have hcut := hlead (authority ++ text)
  have htext : lead ++ schemeMark ++ (authority ++ text) = spell lead authority text := by
    rw [← List.append_assoc]
    rfl
  rw [htext] at hcut
  rw [looksLikeUri, hcut]

theorem nul_mem_own_iff :
    .char '\x00' ∈ own lead authority ↔ .char '\x00' ∈ lead ++ authority := by
  simp [own, spell, String.text, Text.ofChars]

/-- The root as a working directory adds no step. -/
theorem steps_absolute_root (t : Text) : steps (absolute [separator] t) = steps t := by
  unfold absolute
  split
  · rfl
  · have hroot : Text.dropTrailing (· == separator) [separator] = [] := rfl
    have hsplit : Text.splitOn separator ([] ++ separator :: t) = [] :: Text.splitOn separator t :=
      Text.splitOn_append List.not_mem_nil t
    rw [hroot, steps, hsplit]
    rfl

/-- What stands behind an early colon does not lead above the root. -/
theorem exists_normalize?_behindColon {m : Text} (hm : separator ∉ m)
    (ha : separator ∉ authority) :
    ∃ path, normalize? (absolute [separator] (behindColon m authority [.char '/', .char 'x'])) =
      some path := by
  have hfirst : Segment (m ++ [.char ':']) := by
    refine ⟨by simp, ?_, ?_, ?_⟩
    · intro h
      exact absurd (congrArg List.getLast? h) (by simp)
    · intro h
      exact absurd (congrArg List.getLast? h) (by simp)
    · simpa [separator] using hm
  have hvisible : separator ∉ visible authority := fun h => ha (List.mem_filter.1 h).1
  have hpieces : Text.splitOn separator (behindColon m authority [.char '/', .char 'x']) =
      [m ++ [.char ':'], [], visible authority, [.char 'x']] := by
    have htext : behindColon m authority [.char '/', .char 'x'] =
        (m ++ [.char ':']) ++
          separator :: ([] ++ separator :: (visible authority ++ separator :: [.char 'x'])) := by
      simp [behindColon, visible, isLeftOut, separator]
    rw [htext, Text.splitOn_append hfirst.no_separator, Text.splitOn_append List.not_mem_nil,
      Text.splitOn_append hvisible]
    rfl
  rw [normalize?_eq_steps, steps_absolute_root, steps, resolve_filter, hpieces,
    resolve_segment hfirst, resolve_skip (.inl rfl)]
  -- the authority takes at most the piece in front of it away
  by_cases hskip : visible authority = [] ∨ visible authority = [.char '.']
  · rw [resolve_skip hskip]
    exact ⟨_, rfl⟩
  · by_cases hdots : visible authority = [.char '.', .char '.']
    · rw [hdots]
      exact ⟨_, rfl⟩
    · rw [not_or] at hskip
      rw [resolve_segment ⟨hskip.1, hskip.2, hdots, hvisible⟩]
      exact ⟨_, rfl⟩

/-- The path of a URI that stands for a place is settled. -/
theorem settle_of_normalize? {path : Text} {q : NamespacePath} (workingDir raw : Text)
    (h : normalize? (absolute workingDir q.path) = some path) :
    settle workingDir raw q = .ok { q with path } := by
  unfold settle
  rw [h]

/-- What does not end an authority does not end a path. -/
theorem isMark_of_not_endsAuthority {c : CodePoint} (h : endsAuthority c = false) :
    isMark c = false := by
  simp only [endsAuthority, Bool.or_eq_false_iff] at h
  simp [isMark, h.1.2, h.2]

/-- What stands behind an early colon stands in the lead. -/
theorem not_mem_of_early {s m : Text} (he : cleaned lead = s ++ .char ':' :: m)
    (hsep : separator ∉ lead) : separator ∉ m := by
  intro hm
  refine hsep (mem_of_mem_cleaned ?_)
  rw [he]
  exact List.mem_append_right _ (.tail _ hm)

/-- A lower-case scheme is there if the scheme is. -/
theorem map_toLower_ne_nil {s : Text} (h : isScheme s = true) : s.map CodePoint.toLower ≠ [] := by
  rintro he
  rw [List.map_eq_nil_iff] at he
  subst he
  cases h

section Authority

variable (ha : ∀ c ∈ authority, endsAuthority c = false)
include ha

/-- An own path whose lead is a scheme has the parts of its file system, if the authority
passes its checks. -/
theorem splitUri_own_of_isScheme (hs : isScheme (cleaned lead) = true) :
    splitUri (own lead authority) = .ok p ↔
      (checkBrackets (visible authority) = .ok () ∧
        checkDelimiters (visible authority) = .ok ()) ∧
      p = ⟨[.char '/', .char 'x'], (cleaned lead).map CodePoint.toLower, visible authority⟩ := by
  have hslash : ∀ c, ([.char '/', .char 'x']).head? = some c → endsAuthority c = true := by
    intro c hc
    cases hc
    rfl
  rw [splitUri_eq_ok, own, split_spell_of_isScheme hs ha hslash]
  constructor
  · rintro ⟨u, hu, -, -, rfl⟩
    obtain ⟨⟨⟩, hbrackets, hu⟩ := bind_eq_ok.1 hu
    obtain ⟨⟨⟩, hdelimiters, hu⟩ := bind_eq_ok.1 hu
    cases hu
    exact ⟨⟨hbrackets, hdelimiters⟩, rfl⟩
  · rintro ⟨⟨hbrackets, hdelimiters⟩, rfl⟩
    rw [hbrackets, ok_bind, hdelimiters, ok_bind]
    exact ⟨_, rfl, map_toLower_ne_nil hs, ⟨rfl, rfl⟩, rfl⟩

/-- An own path with an early colon in the lead has no authority, and is all path behind the
colon, if the lead has no mark there. -/
theorem splitUri_own_of_early {s m : Text} (he : cleaned lead = s ++ .char ':' :: m)
    (hs : isScheme s = true) (hm : .char '/' ∉ m) :
    splitUri (own lead authority) = .ok p ↔ (∀ c ∈ m, isMark c = false) ∧
      p = ⟨behindColon m authority [.char '/', .char 'x'], s.map CodePoint.toLower, []⟩ := by
  have hx : ∀ c ∈ [.char '/', .char 'x'], isMark c = false :=
    List.forall_mem_cons.2 ⟨rfl, List.forall_mem_singleton.2 rfl⟩
  obtain ⟨hempty, hpath⟩ := splitAt_behindColon (m := m)
    (fun c hc => isMark_of_not_endsAuthority (ha c hc)) hx
  have hne : behindColon m authority [.char '/', .char 'x'] ≠ [] := by simp [behindColon]
  rw [splitUri_eq_ok, own, split_spell_of_early he hs hm]
  constructor
  · rintro ⟨u, hu, -, hu', rfl⟩
    cases hu
    have hmarks := hempty.1 hu'
    refine ⟨hmarks, ?_⟩
    dsimp only
    rw [hpath hmarks, if_neg hne]
  · rintro ⟨hmarks, rfl⟩
    refine ⟨_, rfl, map_toLower_ne_nil hs, hempty.2 hmarks, ?_⟩
    dsimp only
    rw [hpath hmarks, if_neg hne]

end Authority

section Lead

variable (hlead : FirstMark lead)
include hlead

/-- An own path with a separator in the lead is read bare. -/
theorem parse_own_bare (hsep : separator ∈ lead) :
    parse [separator] (own lead authority) = .ok p ↔
      .char '\x00' ∉ own lead authority ∧
        ∃ path, normalize? (own lead authority) = some path ∧ p = { path } := by
  have hlooks : looksLikeUri (own lead authority) = false := by
    rw [own, looksLikeUri_spell hlead]
    exact decide_eq_false (not_not_intro hsep)
  have hne : own lead authority ≠ [] := by simp [own, spell]
  have hroot : normalize? (absolute [separator] (own lead authority)) =
      normalize? (own lead authority) := by
    rw [normalize?_eq_steps, steps_absolute_root, normalize?_eq_steps]
  constructor
  · intro h
    have hn := (parse_eq_ok h).1
    rw [parse_of_not_looksLikeUri hne hn hlooks, hroot] at h
    split at h
    · next path hpath =>
      cases h
      exact ⟨hn, path, hpath, rfl⟩
    · cases h
  · rintro ⟨hn, path, hpath, rfl⟩
    rw [parse_of_not_looksLikeUri hne hn hlooks, hroot, hpath]

/-- Any other own path is split as a URI. -/
theorem parse_own_uri (hsep : separator ∉ lead) :
    parse [separator] (own lead authority) = .ok p ↔
      .char '\x00' ∉ own lead authority ∧ ∃ q, splitUri (own lead authority) = .ok q ∧
        settle [separator] (own lead authority) q = .ok p := by
  have hlooks : looksLikeUri (own lead authority) = true := by
    rw [own, looksLikeUri_spell hlead]
    exact decide_eq_true hsep
  have hne : own lead authority ≠ [] := by simp [own, spell]
  rw [parse_eq_ok_iff, if_pos hlooks]
  exact and_iff_right hne

variable (ha : ∀ c ∈ authority, endsAuthority c = false)
include ha

/-- What a URI among the own paths is split into. -/
theorem form_of_parse_own (hsep : separator ∉ lead)
    (h : parse [separator] (own lead authority) = .ok p) :
    (isScheme (cleaned lead) = true ∧ checkBrackets (visible authority) = .ok () ∧
        checkDelimiters (visible authority) = .ok () ∧
        p.scheme = (cleaned lead).map CodePoint.toLower ∧ p.authority = visible authority) ∨
      ∃ s m, cleaned lead = s ++ .char ':' :: m ∧ isScheme s = true ∧ .char '/' ∉ m ∧
        (∀ c ∈ m, isMark c = false) ∧ p.scheme = s.map CodePoint.toLower ∧ p.authority = [] := by
  obtain ⟨hn, q, hq, hp⟩ := (parse_own_uri hlead hsep).1 h
  obtain ⟨hscheme, hauthority, -⟩ := settle_eq_ok hp
  obtain ⟨u, hu, hs, -⟩ := splitUri_eq_ok.1 hq
  rw [hscheme, hauthority]
  rcases lead_of_split hu hs with hs | ⟨s, m, he, hs⟩
  · obtain ⟨⟨hbrackets, hdelimiters⟩, rfl⟩ := (splitUri_own_of_isScheme ha hs).1 hq
    exact .inl ⟨hs, hbrackets, hdelimiters, rfl, rfl⟩
  · have hm : .char '/' ∉ m := not_mem_of_early he hsep
    obtain ⟨hmarks, rfl⟩ := (splitUri_own_of_early ha he hs hm).1 hq
    exact .inr ⟨s, m, he, hs, hm, hmarks, rfl, rfl⟩

/-- **An own path is read just in one of its forms**, and only if it holds no NUL. -/
theorem exists_parse_own_iff :
    (∃ p, parse [separator] (own lead authority) = .ok p) ↔
      .char '\x00' ∉ lead ++ authority ∧ OwnForm lead authority := by
  have hclimbs :
      normalize? (own lead authority) = none ↔ ClimbsOut (steps (own lead authority)) := by
    rw [normalize?_eq_steps, Option.map_eq_none_iff, resolve_nil_eq_none_iff isStep_of_mem_steps]
  rw [← nul_mem_own_iff]
  constructor
  · rintro ⟨p, hp⟩
    refine ⟨(parse_eq_ok hp).1, ?_⟩
    by_cases hsep : separator ∈ lead
    · obtain ⟨-, path, hpath, -⟩ := (parse_own_bare hlead hsep).1 hp
      exact .bare hsep fun h => Option.some_ne_none path (hpath.symm.trans (hclimbs.2 h))
    · rcases form_of_parse_own hlead ha hsep hp with
        ⟨hs, hbrackets, hdelimiters, -⟩ | ⟨s, m, he, hs, -, hmarks, -⟩
      · exact .uri hsep hs hbrackets hdelimiters
      · exact .early s m hsep he hs hmarks
  · rintro ⟨hn, hform⟩
    cases hform with
    | bare hsep hbalance =>
      obtain ⟨path, hpath⟩ := Option.ne_none_iff_exists'.1 (mt hclimbs.1 hbalance)
      exact ⟨_, (parse_own_bare hlead hsep).2 ⟨hn, path, hpath, rfl⟩⟩
    | uri hsep hs hbrackets hdelimiters =>
      exact ⟨_, (parse_own_uri hlead hsep).2 ⟨hn, _,
        (splitUri_own_of_isScheme ha hs).2 ⟨⟨hbrackets, hdelimiters⟩, rfl⟩, rfl⟩⟩
    | early s m hsep he hs hmarks =>
      have hm : .char '/' ∉ m := not_mem_of_early he hsep
      have hopen : separator ∉ authority := fun hc => Bool.false_ne_true ((ha _ hc).symm.trans rfl)
      obtain ⟨path, hpath⟩ := exists_normalize?_behindColon hm hopen
      exact ⟨_, (parse_own_uri hlead hsep).2 ⟨hn, _,
        (splitUri_own_of_early ha he hs hm).2 ⟨hmarks, rfl⟩, settle_of_normalize? _ _ hpath⟩⟩

/-- **An own path that is read is on its file system.** -/
theorem checkFileSystem_own (hrest : ∀ c, rest.head? = some c → endsAuthority c = true)
    (h : parse [separator] (own lead authority) = .ok p) :
    p.checkFileSystem (spell lead authority rest) = .ok () := by
  by_cases hsep : separator ∈ lead
  · obtain ⟨-, path, -, rfl⟩ := (parse_own_bare hlead hsep).1 h
    rfl
  unfold checkFileSystem
  rcases form_of_parse_own hlead ha hsep h with
    ⟨hs, hbrackets, hdelimiters, hscheme, hauthority⟩ | ⟨s, m, he, hs, hm, -, hscheme, hauthority⟩
  · rw [hscheme, if_neg (map_toLower_ne_nil hs), split_spell_of_isScheme hs ha hrest, hbrackets,
      ok_bind, hdelimiters, ok_bind]
    exact if_pos ⟨rfl, .inr hauthority⟩
  · rw [hscheme, if_neg (map_toLower_ne_nil hs), split_spell_of_early he hs hm]
    exact if_pos ⟨rfl, .inl hauthority⟩

end Lead

/-! ### Accepted file systems -/

/-- The authority at the start of a text. -/
def authorityOf (rest : Text) : Text :=
  rest.takeWhile fun c => !endsAuthority c

/-- The file system admits its own paths: they are read, and are on it. -/
def AdmitsOwn (fs : Text) : Prop :=
  ∃ lead rest, Text.cutAt schemeMark fs = some (lead, rest) ∧
    ∃ p, parse [separator] (own lead (authorityOf rest)) = .ok p ∧ p.checkFileSystem fs = .ok ()

end NamespacePath

namespace Config

open NamespacePath

variable {homes : Homes} {t fs : Text} {value : Json} {config : Config}

theorem checkFs_eq_ok :
    checkFs t = .ok fs ↔
      t = fs ∧ ∃ lead rest, Text.cutAt schemeMark fs = some (lead, rest) ∧ lead ≠ [] := by
  unfold checkFs
  split
  · next c lead rest hcut =>
    constructor
    · intro he
      cases he
      exact ⟨rfl, _, _, hcut, List.cons_ne_nil c lead⟩
    · rintro ⟨rfl, -⟩
      rfl
  · next hnot =>
    constructor
    · intro he
      cases he
    · rintro ⟨rfl, lead, rest, hcut, hne⟩
      obtain ⟨c, lead, rfl⟩ := List.exists_cons_of_ne_nil hne
      exact absurd hcut (hnot c lead rest)

/-- What the check of a file system asks for. -/
theorem exists_lead (h : ofJson homes value = .ok config) :
    ∃ lead rest, Text.cutAt schemeMark config.defaultFs = some (lead, rest) ∧ lead ≠ [] := by
  cases value with
  | object members =>
    obtain ⟨t, -, ht⟩ := (ofMembers_eq_ok.1 h).1.defaultFs
    exact (checkFs_eq_ok.1 ht).2
  | _ => cases h

/-- **An accepted file system admits its own paths just where they are read**, that is,
where neither the lead nor the authority holds the NUL character, and the path has one of
the forms of own paths. -/
theorem admitsOwn_iff_of_accepted (h : ofJson homes value = .ok config) :
    ∃ lead rest, Text.cutAt schemeMark config.defaultFs = some (lead, rest) ∧ lead ≠ [] ∧
      (∀ p, parse [separator] (own lead (authorityOf rest)) = .ok p →
        p.checkFileSystem config.defaultFs = .ok ()) ∧
      (AdmitsOwn config.defaultFs ↔
        .char '\x00' ∉ lead ++ authorityOf rest ∧ OwnForm lead (authorityOf rest)) := by
  obtain ⟨lead, rest, hcut, hne⟩ := exists_lead h
  have hlead : FirstMark lead := Text.cutAt_of_cutAt (by decide) hcut
  have hauthority : ∀ c ∈ authorityOf rest, Uri.endsAuthority c = false := fun c =>
    Text.not_of_mem_takeWhile
  have hbehind : ∀ c, (rest.dropWhile fun c => !Uri.endsAuthority c).head? = some c →
      Uri.endsAuthority c = true := fun c => Text.of_head?_dropWhile
  have hfs : config.defaultFs =
      Uri.spell lead (authorityOf rest) (rest.dropWhile fun c => !Uri.endsAuthority c) := by
    rw [Text.eq_of_cutAt hcut, Uri.spell, authorityOf, List.append_assoc _ (List.takeWhile _ _),
      List.takeWhile_append_dropWhile]
    rfl
  have hcheck : ∀ p, parse [separator] (own lead (authorityOf rest)) = .ok p →
      p.checkFileSystem config.defaultFs = .ok () := by
    intro p hp
    rw [hfs]
    exact checkFileSystem_own hlead hauthority hbehind hp
  refine ⟨lead, rest, hcut, hne, hcheck, ?_⟩
  rw [← exists_parse_own_iff hlead hauthority]
  constructor
  · rintro ⟨lead', rest', hcut', p, hp, -⟩
    cases hcut.symm.trans hcut'
    exact ⟨p, hp⟩
  · rintro ⟨p, hp⟩
    exact ⟨lead, rest, hcut, p, hp, hcheck p hp⟩

/-- A file system with a space in front, capital letters, a port and a query admits its
own paths. -/
theorem admitsOwn_iff_of_accepted_port :
    ∃ config, ofJson "/h".text
        (.object [("default_fs".text, .string " EcFs://h:1?q".text)]) = .ok config ∧
      config.defaultFs = " EcFs://h:1?q".text ∧ AdmitsOwn config.defaultFs := by
  have hmade : ofJson "/h".text
      (.object [("default_fs".text, .string " EcFs://h:1?q".text)]) = .ok _ := rfl
  obtain ⟨lead, rest, hcut, -, -, hiff⟩ := admitsOwn_iff_of_accepted hmade
  cases (show Text.cutAt schemeMark " EcFs://h:1?q".text =
    some (" EcFs".text, "h:1?q".text) from rfl).symm.trans hcut
  refine ⟨_, hmade, rfl, hiff.2 ⟨by decide, .uri (by decide) (by decide) rfl rfl⟩⟩

/-- Not every accepted file system admits its own paths. -/
theorem not_always_admitted :
    ¬ ∀ homes value config, ofJson homes value = .ok config → AdmitsOwn config.defaultFs := by
  intro h
  obtain ⟨lead, rest, hcut, p, hp, -⟩ := h "/h".text
    (.object [("default_fs".text, .string "1://h".text)]) _ rfl
  have hparts : Text.cutAt schemeMark "1://h".text = some ([.char '1'], [.char 'h']) := rfl
  cases hparts.symm.trans hcut
  -- a digit is no scheme
  cases hp

end Config

end CodingPolicy
