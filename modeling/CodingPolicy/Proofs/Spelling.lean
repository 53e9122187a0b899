/-
CodingPolicy/Proofs/Spelling.lean

Places and the texts that stand for them.  A canonical path without the NUL
character is read as itself (`NamespacePath.parse_of_canonical`).  A place that
was read may carry a scheme and an authority as well; then its text is a URI,
and `Uri.Spelled` lists what the parts must be like to be split off again
(`Uri.split_of_spelled`).

Main results: the text of a place that was read is read as that place
(`NamespacePath.parse_render_of_parse`), from any working directory, and so no two
places that are read have one text (`NamespacePath.reading_of_render`).  The
working directory of the first reading must not hold the characters that
`NamespacePath.isOutsidePath` names: below it they would get into a path, and
the path of a URI cannot hold them.
-/
import CodingPolicy.Proofs.Paths

namespace CodingPolicy

/-! ### Pieces and marks -/

namespace Text

variable {sep c : CodePoint} {x t a b : Text}

theorem splitOn_of_not_mem (h : sep ∉ x) : splitOn sep x = [x] := by
  induction x with
  | nil => rfl
  | cons d r ih =>
    rw [List.mem_cons, not_or] at h
    rw [splitOn, if_neg (Ne.symm h.1), ih h.2]

/-- A separator parts the pieces before it from those behind it. -/
theorem splitOn_append_cons (sep : CodePoint) (t r : Text) :
    splitOn sep (t ++ sep :: r) = splitOn sep t ++ splitOn sep r := by
  induction t with
  | nil => simp [splitOn]
  | cons d t ih =>
    by_cases hd : d = sep
    · simp [splitOn, hd, ih]
    · obtain ⟨s, ss, hs⟩ := List.exists_cons_of_ne_nil (splitOn_ne_nil sep t)
      simp [splitOn, hd, ih, hs]

/-- A split takes off one piece after the other. -/
theorem splitOn_append (h : sep ∉ x) (t : Text) :
    splitOn sep (x ++ sep :: t) = x :: splitOn sep t := by
  rw [splitOn_append_cons, splitOn_of_not_mem h]
  rfl

/-- **Pieces without the separator come back from the text that joins them.** -/
theorem splitOn_joinWith {pieces : List Text} (hne : pieces ≠ []) (h : ∀ x ∈ pieces, sep ∉ x) :
    splitOn sep (joinWith [sep] pieces) = pieces := by
  induction pieces with
  | nil => exact absurd rfl hne
  | cons x pieces ih =>
    have hx : sep ∉ x := h x (.head _)
    cases pieces with
    | nil => exact splitOn_of_not_mem hx
    | cons y pieces =>
      have hrest : ∀ z ∈ y :: pieces, sep ∉ z := fun z hz => h z (.tail _ hz)
      rw [joinWith, List.append_assoc, List.singleton_append, splitOn_append hx,
        ih (List.cons_ne_nil y pieces) hrest]

/-- The pieces hold nothing but what the text holds. -/
theorem mem_of_mem_splitOn (hx : x ∈ splitOn sep t) (hc : c ∈ x) : c ∈ t := by
  rw [← joinWith_splitOn sep t]
  generalize splitOn sep t = pieces at hx
  induction pieces with
  | nil => cases hx
  | cons y pieces ih =>
    by_cases hp : pieces = []
    · subst hp
      rw [List.mem_singleton.1 hx] at hc
      exact hc
    · rw [joinWith_cons_of_ne_nil _ _ hp, List.mem_append, List.mem_append]
      rcases List.mem_cons.1 hx with rfl | hx
      · exact .inl (.inl hc)
      · exact .inr (ih hx)

/-- A mark is found behind a text that its first character does not stand in. -/
theorem cutAt_append (h : c ∉ a) (mark b : Text) :
    cutAt (c :: mark) (a ++ c :: mark ++ b) = some (a, b) := by
  induction a with
  | nil =>
    have hp : (c :: mark).isPrefixOf (c :: (mark ++ b)) = true :=
      List.isPrefixOf_iff_prefix.2 (List.prefix_append (c :: mark) b)
    rw [List.nil_append, List.cons_append, cutAt, if_pos hp]
    simp
  | cons d r ih =>
    rw [List.mem_cons, not_or] at h
    have hp : ¬ (c :: mark).isPrefixOf (d :: (r ++ c :: mark ++ b)) = true := by
      rw [List.isPrefixOf_iff_prefix, List.cons_prefix_cons]
      exact fun hp => h.1 hp.1
    rw [List.cons_append, List.cons_append, cutAt, if_neg hp, ih h.2]
    rfl

/-- The first mark of a single character has none before it. -/
theorem not_mem_of_cutAt (h : cutAt [c] t = some (a, b)) : c ∉ a := by
  induction t generalizing a with
  | nil => cases h
  | cons d r ih =>
    rw [cutAt] at h
    split at h
    · cases h
      exact List.not_mem_nil
    · next hp =>
      obtain ⟨⟨x, y⟩, hxy, he⟩ := Option.map_eq_some_iff.1 h
      cases he
      have hd : c ≠ d := by
        rintro rfl
        exact hp (by simp [List.isPrefixOf])
      rw [List.mem_cons, not_or]
      exact ⟨hd, ih hxy⟩

/-- Without the character there is no mark. -/
theorem cutAt_eq_none_iff : cutAt [c] t = none ↔ c ∉ t := by
  induction t with
  | nil => simp [cutAt]
  | cons d r ih =>
    by_cases hd : c = d
    · subst hd
      simp [cutAt, List.isPrefixOf]
    · have hp : ¬ [c].isPrefixOf (d :: r) = true := by simp [List.isPrefixOf, hd]
      rw [cutAt, if_neg hp, Option.map_eq_none_iff, ih, List.mem_cons, not_or]
      exact ⟨fun h => ⟨hd, h⟩, fun h => h.2⟩

theorem mem_of_mem_dropTrailing {p : CodePoint → Bool} (h : c ∈ dropTrailing p t) : c ∈ t := by
  rw [dropTrailing, List.mem_reverse] at h
  exact List.mem_reverse.1 ((List.dropWhile_sublist p).subset h)

end Text

/-! ### Parts of a URI that are split off again -/

namespace Uri

variable {c : CodePoint} {t raw scheme authority path : Text} {u : Uri}

theorem toLower_toLower (c : CodePoint) : c.toLower.toLower = c.toLower :=
  toLower_induction (P := fun c => c.toLower.toLower = c.toLower) (by decide)
    (fun c hc => by rw [hc, hc]) c

theorem isAlpha_toLower (c : CodePoint) : c.toLower.isAlpha = c.isAlpha :=
  toLower_induction (P := fun c => c.toLower.isAlpha = c.isAlpha) (by decide)
    (fun c hc => by rw [hc]) c

theorem isSchemeChar_toLower (c : CodePoint) : isSchemeChar c.toLower = isSchemeChar c :=
  toLower_induction (P := fun c => isSchemeChar c.toLower = isSchemeChar c) (by decide)
    (fun c hc => by rw [hc]) c

/-- A scheme is one in lower case, too. -/
theorem isScheme_map_toLower (t : Text) : isScheme (t.map CodePoint.toLower) = isScheme t := by
  cases t with
  | nil => rfl
  | cons c r =>
    have hall : (r.map CodePoint.toLower).all isSchemeChar = r.all isSchemeChar := by
      rw [List.all_map]
      exact congrArg r.all (funext isSchemeChar_toLower)
    rw [List.map_cons, isScheme, isScheme, isAlpha_toLower, hall]

/-- Every character of a scheme may stand in one. -/
theorem isSchemeChar_of_mem (h : isScheme t = true) (hc : c ∈ t) : isSchemeChar c = true := by
  cases t with
  | nil => cases hc
  | cons d r =>
    rw [isScheme, Bool.and_eq_true, List.all_eq_true] at h
    rcases List.mem_cons.1 hc with rfl | hc
    · simp [isSchemeChar, CodePoint.isAlphanum, h.1]
    · exact h.2 c hc

/-- A character of a scheme is none of those that some rule looks for. -/
theorem ne_of_isSchemeChar {d : CodePoint} (hc : isSchemeChar c = true)
    (hd : isSchemeChar d = false) : c ≠ d := by
  rintro rfl
  rw [hc] at hd
  cases hd

theorem not_isLeftOut_of_isSchemeChar (hc : isSchemeChar c = true) : isLeftOut c = false := by
  have htab := ne_of_isSchemeChar (d := '\t') hc rfl
  have hfeed := ne_of_isSchemeChar (d := '\n') hc rfl
  have hreturn := ne_of_isSchemeChar (d := '\r') hc rfl
  simp [isLeftOut, htab, hfeed, hreturn]

theorem not_isControlOrSpace_of_isAlpha (hc : c.isAlpha = true) : isControlOrSpace c = false := by
  cases e : isControlOrSpace c with
  | false => rfl
  | true =>
    have hle : c.toNat ≤ 0x20 := of_decide_eq_true e
    have key : ∀ n ≤ 0x20, (CodePoint.ofNat n).isAlpha = false := by decide
    have hnot := key c.toNat hle
    rw [CodePoint.ofNat_toNat, hc] at hnot
    cases hnot

/-- The splitting in its steps. -/
theorem split_eq (t : Text) :
    split t =
      checkBrackets (splitAuthority (splitScheme (cleaned t)).2).1 >>= fun _ =>
        checkDelimiters (splitAuthority (splitScheme (cleaned t)).2).1 >>= fun _ =>
          let rest := splitAt '#' (splitAuthority (splitScheme (cleaned t)).2).2
          .ok { scheme := (splitScheme (cleaned t)).1
                authority := (splitAuthority (splitScheme (cleaned t)).2).1
                path := (splitAt '?' rest.1).1
                query := (splitAt '?' rest.1).2
                fragment := rest.2 } := rfl

/-- What is known of the parts of a split. -/
theorem split_eq_ok (h : split t = .ok u) :
    ∃ rest, splitAuthority (splitScheme (cleaned t)).2 = (u.authority, rest) ∧
      checkBrackets u.authority = .ok () ∧ checkDelimiters u.authority = .ok () ∧
      u.scheme = (splitScheme (cleaned t)).1 ∧
      u.path = (splitAt '?' (splitAt '#' rest).1).1 := by
  rw [split_eq] at h
  obtain ⟨⟨⟩, hb, h⟩ := bind_eq_ok.1 h
  obtain ⟨⟨⟩, hd, h⟩ := bind_eq_ok.1 h
  cases h
  exact ⟨_, rfl, hb, hd, rfl, rfl⟩

theorem not_mem_fst_splitAt (mark : CodePoint) (t : Text) : mark ∉ (splitAt mark t).1 := by
  unfold splitAt
  rcases e : Text.cutAt [mark] t with - | ⟨a, b⟩
  · exact Text.cutAt_eq_none_iff.1 e
  · exact Text.not_mem_of_cutAt e

theorem splitAt_of_not_mem {mark : CodePoint} (h : mark ∉ t) : splitAt mark t = (t, []) := by
  rw [splitAt, Text.cutAt_eq_none_iff.2 h]
  rfl

theorem not_endsAuthority (h : c ∈ (splitAuthority t).1) : endsAuthority c = false := by
  unfold splitAuthority at h
  split at h
  · exact Text.not_of_mem_takeWhile h
  · cases h

theorem mem_of_mem_cleaned (h : c ∈ cleaned t) : c ∈ t :=
  (List.dropWhile_sublist _).subset (List.mem_filter.1 h).1

/-- What follows the scheme stands in the text. -/
theorem mem_of_mem_snd_splitScheme (h : c ∈ (splitScheme t).2) : c ∈ t := by
  by_cases hs : (splitScheme t).1 = []
  · unfold splitScheme at h hs
    split at h
    · next scheme rest e =>
      split at h
      · rw [Text.eq_of_cutAt e]
        exact List.mem_append_right _ h
      · exact h
    · exact h
  · obtain ⟨s, -, -, he⟩ := isScheme_of_splitScheme hs
    rw [he]
    exact List.mem_append_right _ (.tail _ h)

/-- **The authority and the path of a split hold nothing but what the text holds.** -/
theorem mem_of_split (hu : split t = .ok u) (h : c ∈ u.authority ++ u.path) : c ∈ t := by
  obtain ⟨rest, ha, -, -, -, hp⟩ := split_eq_ok hu
  apply mem_of_mem_cleaned
  apply mem_of_mem_snd_splitScheme
  apply mem_of_splitAuthority
  rw [ha]
  rcases List.mem_append.1 h with h | h
  · exact List.mem_append_left _ h
  · rw [hp] at h
    have h := mem_of_splitAt (List.mem_append_left _ h)
    exact List.mem_append_right _ (mem_of_splitAt (List.mem_append_left _ h))

/-- A cut takes off what stands before the first mark. -/
theorem splitAt_append {mark : CodePoint} {a : Text} (h : mark ∉ a) (b : Text) :
    splitAt mark (a ++ mark :: b) = (a, b) := by
  have hcut := Text.cutAt_append h [] b
  rw [List.append_assoc, List.singleton_append] at hcut
  rw [splitAt, hcut]
  rfl

/-- From a scheme nothing is left out. -/
theorem cleaned_append (h : isScheme scheme = true) (r : Text) :
    cleaned (scheme ++ r) = scheme ++ r.filter fun c => !isLeftOut c := by
  obtain ⟨c, s, rfl⟩ : ∃ c s, scheme = c :: s := by
    cases scheme with
    | nil => cases h
    | cons c s => exact ⟨c, s, rfl⟩
  have hfirst : c.isAlpha = true := by
    rw [isScheme, Bool.and_eq_true] at h
    exact h.1
  have hdrop : (c :: s ++ r).dropWhile isControlOrSpace = c :: s ++ r := by
    rw [List.cons_append, List.dropWhile_cons, not_isControlOrSpace_of_isAlpha hfirst]
    rfl
  have hscheme : (c :: s).filter (fun c => !isLeftOut c) = c :: s := by
    rw [List.filter_eq_self]
    intro d hd
    rw [not_isLeftOut_of_isSchemeChar (isSchemeChar_of_mem h hd)]
    rfl
  rw [cleaned, hdrop, List.filter_append, hscheme]

/-- A scheme is split off at its colon and put into lower case. -/
theorem splitScheme_append (h : isScheme scheme = true) (r : Text) :
    splitScheme (scheme ++ .char ':' :: r) = (scheme.map CodePoint.toLower, r) := by
  have hcolon : .char ':' ∉ scheme := fun hc =>
    ne_of_isSchemeChar (d := ':') (isSchemeChar_of_mem h hc) rfl rfl
  have hcut := Text.cutAt_append hcolon [] r
  rw [List.append_assoc, List.singleton_append] at hcut
  rw [splitScheme, hcut]
  simp only [h, if_true]

/-- An authority is split off before what ends it. -/
theorem splitAuthority_of_open {rest : Text} (h : ∀ c ∈ authority, endsAuthority c = false)
    (hrest : ∀ c, rest.head? = some c → endsAuthority c = true) :
    splitAuthority (.char '/' :: .char '/' :: (authority ++ rest)) = (authority, rest) := by
  have hends : ∀ c ∈ authority, (!endsAuthority c) = true := fun c hc => by
    rw [h c hc]
    rfl
  rw [splitAuthority, List.takeWhile_append_of_pos hends, List.dropWhile_append_of_pos hends]
  cases rest with
  | nil => simp
  | cons c r => simp [hrest c rfl]

/-- An authority is split off where an absolute path follows. -/
theorem splitAuthority_append (h : ∀ c ∈ authority, endsAuthority c = false)
    (hpath : path.head? = some (.char '/')) :
    splitAuthority (.char '/' :: .char '/' :: (authority ++ path)) = (authority, path) := by
  refine splitAuthority_of_open h fun c hc => ?_
  cases hpath.symm.trans hc
  rfl

/-- The parts of a URI without query and fragment, such that its text is split
into them. -/
structure Spelled (scheme authority path : Text) : Prop where
  /-- The scheme is one. -/
  isScheme : isScheme scheme = true
  /-- The scheme is in lower case. -/
  lower : scheme.map CodePoint.toLower = scheme
  /-- Nothing in the authority ends it. -/
  open_ : ∀ c ∈ authority, endsAuthority c = false
  /-- The brackets in the authority enclose a host. -/
  brackets : checkBrackets authority = .ok ()
  /-- The authority has no hidden delimiter. -/
  delimiters : checkDelimiters authority = .ok ()
  /-- The path is absolute. -/
  absolute : path.head? = some (.char '/')
  /-- The path does not run into a query. -/
  no_query : .char '?' ∉ path
  /-- The path does not run into a fragment. -/
  no_fragment : .char '#' ∉ path
  /-- Neither the authority nor the path holds a character that is left out. -/
  kept : ∀ c ∈ authority ++ path, isLeftOut c = false

/-- Nothing of the text is left out. -/
theorem Spelled.cleaned (h : Spelled scheme authority path) :
    cleaned (scheme ++ "://".text ++ authority ++ path) =
      scheme ++ "://".text ++ authority ++ path := by
  have hmark : ("://".text).filter (fun c => !isLeftOut c) = "://".text := by decide
  have hkept : (authority ++ path).filter (fun c => !isLeftOut c) = authority ++ path := by
    rw [List.filter_eq_self]
    intro c hc
    rw [h.kept c hc]
    rfl
  rw [List.append_assoc, List.append_assoc, cleaned_append h.isScheme, List.filter_append, hmark,
    hkept]

/-- **The text of such parts is split into them.** -/
theorem split_of_spelled (h : Spelled scheme authority path) :
    split (scheme ++ "://".text ++ authority ++ path) =
      .ok ⟨scheme, authority, path, [], []⟩ := by
  have hscheme : splitScheme (scheme ++ "://".text ++ authority ++ path) =
      (scheme, .char '/' :: .char '/' :: (authority ++ path)) := by
    have htext : scheme ++ "://".text ++ authority ++ path =
        scheme ++ .char ':' :: .char '/' :: .char '/' :: (authority ++ path) := by
      simp [String.text, Text.ofChars]
    rw [htext, splitScheme_append h.isScheme, h.lower]
  rw [split_eq, h.cleaned, hscheme, splitAuthority_append h.open_ h.absolute, h.brackets, ok_bind,
    h.delimiters, ok_bind]
  dsimp only
  rw [splitAt_of_not_mem h.no_fragment, splitAt_of_not_mem h.no_query]

end Uri

/-! ### Texts of places -/

namespace NamespacePath

variable {c : CodePoint} {t workingDir raw path : Text} {p q : NamespacePath}

@[simp] theorem resolve_nil (behind : List Text) : resolve behind [] = some behind.reverse := rfl

theorem resolve_skip {x : Text} (h : x = [] ∨ x = [.char '.']) (behind r : List Text) :
    resolve behind (x :: r) = resolve behind r := by
  simp only [resolve, if_pos h]

@[simp] theorem resolve_dots (x : Text) (behind r : List Text) :
    resolve (x :: behind) ([.char '.', .char '.'] :: r) = resolve behind r := rfl

theorem resolve_segment {x : Text} (h : Segment x) (behind r : List Text) :
    resolve behind (x :: r) = resolve (x :: behind) r := by
  have hskip : ¬ (x = [] ∨ x = [.char '.']) := not_or.2 ⟨h.ne_nil, h.ne_dot⟩
  simp only [resolve, if_neg hskip, if_neg h.ne_dots]

/-- **The pieces of two lists are resolved one list after the other.** -/
theorem resolve_append (behind pieces more : List Text) :
    resolve behind (pieces ++ more) =
      (resolve behind pieces).bind fun segments => resolve segments.reverse more := by
  fun_induction resolve behind pieces with
  | case1 behind => simp
  | case2 behind s r hs ih => rw [List.cons_append, resolve_skip hs, ih]
  | case3 => rfl
  | case4 r b top hs ih => exact ih
  | case5 behind s r hs hd ih =>
    rw [← ih, List.cons_append]
    simp only [resolve, if_neg hs, if_neg hd]

/-- Segments without dots are left as they are. -/
theorem resolve_of_segments {pieces : List Text} (h : ∀ x ∈ pieces, Segment x)
    (behind : List Text) : resolve behind pieces = some (behind.reverse ++ pieces) := by
  induction pieces generalizing behind with
  | nil => simp
  | cons x pieces ih =>
    have hrest : ∀ y ∈ pieces, Segment y := fun y hy => h y (.tail _ hy)
    rw [resolve_segment (h x (.head _)), ih hrest]
    simp

/-- The pieces of the path of segments are resolved into the segments. -/
theorem resolve_ofSegments {segments : List Text} (h : ∀ x ∈ segments, Segment x) :
    resolve [] (Text.splitOn separator (ofSegments segments)) = some segments := by
  have hsplit : Text.splitOn separator (ofSegments segments) =
      [] :: Text.splitOn separator (Text.joinWith [separator] segments) :=
    Text.splitOn_append List.not_mem_nil _
  have hempty : resolve [] ([] :: Text.splitOn separator (Text.joinWith [separator] segments)) =
      resolve [] (Text.splitOn separator (Text.joinWith [separator] segments)) := rfl
  rw [hsplit, hempty]
  by_cases hne : segments = []
  · subst hne
    rfl
  · rw [Text.splitOn_joinWith hne fun x hx => (h x hx).no_separator, resolve_of_segments h []]
    rfl

/-- **A canonical path stands for itself.** -/
theorem normalize?_of_canonical (h : Canonical t) : normalize? t = some t := by
  obtain ⟨segments, hseg, rfl⟩ := h
  rw [normalize?, resolve_ofSegments hseg]
  rfl

/-- A text that starts with a separator is not taken for a URI. -/
theorem looksLikeUri_of_head? (h : t.head? = some separator) : looksLikeUri t = false := by
  unfold looksLikeUri
  split
  · next before behind hcut =>
    have ht := Text.eq_of_cutAt hcut
    cases before with
    | nil =>
      rw [ht] at h
      cases h
    | cons c r =>
      -- the separator in front stands before the mark
      rw [ht] at h
      cases h
      simp
  · rfl

/-- A text that starts with a scheme and its mark is taken for a URI. -/
theorem looksLikeUri_append {scheme : Text} (h : Uri.isScheme scheme = true) (r : Text) :
    looksLikeUri (scheme ++ "://".text ++ r) = true := by
  have hchar : ∀ d, Uri.isSchemeChar d = false → d ∉ scheme := fun d hd hc =>
    Uri.ne_of_isSchemeChar (Uri.isSchemeChar_of_mem h hc) hd rfl
  have hcut : Text.cutAt schemeMark (scheme ++ "://".text ++ r) = some (scheme, r) :=
    Text.cutAt_append (hchar ':' rfl) "//".text r
  rw [looksLikeUri, hcut]
  exact decide_eq_true (hchar '/' rfl)

/-- **A text that is not taken for a URI is read by the path that it stands for.** -/
theorem parse_of_not_looksLikeUri (hne : t ≠ []) (hn : .char '\x00' ∉ t)
    (hlooks : looksLikeUri t = false) (workingDir : Text) :
    parse workingDir t =
      match normalize? (absolute workingDir t) with
      | some path => .ok { path }
      | none => .error (.invalidArgument (.aboveRoot t)) := by
  have hbare : ¬ looksLikeUri t = true := by
    rw [hlooks]
    exact Bool.false_ne_true
  rw [parse_eq, if_neg hne, if_neg hn, if_neg hbare, ok_bind]
  rfl

/-- **An absolute path is read in the same way from everywhere.** -/
theorem parse_of_head? (h : t.head? = some separator) (hn : .char '\x00' ∉ t) (workingDir : Text) :
    parse workingDir t =
      match normalize? t with
      | some path => .ok { path }
      | none => .error (.invalidArgument (.aboveRoot t)) := by
  have hne : t ≠ [] := by
    rintro rfl
    cases h
  have habsolute : absolute workingDir t = t := if_pos h
  rw [parse_of_not_looksLikeUri hne hn (looksLikeUri_of_head? h), habsolute]

/-- **A canonical path without the NUL character is read as itself.** -/
theorem parse_of_canonical (h : Canonical t) (hn : .char '\x00' ∉ t) (workingDir : Text) :
    parse workingDir t = .ok { path := t } := by
  rw [parse_of_head? h.head? hn, normalize?_of_canonical h]

/-- A place whose text stands for it. -/
structure Spellable (p : NamespacePath) : Prop where
  /-- The path is canonical. -/
  canonical : Canonical p.path
  /-- The text does not hold the NUL character. -/
  no_nul : .char '\x00' ∉ p.render
  /-- The place is bare, or its text is split into its parts. -/
  bare_or_uri : p.scheme = [] ∧ p.authority = [] ∨ Uri.Spelled p.scheme p.authority p.path

/-- **The text of such a place is read as the place**, from everywhere. -/
theorem Spellable.parse_render (h : Spellable p) (workingDir : Text) :
    parse workingDir p.render = .ok p := by
  obtain ⟨path, scheme, authority⟩ := p
  have hn := h.no_nul
  rcases h.bare_or_uri with ⟨hs, ha⟩ | huri
  · dsimp only at hs ha
    subst hs ha
    exact parse_of_canonical h.canonical hn workingDir
  · dsimp only at huri
    have hscheme : scheme ≠ [] := by
      rintro rfl
      cases huri.isScheme
    have hrender : render ⟨path, scheme, authority⟩ =
        scheme ++ "://".text ++ authority ++ path := if_neg hscheme
    have hne : scheme ++ "://".text ++ authority ++ path ≠ [] := by simp [hscheme]
    have hlooks : looksLikeUri (scheme ++ "://".text ++ authority ++ path) = true := by
      rw [List.append_assoc]
      exact looksLikeUri_append huri.isScheme (authority ++ path)
    have hpath : path ≠ [] := by
      rintro rfl
      cases huri.absolute
    rw [hrender] at hn ⊢
    rw [parse_eq, if_neg hne, if_neg hn, if_pos hlooks, splitUri, Uri.split_of_spelled huri]
    simp only [hscheme, hpath, if_false, ne_eq, not_true, or_self, ok_bind, settle, absolute,
      huri.absolute, separator, if_true]
    rw [normalize?_of_canonical h.canonical]

/-! ### Places that were read -/

/-- A character that does not come into the path of a URI. -/
def isOutsidePath (c : CodePoint) : Bool :=
  c == '\x00' || c == '?' || c == '#' || Uri.isLeftOut c

/-- What is left of the pieces was one of them. -/
theorem mem_of_resolve {behind pieces segments : List Text} {x : Text}
    (h : resolve behind pieces = some segments) (hx : x ∈ segments) :
    x ∈ behind ∨ x ∈ pieces := by
  fun_induction resolve behind pieces with
  | case1 behind =>
    cases h
    exact .inl (List.mem_reverse.1 hx)
  | case2 behind s r _ ih => exact (ih h).imp_right (List.mem_cons_of_mem s)
  | case3 => cases h
  | case4 r b _ _ ih => exact (ih h).imp (List.mem_cons_of_mem _) (List.mem_cons_of_mem _)
  | case5 behind s r _ _ ih =>
    rcases ih h with hx | hx
    · rcases List.mem_cons.1 hx with rfl | hx
      · exact .inr (.head _)
      · exact .inl hx
    · exact .inr (.tail _ hx)

/-- A path holds nothing but separators and what the text holds. -/
theorem mem_of_normalize? (h : normalize? t = some path) (hc : c ∈ path) :
    c = separator ∨ c ∈ t := by
  obtain ⟨segments, hs, rfl⟩ := Option.map_eq_some_iff.1 h
  rcases List.mem_cons.1 hc with rfl | hc
  · exact .inl rfl
  · rcases Text.mem_joinWith hc with hc | ⟨x, hx, hc⟩
    · exact .inl (List.mem_singleton.1 hc)
    · rcases mem_of_resolve hs hx with hx | hx
      · cases hx
      · exact .inr (Text.mem_of_mem_splitOn hx hc)

/-- A text seen from a working directory holds nothing but what the two hold. -/
theorem mem_of_mem_absolute (h : c ∈ absolute workingDir t) :
    c = separator ∨ c ∈ workingDir ∨ c ∈ t := by
  unfold absolute at h
  split at h
  · exact .inr (.inr h)
  · rcases List.mem_append.1 h with h | h
    · exact .inr (.inl (Text.mem_of_mem_dropTrailing h))
    · exact (List.mem_cons.1 h).imp_right .inr

/-- What stays of the parts of a path when it is settled. -/
theorem settle_eq_ok (h : settle workingDir raw q = .ok p) :
    p.scheme = q.scheme ∧ p.authority = q.authority ∧
      ∀ c ∈ p.path, c = separator ∨ c ∈ workingDir ∨ c ∈ q.path := by
  unfold settle at h
  split at h
  · next path hpath =>
    cases h
    refine ⟨rfl, rfl, fun c hc => ?_⟩
    rcases mem_of_normalize? hpath hc with hc | hc
    · exact .inl hc
    · exact mem_of_mem_absolute hc
  · cases h

/-- Reading takes two steps: the text gives the parts of a place, and they are settled. -/
theorem parse_eq_ok_iff :
    parse workingDir raw = .ok p ↔ raw ≠ [] ∧ .char '\x00' ∉ raw ∧
      ∃ q, (if looksLikeUri raw then splitUri raw else .ok { path := raw }) = .ok q ∧
        settle workingDir raw q = .ok p := by
  rw [parse_eq]
  by_cases h₁ : raw = []
  · simp [h₁]
  · by_cases h₂ : .char '\x00' ∈ raw
    · simp [h₁, h₂]
    · rw [if_neg h₁, if_neg h₂, bind_eq_ok]
      exact ⟨fun h => ⟨h₁, h₂, h⟩, fun h => h.2.2⟩

theorem parse_eq_ok (h : parse workingDir raw = .ok p) :
    .char '\x00' ∉ raw ∧
      ∃ q, (if looksLikeUri raw then splitUri raw else .ok { path := raw }) = .ok q ∧
      settle workingDir raw q = .ok p :=
  (parse_eq_ok_iff.1 h).2

/-- A URI must have a scheme, and neither a query nor a fragment. -/
theorem splitUri_eq_ok :
    splitUri raw = .ok p ↔ ∃ u, Uri.split raw = .ok u ∧ u.scheme ≠ [] ∧
      (u.query = [] ∧ u.fragment = []) ∧
      p = ⟨if u.path = [] then [separator] else u.path, u.scheme, u.authority⟩ := by
  unfold splitUri
  cases Uri.split raw with
  | error fault => simp
  | ok u =>
    by_cases hs : u.scheme = []
    · simp [hs]
    · by_cases hq : u.query ≠ [] ∨ u.fragment ≠ []
      · have hnot : ¬ (u.query = [] ∧ u.fragment = []) := fun h => hq.elim (· h.1) (· h.2)
        simp [hs, hq, hnot]
      · have hempty : u.query = [] ∧ u.fragment = [] := by simpa [not_or] using hq
        simp [hs, hempty, eq_comm]

/-- The path of a URI holds none of these characters. -/
theorem not_isOutsidePath_of_split {u : Uri} (hu : Uri.split raw = .ok u) (hn : .char '\x00' ∉ raw)
    (hc : c ∈ u.path) : isOutsidePath c = false := by
  obtain ⟨rest, -, -, -, -, hpath⟩ := Uri.split_eq_ok hu
  have hkept : Uri.isLeftOut c = false :=
    Uri.not_isLeftOut_of_split hu (List.mem_append_left _
      (List.mem_append_left _ (List.mem_append_right _ hc)))
  have hnul : c ≠ '\x00' := by
    rintro rfl
    exact hn (Uri.mem_of_split hu (List.mem_append_right _ hc))
  rw [hpath] at hc
  have hquery : c ≠ '?' := by
    rintro rfl
    exact Uri.not_mem_fst_splitAt '?' _ hc
  have hfragment : c ≠ '#' := by
    rintro rfl
    exact Uri.not_mem_fst_splitAt '#' rest (Uri.mem_of_splitAt (List.mem_append_left _ hc))
  simp [isOutsidePath, hkept, hnul, hquery, hfragment]

/-- A character that may stand in a path is none of those that may not. -/
theorem ne_of_not_isOutsidePath {d : CodePoint} (hc : isOutsidePath c = false)
    (hd : isOutsidePath d = true) : c ≠ d := by
  rintro rfl
  rw [hc] at hd
  cases hd

theorem not_isLeftOut_of_not_isOutsidePath (hc : isOutsidePath c = false) :
    Uri.isLeftOut c = false := by
  simp only [isOutsidePath, Bool.or_eq_false_iff] at hc
  exact hc.2

/-- The parts of a URI whose path was settled are split off again. -/
theorem spelled_of_split {u : Uri} (hw : ∀ c ∈ workingDir, isOutsidePath c = false)
    (hn : .char '\x00' ∉ raw) (hu : Uri.split raw = .ok u) (hs : u.scheme ≠ [])
    (hp : settle workingDir raw
      ⟨if u.path = [] then [separator] else u.path, u.scheme, u.authority⟩ = .ok p)
    (hcanonical : Canonical p.path) :
    (∀ c ∈ p.path, isOutsidePath c = false) ∧ Uri.Spelled p.scheme p.authority p.path := by
  obtain ⟨hscheme, hauthority, hmem⟩ := settle_eq_ok hp
  dsimp only at hscheme hauthority hmem
  obtain ⟨rest, ha, hb, hd, hfirst, -⟩ := Uri.split_eq_ok hu
  have hpath : ∀ c ∈ p.path, isOutsidePath c = false := by
    intro c hc
    rcases hmem c hc with rfl | hc | hc
    · rfl
    · exact hw c hc
    · split at hc
      · rw [List.mem_singleton.1 hc]
        rfl
      · exact not_isOutsidePath_of_split hu hn hc
  rw [hscheme, hauthority]
  refine ⟨hpath, ?_⟩
  -- the scheme of a split is one that was put into lower case
  rw [hfirst] at hs
  obtain ⟨s, hs, hlower, -⟩ := Uri.isScheme_of_splitScheme hs
  rw [← hfirst] at hlower
  constructor
  case isScheme => rw [hlower, Uri.isScheme_map_toLower, hs]
  case lower =>
    rw [hlower, List.map_map]
    exact congrArg (List.map · s) (funext Uri.toLower_toLower)
  case open_ =>
    intro c hc
    have : c ∈ (Uri.splitAuthority (Uri.splitScheme (Uri.cleaned raw)).2).1 := by rwa [ha]
    exact Uri.not_endsAuthority this
  case brackets => exact hb
  case delimiters => exact hd
  case absolute => exact hcanonical.head?
  case no_query => exact fun hc => ne_of_not_isOutsidePath (hpath _ hc) (d := '?') rfl rfl
  case no_fragment => exact fun hc => ne_of_not_isOutsidePath (hpath _ hc) (d := '#') rfl rfl
  case kept =>
    intro c hc
    rcases List.mem_append.1 hc with hc | hc
    · exact Uri.not_isLeftOut_of_split hu (List.mem_append_left _
        (List.mem_append_left _ (List.mem_append_left _ (List.mem_append_right _ hc))))
    · exact not_isLeftOut_of_not_isOutsidePath (hpath c hc)

/-- A place that was read has a text that stands for it. -/
theorem spellable_of_parse (hw : ∀ c ∈ workingDir, isOutsidePath c = false)
    (h : parse workingDir raw = .ok p) : Spellable p := by
  have hcanonical := canonical_of_parse h
  obtain ⟨hn, q, hq, hp⟩ := parse_eq_ok h
  by_cases hlooks : looksLikeUri raw = true
  · rw [if_pos hlooks] at hq
    obtain ⟨u, hu, hs, -, rfl⟩ := splitUri_eq_ok.1 hq
    obtain ⟨hpath, huri⟩ := spelled_of_split hw hn hu hs hp hcanonical
    refine ⟨hcanonical, fun hc => ?_, .inr huri⟩
    obtain ⟨hscheme, hauthority, -⟩ := settle_eq_ok hp
    dsimp only at hscheme hauthority
    -- a NUL would have come from the text, or from the working directory
    rw [render, if_neg (hscheme ▸ hs), List.mem_append, List.mem_append, List.mem_append] at hc
    rcases hc with ((hc | hc) | hc) | hc
    · exact Uri.ne_of_isSchemeChar (d := '\x00') (Uri.isSchemeChar_of_mem huri.isScheme hc) rfl rfl
    · exact absurd hc (by decide)
    · exact hn (Uri.mem_of_split hu (List.mem_append_left _ (hauthority ▸ hc)))
    · exact ne_of_not_isOutsidePath (hpath _ hc) (d := '\x00') rfl rfl
  · rw [if_neg hlooks] at hq
    cases hq
    obtain ⟨hscheme, hauthority, hmem⟩ := settle_eq_ok hp
    refine ⟨hcanonical, fun hc => ?_, .inl ⟨hscheme, hauthority⟩⟩
    rw [render, if_pos hscheme] at hc
    rcases hmem _ hc with hc | hc | hc
    · cases hc
    · exact ne_of_not_isOutsidePath (hw _ hc) (d := '\x00') rfl rfl
    · exact hn hc

/-- **The text of a place that was read is read as that place**, from any working
directory. -/
theorem parse_render_of_parse (hw : ∀ c ∈ workingDir, isOutsidePath c = false)
    (h : parse workingDir raw = .ok p) (other : Text) : parse other p.render = .ok p :=
  (spellable_of_parse hw h).parse_render other

/-- **The places whose text stands for them are those that are read**, from a working
directory that a URI can have in its path. -/
theorem spellable_iff :
    Spellable p ↔ ∃ workingDir raw, (∀ c ∈ workingDir, isOutsidePath c = false) ∧
      parse workingDir raw = .ok p := by
  constructor
  · intro h
    exact ⟨[], p.render, nofun, h.parse_render []⟩
  · rintro ⟨workingDir, raw, hw, h⟩
    exact spellable_of_parse hw h

/-- Different places have different texts. -/
theorem Spellable.render_ne (hp : Spellable p) (hq : Spellable q) (hne : q ≠ p) :
    q.render ≠ p.render := by
  intro he
  have hread := hq.parse_render []
  rw [he, hp.parse_render []] at hread
  exact hne (Except.ok.inj hread).symm

/-- **The texts of places are read back.**  The text of a place that was read stands for
the place, scheme and authority included, and does so from every working directory;
so no other place has that text.  The readings start from working directories without
the characters that do not come into the path of a URI. -/
theorem reading_of_render (workingDir raw : Text) (p : NamespacePath)
    (hw : ∀ c ∈ workingDir, isOutsidePath c = false) (h : parse workingDir raw = .ok p) :
    (∀ other, parse other p.render = .ok p) ∧
    ∀ workingDir' raw' q, (∀ c ∈ workingDir', isOutsidePath c = false) →
      parse workingDir' raw' = .ok q → q ≠ p → q.render ≠ p.render := by
  have hp : Spellable p := spellable_of_parse hw h
  constructor
  · intro other
    exact hp.parse_render other
  · intro workingDir' raw' q hw' hq hne
    exact hp.render_ne (spellable_of_parse hw' hq) hne

/-- A scheme that ends at a colon before the mark, with a path below the working directory. -/
theorem reading_of_render_early_colon :
    (∀ c ∈ "/w".text, isOutsidePath c = false) ∧
      parse "/w".text " A:b://c".text = .ok ⟨"/w/b:/c".text, "a".text, []⟩ ∧
      parse "/other".text "a:///w/b:/c".text = .ok ⟨"/w/b:/c".text, "a".text, []⟩ ∧
      "/w/b:/c".text ≠ "a:///w/b:/c".text := by
  have hw : ∀ c ∈ "/w".text, isOutsidePath c = false := by
    intro c hc
    have hc : c = '/' ∨ c = 'w' := by simpa [String.text, Text.ofChars] using hc
    rcases hc with rfl | rfl <;> rfl
  have hread := reading_of_render "/w".text " A:b://c".text
    ⟨"/w/b:/c".text, "a".text, []⟩ hw rfl
  refine ⟨hw, rfl, hread.1 "/other".text, ?_⟩
  exact hread.2 "/w".text "b:/c".text ⟨"/w/b:/c".text, [], []⟩ hw rfl (by decide)

end NamespacePath

end CodingPolicy
