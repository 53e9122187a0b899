/-
CodingPolicy/Uri/Basic.lean

Splitting a URI into its five parts: scheme, authority, path, query and
fragment. Control characters and spaces in front are left out, and so is every
tab, line feed and carriage return. A scheme is a letter and then letters,
digits, plus, minus and dots, and is put into lower case. An authority follows
two slashes and ends before the next slash, question mark or hash sign. A host
in brackets must be an address.

Main results: no part of a split holds a character that is left out
(`not_isLeftOut_of_split`), and a scheme is a scheme (`isScheme_of_splitScheme`).
-/
import CodingPolicy.Text.Quoted
import CodingPolicy.Uri.Host

namespace CodingPolicy

/-- The parts of a URI; a part that is missing is empty. -/
structure Uri where
  /-- The name before the first colon. -/
  scheme : Text
  /-- What follows the two slashes. -/
  authority : Text
  /-- The path. -/
  path : Text
  /-- What follows the question mark. -/
  query : Text
  /-- What follows the hash sign. -/
  fragment : Text
  deriving DecidableEq, Repr

namespace Uri

/-- Why a text cannot be split. -/
inductive Fault where
  /-- The brackets in the authority do not enclose the host. -/
  | misplacedBrackets
  /-- The host in brackets starts like an address of a later version and is none. -/
  | badLaterVersion
  /-- The host in brackets is an address of four octets. -/
  | octetsInBrackets
  /-- The host in brackets is no address. -/
  | noAddress (host : Text)
  /-- The authority has a character that stands for a delimiter. -/
  | hiddenDelimiter (authority : Text)
  deriving DecidableEq, Repr

/-- The fault in words. -/
def Fault.message : Fault → Text
  | misplacedBrackets => "Invalid IPv6 URL".text
  | badLaterVersion => "IPvFuture address is invalid".text
  | octetsInBrackets => "An IPv4 address cannot be in brackets".text
  | noAddress host => Text.quote host ++ " does not appear to be an IPv4 or IPv6 address".text
  | hiddenDelimiter authority =>
    "netloc '".text ++ authority
      ++ "' contains invalid characters under NFKC normalization".text

/-! ### Characters -/

/-- A control character or a space. -/
def isControlOrSpace (c : CodePoint) : Bool :=
  c.toNat ≤ 0x20

/-- A character that is left out wherever it stands. -/
def isLeftOut (c : CodePoint) : Bool :=
  c == '\t' || c == '\n' || c == '\r'

/-- A character that a scheme may have after its first letter. -/
def isSchemeChar (c : CodePoint) : Bool :=
  c.isAlphanum || c == '+' || c == '-' || c == '.'

/-- A character that ends an authority. -/
def endsAuthority (c : CodePoint) : Bool :=
  c == '/' || c == '?' || c == '#'

/-- The characters whose compatibility form holds one of the delimiters
slash, question mark, hash sign, at sign and colon. -/
def hiddenDelimiters : List Nat :=
  [0x2047, 0x2048, 0x2049, 0x2100, 0x2101, 0x2105, 0x2106, 0x2a74, 0xfe13, 0xfe16, 0xfe55, 0xfe56,
    0xfe5f, 0xfe6b, 0xff03, 0xff0f, 0xff1a, 0xff1f, 0xff20]

/-! ### Parts -/

/-- The text without what is left out. -/
def cleaned (t : Text) : Text :=
  (t.dropWhile isControlOrSpace).filter fun c => !isLeftOut c

/-- The text is a scheme: a letter, then scheme characters. -/
def isScheme (t : Text) : Bool :=
  match t with
  | [] => false
  | c :: r => c.isAlpha && r.all isSchemeChar

/-- The scheme in lower case, empty where there is none, and the rest. -/
def splitScheme (t : Text) : Text × Text :=
  match Text.cutAt [.char ':'] t with
  | some (scheme, rest) => if isScheme scheme then (scheme.map CodePoint.toLower, rest) else ([], t)
  | none => ([], t)

/-- The authority, empty where there is none, and the rest. -/
def splitAuthority (t : Text) : Text × Text :=
  match t with
  | .char '/' :: .char '/' :: r =>
    (r.takeWhile fun c => !endsAuthority c, r.dropWhile fun c => !endsAuthority c)
  | _ => ([], t)

/-- The text before the mark and the text after it, which is empty where there
is no mark. -/
def splitAt (mark : CodePoint) (t : Text) : Text × Text :=
  (Text.cutAt [mark] t).getD (t, [])

/-- The host between brackets is an address that may stand there. -/
def checkBracketed (host : Text) : Except Fault Unit :=
  if host.head? = some (.char 'v') then
    if Host.isLaterVersion host then .ok () else .error .badLaterVersion
  else if Host.isFourOctets host then .error .octetsInBrackets
  else if Host.isGroupsWithZone host then .ok ()
  else .error (.noAddress host)

/-- The brackets in an authority, if any, enclose the host: they come right
after the user part, and only a port may follow. -/
def checkBrackets (authority : Text) : Except Fault Unit :=
  if .char '[' ∉ authority ∧ .char ']' ∉ authority then .ok ()
  else if .char '[' ∉ authority ∨ .char ']' ∉ authority then .error .misplacedBrackets
  else
    let hostAndPort := Text.afterLast '@' authority
    match Text.cutAt [.char '['] hostAndPort with
    | some ([], r) =>
      let (host, rest) := splitAt ']' r
      if rest = [] ∨ rest.head? = some (.char ':') then checkBracketed host
      else .error .misplacedBrackets
    | some _ => .error .misplacedBrackets
    | none => checkBracketed (splitAt ':' hostAndPort).1

/-- No character of the authority stands for a delimiter. -/
def checkDelimiters (authority : Text) : Except Fault Unit :=
  if authority.any fun c => c.toNat ∈ hiddenDelimiters then .error (.hiddenDelimiter authority)
  else .ok ()

/-- The parts of a URI. -/
def split (t : Text) : Except Fault Uri := do
  let (scheme, r) := splitScheme (cleaned t)
  let (authority, r) := splitAuthority r
  checkBrackets authority
  checkDelimiters authority
  let (r, fragment) := splitAt '#' r
  let (path, query) := splitAt '?' r
  return { scheme, authority, path, query, fragment }

/-! ### What a split keeps -/

theorem not_isLeftOut_of_mem_cleaned {t : Text} {c : CodePoint} (h : c ∈ cleaned t) :
    isLeftOut c = false := by
  have := (List.mem_filter.1 h).2
  simpa using this

/-- Lower case is a matter of the first 128 characters: what holds of them, and
of every character that is its own lower case, holds of all. -/
theorem toLower_induction {P : CodePoint → Prop} (hfirst : ∀ n < 128, P (CodePoint.ofNat n))
    (hself : ∀ c : CodePoint, c.toLower = c → P c) (c : CodePoint) : P c := by
  cases c with
  | surrogate n => exact hself _ rfl
  | char c =>
    by_cases h : c.val ≥ 'A'.val ∧ c.val ≤ 'Z'.val
    · have hc : c.toNat < 128 := by
        have := UInt32.le_iff_toNat_le.1 h.2
        have e : c.toNat = c.val.toNat := rfl
        have : 'Z'.val.toNat = 90 := rfl
        omega
      have hp := hfirst c.toNat hc
      rwa [← CodePoint.toNat_char, CodePoint.ofNat_toNat] at hp
    · exact hself _ (congrArg CodePoint.char (dif_neg h))

theorem isLeftOut_toLower (c : CodePoint) : isLeftOut c.toLower = isLeftOut c :=
  toLower_induction (P := fun c => isLeftOut c.toLower = isLeftOut c) (by decide)
    (fun c hc => by rw [hc]) c

/-- A cut keeps to the characters of the text. -/
theorem mem_of_splitAt {mark : CodePoint} {t : Text} {c : CodePoint}
    (h : c ∈ (splitAt mark t).1 ++ (splitAt mark t).2) : c ∈ t := by
  unfold splitAt at h
  rcases e : Text.cutAt [mark] t with - | ⟨a, b⟩
  · simpa [e] using h
  · rw [Text.eq_of_cutAt e]
    simp only [e, Option.getD_some, List.mem_append] at h ⊢
    rcases h with h | h <;> simp [h]

theorem mem_of_splitAuthority {t : Text} {c : CodePoint}
    (h : c ∈ (splitAuthority t).1 ++ (splitAuthority t).2) : c ∈ t := by
  unfold splitAuthority at h
  split at h
  · simp only [List.takeWhile_append_dropWhile] at h
    simp [h]
  · simpa using h

/-- **What is told apart as a scheme is one, in lower case.** -/
theorem isScheme_of_splitScheme {t : Text} (h : (splitScheme t).1 ≠ []) :
    ∃ s : Text, isScheme s = true ∧ (splitScheme t).1 = s.map CodePoint.toLower
      ∧ t = s ++ .char ':' :: (splitScheme t).2 := by
  unfold splitScheme at h ⊢
  rcases e : Text.cutAt [.char ':'] t with - | ⟨s, r⟩
  · simp [e] at h
  · by_cases hs : isScheme s = true
    · refine ⟨s, hs, by simp [hs], ?_⟩
      have := Text.eq_of_cutAt e
      simpa [hs] using this
    · simp [e, hs] at h

theorem not_isLeftOut_of_splitScheme {t : Text} (ht : ∀ c ∈ t, isLeftOut c = false) {c : CodePoint}
    (h : c ∈ (splitScheme t).1 ++ (splitScheme t).2) : isLeftOut c = false := by
  by_cases hs : (splitScheme t).1 = []
  · unfold splitScheme at h hs
    rcases e : Text.cutAt [.char ':'] t with - | ⟨s, r⟩
    · exact ht c (by simpa [e] using h)
    · by_cases hb : isScheme s = true
      · have hn : s = [] := by simpa [e, hb] using hs
        simp [hn, isScheme] at hb
      · exact ht c (by simpa [e, hb] using h)
  · obtain ⟨s, -, hl, he⟩ := isScheme_of_splitScheme hs
    rw [he] at ht
    rcases List.mem_append.1 h with h | h
    · rw [hl] at h
      obtain ⟨d, hd, rfl⟩ := List.mem_map.1 h
      rw [isLeftOut_toLower]
      exact ht d (by simp [hd])
    · exact ht c (by simp [h])

/-- **No part of a split holds a character that is left out.** -/
theorem not_isLeftOut_of_split {t : Text} {u : Uri} (hu : split t = .ok u) {c : CodePoint}
    (h : c ∈ u.scheme ++ u.authority ++ u.path ++ u.query ++ u.fragment) :
    isLeftOut c = false := by
  have h₁ : ∀ d ∈ (splitScheme (cleaned t)).1 ++ (splitScheme (cleaned t)).2,
      isLeftOut d = false :=
    fun d hd => not_isLeftOut_of_splitScheme (fun _ => not_isLeftOut_of_mem_cleaned) hd
  have h₂ : ∀ d ∈ (splitAuthority (splitScheme (cleaned t)).2).1
      ++ (splitAuthority (splitScheme (cleaned t)).2).2, isLeftOut d = false :=
    fun d hd => h₁ d (List.mem_append_right _ (mem_of_splitAuthority hd))
  have h₃ : ∀ d ∈ (splitAt '#' (splitAuthority (splitScheme (cleaned t)).2).2).1
      ++ (splitAt '#' (splitAuthority (splitScheme (cleaned t)).2).2).2, isLeftOut d = false :=
    fun d hd => h₂ d (List.mem_append_right _ (mem_of_splitAt hd))
  have h₄ : ∀ d ∈ (splitAt '?' (splitAt '#' (splitAuthority (splitScheme (cleaned t)).2).2).1).1
      ++ (splitAt '?' (splitAt '#' (splitAuthority (splitScheme (cleaned t)).2).2).1).2,
      isLeftOut d = false :=
    fun d hd => h₃ d (List.mem_append_left _ (mem_of_splitAt hd))
  simp only [split, bind, Except.bind] at hu
  split at hu
  · simp at hu
  · split at hu
    · simp at hu
    · simp only [pure, Except.pure, Except.ok.injEq] at hu
      subst hu
      simp only [List.mem_append] at h h₁ h₂ h₃ h₄
      rcases h with (((h | h) | h) | h) | h
      · exact h₁ c (.inl h)
      · exact h₂ c (.inl h)
      · exact h₄ c (.inl h)
      · exact h₄ c (.inr h)
      · exact h₃ c (.inr h)

end Uri

end CodingPolicy
