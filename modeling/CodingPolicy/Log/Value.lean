/-
CodingPolicy/Log/Value.lean

Values that events carry, and their JSON form. Texts, numbers and truth values
stay as they are, and so do lists and maps of them; everything else is logged
by its text. The keys of a map become texts too: first keys that are equal as
values fall together, then keys of one text, and both times the later value
counts, at the place of the earlier key.
-/
import CodingPolicy.Command.Spec
import CodingPolicy.Disk.FilePath
import CodingPolicy.Namespace.Path

namespace CodingPolicy.Log

/-- A value that an event carries. -/
inductive Value where
  /-- Nothing. -/
  | null
  /-- A truth value. -/
  | bool (value : Bool)
  /-- A whole number. -/
  | int (value : Int)
  /-- A floating-point number. -/
  | float (value : Number.Binary64)
  /-- A text. -/
  | text (value : Text)
  /-- Bytes. -/
  | bytes (value : List UInt8)
  /-- The name of a file. -/
  | file (value : FilePath)
  /-- A place in the namespace. -/
  | place (value : NamespacePath)
  /-- The name of a command. -/
  | command (value : Command.Name)
  /-- A failure. -/
  | failure (value : Failure)
  /-- A list. -/
  | list (items : List Value)
  /-- A list of fixed length. -/
  | tuple (items : List Value)
  /-- A collection without order. -/
  | set (items : List Value)
  /-- Values by keys. -/
  | map (entries : List (Value × Value))
  deriving Inhabited

namespace Value

/-! ### Equal keys -/

/-- The whole number that a number or a truth value is equal to. -/
def toInt? : Value → Option Int
  | bool b => some (if b then 1 else 0)
  | int i => some i
  | float x => x.toInt?
  | _ => none

/-- The text that a text or the name of a command is equal to. -/
def toText? : Value → Option Text
  | text t => some t
  | command n => some n.text
  | _ => none

mutual

/-- The values are equal as keys: numbers by their value, texts by their
characters, fixed lists item by item. A failure is equal to no other. -/
def sameKey : Value → Value → Bool
  | null, null => true
  | bytes a, bytes b => a == b
  | file a, file b => a = b
  | place a, place b => a = b
  | tuple a, tuple b => sameKeys a b
  | float a, float b =>
    match a.toInt?, b.toInt? with
    | some i, some j => i == j
    | none, none => a = b && a ≠ .nan
    | _, _ => false
  | a, b =>
    match toInt? a, toInt? b with
    | some i, some j => i == j
    | _, _ =>
      match toText? a, toText? b with
      | some s, some t => s == t
      | _, _ => false

/-- The items are equal as keys, one by one. -/
def sameKeys : List Value → List Value → Bool
  | [], [] => true
  | a :: r, b :: s => sameKey a b && sameKeys r s
  | _, _ => false

end

/-- The entries with the value at the key, in the place of an equal key or at
the end. -/
def insertKey (k v : Value) : List (Value × Value) → List (Value × Value)
  | [] => [(k, v)]
  | e :: r => if sameKey e.1 k then (e.1, v) :: r else e :: insertKey k v r

/-- A map of entries in which equal keys have fallen together. -/
def mapOf (entries : List (Value × Value)) : Value :=
  map (entries.foldl (fun l e => insertKey e.1 e.2 l) [])

/-- The values have pairwise different keys. -/
def DistinctKeys (entries : List (Value × Value)) : Prop :=
  (entries.map Prod.fst).Pairwise fun a b => sameKey a b = false

/-- A value that is put in has the key of an entry or comes behind all of them. -/
theorem map_fst_insertKey (k v : Value) (entries : List (Value × Value)) :
    (insertKey k v entries).map Prod.fst = entries.map Prod.fst ∨
      (∀ e ∈ entries, sameKey e.1 k = false) ∧
        (insertKey k v entries).map Prod.fst = entries.map Prod.fst ++ [k] := by
  induction entries with
  | nil => exact .inr ⟨nofun, rfl⟩
  | cons e entries ih =>
    rw [insertKey]
    split
    · exact .inl rfl
    · next he =>
      rcases ih with ih | ⟨hno, ih⟩
      · left
        rw [List.map_cons, ih, List.map_cons]
      · right
        rw [List.map_cons, ih]
        exact ⟨List.forall_mem_cons.2 ⟨eq_false_of_ne_true he, hno⟩, rfl⟩

theorem DistinctKeys.insertKey {entries : List (Value × Value)} (h : DistinctKeys entries)
    (k v : Value) : DistinctKeys (insertKey k v entries) := by
  unfold DistinctKeys
  rcases map_fst_insertKey k v entries with he | ⟨hno, he⟩
  · rw [he]
    exact h
  · rw [he, List.pairwise_append]
    refine ⟨h, List.pairwise_singleton _ _, fun a ha b hb => ?_⟩
    obtain ⟨e, hmem, rfl⟩ := List.mem_map.1 ha
    rw [List.mem_singleton.1 hb]
    exact hno e hmem

/-- **In a map equal keys have fallen together.** -/
theorem distinctKeys_mapOf (entries : List (Value × Value)) :
    ∃ distinct, mapOf entries = map distinct ∧ DistinctKeys distinct := by
  have hfold (start : List (Value × Value)) (h : DistinctKeys start) :
      DistinctKeys (entries.foldl (fun l e => insertKey e.1 e.2 l) start) := by
    induction entries generalizing start with
    | nil => exact h
    | cons e entries ih => exact ih _ (h.insertKey e.1 e.2)
  exact ⟨_, rfl, hfold [] .nil⟩

/-! ### As text -/

/-- Texts with a comma and a space between them. -/
def listed (items : List Text) : Text :=
  Text.joinWith ", ".text items

/-- The text of a fixed list; a single item has a comma behind it. -/
def tupleText : List Text → Text
  | [a] => .char '(' :: a ++ [.char ',', .char ')']
  | items => .char '(' :: listed items ++ [.char ')']

/-- The literal of a failure: its kind, and its details in brackets. -/
def failureLiteral (f : Failure) : Text :=
  f.kind ++ .char '(' :: listed (f.details.map Detail.quoted) ++ [.char ')']

/-- The literal of a place, with its parts by name. -/
def placeLiteral (p : NamespacePath) : Text :=
  said "NamespacePath(path=" (Text.quote p.path ++ said ", scheme=" (Text.quote p.scheme
    ++ said ", authority=" (Text.quote p.authority ++ [.char ')'])))

/-- The literal of a command's name: its label and its text. -/
def commandLiteral (n : Command.Name) : Text :=
  said "<CommandName." (n.label ++ said ": " (Text.quote n.text ++ [.char '>']))

mutual

/-- The literal of a value. -/
def literal : Value → Text
  | null => "None".text
  | bool true => "True".text
  | bool false => "False".text
  | int i => Number.intText i
  | float x => x.text
  | text t => Text.quote t
  | bytes b => Text.quoteBytes b
  | file p => said "PosixPath(" (Text.quote p.render ++ [.char ')'])
  | place p => placeLiteral p
  | command n => commandLiteral n
  | failure f => failureLiteral f
  | list items => .char '[' :: listed (literals items) ++ [.char ']']
  | tuple items => tupleText (literals items)
  | set [] => "set()".text
  | set items => .char '{' :: listed (literals items) ++ [.char '}']
  | map entries => .char '{' :: listed (entryLiterals entries) ++ [.char '}']

/-- The literals of the items of a list. -/
def literals : List Value → List Text
  | [] => []
  | v :: r => literal v :: literals r

/-- The literals of the entries of a map. -/
def entryLiterals : List (Value × Value) → List Text
  | [] => []
  | (k, v) :: r => (literal k ++ said ": " (literal v)) :: entryLiterals r

end

/-- The value as it is shown: some values have a text of their own, the others
are shown as literals. -/
def display : Value → Text
  | text t => t
  | file p => p.render
  | place p => p.render
  | command n => n.text
  | failure f => f.message
  | v => literal v

/-! ### As JSON -/

mutual

/-- The JSON form of a value. -/
def toJson : Value → Json
  | null => .null
  | bool b => .bool b
  | int i => .int i
  | float x => .float x
  | text t => .string t
  | command n => .string n.text
  | bytes b => .string (Text.quoteBytes b)
  | file p => .string p.render
  | place p => .string p.render
  | failure f => .string f.message
  | list items => .array (toJsons items)
  | tuple items => .array (toJsons items)
  | set items => .array (toJsons items)
  | map entries => .object (Entries.merge [] (toMembers entries))

/-- The JSON forms of the items of a list. -/
def toJsons : List Value → List Json
  | [] => []
  | v :: r => toJson v :: toJsons r

/-- The members of the object of a map. -/
def toMembers : List (Value × Value) → List (Text × Json)
  | [] => []
  | (k, v) :: r => (display k, toJson v) :: toMembers r

end

end Value

end CodingPolicy.Log
