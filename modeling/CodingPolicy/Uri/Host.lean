/-
CodingPolicy/Uri/Host.lean

Hosts given as addresses: four decimal octets, or up to eight groups of
hexadecimal digits, where one run of zero groups may be left out and the last
two groups may be written as four octets.
-/
import CodingPolicy.Number.Digits

namespace CodingPolicy.Uri.Host

/-! ### Four octets -/

/-- A decimal number up to 255, without leading zeros. -/
def isOctet (t : Text) : Bool :=
  t ≠ [] && t.all CodePoint.isDigit && t.length ≤ 3
    && (t = [.char '0'] || t.head? ≠ some (.char '0')) && Number.ofDigits t ≤ 255

/-- Four octets between dots. -/
def isFourOctets (t : Text) : Bool :=
  let parts := Text.splitOn '.' t
  parts.length == 4 && parts.all isOctet

/-! ### Eight groups -/

/-- One to four hexadecimal digits. -/
def isGroup (t : Text) : Bool :=
  t ≠ [] && t.length ≤ 4 && t.all fun c => (Number.hexValue? c).isSome

/-- The parts between colons, four octets at the end counted as two groups;
nothing if the last part has a dot and is not four octets. -/
def groupParts? (t : Text) : Option (List Text) :=
  let parts := Text.splitOn ':' t
  match parts.getLast? with
  | some last =>
    if .char '.' ∈ last then
      if isFourOctets last then some (parts.dropLast ++ [[.char '0'], [.char '0']]) else none
    else some parts
  | none => some parts

/-- The parts on one side of the gap: groups, or nothing but the empty part
that the text's own end leaves. -/
def isSide (parts : List Text) : Bool :=
  parts = [[]] || parts.all isGroup

/-- The number of groups on one side of the gap. -/
def sideLength (parts : List Text) : Nat :=
  if parts = [[]] then 0 else parts.length

/-- The places of the empty parts, the two ends not counted. -/
def gaps (parts : List Text) : List Nat :=
  (List.range parts.length).filter fun i =>
    0 < i && i + 1 < parts.length && parts[i]? == some []

/-- Eight groups, or fewer with one gap. -/
def isGroups (t : Text) : Bool :=
  if t.count (.char ':') < 2 then false
  else
    match groupParts? t with
    | none => false
    | some parts =>
      match gaps parts with
      | [] => parts.length == 8 && parts.all isGroup
      | [gap] =>
        let before := parts.take gap
        let after := parts.drop (gap + 1)
        parts.length ≤ 9 && isSide before && isSide after
          && sideLength before + sideLength after < 8
      | _ => false

/-- Groups, with or without the name of a zone after a percent sign. -/
def isGroupsWithZone (t : Text) : Bool :=
  match Text.cutAt [.char '%'] t with
  | none => isGroups t
  | some (address, zone) => isGroups address && zone ≠ [] && .char '%' ∉ zone

/-! ### Addresses of later versions -/

/-- The letter `v`, a version in hexadecimal, a dot and something more. -/
def isLaterVersion (t : Text) : Bool :=
  match t with
  | .char 'v' :: r =>
    let version := r.takeWhile fun c => (Number.hexValue? c).isSome
    match r.dropWhile fun c => (Number.hexValue? c).isSome with
    | .char '.' :: _ :: _ => version ≠ []
    | _ => false
  | _ => false

end CodingPolicy.Uri.Host
