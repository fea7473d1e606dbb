import QueryGateway.Number.Numeral
import QueryGateway.Text.Octets
import QueryGateway.Text.Parts

/-!
Host addresses that a URL writes in brackets: addresses of IP version 6 and those of a later
version, which begin with its number.
-/

set_option autoImplicit false
set_option relaxedAutoImplicit false

namespace QueryGateway.Settings.HostLiteral

open QueryGateway.Number
open QueryGateway.Text

def isHex (c : Char) : Bool := (Hexadecimal.value? c).isSome

/-- Four decimal numbers up to 255 without leading zeros, with points between them. -/
def isDotted (s : List Char) : Bool :=
  let isOctet (ds : List Char) : Bool :=
    match Numeral.nat? ds with
    | some n => ds.length ≤ 3 && n ≤ 255 && (ds.length = 1 || ds.head? != some '0')
    | none => false
  let parts := Split.splitOn '.' s
  parts.length = 4 && parts.all isOctet

def isGroup (ds : List Char) : Bool := !ds.isEmpty && ds.length ≤ 4 && ds.all isHex

/-- The groups between colons; an address of version 4 at the end stands for two groups. -/
def groups? (s : List Char) : Option (List (List Char)) :=
  let parts := Split.splitOn ':' s
  let last := parts.getLast?.getD []
  if parts.length < 3 then none
  else if last.contains '.' then
    if isDotted last then some (parts.dropLast ++ [['0'], ['0']]) else none
  else some parts

/-- Groups of which one that is empty by itself, at the edge of a gap, does not count. -/
def besideGap (groups : List (List Char)) : List (List Char) :=
  if groups == [[]] then [] else groups

/-- Eight groups, or fewer with one gap between two colons. -/
def isSixGroups : List (List Char) → Bool
  | [] => false
  | first :: rest =>
    match rest.dropWhile fun g => !g.isEmpty with
    | [] :: low@(_ :: _) =>
      let groups := besideGap (first :: rest.takeWhile fun g => !g.isEmpty) ++ besideGap low
      groups.length ≤ 7 && groups.all isGroup
    | _ => rest.length = 7 && (first :: rest).all isGroup

/-- An address of version 6, which may name a zone after a percent sign. -/
def isSix (s : List Char) : Bool :=
  let (address, zoned) := match Split.cutFirst? '%' s with
    | some (a, zone) => (a, !zone.isEmpty && !zone.contains '%')
    | none => (s, true)
  zoned &&
    match groups? address with
    | some parts => isSixGroups parts
    | none => false

/-- An address of a later version: a letter, hexadecimal digits, a point and more. -/
def isLater : List Char → Bool
  | 'v' :: r =>
    match Split.cutFirst? '.' r with
    | some (version, rest) =>
      !version.isEmpty && version.all isHex && !rest.isEmpty && !rest.contains '\n'
    | none => false
  | _ => false

/-- Whether a text may stand in brackets as a host. -/
def isValid (s : List Char) : Bool :=
  match s with
  | 'v' :: _ => isLater s
  | _ => isSix s

end QueryGateway.Settings.HostLiteral
