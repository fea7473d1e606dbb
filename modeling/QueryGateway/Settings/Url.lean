import QueryGateway.Settings.HostLiteral
import QueryGateway.Text.LetterCase
import QueryGateway.Text.Octets

/-!
URLs taken apart: scheme, authority, path, query and fragment, and of the authority the user, the
password, the host and the port. A text that no URL can be is refused, and so is an authority that
would gain a separator when its characters are normalised.
-/

set_option autoImplicit false
set_option relaxedAutoImplicit false

namespace QueryGateway.Settings

open QueryGateway.Text

structure Url where
  scheme : List Char
  authority : List Char
  path : List Char
  query : List Char
  fragment : List Char
  deriving DecidableEq, Repr

namespace Url

def isLeadingJunk (c : Char) : Bool := c.toNat ≤ 32

def isDropped (c : Char) : Bool := c == '\t' || c == '\r' || c == '\n'

/-- A text without what does not count in a URL. -/
def cleaned (s : List Char) : List Char :=
  (s.dropWhile isLeadingJunk).filter fun c => !isDropped c

def isSchemeChar (c : Char) : Bool := c.isAlphanum || c == '+' || c == '-' || c == '.'

/-- The scheme in small letters and what follows its colon. -/
def takeScheme (s : List Char) : List Char × List Char :=
  match Split.cutFirst? ':' s with
  | some (front, rest) =>
    if front.head?.any Char.isAlpha && front.all isSchemeChar then (front.map Char.toLower, rest)
    else ([], s)
  | none => ([], s)

def endsAuthority (c : Char) : Bool := c == '/' || c == '?' || c == '#'

/-- The authority after two slashes, and the rest. -/
def takeAuthority : List Char → List Char × List Char
  | '/' :: '/' :: r =>
    (r.takeWhile fun c => !endsAuthority c, r.dropWhile fun c => !endsAuthority c)
  | s => ([], s)

def cutAt (separator : Char) (s : List Char) : List Char × List Char :=
  (Split.cutFirst? separator s).getD (s, [])

/-- The host and the port in an authority, as they are written: in brackets, or up to a colon. -/
structure HostText where
  before : List Char
  bracketed : Bool
  host : List Char
  after : List Char
  deriving DecidableEq, Repr

def hostText (authority : List Char) : HostText :=
  let info := match Split.cutLast? '@' authority with
    | some p => p.2
    | none => authority
  match Split.cutFirst? '[' info with
  | some (before, rest) => ⟨before, true, (cutAt ']' rest).1, (cutAt ']' rest).2⟩
  | none => ⟨[], false, (cutAt ':' info).1, (cutAt ':' info).2⟩

/-- Whether a host is one that needs brackets and nothing but a port stands beside them. -/
def HostText.isSound (h : HostText) : Bool :=
  (!h.bracketed || (h.before.isEmpty && (h.after.isEmpty || h.after.head? == some ':'))) &&
    HostLiteral.isValid h.host

/-- Whether the brackets of an authority, if it has any, come in pairs and its host needs them. -/
def hasSoundBrackets (authority : List Char) : Bool :=
  match authority.contains '[', authority.contains ']' with
  | false, false => true
  | true, true => (hostText authority).isSound
  | _, _ => false

/-- Characters whose normal form holds a separator of URLs. -/
def ambiguous : List Nat :=
  [0x2047, 0x2048, 0x2049, 0x2100, 0x2101, 0x2105, 0x2106, 0x2a74, 0xfe13, 0xfe16, 0xfe55, 0xfe56,
   0xfe5f, 0xfe6b, 0xff03, 0xff0f, 0xff1a, 0xff1f, 0xff20]

def ofText? (s : List Char) : Option Url :=
  let (scheme, rest) := takeScheme (cleaned s)
  let (authority, rest) := takeAuthority rest
  let (rest, fragment) := cutAt '#' rest
  let (path, query) := cutAt '?' rest
  if hasSoundBrackets authority && !authority.any fun c => ambiguous.contains c.toNat then
    some ⟨scheme, authority, path, query, fragment⟩
  else none

/-- The user and the password in front of the last at sign. -/
def userInfo (u : Url) : Option (List Char × Option (List Char)) :=
  (Split.cutLast? '@' u.authority).map fun p =>
    match Split.cutFirst? ':' p.1 with
    | some (user, password) => (user, some password)
    | none => (p.1, none)

def user? (u : Url) : Option (List Char) := u.userInfo.map (·.1)

def password? (u : Url) : Option (List Char) := u.userInfo.bind (·.2)

def hostInfo (u : Url) : List Char × List Char :=
  let h := hostText u.authority
  (h.host, if h.bracketed then (cutAt ':' h.after).2 else h.after)

/-- The host in small letters, apart from the zone of an address. -/
def host (u : Url) : List Char :=
  let h := u.hostInfo.1
  match Split.cutFirst? '%' h with
  | some (name, zone) => LetterCase.lower name ++ '%' :: zone
  | none => LetterCase.lower h

def maxPort : Nat := 65535

/-- The port: none if it is not written, and a failure if it is no number of a port. -/
def port? (u : Url) : Option (Option Nat) :=
  let p := u.hostInfo.2
  if p.isEmpty then some none
  else
    match Number.Numeral.nat? p with
    | some n => if n ≤ maxPort then some (some n) else none
    | none => none

/-- The text of a URL with an authority; an empty query or fragment is left out. -/
def text (u : Url) : List Char :=
  (if u.scheme.isEmpty then [] else u.scheme ++ [':']) ++ '/' :: '/' :: u.authority ++ u.path ++
    (if u.query.isEmpty then [] else '?' :: u.query) ++
    (if u.fragment.isEmpty then [] else '#' :: u.fragment)

def mask : List Char := ['*', '*', '*']

def masked (u : Url) : Url :=
  match u.password? with
  | none => u
  | some p =>
    { u with authority :=
        Split.replaceFirst (':' :: p ++ ['@']) (':' :: mask ++ ['@']) u.authority }

/-- A text with the password of the URL that it denotes masked; nothing for a text that denotes no
URL. -/
def maskText? (s : List Char) : Option (List Char) :=
  if s.isEmpty then some []
  else (ofText? s).map fun u => if u.password?.isNone then s else u.masked.text

end Url

end QueryGateway.Settings
