/-!
Octets and texts: hexadecimal digits, UTF-8, base 64 and percent coding.
-/

set_option autoImplicit false
set_option relaxedAutoImplicit false

/-!
## Hexadecimal digits

Hexadecimal digits in small letters, and numbers written with a fixed count of them.
-/

namespace QueryGateway.Text.Hexadecimal

def digit (n : Nat) : Char := if n < 10 then Char.ofNat (48 + n) else Char.ofNat (87 + n)

/-- The last digits of a number, leading zeros kept. -/
def fixed : Nat → Nat → List Char
  | 0, _ => []
  | width + 1, n => fixed width (n / 16) ++ [digit (n % 16)]

def value? (c : Char) : Option Nat :=
  if '0' ≤ c ∧ c ≤ '9' then some (c.toNat - 48)
  else if 'a' ≤ c ∧ c ≤ 'f' then some (c.toNat - 87)
  else if 'A' ≤ c ∧ c ≤ 'F' then some (c.toNat - 55)
  else none

end QueryGateway.Text.Hexadecimal

/-!
## UTF-8

UTF-8. `encode` writes a text as bytes. `scan` reads bytes one at a time and gives a character or a
gap for each longest piece that starts a character and does not finish it; `decode?` refuses gaps,
`decodeLossy` shows each as the replacement character, and `decodeMarked` shows the bytes of each by
number.
-/

namespace QueryGateway.Text.Utf8

-- Powers are those of the core library, whatever else is in scope.
attribute [local instance (high)] instPowNat

def encodeChar (c : Char) : List UInt8 :=
  let n := c.toNat
  let tail (k : Nat) : UInt8 := UInt8.ofNat (0x80 + n / 64 ^ k % 64)
  if n < 0x80 then [UInt8.ofNat n]
  else if n < 0x800 then [UInt8.ofNat (0xc0 + n / 64), tail 0]
  else if n < 0x10000 then [UInt8.ofNat (0xe0 + n / 4096), tail 1, tail 0]
  else [UInt8.ofNat (0xf0 + n / 262144), tail 2, tail 1, tail 0]

def encode (s : List Char) : List UInt8 := s.flatMap encodeChar

/-- A character begun: the bytes owed, the range of the next one, the bits read so far, and the
bytes read so far, the last one first. -/
structure Begun where
  owed : Nat
  low : Nat
  high : Nat
  bits : Nat
  bytes : List UInt8
  deriving DecidableEq, Repr

/-- What a byte means where a character may begin. -/
inductive Lead
  | whole (c : Char) | begun (b : Begun) | stray

/-- A first byte settles the length and, for four values, narrows the second byte. -/
def lead (byte : UInt8) : Lead :=
  let b := byte.toNat
  if b < 0x80 then .whole (Char.ofNat b)
  else if b < 0xc2 then .stray
  else if b < 0xe0 then .begun ⟨1, 0x80, 0xbf, b - 0xc0, [byte]⟩
  else if b < 0xf0 then
    .begun ⟨2, if b = 0xe0 then 0xa0 else 0x80, if b = 0xed then 0x9f else 0xbf, b - 0xe0, [byte]⟩
  else if b < 0xf5 then
    .begun ⟨3, if b = 0xf0 then 0x90 else 0x80, if b = 0xf4 then 0x8f else 0xbf, b - 0xf0, [byte]⟩
  else .stray

inductive Piece
  | character (c : Char)
  | gap (bytes : List UInt8)
  deriving DecidableEq, Repr

def scan : Option Begun → List UInt8 → List Piece
  | none, [] => []
  | some g, [] => [.gap g.bytes.reverse]
  | none, b :: r =>
    match lead b with
    | .whole c => .character c :: scan none r
    | .begun g => scan (some g) r
    | .stray => .gap [b] :: scan none r
  | some g, b :: r =>
    if g.low ≤ b.toNat && b.toNat ≤ g.high then
      let bits := g.bits * 64 + (b.toNat - 0x80)
      if g.owed = 1 then .character (Char.ofNat bits) :: scan none r
      else scan (some ⟨g.owed - 1, 0x80, 0xbf, bits, b :: g.bytes⟩) r
    else
      match lead b with
      | .whole c => .gap g.bytes.reverse :: .character c :: scan none r
      | .begun h => .gap g.bytes.reverse :: scan (some h) r
      | .stray => .gap g.bytes.reverse :: .gap [b] :: scan none r

def Piece.character? : Piece → Option Char
  | .character c => some c
  | .gap _ => none

def Piece.marked : Piece → List Char
  | .character c => [c]
  | .gap bytes => bytes.flatMap fun b => '\\' :: 'x' :: Hexadecimal.fixed 2 b.toNat

def decode? (bytes : List UInt8) : Option (List Char) := (scan none bytes).mapM Piece.character?

/-- The text of any bytes, each gap shown as the replacement character. -/
def decodeLossy (bytes : List UInt8) : List Char :=
  (scan none bytes).map (·.character?.getD (Char.ofNat 0xfffd))

/-- The text of any bytes, the bytes of each gap shown by number. -/
def decodeMarked (bytes : List UInt8) : List Char := (scan none bytes).flatMap Piece.marked

end QueryGateway.Text.Utf8

/-!
## Base 64

Base 64 with padding: three bytes are four characters.
-/

namespace QueryGateway.Text.Base64

def digit (n : Nat) : Char :=
  if n < 26 then Char.ofNat (65 + n)
  else if n < 52 then Char.ofNat (71 + n)
  else if n < 62 then Char.ofNat (n - 4)
  else if n = 62 then '+'
  else '/'

def encode : List UInt8 → List Char
  | a :: b :: c :: r =>
    let n := a.toNat * 65536 + b.toNat * 256 + c.toNat
    digit (n / 262144) :: digit (n / 4096 % 64) :: digit (n / 64 % 64) :: digit (n % 64) :: encode r
  | [a, b] =>
    let n := a.toNat * 65536 + b.toNat * 256
    [digit (n / 262144), digit (n / 4096 % 64), digit (n / 64 % 64), '=']
  | [a] => [digit (a.toNat / 4), digit (a.toNat * 16 % 64), '=', '=']
  | [] => []

end QueryGateway.Text.Base64

/-!
## Percent coding

Percent-encoding over UTF-8. Decoding turns each escape of two hexadecimal digits into a byte and
leaves any other percent sign as it stands. Text after ASCII never mixes with escaped bytes.
-/

namespace QueryGateway.Text.Percent

open QueryGateway.Text

/-- A byte as a percent sign and two capital hexadecimal digits. -/
def escape (b : UInt8) : List Char :=
  ['%', (Hexadecimal.digit (b.toNat / 16)).toUpper, (Hexadecimal.digit (b.toNat % 16)).toUpper]

/-- Every character outside a safe class as the escapes of its bytes. -/
def encode (safe : Char → Bool) (s : List Char) : List Char :=
  s.flatMap fun c => if safe c then [c] else (Utf8.encodeChar c).flatMap escape

/-- Letters, digits and the four marks that never need an escape. -/
def isUnreserved (c : Char) : Bool :=
  c.toNat < 128 && (c.isAlphanum || c == '_' || c == '.' || c == '-' || c == '~')

/-- ASCII text as bytes, escapes resolved. -/
def unescape : List Char → List UInt8
  | '%' :: a :: b :: r =>
    match Hexadecimal.value? a, Hexadecimal.value? b with
    | some x, some y => UInt8.ofNat (x * 16 + y) :: unescape r
    | _, _ => 37 :: unescape (a :: b :: r)
  | c :: r => UInt8.ofNat c.toNat :: unescape r
  | [] => []

/-- Decodes the ASCII text read so far, kept in reverse, and what follows it. -/
def decodeFrom (ascii : List Char) : List Char → List Char
  | [] => Utf8.decodeLossy (unescape ascii.reverse)
  | c :: r =>
    if c.toNat < 128 then decodeFrom (c :: ascii) r
    else Utf8.decodeLossy (unescape ascii.reverse) ++ c :: decodeFrom [] r

def decode (s : List Char) : List Char := decodeFrom [] s

end QueryGateway.Text.Percent
