import RymgaLoader.Lib.ExactReader
import RymgaLoader.Protocol.Layout

/-!
# Java wire primitives

`Wire` of the protocol library: the field validators, the writer and the
reader.  A Java string is its list of UTF-16 code units.  The library's case
mapping under `Locale.ROOT` is a parameter, constrained only as far as the
filename rule depends on it.
-/

namespace RymgaLoader.Protocol

open ExactReader

abbrev JavaString := List UInt16

/-- A string literal of the source. -/
def java (characters : List Char) : JavaString :=
  Unicode.utf16Encode characters

structure ProtocolException where
  message : String
  deriving DecidableEq, Repr

abbrev Checked := Except ProtocolException

def check (condition : Prop) [Decidable condition] (message : String) :
    Checked Unit :=
  if condition then .ok () else .error ⟨message⟩

/-- The characters of the reserved device names. -/
def reservedCharacters : List Char :=
  ['C', 'O', 'N', 'P', 'R', 'A', 'U', 'X', 'L', 'M', 'T',
    '1', '2', '3', '4', '5', '6', '7', '8', '9']

/-- What one character contributes to the lower-cased string: ASCII letters
are lowered, and the image of another character has no character of `.jar`. -/
def LowerPiece (scalar : Char) (piece : JavaString) : Prop :=
  if scalar.toNat < 0x80 then
    piece.map UInt16.toNat = [asciiLower scalar.toNat]
  else piece ≠ [] ∧ ∀ unit ∈ piece, unit ∉ java ['.', 'j', 'a', 'r']

/-- What one character contributes to the upper-cased string: ASCII letters
are raised, and the image of another character is not made of characters of
the reserved device names alone. -/
def UpperPiece (scalar : Char) (piece : JavaString) : Prop :=
  if scalar.toNat < 0x80 then
    piece.map UInt16.toNat = [asciiUpper scalar.toNat]
  else ∃ unit ∈ piece, unit ∉ java reservedCharacters

/-- `toLowerCase` and `toUpperCase` under `Locale.ROOT`. -/
structure CaseMapping where
  toLowerCase : JavaString → JavaString
  toUpperCase : JavaString → JavaString
  lowers : ∀ scalars, ∃ pieces, List.Forall₂ LowerPiece scalars pieces ∧
    toLowerCase (Unicode.utf16Encode scalars) = pieces.flatten
  uppers : ∀ scalars, ∃ pieces, List.Forall₂ UpperPiece scalars pieces ∧
    toUpperCase (Unicode.utf16Encode scalars) = pieces.flatten

namespace Wire

def requireVersion (version : Nat) : Checked Unit :=
  check (version = Protocol.version)
    ("unsupported protocol version: " ++ toString version)

def requireTimestamp (name : String) (value : Int64) : Checked Unit :=
  check (¬value < 0) (name ++ " must be non-negative")

def requireBytes (name : String) (value : Bytes) (expectedLength : Nat) :
    Checked Unit :=
  check (value.length = expectedLength)
    (name ++ " must contain " ++ toString expectedLength ++ " bytes")

def utf8 (name : String) (value : JavaString) : Checked Bytes :=
  match Unicode.utf16Decode value with
  | some scalars => .ok (Unicode.encode scalars)
  | none => .error ⟨name ++ " is not valid Unicode"⟩

/-- `Character.isISOControl`. -/
def isISOControl (c : UInt16) : Bool :=
  c.toNat < 0x20 ∨ (0x7F ≤ c.toNat ∧ c.toNat ≤ 0x9F)

def requireString (name : String) (value : JavaString) (maxBytes : Nat) :
    Checked Unit := do
  check (¬value.isEmpty) (name ++ " must not be empty")
  check (0 ∉ value) (name ++ " must not contain NUL")
  check (¬value.any isISOControl)
    (name ++ " must not contain control characters")
  let encoded ← utf8 name value
  check (encoded.length ≤ maxBytes)
    (name ++ " exceeds " ++ toString maxBytes ++ " UTF-8 bytes")

def requireIdentifier (name : String) (value : JavaString) (maxBytes : Nat) :
    Checked Unit := do
  requireString name value maxBytes
  check (∀ c ∈ value,
      (0x61 ≤ c.toNat ∧ c.toNat ≤ 0x7A) ∨ (0x41 ≤ c.toNat ∧ c.toNat ≤ 0x5A) ∨
        (0x30 ≤ c.toNat ∧ c.toNat ≤ 0x39) ∨
        c.toNat = 0x2E ∨ c.toNat = 0x5F ∨ c.toNat = 0x2D)
    (name ++ " must be an ASCII identifier")

def requireFilename (jdk : CaseMapping) (filename : JavaString) :
    Checked Unit := do
  requireString "originalFilename" filename 255
  let lower := jdk.toLowerCase filename
  let firstDot := filename.idxOf? 0x2E
  let base := jdk.toUpperCase (firstDot.elim filename filename.take)
  let reserved := base = java ['C', 'O', 'N'] ∨ base = java ['P', 'R', 'N'] ∨
    base = java ['A', 'U', 'X'] ∨ base = java ['N', 'U', 'L'] ∨
    (base.length = 4 ∧
      (java ['C', 'O', 'M'] <+: base ∨ java ['L', 'P', 'T'] <+: base) ∧
      base[3]?.any fun c => 0x31 ≤ c.toNat ∧ c.toNat ≤ 0x39)
  check (¬(firstDot = some 0 ∨ reserved ∨
      (filename.any fun c => c ∈ java forbiddenInFilename) ∨
      java ['.'] <:+ filename ∨ java [' '] <:+ filename ∨
      ¬java ['.', 'j', 'a', 'r'] <:+ lower))
    "originalFilename must be a plain .jar filename"

abbrev Writer := StateT Bytes Checked

namespace Writer

def bytes (value : Bytes) : Writer Unit := modify (· ++ value)

def magic (value : Bytes) : Writer Unit := bytes value

def u16 (value : Nat) : Writer Unit := do
  liftM (check (value ≤ 0xffff) "u16 overflow")
  bytes [UInt8.ofNat (value >>> 8), UInt8.ofNat value]

def i64 (value : Int64) : Writer Unit :=
  bytes (([56, 48, 40, 32, 24, 16, 8, 0] : List UInt64).map fun shift =>
    (value.toUInt64 >>> shift).toUInt8)

def string (value : JavaString) : Writer Unit := do
  let encoded ← liftM (utf8 "string" value)
  u16 encoded.length
  bytes encoded

def finish (writer : Writer Unit) (maxBytes : Nat) : Checked Bytes := do
  let ((), encoded) ← writer.run []
  check (encoded.length ≤ maxBytes)
    ("encoded message exceeds " ++ toString maxBytes ++ " bytes")
  return encoded

end Writer

/-- `Reader`: the bytes its buffer still holds. -/
abbrev Reader := StateT Bytes Checked

namespace Reader

def require (condition : Prop) [Decidable condition] (message : String) :
    Reader Unit := liftM (check condition message)

def ensureRemaining (length : Nat) : Reader Unit := do
  let input ← get
  require (length ≤ input.length) "truncated message"

def bytes (length : Nat) : Reader Bytes := do
  ensureRemaining length
  modifyGet fun input => (input.take length, input.drop length)

def magic (expected : Bytes) : Reader Unit := do
  let actual ← bytes expected.length
  require (actual = expected) "unexpected message magic"

def u16 : Reader Nat := do
  let value ← bytes 2
  return BigEndian.decode value

def i64 : Reader Int64 := do
  let value ← bytes 8
  return i64OfBytes value

def string (name : String) (maxBytes : Nat) : Reader JavaString := do
  let length ← u16
  require (¬(length = 0 ∨ length > maxBytes)) (name ++ " has invalid length")
  let encoded ← bytes length
  match Unicode.decode encoded with
  | none => throw ⟨name ++ " is not valid UTF-8"⟩
  | some scalars =>
      let value := Unicode.utf16Encode scalars
      let canonical ← liftM (utf8 name value)
      require (encoded = canonical) (name ++ " is not canonical UTF-8")
      return value

def run (reader : Reader α) (encoded : Bytes) (maxBytes : Nat) :
    Checked α := do
  check (encoded.length ≤ maxBytes)
    ("message exceeds " ++ toString maxBytes ++ " bytes")
  let (value, remaining) ← StateT.run reader encoded
  check (remaining = []) "trailing bytes are not allowed"
  return value

end Reader

end Wire

end RymgaLoader.Protocol
