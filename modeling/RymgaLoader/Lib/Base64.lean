import Mathlib.Data.List.Basic
import Mathlib.Data.Nat.Basic

/-!
# Base64url

The URL-safe alphabet without padding as an encoder, and a decoder that
accepts what the encoder writes, with or without padding.
-/

namespace Base64

/-- The character of a six-bit group. -/
def symbol (value : Nat) : UInt8 :=
  if value < 26 then UInt8.ofNat (0x41 + value)
  else if value < 52 then UInt8.ofNat (0x61 + (value - 26))
  else if value < 62 then UInt8.ofNat (0x30 + (value - 52))
  else if value = 62 then 0x2D else 0x5F

def encodeUrl : List UInt8 → List UInt8
  | [] => []
  | [a] => [symbol (a.toNat / 4), symbol (a.toNat % 4 * 16)]
  | [a, b] => [symbol (a.toNat / 4),
      symbol (a.toNat % 4 * 16 + b.toNat / 16), symbol (b.toNat % 16 * 4)]
  | a :: b :: c :: rest =>
      symbol (a.toNat / 4) :: symbol (a.toNat % 4 * 16 + b.toNat / 16) ::
        symbol (b.toNat % 16 * 4 + c.toNat / 64) :: symbol (c.toNat % 64) ::
        encodeUrl rest

/-- The six-bit group of a character. -/
def value (byte : UInt8) : Option Nat :=
  if 0x41 ≤ byte ∧ byte ≤ 0x5A then some (byte.toNat - 0x41)
  else if 0x61 ≤ byte ∧ byte ≤ 0x7A then some (byte.toNat - 0x61 + 26)
  else if 0x30 ≤ byte ∧ byte ≤ 0x39 then some (byte.toNat - 0x30 + 52)
  else if byte = 0x2D then some 62
  else if byte = 0x5F then some 63
  else none

def pad : UInt8 := 0x3D

def firstByte (a b : Nat) : UInt8 := UInt8.ofNat (a * 4 + b / 16)

def secondByte (b c : Nat) : UInt8 := UInt8.ofNat (b % 16 * 16 + c / 4)

def thirdByte (c d : Nat) : UInt8 := UInt8.ofNat (c % 4 * 64 + d)

/-- Groups of four characters; the last may be short, or filled up with
padding that ends the input.  Bits beyond the last byte are ignored. -/
def decodeUrl : List UInt8 → Option (List UInt8)
  | [] => some []
  | [_] => none
  | a :: b :: rest => do
      let a ← value a
      let b ← value b
      match rest with
      | [] => some [firstByte a b]
      | c :: rest =>
          if c = pad then
            if rest = [pad] then some [firstByte a b] else none
          else do
            let c ← value c
            match rest with
            | [] => some [firstByte a b, secondByte b c]
            | d :: rest =>
                if d = pad then
                  if rest = [] then some [firstByte a b, secondByte b c]
                  else none
                else do
                  let d ← value d
                  let rest ← decodeUrl rest
                  some (firstByte a b :: secondByte b c :: thirdByte c d ::
                    rest)

theorem value_symbol {group : Nat} (small : group < 64) :
    value (symbol group) = some group := by
  have listed : ∀ candidate : Fin 64,
      value (symbol candidate) = some candidate.val := by decide
  exact listed ⟨group, small⟩

theorem symbol_ne_pad (group : Nat) (small : group < 64) :
    symbol group ≠ pad := by
  intro same
  have found := value_symbol small
  rw [same] at found
  cases found

private theorem firstByte_eq (a b : UInt8) :
    firstByte (a.toNat / 4) (a.toNat % 4 * 16 + b.toNat / 16) = a := by
  have small := b.toNat_lt
  have number : a.toNat / 4 * 4 + (a.toNat % 4 * 16 + b.toNat / 16) / 16 =
      a.toNat := by omega
  rw [firstByte, number, UInt8.ofNat_toNat]

private theorem secondByte_eq (a b c : UInt8) :
    secondByte (a.toNat % 4 * 16 + b.toNat / 16)
      (b.toNat % 16 * 4 + c.toNat / 64) = b := by
  have smallB := b.toNat_lt
  have smallC := c.toNat_lt
  have number : (a.toNat % 4 * 16 + b.toNat / 16) % 16 * 16 +
      (b.toNat % 16 * 4 + c.toNat / 64) / 4 = b.toNat := by omega
  rw [secondByte, number, UInt8.ofNat_toNat]

private theorem thirdByte_eq (b c : UInt8) :
    thirdByte (b.toNat % 16 * 4 + c.toNat / 64) (c.toNat % 64) = c := by
  have small := c.toNat_lt
  have number : (b.toNat % 16 * 4 + c.toNat / 64) % 4 * 64 + c.toNat % 64 =
      c.toNat := by omega
  rw [thirdByte, number, UInt8.ofNat_toNat]

theorem decodeUrl_encodeUrl (bytes : List UInt8) :
    decodeUrl (encodeUrl bytes) = some bytes := by
  induction bytes using encodeUrl.induct with
  | case1 => rfl
  | case2 a =>
      have small := a.toNat_lt
      have byte := firstByte_eq a 0
      simp only [UInt8.toNat_zero, Nat.zero_div, Nat.add_zero] at byte
      simp [encodeUrl, decodeUrl, value_symbol (by omega : a.toNat / 4 < 64),
        value_symbol (by omega : a.toNat % 4 * 16 < 64), byte]
  | case3 a b =>
      have smallA := a.toNat_lt
      have smallB := b.toNat_lt
      have second := secondByte_eq a b 0
      simp only [UInt8.toNat_zero, Nat.zero_div, Nat.add_zero] at second
      simp [encodeUrl, decodeUrl, value_symbol (by omega : a.toNat / 4 < 64),
        value_symbol (by omega : a.toNat % 4 * 16 + b.toNat / 16 < 64),
        value_symbol (by omega : b.toNat % 16 * 4 < 64),
        symbol_ne_pad _ (by omega : b.toNat % 16 * 4 < 64), firstByte_eq,
        second]
  | case4 a b c rest ih =>
      have smallA := a.toNat_lt
      have smallB := b.toNat_lt
      have smallC := c.toNat_lt
      have third : b.toNat % 16 * 4 + c.toNat / 64 < 64 := by omega
      have fourth : c.toNat % 64 < 64 := by omega
      simp [encodeUrl, decodeUrl, value_symbol (by omega : a.toNat / 4 < 64),
        value_symbol (by omega : a.toNat % 4 * 16 + b.toNat / 16 < 64),
        value_symbol third, value_symbol fourth, symbol_ne_pad _ third,
        symbol_ne_pad _ fourth, firstByte_eq, secondByte_eq, thirdByte_eq, ih]

theorem length_encodeUrl (bytes : List UInt8) :
    (encodeUrl bytes).length = (bytes.length * 4 + 2) / 3 := by
  induction bytes using encodeUrl.induct with
  | case1 => rfl
  | case2 a => simp [encodeUrl]
  | case3 a b => simp [encodeUrl]
  | case4 a b c rest ih =>
      simp only [encodeUrl, List.length_cons, ih]
      omega

end Base64
