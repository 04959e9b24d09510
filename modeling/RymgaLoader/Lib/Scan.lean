import Mathlib.Data.List.TakeWhile
import Mathlib.Tactic.Ring

/-!
# Scanning formatted text

The conversions of `sscanf` that read decimal numbers and words from a byte
string, with the decimal numerals `printf` writes.  A numeral that was cut off
is either no number at all or a number at the very end of the input.
-/

namespace Scan

def isSpace (byte : UInt8) : Bool :=
  byte = 0x20 ∨ (0x09 ≤ byte ∧ byte ≤ 0x0D)

def isDigit (byte : UInt8) : Bool := 0x30 ≤ byte ∧ byte ≤ 0x39

def skipSpace (input : List UInt8) : List UInt8 := input.dropWhile isSpace

def decimal (value : Nat) : List UInt8 :=
  (Nat.toDigits 10 value).map fun digit => UInt8.ofNat digit.toNat

def digitsValue (digits : List UInt8) : Nat :=
  digits.foldl (fun value digit => 10 * value + (digit.toNat - 0x30)) 0

def scanSign : List UInt8 → Bool × List UInt8
  | 0x2D :: rest => (true, rest)
  | 0x2B :: rest => (false, rest)
  | rest => (false, rest)

/-- White space, an optional sign and at least one digit. -/
def scanNumber (input : List UInt8) : Option (Bool × Nat × List UInt8) :=
  let (negative, rest) := scanSign (skipSpace input)
  let digits := rest.takeWhile isDigit
  if digits = [] then none
  else some (negative, digitsValue digits, rest.dropWhile isDigit)

/-- `%lld`: out of range values are clamped. -/
def scanSigned (input : List UInt8) : Option (Int × List UInt8) :=
  (scanNumber input).map fun (negative, magnitude, rest) =>
    (if negative then -(min magnitude (2 ^ 63) : Nat)
      else (min magnitude (2 ^ 63 - 1) : Nat), rest)

/-- `%llu`: out of range values are clamped, negative ones wrap. -/
def scanUnsigned (input : List UInt8) : Option (Nat × List UInt8) :=
  (scanNumber input).map fun (negative, magnitude, rest) =>
    (if magnitude ≥ 2 ^ 64 then 2 ^ 64 - 1
      else if negative then (2 ^ 64 - magnitude) % 2 ^ 64 else magnitude, rest)

/-- `%<width>s`. -/
def scanWord (width : Nat) (input : List UInt8) :
    Option (List UInt8 × List UInt8) :=
  let rest := skipSpace input
  let word := (rest.takeWhile fun byte => !isSpace byte).take width
  if word = [] then none else some (word, rest.drop word.length)

def scanLiteral (expected input : List UInt8) : Option (List UInt8) :=
  if expected.isPrefixOf input then some (input.drop expected.length)
  else none

theorem decimal_ne_nil (value : Nat) : decimal value ≠ [] := by
  simp [decimal, Nat.toDigits_ne_nil]

private theorem digit_toNat {digit : Char} (isDigit : digit.isDigit) :
    (UInt8.ofNat digit.toNat).toNat = digit.toNat ∧
      0x30 ≤ digit.toNat ∧ digit.toNat ≤ 0x39 := by
  have bounds := Char.isDigit_iff_toNat.mp isDigit
  have low : 0x30 ≤ digit.toNat := bounds.1
  have high : digit.toNat ≤ 0x39 := bounds.2
  refine ⟨?_, low, high⟩
  rw [UInt8.toNat_ofNat', Nat.mod_eq_of_lt (by omega)]

theorem isDigit_of_mem_decimal {value : Nat} {byte : UInt8}
    (member : byte ∈ decimal value) : isDigit byte = true := by
  obtain ⟨digit, digitMember, rfl⟩ := List.mem_map.mp member
  obtain ⟨number, low, high⟩ := digit_toNat
    (Nat.isDigit_of_mem_toDigits (by decide) (by decide) digitMember)
  simp only [isDigit, Bool.decide_and, Bool.and_eq_true, decide_eq_true_eq,
    UInt8.le_iff_toNat_le, number]
  exact ⟨low, high⟩

theorem digitsValue_decimal (value : Nat) :
    digitsValue (decimal value) = value := by
  have fold : ∀ (digits : List Char) (start : Nat),
      (∀ digit ∈ digits, digit.isDigit) →
      (digits.map fun digit => UInt8.ofNat digit.toNat).foldl
        (fun value digit => 10 * value + (digit.toNat - 0x30)) start =
      Nat.ofDigitChars 10 digits start := by
    intro digits
    induction digits with
    | nil =>
        intro start _
        rfl
    | cons digit digits ih =>
        intro start valid
        obtain ⟨number, -, -⟩ := digit_toNat (valid digit (by simp))
        rw [List.map_cons, List.foldl_cons, number,
          ih _ fun candidate member => valid candidate (by simp [member])]
        rfl
  rw [digitsValue, decimal, fold _ _ fun digit member =>
    Nat.isDigit_of_mem_toDigits (by decide) (by decide) member]
  exact Nat.ofDigitChars_toDigits (by decide) (by decide)

theorem isSpace_of_isDigit {byte : UInt8} (digit : isDigit byte = true) :
    isSpace byte = false := by
  simp only [isDigit, Bool.decide_and, Bool.and_eq_true, decide_eq_true_eq,
    UInt8.le_iff_toNat_le] at digit
  simp only [isSpace, Bool.decide_or, Bool.decide_and, Bool.or_eq_false_iff,
    decide_eq_false_iff_not, Bool.and_eq_false_iff, ← UInt8.toNat_inj,
    UInt8.le_iff_toNat_le]
  have low : 48 ≤ byte.toNat := digit.1
  refine ⟨?_, Or.inr ?_⟩
  · change ¬byte.toNat = 32
    omega
  · change ¬byte.toNat ≤ 13
    omega

/-- Before digits there is nothing to skip. -/
private theorem scanSign_digits {digits rest : List UInt8}
    (valid : ∀ byte ∈ digits, isDigit byte = true)
    (nonempty : digits ≠ []) :
    scanSign (skipSpace (digits ++ rest)) = (false, digits ++ rest) := by
  cases digits with
  | nil => exact (nonempty rfl).elim
  | cons digit digits =>
      have first := valid digit (by simp)
      rw [skipSpace, List.cons_append, List.dropWhile_cons_of_neg
        (by simp [isSpace_of_isDigit first])]
      have low : 48 ≤ digit.toNat := by
        simp only [isDigit, Bool.decide_and, Bool.and_eq_true,
          decide_eq_true_eq, UInt8.le_iff_toNat_le] at first
        exact first.1
      unfold scanSign
      split
      · rename_i same
        cases same
        exact absurd low (by decide)
      · rename_i same
        cases same
        exact absurd low (by decide)
      · rfl

theorem scanNumber_digits {digits rest : List UInt8}
    (valid : ∀ byte ∈ digits, isDigit byte = true)
    (nonempty : digits ≠ [])
    (ends : ∀ byte ∈ rest.head?, isDigit byte = false) :
    scanNumber (digits ++ rest) = some (false, digitsValue digits, rest) := by
  have stops : rest.takeWhile isDigit = [] ∧ rest.dropWhile isDigit = rest := by
    cases rest with
    | nil => exact ⟨rfl, rfl⟩
    | cons byte rest =>
        have notDigit := ends byte (by simp)
        simp [notDigit]
  rw [scanNumber, scanSign_digits valid nonempty]
  simp only [List.takeWhile_append_of_pos valid,
    List.dropWhile_append_of_pos valid, stops.1, stops.2, List.append_nil,
    if_neg nonempty]

theorem scanNumber_decimal {value : Nat} {rest : List UInt8}
    (ends : ∀ byte ∈ rest.head?, isDigit byte = false) :
    scanNumber (decimal value ++ rest) = some (false, value, rest) := by
  rw [scanNumber_digits (fun byte member => isDigit_of_mem_decimal member)
    (decimal_ne_nil value) ends, digitsValue_decimal]

/-- What is left after a numeral that was cut off. -/
theorem scanNumber_cut {value : Nat} {input : List UInt8}
    (cut : input <+: decimal value) {negative : Bool} {magnitude : Nat}
    {rest : List UInt8}
    (scanned : scanNumber input = some (negative, magnitude, rest)) :
    rest = [] := by
  have valid : ∀ byte ∈ input, isDigit byte = true :=
    fun byte member => isDigit_of_mem_decimal (cut.subset member)
  cases input with
  | nil => cases scanned
  | cons byte input =>
      have whole := scanNumber_digits valid (by simp)
        (show ∀ candidate ∈ ([] : List UInt8).head?,
          isDigit candidate = false by simp)
      rw [List.append_nil, scanned] at whole
      cases whole
      rfl

/-- Scanning skips a blank in front. -/
theorem scanNumber_space {input : List UInt8} :
    scanNumber (0x20 :: input) = scanNumber input := by
  rw [scanNumber, skipSpace, List.dropWhile_cons_of_pos (by decide)]
  rfl

private theorem skipSpace_append {input : List UInt8} (more : List UInt8)
    (left : skipSpace input ≠ []) :
    skipSpace (input ++ more) = skipSpace input ++ more := by
  have kept : (input.dropWhile isSpace).isEmpty = false := by
    rw [← Bool.not_eq_true, List.isEmpty_iff]
    exact left
  rw [skipSpace, List.dropWhile_append, if_neg (by simp [kept])]
  rfl

private theorem scanSign_append {input : List UInt8} (more : List UInt8)
    (left : input ≠ []) :
    scanSign (input ++ more) =
      ((scanSign input).1, (scanSign input).2 ++ more) := by
  cases input with
  | nil => exact absurd rfl left
  | cons byte input =>
      by_cases minus : byte = 0x2D
      · subst minus
        rfl
      · by_cases plus : byte = 0x2B
        · subst plus
          rfl
        · have plain : ∀ rest, scanSign (byte :: rest) =
              (false, byte :: rest) := by
            intro rest
            rw [scanSign]
            · rintro other ⟨⟩
              exact minus rfl
            · rintro other ⟨⟩
              exact plus rfl
          rw [List.cons_append, plain, plain]
          rfl

theorem scanNumber_append {input rest : List UInt8} {negative : Bool}
    {magnitude : Nat} (more : List UInt8)
    (scanned : scanNumber input = some (negative, magnitude, rest))
    (left : rest ≠ []) :
    scanNumber (input ++ more) =
      some (negative, magnitude, rest ++ more) := by
  have shown : skipSpace input ≠ [] := by
    intro blank
    rw [scanNumber, blank] at scanned
    cases scanned
  rw [scanNumber] at scanned ⊢
  rw [skipSpace_append more shown, scanSign_append more shown]
  dsimp only at scanned ⊢
  split at scanned
  · cases scanned
  · rename_i digits
    cases scanned
    have stops : ((scanSign (skipSpace input)).2.dropWhile isDigit).isEmpty =
        false := by
      rw [← Bool.not_eq_true, List.isEmpty_iff]
      exact left
    have same : ((scanSign (skipSpace input)).2 ++ more).takeWhile isDigit =
        (scanSign (skipSpace input)).2.takeWhile isDigit := by
      rw [List.takeWhile_append, if_neg]
      intro whole
      have ended := List.takeWhile_append_dropWhile (p := isDigit)
        (l := (scanSign (skipSpace input)).2)
      have lengths := congrArg List.length ended
      rw [List.length_append, whole] at lengths
      refine left (List.length_eq_zero_iff.mp ?_)
      omega
    rw [same, if_neg digits, List.dropWhile_append,
      if_neg (by simp [stops])]

theorem scanSigned_append {input rest : List UInt8} {value : Int}
    (more : List UInt8) (scanned : scanSigned input = some (value, rest))
    (left : rest ≠ []) :
    scanSigned (input ++ more) = some (value, rest ++ more) := by
  obtain ⟨⟨negative, magnitude, after⟩, number, same⟩ :=
    Option.map_eq_some_iff.mp scanned
  cases same
  rw [scanSigned, scanNumber_append more number left]
  rfl

theorem scanUnsigned_append {input rest : List UInt8} {value : Nat}
    (more : List UInt8) (scanned : scanUnsigned input = some (value, rest))
    (left : rest ≠ []) :
    scanUnsigned (input ++ more) = some (value, rest ++ more) := by
  obtain ⟨⟨negative, magnitude, after⟩, number, same⟩ :=
    Option.map_eq_some_iff.mp scanned
  cases same
  rw [scanUnsigned, scanNumber_append more number left]
  rfl

theorem scanLiteral_append {expected input rest : List UInt8}
    (more : List UInt8) (scanned : scanLiteral expected input = some rest) :
    scanLiteral expected (input ++ more) = some (rest ++ more) := by
  unfold scanLiteral at scanned ⊢
  split at scanned
  · rename_i front
    cases scanned
    have within := List.isPrefixOf_iff_prefix.mp front
    rw [if_pos (List.isPrefixOf_iff_prefix.mpr
      (within.trans (List.prefix_append _ _))),
      List.drop_append_of_le_length within.length_le]
  · cases scanned

end Scan
