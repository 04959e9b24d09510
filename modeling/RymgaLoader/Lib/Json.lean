import RymgaLoader.Lib.Unicode

/-!
# JSON texts

A parser for the grammar of RFC 8259.  A text is a list of scalar values; the
value of a string is a list of UTF-16 code units, since an escape may name one
half of a surrogate pair; the value of a number is a whole number times a
power of ten; an object keeps its members in the order of the text.
-/

namespace Json

open Unicode

inductive Value where
  | null
  | bool (value : Bool)
  | number (mantissa exponent : Int)
  | string (units : List UInt16)
  | array (elements : List Value)
  | object (members : List (List UInt16 × Value))

def isSpace (scalar : Char) : Bool := scalar ∈ [' ', '\t', '\n', '\r']

def skipSpace (text : List Char) : List Char := text.dropWhile isSpace

def hexDigit (scalar : Char) : Option Nat :=
  if '0' ≤ scalar ∧ scalar ≤ '9' then some (scalar.toNat - 0x30)
  else if 'A' ≤ scalar ∧ scalar ≤ 'F' then some (scalar.toNat - 0x37)
  else if 'a' ≤ scalar ∧ scalar ≤ 'f' then some (scalar.toNat - 0x57)
  else none

def hexUnit (a b c d : Char) : Option UInt16 := do
  let a ← hexDigit a
  let b ← hexDigit b
  let c ← hexDigit c
  let d ← hexDigit d
  return UInt16.ofNat (((a * 16 + b) * 16 + c) * 16 + d)

/-- The escapes of two characters, by the second one. -/
def shortEscape : Char → Option UInt16
  | '"' => some 0x22
  | '\\' => some 0x5C
  | '/' => some 0x2F
  | 'b' => some 0x08
  | 'f' => some 0x0C
  | 'n' => some 0x0A
  | 'r' => some 0x0D
  | 't' => some 0x09
  | _ => none

/-- Units in front of those of a string. -/
def before (units : List UInt16) :
    Option (List UInt16 × List Char) → Option (List UInt16 × List Char) :=
  Option.map fun (others, rest) => (units ++ others, rest)

/-- A string behind its opening quotation mark. -/
def stringBody : List Char → Option (List UInt16 × List Char)
  | [] => none
  | scalar :: rest =>
      if scalar = '"' then some ([], rest)
      else if scalar.toNat < 0x20 then none
      else if scalar ≠ '\\' then before (utf16Units scalar) (stringBody rest)
      else
        match rest with
        | [] => none
        | 'u' :: a :: b :: c :: d :: rest =>
            (hexUnit a b c d).bind fun unit => before [unit] (stringBody rest)
        | second :: rest =>
            (shortEscape second).bind fun unit =>
              before [unit] (stringBody rest)

def fraction : List Char → Option (List Char × List Char)
  | '.' :: rest =>
      let digits := rest.takeWhile Char.isDigit
      if digits = [] then none else some (digits, rest.dropWhile Char.isDigit)
  | rest => some ([], rest)

def exponentDigits (negative : Bool) (text : List Char) :
    Option (Int × List Char) :=
  let digits := text.takeWhile Char.isDigit
  let magnitude : Int := Nat.ofDigitChars 10 digits 0
  if digits = [] then none
  else some (if negative then -magnitude else magnitude,
    text.dropWhile Char.isDigit)

def exponent (text : List Char) : Option (Int × List Char) :=
  match text with
  | [] => some (0, text)
  | mark :: rest =>
      if mark ≠ 'e' ∧ mark ≠ 'E' then some (0, text)
      else
        match rest with
        | '-' :: rest => exponentDigits true rest
        | '+' :: rest => exponentDigits false rest
        | rest => exponentDigits false rest

/-- A number without its sign. -/
def unsigned (text : List Char) : Option ((Int × Int) × List Char) := do
  let whole := text.takeWhile Char.isDigit
  if whole = [] ∨ whole.head? = some '0' ∧ whole.length ≠ 1 then none
  else
    let (decimals, rest) ← fraction (text.dropWhile Char.isDigit)
    let (power, rest) ← exponent rest
    return ((Nat.ofDigitChars 10 (whole ++ decimals) 0,
      power - decimals.length), rest)

def number : List Char → Option (Value × List Char)
  | '-' :: rest =>
      (unsigned rest).map fun ((mantissa, power), rest) =>
        (.number (-mantissa) power, rest)
  | rest =>
      (unsigned rest).map fun ((mantissa, power), rest) =>
        (.number mantissa power, rest)

def literal (expected : List Char) (value : Value) (text : List Char) :
    Option (Value × List Char) :=
  if expected.isPrefixOf text then
    some (value, text.drop expected.length)
  else none

section

variable (value : List Char → Option (Value × List Char))

/-- The elements of an array, at least one, with its closing bracket. -/
def elements : Nat → List Char → Option (List Value × List Char)
  | 0, _ => none
  | fuel + 1, text => do
      let (first, rest) ← value text
      match skipSpace rest with
      | ',' :: rest =>
          let (others, rest) ← elements fuel (skipSpace rest)
          return (first :: others, rest)
      | ']' :: rest => return ([first], rest)
      | _ => none

/-- The members of an object, at least one, with its closing brace. -/
def members :
    Nat → List Char → Option (List (List UInt16 × Value) × List Char)
  | 0, _ => none
  | fuel + 1, '"' :: text => do
      let (name, rest) ← stringBody text
      match skipSpace rest with
      | ':' :: rest =>
          let (content, rest) ← value (skipSpace rest)
          match skipSpace rest with
          | ',' :: rest =>
              let (others, rest) ← members fuel (skipSpace rest)
              return ((name, content) :: others, rest)
          | '\x7d' :: rest => return ([(name, content)], rest)
          | _ => none
      | _ => none
  | _ + 1, _ => none

end

/-- Every nested value and every further element uses up fuel. -/
def value : Nat → List Char → Option (Value × List Char)
  | 0, _ => none
  | _ + 1, '"' :: text =>
      (stringBody text).map fun (units, rest) => (.string units, rest)
  | fuel + 1, '\x7b' :: text =>
      match skipSpace text with
      | '\x7d' :: rest => some (.object [], rest)
      | text => (members (value fuel) fuel text).map
          fun (found, rest) => (.object found, rest)
  | fuel + 1, '[' :: text =>
      match skipSpace text with
      | ']' :: rest => some (.array [], rest)
      | text => (elements (value fuel) fuel text).map
          fun (found, rest) => (.array found, rest)
  | _ + 1, 't' :: text => literal "rue".toList (.bool true) text
  | _ + 1, 'f' :: text => literal "alse".toList (.bool false) text
  | _ + 1, 'n' :: text => literal "ull".toList .null text
  | _ + 1, text => number text

/-- A whole text. -/
def parse (text : List Char) : Option Value :=
  match value (text.length + 1) (skipSpace text) with
  | none => none
  | some (found, rest) => if skipSpace rest = [] then some found else none

/-- A scalar value that stands for itself inside a string. -/
def Plain (scalar : Char) : Prop :=
  0x20 ≤ scalar.toNat ∧ scalar ≠ '"' ∧ scalar ≠ '\\'

instance (scalar : Char) : Decidable (Plain scalar) := by
  unfold Plain
  infer_instance

theorem before_some (units others : List UInt16) (rest : List Char) :
    before units (some (others, rest)) = some (units ++ others, rest) := rfl

theorem stringBody_quote (rest : List Char) :
    stringBody ('"' :: rest) = some ([], rest) := by
  rw [stringBody.eq_def]
  rfl

theorem stringBody_plain {scalar : Char} (plain : Plain scalar)
    (rest : List Char) :
    stringBody (scalar :: rest) =
      before (utf16Units scalar) (stringBody rest) := by
  obtain ⟨visible, unquoted, unescaped⟩ := plain
  rw [stringBody.eq_def (scalar :: rest)]
  simp only [if_neg unquoted, if_pos unescaped]
  rw [if_neg (by omega)]

theorem stringBody_plains {scalars : List Char}
    (plain : ∀ scalar ∈ scalars, Plain scalar) (rest : List Char) :
    stringBody (scalars ++ '"' :: rest) = some (utf16Encode scalars, rest) := by
  induction scalars with
  | nil => exact stringBody_quote rest
  | cons scalar scalars ih =>
      rw [List.cons_append, stringBody_plain (plain scalar (by simp)),
        ih fun candidate member => plain candidate (by simp [member]),
        before_some, utf16Encode_cons]

theorem stringBody_short {second : Char} {unit : UInt16}
    (named : shortEscape second = some unit) (rest : List Char) :
    stringBody ('\\' :: second :: rest) = before [unit] (stringBody rest) := by
  have notUnit : second ≠ 'u' := by
    rintro rfl
    cases named
  rw [stringBody]
  · simp [named]
  · simp [notUnit]

theorem stringBody_unit {a b c d : Char} {unit : UInt16}
    (named : hexUnit a b c d = some unit) (rest : List Char) :
    stringBody ('\\' :: 'u' :: a :: b :: c :: d :: rest) =
      before [unit] (stringBody rest) := by
  rw [stringBody, if_neg (by decide), if_neg (by decide),
    if_neg (by decide), named]
  rfl

private theorem toDigits_append_head (number : Nat) (rest : List Char) :
    (Nat.toDigits 10 number ++ rest).head? =
      (Nat.toDigits 10 number).head? := by
  cases shown : Nat.toDigits 10 number with
  | nil => exact absurd shown Nat.toDigits_ne_nil
  | cons digit digits => rfl

private theorem toDigits_head {number : Nat} (positive : 0 < number) :
    (Nat.toDigits 10 number).head? ≠ some '0' := by
  induction number using Nat.strongRecOn with
  | ind number ih =>
      by_cases small : number < 10
      · rw [Nat.toDigits_of_lt_base small]
        have digits : ∀ digit < 10, 0 < digit →
            [digit.digitChar].head? ≠ some '0' := by decide
        exact digits number small positive
      · have quotient := ih (number / 10) (by omega) (by omega)
        rw [Nat.toDigits_of_base_le (by decide) (by omega),
          toDigits_append_head]
        exact quotient

private theorem toDigits_digit {number : Nat} {digit : Char}
    (member : digit ∈ Nat.toDigits 10 number) : digit.isDigit = true :=
  Nat.isDigit_of_mem_toDigits (by decide) (by decide) member

/-- Nothing that continues a number. -/
def EndsNumber (rest : List Char) : Prop :=
  ∀ scalar ∈ rest.head?, scalar.isDigit = false ∧ scalar ≠ '.' ∧
    scalar ≠ 'e' ∧ scalar ≠ 'E'

private theorem fraction_ends {rest : List Char} (ends : EndsNumber rest) :
    fraction rest = some ([], rest) := by
  unfold fraction
  split
  · exact absurd rfl (ends '.' rfl).2.1
  · rfl

private theorem exponent_ends {rest : List Char} (ends : EndsNumber rest) :
    exponent rest = some (0, rest) := by
  cases rest with
  | nil => rfl
  | cons mark rest =>
      obtain ⟨-, -, lower, upper⟩ := ends mark rfl
      rw [exponent.eq_def]
      simp only [if_pos (And.intro lower upper)]

private theorem unsigned_toDigits (magnitude : Nat) {rest : List Char}
    (ends : EndsNumber rest) :
    unsigned (Nat.toDigits 10 magnitude ++ rest) =
      some (((magnitude : Int), 0), rest) := by
  have stops : rest.takeWhile Char.isDigit = [] ∧
      rest.dropWhile Char.isDigit = rest := by
    cases rest with
    | nil => exact ⟨rfl, rfl⟩
    | cons mark rest => simp [(ends mark rfl).1]
  have taken : (Nat.toDigits 10 magnitude ++ rest).takeWhile Char.isDigit =
      Nat.toDigits 10 magnitude := by
    rw [List.takeWhile_append_of_pos fun digit member =>
      toDigits_digit member, stops.1, List.append_nil]
  have dropped : (Nat.toDigits 10 magnitude ++ rest).dropWhile Char.isDigit =
      rest := by
    rw [List.dropWhile_append_of_pos fun digit member =>
      toDigits_digit member, stops.2]
  have leads : ¬(Nat.toDigits 10 magnitude = [] ∨
      (Nat.toDigits 10 magnitude).head? = some '0' ∧
        (Nat.toDigits 10 magnitude).length ≠ 1) := by
    rintro (empty | ⟨zero, long⟩)
    · exact Nat.toDigits_ne_nil empty
    · rcases Nat.eq_zero_or_pos magnitude with rfl | positive
      · exact long rfl
      · exact toDigits_head positive zero
  unfold unsigned
  simp only [taken, dropped, if_neg leads, fraction_ends ends,
    exponent_ends ends, Option.bind_eq_bind, Option.bind_some,
    List.append_nil, Nat.ofDigitChars_ten_toDigits, List.length_nil]
  rfl

private theorem toList_toString (integer : Int) :
    (toString integer).toList = Nat.toDigits 10 integer.natAbs ∨
      (toString integer).toList = '-' :: Nat.toDigits 10 integer.natAbs := by
  cases integer with
  | ofNat magnitude => exact Or.inl Nat.toList_repr
  | negSucc magnitude =>
      refine Or.inr ?_
      change ("-" ++ Nat.repr (magnitude + 1)).toList = _
      rw [String.toList_append, Nat.toList_repr]
      rfl

/-- A decimal numeral starts with its sign or a digit. -/
theorem toString_head (integer : Int) :
    ∃ first others, (toString integer).toList = first :: others ∧
      (first = '-' ∨ first.isDigit = true) := by
  rcases toList_toString integer with shown | shown
  · cases digits : Nat.toDigits 10 integer.natAbs with
    | nil => exact absurd digits Nat.toDigits_ne_nil
    | cons digit others =>
        refine ⟨digit, others, shown.trans digits, Or.inr ?_⟩
        exact @toDigits_digit integer.natAbs digit (by simp [digits])
  · exact ⟨'-', _, shown, Or.inl rfl⟩

/-- A decimal numeral is read as its number. -/
theorem number_toString (integer : Int) {rest : List Char}
    (ends : EndsNumber rest) :
    number ((toString integer).toList ++ rest) =
      some (.number integer 0, rest) := by
  cases integer with
  | ofNat magnitude =>
      have shown : (toString (Int.ofNat magnitude)).toList =
          Nat.toDigits 10 magnitude := Nat.toList_repr
      rw [shown]
      have digit := @toDigits_digit magnitude
      have read := unsigned_toDigits magnitude ends
      unfold number
      split
      · rename_i text tail same
        have first : (Nat.toDigits 10 magnitude ++ rest).head? =
            some '-' := by
          rw [same]
          rfl
        rw [toDigits_append_head] at first
        exact absurd (digit (List.mem_of_head? first)) (by decide)
      · rw [read]
        rfl
  | negSucc magnitude =>
      have shown : (toString (Int.negSucc magnitude)).toList =
          '-' :: Nat.toDigits 10 (magnitude + 1) := by
        change ("-" ++ Nat.repr (magnitude + 1)).toList = _
        rw [String.toList_append, Nat.toList_repr]
        rfl
      rw [shown, List.cons_append, number,
        unsigned_toDigits (magnitude + 1) ends]
      rfl

theorem value_string (fuel : Nat) {text rest : List Char}
    {units : List UInt16} (read : stringBody text = some (units, rest)) :
    value (fuel + 1) ('"' :: text) = some (.string units, rest) := by
  rw [value, read]
  rfl

theorem skipSpace_quote (rest : List Char) :
    skipSpace ('"' :: rest) = '"' :: rest := by
  simp [skipSpace, isSpace]

theorem value_object {fuel : Nat} {text rest : List Char}
    {found : List (List UInt16 × Value)}
    (read : members (value fuel) fuel ('"' :: text) = some (found, rest)) :
    value (fuel + 1) ('\x7b' :: '"' :: text) =
      some (.object found, rest) := by
  rw [value, skipSpace_quote]
  change (members (value fuel) fuel ('"' :: text)).map _ = _
  rw [read]
  rfl

private theorem value_number {fuel : Nat} {first : Char} {others : List Char}
    (starts : first = '-' ∨ first.isDigit = true) :
    value (fuel + 1) (first :: others) = number (first :: others) := by
  have differs {mark : Char} (sign : mark ≠ '-')
      (letter : mark.isDigit = false) : first ≠ mark := by
    rintro rfl
    rcases starts with same | digit
    · exact sign same
    · rw [letter] at digit
      cases digit
  rw [value]
  all_goals
    intro text same
    cases same
    exact differs (by decide) (by decide) rfl

theorem value_toString (fuel : Nat) (integer : Int) {rest : List Char}
    (ends : EndsNumber rest) :
    value (fuel + 1) ((toString integer).toList ++ rest) =
      some (.number integer 0, rest) := by
  have read := number_toString integer ends
  obtain ⟨first, others, shown, starts⟩ := toString_head integer
  rw [shown, List.cons_append] at read ⊢
  rw [value_number starts, read]

theorem skipSpace_toString (integer : Int) (rest : List Char) :
    skipSpace ((toString integer).toList ++ rest) =
      (toString integer).toList ++ rest := by
  obtain ⟨first, others, shown, starts⟩ := toString_head integer
  have visible : isSpace first = false := by
    rcases starts with rfl | digit
    · decide
    · simp only [isSpace, decide_eq_false_iff_not]
      intro member
      have spaces : ∀ space ∈ [' ', '\t', '\n', '\r'],
          space.isDigit = false := by decide
      rw [spaces first member] at digit
      cases digit
  rw [shown, List.cons_append, skipSpace, List.dropWhile_cons, visible]
  rfl

theorem members_cons {read : List Char → Option (Value × List Char)}
    {fuel : Nat} {text rest after : List Char} {name : List UInt16} {content : Value}
    (named : stringBody text = some (name, ':' :: rest))
    (visible : skipSpace rest = rest)
    (found : read rest = some (content, ',' :: after))
    (visible' : skipSpace after = after) :
    members read (fuel + 1) ('"' :: text) =
      (members read fuel after).map
        fun (others, rest) => ((name, content) :: others, rest) := by
  have colon : skipSpace (':' :: rest) = ':' :: rest := by
    simp [skipSpace, isSpace]
  have comma : skipSpace (',' :: after) = ',' :: after := by
    simp [skipSpace, isSpace]
  rw [members]
  simp only [named, Option.bind_eq_bind, Option.bind_some, colon, visible,
    found, comma, visible']
  cases members read fuel after with
  | none => rfl
  | some found => rfl

theorem members_last {read : List Char → Option (Value × List Char)}
    {fuel : Nat} {text rest after : List Char} {name : List UInt16} {content : Value}
    (named : stringBody text = some (name, ':' :: rest))
    (visible : skipSpace rest = rest)
    (found : read rest = some (content, '\x7d' :: after)) :
    members read (fuel + 1) ('"' :: text) =
      some ([(name, content)], after) := by
  have colon : skipSpace (':' :: rest) = ':' :: rest := by
    simp [skipSpace, isSpace]
  have brace : skipSpace ('\x7d' :: after) = '\x7d' :: after := by
    simp [skipSpace, isSpace]
  rw [members]
  simp only [named, Option.bind_eq_bind, Option.bind_some, colon, visible,
    found, brace]
  rfl

end Json
