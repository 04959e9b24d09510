import Mathlib.Tactic.Ring

/-!
# UTF-8 and UTF-16 as exact codecs of scalar values

A `Char` is a Unicode scalar value, so RFC 3629 well-formedness of a byte
string is being the concatenation of `String.utf8EncodeChar` images.  The two
executable decoders below accept exactly the encoder images, and the UTF-16
side refuses unpaired surrogates.
-/

namespace Unicode

/-- The scalar value numbered `code`, unless a shorter form exists for it. -/
def scalar? (least code : Nat) : Option Char :=
  if valid : least ≤ code ∧ code.isValidChar then
    some (Char.ofNatAux code valid.2)
  else none

theorem scalar?_eq_some_iff {least code : Nat} {scalar : Char} :
    scalar? least code = some scalar ↔
      least ≤ code ∧ scalar.toNat = code := by
  constructor
  · intro found
    by_cases valid : least ≤ code ∧ code.isValidChar
    · rw [scalar?, dif_pos valid] at found
      cases found
      exact ⟨valid.1, rfl⟩
    · rw [scalar?, dif_neg valid] at found
      cases found
  · rintro ⟨atLeast, rfl⟩
    have valid : least ≤ scalar.toNat ∧ scalar.toNat.isValidChar :=
      ⟨atLeast, scalar.valid⟩
    rw [scalar?, dif_pos valid]
    exact congrArg some (Char.ext rfl)

/-- `UTF8-tail` of RFC 3629. -/
def Continues (byte : UInt8) : Prop :=
  0x80 ≤ byte.toNat ∧ byte.toNat < 0xC0

instance (byte : UInt8) : Decidable (Continues byte) := by
  unfold Continues
  infer_instance

/-- The first scalar value of a byte string and what follows it. -/
def decodeChar : List UInt8 → Option (Char × List UInt8)
  | [] => none
  | lead :: rest =>
      if lead.toNat < 0x80 then
        (scalar? 0 lead.toNat).map (·, rest)
      else if 0xC0 ≤ lead.toNat ∧ lead.toNat < 0xE0 then
        match rest with
        | a :: rest =>
            if Continues a then
              (scalar? 0x80 ((lead.toNat - 0xC0) * 64 +
                (a.toNat - 0x80))).map (·, rest)
            else none
        | _ => none
      else if 0xE0 ≤ lead.toNat ∧ lead.toNat < 0xF0 then
        match rest with
        | a :: b :: rest =>
            if Continues a ∧ Continues b then
              (scalar? 0x800 ((lead.toNat - 0xE0) * 4096 +
                (a.toNat - 0x80) * 64 + (b.toNat - 0x80))).map (·, rest)
            else none
        | _ => none
      else if 0xF0 ≤ lead.toNat ∧ lead.toNat < 0xF8 then
        match rest with
        | a :: b :: c :: rest =>
            if Continues a ∧ Continues b ∧ Continues c then
              (scalar? 0x10000 ((lead.toNat - 0xF0) * 262144 +
                (a.toNat - 0x80) * 4096 + (b.toNat - 0x80) * 64 +
                (c.toNat - 0x80))).map (·, rest)
            else none
        | _ => none
      else none

private theorem byte_eq_ofNat {byte : UInt8} {value : Nat}
    (same : byte.toNat = value % 256) : byte = UInt8.ofNat value := by
  apply UInt8.toNat_inj.mp
  rw [UInt8.toNat_ofNat', same]

theorem decodeChar_sound {bytes rest : List UInt8} {scalar : Char}
    (decoded : decodeChar bytes = some (scalar, rest)) :
    bytes = String.utf8EncodeChar scalar ++ rest := by
  unfold decodeChar at decoded
  split at decoded
  · cases decoded
  rename_i lead tail
  split at decoded
  · obtain ⟨found, image, pair⟩ := Option.map_eq_some_iff.mp decoded
    cases pair
    obtain ⟨-, code⟩ := scalar?_eq_some_iff.mp image
    simp only [Char.toNat] at code
    rw [String.utf8EncodeChar, if_pos (by omega)]
    simp only [List.cons_append, List.nil_append, List.cons.injEq, and_true]
    exact byte_eq_ofNat (by omega)
  split at decoded
  · split at decoded
    · rename_i a rest
      split at decoded
      · rename_i continues
        unfold Continues at continues
        obtain ⟨found, image, pair⟩ := Option.map_eq_some_iff.mp decoded
        cases pair
        obtain ⟨least, code⟩ := scalar?_eq_some_iff.mp image
        simp only [Char.toNat] at code
        rw [String.utf8EncodeChar, if_neg (by omega), if_pos (by omega)]
        simp only [List.cons_append, List.nil_append, List.cons.injEq,
          and_true]
        exact ⟨byte_eq_ofNat (by omega), byte_eq_ofNat (by omega)⟩
      · cases decoded
    · cases decoded
  split at decoded
  · split at decoded
    · rename_i a b rest
      split at decoded
      · rename_i continues
        unfold Continues at continues
        obtain ⟨found, image, pair⟩ := Option.map_eq_some_iff.mp decoded
        cases pair
        obtain ⟨least, code⟩ := scalar?_eq_some_iff.mp image
        simp only [Char.toNat] at code
        rw [String.utf8EncodeChar, if_neg (by omega), if_neg (by omega),
          if_pos (by omega)]
        simp only [List.cons_append, List.nil_append, List.cons.injEq,
          and_true]
        exact ⟨byte_eq_ofNat (by omega), byte_eq_ofNat (by omega),
          byte_eq_ofNat (by omega)⟩
      · cases decoded
    · cases decoded
  split at decoded
  · split at decoded
    · rename_i a b c rest
      split at decoded
      · rename_i continues
        unfold Continues at continues
        obtain ⟨found, image, pair⟩ := Option.map_eq_some_iff.mp decoded
        cases pair
        obtain ⟨least, code⟩ := scalar?_eq_some_iff.mp image
        simp only [Char.toNat] at code
        rw [String.utf8EncodeChar, if_neg (by omega), if_neg (by omega),
          if_neg (by omega)]
        simp only [List.cons_append, List.nil_append, List.cons.injEq,
          and_true]
        exact ⟨byte_eq_ofNat (by omega), byte_eq_ofNat (by omega),
          byte_eq_ofNat (by omega), byte_eq_ofNat (by omega)⟩
      · cases decoded
    · cases decoded
  · cases decoded

theorem decodeChar_encodeChar (scalar : Char) (rest : List UInt8) :
    decodeChar (String.utf8EncodeChar scalar ++ rest) =
      some (scalar, rest) := by
  have bound : scalar.val.toNat < 0x110000 := by
    have valid := scalar.valid
    unfold UInt32.isValidChar Nat.isValidChar at valid
    omega
  have found (least code : Nat) (atLeast : least ≤ code)
      (same : scalar.toNat = code) : scalar? least code = some scalar :=
    scalar?_eq_some_iff.mpr ⟨atLeast, same⟩
  unfold String.utf8EncodeChar
  simp only
  split
  · simp only [List.cons_append, List.nil_append, decodeChar,
      UInt8.toNat_ofNat']
    rw [if_pos (by omega), found _ _ (by omega) (by unfold Char.toNat; omega)]
    rfl
  split
  · simp only [List.cons_append, List.nil_append, decodeChar,
      UInt8.toNat_ofNat', Continues]
    rw [if_neg (by omega), if_pos (by omega), if_pos (by omega),
      found _ _ (by omega) (by unfold Char.toNat; omega)]
    rfl
  split
  · simp only [List.cons_append, List.nil_append, decodeChar,
      UInt8.toNat_ofNat', Continues]
    rw [if_neg (by omega), if_neg (by omega), if_pos (by omega),
      if_pos (by omega), found _ _ (by omega) (by unfold Char.toNat; omega)]
    rfl
  · simp only [List.cons_append, List.nil_append, decodeChar,
      UInt8.toNat_ofNat', Continues]
    rw [if_neg (by omega), if_neg (by omega), if_neg (by omega),
      if_pos (by omega), if_pos (by omega),
      found _ _ (by omega) (by unfold Char.toNat; omega)]
    rfl

/-- The decoder reads a scalar value exactly where its encoding stands. -/
theorem decodeChar_eq_some_iff {bytes rest : List UInt8} {scalar : Char} :
    decodeChar bytes = some (scalar, rest) ↔
      bytes = String.utf8EncodeChar scalar ++ rest := by
  constructor
  · exact decodeChar_sound
  · rintro rfl
    exact decodeChar_encodeChar scalar rest

def encode (scalars : List Char) : List UInt8 :=
  scalars.flatMap String.utf8EncodeChar

@[simp] theorem encode_nil : encode [] = [] := rfl

theorem encode_append (left right : List Char) :
    encode (left ++ right) = encode left ++ encode right :=
  List.flatMap_append

@[simp] theorem encode_cons (scalar : Char) (scalars : List Char) :
    encode (scalar :: scalars) =
      String.utf8EncodeChar scalar ++ encode scalars := rfl

def decodeWithin : Nat → List UInt8 → Option (List Char)
  | _, [] => some []
  | 0, _ :: _ => none
  | fuel + 1, bytes@(_ :: _) =>
      match decodeChar bytes with
      | none => none
      | some (scalar, rest) => (decodeWithin fuel rest).map (scalar :: ·)

/-- Strict UTF-8 decoding.  A byte string has at most as many scalar values
as bytes, so its length is enough fuel. -/
def decode (bytes : List UInt8) : Option (List Char) :=
  decodeWithin bytes.length bytes

theorem utf8EncodeChar_ne_nil (scalar : Char) :
    String.utf8EncodeChar scalar ≠ [] := by
  have positive := scalar.utf8Size_pos
  rw [← String.length_utf8EncodeChar] at positive
  exact List.ne_nil_of_length_pos positive

theorem decodeWithin_sound {fuel : Nat} {bytes : List UInt8}
    {scalars : List Char}
    (decoded : decodeWithin fuel bytes = some scalars) :
    bytes = encode scalars := by
  induction fuel generalizing bytes scalars with
  | zero =>
      cases bytes with
      | nil =>
          cases decoded
          rfl
      | cons byte bytes => cases decoded
  | succ fuel ih =>
      cases bytes with
      | nil =>
          cases decoded
          rfl
      | cons byte bytes =>
          unfold decodeWithin at decoded
          split at decoded
          · cases decoded
          · rename_i scalar rest first
            obtain ⟨tail, tailDecoded, rfl⟩ :=
              Option.map_eq_some_iff.mp decoded
            rw [encode_cons, ← ih tailDecoded]
            exact decodeChar_sound first

theorem decodeWithin_encode {fuel : Nat} {scalars : List Char}
    (enough : (encode scalars).length ≤ fuel) :
    decodeWithin fuel (encode scalars) = some scalars := by
  induction scalars generalizing fuel with
  | nil => cases fuel <;> rfl
  | cons scalar scalars ih =>
      rw [encode_cons] at enough ⊢
      have positive : 0 < (String.utf8EncodeChar scalar).length :=
        List.length_pos_iff.mpr (utf8EncodeChar_ne_nil scalar)
      rw [List.length_append] at enough
      cases fuel with
      | zero => omega
      | succ fuel =>
          cases split : String.utf8EncodeChar scalar ++ encode scalars with
          | nil => simp at split
          | cons byte bytes =>
              have first := decodeChar_encodeChar scalar (encode scalars)
              have tail : decodeWithin fuel (encode scalars) = some scalars :=
                ih (by omega)
              rw [split] at first
              simp [decodeWithin, first, tail]

theorem decode_eq_some_iff {bytes : List UInt8} {scalars : List Char} :
    decode bytes = some scalars ↔ bytes = encode scalars := by
  constructor
  · exact decodeWithin_sound
  · rintro rfl
    exact decodeWithin_encode (Nat.le_refl _)

theorem encode_injective : Function.Injective encode := by
  intro left right same
  have decoded : decode (encode left) = some right :=
    decode_eq_some_iff.mpr same
  rw [decode_eq_some_iff.mpr rfl] at decoded
  exact Option.some.inj decoded

def utf16Units (scalar : Char) : List UInt16 :=
  if scalar.toNat < 0x10000 then [UInt16.ofNat scalar.toNat]
  else [UInt16.ofNat (0xD800 + (scalar.toNat - 0x10000) / 0x400),
    UInt16.ofNat (0xDC00 + (scalar.toNat - 0x10000) % 0x400)]

def utf16Encode (scalars : List Char) : List UInt16 :=
  scalars.flatMap utf16Units

@[simp] theorem utf16Encode_nil : utf16Encode [] = [] := rfl

@[simp] theorem utf16Encode_cons (scalar : Char) (scalars : List Char) :
    utf16Encode (scalar :: scalars) =
      utf16Units scalar ++ utf16Encode scalars := rfl

theorem utf16Encode_append (left right : List Char) :
    utf16Encode (left ++ right) = utf16Encode left ++ utf16Encode right :=
  List.flatMap_append

def HighSurrogate (unit : UInt16) : Prop :=
  0xD800 ≤ unit.toNat ∧ unit.toNat < 0xDC00

def LowSurrogate (unit : UInt16) : Prop :=
  0xDC00 ≤ unit.toNat ∧ unit.toNat < 0xE000

instance (unit : UInt16) : Decidable (HighSurrogate unit) := by
  unfold HighSurrogate
  infer_instance

instance (unit : UInt16) : Decidable (LowSurrogate unit) := by
  unfold LowSurrogate
  infer_instance

/-- The number a surrogate pair stands for. -/
def pairCode (high low : UInt16) : Nat :=
  0x10000 + (high.toNat - 0xD800) * 0x400 + (low.toNat - 0xDC00)

/-- Strict UTF-16 decoding: an unpaired surrogate is malformed. -/
def utf16Decode : List UInt16 → Option (List Char)
  | [] => some []
  | [unit] => (scalar? 0 unit.toNat).map ([·])
  | unit :: next :: units =>
      if HighSurrogate unit then
        if LowSurrogate next then
          (scalar? 0x10000 (pairCode unit next)).bind fun scalar =>
            (utf16Decode units).map (scalar :: ·)
        else none
      else
        (scalar? 0 unit.toNat).bind fun scalar =>
          (utf16Decode (next :: units)).map (scalar :: ·)

private theorem unit_eq_ofNat {unit : UInt16} {value : Nat}
    (same : unit.toNat = value % 65536) : unit = UInt16.ofNat value := by
  apply UInt16.toNat_inj.mp
  rw [UInt16.toNat_ofNat', same]

private theorem utf16Units_of_scalar {unit : UInt16} {scalar : Char}
    (found : scalar? 0 unit.toNat = some scalar) :
    utf16Units scalar = [unit] := by
  obtain ⟨-, code⟩ := scalar?_eq_some_iff.mp found
  have small := unit.toNat_lt
  have same : unit = UInt16.ofNat scalar.toNat := unit_eq_ofNat (by omega)
  rw [utf16Units, if_pos (by omega), ← same]

private theorem utf16Units_of_pair {high low : UInt16} {scalar : Char}
    (isHigh : HighSurrogate high) (isLow : LowSurrogate low)
    (found : scalar? 0x10000 (pairCode high low) = some scalar) :
    utf16Units scalar = [high, low] := by
  obtain ⟨least, code⟩ := scalar?_eq_some_iff.mp found
  unfold HighSurrogate at isHigh
  unfold LowSurrogate at isLow
  have codeValue : pairCode high low =
      0x10000 + (high.toNat - 0xD800) * 0x400 + (low.toNat - 0xDC00) := rfl
  have sameHigh : high = UInt16.ofNat
      (0xD800 + (scalar.toNat - 0x10000) / 0x400) :=
    unit_eq_ofNat (by omega)
  have sameLow : low = UInt16.ofNat
      (0xDC00 + (scalar.toNat - 0x10000) % 0x400) :=
    unit_eq_ofNat (by omega)
  rw [utf16Units, if_neg (by omega), ← sameHigh, ← sameLow]

theorem utf16Decode_sound {units : List UInt16} {scalars : List Char}
    (decoded : utf16Decode units = some scalars) :
    units = utf16Encode scalars := by
  induction units using utf16Decode.induct generalizing scalars with
  | case1 =>
      cases decoded
      rfl
  | case2 unit =>
      obtain ⟨scalar, found, rfl⟩ := Option.map_eq_some_iff.mp decoded
      simp [utf16Units_of_scalar found]
  | case3 unit next units isHigh isLow ih =>
      simp only [utf16Decode, isHigh, isLow, if_true] at decoded
      obtain ⟨scalar, found, rest⟩ := Option.bind_eq_some_iff.mp decoded
      obtain ⟨tail, tailDecoded, rfl⟩ := Option.map_eq_some_iff.mp rest
      rw [utf16Encode_cons, utf16Units_of_pair isHigh isLow found,
        ← ih tailDecoded]
      rfl
  | case4 unit next units isHigh notLow =>
      simp [utf16Decode, isHigh, notLow] at decoded
  | case5 unit next units notHigh ih =>
      simp only [utf16Decode, notHigh, if_false] at decoded
      obtain ⟨scalar, found, rest⟩ := Option.bind_eq_some_iff.mp decoded
      obtain ⟨tail, tailDecoded, rfl⟩ := Option.map_eq_some_iff.mp rest
      rw [utf16Encode_cons, utf16Units_of_scalar found, ← ih tailDecoded]
      rfl

theorem scalar_bounds (scalar : Char) :
    scalar.toNat < 0x110000 ∧
      ¬(0xD800 ≤ scalar.toNat ∧ scalar.toNat < 0xE000) := by
  have valid := scalar.valid
  unfold UInt32.isValidChar Nat.isValidChar at valid
  unfold Char.toNat
  omega

theorem scalar?_eq_none_iff {least code : Nat} :
    scalar? least code = none ↔ ¬(least ≤ code ∧ code.isValidChar) := by
  by_cases valid : least ≤ code ∧ code.isValidChar
  · rw [scalar?, dif_pos valid]
    exact iff_of_false nofun (not_not.mpr valid)
  · rw [scalar?, dif_neg valid]
    exact iff_of_true rfl valid

theorem scalar?_none {least code : Nat}
    (surrogate : 0xd800 ≤ code ∧ code ≤ 0xdfff) :
    scalar? least code = none := by
  cases found : scalar? least code with
  | none => rfl
  | some scalar =>
      obtain ⟨-, same⟩ := scalar?_eq_some_iff.mp found
      have bounds := scalar_bounds scalar
      omega

theorem scalar?_some {least code : Nat} (large : least ≤ code)
    (small : code < 0x110000) (plain : ¬(0xd800 ≤ code ∧ code ≤ 0xdfff)) :
    ∃ scalar, scalar? least code = some scalar ∧
      scalar.toNat = code := by
  have valid : code.isValidChar := by
    unfold Nat.isValidChar
    omega
  refine ⟨Char.ofNatAux code valid, ?_, rfl⟩
  exact scalar?_eq_some_iff.mpr ⟨large, rfl⟩

private theorem utf16Decode_unit {scalar : Char} {units : List UInt16}
    {scalars : List Char} (small : scalar.toNat < 0x10000)
    (tailDecoded : utf16Decode units = some scalars) :
    utf16Decode (UInt16.ofNat scalar.toNat :: units) =
      some (scalar :: scalars) := by
  have bounds := scalar_bounds scalar
  have unit : (UInt16.ofNat scalar.toNat).toNat = scalar.toNat := by
    rw [UInt16.toNat_ofNat']
    omega
  have found : scalar? 0 scalar.toNat = some scalar :=
    scalar?_eq_some_iff.mpr ⟨Nat.zero_le _, rfl⟩
  have notHigh : ¬HighSurrogate (UInt16.ofNat scalar.toNat) := by
    unfold HighSurrogate
    omega
  cases units with
  | nil =>
      cases tailDecoded
      simp [utf16Decode, unit, found]
  | cons next units =>
      simp only [utf16Decode, notHigh, if_false, unit, found, tailDecoded]
      rfl

private theorem utf16Decode_pair {scalar : Char} {units : List UInt16}
    {scalars : List Char} (large : ¬scalar.toNat < 0x10000)
    (tailDecoded : utf16Decode units = some scalars) :
    utf16Decode (UInt16.ofNat (0xD800 + (scalar.toNat - 0x10000) / 0x400) ::
      UInt16.ofNat (0xDC00 + (scalar.toNat - 0x10000) % 0x400) :: units) =
      some (scalar :: scalars) := by
  have bounds := scalar_bounds scalar
  generalize highDef : UInt16.ofNat
    (0xD800 + (scalar.toNat - 0x10000) / 0x400) = high
  generalize lowDef : UInt16.ofNat
    (0xDC00 + (scalar.toNat - 0x10000) % 0x400) = low
  have highCode : high.toNat = 0xD800 + (scalar.toNat - 0x10000) / 0x400 := by
    rw [← highDef, UInt16.toNat_ofNat']
    omega
  have lowCode : low.toNat = 0xDC00 + (scalar.toNat - 0x10000) % 0x400 := by
    rw [← lowDef, UInt16.toNat_ofNat']
    omega
  have isHigh : HighSurrogate high := by
    unfold HighSurrogate
    omega
  have isLow : LowSurrogate low := by
    unfold LowSurrogate
    omega
  have found : scalar? 0x10000 (pairCode high low) = some scalar := by
    apply scalar?_eq_some_iff.mpr
    unfold pairCode
    omega
  simp only [utf16Decode, isHigh, isLow, if_true, found, tailDecoded]
  rfl

theorem utf16Decode_encode (scalars : List Char) :
    utf16Decode (utf16Encode scalars) = some scalars := by
  induction scalars with
  | nil => rfl
  | cons scalar scalars ih =>
      rw [utf16Encode_cons, utf16Units]
      split
      · rename_i small
        exact utf16Decode_unit small ih
      · rename_i large
        exact utf16Decode_pair large ih

/-- Strict UTF-16 decoding accepts exactly the encoder images. -/
theorem utf16Decode_eq_some_iff {units : List UInt16} {scalars : List Char} :
    utf16Decode units = some scalars ↔ units = utf16Encode scalars := by
  constructor
  · exact utf16Decode_sound
  · rintro rfl
    exact utf16Decode_encode scalars

theorem length_utf16Units_le (scalar : Char) :
    (utf16Units scalar).length ≤
        (String.utf8EncodeChar scalar).length ∧
      ((utf16Units scalar).length =
        (String.utf8EncodeChar scalar).length → scalar.toNat < 0x80) := by
  have number : scalar.val.toNat = scalar.toNat := rfl
  unfold utf16Units
  simp only [String.utf8EncodeChar, number]
  split
  · split
    · simp
      omega
    split
    · simp
    split
    · simp
    · omega
  · split
    · omega
    split
    · omega
    split
    · omega
    · simp

theorem length_utf8EncodeChar_le (scalar : Char) :
    (String.utf8EncodeChar scalar).length ≤
      3 * (utf16Units scalar).length := by
  have number : scalar.val.toNat = scalar.toNat := rfl
  by_cases small : scalar.toNat < 0x10000
  · rw [utf16Units, if_pos small]
    simp only [String.utf8EncodeChar, number]
    split
    · simp
    split
    · simp
    split
    · simp
    · omega
  · have most : (String.utf8EncodeChar scalar).length ≤ 4 := by
      simp only [String.utf8EncodeChar, number]
      split
      · simp
      split
      · simp
      split
      · simp
      · simp
    rw [utf16Units, if_neg small]
    simp only [List.length_cons, List.length_nil]
    omega

theorem length_utf16Encode_le (scalars : List Char) :
    (utf16Encode scalars).length ≤ (encode scalars).length := by
  induction scalars with
  | nil => exact Nat.le_refl 0
  | cons scalar scalars ih =>
      have first := (length_utf16Units_le scalar).1
      rw [utf16Encode_cons, encode_cons, List.length_append,
        List.length_append]
      omega

theorem length_encode_le (scalars : List Char) :
    (encode scalars).length ≤ 3 * (utf16Encode scalars).length := by
  induction scalars with
  | nil => exact Nat.le_refl 0
  | cons scalar scalars ih =>
      have first := length_utf8EncodeChar_le scalar
      rw [utf16Encode_cons, encode_cons, List.length_append,
        List.length_append]
      omega

/-- A surrogate that is no half of a pair. -/
def Unpaired (units : List UInt16) : Prop :=
  ∃ before unit after, units = before ++ unit :: after ∧
    ((HighSurrogate unit ∧ ∀ next ∈ after.head?, ¬LowSurrogate next) ∨
      (LowSurrogate unit ∧ ∀ last ∈ before.getLast?, ¬HighSurrogate last))

theorem HighSurrogate.not_low {unit : UInt16} (high : HighSurrogate unit) :
    ¬LowSurrogate unit := by
  unfold HighSurrogate at high
  unfold LowSurrogate
  omega

theorem not_unpaired_nil : ¬Unpaired [] := by
  rintro ⟨before, unit, after, split, -⟩
  simp at split

/-- Text in front that does not end in a high surrogate pairs nothing. -/
theorem Unpaired.append {front units : List UInt16} {last : UInt16}
    (plain : ¬HighSurrogate last) (unpaired : Unpaired units) :
    Unpaired (front ++ last :: units) := by
  obtain ⟨before, unit, after, rfl, stray⟩ := unpaired
  refine ⟨front ++ last :: before, unit, after, by simp, ?_⟩
  refine stray.imp_right fun ⟨low, alone⟩ => ⟨low, ?_⟩
  intro other final
  rw [List.getLast?_append, List.getLast?_cons] at final
  cases ended : before.getLast? with
  | none =>
      rw [ended] at final
      cases final
      exact plain
  | some previous =>
      rw [ended] at final
      cases final
      exact alone _ ended

theorem unpaired_cons_iff {unit : UInt16} {units : List UInt16}
    (notHigh : ¬HighSurrogate unit) (notLow : ¬LowSurrogate unit) :
    Unpaired (unit :: units) ↔ Unpaired units := by
  constructor
  · rintro ⟨before, found, after, split, stray⟩
    cases before with
    | nil =>
        cases split
        rcases stray with ⟨high, -⟩ | ⟨low, -⟩
        · exact absurd high notHigh
        · exact absurd low notLow
    | cons first before =>
        cases split
        refine ⟨before, found, after, rfl, ?_⟩
        refine stray.imp_right fun ⟨low, alone⟩ => ⟨low, ?_⟩
        intro last final
        refine alone last ?_
        rw [List.getLast?_cons, Option.mem_def.mp final]
        rfl
  · exact @Unpaired.append [] units unit notHigh

theorem unpaired_pair_iff {high low : UInt16} {units : List UInt16}
    (isHigh : HighSurrogate high) (isLow : LowSurrogate low) :
    Unpaired (high :: low :: units) ↔ Unpaired units := by
  have notHigh : ¬HighSurrogate low := fun also => also.not_low isLow
  constructor
  · rintro ⟨before, found, after, split, stray⟩
    rcases before with - | ⟨first, - | ⟨second, before⟩⟩
    · cases split
      rcases stray with ⟨-, alone⟩ | ⟨also, -⟩
      · exact absurd isLow (alone low rfl)
      · exact absurd also isHigh.not_low
    · cases split
      rcases stray with ⟨also, -⟩ | ⟨-, alone⟩
      · exact absurd also notHigh
      · exact absurd isHigh (alone high rfl)
    · cases split
      refine ⟨before, found, after, rfl, ?_⟩
      refine stray.imp_right fun ⟨lower, alone⟩ => ⟨lower, ?_⟩
      intro last final
      refine alone last ?_
      rw [List.getLast?_cons, List.getLast?_cons, Option.mem_def.mp final]
      rfl
  · exact @Unpaired.append [high] units low notHigh

theorem Unpaired.of_low {unit : UInt16} (low : LowSurrogate unit)
    (units : List UInt16) : Unpaired (unit :: units) :=
  ⟨[], unit, units, rfl, Or.inr ⟨low, nofun⟩⟩

theorem scalar?_of_plain {unit : UInt16} (notHigh : ¬HighSurrogate unit)
    (notLow : ¬LowSurrogate unit) :
    ∃ scalar, scalar? 0 unit.toNat = some scalar := by
  have small := unit.toNat_lt
  unfold HighSurrogate at notHigh
  unfold LowSurrogate at notLow
  obtain ⟨scalar, image, -⟩ := @scalar?_some 0 unit.toNat (Nat.zero_le _)
    (by omega) (by omega)
  exact ⟨scalar, image⟩

/-- Strict UTF-16 decoding fails exactly on an unpaired surrogate. -/
theorem utf16Decode_eq_none_iff {units : List UInt16} :
    utf16Decode units = none ↔ Unpaired units := by
  induction units using utf16Decode.induct with
  | case1 =>
      constructor
      · nofun
      · exact fun unpaired => absurd unpaired not_unpaired_nil
  | case2 unit =>
      rw [utf16Decode, Option.map_eq_none_iff]
      by_cases isHigh : HighSurrogate unit
      · refine iff_of_true (scalar?_none ?_)
          ⟨[], unit, [], rfl, Or.inl ⟨isHigh, nofun⟩⟩
        unfold HighSurrogate at isHigh
        omega
      by_cases isLow : LowSurrogate unit
      · refine iff_of_true (scalar?_none ?_) (Unpaired.of_low isLow [])
        unfold LowSurrogate at isLow
        omega
      · obtain ⟨scalar, image⟩ := scalar?_of_plain isHigh isLow
        rw [image, unpaired_cons_iff isHigh isLow]
        exact iff_of_false nofun not_unpaired_nil
  | case3 unit next units isHigh isLow ih =>
      have found : ∃ scalar, scalar? 0x10000 (pairCode unit next) =
          some scalar ∧ scalar.toNat = pairCode unit next := by
        unfold HighSurrogate at isHigh
        unfold LowSurrogate at isLow
        apply scalar?_some <;> unfold pairCode <;> omega
      obtain ⟨scalar, image, -⟩ := found
      rw [utf16Decode, if_pos isHigh, if_pos isLow, image, Option.bind_some,
        Option.map_eq_none_iff, ih, unpaired_pair_iff isHigh isLow]
  | case4 unit next units isHigh notLow =>
      rw [utf16Decode, if_pos isHigh, if_neg notLow]
      refine iff_of_true rfl ⟨[], unit, next :: units, rfl, Or.inl ⟨isHigh, ?_⟩⟩
      rintro other ⟨⟩
      exact notLow
  | case5 unit next units notHigh ih =>
      rw [utf16Decode, if_neg notHigh]
      by_cases isLow : LowSurrogate unit
      · have missing : scalar? 0 unit.toNat = none := by
          apply scalar?_none
          unfold LowSurrogate at isLow
          omega
        rw [missing]
        exact iff_of_true rfl (Unpaired.of_low isLow (next :: units))
      · obtain ⟨scalar, image⟩ := scalar?_of_plain notHigh isLow
        rw [image, Option.bind_some, Option.map_eq_none_iff, ih,
          unpaired_cons_iff notHigh isLow]

end Unicode
