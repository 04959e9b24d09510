import RymgaLoader.Lib.AsciiTransparent

/-!
# Field rules of protocol version 1

The rules every text field of a message obeys, stated once over the UTF-8
bytes that travel on the wire.  The native validators and the Java `Wire`
validators are separate code; each is shown to decide these predicates.
-/

namespace RymgaLoader

abbrev Bytes := List UInt8

/-- The bytes of an ASCII literal of the source. -/
def ascii (characters : List Char) : Bytes :=
  characters.map fun character => UInt8.ofNat character.toNat

namespace Protocol

def version : Nat := 1
def nonceBytes : Nat := 32
def sessionIdBytes : Nat := 32
def sha256Bytes : Nat := 32
def ed25519SignatureBytes : Nat := 64
def maxSessionRequestBytes : Nat := 8 * 1024
def maxSessionManifestBytes : Nat := 4 * 1024
def maxArtifactBytes : Nat := 2 * 1024 * 1024 * 1024

/-- The control characters of ISO 8859-1. -/
def IsoControl (code : Nat) : Prop :=
  code < 0x20 ∨ 0x7F ≤ code ∧ code ≤ 0x9F

instance (code : Nat) : Decidable (IsoControl code) := by
  unfold IsoControl
  infer_instance

/-- A bounded, non-empty UTF-8 string without control characters. -/
def IsText (limit : Nat) (bytes : Bytes) : Prop :=
  bytes ≠ [] ∧ bytes.length ≤ limit ∧
    ∃ scalars, bytes = Unicode.encode scalars ∧
      ∀ scalar ∈ scalars, ¬IsoControl scalar.toNat

/-- `a-z`, `A-Z`, `0-9`, `.`, `_` and `-`. -/
def IdentifierCode (code : Nat) : Prop :=
  0x61 ≤ code ∧ code ≤ 0x7A ∨ 0x41 ≤ code ∧ code ≤ 0x5A ∨
    0x30 ≤ code ∧ code ≤ 0x39 ∨ code = 0x2E ∨ code = 0x5F ∨ code = 0x2D

instance (code : Nat) : Decidable (IdentifierCode code) := by
  unfold IdentifierCode
  infer_instance

def IsIdentifier (limit : Nat) (bytes : Bytes) : Prop :=
  bytes ≠ [] ∧ bytes.length ≤ limit ∧
    ∀ byte ∈ bytes, IdentifierCode byte.toNat

/-- Characters that no plain filename contains. -/
def forbiddenInFilename : List Char :=
  ['<', '>', ':', '"', '/', '\\', '|', '?', '*']

def asciiUpper (code : Nat) : Nat :=
  if 0x61 ≤ code ∧ code ≤ 0x7A then code - 0x20 else code

def asciiLower (code : Nat) : Nat :=
  if 0x41 ≤ code ∧ code ≤ 0x5A then code + 0x20 else code

/-- The reserved device names, given the upper-cased codes of a stem. -/
def ReservedStem (codes : List Nat) : Prop :=
  codes = ['C', 'O', 'N'].map Char.toNat ∨
    codes = ['P', 'R', 'N'].map Char.toNat ∨
    codes = ['A', 'U', 'X'].map Char.toNat ∨
    codes = ['N', 'U', 'L'].map Char.toNat ∨
    ∃ digit, 0x31 ≤ digit ∧ digit ≤ 0x39 ∧
      (codes = ['C', 'O', 'M'].map Char.toNat ++ [digit] ∨
        codes = ['L', 'P', 'T'].map Char.toNat ++ [digit])

/-- A plain `.jar` filename, stated over the numbers of its characters. -/
structure PlainJar (codes : List Nat) : Prop where
  visible : codes.head? ≠ some 0x2E
  plain : ∀ code ∈ codes, code ∉ forbiddenInFilename.map Char.toNat
  jar : ∃ stem suffix, codes = stem ++ suffix ∧
    suffix.map asciiLower = ['.', 'j', 'a', 'r'].map Char.toNat
  notReserved : ¬ReservedStem
    ((codes.takeWhile (· ≠ 0x2E)).map asciiUpper)

def IsFilename (bytes : Bytes) : Prop :=
  IsText 255 bytes ∧ PlainJar (bytes.map UInt8.toNat)

theorem IdentifierCode.ascii {code : Nat} (identifier : IdentifierCode code) :
    code < 0x80 := by
  unfold IdentifierCode at identifier
  omega

theorem IdentifierCode.not_isoControl {code : Nat}
    (identifier : IdentifierCode code) : ¬IsoControl code := by
  unfold IdentifierCode at identifier
  unfold IsoControl
  omega

private theorem exists_scalars_of_ascii {bytes : Bytes}
    (low : ∀ byte ∈ bytes, byte.toNat < 0x80) :
    ∃ scalars, bytes = Unicode.encode scalars ∧
      scalars.map Char.toNat = bytes.map UInt8.toNat := by
  induction bytes with
  | nil => exact ⟨[], rfl, rfl⟩
  | cons byte bytes ih =>
      have small := low byte (by simp)
      obtain ⟨scalars, split, codes⟩ :=
        ih fun candidate member => low candidate (by simp [member])
      obtain ⟨scalar, -, number⟩ := Unicode.scalar?_some (Nat.zero_le byte.toNat)
        (by omega) (by omega)
      have image : String.utf8EncodeChar scalar = [byte] := by
        obtain ⟨unit, singleton, code⟩ :=
          Unicode.utf8_asciiTransparent.ascii _ (by rw [number]; exact small)
        rw [number] at code
        rw [singleton, UInt8.toNat_inj.mp code]
      refine ⟨scalar :: scalars, ?_, ?_⟩
      · rw [Unicode.encode_cons, image, split]
        rfl
      · simp [number, codes]

theorem IsIdentifier.isText {limit : Nat} {bytes : Bytes}
    (identifier : IsIdentifier limit bytes) : IsText limit bytes := by
  obtain ⟨nonempty, short, codes⟩ := identifier
  obtain ⟨scalars, split, numbers⟩ :=
    exists_scalars_of_ascii fun byte member => (codes byte member).ascii
  refine ⟨nonempty, short, scalars, split, ?_⟩
  intro scalar member
  have numberMember : scalar.toNat ∈ bytes.map UInt8.toNat := by
    rw [← numbers]
    exact List.mem_map_of_mem member
  obtain ⟨byte, byteMember, same⟩ := List.mem_map.mp numberMember
  rw [← same]
  exact (codes byte byteMember).not_isoControl

theorem asciiUpper_ascii {code : Nat} (low : asciiUpper code < 0x80) :
    code < 0x80 := by
  unfold asciiUpper at low
  split at low <;> omega

theorem asciiLower_ascii {code : Nat} (low : asciiLower code < 0x80) :
    code < 0x80 := by
  unfold asciiLower at low
  split at low <;> omega

theorem ReservedStem.ascii {codes : List Nat} (reserved : ReservedStem codes) :
    ∀ code ∈ codes, code < 0x80 := by
  intro code member
  rcases reserved with rfl | rfl | rfl | rfl | ⟨digit, low, high, rfl | rfl⟩
  all_goals
    simp at member
    omega

section Transparent

variable {unitCode : α → Nat} {image : Char → List α}

theorem head_units_iff
    (transparent : Unicode.AsciiTransparent unitCode image)
    (scalars : List Char) :
    ((scalars.flatMap image).map unitCode).head? = some 0x2E ↔
      (scalars.map Char.toNat).head? = some 0x2E := by
  cases scalars with
  | nil => simp
  | cons scalar scalars =>
      simp only [List.flatMap_cons, List.map_append, List.map_cons,
        List.head?_cons, Option.some.injEq]
      cases shape : image scalar with
      | nil => exact (transparent.image_ne_nil scalar shape).elim
      | cons unit units =>
          have member : unit ∈ image scalar := by simp [shape]
          simp only [List.map_cons, List.cons_append, List.head?_cons,
            Option.some.injEq]
          constructor
          · intro dot
            have number := (transparent.mem_image_iff (by omega)).mp member
            omega
          · intro dot
            obtain ⟨only, singleton, number⟩ :=
              transparent.ascii scalar (by omega)
            rw [shape] at singleton
            cases singleton
            omega

theorem plain_units_iff
    (transparent : Unicode.AsciiTransparent unitCode image)
    (scalars : List Char) (codes : List Nat)
    (low : ∀ code ∈ codes, code < 0x80) :
    (∀ code ∈ (scalars.flatMap image).map unitCode, code ∉ codes) ↔
      ∀ code ∈ scalars.map Char.toNat, code ∉ codes := by
  constructor
  · intro plain code member listed
    obtain ⟨scalar, scalarMember, rfl⟩ := List.mem_map.mp member
    obtain ⟨unit, singleton, number⟩ :=
      transparent.ascii scalar (low _ listed)
    refine plain (unitCode unit) (List.mem_map_of_mem ?_) (number ▸ listed)
    exact List.mem_flatMap.mpr ⟨scalar, scalarMember, by simp [singleton]⟩
  · intro plain code member listed
    obtain ⟨unit, unitMember, rfl⟩ := List.mem_map.mp member
    obtain ⟨scalar, scalarMember, number⟩ :=
      (transparent.mem_flatMap_iff (low _ listed)).mp unitMember
    exact plain scalar.toNat (List.mem_map_of_mem scalarMember)
      (number ▸ listed)

theorem suffix_units_iff
    (transparent : Unicode.AsciiTransparent unitCode image)
    (scalars : List Char) {lowered : List Nat}
    (low : ∀ code ∈ lowered, code < 0x80) :
    (∃ stem suffix, (scalars.flatMap image).map unitCode = stem ++ suffix ∧
        suffix.map asciiLower = lowered) ↔
      ∃ stem suffix, scalars.map Char.toNat = stem ++ suffix ∧
        suffix.map asciiLower = lowered := by
  constructor
  · rintro ⟨stem, suffix, split, shape⟩
    obtain ⟨front, back, units, rfl, rfl⟩ := List.map_eq_append_iff.mp split
    have small : ∀ unit ∈ back, unitCode unit < 0x80 := by
      intro unit member
      apply asciiLower_ascii
      apply low
      rw [← shape]
      exact List.mem_map_of_mem (List.mem_map_of_mem member)
    obtain ⟨before, after, rfl, numbers, -⟩ :=
      transparent.eq_append_of_flatMap_eq small units
    exact ⟨before.map Char.toNat, after.map Char.toNat, by simp,
      by rw [numbers, shape]⟩
  · rintro ⟨stem, suffix, split, shape⟩
    obtain ⟨before, after, rfl, rfl, rfl⟩ := List.map_eq_append_iff.mp split
    have small : ∀ scalar ∈ after, scalar.toNat < 0x80 := by
      intro scalar member
      apply asciiLower_ascii
      apply low
      rw [← shape]
      exact List.mem_map_of_mem (List.mem_map_of_mem member)
    refine ⟨(before.flatMap image).map unitCode, after.map Char.toNat, ?_,
      shape⟩
    rw [List.flatMap_append, List.map_append,
      transparent.map_code_of_ascii small]

theorem reserved_units_iff
    (transparent : Unicode.AsciiTransparent unitCode image)
    (scalars : List Char) :
    ReservedStem ((((scalars.flatMap image).map unitCode).takeWhile
        (· ≠ 0x2E)).map asciiUpper) ↔
      ReservedStem (((scalars.map Char.toNat).takeWhile (· ≠ 0x2E)).map
        asciiUpper) := by
  rw [List.takeWhile_map, List.takeWhile_map]
  have commute := transparent.takeWhile_flatMap scalars
    (show 0x2E < 0x80 by decide)
  simp only [Function.comp_def] at commute ⊢
  rw [commute]
  generalize scalars.takeWhile (fun scalar => decide (scalar.toNat ≠ 0x2E)) =
    stem
  constructor
  · intro reserved
    have small : ∀ unit ∈ stem.flatMap image, unitCode unit < 0x80 := by
      intro unit member
      exact asciiUpper_ascii (reserved.ascii _
        (List.mem_map_of_mem (List.mem_map_of_mem member)))
    rwa [transparent.map_code_of_ascii
      (transparent.ascii_of_units small)] at reserved
  · intro reserved
    have small : ∀ scalar ∈ stem, scalar.toNat < 0x80 := by
      intro scalar member
      exact asciiUpper_ascii (reserved.ascii _
        (List.mem_map_of_mem (List.mem_map_of_mem member)))
    rwa [transparent.map_code_of_ascii small]

/-- Whether a string is a plain `.jar` filename can be read off its code
units in any ASCII-transparent encoding. -/
theorem plainJar_units_iff
    (transparent : Unicode.AsciiTransparent unitCode image)
    (scalars : List Char) :
    PlainJar ((scalars.flatMap image).map unitCode) ↔
      PlainJar (scalars.map Char.toNat) := by
  have heads := head_units_iff transparent scalars
  have plains := plain_units_iff transparent scalars
    (forbiddenInFilename.map Char.toNat) (by decide)
  have suffixes := suffix_units_iff transparent scalars
    (show ∀ code ∈ ['.', 'j', 'a', 'r'].map Char.toNat, code < 0x80 by decide)
  have stems := reserved_units_iff transparent scalars
  constructor
  · rintro ⟨visible, plain, jar, notReserved⟩
    exact ⟨fun dot => visible (heads.mpr dot), plains.mp plain,
      suffixes.mp jar, fun reserved => notReserved (stems.mpr reserved)⟩
  · rintro ⟨visible, plain, jar, notReserved⟩
    exact ⟨fun dot => visible (heads.mp dot), plains.mpr plain,
      suffixes.mpr jar, fun reserved => notReserved (stems.mp reserved)⟩

end Transparent

end Protocol

end RymgaLoader
