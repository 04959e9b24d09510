import RymgaLoader.Protocol.Wire
import Mathlib.Data.List.Forall2
import Mathlib.Tactic.IntervalCases

/-!
# The Java validators decide the field rules

A Java string and a byte string denote the same text when they are the UTF-16
and the UTF-8 form of one list of characters.  Each `Wire` validator accepts
a string exactly when the bytes it denotes satisfy the field rule.
-/

namespace RymgaLoader.Protocol

open ExactReader

@[simp] theorem check_eq_ok_iff {condition : Prop} [Decidable condition]
    {message : String} {done : Unit} :
    check condition message = .ok done ↔ condition := by
  unfold check
  split <;> simp_all

theorem Checked.bind_eq_ok_iff {α β : Type} {first : Checked α}
    {next : α → Checked β} {result : β} :
    first >>= next = .ok result ↔
      ∃ value, first = .ok value ∧ next value = .ok result :=
  Fallible.returns_bind_iff (m := Checked)

/-- `value` and `bytes` are the two encodings of one text. -/
def Spells (value : JavaString) (bytes : Bytes) : Prop :=
  ∃ scalars, value = Unicode.utf16Encode scalars ∧
    bytes = Unicode.encode scalars

theorem utf16Encode_injective : Function.Injective Unicode.utf16Encode := by
  intro left right same
  have decoded : Unicode.utf16Decode (Unicode.utf16Encode left) = some right :=
    Unicode.utf16Decode_eq_some_iff.mpr same
  rw [Unicode.utf16Decode_encode] at decoded
  exact Option.some.inj decoded

theorem Spells.bytes_unique {value : JavaString} {left right : Bytes}
    (first : Spells value left) (second : Spells value right) :
    left = right := by
  obtain ⟨scalars, rfl, rfl⟩ := first
  obtain ⟨others, same, rfl⟩ := second
  rw [utf16Encode_injective same]

theorem Spells.value_unique {left right : JavaString} {bytes : Bytes}
    (first : Spells left bytes) (second : Spells right bytes) :
    left = right := by
  obtain ⟨scalars, rfl, rfl⟩ := first
  obtain ⟨others, rfl, same⟩ := second
  rw [Unicode.encode_injective same]

theorem IsText.exists_spells {limit : Nat} {bytes : Bytes}
    (text : IsText limit bytes) : ∃ value, Spells value bytes := by
  obtain ⟨-, -, scalars, rfl, -⟩ := text
  exact ⟨_, scalars, rfl, rfl⟩

private theorem units_folded {fold : Nat → Nat}
    (small : ∀ code, code < 0x80 → fold code < 0x80)
    (fixed : ∀ code, 0x80 ≤ code → fold code = code) (scalar : Char) :
    if scalar.toNat < 0x80 then
      ((Unicode.utf16Units scalar).map fun unit =>
        UInt16.ofNat (fold unit.toNat)).map UInt16.toNat = [fold scalar.toNat]
    else (Unicode.utf16Units scalar).map
        (fun unit => UInt16.ofNat (fold unit.toNat)) =
      Unicode.utf16Units scalar := by
  split
  · rename_i low
    obtain ⟨unit, singleton, number⟩ :=
      Unicode.utf16_asciiTransparent.ascii scalar low
    have bound := small scalar.toNat low
    simp only [singleton, List.map_cons, List.map_nil, number,
      UInt16.toNat_ofNat']
    rw [Nat.mod_eq_of_lt (by omega)]
  · rename_i high
    obtain ⟨-, large⟩ :=
      Unicode.utf16_asciiTransparent.other scalar (by omega)
    refine (List.map_congr_left fun unit member => ?_).trans (List.map_id _)
    rw [fixed unit.toNat (large unit member), UInt16.ofNat_toNat]
    rfl

private theorem java_ascii {characters : List Char} {unit : UInt16}
    (low : ∀ character ∈ characters, character.toNat < 0x80)
    (member : unit ∈ java characters) : unit.toNat < 0x80 := by
  have codes : (java characters).map UInt16.toNat =
      characters.map Char.toNat :=
    Unicode.utf16_asciiTransparent.map_code_of_ascii low
  have listed : unit.toNat ∈ characters.map Char.toNat := by
    rw [← codes]
    exact List.mem_map_of_mem member
  obtain ⟨character, characterMember, same⟩ := List.mem_map.mp listed
  rw [← same]
  exact low character characterMember

private theorem forall₂_pieces {holds : Char → JavaString → Prop}
    {piece : Char → JavaString} (each : ∀ scalar, holds scalar (piece scalar))
    (scalars : List Char) :
    List.Forall₂ holds scalars (scalars.map piece) := by
  induction scalars with
  | nil => exact .nil
  | cons scalar scalars ih => exact .cons (each scalar) ih

private theorem flatten_pieces (change : UInt16 → UInt16)
    (scalars : List Char) :
    (Unicode.utf16Encode scalars).map change =
      (scalars.map fun scalar =>
        (Unicode.utf16Units scalar).map change).flatten := by
  induction scalars with
  | nil => rfl
  | cons scalar scalars ih => simp [ih]

/-- The case mapping of the `C` locale: only ASCII letters have a case. -/
def asciiCaseMapping : CaseMapping where
  toLowerCase value := value.map fun unit =>
    UInt16.ofNat (asciiLower unit.toNat)
  toUpperCase value := value.map fun unit =>
    UInt16.ofNat (asciiUpper unit.toNat)
  lowers := by
    intro scalars
    refine ⟨_, forall₂_pieces ?_ scalars, flatten_pieces _ scalars⟩
    intro scalar
    have folded := @units_folded asciiLower
      (by intro code low; unfold asciiLower; split <;> omega)
      (by intro code high; unfold asciiLower; split <;> omega) scalar
    unfold LowerPiece
    split
    · rwa [if_pos ‹_›] at folded
    · rename_i high
      rw [if_neg high] at folded
      obtain ⟨nonempty, large⟩ :=
        Unicode.utf16_asciiTransparent.other scalar (by omega)
      rw [folded]
      refine ⟨nonempty, fun unit member listed => ?_⟩
      have low := java_ascii (by decide) listed
      have := large unit member
      omega
  uppers := by
    intro scalars
    refine ⟨_, forall₂_pieces ?_ scalars, flatten_pieces _ scalars⟩
    intro scalar
    have folded := @units_folded asciiUpper
      (by intro code low; unfold asciiUpper; split <;> omega)
      (by intro code high; unfold asciiUpper; split <;> omega) scalar
    unfold UpperPiece
    split
    · rwa [if_pos ‹_›] at folded
    · rename_i high
      rw [if_neg high] at folded
      obtain ⟨nonempty, large⟩ :=
        Unicode.utf16_asciiTransparent.other scalar (by omega)
      rw [folded]
      obtain ⟨unit, member⟩ := List.exists_mem_of_ne_nil _ nonempty
      refine ⟨unit, member, fun listed => ?_⟩
      have low := java_ascii (by decide) listed
      have := large unit member
      omega

namespace Wire

theorem utf8_eq_ok_iff {name : String} {value : JavaString} {bytes : Bytes} :
    utf8 name value = .ok bytes ↔ Spells value bytes := by
  unfold utf8
  constructor
  · intro encoded
    split at encoded
    · rename_i scalars decoded
      cases encoded
      exact ⟨scalars, Unicode.utf16Decode_eq_some_iff.mp decoded, rfl⟩
    · cases encoded
  · rintro ⟨scalars, rfl, rfl⟩
    rw [Unicode.utf16Decode_encode]

theorem requireBytes_eq_ok_iff {name : String} {value : Bytes}
    {length : Nat} {done : Unit} :
    requireBytes name value length = .ok done ↔ value.length = length :=
  check_eq_ok_iff

theorem requireTimestamp_eq_ok_iff {name : String} {value : Int64}
    {done : Unit} :
    requireTimestamp name value = .ok done ↔ 0 ≤ value :=
  check_eq_ok_iff.trans Int64.not_lt

theorem isISOControl_iff {unit : UInt16} :
    isISOControl unit = true ↔ IsoControl unit.toNat := by
  simp [isISOControl, IsoControl]

private theorem units_bmp {scalar : Char} (low : scalar.toNat < 0x10000) :
    Unicode.utf16Units scalar = [UInt16.ofNat scalar.toNat] ∧
      (UInt16.ofNat scalar.toNat).toNat = scalar.toNat := by
  constructor
  · rw [Unicode.utf16Units, if_pos low]
  · rw [UInt16.toNat_ofNat', Nat.mod_eq_of_lt low]

private theorem mem_units_of_control {scalar : Char} {unit : UInt16}
    (member : unit ∈ Unicode.utf16Units scalar)
    (control : IsoControl unit.toNat) : scalar.toNat = unit.toNat := by
  by_cases low : scalar.toNat < 0x10000
  · obtain ⟨singleton, number⟩ := units_bmp low
    rw [singleton, List.mem_singleton] at member
    rw [member, number]
  · have bounds := Unicode.scalar_bounds scalar
    rw [Unicode.utf16Units, if_neg low] at member
    unfold IsoControl at control
    simp only [List.mem_cons, List.not_mem_nil, or_false] at member
    rcases member with rfl | rfl
    · rw [UInt16.toNat_ofNat', Nat.mod_eq_of_lt (by omega)] at control
      omega
    · rw [UInt16.toNat_ofNat', Nat.mod_eq_of_lt (by omega)] at control
      omega

theorem control_iff (scalars : List Char) :
    (∀ unit ∈ Unicode.utf16Encode scalars, ¬IsoControl unit.toNat) ↔
      ∀ scalar ∈ scalars, ¬IsoControl scalar.toNat := by
  constructor
  · intro clean scalar member control
    have low : scalar.toNat < 0x10000 := by
      unfold IsoControl at control
      omega
    obtain ⟨singleton, number⟩ := units_bmp low
    refine clean (UInt16.ofNat scalar.toNat) ?_ (by rwa [number])
    exact List.mem_flatMap.mpr ⟨scalar, member, by simp [singleton]⟩
  · intro clean unit member control
    obtain ⟨scalar, scalarMember, unitMember⟩ := List.mem_flatMap.mp member
    exact clean scalar scalarMember
      (mem_units_of_control unitMember control ▸ control)

theorem utf16Encode_eq_nil_iff {scalars : List Char} :
    Unicode.utf16Encode scalars = [] ↔ scalars = [] := by
  constructor
  · intro empty
    exact utf16Encode_injective (empty.trans Unicode.utf16Encode_nil.symm)
  · rintro rfl
    rfl

theorem encode_eq_nil_iff {scalars : List Char} :
    Unicode.encode scalars = [] ↔ scalars = [] := by
  constructor
  · intro empty
    exact Unicode.encode_injective (empty.trans Unicode.encode_nil.symm)
  · rintro rfl
    rfl

theorem requireString_eq_ok_iff {name : String} {value : JavaString}
    {maxBytes : Nat} {done : Unit} :
    requireString name value maxBytes = .ok done ↔
      ∃ bytes, Spells value bytes ∧ IsText maxBytes bytes := by
  simp only [requireString, Checked.bind_eq_ok_iff, check_eq_ok_iff,
    utf8_eq_ok_iff, exists_const]
  constructor
  · rintro ⟨nonempty, -, clean, bytes, spelled, short⟩
    refine ⟨bytes, spelled, ?_⟩
    obtain ⟨scalars, rfl, rfl⟩ := spelled
    have present : scalars ≠ [] := by
      rintro rfl
      exact nonempty rfl
    refine ⟨fun empty => present (encode_eq_nil_iff.mp empty), short, scalars,
      rfl, (control_iff scalars).mp ?_⟩
    intro unit member control
    exact clean (List.any_eq_true.mpr
      ⟨unit, member, isISOControl_iff.mpr control⟩)
  · rintro ⟨bytes, ⟨scalars, rfl, rfl⟩, present, short, others, same, clean⟩
    cases Unicode.encode_injective same
    have unitsClean := (control_iff scalars).mpr clean
    refine ⟨?_, ?_, ?_, _, ⟨scalars, rfl, rfl⟩, short⟩
    · intro empty
      apply present
      rw [List.isEmpty_iff, utf16Encode_eq_nil_iff] at empty
      rw [empty, Unicode.encode_nil]
    · intro member
      exact unitsClean 0 member (Or.inl (by decide))
    · intro found
      obtain ⟨unit, member, control⟩ := List.any_eq_true.mp found
      exact unitsClean unit member (isISOControl_iff.mp control)

private theorem forall_codes {α : Type} {code : α → Nat} {units : List α}
    {scalars : List Char} (same : units.map code = scalars.map Char.toNat)
    (holds : Nat → Prop) :
    (∀ unit ∈ units, holds (code unit)) ↔
      ∀ scalar ∈ scalars, holds scalar.toNat := by
  have left : (∀ unit ∈ units, holds (code unit)) ↔
      ∀ number ∈ units.map code, holds number := by simp
  have right : (∀ scalar ∈ scalars, holds scalar.toNat) ↔
      ∀ number ∈ scalars.map Char.toNat, holds number := by simp
  rw [left, right, same]

private theorem identifier_scalars {α : Type} {code : α → Nat}
    {image : Char → List α}
    (transparent : Unicode.AsciiTransparent code image) {scalars : List Char} :
    (∀ unit ∈ scalars.flatMap image, IdentifierCode (code unit)) ↔
      ∀ scalar ∈ scalars, IdentifierCode scalar.toNat := by
  constructor
  · intro units
    have low := transparent.ascii_of_units
      fun unit member => (units unit member).ascii
    exact (forall_codes (transparent.map_code_of_ascii low) _).mp units
  · intro identifier
    have low : ∀ scalar ∈ scalars, scalar.toNat < 0x80 :=
      fun scalar member => (identifier scalar member).ascii
    exact (forall_codes (transparent.map_code_of_ascii low) _).mpr identifier

theorem requireIdentifier_eq_ok_iff {name : String} {value : JavaString}
    {maxBytes : Nat} {done : Unit} :
    requireIdentifier name value maxBytes = .ok done ↔
      ∃ bytes, Spells value bytes ∧ IsIdentifier maxBytes bytes := by
  simp only [requireIdentifier, Checked.bind_eq_ok_iff, check_eq_ok_iff,
    requireString_eq_ok_iff, exists_const]
  constructor
  · rintro ⟨⟨bytes, ⟨scalars, rfl, rfl⟩, nonempty, short, -⟩, units⟩
    refine ⟨_, ⟨scalars, rfl, rfl⟩, nonempty, short, ?_⟩
    exact (identifier_scalars Unicode.utf8_asciiTransparent).mpr
      ((identifier_scalars Unicode.utf16_asciiTransparent).mp units)
  · rintro ⟨bytes, ⟨scalars, rfl, rfl⟩, identifier⟩
    refine ⟨⟨_, ⟨scalars, rfl, rfl⟩, identifier.isText⟩, ?_⟩
    exact (identifier_scalars Unicode.utf16_asciiTransparent).mpr
      ((identifier_scalars Unicode.utf8_asciiTransparent).mp identifier.2.2)

private theorem java_toNat_iff {characters : List Char}
    (low : ∀ character ∈ characters, character.toNat < 0x80)
    {value : JavaString} :
    value = java characters ↔
      value.map UInt16.toNat = characters.map Char.toNat := by
  have codes : (java characters).map UInt16.toNat =
      characters.map Char.toNat :=
    Unicode.utf16_asciiTransparent.map_code_of_ascii low
  constructor
  · rintro rfl
    exact codes
  · intro same
    rw [← codes] at same
    exact List.map_injective_iff.mpr
      Unicode.utf16_asciiTransparent.codeInjective same

private theorem mem_java_iff {characters : List Char}
    (low : ∀ character ∈ characters, character.toNat < 0x80)
    {unit : UInt16} :
    unit ∈ java characters ↔ unit.toNat ∈ characters.map Char.toNat := by
  have codes : (java characters).map UInt16.toNat =
      characters.map Char.toNat :=
    Unicode.utf16_asciiTransparent.map_code_of_ascii low
  rw [← codes, List.mem_map_of_injective
    Unicode.utf16_asciiTransparent.codeInjective]

/-- The part of a filename in front of its first dot. -/
private theorem take_idxOf?_eq_takeWhile (value : JavaString) (dot : UInt16) :
    (value.idxOf? dot).elim value value.take =
      value.takeWhile (· ≠ dot) := by
  induction value with
  | nil => rfl
  | cons unit value ih =>
      rw [List.idxOf?_cons]
      by_cases same : unit = dot
      · simp [same]
      · simp only [beq_iff_eq, same, if_false]
        rw [List.takeWhile_cons_of_pos (by simpa using same), ← ih]
        cases value.idxOf? dot with
        | none => rfl
        | some index => rfl

private theorem idxOf?_eq_zero_iff {value : JavaString} {dot : UInt16} :
    value.idxOf? dot = some 0 ↔ value.head? = some dot := by
  cases value with
  | nil => simp
  | cons unit value =>
      rw [List.idxOf?_cons, List.head?_cons, Option.some.injEq]
      by_cases same : unit = dot
      · simp [same]
      · simp [same]

/-- The images of ASCII characters under a case mapping are their folds. -/
private theorem map_flatten_of_ascii {fold : Nat → Nat} {scalars : List Char}
    {pieces : List JavaString}
    (folded : List.Forall₂ (fun scalar piece => scalar.toNat < 0x80 →
      piece.map UInt16.toNat = [fold scalar.toNat]) scalars pieces)
    (low : ∀ scalar ∈ scalars, scalar.toNat < 0x80) :
    pieces.flatten.map UInt16.toNat = (scalars.map Char.toNat).map fold := by
  induction folded with
  | nil => rfl
  | cons first rest ih =>
      have image := first (low _ (by simp))
      have images := ih fun scalar member => low scalar (by simp [member])
      simp [image, images]

private theorem map_flatten_upper {scalars : List Char}
    {pieces : List JavaString}
    (upper : List.Forall₂ UpperPiece scalars pieces)
    (low : ∀ scalar ∈ scalars, scalar.toNat < 0x80) :
    pieces.flatten.map UInt16.toNat =
      (scalars.map Char.toNat).map asciiUpper := by
  refine map_flatten_of_ascii (upper.imp ?_) low
  intro scalar piece image small
  rwa [UpperPiece, if_pos small] at image

private theorem map_flatten_lower {scalars : List Char}
    {pieces : List JavaString}
    (lower : List.Forall₂ LowerPiece scalars pieces)
    (low : ∀ scalar ∈ scalars, scalar.toNat < 0x80) :
    pieces.flatten.map UInt16.toNat =
      (scalars.map Char.toNat).map asciiLower := by
  refine map_flatten_of_ascii (lower.imp ?_) low
  intro scalar piece image small
  rwa [LowerPiece, if_pos small] at image

private theorem ReservedStem.mem_reserved {codes : List Nat}
    (reserved : ReservedStem codes) :
    ∀ code ∈ codes, code ∈ reservedCharacters.map Char.toNat := by
  intro code member
  have digits : ∀ digit, 0x31 ≤ digit → digit ≤ 0x39 →
      digit ∈ reservedCharacters.map Char.toNat := by
    intro digit low high
    interval_cases digit <;> decide
  rcases reserved with rfl | rfl | rfl | rfl | ⟨digit, low, high, rfl | rfl⟩
  · revert code
    decide
  · revert code
    decide
  · revert code
    decide
  · revert code
    decide
  · rcases List.mem_append.mp member with letter | last
    · clear member
      revert code
      decide
    · rw [List.mem_singleton.mp last]
      exact digits digit low high
  · rcases List.mem_append.mp member with letter | last
    · clear member
      revert code
      decide
    · rw [List.mem_singleton.mp last]
      exact digits digit low high

private theorem ascii_of_upper {scalars : List Char}
    {pieces : List JavaString}
    (upper : List.Forall₂ UpperPiece scalars pieces)
    (reserved : ∀ unit ∈ pieces.flatten, unit ∈ java reservedCharacters) :
    ∀ scalar ∈ scalars, scalar.toNat < 0x80 := by
  induction upper with
  | nil => simp
  | @cons first piece scalars pieces image rest ih =>
      intro scalar member
      rcases List.mem_cons.mp member with rfl | member
      · by_contra high
        rw [UpperPiece, if_neg high] at image
        obtain ⟨unit, unitMember, outside⟩ := image
        exact outside (reserved unit (by simp [unitMember]))
      · refine ih ?_ scalar member
        intro unit unitMember
        apply reserved unit
        rw [List.flatten_cons]
        exact List.mem_append_right _ unitMember

private theorem reserved_upper_iff {scalars : List Char}
    {pieces : List JavaString}
    (upper : List.Forall₂ UpperPiece scalars pieces) :
    ReservedStem (pieces.flatten.map UInt16.toNat) ↔
      ReservedStem ((scalars.map Char.toNat).map asciiUpper) := by
  constructor
  · intro reserved
    have low := ascii_of_upper upper fun unit member =>
      (mem_java_iff (by decide)).mpr
        (ReservedStem.mem_reserved reserved _ (List.mem_map_of_mem member))
    rwa [map_flatten_upper upper low] at reserved
  · intro reserved
    have low : ∀ scalar ∈ scalars, scalar.toNat < 0x80 := by
      intro scalar member
      exact asciiUpper_ascii (reserved.ascii _
        (List.mem_map_of_mem (List.mem_map_of_mem member)))
    rwa [map_flatten_upper upper low]

private theorem eq_nil_of_flatten_lower {scalars : List Char}
    {pieces : List JavaString}
    (lower : List.Forall₂ LowerPiece scalars pieces)
    (empty : pieces.flatten = []) : scalars = [] := by
  cases lower with
  | nil => rfl
  | @cons scalar piece scalars pieces image rest =>
      rw [List.flatten_cons, List.append_eq_nil_iff] at empty
      rw [empty.1, LowerPiece] at image
      split at image
      · cases image
      · exact (image.1 rfl).elim

/-- Where the lower-cased string ends in characters of `.jar`, the string
itself ends in the ASCII characters they come from. -/
private theorem split_lower {scalars : List Char} {pieces : List JavaString}
    {front back : JavaString}
    (lower : List.Forall₂ LowerPiece scalars pieces)
    (split : pieces.flatten = front ++ back)
    (jar : ∀ unit ∈ back, unit ∈ java ['.', 'j', 'a', 'r']) :
    ∃ before after firsts lasts, scalars = before ++ after ∧
      List.Forall₂ LowerPiece before firsts ∧
      List.Forall₂ LowerPiece after lasts ∧ firsts.flatten = front ∧
      lasts.flatten = back ∧ ∀ scalar ∈ after, scalar.toNat < 0x80 := by
  induction lower generalizing front back with
  | nil =>
      obtain ⟨rfl, rfl⟩ := List.append_eq_nil_iff.mp split.symm
      exact ⟨[], [], [], [], rfl, .nil, .nil, rfl, rfl, by simp⟩
  | @cons scalar piece scalars pieces image rest ih =>
      rw [List.flatten_cons, List.append_eq_append_iff] at split
      rcases split with ⟨middle, rfl, split⟩ | ⟨middle, same, rfl⟩
      · obtain ⟨before, after, firsts, lasts, rfl, head, tail, rfl, rfl,
          low⟩ := ih split jar
        exact ⟨scalar :: before, after, piece :: firsts, lasts, rfl,
          .cons image head, tail, rfl, rfl, low⟩
      obtain ⟨before, after, firsts, lasts, rfl, head, tail, empty, ends,
        low⟩ := ih (List.nil_append _).symm
          fun unit member => jar unit (List.mem_append_right _ member)
      cases middle with
      | nil =>
          refine ⟨scalar :: before, after, piece :: firsts, lasts, rfl,
            .cons image head, tail, ?_, by rw [ends, List.nil_append], low⟩
          rw [List.flatten_cons, empty, same, List.append_nil, List.append_nil]
      | cons unit middle =>
          have small : scalar.toNat < 0x80 := by
            by_contra high
            rw [LowerPiece, if_neg high] at image
            exact image.2 unit (by simp [same]) (jar unit (by simp))
          have single := image
          rw [LowerPiece, if_pos small, same] at single
          have length := congrArg List.length single
          simp only [List.length_map, List.length_append, List.length_cons,
            List.length_nil] at length
          have noFront : front = [] :=
            List.eq_nil_of_length_eq_zero (by omega)
          have noBefore := eq_nil_of_flatten_lower head empty
          subst noFront noBefore
          refine ⟨[], scalar :: after, [], piece :: lasts, rfl, .nil,
            .cons image tail, rfl, ?_, ?_⟩
          · rw [List.flatten_cons, ends, same, List.nil_append]
          · intro candidate member
            rcases List.mem_cons.mp member with rfl | member
            · exact small
            · exact low candidate member

private theorem jar_lower_iff {scalars : List Char} {pieces : List JavaString}
    (lower : List.Forall₂ LowerPiece scalars pieces) :
    java ['.', 'j', 'a', 'r'] <:+ pieces.flatten ↔
      ∃ stem suffix, scalars.map Char.toNat = stem ++ suffix ∧
        suffix.map asciiLower = ['.', 'j', 'a', 'r'].map Char.toNat := by
  constructor
  · rintro ⟨front, split⟩
    obtain ⟨before, after, firsts, lasts, rfl, -, tail, -, ends, low⟩ :=
      split_lower lower split.symm fun unit member => member
    refine ⟨before.map Char.toNat, after.map Char.toNat, by simp, ?_⟩
    rw [← map_flatten_lower tail low, ends]
    rfl
  · rintro ⟨stem, suffix, split, shape⟩
    obtain ⟨before, after, rfl, rfl, rfl⟩ := List.map_eq_append_iff.mp split
    have low : ∀ scalar ∈ after, scalar.toNat < 0x80 := by
      intro scalar member
      apply asciiLower_ascii
      have listed : asciiLower scalar.toNat ∈
          ['.', 'j', 'a', 'r'].map Char.toNat := by
        rw [← shape]
        exact List.mem_map_of_mem (List.mem_map_of_mem member)
      revert listed
      generalize asciiLower scalar.toNat = code
      revert code
      decide
    have pieces_eq : pieces = pieces.take before.length ++
        pieces.drop before.length := (List.take_append_drop _ _).symm
    have tail : List.Forall₂ LowerPiece after
        (pieces.drop before.length) := by
      have dropped := List.forall₂_drop before.length lower
      rwa [List.drop_left] at dropped
    have ends : (pieces.drop before.length).flatten =
        java ['.', 'j', 'a', 'r'] := by
      rw [java_toNat_iff (by decide), map_flatten_lower tail low, shape]
    rw [pieces_eq, List.flatten_append, ends]
    exact List.suffix_append _ _

private theorem reserved_base_iff {base : JavaString} :
    (base = java ['C', 'O', 'N'] ∨ base = java ['P', 'R', 'N'] ∨
      base = java ['A', 'U', 'X'] ∨ base = java ['N', 'U', 'L'] ∨
      (base.length = 4 ∧
        (java ['C', 'O', 'M'] <+: base ∨ java ['L', 'P', 'T'] <+: base) ∧
        base[3]?.any fun c => 0x31 ≤ c.toNat ∧ c.toNat ≤ 0x39)) ↔
      ReservedStem (base.map UInt16.toNat) := by
  rw [java_toNat_iff (by decide), java_toNat_iff (by decide),
    java_toNat_iff (by decide), java_toNat_iff (by decide), ReservedStem]
  refine or_congr_right (or_congr_right (or_congr_right (or_congr_right ?_)))
  constructor
  · rintro ⟨sized, names, digit⟩
    have last : ∀ name : JavaString, name.length = 3 → name <+: base →
        ∃ unit, base = name ++ [unit] ∧ 0x31 ≤ unit.toNat ∧
          unit.toNat ≤ 0x39 := by
      rintro name nameSized ⟨rest, rfl⟩
      rw [List.length_append] at sized
      obtain ⟨unit, rfl⟩ := List.length_eq_one_iff.mp
        (show rest.length = 1 by omega)
      rw [← nameSized, List.getElem?_append_right (Nat.le_refl _)] at digit
      exact ⟨unit, rfl, by simpa using digit⟩
    rcases names with com | lpt
    · obtain ⟨unit, rfl, low, high⟩ := last _ rfl com
      exact ⟨unit.toNat, low, high, Or.inl (by rw [List.map_append]; rfl)⟩
    · obtain ⟨unit, rfl, low, high⟩ := last _ rfl lpt
      exact ⟨unit.toNat, low, high, Or.inr (by rw [List.map_append]; rfl)⟩
  · rintro ⟨digit, low, high, split⟩
    have last : ∀ characters : List Char,
        (∀ character ∈ characters, character.toNat < 0x80) →
        characters.length = 3 →
        base.map UInt16.toNat = characters.map Char.toNat ++ [digit] →
        base.length = 4 ∧ java characters <+: base ∧
          base[3]?.any (fun c => 0x31 ≤ c.toNat ∧ c.toNat ≤ 0x39) := by
      intro characters small sized same
      obtain ⟨front, back, rfl, fronts, backs⟩ :=
        List.map_eq_append_iff.mp same
      obtain ⟨unit, rfl, rfl⟩ := List.map_eq_singleton_iff.mp backs
      have frontSized : front.length = 3 := by
        rw [← sized, ← List.length_map, fronts, List.length_map]
      rw [← java_toNat_iff small] at fronts
      refine ⟨by simp [frontSized], by simp [fronts], ?_⟩
      rw [← frontSized, List.getElem?_append_right (Nat.le_refl _)]
      simpa using ⟨low, high⟩
    rcases split with com | lpt
    · obtain ⟨sized, name, last⟩ := last _ (by decide) rfl com
      exact ⟨sized, Or.inl name, last⟩
    · obtain ⟨sized, name, last⟩ := last _ (by decide) rfl lpt
      exact ⟨sized, Or.inr name, last⟩

private theorem not_suffix_of_jar {value : JavaString}
    {stem suffix : List Nat} {last : Char}
    (split : value.map UInt16.toNat = stem ++ suffix)
    (jar : suffix.map asciiLower = ['.', 'j', 'a', 'r'].map Char.toNat)
    (low : last.toNat < 0x80) (differs : asciiLower last.toNat ≠ 'r'.toNat) :
    ¬java [last] <:+ value := by
  rintro ⟨front, rfl⟩
  obtain ⟨unit, singleton, number⟩ :=
    Unicode.utf16_asciiTransparent.ascii last low
  have ends : (stem ++ suffix).getLast? = some last.toNat := by
    rw [← split, java, Unicode.utf16Encode, List.flatMap_singleton, singleton]
    simp [number]
  have lastCode : (suffix.map asciiLower).getLast? = some 'r'.toNat := by
    rw [jar]
    rfl
  cases lastUnit : suffix.getLast? with
  | none =>
      rw [List.getLast?_map, lastUnit] at lastCode
      cases lastCode
  | some code =>
      rw [List.getLast?_append, lastUnit] at ends
      cases ends
      rw [List.getLast?_map, lastUnit] at lastCode
      exact differs (Option.some.inj lastCode)

private theorem head?_iff {value : JavaString} :
    value.head? = some 0x2E ↔
      (value.map UInt16.toNat).head? = some 0x2E := by
  cases value with
  | nil => simp
  | cons unit value =>
      simp [← UInt16.toNat_inj]

private theorem any_forbidden_iff {value : JavaString} :
    ¬(value.any fun c => decide (c ∈ java forbiddenInFilename)) = true ↔
      ∀ code ∈ value.map UInt16.toNat,
        code ∉ forbiddenInFilename.map Char.toNat := by
  simp only [List.any_eq_true, decide_eq_true_eq,
    @mem_java_iff forbiddenInFilename (by decide), not_exists, not_and,
    List.forall_mem_map]

theorem requireFilename_eq_ok_iff {jdk : CaseMapping} {filename : JavaString}
    {done : Unit} :
    requireFilename jdk filename = .ok done ↔
      ∃ bytes, Spells filename bytes ∧ IsFilename bytes := by
  have accepted_iff : ∀ scalars,
      filename = Unicode.utf16Encode scalars →
      IsText 255 (Unicode.encode scalars) →
      (requireFilename jdk filename = .ok done ↔
        PlainJar (scalars.map Char.toNat)) := by
    rintro scalars rfl text
    obtain ⟨lowered, lower, lowerSplit⟩ := jdk.lowers scalars
    obtain ⟨raised, upper, upperSplit⟩ := jdk.uppers
      (scalars.takeWhile fun scalar => scalar.toNat ≠ 0x2E)
    have stem : (Unicode.utf16Encode scalars).takeWhile (· ≠ 0x2E) =
        Unicode.utf16Encode
          (scalars.takeWhile fun scalar => scalar.toNat ≠ 0x2E) := by
      rw [Unicode.utf16Encode, Unicode.utf16Encode,
        ← Unicode.utf16_asciiTransparent.takeWhile_flatMap scalars (by decide)]
      congr 1
      funext unit
      simp [← UInt16.toNat_inj]
    simp only [requireFilename, Checked.bind_eq_ok_iff, check_eq_ok_iff,
      requireString_eq_ok_iff, exists_const, take_idxOf?_eq_takeWhile,
      idxOf?_eq_zero_iff, reserved_base_iff, stem, lowerSplit, upperSplit,
      jar_lower_iff lower, reserved_upper_iff upper, not_or, not_not, head?_iff,
      any_forbidden_iff]
    have heads := head_units_iff Unicode.utf16_asciiTransparent scalars
    have plains := plain_units_iff Unicode.utf16_asciiTransparent scalars
      (forbiddenInFilename.map Char.toNat) (by decide)
    have stems : (scalars.takeWhile fun scalar => scalar.toNat ≠ 0x2E).map
        Char.toNat = (scalars.map Char.toNat).takeWhile (· ≠ 0x2E) := by
      rw [List.takeWhile_map]
      rfl
    rw [stems]
    constructor
    · rintro ⟨-, visible, notReserved, plain, -, -, jar⟩
      exact ⟨fun dot => visible (heads.mpr dot), plains.mp plain, jar,
        notReserved⟩
    · rintro ⟨visible, plain, jar, notReserved⟩
      obtain ⟨stem, suffix, split, shape⟩ :=
        (suffix_units_iff Unicode.utf16_asciiTransparent scalars
          (by decide)).mpr jar
      exact ⟨⟨_, ⟨scalars, rfl, rfl⟩, text⟩, fun dot => visible (heads.mp dot),
        notReserved, plains.mpr plain,
        not_suffix_of_jar split shape (by decide) (by decide),
        not_suffix_of_jar split shape (by decide) (by decide), jar⟩
  constructor
  · intro accepted
    have text : requireString "originalFilename" filename 255 = .ok done := by
      obtain ⟨_, text, -⟩ := Checked.bind_eq_ok_iff.mp accepted
      exact text
    obtain ⟨bytes, ⟨scalars, spelled, rfl⟩, text⟩ :=
      requireString_eq_ok_iff.mp text
    refine ⟨_, ⟨scalars, spelled, rfl⟩, text, ?_⟩
    exact (plainJar_units_iff Unicode.utf8_asciiTransparent scalars).mpr
      ((accepted_iff scalars spelled text).mp accepted)
  · rintro ⟨bytes, ⟨scalars, spelled, rfl⟩, text, plain⟩
    exact (accepted_iff scalars spelled text).mpr
      ((plainJar_units_iff Unicode.utf8_asciiTransparent scalars).mp plain)

end Wire

end RymgaLoader.Protocol
