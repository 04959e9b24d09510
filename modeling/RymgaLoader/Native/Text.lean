import RymgaLoader.Protocol.Fields
import Mathlib.Data.List.Basic

/-!
# Text validation of the native core

`identifier`, `text_field` and `filename_ok` of `rymga_loader.c`.  A C string
is the list of its bytes before the terminator, and a `const char *` that may
be `NULL` is an optional one.  The adequacy theorems say that the three
functions decide the field rules of the protocol.
-/

namespace RymgaLoader.Native

open Protocol

def identifier (s : Option Bytes) (max : Nat) : Bool :=
  match s with
  | none => false
  | some s =>
      if s.length = 0 ∨ s.length > max then false
      else s.all fun c =>
        (0x61 ≤ c.toNat ∧ c.toNat ≤ 0x7A) ∨ (0x41 ≤ c.toNat ∧ c.toNat ≤ 0x5A) ∨
          (0x30 ≤ c.toNat ∧ c.toNat ≤ 0x39) ∨
          c.toNat = 0x2E ∨ c.toNat = 0x5F ∨ c.toNat = 0x2D

/-- The payload bits of a lead byte and the number of continuation bytes it
announces. -/
def leadByte (p : UInt8) : Option (Nat × Nat) :=
  if p.toNat < 0x80 then some (p.toNat, 0)
  else if p.toNat &&& 0xe0 = 0xc0 then some (p.toNat &&& 0x1f, 1)
  else if p.toNat &&& 0xf0 = 0xe0 then some (p.toNat &&& 0x0f, 2)
  else if p.toNat &&& 0xf8 = 0xf0 then some (p.toNat &&& 0x07, 3)
  else none

def continuation : Nat → Bytes → Option Nat
  | cp, [] => some cp
  | cp, p :: rest =>
      if p.toNat &&& 0xc0 ≠ 0x80 then none
      else continuation (cp <<< 6 ||| (p.toNat &&& 0x3f)) rest

def rejectedCodePoint (extra cp : Nat) : Bool :=
  (extra = 1 ∧ cp < 0x80) ∨ (extra = 2 ∧ cp < 0x800) ∨
    (extra = 3 ∧ cp < 0x10000) ∨ cp > 0x10ffff ∨
    (cp ≥ 0xd800 ∧ cp ≤ 0xdfff) ∨ cp < 0x20 ∨ (cp ≥ 0x7f ∧ cp ≤ 0x9f)

/-- One turn of the loop of `text_field`: what is left behind the code point
at the front, unless it is refused. -/
def textFieldStep : Bytes → Option Bytes
  | [] => none
  | p :: rest =>
      match leadByte p with
      | none => none
      | some (bits, extra) =>
          if extra > rest.length then none
          else
            match continuation bits (rest.take extra) with
            | none => none
            | some cp =>
                if rejectedCodePoint extra cp then none
                else some (rest.drop extra)

def textFieldLoop : Nat → Bytes → Bool
  | _, [] => true
  | 0, _ :: _ => false
  | fuel + 1, p@(_ :: _) =>
      match textFieldStep p with
      | none => false
      | some rest => textFieldLoop fuel rest

/-- Every turn of the loop consumes a byte, so `n` turns are enough. -/
def textField (s : Option Bytes) (max : Nat) : Bool :=
  match s with
  | none => false
  | some p =>
      if p.length = 0 ∨ p.length > max then false
      else textFieldLoop p.length p

def asciiUpperByte (c : UInt8) : UInt8 :=
  if 0x61 ≤ c.toNat ∧ c.toNat ≤ 0x7A then c - 0x61 + 0x41 else c

def filenameOk (s : Option Bytes) : Bool :=
  match s with
  | none => false
  | some s =>
      let n := s.length
      let base := (s.takeWhile (· ≠ 0x2E)).length
      let upper := if base ≤ 4 then (s.take base).map asciiUpperByte else []
      let reserved :=
        (base = 3 ∧ (upper = ascii ['C', 'O', 'N'] ∨
          upper = ascii ['P', 'R', 'N'] ∨ upper = ascii ['A', 'U', 'X'] ∨
          upper = ascii ['N', 'U', 'L'])) ∨
        (base = 4 ∧ (upper.take 3 = ascii ['C', 'O', 'M'] ∨
          upper.take 3 = ascii ['L', 'P', 'T']) ∧
          upper[3]?.any fun c => 0x31 ≤ c.toNat ∧ c.toNat ≤ 0x39)
      if n ≤ 4 ∨ n > 255 then false
      else if base = 0 then false
      else if s.any (· ∈ ascii forbiddenInFilename) then false
      else ¬reserved ∧ s[n - 1]? ≠ some 0x2E ∧ s[n - 1]? ≠ some 0x20 ∧
        s[n - 4]? = some 0x2E ∧
        (s[n - 3]? = some 0x6A ∨ s[n - 3]? = some 0x4A) ∧
        (s[n - 2]? = some 0x61 ∨ s[n - 2]? = some 0x41) ∧
        (s[n - 1]? = some 0x72 ∨ s[n - 1]? = some 0x52)

theorem identifier_iff {s : Option Bytes} {max : Nat} :
    identifier s max = true ↔
      ∃ bytes, s = some bytes ∧ IsIdentifier max bytes := by
  cases s with
  | none => simp [identifier]
  | some bytes =>
      simp only [identifier, IsIdentifier, IdentifierCode, Option.some.injEq,
        exists_eq_left']
      by_cases bounded : bytes.length = 0 ∨ bytes.length > max
      · rw [if_pos bounded]
        constructor
        · intro impossible
          cases impossible
        · rintro ⟨nonempty, short, _⟩
          have positive := List.length_pos_iff.mpr nonempty
          omega
      · rw [if_neg bounded]
        have positive : bytes ≠ [] := by
          rw [← List.length_pos_iff]
          omega
        have short : bytes.length ≤ max := by omega
        simp [positive, short]

theorem identifier_some_iff {bytes : Bytes} {max : Nat} :
    identifier (some bytes) max = true ↔ IsIdentifier max bytes := by
  simp [identifier_iff]

private theorem and_e0_iff : ∀ byte < 256,
    byte &&& 0xe0 = 0xc0 ↔ 0xC0 ≤ byte ∧ byte < 0xE0 := by decide +kernel

private theorem and_f0_iff : ∀ byte < 256,
    byte &&& 0xf0 = 0xe0 ↔ 0xE0 ≤ byte ∧ byte < 0xF0 := by decide +kernel

private theorem and_f8_iff : ∀ byte < 256,
    byte &&& 0xf8 = 0xf0 ↔ 0xF0 ≤ byte ∧ byte < 0xF8 := by decide +kernel

private theorem and_c0_iff : ∀ byte < 256,
    byte &&& 0xc0 = 0x80 ↔ 0x80 ≤ byte ∧ byte < 0xC0 := by decide +kernel

private theorem payload (width byte : Nat) :
    byte &&& (2 ^ width - 1) = byte % 2 ^ width :=
  Nat.and_two_pow_sub_one_eq_mod byte width

private theorem shift_or (cp byte : Nat) :
    cp <<< 6 ||| (byte &&& 0x3f) = cp * 64 + byte % 64 := by
  have low : byte &&& 0x3f = byte % 64 := payload 6 byte
  have small : byte % 64 < 2 ^ 6 := Nat.mod_lt _ (by decide)
  rw [low, ← Nat.shiftLeft_add_eq_or_of_lt small, Nat.shiftLeft_eq]

/-- Keep what follows a decoded scalar value unless it is a control
character. -/
private def visible (decoded : Option (Char × Bytes)) : Option Bytes :=
  decoded.bind fun (scalar, rest) =>
    if IsoControl scalar.toNat then none else some rest

private theorem accepted_iff {extra least cp : Nat} {rest : Bytes}
    (shortest : extra = 0 ∧ least = 0 ∨ extra = 1 ∧ least = 0x80 ∨
      extra = 2 ∧ least = 0x800 ∨ extra = 3 ∧ least = 0x10000) :
    (if rejectedCodePoint extra cp then none else some rest) =
      visible ((Unicode.scalar? least cp).map (·, rest)) := by
  cases found : Unicode.scalar? least cp with
  | none =>
      have invalid := Unicode.scalar?_eq_none_iff.mp found
      unfold Nat.isValidChar at invalid
      simp only [visible, Option.map_none, Option.bind_none]
      rw [if_pos]
      simp only [rejectedCodePoint, decide_eq_true_eq]
      omega
  | some scalar =>
      obtain ⟨large, code⟩ := Unicode.scalar?_eq_some_iff.mp found
      have bounds := Unicode.scalar_bounds scalar
      simp only [visible, Option.map_some, Option.bind_some, code]
      congr 1
      simp only [rejectedCodePoint, IsoControl, decide_eq_true_eq, eq_iff_iff]
      omega

private theorem continuation_nil (cp : Nat) : continuation cp [] = some cp :=
  rfl

private theorem continuation_cons {cp : Nat} {p : UInt8} {rest : Bytes} :
    continuation cp (p :: rest) =
      if Unicode.Continues p then
        continuation (cp * 64 + (p.toNat - 0x80)) rest
      else none := by
  have mask := and_c0_iff p.toNat p.toNat_lt
  rw [continuation, shift_or]
  by_cases continues : Unicode.Continues p
  · have bits : p.toNat % 64 = p.toNat - 0x80 := by
      unfold Unicode.Continues at continues
      omega
    rw [if_neg (by rw [not_not]; exact mask.mpr continues),
      if_pos continues, bits]
  · rw [if_pos (fun same => continues (mask.mp same)), if_neg continues]

private theorem leadByte_eq (p : UInt8) :
    leadByte p =
      if p.toNat < 0x80 then some (p.toNat, 0)
      else if 0xC0 ≤ p.toNat ∧ p.toNat < 0xE0 then
        some (p.toNat - 0xC0, 1)
      else if 0xE0 ≤ p.toNat ∧ p.toNat < 0xF0 then
        some (p.toNat - 0xE0, 2)
      else if 0xF0 ≤ p.toNat ∧ p.toNat < 0xF8 then
        some (p.toNat - 0xF0, 3)
      else none := by
  have bound := p.toNat_lt
  have five : p.toNat &&& 0x1f = p.toNat % 32 := payload 5 p.toNat
  have four : p.toNat &&& 0x0f = p.toNat % 16 := payload 4 p.toNat
  have three : p.toNat &&& 0x07 = p.toNat % 8 := payload 3 p.toNat
  simp only [leadByte, and_e0_iff _ bound, and_f0_iff _ bound,
    and_f8_iff _ bound, five, four, three]
  split
  · rfl
  split
  · rw [show p.toNat % 32 = p.toNat - 0xC0 by omega]
  split
  · rw [show p.toNat % 16 = p.toNat - 0xE0 by omega]
  split
  · rw [show p.toNat % 8 = p.toNat - 0xF0 by omega]
  · rfl

/-- One step of a decoder that reads a lead byte and its continuation bytes and
leaves the judgement on the code point to `finish`. -/
def leadStep {α : Type} (finish : Nat → Nat → Bytes → Option α) :
    Bytes → Option α
  | [] => none
  | p :: rest =>
      match leadByte p with
      | none => none
      | some (bits, extra) =>
          if extra > rest.length then none
          else
            match continuation bits (rest.take extra) with
            | none => none
            | some cp => finish extra cp (rest.drop extra)

/-- The least code point that needs this many continuation bytes. -/
def Shortest (extra least : Nat) : Prop :=
  extra = 0 ∧ least = 0 ∨ extra = 1 ∧ least = 0x80 ∨
    extra = 2 ∧ least = 0x800 ∨ extra = 3 ∧ least = 0x10000

/-- A step whose judgement is that of the strict decoder. -/
theorem leadStep_eq {α : Type} {finish : Nat → Nat → Bytes → Option α}
    {after : Char × Bytes → Option α}
    (judges : ∀ {extra least cp : Nat} {rest : Bytes}, Shortest extra least →
      finish extra cp rest =
        ((Unicode.scalar? least cp).map (·, rest)).bind after)
    (bytes : Bytes) :
    leadStep finish bytes = (Unicode.decodeChar bytes).bind after := by
  cases bytes with
  | nil => rfl
  | cons p rest =>
      simp only [leadStep, leadByte_eq, Unicode.decodeChar]
      by_cases one : p.toNat < 0x80
      · simp only [one, if_true, Nat.not_lt_zero, gt_iff_lt, if_false,
          List.take_zero, List.drop_zero, continuation_nil]
        exact judges (Or.inl ⟨rfl, rfl⟩)
      by_cases two : 0xC0 ≤ p.toNat ∧ p.toNat < 0xE0
      · simp only [one, two, if_true, if_false, and_self]
        cases rest with
        | nil => rfl
        | cons a rest =>
            have enough : ¬1 > (a :: rest).length := by simp
            simp only [enough, if_false, List.take_succ_cons, List.take_zero,
              List.drop_succ_cons, List.drop_zero, continuation_cons,
              continuation_nil]
            by_cases continues : Unicode.Continues a
            · simp only [continues, if_true]
              exact judges (Or.inr (Or.inl ⟨rfl, rfl⟩))
            · simp [continues]
      by_cases three : 0xE0 ≤ p.toNat ∧ p.toNat < 0xF0
      · simp only [one, two, three, if_true, if_false, and_self]
        cases rest with
        | nil => rfl
        | cons a rest =>
        cases rest with
        | nil => rfl
        | cons b rest =>
            have enough : ¬2 > (a :: b :: rest).length := by simp
            simp only [enough, if_false, List.take_succ_cons, List.take_zero,
              List.drop_succ_cons, List.drop_zero, continuation_cons,
              continuation_nil]
            by_cases first : Unicode.Continues a
            · by_cases second : Unicode.Continues b
              · simp only [first, second, if_true, and_self]
                rw [show ((p.toNat - 0xE0) * 64 + (a.toNat - 0x80)) * 64 +
                    (b.toNat - 0x80) = (p.toNat - 0xE0) * 4096 +
                    (a.toNat - 0x80) * 64 + (b.toNat - 0x80) by omega]
                exact judges (Or.inr (Or.inr (Or.inl ⟨rfl, rfl⟩)))
              · simp [first, second]
            · simp [first]
      by_cases four : 0xF0 ≤ p.toNat ∧ p.toNat < 0xF8
      · simp only [one, two, three, four, if_true, if_false, and_self]
        cases rest with
        | nil => rfl
        | cons a rest =>
        cases rest with
        | nil => rfl
        | cons b rest =>
        cases rest with
        | nil => rfl
        | cons c rest =>
            have enough : ¬3 > (a :: b :: c :: rest).length := by simp
            simp only [enough, if_false, List.take_succ_cons, List.take_zero,
              List.drop_succ_cons, List.drop_zero, continuation_cons,
              continuation_nil]
            by_cases first : Unicode.Continues a
            · by_cases second : Unicode.Continues b
              · by_cases third : Unicode.Continues c
                · simp only [first, second, third, if_true, and_self]
                  rw [show (((p.toNat - 0xF0) * 64 + (a.toNat - 0x80)) * 64 +
                      (b.toNat - 0x80)) * 64 + (c.toNat - 0x80) =
                      (p.toNat - 0xF0) * 262144 + (a.toNat - 0x80) * 4096 +
                      (b.toNat - 0x80) * 64 + (c.toNat - 0x80) by omega]
                  exact judges (Or.inr (Or.inr (Or.inr ⟨rfl, rfl⟩)))
                · simp [first, second, third]
              · simp [first, second]
            · simp [first]
      · simp only [one, two, three, four, if_false]
        rfl

theorem leadStep_bind {α β : Type} (finish : Nat → Nat → Bytes → Option α)
    (next : α → Option β) (bytes : Bytes) :
    (leadStep finish bytes).bind next =
      leadStep (fun extra cp rest => (finish extra cp rest).bind next)
        bytes := by
  cases bytes with
  | nil => rfl
  | cons p rest =>
      simp only [leadStep]
      cases leadByte p with
      | none => rfl
      | some found =>
          obtain ⟨bits, extra⟩ := found
          simp only
          split
          · rfl
          cases continuation bits (rest.take extra) with
          | none => rfl
          | some cp => rfl

theorem textFieldStep_leadStep (bytes : Bytes) :
    textFieldStep bytes = leadStep (fun extra cp rest =>
      if rejectedCodePoint extra cp then none else some rest) bytes := by
  cases bytes with
  | nil => rfl
  | cons p rest => rfl

/-- One turn of `text_field` is one strict decoding step that also refuses
control characters. -/
theorem textFieldStep_eq (bytes : Bytes) :
    textFieldStep bytes = visible (Unicode.decodeChar bytes) := by
  rw [textFieldStep_leadStep]
  exact leadStep_eq (fun shortest => accepted_iff shortest) bytes

theorem textFieldStep_eq_some_iff {bytes rest : Bytes} :
    textFieldStep bytes = some rest ↔
      ∃ scalar : Char, bytes = String.utf8EncodeChar scalar ++ rest ∧
        ¬IsoControl scalar.toNat := by
  rw [textFieldStep_eq]
  constructor
  · intro accepted
    obtain ⟨⟨scalar, tail⟩, decoded, kept⟩ :=
      Option.bind_eq_some_iff.mp accepted
    simp only at kept
    split at kept
    · cases kept
    · rename_i plain
      cases kept
      exact ⟨scalar, Unicode.decodeChar_sound decoded, plain⟩
  · rintro ⟨scalar, rfl, plain⟩
    simp [visible, Unicode.decodeChar_encodeChar, plain]

theorem textFieldLoop_iff {fuel : Nat} {bytes : Bytes}
    (enough : bytes.length ≤ fuel) :
    textFieldLoop fuel bytes = true ↔
      ∃ scalars, bytes = Unicode.encode scalars ∧
        ∀ scalar ∈ scalars, ¬IsoControl scalar.toNat := by
  induction fuel generalizing bytes with
  | zero =>
      have empty : bytes = [] := List.length_eq_zero_iff.mp (by omega)
      subst bytes
      simp only [textFieldLoop, true_iff]
      exact ⟨[], rfl, by simp⟩
  | succ fuel ih =>
      cases bytes with
      | nil =>
          simp only [textFieldLoop, true_iff]
          exact ⟨[], rfl, by simp⟩
      | cons p tail =>
          constructor
          · intro accepted
            simp only [textFieldLoop] at accepted
            split at accepted
            · cases accepted
            · rename_i rest step
              obtain ⟨scalar, split, plain⟩ :=
                textFieldStep_eq_some_iff.mp step
              have positive := List.length_pos_iff.mpr
                (Unicode.utf8EncodeChar_ne_nil scalar)
              have lengths := congrArg List.length split
              rw [List.length_append] at lengths
              obtain ⟨scalars, rfl, plains⟩ :=
                (ih (by omega)).mp accepted
              refine ⟨scalar :: scalars, split, ?_⟩
              intro candidate member
              rcases List.mem_cons.mp member with rfl | later
              · exact plain
              · exact plains candidate later
          · rintro ⟨scalars, split, plains⟩
            cases scalars with
            | nil => cases split
            | cons scalar scalars =>
                rw [Unicode.encode_cons] at split
                have step : textFieldStep (p :: tail) =
                    some (Unicode.encode scalars) :=
                  textFieldStep_eq_some_iff.mpr
                    ⟨scalar, split, plains scalar (by simp)⟩
                have positive := List.length_pos_iff.mpr
                  (Unicode.utf8EncodeChar_ne_nil scalar)
                have lengths := congrArg List.length split
                rw [List.length_append] at lengths
                simp only [textFieldLoop, step]
                apply (ih (by omega)).mpr
                refine ⟨scalars, rfl, ?_⟩
                intro candidate member
                exact plains candidate (by simp [member])

/-- `text_field` decides the text rule of the protocol. -/
theorem textField_iff {s : Option Bytes} {max : Nat} :
    textField s max = true ↔ ∃ bytes, s = some bytes ∧ IsText max bytes := by
  cases s with
  | none => simp [textField]
  | some bytes =>
      simp only [textField, Option.some.injEq, exists_eq_left', IsText]
      split
      · rename_i bounded
        constructor
        · intro impossible
          cases impossible
        · rintro ⟨nonempty, short, _⟩
          have positive := List.length_pos_iff.mpr nonempty
          omega
      · rename_i bounded
        have nonempty : bytes ≠ [] := by
          rw [← List.length_pos_iff]
          omega
        have short : bytes.length ≤ max := by omega
        rw [textFieldLoop_iff (Nat.le_refl _)]
        simp [nonempty, short]

theorem textField_some_iff {bytes : Bytes} {max : Nat} :
    textField (some bytes) max = true ↔ IsText max bytes := by
  simp [textField_iff]

private theorem asciiUpperByte_code : ∀ code < 256,
    (asciiUpperByte (UInt8.ofNat code)).toNat = asciiUpper code := by
  decide +kernel

private theorem map_asciiUpperByte (bytes : Bytes) :
    (bytes.map asciiUpperByte).map UInt8.toNat =
      (bytes.map UInt8.toNat).map asciiUpper := by
  rw [List.map_map, List.map_map]
  apply List.map_congr_left
  intro byte _
  have code := asciiUpperByte_code byte.toNat byte.toNat_lt
  rw [UInt8.ofNat_toNat] at code
  exact code

private theorem eq_ascii_iff {bytes : Bytes} {literal : List Char}
    (low : ∀ character ∈ literal, character.toNat < 256) :
    bytes = ascii literal ↔ bytes.map UInt8.toNat = literal.map Char.toNat := by
  have image : (ascii literal).map UInt8.toNat = literal.map Char.toNat := by
    rw [ascii, List.map_map]
    apply List.map_congr_left
    intro character member
    rw [Function.comp_apply, UInt8.toNat_ofNat',
      Nat.mod_eq_of_lt (low character member)]
  rw [← image]
  have injective : Function.Injective (List.map UInt8.toNat) :=
    List.map_injective_iff.mpr fun _ _ => UInt8.toNat_inj.mp
  exact injective.eq_iff.symm

private theorem take_length_takeWhile (keep : UInt8 → Bool) (bytes : Bytes) :
    bytes.take (bytes.takeWhile keep).length = bytes.takeWhile keep := by
  have split : bytes.takeWhile keep ++ bytes.dropWhile keep = bytes :=
    List.takeWhile_append_dropWhile
  calc
    bytes.take (bytes.takeWhile keep).length =
        (bytes.takeWhile keep ++ bytes.dropWhile keep).take
          (bytes.takeWhile keep).length := by rw [split]
    _ = bytes.takeWhile keep := List.take_left

/-- The reserved-name test of `filename_ok` on the upper-cased stem. -/
private theorem reservedStem_iff (stem : Bytes) :
    ((stem.length = 3 ∧ (stem.map asciiUpperByte = ascii ['C', 'O', 'N'] ∨
        stem.map asciiUpperByte = ascii ['P', 'R', 'N'] ∨
        stem.map asciiUpperByte = ascii ['A', 'U', 'X'] ∨
        stem.map asciiUpperByte = ascii ['N', 'U', 'L'])) ∨
      (stem.length = 4 ∧
        ((stem.map asciiUpperByte).take 3 = ascii ['C', 'O', 'M'] ∨
          (stem.map asciiUpperByte).take 3 = ascii ['L', 'P', 'T']) ∧
        ((stem.map asciiUpperByte)[3]?.any fun c =>
          0x31 ≤ c.toNat ∧ c.toNat ≤ 0x39) = true)) ↔
      ReservedStem ((stem.map UInt8.toNat).map asciiUpper) := by
  rw [← map_asciiUpperByte, ← List.length_map (f := asciiUpperByte)]
  generalize stem.map asciiUpperByte = upper
  rw [eq_ascii_iff (by decide), eq_ascii_iff (by decide),
    eq_ascii_iff (by decide), eq_ascii_iff (by decide),
    eq_ascii_iff (by decide), eq_ascii_iff (by decide)]
  constructor
  · rintro (⟨-, con | prn | aux | nul⟩ | ⟨four, device, digit⟩)
    · exact Or.inl con
    · exact Or.inr (Or.inl prn)
    · exact Or.inr (Or.inr (Or.inl aux))
    · exact Or.inr (Or.inr (Or.inr (Or.inl nul)))
    · obtain ⟨a, b, c, d, rfl⟩ := List.length_eq_four.mp four
      simp only [List.take_succ_cons, List.take_zero, List.getElem?_cons_succ,
        List.getElem?_cons_zero, Option.any_some, decide_eq_true_eq] at device digit
      refine Or.inr (Or.inr (Or.inr (Or.inr
        ⟨d.toNat, digit.1, digit.2, ?_⟩)))
      rcases device with com | lpt
      · exact Or.inl (by
          rw [← com]
          rfl)
      · exact Or.inr (by
          rw [← lpt]
          rfl)
  · have sized (codes : List Nat) (same : upper.map UInt8.toNat = codes) :
        upper.length = codes.length := by
      rw [← same, List.length_map]
    rintro (con | prn | aux | nul | ⟨digit, low, high, com | lpt⟩)
    · exact Or.inl ⟨sized _ con, Or.inl con⟩
    · exact Or.inl ⟨sized _ prn, Or.inr (Or.inl prn)⟩
    · exact Or.inl ⟨sized _ aux, Or.inr (Or.inr (Or.inl aux))⟩
    · exact Or.inl ⟨sized _ nul, Or.inr (Or.inr (Or.inr nul))⟩
    · obtain ⟨a, b, c, d, rfl⟩ := List.length_eq_four.mp (sized _ com)
      simp at com
      refine Or.inr ⟨rfl, Or.inl ?_, ?_⟩
      · simp [com]
      · simp [com, low, high]
    · obtain ⟨a, b, c, d, rfl⟩ := List.length_eq_four.mp (sized _ lpt)
      simp at lpt
      refine Or.inr ⟨rfl, Or.inr ?_, ?_⟩
      · simp [lpt]
      · simp [lpt, low, high]

private theorem jarSuffix_iff {bytes : Bytes} (long : 4 < bytes.length) :
    (bytes[bytes.length - 1]? ≠ some 0x2E ∧
        bytes[bytes.length - 1]? ≠ some 0x20 ∧
        bytes[bytes.length - 4]? = some 0x2E ∧
        (bytes[bytes.length - 3]? = some 0x6A ∨
          bytes[bytes.length - 3]? = some 0x4A) ∧
        (bytes[bytes.length - 2]? = some 0x61 ∨
          bytes[bytes.length - 2]? = some 0x41) ∧
        (bytes[bytes.length - 1]? = some 0x72 ∨
          bytes[bytes.length - 1]? = some 0x52)) ↔
      ∃ stem suffix, bytes.map UInt8.toNat = stem ++ suffix ∧
        suffix.map asciiLower = ['.', 'j', 'a', 'r'].map Char.toNat := by
  have split : bytes = bytes.take (bytes.length - 4) ++
      bytes.drop (bytes.length - 4) := (List.take_append_drop _ _).symm
  have four : (bytes.drop (bytes.length - 4)).length = 4 := by
    rw [List.length_drop]
    omega
  obtain ⟨d, j, a, r, tail⟩ := List.length_eq_four.mp four
  rw [tail] at split
  generalize bytes.take (bytes.length - 4) = front at split
  subst split
  have fourth : (front ++ [d, j, a, r])[(front ++ [d, j, a, r]).length - 4]? =
      some d := by simp
  have third : (front ++ [d, j, a, r])[(front ++ [d, j, a, r]).length - 3]? =
      some j := by simp
  have second : (front ++ [d, j, a, r])[(front ++ [d, j, a, r]).length - 2]? =
      some a := by simp
  have first : (front ++ [d, j, a, r])[(front ++ [d, j, a, r]).length - 1]? =
      some r := by simp
  rw [first, second, third, fourth]
  have lowered (byte : UInt8) (code : Nat) (letter : 0x61 ≤ code ∧ code ≤ 0x7A) :
      asciiLower byte.toNat = code ↔
        byte.toNat = code ∨ byte.toNat = code - 0x20 := by
    unfold asciiLower
    split <;> omega
  have dotted : asciiLower d.toNat = 0x2E ↔ d.toNat = 0x2E := by
    unfold asciiLower
    split <;> omega
  simp only [ne_eq, Option.some.injEq, ← UInt8.toNat_inj]
  constructor
  · rintro ⟨-, -, dot, jay, ay, ar⟩
    refine ⟨front.map UInt8.toNat, [d, j, a, r].map UInt8.toNat, by simp, ?_⟩
    simp only [List.map_cons, List.map_nil, List.cons.injEq, and_true]
    exact ⟨dotted.mpr dot, (lowered j 0x6A (by decide)).mpr jay,
      (lowered a 0x61 (by decide)).mpr ay, (lowered r 0x72 (by decide)).mpr ar⟩
  · rintro ⟨stem, suffix, codes, shape⟩
    have sized : suffix.length = 4 := by
      simpa using congrArg List.length shape
    rw [List.map_append] at codes
    obtain ⟨-, rfl⟩ := List.append_inj' codes (by simp [sized])
    simp only [List.map_cons, List.map_nil, List.cons.injEq, and_true] at shape
    obtain ⟨dot, jay, ay, ar⟩ := shape
    have jay := (lowered j 0x6A (by decide)).mp jay
    have ay := (lowered a 0x61 (by decide)).mp ay
    have ar := (lowered r 0x72 (by decide)).mp ar
    simp only [UInt8.reduceToNat]
    exact ⟨by omega, by omega, dotted.mp dot, jay, ay, ar⟩

private theorem stem_codes (bytes : Bytes) :
    (bytes.map UInt8.toNat).takeWhile (· ≠ 0x2E) =
      (bytes.takeWhile (· ≠ 0x2E)).map UInt8.toNat := by
  rw [List.takeWhile_map]
  congr 2
  funext byte
  simp [← UInt8.toNat_inj]

private theorem forbidden_iff (bytes : Bytes) :
    bytes.any (· ∈ ascii forbiddenInFilename) = true ↔
      ∃ code ∈ bytes.map UInt8.toNat,
        code ∈ forbiddenInFilename.map Char.toNat := by
  have listed (byte : UInt8) : byte ∈ ascii forbiddenInFilename ↔
      byte.toNat ∈ forbiddenInFilename.map Char.toNat := by
    simp [ascii, forbiddenInFilename, ← UInt8.toNat_inj]
  simp [List.any_eq_true, listed]

private theorem stem_empty_iff {bytes : Bytes} (nonempty : 0 < bytes.length) :
    (bytes.takeWhile (· ≠ 0x2E)).length = 0 ↔
      (bytes.map UInt8.toNat).head? = some 0x2E := by
  cases bytes with
  | nil => cases nonempty
  | cons byte bytes =>
      by_cases dot : byte = 0x2E
      · simp [dot]
      · have code : byte.toNat ≠ 0x2E := fun same =>
          dot (UInt8.toNat_inj.mp same)
        simp [dot, code]

/-- On a string within the length limit, `filename_ok` decides the filename
rule of the protocol. -/
theorem filenameOk_iff {bytes : Bytes} (short : bytes.length ≤ 255) :
    filenameOk (some bytes) = true ↔ PlainJar (bytes.map UInt8.toNat) := by
  have reserved := reservedStem_iff (bytes.takeWhile (· ≠ 0x2E))
  rw [← stem_codes] at reserved
  constructor
  · intro accepted
    simp only [filenameOk] at accepted
    split at accepted
    · cases accepted
    split at accepted
    · cases accepted
    split at accepted
    · cases accepted
    rename_i size base plain
    rw [decide_eq_true_eq] at accepted
    obtain ⟨notReserved, suffix⟩ := accepted
    refine ⟨?_, ?_, (jarSuffix_iff (by omega)).mp suffix, ?_⟩
    · exact fun dot => base ((stem_empty_iff (by omega)).mpr dot)
    · intro code member listed
      exact plain ((forbidden_iff bytes).mpr ⟨code, member, listed⟩)
    · intro isReserved
      apply notReserved
      have shape := reserved.mpr isReserved
      have atMost : (bytes.takeWhile (· ≠ 0x2E)).length ≤ 4 := by omega
      rw [if_pos atMost, take_length_takeWhile]
      exact shape
  · rintro ⟨visible, plain, jar, notReserved⟩
    have long : 4 < bytes.length := by
      obtain ⟨stem, suffix, codes, shape⟩ := jar
      have sized : suffix.length = 4 := by
        simpa using congrArg List.length shape
      have total : bytes.length = stem.length + suffix.length := by
        simpa using congrArg List.length codes
      cases stem with
      | nil =>
          obtain ⟨d, j, a, r, rfl⟩ := List.length_eq_four.mp sized
          simp only [List.map_cons, List.cons.injEq] at shape
          have dot : d = 0x2E := by
            have lowered := shape.1
            unfold asciiLower at lowered
            split at lowered <;> simp at lowered <;> omega
          rw [codes, dot] at visible
          exact (visible rfl).elim
      | cons code stem =>
          simp only [List.length_cons] at total
          omega
    have base : ¬(bytes.takeWhile (· ≠ 0x2E)).length = 0 := fun empty =>
      visible ((stem_empty_iff (by omega)).mp empty)
    have noneForbidden : ¬bytes.any (· ∈ ascii forbiddenInFilename) = true := by
      intro found
      obtain ⟨code, member, listed⟩ := (forbidden_iff bytes).mp found
      exact plain code member listed
    simp only [filenameOk]
    rw [if_neg (by omega), if_neg base, if_neg noneForbidden,
      decide_eq_true_eq]
    refine ⟨?_, (jarSuffix_iff long).mpr jar⟩
    intro isReserved
    apply notReserved
    apply reserved.mp
    have atMost : (bytes.takeWhile (· ≠ 0x2E)).length ≤ 4 := by omega
    rw [if_pos atMost, take_length_takeWhile] at isReserved
    exact isReserved

end RymgaLoader.Native
