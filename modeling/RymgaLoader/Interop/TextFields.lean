import RymgaLoader.Protocol.WireStreams
import RymgaLoader.Native.TextScan

/-!
# Text fields of the core and of the Java reader

`text_field` and `Wire.Reader.string` followed by `Wire.requireString` decide
the same rule.  They differ only behind the reach of the two bytes that hold a
length in the messages.
-/

namespace RymgaLoader.Interop

open Protocol Wire

/-- A field in front of its length, as the messages hold it. -/
def frameString (text : Bytes) : Checked Bytes := do
  let ((), encoded) ← StateT.run (do
    Writer.u16 text.length
    Writer.bytes text) []
  return encoded

/-- `Reader.string` followed by `requireString` on a field with these
bytes. -/
def acceptString (name : String) (maxBytes : Nat) (text : Bytes) :
    Checked JavaString := do
  let encoded ← frameString text
  let value ← Reader.run (Reader.string name maxBytes) encoded encoded.length
  requireString name value maxBytes
  return value

theorem frameString_eq_ok_iff {text encoded : Bytes} :
    frameString text = .ok encoded ↔
      text.length ≤ 0xffff ∧ encoded = stringLayout text := by
  by_cases framed : text.length ≤ 0xffff
  · have written := (Writes.u16 framed).seq (Writes.bytes text) []
    rw [frameString, written]
    constructor
    · intro same
      cases same
      exact ⟨framed, rfl⟩
    · rintro ⟨-, rfl⟩
      rfl
  · have refused : check (text.length ≤ 0xffff) "u16 overflow" =
        .error ⟨"u16 overflow"⟩ := if_neg framed
    have failed : frameString text = .error ⟨"u16 overflow"⟩ := by
      simp [frameString, Writer.u16, refused]
      rfl
    rw [failed]
    constructor
    · intro impossible
      cases impossible
    · rintro ⟨fits, -⟩
      exact absurd fits framed

theorem stringLayout_injective {left right : Bytes}
    (same : stringLayout left = stringLayout right) : left = right := by
  have lengths : (u16Layout left.length).length =
      (u16Layout right.length).length := by
    rw [length_u16Layout, length_u16Layout]
  exact (List.append_inj same lengths).2

theorem acceptString_eq_ok_iff {name : String} {maxBytes : Nat} {text : Bytes}
    {value : JavaString} :
    acceptString name maxBytes text = .ok value ↔
      Spells value text ∧ IsText maxBytes text ∧ text.length ≤ 0xffff := by
  simp only [acceptString, Checked.bind_eq_ok_iff, frameString_eq_ok_iff,
    Reader.run_eq_ok_iff Reader.string_exact_min, requireString_eq_ok_iff]
  constructor
  · rintro ⟨encoded, ⟨framed, rfl⟩, read, ⟨-, others, spelled, -, -, same⟩, -,
      ⟨bytes, spelled', isText⟩, returned⟩
    cases returned
    cases stringLayout_injective same
    cases Spells.bytes_unique spelled spelled'
    exact ⟨spelled, isText, framed⟩
  · rintro ⟨spelled, isText, framed⟩
    refine ⟨stringLayout text, ⟨framed, rfl⟩, value, ⟨Nat.le_refl _, text,
      spelled, isText.1, ?_, rfl⟩, (), ⟨text, spelled, isText⟩, rfl⟩
    exact Nat.le_min.mpr ⟨isText.2.1, framed⟩

/-- On every C string `text_field` ends without a read behind the string and
accepts exactly the text of the protocol; the Java reader accepts the same
text wherever two bytes can hold the length. -/
theorem textField_strict (text : Bytes) (clean : (0 : UInt8) ∉ text)
    (max : Nat) :
    (∃ accepts, Native.TextScan.textField (some (text ++ [0])) max =
        .ok accepts ∧
      (accepts = true ↔ IsText max text) ∧
      (text.length ≤ 0xffff ∨ max ≤ 0xffff →
        ∀ name, (accepts = true ↔
          ∃ value, acceptString name max text = .ok value))) := by
  refine ⟨Native.textField (some text) max,
    Native.TextScan.textField_eq clean [] max, Native.textField_some_iff, ?_⟩
  intro reach name
  rw [Native.textField_some_iff]
  constructor
  · intro isText
    obtain ⟨value, spelled⟩ := isText.exists_spells
    have short := isText.2.1
    exact ⟨value, acceptString_eq_ok_iff.mpr ⟨spelled, isText, by omega⟩⟩
  · rintro ⟨value, accepted⟩
    exact (acceptString_eq_ok_iff.mp accepted).2.1

/-- An é, a euro sign and a smiling face. -/
def smallText : Bytes :=
  [0xc3, 0xa9, 0xe2, 0x82, 0xac, 0xf0, 0x9f, 0x98, 0x80]

theorem textField_strict_small :
    (0 : UInt8) ∉ smallText ∧
      Native.TextScan.textField (some (smallText ++ [0])) 9 = .ok true ∧
      (∃ value, acceptString "license" 9 smallText = .ok value) ∧
      Native.TextScan.textField (some (smallText ++ [0])) 8 = .ok false ∧
      ¬∃ value, acceptString "license" 8 smallText = .ok value := by
  obtain ⟨fits, same, text, accepts⟩ :=
    textField_strict smallText (by decide) 9
  obtain ⟨short, same', text', accepts'⟩ :=
    textField_strict smallText (by decide) 8
  have fitting : fits = true :=
    text.mpr ⟨by decide, by decide, ['é', '€', '😀'], by decide, by decide⟩
  have refused : short = false := by
    rw [← Bool.not_eq_true, text']
    exact fun isText => absurd isText.2.1 (by decide)
  subst fitting refused
  refine ⟨by decide, same, ?_, same', fun accepted => ?_⟩
  · exact (accepts (.inl (by decide)) "license").mp rfl
  · exact absurd ((accepts' (.inl (by decide)) "license").mpr accepted)
      (by decide)

/-- Text that two bytes cannot announce. -/
def longText : Bytes := List.replicate 65536 0x61

private theorem encode_letters (count : Nat) :
    Unicode.encode (List.replicate count 'a') = List.replicate count 0x61 := by
  induction count with
  | zero => rfl
  | succ count ih =>
      rw [List.replicate_succ, Unicode.encode_cons, ih, List.replicate_succ]
      rfl

theorem textField_longText_differs :
    (0 : UInt8) ∉ longText ∧
      ¬(Native.TextScan.textField (some (longText ++ [0])) 65536 = .ok true ↔
        ∃ value, acceptString "license" 65536 longText = .ok value) := by
  have clean : (0 : UInt8) ∉ longText := by
    intro member
    cases List.eq_of_mem_replicate member
  have sized : longText.length = 65536 := List.length_replicate
  have isText : IsText 65536 longText := by
    refine ⟨?_, Nat.le_of_eq sized, List.replicate 65536 'a',
      (encode_letters 65536).symm, ?_⟩
    · rw [← List.length_pos_iff, sized]
      decide
    · intro scalar member
      rw [List.eq_of_mem_replicate member]
      decide
  refine ⟨clean, fun same => ?_⟩
  have accepted : Native.TextScan.textField (some (longText ++ [0])) 65536 =
      .ok true := by
    rw [Native.TextScan.textField_eq clean [] 65536,
      Native.textField_some_iff.mpr isText]
  obtain ⟨value, returned⟩ := same.mp accepted
  have framed := (acceptString_eq_ok_iff.mp returned).2.2
  rw [sized] at framed
  omega

end RymgaLoader.Interop
