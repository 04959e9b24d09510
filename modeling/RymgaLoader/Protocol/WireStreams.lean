import RymgaLoader.Protocol.WireValidators

/-!
# The Java writer and reader follow the layouts

The writer appends the layout of each field; the reader is exact for the same
layouts.  The two message codecs are assembled from these rules.
-/

namespace RymgaLoader.Protocol.Wire

open ExactReader

/-- Whatever was written before, `writer` appends `output`. -/
def Writes (writer : Writer Unit) (output : Bytes) : Prop :=
  ∀ written, writer.run written = .ok ((), written ++ output)

theorem Writes.bytes (value : Bytes) : Writes (Writer.bytes value) value := by
  intro written
  rfl

theorem Writes.seq {first second : Writer Unit} {front back : Bytes}
    (firstWrites : Writes first front) (secondWrites : Writes second back) :
    Writes (do first; second) (front ++ back) := by
  intro written
  rw [StateT.run_bind, firstWrites written, ← List.append_assoc]
  exact secondWrites (written ++ front)

theorem Writes.u16 {value : Nat} (fits : value ≤ 0xffff) :
    Writes (Writer.u16 value) (u16Layout value) := by
  intro written
  have layout : u16Layout value =
      [UInt8.ofNat (value >>> 8), UInt8.ofNat value] := by
    simp [u16Layout, BigEndian.encode, Nat.shiftRight_eq_div_pow]
  simp only [Writer.u16, check, if_pos fits, layout]
  rfl

theorem Writes.i64 (value : Int64) :
    Writes (Writer.i64 value) (i64Layout value) := by
  rw [i64Layout_eq_shifts]
  exact Writes.bytes _

theorem Writes.string {value : JavaString} {bytes : Bytes}
    (spelled : Spells value bytes) (fits : bytes.length ≤ 0xffff) :
    Writes (Writer.string value) (stringLayout bytes) := by
  intro written
  have encoded : utf8 "string" value = .ok bytes := utf8_eq_ok_iff.mpr spelled
  have rest := (Writes.u16 fits).seq (Writes.bytes bytes) written
  simp only [Writer.string, encoded]
  exact rest

theorem Writes.finish_eq_ok {writer : Writer Unit} {output : Bytes}
    {maxBytes : Nat} (writes : Writes writer output)
    (short : output.length ≤ maxBytes) :
    Writer.finish writer maxBytes = .ok output := by
  rw [Writer.finish, writes []]
  simp only [List.nil_append, check]
  exact Checked.bind_eq_ok_iff.mpr ⟨((), output), rfl,
    Checked.bind_eq_ok_iff.mpr ⟨(), if_pos short, rfl⟩⟩

theorem Reader.require_exact {condition : Prop} [Decidable condition]
    {message : String} :
    Exact (Reader.require condition message)
      (fun _ bytes => condition ∧ bytes = []) :=
  (Exact.lift (check condition message)).congr fun _ _ =>
    and_congr_left fun _ => check_eq_ok_iff

theorem Reader.bytes_exact (length : Nat) :
    Exact (Reader.bytes length)
      (fun value bytes => bytes = value ∧ value.length = length) := by
  intro before value after
  have run : StateT.run (Reader.bytes length) before =
      if length ≤ before.length then
        .ok (before.take length, before.drop length)
      else .error ⟨"truncated message"⟩ := by
    by_cases enough : length ≤ before.length
    · rw [if_pos enough]
      have passes : check (length ≤ before.length) "truncated message" =
          .ok () := if_pos enough
      simp [Reader.bytes, Reader.ensureRemaining, Reader.require, passes]
    · rw [if_neg enough]
      have fails : check (length ≤ before.length) "truncated message" =
          .error ⟨"truncated message"⟩ := if_neg enough
      simp [Reader.bytes, Reader.ensureRemaining, Reader.require, fails]
  change StateT.run (Reader.bytes length) before = .ok (value, after) ↔ _
  rw [run]
  constructor
  · intro taken
    split at taken
    · rename_i enough
      cases taken
      exact ⟨_, ⟨rfl, List.length_take_of_le enough⟩,
        (List.take_append_drop _ _).symm⟩
    · cases taken
  · rintro ⟨bytes, ⟨rfl, rfl⟩, rfl⟩
    simp

theorem Reader.u16_exact :
    Exact Reader.u16 (fun n bytes => n < 65536 ∧ bytes = u16Layout n) := by
  refine (Exact.map (Reader.bytes_exact 2) _).congr ?_
  intro n bytes
  constructor
  · rintro ⟨value, ⟨rfl, sized⟩, rfl⟩
    have bound := BigEndian.decode_lt bytes
    rw [sized] at bound
    exact ⟨bound, (u16Layout_decode sized).symm⟩
  · rintro ⟨bound, rfl⟩
    exact ⟨u16Layout n, ⟨rfl, length_u16Layout n⟩,
      (decode_u16Layout bound).symm⟩

theorem Reader.i64_exact :
    Exact Reader.i64 (fun value bytes => bytes = i64Layout value) := by
  refine (Exact.map (Reader.bytes_exact 8) _).congr ?_
  intro value bytes
  constructor
  · rintro ⟨read, ⟨rfl, sized⟩, rfl⟩
    exact (i64Layout_i64OfBytes sized).symm
  · rintro rfl
    exact ⟨i64Layout value, ⟨rfl, length_i64Layout value⟩,
      (i64OfBytes_i64Layout value).symm⟩

theorem Reader.magic_exact (expected : Bytes) :
    Exact (Reader.magic expected) (fun _ bytes => bytes = expected) := by
  refine (Exact.bind (Reader.bytes_exact expected.length) fun actual =>
    Reader.require_exact).congr ?_
  intro done bytes
  constructor
  · rintro ⟨actual, _, _, ⟨rfl, -⟩, ⟨rfl, rfl⟩, rfl⟩
    exact List.append_nil _
  · rintro rfl
    exact ⟨bytes, bytes, [], ⟨rfl, rfl⟩, ⟨rfl, rfl⟩,
      (List.append_nil _).symm⟩

private theorem Reader.text_exact (name : String) (encoded : Bytes) :
    Exact (match Unicode.decode encoded with
      | none => throw ⟨name ++ " is not valid UTF-8"⟩
      | some scalars => do
          let value := Unicode.utf16Encode scalars
          let canonical ← liftM (utf8 name value)
          Reader.require (encoded = canonical)
            (name ++ " is not canonical UTF-8")
          return value : Reader JavaString)
      (fun value bytes => Spells value encoded ∧ bytes = []) := by
  cases decoded : Unicode.decode encoded with
  | none =>
      intro before value after
      constructor
      · intro impossible
        cases impossible
      · rintro ⟨bytes, ⟨⟨scalars, -, same⟩, -⟩, -⟩
        rw [Unicode.decode_eq_some_iff.mpr same] at decoded
        cases decoded
  | some scalars =>
      have same := Unicode.decode_eq_some_iff.mp decoded
      refine (Exact.bind (Exact.lift (utf8 name (Unicode.utf16Encode scalars)))
        fun canonical => Exact.bind Reader.require_exact
          fun _ => Exact.pure _).congr ?_
      intro value bytes
      constructor
      · rintro ⟨canonical, _, _, ⟨-, rfl⟩, ⟨_, _, _, ⟨-, rfl⟩, ⟨rfl, rfl⟩,
          rfl⟩, rfl⟩
        exact ⟨⟨scalars, rfl, same⟩, rfl⟩
      · rintro ⟨⟨others, rfl, other⟩, rfl⟩
        cases Unicode.encode_injective (same.symm.trans other)
        exact ⟨encoded, [], [],
          ⟨utf8_eq_ok_iff.mpr ⟨scalars, rfl, same⟩, rfl⟩,
          ⟨(), [], [], ⟨rfl, rfl⟩, ⟨rfl, rfl⟩, rfl⟩, rfl⟩

/-- A string field as the reader returns it: bounded UTF-8, not yet subject
to the rules of its name. -/
def StringField (maxBytes : Nat) (value : JavaString) (bytes : Bytes) : Prop :=
  ∃ text, Spells value text ∧ text ≠ [] ∧ text.length ≤ maxBytes ∧
    bytes = stringLayout text

/-- The length in front of a string is at most `0xffff`, whatever its
limit. -/
theorem Reader.string_exact_min {name : String} {maxBytes : Nat} :
    Exact (Reader.string name maxBytes)
      (StringField (min maxBytes 0xffff)) := by
  refine (Exact.bind Reader.u16_exact fun length =>
    Exact.bind Reader.require_exact fun _ =>
    Exact.bind (Reader.bytes_exact length) fun encoded =>
    Reader.text_exact name encoded).congr ?_
  intro value bytes
  constructor
  · rintro ⟨length, _, _, ⟨framed, rfl⟩, ⟨_, _, _, ⟨bounded, rfl⟩, ⟨encoded, _,
      _, ⟨rfl, sized⟩, ⟨spelled, rfl⟩, rfl⟩, rfl⟩, rfl⟩
    subst sized
    refine ⟨_, spelled, ?_, ?_, by simp [stringLayout]⟩
    · rintro rfl
      exact bounded (Or.inl rfl)
    · omega
  · rintro ⟨text, spelled, nonempty, short, rfl⟩
    have positive := List.length_pos_iff.mpr nonempty
    exact ⟨text.length, _, _, ⟨by omega, rfl⟩, ⟨(), [], _,
      ⟨by omega, rfl⟩, ⟨text, text, [], ⟨rfl, rfl⟩, ⟨spelled, rfl⟩,
        (List.append_nil _).symm⟩, rfl⟩, rfl⟩

theorem Reader.string_exact {name : String} {maxBytes : Nat}
    (fits : maxBytes ≤ 0xffff) :
    Exact (Reader.string name maxBytes) (StringField maxBytes) := by
  have exact := @Reader.string_exact_min name maxBytes
  rwa [Nat.min_eq_left fits] at exact

theorem Reader.run_eq_ok_iff {reader : Reader α}
    {grammar : α → Bytes → Prop} (exact : Exact reader grammar)
    {encoded : Bytes} {maxBytes : Nat} {value : α} :
    Reader.run reader encoded maxBytes = .ok value ↔
      encoded.length ≤ maxBytes ∧ grammar value encoded := by
  simp only [Reader.run, Checked.bind_eq_ok_iff, check_eq_ok_iff,
    exists_const]
  refine and_congr_right fun _ => ?_
  constructor
  · rintro ⟨⟨read, remaining⟩, returned, empty, same⟩
    cases same
    obtain ⟨bytes, placed, consumed⟩ := (exact _ _ _).mp returned
    have whole : encoded = bytes ++ remaining := consumed
    have nothing : remaining = [] := empty
    rwa [whole, nothing, List.append_nil]
  · intro placed
    refine ⟨(value, []), (exact _ _ _).mpr ⟨encoded, placed, ?_⟩, rfl, rfl⟩
    exact (List.append_nil _).symm

end RymgaLoader.Protocol.Wire
