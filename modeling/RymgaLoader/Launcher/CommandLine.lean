import RymgaLoader.Lib.AsciiTransparent
import RymgaLoader.Lib.WindowsArguments

/-!
# The command line of the Windows launcher

`command_line` of `rymga_loader_windows.c` with the buffer under it.  Memory
is always granted, so an append fails only at the limit of 32767 characters.
-/

namespace RymgaLoader.Launcher

open WindowsArguments

abbrev Bytes := List UInt8

/-- The longest command line, with its terminator. -/
def longest : Nat := 32767

/-- `wide_buffer`; the characters in use stand for `data` and `length`. -/
structure WideBuffer where
  data : Wide
  capacity : Nat
  allocated : data.length ≤ capacity
  short : data.length ≤ longest

def WideBuffer.empty : WideBuffer where
  data := []
  capacity := 0
  allocated := Nat.le_refl 0
  short := Nat.zero_le longest

/-- The loop of `reserve`; doubling reaches any length within 16 rounds. -/
def double (needed : Nat) : Nat → Nat → Nat
  | 0, capacity => capacity
  | rounds + 1, capacity =>
      if capacity < needed then double needed rounds (capacity * 2)
      else capacity

theorem le_double {needed rounds capacity : Nat}
    (reached : needed ≤ capacity * 2 ^ rounds) :
    needed ≤ double needed rounds capacity := by
  induction rounds generalizing capacity with
  | zero => simpa [double] using reached
  | succ rounds ih =>
      rw [double]
      split
      · apply ih
        rwa [Nat.mul_assoc, ← Nat.pow_succ']
      · omega

/-- The capacity with room for some more characters. -/
def WideBuffer.reserve (buffer : WideBuffer) (additional : Nat) :
    Option Nat :=
  if additional > longest - buffer.data.length then none
  else some (double (buffer.data.length + additional) 16
    (if buffer.capacity = 0 then 128 else buffer.capacity))

theorem WideBuffer.reserve_room {buffer : WideBuffer}
    {additional capacity : Nat}
    (reserved : buffer.reserve additional = some capacity) :
    buffer.data.length + additional ≤ longest ∧
      buffer.data.length + additional ≤ capacity := by
  rw [reserve] at reserved
  split at reserved
  · cases reserved
  · cases reserved
    have short := buffer.short
    have fits : buffer.data.length + additional ≤ longest := by omega
    refine ⟨fits, le_double ?_⟩
    rw [longest] at fits
    split <;> omega

def WideBuffer.appendChar (buffer : WideBuffer) (value : UInt16) :
    Option WideBuffer :=
  match reserved : buffer.reserve 1 with
  | none => none
  | some capacity => some {
      data := buffer.data ++ [value]
      capacity := capacity
      allocated := by
        have room := (reserve_room reserved).2
        simpa using room
      short := by
        have room := (reserve_room reserved).1
        simpa using room }

/-- Append a number of backslashes. -/
def WideBuffer.appendSlashes : Nat → WideBuffer → Option WideBuffer
  | 0, buffer => some buffer
  | count + 1, buffer => do
      let buffer ← buffer.appendChar backslash
      buffer.appendSlashes count

/-- The loop of `append_quoted` over a string with its terminator. -/
def WideBuffer.appendEscaped : Nat → Wide → WideBuffer → Option WideBuffer
  | _, [], _ => none
  | slashes, character :: rest, buffer =>
      if character = backslash then
        appendEscaped (slashes + 1) rest buffer
      else if character = quote then do
        let buffer ← appendSlashes (slashes * 2 + 1) buffer
        let buffer ← buffer.appendChar quote
        appendEscaped 0 rest buffer
      else do
        let count := if character = 0 then slashes * 2 else slashes
        let buffer ← appendSlashes count buffer
        if character = 0 then some buffer
        else
          let buffer ← buffer.appendChar character
          appendEscaped 0 rest buffer

/-- UTF-16 of a string that is well-formed UTF-8. -/
def units (input : Bytes) : Option Wide :=
  (Unicode.decode input).map Unicode.utf16Encode

/-- `wide`: the converted string with its terminator. -/
def wide (input : Bytes) : Option Wide := (units input).map (· ++ [0])

/-- The space before an argument that is not the first one. -/
def WideBuffer.appendSeparator (buffer : WideBuffer) : Option WideBuffer :=
  if buffer.data.length ≠ 0 then buffer.appendChar 0x20 else some buffer

def WideBuffer.appendQuoted (buffer : WideBuffer) (argument : Bytes) :
    Option WideBuffer := do
  let value ← wide argument
  let buffer ← buffer.appendSeparator
  let buffer ← buffer.appendChar quote
  let buffer ← appendEscaped 0 value buffer
  buffer.appendChar quote

def commandLine (arguments : List Bytes) : Option Wide := do
  let buffer ← arguments.foldlM WideBuffer.appendQuoted WideBuffer.empty
  let buffer ← buffer.appendChar 0
  return buffer.data

/-- A text was appended to a buffer, or it passes the limit. -/
def Appended (buffer : WideBuffer) (text : Wide)
    (written : Option WideBuffer) : Prop :=
  (∃ result, written = some result ∧ result.data = buffer.data ++ text) ∨
  (written = none ∧ longest < buffer.data.length + text.length)

theorem Appended.nothing (buffer : WideBuffer) :
    Appended buffer [] (some buffer) :=
  Or.inl ⟨buffer, rfl, (List.append_nil buffer.data).symm⟩

/-- A writer after another one appends its text after the other's. -/
theorem Appended.bind {buffer : WideBuffer} {front back : Wide}
    {written : Option WideBuffer} {writer : WideBuffer → Option WideBuffer}
    (earlier : Appended buffer front written)
    (later : ∀ middle, middle.data = buffer.data ++ front →
      Appended middle back (writer middle)) :
    Appended buffer (front ++ back) (written >>= writer) := by
  rcases earlier with ⟨middle, rfl, data⟩ | ⟨rfl, long⟩
  · rcases later middle data with ⟨result, finished, text⟩ | ⟨refused, long⟩
    · refine Or.inl ⟨result, finished, ?_⟩
      rw [text, data, List.append_assoc]
    · refine Or.inr ⟨refused, ?_⟩
      rw [data, List.length_append] at long
      rw [List.length_append]
      omega
  · refine Or.inr ⟨rfl, ?_⟩
    rw [List.length_append]
    omega

theorem appended_appendChar (value : UInt16) (buffer : WideBuffer) :
    Appended buffer [value] (buffer.appendChar value) := by
  unfold WideBuffer.appendChar
  split
  · rename_i refused
    rw [WideBuffer.reserve] at refused
    split at refused
    · rename_i long
      have short := buffer.short
      refine Or.inr ⟨rfl, ?_⟩
      rw [List.length_singleton]
      omega
    · cases refused
  · exact Or.inl ⟨_, rfl, rfl⟩

theorem appended_appendSlashes (count : Nat) (buffer : WideBuffer) :
    Appended buffer (List.replicate count backslash)
      (buffer.appendSlashes count) := by
  induction count generalizing buffer with
  | zero => exact Appended.nothing buffer
  | succ count ih =>
      exact (appended_appendChar backslash buffer).bind fun middle _ =>
        ih middle

/-- The loop writes what stands between the quotes. -/
theorem appended_appendEscaped {slashes : Nat} {value : Wide}
    (free : 0 ∉ value) (buffer : WideBuffer) :
    Appended buffer (escapeFrom slashes value)
      (buffer.appendEscaped slashes (value ++ [0])) := by
  induction value generalizing slashes buffer with
  | nil =>
      have written := appended_appendSlashes (slashes * 2) buffer
      have last := written.bind fun middle _ => Appended.nothing middle
      rw [List.append_nil] at last
      exact last
  | cons character value ih =>
      obtain ⟨notNul, rest⟩ := not_or.mp (List.mem_cons.not.mp free)
      have notNul : character ≠ 0 := fun same => notNul same.symm
      rw [List.cons_append, WideBuffer.appendEscaped, escapeFrom]
      split
      · exact ih rest buffer
      split
      · have slash := appended_appendSlashes (slashes * 2 + 1) buffer
        exact slash.bind fun middle _ =>
          (appended_appendChar quote middle).bind fun middle _ =>
            ih rest middle
      · have slash := appended_appendSlashes slashes buffer
        exact slash.bind fun middle _ =>
          (appended_appendChar character middle).bind fun middle _ =>
            ih rest middle

def separator (buffer : WideBuffer) : Wide :=
  if buffer.data = [] then [] else [0x20]

theorem appended_appendSeparator (buffer : WideBuffer) :
    Appended buffer (separator buffer) buffer.appendSeparator := by
  unfold separator WideBuffer.appendSeparator
  by_cases first : buffer.data = []
  · rw [if_pos first, if_neg (by simp [first])]
    exact Appended.nothing buffer
  · rw [if_neg first, if_pos (by simp [first])]
    exact appended_appendChar 0x20 buffer

theorem appended_appendQuoted {argument : Bytes} {value : Wide}
    (converted : units argument = some value) (free : 0 ∉ value)
    (buffer : WideBuffer) :
    Appended buffer (separator buffer ++ quoted value)
      (buffer.appendQuoted argument) := by
  rw [WideBuffer.appendQuoted, wide, converted]
  exact (appended_appendSeparator buffer).bind fun middle _ =>
    (appended_appendChar quote middle).bind fun middle _ =>
      (appended_appendEscaped free middle).bind fun middle _ =>
        appended_appendChar quote middle

/-- The arguments after the first one. -/
theorem appended_arguments {arguments : List Bytes} {values : List Wide}
    (converted : arguments.map units = values.map some)
    (free : ∀ value ∈ values, 0 ∉ value) {buffer : WideBuffer}
    (begun : buffer.data ≠ []) :
    Appended buffer (joinedTail values)
      (arguments.foldlM WideBuffer.appendQuoted buffer) := by
  induction arguments generalizing values buffer with
  | nil =>
      cases values with
      | nil => exact Appended.nothing buffer
      | cons value values => cases converted
  | cons argument arguments ih =>
      cases values with
      | nil => cases converted
      | cons value values =>
          rw [List.map_cons, List.map_cons, List.cons.injEq] at converted
          have first := appended_appendQuoted converted.1
            (free value (by simp)) buffer
          rw [separator, if_neg begun] at first
          rw [List.foldlM_cons]
          refine first.bind fun middle data => ?_
          apply ih converted.2
          · intro other member
            exact free other (List.mem_cons_of_mem value member)
          · simp [data, begun]

/-- The quoted form of a list of arguments. -/
def quotedForm : List Wide → Wide
  | [] => []
  | program :: arguments => quoted program ++ joinedTail arguments

theorem appended_commandLine {arguments : List Bytes} {values : List Wide}
    (converted : arguments.map units = values.map some)
    (free : ∀ value ∈ values, 0 ∉ value) (nonempty : arguments ≠ []) :
    (commandLine arguments = some (quotedForm values ++ [0]) ∧
      (quotedForm values).length + 1 ≤ longest) ∨
    (commandLine arguments = none ∧
      longest < (quotedForm values).length + 1) := by
  cases arguments with
  | nil => exact absurd rfl nonempty
  | cons program arguments =>
      cases values with
      | nil => cases converted
      | cons value values =>
          rw [List.map_cons, List.map_cons, List.cons.injEq] at converted
          have first := appended_appendQuoted converted.1
            (free value (by simp)) WideBuffer.empty
          have start : separator WideBuffer.empty = [] := rfl
          rw [start, List.nil_append] at first
          have rest : Appended WideBuffer.empty
              (quotedForm (value :: values))
              ((program :: arguments).foldlM WideBuffer.appendQuoted
                WideBuffer.empty) := by
            rw [List.foldlM_cons]
            refine first.bind fun middle data => ?_
            apply appended_arguments converted.2
            · intro other member
              exact free other (List.mem_cons_of_mem value member)
            · rw [data]
              simp [quoted]
          have whole := rest.bind fun middle _ =>
            appended_appendChar 0 middle
          rw [commandLine]
          rcases whole with ⟨result, written, data⟩ | ⟨refused, long⟩
          · have text : result.data = quotedForm (value :: values) ++ [0] :=
              data
            have short := result.short
            rw [text, List.length_append, List.length_singleton] at short
            refine Or.inl ⟨?_, short⟩
            rw [← bind_assoc, written, ← text]
            rfl
          · refine Or.inr ⟨?_, ?_⟩
            · rw [← bind_assoc, refused]
              rfl
            · rw [List.length_append, List.length_singleton] at long
              exact Nat.lt_of_lt_of_eq long (Nat.zero_add _)

private theorem ascii_mem {input : Bytes} {value : Wide} {unit : UInt16}
    {byte : UInt8} (converted : units input = some value)
    (small : byte.toNat < 0x80) (same : unit.toNat = byte.toNat)
    (member : unit ∈ value) : byte ∈ input := by
  obtain ⟨scalars, decoded, rfl⟩ := Option.map_eq_some_iff.mp converted
  have written := Unicode.decode_eq_some_iff.mp decoded
  have found := (Unicode.utf16_asciiTransparent.mem_flatMap_iff
    (by omega)).mp member
  rw [same] at found
  rw [written]
  exact (Unicode.utf8_asciiTransparent.mem_flatMap_iff small).mpr found

private theorem ascii_last {input : Bytes} {value : Wide} {unit : UInt16}
    {byte : UInt8} (converted : units input = some value)
    (small : byte.toNat < 0x80) (same : unit.toNat = byte.toNat)
    (last : value.getLast? = some unit) : input.getLast? = some byte := by
  obtain ⟨scalars, decoded, rfl⟩ := Option.map_eq_some_iff.mp converted
  have written := Unicode.decode_eq_some_iff.mp decoded
  obtain ⟨front, shape⟩ := List.getLast?_eq_some_iff.mp last
  obtain ⟨before, scalar, rfl, code, -⟩ :=
    Unicode.utf16_asciiTransparent.eq_append_of_flatMap_eq_append
      (by omega) shape
  obtain ⟨only, image, number⟩ :=
    Unicode.utf8_asciiTransparent.ascii scalar (by omega)
  have sameByte : only = byte :=
    Unicode.utf8_asciiTransparent.codeInjective (by omega)
  rw [written, Unicode.encode, List.flatMap_append,
    List.flatMap_singleton, image, sameByte]
  exact List.getLast?_concat

private theorem nul_free {arguments : List Bytes} {values : List Wide}
    (converted : arguments.map units = values.map some)
    (free : ∀ argument ∈ arguments, 0 ∉ argument) :
    ∀ value ∈ values, 0 ∉ value := by
  intro value member nul
  have image : some value ∈ arguments.map units := by
    rw [converted]
    exact List.mem_map_of_mem member
  obtain ⟨argument, source, same⟩ := List.mem_map.mp image
  exact free argument source (ascii_mem same (by decide) rfl nul)

private theorem nul_free_quotedForm {values : List Wide}
    (free : ∀ value ∈ values, 0 ∉ value) : 0 ∉ quotedForm values := by
  cases values with
  | nil => exact List.not_mem_nil
  | cons program arguments =>
      intro member
      rcases List.mem_append.mp member with name | rest
      · exact free program (by simp)
          (mem_of_mem_quoted (by decide) (by decide) name)
      · obtain ⟨argument, source, inside⟩ := List.mem_flatMap.mp rest
        rcases List.mem_cons.mp inside with space | text
        · cases space
        · exact free argument (List.mem_cons_of_mem program source)
            (mem_of_mem_quoted (by decide) (by decide) text)

/-- A line was built only from arguments that can be converted. -/
theorem commandLine_converted {arguments : List Bytes} {line : Wide}
    (built : commandLine arguments = some line) :
    ∃ values : List Wide, arguments.map units = values.map some := by
  obtain ⟨buffer, folded, -⟩ := Option.bind_eq_some_iff.mp built
  clear built
  generalize WideBuffer.empty = start at folded
  induction arguments generalizing start with
  | nil => exact ⟨[], rfl⟩
  | cons argument arguments ih =>
      rw [List.foldlM_cons] at folded
      obtain ⟨next, first, rest⟩ := Option.bind_eq_some_iff.mp folded
      obtain ⟨value, converted, -⟩ := Option.bind_eq_some_iff.mp first
      obtain ⟨text, unitsOf, -⟩ := Option.map_eq_some_iff.mp converted
      obtain ⟨values, others⟩ := ih next rest
      exact ⟨text :: values, by rw [List.map_cons, List.map_cons, unitsOf, others]⟩

private theorem converts_or_not (arguments : List Bytes) :
    (∃ argument ∈ arguments, units argument = none) ∨
      ∃ values : List Wide, arguments.map units = values.map some := by
  induction arguments with
  | nil => exact Or.inr ⟨[], rfl⟩
  | cons argument arguments ih =>
      cases converted : units argument with
      | none => exact Or.inl ⟨argument, List.mem_cons_self, converted⟩
      | some value =>
          rcases ih with ⟨other, member, failed⟩ | ⟨values, others⟩
          · exact Or.inl ⟨other, List.mem_cons_of_mem _ member, failed⟩
          · refine Or.inr ⟨value :: values, ?_⟩
            rw [List.map_cons, List.map_cons, converted, others]

/-- The launcher refuses only an argument that does not convert or a line
that is too long. -/
theorem commandLine_refused {arguments : List Bytes}
    (free : ∀ argument ∈ arguments, 0 ∉ argument) (nonempty : arguments ≠ [])
    (refused : commandLine arguments = none) :
    (∃ argument ∈ arguments, units argument = none) ∨
      ∃ values, arguments.map units = values.map some ∧
        longest < (quotedForm values).length + 1 := by
  rcases converts_or_not arguments with failed | ⟨values, converted⟩
  · exact Or.inl failed
  · refine Or.inr ⟨values, converted, ?_⟩
    have outcome :=
      appended_commandLine converted (nul_free converted free) nonempty
    rcases outcome with ⟨shape, -⟩ | ⟨-, long⟩
    · rw [shape] at refused
      cases refused
    · exact long

/-- The line that the launcher builds splits back into its arguments. -/
theorem commandLine_splits {program : Bytes} {arguments : List Bytes}
    {values : List Wide} {line : Wide}
    (free : ∀ argument ∈ program :: arguments, 0 ∉ argument)
    (plain : 0x22 ∉ program) (final : program.getLast? ≠ some 0x5C)
    (converted : (program :: arguments).map units = values.map some)
    (built : commandLine (program :: arguments) = some line) :
    ∃ text, line = text ++ [0] ∧ 0 ∉ text ∧ split text = values := by
  have freeValues := nul_free converted free
  have outcome := appended_commandLine converted freeValues (by simp)
  rcases outcome with ⟨shape, -⟩ | ⟨refused, -⟩
  · rw [shape] at built
    cases built
    refine ⟨quotedForm values, rfl, nul_free_quotedForm freeValues, ?_⟩
    cases values with
    | nil => cases converted
    | cons value values =>
        rw [List.map_cons, List.map_cons, List.cons.injEq] at converted
        apply split_quoted
        · intro member
          exact plain (ascii_mem converted.1 (by decide) rfl member)
        · intro last
          exact final (ascii_last converted.1 (by decide) rfl last)
  · rw [refused] at built
    cases built

/-- The runtime of the child recovers the arguments from the line that the
launcher builds, and the launcher refuses only a line that is too long. -/
theorem commandLine_recovered {program : Bytes} {arguments : List Bytes}
    {values : List Wide}
    (free : ∀ argument ∈ program :: arguments, 0 ∉ argument)
    (plain : 0x22 ∉ program) (final : program.getLast? ≠ some 0x5C)
    (converted : (program :: arguments).map units = values.map some) :
    (∀ line, commandLine (program :: arguments) = some line →
      ∃ text, line = text ++ [0] ∧ 0 ∉ text ∧ split text = values) ∧
    (commandLine (program :: arguments) = none →
      (quotedForm values).length + 1 > longest) := by
  constructor
  · intro line built
    exact commandLine_splits free plain final converted built
  · intro refused
    have outcome :=
      appended_commandLine converted (nul_free converted free) (by simp)
    rcases outcome with ⟨shape, -⟩ | ⟨-, long⟩
    · rw [shape] at refused
      cases refused
    · exact long

/-- A program with a space, and an argument with a quote and a backslash at
its end. -/
theorem commandLine_recovered_small :
    commandLine ["C:\\a b".toUTF8.toList, "-x\\\"y\\".toUTF8.toList] =
      some ("\"C:\\a b\" \"-x\\\\\\\"y\\\\\"".toList.map
        (fun character => character.toNat.toUInt16) ++ [0]) ∧
    ∀ line,
      commandLine ["C:\\a b".toUTF8.toList, "-x\\\"y\\".toUTF8.toList] =
        some line →
      ∃ text, line = text ++ [0] ∧ 0 ∉ text ∧ split text =
        ["C:\\a b", "-x\\\"y\\"].map fun argument =>
          argument.toList.map fun character =>
            character.toNat.toUInt16 := by
  refine ⟨by decide +kernel, ?_⟩
  exact (commandLine_recovered (by decide +kernel) (by decide +kernel)
    (by decide +kernel) (by decide +kernel)).1

end RymgaLoader.Launcher
