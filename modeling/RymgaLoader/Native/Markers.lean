import RymgaLoader.Lib.Scan
import RymgaLoader.Native.Names

/-!
# Owner markers

The text `create_marker` and `create_plugin_marker` write and the `sscanf`
conversions that read it back.  A marker that was cut off while it was being
written never names another process.
-/

namespace RymgaLoader.Native

open Scan

/-- The C string a buffer starts with. -/
def cString (bytes : Bytes) : Bytes := bytes.takeWhile (· ≠ 0)

/-- `%ld` and `%lld`. -/
def printSigned (value : Int) : Bytes :=
  if value < 0 then 0x2D :: decimal (-value).toNat else decimal value.toNat

/-- `RLL1 %ld %lld %s`. -/
def ownerText (pid : Nat) (created : Int64) (name : Name) : Bytes :=
  ascii ['R', 'L', 'L', '1', ' '] ++ printSigned pid ++ 0x20 ::
    (printSigned created.toInt ++ 0x20 :: (name ++ [0x0A]))

/-- The `sscanf` of `stale_owned_directory`, when it converts three items. -/
def scanOwner (content : Bytes) : Option (Int × Int × Name) := do
  let rest ← scanLiteral (ascii ['R', 'L', 'L', '1']) (cString content)
  let (pid, rest) ← scanSigned rest
  let (created, rest) ← scanSigned rest
  let (name, rest) ← scanWord 63 rest
  if skipSpace rest = [] then some (pid, created, name) else none

theorem prefix_append_cases {cut front back : Bytes}
    (within : cut <+: front ++ back) :
    cut <+: front ∨ ∃ rest, cut = front ++ rest ∧ rest <+: back := by
  rcases List.prefix_or_prefix_of_prefix within (List.prefix_append front back)
    with short | long
  · exact Or.inl short
  · obtain ⟨rest, rfl⟩ := long
    exact Or.inr ⟨rest, rfl, (List.prefix_append_right_inj front).mp within⟩

private theorem cString_le (bytes : Bytes) : cString bytes <+: bytes :=
  List.takeWhile_prefix _

theorem scanSigned_decimal {value : Nat} {rest : Bytes}
    (small : value < 2 ^ 63)
    (ends : ∀ byte ∈ rest.head?, isDigit byte = false) :
    scanSigned (0x20 :: (decimal value ++ rest)) = some ((value : Int), rest) := by
  rw [scanSigned, scanNumber_space, scanNumber_decimal ends]
  simp only [Option.map_some, Bool.false_eq_true, if_false]
  rw [min_eq_left (by omega)]

/-- A number at the end of the input leaves nothing to scan. -/
theorem scanSigned_cut {value : Nat} {input rest : Bytes} {scanned : Int}
    (cut : input <+: 0x20 :: decimal value)
    (number : scanSigned input = some (scanned, rest)) : rest = [] := by
  cases input with
  | nil => cases number
  | cons byte input =>
      obtain ⟨rfl, within⟩ := List.cons_prefix_cons.mp cut
      rw [scanSigned, scanNumber_space, Option.map_eq_some_iff] at number
      obtain ⟨⟨negative, magnitude, left⟩, found, same⟩ := number
      cases same
      exact scanNumber_cut within found

theorem scanLiteral_eq_some_iff {expected input rest : Bytes} :
    scanLiteral expected input = some rest ↔ input = expected ++ rest := by
  unfold scanLiteral
  constructor
  · intro scanned
    split at scanned
    · rename_i starts
      obtain ⟨tail, rfl⟩ := List.isPrefixOf_iff_prefix.mp starts
      cases scanned
      rw [List.drop_left]
    · cases scanned
  · rintro rfl
    rw [if_pos (List.isPrefixOf_iff_prefix.mpr (List.prefix_append _ _)),
      List.drop_left]

theorem decimal_noNul (value : Nat) :
    ∀ byte ∈ decimal value, byte ≠ 0 := by
  rintro byte member rfl
  exact absurd (isDigit_of_mem_decimal member) (by decide)

private theorem cString_append {front back : Bytes}
    (clean : ∀ byte ∈ front, byte ≠ 0) :
    cString (front ++ back) = front ++ cString back := by
  rw [cString, List.takeWhile_append_of_pos]
  · rfl
  · intro byte member
    simpa using clean byte member

theorem printSigned_natCast (value : Nat) :
    printSigned value = decimal value := by
  unfold printSigned
  rw [if_neg (by omega), Int.toNat_natCast]

private theorem head_clean (pid : Nat) :
    ∀ byte ∈ ascii ['R', 'L', 'L', '1', ' '] ++ decimal pid, byte ≠ 0 := by
  intro byte member
  rcases List.mem_append.mp member with letter | digit
  · clear member
    revert byte
    decide
  · exact decimal_noNul pid byte digit

private theorem scanLiteral_head {pid : Nat} {rest : Bytes} :
    scanLiteral (ascii ['R', 'L', 'L', '1'])
      (ascii ['R', 'L', 'L', '1', ' '] ++ decimal pid ++ rest) =
      some (0x20 :: (decimal pid ++ rest)) := by
  rw [scanLiteral_eq_some_iff, List.append_assoc]
  rfl

/-- The conversions of `scanOwner` with the one that reads the process left
open. -/
def scanOwnerWith (scanPid : Bytes → Option (Int × Bytes)) (content : Bytes) :
    Option (Int × Int × Name) := do
  let rest ← scanLiteral (ascii ['R', 'L', 'L', '1']) (cString content)
  let (pid, rest) ← scanPid rest
  let (created, rest) ← scanSigned rest
  let (name, rest) ← scanWord 63 rest
  if skipSpace rest = [] then some (pid, created, name) else none

theorem scanOwner_eq : scanOwner = scanOwnerWith scanSigned := rfl

/-- A conversion that reads this process back. -/
def ReadsPid (scanPid : Bytes → Option (Int × Bytes)) (pid : Nat) : Prop :=
  ∀ rest : Bytes, (∀ byte ∈ rest.head?, isDigit byte = false) →
    scanPid (0x20 :: (decimal pid ++ rest)) = some ((pid : Int), rest)

/-- A conversion that reads nothing behind a number that was cut off. -/
def CutsPid (scanPid : Bytes → Option (Int × Bytes)) (pid : Nat) : Prop :=
  ∀ input rest scanned, input <+: 0x20 :: decimal pid →
    scanPid input = some (scanned, rest) → rest = []

/-- However much of the text is in the file, a marker that scans names the
process that wrote it. -/
theorem scanOwnerWith_of_cut {scanPid : Bytes → Option (Int × Bytes)}
    {pid : Nat} {created : Int64} {name : Name} {content : Bytes}
    (reads : ReadsPid scanPid pid) (cuts : CutsPid scanPid pid)
    (cut : content <+: ownerText pid created name) {scannedPid scanned : Int}
    {scannedName : Name}
    (found : scanOwnerWith scanPid content =
      some (scannedPid, scanned, scannedName)) :
    scannedPid = pid := by
  simp only [ownerText, printSigned_natCast] at cut
  simp only [scanOwnerWith, Option.bind_eq_bind,
    Option.bind_eq_some_iff] at found
  obtain ⟨rest, literal, ⟨number, afterPid⟩, first, ⟨time, afterTime⟩, second,
    ⟨word, afterName⟩, -, last⟩ := found
  have same : scannedPid = number := by
    split at last
    · cases last
      rfl
    · cases last
  have tooShort : ¬content <+:
      ascii ['R', 'L', 'L', '1', ' '] ++ decimal pid := by
    intro short
    have within : cString content <+:
        ascii ['R', 'L', 'L', '1'] ++ 0x20 :: decimal pid :=
      (cString_le content).trans short
    rw [scanLiteral_eq_some_iff.mp literal,
      List.prefix_append_right_inj] at within
    cases cuts _ _ _ within first
    cases second
  rcases prefix_append_cases cut with short | ⟨tail, rfl, within⟩
  · exact (tooShort short).elim
  cases tail with
  | nil => exact (tooShort (by simp)).elim
  | cons byte tail =>
      obtain ⟨rfl, -⟩ := List.cons_prefix_cons.mp within
      rw [cString_append (head_clean pid), scanLiteral_head] at literal
      cases literal
      have stops : ∀ byte ∈ (cString (0x20 :: tail)).head?,
          isDigit byte = false := by
        rw [cString, List.takeWhile_cons_of_pos (by decide)]
        simp [isDigit]
      rw [reads _ stops] at first
      cases first
      exact same

theorem scanOwner_of_cut {pid : Nat} {created : Int64} {name : Name}
    {content : Bytes} (small : pid < 2 ^ 63)
    (cut : content <+: ownerText pid created name) {scannedPid scanned : Int}
    {scannedName : Name}
    (found : scanOwner content = some (scannedPid, scanned, scannedName)) :
    scannedPid = pid :=
  scanOwnerWith_of_cut (fun _ => scanSigned_decimal small)
    (fun _ _ _ => scanSigned_cut) cut found

theorem mem_of_tempStem {name : Name}
    (stem : name.take tempStem.length = tempStem)
    (random : ∀ byte ∈ name.drop tempStem.length, alphanumeric byte = true) :
    ∀ byte ∈ name, alphanumeric byte = true ∨ byte = 0x2D := by
  intro byte member
  rw [← List.take_append_drop tempStem.length name, stem] at member
  rcases List.mem_append.mp member with letter | letter
  · have listed : ∀ candidate ∈ tempStem,
        alphanumeric candidate = true ∨ candidate = 0x2D := by decide
    exact listed byte letter
  · exact Or.inl (random byte letter)

theorem tempName_mem {name : Name} (temp : tempName name = true) :
    ∀ byte ∈ name, alphanumeric byte = true ∨ byte = 0x2D := by
  simp only [tempName, templateName, Bool.decide_and, Bool.and_eq_true,
    decide_eq_true_eq, List.all_eq_true] at temp
  exact mem_of_tempStem temp.1 temp.2.2

theorem length_tempName {name : Name} (temp : tempName name = true) :
    name.length = 19 := by
  simp only [tempName, templateName, Bool.decide_and, Bool.and_eq_true,
    decide_eq_true_eq] at temp
  exact temp.2.1

namespace Windows

theorem alphanumeric_of_lowerHex {byte : UInt8}
    (digit : lowerHex byte = true) : alphanumeric byte = true := by
  simp only [lowerHex, alphanumeric, Bool.decide_or, Bool.decide_and,
    Bool.or_eq_true, Bool.and_eq_true, decide_eq_true_eq,
    UInt8.le_iff_toNat_le, UInt8.reduceToNat] at digit ⊢
  omega

theorem tempName_mem {name : Name} (temp : tempName name = true) :
    ∀ byte ∈ name, alphanumeric byte = true ∨ byte = 0x2D := by
  simp only [tempName, Bool.decide_and, Bool.and_eq_true, decide_eq_true_eq,
    List.all_eq_true] at temp
  exact mem_of_tempStem temp.1 fun byte member =>
    alphanumeric_of_lowerHex (temp.2.2 byte member)

theorem length_tempName {name : Name} (temp : tempName name = true) :
    name.length = 45 := by
  simp only [tempName, Bool.decide_and, Bool.and_eq_true, decide_eq_true_eq]
    at temp
  exact temp.2.1

end Windows

/-- A temporary directory has a short name of letters, digits and dashes. -/
theorem directoryName.plain {name : Name} (temp : directoryName name) :
    (∀ byte ∈ name, alphanumeric byte = true ∨ byte = 0x2D) ∧ name ≠ [] ∧
      name.length ≤ 45 := by
  rcases temp with temp | temp
  · have length := length_tempName temp
    refine ⟨tempName_mem temp, ?_, by omega⟩
    rintro rfl
    cases length
  · have length := Windows.length_tempName temp
    refine ⟨Windows.tempName_mem temp, ?_, by omega⟩
    rintro rfl
    cases length

theorem visible_of_temp {byte : UInt8}
    (temp : alphanumeric byte = true ∨ byte = 0x2D) :
    byte ≠ 0 ∧ isSpace byte = false := by
  rcases temp with letter | rfl
  · simp only [alphanumeric, Bool.decide_or, Bool.decide_and,
      Bool.or_eq_true, Bool.and_eq_true, decide_eq_true_eq,
      UInt8.le_iff_toNat_le] at letter
    have large : 48 ≤ byte.toNat := by
      rcases letter with ⟨low, -⟩ | ⟨low, -⟩ | ⟨low, -⟩
      · exact Nat.le_trans (by decide) low
      · exact Nat.le_trans (by decide) low
      · exact low
    refine ⟨?_, ?_⟩
    · rintro rfl
      exact absurd large (by decide)
    · simp only [isSpace, Bool.decide_or, Bool.decide_and,
        Bool.or_eq_false_iff, decide_eq_false_iff_not,
        Bool.and_eq_false_iff, ← UInt8.toNat_inj, UInt8.le_iff_toNat_le]
      refine ⟨?_, Or.inr ?_⟩
      · change ¬byte.toNat = 32
        omega
      · change ¬byte.toNat ≤ 13
        omega
  · exact ⟨by decide, by decide⟩

/-- A word at the end of a line. -/
theorem scanWord_visible {width : Nat} {word : Bytes} (nonempty : word ≠ [])
    (short : word.length ≤ width)
    (visible : ∀ byte ∈ word, isSpace byte = false) :
    scanWord width (0x20 :: (word ++ [0x0A])) = some (word, [0x0A]) := by
  have skip : skipSpace (0x20 :: (word ++ [0x0A])) = word ++ [0x0A] := by
    rw [skipSpace, List.dropWhile_cons_of_pos (by decide)]
    cases word with
    | nil => exact absurd rfl nonempty
    | cons byte word =>
        rw [List.cons_append, List.dropWhile_cons_of_neg]
        simp [visible byte (by simp)]
  have taken : (word ++ [0x0A]).takeWhile (fun byte => !isSpace byte) =
      word := by
    rw [List.takeWhile_append_of_pos]
    · simp [isSpace]
    · intro byte member
      simp [visible byte member]
  rw [scanWord, skip, taken, List.take_of_length_le short]
  simp [nonempty]

/-- A date after the epoch as a natural number. -/
theorem exists_natCast_of_epoch {created : Int64} (epoch : 0 ≤ created) :
    ∃ time : Nat, time < 2 ^ 63 ∧ created.toInt = time := by
  have positive : 0 ≤ created.toInt := by
    simpa [Int64.le_iff_toInt_le] using epoch
  obtain ⟨time, shape⟩ := Int.eq_ofNat_of_zero_le positive
  refine ⟨time, ?_, shape⟩
  have := created.toInt_lt
  omega

/-- A complete marker reads back as it was written. -/
theorem scanOwnerWith_ownerText {scanPid : Bytes → Option (Int × Bytes)}
    {pid : Nat} {created : Int64} {name : Name} (reads : ReadsPid scanPid pid)
    (epoch : 0 ≤ created)
    (visible : ∀ byte ∈ name, byte ≠ 0 ∧ isSpace byte = false)
    (nonempty : name ≠ []) (short : name.length ≤ 63) :
    scanOwnerWith scanPid (ownerText pid created name) =
      some ((pid : Int), created.toInt, name) := by
  obtain ⟨time, bounded, shape⟩ := exists_natCast_of_epoch epoch
  have clean : cString (ownerText pid created name) =
      ownerText pid created name := by
    rw [cString, List.takeWhile_eq_self_iff]
    intro byte member
    simp only [ownerText, shape, printSigned_natCast] at member
    simp only [List.mem_append, List.mem_cons, List.not_mem_nil, or_false]
      at member
    have nonzero : byte ≠ 0 := by
      rcases member with (letter | digit) | rfl | digit | rfl | letter | rfl
      · clear visible epoch
        revert byte
        decide
      · exact decimal_noNul _ byte digit
      · decide
      · exact decimal_noNul _ byte digit
      · decide
      · exact (visible byte letter).1
      · decide
    simpa using nonzero
  have blank : ∀ rest : Bytes, ∀ byte ∈ ((0x20 : UInt8) :: rest).head?,
      isDigit byte = false := by
    intro rest byte member
    cases member
    decide
  have word : scanWord 63 (0x20 :: (name ++ [0x0A])) =
      some (name, [0x0A]) :=
    scanWord_visible nonempty short fun byte member => (visible byte member).2
  rw [scanOwnerWith, clean]
  simp only [ownerText, shape, printSigned_natCast, scanLiteral_head,
    Option.bind_eq_bind, Option.bind_some, reads _ (blank _),
    scanSigned_decimal bounded (blank _), word]
  rfl

theorem scanOwner_ownerText {pid : Nat} {created : Int64} {name : Name}
    (small : pid < 2 ^ 63) (epoch : 0 ≤ created) (temp : directoryName name) :
    scanOwner (ownerText pid created name) =
      some ((pid : Int), created.toInt, name) := by
  obtain ⟨letters, nonempty, short⟩ := temp.plain
  rw [scanOwner_eq]
  exact scanOwnerWith_ownerText (fun _ => scanSigned_decimal small) epoch
    (fun byte member => visible_of_temp (letters byte member)) nonempty
    (by omega)

theorem length_decimal {value : Nat} (small : value < 2 ^ 63) :
    (decimal value).length ≤ 19 := by
  rw [decimal, List.length_map, Nat.length_toDigits_le_iff (by decide)
    (by decide)]
  omega

/-- A marker fits the buffer it is printed into. -/
theorem length_ownerText_lt {pid : Nat} {created : Int64} {name : Name}
    (small : pid < 2 ^ 63) (epoch : 0 ≤ created) (short : name.length ≤ 63) :
    (ownerText pid created name).length < 160 := by
  obtain ⟨time, bounded, shape⟩ := exists_natCast_of_epoch epoch
  have first := length_decimal small
  have second := length_decimal bounded
  have stem : (ascii ['R', 'L', 'L', '1', ' ']).length = 5 := rfl
  simp only [ownerText, shape, printSigned_natCast, List.length_append,
    List.length_cons, List.length_nil, stem]
  omega

theorem length_ownerText {pid : Nat} {created : Int64} {name : Name}
    (small : pid < 2 ^ 63) (epoch : 0 ≤ created) (temp : directoryName name) :
    (ownerText pid created name).length < 160 := by
  have short := temp.plain.2.2
  exact length_ownerText_lt small epoch (by omega)

end RymgaLoader.Native
