import RymgaLoader.Lib.Hex
import RymgaLoader.Native.Markers

/-!
# Plugin markers

The text `create_plugin_marker` writes and what `parse_plugin_marker` reads
from it: the process that published a plugin, the identity of the file and the
name it was published under.  A marker that was cut off while it was being
written never records another process or another file.
-/

namespace RymgaLoader.Native

open Scan

/-- The file a plugin marker vouches for. -/
structure PluginRecord where
  volume : Nat
  file : Nat
  filename : Name
  deriving DecidableEq, Repr

/-- `RLP1 %ld %lld %llu %llu %s`. -/
def pluginText (pid : Nat) (created : Int64) (volume file : Nat)
    (filename : Name) : Bytes :=
  ascii ['R', 'L', 'P', '1'] ++ 0x20 :: (printSigned pid ++ 0x20 ::
    (printSigned created.toInt ++ 0x20 :: (decimal volume ++ 0x20 ::
      (decimal file ++ 0x20 :: (Hex.encode filename ++ [0x0A])))))

/-- The `sscanf` of `parse_plugin_marker`, when it converts five items. -/
def scanPluginWith (scanPid : Bytes → Option (Int × Bytes))
    (content : Bytes) : Option (Int × Int × Nat × Nat × Bytes) := do
  let rest ← scanLiteral (ascii ['R', 'L', 'P', '1']) (cString content)
  let (pid, rest) ← scanPid rest
  let (created, rest) ← scanSigned rest
  let (volume, rest) ← scanUnsigned rest
  let (file, rest) ← scanUnsigned rest
  let (hex, rest) ← scanWord 510 rest
  if skipSpace rest = [] then some (pid, created, volume, file, hex) else none

def scanPlugin (content : Bytes) : Option (Int × Int × Nat × Nat × Bytes) :=
  scanPluginWith scanSigned content

/-- The name of a JAR that decoded digits hold, ended by its first NUL. -/
def decodedName (valid : Bytes → Bool) : Option Bytes → Option Name
  | some bytes =>
      if bytes ≠ [] ∧ valid bytes ∧ jarName (cString bytes) then
        some (cString bytes)
      else none
  | none => none

theorem jarName_of_decodedName {valid : Bytes → Bool} {decoded : Option Bytes}
    {filename : Name} (named : decodedName valid decoded = some filename) :
    jarName filename = true := by
  unfold decodedName at named
  split at named
  · split at named
    · rename_i accepted
      cases named
      exact accepted.2.2
    · cases named
  · cases named

/-- The file name a marker holds in hexadecimal. -/
def markedFilename (hex : Bytes) : Option Name :=
  decodedName (fun bytes => bytes.length ≤ 255) (Hex.decode Hex.value hex)

/-- What a marker records, with the process it names. -/
def pluginRecordWith (scan : Bytes → Option (Int × Int × Nat × Nat × Bytes))
    (marked : Bytes → Option Name) (content : Bytes) :
    Option (Int × PluginRecord) :=
  match scan content with
  | some (pid, created, volume, file, hex) =>
      if created < 0 then none
      else (marked hex).map fun filename => (pid, ⟨volume, file, filename⟩)
  | none => none

def pluginRecord (content : Bytes) : Option (Int × PluginRecord) :=
  pluginRecordWith scanPlugin markedFilename content

theorem pluginRecordWith_eq_some_iff
    {scan : Bytes → Option (Int × Int × Nat × Nat × Bytes)}
    {marked : Bytes → Option Name} {content : Bytes} {pid : Int}
    {record : PluginRecord} :
    pluginRecordWith scan marked content = some (pid, record) ↔
      ∃ created hex, scan content =
        some (pid, created, record.volume, record.file, hex) ∧
      0 ≤ created ∧ marked hex = some record.filename := by
  unfold pluginRecordWith
  constructor
  · intro read
    split at read
    · rename_i owner created volume file hex scanned
      split at read
      · cases read
      · rename_i epoch
        obtain ⟨filename, named, same⟩ := Option.map_eq_some_iff.mp read
        cases same
        exact ⟨created, hex, scanned, by omega, named⟩
    · cases read
  · rintro ⟨created, hex, scanned, epoch, named⟩
    rw [scanned]
    dsimp only
    rw [if_neg (by omega), named]
    rfl

private theorem not_space_of_digit : ∀ number : Fin 16,
    Hex.digit number ≠ 0 ∧ isSpace (Hex.digit number) = false ∧
      lowerHex (Hex.digit number) = true := by decide

theorem encode_visible {bytes : Bytes} {byte : UInt8}
    (member : byte ∈ Hex.encode bytes) :
    byte ≠ 0 ∧ isSpace byte = false ∧ lowerHex byte = true := by
  obtain ⟨number, rfl⟩ := Hex.mem_encode member
  exact not_space_of_digit number

theorem pluginText_noNul {pid : Nat} {created : Int64}
    {volume file : Nat} {filename : Name} (epoch : 0 ≤ created) :
    ∀ byte ∈ pluginText pid created volume file filename, byte ≠ 0 := by
  obtain ⟨time, -, shape⟩ := exists_natCast_of_epoch epoch
  intro byte member
  simp only [pluginText, shape, printSigned_natCast, List.mem_append,
    List.mem_cons, List.not_mem_nil, or_false] at member
  rcases member with letter | rfl | digit | rfl | digit | rfl | digit | rfl |
    digit | rfl | digit | rfl
  · clear epoch
    revert byte
    decide
  all_goals first
    | decide
    | exact decimal_noNul _ _ digit
    | exact (encode_visible digit).1

theorem cString_eq_self {bytes : Bytes}
    (clean : ∀ byte ∈ bytes, byte ≠ 0) : cString bytes = bytes := by
  rw [cString, List.takeWhile_eq_self_iff]
  intro byte member
  simpa using clean byte member

theorem scanUnsigned_decimal {value : Nat} {rest : Bytes}
    (small : value < 2 ^ 64)
    (ends : ∀ byte ∈ rest.head?, isDigit byte = false) :
    scanUnsigned (0x20 :: (decimal value ++ rest)) = some (value, rest) := by
  rw [scanUnsigned, scanNumber_space, scanNumber_decimal ends]
  simp only [Option.map_some, Bool.false_eq_true, if_false, ge_iff_le]
  rw [if_neg (by omega)]

private theorem blank_ends {rest : Bytes} (cut : ∃ tail, rest = 0x20 :: tail) :
    ∀ byte ∈ rest.head?, isDigit byte = false := by
  obtain ⟨tail, rfl⟩ := cut
  intro byte member
  cases member
  decide

/-- A numeral with more text behind it is complete. -/
private theorem scanNumber_within {value magnitude : Nat} {negative : Bool}
    {input left rest : Bytes}
    (cut : input <+: 0x20 :: (decimal value ++ 0x20 :: rest))
    (number : scanNumber input = some (negative, magnitude, left))
    (more : left ≠ []) :
    negative = false ∧ magnitude = value ∧ left <+: 0x20 :: rest := by
  cases input with
  | nil => cases number
  | cons byte input =>
      obtain ⟨rfl, within⟩ := List.cons_prefix_cons.mp cut
      rw [scanNumber_space] at number
      rcases prefix_append_cases within with short | ⟨tail, rfl, inside⟩
      · exact absurd (scanNumber_cut short number) more
      · cases tail with
        | nil =>
            rw [List.append_nil] at number
            exact absurd (scanNumber_cut List.prefix_rfl number) more
        | cons blank tail =>
            obtain ⟨rfl, -⟩ := List.cons_prefix_cons.mp inside
            rw [scanNumber_decimal (blank_ends ⟨tail, rfl⟩)] at number
            cases number
            exact ⟨rfl, rfl, inside⟩

private theorem scanSigned_within {value : Nat} {scanned : Int}
    {input left rest : Bytes} (small : value < 2 ^ 63)
    (cut : input <+: 0x20 :: (decimal value ++ 0x20 :: rest))
    (number : scanSigned input = some (scanned, left)) (more : left ≠ []) :
    scanned = value ∧ left <+: 0x20 :: rest := by
  obtain ⟨⟨negative, magnitude, after⟩, found, same⟩ :=
    Option.map_eq_some_iff.mp number
  cases same
  obtain ⟨rfl, rfl, inside⟩ := scanNumber_within cut found more
  refine ⟨?_, inside⟩
  simp only [Bool.false_eq_true, if_false]
  omega

private theorem scanUnsigned_within {value scanned : Nat}
    {input left rest : Bytes} (small : value < 2 ^ 64)
    (cut : input <+: 0x20 :: (decimal value ++ 0x20 :: rest))
    (number : scanUnsigned input = some (scanned, left)) (more : left ≠ []) :
    scanned = value ∧ left <+: 0x20 :: rest := by
  obtain ⟨⟨negative, magnitude, after⟩, found, same⟩ :=
    Option.map_eq_some_iff.mp number
  cases same
  obtain ⟨rfl, rfl, inside⟩ := scanNumber_within cut found more
  refine ⟨?_, inside⟩
  simp only [Bool.false_eq_true, if_false, ge_iff_le]
  rw [if_neg (by omega)]

private theorem scanNumber_ne_nil {input : Bytes}
    {found : Bool × Nat × Bytes} (number : scanNumber input = some found) :
    input ≠ [] := by
  rintro rfl
  cases number

/-- However much of the text is in the file, a marker that scans names the
process that wrote it and the file it was written for. -/
theorem scanPlugin_of_cut {pid : Nat} {created : Int64} {volume file : Nat}
    {filename : Name} {content : Bytes} (small : pid < 2 ^ 63)
    (epoch : 0 ≤ created) (narrowVolume : volume < 2 ^ 64)
    (narrowFile : file < 2 ^ 64)
    (cut : content <+: pluginText pid created volume file filename)
    {scannedPid scannedTime : Int} {scannedVolume scannedFile : Nat}
    {hex : Bytes}
    (found : scanPlugin content =
      some (scannedPid, scannedTime, scannedVolume, scannedFile, hex)) :
    scannedPid = pid ∧ scannedVolume = volume ∧ scannedFile = file := by
  have clean : cString content = content :=
    cString_eq_self fun byte member =>
      pluginText_noNul epoch byte (cut.subset member)
  obtain ⟨time, smallTime, shape⟩ := exists_natCast_of_epoch epoch
  simp only [pluginText, shape, printSigned_natCast] at cut
  simp only [scanPlugin, scanPluginWith, clean, Option.bind_eq_bind,
    Option.bind_eq_some_iff] at found
  obtain ⟨rest, literal, ⟨number, afterPid⟩, first, ⟨date, afterTime⟩, second,
    ⟨device, afterVolume⟩, third, ⟨inode, afterFile⟩, fourth, ⟨word, afterHex⟩,
    fifth, last⟩ := found
  have same : scannedPid = number ∧ scannedVolume = device ∧
      scannedFile = inode := by
    split at last
    · cases last
      exact ⟨rfl, rfl, rfl⟩
    · cases last
  rw [scanLiteral_eq_some_iff.mp literal,
    List.prefix_append_right_inj] at cut
  have nonemptyFile : afterFile ≠ [] := by
    rintro rfl
    cases fifth
  have nonemptyVolume : afterVolume ≠ [] := by
    obtain ⟨inner, scanned, -⟩ := Option.map_eq_some_iff.mp fourth
    exact scanNumber_ne_nil scanned
  have nonemptyTime : afterTime ≠ [] := by
    obtain ⟨inner, scanned, -⟩ := Option.map_eq_some_iff.mp third
    exact scanNumber_ne_nil scanned
  have nonemptyPid : afterPid ≠ [] := by
    obtain ⟨inner, scanned, -⟩ := Option.map_eq_some_iff.mp second
    exact scanNumber_ne_nil scanned
  obtain ⟨rfl, cutPid⟩ := scanSigned_within small cut first nonemptyPid
  obtain ⟨rfl, cutTime⟩ :=
    scanSigned_within smallTime cutPid second nonemptyTime
  obtain ⟨rfl, cutVolume⟩ :=
    scanUnsigned_within narrowVolume cutTime third nonemptyVolume
  obtain ⟨rfl, -⟩ :=
    scanUnsigned_within narrowFile cutVolume fourth nonemptyFile
  exact same

/-- The name of a JAR that a marker can hold. -/
structure MarkableName (filename : Name) : Prop where
  jar : jarName filename = true
  short : filename.length ≤ 255
  noNul : ∀ byte ∈ filename, byte ≠ 0

theorem MarkableName.ne_nil {filename : Name}
    (markable : MarkableName filename) : filename ≠ [] := by
  rintro rfl
  exact absurd markable.jar (by decide)

theorem markedFilename_encode {filename : Name}
    (markable : MarkableName filename) :
    markedFilename (Hex.encode filename) = some filename := by
  rw [markedFilename, Hex.decode_encode Hex.value_digit, decodedName,
    cString_eq_self markable.noNul]
  exact if_pos ⟨markable.ne_nil, decide_eq_true markable.short, markable.jar⟩

theorem scanPluginWith_pluginText {scanPid : Bytes → Option (Int × Bytes)}
    {pid : Nat} {created : Int64} {volume file : Nat} {filename : Name}
    (reads : ReadsPid scanPid pid) (epoch : 0 ≤ created)
    (narrowVolume : volume < 2 ^ 64) (narrowFile : file < 2 ^ 64)
    (nonempty : filename ≠ []) (short : filename.length ≤ 255) :
    scanPluginWith scanPid (pluginText pid created volume file filename) =
      some ((pid : Int), created.toInt, volume, file,
        Hex.encode filename) := by
  have clean := cString_eq_self
    (pluginText_noNul epoch : ∀ byte ∈ pluginText pid created volume file
      filename, byte ≠ 0)
  obtain ⟨time, smallTime, shape⟩ := exists_natCast_of_epoch epoch
  have blank : ∀ rest : Bytes, ∀ byte ∈ ((0x20 : UInt8) :: rest).head?,
      isDigit byte = false := fun rest => blank_ends ⟨rest, rfl⟩
  have word : scanWord 510 (0x20 :: (Hex.encode filename ++ [0x0A])) =
      some (Hex.encode filename, [0x0A]) := by
    have length := Hex.length_encode filename
    have positive := List.length_pos_iff.mpr nonempty
    refine scanWord_visible ?_ (by omega) fun byte member =>
      (encode_visible member).2.1
    rw [← List.length_pos_iff]
    omega
  rw [scanPluginWith, clean]
  simp only [pluginText, shape, printSigned_natCast, Option.bind_eq_bind,
    scanLiteral_eq_some_iff.mpr rfl, Option.bind_some, reads _ (blank _),
    scanSigned_decimal smallTime (blank _),
    scanUnsigned_decimal narrowVolume (blank _),
    scanUnsigned_decimal narrowFile (blank _), word]
  rfl

/-- A complete marker reads back as it was written. -/
theorem pluginRecordWith_pluginText {scanPid : Bytes → Option (Int × Bytes)}
    {marked : Bytes → Option Name} {pid : Nat} {created : Int64}
    {volume file : Nat} {filename : Name} (reads : ReadsPid scanPid pid)
    (epoch : 0 ≤ created) (narrowVolume : volume < 2 ^ 64)
    (narrowFile : file < 2 ^ 64) (nonempty : filename ≠ [])
    (short : filename.length ≤ 255)
    (decodes : marked (Hex.encode filename) = some filename) :
    pluginRecordWith (scanPluginWith scanPid) marked
        (pluginText pid created volume file filename) =
      some ((pid : Int), ⟨volume, file, filename⟩) := by
  obtain ⟨time, -, shape⟩ := exists_natCast_of_epoch epoch
  exact pluginRecordWith_eq_some_iff.mpr ⟨created.toInt, Hex.encode filename,
    scanPluginWith_pluginText reads epoch narrowVolume narrowFile nonempty
      short, by omega, decodes⟩

theorem pluginRecord_pluginText {pid : Nat} {created : Int64}
    {volume file : Nat} {filename : Name} (small : pid < 2 ^ 63)
    (epoch : 0 ≤ created) (narrowVolume : volume < 2 ^ 64)
    (narrowFile : file < 2 ^ 64) (markable : MarkableName filename) :
    pluginRecord (pluginText pid created volume file filename) =
      some ((pid : Int), ⟨volume, file, filename⟩) :=
  pluginRecordWith_pluginText (fun _ => scanSigned_decimal small) epoch
    narrowVolume narrowFile markable.ne_nil markable.short
    (markedFilename_encode markable)

private theorem length_decimal_wide {value : Nat} (small : value < 2 ^ 64) :
    (decimal value).length ≤ 20 := by
  rw [decimal, List.length_map, Nat.length_toDigits_le_iff (by decide)
    (by decide)]
  omega

/-- A marker fits the buffer it is printed into. -/
theorem length_pluginText {pid : Nat} {created : Int64} {volume file : Nat}
    {filename : Name} (small : pid < 2 ^ 63) (epoch : 0 ≤ created)
    (narrowVolume : volume < 2 ^ 64) (narrowFile : file < 2 ^ 64)
    (short : filename.length ≤ 255) :
    (pluginText pid created volume file filename).length < 800 := by
  obtain ⟨time, smallTime, shape⟩ := exists_natCast_of_epoch epoch
  have first := length_decimal small
  have second := length_decimal smallTime
  have third := length_decimal_wide narrowVolume
  have fourth := length_decimal_wide narrowFile
  have word := Hex.length_encode filename
  have stem : (ascii ['R', 'L', 'P', '1']).length = 4 := rfl
  simp only [pluginText, shape, printSigned_natCast, List.length_append,
    List.length_cons, List.length_nil, word, stem]
  omega

end RymgaLoader.Native
