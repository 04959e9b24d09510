import RymgaLoader.Native.Materialize
import RymgaLoader.Native.PluginPlatforms

/-!
# Where a filename is used

A filename comes from the server and is used as a path component, as the name
of an entry the cleanups look for, as the end of a path and in hexadecimal.
Every filename `parse_manifest` accepts suits all of them.
-/

namespace RymgaLoader.Native

/-- `strrchr`: the C string from its last `mark` on. -/
def strrchr : Bytes → UInt8 → Option Bytes
  | [], _ => none
  | byte :: rest, mark =>
      match strrchr rest mark with
      | some found => some found
      | none => if byte = mark then some (byte :: rest) else none

/-- The part of a path `rymga_platform_materialize_plugin` and `create_marker`
take for a name: what follows the last slash. -/
def baseName (path : Bytes) : Bytes :=
  match strrchr path 0x2F with
  | none => path
  | some found => found.drop 1

theorem strrchr_none {text : Bytes} {mark : UInt8} (absent : mark ∉ text) :
    strrchr text mark = none := by
  induction text with
  | nil => rfl
  | cons byte rest ih =>
      rw [List.mem_cons, not_or] at absent
      rw [strrchr, ih absent.2]
      simp [Ne.symm absent.1]

theorem strrchr_append {front back : Bytes} {mark : UInt8}
    (absent : mark ∉ back) :
    strrchr (front ++ mark :: back) mark = some (mark :: back) := by
  induction front with
  | nil =>
      rw [List.nil_append, strrchr, strrchr_none absent]
      simp
  | cons byte front ih => rw [List.cons_append, strrchr, ih]

/-- What stands behind the last mark is kept. -/
theorem strrchr_append_right {front back : Bytes} {mark : UInt8}
    (absent : mark ∉ back) :
    strrchr (front ++ back) mark = (strrchr front mark).map (· ++ back) := by
  induction front with
  | nil => rw [List.nil_append, strrchr_none absent, strrchr, Option.map_none]
  | cons byte front ih =>
      rw [List.cons_append, strrchr, strrchr, ih]
      cases strrchr front mark with
      | some found => rfl
      | none =>
          simp only [Option.map_none]
          split
          · rfl
          · rfl

theorem baseName_slashed {name : Name} (plain : 0x2F ∉ name)
    (directory : Bytes) : baseName (slashed directory name) = name := by
  rw [baseName, slashed, strrchr_append plain]
  rfl

/-- A path has one last component. -/
theorem slashed_inj {directory parent : Bytes} {name other : Name}
    (plain : 0x2F ∉ name) (otherPlain : 0x2F ∉ other)
    (same : slashed directory name = slashed parent other) :
    parent = directory ∧ other = name := by
  have last := congrArg baseName same
  rw [baseName_slashed plain, baseName_slashed otherPlain] at last
  subst last
  exact ⟨(List.append_cancel_right same).symm, rfl⟩

theorem text_of_parsed {bytes : Bytes} {m : Manifest}
    (parsed : parseManifest bytes = some m) :
    (Unicode.decode m.filename).isSome = true := by
  obtain ⟨fields, valid, -, rfl⟩ := parseManifest_eq_some_iff.mp parsed
  obtain ⟨⟨-, -, scalars, encoded, -⟩, -⟩ := valid.originalFilename
  have decoded : Unicode.decode (Manifest.ofFields fields).filename =
      some scalars := Unicode.decode_eq_some_iff.mpr encoded
  rw [decoded]
  rfl

theorem jarName_plain {name : Name} (jar : jarName name = true) :
    0x2F ∉ name ∧ 0x5C ∉ name := by
  simp only [jarName, Bool.decide_and, Bool.and_eq_true, decide_eq_true_eq,
    decide_not] at jar
  exact ⟨by simpa using jar.2.1, by simpa using jar.2.2.1⟩

/-- The dot of the ending stands where a template has a letter or a digit. -/
theorem not_template_of_jarName {name : Name} (jar : jarName name = true)
    (stem : Name) : templateName stem name = false := by
  rw [← Bool.not_eq_true]
  intro template
  simp only [templateName, Bool.decide_and, Bool.and_eq_true,
    decide_eq_true_eq, List.all_eq_true] at template
  simp only [jarName, Bool.decide_and, Bool.and_eq_true, decide_eq_true_eq]
    at jar
  obtain ⟨-, length, random⟩ := template
  have inside : name.length - 4 < name.length := by omega
  have dot : name[name.length - 4] = 0x2E := by
    have found := jar.2.2.2.1
    rwa [List.getD_eq_getElem?_getD, List.getElem?_eq_getElem inside]
      at found
  have member : (0x2E : UInt8) ∈ name.drop stem.length := by
    rw [← dot, List.mem_iff_getElem]
    refine ⟨2, ?_, ?_⟩
    · rw [List.length_drop]
      omega
    · rw [List.getElem_drop]
      congr 1
      omega
  exact absurd (random 0x2E member) (by decide)

/-- What the other parts of the loader take for granted about a filename. -/
structure SafeFilename (filename : Name) : Prop where
  noSlash : 0x2F ∉ filename
  noBackslash : 0x5C ∉ filename
  visible : filename.head? ≠ some 0x2E
  child : ∀ (directory parent : Bytes) (name : Name), 0x2F ∉ name →
    slashed directory filename = slashed parent name →
      parent = directory ∧ name = filename
  other : filename ∉ [[0x2E], [0x2E, 0x2E], artifactPart, ownerMarker]
  notTemp : tempName filename = false
  notMarker : pluginMarkerName filename = false
  notPartial : pluginPartialName filename = false
  jar : jarName filename = true
  /-- The scan of a stale directory takes a file with this name for the JAR
  and keeps the whole name. -/
  stale : ∀ (directory : Nat) (entries : List Name), ∃ next,
    staleEntries directory [] (filename :: entries) =
      .call (.fstatat (.at directory filename)) next ∧
    ∀ info : Stat, info.mode.regular = true → info.mode.owned = true →
      info.mode.writable = false →
        next (some info) = staleEntries directory filename entries
  /-- The cleanup of plugins takes the name out of a marker. -/
  marked : markedFilename (Hex.encode filename) = some filename
  published : ∀ directory : Bytes,
    baseName (slashed directory filename) = filename
  fits : (Hex.encode filename).length + 1 ≤ 511

theorem visible_of_parsed {bytes : Bytes} {m : Manifest}
    (parsed : parseManifest bytes = some m) :
    m.filename.head? ≠ some 0x2E := by
  obtain ⟨fields, valid, -, rfl⟩ := parseManifest_eq_some_iff.mp parsed
  obtain ⟨-, plain⟩ := valid.originalFilename
  intro dot
  have first : fields.originalFilename.head? = some 0x2E := dot
  apply plain.visible
  rw [List.head?_map, first]
  rfl

/-- Every filename `parse_manifest` accepts is safe. -/
theorem filename_safe {bytes : Bytes} {m : Manifest}
    (parsed : parseManifest bytes = some m) : SafeFilename m.filename := by
  have markable := markableName_of_parsed parsed
  have visible := visible_of_parsed parsed
  obtain ⟨noSlash, noBackslash⟩ := jarName_plain markable.jar
  have hidden {name : Name} (dot : name.head? = some 0x2E) :
      m.filename ≠ name := by
    rintro rfl
    exact visible dot
  have other : m.filename ∉
      [[0x2E], [0x2E, 0x2E], artifactPart, ownerMarker] := by
    simp only [List.mem_cons, List.not_mem_nil, or_false, not_or]
    exact ⟨hidden rfl, hidden rfl, hidden rfl, hidden rfl⟩
  refine ⟨noSlash, noBackslash, visible, ?_, other, ?_, ?_, ?_, markable.jar,
    ?_, markedFilename_encode markable, baseName_slashed noSlash, ?_⟩
  · intro directory parent name plain same
    exact slashed_inj noSlash plain same
  · exact not_template_of_jarName markable.jar tempStem
  · rw [← Bool.not_eq_true]
    intro marker
    have jar := markable.jar
    rw [not_jarName_of_marker marker] at jar
    cases jar
  · exact not_template_of_jarName markable.jar partialStem
  · intro directory entries
    simp only [List.mem_cons, List.not_mem_nil, or_false, not_or] at other
    obtain ⟨dot, dots, unfinished, marker⟩ := other
    rw [staleEntries, if_neg (by simp [dot, dots, marker]),
      Program.perform_bind]
    refine ⟨_, rfl, fun info regular owned closed => ?_⟩
    simp [regular, owned, closed, unfinished, markable.jar,
      List.take_of_length_le markable.short]
  · have short := markable.short
    rw [Hex.length_encode]
    omega

theorem filename_safe_small : SafeFilename (ascii "a.jar".toList) := by
  have filename : (parseManifest smallManifest.layout).map (·.filename) =
      some (ascii "a.jar".toList) := by
    decide +kernel
  obtain ⟨m, parsed, named⟩ := Option.map_eq_some_iff.mp filename
  rw [← named]
  exact filename_safe parsed

end RymgaLoader.Native
