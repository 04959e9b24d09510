import RymgaLoader.Java.ApplicationConfig
import RymgaLoader.Protocol.WireValidators
import Mathlib.Tactic.Ring

/-!
# Credentials through a configuration file

A file with quoted credentials is read back as the credentials that the Paper
plugin encodes.  The lines of the file may be interspersed with blank lines
and comments and end in any of the three terminators.
-/

namespace RymgaLoader.Java.ApplicationConfig

open Protocol Wire
open Gateway (isWhitespace isBlank)

inductive Terminator
  | lf
  | cr
  | crlf
  deriving DecidableEq, Repr

def Terminator.scalars : Terminator → List Char
  | .lf => ['\n']
  | .cr => ['\r']
  | .crlf => ['\r', '\n']

def quoteScalar (scalar : Char) : List Char :=
  if scalar = '\\' then ['\\', '\\']
  else if scalar = '"' then ['\\', '"']
  else [scalar]

/-- Every backslash and every quotation mark is escaped. -/
def quote (value : List Char) : List Char := value.flatMap quoteScalar

def licenseLine : List Char := "license:".toList

/-- A quoted value under its name. -/
def fieldLine (name : String) (value : List Char) : List Char :=
  ' ' :: ' ' :: (name.toList ++ ':' :: ' ' :: '"' :: (quote value ++ ['"']))

/-- A file with a license, a user and a key line, in this order or the last
two exchanged, and other lines that are skipped. -/
structure ConfigFile (user key : List Char) where
  ended : List (List Char × Terminator)
  last : List Char
  single : ∀ line ∈ ended.map Prod.fst ++ [last], '\n' ∉ line ∧ '\r' ∉ line
  arranged :
    (ended.map Prod.fst ++ [last]).filter
        (fun line => !skipped (Unicode.utf16Encode line)) =
      [licenseLine, fieldLine "user" user, fieldLine "key" key] ∨
    (ended.map Prod.fst ++ [last]).filter
        (fun line => !skipped (Unicode.utf16Encode line)) =
      [licenseLine, fieldLine "key" key, fieldLine "user" user]

/-- Terminated lines and what stands behind them. -/
def render (ended : List (List Char × Terminator)) (last : List Char) :
    List Char :=
  (ended.flatMap fun line => line.1 ++ line.2.scalars) ++ last

def ConfigFile.bytes {user key : List Char} (file : ConfigFile user key) :
    RymgaLoader.Bytes :=
  Unicode.encode (render file.ended file.last)

/-- No line terminator. -/
def Unbroken (units : JavaString) : Prop :=
  (0x0A : UInt16) ∉ units ∧ (0x0D : UInt16) ∉ units

theorem linesFrom_append {units : JavaString} (unbroken : Unbroken units)
    (line rest : JavaString) :
    linesFrom line (units ++ rest) = linesFrom (line ++ units) rest := by
  induction units generalizing line with
  | nil => rw [List.nil_append, List.append_nil]
  | cons unit units ih =>
      have newline : unit ≠ 0x0A := by
        rintro rfl
        exact unbroken.1 (by simp)
      have carriage : unit ≠ 0x0D := by
        rintro rfl
        exact unbroken.2 (by simp)
      have later : Unbroken units :=
        ⟨fun member => unbroken.1 (by simp [member]),
          fun member => unbroken.2 (by simp [member])⟩
      rw [List.cons_append, linesFrom.eq_def]
      simp only [if_neg newline, if_neg carriage]
      rw [ih later, List.append_assoc, List.singleton_append]

/-- Lines that are not empty. -/
def written (lines : List JavaString) : List JavaString :=
  lines.filter (· ≠ [])

theorem written_cons (line : JavaString) {left right : List JavaString}
    (same : written left = written right) :
    written (line :: left) = written (line :: right) := by
  unfold written at same ⊢
  rw [List.filter_cons, List.filter_cons, same]

theorem linesFrom_newline (line rest : JavaString) :
    linesFrom line (0x0A :: rest) = line :: linesFrom [] rest := by
  rw [linesFrom.eq_def]
  rfl

/-- A carriage return in front of an empty line is a terminator of two
characters, which hides nothing but the empty line. -/
theorem written_carriage (line rest : JavaString) :
    written (linesFrom line (0x0D :: rest)) =
      written (line :: linesFrom [] rest) := by
  rw [linesFrom.eq_def]
  simp only [if_neg (show (0x0D : UInt16) ≠ 0x0A by decide), if_true]
  cases rest with
  | nil => rfl
  | cons next behind =>
      by_cases newline : next = 0x0A
      · subst next
        simp only [if_true, linesFrom_newline]
        exact written_cons line (by simp [written])
      · simp only [if_neg newline]

theorem written_terminated (line rest : JavaString) (mark : Terminator) :
    written (linesFrom line (Unicode.utf16Encode mark.scalars ++ rest)) =
      written (line :: linesFrom [] rest) := by
  cases mark with
  | lf => exact congrArg written (linesFrom_newline line rest)
  | cr => exact written_carriage line rest
  | crlf =>
      change written (linesFrom line (0x0D :: 0x0A :: rest)) = _
      rw [linesFrom.eq_def]
      rfl

theorem written_lines (ended : List (JavaString × Terminator))
    (last : JavaString)
    (unbroken : ∀ line ∈ ended.map Prod.fst ++ [last], Unbroken line) :
    written (lines ((ended.flatMap fun line =>
        line.1 ++ Unicode.utf16Encode line.2.scalars) ++ last)) =
      written (ended.map Prod.fst ++ [last]) := by
  unfold lines
  induction ended with
  | nil =>
      have whole := linesFrom_append (unbroken last (by simp)) [] []
      rw [List.append_nil, List.nil_append] at whole
      rw [List.flatMap_nil, List.nil_append, whole]
      by_cases empty : last = []
      · subst last
        rfl
      · simp [linesFrom, empty]
  | cons line ended ih =>
      have first := unbroken line.1 (by simp)
      rw [List.flatMap_cons, List.append_assoc, List.append_assoc,
        linesFrom_append first, List.nil_append, written_terminated]
      exact written_cons line.1
        (ih fun candidate member => unbroken candidate (by
          simp only [List.map_cons, List.cons_append, List.mem_cons]
          exact Or.inr member))

/-- Only the lines that are not skipped count. -/
theorem foldlM_readLine_filter (entries : Entries)
    (found : List JavaString) :
    found.foldlM readLine entries =
      (found.filter fun line => !skipped line).foldlM readLine entries := by
  induction found generalizing entries with
  | nil => rfl
  | cons line found ih =>
      cases skip : skipped line with
      | true =>
          have passed : readLine entries line = .ok entries := by
            rw [readLine, if_pos skip]
          rw [List.foldlM_cons, passed, List.filter_cons,
            if_neg (by simp [skip])]
          exact ih entries
      | false =>
          rw [List.filter_cons, if_pos (by simp [skip]), List.foldlM_cons,
            List.foldlM_cons]
          congr 1
          funext later
          exact ih later

theorem filter_written (found : List JavaString) :
    (written found).filter (fun line => !skipped line) =
      found.filter fun line => !skipped line := by
  rw [written, List.filter_filter]
  congr 1
  funext line
  cases line with
  | nil => rfl
  | cons unit line => simp

theorem Items.append {front back characters others : JavaString}
    (first : Items front characters) (second : Items back others) :
    Items (front ++ back) (characters ++ others) := by
  induction first with
  | nil => exact second
  | plain unquoted unescaped visible _ ih =>
      exact .plain unquoted unescaped visible ih
  | escaped known _ ih => exact .escaped known ih

theorem Items.of_plain {units : JavaString}
    (plain : ∀ unit ∈ units, unit ≠ 0x22 ∧ unit ≠ 0x5C ∧
      isISOControl unit = false) : Items units units := by
  induction units with
  | nil => exact .nil
  | cons unit units ih =>
      obtain ⟨unquoted, unescaped, visible⟩ := plain unit (by simp)
      exact .plain unquoted unescaped visible
        (ih fun candidate member => plain candidate (by simp [member]))

private theorem units_ne {scalar : Char} {unit : UInt16}
    (member : unit ∈ Unicode.utf16Units scalar) {mark : Char}
    (ascii : mark.toNat < 0x80) (differs : scalar ≠ mark) :
    unit.toNat ≠ mark.toNat := by
  intro same
  have code := (Unicode.utf16_asciiTransparent.mem_image_iff
    (by omega)).mp member
  exact differs (Char.toNat_inj.mp (code.symm.trans same))

/-- A quoted text is read as the text. -/
theorem items_quote {value : List Char}
    (clean : ∀ scalar ∈ value, ¬IsoControl scalar.toNat) :
    Items (Unicode.utf16Encode (quote value)) (Unicode.utf16Encode value) := by
  induction value with
  | nil => exact .nil
  | cons scalar value ih =>
      have later := ih fun candidate member => clean candidate
        (by simp [member])
      have split : Unicode.utf16Encode (quote (scalar :: value)) =
          Unicode.utf16Encode (quoteScalar scalar) ++
            Unicode.utf16Encode (quote value) := List.flatMap_append
      rw [split, Unicode.utf16Encode_cons]
      refine Items.append ?_ later
      unfold quoteScalar
      split
      · subst scalar
        exact .escaped (Or.inl rfl) .nil
      split
      · subst scalar
        exact .escaped (Or.inr rfl) .nil
      · rename_i unescaped unquoted
        rw [Unicode.utf16Encode, List.flatMap_singleton]
        refine Items.of_plain fun unit member => ⟨?_, ?_, ?_⟩
        · rintro rfl
          exact units_ne member (by decide) unquoted rfl
        · rintro rfl
          exact units_ne member (by decide) unescaped rfl
        · rw [← Bool.not_eq_true, isISOControl_iff]
          refine (control_iff [scalar]).mpr ?_ unit ?_
          · intro candidate only
            rw [List.mem_singleton.mp only]
            exact clean scalar (by simp)
          · rw [Unicode.utf16Encode, List.flatMap_singleton]
            exact member

theorem readLine_license :
    readLine ⟨false, none, none⟩ (Unicode.utf16Encode licenseLine) =
      .ok ⟨true, none, none⟩ := by decide

private theorem trim_quoted (body : JavaString) :
    trim (0x20 :: 0x22 :: (body ++ [0x22])) = 0x22 :: (body ++ [0x22]) := by
  have front : (0x20 :: 0x22 :: (body ++ [0x22]) : JavaString).dropWhile
      (· ≤ 0x20) = 0x22 :: (body ++ [0x22]) := by
    rw [List.dropWhile_cons, if_pos (by decide), List.dropWhile_cons,
      if_neg (by decide)]
  unfold trim
  rw [front, List.reverse_cons, List.reverse_append, List.reverse_singleton,
    List.singleton_append, List.cons_append, List.dropWhile_cons,
    if_neg (by decide)]
  simp

theorem scalar_field {value : List Char}
    (clean : ∀ scalar ∈ value, ¬IsoControl scalar.toNat) :
    scalar (0x20 :: 0x22 :: (Unicode.utf16Encode (quote value) ++ [0x22])) =
      .ok (Unicode.utf16Encode value) := by
  rw [scalar_quoted _ _ (trim_quoted _)]
  exact scalarItems_of_items (items_quote clean)

private theorem idxOf?_behind {units rest : JavaString} {mark : UInt16}
    (absent : mark ∉ units) :
    (units ++ mark :: rest).idxOf? mark = some units.length := by
  induction units with
  | nil => simp [List.idxOf?_cons]
  | cons unit units ih =>
      have differs : unit ≠ mark := by
        rintro rfl
        exact absent (by simp)
      rw [List.cons_append, List.idxOf?_cons,
        ih fun member => absent (by simp [member])]
      simp [differs]

/-- A field below the license line is split at its first colon. -/
theorem readLine_named {first : UInt16} {others rest value : JavaString}
    (visible : isWhitespace first = false) (noComment : first ≠ 0x23)
    (noColon : (0x3A : UInt16) ∉ first :: others)
    (trimmed : trim (first :: others) = first :: others)
    {entries : Entries} (opened : entries.license = true)
    (read : scalar rest = .ok value) :
    readLine entries (0x20 :: 0x20 :: (first :: others ++ 0x3A :: rest)) =
      if first :: others = java "user".toList ∧ entries.user = none then
        .ok { entries with user := some value }
      else if first :: others = java "key".toList ∧ entries.key = none then
        .ok { entries with key := some value }
      else .error invalid := by
  have blank : isWhitespace 0x20 = true := by decide
  have kept : ¬skipped (0x20 :: 0x20 :: (first :: others ++ 0x3A :: rest)) =
      true := by
    simp [skipped, isBlank, blank, visible, noComment]
  have field : ¬(0x20 :: 0x20 :: (first :: others ++ 0x3A :: rest) :
      JavaString) = java "license:".toList := by
    intro same
    cases congrArg List.head? same
  have indented : ¬(entries.license = false ∨ ¬(java "  ".toList).isPrefixOf
      (0x20 :: 0x20 :: (first :: others ++ 0x3A :: rest)) ∨
      (0x20 :: 0x20 :: (first :: others ++ 0x3A :: rest) :
        JavaString).length < 4 ∨
      (0x20 :: 0x20 :: (first :: others ++ 0x3A :: rest) :
        JavaString)[2]?.any isWhitespace) := by
    have starts : (java "  ".toList).isPrefixOf
        (0x20 :: 0x20 :: (first :: others ++ 0x3A :: rest)) = true :=
      List.isPrefixOf_iff_prefix.mpr ⟨_, rfl⟩
    rintro (closed | unindented | short | spaced)
    · rw [opened] at closed
      cases closed
    · exact unindented starts
    · simp only [List.length_cons, List.length_append] at short
      omega
    · simp [visible] at spaced
  have split := @idxOf?_behind (first :: others) rest 0x3A noColon
  unfold readLine
  rw [if_neg kept, if_neg field, if_neg indented]
  simp only [List.drop_succ_cons, List.drop_zero, split]
  rw [List.take_left, trimmed]
  have behind : (first :: others ++ 0x3A :: rest).drop
      ((first :: others).length + 1) = rest := by
    rw [← List.drop_drop, List.drop_left]
    rfl
  rw [behind, read]
  rfl

private theorem utf16Encode_fieldLine (name : String) (value : List Char) :
    Unicode.utf16Encode (fieldLine name value) = 0x20 :: 0x20 ::
      (java name.toList ++ 0x3A :: 0x20 :: 0x22 ::
        (Unicode.utf16Encode (quote value) ++ [0x22])) := by
  simp only [fieldLine, Unicode.utf16Encode, List.flatMap_cons,
    List.flatMap_append, List.flatMap_nil, List.append_nil, java]
  rfl

theorem readLine_user {value : List Char}
    (clean : ∀ scalar ∈ value, ¬IsoControl scalar.toNat)
    {key : Option JavaString} :
    readLine ⟨true, none, key⟩
        (Unicode.utf16Encode (fieldLine "user" value)) =
      .ok ⟨true, some (Unicode.utf16Encode value), key⟩ := by
  rw [utf16Encode_fieldLine]
  exact (@readLine_named 0x75 (java "ser".toList) _ _ (by decide) (by decide)
    (by decide) (by decide) ⟨true, none, key⟩ rfl (scalar_field clean)).trans
      (if_pos ⟨by decide, rfl⟩)

theorem readLine_key {value : List Char}
    (clean : ∀ scalar ∈ value, ¬IsoControl scalar.toNat)
    {user : Option JavaString} :
    readLine ⟨true, user, none⟩
        (Unicode.utf16Encode (fieldLine "key" value)) =
      .ok ⟨true, user, some (Unicode.utf16Encode value)⟩ := by
  rw [utf16Encode_fieldLine]
  refine (@readLine_named 0x6B (java "ey".toList) _ _ (by decide) (by decide)
    (by decide) (by decide) ⟨true, user, none⟩ rfl
    (scalar_field clean)).trans ?_
  rw [if_neg, if_pos ⟨by decide, rfl⟩]
  rintro ⟨same, -⟩
  exact absurd same (by decide)

private theorem utf16Encode_render (ended : List (List Char × Terminator))
    (last : List Char) :
    Unicode.utf16Encode (render ended last) =
      ((ended.map fun line => (Unicode.utf16Encode line.1, line.2)).flatMap
        fun line => line.1 ++ Unicode.utf16Encode line.2.scalars) ++
        Unicode.utf16Encode last := by
  unfold render
  rw [Unicode.utf16Encode_append]
  congr 1
  induction ended with
  | nil => rfl
  | cons line ended ih =>
      rw [List.flatMap_cons, Unicode.utf16Encode_append, Unicode.utf16Encode_append, ih]
      rfl

private theorem unbroken_utf16Encode {line : List Char}
    (single : '\n' ∉ line ∧ '\r' ∉ line) :
    Unbroken (Unicode.utf16Encode line) := by
  have absent {mark : Char} (missing : mark ∉ line) {unit : UInt16}
      (ascii : unit.toNat < 0x80) (same : unit.toNat = mark.toNat) :
      unit ∉ Unicode.utf16Encode line := by
    intro member
    obtain ⟨scalar, present, code⟩ :=
      (Unicode.utf16_asciiTransparent.mem_flatMap_iff ascii).mp member
    rw [same] at code
    exact missing (Char.toNat_inj.mp code ▸ present)
  exact ⟨absent single.1 (by decide) (by decide),
    absent single.2 (by decide) (by decide)⟩

/-- The lines of a file that count. -/
theorem ConfigFile.lines_filter {user key : List Char}
    (file : ConfigFile user key) :
    (lines (Unicode.utf16Encode (render file.ended file.last))).filter
        (fun line => !skipped line) =
      ((file.ended.map Prod.fst ++ [file.last]).filter
        fun line => !skipped (Unicode.utf16Encode line)).map
          Unicode.utf16Encode := by
  have listed := written_lines
    (file.ended.map fun line => (Unicode.utf16Encode line.1, line.2))
    (Unicode.utf16Encode file.last) ?_
  · have names : (file.ended.map fun line =>
        (Unicode.utf16Encode line.1, line.2)).map Prod.fst ++
          [Unicode.utf16Encode file.last] =
        (file.ended.map Prod.fst ++ [file.last]).map Unicode.utf16Encode := by
      simp
    rw [utf16Encode_render, ← filter_written, listed, filter_written, names,
      List.filter_map]
    rfl
  · intro line member
    have names : line ∈ (file.ended.map Prod.fst ++ [file.last]).map
        Unicode.utf16Encode := by
      simpa using member
    obtain ⟨scalars, present, rfl⟩ := List.mem_map.mp names
    exact unbroken_utf16Encode (file.single scalars present)

theorem ConfigFile.readEntries_eq {user key : List Char}
    (file : ConfigFile user key) (fits : file.bytes.length ≤ maxBytes)
    (userClean : ∀ scalar ∈ user, ¬IsoControl scalar.toNat)
    (keyClean : ∀ scalar ∈ key, ¬IsoControl scalar.toNat) :
    readEntries (some file.bytes) = .ok ⟨true,
      some (Unicode.utf16Encode user), some (Unicode.utf16Encode key)⟩ := by
  have taken : file.bytes.take (maxBytes + 1) = file.bytes :=
    List.take_of_length_le (by omega)
  have decoded : Unicode.decode file.bytes =
      some (render file.ended file.last) :=
    Unicode.decode_eq_some_iff.mpr rfl
  simp only [readEntries, taken, if_neg (show ¬file.bytes.length > maxBytes by
    omega), decoded]
  rw [foldlM_readLine_filter, file.lines_filter]
  rcases file.arranged with order | order
  · rw [order]
    simp only [List.map_cons, List.map_nil, List.foldlM_cons,
      List.foldlM_nil, readLine_license]
    change (readLine ⟨true, none, none⟩ _ >>= _) = _
    rw [readLine_user userClean]
    change (readLine ⟨true, _, none⟩ _ >>= _) = _
    rw [readLine_key keyClean]
    rfl
  · rw [order]
    simp only [List.map_cons, List.map_nil, List.foldlM_cons,
      List.foldlM_nil, readLine_license]
    change (readLine ⟨true, none, none⟩ _ >>= _) = _
    rw [readLine_key keyClean]
    change (readLine ⟨true, none, _⟩ _ >>= _) = _
    rw [readLine_user userClean]
    rfl

/-- A code unit takes at most three bytes, escaped or not. -/
private theorem length_quoteScalar (scalar : Char) :
    (Unicode.encode (quoteScalar scalar)).length ≤
      3 * (Unicode.utf16Units scalar).length := by
  unfold quoteScalar
  split
  · subst scalar
    decide
  split
  · subst scalar
    decide
  · rw [Unicode.encode, List.flatMap_singleton]
    exact Unicode.length_utf8EncodeChar_le scalar

theorem length_quote (value : List Char) :
    (Unicode.encode (quote value)).length ≤
      3 * (Unicode.utf16Encode value).length := by
  induction value with
  | nil => exact Nat.le_refl _
  | cons scalar value ih =>
      have first := length_quoteScalar scalar
      have split : Unicode.encode (quote (scalar :: value)) =
          Unicode.encode (quoteScalar scalar) ++
            Unicode.encode (quote value) := List.flatMap_append
      rw [split, List.length_append, Unicode.utf16Encode_cons,
        List.length_append]
      omega

private theorem length_terminator (mark : Terminator) :
    (Unicode.encode mark.scalars).length ≤ 2 := by
  cases mark <;> decide

private theorem length_fieldLine (name : String) (value : List Char) :
    (Unicode.encode (fieldLine name value)).length =
      (Unicode.encode name.toList).length +
        (Unicode.encode (quote value)).length + 6 := by
  have shape : fieldLine name value = [' ', ' '] ++ (name.toList ++
      ([':', ' ', '"'] ++ (quote value ++ ['"']))) := rfl
  have front : (Unicode.encode [' ', ' ']).length = 2 := by decide
  have middle : (Unicode.encode [':', ' ', '"']).length = 3 := by decide
  have back : (Unicode.encode ['"']).length = 1 := by decide
  simp only [shape, Unicode.encode_append, List.length_append, front, middle, back]
  omega

theorem length_render_le {name other : String} {left right : List Char}
    (named : (Unicode.encode name.toList).length +
      (Unicode.encode other.toList).length = 7)
    (short : (Unicode.utf16Encode left).length +
      (Unicode.utf16Encode right).length + 1 ≤ 4096)
    (first second third : Terminator) :
    (Unicode.encode (render [(licenseLine, first),
      (fieldLine name left, second), (fieldLine other right, third)]
        [])).length ≤ maxBytes := by
  have license : (Unicode.encode licenseLine).length = 8 := by decide
  have marks := length_terminator first
  have marks' := length_terminator second
  have marks'' := length_terminator third
  have quoted := length_quote left
  have quoted' := length_quote right
  simp only [render, List.flatMap_cons, List.flatMap_nil, List.append_nil,
    Unicode.encode_append, List.length_append, length_fieldLine, license]
  unfold maxBytes
  omega

/-- Quoted credentials are read back as the Paper plugin encodes them,
whatever skipped lines and terminators the file has; a file without skipped
lines is never too large. -/
theorem read_roundTrip (user key : List Char)
    (userClean : ∀ scalar ∈ user, ¬IsoControl scalar.toNat)
    (keyClean : ∀ scalar ∈ key, ¬IsoControl scalar.toNat)
    (present : trim (Unicode.utf16Encode key) ≠ [])
    (short : (trim (Unicode.utf16Encode user)).length +
      (trim (Unicode.utf16Encode key)).length + 1 ≤ 4096) :
    (∀ file : ConfigFile user key, file.bytes.length ≤ maxBytes →
      ∃ license, PaperCredentials.encode (some (Unicode.utf16Encode user))
          (some (Unicode.utf16Encode key)) = some license ∧
        read (some file.bytes) = .ok license) ∧
      (trim (Unicode.utf16Encode user) = Unicode.utf16Encode user →
        trim (Unicode.utf16Encode key) = Unicode.utf16Encode key →
        ∀ first second third : Terminator,
          (Unicode.encode (render [(licenseLine, first),
            (fieldLine "user" user, second), (fieldLine "key" key, third)]
              [])).length ≤ maxBytes ∧
          (Unicode.encode (render [(licenseLine, first),
            (fieldLine "key" key, second), (fieldLine "user" user, third)]
              [])).length ≤ maxBytes) := by
  constructor
  · intro file fits
    refine ⟨_, if_neg present, ?_⟩
    rw [read, file.readEntries_eq fits userClean keyClean]
    change Entries.credentials _ = _
    rw [Entries.credentials, if_neg]
    · exact if_neg (Nat.not_lt.mpr short)
    · rintro (closed | empty)
      · cases closed
      · exact present empty
  · intro userTrimmed keyTrimmed first second third
    rw [userTrimmed, keyTrimmed] at short
    exact ⟨length_render_le (by decide) short first second third,
      length_render_le (by decide) (by omega) first second third⟩

/-- A commented file that mixes its terminators. -/
def commentedFile : ConfigFile ['u'] ['"', ':', '\\'] where
  ended := [("# license".toList, .cr), ([], .lf), (licenseLine, .crlf),
    (fieldLine "key" ['"', ':', '\\'], .cr), ("  # user".toList, .lf)]
  last := fieldLine "user" ['u']
  single := by decide
  arranged := Or.inr (by decide)

theorem read_roundTrip_commentedFile :
    commentedFile.bytes.length ≤ maxBytes ∧
      ∃ license, PaperCredentials.encode
          (some (Unicode.utf16Encode ['u']))
          (some (Unicode.utf16Encode ['"', ':', '\\'])) = some license ∧
        read (some commentedFile.bytes) = .ok license := by
  have fits : commentedFile.bytes.length ≤ maxBytes := by decide
  exact ⟨fits, (read_roundTrip ['u'] ['"', ':', '\\'] (by decide) (by decide)
    (by decide) (by decide)).1 commentedFile fits⟩

end RymgaLoader.Java.ApplicationConfig
