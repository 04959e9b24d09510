import Mathlib.Data.List.TakeWhile
import RymgaLoader.Lib.Json
import RymgaLoader.Gateway.License

/-!
# The messages between the gateway and the license provider

The request body is a JSON text from which the request can be read back.  The
answer is matched by a regular expression, whose white space is wider than
that of JSON.
-/

namespace RymgaLoader.Gateway

open Protocol Unicode

namespace SessionRequestData

/-- A hexadecimal digit as a character. -/
private def hexChar (value : Nat) : Char :=
  Char.ofNat (if value < 10 then 0x30 + value else 0x57 + value)

/-- What `escape` makes of a scalar value. -/
private def escapeScalar (scalar : Char) : List Char :=
  if scalar = '"' then ['\\', '"']
  else if scalar = '\\' then ['\\', '\\']
  else if scalar = '\x08' then ['\\', 'b']
  else if scalar = '\x0C' then ['\\', 'f']
  else if scalar = '\n' then ['\\', 'n']
  else if scalar = '\r' then ['\\', 'r']
  else if scalar = '\t' then ['\\', 't']
  else if scalar.toNat < 0x20 then
    ['\\', 'u', '0', '0', hexChar (scalar.toNat / 16),
      hexChar (scalar.toNat % 16)]
  else [scalar]

private theorem escape_ascii : ∀ code < 128,
    escape (utf16Units (Char.ofNat code)) =
      utf16Encode (escapeScalar (Char.ofNat code)) := by decide +kernel

private theorem escapeScalar_other {scalar : Char}
    (high : 0x80 ≤ scalar.toNat) : escapeScalar scalar = [scalar] := by
  have differs {other : Char} (low : other.toNat < 0x80) :
      scalar ≠ other := by
    rintro rfl
    omega
  unfold escapeScalar
  rw [if_neg (differs (by decide)), if_neg (differs (by decide)),
    if_neg (differs (by decide)), if_neg (differs (by decide)),
    if_neg (differs (by decide)), if_neg (differs (by decide)),
    if_neg (differs (by decide)), if_neg (by omega)]

private theorem escapeUnit_other {unit : UInt16} (high : 0x80 ≤ unit.toNat) :
    escapeUnit unit = [unit] := by
  have differs {other : UInt16} (low : other.toNat < 0x80) :
      unit ≠ other := by
    rintro rfl
    omega
  unfold escapeUnit
  rw [if_neg (differs (by decide)), if_neg (differs (by decide)),
    if_neg (differs (by decide)), if_neg (differs (by decide)),
    if_neg (differs (by decide)), if_neg (differs (by decide)),
    if_neg (differs (by decide)), if_neg]
  rw [UInt16.lt_iff_toNat_lt]
  change ¬unit.toNat < 32
  omega

private theorem escape_scalar (scalar : Char) :
    escape (utf16Units scalar) = utf16Encode (escapeScalar scalar) := by
  by_cases low : scalar.toNat < 0x80
  · have listed := escape_ascii scalar.toNat low
    rwa [Char.ofNat_toNat] at listed
  · have others := (utf16_asciiTransparent.other scalar (by omega)).2
    rw [escapeScalar_other (by omega), utf16Encode, List.flatMap_singleton]
    unfold escape
    generalize utf16Units scalar = units at others
    induction units with
    | nil => rfl
    | cons unit units ih =>
        rw [List.flatMap_cons, escapeUnit_other (others unit (by simp)),
          ih fun candidate member => others candidate (by simp [member])]
        rfl

/-- Escaping works scalar value by scalar value. -/
private theorem escape_utf16Encode (scalars : List Char) :
    escape (utf16Encode scalars) =
      utf16Encode (scalars.flatMap escapeScalar) := by
  induction scalars with
  | nil => rfl
  | cons scalar scalars ih =>
      have first := escape_scalar scalar
      unfold escape at first ih ⊢
      rw [utf16Encode_cons, List.flatMap_append, first, ih, utf16Encode,
        utf16Encode, utf16Encode, List.flatMap_cons, List.flatMap_append]

private theorem hexUnit_control : ∀ code < 32,
    Json.hexUnit '0' '0' (hexChar (code / 16)) (hexChar (code % 16)) =
      some (UInt16.ofNat code) := by decide +kernel

private theorem stringBody_escapeScalar (scalar : Char) (rest : List Char) :
    Json.stringBody (escapeScalar scalar ++ rest) =
      Json.before (utf16Units scalar) (Json.stringBody rest) := by
  unfold escapeScalar
  iterate 7
    split
    · subst scalar
      exact Json.stringBody_short rfl rest
  split
  · rename_i control
    have units : utf16Units scalar = [UInt16.ofNat scalar.toNat] := by
      rw [utf16Units, if_pos (by omega)]
    rw [units]
    exact Json.stringBody_unit (hexUnit_control _ control) rest
  · rename_i unquoted unescaped _ _ _ _ _ visible
    exact Json.stringBody_plain ⟨by omega, unquoted, unescaped⟩ rest

/-- An escaped string is read as the string. -/
private theorem stringBody_escape (scalars rest : List Char) :
    Json.stringBody (scalars.flatMap escapeScalar ++ '"' :: rest) =
      some (utf16Encode scalars, rest) := by
  induction scalars with
  | nil => exact Json.stringBody_quote rest
  | cons scalar scalars ih =>
      rw [List.flatMap_cons, List.append_assoc, stringBody_escapeScalar, ih,
        Json.before_some, utf16Encode_cons]

private def symbolChar (byte : UInt8) : Char := Char.ofNat byte.toNat

private theorem symbol_plain (group : Nat) :
    Json.Plain (symbolChar (Base64.symbol group)) ∧
      utf16Units (symbolChar (Base64.symbol group)) =
        [(Base64.symbol group).toUInt16] := by
  have listed : ∀ value < 64, Json.Plain (symbolChar (Base64.symbol value)) ∧
      utf16Units (symbolChar (Base64.symbol value)) =
        [(Base64.symbol value).toUInt16] := by decide +kernel
  by_cases small : group < 64
  · exact listed group small
  · have last : Base64.symbol group = Base64.symbol 63 := by
      simp only [Base64.symbol, if_neg (show ¬group < 26 by omega),
        if_neg (show ¬group < 52 by omega), if_neg (show ¬group < 62 by omega),
        if_neg (show ¬group = 62 by omega)]
      rfl
    rw [last]
    exact listed 63 (by decide)

private theorem mem_encodeUrl {bytes : Bytes} {byte : UInt8}
    (member : byte ∈ Base64.encodeUrl bytes) :
    ∃ group, byte = Base64.symbol group := by
  induction bytes using Base64.encodeUrl.induct with
  | case1 => cases member
  | case2 a =>
      simp only [Base64.encodeUrl, List.mem_cons, List.not_mem_nil,
        or_false] at member
      rcases member with same | same <;> exact ⟨_, same⟩
  | case3 a b =>
      simp only [Base64.encodeUrl, List.mem_cons, List.not_mem_nil,
        or_false] at member
      rcases member with same | same | same <;> exact ⟨_, same⟩
  | case4 a b c rest ih =>
      simp only [Base64.encodeUrl, List.mem_cons] at member
      rcases member with same | same | same | same | later
      · exact ⟨_, same⟩
      · exact ⟨_, same⟩
      · exact ⟨_, same⟩
      · exact ⟨_, same⟩
      · exact ih later

private theorem nonce_plain (nonce : Bytes) :
    (∀ scalar ∈ (Base64.encodeUrl nonce).map symbolChar,
        Json.Plain scalar) ∧
      utf16Encode ((Base64.encodeUrl nonce).map symbolChar) =
        (Base64.encodeUrl nonce).map UInt8.toUInt16 := by
  have symbols := fun byte => @mem_encodeUrl nonce byte
  generalize Base64.encodeUrl nonce = encoded at symbols
  constructor
  · intro scalar member
    obtain ⟨byte, present, rfl⟩ := List.mem_map.mp member
    obtain ⟨group, rfl⟩ := symbols byte present
    exact (symbol_plain group).1
  · induction encoded with
    | nil => rfl
    | cons byte encoded ih =>
        obtain ⟨group, same⟩ := symbols byte (by simp)
        have units := (symbol_plain group).2
        rw [← same] at units
        rw [List.map_cons, utf16Encode_cons, units,
          ih fun candidate member => symbols candidate (by simp [member])]
        rfl

/-- Strings without unpaired surrogates. -/
structure WellFormed (data : SessionRequestData) : Prop where
  license : ∃ scalars, data.license = utf16Encode scalars
  product : ∃ scalars, data.product = utf16Encode scalars
  installationId : ∃ scalars, data.installationId = utf16Encode scalars

/-- The members of the request body. -/
def members (data : SessionRequestData) : List (JavaString × Json.Value) :=
  [(java "license".toList, .string data.license),
    (java "product".toList, .string data.product),
    (java "installationId".toList, .string data.installationId),
    (java "timestamp".toList, .number data.timestamp.toInt 0),
    (java "nonce".toList,
      .string ((Base64.encodeUrl data.nonce).map UInt8.toUInt16))]

/-- A name and what follows it. -/
private def named (name : String) (rest : List Char) : List Char :=
  '"' :: (name.toList ++ '"' :: ':' :: rest)

/-- A member whose value is a string, and what follows it. -/
private def quoted (name : String) (content rest : List Char) : List Char :=
  named name ('"' :: (content ++ '"' :: rest))

private def body (license product installationId : List Char)
    (timestamp : Int) (nonce : Bytes) : List Char :=
  '\x7b' :: quoted "license" (license.flatMap escapeScalar) (',' ::
    quoted "product" (product.flatMap escapeScalar) (',' ::
    quoted "installationId" (installationId.flatMap escapeScalar) (',' ::
    named "timestamp" ((toString timestamp).toList ++ ',' ::
    quoted "nonce" ((Base64.encodeUrl nonce).map symbolChar) ['\x7d']))))

private theorem json_eq {data : SessionRequestData}
    {license product installationId : List Char}
    (licensed : data.license = utf16Encode license)
    (produced : data.product = utf16Encode product)
    (installed : data.installationId = utf16Encode installationId) :
    data.json = utf16Encode (body license product installationId
      data.timestamp.toInt data.nonce) := by
  have first : "\x7b\"license\":\"".toList = '\x7b' :: '"' ::
      ("license".toList ++ ['"', ':', '"']) := by decide
  have second : "\",\"product\":\"".toList = '"' :: ',' :: '"' ::
      ("product".toList ++ ['"', ':', '"']) := by decide
  have third : "\",\"installationId\":\"".toList = '"' :: ',' :: '"' ::
      ("installationId".toList ++ ['"', ':', '"']) := by decide
  have fourth : "\",\"timestamp\":".toList = '"' :: ',' :: '"' ::
      ("timestamp".toList ++ ['"', ':']) := by decide
  have fifth : ",\"nonce\":\"".toList = ',' :: '"' ::
      ("nonce".toList ++ ['"', ':', '"']) := by decide
  have last : "\"\x7d".toList = ['"', '\x7d'] := by decide
  have nonce := (nonce_plain data.nonce).2
  rw [json, licensed, produced, installed, escape_utf16Encode,
    escape_utf16Encode, escape_utf16Encode, ← nonce, first, second, third,
    fourth, fifth, last]
  simp only [java, ← utf16Encode_append, body, quoted, named,
    List.append_assoc, List.cons_append, List.nil_append]

private theorem plain_name {name : String}
    (plain : ∀ scalar ∈ name.toList, Json.Plain scalar) (rest : List Char) :
    Json.stringBody (name.toList ++ '"' :: ':' :: rest) =
      some (java name.toList, ':' :: rest) :=
  Json.stringBody_plains plain (':' :: rest)

private theorem skipSpace_named (name : String) (rest : List Char) :
    Json.skipSpace (named name rest) = named name rest :=
  Json.skipSpace_quote _

private theorem skipSpace_quoted (name : String) (content rest : List Char) :
    Json.skipSpace (quoted name content rest) = quoted name content rest :=
  Json.skipSpace_quote _

/-- A member whose value is a string, before another one. -/
private theorem members_quoted {fuel depth : Nat} {name : String}
    (plain : ∀ scalar ∈ name.toList, Json.Plain scalar)
    {content rest : List Char} {units : JavaString}
    (read : ∀ after, Json.stringBody (content ++ '"' :: after) =
      some (units, after))
    (visible : Json.skipSpace rest = rest) :
    Json.members (Json.value (depth + 1)) (fuel + 1)
        (quoted name content (',' :: rest)) =
      (Json.members (Json.value (depth + 1)) fuel rest).map
        fun (others, rest) =>
          ((java name.toList, .string units) :: others, rest) :=
  Json.members_cons (plain_name plain _) (Json.skipSpace_quote _)
    (Json.value_string depth (read _)) visible

private theorem members_body {fuel depth : Nat} (license product
    installationId : List Char) (timestamp : Int64) (nonce : Bytes) :
    Json.members (Json.value (depth + 1)) (fuel + 5)
        (body license product installationId timestamp.toInt nonce).tail =
      some (members ⟨utf16Encode product, utf16Encode installationId,
        utf16Encode license, timestamp, nonce⟩, []) := by
  have symbols := nonce_plain nonce
  have fifth : Json.members (Json.value (depth + 1)) (fuel + 1)
      (quoted "nonce" ((Base64.encodeUrl nonce).map symbolChar) ['\x7d']) =
      some ([(java "nonce".toList,
        .string ((Base64.encodeUrl nonce).map UInt8.toUInt16))], []) := by
    refine Json.members_last (plain_name (by decide) _) (Json.skipSpace_quote _)
      (Json.value_string depth ?_)
    rw [Json.stringBody_plains symbols.1, symbols.2]
  have fourth : Json.members (Json.value (depth + 1)) (fuel + 2)
      (named "timestamp" ((toString timestamp.toInt).toList ++ ',' ::
        quoted "nonce" ((Base64.encodeUrl nonce).map symbolChar)
          ['\x7d'])) =
      some ([(java "timestamp".toList, .number timestamp.toInt 0),
        (java "nonce".toList,
          .string ((Base64.encodeUrl nonce).map UInt8.toUInt16))], []) := by
    refine (Json.members_cons (plain_name (by decide) _)
      (Json.skipSpace_toString _ _) (Json.value_toString depth _ ?_)
      (skipSpace_quoted _ _ _)).trans ?_
    · intro scalar member
      cases member
      decide
    · rw [fifth]
      rfl
  have texts (scalars after : List Char) :=
    stringBody_escape scalars after
  rw [body, List.tail_cons,
    members_quoted (by decide) (texts license) (skipSpace_quoted _ _ _),
    members_quoted (by decide) (texts product) (skipSpace_quoted _ _ _),
    members_quoted (by decide) (texts installationId) (skipSpace_named _ _),
    fourth]
  rfl

/-- The request body is a JSON text with exactly the members of the
request. -/
private theorem parse_body (license product installationId : List Char)
    (timestamp : Int64) (nonce : Bytes) :
    Json.parse (body license product installationId timestamp.toInt nonce) =
      some (.object (members ⟨utf16Encode product,
        utf16Encode installationId, utf16Encode license, timestamp,
        nonce⟩)) := by
  obtain ⟨depth, long⟩ : ∃ depth, (body license product installationId
      timestamp.toInt nonce).length = depth + 5 := by
    refine ⟨_, (Nat.sub_add_cancel ?_).symm⟩
    simp only [body, quoted, named, List.length_cons, List.length_append]
    omega
  have inside := @members_body depth (depth + 4) license product
    installationId timestamp nonce
  have opened : Json.skipSpace (body license product installationId
      timestamp.toInt nonce) = body license product installationId
      timestamp.toInt nonce := by
    simp [body, Json.skipSpace, Json.isSpace]
  have whole : Json.value (depth + 5 + 1) (body license product
      installationId timestamp.toInt nonce) =
      some (.object (members ⟨utf16Encode product,
        utf16Encode installationId, utf16Encode license, timestamp,
        nonce⟩), []) := Json.value_object inside
  rw [Json.parse, opened, long, whole]
  rfl

private theorem parse_json {data : SessionRequestData}
    (wellFormed : data.WellFormed) :
    ∃ text, utf16Decode data.json = some text ∧
      Json.parse text = some (.object data.members) := by
  obtain ⟨⟨license, licensed⟩, ⟨product, produced⟩,
    ⟨installationId, installed⟩⟩ := wellFormed
  refine ⟨_, utf16Decode_eq_some_iff.mpr
    (json_eq licensed produced installed), ?_⟩
  rw [parse_body, ← licensed, ← produced, ← installed]

theorem members_injective {left right : SessionRequestData}
    (same : left.members = right.members) : left = right := by
  simp only [members, List.cons.injEq, Prod.mk.injEq, Json.Value.string.injEq,
    Json.Value.number.injEq, true_and, and_true] at same
  obtain ⟨license, product, installationId, timestamp, nonce⟩ := same
  have symbols := List.map_injective_iff.mpr
    (fun left right => UInt8.toUInt16_inj.mp) nonce
  have decoded := congrArg Base64.decodeUrl symbols
  rw [Base64.decodeUrl_encodeUrl, Base64.decodeUrl_encodeUrl] at decoded
  have moment := Int64.toInt_inj.mp timestamp
  cases left
  cases right
  cases license
  cases product
  cases installationId
  cases moment
  cases Option.some.inj decoded
  rfl

/-- The request body is a JSON text, written in UTF-16, from which exactly the
request can be read; different requests have different bodies. -/
theorem json_faithful (data : SessionRequestData)
    (wellFormed : data.WellFormed) :
    (∃ text, utf16Decode data.json = some text ∧
      Json.parse text = some (.object data.members)) ∧
      ∀ other : SessionRequestData, other.WellFormed →
        other.json = data.json → other = data := by
  have parsed := parse_json wellFormed
  refine ⟨parsed, fun other wellFormed' same => ?_⟩
  obtain ⟨text, decoded, found⟩ := parsed
  obtain ⟨text', decoded', found'⟩ := parse_json wellFormed'
  rw [same, decoded] at decoded'
  cases decoded'
  rw [found] at found'
  have listed := Json.Value.object.inj (Option.some.inj found')
  exact (members_injective listed).symm

/-- A license that tries to add a member, and a product in another script. -/
def forgedData : SessionRequestData where
  product := java ['π', '😀']
  installationId := java ['\x01', '\\']
  license := java ['"', ',', '"', 'v']
  timestamp := -1
  nonce := [0xFB, 0xFF]

theorem json_faithful_forgedData :
    forgedData.WellFormed ∧
      (∃ text, utf16Decode forgedData.json = some text ∧
        Json.parse text = some (.object forgedData.members)) ∧
      ∀ other : SessionRequestData, other.WellFormed →
        other.json = forgedData.json → other = forgedData := by
  have wellFormed : forgedData.WellFormed := ⟨⟨_, rfl⟩, ⟨_, rfl⟩, ⟨_, rfl⟩⟩
  exact ⟨wellFormed, json_faithful forgedData wellFormed⟩

end SessionRequestData

def verdictWord (verdict : Bool) : List Char :=
  if verdict then "true".toList else "false".toList

/-- The texts of a verdict, with white space between the tokens. -/
def VerdictText (space : Char → Bool) (verdict : Bool) (text : List Char) :
    Prop :=
  ∃ first second third fourth fifth last : List Char,
    (∀ scalar ∈ first ++ second ++ third ++ fourth ++ fifth ++ last,
      space scalar = true) ∧
    text = first ++ ['\x7b'] ++ (second ++ "\"valid\"".toList ++
      (third ++ [':'] ++ (fourth ++ verdictWord verdict ++
        (fifth ++ ['\x7d'] ++ last))))

theorem pastLiteral_eq_some_iff {first : Char} {others text rest : List Char}
    (visible : patternSpace first = false) :
    pastLiteral (first :: others) text = some rest ↔
      ∃ spaces : List Char, (∀ scalar ∈ spaces, patternSpace scalar = true) ∧
        text = spaces ++ (first :: others) ++ rest := by
  constructor
  · intro found
    simp only [pastLiteral] at found
    split at found
    · rename_i begins
      cases found
      obtain ⟨tail, same⟩ := List.isPrefixOf_iff_prefix.mp begins
      refine ⟨text.takeWhile patternSpace, fun scalar member =>
        List.mem_takeWhile_imp member, ?_⟩
      rw [← same, List.drop_left, List.append_assoc, same,
        List.takeWhile_append_dropWhile]
    · cases found
  · rintro ⟨spaces, blank, rfl⟩
    have behind : (spaces ++ (first :: others) ++ rest).dropWhile
        patternSpace = first :: others ++ rest := by
      rw [List.append_assoc, List.dropWhile_append_of_pos blank,
        List.cons_append, List.dropWhile_cons, visible]
      rfl
    unfold pastLiteral
    simp only [behind]
    rw [if_pos (List.isPrefixOf_iff_prefix.mpr (List.prefix_append _ _)),
      List.drop_left]

private theorem words_separate {text left right : List Char}
    (positive : pastLiteral "true".toList text = some left)
    (negative : pastLiteral "false".toList text = some right) : False := by
  simp only [pastLiteral] at positive negative
  split at positive
  · rename_i begins
    split at negative
    · rename_i begins'
      obtain ⟨tail, same⟩ := List.isPrefixOf_iff_prefix.mp begins
      obtain ⟨tail', same'⟩ := List.isPrefixOf_iff_prefix.mp begins'
      have heads := congrArg List.head? (same.trans same'.symm)
      exact absurd heads (by simp)
    · cases negative
  · cases positive

/-- The word of a verdict after white space, with what is done next. -/
private theorem word_eq_some_iff {text : List Char}
    {next : Bool × List Char → Option Bool} {result : Bool} :
    (match pastLiteral "true".toList text,
        pastLiteral "false".toList text with
      | some rest, _ => (some (true, rest)).bind next
      | none, some rest => (some (false, rest)).bind next
      | none, none => none.bind next) = some result ↔
      ∃ verdict rest, pastLiteral (verdictWord verdict) text = some rest ∧
        next (verdict, rest) = some result := by
  have separate := @words_separate text
  have chosen (verdict : Bool) : pastLiteral (verdictWord verdict) text =
      if verdict then pastLiteral "true".toList text
      else pastLiteral "false".toList text := by
    cases verdict <;> rfl
  simp only [chosen, Bool.exists_bool, if_true, Bool.false_eq_true, if_false]
  generalize pastLiteral "true".toList text = positive at separate ⊢
  generalize pastLiteral "false".toList text = negative at separate ⊢
  cases positive with
  | none => cases negative <;> simp
  | some left =>
      cases negative with
      | none => simp
      | some right => exact (separate rfl rfl).elim

theorem validResponse_eq_some_iff {text : List Char} {verdict : Bool} :
    validResponse text = some verdict ↔
      VerdictText patternSpace verdict text := by
  have name : "\"valid\"".toList = '"' :: ['v', 'a', 'l', 'i', 'd', '"'] := by
    decide
  have word : ∃ first others, verdictWord verdict = first :: others ∧
      patternSpace first = false := by
    cases verdict with
    | true => exact ⟨'t', ['r', 'u', 'e'], by decide, by decide⟩
    | false => exact ⟨'f', ['a', 'l', 's', 'e'], by decide, by decide⟩
  obtain ⟨letter, letters, spelled, visible⟩ := word
  simp only [validResponse, Option.bind_eq_bind, Option.bind_eq_some_iff,
    VerdictText]
  constructor
  · rintro ⟨rest, found, rest₂, found₂, rest₃, found₃, chosen⟩
    obtain ⟨verdict', rest₄, found₄, closed⟩ := word_eq_some_iff.mp chosen
    obtain ⟨rest₅, found₅, ended⟩ := Option.bind_eq_some_iff.mp closed
    split at ended
    · rename_i blank
      cases ended
      rw [spelled] at found₄
      rw [name] at found₂
      obtain ⟨first, blank₁, rfl⟩ :=
        (pastLiteral_eq_some_iff (by decide)).mp found
      obtain ⟨second, blank₂, rfl⟩ :=
        (pastLiteral_eq_some_iff (by decide)).mp found₂
      obtain ⟨third, blank₃, rfl⟩ :=
        (pastLiteral_eq_some_iff (by decide)).mp found₃
      obtain ⟨fourth, blank₄, rfl⟩ :=
        (pastLiteral_eq_some_iff visible).mp found₄
      obtain ⟨fifth, blank₅, rfl⟩ :=
        (pastLiteral_eq_some_iff (by decide)).mp found₅
      refine ⟨first, second, third, fourth, fifth, rest₅, ?_, ?_⟩
      · intro scalar member
        simp only [List.mem_append] at member
        rcases member with ((((member | member) | member) | member) |
          member) | member
        · exact blank₁ scalar member
        · exact blank₂ scalar member
        · exact blank₃ scalar member
        · exact blank₄ scalar member
        · exact blank₅ scalar member
        · exact List.all_eq_true.mp blank scalar member
      · rw [name, spelled]
    · cases ended
  · rintro ⟨first, second, third, fourth, fifth, last, blank, rfl⟩
    have blanks {part : List Char} (within : ∀ scalar ∈ part, scalar ∈
        first ++ second ++ third ++ fourth ++ fifth ++ last) :
        ∀ scalar ∈ part, patternSpace scalar = true :=
      fun scalar member => blank scalar (within scalar member)
    have ended : last.all patternSpace = true :=
      List.all_eq_true.mpr (blanks (by simp +contextual))
    rw [name, spelled]
    refine ⟨_, (pastLiteral_eq_some_iff (by decide)).mpr
      ⟨first, blanks (by simp +contextual), rfl⟩, _,
      (pastLiteral_eq_some_iff (by decide)).mpr
        ⟨second, blanks (by simp +contextual), rfl⟩, _,
      (pastLiteral_eq_some_iff (by decide)).mpr
        ⟨third, blanks (by simp +contextual), rfl⟩,
      word_eq_some_iff.mpr ⟨verdict, _, ?_, Option.bind_eq_some_iff.mpr
        ⟨last, (pastLiteral_eq_some_iff (by decide)).mpr
          ⟨fifth, blanks (by simp +contextual), rfl⟩, if_pos ended⟩⟩⟩
    rw [spelled]
    exact (pastLiteral_eq_some_iff visible).mpr
      ⟨fourth, blanks (by simp +contextual), rfl⟩

/-- An answer is accepted exactly where it is a verdict in JSON. -/
structure ReadsStrictly (statusCode : Int) (body : Bytes) : Prop where
  accepts : ∀ verdict,
    providerResponseIsAccepted statusCode body = .ok verdict ↔
      statusCode = 200 ∧ body.length ≤ 8192 ∧
        ∃ text, body = Unicode.encode text ∧
          VerdictText Json.isSpace verdict text
  refuses : ∀ thrown,
    providerResponseIsAccepted statusCode body = .error thrown →
      thrown = .licenseProviderUnavailable

/-- An answer that is a verdict up to a vertical tab or a form feed between
its tokens. -/
def LooseAnswer (statusCode : Int) (body : Bytes) : Prop :=
  statusCode = 200 ∧ body.length ≤ 8192 ∧
    ∃ text verdict, body = Unicode.encode text ∧
      VerdictText patternSpace verdict text ∧
      ('\x0B' ∈ text ∨ '\x0C' ∈ text)

theorem providerResponseIsAccepted_eq_ok_iff {statusCode : Int}
    {body : Bytes} {verdict : Bool} :
    providerResponseIsAccepted statusCode body = .ok verdict ↔
      statusCode = 200 ∧ body.length ≤ 8192 ∧
        ∃ text, body = Unicode.encode text ∧
          VerdictText patternSpace verdict text := by
  simp only [providerResponseIsAccepted, Throwing.bind_eq_ok_iff,
    demand_eq_ok_iff, exists_const]
  constructor
  · rintro ⟨admitted, matched⟩
    have plain : statusCode = 200 ∧ body.length ≤ 8192 := by omega
    refine ⟨plain.1, plain.2, ?_⟩
    split at matched
    · cases matched
    rename_i text decoded
    split at matched
    · cases matched
    rename_i found captured
    cases matched
    exact ⟨text, Unicode.decode_eq_some_iff.mp decoded,
      validResponse_eq_some_iff.mp captured⟩
  · rintro ⟨rfl, short, text, same, spelled⟩
    refine ⟨by omega, ?_⟩
    rw [Unicode.decode_eq_some_iff.mpr same]
    simp only [validResponse_eq_some_iff.mpr spelled]
    rfl

theorem providerResponseIsAccepted_error {statusCode : Int} {body : Bytes}
    {thrown : GatewayException}
    (failed : providerResponseIsAccepted statusCode body = .error thrown) :
    thrown = .licenseProviderUnavailable := by
  unfold providerResponseIsAccepted demand at failed
  split at failed
  · dsimp only [bind, Except.bind] at failed
    split at failed
    · cases failed
      rfl
    split at failed
    · cases failed
      rfl
    · cases failed
  · cases failed
    rfl

private theorem patternSpace_iff (scalar : Char) :
    patternSpace scalar = true ↔
      Json.isSpace scalar = true ∨ scalar = '\x0B' ∨ scalar = '\x0C' := by
  simp only [patternSpace, Json.isSpace, List.mem_cons, List.not_mem_nil,
    or_false, decide_eq_true_eq]
  tauto

/-- Everything in the text of a verdict is white space or part of a token. -/
private theorem VerdictText.mem {space : Char → Bool} {verdict : Bool}
    {text : List Char} (spelled : VerdictText space verdict text)
    {scalar : Char} (member : scalar ∈ text) :
    space scalar = true ∨ scalar ∈ "\x7b\"valid\":truefalse\x7d".toList := by
  obtain ⟨first, second, third, fourth, fifth, last, blank, rfl⟩ := spelled
  have tokens (token : List Char)
      (known : ∀ candidate ∈ token,
        candidate ∈ "\x7b\"valid\":truefalse\x7d".toList)
      (present : scalar ∈ token) :
      space scalar = true ∨
        scalar ∈ "\x7b\"valid\":truefalse\x7d".toList :=
    Or.inr (known scalar present)
  have word : ∀ candidate ∈ verdictWord verdict,
      candidate ∈ "\x7b\"valid\":truefalse\x7d".toList := by
    cases verdict <;> decide
  simp only [List.mem_append] at member blank
  rcases member with (member | member) | ((member | member) |
    ((member | member) | ((member | member) | ((member | member) |
      member))))
  · exact Or.inl (blank scalar (by simp [member]))
  · exact tokens _ (by decide) member
  · exact Or.inl (blank scalar (by simp [member]))
  · exact tokens _ (by decide) member
  · exact Or.inl (blank scalar (by simp [member]))
  · exact tokens _ (by decide) member
  · exact Or.inl (blank scalar (by simp [member]))
  · exact tokens _ word member
  · exact Or.inl (blank scalar (by simp [member]))
  · exact tokens _ (by decide) member
  · exact Or.inl (blank scalar (by simp [member]))

/-- A verdict in JSON holds neither a vertical tab nor a form feed. -/
theorem VerdictText.strict_iff {verdict : Bool} {text : List Char} :
    VerdictText Json.isSpace verdict text ↔
      VerdictText patternSpace verdict text ∧ '\x0B' ∉ text ∧
        '\x0C' ∉ text := by
  constructor
  · intro spelled
    refine ⟨?_, ?_, ?_⟩
    · obtain ⟨first, second, third, fourth, fifth, last, blank, same⟩ :=
        spelled
      exact ⟨first, second, third, fourth, fifth, last,
        fun scalar member => (patternSpace_iff scalar).mpr
          (Or.inl (blank scalar member)), same⟩
    · intro member
      rcases spelled.mem member with blank | token
      · exact absurd blank (by decide)
      · exact absurd token (by decide)
    · intro member
      rcases spelled.mem member with blank | token
      · exact absurd blank (by decide)
      · exact absurd token (by decide)
  · rintro ⟨⟨first, second, third, fourth, fifth, last, blank, rfl⟩, noTab,
      noFeed⟩
    refine ⟨first, second, third, fourth, fifth, last, ?_, rfl⟩
    intro scalar member
    have present : scalar ∈ first ++ ['\x7b'] ++ (second ++
        "\"valid\"".toList ++ (third ++ [':'] ++ (fourth ++
        verdictWord verdict ++ (fifth ++ ['\x7d'] ++ last)))) := by
      simp only [List.mem_append] at member ⊢
      tauto
    rcases (patternSpace_iff scalar).mp (blank scalar member) with
      json | rfl | rfl
    · exact json
    · exact absurd present noTab
    · exact absurd present noFeed

/-- The answer of the provider is read strictly, unless a vertical tab or a
form feed stands between its tokens. -/
theorem providerResponse_strict_iff (statusCode : Int) (body : Bytes) :
    ReadsStrictly statusCode body ↔ ¬LooseAnswer statusCode body := by
  constructor
  · rintro ⟨accepts, -⟩ ⟨status, short, text, verdict, rfl, spelled, loose⟩
    have returned := providerResponseIsAccepted_eq_ok_iff.mpr
      ⟨status, short, text, rfl, spelled⟩
    obtain ⟨-, -, others, same, strict⟩ := (accepts verdict).mp returned
    cases Unicode.encode_injective same
    obtain ⟨-, noTab, noFeed⟩ := VerdictText.strict_iff.mp strict
    rcases loose with tab | feed
    · exact noTab tab
    · exact noFeed feed
  · intro strict
    refine ⟨fun verdict => ?_, fun thrown failed =>
      providerResponseIsAccepted_error failed⟩
    rw [providerResponseIsAccepted_eq_ok_iff]
    constructor
    · rintro ⟨status, short, text, same, spelled⟩
      refine ⟨status, short, text, same, VerdictText.strict_iff.mpr
        ⟨spelled, fun tab => strict ?_, fun feed => strict ?_⟩⟩
      · exact ⟨status, short, text, verdict, same, spelled, Or.inl tab⟩
      · exact ⟨status, short, text, verdict, same, spelled, Or.inr feed⟩
    · rintro ⟨status, short, text, same, spelled⟩
      exact ⟨status, short, text, same,
        (VerdictText.strict_iff.mp spelled).1⟩

/-- A positive verdict behind a vertical tab. -/
def tabbedAnswer : List Char := '\x0B' :: "\x7b\"valid\":true\x7d".toList

theorem providerResponse_tabbedAnswer :
    ¬ReadsStrictly 200 (Unicode.encode tabbedAnswer) := by
  rintro ⟨accepts, -⟩
  have returned : providerResponseIsAccepted 200
      (Unicode.encode tabbedAnswer) = .ok true := by decide
  obtain ⟨-, -, text, same, spelled⟩ := (accepts true).mp returned
  cases Unicode.encode_injective same
  exact (VerdictText.strict_iff.mp spelled).2.1 (by decide)

end RymgaLoader.Gateway
