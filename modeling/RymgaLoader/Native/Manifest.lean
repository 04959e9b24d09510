import RymgaLoader.Lib.ExactReader
import RymgaLoader.Native.Text
import RymgaLoader.Protocol.Layout
import Mathlib.Tactic.Linarith

/-!
# Manifest parser of the native core

`parse_manifest` of `rymga_loader.c` with the bounded reader it uses.  The
parser is exact: it returns a manifest precisely on the layout of a valid
field list, and the signed prefix it reports is the unsigned layout.
-/

namespace RymgaLoader.Native

open Protocol ExactReader

def manifestMax : Nat := 4096

/-- `reader`: the message and the offset of the next unread byte. -/
structure Reader where
  data : Bytes
  offset : Nat

/-- `manifest`: the fields `parse_manifest` keeps. -/
@[ext] structure Manifest where
  keyId : Bytes
  product : Bytes
  channel : Bytes
  artifactId : Bytes
  filename : Bytes
  nonce : Bytes
  hash : Bytes
  signature : Bytes
  issuedAt : Int64
  expiresAt : Int64
  artifactSize : Int64
  signedLength : Nat
  deriving DecidableEq

abbrev Parse := StateT Reader Option

def require (condition : Prop) [Decidable condition] : Parse Unit :=
  if condition then pure () else fun _ => none

def rTake (n : Nat) : Parse Bytes := fun r =>
  if n > r.data.length - r.offset then none
  else some ((r.data.drop r.offset).take n, { r with offset := r.offset + n })

def rU16 : Parse Nat := do
  let v ← rTake 2
  return (v.getD 0 0).toNat <<< 8 ||| (v.getD 1 0).toNat

def rI64 : Parse Int64 := do
  let v ← rTake 8
  return (v.foldl (fun (x : UInt64) b => (x <<< 8) ||| b.toUInt64) 0).toInt64

def rString (cap : Nat) : Parse Bytes := do
  let n ← rU16
  require (n ≠ 0 ∧ n < cap)
  let r ← get
  require (n ≤ r.data.length - r.offset)
  let out ← rTake n
  require (0 ∉ out)
  require (textField (some out) (cap - 1))
  return out

/-- Everything `parse_manifest` reads before it notes the signed length. -/
def parseSigned : Parse Manifest := do
  let magic ← rTake 4
  require (magic = ascii ['R', 'L', 'S', 'M'])
  let version ← rTake 2
  require (version = [0, 1])
  let keyId ← rString 65
  require (identifier (some keyId) 64)
  let nonce ← rTake 32
  let _sessionId ← rTake 32
  let issuedAt ← rI64
  let expiresAt ← rI64
  require (¬issuedAt < 0 ∧ ¬expiresAt ≤ issuedAt)
  let product ← rString 129
  require (identifier (some product) 128)
  let channel ← rString 65
  require (identifier (some channel) 64)
  let artifactId ← rString 129
  require (identifier (some artifactId) 128)
  let filename ← rString 256
  require (filenameOk (some filename))
  let artifactSize ← rI64
  require (¬artifactSize < 0 ∧ ¬artifactSize > 2147483648)
  let hash ← rTake 32
  return { keyId, product, channel, artifactId, filename, nonce, hash,
           signature := [], issuedAt, expiresAt, artifactSize,
           signedLength := 0 }

def parseManifest (bytes : Bytes) : Option Manifest := do
  if bytes.length > manifestMax then none
  else
    let (m, r) ← parseSigned.run { data := bytes, offset := 0 }
    let signedLength := r.offset
    let (signature, r) ← (rTake 64).run r
    if r.offset = r.data.length then
      some { m with signature, signedLength }
    else none

instance : Input Reader where
  Consumes before bytes after :=
    after.data = before.data ∧
      after.offset = before.offset + bytes.length ∧
      before.data.drop before.offset = bytes ++ after.data.drop after.offset
  consumes_nil_iff := by
    intro before after
    constructor
    · rintro ⟨sameData, sameOffset, -⟩
      cases before
      cases after
      simp_all
    · rintro rfl
      simp
  consumes_append_iff := by
    intro before after front back
    constructor
    · rintro ⟨sameData, offset, rest⟩
      refine ⟨⟨before.data, before.offset + front.length⟩,
        ⟨rfl, rfl, ?_⟩, sameData, ?_, ?_⟩
      · rw [← List.drop_drop, rest]
        simp
      · simp [offset, Nat.add_assoc]
      · rw [← List.drop_drop, rest]
        simp
    · rintro ⟨between, ⟨sameFront, offsetFront, restFront⟩,
        sameBack, offsetBack, restBack⟩
      refine ⟨sameBack.trans sameFront, ?_, ?_⟩
      · simp [offsetBack, offsetFront, Nat.add_assoc]
      · rw [restFront, restBack, List.append_assoc]

theorem require_exact (condition : Prop) [Decidable condition] :
    Exact (require condition) (fun _ bytes => condition ∧ bytes = []) := by
  intro before value after
  unfold require
  by_cases holds : condition
  · rw [if_pos holds]
    exact (Exact.pure (m := Option) () before value after).trans (by
      simp [holds])
  · rw [if_neg holds]
    constructor
    · intro impossible
      cases impossible
    · rintro ⟨bytes, ⟨impossible, -⟩, -⟩
      exact (holds impossible).elim

theorem rTake_exact (n : Nat) :
    Exact (rTake n) (fun value bytes => bytes = value ∧ value.length = n) := by
  intro before value after
  change rTake n before = some (value, after) ↔ _
  unfold rTake
  constructor
  · intro taken
    split at taken
    · cases taken
    · rename_i enough
      cases taken
      refine ⟨_, ⟨rfl, ?_⟩, rfl, ?_, ?_⟩
      · rw [List.length_take, List.length_drop]
        omega
      · rw [List.length_take, List.length_drop]
        simp only
        omega
      · rw [← List.drop_drop, List.take_append_drop]
  · rintro ⟨bytes, ⟨rfl, sized⟩, sameData, offset, rest⟩
    have enough : ¬n > before.data.length - before.offset := by
      have lengths := congrArg List.length rest
      rw [List.length_append, List.length_drop] at lengths
      omega
    rw [if_neg enough, rest, ← sized, List.take_left]
    cases after
    simp_all

private theorem rU16_value {v : Bytes} (sized : v.length = 2) :
    (v.getD 0 0).toNat <<< 8 ||| (v.getD 1 0).toNat = BigEndian.decode v := by
  obtain ⟨high, low, rfl⟩ := List.length_eq_two.mp sized
  have small : low.toNat < 2 ^ 8 := low.toNat_lt
  simp only [List.getD_cons_zero, List.getD_cons_succ, BigEndian.decode,
    List.foldl_cons, List.foldl_nil]
  rw [← Nat.shiftLeft_add_eq_or_of_lt small, Nat.shiftLeft_eq]
  omega

theorem rU16_exact :
    Exact rU16 (fun n bytes => n < 65536 ∧ bytes = u16Layout n) := by
  refine (Exact.map (rTake_exact 2) _).congr ?_
  intro n bytes
  constructor
  · rintro ⟨v, ⟨rfl, sized⟩, rfl⟩
    rw [rU16_value sized, u16Layout_decode sized]
    have bound := BigEndian.decode_lt bytes
    rw [sized] at bound
    exact ⟨bound, rfl⟩
  · rintro ⟨bound, rfl⟩
    refine ⟨u16Layout n, ⟨rfl, length_u16Layout n⟩, ?_⟩
    rw [rU16_value (length_u16Layout n), decode_u16Layout bound]

private theorem shift_or_byte {x : UInt64} {b : UInt8}
    (room : x.toNat < 2 ^ 56) :
    ((x <<< 8) ||| b.toUInt64).toNat = x.toNat * 256 + b.toNat := by
  have small : b.toNat < 2 ^ 8 := b.toNat_lt
  have shifted : (x <<< 8).toNat = x.toNat <<< 8 := by
    rw [UInt64.toNat_shiftLeft]
    simp only [UInt64.reduceToNat, Nat.reduceMod, Nat.shiftLeft_eq]
    omega
  rw [UInt64.toNat_or, shifted, UInt8.toNat_toUInt64,
    ← Nat.shiftLeft_add_eq_or_of_lt small, Nat.shiftLeft_eq]

private theorem rI64_value {v : Bytes} (x : UInt64)
    (room : x.toNat * 256 ^ v.length + 256 ^ v.length ≤ 2 ^ 64) :
    (v.foldl (fun (x : UInt64) b => (x <<< 8) ||| b.toUInt64) x).toNat =
      x.toNat * 256 ^ v.length + BigEndian.decode v := by
  induction v generalizing x with
  | nil => simp [BigEndian.decode]
  | cons b v ih =>
      rw [List.length_cons, pow_succ] at room
      have power : 1 ≤ 256 ^ v.length := Nat.one_le_pow _ _ (by decide)
      have roomNow : x.toNat < 2 ^ 56 := by
        nlinarith
      have step := shift_or_byte (b := b) roomNow
      rw [List.foldl_cons, ih, step, BigEndian.decode_cons, List.length_cons,
        pow_succ]
      · ring
      · rw [step]
        have byteBound := b.toNat_lt
        nlinarith

theorem rI64_exact : Exact rI64 (fun x bytes => bytes = i64Layout x) := by
  have value (v : Bytes) (sized : v.length = 8) :
      (v.foldl (fun (x : UInt64) b => (x <<< 8) ||| b.toUInt64) 0).toInt64 =
        i64OfBytes v := by
    have number := rI64_value (v := v) 0 (by rw [sized]; decide)
    rw [i64OfBytes]
    congr 1
    apply UInt64.toNat_inj.mp
    have bound : BigEndian.decode v < 2 ^ 64 := by
      have below := BigEndian.decode_lt v
      rw [sized] at below
      exact below
    rw [number, UInt64.toNat_ofNat', Nat.mod_eq_of_lt bound]
    simp
  refine (Exact.map (rTake_exact 8) _).congr ?_
  intro x bytes
  constructor
  · rintro ⟨v, ⟨rfl, sized⟩, rfl⟩
    rw [value _ sized, i64Layout_i64OfBytes sized]
  · rintro rfl
    refine ⟨i64Layout x, ⟨rfl, length_i64Layout x⟩, ?_⟩
    rw [value _ (length_i64Layout x), i64OfBytes_i64Layout]

private theorem checkedTake_eq (n : Nat) (next : Bytes → Parse α) :
    (do
      let r ← get
      require (n ≤ r.data.length - r.offset)
      let out ← rTake n
      next out) = rTake n >>= next := by
  apply StateT.ext
  intro r
  by_cases enough : n ≤ r.data.length - r.offset
  · simp [require, enough]
  · have short : n > r.data.length - r.offset := by omega
    have untaken : (rTake n).run r = none := if_pos short
    have unread : StateT.run (fun _ => none : Parse Unit) r = none := rfl
    simp [require, enough, untaken, unread]

theorem IsText.noNul {limit : Nat} {bytes : Bytes}
    (text : IsText limit bytes) : 0 ∉ bytes := by
  obtain ⟨-, -, scalars, rfl, plain⟩ := text
  intro member
  obtain ⟨scalar, scalarMember, code⟩ :=
    (Unicode.utf8_asciiTransparent.mem_flatMap_iff (by decide)).mp member
  apply plain scalar scalarMember
  rw [← code]
  decide

theorem rString_exact {cap : Nat} (fits : cap ≤ 65536) :
    Exact (rString cap)
      (fun s bytes => IsText (cap - 1) s ∧ bytes = stringLayout s) := by
  unfold rString
  simp only [checkedTake_eq]
  refine (Exact.bind rU16_exact fun n =>
    Exact.bind (require_exact _) fun _ =>
    Exact.bind (rTake_exact n) fun out =>
    Exact.bind (require_exact _) fun _ =>
    Exact.bind (require_exact _) fun _ => Exact.pure out).congr ?_
  intro s bytes
  constructor
  · rintro ⟨n, _, _, ⟨_, rfl⟩, ⟨_, _, _, ⟨⟨positive, below⟩, rfl⟩,
      ⟨out, _, _, ⟨rfl, sized⟩, ⟨_, _, _, ⟨_, rfl⟩, ⟨_, _, _, ⟨accepted, rfl⟩,
      ⟨rfl, rfl⟩, rfl⟩, rfl⟩, rfl⟩, rfl⟩, rfl⟩
    refine ⟨textField_some_iff.mp accepted, ?_⟩
    simp [stringLayout, sized]
  · rintro ⟨isText, rfl⟩
    have positive := List.length_pos_iff.mpr isText.1
    have short := isText.2.1
    exact ⟨s.length, _, _, ⟨by omega, rfl⟩, ⟨(), [], _,
      ⟨⟨by omega, by omega⟩, rfl⟩, ⟨s, s, [], ⟨rfl, rfl⟩, ⟨(), [], [],
        ⟨IsText.noNul isText, rfl⟩, ⟨(), [], [],
        ⟨textField_some_iff.mpr isText, rfl⟩, ⟨rfl, rfl⟩, rfl⟩, rfl⟩,
        (by simp)⟩, rfl⟩, rfl⟩

/-- A field read and then checked is one field of a narrower grammar. -/
private theorem Exact.checked {reader : Parse α} {next : α → Parse β}
    {grammar : α → Bytes → Prop} {nextGrammar : α → β → Bytes → Prop}
    {check : α → Prop} [DecidablePred check] (exact : Exact reader grammar)
    (nextExact : ∀ value, Exact (next value) (nextGrammar value)) :
    Exact (reader >>= fun value => require (check value) >>= fun _ => next value)
      (Sequenced (fun value bytes => check value ∧ grammar value bytes)
        nextGrammar) := by
  refine (Exact.bind exact fun value =>
    Exact.bind (require_exact _) fun _ => nextExact value).congr ?_
  intro result bytes
  constructor
  · rintro ⟨value, front, _, placed, ⟨_, _, _, ⟨holds, rfl⟩, rest, rfl⟩, rfl⟩
    exact ⟨value, front, _, ⟨holds, placed⟩, rest, rfl⟩
  · rintro ⟨value, front, back, ⟨holds, placed⟩, rest, rfl⟩
    exact ⟨value, front, back, placed, ⟨(), [], back, ⟨holds, rfl⟩, rest, rfl⟩,
      rfl⟩

/-- The manifest `parse_manifest` fills from a field list. -/
def Manifest.ofFields (fields : ManifestFields) : Manifest where
  keyId := fields.keyId
  product := fields.productId
  channel := fields.channel
  artifactId := fields.artifactId
  filename := fields.originalFilename
  nonce := fields.requestNonce
  hash := fields.artifactSha256
  signature := fields.signature
  issuedAt := fields.issuedAt
  expiresAt := fields.expiresAt
  artifactSize := fields.artifactSize
  signedLength := fields.unsignedLayout.length

theorem identifierField_exact {max : Nat} (fits : max + 1 ≤ 65536)
    {next : Bytes → Parse β} {nextGrammar : Bytes → β → Bytes → Prop}
    (nextExact : ∀ value, Exact (next value) (nextGrammar value)) :
    Exact (rString (max + 1) >>= fun s =>
        require (identifier (some s) max = true) >>= fun _ => next s)
      (Sequenced (fun s bytes => IsIdentifier max s ∧ bytes = stringLayout s)
        nextGrammar) := by
  refine (Exact.checked (rString_exact fits) nextExact).congr ?_
  intro result bytes
  have same (s front : Bytes) :
      (identifier (some s) max = true ∧
          IsText (max + 1 - 1) s ∧ front = stringLayout s) ↔
        IsIdentifier max s ∧ front = stringLayout s := by
    rw [identifier_some_iff]
    constructor
    · rintro ⟨isIdentifier, -, rfl⟩
      exact ⟨isIdentifier, rfl⟩
    · rintro ⟨isIdentifier, rfl⟩
      exact ⟨isIdentifier, isIdentifier.isText, rfl⟩
  simp only [Sequenced, same]

theorem filenameField_exact {next : Bytes → Parse β}
    {nextGrammar : Bytes → β → Bytes → Prop}
    (nextExact : ∀ value, Exact (next value) (nextGrammar value)) :
    Exact (rString 256 >>= fun s =>
        require (filenameOk (some s) = true) >>= fun _ => next s)
      (Sequenced (fun s bytes => IsFilename s ∧ bytes = stringLayout s)
        nextGrammar) := by
  refine (Exact.checked (rString_exact (by decide)) nextExact).congr ?_
  intro result bytes
  have same (s front : Bytes) :
      (filenameOk (some s) = true ∧
          IsText (256 - 1) s ∧ front = stringLayout s) ↔
        IsFilename s ∧ front = stringLayout s := by
    constructor
    · rintro ⟨accepted, isText, rfl⟩
      exact ⟨⟨isText, (filenameOk_iff isText.length_le).mp accepted⟩, rfl⟩
    · rintro ⟨⟨isText, plainJar⟩, rfl⟩
      exact ⟨(filenameOk_iff isText.length_le).mpr plainJar, isText, rfl⟩
  simp only [Sequenced, same]

private theorem artifactSize_iff {size : Int64} :
    ¬size < 0 ∧ ¬size > 2147483648 ↔
      0 ≤ size ∧ size.toInt ≤ maxArtifactBytes := by
  have limit : (2147483648 : Int64).toInt = 2147483648 := rfl
  rw [gt_iff_lt, Int64.not_lt, Int64.not_lt, Int64.le_iff_toInt_le,
    Int64.le_iff_toInt_le, limit]
  rfl

/-- The constraints `parse_manifest` has checked when it notes the signed
length. -/
private def SignedGrammar (m : Manifest) (bytes : Bytes) : Prop :=
  ∃ fields : ManifestFields, fields.signature = [] ∧
    (∀ signature, signature.length = ed25519SignatureBytes →
      { fields with signature }.Valid) ∧
    bytes = fields.unsignedLayout ∧
    m = { Manifest.ofFields fields with signedLength := 0 }

private theorem parseSigned_exact : Exact parseSigned SignedGrammar := by
  refine (Exact.checked (rTake_exact 4) fun magic =>
    Exact.checked (rTake_exact 2) fun version =>
    identifierField_exact (by decide) fun keyId =>
    Exact.bind (rTake_exact 32) fun nonce =>
    Exact.bind (rTake_exact 32) fun sessionId =>
    Exact.bind rI64_exact fun issuedAt =>
    Exact.checked rI64_exact fun expiresAt =>
    identifierField_exact (by decide) fun product =>
    identifierField_exact (by decide) fun channel =>
    identifierField_exact (by decide) fun artifactId =>
    filenameField_exact fun filename =>
    Exact.checked rI64_exact fun artifactSize =>
    Exact.map (rTake_exact 32) _).congr ?_
  intro m bytes
  constructor
  · rintro ⟨magic, _, _, ⟨rfl, rfl, -⟩, rest, rfl⟩
    obtain ⟨version, _, _, ⟨rfl, rfl, -⟩, rest, rfl⟩ := rest
    obtain ⟨keyId, _, _, ⟨keyIdOk, rfl⟩, rest, rfl⟩ := rest
    obtain ⟨_, nonce, _, ⟨rfl, nonceSized⟩, rest, rfl⟩ := rest
    obtain ⟨_, sessionId, _, ⟨rfl, sessionSized⟩, rest, rfl⟩ := rest
    obtain ⟨issuedAt, _, _, rfl, rest, rfl⟩ := rest
    obtain ⟨expiresAt, _, _, ⟨⟨issuedOk, expiresOk⟩, rfl⟩, rest, rfl⟩ := rest
    obtain ⟨product, _, _, ⟨productOk, rfl⟩, rest, rfl⟩ := rest
    obtain ⟨channel, _, _, ⟨channelOk, rfl⟩, rest, rfl⟩ := rest
    obtain ⟨artifactId, _, _, ⟨artifactOk, rfl⟩, rest, rfl⟩ := rest
    obtain ⟨filename, _, _, ⟨filenameOk, rfl⟩, rest, rfl⟩ := rest
    obtain ⟨size, _, hash, ⟨⟨sizeLow, sizeHigh⟩, rfl⟩, rest, rfl⟩ := rest
    obtain ⟨_, ⟨rfl, hashSized⟩, rfl⟩ := rest
    refine ⟨⟨keyId, nonce, sessionId, issuedAt, expiresAt, product, channel,
      artifactId, filename, size, hash, []⟩, rfl, ?_, ?_, rfl⟩
    · intro signature signatureSized
      exact ⟨keyIdOk, nonceSized, sessionSized, Int64.not_lt.mp issuedOk,
        Int64.not_le.mp expiresOk, productOk, channelOk, artifactOk,
        filenameOk, artifactSize_iff.mp ⟨sizeLow, sizeHigh⟩, hashSized,
        signatureSized⟩
    · simp only [ManifestFields.unsignedLayout, List.append_assoc]
      rfl
  · rintro ⟨fields, noSignature, valid, rfl, rfl⟩
    obtain ⟨keyIdOk, nonceSized, sessionSized, issuedOk, expiresOk, productOk,
      channelOk, artifactOk, filenameOk, sizeOk, hashSized, -⟩ :=
      valid (List.replicate 64 0) rfl
    simp only [ManifestFields.unsignedLayout, List.append_assoc]
    refine ⟨manifestMagic, _, _, ⟨rfl, rfl, rfl⟩, ?_, rfl⟩
    refine ⟨[0, 1], _, _, ⟨rfl, rfl, rfl⟩, ?_, rfl⟩
    refine ⟨fields.keyId, _, _, ⟨keyIdOk, rfl⟩, ?_, rfl⟩
    refine ⟨fields.requestNonce, _, _, ⟨rfl, nonceSized⟩, ?_, rfl⟩
    refine ⟨fields.sessionId, _, _, ⟨rfl, sessionSized⟩, ?_, rfl⟩
    refine ⟨fields.issuedAt, _, _, rfl, ?_, rfl⟩
    refine ⟨fields.expiresAt, _, _,
      ⟨⟨Int64.not_lt.mpr issuedOk, Int64.not_le.mpr expiresOk⟩, rfl⟩, ?_, rfl⟩
    refine ⟨fields.productId, _, _, ⟨productOk, rfl⟩, ?_, rfl⟩
    refine ⟨fields.channel, _, _, ⟨channelOk, rfl⟩, ?_, rfl⟩
    refine ⟨fields.artifactId, _, _, ⟨artifactOk, rfl⟩, ?_, rfl⟩
    refine ⟨fields.originalFilename, _, _, ⟨filenameOk, rfl⟩, ?_, rfl⟩
    refine ⟨fields.artifactSize, _, _, ⟨artifactSize_iff.mpr sizeOk, rfl⟩, ?_,
      rfl⟩
    refine ⟨fields.artifactSha256, ⟨rfl, hashSized⟩, ?_⟩
    simp [Manifest.ofFields, noSignature]

/-- `parse_manifest` succeeds exactly on the layouts of valid field lists,
and the fields it reports are those of the layout. -/
theorem parseManifest_eq_some_iff {bytes : Bytes} {m : Manifest} :
    parseManifest bytes = some m ↔
      ∃ fields : ManifestFields, fields.Valid ∧ bytes = fields.layout ∧
        m = Manifest.ofFields fields := by
  constructor
  · intro parsed
    unfold parseManifest at parsed
    split at parsed
    · cases parsed
    obtain ⟨⟨body, middle⟩, signed, parsed⟩ :=
      Option.bind_eq_some_iff.mp parsed
    obtain ⟨⟨_, final⟩, taken, parsed⟩ :=
      Option.bind_eq_some_iff.mp parsed
    obtain ⟨_, ⟨fields, noSignature, valid, rfl, rfl⟩,
      sameData, offset, rest⟩ := (parseSigned_exact _ _ _).mp signed
    obtain ⟨signature, ⟨rfl, signatureSized⟩, sameFinal, finalOffset, tail⟩ :=
      (rTake_exact 64 _ _ _).mp taken
    dsimp only at parsed
    split at parsed
    · rename_i atEnd
      cases parsed
      have nothingLeft : final.data.drop final.offset = [] := by
        rw [atEnd, List.drop_length]
      refine ⟨{ fields with signature }, valid signature signatureSized, ?_, ?_⟩
      · simp only [List.drop_zero] at rest
        rw [rest, tail, nothingLeft, List.append_nil]
        rfl
      · have signedLength : middle.offset = fields.unsignedLayout.length := by
          simpa using offset
        rw [signedLength]
        rfl
    · cases parsed
  · rintro ⟨fields, valid, rfl, rfl⟩
    have bounded : ¬fields.layout.length > manifestMax := by
      have := valid.length_layout_le
      simp only [manifestMax]
      omega
    have signed : parseSigned.run ⟨fields.layout, 0⟩ =
        some ({ Manifest.ofFields { fields with signature := [] } with
          signedLength := 0 },
          ⟨fields.layout, fields.unsignedLayout.length⟩) := by
      apply (parseSigned_exact _ _ _).mpr
      refine ⟨fields.unsignedLayout, ⟨{ fields with signature := [] }, rfl, ?_,
        rfl, rfl⟩, rfl, by simp, by simp [ManifestFields.layout]⟩
      intro signature signatureSized
      exact ⟨valid.keyId, valid.requestNonce, valid.sessionId, valid.issuedAt,
        valid.expiresAt, valid.productId, valid.channel, valid.artifactId,
        valid.originalFilename, valid.artifactSize, valid.artifactSha256,
        signatureSized⟩
    have taken : (rTake 64).run
        ⟨fields.layout, fields.unsignedLayout.length⟩ =
        some (fields.signature, ⟨fields.layout, fields.layout.length⟩) := by
      apply (rTake_exact 64 _ _ _).mpr
      refine ⟨fields.signature, ⟨rfl, valid.signature⟩, rfl, ?_, ?_⟩
      · simp [ManifestFields.layout]
      · simp [ManifestFields.layout]
    unfold parseManifest
    rw [if_neg bounded, signed]
    simp only [Option.bind_eq_bind, Option.bind_some, taken, if_true]
    simp [Manifest.ofFields, ManifestFields.unsignedLayout]

end RymgaLoader.Native
