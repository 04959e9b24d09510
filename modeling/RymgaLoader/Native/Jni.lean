import Mathlib.Data.List.TakeWhile
import RymgaLoader.Lib.AsciiTransparent
import RymgaLoader.Protocol.WireValidators
import RymgaLoader.Native.Acquire

/-!
# Strings at the JNI boundary

The conversions of `rymga_loader_jni.c` and `NativeLoader.acquire0`.  A Java
string has a length and may hold U+0000; the core takes C strings, which end
there.  Calls of the JNI and of the allocator are given by whether they
succeed.
-/

namespace RymgaLoader.Native

open Protocol Wire

/-- The bytes `chars_utf8` appends for a code point. -/
def putCodePoint (codepoint : Nat) : Bytes :=
  if codepoint ≤ 0x7f then [UInt8.ofNat codepoint]
  else if codepoint ≤ 0x7ff then
    [UInt8.ofNat (0xc0 ||| codepoint >>> 6),
      UInt8.ofNat (0x80 ||| (codepoint &&& 0x3f))]
  else if codepoint ≤ 0xffff then
    [UInt8.ofNat (0xe0 ||| codepoint >>> 12),
      UInt8.ofNat (0x80 ||| (codepoint >>> 6 &&& 0x3f)),
      UInt8.ofNat (0x80 ||| (codepoint &&& 0x3f))]
  else
    [UInt8.ofNat (0xf0 ||| codepoint >>> 18),
      UInt8.ofNat (0x80 ||| (codepoint >>> 12 &&& 0x3f)),
      UInt8.ofNat (0x80 ||| (codepoint >>> 6 &&& 0x3f)),
      UInt8.ofNat (0x80 ||| (codepoint &&& 0x3f))]

/-- `chars_utf8`, when its buffer can be allocated. -/
def charsUtf8 : JavaString → Option Bytes
  | [] => some []
  | [unit] =>
      if 0xd800 ≤ unit.toNat ∧ unit.toNat ≤ 0xdfff then none
      else some (putCodePoint unit.toNat)
  | unit :: next :: units =>
      if 0xd800 ≤ unit.toNat ∧ unit.toNat ≤ 0xdbff ∧
          0xdc00 ≤ next.toNat ∧ next.toNat ≤ 0xdfff then
        (charsUtf8 units).map (putCodePoint (0x10000 +
          (unit.toNat - 0xd800) <<< 10 + (next.toNat - 0xdc00)) ++ ·)
      else if 0xd800 ≤ unit.toNat ∧ unit.toNat ≤ 0xdfff then none
      else (charsUtf8 (next :: units)).map (putCodePoint unit.toNat ++ ·)

/-- `string_utf8`, read as the C string its buffer holds. -/
def stringUtf8 (value : Option JavaString) : Option Bytes :=
  value.bind fun chars => (charsUtf8 chars).map cString

def licenseUtf8 (chars : JavaString) : Option Bytes :=
  if chars.length = 0 ∨ chars.length > 4096 then none
  else
    match charsUtf8 chars with
    | none => none
    | some output =>
        if output.length = 0 ∨ output.length > 4096 then none
        else some output

/-- The arguments of `acquire0`; an absent one is `null`. -/
structure Arguments where
  endpoint : Option JavaString
  product : Option JavaString
  channel : Option JavaString
  version : Option JavaString
  installation : Option JavaString
  runtime : Option JavaString
  caBundle : Option JavaString
  keyIds : Option (List (Option JavaString))
  publicKeys : Option (List (Option Bytes))
  license : Option JavaString

/-- The loop over the trusted keys. -/
def convertKeys :
    List (Option JavaString × Option Bytes) → Option (List PublicKey)
  | [] => some []
  | (keyId, publicKey) :: rest => do
      let publicKey ← publicKey
      if publicKey.length ≠ 32 then none
      else
        let keyId ← stringUtf8 keyId
        let keys ← convertKeys rest
        return ⟨some keyId, publicKey⟩ :: keys

def convertTrustedKeys (keyIds : Option (List (Option JavaString)))
    (publicKeys : Option (List (Option Bytes))) : Option (List PublicKey) := do
  let keyIds ← keyIds
  let publicKeys ← publicKeys
  if keyIds.length < 1 ∨ keyIds.length > 16 ∨
      publicKeys.length ≠ keyIds.length then none
  else convertKeys (keyIds.zip publicKeys)

/-- A path that may be left out. -/
def optionalUtf8 : Option JavaString → Option (Option Bytes)
  | none => some none
  | some path => (stringUtf8 (some path)).map some

/-- The request and the license that `acquire0` hands to the core, unless it
refuses its arguments.  A call that fails, of the JNI or of the allocator,
makes it refuse them. -/
def convertArguments (available : Bool) (a : Arguments) :
    Option (Request × Bytes) := do
  if !available then none
  else
    let endpoint ← stringUtf8 a.endpoint
    let product ← stringUtf8 a.product
    let channel ← stringUtf8 a.channel
    let version ← stringUtf8 a.version
    let installation ← stringUtf8 a.installation
    let runtime ← stringUtf8 a.runtime
    let caBundle ← optionalUtf8 a.caBundle
    let keys ← convertTrustedKeys a.keyIds a.publicKeys
    let license ← a.license.bind licenseUtf8
    return (⟨endpoint, product, channel, version, installation, runtime,
      caBundle, keys, 30⟩, license)

def acquire0 (sodium : Sodium) (available : Bool) (a : Arguments)
    (inputs : Inputs) : Os (Result × Option Artifact) :=
  match convertArguments available a with
  | none => return (.invalidArgument, none)
  | some (request, license) =>
      acquire sodium (some request) (some license) inputs

theorem or_eq_add {high low width : Nat} (small : low < 2 ^ width) :
    high * 2 ^ width ||| low = high * 2 ^ width + low := by
  rw [← Nat.shiftLeft_eq, ← Nat.shiftLeft_add_eq_or_of_lt small]

private theorem tail_eq (codepoint : Nat) :
    0x80 ||| (codepoint &&& 0x3f) = 0x80 + codepoint % 64 := by
  have masked : codepoint &&& 0x3f = codepoint % 64 :=
    Nat.and_two_pow_sub_one_eq_mod codepoint 6
  rw [masked]
  exact @or_eq_add 2 (codepoint % 64) 6 (Nat.mod_lt _ (by decide))

theorem putCodePoint_toNat (scalar : Char) :
    putCodePoint scalar.toNat = String.utf8EncodeChar scalar := by
  have bounds := Unicode.scalar_bounds scalar
  have number : scalar.val.toNat = scalar.toNat := rfl
  simp only [putCodePoint, String.utf8EncodeChar, tail_eq,
    Nat.shiftRight_eq_div_pow, number]
  split
  · rfl
  split
  · have lead : 0xc0 ||| scalar.toNat / 2 ^ 6 =
        scalar.toNat / 64 % 32 + 0xc0 := by
      have joined := @or_eq_add 3 (scalar.toNat / 2 ^ 6) 6 (by omega)
      rw [show 0xc0 = 3 * 2 ^ 6 by rfl, joined]
      omega
    rw [lead, Nat.add_comm 0x80]
  split
  · have lead : 0xe0 ||| scalar.toNat / 2 ^ 12 =
        scalar.toNat / 4096 % 16 + 0xe0 := by
      have joined := @or_eq_add 14 (scalar.toNat / 2 ^ 12) 4 (by omega)
      rw [show 0xe0 = 14 * 2 ^ 4 by rfl, joined]
      omega
    rw [lead, Nat.add_comm 0x80, Nat.add_comm 0x80]
  · have lead : 0xf0 ||| scalar.toNat / 2 ^ 18 =
        scalar.toNat / 262144 % 8 + 0xf0 := by
      have joined := @or_eq_add 30 (scalar.toNat / 2 ^ 18) 3 (by omega)
      rw [show 0xf0 = 30 * 2 ^ 3 by rfl, joined]
      omega
    rw [lead, Nat.add_comm 0x80, Nat.add_comm 0x80, Nat.add_comm 0x80]

/-- The conversion is strict UTF-16 decoding followed by UTF-8 encoding. -/
theorem charsUtf8_eq (value : JavaString) :
    charsUtf8 value = (Unicode.utf16Decode value).map Unicode.encode := by
  induction value using charsUtf8.induct with
  | case1 => rfl
  | case2 unit surrogate =>
      rw [charsUtf8, if_pos surrogate, Unicode.utf16Decode,
        Unicode.scalar?_none surrogate]
      rfl
  | case3 unit plain =>
      have small := unit.toNat_lt
      obtain ⟨scalar, found, code⟩ := @Unicode.scalar?_some 0 unit.toNat (by omega)
        (by omega) plain
      rw [charsUtf8, if_neg plain, Unicode.utf16Decode, found, ← code,
        putCodePoint_toNat]
      simp [Unicode.encode]
  | case4 unit next units pair ih =>
      obtain ⟨scalar, found, code⟩ := @Unicode.scalar?_some 0x10000
        (Unicode.pairCode unit next) (by unfold Unicode.pairCode; omega)
        (by unfold Unicode.pairCode; omega)
        (by unfold Unicode.pairCode; omega)
      have number : 0x10000 + (unit.toNat - 0xd800) <<< 10 +
          (next.toNat - 0xdc00) = scalar.toNat := by
        unfold Unicode.pairCode at code
        omega
      have high : Unicode.HighSurrogate unit := ⟨pair.1, by omega⟩
      have low : Unicode.LowSurrogate next := ⟨pair.2.2.1, by omega⟩
      rw [charsUtf8, if_pos pair, number, putCodePoint_toNat, ih,
        Unicode.utf16Decode, if_pos high, if_pos low, found]
      cases Unicode.utf16Decode units with
      | none => rfl
      | some scalars => rfl
  | case5 unit next units unpaired surrogate =>
      rw [charsUtf8, if_neg unpaired, if_pos surrogate, Unicode.utf16Decode,
        Unicode.scalar?_none surrogate]
      split
      · rename_i high
        rw [if_neg]
        · rfl
        · rintro ⟨least, most⟩
          obtain ⟨least', most'⟩ := high
          exact unpaired ⟨least', by omega, least, by omega⟩
      · rfl
  | case6 unit next units unpaired plain ih =>
      have small := unit.toNat_lt
      obtain ⟨scalar, found, code⟩ := @Unicode.scalar?_some 0 unit.toNat (by omega)
        (by omega) plain
      have low : ¬Unicode.HighSurrogate unit := by
        rintro ⟨least, most⟩
        exact plain ⟨least, by omega⟩
      rw [charsUtf8, if_neg unpaired, if_neg plain, ih, Unicode.utf16Decode,
        if_neg low, found, ← code, putCodePoint_toNat]
      cases Unicode.utf16Decode (next :: units) with
      | none => rfl
      | some scalars => rfl

/-- The bytes in front of the first U+0000 of a string. -/
def Cut (value : JavaString) (bytes : Bytes) : Prop :=
  ∃ scalars : List Char, value = Unicode.utf16Encode scalars ∧
    bytes = Unicode.encode
      (scalars.takeWhile fun scalar => scalar.toNat ≠ 0)

private theorem cString_encode (scalars : List Char) :
    cString (Unicode.encode scalars) = Unicode.encode
      (scalars.takeWhile fun scalar => scalar.toNat ≠ 0) := by
  have transparent := Unicode.utf8_asciiTransparent.takeWhile_flatMap
    scalars (show 0 < 0x80 by decide)
  have same : (fun byte : UInt8 => decide (byte ≠ 0)) =
      fun byte => decide (byte.toNat ≠ 0) := by
    funext byte
    exact decide_eq_decide.mpr (not_congr UInt8.toNat_inj.symm)
  rw [cString, same]
  exact transparent

theorem stringUtf8_eq_some_iff {value : Option JavaString} {bytes : Bytes} :
    stringUtf8 value = some bytes ↔
      ∃ text, value = some text ∧ Cut text bytes := by
  rw [stringUtf8, Option.bind_eq_some_iff]
  refine exists_congr fun text => and_congr_right fun _ => ?_
  rw [charsUtf8_eq, Option.map_map]
  constructor
  · intro converted
    obtain ⟨scalars, decoded, rfl⟩ := Option.map_eq_some_iff.mp converted
    exact ⟨scalars, Unicode.utf16Decode_eq_some_iff.mp decoded,
      cString_encode scalars⟩
  · rintro ⟨scalars, rfl, rfl⟩
    rw [Unicode.utf16Decode_encode, ← cString_encode]
    rfl

/-- A string arrives unchanged exactly where nothing was cut off. -/
theorem Cut.spells_iff {value : JavaString} {bytes : Bytes}
    (cut : Cut value bytes) : Spells value bytes ↔ (0 : UInt16) ∉ value := by
  obtain ⟨scalars, rfl, rfl⟩ := cut
  have zero : (0 : UInt16) ∈ Unicode.utf16Encode scalars ↔
      ∃ scalar ∈ scalars, 0 = scalar.toNat :=
    Unicode.utf16_asciiTransparent.mem_flatMap_iff (by decide)
  rw [zero]
  constructor
  · rintro ⟨others, same, encoded⟩ ⟨scalar, member, null⟩
    cases utf16Encode_injective same
    have whole := Unicode.encode_injective encoded
    rw [← whole] at member
    have visible := List.mem_takeWhile_imp member
    simp [← null] at visible
  · intro clean
    refine ⟨scalars, rfl, ?_⟩
    rw [List.takeWhile_eq_self_iff.mpr]
    intro scalar member
    simp only [ne_eq, decide_not, Bool.not_eq_true', decide_eq_false_iff_not]
    intro null
    exact clean ⟨scalar, member, null.symm⟩

theorem licenseUtf8_eq_some_iff {chars : JavaString} {bytes : Bytes} :
    licenseUtf8 chars = some bytes ↔
      Spells chars bytes ∧ 1 ≤ chars.length ∧ chars.length ≤ 4096 ∧
        1 ≤ bytes.length ∧ bytes.length ≤ 4096 := by
  unfold licenseUtf8
  rw [charsUtf8_eq]
  constructor
  · intro converted
    split at converted
    · cases converted
    split at converted
    · cases converted
    rename_i counted output encoded
    split at converted
    · cases converted
    cases converted
    obtain ⟨scalars, decoded, rfl⟩ := Option.map_eq_some_iff.mp encoded
    exact ⟨⟨scalars, Unicode.utf16Decode_eq_some_iff.mp decoded, rfl⟩,
      by omega, by omega, by omega, by omega⟩
  · rintro ⟨⟨scalars, rfl, rfl⟩, some, few, present, short⟩
    rw [if_neg (by omega), Unicode.utf16Decode_encode]
    simp only [Option.map_some]
    rw [if_neg (by omega)]

/-- The argument checks of `rymga_loader_acquire`. -/
def argumentsOk (q : Request) (license : Option Bytes) : Os Bool := do
  if !requestTextsOk q then return false
  if !(← ensurePrivateDirectory) then return false
  if !requestLimitsOk q license then return false
  if !(← sys .setup) then return false
  return trustedKeysOk [] (q.trustedKeys.getD [])

/-- The part of `acquire0` that does not use the network: its result is
`invalid argument` or the call goes on with a request. -/
def admit0 (available : Bool) (a : Arguments) :
    Os (Option (Request × Bytes)) :=
  match convertArguments available a with
  | none => return none
  | some (request, license) => do
      if ← argumentsOk request (some license) then
        return some (request, license)
      else return none

theorem acquire_eq (sodium : Sodium) (q : Request) (license : Option Bytes)
    (inputs : Inputs) :
    acquire sodium (some q) license inputs = (do
      if ← argumentsOk q license then
        cleanupStale 86400
        openSession sodium q (q.trustedKeys.getD []) (license.getD []) inputs
      else return (.invalidArgument, none)) := by
  simp only [acquire, argumentsOk]
  cases texts : requestTextsOk q with
  | false => rfl
  | true =>
      simp only [Bool.not_true, Bool.false_eq_true, if_false,
        Program.bind_bind]
      congr 1
      funext ensured
      cases ensured with
      | false => rfl
      | true =>
          cases limits : requestLimitsOk q license with
          | false => rfl
          | true =>
              simp only [Bool.not_true, Bool.false_eq_true, if_false,
                Program.bind_bind]
              congr 1
              funext initialized
              cases initialized with
              | false => rfl
              | true =>
                  cases trustedKeysOk [] (q.trustedKeys.getD []) with
                  | false => rfl
                  | true => rfl

theorem acquire0_eq (sodium : Sodium) (available : Bool) (a : Arguments)
    (inputs : Inputs) :
    acquire0 sodium available a inputs = (do
      match ← admit0 available a with
      | none => return (.invalidArgument, none)
      | some (request, license) =>
          cleanupStale 86400
          openSession sodium request (request.trustedKeys.getD []) license
            inputs) := by
  unfold acquire0 admit0
  cases convertArguments available a with
  | none => rfl
  | some converted =>
      obtain ⟨request, license⟩ := converted
      simp only [acquire_eq, Program.bind_bind]
      congr 1
      funext passed
      cases passed with
      | false => rfl
      | true => rfl

/-- Any call may answer anything. -/
def anyAnswer : Program.Semantics Call Answer Unit := fun _ _ _ _ => True

theorem runs_argumentsOk_iff {q : Request} {license : Option Bytes} :
    Program.Runs anyAnswer (argumentsOk q license) () true () ↔
      requestTextsOk q = true ∧ requestLimitsOk q license = true ∧
        trustedKeysOk [] (q.trustedKeys.getD []) = true := by
  unfold argumentsOk ensurePrivateDirectory
  cases requestTextsOk q with
  | false => simp [Program.Runs]
  | true =>
      cases requestLimitsOk q license with
      | false => simp [Program.Runs]
      | true => simp [Program.Runs, anyAnswer]

/-- Arguments that can be converted, with the request and the license they
are converted to: each string is cut at its first U+0000. -/
structure Converts (a : Arguments) (request : Request) (license : Bytes) :
    Prop where
  endpoint : ∃ text bytes, a.endpoint = some text ∧
    request.endpoint = some bytes ∧ Cut text bytes
  product : ∃ text bytes, a.product = some text ∧
    request.productId = some bytes ∧ Cut text bytes
  channel : ∃ text bytes, a.channel = some text ∧
    request.channel = some bytes ∧ Cut text bytes
  version : ∃ text bytes, a.version = some text ∧
    request.loaderVersion = some bytes ∧ Cut text bytes
  installation : ∃ text bytes, a.installation = some text ∧
    request.installationId = some bytes ∧ Cut text bytes
  runtime : ∃ text, a.runtime = some text ∧ Cut text request.runtimeDirectory
  caBundle : optionalUtf8 a.caBundle = some request.caBundlePath
  keys : ∃ keys, convertTrustedKeys a.keyIds a.publicKeys = some keys ∧
    request.trustedKeys = some keys
  license : ∃ chars, a.license = some chars ∧
    licenseUtf8 chars = some license
  timeout : request.timeoutSeconds = 30

theorem convertArguments_eq_some_iff {available : Bool} {a : Arguments}
    {request : Request} {license : Bytes} :
    convertArguments available a = some (request, license) ↔
      available = true ∧ Converts a request license := by
  cases available with
  | false => simp [convertArguments]
  | true =>
      simp only [convertArguments, Bool.not_true, Bool.false_eq_true, if_false,
        Option.bind_eq_bind, Option.bind_eq_some_iff, stringUtf8_eq_some_iff]
      constructor
      · rintro ⟨_, ⟨_, endpoint, endpointCut⟩, _, ⟨_, product, productCut⟩, _,
          ⟨_, channel, channelCut⟩, _, ⟨_, version, versionCut⟩, _,
          ⟨_, installation, installationCut⟩, _, ⟨_, runtime, runtimeCut⟩, _,
          caBundle, keys, trusted, _, ⟨_, chars, licensed⟩, same⟩
        cases same
        exact ⟨trivial, ⟨_, _, endpoint, rfl, endpointCut⟩,
          ⟨_, _, product, rfl, productCut⟩, ⟨_, _, channel, rfl, channelCut⟩,
          ⟨_, _, version, rfl, versionCut⟩,
          ⟨_, _, installation, rfl, installationCut⟩,
          ⟨_, runtime, runtimeCut⟩, caBundle, ⟨_, trusted, rfl⟩,
          ⟨_, chars, licensed⟩, rfl⟩
      · rintro ⟨-, ⟨_, _, endpoint, endpointSet, endpointCut⟩,
          ⟨_, _, product, productSet, productCut⟩,
          ⟨_, _, channel, channelSet, channelCut⟩,
          ⟨_, _, version, versionSet, versionCut⟩,
          ⟨_, _, installation, installationSet, installationCut⟩,
          ⟨_, runtime, runtimeCut⟩, caBundle, ⟨_, trusted, trustedSet⟩,
          ⟨_, chars, licensed⟩, timeout⟩
        refine ⟨_, ⟨_, endpoint, endpointCut⟩, _, ⟨_, product, productCut⟩, _,
          ⟨_, channel, channelCut⟩, _, ⟨_, version, versionCut⟩, _,
          ⟨_, installation, installationCut⟩, _, ⟨_, runtime, runtimeCut⟩, _,
          caBundle, _, trusted, _, ⟨_, chars, licensed⟩, ?_⟩
        obtain ⟨_, _, _, _, _, _, _, _, _⟩ := request
        cases endpointSet
        cases productSet
        cases channelSet
        cases versionSet
        cases installationSet
        cases trustedSet
        cases timeout
        rfl

theorem runs_admit0_iff {available : Bool} {a : Arguments}
    {request : Request} {license : Bytes} :
    Program.Runs anyAnswer (admit0 available a) ()
        (some (request, license)) () ↔
      available = true ∧ Converts a request license ∧
        requestTextsOk request = true ∧
        requestLimitsOk request (some license) = true ∧
        trustedKeysOk [] (request.trustedKeys.getD []) = true := by
  rw [← and_assoc, ← convertArguments_eq_some_iff]
  unfold admit0
  cases convertArguments available a with
  | none => simp [Program.Runs]
  | some converted =>
      obtain ⟨found, licensed⟩ := converted
      simp only [Option.some.injEq, Prod.mk.injEq]
      constructor
      · intro run
        obtain ⟨passed, between, checks, rest⟩ :=
          Program.Runs.bind_iff.mp run
        cases passed with
        | false => cases rest.1
        | true =>
            cases rest.1
            exact ⟨⟨rfl, rfl⟩, runs_argumentsOk_iff.mp checks⟩
      · rintro ⟨⟨rfl, rfl⟩, checks⟩
        exact Program.Runs.bind_iff.mpr
          ⟨true, (), runs_argumentsOk_iff.mpr checks, rfl, rfl⟩

/-- A string of the arguments and the C string that stands for it. -/
def Kept (value : Option JavaString) (bytes : Option Bytes) : Prop :=
  ∃ text encoded, value = some text ∧ bytes = some encoded ∧
    Spells text encoded

/-- Whenever the call goes on to the network, the core has received exactly
the strings of the caller. -/
def KeepsStrings (available : Bool) (a : Arguments) : Prop :=
  ∀ request license, Program.Runs anyAnswer (admit0 available a) ()
      (some (request, license)) () →
    Kept a.endpoint request.endpoint ∧ Kept a.product request.productId ∧
      Kept a.channel request.channel ∧
      Kept a.version request.loaderVersion ∧
      Kept a.installation request.installationId

/-- A string that holds U+0000. -/
def HoldsNull (value : Option JavaString) : Prop :=
  ∃ text, value = some text ∧ (0 : UInt16) ∈ text

/-- One of the five strings holds U+0000, and cut there the arguments are
acceptable. -/
def CutAdmissible (a : Arguments) : Prop :=
  (HoldsNull a.endpoint ∨ HoldsNull a.product ∨ HoldsNull a.channel ∨
      HoldsNull a.version ∨ HoldsNull a.installation) ∧
    ∃ request license, Converts a request license ∧
      requestTextsOk request = true ∧
      requestLimitsOk request (some license) = true ∧
      trustedKeysOk [] (request.trustedKeys.getD []) = true

private theorem kept_iff {value : Option JavaString} {bytes : Option Bytes}
    (cut : ∃ text encoded, value = some text ∧ bytes = some encoded ∧
      Cut text encoded) :
    Kept value bytes ↔ ¬HoldsNull value := by
  obtain ⟨text, encoded, rfl, rfl, cut⟩ := cut
  constructor
  · rintro ⟨text', encoded', same, same', spelled⟩ ⟨text'', same'', null⟩
    cases same
    cases same'
    cases same''
    exact cut.spells_iff.mp spelled null
  · intro clean
    exact ⟨text, encoded, rfl, rfl, cut.spells_iff.mpr fun null =>
      clean ⟨text, rfl, null⟩⟩

/-- Up to its argument checks `acquire0` does not use the network, and past
them the core has the strings of the caller, unless a string that holds U+0000
is acceptable up to there. -/
theorem acquire0_keepsStrings_iff (available : Bool) (a : Arguments) :
    (∀ sodium inputs, acquire0 sodium available a inputs = (do
      match ← admit0 available a with
      | none => return (.invalidArgument, none)
      | some (request, license) =>
          cleanupStale 86400
          openSession sodium request (request.trustedKeys.getD []) license
            inputs)) ∧
      (KeepsStrings available a ↔
        ¬(available = true ∧ CutAdmissible a)) := by
  refine ⟨fun sodium inputs => acquire0_eq sodium available a inputs, ?_⟩
  constructor
  · rintro keeps ⟨enough, null, request, license, converts, checks⟩
    obtain ⟨endpoint, product, channel, version, installation⟩ :=
      keeps request license (runs_admit0_iff.mpr ⟨enough, converts, checks⟩)
    rcases null with null | null | null | null | null
    · exact (kept_iff converts.endpoint).mp endpoint null
    · exact (kept_iff converts.product).mp product null
    · exact (kept_iff converts.channel).mp channel null
    · exact (kept_iff converts.version).mp version null
    · exact (kept_iff converts.installation).mp installation null
  · intro strict request license run
    obtain ⟨enough, converts, checks⟩ := runs_admit0_iff.mp run
    have clean : ¬(HoldsNull a.endpoint ∨ HoldsNull a.product ∨
        HoldsNull a.channel ∨ HoldsNull a.version ∨
        HoldsNull a.installation) := fun null =>
      strict ⟨enough, null, request, license, converts, checks⟩
    simp only [not_or] at clean
    exact ⟨(kept_iff converts.endpoint).mpr clean.1,
      (kept_iff converts.product).mpr clean.2.1,
      (kept_iff converts.channel).mpr clean.2.2.1,
      (kept_iff converts.version).mpr clean.2.2.2.1,
      (kept_iff converts.installation).mpr clean.2.2.2.2⟩

/-- A request whose product holds U+0000. -/
def splitProduct : Arguments where
  endpoint := some (java "https://host".toList)
  product := some (java ['a', '\x00', 'b'])
  channel := some (java "stable".toList)
  version := some (java "1".toList)
  installation := some (java "i".toList)
  runtime := some (java "/r".toList)
  caBundle := none
  keyIds := some [some (java "k".toList)]
  publicKeys := some [some (List.replicate 32 7)]
  license := some (java "l".toList)

/-- The request for the product in front of U+0000. -/
def splitRequest : Request where
  endpoint := some (ascii "https://host".toList)
  productId := some (ascii ['a'])
  channel := some (ascii "stable".toList)
  loaderVersion := some (ascii "1".toList)
  installationId := some (ascii "i".toList)
  runtimeDirectory := ascii "/r".toList
  caBundlePath := none
  trustedKeys := some [⟨some (ascii "k".toList), List.replicate 32 7⟩]
  timeoutSeconds := 30

theorem acquire0_splitProduct : ¬KeepsStrings true splitProduct := by
  intro keeps
  have converted : convertArguments true splitProduct =
      some (splitRequest, ascii "l".toList) := by decide
  have converts := (convertArguments_eq_some_iff.mp converted).2
  obtain ⟨-, product, -⟩ := keeps splitRequest (ascii "l".toList)
    (runs_admit0_iff.mpr ⟨rfl, converts, by decide, by decide, by decide⟩)
  exact (kept_iff converts.product).mp product
    ⟨java ['a', '\x00', 'b'], rfl, by decide⟩

end RymgaLoader.Native
