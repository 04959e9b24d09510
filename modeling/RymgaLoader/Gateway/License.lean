import RymgaLoader.Gateway.Resource

/-!
# The license validator

`LicenseValidator`: the check of its configuration, the request it sends to
the provider and the reading of the provider's answer.  Parsing the configured
address and exchanging messages belong to the JDK and are given by what they
return.
-/

namespace RymgaLoader.Gateway

open Protocol

/-- `Character.isWhitespace`; every such character is one code unit. -/
def isWhitespace (unit : UInt16) : Bool :=
  (0x09 ≤ unit && unit ≤ 0x0D) || (0x1C ≤ unit && unit ≤ 0x20) ||
    unit = 0x1680 || (0x2000 ≤ unit && unit ≤ 0x2006) ||
    (0x2008 ≤ unit && unit ≤ 0x200A) || unit = 0x2028 || unit = 0x2029 ||
    unit = 0x205F || unit = 0x3000

def isBlank (value : JavaString) : Bool := value.all isWhitespace

/-- `getBytes` under UTF-8; an unpaired surrogate becomes a question mark. -/
def getBytes : JavaString → Bytes
  | [] => []
  | [unit] =>
      match Unicode.utf16Decode [unit] with
      | some scalars => Unicode.encode scalars
      | none => [0x3F]
  | unit :: next :: rest =>
      match Unicode.utf16Decode [unit] with
      | some scalars => Unicode.encode scalars ++ getBytes (next :: rest)
      | none =>
          match Unicode.utf16Decode [unit, next] with
          | some scalars => Unicode.encode scalars ++ getBytes rest
          | none => 0x3F :: getBytes (next :: rest)

namespace SessionRequestData

def hexDigit (value : Nat) : UInt16 :=
  UInt16.ofNat (if value < 10 then 0x30 + value else 0x57 + value)

/-- One code unit inside a JSON string. -/
def escapeUnit (unit : UInt16) : JavaString :=
  if unit = 0x22 then [0x5C, 0x22]
  else if unit = 0x5C then [0x5C, 0x5C]
  else if unit = 0x08 then java ['\\', 'b']
  else if unit = 0x0C then java ['\\', 'f']
  else if unit = 0x0A then java ['\\', 'n']
  else if unit = 0x0D then java ['\\', 'r']
  else if unit = 0x09 then java ['\\', 't']
  else if unit < 0x20 then
    java ['\\', 'u', '0', '0'] ++
      [hexDigit (unit.toNat / 16), hexDigit (unit.toNat % 16)]
  else [unit]

def escape (value : JavaString) : JavaString := value.flatMap escapeUnit

def json (data : SessionRequestData) : JavaString :=
  java "\x7b\"license\":\"".toList ++ escape data.license ++
    java "\",\"product\":\"".toList ++ escape data.product ++
    java "\",\"installationId\":\"".toList ++ escape data.installationId ++
    java "\",\"timestamp\":".toList ++
    java (toString data.timestamp.toInt).toList ++
    java ",\"nonce\":\"".toList ++
    (Base64.encodeUrl data.nonce).map UInt8.toUInt16 ++
    java "\"\x7d".toList

end SessionRequestData

/-- White space of a regular expression. -/
def patternSpace (scalar : Char) : Bool :=
  scalar ∈ [' ', '\t', '\n', '\x0B', '\x0C', '\r']

/-- A literal text after white space. -/
def pastLiteral (literal text : List Char) : Option (List Char) :=
  let rest := text.dropWhile patternSpace
  if literal.isPrefixOf rest then some (rest.drop literal.length) else none

/-- The whole text against `VALID_RESPONSE`, with the verdict it captured. -/
def validResponse (text : List Char) : Option Bool := do
  let rest ← pastLiteral ['\x7b'] text
  let rest ← pastLiteral "\"valid\"".toList rest
  let rest ← pastLiteral [':'] rest
  let (verdict, rest) ←
    match pastLiteral "true".toList rest, pastLiteral "false".toList rest with
    | some rest, _ => some (true, rest)
    | none, some rest => some (false, rest)
    | none, none => none
  let rest ← pastLiteral ['\x7d'] rest
  if rest.all patternSpace then some verdict else none

def providerResponseIsAccepted (statusCode : Int) (body : Bytes) :
    Throwing Bool := do
  demand (¬(statusCode ≠ 200 ∨ body.length > 8192)) .licenseProviderUnavailable
  match Unicode.decode body with
  | none => throw .licenseProviderUnavailable
  | some decoded =>
      match validResponse decoded with
      | none => throw .licenseProviderUnavailable
      | some verdict => return verdict

structure LicenseConfiguration where
  licenseProviderMode : JavaString
  mockEnabled : Bool
  mockLicense : JavaString
  licenseProviderUrl : JavaString
  licenseProviderCredential : JavaString
  licenseProviderTimeoutMillis : Int64
  deriving DecidableEq

/-- What the validator reads from a parsed address. -/
structure Uri where
  scheme : Option JavaString
  host : Option JavaString
  userInfo : Option JavaString
  fragment : Option JavaString
  deriving DecidableEq

def mockMode : JavaString := java "mock".toList

def unconfigured : JavaString := java "unconfigured".toList

namespace LicenseConfiguration

variable (configuration : LicenseConfiguration)

/-- `create` is `URI.create`, absent where it throws. -/
def validateConfiguration (create : JavaString → Option Uri) :
    Throwing Unit := do
  if configuration.licenseProviderMode = mockMode then
    demand (¬(configuration.mockEnabled = false ∨
        isBlank configuration.mockLicense ∨
        configuration.mockLicense = unconfigured))
      (.illegalState
        "the mock license provider requires explicit enablement and license")
  else
    demand (¬(configuration.licenseProviderMode ≠ java "http".toList ∨
        isBlank configuration.licenseProviderCredential ∨
        configuration.licenseProviderCredential = unconfigured ∨
        configuration.licenseProviderTimeoutMillis < 1 ∨
        configuration.licenseProviderTimeoutMillis > 30000))
      (.illegalState "a configured HTTPS license provider is required")
    match create configuration.licenseProviderUrl with
    | none => throw (.illegalArgument "invalid address")
    | some providerUri =>
        demand (¬(providerUri.scheme ≠ some (java "https".toList) ∨
            providerUri.host = none ∨ providerUri.userInfo ≠ none ∨
            providerUri.fragment ≠ none))
          (.illegalState "loader.license-provider.url must be an HTTPS URL")

/-- `send` gives the status and the body that the provider answers a request
body with, and nothing where the exchange fails. -/
def accepts (send : Bytes → Option (Int × Bytes)) : LicenseValidator :=
  fun request =>
    if configuration.licenseProviderMode = mockMode then
      return getBytes configuration.mockLicense = getBytes request.license
    else
      match send (getBytes request.json) with
      | none => throw .licenseProviderUnavailable
      | some (statusCode, body) =>
          providerResponseIsAccepted statusCode (body.take 8193)

end LicenseConfiguration

/-- A validator whose startup succeeded, with the provider it asks. -/
structure LicenseProvider where
  configuration : LicenseConfiguration
  create : JavaString → Option Uri
  send : Bytes → Option (Int × Bytes)
  validated : configuration.validateConfiguration create = .ok ()

def LicenseProvider.accepts (provider : LicenseProvider) : LicenseValidator :=
  provider.configuration.accepts provider.send

/-- The validator refuses, accepts or is unavailable. -/
theorem LicenseConfiguration.accepts_cases
    (configuration : LicenseConfiguration)
    (send : Bytes → Option (Int × Bytes)) (request : SessionRequestData) :
    configuration.accepts send request = .ok true ∨
      configuration.accepts send request = .ok false ∨
      configuration.accepts send request =
        .error .licenseProviderUnavailable := by
  have verdict : ∀ accepted : Bool, (Except.ok accepted : Throwing Bool) =
      .ok true ∨ (Except.ok accepted : Throwing Bool) = .ok false ∨
      (Except.ok accepted : Throwing Bool) =
        .error .licenseProviderUnavailable := by
    intro accepted
    cases accepted with
    | true => exact Or.inl rfl
    | false => exact Or.inr (Or.inl rfl)
  unfold accepts
  split
  · exact verdict _
  split
  · exact Or.inr (Or.inr rfl)
  rename_i statusCode body _
  unfold providerResponseIsAccepted demand
  split
  · dsimp only [bind, Except.bind]
    split
    · exact Or.inr (Or.inr rfl)
    split
    · exact Or.inr (Or.inr rfl)
    · exact verdict _
  · exact Or.inr (Or.inr rfl)

end RymgaLoader.Gateway
