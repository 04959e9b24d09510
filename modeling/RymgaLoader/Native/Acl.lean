import Mathlib.Data.List.Basic
import Mathlib.Tactic.Ring

/-!
# Access control lists on Windows

`unsafe_write_acl` and `rymga_platform_runtime_directory_ok` of
`rymga_platform_windows.c`, with the masks and the entry types of the Windows
SDK.  Calls to the system are given by whether they succeed.
-/

namespace RymgaLoader.Native.Windows

def fileAddFile : UInt32 := 0x00000002
def fileAddSubdirectory : UInt32 := 0x00000004
def fileWriteEa : UInt32 := 0x00000010
def fileDeleteChild : UInt32 := 0x00000040
def fileWriteAttributes : UInt32 := 0x00000100
def delete : UInt32 := 0x00010000
def readControl : UInt32 := 0x00020000
def writeDac : UInt32 := 0x00040000
def writeOwner : UInt32 := 0x00080000
def synchronize : UInt32 := 0x00100000
def genericAll : UInt32 := 0x10000000
def genericWrite : UInt32 := 0x40000000

/-- `FILE_GENERIC_WRITE`. -/
def fileGenericWrite : UInt32 :=
  readControl ||| fileAddFile ||| fileWriteAttributes ||| fileWriteEa |||
    fileAddSubdirectory ||| synchronize

/-- The rights that let a trustee add, delete or alter content of a directory
or change its protection. -/
def modifying : UInt32 :=
  fileAddFile ||| fileAddSubdirectory ||| fileDeleteChild ||| fileWriteEa |||
    fileWriteAttributes ||| delete ||| writeDac ||| writeOwner |||
    genericWrite ||| genericAll

/-- A security identifier of revision 1. -/
structure Sid where
  authority : Nat
  subauthorities : List Nat
  deriving DecidableEq, Repr

def Sid.localSystem : Sid := ⟨5, [18]⟩

def Sid.administrators : Sid := ⟨5, [32, 544]⟩

/-- An entry as `unsafe_write_acl` reads it. -/
structure Ace where
  aceType : UInt8
  mask : UInt32
  trustee : Sid
  deriving DecidableEq, Repr

def accessAllowedAceType : UInt8 := 0x00

/-- The plain, compound, object and callback entries that allow access. -/
def allowingTypes : List UInt8 := [0x00, 0x04, 0x05, 0x09, 0x0B]

/-- The plain, object and callback entries that deny access. -/
def denyingTypes : List UInt8 := [0x01, 0x06, 0x0A, 0x0C]

/-- Which calls of `unsafe_write_acl` succeed. -/
structure AclCalls where
  localSystem : Bool
  administrators : Bool
  information : Bool
  ace : Nat → Bool

def AclCalls.succeeding : AclCalls := ⟨true, true, true, fun _ => true⟩

variable (calls : AclCalls) (owner : Sid)

/-- `writable` of `unsafe_write_acl`. -/
def writable : UInt32 :=
  genericAll ||| genericWrite ||| fileGenericWrite ||| delete ||| writeDac |||
    writeOwner

/-- A trustee who is neither the owner nor the system nor an
administrator. -/
def foreign (trustee : Sid) : Bool :=
  trustee ≠ owner ∧ trustee ≠ .localSystem ∧ trustee ≠ .administrators

/-- The loop over the entries. -/
def unsafeEntries : Nat → List Ace → Bool
  | _, [] => false
  | index, entry :: entries =>
      if !calls.ace index then true
      else if entry.aceType ∈ denyingTypes then
        unsafeEntries (index + 1) entries
      else if entry.aceType ≠ accessAllowedAceType then true
      else if entry.mask &&& writable ≠ 0 ∧ foreign owner entry.trustee then
        true
      else unsafeEntries (index + 1) entries

/-- A `NULL` list is absent. -/
def unsafeWriteAcl (acl : Option (List Ace)) : Bool :=
  match acl with
  | none => true
  | some entries =>
      if !calls.localSystem || !calls.administrators then true
      else if !calls.information then true
      else unsafeEntries calls owner 0 entries

/-- What the system tells about a directory: whether its path can be written
as UTF-16, its attributes, its owner and list, and the user of the process,
each absent where a call fails. -/
structure DirectoryInfo where
  wide : Bool
  attributes : UInt32
  security : Option (Sid × Option (List Ace))
  user : Option Sid

def invalidFileAttributes : UInt32 := 0xFFFFFFFF
def fileAttributeDirectory : UInt32 := 0x00000010
def fileAttributeReparsePoint : UInt32 := 0x00000400

/-- `rymga_platform_runtime_directory_ok`. -/
def runtimeDirectoryOk (directory : DirectoryInfo) : Bool :=
  if !directory.wide then false
  else if directory.attributes = invalidFileAttributes ∨
      directory.attributes &&&
        (fileAttributeDirectory ||| fileAttributeReparsePoint) ≠
          fileAttributeDirectory then false
  else
    match directory.security, directory.user with
    | some (owner, dacl), some user =>
        owner = user ∧ unsafeWriteAcl calls owner dacl = false
    | _, _ => false

variable {calls} {owner}

/-- An entry that does not make a list unsafe. -/
def Tolerated (owner : Sid) (entry : Ace) : Prop :=
  entry.aceType ∈ denyingTypes ∨ entry.aceType = accessAllowedAceType ∧
    (entry.mask &&& writable = 0 ∨ foreign owner entry.trustee = false)

theorem unsafeEntries_eq_false_iff {index : Nat} {entries : List Ace} :
    unsafeEntries calls owner index entries = false ↔
      (∀ offset < entries.length, calls.ace (index + offset) = true) ∧
        ∀ entry ∈ entries, Tolerated owner entry := by
  induction entries generalizing index with
  | nil => simp [unsafeEntries]
  | cons entry entries ih =>
      have shifted : (∀ offset < entries.length + 1,
          calls.ace (index + offset) = true) ↔
          calls.ace index = true ∧ ∀ offset < entries.length,
            calls.ace (index + 1 + offset) = true := by
        constructor
        · intro all
          refine ⟨all 0 (by omega), fun offset below => ?_⟩
          rw [Nat.add_assoc, Nat.add_comm 1 offset]
          exact all (offset + 1) (by omega)
        · rintro ⟨first, rest⟩ offset below
          cases offset with
          | zero => exact first
          | succ offset =>
              rw [Nat.add_comm offset 1, ← Nat.add_assoc]
              exact rest offset (by omega)
      rw [unsafeEntries, List.length_cons, List.forall_mem_cons, shifted]
      by_cases got : calls.ace index = true
      · by_cases denies : entry.aceType ∈ denyingTypes
        · simp [got, denies, ih, Tolerated]
        · by_cases plain : entry.aceType = accessAllowedAceType
          · by_cases risky : entry.mask &&& writable ≠ 0 ∧
                foreign owner entry.trustee = true
            · have refused : ¬Tolerated owner entry := by
                rintro (denied | ⟨-, harmless | trusted⟩)
                · exact denies denied
                · exact risky.1 harmless
                · rw [risky.2] at trusted
                  cases trusted
              rw [if_neg (by simp [got]), if_neg denies,
                if_neg (by simp [plain]), if_pos risky]
              simp [refused]
            · have tolerated : Tolerated owner entry := by
                refine Or.inr ⟨plain, ?_⟩
                by_cases harmless : entry.mask &&& writable = 0
                · exact Or.inl harmless
                · refine Or.inr ?_
                  cases trustee : foreign owner entry.trustee with
                  | false => rfl
                  | true => exact absurd ⟨harmless, trustee⟩ risky
              rw [if_neg (by simp [got]), if_neg denies,
                if_neg (by simp [plain]), if_neg risky, ih]
              simp [got, tolerated]
          · simp [got, denies, plain, Tolerated]
      · simp [got]

theorem unsafeWriteAcl_eq_false_iff {acl : Option (List Ace)} :
    unsafeWriteAcl calls owner acl = false ↔
      ∃ entries, acl = some entries ∧ calls.localSystem = true ∧
        calls.administrators = true ∧ calls.information = true ∧
        (∀ index < entries.length, calls.ace index = true) ∧
        ∀ entry ∈ entries, Tolerated owner entry := by
  cases acl with
  | none => simp [unsafeWriteAcl]
  | some entries =>
      have loop := @unsafeEntries_eq_false_iff calls owner 0 entries
      simp only [Nat.zero_add] at loop
      cases created : calls.localSystem <;>
        cases built : calls.administrators <;>
        cases told : calls.information <;>
        simp [unsafeWriteAcl, created, built, told, loop]

/-- No entry lets a foreign trustee modify the directory. -/
def Protects (owner : Sid) (acl : Option (List Ace)) : Prop :=
  ∃ entries, acl = some entries ∧ ∀ entry ∈ entries,
    entry.aceType ∈ allowingTypes → foreign owner entry.trustee = true →
      entry.mask &&& modifying = 0

/-- A list that is found safe, although an entry lets a foreign trustee delete
what is in the directory. -/
structure DeletesChildren (calls : AclCalls) (owner : Sid)
    (acl : Option (List Ace)) : Prop where
  called : calls.localSystem = true ∧ calls.administrators = true ∧
    calls.information = true
  entries : ∃ entries, acl = some entries ∧
    (∀ index < entries.length, calls.ace index = true) ∧
    (∀ entry ∈ entries, Tolerated owner entry) ∧
    ∃ entry ∈ entries, entry.aceType = accessAllowedAceType ∧
      foreign owner entry.trustee = true ∧
      entry.mask &&& fileDeleteChild ≠ 0

private theorem modifying_covered :
    modifying &&& (writable ||| fileDeleteChild) = modifying := by decide

private theorem and_or_distrib (mask left right : UInt32) :
    mask &&& (left ||| right) = mask &&& left ||| mask &&& right := by
  rw [← UInt32.toBitVec_inj]
  ext index
  simp [Bool.and_or_distrib_left]

/-- Of the modifying rights only `FILE_DELETE_CHILD` is not in `writable`. -/
theorem modifying_eq_zero {mask : UInt32} (harmless : mask &&& writable = 0)
    (keeps : mask &&& fileDeleteChild = 0) : mask &&& modifying = 0 := by
  calc mask &&& modifying
      = mask &&& (modifying &&& (writable ||| fileDeleteChild)) := by
        rw [modifying_covered]
    _ = modifying &&& (mask &&& (writable ||| fileDeleteChild)) := by
        rw [← UInt32.and_assoc, UInt32.and_comm mask modifying,
          UInt32.and_assoc]
    _ = modifying &&& (mask &&& writable ||| mask &&& fileDeleteChild) := by
        rw [and_or_distrib]
    _ = 0 := by
        rw [harmless, keeps]
        rfl

private theorem deleteChild_of_modifying {mask : UInt32}
    (keeps : mask &&& modifying = 0) : mask &&& fileDeleteChild = 0 := by
  have within : fileDeleteChild = modifying &&& fileDeleteChild := by decide
  rw [within, ← UInt32.and_assoc, keeps]
  decide

theorem denying_not_allowing {aceType : UInt8}
    (denies : aceType ∈ denyingTypes) : aceType ∉ allowingTypes := by
  have separate : ∀ kind ∈ denyingTypes, kind ∉ allowingTypes := by decide
  exact separate aceType denies

theorem protects_of_tolerated {entries : List Ace}
    (tolerated : ∀ entry ∈ entries, Tolerated owner entry)
    (keeps : ∀ entry ∈ entries, entry.aceType = accessAllowedAceType →
      foreign owner entry.trustee = true →
        entry.mask &&& fileDeleteChild = 0) :
    Protects owner (some entries) := by
  refine ⟨entries, rfl, fun entry member allows stranger => ?_⟩
  rcases tolerated entry member with denies | ⟨plain, harmless | trusted⟩
  · exact absurd allows (denying_not_allowing denies)
  · exact modifying_eq_zero harmless (keeps entry member plain stranger)
  · rw [stranger] at trusted
    cases trusted

/-- A list that `unsafe_write_acl` finds safe protects the directory, unless an
entry grants a foreign trustee `FILE_DELETE_CHILD`; the same holds of a
directory that `rymga_platform_runtime_directory_ok` accepts. -/
theorem unsafeWriteAcl_protects_iff (calls : AclCalls) (owner : Sid)
    (acl : Option (List Ace)) :
    ((unsafeWriteAcl calls owner acl = false → Protects owner acl) ↔
        ¬DeletesChildren calls owner acl) ∧
      ∀ directory : DirectoryInfo,
        directory.security = some (owner, acl) →
        runtimeDirectoryOk calls directory = true →
          (Protects owner acl ↔ ¬DeletesChildren calls owner acl) := by
  have exact : (unsafeWriteAcl calls owner acl = false →
      Protects owner acl) ↔ ¬DeletesChildren calls owner acl := by
    constructor
    · rintro safe ⟨⟨created, built, told⟩, entries, rfl, got, tolerated, entry,
        member, plain, stranger, deletes⟩
      obtain ⟨others, same, keeps⟩ := safe (unsafeWriteAcl_eq_false_iff.mpr
        ⟨entries, rfl, created, built, told, got, tolerated⟩)
      cases same
      refine deletes (deleteChild_of_modifying (keeps entry member ?_ stranger))
      rw [plain]
      decide
    · intro strict found
      obtain ⟨entries, rfl, created, built, told, got, tolerated⟩ :=
        unsafeWriteAcl_eq_false_iff.mp found
      refine protects_of_tolerated tolerated fun entry member plain stranger => ?_
      by_contra deletes
      exact strict ⟨⟨created, built, told⟩, entries, rfl, got, tolerated,
        entry, member, plain, stranger, deletes⟩
  refine ⟨exact, fun directory told accepted => ?_⟩
  have found : unsafeWriteAcl calls owner acl = false := by
    unfold runtimeDirectoryOk at accepted
    split at accepted
    · cases accepted
    split at accepted
    · cases accepted
    rw [told] at accepted
    cases user : directory.user with
    | none =>
        rw [user] at accepted
        cases accepted
    | some user' =>
        rw [user] at accepted
        exact (of_decide_eq_true accepted).2
  rw [← exact]
  exact ⟨fun protects _ => protects, fun safe => safe found⟩

/-- Everyone may delete what is in the directory. -/
def deletableAcl : List Ace := [⟨accessAllowedAceType, fileDeleteChild, ⟨1, [0]⟩⟩]

theorem unsafeWriteAcl_misses_deleteChild :
    ¬(unsafeWriteAcl .succeeding ⟨5, [21, 1]⟩ (some deletableAcl) = false →
      Protects ⟨5, [21, 1]⟩ (some deletableAcl)) := by
  intro safe
  obtain ⟨entries, same, keeps⟩ := safe (by decide)
  cases same
  exact absurd (keeps _ List.mem_cons_self (by decide) (by decide))
    (by decide)

theorem unsafeWriteAcl_protects_iff_everyone :
    runtimeDirectoryOk .succeeding ⟨true, fileAttributeDirectory,
        some (⟨5, [21, 1]⟩, some deletableAcl), some ⟨5, [21, 1]⟩⟩ = true ∧
      (Protects ⟨5, [21, 1]⟩ (some deletableAcl) ↔
        ¬DeletesChildren .succeeding ⟨5, [21, 1]⟩ (some deletableAcl)) :=
  ⟨by decide, (unsafeWriteAcl_protects_iff .succeeding ⟨5, [21, 1]⟩
    (some deletableAcl)).2 ⟨true, fileAttributeDirectory,
      some (⟨5, [21, 1]⟩, some deletableAcl), some ⟨5, [21, 1]⟩⟩ rfl
    (by decide)⟩

end RymgaLoader.Native.Windows
