import RymgaLoader.Java.ApplicationConfig
import RymgaLoader.Native.Jni

/-!
# Licenses from a configuration file to the gateway

`ApplicationConfig.read` bounds the UTF-16 length of a license.  The JNI
bridge bounds its UTF-8 length and the gateway refuses control characters.
-/

namespace RymgaLoader.Interop

open Protocol Wire Native
open Java.ApplicationConfig (Entries joined readEntries read)

/-- The JNI bridge and the gateway take a license. -/
def Deliverable (license : JavaString) : Prop :=
  (∃ bytes, licenseUtf8 license = some bytes) ∧
    requireString "license" license 4096 = .ok ()

theorem deliverable_iff {license : JavaString} :
    Deliverable license ↔
      1 ≤ license.length ∧ license.length ≤ 4096 ∧
        (∃ bytes, Spells license bytes ∧ bytes.length ≤ 4096) ∧
        ∀ unit ∈ license, ¬IsoControl unit.toNat := by
  unfold Deliverable
  simp only [licenseUtf8_eq_some_iff, requireString_eq_ok_iff]
  constructor
  · rintro ⟨⟨bytes, spelled, present, few, -, short⟩, others, spelled', -, -,
      scalars, rfl, clean⟩
    refine ⟨present, few, ⟨bytes, spelled, short⟩, ?_⟩
    obtain ⟨known, rfl, same⟩ := spelled'
    cases Unicode.encode_injective same
    exact (control_iff scalars).mpr clean
  · rintro ⟨present, few, ⟨bytes, ⟨scalars, rfl, rfl⟩, short⟩, clean⟩
    have some : Unicode.encode scalars ≠ [] := by
      intro empty
      rw [encode_eq_nil_iff.mp empty] at present
      exact absurd present (by decide)
    exact ⟨⟨_, ⟨scalars, rfl, rfl⟩, present, few,
      List.length_pos_iff.mpr some, short⟩, _, ⟨scalars, rfl, rfl⟩, some,
      short, scalars, rfl, (control_iff scalars).mp clean⟩

/-- A string has at least as many bytes as code units, and as many only where
it is ASCII. -/
theorem length_le_of_spells {value : JavaString} {bytes : Bytes}
    (spelled : Spells value bytes) :
    value.length ≤ bytes.length ∧
      (value.length = bytes.length → ∀ unit ∈ value, unit.toNat < 0x80) := by
  obtain ⟨scalars, rfl, rfl⟩ := spelled
  induction scalars with
  | nil => exact ⟨Nat.le_refl _, fun _ unit member => by cases member⟩
  | cons scalar scalars ih =>
      obtain ⟨fewer, ascii⟩ := Unicode.length_utf16Units_le scalar
      rw [Unicode.utf16Encode_cons, Unicode.encode_cons, List.length_append,
        List.length_append]
      refine ⟨by omega, fun same unit member => ?_⟩
      rcases List.mem_append.mp member with first | later
      · obtain ⟨only, singleton, number⟩ :=
          Unicode.utf16_asciiTransparent.ascii scalar (ascii (by omega))
        rw [singleton, List.mem_singleton] at first
        rw [first, number]
        exact ascii (by omega)
      · exact ih.2 (by omega) unit later

theorem spells_of_ascii {value : JavaString}
    (ascii : ∀ unit ∈ value, unit.toNat < 0x80) :
    ∃ bytes, Spells value bytes ∧ bytes.length = value.length := by
  induction value with
  | nil => exact ⟨[], ⟨[], rfl, rfl⟩, rfl⟩
  | cons unit value ih =>
      have low := ascii unit (by simp)
      obtain ⟨bytes, ⟨scalars, units, encoded⟩, sized⟩ :=
        ih fun candidate member => ascii candidate (by simp [member])
      obtain ⟨scalar, -, number⟩ := Unicode.scalar?_some (Nat.zero_le unit.toNat)
        (by omega) (by omega)
      obtain ⟨byte, image, -⟩ :=
        Unicode.utf8_asciiTransparent.ascii scalar (by omega)
      obtain ⟨same, image', code⟩ :=
        Unicode.utf16_asciiTransparent.ascii scalar (by omega)
      have equal : same = unit := UInt16.toNat_inj.mp (code.trans number)
      refine ⟨byte :: bytes, ⟨scalar :: scalars, ?_, ?_⟩, by simp [sized]⟩
      · rw [Unicode.utf16Encode_cons, image', equal, ← units]
        rfl
      · rw [Unicode.encode_cons, image, ← encoded]
        rfl

/-- Where the three bounds on a license agree: a license within the local
bound has at most 4096 bytes and no control character, and one beyond it is
no key of exactly 4096 printable ASCII characters. -/
def BoundsAgree (user key : JavaString) : Prop :=
  (user.length + key.length + 1 ≤ 4096 →
    (∃ bytes, Spells (joined user key) bytes ∧ bytes.length ≤ 4096) ∧
      ∀ unit ∈ joined user key, ¬IsoControl unit.toNat) ∧
  (4096 < user.length + key.length + 1 →
    ¬(user = [] ∧ key.length = 4096 ∧
      ∀ unit ∈ key, 0x20 ≤ unit.toNat ∧ unit.toNat < 0x7F))

/-- A license within the local bound that the protocol refuses: a plain scalar
with a control character, one that is longer in UTF-8 than in UTF-16, or one
with half of a surrogate pair. -/
def RefusedWithin (user key : JavaString) : Prop :=
  user.length + key.length + 1 ≤ 4096 ∧
    ((∃ unit ∈ user ++ key, IsoControl unit.toNat) ∨
      ∀ bytes, Spells (joined user key) bytes → 4096 < bytes.length)

/-- A license beyond the local bound that the protocol takes: the bound counts
a colon in front of the key, also where there is no user. -/
def TakenBeyond (user key : JavaString) : Prop :=
  user = [] ∧ key.length = 4096 ∧
    ∀ unit ∈ key, 0x20 ≤ unit.toNat ∧ unit.toNat < 0x7F

private theorem mem_joined {user key : JavaString} {unit : UInt16} :
    unit ∈ joined user key ↔
      unit ∈ user ++ key ∨ user ≠ [] ∧ unit = 0x3A := by
  unfold joined
  split
  · rename_i absent
    simp [absent]
  · rename_i present
    simp only [List.mem_append, List.mem_cons, ne_eq, present,
      not_false_eq_true, true_and]
    tauto

/-- The two ways in which the bounds differ. -/
theorem not_boundsAgree_iff (user key : JavaString) :
    ¬BoundsAgree user key ↔ RefusedWithin user key ∨ TakenBeyond user key := by
  have visible : ¬IsoControl (0x3A : UInt16).toNat := by decide
  have controls : (∀ unit ∈ joined user key, ¬IsoControl unit.toNat) ↔
      ¬∃ unit ∈ user ++ key, IsoControl unit.toNat := by
    simp only [mem_joined, not_exists, not_and]
    constructor
    · exact fun clean unit member => clean unit (.inl member)
    · rintro clean unit (member | ⟨-, rfl⟩)
      · exact clean unit member
      · exact visible
  have lengths : (∃ bytes, Spells (joined user key) bytes ∧
      bytes.length ≤ 4096) ↔
      ¬∀ bytes, Spells (joined user key) bytes → 4096 < bytes.length := by
    simp only [not_forall, not_lt, exists_prop]
  have beyond : TakenBeyond user key → 4096 < user.length + key.length + 1 := by
    rintro ⟨-, sized, -⟩
    omega
  unfold BoundsAgree RefusedWithin
  rw [controls, lengths]
  by_cases short : user.length + key.length + 1 ≤ 4096
  · have within : ¬TakenBeyond user key := fun taken =>
      absurd (beyond taken) (Nat.not_lt.mpr short)
    simp only [short, Nat.not_lt.mpr short, within, true_implies,
      false_implies, true_and, and_true, or_false]
    rw [not_and_or, not_not, not_not]
    exact or_comm
  · have long := Nat.not_le.mp short
    simp only [short, long, false_implies, true_implies, true_and, false_and,
      false_or, not_not]
    exact Iff.rfl

private theorem length_joined (user key : JavaString) :
    (joined user key).length =
      if user = [] then key.length else user.length + 1 + key.length := by
  unfold joined
  split
  · rfl
  · rw [List.length_append, List.length_cons]
    omega

/-- Beyond the local bound only a key of 4096 printable ASCII characters is
deliverable. -/
theorem deliverable_beyond {user key : JavaString}
    (long : 4096 < user.length + key.length + 1) :
    Deliverable (joined user key) ↔
      user = [] ∧ key.length = 4096 ∧
        ∀ unit ∈ key, 0x20 ≤ unit.toNat ∧ unit.toNat < 0x7F := by
  rw [deliverable_iff, length_joined]
  constructor
  · rintro ⟨-, few, ⟨bytes, spelled, short⟩, clean⟩
    split at few
    · rename_i absent
      subst user
      have alone : joined [] key = key := if_pos rfl
      rw [alone] at spelled clean
      obtain ⟨fewer, ascii⟩ := length_le_of_spells spelled
      rw [List.length_nil] at long
      refine ⟨rfl, by omega, fun unit member => ?_⟩
      have low := ascii (by omega) unit member
      have visible := clean unit member
      unfold IsoControl at visible
      omega
    · omega
  · rintro ⟨rfl, exact, printable⟩
    have alone : joined [] key = key := if_pos rfl
    obtain ⟨bytes, spelled, sized⟩ := spells_of_ascii fun unit member =>
      Nat.lt_trans (printable unit member).2 (by decide)
    rw [if_pos rfl, alone]
    refine ⟨by omega, by omega, ⟨bytes, spelled, by omega⟩, ?_⟩
    intro unit member control
    have visible := printable unit member
    unfold IsoControl at control
    omega

theorem deliverable_within {user key : JavaString} (keyed : key ≠ [])
    (short : user.length + key.length + 1 ≤ 4096) :
    Deliverable (joined user key) ↔
      (∃ bytes, Spells (joined user key) bytes ∧ bytes.length ≤ 4096) ∧
        ∀ unit ∈ joined user key, ¬IsoControl unit.toNat := by
  have present := List.length_pos_iff.mpr keyed
  have few := length_joined user key
  rw [deliverable_iff]
  constructor
  · rintro ⟨-, -, rest⟩
    exact rest
  · intro rest
    refine ⟨?_, ?_, rest⟩
    · split at few <;> omega
    · split at few <;> omega

/-- A file with a key is read exactly where its license is deliverable, as far
as the bounds on the license agree. -/
theorem read_deliverable_iff (content : Bytes) (entries : Entries)
    (parsed : readEntries (some content) = .ok entries)
    (opened : entries.license = true) (keyed : entries.trimmedKey ≠ []) :
    (read (some content) =
          .ok (joined entries.trimmedUser entries.trimmedKey) ↔
        Deliverable (joined entries.trimmedUser entries.trimmedKey)) ↔
      BoundsAgree entries.trimmedUser entries.trimmedKey := by
  have reads : read (some content) =
      .ok (joined entries.trimmedUser entries.trimmedKey) ↔
      entries.trimmedUser.length + entries.trimmedKey.length + 1 ≤ 4096 := by
    rw [Java.ApplicationConfig.read, parsed]
    change entries.credentials = _ ↔ _
    rw [Entries.credentials, if_neg (by simp [opened, keyed])]
    split
    · rename_i long
      constructor
      · intro impossible
        cases impossible
      · intro short
        omega
    · rename_i short
      exact ⟨fun _ => by omega, fun _ => rfl⟩
  rw [reads, BoundsAgree]
  by_cases short :
      entries.trimmedUser.length + entries.trimmedKey.length + 1 ≤ 4096
  · rw [deliverable_within keyed short]
    constructor
    · intro same
      exact ⟨fun _ => same.mp short, fun long => absurd short (by omega)⟩
    · rintro ⟨within, -⟩
      exact ⟨within, fun _ => short⟩
  · have long : 4096 < entries.trimmedUser.length +
        entries.trimmedKey.length + 1 := by omega
    rw [deliverable_beyond long]
    constructor
    · intro same
      exact ⟨fun within => absurd within short,
        fun _ alone => short (same.mpr alone)⟩
    · rintro ⟨-, beyond⟩
      exact ⟨fun within => absurd within short,
        fun alone => absurd alone (beyond long)⟩

/-- A plain key with a tab inside. -/
def tabbedConfig : Bytes := ascii "license:\n  key: a\tb\n".toList

def tabbedEntries : Entries := ⟨true, none, some (java ['a', '\t', 'b'])⟩

theorem read_tabbedConfig :
    ¬(read (some tabbedConfig) =
        .ok (joined tabbedEntries.trimmedUser tabbedEntries.trimmedKey) ↔
      Deliverable
        (joined tabbedEntries.trimmedUser tabbedEntries.trimmedKey)) := by
  intro same
  have accepted : read (some tabbedConfig) =
      .ok (joined tabbedEntries.trimmedUser tabbedEntries.trimmedKey) := by
    decide +kernel
  obtain ⟨-, -, -, clean⟩ := deliverable_iff.mp (same.mp accepted)
  exact clean 0x09 (by decide) (by decide)

theorem read_deliverable_iff_tabbedConfig :
    readEntries (some tabbedConfig) = .ok tabbedEntries ∧
      ((read (some tabbedConfig) =
          .ok (joined tabbedEntries.trimmedUser tabbedEntries.trimmedKey) ↔
        Deliverable
          (joined tabbedEntries.trimmedUser tabbedEntries.trimmedKey)) ↔
      BoundsAgree tabbedEntries.trimmedUser tabbedEntries.trimmedKey) := by
  have parsed : readEntries (some tabbedConfig) = .ok tabbedEntries := by
    decide +kernel
  exact ⟨parsed, read_deliverable_iff tabbedConfig tabbedEntries parsed
    (by decide) (by decide)⟩

end RymgaLoader.Interop
