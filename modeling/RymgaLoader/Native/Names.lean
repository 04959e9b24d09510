import RymgaLoader.Native.Disk

/-!
# Names the platform layer recognises

The name tests of `rymga_platform_posix.c`.  Hidden names carry the loader's
own bookkeeping; a temporary directory and a published JAR are recognised by
their names alone.
-/

namespace RymgaLoader.Native

def ownerMarker : Name := ascii
  ['.', 'r', 'y', 'm', 'g', 'a', '-', 'o', 'w', 'n', 'e', 'r']

def artifactPart : Name := ascii
  ['.', 'a', 'r', 't', 'i', 'f', 'a', 'c', 't', '.', 'p', 'a', 'r', 't']

def tempStem : Name := ascii
  ['r', 'y', 'm', 'g', 'a', '-', 'l', 'o', 'a', 'd', 'e', 'r', '-']

def markerStem : Name := ascii
  ['.', 'r', 'y', 'm', 'g', 'a', '-', 'p', 'r', 'e', 'l', 'o', 'a', 'd', '-']

def markerEnding : Name := ascii ['.', 'o', 'w', 'n', 'e', 'r']

def partialStem : Name := ascii
  ['.', 'r', 'y', 'm', 'g', 'a', '-', 'l', 'o', 'a', 'd', 'e', 'r', '-']

def alphanumeric (byte : UInt8) : Bool :=
  (0x61 ≤ byte ∧ byte ≤ 0x7A) ∨ (0x41 ≤ byte ∧ byte ≤ 0x5A) ∨
    (0x30 ≤ byte ∧ byte ≤ 0x39)

def lowerHex (byte : UInt8) : Bool :=
  (0x30 ≤ byte ∧ byte ≤ 0x39) ∨ (0x61 ≤ byte ∧ byte ≤ 0x66)

/-- The names `mkdtemp` and `mkstemp` make from a template. -/
def templateName (stem name : Name) : Bool :=
  name.take stem.length = stem ∧ name.length = stem.length + 6 ∧
    (name.drop stem.length).all alphanumeric

def tempName (name : Name) : Bool := templateName tempStem name

def pluginPartialName (name : Name) : Bool := templateName partialStem name

def jarName (name : Name) : Bool :=
  let length := name.length
  length > 4 ∧ 0x2F ∉ name ∧ 0x5C ∉ name ∧
    name.getD (length - 4) 0 = 0x2E ∧
    (name.getD (length - 3) 0 = 0x6A ∨ name.getD (length - 3) 0 = 0x4A) ∧
    (name.getD (length - 2) 0 = 0x61 ∨ name.getD (length - 2) 0 = 0x41) ∧
    (name.getD (length - 1) 0 = 0x72 ∨ name.getD (length - 1) 0 = 0x52)

def pluginMarkerName (name : Name) : Bool :=
  name.length = markerStem.length + 32 + markerEnding.length ∧
    name.take markerStem.length = markerStem ∧
    name.drop (name.length - markerEnding.length) = markerEnding ∧
    ((name.drop markerStem.length).take 32).all lowerHex

/-- The `temp_name` of `rymga_platform_windows.c`. -/
def Windows.tempName (name : Name) : Bool :=
  name.take tempStem.length = tempStem ∧
    name.length = tempStem.length + 32 ∧
    (name.drop tempStem.length).all lowerHex

/-- The names of temporary directories on either system. -/
def directoryName (name : Name) : Prop :=
  tempName name = true ∨ Windows.tempName name = true

/-- The names foreign parties keep away from. -/
def hiddenName (name : Name) : Bool :=
  name.take 7 = ascii ['.', 'r', 'y', 'm', 'g', 'a', '-']

theorem hiddenName_of_partialName {name : Name}
    (isPartial : pluginPartialName name = true) : hiddenName name = true := by
  simp only [pluginPartialName, templateName, Bool.decide_and,
    Bool.and_eq_true, decide_eq_true_eq] at isPartial
  have shorter : name.take 7 = (name.take partialStem.length).take 7 := by
    rw [List.take_take]
    rfl
  simp only [hiddenName, decide_eq_true_eq]
  rw [shorter, isPartial.1]
  rfl

theorem hiddenName_of_marker {name : Name}
    (isMarker : pluginMarkerName name = true) : hiddenName name = true := by
  simp only [pluginMarkerName, Bool.decide_and, Bool.and_eq_true,
    decide_eq_true_eq] at isMarker
  have shorter : name.take 7 = (name.take markerStem.length).take 7 := by
    rw [List.take_take]
    rfl
  simp only [hiddenName, decide_eq_true_eq]
  rw [shorter, isMarker.2.1]
  rfl

end RymgaLoader.Native
