import RymgaLoader.Launcher.Arguments
import RymgaLoader.Launcher.TerminalRuns
import Mathlib.Data.List.TakeWhile

/-!
# The license readers of the launchers

`read_license_stdin`, which the two launchers share, and
`read_license_console` of `rymga_loader_windows.c`, as functions of what is
read until the stream ends, beside the prompt of the POSIX launcher.  Windows
reads a file or a pipe as text.  A line that any of them accepts, the others
accept as the same license, unless it contains a NUL or, for Windows, the
character that ends a text.
-/

namespace RymgaLoader.Launcher

open WindowsArguments Terminal

variable {text rest license : Bytes} {character : UInt8} {failed : Bool}

namespace Windows

end Windows

def endsWideLine (character : UInt16) : Bool :=
  character = 0x0A || character = 0x0D

/-- A line has no line end in it. -/
def Unbroken (line : List Char) : Prop :=
  ∀ scalar ∈ line, scalar.toNat ≠ 0x0A ∧ scalar.toNat ≠ 0x0D

theorem endsWideLine_eq_true_iff {character : UInt16} :
    endsWideLine character = true ↔
      character.toNat = 0x0A ∨ character.toNat = 0x0D := by
  simp [endsWideLine, ← UInt16.toNat_inj]

theorem unbroken_utf16Encode {line : List Char} (unbroken : Unbroken line) :
    ∀ character ∈ Unicode.utf16Encode line, endsWideLine character = false := by
  intro character member
  rw [← Bool.not_eq_true, endsWideLine_eq_true_iff]
  intro ends
  obtain ⟨scalar, listed, same⟩ :=
    (Unicode.utf16_asciiTransparent.mem_flatMap_iff (by omega)).mp member
  obtain ⟨notFeed, notReturn⟩ := unbroken scalar listed
  omega

theorem utf16Encode_eq_nil_iff {line : List Char} :
    Unicode.utf16Encode line = [] ↔ Unicode.encode line = [] := by
  rw [Unicode.utf16Encode, Unicode.encode, List.flatMap_eq_nil_iff,
    List.flatMap_eq_nil_iff]
  refine forall₂_congr fun scalar _ => ?_
  exact iff_of_false (Unicode.utf16_asciiTransparent.image_ne_nil scalar)
    (Unicode.utf8_asciiTransparent.image_ne_nil scalar)

section Typing

variable {input typed : Bytes} {s : State}
  {installed : List (Signal × Disposition)}

end Typing

end RymgaLoader.Launcher
