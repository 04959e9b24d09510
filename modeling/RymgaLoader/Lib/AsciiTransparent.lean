import RymgaLoader.Lib.Unicode
import Mathlib.Data.List.Induction

/-!
# Encodings that are transparent on ASCII

UTF-8 and UTF-16 both write an ASCII character as the one code unit with its
number and every other character with units outside the ASCII range.  Tests
for ASCII characters can therefore be made on the units, wherever they stand
in the string.
-/

namespace Unicode

/-- A test of the units of a string looks at the string, also where there are
finitely many units. -/
instance (priority := 2000) decidableForallUnit {test : α → Prop}
    [DecidablePred test] (units : List α) :
    Decidable (∀ unit ∈ units, test unit) :=
  List.decidableBAll test units

/-- `image` writes the units of one character and `code` numbers a unit. -/
structure AsciiTransparent (code : α → Nat) (image : Char → List α) :
    Prop where
  codeInjective : Function.Injective code
  ascii : ∀ scalar : Char, scalar.toNat < 0x80 →
    ∃ unit, image scalar = [unit] ∧ code unit = scalar.toNat
  other : ∀ scalar : Char, 0x80 ≤ scalar.toNat →
    image scalar ≠ [] ∧ ∀ unit ∈ image scalar, 0x80 ≤ code unit

namespace AsciiTransparent

variable {code : α → Nat} {image : Char → List α}

theorem mem_image_iff (transparent : AsciiTransparent code image)
    {scalar : Char} {unit : α} (small : code unit < 0x80) :
    unit ∈ image scalar ↔ code unit = scalar.toNat := by
  by_cases low : scalar.toNat < 0x80
  · obtain ⟨only, singleton, number⟩ := transparent.ascii scalar low
    rw [singleton, List.mem_singleton, ← number]
    exact transparent.codeInjective.eq_iff.symm
  · have high := (transparent.other scalar (by omega)).2
    constructor
    · intro member
      have := high unit member
      omega
    · intro same
      omega

theorem mem_flatMap_iff (transparent : AsciiTransparent code image)
    {scalars : List Char} {unit : α} (small : code unit < 0x80) :
    unit ∈ scalars.flatMap image ↔
      ∃ scalar ∈ scalars, code unit = scalar.toNat := by
  simp only [List.mem_flatMap, transparent.mem_image_iff small]

theorem takeWhile_flatMap (transparent : AsciiTransparent code image)
    (scalars : List Char) {stop : Nat} (small : stop < 0x80) :
    (scalars.flatMap image).takeWhile (fun unit => code unit ≠ stop) =
      (scalars.takeWhile (fun scalar => scalar.toNat ≠ stop)).flatMap image := by
  induction scalars with
  | nil => rfl
  | cons scalar scalars ih =>
      rw [List.flatMap_cons]
      by_cases found : scalar.toNat = stop
      · obtain ⟨unit, singleton, number⟩ :=
          transparent.ascii scalar (by omega)
        simp [singleton, number, found]
      · have kept : ∀ unit ∈ image scalar,
            decide (code unit ≠ stop) = true := by
          intro unit member
          rw [decide_eq_true_eq]
          intro same
          have number :=
            (transparent.mem_image_iff (by omega)).mp member
          omega
        rw [List.takeWhile_append_of_pos kept, ih]
        simp [found]

/-- A final ASCII unit is the image of a final ASCII character. -/
theorem eq_append_of_flatMap_eq_append
    (transparent : AsciiTransparent code image)
    {scalars : List Char} {front : List α} {unit : α}
    (small : code unit < 0x80)
    (split : scalars.flatMap image = front ++ [unit]) :
    ∃ before scalar, scalars = before ++ [scalar] ∧
      scalar.toNat = code unit ∧ before.flatMap image = front := by
  rcases List.eq_nil_or_concat scalars with rfl | ⟨before, scalar, rfl⟩
  · simp at split
  · rw [List.concat_eq_append, List.flatMap_append,
      List.flatMap_singleton] at split
    by_cases low : scalar.toNat < 0x80
    · obtain ⟨only, singleton, number⟩ := transparent.ascii scalar low
      rw [singleton] at split
      obtain ⟨sameFront, sameUnit⟩ := List.append_inj' split rfl
      cases sameUnit
      exact ⟨before, scalar, List.concat_eq_append, number.symm, sameFront⟩
    · obtain ⟨nonempty, high⟩ := transparent.other scalar (by omega)
      rcases List.eq_nil_or_concat (image scalar) with empty | ⟨init, last, shape⟩
      · exact (nonempty empty).elim
      · have member : last ∈ image scalar := by simp [shape]
        rw [shape, List.concat_eq_append, ← List.append_assoc] at split
        obtain ⟨-, sameUnit⟩ := List.append_inj' split rfl
        cases sameUnit
        have := high unit member
        omega

/-- A trailing run of ASCII units is the image of trailing ASCII
characters. -/
theorem eq_append_of_flatMap_eq (transparent : AsciiTransparent code image)
    {scalars : List Char} {front back : List α}
    (small : ∀ unit ∈ back, code unit < 0x80)
    (split : scalars.flatMap image = front ++ back) :
    ∃ before after, scalars = before ++ after ∧
      after.map Char.toNat = back.map code ∧
      before.flatMap image = front := by
  induction back using List.reverseRecOn generalizing scalars with
  | nil => exact ⟨scalars, [], by simp, rfl, by simpa using split⟩
  | append_singleton back unit ih =>
      rw [← List.append_assoc] at split
      obtain ⟨before, scalar, rfl, number, rest⟩ :=
        transparent.eq_append_of_flatMap_eq_append
          (small unit (by simp)) split
      obtain ⟨first, after, rfl, numbers, image⟩ :=
        ih (fun candidate member => small candidate (by simp [member])) rest
      exact ⟨first, after ++ [scalar], by simp, by simp [numbers, number],
        image⟩

theorem map_code_of_ascii (transparent : AsciiTransparent code image)
    {scalars : List Char} (low : ∀ scalar ∈ scalars, scalar.toNat < 0x80) :
    (scalars.flatMap image).map code = scalars.map Char.toNat := by
  induction scalars with
  | nil => rfl
  | cons scalar scalars ih =>
      obtain ⟨unit, singleton, number⟩ :=
        transparent.ascii scalar (low scalar (by simp))
      have tail := ih fun candidate member => low candidate (by simp [member])
      simp [singleton, number, tail]

theorem ascii_of_units (transparent : AsciiTransparent code image)
    {scalars : List Char}
    (low : ∀ unit ∈ scalars.flatMap image, code unit < 0x80) :
    ∀ scalar ∈ scalars, scalar.toNat < 0x80 := by
  intro scalar member
  by_contra high
  obtain ⟨nonempty, large⟩ := transparent.other scalar (by omega)
  obtain ⟨unit, unitMember⟩ := List.exists_mem_of_ne_nil _ nonempty
  have small := low unit (List.mem_flatMap.mpr ⟨scalar, member, unitMember⟩)
  have := large unit unitMember
  omega

theorem image_ne_nil (transparent : AsciiTransparent code image)
    (scalar : Char) : image scalar ≠ [] := by
  by_cases low : scalar.toNat < 0x80
  · obtain ⟨unit, singleton, -⟩ := transparent.ascii scalar low
    simp [singleton]
  · exact (transparent.other scalar (by omega)).1

end AsciiTransparent

theorem utf8_asciiTransparent :
    AsciiTransparent UInt8.toNat String.utf8EncodeChar := by
  refine ⟨fun _ _ => UInt8.toNat_inj.mp, ?_, ?_⟩
  · intro scalar low
    unfold Char.toNat at low
    refine ⟨UInt8.ofNat scalar.val.toNat, ?_, ?_⟩
    · rw [String.utf8EncodeChar, if_pos (by omega)]
    · rw [UInt8.toNat_ofNat', Char.toNat]
      omega
  · intro scalar high
    refine ⟨utf8EncodeChar_ne_nil scalar, ?_⟩
    intro unit member
    unfold Char.toNat at high
    rw [String.utf8EncodeChar, if_neg (by omega)] at member
    split at member
    · simp only [List.mem_cons, List.not_mem_nil, or_false] at member
      rcases member with rfl | rfl <;> rw [UInt8.toNat_ofNat'] <;> omega
    split at member
    · simp only [List.mem_cons, List.not_mem_nil, or_false] at member
      rcases member with rfl | rfl | rfl <;> rw [UInt8.toNat_ofNat'] <;> omega
    · simp only [List.mem_cons, List.not_mem_nil, or_false] at member
      rcases member with rfl | rfl | rfl | rfl <;>
        rw [UInt8.toNat_ofNat'] <;> omega

theorem utf16_asciiTransparent :
    AsciiTransparent UInt16.toNat utf16Units := by
  refine ⟨fun _ _ => UInt16.toNat_inj.mp, ?_, ?_⟩
  · intro scalar low
    refine ⟨UInt16.ofNat scalar.toNat, ?_, ?_⟩
    · rw [utf16Units, if_pos (by omega)]
    · rw [UInt16.toNat_ofNat']
      omega
  · intro scalar high
    have bounds := scalar_bounds scalar
    unfold utf16Units
    split
    · refine ⟨by simp, ?_⟩
      intro unit member
      rw [List.mem_singleton] at member
      subst unit
      rw [UInt16.toNat_ofNat']
      omega
    · refine ⟨by simp, ?_⟩
      intro unit member
      simp only [List.mem_cons, List.not_mem_nil, or_false] at member
      rcases member with rfl | rfl <;> rw [UInt16.toNat_ofNat'] <;> omega

end Unicode
