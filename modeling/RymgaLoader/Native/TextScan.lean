import RymgaLoader.Native.Text
import Mathlib.Tactic.Ring

/-!
# Memory accesses of text validation

`text_field` of `rymga_loader.c` with its index, its 32-bit code points and
its reads: a read outside the object and a loop that does not end are faults.
The scan has no fault on a C string, and its answer is that of `textField`.
-/

namespace RymgaLoader.Native

open Protocol

inductive Fault where
  | outOfBounds
  | endless
  deriving DecidableEq, Repr

namespace TextScan

/-- A read through a pointer to an object. -/
def load (object : Bytes) (i : Nat) : Except Fault UInt8 :=
  match object[i]? with
  | none => .error .outOfBounds
  | some byte => .ok byte

/-- `strlen`, which reads up to the terminator. -/
def strlen (object : Bytes) : Nat → Nat → Except Fault Nat
  | 0, _ => .error .endless
  | turns + 1, n => do
      let byte ← load object n
      if byte = 0 then return n else strlen object turns (n + 1)

def lead (p : UInt8) : Option (UInt32 × Nat) :=
  if p < 0x80 then some (p.toUInt32, 0)
  else if p &&& 0xe0 = 0xc0 then some ((p &&& 0x1f).toUInt32, 1)
  else if p &&& 0xf0 = 0xe0 then some ((p &&& 0x0f).toUInt32, 2)
  else if p &&& 0xf8 = 0xf0 then some ((p &&& 0x07).toUInt32, 3)
  else none

/-- The loop over the continuation bytes: the index behind them and the code
point, unless a byte is no continuation. -/
def continuations (p : Bytes) :
    Nat → Nat → UInt32 → Except Fault (Option (Nat × UInt32))
  | 0, i, cp => return some (i, cp)
  | extra + 1, i, cp => do
      let byte ← load p i
      if byte &&& 0xc0 ≠ 0x80 then return none
      else
        let cp := cp <<< 6 ||| (byte &&& 0x3f).toUInt32
        continuations p extra (i + 1) cp

def rejected (extra : Nat) (cp : UInt32) : Bool :=
  (extra = 1 ∧ cp < 0x80) ∨ (extra = 2 ∧ cp < 0x800) ∨
    (extra = 3 ∧ cp < 0x10000) ∨ cp > 0x10ffff ∨
    (cp ≥ 0xd800 ∧ cp ≤ 0xdfff) ∨ cp < 0x20 ∨ (cp ≥ 0x7f ∧ cp ≤ 0x9f)

/-- One turn of the outer loop: the next index, unless the field is
refused. -/
def turn (p : Bytes) (n i : Nat) : Except Fault (Option Nat) := do
  let byte ← load p i
  match lead byte with
  | none => return none
  | some (bits, extra) =>
      if extra > n - (i + 1) then return none
      else
        match ← continuations p extra (i + 1) bits with
        | none => return none
        | some (next, cp) =>
            if rejected extra cp then return none else return some next

def loop (p : Bytes) (n : Nat) : Nat → Nat → Except Fault Bool
  | 0, i => if i < n then .error .endless else return true
  | turns + 1, i =>
      if i < n then do
        match ← turn p n i with
        | none => return false
        | some next => loop p n turns next
      else return true

/-- `text_field` on a pointer to an object.  Its loop may read the bytes that
`strlen` has counted and nothing behind them. -/
def textField (object : Option Bytes) (max : Nat) : Except Fault Bool :=
  match object with
  | none => return false
  | some object => do
      let n ← strlen object (object.length + 1) 0
      if n = 0 ∨ n > max then return false
      else loop (object.take n) n n 0

theorem ok_bind {α β : Type} (value : α) (next : α → Except Fault β) :
    (Except.ok value >>= next) = next value := rfl

theorem load_eq {object : Bytes} {i : Nat} {byte : UInt8} {rest : Bytes}
    (placed : object.drop i = byte :: rest) :
    load object i = .ok byte := by
  have found : object[i]? = some byte := by
    rw [← List.head?_drop, placed, List.head?_cons]
  simp [load, found]

theorem strlen_eq {text beyond : Bytes} (clean : (0 : UInt8) ∉ text) :
    ∀ {turns : Nat} {front back : Bytes}, text = front ++ back →
      back.length < turns →
      strlen (text ++ 0 :: beyond) turns front.length = .ok text.length := by
  intro turns
  induction turns with
  | zero =>
      intro front back split enough
      exact absurd enough (Nat.not_lt_zero _)
  | succ turns ih =>
      intro front back split enough
      cases back with
      | nil =>
          have placed : (text ++ 0 :: beyond).drop front.length =
              0 :: beyond := by simp [split]
          rw [strlen, load_eq placed, split, List.append_nil]
          rfl
      | cons byte back =>
          have placed : (text ++ 0 :: beyond).drop front.length =
              byte :: (back ++ 0 :: beyond) := by simp [split]
          have visible : byte ≠ 0 := by
            rintro rfl
            exact clean (by simp [split])
          have later := @ih (front ++ [byte]) back (by simp [split])
            (by simpa using enough)
          rw [List.length_append] at later
          rw [strlen, load_eq placed]
          simp only [bind, Except.bind, visible, if_false]
          exact later

theorem lead_eq (p : UInt8) :
    (lead p).map (Prod.map UInt32.toNat id) = leadByte p := by
  have masks (mask : UInt8) : (p &&& mask).toNat = p.toNat &&& mask.toNat :=
    UInt8.toNat_and p mask
  have same (mask byte : UInt8) :
      p &&& mask = byte ↔ p.toNat &&& mask.toNat = byte.toNat := by
    rw [← masks, UInt8.toNat_inj]
  unfold lead leadByte
  simp only [UInt8.lt_iff_toNat_lt, same, UInt8.reduceToNat]
  split
  · rfl
  split
  · rfl
  split
  · rfl
  split
  · rfl
  · rfl

/-- A code point that takes in `extra` more bytes stays within 26 bits. -/
def Roomy (extra : Nat) (cp : UInt32) : Prop :=
  (cp.toNat + 1) * 64 ^ extra ≤ 2 ^ 26

theorem lead_roomy {p : UInt8} {bits : UInt32} {extra : Nat}
    (leads : lead p = some (bits, extra)) : Roomy extra bits := by
  have image := lead_eq p
  rw [leads] at image
  unfold Roomy
  have known : leadByte p = some (bits.toNat, extra) := image.symm
  generalize bits.toNat = payload at known ⊢
  have byte := p.toNat_lt
  have five : p.toNat &&& 0x1f ≤ 0x1f := Nat.and_le_right
  have four : p.toNat &&& 0x0f ≤ 0x0f := Nat.and_le_right
  have three : p.toNat &&& 0x07 ≤ 0x07 := Nat.and_le_right
  unfold leadByte at known
  split at known
  · cases known
    omega
  split at known
  · cases known
    omega
  split at known
  · cases known
    omega
  split at known
  · cases known
    omega
  · cases known

theorem shift_roomy {extra : Nat} {cp : UInt32} {byte : UInt8}
    (roomy : Roomy (extra + 1) cp) :
    (cp <<< 6 ||| (byte &&& 0x3f).toUInt32).toNat =
        cp.toNat <<< 6 ||| (byte.toNat &&& 0x3f) ∧
      Roomy extra (cp <<< 6 ||| (byte &&& 0x3f).toUInt32) := by
  unfold Roomy at roomy ⊢
  rw [pow_succ] at roomy
  have positive : 1 ≤ 64 ^ extra := Nat.one_le_pow _ _ (by decide)
  have scaled : (cp.toNat + 1) * 64 ≤ (cp.toNat + 1) * (64 ^ extra * 64) :=
    Nat.mul_le_mul_left _ (by omega)
  have small : cp.toNat * 64 < 2 ^ 32 := by omega
  have shifted : (cp <<< 6).toNat = cp.toNat * 64 := by
    rw [UInt32.toNat_shiftLeft]
    simp only [UInt32.reduceToNat, Nat.reduceMod, Nat.shiftLeft_eq]
    exact Nat.mod_eq_of_lt small
  have low : byte.toNat &&& 0x3f < 2 ^ 6 := by
    have le : byte.toNat &&& 0x3f ≤ 0x3f := Nat.and_le_right
    omega
  have value : (cp <<< 6 ||| (byte &&& 0x3f).toUInt32).toNat =
      cp.toNat <<< 6 ||| (byte.toNat &&& 0x3f) := by
    rw [UInt32.toNat_or, shifted, UInt8.toNat_toUInt32, UInt8.toNat_and,
      Nat.shiftLeft_eq]
    rfl
  refine ⟨value, ?_⟩
  rw [value, ← Nat.shiftLeft_add_eq_or_of_lt low, Nat.shiftLeft_eq]
  calc (cp.toNat * 2 ^ 6 + (byte.toNat &&& 0x3f) + 1) * 64 ^ extra
      ≤ ((cp.toNat + 1) * 64) * 64 ^ extra :=
        Nat.mul_le_mul_right _ (by omega)
    _ = (cp.toNat + 1) * (64 ^ extra * 64) := by ring
    _ ≤ 2 ^ 26 := roomy

theorem rejected_eq (extra : Nat) (cp : UInt32) :
    rejected extra cp = rejectedCodePoint extra cp.toNat := by
  simp only [rejected, rejectedCodePoint, UInt32.lt_iff_toNat_lt,
    UInt32.le_iff_toNat_le, gt_iff_lt, ge_iff_le, UInt32.reduceToNat]

theorem continuations_eq {p : Bytes} {extra i : Nat} {cp : UInt32}
    (roomy : Roomy extra cp) (inside : i + extra ≤ p.length) :
    ∃ result, continuations p extra i cp = .ok result ∧
      result.map (Prod.map id UInt32.toNat) =
        (continuation cp.toNat ((p.drop i).take extra)).map
          (Prod.mk (i + extra)) := by
  induction extra generalizing i cp with
  | zero => exact ⟨some (i, cp), rfl, rfl⟩
  | succ extra ih =>
      have placed : p.drop i = p[i] :: p.drop (i + 1) :=
        List.drop_eq_getElem_cons (by omega)
      obtain ⟨value, roomy'⟩ := @shift_roomy extra cp p[i] roomy
      have mask : p[i] &&& 0xc0 = 0x80 ↔ p[i].toNat &&& 0xc0 = 0x80 := by
        rw [← UInt8.toNat_inj, UInt8.toNat_and]
        rfl
      rw [continuations, load_eq placed, placed, List.take_succ_cons,
        continuation]
      by_cases continues : p[i].toNat &&& 0xc0 = 0x80
      · obtain ⟨result, scanned, image⟩ := ih roomy'
          (show i + 1 + extra ≤ p.length by omega)
        refine ⟨result, ?_, ?_⟩
        · simpa [mask, continues, bind, Except.bind] using scanned
        · rw [if_neg (by simpa using continues), ← value, image,
            Nat.add_assoc, Nat.add_comm 1 extra]
      · refine ⟨none, ?_, ?_⟩
        · simp [mask, continues, bind, Except.bind, pure, Except.pure]
        · rw [if_pos continues]
          rfl

/-- The reads of one turn: how many continuation bytes there are, the index
behind them and the code point. -/
def sequence (p : Bytes) (n i : Nat) :
    Except Fault (Option (Nat × Nat × UInt32)) := do
  let byte ← load p i
  match lead byte with
  | none => return none
  | some (bits, extra) =>
      if extra > n - (i + 1) then return none
      else
        match ← continuations p extra (i + 1) bits with
        | none => return none
        | some (next, cp) => return some (extra, next, cp)

theorem turn_sequence (p : Bytes) (n i : Nat) :
    turn p n i = (do
      match ← sequence p n i with
      | none => return none
      | some (extra, next, cp) =>
          if rejected extra cp then return none else return some next) := by
  unfold turn sequence
  cases load p i with
  | error fault => rfl
  | ok byte =>
      simp only [bind, Except.bind]
      cases lead byte with
      | none => rfl
      | some found =>
          obtain ⟨bits, extra⟩ := found
          simp only
          split
          · rfl
          cases continuations p extra (i + 1) bits with
          | error fault => rfl
          | ok result =>
              cases result with
              | none => rfl
              | some last => rfl

/-- Inside the counted bytes the reads have no fault and are those of a
decoding step. -/
theorem sequence_eq {p : Bytes} {i : Nat} (inside : i < p.length) :
    ∃ result, sequence p p.length i = .ok result ∧
      result.map (Prod.map id (Prod.map id UInt32.toNat)) =
        leadStep (fun extra cp rest =>
          some (extra, p.length - rest.length, cp)) (p.drop i) := by
  have placed : p.drop i = p[i] :: p.drop (i + 1) :=
    List.drop_eq_getElem_cons inside
  have image := lead_eq p[i]
  rw [sequence, load_eq placed, placed, leadStep]
  cases leads : lead p[i] with
  | none =>
      rw [leads] at image
      rw [← image]
      exact ⟨none, by simp [bind, Except.bind, leads, pure, Except.pure], rfl⟩
  | some found =>
      obtain ⟨bits, extra⟩ := found
      rw [leads] at image
      rw [← image]
      simp only [bind, Except.bind, leads, Option.map_some, Prod.map,
        id_eq, List.length_drop]
      by_cases short : extra > p.length - (i + 1)
      · exact ⟨none, by simp [short, pure, Except.pure], by simp [short]⟩
      · obtain ⟨result, scanned, value⟩ := continuations_eq
          (p := p) (i := i + 1) (lead_roomy leads) (by omega)
        simp only [short, if_false, scanned]
        cases known : continuation bits.toNat
            ((p.drop (i + 1)).take extra) with
        | none =>
            rw [known, Option.map_none, Option.map_eq_none_iff] at value
            rw [value]
            exact ⟨none, rfl, rfl⟩
        | some code =>
            rw [known, Option.map_some, Option.map_eq_some_iff] at value
            obtain ⟨⟨next, cp⟩, rfl, same⟩ := value
            cases same
            have behind : p.length - (p.length - (i + 1) - extra) =
                i + 1 + extra := by omega
            refine ⟨some (extra, i + 1 + extra, cp), rfl, ?_⟩
            simp [behind]

theorem textFieldStep_sequence (bytes : Bytes) (length : Nat) :
    (textFieldStep bytes).map (fun rest => length - rest.length) =
      (leadStep (fun extra cp rest =>
        some (extra, length - rest.length, cp)) bytes).bind
        fun (extra, next, cp) =>
          if rejectedCodePoint extra cp then none else some next := by
  rw [textFieldStep_leadStep, Option.map_eq_bind, leadStep_bind,
    leadStep_bind]
  congr 1
  funext extra cp rest
  simp only [Option.bind_some]
  split
  · rfl
  · rfl

theorem turn_eq {p : Bytes} {i : Nat} (inside : i < p.length) :
    turn p p.length i = .ok ((textFieldStep (p.drop i)).map
      fun rest => p.length - rest.length) := by
  obtain ⟨result, scanned, image⟩ := sequence_eq inside
  rw [turn_sequence, scanned, textFieldStep_sequence, ← image]
  cases result with
  | none => rfl
  | some found =>
      obtain ⟨extra, next, cp⟩ := found
      simp only [bind, Except.bind, rejected_eq, Option.map_some,
        Option.bind_some, Prod.map, id_eq]
      split
      · rfl
      · rfl

theorem textFieldStep_length_lt {bytes rest : Bytes}
    (step : textFieldStep bytes = some rest) : rest.length < bytes.length := by
  obtain ⟨scalar, rfl, -⟩ := textFieldStep_eq_some_iff.mp step
  have positive := List.length_pos_iff.mpr
    (Unicode.utf8EncodeChar_ne_nil scalar)
  rw [List.length_append]
  omega

/-- What a step leaves is the end of what it was given. -/
theorem textFieldStep_suffix {bytes rest : Bytes}
    (step : textFieldStep bytes = some rest) : rest <:+ bytes := by
  obtain ⟨scalar, rfl, -⟩ := textFieldStep_eq_some_iff.mp step
  exact List.suffix_append _ _

theorem loop_eq {p : Bytes} {turns i : Nat} (enough : p.length - i ≤ turns) :
    loop p p.length turns i = .ok (textFieldLoop turns (p.drop i)) := by
  induction turns generalizing i with
  | zero =>
      have done : p.length ≤ i := by omega
      rw [loop, if_neg (by omega), List.drop_eq_nil_of_le done]
      rfl
  | succ turns ih =>
      by_cases inside : i < p.length
      · have placed : p.drop i = p[i] :: p.drop (i + 1) :=
          List.drop_eq_getElem_cons inside
        rw [loop, if_pos inside, turn_eq inside]
        cases step : textFieldStep (p.drop i) with
        | none =>
            have stops : textFieldLoop (turns + 1) (p.drop i) = false := by
              rw [placed] at step ⊢
              rw [textFieldLoop, step]
            rw [stops]
            rfl
        | some rest =>
            have fewer := textFieldStep_length_lt step
            have tail := List.suffix_iff_eq_drop.mp
              ((textFieldStep_suffix step).trans (List.drop_suffix i p))
            rw [List.length_drop] at fewer
            have later := @ih (p.length - rest.length) (by omega)
            rw [← tail] at later
            have goes : textFieldLoop (turns + 1) (p.drop i) =
                textFieldLoop turns rest := by
              rw [placed] at step ⊢
              rw [textFieldLoop, step]
            rw [goes]
            exact later
      · have done : p.length ≤ i := by omega
        rw [loop, if_neg inside, List.drop_eq_nil_of_le done]
        rfl

/-- On a C string the scan has no fault, whatever stands behind the
terminator, and gives the answer of `textField`. -/
theorem textField_eq {text : Bytes} (clean : (0 : UInt8) ∉ text)
    (beyond : Bytes) (max : Nat) :
    textField (some (text ++ 0 :: beyond)) max =
      .ok (Native.textField (some text) max) := by
  have counted := @strlen_eq text beyond clean
    ((text ++ 0 :: beyond).length + 1) [] text rfl (by
      rw [List.length_append]
      omega)
  rw [List.length_nil] at counted
  simp only [textField, Native.textField, counted, bind, Except.bind]
  split
  · rfl
  · rw [List.take_left, loop_eq (Nat.sub_le _ _), List.drop_zero]

end TextScan

end RymgaLoader.Native
