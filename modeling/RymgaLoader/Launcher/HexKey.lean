import RymgaLoader.Launcher.CommandLine
import RymgaLoader.Lib.Hex
import RymgaLoader.Lib.Scan
import RymgaLoader.Protocol.Fields

/-!
# Trusted keys in hexadecimal

The three functions called `hex_key`: the two launchers hand each pair of
characters to `strtoul`, the JNI bridge reads the digits itself.  A C string is
the list of its bytes before the terminator, and one that may be `NULL` is an
optional one.
-/

namespace RymgaLoader.Launcher

def isHexDigit (byte : UInt8) : Bool := (Hex.value byte).isSome

/-- An optional `0x` counts only in front of a digit. -/
def skipRadix : Bytes → Bytes
  | 0x30 :: letter :: next :: rest =>
      if (letter = 0x78 ∨ letter = 0x58) ∧ isHexDigit next then next :: rest
      else 0x30 :: letter :: next :: rest
  | text => text

def hexMagnitude (digits : Bytes) : Nat :=
  digits.foldl (fun value digit => 16 * value + (Hex.value digit).getD 0) 0

/-- `strtoul` in base 16 for an `unsigned long` of this many bits: the value
and what follows the number, which is everything where there is no number. -/
def strtoul (width : Nat) (text : Bytes) : Nat × Bytes :=
  let (negative, rest) := Scan.scanSign (Scan.skipSpace text)
  let rest := skipRadix rest
  let digits := rest.takeWhile isHexDigit
  if digits = [] then (0, text)
  else
    let magnitude := hexMagnitude digits
    (if magnitude ≥ 2 ^ width then 2 ^ width - 1
      else if negative then (2 ^ width - magnitude) % 2 ^ width
      else magnitude, rest.dropWhile isHexDigit)

/-- The pairs of characters of a text. -/
def pairsOf : Bytes → List (UInt8 × UInt8)
  | high :: low :: rest => (high, low) :: pairsOf rest
  | _ => []

/-- The loop of `hex_key`, by what it makes of a pair. -/
def hexKeyWith (readPair : UInt8 → UInt8 → Option UInt8)
    (text : Option Bytes) : Option Bytes :=
  match text with
  | none => none
  | some text =>
      if text.length ≠ 64 then none
      else (pairsOf text).mapM fun pair => readPair pair.1 pair.2

/-- A pair in the launchers. -/
def strtoulPair (width : Nat) (high low : UInt8) : Option UInt8 :=
  let (value, rest) := strtoul width [high, low]
  if rest ≠ [] ∨ value > 255 then none else some (UInt8.ofNat value)

namespace Posix

def hexKey (text : Option Bytes) : Option Bytes :=
  hexKeyWith (strtoulPair 64) text

end Posix

namespace Windows

def hexKey (text : Option Bytes) : Option Bytes :=
  hexKeyWith (strtoulPair 32) text

end Windows

namespace Jni

def digit (character : UInt8) : Int :=
  if 0x30 ≤ character ∧ character ≤ 0x39 then character.toNat - 0x30
  else if 0x61 ≤ character ∧ character ≤ 0x66 then character.toNat - 0x61 + 10
  else if 0x41 ≤ character ∧ character ≤ 0x46 then character.toNat - 0x41 + 10
  else -1

def readPair (high low : UInt8) : Option UInt8 :=
  if digit high < 0 ∨ digit low < 0 then none
  else some (UInt8.ofNat ((digit high).toNat <<< 4 ||| (digit low).toNat))

def hexKey (text : Option Bytes) : Option Bytes := hexKeyWith readPair text

end Jni

/-- Two hexadecimal digits. -/
def plainPair (high low : UInt8) : Bool := isHexDigit high && isHexDigit low

/-- A pair that `strtoul` also takes for a byte: a digit after white space or
a plus sign, and minus zero. -/
def loosePair (high low : UInt8) : Bool :=
  (Scan.isSpace high || high = 0x2B) && isHexDigit low ||
    (high = 0x2D && low = 0x30)

/-- The byte two digits stand for. -/
def pairByte (high low : UInt8) : UInt8 :=
  UInt8.ofNat (16 * (Hex.value high).getD 0 + (Hex.value low).getD 0)

/-- A fact about bytes that is checked for every code. -/
theorem forall_byte {holds : UInt8 → Prop}
    (codes : ∀ code < 256, holds (UInt8.ofNat code)) (byte : UInt8) :
    holds byte := by
  have known := codes byte.toNat byte.toNat_lt
  rwa [UInt8.ofNat_toNat] at known

theorem hexValue_lt : ∀ byte : UInt8, (Hex.value byte).getD 0 < 16 :=
  forall_byte (by decide +kernel)

theorem not_space_of_isHexDigit : ∀ byte : UInt8, isHexDigit byte = true →
    Scan.isSpace byte = false ∧ byte ≠ 0x2B ∧ byte ≠ 0x2D :=
  forall_byte (by decide +kernel)

theorem hexValue_eq_zero_iff : ∀ byte : UInt8, isHexDigit byte = true →
    ((Hex.value byte).getD 0 = 0 ↔ byte = 0x30) :=
  forall_byte (by decide +kernel)

theorem scanSign_of_ne {byte : UInt8} {rest : Bytes} (plus : byte ≠ 0x2B)
    (minus : byte ≠ 0x2D) :
    Scan.scanSign (byte :: rest) = (false, byte :: rest) := by
  unfold Scan.scanSign
  split
  · rename_i same
    cases same
    exact absurd rfl minus
  · rename_i same
    cases same
    exact absurd rfl plus
  · rfl

theorem skipRadix_short {text : Bytes} (short : text.length ≤ 2) :
    skipRadix text = text := by
  unfold skipRadix
  split
  · simp at short
  · rfl

/-- What a launcher makes of a pair of which `rest` is left after white space
and a sign. -/
def pairRest (negative : Bool) (rest : Bytes) : Option UInt8 :=
  let digits := rest.takeWhile isHexDigit
  let magnitude := hexMagnitude digits
  if digits = [] ∨ rest.dropWhile isHexDigit ≠ [] then none
  else if negative = true ∧ magnitude ≠ 0 then none
  else some (UInt8.ofNat magnitude)

private theorem hexMagnitude_lt {digits : Bytes}
    (short : digits.length ≤ 2) : hexMagnitude digits < 256 := by
  match digits with
  | [] => decide
  | [low] =>
      have := hexValue_lt low
      simp only [hexMagnitude, List.foldl_cons, List.foldl_nil]
      omega
  | [high, low] =>
      have := hexValue_lt high
      have := hexValue_lt low
      simp only [hexMagnitude, List.foldl_cons, List.foldl_nil]
      omega
  | _ :: _ :: _ :: _ => simp at short

theorem strtoulPair_of_scan {width : Nat} {high low : UInt8}
    {negative : Bool} {rest : Bytes} (wide : 512 ≤ 2 ^ width)
    (scanned : Scan.scanSign (Scan.skipSpace [high, low]) = (negative, rest))
    (short : rest.length ≤ 2) :
    strtoulPair width high low = pairRest negative rest := by
  have small : hexMagnitude (rest.takeWhile isHexDigit) < 256 :=
    hexMagnitude_lt (Nat.le_trans (List.takeWhile_prefix _).length_le short)
  simp only [strtoulPair, strtoul, scanned, skipRadix_short short, pairRest]
  generalize magnitude : hexMagnitude (rest.takeWhile isHexDigit) = value
    at small ⊢
  by_cases nothing : rest.takeWhile isHexDigit = []
  · simp [nothing]
  · rw [if_neg nothing, if_neg (show ¬value ≥ 2 ^ width by omega)]
    by_cases more : rest.dropWhile isHexDigit = []
    · cases negative with
      | false =>
          have bounded : ¬value > 255 := by omega
          simp [nothing, more, bounded]
      | true =>
          by_cases zero : value = 0
          · simp [nothing, more, zero]
          · have wrapped : (2 ^ width - value) % 2 ^ width =
                2 ^ width - value := Nat.mod_eq_of_lt (by omega)
            have large : 2 ^ width - value > 255 := by omega
            simp only [if_true, wrapped]
            simp [nothing, more, zero, large]
    · simp [nothing, more]

private theorem pairRest_single (negative : Bool) (low : UInt8) :
    pairRest negative [low] =
      if isHexDigit low ∧ (negative = true → low = 0x30) then
        some (pairByte 0x30 low)
      else none := by
  cases digit : isHexDigit low with
  | false => simp [pairRest, digit]
  | true =>
      have zero := hexValue_eq_zero_iff low digit
      have magnitude : hexMagnitude [low] = (Hex.value low).getD 0 := by
        simp [hexMagnitude]
      have byte : pairByte 0x30 low =
          UInt8.ofNat ((Hex.value low).getD 0) := by
        simp [pairByte, show Hex.value 0x30 = some 0 from rfl]
      simp only [pairRest, List.takeWhile_cons, List.takeWhile_nil,
        List.dropWhile_cons, List.dropWhile_nil, digit, if_true, magnitude,
        byte]
      cases negative with
      | false => simp
      | true =>
          by_cases same : low = 0x30
          · subst same
            simp [zero.mpr rfl]
          · simp [mt zero.mp same, same]

private theorem pairRest_double (high low : UInt8) :
    pairRest false [high, low] =
      if plainPair high low then some (pairByte high low) else none := by
  cases first : isHexDigit high with
  | false => simp [pairRest, plainPair, first]
  | true =>
      cases second : isHexDigit low with
      | false => simp [pairRest, plainPair, first, second]
      | true =>
          simp [pairRest, plainPair, first, second, hexMagnitude, pairByte]

/-- A launcher takes the plain pairs and the loose ones. -/
theorem strtoulPair_eq {width : Nat} (wide : 512 ≤ 2 ^ width)
    (high low : UInt8) :
    strtoulPair width high low =
      if plainPair high low then some (pairByte high low)
      else if loosePair high low then some (pairByte 0x30 low)
      else none := by
  cases blank : Scan.isSpace high with
  | true =>
      have notDigit : isHexDigit high = false := by
        cases digit : isHexDigit high with
        | false => rfl
        | true =>
            rw [(not_space_of_isHexDigit high digit).1] at blank
            cases blank
      have notMinus : high ≠ 0x2D := by
        rintro rfl
        exact absurd blank (by decide)
      have blankRest : Scan.skipSpace [high, low] = Scan.skipSpace [low] := by
        simp [Scan.skipSpace, List.dropWhile_cons, blank]
      have expected : (if plainPair high low then some (pairByte high low)
          else if loosePair high low then some (pairByte 0x30 low)
          else none) =
          if isHexDigit low then some (pairByte 0x30 low) else none := by
        simp [plainPair, loosePair, notDigit, blank, notMinus]
      rw [expected]
      cases digit : isHexDigit low with
      | true =>
          obtain ⟨visible, notPlus, notMinus⟩ :=
            not_space_of_isHexDigit low digit
          have scanned : Scan.scanSign (Scan.skipSpace [high, low]) =
              (false, [low]) := by
            rw [blankRest]
            simp only [Scan.skipSpace, List.dropWhile_cons, visible]
            exact scanSign_of_ne notPlus notMinus
          rw [strtoulPair_of_scan wide scanned (by simp), pairRest_single]
          simp [digit]
      | false =>
          by_cases sign : low = 0x2B ∨ low = 0x2D ∨ Scan.isSpace low = true
          · have scanned : ∃ negative, Scan.scanSign
                (Scan.skipSpace [high, low]) = (negative, []) := by
              rw [blankRest]
              rcases sign with rfl | rfl | space
              · exact ⟨false, rfl⟩
              · exact ⟨true, rfl⟩
              · refine ⟨false, ?_⟩
                simp [Scan.skipSpace, space, Scan.scanSign]
            obtain ⟨negative, scanned⟩ := scanned
            rw [strtoulPair_of_scan wide scanned (by simp)]
            simp [pairRest]
          · simp only [not_or, Bool.not_eq_true] at sign
            have scanned : Scan.scanSign (Scan.skipSpace [high, low]) =
                (false, [low]) := by
              rw [blankRest]
              simp only [Scan.skipSpace, List.dropWhile_cons, sign.2.2]
              exact scanSign_of_ne sign.1 sign.2.1
            rw [strtoulPair_of_scan wide scanned (by simp), pairRest_single]
            simp [digit]
  | false =>
      have kept : Scan.skipSpace [high, low] = [high, low] := by
        simp [Scan.skipSpace, blank]
      by_cases plus : high = 0x2B
      · subst plus
        have scanned : Scan.scanSign (Scan.skipSpace [0x2B, low]) =
            (false, [low]) := by
          rw [kept]
          rfl
        rw [strtoulPair_of_scan wide scanned (by simp), pairRest_single]
        have notDigit : isHexDigit 0x2B = false := by decide
        cases digit : isHexDigit low <;> simp [plainPair, loosePair, notDigit,
          digit]
      by_cases minus : high = 0x2D
      · subst minus
        have scanned : Scan.scanSign (Scan.skipSpace [0x2D, low]) =
            (true, [low]) := by
          rw [kept]
          rfl
        rw [strtoulPair_of_scan wide scanned (by simp), pairRest_single]
        have notDigit : isHexDigit 0x2D = false := by decide
        have zeroDigit : isHexDigit 0x30 = true := by decide
        by_cases zero : low = 0x30
        · subst zero
          simp [plainPair, loosePair, notDigit, zeroDigit]
        · simp [plainPair, loosePair, notDigit, zero, blank]
      · have scanned : Scan.scanSign (Scan.skipSpace [high, low]) =
            (false, [high, low]) := by
          rw [kept]
          exact scanSign_of_ne plus minus
        rw [strtoulPair_of_scan wide scanned (by simp), pairRest_double]
        simp [loosePair, blank, plus, minus]

/-- The JNI bridge takes the plain pairs. -/
theorem Jni.readPair_eq (high low : UInt8) :
    Jni.readPair high low =
      if plainPair high low then some (pairByte high low) else none := by
  have digit : ∀ character : UInt8, Jni.digit character =
      ((Hex.value character).map Int.ofNat).getD (-1) :=
    forall_byte (by decide +kernel)
  have upperDigit := digit high
  have lowerDigit := digit low
  cases first : Hex.value high with
  | none =>
      rw [first] at upperDigit
      simp [Jni.readPair, upperDigit, plainPair, isHexDigit, first]
  | some upper =>
      rw [first] at upperDigit
      cases second : Hex.value low with
      | none =>
          rw [second] at lowerDigit
          simp [Jni.readPair, lowerDigit, plainPair, isHexDigit, second]
      | some lower =>
          rw [second] at lowerDigit
          have small : lower < 2 ^ 4 := by
            have bound := hexValue_lt low
            rwa [second] at bound
          have shifted : upper <<< 4 ||| lower = 16 * upper + lower := by
            rw [← Nat.shiftLeft_add_eq_or_of_lt small, Nat.shiftLeft_eq]
            omega
          simp [Jni.readPair, upperDigit, lowerDigit, plainPair, isHexDigit,
            pairByte, first, second, shifted]

/-- The key that 64 hexadecimal digits stand for, pair by pair. -/
def strictKey (text : Bytes) : Option Bytes :=
  if text.length = 64 ∧ ∀ character ∈ text, isHexDigit character = true then
    some ((pairsOf text).map fun pair => pairByte pair.1 pair.2)
  else none

/-- The three parsers agree on this text: they take 64 hexadecimal digits and
nothing else. -/
structure Agree (text : Bytes) : Prop where
  posix : Posix.hexKey (some text) = strictKey text
  windows : Windows.hexKey (some text) = strictKey text
  jni : Jni.hexKey (some text) = strictKey text

/-- A text of 32 pairs that `strtoul` takes for bytes, not all of them plain. -/
structure LooseKey (text : Bytes) : Prop where
  length : text.length = 64
  taken : ∀ pair ∈ pairsOf text,
    plainPair pair.1 pair.2 = true ∨ loosePair pair.1 pair.2 = true
  loose : ∃ pair ∈ pairsOf text, loosePair pair.1 pair.2 = true

theorem plainPair_eq_false_of_loose {high low : UInt8}
    (loose : loosePair high low = true) : plainPair high low = false := by
  cases digit : isHexDigit high with
  | false => simp [plainPair, digit]
  | true =>
      obtain ⟨visible, plus, minus⟩ := not_space_of_isHexDigit high digit
      simp [loosePair, visible, plus, minus] at loose

theorem forall_mem_pairsOf {text : Bytes} (even : text.length % 2 = 0) :
    (∀ character ∈ text, isHexDigit character = true) ↔
      ∀ pair ∈ pairsOf text, plainPair pair.1 pair.2 = true := by
  induction text using pairsOf.induct with
  | case1 high low rest ih =>
      have rest := ih (by simp only [List.length_cons] at even; omega)
      simp only [pairsOf, List.forall_mem_cons, rest, plainPair,
        Bool.and_eq_true, and_assoc]
  | case2 text short =>
      match text with
      | [] => simp [pairsOf]
      | [character] => simp at even
      | high :: low :: rest => exact absurd rfl (short high low rest)

private theorem mapM_eq_some {readPair : UInt8 → UInt8 → Option UInt8}
    {pairs : List (UInt8 × UInt8)} {byte : UInt8 × UInt8 → UInt8}
    (reads : ∀ pair ∈ pairs, readPair pair.1 pair.2 = some (byte pair)) :
    (pairs.mapM fun pair => readPair pair.1 pair.2) =
      some (pairs.map byte) := by
  induction pairs with
  | nil => rfl
  | cons pair pairs ih =>
      have first := reads pair List.mem_cons_self
      have rest := ih fun other member =>
        reads other (List.mem_cons_of_mem pair member)
      rw [List.mapM_cons, first, rest]
      rfl

private theorem mapM_eq_none {readPair : UInt8 → UInt8 → Option UInt8}
    {pairs : List (UInt8 × UInt8)} {pair : UInt8 × UInt8}
    (member : pair ∈ pairs) (refused : readPair pair.1 pair.2 = none) :
    (pairs.mapM fun pair => readPair pair.1 pair.2) = none := by
  induction pairs with
  | nil => cases member
  | cons first pairs ih =>
      rw [List.mapM_cons]
      rcases List.mem_cons.mp member with rfl | later
      · rw [refused]
        rfl
      · rw [ih later]
        cases readPair first.1 first.2 <;> rfl

/-- A parser that takes the plain pairs, and pairs that do not occur, is
right. -/
private theorem hexKeyWith_eq {readPair : UInt8 → UInt8 → Option UInt8}
    {text : Bytes} (length : text.length = 64)
    (plain : ∀ high low, plainPair high low = true →
      readPair high low = some (pairByte high low))
    (other : (∀ pair ∈ pairsOf text, plainPair pair.1 pair.2 = true) ∨
      ∃ pair ∈ pairsOf text, plainPair pair.1 pair.2 = false ∧
        readPair pair.1 pair.2 = none) :
    hexKeyWith readPair (some text) = strictKey text := by
  have digits := @forall_mem_pairsOf text (by rw [length])
  simp only [hexKeyWith, length, strictKey, ne_eq, not_true, if_false, true_and]
  rcases other with all | ⟨pair, member, different, refused⟩
  · rw [if_pos (digits.mpr all)]
    exact mapM_eq_some fun pair member => plain _ _ (all pair member)
  · rw [if_neg, mapM_eq_none member refused]
    intro all
    have same := digits.mp all pair member
    rw [different] at same
    cases same

/-- The parsers agree on every text except those in which `strtoul` skips
white space or takes a sign in some pair and a byte in every pair. -/
theorem hexKeys_agree_iff (text : Bytes) : Agree text ↔ ¬LooseKey text := by
  have wide64 : 512 ≤ 2 ^ 64 := by decide
  have wide32 : 512 ≤ 2 ^ 32 := by decide
  constructor
  · rintro agree ⟨length, taken, pair, member, loose⟩
    have read : Posix.hexKey (some text) = some ((pairsOf text).map fun pair =>
        if plainPair pair.1 pair.2 then pairByte pair.1 pair.2
        else pairByte 0x30 pair.2) := by
      simp only [Posix.hexKey, hexKeyWith, length, ne_eq, not_true, if_false]
      refine mapM_eq_some fun pair member => ?_
      rw [strtoulPair_eq wide64]
      rcases taken pair member with plain | loose
      · simp [plain]
      · simp [plainPair_eq_false_of_loose loose, loose]
    have different := plainPair_eq_false_of_loose loose
    have refused : strictKey text = none := by
      rw [strictKey, if_neg]
      rintro ⟨-, digits⟩
      have plain := (forall_mem_pairsOf (by rw [length])).mp digits pair member
      rw [different] at plain
      cases plain
    rw [agree.posix, refused] at read
    cases read
  · intro strict
    by_cases length : text.length = 64
    · have plain64 : ∀ high low, plainPair high low = true →
          strtoulPair 64 high low = some (pairByte high low) := by
        intro high low plain
        simp [strtoulPair_eq wide64, plain]
      have plain32 : ∀ high low, plainPair high low = true →
          strtoulPair 32 high low = some (pairByte high low) := by
        intro high low plain
        simp [strtoulPair_eq wide32, plain]
      have plainJni : ∀ high low, plainPair high low = true →
          Jni.readPair high low = some (pairByte high low) := by
        intro high low plain
        simp [Jni.readPair_eq, plain]
      by_cases all : ∀ pair ∈ pairsOf text, plainPair pair.1 pair.2 = true
      · exact ⟨hexKeyWith_eq length plain64 (Or.inl all),
          hexKeyWith_eq length plain32 (Or.inl all),
          hexKeyWith_eq length plainJni (Or.inl all)⟩
      · have refused : ∃ pair ∈ pairsOf text,
            plainPair pair.1 pair.2 = false ∧
              loosePair pair.1 pair.2 = false := by
          by_contra none
          have every : ∀ pair ∈ pairsOf text,
              plainPair pair.1 pair.2 = true ∨
                loosePair pair.1 pair.2 = true := by
            intro pair member
            by_contra neither
            simp only [not_or, Bool.not_eq_true] at neither
            exact none ⟨pair, member, neither⟩
          refine strict ⟨length, every, ?_⟩
          by_contra noLoose
          refine all fun pair member => ?_
          refine (every pair member).resolve_right fun loose => ?_
          exact noLoose ⟨pair, member, loose⟩
        obtain ⟨pair, member, different, tight⟩ := refused
        refine ⟨hexKeyWith_eq length plain64 (Or.inr ⟨pair, member, different,
            ?_⟩), hexKeyWith_eq length plain32 (Or.inr ⟨pair, member,
            different, ?_⟩), hexKeyWith_eq length plainJni (Or.inr ⟨pair,
            member, different, ?_⟩)⟩
        · simp [strtoulPair_eq wide64, different, tight]
        · simp [strtoulPair_eq wide32, different, tight]
        · simp [Jni.readPair_eq, different]
    · constructor
      · simp [Posix.hexKey, hexKeyWith, strictKey, length]
      · simp [Windows.hexKey, hexKeyWith, strictKey, length]
      · simp [Jni.hexKey, hexKeyWith, strictKey, length]

/-- A key whose first pair is a blank and a digit. -/
def blankKey : Bytes := 0x20 :: List.replicate 63 0x31

theorem hexKeys_disagree : ¬Agree blankKey := by
  intro agree
  have taken : (Posix.hexKey (some blankKey)).isSome = true := by
    decide +kernel
  rw [agree.posix] at taken
  exact absurd taken (by decide +kernel)

end RymgaLoader.Launcher
