import Mathlib.Data.List.Basic

/-!
# Command lines of the Microsoft C runtime

How the runtime splits a command line into arguments, and the quoting that it
undoes.  The program name is delimited by quotes without escapes.  Elsewhere a
run of backslashes is special only before a quote, and a doubled quote inside
a quoted part is a literal one.
-/

namespace WindowsArguments

abbrev Wide := List UInt16

def backslash : UInt16 := 0x5C

def quote : UInt16 := 0x22

def blank (character : UInt16) : Bool := character = 0x20 ∨ character = 0x09

/-- The program name and what follows it. -/
def scanProgram : Bool → Wide → Wide × Wide
  | _, [] => ([], [])
  | inQuotes, character :: rest =>
      if character = quote then scanProgram (!inQuotes) rest
      else if !inQuotes && blank character then ([], character :: rest)
      else
        let (program, rest) := scanProgram inQuotes rest
        (character :: program, rest)

/-- Where a scan stands: outside or inside a quoted part, or right after the
quote that closed one. -/
inductive Mode
  | outside
  | inside
  | closed
  deriving DecidableEq, Repr

/-- A further character ends the chance of a doubled quote. -/
def Mode.settled : Mode → Mode
  | .inside => .inside
  | _ => .outside

/-- Put characters in front of the argument that was scanned. -/
def prepend (text : Wide) (scanned : Wide × Wide) : Wide × Wide :=
  (text ++ scanned.1, scanned.2)

/-- One argument and what follows it, after a number of backslashes.  A quote
that follows a closing quote is literal and the part goes on. -/
def scanArgument : Mode → Nat → Wide → Wide × Wide
  | _, slashes, [] => (List.replicate slashes backslash, [])
  | mode, slashes, character :: rest =>
      if character = backslash then
        scanArgument mode.settled (slashes + 1) rest
      else if character = quote then
        if slashes % 2 = 0 then
          match mode with
          | .outside => prepend (List.replicate (slashes / 2) backslash)
              (scanArgument .inside 0 rest)
          | .inside => prepend (List.replicate (slashes / 2) backslash)
              (scanArgument .closed 0 rest)
          | .closed => prepend
              (List.replicate (slashes / 2) backslash ++ [quote])
              (scanArgument .inside 0 rest)
        else prepend (List.replicate (slashes / 2) backslash ++ [quote])
          (scanArgument mode 0 rest)
      else if mode ≠ .inside ∧ blank character then
        (List.replicate slashes backslash, character :: rest)
      else prepend (List.replicate slashes backslash ++ [character])
        (scanArgument mode.settled 0 rest)

/-- The arguments; as many rounds as characters suffice. -/
def scanArguments : Nat → Wide → List Wide
  | 0, _ => []
  | rounds + 1, line =>
      match line.dropWhile blank with
      | [] => []
      | character :: rest =>
          let (argument, rest) := scanArgument .outside 0 (character :: rest)
          argument :: scanArguments rounds rest

def split (line : Wide) : List Wide :=
  let (program, rest) := scanProgram false line
  program :: scanArguments rest.length rest

/-- The characters of an argument between its quotes, after a number of
backslashes. -/
def escapeFrom : Nat → Wide → Wide
  | slashes, [] => List.replicate (slashes * 2) backslash
  | slashes, character :: rest =>
      if character = backslash then escapeFrom (slashes + 1) rest
      else if character = quote then
        List.replicate (slashes * 2 + 1) backslash ++
          quote :: escapeFrom 0 rest
      else List.replicate slashes backslash ++ character :: escapeFrom 0 rest

def quoted (argument : Wide) : Wide :=
  quote :: (escapeFrom 0 argument ++ [quote])

/-- The arguments after the program, each after a space. -/
def joinedTail (arguments : List Wide) : Wide :=
  arguments.flatMap fun argument => 0x20 :: quoted argument

/-- Quoting adds only quotes and backslashes. -/
theorem mem_of_mem_escapeFrom {character : UInt16} {slashes : Nat}
    {argument : Wide} (notSlash : character ≠ backslash)
    (member : character ∈ escapeFrom slashes argument) :
    character ∈ argument := by
  induction argument generalizing slashes with
  | nil => exact absurd (List.eq_of_mem_replicate member) notSlash
  | cons first argument ih =>
      rw [escapeFrom] at member
      split at member
      · exact List.mem_cons_of_mem first (ih member)
      split at member
      · rename_i same
        rcases List.mem_append.mp member with slash | rest
        · exact absurd (List.eq_of_mem_replicate slash) notSlash
        · rw [same]
          exact List.mem_cons.mpr ((List.mem_cons.mp rest).imp_right ih)
      · rcases List.mem_append.mp member with slash | rest
        · exact absurd (List.eq_of_mem_replicate slash) notSlash
        · exact List.mem_cons.mpr ((List.mem_cons.mp rest).imp_right ih)

theorem mem_of_mem_quoted {character : UInt16} {argument : Wide}
    (notSlash : character ≠ backslash) (notQuote : character ≠ quote)
    (member : character ∈ quoted argument) : character ∈ argument := by
  rcases List.mem_cons.mp member with same | rest
  · exact absurd same notQuote
  · rcases List.mem_append.mp rest with inside | last
    · exact mem_of_mem_escapeFrom notSlash inside
    · exact absurd (List.mem_singleton.mp last) notQuote

theorem scanArgument_replicate (slashes count : Nat) (rest : Wide) :
    scanArgument .inside slashes
        (List.replicate count backslash ++ rest) =
      scanArgument .inside (slashes + count) rest := by
  induction count generalizing slashes with
  | zero => rfl
  | succ count ih =>
      rw [List.replicate_succ, List.cons_append, scanArgument, if_pos rfl,
        Mode.settled, ih]
      congr 1
      omega

/-- What may follow an argument. -/
def Ends (rest : Wide) : Prop := rest = [] ∨ ∃ more, rest = 0x20 :: more

private theorem scanArgument_ends {rest : Wide} (ends : Ends rest) :
    scanArgument .closed 0 rest = ([], rest) := by
  rcases ends with rfl | ⟨more, rfl⟩
  · rfl
  · rw [scanArgument, if_neg (by decide), if_neg (by decide),
      if_pos (by decide)]
    rfl

private theorem scanArgument_close {slashes : Nat} {rest : Wide}
    (ends : Ends rest) :
    scanArgument .inside (slashes * 2) (quote :: rest) =
      (List.replicate slashes backslash, rest) := by
  have half : slashes * 2 / 2 = slashes := by omega
  have even : slashes * 2 % 2 = 0 := by omega
  rw [scanArgument, if_neg (by decide), if_pos rfl, if_pos even, half]
  rw [scanArgument_ends ends, prepend, List.append_nil]

theorem scanArgument_escapeFrom {slashes : Nat} {argument rest : Wide}
    (ends : Ends rest) :
    scanArgument .inside 0 (escapeFrom slashes argument ++ quote :: rest) =
      (List.replicate slashes backslash ++ argument, rest) := by
  induction argument generalizing slashes with
  | nil =>
      rw [escapeFrom, scanArgument_replicate, Nat.zero_add,
        scanArgument_close ends, List.append_nil]
  | cons character argument ih =>
      rw [escapeFrom]
      split
      · rename_i same
        rw [ih, List.replicate_succ', List.append_assoc, same]
        rfl
      split
      · rename_i different same
        have odd : ¬(0 + (slashes * 2 + 1)) % 2 = 0 := by omega
        have half : (0 + (slashes * 2 + 1)) / 2 = slashes := by omega
        rw [List.append_assoc, scanArgument_replicate, List.cons_append,
          scanArgument, if_neg (by decide), if_pos rfl, if_neg odd, half, ih,
          same, prepend, List.append_assoc]
        rfl
      · rename_i notSlash notQuote
        rw [List.append_assoc, scanArgument_replicate, List.cons_append,
          scanArgument, if_neg notSlash, if_neg notQuote, if_neg (by simp),
          Mode.settled, ih, Nat.zero_add, prepend, List.append_assoc]
        rfl

theorem scanArgument_quoted {argument rest : Wide} (ends : Ends rest) :
    scanArgument .outside 0 (quoted argument ++ rest) = (argument, rest) := by
  have body : quoted argument ++ rest =
      quote :: (escapeFrom 0 argument ++ quote :: rest) := by
    simp [quoted]
  rw [body, scanArgument, if_neg (by decide), if_pos rfl,
    if_pos (by decide)]
  rw [scanArgument_escapeFrom ends]
  rfl

private theorem ends_joinedTail (arguments : List Wide) :
    Ends (joinedTail arguments) := by
  cases arguments with
  | nil => exact Or.inl rfl
  | cons argument arguments => exact Or.inr ⟨_, rfl⟩

theorem scanArguments_joinedTail {arguments : List Wide} {rounds : Nat}
    (enough : arguments.length ≤ rounds) :
    scanArguments rounds (joinedTail arguments) = arguments := by
  induction arguments generalizing rounds with
  | nil =>
      cases rounds with
      | zero => rfl
      | succ rounds => rfl
  | cons argument arguments ih =>
      cases rounds with
      | zero => cases enough
      | succ rounds =>
          have line : (joinedTail (argument :: arguments)).dropWhile blank =
              quoted argument ++ joinedTail arguments := by
            rw [joinedTail, List.flatMap_cons, List.cons_append,
              List.dropWhile_cons_of_pos (by decide), quoted,
              List.cons_append, List.dropWhile_cons_of_neg (by decide)]
            rfl
          have first : quoted argument ++ joinedTail arguments =
              quote :: (escapeFrom 0 argument ++ [quote] ++
                joinedTail arguments) := rfl
          rw [scanArguments, line, first]
          dsimp only
          rw [← first, scanArgument_quoted (ends_joinedTail arguments)]
          dsimp only
          rw [ih (Nat.le_of_succ_le_succ enough)]

/-- Without quotes and a final backslash nothing is escaped. -/
theorem escapeFrom_plain {slashes : Nat} {program : Wide}
    (plain : quote ∉ program)
    (final : (List.replicate slashes backslash ++ program).getLast? ≠
      some backslash) :
    escapeFrom slashes program =
      List.replicate slashes backslash ++ program := by
  induction program generalizing slashes with
  | nil =>
      cases slashes with
      | zero => rfl
      | succ slashes =>
          rw [List.append_nil, List.getLast?_replicate] at final
          exact absurd rfl final
  | cons character program ih =>
      obtain ⟨notQuote, rest⟩ := not_or.mp (List.mem_cons.not.mp plain)
      rw [escapeFrom]
      split
      · rename_i same
        subst same
        have moved : List.replicate slashes backslash ++
            backslash :: program =
              List.replicate (slashes + 1) backslash ++ program := by
          rw [List.replicate_succ', List.append_assoc]
          rfl
        rw [moved] at final ⊢
        exact ih rest final
      · rename_i notSlash
        rw [if_neg (fun same => notQuote same.symm), ih rest]
        · rfl
        · intro last
          apply final
          rw [List.getLast?_append]
          cases program with
          | nil => cases last
          | cons next program =>
              rw [List.getLast?_cons_cons]
              rw [List.replicate_zero, List.nil_append] at last
              rw [last]
              rfl

private theorem scanProgram_quoted {program rest : Wide}
    (plain : quote ∉ program) (ends : Ends rest) :
    scanProgram true (program ++ quote :: rest) = (program, rest) := by
  induction program with
  | nil =>
      rw [List.nil_append, scanProgram, if_pos rfl]
      rcases ends with rfl | ⟨more, rfl⟩
      · rfl
      · rfl
  | cons character program ih =>
      obtain ⟨notQuote, remaining⟩ := not_or.mp (List.mem_cons.not.mp plain)
      rw [List.cons_append, scanProgram,
        if_neg (fun same => notQuote same.symm), if_neg (by simp),
        ih remaining]

/-- The runtime recovers the arguments that were quoted. -/
theorem split_quoted {program : Wide} {arguments : List Wide}
    (plain : quote ∉ program)
    (final : program.getLast? ≠ some backslash) :
    split (quoted program ++ joinedTail arguments) =
      program :: arguments := by
  have body : escapeFrom 0 program = program := escapeFrom_plain plain final
  have ends := ends_joinedTail arguments
  have long : arguments.length ≤ (joinedTail arguments).length := by
    induction arguments with
    | nil => exact Nat.zero_le _
    | cons argument arguments ih =>
        have rest := ih (ends_joinedTail arguments)
        rw [joinedTail, List.flatMap_cons, List.length_append,
          List.length_cons, List.length_cons]
        rw [joinedTail] at rest
        omega
  rw [split, quoted, body, List.cons_append, List.append_assoc, scanProgram,
    if_pos rfl]
  simp only [Bool.not_false, List.cons_append, List.nil_append,
    scanProgram_quoted plain ends, scanArguments_joinedTail long]

end WindowsArguments
