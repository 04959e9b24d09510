import RymgaLoader.Gateway.License

/-!
# The configuration of an application

`ApplicationConfig.read` and `PaperCredentials.encode`: the bounded YAML
subset with the credentials of a license.  A file is given by its content, and
is absent where it is not a regular file.
-/

namespace RymgaLoader.Java

open Protocol Wire
open Gateway (isWhitespace isBlank)

/-- `String.trim`. -/
def trim (value : JavaString) : JavaString :=
  ((value.dropWhile (· ≤ 0x20)).reverse.dropWhile (· ≤ 0x20)).reverse

/-- `String.lines`, with the line read so far. -/
def linesFrom (line : JavaString) : JavaString → List JavaString
  | [] => if line = [] then [] else [line]
  | unit :: rest =>
      if unit = 0x0A then line :: linesFrom [] rest
      else if unit = 0x0D then
        match rest with
        | [] => [line]
        | next :: behind =>
            if next = 0x0A then line :: linesFrom [] behind
            else line :: linesFrom [] (next :: behind)
      else linesFrom (line ++ [unit]) rest

def lines (contents : JavaString) : List JavaString := linesFrom [] contents

namespace ApplicationConfig

structure IOException where
  message : String
  deriving DecidableEq, Repr

abbrev Throwing := Except IOException

def maxBytes : Nat := 16 * 1024

def irregular : IOException :=
  ⟨"config.yml is not a regular file of at most 16 KiB"⟩

def invalid : IOException :=
  ⟨"config.yml must contain only license.user and license.key"⟩

/-- The loop of `scalar` over the characters between the quotation marks. -/
def scalarItems : JavaString → Throwing JavaString
  | [] => .ok []
  | character :: rest =>
      if character = 0x5C then
        match rest with
        | [] => .error invalid
        | escaped :: rest =>
            if escaped ≠ 0x5C ∧ escaped ≠ 0x22 then .error invalid
            else (scalarItems rest).map (escaped :: ·)
      else if isISOControl character then .error invalid
      else (scalarItems rest).map (character :: ·)

def scalar (input : JavaString) : Throwing JavaString :=
  let value := trim input
  if value.head? ≠ some 0x22 then .ok value
  else if value.length < 2 ∨ value.getLast? ≠ some 0x22 then .error invalid
  else scalarItems (value.drop 1).dropLast

/-- What the loop over the lines has found. -/
structure Entries where
  license : Bool
  user : Option JavaString
  key : Option JavaString
  deriving DecidableEq

/-- A line that is left out: blank, or a comment. -/
def skipped (line : JavaString) : Bool :=
  isBlank line || (line.dropWhile isWhitespace).head? = some 0x23

def readLine (entries : Entries) (line : JavaString) : Throwing Entries :=
  if skipped line then .ok entries
  else if line = java "license:".toList then
    if entries.license then .error invalid
    else .ok { entries with license := true }
  else if entries.license = false ∨ ¬(java "  ".toList).isPrefixOf line ∨
      line.length < 4 ∨ (line)[2]?.any isWhitespace then .error invalid
  else
    match (line.drop 2).idxOf? 0x3A with
    | none => .error invalid
    | some separator => do
        let name := trim ((line.drop 2).take separator)
        let value ← scalar ((line.drop 2).drop (separator + 1))
        if name = java "user".toList ∧ entries.user = none then
          return { entries with user := some value }
        else if name = java "key".toList ∧ entries.key = none then
          return { entries with key := some value }
        else throw invalid

/-- The part of `read` before it looks at the credentials. -/
def readEntries (file : Option RymgaLoader.Bytes) : Throwing Entries :=
  match file with
  | none => .error irregular
  | some content => do
      let bytes := content.take (maxBytes + 1)
      if bytes.length > maxBytes then throw irregular
      else
        match Unicode.decode bytes with
        | none => throw invalid
        | some scalars =>
            (lines (Unicode.utf16Encode scalars)).foldlM readLine
              ⟨false, none, none⟩

def Entries.trimmedUser (entries : Entries) : JavaString :=
  (entries.user.map trim).getD []

def Entries.trimmedKey (entries : Entries) : JavaString :=
  (entries.key.map trim).getD []

/-- A user, where there is one, in front of a key. -/
def joined (user key : JavaString) : JavaString :=
  if user = [] then key else user ++ 0x3A :: key

/-- The rest of `read`. -/
def Entries.credentials (entries : Entries) : Throwing JavaString :=
  if entries.license = false ∨ entries.trimmedKey = [] then
    .error ⟨"license.key is missing from config.yml"⟩
  else if entries.trimmedUser.length + entries.trimmedKey.length + 1 >
      4096 then .error ⟨"license is too long"⟩
  else .ok (joined entries.trimmedUser entries.trimmedKey)

def read (file : Option RymgaLoader.Bytes) : Throwing JavaString := do
  let entries ← readEntries file
  entries.credentials

end ApplicationConfig

/-- `PaperCredentials.encode`; an absent string is `null`. -/
def PaperCredentials.encode (user key : Option JavaString) :
    Option JavaString :=
  let user := (user.map trim).getD []
  let key := (key.map trim).getD []
  if key = [] then none else some (ApplicationConfig.joined user key)

namespace ApplicationConfig

/-- Characters between quotation marks, each for itself or escaped, with what
they stand for. -/
inductive Items : JavaString → JavaString → Prop where
  | nil : Items [] []
  | plain {character : UInt16} {body characters : JavaString} :
      character ≠ 0x22 → character ≠ 0x5C →
      isISOControl character = false → Items body characters →
      Items (character :: body) (character :: characters)
  | escaped {character : UInt16} {body characters : JavaString} :
      character = 0x5C ∨ character = 0x22 → Items body characters →
      Items (0x5C :: character :: body) (character :: characters)

/-- A quoted scalar and the characters it stands for. -/
def Quoted (value characters : JavaString) : Prop :=
  ∃ body, value = 0x22 :: (body ++ [0x22]) ∧ Items body characters

/-- A scalar that starts with a quotation mark is read exactly where it is
well quoted. -/
def ReadsQuoted (input : JavaString) : Prop :=
  (trim input).head? = some 0x22 →
    ∀ characters, scalar input = .ok characters ↔
      Quoted (trim input) characters

/-- The same characters, but with quotation marks also for themselves; tells
whether there is such a mark. -/
inductive LooseItems : JavaString → Bool → Prop where
  | nil : LooseItems [] false
  | plain {character : UInt16} {body : JavaString} {stray : Bool} :
      character ≠ 0x22 → character ≠ 0x5C →
      isISOControl character = false → LooseItems body stray →
      LooseItems (character :: body) stray
  | escaped {character : UInt16} {body : JavaString} {stray : Bool} :
      character = 0x5C ∨ character = 0x22 → LooseItems body stray →
      LooseItems (0x5C :: character :: body) stray
  | quote {body : JavaString} {stray : Bool} :
      LooseItems body stray → LooseItems (0x22 :: body) true

/-- A scalar that is well quoted but for a quotation mark inside. -/
def StrayQuote (input : JavaString) : Prop :=
  ∃ body, trim input = 0x22 :: (body ++ [0x22]) ∧ LooseItems body true

theorem scalarItems_escaped {character : UInt16} {body : JavaString}
    (known : character = 0x5C ∨ character = 0x22) :
    scalarItems (0x5C :: character :: body) =
      (scalarItems body).map (character :: ·) := by
  rw [scalarItems, if_pos rfl]
  refine if_neg ?_
  rintro ⟨notSlash, notQuote⟩
  rcases known with slash | quote
  · exact notSlash slash
  · exact notQuote quote

theorem scalarItems_plain {character : UInt16} {body : JavaString}
    (unescaped : character ≠ 0x5C)
    (visible : isISOControl character = false) :
    scalarItems (character :: body) =
      (scalarItems body).map (character :: ·) := by
  rw [scalarItems.eq_def (character :: body)]
  simp only [if_neg unescaped, visible, Bool.false_eq_true, if_false]

theorem scalarItems_of_items {body characters : JavaString}
    (items : Items body characters) : scalarItems body = .ok characters := by
  induction items with
  | nil => rfl
  | plain _ unescaped visible _ ih =>
      rw [scalarItems_plain unescaped visible, ih]
      rfl
  | escaped known _ ih =>
      rw [scalarItems_escaped known, ih]
      rfl

theorem scalarItems_of_looseItems {body : JavaString} {stray : Bool}
    (items : LooseItems body stray) :
    ∃ characters, scalarItems body = .ok characters := by
  induction items with
  | nil => exact ⟨[], rfl⟩
  | plain _ unescaped visible _ ih =>
      obtain ⟨characters, read⟩ := ih
      rw [scalarItems_plain unescaped visible, read]
      exact ⟨_, rfl⟩
  | escaped known _ ih =>
      obtain ⟨characters, read⟩ := ih
      rw [scalarItems_escaped known, read]
      exact ⟨_, rfl⟩
  | quote _ ih =>
      obtain ⟨characters, read⟩ := ih
      rw [scalarItems_plain (by decide) (by decide), read]
      exact ⟨_, rfl⟩

theorem Items.loose {body characters : JavaString}
    (items : Items body characters) : LooseItems body false := by
  induction items with
  | nil => exact .nil
  | plain unquoted unescaped visible _ ih =>
      exact .plain unquoted unescaped visible ih
  | escaped known _ ih => exact .escaped known ih

private theorem map_eq_ok {read : Throwing JavaString} {first : UInt16}
    {characters : JavaString}
    (mapped : read.map (first :: ·) = .ok characters) :
    ∃ others, read = .ok others ∧ characters = first :: others := by
  cases read with
  | error failure => cases mapped
  | ok others =>
      cases mapped
      exact ⟨others, rfl, rfl⟩

/-- What the loop reads is well quoted, or has a quotation mark inside. -/
theorem items_of_scalarItems {body characters : JavaString}
    (read : scalarItems body = .ok characters) :
    Items body characters ∨ LooseItems body true := by
  induction body using scalarItems.induct generalizing characters with
  | case1 =>
      cases read
      exact Or.inl .nil
  | case2 => cases read
  | case3 escaped rest unknown =>
      rw [scalarItems, if_pos rfl, if_pos unknown] at read
      cases read
  | case4 escaped rest known ih =>
      have named : escaped = 0x5C ∨ escaped = 0x22 := by
        by_contra neither
        exact known (not_or.mp neither)
      rw [scalarItems_escaped named] at read
      obtain ⟨others, within, rfl⟩ := map_eq_ok read
      rcases ih within with items | stray
      · exact Or.inl (.escaped named items)
      · exact Or.inr (.escaped named stray)
  | case5 character rest unescaped control =>
      rw [scalarItems.eq_def] at read
      simp only [if_neg unescaped, if_pos control] at read
      cases read
  | case6 character rest unescaped visible ih =>
      have visible' : isISOControl character = false := by
        simpa using visible
      rw [scalarItems_plain unescaped visible'] at read
      obtain ⟨others, within, rfl⟩ := map_eq_ok read
      by_cases quote : character = 0x22
      · subst character
        rcases ih within with items | stray
        · exact Or.inr (.quote items.loose)
        · exact Or.inr (.quote stray)
      · rcases ih within with items | stray
        · exact Or.inl (.plain quote unescaped visible' items)
        · exact Or.inr (.plain quote unescaped visible' stray)

theorem Items.not_stray {body characters : JavaString}
    (items : Items body characters) : ¬LooseItems body true := by
  induction items with
  | nil =>
      intro loose
      cases loose
  | plain unquoted unescaped _ _ ih =>
      intro loose
      cases loose with
      | plain _ _ _ rest => exact ih rest
      | escaped _ _ => exact unescaped rfl
      | quote _ => exact unquoted rfl
  | escaped known _ ih =>
      intro loose
      cases loose with
      | plain _ unescaped _ _ => exact unescaped rfl
      | escaped _ rest => exact ih rest

private theorem quoted_cons {value : JavaString}
    (opens : value.head? = some 0x22) (long : ¬value.length < 2)
    (closes : value.getLast? = some 0x22) :
    value = 0x22 :: ((value.drop 1).dropLast ++ [0x22]) := by
  cases value with
  | nil => cases opens
  | cons first rest =>
      cases opens
      cases rest using List.reverseRecOn with
      | nil => exact absurd (by simp) long
      | append_singleton body last =>
          have same : last = 0x22 := by
            rw [← List.cons_append, List.getLast?_append] at closes
            exact Option.some.inj closes
          simp [same]

theorem scalar_quoted (input body : JavaString)
    (quoted : trim input = 0x22 :: (body ++ [0x22])) :
    scalar input = scalarItems body := by
  unfold scalar
  simp only [quoted]
  rw [if_neg (by simp), if_neg]
  · simp
  · have last : (0x22 :: (body ++ [0x22]) : JavaString).getLast? =
        some 0x22 := by
      rw [← List.cons_append, List.getLast?_append]
      rfl
    rintro (short | open')
    · rw [List.length_cons, List.length_append] at short
      simp only [List.length_singleton] at short
      omega
    · exact open' last

/-- A scalar in quotation marks is read strictly, unless a quotation mark
stands inside it. -/
theorem scalar_readsQuoted_iff (input : JavaString) :
    ReadsQuoted input ↔ ¬StrayQuote input := by
  constructor
  · rintro strict ⟨body, quoted, stray⟩
    obtain ⟨characters, read⟩ := scalarItems_of_looseItems stray
    rw [← scalar_quoted input body quoted] at read
    obtain ⟨others, same, items⟩ :=
      (strict (by rw [quoted]; rfl) characters).mp read
    rw [quoted] at same
    have equal := List.append_inj_left' (List.cons.inj same).2 rfl
    subst equal
    exact items.not_stray stray
  · intro strict opens characters
    constructor
    · intro read
      have shape : ¬((trim input).length < 2 ∨
          (trim input).getLast? ≠ some 0x22) := by
        intro broken
        unfold scalar at read
        simp only [opens, ne_eq, not_true_eq_false, if_false,
          if_pos broken] at read
        cases read
      simp only [not_or, not_not] at shape
      have quoted := quoted_cons opens shape.1 shape.2
      rw [scalar_quoted input _ quoted] at read
      rcases items_of_scalarItems read with items | stray
      · exact ⟨_, quoted, items⟩
      · exact absurd ⟨_, quoted, stray⟩ strict
    · rintro ⟨body, quoted, items⟩
      rw [scalar_quoted input body quoted]
      exact scalarItems_of_items items

/-- A quotation mark between two letters. -/
def strayScalar : JavaString := java ['"', 'a', '"', 'b', '"']

theorem scalar_strayScalar : ¬ReadsQuoted strayScalar := by
  intro strict
  have read : scalar strayScalar = .ok (java ['a', '"', 'b']) := by decide
  obtain ⟨body, same, items⟩ := (strict (by decide) _).mp read
  have quoted : trim strayScalar = 0x22 :: (java ['a', '"', 'b'] ++ [0x22]) := by
    decide
  rw [quoted] at same
  have equal := List.append_inj_left' (List.cons.inj same).2 rfl
  subst equal
  refine items.not_stray ?_
  exact .plain (by decide) (by decide) (by decide)
    (.quote (.plain (by decide) (by decide) (by decide) .nil))

end ApplicationConfig

end RymgaLoader.Java
