import RymgaLoader.Lib.Schedule

/-!
# Installing the bundled native library

`install` of `BundledNativeLibrary` as a program over one cache directory that
any number of processes share.  A file under the target name is never written
in place, so opening and reading it is one step.  `SHA-256` is a parameter.
-/

namespace RymgaLoader.Java

open Interleaving

abbrev Bytes := List UInt8

/-- The two directories of the cache. -/
inductive Place
  | root
  | directory
  deriving DecidableEq, Repr

/-- What an atomic move does with an existing target is left to the file
system. -/
inductive Support
  | replacing
  | refusing
  | unsupported
  deriving DecidableEq, Repr

inductive Moved
  | moved
  | alreadyExists
  | notSupported
  | missing
  deriving DecidableEq, Repr

/-- The operations on the cache; the partial file is that of the calling
process. -/
inductive Call
  | createDirectory (place : Place)
  | isDirectory (place : Place)
  | protectDirectory (place : Place)
  | isRegularFile
  | readTarget
  | deleteTarget
  | createTempFile
  | protectPartial
  | writePartial (bytes : Bytes)
  | atomicMove
  | move
  | protectTarget
  | deletePartial
  deriving DecidableEq, Repr

/-- `false` and `none` are exceptions; a directory that exists is one too. -/
abbrev Answer : Call → Type
  | .readTarget => Option Bytes
  | .atomicMove => Moved
  | .move => Moved
  | .deleteTarget => Unit
  | .deletePartial => Unit
  | _ => Bool

abbrev Nio (α : Type) := Program Call Answer α

def nio (call : Call) : Nio (Answer call) := Program.perform call

/-- A permission that cannot be set on this file system is left alone. -/
def privateDirectory (place : Place) : Nio Bool := do
  if ← (nio (.createDirectory place) : Nio Bool) then
    nio (.protectDirectory place)
  else
    if ← (nio (.isDirectory place) : Nio Bool) then
      nio (.protectDirectory place)
    else return false

section Program

variable (sha256 : Bytes → Bytes) (bytes : Bytes)

/-- `matches`; `none` is the exception of a file that is gone. -/
def matchesTarget : Nio (Option Bool) := do
  if ← (nio .isRegularFile : Nio Bool) then
    match ← (nio .readTarget : Nio (Option Bytes)) with
    | some content => return some (sha256 bytes == sha256 content)
    | none => return none
  else return some false

/-- The check after the move. -/
def verifyTarget : Nio Bool := do
  if ← (nio .protectTarget : Nio Bool) then
    match ← matchesTarget sha256 bytes with
    | some true => return true
    | _ => return false
  else return false

/-- The body of the `try` block. -/
def moveIntoPlace : Nio Bool := do
  if ← (nio .protectPartial : Nio Bool) then
    if ← (nio (.writePartial bytes) : Nio Bool) then
      match ← (nio .atomicMove : Nio Moved) with
      | .moved => verifyTarget sha256 bytes
      | .notSupported =>
          match ← (nio .move : Nio Moved) with
          | .moved => verifyTarget sha256 bytes
          | _ => return false
      | .alreadyExists =>
          match ← matchesTarget sha256 bytes with
          | some true => verifyTarget sha256 bytes
          | _ => return false
      | .missing => return false
    else return false
  else return false

/-- `install`; whether it returns the target path. -/
def install : Nio Bool := do
  if ← privateDirectory .root then
    if ← privateDirectory .directory then
      match ← matchesTarget sha256 bytes with
      | none => return false
      | some true => return true
      | some false =>
          nio .deleteTarget
          if ← (nio .createTempFile : Nio Bool) then
            let placed ← moveIntoPlace sha256 bytes
            nio .deletePartial
            return placed
          else return false
    else return false
  else return false

end Program

/-- The directories, the target file, the partial file of each process and
how the calls ended so far. -/
structure Cache (Process : Type) where
  support : Support
  root : Bool
  directory : Bool
  target : Option Bytes
  partialOf : Process → Option Bytes
  ended : List Bool

variable {Process : Type}

namespace Cache

def has (s : Cache Process) : Place → Bool
  | .root => s.root
  | .directory => s.directory

variable [DecidableEq Process]

def setPartial (s : Cache Process) (process : Process)
    (content : Option Bytes) : Cache Process :=
  { s with partialOf := Function.update s.partialOf process content }

/-- Put the partial file in the place of the target. -/
def place (s : Cache Process) (process : Process) (content : Bytes) :
    Cache Process :=
  { s.setPartial process none with target := some content }

/-- What an operation answers and leaves. -/
def exec (process : Process) :
    (call : Call) → Cache Process → Answer call × Cache Process
  | .createDirectory .root, s =>
      if s.root then (false, s) else (true, { s with root := true })
  | .createDirectory .directory, s =>
      if s.directory then (false, s)
      else if s.root then (true, { s with directory := true })
      else (false, s)
  | .isDirectory place, s => (s.has place, s)
  | .protectDirectory place, s => (s.has place, s)
  | .isRegularFile, s => (s.target.isSome, s)
  | .readTarget, s => (s.target, s)
  | .deleteTarget, s => ((), { s with target := none })
  | .createTempFile, s =>
      if s.directory then (true, s.setPartial process (some []))
      else (false, s)
  | .protectPartial, s => ((s.partialOf process).isSome, s)
  | .writePartial bytes, s =>
      if (s.partialOf process).isSome then
        (true, s.setPartial process (some bytes))
      else (false, s)
  | .atomicMove, s =>
      match s.partialOf process with
      | none => (.missing, s)
      | some content =>
          match s.support with
          | .unsupported => (.notSupported, s)
          | .refusing =>
              if s.target.isSome then (.alreadyExists, s)
              else (.moved, s.place process content)
          | .replacing => (.moved, s.place process content)
  | .move, s =>
      match s.partialOf process with
      | none => (.missing, s)
      | some content =>
          if s.target.isSome then (.alreadyExists, s)
          else (.moved, s.place process content)
  | .protectTarget, s => (s.target.isSome, s)
  | .deletePartial, s => ((), s.setPartial process none)

end Cache

/-- Processes that install the same bytes. -/
def installing [DecidableEq Process] (sha256 : Bytes → Bytes) (bytes : Bytes) :
    System Process Call Answer Bool (Cache Process) where
  act process call before answer after :=
    before.exec process call = (answer, after)
  start _ program before after :=
    program = install sha256 bytes ∧ after = before
  finish _ returned before after :=
    after = { before with ended := returned :: before.ended }
  stop _ _ _ := False
  other _ _ := False

/-- The target is deleted only while it is not the installed file, it is read
only while it exists, and the plain move finds no target. -/
def undisturbed (bytes : Bytes) (_ : Process) :
    (call : Call) → Cache Process → Answer call → Prop
  | .deleteTarget, before, _ => before.target ≠ some bytes
  | .readTarget, before, _ => before.target ≠ none
  | .move, before, _ => before.target = none
  | _, _, _ => True

section Runs

variable {sha256 : Bytes → Bytes} {bytes : Bytes}

/-- What holds between the operations. -/
structure Cache.Sound (sha256 : Bytes → Bytes) (bytes : Bytes)
    (s : Cache Process) : Prop where
  shown : ∀ content, s.target = some content →
    sha256 content = sha256 bytes → content = bytes
  returned : ∀ outcome ∈ s.ended, outcome = true
  installed : s.ended ≠ [] → s.target = some bytes

/-- What a process relies on the others to do. -/
structure Cache.Spares (bytes : Bytes) (process : Process)
    (before after : Cache Process) : Prop where
  installed : before.target = some bytes → after.target = some bytes
  emptied : before.target = none →
    after.target = none ∨ after.target = some bytes
  partialOf : after.partialOf process = before.partialOf process
  places : ∀ place, before.has place = true → after.has place = true

/-- The processes in their undisturbed runs. -/
abbrev orderly (Process : Type) [DecidableEq Process]
    (sha256 : Bytes → Bytes) (bytes : Bytes) :
    System Process Call Answer Bool (Cache Process) :=
  (installing sha256 bytes).under (undisturbed bytes)

/-- The discipline of the processes. -/
def sparing [DecidableEq Process] (sha256 : Bytes → Bytes)
    (bytes : Bytes) : Discipline (orderly Process sha256 bytes) where
  invariant := Cache.Sound sha256 bytes
  rely := Cache.Spares bytes
  good _ _ _ _ := True

/-- What an operation of one process leaves to the others. -/
structure Cache.Leaves (sha256 : Bytes → Bytes) (bytes : Bytes)
    (process : Process) (before after : Cache Process) : Prop where
  sound : after.Sound sha256 bytes
  spares : ∀ other, other ≠ process → before.Spares bytes other after

theorem Cache.Leaves.same {process : Process} {s : Cache Process}
    (sound : s.Sound sha256 bytes) : s.Leaves sha256 bytes process s :=
  ⟨sound, fun _ _ => ⟨id, Or.inl, rfl, fun _ => id⟩⟩

variable [DecidableEq Process] {process : Process}
  {before : Cache Process}

/-- One operation. -/
theorem robust_exec {β : Type} {post : β → Cache Process → Prop}
    {assertion : Cache Process → Prop} {call : Call}
    {next : Answer call → Nio β}
    (stable : (sparing sha256 bytes).Stable process assertion)
    (holds : assertion before)
    (step : ∀ s, s.Sound sha256 bytes → assertion s →
      undisturbed bytes process call s (s.exec process call).1 →
        s.Leaves sha256 bytes process (s.exec process call).2 ∧
          (sparing sha256 bytes).Robust process post
            (next (s.exec process call).1) (s.exec process call).2) :
    (sparing sha256 bytes).Robust process post (.call call next) before := by
  refine Discipline.Robust.call stable holds ?_
  rintro s answer after sound here ⟨acted, fair⟩
  have answered : (s.exec process call).1 = answer := by rw [acted]
  have left : (s.exec process call).2 = after := by rw [acted]
  subst answered left
  obtain ⟨leaves, rest⟩ := step s sound here fair
  exact ⟨⟨leaves.sound, leaves.spares, trivial⟩, rest⟩

/-- An operation that changes nothing. -/
theorem robust_look {β : Type} {post : β → Cache Process → Prop}
    {assertion : Cache Process → Prop} {call : Call}
    {next : Answer call → Nio β}
    (stable : (sparing sha256 bytes).Stable process assertion)
    (holds : assertion before)
    (same : ∀ s : Cache Process, (s.exec process call).2 = s)
    (rest : ∀ s, s.Sound sha256 bytes → assertion s →
      undisturbed bytes process call s (s.exec process call).1 →
        (sparing sha256 bytes).Robust process post
          (next (s.exec process call).1) s) :
    (sparing sha256 bytes).Robust process post (.call call next) before := by
  refine robust_exec stable holds ?_
  intro s sound here fair
  rw [same s]
  exact ⟨.same sound, rest s sound here fair⟩

/-- Some of the directories exist. -/
def Places (places : List Place) (s : Cache Process) : Prop :=
  ∀ place ∈ places, s.has place = true

/-- The wrong file is gone. -/
def Emptied (bytes : Bytes) (s : Cache Process) : Prop :=
  s.target = none ∨ s.target = some bytes

/-- The partial file of the process has this content. -/
def Writing (process : Process) (content : Bytes) (s : Cache Process) :
    Prop :=
  s.partialOf process = some content

def Installed (bytes : Bytes) (s : Cache Process) : Prop :=
  s.target = some bytes

theorem places_stable {places : List Place} :
    (sparing sha256 bytes).Stable process (Places places) := by
  intro first second _ _ spares present place member
  exact spares.places place (present place member)

theorem emptied_stable :
    (sparing sha256 bytes).Stable process (Emptied bytes) := by
  intro first second _ _ spares emptied
  rcases emptied with absent | installed
  · exact spares.emptied absent
  · exact Or.inr (spares.installed installed)

theorem writing_stable {content : Bytes} :
    (sparing sha256 bytes).Stable process (Writing process content) := by
  intro first second _ _ spares writing
  unfold Writing
  rw [spares.partialOf]
  exact writing

theorem installed_stable :
    (sparing sha256 bytes).Stable process (Installed bytes) := by
  intro first second _ _ spares installed
  exact spares.installed installed

/-- A process returns with the library in place. -/
def Succeeded (bytes : Bytes) (returned : Bool) (s : Cache Process) : Prop :=
  returned = true ∧ s.target = some bytes

theorem succeeded_stable {returned : Bool} :
    (sparing sha256 bytes).Stable process (Succeeded bytes returned) := by
  rintro first second _ _ spares ⟨succeeded, installed⟩
  exact ⟨succeeded, spares.installed installed⟩

private theorem leaves_createDirectory {place : Place} {s : Cache Process}
    (sound : s.Sound sha256 bytes) :
    s.Leaves sha256 bytes process
      (s.exec process (.createDirectory place)).2 := by
  obtain ⟨shown, returned, installed⟩ := sound
  cases place with
  | root =>
      rw [Cache.exec]
      split
      · exact .same ⟨shown, returned, installed⟩
      · refine ⟨⟨shown, returned, installed⟩, fun other different => ?_⟩
        exact ⟨id, Or.inl, rfl, by rintro (_ | _) <;> simp [Cache.has]⟩
  | directory =>
      rw [Cache.exec]
      split
      · exact .same ⟨shown, returned, installed⟩
      split
      · refine ⟨⟨shown, returned, installed⟩, fun other different => ?_⟩
        exact ⟨id, Or.inl, rfl, by rintro (_ | _) <;> simp [Cache.has]⟩
      · exact .same ⟨shown, returned, installed⟩

private theorem places_createDirectory (process : Process) {place : Place}
    {places : List Place} {s : Cache Process}
    (parent : place = .directory → .root ∈ places)
    (present : Places places s) :
    Places (place :: places) (s.exec process (.createDirectory place)).2 := by
  intro candidate member
  cases place with
  | root => cases candidate <;> grind -ring -linarith [Cache.exec, Cache.has, Places]
  | directory =>
      have root := present .root (parent rfl)
      rw [Cache.has] at root
      cases candidate <;> grind -ring -linarith [Cache.exec, Cache.has, Places]

theorem privateDirectory_robust {place : Place} {places : List Place}
    (parent : place = .directory → .root ∈ places)
    (present : Places places before) :
    (sparing sha256 bytes).Robust process
      (fun made s => made = true ∧ Places (place :: places) s)
      (privateDirectory place) before := by
  have protect : ∀ s : Cache Process, Places (place :: places) s →
      (sparing sha256 bytes).Robust process
        (fun made s => made = true ∧ Places (place :: places) s)
        (nio (.protectDirectory place)) s := by
    intro s present
    refine robust_look places_stable present (fun s => rfl) ?_
    intro s _ present _
    have made : s.has place = true := present place List.mem_cons_self
    refine .done ?_ ⟨made, present⟩
    rintro first second sound soundAfter spares ⟨same, present⟩
    exact ⟨same,
      places_stable first second sound soundAfter spares present⟩
  refine robust_exec places_stable present ?_
  intro s sound present _
  refine ⟨leaves_createDirectory sound, ?_⟩
  have made := places_createDirectory process parent present
  cases created : (s.exec process (.createDirectory place)).1 with
  | true => exact protect _ made
  | false =>
      refine robust_look places_stable made (fun s => rfl) ?_
      intro s _ present _
      have there : s.has place = true := present place List.mem_cons_self
      change (sparing sha256 bytes).Robust process _
        (if s.has place then nio (.protectDirectory place)
          else return false) s
      rw [if_pos there]
      exact protect s present

/-- The check finds out whether the library is in place. -/
theorem matchesTarget_robust {assertion : Cache Process → Prop}
    (stable : (sparing sha256 bytes).Stable process assertion)
    (holds : assertion before) :
    (sparing sha256 bytes).Robust process
      (fun found s => assertion s ∧
        (found = some true ∧ Installed bytes s ∨ found = some false))
      (matchesTarget sha256 bytes) before := by
  have notFound : ∀ s, assertion s → (sparing sha256 bytes).Robust process
      (fun found s => assertion s ∧
        (found = some true ∧ Installed bytes s ∨ found = some false))
      (.done (some false)) s := by
    intro s holds after _ drift
    exact ⟨stable.drift drift holds, Or.inr rfl⟩
  refine robust_look stable holds (fun s => rfl) ?_
  intro s _ holds _
  change (sparing sha256 bytes).Robust process _ (if s.target.isSome then _
    else Program.done (some false)) s
  split
  · refine robust_look stable holds (fun s => rfl) ?_
    intro s sound holds exist
    cases read : s.target with
    | none => exact absurd read exist
    | some content =>
        change (sparing sha256 bytes).Robust process _ (match s.target with
          | some content =>
              Program.done (some (sha256 bytes == sha256 content))
          | none => Program.done none) s
        rw [read]
        by_cases same : sha256 bytes = sha256 content
        · have equal := sound.shown content read same.symm
          subst equal
          intro after _ drift
          exact ⟨stable.drift drift holds, Or.inl ⟨by simp,
            installed_stable.drift drift read⟩⟩
        · simp only [beq_false_of_ne same]
          exact notFound s holds
  · exact notFound s holds

theorem matchesTarget_installed (installed : Installed bytes before) :
    (sparing sha256 bytes).Robust process
      (fun found s => found = some true ∧ Installed bytes s)
      (matchesTarget sha256 bytes) before := by
  refine robust_look installed_stable installed (fun s => rfl) ?_
  intro s _ installed _
  change (sparing sha256 bytes).Robust process _ (if s.target.isSome then _
    else Program.done (some false)) s
  rw [if_pos (by rw [installed]; rfl)]
  refine robust_look installed_stable installed (fun s => rfl) ?_
  intro s _ installed _
  change (sparing sha256 bytes).Robust process _ (match s.target with
    | some content => Program.done (some (sha256 bytes == sha256 content))
    | none => Program.done none) s
  rw [installed]
  intro after _ drift
  exact ⟨by simp, installed_stable.drift drift installed⟩

theorem verifyTarget_robust (installed : Installed bytes before) :
    (sparing sha256 bytes).Robust process (Succeeded bytes)
      (verifyTarget sha256 bytes) before := by
  refine robust_look installed_stable installed (fun s => rfl) ?_
  intro s _ installed _
  change (sparing sha256 bytes).Robust process _ (if s.target.isSome then _
    else return false) s
  rw [if_pos (by rw [installed]; rfl)]
  refine (matchesTarget_installed installed).bind ?_
  rintro _ s ⟨rfl, installed⟩
  exact .done succeeded_stable ⟨rfl, installed⟩

theorem setPartial_leaves {s : Cache Process} {content : Option Bytes}
    (sound : s.Sound sha256 bytes) :
    s.Leaves sha256 bytes process (s.setPartial process content) := by
  obtain ⟨shown, returned, installed⟩ := sound
  refine ⟨⟨shown, returned, installed⟩, fun other different => ?_⟩
  exact ⟨id, Or.inl, Function.update_of_ne different _ _, fun place => id⟩

theorem writing_setPartial (process : Process) (content : Bytes)
    (s : Cache Process) :
    Writing process content (s.setPartial process (some content)) := by
  unfold Writing Cache.setPartial
  exact Function.update_self process (some content) s.partialOf

/-- Moving the written file in place of none or of the same. -/
theorem place_leaves {s : Cache Process} (sound : s.Sound sha256 bytes) :
    s.Leaves sha256 bytes process (s.place process bytes) := by
  obtain ⟨shown, returned, installed⟩ := sound
  refine ⟨⟨?_, returned, fun _ => rfl⟩, fun other different => ?_⟩
  · intro content same _
    cases same
    rfl
  · exact ⟨fun _ => rfl, fun _ => Or.inr rfl,
      Function.update_of_ne different _ _, fun place => id⟩

/-- The move of the written file installs it, unless it is there already. -/
theorem atomicMove_robust {next : Moved → Nio Bool}
    (emptied : Emptied bytes before)
    (writing : Writing process bytes before)
    (moved : ∀ s, Installed bytes s → (sparing sha256 bytes).Robust process
      (Succeeded bytes) (next .moved) s)
    (existing : ∀ s, Installed bytes s → (sparing sha256 bytes).Robust
      process (Succeeded bytes) (next .alreadyExists) s)
    (refused : ∀ s, Emptied bytes s → Writing process bytes s →
      (sparing sha256 bytes).Robust process (Succeeded bytes)
        (next .notSupported) s) :
    (sparing sha256 bytes).Robust process (Succeeded bytes)
      (.call .atomicMove next) before := by
  refine robust_exec (emptied_stable.and writing_stable)
    ⟨emptied, writing⟩ ?_
  rintro s sound ⟨emptied, writing⟩ _
  have content : s.partialOf process = some bytes := writing
  cases support : s.support with
  | unsupported =>
      simp only [Cache.exec, content, support]
      exact ⟨.same sound, refused s emptied writing⟩
  | replacing =>
      simp only [Cache.exec, content, support]
      exact ⟨place_leaves sound, moved _ rfl⟩
  | refusing =>
      simp only [Cache.exec, content, support]
      rcases emptied with absent | installed
      · rw [if_neg (by simp [absent])]
        exact ⟨place_leaves sound, moved _ rfl⟩
      · rw [if_pos (by simp [installed])]
        exact ⟨.same sound, existing s installed⟩

theorem moveIntoPlace_robust (emptied : Emptied bytes before)
    (writing : Writing process [] before) :
    (sparing sha256 bytes).Robust process (Succeeded bytes)
      (moveIntoPlace sha256 bytes) before := by
  refine robust_look (emptied_stable.and writing_stable) ⟨emptied, writing⟩
    (fun s => rfl) ?_
  rintro s _ ⟨emptied, writing⟩ _
  change (sparing sha256 bytes).Robust process _
    (if (s.partialOf process).isSome then _ else return false) s
  rw [if_pos (by rw [writing]; rfl)]
  refine robust_exec (emptied_stable.and writing_stable)
    ⟨emptied, writing⟩ ?_
  rintro s sound ⟨emptied, writing⟩ _
  have content : s.partialOf process = some [] := writing
  have written : s.exec process (.writePartial bytes) =
      (true, s.setPartial process (some bytes)) := by
    simp [Cache.exec, content]
  rw [written]
  refine ⟨setPartial_leaves sound, ?_⟩
  refine atomicMove_robust emptied (writing_setPartial process bytes s)
    ?_ ?_ ?_
  · intro s installed
    exact verifyTarget_robust installed
  · intro s installed
    refine (matchesTarget_installed installed).bind ?_
    rintro _ s ⟨rfl, installed⟩
    exact verifyTarget_robust installed
  · intro s emptied writing
    refine robust_exec writing_stable writing ?_
    intro s sound writing absent
    have content : s.partialOf process = some bytes := writing
    have target : s.target = none := absent
    have moved : s.exec process .move =
        (.moved, s.place process bytes) := by
      simp [Cache.exec, content, target]
    rw [moved]
    exact ⟨place_leaves sound, verifyTarget_robust rfl⟩

theorem install_robust :
    (sparing sha256 bytes).Robust process (Succeeded bytes)
      (install sha256 bytes) before := by
  have nothing : Places [] before := by
    intro place member
    cases member
  refine (privateDirectory_robust (by rintro ⟨⟩) nothing).bind ?_
  rintro _ s ⟨rfl, root⟩
  refine (privateDirectory_robust (fun _ => List.mem_cons_self) root).bind ?_
  rintro _ s ⟨rfl, present⟩
  refine (matchesTarget_robust places_stable present).bind ?_
  rintro found s ⟨present, ⟨rfl, installed⟩ | rfl⟩
  · exact .done succeeded_stable ⟨rfl, installed⟩
  refine robust_exec places_stable present ?_
  intro s sound present wrong
  have different : s.target ≠ some bytes := wrong
  refine ⟨?_, ?_⟩
  · obtain ⟨shown, returned, installed⟩ := sound
    refine ⟨⟨?_, returned, fun ended => absurd (installed ended) different⟩,
      fun other _ => ⟨fun same => absurd same different,
        fun _ => Or.inl rfl, rfl, fun _ => id⟩⟩
    intro content same
    cases same
  refine robust_exec (places_stable.and emptied_stable)
    ⟨present, Or.inl rfl⟩ ?_
  rintro s sound ⟨present, emptied⟩ _
  have there : s.directory = true := present .directory List.mem_cons_self
  have created : s.exec process .createTempFile =
      (true, s.setPartial process (some [])) := by
    simp [Cache.exec, there]
  rw [created]
  refine ⟨setPartial_leaves sound, ?_⟩
  have placed : (sparing sha256 bytes).Robust process (Succeeded bytes)
      (moveIntoPlace sha256 bytes) (s.setPartial process (some [])) :=
    moveIntoPlace_robust emptied (writing_setPartial process [] s)
  refine placed.bind ?_
  rintro _ s ⟨rfl, installed⟩
  refine robust_exec installed_stable installed ?_
  intro s sound installed _
  exact ⟨setPartial_leaves sound, .done succeeded_stable ⟨rfl, installed⟩⟩

theorem sparing_sound :
    (sparing sha256 bytes : Discipline (orderly Process sha256 bytes)).Sound
      fun _ => Succeeded bytes where
  start := by
    rintro process program before after sound ⟨rfl, rfl⟩
    exact ⟨sound, fun _ _ => ⟨id, Or.inl, rfl, fun _ => id⟩, install_robust⟩
  finish := by
    rintro process value before after sound ⟨rfl, installed⟩ rfl
    obtain ⟨shown, returned, -⟩ := sound
    refine ⟨⟨shown, ?_, fun _ => installed⟩,
      fun _ _ => ⟨id, Or.inl, rfl, fun _ => id⟩⟩
    intro outcome member
    rcases List.mem_cons.mp member with rfl | earlier
    · rfl
    · exact returned outcome earlier
  stop := by
    rintro process before after sound ⟨⟩
  other := by
    rintro before after sound ⟨⟩

end Runs

/-- The driver of two processes. -/
def driver (sha256 : Bytes → Bytes) (bytes : Bytes) :
    Driver (installing sha256 bytes :
      System Bool Call Answer Bool (Cache Bool)) Unit Unit Empty where
  start _ _ s := some (install sha256 bytes, s)
  call process _ call s := some (s.exec process call)
  finish _ returned s := some { s with ended := returned :: s.ended }
  stop _ _ := none
  other event := nomatch event
  started := by
    intro process job before program after begun
    cases begun
    exact ⟨rfl, rfl⟩
  called := by
    intro process choice call before answer after answered
    exact Option.some.inj answered
  finished := by
    intro process returned before after ended
    cases ended
    rfl
  stopped := by
    rintro process before after ⟨⟩
  changed := by
    rintro ⟨⟩

instance (process : Bool) (call : Call) (s : Cache Bool)
    (answer : Answer call) (bytes : Bytes) :
    Decidable (undisturbed bytes process call s answer) := by
  unfold undisturbed
  split <;> infer_instance

abbrev Event := Move Bool Unit Unit Empty

/-- A process makes a number of calls. -/
def calls (process : Bool) (count : Nat) : List Event :=
  List.replicate count (.call process ())

end RymgaLoader.Java
