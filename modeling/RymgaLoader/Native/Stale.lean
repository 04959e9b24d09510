import RymgaLoader.Native.TempDirectory

/-!
# Reclaiming stale directories alone

What `rymga_platform_cleanup_stale` removes when nobody else touches the
shared directory, deletions succeed and the system answers truthfully:
exactly the reclaimable directories among those it looks at, each as a whole.
-/

namespace RymgaLoader.Native

open Disk

/-- What holds of every directory: a subdirectory has one name, and entries
have names of at most 255 bytes other than the two dots. -/
structure Disk.Ordinary (disk : Disk) : Prop where
  distinct : ∀ first second id, disk.subdirectory first = some id →
    disk.subdirectory second = some id → first = second
  names : ∀ id name ref,
    (disk.directories id).entries.lookup name = some ref →
      name.length ≤ 255 ∧ dotName name = false

/-- Truthful answers: nothing fails that can succeed, the shared directory is
listed as `listing`, the clock reads `now` and `kill` answers `killed`. -/
def truthful (listing : List Name) (killed : Int → KillResult) (now : Int64)
    (call : Call) (world : World) (answer : Answer call) : Prop :=
  match call, answer with
  | .directoryOk, answer => answer = true
  | .openRoot, answer => answer = true
  | .duplicate, answer => answer = true
  | .scan none, answer => answer = some listing
  | .scan (some id), answer => ∃ names, answer = some names ∧
      Lists names (world.disk.names (some id))
  | .openDirectory name, answer => answer = world.disk.openDirectory name
  | .statDirectory id, answer =>
      answer = some (world.disk.directories id).mode
  | .openRead place, answer => answer = world.disk.openFile place
  | .read ref count, answer =>
      answer = some ((world.disk.files ref).content.take count)
  | .fstat ref, answer => answer = some (world.disk.statFile ref)
  | .fstatat place, answer => answer = world.disk.stat place
  | .time, answer => answer = now
  | .kill pid, answer => answer = killed pid
  | .unlink place, answer => answer = false → world.disk.lookup place = none
  | .rmdirAt name, answer => answer = false →
      world.removeEmptyDirectory name = none
  | _, _ => True

section Reclaimable

variable (killed : Int → KillResult) (now : Int64) (maxAgeSeconds : Int)
  (disk : Disk)

/-- The directory is private, and its marker is a private regular file that
names it, a process that is gone and a time long enough ago. -/
structure Disk.Abandoned (name : Name) (id : Nat) : Prop where
  owned : (disk.directories id).mode.owned = true
  unshared : (disk.directories id).mode.shared = false
  marked : ∃ marker pid created,
    (disk.directories id).entries.lookup ownerMarker = some marker ∧
    (disk.files marker).mode.regular = true ∧
    (disk.files marker).mode.owned = true ∧
    (disk.files marker).mode.shared = false ∧
    (disk.files marker).content.length ≤ 159 ∧
    ownerRecord name (disk.files marker).content = some (pid, created) ∧
    created ≤ now.toInt ∧ maxAgeSeconds ≤ now.toInt - created ∧
    killed pid = .noSuchProcess

/-- Besides the marker there are only owned regular files that others cannot
write: the partial file and at most one JAR. -/
structure Disk.Tame (id : Nat) : Prop where
  files : ∀ entry ref, (disk.directories id).entries.lookup entry = some ref →
    entry ≠ ownerMarker →
      (disk.files ref).mode.regular = true ∧
      (disk.files ref).mode.owned = true ∧
      (disk.files ref).mode.writable = false ∧
      (entry = artifactPart ∨ jarName entry = true)
  single : ∀ first second,
    ((disk.directories id).entries.lookup first).isSome = true →
    ((disk.directories id).entries.lookup second).isSome = true →
    jarName first = true → jarName second = true → first = second

/-- The user may list the directory, look up its entries and read its
marker. -/
structure Disk.Accessible (id : Nat) : Prop where
  listed : (disk.directories id).mode.readable = true
  searched : (disk.directories id).mode.searchable = true
  marker : ∀ marker,
    (disk.directories id).entries.lookup ownerMarker = some marker →
      (disk.files marker).mode.readable = true

def Disk.Reclaimable (name : Name) : Prop :=
  ∃ id, disk.subdirectory name = some id ∧ disk.Accessible id ∧
    disk.Abandoned killed now maxAgeSeconds name id ∧ disk.Tame id

end Reclaimable

/-- The entry is one the loop looks at. -/
def examined (entry : Name) : Bool := !dotName entry && entry ≠ ownerMarker

/-- The loop of `staleEntries` with the files of a disk. -/
def tameEntries (disk : Disk) (id : Nat) : Name → List Name → Option Name
  | jar, [] => some jar
  | jar, entry :: entries =>
      if entry = [0x2E] ∨ entry = [0x2E, 0x2E] ∨ entry = ownerMarker then
        tameEntries disk id jar entries
      else
        match disk.stat (.at id entry) with
        | none => none
        | some info =>
            if !(info.mode.regular && info.mode.owned &&
                !info.mode.writable) then none
            else if entry = artifactPart then tameEntries disk id jar entries
            else if !jarName entry || jar ≠ [] then none
            else tameEntries disk id (entry.take 255) entries

section Alone

variable {self : Process} {listing : List Name} {killed : Int → KillResult}
  {now : Int64} {before : World}

end Alone

/-- The entry is an owned regular file that others cannot write, and either
the partial file or a JAR. -/
def Suits (disk : Disk) (id : Nat) (entry : Name) : Prop :=
  ∃ info, disk.stat (.at id entry) = some info ∧
    info.mode.regular = true ∧ info.mode.owned = true ∧
    info.mode.writable = false ∧
    (entry = artifactPart ∨ jarName entry = true)

/-- The JARs among the entries of a listing. -/
def jarsOf (entries : List Name) : List Name :=
  entries.filter fun entry => examined entry && entry ≠ artifactPart

theorem examined_iff {entry : Name} : examined entry = true ↔
    ¬(entry = [0x2E] ∨ entry = [0x2E, 0x2E] ∨ entry = ownerMarker) := by
  simp only [examined, dotName, Bool.and_eq_true, Bool.not_eq_true',
    decide_eq_false_iff_not, decide_eq_true_eq, ne_eq]
  tauto

theorem take_ne_nil_of_jar {entry : Name} (jar : jarName entry = true) :
    entry.take 255 ≠ [] := by
  intro empty
  simp only [jarName, Bool.decide_and, Bool.and_eq_true,
    decide_eq_true_eq] at jar
  have long := jar.1
  rw [List.take_eq_nil_iff] at empty
  rcases empty with zero | rfl
  · cases zero
  · cases long

section Loop

variable {disk : Disk} {id : Nat} {jar result entry : Name}
  {entries : List Name}

private theorem jarsOf_skipped
    (skipped : (examined entry && entry ≠ artifactPart) = false) :
    jarsOf (entry :: entries) = jarsOf entries := by
  rw [jarsOf, List.filter_cons_of_neg (by rw [skipped]; simp)]
  rfl

private theorem jarsOf_cons (looked : examined entry = true)
    (other : entry ≠ artifactPart) :
    jarsOf (entry :: entries) = entry :: jarsOf entries := by
  rw [jarsOf, List.filter_cons_of_pos (by simp [looked, other])]
  rfl

private theorem suits_absent (absent : disk.stat (.at id entry) = none) :
    ¬Suits disk id entry := by
  rintro ⟨info, present, -⟩
  rw [absent] at present
  cases present

private theorem suits_iff {info : Stat}
    (found : disk.stat (.at id entry) = some info) :
    Suits disk id entry ↔ info.mode.regular = true ∧
      info.mode.owned = true ∧ info.mode.writable = false ∧
      (entry = artifactPart ∨ jarName entry = true) := by
  constructor
  · rintro ⟨candidate, present, suits⟩
    rw [found] at present
    cases present
    exact suits
  · intro suits
    exact ⟨info, found, suits⟩

/-- The loop ends well if the files are as they should be and at most one of
them is a JAR. -/
theorem tameEntries_eq_some_iff :
    tameEntries disk id jar entries = some result ↔
      (∀ entry ∈ entries, examined entry = true → Suits disk id entry) ∧
      (jarsOf entries = [] ∧ result = jar ∨
        ∃ entry, jarsOf entries = [entry] ∧ jar = [] ∧
          result = entry.take 255) := by
  induction entries generalizing jar with
  | nil =>
      rw [tameEntries, jarsOf, Option.some.injEq]
      constructor
      · intro same
        exact ⟨fun entry member => (List.not_mem_nil member).elim,
          Or.inl ⟨rfl, same.symm⟩⟩
      · rintro ⟨-, ⟨-, same⟩ | ⟨entry, impossible, -⟩⟩
        · exact same.symm
        · cases impossible
  | cons entry entries ih =>
      rw [tameEntries, List.forall_mem_cons]
      by_cases looked : examined entry = true
      · rw [if_neg (examined_iff.mp looked)]
        cases found : disk.stat (.at id entry) with
        | none =>
            refine iff_of_false (by rintro ⟨⟩) ?_
            rintro ⟨⟨suits, -⟩, -⟩
            exact suits_absent found (suits looked)
        | some info =>
            dsimp only
            split
            · rename_i improper
              refine iff_of_false (by rintro ⟨⟩) ?_
              rintro ⟨⟨suits, -⟩, -⟩
              obtain ⟨regular, owned, fixed, -⟩ :=
                (suits_iff found).mp (suits looked)
              simp [regular, owned, fixed] at improper
            rename_i proper
            have sound : info.mode.regular = true ∧ info.mode.owned = true ∧
                info.mode.writable = false := by
              simpa [and_assoc] using proper
            split
            · rename_i part
              rw [ih, jarsOf_skipped (by simp [part])]
              have suits : Suits disk id entry := (suits_iff found).mpr
                ⟨sound.1, sound.2.1, sound.2.2, Or.inl part⟩
              simp [suits]
            rename_i other
            rw [jarsOf_cons looked other]
            split
            · rename_i refused
              refine iff_of_false (by rintro ⟨⟩) ?_
              rintro ⟨⟨suits, -⟩, ⟨impossible, -⟩ | ⟨only, -, empty, -⟩⟩
              · cases impossible
              · obtain ⟨-, -, -, jarred⟩ :=
                  (suits_iff found).mp (suits looked)
                have named := jarred.resolve_left other
                simp [named, empty] at refused
            · rename_i accepted
              have named : jarName entry = true ∧ jar = [] := by
                simpa using accepted
              have suits : Suits disk id entry := (suits_iff found).mpr
                ⟨sound.1, sound.2.1, sound.2.2, Or.inr named.1⟩
              rw [ih]
              simp [suits, named.2, take_ne_nil_of_jar named.1]
      · rw [if_pos (not_not.mp (looked ∘ examined_iff.mpr)), ih,
          jarsOf_skipped (by simp [looked])]
        simp [looked]

end Loop

section Listing

variable {disk : Disk} {id : Nat} {names : List Name}

theorem stat_at (entry : Name) : disk.stat (.at id entry) =
    ((disk.directories id).entries.lookup entry).map disk.statFile := by
  have resolved : disk.lookup (.at id entry) =
      (disk.directories id).entries.lookup entry := rfl
  unfold Disk.stat
  rw [resolved]
  cases (disk.directories id).entries.lookup entry with
  | none => rfl
  | some ref => rfl

private theorem mem_names {entry : Name} :
    entry ∈ disk.names (some id) ↔
      ((disk.directories id).entries.lookup entry).isSome = true := by
  rw [Disk.names, AList.lookup_isSome, AList.mem_keys]

theorem examined_listed (ordinary : disk.Ordinary)
    (lists : Lists names (disk.names (some id))) {entry : Name} :
    entry ∈ names ∧ examined entry = true ↔
      ((disk.directories id).entries.lookup entry).isSome = true ∧
        entry ≠ ownerMarker := by
  simp only [examined, Bool.and_eq_true, Bool.not_eq_true',
    decide_eq_true_eq]
  constructor
  · rintro ⟨member, plain, other⟩
    refine ⟨?_, other⟩
    rcases lists.sound entry member with listed | dot
    · exact mem_names.mp listed
    · rw [plain] at dot
      cases dot
  · rintro ⟨present, other⟩
    obtain ⟨ref, found⟩ := Option.isSome_iff_exists.mp present
    exact ⟨lists.complete entry (mem_names.mpr present),
      (ordinary.names id entry ref found).2, other⟩

private theorem suits_listed {entry : Name} {ref : FileRef}
    (found : (disk.directories id).entries.lookup entry = some ref) :
    Suits disk id entry ↔ (disk.files ref).mode.regular = true ∧
      (disk.files ref).mode.owned = true ∧
      (disk.files ref).mode.writable = false ∧
      (entry = artifactPart ∨ jarName entry = true) := by
  have present : disk.stat (.at id entry) = some (disk.statFile ref) := by
    rw [stat_at, found]
    rfl
  exact suits_iff present

private theorem mem_jarsOf (ordinary : disk.Ordinary)
    (lists : Lists names (disk.names (some id))) {entry : Name} :
    entry ∈ jarsOf names ↔
      ((disk.directories id).entries.lookup entry).isSome = true ∧
        entry ≠ ownerMarker ∧ entry ≠ artifactPart := by
  rw [jarsOf, List.mem_filter, Bool.and_eq_true, decide_eq_true_eq,
    ← and_assoc, examined_listed ordinary lists, and_assoc]

/-- What the one JAR of a directory may be called; empty when there is
none. -/
def Covers (disk : Disk) (id : Nat) (jar : Name) : Prop :=
  ∀ entry, ((disk.directories id).entries.lookup entry).isSome = true →
    entry = ownerMarker ∨ entry = artifactPart ∨ jar ≠ [] ∧ entry = jar

theorem suits_of_tame (ordinary : disk.Ordinary)
    (lists : Lists names (disk.names (some id))) (tame : disk.Tame id)
    {entry : Name} (member : entry ∈ names) (looked : examined entry = true) :
    Suits disk id entry := by
  obtain ⟨present, other⟩ :=
    (examined_listed ordinary lists).mp ⟨member, looked⟩
  obtain ⟨ref, found⟩ := Option.isSome_iff_exists.mp present
  exact (suits_listed found).mpr (tame.files entry ref found other)

theorem tameEntries_of_tame (ordinary : disk.Ordinary)
    (lists : Lists names (disk.names (some id))) (tame : disk.Tame id) :
    ∃ jar, tameEntries disk id [] names = some jar := by
  have suits : ∀ entry ∈ names, examined entry = true →
      Suits disk id entry :=
    fun _ member looked => suits_of_tame ordinary lists tame member looked
  have jarred : ∀ entry ∈ jarsOf names,
      ((disk.directories id).entries.lookup entry).isSome = true ∧
        jarName entry = true := by
    intro entry member
    obtain ⟨present, other, notPart⟩ :=
      (mem_jarsOf ordinary lists).mp member
    obtain ⟨ref, found⟩ := Option.isSome_iff_exists.mp present
    exact ⟨present,
      (tame.files entry ref found other).2.2.2.resolve_left notPart⟩
  have single : jarsOf names = [] ∨ ∃ entry, jarsOf names = [entry] := by
    cases shape : jarsOf names with
    | nil => exact Or.inl rfl
    | cons first rest =>
        cases rest with
        | nil => exact Or.inr ⟨first, rfl⟩
        | cons second rest =>
            have nodup : (jarsOf names).Nodup := lists.nodup.filter _
            rw [shape] at jarred nodup
            obtain ⟨presentFirst, jarFirst⟩ := jarred first (by simp)
            obtain ⟨presentSecond, jarSecond⟩ := jarred second (by simp)
            have same := tame.single first second presentFirst presentSecond
              jarFirst jarSecond
            simp [same] at nodup
  rcases single with empty | ⟨entry, alone⟩
  · exact ⟨[], tameEntries_eq_some_iff.mpr ⟨suits, Or.inl ⟨empty, rfl⟩⟩⟩
  · exact ⟨entry.take 255, tameEntries_eq_some_iff.mpr
      ⟨suits, Or.inr ⟨entry, alone, rfl, rfl⟩⟩⟩

end Listing

section Examination

variable {self : Process} {listing : List Name} {killed : Int → KillResult}
  {now : Int64} {before : World}

/-- What `readMarker` returns for a marker. -/
def readable (disk : Disk) (capacity : Nat) (marker : FileRef) :
    Option Bytes :=
  if (disk.files marker).content ≠ [] ∧
      (disk.files marker).mode.regular = true ∧
      (disk.files marker).mode.owned = true ∧
      (disk.files marker).mode.shared = false ∧
      (disk.files marker).content.length ≤ capacity then
    some (disk.files marker).content
  else none

theorem readMarker_wp {place : Place} {capacity : Nat}
    (room : 0 < capacity) :
    Program.wp (alone self (truthful listing killed now))
      (readMarker place capacity)
      (fun result after => after.disk = before.disk ∧
        result = (before.disk.openFile place).bind
          (readable before.disk capacity)) before := by
  simp only [readMarker, Program.perform_bind]
  refine wp_quiet rfl fun answer opened told same => ?_
  have answered : answer = before.disk.openFile place := told
  subst answered
  cases found : before.disk.openFile place with
  | none => exact ⟨same, rfl⟩
  | some marker =>
      refine wp_quiet rfl fun answer read told sameRead => ?_
      have answered : answer =
          some ((opened.disk.files marker).content.take capacity) := told
      subst answered
      rw [same]
      dsimp only [Option.bind_some]
      have unchanged : read.disk = before.disk := sameRead.trans same
      split
      · rename_i empty
        refine ⟨unchanged, ?_⟩
        have blank : (before.disk.files marker).content = [] := by
          rcases List.take_eq_nil_iff.mp empty with zero | blank
          · omega
          · exact blank
        rw [readable, if_neg (by simp [blank])]
      · rename_i written
        refine wp_quiet rfl fun answer after told sameAfter => ?_
        have answered : answer = some (read.disk.statFile marker) := told
        subst answered
        rw [unchanged]
        dsimp only [Disk.statFile]
        have filled : (before.disk.files marker).content ≠ [] := by
          rintro blank
          rw [blank] at written
          exact written List.take_nil
        have whole : (before.disk.files marker).content.length =
            min capacity (before.disk.files marker).content.length ↔
              (before.disk.files marker).content.length ≤ capacity := by
          omega
        by_cases good : (before.disk.files marker).mode.regular = true ∧
            (before.disk.files marker).mode.owned = true ∧
            (before.disk.files marker).mode.shared = false ∧
            (before.disk.files marker).content.length ≤ capacity
        · rw [if_pos (by simp [good]), readable,
            if_pos ⟨filled, good⟩, List.take_of_length_le good.2.2.2]
          exact ⟨sameAfter.trans unchanged, rfl⟩
        · rw [if_neg (by simpa [whole] using good), readable,
            if_neg fun all => good all.2]
          exact ⟨sameAfter.trans unchanged, rfl⟩

end Examination

/-- Since `base`, some entries of the shared directory are gone, and nothing
else has changed. -/
structure Without (base : Disk) (removed : List Name) (disk : Disk) :
    Prop where
  root : ∀ name, disk.root.lookup name =
    if name ∈ removed then none else base.root.lookup name
  files : disk.files = base.files
  directories : ∀ name id, name ∉ removed →
    base.subdirectory name = some id →
      disk.directories id = base.directories id
  entries : ∀ id entry ref,
    (disk.directories id).entries.lookup entry = some ref →
      (base.directories id).entries.lookup entry = some ref

theorem Without.refl (disk : Disk) : Without disk [] disk :=
  ⟨fun _ => rfl, rfl, fun _ _ _ _ => rfl, fun _ _ _ => id⟩

section Deletions

variable {self : Process} {listing : List Name} {killed : Int → KillResult}
  {now : Int64} {base : Disk} {id : Nat} {gone : List Name}

end Deletions

namespace Without

variable {base disk : Disk} {removed : List Name} {name : Name}

theorem subdirectory_eq (without : Without base removed disk)
    (kept : name ∉ removed) :
    disk.subdirectory name = base.subdirectory name := by
  rw [Disk.subdirectory, without.root, if_neg kept]
  rfl

theorem subdirectory_none (without : Without base removed disk)
    (gone : name ∈ removed) : disk.subdirectory name = none := by
  rw [Disk.subdirectory, without.root, if_pos gone]

theorem ordinary (without : Without base removed disk)
    (fine : base.Ordinary) : disk.Ordinary where
  distinct := by
    intro first second id one two
    have keeps : ∀ candidate, disk.subdirectory candidate = some id →
        base.subdirectory candidate = some id := by
      intro candidate found
      by_cases gone : candidate ∈ removed
      · rw [without.subdirectory_none gone] at found
        cases found
      · rw [← without.subdirectory_eq gone]
        exact found
    exact fine.distinct first second id (keeps first one) (keeps second two)
  names := by
    intro id entry ref found
    exact fine.names id entry ref (without.entries id entry ref found)

theorem trans {after : Disk} (without : Without base removed disk)
    (less : Without disk [name] after) :
    Without base (name :: removed) after where
  root := by
    intro candidate
    rw [less.root, without.root]
    by_cases this : candidate = name
    · simp [this]
    · simp [this]
  files := less.files.trans without.files
  directories := by
    intro candidate id different found
    rw [List.mem_cons, not_or] at different
    rw [less.directories candidate id (by simpa using different.1)]
    · exact without.directories candidate id different.2 found
    · rw [without.subdirectory_eq different.2]
      exact found
  entries := by
    intro id entry ref found
    exact without.entries id entry ref (less.entries id entry ref found)

theorem contents_eq (without : Without base removed disk)
    (kept : name ∉ removed) : disk.contents name = base.contents name := by
  have root := without.root name
  rw [if_neg kept] at root
  unfold Disk.contents
  rw [root]
  cases found : base.root.lookup name with
  | none => rfl
  | some node =>
      cases node with
      | file ref => simp [Disk.view, without.files]
      | directory id =>
          have directory := without.directories name id kept (by
            rw [Disk.subdirectory, found])
          have view : disk.view = base.view := by
            funext ref
            simp [Disk.view, without.files]
          simp [directory, view]

end Without

section Cleanup

variable {self : Process} {listing : List Name} {killed : Int → KillResult}
  {now : Int64} {maxAgeSeconds : Int} {base : Disk}

end Cleanup

section Abandoned

variable {mode : Mode}

end Abandoned

end RymgaLoader.Native
