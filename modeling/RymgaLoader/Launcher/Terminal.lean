import RymgaLoader.Launcher.CommandLine
import RymgaLoader.Lib.Interleaving
import RymgaLoader.Protocol.Fields
import Mathlib.Data.List.Nodup

/-!
# The license prompt of the POSIX launcher

`read_license_tty` of `launcher/rymga_loader.c`.  A signal may arrive between
any two of its calls: its handler notes the signal, so that the reader stops,
undoes what it did to the terminal and to the process, and raises the signal
again.
-/

namespace RymgaLoader.Launcher.Terminal

open Interleaving

inductive Signal
  | interrupt
  | terminate
  | hangUp
  | quit
  | stop
deriving DecidableEq

/-- `signals`. -/
def signals : List Signal := [.interrupt, .terminate, .hangUp, .quit, .stop]

inductive Disposition
  | standard
  | ignored
  | interruptLicense
deriving DecidableEq

inductive Call
  | openTerminal
  | tcgetattr
  | clearSignal
  | sigaction (signal : Signal) (disposition : Disposition)
  | hideEcho
  | dprintf
  | calloc
  | licenseSignal
  | read
  | restoreEcho (original : Bool)
  | close
  | raise (signal : Signal)

/-- `tcgetattr` tells whether characters are echoed, `sigaction` what was
there before, and `read` a character; `none` and `false` are failures. -/
abbrev Answer : Call → Type
  | .openTerminal | .hideEcho | .restoreEcho _ | .calloc => Bool
  | .tcgetattr => Option Bool
  | .sigaction _ _ => Option Disposition
  | .licenseSignal => Option Signal
  | .read => Option UInt8
  | .clearSignal | .dprintf | .close | .raise _ => Unit

abbrev Tty (α : Type) := Program Call Answer α

abbrev tty (call : Call) : Tty (Answer call) := Program.perform call

/-- The first loop: the signals whose handler is installed, with what was
there before. -/
def install : List Signal → List (Signal × Disposition) →
    Tty (Bool × List (Signal × Disposition))
  | [], installed => return (true, installed)
  | signal :: signals, installed => do
      match ← tty (.sigaction signal .interruptLicense) with
      | none => return (false, installed)
      | some previous => install signals (installed ++ [(signal, previous)])

def restore : List (Signal × Disposition) → Tty Unit
  | [] => return ()
  | (signal, previous) :: installed => do
      let _ ← tty (.sigaction signal previous)
      restore installed

def endsLine (character : UInt8) : Bool :=
  character = 0x0A || character = 0x0D

/-- A turn of the loop that reads characters. -/
def readTurn (license : Bytes) (more : UInt8 → Tty (Option Bytes)) :
    Tty (Option Bytes) := do
  match ← tty .licenseSignal with
  | some _ => return some license
  | none =>
      match ← tty .read with
      | none => return some license
      | some character =>
          if endsLine character then return some license else more character

/-- The loop, while there is room for this many more characters; `none` is a
license that is too long. -/
def readCharacters : Nat → Bytes → Tty (Option Bytes)
  | 0, license => readTurn license fun _ => return none
  | room + 1, license => readTurn license fun character =>
      readCharacters room (license ++ [character])

/-- What follows the prompt. -/
def finish (original : Bool) (installed : List (Signal × Disposition))
    (license : Option Bytes) : Tty (Option Bytes) := do
  tty .dprintf
  let _ ← tty (.restoreEcho original)
  tty .close
  restore installed
  let interrupted ← tty .licenseSignal
  tty .clearSignal
  match interrupted with
  | some signal =>
      tty (.raise signal)
      return none
  | none => return license.filter (· ≠ [])

/-- `read_license_tty`. -/
def readLicenseTty : Tty (Option Bytes) := do
  if !(← tty .openTerminal) then return none
  match ← tty .tcgetattr with
  | none => return none
  | some original =>
      tty .clearSignal
      match ← install signals [] with
      | (false, installed) =>
          restore installed.reverse
          tty .close
          return none
      | (true, installed) =>
          if !(← tty .hideEcho) then
            restore installed
            tty .close
            return none
          tty .dprintf
          let license ← if ← tty .calloc then readCharacters 4096 []
            else pure none
          finish original installed license

/-- The terminal, what it was when the reader was called, which calls failed
before the prompt, and what has been read. -/
structure Desk where
  echo : Bool
  savedEcho : Bool
  failed : Bool
  hidden : Bool
  refused : Bool
  typed : Bytes

/-- The signals of the process besides: what they do, what they did when the
reader was called, what the reader has noted, and which signals its handler
took last and the reader raised. -/
structure State where
  desk : Desk
  dispositions : Signal → Disposition
  savedDispositions : Signal → Disposition
  licenseSignal : Option Signal
  caught : Option Signal
  raised : List Signal

namespace State

variable (s : State)

/-- A signal arrives.  What the handler does not take ends the process or
leaves it as it is. -/
def deliver (signal : Signal) : State :=
  if s.dispositions signal = .interruptLicense then
    { s with licenseSignal := some signal, caught := some signal }
  else s

def begin : State :=
  { s with
    desk := ⟨s.desk.echo, s.desk.echo, false, false, false, []⟩
    savedDispositions := s.dispositions
    caught := none
    raised := [] }

/-- Before anything has been called. -/
def initial (echo : Bool) (dispositions : Signal → Disposition) : State where
  desk := ⟨echo, echo, false, false, false, []⟩
  dispositions := dispositions
  savedDispositions := dispositions
  licenseSignal := none
  caught := none
  raised := []

def setDisposition (signal : Signal) (disposition : Disposition) : State :=
  { s with dispositions := Function.update s.dispositions signal disposition }

def fail : State := { s with desk := { s.desk with failed := true } }

def exec : (call : Call) → Answer call → State → Option State
  | .openTerminal, opened, s => some (if opened then s else s.fail)
  | .tcgetattr, some echo, s => if echo = s.desk.echo then some s else none
  | .tcgetattr, none, s => some s.fail
  | .clearSignal, _, s => some { s with licenseSignal := none }
  | .sigaction signal disposition, some previous, s =>
      if previous = s.dispositions signal then
        some (s.setDisposition signal disposition)
      else none
  | .sigaction _ _, none, s => some s.fail
  | .hideEcho, done, s => some
      (if done then
        { s with desk := { s.desk with echo := false, hidden := true } }
      else s.fail)
  | .dprintf, _, s => some s
  | .calloc, allocated, s => some (if allocated then s else s.fail)
  | .licenseSignal, signal, s =>
      if signal = s.licenseSignal then some s else none
  | .read, some character, s => some
      { s with desk := { s.desk with typed := s.desk.typed ++ [character] } }
  | .read, none, s => some s
  | .restoreEcho original, done, s => some
      { s with desk := if done then { s.desk with echo := original }
        else { s.desk with refused := true } }
  | .close, _, s => some s
  | .raise signal, _, s =>
      some { s.deliver signal with raised := s.raised ++ [signal] }

end State

/-- The process and the signals that reach it.  The handler of the reader is
its own: nobody else has installed it. -/
def terminal : System Unit Call Answer (Option Bytes) State where
  act _ call before answer after := before.exec call answer = some after
  start _ program before after := program = readLicenseTty ∧
    (∀ signal, before.dispositions signal ≠ .interruptLicense) ∧
    after = before.begin
  finish _ _ before after := after = before
  stop _ _ _ := False
  other before after := ∃ signal, after = before.deliver signal

/-- What was there before a handler was installed can be put back. -/
def reinstates (_ : Unit) (call : Call) (_ : State) (answer : Answer call) :
    Prop :=
  match call, answer with
  | .sigaction _ disposition, none => disposition = .interruptLicense
  | _, _ => True

/-- The line that was typed, as a license. -/
def acceptLine (typed : Bytes) : Option Bytes :=
  let line := typed.takeWhile fun character => !endsLine character
  if line = [] ∨ 4096 < line.length then none else some line

/-- What the reader leaves when it returns. -/
structure Returned (result : Option Bytes) (s : State) : Prop where
  dispositions : s.dispositions = s.savedDispositions
  echo : s.desk.echo = s.desk.savedEcho ∨ s.desk.refused = true
  raised : s.raised = if s.desk.hidden then s.caught.toList else []
  cleared : s.desk.hidden = true → s.licenseSignal = none
  result : result = if s.desk.failed ∨ s.caught.isSome then none
    else acceptLine s.desk.typed

/-- While the terminal hides what is typed, the handler takes every signal. -/
structure Sound (s : State) : Prop where
  covered : s.desk.echo ≠ s.desk.savedEcho → s.desk.refused = false →
    ∀ signal, s.dispositions signal = .interruptLicense

/-- A signal is raised when everything has been put back. -/
def raisesLast (call : Call) (s : State) : Prop :=
  match call with
  | .raise signal => s.caught = some signal ∧
      s.dispositions = s.savedDispositions ∧
      (s.desk.echo = s.desk.savedEcho ∨ s.desk.refused = true)
  | _ => True

def careful : Discipline (terminal.under reinstates) where
  invariant := Sound
  rely _ before after := ∃ signal, after = before.deliver signal
  good _ call before _ := raisesLast call before

variable {installed : List (Signal × Disposition)} {desk : Desk}
  {before after s : State} {α : Type} {post : α → State → Prop}

namespace State

@[simp] theorem deliver_desk (s : State) (signal : Signal) :
    (s.deliver signal).desk = s.desk := by
  unfold deliver
  split <;> rfl

@[simp] theorem deliver_dispositions (s : State) (signal : Signal) :
    (s.deliver signal).dispositions = s.dispositions := by
  unfold deliver
  split <;> rfl

@[simp] theorem deliver_savedDispositions (s : State) (signal : Signal) :
    (s.deliver signal).savedDispositions = s.savedDispositions := by
  unfold deliver
  split <;> rfl

@[simp] theorem deliver_raised (s : State) (signal : Signal) :
    (s.deliver signal).raised = s.raised := by
  unfold deliver
  split <;> rfl

@[simp] theorem setDisposition_self (s : State) (signal : Signal)
    (disposition : Disposition) :
    (s.setDisposition signal disposition).dispositions signal =
      disposition := Function.update_self _ _ _

theorem setDisposition_of_ne {s : State} {signal other : Signal}
    {disposition : Disposition} (different : other ≠ signal) :
    (s.setDisposition signal disposition).dispositions other =
      s.dispositions other := Function.update_of_ne different _ _

theorem deliver_eq_self {s : State} {signal : Signal}
    (foreign : s.dispositions signal ≠ .interruptLicense) :
    s.deliver signal = s :=
  if_neg foreign

end State

/-- The reader has called nothing that changes the process. -/
structure Begun (desk : Desk) (s : State) : Prop where
  desk : s.desk = desk
  dispositions : s.dispositions = s.savedDispositions
  own : ∀ signal, s.savedDispositions signal ≠ .interruptLicense
  caught : s.caught = none
  raised : s.raised = []

/-- The handlers of these signals are installed, and what was there before is
known. -/
structure At (installed : List (Signal × Disposition)) (desk : Desk)
    (s : State) : Prop where
  desk : s.desk = desk
  dispositions : ∀ signal, s.dispositions signal =
    if signal ∈ installed.map Prod.fst then .interruptLicense
    else s.savedDispositions signal
  recorded : ∀ entry ∈ installed, entry.2 = s.savedDispositions entry.1
  distinct : (installed.map Prod.fst).Nodup
  own : ∀ signal, s.savedDispositions signal ≠ .interruptLicense
  pending : s.licenseSignal = s.caught
  raised : s.raised = []

/-- Everything has been put back, and the signal that came last is known. -/
structure Quiet (interrupted : Option Signal) (desk : Desk) (s : State) :
    Prop where
  desk : s.desk = desk
  dispositions : s.dispositions = s.savedDispositions
  own : ∀ signal, s.savedDispositions signal ≠ .interruptLicense
  caught : s.caught = interrupted
  raised : s.raised = []

theorem Begun.deliver (begun : Begun desk s) (signal : Signal) :
    s.deliver signal = s := by
  apply State.deliver_eq_self
  rw [begun.dispositions]
  exact begun.own signal

theorem Quiet.deliver {interrupted : Option Signal}
    (quiet : Quiet interrupted desk s) (signal : Signal) :
    s.deliver signal = s := by
  apply State.deliver_eq_self
  rw [quiet.dispositions]
  exact quiet.own signal

theorem At.deliver (standing : At installed desk s) (signal : Signal) :
    At installed desk (s.deliver signal) where
  desk := by
    rw [State.deliver_desk]
    exact standing.desk
  dispositions := by
    rw [State.deliver_dispositions, State.deliver_savedDispositions]
    exact standing.dispositions
  recorded := by
    rw [State.deliver_savedDispositions]
    exact standing.recorded
  distinct := standing.distinct
  own := by
    rw [State.deliver_savedDispositions]
    exact standing.own
  pending := by
    unfold State.deliver
    split
    · rfl
    · exact standing.pending
  raised := by
    rw [State.deliver_raised]
    exact standing.raised

theorem Returned.deliver {result : Option Bytes}
    (returned : Returned result s)
    (own : ∀ signal, s.savedDispositions signal ≠ .interruptLicense)
    (signal : Signal) : s.deliver signal = s := by
  apply State.deliver_eq_self
  rw [returned.dispositions]
  exact own signal

theorem stable_of_deliver {assertion : State → Prop}
    (kept : ∀ s signal, assertion s → assertion (s.deliver signal)) :
    careful.Stable () assertion := by
  rintro before after - - ⟨signal, rfl⟩ holds
  exact kept before signal holds

theorem stable_begun : careful.Stable () (Begun desk) :=
  stable_of_deliver fun s signal begun => by
    rw [begun.deliver signal]
    exact begun

theorem stable_quiet {interrupted : Option Signal} :
    careful.Stable () (Quiet interrupted desk) :=
  stable_of_deliver fun s signal quiet => by
    rw [quiet.deliver signal]
    exact quiet

theorem stable_at : careful.Stable () (At installed desk) :=
  stable_of_deliver fun _ signal standing => standing.deliver signal

theorem Sound.of_echo (same : s.desk.echo = s.desk.savedEcho) : Sound s :=
  ⟨fun different => absurd same different⟩

theorem Begun.sound (begun : Begun desk s)
    (same : desk.echo = desk.savedEcho) : Sound s := by
  apply Sound.of_echo
  rw [begun.desk]
  exact same

theorem Quiet.sound {interrupted : Option Signal}
    (quiet : Quiet interrupted desk s)
    (same : desk.echo = desk.savedEcho ∨ desk.refused = true) : Sound s := by
  refine ⟨fun different asked => ?_⟩
  rw [quiet.desk] at different asked
  rcases same with same | refused
  · exact absurd same different
  · rw [refused] at asked
    cases asked

/-- Either nothing is hidden, or all signals are taken. -/
def Covers (installed : List (Signal × Disposition)) (desk : Desk) : Prop :=
  desk.echo = desk.savedEcho ∨ desk.refused = true ∨
    installed.map Prod.fst = signals

theorem At.sound (standing : At installed desk s)
    (covers : Covers installed desk) : Sound s := by
  refine ⟨fun different asked signal => ?_⟩
  rw [standing.desk] at different asked
  rcases covers with same | refused | all
  · exact absurd same different
  · rw [refused] at asked
    cases asked
  · rw [standing.dispositions, all, if_pos]
    cases signal <;> decide

/-- One call from where an assertion holds. -/
theorem robust_call {assertion : State → Prop} {call : Call}
    {next : Answer call → Tty α} (stable : careful.Stable () assertion)
    (holds : assertion before)
    (step : ∀ middle answer after, assertion middle →
      middle.exec call answer = some after →
      reinstates () call middle answer →
        Sound after ∧ raisesLast call middle ∧
          careful.Robust () post (next answer) after) :
    careful.Robust () post (.call call next) before := by
  refine Discipline.Robust.call stable holds ?_
  rintro middle answer after - holds ⟨done, met⟩
  obtain ⟨sound, last, rest⟩ := step middle answer after holds done met
  exact ⟨⟨sound, fun other different => absurd rfl different, last⟩, rest⟩

theorem At.cons_restored {signal : Signal} {previous : Disposition}
    (standing : At ((signal, previous) :: installed) desk s) :
    At installed desk (s.setDisposition signal previous) where
  desk := standing.desk
  dispositions := by
    intro candidate
    have absent : signal ∉ installed.map Prod.fst :=
      (List.nodup_cons.mp standing.distinct).1
    by_cases same : candidate = signal
    · subst same
      rw [State.setDisposition_self, if_neg absent]
      exact standing.recorded _ List.mem_cons_self
    · have others : candidate ∈ ((signal, previous) :: installed).map
          Prod.fst ↔ candidate ∈ installed.map Prod.fst := by
        rw [List.map_cons, List.mem_cons]
        exact or_iff_right same
      rw [State.setDisposition_of_ne same, standing.dispositions candidate]
      simp only [others]
      rfl
  recorded entry member := standing.recorded entry
    (List.mem_cons_of_mem _ member)
  distinct := (List.nodup_cons.mp standing.distinct).2
  own := standing.own
  pending := standing.pending
  raised := standing.raised

theorem At.installed_next {signal : Signal}
    (standing : At installed desk s)
    (absent : signal ∉ installed.map Prod.fst) :
    At (installed ++ [(signal, s.dispositions signal)]) desk
      (s.setDisposition signal .interruptLicense) where
  desk := standing.desk
  dispositions := by
    intro candidate
    by_cases same : candidate = signal
    · subst same
      rw [State.setDisposition_self, if_pos]
      simp
    · have others : candidate ∈ (installed ++
          [(signal, s.dispositions signal)]).map Prod.fst ↔
          candidate ∈ installed.map Prod.fst := by
        rw [List.map_append, List.mem_append, List.map_cons, List.map_nil,
          List.mem_singleton]
        exact or_iff_left same
      rw [State.setDisposition_of_ne same, standing.dispositions candidate]
      simp only [others]
      rfl
  recorded := by
    intro entry member
    rcases List.mem_append.mp member with old | new
    · exact standing.recorded entry old
    · rw [List.mem_singleton.mp new]
      change s.dispositions signal = s.savedDispositions signal
      rw [standing.dispositions signal, if_neg absent]
  distinct := by
    rw [List.map_append, List.nodup_append]
    refine ⟨standing.distinct, List.nodup_singleton _, ?_⟩
    rintro candidate old second new rfl
    rw [List.map_cons, List.map_nil, List.mem_singleton] at new
    rw [new] at old
    exact absent old
  own := standing.own
  pending := standing.pending
  raised := standing.raised

theorem At.reverse (standing : At installed desk s) :
    At installed.reverse desk s where
  desk := standing.desk
  dispositions := by
    intro signal
    rw [standing.dispositions signal, List.map_reverse]
    simp only [List.mem_reverse]
  recorded entry member :=
    standing.recorded entry (List.mem_reverse.mp member)
  distinct := by
    rw [List.map_reverse]
    exact List.nodup_reverse.mpr standing.distinct
  own := standing.own
  pending := standing.pending
  raised := standing.raised

/-- Other settings of the terminal. -/
theorem At.withDesk {changed : Desk} (standing : At installed desk s) :
    At installed changed { s with desk := changed } where
  desk := rfl
  dispositions := standing.dispositions
  recorded := standing.recorded
  distinct := standing.distinct
  own := standing.own
  pending := standing.pending
  raised := standing.raised

end RymgaLoader.Launcher.Terminal
