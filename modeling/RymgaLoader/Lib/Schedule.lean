import RymgaLoader.Lib.Interleaving

/-!
# Executable schedules

A driver chooses one of the possible outcomes of every event, so a schedule
of events can be evaluated; what it reaches is reachable.
-/

namespace Interleaving

open Program

variable {Actor Op : Type} {Result : Op → Type} {α σ : Type}

/-- One event of a run, with the choices that determine it. -/
inductive Move (Actor Choice Job Event : Type)
  | start (actor : Actor) (job : Job)
  | call (actor : Actor) (choice : Choice)
  | finish (actor : Actor)
  | stop (actor : Actor)
  | other (event : Event)

/-- An evaluation of the events of a system that picks only outcomes the
system has. -/
structure Driver (system : System Actor Op Result α σ)
    (Choice Job Event : Type) where
  start : Actor → Job → σ → Option (Program Op Result α × σ)
  call : Actor → Choice → (op : Op) → σ → Option (Result op × σ)
  finish : Actor → α → σ → Option σ
  stop : Actor → σ → Option σ
  other : Event → σ → Option σ
  started : ∀ {actor job before program after},
    start actor job before = some (program, after) →
      system.start actor program before after
  called : ∀ {actor choice op before result after},
    call actor choice op before = some (result, after) →
      system.act actor op before result after
  finished : ∀ {actor value before after},
    finish actor value before = some after →
      system.finish actor value before after
  stopped : ∀ {actor before after}, stop actor before = some after →
    system.stop actor before after
  changed : ∀ {event before after}, other event before = some after →
    system.other before after

variable {system : System Actor Op Result α σ} {Choice Job Event : Type}

/-- The driver that makes only calls meeting `condition`. -/
def Driver.under (driver : Driver system Choice Job Event)
    (condition : Actor → (op : Op) → σ → Result op → Prop)
    [∀ actor op state result, Decidable (condition actor op state result)] :
    Driver (system.under condition) Choice Job Event where
  start := driver.start
  call actor choice op before :=
    (driver.call actor choice op before).filter fun (result, _) =>
      condition actor op before result
  finish := driver.finish
  stop := driver.stop
  other := driver.other
  started := driver.started
  called := by
    intro actor choice op before result after answered
    obtain ⟨made, met⟩ := Option.filter_eq_some_iff.mp answered
    exact ⟨driver.called made, of_decide_eq_true met⟩
  finished := driver.finished
  stopped := driver.stopped
  changed := driver.changed

variable [DecidableEq Actor]

/-- The configuration after one move, if it can be made. -/
def Driver.move (driver : Driver system Choice Job Event)
    (configuration : Configuration Actor Op Result α σ) :
    Move Actor Choice Job Event → Option (Configuration Actor Op Result α σ)
  | .start actor job =>
      match configuration.running actor with
      | some _ => none
      | none => (driver.start actor job configuration.state).map
          fun (program, after) => ⟨after,
            Function.update configuration.running actor (some program)⟩
  | .call actor choice =>
      match configuration.running actor with
      | some (.call op next) =>
          (driver.call actor choice op configuration.state).map
            fun (result, after) => ⟨after, Function.update
              configuration.running actor (some (next result))⟩
      | _ => none
  | .finish actor =>
      match configuration.running actor with
      | some (.done value) =>
          (driver.finish actor value configuration.state).map fun after =>
            ⟨after, Function.update configuration.running actor none⟩
      | _ => none
  | .stop actor => (driver.stop actor configuration.state).map fun after =>
      ⟨after, Function.update configuration.running actor none⟩
  | .other event => (driver.other event configuration.state).map fun after =>
      ⟨after, configuration.running⟩

theorem Driver.move_step {driver : Driver system Choice Job Event}
    {before after : Configuration Actor Op Result α σ}
    {move : Move Actor Choice Job Event}
    (moved : driver.move before move = some after) :
    Step system before after := by
  cases move with
  | start actor job =>
      rw [Driver.move] at moved
      split at moved
      · cases moved
      · rename_i idle
        obtain ⟨⟨program, state⟩, begun, rfl⟩ :=
          Option.map_eq_some_iff.mp moved
        exact .start idle (driver.started begun)
  | call actor choice =>
      rw [Driver.move] at moved
      split at moved
      · rename_i op next active
        obtain ⟨⟨result, state⟩, answered, rfl⟩ :=
          Option.map_eq_some_iff.mp moved
        exact .act active (driver.called answered)
      · cases moved
  | finish actor =>
      rw [Driver.move] at moved
      split at moved
      · rename_i value active
        obtain ⟨state, done, rfl⟩ := Option.map_eq_some_iff.mp moved
        exact .finish active (driver.finished done)
      · cases moved
  | stop actor =>
      obtain ⟨state, halted, rfl⟩ := Option.map_eq_some_iff.mp moved
      exact .stop (driver.stopped halted)
  | other event =>
      obtain ⟨state, happened, rfl⟩ := Option.map_eq_some_iff.mp moved
      exact .other (driver.changed happened)

/-- The configuration after a schedule from one in which nothing runs. -/
def Driver.play (driver : Driver system Choice Job Event) (initial : σ)
    (moves : List (Move Actor Choice Job Event)) :
    Option (Configuration Actor Op Result α σ) :=
  moves.foldlM driver.move ⟨initial, fun _ => none⟩

theorem Driver.play_reachable {driver : Driver system Choice Job Event}
    {initial : σ} {moves : List (Move Actor Choice Job Event)}
    {configuration : Configuration Actor Op Result α σ}
    (played : driver.play initial moves = some configuration) :
    Reachable system initial configuration := by
  rw [Driver.play] at played
  have extend : ∀ {before : Configuration Actor Op Result α σ},
      Reachable system initial before →
        moves.foldlM driver.move before = some configuration →
          Reachable system initial configuration := by
    clear played
    induction moves with
    | nil =>
        intro before reached stays
        cases stays
        exact reached
    | cons move moves ih =>
        intro before reached moved
        rw [List.foldlM_cons] at moved
        obtain ⟨between, first, rest⟩ := Option.bind_eq_some_iff.mp moved
        exact ih (.step reached (Driver.move_step first)) rest
  exact extend .initial played

/-- What a schedule shows at its end happens in some run. -/
theorem Driver.exists_reachable (driver : Driver system Choice Job Event)
    (initial : σ) (moves : List (Move Actor Choice Job Event))
    (check : Configuration Actor Op Result α σ → Bool)
    (shown : (driver.play initial moves).any check = true) :
    ∃ configuration, Reachable system initial configuration ∧
      check configuration = true := by
  cases played : driver.play initial moves with
  | none =>
      rw [played] at shown
      cases shown
  | some configuration =>
      rw [played] at shown
      exact ⟨configuration, Driver.play_reachable played, shown⟩

end Interleaving
