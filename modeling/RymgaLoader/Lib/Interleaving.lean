import RymgaLoader.Lib.Program
import Mathlib.Logic.Relation
import Mathlib.Logic.Function.Basic

/-!
# Interleaved programs

Actors share one state.  An actor starts a program, makes its calls one at a
time, finishes or is stopped between any two calls, and any other actor may
act in between.  Programs are verified one at a time against what the others
are relied upon to do; the rule at the end combines them.
-/

namespace Interleaving

open Program

/-- The calls of the actors and the other events of a shared state. -/
structure System (Actor : Type) (Op : Type) (Result : Op → Type) (α σ : Type)
    where
  act : Actor → Semantics Op Result σ
  start : Actor → Program Op Result α → σ → σ → Prop
  finish : Actor → α → σ → σ → Prop
  stop : Actor → σ → σ → Prop
  other : σ → σ → Prop

variable {Actor Op : Type} {Result : Op → Type} {α β σ : Type}

/-- The system in which every call meets `condition`. -/
def System.under (system : System Actor Op Result α σ)
    (condition : Actor → (op : Op) → σ → Result op → Prop) :
    System Actor Op Result α σ where
  act actor op before result after :=
    system.act actor op before result after ∧
      condition actor op before result
  start := system.start
  finish := system.finish
  stop := system.stop
  other := system.other

section Discipline

/-- What holds between calls, what each actor relies on the others to do, and
what each call must be. -/
structure Discipline (system : System Actor Op Result α σ) where
  invariant : σ → Prop
  rely : Actor → σ → σ → Prop
  good : Actor → (op : Op) → σ → Result op → Prop

variable {system : System Actor Op Result α σ}
  (discipline : Discipline system)

/-- What may happen to the state while `actor` makes no call. -/
def Discipline.Drift (actor : Actor) : σ → σ → Prop :=
  Relation.ReflTransGen fun before after =>
    discipline.invariant before ∧ discipline.invariant after ∧
      discipline.rely actor before after

/-- A call by `actor` keeps to the discipline. -/
structure Discipline.Keeps (actor : Actor) (op : Op) (before : σ)
    (result : Result op) (after : σ) : Prop where
  invariant : discipline.invariant after
  rely : ∀ other, other ≠ actor → discipline.rely other before after
  good : discipline.good actor op before result

/-- Run by `actor` from a state reached by drifting from `before`, the program
keeps to the discipline at every call and ends in `post`. -/
def Discipline.Robust (actor : Actor) (post : β → σ → Prop) :
    Program Op Result β → σ → Prop
  | .done value, before => ∀ after, discipline.invariant after →
      discipline.Drift actor before after → post value after
  | .call op next, before => ∀ middle, discipline.invariant middle →
      discipline.Drift actor before middle → ∀ result after,
        system.act actor op middle result after →
          discipline.Keeps actor op middle result after ∧
            Discipline.Robust actor post (next result) after

/-- An assertion the other actors cannot invalidate. -/
def Discipline.Stable (actor : Actor) (assertion : σ → Prop) : Prop :=
  ∀ before after, discipline.invariant before → discipline.invariant after →
    discipline.rely actor before after → assertion before → assertion after

variable {discipline} {actor : Actor} {post : β → σ → Prop}

theorem Discipline.Stable.drift {assertion : σ → Prop} {before after : σ}
    (stable : discipline.Stable actor assertion)
    (drift : discipline.Drift actor before after)
    (holds : assertion before) : assertion after := by
  induction drift with
  | refl => exact holds
  | tail _ step ih =>
      obtain ⟨invariantBefore, invariantAfter, relied⟩ := step
      exact stable _ _ invariantBefore invariantAfter relied ih

theorem Discipline.Stable.and {first second : σ → Prop}
    (left : discipline.Stable actor first)
    (right : discipline.Stable actor second) :
    discipline.Stable actor fun state => first state ∧ second state := by
  rintro before after invariant invariantAfter relied ⟨one, two⟩
  exact ⟨left before after invariant invariantAfter relied one,
    right before after invariant invariantAfter relied two⟩

theorem Discipline.Robust.done {value : β} {before : σ}
    (stable : discipline.Stable actor (post value))
    (holds : post value before) :
    discipline.Robust actor post (.done value) before := by
  intro after _ drift
  exact stable.drift drift holds

theorem Discipline.Robust.call {assertion : σ → Prop} {op : Op}
    {next : Result op → Program Op Result β} {before : σ}
    (stable : discipline.Stable actor assertion) (holds : assertion before)
    (step : ∀ middle result after, discipline.invariant middle →
      assertion middle → system.act actor op middle result after →
        discipline.Keeps actor op middle result after ∧
          discipline.Robust actor post (next result) after) :
    discipline.Robust actor post (.call op next) before := by
  intro middle invariant drift result after acted
  exact step middle result after invariant (stable.drift drift holds) acted

theorem Discipline.Robust.of_drift {program : Program Op Result β}
    {before after : σ} (robust : discipline.Robust actor post program before)
    (drift : discipline.Drift actor before after) :
    discipline.Robust actor post program after := by
  cases program with
  | done value =>
      intro final invariant further
      exact robust final invariant (drift.trans further)
  | call op next =>
      intro middle invariant further
      exact robust middle invariant (drift.trans further)

theorem Discipline.Robust.mono {program : Program Op Result β}
    {weak : β → σ → Prop} {before : σ}
    (robust : discipline.Robust actor post program before)
    (weaker : ∀ value after, post value after → weak value after) :
    discipline.Robust actor weak program before := by
  induction program generalizing before with
  | done value =>
      intro after invariant drift
      exact weaker value after (robust after invariant drift)
  | call op next ih =>
      intro middle invariant drift result after acted
      obtain ⟨keeps, rest⟩ := robust middle invariant drift result after acted
      exact ⟨keeps, ih result rest⟩

/-- Robustness need only be shown where the state may have drifted to. -/
theorem Discipline.Robust.of_drifted {program : Program Op Result β}
    {before : σ}
    (robust : ∀ after, discipline.invariant after →
      discipline.Drift actor before after →
        discipline.Robust actor post program after) :
    discipline.Robust actor post program before := by
  cases program with
  | done value =>
      intro after invariant drift
      exact robust after invariant drift after invariant
        Relation.ReflTransGen.refl
  | call op next =>
      intro middle invariant drift
      exact robust middle invariant drift middle invariant
        Relation.ReflTransGen.refl

theorem Discipline.Robust.bind {γ : Type} {between : γ → σ → Prop}
    {program : Program Op Result γ}
    {continuation : γ → Program Op Result β} {before : σ}
    (first : discipline.Robust actor between program before)
    (second : ∀ value after, between value after →
      discipline.Robust actor post (continuation value) after) :
    discipline.Robust actor post (program >>= continuation) before := by
  induction program generalizing before with
  | done value =>
      apply Discipline.Robust.of_drifted
      intro after invariant drift
      exact second value after (first after invariant drift)
  | call op next ih =>
      intro middle invariantMiddle drift result after acted
      obtain ⟨keeps, rest⟩ := first middle invariantMiddle drift result after
        acted
      exact ⟨keeps, ih result rest⟩

/-- What is robust under one discipline is robust under another whose calls
are among those of the first, which knows and relies on more and asks nothing
else of a call. -/
theorem Discipline.Robust.transfer {second : System Actor Op Result α σ}
    {target : Discipline second} {program : Program Op Result β} {before : σ}
    (acts : ∀ op before result after,
      second.act actor op before result after →
        system.act actor op before result after)
    (invariant : ∀ state, target.invariant state →
      discipline.invariant state)
    (rely : ∀ before after, target.rely actor before after →
      discipline.rely actor before after)
    (keeps : ∀ op before result after, target.invariant before →
      second.act actor op before result after →
      discipline.Keeps actor op before result after →
        target.Keeps actor op before result after)
    (robust : discipline.Robust actor post program before) :
    target.Robust actor post program before := by
  have drifts : ∀ first last, target.Drift actor first last →
      discipline.Drift actor first last := by
    intro first last drift
    refine drift.lift id ?_
    rintro before after ⟨one, two, relied⟩
    exact ⟨invariant _ one, invariant _ two, rely _ _ relied⟩
  induction program generalizing before with
  | done value =>
      intro after holds drift
      exact robust after (invariant after holds) (drifts _ _ drift)
  | call op next ih =>
      intro middle holds drift result after acted
      obtain ⟨kept, rest⟩ := robust middle (invariant middle holds)
        (drifts _ _ drift) result after (acts op middle result after acted)
      exact ⟨keeps op middle result after holds acted kept, ih result rest⟩

theorem Discipline.Stable.transfer {second : System Actor Op Result α σ}
    {target : Discipline second} {assertion : σ → Prop}
    (stable : discipline.Stable actor assertion)
    (invariant : ∀ state, target.invariant state →
      discipline.invariant state)
    (rely : ∀ before after, target.rely actor before after →
      discipline.rely actor before after) :
    target.Stable actor assertion :=
  fun before after one two relied => stable before after (invariant _ one)
    (invariant _ two) (rely _ _ relied)

end Discipline

/-- The shared state and the program each actor is running. -/
structure Configuration (Actor Op : Type) (Result : Op → Type) (α σ : Type)
    where
  state : σ
  running : Actor → Option (Program Op Result α)

variable [DecidableEq Actor]

inductive Step (system : System Actor Op Result α σ) :
    Configuration Actor Op Result α σ →
      Configuration Actor Op Result α σ → Prop
  | act {before actor op next result after}
      (active : before.running actor = some (.call op next))
      (acted : system.act actor op before.state result after) :
      Step system before
        ⟨after, Function.update before.running actor (some (next result))⟩
  | start {before actor program after}
      (idle : before.running actor = none)
      (started : system.start actor program before.state after) :
      Step system before
        ⟨after, Function.update before.running actor (some program)⟩
  | finish {before actor value after}
      (active : before.running actor = some (.done value))
      (finished : system.finish actor value before.state after) :
      Step system before
        ⟨after, Function.update before.running actor none⟩
  | stop {before actor after}
      (stopped : system.stop actor before.state after) :
      Step system before
        ⟨after, Function.update before.running actor none⟩
  | other {before after} (changed : system.other before.state after) :
      Step system before ⟨after, before.running⟩

/-- The configurations of runs that begin in `initial` with no program
running. -/
inductive Reachable (system : System Actor Op Result α σ) (initial : σ) :
    Configuration Actor Op Result α σ → Prop
  | initial : Reachable system initial ⟨initial, fun _ => none⟩
  | step {before after} (reached : Reachable system initial before)
      (step : Step system before after) : Reachable system initial after

/-- A run under one condition is one under another, where the first implies
the second in every state the run can reach. -/
theorem Reachable.under_mono {system : System Actor Op Result α σ}
    {strong weak : Actor → (op : Op) → σ → Result op → Prop} {initial : σ}
    {holds : σ → Prop}
    (held : ∀ configuration,
      Reachable (system.under strong) initial configuration →
        holds configuration.state)
    (implies : ∀ actor op before result, holds before →
      strong actor op before result → weak actor op before result)
    {configuration : Configuration Actor Op Result α σ}
    (reached : Reachable (system.under strong) initial configuration) :
    Reachable (system.under weak) initial configuration := by
  induction reached with
  | initial => exact .initial
  | step earlier step ih =>
      refine .step ih ?_
      cases step with
      | act active acted =>
          exact .act active ⟨acted.1, implies _ _ _ _ (held _ earlier) acted.2⟩
      | start idle started => exact .start idle started
      | finish active finished => exact .finish active finished
      | stop stopped => exact .stop stopped
      | other changed => exact .other changed

section Soundness

variable {system : System Actor Op Result α σ}

/-- What the events around the programs owe the discipline. -/
structure Discipline.Sound (discipline : Discipline system)
    (post : Actor → α → σ → Prop) : Prop where
  start : ∀ actor program before after, discipline.invariant before →
    system.start actor program before after → discipline.invariant after ∧
      (∀ other, other ≠ actor → discipline.rely other before after) ∧
      discipline.Robust actor (post actor) program after
  finish : ∀ actor value before after, discipline.invariant before →
    post actor value before → system.finish actor value before after →
      discipline.invariant after ∧
        ∀ other, other ≠ actor → discipline.rely other before after
  stop : ∀ actor before after, discipline.invariant before →
    system.stop actor before after → discipline.invariant after ∧
      ∀ other, other ≠ actor → discipline.rely other before after
  other : ∀ before after, discipline.invariant before →
    system.other before after → discipline.invariant after ∧
      ∀ actor, discipline.rely actor before after

variable {discipline : Discipline system}
  {everyPost : Actor → α → σ → Prop} {initial : σ}

private theorem robust_update {actor : Actor}
    {running : Actor → Option (Program Op Result α)}
    {replacement : Option (Program Op Result α)} {before after : σ}
    (robust : ∀ candidate program, running candidate = some program →
      discipline.Robust candidate (everyPost candidate) program before)
    (invariantBefore : discipline.invariant before)
    (invariantAfter : discipline.invariant after)
    (relied : ∀ other, other ≠ actor → discipline.rely other before after)
    (own : ∀ program, replacement = some program →
      discipline.Robust actor (everyPost actor) program after) :
    ∀ candidate program,
      Function.update running actor replacement candidate = some program →
        discipline.Robust candidate (everyPost candidate) program after := by
  intro candidate program active
  by_cases same : candidate = actor
  · subst same
    rw [Function.update_self] at active
    exact own program active
  · rw [Function.update_of_ne same] at active
    exact (robust candidate program active).of_drift
      (Relation.ReflTransGen.single
        ⟨invariantBefore, invariantAfter, relied candidate same⟩)

/-- In every run the invariant holds, and every running program is robust
where it stands. -/
theorem Discipline.Sound.reachable (sound : discipline.Sound everyPost)
    (holds : discipline.invariant initial)
    {configuration : Configuration Actor Op Result α σ}
    (reached : Reachable system initial configuration) :
    discipline.invariant configuration.state ∧
      ∀ actor program, configuration.running actor = some program →
        discipline.Robust actor (everyPost actor) program
          configuration.state := by
  induction reached with
  | initial =>
      refine ⟨holds, ?_⟩
      intro actor program active
      cases active
  | step _ step ih =>
      obtain ⟨invariant, robust⟩ := ih
      cases step with
      | @act actor op next result after active acted =>
          obtain ⟨keeps, rest⟩ := robust actor _ active _ invariant
            Relation.ReflTransGen.refl result after acted
          refine ⟨keeps.invariant, robust_update robust invariant
            keeps.invariant keeps.rely ?_⟩
          rintro program ⟨⟩
          exact rest
      | @start actor program after idle started =>
          obtain ⟨invariantAfter, relied, fresh⟩ :=
            sound.start actor program _ after invariant started
          refine ⟨invariantAfter, robust_update robust invariant
            invariantAfter relied ?_⟩
          rintro candidate ⟨⟩
          exact fresh
      | @finish actor value after active finished =>
          obtain ⟨invariantAfter, relied⟩ := sound.finish actor value _ after
            invariant (robust actor _ active _ invariant
              Relation.ReflTransGen.refl) finished
          refine ⟨invariantAfter, robust_update robust invariant
            invariantAfter relied ?_⟩
          rintro program ⟨⟩
      | @stop actor after stopped =>
          obtain ⟨invariantAfter, relied⟩ :=
            sound.stop actor _ after invariant stopped
          refine ⟨invariantAfter, robust_update robust invariant
            invariantAfter relied ?_⟩
          rintro program ⟨⟩
      | @other after changed =>
          obtain ⟨invariantAfter, relied⟩ :=
            sound.other _ after invariant changed
          refine ⟨invariantAfter, ?_⟩
          intro actor program active
          exact (robust actor program active).of_drift
            (Relation.ReflTransGen.single
              ⟨invariant, invariantAfter, relied actor⟩)

/-- Every call of every run is a good one. -/
theorem Discipline.Sound.good (sound : discipline.Sound everyPost)
    (holds : discipline.invariant initial)
    {configuration : Configuration Actor Op Result α σ}
    (reached : Reachable system initial configuration) {actor : Actor}
    {op : Op} {next : Result op → Program Op Result α} {result : Result op}
    {after : σ}
    (active : configuration.running actor = some (.call op next))
    (acted : system.act actor op configuration.state result after) :
    discipline.good actor op configuration.state result := by
  obtain ⟨invariant, robust⟩ := sound.reachable holds reached
  obtain ⟨keeps, -⟩ := robust actor _ active _ invariant
    Relation.ReflTransGen.refl result after acted
  exact keeps.good

end Soundness

end Interleaving
