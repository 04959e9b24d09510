import Mathlib.Logic.Basic

/-!
# Programs over a signature of calls

A program is a tree of calls to its surroundings, each continued by what the
call returned.  What the calls do is a separate relation, so one program text
can be run alone, under assumptions on the outcomes of calls, or interleaved
with other programs.
-/

/-- Programs that make calls `op`, answered by `Result op`. -/
inductive Program (Op : Type) (Result : Op → Type) (α : Type) : Type
  | done (value : α)
  | call (op : Op) (next : Result op → Program Op Result α)

namespace Program

variable {Op : Type} {Result : Op → Type} {α β σ : Type}

def bind : Program Op Result α → (α → Program Op Result β) →
    Program Op Result β
  | .done value, continuation => continuation value
  | .call op next, continuation =>
      .call op fun result => bind (next result) continuation

instance : Monad (Program Op Result) where
  pure := .done
  bind := Program.bind

/-- The program that makes one call and returns its answer. -/
def perform (op : Op) : Program Op Result (Result op) := .call op .done

@[simp] theorem pure_eq_done (value : α) :
    (pure value : Program Op Result α) = .done value := rfl

@[simp] theorem done_bind (value : α)
    (continuation : α → Program Op Result β) :
    (Program.done value >>= continuation) = continuation value := rfl

@[simp] theorem call_bind (op : Op) (next : Result op → Program Op Result α)
    (continuation : α → Program Op Result β) :
    (Program.call op next >>= continuation) =
      .call op fun result => next result >>= continuation := rfl

@[simp] theorem perform_bind (op : Op)
    (continuation : Result op → Program Op Result β) :
    (perform op >>= continuation) = .call op continuation := rfl

theorem bind_bind {γ : Type} (program : Program Op Result α)
    (first : α → Program Op Result β) (second : β → Program Op Result γ) :
    (program >>= first >>= second) =
      program >>= fun value => first value >>= second := by
  induction program with
  | done value => rfl
  | call op next ih =>
      simp only [call_bind, ih]

/-- What a call may answer and do to the state. -/
abbrev Semantics (Op : Type) (Result : Op → Type) (σ : Type) :=
  (op : Op) → σ → Result op → σ → Prop

/-- `program` run from `before` may return `value` in state `after`. -/
def Runs (semantics : Semantics Op Result σ) :
    Program Op Result α → σ → α → σ → Prop
  | .done result, before, value, after => value = result ∧ after = before
  | .call op next, before, value, after => ∃ result between,
      semantics op before result between ∧
        Runs semantics (next result) between value after

/-- Every run from `before` ends in `post`. -/
def wp (semantics : Semantics Op Result σ) :
    Program Op Result α → (α → σ → Prop) → σ → Prop
  | .done value, post, before => post value before
  | .call op next, post, before => ∀ result between,
      semantics op before result between →
        wp semantics (next result) post between

variable {semantics : Semantics Op Result σ}

theorem wp_iff_runs {program : Program Op Result α} {post : α → σ → Prop}
    {before : σ} :
    wp semantics program post before ↔
      ∀ value after, Runs semantics program before value after →
        post value after := by
  induction program generalizing before with
  | done result =>
      constructor
      · rintro holds value after ⟨rfl, rfl⟩
        exact holds
      · intro holds
        exact holds result before ⟨rfl, rfl⟩
  | call op next ih =>
      constructor
      · rintro holds value after ⟨result, between, answered, rest⟩
        exact (ih result).mp (holds result between answered) value after rest
      · intro holds result between answered
        exact (ih result).mpr fun value after rest =>
          holds value after ⟨result, between, answered, rest⟩

@[simp] theorem wp_done {value : α} {post : α → σ → Prop} {before : σ} :
    wp semantics (.done value) post before ↔ post value before := Iff.rfl

theorem wp_call {op : Op} {next : Result op → Program Op Result α}
    {post : α → σ → Prop} {before : σ} :
    wp semantics (.call op next) post before ↔
      ∀ result between, semantics op before result between →
        wp semantics (next result) post between := Iff.rfl

theorem wp_bind {program : Program Op Result α}
    {continuation : α → Program Op Result β} {post : β → σ → Prop}
    {before : σ} :
    wp semantics (program >>= continuation) post before ↔
      wp semantics program
        (fun value => wp semantics (continuation value) post) before := by
  induction program generalizing before with
  | done value => rfl
  | call op next ih =>
      simp only [call_bind, wp_call, ih]

theorem wp_mono {program : Program Op Result α}
    {strong weak : α → σ → Prop} {before : σ}
    (holds : wp semantics program strong before)
    (weaker : ∀ value after, strong value after → weak value after) :
    wp semantics program weak before := by
  rw [wp_iff_runs] at holds ⊢
  intro value after run
  exact weaker value after (holds value after run)

theorem wp_and {program : Program Op Result α} {first second : α → σ → Prop}
    {before : σ} (left : wp semantics program first before)
    (right : wp semantics program second before) :
    wp semantics program (fun value after => first value after ∧
      second value after) before := by
  rw [wp_iff_runs] at left right ⊢
  intro value after run
  exact ⟨left value after run, right value after run⟩

/-- What every call preserves, every program preserves. -/
theorem wp_of_preserved {kept : σ → Prop}
    (preserved : ∀ op before result after, kept before →
      semantics op before result after → kept after)
    (program : Program Op Result α) {before : σ} (holds : kept before) :
    wp semantics program (fun _ => kept) before := by
  induction program generalizing before with
  | done value => exact holds
  | call op next ih =>
      intro result between answered
      exact ih result (preserved op before result between holds answered)

/-- A condition on the outcome need only be shown where it matters. -/
theorem wp_of_imp {condition : Prop} {program : Program Op Result α}
    {post : α → σ → Prop} {before : σ}
    (holds : condition → wp semantics program post before) :
    wp semantics program (fun value after => condition → post value after)
      before := by
  rw [wp_iff_runs]
  intro value after run met
  exact wp_iff_runs.mp (holds met) value after run

theorem Runs.bind_iff {program : Program Op Result α}
    {continuation : α → Program Op Result β} {before after : σ} {value : β} :
    Runs semantics (program >>= continuation) before value after ↔
      ∃ result between, Runs semantics program before result between ∧
        Runs semantics (continuation result) between value after := by
  induction program generalizing before with
  | done result =>
      constructor
      · intro rest
        exact ⟨result, before, ⟨rfl, rfl⟩, rest⟩
      · rintro ⟨result, between, ⟨rfl, rfl⟩, rest⟩
        exact rest
  | call op next ih =>
      constructor
      · rintro ⟨answer, middle, answered, rest⟩
        obtain ⟨result, between, first, second⟩ := (ih answer).mp rest
        exact ⟨result, between, ⟨answer, middle, answered, first⟩, second⟩
      · rintro ⟨result, between, ⟨answer, middle, answered, first⟩, second⟩
        exact ⟨answer, middle, answered,
          (ih answer).mpr ⟨result, between, first, second⟩⟩

/-- Where calls may do more, programs may do more. -/
theorem Runs.mono {weaker : Semantics Op Result σ}
    {program : Program Op Result α} {before after : σ} {value : α}
    (run : Runs semantics program before value after)
    (weaken : ∀ op before result after,
      semantics op before result after → weaker op before result after) :
    Runs weaker program before value after := by
  induction program generalizing before with
  | done result => exact run
  | call op next ih =>
      obtain ⟨result, between, answered, rest⟩ := run
      exact ⟨result, between, weaken op before result between answered,
        ih result rest⟩

/-- Some run from `before` ends in `post`. -/
def may (semantics : Semantics Op Result σ) :
    Program Op Result α → (α → σ → Prop) → σ → Prop
  | .done value, post, before => post value before
  | .call op next, post, before => ∃ result between,
      semantics op before result between ∧
        may semantics (next result) post between

theorem may_iff_runs {program : Program Op Result α} {post : α → σ → Prop}
    {before : σ} :
    may semantics program post before ↔
      ∃ value after, Runs semantics program before value after ∧
        post value after := by
  induction program generalizing before with
  | done result =>
      constructor
      · intro holds
        exact ⟨result, before, ⟨rfl, rfl⟩, holds⟩
      · rintro ⟨value, after, ⟨rfl, rfl⟩, holds⟩
        exact holds
  | call op next ih =>
      constructor
      · rintro ⟨result, between, answered, rest⟩
        obtain ⟨value, after, run, holds⟩ := (ih result).mp rest
        exact ⟨value, after, ⟨result, between, answered, run⟩, holds⟩
      · rintro ⟨value, after, ⟨result, between, answered, run⟩, holds⟩
        exact ⟨result, between, answered,
          (ih result).mpr ⟨value, after, run, holds⟩⟩

theorem may_bind {program : Program Op Result α}
    {continuation : α → Program Op Result β} {post : β → σ → Prop}
    {before : σ} :
    may semantics (program >>= continuation) post before ↔
      may semantics program
        (fun value => may semantics (continuation value) post) before := by
  induction program generalizing before with
  | done value => rfl
  | call op next ih =>
      constructor
      · rintro ⟨result, between, answered, rest⟩
        exact ⟨result, between, answered, (ih result).mp rest⟩
      · rintro ⟨result, between, answered, rest⟩
        exact ⟨result, between, answered, (ih result).mpr rest⟩

theorem may_mono {program : Program Op Result α}
    {strong weak : α → σ → Prop} {before : σ}
    (holds : may semantics program strong before)
    (weaker : ∀ value after, strong value after → weak value after) :
    may semantics program weak before := by
  rw [may_iff_runs] at holds ⊢
  obtain ⟨value, after, run, strong⟩ := holds
  exact ⟨value, after, run, weaker value after strong⟩

/-- The run of a program on a machine that picks one answer for each call. -/
def follow (machine : (op : Op) → σ → Option (Result op × σ)) :
    Program Op Result α → σ → Option (α × σ)
  | .done value, state => some (value, state)
  | .call op next, state =>
      match machine op state with
      | some (result, between) => follow machine (next result) between
      | none => none

theorem runs_of_follow {machine : (op : Op) → σ → Option (Result op × σ)}
    (faithful : ∀ op before result after,
      machine op before = some (result, after) →
        semantics op before result after)
    {program : Program Op Result α} {before after : σ} {value : α}
    (followed : follow machine program before = some (value, after)) :
    Runs semantics program before value after := by
  induction program generalizing before with
  | done result =>
      cases followed
      exact ⟨rfl, rfl⟩
  | call op next ih =>
      rw [follow] at followed
      split at followed
      · rename_i result between answered
        exact ⟨result, between, faithful op before result between answered,
          ih result followed⟩
      · cases followed

/-- Where every call has an answer that keeps a program ready, every program
has a run. -/
theorem exists_runs {ready : σ → Prop}
    (total : ∀ op before, ready before → ∃ result after,
      semantics op before result after ∧ ready after)
    (program : Program Op Result α) {before : σ} (start : ready before) :
    ∃ value after, Runs semantics program before value after ∧
      ready after := by
  induction program generalizing before with
  | done value => exact ⟨value, before, ⟨rfl, rfl⟩, start⟩
  | call op next ih =>
      obtain ⟨result, between, answered, ready⟩ := total op before start
      obtain ⟨value, after, rest, readyAfter⟩ := ih result ready
      exact ⟨value, after, ⟨result, between, answered, rest⟩, readyAfter⟩

section Lift

variable {Sub : Type} {SubResult : Sub → Type}

/-- A program whose calls are made as calls of another signature. -/
def lift (embed : Sub → Op)
    (back : (sub : Sub) → Result (embed sub) → SubResult sub) :
    Program Sub SubResult α → Program Op Result α
  | .done value => .done value
  | .call sub next =>
      .call (embed sub) fun answer => lift embed back (next (back sub answer))

end Lift

end Program
