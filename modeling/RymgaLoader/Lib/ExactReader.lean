import Mathlib.Logic.Basic

/-!
# Exact readers

A reader is exact for a grammar when it returns a value precisely where an
encoding of that value stands in front of the input.  The notion does not fix
how the input is represented, nor whether failure is `none` or an exception,
so one set of rules serves every parser of a format: exact readers compose by
concatenating their grammars.
-/

namespace ExactReader

/-- Computations that either return one value or fail. -/
class Fallible (m : Type → Type) [Monad m] where
  Returns : m α → α → Prop
  returns_pure_iff {α : Type} {value result : α} :
    Returns (pure value : m α) result ↔ result = value
  returns_bind_iff {α β : Type} {first : m α} {next : α → m β} {result : β} :
    Returns (first >>= next) result ↔
      ∃ value, Returns first value ∧ Returns (next value) result
  returns_unique {α : Type} {computation : m α} {left right : α} :
    Returns computation left → Returns computation right → left = right

instance : Fallible Option where
  Returns computation value := computation = some value
  returns_pure_iff := by
    intro α value result
    exact ⟨fun same => (Option.some.inj same).symm, fun same => by
      rw [same]
      rfl⟩
  returns_bind_iff := by
    intro α β first next result
    exact Option.bind_eq_some_iff
  returns_unique := by
    intro α computation left right first second
    exact Option.some.inj (first.symm.trans second)

instance : Fallible (Except ε) where
  Returns computation value := computation = .ok value
  returns_pure_iff := by
    intro α value result
    exact ⟨fun same => (Except.ok.inj same).symm, fun same => by
      rw [same]
      rfl⟩
  returns_bind_iff := by
    intro α β first next result
    cases first with
    | error failure =>
        constructor
        · intro impossible
          cases impossible
        · rintro ⟨value, impossible, -⟩
          cases impossible
    | ok value =>
        constructor
        · intro returned
          exact ⟨value, rfl, returned⟩
        · rintro ⟨other, same, returned⟩
          cases same
          exact returned
  returns_unique := by
    intro α computation left right first second
    exact Except.ok.inj (first.symm.trans second)

/-- Input states from which byte strings are consumed front to back. -/
class Input (σ : Type) where
  Consumes : σ → List UInt8 → σ → Prop
  consumes_nil_iff {before after : σ} :
    Consumes before [] after ↔ before = after
  consumes_append_iff {before after : σ} {front back : List UInt8} :
    Consumes before (front ++ back) after ↔
      ∃ between, Consumes before front between ∧ Consumes between back after

/-- The plainest input is the list of bytes still to be read. -/
instance : Input (List UInt8) where
  Consumes before bytes after := before = bytes ++ after
  consumes_nil_iff := by
    intro before after
    rfl
  consumes_append_iff := by
    intro before after front back
    simp [List.append_assoc]

section

variable {m : Type → Type} [Monad m] [Fallible m] {σ : Type} [Input σ]

/-- `reader` returns a value exactly where the grammar places it. -/
def Exact (reader : StateT σ m α) (grammar : α → List UInt8 → Prop) : Prop :=
  ∀ before value after,
    Fallible.Returns (reader.run before) (value, after) ↔
      ∃ bytes, grammar value bytes ∧ Input.Consumes before bytes after

/-- The concatenation of two grammars, the second depending on the first
value. -/
def Sequenced (first : α → List UInt8 → Prop)
    (second : α → β → List UInt8 → Prop) (result : β) (bytes : List UInt8) :
    Prop :=
  ∃ value front back,
    first value front ∧ second value result back ∧ bytes = front ++ back

theorem Exact.pure (value : α) :
    Exact (pure value : StateT σ m α)
      (fun result bytes => result = value ∧ bytes = []) := by
  intro before result after
  rw [StateT.run_pure, Fallible.returns_pure_iff, Prod.mk.injEq]
  constructor
  · rintro ⟨rfl, rfl⟩
    exact ⟨[], ⟨rfl, rfl⟩, Input.consumes_nil_iff.mpr rfl⟩
  · rintro ⟨bytes, ⟨rfl, rfl⟩, consumed⟩
    exact ⟨rfl, (Input.consumes_nil_iff.mp consumed).symm⟩

theorem Exact.bind {first : StateT σ m α} {next : α → StateT σ m β}
    {firstGrammar : α → List UInt8 → Prop}
    {nextGrammar : α → β → List UInt8 → Prop}
    (firstExact : Exact first firstGrammar)
    (nextExact : ∀ value, Exact (next value) (nextGrammar value)) :
    Exact (first >>= next) (Sequenced firstGrammar nextGrammar) := by
  intro before result after
  rw [StateT.run_bind, Fallible.returns_bind_iff]
  constructor
  · rintro ⟨⟨value, between⟩, firstReturned, nextReturned⟩
    obtain ⟨front, firstPlaced, firstConsumed⟩ :=
      (firstExact before value between).mp firstReturned
    obtain ⟨back, nextPlaced, nextConsumed⟩ :=
      (nextExact value between result after).mp nextReturned
    exact ⟨front ++ back, ⟨value, front, back, firstPlaced, nextPlaced, rfl⟩,
      Input.consumes_append_iff.mpr ⟨between, firstConsumed, nextConsumed⟩⟩
  · rintro ⟨bytes, ⟨value, front, back, firstPlaced, nextPlaced, rfl⟩,
      consumed⟩
    obtain ⟨between, firstConsumed, nextConsumed⟩ :=
      Input.consumes_append_iff.mp consumed
    exact ⟨(value, between),
      (firstExact before value between).mpr
        ⟨front, firstPlaced, firstConsumed⟩,
      (nextExact value between result after).mpr
        ⟨back, nextPlaced, nextConsumed⟩⟩

theorem Exact.map {reader : StateT σ m α} {grammar : α → List UInt8 → Prop}
    (exact : Exact reader grammar) (convert : α → β) :
    Exact (reader >>= fun value => Pure.pure (convert value))
      (fun result bytes =>
        ∃ value, grammar value bytes ∧ result = convert value) := by
  intro before result after
  rw [Exact.bind exact (fun value => Exact.pure (convert value))
    before result after]
  simp only [Sequenced]
  constructor
  · rintro ⟨bytes, ⟨value, front, back, placed, ⟨rfl, rfl⟩, rfl⟩, consumed⟩
    exact ⟨front ++ [], ⟨value, by simpa using placed, rfl⟩, consumed⟩
  · rintro ⟨bytes, ⟨value, placed, rfl⟩, consumed⟩
    exact ⟨bytes, ⟨value, bytes, [], placed, ⟨rfl, rfl⟩, by simp⟩, consumed⟩

/-- A check that reads nothing restricts the grammar and consumes nothing. -/
theorem Exact.lift (computation : m α) :
    Exact (StateT.lift computation : StateT σ m α)
      (fun value bytes =>
        Fallible.Returns computation value ∧ bytes = []) := by
  intro before value after
  rw [StateT.run_lift, Fallible.returns_bind_iff]
  constructor
  · rintro ⟨result, returned, paired⟩
    obtain ⟨rfl, rfl⟩ := Prod.mk.inj (Fallible.returns_pure_iff.mp paired)
    exact ⟨[], ⟨returned, rfl⟩, Input.consumes_nil_iff.mpr rfl⟩
  · rintro ⟨bytes, ⟨returned, rfl⟩, consumed⟩
    refine ⟨value, returned, Fallible.returns_pure_iff.mpr ?_⟩
    rw [Input.consumes_nil_iff.mp consumed]

theorem Exact.congr {reader : StateT σ m α}
    {grammar other : α → List UInt8 → Prop} (exact : Exact reader grammar)
    (same : ∀ value bytes, grammar value bytes ↔ other value bytes) :
    Exact reader other := by
  intro before value after
  rw [exact before value after]
  simp only [same]

end

/-- A grammar with an exact reader is free of proper prefixes, and a byte
string encodes one value only. -/
theorem Exact.eq_of_isPrefix {m : Type → Type} [Monad m] [Fallible m]
    {reader : StateT (List UInt8) m α} {grammar : α → List UInt8 → Prop}
    (exact : Exact reader grammar) {left right : α} {short long : List UInt8}
    (shortPlaced : grammar left short) (longPlaced : grammar right long)
    (within : short <+: long) : left = right ∧ short = long := by
  obtain ⟨rest, rfl⟩ := within
  have first := (exact (short ++ rest) left rest).mpr
    ⟨short, shortPlaced, rfl⟩
  have second := (exact (short ++ rest) right []).mpr
    ⟨short ++ rest, longPlaced, (List.append_nil _).symm⟩
  obtain ⟨same, rfl⟩ := Prod.mk.inj (Fallible.returns_unique first second)
  exact ⟨same, (List.append_nil _).symm⟩

end ExactReader
