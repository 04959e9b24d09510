import RymgaLoader.Paper.Bootstrap

/-!
# Who closes the artifact

The artifact passes from the license thread through the future, a queued task
and the server thread to a field of the bootstrap.  Whoever has it closes it
or hands it on, unless Bukkit drops the queued task or `loadPlugin` ends in an
error that is no exception.
-/

namespace RymgaLoader.Paper

open Interleaving

/-- A native handle is out. -/
def Bootstrap.Live (s : Bootstrap) : Prop := s.raw = true ∨ s.handle = true

/-- What holds between the steps of the threads. -/
structure Bootstrap.Sane (s : Bootstrap) : Prop where
  counted : s.released + s.raw.toNat + s.handle.toNat = s.acquired
  once : s.acquired ≤ 1
  early : s.work = .absent ∨ s.work = .waiting → s.acquired = 0
  unowned : s.acquired = 0 → s.custody = .nobody
  cared : s.Live → s.custody ≠ .nobody
  wrapped : s.raw = true → s.custody = .license
  working : s.Live → s.custody = .license → s.work = .running
  awaited : s.custody = .future ↔
    s.future = some .artifact ∧ s.main.callback = false
  attached : s.work ≠ .absent →
    s.main.callback = true ∨ s.main.job = some .enable
  queued : s.tasks.count .artifact = if s.custody = .task then 1 else 0
  held : s.main.artifact = true ↔ s.custody = .field
  serving : s.Live → s.custody = .server → s.main.job ≠ none
  pending : s.custody = .task → s.main.enabled = true
  drained : s.main.stopping = true → s.main.job = none →
    s.main.artifact = false
  begun : s.main.callback = true → s.main.begun = true

/-- What a thread relies on the other one to leave alone. -/
structure Respects (thread : Thread) (before after : Bootstrap) : Prop where
  main : thread = .server → after.main = before.main
  absent : thread = .server → before.work = .absent → after.work = .absent
  running : thread = .license → before.work = .running →
    after.work = .running
  acquired : thread = .license → after.acquired = before.acquired
  kept : before.custody = thread.custody →
    after.custody = thread.custody ∧ after.raw = before.raw ∧
      (after.handle = true → before.handle = true)
  taken : after.custody = thread.custody → before.custody = thread.custody

/-- The plugin is not disabled while a task that has the artifact waits,
`runTask` with the artifact ends in no other throwable than a
`RuntimeException` and `loadPlugin` in no other than an exception. -/
def orderly (_ : Thread) : (call : Call) → Bootstrap → Answer call → Prop
  | .setDisabled .bootstrap, before, _ => .artifact ∉ before.tasks
  | .runTask value, _, answer => value = .artifact → answer ≠ .error
  | .loadPlugin, _, answer => answer ≠ .error
  | _, _, _ => True

/-- Where the server thread stands. -/
structure Standing (m : Main) (s : Bootstrap) : Prop where
  main : s.main = m
  attached : m.callback = false → s.work = .absent

/-- The server thread has nothing to close. -/
structure Serving (m : Main) (s : Bootstrap) : Prop
    extends Standing m s where
  free : s.Live → s.custody ≠ .server

/-- The server thread has the artifact. -/
structure Holding (m : Main) (s : Bootstrap) : Prop
    extends Standing m s where
  own : s.custody = .server

/-- The license thread has nothing to close. -/
structure Working (s : Bootstrap) : Prop where
  running : s.work = .running
  free : s.Live → s.custody ≠ .license

theorem Respects.live {thread : Thread} {before after : Bootstrap}
    (respects : Respects thread before after)
    (live : after.Live) (own : after.custody = thread.custody) :
    before.Live := by
  obtain ⟨-, raw, handle⟩ := respects.kept (respects.taken own)
  rcases live with unwrapped | opened
  · exact Or.inl (by rw [← raw, unwrapped])
  · exact Or.inr (handle opened)

theorem Respects.refl (thread : Thread) (s : Bootstrap) :
    Respects thread s s :=
  ⟨fun _ => rfl, fun _ => id, fun _ => id, fun _ => rfl,
    fun own => ⟨own, rfl, id⟩, id⟩

section Stability

variable {m : Main}

end Stability

/-- What a step of the server thread leaves. -/
structure Served (before after : Bootstrap) (assertion : Bootstrap → Prop) :
    Prop where
  sane : after.Sane
  respects : Respects .license before after
  holds : assertion after

section Server

variable {m : Main} {before after : Bootstrap}

/-- The server thread has what it is given. -/
def Given (m : Main) (value : Completion) (s : Bootstrap) : Prop :=
  if value = .artifact then Holding m s else Serving m s

theorem Given.standing {value : Completion} {s : Bootstrap}
    (given : Given m value s) : Standing m s := by
  unfold Given at given
  split at given
  · exact given.toStanding
  · exact given.toStanding

end Server

section ServerPrograms

variable {m : Main} {before : Bootstrap} {post : Unit → Bootstrap → Prop}

theorem exec_read {answer expected : α} [DecidableEq α]
    {s after : Bootstrap}
    (acted : (if answer = expected then some s else none) = some after) :
    after = s ∧ answer = expected := by
  split at acted
  · rename_i same
    cases acted
    exact ⟨rfl, same⟩
  · cases acted

/-- Only the artifact and the marks of plugins may be gone. -/
structure Calmer (m calm : Main) : Prop where
  callback : calm.callback = m.callback
  job : calm.job = m.job
  stopping : calm.stopping = m.stopping
  artifact : calm.artifact = true → m.artifact = true
  enabled : calm.enabled = true → m.enabled = true

theorem Calmer.refl (m : Main) : Calmer m m := ⟨rfl, rfl, rfl, id, id⟩

theorem Calmer.trans {first second third : Main} (one : Calmer first second)
    (two : Calmer second third) : Calmer first third where
  callback := two.callback.trans one.callback
  job := two.job.trans one.job
  stopping := two.stopping.trans one.stopping
  artifact := one.artifact ∘ two.artifact
  enabled := one.enabled ∘ two.enabled

/-- The mark that disables a plugin. -/
def Main.disable (m : Main) : Plugin → Main
  | .bootstrap => { m with enabled := false }
  | .artifactPlugin => { m with protectedEnabled := false }
  | .other => m

end ServerPrograms

end RymgaLoader.Paper
