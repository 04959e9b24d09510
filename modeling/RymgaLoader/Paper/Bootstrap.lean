import RymgaLoader.Lib.Schedule

/-!
# The Paper bootstrap

`RymgaPaperBootstrap` as programs of two threads, the server thread and the
license thread, over the fields they share and what Bukkit does with them.
Every step may fail in the ways its source handles or lets through.  The
plugins that are not the bootstrap do not call back into it from inside one of
its own steps, since the server thread does one thing at a time.
-/

namespace RymgaLoader.Paper

inductive Plugin
  | bootstrap
  | artifactPlugin
  | other
  deriving DecidableEq, Repr

inductive Thread
  | server
  | license
  deriving DecidableEq, Repr

/-- What `acquire` left in the future: the artifact, `null` or a failure. -/
inductive Completion
  | artifact
  | nothing
  | failure
  deriving DecidableEq, Repr

/-- How a step of `acquire` ends. -/
inductive Outcome
  | success
  | ioException
  | thrown
  deriving DecidableEq, Repr

/-- How `loadPlugin` ends; `null` and the bootstrap's own name are
unexpected. -/
inductive Loading
  | plugin
  | unexpected
  | exception
  | error
  deriving DecidableEq, Repr

/-- How `enablePlugin` ends; a plugin that fails while it is enabled is
disabled again. -/
inductive Enabling
  | enabled
  | refused
  | disabled
  | exception
  | error
  deriving DecidableEq, Repr

/-- How `runTask` ends: the task is queued, a `RuntimeException` or another
throwable. -/
inductive Scheduling
  | accepted
  | refused
  | error
  deriving DecidableEq, Repr

/-- The only steps of the two threads that others can see. -/
inductive Call
  | saveDefaultConfig
  | registerEvents
  | encodeCredentials
  | supplyAsync
  | whenComplete
  | loadLibrary
  | acquireEmbedded0
  | path0
  | release0
  | settle (completion : Completion)
  | getStopping
  | setStopping
  | runTask (completion : Completion)
  | close
  | loadPlugin
  | enablePlugin
  | getArtifact
  | setArtifact (present : Bool)
  | getProtectedPlugin
  | setProtectedPlugin
  | isEnabled (plugin : Plugin)
  | setDisabled (plugin : Plugin)
  | shutdownNow
  | cancelTasks
  deriving DecidableEq, Repr

/-- What a step answers; `false` is an exception where the step returns
nothing, and missing credentials. -/
abbrev Answer : Call → Type
  | .saveDefaultConfig => Bool
  | .registerEvents => Bool
  | .encodeCredentials => Bool
  | .supplyAsync => Bool
  | .whenComplete => Option Completion
  | .loadLibrary => Outcome
  | .acquireEmbedded0 => Outcome
  | .path0 => Bool
  | .settle _ => Bool
  | .getStopping => Bool
  | .runTask _ => Scheduling
  | .loadPlugin => Loading
  | .enablePlugin => Enabling
  | .getArtifact => Bool
  | .getProtectedPlugin => Option Plugin
  | .isEnabled _ => Bool
  | _ => Unit

abbrev Java (α : Type) := Program Call Answer α

def java (call : Call) : Java (Answer call) := Program.perform call

def closeIf (value : Completion) : Java Unit :=
  if value = .artifact then java .close else return

def closeArtifact : Java Unit := do
  let value ← (java .getArtifact : Java Bool)
  java (.setArtifact false)
  if value then java .close else return

def onPluginDisable (plugin : Plugin) : Java Unit := do
  let protectedPlugin ← (java .getProtectedPlugin : Java (Option Plugin))
  if protectedPlugin = some plugin then closeArtifact else return

/-- The event of a plugin that is disabled reaches the listeners of enabled
plugins. -/
def dispatchDisable (plugin : Plugin) : Java Unit := do
  if ← (java (.isEnabled .bootstrap) : Java Bool) then
    onPluginDisable plugin
  else return

/-- `PluginManager.disablePlugin`: after the event the plugin is marked and
its own handler runs. -/
def disablePluginWith (plugin : Plugin) (handler : Java Unit) :
    Java Unit := do
  if ← (java (.isEnabled plugin) : Java Bool) then
    dispatchDisable plugin
    java (.setDisabled plugin)
    handler
  else return

def disableLoaded : Option Plugin → Java Unit
  | some loaded => do
      if ← (java (.isEnabled loaded) : Java Bool) then
        disablePluginWith loaded (return)
      else return
  | none => return

def onDisable : Java Unit := do
  java .setStopping
  java .shutdownNow
  let loaded ← (java .getProtectedPlugin : Java (Option Plugin))
  disableLoaded loaded
  closeArtifact

/-- Bukkit cancels the tasks of a plugin after its handler. -/
def disablePlugin (plugin : Plugin) : Java Unit :=
  disablePluginWith plugin (if plugin = .bootstrap then do
      onDisable
      java .cancelTasks
    else return)

def deny : Java Unit := disablePlugin .bootstrap

/-- The callback's other throwables end in the future of `whenComplete`. -/
def complete (value : Completion) : Java Unit := do
  if ← (java .getStopping : Java Bool) then closeIf value
  else
    match ← (java (.runTask value) : Java Scheduling) with
    | .accepted => return
    | .refused => closeIf value
    | .error => return

/-- `artifact` of `NativeLoader`. -/
def wrapHandle : Java Completion := do
  if ← (java .path0 : Java Bool) then return .artifact
  else
    java .release0
    return .failure

def acquire : Java Completion := do
  match ← (java .loadLibrary : Java Outcome) with
  | .ioException => return .nothing
  | .thrown => return .failure
  | .success =>
      match ← (java .acquireEmbedded0 : Java Outcome) with
      | .ioException => return .nothing
      | .thrown => return .failure
      | .success => wrapHandle

def onEnable : Java Unit := do
  if ← (java .saveDefaultConfig : Java Bool) then
    if ← (java .registerEvents : Java Bool) then
      if ← (java .encodeCredentials : Java Bool) then
        if ← (java .supplyAsync : Java Bool) then
          match ← (java .whenComplete : Java (Option Completion)) with
          | some value => complete value
          | none => return
        else return
      else deny
    else return
  else return

/-- How `load` ends: normally, by an exception or by another throwable. -/
inductive Loaded
  | normally
  | exception
  | error
  deriving DecidableEq, Repr

def checkEnabled : Java Loaded := do
  if ← (java (.isEnabled .artifactPlugin) : Java Bool) then return .normally
  else return .exception

def load : Java Loaded := do
  match ← (java .loadPlugin : Java Loading) with
  | .unexpected => return .exception
  | .exception => return .exception
  | .error => return .error
  | .plugin =>
      java (.setArtifact true)
      java .setProtectedPlugin
      match ← (java .enablePlugin : Java Enabling) with
      | .enabled => checkEnabled
      | .refused => checkEnabled
      | .disabled => do
          disablePluginWith .artifactPlugin (return)
          checkEnabled
      | .exception => return .exception
      | .error => return .error

def finishOnServerThread (value : Completion) : Java Unit := do
  if ← (java .getStopping : Java Bool) then closeIf value
  else if value ≠ .artifact then deny
  else
    match ← load with
    | .normally => return
    | .error => return
    | .exception => do
        java .close
        closeArtifact
        deny

/-- What the server thread does at the moment. -/
inductive Job
  | enable
  | task (value : Completion)
  | disable (plugin : Plugin)
  deriving DecidableEq, Repr

def Job.program : Job → Java Unit
  | .enable => onEnable
  | .task value => finishOnServerThread value
  | .disable plugin => disablePlugin plugin

/-- The license thread: no task yet, one waiting in the executor, one
running, or none any more. -/
inductive Work
  | absent
  | waiting
  | running
  | ended
  deriving DecidableEq, Repr

/-- Who has to close the artifact. -/
inductive Custody
  | nobody
  | license
  | future
  | task
  | server
  | field
  deriving DecidableEq, Repr

/-- What only the server thread changes. -/
structure Main where
  begun : Bool
  enabled : Bool
  stopping : Bool
  callback : Bool
  artifact : Bool
  protectedPlugin : Option Plugin
  protectedEnabled : Bool
  job : Option Job
  deriving DecidableEq, Repr

/-- `handle` is that of the `NativeArtifact`, `raw` one that is not wrapped
yet; `acquired` and `released` count the native calls. -/
structure Bootstrap where
  main : Main
  work : Work
  future : Option Completion
  tasks : List Completion
  raw : Bool
  handle : Bool
  acquired : Nat
  released : Nat
  custody : Custody
  deriving DecidableEq, Repr

def Bootstrap.fresh : Bootstrap where
  main := {
    begun := false
    enabled := false
    stopping := false
    callback := false
    artifact := false
    protectedPlugin := none
    protectedEnabled := false
    job := none }
  work := .absent
  future := none
  tasks := []
  raw := false
  handle := false
  acquired := 0
  released := 0
  custody := .nobody

/-- Hand the artifact over, where the value is the artifact. -/
def Bootstrap.handOver (s : Bootstrap) (value : Completion)
    (receiver : Custody) : Bootstrap :=
  if value = .artifact then { s with custody := receiver } else s

def Thread.custody : Thread → Custody
  | .server => .server
  | .license => .license

/-- What a step does when it answers `answer`; `none` where it cannot. -/
def Bootstrap.exec (thread : Thread) :
    (call : Call) → Bootstrap → Answer call → Option Bootstrap
  | .saveDefaultConfig, s, _ => some s
  | .registerEvents, s, _ => some s
  | .encodeCredentials, s, _ => some s
  | .supplyAsync, s, submitted =>
      if submitted then some { s with work := .waiting } else some s
  | .whenComplete, s, answer =>
      if answer = s.future then
        let s := { s with main := { s.main with callback := true } }
        match answer with
        | some value => some (s.handOver value .server)
        | none => some s
      else none
  | .loadLibrary, s, _ => some s
  | .acquireEmbedded0, s, outcome =>
      if outcome = .success then
        some { s with
          raw := true
          acquired := s.acquired + 1
          custody := thread.custody }
      else some s
  | .path0, s, found =>
      if found then some { s with raw := false, handle := true } else some s
  | .release0, s, _ =>
      some { s with raw := false, released := s.released + 1 }
  | .settle value, s, attached =>
      if attached = s.main.callback then
        let s := { s with future := some value }
        if attached then some s else some (s.handOver value .future)
      else none
  | .getStopping, s, answer =>
      if answer = s.main.stopping then some s else none
  | .setStopping, s, _ =>
      some { s with main := { s.main with stopping := true } }
  | .runTask value, s, answer =>
      if answer = .accepted then
        if s.main.enabled then
          some ({ s with tasks := s.tasks ++ [value] }.handOver value .task)
        else none
      else some s
  | .close, s, _ =>
      if s.handle then
        some { s with handle := false, released := s.released + 1 }
      else some s
  | .loadPlugin, s, _ => some s
  | .enablePlugin, s, answer =>
      if answer = .enabled ∨ answer = .disabled then
        some { s with main := { s.main with protectedEnabled := true } }
      else some s
  | .getArtifact, s, answer =>
      if answer = s.main.artifact then some s else none
  | .setArtifact true, s, _ => some { s with
      main := { s.main with artifact := true }
      custody := .field }
  | .setArtifact false, s, _ => some { s with
      main := { s.main with artifact := false }
      custody := if s.custody = .field then thread.custody else s.custody }
  | .getProtectedPlugin, s, answer =>
      if answer = s.main.protectedPlugin then some s else none
  | .setProtectedPlugin, s, _ => some { s with
      main := { s.main with protectedPlugin := some .artifactPlugin } }
  | .isEnabled .bootstrap, s, answer =>
      if answer = s.main.enabled then some s else none
  | .isEnabled .artifactPlugin, s, answer =>
      if answer = s.main.protectedEnabled then some s else none
  | .isEnabled .other, s, _ => some s
  | .setDisabled .bootstrap, s, _ => some { s with
      main := { s.main with enabled := false } }
  | .setDisabled .artifactPlugin, s, _ => some { s with
      main := { s.main with protectedEnabled := false } }
  | .setDisabled .other, s, _ => some s
  | .shutdownNow, s, _ =>
      if s.work = .waiting then some { s with work := .ended } else some s
  | .cancelTasks, s, _ => some { s with
      tasks := []
      custody := if s.custody = .task then .nobody else s.custody }

/-- What the server thread takes for a job. -/
def Bootstrap.take (s : Bootstrap) : Job → Option Bootstrap
  | .enable =>
      if s.main.begun then none
      else some { s with main := { s.main with
        begun := true
        enabled := true
        job := some .enable } }
  | .task value =>
      match s.tasks with
      | next :: rest =>
          if next = value then
            some ({ s with
              main := { s.main with job := some (.task value) }
              tasks := rest }.handOver value .server)
          else none
      | [] => none
  | .disable plugin =>
      some { s with main := { s.main with job := some (.disable plugin) } }

/-- The server thread does one job at a time. -/
def Bootstrap.begin (s : Bootstrap) (job : Job) : Option Bootstrap :=
  if s.main.job = none then s.take job else none

end RymgaLoader.Paper
