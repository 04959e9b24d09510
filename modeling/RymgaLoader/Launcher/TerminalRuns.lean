import RymgaLoader.Launcher.Terminal
import RymgaLoader.Lib.Schedule

/-!
# Runs of the license prompt

Whatever signals arrive and whichever calls fail, the reader returns with the
signals as it found them, has shown the terminal its original mode, and has
raised again what its handler took.
-/

namespace RymgaLoader.Launcher.Terminal

open Interleaving

variable {installed : List (Signal × Disposition)} {desk : Desk}
  {before s : State}

theorem restore_robust (standing : At installed desk before)
    (covers : desk.echo = desk.savedEcho ∨ desk.refused = true) :
    careful.Robust () (fun _ => At [] desk) (restore installed) before := by
  induction installed generalizing before with
  | nil => exact .done stable_at standing
  | cons entry installed ih =>
      obtain ⟨signal, previous⟩ := entry
      simp only [restore, tty, Program.perform_bind]
      refine robust_call stable_at standing ?_
      rintro middle answer after standing done met
      cases answer with
      | none =>
          have foreign := standing.own signal
          have known := standing.recorded _ List.mem_cons_self
          rw [← known] at foreign
          exact absurd met foreign
      | some found =>
          obtain ⟨-, same⟩ := Option.ite_none_right_eq_some.mp done
          cases same
          have rest := standing.cons_restored
          exact ⟨rest.sound (covers.imp id Or.inl), trivial, ih rest⟩

theorem install_robust {rest : List Signal}
    (standing : At installed desk before)
    (distinct : (installed.map Prod.fst ++ rest).Nodup)
    (same : desk.echo = desk.savedEcho) (sound : desk.failed = false) :
    careful.Robust () (fun result s =>
      At result.2 { desk with failed := !result.1 } s ∧
        (result.1 = true →
          result.2.map Prod.fst = installed.map Prod.fst ++ rest))
      (install rest installed) before := by
  induction rest generalizing installed before with
  | nil =>
      refine .done (stable_of_deliver fun s signal holds =>
        ⟨holds.1.deliver signal, holds.2⟩) ⟨?_, ?_⟩
      · obtain ⟨echo, savedEcho, failed, hidden, refused, typed⟩ := desk
        cases sound
        exact standing
      · intro _
        rw [List.append_nil]
  | cons signal rest ih =>
      simp only [install, tty, Program.perform_bind]
      refine robust_call stable_at standing ?_
      rintro middle answer after standing done met
      cases answer with
      | none =>
          cases done
          have failing : At installed { desk with failed := true }
              middle.fail := by
            have shape : middle.fail =
                { middle with desk := { desk with failed := true } } := by
              rw [State.fail, standing.desk]
            rw [shape]
            exact standing.withDesk
          refine ⟨failing.sound (Or.inl same), trivial, ?_⟩
          refine .done (stable_of_deliver fun s signal holds =>
            ⟨holds.1.deliver signal, holds.2⟩) ⟨failing, ?_⟩
          rintro ⟨⟩
      | some previous =>
          obtain ⟨rfl, same'⟩ := Option.ite_none_right_eq_some.mp done
          cases same'
          have absent : signal ∉ installed.map Prod.fst := by
            intro member
            exact (List.nodup_append.mp distinct).2.2 signal member signal
              List.mem_cons_self rfl
          have longer := standing.installed_next absent
          refine ⟨longer.sound (Or.inl same), trivial, ?_⟩
          refine Discipline.Robust.mono (ih longer ?_) ?_
          · simpa using distinct
          · rintro result s ⟨still, all⟩
            refine ⟨still, fun completed => ?_⟩
            rw [all completed]
            simp

/-- No character of this text ends a line. -/
def OneLine (text : Bytes) : Prop :=
  ∀ character ∈ text, endsLine character = false

theorem acceptLine_of_ended {text rest : Bytes} (clean : OneLine text)
    (ends : ∀ character ∈ rest.head?, endsLine character = true) :
    acceptLine (text ++ rest) =
      if text = [] ∨ 4096 < text.length then none else some text := by
  have stops : rest.takeWhile (fun character => !endsLine character) =
      [] := by
    cases rest with
    | nil => rfl
    | cons character rest =>
        rw [List.takeWhile_cons_of_neg]
        rw [ends character rfl]
        decide
  have line : (text ++ rest).takeWhile
      (fun character => !endsLine character) = text := by
    rw [List.takeWhile_append_of_pos, stops, List.append_nil]
    intro character member
    rw [clean character member]
    rfl
  rw [acceptLine, line]

theorem acceptLine_of_short {text rest : Bytes} (clean : OneLine text)
    (short : text.length ≤ 4096)
    (ends : ∀ character ∈ rest.head?, endsLine character = true) :
    acceptLine (text ++ rest) = (some text).filter (· ≠ []) := by
  rw [acceptLine_of_ended clean ends]
  by_cases empty : text = []
  · rw [if_pos (Or.inl empty), empty]
    rfl
  · rw [if_neg]
    · simp [Option.filter, empty]
    · rintro (nothing | long)
      · exact empty nothing
      · omega

/-- What has been read, and what the reader makes of it. -/
def Reads (installed : List (Signal × Disposition)) (desk : Desk)
    (license : Option Bytes) (s : State) : Prop :=
  ∃ typed, At installed { desk with typed := typed } s ∧
    license.filter (· ≠ []) = acceptLine typed

theorem stable_reads {license : Option Bytes} :
    careful.Stable () (Reads installed desk license) :=
  stable_of_deliver fun _ signal ⟨typed, standing, accepted⟩ =>
    ⟨typed, standing.deliver signal, accepted⟩

theorem readTurn_robust {license : Bytes}
    {more : UInt8 → Tty (Option Bytes)}
    (standing : At installed { desk with typed := license } before)
    (all : installed.map Prod.fst = signals) (clean : OneLine license)
    (short : license.length ≤ 4096)
    (goes : ∀ character after, OneLine (license ++ [character]) →
      At installed { desk with typed := license ++ [character] } after →
        careful.Robust () (Reads installed desk) (more character) after) :
    careful.Robust () (Reads installed desk) (readTurn license more)
      before := by
  have ended : ∀ s rest, (∀ character ∈ rest.head?,
      endsLine character = true) →
      At installed { desk with typed := license ++ rest } s →
        Reads installed desk (some license) s :=
    fun s rest ends standing => ⟨_, standing,
      (acceptLine_of_short clean short ends).symm⟩
  have stays : ∀ s, At installed { desk with typed := license } s →
      Reads installed desk (some license) s := by
    intro s standing
    refine ended s [] (by simp) ?_
    rw [List.append_nil]
    exact standing
  simp only [readTurn, tty, Program.perform_bind]
  refine robust_call stable_at standing ?_
  rintro middle answer after standing done -
  obtain ⟨-, same⟩ := Option.ite_none_right_eq_some.mp done
  cases same
  refine ⟨standing.sound (Or.inr (Or.inr all)), trivial, ?_⟩
  cases answer with
  | some signal => exact .done stable_reads (stays _ standing)
  | none =>
      refine robust_call stable_at standing ?_
      rintro middle answer after standing done -
      cases answer with
      | none =>
          cases done
          exact ⟨standing.sound (Or.inr (Or.inr all)), trivial,
            .done stable_reads (stays _ standing)⟩
      | some character =>
          cases done
          have longer : At installed
              { desk with typed := license ++ [character] }
              { middle with desk := { middle.desk with
                typed := middle.desk.typed ++ [character] } } := by
            rw [standing.desk]
            exact standing.withDesk
          refine ⟨longer.sound (Or.inr (Or.inr all)), trivial, ?_⟩
          dsimp only
          cases ends : endsLine character with
          | true =>
              refine .done stable_reads (ended _ [character] ?_ longer)
              rintro first ⟨⟩
              exact ends
          | false =>
              refine goes character _ ?_ longer
              intro candidate member
              rcases List.mem_append.mp member with old | new
              · exact clean candidate old
              · rw [List.mem_singleton.mp new]
                exact ends

theorem readCharacters_robust {room : Nat} {license : Bytes}
    (standing : At installed { desk with typed := license } before)
    (all : installed.map Prod.fst = signals) (clean : OneLine license)
    (budget : license.length + room = 4096) :
    careful.Robust () (Reads installed desk) (readCharacters room license)
      before := by
  induction room generalizing license before with
  | zero =>
      refine readTurn_robust standing all clean (by omega) ?_
      intro character after longer standing
      refine .done stable_reads ⟨_, standing, ?_⟩
      have tooLong : acceptLine (license ++ [character] ++ []) = _ :=
        acceptLine_of_ended longer (by simp)
      rw [List.append_nil] at tooLong
      rw [tooLong, if_pos]
      · rfl
      · right
        rw [List.length_append, List.length_singleton]
        omega
  | succ room ih =>
      refine readTurn_robust standing all clean (by omega) ?_
      intro character after longer standing
      refine ih standing longer ?_
      rw [List.length_append, List.length_singleton]
      omega

/-- What the reader leaves, where the handlers are its own. -/
def Promised (result : Option Bytes) (s : State) : Prop :=
  Returned result s ∧ ∀ signal, s.savedDispositions signal ≠ .interruptLicense

theorem stable_promised {result : Option Bytes} :
    careful.Stable () (Promised result) :=
  stable_of_deliver fun _ signal ⟨returned, own⟩ => by
    rw [returned.deliver own signal]
    exact ⟨returned, own⟩

/-- With no handler left, no signal changes anything. -/
theorem At.quiet (standing : At [] desk s) : Quiet s.caught desk s where
  desk := standing.desk
  dispositions := by
    funext signal
    rw [standing.dispositions signal]
    exact if_neg (by simp)
  own := standing.own
  caught := rfl
  raised := standing.raised

/-- Nothing was hidden before the reader gave up. -/
theorem At.gaveUp (standing : At [] desk s)
    (back : desk.echo = desk.savedEcho) (failed : desk.failed = true)
    (shown : desk.hidden = false) : Promised none s := by
  have quiet := standing.quiet
  refine ⟨⟨quiet.dispositions, Or.inl ?_, ?_, ?_, ?_⟩, quiet.own⟩
  · rw [quiet.desk]
    exact back
  · rw [quiet.raised, quiet.desk, shown]
    rfl
  · rw [quiet.desk, shown]
    rintro ⟨⟩
  · rw [quiet.desk, if_pos (Or.inl failed)]

/-- The end of `read_license_tty`, once the handlers are gone. -/
theorem settle_robust {license : Option Bytes}
    (standing : At [] desk before)
    (back : desk.echo = desk.savedEcho ∨ desk.refused = true)
    (hidden : desk.hidden = true)
    (accepted : license.filter (· ≠ []) =
      if desk.failed then none else acceptLine desk.typed) :
    careful.Robust () Promised (do
      let interrupted ← tty .licenseSignal
      tty .clearSignal
      match interrupted with
      | some signal =>
          tty (.raise signal)
          return none
      | none => return license.filter (· ≠ [])) before := by
  simp only [tty, Program.perform_bind]
  refine robust_call stable_at standing ?_
  rintro middle interrupted after standing done -
  obtain ⟨same, unchanged⟩ := Option.ite_none_right_eq_some.mp done
  cases unchanged
  have quiet := standing.quiet
  rw [← standing.pending, ← same] at quiet
  refine ⟨quiet.sound back, trivial, ?_⟩
  refine robust_call stable_quiet quiet ?_
  rintro middle answer after quiet done -
  cases done
  have cleared : Quiet interrupted desk
      { middle with licenseSignal := none } :=
    ⟨quiet.desk, quiet.dispositions, quiet.own, quiet.caught, quiet.raised⟩
  have echo : middle.desk.echo = middle.desk.savedEcho ∨
      middle.desk.refused = true := by
    rw [quiet.desk]
    exact back
  refine ⟨cleared.sound back, trivial, ?_⟩
  have both : careful.Stable () fun s =>
      Quiet interrupted desk s ∧ s.licenseSignal = none :=
    stable_of_deliver fun s signal ⟨quiet, nothing⟩ => by
      rw [quiet.deliver signal]
      exact ⟨quiet, nothing⟩
  cases interrupted with
  | none =>
      refine .done stable_promised ⟨⟨cleared.dispositions, echo, ?_, ?_, ?_⟩,
        cleared.own⟩
      · rw [cleared.raised, cleared.caught]
        simp
      · exact fun _ => rfl
      · rw [accepted, cleared.desk, cleared.caught]
        simp
  | some signal =>
      refine robust_call both ⟨cleared, rfl⟩ ?_
      rintro middle answer after ⟨quiet, nothing⟩ done -
      cases done
      have still : middle.deliver signal = middle := quiet.deliver signal
      have echo : middle.desk.echo = middle.desk.savedEcho ∨
          middle.desk.refused = true := by
        rw [quiet.desk]
        exact back
      refine ⟨?_, ⟨quiet.caught, quiet.dispositions, echo⟩, ?_⟩
      · rw [still]
        exact ⟨(quiet.sound back).covered⟩
      · rw [still]
        refine .done stable_promised ⟨⟨quiet.dispositions, echo, ?_, ?_, ?_⟩,
          quiet.own⟩
        · dsimp only
          rw [quiet.raised, quiet.caught, quiet.desk, hidden]
          rfl
        · exact fun _ => nothing
        · dsimp only
          rw [quiet.caught]
          simp

theorem finish_robust {license : Option Bytes}
    (standing : At installed desk before)
    (all : installed.map Prod.fst = signals) (hidden : desk.hidden = true)
    (accepted : license.filter (· ≠ []) =
      if desk.failed then none else acceptLine desk.typed) :
    careful.Robust () Promised (finish desk.savedEcho installed license)
      before := by
  have covered : ∀ {desk}, Covers installed desk := Or.inr (Or.inr all)
  simp only [finish, tty, Program.perform_bind]
  refine robust_call stable_at standing ?_
  rintro middle answer after standing done -
  cases done
  refine ⟨standing.sound covered, trivial, ?_⟩
  refine robust_call stable_at standing ?_
  rintro middle restored after standing done -
  cases done
  obtain ⟨changed, back, sameHidden, sameFailed, sameTyped, standing⟩ :
      ∃ changed : Desk,
        (changed.echo = changed.savedEcho ∨ changed.refused = true) ∧
        changed.hidden = desk.hidden ∧ changed.failed = desk.failed ∧
        changed.typed = desk.typed ∧
        At installed changed { middle with desk :=
          if restored then { middle.desk with echo := desk.savedEcho }
          else { middle.desk with refused := true } } := by
    refine ⟨_, ?_, ?_, ?_, ?_, standing.withDesk⟩
    all_goals rw [standing.desk]
    all_goals cases restored
    all_goals simp
  refine ⟨standing.sound covered, trivial, ?_⟩
  refine robust_call stable_at standing ?_
  rintro middle answer after standing done -
  cases done
  refine ⟨standing.sound covered, trivial, ?_⟩
  refine Discipline.Robust.bind (restore_robust standing back) ?_
  intro _ after standing
  refine settle_robust standing back (sameHidden.trans hidden) ?_
  rw [sameFailed, sameTyped]
  exact accepted

/-- From the prompt on. -/
theorem prompt_robust {savedEcho refused : Bool}
    (standing : At installed ⟨false, savedEcho, false, true, refused, []⟩
      before) (all : installed.map Prod.fst = signals) :
    careful.Robust () Promised (do
      tty .dprintf
      let license ← if ← tty .calloc then readCharacters 4096 []
        else pure none
      finish savedEcho installed license) before := by
  have covered : ∀ {desk}, Covers installed desk := Or.inr (Or.inr all)
  simp only [tty, Program.perform_bind]
  refine robust_call stable_at standing ?_
  rintro middle answer after standing done -
  cases done
  refine ⟨standing.sound covered, trivial, ?_⟩
  refine robust_call stable_at standing ?_
  rintro middle allocated after standing done -
  cases done
  cases allocated with
  | false =>
      have standing : At installed
          ⟨false, savedEcho, true, true, refused, []⟩ middle.fail := by
        rw [State.fail, standing.desk]
        exact standing.withDesk
      exact ⟨standing.sound covered, trivial,
        finish_robust standing all rfl rfl⟩
  | true =>
      have reads : careful.Robust () (Reads installed
          ⟨false, savedEcho, false, true, refused, []⟩)
          (readCharacters 4096 []) middle :=
        readCharacters_robust standing all (by simp [OneLine]) rfl
      refine ⟨standing.sound covered, trivial, ?_⟩
      refine Discipline.Robust.bind reads ?_
      rintro license after ⟨typed, standing, accepted⟩
      exact finish_robust standing all rfl accepted

/-- The reader gives up before it has hidden anything. -/
theorem giveUp_robust (standing : At installed desk before)
    (back : desk.echo = desk.savedEcho) (failed : desk.failed = true)
    (shown : desk.hidden = false) :
    careful.Robust () Promised (do
      restore installed
      tty .close
      return none) before := by
  refine Discipline.Robust.bind (restore_robust standing (Or.inl back)) ?_
  intro _ after standing
  refine robust_call stable_at standing ?_
  rintro middle answer after standing done -
  cases done
  exact ⟨standing.sound (Or.inl back), trivial,
    .done stable_promised (standing.gaveUp back failed shown)⟩

/-- From the installed handlers on. -/
theorem hide_robust (standing : At installed desk before)
    (all : installed.map Prod.fst = signals)
    (back : desk.echo = desk.savedEcho) (shown : desk.hidden = false)
    (blank : desk.typed = []) (calm : desk.failed = false) :
    careful.Robust () Promised (do
      if !(← tty .hideEcho) then
        restore installed
        tty .close
        return none
      tty .dprintf
      let license ← if ← tty .calloc then readCharacters 4096 []
        else pure none
      finish desk.savedEcho installed license) before := by
  simp only [tty, Program.perform_bind]
  refine robust_call stable_at standing ?_
  rintro middle hides after standing done -
  cases done
  cases hides with
  | false =>
      have standing : At installed { desk with failed := true }
          middle.fail := by
        rw [State.fail, standing.desk]
        exact standing.withDesk
      exact ⟨standing.sound (Or.inl back), trivial,
        giveUp_robust standing back rfl shown⟩
  | true =>
      have shape : ({ desk with echo := false, hidden := true } : Desk) =
          ⟨false, desk.savedEcho, false, true, desk.refused, []⟩ := by
        rw [blank, calm]
      have standing : At installed
          ⟨false, desk.savedEcho, false, true, desk.refused, []⟩
          { middle with desk := { middle.desk with
            echo := false, hidden := true } } := by
        rw [← shape, standing.desk]
        exact standing.withDesk
      exact ⟨standing.sound (Or.inr (Or.inr all)), trivial,
        prompt_robust standing all⟩

theorem readLicenseTty_robust (begun : Begun desk before)
    (same : desk.savedEcho = desk.echo) (calm : desk.failed = false)
    (shown : desk.hidden = false) (blank : desk.typed = []) :
    careful.Robust () Promised readLicenseTty before := by
  have back := same.symm
  have failing : ∀ {s : State}, Begun desk s →
      Sound s.fail ∧ Promised none s.fail := by
    intro s begun
    refine ⟨Sound.of_echo ?_, ⟨begun.dispositions, Or.inl ?_, ?_, ?_, ?_⟩,
      begun.own⟩
    · rw [State.fail, begun.desk]
      exact back
    · rw [State.fail, begun.desk]
      exact back
    · simp only [State.fail, begun.desk, shown, begun.raised]
      rfl
    · simp only [State.fail, begun.desk, shown]
      rintro ⟨⟩
    · exact (if_pos (Or.inl rfl)).symm
  simp only [readLicenseTty, tty, Program.perform_bind]
  refine robust_call stable_begun begun ?_
  rintro middle opened after begun done -
  cases done
  cases opened with
  | false =>
      obtain ⟨sound, promised⟩ := failing begun
      exact ⟨sound, trivial, .done stable_promised promised⟩
  | true =>
      refine ⟨begun.sound back, trivial, ?_⟩
      refine robust_call stable_begun begun ?_
      rintro middle original after begun done -
      cases original with
      | none =>
          cases done
          obtain ⟨sound, promised⟩ := failing begun
          exact ⟨sound, trivial, .done stable_promised promised⟩
      | some original =>
          obtain ⟨told, unchanged⟩ := Option.ite_none_right_eq_some.mp done
          cases unchanged
          rw [begun.desk, ← same] at told
          subst told
          refine ⟨begun.sound back, trivial, ?_⟩
          refine robust_call stable_begun begun ?_
          rintro middle answer after begun done -
          cases done
          have standing : At [] desk { middle with licenseSignal := none } :=
            ⟨begun.desk, fun signal => by
              rw [if_neg (by simp)]
              exact congrFun begun.dispositions signal,
              by simp, List.nodup_nil, begun.own, begun.caught.symm,
              begun.raised⟩
          refine ⟨standing.sound (Or.inl back), trivial, ?_⟩
          refine Discipline.Robust.bind (install_robust standing (by decide)
            back calm) ?_
          rintro ⟨complete, installed⟩ after ⟨standing, all⟩
          cases complete with
          | false =>
              exact giveUp_robust standing.reverse back rfl shown
          | true =>
              have hides := hide_robust standing (all rfl) back shown blank rfl
              exact hides

theorem careful_sound : careful.Sound fun _ => Promised where
  start := by
    rintro _ program before _ sound ⟨rfl, own, rfl⟩
    have begun : Begun before.begin.desk before.begin :=
      ⟨rfl, rfl, own, rfl, rfl⟩
    exact ⟨Sound.of_echo rfl, fun other different => absurd rfl different,
      readLicenseTty_robust begun rfl rfl rfl rfl⟩
  finish := by
    rintro _ result before _ sound promised rfl
    exact ⟨sound, fun other different => absurd rfl different⟩
  stop := by
    rintro _ before after sound ⟨⟩
  other := by
    rintro before _ sound ⟨signal, rfl⟩
    refine ⟨⟨?_⟩, fun _ => ⟨signal, rfl⟩⟩
    rw [State.deliver_desk, State.deliver_dispositions]
    exact sound.covered

/-- At every moment of every run in which what was there before a handler can
be put back: while the terminal hides what is typed, the reader's handler takes
each of the signals; the reader raises a signal only when everything has been
put back; and when it returns, everything has been put back, the signal it took
last has been raised, and the license is the line that was typed. -/
theorem readLicenseTty_restores {echo : Bool}
    {dispositions : Signal → Disposition}
    {configuration : Configuration Unit Call Answer (Option Bytes) State}
    (reached : Reachable (terminal.under reinstates)
      (State.initial echo dispositions) configuration) :
    Sound configuration.state ∧
    (∀ call next answer after,
      configuration.running () = some (.call call next) →
      (terminal.under reinstates).act () call configuration.state answer
        after → raisesLast call configuration.state) ∧
    ∀ result, configuration.running () = some (.done result) →
      Returned result configuration.state := by
  have initial : Sound (State.initial echo dispositions) := Sound.of_echo rfl
  obtain ⟨sound, robust⟩ := careful_sound.reachable initial reached
  refine ⟨sound, ?_, ?_⟩
  · intro call next answer after active acted
    exact careful_sound.good initial reached active acted
  · intro result active
    exact (robust () _ active _ sound Relation.ReflTransGen.refl).1

/-- Everything succeeds, and every character that is typed is a `k`. -/
def State.obliging (s : State) : (call : Call) → Answer call
  | .openTerminal | .hideEcho | .restoreEcho _ | .calloc => true
  | .tcgetattr => some s.desk.echo
  | .sigaction signal _ => some (s.dispositions signal)
  | .licenseSignal => s.licenseSignal
  | .read => some 0x6B
  | .clearSignal | .dprintf | .close | .raise _ => ()

theorem reinstates_obliging (s : State) (call : Call) :
    reinstates () call s (s.obliging call) := by
  cases call <;> trivial

/-- The driver in which every call succeeds. -/
def terminalDriver : Driver (terminal.under reinstates) Unit Unit Signal
    where
  start _ _ s :=
    if signals.all fun signal => s.dispositions signal ≠ .interruptLicense
    then some (readLicenseTty, s.begin)
    else none
  call _ _ call s := (s.exec call (s.obliging call)).map (s.obliging call, ·)
  finish _ _ s := some s
  stop _ _ := none
  other signal s := some (s.deliver signal)
  started := by
    intro _ _ before program after begun
    obtain ⟨foreign, same⟩ := Option.ite_none_right_eq_some.mp begun
    cases same
    refine ⟨rfl, fun signal => ?_, rfl⟩
    have every := List.all_eq_true.mp foreign signal
      (by cases signal <;> decide)
    exact of_decide_eq_true every
  called := by
    intro _ _ call before answer after answered
    obtain ⟨world, done, same⟩ := Option.map_eq_some_iff.mp answered
    cases same
    exact ⟨done, reinstates_obliging before call⟩
  finished := by
    intro _ result before after done
    exact (Option.some.inj done).symm
  stopped := by
    rintro _ before after ⟨⟩
  changed := by
    intro signal before after happened
    exact ⟨signal, (Option.some.inj happened).symm⟩

/-- Whether the reader has returned without a license. -/
def refuses : Program Call Answer (Option Bytes) → Bool
  | .done none => true
  | .done (some _) | .call _ _ => false

theorem eq_of_refuses {program : Program Call Answer (Option Bytes)}
    (refused : refuses program = true) : program = .done none := by
  cases program with
  | done license =>
      cases license with
      | none => rfl
      | some license => cases refused
  | call call next => cases refused

/-- A character is typed, the user interrupts, and the reader returns. -/
theorem readLicenseTty_restores_small :
    ∃ configuration : Configuration Unit Call Answer (Option Bytes) State,
      Reachable (terminal.under reinstates)
        (State.initial true fun _ => .standard) configuration ∧
      configuration.running () = some (.done none) ∧
      Returned none configuration.state ∧
      configuration.state.raised = [.interrupt] := by
  obtain ⟨configuration, reached, shown⟩ :=
    terminalDriver.exists_reachable (State.initial true fun _ => .standard)
      (.start () () :: List.replicate 13 (.call () ()) ++
        .other .interrupt :: List.replicate 12 (.call () ()))
      (fun configuration =>
        ((configuration.running ()).elim false refuses) &&
        decide (configuration.state.raised = [.interrupt]))
      (by decide +kernel)
  obtain ⟨returns, raised⟩ := Bool.and_eq_true_iff.mp shown
  have active : configuration.running () = some (.done none) := by
    cases running : configuration.running () with
    | none =>
        rw [running] at returns
        cases returns
    | some program =>
        rw [running] at returns
        rw [eq_of_refuses returns]
  exact ⟨configuration, reached, active,
    (readLicenseTty_restores reached).2.2 none active,
    of_decide_eq_true raised⟩

end RymgaLoader.Launcher.Terminal
