import RymgaLoader.Native.MarkerCodecs
import RymgaLoader.Native.SharedDownload
import RymgaLoader.Native.WindowsRuntime

/-!
# Downloading on Windows among other processes

`create_marker` and `make_temp_directory` of `rymga_platform_windows.c` while
other processes work in the same runtime directory.  They leave behind what
their counterparts on POSIX do.
-/

namespace RymgaLoader.Native.Windows

open Interleaving

section

variable {tidy : Prop}
  {condition : Process → (call : Call) → World → Answer call → Prop}
  {self : Process} {pid : Nat} {name : Name} {id : Nat}
  {entries : Name → Option FileRef} {before after : World}
  {runtimeDirectory : Bytes}

theorem tempName_of_random {random : Bytes} (length : random.length = 16) :
    tempName (tempStem ++ Hex.encode random) = true := by
  have width := Hex.length_encode random
  simp only [tempName, Bool.decide_and, Bool.and_eq_true, decide_eq_true_eq,
    List.all_eq_true, List.take_left, List.drop_left, List.length_append]
  refine ⟨trivial, by omega, fun byte member => ?_⟩
  exact (encode_visible member).2.2

/-- The text the marker gets is that of its counterpart on POSIX. -/
theorem markerText_eq (pid : Nat) (created : Int64)
    (temp : tempName name = true) :
    ownerText pid created (baseName (slashed runtimeDirectory name)) =
      Native.ownerText pid created name := by
  obtain ⟨noSlash, noBackslash⟩ := plain_of_temp (tempName_mem temp)
  rw [baseName_slashed noSlash noBackslash, ownerText_eq]

theorem closeMarker_robust {marker : FileRef} {now : Int64} {written : Bool}
    {content : Bytes} (permits : Permits tidy condition) (epoch : 0 ≤ now)
    (only : Markerlike entries) (linked : entries ownerMarker = some marker)
    (complete : written = true → content = Native.ownerText pid now name)
    (owns : Owns self pid name id entries before)
    (stored : Stored self (.inside id ownerMarker) marker content before) :
    (owning tidy condition).Robust self (MarkerTried self pid name id)
      (closeMarker (.path name ownerMarker) written) before := by
  simp only [closeMarker, Program.perform_bind]
  refine robust_quiet (lasting_owns.and lasting_stored) ⟨owns, stored⟩ rfl ?_
  rintro _ closed after _ _ _ _ ⟨owns, stored⟩
  split
  · rename_i done
    have full : written = true := ((Bool.and_eq_true _ _).mp done).1
    rw [complete full] at stored
    exact robust_done lasting_markerTried ⟨entries, only, owns, fun _ =>
      ⟨owns, marker, now, linked, epoch, stored⟩⟩
  · exact giveUpMarker_robust permits only owns

theorem writeWhole_robust {marker : FileRef} {now : Int64} (epoch : 0 ≤ now)
    (only : Markerlike entries)
    (owns : Owns self pid name id entries before)
    (stored : Stored self (.inside id ownerMarker) marker [] before) :
    (owning tidy condition).Robust self
      (fun ok world => ∃ content, Owns self pid name id entries world ∧
        Stored self (.inside id ownerMarker) marker content world ∧
          (ok = true → content = Native.ownerText pid now name))
      (writeWhole marker (Native.ownerText pid now name)) before := by
  have lasting : ∀ ok : Bool, Lasting tidy condition self fun world =>
      ∃ content, Owns self pid name id entries world ∧
        Stored self (.inside id ownerMarker) marker content world ∧
          (ok = true → content = Native.ownerText pid now name) := fun _ =>
    .exists fun _ => lasting_owns.and (lasting_stored.and (.const _))
  simp only [writeWhole, Program.perform_bind]
  refine robust_call (lasting_owns.and lasting_stored) ⟨owns, stored⟩ ?_
  rintro middle answer after settled ⟨owns, stored⟩ acted -
  obtain ⟨keeps, owns, stored⟩ := keeps_writeMarker epoch only settled owns
    stored (List.nil_append _) acted
  refine ⟨keeps, ?_⟩
  split
  · rename_i whole
    rw [whole, Option.getD_some, List.take_length, List.nil_append] at stored
    refine robust_quiet (lasting_owns.and lasting_stored) ⟨owns, stored⟩ rfl ?_
    rintro _ flushed after _ _ _ _ ⟨owns, stored⟩
    exact robust_done (lasting flushed) ⟨_, owns, stored, fun _ => rfl⟩
  · exact robust_done (lasting false) ⟨_, owns, stored, by rintro ⟨⟩⟩

theorem createMarker_robust (permits : Permits tidy condition)
    (temp : tempName name = true)
    (owns : Owns self pid name id (fun _ => none) before) :
    (owning tidy condition).Robust self (MarkerTried self pid name id)
      (createMarker runtimeDirectory name) before := by
  simp only [createMarker, Program.perform_bind]
  refine robust_quiet lasting_owns owns rfl ?_
  intro middle process afterPid settled owns acted _ ownsAfter
  have same : process = pid :=
    (World.exec_getpid acted.2.1).1.trans owns.pid
  subst same
  refine robust_quiet lasting_owns ownsAfter rfl ?_
  intro middle now afterTime settled _ acted _ owns
  have epoch := (World.exec_time acted.2.1).1
  have blank : Markerlike fun _ => none := by
    rintro file ref ⟨⟩
  rw [markerText_eq _ _ temp]
  split
  · exact robust_done lasting_markerTried
      ⟨_, blank, owns, by rintro ⟨⟩⟩
  refine robust_call lasting_owns owns ?_
  intro middle answer opened settled owns acted _
  obtain ⟨keeps, outcome⟩ := keeps_openExcl settled owns (Or.inl rfl)
    (fun _ different => absurd rfl different)
    (fun different => absurd rfl different) acted
  refine ⟨keeps, ?_⟩
  rcases outcome with ⟨failed, rested⟩ | ⟨marker, rfl, owns, stored, -⟩
  · have still := owns.rests rested
    cases answer with
    | opened ref => exact absurd rfl (failed ref)
    | occupied => exact giveUpMarker_robust permits blank still
    | failed => exact giveUpMarker_robust permits blank still
  have only := markerlike_update marker
  refine Discipline.Robust.bind (writeWhole_robust epoch only owns stored) ?_
  rintro written after ⟨content, owns, stored, complete⟩
  exact closeMarker_robust permits epoch only (Function.update_self _ _ _)
    complete owns stored

theorem tempAttempts_robust {attempts : Nat}
    (permits : Permits tidy condition) (unwatched : Unwatched condition)
    (alive : before.alive self = true) :
    (owning tidy condition).Robust self (TempTried self)
      (tempAttempts runtimeDirectory attempts) before := by
  induction attempts generalizing before with
  | zero => exact robust_done lasting_tempTried (tempTried_none alive)
  | succ attempts ih =>
      simp only [tempAttempts, Program.perform_bind]
      refine robust_quiet lasting_alive alive rfl ?_
      intro middle random drawn _ _ acted _ alive
      have temp := tempName_of_random (World.exec_random acted.2.1)
      split
      · exact robust_done lasting_tempTried (tempTried_none alive)
      refine robust_call lasting_alive alive ?_
      intro middle answer made settled alive acted met
      have living : made.alive self = true := by
        rw [(World.exec_frame acted.2.1).1, alive]
      rcases World.exec_createDirectory acted.2.1 with ⟨failed, same⟩ |
        ⟨rfl, absent, same⟩
      · refine ⟨keeps_of_same settled acted same trivial, ?_⟩
        cases answer with
        | created => exact absurd rfl failed
        | occupied => exact ih living
        | failed => exact robust_done lasting_tempTried (tempTried_none living)
      obtain ⟨keeps, owns⟩ := keeps_newDirectory settled acted (.inr temp)
        absent same (unwatched _ _ _ met) trivial
      refine ⟨keeps, ?_⟩
      refine robust_quiet lasting_owns owns rfl ?_
      intro _ usable ready _ _ _ _ owns
      cases usable with
      | false => exact giveUpTemp_robust owns
      | true =>
          refine Discipline.Robust.bind (createMarker_robust permits temp
            owns) ?_
          rintro ok after ⟨entries, only, owns, marked⟩
          cases ok with
          | false => exact giveUpTemp_robust owns
          | true =>
              refine robust_done lasting_tempTried ⟨owns.alive, ?_⟩
              rintro _ ⟨⟩
              exact ⟨_, _, entries, only, marked rfl⟩

theorem makesTemps (permits : Permits tidy condition)
    (unwatched : Unwatched condition) :
    windows.MakesTemps tidy condition self :=
  fun _ _ alive => tempAttempts_robust permits unwatched alive

end

end RymgaLoader.Native.Windows
