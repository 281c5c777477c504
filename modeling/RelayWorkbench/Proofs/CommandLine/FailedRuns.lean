import RelayWorkbench.Proofs.CommandLine.StepFrames
import RelayWorkbench.Proofs.Host.Revising
import RelayWorkbench.Proofs.Relay.Performing
import RelayWorkbench.Proofs.Text.Traps

/-! What a run of the program that fails leaves behind. Most commands change the files at their end
or not at all. Laying out files goes file by file and an extraction writes two files, so that what
was written before a failure remains. -/

namespace RelayWorkbench.CommandLine

open RelayWorkbench.GraphQL RelayWorkbench.Host RelayWorkbench.Relay RelayWorkbench.Workspace

namespace Steps

variable {good : ExitCode → Prop}

instance (path : Path) (place : Place) (asJson : Bool) :
    KeepsFiles (listActions path place asJson) := by
  simp only [listActions]; infer_instance

instance (root : Path) : KeepsFiles (reportSchema root) := by
  unfold reportSchema
  refine KeepsFiles.after fun files => ?_
  split <;> infer_instance

instance : KeepsFiles beginWatch := by
  simp only [beginWatch]
  refine KeepsFiles.after fun settings => KeepsFiles.after fun files =>
    KeepsFiles.after fun again => ?_
  split
  · refine KeepsFiles.after fun current => ?_
    split <;> infer_instance
  · infer_instance

section SingleWrites

private theorem succeeds_celebrated {text : Text} {dryRun : Bool}
    (holds : good .success) : Succeeds good (do celebrate text dryRun; return .success) :=
  (succeeds_celebrate text dryRun).bind fun _ _ => Succeeds.pure holds

theorem allOrNothing_applyAction (path : Path) (place : Place) (choice : Text) {dryRun : Bool}
    (holds : dryRun = false → good .success) :
    AllOrNothing good (applyAction path place choice dryRun) := by
  unfold applyAction
  refine Leaves.after fun file => Leaves.after fun actions => ?_
  split
  · split
    · refine Leaves.after fun revised => AllOrNothing.deliver fun writes => ?_
      exact succeeds_celebrated (holds writes)
    · exact Leaves.of_keepsFiles
  · exact Leaves.of_keepsFiles

theorem allOrNothing_scaffoldModule (kind : ModuleKind) (path : Path) (line : Option UInt32)
    (pick : Option Text) (names : List Text) {dryRun : Bool}
    (holds : dryRun = false → good .success) :
    AllOrNothing good (scaffoldModule kind path line pick names dryRun) := by
  simp only [scaffoldModule]
  refine Leaves.after fun file => Leaves.guarded fun _ => ?_
  refine Leaves.after fun schema => Leaves.after fun _ => ?_
  split
  · exact Leaves.of_keepsFiles
  · exact AllOrNothing.deliver fun writes => succeeds_celebrated (holds writes)

private theorem succeeds_laidOut (path : Path) (edits : List TextEdit) :
    Succeeds (· = true) (do
      let count := "(".toList ++ Nat.toDigits 10 edits.length ++ " regions)".toList
      inform ((← styled .green "Formatted".toList) ++ ' ' :: path.text ++
        ' ' :: (← styled .dimmed count) ++ ['\n'])
      return true) := by
  refine (succeeds_styled _ _).bind fun green _ => (succeeds_styled _ _).bind fun count _ => ?_
  exact (succeeds_inform _).bind fun _ _ => Succeeds.pure rfl

theorem allOrNothing_layOut (path : Path) (checkOnly : Bool) :
    AllOrNothing (fun _ => checkOnly = false) (layOut path checkOnly) := by
  simp only [layOut]
  refine Leaves.after fun file => Leaves.ite Leaves.of_keepsFiles ?_
  cases checkOnly with
  | true =>
    simp only [Bool.not_true, Bool.false_eq_true, if_false]
    exact Leaves.of_keepsFiles
  | false =>
    simp only [Bool.not_false, if_true]
    refine Leaves.after fun revised => AllOrNothing.write ?_
    exact (succeeds_laidOut path _).mono fun _ _ => trivial

instance (path : Path) : KeepsFiles (layOut path true) where
  keeps session := (allOrNothing_layOut path true session fun _ _ => Bool.noConfusion).symm

theorem run_layOut_of_unread {path : Path} {checkOnly : Bool} {session : Session}
    {language : Language} {error : FileError} (carries : Language.ofPath? path = some language)
    (unread : session.system.read path = .error error) :
    (layOut path checkOnly).run.run session = (.error (.unreadable path error), session) := by
  simp only [layOut]
  rw [run_bind_of_error (run_readHost_of_error carries unread)]

theorem exists_run_layOut {path : Path} {session : Session} {language : Language}
    {text laid : Text} {written : FileSystem} (carries : Language.ofPath? path = some language)
    (reads : session.system.read path = .ok text)
    (needy : layoutEdits language.identifier text ≠ [])
    (revises : revise text (layoutEdits language.identifier text) = .ok laid)
    (writes : session.system.write path laid = .ok written) :
    ∃ later, (layOut path false).run.run session = (.ok true, later) ∧
      later.system = written := by
  have wrote := run_write path laid session
  rw [writes] at wrote
  dsimp only at wrote
  simp only [layOut]
  rw [run_bind_of_ok (run_readHost carries reads), if_neg (by simpa using needy)]
  simp only [Bool.not_false, if_true, revised, revises]
  rw [pure_bind, run_bind_of_ok wrote]
  obtain ⟨_, later, ends, rfl, keeps⟩ := (succeeds_laidOut path _).exists_run _
  exact ⟨later, ends, keeps⟩

end SingleWrites

/-- The files are as before, or the new one of a pair was written and the other one cannot be. -/
def HalfWritten (new file : Path) (before after : FileSystem) : Prop :=
  before = after ∨ before.pathExists new = false ∧ ∃ contents text error,
    before.write new contents = .ok after ∧ after.write file text = .error error

instance (new file : Path) : Std.Refl (HalfWritten new file) := ⟨fun _ => .inl rfl⟩

theorem leaves_extractFragment (path : Path) (place : Place) (component : Text) (keep : Bool) :
    Leaves (HalfWritten (path.withFileName (component ++ ".re".toList)) path) (· = .success)
      (extractFragment path place component keep false) := by
  simp only [extractFragment, Bool.not_false, Bool.true_and]
  refine Leaves.after fun file => Leaves.after fun actions => ?_
  split
  swap
  · exact Leaves.of_keepsFiles
  next command _ =>
  split
  · exact Leaves.of_keepsFiles
  next extracted performed =>
  obtain ⟨region, document, performs⟩ := ExtractionCommand.exists_performs performed
  have placed := performs.placed
  refine Leaves.afterSystem fun files => Leaves.guarded fun isNew => ?_
  refine Leaves.after fun updated => ?_
  refine (Leaves.writes ?_).mono fun before after ends starts => ?_
  · refine (succeeds_styled _ _).bind fun name _ => succeeds_celebrated rfl
  · obtain rfl | ⟨wrote, error, stopped⟩ := ends
    · exact .inl rfl
    · subst starts
      rw [placed] at wrote isNew
      exact .inr ⟨by simpa using isNew, _, _, error, wrote, stopped⟩

instance (path : Path) (place : Place) (component : Text) (keep : Bool) :
    KeepsFiles (extractFragment path place component keep true) := by
  simp only [extractFragment, Bool.not_true, Bool.false_and, Bool.false_eq_true, if_false]
  refine KeepsFiles.after fun file => KeepsFiles.after fun actions => ?_
  split
  · split
    · infer_instance
    · infer_instance
  · infer_instance

section Filtering

variable {item : Type} {test : item → Steps Bool}

private theorem keepsFiles_filterAuxM [∀ item, KeepsFiles (test item)] (items kept : List item) :
    KeepsFiles (List.filterAuxM test items kept) := by
  induction items generalizing kept with
  | nil => exact inferInstanceAs (KeepsFiles (pure kept))
  | cons first rest ih =>
    rw [Checked.filterAuxM_cons]
    exact KeepsFiles.after fun holds => ih _

instance [∀ item, KeepsFiles (test item)] (items : List item) :
    KeepsFiles (items.filterM test) := by
  have : KeepsFiles (List.filterAuxM test items []) := keepsFiles_filterAuxM items []
  unfold List.filterM
  infer_instance

/-- A test fails for one of the items, after the tests of those in front of it. -/
private theorem exists_failed_of_filterAuxM {items kept : List item} {session later : Session}
    {failure : Failure}
    (fails : (List.filterAuxM test items kept).run.run session = (.error failure, later)) :
    ∃ done failed rest between result, items = done ++ failed :: rest ∧
      (List.filterAuxM test done kept).run.run session = (.ok result, between) ∧
      (test failed).run.run between = (.error failure, later) := by
  induction items generalizing kept session with
  | nil => cases fails
  | cons first rest ih =>
    rw [Checked.filterAuxM_cons] at fails
    rcases tested : (test first).run.run session with ⟨early | holds, next⟩
    · rw [run_bind_of_error tested] at fails
      cases fails
      exact ⟨[], first, rest, session, kept, rfl, rfl, tested⟩
    · rw [run_bind_of_ok tested] at fails
      obtain ⟨done, failed, others, between, result, parts, ends, stops⟩ := ih fails
      refine ⟨first :: done, failed, others, between, result, by rw [parts, List.cons_append],
        ?_, stops⟩
      rw [Checked.filterAuxM_cons, run_bind_of_ok tested]
      exact ends

theorem exists_failed_of_filterM {items : List item} {session later : Session} {failure : Failure}
    (fails : (items.filterM test).run.run session = (.error failure, later)) :
    ∃ done failed rest between result, items = done ++ failed :: rest ∧
      (done.filterM test).run.run session = (.ok result, between) ∧
      (test failed).run.run between = (.error failure, later) := by
  unfold List.filterM at fails
  rcases filtered : (List.filterAuxM test items []).run.run session with ⟨early | kept, next⟩
  · rw [run_bind_of_error filtered] at fails
    cases fails
    obtain ⟨done, failed, rest, between, result, parts, ends, stops⟩ :=
      exists_failed_of_filterAuxM filtered
    refine ⟨done, failed, rest, between, result.reverse, parts, ?_, stops⟩
    unfold List.filterM
    rw [run_bind_of_ok ends]
    rfl
  · rw [run_bind_of_ok filtered] at fails
    cases fails

private theorem filterAuxM_append (first second kept : List item) :
    List.filterAuxM test (first ++ second) kept =
      List.filterAuxM test first kept >>= List.filterAuxM test second := by
  induction first generalizing kept with
  | nil => exact (pure_bind _ _).symm
  | cons item rest ih => simp only [List.cons_append, Checked.filterAuxM_cons, bind_assoc, ih]

theorem run_filterM_of_failed {done rest result : List item} {failed : item}
    {session between later : Session} {failure : Failure}
    (ends : (done.filterM test).run.run session = (.ok result, between))
    (stops : (test failed).run.run between = (.error failure, later)) :
    ((done ++ failed :: rest).filterM test).run.run session = (.error failure, later) := by
  unfold List.filterM at ends ⊢
  rcases filtered : (List.filterAuxM test done []).run.run session with ⟨early | kept, next⟩
  · rw [run_bind_of_error filtered] at ends
    cases ends
  · rw [run_bind_of_ok filtered] at ends
    cases ends
    rw [filterAuxM_append, bind_assoc, run_bind_of_ok filtered, Checked.filterAuxM_cons, bind_assoc,
      run_bind_of_error stops]

end Filtering

instance (paths : List Path) : KeepsFiles (format paths true) := by
  simp only [format]
  refine KeepsFiles.after fun needy => ?_
  simp only [Bool.not_true, Bool.false_eq_true, if_false]
  infer_instance

theorem run_format {paths needy : List Path} {session later : Session}
    (ends : (paths.filterM (layOut · false)).run.run session = (.ok needy, later)) :
    (format paths false).run.run session = (.ok .success, later) := by
  simp only [format]
  rw [run_bind_of_ok ends]
  rfl

/-- Laying out stops at a file, after those in front of it have been laid out. -/
theorem exists_failed_of_format {paths : List Path} {session : Session}
    (fails : ((format paths false).run.run session).1 ≠ .ok .success) :
    ∃ done failed rest between failure later, paths = done ++ failed :: rest ∧
      (format done false).run.run session = (.ok .success, between) ∧
      (layOut failed false).run.run between = (.error failure, later) ∧
      (format paths false).run.run session = (.error failure, later) := by
  rcases filtered : (paths.filterM (layOut · false)).run.run session with ⟨failure | needy, later⟩
  · obtain ⟨done, failed, rest, between, needy, parts, ends, stops⟩ :=
      exists_failed_of_filterM filtered
    refine ⟨done, failed, rest, between, failure, later, parts, run_format ends, stops, ?_⟩
    simp only [format]
    rw [run_bind_of_error filtered]
  · rw [run_format filtered] at fails
    exact absurd rfl fails

end Steps

theorem Failure.exitCode_ne (failure : Failure) : failure.exitCode ≠ .success := by
  cases failure with
  | extraction error =>
    simp only [exitCode]
    split <;> exact ExitCode.noConfusion
  | _ => exact ExitCode.noConfusion

theorem Session.finish_code {session : Session} {result : Except Failure ExitCode} :
    (session.finish result).code = .success ↔ result = .ok .success := by
  cases result with
  | ok code => simp [finish]
  | error failure => simp [finish, failure.exitCode_ne]

theorem Session.finish_system (session : Session) (result : Except Failure ExitCode) :
    (session.finish result).system = session.system := by
  cases result <;> rfl

namespace Command

/-- A command that only tells what it finds or would do. -/
def onlyReports : Command → Bool
  | actions .. | watch => true
  | apply _ _ _ dryRun | extractFragment _ _ _ _ dryRun | scaffold _ _ _ _ _ dryRun => dryRun
  | format _ checkOnly => checkOnly

/-- The files as a command leaves them that fails: as they were unless the new component could be
written and the host could not, or files in front of the one at fault were laid out. -/
inductive LeftBehind (settings : Settings) (before : FileSystem) : Command → FileSystem → Prop
  | untouched {command : Command} (whole : ∀ files, command ≠ .format files false) :
    LeftBehind settings before command before
  | component {file : Path} {place : Place} {name contents updated : Text} {keep : Bool}
      {after : FileSystem} {error : FileError}
      (isNew : before.pathExists (file.withFileName (name ++ ".re".toList)) = false)
      (wrote : before.write (file.withFileName (name ++ ".re".toList)) contents = .ok after)
      (stopped : after.write file updated = .error error) :
    LeftBehind settings before (.extractFragment file place name keep false) after
  | formatted {done rest : List Path} {failed : Path} {between later : Session}
      {failure : Failure}
      (ends : (Steps.format done false).run.run { settings, system := before } =
        (.ok .success, between))
      (stops : (Steps.layOut failed false).run.run between = (.error failure, later)) :
    LeftBehind settings before (.format (done ++ failed :: rest) false) between.system

theorem keepsFiles_of_onlyReports {command : Command} (reports : command.onlyReports) :
    Steps.KeepsFiles (Steps.perform command) := by
  cases command with
  | actions file place asJson =>
    exact inferInstanceAs (Steps.KeepsFiles (Steps.listActions file place asJson))
  | apply file place action dryRun =>
    exact Steps.KeepsFiles.of_allOrNothing
      (Steps.allOrNothing_applyAction file place action fun writes => by cases writes ▸ reports)
  | extractFragment file place component keep dryRun =>
    obtain rfl : dryRun = true := reports
    exact inferInstanceAs (Steps.KeepsFiles (Steps.extractFragment file place component keep true))
  | scaffold kind file line pick names dryRun =>
    exact Steps.KeepsFiles.of_allOrNothing
      (Steps.allOrNothing_scaffoldModule kind file line pick names fun writes => by
        cases writes ▸ reports)
  | format files checkOnly =>
    obtain rfl : checkOnly = true := reports
    exact inferInstanceAs (Steps.KeepsFiles (Steps.format files true))
  | watch => exact inferInstanceAs (Steps.KeepsFiles Steps.beginWatch)

end Command

theorem execute_of_run {system : FileSystem} {settings : Settings} {command : Command}
    {result : Except Failure ExitCode} {later : Session}
    (ends : (Steps.perform command).run.run { settings, system } = (result, later)) :
    (Invocation.run settings command).execute system = later.finish result := by
  simp only [Invocation.execute, ends]

namespace Command

section Failures

variable {settings : Settings} {system : FileSystem} {result : Except Failure ExitCode}
  {later : Session}

/-- A command of steps that change the files only if they succeed leaves them as they were. -/
theorem leftBehind_of_allOrNothing {command : Command}
    (whole : Steps.AllOrNothing (· = .success) (Steps.perform command))
    (other : ∀ files, command ≠ .format files false)
    (ran : (Steps.perform command).run.run { settings, system } = (result, later))
    (fails : result ≠ .ok .success) : command.LeftBehind settings system later.system := by
  have same := whole { settings, system } fun code ends same => fails (by rw [← same, ← ends, ran])
  rw [ran] at same
  rw [← same]
  exact .untouched other

theorem leftBehind_extractFragment {file : Path} {place : Place} {component : Text} {keep : Bool}
    (ran : (Steps.perform (.extractFragment file place component keep false)).run.run
      { settings, system } = (result, later))
    (fails : result ≠ .ok .success) :
    LeftBehind settings system (.extractFragment file place component keep false) later.system := by
  have reached := Steps.leaves_extractFragment file place component keep { settings, system }
    fun code ends same => fails (by rw [← same, ← ends]; exact (congrArg Prod.fst ran).symm)
  rw [show Steps.extractFragment file place component keep false =
    Steps.perform (.extractFragment file place component keep false) from rfl, ran] at reached
  obtain same | ⟨isNew, contents, text, error, wrote, stopped⟩ := reached
  · rw [← same]
    exact .untouched fun _ => Command.noConfusion
  · exact .component isNew wrote stopped

theorem leftBehind_format {files : List Path}
    (ran : (Steps.perform (.format files false)).run.run { settings, system } = (result, later))
    (fails : result ≠ .ok .success) :
    LeftBehind settings system (.format files false) later.system := by
  have stopsSomewhere : ((Steps.format files false).run.run { settings, system }).1 ≠
      .ok .success := fun same => fails ((congrArg Prod.fst ran).symm.trans same)
  obtain ⟨done, failed, rest, between, failure, last, rfl, ends, stops, stopped⟩ :=
    Steps.exists_failed_of_format stopsSomewhere
  have same := Steps.allOrNothing_layOut failed false between (by simp [stops])
  rw [stops] at same
  obtain rfl : last = later := congrArg Prod.snd (stopped.symm.trans ran)
  rw [← same]
  exact .formatted ends stops

end Failures

end Command

/-- A command that only reports never changes the files. Any other one that fails leaves them as
they were, but for what it wrote before the failure: the new component of an extraction whose host
cannot be written, or the files that were laid out before the one at fault. -/
theorem execute_leaves (system : FileSystem) (settings : Settings) (command : Command) :
    let outcome := (Invocation.run settings command).execute system
    (command.onlyReports → outcome.system = system) ∧
      (outcome.code ≠ .success → command.LeftBehind settings system outcome.system) := by
  intro outcome
  obtain ⟨result, later, ran⟩ :
    ∃ result later, (Steps.perform command).run.run { settings, system } = (result, later) :=
      ⟨_, _, rfl⟩
  have finished : outcome = later.finish result := execute_of_run ran
  rw [finished, Ne, Session.finish_code, Session.finish_system]
  have kept : command.onlyReports → later.system = system := fun reports => by
    have := (Command.keepsFiles_of_onlyReports reports).keeps { settings, system }
    rwa [ran] at this
  refine ⟨kept, fun fails => ?_⟩
  by_cases reports : command.onlyReports
  · rw [kept reports]
    refine .untouched fun files same => ?_
    rw [same] at reports
    cases reports
  cases command with
  | actions | watch => exact absurd rfl reports
  | apply file place action dryRun =>
    exact Command.leftBehind_of_allOrNothing
      (Steps.allOrNothing_applyAction file place action fun _ => rfl)
      (fun _ => Command.noConfusion) ran fails
  | scaffold kind file line pick names dryRun =>
    exact Command.leftBehind_of_allOrNothing
      (Steps.allOrNothing_scaffoldModule kind file line pick names fun _ => rfl)
      (fun _ => Command.noConfusion) ran fails
  | extractFragment file place component keep dryRun =>
    obtain rfl : dryRun = false := by simpa [Command.onlyReports] using reports
    exact Command.leftBehind_extractFragment ran fails
  | format files checkOnly =>
    obtain rfl : checkOnly = false := by simpa [Command.onlyReports] using reports
    exact Command.leftBehind_format ran fails

/-- The second of two files is missing, and the first one needs no layout. -/
theorem execute_leaves_missing :
    let system : FileSystem :=
      ⟨.directory [("a.js".toList, .file "let a;".toList .full)], []⟩
    let command : Command := .format [⟨"a.js".toList⟩, ⟨"b.js".toList⟩] false
    let outcome := (Invocation.run ⟨none, false, false⟩ command).execute system
    outcome.code ≠ .success ∧ command.LeftBehind ⟨none, false, false⟩ system outcome.system := by
  intro system command outcome
  have fails : outcome.code ≠ .success := by decide +kernel
  exact ⟨fails, (execute_leaves system ⟨none, false, false⟩ command).2 fails⟩

/-- The second of two files is missing, and the first one has been laid out by then. -/
theorem execute_changes_before_missing :
    let system : FileSystem :=
      ⟨.directory [("a.js".toList, .file "gql\x60query Q \x7b a \x7d\x60".toList .full)], []⟩
    let command : Command := .format [⟨"a.js".toList⟩, ⟨"b.js".toList⟩] false
    let outcome := (Invocation.run ⟨none, false, false⟩ command).execute system
    outcome.code ≠ .success ∧
      outcome.system.read ⟨"a.js".toList⟩ ≠ system.read ⟨"a.js".toList⟩ := by
  intro system command outcome
  let laid : Text := "gql\x60\nquery Q \x7b\n  a\n\x7d\x60".toList
  let text : Text := "gql\x60query Q \x7b a \x7d\x60".toList
  let written : FileSystem := ⟨.directory [("a.js".toList, .file laid .full)], []⟩
  have found : (layoutEdits "javascript" text).mapM (Replacement.ofEdit (LineIndex.ofText text)) =
      .ok [⟨⟨4, 17⟩, "\nquery Q \x7b\n  a\n\x7d".toList⟩] := by decide +kernel
  have revises : revise text (layoutEdits "javascript" text) = .ok laid :=
    revise_of_replacement found (by decide +kernel)
  have writes : system.write ⟨"a.js".toList⟩ laid = .ok written := by rfl
  let session : Session := { settings := ⟨none, false, false⟩, system }
  have reads : session.system.read ⟨"a.js".toList⟩ = .ok text := by decide +kernel
  obtain ⟨between, laysOut, wrote⟩ := Steps.exists_run_layOut
    (by decide : Language.ofPath? ⟨"a.js".toList⟩ = some .javaScript) reads (by decide +kernel)
    revises writes
  have missing : between.system.read ⟨"b.js".toList⟩ = .error .notFound := by
    rw [wrote]
    decide +kernel
  have stops : (Steps.layOut ⟨"b.js".toList⟩ false).run.run between =
      (.error (.unreadable ⟨"b.js".toList⟩ .notFound), between) :=
    Steps.run_layOut_of_unread (by decide : Language.ofPath? ⟨"b.js".toList⟩ = some .javaScript)
      missing
  have stopped : (Steps.perform command).run.run session =
      (.error (.unreadable ⟨"b.js".toList⟩ .notFound), between) := by
    have first : ([⟨"a.js".toList⟩].filterM (Steps.layOut · false)).run.run session =
        (.ok [⟨"a.js".toList⟩], between) := by
      unfold List.filterM List.filterAuxM
      rw [bind_assoc, Steps.run_bind_of_ok laysOut]
      rfl
    exact Steps.run_bind_of_error (Steps.run_filterM_of_failed first stops) _
  have ended : outcome = between.finish (.error (.unreadable ⟨"b.js".toList⟩ .notFound)) := by
    rw [← execute_of_run stopped]
  rw [ended, Session.finish_system, wrote]
  exact ⟨Failure.exitCode_ne (.unreadable ⟨"b.js".toList⟩ .notFound), by decide +kernel⟩

end RelayWorkbench.CommandLine
