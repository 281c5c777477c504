import Mathlib
import RelayWorkbench.CommandLine.Execution

/-! What the steps of a command do to the files. Most steps leave them as they are. One that writes
does so whole or not at all, so that steps which cannot fail behind a single write change the files
only if they come to their end. -/

namespace RelayWorkbench.CommandLine.Steps

open RelayWorkbench.GraphQL RelayWorkbench.Host RelayWorkbench.Relay RelayWorkbench.Workspace

variable {α β : Type}

/-- The second steps are taken where the first ones end. -/
theorem run_bind_of_ok {first : Steps α} {session later : Session} {value : α}
    (ends : first.run.run session = (.ok value, later)) (next : α → Steps β) :
    (first >>= next).run.run session = (next value).run.run later := by
  rw [ExceptT.run_bind, StateT.run_bind, ends]
  rfl

theorem run_bind_of_error {first : Steps α} {session later : Session} {failure : Failure}
    (fails : first.run.run session = (.error failure, later)) (next : α → Steps β) :
    (first >>= next).run.run session = (.error failure, later) := by
  rw [ExceptT.run_bind, StateT.run_bind, fails]
  rfl

theorem run_write (path : Path) (contents : Text) (session : Session) :
    (write path contents).run.run session =
      match session.system.write path contents with
      | .ok system => (Except.ok (), { session with system })
      | .error error => (Except.error (.unwritable path error), session) := by
  have reads : (write path contents).run.run session =
      (match session.system.write path contents with
        | .ok system => modify fun session => { session with system }
        | .error error => throw (.unwritable path error) : Steps Unit).run.run session := rfl
  rw [reads]
  cases session.system.write path contents <;> rfl

private theorem run_readHost_eq {path : Path} {language : Language} (session : Session)
    (carries : Language.ofPath? path = some language) :
    (readHost path).run.run session =
      (match session.system.read path with
        | .ok text => .ok { path, text, language, moduleName := path.moduleName }
        | .error error => .error (.unreadable path error), session) := by
  have taken : (readHost path).run.run session =
      (match session.system.read path with
        | .ok text => return { path, text, language, moduleName := path.moduleName }
        | .error error => throw (.unreadable path error) : Steps HostFile).run.run session := by
    unfold readHost
    rw [carries]
    rfl
  rw [taken]
  cases session.system.read path <;> rfl

theorem run_readHost {path : Path} {language : Language} {text : Text} {session : Session}
    (carries : Language.ofPath? path = some language)
    (reads : session.system.read path = .ok text) :
    (readHost path).run.run session =
      (.ok { path, text, language, moduleName := path.moduleName }, session) := by
  rw [run_readHost_eq session carries, reads]

theorem run_readHost_of_error {path : Path} {language : Language} {error : FileError}
    {session : Session} (carries : Language.ofPath? path = some language)
    (unread : session.system.read path = .error error) :
    (readHost path).run.run session = (.error (.unreadable path error), session) := by
  rw [run_readHost_eq session carries, unread]

/-- Steps that leave the files as they are, however they end. -/
class KeepsFiles (steps : Steps α) : Prop where
  keeps : ∀ session, (steps.run.run session).2.system = session.system

section KeepsFiles

instance (value : α) : KeepsFiles (pure value) := ⟨fun _ => rfl⟩

instance (failure : Failure) : KeepsFiles (throw failure : Steps α) := ⟨fun _ => rfl⟩

instance KeepsFiles.bind (first : Steps α) (next : α → Steps β) [KeepsFiles first]
    [∀ value, KeepsFiles (next value)] : KeepsFiles (first >>= next) where
  keeps session := by
    have early : (first.run.run session).2.system = session.system := KeepsFiles.keeps session
    rcases ends : first.run.run session with ⟨failure | value, later⟩ <;> rw [ends] at early
    · rw [run_bind_of_error ends]
      exact early
    · rw [run_bind_of_ok ends]
      have late : ((next value).run.run later).2.system = later.system := KeepsFiles.keeps later
      exact late.trans early

theorem KeepsFiles.after {first : Steps α} {next : α → Steps β} [KeepsFiles first]
    (goes : ∀ value, KeepsFiles (next value)) : KeepsFiles (first >>= next) := inferInstance

instance {condition : Prop} [Decidable condition] (first second : Steps α) [KeepsFiles first]
    [KeepsFiles second] : KeepsFiles (if condition then first else second) := by
  split <;> infer_instance

instance : KeepsFiles settings := ⟨fun _ => rfl⟩

instance : KeepsFiles system := ⟨fun _ => rfl⟩

instance (style : Style) (text : Text) : KeepsFiles (styled style text) := ⟨fun _ => rfl⟩

instance (text : Text) : KeepsFiles (print text) := ⟨fun _ => rfl⟩

instance (text : Text) : KeepsFiles (complain text) := ⟨fun _ => rfl⟩

instance (steps : Steps Unit) [KeepsFiles steps] : KeepsFiles (unlessQuiet steps) := by
  simp only [unlessQuiet]; infer_instance

instance (text : Text) : KeepsFiles (inform text) := by unfold inform; infer_instance

instance (path : Path) : KeepsFiles (readHost path) := by
  unfold readHost
  split
  · refine KeepsFiles.after fun files => ?_
    split <;> infer_instance
  · infer_instance

instance (file : HostFile) : KeepsFiles (schemaFor file) := by
  unfold schemaFor
  refine KeepsFiles.after fun settings => KeepsFiles.after fun files => ?_
  split <;> infer_instance

instance (file : HostFile) (edits : List TextEdit) : KeepsFiles (revised file edits) := by
  unfold revised
  split <;> infer_instance

instance (text : Text) (dryRun : Bool) : KeepsFiles (celebrate text dryRun) := by
  simp only [celebrate]; infer_instance

instance (path : Path) (contents : Text) : KeepsFiles (deliver path contents true) := by
  simp only [deliver, if_true]; infer_instance

instance (file : HostFile) (place : Place) : KeepsFiles (actionsAt file place) := by
  unfold actionsAt
  refine KeepsFiles.after fun schema => ?_
  split <;> infer_instance

instance (pick : Option Text) (asked : List Scaffold.Prompt) :
    KeepsFiles (warnOfPick pick asked) := by
  unfold warnOfPick
  split <;> infer_instance

end KeepsFiles

/-- Steps that come to their end with a result as it should be. -/
def Succeeds (good : α → Prop) (steps : Steps α) : Prop :=
  ∀ session, ∃ value, (steps.run.run session).1 = .ok value ∧ good value

namespace Succeeds

variable {good : α → Prop} {better : β → Prop}

theorem pure {value : α} (holds : good value) : Succeeds good (Pure.pure value) :=
  fun _ => ⟨value, rfl, holds⟩

theorem mono {wider : α → Prop} {steps : Steps α} (succeeds : Succeeds good steps)
    (widens : ∀ value, good value → wider value) : Succeeds wider steps := by
  intro session
  obtain ⟨value, ends, holds⟩ := succeeds session
  exact ⟨value, ends, widens value holds⟩

theorem bind {first : Steps α} {next : α → Steps β} (succeeds : Succeeds good first)
    (goes : ∀ value, good value → Succeeds better (next value)) :
    Succeeds better (first >>= next) := by
  intro session
  obtain ⟨value, ends, holds⟩ := succeeds session
  rw [run_bind_of_ok (Prod.ext ends rfl)]
  exact goes value holds _

theorem ite {condition : Prop} [Decidable condition] {first second : Steps α}
    (yes : Succeeds good first) (no : Succeeds good second) :
    Succeeds good (if condition then first else second) := by
  split
  · exact yes
  · exact no

end Succeeds

theorem Succeeds.exists_run {good : α → Prop} {steps : Steps α} [KeepsFiles steps]
    (succeeds : Succeeds good steps) (session : Session) :
    ∃ value later, steps.run.run session = (.ok value, later) ∧ good value ∧
      later.system = session.system := by
  obtain ⟨value, ends, holds⟩ := succeeds session
  exact ⟨value, _, Prod.ext ends rfl, holds, KeepsFiles.keeps session⟩

theorem succeeds_styled (style : Style) (text : Text) :
    Succeeds (fun _ => True) (styled style text) := fun _ => ⟨_, rfl, trivial⟩

theorem succeeds_inform (text : Text) : Succeeds (fun _ => True) (inform text) := by
  have settled : Succeeds (fun _ => True) settings := fun _ => ⟨_, rfl, trivial⟩
  simp only [inform, unlessQuiet]
  refine settled.bind fun settings _ => Succeeds.ite ?_ (Succeeds.pure trivial)
  exact fun _ => ⟨_, rfl, trivial⟩

theorem succeeds_celebrate (text : Text) (dryRun : Bool) :
    Succeeds (fun _ => True) (celebrate text dryRun) := by
  simp only [celebrate]
  refine Succeeds.ite ?_ (Succeeds.pure trivial)
  exact (succeeds_styled .green ['✓']).bind fun _ _ => succeeds_inform _

/-- How the files are left by steps that do not end as they should. -/
def Leaves (left : FileSystem → FileSystem → Prop) (good : α → Prop) (steps : Steps α) : Prop :=
  ∀ session, (∀ value, (steps.run.run session).1 = .ok value → ¬ good value) →
    left session.system (steps.run.run session).2.system

/-- Steps that change the files only if they end as they should. -/
abbrev AllOrNothing (good : α → Prop) (steps : Steps α) : Prop := Leaves Eq good steps

/-- Steps of which no end is as it should be are not allowed to change the files. -/
theorem KeepsFiles.of_allOrNothing {steps : Steps α}
    (whole : AllOrNothing (fun _ => False) steps) : KeepsFiles steps :=
  ⟨fun session => (whole session fun _ _ => id).symm⟩

namespace Leaves

variable {left : FileSystem → FileSystem → Prop} {good : α → Prop} {better : β → Prop}

theorem of_keepsFiles [Std.Refl left] {steps : Steps α} [KeepsFiles steps] :
    Leaves left good steps := by
  intro session _
  have keeps : (steps.run.run session).2.system = session.system := KeepsFiles.keeps session
  rw [keeps]
  exact Std.Refl.refl _

theorem after [Std.Refl left] {first : Steps α} {next : α → Steps β} [KeepsFiles first]
    (goes : ∀ value, Leaves left better (next value)) : Leaves left better (first >>= next) := by
  intro session fails
  have early : (first.run.run session).2.system = session.system := KeepsFiles.keeps session
  rcases ends : first.run.run session with ⟨failure | value, later⟩ <;> rw [ends] at early
  · rw [run_bind_of_error ends, early]
    exact Std.Refl.refl _
  · rw [run_bind_of_ok ends] at fails ⊢
    rw [← early]
    exact goes value later fails

theorem ite {condition : Prop} [Decidable condition] {first second : Steps α}
    (yes : Leaves left good first) (no : Leaves left good second) :
    Leaves left good (if condition then first else second) := by
  split
  · exact yes
  · exact no

/-- Steps that are not taken under a condition. -/
theorem guarded [Std.Refl left] {condition : Prop} [Decidable condition] {failure : Failure}
    {next : Unit → Steps β} (goes : ¬ condition → Leaves left better (next ())) :
    Leaves left better (if condition then throw failure >>= next else next ()) := by
  split
  · exact fun _ _ => Std.Refl.refl _
  next passed => exact goes passed

theorem mono {wider : FileSystem → FileSystem → Prop} {steps : Steps α}
    (leaves : Leaves left good steps) (widens : ∀ before after, left before after →
      wider before after) : Leaves wider good steps :=
  fun session fails => widens _ _ (leaves session fails)

theorem afterSystem {next : FileSystem → Steps β}
    (goes : ∀ files, Leaves (fun before after => before = files → left before after) better
      (next files)) : Leaves left better (system >>= next) :=
  fun session fails => goes session.system session fails rfl

/-- Behind two writes nothing may fail. -/
theorem writes {first second : Path} {contents text : Text} {next : Unit → Steps β}
    (ends : Succeeds better (next ())) :
    Leaves (fun before after => before = after ∨ before.write first contents = .ok after ∧
      ∃ error, after.write second text = .error error) better
      (write first contents >>= fun _ => write second text >>= next) := by
  intro session fails
  have starts := run_write first contents session
  cases written : session.system.write first contents with
  | error error =>
    rw [written] at starts
    rw [run_bind_of_error starts]
    exact .inl rfl
  | ok between =>
    rw [written] at starts
    rw [run_bind_of_ok starts] at fails ⊢
    have goes := run_write second text { session with system := between }
    dsimp only at goes
    cases again : between.write second text with
    | error error =>
      rw [again] at goes
      rw [run_bind_of_error goes]
      exact .inr ⟨rfl, error, again⟩
    | ok last =>
      rw [again] at goes
      rw [run_bind_of_ok goes] at fails
      obtain ⟨value, finishes, holds⟩ := ends { session with system := last }
      exact absurd holds (fails value finishes)

end Leaves

instance {left : FileSystem → FileSystem → Prop} [Std.Refl left] (files : FileSystem) :
    Std.Refl fun before after => before = files → left before after :=
  ⟨fun _ _ => Std.Refl.refl _⟩

namespace AllOrNothing

variable {better : β → Prop}

theorem write {path : Path} {contents : Text} {next : Unit → Steps β}
    (ends : Succeeds better (next ())) :
    AllOrNothing better (Steps.write path contents >>= next) := by
  intro session fails
  have writes := run_write path contents session
  cases written : session.system.write path contents with
  | error error =>
    rw [written] at writes
    rw [run_bind_of_error writes]
  | ok system =>
    rw [written] at writes
    rw [run_bind_of_ok writes] at fails
    obtain ⟨value, finishes, holds⟩ := ends { session with system }
    exact absurd holds (fails value finishes)

theorem deliver {path : Path} {contents : Text} {dryRun : Bool} {next : Unit → Steps β}
    [KeepsFiles (next ())] (ends : dryRun = false → Succeeds better (next ())) :
    AllOrNothing better (Steps.deliver path contents dryRun >>= next) := by
  cases dryRun with
  | true => exact Leaves.after fun _ => Leaves.of_keepsFiles
  | false => exact write (ends rfl)

end AllOrNothing

end RelayWorkbench.CommandLine.Steps
