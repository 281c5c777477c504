import RelayWorkbench.Proofs.Workspace.PathComponents
import RelayWorkbench.Workspace.FileTree

/-! Locations that paths lead to. What a path leads to depends on its route alone: where it starts,
and its steps from there; and on whether its last piece asks for a directory. -/

namespace RelayWorkbench.Workspace.FileSystem

/-- Where components lead from a location. -/
def follow (system : FileSystem) (components : List Path.Component) (location : List Text) :
    Except FileError (List Text) := components.foldlM system.step location

/-- Where the components of a path lead. -/
def lead (system : FileSystem) (path : Path) : Except FileError (List Text) :=
  system.follow path.components (system.base path)

variable {system : FileSystem}

theorem follow_append (front back : List Path.Component) (location : List Text) :
    system.follow (front ++ back) location =
      system.follow front location >>= system.follow back := List.foldlM_append

theorem follow_cons (component : Path.Component) (rest : List Path.Component)
    (location : List Text) :
    system.follow (component :: rest) location =
      system.step location component >>= system.follow rest := List.foldlM_cons

theorem follow_singleton (component : Path.Component) (location : List Text) :
    system.follow [component] location = system.step location component :=
  (follow_cons ..).trans (bind_pure _)

theorem step_eq_current_bind (location : List Text) (component : Path.Component) :
    system.step location component =
      system.step location .current >>= fun reached => system.step reached component := by
  cases found : system.root.get? location with
  | none => simp [step, found, bind, Except.bind]
  | some tree => cases tree <;> simp [step, found, bind, Except.bind]

/-- Where a component leads to from a location, as far as names tell. -/
def moved (location : List Text) : Path.Component → List Text
  | .root => []
  | .current => location
  | .parent => location.dropLast
  | .name name => location ++ [name]

/-- A component leads there or nowhere. -/
theorem eq_moved_of_step {location reached : List Text} {component : Path.Component}
    (steps : system.step location component = .ok reached) :
    reached = moved location component := by
  rw [step] at steps
  split at steps
  · cases steps
  · cases steps
  · cases component with
    | root | current | parent =>
      cases steps
      rfl
    | name name =>
      dsimp only at steps
      split at steps
      · cases steps
      · split at steps <;> cases steps
        rfl

/-- A path that is written leads from where it starts, which has to be a directory, along its
steps. -/
theorem lead_eq_steps {path : Path} (written : path.text ≠ []) :
    system.lead path = system.step (system.base path) .current >>= system.follow path.steps := by
  rw [lead]
  obtain ⟨absolute, parts⟩ | ⟨relative, parts | ⟨parts, none⟩⟩ := path.components_cases
  · have start : system.base path = [] := by simp [base, absolute]
    rw [parts, follow_cons, start]
    rfl
  · rw [parts, follow_cons]
  · rw [parts]
    cases steps : path.steps with
    | nil => exact absurd (none steps) written
    | cons component rest =>
      rw [follow_cons, step_eq_current_bind, bind_assoc]
      congr 1

theorem locate_eq {path : Path} (written : path.text ≠ []) :
    system.locate path = system.lead path >>= fun location =>
      match system.root.get? location with
      | none => .error .notFound
      | some (.file ..) => if wantsDirectory path then .error .notDirectory else .ok location
      | some (.directory _) => .ok location := by
  have some : path.text.isEmpty = false := by simpa using written
  rw [locate, some]
  rfl

/-- What counts where the components of a path lead is the tree there. -/
theorem locate_of_lead {path : Path} {location : List Text} (written : path.text ≠ [])
    (leads : system.lead path = .ok location) :
    system.locate path =
      match system.root.get? location with
      | none => .error .notFound
      | some (.file ..) => if wantsDirectory path then .error .notDirectory else .ok location
      | some (.directory _) => .ok location := by
  rw [locate_eq written, leads]
  rfl

/-- A path that leads nowhere but to where it starts leads to a directory. -/
theorem isDirectory_of_step {location reached : List Text}
    (steps : system.step location .current = .ok reached) :
    reached = location ∧ ∃ entries, system.root.get? location = some (.directory entries) := by
  rw [step] at steps
  split at steps
  · cases steps
  · cases steps
  · next entries found =>
    cases steps
    exact ⟨rfl, entries, found⟩

theorem wantsDirectory_iff_ends {path : Path} :
    wantsDirectory path ↔
      (∃ front, path.text = front ++ '/' :: []) ∨ ∃ front, path.text = front ++ '/' :: ['.'] := by
  rw [wantsDirectory, Bool.or_eq_true, beq_iff_eq, List.getLast?_eq_some_iff,
    List.isSuffixOf_iff_suffix]
  exact or_congr_right ⟨fun ⟨front, same⟩ => ⟨front, same.symm⟩, fun ⟨front, same⟩ =>
    ⟨front, same.symm⟩⟩

/-- A path with steps asks for a directory exactly if its last piece is no step. -/
theorem wantsDirectory_iff {path : Path} (leads : path.steps ≠ []) :
    wantsDirectory path ↔ path.lastPiece = [] ∨ path.lastPiece = ['.'] := by
  obtain ⟨text⟩ := path
  rw [wantsDirectory_iff_ends]
  constructor
  · rintro (⟨front, rfl⟩ | ⟨front, rfl⟩)
    · exact .inl (Path.lastPiece_append ..)
    · exact .inr (Path.lastPiece_append ..)
  · intro blank
    by_cases slash : '/' ∈ text
    · obtain ⟨late, early, backwards, behind⟩ := List.eq_append_cons_of_mem
        (List.mem_reverse.mpr slash)
      obtain rfl : text = early.reverse ++ '/' :: late.reverse := by
        rw [← text.reverse_reverse, backwards]
        simp
      rw [Path.lastPiece_append, Path.lastPiece_of_plain (by simpa using behind)] at blank
      exact blank.imp (fun empty => ⟨_, by rw [empty]⟩) fun dot => ⟨_, by rw [dot]⟩
    · -- the only piece of the path would be blank, so that there were no steps
      refine absurd ?_ leads
      have whole := List.splitOn_eq_singleton slash
      rw [Path.lastPiece, whole] at blank
      have nothing : Path.Component.ofPiece? false text = none :=
        Path.ofPiece?_eq_none_iff.mpr blank
      rw [Path.steps_eq, whole, List.filterMap_cons, nothing]
      rfl

/-- What a path leads to depends on its route and on its last piece alone. -/
theorem locate_congr {first second : Path} (firstWritten : first.text ≠ [])
    (secondWritten : second.text ≠ []) (route : first.route = second.route)
    (last : first.lastPiece = second.lastPiece) : system.locate first = system.locate second := by
  obtain ⟨start, steps⟩ := Prod.mk.inj route
  have base : system.base first = system.base second := by
    rw [FileSystem.base, start, FileSystem.base]
  have lead : system.lead first = system.lead second := by
    rw [lead_eq_steps firstWritten, lead_eq_steps secondWritten, base, steps]
  rw [locate_eq firstWritten, locate_eq secondWritten, lead]
  by_cases none : second.steps = []
  · -- both paths lead to the directory they start from, whatever they ask for
    rw [lead_eq_steps secondWritten, none]
    cases found : system.step (system.base second) .current with
    | error _ => rfl
    | ok reached =>
      obtain ⟨rfl, entries, directory⟩ := isDirectory_of_step found
      simp [follow, bind, Except.bind, pure, Except.pure, directory]
  · have same : wantsDirectory first = wantsDirectory second := by
      rw [Bool.eq_iff_iff, wantsDirectory_iff none, wantsDirectory_iff (steps ▸ none), last]
    rw [same]

section Joining

variable {directory : Path} {name : Text}

/-- Whether a text is one name that an entry of a directory can have. -/
def IsEntryName (name : Text) : Prop :=
  '/' ∉ name ∧ (Path.mk name).components = [.name name] ∧ name.width ≤ nameLimit

instance (name : Text) : Decidable (IsEntryName name) :=
  inferInstanceAs (Decidable (_ ∧ _ ∧ _))

namespace IsEntryName

variable (entry : IsEntryName name)
include entry

theorem steps_eq : (Path.mk name).steps = [.name name] := by
  rw [Path.steps, entry.2.1]
  rfl

theorem isAbsolute_eq_false : (Path.mk name).isAbsolute = false := by
  rw [Bool.eq_false_iff, Ne, Path.isAbsolute_iff_root, entry.2.1]
  simp

theorem ne_nil : name ≠ [] := by
  rintro rfl
  cases entry.2.1

theorem ne_dot : name ≠ ['.'] := by
  rintro rfl
  cases entry.2.1

end IsEntryName

theorem lead_join (entry : IsEntryName name) :
    system.lead (directory.join ⟨name⟩) =
      system.lead directory >>= fun location => system.step location (.name name) := by
  have last : system.follow [.name name] = fun location => system.step location (.name name) :=
    funext (follow_singleton _)
  by_cases empty : directory.text = []
  · have start : system.lead directory = .ok system.current := by
      obtain ⟨_⟩ := directory
      obtain rfl := empty
      rfl
    rw [Path.join_of_nil empty, lead, entry.2.1, last, start, base, entry.isAbsolute_eq_false]
    rfl
  · rw [lead, Path.components_join empty entry.isAbsolute_eq_false, entry.steps_eq, follow_append,
      last, base, Path.isAbsolute_join empty entry.isAbsolute_eq_false]
    rfl

def isFileAt (system : FileSystem) (location : List Text) : Bool :=
  (system.root.get? location).any (·.isFile)

theorem isFileAt_iff {location : List Text} :
    system.isFileAt location ↔
      ∃ contents access, system.root.get? location = some (.file contents access) := by
  rw [isFileAt]
  cases system.root.get? location with
  | none => simp
  | some tree => cases tree <;> simp [FileTree.isFile]

theorem isFile_eq (path : Path) :
    system.isFile path = (system.locate path).toOption.any system.isFileAt := by
  rw [isFile, entry?]
  cases system.locate path <;> rfl

theorem get?_concat (tree : FileTree) (location : List Text) (name : Text) :
    tree.get? (location ++ [name]) = (tree.get? location).bind (·.child? name) := by
  induction location generalizing tree with
  | nil => cases found : tree.child? name <;> simp [FileTree.get?, found]
  | cons first rest ih =>
    rw [List.cons_append, FileTree.get?, FileTree.get?, Option.bind_assoc]
    exact Option.bind_congr fun inner _ => ih inner

theorem step_of_isFileAt {location : List Text} (short : name.width ≤ nameLimit)
    (file : system.isFileAt (location ++ [name])) :
    system.step location (.name name) = .ok (location ++ [name]) := by
  obtain ⟨contents, access, found⟩ := isFileAt_iff.mp file
  obtain ⟨tree, around, child⟩ := Option.bind_eq_some_iff.mp ((get?_concat ..).symm.trans found)
  cases tree with
  | file => cases child
  | directory entries =>
    have known : entries.lookup name = some (.file contents access) := child
    simp [step, around, known, Nat.not_lt.mpr short]

theorem written_join (entry : IsEntryName name) : (directory.join ⟨name⟩).text ≠ [] := fun blank =>
  entry.ne_nil (Path.text_join_eq_nil_iff.mp blank).2

/-- A name behind a directory does not ask for a directory itself. -/
theorem wantsDirectory_join (entry : IsEntryName name) :
    wantsDirectory (directory.join ⟨name⟩) = false := by
  have route : (directory.join ⟨name⟩).route = _ := Path.route_join entry.isAbsolute_eq_false
  have leads : (directory.join ⟨name⟩).steps ≠ [] := by
    rw [(Prod.mk.inj route).2, entry.steps_eq]
    simp
  rw [Bool.eq_false_iff, Ne, wantsDirectory_iff leads, Path.lastPiece_join,
    Path.lastPiece_of_plain entry.1]
  exact not_or.mpr ⟨entry.ne_nil, entry.ne_dot⟩

/-- A file in a directory is where its name behind the directory leads to. -/
theorem locate_join_of_isFileAt (entry : IsEntryName name) {location : List Text}
    (leads : system.lead directory = .ok location)
    (file : system.isFileAt (location ++ [name])) :
    system.locate (directory.join ⟨name⟩) = .ok (location ++ [name]) := by
  have reached : system.lead (directory.join ⟨name⟩) = .ok (location ++ [name]) := by
    rw [lead_join entry, leads]
    exact step_of_isFileAt entry.2.2 file
  obtain ⟨contents, access, found⟩ := isFileAt_iff.mp file
  rw [locate_of_lead (written_join entry) reached, wantsDirectory_join entry, found]
  rfl

/-- A path leads to a file if its components do, and it asks for no directory. -/
theorem isFile_of_written {path : Path} (written : path.text ≠ []) :
    system.isFile path =
      (system.lead path).toOption.any fun location =>
        system.isFileAt location && !wantsDirectory path := by
  rw [isFile_eq]
  cases leads : system.lead path with
  | error _ =>
    rw [locate_eq written, leads]
    rfl
  | ok location =>
    rw [locate_of_lead written leads]
    cases found : system.root.get? location with
    | none => simp [isFileAt, found, Except.toOption]
    | some tree =>
      cases tree with
      | directory _ => simp [isFileAt, found, Except.toOption, FileTree.isFile]
      | file _ _ =>
        cases wantsDirectory path <;> simp [isFileAt, found, Except.toOption, FileTree.isFile]

/-- A name behind a directory leads to a file if the directory has a file of that name. -/
theorem isFile_join (entry : IsEntryName name) :
    system.isFile (directory.join ⟨name⟩) =
      (system.lead directory).toOption.any fun location =>
        system.isFileAt (location ++ [name]) := by
  rw [isFile_of_written (written_join entry), wantsDirectory_join entry, lead_join entry]
  cases system.lead directory with
  | error _ => rfl
  | ok location =>
    change (system.step location (.name name)).toOption.any
      (fun location => system.isFileAt location && !false) = system.isFileAt (location ++ [name])
    cases steps : system.step location (.name name) with
    | ok reached =>
      obtain rfl := eq_moved_of_step steps
      simp [moved, Except.toOption]
    | error _ =>
      cases file : system.isFileAt (location ++ [name]) with
      | false => rfl
      | true => simp [step_of_isFileAt entry.2.2 file] at steps

end Joining

end RelayWorkbench.Workspace.FileSystem
