import RelayWorkbench.Proofs.Workspace.PathLocations
import RelayWorkbench.Workspace.ConfigurationFile

/-! The search for a configuration. A path is shortened component by component, and each shortened
path is followed anew; so the directories that are looked at are those that the start passes
through, from its end to its beginning. They are the ones around its end only if it never leaves
them, and all of them only if it begins at the root. -/

namespace RelayWorkbench.Workspace

variable {system : FileSystem}

section Directories

theorem isEntryName_of_mem :
    ∀ name ∈ configurationNames, FileSystem.IsEntryName name := by decide

/-- The preferred configuration file of the directory at a location. -/
def FileSystem.configurationAt? (system : FileSystem) (location : List Text) :
    Option (List Text) :=
  (configurationNames.map fun name => location ++ [name]).find? system.isFileAt

/-- The preferred configuration file of a directory is the one where the directory is. -/
theorem map_locate_configurationIn? (directory : Path) :
    (configurationIn? system directory).map system.locate =
      ((system.lead directory).toOption.bind system.configurationAt?).map .ok := by
  have same : ∀ name ∈ configurationNames,
      (system.isFile ∘ fun name => directory.join ⟨name⟩) name =
        (system.lead directory).toOption.any fun location =>
          system.isFileAt (location ++ [name]) :=
    fun name member => FileSystem.isFile_join (isEntryName_of_mem name member)
  rw [configurationIn?, List.find?_map, List.find?_congr same]
  cases leads : system.lead directory with
  | error _ => simp [Except.toOption]
  | ok location =>
    simp only [Except.toOption, Option.any_some, Option.bind_some, FileSystem.configurationAt?,
      List.find?_map, Option.map_map, Function.comp_def]
    refine Option.map_congr fun name found => ?_
    have entry := isEntryName_of_mem name (List.mem_of_find?_eq_some found)
    exact FileSystem.locate_join_of_isFileAt entry leads (by simpa using List.find?_some found)

end Directories

section Shortening

theorem ancestors_of_top {path : Path} (top : path.parent? = none) (fuel : Nat) :
    ancestors fuel path = [path] := by
  cases fuel <;> simp [ancestors, top]

theorem ancestors_of_parent {path parent : Path} (shortened : path.parent? = some parent) :
    ancestors path.components.length path =
      path :: ancestors parent.components.length parent := by
  obtain ⟨last, -, parts⟩ := Path.exists_of_parent shortened
  rw [parts, List.length_append]
  simp [ancestors, shortened]

/-- The locations of the directories that are looked at, in order. -/
def consulted (system : FileSystem) (start : Path) : List (List Text) :=
  (ancestors start.components.length start).filterMap fun directory =>
    (system.lead directory).toOption

/-- The search finds the preferred file of the first directory it looks at that has one. -/
theorem map_locate_findConfiguration? (start : Path) :
    (findConfiguration? system start).map system.locate =
      ((consulted system start).findSome? system.configurationAt?).map .ok := by
  rw [findConfiguration?, consulted, List.map_findSome?, ← List.head?_filterMap,
    ← List.head?_filterMap, List.filterMap_filterMap, List.head?_filterMap, List.head?_filterMap,
    List.map_findSome?]
  exact congrArg (List.findSome? · _) (funext map_locate_configurationIn?)

end Shortening

section Places

variable {start parent : Path} {place : List Text}

theorem consulted_of_top (top : start.parent? = none) :
    consulted system start = (system.lead start).toOption.toList := by
  rw [consulted, ancestors_of_top top, List.filterMap_cons]
  cases system.lead start <;> rfl

theorem consulted_of_parent (shortened : start.parent? = some parent) :
    consulted system start = (system.lead start).toOption.toList ++ consulted system parent := by
  rw [consulted, ancestors_of_parent shortened, List.filterMap_cons]
  cases system.lead start <;> rfl

theorem base_of_parent (shortened : start.parent? = some parent) :
    system.base parent = system.base start := by
  rw [FileSystem.base, FileSystem.base, Path.isAbsolute_parent shortened]

/-- Where a start leads to is one component behind where the shortened one leads to. -/
theorem exists_step_of_parent (shortened : start.parent? = some parent)
    (leads : system.lead start = .ok place) :
    ∃ before last, last ≠ .root ∧ start.components = parent.components ++ [last] ∧
      system.lead parent = .ok before ∧ system.step before last = .ok place := by
  obtain ⟨last, noRoot, parts⟩ := Path.exists_of_parent shortened
  have onwards : system.lead parent >>= system.follow [last] = .ok place := by
    rw [FileSystem.lead, base_of_parent shortened, ← FileSystem.follow_append, ← parts]
    exact leads
  cases before : system.lead parent with
  | error _ =>
    rw [before] at onwards
    cases onwards
  | ok location =>
    rw [before] at onwards
    exact ⟨location, last, noRoot, parts, rfl, (FileSystem.follow_singleton ..).symm.trans onwards⟩

/-- The components of a start up to each one of them and, unless the first one is the root, up to
none of them; the longest come first. -/
def beginnings (start : Path) : List (List Path.Component) :=
  start.components.inits.reverse.filter fun front => !(start.isAbsolute && front.isEmpty)

theorem beginnings_of_top (top : start.parent? = none) : beginnings start = [start.components] := by
  rcases Path.components_of_top top with parts | parts
  · have relative : start.isAbsolute = false := by
      simp [Bool.eq_false_iff, Path.isAbsolute_iff_root, parts]
    rw [beginnings, parts, relative]
    rfl
  · have absolute : start.isAbsolute = true := by simp [Path.isAbsolute_iff_root, parts]
    rw [beginnings, parts, absolute]
    rfl

theorem beginnings_of_parent (shortened : start.parent? = some parent) :
    beginnings start = start.components :: beginnings parent := by
  obtain ⟨last, -, parts⟩ := Path.exists_of_parent shortened
  rw [beginnings, beginnings, Path.isAbsolute_parent shortened, parts, List.inits_append,
    List.reverse_append]
  simp

/-- The search looks at the directories that the beginnings of its start lead to. -/
theorem consulted_eq (start : Path) :
    consulted system start = (beginnings start).filterMap fun front =>
      (system.follow front (system.base start)).toOption := by
  induction start using Path.shorten_induction with
  | top start top =>
    rw [consulted_of_top top, beginnings_of_top top, FileSystem.lead, List.filterMap_cons]
    cases system.follow start.components (system.base start) <;> rfl
  | shorten start parent shortened ih =>
    rw [consulted_of_parent shortened, beginnings_of_parent shortened, ih,
      base_of_parent shortened, FileSystem.lead, List.filterMap_cons]
    cases system.follow start.components (system.base start) <;> rfl

/-- A start that cannot be shortened leads nowhere but to where it starts. -/
theorem eq_base_of_top (top : start.parent? = none) (leads : system.lead start = .ok place) :
    place = system.base start := by
  rw [FileSystem.lead] at leads
  rcases Path.components_of_top top with parts | parts
  · rw [parts] at leads
    exact (Except.ok.inj leads).symm
  · have absolute := start.isAbsolute_iff_root.mpr (by simp [parts])
    rw [parts, FileSystem.follow_singleton] at leads
    simp [FileSystem.eq_moved_of_step leads, FileSystem.moved, FileSystem.base, absolute]

/-- A start that leads to a place is looked at first. -/
theorem consulted_eq_cons (leads : system.lead start = .ok place) :
    ∃ rest, consulted system start = place :: rest := by
  cases shortened : start.parent? with
  | none => exact ⟨[], by rw [consulted_of_top shortened, leads]; rfl⟩
  | some parent => exact ⟨_, by rw [consulted_of_parent shortened, leads]; rfl⟩

/-- From one directory that is looked at to the next the search leaves one directory at most. -/
theorem isChain_consulted (leads : system.lead start = .ok place) :
    (consulted system start).IsChain fun near far => near.length ≤ far.length + 1 := by
  induction start using Path.shorten_induction generalizing place with
  | top start top => simp [consulted_of_top top, leads, Except.toOption]
  | shorten start parent shortened ih =>
    obtain ⟨before, last, -, -, leadsBefore, step⟩ := exists_step_of_parent shortened leads
    obtain ⟨rest, later⟩ := consulted_eq_cons leadsBefore
    have closer : place.length ≤ before.length + 1 := by
      rw [FileSystem.eq_moved_of_step step]
      cases last with
      | root | current | name => simp [FileSystem.moved]
      | parent => exact (List.dropLast_sublist _).length_le.trans (Nat.le_succ _)
    rw [consulted_of_parent shortened, leads, later]
    exact List.isChain_cons_cons.mpr ⟨closer, later ▸ ih leadsBefore⟩

/-- A start without `..` leads to a place below where it starts, and the search looks at nothing but
directories between the two. -/
theorem consulted_between (leads : system.lead start = .ok place)
    (descends : .parent ∉ start.components) :
    system.base start ∈ consulted system start ∧
      ∀ location ∈ consulted system start, system.base start <+: location ∧ location <+: place := by
  induction start using Path.shorten_induction generalizing place with
  | top start top =>
    have still : place = system.base start := eq_base_of_top top leads
    simp [consulted_of_top top, leads, Except.toOption, still]
  | shorten start parent shortened ih =>
    obtain ⟨before, last, noRoot, parts, leadsBefore, step⟩ :=
      exists_step_of_parent shortened leads
    rw [parts, List.mem_append, not_or] at descends
    obtain ⟨begins, between⟩ := ih leadsBefore descends.1
    have below : before <+: place := by
      rw [FileSystem.eq_moved_of_step step]
      cases last <;> simp_all [FileSystem.moved]
    obtain ⟨rest, later⟩ := consulted_eq_cons leadsBefore
    have first : before ∈ consulted system parent := later ▸ List.mem_cons_self
    rw [consulted_of_parent shortened, leads, ← base_of_parent shortened]
    refine ⟨List.mem_append_right _ begins, fun location member => ?_⟩
    rcases List.mem_append.mp member with here | above
    · obtain rfl : location = place := by simpa [Except.toOption] using here
      exact ⟨(between before first).1.trans below, List.prefix_rfl⟩
    · exact ⟨(between location above).1, (between location above).2.trans below⟩

end Places

section Answers

variable {start : Path} {top place : List Text}

/-- What a search should find from a place up to a directory around it: nothing if none of the
directories in between has a configuration file, and otherwise the preferred file of the nearest one
that has. -/
def Answers (system : FileSystem) (top place : List Text) : Option Path → Prop
  | none => ∀ directory, top <+: directory → directory <+: place →
      system.configurationAt? directory = none
  | some path => ∃ nearest file, top <+: nearest ∧ nearest <+: place ∧
      system.configurationAt? nearest = some file ∧ system.locate path = .ok file ∧
        ∀ directory, nearest <+: directory → directory <+: place → directory ≠ nearest →
          system.configurationAt? directory = none

/-- A search upwards that leaves one directory at most with each step leaves none out. -/
theorem mem_of_isChain {last directory : List Text} {early : List (List Text)}
    (chain : (early ++ [last]).IsChain fun near far => near.length ≤ far.length + 1)
    (inside : ∀ location ∈ early ++ [last], location <+: place) (below : directory <+: place)
    (lower : last.length ≤ directory.length)
    (upper : ∀ first ∈ (early ++ [last]).head?, directory.length ≤ first.length) :
    directory ∈ early ++ [last] := by
  have same : ∀ location ∈ early ++ [last], directory.length = location.length →
      directory = location := fun location member equal =>
    (List.prefix_of_prefix_length_le below (inside location member) equal.le).eq_of_length equal
  induction early with
  | nil =>
    have equal := Nat.le_antisymm (upper last rfl) lower
    exact List.mem_singleton.mpr (same last List.mem_cons_self equal)
  | cons first early ih =>
    rw [List.cons_append] at chain inside same ⊢
    by_cases equal : directory.length = first.length
    · exact same first List.mem_cons_self equal ▸ List.mem_cons_self
    · have less : directory.length < first.length := Nat.lt_of_le_of_ne (upper first rfl) equal
      refine List.mem_cons_of_mem _ (ih chain.tail
        (fun location member => inside location (List.mem_cons_of_mem _ member))
        (fun next isNext => ?_) fun location member =>
          same location (List.mem_cons_of_mem _ member))
      obtain ⟨more, rest⟩ := List.head?_eq_some_iff.mp isNext
      rw [rest] at chain
      have := (List.isChain_cons_cons.mp chain).1
      omega

/-- Whatever stands between the place and a directory that is looked at is looked at before. -/
theorem mem_of_split (leads : system.lead start = .ok place)
    (inside : ∀ location ∈ consulted system start, location <+: place)
    {early late : List (List Text)} {last directory : List Text}
    (split : consulted system start = early ++ last :: late)
    (around : last <+: directory) (below : directory <+: place) : directory ∈ early ++ [last] := by
  obtain ⟨rest, first⟩ := consulted_eq_cons leads
  rw [List.append_cons] at split
  refine mem_of_isChain (split ▸ isChain_consulted leads).left_of_append
    (fun location member => inside location (split ▸ List.mem_append_left _ member)) below
    around.length_le fun nearest isNearest => ?_
  have begins : nearest = place := by
    have same := congrArg List.head? (split.symm.trans first)
    rw [List.head?_append, isNearest] at same
    exact Option.some.inj same
  exact begins ▸ below.length_le

theorem mem_of_between (leads : system.lead start = .ok place)
    (inside : ∀ location ∈ consulted system start, location <+: place)
    (reaches : top ∈ consulted system start) {directory : List Text}
    (around : top <+: directory) (below : directory <+: place) :
    directory ∈ consulted system start := by
  obtain ⟨early, late, split⟩ := List.append_of_mem reaches
  have member := mem_of_split leads inside split around below
  rw [split, List.append_cons]
  exact List.mem_append_left _ member

/-- A search that looks at nothing but directories from a place up to one around it, and at that
one, finds what it should. -/
theorem answers_of_between (leads : system.lead start = .ok place)
    (reaches : top ∈ consulted system start)
    (between : ∀ location ∈ consulted system start, top <+: location ∧ location <+: place) :
    Answers system top place (findConfiguration? system start) := by
  have inside := fun location member => (between location member).2
  have located : (findConfiguration? system start).map system.locate = _ :=
    map_locate_findConfiguration? start
  cases found : findConfiguration? system start with
  | none =>
    rw [found] at located
    have nothing := List.findSome?_eq_none_iff.mp (Option.map_eq_none_iff.mp located.symm)
    exact fun directory around below =>
      nothing directory (mem_of_between leads inside reaches around below)
  | some path =>
    rw [found] at located
    obtain ⟨file, isFirst, leadsTo⟩ := Option.map_eq_some_iff.mp located.symm
    obtain ⟨early, nearest, late, split, holds, none⟩ := List.findSome?_eq_some_iff.mp isFirst
    have member : nearest ∈ consulted system start := by simp [split]
    refine ⟨nearest, file, (between nearest member).1, inside nearest member, holds,
      leadsTo.symm, fun directory around below other => none directory ?_⟩
    simpa [other] using mem_of_split leads inside split around below

/-- A search finds the preferred configuration file of the first directory it looks at that has one,
and it looks at the directories that the beginnings of its start lead to, the longest of them first.
From a start without `..` these are the directories between the place it leads to and the one it is
relative to, which for an absolute start is the root. In general the search looks at the directories
around the place, and at no others, exactly if the start passes through the root and through nothing
that is not around the place, and then it finds what it should. -/
theorem findConfiguration?_answers (system : FileSystem) (start : Path) :
    (findConfiguration? system start).map system.locate =
      ((consulted system start).findSome? system.configurationAt?).map .ok ∧
    (consulted system start = (beginnings start).filterMap fun front =>
      (system.follow front (system.base start)).toOption) ∧
    ∀ place, system.lead start = .ok place →
      (.parent ∉ start.components →
        (∀ location, location ∈ consulted system start ↔
          system.base start <+: location ∧ location <+: place) ∧
        Answers system (system.base start) place (findConfiguration? system start)) ∧
      ((∀ location, location ∈ consulted system start ↔ location <+: place) ↔
        [] ∈ consulted system start ∧ ∀ location ∈ consulted system start, location <+: place) ∧
      ((∀ location, location ∈ consulted system start ↔ location <+: place) →
        Answers system [] place (findConfiguration? system start)) := by
  refine ⟨map_locate_findConfiguration? start, consulted_eq start, fun place leads =>
    ⟨fun descends => ?_, ⟨fun exactly => ?_, fun ⟨reaches, inside⟩ location => ?_⟩,
      fun exactly => ?_⟩⟩
  · obtain ⟨reaches, between⟩ := consulted_between leads descends
    have inside := fun location member => (between location member).2
    exact ⟨fun location => ⟨between location, fun ⟨around, below⟩ =>
      mem_of_between leads inside reaches around below⟩, answers_of_between leads reaches between⟩
  · exact ⟨(exactly []).mpr List.nil_prefix, fun location => (exactly location).mp⟩
  · exact ⟨inside location, mem_of_between leads inside reaches List.nil_prefix⟩
  · exact answers_of_between leads ((exactly []).mpr List.nil_prefix) fun location member =>
      ⟨List.nil_prefix, (exactly location).mp member⟩

/-- From an absolute start the search goes up to the root. -/
theorem findConfiguration?_answers_nested :
    findConfiguration? ⟨.directory [("a".toList, .directory [(".relayrc".toList, .file [] .full),
        ("b".toList, .directory [])])], []⟩ ⟨"/a/./b".toList⟩ = some ⟨"/a/.relayrc".toList⟩ ∧
      Answers ⟨.directory [("a".toList, .directory [(".relayrc".toList, .file [] .full),
        ("b".toList, .directory [])])], []⟩ [] ["a".toList, "b".toList]
        (some ⟨"/a/.relayrc".toList⟩) := by
  refine ⟨by rfl, ?_⟩
  exact (((findConfiguration?_answers _ ⟨"/a/./b".toList⟩).2.2 _ (by rfl)).1 (by decide)).2

/-- A start that leaves a directory again finds the configuration of the one it has left. -/
theorem findConfiguration?_leaves :
    ¬ ∀ (system : FileSystem) (start : Path) (place : List Text),
      system.locate start = .ok place →
        Answers system [] place (findConfiguration? system start) ∧
          ∀ location ∈ consulted system start, location <+: place := by
  intro always
  have left : Answers ⟨.directory [("a".toList, .directory [(".relayrc".toList,
      .file [] .full)])], []⟩ [] [] (some ⟨"a/.relayrc".toList⟩) :=
    (always _ ⟨"a/..".toList⟩ [] (by rfl)).1
  obtain ⟨nearest, file, -, below, holds, -⟩ := left
  rw [List.prefix_nil.mp below] at holds
  cases holds

end Answers

end RelayWorkbench.Workspace
