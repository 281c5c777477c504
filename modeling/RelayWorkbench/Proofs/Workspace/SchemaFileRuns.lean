import RelayWorkbench.Proofs.Workspace.CacheRuns
import RelayWorkbench.Workspace.SchemaFiles

/-! The files that the entries of a schema stand for, with their repeats. Every path that an entry
contributes is kept, but only neighbours are compared: a path is found twice exactly if other paths
stand between two of its contributions. The paths of one pattern are in order, so that they never
repeat. -/

namespace RelayWorkbench

namespace Path

/-- The characters of a text by their code points, in the order of texts. -/
def textKey (text : Text) : List Nat := text.map Char.toNat

def Component.key (component : Component) : Nat ×ₗ List Nat :=
  toLex (component.rank, match component with
    | .name text => textKey text
    | _ => [])

def key (path : Path) : List (Nat ×ₗ List Nat) := path.components.map Component.key

theorem textBefore_iff {first second : Text} :
    textBefore first second ↔ textKey first < textKey second := by
  induction first generalizing second with
  | nil => cases second <;> simp [textBefore, textKey]
  | cons char rest ih =>
    cases second with
    | nil => simp [textBefore, textKey]
    | cons other more =>
      simp only [textKey] at ih
      simp [textBefore, textKey, List.cons_lt_cons_iff, Char.toNat_inj, ih]

theorem Component.key_injective : Function.Injective Component.key := by
  intro first second same
  have apart : Function.Injective textKey := List.map_injective_iff.mpr fun _ _ => Char.toNat_inj.mp
  cases first <;> cases second <;> simp_all [Component.key, Component.rank, apart.eq_iff]

theorem Component.before_iff {first second : Component} :
    first.before second ↔ first.key < second.key := by
  cases first <;> cases second <;>
    simp [Component.before, Component.key, Component.rank, Prod.Lex.toLex_lt_toLex, textBefore_iff]

theorem before_iff {first second : Path} : first.before second ↔ first.key < second.key := by
  simp only [before, key]
  generalize first.components = front
  generalize second.components = back
  induction front generalizing back with
  | nil => cases back <;> simp [componentsBefore]
  | cons component rest ih =>
    cases back with
    | nil => simp [componentsBefore]
    | cons other more =>
      simp [componentsBefore, List.cons_lt_cons_iff, Component.before_iff, ih,
        Component.key_injective.eq_iff]

theorem key_eq_iff {first second : Path} : first.key = second.key ↔ first.same second := by
  rw [key, key, (List.map_injective_iff.mpr Component.key_injective).eq_iff, same_iff]

end Path

namespace Workspace

/-- Whether paths that name one place stand together: whatever is between two of them names it
too. -/
def InRuns (paths : List Path) : Prop :=
  ∀ first middle last, [first, middle, last].Sublist paths → first.same last → first.same middle

theorem InRuns.tail {path : Path} {rest : List Path} (runs : InRuns (path :: rest)) : InRuns rest :=
  fun first middle last among => runs first middle last (among.cons path)

theorem inRuns_of_sorted {paths : List Path} (sorted : paths.Pairwise (·.key ≤ ·.key)) :
    InRuns paths := by
  intro first middle last among same
  have order := sorted.sublist among
  simp only [List.pairwise_cons, List.mem_cons, List.not_mem_nil, or_false, forall_eq_or_imp,
    forall_eq] at order
  obtain ⟨⟨before, -⟩, behind, -⟩ := order
  rw [← Path.key_eq_iff] at same ⊢
  exact le_antisymm before (same ▸ behind)

/-- Two lists that name no place in common, one behind the other. -/
theorem inRuns_append {front back : List Path} (frontRuns : InRuns front) (backRuns : InRuns back)
    (apart : ∀ first ∈ front, ∀ last ∈ back, first.same last = false) :
    InRuns (front ++ back) := by
  intro first middle last among same
  obtain ⟨early, late, parts, inFront, inBack⟩ := List.sublist_append_iff.mp among
  cases early with
  | nil =>
    rw [List.nil_append] at parts
    exact backRuns first middle last (parts ▸ inBack) same
  | cons start more =>
    obtain ⟨rfl, behind⟩ := List.cons_eq_cons.mp parts
    cases late using List.reverseRecOn with
    | nil =>
      rw [List.append_nil] at parts
      exact frontRuns first middle last (parts ▸ inFront) same
    | append_singleton others stop =>
      -- the first path is in front and the last one behind, so that they name different places
      have ends : stop = last := by
        simpa using congrArg List.getLast? behind.symm
      have differs := apart first (inFront.subset List.mem_cons_self) last
        (inBack.subset (by simp [ends]))
      exact absurd same (Bool.eq_false_iff.mp differs)

section Repeats

theorem dropRepeats_cons (first second : Path) {rest more : List Path}
    (dropped : dropRepeats rest = second :: more) :
    dropRepeats (first :: rest) =
      if first.same second then first :: more else first :: second :: more := by
  rw [dropRepeats, dropped]

theorem exists_dropRepeats (first : Path) (rest : List Path) :
    ∃ more, dropRepeats (first :: rest) = first :: more := by
  cases dropped : dropRepeats rest with
  | nil => exact ⟨[], by rw [dropRepeats, dropped]⟩
  | cons second more =>
    rw [dropRepeats_cons first second dropped]
    split <;> exact ⟨_, rfl⟩

theorem dropRepeats_sublist (paths : List Path) : (dropRepeats paths).Sublist paths := by
  induction paths with
  | nil => exact .slnil
  | cons first rest ih =>
    cases dropped : dropRepeats rest with
    | nil =>
      rw [dropRepeats, dropped]
      exact (List.nil_sublist rest).cons_cons first
    | cons second more =>
      rw [dropped] at ih
      rw [dropRepeats_cons first second dropped]
      split
      · exact ((List.sublist_cons_self second more).trans ih).cons_cons first
      · exact ih.cons_cons first

theorem exists_mem_dropRepeats {path : Path} {paths : List Path} (member : path ∈ paths) :
    ∃ file ∈ dropRepeats paths, file.same path := by
  induction paths with
  | nil => cases member
  | cons first rest ih =>
    rcases List.mem_cons.mp member with rfl | later
    · obtain ⟨more, kept⟩ := exists_dropRepeats path rest
      exact ⟨path, by rw [kept]; exact List.mem_cons_self, Path.same_refl path⟩
    · obtain ⟨file, among, same⟩ := ih later
      cases dropped : dropRepeats rest with
      | nil =>
        rw [dropped] at among
        cases among
      | cons second more =>
        rw [dropped] at among
        rw [dropRepeats_cons first second dropped]
        split
        · next repeated =>
          rcases List.mem_cons.mp among with rfl | inside
          · exact ⟨first, List.mem_cons_self, by rwa [Path.same_congr repeated]⟩
          · exact ⟨file, List.mem_cons_of_mem _ inside, same⟩
        · exact ⟨file, List.mem_cons_of_mem _ among, same⟩

theorem isChain_dropRepeats (paths : List Path) :
    (dropRepeats paths).IsChain fun first second => first.same second = false := by
  induction paths with
  | nil => exact .nil
  | cons first rest ih =>
    cases dropped : dropRepeats rest with
    | nil =>
      rw [dropRepeats, dropped]
      exact .singleton first
    | cons second more =>
      rw [dropped] at ih
      rw [dropRepeats_cons first second dropped]
      split
      · next repeated =>
        cases more with
        | nil => exact .singleton first
        | cons third others =>
          rw [List.isChain_cons_cons] at ih ⊢
          rwa [Path.same_congr repeated]
      · next other => exact .cons_cons (by simpa using other) ih

/-- A path in front of one that names the same place makes no difference. -/
theorem inRuns_cons_of_same {first second : Path} {rest : List Path}
    (repeated : first.same second) :
    InRuns (first :: second :: rest) ↔ InRuns (second :: rest) := by
  refine ⟨InRuns.tail, fun runs start middle last among same => ?_⟩
  rcases List.sublist_cons_iff.mp among with later | ⟨_, parts, behind⟩
  · exact runs start middle last later same
  obtain ⟨rfl, rfl⟩ := List.cons_eq_cons.mp parts
  rw [Path.same_congr repeated] at same ⊢
  rcases List.sublist_cons_iff.mp behind with inside | ⟨_, parts, -⟩
  · exact runs second middle last (inside.cons_cons second) same
  · obtain ⟨rfl, -⟩ := List.cons_eq_cons.mp parts
    exact Path.same_refl middle

/-- Behind a path that names another place than the next one, its own place is not named again. -/
theorem inRuns_cons_of_other {first second : Path} {rest : List Path}
    (other : first.same second = false) :
    InRuns (first :: second :: rest) ↔
      (∀ path ∈ second :: rest, first.same path = false) ∧ InRuns (second :: rest) := by
  constructor
  · intro runs
    refine ⟨List.forall_mem_cons.mpr ⟨other, fun path member => ?_⟩, runs.tail⟩
    rw [Bool.eq_false_iff]
    intro same
    have among : [first, second, path].Sublist (first :: second :: rest) :=
      ((List.singleton_sublist.mpr member).cons_cons second).cons_cons first
    exact absurd (runs first second path among same) (Bool.eq_false_iff.mp other)
  · rintro ⟨apart, runs⟩ start middle last among same
    rcases List.sublist_cons_iff.mp among with later | ⟨_, parts, behind⟩
    · exact runs start middle last later same
    · obtain ⟨rfl, rfl⟩ := List.cons_eq_cons.mp parts
      have differs := apart last (behind.subset (by simp))
      exact absurd same (Bool.eq_false_iff.mp differs)

/-- No two paths that are kept name one place exactly if those that do so stood together. -/
theorem pairwise_dropRepeats_iff {paths : List Path} :
    (dropRepeats paths).Pairwise (fun first second => first.same second = false) ↔
      InRuns paths := by
  induction paths with
  | nil => simp [dropRepeats, InRuns]
  | cons first rest ih =>
    cases rest with
    | nil => simp [dropRepeats, InRuns]
    | cons second rest =>
    obtain ⟨more, dropped⟩ := exists_dropRepeats second rest
    rw [dropRepeats_cons first second dropped]
    rw [dropped] at ih
    split
    · next repeated =>
      rw [inRuns_cons_of_same repeated, ← ih]
      simp only [List.pairwise_cons, Path.same_congr repeated]
    · next other =>
      rw [inRuns_cons_of_other (by simpa using other), ← ih, ← dropped, List.pairwise_cons]
      refine and_congr_left fun _ => ⟨fun apart path member => ?_, fun apart path member => ?_⟩
      · obtain ⟨file, kept, same⟩ := exists_mem_dropRepeats member
        rw [Path.same_comm, ← Path.same_congr same, Path.same_comm]
        exact apart file kept
      · exact apart path ((dropRepeats_sublist _).subset member)

end Repeats

/-- The patterns of the entries that name files. -/
def schemaPatterns (entries : List Text) : List Text :=
  (entries.filter (!isRemote ·)).flatMap SchemaEntry.expandBraces

theorem mem_schemaPatterns {entries : List Text} {pattern : Text} :
    pattern ∈ schemaPatterns entries ↔
      ∃ entry ∈ entries, isRemote entry = false ∧ pattern ∈ SchemaEntry.expandBraces entry := by
  simp [schemaPatterns, and_assoc]

/-- The paths that patterns stand for below a directory, pattern by pattern; a pattern that is not
well formed stands for none. -/
def contributed (system : FileSystem) (directory : Path) (patterns : List Text) : List Path :=
  patterns.flatMap fun pattern => (patternFiles system directory pattern).toOption.getD []

theorem contributed_cons (system : FileSystem) (directory : Path) (pattern : Text)
    (rest : List Text) :
    contributed system directory (pattern :: rest) =
      contributed system directory [pattern] ++ contributed system directory rest := by
  simp [contributed]

section Files

/-- A computation in two steps that has a result has one after its first step. -/
theorem exists_of_bind_eq_ok {ε α β : Type} {first : Except ε α} {next : α → Except ε β}
    {result : β} (returns : first >>= next = .ok result) :
    ∃ value, first = .ok value ∧ next value = .ok result := by
  cases first with
  | error _ => cases returns
  | ok value => exact ⟨value, rfl, returns⟩

variable {system : FileSystem} {directory : Path}

theorem sorted_expand {pattern : Text} {found : List Path}
    (expands : Glob.expand system pattern = .ok found) : found.Pairwise (·.key ≤ ·.key) := by
  have order : ∀ first second : Path, (!second.before first) = true ↔ first.key ≤ second.key := by
    intro first second
    rw [Bool.not_eq_true', ← not_lt, ← Path.before_iff, Bool.not_eq_true]
  have sorted : ∀ paths : List Path,
      (paths.mergeSort fun first second => !second.before first).Pairwise (·.key ≤ ·.key) := by
    intro paths
    refine (List.pairwise_mergeSort ?_ ?_ paths).imp fun inOrder => (order _ _).mp inOrder
    · intro first second third before behind
      rw [order] at before behind ⊢
      exact before.trans behind
    · intro first second
      rw [Bool.or_eq_true, order, order]
      exact le_total _ _
  obtain ⟨_, -, rest⟩ := exists_of_bind_eq_ok expands
  obtain ⟨_, -, ⟨⟩⟩ := exists_of_bind_eq_ok rest
  exact sorted _

theorem inRuns_patternFiles {pattern : Text} {found : List Path}
    (names : patternFiles system directory pattern = .ok found) : InRuns found := by
  rw [patternFiles] at names
  split at names
  · cases expands : Glob.expand system (directory.join ⟨pattern⟩).text with
    | error _ =>
      rw [expands] at names
      cases names
    | ok paths =>
      rw [expands] at names
      cases names
      exact inRuns_of_sorted (sorted_expand expands)
  · cases names
    exact inRuns_of_sorted (List.pairwise_singleton _ _)

theorem inRuns_contributed_singleton (pattern : Text) :
    InRuns (contributed system directory [pattern]) := by
  rw [contributed, List.flatMap_singleton]
  cases names : patternFiles system directory pattern with
  | error _ => exact inRuns_of_sorted .nil
  | ok found => exact inRuns_patternFiles names

/-- If every pattern is well formed, the paths found are those contributed. -/
theorem contributed_of_mapM {patterns : List Text} {lists : List (List Path)}
    (resolved : patterns.mapM (patternFiles system directory) = .ok lists) :
    (∀ pattern ∈ patterns, ∃ found, patternFiles system directory pattern = .ok found) ∧
      lists.flatten = contributed system directory patterns := by
  induction patterns generalizing lists with
  | nil =>
    cases resolved
    exact ⟨by simp, rfl⟩
  | cons pattern rest ih =>
    rw [List.mapM_cons] at resolved
    obtain ⟨found, names, rest⟩ := exists_of_bind_eq_ok resolved
    obtain ⟨more, others, ⟨⟩⟩ := exists_of_bind_eq_ok rest
    obtain ⟨wellFormed, flat⟩ := ih others
    refine ⟨List.forall_mem_cons.mpr ⟨⟨found, names⟩, wellFormed⟩, ?_⟩
    simp [contributed, names, flat, Except.toOption]

/-- Patterns that name no place in common contribute each place together. -/
theorem inRuns_contributed {patterns : List Text}
    (apart : patterns.Pairwise fun early late =>
      ∀ first ∈ contributed system directory [early], ∀ last ∈ contributed system directory [late],
        first.same last = false) :
    InRuns (contributed system directory patterns) := by
  induction patterns with
  | nil => exact inRuns_of_sorted .nil
  | cons pattern rest ih =>
    obtain ⟨here, later⟩ := List.pairwise_cons.mp apart
    rw [contributed_cons]
    refine inRuns_append (inRuns_contributed_singleton pattern) (ih later) ?_
    intro first inFront last inBack
    obtain ⟨other, member, inside⟩ := List.mem_flatMap.mp inBack
    exact here other member first inFront last (by simpa [contributed] using inside)

/-- Every path that a pattern of an entry stands for is among the files, under one of the names of
its place, and the files come from there alone. Neighbours differ. No place is named twice exactly
if the contributions of each place stand together, and so it is if the patterns have no place in
common: a place that an entry names again behind another file is loaded again. -/
theorem schemaFiles_repeat_iff {entries : List Text} {files : List Path}
    (resolved : schemaFiles system directory entries = .ok files) :
    (∀ entry ∈ entries, isRemote entry = false → ∀ pattern ∈ SchemaEntry.expandBraces entry,
      ∃ found, patternFiles system directory pattern = .ok found ∧
        ∀ path ∈ found, ∃ file ∈ files, file.same path) ∧
    files.Sublist (contributed system directory (schemaPatterns entries)) ∧
    files.IsChain (fun first second => first.same second = false) ∧
    (files.Pairwise (fun first second => first.same second = false) ↔
      InRuns (contributed system directory (schemaPatterns entries))) ∧
    ((schemaPatterns entries).Pairwise (fun early late =>
        ∀ first ∈ contributed system directory [early],
          ∀ last ∈ contributed system directory [late], first.same last = false) →
      files.Pairwise fun first second => first.same second = false) := by
  obtain ⟨lists, found, ⟨⟩⟩ := exists_of_bind_eq_ok resolved
  obtain ⟨wellFormed, flat⟩ := contributed_of_mapM found
  rw [flat]
  refine ⟨fun entry member onDisk pattern inside => ?_, dropRepeats_sublist _,
    isChain_dropRepeats _, pairwise_dropRepeats_iff, fun apart =>
      pairwise_dropRepeats_iff.mpr (inRuns_contributed apart)⟩
  have among : pattern ∈ schemaPatterns entries :=
    mem_schemaPatterns.mpr ⟨entry, member, onDisk, inside⟩
  obtain ⟨paths, names⟩ := wellFormed pattern among
  refine ⟨paths, names, fun path listed => exists_mem_dropRepeats ?_⟩
  exact List.mem_flatMap.mpr ⟨pattern, among, by simpa [names, Except.toOption] using listed⟩

end Files

/-- A name that two entries give one behind the other is kept once, and the others stay in order. -/
theorem schemaFiles_repeat_iff_neighbours :
    schemaFiles ⟨.directory [], []⟩ ⟨['w']⟩
        ["a.gql".toList, "./{a, b}.gql".toList, "http://c".toList] =
      .ok [⟨"w/a.gql".toList⟩, ⟨"w/b.gql".toList⟩] ∧
      List.Pairwise (fun first second => first.same second = false)
        [(⟨"w/a.gql".toList⟩ : Path), ⟨"w/b.gql".toList⟩] ∧
      InRuns (contributed ⟨.directory [], []⟩ ⟨['w']⟩
        (schemaPatterns ["a.gql".toList, "./{a, b}.gql".toList, "http://c".toList])) := by
  have resolved : schemaFiles ⟨.directory [], []⟩ ⟨['w']⟩
      ["a.gql".toList, "./{a, b}.gql".toList, "http://c".toList] =
        .ok [⟨"w/a.gql".toList⟩, ⟨"w/b.gql".toList⟩] := by rfl
  have different : List.Pairwise (fun first second => first.same second = false)
      [(⟨"w/a.gql".toList⟩ : Path), ⟨"w/b.gql".toList⟩] := by decide
  exact ⟨resolved, different, (schemaFiles_repeat_iff resolved).2.2.2.1.mp different⟩

/-- A file that is named again behind another one is found twice. -/
theorem schemaFiles_repeat_apart :
    ¬ ∀ (system : FileSystem) (directory : Path) (entries : List Text) (files : List Path),
      schemaFiles system directory entries = .ok files →
        files.Pairwise fun first second => first.same second = false := by
  intro never
  have resolved : schemaFiles ⟨.directory [], []⟩ ⟨['w']⟩
      ["a.gql".toList, "b.gql".toList, "a.gql".toList] =
        .ok [⟨"w/a.gql".toList⟩, ⟨"w/b.gql".toList⟩, ⟨"w/a.gql".toList⟩] := by rfl
  exact absurd (never _ _ _ _ resolved) (by decide)

end Workspace

end RelayWorkbench
