import Mathlib
import RelayWorkbench.Path

/-! Components of paths. They are read off the pieces between slashes: what opens a path, then its
steps. Joining puts the steps of a relative path behind those of another one, and shortening a path
takes its last component away. -/

namespace RelayWorkbench.Path

/-- Whether a component leads on: neither the root nor the directory reached so far. -/
def Component.isStep : Component → Bool
  | .root | .current => false
  | .parent | .name _ => true

/-- The components of a path without its root and without `.` components. -/
def steps (path : Path) : List Component := path.components.filter Component.isStep

/-- Where a path starts, and the steps it takes from there. -/
def route (path : Path) : Bool × List Component := (path.isAbsolute, path.steps)

/-- What is written behind the last slash. -/
def lastPiece (path : Path) : Text := (path.text.splitOn '/').getLastD []

section Pieces

theorem exists_pieces (position : Nat) (text : Text) :
    ∃ first more, pieces position text = first :: more := by
  induction text generalizing position with
  | nil => exact ⟨_, _, rfl⟩
  | cons char rest ih =>
    obtain ⟨⟨piece, stop⟩, more, parts⟩ := ih (position + 1)
    by_cases slash : char = '/'
    · subst slash
      exact ⟨_, _, rfl⟩
    · exact ⟨(char :: piece, stop), more, by simp [pieces, parts]⟩

theorem pieces_cons {char : Char} (other : char ≠ '/') {position stop : Nat} {rest piece : Text}
    {more : List (Text × Nat)} (parts : pieces (position + 1) rest = (piece, stop) :: more) :
    pieces position (char :: rest) = (char :: piece, stop) :: more := by
  rw [pieces, parts]
  exact fun slash => absurd slash other

theorem map_fst_pieces (position : Nat) (text : Text) :
    (pieces position text).map (·.1) = text.splitOn '/' := by
  induction text generalizing position with
  | nil => rfl
  | cons char rest ih =>
    rw [List.splitOn_cons_eq_if_modifyHead, ← ih (position + 1)]
    by_cases slash : char = '/'
    · subst slash
      rfl
    · obtain ⟨⟨piece, stop⟩, more, parts⟩ := exists_pieces (position + 1) rest
      rw [if_neg (by simpa using slash), pieces_cons slash parts, parts]
      rfl

/-- A text up to the end of one of its pieces has the pieces up to there. -/
theorem exists_of_pieces {position stop : Nat} {text piece : Text} (early : List (Text × Nat))
    {late : List (Text × Nat)}
    (parts : pieces position text = early ++ (piece, stop) :: late) :
    ∃ front rest, text = front ++ rest ∧ stop = position + front.length ∧
      pieces position front = early ++ [(piece, stop)] := by
  induction text generalizing position piece early with
  | nil =>
    cases early with
    | nil =>
      cases parts
      exact ⟨[], [], rfl, rfl, rfl⟩
    | cons first more => simp [pieces] at parts
  | cons char rest ih =>
    by_cases slash : char = '/'
    · subst slash
      cases early with
      | nil =>
        cases parts
        exact ⟨[], _, rfl, rfl, rfl⟩
      | cons first more =>
        obtain ⟨rfl, later⟩ := List.cons_eq_cons.mp parts
        obtain ⟨front, rest, rfl, rfl, found⟩ := ih more later
        refine ⟨'/' :: front, rest, rfl, by rw [List.length_cons]; omega, ?_⟩
        rw [pieces, found]
        rfl
    · obtain ⟨⟨first, limit⟩, more, split⟩ := exists_pieces (position + 1) rest
      rw [pieces_cons slash split] at parts
      cases early with
      | nil =>
        cases parts
        obtain ⟨front, rest, rfl, rfl, found⟩ := ih [] split
        exact ⟨char :: front, rest, rfl, by rw [List.length_cons]; omega, pieces_cons slash found⟩
      | cons start early =>
        obtain ⟨rfl, rfl⟩ := List.cons_eq_cons.mp parts
        obtain ⟨front, rest, rfl, rfl, found⟩ := ih ((first, limit) :: early) split
        exact ⟨char :: front, rest, rfl, by rw [List.length_cons]; omega, pieces_cons slash found⟩

end Pieces

section Components

variable {path : Path} {first : Text} {more : List Text}

/-- The components of a path are those of its pieces; a root stands for an empty first piece. -/
theorem components_eq (parts : path.text.splitOn '/' = first :: more) :
    path.components =
      (if path.isAbsolute then [.root] else (Component.ofPiece? true first).toList) ++
        more.filterMap (Component.ofPiece? false) := by
  obtain ⟨⟨piece, stop⟩, later, found⟩ := exists_pieces 0 path.text
  rw [← map_fst_pieces 0, found] at parts
  obtain ⟨rfl, rfl⟩ := List.cons_eq_cons.mp parts
  rw [components, placedComponents, found]
  simp only [List.map_append, List.map_filterMap, List.filterMap_map]
  congr 1
  · split
    · rfl
    · cases Component.ofPiece? true piece <;> rfl
  · refine List.filterMap_congr fun (piece, stop) _ => ?_
    cases found : Component.ofPiece? false piece <;> simp [found]

theorem eq_nil_of_isAbsolute (absolute : path.isAbsolute)
    (parts : path.text.splitOn '/' = first :: more) : first = [] := by
  obtain ⟨rest, begins⟩ := List.head?_eq_some_iff.mp (beq_iff_eq.mp absolute)
  rw [begins] at parts
  exact (List.cons_eq_cons.mp ((List.splitOn_append_cons_self [] rest).symm.trans parts)).1.symm

theorem isAbsolute_of_nil (written : path.text ≠ [])
    (parts : path.text.splitOn '/' = [] :: more) : path.isAbsolute := by
  obtain ⟨text⟩ := path
  cases text with
  | nil => exact absurd rfl written
  | cons char rest =>
    by_cases slash : char = '/'
    · simp [isAbsolute, slash]
    · obtain ⟨start, others, split⟩ := List.exists_cons_of_ne_nil (List.splitOn_ne_nil '/' rest)
      simp [List.splitOn_cons_eq_if_modifyHead, slash, split] at parts

theorem ofPiece?_eq_none_iff {piece : Text} :
    Component.ofPiece? false piece = none ↔ piece = [] ∨ piece = ['.'] := by
  simp only [Component.ofPiece?]
  split
  · simp [*]
  · split
    · simp [*]
    · split <;> simp [*]

theorem filter_ofPiece? (leading : Bool) (piece : Text) :
    (Component.ofPiece? leading piece).filter Component.isStep =
      Component.ofPiece? false piece := by
  simp only [Component.ofPiece?]
  split
  · rfl
  · split
    · cases leading <;> rfl
    · split <;> rfl

theorem steps_eq (path : Path) :
    path.steps = (path.text.splitOn '/').filterMap (Component.ofPiece? false) := by
  obtain ⟨first, more, parts⟩ := List.exists_cons_of_ne_nil (List.splitOn_ne_nil '/' path.text)
  rw [steps, components_eq parts, List.filter_append, List.filter_filterMap]
  simp only [filter_ofPiece?]
  rw [parts, List.filterMap_cons]
  split
  · next absolute =>
    rw [eq_nil_of_isAbsolute absolute parts]
    rfl
  · rw [← Option.toList_filter, filter_ofPiece?]
    cases Component.ofPiece? false first <;> rfl

/-- Before its steps a path has a root, a `.` or nothing. -/
theorem components_cases (path : Path) :
    path.isAbsolute ∧ path.components = .root :: path.steps ∨
      path.isAbsolute = false ∧ (path.components = .current :: path.steps ∨
        path.components = path.steps ∧ (path.steps = [] → path.text = [])) := by
  obtain ⟨first, more, parts⟩ := List.exists_cons_of_ne_nil (List.splitOn_ne_nil '/' path.text)
  rw [components_eq parts, steps_eq, parts, List.filterMap_cons]
  by_cases absolute : path.isAbsolute
  · rw [eq_nil_of_isAbsolute absolute parts]
    exact .inl ⟨absolute, by simp [absolute, Component.ofPiece?]⟩
  · refine .inr ⟨by simpa using absolute, ?_⟩
    rw [if_neg absolute]
    by_cases dot : first = ['.']
    · exact .inl (by simp [dot, Component.ofPiece?])
    · have step : Component.ofPiece? true first = Component.ofPiece? false first := by
        simp [Component.ofPiece?, dot]
      rw [step]
      refine .inr ⟨by cases Component.ofPiece? false first <;> rfl, fun alone => ?_⟩
      have blank : Component.ofPiece? false first = none := by
        cases found : Component.ofPiece? false first with
        | none => rfl
        | some component => simp [found] at alone
      by_contra written
      have empty := (ofPiece?_eq_none_iff.mp blank).resolve_right dot
      exact absolute (isAbsolute_of_nil written (empty ▸ parts))

theorem isAbsolute_eq_false_of_nil {path : Path} (empty : path.text = []) :
    path.isAbsolute = false := by
  rw [isAbsolute, empty]
  rfl

end Components

section Slash

variable (front back : Text)

theorem steps_append :
    (Path.mk (front ++ '/' :: back)).steps = (Path.mk front).steps ++ (Path.mk back).steps := by
  simp only [steps_eq, List.splitOn_append_cons_self, List.filterMap_append]

theorem lastPiece_append :
    (Path.mk (front ++ '/' :: back)).lastPiece = (Path.mk back).lastPiece := by
  obtain ⟨first, more, parts⟩ := List.exists_cons_of_ne_nil (List.splitOn_ne_nil '/' back)
  rw [lastPiece, lastPiece, List.splitOn_append_cons_self, parts, List.getLastD_eq_getLast?,
    List.getLast?_append, List.getLast?_cons, List.getLastD_eq_getLast?, List.getLast?_cons]
  rfl

theorem lastPiece_of_plain {piece : Text} (plain : '/' ∉ piece) :
    (Path.mk piece).lastPiece = piece := by
  rw [lastPiece, List.splitOn_eq_singleton plain]
  rfl

end Slash

section Joining

variable {base name : Path}

theorem join_of_nil (empty : base.text = []) : base.join name = name := by
  simp [join, empty]

theorem join_of_isAbsolute (absolute : name.isAbsolute) : base.join name = name := by
  simp [join, absolute]

variable (written : base.text ≠ []) (relative : name.isAbsolute = false)
include written relative

/-- The pieces of a relative path stand behind those of the path it is joined to. -/
theorem exists_pieces_join : ∃ first more others, base.text.splitOn '/' = first :: more ∧
    (base.join name).text.splitOn '/' = first :: (others ++ name.text.splitOn '/') ∧
      others.filterMap (Component.ofPiece? false) = more.filterMap (Component.ofPiece? false) := by
  have plain : ¬ (name.isAbsolute || base.text.isEmpty) := by simp [relative, written]
  rw [join, if_neg plain]
  split
  · next ends =>
    obtain ⟨front, same⟩ := List.getLast?_eq_some_iff.mp ends
    obtain ⟨first, more, parts⟩ := List.exists_cons_of_ne_nil (List.splitOn_ne_nil '/' front)
    refine ⟨first, more ++ [[]], more, ?_, ?_, by simp [Component.ofPiece?]⟩
    · rw [same, List.splitOn_append_cons_self, parts]
      rfl
    · rw [same, List.append_assoc, List.singleton_append, List.splitOn_append_cons_self, parts]
      rfl
  · obtain ⟨first, more, parts⟩ := List.exists_cons_of_ne_nil (List.splitOn_ne_nil '/' base.text)
    exact ⟨first, more, more, parts, by rw [List.splitOn_append_cons_self, parts]; rfl, rfl⟩

theorem isAbsolute_join : (base.join name).isAbsolute = base.isAbsolute := by
  have plain : ¬ (name.isAbsolute || base.text.isEmpty) := by simp [relative, written]
  obtain ⟨char, rest, begins⟩ := List.exists_cons_of_ne_nil written
  rw [join, if_neg plain]
  split <;> simp [isAbsolute, begins]

/-- A relative path that is joined to another one adds its steps. -/
theorem components_join : (base.join name).components = base.components ++ name.steps := by
  obtain ⟨first, more, others, parts, joined, same⟩ := exists_pieces_join written relative
  rw [components_eq parts, components_eq joined, isAbsolute_join written relative, ← same,
    List.filterMap_append, steps_eq, List.append_assoc]

end Joining

theorem lastPiece_join (base name : Path) : (base.join name).lastPiece = name.lastPiece := by
  by_cases empty : base.text = []
  · rw [join_of_nil empty]
  by_cases absolute : name.isAbsolute
  · rw [join_of_isAbsolute absolute]
  obtain ⟨first, more, others, parts, joined, same⟩ :=
    exists_pieces_join empty (Bool.eq_false_iff.mpr absolute)
  obtain ⟨piece, pieces, last⟩ := List.exists_cons_of_ne_nil (List.splitOn_ne_nil '/' name.text)
  rw [lastPiece, lastPiece, joined, ← List.cons_append, List.getLastD_eq_getLast?,
    List.getLast?_append, last, List.getLastD_eq_getLast?, List.getLast?_cons]
  rfl

/-- Only blank texts are joined to a blank one. -/
theorem text_join_eq_nil_iff {base name : Path} :
    (base.join name).text = [] ↔ base.text = [] ∧ name.text = [] := by
  by_cases empty : base.text = []
  · simp [join_of_nil empty, empty]
  · rw [join]
    split
    · next plain => cases text : name.text <;> simp_all [isAbsolute]
    · split <;> simp [empty]

theorem route_join {base name : Path} (relative : name.isAbsolute = false) :
    (base.join name).route = (base.isAbsolute, base.steps ++ name.steps) := by
  by_cases empty : base.text = []
  · rw [join_of_nil empty, route, relative, isAbsolute_eq_false_of_nil empty, steps_eq base, empty]
    rfl
  · have joined := components_join empty relative
    rw [route, isAbsolute_join empty relative, steps, joined, List.filter_append]
    simp [steps]

section Shortening

theorem isAbsolute_append {front rest : Text} (written : front ≠ []) :
    (Path.mk (front ++ rest)).isAbsolute = (Path.mk front).isAbsolute := by
  obtain ⟨char, more, rfl⟩ := List.exists_cons_of_ne_nil written
  rfl

theorem isAbsolute_of_append {front rest : Text} (absolute : (Path.mk front).isAbsolute) :
    (Path.mk (front ++ rest)).isAbsolute := by
  rwa [isAbsolute_append]
  rintro rfl
  cases absolute

/-- The component of a piece behind the first one, with its place. -/
private def placed (piece : Text × Nat) : Option (Component × Nat) :=
  (Component.ofPiece? false piece.1).map (·, piece.2)

/-- What a path begins with, with its place. -/
private def opening (path : Path) (first : Text × Nat) : List (Component × Nat) :=
  if path.isAbsolute then [(Component.root, 1)]
  else ((Component.ofPiece? true first.1).map (·, first.2)).toList

private theorem placedComponents_eq {path : Path} {first : Text × Nat} {more : List (Text × Nat)}
    (parts : pieces 0 path.text = first :: more) :
    path.placedComponents = path.opening first ++ more.filterMap placed := by
  rw [placedComponents, parts]
  rfl

/-- A path up to the end of its beginning is its beginning. -/
private theorem placedComponents_take_opening {path : Path} {first : Text × Nat}
    {more : List (Text × Nat)} (parts : pieces 0 path.text = first :: more)
    {component : Component} {stop : Nat} (begins : path.opening first = [(component, stop)]) :
    (Path.mk (path.text.take stop)).placedComponents = [(component, stop)] := by
  obtain ⟨text⟩ := path
  rw [opening] at begins
  split at begins
  · next absolute =>
    obtain ⟨rest, rfl⟩ := List.head?_eq_some_iff.mp (beq_iff_eq.mp absolute)
    cases begins
    rfl
  · next relative =>
    obtain ⟨front, rest, rfl, limit, found⟩ := exists_of_pieces [] parts
    have still : ¬ (Path.mk front).isAbsolute := fun absolute =>
      relative (isAbsolute_of_append absolute)
    obtain ⟨kept, isStart, same⟩ :=
      Option.map_eq_some_iff.mp (Option.toList_eq_singleton_iff.mp begins)
    cases same
    rw [limit, Nat.zero_add, List.take_left, placedComponents_eq found, opening, if_neg still,
      isStart]
    simp [limit]

/-- A path up to the end of a later piece has the components up to there. -/
private theorem placedComponents_take_later {path : Path} {first piece : Text × Nat}
    {early late : List (Text × Nat)}
    (parts : pieces 0 path.text = first :: (early ++ piece :: late)) :
    (Path.mk (path.text.take piece.2)).placedComponents =
      path.opening first ++ (early.filterMap placed ++ (placed piece).toList) := by
  obtain ⟨text⟩ := path
  obtain ⟨front, rest, rfl, limit, found⟩ := exists_of_pieces (first :: early) parts
  have written : front ≠ [] := by
    rintro rfl
    simp [pieces] at found
  rw [List.cons_append] at found
  rw [limit, Nat.zero_add, List.take_left, placedComponents_eq found, opening, opening,
    isAbsolute_append written, List.filterMap_append]
  congr 2

/-- A path up to the end of one of its components has the components up to there. -/
theorem placedComponents_take {path : Path} {early late : List (Component × Nat)}
    {component : Component} {stop : Nat}
    (parts : path.placedComponents = early ++ (component, stop) :: late) :
    (Path.mk (path.text.take stop)).placedComponents = early ++ [(component, stop)] := by
  obtain ⟨first, more, split⟩ := exists_pieces 0 path.text
  rw [placedComponents_eq split] at parts
  have later : ∀ front, more.filterMap placed = front ++ (component, stop) :: late →
      (Path.mk (path.text.take stop)).placedComponents =
        path.opening first ++ (front ++ [(component, stop)]) := by
    intro front found
    obtain ⟨before, behind, rfl, rfl, ends⟩ := List.filterMap_eq_append_iff.mp found
    obtain ⟨between, piece, rest, rfl, none, isPiece, -⟩ := List.filterMap_eq_cons_iff.mp ends
    have place : piece.2 = stop := by
      obtain ⟨_, _, located⟩ := Option.map_eq_some_iff.mp isPiece
      exact congrArg Prod.snd located
    rw [← List.append_assoc] at split
    have taken := placedComponents_take_later split
    rw [place, isPiece, List.filterMap_append, List.filterMap_eq_nil_iff.mpr none,
      List.append_nil] at taken
    exact taken
  rcases List.append_eq_append_iff.mp parts with ⟨front, rfl, found⟩ | ⟨rest, start, behind⟩
  · rw [later front found, List.append_assoc]
  · cases rest with
    | nil =>
      rw [List.append_nil] at start
      rw [later [] behind.symm, start, List.nil_append]
    | cons next others =>
      obtain ⟨rfl, -⟩ := List.cons_eq_cons.mp behind
      have single : (path.opening first).length ≤ 1 := by
        rw [opening]
        split
        · exact Nat.le_refl 1
        · exact Option.length_toList_le
      rw [start, List.length_append, List.length_cons] at single
      obtain rfl : early = [] := List.eq_nil_of_length_eq_zero (by omega)
      obtain rfl : others = [] := List.eq_nil_of_length_eq_zero (by omega)
      exact placedComponents_take_opening split start

/-- Shortening a path takes its last component away; only a path without components and a root
alone cannot be shortened. -/
theorem parent?_cases (path : Path) :
    path.parent? = none ∧ (path.components = [] ∨ path.components = [.root]) ∨
      ∃ parent, path.parent? = some parent ∧ path.components ≠ [] ∧ path.components ≠ [.root] ∧
        parent.components = path.components.dropLast := by
  rw [parent?, components]
  rcases List.eq_nil_or_concat path.placedComponents with parts | ⟨front, last, parts⟩
  · exact .inl ⟨by rw [parts]; rfl, .inl (by rw [parts]; rfl)⟩
  rw [List.concat_eq_append] at parts
  rw [parts, List.reverse_concat, List.map_append]
  rcases List.eq_nil_or_concat front with rfl | ⟨front, before, rfl⟩
  · obtain ⟨component, stop⟩ := last
    by_cases root : component = .root
    · subst root
      exact .inl ⟨rfl, .inr rfl⟩
    · refine .inr ⟨⟨[]⟩, ?_, by simp, by simpa using root, rfl⟩
      simp [root]
  · obtain ⟨component, stop⟩ := before
    rw [List.concat_eq_append, List.append_assoc] at parts
    have taken := placedComponents_take parts
    refine .inr ⟨⟨path.text.take stop⟩, by simp, by simp, fun single => ?_, ?_⟩
    · simpa using congrArg List.length single
    · rw [components, taken]
      simp

theorem components_of_top {path : Path} (top : path.parent? = none) :
    path.components = [] ∨ path.components = [.root] := by
  obtain ⟨-, parts⟩ | ⟨_, shortened, -⟩ := path.parent?_cases
  · exact parts
  · simp [top] at shortened

theorem isAbsolute_iff_root (path : Path) : path.isAbsolute ↔ .root ∈ path.components := by
  have noRoot : .root ∉ path.steps := by simp [steps, Component.isStep]
  obtain ⟨absolute, parts⟩ | ⟨relative, parts | ⟨parts, -⟩⟩ := path.components_cases <;>
    simp [*]

/-- The component that is taken away is no root. -/
theorem exists_of_parent {path parent : Path} (shortened : path.parent? = some parent) :
    ∃ last, last ≠ .root ∧ path.components = parent.components ++ [last] := by
  obtain ⟨none, -⟩ | ⟨_, same, some, notRoot, parts⟩ := path.parent?_cases
  · simp [none] at shortened
  obtain rfl := Option.some.inj (same.symm.trans shortened)
  refine ⟨path.components.getLast some, ?_, by rw [parts, List.dropLast_append_getLast]⟩
  have noRoot : .root ∉ path.steps := by simp [steps, Component.isStep]
  obtain ⟨-, whole⟩ | ⟨relative, -⟩ := path.components_cases
  · have more : path.steps ≠ [] := by simpa [whole] using notRoot
    simp only [whole, List.getLast_cons more]
    exact fun root => noRoot (root ▸ List.getLast_mem more)
  · intro root
    have member := (isAbsolute_iff_root path).mpr (root ▸ List.getLast_mem some)
    simp [relative] at member

theorem isAbsolute_parent {path parent : Path} (shortened : path.parent? = some parent) :
    parent.isAbsolute = path.isAbsolute := by
  obtain ⟨last, noRoot, parts⟩ := exists_of_parent shortened
  rw [Bool.eq_iff_iff, isAbsolute_iff_root, isAbsolute_iff_root, parts, List.mem_append,
    List.mem_singleton, or_iff_left fun same => noRoot same.symm]

/-- What holds of the paths that cannot be shortened, and of a path if it holds of the shortened
one, holds of all paths. -/
@[elab_as_elim]
theorem shorten_induction {motive : Path → Prop}
    (top : ∀ path, path.parent? = none → motive path)
    (shorten : ∀ path parent, path.parent? = some parent → motive parent → motive path)
    (path : Path) : motive path :=
  match shortened : path.parent? with
  | none => top path shortened
  | some parent => shorten path parent shortened (shorten_induction top shorten parent)
termination_by path.components.length
decreasing_by
  obtain ⟨last, -, parts⟩ := exists_of_parent shortened
  simp [parts]

end Shortening

end RelayWorkbench.Path
