import RelayWorkbench.Workspace.FileTree

/-! Patterns of paths. A pattern is taken component by component; `**` stands for any number of
directories, the other wildcards for characters of one name. -/

namespace RelayWorkbench.Workspace.Glob

/-- Characters of a class. -/
inductive ClassItem where
  | one (char : Char)
  | between (first last : Char)
  deriving DecidableEq, Repr

def ClassItem.holds (char : Char) : ClassItem → Bool
  | one other => char == other
  | between first last => first.toNat ≤ char.toNat && char.toNat ≤ last.toNat

/-- A part of a pattern. -/
inductive Token where
  | literal (char : Char)
  /-- Any character. -/
  | anyChar
  /-- Any characters. -/
  | anyText
  /-- Any directories. -/
  | anyDirectories
  | inClass (items : List ClassItem)
  | notInClass (items : List ClassItem)
  deriving DecidableEq, Repr

inductive Fault where
  | wildcards
  | recursion
  | range
  deriving DecidableEq, Repr

/-- A fault, and about where it is, in characters. -/
structure PatternError where
  position : Nat
  fault : Fault
  deriving DecidableEq, Repr

def Fault.message : Fault → Text
  | wildcards => "wildcards are either regular \x60*\x60 or recursive \x60**\x60".toList
  | recursion => "recursive wildcards must form a single path component".toList
  | range => "invalid range pattern".toList

def PatternError.message (error : PatternError) : Text :=
  "Pattern syntax error near position ".toList ++ Nat.toDigits 10 error.position ++ ": ".toList ++
    error.fault.message

def classItems : Text → List ClassItem
  | first :: '-' :: last :: rest => .between first last :: classItems rest
  | char :: rest => .one char :: classItems rest
  | [] => []

/-- The class after its opening bracket: its token, its length up to the closing bracket, and
the text after that. The first character of a class may be a closing bracket. -/
def classToken? : Text → Option (Token × Nat × Text)
  | '!' :: first :: rest =>
    (Text.cut? [']'] rest).map fun (more, after) =>
      (.notInClass (classItems (first :: more)), more.length + 3, after)
  | '!' :: [] => none
  | first :: rest =>
    (Text.cut? [']'] rest).map fun (more, after) =>
      (.inClass (classItems (first :: more)), more.length + 2, after)
  | [] => none

/-- The tokens of a pattern whose rest starts at a position; `before` is the character in front
of it and `fuel` bounds the length. -/
def tokensFrom : Nat → Nat → Option Char → Text → Except PatternError (List Token)
  | _, _, _, [] => .ok []
  | 0, _, _, _ => .ok []
  | fuel + 1, position, before, char :: rest =>
    if char = '?' then do return .anyChar :: (← tokensFrom fuel (position + 1) (some char) rest)
    else if char = '*' then
      let stars := (rest.takeWhile (· = '*')).length + 1
      let after := rest.drop (stars - 1)
      let next := position + stars
      if 2 < stars then .error ⟨position + 2, .wildcards⟩
      else if stars = 1 then do return .anyText :: (← tokensFrom fuel next (some '*') after)
      else if before.any (· ≠ '/') then .error ⟨position - 1, .recursion⟩
      else
        match after with
        | [] => .ok [.anyDirectories]
        | '/' :: after => do
          return .anyDirectories :: (← tokensFrom fuel (next + 1) (some '/') after)
        | _ => .error ⟨next, .recursion⟩
    else if char = '[' then
      match classToken? rest with
      | some (token, length, after) => do
        return token :: (← tokensFrom fuel (position + length + 1) (some ']') after)
      | none => .error ⟨position, .range⟩
    else do return .literal char :: (← tokensFrom fuel (position + 1) (some char) rest)

def tokens (pattern : Text) : Except PatternError (List Token) :=
  tokensFrom pattern.length 0 none pattern

/-- Whether a character is one that a token stands for. -/
def Token.holds (char : Char) : Token → Bool
  | literal other => char == other
  | anyChar => true
  | inClass items => items.any (·.holds char)
  | notInClass items => !items.any (·.holds char)
  | anyText | anyDirectories => false

/-- Whether a name is one that tokens stand for. -/
def matchesName : List Token → Text → Bool
  | [], name => name.isEmpty
  | .anyText :: rest, [] => matchesName rest []
  | .anyText :: rest, char :: name =>
    matchesName rest (char :: name) || matchesName (.anyText :: rest) name
  | _ :: _, [] => false
  | token :: rest, char :: name => token.holds char && matchesName rest name
  termination_by tokens name => tokens.length + name.length

/-- The text that tokens stand for, if they stand for only one. -/
def literalText? : List Token → Option Text
  | [] => some []
  | .literal char :: rest => (literalText? rest).map (char :: ·)
  | _ => none

def isRecursive (tokens : List Token) : Bool := tokens.contains .anyDirectories

/-- A path below a directory; the current directory is not written. -/
def below (directory : Path) (name : Text) : Path :=
  if directory.same ⟨['.']⟩ then ⟨name⟩ else directory.join ⟨name⟩

/-- The components of a pattern without its leading slash; a slash at the end adds none. -/
def splitComponents (pattern : Text) : List Text :=
  let relative := if pattern.head? = some '/' then pattern.drop 1 else pattern
  let pieces := (Path.pieces 0 relative).map (·.1)
  if pieces.getLast? = some [] then
    if pattern = ['/'] then [[]] else pieces.dropLast
  else pieces

/-- The components a directory is searched with, with a run of recursive ones taken as one. -/
def skipRecursive : List (List Token) → List (List Token)
  | first :: rest =>
    if isRecursive first && rest.head?.any isRecursive then skipRecursive rest else first :: rest
  | [] => []

mutual

/-- The paths below a directory that components stand for; `fuel` bounds the steps. -/
def search (system : FileSystem) : Nat → List (List Token) → Path → List Path
  | 0, _, _ => []
  | _, [], _ => []
  | fuel + 1, first :: rest, directory =>
    let found := fun path => if rest.isEmpty then [path] else search system fuel rest path
    match literalText? first with
    | some name =>
      let path := below directory name
      let special := name = ['.'] || name = ['.', '.']
      if (if special then system.isDirectory directory else system.pathExists path) then found path
      else []
    | none =>
      let specials :=
        if first.head? = some (.literal '.') && system.isDirectory directory then
          [['.'], ['.', '.']].filter (matchesName first)
        else []
      specials.flatMap (fun name => found (directory.join ⟨name⟩)) ++
        (system.names directory).flatMap fun name =>
          searchEntry system fuel (first :: rest) (below directory name)

/-- The paths that components stand for when the first of them is to stand for an entry. -/
def searchEntry (system : FileSystem) : Nat → List (List Token) → Path → List Path
  | 0, _, _ => []
  | fuel + 1, components, path =>
    match skipRecursive components with
    | [] => []
    | first :: rest =>
      if isRecursive first then
        let inside :=
          if system.isDirectory path then search system fuel (first :: rest) path else []
        let here :=
          if rest.isEmpty then (if system.isDirectory path then [path] else [])
          else searchEntry system fuel rest path
        here ++ inside
      else if path.fileName?.any (matchesName first) then
        if rest.isEmpty then [path] else search system fuel rest path
      else []

end

/-- The existing paths a pattern stands for, in path order. A pattern that ends in a slash
stands for directories only. -/
def expand (system : FileSystem) (pattern : Text) : Except PatternError (List Path) := do
  let _ ← tokens pattern
  let components ← (splitComponents pattern).mapM tokens
  let fuel := 2 * (2 * components.length + system.root.height + 2)
  let start : Path := ⟨if pattern.head? = some '/' then ['/'] else ['.']⟩
  let found := search system fuel components start
  let kept := if pattern.getLast? = some '/' then found.filter system.isDirectory else found
  return kept.mergeSort fun first second => !second.before first

end RelayWorkbench.Workspace.Glob
