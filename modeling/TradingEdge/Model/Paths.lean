import Mathlib.Data.Char
import Mathlib.Data.List.Dedup
import Mathlib.Data.List.Lex
import TradingEdge.Library.KeySort
import TradingEdge.Library.Pieces

/-!
# Paths and files

The functions of Python's `pathlib` that the repository's readers of files use, on lists of
characters.  A disk is a tree of directories and files without links, so that `..` is the
directory above.
-/

set_option autoImplicit false

namespace TradingEdge.Model

open TradingEdge.Library

abbrev FileName := List Char

/-- The names from the root of the disk to a directory or a file. -/
abbrev Location := List FileName

/-- `PurePosixPath`: the root as it is written, and the parts behind it. -/
structure PurePath where
  root : List Char
  parts : List FileName
deriving DecidableEq

namespace PurePath

/-- Two slashes at the front are a root of their own, three are one. -/
def rootOf : List Char → List Char
  | '/' :: '/' :: '/' :: _ => ['/']
  | '/' :: '/' :: _ => ['/', '/']
  | '/' :: _ => ['/']
  | _ => []

/-- `Path(text)`: empty parts and parts that are a single dot are dropped. -/
def ofText (cs : List Char) : PurePath :=
  ⟨rootOf cs, (cs.splitOn '/').filter fun c => c ≠ [] ∧ c ≠ ['.']⟩

/-- `p / q`: an absolute path discards what it is joined to. -/
def joinpath (p q : PurePath) : PurePath :=
  if q.root = [] then ⟨p.root, p.parts ++ q.parts⟩ else q

/-- `str(path)`. -/
def text (p : PurePath) : List Char :=
  if p.root = [] ∧ p.parts = [] then ['.'] else p.root ++ ['/'].intercalate p.parts

/-- Go to a name, or up. -/
def goTo (loc : Location) (c : FileName) : Location :=
  if c = ['.', '.'] then loc.dropLast else loc ++ [c]

/-- Where the path begins. -/
def start (cwd : Location) (p : PurePath) : Location := if p.root = [] then cwd else []

/-- Where the path leads from a working directory. -/
def resolve (cwd : Location) (p : PurePath) : Location := p.parts.foldl goTo (p.start cwd)

/-- The places that names lead through, without the last. -/
def walk : Location → List FileName → List Location
  | _, [] => []
  | loc, c :: cs => loc :: walk (goTo loc c) cs

/-- A name goes one level down. -/
theorem goTo_of_ne {loc : Location} {c : FileName} (h : c ≠ ['.', '.']) :
    goTo loc c = loc ++ [c] := if_neg h

/-- Names that do not go up are appended. -/
theorem foldl_goTo_of_proper {loc : Location} {cs : List FileName} (h : ['.', '.'] ∉ cs) :
    cs.foldl goTo loc = loc ++ cs := by
  induction cs generalizing loc with
  | nil => exact (List.append_nil loc).symm
  | cons c cs ih =>
    rw [List.mem_cons, not_or] at h
    rw [List.foldl_cons, goTo_of_ne (Ne.symm h.1), ih h.2, List.append_assoc]
    rfl

/-- More parts go on from where the path leads. -/
theorem resolve_append (cwd : Location) (p : PurePath) (cs : List FileName) :
    resolve cwd ⟨p.root, p.parts ++ cs⟩ = cs.foldl goTo (p.resolve cwd) :=
  List.foldl_append

end PurePath

/-- Directories and files.  No name is the one of the directory above, and nothing is both a
directory and a file; a file holds its text, or the message of the error that reading it raises. -/
structure Disk where
  dirs : List Location
  files : List (Location × Except (List Char) (List Char))
  proper : ∀ loc ∈ dirs ++ files.map Prod.fst, ['.', '.'] ∉ loc
  apart : ∀ f ∈ files, f.1 ∉ dirs

namespace Disk

/-- What names lead to from a place, if they go through directories only. -/
def locateFrom (d : Disk) (loc : Location) (cs : List FileName) : Option Location :=
  cs.foldlM (fun loc c => if loc ∈ d.dirs then some (PurePath.goTo loc c) else none) loc

/-- What the path leads to. -/
def locate (d : Disk) (cwd : Location) (p : PurePath) : Option Location :=
  d.locateFrom (p.start cwd) p.parts

/-- A path can be walked if each directory on the way exists. -/
theorem locateFrom_eq_some_iff {d : Disk} {loc loc' : Location} {cs : List FileName} :
    d.locateFrom loc cs = some loc' ↔
      (∀ l ∈ PurePath.walk loc cs, l ∈ d.dirs) ∧ cs.foldl PurePath.goTo loc = loc' := by
  induction cs generalizing loc with
  | nil => simp [locateFrom, PurePath.walk]
  | cons c cs ih =>
    have hstep : d.locateFrom loc (c :: cs) =
        if loc ∈ d.dirs then d.locateFrom (PurePath.goTo loc c) cs else none := by
      rw [locateFrom, List.foldlM_cons]
      split
      · rfl
      · rfl
    rw [hstep, PurePath.walk, List.forall_mem_cons, List.foldl_cons]
    split
    · next hdir => rw [ih, and_iff_right hdir]
    · next hdir => simp [hdir]

/-- A path leads somewhere if each directory on its way exists. -/
theorem locate_eq_some_iff {d : Disk} {cwd loc : Location} {p : PurePath} :
    d.locate cwd p = some loc ↔
      (∀ l ∈ PurePath.walk (p.start cwd) p.parts, l ∈ d.dirs) ∧ p.resolve cwd = loc :=
  locateFrom_eq_some_iff

/-- The file at a location. -/
def fileAt (d : Disk) (loc : Location) : Option (Except (List Char) (List Char)) :=
  (d.files.find? fun f => f.1 = loc).map Prod.snd

/-- `Path.is_file()`. -/
def isFile (d : Disk) (cwd : Location) (p : PurePath) : Bool :=
  ((d.locate cwd p).bind d.fileAt).isSome

/-- `Path.is_dir()`. -/
def isDir (d : Disk) (cwd : Location) (p : PurePath) : Bool :=
  (d.locate cwd p).any fun loc => loc ∈ d.dirs

/-- `Path.exists()`. -/
def exists_ (d : Disk) (cwd : Location) (p : PurePath) : Bool := d.isDir cwd p || d.isFile cwd p

/-- The names in a directory. -/
def names (d : Disk) (loc : Location) : List FileName :=
  (((d.dirs ++ d.files.map Prod.fst).filter fun l => l.dropLast = loc).filterMap
    List.getLast?).dedup

end Disk

/-! ## Wildcards -/

/-- The characters and ranges between the brackets of a class. -/
def classTest : List Char → Char → Bool
  | a :: '-' :: b :: rest, c => (a ≤ c ∧ c ≤ b) || classTest rest c
  | a :: rest, c => a = c || classTest rest c
  | [], _ => false

/-- A class, if the text behind a bracket closes it: its test and what stands behind it. -/
def charClass (cs : List Char) : Option ((Char → Bool) × List Char) :=
  let negated := cs.head? = some '!'
  let body := if negated then cs.drop 1 else cs
  -- a bracket in front is one of the characters
  let front := if body.head? = some ']' then [']'] else []
  let rest := body.drop front.length
  if ']' ∈ rest then
    let inside := front ++ rest.takeWhile (· ≠ ']')
    some (fun c => xor negated (classTest inside c), (rest.dropWhile (· ≠ ']')).drop 1)
  else none

/-- The pieces of a pattern, by as many steps as it has characters. -/
def patternPieces : ℕ → List Char → List (Piece Char)
  | 0, _ => []
  | _ + 1, [] => []
  | n + 1, '*' :: cs => .many (fun _ => true) :: patternPieces n cs
  | n + 1, '?' :: cs => .one (fun _ => true) :: patternPieces n cs
  | n + 1, '[' :: cs =>
      match charClass cs with
      | some (test, rest) => .one test :: patternPieces n rest
      | none => .one (· = '[') :: patternPieces n cs
  | n + 1, c :: cs => .one (· = c) :: patternPieces n cs

/-- `fnmatch.fnmatchcase`. -/
def fnmatch (name : FileName) (pattern : List Char) : Bool :=
  Piece.matchAll (patternPieces pattern.length pattern) name

/-! ## `Path.glob` -/

/-- A part of a glob pattern. -/
inductive GlobPart where
  | precise (name : FileName)
  | wildcard (pattern : List Char)
  | recursive

/-- A part as it is written; `none` where two stars are not the whole part and it raises. -/
def GlobPart.ofText (cs : List Char) : Option GlobPart :=
  if cs = ['*', '*'] then some .recursive
  else if ['*', '*'] <:+: cs then none
  else if cs.any (· ∈ ['*', '?', '[']) then some (.wildcard cs)
  else some (.precise cs)

/-- The paths that the parts select, from a path of a directory. -/
def Disk.select (d : Disk) (cwd : Location) : List GlobPart → PurePath → List PurePath
  | [], p => [p]
  | .precise name :: rest, p =>
      let q : PurePath := ⟨p.root, p.parts ++ [name]⟩
      if if rest.isEmpty then d.exists_ cwd q else d.isDir cwd q then d.select cwd rest q else []
  | .wildcard pattern :: rest, p =>
      match d.locate cwd p with
      | none => []
      | some loc =>
        ((d.names loc).filter fun name =>
          fnmatch name pattern ∧ (rest.isEmpty ∨ loc ++ [name] ∈ d.dirs)).flatMap
            fun name => d.select cwd rest ⟨p.root, p.parts ++ [name]⟩
  | .recursive :: rest, p =>
      match d.locate cwd p with
      | none => []
      | some loc =>
        ((d.dirs.filter fun dir => loc <+: dir).flatMap
          fun dir => d.select cwd rest ⟨p.root, p.parts ++ dir.drop loc.length⟩).dedup

section Select

variable {d : Disk} {cwd : Location} {rest : List GlobPart} {p q : PurePath}

/-- No parts select the path itself. -/
theorem Disk.select_nil : d.select cwd [] p = [p] := rfl

/-- A precise part goes on with its name. -/
theorem Disk.mem_select_precise {name : FileName}
    (h : q ∈ d.select cwd (.precise name :: rest) p) :
    q ∈ d.select cwd rest ⟨p.root, p.parts ++ [name]⟩ := by
  unfold select at h
  by_cases hthere : (if rest.isEmpty then d.exists_ cwd ⟨p.root, p.parts ++ [name]⟩
      else d.isDir cwd ⟨p.root, p.parts ++ [name]⟩) = true
  · rwa [if_pos hthere] at h
  · rw [if_neg hthere] at h
    exact absurd h List.not_mem_nil

/-- A wildcard goes on with a name of the directory. -/
theorem Disk.mem_select_wildcard {pattern : List Char}
    (h : q ∈ d.select cwd (.wildcard pattern :: rest) p) :
    ∃ loc name, d.locate cwd p = some loc ∧ name ∈ d.names loc ∧
      q ∈ d.select cwd rest ⟨p.root, p.parts ++ [name]⟩ := by
  unfold select at h
  cases hloc : d.locate cwd p with
  | none =>
    rw [hloc] at h
    exact absurd h List.not_mem_nil
  | some loc =>
    simp only [hloc, List.mem_flatMap, List.mem_filter] at h
    obtain ⟨name, ⟨hname, -⟩, hq⟩ := h
    exact ⟨loc, name, rfl, hname, hq⟩

/-- `**` goes on with any directory below. -/
theorem Disk.mem_select_recursive (h : q ∈ d.select cwd (.recursive :: rest) p) :
    ∃ loc names, d.locate cwd p = some loc ∧ loc ++ names ∈ d.dirs ∧
      q ∈ d.select cwd rest ⟨p.root, p.parts ++ names⟩ := by
  unfold select at h
  cases hloc : d.locate cwd p with
  | none =>
    rw [hloc] at h
    exact absurd h List.not_mem_nil
  | some loc =>
    simp only [hloc, List.mem_dedup, List.mem_flatMap, List.mem_filter, decide_eq_true_eq] at h
    obtain ⟨_, ⟨hdir, names, rfl⟩, hq⟩ := h
    rw [List.drop_left] at hq
    exact ⟨loc, names, rfl, hdir, hq⟩

end Select

/-- `path.glob(pattern)`, or the message of the error it raises. -/
def Disk.glob (d : Disk) (cwd : Location) (p : PurePath) (pattern : List Char) :
    Except (List Char) (List PurePath) :=
  if (PurePath.ofText pattern).root ≠ [] then
    .error "Non-relative patterns are unsupported".toList
  else
    match (PurePath.ofText pattern).parts.mapM GlobPart.ofText with
    | none => .error "Invalid pattern: '**' can only be an entire path component".toList
    | some parts => .ok (if d.isDir cwd p then d.select cwd parts p else [])

/-- `sorted(paths)`: by the parts of the paths. -/
def sortedPaths (paths : List PurePath) : List PurePath := sortedBy (fun p => p.parts) paths

end TradingEdge.Model
