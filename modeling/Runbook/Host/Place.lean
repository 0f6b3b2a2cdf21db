/-
  Places on a disk, and the paths that lead to them.

  A `Place` is counted from a fixed root, which it may lie above or below, or from
  the top of the disk.  `Place.atPath` is the place that a path leads to, taken by
  its words alone.
-/

namespace Runbook

/-- Where a place is counted from: so many levels above the root, or from the top of the disk. -/
inductive Base where
  | above (levels : Nat)
  | top
  deriving DecidableEq, Repr

/-- A place: where it is counted from, then down along names. -/
structure Place where
  base : Base
  names : List String
  deriving DecidableEq, Repr

/-! ## Paths -/

namespace Path

/-- Whether a path begins at the top of the disk. -/
def isAbsolute (path : String) : Bool := path.toList.head? = some '/'

/-- The parts of a path that count: not the empty ones and not `.`. -/
def parts (path : String) : List String :=
  ((path.toList.splitOn '/').map String.ofList).filter fun part => part ≠ "" && part ≠ "."

/-- The paths of what a path passes, one part after another, and at last of what it leads to. -/
def stages (path : String) : List String :=
  let start := if isAbsolute path then "/" else ""
  let names := parts path
  (List.range names.length).map fun n => start ++ "/".intercalate (names.take (n + 1))

end Path

namespace Place

/-- The root itself. -/
def root : Place := ⟨.above 0, []⟩

/-- The top of the disk. -/
def top : Place := ⟨.top, []⟩

instance : Inhabited Place := ⟨root⟩

/-- The place that holds a place; the top holds itself. -/
def parent (p : Place) : Place :=
  match p.base, p.names with
  | .top, [] => p
  | .above n, [] => ⟨.above (n + 1), []⟩
  | base, names => ⟨base, names.dropLast⟩

/-- The place of a name in a place. -/
def child (p : Place) (name : String) : Place := ⟨p.base, p.names ++ [name]⟩

theorem parent_child (p : Place) (name : String) : (p.child name).parent = p := by
  obtain ⟨base, names⟩ := p
  have last : (names ++ [name]).dropLast = names := by simp
  cases base <;> cases names <;> simp_all [parent, child]

/-- Where a path from a place starts. -/
def start (p : Place) (path : String) : Place := if Path.isAbsolute path then top else p

/-- Goes along a part of a path. -/
def along (p : Place) (part : String) : Place := if part = ".." then p.parent else p.child part

/-- The place that a path leads to from a place. -/
def atPath (p : Place) (path : String) : Place := (Path.parts path).foldl along (p.start path)

/-- A place's path, from the root unless it is counted from the top. -/
def path (p : Place) : String :=
  match p.base with
  | .top => "/" ++ "/".intercalate p.names
  | .above n => if p = root then "." else "/".intercalate (List.replicate n ".." ++ p.names)

end Place

end Runbook
