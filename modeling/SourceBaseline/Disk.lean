import SourceBaseline.Disk.Tree
import SourceBaseline.Fault
import SourceBaseline.Text.Utf8

/-!
# Disks

A disk holds files, directories and links in a tree; the top of the file system is always a
directory. `find?_put` and `find?_remove` say what each change does to every location. A path is
followed part by part: links are expanded where they are met, `..` leads to the directory above
the place reached so far, and whatever is not last must be a directory.
-/

set_option autoImplicit false

namespace SourceBaseline

structure Disk where
  tree : Tree
  ordered : tree.Ordered

namespace Disk

def blank : Disk := ⟨[], .nil⟩

instance : Inhabited Disk := ⟨blank⟩

def find? (disk : Disk) (location : Location) : Option Entry :=
  disk.tree.standing? location

def isDirectoryAt (disk : Disk) (location : Location) : Bool :=
  disk.find? location = some .directory

def put (disk : Disk) (parent : Location) (name : String) (entry : Entry) : Disk where
  tree := disk.tree.set name (some (.ofEntry entry)) parent
  ordered := disk.ordered.set fun inner same => by
    cases entry <;> cases same
    exact .nil

def remove (disk : Disk) (location : Location) : Disk :=
  match location.getLast? with
  | none => blank
  | some name => ⟨disk.tree.set name none location.dropLast, disk.ordered.set nofun⟩

theorem find?_below_leaf {disk : Disk} {top rest : Location}
    (leaf : disk.find? top ≠ some .directory) (deeper : rest ≠ []) :
    disk.find? (top ++ rest) = none :=
  Tree.standing?_below_leaf leaf deeper

/-- An entry that is put where no directory stands changes its own location alone. -/
theorem find?_put {disk : Disk} {parent : Location} {name : String} {entry : Entry}
    (ready : disk.find? parent = some .directory)
    (free : disk.find? (parent ++ [name]) ≠ some .directory) (location : Location) :
    (disk.put parent name entry).find? location =
      if location = parent ++ [name] then some entry else disk.find? location := by
  rw [find?, put, Tree.standing?_set ready]
  split
  next rest within =>
    rw [Location.below?_eq_some_iff] at within
    subst within
    by_cases last : rest = []
    · subst last
      cases entry <;> simp [Tree.below?, Node.ofEntry, Node.entry, Tree.standing?_nil]
    · rw [if_neg (by simpa using last), find?_below_leaf free last]
      cases entry with
      | file content age => simp [Tree.below?, Node.ofEntry, last]
      | link target => simp [Tree.below?, Node.ofEntry, last]
      | directory =>
          obtain ⟨first, more, rfl⟩ := List.exists_cons_of_ne_nil last
          rfl
  next outside =>
    rw [if_neg]
    · rfl
    · rintro rfl
      have within := Location.below?_append (parent ++ [name]) []
      rw [List.append_nil, outside] at within
      cases within

theorem find?_remove {disk : Disk} {location : Location} (place : Location) (inner : place ≠ []) :
    (disk.remove location).find? place =
      if place.isWithin location then none else disk.find? place := by
  rw [remove]
  split
  next top =>
    rw [List.getLast?_eq_none_iff] at top
    subst top
    obtain ⟨first, more, rfl⟩ := List.exists_cons_of_ne_nil inner
    rfl
  next name last =>
    obtain ⟨parent, rfl⟩ := List.getLast?_eq_some_iff.1 last
    simp only [List.dropLast_concat, find?]
    by_cases ready : disk.find? parent = some .directory
    · rw [Tree.standing?_set ready]
      split
      next rest within =>
        rw [Location.below?_eq_some_iff] at within
        subst within
        simp [Location.isWithin, Tree.below?]
      next outside =>
        rw [Location.below?_eq_none_iff] at outside
        simp [outside]
    · rw [Tree.standing?_set_of_missing ready]
      split
      next within =>
        obtain ⟨rest, rfl⟩ := List.isPrefixOf_iff_prefix.1 within
        rw [List.append_assoc]
        exact Tree.standing?_below_leaf ready (by simp)
      next => rfl

def start (disk : Disk) : Cursor := ⟨disk.tree, []⟩

/-- The most links that are followed on the way to one place. -/
def linkLimit : Nat := 40

def nameLimit : Nat := 255

def pathLimit : Nat := 4095

/-- Follow names from a directory. `onEnd` makes the answer for the place that is reached. `onLink`
is told where a link starts and which names are left after its target has been put in front of
them; a link in last place is followed only on demand. -/
def proceed {α : Type} (disk : Disk) (followLast : Bool) (onEnd : Location → α)
    (onLink : Cursor → List String → Except Fault α) :
    Cursor → List String → Except Fault α
  | here, [] => .ok (onEnd here.location)
  | here, name :: rest =>
      if name = "." then proceed disk followLast onEnd onLink here rest
      else if name = ".." then proceed disk followLast onEnd onLink here.up rest
      else if nameLimit < name.utf8ByteSize then .error .nameTooLong
      else
        match here.tree.child? name with
        | none => .error .notFound
        | some (.directory inner) =>
            proceed disk followLast onEnd onLink (here.down name inner) rest
        | some (.file _ _) =>
            if rest = [] then .ok (onEnd (here.location ++ [name])) else .error .notDirectory
        | some (.link target) =>
            if rest = [] ∧ !followLast then .ok (onEnd (here.location ++ [name]))
            else onLink (if target.isAbsolute then disk.start else here) (target.walkNames ++ rest)

/-- Follow names from a directory through at most that many links: the place that is reached, and
how many links may still be followed from there. -/
def walkTo (disk : Disk) (followLast : Bool) :
    Nat → Cursor → List String → Except Fault (Location × Nat)
  | 0 => disk.proceed followLast (·, 0) fun _ _ => .error .tooManyLinks
  | links + 1 => disk.proceed followLast (·, links + 1) (walkTo disk followLast links)

def checkNul (path : Path) : Except Fault Unit :=
  if path.text.toList.contains (Char.ofNat 0) then .error .nulByte else .ok ()

def checkSize (path : Path) : Except Fault Unit :=
  if path.text = "" then .error .notFound
  else if pathLimit < path.text.utf8ByteSize then .error .nameTooLong
  else .ok ()

def checkPath (path : Path) : Except Fault Unit := do
  checkNul path
  checkSize path

/-- The place that a route leads to, with every link followed. -/
def locate (disk : Disk) (route : Route) : Except Fault Location := do
  checkPath route.path
  pure (← disk.walkTo true linkLimit disk.start route.names).1

/-- The place that a route leads to; a link in last place is not followed. -/
def locateLink (disk : Disk) (route : Route) : Except Fault Location := do
  checkPath route.path
  pure (← disk.walkTo false linkLimit disk.start route.names).1

/-- The place that a path leads to, for use as a path of its own: it may be reached by a path that
is too long for other operations, but must not be too long itself. -/
def canonical (disk : Disk) (path : Path) : Except Fault Location := do
  checkNul path
  if path.text = "" then .error .notFound
  else
    let (location, _) ← disk.walkTo true linkLimit disk.start path.walkNames
    checkSize (Location.path location)
    pure location

/-- What stands where a route leads, with every link followed. -/
def inspect (disk : Disk) (route : Route) : Except Fault Entry := do
  match disk.find? (← disk.locate route) with
  | some entry => .ok entry
  | none => .error .notFound

/-- What stands where a route leads; a link in last place is not followed. -/
def inspectLink (disk : Disk) (route : Route) : Except Fault Entry := do
  match disk.find? (← disk.locateLink route) with
  | some entry => .ok entry
  | none => .error .notFound

def isPresent (disk : Disk) (route : Route) : Bool :=
  match disk.inspect route with
  | .ok _ => true
  | .error _ => false

def isDirectory (disk : Disk) (route : Route) : Bool :=
  match disk.inspect route with
  | .ok .directory => true
  | _ => false

def isFile (disk : Disk) (route : Route) : Bool :=
  match disk.inspect route with
  | .ok (.file _ _) => true
  | _ => false

def read (disk : Disk) (route : Route) : Except Fault ByteArray := do
  match ← disk.inspect route with
  | .file content _ => .ok content
  | _ => .error .isDirectory

def readText (disk : Disk) (route : Route) : Except Fault String := do
  match String.fromUTF8? (← disk.read route) with
  | some text => .ok text
  | none => .error .notText

/-- The entries below a location with the names that lead to them from there, in name order. -/
def below (disk : Disk) (top : Location) : List (List String × Entry) :=
  match disk.tree.find? top with
  | some node => node.listing
  | none => []

def size (disk : Disk) : Nat :=
  (disk.below []).length

end Disk

end SourceBaseline
