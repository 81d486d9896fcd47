import SourceBaseline.Disk

/-!
# Changing a disk

Every change either fails and leaves the disk as it was or returns the changed disk. Only
`ensureDirectory` and `removeAll`, which take several steps, return a disk also when they fail.
-/

set_option autoImplicit false

namespace SourceBaseline.Disk

/-- The directory and the name in it that the last of some names stands for, followed from a
directory through at most that many links, and how many links may still be followed from there.
`special` is the fault if the last name is `.` or `..`. -/
def slotFrom (disk : Disk) (special : Fault) (links : Nat) (start : Cursor)
    (names : List String) : Except Fault ((Location × String) × Nat) := do
  match names.getLast? with
  | none => .error special
  | some name =>
      let (parent, left) ← disk.walkTo true links start names.dropLast
      if !disk.isDirectoryAt parent then .error .notDirectory
      else if name = "." ∨ name = ".." then .error special
      else .ok ((parent, name), left)

def slot (disk : Disk) (special : Fault) (route : Route) : Except Fault (Location × String) := do
  checkPath route.path
  pure (← disk.slotFrom special linkLimit disk.start route.names).1

/-- Put an entry into a directory unless a directory stands in its place. -/
def place (disk : Disk) (parent : Location) (name : String) (entry : Entry) : Except Fault Disk :=
  if nameLimit < name.utf8ByteSize then .error .nameTooLong
  else if disk.isDirectoryAt parent then
    if disk.isDirectoryAt (parent ++ [name]) then .error .isDirectory
    else .ok (disk.put parent name entry)
  else .error .notDirectory

def create (disk : Disk) (slot : Location × String) (entry : Entry) : Except Fault Disk :=
  match disk.find? (slot.1 ++ [slot.2]) with
  | some _ => .error .exists
  | none => disk.place slot.1 slot.2 entry

def createFile (disk : Disk) (route : Route) (content : ByteArray) : Except Fault Disk := do
  disk.create (← disk.slot .exists route) (.file content 0)

/-- Create a directory where nothing stands yet; a separator at the end changes nothing. -/
def createDirectory (disk : Disk) (route : Route) : Except Fault Disk := do
  disk.create (← disk.slot .exists { route with names := route.bareNames }) .directory

/-- Create a link where nothing stands yet. No link can be created where a separator at the end asks
for a directory. -/
def createLink (disk : Disk) (route : Route) (target : Path) : Except Fault Disk := do
  checkNul target
  checkNul route.path
  checkSize target
  let slot ← disk.slot .exists { route with names := route.bareNames }
  let created ← disk.create slot (.link target)
  if route.path.endsInSeparator then .error .notFound else .ok created

/-- Write a file from a directory on, with at most `links` links before the last name. `onLink` is
told how many links are left, and where a link in last place starts and leads. No file can be
written where a separator at the end asks for a directory. -/
def writeAt (disk : Disk) (content : ByteArray)
    (onLink : Nat → Cursor → Route → Except Fault Disk) (links : Nat) (start : Cursor)
    (route : Route) : Except Fault Disk := do
  let ((parent, name), left) ← disk.slotFrom .isDirectory links start route.bareNames
  if route.path.endsInSeparator then .error .isDirectory
  else
    match disk.find? (parent ++ [name]), left with
    | some (.link target), left + 1 =>
        let from? := if target.isAbsolute then some disk.start else disk.start.follow? parent
        onLink left (from?.getD disk.start) target.route
    | some (.link _), 0 => .error .tooManyLinks
    | _, _ => disk.place parent name (.file content 0)

/-- Write a file from a directory on, through at most `links` links, of which at most `hops` stand
in last place. -/
def writeFrom (disk : Disk) (content : ByteArray) :
    (hops links : Nat) → Cursor → Route → Except Fault Disk
  | 0 => disk.writeAt content fun _ _ _ => .error .tooManyLinks
  | hops + 1 => disk.writeAt content (writeFrom disk content hops)

def write (disk : Disk) (route : Route) (content : ByteArray) : Except Fault Disk := do
  checkPath route.path
  disk.writeFrom content linkLimit linkLimit disk.start route

def unlink (disk : Disk) (location : Location) : Except Fault Disk :=
  match disk.find? location with
  | none => .error .notFound
  | some .directory => .error .isDirectory
  | some _ => .ok (disk.remove location)

def removeFile (disk : Disk) (route : Route) : Except Fault Disk := do
  let (parent, name) ← disk.slot .isDirectory route
  disk.unlink (parent ++ [name])

/-- Move a file or link, in place of what stood at its new place. A separator at the end of the new
path asks for a directory, which no file can become. -/
def rename (disk : Disk) (route newRoute : Route) : Except Fault Disk := do
  let (parent, name) ← disk.slot .busy route
  let (newParent, newName) ← disk.slot .busy { newRoute with names := newRoute.bareNames }
  match disk.find? (parent ++ [name]) with
  | none => .error .notFound
  | some .directory => .error .isDirectory
  | some entry =>
      if nameLimit < newName.utf8ByteSize then .error .nameTooLong
      else if newRoute.path.endsInSeparator then .error .notDirectory
      else if parent ++ [name] = newParent ++ [newName] then .ok disk
      else
        let placed ← disk.place newParent newName entry
        placed.unlink (parent ++ [name])

def setAge (disk : Disk) (route : Route) (age : Nat) : Except Fault Disk := do
  let location ← disk.locate route
  match location.getLast?, disk.find? location with
  | some name, some (.file content _) => disk.place location.dropLast name (.file content age)
  | _, _ => .error .isDirectory

def clear (disk : Disk) (location : Location) : Disk :=
  match location.getLast? with
  | none => blank
  | some name => disk.put location.dropLast name .directory

/-- Whether an empty directory can be removed by a route: only by its own name in the directory
above it, and not through a link. -/
def checkRemovable (disk : Disk) (route : Route) : Except Fault Unit := do
  let special :=
    match route.bareNames.getLast? with
    | none => .busy
    | some name => if name = "." then .invalid else .notEmpty
  let (parent, name) ← disk.slot special { route with names := route.bareNames }
  match disk.find? (parent ++ [name]) with
  | none => .error .notFound
  | some (.link _) => .error .notDirectory
  | some _ => .ok ()

/-- Remove what a route leads to and all below it. A directory is emptied first and stays if it
cannot itself be removed in this way; that the route then leads nowhere is no failure. -/
def removeAll (disk : Disk) (route : Route) : Except Fault Unit × Disk :=
  match disk.locateLink route with
  | .error fault => (.error fault, disk)
  | .ok location =>
      match disk.find? location with
      | none => (.error .notFound, disk)
      | some .directory =>
          let emptied := disk.clear location
          match emptied.checkRemovable route with
          | .ok () => (.ok (), emptied.remove location)
          | .error .notFound => (.ok (), emptied)
          | .error fault => (.error fault, emptied)
      | some _ => (.ok (), disk.remove location)

/-- Create the first of some routes as a directory, where the others lead to the directories above
it, the nearest first. -/
def ensureDirectory (disk : Disk) : List Route → Except Fault Unit × Disk
  | [] => (.error .noTree, disk)
  | route :: parents =>
      if route.path.text = "" then (.ok (), disk)
      else
        let accept := fun (changed : Disk) (fault : Fault) =>
          (if changed.isDirectory route then Except.ok () else Except.error fault, changed)
        match disk.createDirectory route with
        | .ok created => (.ok (), created)
        | .error .notFound =>
            match ensureDirectory disk parents with
            | (.error fault, changed) => (.error fault, changed)
            | (.ok (), changed) =>
                match changed.createDirectory route with
                | .ok created => (.ok (), created)
                | .error fault => accept changed fault
        | .error fault => accept disk fault

end SourceBaseline.Disk
