import SourceBaseline.Host
import SourceBaseline.Json.Parser
import SourceBaseline.Registry
import SourceBaseline.SyntaxTree.Listing

/-!
# Described hosts

A host can be described by a document: the entries of its disk by path, the answers of git, the
time, the mark of the holder of its locks, and the syntax trees of the texts on it. After a command
the entries can be written back into the description.
-/

set_option autoImplicit false

namespace SourceBaseline

namespace Entry

def hexText (bytes : ByteArray) : String :=
  .ofList (bytes.toList.flatMap fun byte => [Nat.digitChar (byte.toNat / 16),
    Nat.digitChar (byte.toNat % 16)])

def hexBytes? : List Char → Option (List UInt8)
  | [] => some []
  | [_] => none
  | high :: low :: rest => do
      let value := (← Json.hexValue? high) * 16 + (← Json.hexValue? low)
      pure (value.toUInt8 :: (← hexBytes? rest))

/-- Read an entry: a file by its text or its bytes, a link by its target, or a directory. -/
def decode? (json : Json) : Option Entry :=
  let age := ((json.member? "age").bind (Json.natBelow? UInt64.size)).getD 0
  let textOf := fun name => (json.member? name).bind Json.text?
  match textOf "text", textOf "hex", textOf "link" with
  | some text, _, _ => some (.file text.toUTF8 age)
  | none, some hex, _ => (hexBytes? hex.toList).map fun bytes => .file ⟨bytes.toArray⟩ age
  | none, none, some target => some (.link ⟨target⟩)
  | none, none, none => some .directory

def toJson : Entry → Json
  | file content age =>
      let body := match String.fromUTF8? content with
        | some text => ("text", Json.ofString text)
        | none => ("hex", Json.ofString (hexText content))
      .ofMembers [body, ("age", .ofNat age)]
  | directory => .ofMembers []
  | link target => .ofMembers [("link", .ofString target.text)]

end Entry

namespace Disk

def addEntry (disk : Disk) (path : Path) (entry : Entry) : Except Fault Disk := do
  let parents := ((path.parent?.map Path.ancestors).getD []).map Path.route
  let (result, ready) := disk.ensureDirectory parents
  result
  match entry with
  | .file content age => (← ready.createFile path.route content).setAge path.route age
  | .directory =>
      if ready.isDirectory path.route then pure ready else ready.createDirectory path.route
  | .link target => ready.createLink path.route target

/-- Read a disk: an object of entries by path. -/
def decode? (json : Json) : Option Disk := do
  let members ← json.members?
  members.foldlM
    (fun disk (path, entry) => do (disk.addEntry ⟨path⟩ (← Entry.decode? entry)).toOption) .blank

def toJson (disk : Disk) : Json :=
  .ofMembers ((disk.below []).map fun (location, entry) =>
    ((Location.path location).text, entry.toJson))

end Disk

def GitAnswer.decode? (json : Json) : Option GitAnswer := do
  let textOf := fun name => ((json.member? name).bind Json.text?).getD ""
  let countOf := fun name => ((json.member? name).bind (Json.natBelow? UInt32.size)).getD 0
  let _ ← json.members?
  pure ⟨textOf "stdout", textOf "stderr", countOf "code", countOf "sleep"⟩

/-- Read the answers of git. Questions without an answer are answered as outside a repository. -/
def Git.decode (json : Json) : Git where
  installed := (json.member? "missing").bind Json.boolean? ≠ some true
  answer question :=
    let name := match question with
      | .commit => "commit"
      | .branch => "branch"
      | .changesSince _ => "diff"
    ((json.member? name).bind GitAnswer.decode?).getD Git.noRepository

structure KnownTree where
  language : Language
  text : List Char
  root : SyntaxNode

namespace KnownTree

def grammarName : Language → String
  | .shell => "bash"
  | .tsx => "tsx"
  | language => language.name

def languages : List Language :=
  [.go, .markdown, .python, .rust, .shell, .tsx, .typescript]

def decode? (json : Json) : Option KnownTree := do
  let grammar ← (← json.member? "grammar").text?
  let text ← (← json.member? "source").text?
  let nodes ← (← json.member? "tree").items?
  pure {
    language := ← languages.find? (grammarName · = grammar)
    text := text.toList
    root := ← SyntaxNode.ofListing? (← nodes.mapM ListedNode.decode?) }

/-- The grammar that knows the trees of some texts; all other texts have an empty tree. -/
def grammar (trees : List KnownTree) : Grammar := fun language text =>
  match trees.find? fun tree => tree.language = language && tree.text = text with
  | some tree => tree.root
  | none => default

def decodeAll (json : Json) : List KnownTree :=
  (((json.member? "trees").bind Json.items?).getD []).filterMap decode?

end KnownTree

/-- A described host: the host, the trees of its texts, and the description itself. -/
structure HostDescription where
  host : Host
  grammar : Grammar
  members : List (String × Json)

namespace HostDescription

def ofText? (text : String) : Option HostDescription := do
  let json ← Json.parseSound? text
  let settled := json.settle
  let members ← settled.members?
  let disk ← Disk.decode? ((settled.member? "disk").getD (.ofMembers []))
  let now := ((settled.member? "now").bind Json.text?).getD ""
  let git := Git.decode ((settled.member? "git").getD .null)
  let holder := ((settled.member? "holder").bind fun json =>
    json.text?.bind Holder.ofText?).getD standardHolder
  pure ⟨⟨disk, git, now, holder, 0⟩, KnownTree.grammar (KnownTree.decodeAll settled), members⟩

/-- The text of the description, with the disk as it is now. -/
def text (description : HostDescription) (host : Host) : String :=
  let others := description.members.filter (·.1 ≠ "disk")
  (Json.ofMembers (others ++ [("disk", host.disk.toJson)])).pretty ++ "\n"

end HostDescription

end SourceBaseline
