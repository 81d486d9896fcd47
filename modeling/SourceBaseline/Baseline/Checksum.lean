import SourceBaseline.Exclude
import SourceBaseline.Json.Decode
import SourceBaseline.Json.Parser
import SourceBaseline.Json.Printer

/-!
# Checksum baselines

A checksum baseline records the hash of every tracked file and what is known about the project. Its
document is read strictly: a member that is missing without a default, has the wrong type or stands
twice makes the whole document unusable.
-/

set_option autoImplicit false

namespace SourceBaseline

def schemaVersion : String := "1.0"

/-- The time at which a document was first written: the one on record, else the document's own,
else now. -/
def firstWritten (prior : Option String) (own now : String) : String :=
  match prior with
  | some time => time
  | none => if own = "" then now else own

def documentText (json : Json) : String :=
  json.pretty ++ "\n"

/-- The branch and commit that a snapshot was taken from. -/
structure GitMetadata where
  branch : Option String
  commit : Option String
  deriving DecidableEq, Inhabited

namespace GitMetadata

def decode? (json : Json) : Option GitMetadata :=
  match json.fields? ["branch", "commit"] 2 with
  | some [branch, commit] => do
      pure ⟨← Json.optional Json.text? branch, ← Json.optional Json.text? commit⟩
  | _ => none

def toJson (metadata : GitMetadata) : Json :=
  .ofMembers [("branch", .ofString? metadata.branch), ("commit", .ofString? metadata.commit)]

end GitMetadata

/-- The hash of every tracked file, with what is known about the project. A file that cannot be
read has the empty hash. -/
structure ChecksumBaseline where
  createdAt : String
  description : String
  detectedLanguage : String
  docsExist : Bool
  docsPath : Option String
  fileCount : Nat
  files : SortedMap String String
  repoName : String
  schemaVersion : String
  timestamp : String
  gitMetadata : Option GitMetadata
  deriving DecidableEq

namespace ChecksumBaseline

def memberNames : List String :=
  ["createdAt", "description", "detectedLanguage", "docsExist", "docsPath", "fileCount", "files",
    "repoName", "schemaVersion", "timestamp", "vcsMetadata"]

/-- The numbers below this one can stand for a count. -/
def countBound : Nat := UInt64.size

def decode? (json : Json) : Option ChecksumBaseline :=
  match json.fields? memberNames 9 with
  | some [createdAt, description, detectedLanguage, docsExist, docsPath, fileCount, files,
      repoName, version, timestamp, gitMetadata] => do
      pure {
        createdAt := ← Json.withDefault "" Json.text? createdAt
        description := ← Json.withDefault "" Json.text? description
        detectedLanguage := ← Json.withDefault "" Json.text? detectedLanguage
        docsExist := ← Json.withDefault false Json.boolean? docsExist
        docsPath := ← Json.optional Json.text? docsPath
        fileCount := ← Json.required (Json.natBelow? countBound) fileCount
        files := ← Json.required (Json.map? Json.text?) files
        repoName := ← Json.withDefault "" Json.text? repoName
        schemaVersion := ← Json.required Json.text? version
        timestamp := ← Json.withDefault "" Json.text? timestamp
        gitMetadata := ← Json.optional GitMetadata.decode? gitMetadata }
  | _ => none

def toJson (baseline : ChecksumBaseline) : Json :=
  .ofMembers [
    ("createdAt", .ofString baseline.createdAt),
    ("description", .ofString baseline.description),
    ("detectedLanguage", .ofString baseline.detectedLanguage),
    ("docsExist", .boolean baseline.docsExist),
    ("docsPath", .ofString? baseline.docsPath),
    ("fileCount", .ofNat baseline.fileCount),
    ("files", .ofMembers (baseline.files.entries.map fun (file, hash) => (file, .ofString hash))),
    ("repoName", .ofString baseline.repoName),
    ("schemaVersion", .ofString baseline.schemaVersion),
    ("timestamp", .ofString baseline.timestamp),
    ("vcsMetadata", (baseline.gitMetadata.map GitMetadata.toJson).getD .null)]

/-- Read a document; an unusable one counts as absent. -/
def ofText? (text : String) : Option ChecksumBaseline :=
  (Json.parse? text).bind decode?

def stamp (baseline : ChecksumBaseline) (prior : Option String) (now : String) :
    ChecksumBaseline :=
  { baseline with createdAt := firstWritten prior baseline.createdAt now, timestamp := now }

def recount (baseline : ChecksumBaseline) : ChecksumBaseline :=
  { baseline with fileCount := baseline.files.size }

def retainTracked (baseline : ChecksumBaseline) (exclude : Exclude) : ChecksumBaseline :=
  recount { baseline with files := baseline.files.filter fun file _ => !exclude.isExcluded file }

end ChecksumBaseline

end SourceBaseline
