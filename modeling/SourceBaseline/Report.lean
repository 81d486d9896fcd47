import SourceBaseline.Error
import SourceBaseline.Text.Lines
import SourceBaseline.Text.Redaction

/-!
# Reports

A report is a Markdown block that says what happened and, where something can be done about it,
what. Free text in it is redacted.
-/

set_option autoImplicit false

namespace SourceBaseline

def textOfLines (lines : List String) : String :=
  String.join (lines.map (· ++ "\n"))

namespace Error

/-- A heading, what happened, and what to do. -/
def block (title : String) (body : List String) (fix : List String) : String :=
  textOfLines (["# " ++ title, ""] ++ body ++ (if fix = [] then [] else ["", "## Fix", ""] ++ fix))

def report : Error → String
  | .baselineExists file =>
      block "Error: Baseline Exists" ["`" ++ file ++ "` is already initialized."]
        ["Refresh it in place:", "", "    driftline update", "", "Or start over:", "",
          "    driftline init --reset"]
  | .baselineNotFound file =>
      block "Error: Baseline Not Found" ["`" ++ file ++ "` does not exist."]
        ["Create the baselines first:", "", "    driftline init"]
  | .outsideRoot path =>
      block "Error: Outside Project Root"
        ["`" ++ path ++ "` resolves outside the project root and was refused."] []
  | .locked file waited =>
      block "Error: Baseline Locked"
        ["`" ++ file ++ "` was still held after " ++ seconds waited ++ "."]
        ["Wait for the other driftline run to finish. If none is running, delete the",
          "lock file left behind by a crashed process."]
  | .fileTooLarge file limit size =>
      block "Error" [Text.sanitize (message (.fileTooLarge file limit size))] []
  | .disk fault => block "Error: I/O" [Text.sanitize fault.message] []
  | .unparsed file reason =>
      block "Error: Parse Failed" ["Could not parse `" ++ file ++ "`: " ++ Text.sanitize reason] []
  | .tooManyLinks limit path =>
      block "Error: Symlink Chain Too Deep"
        ["Resolving `" ++ path ++ "` took more than " ++ toString limit ++ " symlink hops."]
        ["Break the cycle, or raise `max_symlink_depth` in `.driftline.toml`."]
  | .tooManyEntries guidance limit resource =>
      block "Error: Limit Exceeded"
        ["More than " ++ toString limit ++ " " ++ resource ++
          " would be tracked; nothing was written."]
        [guidance]
  | .invalidRevision revision =>
      block "Error: Invalid Revision"
        ["`" ++ revision ++ "` is not a usable revision. Use a commit, tag, or branch name."] []
  | .malformedDocument file reason =>
      block "Error: Baseline Unreadable" ["`" ++ file ++ "`: " ++ Text.sanitize reason]
        ["Regenerate the baselines:", "", "    driftline init --reset"]
  | .timedOut deadline guidance operation =>
      block "Error: Timeout"
        ["`" ++ operation ++ "` did not finish within " ++ seconds deadline ++ "."] [guidance]
  | .invalidSettings reason =>
      block "Error: Invalid Settings" ["`.driftline.toml` is malformed:", "", reason] []
  | .git reason => block "Error: Git" [Text.sanitize reason] []

end Error

/-- A line of a report for a terminal: headings are set in bold. -/
def terminalLine (line : List Char) : String :=
  let text : String := .ofList line
  let bold : String := .ofList [Char.ofNat 27] ++ "[1m"
  let reset : String := .ofList [Char.ofNat 27] ++ "[0m"
  if line.head? = some '#' then bold ++ text ++ reset else text

def terminalReport (error : Error) : String :=
  textOfLines ((Text.lines error.report.toList).map terminalLine)

end SourceBaseline
