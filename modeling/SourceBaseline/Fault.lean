/-!
# Faults

A fault is the cause for which a disk operation fails.
-/

set_option autoImplicit false

namespace SourceBaseline

/-- Why a disk operation failed. `notText` is a file that is not UTF-8, `nulByte` a path with a
NUL character in it. -/
inductive Fault where
  | notFound
  | exists
  | notDirectory
  | isDirectory
  | busy
  | invalid
  | notEmpty
  | nameTooLong
  | tooManyLinks
  | noTree
  | nulByte
  | notText
  | other (text : String)
  deriving DecidableEq, Inhabited

namespace Fault

/-- The fault with its number, as the operating system words it. -/
def message : Fault → String
  | .notFound => "No such file or directory (os error 2)"
  | .exists => "File exists (os error 17)"
  | .notDirectory => "Not a directory (os error 20)"
  | .isDirectory => "Is a directory (os error 21)"
  | .busy => "Device or resource busy (os error 16)"
  | .invalid => "Invalid argument (os error 22)"
  | .notEmpty => "Directory not empty (os error 39)"
  | .nameTooLong => "File name too long (os error 36)"
  | .tooManyLinks => "Too many levels of symbolic links (os error 40)"
  | .noTree => "failed to create whole tree"
  | .nulByte => "file name contained an unexpected NUL byte"
  | .notText => "stream did not contain valid UTF-8"
  | .other text => text

def kindText : Fault → String
  | .notFound => "entity not found"
  | .exists => "entity already exists"
  | .notDirectory => "not a directory"
  | .isDirectory => "is a directory"
  | .busy => "resource busy"
  | .invalid => "invalid input parameter"
  | .notEmpty => "directory not empty"
  | .nameTooLong => "invalid filename"
  | .tooManyLinks => "filesystem loop or indirection limit (e.g. symlink loop)"
  | .noTree => "uncategorized error"
  | .nulByte => "invalid input parameter"
  | .notText => "invalid data"
  | .other _ => "other error"

end Fault

theorem bind_eq_ok_iff {ε α β : Type} {first : Except ε α} {next : α → Except ε β} {value : β} :
    (first >>= next) = .ok value ↔ ∃ middle, first = .ok middle ∧ next middle = .ok value := by
  cases first with
  | error fault => simp [bind, Except.bind]
  | ok middle => simp [bind, Except.bind]

theorem toOption_eq_some_iff {ε α : Type} {result : Except ε α} {value : α} :
    result.toOption = some value ↔ result = .ok value := by
  cases result <;> simp [Except.toOption]

end SourceBaseline
