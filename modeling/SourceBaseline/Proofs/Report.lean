import SourceBaseline.Git
import SourceBaseline.Proofs.Text.Matching
import SourceBaseline.Report

/-!
# What a report withholds

Free text in a report is redacted, also where it was redacted before. The reasons for which git failed are
redacted when they are made; a report then shows them as they are.
-/

set_option autoImplicit false

namespace SourceBaseline

open Text (HasPath Parts sanitize)

variable {message : String}

namespace Text

theorem sanitize_of_free (free : ¬ HasPath message.toList) : sanitize message = message := by
  rw [sanitize, redactPaths_of_free free, String.ofList_toList]

theorem not_hasPath_sanitize (message : String) : ¬ HasPath (sanitize message).toList := by
  rw [sanitize, String.toList_ofList]
  exact not_hasPath_redactPaths message.toList

end Text

/-- What git is said to have failed with is free of paths. -/
theorem Git.not_hasPath_reason {git : Git} {question : GitQuestion} {deadline : Deadline} {reason : String}
    (failed : (git.ask question deadline).1 = .error (.git reason)) : ¬ HasPath reason.toList := by
  unfold Git.ask at failed
  split at failed
  next =>
    obtain rfl : "could not run git: " ++ Fault.notFound.message = reason := by simpa using failed
    exact Text.not_hasPath_iff.2 (by decide +kernel)
  next =>
    dsimp only at failed
    split at failed
    next => cases failed
    next =>
      split at failed
      next => cases failed
      next =>
        obtain rfl := Error.git.inj (Except.error.inj failed)
        have opening : ¬ HasPath (("git " ++ Git.commandName question ++ " failed:").toList ++ [' ']) := by
          have either : Git.commandName question = "rev-parse" ∨ Git.commandName question = "diff" := by
            cases question <;> simp [Git.commandName]
          refine Text.not_hasPath_iff.2 ?_
          rcases either with same | same <;> rw [same] <;> decide +kernel
        have free := Text.not_hasPath_append_blank opening
          (Text.not_hasPath_sanitize (Git.trimmed (git.answer question).stderr))
        simpa using free

/-- Redaction answers a text that is free of paths and keeps it from then on. What it replaces are paths that
occur in the message, everything else is kept in order, and a message is its own answer just if no path
occurs in it. So a report shows the reason for which git failed as it was made. -/
theorem redaction_settles (message : String) (git : Git) (question : GitQuestion) (deadline : Deadline) :
    sanitize (sanitize message) = sanitize message ∧
      ¬ HasPath (sanitize message).toList ∧
      (∃ parts tail, Parts.Divides message.toList parts tail ∧
        sanitize message = .ofList (parts.marked ++ tail)) ∧
      (sanitize message = message ↔ ¬ HasPath message.toList) ∧
      ∀ reason, (git.ask question deadline).1 = .error (.git reason) →
        (Error.git reason).report = Error.block "Error: Git" [reason] [] := by
  have free := Text.not_hasPath_sanitize message
  refine ⟨Text.sanitize_of_free free, free, ?_, ⟨fun same => same ▸ free, Text.sanitize_of_free⟩, ?_⟩
  · obtain ⟨parts, tail, divides, marked⟩ := Text.exists_divides message.toList
    exact ⟨parts, tail, divides, congrArg String.ofList marked⟩
  · intro reason failed
    have shown := Text.sanitize_of_free (Git.not_hasPath_reason failed)
    exact congrArg (fun line => Error.block "Error: Git" [line] []) shown

/-- Git that finds no repository and says where. -/
def lostGit : Git :=
  ⟨true, fun _ => ⟨"", "fatal: '/srv/a repo' or C:\\b:/c, (=/d)\n", 128, 0⟩⟩

theorem redaction_settles_lost :
    (lostGit.ask (.changesSince "HEAD") (.start "changes" none)).1 =
        .error (.git "git diff failed: fatal: '<path> repo' or <path>:/c, (=<path>)") ∧
      (Error.git "git diff failed: fatal: '<path> repo' or <path>:/c, (=<path>)").report =
        Error.block "Error: Git" ["git diff failed: fatal: '<path> repo' or <path>:/c, (=<path>)"] [] := by
  have failed : (lostGit.ask (.changesSince "HEAD") (.start "changes" none)).1 =
      .error (.git "git diff failed: fatal: '<path> repo' or <path>:/c, (=<path>)") := by decide +kernel
  exact ⟨failed, (redaction_settles "" lostGit _ _).2.2.2.2 _ failed⟩

end SourceBaseline
