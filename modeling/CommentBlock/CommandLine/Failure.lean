import CommentBlock.CommandLine.Options
import CommentBlock.Comment.Parser

/-!
# Failures of a run

A run fails when its input cannot be read or when strict parsing meets a fault.
The report says first what was being done and then lists the causes, from the
nearest to the last. A single cause is listed without a number. A field error is
the cause of the parse error that it is reported by, so it stands there twice.
-/

namespace CommentBlock.CommandLine

/-- Where the input is. -/
inductive Source where
  | standardInput
  | file (name : Text)
  deriving DecidableEq

/-- The place to read according to the options. A hyphen is no file. -/
def Options.source (options : Options) : Source :=
  match options.file with
  | none | some ['-'] => .standardInput
  | some name => .file name

/-- Why the input is not available as text. -/
inductive ReadFault where
  | missing
  | directory
  | undecodable
  | system (description : Text)
  deriving DecidableEq

/-- The fault in words. -/
def ReadFault.message : ReadFault → Text
  | .missing => "No such file or directory (os error 2)".toList
  | .directory => "Is a directory (os error 21)".toList
  | .undecodable => "stream did not contain valid UTF-8".toList
  | .system description => description

/-- Why a run has no result. -/
inductive Failure where
  | read (source : Source) (fault : ReadFault)
  | parse (error : ParseError)
  deriving DecidableEq

namespace Failure

/-- What was being done. -/
def context : Failure → Text
  | .read .standardInput _ => "failed to read stdin".toList
  | .read (.file name) _ => "failed to read ".toList ++ name
  | .parse _ => "failed to parse docblock".toList

/-- The causes in words, the nearest first. -/
def causes : Failure → List Text
  | .read _ fault => [fault.message]
  | .parse error =>
    match error.fault with
    | .tooFewWords .. => [error.message]
    | .badField source => [error.message, source.message]

/-- The causes on numbered lines. -/
def numbered : Nat → List Text → Text
  | _, [] => []
  | number, cause :: rest =>
    "    ".toList ++ Text.ofNat number ++ ": ".toList ++ cause ++ '\n' :: numbered (number + 1) rest

/-- The causes, one on each line. -/
def listing : List Text → Text
  | [cause] => "    ".toList ++ cause ++ ['\n']
  | causes => numbered 0 causes

/-- What is said about the failure. -/
def report (failure : Failure) : Text :=
  "Error: ".toList ++ failure.context ++ "\n\nCaused by:\n".toList ++ listing failure.causes

end Failure

end CommentBlock.CommandLine
