import CommentBlock.CommandLine.Failure
import CommentBlock.Comment.Json
import CommentBlock.Comment.Source
import CommentBlock.Text.Encoding

/-!
# Runs of the command line

A run reads one input, parses it and writes the comment, either as a block or as
JSON. It reads at most one place, and only if the arguments ask for a run. Where
reading takes place is left open: the same run is carried out on an environment
given as a value and on the real one.

Whatever does not succeed writes nothing to standard output. Its code is one for
a failure and two for arguments that are not understood. Only a failure has a
report: log output, and what is said about such arguments, are left open.
-/

namespace CommentBlock.CommandLine

/-- How a run ends. The report is what is said about a failure on standard error. -/
structure Exit where
  code : Nat
  stdout : Text := []
  report : Text := []
  deriving DecidableEq

/-- The name and the version of the program. -/
def versionText : Text := "phpdoc-source 0.1.0\n".toList

/-- What the program does and what it understands, in lines that are not wrapped. -/
def helpText : Text :=
  "Build, render and read back PHPDoc comment blocks for generated PHP source.\n\n".toList ++
    "Usage: phpdoc-source [OPTIONS] [FILE]\n\nArguments:\n".toList ++
    "  [FILE]  File holding the docblock.  Reads stdin when omitted or `-`\n\nOptions:\n".toList ++
    "      --json        Print the parsed comment as JSON instead of re-rendering it\n".toList ++
    "      --lenient     Skip tags with missing fields instead of failing\n".toList ++
    "  -v, --verbose...  Increase log verbosity (-v, -vv).  `RUST_LOG` takes precedence\n".toList ++
    "  -h, --help        Print help\n  -V, --version     Print version\n".toList

namespace Options

/-- The mode of parsing. -/
def mode (options : Options) : Mode := if options.lenient then .lenient else .strict

/-- What is written for the comment. -/
def write (options : Options) (comment : Comment) : Text :=
  if options.json then comment.toJson.pretty ++ ['\n'] else comment.source

/-- What is written for the input. -/
def convert (options : Options) (contents : Except ReadFault ByteArray) : Except Failure Text :=
  match contents with
  | .error fault => .error (.read options.source fault)
  | .ok bytes =>
    match Text.decode? bytes with
    | none => .error (.read options.source .undecodable)
    | some text =>
      match Comment.parseAs options.mode text with
      | .error error => .error (.parse error)
      | .ok comment => .ok (options.write comment)

end Options

/-- The end of a run with this result. -/
def Exit.ofResult : Except Failure Text → Exit
  | .error failure => ⟨1, [], failure.report⟩
  | .ok output => ⟨0, output, []⟩

/-- Does what is asked for. Input is read by the given action. -/
def Request.carryOut {m : Type → Type} [Monad m]
    (read : Source → m (Except ReadFault ByteArray)) : Request → m Exit
  | .run options => do return .ofResult (options.convert (← read options.source))
  | .version => return ⟨0, versionText, []⟩
  | .help => return ⟨0, helpText, []⟩
  | .misuse => return ⟨2, [], []⟩

/-- What there is to read. -/
structure Environment where
  standardInput : ByteArray
  file : Text → Except ReadFault ByteArray

/-- The bytes at a place of the environment. -/
def Environment.read (environment : Environment) : Source → Id (Except ReadFault ByteArray)
  | .standardInput => .ok environment.standardInput
  | .file name => environment.file name

/-- How the program ends when it is called with the arguments. -/
def run (environment : Environment) (arguments : List Text) : Exit :=
  ((Request.ofArguments arguments).carryOut environment.read).run

end CommentBlock.CommandLine
