import CommentBlock.Text.Blank

/-!
# Command-line options

The arguments ask for one run with options, for the version, for help, or for
nothing that is understood. They are taken from left to right, and the first one
that cannot be taken, or that asks for the version or for help, decides.

A switch has a name after two hyphens, some also a letter after one. Letters may
share a hyphen. Names are not abbreviated, no switch takes a value, and only the
verbose switch may be repeated; it is counted as far as a byte goes. Any other
argument names the file to read, of which there is at most one, and its name is not
empty. A lone hyphen is such a name. After an argument of two hyphens all further
ones are file names.
-/

namespace CommentBlock.CommandLine

/-- A choice without a value. -/
inductive Switch where
  | json
  | lenient
  | verbose
  | version
  | help
  deriving DecidableEq

/-- The switch with the name. -/
def Switch.ofName? (name : Text) : Option Switch :=
  [("json".toList, json), ("lenient".toList, lenient), ("verbose".toList, verbose),
    ("version".toList, version), ("help".toList, help)].lookup name

/-- The switch with the letter. -/
def Switch.ofLetter? : Char → Option Switch
  | 'v' => some .verbose
  | 'V' => some .version
  | 'h' => some .help
  | _ => none

/-- What is chosen for a run. -/
structure Options where
  json : Bool := false
  lenient : Bool := false
  verbosity : UInt8 := 0
  file : Option Text := none
  deriving DecidableEq

/-- What the arguments ask for. -/
inductive Request where
  | run (options : Options)
  | version
  | help
  | misuse
  deriving DecidableEq

namespace Options

/-- The count with one more, unless it is the highest one. -/
def countOn (count : UInt8) : UInt8 := if count = 255 then count else count + 1

/-- The options with the switch set, or the request that settles the matter. -/
def set (options : Options) : Switch → Except Request Options
  | .json => if options.json then .error .misuse else .ok { options with json := true }
  | .lenient => if options.lenient then .error .misuse else .ok { options with lenient := true }
  | .verbose => .ok { options with verbosity := countOn options.verbosity }
  | .version => .error .version
  | .help => .error .help

/-- The options with the switch set if there is one. -/
def set? (options : Options) : Option Switch → Except Request Options
  | none => .error .misuse
  | some switch => options.set switch

/-- The options with the switch of each letter set. -/
def setLetters (options : Options) (letters : Text) : Except Request Options :=
  letters.foldlM (fun options letter => options.set? (Switch.ofLetter? letter)) options

/-- The options with the file to read. -/
def setFile (options : Options) (name : Text) : Except Request Options :=
  if name = [] ∨ options.file.isSome then .error .misuse
  else .ok { options with file := some name }

/-- The options with what an argument before two hyphens adds. -/
def take (options : Options) : Text → Except Request Options
  | '-' :: '-' :: name => options.set? (Switch.ofName? name)
  | '-' :: letter :: letters => options.setLetters (letter :: letters)
  | name => options.setFile name

/-- The options with what all arguments add. -/
def takeAll (options : Options) : List Text → Except Request Options
  | [] => .ok options
  | ['-', '-'] :: names => names.foldlM setFile options
  | argument :: rest =>
    match options.take argument with
    | .error request => .error request
    | .ok options => options.takeAll rest

end Options

/-- What the arguments ask for. -/
def Request.ofArguments (arguments : List Text) : Request :=
  match Options.takeAll {} arguments with
  | .error request => request
  | .ok options => .run options

end CommentBlock.CommandLine
