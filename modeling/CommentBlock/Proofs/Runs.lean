import CommentBlock.CommandLine.Run
import CommentBlock.Proofs.Arguments
import CommentBlock.Proofs.RoundTrip

/-!
# Runs of the program

A run that reads its input succeeds if the bytes are UTF-8 and their text is parsed in the
chosen mode. In lenient mode the second condition is no condition at all. What a successful
strict run writes does not change with lenient parsing.

The program brings its input into canonical form once and for all: the block that it writes
is one that it leaves as it is, in either mode. As JSON the block gives what the original
input gave, with null for the license. A run that does not succeed writes nothing.
-/

namespace CommentBlock

/-- The value with null as what stands under the key. -/
def Json.withNull (key : Text) : Json → Json
  | .object members =>
    .object (members.map fun member => if member.1 = key then (key, .null) else member)
  | value => value

/-- Without its license a comment has null for it. -/
theorem Comment.toJson_withoutLicense (comment : Comment) :
    comment.withoutLicense.toJson = comment.toJson.withNull "license".toList := by
  rfl

/-- Bytes are decoded exactly when they are UTF-8. -/
theorem Text.exists_decode?_iff (bytes : ByteArray) :
    (∃ text, decode? bytes = some text) ↔ bytes.IsValidUTF8 := by
  simp [decode?, String.fromUTF8?]

namespace CommandLine

/-- Whether the run succeeded and wrote the output. -/
def Exit.Writes (exit : Exit) (output : Text) : Prop := exit.code = 0 ∧ exit.stdout = output

/-- A run that succeeded wrote what is on standard output. -/
theorem Exit.exists_writes_iff (exit : Exit) : (∃ output, exit.Writes output) ↔ exit.code = 0 := by
  simp [Writes]

/-- Only an output makes a run succeed. -/
theorem Exit.writes_ofResult_iff (result : Except Failure Text) (output : Text) :
    (Exit.ofResult result).Writes output ↔ result = .ok output := by
  cases result <;> simp [ofResult, Writes]

/-- A result without output leaves standard output empty. -/
theorem Exit.stdout_ofResult (result : Except Failure Text) (failed : (ofResult result).code ≠ 0) :
    (ofResult result).stdout = [] := by
  cases result with
  | error failure => rfl
  | ok output => exact absurd rfl failed

/-- Input is converted exactly when it is UTF-8 and its text is parsed. -/
theorem Options.convert_eq_ok_iff (options : Options) (bytes : ByteArray) (output : Text) :
    options.convert (.ok bytes) = .ok output ↔
      ∃ text comment, Text.decode? bytes = some text ∧
        Comment.parseAs options.mode text = .ok comment ∧ options.write comment = output := by
  simp only [convert]
  cases decoded : Text.decode? bytes with
  | none => simp
  | some text =>
    cases parsed : Comment.parseAs options.mode text with
    | error error => simp [parsed]
    | ok comment => simp [parsed]

/-- Without JSON the block is written. -/
theorem Options.write_block (options : Options) (comment : Comment) (block : options.json = false) :
    options.write comment = comment.source := by
  simp [write, block]

/-- With JSON the pretty text and a line end are written. -/
theorem Options.write_json (options : Options) (comment : Comment) (json : options.json = true) :
    options.write comment = comment.toJson.pretty ++ ['\n'] := by
  simp [write, json]

/-- A call of the program that gets as far as its input: the arguments ask for a run, and
there are bytes at the place that they name. -/
structure Call where
  environment : Environment
  arguments : List Text
  options : Options
  bytes : ByteArray
  accepted : Request.ofArguments arguments = .run options
  supplied : (environment.read options.source).run = .ok bytes

namespace Call

/-- How the program ends. -/
def exit (call : Call) : Exit := run call.environment call.arguments

/-- A call succeeds exactly when its input is UTF-8 and the text is parsed. -/
theorem writes_iff (call : Call) (output : Text) :
    call.exit.Writes output ↔
      ∃ text comment, Text.decode? call.bytes = some text ∧
        Comment.parseAs call.options.mode text = .ok comment ∧
          call.options.write comment = output := by
  rw [← Options.convert_eq_ok_iff, ← Exit.writes_ofResult_iff, ← call.supplied, exit, run,
    call.accepted]
  rfl

/-- The same call with a switch that was left off. -/
def putIn (call : Call) (argument : Text) (switch : Switch) (extended : List Text)
    (sets : Choice.ofArgument argument = [.switch (some switch)])
    (off : call.options.leavesOff switch = true) (put : PutsIn argument call.arguments extended) :
    Call where
  environment := call.environment
  arguments := extended
  options := call.options.raise switch
  bytes := call.bytes
  accepted := Request.ofArguments_of_putsIn argument switch _ _ _ sets off call.accepted put
  supplied := by
    have sameSource : (call.options.raise switch).source = call.options.source := by
      cases switch <;> rfl
    rw [sameSource]
    exact call.supplied

/-- A call in lenient mode succeeds for all text. -/
theorem code_eq_zero_iff_of_lenient (call : Call) (lenient : call.options.lenient = true) :
    call.exit.code = 0 ↔ call.bytes.IsValidUTF8 := by
  have mode : call.options.mode = .lenient := by simp [Options.mode, lenient]
  rw [← Exit.exists_writes_iff, ← Text.exists_decode?_iff]
  simp only [writes_iff, mode, Comment.parseAs]
  constructor
  · rintro ⟨output, text, comment, decoded, -, -⟩
    exact ⟨text, decoded⟩
  · rintro ⟨text, decoded⟩
    exact ⟨_, text, _, decoded, rfl, rfl⟩

/-- What a call writes stands for the comment that its input holds. -/
theorem exists_comment_of_writes (call : Call) (output : Text) (writes : call.exit.Writes output) :
    ∃ text, Text.decode? call.bytes = some text ∧
      Comment.parseAs call.options.mode text = .ok (Comment.parseLenient text) ∧
        call.options.write (Comment.parseLenient text) = output := by
  obtain ⟨text, comment, decoded, parsed, written⟩ := (call.writes_iff output).mp writes
  obtain rfl := Comment.parseLenient_of_parseAs _ text comment parsed
  exact ⟨text, decoded, parsed, written⟩

/-- A call on the block of a parsed comment writes that comment without its license. -/
theorem writes_of_source (again : Call) (text : Text)
    (bytes : again.bytes = Text.encode (Comment.parseLenient text).source) :
    again.exit.Writes (again.options.write (Comment.parseLenient text).withoutLicense) := by
  rw [writes_iff]
  refine ⟨(Comment.parseLenient text).source, (Comment.parseLenient text).withoutLicense, ?_, ?_,
    rfl⟩
  · rw [bytes, Text.decode?_encode]
  · exact Comment.parseAs_of_parse _ _ _ (Comment.parse_source_parseLenient text)

end Call

/-- Whatever does not succeed leaves standard output empty. -/
theorem stdout_of_code_ne_zero (environment : Environment) (arguments : List Text)
    (failed : (run environment arguments).code ≠ 0) : (run environment arguments).stdout = [] := by
  unfold run at failed ⊢
  generalize Request.ofArguments arguments = request at failed ⊢
  cases request with
  | misuse => rfl
  | version | help => exact absurd rfl failed
  | run options => exact Exit.stdout_ofResult _ failed

/-- The program brings its input into canonical form. In lenient mode it succeeds for all
text. If it succeeds, lenient mode makes no difference to the output, and for all calls whose
input is an output without JSON it holds that, without JSON, they write their input, and with
JSON they write what the original input gives with JSON, except that there is null for the
license. Nothing is written if the program does not succeed. -/
theorem runs_normalise :
    (∀ call : Call,
      (call.options.lenient = true → (call.exit.code = 0 ↔ call.bytes.IsValidUTF8)) ∧
        ∀ output, call.exit.Writes output →
          (call.options.lenient = false → ∀ extended,
            PutsIn "--lenient".toList call.arguments extended →
              (run call.environment extended).Writes output) ∧
            (call.options.json = false →
              (∀ again : Call, again.bytes = Text.encode output → again.options.json = false →
                again.exit.Writes output) ∧
                ∃ comment : Comment,
                  (∀ extended, PutsIn "--json".toList call.arguments extended →
                    (run call.environment extended).Writes (comment.toJson.pretty ++ ['\n'])) ∧
                    ∀ again : Call, again.bytes = Text.encode output → again.options.json = true →
                      again.exit.Writes
                        ((comment.toJson.withNull "license".toList).pretty ++ ['\n']))) ∧
      ∀ environment arguments, (run environment arguments).code ≠ 0 →
        (run environment arguments).stdout = [] := by
  refine ⟨fun call => ⟨call.code_eq_zero_iff_of_lenient, ?_⟩, stdout_of_code_ne_zero⟩
  intro output writes
  obtain ⟨text, decoded, parsed, written⟩ := call.exists_comment_of_writes output writes
  refine ⟨?_, ?_⟩
  · intro strict extended put
    have off : call.options.leavesOff .lenient = true := by simp [Options.leavesOff, strict]
    let lenient := call.putIn "--lenient".toList .lenient extended rfl off put
    have lenientWrites : lenient.exit.Writes output :=
      (lenient.writes_iff output).mpr ⟨text, _, decoded, rfl, written⟩
    exact lenientWrites
  · intro block
    have source : (Comment.parseLenient text).source = output := by
      rw [← written, Options.write_block _ _ block]
    rw [← source]
    refine ⟨?_, Comment.parseLenient text, ?_, ?_⟩
    · intro again bytes againBlock
      have againWrites := again.writes_of_source text bytes
      rw [Options.write_block _ _ againBlock, Comment.source_withoutLicense] at againWrites
      exact againWrites
    · intro extended put
      have off : call.options.leavesOff .json = true := by simp [Options.leavesOff, block]
      let json := call.putIn "--json".toList .json extended rfl off put
      have jsonWrites : json.exit.Writes ((Comment.parseLenient text).toJson.pretty ++ ['\n']) :=
        (json.writes_iff _).mpr ⟨text, _, decoded, parsed, Options.write_json _ _ rfl⟩
      exact jsonWrites
    · intro again bytes againJson
      have againWrites := again.writes_of_source text bytes
      rw [Options.write_json _ _ againJson, Comment.toJson_withoutLicense] at againWrites
      exact againWrites

/-- A call on a text at standard input that asks for more log output. -/
def Call.onInput (text : Text) : Call where
  environment := ⟨text.encode, fun _ => .error .missing⟩
  arguments := ["-v".toList]
  options := { verbosity := 1 }
  bytes := text.encode
  accepted := rfl
  supplied := rfl

/-- A lenient call on a text in a file. -/
def Call.onFile (text : Text) : Call where
  environment := ⟨.empty, fun _ => .ok text.encode⟩
  arguments := ["--lenient".toList, "block".toList]
  options := { lenient := true, file := some "block".toList }
  bytes := text.encode
  accepted := rfl
  supplied := rfl

/-- The same call with JSON output. -/
def Call.onFileAsJson (text : Text) : Call :=
  (onFile text).putIn "--json".toList .json _ rfl rfl
    ⟨["--lenient".toList], ["block".toList], by decide, rfl, rfl⟩

/-- A text with a license is brought into canonical form and stays in it, and the JSON of the
two forms differs in the license. -/
theorem runs_normalise_looseText :
    let call := Call.onInput Comment.looseText
    let output := Comment.looseComment.source
    call.exit.Writes output ∧
      (run call.environment ["--lenient".toList, "-v".toList]).Writes output ∧
      (Call.onFile output).exit.Writes output ∧
      ∃ comment : Comment,
        (run call.environment ["-v".toList, "--json".toList]).Writes
          (comment.toJson.pretty ++ ['\n']) ∧
        (Call.onFileAsJson output).exit.Writes
          ((comment.toJson.withNull "license".toList).pretty ++ ['\n']) := by
  intro call output
  have writes : call.exit.Writes output := by
    rw [Call.writes_iff]
    exact ⟨Comment.looseText, Comment.looseComment, Text.decode?_encode _, rfl, rfl⟩
  obtain ⟨lenient, block⟩ := (runs_normalise.1 call).2 output writes
  obtain ⟨again, comment, json, againJson⟩ := block rfl
  refine ⟨writes, ?_, again (Call.onFile output) rfl rfl, comment, ?_, ?_⟩
  · exact lenient rfl _ ⟨[], ["-v".toList], by decide, rfl, rfl⟩
  · exact json _ ⟨["-v".toList], [], by decide, rfl, rfl⟩
  · exact againJson (Call.onFileAsJson output) rfl rfl

end CommandLine

end CommentBlock
