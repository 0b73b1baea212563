import Mathlib.Tactic.Tauto
import CommentBlock.CommandLine.Run
import CommentBlock.Proofs.Choices

/-!
# Invocations

An invocation is written with switches and at most one file, in any order. JSON and lenient
parsing are asked for once at most, more log output as often as one likes, by name or by
letters behind one hyphen. Two hyphens may close the list, and then a file of any name may
follow them. These are exactly the arguments that ask for a run.

How a run ends depends on three things only: whether JSON is asked for, whether lenient
parsing is, and the bytes at the one place that is read. The order of the arguments, the log
output and all other places have no part in it. What must stand only once makes the call a
misuse if it stands twice, wherever the second one is put.
-/

namespace CommentBlock.CommandLine

/-- The name of a file that is not taken for a switch: it does not start with a hyphen unless
it is one. -/
@[ext]
structure FileName where
  chars : Text
  isName : chars ≠ []
  isNoSwitch : chars.head? = some '-' → chars = ['-']

/-- Names are the same if their characters are. -/
instance : DecidableEq FileName := fun first second =>
  decidable_of_iff (first.chars = second.chars) FileName.ext_iff.symm

/-- An argument in front of two hyphens. Of the letters there is one more than is told. -/
inductive Argument where
  | json
  | lenient
  | verbose
  | letters (more : Nat)
  | file (name : FileName)
  deriving DecidableEq

namespace Argument

/-- How the argument is written. -/
def text : Argument → Text
  | .json => "--json".toList
  | .lenient => "--lenient".toList
  | .verbose => "--verbose".toList
  | .letters more => '-' :: List.replicate (more + 1) 'v'
  | .file name => name.chars

/-- The choices that the argument makes. -/
def choices : Argument → List Choice
  | .json => [.switch (some .json)]
  | .lenient => [.switch (some .lenient)]
  | .verbose => [.switch (some .verbose)]
  | .letters more => List.replicate (more + 1) (.switch (some .verbose))
  | .file name => [.file name.chars]

/-- The name of the file that the argument is, if it is one. -/
def file? : Argument → Option Text
  | .file name => some name.chars
  | _ => none

/-- Whether the argument only asks for more log output. -/
def isVerbose : Argument → Bool
  | .verbose | .letters _ => true
  | _ => false

end Argument

namespace Choice

/-- The names of the switches that are for runs. -/
theorem eq_of_isForRun_ofName? (name : Text)
    (forRun : (switch (Switch.ofName? name)).IsForRun) :
    name = "json".toList ∨ name = "lenient".toList ∨ name = "verbose".toList := by
  cases found : Switch.ofName? name with
  | none =>
    rw [found] at forRun
    cases forRun
  | some known =>
    rw [found] at forRun
    obtain ⟨front, back, split, _⟩ := List.lookup_eq_some_iff.mp found
    have listed : (name, known) ∈ [("json".toList, Switch.json), ("lenient".toList, .lenient),
        ("verbose".toList, .verbose), ("version".toList, .version), ("help".toList, .help)] := by
      rw [split]
      exact List.mem_append_right front List.mem_cons_self
    simp only [List.mem_cons, Prod.mk.injEq, List.not_mem_nil, or_false] at listed
    obtain ⟨same, _⟩ | ⟨same, _⟩ | ⟨same, _⟩ | ⟨_, rfl⟩ | ⟨_, rfl⟩ := listed
    · exact .inl same
    · exact .inr (.inl same)
    · exact .inr (.inr same)
    · cases forRun
    · cases forRun

/-- The letter of the switch that is for runs and has one. -/
theorem eq_of_isForRun_ofLetter? (letter : Char)
    (forRun : (switch (Switch.ofLetter? letter)).IsForRun) : letter = 'v' := by
  unfold Switch.ofLetter? at forRun
  split at forRun
  · rfl
  · cases forRun
  · cases forRun
  · cases forRun

/-- A written argument makes the choices of the argument. -/
theorem ofArgument_text (argument : Argument) : ofArgument argument.text = argument.choices := by
  cases argument with
  | json | lenient | verbose => rfl
  | letters more =>
    change (List.replicate (more + 1) 'v').map (fun letter => switch (Switch.ofLetter? letter)) = _
    rw [List.map_replicate]
    rfl
  | file name => exact ofArgument_file name.chars name.isNoSwitch

end Choice

namespace Argument

/-- No argument is written as two hyphens. -/
theorem text_ne_hyphens (argument : Argument) : argument.text ≠ ['-', '-'] := by
  cases argument with
  | json | lenient | verbose => decide
  | letters more =>
    change '-' :: 'v' :: List.replicate more 'v' ≠ _
    simp
  | file name =>
    obtain ⟨chars, isName, isNoSwitch⟩ := name
    rintro (rfl : chars = _)
    cases isNoSwitch rfl

/-- A choice other than the one for more log output is made as often as the argument stands
that makes it. -/
theorem count_choices (argument : Argument) (choice : Choice) (makes : argument.choices = [choice])
    (notVerbose : choice ≠ .switch (some .verbose)) (front : List Argument) :
    (front.flatMap choices).count choice = front.count argument := by
  have one (other : Argument) :
      other.choices.count choice = if other == argument then 1 else 0 := by
    cases argument with
    | verbose | letters more => grind [choices]
    | json | lenient =>
      cases makes
      cases other <;> simp [choices, List.count_replicate]
    | file name =>
      cases makes
      cases other with
      | file another => simp [choices, List.count_singleton, FileName.ext_iff]
      | _ => simp [choices, List.count_replicate]
  induction front with
  | nil => rfl
  | cons other rest inductionHypothesis =>
    rw [List.flatMap_cons, List.count_append, inductionHypothesis, one, List.count_cons,
      Nat.add_comm]

/-- The files of the arguments are those of their choices. -/
theorem filterMap_file? (front : List Argument) :
    (front.flatMap choices).filterMap Choice.file? = front.filterMap file? := by
  induction front with
  | nil => rfl
  | cons argument rest inductionHypothesis =>
    rw [List.flatMap_cons, List.filterMap_append, inductionHypothesis]
    cases argument <;>
      simp [choices, file?, Choice.file?, List.filterMap_cons, List.filterMap_replicate]

/-- Arguments that only ask for more log output are no files. -/
theorem filterMap_filter_isVerbose (front : List Argument) :
    (front.filter (!·.isVerbose)).filterMap file? = front.filterMap file? := by
  rw [List.filterMap_filter]
  congr 1
  funext argument
  cases argument <;> rfl

/-- Each argument makes only choices for a run. -/
theorem isForRun (argument : Argument) : ∀ choice ∈ argument.choices, choice.IsForRun := by
  cases argument with
  | json | lenient | verbose => simp [choices, Choice.IsForRun]
  | letters more => simp [choices, Choice.IsForRun]
  | file name => simpa [choices, Choice.IsForRun] using name.isName

/-- Conversely, an argument with choices for a run is a written one, if it is not two
hyphens. -/
theorem exists_text_eq (written : Text) (differs : written ≠ ['-', '-'])
    (forRun : ∀ choice ∈ Choice.ofArgument written, choice.IsForRun) :
    ∃ argument : Argument, argument.text = written := by
  unfold Choice.ofArgument at forRun
  split at forRun
  next name =>
    obtain rfl | rfl | rfl :=
      Choice.eq_of_isForRun_ofName? name (forRun _ List.mem_cons_self)
    · exact ⟨.json, rfl⟩
    · exact ⟨.lenient, rfl⟩
    · exact ⟨.verbose, rfl⟩
  next letter letters _ =>
    have allVerbose : ∀ other ∈ letter :: letters, other = 'v' := fun other inside =>
      Choice.eq_of_isForRun_ofLetter? other (forRun _ (List.mem_map_of_mem inside))
    have repeated : letter :: letters = List.replicate (letters.length + 1) 'v' :=
      List.eq_replicate_iff.mpr ⟨rfl, allVerbose⟩
    exact ⟨.letters letters.length, congrArg ('-' :: ·) repeated.symm⟩
  next noSwitch noLetters =>
    have isName : written ≠ [] := forRun _ List.mem_cons_self
    refine ⟨.file ⟨written, isName, ?_⟩, rfl⟩
    intro start
    cases written with
    | nil => cases start
    | cons first rest =>
      obtain rfl : first = '-' := Option.some.inj start
      cases rest with
      | nil => rfl
      | cons letter letters => exact absurd rfl (noLetters letter letters)

end Argument

/-- Written arguments make the choices of the arguments. -/
theorem Choice.ofArguments_map_text (front : List Argument) :
    ofArguments (front.map Argument.text) = front.flatMap Argument.choices := by
  induction front with
  | nil => rfl
  | cons argument rest inductionHypothesis =>
    rw [List.map_cons, ofArguments_cons _ _ argument.text_ne_hyphens, ofArgument_text,
      inductionHypothesis, List.flatMap_cons]

/-- A switch that is for one use is chosen as often as its argument stands in front of the
files. -/
theorem Choice.count_switch (front : List Argument) (names : List Text) (argument : Argument)
    (known : Switch) (makes : argument.choices = [.switch (some known)])
    (notVerbose : known ≠ .verbose) :
    (front.flatMap Argument.choices ++ names.map file).count (.switch (some known)) =
      front.count argument := by
  rw [List.count_append, Argument.count_choices argument _ makes (by simpa using notVerbose)]
  simp [List.count_eq_zero]

/-- The files of the choices are those of the arguments and those behind them. -/
theorem Choice.filterMap_file? (front : List Argument) (names : List Text) :
    (front.flatMap Argument.choices ++ names.map file).filterMap file? =
      front.filterMap Argument.file? ++ names := by
  rw [List.filterMap_append, Argument.filterMap_file?, List.filterMap_map]
  simp [Function.comp_def, file?]

/-- The choices of arguments with files behind them can be made together exactly if each
switch for one use is used once at most, and if there is one file at most. -/
theorem Choice.areCompatible_choices_iff (front : List Argument) (names : List Text) :
    AreCompatible (front.flatMap Argument.choices ++ names.map .file) ↔
      front.count .json ≤ 1 ∧ front.count .lenient ≤ 1 ∧
        (front.filterMap Argument.file? ++ names).length ≤ 1 ∧ ∀ name ∈ names, name ≠ [] := by
  have frontForRun : ∀ choice ∈ front.flatMap Argument.choices, choice.IsForRun := by
    intro choice made
    obtain ⟨argument, _, own⟩ := List.mem_flatMap.mp made
    exact argument.isForRun choice own
  have namesForRun : (∀ choice ∈ names.map file, choice.IsForRun) ↔ ∀ name ∈ names, name ≠ [] := by
    simp [IsForRun]
  rw [areCompatible_iff, List.forall_mem_append, namesForRun, filterMap_file?,
    count_switch front names .json .json rfl (by simp),
    count_switch front names .lenient .lenient rfl (by simp)]
  tauto

/-- A file is read if one is named that is no hyphen, or else standard input. -/
theorem Options.source_eq (options : Options) :
    options.source = match options.file.filter (· ≠ ['-']) with
      | none => .standardInput
      | some name => .file name := by
  rw [source]
  cases options.file with
  | none => rfl
  | some name =>
    by_cases hyphen : name = ['-']
    · subst hyphen
      rfl
    · rw [Option.filter_some, if_pos (by simpa using hyphen)]
      split
      next absent => cases absent
      next same => exact absurd (Option.some.inj same) hyphen
      next other _ _ same => rw [Option.some.inj same]

/-- Arguments whose choices are for runs are written ones, if no two hyphens are among them. -/
theorem Choice.exists_map_text_eq (front : List Text) (noHyphens : ['-', '-'] ∉ front)
    (forRun : ∀ choice ∈ ofArguments front, choice.IsForRun) :
    ∃ arguments : List Argument, arguments.map Argument.text = front := by
  induction front with
  | nil => exact ⟨[], rfl⟩
  | cons written rest inductionHypothesis =>
    have differs : written ≠ ['-', '-'] := fun same => noHyphens (same ▸ List.mem_cons_self)
    rw [ofArguments_cons _ _ differs, List.forall_mem_append] at forRun
    obtain ⟨argument, rfl⟩ := Argument.exists_text_eq written differs forRun.1
    obtain ⟨arguments, rfl⟩ :=
      inductionHypothesis (fun inside => noHyphens (List.mem_cons_of_mem _ inside)) forRun.2
    exact ⟨argument :: arguments, rfl⟩

/-- Arguments that ask for a run. Two hyphens may stand behind the other arguments, and one
file behind the hyphens. -/
structure Invocation where
  front : List Argument
  closing : Option (Option Text)
  jsonOnce : front.count .json ≤ 1
  lenientOnce : front.count .lenient ≤ 1
  oneFile : (front.filterMap Argument.file? ++ closing.join.toList).length ≤ 1
  isName : ∀ name ∈ closing.join.toList, name ≠ []

namespace Invocation

/-- Two hyphens and the file behind them, if they are there. -/
def closingArguments : Option (Option Text) → List Text
  | none => []
  | some name => ['-', '-'] :: name.toList

/-- How the arguments are written. -/
def arguments (call : Invocation) : List Text :=
  call.front.map Argument.text ++ closingArguments call.closing

/-- The choices that the arguments make. -/
def choices (call : Invocation) : List Choice :=
  call.front.flatMap Argument.choices ++ call.closing.join.toList.map .file

/-- What the arguments come to. -/
def options (call : Invocation) : Options := .ofChoices call.choices

/-- The files that are given. There is one at most. -/
def files (call : Invocation) : List Text :=
  call.front.filterMap Argument.file? ++ call.closing.join.toList

/-- The file that is given, if one is and it is not a hyphen. -/
def namedFile? (call : Invocation) : Option Text := call.files.head?.filter (· ≠ ['-'])

/-- What there is to read: the contents of the named file, or else standard input. -/
def input (call : Invocation) (environment : Environment) : Except ReadFault ByteArray :=
  match call.namedFile? with
  | none => .ok environment.standardInput
  | some name => environment.file name

/-- The arguments that do not only ask for more log output. -/
def quietFront (call : Invocation) : List Argument := call.front.filter (!·.isVerbose)

/-- The written arguments make the choices of the invocation. -/
theorem ofArguments_arguments (call : Invocation) :
    Choice.ofArguments call.arguments = call.choices := by
  have noHyphens : ['-', '-'] ∉ call.front.map Argument.text := by
    intro inside
    obtain ⟨argument, _, same⟩ := List.mem_map.mp inside
    exact argument.text_ne_hyphens same
  have behind : Choice.ofArguments (closingArguments call.closing) =
      call.closing.join.toList.map .file := by
    cases call.closing <;> rfl
  rw [arguments, Choice.ofArguments_append _ _ noHyphens, behind, choices,
    Choice.ofArguments_map_text]

/-- The choices of an invocation can be made together. -/
theorem areCompatible (call : Invocation) : Choice.AreCompatible call.choices :=
  (Choice.areCompatible_choices_iff call.front call.closing.join.toList).mpr
    ⟨call.jsonOnce, call.lenientOnce, call.oneFile, call.isName⟩

/-- An invocation asks for a run. -/
theorem ofArguments_eq_run (call : Invocation) :
    Request.ofArguments call.arguments = .run call.options := by
  rw [Request.ofArguments_eq_run_iff_areCompatible, ofArguments_arguments]
  exact ⟨call.areCompatible, rfl⟩

/-- Conversely, all arguments that ask for a run are those of an invocation. -/
theorem exists_arguments_eq_iff (arguments : List Text) :
    (∃ call : Invocation, call.arguments = arguments) ↔
      ∃ options, Request.ofArguments arguments = .run options := by
  constructor
  · rintro ⟨call, rfl⟩
    exact ⟨call.options, call.ofArguments_eq_run⟩
  · rintro ⟨options, accepted⟩
    obtain ⟨compatible, _⟩ :=
      (Request.ofArguments_eq_run_iff_areCompatible arguments options).mp accepted
    by_cases closed : ['-', '-'] ∈ arguments
    · obtain ⟨ahead, names, rfl, before⟩ := List.eq_append_cons_of_mem closed
      rw [Choice.ofArguments_append_hyphens _ _ before] at compatible
      obtain ⟨front, rfl⟩ := Choice.exists_map_text_eq ahead before fun choice made =>
        compatible.forRun choice (List.mem_append_left _ made)
      rw [Choice.ofArguments_map_text, Choice.areCompatible_choices_iff] at compatible
      obtain ⟨jsonOnce, lenientOnce, oneFile, isName⟩ := compatible
      match names with
      | [] => exact ⟨⟨front, some none, jsonOnce, lenientOnce, oneFile, isName⟩, rfl⟩
      | [name] => exact ⟨⟨front, some (some name), jsonOnce, lenientOnce, oneFile, isName⟩, rfl⟩
      | first :: second :: rest =>
        rw [List.length_append, List.length_cons, List.length_cons] at oneFile
        omega
    · obtain ⟨front, rfl⟩ := Choice.exists_map_text_eq arguments closed compatible.forRun
      have withNoName : Choice.AreCompatible
          (front.flatMap Argument.choices ++ ([] : List Text).map .file) := by
        rw [← Choice.ofArguments_map_text, List.map_nil, List.append_nil]
        exact compatible
      obtain ⟨jsonOnce, lenientOnce, oneFile, isName⟩ :=
        (Choice.areCompatible_choices_iff front []).mp withNoName
      exact ⟨⟨front, none, jsonOnce, lenientOnce, oneFile, isName⟩, List.append_nil _⟩

/-- A switch is among the choices exactly if its argument is among those in front. -/
theorem mem_choices_iff (call : Invocation) (argument : Argument) (known : Switch)
    (makes : argument.choices = [.switch (some known)]) (notVerbose : known ≠ .verbose) :
    .switch (some known) ∈ call.choices ↔ argument ∈ call.front := by
  rw [← List.count_pos_iff, choices, Choice.count_switch _ _ argument known makes notVerbose,
    List.count_pos_iff]

/-- The files of the choices are those that are given. -/
theorem filterMap_choices (call : Invocation) :
    call.choices.filterMap Choice.file? = call.files :=
  Choice.filterMap_file? call.front call.closing.join.toList

/-- A run reads the input of the invocation. -/
theorem read_eq_input (call : Invocation) (environment : Environment) :
    (environment.read call.options.source).run = call.input environment := by
  have chosen : call.options.file = call.files.head? := by
    rw [options, Options.ofChoices, filterMap_choices]
  rw [Options.source_eq, chosen, ← namedFile?, input]
  cases call.namedFile? <;> rfl

/-- The run of an invocation. -/
theorem run_eq (call : Invocation) (environment : Environment) :
    run environment call.arguments = .ofResult (call.options.convert (call.input environment)) := by
  rw [run, call.ofArguments_eq_run, ← call.read_eq_input]
  rfl

end Invocation

/-- Whether both runs end with the same code and the same output. -/
def Exit.AgreesWith (first second : Exit) : Prop :=
  first.code = second.code ∧ first.stdout = second.stdout

/-- Whether the run ends as a misuse, without output. -/
def Exit.IsMisuse (exit : Exit) : Prop := exit.code = 2 ∧ exit.stdout = []

/-- The code and the output only tell what the result is if there is one. -/
theorem Exit.agreesWith_ofResult (first second : Except Failure Text)
    (same : first.toOption = second.toOption) : (ofResult first).AgreesWith (ofResult second) := by
  cases first with
  | error failure =>
    cases second with
    | error other => exact ⟨rfl, rfl⟩
    | ok output => cases same
  | ok output =>
    cases second with
    | error failure => cases same
    | ok other =>
      obtain rfl : output = other := Option.some.inj same
      exact ⟨rfl, rfl⟩

/-- What is written, if anything, comes from the bytes that there are to read, if any. -/
theorem Options.toOption_convert (options : Options) (contents : Except ReadFault ByteArray) :
    (options.convert contents).toOption =
      contents.toOption.bind fun bytes => (Text.decode? bytes).bind fun text =>
        (Comment.parseAs options.mode text).toOption.map options.write := by
  cases contents with
  | error fault => rfl
  | ok bytes =>
    simp only [convert, Except.toOption, Option.bind_some]
    cases Text.decode? bytes with
    | none => rfl
    | some text =>
      cases parsed : Comment.parseAs options.mode text <;> simp [parsed]

namespace Invocation

/-- Two invocations agree if they ask for the same form and the same mode of parsing, and if
the same bytes are there to read, or none. -/
theorem run_agreesWith (call other : Invocation) (environment otherEnvironment : Environment)
    (json : .json ∈ call.front ↔ .json ∈ other.front)
    (lenient : .lenient ∈ call.front ↔ .lenient ∈ other.front)
    (input : (call.input environment).toOption = (other.input otherEnvironment).toOption) :
    (run environment call.arguments).AgreesWith (run otherEnvironment other.arguments) := by
  have sameJson : call.options.json = other.options.json := by
    simp only [options, Options.ofChoices, mem_choices_iff _ .json .json rfl (by simp), json]
  have sameLenient : call.options.lenient = other.options.lenient := by
    simp only [options, Options.ofChoices, mem_choices_iff _ .lenient .lenient rfl (by simp),
      lenient]
  have sameMode : call.options.mode = other.options.mode := by
    rw [Options.mode, Options.mode, sameLenient]
  have sameWriting : call.options.write = other.options.write := by
    funext comment
    rw [Options.write, Options.write, sameJson]
  rw [run_eq, run_eq]
  apply Exit.agreesWith_ofResult
  rw [Options.toOption_convert, Options.toOption_convert, input, sameMode, sameWriting]

/-- Only the place that is read has a part in the run. -/
theorem run_of_input (call : Invocation) (environment otherEnvironment : Environment)
    (input : call.input otherEnvironment = call.input environment) :
    run otherEnvironment call.arguments = run environment call.arguments := by
  rw [run_eq, run_eq, input]

/-- With nothing but the same arguments besides those for more log output, invocations agree. -/
theorem run_of_quietFront (call other : Invocation) (environment : Environment)
    (quiet : other.quietFront = call.quietFront) (closing : other.closing = call.closing) :
    (run environment other.arguments).AgreesWith (run environment call.arguments) := by
  have mem (invocation : Invocation) (argument : Argument) (spoken : argument.isVerbose = false) :
      argument ∈ invocation.front ↔ argument ∈ invocation.quietFront := by
    simp [quietFront, spoken]
  have files (invocation : Invocation) : invocation.files =
      invocation.quietFront.filterMap Argument.file? ++ invocation.closing.join.toList := by
    rw [Invocation.files, quietFront, Argument.filterMap_filter_isVerbose]
  have sameFiles : other.files = call.files := by rw [files, files, quiet, closing]
  apply run_agreesWith
  · rw [mem other .json rfl, mem call .json rfl, quiet]
  · rw [mem other .lenient rfl, mem call .lenient rfl, quiet]
  · rw [input, input, namedFile?, namedFile?, sameFiles]

/-- An invocation is no misuse. -/
theorem code_ne_two (call : Invocation) (environment : Environment) :
    (run environment call.arguments).code ≠ 2 := by
  rw [run_eq]
  cases call.options.convert (call.input environment) <;> simp [Exit.ofResult]

/-- A choice that does not go with those of the invocation makes a misuse of it. -/
theorem isMisuse_of_added (call : Invocation) (environment : Environment) (choice : Choice)
    (extended : List Text)
    (added : (Choice.ofArguments extended).Perm (choice :: Choice.ofArguments call.arguments))
    (forRun : ¬ choice.AsksAboutProgram)
    (clash : ¬ Choice.AreCompatible (choice :: call.choices)) :
    (run environment extended).IsMisuse := by
  have compatible : Choice.AreCompatible (Choice.ofArguments call.arguments) := by
    rw [ofArguments_arguments]
    exact call.areCompatible
  rw [← ofArguments_arguments] at clash
  rw [run, Request.ofArguments_eq_misuse_of_added _ _ _ compatible added forRun clash]
  exact ⟨rfl, rfl⟩

/-- A second switch of a kind that is used once makes a misuse of the invocation. -/
theorem isMisuse_of_secondSwitch (call : Invocation) (environment : Environment)
    (argument : Argument) (known : Switch) (extended : List Text)
    (makes : argument.choices = [.switch (some known)]) (once : known = .json ∨ known = .lenient)
    (given : argument ∈ call.front) (put : PutsIn argument.text call.arguments extended) :
    (run environment extended).IsMisuse := by
  have writtenMakes : Choice.ofArgument argument.text = [.switch (some known)] := by
    rw [Choice.ofArgument_text, makes]
  have notVerbose : known ≠ .verbose := by
    obtain rfl | rfl := once <;> simp
  have chosen : .switch (some known) ∈ call.choices :=
    (call.mem_choices_iff argument known makes notVerbose).mpr given
  apply call.isMisuse_of_added environment (.switch (some known)) extended
    (Choice.ofArguments_of_putsIn _ _ _ _ writtenMakes argument.text_ne_hyphens put)
  · obtain rfl | rfl := once <;> simp [Choice.AsksAboutProgram]
  · exact Choice.not_areCompatible_twice _ _ (by simpa using once) chosen

/-- A second file makes a misuse of the invocation. -/
theorem isMisuse_of_secondFile (call : Invocation) (environment : Environment) (name : Text)
    (extended : List Text) (given : call.files ≠ [])
    (put : PutsInFile name call.arguments extended) : (run environment extended).IsMisuse := by
  apply call.isMisuse_of_added environment (.file name) extended
    (Choice.ofArguments_of_putsInFile name _ _ put)
  · simp [Choice.AsksAboutProgram]
  · apply Choice.not_areCompatible_secondFile
    rw [filterMap_choices]
    exact given

end Invocation

/-- Invocations are runs. Any two of them, however they are written, end with the same code
and the same output if they agree in asking for JSON and for lenient parsing and read the
same bytes, or both read none. A run reads the named file if there is one and standard input
if there is none, and nothing else has a part in it. Arguments that only ask for more log
output change neither code nor output. A second switch for JSON or for lenient parsing in
front of two hyphens, or a second file anywhere, is a misuse. -/
theorem invocations_agree (call : Invocation) (environment : Environment) :
    (run environment call.arguments).code ≠ 2 ∧
      (∀ (other : Invocation) (otherEnvironment : Environment),
        (.json ∈ call.front ↔ .json ∈ other.front) →
        (.lenient ∈ call.front ↔ .lenient ∈ other.front) →
        (call.input environment).toOption = (other.input otherEnvironment).toOption →
          (run environment call.arguments).AgreesWith (run otherEnvironment other.arguments)) ∧
      (∀ (name : Text) (otherEnvironment : Environment), call.namedFile? = some name →
        otherEnvironment.file name = environment.file name →
          run otherEnvironment call.arguments = run environment call.arguments) ∧
      (∀ otherEnvironment : Environment, call.namedFile? = none →
        otherEnvironment.standardInput = environment.standardInput →
          run otherEnvironment call.arguments = run environment call.arguments) ∧
      (∀ other : Invocation, other.quietFront = call.quietFront → other.closing = call.closing →
        (run environment other.arguments).AgreesWith (run environment call.arguments)) ∧
      (∀ argument ∈ [Argument.json, .lenient], argument ∈ call.front →
        ∀ extended, PutsIn argument.text call.arguments extended →
          (run environment extended).IsMisuse) ∧
      (call.files ≠ [] → ∀ name extended, PutsInFile name call.arguments extended →
        (run environment extended).IsMisuse) := by
  refine ⟨call.code_ne_two environment, ?_, ?_, ?_, ?_, ?_, ?_⟩
  · intro other otherEnvironment json lenient input
    exact call.run_agreesWith other environment otherEnvironment json lenient input
  · intro name otherEnvironment named same
    apply call.run_of_input
    rw [Invocation.input, Invocation.input, named]
    exact same
  · intro otherEnvironment unnamed same
    apply call.run_of_input
    rw [Invocation.input, Invocation.input, unnamed, same]
  · intro other quiet closing
    exact call.run_of_quietFront other environment quiet closing
  · intro argument once given extended put
    obtain rfl | rfl : argument = .json ∨ argument = .lenient := by simpa using once
    · exact call.isMisuse_of_secondSwitch environment _ .json extended rfl (.inl rfl) given put
    · exact call.isMisuse_of_secondSwitch environment _ .lenient extended rfl (.inr rfl) given put
  · intro given name extended put
    exact call.isMisuse_of_secondFile environment name extended given put

namespace Invocation

/-- Written `-vv --json a --verbose --`. -/
def loud : Invocation where
  front := [.letters 1, .json, .file ⟨['a'], by decide, by decide⟩, .verbose]
  closing := some none
  jsonOnce := by decide
  lenientOnce := by decide
  oneFile := by decide
  isName := by decide

/-- Written `--json a --`. -/
def quiet : Invocation where
  front := [.json, .file ⟨['a'], by decide, by decide⟩]
  closing := some none
  jsonOnce := by decide
  lenientOnce := by decide
  oneFile := by decide
  isName := by decide

/-- Written `--json -- -`. -/
def piped : Invocation where
  front := [.json]
  closing := some (some ['-'])
  jsonOnce := by decide
  lenientOnce := by decide
  oneFile := by decide
  isName := by decide

end Invocation

/-- An empty block on standard input and in one file. -/
def Environment.emptyBlock : Environment where
  standardInput := Text.encode "/** */".toList
  file name := if name = ['a'] then .ok (Text.encode "/** */".toList) else .error .missing

/-- A call with each kind of argument, with others that read the same bytes, and with one
argument too many. -/
theorem invocations_agree_of_loud :
    let environment := Environment.emptyBlock
    (run environment Invocation.loud.arguments).code ≠ 2 ∧
      (run environment Invocation.loud.arguments).AgreesWith
        (run environment Invocation.piped.arguments) ∧
      run { environment with standardInput := ByteArray.empty } Invocation.loud.arguments =
        run environment Invocation.loud.arguments ∧
      run { environment with file := fun _ => .error .directory } Invocation.piped.arguments =
        run environment Invocation.piped.arguments ∧
      (run environment Invocation.quiet.arguments).AgreesWith
        (run environment Invocation.loud.arguments) ∧
      (run environment ["-vv".toList, "--json".toList, "a".toList, "--json".toList,
        "--verbose".toList, "--".toList]).IsMisuse ∧
      (run environment ["-vv".toList, "--json".toList, "a".toList, "--verbose".toList,
        "--".toList, "--json".toList]).IsMisuse := by
  intro environment
  obtain ⟨isRun, agrees, named, _, verbose, secondSwitch, secondFile⟩ :=
    invocations_agree Invocation.loud environment
  obtain ⟨_, _, _, unnamed, _⟩ := invocations_agree Invocation.piped environment
  refine ⟨isRun, ?_, ?_, ?_, ?_, ?_, ?_⟩
  · exact agrees Invocation.piped environment (by decide) (by decide) rfl
  · exact named ['a'] _ rfl rfl
  · exact unnamed _ rfl rfl
  · exact verbose Invocation.quiet (by decide) rfl
  · exact secondSwitch .json (by decide) (by decide) _
      ⟨["-vv".toList, "--json".toList, "a".toList], ["--verbose".toList, "--".toList],
        by decide, rfl, rfl⟩
  · exact secondFile (by decide) "--json".toList _
      ⟨["-vv".toList, "--json".toList, "a".toList, "--verbose".toList, "--".toList], [],
        .inl (by decide), rfl, rfl⟩

end CommentBlock.CommandLine
