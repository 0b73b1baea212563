import Mathlib.Data.List.Induction
import Mathlib.Tactic.MkIffOfInductiveProp
import CommentBlock.Proofs.Arguments

/-!
# Choices in any order

Choices are made one after the other, but what they come to does not depend on their order.
They are accepted exactly if each of them is understood and asks for a run, JSON and lenient
parsing are chosen once at most, and one file at most is named. Then the options say which of
the two switches are among the choices, how often more log output is asked for, and which
file is named.

If choices are refused, the call is a misuse, unless one of them asks for the version or for
help. So arguments that ask for a run become a misuse with one more choice that does not go
with theirs, wherever the argument is put in.
-/

namespace CommentBlock.CommandLine

/-- Whether the second arguments are the first ones with the name of a file, which stands
behind two hyphens or is not taken for a switch. -/
def PutsInFile (name : Text) (arguments extended : List Text) : Prop :=
  ∃ front back, (['-', '-'] ∈ front ∨ (name.head? = some '-' → name = ['-'])) ∧
    arguments = front ++ back ∧ extended = front ++ name :: back

namespace Choice

/-- The name of the file that is chosen, if one is. -/
def file? : Choice → Option Text
  | .file name => some name
  | .switch _ => none

/-- Whether the choice can be part of a run: a switch that is for runs, or a file with a
name. -/
def IsForRun : Choice → Prop
  | .switch (some .json) | .switch (some .lenient) | .switch (some .verbose) => True
  | .switch _ => False
  | .file name => name ≠ []

/-- Whether the choice asks for the version or for help. -/
def AsksAboutProgram (choice : Choice) : Prop :=
  choice = .switch (some .version) ∨ choice = .switch (some .help)

/-- Whether the choices can be made together, in whichever order. -/
@[mk_iff]
structure AreCompatible (choices : List Choice) : Prop where
  forRun : ∀ choice ∈ choices, choice.IsForRun
  jsonOnce : choices.count (.switch (some .json)) ≤ 1
  lenientOnce : choices.count (.switch (some .lenient)) ≤ 1
  oneFile : (choices.filterMap file?).length ≤ 1

/-- The order of the choices does not matter. -/
theorem AreCompatible.perm (choices others : List Choice) (reordered : choices.Perm others)
    (compatible : AreCompatible choices) : AreCompatible others where
  forRun choice chosen := compatible.forRun choice (reordered.mem_iff.mpr chosen)
  jsonOnce := reordered.count_eq _ ▸ compatible.jsonOnce
  lenientOnce := reordered.count_eq _ ▸ compatible.lenientOnce
  oneFile := (reordered.filterMap file?).length_eq ▸ compatible.oneFile

/-- Neither JSON nor lenient parsing can be chosen twice. -/
theorem not_areCompatible_twice (choice : Choice) (choices : List Choice)
    (once : choice ∈ [.switch (some .json), .switch (some .lenient)]) (again : choice ∈ choices) :
    ¬ AreCompatible (choice :: choices) := by
  intro compatible
  have twice : 2 ≤ (choice :: choices).count choice := by
    rw [List.count_cons_self]
    have atLeastOnce : 0 < choices.count choice := List.count_pos_iff.mpr again
    omega
  obtain rfl | rfl : choice = .switch (some .json) ∨ choice = .switch (some .lenient) := by
    simpa using once
  · exact absurd compatible.jsonOnce (by omega)
  · exact absurd compatible.lenientOnce (by omega)

/-- No second file can be chosen. -/
theorem not_areCompatible_secondFile (name : Text) (choices : List Choice)
    (chosen : choices.filterMap file? ≠ []) : ¬ AreCompatible (.file name :: choices) := by
  intro compatible
  have atMostOne : (choices.filterMap file?).length + 1 ≤ 1 := compatible.oneFile
  exact chosen (List.eq_nil_of_length_eq_zero (by omega))

/-- A choice for a run does not ask about the program. -/
theorem IsForRun.not_asksAboutProgram (choice : Choice) (forRun : choice.IsForRun) :
    ¬ choice.AsksAboutProgram := by
  rintro (rfl | rfl) <;> exact forRun

/-- An argument with a single choice that is put in adds its choice to the others. -/
theorem ofArguments_of_putsIn (argument : Text) (choice : Choice) (arguments extended : List Text)
    (makes : ofArgument argument = [choice]) (differs : argument ≠ ['-', '-'])
    (put : PutsIn argument arguments extended) :
    (ofArguments extended).Perm (choice :: ofArguments arguments) := by
  obtain ⟨front, back, before, rfl, rfl⟩ := put
  rw [ofArguments_append _ _ before, ofArguments_append _ _ before, ofArguments_cons _ _ differs,
    makes]
  exact List.perm_middle

/-- Two hyphens make file names of all that follows them. -/
theorem ofArguments_append_hyphens (front names : List Text) (before : ['-', '-'] ∉ front) :
    ofArguments (front ++ ['-', '-'] :: names) = ofArguments front ++ names.map .file := by
  rw [ofArguments_append _ _ before]
  rfl

/-- A name that is not taken for a switch chooses the file. -/
theorem ofArgument_file (name : Text) (isNoSwitch : name.head? = some '-' → name = ['-']) :
    ofArgument name = [.file name] := by
  unfold ofArgument
  split
  · cases isNoSwitch rfl
  · cases isNoSwitch rfl
  · rfl

/-- The name of a file that is put in adds the choice of this file to the others. -/
theorem ofArguments_of_putsInFile (name : Text) (arguments extended : List Text)
    (put : PutsInFile name arguments extended) :
    (ofArguments extended).Perm (.file name :: ofArguments arguments) := by
  obtain ⟨front, back, place, rfl, rfl⟩ := put
  by_cases closed : ['-', '-'] ∈ front
  · obtain ⟨ahead, names, rfl, before⟩ := List.eq_append_cons_of_mem closed
    rw [List.append_assoc, List.append_assoc, List.cons_append, List.cons_append,
      ofArguments_append_hyphens _ _ before, ofArguments_append_hyphens _ _ before,
      List.map_append, List.map_append, List.map_cons, ← List.append_assoc, ← List.append_assoc]
    exact List.perm_middle
  · have isNoSwitch := place.resolve_left closed
    have differs : name ≠ ['-', '-'] := by
      rintro rfl
      cases isNoSwitch rfl
    exact ofArguments_of_putsIn name _ _ _ (ofArgument_file name isNoSwitch) differs
      ⟨front, back, closed, rfl, rfl⟩

end Choice

namespace Options

/-- What compatible choices come to. -/
def ofChoices (choices : List Choice) : Options where
  json := decide (.switch (some .json) ∈ choices)
  lenient := decide (.switch (some .lenient) ∈ choices)
  verbosity := .ofNat (min (choices.count (.switch (some .verbose))) 255)
  file := (choices.filterMap Choice.file?).head?

/-- Whether the choice can be made behind others that come to these options. -/
def Admits (options : Options) : Choice → Prop
  | .switch (some .json) => options.json = false
  | .switch (some .lenient) => options.lenient = false
  | .switch (some .verbose) => True
  | .switch _ => False
  | .file name => name ≠ [] ∧ options.file = none

/-- Counting on stops where a byte does. -/
theorem countOn_ofNat (asked : Nat) :
    countOn (.ofNat (min asked 255)) = .ofNat (min (asked + 1) 255) := by
  by_cases below : asked < 255
  · have notLast : UInt8.ofNat asked ≠ 255 := by
      intro last
      have sameNumber := congrArg UInt8.toNat last
      rw [UInt8.toNat_ofNat_of_lt' (Nat.lt_succ_of_lt below)] at sameNumber
      exact absurd sameNumber (Nat.ne_of_lt below)
    rw [Nat.min_eq_left (by omega), Nat.min_eq_left (by omega), countOn, if_neg notLast,
      UInt8.ofNat_add]
    rfl
  · rw [Nat.min_eq_right (by omega), Nat.min_eq_right (by omega)]
    rfl

/-- One choice is accepted behind others exactly if it is admitted, and it adds itself. -/
theorem choose_ofChoices_eq_ok_iff (choices : List Choice) (choice : Choice) (next : Options) :
    (ofChoices choices).choose choice = .ok next ↔
      (ofChoices choices).Admits choice ∧ next = ofChoices (choices ++ [choice]) := by
  cases choice with
  | file name =>
    by_cases named : name = []
    · simp [choose, setFile, Admits, named]
    · cases chosen : choices.filterMap Choice.file? with
      | nil => simp [choose, setFile, Admits, ofChoices, Choice.file?, named, chosen, eq_comm]
      | cons first rest => simp [choose, setFile, Admits, ofChoices, named, chosen]
  | switch known =>
    cases known with
    | none => simp [choose, set?, Admits]
    | some switch =>
      cases switch with
      | json =>
        by_cases chosen : .switch (some .json) ∈ choices <;>
          simp [choose, set?, set, Admits, ofChoices, chosen, Choice.file?, eq_comm]
      | lenient =>
        by_cases chosen : .switch (some .lenient) ∈ choices <;>
          simp [choose, set?, set, Admits, ofChoices, chosen, Choice.file?, eq_comm]
      | verbose => simp [choose, set?, set, Admits, ofChoices, Choice.file?, countOn_ofNat, eq_comm]
      | version | help => simp [choose, set?, set, Admits]

/-- Choices are compatible with one more exactly if it is admitted behind them. -/
theorem areCompatible_concat_iff (choices : List Choice) (choice : Choice) :
    Choice.AreCompatible (choices ++ [choice]) ↔
      Choice.AreCompatible choices ∧ (ofChoices choices).Admits choice := by
  have json : (ofChoices choices).json = false ↔ choices.count (.switch (some .json)) = 0 := by
    simp [ofChoices, List.count_eq_zero]
  have lenient : (ofChoices choices).lenient = false ↔
      choices.count (.switch (some .lenient)) = 0 := by
    simp [ofChoices, List.count_eq_zero]
  have file : (ofChoices choices).file = none ↔
      (choices.filterMap Choice.file?).length = 0 := by
    simp [ofChoices]
  rw [Choice.areCompatible_iff, Choice.areCompatible_iff, List.forall_mem_append,
    List.forall_mem_singleton, List.count_append, List.count_append, List.filterMap_append,
    List.length_append]
  generalize (∀ earlier ∈ choices, earlier.IsForRun) = allForRun
  cases choice with
  | file name =>
    have oneName : ([Choice.file name].filterMap Choice.file?).length = 1 := rfl
    rw [oneName]
    simp only [Admits, file, Choice.IsForRun, List.count_singleton]
    grind
  | switch known =>
    have noName : ([Choice.switch known].filterMap Choice.file?).length = 0 := rfl
    rw [noName]
    cases known with
    | none => simp [Choice.IsForRun, Admits]
    | some switch =>
      cases switch with
      | json =>
        simp only [Admits, json, Choice.IsForRun, List.count_singleton]
        grind
      | lenient =>
        simp only [Admits, lenient, Choice.IsForRun, List.count_singleton]
        grind
      | verbose => simp [Choice.IsForRun, Admits]
      | version | help => simp [Choice.IsForRun, Admits]

/-- Choices are accepted exactly if they are compatible.

Proof: by induction on the choices from the last one. The options in front of it are those
that the others come to. -/
theorem foldlM_choose_eq_ok_iff (choices : List Choice) (options : Options) :
    choices.foldlM choose {} = .ok options ↔
      Choice.AreCompatible choices ∧ options = ofChoices choices := by
  induction choices using List.reverseRecOn generalizing options with
  | nil =>
    have compatible : Choice.AreCompatible [] := ⟨by simp, by simp, by simp, by simp⟩
    simp [compatible, pure, Except.pure, ofChoices, eq_comm]
  | append_singleton choices choice inductionHypothesis =>
    rw [List.foldlM_append, areCompatible_concat_iff]
    constructor
    · intro accepted
      obtain ⟨middle, front, last⟩ := exists_of_bind_eq_ok _ _ options accepted
      obtain ⟨compatible, rfl⟩ := (inductionHypothesis middle).mp front
      simp only [List.foldlM_cons, List.foldlM_nil, bind_pure] at last
      obtain ⟨admitted, same⟩ := (choose_ofChoices_eq_ok_iff choices choice options).mp last
      exact ⟨⟨compatible, admitted⟩, same⟩
    · rintro ⟨⟨compatible, admitted⟩, same⟩
      rw [(inductionHypothesis _).mpr ⟨compatible, rfl⟩]
      change [choice].foldlM choose (ofChoices choices) = _
      simp only [List.foldlM_cons, List.foldlM_nil, bind_pure]
      exact (choose_ofChoices_eq_ok_iff choices choice options).mpr ⟨admitted, same⟩

/-- A choice that does not ask about the program is accepted or a misuse. -/
theorem choose_eq_error (options : Options) (choice : Choice) (request : Request)
    (forRun : ¬ choice.AsksAboutProgram) (refused : options.choose choice = .error request) :
    request = .misuse := by
  cases choice with
  | file name =>
    simp only [choose, setFile] at refused
    split at refused
    · exact (Except.error.inj refused).symm
    · cases refused
  | switch known =>
    cases known with
    | none => exact (Except.error.inj refused).symm
    | some switch =>
      cases switch with
      | version => exact absurd (.inl rfl) forRun
      | help => exact absurd (.inr rfl) forRun
      | verbose => cases refused
      | json | lenient =>
        simp only [choose, set?, set] at refused
        split at refused
        · exact (Except.error.inj refused).symm
        · cases refused

/-- The same for choices one after the other. -/
theorem foldlM_choose_eq_error (options : Options) (choices : List Choice) (request : Request)
    (forRun : ∀ choice ∈ choices, ¬ choice.AsksAboutProgram)
    (refused : choices.foldlM choose options = .error request) : request = .misuse := by
  induction choices generalizing options with
  | nil => cases refused
  | cons choice rest inductionHypothesis =>
    obtain ⟨first, others⟩ := List.forall_mem_cons.mp forRun
    rw [List.foldlM_cons] at refused
    cases chosen : options.choose choice with
    | error own =>
      rw [chosen] at refused
      obtain rfl : own = request := Except.error.inj refused
      exact choose_eq_error options choice own first chosen
    | ok middle =>
      rw [chosen] at refused
      exact inductionHypothesis middle others refused

end Options

namespace Request

/-- The arguments ask for a run exactly if their choices are compatible, and for the run that
these come to. -/
theorem ofArguments_eq_run_iff_areCompatible (arguments : List Text) (options : Options) :
    ofArguments arguments = .run options ↔
      Choice.AreCompatible (Choice.ofArguments arguments) ∧
        options = Options.ofChoices (Choice.ofArguments arguments) := by
  rw [ofArguments_eq_run_iff, Options.foldlM_choose_eq_ok_iff]

/-- Choices that are not compatible are a misuse if none of them asks about the program. -/
theorem ofArguments_eq_misuse (arguments : List Text)
    (forRun : ∀ choice ∈ Choice.ofArguments arguments, ¬ choice.AsksAboutProgram)
    (incompatible : ¬ Choice.AreCompatible (Choice.ofArguments arguments)) :
    ofArguments arguments = .misuse := by
  rw [ofArguments, Options.takeAll_eq]
  cases result : (Choice.ofArguments arguments).foldlM Options.choose {} with
  | ok options => exact absurd ((Options.foldlM_choose_eq_ok_iff _ _).mp result).1 incompatible
  | error request => exact Options.foldlM_choose_eq_error {} _ request forRun result

/-- If arguments ask for a run and one more choice does not go with theirs, they are a misuse
with this choice, unless it asks about the program. -/
theorem ofArguments_eq_misuse_of_added (arguments extended : List Text) (choice : Choice)
    (compatible : Choice.AreCompatible (Choice.ofArguments arguments))
    (added : (Choice.ofArguments extended).Perm (choice :: Choice.ofArguments arguments))
    (forRun : ¬ choice.AsksAboutProgram)
    (clash : ¬ Choice.AreCompatible (choice :: Choice.ofArguments arguments)) :
    ofArguments extended = .misuse := by
  apply ofArguments_eq_misuse
  · intro other chosen
    obtain rfl | earlier := List.mem_cons.mp (added.mem_iff.mp chosen)
    · exact forRun
    · exact Choice.IsForRun.not_asksAboutProgram other (compatible.forRun other earlier)
  · intro together
    exact clash (Choice.AreCompatible.perm _ _ added together)

end Request

end CommentBlock.CommandLine
