import CommentBlock.CommandLine.Options

/-!
# Arguments as choices

An argument makes a choice, or several if letters share a hyphen: a switch, or a file to
read. What the arguments add to the options is what their choices add, one after the other.
A list of arguments has the choices of its parts, unless two hyphens stand in the first one.

The switches for JSON and for lenient parsing can be set once, and nothing else depends on
them. So if arguments are accepted and leave such a switch alone, it may be put anywhere
among them, in front of two hyphens, and only this switch is then different.
-/

namespace CommentBlock.CommandLine

/-- What is chosen at a time: a switch, if it is a known one, or a file to read. -/
inductive Choice where
  | switch (switch : Option Switch)
  | file (name : Text)
  deriving DecidableEq

namespace Choice

/-- The choices that an argument makes in front of two hyphens. -/
def ofArgument : Text → List Choice
  | '-' :: '-' :: name => [.switch (Switch.ofName? name)]
  | '-' :: letter :: letters =>
    (letter :: letters).map fun letter => .switch (Switch.ofLetter? letter)
  | name => [.file name]

/-- The choices that the arguments make. -/
def ofArguments : List Text → List Choice
  | [] => []
  | ['-', '-'] :: names => names.map .file
  | argument :: rest => ofArgument argument ++ ofArguments rest

/-- Another argument than two hyphens makes its choices in front of those that follow. -/
theorem ofArguments_cons (argument : Text) (rest : List Text) (differs : argument ≠ ['-', '-']) :
    ofArguments (argument :: rest) = ofArgument argument ++ ofArguments rest := by
  rw [ofArguments]
  exact differs

/-- Arguments make their choices one after the other, up to two hyphens. -/
theorem ofArguments_append (front back : List Text) (before : ['-', '-'] ∉ front) :
    ofArguments (front ++ back) = ofArguments front ++ ofArguments back := by
  induction front with
  | nil => rfl
  | cons argument rest inductionHypothesis =>
    have differs : argument ≠ ['-', '-'] := fun same => before (same ▸ List.mem_cons_self)
    have later : ['-', '-'] ∉ rest := fun inside => before (List.mem_cons_of_mem argument inside)
    rw [List.cons_append, ofArguments_cons _ _ differs, ofArguments_cons _ _ differs,
      inductionHypothesis later, List.append_assoc]

end Choice

namespace Options

/-- The options with what a choice adds. -/
def choose (options : Options) : Choice → Except Request Options
  | .switch switch => options.set? switch
  | .file name => options.setFile name

/-- An argument adds what its choices add. -/
theorem take_eq (options : Options) (argument : Text) :
    options.take argument = (Choice.ofArgument argument).foldlM choose options := by
  unfold take Choice.ofArgument
  split
  · simp [choose]
  · simp [setLetters, List.foldlM_map, choose]
  · simp [choose]

/-- The arguments add what their choices add. -/
theorem takeAll_eq (options : Options) (arguments : List Text) :
    options.takeAll arguments = (Choice.ofArguments arguments).foldlM choose options := by
  induction arguments generalizing options with
  | nil => rfl
  | cons argument rest inductionHypothesis =>
    by_cases hyphens : argument = ['-', '-']
    · subst hyphens
      simp [takeAll, Choice.ofArguments, List.foldlM_map, choose]
    · rw [Choice.ofArguments_cons _ _ hyphens, List.foldlM_append, ← take_eq]
      rw [takeAll]
      · cases options.take argument with
        | error request => rfl
        | ok next => exact inductionHypothesis next
      · exact hyphens

/-- Whether the switch is one that can be set only once and is not set. -/
def leavesOff (options : Options) : Switch → Bool
  | .json => !options.json
  | .lenient => !options.lenient
  | _ => false

/-- The options with the switch set, if it is one that can be set only once. -/
def raise (options : Options) : Switch → Options
  | .json => { options with json := true }
  | .lenient => { options with lenient := true }
  | _ => options

/-- A switch that is left off can be set. -/
theorem set_of_leavesOff (options : Options) (switch : Switch)
    (off : options.leavesOff switch = true) : options.set switch = .ok (options.raise switch) := by
  cases switch <;> simp_all [leavesOff, set, raise]

/-- A choice that leaves a switch off had it off before, and is accepted in the same way if
the switch is set already. -/
theorem choose_raise (options next : Options) (choice : Choice) (switch : Switch)
    (chosen : options.choose choice = .ok next) (off : next.leavesOff switch = true) :
    options.leavesOff switch = true ∧
      (options.raise switch).choose choice = .ok (next.raise switch) := by
  cases choice with
  | file name =>
    simp only [choose, setFile] at chosen ⊢
    split at chosen
    · cases chosen
    · cases chosen
      cases switch <;> simp_all [leavesOff, raise]
  | switch known =>
    cases known with
    | none => cases chosen
    | some known =>
      simp only [choose, set?] at chosen ⊢
      cases known with
      | version | help => cases chosen
      | verbose =>
        cases chosen
        cases switch <;> simp_all [leavesOff, raise, set]
      | json | lenient =>
        simp only [set] at chosen ⊢
        split at chosen
        · cases chosen
        · cases chosen
          cases switch <;> simp_all [leavesOff, raise]

/-- What is added in two steps is accepted if both steps are. -/
theorem exists_of_bind_eq_ok (first : Except Request Options)
    (next : Options → Except Request Options) (last : Options)
    (accepted : first >>= next = .ok last) :
    ∃ middle, first = .ok middle ∧ next middle = .ok last := by
  cases first with
  | error request => cases accepted
  | ok middle => exact ⟨middle, rfl, accepted⟩

/-- The same as `choose_raise` for choices one after the other.

Proof: by induction on the choices. Only of the result it is known that the switch is off,
so this passes from the last choice to the first. -/
theorem foldlM_choose_raise (options next : Options) (choices : List Choice) (switch : Switch)
    (chosen : choices.foldlM choose options = .ok next) (off : next.leavesOff switch = true) :
    options.leavesOff switch = true ∧
      choices.foldlM choose (options.raise switch) = .ok (next.raise switch) := by
  induction choices generalizing options with
  | nil =>
    cases chosen
    exact ⟨off, rfl⟩
  | cons choice rest inductionHypothesis =>
    rw [List.foldlM_cons] at chosen ⊢
    obtain ⟨middle, first, later⟩ := exists_of_bind_eq_ok _ _ next chosen
    obtain ⟨middleOff, laterRaised⟩ := inductionHypothesis middle later
    obtain ⟨before, firstRaised⟩ := choose_raise options middle choice switch first middleOff
    refine ⟨before, ?_⟩
    rw [firstRaised]
    exact laterRaised

/-- A choice that is not accepted settles the matter without a run. -/
theorem choose_ne_run (options chosen : Options) (choice : Choice) :
    options.choose choice ≠ .error (.run chosen) := by
  cases choice with
  | file name =>
    simp only [choose, setFile]
    split <;> simp
  | switch known =>
    cases known with
    | none => simp [choose, set?]
    | some known =>
      cases known with
      | verbose | version | help => simp [choose, set?, set]
      | json | lenient =>
        simp only [choose, set?, set]
        split <;> simp

/-- The same for choices one after the other. -/
theorem foldlM_choose_ne_run (options chosen : Options) (choices : List Choice) :
    choices.foldlM choose options ≠ .error (.run chosen) := by
  induction choices generalizing options with
  | nil => simp [pure, Except.pure]
  | cons choice rest inductionHypothesis =>
    rw [List.foldlM_cons]
    cases first : options.choose choice with
    | error request =>
      intro same
      cases same
      exact choose_ne_run options chosen choice first
    | ok middle => exact inductionHypothesis middle

end Options

/-- Whether the second arguments are the first ones with one more, which stands in front of
two hyphens. -/
def PutsIn (argument : Text) (arguments extended : List Text) : Prop :=
  ∃ front back, ['-', '-'] ∉ front ∧ arguments = front ++ back ∧
    extended = front ++ argument :: back

namespace Request

/-- The arguments ask for a run exactly when all their choices are accepted. -/
theorem ofArguments_eq_run_iff (arguments : List Text) (options : Options) :
    ofArguments arguments = .run options ↔
      (Choice.ofArguments arguments).foldlM Options.choose {} = .ok options := by
  rw [ofArguments, Options.takeAll_eq]
  cases result : (Choice.ofArguments arguments).foldlM Options.choose {} with
  | error request =>
    simp only [reduceCtorEq, iff_false]
    intro same
    subst same
    exact Options.foldlM_choose_ne_run _ _ _ result
  | ok chosen => simp

/-- A switch that accepted arguments leave off may be put anywhere in front of two hyphens.
The options are then those with the switch set. -/
theorem ofArguments_of_putsIn (argument : Text) (switch : Switch) (arguments extended : List Text)
    (options : Options) (sets : Choice.ofArgument argument = [.switch (some switch)])
    (off : options.leavesOff switch = true) (accepted : ofArguments arguments = .run options)
    (put : PutsIn argument arguments extended) :
    ofArguments extended = .run (options.raise switch) := by
  obtain ⟨front, back, before, rfl, rfl⟩ := put
  have differs : argument ≠ ['-', '-'] := by
    intro same
    subst same
    cases sets
  rw [ofArguments_eq_run_iff, Choice.ofArguments_append _ _ before, List.foldlM_append] at accepted
  rw [ofArguments_eq_run_iff, Choice.ofArguments_append _ _ before, List.foldlM_append,
    Choice.ofArguments_cons _ _ differs, sets]
  obtain ⟨middle, ahead, behind⟩ := Options.exists_of_bind_eq_ok _ _ options accepted
  obtain ⟨middleOff, raised⟩ := Options.foldlM_choose_raise middle options _ switch behind off
  rw [ahead]
  change middle.set switch >>= _ = _
  rw [Options.set_of_leavesOff middle switch middleOff]
  exact raised

end Request

end CommentBlock.CommandLine
