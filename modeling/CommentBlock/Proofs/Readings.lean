import CommentBlock.Comment.Reading
import CommentBlock.Comment.Source
import CommentBlock.Proofs.Words

/-!
# Readings of written lines

The line of a tag is read as that tag. The lines that only frame a block carry
nothing. A line of a description that is put behind a star is read by its own
words alone, and its first word decides how: without an at sign it is prose, with
an unknown name it carries nothing, and with the name of a kind it holds a tag or
a fault.

Words that stand in the place of fields are usable with two exceptions. There may
be too few of them, and a lone dollar sign is not the name of a variable.
-/

namespace CommentBlock

namespace Text

/-- Leaving out a dollar sign adds no character. -/
theorem mem_of_mem_withoutDollar (text : Text) (c : Char) (member : c ∈ text.withoutDollar) :
    c ∈ text := by
  unfold withoutDollar at member
  split at member
  · exact List.mem_cons_of_mem '$' member
  · exact member

/-- Nothing is left without a dollar sign of the empty text and of a lone one. -/
theorem withoutDollar_eq_nil_iff (text : Text) :
    text.withoutDollar = [] ↔ text = [] ∨ text = ['$'] := by
  unfold withoutDollar
  split
  · simp
  · rename_i other
    constructor
    · exact .inl
    · rintro (empty | dollar)
      · exact empty
      · exact (other [] dollar).elim

end Text

namespace Word

/-- The word less one dollar sign at its front, if anything is left of it. -/
def withoutDollar? (word : Word) : Option Word :=
  if nothing : word.chars.withoutDollar.isEmpty = true then none
  else some {
    chars := word.chars.withoutDollar
    nonempty := by simpa using nothing
    solid := fun c member => word.solid c (Text.mem_of_mem_withoutDollar word.chars c member) }

/-- Only of a lone dollar sign nothing is left. -/
theorem withoutDollar?_eq_none_iff (word : Word) :
    word.withoutDollar? = none ↔ word.chars = ['$'] := by
  simp [withoutDollar?, Text.withoutDollar_eq_nil_iff, word.nonempty]

/-- Of a spelled name the name is left, with any further dollar signs. -/
theorem withoutDollar?_spelled (name : Word) :
    (name.cons '$' isBlank_dollar).withoutDollar? = some name := by
  have left : ¬ (name.cons '$' isBlank_dollar).chars.withoutDollar.isEmpty = true := by
    simpa [cons, Text.withoutDollar] using name.nonempty
  rw [withoutDollar?, dif_neg left]
  rfl

end Word

namespace Field

/-- A word is a usable value of every field, and the one that is read. -/
theorem read_chars (field : Field) (kind : Kind) (word : Word) :
    field.read kind word.chars = .ok word := by
  rw [read, Text.words_chars]

/-- The name that is read from a word is what is left of it without a dollar sign;
if nothing is left, the name is missing. -/
theorem readName_chars (kind : Kind) (word : Word) :
    readName kind word.chars =
      match word.withoutDollar? with
      | some name => .ok name
      | none => .error (.missing kind .variableName) := by
  rw [readName, Text.trim_of_solid _ word.solid]
  cases left : word.withoutDollar? with
  | none =>
    rw [(word.withoutDollar?_eq_none_iff).mp left]
    rfl
  | some name =>
    have same : word.chars.withoutDollar = name.chars := by
      unfold Word.withoutDollar? at left
      split at left
      · cases left
      · exact congrArg Word.chars (Option.some.inj left)
    rw [same]
    exact read_chars .variableName kind name

end Field

/-- The variable with a type, a name less its dollar sign, and a description, each of
them given by words. -/
def Variable.ofWords? : List Word → Option Variable
  | type :: name :: description => name.withoutDollar?.map fun name => ⟨type, name, description⟩
  | _ => none

/-- The outcome with a type and a description given by words. -/
def Outcome.ofWords? : List Word → Option Outcome
  | type :: description => some ⟨type, description⟩
  | [] => none

namespace Variable

/-- Only a lone dollar sign in the place of the name makes no variable. -/
theorem ofWords?_eq_none_iff (type name : Word) (description : Phrase) :
    ofWords? (type :: name :: description) = none ↔ name.chars = ['$'] := by
  rw [ofWords?, Option.map_eq_none_iff, Word.withoutDollar?_eq_none_iff]

/-- The words of a variable make it up again. -/
theorem ofWords?_words (binding : Variable) : ofWords? binding.words = some binding := by
  rw [words, ofWords?, spelled, Word.withoutDollar?_spelled]
  rfl

/-- Words that are given as fields make up what they make up as words. If that is
nothing, the name is missing. -/
theorem ofFields_words (kind : Kind) (type name : Word) (description : Phrase) :
    ofFields kind type.chars name.chars description.text =
      match ofWords? (type :: name :: description) with
      | some binding => .ok binding
      | none => .error (.missing kind .variableName) := by
  rw [ofFields, Field.read_chars, Field.readName_chars, Phrase.words_text, ofWords?]
  cases name.withoutDollar? <;> rfl

/-- The fields of a variable whose words are given make it up again. -/
theorem ofFields_spelled (kind : Kind) (binding : Variable) :
    ofFields kind binding.type.chars binding.spelled.chars binding.description.text =
      .ok binding := by
  have again : ofWords? (binding.type :: binding.spelled :: binding.description) = some binding :=
    ofWords?_words binding
  rw [ofFields_words, again]

end Variable

/-- The fields of an outcome whose words are given make it up again. -/
theorem Outcome.ofFields_words (kind : Kind) (type : Word) (description : Phrase) :
    Outcome.ofFields kind type.chars description.text = .ok ⟨type, description⟩ := by
  rw [ofFields, Field.read_chars, Phrase.words_text]
  rfl

/-- The name of a kind stands for that kind. -/
theorem Kind.ofName?_name (kind : Kind) : Kind.ofName? kind.name = some kind := by
  cases kind <;> rfl

namespace Reading

/-- The field words of a tag are read as that tag. -/
theorem ofFields_words (tag : Tag) : ofFields tag.kind tag.words = .tag tag := by
  cases tag with
  | var binding =>
    have same := Variable.ofFields_spelled .var binding
    simp [Tag.kind, Tag.words, Variable.words, ofFields, Draft.ofWords?, Draft.build, same]
  | param binding =>
    have same := Variable.ofFields_spelled .param binding
    simp [Tag.kind, Tag.words, Variable.words, ofFields, Draft.ofWords?, Draft.build, same]
  | returns outcome =>
    simp [Tag.kind, Tag.words, Outcome.words, ofFields, Draft.ofWords?, Draft.build,
      Outcome.ofFields_words]
  | throws outcome =>
    simp [Tag.kind, Tag.words, Outcome.words, ofFields, Draft.ofWords?, Draft.build,
      Outcome.ofFields_words]
  | author value | license value | package value =>
    simp [Tag.kind, Tag.words, ofFields, Draft.ofWords?, Draft.build, Phrase.words_text]
  | access level =>
    simp [Tag.kind, Tag.words, ofFields, Draft.ofWords?, Draft.build, Field.read_chars]

/-- Behind a star, the sign of a kind leads to the fields of a tag of that kind. -/
theorem ofStarred_sign (kind : Kind) (fields : List Word) :
    ofStarred (kind.sign :: fields) = ofFields kind fields := by
  simp [ofStarred, Kind.sign, Word.ofChars, Kind.ofName?_name]

/-- The words of a tag's line are the star, the sign and the words of its fields. -/
theorem words_tag_line (tag : Tag) :
    Text.words tag.line.chars = .star :: tag.kind.sign :: tag.words := by
  change Text.words (' ' :: Phrase.text (.star :: tag.kind.sign :: tag.words)) = _
  rw [Text.words_cons_blank ' ' _ rfl, Phrase.words_text]

/-- A line whose first word is the star is read by its other words. -/
theorem ofWords_star (rest : List Word) : ofWords (.star :: rest) = ofStarred rest := by
  simp [ofWords]

/-- The line of a tag is read as that tag. -/
theorem ofLine_tag_line (tag : Tag) : ofLine tag.line = .tag tag := by
  rw [ofLine, words_tag_line, ofWords_star, ofStarred_sign, ofFields_words]

/-- A line behind a star is read by its own words. -/
theorem ofLine_starred (line : Line) :
    ofLine line.starred = ofStarred (Text.words line.chars) := by
  rw [Line.starred]
  by_cases noChars : line.chars.isEmpty = true
  · rw [if_pos noChars, List.isEmpty_iff.mp noChars]
    rfl
  · rw [if_neg noChars]
    change ofWords (Text.words ([' ', '*'] ++ ' ' :: line.chars)) = _
    rw [Text.words_append_blank _ _ ' ' rfl]
    exact ofWords_star (Text.words line.chars)

/-- The empty line in front of a block carries nothing. -/
theorem ofLine_empty : ofLine .empty = .nothing := rfl

/-- The opening line carries nothing. -/
theorem ofLine_opening : ofLine .opening = .nothing := rfl

/-- A bare line carries nothing. -/
theorem ofLine_bare : ofLine .bare = .nothing := rfl

/-- The closing line carries nothing. -/
theorem ofLine_closing : ofLine .closing = .nothing := rfl

end Reading

/-- Whether the word begins with an at sign. -/
def Word.beginsWithAt (word : Word) : Bool :=
  match word.chars with
  | '@' :: _ => true
  | _ => false

/-- The kind that the word names behind an at sign, in either spelling. -/
def Word.kind? (word : Word) : Option Kind :=
  match word.chars with
  | '@' :: name => Kind.ofName? name
  | _ => none

/-- Whether the first word of the phrase begins with an at sign. -/
def Phrase.beginsWithAt : Phrase → Bool
  | [] => false
  | word :: _ => word.beginsWithAt

/-- Whether the words make up the fields of a tag of the kind: they are enough, and
the second of them is not a lone dollar sign where it is the name of a variable. -/
def Kind.Accepts (kind : Kind) (fields : List Word) : Prop :=
  kind.minWords ≤ fields.length + 2 ∧
    (kind = .var ∨ kind = .param → fields[1]?.map Word.chars ≠ some ['$'])

/-- Words are refused if they are too few or if the name of a variable is missing. -/
theorem Kind.not_accepts_iff (kind : Kind) (fields : List Word) :
    ¬ kind.Accepts fields ↔ fields.length + 2 < kind.minWords ∨
      (kind = .var ∨ kind = .param) ∧ fields[1]?.map Word.chars = some ['$'] := by
  rw [Accepts, not_and_or, Nat.not_le, Classical.not_imp, not_not]

namespace Reading

/-- A word that begins with an at sign has a name behind it. -/
theorem chars_of_beginsWithAt (word : Word) (sign : word.beginsWithAt = true) :
    ∃ name, word.chars = '@' :: name := by
  unfold Word.beginsWithAt at sign
  split at sign
  · exact ⟨_, ‹_›⟩
  · exact absurd sign (by decide)

/-- A word that names a kind begins with an at sign. -/
theorem beginsWithAt_of_kind? (word : Word) (kind : Kind) (known : word.kind? = some kind) :
    word.beginsWithAt = true := by
  cases sign : word.beginsWithAt with
  | true => rfl
  | false =>
    unfold Word.beginsWithAt at sign
    unfold Word.kind? at known
    split at known <;> simp_all

/-- A first word without an at sign makes prose. -/
theorem ofStarred_prose (word : Word) (rest : List Word) (plain : word.beginsWithAt = false) :
    ofStarred (word :: rest) = .prose (word :: rest) := by
  unfold Word.beginsWithAt at plain
  unfold ofStarred
  split at plain <;> simp_all

/-- An at sign with an unknown name behind it carries nothing. -/
theorem ofStarred_unknown (word : Word) (rest : List Word) (sign : word.beginsWithAt = true)
    (unknown : word.kind? = none) : ofStarred (word :: rest) = .nothing := by
  obtain ⟨name, shape⟩ := chars_of_beginsWithAt word sign
  simp only [Word.kind?, shape] at unknown
  simp only [ofStarred, shape, unknown]

/-- An at sign with a known name behind it leads to the fields of a tag. -/
theorem ofStarred_known (word : Word) (rest : List Word) (kind : Kind)
    (known : word.kind? = some kind) : ofStarred (word :: rest) = ofFields kind rest := by
  obtain ⟨name, shape⟩ := chars_of_beginsWithAt word (beginsWithAt_of_kind? word kind known)
  simp only [Word.kind?, shape] at known
  simp only [ofStarred, shape, known]

/-- Two words of which the second is not a lone dollar sign begin a variable. -/
theorem exists_variable (fields : List Word) (enough : 2 ≤ fields.length)
    (named : fields[1]?.map Word.chars ≠ some ['$']) :
    ∃ type name description binding, fields = type :: name :: description ∧
      Variable.ofWords? (type :: name :: description) = some binding := by
  rcases fields with _ | ⟨type, _ | ⟨name, description⟩⟩
  · simp at enough
  · simp at enough
  · have other : Variable.ofWords? (type :: name :: description) ≠ none := by
      rw [Ne, Variable.ofWords?_eq_none_iff]
      simpa using named
    obtain ⟨binding, made⟩ := Option.ne_none_iff_exists'.mp other
    exact ⟨type, name, description, binding, rfl, made⟩

/-- Accepted fields make a tag of their kind. -/
theorem ofFields_of_accepts (kind : Kind) (fields : List Word) (accepts : kind.Accepts fields) :
    ∃ tag, tag.kind = kind ∧ ofFields kind fields = .tag tag := by
  obtain ⟨counted, named⟩ := accepts
  -- The star and the sign are counted as words too.
  have enough : kind.minWords - 2 ≤ fields.length := Nat.sub_le_of_le_add counted
  cases kind with
  | var =>
    obtain ⟨type, name, description, binding, rfl, made⟩ :=
      exists_variable fields enough (named (.inl rfl))
    exact ⟨.var binding, rfl, by
      simp [ofFields, Draft.ofWords?, Draft.build, Variable.ofFields_words, made]⟩
  | param =>
    obtain ⟨type, name, description, binding, rfl, made⟩ :=
      exists_variable fields enough (named (.inr rfl))
    exact ⟨.param binding, rfl, by
      simp [ofFields, Draft.ofWords?, Draft.build, Variable.ofFields_words, made]⟩
  | returns =>
    obtain ⟨type, description, rfl⟩ := List.exists_cons_of_length_pos enough
    exact ⟨.returns ⟨type, description⟩, rfl, ofFields_words (.returns ⟨type, description⟩)⟩
  | throws =>
    obtain ⟨type, description, rfl⟩ := List.exists_cons_of_length_pos enough
    exact ⟨.throws ⟨type, description⟩, rfl, ofFields_words (.throws ⟨type, description⟩)⟩
  | author => exact ⟨.author fields, rfl, ofFields_words (.author fields)⟩
  | license => exact ⟨.license fields, rfl, ofFields_words (.license fields)⟩
  | package => exact ⟨.package fields, rfl, ofFields_words (.package fields)⟩
  | access =>
    obtain ⟨level, rest, rfl⟩ := List.exists_cons_of_length_pos enough
    exact ⟨.access level, rfl, by simp [ofFields, Draft.ofWords?, Draft.build, Field.read_chars]⟩

/-- There is no draft of a tag exactly when there are too few words for its kind. -/
theorem ofWords?_eq_none_iff (kind : Kind) (fields : List Word) :
    Draft.ofWords? kind fields = none ↔ fields.length + 2 < kind.minWords := by
  rcases fields with _ | ⟨first, _ | ⟨second, rest⟩⟩ <;> cases kind <;>
    simp [Kind.minWords, Draft.ofWords?]

/-- Too few words make a fault that counts them and those that the kind needs, the star
and the sign included. -/
theorem ofFields_of_few (kind : Kind) (fields : List Word)
    (few : fields.length + 2 < kind.minWords) :
    ofFields kind fields = .fault (.tooFewWords kind kind.minWords (fields.length + 2)) := by
  rw [ofFields, (ofWords?_eq_none_iff kind fields).mpr few]

/-- A lone dollar sign in the place of the name of a variable makes a fault: the
name is missing. -/
theorem ofFields_of_nameless (kind : Kind) (fields : List Word)
    (isVariable : kind = .var ∨ kind = .param)
    (dollar : fields[1]?.map Word.chars = some ['$']) :
    ofFields kind fields = .fault (.badField (.missing kind .variableName)) := by
  rcases fields with _ | ⟨type, _ | ⟨name, description⟩⟩
  · simp at dollar
  · simp at dollar
  · have nothing : Variable.ofWords? (type :: name :: description) = none := by
      rw [Variable.ofWords?_eq_none_iff]
      simpa using dollar
    rcases isVariable with rfl | rfl <;>
      simp [ofFields, Draft.ofWords?, Draft.build, Variable.ofFields_words, nothing]

/-- Refused fields make a fault. -/
theorem ofFields_of_refused (kind : Kind) (fields : List Word) (refused : ¬ kind.Accepts fields) :
    ∃ fault, ofFields kind fields = .fault fault := by
  rcases (kind.not_accepts_iff fields).mp refused with few | ⟨isVariable, dollar⟩
  · exact ⟨_, ofFields_of_few kind fields few⟩
  · exact ⟨_, ofFields_of_nameless kind fields isVariable dollar⟩

end Reading

end CommentBlock
