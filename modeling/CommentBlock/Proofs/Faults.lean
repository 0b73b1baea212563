import CommentBlock.Proofs.Readings

/-!
# Faults of lines

Whether a line has a fault, and which, is told by its words at fixed positions. The
star stands at position zero and the sign at position one; required fields follow,
and free text takes the rest. A line with a known sign has a fault if it has fewer
words than its kind needs, or if a lone dollar sign stands in the place of the name
of a variable. It has no other, since any other word is a usable value of every
field that is read from it.

A line with enough words has a word at each position from which a field is taken,
and its free text begins at the latest behind its last word.
-/

namespace CommentBlock

/-- A name stands for a kind exactly when it is one of the spellings of the kind. -/
theorem Kind.ofName?_eq_some_iff (name : Text) (kind : Kind) :
    Kind.ofName? name = some kind ↔ (name, kind) ∈ Kind.spellings := by
  constructor
  · intro found
    obtain ⟨front, back, split, _⟩ := List.lookup_eq_some_iff.mp found
    rw [split]
    exact List.mem_append_right front List.mem_cons_self
  · intro spelled
    simp only [spellings, all, List.map_cons, List.map_nil, List.cons_append, List.nil_append,
      List.mem_cons, Prod.mk.injEq, List.not_mem_nil, or_false] at spelled
    rcases spelled with ⟨rfl, rfl⟩ | ⟨rfl, rfl⟩ | ⟨rfl, rfl⟩ | ⟨rfl, rfl⟩ | ⟨rfl, rfl⟩ |
      ⟨rfl, rfl⟩ | ⟨rfl, rfl⟩ | ⟨rfl, rfl⟩ | ⟨rfl, rfl⟩ <;> rfl

/-- The fields that stand behind the sign of the kind, one word each. -/
def Kind.requiredFields : Kind → List Field
  | .var | .param => [.type, .variableName]
  | .returns | .throws => [.type]
  | .author | .license | .package => []
  | .access => [.level]

/-- A line needs a star, a sign and a word for each required field. -/
theorem Kind.minWords_eq (kind : Kind) : kind.minWords = kind.requiredFields.length + 2 := by
  cases kind <;> rfl

namespace Word

/-- Only the star has the character of the star. -/
theorem eq_star_iff (word : Word) : word = star ↔ word.chars = ['*'] := by
  obtain ⟨chars, nonempty, solid⟩ := word
  simp [star, single]

/-- A word names a kind exactly when a spelling of that kind follows its at sign. -/
theorem kind?_eq_some_iff (word : Word) (kind : Kind) :
    word.kind? = some kind ↔
      ∃ name, word.chars = '@' :: name ∧ (name, kind) ∈ Kind.spellings := by
  constructor
  · intro known
    obtain ⟨name, shape⟩ := Reading.chars_of_beginsWithAt word
      (Reading.beginsWithAt_of_kind? word kind known)
    simp only [kind?, shape] at known
    exact ⟨name, shape, (Kind.ofName?_eq_some_iff name kind).mp known⟩
  · rintro ⟨name, shape, spelled⟩
    simp only [kind?, shape]
    exact (Kind.ofName?_eq_some_iff name kind).mpr spelled

end Word

namespace Line

/-- The words of the line as texts, to be found by their positions. -/
def tokens (line : Line) : List Text := (Text.words line.chars).map Word.chars

/-- Whether the line has the sign of the kind, in any spelling, behind a lone star. -/
def HasSign (line : Line) (kind : Kind) : Prop :=
  line.tokens[0]? = some ['*'] ∧
    ∃ name, line.tokens[1]? = some ('@' :: name) ∧ (name, kind) ∈ Kind.spellings

/-- What is wrong with a line that has the sign of a kind but holds no tag. -/
inductive HasFault (line : Line) : TagFault → Prop where
  | tooFewWords (kind : Kind) (signed : line.HasSign kind)
      (few : line.tokens.length < kind.minWords) :
      line.HasFault (.tooFewWords kind kind.minWords line.tokens.length)
  | nameless (kind : Kind) (signed : line.HasSign kind)
      (isVariable : kind = .var ∨ kind = .param) (dollar : line.tokens[3]? = some ['$']) :
      line.HasFault (.badField (.missing kind .variableName))

/-- Whether something is wrong with the line. -/
def IsFaulty (line : Line) : Prop := ∃ fault, line.HasFault fault

/-- A line has a sign exactly when its first two words are the star and a word that
names the kind. -/
theorem hasSign_iff (line : Line) (kind : Kind) :
    line.HasSign kind ↔
      ∃ sign fields, Text.words line.chars = .star :: sign :: fields ∧
        sign.kind? = some kind := by
  rw [HasSign, tokens]
  rcases Text.words line.chars with _ | ⟨first, _ | ⟨second, rest⟩⟩
  · simp
  · simp
  · simp only [List.map_cons, List.getElem?_cons_zero, List.getElem?_cons_succ, Option.some.injEq,
      ← Word.eq_star_iff, ← Word.kind?_eq_some_iff, List.cons.injEq]
    constructor
    · rintro ⟨star, known⟩
      exact ⟨second, rest, ⟨star, rfl, rfl⟩, known⟩
    · rintro ⟨sign, fields, ⟨star, rfl, rfl⟩, known⟩
      exact ⟨star, known⟩

/-- A line has two words more than stand behind its sign. -/
theorem length_tokens (line : Line) (star sign : Word) (fields : List Word)
    (words : Text.words line.chars = star :: sign :: fields) :
    line.tokens.length = fields.length + 2 := by
  simp [tokens, words]

/-- The second word behind the sign stands at position three. -/
theorem tokens_three (line : Line) (star sign : Word) (fields : List Word)
    (words : Text.words line.chars = star :: sign :: fields) :
    line.tokens[3]? = fields[1]?.map Word.chars := by
  simp [tokens, words]

end Line

namespace Reading

/-- A line with a known sign is read from the words behind the sign. -/
theorem ofLine_of_words (line : Line) (kind : Kind) (sign : Word) (fields : List Word)
    (words : Text.words line.chars = .star :: sign :: fields) (known : sign.kind? = some kind) :
    ofLine line = ofFields kind fields := by
  rw [ofLine, words, ofWords_star, ofStarred_known sign fields kind known]

/-- Only words that begin with a star and a known sign can have a fault. -/
theorem sign_of_fault (words : List Word) (fault : TagFault)
    (read : ofWords words = .fault fault) :
    ∃ kind sign fields, words = .star :: sign :: fields ∧ sign.kind? = some kind := by
  rcases words with _ | ⟨first, rest⟩
  · simp [ofWords] at read
  · by_cases star : first = .star
    · rw [star, ofWords_star] at read
      rcases rest with _ | ⟨sign, fields⟩
      · simp [ofStarred] at read
      · cases known : sign.kind? with
        | some kind => exact ⟨kind, sign, fields, by rw [star], known⟩
        | none =>
          cases begins : sign.beginsWithAt with
          | true => simp [ofStarred_unknown sign fields begins known] at read
          | false => simp [ofStarred_prose sign fields begins] at read
    · simp [ofWords, star] at read

/-- Behind a known sign, too few words and a lone dollar sign for a name are the only
faults, and each is read as the fault that it is. -/
theorem ofFields_eq_fault_iff (kind : Kind) (fields : List Word) (fault : TagFault) :
    ofFields kind fields = .fault fault ↔
      (fields.length + 2 < kind.minWords ∧
          fault = .tooFewWords kind kind.minWords (fields.length + 2)) ∨
        ((kind = .var ∨ kind = .param) ∧ fields[1]?.map Word.chars = some ['$']) ∧
          fault = .badField (.missing kind .variableName) := by
  constructor
  · intro read
    by_cases accepts : kind.Accepts fields
    · obtain ⟨tag, _, built⟩ := ofFields_of_accepts kind fields accepts
      simp [built] at read
    · rcases (kind.not_accepts_iff fields).mp accepts with few | ⟨isVariable, dollar⟩
      · rw [ofFields_of_few kind fields few] at read
        exact .inl ⟨few, (Reading.fault.inj read).symm⟩
      · rw [ofFields_of_nameless kind fields isVariable dollar] at read
        exact .inr ⟨⟨isVariable, dollar⟩, (Reading.fault.inj read).symm⟩
  · rintro (⟨few, rfl⟩ | ⟨⟨isVariable, dollar⟩, rfl⟩)
    · exact ofFields_of_few kind fields few
    · exact ofFields_of_nameless kind fields isVariable dollar

/-- The faults that are read are those of the words at their positions. -/
theorem ofLine_eq_fault_iff (line : Line) (fault : TagFault) :
    ofLine line = .fault fault ↔ line.HasFault fault := by
  constructor
  · intro read
    obtain ⟨kind, sign, fields, words, known⟩ := sign_of_fault _ fault read
    have signed : line.HasSign kind := (line.hasSign_iff kind).mpr ⟨sign, fields, words, known⟩
    have length := line.length_tokens .star sign fields words
    have third := line.tokens_three .star sign fields words
    rw [ofLine_of_words line kind sign fields words known, ofFields_eq_fault_iff, ← length,
      ← third] at read
    rcases read with ⟨few, rfl⟩ | ⟨⟨isVariable, dollar⟩, rfl⟩
    · exact .tooFewWords kind signed few
    · exact .nameless kind signed isVariable dollar
  · intro faulty
    cases faulty with
    | tooFewWords kind signed few =>
      obtain ⟨sign, fields, words, known⟩ := (line.hasSign_iff kind).mp signed
      rw [line.length_tokens .star sign fields words] at few ⊢
      rw [ofLine_of_words line kind sign fields words known]
      exact ofFields_of_few kind fields few
    | nameless kind signed isVariable dollar =>
      obtain ⟨sign, fields, words, known⟩ := (line.hasSign_iff kind).mp signed
      rw [line.tokens_three .star sign fields words] at dollar
      rw [ofLine_of_words line kind sign fields words known]
      exact ofFields_of_nameless kind fields isVariable dollar

/-- The reading of a line whose fields are those of the draft. -/
def ofDraft (draft : Draft) : Reading :=
  match draft.build with
  | .error error => .fault (.badField error)
  | .ok built => .tag built

end Reading

/-- The words from a position on, unless the position lies behind the end. -/
def Phrase.slice? (words : Phrase) (position : Nat) : Option Phrase :=
  if position ≤ words.length then some (words.drop position) else none

namespace Draft

/-- The draft of a tag of the kind with its fields taken from the words of a line by
their positions, unless one of the positions is out of range. -/
def atPositions? (words : Phrase) : Kind → Option Draft
  | .var => do return .var (← words[2]?).chars (← words[3]?).chars (← words.slice? 4).text
  | .param => do return .param (← words[2]?).chars (← words[3]?).chars (← words.slice? 4).text
  | .returns => do return .returns (← words[2]?).chars (← words.slice? 3).text
  | .throws => do return .throws (← words[2]?).chars (← words.slice? 3).text
  | .author => do return .author (← words.slice? 2).text
  | .license => do return .license (← words.slice? 2).text
  | .package => do return .package (← words.slice? 2).text
  | .access => do return .access (← words[2]?).chars

/-- Fields are taken by position as they are taken one after the other behind the
sign. -/
theorem atPositions?_eq (kind : Kind) (star sign : Word) (fields : List Word) :
    atPositions? (star :: sign :: fields) kind = ofWords? kind fields := by
  rcases fields with _ | ⟨first, _ | ⟨second, rest⟩⟩ <;> cases kind <;>
    simp [atPositions?, ofWords?, Phrase.slice?]

end Draft

/-- On a line with a known sign and enough words every position is in range, and the
line is read from the fields that stand there. -/
theorem Line.exists_draft (line : Line) (kind : Kind) (signed : line.HasSign kind)
    (enough : kind.minWords ≤ line.tokens.length) :
    ∃ draft, Draft.atPositions? (Text.words line.chars) kind = some draft ∧
      Reading.ofLine line = .ofDraft draft := by
  obtain ⟨sign, fields, words, known⟩ := (line.hasSign_iff kind).mp signed
  have length := line.length_tokens .star sign fields words
  have drafted : Draft.ofWords? kind fields ≠ none := by
    rw [Ne, Reading.ofWords?_eq_none_iff]
    omega
  obtain ⟨draft, same⟩ := Option.ne_none_iff_exists'.mp drafted
  refine ⟨draft, ?_, ?_⟩
  · rw [words, Draft.atPositions?_eq, same]
  · rw [Reading.ofLine_of_words line kind sign fields words known, Reading.ofFields, same]
    rfl

end CommentBlock
