import CommentBlock.Comment.Reading

/-!
# Parsing comments

A text holds what its lines carry, put together in their order. Strict parsing
ends with an error at the first line with a fault. Lenient parsing takes such a
line as one that carries nothing, so it always gives a comment. Where a text is
converted without a word about the mode, parsing is strict.
-/

namespace CommentBlock

/-- The first fault of a text. Lines are counted from one. -/
structure ParseError where
  line : Nat
  fault : TagFault
  deriving DecidableEq

/-- Decimal digits, without leading zeros. -/
def Text.ofNat (number : Nat) : Text := Nat.toDigits 10 number

/-- The error in words. -/
def ParseError.message : ParseError → Text
  | ⟨line, .tooFewWords kind expected found⟩ =>
    "malformed ".toList ++ kind.sign.chars ++ " tag on line ".toList ++ Text.ofNat line ++
      ": expected at least ".toList ++ Text.ofNat expected ++ " tokens, found ".toList ++
      Text.ofNat found
  | ⟨line, .badField error⟩ =>
    "invalid tag on line ".toList ++ Text.ofNat line ++ ": ".toList ++ error.message

/-- What to do about a line with a fault. -/
inductive Mode where
  | strict
  | lenient
  deriving DecidableEq

namespace Comment

/-- The comment of the lines, or the first fault among them. The first line has
the given number. -/
def ofLines : Nat → List Line → Except ParseError Comment
  | _, [] => .ok empty
  | number, line :: rest =>
    match Reading.ofLine line with
    | .fault fault => .error ⟨number, fault⟩
    | reading => (ofLines (number + 1) rest).map (reading.comment ++ ·)

/-- The comment of the lines, faults left out. -/
def ofLinesLenient : List Line → Comment
  | [] => empty
  | line :: rest => (Reading.ofLine line).comment ++ ofLinesLenient rest

/-- The comment that the text holds, or its first fault. -/
def parse (text : Text) : Except ParseError Comment := ofLines 1 text.lines

/-- The comment that the text holds, faults left out. -/
def parseLenient (text : Text) : Comment := ofLinesLenient text.lines

/-- The conversion of a text to a comment. It is strict. -/
def ofText (text : Text) : Except ParseError Comment := parse text

/-- The result of parsing the text in the mode. -/
def parseAs : Mode → Text → Except ParseError Comment
  | .strict, text => parse text
  | .lenient, text => .ok (parseLenient text)

end Comment

end CommentBlock
