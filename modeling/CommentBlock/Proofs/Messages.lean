import CommentBlock.Comment.Parser
import CommentBlock.Proofs.JsonForm
import CommentBlock.Proofs.QuotedText

/-!
# Messages tell errors apart

A message is read from its front. A sign ends at the space behind it and a number at the
colon or the space behind it, since they hold no such character. What stands behind the sign
of a field error begins with a label or, if the field is missing, with a word that no label
begins with; a refused value is quoted, so it cannot be taken for a part of the message.
Whether a line has too few words or a bad field is told by the first character. So different
errors have different messages.

Messages consist of printable characters and of quoted values, in which no character is
hidden. So a message is a single line, even if the refused value is not.
-/

namespace CommentBlock

/-- A word holds no space. -/
theorem Word.not_mem_space (word : Word) : ' ' ∉ word.chars := by
  intro member
  exact absurd (word.solid ' ' member) (by decide)

/-- A sign is known from the front of a text in which a space stands behind it. -/
theorem Kind.isPrefixCode_sign : IsPrefixCode fun kind : Kind => kind.sign.chars ++ [' '] := by
  apply isPrefixCode_upTo
  · intro first second same
    exact name_injective (List.cons.inj same).2
  · intro kind
    exact kind.sign.not_mem_space

namespace Field

/-- Takes the label of a field from the front of a text, by its first character. -/
def unlabel : Text → Option (Field × Text)
  | 't' :: rest => some (.type, rest.drop 3)
  | 'v' :: rest => some (.variableName, rest.drop 12)
  | 'l' :: rest => some (.level, rest.drop 4)
  | _ => none

/-- A label is taken from the front whatever follows it. -/
theorem unlabel_label (field : Field) (rest : Text) :
    unlabel (field.label ++ rest) = some (field, rest) := by
  cases field <;> rfl

/-- Labels are a prefix code. -/
theorem isPrefixCode_label : IsPrefixCode label := isPrefixCode_of_reader unlabel unlabel_label

/-- No label begins like the complaint about a missing field. -/
theorem label_opensApart : OpensApartFrom label 'n' := by
  intro field
  cases field <;> exact ⟨_, rfl, by decide⟩

end Field

namespace Text

/-- Different numbers have different digits. -/
theorem ofNat_injective : Function.Injective ofNat := by
  intro first second same
  calc first
      = Nat.ofDigitChars 10 (ofNat first) 0 := Nat.ofDigitChars_ten_toDigits.symm
    _ = Nat.ofDigitChars 10 (ofNat second) 0 := by rw [same]
    _ = second := Nat.ofDigitChars_ten_toDigits

/-- A digit is between zero and nine. -/
theorem isDigit_of_mem_ofNat (number : Nat) : ∀ digit ∈ ofNat number, digit.isDigit = true :=
  fun _ member => Nat.isDigit_of_mem_toDigits (by decide) (by decide) member

/-- A number is known from the front of a text in which another character than a digit stands
behind it. -/
theorem isPrefixCode_ofNat (stop : Char) (noDigit : stop.isDigit = false) :
    IsPrefixCode fun number => ofNat number ++ [stop] := by
  apply isPrefixCode_upTo stop ofNat_injective
  intro number member
  have digit := isDigit_of_mem_ofNat number stop member
  rw [noDigit] at digit
  cases digit

/-- A number is visible. -/
theorem isVisible_ofNat (number : Nat) : (ofNat number).IsVisible := by
  apply isVisible_of_printable
  rw [List.all_eq_true]
  intro digit member
  obtain ⟨low, high⟩ := Char.isDigit_iff_toNat.mp (isDigit_of_mem_ofNat number digit member)
  have zero : '0'.toNat = 0x30 := rfl
  have nine : '9'.toNat = 0x39 := rfl
  simp only [isPrintable, Bool.and_eq_true, decide_eq_true_eq]
  omega

end Text

namespace Field

/-- A label is visible. -/
theorem isVisible_label (field : Field) : field.label.IsVisible := by
  apply Text.isVisible_of_printable
  cases field <;> rfl

end Field

/-- A sign is visible. -/
theorem Kind.isVisible_sign (kind : Kind) : kind.sign.chars.IsVisible := by
  apply Text.isVisible_of_printable
  cases kind <;> rfl

namespace FieldError

/-- The message about a missing field behind the space after its sign. -/
theorem message_missing (kind : Kind) (field : Field) :
    (missing kind field).message =
      (kind.sign.chars ++ [' ']) ++ ("needs a ".toList ++ field.label) := by
  have split : " needs a ".toList = [' '] ++ "needs a ".toList := rfl
  change kind.sign.chars ++ " needs a ".toList ++ field.label = _
  rw [split]
  simp only [List.append_assoc]

/-- The message about several words behind the space after its sign. -/
theorem message_severalWords (kind : Kind) (field : Field) (value : Text) :
    (severalWords kind field value).message = (kind.sign.chars ++ [' ']) ++
      (field.label ++ " must be a single word, got ".toList ++ value.quoted) := by
  change kind.sign.chars ++ ' ' :: field.label ++ _ ++ _ = _
  simp only [List.append_assoc, List.cons_append, List.nil_append]

/-- Different field errors have different messages. -/
theorem message_injective : Function.Injective message := by
  intro first second same
  cases first with
  | missing kind field =>
    rw [message_missing] at same
    cases second with
    | missing otherKind otherField =>
      rw [message_missing] at same
      obtain ⟨rfl, sameRest⟩ := Kind.isPrefixCode_sign kind otherKind _ _ same
      have sameLabel : field.label = otherField.label := List.append_cancel_left sameRest
      rw [(Field.isPrefixCode_label field).eq_of_write_eq otherField sameLabel]
    | severalWords otherKind otherField value =>
      rw [message_severalWords] at same
      obtain ⟨rfl, sameRest⟩ := Kind.isPrefixCode_sign kind otherKind _ _ same
      rw [List.append_assoc] at sameRest
      exact absurd sameRest.symm (Field.label_opensApart.append_ne_cons otherField _ _)
  | severalWords kind field value =>
    rw [message_severalWords] at same
    cases second with
    | missing otherKind otherField =>
      rw [message_missing] at same
      obtain ⟨rfl, sameRest⟩ := Kind.isPrefixCode_sign kind otherKind _ _ same
      rw [List.append_assoc] at sameRest
      exact absurd sameRest (Field.label_opensApart.append_ne_cons field _ _)
    | severalWords otherKind otherField otherValue =>
      rw [message_severalWords] at same
      obtain ⟨rfl, sameRest⟩ := Kind.isPrefixCode_sign kind otherKind _ _ same
      have unique := (Field.isPrefixCode_label field).pair (Text.isPrefixCode_quoted value)
        " must be a single word, got ".toList
      obtain ⟨rfl, rfl⟩ := Prod.mk.inj (unique.eq_of_write_eq (otherField, otherValue) sameRest)
      rfl

/-- A message about a field is visible. -/
theorem isVisible_message (error : FieldError) : error.message.IsVisible := by
  have space : Text.IsVisible [' '] := Text.isVisible_of_printable _ rfl
  cases error with
  | missing kind field =>
    have needs : Text.IsVisible "needs a ".toList := Text.isVisible_of_printable _ rfl
    simp only [message_missing, Text.isVisible_append_iff]
    exact ⟨⟨kind.isVisible_sign, space⟩, needs, field.isVisible_label⟩
  | severalWords kind field value =>
    have got : Text.IsVisible " must be a single word, got ".toList :=
      Text.isVisible_of_printable _ rfl
    simp only [message_severalWords, Text.isVisible_append_iff]
    exact ⟨⟨kind.isVisible_sign, space⟩, ⟨field.isVisible_label, got⟩, value.isVisible_quoted⟩

end FieldError

namespace ParseError

/-- The message about too few words, its parts ended by the characters they are read up to. -/
theorem message_tooFewWords (line : Nat) (kind : Kind) (expected found : Nat) :
    message ⟨line, .tooFewWords kind expected found⟩ =
      "malformed ".toList ++ ((kind.sign.chars ++ [' ']) ++ ("tag on line ".toList ++
        ((Text.ofNat line ++ [':']) ++ (" expected at least ".toList ++
          ((Text.ofNat expected ++ [' ']) ++
            ("tokens, found ".toList ++ Text.ofNat found)))))) := by
  have splitSign : " tag on line ".toList = [' '] ++ "tag on line ".toList := rfl
  have splitLine : ": expected at least ".toList = [':'] ++ " expected at least ".toList := rfl
  have splitExpected : " tokens, found ".toList = [' '] ++ "tokens, found ".toList := rfl
  change "malformed ".toList ++ kind.sign.chars ++ " tag on line ".toList ++ Text.ofNat line ++
    ": expected at least ".toList ++ Text.ofNat expected ++ " tokens, found ".toList ++
      Text.ofNat found = _
  rw [splitSign, splitLine, splitExpected]
  simp only [List.append_assoc]

/-- The message about a bad field, the line number ended by the colon. -/
theorem message_badField (line : Nat) (error : FieldError) :
    message ⟨line, .badField error⟩ =
      "invalid tag on line ".toList ++
        ((Text.ofNat line ++ [':']) ++ ([' '] ++ error.message)) := by
  have split : ": ".toList = [':'] ++ [' '] := rfl
  change "invalid tag on line ".toList ++ Text.ofNat line ++ ": ".toList ++ error.message = _
  rw [split]
  simp only [List.append_assoc]

/-- Different parse errors have different messages. -/
theorem message_injective : Function.Injective message := by
  rintro ⟨line, fault⟩ ⟨otherLine, otherFault⟩ same
  cases fault with
  | tooFewWords kind expected found =>
    rw [message_tooFewWords] at same
    cases otherFault with
    | tooFewWords otherKind otherExpected otherFound =>
      rw [message_tooFewWords] at same
      obtain ⟨rfl, behindSign⟩ :=
        Kind.isPrefixCode_sign kind otherKind _ _ (List.append_cancel_left same)
      obtain ⟨rfl, behindLine⟩ :=
        Text.isPrefixCode_ofNat ':' rfl line otherLine _ _ (List.append_cancel_left behindSign)
      obtain ⟨rfl, behindExpected⟩ := Text.isPrefixCode_ofNat ' ' rfl expected otherExpected _ _
        (List.append_cancel_left behindLine)
      have sameDigits : Text.ofNat found = Text.ofNat otherFound :=
        List.append_cancel_left behindExpected
      rw [Text.ofNat_injective sameDigits]
    | badField error =>
      rw [message_badField] at same
      have firsts : some 'm' = some 'i' := congrArg List.head? same
      exact absurd firsts (by decide)
  | badField error =>
    rw [message_badField] at same
    cases otherFault with
    | tooFewWords otherKind otherExpected otherFound =>
      rw [message_tooFewWords] at same
      have firsts : some 'i' = some 'm' := congrArg List.head? same
      exact absurd firsts (by decide)
    | badField otherError =>
      rw [message_badField] at same
      obtain ⟨rfl, behindLine⟩ :=
        Text.isPrefixCode_ofNat ':' rfl line otherLine _ _ (List.append_cancel_left same)
      rw [FieldError.message_injective (List.append_cancel_left behindLine)]

/-- A message about a text is visible. -/
theorem isVisible_message (error : ParseError) : error.message.IsVisible := by
  obtain ⟨line, fault⟩ := error
  have number : ∀ number, (Text.ofNat number).IsVisible := Text.isVisible_ofNat
  cases fault with
  | tooFewWords kind expected found =>
    simp only [message_tooFewWords, Text.isVisible_append_iff]
    refine ⟨?_, ⟨kind.isVisible_sign, ?_⟩, ?_, ⟨number line, ?_⟩, ?_, ⟨number expected, ?_⟩, ?_,
      number found⟩
    all_goals exact Text.isVisible_of_printable _ rfl
  | badField source =>
    simp only [message_badField, Text.isVisible_append_iff]
    refine ⟨?_, ⟨number line, ?_⟩, ?_, source.isVisible_message⟩
    all_goals exact Text.isVisible_of_printable _ rfl

end ParseError

/-- Every message is one line of visible characters, without control characters, whatever the
refused value is. Different errors have different messages, so a message tells everything that
its error holds: the kind, the field and the value, and for a text the line and the numbers of
words. -/
theorem messages_tell_errors_apart :
    (∀ error : FieldError, ∀ c ∈ error.message,
      isControl c = false ∧ isBreak c = false ∧ isHidden c = false) ∧
      (∀ error : ParseError, ∀ c ∈ error.message,
        isControl c = false ∧ isBreak c = false ∧ isHidden c = false) ∧
      Function.Injective FieldError.message ∧ Function.Injective ParseError.message := by
  refine ⟨?_, ?_, FieldError.message_injective, ParseError.message_injective⟩
  · intro error
    exact error.isVisible_message.onOneLine
  · intro error
    exact error.isVisible_message.onOneLine

/-- A value with line ends and quotes stands on one line. -/
example : (FieldError.severalWords .returns .type "int\r\n\"null\"".toList).message =
    "@return type must be a single word, got \"int\\r\\n\\\"null\\\"\"".toList := by
  decide +kernel

end CommentBlock
