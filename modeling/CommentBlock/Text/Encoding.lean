import CommentBlock.Text.Blank

/-!
# Encoded text

Text is stored and passed on as UTF-8. Every text has an encoding, and decoding
gives it back. Not all bytes are the encoding of a text.
-/

namespace CommentBlock.Text

/-- The bytes of the text. -/
def encode (text : Text) : ByteArray := (String.ofList text).toUTF8

/-- The text with these bytes, if they are well formed. -/
def decode? (bytes : ByteArray) : Option Text := (String.fromUTF8? bytes).map String.toList

/-- Decoding undoes encoding. -/
theorem decode?_encode (text : Text) : decode? text.encode = some text := by
  have wellFormed : text.encode.IsValidUTF8 := (String.ofList text).isValidUTF8
  have same : String.fromUTF8 text.encode wellFormed = String.ofList text := rfl
  simp [decode?, String.fromUTF8?, wellFormed, same]

end CommentBlock.Text
