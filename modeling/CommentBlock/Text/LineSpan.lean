/-!
# Line spans of encoded text

Lines can be found without decoding the text: CR and LF are single bytes in
UTF-8 and are part of no longer sequence. One pass over the bytes keeps the
offset at which the current line starts and the offset of the byte to look at
next. It reports the line as a pair of offsets when it meets a line end, and
steps over both bytes of a CR LF at once. What is left at the end of the bytes is
a line only if it is not empty.
-/

namespace CommentBlock

/-- Offsets of the first byte of a line and of the byte after its last. -/
structure LineSpan where
  start : Nat
  stop : Nat
  deriving DecidableEq

/-- Where the current line starts, and the next byte to look at. -/
structure LineCursor where
  start : Nat
  position : Nat
  deriving DecidableEq

namespace LineCursor

/-- The line that ends before the byte at the cursor. -/
def span (cursor : LineCursor) : LineSpan := ⟨cursor.start, cursor.position⟩

/-- The cursor that starts a new line at the offset. -/
def restart (offset : Nat) : LineCursor := ⟨offset, offset⟩

/-- Looks at one byte, or at two for a CR LF. The result is the line that ends
there, if one does, and the cursor behind what was looked at. -/
def advance (bytes : ByteArray) (cursor : LineCursor) : Option LineSpan × LineCursor :=
  let next := cursor.position + 1
  if bytes[cursor.position]? = some 0x0A then (some cursor.span, restart next)
  else if bytes[cursor.position]? = some 0x0D then
    (some cursor.span, restart (if bytes[next]? = some 0x0A then next + 1 else next))
  else (none, ⟨cursor.start, next⟩)

/-- Every look moves the cursor forward, which bounds the pass. -/
theorem position_lt_advance (bytes : ByteArray) (cursor : LineCursor) :
    cursor.position < (cursor.advance bytes).2.position := by
  simp only [advance, restart]
  repeat' split
  all_goals simp only; omega

end LineCursor

namespace LineSpan

/-- The lines from the cursor on. -/
def scan (bytes : ByteArray) (cursor : LineCursor) : List LineSpan :=
  if _ : cursor.position < bytes.size then
    (cursor.advance bytes).1.toList ++ scan bytes (cursor.advance bytes).2
  else if cursor.start < bytes.size then [⟨cursor.start, bytes.size⟩]
  else []
  termination_by bytes.size - cursor.position
  decreasing_by exact Nat.sub_lt_sub_left ‹_› (cursor.position_lt_advance bytes)

/-- The lines of the encoded text. -/
def all (bytes : ByteArray) : List LineSpan := scan bytes (LineCursor.restart 0)

/-- The bytes of the line. -/
def slice (bytes : ByteArray) (span : LineSpan) : ByteArray := bytes.extract span.start span.stop

end LineSpan

/-- The lines of the encoded text, still encoded, without their ends. -/
def encodedLines (bytes : ByteArray) : List ByteArray :=
  (LineSpan.all bytes).map (LineSpan.slice bytes)

end CommentBlock
