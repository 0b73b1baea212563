import CommentBlock.Text.Encoding
import CommentBlock.Text.LineSpan
import CommentBlock.Proofs.LineParts

/-!
# Lines of encoded text

The lines that are found among the bytes of a text are those of its characters. A byte
of CR or LF stands for nothing else, since all bytes of a longer sequence are 0x80 or
above. So the pass steps over any other character without a look at how many bytes it
has, and where it meets a line end, the two offsets of its cursor have whole characters
between them: those of the line.

The pass is followed over the lines of a text with their ends. One line after the other,
it reports the offsets around the line and starts anew behind its end.
-/

namespace CommentBlock

namespace Text

/-- Texts are encoded one behind the other. -/
theorem encode_append (front back : Text) :
    encode (front ++ back) = encode front ++ encode back := by
  simp [encode, String.ofList_append]

/-- The bytes of a text are those of its characters. -/
theorem encode_eq (text : Text) :
    encode text = (text.flatMap String.utf8EncodeChar).toByteArray := by
  simp [encode, List.utf8Encode]

/-- A text has as many bytes as its parts together. -/
theorem size_encode_append (front back : Text) :
    (encode (front ++ back)).size = (encode front).size + (encode back).size := by
  rw [encode_append, ByteArray.size_append]

/-- The bytes behind those of a text are found where these end. -/
theorem getElem?_encode_append (front back : Text) (offset : Nat) :
    (encode (front ++ back))[(encode front).size + offset]? = (encode back)[offset]? := by
  rw [encode_append, getElem?_def, getElem?_def]
  simp [ByteArray.getElem_append_right]

/-- All bytes of a character above 0x7F are above it too. -/
theorem le_toNat_of_mem_utf8EncodeChar (c : Char) (long : 0x80 ≤ c.toNat) :
    ∀ byte ∈ String.utf8EncodeChar c, 0x80 ≤ byte.toNat := by
  have noSingle : ¬ c.val.toNat ≤ 127 := Nat.not_le.mpr long
  rw [String.utf8EncodeChar.eq_1, if_neg noSingle]
  split
  · simp only [List.forall_mem_cons, UInt8.toNat_ofNat']
    refine ⟨by omega, by omega, by simp⟩
  · split
    · simp only [List.forall_mem_cons, UInt8.toNat_ofNat']
      refine ⟨by omega, by omega, by omega, by simp⟩
    · simp only [List.forall_mem_cons, UInt8.toNat_ofNat']
      refine ⟨by omega, by omega, by omega, by omega, by simp⟩

/-- A byte below 0x80 is a character of its own, the one with this code. -/
theorem toNat_eq_of_mem_utf8EncodeChar (c : Char) (byte : UInt8)
    (member : byte ∈ String.utf8EncodeChar c) (low : byte.toNat < 0x80) :
    c.toNat = byte.toNat := by
  by_cases long : 0x80 ≤ c.toNat
  · have high := le_toNat_of_mem_utf8EncodeChar c long byte member
    omega
  · have single : c.val.toNat ≤ 127 := Nat.le_of_lt_succ (Nat.not_le.mp long)
    rw [String.utf8EncodeChar.eq_1, if_pos single, List.mem_singleton] at member
    rw [member, UInt8.toNat_ofNat', Nat.mod_eq_of_lt (by omega)]
    rfl

/-- No byte of a character that ends no line looks like a line end. -/
theorem ne_of_mem_utf8EncodeChar (c : Char) (unbroken : isBreak c = false) (byte : UInt8)
    (member : byte ∈ String.utf8EncodeChar c) : byte ≠ 0x0A ∧ byte ≠ 0x0D := by
  simp only [isBreak, Bool.or_eq_false_iff, beq_eq_false_iff_ne] at unbroken
  constructor
  · rintro rfl
    have code : c.toNat = 0x0A := toNat_eq_of_mem_utf8EncodeChar c 0x0A member (by decide)
    exact unbroken.1 (Char.toNat_inj.mp code)
  · rintro rfl
    have code : c.toNat = 0x0D := toNat_eq_of_mem_utf8EncodeChar c 0x0D member (by decide)
    exact unbroken.2 (Char.toNat_inj.mp code)

/-- A byte is found in the encoding where it stands among those of the characters. -/
theorem getElem?_encode (text : Text) (offset : Nat) :
    (encode text)[offset]? = (text.flatMap String.utf8EncodeChar)[offset]? := by
  rw [encode_eq, getElem?_def, getElem?_def]
  simp only [List.getElem_toByteArray, List.size_toByteArray]

/-- Only a text that begins with LF begins with its byte. -/
theorem head?_of_getElem?_encode (text : Text) (begins : (encode text)[0]? = some 0x0A) :
    text.head? = some '\n' := by
  cases text with
  | nil => simp [getElem?_encode] at begins
  | cons c rest =>
    have first : (String.utf8EncodeChar c)[0]? = some 0x0A := by
      rwa [getElem?_encode, List.flatMap_cons, List.getElem?_append_left] at begins
      exact List.length_pos_iff.mpr String.utf8EncodeChar_ne_nil
    have code := toNat_eq_of_mem_utf8EncodeChar c 0x0A (List.mem_of_getElem? first) (by decide)
    exact congrArg some (Char.toNat_inj.mp code)

/-- A text with characters has bytes. -/
theorem size_encode_pos (text : Text) (filled : text ≠ []) : 0 < (encode text).size := by
  obtain ⟨c, rest, rfl⟩ := List.exists_cons_of_ne_nil filled
  have first : 0 < (String.utf8EncodeChar c).length :=
    List.length_pos_iff.mpr String.utf8EncodeChar_ne_nil
  rw [encode_eq, List.size_toByteArray, List.flatMap_cons, List.length_append]
  omega

/-- The bytes between the offsets around a part of a text are those of the part. -/
theorem slice_encode (before part behind : Text) :
    LineSpan.slice (encode (before ++ part ++ behind))
      ⟨(encode before).size, (encode (before ++ part)).size⟩ = encode part := by
  have dropBefore := @ByteArray.extract_append_size_add (encode before) (encode (part ++ behind)) 0
    (encode part).size
  have dropBehind := @ByteArray.extract_append_size_left (encode part) (encode behind) 0
  rw [Nat.add_zero] at dropBefore
  rw [LineSpan.slice, List.append_assoc, encode_append before, size_encode_append, dropBefore,
    encode_append part, dropBehind, ByteArray.extract_zero_size]

end Text

namespace LineEnd

/-- The bytes of the line end. -/
def bytes : LineEnd → List UInt8
  | .lf => [0x0A]
  | .cr => [0x0D]
  | .crlf => [0x0D, 0x0A]

/-- A line end is encoded by its bytes. -/
theorem flatMap_utf8EncodeChar (ending : LineEnd) :
    ending.chars.flatMap String.utf8EncodeChar = ending.bytes := by
  cases ending <;> rfl

end LineEnd

namespace LineSpan

/-- The pass goes on behind what was looked at, with the line that ended there. -/
theorem scan_of_advance (bytes : ByteArray) (cursor next : LineCursor) (found : Option LineSpan)
    (inside : cursor.position < bytes.size) (advanced : cursor.advance bytes = (found, next)) :
    scan bytes cursor = found.toList ++ scan bytes next := by
  rw [scan, dif_pos inside, advanced]

/-- The pass steps over bytes that are no line ends. -/
theorem scan_skip (bytes : ByteArray) (start position count : Nat)
    (within : position + count ≤ bytes.size)
    (plain : ∀ offset < count, bytes[position + offset]? ≠ some 0x0A ∧
      bytes[position + offset]? ≠ some 0x0D) :
    scan bytes ⟨start, position⟩ = scan bytes ⟨start, position + count⟩ := by
  induction count with
  | zero => rfl
  | succ count inductionHypothesis =>
    have earlier : ∀ offset < count, bytes[position + offset]? ≠ some 0x0A ∧
        bytes[position + offset]? ≠ some 0x0D := by
      intro offset before
      exact plain offset (Nat.lt_succ_of_lt before)
    obtain ⟨noFeed, noReturn⟩ := plain count (Nat.lt_succ_self count)
    have advanced : LineCursor.advance bytes ⟨start, position + count⟩ =
        (none, ⟨start, position + (count + 1)⟩) := by
      simp [LineCursor.advance, noFeed, noReturn, Nat.add_assoc]
    rw [inductionHypothesis (by omega) earlier,
      scan_of_advance bytes _ _ _ (by simp only; omega) advanced]
    rfl

/-- The pass steps over the bytes of a line. -/
theorem scan_line (before behind : Text) (line : Line) :
    scan (Text.encode (before ++ (line.chars ++ behind))) (.restart (Text.encode before).size) =
      scan (Text.encode (before ++ (line.chars ++ behind)))
        ⟨(Text.encode before).size, (Text.encode (before ++ line.chars)).size⟩ := by
  rw [LineCursor.restart, Text.size_encode_append before line.chars]
  apply scan_skip
  · rw [Text.size_encode_append, Text.size_encode_append]
    omega
  · intro offset inside
    have ofLine : offset < (line.chars.flatMap String.utf8EncodeChar).length := by
      rwa [Text.encode_eq, List.size_toByteArray] at inside
    rw [Text.getElem?_encode_append, Text.getElem?_encode, List.flatMap_append,
      List.getElem?_append_left ofLine, List.getElem?_eq_getElem ofLine]
    obtain ⟨c, member, ofChar⟩ := List.mem_flatMap.mp (List.getElem_mem ofLine)
    have noEnd := Text.ne_of_mem_utf8EncodeChar c (line.unbroken c member) _ ofChar
    simpa using noEnd

/-- At a line end the pass reports what lies behind the start, and starts anew. -/
theorem scan_ending (front behind : Text) (ending : LineEnd) (start : Nat)
    (alone : ending = .cr → behind.head? ≠ some '\n') :
    scan (Text.encode (front ++ (ending.chars ++ behind))) ⟨start, (Text.encode front).size⟩ =
      ⟨start, (Text.encode front).size⟩ ::
        scan (Text.encode (front ++ (ending.chars ++ behind)))
          (.restart (Text.encode (front ++ ending.chars)).size) := by
  have look : ∀ offset,
      (Text.encode (front ++ (ending.chars ++ behind)))[(Text.encode front).size + offset]? =
        (ending.bytes ++ behind.flatMap String.utf8EncodeChar)[offset]? := by
    intro offset
    rw [Text.getElem?_encode_append, Text.getElem?_encode, List.flatMap_append,
      ending.flatMap_utf8EncodeChar]
  have advanced : LineCursor.advance (Text.encode (front ++ (ending.chars ++ behind)))
      ⟨start, (Text.encode front).size⟩ = (some ⟨start, (Text.encode front).size⟩,
        .restart (Text.encode (front ++ ending.chars)).size) := by
    have first := look 0
    rw [Nat.add_zero] at first
    simp only [LineCursor.advance, first, look 1, Text.size_encode_append, LineCursor.span]
    cases ending with
    | lf => rfl
    | cr =>
      have noFeed : (behind.flatMap String.utf8EncodeChar)[0]? ≠ some 0x0A := by
        rw [← Text.getElem?_encode]
        intro begins
        exact alone rfl (Text.head?_of_getElem?_encode behind begins)
      have size : (Text.encode LineEnd.cr.chars).size = 1 := rfl
      rw [size]
      simp [LineEnd.bytes, noFeed]
    | crlf => rfl
  apply scan_of_advance _ _ _ _ _ advanced
  have filled : 0 < (Text.encode ending.chars).size := by cases ending <;> decide
  simp only [Text.size_encode_append]
  omega

/-- The pass reports the offsets around a line that is ended, and starts anew behind its
end. -/
theorem scan_ended (before behind : Text) (ended : EndedLine)
    (alone : ended.ending = .cr → behind.head? ≠ some '\n') :
    scan (Text.encode (before ++ (ended.text ++ behind))) (.restart (Text.encode before).size) =
      ⟨(Text.encode before).size, (Text.encode (before ++ ended.line.chars)).size⟩ ::
        scan (Text.encode (before ++ (ended.text ++ behind)))
          (.restart (Text.encode (before ++ ended.text)).size) := by
  have overLine := scan_line before (ended.ending.chars ++ behind) ended.line
  have atEnd := scan_ending (before ++ ended.line.chars) behind ended.ending
    (Text.encode before).size alone
  rw [List.append_assoc before, List.append_assoc before] at atEnd
  rw [EndedLine.text, List.append_assoc, overLine, atEnd]

/-- Behind the last end the pass reports what is left, unless nothing is. -/
theorem scan_rest (before : Text) (rest : Line) :
    scan (Text.encode (before ++ rest.chars)) (.restart (Text.encode before).size) =
      if rest.chars.isEmpty then []
      else [⟨(Text.encode before).size, (Text.encode (before ++ rest.chars)).size⟩] := by
  have overLine := scan_line before [] rest
  rw [List.append_nil] at overLine
  rw [overLine, scan, dif_neg (Nat.lt_irrefl _)]
  cases shape : rest.chars with
  | nil => simp
  | cons c more =>
    have filled := Text.size_encode_pos (c :: more) (List.cons_ne_nil c more)
    have grows : (Text.encode before).size < (Text.encode (before ++ c :: more)).size := by
      rw [Text.size_encode_append]
      omega
    rw [if_pos grows]
    rfl

/-- From the start of a line on, the bytes within the reported offsets are those of the
lines.

Proof: by induction on the lines that are ended. What was read before moves along with the
start of the pass. -/
theorem map_slice_scan (before : Text) (ended : List EndedLine) (rest : Line)
    (apart : EndedLine.AreApart ended) :
    let bytes := Text.encode (before ++ (ended.flatMap EndedLine.text ++ rest.chars))
    (scan bytes (.restart (Text.encode before).size)).map (slice bytes) =
      (ended.map EndedLine.line ++ if rest.chars.isEmpty then [] else [rest]).map
        fun line => Text.encode line.chars := by
  induction ended generalizing before with
  | nil =>
    intro bytes
    have onlyRest : bytes = Text.encode (before ++ rest.chars) := rfl
    rw [onlyRest, scan_rest]
    cases noRest : rest.chars.isEmpty with
    | true => rfl
    | false =>
      have own := Text.slice_encode before rest.chars []
      rw [List.append_nil] at own
      simp [own]
  | cons first others inductionHypothesis =>
    intro bytes
    have alone := first.alone_of_areApart others _ apart rest.head?_ne_lf
    have split : bytes = Text.encode (before ++ (first.text ++
        (others.flatMap EndedLine.text ++ rest.chars))) := by
      simp only [bytes, List.flatMap_cons, List.append_assoc]
    have moved : bytes = Text.encode ((before ++ first.text) ++
        (others.flatMap EndedLine.text ++ rest.chars)) := by
      rw [split, List.append_assoc]
    have behind := inductionHypothesis (before ++ first.text)
      ((first.areApart_cons_iff others).mp apart).2
    rw [← moved] at behind
    have own : slice bytes ⟨(Text.encode before).size,
        (Text.encode (before ++ first.line.chars)).size⟩ = Text.encode first.line.chars := by
      have bytesAround : bytes = Text.encode (before ++ first.line.chars ++ (first.ending.chars ++
          (others.flatMap EndedLine.text ++ rest.chars))) := by
        rw [split, EndedLine.text, List.append_assoc, List.append_assoc]
      rw [bytesAround, Text.slice_encode]
    have reported := scan_ended before _ first alone
    rw [← split] at reported
    rw [reported, List.map_cons, own, behind]
    rfl

end LineSpan

/-- The lines that are found among the bytes of a text are its lines. -/
theorem encodedLines_encode (text : Text) :
    encodedLines text.encode = text.lines.map fun line => Text.encode line.chars := by
  obtain ⟨parts, rfl⟩ := LineParts.exists_text_eq text
  rw [parts.lines_text]
  exact LineSpan.map_slice_scan [] parts.ended parts.rest parts.apart

/-- Lines with ends of any kind, and a rest behind them, are the lines of the text that they
make up, except for a rest without characters. Every text is made up of such parts in exactly
one way, so these are its lines, also when they are looked for among its bytes.

Hence the lines have all characters but CR and LF, in order and each of them once. CR and LF
together do what a CR alone does, and LF and CR end a line each. -/
theorem Text.lines_of_unique_parts :
    (∀ parts : LineParts,
      parts.text.lines = parts.ended.map EndedLine.line ++
        if parts.rest.chars.isEmpty then [] else [parts.rest]) ∧
      (∀ text : Text, ∃! parts : LineParts, parts.text = text) ∧
      (∀ text : Text,
        encodedLines text.encode = text.lines.map fun line => Text.encode line.chars) ∧
      (∀ text : Text, (∀ line ∈ text.lines, '\r' ∉ line.chars ∧ '\n' ∉ line.chars) ∧
        text.lines.flatMap Line.chars = text.filter fun c => !isBreak c) ∧
      ∀ front back : Text,
        lines (front ++ '\r' :: '\n' :: back) = lines (front ++ ['\r']) ++ lines back ∧
          lines (front ++ '\n' :: '\r' :: back) =
            lines (front ++ ['\n']) ++ lines ('\r' :: back) ∧
          (lines ('\r' :: back)).head? = some .empty := by
  refine ⟨LineParts.lines_text, ?_, encodedLines_encode, ?_, ?_⟩
  · intro text
    obtain ⟨parts, made⟩ := LineParts.exists_text_eq text
    refine ⟨parts, made, ?_⟩
    intro other otherMade
    exact LineParts.text_injective (otherMade.trans made.symm)
  · intro text
    exact ⟨fun line _ => line.not_mem_break, flatMap_chars_lines text⟩
  · intro front back
    exact ⟨lines_append_crlf front back, lines_append_lf front _, head?_lines_cr back⟩

end CommentBlock
