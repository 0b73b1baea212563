import CommentBlock.Proofs.LineSpans

/-!
# Boundaries of characters

Offsets into the bytes of a text are safe to cut at where a character begins or the text
ends. The pass that looks for lines steps from byte to byte, so its cursor also stands within
characters of several bytes. But it cuts only where the current line starts and where a line
end begins, and these offsets are boundaries: LF and CR are characters of one byte, so there
is a boundary in front of them and one behind them, and a line starts behind such a byte or
at the front of the text.

One look keeps the start of the line on a boundary, between the front of the text and the
cursor, and the cursor within the bytes. As each look moves the cursor by one byte or by two,
the pass ends after at most as many looks as there are bytes.
-/

namespace CommentBlock

namespace Text

/-- Whether a character of the text begins at the offset among its bytes, or the text ends
there. -/
def IsBoundary (text : Text) (offset : Nat) : Prop :=
  String.Pos.Raw.IsValid (String.ofList text) ⟨offset⟩

/-- The boundaries are the places where the bytes of a front part of the text end. -/
theorem isBoundary_iff (text : Text) (offset : Nat) :
    text.IsBoundary offset ↔ ∃ front back, text = front ++ back ∧ (encode front).size = offset := by
  rw [IsBoundary, String.Pos.Raw.isValid_iff_exists_append]
  constructor
  · rintro ⟨front, back, split, ends⟩
    refine ⟨front.toList, back.toList, ?_, ?_⟩
    · rw [← String.toList_append, ← split, String.toList_ofList]
    · rw [encode, String.ofList_toList]
      exact (congrArg String.Pos.Raw.byteIdx ends).symm
  · rintro ⟨front, back, rfl, rfl⟩
    exact ⟨String.ofList front, String.ofList back, String.ofList_append, rfl⟩

/-- A text has a boundary at its front. -/
theorem isBoundary_zero (text : Text) : text.IsBoundary 0 :=
  (text.isBoundary_iff 0).mpr ⟨[], text, rfl, rfl⟩

/-- No boundary lies behind the bytes of the text. -/
theorem IsBoundary.le_size {text : Text} {offset : Nat} (boundary : text.IsBoundary offset) :
    offset ≤ (encode text).size := by
  obtain ⟨front, back, rfl, rfl⟩ := (text.isBoundary_iff offset).mp boundary
  rw [size_encode_append]
  exact Nat.le_add_right _ _

/-- A text has a boundary at its end. -/
theorem isBoundary_size (text : Text) : text.IsBoundary (encode text).size :=
  (text.isBoundary_iff _).mpr ⟨text, [], (List.append_nil text).symm, rfl⟩

/-- What stands in front of a text moves its boundaries. -/
theorem IsBoundary.behind {back : Text} {offset : Nat} (boundary : back.IsBoundary offset)
    (front : Text) : IsBoundary (front ++ back) ((encode front).size + offset) := by
  obtain ⟨inFront, behind, rfl, rfl⟩ := (back.isBoundary_iff offset).mp boundary
  refine (isBoundary_iff _ _).mpr ⟨front ++ inFront, behind, ?_, size_encode_append front inFront⟩
  exact (List.append_assoc front inFront behind).symm

/-- A character below 0x80 has a single byte. -/
theorem size_encode_singleton (c : Char) (low : c.toNat < 0x80) : (encode [c]).size = 1 := by
  have single : c.val.toNat ≤ 127 := Nat.le_of_lt_succ low
  rw [encode_eq, List.size_toByteArray, List.flatMap_singleton, String.utf8EncodeChar.eq_1,
    if_pos single]
  rfl

/-- There is a boundary in front of a byte below 0x80 and one behind it.

Proof: by induction on the text. Among the bytes of its first character there is such a byte
only if it is the only one, and behind them the boundaries are those of the rest. -/
theorem isBoundary_of_low_byte (text : Text) (offset : Nat) (byte : UInt8)
    (found : (encode text)[offset]? = some byte) (low : byte.toNat < 0x80) :
    text.IsBoundary offset ∧ text.IsBoundary (offset + 1) := by
  induction text generalizing offset with
  | nil => simp [getElem?_encode] at found
  | cons c rest inductionHypothesis =>
    by_cases inside : offset < (String.utf8EncodeChar c).length
    · have member : byte ∈ String.utf8EncodeChar c := by
        rw [getElem?_encode, List.flatMap_cons, List.getElem?_append_left inside] at found
        exact List.mem_of_getElem? found
      have single : (encode [c]).size = 1 := by
        apply size_encode_singleton
        rw [toNat_eq_of_mem_utf8EncodeChar c byte member low]
        exact low
      have first : offset = 0 := by
        rw [encode_eq, List.size_toByteArray, List.flatMap_singleton] at single
        omega
      have behind := (isBoundary_zero rest).behind [c]
      rw [single] at behind
      rw [first]
      exact ⟨isBoundary_zero (c :: rest), behind⟩
    · have size : (encode [c]).size = (String.utf8EncodeChar c).length := by
        rw [encode_eq, List.size_toByteArray, List.flatMap_singleton]
      obtain ⟨more, rfl⟩ := Nat.exists_eq_add_of_le (Nat.not_lt.mp inside)
      rw [← size, ← List.singleton_append, getElem?_encode_append] at found
      obtain ⟨before, behind⟩ := inductionHypothesis more found
      rw [← size, Nat.add_assoc]
      exact ⟨before.behind [c], behind.behind [c]⟩

end Text

/-- Whether the bytes between the offsets can be cut out of those of the text. -/
structure LineSpan.IsSound (text : Text) (span : LineSpan) : Prop where
  ordered : span.start ≤ span.stop
  within : span.stop ≤ text.encode.size
  starts : text.IsBoundary span.start
  stops : text.IsBoundary span.stop

namespace LineCursor

/-- Whether the current line starts at a boundary and the cursor stands between there and the
end of the bytes. -/
structure IsSound (text : Text) (cursor : LineCursor) : Prop where
  ordered : cursor.start ≤ cursor.position
  within : cursor.position ≤ text.encode.size
  starts : text.IsBoundary cursor.start

/-- A cursor that starts a line at a boundary is sound. -/
theorem isSound_restart (text : Text) (offset : Nat) (boundary : text.IsBoundary offset) :
    (restart offset).IsSound text :=
  ⟨Nat.le_refl offset, boundary.le_size, boundary⟩

/-- The line in front of a sound cursor can be cut out if the cursor stands at a boundary. -/
theorem IsSound.span {text : Text} {cursor : LineCursor} (sound : cursor.IsSound text)
    (boundary : text.IsBoundary cursor.position) : cursor.span.IsSound text :=
  ⟨sound.ordered, sound.within, sound.starts, boundary⟩

/-- A look moves the cursor by one byte, or by two. -/
theorem position_advance (bytes : ByteArray) (cursor : LineCursor) :
    (cursor.advance bytes).2.position = cursor.position + 1 ∨
      (cursor.advance bytes).2.position = cursor.position + 2 := by
  simp only [advance, restart]
  repeat' split
  all_goals simp

/-- A look keeps the cursor sound, and a line that it reports can be cut out. -/
theorem isSound_advance (text : Text) (cursor : LineCursor) (sound : cursor.IsSound text)
    (inside : cursor.position < text.encode.size) :
    (cursor.advance text.encode).2.IsSound text ∧
      ∀ span ∈ (cursor.advance text.encode).1, span.IsSound text := by
  rw [advance]
  by_cases feed : text.encode[cursor.position]? = some 0x0A
  · obtain ⟨before, behind⟩ := text.isBoundary_of_low_byte cursor.position 0x0A feed (by decide)
    rw [if_pos feed]
    exact ⟨isSound_restart text _ behind, by simpa using sound.span before⟩
  · rw [if_neg feed]
    by_cases returned : text.encode[cursor.position]? = some 0x0D
    · obtain ⟨before, behind⟩ :=
        text.isBoundary_of_low_byte cursor.position 0x0D returned (by decide)
      rw [if_pos returned]
      refine ⟨?_, by simpa using sound.span before⟩
      by_cases completed : text.encode[cursor.position + 1]? = some 0x0A
      · rw [if_pos completed]
        exact isSound_restart text _
          (text.isBoundary_of_low_byte (cursor.position + 1) 0x0A completed (by decide)).2
      · rw [if_neg completed]
        exact isSound_restart text _ behind
    · rw [if_neg returned]
      exact ⟨⟨Nat.le_succ_of_le sound.ordered, inside, sound.starts⟩, by simp⟩

/-- The cursor after one look. -/
def next (bytes : ByteArray) (cursor : LineCursor) : LineCursor := (cursor.advance bytes).2

/-- The cursor of a pass after a number of looks. -/
def after (bytes : ByteArray) (looks : Nat) : LineCursor := (next bytes)^[looks] (restart 0)

/-- As long as the pass goes on, its cursor is sound. -/
theorem isSound_after (text : Text) (looks : Nat)
    (goesOn : ∀ earlier < looks, (after text.encode earlier).position < text.encode.size) :
    (after text.encode looks).IsSound text := by
  induction looks with
  | zero => exact isSound_restart text 0 text.isBoundary_zero
  | succ looks inductionHypothesis =>
    have sound := inductionHypothesis fun earlier before =>
      goesOn earlier (Nat.lt_succ_of_lt before)
    rw [after, Function.iterate_succ_apply']
    exact (isSound_advance text _ sound (goesOn looks (Nat.lt_succ_self looks))).1

end LineCursor

namespace LineSpan

/-- The pass ends after at most as many looks as there are bytes from the cursor on. It
reports what its looks report, and at last what is left behind the last line end. -/
theorem exists_scan_eq (bytes : ByteArray) (cursor : LineCursor) :
    ∃ looks ≤ bytes.size - cursor.position,
      (∀ earlier < looks, ((LineCursor.next bytes)^[earlier] cursor).position < bytes.size) ∧
      bytes.size ≤ ((LineCursor.next bytes)^[looks] cursor).position ∧
      scan bytes cursor =
        (List.range looks).flatMap
            (fun look => (((LineCursor.next bytes)^[look] cursor).advance bytes).1.toList) ++
          if ((LineCursor.next bytes)^[looks] cursor).start < bytes.size then
            [⟨((LineCursor.next bytes)^[looks] cursor).start, bytes.size⟩]
          else [] := by
  fun_induction scan bytes cursor with
  | case1 cursor inside inductionHypothesis =>
    obtain ⟨looks, few, goOn, ends, reported⟩ := inductionHypothesis
    have moves := cursor.position_lt_advance bytes
    refine ⟨looks + 1, by omega, ?_, ends, ?_⟩
    · rintro (_ | earlier) before
      · exact inside
      · exact goOn earlier (Nat.lt_of_succ_lt_succ before)
    · rw [reported, List.range_succ_eq_map, List.flatMap_cons, List.flatMap_map, List.append_assoc]
      rfl
  | case2 cursor outside filled =>
    exact ⟨0, Nat.zero_le _, by simp, Nat.not_lt.mp outside, by simp [filled]⟩
  | case3 cursor outside noRest =>
    exact ⟨0, Nat.zero_le _, by simp, Nat.not_lt.mp outside, by simp [noRest]⟩

/-- The pass over the bytes of a text ends after at most as many looks as there are bytes,
although a look may move the cursor by two bytes. Up to its end the current line starts at a
boundary, not behind the cursor, and the cursor does not leave the bytes, at whose end it
stands at last. All that the pass reports is what its looks report and what is left at the
end; each of these lines has a boundary at its start and at its stop, so it can be cut out,
and the bytes in between are those of the lines of the characters. -/
theorem pass_cuts_at_boundaries (text : Text) :
    let bytes := text.encode
    let cursor := LineCursor.after bytes
    (∃ looks ≤ bytes.size,
      (∀ look < looks, (cursor look).position < bytes.size ∧
        ((cursor (look + 1)).position = (cursor look).position + 1 ∨
          (cursor (look + 1)).position = (cursor look).position + 2)) ∧
      (cursor looks).position = bytes.size ∧
      (∀ look ≤ looks, (cursor look).IsSound text) ∧
      all bytes =
        (List.range looks).flatMap (fun look => ((cursor look).advance bytes).1.toList) ++
          if (cursor looks).start < bytes.size then [⟨(cursor looks).start, bytes.size⟩] else []) ∧
      (∀ span ∈ all bytes, span.IsSound text) ∧
      encodedLines bytes = text.lines.map fun line => line.chars.encode := by
  intro bytes cursor
  obtain ⟨looks, few, goOn, ends, reported⟩ := exists_scan_eq bytes (.restart 0)
  have sound : ∀ look ≤ looks, (cursor look).IsSound text := by
    intro look upTo
    exact LineCursor.isSound_after text look fun earlier before =>
      goOn earlier (Nat.lt_of_lt_of_le before upTo)
  refine ⟨⟨looks, few, ?_, Nat.le_antisymm (sound looks (Nat.le_refl looks)).within ends, sound,
    reported⟩, ?_, encodedLines_encode text⟩
  · intro look before
    have moved : cursor (look + 1) = ((cursor look).advance bytes).2 :=
      Function.iterate_succ_apply' _ look _
    rw [moved]
    exact ⟨goOn look before, LineCursor.position_advance bytes (cursor look)⟩
  · intro span member
    rw [all, reported, List.mem_append, List.mem_flatMap] at member
    rcases member with ⟨look, inRange, found⟩ | isLast
    · have before := List.mem_range.mp inRange
      have soundLook := sound look (Nat.le_of_lt before)
      exact (LineCursor.isSound_advance text _ soundLook (goOn look before)).2 span
        (Option.mem_toList.mp found)
    · have soundEnd := sound looks (Nat.le_refl looks)
      split at isLast
      · obtain rfl := List.mem_singleton.mp isLast
        exact ⟨soundEnd.starts.le_size, Nat.le_refl _, soundEnd.starts, text.isBoundary_size⟩
      · cases isLast

/-- A text in which characters of two and of three bytes stand beside CR LF and CR. -/
def wideText : Text := "é\r\n€\r".toList

/-- The pass cuts around these characters and not within them. -/
theorem pass_cuts_at_boundaries_of_wideText :
    all wideText.encode = [⟨0, 2⟩, ⟨4, 7⟩] ∧
      (∀ span ∈ all wideText.encode, span.IsSound wideText) ∧ ¬ wideText.IsBoundary 1 := by
  refine ⟨by decide +kernel, (pass_cuts_at_boundaries wideText).2.1, ?_⟩
  unfold Text.IsBoundary
  decide

end LineSpan

end CommentBlock
