import CommentBlock.Text.Blank

/-!
# Prefix codes

A way of writing items is a prefix code when a text that begins with what is written for an
item begins with what is written for no other one. The item is then known from the text, and
so is what follows it, whatever that is.

A reader that takes one written item from the front of a text shows this. From single items
it passes to lists of them: these are known, with their length, as soon as a character that
opens no item stands behind the last one.
-/

namespace CommentBlock

variable {α : Type}

/-- Whether no other item can stand in front of a text that begins with this one. -/
def IsReadUniquely (write : α → Text) (item : α) : Prop :=
  ∀ other rest otherRest, write item ++ rest = write other ++ otherRest →
    item = other ∧ rest = otherRest

/-- Whether every item is known from the front of a text. -/
def IsPrefixCode (write : α → Text) : Prop := ∀ item, IsReadUniquely write item

/-- Whether everything that is written begins with a character, and not with this one. -/
def OpensApartFrom (write : α → Text) (stop : Char) : Prop :=
  ∀ item, ∃ c ∈ (write item).head?, c ≠ stop

variable {write : α → Text}

/-- An item that is read uniquely is written as no other one. -/
theorem IsReadUniquely.eq_of_write_eq {item : α} (unique : IsReadUniquely write item) (other : α)
    (same : write item = write other) : item = other := by
  have extended : write item ++ [] = write other ++ [] := by rw [same]
  exact (unique other [] [] extended).1

/-- Items that a reader finds again make up a prefix code. -/
theorem isPrefixCode_of_reader (read : Text → Option (α × Text))
    (found : ∀ item rest, read (write item ++ rest) = some (item, rest)) :
    IsPrefixCode write := by
  intro item other rest otherRest same
  have results : some (item, rest) = some (other, otherRest) := by
    rw [← found item rest, same, found other otherRest]
  simpa using results

/-- Items of different texts make up a prefix code if a character stands behind each of them
that none of them holds. -/
theorem isPrefixCode_upTo (stop : Char) (injective : Function.Injective write)
    (absent : ∀ item, stop ∉ write item) : IsPrefixCode fun item => write item ++ [stop] := by
  have upTo : ∀ item behind, (write item ++ stop :: behind).takeWhile (· != stop) = write item := by
    intro item behind
    have others : ∀ c ∈ write item, (c != stop) = true := by
      intro c member
      exact bne_iff_ne.mpr fun same => absent item (same ▸ member)
    simp [List.takeWhile_append_of_pos others]
  intro item other rest otherRest same
  simp only [List.append_assoc, List.singleton_append] at same
  have sameText : write item = write other := by rw [← upTo item rest, same, upTo]
  rw [sameText] at same
  exact ⟨injective sameText, (List.cons.inj (List.append_cancel_left same)).2⟩

/-- The same text in front of every item changes nothing. -/
theorem IsReadUniquely.behind {item : α} (unique : IsReadUniquely write item) (lead : Text) :
    IsReadUniquely (fun item => lead ++ write item) item := by
  intro other rest otherRest same
  simp only [List.append_assoc, List.append_cancel_left_eq] at same
  exact unique other rest otherRest same

/-- A pair is known from its first component, a fixed text and its second component. -/
theorem IsReadUniquely.pair {β : Type} {writeSecond : β → Text} {first : α} {second : β}
    (firstUnique : IsReadUniquely write first) (secondUnique : IsReadUniquely writeSecond second)
    (between : Text) :
    IsReadUniquely (fun pair : α × β => write pair.1 ++ between ++ writeSecond pair.2)
      (first, second) := by
  rintro ⟨otherFirst, otherSecond⟩ rest otherRest same
  simp only [List.append_assoc] at same
  obtain ⟨sameFirst, behind⟩ := firstUnique _ _ _ same
  obtain ⟨sameSecond, sameRest⟩ := secondUnique _ _ _ (List.append_cancel_left behind)
  exact ⟨by rw [sameFirst, sameSecond], sameRest⟩

/-- The first character of an item is not the one that stands behind the last. -/
theorem OpensApartFrom.append_ne_cons {stop : Char} (apart : OpensApartFrom write stop)
    (item : α) (behind rest : Text) : write item ++ behind ≠ stop :: rest := by
  intro same
  obtain ⟨c, first, differs⟩ := apart item
  cases written : write item with
  | nil => simp [written] at first
  | cons d more =>
    have opens : d = c := by simpa [written] using first
    have sameFirst : d = stop := by simpa [written] using congrArg List.head? same
    exact differs (opens ▸ sameFirst)

/-- A list of items is known from a text that holds one after the other and then a character
that opens none.

Proof: by induction on the list, against any other list. Either both have a first item, which
is the same, or one of them has ended where the other goes on, which the first character of
the item excludes. -/
theorem isReadUniquely_list {stop : Char} (apart : OpensApartFrom write stop) (items : List α)
    (unique : ∀ item ∈ items, IsReadUniquely write item) :
    IsReadUniquely (fun items : List α => items.flatMap write ++ [stop]) items := by
  induction items with
  | nil =>
    intro others rest otherRest same
    cases others with
    | nil => exact ⟨rfl, by simpa using same⟩
    | cons other more =>
      simp only [List.flatMap_cons, List.append_assoc] at same
      exact absurd same.symm (apart.append_ne_cons other _ rest)
  | cons item more inductionHypothesis =>
    obtain ⟨first, later⟩ := List.forall_mem_cons.mp unique
    intro others rest otherRest same
    cases others with
    | nil =>
      simp only [List.flatMap_cons, List.append_assoc] at same
      exact absurd same (apart.append_ne_cons item _ otherRest)
    | cons other others =>
      simp only [List.flatMap_cons, List.append_assoc] at same
      obtain ⟨sameItem, behind⟩ := first _ _ _ same
      have behind : more.flatMap write ++ [stop] ++ rest =
          others.flatMap write ++ [stop] ++ otherRest := by simpa using behind
      obtain ⟨sameItems, sameRest⟩ := inductionHypothesis later _ _ _ behind
      exact ⟨by rw [sameItem, sameItems], sameRest⟩

/-- With a separator between neighbours, every item but the first has it in front. -/
theorem intercalate_map_cons (separator : Char) (item : α) (items : List α) :
    List.intercalate [separator] ((item :: items).map write) =
      write item ++ items.flatMap fun item => [separator] ++ write item := by
  induction items generalizing item with
  | nil => simp [List.intercalate]
  | cons next more inductionHypothesis =>
    rw [List.map_cons, List.map_cons, List.intercalate_cons_cons, ← List.map_cons,
      inductionHypothesis next]
    simp

/-- The same for a list with separators between the items. The separator and the character
behind the last item differ, and no item opens with the latter. -/
theorem isReadUniquely_separated {separator stop : Char} (differ : separator ≠ stop)
    (apart : OpensApartFrom write stop) (items : List α)
    (unique : ∀ item ∈ items, IsReadUniquely write item) :
    IsReadUniquely
      (fun items : List α => List.intercalate [separator] (items.map write) ++ [stop]) items := by
  intro others rest otherRest same
  cases items with
  | nil =>
    cases others with
    | nil => exact ⟨rfl, by simpa using same⟩
    | cons other others =>
      simp only [intercalate_map_cons, List.append_assoc] at same
      exact absurd same.symm (apart.append_ne_cons other _ rest)
  | cons item items =>
    cases others with
    | nil =>
      simp only [intercalate_map_cons, List.append_assoc] at same
      exact absurd same (apart.append_ne_cons item _ otherRest)
    | cons other others =>
      obtain ⟨first, later⟩ := List.forall_mem_cons.mp unique
      have separated : OpensApartFrom (fun item => [separator] ++ write item) stop :=
        fun item => ⟨separator, rfl, differ⟩
      simp only [intercalate_map_cons, List.append_assoc] at same
      obtain ⟨sameItem, behind⟩ := first _ _ _ same
      obtain ⟨sameItems, sameRest⟩ := isReadUniquely_list separated items
        (fun item inside => (later item inside).behind [separator]) others rest otherRest
        (by simpa using behind)
      exact ⟨by rw [sameItem, sameItems], sameRest⟩

end CommentBlock
