import Mathlib.Data.List.TakeWhile
import Whittle.Proofs.Text.Decoding
import Whittle.Proofs.Text.Search
import Whittle.Server.Stream

/-
  What is read from a stream, in terms of its text.

  Key definitions include:
    * `Text.written`
    * `Stream.IsOpen`
    * `Text.firstLine`
    * `Text.afterLine`
    * `Text.Says`

  Main statements:
    * `Stream.allRows_push`
    * `readUntilMarker_outputLines`
    * `Stream.readReply_push`
    * `Stream.readReply_of_ended`

  Bytes are split into rows before they are decoded, and rows
  are searched for the marker one by one.  It comes to the
  same as decoding all bytes, and searching the whole text.
-/

------------------------------------------------------------
-- Line Ends
------------------------------------------------------------

namespace Whittle

namespace Text

/- A text without carriage returns has its line ends already. -/
theorem unifyLineEnds_of_not_mem
    {t : Text}
    (hFree : '\r' ∉ t) :
    unifyLineEnds t = t := by
  induction t with
  | nil => rfl
  | cons c rest ih =>
      simp only [List.mem_cons, not_or] at hFree
      have hc : c ≠ '\r' := fun hEq => hFree.1 hEq.symm
      simp [unifyLineEnds, hc, ih hFree.2]

theorem unifyLineEnds_append
    {l : Text}
    (hFree : '\r' ∉ l)
    (t : Text) :
    unifyLineEnds (l ++ t) = l ++ unifyLineEnds t := by
  induction l with
  | nil => rfl
  | cons c rest ih =>
      simp only [List.mem_cons, not_or] at hFree
      have hc : c ≠ '\r' := fun hEq => hFree.1 hEq.symm
      simp [unifyLineEnds, hc, ih hFree.2]

/- A carriage return ends a line, if no newline comes next. -/
theorem unifyLineEnds_return
    {t : Text}
    (hNext : t.head? ≠ some '\n') :
    unifyLineEnds ('\r' :: t) = '\n' :: unifyLineEnds t := by
  cases t with
  | nil => rfl
  | cons c rest =>
      have hc : c ≠ '\n' := by simpa using hNext
      simp [unifyLineEnds, hc]

/- No carriage return is left. -/
theorem return_not_mem_unifyLineEnds
    (t : Text) :
    '\r' ∉ unifyLineEnds t := by
  fun_induction unifyLineEnds t with
  | case1 => simp
  | case2 rest ih => simp [ih]
  | case3 c rest hNot ih =>
      by_cases hc : c = '\r'
      · simp [hc, ih]
      · have hc' : '\r' ≠ c := fun hEq => hc hEq.symm
        simp [hc, hc', ih]

/- The text that bytes write to a stream. -/
def written
    (bs : Bytes) : Text :=
  unifyLineEnds (decodeLenient bs)

end Text

/- A row without line ends stays as it is. -/
theorem withoutLineEnd_of_not_mem
    {row : Text}
    (hNewline : '\n' ∉ row)
    (hReturn : '\r' ∉ row) :
    withoutLineEnd row = row := by
  unfold withoutLineEnd
  cases hRow : row.reverse with
  | nil =>
      rw [List.reverse_eq_nil_iff.mp hRow]
      rfl
  | cons c rest =>
      have hc : c ∈ row := by
        rw [← List.mem_reverse, hRow]
        exact List.mem_cons_self
      have hNewline' : c ≠ '\n' := fun hEq => hNewline (hEq ▸ hc)
      have hReturn' : c ≠ '\r' := fun hEq => hReturn (hEq ▸ hc)
      rw [List.dropWhile_cons, if_neg (by simp [hNewline', hReturn']),
        ← hRow, List.reverse_reverse]

theorem withoutLineEnd_concat
    {row : Text}
    (hNewline : '\n' ∉ row)
    (hReturn : '\r' ∉ row) :
    withoutLineEnd (row ++ ['\r']) = row := by
  have hRow := withoutLineEnd_of_not_mem hNewline hReturn
  unfold withoutLineEnd at hRow ⊢
  rw [List.reverse_append]
  exact hRow

end Whittle

------------------------------------------------------------
-- Rows Of Bytes
------------------------------------------------------------

namespace Whittle

namespace Stream

/- Bytes that end no row. -/
structure IsOpen
    (row : Bytes) : Prop where
  noNewline : 10 ∉ row
  noReturn : 13 ∉ row

namespace IsOpen

variable {row : Bytes}

theorem nil :
    IsOpen [] :=
  ⟨by simp, by simp⟩

theorem cons
    {b : UInt8}
    (hOpen : IsOpen row)
    (hNewline : b ≠ 10)
    (hReturn : b ≠ 13) :
    IsOpen (b :: row) :=
  ⟨by simp [hOpen.noNewline, hNewline.symm],
    by simp [hOpen.noReturn, hReturn.symm]⟩

theorem reverse
    (hOpen : IsOpen row) :
    IsOpen row.reverse :=
  ⟨by simp [hOpen.noNewline], by simp [hOpen.noReturn]⟩

/- An open row writes no newlines. -/
theorem newline_not_mem
    (hOpen : IsOpen row) :
    '\n' ∉ decodeLenient row :=
  fun hMem =>
    hOpen.noNewline (mem_of_decodeLenient (by decide) hMem)

/- An open row writes no carriage returns. -/
theorem return_not_mem
    (hOpen : IsOpen row) :
    '\r' ∉ decodeLenient row :=
  fun hMem =>
    hOpen.noReturn (mem_of_decodeLenient (by decide) hMem)

end IsOpen

theorem decodeLenient_cons
    (b : UInt8)
    (bs : Bytes) :
    ∃ c t, decodeLenient (b :: bs) = c :: t ∧ (c = '\n' → b = 10) := by
  unfold decodeLenient
  rw [Utf8.decodeFrom]
  rcases hFirst : Utf8.first b bs with ⟨_ | c, used⟩
  · rcases Utf8.exists_decodeFrom ['\uFFFD'] used bs with
      ⟨t, hRest⟩
    exact ⟨'\uFFFD', t, by simp [hRest],
      fun hEq => absurd hEq (by decide)⟩
  · rcases Utf8.exists_decodeFrom ['\uFFFD'] used bs with
      ⟨t, hRest⟩
    have hByte : c = '\n' → b = 10 := by
      intro hc
      subst hc
      have hBytes := Utf8.encodeChar_of_first hFirst
      exact (List.cons.inj hBytes).1.symm
    exact ⟨c, t, by simp [hRest], hByte⟩

theorem written_append
    {row : Bytes}
    (hOpen : IsOpen row)
    (rest : Bytes) :
    Text.written (row ++ 10 :: rest) =
      decodeLenient row ++ '\n' :: Text.written rest := by
  unfold Text.written
  rw [decodeLenient_append (by decide),
    Text.unifyLineEnds_append hOpen.return_not_mem]
  rfl

/- A line of bytes that a carriage return and a newline end. -/
theorem written_append_both
    {row : Bytes}
    (hOpen : IsOpen row)
    (rest : Bytes) :
    Text.written (row ++ 13 :: 10 :: rest) =
      decodeLenient row ++ '\n' :: Text.written rest := by
  have hNext := decodeLenient_append (b := 10) (by decide) [] rest
  rw [List.nil_append] at hNext
  unfold Text.written
  rw [decodeLenient_append (by decide),
    Text.unifyLineEnds_append hOpen.return_not_mem, hNext]
  rfl

/- A line of bytes that a carriage return ends. -/
theorem written_append_return
    {row : Bytes}
    (hOpen : IsOpen row)
    {rest : Bytes}
    (hNext : rest.head? ≠ some 10) :
    Text.written (row ++ 13 :: rest) =
      decodeLenient row ++ '\n' :: Text.written rest := by
  have hHead : (decodeLenient rest).head? ≠ some '\n' := by
    cases rest with
    | nil => exact nofun
    | cons b rest =>
        rcases decodeLenient_cons b rest with ⟨c, t, hText, hByte⟩
        rw [hText]
        simp only [List.head?_cons, Option.some.injEq, Ne] at hNext ⊢
        exact fun hEq => hNext (hByte hEq)
  unfold Text.written
  rw [decodeLenient_append (by decide),
    Text.unifyLineEnds_append hOpen.return_not_mem]
  exact congrArg (decodeLenient row ++ ·)
    (Text.unifyLineEnds_return hHead)

/- The rows, and the open one if there is something in it. -/
def rowsOf
    (rows : List Text)
    (tail : Bytes) : List Text :=
  if tail.isEmpty then
    rows
  else
    rows ++ [withoutLineEnd (decodeLenient tail)]

theorem rowsOf_cons
    (row : Text)
    (rows : List Text)
    (tail : Bytes) :
    rowsOf (row :: rows) tail = row :: rowsOf rows tail := by
  unfold rowsOf
  split <;> rfl

/- An open row is the last line. -/
theorem rowsOf_open
    {tail : Bytes}
    (hOpen : IsOpen tail) :
    rowsOf [] tail = Text.outputLines (Text.written tail) := by
  have hNewline := hOpen.newline_not_mem
  have hReturn := hOpen.return_not_mem
  unfold rowsOf Text.written
  rw [Text.unifyLineEnds_of_not_mem hReturn,
    withoutLineEnd_of_not_mem hNewline hReturn]
  cases tail with
  | nil => rfl
  | cons b rest =>
      rcases decodeLenient_cons b rest with ⟨c, t, hText, -⟩
      have hSome : decodeLenient (b :: rest) ≠ [] := by simp [hText]
      rw [Text.outputLines_of_not_mem hSome hNewline]
      rfl

/- A row that a carriage return has ended at last is a line. -/
theorem rowsOf_return
    {row : Bytes}
    (hOpen : IsOpen row) :
    rowsOf [] (row ++ [13]) =
      Text.outputLines (Text.written (row ++ [13])) := by
  have hNewline := hOpen.newline_not_mem
  have hNext : ([] : Bytes).head? ≠ some 10 := nofun
  have hDecoded :
      decodeLenient (row ++ [13]) = decodeLenient row ++ ['\r'] :=
    decodeLenient_append (by decide) row []
  rw [written_append_return hOpen hNext,
    Text.outputLines_append hNewline]
  unfold rowsOf
  rw [hDecoded, withoutLineEnd_concat hNewline hOpen.return_not_mem]
  simp [Text.written, decodeLenient, Utf8.decodeFrom,
    Text.unifyLineEnds]

/-
  The rows of bytes are the lines that they write.  The
  induction is on the bytes, with the row under way before
  them.
-/
theorem rowsOf_split
    (row bs : Bytes)
    (hOpen : IsOpen row) :
    rowsOf (split row bs).1 (split row bs).2 =
      Text.outputLines (Text.written (row.reverse ++ bs)) := by
  fun_induction split row bs with
  | case1 row =>
      rw [List.append_nil]
      exact rowsOf_open hOpen.reverse
  | case2 row =>
      rw [List.reverse_cons]
      exact rowsOf_return hOpen.reverse
  | case3 row rest rows tail hSplit ih =>
      have hRest := ih .nil
      rw [hSplit] at hRest
      rw [written_append_both hOpen.reverse,
        Text.outputLines_append hOpen.reverse.newline_not_mem,
        rowsOf_cons]
      exact congrArg (_ :: ·) hRest
  | case4 row b rest hAlone hBoth hEnd rows tail hSplit ih =>
      have hRest := ih .nil
      have hLine :
          Text.written (row.reverse ++ b :: rest) =
            decodeLenient row.reverse ++
              '\n' :: Text.written rest := by
        simp only [Bool.or_eq_true, decide_eq_true_eq] at hEnd
        rcases hEnd with rfl | rfl
        · exact written_append hOpen.reverse rest
        · apply written_append_return hOpen.reverse
          cases rest with
          | nil => exact nofun
          | cons b rest =>
              intro hHead
              simp only [List.head?_cons, Option.some.injEq] at hHead
              exact hBoth rest rfl (by rw [hHead])
      rw [hSplit] at hRest
      rw [hLine,
        Text.outputLines_append hOpen.reverse.newline_not_mem,
        rowsOf_cons]
      exact congrArg (_ :: ·) hRest
  | case5 row b rest hAlone hBoth hEnd ih =>
      simp only [Bool.or_eq_true, decide_eq_true_eq, not_or] at hEnd
      rw [ih (hOpen.cons hEnd.1 hEnd.2)]
      simp

end Stream

end Whittle

------------------------------------------------------------
-- Rows Of Streams
------------------------------------------------------------

namespace Whittle

namespace Stream

/- The rows of a new stream are the lines written to it. -/
theorem allRows_push
    (bs : Bytes) :
    (empty.push bs).allRows = Text.outputLines (Text.written bs) :=
  rowsOf_split [] bs .nil

/- After a newline no row is open. -/
theorem split_of_ended
    (row bs : Bytes)
    (hEnded : bs.getLast? = some 10) :
    (split row bs).2 = [] := by
  fun_induction split row bs with
  | case1 => cases hEnded
  | case2 => cases hEnded
  | case3 row rest rows tail hSplit ih =>
      cases rest with
      | nil =>
          cases hSplit
          rfl
      | cons b rest =>
          rw [hSplit] at ih
          exact ih (by simpa using hEnded)
  | case4 row b rest hOpen hBoth hEnd rows tail hSplit ih =>
      cases rest with
      | nil =>
          cases hSplit
          rfl
      | cons b rest =>
          rw [hSplit] at ih
          exact ih (by simpa using hEnded)
  | case5 row b rest hOpen hBoth hEnd ih =>
      cases rest with
      | nil => simp_all
      | cons b rest => exact ih (by simpa using hEnded)

end Stream

end Whittle

------------------------------------------------------------
-- Searching For The Marker
------------------------------------------------------------

namespace Whittle

namespace Text

/- A text up to its first newline. -/
def firstLine
    (t : Text) : Text :=
  t.takeWhile fun c => c ≠ '\n'

/- A text after its first newline. -/
def afterLine
    (t : Text) : Text :=
  (t.dropWhile fun c => c ≠ '\n').drop 1

/-
  A text holds the marker, first behind `before`, and the
  line of the marker goes on with `reply`.
-/
def Says
    (t before reply : Text) : Prop :=
  ∃ after,
    splitAtFirst? marker t = some (before, after) ∧
      firstLine after = reply

/- Each character of a line is kept on it. -/
theorem ne_newline_of_not_mem
    {l : Text}
    (hFree : '\n' ∉ l) :
    ∀ c ∈ l, decide (c ≠ '\n') = true := by
  intro c hc
  exact decide_eq_true fun hEq => hFree (hEq ▸ hc)

/- A text without newlines is its own first line. -/
theorem firstLine_of_not_mem
    {l : Text}
    (hFree : '\n' ∉ l) :
    firstLine l = l ∧ afterLine l = [] := by
  have hAll := ne_newline_of_not_mem hFree
  unfold firstLine afterLine
  rw [List.takeWhile_eq_self_iff.mpr hAll,
    List.dropWhile_eq_nil_iff.mpr hAll]
  exact ⟨rfl, rfl⟩

theorem firstLine_append
    {l : Text}
    (hFree : '\n' ∉ l)
    (t : Text) :
    firstLine (l ++ '\n' :: t) = l ∧
      afterLine (l ++ '\n' :: t) = t := by
  have hAll := ne_newline_of_not_mem hFree
  unfold firstLine afterLine
  rw [List.takeWhile_append_of_pos hAll,
    List.dropWhile_append_of_pos hAll]
  simp

end Text

/- The marker is not empty, and stands on one line. -/
theorem marker_isLine :
    marker ≠ [] ∧ '\n' ∉ marker ∧ '\r' ∉ marker := by
  decide

/-
  Searching the lines of a text for the marker is searching
  the text.
-/
theorem readUntilMarker_outputLines
    {t : Text}
    (hFree : '\r' ∉ t) :
    readUntilMarker (Text.outputLines t) =
      match splitAtFirst? marker t with
      | some (before, after) =>
          (some (Text.firstLine after), Text.outputLines before,
            Text.outputLines (Text.afterLine after))
      | none => (none, Text.outputLines t, []) := by
  rcases marker_isLine with ⟨hSome, hNewline, -⟩
  induction t using Text.lines_induction with
  | hOpen l hLine =>
      have hRow := withoutLineEnd_of_not_mem hLine hFree
      by_cases hl : l = []
      · subst hl
        rfl
      · rw [Text.outputLines_of_not_mem hl hLine, readUntilMarker,
          hRow]
        cases hSplit : splitAtFirst? marker l with
        | none => rfl
        | some parts =>
            rcases parts with ⟨before, after⟩
            have hParts := eq_of_splitAtFirst? hSplit
            simp only [hParts, List.mem_append, not_or] at hLine
            have hAfter := Text.firstLine_of_not_mem hLine.2
            dsimp only
            rw [hAfter.1, hAfter.2, Text.outputLines_line hLine.1.1]
            rfl
  | hLine l t hLine ih =>
      simp only [List.mem_append, List.mem_cons, not_or] at hFree
      have hRow := withoutLineEnd_of_not_mem hLine hFree.1
      have hRest := ih hFree.2.2
      rw [Text.outputLines_append hLine, readUntilMarker, hRow,
        splitAtFirst?_append_cons hSome hNewline]
      cases hSplit : splitAtFirst? marker l with
      | some parts =>
          rcases parts with ⟨before, after⟩
          have hParts := eq_of_splitAtFirst? hSplit
          simp only [hParts, List.mem_append, not_or] at hLine
          have hAfter := Text.firstLine_append hLine.2 t
          dsimp only
          rw [hAfter.1, hAfter.2, Text.outputLines_line hLine.1.1]
      | none =>
          rw [hRest]
          cases hSplit' : splitAtFirst? marker t with
          | none => rfl
          | some parts =>
              dsimp only [Option.map_some]
              rw [Text.outputLines_append hLine]

theorem readUntilMarker_append
    {rows contents left : List Text}
    {reply : Text}
    (hRead : readUntilMarker rows = (some reply, contents, left))
    (more : List Text) :
    readUntilMarker (rows ++ more) =
      (some reply, contents, left ++ more) := by
  induction rows generalizing contents left with
  | nil => cases hRead
  | cons row rest ih =>
      rw [readUntilMarker] at hRead
      rw [List.cons_append, readUntilMarker]
      cases hSplit : splitAtFirst? marker (withoutLineEnd row) with
      | some parts =>
          rw [hSplit] at hRead
          cases hRead
          rfl
      | none =>
          rw [hSplit] at hRead
          rcases hRest : readUntilMarker rest with ⟨r, c, l⟩
          rw [hRest] at hRead
          cases hRead
          dsimp only
          rw [ih hRest]

end Whittle

------------------------------------------------------------
-- Reading Replies
------------------------------------------------------------

namespace Whittle

namespace Stream

theorem readReply_fst
    (s : Stream) :
    s.readReply.1 = (readUntilMarker s.allRows).1 ∧
      s.readReply.2.1 = (readUntilMarker s.allRows).2.1 := by
  unfold readReply
  rcases hRead : readUntilMarker s.rows with ⟨_ | reply, contents, left⟩
  · exact ⟨rfl, rfl⟩
  · dsimp only
    unfold allRows
    by_cases hTail : s.tail.isEmpty = true
    · rw [if_pos hTail, hRead]
      exact ⟨rfl, rfl⟩
    · rw [if_neg hTail, readUntilMarker_append hRead]
      exact ⟨rfl, rfl⟩

/-
  The reply on a new stream, and the rows before it, are what
  the text says that has been written.
-/
theorem readReply_push
    (bs : Bytes)
    (reply : Text)
    (rows : List Text) :
    ((empty.push bs).readReply.1 = some reply ∧
        (empty.push bs).readReply.2.1 = rows) ↔
      ∃ before,
        (Text.written bs).Says before reply ∧
          before.outputLines = rows := by
  have hFree : '\r' ∉ Text.written bs :=
    Text.return_not_mem_unifyLineEnds _
  have hRead := readReply_fst (empty.push bs)
  rw [allRows_push, readUntilMarker_outputLines hFree] at hRead
  rw [hRead.1, hRead.2]
  unfold Text.Says
  cases splitAtFirst? marker (Text.written bs) with
  | none => simp
  | some parts =>
      rcases parts with ⟨before, after⟩
      constructor
      · rintro ⟨hReply, hRows⟩
        have hText := Option.some.inj hReply
        exact ⟨before, ⟨after, rfl, hText⟩, hRows⟩
      · rintro ⟨before', ⟨after', hEq, hText⟩, hRows⟩
        cases hEq
        exact ⟨congrArg some hText, hRows⟩

/- What is left of a new stream on which all rows have ended. -/
theorem readReply_of_ended
    {bs : Bytes}
    (hEnded : bs.getLast? = some 10) :
    (empty.push bs).readReply.2.2 =
      ⟨(readUntilMarker (Text.outputLines (Text.written bs))).2.2,
        []⟩ := by
  have hTail : (empty.push bs).tail = [] := split_of_ended [] bs hEnded
  have hRows : (empty.push bs).allRows = (empty.push bs).rows := by
    unfold allRows
    rw [hTail]
    rfl
  rw [← allRows_push, hRows]
  unfold readReply
  rw [hRows]
  rcases hRead : readUntilMarker (empty.push bs).rows with
    ⟨_ | reply, contents, left⟩
  · rfl
  · dsimp only
    rw [hTail]

end Stream

end Whittle
