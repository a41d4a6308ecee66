import Whittle.Proofs.Server.Rows
import Whittle.Server.Session

/-
  Replies that a server has framed.

  Key definitions include:
    * `Text.IsDecimal`
    * `IsFramed`
    * `frame`
    * `Process.Frames`
    * `Process.Answers`
    * `Process.replies`

  Main statements:
    * `Text.readInteger?_of_isDecimal`
    * `isFramed_iff`
    * `readReply_frame`
    * `Process.replies_iff`
    * `Process.Frames.replies_eq`

  A frame is read to its end: its reply, the lines before the
  marker, and nothing is left on the stream.
-/

------------------------------------------------------------
-- Exit Codes In Digits
------------------------------------------------------------

namespace Whittle

/- A digit of ASCII has its usual value. -/
theorem digitValue?_of_isDigit
    {c : Char}
    (hc : c.isDigit = true) :
    digitValue? c = some (c.toNat - '0'.toNat) := by
  rcases Char.isDigit_iff_toNat.mp hc with ⟨hFrom, hTo⟩
  have hZero : (0x30 ≤ c.toNat && c.toNat ≤ 0x30 + 9) = true := by
    simp only [Bool.and_eq_true, decide_eq_true_eq]
    exact ⟨hFrom, hTo⟩
  have hFind :
      (zeroDigits.find? fun z =>
        z ≤ c.toNat && c.toNat ≤ z + 9) = some 0x30 :=
    List.find?_cons_of_pos hZero
  unfold digitValue?
  rw [hFind]
  rfl

/- What has no edges is not trimmed. -/
theorem trimWhere_of_all
    {isEdge : Char → Bool}
    {t : Text}
    (hAll : ∀ c ∈ t, isEdge c = false) :
    trimWhere isEdge t = t := by
  have hDrop : ∀ s : Text, (∀ c ∈ s, isEdge c = false) →
      s.dropWhile isEdge = s := by
    intro s hs
    cases s with
    | nil => rfl
    | cons c rest =>
        exact List.dropWhile_cons_of_neg
          (by simp [hs c List.mem_cons_self])
  unfold trimWhere
  rw [hDrop t hAll,
    hDrop t.reverse fun c hc => hAll c (List.mem_reverse.mp hc),
    List.reverse_reverse]

namespace Text

/- Decimal digits, no more of them than are read. -/
structure IsDecimal
    (t : Text) : Prop where
  isSome : t ≠ []
  areDigits : ∀ c ∈ t, c.isDigit = true
  isShort : t.length ≤ maxDigits

/- Digits do not end lines. -/
theorem IsDecimal.isLine
    {t : Text}
    (hDecimal : t.IsDecimal) :
    '\n' ∉ t ∧ '\r' ∉ t := by
  constructor
  · intro hMem
    exact absurd (hDecimal.areDigits '\n' hMem) (by decide)
  · intro hMem
    exact absurd (hDecimal.areDigits '\r' hMem) (by decide)

/- Digits of ASCII are read one by one. -/
theorem groupedDigits?_of_isDigit
    {t : Text}
    (hDigits : ∀ c ∈ t, c.isDigit = true) :
    groupedDigits? true t =
      some (t.map fun c => c.toNat - '0'.toNat) := by
  induction t with
  | nil => rfl
  | cons c rest ih =>
      have hc := hDigits c List.mem_cons_self
      have hNot : c ≠ '_' := by
        intro hEq
        subst hEq
        exact absurd hc (by decide)
      rw [groupedDigits?, if_neg hNot, digitValue?_of_isDigit hc]
      dsimp only
      rw [ih fun d hd => hDigits d (List.mem_cons_of_mem c hd)]
      rfl

/- Decimal digits are read as the number that they write. -/
theorem readNatural?_of_isDecimal
    {t : Text}
    (hDecimal : IsDecimal t) :
    readNatural? t = some (Nat.ofDigitChars 10 t 0) := by
  rcases hDecimal with ⟨hSome, hDigits, hShort⟩
  have hRead := groupedDigits?_of_isDigit hDigits
  have hFirst : groupedDigits? false t = groupedDigits? true t := by
    cases t with
    | nil => exact absurd rfl hSome
    | cons c rest =>
        have hNot : c ≠ '_' := by
          intro hEq
          subst hEq
          exact absurd (hDigits '_' List.mem_cons_self) (by decide)
        rw [groupedDigits?, groupedDigits?, if_neg hNot, if_neg hNot]
  unfold readNatural?
  rw [hFirst, hRead]
  dsimp only
  rw [List.length_map, if_pos hShort, valueOfDigits,
    List.foldl_map, Nat.ofDigitChars_eq_foldl]

/- Decimal digits have neither a sign nor blanks around them. -/
theorem readInteger?_of_isDecimal
    {t : Text}
    (hDecimal : IsDecimal t) :
    readInteger? t = some (Int.ofNat (Nat.ofDigitChars 10 t 0)) := by
  have hDigits := hDecimal.areDigits
  have hRange : ∀ c ∈ t, 48 ≤ c.toNat ∧ c.toNat ≤ 57 :=
    fun c hc => Char.isDigit_iff_toNat.mp (hDigits c hc)
  have hAscii : (t.all fun c => c.toNat < 0x80) = true := by
    rw [List.all_eq_true]
    intro c hc
    have hTo := (hRange c hc).2
    exact decide_eq_true (by omega)
  have hTrim : trimWhere isAsciiBlank t = t := by
    apply trimWhere_of_all
    intro c hc
    have hFrom := (hRange c hc).1
    have hBlank : c ≠ ' ' := by
      intro hEq
      subst hEq
      exact absurd hFrom (by decide)
    simp only [isAsciiBlank, hBlank, decide_false, Bool.false_or,
      Bool.and_eq_false_iff, decide_eq_false_iff_not]
    omega
  unfold readInteger?
  rw [if_pos hAscii]
  dsimp only
  rw [hTrim]
  split
  · exact absurd (hDigits '+' List.mem_cons_self) (by decide)
  · exact absurd (hDigits '-' List.mem_cons_self) (by decide)
  · rw [readNatural?_of_isDecimal hDecimal]
    rfl

end Text

end Whittle

------------------------------------------------------------
-- Frames
------------------------------------------------------------

namespace Whittle

/-
  A text that can stand before a marker: on its lines end only
  newlines, and the marker behind it is the first one.
-/
structure IsFramed
    (t : Text) : Prop where
  hasNoReturn : '\r' ∉ t
  endsAtMarker :
    ∀ before after,
      t ++ marker = before ++ marker ++ after → after = []

/- The marker is found behind a framed text. -/
theorem IsFramed.splitAtFirst?_eq
    {t : Text}
    (hFramed : IsFramed t) :
    splitAtFirst? marker (t ++ marker) = some (t, []) := by
  rcases exists_splitAtFirst? marker t [] with
    ⟨before, after, hSplit, -⟩
  rw [List.append_nil] at hSplit
  have hText := eq_of_splitAtFirst? hSplit
  have hAfter := hFramed.endsAtMarker before after hText
  subst hAfter
  rw [List.append_nil] at hText
  have hBefore := List.append_cancel_right hText
  subst hBefore
  exact hSplit

/- Whether a text is framed is seen by looking for the marker. -/
theorem isFramed_iff
    (t : Text) :
    IsFramed t ↔
      '\r' ∉ t ∧
        splitAtFirst? marker (t ++ marker) = some (t, []) := by
  constructor
  · intro hFramed
    exact ⟨hFramed.hasNoReturn, hFramed.splitAtFirst?_eq⟩
  · rintro ⟨hFree, hSplit⟩
    constructor
    · exact hFree
    · intro before after hText
      rcases exists_splitAtFirst? marker before after with
        ⟨b, a, hFirst, hLength⟩
      rw [← hText, hSplit] at hFirst
      cases hFirst
      have hLengths := congrArg List.length hText
      rw [List.length_append, List.length_append,
        List.length_append] at hLengths
      exact List.length_eq_zero_iff.mp (by omega)

instance (t : Text) : Decidable (IsFramed t) :=
  decidable_of_iff _ (isFramed_iff t).symm

/- An output, the marker, a reply and a newline. -/
def frame
    (output reply : Text) : Bytes :=
  Utf8.encode (output ++ marker ++ (reply ++ ['\n']))

/- A frame ends with a newline. -/
theorem getLast?_frame
    (output reply : Text) :
    (frame output reply).getLast? = some 10 := by
  have hNewline : String.utf8EncodeChar '\n' = [10] := by decide
  unfold frame Utf8.encode
  rw [← List.append_assoc, List.flatMap_append,
    List.flatMap_singleton, hNewline, List.getLast?_concat]

/- A frame without carriage returns writes the framed text. -/
theorem written_frame
    {output reply : Text}
    (hOutput : '\r' ∉ output)
    (hReply : '\r' ∉ reply) :
    Text.written (frame output reply) =
      output ++ marker ++ (reply ++ ['\n']) := by
  have hMarker := marker_isLine.2.2
  unfold Text.written frame
  rw [decodeLenient_encode, Text.unifyLineEnds_of_not_mem]
  simp [hOutput, hMarker, hReply]

/- From one frame its reply and its lines are read, no more. -/
theorem readReply_frame
    {output reply : Text}
    (hOutput : IsFramed output)
    (hReply : '\n' ∉ reply ∧ '\r' ∉ reply) :
    (Stream.empty.push (frame output reply)).readReply =
      (some reply, output.outputLines, Stream.empty) := by
  have hWritten := written_frame hOutput.hasNoReturn hReply.2
  have hSplit :=
    splitAtFirst?_append hOutput.splitAtFirst?_eq (reply ++ ['\n'])
  have hLine := Text.firstLine_append hReply.1 []
  have hSays :
      (Text.written (frame output reply)).Says output reply :=
    ⟨reply ++ ['\n'], by rw [hWritten]; exact hSplit, hLine.1⟩
  have hRead :=
    (Stream.readReply_push (frame output reply) reply
      output.outputLines).mpr ⟨output, hSays, rfl⟩
  have hLeft :=
    Stream.readReply_of_ended (getLast?_frame output reply)
  have hFree : '\r' ∉ Text.written (frame output reply) :=
    Text.return_not_mem_unifyLineEnds _
  rw [readUntilMarker_outputLines hFree, hWritten, hSplit] at hLeft
  have hStream :
      (Stream.empty.push (frame output reply)).readReply.2.2 =
        Stream.empty := by
    rw [hLeft]
    dsimp only
    rw [List.nil_append, hLine.2]
    rfl
  exact Prod.ext hRead.1 (Prod.ext hRead.2 hStream)

end Whittle

------------------------------------------------------------
-- What Processes Say
------------------------------------------------------------

namespace Whittle

namespace Process

/- What a process has written for its output. -/
def out : Process → Bytes
  | ended o _ _ => o
  | waiting o _ _ => o

/- What a process has written for its errors. -/
def err : Process → Bytes
  | ended _ e _ => e
  | waiting _ e _ => e

/- How a process goes on after a request, if it takes one. -/
def resume? : Process → Option (Disk → Process)
  | ended _ _ _ => none
  | waiting _ _ resume => some resume

/- A process frames a reply, and an empty one for its errors. -/
structure Frames
    (p : Process)
    (out err reply : Text) : Prop where
  out_eq : p.out = frame out reply
  err_eq : p.err = frame err []

/- A process sends the initial replies. -/
def Greets
    (p : Process) : Prop :=
  p.Frames [] [] "INIT".toList

end Process

namespace Connection

/- What is new on the streams is what the process has written. -/
theorem afterProcess_eq
    (out err : Stream)
    (p : Process) :
    afterProcess out err p =
      ⟨out.push p.out, err.push p.err, p.resume?⟩ := by
  cases p <;> rfl

end Connection

/- The replies of a process, and its connection after them. -/
def Process.replies
    (p : Process) : Connection.Replies × Connection :=
  (Connection.afterProcess .empty .empty p).readReplies

namespace Process

variable {p : Process}

/- A process that frames its outputs is read off. -/
theorem Frames.replies_eq
    {out err reply : Text}
    (hFrames : p.Frames out err reply)
    (hOut : IsFramed out)
    (hErr : IsFramed err)
    (hReply : '\n' ∉ reply ∧ '\r' ∉ reply) :
    p.replies =
      (⟨some reply, out.outputLines, some [], err.outputLines⟩,
        ⟨.empty, .empty, p.resume?⟩) := by
  have hNone : '\n' ∉ ([] : Text) ∧ '\r' ∉ ([] : Text) := by simp
  unfold replies
  rw [Connection.afterProcess_eq, hFrames.out_eq, hFrames.err_eq]
  unfold Connection.readReplies
  dsimp only
  rw [readReply_frame hOut hReply, readReply_frame hErr hNone]

end Process

end Whittle
