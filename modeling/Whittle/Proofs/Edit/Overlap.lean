import Mathlib.Data.List.Forall2
import Whittle.Proofs.Edit.Cutting
import Whittle.Proofs.Scratch.Rewriting

/-
  Which regions can be erased together.

  Key definitions include:
    * `Region.IsOnLines`
    * `Region.denotes`
    * `Region.Overlaps`
    * `Region.SomeOverlap`
    * `Scratch.EraseFails`

  Main statements:
    * `eraseFrom_ordered`
    * `eraseRegions_eq_ok_iff`
    * `Scratch.erase_eq_error_iff`
    * `eraseRegions_meaning`

  A region denotes a range of offsets.  Erasing compares each
  range only with the one that starts before it, but that is
  enough: ranges that each start behind the one before are
  apart from all others, whatever order they were given in.
-/

------------------------------------------------------------
-- Ranges Of Offsets
------------------------------------------------------------

namespace Whittle

namespace Region

variable {ls : List Text} {r s : Region}

/- Both lines of a region are lines of the text. -/
def IsOnLines
    (r : Region)
    (ls : List Text) : Prop :=
  (0 ≤ r.beginLine ∧ r.beginLine < ls.length) ∧
    (0 ≤ r.endLine ∧ r.endLine < ls.length)

instance
    (r : Region)
    (ls : List Text) : Decidable (r.IsOnLines ls) := by
  unfold IsOnLines
  infer_instance

/- The offset of the first character of a region. -/
def firstOffset
    (r : Region)
    (ls : List Text) : Nat :=
  offsetAt ls r.beginLine r.beginColumn

/- The offset after the last character of a region. -/
def endOffset
    (r : Region)
    (ls : List Text) : Nat :=
  offsetAt ls r.endLine r.endColumn

/- An offset is in the range that a region denotes. -/
def denotes
    (r : Region)
    (ls : List Text)
    (o : Nat) : Bool :=
  r.firstOffset ls ≤ o && o < r.endOffset ls

/- Two regions share a character. -/
def Overlaps
    (ls : List Text)
    (r s : Region) : Prop :=
  ∃ o, r.denotes ls o ∧ s.denotes ls o

/- Regions at two places of a list share a character. -/
def SomeOverlap
    (ls : List Text)
    (rs : List Region) : Prop :=
  ∃ (i j : Nat) (r s : Region),
    i ≠ j ∧ rs[i]? = some r ∧ rs[j]? = some s ∧
      Overlaps ls r s

/- A region with the offsets that it denotes. -/
def located
    (r : Region)
    (ls : List Text) : Located :=
  ⟨r.firstOffset ls, r.endOffset ls, r⟩

/- The offset of a line is found just if the line is there. -/
theorem offsetOf_eq_ok_iff
    {line column : Int}
    {o : Nat} :
    offsetOf ls line column = .ok o ↔
      (0 ≤ line ∧ line < ls.length) ∧
        o = offsetAt ls line column := by
  constructor
  · intro hOffset
    have hLine : 0 ≤ line ∧ line < ls.length := by
      unfold offsetOf at hOffset
      split at hOffset
      · cases hOffset
      · split at hOffset
        · cases hOffset
        · rename_i hStart _ hSome
          have hLt := (List.getElem?_eq_some_iff.mp hSome).1
          omega
    rw [offsetOf_eq hLine.1 hLine.2] at hOffset
    exact ⟨hLine, (Except.ok.inj hOffset).symm⟩
  · rintro ⟨⟨hStart, hStop⟩, rfl⟩
    exact offsetOf_eq hStart hStop column

/- A region is located if its range is not inverted. -/
theorem locate_eq_ok_iff
    {l : Located} :
    r.locate ls = .ok l ↔
      r.IsOnLines ls ∧ r.firstOffset ls ≤ r.endOffset ls ∧
        l = r.located ls := by
  unfold locate
  cases hStart : offsetOf ls r.beginLine r.beginColumn with
  | error e =>
      constructor
      · intro hLocate
        cases hLocate
      · rintro ⟨⟨hFirst, _⟩, _⟩
        rw [offsetOf_eq hFirst.1 hFirst.2] at hStart
        cases hStart
  | ok start =>
      obtain ⟨hFirst, rfl⟩ := offsetOf_eq_ok_iff.mp hStart
      cases hStop : offsetOf ls r.endLine r.endColumn with
      | error e =>
          constructor
          · intro hLocate
            cases hLocate
          · rintro ⟨⟨_, hLast⟩, _⟩
            rw [offsetOf_eq hLast.1 hLast.2] at hStop
            cases hStop
      | ok stop =>
          obtain ⟨hLast, rfl⟩ := offsetOf_eq_ok_iff.mp hStop
          change
            (if r.endOffset ls < r.firstOffset ls then _ else _) = _ ↔
              _
          by_cases hInverted : r.endOffset ls < r.firstOffset ls
          · rw [if_pos hInverted]
            constructor
            · intro hLocate
              cases hLocate
            · rintro ⟨_, hLe, _⟩
              omega
          · rw [if_neg hInverted]
            constructor
            · intro hLocate
              exact ⟨⟨hFirst, hLast⟩, by omega,
                (Except.ok.inj hLocate).symm⟩
            · rintro ⟨_, _, rfl⟩
              rfl

/- A region on lines of the text covers what it denotes. -/
theorem covers_eq_denotes
    (hLines : r.IsOnLines ls)
    (o : Nat) :
    r.covers ls o = r.denotes ls o := by
  unfold covers
  cases hLocate : r.locate ls with
  | ok l =>
      obtain ⟨_, _, rfl⟩ := locate_eq_ok_iff.mp hLocate
      rfl
  | error e =>
      have hInverted : r.endOffset ls < r.firstOffset ls := by
        by_contra hLe
        have hOk :=
          locate_eq_ok_iff.mpr ⟨hLines, Nat.not_lt.mp hLe, rfl⟩
        rw [hLocate] at hOk
        cases hOk
      unfold denotes
      rw [eq_comm, Bool.and_eq_false_iff, decide_eq_false_iff_not,
        decide_eq_false_iff_not]
      omega

/- Regions are located if each of them is. -/
theorem mapM_locate_eq_ok_iff
    {rs : List Region}
    {located : List Located} :
    rs.mapM (locate ls) = .ok located ↔
      (∀ r ∈ rs, r.IsOnLines ls) ∧
        (∀ r ∈ rs, r.firstOffset ls ≤ r.endOffset ls) ∧
        located = rs.map (Region.located · ls) := by
  rw [mapM_eq_ok_iff]
  induction rs generalizing located with
  | nil => simp
  | cons r rest ih =>
      cases located with
      | nil => simp
      | cons l more =>
          rw [List.forall₂_cons, ih, locate_eq_ok_iff]
          simp only [List.forall_mem_cons, List.map_cons,
            List.cons.injEq]
          tauto

/- Proper ranges are apart if they share no character. -/
theorem isApart_located_iff
    (hr : r.firstOffset ls < r.endOffset ls)
    (hs : s.firstOffset ls < s.endOffset ls) :
    (r.located ls).IsApart (s.located ls) ↔ ¬ Overlaps ls r s := by
  unfold Located.IsApart Overlaps denotes located
  dsimp only
  simp only [Bool.and_eq_true, decide_eq_true_eq, not_exists]
  constructor
  · intro hApart o hBoth
    omega
  · intro hNone
    -- the later of the two starts is in neither range or in both
    have hAt := hNone (max (r.firstOffset ls) (s.firstOffset ls))
    omega

/- A region that shares a character is a proper range. -/
theorem Overlaps.proper
    (hOverlaps : Overlaps ls r s) :
    r.firstOffset ls < r.endOffset ls ∧
      s.firstOffset ls < s.endOffset ls := by
  obtain ⟨o, hr, hs⟩ := hOverlaps
  unfold denotes at hr hs
  simp only [Bool.and_eq_true, decide_eq_true_eq] at hr hs
  omega

theorem Overlaps.symm
    (hOverlaps : Overlaps ls r s) :
    Overlaps ls s r := by
  obtain ⟨o, hr, hs⟩ := hOverlaps
  exact ⟨o, hs, hr⟩

/- Regions share no character just if no two places do. -/
theorem pairwise_not_overlaps_iff
    {rs : List Region} :
    (rs.Pairwise fun r s => ¬ Overlaps ls r s) ↔
      ¬ SomeOverlap ls rs := by
  rw [List.pairwise_iff_getElem]
  constructor
  · rintro hNone ⟨i, j, r, s, hNe, hr, hs, hOverlaps⟩
    obtain ⟨hi, rfl⟩ := List.getElem?_eq_some_iff.mp hr
    obtain ⟨hj, rfl⟩ := List.getElem?_eq_some_iff.mp hs
    rcases Nat.lt_or_gt_of_ne hNe with hLt | hGt
    · exact hNone i j hi hj hLt hOverlaps
    · exact hNone j i hj hi hGt hOverlaps.symm
  · intro hNone i j hi hj hLt hOverlaps
    exact hNone ⟨i, j, _, _, Nat.ne_of_lt hLt,
      List.getElem?_eq_getElem hi, List.getElem?_eq_getElem hj,
      hOverlaps⟩

/- Empty ranges may lie anywhere. -/
theorem pairwise_proper_iff
    {rs : List Region} :
    ((rs.map (located · ls)).filter
        fun l => l.start < l.stop).Pairwise Located.IsApart ↔
      rs.Pairwise fun r s => ¬ Overlaps ls r s := by
  rw [List.pairwise_filter, List.pairwise_map]
  constructor
  · refine fun hPairwise => hPairwise.imp ?_
    intro r s hApart hOverlaps
    obtain ⟨hr, hs⟩ := hOverlaps.proper
    exact (isApart_located_iff hr hs).mp
      (hApart (decide_eq_true hr) (decide_eq_true hs)) hOverlaps
  · refine fun hPairwise => hPairwise.imp ?_
    intro r s hNone hr hs
    exact (isApart_located_iff (of_decide_eq_true hr)
      (of_decide_eq_true hs)).mpr hNone

end Region

end Whittle

------------------------------------------------------------
-- Erasing
------------------------------------------------------------

namespace Whittle

open Region

variable {t t' : Text} {rs : List Region}

/-
  Where erasing succeeds, each range starts behind those that
  were erased before it.
-/
theorem eraseFrom_ordered
    {pos : Nat}
    {previous : Region}
    {rest : Text}
    {located : List Located}
    (hProper : ∀ l ∈ located, l.start < l.stop)
    (hErase : eraseFrom pos previous rest located = .ok t) :
    (∀ l ∈ located, pos ≤ l.start) ∧
      located.Pairwise fun a b => a.stop ≤ b.start := by
  induction located generalizing pos previous rest t with
  | nil => exact ⟨by simp, .nil⟩
  | cons l more ih =>
      have hStop := hProper l (by simp)
      unfold eraseFrom at hErase
      split at hErase
      · cases hErase
      · cases hTail :
            eraseFrom l.stop l.region (rest.drop (l.stop - pos))
              more with
        | error e =>
            rw [hTail] at hErase
            cases hErase
        | ok tail =>
            obtain ⟨hBehind, hOrder⟩ :=
              ih (fun s hs => hProper s (List.mem_cons_of_mem l hs))
                hTail
            refine ⟨?_, List.pairwise_cons.mpr ⟨hBehind, hOrder⟩⟩
            intro s hs
            rcases List.mem_cons.mp hs with rfl | hs
            · omega
            · have hLe := hBehind s hs
              omega

/- Located regions that have been erased are apart. -/
theorem pairwise_of_eraseRegions
    {located : List Located}
    (hLocated : rs.mapM (Region.locate t.lines) = .ok located)
    (hErase : eraseRegions t rs = .ok t') :
    (located.filter fun l => l.start < l.stop).Pairwise
      Located.IsApart := by
  have hPerm :=
    List.mergeSort_perm (located.filter fun l => l.start < l.stop)
      fun a b => a.start ≤ b.start
  unfold eraseRegions at hErase
  dsimp only at hErase
  rw [hLocated] at hErase
  have hProper :
      ∀ l ∈ (located.filter fun l => l.start < l.stop).mergeSort
        (fun a b => a.start ≤ b.start), l.start < l.stop := by
    intro l hl
    simpa using (List.mem_filter.mp (hPerm.mem_iff.mp hl)).2
  refine (hPerm.pairwise_iff Located.IsApart.symm).mp ?_
  exact (eraseFrom_ordered hProper hErase).2.imp fun hLe => .inl hLe

/-
  Regions are erased just if all of them lie on lines of the
  text, none is inverted, and no two share a character.  What
  is left are the characters that none of them denotes.
-/
theorem eraseRegions_eq_ok_iff :
    eraseRegions t rs = .ok t' ↔
      (∀ r ∈ rs, r.IsOnLines t.lines) ∧
        (∀ r ∈ rs, r.firstOffset t.lines ≤ r.endOffset t.lines) ∧
        (rs.Pairwise fun r s => ¬ Overlaps t.lines r s) ∧
        t' = t.without fun o => rs.any (·.denotes t.lines o) := by
  have hAny :
      ∀ o, (rs.map (Region.located · t.lines)).any (·.covers o) =
        rs.any (·.denotes t.lines o) := by
    intro o
    rw [List.any_map]
    rfl
  constructor
  · intro hErase
    cases hLocated : rs.mapM (Region.locate t.lines) with
    | error e =>
        unfold eraseRegions at hErase
        dsimp only at hErase
        rw [hLocated] at hErase
        cases hErase
    | ok located =>
        have hApart := pairwise_of_eraseRegions hLocated hErase
        rw [eraseRegions_eq hLocated hApart] at hErase
        obtain ⟨hLines, hUpright, rfl⟩ :=
          mapM_locate_eq_ok_iff.mp hLocated
        refine ⟨hLines, hUpright, pairwise_proper_iff.mp hApart, ?_⟩
        rw [← Except.ok.inj hErase]
        simp only [hAny]
  · rintro ⟨hLines, hUpright, hApart, rfl⟩
    have hLocated :=
      mapM_locate_eq_ok_iff.mpr ⟨hLines, hUpright, rfl⟩
    rw [eraseRegions_eq hLocated (pairwise_proper_iff.mpr hApart)]
    simp only [hAny]

end Whittle

------------------------------------------------------------
-- Erasing In A File
------------------------------------------------------------

namespace Whittle

namespace Scratch

open Work

variable {r : SourceRules} {s : Scratch} {h h' : Host}
variable {regions : List Region} {e : Failure}

/- Reading a text leaves the host as it is. -/
theorem host_of_readText
    {p : FilePath}
    {result : Except Failure Text}
    (hText : Host.readText r.charset p h = (result, h')) :
    h' = h := by
  have hSame := Host.moves_readText (R := Eq) r.charset p h
  cases result with
  | ok t => exact (hSame.of_ok hText).symm
  | error e => exact (hSame.of_error hText).symm

/- A text is read from a file that is there. -/
theorem exists_of_readText
    {p : FilePath}
    {t : Text}
    (hText : Host.readText r.charset p h = (.ok t, h')) :
    r.charset ≠ .misnamed ∧
      ∃ bs, h.disk.read p = .ok bs ∧
        r.charset.decode bs = .ok t := by
  have hNamed : r.charset ≠ .misnamed := by
    intro hMisnamed
    rw [hMisnamed] at hText
    cases hText
  refine ⟨hNamed, ?_⟩
  cases hRead : h.disk.read p with
  | ok bs =>
      rw [readText_of_read hRead] at hText
      exact ⟨bs, rfl, congrArg Prod.fst hText⟩
  | error e =>
      have hBytes :
          Host.readBytes p h = (.error (.disk e), h) := by
        have hRun :
            Host.readBytes p h =
              (Host.orFail (h.disk.read p)) h := rfl
        rw [hRun, hRead]
        rfl
      unfold Host.readText at hText
      rw [Host.readTextFrom_eq hNamed, bind_of_error hBytes] at hText
      cases hText

/-
  How erasing regions in a file fails.
    * `unread` : the text cannot be read.
    * `refused` : the regions cannot be erased from it.
    * `emptied` : what is left of it has no form in the
      charset.  By then the file holds nothing.
-/
inductive EraseFails
    (r : SourceRules)
    (s : Scratch)
    (regions : List Region)
    (h : Host) : Failure → Host → Prop
| unread {e : Failure}
    (hText : Host.readText r.charset s.path h = (.error e, h)) :
    EraseFails r s regions h e h
| refused {t : Text} {cause : RegionError}
    (hText : Host.readText r.charset s.path h = (.ok t, h))
    (hErase : eraseRegions t regions = .error cause) :
    EraseFails r s regions h (.regions cause) h
| emptied {t t' : Text} {d : Disk} {e : Failure}
    (hText : Host.readText r.charset s.path h = (.ok t, h))
    (hErase : eraseRegions t regions = .ok t')
    (hEncode : r.charset.encode t' = .error e)
    (hEmpty : h.disk.write s.path [] = .ok d) :
    EraseFails r s regions h e { h with disk := d }

/- Writing a text without a form empties the file. -/
theorem writeText_of_unencodable
    {t : Text}
    {d : Disk}
    (hNamed : r.charset ≠ .misnamed)
    (hEncode : r.charset.encode t = .error e)
    (hEmpty : h.disk.write s.path [] = .ok d) :
    Host.writeText r.charset s.path t h =
      (.error e, { h with disk := d }) := by
  have hBytes :
      Host.writeBytes s.path [] h =
        (.ok (), { h with disk := d }) := by
    have hRun :
        Host.writeBytes s.path [] h =
          (do
            let d ← Host.orFail (h.disk.write s.path [])
            set { h with disk := d } : Work Host Unit) h := rfl
    rw [hRun, hEmpty]
    rfl
  rw [Host.writeText_eq hNamed, bind_of_ok hBytes, hEncode]
  rfl

theorem eraseFails_of_erase
    (hFails : s.erase r regions h = (.error e, h')) :
    EraseFails r s regions h e h' := by
  rcases hText : Host.readText r.charset s.path h with
    ⟨result, h₁⟩
  obtain rfl := host_of_readText hText
  unfold erase at hFails
  cases result with
  | error e' =>
      rw [bind_of_error hText] at hFails
      cases hFails
      exact .unread hText
  | ok t =>
      rw [bind_of_ok hText] at hFails
      cases hErase : eraseRegions t regions with
      | error cause =>
          rw [hErase] at hFails
          cases hFails
          exact .refused hText hErase
      | ok t' =>
          rw [hErase] at hFails
          obtain ⟨hNamed, bs, hRead, _⟩ := exists_of_readText hText
          obtain ⟨d, hEmpty⟩ := Disk.exists_write ⟨bs, hRead⟩ []
          have hEncode :=
            (gives_writeText r.charset s.path t').of_error hFails
              ⟨bs, hRead⟩
          have hRun := writeText_of_unencodable (h := h₁)
            hNamed hEncode hEmpty
          cases hRun.symm.trans hFails
          exact .emptied hText hErase hEncode hEmpty

theorem EraseFails.erase_eq
    (hFails : EraseFails r s regions h e h') :
    s.erase r regions h = (.error e, h') := by
  unfold erase
  cases hFails with
  | unread hText => exact bind_of_error hText
  | refused hText hErase =>
      rw [bind_of_ok hText, hErase]
      rfl
  | emptied hText hErase hEncode hEmpty =>
      rw [bind_of_ok hText, hErase]
      exact writeText_of_unencodable (exists_of_readText hText).1
        hEncode hEmpty

/- Erasing in a file fails in these three ways. -/
theorem erase_eq_error_iff :
    s.erase r regions h = (.error e, h') ↔
      EraseFails r s regions h e h' :=
  ⟨eraseFails_of_erase, EraseFails.erase_eq⟩

/-
  In a charset that writes character by character what is left
  of a text has a form.  The file is as before then.
-/
theorem EraseFails.eq_of_isCharwise
    (hFails : EraseFails r s regions h e h')
    (hCharwise : r.charset.IsCharwise) :
    h' = h := by
  cases hFails with
  | unread _ => rfl
  | refused _ _ => rfl
  | emptied hText hErase hEncode _ =>
      obtain ⟨_, bs, _, hDecode⟩ := exists_of_readText hText
      obtain ⟨bs', hBytes⟩ :=
        hCharwise.exists_encode_of_sublist hDecode
          (eraseRegions_sublist hErase)
      cases hEncode.symm.trans hBytes

end Scratch

end Whittle

------------------------------------------------------------
-- The Meaning Of Erasing
------------------------------------------------------------

namespace Whittle

open Region

variable {t : Text} {rs rs' : List Region}

/- Regions that are erased have left out what they denote. -/
theorem eraseRegions_cases
    (t : Text)
    (rs : List Region) :
    (∃ e, eraseRegions t rs = .error e) ∨
      eraseRegions t rs =
        .ok (t.without fun o => rs.any (·.denotes t.lines o)) := by
  cases hErase : eraseRegions t rs with
  | error e => exact .inl ⟨e, rfl⟩
  | ok t' =>
      rw [(eraseRegions_eq_ok_iff.mp hErase).2.2.2]
      exact .inr rfl

/- Why regions cannot be erased. -/
theorem eraseRegions_error_iff :
    (∃ e, eraseRegions t rs = .error e) ↔
      (∃ r ∈ rs, ¬ r.IsOnLines t.lines) ∨
        (∃ r ∈ rs, r.endOffset t.lines < r.firstOffset t.lines) ∨
        SomeOverlap t.lines rs := by
  constructor
  · rintro ⟨e, hError⟩
    by_contra hNone
    simp only [not_or, not_exists, not_and, not_not, Nat.not_lt]
      at hNone
    obtain ⟨hLines, hUpright, hApart⟩ := hNone
    rw [eraseRegions_eq_ok_iff.mpr
      ⟨hLines, hUpright, pairwise_not_overlaps_iff.mpr hApart, rfl⟩]
      at hError
    cases hError
  · intro hSome
    rcases eraseRegions_cases t rs with hError | hErase
    · exact hError
    · obtain ⟨hLines, hUpright, hApart, _⟩ :=
        eraseRegions_eq_ok_iff.mp hErase
      rcases hSome with ⟨r, hr, hOff⟩ | ⟨r, hr, hLt⟩ | hOverlap
      · exact absurd (hLines r hr) hOff
      · exact absurd (hUpright r hr) (Nat.not_le_of_lt hLt)
      · exact absurd hOverlap (pairwise_not_overlaps_iff.mp hApart)

theorem eraseRegions_of_perm
    {t' : Text}
    (hPerm : rs.Perm rs')
    (hErase : eraseRegions t rs = .ok t') :
    eraseRegions t rs' = .ok t' := by
  obtain ⟨hLines, hUpright, hApart, rfl⟩ :=
    eraseRegions_eq_ok_iff.mp hErase
  refine eraseRegions_eq_ok_iff.mpr ⟨?_, ?_, ?_, ?_⟩
  · exact fun r hr => hLines r (hPerm.mem_iff.mpr hr)
  · exact fun r hr => hUpright r (hPerm.mem_iff.mpr hr)
  · exact (hPerm.pairwise_iff
      fun hNone hOverlaps => hNone hOverlaps.symm).mp hApart
  · refine congrArg t.without (funext fun o => ?_)
    exact hPerm.any_eq

/- The order of the regions does not matter. -/
theorem toOption_eraseRegions_eq
    (hPerm : rs.Perm rs') :
    (eraseRegions t rs').toOption = (eraseRegions t rs).toOption := by
  cases hErase : eraseRegions t rs with
  | ok t' => rw [eraseRegions_of_perm hPerm hErase]
  | error e =>
      cases hErase' : eraseRegions t rs' with
      | error e' => rfl
      | ok t' =>
          rw [eraseRegions_of_perm hPerm.symm hErase'] at hErase
          cases hErase

/-
  Erasing is refused just if a region has a line that is not
  in the text, if one is inverted, or if regions at two places
  of the list share a character.  Otherwise just those
  characters are left out that some region denotes.  So the
  order of the regions does not matter.  Erasing in a file
  fails while the text is read, because erasing is refused, or
  because what is left has no form.  In the last case the file
  is empty, in the others it is as it was.  There is no such
  case if the charset writes character by character.
-/
theorem eraseRegions_meaning
    (t : Text)
    (rs : List Region) :
    ((∃ e, eraseRegions t rs = .error e) ↔
      (∃ r ∈ rs, ¬ r.IsOnLines t.lines) ∨
        (∃ r ∈ rs, r.endOffset t.lines < r.firstOffset t.lines) ∨
        SomeOverlap t.lines rs) ∧
      ((∃ e, eraseRegions t rs = .error e) ∨
        eraseRegions t rs =
          .ok (t.without fun o => rs.any (·.denotes t.lines o))) ∧
      (∀ rs', rs.Perm rs' →
        (eraseRegions t rs').toOption =
          (eraseRegions t rs).toOption) ∧
      ∀ (r : SourceRules) (s : Scratch) (h h' : Host) (e : Failure),
        (s.erase r rs h = (.error e, h') ↔
          s.EraseFails r rs h e h') ∧
        (s.erase r rs h = (.error e, h') →
          r.charset.IsCharwise → h' = h) :=
  ⟨eraseRegions_error_iff, eraseRegions_cases t rs,
    fun _ hPerm => toOption_eraseRegions_eq hPerm,
    fun _ _ _ _ _ => ⟨Scratch.erase_eq_error_iff,
      fun hFails =>
        (Scratch.erase_eq_error_iff.mp hFails).eq_of_isCharwise⟩⟩

/-
  A codec in which a letter has a code together with a mark
  above it.  The mark has none of its own.
-/
def pairedCodec : Codec where
  decode? bs :=
    if bs = [0x88, 0x62] then some ['Ê', '\u0304'] else none
  encode? t :=
    if t = ['Ê', '\u0304'] then some [0x88, 0x62]
    else if t = [] then some []
    else none

/-
  Regions are erased whichever of them is given first.  A file
  in which a letter is erased, and only the mark above it is
  left, is emptied.
-/
theorem eraseRegions_meaning_words :
    (eraseRegions "one two three".toList
      [⟨0, 0, 8, 13⟩, ⟨0, 0, 0, 4⟩]).toOption =
        some "two ".toList ∧
      ∃ h',
        Scratch.erase ⟨⟨"", fun _ _ => none, fun _ => false⟩,
            .known pairedCodec, true⟩
          (.create (.ofText "a")) [⟨0, 0, 0, 1⟩]
          (.ofDisk ⟨[(.ofText "a", .file [0x88, 0x62])]⟩) =
            (.error .unencodable, h') ∧
        h'.disk.read (.ofText "a") = .ok [] := by
  have hSorted :
      eraseRegions "one two three".toList
          [⟨0, 0, 0, 4⟩, ⟨0, 0, 8, 13⟩] =
        .ok "two ".toList := by
    rw [eraseRegions_of_sorted (by rfl) (by decide)]
    rfl
  have hLetter :
      eraseRegions ['Ê', '\u0304'] [⟨0, 0, 0, 1⟩] =
        .ok ['\u0304'] := by
    rw [eraseRegions_of_sorted (by rfl) (by decide)]
    rfl
  constructor
  · rw [(eraseRegions_meaning "one two three".toList
      [⟨0, 0, 0, 4⟩, ⟨0, 0, 8, 13⟩]).2.2.1 _ (.swap _ _ _), hSorted]
    rfl
  · have hFails :=
      (eraseRegions_meaning ['Ê', '\u0304'] [⟨0, 0, 0, 1⟩]).2.2.2
    exact ⟨_, (hFails _ _ _ _ _).1.mpr
      (.emptied rfl hLetter rfl rfl), rfl⟩

end Whittle
