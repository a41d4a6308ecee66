import Whittle.Proofs.Scratch.Editing
import Whittle.Proofs.Scratch.Writing

/-
  What files hold after they have been edited.

  Key definitions include:
    * `Host.Rewrites`
    * `Host.Gives`
    * `Scratch.trimmed`
    * `Scratch.cleaned`
    * `Host.RewritesAll`

  Main statements:
    * `Scratch.gives_writeTrimmed`
    * `Scratch.gives_writeCleaned`
    * `Scratch.gives_writeWithoutBlankLines`
    * `Workspace.ends_forM`

  Every edit of a file starts from its accepted contents, so
  what it gives the file, or how it fails, depends on nothing
  else.  Files are edited one after the other.  Two of them
  may be the same file: then the later edit is the one that
  lasts, and what it leaves has to be right for the earlier
  file too.
-/

------------------------------------------------------------
-- One File
------------------------------------------------------------

namespace Whittle

namespace Host

/-
  A file has been given contents that are as `P` says, and the
  files at other places hold what they held.
-/
structure Rewrites
    (p : FilePath)
    (P : Bytes → Prop)
    (h h' : Host) : Prop where
  grows : h.Grows h'
  holds : ∃ bs, h'.disk.read p = .ok bs ∧ P bs
  others : ∀ q bs, q.resolved ≠ p.resolved →
    h.disk.read q = .ok bs → h'.disk.read q = .ok bs

/- Writing a file gives it new contents. -/
theorem rewrites_of_write
    {p : FilePath}
    {P : Bytes → Prop}
    {bs : Bytes}
    {h h' : Host}
    (hWrite : h.disk.write p bs = .ok h'.disk)
    (hP : P bs) :
    h.Rewrites p P h' :=
  ⟨Disk.grows_update hWrite,
    ⟨bs, Disk.read_write_self hWrite, hP⟩,
    fun _ _ hNe hRead => Disk.read_update_of_ne hWrite hNe hRead⟩

theorem Rewrites.trans
    {p : FilePath}
    {P Q : Bytes → Prop}
    {h₁ h₂ h₃ : Host}
    (h₁₂ : h₁.Rewrites p P h₂)
    (h₂₃ : h₂.Rewrites p Q h₃) :
    h₁.Rewrites p Q h₃ :=
  ⟨trans_of Grows h₁₂.grows h₂₃.grows, h₂₃.holds,
    fun q bs hNe hRead =>
      h₂₃.others q bs hNe (h₁₂.others q bs hNe hRead)⟩

theorem Rewrites.mono
    {p : FilePath}
    {P Q : Bytes → Prop}
    {h h' : Host}
    (hRewrites : h.Rewrites p P h')
    (hImp : ∀ bs, P bs → Q bs) :
    h.Rewrites p Q h' := by
  obtain ⟨hGrows, ⟨bs, hRead, hP⟩, hOthers⟩ := hRewrites
  exact ⟨hGrows, ⟨bs, hRead, hImp bs hP⟩, hOthers⟩

/-
  Work gives a file some contents, or fails as it should, at
  least if the file is there.
-/
def Gives
    (h : Host)
    (p : FilePath)
    (result : Except Failure Bytes)
    (work : Work Host Unit) : Prop :=
  Work.Ends work h
    (fun _ h' => h.Rewrites p (fun bs => result = .ok bs) h')
    (fun e _ => h.disk.IsFile p → result = .error e)

theorem Gives.bind
    {h : Host}
    {p : FilePath}
    {bs : Bytes}
    {result : Except Failure Bytes}
    {first : Work Host Unit}
    {next : Unit → Work Host Unit}
    (hFirst : h.Gives p (.ok bs) first)
    (hNext : ∀ h' : Host, h'.disk.read p = .ok bs →
      h'.Gives p result (next ())) :
    h.Gives p result (first >>= next) := by
  apply Work.ends_bind
  refine Work.Ends.mono hFirst ?_ ?_
  · intro _ h₁ hGiven
    obtain ⟨bs', hRead, hSame⟩ := hGiven.holds
    cases hSame
    refine (hNext h₁ hRead).mono ?_ ?_
    · exact fun _ _ hGiven' => hGiven.trans hGiven'
    · exact fun _ _ hFails _ => hFails ⟨bs, hRead⟩
  · intro _ _ hNever hFile
    cases hNever hFile

theorem gives_throw
    {h : Host}
    {p : FilePath}
    (e : Failure) :
    h.Gives p (.error e) (throw e) :=
  Work.ends_throw fun _ => rfl

/- Writing a file gives it what is written. -/
theorem gives_writeBytes
    (h : Host)
    (p : FilePath)
    (bs : Bytes) :
    h.Gives p (.ok bs) (writeBytes p bs) := by
  refine (ends_writeBytes p bs h).mono ?_ ?_
  · exact fun _ _ hWrite => rewrites_of_write hWrite rfl
  · exact fun _ _ hMissing hFile => absurd hFile hMissing.2

end Host

namespace SourceRules

/- Some contents of a file without what may go between nodes. -/
def cleaned
    (r : SourceRules)
    (p : FilePath)
    (bs : Bytes) : Except Failure Bytes :=
  match r.charset.decode bs with
  | .error e => .error e
  | .ok t =>
      match r.frontEnd.parse p.text t with
      | none => .error .unparsable
      | some parsed =>
          match parsed.tree.gapRegions t.lines r.validates
              r.frontEnd.isRemovableGap with
          | .error _ => .error .outOfText
          | .ok regions => r.erased regions bs

theorem cuts_of_cleaned
    {r : SourceRules}
    {p : FilePath}
    {bs bs' : Bytes}
    (hCleaned : r.cleaned p bs = .ok bs') :
    r.Cuts bs bs' := by
  unfold cleaned at hCleaned
  split at hCleaned
  · cases hCleaned
  · split at hCleaned
    · cases hCleaned
    · split at hCleaned
      · cases hCleaned
      · exact cuts_of_erased hCleaned

end SourceRules

namespace Scratch

open Host Work

variable {r : SourceRules} {s : Scratch} {h : Host} {bs : Bytes}

/- Restoring a file gives it what was accepted. -/
theorem gives_rollBack
    (hSnapshot : s.snapshot = some bs) :
    h.Gives s.path (.ok bs) s.rollBack := by
  unfold rollBack readSnapshot
  rw [hSnapshot]
  exact h.gives_writeBytes s.path bs

/- Writing a text gives the bytes that it is written as. -/
theorem gives_writeText
    (charset : Charset)
    (p : FilePath)
    (t : Text) :
    h.Gives p (charset.encode t) (Host.writeText charset p t) := by
  by_cases hNamed : charset = .misnamed
  · subst hNamed
    exact gives_throw _
  · rw [Host.writeText_eq hNamed]
    refine (h.gives_writeBytes p []).bind ?_
    intro h₁ _
    cases charset.encode t with
    | ok bs => exact h₁.gives_writeBytes p bs
    | error e => exact gives_throw e

/- Going on with the text of contents that can be had. -/
theorem gives_readTextFrom
    {p : FilePath}
    {contents : Work Host Bytes}
    {result : Text → Except Failure Bytes}
    {next : Text → Work Host Unit}
    (hContents : contents h = (.ok bs, h))
    (hNext : ∀ t, h.Gives p (result t) (next t)) :
    h.Gives p
      (match r.charset.decode bs with
      | .error e => .error e
      | .ok t => result t)
      (do
        let t ← Host.readTextFrom r.charset contents
        next t) := by
  have hText :
      Host.readTextFrom r.charset contents h =
        (r.charset.decode bs, h) :=
    readTextFrom_of_ok hContents
  cases hDecode : r.charset.decode bs with
  | error e =>
      rw [hDecode] at hText
      unfold Gives Ends
      rw [bind_of_error hText]
      exact fun _ => rfl
  | ok t =>
      rw [hDecode] at hText
      apply ends_bind
      exact ends_of_eq_ok hText (hNext t)

/- Erasing regions of a file that is there. -/
theorem gives_erase
    (regions : List Region)
    (hRead : h.disk.read s.path = .ok bs) :
    h.Gives s.path (r.erased regions bs) (s.erase r regions) := by
  refine gives_readTextFrom (readBytes_eq hRead) ?_
  intro t
  cases eraseRegions t regions with
  | error e => exact gives_throw _
  | ok t' => exact gives_writeText r.charset s.path t'

/- The accepted contents of a file without some of its nodes. -/
def trimmed
    (r : SourceRules)
    (nodes : NodeTable)
    (s : Scratch) : Except Failure Bytes :=
  match s.snapshot, s.root with
  | some bs, some p =>
      if nodes.all fun n => s.nodes.contains n then
        r.erased
          (p.tree.cutRegions
            (fun i => nodes.contains (p.tree.node i)) r.validates)
          bs
      else
        .error .unmet
  | none, _ => .error s.lostSnapshot
  | some _, none => .error .unmet

/- The accepted contents of a file, cleaned up. -/
def cleaned
    (r : SourceRules)
    (s : Scratch) : Except Failure Bytes :=
  match s.snapshot with
  | some bs => r.cleaned s.path bs
  | none => .error s.lostSnapshot

/- Cutting nodes starts from the accepted contents. -/
theorem gives_writeTrimmed
    (nodes : NodeTable)
    (hSnapshot : s.snapshot = some bs) :
    h.Gives s.path (s.trimmed r nodes) (s.writeTrimmed r nodes) := by
  refine (gives_rollBack hSnapshot).bind ?_
  intro h₁ hRead
  unfold trimmed
  rw [hSnapshot]
  cases s.root with
  | none => exact gives_throw _
  | some p =>
      dsimp only
      split
      · exact gives_erase _ hRead
      · exact gives_throw _

/- Trimming gaps starts from the accepted contents too. -/
theorem gives_writeCleaned
    (hSnapshot : s.snapshot = some bs) :
    h.Gives s.path (s.cleaned r) (s.writeCleaned r) := by
  have hBytes : ∀ h₁ : Host, s.readSnapshot h₁ = (.ok bs, h₁) := by
    intro h₁
    unfold readSnapshot
    rw [hSnapshot]
    rfl
  unfold cleaned
  rw [hSnapshot]
  refine (gives_rollBack hSnapshot).bind ?_
  intro h₁ hRead
  refine gives_readTextFrom (hBytes h₁) ?_
  intro t
  unfold parse
  cases r.frontEnd.parse s.path.text t with
  | none => exact gives_throw _
  | some parsed =>
      dsimp only
      cases parsed.tree.gapRegions t.lines r.validates
          r.frontEnd.isRemovableGap with
      | error e => exact gives_throw _
      | ok regions => exact gives_erase regions hRead

/- Dropping blank lines starts from the accepted contents. -/
theorem gives_writeWithoutBlankLines
    (hSnapshot : s.snapshot = some bs) :
    h.Gives s.path (r.stripped bs)
      (s.writeWithoutBlankLines r) := by
  refine (gives_rollBack hSnapshot).bind ?_
  intro h₁ hRead
  exact gives_readTextFrom (readBytes_eq hRead)
    (fun t => gives_writeText r.charset s.path _)

end Scratch

end Whittle

------------------------------------------------------------
-- All Files
------------------------------------------------------------

namespace Whittle

namespace Host

/-
  Files hold contents that are as `P` says, and the files at
  other places hold what they held.
-/
structure RewritesAll
    (ss : List Scratch)
    (P : Scratch → Bytes → Prop)
    (h h' : Host) : Prop where
  grows : h.Grows h'
  holds : ∀ s ∈ ss, ∃ bs, h'.disk.read s.path = .ok bs ∧ P s bs
  others : ∀ q bs, q.resolved ∉ ss.map (·.path.resolved) →
    h.disk.read q = .ok bs → h'.disk.read q = .ok bs

/- What is right for a file is right for it under other names. -/
def IsShared
    (ss : List Scratch)
    (P : Scratch → Bytes → Prop) : Prop :=
  ∀ s ∈ ss, ∀ t ∈ ss, s.path.resolved = t.path.resolved →
    ∀ bs, P t bs → P s bs

variable {ss : List Scratch} {P : Scratch → Bytes → Prop}

theorem rewritesAll_nil
    (h : Host) :
    RewritesAll [] P h h :=
  ⟨Std.Refl.refl h, by simp, fun _ _ _ hRead => hRead⟩

theorem RewritesAll.cons
    {s : Scratch}
    {h₁ h₂ h₃ : Host}
    (hShared : IsShared (s :: ss) P)
    (hFirst : h₁.Rewrites s.path (P s) h₂)
    (hRest : RewritesAll ss P h₂ h₃) :
    RewritesAll (s :: ss) P h₁ h₃ := by
  refine ⟨trans_of Grows hFirst.grows hRest.grows, ?_, ?_⟩
  · intro t ht
    rcases List.mem_cons.mp ht with rfl | hMem
    · obtain ⟨bs, hRead, hP⟩ := hFirst.holds
      by_cases hAgain :
          t.path.resolved ∈ ss.map (·.path.resolved)
      · -- the file is written once more, under another name
        obtain ⟨v, hv, hSame⟩ := List.mem_map.mp hAgain
        obtain ⟨bs', hRead', hP'⟩ := hRest.holds v hv
        obtain ⟨bs'', hRead''⟩ :=
          hRest.grows.files t.path ⟨bs, hRead⟩
        obtain rfl :=
          Disk.read_eq_of_resolved hSame hRead' hRead''
        exact ⟨bs', hRead'', hShared t (by simp) v
          (List.mem_cons_of_mem t hv) hSame.symm bs' hP'⟩
      · exact ⟨bs, hRest.others _ _ hAgain hRead, hP⟩
    · exact hRest.holds t hMem
  · intro q bs hNot hRead
    rw [List.map_cons, List.mem_cons, not_or] at hNot
    exact hRest.others q bs hNot.2
      (hFirst.others q bs hNot.1 hRead)

/- All files, and then one of them once more. -/
theorem RewritesAll.again
    {Q : Scratch → Bytes → Prop}
    {s : Scratch}
    {h₁ h₂ h₃ : Host}
    (hShared : IsShared ss Q)
    (hImp : ∀ t bs, P t bs → Q t bs)
    (hMem : s ∈ ss)
    (hAll : RewritesAll ss P h₁ h₂)
    (hAgain : h₂.Rewrites s.path (Q s) h₃) :
    RewritesAll ss Q h₁ h₃ := by
  refine ⟨trans_of Grows hAll.grows hAgain.grows, ?_, ?_⟩
  · intro t ht
    obtain ⟨bs, hRead, hP⟩ := hAll.holds t ht
    by_cases hSame : t.path.resolved = s.path.resolved
    · obtain ⟨bs', hRead', hQ⟩ := hAgain.holds
      obtain ⟨bs'', hRead''⟩ := hAgain.grows.files t.path ⟨bs, hRead⟩
      obtain rfl := Disk.read_eq_of_resolved hSame hRead'' hRead'
      exact ⟨_, hRead'', hShared t ht s hMem hSame _ hQ⟩
    · exact ⟨bs, hAgain.others _ _ hSame hRead, hImp t bs hP⟩
  · intro q bs hNot hRead
    refine hAgain.others q bs ?_ (hAll.others q bs hNot hRead)
    exact fun hSame => hNot (List.mem_map.mpr ⟨s, hMem, hSame.symm⟩)

/- All files together hold contents that are right. -/
theorem RewritesAll.exists_holds
    {h h' : Host}
    (hAll : RewritesAll ss P h h') :
    ∃ cs, h'.disk.Holds (ss.map (·.path)) cs ∧
      List.Forall₂ P ss cs := by
  have hHolds := hAll.holds
  clear hAll
  induction ss with
  | nil => exact ⟨[], .nil, .nil⟩
  | cons s rest ih =>
      obtain ⟨bs, hRead, hP⟩ := hHolds s (by simp)
      obtain ⟨cs, hRest, hAll⟩ :=
        ih (fun t ht => hHolds t (List.mem_cons_of_mem s ht))
      exact ⟨bs :: cs, .cons hRead hRest, .cons hP hAll⟩

end Host

namespace Workspace

open Host Work

variable {ss : List Scratch} {P : Scratch → Bytes → Prop}

/-
  Work that gives each file what it should gives it to all
  files, or fails at the first file for which it should.
-/
theorem ends_forM
    {result : Scratch → Except Failure Bytes}
    {work : Scratch → Work Host Unit}
    {h : Host}
    (hShared : IsShared ss P)
    (hWork : ∀ s ∈ ss, ∀ h : Host,
      h.Gives s.path (result s) (work s))
    (hRight : ∀ s ∈ ss, ∀ bs, result s = .ok bs → P s bs) :
    Ends (ss.forM work) h
      (fun _ h' => RewritesAll ss P h h')
      (fun e _ => (∀ s ∈ ss, h.disk.IsFile s.path) →
        ss.mapM result = .error e) := by
  induction ss generalizing h with
  | nil => exact ends_pure (rewritesAll_nil h)
  | cons s rest ih =>
      apply ends_bind
      refine Ends.mono (hWork s (by simp) h) ?_ ?_
      · intro _ h₁ hFirst
        obtain ⟨bs, _, hResult⟩ := hFirst.holds
        refine Ends.mono (ih ?_ ?_ ?_) ?_ ?_
        · intro t ht v hv
          exact hShared t (List.mem_cons_of_mem s ht) v
            (List.mem_cons_of_mem s hv)
        · exact fun t ht => hWork t (List.mem_cons_of_mem s ht)
        · exact fun t ht => hRight t (List.mem_cons_of_mem s ht)
        · intro _ h₂ hRest
          exact hRest.cons hShared
            (hFirst.mono (hRight s (by simp)))
        · intro e _ hFails hFiles
          have hRest := hFails fun t ht =>
            hFirst.grows.files t.path
              (hFiles t (List.mem_cons_of_mem s ht))
          rw [List.mapM_cons, hResult, hRest]
          rfl
      · intro e _ hFails hFiles
        rw [List.mapM_cons, hFails (hFiles s (by simp))]
        rfl

end Workspace

end Whittle
