import Whittle.Proofs.Session.Attempt
import Whittle.Proofs.Session.Opening
import Whittle.Proofs.Session.Run

/-
  The states between the operations of a run.

  Key definitions include:
    * `Session.Operation`
    * `Session.Operates`
    * `Session.Changes`

  Main statements:
    * `Session.Operation.changes`
    * `Session.Operates.isConsistent`
    * `Session.carries_operates`

  An operation may fail, and a run may go on to restore what
  was accepted after that.  So a state counts as reached
  whether the operation that leads to it has failed or not.
-/

------------------------------------------------------------
-- Operations
------------------------------------------------------------

namespace Whittle

namespace Session

open Work

variable {σ τ : Type} {u : Setup σ τ} {mayForce : Prop}

/-
  What a run does to a session: it writes and prints, the
  check and the strategy remember something, and files are
  cleaned up, cut or stripped of blank lines and tried.
-/
inductive Operation
    (u : Setup σ τ)
    (mayForce : Prop)
    (s : Session σ τ) :
    Session σ τ → Prop
| write (h : Host) : Operation u mayForce s (s.withHost h)
| remind (memory : σ) :
    Operation u mayForce s { s with check := memory }
| remember (memory : τ) :
    Operation u mayForce s { s with strategy := memory }
| cleanup (isStrict : Bool) :
    Operation u mayForce s (tryCleanup u isStrict s).2
| remove (nodes : List NodeId) :
    Operation u mayForce s (tryRemove u nodes s).2
| force (hForce : mayForce) (nodes : List NodeId) :
    Operation u mayForce s (forceRemove u nodes s).2
| strip (i : Nat) :
    Operation u mayForce s (tryStrip u i s).2

/- Any number of operations. -/
def Operates
    (u : Setup σ τ)
    (mayForce : Prop) :
    Session σ τ → Session σ τ → Prop :=
  Relation.ReflTransGen (Operation u mayForce)

instance : Std.Refl (Operates u mayForce) :=
  ⟨fun _ => .refl⟩

instance : IsTrans (Session σ τ) (Operates u mayForce) :=
  ⟨fun _ _ _ h₁ h₂ => Relation.ReflTransGen.trans h₁ h₂⟩

/- An operation on its own. -/
theorem Operation.operates
    {s t : Session σ τ}
    (hOperation : Operation u mayForce s t) :
    Operates u mayForce s t :=
  .single hOperation

/- Work on the host writes and prints. -/
theorem operates_onHost
    {α : Type}
    (work : Work Host α) :
    Moves (Operates u mayForce) (onHost work) :=
  moves_of_state fun s =>
    (Operation.write (work s.workspace.host).2).operates

theorem carries_operates :
    Carries u mayForce (Operates u mayForce)
      (Operates u mayForce) where
  host _ := operates_onHost _
  remind _ memory := (Operation.remind memory).operates
  remember _ memory := (Operation.remember memory).operates
  cleanup isStrict :=
    moves_of_state fun _ => (Operation.cleanup isStrict).operates
  remove nodes :=
    moves_of_state fun _ => (Operation.remove nodes).operates
  force hForce nodes :=
    moves_of_state fun _ =>
      (Operation.force hForce nodes).operates
  restore :=
    moves_of_state fun s =>
      (Operation.write
        (Workspace.rollBackAll s.workspace).2.host).operates
  strip i :=
    moves_of_state fun _ => (Operation.strip i).operates

end Session

end Whittle

------------------------------------------------------------
-- What An Operation Can Do
------------------------------------------------------------

namespace Whittle

namespace Session

open Work

variable {σ τ α : Type} {u : Setup σ τ} {mayForce : Prop}
variable {P : Scratch → Bytes → Prop}

/-
  A trial keeps what has been accepted, or replaces it by
  contents that are right and new.
-/
theorem Attempts.cases
    {s t : Session σ τ}
    {result : Option Bool}
    (hAttempts : Attempts u P s result t)
    (hConsistent : s.IsConsistent u) :
    (s.Keeps t ∧ result ≠ some true) ∨
      ∃ cs, List.Forall₂ P s.workspace.scratches cs ∧
        Workspace.AreShort cs ∧
        Workspace.fingerprint cs ∉ s.known ∧
        s.Takes u (.asked cs (some true)) cs t ∧
        t.known = Workspace.fingerprint cs :: s.known ∧
        result ≠ some false := by
  cases hAttempts with
  | stop h => exact .inl ⟨s.keeps_withHost h, by simp⟩
  | trial h cs _ _ hHolds hAll hTries =>
      have hKeeps := s.keeps_withHost h
      rcases hTries.cases (hKeeps.isConsistent hConsistent) with
        ⟨hKeeps', hResult⟩ |
        ⟨cs', hNew, hTakes, hKnown, hResult⟩
      · exact .inl ⟨trans_of Keeps hKeeps hKeeps', hResult⟩
      · obtain rfl : cs = cs' :=
          Disk.Holds.unique hHolds hNew.holds
        exact .inr ⟨cs, hAll, hNew.short, hNew.unknown,
          hTakes.of_withHost, hKnown, hResult⟩

/-
  What an operation can do to what has been accepted.
    * `keep` : it keeps it.
    * `accept` : it replaces it by an edit of it, directly
      after the check has said yes to that edit.
    * `force` : it replaces it without a question.
-/
inductive Changes
    (u : Setup σ τ)
    (mayForce : Prop)
    (s t : Session σ τ) : Prop
| keep (hKeeps : s.Keeps t)
| accept (cs : List Bytes)
    (hAll : List.Forall₂ (Scratch.IsEdited u.rules)
      s.workspace.scratches cs)
    (hShort : Workspace.AreShort cs)
    (hTakes : s.Takes u (.asked cs (some true)) cs t)
    (hKnown : t.known = Workspace.fingerprint cs :: s.known)
| force (cs : List Bytes)
    (hForce : mayForce)
    (hAll : List.Forall₂ (Scratch.IsEdited u.rules)
      s.workspace.scratches cs)
    (hTakes : s.Takes u (.forced cs) cs t)

/- A trial of edits changes no more than that. -/
theorem Attempts.changes
    {s t : Session σ τ}
    {result : Option Bool}
    (hAttempts : Attempts u P s result t)
    (hConsistent : s.IsConsistent u)
    (hEdited : ∀ f bs, P f bs → Scratch.IsEdited u.rules f bs) :
    Changes u mayForce s t := by
  rcases hAttempts.cases hConsistent with
    ⟨hKeeps, _⟩ | ⟨cs, hAll, hShort, _, hTakes, hKnown, _⟩
  · exact .keep hKeeps
  · exact .accept cs (hAll.imp hEdited) hShort hTakes hKnown

/- A forced cut changes no more than that. -/
theorem Forces.changes
    {s v t : Session σ τ}
    {hasEnded : Bool}
    (hForces : Forces u v hasEnded t)
    (hConsistent : s.IsConsistent u)
    (hForce : mayForce)
    (hWrites : s.Writes P v)
    (hEdited : ∀ f bs, P f bs → Scratch.IsEdited u.rules f bs) :
    Changes u mayForce s t := by
  obtain ⟨h, cs, rfl, hHolds, hAll⟩ := hWrites
  have hKeeps := s.keeps_withHost h
  rcases hForces.cases (hKeeps.isConsistent hConsistent) with
    hKeeps' | ⟨cs', hHolds', hTakes⟩
  · exact .keep (trans_of Keeps hKeeps hKeeps')
  · obtain rfl : cs = cs' := Disk.Holds.unique hHolds hHolds'
    exact .force cs hForce (hAll.imp hEdited) hTakes.of_withHost

/- An operation changes no more than that. -/
theorem Operation.changes
    {s t : Session σ τ}
    (hOperation : Operation u mayForce s t)
    (hConsistent : s.IsConsistent u) :
    Changes u mayForce s t := by
  have hCut :
      ∀ f bs, Scratch.IsCut u.rules f bs →
        Scratch.IsEdited u.rules f bs :=
    fun _ _ hOne => hOne.isEdited
  have hWithout :
      ∀ nodes f bs, s.IsWithout u nodes f bs →
        Scratch.IsEdited u.rules f bs :=
    fun _ _ _ hOne => hOne.1.isEdited
  cases hOperation with
  | write h => exact .keep (s.keeps_withHost h)
  | remind memory =>
      exact .keep ⟨rfl, rfl, ⟨[], rfl, by simp⟩, fun _ hk => hk⟩
  | remember memory =>
      exact .keep ⟨rfl, rfl, ⟨[], rfl, by simp⟩, fun _ hk => hk⟩
  | cleanup isStrict =>
      refine Ends.anyway (P := Changes u mayForce s)
        ((attempts_tryCleanup hConsistent isStrict).mono ?_ ?_)
      · rintro _ t ⟨b, _, hAttempts⟩
        exact hAttempts.changes hConsistent hCut
      · exact fun _ t hAttempts =>
          hAttempts.changes hConsistent hCut
  | remove nodes =>
      by_cases hNodes : nodes = []
      · subst hNodes
        exact .keep (Std.Refl.refl s)
      · refine Ends.anyway (P := Changes u mayForce s)
          ((attempts_tryRemove hConsistent hNodes).mono ?_ ?_)
        · rintro _ t ⟨b, _, hAttempts⟩
          exact hAttempts.changes hConsistent (hWithout nodes)
        · exact fun _ t hAttempts =>
            hAttempts.changes hConsistent (hWithout nodes)
  | force hForce nodes =>
      refine Ends.anyway (P := Changes u mayForce s)
        ((ends_forceRemove hConsistent nodes).mono ?_ ?_)
      · rintro _ t ⟨v, hWrites, hForces⟩
        exact hForces.changes hConsistent hForce hWrites
          (hWithout nodes)
      · rintro _ t (⟨h, rfl⟩ | ⟨v, hWrites, hForces⟩)
        · exact .keep (s.keeps_withHost h)
        · exact hForces.changes hConsistent hForce hWrites
            (hWithout nodes)
  | strip i =>
      refine Ends.anyway (P := Changes u mayForce s)
        ((attempts_tryStrip hConsistent i).mono ?_ ?_)
      · exact fun _ t hAttempts =>
          hAttempts.changes hConsistent fun _ _ hOne => hOne
      · exact fun _ t hAttempts =>
          hAttempts.changes hConsistent fun _ _ hOne => hOne

theorem Operation.isConsistent
    {s t : Session σ τ}
    (hOperation : Operation u mayForce s t)
    (hConsistent : s.IsConsistent u) :
    t.IsConsistent u := by
  cases hOperation.changes hConsistent with
  | keep hKeeps => exact hKeeps.isConsistent hConsistent
  | accept cs _ _ hTakes => exact hTakes.consistent
  | force cs _ _ hTakes => exact hTakes.consistent

/- All states between operations are consistent. -/
theorem Operates.isConsistent
    {s t : Session σ τ}
    (hOperates : Operates u mayForce s t)
    (hConsistent : s.IsConsistent u) :
    t.IsConsistent u := by
  induction hOperates with
  | refl => exact hConsistent
  | tail _ hOperation ih => exact hOperation.isConsistent ih

/- When files have been opened they are consistent. -/
theorem Starts.isConsistent
    {fs : List FilePair}
    {s : Session σ τ}
    {w : Workspace}
    {cs : List Bytes}
    (hStarts : Starts u fs s w cs)
    (hApart : ∀ p ∈ targets fs, u.log.IsApart p) :
    (s.afterOpening w cs).IsConsistent u := by
  have hApart' : s.IsApart u := by
    unfold IsApart
    rw [hStarts.paths]
    exact hApart
  have hAccepted :=
    isConsistent_of_commits hApart' hStarts.commits hStarts.holds
  exact ⟨hAccepted.apart, hAccepted.committed, hAccepted.shared,
    hAccepted.roots, hAccepted.identities, hAccepted.accepted⟩

end Session

end Whittle
