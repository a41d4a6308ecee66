import Mathlib.Data.List.Forall2
import Mathlib.Order.Defs.Unbundled
import Whittle.Scratch.Workspace
import Whittle.Session.Basic

/-
  Rules for work that may fail.

  Key definitions include:
    * `Work.Ends`
    * `Work.Goes`
    * `Work.Moves`

  `Ends` speaks of one start: what holds after work that
  succeeds, and what holds after work that fails.  `Goes`
  speaks of every start: the state afterwards is related to
  the one before, in one of two ways.  For `Moves` they are
  the same, whether the work fails or not.
-/

------------------------------------------------------------
-- How Work Ends
------------------------------------------------------------

namespace Whittle

namespace Work

variable {α β ρ : Type}

/-
  Work that starts in a state ends as one of two conditions
  says: `Q` if it succeeds, and `E` if it fails.
-/
def Ends
    (work : Work ρ α)
    (s : ρ)
    (Q : α → ρ → Prop)
    (E : Failure → ρ → Prop) : Prop :=
  match work s with
  | (.ok a, t) => Q a t
  | (.error e, t) => E e t

/- Work that ends in a known way ends as the way says. -/
theorem ends_of_eq_ok
    {work : Work ρ α}
    {s t : ρ}
    {a : α}
    {Q : α → ρ → Prop}
    {E : Failure → ρ → Prop}
    (hRun : work s = (.ok a, t))
    (hQ : Q a t) :
    Ends work s Q E := by
  unfold Ends
  rw [hRun]
  exact hQ

/- Work that fails in a known way ends as the way says. -/
theorem ends_of_eq_error
    {work : Work ρ α}
    {s t : ρ}
    {e : Failure}
    {Q : α → ρ → Prop}
    {E : Failure → ρ → Prop}
    (hRun : work s = (.error e, t))
    (hE : E e t) :
    Ends work s Q E := by
  unfold Ends
  rw [hRun]
  exact hE

/- What is known of work that has succeeded. -/
theorem Ends.of_ok
    {work : Work ρ α}
    {s t : ρ}
    {a : α}
    {Q : α → ρ → Prop}
    {E : Failure → ρ → Prop}
    (hEnds : Ends work s Q E)
    (hRun : work s = (.ok a, t)) :
    Q a t := by
  unfold Ends at hEnds
  rw [hRun] at hEnds
  exact hEnds

/- What is known of work that has failed. -/
theorem Ends.of_error
    {work : Work ρ α}
    {s t : ρ}
    {e : Failure}
    {Q : α → ρ → Prop}
    {E : Failure → ρ → Prop}
    (hEnds : Ends work s Q E)
    (hRun : work s = (.error e, t)) :
    E e t := by
  unfold Ends at hEnds
  rw [hRun] at hEnds
  exact hEnds

/- Work that cannot fail succeeds. -/
theorem Ends.exists_ok
    {work : Work ρ α}
    {s : ρ}
    {Q : α → ρ → Prop}
    (hEnds : Ends work s Q (fun _ _ => False)) :
    ∃ a t, work s = (.ok a, t) := by
  rcases hRun : work s with ⟨r, t⟩
  cases r with
  | ok a => exact ⟨a, t, rfl⟩
  | error e => exact (hEnds.of_error hRun).elim

/- What holds after work that succeeds or fails. -/
theorem Ends.anyway
    {work : Work ρ α}
    {s : ρ}
    {P : ρ → Prop}
    (hEnds : Ends work s (fun _ t => P t) (fun _ t => P t)) :
    P (work s).2 := by
  rcases hRun : work s with ⟨r, t⟩
  cases r with
  | ok a => exact hEnds.of_ok hRun
  | error e => exact hEnds.of_error hRun

theorem Ends.mono
    {work : Work ρ α}
    {s : ρ}
    {Q Q' : α → ρ → Prop}
    {E E' : Failure → ρ → Prop}
    (hEnds : Ends work s Q E)
    (hQ : ∀ a t, Q a t → Q' a t)
    (hE : ∀ e t, E e t → E' e t) :
    Ends work s Q' E' := by
  unfold Ends at hEnds ⊢
  split
  · rename_i a t hRun
    rw [hRun] at hEnds
    exact hQ a t hEnds
  · rename_i e t hRun
    rw [hRun] at hEnds
    exact hE e t hEnds

/- Two ways of ending hold together. -/
theorem Ends.and
    {work : Work ρ α}
    {s : ρ}
    {Q Q' : α → ρ → Prop}
    {E E' : Failure → ρ → Prop}
    (hEnds : Ends work s Q E)
    (hEnds' : Ends work s Q' E') :
    Ends work s (fun a t => Q a t ∧ Q' a t)
      (fun e t => E e t ∧ E' e t) := by
  unfold Ends at hEnds hEnds' ⊢
  split
  · rename_i a t hRun
    rw [hRun] at hEnds hEnds'
    exact ⟨hEnds, hEnds'⟩
  · rename_i e t hRun
    rw [hRun] at hEnds hEnds'
    exact ⟨hEnds, hEnds'⟩

theorem ends_congr
    {work work' : Work ρ α}
    {s : ρ}
    {Q : α → ρ → Prop}
    {E : Failure → ρ → Prop}
    (hRun : work s = work' s) :
    Ends work s Q E ↔ Ends work' s Q E := by
  unfold Ends
  rw [hRun]

/- All work ends in some way. -/
theorem ends_trivial
    {work : Work ρ α}
    {s : ρ} :
    Ends work s (fun _ _ => True) (fun _ _ => True) := by
  unfold Ends
  split <;> trivial

variable {Q : β → ρ → Prop} {E : Failure → ρ → Prop}

theorem ends_pure
    {s : ρ}
    {b : β}
    (hQ : Q b s) :
    Ends (pure b) s Q E :=
  hQ

theorem ends_throw
    {s : ρ}
    {e : Failure}
    (hE : E e s) :
    Ends (throw e : Work ρ β) s Q E :=
  hE

/- Work that succeeds hands its result on. -/
theorem bind_of_ok
    {work : Work ρ α}
    {next : α → Work ρ β}
    {s t : ρ}
    {a : α}
    (hRun : work s = (.ok a, t)) :
    (work >>= next) s = next a t := by
  simp only [bind, ExceptT.bind, ExceptT.mk, StateT.bind, hRun]
  rfl

/- Work that fails is not gone on with. -/
theorem bind_of_error
    {work : Work ρ α}
    {next : α → Work ρ β}
    {s t : ρ}
    {e : Failure}
    (hRun : work s = (.error e, t)) :
    (work >>= next) s = (.error e, t) := by
  simp only [bind, ExceptT.bind, ExceptT.mk, StateT.bind, hRun]
  rfl

/- It only matters what the first part of some work leads to. -/
theorem bind_eq_of_eq
    {work work' : Work ρ α}
    {next : α → Work ρ β}
    {s : ρ}
    (hRun : work s = work' s) :
    (work >>= next) s = (work' >>= next) s := by
  rcases hWork : work' s with ⟨e | a, t⟩
  · rw [bind_of_error (hRun.trans hWork), bind_of_error hWork]
  · rw [bind_of_ok (hRun.trans hWork), bind_of_ok hWork]

theorem ends_bind
    {work : Work ρ α}
    {next : α → Work ρ β}
    {s : ρ}
    (hEnds :
      Ends work s (fun a t => Ends (next a) t Q E) E) :
    Ends (work >>= next) s Q E := by
  rcases hWork : work s with ⟨r, t⟩
  cases r with
  | ok a =>
      unfold Ends
      rw [bind_of_ok hWork]
      exact hEnds.of_ok hWork
  | error e =>
      unfold Ends
      rw [bind_of_error hWork]
      exact hEnds.of_error hWork

/- A failure is answered in the state that it has led to. -/
theorem tryCatch_eq
    (work : Work ρ β)
    (handler : Failure → Work ρ β)
    (s : ρ) :
    (tryCatch work handler) s =
      match work s with
      | (.ok b, t) => (.ok b, t)
      | (.error e, t) => handler e t := by
  simp only [tryCatch, tryCatchThe, MonadExceptOf.tryCatch,
    ExceptT.tryCatch, ExceptT.mk, bind, StateT.bind]
  rcases work s with ⟨r, t⟩
  cases r <;> rfl

/- Work whose failure is answered by other work. -/
theorem ends_tryCatch
    {work : Work ρ β}
    {handler : Failure → Work ρ β}
    {s : ρ}
    (hEnds :
      Ends work s Q (fun e t => Ends (handler e) t Q E)) :
    Ends (tryCatch work handler) s Q E := by
  unfold Ends at hEnds ⊢
  rw [tryCatch_eq]
  rcases hWork : work s with ⟨r, t⟩
  rw [hWork] at hEnds
  cases r with
  | ok b => exact hEnds
  | error e => exact hEnds

/- Work after which it does not matter how it is gone on with. -/
theorem bind_eq_of_ends
    {work : Work ρ α}
    {next next' : α → Work ρ β}
    {s : ρ}
    (hEnds :
      Ends work s (fun a t => next a t = next' a t)
        (fun _ _ => True)) :
    (work >>= next) s = (work >>= next') s := by
  rcases hWork : work s with ⟨e | a, t⟩
  · exact (bind_of_error hWork).trans (bind_of_error hWork).symm
  · rw [bind_of_ok hWork, bind_of_ok hWork]
    exact hEnds.of_ok hWork

end Work

end Whittle

------------------------------------------------------------
-- Reading And Changing The State
------------------------------------------------------------

namespace Whittle

namespace Work

variable {ρ : Type} {s : ρ} {E : Failure → ρ → Prop}

theorem ends_get
    {Q : ρ → ρ → Prop}
    (hQ : Q s s) :
    Ends get s Q E :=
  hQ

/- Setting the state. -/
theorem ends_set
    {t : ρ}
    {Q : PUnit → ρ → Prop}
    (hQ : Q ⟨⟩ t) :
    Ends (set t) s Q E :=
  hQ

/- Changing the state. -/
theorem ends_modify
    {f : ρ → ρ}
    {Q : PUnit → ρ → Prop}
    (hQ : Q ⟨⟩ (f s)) :
    Ends (modify f) s Q E :=
  hQ

end Work

end Whittle

------------------------------------------------------------
-- Work On A Part Of The State
------------------------------------------------------------

namespace Whittle

namespace Work

variable {α : Type} {E : Failure → Workspace → Prop}

/- Work on the host of a workspace leaves its files alone. -/
theorem ends_onHost
    {work : Work Host α}
    {w : Workspace}
    {Q : α → Workspace → Prop}
    (hEnds :
      Ends work w.host
        (fun a h => Q a { w with host := h })
        (fun e h => E e { w with host := h })) :
    Ends (Workspace.onHost work) w Q E := by
  unfold Ends at hEnds ⊢
  unfold Workspace.onHost
  rcases hWork : work w.host with ⟨r, h⟩
  rw [hWork] at hEnds
  cases r with
  | ok a => exact hEnds
  | error e => exact hEnds

variable {σ τ : Type} {F : Failure → Session σ τ → Prop}

/- Work on the files of a session leaves the rest of it alone. -/
theorem ends_onFiles
    {work : Work Workspace α}
    {s : Session σ τ}
    {Q : α → Session σ τ → Prop}
    (hEnds :
      Ends work s.workspace
        (fun a w => Q a { s with workspace := w })
        (fun e w => F e { s with workspace := w })) :
    Ends (Session.onFiles work) s Q F := by
  unfold Ends at hEnds ⊢
  unfold Session.onFiles
  rcases hWork : work s.workspace with ⟨r, w⟩
  rw [hWork] at hEnds
  cases r with
  | ok a => exact hEnds
  | error e => exact hEnds

end Work

end Whittle

------------------------------------------------------------
-- Going Along Two Relations
------------------------------------------------------------

namespace Whittle

namespace Work

variable {α β ρ : Type} {R E : ρ → ρ → Prop}

/-
  Work that leads from each state to one that is related to
  it: by `R` if the work succeeds, and by `E` if it fails.
-/
def Goes
    (R E : ρ → ρ → Prop)
    (work : Work ρ α) : Prop :=
  ∀ s, Ends work s (fun _ t => R s t) (fun _ t => E s t)

/- Any state may follow any other. -/
def Any
    (_ _ : ρ) : Prop :=
  True

instance : Std.Refl (@Any ρ) :=
  ⟨fun _ => trivial⟩

instance : Trans R Any Any :=
  ⟨fun _ _ => trivial⟩

/- A property holds afterwards if it has held before. -/
def Preserves
    (P : ρ → Prop)
    (s t : ρ) : Prop :=
  P s → P t

instance
    (P : ρ → Prop) : Std.Refl (Preserves P) :=
  ⟨fun _ hP => hP⟩

instance
    (P : ρ → Prop) : IsTrans ρ (Preserves P) :=
  ⟨fun _ _ _ hst htv hP => htv (hst hP)⟩

theorem goes_pure
    [Std.Refl R]
    (a : α) :
    Goes R E (pure a) :=
  fun s => ends_pure (Std.Refl.refl s)

theorem goes_throw
    [Std.Refl E]
    (e : Failure) :
    Goes R E (throw e : Work ρ α) :=
  fun s => ends_throw (Std.Refl.refl s)

theorem goes_get
    [Std.Refl R] :
    Goes R E get :=
  fun s => ends_get (Std.Refl.refl s)

/-
  Work that goes on with the result of other work, of which
  something is known.
-/
theorem goes_bind_of
    [Trans R R R]
    [Trans R E E]
    {work : Work ρ α}
    {next : α → Work ρ β}
    {Q : α → Prop}
    (hResult : ∀ s, Ends work s (fun a _ => Q a) (fun _ _ => True))
    (hWork : Goes R E work)
    (hNext : ∀ a, Q a → Goes R E (next a)) :
    Goes R E (work >>= next) := by
  intro s
  apply ends_bind
  refine ((hWork s).and (hResult s)).mono ?_ (fun _ _ h => h.1)
  rintro a t ⟨hst, hQ⟩
  refine (hNext a hQ t).mono ?_ ?_
  · exact fun _ v htv => Trans.trans hst htv
  · exact fun _ v htv => Trans.trans hst htv

theorem goes_bind
    [Trans R R R]
    [Trans R E E]
    {work : Work ρ α}
    {next : α → Work ρ β}
    (hWork : Goes R E work)
    (hNext : ∀ a, Goes R E (next a)) :
    Goes R E (work >>= next) :=
  goes_bind_of (fun _ => ends_trivial) hWork
    (fun a _ => hNext a)

theorem goes_of_guard
    {P : ρ → Prop}
    {work : Work ρ α}
    (hWork : ∀ s, P s →
      Ends work s (fun _ t => R s t) (fun _ _ => True)) :
    Goes (fun s t => P s → R s t) Any work := by
  intro s
  unfold Ends
  split
  · rename_i a t hRun
    exact fun hP => (hWork s hP).of_ok hRun
  · trivial

end Work

end Whittle

------------------------------------------------------------
-- Moving Along A Relation
------------------------------------------------------------

namespace Whittle

namespace Work

variable {α β ρ : Type} {R : ρ → ρ → Prop}

/-
  Work that leads from each state to a related one, whether
  it fails or not.
-/
def Moves
    (R : ρ → ρ → Prop)
    (work : Work ρ α) : Prop :=
  Goes R R work

theorem moves_of_state
    {work : Work ρ α}
    (hState : ∀ s, R s (work s).2) :
    Moves R work := by
  intro s
  have hs := hState s
  unfold Ends
  split
  · rename_i a t hRun
    rw [hRun] at hs
    exact hs
  · rename_i e t hRun
    rw [hRun] at hs
    exact hs

theorem moves_pure
    [Std.Refl R]
    (a : α) :
    Moves R (pure a) :=
  goes_pure a

theorem moves_throw
    [Std.Refl R]
    (e : Failure) :
    Moves R (throw e : Work ρ α) :=
  goes_throw e

theorem moves_bind
    [IsTrans ρ R]
    {work : Work ρ α}
    {next : α → Work ρ β}
    (hWork : Moves R work)
    (hNext : ∀ a, Moves R (next a)) :
    Moves R (work >>= next) :=
  goes_bind hWork hNext

/- What holds in the end of work that starts with a move. -/
theorem ends_bind_of_moves
    [IsTrans ρ R]
    {work : Work ρ α}
    {next : α → Work ρ β}
    {P : β → ρ → Prop}
    {s : ρ}
    (hWork : Moves R work)
    (hNext : ∀ a t, R s t →
      Ends (next a) t (fun b v => R t v ∧ P b v)
        (fun _ v => R t v)) :
    Ends (work >>= next) s (fun b v => R s v ∧ P b v)
      (fun _ v => R s v) := by
  apply ends_bind
  refine (hWork s).mono ?_ (fun _ _ h => h)
  intro a t hst
  refine (hNext a t hst).mono ?_ ?_
  · exact fun _ v htv => ⟨trans_of R hst htv.1, htv.2⟩
  · exact fun _ v htv => trans_of R hst htv

theorem moves_of_guard
    {P : ρ → Prop}
    {work : Work ρ α}
    (hWork : ∀ s, P s →
      Ends work s (fun _ t => R s t) (fun _ t => R s t)) :
    Moves (fun s t => P s → R s t) work := by
  intro s
  unfold Ends
  split
  · rename_i a t hRun
    exact fun hP => (hWork s hP).of_ok hRun
  · rename_i e t hRun
    exact fun hP => (hWork s hP).of_error hRun

theorem moves_get
    [Std.Refl R] :
    Moves R get :=
  goes_get

theorem moves_tryCatch
    [IsTrans ρ R]
    {work : Work ρ α}
    {handler : Failure → Work ρ α}
    (hWork : Moves R work)
    (hHandler : ∀ e, Moves R (handler e)) :
    Moves R (tryCatch work handler) := by
  intro s
  apply ends_tryCatch
  refine (hWork s).mono (fun _ _ h => h) ?_
  intro e t hst
  refine (hHandler e t).mono ?_ ?_
  · exact fun _ v htv => trans_of R hst htv
  · exact fun _ v htv => trans_of R hst htv

theorem moves_forM
    [Std.Refl R]
    [IsTrans ρ R]
    {work : α → Work ρ PUnit}
    (hWork : ∀ a, Moves R (work a))
    (as : List α) :
    Moves R (as.forM work) := by
  induction as with
  | nil => exact moves_pure _
  | cons a rest ih =>
      exact moves_bind (hWork a) (fun _ => ih)

end Work

end Whittle

------------------------------------------------------------
-- Results For Each Member Of A List
------------------------------------------------------------

namespace Whittle

/- A list is mapped as its members are. -/
theorem mapM_eq_ok_iff
    {α β ε : Type}
    {f : α → Except ε β}
    {as : List α}
    {bs : List β} :
    as.mapM f = .ok bs ↔
      List.Forall₂ (fun a b => f a = .ok b) as bs := by
  induction as generalizing bs with
  | nil => cases bs <;> simp [pure, Except.pure]
  | cons a rest ih =>
      rw [List.mapM_cons]
      rcases hFirst : f a with e | b
      · cases bs <;> simp [bind, Except.bind, hFirst]
      · rcases hRest : rest.mapM f with e | bs'
        · cases bs <;> simp [bind, Except.bind, ← ih, hFirst, hRest]
        · cases bs <;>
            simp [bind, Except.bind, pure, Except.pure, ← ih,
              hFirst, hRest]

/- What fails for a list fails for one of its elements. -/
theorem exists_of_mapM_eq_error
    {α β : Type}
    {f : α → Except Failure β}
    {as : List α}
    {e : Failure}
    (hAll : as.mapM f = .error e) :
    ∃ a ∈ as, f a = .error e := by
  induction as with
  | nil => cases hAll
  | cons a rest ih =>
      rw [List.mapM_cons] at hAll
      cases hFirst : f a with
      | error e' =>
          rw [hFirst] at hAll
          cases hAll
          exact ⟨a, List.mem_cons_self, hFirst⟩
      | ok b =>
          rw [hFirst] at hAll
          cases hRest : rest.mapM f with
          | error e' =>
              rw [hRest] at hAll
              cases hAll
              obtain ⟨a', hMem, hError⟩ := ih hRest
              exact ⟨a', List.mem_cons_of_mem a hMem, hError⟩
          | ok bs =>
              rw [hRest] at hAll
              cases hAll

/- Members of related lists have related members. -/
theorem exists_mem_of_forall₂
    {α β : Type}
    {R : α → β → Prop}
    {as : List α}
    {bs : List β}
    (hAll : List.Forall₂ R as bs) :
    (∀ a ∈ as, ∃ b ∈ bs, R a b) ∧ ∀ b ∈ bs, ∃ a ∈ as, R a b := by
  induction hAll with
  | nil => simp
  | cons hFirst _ ih =>
      constructor
      · intro a ha
        rcases List.mem_cons.mp ha with rfl | hRest
        · exact ⟨_, List.mem_cons_self, hFirst⟩
        · obtain ⟨b, hb, hOne⟩ := ih.1 a hRest
          exact ⟨b, List.mem_cons_of_mem _ hb, hOne⟩
      · intro b hb
        rcases List.mem_cons.mp hb with rfl | hRest
        · exact ⟨_, List.mem_cons_self, hFirst⟩
        · obtain ⟨a, ha, hOne⟩ := ih.2 b hRest
          exact ⟨a, List.mem_cons_of_mem _ ha, hOne⟩

end Whittle
