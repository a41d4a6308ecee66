import Mathlib.Data.List.Nodup
import Mathlib.Data.List.Perm.Subperm
import Whittle.Server.Session

/-
  The inputs that the environment of a server lists.

  Main statements:
    * `Environment.get?_set`
    * `inputVariable_inj`
    * `get?_serverEnvironment_input`
    * `get?_serverEnvironment_of_ne`
    * `inputsFrom_eq_listed`
    * `listedInputs_serverEnvironment_iff`

  The end of the list is the first number without a variable.
  What stood under greater numbers before is not taken away,
  so it is read as more inputs unless the number just after
  the last input was free.
-/

------------------------------------------------------------
-- Variables
------------------------------------------------------------

namespace Whittle

namespace Environment

theorem get?_cons
    (n v : String)
    (rest : Environment)
    (name : String) :
    get? ((n, v) :: rest) name =
      if name = n then some v else get? rest name := by
  unfold get?
  rw [List.lookup_cons]
  by_cases hName : name = n
  · rw [if_pos hName, beq_iff_eq.mpr hName]
  · rw [if_neg hName, beq_eq_false_iff_ne.mpr hName]

/- A variable that is set has its value, the others keep theirs. -/
theorem get?_set
    (e : Environment)
    (name value other : String) :
    (e.set name value).get? other =
      if other = name then some value else e.get? other := by
  induction e with
  | nil => exact get?_cons name value [] other
  | cons entry rest ih =>
      obtain ⟨n, v⟩ := entry
      by_cases hn : n = name
      · subst hn
        rw [set, if_pos rfl, get?_cons, get?_cons]
        split <;> rfl
      · rw [set, if_neg hn, get?_cons, get?_cons, ih]
        by_cases hOther : other = n
        · rw [if_pos hOther, if_pos hOther, hOther, if_neg hn]
        · rw [if_neg hOther, if_neg hOther]

theorem mem_of_get?
    {e : Environment}
    {name value : String}
    (hValue : e.get? name = some value) :
    name ∈ e.map Prod.fst := by
  induction e with
  | nil => cases hValue
  | cons entry rest ih =>
      obtain ⟨n, v⟩ := entry
      rw [get?_cons] at hValue
      rw [List.map_cons, List.mem_cons]
      split at hValue
      · exact .inl ‹name = n›
      · exact .inr (ih hValue)

end Environment

/- The number of an input can be read off its variable. -/
theorem inputVariable_inj
    {i j : Nat} :
    inputVariable i = inputVariable j ↔ i = j := by
  refine ⟨fun hEq => ?_, congrArg _⟩
  have hDigits : Nat.toDigits 10 i = Nat.toDigits 10 j := by
    have hChars := congrArg String.toList hEq
    simpa [inputVariable] using hChars
  rw [← Nat.ofDigitChars_ten_toDigits (n := i), hDigits,
    Nat.ofDigitChars_ten_toDigits]

/- The timeout is not in the variable of an input. -/
theorem timeoutVariable_ne
    (i : Nat) :
    timeoutVariable ≠ inputVariable i := by
  intro hEq
  have hChars := congrArg String.toList hEq
  simp [timeoutVariable, inputVariable] at hChars

end Whittle

------------------------------------------------------------
-- Setting The Inputs
------------------------------------------------------------

namespace Whittle

theorem get?_foldl_set_of_ne
    (inputs : List (String × Nat))
    (e : Environment)
    {name : String}
    (hOther : ∀ x ∈ inputs, name ≠ inputVariable x.2) :
    (inputs.foldl
      (fun e (path, i) => e.set (inputVariable i) path)
      e).get? name = e.get? name := by
  induction inputs generalizing e with
  | nil => rfl
  | cons x rest ih =>
      rw [List.foldl_cons,
        ih _ fun y hy => hOther y (List.mem_cons_of_mem _ hy),
        Environment.get?_set,
        if_neg (hOther x List.mem_cons_self)]

/- The variables of the inputs are set, one after the other. -/
theorem get?_foldl_set
    (inputs : List String)
    (start : Nat)
    (e : Environment)
    (j : Nat) :
    ((inputs.zipIdx start).foldl
      (fun e (path, i) => e.set (inputVariable i) path)
      e).get? (inputVariable (start + j)) =
      (inputs[j]?).or (e.get? (inputVariable (start + j))) := by
  induction inputs generalizing start e j with
  | nil => rfl
  | cons path rest ih =>
      rw [List.zipIdx_cons, List.foldl_cons]
      cases j with
      | zero =>
          -- the inputs after this one have greater numbers
          have hLater :
              ∀ x ∈ rest.zipIdx (start + 1),
                inputVariable start ≠ inputVariable x.2 := by
            intro x hx hSame
            have hNumber := List.le_snd_of_mem_zipIdx hx
            have hEq := inputVariable_inj.mp hSame
            omega
          rw [Nat.add_zero start, get?_foldl_set_of_ne _ _ hLater,
            Environment.get?_set, if_pos rfl]
          rfl
      | succ j =>
          have hNumber : start + (j + 1) = start + 1 + j := by omega
          have hNe :
              inputVariable (start + 1 + j) ≠ inputVariable start := by
            intro hSame
            have hEq := inputVariable_inj.mp hSame
            omega
          rw [hNumber, ih, Environment.get?_set, if_neg hNe,
            List.getElem?_cons_succ]

variable (inputs : List String) (timeout : String)
variable (base : Environment)

/-
  Under the number of an input stands the input, under the
  numbers after the last one what stood there before.
-/
theorem get?_serverEnvironment_input
    (i : Nat) :
    (serverEnvironment inputs timeout base).get?
      (inputVariable i) =
      (inputs[i]?).or (base.get? (inputVariable i)) := by
  have hInputs :=
    get?_foldl_set inputs 0 (base.set timeoutVariable timeout) i
  rw [Nat.zero_add, Environment.get?_set,
    if_neg (timeoutVariable_ne i).symm] at hInputs
  exact hInputs

theorem get?_serverEnvironment_of_ne
    {name : String}
    (hOther : ∀ i, name ≠ inputVariable i) :
    (serverEnvironment inputs timeout base).get? name =
      if name = timeoutVariable then some timeout
      else base.get? name := by
  rw [serverEnvironment,
    get?_foldl_set_of_ne _ _ fun x _ => hOther x.2,
    Environment.get?_set]

end Whittle

------------------------------------------------------------
-- Reading The Inputs
------------------------------------------------------------

namespace Whittle

/- A smaller bound cuts the list of the inputs off. -/
theorem inputsFrom_eq_take
    (e : Environment)
    {limit more : Nat}
    (hLimit : limit ≤ more)
    (i : Nat) :
    inputsFrom e limit i = (inputsFrom e more i).take limit := by
  induction limit generalizing more i with
  | zero => rfl
  | succ limit ih =>
      obtain ⟨more, rfl⟩ : ∃ m, more = m + 1 :=
        ⟨more - 1, by omega⟩
      rw [inputsFrom, inputsFrom]
      cases e.get? (inputVariable i) with
      | none => rfl
      | some path =>
          dsimp only
          rw [ih (Nat.le_of_succ_le_succ hLimit), List.take_succ_cons]

theorem mem_of_lt_length_inputsFrom
    {e : Environment}
    {limit i j : Nat}
    (hj : j < (inputsFrom e limit i).length) :
    inputVariable (i + j) ∈ e.map Prod.fst := by
  induction limit generalizing i j with
  | zero => exact absurd hj (Nat.not_lt_zero j)
  | succ limit ih =>
      rw [inputsFrom] at hj
      cases hValue : e.get? (inputVariable i) with
      | none =>
          rw [hValue] at hj
          exact absurd hj (Nat.not_lt_zero j)
      | some path =>
          rw [hValue] at hj
          cases j with
          | zero => exact Environment.mem_of_get? hValue
          | succ j =>
              have hNumber : i + (j + 1) = i + 1 + j := by omega
              rw [hNumber]
              exact ih (Nat.lt_of_succ_lt_succ hj)

theorem length_inputsFrom_le
    (e : Environment)
    (limit i : Nat) :
    (inputsFrom e limit i).length ≤ e.length := by
  have hNodup :
      ((List.range (inputsFrom e limit i).length).map
        fun j => inputVariable (i + j)).Nodup := by
    refine List.Nodup.map ?_ List.nodup_range
    intro j k hSame
    exact Nat.add_left_cancel (inputVariable_inj.mp hSame)
  have hSubset :
      ((List.range (inputsFrom e limit i).length).map
        fun j => inputVariable (i + j)) ⊆ e.map Prod.fst := by
    intro name hName
    obtain ⟨j, hj, rfl⟩ := List.mem_map.mp hName
    exact mem_of_lt_length_inputsFrom (List.mem_range.mp hj)
  have hLe := (hNodup.subperm hSubset).length_le
  simpa using hLe

/- A bound beyond the number of the variables cuts nothing off. -/
theorem inputsFrom_eq_listed
    {e : Environment}
    {limit : Nat}
    (hLimit : e.length ≤ limit)
    (i : Nat) :
    inputsFrom e limit i = inputsFrom e e.length i := by
  rw [inputsFrom_eq_take e hLimit]
  exact (List.take_of_length_le (length_inputsFrom_le e limit i)).symm

theorem inputsFrom_congr
    {e e' : Environment}
    {i : Nat}
    (hSame : ∀ j, i ≤ j →
      e.get? (inputVariable j) = e'.get? (inputVariable j))
    (limit : Nat) :
    inputsFrom e limit i = inputsFrom e' limit i := by
  induction limit generalizing i with
  | zero => rfl
  | succ limit ih =>
      rw [inputsFrom, inputsFrom, hSame i (Nat.le_refl i),
        ih fun j hj => hSame j (Nat.le_of_succ_le hj)]

theorem inputsFrom_append
    {e : Environment}
    {paths : List String}
    {i : Nat}
    (hPaths : ∀ j (hj : j < paths.length),
      e.get? (inputVariable (i + j)) = some paths[j])
    (limit : Nat) :
    inputsFrom e (paths.length + limit) i =
      paths ++ inputsFrom e limit (i + paths.length) := by
  induction paths generalizing i with
  | nil => rw [List.length_nil, Nat.zero_add]; rfl
  | cons path rest ih =>
      have hFirst : e.get? (inputVariable i) = some path :=
        hPaths 0 (Nat.succ_pos _)
      have hRest :
          ∀ j (hj : j < rest.length),
            e.get? (inputVariable (i + 1 + j)) = some rest[j] := by
        intro j hj
        rw [Nat.add_right_comm]
        exact hPaths (j + 1) (Nat.succ_lt_succ hj)
      rw [List.length_cons, Nat.add_right_comm, inputsFrom, hFirst]
      dsimp only
      rw [ih hRest, Nat.add_right_comm]
      rfl

/- No inputs are read just if the first number is free. -/
theorem inputsFrom_eq_nil_iff
    (e : Environment)
    (i : Nat) :
    inputsFrom e e.length i = [] ↔
      e.get? (inputVariable i) = none := by
  cases e with
  | nil => exact ⟨fun _ => rfl, fun _ => rfl⟩
  | cons entry rest =>
      rw [List.length_cons, inputsFrom]
      cases Environment.get? (entry :: rest) (inputVariable i) <;>
        simp

variable (inputs : List String) (timeout : String)
variable (base : Environment)

/- The inputs are listed, and after them what was there before. -/
theorem listedInputs_serverEnvironment :
    listedInputs (serverEnvironment inputs timeout base) =
      inputs ++ inputsFrom base base.length inputs.length := by
  have hGet := get?_serverEnvironment_input inputs timeout base
  have hInputs :
      ∀ j (hj : j < inputs.length),
        (serverEnvironment inputs timeout base).get?
          (inputVariable (0 + j)) = some inputs[j] := by
    intro j hj
    rw [Nat.zero_add, hGet, List.getElem?_eq_getElem hj]
    rfl
  have hAfter :
      ∀ j, inputs.length ≤ j →
        (serverEnvironment inputs timeout base).get?
          (inputVariable j) = base.get? (inputVariable j) := by
    intro j hj
    rw [hGet, List.getElem?_eq_none hj]
    rfl
  generalize serverEnvironment inputs timeout base = e at *
  -- a bound that cuts nothing off, neither here nor in `base`
  have hLimit : e.length ≤ inputs.length + (e.length + base.length) := by
    omega
  rw [listedInputs, ← inputsFrom_eq_listed hLimit,
    inputsFrom_append hInputs, Nat.zero_add,
    inputsFrom_congr hAfter,
    inputsFrom_eq_listed (Nat.le_add_left _ _)]

/- A server finds the inputs that are listed and fit into it. -/
theorem watchedInputs_eq
    (e : Environment) :
    watchedInputs e = (listedInputs e).take inputLimit := by
  have hLimit : e.length ≤ inputLimit + e.length := by omega
  rw [watchedInputs, listedInputs, ← inputsFrom_eq_listed hLimit]
  exact inputsFrom_eq_take e (Nat.le_add_right _ _) 0

/-
  The environment of a server lists exactly its inputs if the
  number after the last one was free before.  Otherwise the
  inputs that stood there are listed as well.  No variable but
  the timeout and those of the inputs changes.
-/
theorem listedInputs_serverEnvironment_iff :
    (listedInputs (serverEnvironment inputs timeout base) = inputs ↔
        base.get? (inputVariable inputs.length) = none) ∧
      listedInputs (serverEnvironment inputs timeout base) =
        inputs ++ inputsFrom base base.length inputs.length ∧
      watchedInputs (serverEnvironment inputs timeout base) =
        (inputs ++ inputsFrom base base.length inputs.length).take
          inputLimit ∧
      (serverEnvironment inputs timeout base).get?
        timeoutVariable = some timeout ∧
      ∀ name, name ≠ timeoutVariable →
        (∀ i, name ≠ inputVariable i) →
          (serverEnvironment inputs timeout base).get? name =
            base.get? name := by
  have hListed := listedInputs_serverEnvironment inputs timeout base
  refine ⟨?_, hListed, ?_, ?_, ?_⟩
  · rw [hListed, List.append_right_eq_self, inputsFrom_eq_nil_iff]
  · rw [watchedInputs_eq, hListed]
  · rw [get?_serverEnvironment_of_ne _ _ _ timeoutVariable_ne,
      if_pos rfl]
  · intro name hTimeout hOther
    rw [get?_serverEnvironment_of_ne _ _ _ hOther, if_neg hTimeout]

/-
  Inside of another server the inputs of that one are listed
  as well, as far as their numbers go on.
-/
theorem listedInputs_serverEnvironment_iff_nested :
    listedInputs
        (serverEnvironment ["a.py"] "5"
          [("PATH", "/bin"), ("__SCM_INPUT_1", "b.py")]) ≠
        ["a.py"] ∧
      "PATH" ≠ timeoutVariable ∧
      (∀ i, "PATH" ≠ inputVariable i) ∧
      (serverEnvironment ["a.py"] "5"
        [("PATH", "/bin"), ("__SCM_INPUT_1", "b.py")]).get?
        "PATH" = some "/bin" := by
  obtain ⟨hListed, _, _, _, hKept⟩ :=
    listedInputs_serverEnvironment_iff ["a.py"] "5"
      [("PATH", "/bin"), ("__SCM_INPUT_1", "b.py")]
  have hTimeout : "PATH" ≠ timeoutVariable := by decide
  have hOther : ∀ i, "PATH" ≠ inputVariable i := by
    intro i hEq
    have hChars := congrArg String.toList hEq
    simp [inputVariable] at hChars
  refine ⟨?_, hTimeout, hOther, ?_⟩
  · rw [ne_eq, hListed]
    decide
  · rw [hKept "PATH" hTimeout hOther]
    rfl

end Whittle
