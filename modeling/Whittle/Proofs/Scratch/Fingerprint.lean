import Whittle.Scratch.Workspace

/-
  What contents are remembered by.

  Key definitions include:
    * `Workspace.AreShort`

  Main statements:
    * `Scratch.fingerprint_append_inj`
    * `Workspace.eq_of_fingerprint`
    * `Workspace.fingerprint_isPrefix_iff`
    * `Workspace.key_eq_ok_iff`

  The contents of each file come after their length, which
  takes eight bytes.  So one file can be split off after the
  other, and contents that are divided differently between
  the files are never taken for each other.
-/

------------------------------------------------------------
-- Lengths
------------------------------------------------------------

namespace Whittle

namespace Scratch

/- The eight bytes that tell a length. -/
def lengthBytes
    (length : Nat) : Bytes :=
  [56, 48, 40, 32, 24, 16, 8, 0].map
    fun shift => (length >>> shift).toUInt8

/- A fingerprint is the length and the contents. -/
theorem fingerprint_eq
    (contents : Bytes) :
    fingerprint contents =
      lengthBytes contents.length ++ contents :=
  rfl

theorem toNat_toUInt8_shiftRight
    (length shift : Nat) :
    ((length >>> shift).toUInt8).toNat =
      (length >>> shift) % 256 := by
  simp [Nat.toUInt8]

/- A byte and what is above it tell what starts with it. -/
theorem shiftRight_eq_of_byte
    {m n shift : Nat}
    (hAbove : m >>> (shift + 8) = n >>> (shift + 8))
    (hByte : (m >>> shift) % 256 = (n >>> shift) % 256) :
    m >>> shift = n >>> shift := by
  rw [Nat.shiftRight_add, Nat.shiftRight_add] at hAbove
  omega

/- Eight bytes tell a length that fits into them. -/
theorem lengthBytes_inj
    {m n : Nat}
    (hm : m < Workspace.lengthLimit)
    (hn : n < Workspace.lengthLimit)
    (hEq : lengthBytes m = lengthBytes n) :
    m = n := by
  have hByte :
      ∀ shift ∈ [56, 48, 40, 32, 24, 16, 8, 0],
        (m >>> shift) % 256 = (n >>> shift) % 256 := by
    intro shift hShift
    have hSame := (List.map_inj_left.mp hEq) shift hShift
    rw [← toNat_toUInt8_shiftRight, hSame,
      toNat_toUInt8_shiftRight]
  have h56 : m >>> 56 = n >>> 56 := by
    have hTop := hByte 56 (by decide)
    unfold Workspace.lengthLimit at hm hn
    omega
  have h48 := shiftRight_eq_of_byte h56 (hByte 48 (by decide))
  have h40 := shiftRight_eq_of_byte h48 (hByte 40 (by decide))
  have h32 := shiftRight_eq_of_byte h40 (hByte 32 (by decide))
  have h24 := shiftRight_eq_of_byte h32 (hByte 24 (by decide))
  have h16 := shiftRight_eq_of_byte h24 (hByte 16 (by decide))
  have h8 := shiftRight_eq_of_byte h16 (hByte 8 (by decide))
  exact shiftRight_eq_of_byte h8 (hByte 0 (by decide))

/- The first fingerprint of two that are followed by others. -/
theorem fingerprint_append_inj
    {contents contents' rest rest' : Bytes}
    (hFits : contents.length < Workspace.lengthLimit)
    (hFits' : contents'.length < Workspace.lengthLimit)
    (hEq :
      fingerprint contents ++ rest =
        fingerprint contents' ++ rest') :
    contents = contents' ∧ rest = rest' := by
  rw [fingerprint_eq, fingerprint_eq, List.append_assoc,
    List.append_assoc] at hEq
  obtain ⟨hLength, hRest⟩ := List.append_inj hEq rfl
  have hSame := lengthBytes_inj hFits hFits' hLength
  exact List.append_inj hRest hSame

end Scratch

end Whittle

------------------------------------------------------------
-- Contents Of All Files
------------------------------------------------------------

namespace Whittle

namespace Workspace

/- The lengths of some contents fit into eight bytes. -/
def AreShort
    (cs : List Bytes) : Prop :=
  ∀ bs ∈ cs, bs.length < Workspace.lengthLimit

/- Contents whose fingerprint starts another one start it. -/
theorem isPrefix_of_fingerprint
    {cs cs' : List Bytes}
    (hShort : AreShort cs)
    (hShort' : AreShort cs')
    (hStarts : fingerprint cs <+: fingerprint cs') :
    cs <+: cs' := by
  induction cs generalizing cs' with
  | nil => exact List.nil_prefix
  | cons bs rest ih =>
      obtain ⟨after, hEq⟩ := hStarts
      cases cs' with
      | nil => simp [fingerprint, Scratch.fingerprint] at hEq
      | cons bs' rest' =>
          have hFirst := hShort bs (by simp)
          have hFirst' := hShort' bs' (by simp)
          have hSplit :
              Scratch.fingerprint bs ++ (fingerprint rest ++ after) =
                Scratch.fingerprint bs' ++ fingerprint rest' := by
            rw [← List.append_assoc]
            exact hEq
          obtain ⟨rfl, hRest⟩ :=
            Scratch.fingerprint_append_inj hFirst hFirst' hSplit
          exact List.cons_prefix_cons.mpr
            ⟨rfl, ih (fun b hb => hShort b (by simp [hb]))
              (fun b hb => hShort' b (by simp [hb])) ⟨after, hRest⟩⟩

theorem eq_of_fingerprint
    {cs cs' : List Bytes}
    (hShort : AreShort cs)
    (hShort' : AreShort cs')
    (hEq : fingerprint cs = fingerprint cs') :
    cs = cs' := by
  have hStarts : cs <+: cs' :=
    isPrefix_of_fingerprint hShort hShort' (hEq ▸ List.prefix_rfl)
  have hStarts' : cs' <+: cs :=
    isPrefix_of_fingerprint hShort' hShort (hEq ▸ List.prefix_rfl)
  exact hStarts.eq_of_length_le hStarts'.length_le

/-
  What is hashed tells the contents of all files.  It is the
  same only for the same contents, and it goes on with more
  only where there are more files.
-/
theorem fingerprint_isPrefix_iff
    {cs cs' : List Bytes}
    (hShort : AreShort cs)
    (hShort' : AreShort cs') :
    (fingerprint cs = fingerprint cs' ↔ cs = cs') ∧
      (fingerprint cs <+: fingerprint cs' ↔ cs <+: cs') := by
  refine ⟨⟨eq_of_fingerprint hShort hShort', congrArg _⟩,
    isPrefix_of_fingerprint hShort hShort', ?_⟩
  rintro ⟨more, rfl⟩
  exact ⟨fingerprint more, List.flatMap_append.symm⟩

/- A file that holds the length of the other one is told apart. -/
theorem fingerprint_isPrefix_iff_lengths :
    AreShort [[], [0, 0, 0, 0, 0, 0, 0, 0]] ∧
      AreShort [[0, 0, 0, 0, 0, 0, 0, 0], []] ∧
      fingerprint [[], [0, 0, 0, 0, 0, 0, 0, 0]] ≠
        fingerprint [[0, 0, 0, 0, 0, 0, 0, 0], []] ∧
      ¬ fingerprint [[]] <+:
        fingerprint [[0, 0, 0, 0, 0, 0, 0, 0], []] := by
  have hEmpty : AreShort [[]] := by
    simp [AreShort, lengthLimit]
  have hShort : AreShort [[], [0, 0, 0, 0, 0, 0, 0, 0]] := by
    simp [AreShort, lengthLimit]
  have hShort' : AreShort [[0, 0, 0, 0, 0, 0, 0, 0], []] := by
    simp [AreShort, lengthLimit]
  refine ⟨hShort, hShort', ?_, ?_⟩
  · rw [ne_eq, (fingerprint_isPrefix_iff hShort hShort').1]
    decide
  · rw [(fingerprint_isPrefix_iff hEmpty hShort').2]
    decide

/- Contents have a key if their lengths fit into it. -/
theorem key_eq_ok_iff
    {cs : List Bytes}
    {k : Bytes} :
    key cs = .ok k ↔ AreShort cs ∧ k = fingerprint cs := by
  unfold key AreShort
  by_cases hAll : cs.all fun bs => bs.length < Workspace.lengthLimit
  · have hShort : ∀ bs ∈ cs, bs.length < Workspace.lengthLimit := by
      simpa using hAll
    rw [if_pos hAll, Except.ok.injEq]
    exact ⟨fun hEq => ⟨hShort, hEq.symm⟩, fun h => h.2.symm⟩
  · have hLong : ¬ ∀ bs ∈ cs, bs.length < Workspace.lengthLimit := by
      simpa using hAll
    rw [if_neg hAll]
    constructor
    · intro hEq
      cases hEq
    · exact fun h => absurd h.1 hLong

end Workspace

end Whittle
