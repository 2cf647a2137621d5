import Mathlib.Data.Nat.Find
import LongPollTunnel.Proofs.Framing

/-! # The front of a growing stream

While a stream comes in, the search for the end of its first instruction says "not yet" until
it can tell, and from then on it says the same for ever. The end that it finds lies within
the stream and behind every front for which it could not tell. Main statement: all of this,
for every stream.
-/

namespace LongPollTunnel.Framing

open Instruction

variable {bytes rest : List UInt8}

/-! ## No instruction is shorter than three bytes -/

/-- A length has a digit and a point at least. -/
theorem length_add_two_le_of_scanLength {value length : Nat}
    (hscan : scanLength 0 value bytes = .done length rest) : rest.length + 2 ≤ bytes.length := by
  cases bytes with
  | nil => simp [scanLength] at hscan
  | cons byte tail =>
      simp only [scanLength] at hscan
      simp only [List.length_cons]
      split at hscan
      · split at hscan
        · cases hscan
        · have hpoint := length_lt_of_scanLength hscan
          omega
      · split at hscan
        · simp at hscan
        · cases hscan

theorem length_add_two_le_of_scanElement (hscan : scanElement bytes = .done () rest) :
    rest.length + 2 ≤ bytes.length := by
  obtain ⟨length, middle, hlength, hskip⟩ := Scan.andThen_eq_done_iff.mp hscan
  have hfirst := length_add_two_le_of_scanLength hlength
  split at hskip
  · cases hskip
  · have hsecond := length_le_of_skipCharacters hskip
    omega

theorem length_add_three_le_of_scanElements {room : Nat}
    (hscan : scanElements room bytes = .done () rest) : rest.length + 3 ≤ bytes.length := by
  cases room with
  | zero =>
      obtain ⟨_, _, _, hnone⟩ := Scan.andThen_eq_done_iff.mp hscan
      cases hnone
  | succ room =>
      obtain ⟨_, middle, helement, hmiddle⟩ := Scan.andThen_eq_done_iff.mp hscan
      have hfirst := length_add_two_le_of_scanElement helement
      cases middle with
      | nil => cases hmiddle
      | cons terminator tail =>
          simp only at hmiddle
          simp only [List.length_cons] at hfirst
          split at hmiddle
          · cases hmiddle
            omega
          · split at hmiddle
            · have hlater := length_lt_of_scanElements hmiddle
              omega
            · cases hmiddle

/-- The end that is found lies within the bytes, behind a digit, a point and a terminator at
least. -/
theorem le_of_instructionEnd {n : Nat} (hend : instructionEnd bytes = .ok (some n)) :
    3 ≤ n ∧ n ≤ bytes.length := by
  unfold instructionEnd at hend
  split at hend
  next rest hscan =>
    have hused := length_add_three_le_of_scanElements hscan
    have hlength : bytes.length - rest.length = n := by simpa using hend
    omega
  · cases hend
  · cases hend

/-! ## What has been told stays so -/

/-- Once it can be told how a stream begins, nothing that comes later changes that. -/
theorem instructionEnd_append_of_settled (hsettled : instructionEnd bytes ≠ .ok none)
    (more : List UInt8) : instructionEnd (bytes ++ more) = instructionEnd bytes := by
  unfold instructionEnd at hsettled ⊢
  cases hscan : scanInstruction bytes with
  | done value rest =>
      rw [incremental_scanInstruction.append_of_done hscan more]
      simp only [List.length_append, Nat.add_sub_add_right]
  | malformed fault => rw [incremental_scanInstruction.of_malformed bytes fault more hscan]
  | undecided =>
      rw [hscan] at hsettled
      exact absurd rfl hsettled

theorem instructionEnd_of_front {front : List UInt8} (hfront : front <+: bytes)
    (hsettled : instructionEnd front ≠ .ok none) :
    instructionEnd bytes = instructionEnd front := by
  obtain ⟨more, rfl⟩ := hfront
  exact instructionEnd_append_of_settled hsettled more

/-- Before the end of the first instruction has come, nothing can be told. -/
theorem instructionEnd_of_short_front {n : Nat} {front : List UInt8}
    (hend : instructionEnd bytes = .ok (some n)) (hfront : front <+: bytes)
    (hshort : front.length < n) : instructionEnd front = .ok none := by
  by_contra hsettled
  rw [instructionEnd_of_front hfront hsettled] at hend
  exact absurd (le_of_instructionEnd hend).2 (Nat.not_le.mpr hshort)

/-- Along the fronts of a stream there is one point up to which nothing can be told, and from
which on the answer is that for the whole stream. -/
theorem exists_point (bytes : List UInt8) :
    ∃ point ≤ bytes.length,
      (∀ length < point, instructionEnd (bytes.take length) = .ok none) ∧
        ∀ length, point ≤ length → instructionEnd (bytes.take length) = instructionEnd bytes := by
  by_cases hopen : instructionEnd bytes = .ok none
  · refine ⟨bytes.length, Nat.le_refl _, ?_, ?_⟩
    · intro length _
      by_contra hsettled
      rw [instructionEnd_of_front (List.take_prefix length bytes) hsettled] at hopen
      exact hsettled hopen
    · intro length hlength
      rw [List.take_of_length_le hlength]
  · have hsome : ∃ length, instructionEnd (bytes.take length) ≠ .ok none :=
      ⟨bytes.length, by rwa [List.take_length]⟩
    refine ⟨Nat.find hsome, Nat.find_min' hsome (by rwa [List.take_length]), ?_, ?_⟩
    · intro length hlength
      exact not_not.mp (Nat.find_min hsome hlength)
    · intro length hlength
      have hpoint := Nat.find_spec hsome
      rw [instructionEnd_of_front (List.take_prefix_take_left hlength) hpoint,
        instructionEnd_of_front (List.take_prefix _ bytes) hpoint]

/-- If the first instruction of some bytes ends after `n` of them, `n` is at least three and at
most their number, the same is found whatever follows them, and nothing can be told from
fewer than `n` of them. If they are malformed, they are so for the same reason whatever
follows them. Along the fronts of a stream, the answer is therefore "not yet" up to one point
and the same from there on. -/
theorem instructionEnd_settles (bytes : List UInt8) :
    (∀ n, instructionEnd bytes = .ok (some n) →
      3 ≤ n ∧ n ≤ bytes.length ∧
        (∀ more, instructionEnd (bytes ++ more) = .ok (some n)) ∧
          ∀ front, front <+: bytes → front.length < n → instructionEnd front = .ok none) ∧
      (∀ fault, instructionEnd bytes = .error fault →
        ∀ more, instructionEnd (bytes ++ more) = .error fault) ∧
      ∃ point ≤ bytes.length,
        (∀ length < point, instructionEnd (bytes.take length) = .ok none) ∧
          ∀ length, point ≤ length →
            instructionEnd (bytes.take length) = instructionEnd bytes := by
  refine ⟨?_, ?_, exists_point bytes⟩
  · intro n hend
    obtain ⟨hthree, hwithin⟩ := le_of_instructionEnd hend
    refine ⟨hthree, hwithin, ?_, fun front => instructionEnd_of_short_front hend⟩
    intro more
    rw [instructionEnd_append_of_settled (by simp [hend]), hend]
  · intro fault hfault more
    rw [instructionEnd_append_of_settled (by simp [hfault]), hfault]

/-- A character that was cut makes the search wait, and a length that is no number ends it. -/
theorem instructionEnd_settles_of_cut_character :
    instructionEnd (Utf8.ofString "2.日本;") = .ok (some 9) ∧
      instructionEnd ((Utf8.ofString "2.日本;").take 4) = .ok none ∧
      instructionEnd (Utf8.ofString "2.日本;" ++ Utf8.ofString "4x") = .ok (some 9) ∧
      instructionEnd (Utf8.ofString "4x") = .error (.invalidLengthCharacter 'x') ∧
      instructionEnd (Utf8.ofString "4x" ++ Utf8.ofString ".sync;") =
        .error (.invalidLengthCharacter 'x') := by
  have hend : instructionEnd (Utf8.ofString "2.日本;") = .ok (some 9) := by decide
  have hfault : instructionEnd (Utf8.ofString "4x") = .error (.invalidLengthCharacter 'x') := by
    decide
  obtain ⟨_, _, hmore, hfront⟩ := (instructionEnd_settles (Utf8.ofString "2.日本;")).1 9 hend
  exact ⟨hend, hfront _ (List.take_prefix 4 _) (by decide), hmore _, hfault,
    (instructionEnd_settles (Utf8.ofString "4x")).2.1 _ hfault _⟩

end LongPollTunnel.Framing
