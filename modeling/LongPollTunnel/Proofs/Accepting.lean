import LongPollTunnel.Proofs.Changes
import LongPollTunnel.Proofs.Grammar

/-! # What is passed on and what decodes

The search for the end of an instruction trusts the lead byte of a character for its width and
does not look at the bytes behind it. A decoder does, so readers pass on instructions that do
not decode. Main statement: this is the only way in which the two differ, for all bytes and for
every batch that the reader of a tunnel hands out.
-/

namespace LongPollTunnel

open Framing Instruction

namespace Instruction

/-- A complete instruction is refused for nothing but bytes that are no text. -/
theorem decode_of_complete {bytes : List UInt8}
    (hend : instructionEnd bytes = .ok (some bytes.length)) :
    (Utf8.decode? bytes = none ∧ decode bytes = .error .invalidUtf8) ∨
      ∃ text i, bytes = Utf8.encode text ∧ decode bytes = .ok i := by
  cases htext : Utf8.decode? bytes with
  | none =>
      refine Or.inl ⟨rfl, ?_⟩
      rw [decode, hend]
      simp only [ne_eq, not_true_eq_false, if_false, htext]
  | some text =>
      have hbytes := Utf8.decode?_eq_some_iff.mp htext
      obtain ⟨pieces, hspells⟩ := exists_spells hend hbytes
      exact Or.inr ⟨text, _, hbytes, hspells.decode_eq⟩

/-- The bytes are a complete instruction. It decodes if they are a text, and otherwise it is
refused for that. -/
structure Accepted (bytes : List UInt8) : Prop where
  complete : instructionEnd bytes = .ok (some bytes.length)
  decodes_iff : (∃ i, decode bytes = .ok i) ↔ ∃ text, bytes = Utf8.encode text
  refused : (¬ ∃ text, bytes = Utf8.encode text) → decode bytes = .error .invalidUtf8

theorem accepted_of_complete {bytes : List UInt8}
    (hend : instructionEnd bytes = .ok (some bytes.length)) : Accepted bytes := by
  rcases decode_of_complete hend with ⟨hnone, hrefused⟩ | ⟨text, i, hbytes, hdecode⟩
  · have hno : ¬ ∃ text, bytes = Utf8.encode text := by
      rintro ⟨text, hbytes⟩
      rw [Utf8.decode?_eq_some_iff.mpr hbytes] at hnone
      cases hnone
    refine ⟨hend, ⟨?_, fun htext => absurd htext hno⟩, fun _ => hrefused⟩
    rintro ⟨i, hdecode⟩
    rw [hrefused] at hdecode
    cases hdecode
  · exact ⟨hend, ⟨fun _ => ⟨text, hbytes⟩, fun _ => ⟨i, hdecode⟩⟩,
      fun hno => absurd ⟨text, hbytes⟩ hno⟩

end Instruction

/-- Whole instructions are one accepted instruction after another. -/
theorem Framing.Whole.exists_accepted {bytes : List UInt8} (hwhole : Whole bytes) :
    ∃ instructions : List (List UInt8),
      bytes = instructions.flatten ∧ ∀ instruction ∈ instructions, Accepted instruction := by
  induction hwhole with
  | nil => exact ⟨[], rfl, by simp⟩
  | @cons instruction rest hend _ ih =>
      obtain ⟨instructions, rfl, haccepted⟩ := ih
      exact ⟨instruction :: instructions, rfl,
        List.forall_mem_cons.mpr ⟨accepted_of_complete hend, haccepted⟩⟩

namespace Hub

/-- Where the search finds the end of an instruction, the bytes up to there decode exactly if
they are UTF-8, and are refused for being no text otherwise. If bytes are handed out as a batch,
along any run, so it is with each of the instructions that make them up. -/
theorem complete_instruction_decodes_iff (bytes : List UInt8) :
    (∀ n, instructionEnd bytes = .ok (some n) → Accepted (bytes.take n)) ∧
      ∀ h, Reaches {} h → ∀ (number : Nat) (t : Tunnel), h.tunnels[number]? = some t →
        ∀ expired after, t.readSome expired = (.done bytes, after) →
          ∃ instructions : List (List UInt8), bytes = instructions.flatten ∧
            ∀ instruction ∈ instructions, Accepted instruction := by
  refine ⟨fun n hend => ?_, fun h hreaches number t ht expired after hread => ?_⟩
  · obtain ⟨instruction, rest, rfl, rfl, hcomplete⟩ := exists_instruction_of_instructionEnd hend
    rw [List.take_left]
    exact accepted_of_complete hcomplete
  · have hsound := hasSoundReaders_of_reaches hreaches number t ht
    have hwhole := Reader.whole_readSome hsound (!t.isOpen) expired
    have hbatch : (t.reader.readSome (!t.isOpen) expired).1 = .done bytes :=
      congrArg Prod.fst hread
    rw [hbatch] at hwhole
    exact hwhole.exists_accepted

/-- A tunnel whose source brings this. -/
def bringing (bytes : List UInt8) : List Move :=
  [.act (.open (Identity.random 0) none {} [.data bytes])]

theorem complete_instruction_decodes_iff_of_text :
    (∃ i, decode ((Utf8.ofString "2.日é;3.n").take 8) = .ok i) ∧
      ∃ instructions : List (List UInt8),
        Utf8.ofString "2.日é;" = instructions.flatten ∧ ∀ bytes ∈ instructions, Accepted bytes := by
  obtain ⟨hscan, _⟩ := complete_instruction_decodes_iff (Utf8.ofString "2.日é;3.n")
  obtain ⟨_, hread⟩ := complete_instruction_decodes_iff (Utf8.ofString "2.日é;")
  have hend : instructionEnd (Utf8.ofString "2.日é;3.n") = .ok (some 8) := by decide
  have htext : (Utf8.ofString "2.日é;3.n").take 8 = Utf8.encode "2.日é;".toList := by decide
  refine ⟨(hscan 8 hend).decodes_iff.mpr ⟨_, htext⟩, ?_⟩
  exact hread _ (run_replay {} (bringing (Utf8.ofString "2.日é;3.n"))).reaches 0 _ rfl false _
    (by rfl)

/-- One character is announced as two bytes long, and the second of them ends no character: the
reader passes on what does not decode. -/
theorem complete_instruction_undecodable :
    ∃ t after,
      (({} : Hub).replay (bringing [0x31, 0x2E, 0xC3, 0x3B, 0x3B])).2.tunnels[0]? = some t ∧
      instructionEnd [0x31, 0x2E, 0xC3, 0x3B, 0x3B] = .ok (some 5) ∧
      decode (([0x31, 0x2E, 0xC3, 0x3B, 0x3B] : List UInt8).take 5) = .error .invalidUtf8 ∧
      t.readSome false = (.done [0x31, 0x2E, 0xC3, 0x3B, 0x3B], after) :=
  ⟨_, _, rfl, by decide, by decide, rfl⟩

end Hub

end LongPollTunnel
