import LongPollTunnel.Text.Utf8

/-! # Characters survive their encoding

The bytes of a character begin with a lead byte that announces how many there are, and the
segment that begins there is the character, whatever follows. A segment that is a character is
in turn made of the bytes of that character. Main statement: bytes decode to a text exactly if
they are the bytes of that text.
-/

namespace LongPollTunnel.Utf8

/-! ## Ranges of bytes -/

theorem leadWidth?_eq (lead : UInt8) :
    leadWidth? lead =
      if lead.toNat ≤ 0x7F then some 1
      else if 0xC2 ≤ lead.toNat ∧ lead.toNat ≤ 0xDF then some 2
      else if 0xE0 ≤ lead.toNat ∧ lead.toNat ≤ 0xEF then some 3
      else if 0xF0 ≤ lead.toNat ∧ lead.toNat ≤ 0xF4 then some 4
      else none := by
  simp [leadWidth?, UInt8.le_iff_toNat_le]

theorem isContinuation_iff {byte : UInt8} :
    isContinuation byte = true ↔ 0x80 ≤ byte.toNat ∧ byte.toNat ≤ 0xBF := by
  simp [isContinuation, UInt8.le_iff_toNat_le]

/-- A continuation byte may stand second unless the lead byte narrows its range. -/
theorem isSecond_of_isContinuation {lead byte : UInt8} (hbyte : isContinuation byte = true)
    (hE0 : lead.toNat = 0xE0 → 0xA0 ≤ byte.toNat) (hED : lead.toNat = 0xED → byte.toNat ≤ 0x9F)
    (hF0 : lead.toNat = 0xF0 → 0x90 ≤ byte.toNat) (hF4 : lead.toNat = 0xF4 → byte.toNat ≤ 0x8F) :
    isSecond lead byte = true := by
  have hrange := isContinuation_iff.mp hbyte
  unfold isSecond
  simp only [← UInt8.toNat_inj, UInt8.le_iff_toNat_le, UInt8.reduceToNat]
  split
  next hlead => exact decide_eq_true ⟨hE0 hlead, hrange.2⟩
  · split
    next hlead => exact decide_eq_true ⟨hrange.1, hED hlead⟩
    · split
      next hlead => exact decide_eq_true ⟨hF0 hlead, hrange.2⟩
      · split
        next hlead => exact decide_eq_true ⟨hrange.1, hF4 hlead⟩
        · exact hbyte

/-- The continuation byte for the six low bits of a number. -/
def continuation (n : Nat) : UInt8 :=
  UInt8.ofNat (n % 64 + 0x80)

theorem toNat_continuation (n : Nat) : (continuation n).toNat = n % 64 + 0x80 := by
  rw [continuation, UInt8.toNat_ofNat']
  omega

theorem isContinuation_continuation (n : Nat) : isContinuation (continuation n) = true := by
  have hlow : n % 64 < 64 := Nat.mod_lt n (by decide)
  rw [isContinuation_iff, toNat_continuation]
  omega

theorem payload_continuation (n : Nat) : payload (continuation n) = n % 64 := by
  have hbyte := toNat_continuation n
  unfold payload
  omega

/-! ## One character -/

/-- The lead byte announces the bytes of the character, and with them it is the character's
segment. -/
structure Opens (c : Char) (lead : UInt8) (tail : List UInt8) : Prop where
  bytes : String.utf8EncodeChar c = lead :: tail
  width : leadWidth? lead = some (tail.length + 1)
  segment : ∀ rest, segment lead (tail ++ rest) = (some c, tail.length)

variable {c : Char}

theorem opens_of_le_7F (hc : c.toNat ≤ 0x7F) : Opens c (UInt8.ofNat c.toNat) [] := by
  have hlead : (UInt8.ofNat c.toNat).toNat = c.toNat :=
    (UInt8.toNat_ofNat' (n := c.toNat)).trans (Nat.mod_eq_of_lt (by omega))
  have hwidth : leadWidth? (UInt8.ofNat c.toNat) = some 1 := by
    rw [leadWidth?_eq, hlead, if_pos hc]
  refine ⟨?_, hwidth, fun rest => ?_⟩
  · exact if_pos hc
  · simp only [Utf8.segment, hwidth, hlead, Char.ofNat_toNat, List.length_nil]

theorem opens_of_le_7FF (hlow : 0x7F < c.toNat) (hc : c.toNat ≤ 0x7FF) :
    Opens c (UInt8.ofNat (c.toNat / 64 % 0x20 + 0xC0)) [continuation c.toNat] := by
  generalize hbyte : UInt8.ofNat (c.toNat / 64 % 0x20 + 0xC0) = lead
  have hlead : lead.toNat = c.toNat / 64 + 0xC0 := by
    rw [← hbyte, UInt8.toNat_ofNat']
    omega
  have hwidth : leadWidth? lead = some 2 := by
    rw [leadWidth?_eq, hlead, if_neg (by omega), if_pos (by omega)]
  have hchar : char2 lead (continuation c.toNat) = c := by
    rw [char2, payload_continuation, hlead,
      show (c.toNat / 64 + 0xC0 - 0xC0) * 64 + c.toNat % 64 = c.toNat by omega, Char.ofNat_toNat]
  refine ⟨?_, hwidth, fun rest => ?_⟩
  · rw [← hbyte]
    exact (if_neg (Nat.not_le.mpr hlow)).trans (if_pos hc)
  · simp [Utf8.segment, hwidth, isContinuation_continuation, hchar]

/-- No character is a surrogate or lies above U+10FFFF. -/
theorem toNat_lt_or_lt (c : Char) : c.toNat < 0xD800 ∨ (0xDFFF < c.toNat ∧ c.toNat < 0x110000) :=
  c.valid

theorem opens_of_le_FFFF (hlow : 0x7FF < c.toNat) (hc : c.toNat ≤ 0xFFFF) :
    Opens c (UInt8.ofNat (c.toNat / 4096 % 0x10 + 0xE0))
      [continuation (c.toNat / 64), continuation c.toNat] := by
  generalize hbyte : UInt8.ofNat (c.toNat / 4096 % 0x10 + 0xE0) = lead
  have hlead : lead.toNat = c.toNat / 4096 + 0xE0 := by
    rw [← hbyte, UInt8.toNat_ofNat']
    omega
  have hwidth : leadWidth? lead = some 3 := by
    rw [leadWidth?_eq, hlead, if_neg (by omega), if_neg (by omega), if_pos (by omega)]
  have hsecond : isSecond lead (continuation (c.toNat / 64)) = true := by
    have hvalid := toNat_lt_or_lt c
    refine isSecond_of_isContinuation (isContinuation_continuation _) ?_ ?_ ?_ ?_ <;>
      rw [hlead, toNat_continuation] <;> omega
  have hchar : char3 lead (continuation (c.toNat / 64)) (continuation c.toNat) = c := by
    rw [char3, payload_continuation, payload_continuation, hlead,
      show (c.toNat / 4096 + 0xE0 - 0xE0) * 4096 + c.toNat / 64 % 64 * 64 + c.toNat % 64 =
        c.toNat by omega, Char.ofNat_toNat]
  refine ⟨?_, hwidth, fun rest => ?_⟩
  · rw [← hbyte]
    exact ((if_neg (by omega : ¬ c.toNat ≤ 0x7F)).trans (if_neg (Nat.not_le.mpr hlow))).trans
      (if_pos hc)
  · simp [Utf8.segment, hwidth, hsecond, isContinuation_continuation, hchar]

theorem opens_of_gt_FFFF (hlow : 0xFFFF < c.toNat) :
    Opens c (UInt8.ofNat (c.toNat / 262144 % 0x08 + 0xF0))
      [continuation (c.toNat / 4096), continuation (c.toNat / 64), continuation c.toNat] := by
  have hvalid := toNat_lt_or_lt c
  generalize hbyte : UInt8.ofNat (c.toNat / 262144 % 0x08 + 0xF0) = lead
  have hlead : lead.toNat = c.toNat / 262144 + 0xF0 := by
    rw [← hbyte, UInt8.toNat_ofNat']
    omega
  have hwidth : leadWidth? lead = some 4 := by
    rw [leadWidth?_eq, hlead, if_neg (by omega), if_neg (by omega), if_neg (by omega),
      if_pos (by omega)]
  have hsecond : isSecond lead (continuation (c.toNat / 4096)) = true := by
    refine isSecond_of_isContinuation (isContinuation_continuation _) ?_ ?_ ?_ ?_ <;>
      rw [hlead, toNat_continuation] <;> omega
  have hchar : char4 lead (continuation (c.toNat / 4096)) (continuation (c.toNat / 64))
      (continuation c.toNat) = c := by
    rw [char4, payload_continuation, payload_continuation, payload_continuation, hlead,
      show (c.toNat / 262144 + 0xF0 - 0xF0) * 262144 + c.toNat / 4096 % 64 * 4096 +
        c.toNat / 64 % 64 * 64 + c.toNat % 64 = c.toNat by omega, Char.ofNat_toNat]
  refine ⟨?_, hwidth, fun rest => ?_⟩
  · rw [← hbyte]
    exact ((if_neg (by omega : ¬ c.toNat ≤ 0x7F)).trans
      (if_neg (by omega : ¬ c.toNat ≤ 0x7FF))).trans (if_neg (Nat.not_le.mpr hlow))
  · simp [Utf8.segment, hwidth, hsecond, isContinuation_continuation, hchar]

/-- Every character has a lead byte. -/
theorem exists_opens (c : Char) : ∃ lead tail, Opens c lead tail := by
  by_cases hone : c.toNat ≤ 0x7F
  · exact ⟨_, _, opens_of_le_7F hone⟩
  by_cases htwo : c.toNat ≤ 0x7FF
  · exact ⟨_, _, opens_of_le_7FF (Nat.not_le.mp hone) htwo⟩
  by_cases hthree : c.toNat ≤ 0xFFFF
  · exact ⟨_, _, opens_of_le_FFFF (Nat.not_le.mp htwo) hthree⟩
  · exact ⟨_, _, opens_of_gt_FFFF (Nat.not_le.mp hthree)⟩

/-! ## Texts -/

theorem Opens.encode_cons {lead : UInt8} {tail : List UInt8} (hopens : Opens c lead tail)
    (text : List Char) : encode (c :: text) = lead :: (tail ++ encode text) := by
  simp [encode, hopens.bytes]

theorem segmentsFrom_append (seen : List (Option Char)) (tail rest : List UInt8) :
    segmentsFrom seen tail.length (tail ++ rest) = segmentsFrom seen 0 rest := by
  induction tail with
  | nil => rfl
  | cons byte tail ih => exact ih

theorem segmentsFrom_encode (seen : List (Option Char)) (text : List Char) :
    segmentsFrom seen 0 (encode text) = seen.reverse ++ text.map some := by
  induction text generalizing seen with
  | nil => simp [segmentsFrom]
  | cons c text ih =>
      obtain ⟨lead, tail, hopens⟩ := exists_opens c
      rw [hopens.encode_cons, segmentsFrom, hopens.segment, segmentsFrom_append, ih]
      simp

/-- The segments of an encoded text are its characters. -/
theorem segments_encode (text : List Char) : segments (encode text) = text.map some :=
  segmentsFrom_encode [] text

/-- An encoded text decodes to itself. -/
theorem decode?_encode (text : List Char) : decode? (encode text) = some text := by
  rw [decode?, segments_encode]
  induction text with
  | nil => rfl
  | cons c text ih => simp [ih]

/-! ## What decodes was encoded -/

theorem toNat_ofNat {n : Nat} (hn : n < 0xD800 ∨ (0xDFFF < n ∧ n < 0x110000)) :
    (Char.ofNat n).toNat = n := by
  have hvalid : n.isValidChar := hn
  rw [Char.ofNat, dif_pos hvalid]
  rfl

theorem ofNat_eq_of_toNat (byte : UInt8) {n : Nat} (hbyte : byte.toNat = n) :
    UInt8.ofNat n = byte := by
  rw [← hbyte, UInt8.ofNat_toNat]

/-- A byte that continues a character is made of its six low bits. -/
theorem continuation_eq {byte : UInt8} (hbyte : isContinuation byte = true) {n : Nat}
    (hn : n % 64 = payload byte) : continuation n = byte := by
  have hrange := isContinuation_iff.mp hbyte
  apply ofNat_eq_of_toNat byte
  rw [hn]
  unfold payload
  omega

theorem payload_lt {byte : UInt8} (hbyte : isContinuation byte = true) : payload byte < 64 := by
  have hrange := isContinuation_iff.mp hbyte
  unfold payload
  omega

/-- The second bytes that there are, and those that a lead byte rules out. -/
theorem isContinuation_of_isSecond {lead byte : UInt8} (hsecond : isSecond lead byte = true) :
    isContinuation byte = true ∧ (lead.toNat = 0xE0 → 0x20 ≤ payload byte) ∧
      (lead.toNat = 0xED → payload byte < 0x20) ∧ (lead.toNat = 0xF0 → 0x10 ≤ payload byte) ∧
      (lead.toNat = 0xF4 → payload byte < 0x10) := by
  unfold payload
  rw [isContinuation_iff]
  unfold isSecond at hsecond
  simp only [← UInt8.toNat_inj, UInt8.le_iff_toNat_le, UInt8.reduceToNat] at hsecond
  split at hsecond
  · have hrange := of_decide_eq_true hsecond
    omega
  · split at hsecond
    · have hrange := of_decide_eq_true hsecond
      omega
    · split at hsecond
      · have hrange := of_decide_eq_true hsecond
        omega
      · split at hsecond
        · have hrange := of_decide_eq_true hsecond
          omega
        · have hrange := isContinuation_iff.mp hsecond
          omega

theorem leadWidth?_cases {lead : UInt8} {width : Nat} (hwidth : leadWidth? lead = some width) :
    (width = 1 ∧ lead.toNat ≤ 0x7F) ∨ (width = 2 ∧ 0xC2 ≤ lead.toNat ∧ lead.toNat ≤ 0xDF) ∨
      (width = 3 ∧ 0xE0 ≤ lead.toNat ∧ lead.toNat ≤ 0xEF) ∨
      (width = 4 ∧ 0xF0 ≤ lead.toNat ∧ lead.toNat ≤ 0xF4) := by
  rw [leadWidth?_eq] at hwidth
  split at hwidth
  · cases hwidth
    omega
  · split at hwidth
    · cases hwidth
      omega
    · split at hwidth
      · cases hwidth
        omega
      · split at hwidth
        · cases hwidth
          omega
        · cases hwidth

theorem encode_char1 {lead : UInt8} (hlead : lead.toNat ≤ 0x7F) :
    String.utf8EncodeChar (Char.ofNat lead.toNat) = [lead] := by
  have hc : (Char.ofNat lead.toNat).toNat = lead.toNat := toNat_ofNat (by omega)
  rw [(opens_of_le_7F (by omega)).bytes, hc, UInt8.ofNat_toNat]

theorem encode_char2 {lead b : UInt8} (hlead : 0xC2 ≤ lead.toNat ∧ lead.toNat ≤ 0xDF)
    (hb : isContinuation b = true) : String.utf8EncodeChar (char2 lead b) = [lead, b] := by
  have hpayload := payload_lt hb
  have hc : (char2 lead b).toNat = (lead.toNat - 0xC0) * 64 + payload b := toNat_ofNat (by omega)
  rw [(opens_of_le_7FF (by omega) (by omega)).bytes, ofNat_eq_of_toNat lead (by omega),
    continuation_eq hb (by omega)]

theorem encode_char3 {lead b c : UInt8} (hlead : 0xE0 ≤ lead.toNat ∧ lead.toNat ≤ 0xEF)
    (hb : isSecond lead b = true) (hc : isContinuation c = true) :
    String.utf8EncodeChar (char3 lead b c) = [lead, b, c] := by
  obtain ⟨hb, hE0, hED, _, _⟩ := isContinuation_of_isSecond hb
  have hfirst := payload_lt hb
  have hlast := payload_lt hc
  have hchar : (char3 lead b c).toNat =
      (lead.toNat - 0xE0) * 4096 + payload b * 64 + payload c := toNat_ofNat (by omega)
  rw [(opens_of_le_FFFF (by omega) (by omega)).bytes, ofNat_eq_of_toNat lead (by omega),
    continuation_eq hb (by omega), continuation_eq hc (by omega)]

theorem encode_char4 {lead b c d : UInt8} (hlead : 0xF0 ≤ lead.toNat ∧ lead.toNat ≤ 0xF4)
    (hb : isSecond lead b = true) (hc : isContinuation c = true) (hd : isContinuation d = true) :
    String.utf8EncodeChar (char4 lead b c d) = [lead, b, c, d] := by
  obtain ⟨hb, _, _, hF0, hF4⟩ := isContinuation_of_isSecond hb
  have hfirst := payload_lt hb
  have hmiddle := payload_lt hc
  have hlast := payload_lt hd
  have hchar : (char4 lead b c d).toNat =
      (lead.toNat - 0xF0) * 262144 + payload b * 4096 + payload c * 64 + payload d :=
    toNat_ofNat (by omega)
  rw [(opens_of_gt_FFFF (by omega)).bytes, ofNat_eq_of_toNat lead (by omega),
    continuation_eq hb (by omega), continuation_eq hc (by omega), continuation_eq hd (by omega)]

theorem eq_of_some_eq {c c' : Char} {covered covered' : Nat}
    (heq : (some c, covered) = (some c', covered')) : c = c' ∧ covered = covered' := by
  simpa using heq

/-- A segment that is a character is made of the bytes of that character. -/
theorem encode_of_segment {lead : UInt8} {rest : List UInt8} {c : Char} {covered : Nat}
    (hsegment : segment lead rest = (some c, covered)) :
    covered ≤ rest.length ∧ String.utf8EncodeChar c = lead :: rest.take covered := by
  unfold segment at hsegment
  split at hsegment
  next => cases hsegment
  next hwidth =>
    obtain ⟨rfl, rfl⟩ := eq_of_some_eq hsegment
    exact ⟨Nat.zero_le _, encode_char1 (by have := leadWidth?_cases hwidth; omega)⟩
  next => cases hsegment
  next hwidth =>
    split at hsegment
    next hb =>
      obtain ⟨rfl, rfl⟩ := eq_of_some_eq hsegment
      exact ⟨by simp, encode_char2 (by have := leadWidth?_cases hwidth; omega) hb⟩
    next => cases hsegment
  next => split at hsegment <;> cases hsegment
  next hwidth =>
    split at hsegment
    next => cases hsegment
    next hb =>
      split at hsegment
      next hc =>
        obtain ⟨rfl, rfl⟩ := eq_of_some_eq hsegment
        refine ⟨by simp, encode_char3 (by have := leadWidth?_cases hwidth; omega) ?_ hc⟩
        simpa using hb
      next => cases hsegment
  next => cases hsegment
  next => cases hsegment
  next hone htwo hthree hwidth =>
    split at hsegment
    next => cases hsegment
    next hb =>
      split at hsegment
      next => cases hsegment
      next hc =>
        split at hsegment
        next hd =>
          obtain ⟨rfl, rfl⟩ := eq_of_some_eq hsegment
          refine ⟨by simp, encode_char4 ?_ (by simpa using hb) (by simpa using hc) hd⟩
          rcases leadWidth?_cases hwidth with ⟨h, _⟩ | ⟨h, _⟩ | ⟨h, _⟩ | ⟨_, hlead⟩
          · exact absurd h hone
          · exact absurd h htwo
          · exact absurd h hthree
          · exact hlead
        next => cases hsegment

theorem segmentsFrom_eq (seen : List (Option Char)) (covered : Nat) (bytes : List UInt8) :
    segmentsFrom seen covered bytes = seen.reverse ++ segmentsFrom [] covered bytes := by
  induction bytes generalizing seen covered with
  | nil => simp [segmentsFrom]
  | cons lead rest ih =>
      cases covered with
      | succ covered => exact ih seen covered
      | zero =>
          rw [segmentsFrom, segmentsFrom, ih (_ :: seen), ih [_]]
          simp

theorem segments_cons (lead : UInt8) (rest : List UInt8) {covered : Nat}
    (hcovered : (segment lead rest).2 = covered) (hle : covered ≤ rest.length) :
    segments (lead :: rest) = (segment lead rest).1 :: segments (rest.drop covered) := by
  have hlength : (rest.take covered).length = covered := List.length_take_of_le hle
  have hskip := segmentsFrom_append [(segment lead rest).1] (rest.take covered) (rest.drop covered)
  rw [List.take_append_drop, hlength] at hskip
  rw [segments, segmentsFrom, hcovered, hskip, segmentsFrom_eq]
  rfl

/-- Bytes whose segments are all characters are the bytes of these characters. -/
theorem eq_encode_of_segments {bytes : List UInt8} {text : List Char}
    (hsegments : segments bytes = text.map some) : bytes = encode text := by
  induction text generalizing bytes with
  | nil =>
      cases bytes with
      | nil => rfl
      | cons lead rest =>
          rw [segments, segmentsFrom, segmentsFrom_eq] at hsegments
          simp at hsegments
  | cons c text ih =>
      cases bytes with
      | nil => cases hsegments
      | cons lead rest =>
          -- the first segment is the first character, and the others are those of what follows
          have hfirst : (segment lead rest).1 = some c := by
            rw [segments, segmentsFrom, segmentsFrom_eq] at hsegments
            exact (List.cons_eq_cons.mp hsegments).1
          obtain ⟨hle, hbytes⟩ := encode_of_segment (Prod.ext hfirst rfl)
          rw [segments_cons lead rest rfl hle, List.map_cons] at hsegments
          have hlater := ih (List.cons_eq_cons.mp hsegments).2
          rw [encode, List.flatMap_cons, hbytes, List.cons_append, ← encode, ← hlater,
            List.take_append_drop]

theorem eq_map_some_of_mapM_id {segments : List (Option Char)} {text : List Char}
    (hall : segments.mapM id = some text) : segments = text.map some := by
  induction segments generalizing text with
  | nil =>
      cases hall
      rfl
  | cons first later ih =>
      cases first with
      | none => simp at hall
      | some c =>
          rw [List.mapM_cons] at hall
          obtain ⟨_, hc, hall⟩ := Option.bind_eq_some_iff.mp hall
          obtain ⟨rest, hrest, heq⟩ := Option.bind_eq_some_iff.mp hall
          cases hc
          cases heq
          rw [ih hrest, List.map_cons]

/-- Bytes decode to a text exactly if they are the bytes of that text. -/
theorem decode?_eq_some_iff {bytes : List UInt8} {text : List Char} :
    decode? bytes = some text ↔ bytes = encode text := by
  constructor
  · intro hdecode
    exact eq_encode_of_segments (eq_map_some_of_mapM_id hdecode)
  · rintro rfl
    exact decode?_encode text

theorem encode_injective {first second : List Char} (heq : encode first = encode second) :
    first = second := by
  have hdecode := decode?_encode first
  rw [heq, decode?_encode] at hdecode
  exact (Option.some.inj hdecode).symm

end LongPollTunnel.Utf8
