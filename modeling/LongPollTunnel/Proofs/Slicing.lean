import LongPollTunnel.Proofs.Addressing
import LongPollTunnel.Proofs.Grammar
import LongPollTunnel.Proofs.Prefixes

/-! # Where a text is cut into its elements

The elements of a text can also be cut out by byte offsets: a point is looked for, the characters
behind it are counted off, and the text is cut in front of the delimiter and behind it. A cut is out
of place if it would go through a character. The scan for the end counts bytes instead, by the
widths that lead bytes announce. Main statement: both come to the same offsets, so once a scan has
found the end, bytes fail to decode only if they are no text.
-/

namespace LongPollTunnel

namespace Framing

open Instruction

/-- The offsets of the delimiters that a scan comes to, one for each element, after `offset` bytes
and with room for so many elements. -/
def stopsFrom (offset : Nat) : Nat → List UInt8 → List Nat
  | 0, _ => []
  | room + 1, bytes =>
    match scanElement bytes with
    | .done _ (terminator :: rest) =>
      let stop := offset + (bytes.length - (rest.length + 1))
      stop :: if terminator = 0x2C then stopsFrom (stop + 1) room rest else []
    | _ => []

/-- The offsets of the delimiters that the scan of an instruction comes to. -/
def stops (bytes : List UInt8) : List Nat :=
  stopsFrom 0 maxElements bytes

end Framing

namespace Instruction

open Framing
open Operation (takeBytes? takeBytes?_eq_some_iff)

/-! ## Cutting by offsets -/

/-- What stands in front of the first point of a text, and what stands behind it. -/
def aroundPoint? : List Char → Option (List Char × List Char)
  | [] => none
  | c :: rest =>
    if c = '.' then some ([], rest)
    else (aroundPoint? rest).map fun (digits, value) => (c :: digits, value)

/-- Parts a text after so many bytes, if a character ends there. -/
def partAt? (size : Nat) (text : List Char) : Option (List Char × List Char) :=
  (takeBytes? size text).map fun front => (front, text.drop front.length)

/-- An element, and the offset of the delimiter behind it. -/
structure Slice where
  value : List Char
  stop : Nat
  deriving DecidableEq, Repr

/-- Cuts the first element out of a text that stands at an offset, and gives the text behind its
comma with it. There is no outcome if a cut is out of place. -/
def sliceOne (offset : Nat) (text : List Char) :
    Option (Except Fault (Slice × Option (List Char))) :=
  match aroundPoint? text with
  | none => some (.error .incomplete)
  | some (digits, value) =>
    match Unsigned.read Unsigned.max64 digits with
    | .error _ => some (.error .missingLength)
    | .ok length =>
      let width := (Utf8.encode (value.take length)).length
      let stop := offset + ((Utf8.encode digits).length + 1 + width)
      match partAt? width value with
      | none => none
      | some (_, []) => some (.error .incomplete)
      | some (element, c :: _) =>
        if c = ';' then some (.ok (⟨element, stop⟩, none))
        else if c = ',' then
          (partAt? (width + 1) value).map fun (_, rest) => .ok (⟨element, stop⟩, some rest)
        else some (.error (.unexpectedTerminator c))

theorem aroundPoint?_eq_some {text digits value : List Char}
    (hpoint : aroundPoint? text = some (digits, value)) : text = digits ++ '.' :: value := by
  induction text generalizing digits with
  | nil => cases hpoint
  | cons c rest ih =>
      unfold aroundPoint? at hpoint
      split at hpoint
      next hc =>
        cases hpoint
        rw [hc, List.nil_append]
      next hc =>
        obtain ⟨⟨later, _⟩, hrest, heq⟩ := Option.map_eq_some_iff.mp hpoint
        cases heq
        rw [ih hrest, List.cons_append]

theorem aroundPoint?_digits {digits : List Char} (hdigits : ∀ c ∈ digits, c.isDigit = true)
    (value : List Char) : aroundPoint? (digits ++ '.' :: value) = some (digits, value) := by
  induction digits with
  | nil => rfl
  | cons c digits ih =>
      have hpoint : c ≠ '.' := by
        rintro rfl
        exact absurd (hdigits '.' List.mem_cons_self) (by decide)
      rw [List.cons_append, aroundPoint?, if_neg hpoint,
        ih fun c hc => hdigits c (List.mem_cons_of_mem _ hc), Option.map_some]

theorem partAt?_append (front rest : List Char) :
    partAt? (Utf8.encode front).length (front ++ rest) = some (front, rest) := by
  rw [partAt?, takeBytes?_eq_some_iff.mpr ⟨rfl, rest, rfl⟩, Option.map_some, List.drop_left]

/-- No cut is out of place: what is cut out are as many characters as were counted off. -/
theorem sliceOne_eq (offset : Nat) (text : List Char) :
    sliceOne offset text =
      some (match aroundPoint? text with
      | none => .error .incomplete
      | some (digits, value) =>
        match Unsigned.read Unsigned.max64 digits with
        | .error _ => .error .missingLength
        | .ok length =>
          let stop := offset + ((Utf8.encode digits).length + 1 +
            (Utf8.encode (value.take length)).length)
          match value.drop length with
          | [] => .error .incomplete
          | c :: rest =>
            if c = ';' then .ok (⟨value.take length, stop⟩, none)
            else if c = ',' then .ok (⟨value.take length, stop⟩, some rest)
            else .error (.unexpectedTerminator c)) := by
  unfold sliceOne
  cases aroundPoint? text with
  | none => rfl
  | some parts =>
      obtain ⟨digits, value⟩ := parts
      dsimp only
      cases Unsigned.read Unsigned.max64 digits with
      | error fault => rfl
      | ok length =>
          have hcut := partAt?_append (value.take length) (value.drop length)
          rw [List.take_append_drop] at hcut
          dsimp only
          rw [hcut]
          cases hbehind : value.drop length with
          | nil => rfl
          | cons c rest =>
              dsimp only
              split
              · rfl
              · split
                next hcomma =>
                  -- a comma takes one byte
                  have hnext := partAt?_append (value.take length ++ [c]) rest
                  rw [List.append_assoc, List.singleton_append, ← hbehind, List.take_append_drop,
                    Utf8.encode_append, List.length_append, hcomma] at hnext
                  have hone : (Utf8.encode [',']).length = 1 := by decide
                  rw [hone] at hnext
                  rw [hnext, Option.map_some]
                · rfl

theorem length_lt_of_sliceOne {offset : Nat} {text rest : List Char} {s : Slice}
    (hone : sliceOne offset text = some (.ok (s, some rest))) : rest.length < text.length := by
  rw [sliceOne_eq, Option.some.injEq] at hone
  split at hone
  · cases hone
  next digits value hpoint =>
    rw [aroundPoint?_eq_some hpoint]
    split at hone
    · cases hone
    next length _ =>
      dsimp only at hone
      split at hone
      · cases hone
      next c behind hbehind =>
        have hdrop : (value.drop length).length = value.length - length := List.length_drop
        rw [hbehind, List.length_cons] at hdrop
        split at hone
        · cases hone
        · split at hone
          · cases hone
            rw [List.length_append, List.length_cons]
            omega
          · cases hone

/-- Cuts a text that stands at an offset into its elements. There is no outcome if a cut is out of
place. -/
def sliceFrom (offset : Nat) (text : List Char) : Option (Except Fault (List Slice)) :=
  match hone : sliceOne offset text with
  | none => none
  | some (.error fault) => some (.error fault)
  | some (.ok (s, none)) => some (.ok [s])
  | some (.ok (s, some rest)) =>
    have _hshorter : rest.length < text.length := length_lt_of_sliceOne hone
    (sliceFrom (s.stop + 1) rest).map (Except.map (s :: ·))
termination_by text.length

theorem sliceFrom_of_last {offset : Nat} {text : List Char} {s : Slice}
    (hone : sliceOne offset text = some (.ok (s, none))) :
    sliceFrom offset text = some (.ok [s]) := by
  unfold sliceFrom
  split <;> rename_i hsame <;> rw [hone] at hsame <;> cases hsame
  rfl

theorem sliceFrom_of_next {offset : Nat} {text rest : List Char} {s : Slice}
    (hone : sliceOne offset text = some (.ok (s, some rest))) :
    sliceFrom offset text = (sliceFrom (s.stop + 1) rest).map (Except.map (s :: ·)) := by
  rw [sliceFrom]
  split <;> rename_i hsame <;> rw [hone] at hsame <;> cases hsame
  rfl

/-- Cuts the text of an instruction into its elements at byte offsets. -/
def slice (text : List Char) : Option (Except Fault (List Slice)) :=
  sliceFrom 0 text

/-! ## Cutting by offsets and by counting -/

theorem splitFrom_inLength (seen text : List Char) :
    splitFrom (.inLength seen) text =
      match aroundPoint? text with
      | none => .error .incomplete
      | some (digits, value) =>
        match Unsigned.read Unsigned.max64 (seen.reverse ++ digits) with
        | .error _ => .error .missingLength
        | .ok length => splitFrom (.inText length []) value := by
  induction text generalizing seen with
  | nil => rfl
  | cons c rest ih =>
      rw [splitFrom, aroundPoint?]
      split
      · simp only [List.append_nil]
        cases Unsigned.read Unsigned.max64 seen.reverse <;> rfl
      · rw [ih]
        cases aroundPoint? rest with
        | none => rfl
        | some parts => simp

theorem splitFrom_inText (left : Nat) (seen text : List Char) :
    splitFrom (.inText left seen) text =
      match text.drop left with
      | [] => .error .incomplete
      | c :: rest =>
        if c = ';' then .ok [seen.reverse ++ text.take left]
        else if c = ',' then
          (splitFrom (.inLength []) rest).map ((seen.reverse ++ text.take left) :: ·)
        else .error (.unexpectedTerminator c) := by
  induction left generalizing seen text with
  | zero =>
      cases text with
      | nil => rfl
      | cons c rest => simp [splitFrom]
  | succ left ih =>
      cases text with
      | nil => rfl
      | cons c rest =>
          rw [splitFrom, ih]
          simp

/-- What counting characters makes of a text whose first element was cut out so. -/
def continued : Except Fault (Slice × Option (List Char)) → Except Fault (List (List Char))
  | .error fault => .error fault
  | .ok (s, none) => .ok [s.value]
  | .ok (s, some rest) => (split rest).map (s.value :: ·)

/-- The first element is cut out in its place, and it is the one that counting characters gives. -/
theorem exists_sliceOne (offset : Nat) (text : List Char) :
    ∃ outcome, sliceOne offset text = some outcome ∧ split text = continued outcome := by
  refine ⟨_, sliceOne_eq offset text, ?_⟩
  rw [split, splitFrom_inLength]
  cases aroundPoint? text with
  | none => rfl
  | some parts =>
      obtain ⟨digits, value⟩ := parts
      dsimp only
      rw [List.reverse_nil, List.nil_append]
      cases Unsigned.read Unsigned.max64 digits with
      | error fault => rfl
      | ok length =>
          dsimp only
          rw [splitFrom_inText]
          cases value.drop length with
          | nil => rfl
          | cons c rest =>
              dsimp only
              split
              · rfl
              · split <;> rfl

/-- Cutting by offsets goes through in every text, with the elements that counting characters
gives. -/
theorem map_sliceFrom (offset : Nat) (text : List Char) :
    (sliceFrom offset text).map (Except.map (List.map Slice.value)) = some (split text) := by
  fun_induction sliceFrom offset text with
  | case1 offset text hnone =>
      obtain ⟨outcome, hone, -⟩ := exists_sliceOne offset text
      rw [hnone] at hone
      cases hone
  | case2 offset text fault herror =>
      obtain ⟨outcome, hone, hsplit⟩ := exists_sliceOne offset text
      rw [herror] at hone
      cases hone
      rw [hsplit]
      rfl
  | case3 offset text s hlast =>
      obtain ⟨outcome, hone, hsplit⟩ := exists_sliceOne offset text
      rw [hlast] at hone
      cases hone
      rw [hsplit]
      rfl
  | case4 offset text s rest hnext _ ih =>
      obtain ⟨outcome, hone, hsplit⟩ := exists_sliceOne offset text
      rw [hnext] at hone
      cases hone
      obtain ⟨slices, hslices, hrest⟩ := Option.map_eq_some_iff.mp ih
      rw [hsplit, hslices, continued, ← hrest]
      cases slices <;> rfl

/-! ## The scan comes to the same offsets -/

theorem encode_text_piece (piece : Piece) :
    (Utf8.encode piece.text).length =
      (Utf8.encode piece.digits).length + 1 + (Utf8.encode piece.value).length := by
  have hone : (Utf8.encode ['.']).length = 1 := by decide
  rw [Piece.text, Utf8.encode_append, ← List.singleton_append, Utf8.encode_append,
    List.length_append, List.length_append, hone, Nat.add_assoc]

/-- A formed element is cut out whole, and the delimiter behind it is found where its bytes end. -/
theorem sliceOne_piece {piece : Piece} (hformed : piece.IsFormed) (offset : Nat) (c : Char)
    (rest : List Char) :
    sliceOne offset (piece.text ++ c :: rest) =
      some (if c = ';' then
          .ok (⟨piece.value, offset + (Utf8.encode piece.text).length⟩, none)
        else if c = ',' then
          .ok (⟨piece.value, offset + (Utf8.encode piece.text).length⟩, some rest)
        else .error (.unexpectedTerminator c)) := by
  have hpoint := aroundPoint?_digits hformed.digits (piece.value ++ c :: rest)
  rw [sliceOne_eq, encode_text_piece, Piece.text, List.append_assoc, List.cons_append, hpoint]
  dsimp only
  rw [hformed.read_eq]
  dsimp only
  rw [List.drop_left, List.take_left]

theorem stopsFrom_of_scanElement {offset room : Nat} {bytes rest : List UInt8} {terminator : UInt8}
    (hscan : scanElement bytes = .done () (terminator :: rest)) :
    stopsFrom offset (room + 1) bytes =
      (offset + (bytes.length - (rest.length + 1))) ::
        if terminator = 0x2C then
          stopsFrom (offset + (bytes.length - (rest.length + 1)) + 1) room rest
        else [] := by
  rw [stopsFrom, hscan]

/-- Where a scan passes over elements, cutting does as well, and both stand at the same offset
behind each of them. -/
theorem exists_slices_of_scanElements (offset : Nat) {room : Nat} {text : List Char}
    {rest : List UInt8} (hscan : scanElements room (Utf8.encode text) = .done () rest) :
    ∃ slices, sliceFrom offset text = some (.ok slices) ∧
      slices.map Slice.stop = stopsFrom offset room (Utf8.encode text) := by
  induction room generalizing offset text with
  | zero =>
      obtain ⟨_, _, _, hnone⟩ := Scan.andThen_eq_done_iff.mp hscan
      cases hnone
  | succ room ih =>
      obtain ⟨_, middle, helement, hmiddle⟩ := Scan.andThen_eq_done_iff.mp hscan
      obtain ⟨piece, behind, hformed, rfl, rfl⟩ := exists_piece_of_scanElement helement
      cases hbehind : Utf8.encode behind with
      | nil =>
          rw [hbehind] at hmiddle
          cases hmiddle
      | cons terminator tail =>
          rw [hbehind] at helement hmiddle
          -- the scan has passed over as many bytes as the element has
          have hpassed : (Utf8.encode (piece.text ++ behind)).length - (tail.length + 1) =
              (Utf8.encode piece.text).length := by
            rw [Utf8.encode_append, List.length_append, hbehind, List.length_cons,
              Nat.add_sub_cancel]
          rw [stopsFrom_of_scanElement helement, hpassed]
          dsimp only at hmiddle
          split at hmiddle
          next hlast =>
            subst hlast
            obtain ⟨later, rfl, rfl⟩ := exists_of_encode_eq_cons (by decide) hbehind
            have hone := sliceOne_piece hformed offset ';' later
            rw [if_pos rfl] at hone
            exact ⟨_, sliceFrom_of_last hone, rfl⟩
          next =>
            split at hmiddle
            next hcomma =>
              subst hcomma
              obtain ⟨later, rfl, rfl⟩ := exists_of_encode_eq_cons (by decide) hbehind
              have hone := sliceOne_piece hformed offset ',' later
              rw [if_neg (by decide), if_pos rfl] at hone
              obtain ⟨slices, hslices, hstops⟩ :=
                ih (offset + (Utf8.encode piece.text).length + 1) hmiddle
              refine ⟨⟨piece.value, offset + (Utf8.encode piece.text).length⟩ :: slices, ?_, ?_⟩
              · refine (sliceFrom_of_next hone).trans ?_
                rw [hslices]
                rfl
              · rw [List.map_cons, hstops, if_pos rfl]
            · cases hmiddle

/-- The scan has read to the end of the delimiter that it came to last. -/
theorem getLast?_stopsFrom {offset room : Nat} {bytes rest : List UInt8}
    (hscan : scanElements room bytes = .done () rest) :
    (stopsFrom offset room bytes).getLast? =
      some (offset + (bytes.length - (rest.length + 1))) := by
  induction room generalizing offset bytes with
  | zero =>
      obtain ⟨_, _, _, hnone⟩ := Scan.andThen_eq_done_iff.mp hscan
      cases hnone
  | succ room ih =>
      obtain ⟨_, middle, helement, hmiddle⟩ := Scan.andThen_eq_done_iff.mp hscan
      have hshorter := length_lt_of_scanElement helement
      cases middle with
      | nil => cases hmiddle
      | cons terminator tail =>
          rw [stopsFrom_of_scanElement helement]
          dsimp only at hmiddle
          split at hmiddle
          next hlast =>
            subst hlast
            cases hmiddle
            rfl
          next =>
            split at hmiddle
            next hcomma =>
              have hlater := length_lt_of_scanElements hmiddle
              rw [if_pos hcomma, List.getLast?_cons, ih hmiddle, Option.getD_some]
              rw [List.length_cons] at hshorter
              congr 1
              omega
            · cases hmiddle

theorem getLast?_stops {bytes : List UInt8} {n : Nat}
    (hend : instructionEnd bytes = .ok (some n)) : (stops bytes).getLast? = some (n - 1) := by
  unfold instructionEnd at hend
  split at hend
  next rest hscan =>
    cases hend
    rw [stops, getLast?_stopsFrom hscan, Nat.zero_add, Nat.sub_sub]
  · cases hend
  · cases hend

/-! ## What is refused -/

/-- A text whose end the scan has found is cut into its elements. -/
theorem exists_slices {bytes : List UInt8} {text : List Char}
    (hend : instructionEnd bytes = .ok (some bytes.length)) (htext : bytes = Utf8.encode text) :
    ∃ slices, slice text = some (.ok slices) ∧ slices.map Slice.stop = stops bytes ∧
      split text = .ok (slices.map Slice.value) ∧
      decode bytes = .ok (ofElements (slices.map fun s => String.ofList s.value)) := by
  have hscan := instructionEnd_eq_length_iff.mp hend
  rw [htext] at hscan
  obtain ⟨slices, hslices, hstops⟩ := exists_slices_of_scanElements 0 hscan
  have hsplit := map_sliceFrom 0 text
  rw [hslices] at hsplit
  have hsame : split text = .ok (slices.map Slice.value) := (Option.some.inj hsplit).symm
  refine ⟨slices, hslices, ?_, hsame, ?_⟩
  · rw [hstops, htext]
    rfl
  · rw [decode, hend, Utf8.decode?_eq_some_iff.mpr htext]
    dsimp only
    rw [if_neg (not_not.mpr rfl), hsame, Except.map, List.map_map]
    rfl

theorem decode_of_no_text {bytes : List UInt8}
    (hend : instructionEnd bytes = .ok (some bytes.length))
    (hnone : ∀ text, bytes ≠ Utf8.encode text) : decode bytes = .error .invalidUtf8 := by
  have hdecode : Utf8.decode? bytes = none := by
    refine Option.eq_none_iff_forall_ne_some.mpr fun text htext => ?_
    exact hnone text (Utf8.decode?_eq_some_iff.mp htext)
  rw [decode, hend, hdecode]
  simp

/-- Bytes are refused for what the scan for their end refuses them for, because their end is not
in sight, or because something follows it, and otherwise exactly if they are no text. Any other
text decodes: it is cut at the offsets that the scan came to, the last of which is that of its last
byte; no cut is out of place, and no element lacks its point, its number or its delimiter. -/
theorem decode_fails_in_scan_or_text (bytes : List UInt8) :
    (∀ fault, instructionEnd bytes = .error fault → decode bytes = .error fault) ∧
    (instructionEnd bytes = .ok none → decode bytes = .error .incomplete) ∧
    ∀ n, instructionEnd bytes = .ok (some n) →
      n ≤ bytes.length ∧ (stops bytes).getLast? = some (n - 1) ∧
      (n < bytes.length → decode bytes = .error .trailingData) ∧
      (n = bytes.length → (∀ text, bytes ≠ Utf8.encode text) →
        decode bytes = .error .invalidUtf8) ∧
      ∀ text, n = bytes.length → bytes = Utf8.encode text →
        ∃ slices, slice text = some (.ok slices) ∧
          slices.map Slice.stop = stops bytes ∧
          split text = .ok (slices.map Slice.value) ∧
          decode bytes = .ok (ofElements (slices.map fun s => String.ofList s.value)) := by
  refine ⟨?_, ?_, ?_⟩
  · intro fault hfault
    rw [decode, hfault]
  · intro hopen
    rw [decode, hopen]
  · intro n hend
    refine ⟨(le_of_instructionEnd hend).2, getLast?_stops hend, ?_, ?_, ?_⟩
    · intro hmore
      rw [decode, hend]
      dsimp only
      rw [if_pos (Nat.ne_of_lt hmore)]
    · rintro rfl hnone
      exact decode_of_no_text hend hnone
    · rintro text rfl htext
      exact exists_slices hend htext

/-- A wide character and delimiters among the characters of elements do not put a cut out of place,
but a lead byte without the bytes that it announces is no text. -/
theorem decode_fails_in_scan_or_text_of_wide_character :
    let bytes : List UInt8 := [0x32, 0x2E, 0xE6, 0x97, 0xA5, 0x2E, 0x2C, 0x31, 0x2E, 0x3B, 0x3B]
    let text := ['2', '.', '日', '.', ',', '1', '.', ';', ';']
    (∃ slices, slice text = some (.ok slices) ∧ slices.map Slice.value = [['日', '.'], [';']] ∧
      slices.map Slice.stop = [6, 10] ∧ stops bytes = [6, 10]) ∧
    decode (bytes ++ [0x30]) = .error .trailingData ∧
    decode [0x31, 0x2E, 0xC3, 0x3B, 0x3B] = .error .invalidUtf8 := by
  intro bytes text
  have hend : instructionEnd bytes = .ok (some 11) := by decide
  have hmore : instructionEnd (bytes ++ [0x30]) = .ok (some 11) := by decide
  have hlead : instructionEnd [0x31, 0x2E, 0xC3, 0x3B, 0x3B] = .ok (some 5) := by decide
  have hnone : ∀ text, ([0x31, 0x2E, 0xC3, 0x3B, 0x3B] : List UInt8) ≠ Utf8.encode text := by
    intro text htext
    have hdecode := Utf8.decode?_eq_some_iff.mpr htext
    have hfault : Utf8.decode? [0x31, 0x2E, 0xC3, 0x3B, 0x3B] = none := by decide
    rw [hfault] at hdecode
    cases hdecode
  have hstops : stops bytes = [6, 10] := by decide
  have hsplit : split text = .ok [['日', '.'], [';']] := by decide
  refine ⟨?_, ?_, ?_⟩
  · obtain ⟨-, -, -, htext⟩ := (decode_fails_in_scan_or_text bytes).2.2 11 hend |>.2
    obtain ⟨slices, hslices, hsame, hvalues, -⟩ := htext text rfl (by decide)
    rw [hsplit] at hvalues
    exact ⟨slices, hslices, (Except.ok.inj hvalues).symm, hsame.trans hstops, hstops⟩
  · exact ((decode_fails_in_scan_or_text (bytes ++ [0x30])).2.2 11 hmore).2.2.1 (by decide)
  · exact ((decode_fails_in_scan_or_text _).2.2 5 hlead).2.2.2.1 rfl hnone

end Instruction

end LongPollTunnel
