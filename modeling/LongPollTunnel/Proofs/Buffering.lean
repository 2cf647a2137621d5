import LongPollTunnel.Proofs.Encoding
import LongPollTunnel.Proofs.Sessions

/-! # How much is buffered

Each limit of an instruction bounds how many bytes a scan passes over before it can tell, and such
bounds add up along the scan. A reader reads on only while nothing can be told, so its buffer grows
past that bound by one read at most. Main statement: the longest bytes that leave a scan undecided,
and the bound on the buffer of a reader however it is used.
-/

namespace LongPollTunnel

open Instruction

namespace Framing

variable {α β : Type}

/-! ## How far a scan goes -/

/-- A scan that is done has passed over at most so many bytes, and one that has to wait was given
fewer. -/
structure Bounded (scan : List UInt8 → Scan α) (most : Nat) : Prop where
  of_done : ∀ bytes value rest, scan bytes = .done value rest →
    bytes.length ≤ rest.length + most
  of_undecided : ∀ bytes, scan bytes = .undecided → bytes.length < most

namespace Bounded

theorem malformed (fault : Fault) (most : Nat) :
    Bounded (fun _ => (Scan.malformed fault : Scan α)) most where
  of_done := nofun
  of_undecided := nofun

/-- The bounds add up along a scan. -/
theorem andThen {scan : List UInt8 → Scan α} {next : α → List UInt8 → Scan β}
    {first second : Nat} (hscan : Bounded scan first)
    (hnext : ∀ value, Bounded (next value) second) :
    Bounded (fun bytes => (scan bytes).andThen next) (first + second) where
  of_done := by
    intro bytes value rest hdone
    obtain ⟨found, middle, hfirst, hsecond⟩ := Scan.andThen_eq_done_iff.mp hdone
    have hpassed := hscan.of_done bytes found middle hfirst
    have hlater := (hnext found).of_done middle value rest hsecond
    omega
  of_undecided := by
    intro bytes hwait
    cases hfirst : scan bytes with
    | done found middle =>
        rw [hfirst, Scan.andThen_done] at hwait
        have hpassed := hscan.of_done bytes found middle hfirst
        have hlater := (hnext found).of_undecided middle hwait
        omega
    | malformed fault =>
        rw [hfirst, Scan.andThen_malformed] at hwait
        cases hwait
    | undecided =>
        have hshort := hscan.of_undecided bytes hfirst
        omega

/-- A bound may be raised. -/
theorem mono {scan : List UInt8 → Scan α} {most more : Nat} (hscan : Bounded scan most)
    (hle : most ≤ more) : Bounded scan more where
  of_done := fun bytes value rest hdone =>
    Nat.le_trans (hscan.of_done bytes value rest hdone) (Nat.add_le_add_left hle _)
  of_undecided := fun bytes hwait =>
    Nat.lt_of_lt_of_le (hscan.of_undecided bytes hwait) hle

end Bounded

/-- A length has its digits and a point. -/
theorem bounded_scanLength {digits : Nat} (hdigits : digits ≤ maxLengthDigits) (value : Nat) :
    Bounded (scanLength digits value) (maxLengthDigits - digits + 1) where
  of_done := by
    intro bytes length rest hscan
    induction bytes generalizing digits value with
    | nil => simp [scanLength] at hscan
    | cons byte tail ih =>
        simp only [scanLength] at hscan
        rw [List.length_cons]
        split at hscan
        · split at hscan
          · cases hscan
          next hroom =>
            have hdigits' : digits + 1 ≤ maxLengthDigits := by omega
            have hlater := ih hdigits' _ hscan
            omega
        · split at hscan
          · split at hscan
            · cases hscan
            · cases hscan
              omega
          · cases hscan
  of_undecided := by
    intro bytes hscan
    induction bytes generalizing digits value with
    | nil => exact Nat.succ_pos _
    | cons byte tail ih =>
        simp only [scanLength] at hscan
        rw [List.length_cons]
        split at hscan
        · split at hscan
          · cases hscan
          next hroom =>
            have hdigits' : digits + 1 ≤ maxLengthDigits := by omega
            have hlater := ih hdigits' _ hscan
            omega
        · split at hscan
          · split at hscan <;> cases hscan
          · cases hscan

theorem le_four_of_leadWidth? {lead : UInt8} {width : Nat}
    (hwidth : Utf8.leadWidth? lead = some width) : 1 ≤ width ∧ width ≤ 4 := by
  unfold Utf8.leadWidth? at hwidth
  repeat' split at hwidth
  all_goals first
    | cases hwidth; omega
    | cases hwidth

/-- A character has at most four bytes. -/
theorem bounded_skipCharacters (count : Nat) : Bounded (skipCharacters count) (4 * count) where
  of_done := by
    intro bytes value rest hscan
    induction count generalizing bytes with
    | zero =>
        cases hscan
        exact Nat.le_refl _
    | succ count ih =>
        cases bytes with
        | nil => cases hscan
        | cons lead tail =>
            simp only [skipCharacters] at hscan
            split at hscan
            · cases hscan
            next width hwidth =>
              split at hscan
              · cases hscan
              next left hleft =>
                obtain ⟨front, hfront, rfl⟩ := exists_front_of_dropExactly? hleft
                have hlater := ih _ hscan
                have hfour := le_four_of_leadWidth? hwidth
                rw [List.length_cons, List.length_append]
                omega
  of_undecided := by
    intro bytes hscan
    induction count generalizing bytes with
    | zero => cases hscan
    | succ count ih =>
        cases bytes with
        | nil => exact Nat.mul_pos (by decide) (Nat.succ_pos count)
        | cons lead tail =>
            simp only [skipCharacters] at hscan
            split at hscan
            · cases hscan
            next width hwidth =>
              have hfour := le_four_of_leadWidth? hwidth
              rw [List.length_cons]
              split at hscan
              next hnone =>
                -- the character was cut
                have hcut : ¬ width - 1 ≤ tail.length := by
                  intro hle
                  have hsome := dropExactly?_eq_some_iff.mpr ⟨hle, rfl⟩
                  rw [hnone] at hsome
                  cases hsome
                omega
              next left hleft =>
                obtain ⟨front, hfront, rfl⟩ := exists_front_of_dropExactly? hleft
                have hlater := ih _ hscan
                rw [List.length_append]
                omega

/-- Most bytes of an element: its length, a point, and characters of four bytes each. -/
def maxElementBytes : Nat :=
  maxLengthDigits + 1 + 4 * maxElementLength

/-- An element has a length, a delimiter, and four bytes at most for each character. -/
theorem bounded_scanElement : Bounded scanElement maxElementBytes := by
  apply (bounded_scanLength (Nat.zero_le _) 0).andThen
  intro length
  by_cases hlong : maxElementLength < length
  · simpa only [if_pos hlong] using Bounded.malformed _ _
  · simpa only [if_neg hlong] using
      (bounded_skipCharacters length).mono (Nat.mul_le_mul_left 4 (Nat.not_lt.mp hlong))

/-- Each element there is room for may have a comma behind it, and then one more may come. -/
theorem bounded_scanElements (room : Nat) :
    Bounded (scanElements room) (maxElementBytes + room * (maxElementBytes + 1)) := by
  induction room with
  | zero => exact bounded_scanElement.andThen fun _ => Bounded.malformed _ _
  | succ room ih =>
      apply bounded_scanElement.andThen
      intro _
      constructor
      · intro bytes value rest hscan
        cases bytes with
        | nil => cases hscan
        | cons terminator tail =>
            simp only at hscan
            rw [List.length_cons]
            split at hscan
            · cases hscan
              exact Nat.add_le_add_left (Nat.mul_pos (Nat.succ_pos room) (Nat.succ_pos _)) _
            · split at hscan
              · have hlater := ih.of_done _ _ _ hscan
                rw [Nat.succ_mul]
                omega
              · cases hscan
      · intro bytes hscan
        cases bytes with
        | nil => exact Nat.mul_pos (Nat.succ_pos room) (Nat.succ_pos _)
        | cons terminator tail =>
            simp only at hscan
            rw [List.length_cons]
            split at hscan
            · cases hscan
            · split at hscan
              · have hlater := ih.of_undecided _ hscan
                rw [Nat.succ_mul]
                omega
              · cases hscan

/-- Most bytes of which it cannot be told how they begin: as many elements as an instruction may
have, each with a comma behind it, and one more that is short of a byte. -/
def maxUndecided : Nat :=
  maxElements * (maxElementBytes + 1) + (maxElementBytes - 1)

/-- Bytes that decide nothing yet are no longer than the longest instruction without its end. -/
theorem length_le_of_undecided {bytes : List UInt8} (hend : instructionEnd bytes = .ok none) :
    bytes.length ≤ maxUndecided := by
  unfold instructionEnd at hend
  split at hend
  · cases hend
  next hscan =>
    have hshort := (bounded_scanElements maxElements).of_undecided bytes hscan
    exact Nat.le_of_lt_succ hshort
  · cases hend

/-! ## The bound is attained -/

/-- What is short of the end of a scan leaves it undecided. -/
theorem Incremental.undecided_of_append {scan : List UInt8 → Scan α} (hscan : Incremental scan)
    {front more : List UInt8} {value : α} (hmore : more ≠ [])
    (hdone : scan (front ++ more) = .done value []) : scan front = .undecided := by
  cases hfront : scan front with
  | done found rest =>
      rw [hscan.append_of_done hfront more] at hdone
      cases hnil : rest ++ more with
      | nil => exact absurd (List.append_eq_nil_iff.mp hnil).2 hmore
      | cons byte tail =>
          rw [hnil] at hdone
          cases hdone
  | malformed fault =>
      rw [hscan.of_malformed front fault more hfront] at hdone
      cases hdone
  | undecided => rfl

theorem scanElements_comma {piece : Piece} (hformed : piece.IsFormed) (room : Nat)
    (rest : List UInt8) :
    scanElements (room + 1) (Utf8.encode piece.text ++ 0x2C :: rest) = scanElements room rest := by
  rw [scanElements, scanElement_piece hformed]
  rfl

/-- Elements of one form are read one after the other. -/
theorem scanElements_replicate {piece : Piece} (hformed : piece.IsFormed) (count room : Nat)
    (rest : List UInt8) :
    scanElements (room + count)
        ((List.replicate count (Utf8.encode piece.text ++ [0x2C])).flatten ++ rest) =
      scanElements room rest := by
  induction count with
  | zero => rfl
  | succ count ih =>
      rw [List.replicate_succ, List.flatten_cons, List.append_assoc, List.append_assoc,
        List.singleton_append, ← Nat.add_assoc, scanElements_comma hformed, ih]

/-- An element of as many bytes as the limits allow: a zero stands in front of its length, and each
character has four bytes. -/
def widestPiece : Piece where
  digits := ['0', '8', '1', '9', '2']
  value := List.replicate maxElementLength (Char.ofNat 0x10000)

theorem isFormed_widestPiece : widestPiece.IsFormed where
  some_digit := by decide
  few_digits := by decide
  digits := List.all_eq_true.mp (by decide)
  number := by
    rw [widestPiece, List.length_replicate]
    decide
  limit := Nat.le_of_eq List.length_replicate

theorem length_encode_widestPiece :
    (Utf8.encode widestPiece.text).length = maxElementBytes := by
  have hvalue : (Utf8.encode widestPiece.value).length = maxElementLength * 4 := by
    have hwidth : (Char.ofNat 0x10000).utf8Size = 4 := by decide
    simp [Utf8.encode, widestPiece, List.length_flatMap, hwidth]
  have htext : Utf8.encode widestPiece.text =
      Utf8.encode (widestPiece.digits ++ ['.']) ++ Utf8.encode widestPiece.value := by
    rw [← Utf8.encode_append, List.append_assoc]
    rfl
  have hdigits : (Utf8.encode (widestPiece.digits ++ ['.'])).length = maxLengthDigits + 1 := by
    decide
  rw [htext, List.length_append, hdigits, hvalue, maxElementBytes, Nat.mul_comm 4]

/-- As many of the widest elements as an instruction may have, each with a comma behind it, and
another one that is short of its last byte. -/
def longestUndecided : List UInt8 :=
  (List.replicate maxElements (Utf8.encode widestPiece.text ++ [0x2C])).flatten ++
    (Utf8.encode widestPiece.text).dropLast

/-- It is as long as the bound. -/
theorem length_longestUndecided : longestUndecided.length = maxUndecided := by
  rw [longestUndecided, List.length_append, List.length_flatten, List.map_replicate,
    List.length_append, List.length_dropLast, length_encode_widestPiece]
  decide

/-- And it decides nothing. -/
theorem instructionEnd_longestUndecided : instructionEnd longestUndecided = .ok none := by
  have hlast : scanElement (Utf8.encode widestPiece.text).dropLast = .undecided := by
    have hsome : Utf8.encode widestPiece.text ≠ [] := by
      apply List.ne_nil_of_length_pos
      rw [length_encode_widestPiece]
      decide
    apply incremental_scanElement.undecided_of_append
      (List.cons_ne_nil ((Utf8.encode widestPiece.text).getLast hsome) [])
    have hdone := scanElement_piece isFormed_widestPiece []
    rwa [List.append_nil, ← List.dropLast_append_getLast hsome] at hdone
  have hscan : scanInstruction longestUndecided = .undecided := by
    have hcommas := scanElements_replicate isFormed_widestPiece maxElements 0
      (Utf8.encode widestPiece.text).dropLast
    rw [Nat.zero_add] at hcommas
    rw [scanInstruction, longestUndecided, hcommas, scanElements, hlast, Scan.andThen_undecided]
  rw [instructionEnd, hscan]

end Framing

namespace Reader

open Framing

variable {r next : Reader}

/-! ## When a reader reads -/

/-- The reader as each read of a wait finds it, and what that read gives. -/
def readsFrom : List Arrival → Reader → List (Reader × Arrival)
  | [], _ => []
  | arrival :: rest, r =>
    match r.check with
    | (.waiting, next) => (next, arrival) :: readsFrom rest (next.receive arrival)
    | (.done _, _) | (.failed _, _) => []

def readsOfAwait (closed : Bool) (r : Reader) : List (Reader × Arrival) :=
  if closed then [] else readsFrom r.source r

/-- The reader as the read of a look ahead finds it, if one is made, and what it gives. -/
def readsOfAvailable (closed : Bool) (r : Reader) : List (Reader × Arrival) :=
  if closed || r.pending.isSome || r.scan.hasNews || r.ended then []
  else
    match r.source with
    | [] => []
    | arrival :: _ => [(r.scan, arrival)]

/-- Nothing complete is buffered, nothing is to be reported, and it cannot be told how the buffer
begins. -/
structure IsUndecided (r : Reader) : Prop where
  complete_eq : r.complete = 0
  pending_eq : r.pending = none
  instructionEnd_eq : instructionEnd r.buffer = .ok none

/-- Where nothing is left to hand out or report, the buffer decides nothing. -/
theorem Spent.isUndecided (hr : r.Spent) : r.IsUndecided where
  complete_eq := hr.complete_eq
  pending_eq := hr.pending_eq
  instructionEnd_eq := by
    cases hend : instructionEnd r.buffer with
    | error fault =>
        have hnone := hr.fault_eq
        rw [fault?_of_instructionEnd hend] at hnone
        cases hnone
    | ok found =>
        cases found with
        | none => rfl
        | some length =>
            exact absurd hr.wholePart_eq (wholePart_ne_nil_of_instructionEnd hend)

/-- A wait takes from its source only while the buffer decides nothing. -/
theorem isUndecided_of_mem_readsFrom {source : List Arrival} {x : Reader × Arrival}
    (hr : r.Sound) (hx : x ∈ readsFrom source r) : x.1.IsUndecided := by
  induction source generalizing r with
  | nil => cases hx
  | cons arrival rest ih =>
      have hchecked := hr.check
      unfold readsFrom at hx
      split at hx
      next next hcheck =>
        rw [hcheck] at hchecked
        rcases List.mem_cons.mp hx with rfl | hlater
        · exact (spent_of_check_waiting hr hcheck).2.1.isUndecided
        · exact ih (hchecked.receive arrival) hlater
      · cases hx
      · cases hx

/-- Whatever a wait takes off the source is taken by one of these reads. -/
theorem source_awaitFrom_eq (source : List Arrival) (r : Reader) :
    source = (readsFrom source r).map Prod.snd ++ (awaitFrom source r).2.source := by
  induction source generalizing r with
  | nil => rfl
  | cons arrival rest ih =>
      unfold readsFrom awaitFrom
      cases hcheck : r.check with
      | mk outcome next =>
          cases outcome with
          | done value => rfl
          | failed failure => rfl
          | waiting => exact congrArg (arrival :: ·) (ih (next.receive arrival))

theorem source_readsOfAwait_eq (closed : Bool) (r : Reader) :
    r.source = (r.readsOfAwait closed).map Prod.snd ++ (r.await closed).2.source := by
  unfold readsOfAwait await
  cases closed
  · exact source_awaitFrom_eq r.source r
  · rfl

theorem isUndecided_of_mem_readsOfAwait {closed : Bool} {x : Reader × Arrival} (hr : r.Sound)
    (hx : x ∈ r.readsOfAwait closed) : x.1.IsUndecided := by
  unfold readsOfAwait at hx
  split at hx
  · cases hx
  · exact isUndecided_of_mem_readsFrom hr hx

/-- Nor does a look ahead take from it before. -/
theorem isUndecided_of_mem_readsOfAvailable {closed : Bool} {x : Reader × Arrival} (hr : r.Sound)
    (hx : x ∈ r.readsOfAvailable closed) : x.1.IsUndecided := by
  unfold readsOfAvailable at hx
  split at hx
  · cases hx
  next hreads =>
    have hnews : r.scan.hasNews = false := by simp_all
    split at hx
    · cases hx
    · obtain rfl := List.mem_singleton.mp hx
      exact (spent_scan hr hnews).isUndecided

/-- Whatever a look ahead takes off the source is taken by one of these reads. -/
theorem source_readsOfAvailable_eq (closed : Bool) (r : Reader) :
    r.source = (r.readsOfAvailable closed).map Prod.snd ++ (r.available closed).2.source := by
  have hlook := look_available closed r
  generalize r.available closed = looked at hlook ⊢
  cases hlook with
  | told htold => simp [readsOfAvailable, htold]
  | found hopen hnews => simp [readsOfAvailable, hnews]
  | nothing hopen hnews hover =>
      rcases hover with hended | hsource
      · simp [readsOfAvailable, hended]
      · simp [readsOfAvailable, hsource]
  | @read arrival rest hopen hnews hended hsource =>
      have hread : (r.readAhead arrival rest).source = rest := by cases arrival <;> rfl
      simp [readsOfAvailable, hopen, hnews, hended, hsource, hread]

/-! ## The bound on the buffer -/

/-- How much room a reader makes for each read. A read that finds more room may bring more. -/
def readSize : Nat := 8192

/-- Most bytes that a reader buffers if no read brings more than room was made for. -/
def maxBuffered : Nat :=
  maxUndecided + readSize

/-- The buffer is within the bound, and so is each read to come. -/
structure IsBounded (r : Reader) : Prop where
  buffer_le : r.buffer.length ≤ maxBuffered
  source_le : ∀ arrival ∈ r.source, arrival.bytes.length ≤ readSize

/-- Taking bytes out keeps the bound. -/
theorem IsBounded.of_suffix (hr : r.IsBounded) (hbuffer : next.buffer <:+ r.buffer)
    (hsource : next.source <:+ r.source) : next.IsBounded where
  buffer_le := Nat.le_trans hbuffer.length_le hr.buffer_le
  source_le := fun arrival harrival => hr.source_le arrival (hsource.subset harrival)

/-- A read comes only when the buffer is undecided, and so there is room for what it brings. -/
theorem IsUndecided.receive_le {arrival : Arrival} (hr : r.IsUndecided)
    (harrival : arrival.bytes.length ≤ readSize) :
    (r.receive arrival).buffer.length ≤ maxBuffered := by
  rw [buffer_receive, List.length_append]
  exact Nat.add_le_add (length_le_of_undecided hr.instructionEnd_eq) harrival

/-- The bound holds all along a wait, by induction over what it takes in. -/
theorem isBounded_awaitFrom {source : List Arrival} (hr : r.Sound)
    (hbuffer : r.buffer.length ≤ maxBuffered)
    (hsource : ∀ arrival ∈ source, arrival.bytes.length ≤ readSize) :
    (awaitFrom source r).2.IsBounded ∧
      ∀ x ∈ scansFrom source r, x.buffer.length ≤ maxBuffered := by
  induction source generalizing r with
  | nil =>
      refine ⟨⟨?_, nofun⟩, ?_⟩
      · exact (congrArg List.length r.check_conserves.1).trans_le hbuffer
      · intro x hx
        obtain rfl := List.mem_singleton.mp hx
        exact hbuffer
  | cons arrival rest ih =>
      obtain ⟨harrival, hrest⟩ := List.forall_mem_cons.mp hsource
      have hchecked := hr.check
      have hsame := congrArg List.length r.check_conserves.1
      unfold awaitFrom scansFrom
      cases hcheck : r.check with
      | mk outcome next =>
          rw [hcheck] at hchecked hsame
          cases outcome with
          | waiting =>
              have hundecided := (spent_of_check_waiting hr hcheck).2.1.isUndecided
              obtain ⟨hlast, hscans⟩ :=
                ih (hchecked.receive arrival) (hundecided.receive_le harrival) hrest
              exact ⟨hlast, List.forall_mem_cons.mpr ⟨hbuffer, hscans⟩⟩
          | done value =>
              exact ⟨⟨hsame.trans_le hbuffer, hsource⟩, List.forall_mem_singleton.mpr hbuffer⟩
          | failed failure =>
              exact ⟨⟨hsame.trans_le hbuffer, hsource⟩, List.forall_mem_singleton.mpr hbuffer⟩

theorem IsBounded.await (hsound : r.Sound) (hr : r.IsBounded) (closed : Bool) :
    (r.await closed).2.IsBounded := by
  unfold Reader.await
  split
  · exact hr
  · exact (isBounded_awaitFrom hsound hr.buffer_le hr.source_le).1

/-- Handing out a batch only shortens the buffer. -/
theorem IsBounded.readSome (hsound : r.Sound) (hr : r.IsBounded) (closed expired : Bool) :
    (r.readSome closed expired).2.IsBounded := by
  have hawait := hr.await hsound closed
  unfold Reader.readSome
  split
  next next heq =>
    rw [heq] at hawait
    exact hawait.of_suffix (List.drop_suffix _ _) List.suffix_rfl
  next failure next heq =>
    rw [heq] at hawait
    exact hawait
  next next heq =>
    rw [heq] at hawait
    exact hawait

theorem IsBounded.takeInstruction (hr : r.IsBounded) : r.takeInstruction.2.IsBounded := by
  unfold Reader.takeInstruction
  split
  · exact hr
  · exact hr
  · dsimp only
    split <;> exact hr.of_suffix (List.drop_suffix _ _) List.suffix_rfl

theorem IsBounded.readInstruction (hsound : r.Sound) (hr : r.IsBounded) (closed : Bool) :
    (r.readInstruction closed).2.IsBounded := by
  have hawait := hr.await hsound closed
  unfold Reader.readInstruction
  split
  next next heq =>
    rw [heq] at hawait
    exact hawait.takeInstruction
  next failure next heq =>
    rw [heq] at hawait
    exact hawait
  next next heq =>
    rw [heq] at hawait
    exact hawait

theorem IsBounded.readAhead {arrival : Arrival} {rest : List Arrival} (hr : r.IsBounded)
    (hundecided : r.scan.IsUndecided) (hsource : r.source = arrival :: rest) :
    (r.readAhead arrival rest).IsBounded := by
  obtain ⟨harrival, hrest⟩ := List.forall_mem_cons.mp (hsource ▸ hr.source_le)
  have hread : (r.readAhead arrival rest).source = rest := by cases arrival <;> rfl
  refine ⟨?_, by rwa [hread]⟩
  have hroom : ({ r.scan with source := rest } : Reader).IsUndecided :=
    ⟨hundecided.complete_eq, hundecided.pending_eq, hundecided.instructionEnd_eq⟩
  exact hroom.receive_le harrival

/-- A look ahead takes in one arrival at most, and only at an undecided buffer. -/
theorem IsBounded.available (hsound : r.Sound) (hr : r.IsBounded) (closed : Bool) :
    (r.available closed).2.IsBounded := by
  have hlook := look_available closed r
  generalize r.available closed = looked at hlook ⊢
  cases hlook with
  | told htold => exact hr
  | found hopen hnews => exact ⟨hr.buffer_le, hr.source_le⟩
  | nothing hopen hnews hover => exact ⟨hr.buffer_le, hr.source_le⟩
  | read hopen hnews hended hsource =>
      exact hr.readAhead (spent_scan hsound hnews).isUndecided hsource

theorem IsBounded.scansOfAwait (hsound : r.Sound) (hr : r.IsBounded) (closed : Bool) :
    ∀ x ∈ r.scansOfAwait closed, x.buffer.length ≤ maxBuffered := by
  unfold Reader.scansOfAwait
  split
  · nofun
  · exact (isBounded_awaitFrom hsound hr.buffer_le hr.source_le).2

theorem IsBounded.scansOfAvailable (hsound : r.Sound) (hr : r.IsBounded) (closed : Bool) :
    ∀ x ∈ r.scansOfAvailable closed, x.buffer.length ≤ maxBuffered := by
  intro x hx
  unfold Reader.scansOfAvailable at hx
  split at hx
  · cases hx
  · split at hx
    · obtain rfl := List.mem_singleton.mp hx
      exact hr.buffer_le
    next hreads =>
      have hnews : r.scan.hasNews = false := by simp_all
      split at hx
      · obtain rfl := List.mem_singleton.mp hx
        exact hr.buffer_le
      next arrival rest hsource =>
        rcases List.mem_pair.mp hx with rfl | rfl
        · exact hr.buffer_le
        · exact (hr.readAhead (spent_scan hsound hnews).isUndecided hsource).buffer_le

/-! ## However a reader is used -/

namespace Session

/-- The reader as each read of the source finds it in the course of a use, and what that read
gives. -/
def reads (s : Session) : Use → List (Reader × Arrival)
  | .readSome | .readInstruction => s.reader.readsOfAwait s.isClosed
  | .goOn => if s.begun.isSome then s.reader.readsOfAwait s.isClosed else []
  | .look => s.reader.readsOfAvailable s.isClosed
  | .arrive _ | .pass _ | .close | .drop => []

variable {s : Session} {idleTimeout : Option Nat}

theorem isUndecided_of_mem_reads (hs : s.reader.Sound) {u : Use} {x : Reader × Arrival}
    (hx : x ∈ s.reads u) : x.1.IsUndecided := by
  cases u with
  | readSome => exact isUndecided_of_mem_readsOfAwait hs hx
  | readInstruction => exact isUndecided_of_mem_readsOfAwait hs hx
  | look => exact isUndecided_of_mem_readsOfAvailable hs hx
  | goOn =>
      change x ∈ if s.begun.isSome then s.reader.readsOfAwait s.isClosed else [] at hx
      split at hx
      · exact isUndecided_of_mem_readsOfAwait hs hx
      · cases hx
  | arrive arrivals => cases hx
  | pass milliseconds => cases hx
  | close => cases hx
  | drop => cases hx

theorem source_readInstruction (closed : Bool) (r : Reader) :
    (r.readInstruction closed).2.source = (r.await closed).2.source := by
  unfold Reader.readInstruction Reader.takeInstruction
  split
  next next heq =>
    rw [heq]
    split
    · rfl
    · rfl
    · dsimp only
      split <;> rfl
  next failure next heq => rw [heq]
  next next heq => rw [heq]

/-- What a turn takes from the source is what its reads got. -/
theorem source_turn_eq (s : Session) (begun : Begun) :
    s.reader.source =
      (s.reader.readsOfAwait s.isClosed).map Prod.snd ++ (s.turn begun).2.reader.source := by
  cases begun with
  | batch deadline =>
      change _ = _ ++ (s.reader.readSome s.isClosed _).2.source
      rw [source_readSome]
      exact source_readsOfAwait_eq _ _
  | instruction =>
      change _ = _ ++ (s.reader.readInstruction s.isClosed).2.source
      rw [source_readInstruction]
      exact source_readsOfAwait_eq _ _

/-- Whatever a use takes off the source is taken by one of its reads. -/
theorem source_use_eq (s : Session) (u : Use) :
    s.reader.source ++ u.arrivals = (s.reads u).map Prod.snd ++ (s.use u).2.reader.source := by
  cases u with
  | arrive arrivals => rfl
  | pass milliseconds => exact List.append_nil _
  | close => exact List.append_nil _
  | readSome => exact (List.append_nil _).trans (source_turn_eq s _)
  | readInstruction => exact (List.append_nil _).trans (source_turn_eq s _)
  | look => exact (List.append_nil _).trans (source_readsOfAvailable_eq _ _)
  | goOn =>
      change s.reader.source ++ [] =
        (if s.begun.isSome then s.reader.readsOfAwait s.isClosed else []).map Prod.snd ++
          s.goOn.2.reader.source
      rw [List.append_nil]
      unfold goOn
      cases hbegun : s.begun with
      | none => rfl
      | some begun => exact source_turn_eq s begun
  | drop => exact List.append_nil _

theorem isBounded_turn (hs : s.IsInOrder idleTimeout) (hbounded : s.reader.IsBounded)
    (begun : Begun) : (s.turn begun).2.reader.IsBounded := by
  cases begun with
  | batch deadline => exact hbounded.readSome hs.sound _ _
  | instruction => exact hbounded.readInstruction hs.sound _

/-- The step lemma: every use keeps the bound. -/
theorem isBounded_use (hs : s.IsInOrder idleTimeout) (hbounded : s.reader.IsBounded) {u : Use}
    (harrivals : ∀ arrival ∈ u.arrivals, arrival.bytes.length ≤ readSize) :
    (s.use u).2.reader.IsBounded := by
  cases u with
  | arrive arrivals =>
      refine ⟨hbounded.buffer_le, ?_⟩
      intro arrival harrival
      rcases List.mem_append.mp harrival with hbefore | hnew
      · exact hbounded.source_le arrival hbefore
      · exact harrivals arrival hnew
  | pass milliseconds => exact hbounded
  | close => exact hbounded
  | readSome => exact isBounded_turn hs hbounded _
  | readInstruction => exact isBounded_turn hs hbounded _
  | look => exact hbounded.available hs.sound _
  | goOn =>
      change s.goOn.2.reader.IsBounded
      unfold goOn
      split
      · exact isBounded_turn hs hbounded _
      · exact hbounded
  | drop => exact hbounded

/-- The run lemma, by induction over the uses. -/
theorem isBounded_after {uses : List Use} (hs : s.IsInOrder idleTimeout)
    (hbounded : s.reader.IsBounded)
    (huses : ∀ u ∈ uses, ∀ arrival ∈ u.arrivals, arrival.bytes.length ≤ readSize) :
    (s.after uses).reader.IsBounded := by
  induction uses generalizing s with
  | nil => exact hbounded
  | cons u later ih =>
      obtain ⟨hfirst, hlater⟩ := List.forall_mem_cons.mp huses
      exact ih (hs.use u) (isBounded_use hs hbounded hfirst) hlater

theorem length_le_of_mem_scans (hs : s.IsInOrder idleTimeout) (hbounded : s.reader.IsBounded)
    {u : Use} {x : Reader} (hx : x ∈ s.scans u) : x.buffer.length ≤ maxBuffered := by
  cases u with
  | readSome => exact hbounded.scansOfAwait hs.sound _ x hx
  | readInstruction => exact hbounded.scansOfAwait hs.sound _ x hx
  | look => exact hbounded.scansOfAvailable hs.sound _ x hx
  | goOn =>
      change x ∈ if s.begun.isSome then s.reader.scansOfAwait s.isClosed else [] at hx
      split at hx
      · exact hbounded.scansOfAwait hs.sound _ x hx
      · cases hx
  | arrive arrivals => cases hx
  | pass milliseconds => cases hx
  | close => cases hx
  | drop => cases hx

/-- Whoever has more bytes than 2130373 can tell how they begin, and so many bytes there are of
which it cannot be told: all the elements of an instruction and one more, each as wide as can be,
and the last of them short of a byte. However a reader is used, it reads only if nothing complete
is buffered, nothing is to be reported and it cannot be told how the buffer begins. If no read
brings more than 8192 bytes, there are therefore never more than 2130373 + 8192 bytes in its
buffer. -/
theorem buffer_is_bounded :
    (∀ bytes : List UInt8, 2130373 < bytes.length → instructionEnd bytes ≠ .ok none) ∧
      (longestUndecided.length = 2130373 ∧ instructionEnd longestUndecided = .ok none) ∧
      ∀ (idleTimeout : Option Nat) (uses : List Use),
        (∀ u, ((fresh idleTimeout).after uses).reader.source ++ u.arrivals =
            (((fresh idleTimeout).after uses).reads u).map Prod.snd ++
              (((fresh idleTimeout).after uses).use u).2.reader.source) ∧
          (∀ u, ∀ x ∈ ((fresh idleTimeout).after uses).reads u,
            x.1.complete = 0 ∧ x.1.pending = none ∧ instructionEnd x.1.buffer = .ok none) ∧
          ((∀ u ∈ uses, ∀ arrival ∈ u.arrivals, arrival.bytes.length ≤ 8192) →
            ((fresh idleTimeout).after uses).reader.buffer.length ≤ 2130373 + 8192 ∧
              ∀ u, ∀ x ∈ ((fresh idleTimeout).after uses).scans u,
                x.buffer.length ≤ 2130373 + 8192) := by
  refine ⟨?_, ⟨length_longestUndecided, instructionEnd_longestUndecided⟩, ?_⟩
  · intro bytes hlong hend
    exact absurd (length_le_of_undecided hend) (Nat.not_le.mpr hlong)
  intro idleTimeout uses
  have hfresh := isInOrder_fresh idleTimeout
  have hafter := hfresh.after uses
  refine ⟨fun u => source_use_eq _ u, ?_, ?_⟩
  · intro u x hx
    have hundecided := isUndecided_of_mem_reads hafter.sound hx
    exact ⟨hundecided.complete_eq, hundecided.pending_eq, hundecided.instructionEnd_eq⟩
  · intro huses
    have hnone : (fresh idleTimeout).reader.IsBounded := ⟨Nat.zero_le _, nofun⟩
    have hbounded := isBounded_after hfresh hnone huses
    exact ⟨hbounded.buffer_le, fun u x hx => length_le_of_mem_scans hafter hbounded hx⟩

/-- A look ahead and a read, while the second of two instructions comes in two reads. -/
def usesWithLook : List Use :=
  [nopAndMore, .arrive [.data (Instruction.encode ⟨"sync", ["0"]⟩).tail], .readSome, .look]

theorem buffer_is_bounded_between_reads :
    instructionEnd (List.replicate 2130374 0x30) ≠ .ok none ∧
      (∃ x ∈ ((fresh none).after [nopAndMore]).reads .readSome,
        x.1.complete = 0 ∧ x.1.pending = none ∧ instructionEnd x.1.buffer = .ok none) ∧
      ((fresh none).after usesWithLook).reader.buffer.length ≤ 2130373 + 8192 := by
  obtain ⟨hlong, -, huses⟩ := buffer_is_bounded
  have hread : (((fresh none).after [nopAndMore]).reader,
      .data (Instruction.encode ⟨"nop", []⟩ ++ [51])) ∈
        ((fresh none).after [nopAndMore]).reads .readSome := by
    decide +kernel
  refine ⟨hlong _ (by rw [List.length_replicate]; decide), ?_, ?_⟩
  · exact ⟨_, hread, (huses none [nopAndMore]).2.1 .readSome _ hread⟩
  · exact ((huses none usesWithLook).2.2 (by decide +kernel)).1

end Session

end Reader

end LongPollTunnel
