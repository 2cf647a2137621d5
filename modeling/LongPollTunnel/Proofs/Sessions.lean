import LongPollTunnel.Proofs.Waiting

/-! # A reader in use

A reader is used in any order and for any length of time: batches and single instructions are
read, a look ahead is taken, a read that waits goes on later or is dropped, the tunnel is closed,
time passes, and the source brings data, failures and its end as it likes. Main statement: no byte
is lost, repeated or moved, what is taken to be complete is made of whole instructions, an
instruction that was found is there to be taken, and a batch is empty only when time is up.
-/

namespace LongPollTunnel

open Framing

namespace Reader

/-! ## Uses of a reader -/

/-- A read that has begun and is not over. -/
inductive Begun where
  | batch (deadline : Option Nat)
  | instruction
  deriving DecidableEq, Repr

/-- What is left of a read that has had a turn. -/
def Begun.unlessOver (begun : Begun) {α : Type} : Outcome Failure α → Option Begun
  | .done _ | .failed _ => none
  | .waiting => some begun

/-- What happens to a reader. -/
inductive Use where
  /-- The next reads of the source will give this. -/
  | arrive (arrivals : List Arrival)
  | pass (milliseconds : Nat)
  /-- The tunnel is closed. -/
  | close
  | readSome
  | readInstruction
  | look
  | goOn
  /-- The read that has begun is given up. -/
  | drop
  deriving DecidableEq, Repr

/-- What a use lets the source give. -/
def Use.arrivals : Use → List Arrival
  | .arrive arrivals => arrivals
  | .pass _ | .close | .readSome | .readInstruction | .look | .goOn | .drop => []

/-- What the user of a reader gets. -/
inductive Reply where
  | nothing
  | batch (outcome : Outcome Failure (List UInt8))
  /-- These bytes were taken off the buffer, whether or not they decode. -/
  | instruction (outcome : Outcome Failure Instruction) (removed : List UInt8)
  | ahead (isAvailable : Bool)
  deriving DecidableEq, Repr

namespace Reply

def bytes : Reply → List UInt8
  | .batch outcome => handed outcome
  | .instruction _ removed => removed
  | .nothing | .ahead _ => []

def failure? : Reply → Option Failure
  | .batch (.failed failure) | .instruction (.failed failure) _ => some failure
  | .nothing | .batch _ | .instruction _ _ | .ahead _ => none

theorem failure?_batch_ne {outcome : Outcome Failure (List UInt8)} {failure : Failure}
    (hne : outcome ≠ .failed failure) : (batch outcome).failure? ≠ some failure := by
  cases outcome with
  | failed found => exact fun heq => hne (congrArg _ (Option.some.inj heq))
  | done _ => nofun
  | waiting => nofun

theorem failure?_instruction_ne {outcome : Outcome Failure Instruction} {failure : Failure}
    (hne : outcome ≠ .failed failure) (removed : List UInt8) :
    (instruction outcome removed).failure? ≠ some failure := by
  cases outcome with
  | failed found => exact fun heq => hne (congrArg _ (Option.some.inj heq))
  | done _ => nofun
  | waiting => nofun

end Reply

/-- What a read of one instruction takes off the buffer. -/
def removed (closed : Bool) (r : Reader) : List UInt8 :=
  match r.await closed with
  | (.done _, next) =>
    match instructionEnd next.buffer with
    | .ok (some length) => next.buffer.take length
    | .ok none | .error _ => []
  | (.failed _, _) | (.waiting, _) => []

/-- A reader with what the world around it tells it. -/
structure Session where
  reader : Reader
  isClosed : Bool := false
  clock : Nat := 0
  begun : Option Begun := none
  deriving DecidableEq, Repr

namespace Session

/-- A reader that nobody has used, of an open tunnel. -/
def fresh (idleTimeout : Option Nat) : Session where
  reader := { idleTimeout }

/-- A read takes a turn. -/
def turn (s : Session) : Begun → Reply × Session
  | .batch deadline =>
    let expired := deadline.any fun time => decide (time ≤ s.clock)
    let (outcome, reader) := s.reader.readSome s.isClosed expired
    (.batch outcome, { s with reader, begun := (Begun.batch deadline).unlessOver outcome })
  | .instruction =>
    let (outcome, reader) := s.reader.readInstruction s.isClosed
    (.instruction outcome (s.reader.removed s.isClosed),
      { s with reader, begun := Begun.instruction.unlessOver outcome })

/-- The read that has begun takes its next turn. -/
def goOn (s : Session) : Reply × Session :=
  match s.begun with
  | some begun => s.turn begun
  | none => (.nothing, s)

/-- Who reads anew has given up what they had begun. A look ahead leaves it alone. -/
def use (s : Session) : Use → Reply × Session
  | .arrive arrivals =>
    (.nothing, { s with reader := { s.reader with source := s.reader.source ++ arrivals } })
  | .pass milliseconds => (.nothing, { s with clock := s.clock + milliseconds })
  | .close => (.nothing, { s with isClosed := true })
  | .readSome => s.turn (.batch (s.reader.idleTimeout.map (s.clock + ·)))
  | .readInstruction => s.turn .instruction
  | .look =>
    let (isAvailable, reader) := s.reader.available s.isClosed
    (.ahead isAvailable, { s with reader })
  | .goOn => s.goOn
  | .drop => (.nothing, { s with begun := none })

def replies : Session → List Use → List Reply
  | _, [] => []
  | s, u :: later => (s.use u).1 :: (s.use u).2.replies later

def after (s : Session) (uses : List Use) : Session :=
  uses.foldl (fun s u => (s.use u).2) s

end Session

variable {r next : Reader}

/-! ## Where the bytes go

What is handed out comes off the front of the buffer, and what comes off the front of the source
goes to its end. -/

/-- Between the two readers these bytes were handed out. -/
def Hands (r : Reader) (bytes : List UInt8) (next : Reader) : Prop :=
  ∃ taken, r.source = taken ++ next.source ∧
    r.buffer ++ taken.flatMap Arrival.bytes = bytes ++ next.buffer

/-- It is enough to count the bytes that are still unread. -/
theorem hands_of_unread {bytes : List UInt8} (hsource : next.source <:+ r.source)
    (hunread : bytes ++ next.unread = r.unread) : r.Hands bytes next := by
  obtain ⟨taken, htaken⟩ := hsource
  refine ⟨taken, htaken.symm, ?_⟩
  rw [unread, unread, ← htaken, List.flatMap_append, ← List.append_assoc, ← List.append_assoc]
    at hunread
  exact (List.append_cancel_right hunread).symm

theorem hands_refl (r : Reader) : r.Hands [] r :=
  ⟨[], rfl, by simp⟩

/-- It makes no difference that nothing arrived. -/
theorem Hands.arrive_nil {bytes : List UInt8} (hhands : r.Hands bytes next) :
    ({ r with source := r.source ++ [] } : Reader).Hands bytes next := by
  rwa [List.append_nil]

/-- A read hands out what it removes from the buffer, and a read that fails or waits nothing. -/
theorem hands_readSome (closed expired : Bool) (r : Reader) :
    r.Hands (handed (r.readSome closed expired).1) (r.readSome closed expired).2 := by
  refine hands_of_unread ?_ (unread_readSome closed expired r)
  rw [source_readSome]
  exact source_await_suffix closed r

/-- An instruction that was found is there to be taken. -/
theorem exists_instructionEnd_of_await {closed : Bool} (hr : r.Sound)
    (hawait : r.await closed = (.done (), next)) :
    ∃ length, instructionEnd next.buffer = .ok (some length) ∧ length ≤ next.complete := by
  have hnext := hr.await closed
  rw [hawait] at hnext
  obtain ⟨instruction, rest, hbuffer, _, hend, hle, _⟩ :=
    exists_first_of_complete hnext (complete_pos_of_await hawait)
  refine ⟨instruction.length, ?_, hle⟩
  rw [hbuffer]
  exact instructionEnd_append hend rest

/-- Taking an instruction removes its bytes, also if they turn out not to decode. -/
theorem takeInstruction_of_instructionEnd {length : Nat}
    (hend : instructionEnd r.buffer = .ok (some length)) :
    r.takeInstruction =
      (match Instruction.decode (r.buffer.take length) with
        | .ok i => .done i
        | .error fault => .failed (.ofFault fault),
        { r with buffer := r.buffer.drop length, complete := r.complete - length }) := by
  unfold takeInstruction
  rw [hend]
  dsimp only
  cases Instruction.decode (r.buffer.take length) <;> rfl

/-- Whatever becomes of an instruction, its bytes count as handed out. -/
theorem hands_readInstruction {closed : Bool} (hr : r.Sound) :
    r.Hands (r.removed closed) (r.readInstruction closed).2 := by
  have hsource := r.source_await_suffix closed
  have hunread := r.unread_await closed
  cases hawait : r.await closed with
  | mk outcome next =>
      rw [hawait] at hsource hunread
      cases outcome with
      | done value =>
          obtain ⟨length, hend, _⟩ := exists_instructionEnd_of_await hr hawait
          simp only [removed, readInstruction, hawait, hend,
            takeInstruction_of_instructionEnd hend]
          refine hands_of_unread hsource ?_
          rw [← hunread]
          simp only [unread, ← List.append_assoc, List.take_append_drop]
      | failed failure =>
          simp only [removed, readInstruction, hawait]
          exact hands_of_unread hsource hunread
      | waiting =>
          simp only [removed, readInstruction, hawait]
          exact hands_of_unread hsource hunread

theorem source_available_suffix (closed : Bool) (r : Reader) :
    (r.available closed).2.source <:+ r.source := by
  have hlook := look_available closed r
  generalize r.available closed = looked at hlook ⊢
  cases hlook with
  | told htold => exact List.suffix_rfl
  | found hopen hnews => exact List.suffix_rfl
  | nothing hopen hnews hover => exact List.suffix_rfl
  | @read arrival rest hopen hnews hended hsource =>
      rw [hsource]
      cases arrival <;> exact List.suffix_cons _ _

/-- A look ahead hands nothing out. -/
theorem hands_available (closed : Bool) (r : Reader) :
    r.Hands [] (r.available closed).2 :=
  hands_of_unread (source_available_suffix closed r) (unread_available closed r)

/-! ## What is never reported -/

theorem head?_append_of_some {first second : String} {c : Char}
    (hfirst : first.toList.head? = some c) : (first ++ second).toList.head? = some c := by
  rw [String.toList_append, List.head?_append, hfirst, Option.some_or]

/-- The messages of faults begin with one of four letters, which the message for a missing
instruction does not. -/
theorem head?_message (fault : Instruction.Fault) :
    ∃ c ∈ ['E', 'I', 'N', 'U'], fault.message.toList.head? = some c := by
  cases fault with
  | invalidLengthCharacter found => exact ⟨'N', by decide, head?_append_of_some (by decide)⟩
  | missingLength => exact ⟨'E', by decide, by decide⟩
  | lengthTooLong =>
      exact ⟨'E', by decide, head?_append_of_some (head?_append_of_some (by decide))⟩
  | elementTooLong length =>
      exact ⟨'E', by decide,
        head?_append_of_some (head?_append_of_some (head?_append_of_some (by decide)))⟩
  | tooManyElements =>
      exact ⟨'I', by decide, head?_append_of_some (head?_append_of_some (by decide))⟩
  | unexpectedTerminator found => exact ⟨'E', by decide, head?_append_of_some (by decide)⟩
  | invalidUtf8 => exact ⟨'I', by decide, by decide⟩
  | incomplete => exact ⟨'I', by decide, by decide⟩
  | trailingData => exact ⟨'U', by decide, by decide⟩

/-- No fault of an instruction is taken for a missing one. -/
theorem ofFault_ne_instructionMissing (fault : Instruction.Fault) :
    Failure.ofFault fault ≠ .instructionMissing := by
  intro heq
  obtain ⟨c, hc, hhead⟩ := head?_message fault
  have hmissing : fault.message.toList.head? = some 'B' :=
    congrArg (fun failure : Failure => failure.message.toList.head?) heq
  rw [hmissing] at hhead
  obtain rfl := Option.some.inj hhead
  exact absurd hc (by decide)

theorem reading_ne_instructionMissing (reason : String) :
    Failure.reading reason ≠ .instructionMissing := by
  intro heq
  have hhead : (Failure.reading reason).message.toList.head? = some 'E' :=
    head?_append_of_some (by decide)
  rw [heq] at hhead
  exact absurd hhead (by decide)

/-- Nor is the end of a source. -/
theorem endFailure_ne_instructionMissing (r : Reader) :
    r.endFailure ≠ .instructionMissing := by
  unfold endFailure
  split <;> decide

/-- What is to be reported is not that an instruction disappeared. -/
def MissesNothing (r : Reader) : Prop :=
  r.pending ≠ some .instructionMissing

theorem MissesNothing.scan (hr : r.MissesNothing) : r.scan.MissesNothing := by
  intro hpending
  rcases Option.or_eq_some_iff.mp hpending with hbefore | ⟨_, hfault⟩
  · exact hr hbefore
  · obtain ⟨fault, _, heq⟩ := Option.map_eq_some_iff.mp hfault
    exact ofFault_ne_instructionMissing fault heq

theorem MissesNothing.receive (hr : r.MissesNothing) (arrival : Arrival) :
    (r.receive arrival).MissesNothing := by
  cases arrival with
  | data bytes => exact hr
  | finish => exact hr
  | fail reason => exact fun heq => reading_ne_instructionMissing reason (Option.some.inj heq)

/-- What is reported is what was held back, a fault, or how the source ended. -/
theorem MissesNothing.check (hr : r.MissesNothing) :
    r.check.1 ≠ .failed .instructionMissing ∧ r.check.2.MissesNothing := by
  have hscan := hr.scan
  unfold Reader.check
  dsimp only
  split
  · exact ⟨nofun, hscan⟩
  · split
    next failure hpending =>
      refine ⟨?_, nofun⟩
      rintro ⟨⟩
      exact hscan hpending
    · split
      · exact ⟨fun heq => endFailure_ne_instructionMissing _ (Outcome.failed.inj heq), hscan⟩
      · exact ⟨nofun, hscan⟩

/-- By induction over what the source brings while the wait goes on. -/
theorem MissesNothing.awaitFrom (hr : r.MissesNothing) (source : List Arrival) :
    (awaitFrom source r).1 ≠ .failed .instructionMissing ∧
      (awaitFrom source r).2.MissesNothing := by
  induction source generalizing r with
  | nil => exact hr.check
  | cons arrival rest ih =>
      have hcheck := hr.check
      unfold Reader.awaitFrom
      split
      next next heq =>
        rw [heq] at hcheck
        exact ih (hcheck.2.receive arrival)
      next outcome next _ heq =>
        rw [heq] at hcheck
        exact hcheck

theorem MissesNothing.await (hr : r.MissesNothing) (closed : Bool) :
    (r.await closed).1 ≠ .failed .instructionMissing ∧ (r.await closed).2.MissesNothing := by
  unfold Reader.await
  split
  · exact ⟨fun heq => absurd (Outcome.failed.inj heq) (by decide), hr⟩
  · exact hr.awaitFrom _

theorem MissesNothing.readSome (hr : r.MissesNothing) (closed expired : Bool) :
    (r.readSome closed expired).1 ≠ .failed .instructionMissing ∧
      (r.readSome closed expired).2.MissesNothing := by
  have hawait := hr.await closed
  unfold Reader.readSome
  split
  next next heq =>
    rw [heq] at hawait
    exact ⟨nofun, hawait.2⟩
  next failure next heq =>
    rw [heq] at hawait
    exact ⟨fun hmissing => hawait.1 (congrArg _ (Outcome.failed.inj hmissing)), hawait.2⟩
  next next heq =>
    rw [heq] at hawait
    refine ⟨?_, hawait.2⟩
    cases expired <;> nofun

/-- When the wait is over there is an instruction to take, so none is missing. -/
theorem MissesNothing.readInstruction (hsound : r.Sound) (hr : r.MissesNothing)
    (closed : Bool) :
    (r.readInstruction closed).1 ≠ .failed .instructionMissing ∧
      (r.readInstruction closed).2.MissesNothing := by
  have hawait := hr.await closed
  unfold Reader.readInstruction
  split
  next next heq =>
    rw [heq] at hawait
    obtain ⟨length, hend, _⟩ := exists_instructionEnd_of_await hsound heq
    rw [takeInstruction_of_instructionEnd hend]
    refine ⟨?_, hawait.2⟩
    dsimp only
    split
    · exact nofun
    next fault _ =>
      exact fun heq => ofFault_ne_instructionMissing fault (Outcome.failed.inj heq)
  next failure next heq =>
    rw [heq] at hawait
    exact ⟨fun hmissing => hawait.1 (congrArg _ (Outcome.failed.inj hmissing)), hawait.2⟩
  next next heq =>
    rw [heq] at hawait
    exact ⟨nofun, hawait.2⟩

theorem MissesNothing.available (hr : r.MissesNothing) (closed : Bool) :
    (r.available closed).2.MissesNothing := by
  have hlook := look_available closed r
  generalize r.available closed = looked at hlook ⊢
  cases hlook with
  | told htold => exact hr
  | found hopen hnews => exact hr.scan
  | nothing hopen hnews hover => exact hr.scan
  | @read arrival rest hopen hnews hended hsource =>
      have hrest : ({ r.scan with source := rest } : Reader).MissesNothing := hr.scan
      exact (hrest.receive arrival).scan

/-! ## What is taken to be complete -/

/-- The reader as each scan of a wait leaves it. -/
def scansFrom : List Arrival → Reader → List Reader
  | [], r => [r.scan]
  | arrival :: rest, r =>
    r.scan :: match r.check with
      | (.waiting, next) => scansFrom rest (next.receive arrival)
      | (.done _, _) | (.failed _, _) => []

def scansOfAwait (closed : Bool) (r : Reader) : List Reader :=
  if closed then [] else scansFrom r.source r

/-- The reader as each scan of a look ahead leaves it. -/
def scansOfAvailable (closed : Bool) (r : Reader) : List Reader :=
  if closed || r.pending.isSome then []
  else if r.scan.hasNews || r.ended then [r.scan]
  else
    match r.source with
    | [] => [r.scan]
    | arrival :: rest => [r.scan, r.readAhead arrival rest]

/-- A scan has found all whole instructions at the front of the buffer, and nothing else. -/
structure Scanned (r : Reader) : Prop extends r.Sound where
  take_complete_eq : r.buffer.take r.complete = wholePart r.buffer

/-- A scan ends where the whole instructions of the buffer end. -/
theorem scanned_scan (hr : r.Sound) : r.scan.Scanned :=
  ⟨hr.scan, take_complete_scan hr⟩

/-- So does each scan of a wait, by induction over what it takes in. -/
theorem scanned_of_mem_scansFrom {source : List Arrival} {x : Reader} (hr : r.Sound)
    (hx : x ∈ scansFrom source r) : x.Scanned := by
  induction source generalizing r with
  | nil =>
      obtain rfl := List.mem_singleton.mp hx
      exact scanned_scan hr
  | cons arrival rest ih =>
      rcases List.mem_cons.mp hx with rfl | hlater
      · exact scanned_scan hr
      · have hcheck := hr.check
        split at hlater
        next next heq =>
          rw [heq] at hcheck
          exact ih (hcheck.receive arrival) hlater
        · cases hlater
        · cases hlater

theorem scanned_of_mem_scansOfAwait {closed : Bool} {x : Reader} (hr : r.Sound)
    (hx : x ∈ scansOfAwait closed r) : x.Scanned := by
  unfold scansOfAwait at hx
  split at hx
  · cases hx
  · exact scanned_of_mem_scansFrom hr hx

theorem scanned_readAhead (hr : r.Sound) (arrival : Arrival) (rest : List Arrival) :
    (r.readAhead arrival rest).Scanned := by
  have hrest : ({ r.scan with source := rest } : Reader).Sound :=
    ⟨hr.scan.complete_le, hr.scan.whole_complete⟩
  exact scanned_scan (hrest.receive arrival)

/-- So do the one or two scans of a look ahead. -/
theorem scanned_of_mem_scansOfAvailable {closed : Bool} {x : Reader} (hr : r.Sound)
    (hx : x ∈ scansOfAvailable closed r) : x.Scanned := by
  unfold scansOfAvailable at hx
  split at hx
  · cases hx
  · split at hx
    · obtain rfl := List.mem_singleton.mp hx
      exact scanned_scan hr
    · split at hx
      · obtain rfl := List.mem_singleton.mp hx
        exact scanned_scan hr
      · rcases List.mem_pair.mp hx with rfl | rfl
        · exact scanned_scan hr
        · exact scanned_readAhead hr _ _

namespace Session

/-- The reader as each scan of a use leaves it. -/
def scans (s : Session) : Use → List Reader
  | .readSome | .readInstruction => s.reader.scansOfAwait s.isClosed
  | .goOn => if s.begun.isSome then s.reader.scansOfAwait s.isClosed else []
  | .look => s.reader.scansOfAvailable s.isClosed
  | .arrive _ | .pass _ | .close | .drop => []

/-! ## One use -/

/-- The reader of a session with this idle timeout can be relied on, and without an idle timeout
no read that has begun has a deadline. -/
structure IsInOrder (s : Session) (idleTimeout : Option Nat) : Prop where
  sound : s.reader.Sound
  missesNothing : s.reader.MissesNothing
  idleTimeout_eq : s.reader.idleTimeout = idleTimeout
  deadline_eq : ∀ deadline, s.begun = some (.batch deadline) → idleTimeout = none →
    deadline = none

variable {s : Session} {idleTimeout : Option Nat}

/-- Every session begins in order. -/
theorem isInOrder_fresh (idleTimeout : Option Nat) : (fresh idleTimeout).IsInOrder idleTimeout where
  sound := sound_of_complete_eq_zero rfl
  missesNothing := nofun
  idleTimeout_eq := rfl
  deadline_eq := nofun

theorem unlessOver_eq_some {begun other : Begun} {α : Type} {outcome : Outcome Failure α}
    (heq : begun.unlessOver outcome = some other) : other = begun := by
  cases outcome with
  | done value => cases heq
  | failed failure => cases heq
  | waiting => exact (Option.some.inj heq).symm

/-- A turn of a read keeps its reader in order. -/
theorem IsInOrder.turn (hs : s.IsInOrder idleTimeout) {begun : Begun}
    (hbegun : ∀ deadline, begun = .batch deadline → idleTimeout = none → deadline = none) :
    (s.turn begun).2.IsInOrder idleTimeout := by
  cases begun with
  | batch deadline =>
      refine ⟨hs.sound.readSome _ _, (hs.missesNothing.readSome _ _).2,
        (idleTimeout_readSome ..).trans hs.idleTimeout_eq, ?_⟩
      intro other hother
      exact hbegun other (unlessOver_eq_some hother).symm
  | instruction =>
      refine ⟨hs.sound.readInstruction _, (hs.missesNothing.readInstruction hs.sound _).2,
        (idleTimeout_readInstruction ..).trans hs.idleTimeout_eq, ?_⟩
      intro other hother
      cases unlessOver_eq_some hother

theorem deadline_of_idleTimeout (hs : s.IsInOrder idleTimeout) :
    ∀ deadline, Begun.batch (s.reader.idleTimeout.map (s.clock + ·)) = .batch deadline →
      idleTimeout = none → deadline = none := by
  rintro _ ⟨⟩ rfl
  rw [hs.idleTimeout_eq, Option.map_none]

theorem IsInOrder.goOn (hs : s.IsInOrder idleTimeout) : s.goOn.2.IsInOrder idleTimeout := by
  unfold Session.goOn
  split
  next begun hbegun =>
    refine hs.turn ?_
    rintro deadline rfl
    exact hs.deadline_eq deadline hbegun
  · exact hs

/-- The step lemma: every use keeps the reader in order. -/
theorem IsInOrder.use (hs : s.IsInOrder idleTimeout) (u : Use) :
    (s.use u).2.IsInOrder idleTimeout := by
  cases u with
  | arrive arrivals =>
      exact ⟨⟨hs.sound.complete_le, hs.sound.whole_complete⟩, hs.missesNothing,
        hs.idleTimeout_eq, hs.deadline_eq⟩
  | pass milliseconds => exact ⟨hs.sound, hs.missesNothing, hs.idleTimeout_eq, hs.deadline_eq⟩
  | close => exact ⟨hs.sound, hs.missesNothing, hs.idleTimeout_eq, hs.deadline_eq⟩
  | readSome => exact hs.turn (deadline_of_idleTimeout hs)
  | readInstruction => exact hs.turn nofun
  | look =>
      exact ⟨hs.sound.available _, hs.missesNothing.available _,
        (idleTimeout_available ..).trans hs.idleTimeout_eq, hs.deadline_eq⟩
  | goOn => exact hs.goOn
  | drop => exact ⟨hs.sound, hs.missesNothing, hs.idleTimeout_eq, nofun⟩

theorem hands_turn (hs : s.reader.Sound) (begun : Begun) :
    s.reader.Hands (s.turn begun).1.bytes (s.turn begun).2.reader := by
  cases begun with
  | batch deadline => exact hands_readSome _ _ _
  | instruction => exact hands_readInstruction hs

theorem hands_goOn (hs : s.reader.Sound) :
    s.reader.Hands s.goOn.1.bytes s.goOn.2.reader := by
  unfold goOn
  split
  · exact hands_turn hs _
  · exact hands_refl _

/-- What the source is to give and what is buffered, before a use and after it. -/
theorem hands_use (hs : s.reader.Sound) (u : Use) :
    ({ s.reader with source := s.reader.source ++ u.arrivals } : Reader).Hands
      (s.use u).1.bytes (s.use u).2.reader := by
  cases u with
  | arrive arrivals => exact hands_refl _
  | pass milliseconds => exact (hands_refl _).arrive_nil
  | close => exact (hands_refl _).arrive_nil
  | readSome => exact (hands_turn hs _).arrive_nil
  | readInstruction => exact (hands_turn hs _).arrive_nil
  | look => exact (hands_available _ _).arrive_nil
  | goOn => exact (hands_goOn hs).arrive_nil
  | drop => exact (hands_refl _).arrive_nil

theorem failure?_turn (hs : s.IsInOrder idleTimeout) (begun : Begun) :
    (s.turn begun).1.failure? ≠ some .instructionMissing := by
  cases begun with
  | batch deadline => exact Reply.failure?_batch_ne (hs.missesNothing.readSome _ _).1
  | instruction =>
      exact Reply.failure?_instruction_ne (hs.missesNothing.readInstruction hs.sound _).1 _

/-- No use reports an instruction as missing. -/
theorem failure?_use (hs : s.IsInOrder idleTimeout) (u : Use) :
    (s.use u).1.failure? ≠ some .instructionMissing := by
  cases u with
  | arrive arrivals => nofun
  | pass milliseconds => nofun
  | close => nofun
  | readSome => exact failure?_turn hs _
  | readInstruction => exact failure?_turn hs _
  | look => nofun
  | goOn =>
      change s.goOn.1.failure? ≠ _
      unfold goOn
      split
      · exact failure?_turn hs _
      · nofun
  | drop => nofun

/-- Whatever the use is, each of its scans finds all whole instructions. -/
theorem scanned_of_mem_scans (hs : s.reader.Sound) {u : Use} {x : Reader}
    (hx : x ∈ s.scans u) : x.Scanned := by
  cases u with
  | readSome => exact scanned_of_mem_scansOfAwait hs hx
  | readInstruction => exact scanned_of_mem_scansOfAwait hs hx
  | look => exact scanned_of_mem_scansOfAvailable hs hx
  | goOn =>
      change x ∈ if s.begun.isSome then s.reader.scansOfAwait s.isClosed else [] at hx
      split at hx
      · exact scanned_of_mem_scansOfAwait hs hx
      · cases hx
  | arrive arrivals => cases hx
  | pass milliseconds => cases hx
  | close => cases hx
  | drop => cases hx

/-- A batch is empty only when the time is up, and nothing whole was left then. -/
theorem spent_of_turn (hs : s.IsInOrder idleTimeout) {begun : Begun}
    (hbegun : ∀ deadline, begun = .batch deadline → idleTimeout = none → deadline = none)
    (hempty : (s.turn begun).1 = .batch (.done [])) :
    idleTimeout ≠ none ∧ (s.turn begun).2.reader.Spent := by
  cases begun with
  | instruction => cases hempty
  | batch deadline =>
      obtain ⟨hexpired, hawait⟩ := await_of_readSome hs.sound (Reply.batch.inj hempty)
      refine ⟨?_, (spent_of_await_waiting hs.sound hawait).2.1⟩
      intro hnone
      rw [hbegun deadline rfl hnone] at hexpired
      cases hexpired

/-- A batch is empty only if there was a time to wait, and then there is nothing to be had. -/
theorem spent_of_use (hs : s.IsInOrder idleTimeout) {u : Use}
    (hempty : (s.use u).1 = .batch (.done [])) :
    idleTimeout ≠ none ∧ (s.use u).2.reader.Spent := by
  cases u with
  | readSome => exact spent_of_turn hs (deadline_of_idleTimeout hs) hempty
  | goOn =>
      change s.goOn.1 = _ at hempty
      change _ ∧ s.goOn.2.reader.Spent
      unfold goOn at hempty ⊢
      split at hempty
      next begun hbegun =>
        refine spent_of_turn hs ?_ hempty
        rintro deadline rfl
        exact hs.deadline_eq deadline hbegun
      · cases hempty
  | readInstruction => cases hempty
  | look => cases hempty
  | arrive arrivals => cases hempty
  | pass milliseconds => cases hempty
  | close => cases hempty
  | drop => cases hempty

/-! ## One use after the other -/

/-- The run lemma, by induction over the uses. -/
theorem IsInOrder.after (hs : s.IsInOrder idleTimeout) (uses : List Use) :
    (s.after uses).IsInOrder idleTimeout := by
  induction uses generalizing s with
  | nil => exact hs
  | cons u later ih => exact ih (hs.use u)

/-- The replies to a sequence of uses hand out what was taken, in order. -/
theorem hands_after (hs : s.IsInOrder idleTimeout) (uses : List Use) :
    ({ s.reader with source := s.reader.source ++ uses.flatMap Use.arrivals } : Reader).Hands
      ((s.replies uses).flatMap Reply.bytes) (s.after uses).reader := by
  induction uses generalizing s with
  | nil => exact (hands_refl _).arrive_nil
  | cons u later ih =>
      obtain ⟨first, hfirst, hbuffer⟩ := hands_use hs.sound u
      obtain ⟨second, hsecond, hlast⟩ := ih (hs.use u)
      dsimp only at hfirst hsecond hbuffer hlast
      refine ⟨first ++ second, ?_, ?_⟩
      · change s.reader.source ++ (u :: later).flatMap Use.arrivals = _
        rw [List.flatMap_cons, ← List.append_assoc, hfirst, List.append_assoc, hsecond,
          ← List.append_assoc]
        rfl
      · change s.reader.buffer ++ _ = (s.replies (u :: later)).flatMap Reply.bytes ++ _
        rw [List.flatMap_append, ← List.append_assoc, hbuffer, List.append_assoc, hlast,
          ← List.append_assoc]
        rfl

theorem failure?_of_mem_replies (hs : s.IsInOrder idleTimeout) {uses : List Use} {reply : Reply}
    (hreply : reply ∈ s.replies uses) : reply.failure? ≠ some .instructionMissing := by
  induction uses generalizing s with
  | nil => cases hreply
  | cons u later ih =>
      rcases List.mem_cons.mp hreply with rfl | hlater
      · exact failure?_use hs u
      · exact ih (hs.use u) hlater

/-- However a reader is used, what was handed out and then the buffer is what came off the front
of the source. Each scan leaves exactly the whole instructions at the front of the buffer as
complete. A wait that is over has found an instruction within them, so that no reply says that one
disappeared. A batch is empty only if there is a time to wait and nothing complete is left. -/
theorem accounts_for_every_byte (idleTimeout : Option Nat) (uses : List Use) :
    (∃ taken, uses.flatMap Use.arrivals = taken ++ ((fresh idleTimeout).after uses).reader.source ∧
        taken.flatMap Arrival.bytes =
          ((fresh idleTimeout).replies uses).flatMap Reply.bytes ++
            ((fresh idleTimeout).after uses).reader.buffer) ∧
      (∀ u, ∀ x ∈ ((fresh idleTimeout).after uses).scans u,
        x.complete ≤ x.buffer.length ∧ Whole (x.buffer.take x.complete) ∧
          x.buffer.take x.complete = wholePart x.buffer) ∧
      (∀ next, ((fresh idleTimeout).after uses).reader.await
          ((fresh idleTimeout).after uses).isClosed = (.done (), next) →
        ∃ length, instructionEnd next.buffer = .ok (some length) ∧ length ≤ next.complete) ∧
      (∀ reply ∈ (fresh idleTimeout).replies uses,
        reply.failure? ≠ some .instructionMissing) ∧
      ∀ u, (((fresh idleTimeout).after uses).use u).1 = .batch (.done []) →
        idleTimeout ≠ none ∧ (((fresh idleTimeout).after uses).use u).2.reader.complete = 0 ∧
          wholePart (((fresh idleTimeout).after uses).use u).2.reader.buffer = [] := by
  have hfresh := isInOrder_fresh idleTimeout
  have hafter := hfresh.after uses
  refine ⟨?_, ?_, ?_, ?_, ?_⟩
  · exact hands_after hfresh uses
  · intro u x hx
    have hscanned := scanned_of_mem_scans hafter.sound hx
    exact ⟨hscanned.complete_le, hscanned.whole_complete, hscanned.take_complete_eq⟩
  · intro next hawait
    exact exists_instructionEnd_of_await hafter.sound hawait
  · intro reply hreply
    exact failure?_of_mem_replies hfresh hreply
  · intro u hempty
    obtain ⟨htimeout, hspent⟩ := spent_of_use hafter hempty
    exact ⟨htimeout, hspent.complete_eq, hspent.wholePart_eq⟩

/-- An instruction comes with the first byte of another. -/
def nopAndMore : Use :=
  .arrive [.data (Instruction.encode ⟨"nop", []⟩ ++ [51])]

/-- The instruction is read, and then a read waits for the rest of the other. -/
def usesWithWait : List Use :=
  [nopAndMore, .readInstruction, .readSome, .pass 5]

theorem accounts_for_every_byte_of_wait :
    (∃ next length, ((fresh (some 5)).after [nopAndMore]).reader.await false = (.done (), next) ∧
        instructionEnd next.buffer = .ok (some length) ∧ length ≤ next.complete) ∧
      (((fresh (some 5)).after usesWithWait).use .goOn).1 = .batch (.done []) ∧
      wholePart (((fresh (some 5)).after usesWithWait).use .goOn).2.reader.buffer = [] := by
  have hfirst := accounts_for_every_byte (some 5) [nopAndMore]
  have hlast := accounts_for_every_byte (some 5) usesWithWait
  have hawait : ((fresh (some 5)).after [nopAndMore]).reader.await false =
      (.done (), (((fresh (some 5)).after [nopAndMore]).reader.await false).2) := by
    decide +kernel
  have hempty : (((fresh (some 5)).after usesWithWait).use .goOn).1 = .batch (.done []) := by
    decide +kernel
  obtain ⟨length, hend, hle⟩ := hfirst.2.2.1 _ hawait
  exact ⟨⟨_, length, hawait, hend, hle⟩, hempty, (hlast.2.2.2.2 .goOn hempty).2.2⟩

end Session

end Reader

end LongPollTunnel
