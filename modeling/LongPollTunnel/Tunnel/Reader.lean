import LongPollTunnel.Instruction.Decoding
import LongPollTunnel.Outcome

/-! # Reading whole instructions

A reader buffers what arrives until an instruction is complete and hands out whole
instructions only. A fault, a failed read and the end of the stream are reported once
the complete instructions before them are gone, so nothing that arrived is lost.
-/

namespace LongPollTunnel

/-- What one read of a source gives. -/
inductive Arrival where
  | data (bytes : List UInt8)
  | finish
  | fail (reason : String)
  deriving DecidableEq, Repr

/-- A read that succeeds gives a byte at least: no bytes at all are no arrival. -/
def Arrival.isReal (arrival : Arrival) : Bool :=
  arrival ≠ .data []

/-- The read side of a tunnel. -/
structure Reader where
  /-- What has arrived and was not read yet. -/
  source : List Arrival := []
  buffer : List UInt8 := []
  /-- Length of the buffered prefix made of complete instructions only. -/
  complete : Nat := 0
  /-- The source has ended. -/
  ended : Bool := false
  /-- What to report once the complete instructions are gone. -/
  pending : Option Failure := none
  /-- How long a read of a batch waits, in milliseconds; `none` is for ever. -/
  idleTimeout : Option Nat := none
  deriving DecidableEq, Repr, Inhabited

namespace Reader

/-- More arrives at the source, as the reads to come will find it. -/
def feed (r : Reader) (arrivals : List Arrival) : Reader :=
  { r with source := r.source ++ arrivals.filter Arrival.isReal }

/-- Extends the complete prefix as far as it goes. A fault behind it becomes the
pending failure unless there is one. -/
def scan (r : Reader) : Reader :=
  let (further, fault) := Framing.completePrefix (r.buffer.drop r.complete)
  { r with
    complete := r.complete + further
    pending := r.pending.or (fault.map Failure.ofFault) }

/-- Takes the result of one read. -/
def receive (r : Reader) : Arrival → Reader
  | .data bytes => { r with buffer := r.buffer ++ bytes }
  | .finish => { r with ended := true }
  | .fail reason => { r with pending := some (.reading reason) }

/-- How a reader that has nothing complete reports the end of its source. -/
def endFailure (r : Reader) : Failure :=
  if r.buffer.isEmpty then .streamEnded else .streamTruncated

/-- What a reader can say without another read. A failure is reported once. -/
def check (r : Reader) : Outcome Failure Unit × Reader :=
  let r := r.scan
  if 0 < r.complete then (.done (), r)
  else
    match r.pending with
    | some failure => (.failed failure, { r with pending := none })
    | none => if r.ended then (.failed r.endFailure, r) else (.waiting, r)

/-- Reads from `source` until something can be said. -/
def awaitFrom : List Arrival → Reader → Outcome Failure Unit × Reader
  | [], r => ((r.check).1, { (r.check).2 with source := [] })
  | arrival :: rest, r =>
    match r.check with
    | (.waiting, r) => awaitFrom rest (r.receive arrival)
    | (outcome, r) => (outcome, { r with source := arrival :: rest })

/-- Reads until an instruction is complete. A closed tunnel gives nothing more, not
even what is buffered. -/
def await (closed : Bool) (r : Reader) : Outcome Failure Unit × Reader :=
  if closed then (.failed .tunnelClosed, r) else awaitFrom r.source r

/-- Hands out every complete instruction. If there is none and the time to wait has
`expired`, the batch is empty. -/
def readSome (closed expired : Bool) (r : Reader) : Outcome Failure (List UInt8) × Reader :=
  match r.await closed with
  | (.done _, r) =>
    (.done (r.buffer.take r.complete),
      { r with buffer := r.buffer.drop r.complete, complete := 0 })
  | (.failed failure, r) => (.failed failure, r)
  | (.waiting, r) => (if expired then .done [] else .waiting, r)

/-- Takes the first instruction off the buffer. -/
def takeInstruction (r : Reader) : Outcome Failure Instruction × Reader :=
  match Framing.instructionEnd r.buffer with
  | .error fault => (.failed (.ofFault fault), r)
  | .ok none => (.failed .instructionMissing, r)
  | .ok (some length) =>
    let taken :=
      { r with buffer := r.buffer.drop length, complete := r.complete - length }
    match Instruction.decode (r.buffer.take length) with
    | .ok instruction => (.done instruction, taken)
    | .error fault => (.failed (.ofFault fault), taken)

/-- Reads and decodes one instruction, however long it takes to come. -/
def readInstruction (closed : Bool) (r : Reader) : Outcome Failure Instruction × Reader :=
  match r.await closed with
  | (.done _, r) => r.takeInstruction
  | (.failed failure, r) => (.failed failure, r)
  | (.waiting, r) => (.waiting, r)

/-- Something complete is buffered, or there is something to report. -/
def hasNews (r : Reader) : Bool :=
  decide (0 < r.complete) || r.pending.isSome

/-- Whether the next batch can be had without waiting for the source. At most one
arrival is read to find out. -/
def available (closed : Bool) (r : Reader) : Bool × Reader :=
  if closed || r.pending.isSome then (true, r)
  else
    let r := r.scan
    if r.hasNews then (true, r)
    else if r.ended then (false, r)
    else
      match r.source with
      | [] => (false, r)
      | arrival :: rest =>
        let r := ({ r with source := rest }.receive arrival).scan
        (r.hasNews, r)

end Reader

end LongPollTunnel
