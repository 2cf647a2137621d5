import LongPollTunnel.Registry
import LongPollTunnel.Request
import LongPollTunnel.Response.Head

/-! # Handling requests that wait

A request that reads waits for the reader's seat and then leaves the rest to a stream.
A request that writes waits for the writer's seat and relays its body, part by part and
byte by byte as it came. If the relay fails at any point the seat is given back and the
tunnel taken down before anybody else can write.
-/

namespace LongPollTunnel

/-- What the handling of a request is about to do, and may have to wait for. The
tickets are for a seat of the request's tunnel. -/
inductive Handling where
  | awaitReader (ticket : Nat)
  | awaitWriter (ticket : Nat)
  /-- Relays the body; `rest` is left of the part that is being written. -/
  | relaying (ticket : Nat) (rest : Option (List UInt8))
  /-- The failed tunnel is being closed under a ticket for the writer's seat. -/
  | closing (failure : Failure) (ticket : Nat)
  deriving DecidableEq, Repr

namespace Handling

/-- What came of going on. -/
inductive Progress where
  | goOn (handling : Handling)
  /-- The response is complete and has no body. -/
  | answer (head : Head)
  /-- The reader's seat is held under the ticket, for a stream. -/
  | stream (ticket : Nat)
  deriving DecidableEq, Repr

/-- The registry, the tunnel and the request body that a request acts on. -/
structure Surroundings where
  registry : Registry
  tunnel : Tunnel
  upload : Upload
  deriving DecidableEq

/-- Gives the seat back and takes the tunnel down. -/
def failRelay (ticket : Nat) (failure : Failure) (around : Surroundings) :
    Progress × Surroundings :=
  match around.registry.teardown (around.tunnel.leave .writer ticket) with
  | (_, .done _, registry, tunnel) =>
    (.answer (.ofFailure failure), { around with registry, tunnel })
  | (_, .waiting place, registry, tunnel) =>
    (.goOn (.closing failure place), { around with registry, tunnel })

/-- Writes what is left of a part. -/
def relayRest (ticket : Nat) (rest : List UInt8) (around : Surroundings) :
    Progress × Surroundings :=
  match around.tunnel.writeAll rest with
  | (.done, tunnel) => (.goOn (.relaying ticket none), { around with tunnel })
  | (.waiting rest, tunnel) =>
    (.goOn (.relaying ticket (some rest)), { around with tunnel })
  | (.failed failure, tunnel) =>
    failRelay ticket (.relaying failure) { around with tunnel }

/-- The body has ended: flushes, gives the seat back and answers, or `none` while the flush
has to wait. -/
def finishRelay (ticket : Nat) (around : Surroundings) : Option (Progress × Surroundings) :=
  match around.tunnel.flush? with
  | some (.ok _, tunnel) =>
    some (.answer .written, { around with tunnel := tunnel.leave .writer ticket })
  | some (.error failure, tunnel) =>
    some (failRelay ticket (.relaying failure) { around with tunnel })
  | none => none

/-- Goes on with the next part of the body, or with its end; `none` if that has not come
yet, or has to wait. -/
def relayNext (ticket : Nat) (around : Surroundings) : Option (Progress × Surroundings) :=
  match around.upload.parts with
  | .chunk bytes :: parts =>
    some (relayRest ticket bytes { around with upload := { around.upload with parts } })
  | .broken fault :: parts =>
    some (failRelay ticket (.bodyUnreadable fault.message)
      { around with upload := { around.upload with parts } })
  | [] => if around.upload.isOpen then none else finishRelay ticket around

/-- Goes on with a request, or `none` if it has to wait. -/
def step (h : Handling) (around : Surroundings) : Option (Progress × Surroundings) :=
  match h with
  | .awaitReader ticket =>
    if around.tunnel.readerSeat.isServing ticket then
      some (.stream ticket, { around with tunnel := around.tunnel.unqueue .reader })
    else none
  | .awaitWriter ticket =>
    if around.tunnel.writerSeat.isServing ticket then
      some (.goOn (.relaying ticket none), around)
    else none
  | .relaying ticket none => relayNext ticket around
  | .relaying ticket (some rest) =>
    match relayRest ticket rest around with
    | (progress, after) =>
      if progress = .goOn (.relaying ticket (some rest)) then none else some (progress, after)
  | .closing failure ticket =>
    match around.tunnel.resumeClose ticket with
    | (.done _, tunnel) => some (.answer (.ofFailure failure), { around with tunnel })
    | (.waiting _, _) => none

/-- Gives back the seat, or the place in the queue for it, of a request that is
dropped. -/
def abandon (h : Handling) (t : Tunnel) : Tunnel :=
  match h with
  | .awaitReader ticket => (t.unqueue .reader).leave .reader ticket
  | .awaitWriter ticket | .relaying ticket _ | .closing _ ticket => t.leave .writer ticket

end Handling

end LongPollTunnel
