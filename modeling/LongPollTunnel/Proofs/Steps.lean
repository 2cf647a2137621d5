import LongPollTunnel.Hub.Action
import LongPollTunnel.Proofs.Claims

/-! # What a step can do

Everything that an agent of a hub can do in one step, told once: how a call goes on or is
acted on, how a request starts and how its handling goes on, how a stream and a sweeper go
on. Whatever is kept by each of these is kept by every run. Main statements: what is done to
a call and what the agents do by themselves are among the steps listed here.
-/

namespace LongPollTunnel

/-! ## The handling of a request -/

/-- The role that an operation seeks, and the identity of the tunnel. -/
def Operation.seeks? : Operation → Option (Role × String)
  | .connect => none
  | .read identity => some (.reader, identity)
  | .write identity => some (.writer, identity)

/-- A request waits for the seat of its role. -/
def Handling.await : Role → Nat → Handling
  | .reader => .awaitReader
  | .writer => .awaitWriter

/-- What a relay writes next, and the parts of the body that stay behind it. -/
inductive Upload.Next (u : Upload) : Option (List UInt8) → List UInt8 → List BodyPart → Prop where
  | rest (bytes : List UInt8) : Next u (some bytes) bytes u.parts
  | part {bytes : List UInt8} {parts : List BodyPart} (hparts : u.parts = .chunk bytes :: parts) :
      Next u none bytes parts

namespace Handling

/-- A relay fails: a write is refused, the body is broken, or the flush at its end fails. -/
inductive Fails (t : Tunnel) (u : Upload) :
    Option (List UInt8) → Failure → Tunnel → Upload → Prop where
  | write {rest : Option (List UInt8)} {bytes : List UInt8} {parts : List BodyPart}
      {cause : Failure} {after : Tunnel} (hnext : u.Next rest bytes parts)
      (hwrite : t.writeAll bytes = (.failed cause, after)) :
      Fails t u rest (.relaying cause) after { u with parts }
  | body {fault : BodyFault} {parts : List BodyPart} (hparts : u.parts = .broken fault :: parts) :
      Fails t u none (.bodyUnreadable fault.message) t { u with parts }
  | flush {cause : Failure} {after : Tunnel} (hparts : u.parts = []) (hended : u.isOpen = false)
      (hflush : t.flush? = some (.error cause, after)) :
      Fails t u none (.relaying cause) after u

/-- A relay that fails has changed nothing but the sink. -/
theorem Fails.sameButSink {t after : Tunnel} {u left : Upload} {rest : Option (List UInt8)}
    {failure : Failure} (hfails : Fails t u rest failure after left) : t.SameButSink after := by
  cases hfails with
  | write _ hwrite => exact Tunnel.sameButSink_of_writeAll hwrite
  | body _ => exact t.sameButSink_refl
  | flush _ _ hflush => exact Tunnel.sameButSink_flush? hflush

/-- What the close of a failed tunnel leaves to be done. -/
def afterClosing (failure : Failure) : Tunnel.Closing → Progress
  | .done _ => .answer (.ofFailure failure)
  | .waiting ticket => .goOn (.closing failure ticket)

/-- A relay that fails gives the seat back before it takes the tunnel down. -/
theorem failRelay_eq (ticket : Nat) (failure : Failure) (around : Surroundings) :
    failRelay ticket failure around =
      (afterClosing failure (around.tunnel.leave .writer ticket).close.1,
        { around with
          registry := around.registry.erase around.tunnel.identity.text
          tunnel := (around.tunnel.leave .writer ticket).close.2 }) := by
  cases hclose : (around.tunnel.leave .writer ticket).close with
  | mk closing after =>
      cases closing <;> simp [failRelay, Registry.teardown, Registry.remove, hclose, afterClosing]

/-- The handling of a request goes on. -/
inductive Step (r : Registry) (t : Tunnel) (u : Upload) :
    Handling → Progress → Surroundings → Prop where
  | reads {ticket : Nat} (hserving : t.readerSeat.isServing ticket = true) :
      Step r t u (.awaitReader ticket) (.stream ticket) ⟨r, t.unqueue .reader, u⟩
  | writes {ticket : Nat} (hserving : t.writerSeat.isServing ticket = true) :
      Step r t u (.awaitWriter ticket) (.goOn (.relaying ticket none)) ⟨r, t, u⟩
  | takes {ticket : Nat} {rest : Option (List UInt8)} {bytes : List UInt8}
      {parts : List BodyPart} {after : Tunnel} (hnext : u.Next rest bytes parts)
      (hwrite : t.writeAll bytes = (.done, after)) :
      Step r t u (.relaying ticket rest) (.goOn (.relaying ticket none))
        ⟨r, after, { u with parts }⟩
  | blocks {ticket : Nat} {rest : Option (List UInt8)} {bytes left : List UInt8}
      {parts : List BodyPart} {after : Tunnel} (hnext : u.Next rest bytes parts)
      (hwrite : t.writeAll bytes = (.waiting left, after)) :
      Step r t u (.relaying ticket rest) (.goOn (.relaying ticket (some left)))
        ⟨r, after, { u with parts }⟩
  | fails {ticket : Nat} {rest : Option (List UInt8)} {failure : Failure} {after : Tunnel}
      {left : Upload} (hfails : Fails t u rest failure after left) :
      Step r t u (.relaying ticket rest) (failRelay ticket failure ⟨r, after, left⟩).1
        (failRelay ticket failure ⟨r, after, left⟩).2
  | finishes {ticket : Nat} {after : Tunnel} (hparts : u.parts = []) (hended : u.isOpen = false)
      (hflush : t.flush? = some (.ok (), after)) :
      Step r t u (.relaying ticket none) (.answer .written) ⟨r, after.leave .writer ticket, u⟩
  | closes {ticket : Nat} {failure : Failure} {result : Except Failure Unit} {after : Tunnel}
      (hclose : t.resumeClose ticket = (.done result, after)) :
      Step r t u (.closing failure ticket) (.answer (.ofFailure failure)) ⟨r, after, u⟩

theorem Step.of_eq {handling : Handling} {r : Registry} {t : Tunnel} {u : Upload}
    {progress : Progress} {after : Surroundings} {result : Progress × Surroundings}
    (hstep : Step r t u handling result.1 result.2) (heq : some result = some (progress, after)) :
    Step r t u handling progress after := by
  cases heq
  exact hstep

theorem step_relayRest {r : Registry} {t : Tunnel} {u : Upload} {rest : Option (List UInt8)}
    {bytes : List UInt8} {parts : List BodyPart} (ticket : Nat)
    (hnext : u.Next rest bytes parts) :
    Step r t u (.relaying ticket rest) (relayRest ticket bytes ⟨r, t, { u with parts }⟩).1
      (relayRest ticket bytes ⟨r, t, { u with parts }⟩).2 := by
  unfold relayRest
  split
  next after hwrite => exact .takes hnext hwrite
  next left after hwrite => exact .blocks hnext hwrite
  next cause after hwrite => exact .fails (.write hnext hwrite)

/-- The next part of a body decides how a relay goes on. -/
theorem step_relayNext {r : Registry} {t : Tunnel} {u : Upload} {ticket : Nat}
    {progress : Progress} {after : Surroundings}
    (hstep : relayNext ticket ⟨r, t, u⟩ = some (progress, after)) :
    Step r t u (.relaying ticket none) progress after := by
  unfold relayNext at hstep
  split at hstep
  next bytes parts hparts =>
    exact Step.of_eq (step_relayRest ticket (.part hparts)) hstep
  next fault parts hparts =>
    exact Step.of_eq (.fails (.body hparts)) hstep
  next hparts =>
    split at hstep
    · cases hstep
    next hended =>
      have hclosed : u.isOpen = false := Bool.eq_false_iff.mpr hended
      unfold finishRelay at hstep
      split at hstep
      next after hflush =>
        cases hstep
        exact .finishes hparts hclosed hflush
      next cause after hflush =>
        exact Step.of_eq (.fails (.flush hparts hclosed hflush)) hstep
      · cases hstep

/-- Every way in which the handling of a request goes on. -/
theorem step_of_step {handling : Handling} {r : Registry} {t : Tunnel} {u : Upload}
    {progress : Progress} {after : Surroundings}
    (hstep : handling.step ⟨r, t, u⟩ = some (progress, after)) :
    Step r t u handling progress after := by
  unfold step at hstep
  split at hstep
  next ticket =>
    split at hstep
    next hserving =>
      cases hstep
      exact .reads hserving
    · cases hstep
  next ticket =>
    split at hstep
    next hserving =>
      cases hstep
      exact .writes hserving
    · cases hstep
  next ticket => exact step_relayNext hstep
  next ticket rest =>
    dsimp only at hstep
    split at hstep
    · cases hstep
    · exact Step.of_eq (step_relayRest ticket (.rest rest)) hstep
  next failure ticket =>
    split at hstep
    next result after hclose =>
      cases hstep
      exact .closes hclose
    · cases hstep

end Handling

/-! ## Streams -/

namespace Stream

/-- A stream that reads with a deadline has it from its tunnel. -/
def IsTimed (s : Stream) (t : Tunnel) : Prop :=
  ∀ time, s.phase = .reading (some time) → t.reader.idleTimeout ≠ none

theorem isTimed_of_phase {s : Stream} (hphase : ∀ deadline, s.phase ≠ .reading deadline)
    (t : Tunnel) : s.IsTimed t :=
  fun time htime => absurd htime (hphase (some time))

theorem isTimed_of_deadline {s : Stream} {now : Nat} {t : Tunnel}
    (hphase : s.phase = .reading (deadline now t)) : s.IsTimed t := by
  intro time htime hnone
  rw [hphase, deadline, hnone] at htime
  cases htime

/-- A stream goes on to the next thing to do: it takes nothing out of the reader, and it
either ends its response, since another reader waits, or leaves it as it is. -/
structure GoesOn (s : Stream) (around after : Surroundings) (s' : Stream) : Prop where
  registry : after.registry = around.registry
  tunnel : after.tunnel = around.tunnel ∨ after.tunnel = around.tunnel.available.2
  stream : s' = s.finish ∨ (∃ deadline, s' = { s with phase := .reading deadline }) ∨
    s' = { s with phase := .flushing .lookAhead } ∨ s' = { s with phase := .flushing .yield }
  yields : s'.phase = .flushing .leave → after.tunnel.hasQueuedReader = true
  timed : s'.IsTimed after.tunnel

theorem goesOn_yield (now : Nat) (s : Stream) (around : Surroundings) :
    s.GoesOn around (s.yield now around).1 (s.yield now around).2 := by
  unfold yield
  split
  next hqueued =>
    exact ⟨rfl, Or.inl rfl, Or.inl rfl, fun _ => hqueued,
      isTimed_of_phase (by simp [finish]) _⟩
  · exact ⟨rfl, Or.inl rfl, Or.inr (Or.inl ⟨_, rfl⟩), by simp, isTimed_of_deadline rfl⟩

theorem goesOn_lookAhead (now : Nat) (s : Stream) (around : Surroundings) :
    s.GoesOn around (s.lookAhead now around).1 (s.lookAhead now around).2 := by
  unfold lookAhead
  split
  next after heq =>
    have hyield := goesOn_yield now s { around with tunnel := after }
    refine ⟨hyield.registry, ?_, hyield.stream, hyield.yields, hyield.timed⟩
    rw [heq]
    rcases hyield.tunnel with hsame | hlooked
    · exact Or.inr hsame
    · -- yielding does not look ahead once more
      refine Or.inr ?_
      unfold yield
      split <;> rfl
  next after heq =>
    refine ⟨rfl, Or.inr ?_, Or.inr (Or.inr (Or.inr rfl)), by simp, isTimed_of_phase (by simp) _⟩
    rw [heq]

theorem goesOn_write (now : Nat) (s : Stream) (batch : List UInt8) (around : Surroundings) :
    { s with outlet := s.outlet.write batch }.GoesOn around (s.write now batch around).1
      (s.write now batch around).2 := by
  unfold write
  dsimp only
  split
  · exact ⟨rfl, Or.inl rfl, Or.inr (Or.inr (Or.inl rfl)), by simp, isTimed_of_phase (by simp) _⟩
  · exact goesOn_lookAhead now _ around

/-- Unless a write is flushed at once, little is held back. -/
theorem room_of_write {now : Nat} {s : Stream} {batch : List UInt8} {around : Surroundings}
    (hphase : (s.write now batch around).2.phase ≠ .flushing .lookAhead) :
    (s.outlet.write batch).isOverfull = false := by
  unfold write at hphase
  dsimp only at hphase
  split at hphase
  · exact absurd rfl hphase
  next hroom => exact Bool.eq_false_iff.mpr hroom

/-- A stream reads on without a flush only if more can be had at once. -/
theorem ready_of_write {now : Nat} {s : Stream} {batch : List UInt8} {around : Surroundings}
    {deadline : Option Nat} (hreading : (s.write now batch around).2.phase = .reading deadline) :
    around.tunnel.available = (true, (s.write now batch around).1.tunnel) := by
  unfold write at hreading ⊢
  dsimp only at hreading ⊢
  split at hreading
  · cases hreading
  next hroom =>
    rw [if_neg hroom]
    unfold lookAhead at hreading ⊢
    split at hreading
    next after heq =>
      rw [heq]
      unfold yield
      split <;> rfl
    · cases hreading

/-- Goes on with the close of a failed tunnel, or after it. -/
def afterClosing (s : Stream) (failure : Failure) (around : Surroundings) :
    Tunnel.Closing → Surroundings × Stream
  | .done _ => s.afterTeardown failure around
  | .waiting ticket => (around, { s with phase := .closing failure ticket })

/-- A stream that fails takes the registration out, whatever becomes of the close. -/
theorem fail_eq (s : Stream) (failure : Failure) (around : Surroundings) :
    s.fail failure around =
      s.afterClosing failure
        ⟨around.registry.erase around.tunnel.identity.text, around.tunnel.close.2⟩
        around.tunnel.close.1 := by
  cases hclose : around.tunnel.close with
  | mk closing after =>
      cases closing <;> simp [fail, Registry.teardown, Registry.remove, hclose, afterClosing]

/-- What a failure makes of a stream: it passes on what it holds and the terminating instruction,
or it ends at once with nothing written, or it has to wait until its tunnel is closed. -/
inductive GivesUp (s : Stream) : Stream → Prop where
  | finishes : GivesUp s s.finish
  | ends (hnothing : s.outlet.hasWritten = false) (around : Surroundings) :
      GivesUp s (s.leave around).2
  | closes (failure : Failure) (ticket : Nat) :
      GivesUp s { s with phase := .closing failure ticket }

theorem givesUp_afterTeardown (s : Stream) (failure : Failure) (around : Surroundings) :
    s.GivesUp (s.afterTeardown failure around).2 := by
  unfold afterTeardown
  split
  · exact .finishes
  next hwritten =>
    exact .ends (Bool.or_eq_false_iff.mp (Bool.eq_false_iff.mpr hwritten)).2 around

theorem givesUp_fail (s : Stream) (failure : Failure) (around : Surroundings) :
    s.GivesUp (s.fail failure around).2 := by
  rw [fail_eq]
  cases around.tunnel.close.1 with
  | done result => exact s.givesUp_afterTeardown failure _
  | waiting ticket => exact .closes failure ticket

/-- Who gives up does not read on. -/
theorem GivesUp.not_reading {s s' : Stream} (hgivesUp : s.GivesUp s') (deadline : Option Nat) :
    s'.phase ≠ .reading deadline := by
  cases hgivesUp with
  | finishes => simp [finish]
  | ends _ _ => simp [leave]
  | closes _ _ => simp

/-- A stream goes on. -/
inductive Step (now : Nat) (s : Stream) (r : Registry) (t : Tunnel) :
    Surroundings → Stream → Prop where
  | idles {deadline : Option Nat} {read : Tunnel} (hphase : s.phase = .reading deadline)
      (hread : t.readSome (deadline.any fun time => decide (time ≤ now)) = (.done [], read)) :
      Step now s r t ⟨r, read⟩ s.finish
  | reads {deadline : Option Nat} {batch : List UInt8} {read : Tunnel} {after : Surroundings}
      {s' : Stream} (hphase : s.phase = .reading deadline)
      (hread : t.readSome (deadline.any fun time => decide (time ≤ now)) = (.done batch, read))
      (hwrite : { s with outlet := s.outlet.write batch }.GoesOn ⟨r, read⟩ after s')
      (hsome : batch ≠ [])
      (hroom : s'.phase ≠ .flushing .lookAhead → (s.outlet.write batch).isOverfull = false)
      (hready : ∀ deadline, s'.phase = .reading deadline →
        read.available = (true, after.tunnel)) :
      Step now s r t after s'
  | waits {deadline : Option Nat} {read : Tunnel} (hphase : s.phase = .reading deadline)
      (hread : t.readSome (deadline.any fun time => decide (time ≤ now)) = (.waiting, read)) :
      Step now s r t ⟨r, read⟩ s
  | fails {deadline : Option Nat} {failure : Failure} {read : Tunnel}
      (hphase : s.phase = .reading deadline)
      (hread :
        t.readSome (deadline.any fun time => decide (time ≤ now)) = (.failed failure, read)) :
      Step now s r t (s.fail failure ⟨r, read⟩).1 (s.fail failure ⟨r, read⟩).2
  | flushes {next : Next} {outlet : Outlet} {after : Surroundings} {s' : Stream}
      (hphase : s.phase = .flushing next) (hnext : next ≠ .leave)
      (hflush : s.outlet.flush = .passed outlet)
      (hgoesOn : { s with outlet }.GoesOn ⟨r, t⟩ after s') : Step now s r t after s'
  | leaves {outlet : Outlet} (hphase : s.phase = .flushing .leave)
      (hflush : s.outlet.flush = .passed outlet ∨ (s.outlet.flush = .gone ∧ outlet = s.outlet)) :
      Step now s r t ({ s with outlet }.leave ⟨r, t⟩).1 ({ s with outlet }.leave ⟨r, t⟩).2
  | loses {next : Next} (hphase : s.phase = .flushing next) (hnext : next ≠ .leave)
      (hgone : s.outlet.flush = .gone) :
      Step now s r t (s.fail .clientGone ⟨r, t⟩).1 (s.fail .clientGone ⟨r, t⟩).2
  | closes {failure : Failure} {ticket : Nat} {result : Except Failure Unit} {closed : Tunnel}
      (hphase : s.phase = .closing failure ticket)
      (hclose : t.resumeClose ticket = (.done result, closed)) :
      Step now s r t (s.afterTeardown failure ⟨r, closed⟩).1 (s.afterTeardown failure ⟨r, closed⟩).2

theorem Step.of_eq {now : Nat} {s s' : Stream} {r : Registry} {t : Tunnel} {after : Surroundings}
    {result : Surroundings × Stream} (hstep : Step now s r t result.1 result.2)
    (heq : some result = some (after, s')) : Step now s r t after s' := by
  cases heq
  exact hstep

/-- Every way in which a stream goes on. -/
theorem step_of_step {now : Nat} {s s' : Stream} {r : Registry} {t : Tunnel}
    {after : Surroundings} (hstep : s.step now ⟨r, t⟩ = some (after, s')) :
    Step now s r t after s' := by
  unfold step at hstep
  split at hstep
  next deadline hphase =>
    split at hstep
    next read hread =>
      cases hstep
      exact .idles hphase hread
    next batch read hsome hread =>
      exact Step.of_eq (.reads hphase hread (goesOn_write now s batch _) hsome room_of_write
        fun _ => ready_of_write) hstep
    next failure read hread => exact Step.of_eq (.fails hphase hread) hstep
    next read hread =>
      split at hstep
      · cases hstep
      · cases hstep
        exact .waits hphase hread
  next next hphase =>
    split at hstep
    next outlet hflush =>
      cases next with
      | lookAhead =>
          have hgoesOn := goesOn_lookAhead now { s with outlet } ⟨r, t⟩
          exact Step.of_eq (.flushes hphase (by decide) hflush hgoesOn) hstep
      | yield =>
          have hgoesOn := goesOn_yield now { s with outlet } ⟨r, t⟩
          exact Step.of_eq (.flushes hphase (by decide) hflush hgoesOn) hstep
      | leave =>
          cases hstep
          exact .leaves hphase (Or.inl hflush)
    next hgone =>
      cases next with
      | lookAhead => exact Step.of_eq (.loses hphase (by decide) hgone) hstep
      | yield => exact Step.of_eq (.loses hphase (by decide) hgone) hstep
      | leave =>
          cases hstep
          exact .leaves hphase (Or.inr ⟨hgone, rfl⟩)
    · cases hstep
  next failure ticket hphase =>
    split at hstep
    next result closed hclose => exact Step.of_eq (.closes hphase hclose) hstep
    · cases hstep
  · cases hstep

end Stream

/-! ## A sweeper -/

namespace Sweeper

/-- A sweeper goes on with its sweep, stops as it was asked to, or sweeps when it is due. -/
inductive Step (clock now : Nat) (s : Sweeper) (r : Registry) (tunnels : List Tunnel) :
    Sweeper → Registry → List Tunnel → Prop where
  | resumes {sweep : Sweep} {progress : Sweep.Progress} {after : List Tunnel}
      (hongoing : s.hasStopped = false) (hsweep : s.sweep = some sweep)
      (hresume : sweep.resume tunnels = some (progress, after)) :
      Step clock now s r tunnels (s.keep progress) r after
  | stops (hongoing : s.hasStopped = false) (hsweep : s.sweep = none)
      (hstopping : s.isStopping = true) :
      Step clock now s r tunnels { s with hasStopped := true } r tunnels
  | sweeps (hongoing : s.hasStopped = false) (hsweep : s.sweep = none)
      (hstopping : s.isStopping = false) (hdue : s.due ≤ clock) :
      Step clock now s r tunnels
        ({ s with due := s.due + s.interval }.keep (Sweep.start r tunnels now s.timeout).1)
        (Sweep.start r tunnels now s.timeout).2.1 (Sweep.start r tunnels now s.timeout).2.2

theorem step_of_step {clock now : Nat} {s s' : Sweeper} {r r' : Registry}
    {tunnels after : List Tunnel} (hstep : s.step clock now r tunnels = some (s', r', after)) :
    s.Step clock now r tunnels s' r' after := by
  unfold step at hstep
  split at hstep
  · cases hstep
  next hongoing =>
    rw [Bool.not_eq_true] at hongoing
    split at hstep
    next sweep hsweep =>
      obtain ⟨⟨progress, tunnels'⟩, hresume, heq⟩ := Option.map_eq_some_iff.mp hstep
      cases heq
      exact .resumes hongoing hsweep hresume
    next hsweep =>
      split at hstep
      next hstopping =>
        cases hstep
        exact .stops hongoing hsweep hstopping
      next hstopping =>
        rw [Bool.not_eq_true] at hstopping
        split at hstep
        next hdue =>
          cases hstep
          exact .sweeps hongoing hsweep hstopping hdue
        · cases hstep

end Sweeper

/-! ## Calls -/

/-- What a task without a ticket, or an action, does with a tunnel that it may use. -/
inductive Tunnel.Use (t : Tunnel) (number : Nat) : Option Task → Tunnel → Prop where
  | look (task : Option Task) : Use t number task t.available.2
  | readSome (deadline : Option Nat) (expired : Bool) :
      Use t number (some (.readSome number deadline)) (t.readSome expired).2
  | readInstruction : Use t number (some (.readInstruction number)) t.readInstruction.2
  | write (rest : List UInt8) (thenFlush : Bool) :
      Use t number (some (.write number rest thenFlush)) (t.writeAll rest).2
  | flush {result : Except Failure Unit} {after : Tunnel}
      (hflush : t.flush? = some (result, after)) : Use t number (some (.flush number)) after
  | shutdown {result : Except Failure Unit} {after : Tunnel}
      (hshutdown : t.shutdown? = some (result, after)) :
      Use t number (some (.shutdown number)) after

theorem Tunnel.Use.seat_eq {t after : Tunnel} {number : Nat} {task : Option Task}
    (huse : t.Use number task after) (role : Role) : after.seat role = t.seat role := by
  cases huse with
  | look => exact Tunnel.sameButReader_available.seat_eq role
  | readSome => exact (Tunnel.sameButReader_of_readSome rfl).seat_eq role
  | readInstruction => exact Tunnel.sameButReader_readInstruction.seat_eq role
  | write => exact (Tunnel.sameButSink_of_writeAll rfl).seat_eq role
  | flush hflush => exact (Tunnel.sameButSink_flush? hflush).seat_eq role
  | shutdown hshutdown => exact (Tunnel.sameButSink_shutdown? hshutdown).seat_eq role

/-- The number of the tunnel that a task reads from. -/
def Task.source? : Task → Option Nat
  | .readSome number _ | .readInstruction number => some number
  | .acquire _ _ | .write _ _ _ | .flush _ | .shutdown _ | .close _ | .sweep _ | .watch _
  | .handle _ _ _ | .readBody _ => none

namespace Call

/-- The number of the tunnel that a call reads from. -/
def source? (c : Call) : Option Nat :=
  c.task.bind Task.source?

/-- A call keeps its name, its tickets and its request: only what it was told may change, or which
of the tasks that have no ticket it runs. It comes to read only where it holds the seat. -/
structure Quiet (c after : Call) : Prop where
  name : after.name = c.name
  task : after.task = c.task ∨ (c.taskClaim? = none ∧ after.taskClaim? = none)
  source : after.source? = c.source? ∨ ∀ number, after.source? = some number →
    ∃ hold, c.readerHold = some hold ∧ hold.tunnel = number
  readerHold : after.readerHold = c.readerHold
  writerHold : after.writerHold = c.writerHold
  hasRequested : after.hasRequested = c.hasRequested
  upload : after.upload = c.upload

theorem quiet_refl (c : Call) : c.Quiet c :=
  ⟨rfl, Or.inl rfl, Or.inl rfl, rfl, rfl, rfl, rfl⟩

theorem quiet_tell (c : Call) (event : Event) : c.Quiet (c.tell event) :=
  ⟨rfl, Or.inl rfl, Or.inl rfl, rfl, rfl, rfl, rfl⟩

theorem quiet_finish {c : Call} (hclaim : c.taskClaim? = none) (event : Event) :
    c.Quiet (c.finish event) :=
  ⟨rfl, Or.inr ⟨hclaim, rfl⟩, Or.inr nofun, rfl, rfl, rfl, rfl⟩

theorem quiet_assign {c : Call} (hclaim : c.taskClaim? = none) {task : Task}
    (htask : task.claim? = none) (hsource : ∀ number, task.source? = some number →
      ∃ hold, c.readerHold = some hold ∧ hold.tunnel = number) :
    c.Quiet { c with task := some task } :=
  ⟨rfl, Or.inr ⟨hclaim, htask⟩, Or.inr hsource, rfl, rfl, rfl, rfl⟩

/-- Takes up how a close of the tunnel with this number stands. -/
def takeClosing (c : Call) (number : Nat) : Tunnel.Closing → Call
  | .done result => c.finish (.ofResult result)
  | .waiting ticket => { c with task := some (.close ⟨number, ticket⟩) }

/-- Takes up how far a sweep got. -/
def takeSweep (c : Call) : Sweep.Progress → Call
  | .done count => c.finish (.swept count)
  | .waiting sweep => { c with task := some (.sweep sweep) }

/-- The call once it has made its request. -/
def asking (c : Call) (r : Request) : Call :=
  { c with hasRequested := true, upload := r.upload }

/-- The call once it has its response. -/
def answered (c : Call) (head : Head) (body : Body) (hold : Bool) : Call :=
  { c.tell (.head head) with
    body := some body
    task := if hold then none else some (.readBody .everything) }

end Call

namespace Hub

theorem respond_eq (h : Hub) (i : Nat) (c : Call) (head : Head) (body : Body) (hold : Bool) :
    h.respond i c head body hold = h.setCall i (c.answered head body hold) := rfl

/-- A call keeps the sweep that it has to wait for. -/
theorem keepSweep_eq (h : Hub) (i : Nat) (c : Call) (progress : Sweep.Progress) :
    h.keepSweep i c progress = h.setCall i (c.takeSweep progress) := by
  cases progress <;> rfl

/-- Takes up how far the handling of a request for the tunnel with this number got. -/
def takeProgress (h : Hub) (i : Nat) (c : Call) (number : Nat) (hold : Bool)
    (progress : Handling.Progress) (after : Handling.Surroundings) : Hub :=
  let h := { h with registry := after.registry, tunnels := h.tunnels.set number after.tunnel }
  let c := { c with upload := after.upload }
  match progress with
  | .goOn handling => h.setCall i { c with task := some (.handle number handling hold) }
  | .answer head => h.setCall i (c.answered head .empty hold)
  | .stream ticket =>
    { h with
        streams := h.streams ++ [Stream.start h.clock number ticket after.tunnel] }.setCall i
      (c.answered .reading (.stream h.streams.length) hold)

/-- Letting go of a body marks the outlet of its stream, if it has one. -/
theorem dropBody_cases (h : Hub) (body : Body) :
    h.dropBody body = h ∨ ∃ j s, h.streams[j]? = some s ∧
      h.dropBody body =
        { h with
          streams :=
            h.streams.set j { s with outlet := { s.outlet with abandoned := true } } } := by
  cases body with
  | empty => exact Or.inl rfl
  | text bytes => exact Or.inl rfl
  | stream j =>
      simp only [dropBody]
      cases hs : h.streams[j]? with
      | none =>
          rw [List.modify_eq_self (List.getElem?_eq_none_iff.mp hs)]
          exact Or.inl rfl
      | some s =>
          rw [modify_eq_set_of_getElem? _ hs]
          exact Or.inr ⟨j, s, hs, rfl⟩

/-- How a request starts: it is answered at once, or it draws a ticket and waits. -/
inductive Starts (h : Hub) (i : Nat) (c : Call) (r : Request) : Hub → Prop where
  | invalid {failure : Failure} (hquery : Operation.ofQuery r.query = .error failure) :
      Starts h i c r (h.respond i (c.asking r) (.ofFailure failure) .empty r.hold)
  | uncreated (hquery : Operation.ofQuery r.query = .ok .connect)
      (hnone : ∀ number, r.connection = .ok number → h.tunnels[number]? = none) :
      Starts h i c r (h.respond i (c.asking r) (.ofFailure .notCreated) .empty r.hold)
  | created {number : Nat} {t : Tunnel} (hquery : Operation.ofQuery r.query = .ok .connect)
      (hconnection : r.connection = .ok number) (ht : h.tunnels[number]? = some t) :
      Starts h i c r ({ h with registry := h.registry.put t.identity.text number h.now }.respond i
        (c.asking r) .created (.text (Utf8.ofString t.identity.text)) r.hold)
  | absent {operation : Operation} {role : Role} {identity : String}
      (hquery : Operation.ofQuery r.query = .ok operation)
      (hseeks : operation.seeks? = some (role, identity))
      (hnone : ∀ number, (h.registry.get identity h.now).1 = some number →
        h.tunnels[number]? = none) :
      Starts h i c r (h.respond i (c.asking r) (.ofFailure .noSuchTunnel) .empty r.hold)
  | waits {operation : Operation} {role : Role} {identity : String} {number : Nat} {t : Tunnel}
      (hquery : Operation.ofQuery r.query = .ok operation)
      (hseeks : operation.seeks? = some (role, identity))
      (hfound : (h.registry.get identity h.now).1 = some number)
      (ht : h.tunnels[number]? = some t) :
      Starts h i c r
        (({ h with registry := (h.registry.get identity h.now).2 }.setTunnel number
          (t.draw role).2).setCall i
        { c.asking r with
          task := some (.handle number (.await role (t.seat role).next) r.hold) })

/-- What becomes of a hub in which the call with number `i`, that is `c`, is acted on or,
without a cause, goes on by itself. -/
inductive CallStep (h : Hub) (i : Nat) (c : Call) : (cause : Option CallAction) → Hub → Prop where
  | quiet {cause : Option CallAction} {after : Call} (hquiet : c.Quiet after) :
      CallStep h i c cause (h.setCall i after)
  | use {number : Nat} {t used : Tunnel} {after : Call} (ht : h.tunnels[number]? = some t)
      (huse : t.Use number c.task used) (hquiet : c.Quiet after) :
      CallStep h i c none ((h.setTunnel number used).setCall i after)
  | look {action : CallAction} {number : Nat} {t used : Tunnel} {after : Call}
      (ht : h.tunnels[number]? = some t) (huse : t.Use number none used)
      (hquiet : c.Quiet after) :
      CallStep h i c (some action) ((h.setTunnel number used).setCall i after)
  | draw {number : Nat} {t : Tunnel} (role : Role) (hidle : c.task = none)
      (ht : h.tunnels[number]? = some t) :
      CallStep h i c (some (.acquire number role)) ((h.setTunnel number (t.draw role).2).setCall i
        { c with task := some (.acquire role ⟨number, (t.seat role).next⟩) })
  | acquired {role : Role} {hold : Hold} {t : Tunnel} (htask : c.task = some (.acquire role hold))
      (ht : h.tunnels[hold.tunnel]? = some t)
      (hserving : (t.seat role).isServing hold.ticket = true) :
      CallStep h i c none (((h.unqueue role hold.tunnel).leave? role (c.hold role)).setCall i
        ((c.setHold role (some hold)).finish .acquired))
  | close {number : Nat} {t : Tunnel} (hidle : c.task = none) (ht : h.tunnels[number]? = some t) :
      CallStep h i c (some (.close number))
        ((h.setTunnel number t.close.2).setCall i (c.takeClosing number t.close.1))
  | closeOn {hold : Hold} {t : Tunnel} (htask : c.task = some (.close hold))
      (ht : h.tunnels[hold.tunnel]? = some t) :
      CallStep h i c none ((h.setTunnel hold.tunnel (t.resumeClose hold.ticket).2).setCall i
        (c.takeClosing hold.tunnel (t.resumeClose hold.ticket).1))
  | sweep (timeout : Nat) (hidle : c.task = none) :
      CallStep h i c (some (.sweep timeout)) (h.startSweep i c timeout).2
  | sweepOn {s : Sweep} {progress : Sweep.Progress} {tunnels : List Tunnel}
      (htask : c.task = some (.sweep s)) (hresume : s.resume h.tunnels = some (progress, tunnels)) :
      CallStep h i c none ({ h with tunnels }.keepSweep i c progress)
  | keepSweeping {interval timeout : Nat} {s : Sweeper} {after : Call} (hfree : s.sweep = none)
      (hquiet : c.Quiet after) :
      CallStep h i c (some (.keepSweeping interval timeout))
        ({ h with sweepers := h.sweepers ++ [s] }.setCall i after)
  | stopSweeping : CallStep h i c (some .stopSweeping) (h.stopSweepers i c)
  | upload {parts : List BodyPart} {last : Bool} (hopen : c.upload.isOpen = true) :
      CallStep h i c (some (.upload parts last)) (h.setCall i
        { c with upload := { parts := c.upload.parts ++ parts, isOpen := !last } })
  | request {r : Request} {next : Hub} (hidle : c.task = none) (hfirst : c.hasRequested = false)
      (hstarts : h.Starts i c r next) :
      CallStep h i c (some (.request r)) next
  | handle {number : Nat} {handling : Handling} {hold : Bool} {t : Tunnel}
      {progress : Handling.Progress} {after : Handling.Surroundings}
      (htask : c.task = some (.handle number handling hold))
      (ht : h.tunnels[number]? = some t)
      (hstep : handling.Step h.registry t c.upload progress after) :
      CallStep h i c none (h.takeProgress i c number hold progress after)
  | take {index : Nat} {s : Stream} {bytes : List UInt8} {outlet : Outlet} {after : Call}
      (hs : h.streams[index]? = some s) (htake : s.outlet.take = .chunk bytes outlet)
      (hquiet : c.Quiet after) :
      CallStep h i c none
        ({ h with streams := h.streams.set index { s with outlet } }.setCall i after)
  | abort : CallStep h i c (some .abort) (h.abortTask i c)
  | release : CallStep h i c (some .release) (h.releaseAll i c)
  | drop : CallStep h i c (some .drop) (h.dropClient i c)

variable {h next : Hub} {i : Nat} {c : Call}

theorem setCall_self (hc : h.calls[i]? = some c) : h.setCall i c = h := by
  obtain ⟨_, rfl⟩ := List.getElem?_eq_some_iff.mp hc
  unfold setCall
  rw [List.set_getElem_self]

theorem callStep_self (hc : h.calls[i]? = some c) (cause : Option CallAction) :
    CallStep h i c cause h := by
  have hquiet : CallStep h i c cause (h.setCall i c) := .quiet c.quiet_refl
  rw [setCall_self hc] at hquiet
  exact hquiet

/-! ## What a call is made to do -/

/-- Who has nothing to say against a new task has none. -/
theorem task_of_objection? {action : CallAction} (hobjection : c.objection? action = none)
    (hstarts : action.startsTask = true) : c.task = none := by
  unfold Call.objection? at hobjection
  split at hobjection
  · cases hobjection
  · cases htask : c.task with
    | none => rfl
    | some task => simp [hstarts, Call.isBusy, htask] at hobjection

/-- A call makes one request only. -/
theorem hasRequested_of_objection? {r : Request}
    (hobjection : c.objection? (.request r) = none) : c.hasRequested = false := by
  cases hrequested : c.hasRequested with
  | false => rfl
  | true => simp [Call.objection?, CallAction.isRequest, hrequested] at hobjection

theorem taskClaim?_of_idle (hidle : c.task = none) : c.taskClaim? = none := by
  simp [Call.taskClaim?, hidle]

/-- A call that does not hold the seat is refused, which is a step that changes nothing. -/
theorem callStep_withHeld {cause : Option CallAction} (hc : h.calls[i]? = some c)
    (hold : Option Hold) {use : Nat → Tunnel → Result × Hub}
    (huse : ∀ held t, hold = some held → h.tunnels[held.tunnel]? = some t →
      CallStep h i c cause (use held.tunnel t).2) :
    CallStep h i c cause (h.withHeld hold use).2 := by
  unfold withHeld
  split
  · exact callStep_self hc _
  next held =>
    split
    · exact callStep_self hc _
    next t ht => exact huse held t rfl ht

theorem callStep_startAcquire (hc : h.calls[i]? = some c) (hidle : c.task = none)
    (number : Nat) (role : Role) :
    CallStep h i c (some (.acquire number role)) (h.startAcquire i c number role).2 := by
  unfold startAcquire
  split
  · exact callStep_self hc _
  next t ht =>
    have hticket := t.fst_draw role
    have hdraw := CallStep.draw (i := i) role hidle ht
    rw [← hticket] at hdraw
    exact hdraw

theorem callStep_startClose (hc : h.calls[i]? = some c) (hidle : c.task = none)
    (number : Nat) : CallStep h i c (some (.close number)) (h.startClose i c number).2 := by
  unfold startClose
  split
  · exact callStep_self hc _
  next t ht =>
    have hclose := CallStep.close (i := i) hidle ht
    split
    next result after heq =>
      rw [heq] at hclose
      have htell : c.finish (.ofResult result) = c.tell (.ofResult result) := by
        simp [Call.finish, Call.tell, hidle]
      simp only [Call.takeClosing, htell] at hclose
      exact hclose
    next ticket after heq =>
      rw [heq] at hclose
      exact hclose

theorem callStep_startSweeper (hidle : c.task = none) (interval timeout : Nat) :
    CallStep h i c (some (.keepSweeping interval timeout))
      (h.startSweeper i c interval timeout).2 := by
  unfold startSweeper
  split
  · exact .quiet (c.quiet_tell _)
  · exact .keepSweeping rfl (Call.quiet_assign (taskClaim?_of_idle hidle) rfl nofun)

/-- A request starts in one of the ways. -/
theorem starts_startRequest (h : Hub) (i : Nat) (c : Call) (r : Request) :
    h.Starts i c r (h.startRequest i c r) := by
  have henqueue {operation : Operation} {role : Role} {identity : String}
      (hquery : Operation.ofQuery r.query = .ok operation)
      (hseeks : operation.seeks? = some (role, identity)) :
      h.Starts i c r (h.enqueue i (c.asking r) r identity role (.await role)) := by
    unfold enqueue
    dsimp only
    split
    next hnone =>
      refine .absent hquery hseeks fun number hnumber => ?_
      rw [hnone] at hnumber
      cases hnumber
    next found hfound =>
      split
      next ht =>
        refine .absent hquery hseeks fun number hnumber => ?_
        rw [hfound] at hnumber
        cases hnumber
        exact ht
      next t ht =>
        rw [t.fst_draw]
        exact .waits hquery hseeks hfound ht
  unfold startRequest
  dsimp only
  split
  next failure hquery => exact .invalid hquery
  next hquery =>
    unfold connect
    split
    next hconnection =>
      refine .uncreated hquery fun number hnumber => ?_
      rw [hconnection] at hnumber
      cases hnumber
    next found hconnection =>
      split
      next ht =>
        refine .uncreated hquery fun number hnumber => ?_
        rw [hconnection] at hnumber
        cases hnumber
        exact ht
      next t ht => exact .created hquery hconnection ht
  next identity hquery => exact henqueue hquery rfl
  next identity hquery => exact henqueue hquery rfl

/-- What a call is made to do is one of the steps. -/
theorem callStep_applyCall (hc : h.calls[i]? = some c) {action : CallAction}
    (hobjection : c.objection? action = none) :
    CallStep h i c (some action) (h.applyCall i c action).2 := by
  have hidle := task_of_objection? hobjection
  have hquiet (task : Task) (hstarts : action.startsTask = true) (htask : task.claim? = none)
      (hsource : ∀ number, task.source? = some number →
        ∃ hold, c.readerHold = some hold ∧ hold.tunnel = number) :
      CallStep h i c (some action) (h.setCall i { c with task := some task }) :=
    .quiet (Call.quiet_assign (taskClaim?_of_idle (hidle hstarts)) htask hsource)
  cases action with
  | acquire number role => exact callStep_startAcquire hc (hidle rfl) number role
  | readSome =>
      exact callStep_withHeld hc _ fun held _ hheld _ => hquiet _ rfl rfl fun _ heq =>
        ⟨held, hheld, Option.some.inj heq⟩
  | readInstruction =>
      exact callStep_withHeld hc _ fun held _ hheld _ => hquiet _ rfl rfl fun _ heq =>
        ⟨held, hheld, Option.some.inj heq⟩
  | available =>
      exact callStep_withHeld hc _ fun _ _ _ ht => .look ht (.look _) (c.quiet_tell _)
  | writeAll bytes => exact callStep_withHeld hc _ fun _ _ _ _ => hquiet _ rfl rfl nofun
  | writeInstruction instruction =>
      exact callStep_withHeld hc _ fun _ _ _ _ => hquiet _ rfl rfl nofun
  | flush => exact callStep_withHeld hc _ fun _ _ _ _ => hquiet _ rfl rfl nofun
  | shutdown => exact callStep_withHeld hc _ fun _ _ _ _ => hquiet _ rfl rfl nofun
  | close number => exact callStep_startClose hc (hidle rfl) number
  | sweep timeout => exact .sweep timeout (hidle rfl)
  | keepSweeping interval timeout => exact callStep_startSweeper (hidle rfl) interval timeout
  | stopSweeping => exact .stopSweeping
  | request r =>
      exact .request (hidle rfl) (hasRequested_of_objection? hobjection)
        (h.starts_startRequest i c r)
  | upload parts last =>
      simp only [applyCall]
      split
      next hopen => exact .upload hopen
      · exact callStep_self hc _
  | pull =>
      simp only [applyCall]
      split
      · exact hquiet _ rfl rfl nofun
      · exact callStep_self hc _
  | abort => exact .abort
  | release => exact .release
  | drop => exact .drop

/-! ## How a call goes on -/

/-- A step of the rest of a computation that starts by looking something up. -/
theorem exists_of_bind_eq_some {α β : Type} {first : Option α} {rest : α → Option β} {value : β}
    (hbind : (first >>= rest) = some value) : ∃ a, first = some a ∧ rest a = some value :=
  Option.bind_eq_some_iff.mp hbind

theorem callStep_resumeReadSome (hc : h.calls[i]? = some c) {number : Nat}
    {deadline : Option Nat} (htask : c.task = some (.readSome number deadline))
    (hnext : h.resumeReadSome i c number deadline = some next) : CallStep h i c none next := by
  have hclaim : c.taskClaim? = none := by simp [Call.taskClaim?, htask, Task.claim?]
  obtain ⟨t, ht, hrest⟩ := exists_of_bind_eq_some hnext
  have huse : t.Use number (some (.readSome number deadline)) _ :=
    .readSome deadline (deadline.any fun time => decide (time ≤ h.clock))
  rw [← htask] at huse
  split at hrest
  next bytes after heq =>
    rw [heq] at huse
    cases hrest
    exact .use ht huse (Call.quiet_finish hclaim _)
  next failure after heq =>
    rw [heq] at huse
    cases hrest
    exact .use ht huse (Call.quiet_finish hclaim _)
  next after heq =>
    rw [heq] at huse
    split at hrest
    · cases hrest
    · cases hrest
      have hstep : CallStep h i c none _ := .use ht huse c.quiet_refl
      rw [setCall_self (h := h.setTunnel number after) hc] at hstep
      exact hstep

theorem callStep_resumeReadInstruction (hc : h.calls[i]? = some c) {number : Nat}
    (htask : c.task = some (.readInstruction number))
    (hnext : h.resumeReadInstruction i c number = some next) : CallStep h i c none next := by
  have hclaim : c.taskClaim? = none := by simp [Call.taskClaim?, htask, Task.claim?]
  obtain ⟨t, ht, hrest⟩ := exists_of_bind_eq_some hnext
  have huse : t.Use number (some (.readInstruction number)) _ := .readInstruction
  rw [← htask] at huse
  split at hrest
  next instruction after heq =>
    rw [heq] at huse
    cases hrest
    exact .use ht huse (Call.quiet_finish hclaim _)
  next failure after heq =>
    rw [heq] at huse
    cases hrest
    exact .use ht huse (Call.quiet_finish hclaim _)
  next after heq =>
    rw [heq] at huse
    split at hrest
    · cases hrest
    · cases hrest
      have hstep : CallStep h i c none _ := .use ht huse c.quiet_refl
      rw [setCall_self (h := h.setTunnel number after) hc] at hstep
      exact hstep

/-- A write that is done ends its task, or makes it the flush that is due. -/
theorem callStep_finishWrite {number : Nat} {t : Tunnel} {rest : List UInt8} {thenFlush : Bool}
    (htask : c.task = some (.write number rest thenFlush)) (ht : h.tunnels[number]? = some t) :
    CallStep h i c none
      ((h.setTunnel number (t.writeAll rest).2).finishWrite i c number thenFlush) := by
  have hclaim : c.taskClaim? = none := by simp [Call.taskClaim?, htask, Task.claim?]
  have huse : t.Use number (some (.write number rest thenFlush)) _ := .write rest thenFlush
  rw [← htask] at huse
  unfold finishWrite
  split
  · exact .use ht huse (Call.quiet_assign hclaim rfl nofun)
  · exact .use ht huse (Call.quiet_finish hclaim _)

/-- A write goes on, waits with less, or is over. -/
theorem callStep_resumeWrite {number : Nat} {rest : List UInt8} {thenFlush : Bool}
    (htask : c.task = some (.write number rest thenFlush))
    (hnext : h.resumeWrite i c number rest thenFlush = some next) : CallStep h i c none next := by
  have hclaim : c.taskClaim? = none := by simp [Call.taskClaim?, htask, Task.claim?]
  obtain ⟨t, ht, hrest⟩ := exists_of_bind_eq_some hnext
  have huse : t.Use number (some (.write number rest thenFlush)) _ := .write rest thenFlush
  rw [← htask] at huse
  split at hrest
  next after heq =>
    have hfinish := callStep_finishWrite (i := i) htask ht
    rw [heq] at hfinish
    cases hrest
    exact hfinish
  next failure after heq =>
    rw [heq] at huse
    cases hrest
    exact .use ht huse (Call.quiet_finish hclaim _)
  next left after heq =>
    rw [heq] at huse
    split at hrest
    · cases hrest
    · cases hrest
      exact .use ht huse (Call.quiet_assign hclaim rfl nofun)

/-- A flush that is over ends its task. -/
theorem callStep_resumeFlush {number : Nat} (htask : c.task = some (.flush number))
    (hnext : h.resumeFlush i c number = some next) : CallStep h i c none next := by
  have hclaim : c.taskClaim? = none := by simp [Call.taskClaim?, htask, Task.claim?]
  obtain ⟨t, ht, hrest⟩ := exists_of_bind_eq_some hnext
  obtain ⟨⟨result, after⟩, hflush, hend⟩ := exists_of_bind_eq_some hrest
  have huse : t.Use number (some (.flush number)) after := .flush hflush
  rw [← htask] at huse
  cases hend
  exact .use ht huse (Call.quiet_finish hclaim _)

theorem callStep_resumeShutdown {number : Nat} (htask : c.task = some (.shutdown number))
    (hnext : h.resumeShutdown i c number = some next) : CallStep h i c none next := by
  have hclaim : c.taskClaim? = none := by simp [Call.taskClaim?, htask, Task.claim?]
  obtain ⟨t, ht, hrest⟩ := exists_of_bind_eq_some hnext
  obtain ⟨⟨result, after⟩, hshutdown, hend⟩ := exists_of_bind_eq_some hrest
  have huse : t.Use number (some (.shutdown number)) after := .shutdown hshutdown
  rw [← htask] at huse
  cases hend
  exact .use ht huse (Call.quiet_finish hclaim _)

/-- A wait for a seat is over when the ticket is served. -/
theorem callStep_resumeAcquire {role : Role} {hold : Hold}
    (htask : c.task = some (.acquire role hold))
    (hnext : h.resumeAcquire i c role hold = some next) : CallStep h i c none next := by
  obtain ⟨t, ht, hrest⟩ := exists_of_bind_eq_some hnext
  split at hrest
  next hserving =>
    cases hrest
    exact .acquired htask ht hserving
  · cases hrest

theorem callStep_resumeClose {hold : Hold} (htask : c.task = some (.close hold))
    (hnext : h.resumeClose i c hold = some next) : CallStep h i c none next := by
  obtain ⟨t, ht, hrest⟩ := exists_of_bind_eq_some hnext
  have hclose := CallStep.closeOn (i := i) htask ht
  split at hrest
  next result after heq =>
    rw [heq] at hclose
    cases hrest
    exact hclose
  · cases hrest

/-- The handling of a request goes on at a tunnel that is there. -/
theorem exists_of_resumeHandling {number : Nat} {handling : Handling} {hold : Bool}
    (hnext : h.resumeHandling i c number handling hold = some next) :
    ∃ t progress after, h.tunnels[number]? = some t ∧
      handling.Step h.registry t c.upload progress after ∧
      next = h.takeProgress i c number hold progress after := by
  obtain ⟨t, ht, hrest⟩ := exists_of_bind_eq_some hnext
  obtain ⟨⟨progress, after⟩, hstep, hend⟩ := exists_of_bind_eq_some hrest
  refine ⟨t, progress, after, ht, Handling.step_of_step hstep, ?_⟩
  cases progress <;> cases hend <;> rfl

theorem quiet_takeChunk (hclaim : c.taskClaim? = none) (body : Body) (bytes : List UInt8)
    (appetite : Appetite) :
    ∃ after, c.Quiet after ∧ h.takeChunk i c body bytes appetite = h.setCall i after := by
  cases appetite with
  | everything =>
      exact ⟨{ c with body := some body }.tell (.chunk bytes),
        ⟨rfl, Or.inl rfl, Or.inl rfl, rfl, rfl, rfl, rfl⟩, rfl⟩
  | oneChunk =>
      exact ⟨{ c with body := some body }.finish (.chunk bytes),
        ⟨rfl, Or.inr ⟨hclaim, rfl⟩, Or.inr (fun _ heq => by cases heq), rfl, rfl, rfl, rfl⟩, rfl⟩

theorem callStep_endBody (hclaim : c.taskClaim? = none) (appetite : Appetite) :
    CallStep h i c none (h.endBody i c appetite) := by
  cases appetite with
  | everything =>
      exact .quiet
        ⟨rfl, Or.inr ⟨hclaim, rfl⟩, Or.inr (fun _ heq => by cases heq), rfl, rfl, rfl, rfl⟩
  | oneChunk => exact .quiet (Call.quiet_finish hclaim _)

/-- A client reads a chunk, or comes to the end of its response. -/
theorem callStep_resumeReadBody {appetite : Appetite}
    (htask : c.task = some (.readBody appetite))
    (hnext : h.resumeReadBody i c appetite = some next) : CallStep h i c none next := by
  have hclaim : c.taskClaim? = none := by simp [Call.taskClaim?, htask, Task.claim?]
  obtain ⟨body, _, hrest⟩ := exists_of_bind_eq_some hnext
  cases body with
  | empty =>
      cases hrest
      exact callStep_endBody hclaim appetite
  | text bytes =>
      cases hrest
      obtain ⟨after, hquiet, heq⟩ := quiet_takeChunk (h := h) (i := i) hclaim .empty bytes appetite
      rw [heq]
      exact .quiet hquiet
  | stream index =>
      obtain ⟨s, hs, hportion⟩ := exists_of_bind_eq_some hrest
      split at hportion
      next bytes outlet htake =>
        cases hportion
        obtain ⟨after, hquiet, heq⟩ := quiet_takeChunk (i := i)
          (h := { h with streams := h.streams.set index { s with outlet } })
          hclaim (.stream index) bytes appetite
        rw [heq]
        exact .take hs htake hquiet
      · cases hportion
        exact callStep_endBody hclaim appetite
      · cases hportion

/-- A call goes on with its task by one of the steps. -/
theorem callStep_resumeCall (hnext : h.resumeCall i = some next) :
    ∃ c, h.calls[i]? = some c ∧ CallStep h i c none next := by
  obtain ⟨c, hc, hrest⟩ := exists_of_bind_eq_some hnext
  obtain ⟨task, htask, hstep⟩ := exists_of_bind_eq_some hrest
  refine ⟨c, hc, ?_⟩
  cases task with
  | acquire role hold => exact callStep_resumeAcquire htask hstep
  | readSome number deadline => exact callStep_resumeReadSome hc htask hstep
  | readInstruction number => exact callStep_resumeReadInstruction hc htask hstep
  | write number rest thenFlush => exact callStep_resumeWrite htask hstep
  | flush number => exact callStep_resumeFlush htask hstep
  | shutdown number => exact callStep_resumeShutdown htask hstep
  | close hold => exact callStep_resumeClose htask hstep
  | sweep s =>
      obtain ⟨⟨progress, tunnels⟩, hresume, hend⟩ := exists_of_bind_eq_some hstep
      cases hend
      exact .sweepOn htask hresume
  | watch sweeper =>
      obtain ⟨s, _, hend⟩ := exists_of_bind_eq_some hstep
      split at hend
      · cases hend
        exact .quiet (Call.quiet_finish (by simp [Call.taskClaim?, htask, Task.claim?]) _)
      · cases hend
  | handle number handling hold =>
      obtain ⟨t, progress, after, ht, hhandling, rfl⟩ := exists_of_resumeHandling hstep
      exact .handle htask ht hhandling
  | readBody appetite => exact callStep_resumeReadBody htask hstep

/-- An action through a call adds the call if need be, and is then refused or one of the
steps. -/
theorem callStep_apply (h : Hub) (name : String) (action : CallAction) :
    (h.apply (.call name action)).2 = (h.withCall name).2 ∨
      ∃ c, (h.withCall name).2.calls[(h.withCall name).1]? = some c ∧
        CallStep (h.withCall name).2 (h.withCall name).1 c (some action)
          (h.apply (.call name action)).2 := by
  unfold apply
  dsimp only
  split
  · exact Or.inl rfl
  next c hc =>
    split
    · exact Or.inl rfl
    next hobjection => exact Or.inr ⟨c, hc, callStep_applyCall hc hobjection⟩

/-- A sweeper goes on by one of its steps. -/
theorem sweeperStep_resumeSweeper {number : Nat} (hnext : h.resumeSweeper number = some next) :
    ∃ (s s' : Sweeper) (registry : Registry) (tunnels : List Tunnel),
      h.sweepers[number]? = some s ∧
      s.Step h.clock h.now h.registry h.tunnels s' registry tunnels ∧
      next = { h with registry, tunnels, sweepers := h.sweepers.set number s' } := by
  obtain ⟨s, hs, hrest⟩ := exists_of_bind_eq_some hnext
  obtain ⟨⟨s', registry, tunnels⟩, hstep, hend⟩ := exists_of_bind_eq_some hrest
  cases hend
  exact ⟨s, s', registry, tunnels, hs, Sweeper.step_of_step hstep, rfl⟩

/-- A stream goes on by one of its steps. -/
theorem streamStep_resumeStream {number : Nat} (hnext : h.resumeStream number = some next) :
    ∃ (s s' : Stream) (t : Tunnel) (after : Stream.Surroundings),
      h.streams[number]? = some s ∧ h.tunnels[s.tunnel]? = some t ∧
      s.Step h.clock h.registry t after s' ∧
      next = { h with
        registry := after.registry
        tunnels := h.tunnels.set s.tunnel after.tunnel
        streams := h.streams.set number s' } := by
  obtain ⟨s, hs, hrest⟩ := exists_of_bind_eq_some hnext
  obtain ⟨t, ht, hrest'⟩ := exists_of_bind_eq_some hrest
  obtain ⟨⟨after, s'⟩, hstep, hend⟩ := exists_of_bind_eq_some hrest'
  cases hend
  exact ⟨s, s', t, after, hs, ht, Stream.step_of_step hstep, rfl⟩

end Hub

end LongPollTunnel
