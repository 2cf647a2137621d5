import LongPollTunnel.Proofs.Histories
import LongPollTunnel.Proofs.Holders
import LongPollTunnel.Proofs.Reading
import LongPollTunnel.Proofs.Writing

/-! # What can become of a tunnel

In one move of a hub a tunnel goes through a few operations: a seat is left, it is closed,
its sink is flushed or shut down. Only certain moves read, write, feed, draw a ticket or end a
wait, so what only these could change is kept by all others. Main statement: for every move
and every tunnel, which of the five it can do.
-/

namespace LongPollTunnel

namespace Tunnel

/-- What may be done to a tunnel besides what can always be done. -/
structure Rights where
  reads : Prop
  writes : Prop
  feeds : Prop
  draws : Prop
  quits : Prop

/-- No right but what can always be done. -/
def Rights.none : Rights :=
  ⟨False, False, False, False, False⟩

/-- Every right. -/
def Rights.all : Rights :=
  ⟨True, True, True, True, True⟩

/-- One tunnel becomes another by operations on it. A close that takes the writer's seat
draws a ticket in its own right. -/
inductive Becomes (may : Rights) (t : Tunnel) : Tunnel → Prop where
  | refl : Becomes may t t
  | draw {after : Tunnel} (hdraws : may.draws) (role : Role) (h : Becomes may t after) :
      Becomes may t (after.draw role).2
  | leave {after : Tunnel} (role : Role) (ticket : Nat) (h : Becomes may t after) :
      Becomes may t (after.leave role ticket)
  | unqueue {after : Tunnel} (hquits : may.quits) (role : Role) (h : Becomes may t after) :
      Becomes may t (after.unqueue role)
  | shut {after : Tunnel} (h : Becomes may t after) :
      Becomes may t after.shut
  | shutAndDraw {after : Tunnel} (hopen : after.isOpen = true) (h : Becomes may t after) :
      Becomes may t (after.shut.draw .writer).2
  | available {after : Tunnel} (h : Becomes may t after) :
      Becomes may t after.available.2
  | flush {after last : Tunnel} {result : Except Failure Unit}
      (h : Becomes may t after) (hflush : after.flush? = some (result, last)) :
      Becomes may t last
  | shutdown {after last : Tunnel} {result : Except Failure Unit}
      (h : Becomes may t after) (hshutdown : after.shutdown? = some (result, last)) :
      Becomes may t last
  | treat {after : Tunnel} (manner : Sink.Manner) (h : Becomes may t after) :
      Becomes may t { after with sink := { after.sink with manner } }
  | readSome {after : Tunnel} (hreads : may.reads) (expired : Bool)
      (h : Becomes may t after) : Becomes may t (after.readSome expired).2
  | readInstruction {after : Tunnel} (hreads : may.reads) (h : Becomes may t after) :
      Becomes may t after.readInstruction.2
  | write {after : Tunnel} (hwrites : may.writes) (bytes : List UInt8)
      (h : Becomes may t after) : Becomes may t (after.writeAll bytes).2
  | feed {after : Tunnel} (hfeeds : may.feeds) (arrivals : List Arrival)
      (h : Becomes may t after) :
      Becomes may t { after with reader := after.reader.feed arrivals }

namespace Becomes

variable {may : Rights} {t after last : Tunnel}

theorem trans (hfirst : Becomes may t after)
    (hsecond : Becomes may after last) : Becomes may t last := by
  induction hsecond with
  | refl => exact hfirst
  | draw hdraws role _ ih => exact ih.draw hdraws role
  | leave role ticket _ ih => exact ih.leave role ticket
  | unqueue hquits role _ ih => exact ih.unqueue hquits role
  | shut _ ih => exact ih.shut
  | shutAndDraw hopen _ ih => exact ih.shutAndDraw hopen
  | available _ ih => exact ih.available
  | flush _ hflush ih => exact ih.flush hflush
  | shutdown _ hshutdown ih => exact ih.shutdown hshutdown
  | treat manner _ ih => exact ih.treat manner
  | readSome hreads expired _ ih => exact ih.readSome hreads expired
  | readInstruction hreads _ ih => exact ih.readInstruction hreads
  | write hwrites bytes _ ih => exact ih.write hwrites bytes
  | feed hfeeds arrivals _ ih => exact ih.feed hfeeds arrivals

/-- A close that goes on needs no right: it shuts the sink down and gives its own ticket back. -/
theorem resumeClose (ticket : Nat) : Becomes may t (t.resumeClose ticket).2 := by
  unfold Tunnel.resumeClose
  split
  next result middle hshutdown => exact (Becomes.refl.shutdown hshutdown).leave .writer ticket
  · exact .refl

/-- Whoever may see a tunnel may close it. -/
theorem close (t : Tunnel) : Becomes may t t.close.2 := by
  rcases t.close_cases with ⟨_, hclose⟩ | ⟨_, _, hclose⟩ | ⟨hopen, _, hclose⟩
  · rw [hclose]
    exact .refl
  · rw [hclose]
    exact Becomes.refl.shut
  · rw [hclose]
    exact (Becomes.refl.shutAndDraw hopen).trans (resumeClose _)

/-! ### What is kept -/

/-- Nobody gives a tunnel another identity. -/
theorem identity_eq (hbecomes : Becomes may t after) : after.identity = t.identity := by
  induction hbecomes with
  | refl => rfl
  | draw _ role _ ih => rw [identity_draw, ih]
  | leave role ticket _ ih => rw [identity_leave, ih]
  | shutAndDraw _ _ ih =>
      rw [identity_draw]
      exact ih
  | flush _ hflush ih => rw [(sameButSink_flush? hflush).identity_eq, ih]
  | shutdown _ hshutdown ih => rw [(sameButSink_shutdown? hshutdown).identity_eq, ih]
  | _ => assumption

/-- A closed tunnel stays closed. -/
theorem isOpen_eq_false (hbecomes : Becomes may t after) (hclosed : t.isOpen = false) :
    after.isOpen = false := by
  induction hbecomes with
  | refl => exact hclosed
  | draw _ role _ ih => rw [isOpen_draw, ih]
  | leave role ticket _ ih => rw [isOpen_leave, ih]
  | shut _ _ => rfl
  | shutAndDraw _ _ _ =>
      rw [isOpen_draw]
      rfl
  | flush _ hflush ih => rw [(sameButSink_flush? hflush).isOpen_eq, ih]
  | shutdown _ hshutdown ih => rw [(sameButSink_shutdown? hshutdown).isOpen_eq, ih]
  | _ => assumption

theorem later_setSeat {middle : Tunnel} {role other : Role} {seat : Seat}
    (hseat : (middle.seat role).Later seat) :
    (middle.seat other).Later ((middle.setSeat role seat).seat other) := by
  by_cases heq : other = role
  · rw [heq, seat_setSeat]
    exact hseat
  · rw [seat_setSeat_of_ne _ _ _ heq]
    exact Seat.later_refl _

/-- The seats only go forward. -/
theorem later (hbecomes : Becomes may t after) (role : Role) :
    (t.seat role).Later (after.seat role) := by
  induction hbecomes with
  | refl => exact Seat.later_refl _
  | @draw middle _ other _ ih =>
      rw [seat_snd_draw]
      exact ih.trans (later_setSeat (Seat.later_draw _))
  | leave other ticket _ ih => exact ih.trans (later_setSeat (Seat.later_leave _ ticket))
  | shut _ ih => cases role <;> exact ih
  | @shutAndDraw middle _ _ ih =>
      have hshut : (t.seat role).Later (middle.shut.seat role) := by
        rw [seat_shut]
        exact ih
      rw [seat_snd_draw]
      exact hshut.trans (later_setSeat (Seat.later_draw _))
  | flush _ hflush ih =>
      rw [(sameButSink_flush? hflush).seat_eq]
      exact ih
  | shutdown _ hshutdown ih =>
      rw [(sameButSink_shutdown? hshutdown).seat_eq]
      exact ih
  | _ => cases role <;> assumption

/-- Without the right to draw, the only ticket for the writer's seat is that of the close
that closes the tunnel. -/
theorem next_eq_or_closes (hbecomes : Becomes may t after) (hdraws : ¬ may.draws) :
    after.writerSeat.next = t.writerSeat.next ∨
      (t.isOpen = true ∧ after.isOpen = false ∧
        after.writerSeat.next = t.writerSeat.next + 1) := by
  induction hbecomes with
  | refl => exact Or.inl rfl
  | draw h => exact absurd h hdraws
  | @leave middle role ticket hmiddle ih =>
      rw [isOpen_leave]
      have hnext : (middle.leave role ticket).writerSeat.next = middle.writerSeat.next := by
        cases role with
        | reader => rfl
        | writer => exact Seat.next_leave _ _
      rw [hnext]
      exact ih
  | shut _ ih =>
      rcases ih with hnext | ⟨hopen, _, hnext⟩
      · exact Or.inl hnext
      · exact Or.inr ⟨hopen, rfl, hnext⟩
  | @shutAndDraw middle hopen hmiddle ih =>
      -- a tunnel that is still open has not drawn the ticket yet
      have hnext : middle.writerSeat.next = t.writerSeat.next := by
        rcases ih with hnext | ⟨_, hclosed, _⟩
        · exact hnext
        · rw [hclosed] at hopen
          cases hopen
      refine Or.inr ⟨?_, ?_, ?_⟩
      · cases hbefore : t.isOpen with
        | true => rfl
        | false =>
            rw [hmiddle.isOpen_eq_false hbefore] at hopen
            cases hopen
      · rw [isOpen_draw]
        rfl
      · rw [← hnext]
        exact Seat.next_draw _
  | @flush middle last result _ hflush ih =>
      have hseat : last.writerSeat = middle.writerSeat :=
        (sameButSink_flush? hflush).seat_eq .writer
      rw [(sameButSink_flush? hflush).isOpen_eq, hseat]
      exact ih
  | @shutdown middle last result _ hshutdown ih =>
      have hseat : last.writerSeat = middle.writerSeat :=
        (sameButSink_shutdown? hshutdown).seat_eq .writer
      rw [(sameButSink_shutdown? hshutdown).isOpen_eq, hseat]
      exact ih
  | _ => assumption

/-- Without the rights to read and to feed, the reader has what it had. -/
theorem unread_eq (hbecomes : Becomes may t after) (hreads : ¬ may.reads) (hfeeds : ¬ may.feeds) :
    after.reader.unread = t.reader.unread := by
  induction hbecomes with
  | refl => rfl
  | draw _ role _ ih => rw [reader_draw, ih]
  | leave role ticket _ ih => rw [reader_leave, ih]
  | shutAndDraw _ _ ih =>
      rw [reader_draw]
      exact ih
  | available _ ih => exact (Reader.unread_available _ _).trans ih
  | flush _ hflush ih => rw [(sameButSink_flush? hflush).reader_eq, ih]
  | shutdown _ hshutdown ih => rw [(sameButSink_shutdown? hshutdown).reader_eq, ih]
  | readSome h => exact absurd h hreads
  | readInstruction h => exact absurd h hreads
  | feed h => exact absurd h hfeeds
  | _ => assumption

/-- The reader stays sound whoever reads. -/
theorem sound (hbecomes : Becomes may t after) (hsound : t.reader.Sound) :
    after.reader.Sound := by
  induction hbecomes with
  | refl => exact hsound
  | draw _ role _ ih =>
      rw [reader_draw]
      exact ih
  | leave role ticket _ ih =>
      rw [reader_leave]
      exact ih
  | shutAndDraw _ _ ih =>
      rw [reader_draw]
      exact ih
  | available _ ih => exact ih.available _
  | flush _ hflush ih =>
      rw [(sameButSink_flush? hflush).reader_eq]
      exact ih
  | shutdown _ hshutdown ih =>
      rw [(sameButSink_shutdown? hshutdown).reader_eq]
      exact ih
  | readSome _ expired _ ih => exact ih.readSome _ expired
  | readInstruction _ _ ih => exact ih.readInstruction _
  | feed _ arrivals _ ih => exact ih.feed arrivals
  | _ => assumption

/-- How long a read waits is settled when the tunnel is made. -/
theorem idleTimeout_eq (hbecomes : Becomes may t after) :
    after.reader.idleTimeout = t.reader.idleTimeout := by
  induction hbecomes with
  | refl => rfl
  | draw _ role _ ih => rw [reader_draw, ih]
  | leave role ticket _ ih => rw [reader_leave, ih]
  | shutAndDraw _ _ ih =>
      rw [reader_draw]
      exact ih
  | available _ ih => exact (Reader.idleTimeout_available _ _).trans ih
  | flush _ hflush ih => rw [(sameButSink_flush? hflush).reader_eq, ih]
  | shutdown _ hshutdown ih => rw [(sameButSink_shutdown? hshutdown).reader_eq, ih]
  | readSome _ expired _ ih => exact (Reader.idleTimeout_readSome _ expired _).trans ih
  | readInstruction _ _ ih => exact (Reader.idleTimeout_readInstruction _ _).trans ih
  | _ => assumption

/-- Without the right to write, the sink has taken what it had taken. -/
theorem accepted_eq (hbecomes : Becomes may t after) (hwrites : ¬ may.writes) :
    after.sink.accepted = t.sink.accepted := by
  induction hbecomes with
  | refl => rfl
  | draw _ role _ ih => rw [sink_draw, ih]
  | leave role ticket _ ih => rw [sink_leave, ih]
  | shutAndDraw _ _ ih =>
      rw [sink_draw]
      exact ih
  | flush _ hflush ih => rw [(sink_flush? hflush).1, ih]
  | shutdown _ hshutdown ih => rw [(unwritten_shutdown? hshutdown).accepted, ih]
  | write h => exact absurd h hwrites
  | _ => assumption

/-- The sink keeps what it has taken. -/
theorem accepted_le (hbecomes : Becomes may t after) : t.sink.accepted <+: after.sink.accepted := by
  induction hbecomes with
  | refl => exact List.prefix_refl _
  | draw _ role _ ih =>
      rw [sink_draw]
      exact ih
  | leave role ticket _ ih =>
      rw [sink_leave]
      exact ih
  | shutAndDraw _ _ ih =>
      rw [sink_draw]
      exact ih
  | flush _ hflush ih =>
      rw [(sink_flush? hflush).1]
      exact ih
  | shutdown _ hshutdown ih =>
      rw [(unwritten_shutdown? hshutdown).accepted]
      exact ih
  | @write middle _ bytes hmiddle ih =>
      have hwrite : middle.writeAll bytes =
          ((middle.writeAll bytes).1, (middle.writeAll bytes).2) := rfl
      obtain ⟨taken, _, _, haccepted, _⟩ := exists_taken_of_writeAll hwrite
      rw [haccepted]
      exact ih.trans (List.prefix_append _ _)
  | _ => assumption

/-- The sink of a closed tunnel takes nothing more. -/
theorem accepted_eq_of_closed (hbecomes : Becomes may t after) (hclosed : t.isOpen = false) :
    after.sink.accepted = t.sink.accepted := by
  induction hbecomes with
  | refl => rfl
  | draw _ role _ ih => rw [sink_draw, ih]
  | leave role ticket _ ih => rw [sink_leave, ih]
  | shutAndDraw _ _ ih =>
      rw [sink_draw]
      exact ih
  | flush _ hflush ih => rw [(sink_flush? hflush).1, ih]
  | shutdown _ hshutdown ih => rw [(unwritten_shutdown? hshutdown).accepted, ih]
  | @write middle _ bytes hmiddle ih =>
      have hrefused : (middle.writeAll bytes).2.sink = middle.sink := by
        simp [writeAll, Sink.put, hmiddle.isOpen_eq_false hclosed]
      rw [hrefused, ih]
  | _ => assumption

/-- Where nobody draws a ticket and no wait ends, as many readers count as queued as before. -/
theorem queuedReaders_eq (hbecomes : Becomes may t after) (hdraws : ¬ may.draws)
    (hquits : ¬ may.quits) : after.queuedReaders = t.queuedReaders := by
  induction hbecomes with
  | refl => rfl
  | draw h => exact absurd h hdraws
  | unqueue h => exact absurd h hquits
  | leave role ticket _ ih => rw [queuedReaders_leave, ih]
  | flush _ hflush ih => rw [(sameButSink_flush? hflush).queuedReaders_eq, ih]
  | shutdown _ hshutdown ih => rw [(sameButSink_shutdown? hshutdown).queuedReaders_eq, ih]
  | _ => assumption

end Becomes

end Tunnel

/-! ## All tunnels at once -/

/-- Every tunnel becomes one under the same number. -/
structure EachBecomes (may : Nat → Tunnel.Rights) (tunnels after : List Tunnel) : Prop where
  length_eq : after.length = tunnels.length
  becomes : ∀ (number : Nat) (t : Tunnel), tunnels[number]? = some t →
    ∃ t' : Tunnel, after[number]? = some t' ∧
      t.Becomes (may number) t'

namespace EachBecomes

variable {may : Nat → Tunnel.Rights} {tunnels after last : List Tunnel} {number : Nat}
  {t t' : Tunnel}

theorem refl (tunnels : List Tunnel) : EachBecomes may tunnels tunnels where
  length_eq := rfl
  becomes := fun _ t ht => ⟨t, ht, .refl⟩

theorem trans (hfirst : EachBecomes may tunnels after)
    (hsecond : EachBecomes may after last) :
    EachBecomes may tunnels last where
  length_eq := hsecond.length_eq.trans hfirst.length_eq
  becomes := by
    intro number t ht
    obtain ⟨middle, hmiddle, hbecomes⟩ := hfirst.becomes number t ht
    obtain ⟨final, hfinal, hbecomes'⟩ := hsecond.becomes number middle hmiddle
    exact ⟨final, hfinal, hbecomes.trans hbecomes'⟩

theorem set (ht : tunnels[number]? = some t)
    (hbecomes : t.Becomes (may number) t') :
    EachBecomes may tunnels (tunnels.set number t') where
  length_eq := List.length_set
  becomes := by
    intro other found hfound
    by_cases heq : number = other
    · subst heq
      rw [ht] at hfound
      cases hfound
      exact ⟨t', getElem?_set_of_getElem? ht, hbecomes⟩
    · exact ⟨found, by rw [List.getElem?_set_ne heq, hfound], .refl⟩

theorem modify {f : Tunnel → Tunnel}
    (hf : ∀ t, tunnels[number]? = some t →
      t.Becomes (may number) (f t)) :
    EachBecomes may tunnels (tunnels.modify number f) := by
  cases ht : tunnels[number]? with
  | none =>
      rw [List.modify_eq_self (List.getElem?_eq_none_iff.mp ht)]
      exact .refl tunnels
  | some t =>
      rw [modify_eq_set_of_getElem? _ ht]
      exact .set ht (hf t ht)

/-- A sweep closes tunnels, for which it needs no right. -/
theorem closeEach (count : Nat) (numbers : List Nat) (tunnels : List Tunnel) :
    EachBecomes may tunnels (Sweep.closeEach count numbers tunnels).2 := by
  induction numbers generalizing tunnels with
  | nil => exact .refl tunnels
  | cons number rest ih =>
      unfold Sweep.closeEach
      split
      · exact ih tunnels
      next t ht =>
        have hclosed : EachBecomes may tunnels (tunnels.set number t.close.2) :=
          .set ht (.close t)
        split
        next result t' hclose =>
          rw [hclose] at hclosed
          exact hclosed.trans (ih _)
        next ticket t' hclose =>
          rw [hclose] at hclosed
          exact hclosed

theorem resume {s : Sweep} {progress : Sweep.Progress}
    (hresume : s.resume tunnels = some (progress, after)) :
    EachBecomes may tunnels after := by
  unfold Sweep.resume at hresume
  split at hresume
  · cases hresume
  next t ht =>
    have hclosed : EachBecomes may tunnels
        (tunnels.set s.tunnel (t.resumeClose s.ticket).2) := .set ht (.resumeClose _)
    split at hresume
    · cases hresume
    next result t' hclose =>
      rw [hclose] at hclosed
      have heach := hclosed.trans (closeEach s.count s.rest _)
      rw [Option.some.inj hresume] at heach
      exact heach

theorem leaveEach (h : Hub) (claims : List Claim) :
    EachBecomes may h.tunnels (h.leaveEach claims).tunnels := by
  induction claims generalizing h with
  | nil => exact .refl _
  | cons x rest ih =>
      have hleft : EachBecomes may h.tunnels
          (h.leave x.role ⟨x.tunnel, x.ticket⟩).tunnels :=
        modify fun t _ => Tunnel.Becomes.refl.leave x.role x.ticket
      exact hleft.trans (ih _)

theorem unqueue? (h : Hub) {awaited : Option Claim}
    (hquits : ∀ x, awaited = some x → (may x.tunnel).quits) :
    EachBecomes may h.tunnels (h.unqueue? awaited).tunnels := by
  cases awaited with
  | none => exact .refl _
  | some x => exact modify fun t _ => Tunnel.Becomes.refl.unqueue (hquits x rfl) x.role

/-- Seats are given back without any right; to leave a queue takes the right to quit. -/
theorem giveBack (h : Hub) (claims : List Claim) {awaited : Option Claim}
    (hquits : ∀ x, awaited = some x → (may x.tunnel).quits) :
    EachBecomes may h.tunnels (h.giveBack claims awaited).tunnels :=
  (unqueue? h hquits).trans (leaveEach _ claims)

end EachBecomes

/-! ## Calls and streams -/

namespace Call

/-- The call reads from the tunnel with this number by itself. -/
def readsFrom (c : Call) (number : Nat) : Prop :=
  (∃ deadline, c.task = some (.readSome number deadline)) ∨ c.task = some (.readInstruction number)

instance (c : Call) (number : Nat) : Decidable (c.readsFrom number) :=
  decidable_of_iff
    ((c.task.any fun
      | .readSome other _ | .readInstruction other => decide (other = number)
      | _ => false) = true) <| by
    unfold readsFrom
    cases c.task with
    | none => simp
    | some task => cases task <;> simp

/-- The call writes to the tunnel with this number by itself. -/
def writesTo (c : Call) (number : Nat) : Prop :=
  ∃ rest thenFlush, c.task = some (.write number rest thenFlush)

instance (c : Call) (number : Nat) : Decidable (c.writesTo number) :=
  decidable_of_iff
    ((c.task.any fun
      | .write other _ _ => decide (other = number)
      | _ => false) = true) <| by
    unfold writesTo
    cases c.task with
    | none => simp
    | some task => cases task <;> simp

/-- The call relays the body of its request to the tunnel with this number. -/
def relaysTo (c : Call) (number : Nat) : Prop :=
  ∃ ticket rest hold, c.task = some (.handle number (.relaying ticket rest) hold)

/-- The seat that a call waits for, with the number of the tunnel. -/
def awaitedSeat? (c : Call) : Option (Role × Nat) :=
  c.awaited?.map fun x => (x.role, x.tunnel)

/-- What the tasks without a ticket do, they do as no caller who waits. -/
theorem awaited?_of_claim?_none {c : Call} (hclaim : c.taskClaim? = none) : c.awaited? = none := by
  cases htask : c.task with
  | none => simp [awaited?, htask]
  | some task =>
      have hnone : task.claim? = none := by simpa [taskClaim?, htask] using hclaim
      simp [awaited?, htask, Task.awaited?, hnone]

end Call

/-- The action drops the running task. -/
def CallAction.dropsTask : CallAction → Bool
  | .abort | .release | .drop => true
  | _ => false

/-- The action asks for a seat. -/
def CallAction.seeksSeat : CallAction → Bool
  | .acquire _ _ | .request _ => true
  | .readSome | .readInstruction | .available | .writeAll _ | .writeInstruction _ | .flush
  | .shutdown | .close _ | .sweep _ | .keepSweeping _ _ | .stopSweeping | .upload _ _ | .pull
  | .abort | .release | .drop => false

def Move.seeksSeat : Move → Bool
  | .act (.call _ action) => action.seeksSeat
  | .act _ | .go _ | .takeNews => false

/-- The stream reads from the tunnel with this number. -/
def Stream.readsFrom (s : Stream) (number : Nat) : Prop :=
  s.tunnel = number ∧ ∃ deadline, s.phase = .reading deadline

section

variable {may : Tunnel.Rights} {t used : Tunnel} {number : Nat}

/-- Who reads needs the right to read, and who writes the right to write. -/
theorem Tunnel.Use.becomes {c : Call} (huse : t.Use number c.task used)
    (hreads : c.readsFrom number → may.reads) (hwrites : c.writesTo number → may.writes) :
    t.Becomes may used := by
  generalize htask : c.task = task at huse
  cases huse with
  | look => exact Becomes.refl.available
  | flush hflush => exact Becomes.refl.flush hflush
  | readSome deadline expired =>
      exact Becomes.refl.readSome (hreads (Or.inl ⟨deadline, htask⟩)) expired
  | readInstruction => exact Becomes.refl.readInstruction (hreads (Or.inr htask))
  | write rest thenFlush => exact Becomes.refl.write (hwrites ⟨rest, thenFlush, htask⟩) rest
  | shutdown hshutdown => exact Becomes.refl.shutdown hshutdown

theorem Tunnel.becomes_of_writeAll {bytes : List UInt8} {writing : Writing} (hwrites : may.writes)
    (hwrite : t.writeAll bytes = (writing, used)) : t.Becomes may used := by
  have hbecomes : t.Becomes may (t.writeAll bytes).2 := Becomes.refl.write hwrites bytes
  rw [hwrite] at hbecomes
  exact hbecomes

theorem Tunnel.becomes_of_readSome {expired : Bool} {outcome : Outcome Failure (List UInt8)}
    (hreads : may.reads) (hread : t.readSome expired = (outcome, used)) :
    t.Becomes may used := by
  have hbecomes : t.Becomes may (t.readSome expired).2 :=
    Becomes.refl.readSome hreads expired
  rw [hread] at hbecomes
  exact hbecomes

theorem Handling.Fails.becomes {u left : Upload} {rest : Option (List UInt8)} {failure : Failure}
    (hfails : Handling.Fails t u rest failure used left) (hwrites : may.writes) :
    t.Becomes may used := by
  cases hfails with
  | write _ hwrite => exact Tunnel.becomes_of_writeAll hwrites hwrite
  | body _ => exact .refl
  | flush _ _ hflush => exact Tunnel.Becomes.refl.flush hflush

/-- The handling of a request needs the right to write while it relays, and to quit while it waits.
-/
theorem Handling.Step.becomes {r : Registry} {u : Upload} {handling : Handling}
    {progress : Handling.Progress} {after : Handling.Surroundings}
    (hstep : handling.Step r t u progress after)
    (hwrites : ∀ ticket rest, handling = .relaying ticket rest → may.writes)
    (hquits : handling.isHolding = false → may.quits) :
    t.Becomes may after.tunnel := by
  cases hstep with
  | reads _ => exact Tunnel.Becomes.refl.unqueue (hquits rfl) .reader
  | writes _ => exact .refl
  | takes _ hwrite => exact Tunnel.becomes_of_writeAll (hwrites _ _ rfl) hwrite
  | blocks _ hwrite => exact Tunnel.becomes_of_writeAll (hwrites _ _ rfl) hwrite
  | fails hfails =>
      rw [Handling.failRelay_eq]
      exact ((hfails.becomes (hwrites _ _ rfl)).leave .writer _).trans (.close _)
  | finishes _ _ hflush => exact (Tunnel.Becomes.refl.flush hflush).leave .writer _
  | @closes ticket failure result closed hclose =>
      have hbecomes : t.Becomes may (t.resumeClose ticket).2 := .resumeClose ticket
      rw [hclose] at hbecomes
      exact hbecomes

theorem Stream.becomes_afterTeardown (s : Stream) (failure : Failure)
    (around : Stream.Surroundings) :
    around.tunnel.Becomes may (s.afterTeardown failure around).1.tunnel := by
  unfold Stream.afterTeardown
  split
  · exact .refl
  · exact Tunnel.Becomes.refl.leave .reader s.ticket

theorem Stream.becomes_fail (s : Stream) (failure : Failure) (around : Stream.Surroundings) :
    around.tunnel.Becomes may (s.fail failure around).1.tunnel := by
  rw [Stream.fail_eq]
  cases around.tunnel.close.1 with
  | done result =>
      exact (Tunnel.Becomes.close _).trans (s.becomes_afterTeardown failure
        ⟨around.registry.erase around.tunnel.identity.text, around.tunnel.close.2⟩)
  | waiting ticket => exact .close _

theorem Stream.GoesOn.becomes {s s' : Stream} {around after : Stream.Surroundings}
    (hgoesOn : s.GoesOn around after s') :
    around.tunnel.Becomes may after.tunnel := by
  rcases hgoesOn.tunnel with hsame | hlooked
  · rw [hsame]
    exact .refl
  · rw [hlooked]
    exact Tunnel.Becomes.refl.available

/-- A stream needs the right to read. -/
theorem Stream.Step.becomes {now : Nat} {s s' : Stream} {r : Registry} {after : Stream.Surroundings}
    (hstep : s.Step now r t after s') (hreads : s.readsFrom s.tunnel → may.reads) :
    t.Becomes may after.tunnel := by
  cases hstep with
  | idles hphase hread => exact Tunnel.becomes_of_readSome (hreads ⟨rfl, _, hphase⟩) hread
  | reads hphase hread hwrite =>
      exact (Tunnel.becomes_of_readSome (hreads ⟨rfl, _, hphase⟩) hread).trans hwrite.becomes
  | waits hphase hread => exact Tunnel.becomes_of_readSome (hreads ⟨rfl, _, hphase⟩) hread
  | @fails deadline failure read hphase hread =>
      exact (Tunnel.becomes_of_readSome (hreads ⟨rfl, _, hphase⟩) hread).trans
        (s.becomes_fail failure ⟨r, read⟩)
  | flushes _ _ _ hgoesOn => exact hgoesOn.becomes
  | leaves _ _ => exact Tunnel.Becomes.refl.leave .reader s.ticket
  | loses _ _ _ => exact s.becomes_fail .clientGone ⟨r, t⟩
  | @closes failure ticket result closed hphase hclose =>
      have hbecomes : t.Becomes may (t.resumeClose ticket).2 := .resumeClose ticket
      rw [hclose] at hbecomes
      exact hbecomes.trans (s.becomes_afterTeardown failure ⟨r, closed⟩)

end

namespace Hub

variable {h next : Hub} {i : Nat} {c : Call} {may : Nat → Tunnel.Rights}

/-- A call that drops its task may quit a queue. -/
theorem eachBecomes_abortTask (h : Hub) (i : Nat) (c : Call)
    (hquits : ∀ x, c.awaited? = some x → (may x.tunnel).quits) :
    EachBecomes may h.tunnels (h.abortTask i c).tunnels := by
  rw [abortTask_eq]
  exact .giveBack h _ hquits

theorem eachBecomes_releaseAll (h : Hub) (i : Nat) (c : Call)
    (hquits : ∀ x, c.awaited? = some x → (may x.tunnel).quits) :
    EachBecomes may h.tunnels (h.releaseAll i c).tunnels := by
  rw [releaseAll_eq]
  exact .giveBack h _ hquits

theorem eachBecomes_dropClient (h : Hub) (i : Nat) (c : Call)
    (hquits : ∀ x, c.awaited? = some x → (may x.tunnel).quits) :
    EachBecomes may h.tunnels (h.dropClient i c).tunnels := by
  have haborted : EachBecomes may h.tunnels (h.abortTask i c).tunnels :=
    eachBecomes_abortTask h i c hquits
  unfold dropClient
  dsimp only
  split
  next body _ => cases body <;> exact haborted
  · exact haborted

/-- A request draws a ticket at most. -/
theorem Starts.eachBecomes {r : Request} (hstarts : h.Starts i c r next)
    (hdraws : ∀ n, (may n).draws) : EachBecomes may h.tunnels next.tunnels := by
  cases hstarts with
  | waits _ _ _ ht => exact .set ht (Tunnel.Becomes.refl.draw (hdraws _) _)
  | _ => exact .refl _

theorem eachBecomes_takeProgress {number : Nat} {hold : Bool} {t : Tunnel}
    {progress : Handling.Progress} {after : Handling.Surroundings}
    (ht : h.tunnels[number]? = some t) (hbecomes : t.Becomes (may number) after.tunnel) :
    EachBecomes may h.tunnels (h.takeProgress i c number hold progress after).tunnels := by
  have hset : EachBecomes may h.tunnels (h.tunnels.set number after.tunnel) := .set ht hbecomes
  cases progress <;> exact hset

/-- A call reads, writes and relays only as it goes on with that task, and only those who want
a seat draw tickets. -/
theorem CallStep.eachBecomes {cause : Option CallAction} (hstep : CallStep h i c cause next)
    (hreads : ∀ n, cause = none → c.readsFrom n → (may n).reads)
    (hwrites : ∀ n, cause = none → c.writesTo n ∨ c.relaysTo n → (may n).writes)
    (hdraws : cause.any CallAction.seeksSeat = true → ∀ n, (may n).draws)
    (hquits : cause.all CallAction.dropsTask = true → ∀ x, c.awaited? = some x →
      (may x.tunnel).quits) :
    EachBecomes may h.tunnels next.tunnels := by
  cases hstep with
  | use ht huse hquiet =>
      exact .set ht (huse.becomes (hreads _ rfl) fun hwrite => hwrites _ rfl (Or.inl hwrite))
  | look ht huse hquiet =>
      cases huse with
      | look => exact .set ht Tunnel.Becomes.refl.available
  | draw role hidle ht => exact .set ht (Tunnel.Becomes.refl.draw (hdraws rfl _) role)
  | acquired htask ht hserving =>
      rw [unqueue_leave?_eq_giveBack]
      refine .giveBack h _ fun x hx => hquits rfl x ?_
      rw [← hx]
      simp [Call.awaited?, htask, Task.awaited?, Task.isHolding, Task.claim?]
  | close hidle ht => exact .set ht (.close _)
  | closeOn htask ht => exact .set ht (.resumeClose _)
  | sweep timeout hidle =>
      simp only [startSweep, keepSweep_eq]
      exact .closeEach _ _ _
  | sweepOn htask hresume =>
      rw [keepSweep_eq]
      exact .resume hresume
  | request hidle hfirst hstarts => exact hstarts.eachBecomes (hdraws rfl)
  | @handle number handling hold t progress after htask ht hstep =>
      refine eachBecomes_takeProgress ht (hstep.becomes ?_ ?_)
      · rintro ticket rest rfl
        exact hwrites number rfl (Or.inr ⟨ticket, rest, hold, htask⟩)
      · intro hwaiting
        refine hquits rfl (handling.claim number) ?_
        simp [Call.awaited?, htask, Task.awaited?, Task.isHolding, Task.claim?, hwaiting]
  | abort => exact eachBecomes_abortTask h i c (hquits rfl)
  | release => exact eachBecomes_releaseAll h i c (hquits rfl)
  | drop => exact eachBecomes_dropClient h i c (hquits rfl)
  | _ => exact .refl _

/-! ## Moves -/

/-- The move reads from the tunnel with this number. -/
def readsAt (h : Hub) (move : Move) (number : Nat) : Prop :=
  match move with
  | .go (.stream j) => ∃ s, h.streams[j]? = some s ∧ s.readsFrom number
  | .go (.call i) => ∃ c, h.calls[i]? = some c ∧ c.readsFrom number
  | .go (.sweeper _) | .act _ | .takeNews => False

/-- The move writes to the tunnel with this number. -/
def writesAt (h : Hub) (move : Move) (number : Nat) : Prop :=
  match move with
  | .go (.call i) => ∃ c, h.calls[i]? = some c ∧ (c.writesTo number ∨ c.relaysTo number)
  | .go (.stream _) | .go (.sweeper _) | .act _ | .takeNews => False

/-- The seat that a call waits for. -/
def seatOf? (h : Hub) (i : Nat) : Option (Role × Nat) :=
  h.calls[i]?.bind Call.awaitedSeat?

/-- The seat whose queue somebody goes from in a move, having been given the seat or not. -/
def goesFrom? (h : Hub) : Move → Option (Role × Nat)
  | .act (.call name action) =>
    if action.dropsTask then (h.withCall name).2.seatOf? (h.withCall name).1 else none
  | .go (.call i) => h.seatOf? i
  | .act _ | .go _ | .takeNews => none

/-- What a move may do to the tunnel with a number. -/
def rights (h : Hub) (move : Move) (number : Nat) : Tunnel.Rights where
  reads := h.readsAt move number
  writes := h.writesAt move number
  feeds := ∃ arrivals, move = .act (.feed number arrivals)
  draws := move.seeksSeat = true
  quits := ∃ role, h.goesFrom? move = some (role, number)

theorem tunnels_withCall (h : Hub) (name : String) : (h.withCall name).2.tunnels = h.tunnels := by
  unfold withCall
  split <;> rfl

/-- The step lemma for what is done from outside. -/
theorem eachBecomes_apply (h : Hub) (action : Action)
    (hopen : ∀ identity idleTimeout manner arrivals,
      action ≠ .open identity idleTimeout manner arrivals) :
    EachBecomes (h.rights (.act action)) h.tunnels (h.apply action).2.tunnels := by
  cases action with
  | «open» identity idleTimeout manner arrivals =>
      exact absurd rfl (hopen identity idleTimeout manner arrivals)
  | feed number arrivals =>
      have hfeeds : (h.rights (.act (.feed number arrivals)) number).feeds := ⟨arrivals, rfl⟩
      exact .modify fun t _ => Tunnel.Becomes.refl.feed hfeeds arrivals
  | setManner number manner => exact .modify fun t _ => Tunnel.Becomes.refl.treat manner
  | describe number shownAs =>
      unfold apply
      dsimp only
      split <;> exact .refl _
  | put identity number =>
      unfold apply
      dsimp only
      split <;> exact .refl _
  | get identity => exact .refl _
  | remove identity => exact .refl _
  | advance time => exact .refl _
  | call name action =>
      rw [← tunnels_withCall h name]
      rcases callStep_apply h name action with heq | ⟨c, hc, hstep⟩
      · rw [heq]
        exact .refl _
      · refine hstep.eachBecomes (fun _ hnone => by cases hnone) (fun _ hnone => by cases hnone)
          (fun hseeks _ => hseeks) fun hdrops x hx => ⟨x.role, ?_⟩
        have hdropped : action.dropsTask = true := hdrops
        simp [goesFrom?, seatOf?, Call.awaitedSeat?, hdropped, hc, hx]

theorem eachBecomes_resumeStream {j : Nat} (hnext : h.resumeStream j = some next) :
    EachBecomes (h.rights (.go (.stream j))) h.tunnels next.tunnels := by
  obtain ⟨s, s', t, after, hs, ht, hstep, rfl⟩ := streamStep_resumeStream hnext
  exact .set ht (hstep.becomes fun hreads => ⟨s, hs, hreads⟩)

/-- Sweepers need no right at all. -/
theorem eachBecomes_resumeSweeper {k : Nat} (hnext : h.resumeSweeper k = some next) :
    EachBecomes may h.tunnels next.tunnels := by
  obtain ⟨s, s', registry, tunnels, _, hstep, rfl⟩ := sweeperStep_resumeSweeper hnext
  cases hstep with
  | resumes _ _ hresume => exact .resume hresume
  | stops _ _ _ => exact .refl _
  | sweeps _ _ _ _ => exact .closeEach _ _ _

/-- What a move that opens no tunnel can do to the tunnels. -/
theorem eachBecomes_after? {move : Move} (hmove : h.after? move = some next)
    (hopen : ∀ identity idleTimeout manner arrivals,
      move ≠ .act (.open identity idleTimeout manner arrivals)) :
    EachBecomes (h.rights move) h.tunnels next.tunnels := by
  cases move with
  | act action =>
      cases hmove
      refine eachBecomes_apply h action ?_
      rintro identity idleTimeout manner arrivals rfl
      exact hopen _ _ _ _ rfl
  | go agent =>
      cases agent with
      | call i =>
          obtain ⟨c, hc, hstep⟩ := callStep_resumeCall hmove
          refine hstep.eachBecomes (fun n _ hreads => ⟨c, hc, hreads⟩)
            (fun n _ hwrites => ⟨c, hc, hwrites⟩) (fun hseeks => by cases hseeks)
            fun _ x hx => ⟨x.role, ?_⟩
          simp [goesFrom?, seatOf?, Call.awaitedSeat?, hc, hx]
      | stream j => exact eachBecomes_resumeStream hmove
      | sweeper k => exact eachBecomes_resumeSweeper hmove
  | takeNews =>
      cases hmove
      exact .refl _

/-- Along any move a tunnel keeps its number and becomes what the move may make of it. -/
theorem becomes_after? {move : Move} (hmove : h.after? move = some next) {number : Nat} {t : Tunnel}
    (ht : h.tunnels[number]? = some t) :
    ∃ t' : Tunnel, next.tunnels[number]? = some t' ∧ t.Becomes (h.rights move number) t' := by
  by_cases hopen : ∃ identity idleTimeout manner arrivals,
      move = .act (.open identity idleTimeout manner arrivals)
  · obtain ⟨identity, idleTimeout, manner, arrivals, rfl⟩ := hopen
    cases hmove
    refine ⟨t, ?_, .refl⟩
    exact (List.getElem?_append_left (List.getElem?_eq_some_iff.mp ht).1).trans ht
  · refine (eachBecomes_after? hmove ?_).becomes number t ht
    intro identity idleTimeout manner arrivals heq
    exact hopen ⟨identity, idleTimeout, manner, arrivals, heq⟩

/-- A tunnel comes about by being opened. -/
theorem opened_after? {move : Move} (hmove : h.after? move = some next) {number : Nat} {t : Tunnel}
    (hnone : h.tunnels[number]? = none) (ht : next.tunnels[number]? = some t) :
    ∃ identity idleTimeout manner arrivals, h.tunnels.length = number ∧
      move = .act (.open identity idleTimeout manner arrivals) ∧
      t = { identity, reader := ({ idleTimeout } : Reader).feed arrivals, sink := { manner } } := by
  by_cases hopen : ∃ identity idleTimeout manner arrivals,
      move = .act (.open identity idleTimeout manner arrivals)
  · obtain ⟨identity, idleTimeout, manner, arrivals, rfl⟩ := hopen
    cases hmove
    rcases getElem?_append_singleton ht with hold | ⟨_, heq⟩
    · rw [hnone] at hold
      cases hold
    · refine ⟨identity, idleTimeout, manner, arrivals, ?_, rfl, heq⟩
      have hlt := (List.getElem?_eq_some_iff.mp ht).1
      have hge := List.getElem?_eq_none_iff.mp hnone
      have hlength : (h.apply (.open identity idleTimeout manner arrivals)).2.tunnels.length =
          h.tunnels.length + 1 := List.length_append
      omega
  · have heach := eachBecomes_after? hmove fun identity idleTimeout manner arrivals heq =>
      hopen ⟨identity, idleTimeout, manner, arrivals, heq⟩
    have hlt := (List.getElem?_eq_some_iff.mp ht).1
    have hge := List.getElem?_eq_none_iff.mp hnone
    rw [heach.length_eq] at hlt
    omega

/-- The readers of all tunnels count only whole instructions as complete. -/
def HasSoundReaders (h : Hub) : Prop :=
  ∀ (number : Nat) (t : Tunnel), h.tunnels[number]? = some t → t.reader.Sound

/-- The step lemma: a tunnel that is there stays sound, and a new one begins so. -/
theorem HasSoundReaders.after? {move : Move} (hsound : h.HasSoundReaders)
    (hmove : h.after? move = some next) : next.HasSoundReaders := by
  intro number t' ht'
  cases ht : h.tunnels[number]? with
  | none =>
      obtain ⟨_, idleTimeout, _, arrivals, _, _, rfl⟩ := opened_after? hmove ht ht'
      have hfresh : ({ idleTimeout } : Reader).Sound := Reader.sound_of_complete_eq_zero rfl
      exact hfresh.feed arrivals
  | some t =>
      obtain ⟨found, hfound, hbecomes⟩ := becomes_after? hmove ht
      rw [ht'] at hfound
      cases hfound
      exact hbecomes.sound (hsound number t ht)

/-- The readers of all tunnels are sound in every run. -/
theorem hasSoundReaders_of_reaches (hreaches : Reaches {} h) : h.HasSoundReaders := by
  refine hreaches.invariant ?_ fun _ _ _ hsound hmove => hsound.after? hmove
  intro number t ht
  cases ht

end Hub

end LongPollTunnel
