import LongPollTunnel.Proofs.Wordings

/-! # Agents that do not mind a wording

What a request, a stream and a sweep do next is decided by other things than how the failures
inside are worded. Main statement: in alike hubs the same agents can go on, and the hubs are
alike again after that.
-/

namespace LongPollTunnel

/-! ## The handling of a request -/

namespace Handling

inductive Alike : Handling → Handling → Prop where
  | awaitReader (ticket : Nat) : Alike (.awaitReader ticket) (.awaitReader ticket)
  | awaitWriter (ticket : Nat) : Alike (.awaitWriter ticket) (.awaitWriter ticket)
  | relaying (ticket : Nat) (rest : Option (List UInt8)) :
      Alike (.relaying ticket rest) (.relaying ticket rest)
  | closing {f f' : Failure} (hfailure : f.Alike f') (ticket : Nat) :
      Alike (.closing f ticket) (.closing f' ticket)

theorem alike_refl (handling : Handling) : handling.Alike handling := by
  cases handling with
  | awaitReader ticket => exact .awaitReader ticket
  | awaitWriter ticket => exact .awaitWriter ticket
  | relaying ticket rest => exact .relaying ticket rest
  | closing failure ticket => exact .closing failure.alike_refl ticket

structure Surroundings.Alike (around around' : Surroundings) : Prop where
  registry : around.registry = around'.registry
  tunnel : around.tunnel.Alike around'.tunnel
  upload : around.upload.Alike around'.upload

/-- The handlings got alike far, and so is what they leave. A response is the same. -/
inductive Progress.Alike : Progress × Surroundings → Progress × Surroundings → Prop where
  | goOn {handling handling' : Handling} {after after' : Surroundings}
      (hhandling : handling.Alike handling') (hafter : after.Alike after') :
      Alike (.goOn handling, after) (.goOn handling', after')
  | answer (head : Head) {after after' : Surroundings} (hafter : after.Alike after') :
      Alike (.answer head, after) (.answer head, after')
  | stream (ticket : Nat) {after after' : Surroundings} (hafter : after.Alike after') :
      Alike (.stream ticket, after) (.stream ticket, after')

variable {around around' : Surroundings}

theorem Surroundings.Alike.withTunnel (halike : around.Alike around') {t t' : Tunnel}
    (htunnel : t.Alike t') :
    Surroundings.Alike { around with tunnel := t } { around' with tunnel := t' } :=
  { halike with tunnel := htunnel }

/-- Where a relay stands does not depend on a wording. -/
theorem Progress.Alike.eq_relaying {p p' : Progress × Surroundings}
    (halike : Progress.Alike p p') (ticket : Nat) (rest : Option (List UInt8)) :
    p.1 = .goOn (.relaying ticket rest) ↔ p'.1 = .goOn (.relaying ticket rest) := by
  cases halike with
  | goOn hhandling _ => cases hhandling <;> simp
  | answer head _ => exact Iff.rfl
  | stream place _ => exact Iff.rfl

/-- Relays that fail tear down and answer alike, however the failures are worded. -/
theorem alike_failRelay (ticket : Nat) {f f' : Failure} (hfailure : f.Alike f')
    (halike : around.Alike around') :
    Progress.Alike (failRelay ticket f around) (failRelay ticket f' around') := by
  have hclose := (halike.tunnel.leave .writer ticket).close
  rw [failRelay_eq, failRelay_eq, ← halike.registry, ← halike.tunnel.identity]
  generalize (around.tunnel.leave .writer ticket).close = closing,
    (around'.tunnel.leave .writer ticket).close = closing' at hclose
  cases hclose with
  | done hresult htunnel =>
      unfold afterClosing
      dsimp only
      rw [hfailure.ofFailure]
      exact .answer _ ⟨rfl, htunnel, halike.upload⟩
  | waiting place htunnel => exact .goOn (.closing hfailure place) ⟨rfl, htunnel, halike.upload⟩

/-- The writes of a relay are taken, refused or made to wait alike. -/
theorem alike_relayRest (ticket : Nat) (rest : List UInt8) (halike : around.Alike around') :
    Progress.Alike (relayRest ticket rest around) (relayRest ticket rest around') := by
  have hwrite := halike.tunnel.writeAll rest
  unfold relayRest
  generalize around.tunnel.writeAll rest = writing, around'.tunnel.writeAll rest = writing'
    at hwrite
  cases hwrite with
  | done htunnel => exact .goOn (.relaying ticket none) (halike.withTunnel htunnel)
  | failed hfailure htunnel =>
      exact alike_failRelay ticket (Failure.alike_of_server rfl rfl) (halike.withTunnel htunnel)
  | waiting left htunnel => exact .goOn (.relaying ticket left) (halike.withTunnel htunnel)

/-- Both relays wait for the flush, or neither does. -/
theorem alike_finishRelay (ticket : Nat) (halike : around.Alike around') :
    Option.Rel Progress.Alike (finishRelay ticket around) (finishRelay ticket around') := by
  have hflush := halike.tunnel.flush?
  unfold finishRelay
  generalize around.tunnel.flush? = flushed, around'.tunnel.flush? = flushed' at hflush
  cases hflush with
  | none => exact .none
  | @some flushed flushed' hdone =>
      obtain ⟨result, t⟩ := flushed
      obtain ⟨result', t'⟩ := flushed'
      obtain ⟨hresult, htunnel⟩ : Failure.AlikeResults result result' ∧ t.Alike t' := hdone
      cases hresult with
      | ok => exact .some (.answer .written (halike.withTunnel (htunnel.leave .writer ticket)))
      | error hfailure =>
          exact .some (alike_failRelay ticket (Failure.alike_of_server rfl rfl)
            (halike.withTunnel htunnel))

/-- Bodies that are alike bring the same part next, or are broken there both. -/
theorem alike_relayNext (ticket : Nat) (halike : around.Alike around') :
    Option.Rel Progress.Alike (relayNext ticket around) (relayNext ticket around') := by
  have hparts := halike.upload.parts
  unfold relayNext
  rw [← halike.upload.isOpen]
  generalize around.upload.parts = parts, around'.upload.parts = parts' at hparts
  cases hparts with
  | nil =>
      dsimp only
      split
      · exact .none
      · exact alike_finishRelay ticket halike
  | cons hpart hrest =>
      cases hpart with
      | chunk bytes =>
          exact .some (alike_relayRest ticket bytes
            { halike with upload := ⟨hrest, halike.upload.isOpen⟩ })
      | broken fault fault' =>
          exact .some (alike_failRelay ticket (Failure.alike_of_server rfl rfl)
            { halike with upload := ⟨hrest, halike.upload.isOpen⟩ })

/-- Alike requests go on alike. -/
theorem Alike.step {handling handling' : Handling} (hhandling : handling.Alike handling')
    (halike : around.Alike around') :
    Option.Rel Progress.Alike (handling.step around) (handling'.step around') := by
  cases hhandling with
  | awaitReader ticket =>
      unfold Handling.step
      dsimp only
      rw [← halike.tunnel.readerSeat]
      split
      · exact .some (.stream ticket (halike.withTunnel (halike.tunnel.unqueue .reader)))
      · exact .none
  | awaitWriter ticket =>
      unfold Handling.step
      dsimp only
      rw [← halike.tunnel.writerSeat]
      split
      · exact .some (.goOn (.relaying ticket none) halike)
      · exact .none
  | relaying ticket rest =>
      cases rest with
      | none => exact alike_relayNext ticket halike
      | some rest =>
          have hrelay := alike_relayRest ticket rest halike
          have hstays := hrelay.eq_relaying ticket (some rest)
          unfold Handling.step
          dsimp only
          simp only [hstays]
          split
          · exact .none
          · exact .some hrelay
  | closing hfailure ticket =>
      have hclose := halike.tunnel.resumeClose ticket
      unfold Handling.step
      dsimp only
      rw [hfailure.ofFailure]
      generalize around.tunnel.resumeClose ticket = closing,
        around'.tunnel.resumeClose ticket = closing' at hclose
      cases hclose with
      | done hresult htunnel => exact .some (.answer _ (halike.withTunnel htunnel))
      | waiting place htunnel => exact .none

theorem Alike.abandon {handling handling' : Handling} (hhandling : handling.Alike handling')
    {t t' : Tunnel} (htunnel : t.Alike t') :
    (handling.abandon t).Alike (handling'.abandon t') := by
  cases hhandling with
  | awaitReader ticket => exact (htunnel.unqueue .reader).leave .reader ticket
  | awaitWriter ticket => exact htunnel.leave .writer ticket
  | relaying ticket rest => exact htunnel.leave .writer ticket
  | closing hfailure ticket => exact htunnel.leave .writer ticket

end Handling

/-! ## Streams -/

namespace Stream

inductive Phase.Alike : Phase → Phase → Prop where
  | reading (deadline : Option Nat) : Alike (.reading deadline) (.reading deadline)
  | flushing (next : Next) : Alike (.flushing next) (.flushing next)
  | closing {f f' : Failure} (hfailure : f.Alike f') (ticket : Nat) :
      Alike (.closing f ticket) (.closing f' ticket)
  | ended : Alike .ended .ended

/-- The streams have written the same. -/
structure Alike (s s' : Stream) : Prop where
  tunnel : s.tunnel = s'.tunnel
  ticket : s.ticket = s'.ticket
  phase : s.phase.Alike s'.phase
  outlet : s.outlet = s'.outlet

structure Surroundings.Alike (around around' : Surroundings) : Prop where
  registry : around.registry = around'.registry
  tunnel : around.tunnel.Alike around'.tunnel

/-- The streams are alike, and so is what they leave. -/
structure AlikeAfter (p p' : Surroundings × Stream) : Prop where
  around : p.1.Alike p'.1
  stream : p.2.Alike p'.2

variable {s s' : Stream} {around around' : Surroundings}

theorem Alike.enter (halike : s.Alike s') {phase phase' : Phase} (hphase : phase.Alike phase') :
    Stream.Alike { s with phase } { s' with phase := phase' } :=
  { halike with phase := hphase }

theorem Alike.withOutlet (halike : s.Alike s') (outlet : Outlet) :
    Stream.Alike { s with outlet } { s' with outlet } :=
  { halike with outlet := rfl }

/-- A stream starts the same at tunnels that are alike. -/
theorem alike_start {now now' : Nat} (hnow : now = now') (number ticket : Nat) {t t' : Tunnel}
    (htunnel : t.Alike t') :
    (start now number ticket t).Alike (start now' number ticket t') := by
  refine ⟨rfl, rfl, ?_, rfl⟩
  rw [start, start, deadline, deadline, hnow, htunnel.reader.idleTimeout]
  exact .reading _

theorem Alike.finish (halike : s.Alike s') : s.finish.Alike s'.finish where
  tunnel := halike.tunnel
  ticket := halike.ticket
  phase := .flushing .leave
  outlet := congrArg Outlet.terminate halike.outlet

theorem Alike.leave (halike : s.Alike s') (haround : around.Alike around') :
    AlikeAfter (s.leave around) (s'.leave around') := by
  unfold Stream.leave
  rw [← halike.ticket, ← halike.outlet]
  exact ⟨{ haround with tunnel := haround.tunnel.leave .reader s.ticket },
    halike.tunnel, rfl, .ended, rfl⟩

/-- Only whether the failure is a closed connection counts here, which alike failures agree on. -/
theorem Alike.afterTeardown (halike : s.Alike s') {f f' : Failure} (hfailure : f.Alike f')
    (haround : around.Alike around') :
    AlikeAfter (s.afterTeardown f around) (s'.afterTeardown f' around') := by
  unfold Stream.afterTeardown
  rw [← hfailure.isClosed, ← halike.outlet]
  split
  · exact ⟨haround, halike.finish⟩
  · exact halike.leave haround

/-- Failures that are alike tear down alike. -/
theorem Alike.fail (halike : s.Alike s') {f f' : Failure} (hfailure : f.Alike f')
    (haround : around.Alike around') :
    AlikeAfter (s.fail f around) (s'.fail f' around') := by
  have hclose := haround.tunnel.close
  rw [fail_eq, fail_eq, ← haround.registry, ← haround.tunnel.identity]
  generalize around.tunnel.close = closing, around'.tunnel.close = closing' at hclose
  cases hclose with
  | done hresult htunnel => exact halike.afterTeardown hfailure ⟨rfl, htunnel⟩
  | waiting ticket htunnel => exact ⟨⟨rfl, htunnel⟩, halike.enter (.closing hfailure ticket)⟩

/-- Who gives way looks at the count of readers alone. -/
theorem Alike.yield (now : Nat) (halike : s.Alike s') (haround : around.Alike around') :
    AlikeAfter (s.yield now around) (s'.yield now around') := by
  unfold Stream.yield deadline
  rw [← haround.tunnel.hasQueuedReader, ← haround.tunnel.reader.idleTimeout]
  split
  · exact ⟨haround, halike.finish⟩
  · exact ⟨haround, halike.enter (.reading _)⟩

/-- What a look ahead answers does not tell one wording from another. -/
theorem Alike.lookAhead (now : Nat) (halike : s.Alike s') (haround : around.Alike around') :
    AlikeAfter (s.lookAhead now around) (s'.lookAhead now around') := by
  obtain ⟨hanswer, htunnel⟩ := haround.tunnel.available
  unfold Stream.lookAhead
  generalize around.tunnel.available = looked, around'.tunnel.available = looked'
    at hanswer htunnel
  obtain ⟨answer, t⟩ := looked
  obtain ⟨answer', t'⟩ := looked'
  cases hanswer
  cases answer with
  | true => exact halike.yield now { haround with tunnel := htunnel }
  | false => exact ⟨{ haround with tunnel := htunnel }, halike.enter (.flushing .yield)⟩

/-- The batch is the same, so the outlet is. -/
theorem Alike.write (now : Nat) (halike : s.Alike s') (batch : List UInt8)
    (haround : around.Alike around') :
    AlikeAfter (s.write now batch around) (s'.write now batch around') := by
  unfold Stream.write
  rw [← halike.outlet]
  have hwritten := halike.withOutlet (s.outlet.write batch)
  dsimp only
  split
  · exact ⟨haround, hwritten.enter (.flushing .lookAhead)⟩
  · exact hwritten.lookAhead now haround

/-- After a flush the streams go on with the same thing. -/
theorem Alike.flushed (now : Nat) (halike : s.Alike s') (next : Next)
    (haround : around.Alike around') :
    AlikeAfter (s.flushed now next around) (s'.flushed now next around') := by
  cases next with
  | lookAhead => exact halike.lookAhead now haround
  | yield => exact halike.yield now haround
  | leave => exact halike.leave haround

/-- Both tunnels are torn down, unless the responses were at their end anyway. -/
theorem Alike.undelivered (halike : s.Alike s') (next : Next) (haround : around.Alike around') :
    AlikeAfter (s.undelivered next around) (s'.undelivered next around') := by
  cases next with
  | lookAhead => exact halike.fail (Failure.alike_refl _) haround
  | yield => exact halike.fail (Failure.alike_refl _) haround
  | leave => exact halike.leave haround

/-- Alike streams go on alike. -/
theorem Alike.step {now now' : Nat} (hnow : now = now') (halike : s.Alike s')
    (haround : around.Alike around') :
    Option.Rel AlikeAfter (s.step now around) (s'.step now' around') := by
  subst hnow
  have hphase := halike.phase
  unfold Stream.step
  generalize s.phase = phase, s'.phase = phase' at hphase
  cases hphase with
  | reading deadline =>
      have hread :=
        haround.tunnel.readSome (deadline.any fun time => decide (time ≤ now))
      dsimp only
      rw [← haround.tunnel.reader.isEmpty_source]
      generalize around.tunnel.readSome _ = read, around'.tunnel.readSome _ = read' at hread
      cases hread with
      | done batch htunnel =>
          cases batch with
          | nil => exact .some ⟨{ haround with tunnel := htunnel }, halike.finish⟩
          | cons byte bytes =>
              exact .some (halike.write now (byte :: bytes) { haround with tunnel := htunnel })
      | failed hfailure htunnel =>
          exact .some (halike.fail hfailure { haround with tunnel := htunnel })
      | waiting htunnel =>
          dsimp only
          split
          · exact .none
          · exact .some ⟨{ haround with tunnel := htunnel }, halike⟩
  | flushing next =>
      dsimp only
      rw [← halike.outlet]
      split
      · exact .some ((halike.withOutlet _).flushed now next haround)
      · exact .some (halike.undelivered next haround)
      · exact .none
  | closing hfailure ticket =>
      have hclose := haround.tunnel.resumeClose ticket
      dsimp only
      generalize around.tunnel.resumeClose ticket = closing,
        around'.tunnel.resumeClose ticket = closing' at hclose
      cases hclose with
      | done hresult htunnel =>
          exact .some (halike.afterTeardown hfailure { haround with tunnel := htunnel })
      | waiting place htunnel => exact .none
  | ended => exact .none

end Stream

/-! ## Related lists and options -/

section

variable {α β γ δ : Type} {R : α → β → Prop} {S : γ → δ → Prop}

/-- The rule that what goes on in several steps is chained by. -/
theorem rel_bind {first : Option α} {first' : Option β} (hfirst : Option.Rel R first first')
    {rest : α → Option γ} {rest' : β → Option δ}
    (hrest : ∀ a b, R a b → Option.Rel S (rest a) (rest' b)) :
    Option.Rel S (first >>= rest) (first' >>= rest') := by
  cases hfirst with
  | some hrel => exact hrest _ _ hrel
  | none => exact .none

theorem rel_of_eq {first first' : Option α} (heq : first = first') :
    Option.Rel (· = ·) first first' := by
  subst heq
  cases first with
  | some a => exact .some rfl
  | none => exact .none

variable {l : List α} {l' : List β}

/-- Related lists have related entries at every place, or none both. -/
theorem rel_getElem? (hrel : List.Forall₂ R l l') (j : Nat) : Option.Rel R l[j]? l'[j]? := by
  induction hrel generalizing j with
  | nil => exact .none
  | cons hhead _ ih =>
      cases j with
      | zero => exact .some hhead
      | succ j => exact ih j

theorem rel_set (hrel : List.Forall₂ R l l') (j : Nat) {a : α} {b : β} (hab : R a b) :
    List.Forall₂ R (l.set j a) (l'.set j b) := by
  induction hrel generalizing j with
  | nil => exact .nil
  | cons hhead htail ih =>
      cases j with
      | zero => exact .cons hab htail
      | succ j => exact .cons hhead (ih j)

theorem rel_modify (hrel : List.Forall₂ R l l') (j : Nat) {f : α → α} {g : β → β}
    (hfg : ∀ a b, R a b → R (f a) (g b)) : List.Forall₂ R (l.modify j f) (l'.modify j g) := by
  induction hrel generalizing j with
  | nil =>
      rw [List.modify_nil, List.modify_nil]
      exact .nil
  | cons hhead htail ih =>
      cases j with
      | zero => exact .cons (hfg _ _ hhead) htail
      | succ j => exact .cons hhead (ih j)

end

/-! ## Alike hubs -/

/-- The events are the same, or tell of failures that are alike. -/
inductive Event.Alike : Event → Event → Prop where
  | same (event : Event) : Alike event event
  | failed {f f' : Failure} (hfailure : f.Alike f') : Alike (.failed f) (.failed f')

inductive Task.Alike : Task → Task → Prop where
  | same (task : Task) : Alike task task
  | handle (number : Nat) {handling handling' : Handling} (hhandling : handling.Alike handling')
      (hold : Bool) : Alike (.handle number handling hold) (.handle number handling' hold)

structure Call.Alike (c c' : Call) : Prop where
  name : c.name = c'.name
  task : Option.Rel Task.Alike c.task c'.task
  readerHold : c.readerHold = c'.readerHold
  writerHold : c.writerHold = c'.writerHold
  hasRequested : c.hasRequested = c'.hasRequested
  upload : c.upload.Alike c'.upload
  body : c.body = c'.body
  wantsNoSweeps : c.wantsNoSweeps = c'.wantsNoSweeps
  events : List.Forall₂ Event.Alike c.events c'.events

structure Hub.Alike (h h' : Hub) : Prop where
  clock : h.clock = h'.clock
  now : h.now = h'.now
  registry : h.registry = h'.registry
  tunnels : List.Forall₂ Tunnel.Alike h.tunnels h'.tunnels
  streams : List.Forall₂ Stream.Alike h.streams h'.streams
  sweepers : h.sweepers = h'.sweepers
  calls : List.Forall₂ Call.Alike h.calls h'.calls

/-- Results that are alike are told alike. -/
theorem Event.alike_ofResult {result result' : Except Failure Unit}
    (hresult : Failure.AlikeResults result result') :
    (ofResult result).Alike (ofResult result') := by
  cases hresult with
  | ok => exact .same .succeeded
  | error hfailure => exact .failed hfailure

namespace Call

variable {c c' : Call}

theorem Alike.tell (halike : c.Alike c') {event event' : Event} (hevent : event.Alike event') :
    (c.tell event).Alike (c'.tell event') :=
  { halike with events := List.rel_append halike.events (.cons hevent .nil) }

theorem Alike.withTask (halike : c.Alike c') {task task' : Option Task}
    (htask : Option.Rel Task.Alike task task') :
    Call.Alike { c with task } { c' with task := task' } :=
  { halike with task := htask }

theorem Alike.assign (halike : c.Alike c') {task task' : Task} (htask : task = task') :
    Call.Alike { c with task := some task } { c' with task := some task' } := by
  subst htask
  exact halike.withTask (.some (.same task))

theorem Alike.finish (halike : c.Alike c') {event event' : Event} (hevent : event.Alike event') :
    (c.finish event).Alike (c'.finish event') :=
  (halike.tell hevent).withTask .none

/-- What a call holds does not depend on any wording. -/
theorem Alike.hold (halike : c.Alike c') (role : Role) : c.hold role = c'.hold role := by
  cases role with
  | reader => exact halike.readerHold
  | writer => exact halike.writerHold

theorem Alike.setHold (halike : c.Alike c') (role : Role) (hold : Option Hold) :
    (c.setHold role hold).Alike (c'.setHold role hold) := by
  cases role with
  | reader => exact { halike with readerHold := rfl }
  | writer => exact { halike with writerHold := rfl }

/-- Both calls are given one and the same head. -/
theorem Alike.answered (halike : c.Alike c') (head : Head) (body : Body) (hold : Bool) :
    (c.answered head body hold).Alike (c'.answered head body hold) := by
  have htold := halike.tell (.same (.head head))
  cases hold with
  | true => exact { htold with body := rfl, task := .none }
  | false => exact { htold with body := rfl, task := .some (.same _) }

theorem Alike.takeSweep (halike : c.Alike c') (progress : Sweep.Progress) :
    (c.takeSweep progress).Alike (c'.takeSweep progress) := by
  cases progress with
  | done count => exact halike.finish (.same _)
  | waiting sweep => exact halike.assign rfl

/-- Both calls run a task, or none does. -/
theorem Alike.isBusy (halike : c.Alike c') : c.isBusy = c'.isBusy := by
  have htask := halike.task
  unfold Call.isBusy
  generalize c.task = task, c'.task = task' at htask
  cases htask <;> rfl

end Call

namespace Hub

variable {h h' : Hub} {c c' : Call}

theorem Alike.setTunnel (halike : h.Alike h') (number : Nat) {t t' : Tunnel} (ht : t.Alike t') :
    (h.setTunnel number t).Alike (h'.setTunnel number t') :=
  { halike with tunnels := rel_set halike.tunnels number ht }

theorem Alike.setCall (halike : h.Alike h') (i : Nat) (hc : c.Alike c') :
    (h.setCall i c).Alike (h'.setCall i c') :=
  { halike with calls := rel_set halike.calls i hc }

theorem Alike.withTunnels (halike : h.Alike h') {tunnels tunnels' : List Tunnel}
    (htunnels : List.Forall₂ Tunnel.Alike tunnels tunnels') :
    Hub.Alike { h with tunnels } { h' with tunnels := tunnels' } :=
  { halike with tunnels := htunnels }

theorem Alike.withStreams (halike : h.Alike h') {streams streams' : List Stream}
    (hstreams : List.Forall₂ Stream.Alike streams streams') :
    Hub.Alike { h with streams } { h' with streams := streams' } :=
  { halike with streams := hstreams }

theorem Alike.withRegistry (halike : h.Alike h') {registry registry' : Registry}
    (hregistry : registry = registry') :
    Hub.Alike { h with registry } { h' with registry := registry' } :=
  { halike with registry := hregistry }

theorem Alike.withSweepers (halike : h.Alike h') {sweepers sweepers' : List Sweeper}
    (hsweepers : sweepers = sweepers') :
    Hub.Alike { h with sweepers } { h' with sweepers := sweepers' } :=
  { halike with sweepers := hsweepers }

theorem Alike.leave (halike : h.Alike h') (role : Role) (hold : Hold) :
    (h.leave role hold).Alike (h'.leave role hold) :=
  halike.withTunnels
    (rel_modify halike.tunnels hold.tunnel fun _ _ ht => ht.leave role hold.ticket)

theorem Alike.leave? (halike : h.Alike h') (role : Role) (hold : Option Hold) :
    (h.leave? role hold).Alike (h'.leave? role hold) := by
  cases hold with
  | none => exact halike
  | some hold => exact halike.leave role hold

theorem Alike.unqueue (halike : h.Alike h') (role : Role) (number : Nat) :
    (h.unqueue role number).Alike (h'.unqueue role number) :=
  halike.withTunnels (rel_modify halike.tunnels number fun _ _ ht => ht.unqueue role)

theorem Alike.abandon (halike : h.Alike h') {task task' : Task} (htask : task.Alike task') :
    (h.abandon task).Alike (h'.abandon task') := by
  cases htask with
  | same =>
      cases task with
      | acquire role hold => exact (halike.unqueue role hold.tunnel).leave role hold
      | close hold => exact halike.leave .writer hold
      | sweep sweep => exact halike.leave .writer _
      | handle number handling hold =>
          exact halike.withTunnels
            (rel_modify halike.tunnels number fun _ _ ht => handling.alike_refl.abandon ht)
      | readSome | readInstruction | write | flush | shutdown | watch | readBody => exact halike
  | handle number hhandling hold =>
      exact halike.withTunnels
        (rel_modify halike.tunnels number fun _ _ ht => hhandling.abandon ht)

/-- The same stream loses its client. -/
theorem Alike.dropBody (halike : h.Alike h') (body : Body) :
    (h.dropBody body).Alike (h'.dropBody body) := by
  cases body with
  | empty => exact halike
  | text bytes => exact halike
  | stream number =>
      exact { halike with
        streams := rel_modify halike.streams number fun _ _ hs =>
          { hs with outlet := by rw [hs.outlet] } }

end Hub

/-! ## Sweeps -/

section

variable {tunnels tunnels' : List Tunnel}

/-- A sweep judges a tunnel by other things. -/
theorem Registry.judge_eq_of_alike (htunnels : List.Forall₂ Tunnel.Alike tunnels tunnels')
    (now timeout : Nat) : judge tunnels now timeout = judge tunnels' now timeout := by
  funext e
  have ht := rel_getElem? htunnels e.tunnel
  unfold judge
  generalize tunnels[e.tunnel]? = t, tunnels'[e.tunnel]? = t' at ht
  cases ht with
  | none => rfl
  | some ht =>
      dsimp only
      rw [ht.isOpen, ht.isInUse]

/-- Both sweeps close the same tunnels, and wait for the same one. -/
theorem Sweep.alike_closeEach (count : Nat) (rest : List Nat)
    (htunnels : List.Forall₂ Tunnel.Alike tunnels tunnels') :
    (closeEach count rest tunnels).1 = (closeEach count rest tunnels').1 ∧
      List.Forall₂ Tunnel.Alike (closeEach count rest tunnels).2
        (closeEach count rest tunnels').2 := by
  induction rest generalizing tunnels tunnels' with
  | nil => exact ⟨rfl, htunnels⟩
  | cons number rest ih =>
      have ht := rel_getElem? htunnels number
      unfold closeEach
      generalize tunnels[number]? = t, tunnels'[number]? = t' at ht
      cases ht with
      | none => exact ih htunnels
      | @some t t' ht =>
          have hclose := ht.close
          dsimp only
          generalize t.close = closing, t'.close = closing' at hclose
          cases hclose with
          | done _ hafter => exact ih (rel_set htunnels number hafter)
          | waiting ticket hafter => exact ⟨rfl, rel_set htunnels number hafter⟩

/-- A sweep takes out and marks the same entries: when a tunnel was used and whether it is in use
are no matter of wording. -/
theorem Sweep.alike_start {registry registry' : Registry} (hregistry : registry = registry')
    {now now' : Nat} (hnow : now = now') (timeout : Nat)
    (htunnels : List.Forall₂ Tunnel.Alike tunnels tunnels') :
    (start registry tunnels now timeout).1 = (start registry' tunnels' now' timeout).1 ∧
      (start registry tunnels now timeout).2.1 = (start registry' tunnels' now' timeout).2.1 ∧
      List.Forall₂ Tunnel.Alike (start registry tunnels now timeout).2.2
        (start registry' tunnels' now' timeout).2.2 := by
  subst hregistry hnow
  have hsweep : registry.sweep tunnels now timeout = registry.sweep tunnels' now timeout := by
    unfold Registry.sweep
    rw [Registry.judge_eq_of_alike htunnels]
  unfold start
  rw [hsweep]
  have hclose := alike_closeEach (registry.sweep tunnels' now timeout).1.length
    ((registry.sweep tunnels' now timeout).1.map (·.tunnel)) htunnels
  exact ⟨hclose.1, rfl, hclose.2⟩

/-- Both sweeps wait, or go on alike. -/
theorem Sweep.alike_resume (s : Sweep) (htunnels : List.Forall₂ Tunnel.Alike tunnels tunnels') :
    Option.Rel
      (fun (p p' : Progress × List Tunnel) => p.1 = p'.1 ∧ List.Forall₂ Tunnel.Alike p.2 p'.2)
      (s.resume tunnels) (s.resume tunnels') := by
  have ht := rel_getElem? htunnels s.tunnel
  unfold resume
  generalize tunnels[s.tunnel]? = t, tunnels'[s.tunnel]? = t' at ht
  cases ht with
  | none => exact .none
  | @some t t' ht =>
      have hclose := ht.resumeClose s.ticket
      dsimp only
      generalize t.resumeClose s.ticket = closing, t'.resumeClose s.ticket = closing' at hclose
      cases hclose with
      | done _ hafter => exact .some (alike_closeEach _ _ (rel_set htunnels s.tunnel hafter))
      | waiting ticket hafter => exact .none

/-- A sweeper is due at the same time for both. -/
theorem Sweeper.alike_step {clock clock' now now' : Nat} (hclock : clock = clock')
    (hnow : now = now') (s : Sweeper) {registry registry' : Registry}
    (hregistry : registry = registry')
    (htunnels : List.Forall₂ Tunnel.Alike tunnels tunnels') :
    Option.Rel
      (fun (p p' : Sweeper × Registry × List Tunnel) =>
        p.1 = p'.1 ∧ p.2.1 = p'.2.1 ∧ List.Forall₂ Tunnel.Alike p.2.2 p'.2.2)
      (s.step clock now registry tunnels) (s.step clock' now' registry' tunnels') := by
  subst hclock hnow hregistry
  unfold step
  split
  · exact .none
  · split
    next sweep _ =>
      have hresume := sweep.alike_resume htunnels
      generalize sweep.resume tunnels = resumed, sweep.resume tunnels' = resumed' at hresume
      cases hresume with
      | none => exact .none
      | some hresumed =>
          obtain ⟨hprogress, hafter⟩ := hresumed
          exact .some ⟨congrArg s.keep hprogress, rfl, hafter⟩
    · split
      · exact .some ⟨rfl, rfl, htunnels⟩
      · split
        · obtain ⟨hprogress, hregistry, hafter⟩ :=
            Sweep.alike_start (rfl : registry = registry) (rfl : now = now) s.timeout htunnels
          exact .some ⟨congrArg (Sweeper.keep { s with due := s.due + s.interval }) hprogress,
            hregistry, hafter⟩
        · exact .none

end

namespace Hub

variable {h h' : Hub} {c c' : Call}

/-! ## How the agents go on -/

theorem Alike.resumeAcquire (halike : h.Alike h') (i : Nat) (hc : c.Alike c') (role : Role)
    (hold : Hold) :
    Option.Rel Hub.Alike (h.resumeAcquire i c role hold) (h'.resumeAcquire i c' role hold) := by
  refine rel_bind (rel_getElem? halike.tunnels hold.tunnel) fun t t' ht => ?_
  rw [← ht.seat role, ← hc.hold role]
  split
  · exact .some (((halike.unqueue role hold.tunnel).leave? role _).setCall i ((hc.setHold role _).finish (.same _)))
  · exact .none

theorem Alike.resumeReadSome (halike : h.Alike h') (i : Nat) (hc : c.Alike c') (number : Nat)
    (deadline : Option Nat) :
    Option.Rel Hub.Alike (h.resumeReadSome i c number deadline)
      (h'.resumeReadSome i c' number deadline) := by
  refine rel_bind (rel_getElem? halike.tunnels number) fun t t' ht => ?_
  have hread := ht.readSome (deadline.any fun time => decide (time ≤ h.clock))
  rw [← halike.clock, ← ht.reader.isEmpty_source]
  generalize t.readSome _ = read, t'.readSome _ = read' at hread
  cases hread with
  | done bytes hafter =>
      exact .some ((halike.setTunnel number hafter).setCall i (hc.finish (.same _)))
  | failed hfailure hafter =>
      exact .some ((halike.setTunnel number hafter).setCall i (hc.finish (.failed hfailure)))
  | waiting hafter =>
      dsimp only
      split
      · exact .none
      · exact .some (halike.setTunnel number hafter)

theorem Alike.resumeReadInstruction (halike : h.Alike h') (i : Nat) (hc : c.Alike c')
    (number : Nat) :
    Option.Rel Hub.Alike (h.resumeReadInstruction i c number)
      (h'.resumeReadInstruction i c' number) := by
  refine rel_bind (rel_getElem? halike.tunnels number) fun t t' ht => ?_
  have hread := ht.readInstruction
  rw [← ht.reader.isEmpty_source]
  generalize t.readInstruction = read, t'.readInstruction = read' at hread
  cases hread with
  | done instruction hafter =>
      exact .some ((halike.setTunnel number hafter).setCall i (hc.finish (.same _)))
  | failed hfailure hafter =>
      exact .some ((halike.setTunnel number hafter).setCall i (hc.finish (.failed hfailure)))
  | waiting hafter =>
      dsimp only
      split
      · exact .none
      · exact .some (halike.setTunnel number hafter)

theorem Alike.finishWrite (halike : h.Alike h') (i : Nat) (hc : c.Alike c') (number : Nat)
    (thenFlush : Bool) :
    (h.finishWrite i c number thenFlush).Alike (h'.finishWrite i c' number thenFlush) := by
  unfold Hub.finishWrite
  split
  · exact halike.setCall i (hc.assign rfl)
  · exact halike.setCall i (hc.finish (.same _))

/-- Both writes go on, fail or wait. -/
theorem Alike.resumeWrite (halike : h.Alike h') (i : Nat) (hc : c.Alike c') (number : Nat)
    (rest : List UInt8) (thenFlush : Bool) :
    Option.Rel Hub.Alike (h.resumeWrite i c number rest thenFlush)
      (h'.resumeWrite i c' number rest thenFlush) := by
  refine rel_bind (rel_getElem? halike.tunnels number) fun t t' ht => ?_
  have hwrite := ht.writeAll rest
  generalize t.writeAll rest = writing, t'.writeAll rest = writing' at hwrite
  cases hwrite with
  | done hafter =>
      exact .some ((halike.setTunnel number hafter).finishWrite i hc number thenFlush)
  | failed hfailure hafter =>
      exact .some ((halike.setTunnel number hafter).setCall i (hc.finish (.failed hfailure)))
  | waiting left hafter =>
      dsimp only
      split
      · exact .none
      · exact .some ((halike.setTunnel number hafter).setCall i (hc.assign rfl))

/-- Both flushes are over, or neither is. -/
theorem Alike.resumeFlush (halike : h.Alike h') (i : Nat) (hc : c.Alike c') (number : Nat) :
    Option.Rel Hub.Alike (h.resumeFlush i c number) (h'.resumeFlush i c' number) := by
  refine rel_bind (rel_getElem? halike.tunnels number) fun t t' ht => ?_
  refine rel_bind ht.flush? fun done done' hdone => ?_
  exact .some ((halike.setTunnel number hdone.2).setCall i
    (hc.finish (Event.alike_ofResult hdone.1)))

theorem Alike.resumeShutdown (halike : h.Alike h') (i : Nat) (hc : c.Alike c') (number : Nat) :
    Option.Rel Hub.Alike (h.resumeShutdown i c number) (h'.resumeShutdown i c' number) := by
  refine rel_bind (rel_getElem? halike.tunnels number) fun t t' ht => ?_
  refine rel_bind ht.shutdown? fun done done' hdone => ?_
  exact .some ((halike.setTunnel number hdone.2).setCall i
    (hc.finish (Event.alike_ofResult hdone.1)))

theorem Alike.resumeClose (halike : h.Alike h') (i : Nat) (hc : c.Alike c') (hold : Hold) :
    Option.Rel Hub.Alike (h.resumeClose i c hold) (h'.resumeClose i c' hold) := by
  refine rel_bind (rel_getElem? halike.tunnels hold.tunnel) fun t t' ht => ?_
  have hclose := ht.resumeClose hold.ticket
  generalize t.resumeClose hold.ticket = closing, t'.resumeClose hold.ticket = closing' at hclose
  cases hclose with
  | done hresult hafter =>
      exact .some ((halike.setTunnel hold.tunnel hafter).setCall i
        (hc.finish (Event.alike_ofResult hresult)))
  | waiting ticket hafter => exact .none

theorem Alike.keepSweep (halike : h.Alike h') (i : Nat) (hc : c.Alike c')
    {progress progress' : Sweep.Progress} (hprogress : progress = progress') :
    (h.keepSweep i c progress).Alike (h'.keepSweep i c' progress') := by
  rw [keepSweep_eq, keepSweep_eq, ← hprogress]
  exact halike.setCall i (hc.takeSweep progress)

theorem Alike.resumeSweep (halike : h.Alike h') (i : Nat) (hc : c.Alike c') (sweep : Sweep) :
    Option.Rel Hub.Alike (h.resumeSweep i c sweep) (h'.resumeSweep i c' sweep) := by
  refine rel_bind (sweep.alike_resume halike.tunnels) fun p p' hresumed => ?_
  exact .some ((halike.withTunnels hresumed.2).keepSweep i hc hresumed.1)

theorem Alike.resumeWatch (halike : h.Alike h') (i : Nat) (hc : c.Alike c') (k : Nat) :
    Option.Rel Hub.Alike (h.resumeWatch i c k) (h'.resumeWatch i c' k) := by
  refine rel_bind (rel_of_eq (congrArg (·[k]?) halike.sweepers)) fun s s' hs => ?_
  subst hs
  split
  · exact .some (halike.setCall i (hc.finish (.same _)))
  · exact .none

theorem Alike.respond (halike : h.Alike h') (i : Nat) (hc : c.Alike c') (head : Head)
    {body body' : Body} (hbody : body = body') (hold : Bool) :
    (h.respond i c head body hold).Alike (h'.respond i c' head body' hold) := by
  subst hbody
  exact halike.setCall i (hc.answered head body hold)

/-- The two requests go on alike, whatever is related in how far they are. -/
theorem Alike.resumeHandling (halike : h.Alike h') (i : Nat) (hc : c.Alike c') (number : Nat)
    {handling handling' : Handling} (hhandling : handling.Alike handling') (hold : Bool) :
    Option.Rel Hub.Alike (h.resumeHandling i c number handling hold)
      (h'.resumeHandling i c' number handling' hold) := by
  refine rel_bind (rel_getElem? halike.tunnels number) fun t t' ht => ?_
  refine rel_bind (hhandling.step ⟨halike.registry, ht, hc.upload⟩) fun p p' hprogress => ?_
  have htaken {after after' : Handling.Surroundings} (hafter : after.Alike after') :
      Hub.Alike { h.setTunnel number after.tunnel with registry := after.registry }
        { h'.setTunnel number after'.tunnel with registry := after'.registry } :=
    { halike.setTunnel number hafter.tunnel with registry := hafter.registry }
  have hused {after after' : Handling.Surroundings} (hafter : after.Alike after') :
      Call.Alike { c with upload := after.upload } { c' with upload := after'.upload } :=
    { hc with upload := hafter.upload }
  cases hprogress with
  | goOn hgoing hafter =>
      exact .some ((htaken hafter).setCall i ((hused hafter).withTask (.some (.handle _ hgoing _))))
  | answer head hafter => exact .some ((htaken hafter).respond i (hused hafter) head rfl hold)
  | stream ticket hafter =>
      have hstarted := Stream.alike_start halike.clock number ticket hafter.tunnel
      exact .some (((htaken hafter).withStreams
        (List.rel_append halike.streams (.cons hstarted .nil))).respond i (hused hafter) .reading
          (congrArg Body.stream halike.streams.length_eq) hold)

theorem Alike.takeChunk (halike : h.Alike h') (i : Nat) (hc : c.Alike c') (body : Body)
    (bytes : List UInt8) (appetite : Appetite) :
    (h.takeChunk i c body bytes appetite).Alike (h'.takeChunk i c' body bytes appetite) := by
  have hbody : Call.Alike { c with body := some body } { c' with body := some body } :=
    { hc with body := rfl }
  cases appetite with
  | everything => exact halike.setCall i (hbody.tell (.same _))
  | oneChunk => exact halike.setCall i (hbody.finish (.same _))

theorem Alike.endBody (halike : h.Alike h') (i : Nat) (hc : c.Alike c') (appetite : Appetite) :
    (h.endBody i c appetite).Alike (h'.endBody i c' appetite) := by
  have hended := hc.finish (.same .finished)
  cases appetite with
  | everything => exact halike.setCall i { hended with body := rfl }
  | oneChunk => exact halike.setCall i hended

/-- Both clients are given the same chunk of their response. -/
theorem Alike.resumeReadBody (halike : h.Alike h') (i : Nat) (hc : c.Alike c')
    (appetite : Appetite) :
    Option.Rel Hub.Alike (h.resumeReadBody i c appetite) (h'.resumeReadBody i c' appetite) := by
  unfold Hub.resumeReadBody
  rw [← hc.body]
  cases c.body with
  | none => exact .none
  | some body =>
      cases body with
      | empty => exact .some (halike.endBody i hc appetite)
      | text bytes => exact .some (halike.takeChunk i hc .empty bytes appetite)
      | stream number =>
          refine rel_bind (rel_getElem? halike.streams number) fun s s' hs => ?_
          rw [← hs.outlet]
          split
          · exact .some ((halike.withStreams
              (rel_set halike.streams number (hs.withOutlet _))).takeChunk i hc _ _ appetite)
          · exact .some (halike.endBody i hc appetite)
          · exact .none

/-- The step lemma for a call that goes on, one case per task. -/
theorem Alike.resumeCall (halike : h.Alike h') (i : Nat) :
    Option.Rel Hub.Alike (h.resumeCall i) (h'.resumeCall i) := by
  refine rel_bind (rel_getElem? halike.calls i) fun c c' hc => ?_
  refine rel_bind hc.task fun task task' htask => ?_
  cases htask with
  | same =>
      cases task with
      | acquire role hold => exact halike.resumeAcquire i hc role hold
      | readSome number deadline => exact halike.resumeReadSome i hc number deadline
      | readInstruction number => exact halike.resumeReadInstruction i hc number
      | write number rest thenFlush => exact halike.resumeWrite i hc number rest thenFlush
      | flush number => exact halike.resumeFlush i hc number
      | shutdown number => exact halike.resumeShutdown i hc number
      | close hold => exact halike.resumeClose i hc hold
      | sweep sweep => exact halike.resumeSweep i hc sweep
      | watch sweeper => exact halike.resumeWatch i hc sweeper
      | handle number handling hold =>
          exact halike.resumeHandling i hc number handling.alike_refl hold
      | readBody appetite => exact halike.resumeReadBody i hc appetite
  | handle number hhandling hold => exact halike.resumeHandling i hc number hhandling hold

/-- The step lemma for a stream. -/
theorem Alike.resumeStream (halike : h.Alike h') (j : Nat) :
    Option.Rel Hub.Alike (h.resumeStream j) (h'.resumeStream j) := by
  refine rel_bind (rel_getElem? halike.streams j) fun s s' hs => ?_
  rw [← hs.tunnel]
  refine rel_bind (rel_getElem? halike.tunnels s.tunnel) fun t t' ht => ?_
  refine rel_bind (hs.step halike.clock ⟨halike.registry, ht⟩) fun p p' hafter => ?_
  exact .some { halike with
    registry := hafter.around.registry
    tunnels := rel_set halike.tunnels s.tunnel hafter.around.tunnel
    streams := rel_set halike.streams j hafter.stream }

/-- The step lemma for a sweeper. -/
theorem Alike.resumeSweeper (halike : h.Alike h') (k : Nat) :
    Option.Rel Hub.Alike (h.resumeSweeper k) (h'.resumeSweeper k) := by
  refine rel_bind (rel_of_eq (congrArg (·[k]?) halike.sweepers)) fun s s' hs => ?_
  subst hs
  refine rel_bind (s.alike_step halike.clock halike.now halike.registry halike.tunnels)
    fun p p' hstep => ?_
  obtain ⟨after, registry, tunnels⟩ := p
  obtain ⟨after', registry', tunnels'⟩ := p'
  obtain ⟨hafter, hregistry, htunnels⟩ := hstep
  exact .some { halike with
    registry := hregistry
    tunnels := htunnels
    sweepers := congrArg₂ (List.set · k ·) halike.sweepers hafter }

/-- An agent can go on in both hubs or in neither, and leaves them alike. -/
theorem Alike.resume (halike : h.Alike h') (agent : Agent) :
    Option.Rel Hub.Alike (h.resume agent) (h'.resume agent) := by
  cases agent with
  | call i => exact halike.resumeCall i
  | stream j => exact halike.resumeStream j
  | sweeper k => exact halike.resumeSweeper k

end Hub

end LongPollTunnel
