import Mathlib.Data.List.Forall2
import Mathlib.Data.Option.Basic
import LongPollTunnel.Proofs.Steps

/-! # Things that differ in the wording of failures

Two things are alike if they differ at most in how the failures are worded that come from inside:
what a source or a sink says of an error, and why a request body is broken. Main statement: alike
tunnels can do the same, and are alike after it.
-/

namespace LongPollTunnel

/-! ## Alike things -/

/-- The failures are of one kind, and worded the same if the wording may be shown. -/
structure Failure.Alike (f f' : Failure) : Prop where
  kind : f.kind = f'.kind
  shown : f.isClientFault = true → f = f'

/-- The arrivals bring the same, or an error each. -/
inductive Arrival.Alike : Arrival → Arrival → Prop where
  | data (bytes : List UInt8) : Alike (.data bytes) (.data bytes)
  | finish : Alike .finish .finish
  | fail (reason reason' : String) : Alike (.fail reason) (.fail reason')

/-- The parts are the same, or broken each. -/
inductive BodyPart.Alike : BodyPart → BodyPart → Prop where
  | chunk (bytes : List UInt8) : Alike (.chunk bytes) (.chunk bytes)
  | broken (fault fault' : BodyFault) : Alike (.broken fault) (.broken fault')

structure Upload.Alike (u u' : Upload) : Prop where
  parts : List.Forall₂ BodyPart.Alike u.parts u'.parts
  isOpen : u.isOpen = u'.isOpen

/-- The sinks take, refuse and block the same, whatever they say to that. -/
structure Sink.Manner.Alike (m m' : Sink.Manner) : Prop where
  maxWrite : m.maxWrite = m'.maxWrite
  errorAt : m.errorAt = m'.errorAt
  zeroAt : m.zeroAt = m'.zeroAt
  blockAt : m.blockAt = m'.blockAt
  flushError : m.flushError.isSome = m'.flushError.isSome
  flushErrorAt : m.flushErrorAt = m'.flushErrorAt
  flushBlockAt : m.flushBlockAt = m'.flushBlockAt
  shutdownError : m.shutdownError.isSome = m'.shutdownError.isSome
  shutdownBlocks : m.shutdownBlocks = m'.shutdownBlocks

theorem Sink.Manner.alike_refl (m : Sink.Manner) : m.Alike m :=
  ⟨rfl, rfl, rfl, rfl, rfl, rfl, rfl, rfl, rfl⟩

structure Sink.Alike (s s' : Sink) : Prop where
  manner : s.manner.Alike s'.manner
  accepted : s.accepted = s'.accepted
  flushes : s.flushes = s'.flushes
  shutdowns : s.shutdowns = s'.shutdowns

structure Reader.Alike (r r' : Reader) : Prop where
  source : List.Forall₂ Arrival.Alike r.source r'.source
  buffer : r.buffer = r'.buffer
  complete : r.complete = r'.complete
  ended : r.ended = r'.ended
  pending : Option.Rel Failure.Alike r.pending r'.pending
  idleTimeout : r.idleTimeout = r'.idleTimeout

structure Tunnel.Alike (t t' : Tunnel) : Prop where
  identity : t.identity = t'.identity
  reader : t.reader.Alike t'.reader
  sink : t.sink.Alike t'.sink
  readerSeat : t.readerSeat = t'.readerSeat
  writerSeat : t.writerSeat = t'.writerSeat
  queuedReaders : t.queuedReaders = t'.queuedReaders
  isOpen : t.isOpen = t'.isOpen

/-- The outcomes are alike, and so is what they leave. -/
inductive Outcome.Alike {α σ : Type} (left : σ → σ → Prop) :
    Outcome Failure α × σ → Outcome Failure α × σ → Prop where
  | done (value : α) {s s' : σ} (hleft : left s s') : Alike left (.done value, s) (.done value, s')
  | failed {f f' : Failure} {s s' : σ} (hfailure : f.Alike f') (hleft : left s s') :
      Alike left (.failed f, s) (.failed f', s')
  | waiting {s s' : σ} (hleft : left s s') : Alike left (.waiting, s) (.waiting, s')

/-- Two operations that give no value succeed both, or fail both. -/
inductive Failure.AlikeResults : Except Failure Unit → Except Failure Unit → Prop where
  | ok : AlikeResults (.ok ()) (.ok ())
  | error {f f' : Failure} (hfailure : f.Alike f') : AlikeResults (.error f) (.error f')

/-- The writes stand alike, and so does what they leave. -/
inductive Writing.Alike {σ : Type} (left : σ → σ → Prop) :
    Writing × σ → Writing × σ → Prop where
  | done {s s' : σ} (hleft : left s s') : Alike left (.done, s) (.done, s')
  | failed {f f' : Failure} {s s' : σ} (hfailure : f.Alike f') (hleft : left s s') :
      Alike left (.failed f, s) (.failed f', s')
  | waiting (rest : List UInt8) {s s' : σ} (hleft : left s s') :
      Alike left (.waiting rest, s) (.waiting rest, s')

namespace Failure

variable {f f' : Failure}

theorem alike_refl (f : Failure) : f.Alike f :=
  ⟨rfl, fun _ => rfl⟩

/-- Failures inside are alike whatever they are called. -/
theorem alike_of_server (hkind : f.kind = .server) (hkind' : f'.kind = .server) : f.Alike f' where
  kind := hkind.trans hkind'.symm
  shown := by simp [isClientFault, hkind]

/-- A report shows nothing but what alike failures have in common. -/
theorem Alike.ofFailure (halike : f.Alike f') : Head.ofFailure f = Head.ofFailure f' := by
  have hfault : f.isClientFault = f'.isClientFault := by
    rw [isClientFault, isClientFault, halike.kind]
  cases hshown : f.isClientFault with
  | true => rw [halike.shown hshown]
  | false =>
      rw [hshown] at hfault
      simp [Head.ofFailure, Head.publicMessage, status, halike.kind, hshown, ← hfault]

/-- Whether a failure is a closed connection goes by its kind. -/
theorem Alike.isClosed (halike : f.Alike f') : f.isClosed = f'.isClosed := by
  rw [Failure.isClosed, Failure.isClosed, halike.kind]

end Failure

/-! ## Readers -/

namespace Arrival

variable {a a' : Arrival}

theorem alike_refl (a : Arrival) : a.Alike a := by
  cases a with
  | data bytes => exact .data bytes
  | finish => exact .finish
  | fail reason => exact .fail reason reason

/-- Alike arrivals bring the same bytes, if any. -/
theorem Alike.isReal (halike : a.Alike a') : a.isReal = a'.isReal := by
  cases halike <;> rfl

/-- What is no arrival is left out of both lists at the same places. -/
theorem forall₂_alike_filter {arrivals arrivals' : List Arrival}
    (halike : List.Forall₂ Alike arrivals arrivals') :
    List.Forall₂ Alike (arrivals.filter isReal) (arrivals'.filter isReal) :=
  List.rel_filter (fun _ _ ha => iff_of_eq (congrArg (· = true) ha.isReal)) halike

end Arrival

namespace Reader

variable {r r' : Reader}

theorem Alike.feed (halike : r.Alike r') {arrivals arrivals' : List Arrival}
    (harrivals : List.Forall₂ Arrival.Alike arrivals arrivals') :
    (r.feed arrivals).Alike (r'.feed arrivals') where
  source := List.rel_append halike.source (Arrival.forall₂_alike_filter harrivals)
  buffer := halike.buffer
  complete := halike.complete
  ended := halike.ended
  pending := halike.pending
  idleTimeout := halike.idleTimeout

/-- Taking in what is alike leaves readers that are alike. -/
theorem Alike.receive (halike : r.Alike r') {a a' : Arrival} (ha : a.Alike a') :
    (r.receive a).Alike (r'.receive a') := by
  cases ha with
  | data bytes => exact { halike with buffer := congrArg (· ++ bytes) halike.buffer }
  | finish => exact { halike with ended := rfl }
  | fail reason reason' =>
      exact { halike with pending := .some (Failure.alike_of_server rfl rfl) }

/-- A failure that is held back goes before one that is new, in both. -/
theorem rel_or {a a' b b' : Option Failure} (hfirst : Option.Rel Failure.Alike a a')
    (hsecond : Option.Rel Failure.Alike b b') : Option.Rel Failure.Alike (a.or b) (a'.or b') := by
  cases hfirst with
  | some halike => exact .some halike
  | none => exact hsecond

/-- Scanning goes by the buffer, which is the same. -/
theorem Alike.scan (halike : r.Alike r') : r.scan.Alike r'.scan := by
  unfold Reader.scan
  rw [← halike.buffer, ← halike.complete]
  refine { halike with complete := rfl, pending := rel_or halike.pending ?_, buffer := rfl }
  cases (Framing.completePrefix (r.buffer.drop r.complete)).2 with
  | none => exact .none
  | some fault => exact .some (Failure.alike_refl _)

/-- Both readers have instructions to hand out, or a failure, or have to wait. -/
theorem Alike.check (halike : r.Alike r') : Outcome.Alike Reader.Alike r.check r'.check := by
  unfold Reader.check
  have hscan := halike.scan
  generalize r.scan = s, r'.scan = s' at hscan
  obtain ⟨source, buffer, complete, ended, pending, idleTimeout⟩ := s
  obtain ⟨source', buffer', complete', ended', pending', idleTimeout'⟩ := s'
  obtain ⟨hsource, rfl, rfl, rfl, hpending, rfl⟩ := hscan
  dsimp only at hsource hpending ⊢
  split
  · exact .done _ ⟨hsource, rfl, rfl, rfl, hpending, rfl⟩
  · cases hpending with
    | some hfailure => exact .failed hfailure ⟨hsource, rfl, rfl, rfl, .none, rfl⟩
    | none =>
        have hleft : Reader.Alike ⟨source, buffer, complete, ended, none, idleTimeout⟩
            ⟨source', buffer, complete, ended, none, idleTimeout⟩ :=
          ⟨hsource, rfl, rfl, rfl, .none, rfl⟩
        dsimp only
        split
        · exact .failed (Failure.alike_refl _) hleft
        · exact .waiting hleft

/-- Both readers take as many arrivals until the wait is over. -/
theorem Alike.awaitFrom {source source' : List Arrival}
    (hsource : List.Forall₂ Arrival.Alike source source') (halike : r.Alike r') :
    Outcome.Alike Reader.Alike (Reader.awaitFrom source r) (Reader.awaitFrom source' r') := by
  induction hsource generalizing r r' with
  | nil =>
      have hcheck := halike.check
      unfold Reader.awaitFrom
      generalize r.check = outcome, r'.check = outcome' at hcheck
      cases hcheck with
      | done value hleft => exact .done value { hleft with source := .nil }
      | failed hfailure hleft => exact .failed hfailure { hleft with source := .nil }
      | waiting hleft => exact .waiting { hleft with source := .nil }
  | @cons a a' rest rest' ha hrest ih =>
      have hcheck := halike.check
      unfold Reader.awaitFrom
      generalize r.check = outcome, r'.check = outcome' at hcheck
      cases hcheck with
      | done value hleft => exact .done value { hleft with source := .cons ha hrest }
      | failed hfailure hleft => exact .failed hfailure { hleft with source := .cons ha hrest }
      | waiting hleft => exact ih (hleft.receive ha)

theorem Alike.await (halike : r.Alike r') (closed : Bool) :
    Outcome.Alike Reader.Alike (r.await closed) (r'.await closed) := by
  unfold Reader.await
  split
  · exact .failed (Failure.alike_refl _) halike
  · exact Alike.awaitFrom halike.source halike

theorem Alike.readSome (halike : r.Alike r') (closed expired : Bool) :
    Outcome.Alike Reader.Alike (r.readSome closed expired) (r'.readSome closed expired) := by
  have hawait := halike.await closed
  unfold Reader.readSome
  generalize r.await closed = outcome, r'.await closed = outcome' at hawait
  cases hawait with
  | done value hleft =>
      dsimp only
      rw [← hleft.buffer, ← hleft.complete]
      exact .done _ { hleft with buffer := rfl, complete := rfl }
  | failed hfailure hleft => exact .failed hfailure hleft
  | waiting hleft =>
      cases expired with
      | true => exact .done [] hleft
      | false => exact .waiting hleft

/-- The first instruction in the buffer is the same, and so is what does not decode. -/
theorem Alike.takeInstruction (halike : r.Alike r') :
    Outcome.Alike Reader.Alike r.takeInstruction r'.takeInstruction := by
  unfold Reader.takeInstruction
  rw [← halike.buffer]
  split
  · exact .failed (Failure.alike_refl _) halike
  · exact .failed (Failure.alike_refl _) halike
  next length _ =>
    have htaken : Reader.Alike
        { r with buffer := r.buffer.drop length, complete := r.complete - length }
        { r' with buffer := r.buffer.drop length, complete := r'.complete - length } :=
      { halike with buffer := rfl, complete := congrArg (· - length) halike.complete }
    dsimp only
    split
    · exact .done _ htaken
    · exact .failed (Failure.alike_refl _) htaken

theorem Alike.readInstruction (halike : r.Alike r') (closed : Bool) :
    Outcome.Alike Reader.Alike (r.readInstruction closed) (r'.readInstruction closed) := by
  have hawait := halike.await closed
  unfold Reader.readInstruction
  generalize r.await closed = outcome, r'.await closed = outcome' at hawait
  cases hawait with
  | done value hleft => exact hleft.takeInstruction
  | failed hfailure hleft => exact .failed hfailure hleft
  | waiting hleft => exact .waiting hleft

theorem Alike.isSome_pending (halike : r.Alike r') : r.pending.isSome = r'.pending.isSome := by
  have hpending := halike.pending
  generalize r.pending = pending, r'.pending = pending' at hpending
  cases hpending <;> rfl

theorem Alike.isEmpty_source (halike : r.Alike r') :
    r.source.isEmpty = r'.source.isEmpty := by
  have hsource := halike.source
  generalize r.source = source, r'.source = source' at hsource
  cases hsource <;> rfl

theorem Alike.hasNews (halike : r.Alike r') : r.hasNews = r'.hasNews := by
  rw [Reader.hasNews, Reader.hasNews, halike.complete, halike.isSome_pending]

theorem Alike.available (halike : r.Alike r') (closed : Bool) :
    (r.available closed).1 = (r'.available closed).1 ∧
      (r.available closed).2.Alike (r'.available closed).2 := by
  have hscan := halike.scan
  unfold Reader.available
  rw [← halike.isSome_pending]
  split
  · exact ⟨rfl, halike⟩
  · generalize r.scan = s, r'.scan = s' at hscan
    dsimp only
    rw [← hscan.hasNews]
    obtain ⟨source, buffer, complete, ended, pending, idleTimeout⟩ := s
    obtain ⟨source', buffer', complete', ended', pending', idleTimeout'⟩ := s'
    obtain ⟨hsource, rfl, rfl, rfl, hpending, rfl⟩ := hscan
    dsimp only at hsource hpending ⊢
    split
    · exact ⟨rfl, hsource, rfl, rfl, rfl, hpending, rfl⟩
    · split
      · exact ⟨rfl, hsource, rfl, rfl, rfl, hpending, rfl⟩
      · cases hsource with
        | nil => exact ⟨rfl, .nil, rfl, rfl, rfl, hpending, rfl⟩
        | @cons a a' rest rest' ha hrest =>
            have hrested : Reader.Alike ⟨rest, buffer, complete, ended, pending, idleTimeout⟩
                ⟨rest', buffer, complete, ended, pending', idleTimeout⟩ :=
              ⟨hrest, rfl, rfl, rfl, hpending, rfl⟩
            have hnews := (hrested.receive ha).scan
            exact ⟨hnews.hasNews, hnews⟩

end Reader

/-! ## Sinks -/

namespace Sink

variable {s s' : Sink}

/-- The replies are the same, or both refuse. -/
inductive Reply.Alike : Reply → Reply → Prop where
  | take (count : Nat) : Alike (.take count) (.take count)
  | fail (reason reason' : String) : Alike (.fail reason) (.fail reason')
  | wait : Alike .wait .wait

/-- Sinks that are alike do the same with a write, up to how they word a refusal. -/
theorem Alike.reply (halike : s.Alike s') (length : Nat) :
    Reply.Alike (s.reply length) (s'.reply length) := by
  have hmanner := halike.manner
  unfold Sink.reply
  dsimp only
  rw [← halike.accepted, ← hmanner.errorAt, ← hmanner.zeroAt, ← hmanner.blockAt,
    ← hmanner.maxWrite]
  split
  · exact .fail _ _
  · split
    · exact .take 0
    · split
      · exact .wait
      · exact .take _

/-- The writes stand alike, and so do the sinks after them. -/
inductive Written.Alike : Written × Sink → Written × Sink → Prop where
  | all {s s' : Sink} (hsink : s.Alike s') : Alike (.all, s) (.all, s')
  | failed (reason reason' : String) {s s' : Sink} (hsink : s.Alike s') :
      Alike (.failed reason, s) (.failed reason', s')
  | blocked (rest : List UInt8) {s s' : Sink} (hsink : s.Alike s') :
      Alike (.blocked rest, s) (.blocked rest, s')

/-- Write by write, both sinks take the same bytes. -/
theorem Alike.writeWithin (halike : s.Alike s') (rounds : Nat) (bytes : List UInt8) :
    Written.Alike (Sink.writeWithin rounds s bytes) (Sink.writeWithin rounds s' bytes) := by
  induction rounds generalizing s s' bytes with
  | zero =>
      cases bytes with
      | nil => exact .all halike
      | cons byte bytes => exact .blocked _ halike
  | succ rounds ih =>
      cases bytes with
      | nil => exact .all halike
      | cons byte bytes =>
          have hreply := halike.reply (byte :: bytes).length
          unfold Sink.writeWithin
          generalize s.reply (byte :: bytes).length = reply,
            s'.reply (byte :: bytes).length = reply' at hreply
          cases hreply with
          | fail reason reason' => exact .failed _ _ halike
          | wait => exact .blocked _ halike
          | take count =>
              cases count with
              | zero => exact .failed _ _ halike
              | succ count =>
                  have htaken : Sink.Alike
                      { s with accepted := s.accepted ++ (byte :: bytes).take (count + 1) }
                      { s' with accepted := s'.accepted ++ (byte :: bytes).take (count + 1) } :=
                    { halike with accepted := by rw [halike.accepted] }
                  exact ih htaken _

/-- Both writes are done, refused or left with the same rest. -/
theorem Alike.put (halike : s.Alike s') (closed : Bool) (bytes : List UInt8) :
    Writing.Alike Sink.Alike (s.put closed bytes) (s'.put closed bytes) := by
  have hwrite := halike.writeWithin bytes.length bytes
  unfold Sink.put Sink.writeAll
  split
  · exact .failed (Failure.alike_refl _) halike
  · generalize Sink.writeWithin bytes.length s bytes = written,
      Sink.writeWithin bytes.length s' bytes = written' at hwrite
    cases hwrite with
    | all hsink => exact .done hsink
    | failed reason reason' hsink => exact .failed (Failure.alike_of_server rfl rfl) hsink
    | blocked rest hsink => exact .waiting rest hsink

/-- What is refused is refused for a failure inside. -/
theorem alikeResults_of_isSome (wrap : String → Failure)
    (hwrap : ∀ reason, (wrap reason).kind = .server) (refusal refusal' : Option String) :
    refusal.isSome = refusal'.isSome →
      Failure.AlikeResults
        ((match refusal with
          | some reason => .error reason
          | none => .ok () : Except String Unit).mapError wrap)
        ((match refusal' with
          | some reason => .error reason
          | none => .ok () : Except String Unit).mapError wrap) := by
  intro hsame
  cases refusal with
  | none =>
      cases refusal' with
      | none => exact .ok
      | some reason' => cases hsame
  | some reason =>
      cases refusal' with
      | none => cases hsame
      | some reason' => exact .error (Failure.alike_of_server (hwrap _) (hwrap _))

/-- Both flushes fail or neither, for that goes by the bytes taken. -/
theorem Alike.isSome_flushFault? (halike : s.Alike s') :
    s.flushFault?.isSome = s'.flushFault?.isSome := by
  unfold flushFault?
  rw [← halike.manner.flushErrorAt, ← halike.accepted]
  split
  · exact halike.manner.flushError
  · rfl

/-- The flushes have to wait both, or end alike. -/
theorem Alike.flushOut? (halike : s.Alike s') :
    Option.Rel
      (fun (flushed flushed' : Except Failure Unit × Sink) =>
        Failure.AlikeResults flushed.1 flushed'.1 ∧ flushed.2.Alike flushed'.2)
      s.flushOut? s'.flushOut? := by
  have hblocks : isPast s.accepted.length s.manner.flushBlockAt =
      isPast s'.accepted.length s'.manner.flushBlockAt := by
    rw [halike.accepted, halike.manner.flushBlockAt]
  unfold Sink.flushOut? Sink.flush?
  rw [← hblocks]
  split
  · exact .none
  · refine .some ⟨?_, { halike with flushes := congrArg (· + 1) halike.flushes }⟩
    exact alikeResults_of_isSome .flushing (fun _ => rfl) _ _ halike.isSome_flushFault?

/-- The shutdowns have to wait both, or end alike. -/
theorem Alike.close? (halike : s.Alike s') :
    Option.Rel
      (fun (closed closed' : Except Failure Unit × Sink) =>
        Failure.AlikeResults closed.1 closed'.1 ∧ closed.2.Alike closed'.2)
      s.close? s'.close? := by
  unfold Sink.close? Sink.shutdown?
  rw [← halike.manner.shutdownBlocks]
  split
  · exact .none
  · refine .some ⟨?_, { halike with shutdowns := congrArg (· + 1) halike.shutdowns }⟩
    exact alikeResults_of_isSome .shuttingDown (fun _ => rfl) _ _ halike.manner.shutdownError

end Sink

/-! ## Tunnels -/

/-- What is put around both sides keeps them alike. -/
theorem Outcome.Alike.map {α σ τ : Type} {left : σ → σ → Prop} {left' : τ → τ → Prop}
    {p p' : Outcome Failure α × σ} (halike : Outcome.Alike left p p') {into into' : σ → τ}
    (hinto : ∀ s s', left s s' → left' (into s) (into' s')) :
    Outcome.Alike left' (p.1, into p.2) (p'.1, into' p'.2) := by
  cases halike with
  | done value hleft => exact .done value (hinto _ _ hleft)
  | failed hfailure hleft => exact .failed hfailure (hinto _ _ hleft)
  | waiting hleft => exact .waiting (hinto _ _ hleft)

theorem Writing.Alike.map {σ τ : Type} {left : σ → σ → Prop} {left' : τ → τ → Prop}
    {p p' : Writing × σ} (halike : Writing.Alike left p p') {into into' : σ → τ}
    (hinto : ∀ s s', left s s' → left' (into s) (into' s')) :
    Writing.Alike left' (p.1, into p.2) (p'.1, into' p'.2) := by
  cases halike with
  | done hleft => exact .done (hinto _ _ hleft)
  | failed hfailure hleft => exact .failed hfailure (hinto _ _ hleft)
  | waiting rest hleft => exact .waiting rest (hinto _ _ hleft)

namespace Tunnel

variable {t t' : Tunnel}

/-- The closes stand alike, and so do the tunnels after them. -/
inductive Closing.Alike : Closing × Tunnel → Closing × Tunnel → Prop where
  | done {result result' : Except Failure Unit} {t t' : Tunnel}
      (hresult : Failure.AlikeResults result result') (htunnel : t.Alike t') :
      Alike (.done result, t) (.done result', t')
  | waiting (ticket : Nat) {t t' : Tunnel} (htunnel : t.Alike t') :
      Alike (.waiting ticket, t) (.waiting ticket, t')

/-- The seats are the same on both sides. -/
theorem Alike.seat (halike : t.Alike t') (role : Role) : t.seat role = t'.seat role := by
  cases role with
  | reader => exact halike.readerSeat
  | writer => exact halike.writerSeat

theorem Alike.setSeat (halike : t.Alike t') (role : Role) (seat : Seat) :
    (t.setSeat role seat).Alike (t'.setSeat role seat) := by
  cases role with
  | reader => exact { halike with readerSeat := rfl }
  | writer => exact { halike with writerSeat := rfl }

theorem Alike.draw (halike : t.Alike t') (role : Role) :
    (t.draw role).2.Alike (t'.draw role).2 := by
  unfold Tunnel.draw
  rw [← halike.seat role, ← halike.queuedReaders]
  exact { halike.setSeat role _ with queuedReaders := rfl }

theorem Alike.unqueue (halike : t.Alike t') (role : Role) :
    (t.unqueue role).Alike (t'.unqueue role) :=
  { halike with queuedReaders := congrArg (· - role.queuedReaders) halike.queuedReaders }

theorem Alike.leave (halike : t.Alike t') (role : Role) (ticket : Nat) :
    (t.leave role ticket).Alike (t'.leave role ticket) := by
  unfold Tunnel.leave
  rw [← halike.seat role]
  exact halike.setSeat role _

/-- Whether a tunnel is in use goes by its seats. -/
theorem Alike.isInUse (halike : t.Alike t') : t.isInUse = t'.isInUse := by
  rw [Tunnel.isInUse, Tunnel.isInUse, halike.readerSeat, halike.writerSeat]

theorem Alike.hasQueuedReader (halike : t.Alike t') :
    t.hasQueuedReader = t'.hasQueuedReader := by
  rw [Tunnel.hasQueuedReader, Tunnel.hasQueuedReader, halike.queuedReaders]

theorem Alike.withReader (halike : t.Alike t') {r r' : Reader} (hreader : r.Alike r') :
    Tunnel.Alike { t with reader := r } { t' with reader := r' } :=
  { halike with reader := hreader }

theorem Alike.withSink (halike : t.Alike t') {s s' : Sink} (hsink : s.Alike s') :
    Tunnel.Alike { t with sink := s } { t' with sink := s' } :=
  { halike with sink := hsink }

theorem Alike.readSome (halike : t.Alike t') (expired : Bool) :
    Outcome.Alike Tunnel.Alike (t.readSome expired) (t'.readSome expired) := by
  have hread := halike.reader.readSome (!t.isOpen) expired
  have hclosed : Outcome.Alike Tunnel.Alike _ _ := hread.map fun _ _ => halike.withReader
  unfold Tunnel.readSome
  rwa [halike.isOpen] at hclosed ⊢

theorem Alike.readInstruction (halike : t.Alike t') :
    Outcome.Alike Tunnel.Alike t.readInstruction t'.readInstruction := by
  have hread := halike.reader.readInstruction (!t.isOpen)
  have hafter : Outcome.Alike Tunnel.Alike _ _ := hread.map fun _ _ => halike.withReader
  unfold Tunnel.readInstruction
  rwa [halike.isOpen] at hafter ⊢

theorem Alike.available (halike : t.Alike t') :
    t.available.1 = t'.available.1 ∧ t.available.2.Alike t'.available.2 := by
  have hlook := halike.reader.available (!t.isOpen)
  have hafter := hlook.imp_right halike.withReader
  unfold Tunnel.available
  rwa [halike.isOpen] at hafter ⊢

/-- A write at tunnels that are alike stands the same, and leaves them alike. -/
theorem Alike.writeAll (halike : t.Alike t') (bytes : List UInt8) :
    Writing.Alike Tunnel.Alike (t.writeAll bytes) (t'.writeAll bytes) := by
  have hput := halike.sink.put (!t.isOpen) bytes
  have hafter : Writing.Alike Tunnel.Alike _ _ := hput.map fun _ _ => halike.withSink
  unfold Tunnel.writeAll
  rwa [halike.isOpen] at hafter ⊢

/-- Both flushes wait, or both are over. -/
theorem Alike.flush? (halike : t.Alike t') :
    Option.Rel
      (fun (done done' : Except Failure Unit × Tunnel) =>
        Failure.AlikeResults done.1 done'.1 ∧ done.2.Alike done'.2)
      t.flush? t'.flush? := by
  have hflush := halike.sink.flushOut?
  unfold Tunnel.flush?
  generalize t.sink.flushOut? = flushed, t'.sink.flushOut? = flushed' at hflush
  cases hflush with
  | none => exact .none
  | some hflushed => exact .some (hflushed.imp_right halike.withSink)

/-- Both shutdowns wait, or both are over. -/
theorem Alike.shutdown? (halike : t.Alike t') :
    Option.Rel
      (fun (done done' : Except Failure Unit × Tunnel) =>
        Failure.AlikeResults done.1 done'.1 ∧ done.2.Alike done'.2)
      t.shutdown? t'.shutdown? := by
  have hclose := halike.sink.close?
  unfold Tunnel.shutdown?
  generalize t.sink.close? = closed, t'.sink.close? = closed' at hclose
  cases hclose with
  | none => exact .none
  | some hclosed => exact .some (hclosed.imp_right halike.withSink)

/-- A close that waits goes on in both tunnels or in neither. -/
theorem Alike.resumeClose (halike : t.Alike t') (ticket : Nat) :
    Closing.Alike (t.resumeClose ticket) (t'.resumeClose ticket) := by
  have hshutdown := halike.shutdown?
  unfold Tunnel.resumeClose
  generalize t.shutdown? = done, t'.shutdown? = done' at hshutdown
  cases hshutdown with
  | none => exact .waiting ticket halike
  | some hdone => exact .done hdone.1 (hdone.2.leave .writer ticket)

/-- Both tunnels are closed by it, and the same of them shut down. -/
theorem Alike.close (halike : t.Alike t') : Closing.Alike t.close t'.close := by
  obtain ⟨identity, reader, sink, readerSeat, writerSeat, queued, isOpen⟩ := t
  obtain ⟨identity', reader', sink', readerSeat', writerSeat', queued', isOpen'⟩ := t'
  obtain ⟨rfl, hreader, hsink, rfl, rfl, rfl, rfl⟩ := halike
  have hsame (isOpen : Bool) :
      Tunnel.Alike ⟨identity, reader, sink, readerSeat, writerSeat, queued, isOpen⟩
        ⟨identity, reader', sink', readerSeat, writerSeat, queued, isOpen⟩ :=
    ⟨rfl, hreader, hsink, rfl, rfl, rfl, rfl⟩
  unfold Tunnel.close
  dsimp only
  split
  · exact .done .ok (hsame _)
  · split
    · exact .done .ok (hsame false)
    · exact ((hsame false).draw .writer).resumeClose _

end Tunnel

end LongPollTunnel
