import LongPollTunnel.Connection.Opening
import LongPollTunnel.Proofs.Sources
import LongPollTunnel.Proofs.Transmitting

/-! # What a handshake comes to

The daemon has two turns, and on each the instruction in front of its stream is judged in the same
way. Main statement: over a sink that takes everything, the outcome of a handshake is a matter of
the first two instructions, however the stream is cut; and if it succeeds, just these two are gone
and a tunnel over the link begins with what follows them.
-/

namespace LongPollTunnel

/-- A sink in this manner takes everything without making its writer wait. -/
structure Sink.Manner.Flows (m : Sink.Manner) : Prop where
  accepts : m.Accepts
  prompt : m.IsPrompt

instance (m : Sink.Manner) : Decidable m.Flows :=
  decidable_of_iff (m.Accepts ∧ m.IsPrompt)
    ⟨fun ⟨haccepts, hprompt⟩ => ⟨haccepts, hprompt⟩, fun h => ⟨h.accepts, h.prompt⟩⟩

/-- On an open link a write fails for the sink's reason alone. -/
theorem Sink.exists_reason_of_put {s after : Sink} {bytes : List UInt8} {failure : Failure}
    (hput : s.put false bytes = (.failed failure, after)) :
    ∃ reason, failure = .writing reason := by
  unfold put at hput
  rw [if_neg Bool.false_ne_true] at hput
  generalize s.writeAll bytes = result at hput
  obtain ⟨written, sink⟩ := result
  cases written with
  | all => cases hput
  | blocked rest => cases hput
  | failed reason =>
      cases hput
      exact ⟨reason, rfl⟩

/-- So does a flush. -/
theorem Sink.exists_reason_of_flushOut? {s after : Sink} {failure : Failure}
    (hflush : s.flushOut? = some (.error failure, after)) :
    ∃ reason, failure = .flushing reason := by
  obtain ⟨⟨result, sink⟩, -, heq⟩ := Option.map_eq_some_iff.mp hflush
  cases result with
  | ok _ => cases heq
  | error reason =>
      cases heq
      exact ⟨reason, rfl⟩

namespace Status

theorem ofCode?_code (status : Status) : ofCode? status.code = some status := by
  cases status <;> rfl

theorem ofCode?_eq_some_iff {code : Nat} {status : Status} :
    ofCode? code = some status ↔ code = status.code := by
  constructor
  · intro hfound
    have hcode := List.find?_some hfound
    exact (of_decide_eq_true hcode).symm
  · rintro rfl
    exact ofCode?_code status

end Status

open Framing

namespace Dialogue

open Reader (firstInstruction)

/-! ## One turn of the daemon -/

/-- The status that an error names in its second argument: the one whose code stands there, and an
error of the server if no such code does. -/
inductive NamesStatus (args : List String) : Status → Prop where
  | known {text : String} {status : Status} (htext : args[1]? = some text)
      (hcode : Unsigned.read Unsigned.max16 text.toList = .ok status.code) :
      NamesStatus args status
  | unknown (hnone : ∀ text, args[1]? = some text → ∀ status : Status,
      Unsigned.read Unsigned.max16 text.toList ≠ .ok status.code) :
      NamesStatus args .serverError

theorem namesStatus_errorStatus (args : List String) : NamesStatus args (errorStatus args) := by
  unfold errorStatus
  split
  next htext =>
    refine .unknown fun text hsome => ?_
    rw [htext] at hsome
    cases hsome
  next text htext =>
    split
    next code hread =>
      cases hcode : Status.ofCode? code with
      | some status =>
          rw [Status.ofCode?_eq_some_iff] at hcode
          exact .known htext (hread.trans (congrArg Except.ok hcode))
      | none =>
          refine .unknown fun other hsome status heq => ?_
          rw [htext] at hsome
          cases hsome
          rw [hread] at heq
          cases heq
          rw [Status.ofCode?_code] at hcode
          cases hcode
    next fault hread =>
      refine .unknown fun other hsome status heq => ?_
      rw [htext] at hsome
      cases hsome
      rw [hread] at heq
      cases heq

/-- What the daemon's turn makes of the outcome: an instruction that cannot be read, an error and
an instruction whose turn it is not end the dialogue, and the one that is expected goes on. -/
structure Turn (expected : String) (heard : Outcome Failure (Instruction × List UInt8))
    (outcome : Outcome Refusal String) (next : Instruction → List UInt8 → Prop) : Prop where
  of_failed : ∀ failure, heard = .failed failure → outcome = .failed (.tunnel failure)
  of_waiting : heard = .waiting → outcome = .waiting
  of_error : ∀ i rest, heard = .done (i, rest) → i.opcode = "error" →
    ∃ status, NamesStatus i.args status ∧
      outcome = .failed (.daemon status (i.args.headD ""))
  of_other : ∀ i rest, heard = .done (i, rest) → i.opcode ≠ "error" → i.opcode ≠ expected →
    outcome = .failed (.unexpectedInstruction expected i.opcode)
  of_expected : ∀ i rest, heard = .done (i, rest) → i.opcode = expected → next i rest

/-- What comes of expecting an instruction. -/
inductive Expects (expected : String) (link : Link) : Outcome Refusal Instruction × Link → Prop where
  | failed {failure : Failure} {reader : Reader}
      (hfirst : firstInstruction link.reader.stream link.reader.ending? = .failed failure) :
      Expects expected link (.failed (.tunnel failure), { link with reader })
  | waiting {reader : Reader}
      (hfirst : firstInstruction link.reader.stream link.reader.ending? = .waiting) :
      Expects expected link (.waiting, { link with reader })
  | refused {i : Instruction} {rest : List UInt8} {reader : Reader}
      (hfirst : firstInstruction link.reader.stream link.reader.ending? = .done (i, rest))
      (herror : i.opcode = "error") :
      Expects expected link
        (.failed (.daemon (errorStatus i.args) (i.args.headD "")), { link with reader })
  | unexpected {i : Instruction} {rest : List UInt8} {reader : Reader}
      (hfirst : firstInstruction link.reader.stream link.reader.ending? = .done (i, rest))
      (herror : i.opcode ≠ "error") (hother : i.opcode ≠ expected) :
      Expects expected link (.failed (.unexpectedInstruction expected i.opcode), { link with reader })
  | done {i : Instruction} {rest : List UInt8} {reader : Reader}
      (hfirst : firstInstruction link.reader.stream link.reader.ending? = .done (i, rest))
      (herror : i.opcode ≠ "error") (hopcode : i.opcode = expected)
      (hread : link.reader.readInstruction false = (.done i, reader))
      (hnext : reader.Follows rest link.reader.ending?) :
      Expects expected link (.done i, { link with reader })

/-- What comes first decides: the expected instruction, an error, another one, or a failure. -/
theorem expects_expect (expected : String) {link : Link} (hlink : link.reader.Underway) :
    Expects expected link (expect expected link) := by
  have hreads := hlink.readInstruction
  unfold expect andThen receive
  generalize hread : link.reader.readInstruction false = read at hreads ⊢
  cases hreads with
  | failed hfirst => exact .failed hfirst
  | waiting hfirst => exact .waiting hfirst
  | @done i rest next hfirst hnext =>
      dsimp only
      unfold accept
      by_cases herror : i.opcode = "error"
      · rw [if_pos herror]
        exact .refused hfirst herror
      · rw [if_neg herror]
        by_cases hopcode : i.opcode = expected
        · rw [if_neg (not_not.mpr hopcode)]
          exact .done hfirst herror hopcode hread hnext
        · rw [if_pos hopcode]
          exact .unexpected hfirst herror hopcode

/-- A dialogue that begins with the daemon's turn. -/
theorem turn_of_expects (expected : String) (link : Link) {next : Instruction → Dialogue String}
    (After : Instruction → List UInt8 → Outcome Refusal String × Link → Prop)
    (hlink : link.reader.Underway) (hexpected : expected ≠ "error")
    (hnext : ∀ i rest reader,
      firstInstruction link.reader.stream link.reader.ending? = .done (i, rest) →
      i.opcode = expected → reader.Follows rest link.reader.ending? →
      After i rest (next i { link with reader })) :
    Turn expected (firstInstruction link.reader.stream link.reader.ending?)
      ((expect expected).andThen next link).1
      fun i rest => After i rest ((expect expected).andThen next link) := by
  have hexpects := expects_expect expected hlink
  unfold andThen
  generalize expect expected link = heard at hexpects ⊢
  cases hexpects with
  | failed hfirst =>
      rw [hfirst]
      refine ⟨?_, nofun, nofun, nofun, nofun⟩
      rintro _ ⟨⟩
      rfl
  | waiting hfirst =>
      rw [hfirst]
      exact ⟨nofun, fun _ => rfl, nofun, nofun, nofun⟩
  | refused hfirst herror =>
      rw [hfirst]
      refine ⟨nofun, nofun, ?_, ?_, ?_⟩
      · rintro _ _ ⟨⟩ _
        exact ⟨_, namesStatus_errorStatus _, rfl⟩
      · rintro _ _ ⟨⟩ hne
        exact absurd herror hne
      · rintro _ _ ⟨⟩ hopcode
        exact absurd (hopcode.symm.trans herror) hexpected
  | unexpected hfirst herror hother =>
      rw [hfirst]
      refine ⟨nofun, nofun, ?_, ?_, ?_⟩
      · rintro _ _ ⟨⟩ heq
        exact absurd heq herror
      · rintro _ _ ⟨⟩ _ _
        rfl
      · rintro _ _ ⟨⟩ heq
        exact absurd heq hother
  | done hfirst herror hopcode _ hfollows =>
      have hafter := hnext _ _ _ hfirst hopcode hfollows
      rw [hfirst]
      refine ⟨nofun, nofun, ?_, ?_, ?_⟩
      · rintro _ _ ⟨⟩ heq
        exact absurd heq herror
      · rintro _ _ ⟨⟩ _ hne
        exact absurd hopcode hne
      · rintro _ _ ⟨⟩ _
        exact hafter

/-! ## Parts of a dialogue -/

section Parts

variable {α β : Type} {first : Dialogue α} {next : α → Dialogue β} {link : Link}

/-- The first part of a dialogue comes to a value, or the whole does not. -/
theorem exists_done_or_not (first : Dialogue α) (link : Link) :
    (∃ value middle, first link = (.done value, middle)) ∨
      ∀ value, (first link).1 ≠ .done value := by
  cases hresult : first link with
  | mk outcome middle =>
      cases outcome with
      | done value => exact Or.inl ⟨value, middle, rfl⟩
      | failed refusal => exact Or.inr nofun
      | waiting => exact Or.inr nofun

theorem andThen_of_done {value : α} {middle : Link} (hdone : first link = (.done value, middle)) :
    first.andThen next link = next value middle := by
  simp only [andThen, hdone]

/-- A part that is not done is the last one. -/
theorem andThen_of_not_done (hnot : ∀ value, (first link).1 ≠ .done value) :
    (first.andThen next link).2 = (first link).2 ∧
      ∀ value, (first.andThen next link).1 ≠ .done value := by
  unfold andThen
  cases hresult : first link with
  | mk outcome middle =>
      cases outcome with
      | done value => exact absurd (congrArg Prod.fst hresult) (hnot value)
      | failed refusal => exact ⟨rfl, nofun⟩
      | waiting => exact ⟨rfl, nofun⟩

end Parts

/-! ## The client's turns -/

/-- What comes of sending an instruction. -/
inductive Sends (link : Link) (i : Instruction) : Outcome Refusal Unit × Link → Prop where
  | failed {reason : String} {sink : Sink}
      (hput : link.sink.put false i.encode = (.failed (.writing reason), sink)) :
      Sends link i (.failed (.tunnel (.writing reason)), { link with sink })
  | waiting {rest : List UInt8} {sink : Sink}
      (hput : link.sink.put false i.encode = (.waiting rest, sink)) :
      Sends link i (.waiting, { link with sink })
  | flushing {sink : Sink} (hput : link.sink.put false i.encode = (.done, sink))
      (hflush : sink.flushOut? = none) :
      Sends link i (.waiting, { link with sink })
  | unflushed {reason : String} {sink after : Sink}
      (hput : link.sink.put false i.encode = (.done, sink))
      (hflush : sink.flushOut? = some (.error (.flushing reason), after)) :
      Sends link i (.failed (.tunnel (.flushing reason)), { link with sink := after })
  | done {sink after : Sink} (hput : link.sink.put false i.encode = (.done, sink))
      (hflush : sink.flushOut? = some (.ok (), after)) :
      Sends link i (.done (), { link with sink := after })

/-- An instruction is sent if the sink takes and flushes it, and else the sending fails or waits. -/
theorem sends_send (link : Link) (i : Instruction) : Sends link i (send i link) := by
  unfold send
  cases hput : link.sink.put false i.encode with
  | mk writing sink =>
      cases writing with
      | waiting rest => exact .waiting hput
      | failed failure =>
          obtain ⟨reason, rfl⟩ := Sink.exists_reason_of_put hput
          exact .failed hput
      | done =>
          cases hflush : sink.flushOut? with
          | none =>
              simp only [hflush]
              exact .flushing hput hflush
          | some flushed =>
              obtain ⟨result, after⟩ := flushed
              cases result with
              | ok _ =>
                  simp only [hflush]
                  exact .done hput hflush
              | error failure =>
                  obtain ⟨reason, rfl⟩ := Sink.exists_reason_of_flushOut? hflush
                  simp only [hflush]
                  exact .unflushed hput hflush

theorem reader_send (link : Link) (i : Instruction) : (send i link).2.reader = link.reader := by
  have hsends := sends_send link i
  generalize send i link = result at hsends ⊢
  cases hsends <;> rfl

theorem send_of_flows (link : Link) (hflows : link.sink.manner.Flows) (i : Instruction) :
    ∃ sink, send i link = (.done (), { link with sink }) ∧ sink.manner = link.sink.manner ∧
      sink.accepted = link.sink.accepted ++ i.encode := by
  obtain ⟨taken, rest, after, hbytes, haccepted, hmanner, hput⟩ :=
    Sink.put_of_accepts hflows.accepts i.encode
  rcases hput with ⟨rfl, hput⟩ | ⟨hblocks, _⟩
  · rw [List.append_nil] at hbytes
    rcases Sink.flushOut?_of_accepts (hmanner ▸ hflows.accepts) with hflush | ⟨-, hblocks⟩
    · refine ⟨{ after with flushes := after.flushes + 1 }, ?_, hmanner, by rw [haccepted, hbytes]⟩
      simp only [send, hput, hflush]
    · rw [hmanner] at hblocks
      exact absurd hflows.prompt.2 hblocks
  · exact absurd hflows.prompt.1 hblocks

/-- A sink that flows takes any number of instructions. -/
theorem sendAll_of_flows (link : Link) (hflows : link.sink.manner.Flows)
    (instructions : List Instruction) :
    ∃ sink, sendAll instructions link = (.done (), { link with sink }) ∧
      sink.manner = link.sink.manner ∧
      sink.accepted = link.sink.accepted ++ instructions.flatMap Instruction.encode := by
  induction instructions generalizing link with
  | nil => exact ⟨link.sink, rfl, rfl, (List.append_nil _).symm⟩
  | cons i rest ih =>
      obtain ⟨middle, hsend, hmanner, haccepted⟩ := send_of_flows link hflows i
      obtain ⟨sink, hall, hmanner', haccepted'⟩ := ih { link with sink := middle } (hmanner ▸ hflows)
      refine ⟨sink, ?_, hmanner'.trans hmanner, ?_⟩
      · simp only [sendAll, andThen, hsend, hall]
      · rw [haccepted', haccepted, List.flatMap_cons, List.append_assoc]

/-! ## Both turns -/

/-- The reader of a tunnel over a link goes on where the link's own reader is. -/
theorem follows_tunnelOver {link : Link} {rest : List UInt8} {ending : Option (Option String)}
    (hreader : link.reader.Follows rest ending) (c : Configuration) (identity : Identity) :
    (Connection.tunnelOver c identity link).reader.Follows rest ending where
  underway := ⟨⟨hreader.underway.sound.complete_le, hreader.underway.sound.whole_complete⟩,
    hreader.underway.pending_eq, hreader.underway.ended_eq⟩
  stream_eq := hreader.stream_eq
  ending_eq := hreader.ending_eq

/-- A tunnel over the link has these bytes before it, and nothing but them: the batches that are
read from it are their whole instructions, and then it is said what is the matter with the rest. -/
def HandsOver (link : Link) (rest : List UInt8) (ending : Option (Option String)) : Prop :=
  ∀ (c : Configuration) (identity : Identity),
    (Connection.tunnelOver c identity link).isOpen = true ∧
    (Connection.tunnelOver c identity link).reader.stream = rest ∧
    ∃ batches : List (List UInt8),
      batches.flatten = wholePart rest ∧ (∀ batch ∈ batches, batch ≠ [] ∧ Whole batch) ∧
      (Reader.readTimes (batches.length + 1) (Connection.tunnelOver c identity link).reader).1 =
        batches.map Outcome.done ++ [.ofFailure? (Reader.lastWord? (openPart rest) ending)]

/-- What is left after the handshake is read as if nothing had gone before. -/
theorem handsOver_of_follows {link : Link} {rest : List UInt8} {ending : Option (Option String)}
    (hreader : link.reader.Follows rest ending) : HandsOver link rest ending := by
  intro c identity
  obtain ⟨hunderway, hstream, hending⟩ := follows_tunnelOver hreader c identity
  obtain ⟨batches, hflatten, hall, hreads⟩ := hunderway.exists_batches
  rw [hstream] at hflatten hreads
  rw [hending] at hreads
  exact ⟨rfl, hstream, batches, hflatten, hall, hreads⟩

/-- The daemon's last turn, and the link that is left when it has had it. -/
theorem turn_of_ready (link : Link) (hlink : link.reader.Underway) :
    Turn "ready" (firstInstruction link.reader.stream link.reader.ending?)
      ((expect "ready").andThen (fun ready => give (ready.args.headD "")) link).1
      fun ready rest =>
        ((expect "ready").andThen (fun ready => give (ready.args.headD "")) link).1 =
            .done (ready.args.headD "") ∧
          HandsOver ((expect "ready").andThen (fun ready => give (ready.args.headD "")) link).2 rest
            link.reader.ending? := by
  refine turn_of_expects "ready" link
    (fun ready rest result => result.1 = .done (ready.args.headD "") ∧
      HandsOver result.2 rest link.reader.ending?) hlink (by decide) ?_
  intro ready rest reader _ _ hfollows
  exact ⟨rfl, handsOver_of_follows hfollows⟩

end Dialogue

/-- However the daemon's stream is cut, and whatever else it brings: if the client's sink takes
everything, then the daemon's turns are decided by the first instruction of its stream and by the
one that follows it. If both are what they should be, the handshake gives the first argument of the
last one, the two are gone, and a tunnel over the link begins right behind them. -/
theorem handshake_takes_two_instructions (settings : Settings) (source : List Arrival)
    (idleTimeout : Option Nat) (sink : Sink) (hflows : sink.manner.Flows) :
    Dialogue.Turn "args"
      (Reader.firstInstruction (Arrival.stream source) (Arrival.ending? source))
      (handshake settings { reader := { source, idleTimeout }, sink }).1
      fun args rest =>
        Dialogue.Turn "ready" (Reader.firstInstruction rest (Arrival.ending? source))
          (handshake settings { reader := { source, idleTimeout }, sink }).1
          fun ready left =>
            (handshake settings { reader := { source, idleTimeout }, sink }).1 =
                .done (ready.args.headD "") ∧
              (∃ first second, Arrival.stream source = first ++ (second ++ left) ∧
                Instruction.decode first = .ok args ∧ Instruction.decode second = .ok ready) ∧
              Dialogue.HandsOver
                (handshake settings { reader := { source, idleTimeout }, sink }).2 left
                (Arrival.ending? source) := by
  -- sending leaves the reader alone, so each turn hears what was left of the stream by the last one
  obtain ⟨selected, hselect, hmanner, _⟩ :=
    Dialogue.send_of_flows { reader := { source, idleTimeout }, sink } hflows
      settings.selectInstruction
  have hhandshake : handshake settings { reader := { source, idleTimeout }, sink } =
      ((Dialogue.expect "args").andThen fun args =>
        (Dialogue.sendAll (settings.answers args.args)).andThen fun _ =>
          (Dialogue.expect "ready").andThen fun ready => Dialogue.give (ready.args.headD ""))
        { reader := { source, idleTimeout }, sink := selected } := by
    simp only [handshake, Dialogue.andThen, hselect]
  rw [hhandshake]
  refine Dialogue.turn_of_expects "args" { reader := { source, idleTimeout }, sink := selected }
    (fun args rest result =>
      Dialogue.Turn "ready" (Reader.firstInstruction rest (Arrival.ending? source)) result.1
        fun ready left => result.1 = .done (ready.args.headD "") ∧
          (∃ first second, Arrival.stream source = first ++ (second ++ left) ∧
            Instruction.decode first = .ok args ∧ Instruction.decode second = .ok ready) ∧
          Dialogue.HandsOver result.2 left (Arrival.ending? source))
    (Reader.underway_fresh source idleTimeout) (by decide) ?_
  intro args rest reader hfirst _ hfollows
  obtain ⟨answered, hanswers, _, _⟩ :=
    Dialogue.sendAll_of_flows { reader, sink := selected } (hmanner ▸ hflows)
      (settings.answers args.args)
  have hturn := Dialogue.turn_of_ready { reader, sink := answered } hfollows.underway
  rw [hfollows.stream_eq, hfollows.ending_eq] at hturn
  simp only [Dialogue.andThen, hanswers] at hturn ⊢
  refine ⟨hturn.of_failed, hturn.of_waiting, hturn.of_error, hturn.of_other, ?_⟩
  intro ready left hsecond hopcode
  obtain ⟨hdone, hover⟩ := hturn.of_expected ready left hsecond hopcode
  obtain ⟨first, hstream, _, hargs⟩ := Reader.exists_front_of_firstInstruction hfirst
  obtain ⟨second, hrest, _, hready⟩ := Reader.exists_front_of_firstInstruction hsecond
  refine ⟨hdone, ⟨first, second, ?_, hargs, hready⟩, hover⟩
  rw [← hrest]
  exact hstream

/-- The second instruction comes in two reads, and the second of these brings more than its end. -/
def readyWithMore : List Arrival :=
  [.data (Instruction.encode ⟨"args", ["VERSION_1_5_0", "password"]⟩ ++ [0x35, 0x2E, 0x72]),
    .data ((Instruction.encode ⟨"ready", ["$1"]⟩).drop 3 ++ Instruction.encode ⟨"sync", ["0"]⟩),
    .finish]

theorem handshake_takes_two_instructions_of_three :
    (handshake { protocol := some "vnc" }
        { reader := { source := readyWithMore }, sink := { manner := { maxWrite := some 3 } } }).1 =
        .done "$1" ∧
      (Connection.tunnelOver {} (.random 0) (handshake { protocol := some "vnc" }
        { reader := { source := readyWithMore },
          sink := { manner := { maxWrite := some 3 } } }).2).reader.stream =
        Instruction.encode ⟨"sync", ["0"]⟩ := by
  have hturn := handshake_takes_two_instructions { protocol := some "vnc" } readyWithMore none
    { manner := { maxWrite := some 3 } } (by decide)
  have hfirst : Reader.firstInstruction (Arrival.stream readyWithMore)
      (Arrival.ending? readyWithMore) =
      .done (⟨"args", ["VERSION_1_5_0", "password"]⟩,
        Instruction.encode ⟨"ready", ["$1"]⟩ ++ Instruction.encode ⟨"sync", ["0"]⟩) := by
    decide +kernel
  have hsecond : Reader.firstInstruction
      (Instruction.encode ⟨"ready", ["$1"]⟩ ++ Instruction.encode ⟨"sync", ["0"]⟩)
      (Arrival.ending? readyWithMore) =
      .done (⟨"ready", ["$1"]⟩, Instruction.encode ⟨"sync", ["0"]⟩) := by
    decide +kernel
  obtain ⟨hdone, -, hover⟩ := (hturn.of_expected _ _ hfirst rfl).of_expected _ _ hsecond rfl
  exact ⟨hdone, (hover {} (.random 0)).2.1⟩

end LongPollTunnel
