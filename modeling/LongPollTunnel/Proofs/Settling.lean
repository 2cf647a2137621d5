import LongPollTunnel.Connection.Opening
import LongPollTunnel.Proofs.Sources

/-! # What is over stays over

A dialogue that is looked at again later has more to read, and its sink may have shown what it does
where it made its writer wait. However it takes its bytes, a sink takes them one by one, and so
neither changes what has been said. Main statement: a handshake comes to the same as before unless it had to
wait, and so does an attempt to open a connection.
-/

namespace LongPollTunnel

/-! ## Writing byte by byte -/

namespace Sink

/-- So many bytes do not cross a bound. -/
structure HasRoom (s : Sink) (count : Nat) : Prop where
  errorAt : ∀ bound, s.manner.errorAt = some bound → s.accepted.length + count ≤ bound
  zeroAt : ∀ bound, s.manner.zeroAt = some bound → s.accepted.length + count ≤ bound
  blockAt : ∀ bound, s.manner.blockAt = some bound → s.accepted.length + count ≤ bound
  maxWrite : s.manner.maxWrite ≠ some 0

/-- Writes one byte after the other. -/
def writeEach : Sink → List UInt8 → Written × Sink
  | s, [] => (.all, s)
  | s, byte :: rest =>
    match s.reply 1 with
    | .fail reason => (.failed reason, s)
    | .wait => (.blocked (byte :: rest), s)
    | .take 0 => (.failed "write zero", s)
    | .take _ => writeEach { s with accepted := s.accepted ++ [byte] } rest

variable {s : Sink} {length count : Nat}

theorem isPast_eq_false_iff {total : Nat} {bound : Option Nat} :
    isPast total bound = false ↔ ∀ n, bound = some n → total + 1 ≤ n := by
  cases bound with
  | none => simp [isPast]
  | some n =>
      rw [isPast, Option.any_some, decide_eq_false_iff_not, Nat.not_le]
      exact ⟨fun hlt found hfound => Option.some.inj hfound ▸ hlt, fun hle => hle n rfl⟩

theorem le_capAt {total least : Nat} {bound : Option Nat} (hleast : least ≤ count)
    (hbound : ∀ n, bound = some n → total + least ≤ n) : least ≤ capAt total bound count := by
  cases bound with
  | none => exact hleast
  | some n =>
      have hroom := hbound n rfl
      exact Nat.le_min.mpr ⟨hleast, by omega⟩

/-- Capping makes a count smaller at most. -/
theorem capAt_le (total : Nat) (bound : Option Nat) (count : Nat) :
    capAt total bound count ≤ count := by
  cases bound with
  | none => exact Nat.le_refl _
  | some n => exact Nat.min_le_left _ _

/-- A capped write does not cross the bound. -/
theorem add_capAt_le {total n : Nat} {bound : Option Nat} (hbound : bound = some n)
    (hroom : total ≤ n) (count : Nat) : total + capAt total bound count ≤ n := by
  subst hbound
  have hle : min count (n - total) ≤ n - total := Nat.min_le_right _ _
  change total + min count (n - total) ≤ n
  omega

/-- How much of a write a sink takes if no bound is reached. -/
def portion (s : Sink) (length : Nat) : Nat :=
  capAt s.accepted.length s.manner.errorAt <| capAt s.accepted.length s.manner.zeroAt <|
    capAt s.accepted.length s.manner.blockAt <| capAt 0 s.manner.maxWrite length

/-- A write takes no more than it is given, nor than one write may take. -/
theorem portion_le (s : Sink) (length : Nat) :
    s.portion length ≤ capAt 0 s.manner.maxWrite length ∧ s.portion length ≤ length := by
  have herror := capAt_le s.accepted.length s.manner.errorAt
    (capAt s.accepted.length s.manner.zeroAt <| capAt s.accepted.length s.manner.blockAt <|
      capAt 0 s.manner.maxWrite length)
  have hzero := capAt_le s.accepted.length s.manner.zeroAt
    (capAt s.accepted.length s.manner.blockAt <| capAt 0 s.manner.maxWrite length)
  have hblock := capAt_le s.accepted.length s.manner.blockAt (capAt 0 s.manner.maxWrite length)
  have hmax := capAt_le 0 s.manner.maxWrite length
  have hle := Nat.le_trans (Nat.le_trans herror hzero) hblock
  exact ⟨hle, Nat.le_trans hle hmax⟩

/-- A sink that neither fails nor waits takes a portion. -/
theorem reply_eq (s : Sink) (length : Nat) :
    s.reply length =
      if isPast s.accepted.length s.manner.errorAt then .fail s.manner.errorText
      else if isPast s.accepted.length s.manner.zeroAt then .take 0
      else if isPast s.accepted.length s.manner.blockAt then .wait
      else .take (s.portion length) :=
  rfl

/-- A sink with room takes some of a write, as much as it has room for. -/
theorem reply_of_hasRoom (hroom : s.HasRoom 1) (hsome : 0 < length) :
    ∃ count, s.reply length = .take (count + 1) ∧ count + 1 ≤ length ∧ s.HasRoom (count + 1) := by
  have herror := isPast_eq_false_iff.mpr hroom.errorAt
  have hzero := isPast_eq_false_iff.mpr hroom.zeroAt
  have hblock := isPast_eq_false_iff.mpr hroom.blockAt
  have hpositive : 1 ≤ s.portion length := by
    refine le_capAt (le_capAt (le_capAt (le_capAt hsome ?_) hroom.blockAt) hroom.zeroAt)
      hroom.errorAt
    intro n hmax
    rw [Nat.zero_add, Nat.one_le_iff_ne_zero]
    rintro rfl
    exact hroom.maxWrite hmax
  have hcount : s.portion length - 1 + 1 = s.portion length := Nat.sub_add_cancel hpositive
  refine ⟨s.portion length - 1, ?_, ?_, ?_⟩
  · rw [reply_eq, herror, hzero, hblock, hcount]
    rfl
  · rw [hcount]
    exact (s.portion_le length).2
  · rw [hcount]
    refine ⟨?_, ?_, ?_, hroom.maxWrite⟩
    · intro bound hbound
      exact add_capAt_le hbound (Nat.le_of_succ_le (hroom.errorAt bound hbound)) _
    · intro bound hbound
      have hcap := add_capAt_le hbound (Nat.le_of_succ_le (hroom.zeroAt bound hbound))
        (capAt s.accepted.length s.manner.blockAt <| capAt 0 s.manner.maxWrite length)
      exact Nat.le_trans (Nat.add_le_add_left (capAt_le _ _ _) _) hcap
    · intro bound hbound
      have hcap := add_capAt_le hbound (Nat.le_of_succ_le (hroom.blockAt bound hbound))
        (capAt 0 s.manner.maxWrite length)
      have hle : s.portion length ≤
          capAt s.accepted.length s.manner.blockAt (capAt 0 s.manner.maxWrite length) :=
        Nat.le_trans (capAt_le _ _ _) (capAt_le _ _ _)
      exact Nat.le_trans (Nat.add_le_add_left hle _) hcap

theorem portion_of_maxWrite (hmax : s.manner.maxWrite = some 0) (length : Nat) :
    s.portion length = 0 := by
  have hle := (s.portion_le length).1
  rw [hmax] at hle
  exact Nat.le_zero.mp (Nat.le_trans hle (Nat.min_le_right _ _))

/-- A sink without room answers every write alike, and takes nothing of it. -/
theorem reply_of_not_hasRoom (hroom : ¬ s.HasRoom 1) (length : Nat) :
    s.reply length = s.reply 1 ∧ ∀ count, s.reply 1 ≠ .take (count + 1) := by
  rw [reply_eq, reply_eq]
  by_cases herror : isPast s.accepted.length s.manner.errorAt = true
  · simp only [if_pos herror]
    exact ⟨trivial, nofun⟩
  by_cases hzero : isPast s.accepted.length s.manner.zeroAt = true
  · simp only [if_neg herror, if_pos hzero]
    exact ⟨trivial, nofun⟩
  by_cases hblock : isPast s.accepted.length s.manner.blockAt = true
  · simp only [if_neg herror, if_neg hzero, if_pos hblock]
    exact ⟨trivial, nofun⟩
  have hmax : s.manner.maxWrite = some 0 := by
    by_contra hmax
    rw [Bool.not_eq_true, isPast_eq_false_iff] at herror hzero hblock
    exact hroom ⟨herror, hzero, hblock, hmax⟩
  simp only [if_neg herror, if_neg hzero, if_neg hblock, portion_of_maxWrite hmax]
  exact ⟨trivial, nofun⟩

/-- Bytes that there is room for are taken one after the other. -/
theorem writeEach_append {front : List UInt8} (hroom : s.HasRoom front.length)
    (rest : List UInt8) :
    s.writeEach (front ++ rest) =
      ({ s with accepted := s.accepted ++ front } : Sink).writeEach rest := by
  induction front generalizing s with
  | nil => rw [List.nil_append, List.append_nil]
  | cons byte front ih =>
      have hfirst : s.HasRoom 1 := by
        rw [List.length_cons] at hroom
        refine ⟨?_, ?_, ?_, hroom.maxWrite⟩
        · exact fun bound hbound => by have := hroom.errorAt bound hbound; omega
        · exact fun bound hbound => by have := hroom.zeroAt bound hbound; omega
        · exact fun bound hbound => by have := hroom.blockAt bound hbound; omega
      have hlater : ({ s with accepted := s.accepted ++ [byte] } : Sink).HasRoom front.length := by
        rw [List.length_cons] at hroom
        refine ⟨?_, ?_, ?_, hroom.maxWrite⟩
        all_goals
          intro bound hbound
          rw [List.length_append, List.length_singleton]
        · have hle := hroom.errorAt bound hbound
          omega
        · have hle := hroom.zeroAt bound hbound
          omega
        · have hle := hroom.blockAt bound hbound
          omega
      obtain ⟨count, htake, _, _⟩ := reply_of_hasRoom hfirst Nat.one_pos
      have hnext := ih hlater
      rw [List.append_assoc, List.singleton_append] at hnext
      rw [List.cons_append, writeEach, htake]
      exact hnext

/-- However much of each write a sink takes, in the end it takes one byte after the other. -/
theorem writeWithin_eq_writeEach {rounds : Nat} {bytes : List UInt8}
    (hrounds : bytes.length ≤ rounds) : s.writeWithin rounds bytes = s.writeEach bytes := by
  induction rounds generalizing s bytes with
  | zero =>
      rw [List.eq_nil_of_length_eq_zero (Nat.le_zero.mp hrounds)]
      rfl
  | succ rounds ih =>
      cases bytes with
      | nil => rfl
      | cons byte tail =>
          by_cases hroom : s.HasRoom 1
          · obtain ⟨count, htake, hle, hmore⟩ := reply_of_hasRoom hroom (Nat.succ_pos tail.length)
            have hfront : ((byte :: tail).take (count + 1)).length = count + 1 :=
              List.length_take_of_le hle
            have hshorter : ((byte :: tail).drop (count + 1)).length ≤ rounds := by
              rw [List.length_drop]
              omega
            have heach := writeEach_append (hfront.symm ▸ hmore) ((byte :: tail).drop (count + 1))
            rw [List.take_append_drop] at heach
            rw [heach]
            simp only [writeWithin, List.length_cons, htake]
            exact ih hshorter
          · obtain ⟨hsame, hnone⟩ := reply_of_not_hasRoom hroom (byte :: tail).length
            simp only [writeWithin, writeEach, hsame]
            cases hreply : s.reply 1 with
            | fail reason => rfl
            | wait => rfl
            | take count =>
                cases count with
                | zero => rfl
                | succ count => exact absurd hreply (hnone count)

/-! ## A manner that unfolds -/

variable {manner : Manner}

/-- A sink whose manner unfolds takes the same bytes, unless it makes the writer wait. -/
theorem writeEach_withManner (hunfolds : s.manner.Unfolds manner) {bytes : List UInt8}
    (hwait : ∀ rest, (s.writeEach bytes).1 ≠ .blocked rest) :
    (s.withManner manner).writeEach bytes =
      ((s.writeEach bytes).1, (s.writeEach bytes).2.withManner manner) := by
  induction bytes generalizing s with
  | nil => rfl
  | cons byte rest ih =>
      have hreply : s.reply 1 ≠ .wait := by
        intro hreply
        simp only [writeEach, hreply] at hwait
        exact hwait _ rfl
      have hsame := hunfolds.reply_eq s rfl hreply
      unfold writeEach at hwait ⊢
      rw [hsame]
      cases hanswer : s.reply 1 with
      | fail reason => rfl
      | wait => exact absurd hanswer hreply
      | take count =>
          cases count with
          | zero => rfl
          | succ count =>
              rw [hanswer] at hwait
              exact @ih { s with accepted := s.accepted ++ [byte] } hunfolds hwait

/-- A write that is over comes to the same at a sink that has shown more. -/
theorem put_withManner (hunfolds : s.manner.Unfolds manner) {bytes : List UInt8}
    (hwait : ∀ rest, (s.put false bytes).1 ≠ .waiting rest) :
    (s.withManner manner).put false bytes =
      ((s.put false bytes).1, (s.put false bytes).2.withManner manner) := by
  unfold put writeAll at hwait ⊢
  simp only [Bool.false_eq_true, if_false] at hwait ⊢
  rw [writeWithin_eq_writeEach (Nat.le_refl _)] at hwait ⊢
  have hblocked : ∀ rest, (s.writeEach bytes).1 ≠ .blocked rest := by
    intro rest hrest
    rw [show s.writeEach bytes = (.blocked rest, (s.writeEach bytes).2) from
      Prod.ext hrest rfl] at hwait
    exact hwait rest rfl
  rw [writeWithin_eq_writeEach (Nat.le_refl _), writeEach_withManner hunfolds hblocked]
  generalize s.writeEach bytes = result
  obtain ⟨written, sink⟩ := result
  cases written <;> rfl

/-- A flush that is over comes to the same at a sink that has shown more. -/
theorem flushOut?_withManner (hunfolds : s.manner.Unfolds manner) {result : Except Failure Unit}
    {after : Sink} (hflush : s.flushOut? = some (result, after)) :
    (s.withManner manner).flushOut? = some (result, after.withManner manner) := by
  obtain ⟨⟨found, flushed⟩, hfound, heq⟩ := Option.map_eq_some_iff.mp hflush
  cases heq
  rw [flushOut?, hunfolds.flush?_eq s rfl found after hfound, Option.map_some]

theorem manner_writeEach (s : Sink) (bytes : List UInt8) :
    (s.writeEach bytes).2.manner = s.manner := by
  induction bytes generalizing s with
  | nil => rfl
  | cons byte rest ih =>
      unfold writeEach
      split
      · rfl
      · rfl
      · rfl
      · exact ih _

theorem manner_put (s : Sink) (bytes : List UInt8) : (s.put false bytes).2.manner = s.manner := by
  have hmanner := s.manner_writeEach bytes
  unfold put writeAll
  simp only [Bool.false_eq_true, if_false]
  rw [writeWithin_eq_writeEach (Nat.le_refl _)]
  generalize s.writeEach bytes = result at hmanner ⊢
  obtain ⟨written, sink⟩ := result
  cases written <;> exact hmanner

end Sink

namespace Reader

variable {r : Reader}

/-! ## More that comes later -/

/-- The reader when more is to be read. -/
def withMore (r : Reader) (more : List Arrival) : Reader :=
  { r with source := r.source ++ more }

/-- A wait that is over does not depend on what comes after. -/
theorem awaitFrom_append {source : List Arrival} (hover : (awaitFrom source r).1 ≠ .waiting)
    (more : List Arrival) :
    awaitFrom (source ++ more) r =
      ((awaitFrom source r).1, (awaitFrom source r).2.withMore more) := by
  induction source generalizing r with
  | nil =>
      rw [awaitFrom] at hover
      cases more with
      | nil => rfl
      | cons arrival rest =>
          rw [List.nil_append, awaitFrom, awaitFrom]
          cases hcheck : r.check with
          | mk outcome next =>
              rw [hcheck] at hover
              cases outcome with
              | waiting => exact absurd rfl hover
              | done value => rfl
              | failed failure => rfl
  | cons arrival rest ih =>
      rw [List.cons_append]
      unfold awaitFrom at hover ⊢
      cases hcheck : r.check with
      | mk outcome next =>
          rw [hcheck] at hover
          cases outcome with
          | waiting => exact ih hover
          | done value => rfl
          | failed failure => rfl

theorem takeInstruction_withMore (r : Reader) (more : List Arrival) :
    (r.withMore more).takeInstruction =
      (r.takeInstruction.1, r.takeInstruction.2.withMore more) := by
  unfold takeInstruction
  simp only [withMore]
  cases Framing.instructionEnd r.buffer with
  | error fault => rfl
  | ok found =>
      cases found with
      | none => rfl
      | some length =>
          dsimp only
          cases Instruction.decode (r.buffer.take length) <;> rfl

/-- A read that is over comes to the same if more is there. -/
theorem readInstruction_withMore (hover : (r.readInstruction false).1 ≠ .waiting)
    (more : List Arrival) :
    (r.withMore more).readInstruction false =
      ((r.readInstruction false).1, (r.readInstruction false).2.withMore more) := by
  have hawait : (r.await false).1 ≠ .waiting := by
    intro hwait
    unfold readInstruction at hover
    rw [show r.await false = (.waiting, (r.await false).2) from Prod.ext hwait rfl] at hover
    exact hover rfl
  have hsame : (r.withMore more).await false =
      ((r.await false).1, (r.await false).2.withMore more) := by
    have happend := awaitFrom_append hawait more
    rw [← awaitFrom_with_source _ (r.source ++ more)] at happend
    exact happend
  unfold readInstruction
  rw [hsame]
  cases r.await false with
  | mk outcome next =>
      cases outcome with
      | done value => exact takeInstruction_withMore next more
      | failed failure => rfl
      | waiting => rfl

end Reader

/-- The link when more is to be read and the sink has shown more of its manner. -/
def Link.later (link : Link) (manner : Sink.Manner) (more : List Arrival) : Link where
  reader := link.reader.withMore more
  sink := link.sink.withManner manner

namespace Dialogue

variable {α β : Type}

/-- Hands bytes to the sink. -/
def hand (bytes : List UInt8) : Dialogue Unit := fun link =>
  match link.sink.put false bytes with
  | (.done, sink) => (.done (), { link with sink })
  | (.failed failure, sink) => (.failed (.tunnel failure), { link with sink })
  | (.waiting _, sink) => (.waiting, { link with sink })

/-- Flushes the sink. -/
def flush : Dialogue Unit := fun link =>
  match link.sink.flushOut? with
  | some (.ok _, sink) => (.done (), { link with sink })
  | some (.error failure, sink) => (.failed (.tunnel failure), { link with sink })
  | none => (.waiting, link)

/-- What is sent is handed to the sink first and flushed then. -/
theorem send_eq (i : Instruction) : send i = (hand i.encode).andThen fun _ => flush := by
  funext link
  unfold send hand flush Dialogue.andThen
  dsimp only
  generalize link.sink.put false i.encode = result
  obtain ⟨writing, sink⟩ := result
  cases writing <;> rfl

/-! ## Dialogues -/

/-- A dialogue that is over comes to the same when more arrives and the sink has shown more. -/
structure Settles (dialogue : Dialogue α) : Prop where
  manner : ∀ link, (dialogue link).2.sink.manner = link.sink.manner
  later : ∀ link manner more, link.sink.manner.Unfolds manner → (dialogue link).1 ≠ .waiting →
    dialogue (link.later manner more) = ((dialogue link).1, (dialogue link).2.later manner more)

namespace Settles

/-- Dialogues that follow each other settle if each of them does. -/
theorem andThen {first : Dialogue α} {next : α → Dialogue β} (hfirst : first.Settles)
    (hnext : ∀ value, (next value).Settles) : (first.andThen next).Settles where
  manner := by
    intro link
    have hmanner := hfirst.manner link
    unfold Dialogue.andThen
    split
    next value middle heq =>
      rw [heq] at hmanner
      exact ((hnext value).manner middle).trans hmanner
    next refusal middle heq =>
      rw [heq] at hmanner
      exact hmanner
    next middle heq =>
      rw [heq] at hmanner
      exact hmanner
  later := by
    intro link manner more hunfolds hover
    have hmanner := hfirst.manner link
    have hlater := hfirst.later link manner more hunfolds
    unfold Dialogue.andThen at hover ⊢
    cases hresult : first link with
    | mk outcome middle =>
        rw [hresult] at hover hmanner hlater
        cases outcome with
        | waiting => exact absurd rfl hover
        | failed refusal => rw [hlater nofun]
        | done value =>
            rw [hlater nofun]
            refine (hnext value).later middle manner more ?_ hover
            rw [hmanner]
            exact hunfolds

theorem give (value : α) : (Dialogue.give value).Settles where
  manner _ := rfl
  later _ _ _ _ _ := rfl

theorem hand (bytes : List UInt8) : (Dialogue.hand bytes).Settles where
  manner := by
    intro link
    have hmanner := link.sink.manner_put bytes
    unfold Dialogue.hand
    generalize link.sink.put false bytes = result at hmanner ⊢
    obtain ⟨writing, sink⟩ := result
    cases writing <;> exact hmanner
  later := by
    intro link manner more hunfolds hover
    have hput : ∀ rest, (link.sink.put false bytes).1 ≠ .waiting rest := by
      intro rest hrest
      unfold Dialogue.hand at hover
      rw [show link.sink.put false bytes =
        (.waiting rest, (link.sink.put false bytes).2) from Prod.ext hrest rfl] at hover
      exact hover rfl
    unfold Dialogue.hand
    simp only [Link.later, Sink.put_withManner hunfolds hput]
    generalize link.sink.put false bytes = result
    obtain ⟨writing, sink⟩ := result
    cases writing <;> rfl

theorem flush : Dialogue.flush.Settles where
  manner := by
    intro link
    unfold Dialogue.flush
    split
    next value after hflush => rw [Sink.eq_of_flushOut? hflush]
    next failure after hflush => rw [Sink.eq_of_flushOut? hflush]
    · rfl
  later := by
    intro link manner more hunfolds hover
    unfold Dialogue.flush at hover ⊢
    cases hflush : link.sink.flushOut? with
    | none =>
        rw [hflush] at hover
        exact absurd rfl hover
    | some flushed =>
        obtain ⟨result, after⟩ := flushed
        simp only [Link.later, Sink.flushOut?_withManner hunfolds hflush]
        cases result <;> rfl

theorem send (i : Instruction) : (Dialogue.send i).Settles := by
  rw [send_eq]
  exact (hand i.encode).andThen fun _ => flush

/-- By induction over the instructions. -/
theorem sendAll (instructions : List Instruction) : (Dialogue.sendAll instructions).Settles := by
  induction instructions with
  | nil => exact give ()
  | cons i rest ih => exact (send i).andThen fun _ => ih

theorem receive : Dialogue.receive.Settles where
  manner := by
    intro link
    unfold Dialogue.receive
    split <;> rfl
  later := by
    intro link manner more _ hover
    have hread : (link.reader.readInstruction false).1 ≠ .waiting := by
      intro hwait
      unfold Dialogue.receive at hover
      rw [show link.reader.readInstruction false =
        (.waiting, (link.reader.readInstruction false).2) from Prod.ext hwait rfl] at hover
      exact hover rfl
    have hsame := Reader.readInstruction_withMore hread more
    unfold Dialogue.receive
    simp only [Link.later, hsame]
    cases link.reader.readInstruction false with
    | mk outcome reader => cases outcome <;> rfl

theorem expect (expected : String) : (Dialogue.expect expected).Settles := by
  refine receive.andThen fun i => ⟨fun link => ?_, fun link manner more _ _ => ?_⟩
  · split <;> rfl
  · cases accept expected i <;> rfl

end Settles

/-- What a handshake has come to at some time it has come to at every later one. -/
theorem settles_handshake (settings : Settings) : (handshake settings).Settles :=
  (Settles.send _).andThen fun _ =>
    (Settles.expect "args").andThen fun args =>
      (Settles.sendAll (settings.answers args.args)).andThen fun _ =>
        (Settles.expect "ready").andThen fun ready => Settles.give (ready.args.headD "")

end Dialogue

/-! ## Attempts -/

theorem Peer.Grows.exists_later {early late : Peer} (hgrows : early.Grows late) :
    ∃ more, late.link = early.link.later late.manner more := by
  obtain ⟨more, hmore⟩ := hgrows.sends
  refine ⟨more, ?_⟩
  unfold link Link.later Reader.withMore Sink.withManner
  rw [← hmore]

/-- The attempts have the same to say; a link that was opened may have more to it later. -/
inductive Connection.Attempt.Continues : Attempt → Attempt → Prop where
  | opened {connection : String} {link : Link} {manner : Sink.Manner} {more : List Arrival} :
      Continues (.opened connection link) (.opened connection (link.later manner more))
  | refused {refusal : Refusal} {early late : Option Link} :
      Continues (.refused refusal early) (.refused refusal late)

namespace Connection

/-- An attempt that is over at some time is over at any later time, and comes to the same. -/
theorem exists_attemptAt_later {c : Configuration} {network : Network} {settings : Settings}
    {early late : Nat} {attempt : Attempt} (hle : early ≤ late)
    (hearly : attemptAt c network settings early = some attempt) :
    ∃ next, attemptAt c network settings late = some next ∧ attempt.Continues next := by
  have hgrows := network.grows c.daemonHost c.daemonPort early late hle
  unfold attemptAt at hearly ⊢
  generalize network.dial c.daemonHost c.daemonPort early = before at hgrows hearly
  generalize network.dial c.daemonHost c.daemonPort late = after at hgrows ⊢
  cases hgrows with
  | unanswered => cases hearly
  | failed =>
      cases hearly
      exact ⟨_, rfl, .refused⟩
  | @connected before after hpeer =>
      dsimp only at hearly ⊢
      obtain ⟨more, hlink⟩ := hpeer.exists_later
      have hover : (handshake settings before.link).1 ≠ .waiting := by
        intro hwait
        rw [show handshake settings before.link = (.waiting, (handshake settings before.link).2)
          from Prod.ext hwait rfl] at hearly
        cases hearly
      have hlater := (Dialogue.settles_handshake settings).later before.link after.manner more
        hpeer.manner hover
      rw [hlink, hlater]
      cases hresult : handshake settings before.link with
      | mk outcome link =>
          rw [hresult] at hearly
          cases outcome with
          | waiting => cases hearly
          | done connection =>
              cases hearly
              exact ⟨_, rfl, .opened⟩
          | failed refusal =>
              cases hearly
              exact ⟨_, rfl, .refused⟩

end Connection

end LongPollTunnel
