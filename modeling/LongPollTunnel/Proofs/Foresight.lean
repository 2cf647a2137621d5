import LongPollTunnel.Proofs.Sessions

/-! # Looking ahead goes unnoticed

A look ahead reads from the source as well: it buffers what it finds and records failures and the
end. Main statement: after a look that finds something the next batch takes nothing from the
source; after one that finds nothing it has to, unless the source has ended; and whoever reads
cannot tell whether anybody looked ahead, however often and whenever.
-/

namespace LongPollTunnel

open Framing

namespace Reader

variable {r r' next : Reader} {closed : Bool}

/-! ## What a look ahead tells -/

/-- The next read has something to say without reading from the source. -/
def CanTell (closed : Bool) (r : Reader) : Prop :=
  closed = true ∨ r.hasNews = true

theorem canTell_of_pending (htold : (closed || r.pending.isSome) = true) : r.CanTell closed := by
  rcases Bool.or_eq_true_iff.mp htold with hclosed | hpending
  · exact Or.inl hclosed
  · refine Or.inr ?_
    rw [hasNews, hpending, Bool.or_true]

/-- A look ahead that answers yes has found something to tell. -/
theorem canTell_of_available (hlook : (r.available closed).1 = true) :
    (r.available closed).2.CanTell closed := by
  have hcases := look_available closed r
  generalize r.available closed = looked at hlook hcases ⊢
  cases hcases with
  | told htold => exact canTell_of_pending htold
  | found hopen hnews => exact Or.inr hnews
  | nothing hopen hnews hover => cases hlook
  | read hopen hnews hended hsource => exact Or.inr hlook

/-- Looking at the buffer again finds no less. -/
theorem CanTell.scan (htell : r.CanTell closed) : r.scan.CanTell closed :=
  htell.imp_right hasNews_scan

/-- Whoever can tell something already takes nothing from the source to look ahead. -/
theorem CanTell.available (htell : r.CanTell closed) :
    (r.available closed).2.CanTell closed ∧ (r.available closed).2.source = r.source := by
  have hnone : (closed || r.pending.isSome) = false → r.scan.hasNews = false → False := by
    intro hopen hnews
    rcases htell.scan with hclosed | hscan
    · rw [hclosed, Bool.true_or] at hopen
      cases hopen
    · rw [hscan] at hnews
      cases hnews
  have hcases := look_available closed r
  generalize r.available closed = looked at hcases ⊢
  cases hcases with
  | told htold => exact ⟨htell, rfl⟩
  | found hopen hnews => exact ⟨Or.inr hnews, rfl⟩
  | nothing hopen hnews hover => exact (hnone hopen hnews).elim
  | read hopen hnews hended hsource => exact (hnone hopen hnews).elim

/-- Who can tell does not wait, and takes nothing from the source. -/
theorem CanTell.await (htell : r.CanTell closed) :
    (r.await closed).1 ≠ .waiting ∧ (r.await closed).2.source = r.source := by
  unfold Reader.await
  split
  · exact ⟨nofun, rfl⟩
  next hopen =>
    have hnews := hasNews_scan (htell.resolve_left hopen)
    have hcheck : ∃ outcome checked, r.check = (outcome, checked) ∧ outcome ≠ .waiting := by
      rcases check_of_hasNews hnews with ⟨hdone, _⟩ | ⟨failure, _, _, hfailed⟩
      · exact ⟨_, _, hdone, nofun⟩
      · exact ⟨_, _, hfailed, nofun⟩
    obtain ⟨outcome, checked, hcheck, hnot⟩ := hcheck
    cases hsource : r.source with
    | nil => simp only [awaitFrom, hcheck, ne_eq, hnot, not_false_eq_true, and_self]
    | cons arrival rest =>
        unfold awaitFrom
        rw [hcheck]
        split
        next heq =>
          obtain ⟨rfl, -⟩ := Prod.mk.inj heq
          exact absurd rfl hnot
        next heq =>
          obtain ⟨rfl, -⟩ := Prod.mk.inj heq
          exact ⟨hnot, rfl⟩

/-- Whoever can tell something hands out instructions or fails, and takes nothing from the
source. -/
theorem CanTell.readSome (hr : r.Sound) (htell : r.CanTell closed) (expired : Bool) :
    (r.readSome closed expired).1 ≠ .waiting ∧ (r.readSome closed expired).1 ≠ .done [] ∧
      (r.readSome closed expired).2.source = r.source := by
  have hawait := htell.await
  have hnext := hr.await closed
  rw [source_readSome]
  unfold Reader.readSome
  cases heq : r.await closed with
  | mk outcome next =>
      rw [heq] at hawait hnext
      cases outcome with
      | done value =>
          have hsome := take_complete_ne_nil hnext (complete_pos_of_await heq)
          exact ⟨nofun, fun hempty => hsome (Outcome.done.inj hempty), hawait.2⟩
      | failed failure => exact ⟨nofun, nofun, hawait.2⟩
      | waiting => exact absurd rfl hawait.1

/-- A look ahead that answers no has used up what there was. -/
theorem spent_of_available (hr : r.Sound) (hlook : (r.available closed).1 = false) :
    closed = false ∧ (r.available closed).2.Spent := by
  have hcases := look_available closed r
  generalize r.available closed = looked at hlook hcases ⊢
  cases hcases with
  | told htold => cases hlook
  | found hopen hnews => cases hlook
  | nothing hopen hnews hover =>
      exact ⟨(Bool.or_eq_false_iff.mp hopen).1, spent_scan hr hnews⟩
  | @read arrival rest hopen hnews hended hsource =>
      have hrest : ({ r.scan with source := rest } : Reader).Sound :=
        ⟨hr.scan.complete_le, hr.scan.whole_complete⟩
      exact ⟨(Bool.or_eq_false_iff.mp hopen).1, spent_scan (hrest.receive arrival) hlook⟩

/-- A read that has nothing to say reports the end of the source if it has ended. Otherwise it
takes from the source, or finds that there is nothing to take. -/
theorem Spent.readSome (hr : r.Spent) (expired : Bool) :
    r.ended = true ∧ (r.readSome false expired).1 = .failed r.endFailure ∨
      r.ended = false ∧
        (r.source = [] ∧
            (r.readSome false expired).1 = (if expired then .done [] else .waiting) ∨
          ∃ arrival rest, r.source = arrival :: rest ∧
            (r.readSome false expired).2.source <:+ rest) := by
  have hcheck := hr.check_eq
  have hawait : r.await false = awaitFrom r.source r := rfl
  rw [source_readSome]
  cases hended : r.ended with
  | true =>
      rw [hended, if_pos rfl] at hcheck
      have hread : r.await false = (.failed r.endFailure, r) := by
        rw [hawait]
        cases hsource : r.source with
        | nil => simp only [awaitFrom, hcheck, ← hsource]
        | cons arrival rest => simp only [awaitFrom, hcheck, ← hsource]
      refine Or.inl ⟨rfl, ?_⟩
      simp only [Reader.readSome, hread]
  | false =>
      refine Or.inr ⟨rfl, ?_⟩
      rw [hended, if_neg Bool.false_ne_true] at hcheck
      cases hsource : r.source with
      | nil =>
          refine Or.inl ⟨rfl, ?_⟩
          simp only [Reader.readSome, hawait, hsource, awaitFrom, hcheck]
      | cons arrival rest =>
          refine Or.inr ⟨arrival, rest, rfl, ?_⟩
          rw [hawait, hsource]
          simp only [awaitFrom, hcheck]
          exact source_awaitFrom_suffix rest (r.receive arrival)

/-! ## What nobody notices -/

/-- Whatever is still to come, a wait comes to the same in both and is as long. -/
structure WaitsAlike (r r' : Reader) : Prop where
  awaitFrom_eq : ∀ more, awaitFrom (r.source ++ more) r = awaitFrom (r'.source ++ more) r'
  idleTimeout_eq : r.idleTimeout = r'.idleTimeout

theorem WaitsAlike.refl (r : Reader) : r.WaitsAlike r :=
  ⟨fun _ => rfl, rfl⟩

theorem WaitsAlike.trans {r'' : Reader} (hfirst : r.WaitsAlike r') (hsecond : r'.WaitsAlike r'') :
    r.WaitsAlike r'' :=
  ⟨fun more => (hfirst.awaitFrom_eq more).trans (hsecond.awaitFrom_eq more),
    hfirst.idleTimeout_eq.trans hsecond.idleTimeout_eq⟩

/-- Readers that wait alike end their wait alike. -/
theorem WaitsAlike.await (halike : r.WaitsAlike r') : r.await false = r'.await false := by
  have hawait := halike.awaitFrom_eq []
  rwa [List.append_nil, List.append_nil] at hawait

/-- They do so whatever else arrives. -/
theorem WaitsAlike.arrive (halike : r.WaitsAlike r') (arrivals : List Arrival) :
    ({ r with source := r.source ++ arrivals } : Reader).WaitsAlike
      { r' with source := r'.source ++ arrivals } := by
  refine ⟨fun more => ?_, halike.idleTimeout_eq⟩
  have hawait := halike.awaitFrom_eq (arrivals ++ more)
  rw [← List.append_assoc, ← List.append_assoc] at hawait
  exact (awaitFrom_with_source ..).trans (hawait.trans (awaitFrom_with_source ..).symm)

/-- To look ahead is to do the first part of what a wait would do. -/
theorem awaitFrom_available (hr : r.Sound) (closed : Bool) (more : List Arrival) :
    awaitFrom ((r.available closed).2.source ++ more) (r.available closed).2 =
      awaitFrom (r.source ++ more) r := by
  have hcases := look_available closed r
  generalize r.available closed = looked at hcases ⊢
  cases hcases with
  | told htold => rfl
  | found hopen hnews => exact awaitFrom_scan hr _
  | nothing hopen hnews hover => exact awaitFrom_scan hr _
  | @read arrival rest hopen hnews hended hsource =>
      have hrest : ({ r.scan with source := rest } : Reader).Sound :=
        ⟨hr.scan.complete_le, hr.scan.whole_complete⟩
      have hcheck : r.check = (.waiting, r.scan) := by
        rw [← check_scan hr, (spent_scan hr hnews).check_eq, ended_scan, hended,
          if_neg Bool.false_ne_true]
      have hreceive : ({ r.scan with source := rest } : Reader).receive arrival =
          { r.scan.receive arrival with source := rest } := by
        cases arrival <;> rfl
      have hahead : (r.readAhead arrival rest).source = rest := by
        cases arrival <;> rfl
      calc awaitFrom ((r.readAhead arrival rest).source ++ more) (r.readAhead arrival rest)
          = awaitFrom (rest ++ more) (r.readAhead arrival rest) := by
            rw [hahead]
        _ = awaitFrom (rest ++ more)
              (({ r.scan with source := rest } : Reader).receive arrival) :=
            awaitFrom_scan (hrest.receive arrival) _
        _ = awaitFrom (rest ++ more) (r.scan.receive arrival) := by
            rw [hreceive]
            exact awaitFrom_with_source ..
        _ = awaitFrom (r.source ++ more) r := by
            rw [hsource, List.cons_append]
            simp only [awaitFrom, hcheck]

/-- A look ahead only does early what the next wait would do. -/
theorem waitsAlike_available (hr : r.Sound) (closed : Bool) :
    (r.available closed).2.WaitsAlike r :=
  ⟨awaitFrom_available hr closed, idleTimeout_available closed r⟩

/-- A read gives the same at both readers. -/
theorem WaitsAlike.readSome (halike : r.WaitsAlike r') (closed expired : Bool) :
    (r.readSome closed expired).1 = (r'.readSome closed expired).1 ∧
      (r.readSome closed expired).2.WaitsAlike (r'.readSome closed expired).2 := by
  cases closed with
  | true => exact ⟨rfl, halike⟩
  | false =>
      have hread : r.readSome false expired = r'.readSome false expired := by
        unfold Reader.readSome
        rw [halike.await]
      rw [hread]
      exact ⟨rfl, .refl _⟩

/-- So does the reading of an instruction. -/
theorem WaitsAlike.readInstruction (halike : r.WaitsAlike r') (closed : Bool) :
    (r.readInstruction closed).1 = (r'.readInstruction closed).1 ∧
      r.removed closed = r'.removed closed ∧
      (r.readInstruction closed).2.WaitsAlike (r'.readInstruction closed).2 := by
  cases closed with
  | true => exact ⟨rfl, rfl, halike⟩
  | false =>
      have hread : r.readInstruction false = r'.readInstruction false := by
        unfold Reader.readInstruction
        rw [halike.await]
      have hremoved : r.removed false = r'.removed false := by
        unfold removed
        rw [halike.await]
      rw [hread]
      exact ⟨rfl, hremoved, .refl _⟩

/-! ## Sessions with looks and without -/

def Use.isLook : Use → Bool
  | .look => true
  | .arrive _ | .pass _ | .close | .readSome | .readInstruction | .goOn | .drop => false

/-- A use that may take something from the reader. -/
def Use.isRead : Use → Bool
  | .readSome | .readInstruction | .goOn => true
  | .arrive _ | .pass _ | .close | .look | .drop => false

def Reply.isAhead : Reply → Bool
  | .ahead _ => true
  | .nothing | .batch _ | .instruction _ _ => false

namespace Session

variable {s s' : Session} {idleTimeout : Option Nat}

/-- Someone can have used a reader so. -/
def IsReached (s : Session) : Prop :=
  ∃ idleTimeout uses, s = (fresh idleTimeout).after uses

theorem IsReached.isInOrder (hs : s.IsReached) : s.IsInOrder s.reader.idleTimeout := by
  obtain ⟨idleTimeout, uses, rfl⟩ := hs
  have horder := (isInOrder_fresh idleTimeout).after uses
  rwa [horder.idleTimeout_eq]

theorem isAhead_turn (s : Session) (begun : Begun) : (s.turn begun).1.isAhead = false := by
  cases begun <;> rfl

theorem isAhead_use (s : Session) (u : Use) : (s.use u).1.isAhead = u.isLook := by
  cases u with
  | readSome => exact isAhead_turn _ _
  | readInstruction => exact isAhead_turn _ _
  | goOn =>
      change s.goOn.1.isAhead = false
      unfold goOn
      split
      · exact isAhead_turn _ _
      · rfl
  | arrive arrivals => rfl
  | pass milliseconds => rfl
  | close => rfl
  | look => rfl
  | drop => rfl

/-- The two differ only in how far ahead somebody looked. -/
structure DiffersByLooks (s s' : Session) : Prop where
  reader : s.reader.WaitsAlike s'.reader
  isClosed_eq : s.isClosed = s'.isClosed
  clock_eq : s.clock = s'.clock
  begun_eq : s.begun = s'.begun

theorem DiffersByLooks.turn (hs : s.DiffersByLooks s') (begun : Begun) :
    (s.turn begun).1 = (s'.turn begun).1 ∧
      (s.turn begun).2.DiffersByLooks (s'.turn begun).2 := by
  unfold Session.turn
  rw [← hs.isClosed_eq, ← hs.clock_eq]
  cases begun with
  | batch deadline =>
      have hread := hs.reader.readSome s.isClosed
        (deadline.any fun time => decide (time ≤ s.clock))
      dsimp only
      rw [← hread.1]
      exact ⟨rfl, hread.2, rfl, rfl, rfl⟩
  | instruction =>
      have hread := hs.reader.readInstruction s.isClosed
      dsimp only
      rw [← hread.1, ← hread.2.1]
      exact ⟨rfl, hread.2.2, rfl, rfl, rfl⟩

theorem DiffersByLooks.goOn (hs : s.DiffersByLooks s') :
    s.goOn.1 = s'.goOn.1 ∧ s.goOn.2.DiffersByLooks s'.goOn.2 := by
  unfold Session.goOn
  rw [← hs.begun_eq]
  split
  · exact hs.turn _
  · exact ⟨rfl, hs⟩

/-- The step lemma: every other use replies the same and keeps the relation. -/
theorem DiffersByLooks.use (hs : s.DiffersByLooks s') {u : Use} (hlook : u.isLook = false) :
    (s.use u).1 = (s'.use u).1 ∧ (s.use u).2.DiffersByLooks (s'.use u).2 := by
  cases u with
  | arrive arrivals =>
      exact ⟨rfl, hs.reader.arrive arrivals, hs.isClosed_eq, hs.clock_eq, hs.begun_eq⟩
  | pass milliseconds =>
      exact ⟨rfl, hs.reader, hs.isClosed_eq, congrArg (· + milliseconds) hs.clock_eq,
        hs.begun_eq⟩
  | close => exact ⟨rfl, hs.reader, rfl, hs.clock_eq, hs.begun_eq⟩
  | readSome =>
      unfold Session.use
      dsimp only
      rw [← hs.reader.idleTimeout_eq, ← hs.clock_eq]
      exact hs.turn _
  | readInstruction => exact hs.turn _
  | look => cases hlook
  | goOn => exact hs.goOn
  | drop => exact ⟨rfl, hs.reader, hs.isClosed_eq, hs.clock_eq, rfl⟩

/-- A look on one side only keeps it too. -/
theorem DiffersByLooks.look (hs : s.DiffersByLooks s') (hsound : s.reader.Sound) :
    (s.use .look).2.DiffersByLooks s' :=
  ⟨(waitsAlike_available hsound _).trans hs.reader, hs.isClosed_eq, hs.clock_eq, hs.begun_eq⟩

/-- The run lemma, by induction over the uses, with the looks left out on the right. -/
theorem DiffersByLooks.replies (hs : s.DiffersByLooks s') (horder : s.IsInOrder idleTimeout)
    (uses : List Use) :
    (s.replies uses).filter (!·.isAhead) = s'.replies (uses.filter (!·.isLook)) := by
  induction uses generalizing s s' with
  | nil => rfl
  | cons u later ih =>
      have hahead := s.isAhead_use u
      change ((s.use u).1 :: (s.use u).2.replies later).filter _ = _
      cases hlook : u.isLook with
      | true =>
          obtain rfl : u = .look := by
            cases u with
            | look => rfl
            | _ => cases hlook
          rw [List.filter_cons_of_neg (by rw [hahead]; decide), ih (hs.look horder.sound)
            (horder.use .look), List.filter_cons_of_neg (by decide)]
      | false =>
          obtain ⟨hreply, hnext⟩ := hs.use hlook
          rw [hlook] at hahead
          rw [List.filter_cons_of_pos (by rw [hahead]; rfl), ih hnext (horder.use u),
            List.filter_cons_of_pos (by rw [hlook]; rfl), hreply]
          rfl

/-! ## What is told stays so -/

/-- What can be told stays so until somebody reads. -/
theorem canTell_use (htell : s.reader.CanTell s.isClosed) {u : Use} (hread : u.isRead = false) :
    (s.use u).2.reader.CanTell (s.use u).2.isClosed := by
  cases u with
  | arrive arrivals => exact htell
  | pass milliseconds => exact htell
  | close => exact Or.inl rfl
  | readSome => cases hread
  | readInstruction => cases hread
  | look => exact htell.available.1
  | goOn => cases hread
  | drop => exact htell

/-- By induction over what is done meanwhile. -/
theorem canTell_after (htell : s.reader.CanTell s.isClosed) {uses : List Use}
    (hreads : ∀ u ∈ uses, u.isRead = false) :
    (s.after uses).reader.CanTell (s.after uses).isClosed := by
  induction uses generalizing s with
  | nil => exact htell
  | cons u later ih =>
      obtain ⟨hfirst, hlater⟩ := List.forall_mem_cons.mp hreads
      exact ih (canTell_use htell hfirst) hlater

/-- The next batch hands out instructions or fails, and takes nothing from the source. -/
def ReadsAtOnce (s : Session) : Prop :=
  ∃ outcome, (s.use .readSome).1 = .batch outcome ∧ outcome ≠ .waiting ∧ outcome ≠ .done [] ∧
    (s.use .readSome).2.reader.source = s.reader.source

/-- The source has ended, and the next batch says so. -/
def ReportsEnd (s : Session) : Prop :=
  s.reader.ended = true ∧ (s.use .readSome).1 = .batch (.failed s.reader.endFailure)

/-- The next batch has to take something from the source. If the source has nothing to give, it
waits for it or is empty. -/
def HasToTake (s : Session) : Prop :=
  s.reader.ended = false ∧
    (s.reader.source = [] ∧
        ((s.use .readSome).1 = .batch .waiting ∨ (s.use .readSome).1 = .batch (.done [])) ∨
      ∃ arrival rest, s.reader.source = arrival :: rest ∧
        (s.use .readSome).2.reader.source <:+ rest)

/-- With nothing left, a read reports the end or has to take from the source. -/
theorem reportsEnd_or_hasToTake (hopen : s.isClosed = false) (hs : s.reader.Spent) :
    s.ReportsEnd ∨ s.HasToTake := by
  have hread := hs.readSome
    ((s.reader.idleTimeout.map (s.clock + ·)).any fun time => decide (time ≤ s.clock))
  have huse : s.use .readSome = s.turn (.batch (s.reader.idleTimeout.map (s.clock + ·))) := rfl
  unfold ReportsEnd HasToTake
  rw [huse]
  unfold turn
  rw [hopen]
  dsimp only
  generalize (s.reader.idleTimeout.map (s.clock + ·)).any _ = expired at hread ⊢
  rcases hread with ⟨hended, houtcome⟩ | ⟨hended, ⟨hsource, houtcome⟩ | htaken⟩
  · exact Or.inl ⟨hended, congrArg Reply.batch houtcome⟩
  · refine Or.inr ⟨hended, Or.inl ⟨hsource, ?_⟩⟩
    rw [houtcome]
    cases expired
    · exact Or.inl rfl
    · exact Or.inr rfl
  · exact Or.inr ⟨hended, Or.inr htaken⟩

/-- A reader is used in some way, and then somebody looks ahead. If something is available, the
next batch takes nothing from the source, whatever happens until it is read. If nothing is, the
tunnel is open, nothing is to be reported and nothing is complete, and even if more arrives the
next batch reports the end of the source or has to take from it. And however many looks ahead are
left out of what happens, the other replies stay the same. -/
theorem looks_go_unnoticed (hs : s.IsReached) :
    ((s.use .look).1 = .ahead true →
        ∀ meanwhile : List Use, (∀ u ∈ meanwhile, u.isRead = false) →
          ((s.use .look).2.after meanwhile).ReadsAtOnce) ∧
      ((s.use .look).1 = .ahead false →
        (s.use .look).2.isClosed = false ∧ (s.use .look).2.reader.pending = none ∧
          (s.use .look).2.reader.complete = 0 ∧ wholePart (s.use .look).2.reader.buffer = [] ∧
          ∀ arrivals, ((s.use .look).2.use (.arrive arrivals)).2.ReportsEnd ∨
            ((s.use .look).2.use (.arrive arrivals)).2.HasToTake) ∧
      ∀ uses, (s.replies uses).filter (!·.isAhead) = s.replies (uses.filter (!·.isLook)) := by
  have horder := hs.isInOrder
  refine ⟨?_, ?_, ?_⟩
  · intro hlook meanwhile hmeanwhile
    have htell : (s.use .look).2.reader.CanTell s.isClosed :=
      canTell_of_available (Reply.ahead.inj hlook)
    have hsound := ((horder.use .look).after meanwhile).sound
    obtain ⟨hwaits, hempty, hsource⟩ :=
      (canTell_after (s := (s.use .look).2) htell hmeanwhile).readSome hsound _
    exact ⟨_, rfl, hwaits, hempty, hsource⟩
  · intro hlook
    obtain ⟨hopen, hspent⟩ := spent_of_available horder.sound (Reply.ahead.inj hlook)
    refine ⟨hopen, hspent.pending_eq, hspent.complete_eq, hspent.wholePart_eq, ?_⟩
    intro arrivals
    exact reportsEnd_or_hasToTake hopen
      ⟨hspent.complete_eq, hspent.pending_eq, hspent.wholePart_eq, hspent.fault_eq⟩
  · exact DiffersByLooks.replies ⟨.refl _, rfl, rfl, rfl⟩ horder

/-- An instruction and the first byte of another have arrived. The look ahead finds the one; once
it is read, a look finds nothing and the next batch waits. -/
theorem looks_go_unnoticed_between_reads :
    ((fresh none).after [nopAndMore, .look, .close]).ReadsAtOnce ∧
      (((fresh none).after [nopAndMore, .readSome, .look, .arrive []]).ReportsEnd ∨
        ((fresh none).after [nopAndMore, .readSome, .look, .arrive []]).HasToTake) ∧
      ((fresh none).replies [nopAndMore, .look, .readSome, .look]).filter (!·.isAhead) =
        (fresh none).replies [nopAndMore, .readSome] :=
  ⟨(looks_go_unnoticed (s := (fresh none).after [nopAndMore]) ⟨none, [nopAndMore], rfl⟩).1
      (by decide +kernel) [.close] (by decide),
    ((looks_go_unnoticed (s := (fresh none).after [nopAndMore, .readSome])
      ⟨none, [nopAndMore, .readSome], rfl⟩).2.1 (by decide +kernel)).2.2.2.2 [],
    (looks_go_unnoticed (s := fresh none) ⟨none, [], rfl⟩).2.2
      [nopAndMore, .look, .readSome, .look]⟩

end Session

end Reader

end LongPollTunnel
