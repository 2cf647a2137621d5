import Mathlib.Tactic.SplitIfs
import LongPollTunnel.Proofs.Handshakes
import LongPollTunnel.Proofs.Settling

/-! # What comes of a request for a connection

A request body is judged first: by its size as it comes, by its faults and by its form. Only then
is the daemon dialed, and what it does decides the rest if it does it in time. Main statement: which
tunnel or which failure a body is answered with, that the daemon receives nothing for the sake of a
body that is no good, and that a body that is good never makes a failure the client's.
-/

namespace LongPollTunnel

/-! ## Whose fault a failure is -/

namespace Failure

/-- A failure that the reader of a link or its writer has reported. -/
inductive OfLink : Failure → Prop where
  | fault (found : Instruction.Fault) : OfLink (.ofFault found)
  | ended : OfLink .streamEnded
  | truncated : OfLink .streamTruncated
  | reading (reason : String) : OfLink (.reading reason)
  | writing (reason : String) : OfLink (.writing reason)
  | flushing (reason : String) : OfLink (.flushing reason)

/-- What goes wrong on the link to a daemon is no fault of the client. -/
theorem OfLink.kind_ne_client {f : Failure} (hf : f.OfLink) : f.kind ≠ .client := by
  cases hf <;> nofun

end Failure

namespace Reader

/-- A stream that can hold no further instruction is at fault itself. -/
theorem ofLink_firstFailure (rest : List UInt8) (ending : Option String) :
    (firstFailure rest ending).OfLink := by
  unfold firstFailure
  split
  · exact .fault _
  · split
    · exact .reading _
    · split
      · exact .ended
      · exact .truncated

theorem ofLink_of_lastWord? {rest : List UInt8} {ending : Option (Option String)}
    {failure : Failure} (hlast : lastWord? rest ending = some failure) : failure.OfLink := by
  cases ending with
  | some ending =>
      cases hlast
      exact ofLink_firstFailure rest ending
  | none =>
      obtain ⟨fault, _, rfl⟩ := Option.map_eq_some_iff.mp hlast
      exact .fault fault

theorem ofLink_of_firstInstruction {stream : List UInt8} {ending : Option (Option String)}
    {failure : Failure} (hfirst : firstInstruction stream ending = .failed failure) :
    failure.OfLink := by
  unfold firstInstruction at hfirst
  split at hfirst
  · split at hfirst
    · cases hfirst
    · cases hfirst
      exact .fault _
  · exact ofLink_of_lastWord? (Outcome.ofFailure?_eq_failed_iff.mp hfirst)
  · exact ofLink_of_lastWord? (Outcome.ofFailure?_eq_failed_iff.mp hfirst)

end Reader

namespace Refusal

/-- How a handshake that failed is reported: what the reader or the writer has said as it is, and
what the daemon has said as a failure of the server. -/
inductive Reported : Refusal → Failure → Prop where
  | tunnel {failure : Failure} (hlink : failure.OfLink) : Reported (.tunnel failure) failure
  | daemon {status : Status} {message : String} : Reported (.daemon status message)
      ⟨.server, "guacd refused the connection: " ++ message ++ " (" ++ status.describe ++ ")"⟩
  | unexpected {expected actual : String} : Reported (.unexpectedInstruction expected actual)
      ⟨.server, "Expected \"" ++ expected ++ "\" instruction from guacd, received \"" ++ actual ++
        "\""⟩

theorem Reported.toFailure_eq {r : Refusal} {f : Failure} (hr : r.Reported f) :
    r.toFailure = f := by
  cases hr <;> rfl

/-- What a daemon says or fails to say is no fault of the client. -/
theorem Reported.kind_ne_client {r : Refusal} {f : Failure} (hr : r.Reported f) :
    f.kind ≠ .client := by
  cases hr with
  | tunnel hlink => exact hlink.kind_ne_client
  | daemon => nofun
  | unexpected => nofun

end Refusal

namespace Dialogue

variable {α β : Type}

/-- A dialogue with a reader that is underway fails only in ways that are reported so, and leaves
the reader underway if it is done. -/
structure Reports (dialogue : Dialogue α) : Prop where
  of_failed : ∀ link refusal, link.reader.Underway → (dialogue link).1 = .failed refusal →
    ∃ failure, refusal.Reported failure
  of_done : ∀ link value, link.reader.Underway → (dialogue link).1 = .done value →
    (dialogue link).2.reader.Underway

namespace Reports

/-- Dialogues that report so one by one do so when they follow each other. -/
theorem andThen {first : Dialogue α} {next : α → Dialogue β} (hfirst : first.Reports)
    (hnext : ∀ value, (next value).Reports) : (first.andThen next).Reports where
  of_failed := by
    intro link refusal hlink hfailed
    have hmiddle := hfirst.of_done link
    have hearly := hfirst.of_failed link refusal hlink
    unfold Dialogue.andThen at hfailed
    cases hresult : first link with
    | mk outcome middle =>
        rw [hresult] at hfailed hmiddle hearly
        cases outcome with
        | done value => exact (hnext value).of_failed middle refusal (hmiddle value hlink rfl) hfailed
        | failed found =>
            cases hfailed
            exact hearly rfl
        | waiting => cases hfailed
  of_done := by
    intro link value hlink hdone
    have hmiddle := hfirst.of_done link
    unfold Dialogue.andThen at hdone ⊢
    cases hresult : first link with
    | mk outcome middle =>
        rw [hresult] at hdone hmiddle
        cases outcome with
        | done found => exact (hnext found).of_done middle value (hmiddle found hlink rfl) hdone
        | failed refusal => cases hdone
        | waiting => cases hdone

theorem give (value : α) : (Dialogue.give value).Reports where
  of_failed _ _ _ := nofun
  of_done _ _ hlink _ := hlink

theorem send (i : Instruction) : (Dialogue.send i).Reports where
  of_failed := by
    intro link refusal _ hfailed
    have hsends := sends_send link i
    generalize Dialogue.send i link = result at hsends hfailed
    cases hsends with
    | failed _ =>
        cases hfailed
        exact ⟨_, .tunnel (.writing _)⟩
    | waiting _ | flushing _ _ => cases hfailed
    | unflushed _ _ =>
        cases hfailed
        exact ⟨_, .tunnel (.flushing _)⟩
    | done _ _ => cases hfailed
  of_done := by
    intro link value hlink _
    rw [reader_send]
    exact hlink

/-- Sending is reported so for any number of instructions, by induction over them. -/
theorem sendAll (instructions : List Instruction) : (Dialogue.sendAll instructions).Reports := by
  induction instructions with
  | nil => exact give ()
  | cons i rest ih => exact (send i).andThen fun _ => ih

theorem expect (expected : String) : (Dialogue.expect expected).Reports where
  of_failed := by
    intro link refusal hlink hfailed
    have hexpects := expects_expect expected hlink
    generalize Dialogue.expect expected link = result at hexpects hfailed
    cases hexpects with
    | failed hfirst =>
        cases hfailed
        exact ⟨_, .tunnel (Reader.ofLink_of_firstInstruction hfirst)⟩
    | waiting => cases hfailed
    | refused =>
        cases hfailed
        exact ⟨_, .daemon⟩
    | unexpected =>
        cases hfailed
        exact ⟨_, .unexpected⟩
    | done => cases hfailed
  of_done := by
    intro link value hlink hdone
    have hexpects := expects_expect expected hlink
    generalize Dialogue.expect expected link = result at hexpects hdone ⊢
    cases hexpects with
    | failed => cases hdone
    | waiting => cases hdone
    | refused => cases hdone
    | unexpected => cases hdone
    | done _ _ _ _ hnext => exact hnext.underway

end Reports

/-- All the turns of a handshake together. -/
theorem reports_handshake (settings : Settings) : (handshake settings).Reports :=
  (Reports.send _).andThen fun _ =>
    (Reports.expect "args").andThen fun args =>
      (Reports.sendAll (settings.answers args.args)).andThen fun _ =>
        (Reports.expect "ready").andThen fun ready => Reports.give (ready.args.headD "")

end Dialogue

namespace Settings

theorem exists_invalid_of_number {name value : String} {set : Nat → Settings} {refusal : Refusal}
    (hread : (readNumber name value).map set = .error refusal) :
    ∃ name value, refusal = .invalidParameter name value := by
  unfold readNumber at hread
  split at hread
  · cases hread
  · cases hread
    exact ⟨name, value, rfl⟩

/-- A field is refused for its number or not at all. -/
theorem exists_invalid_of_addField {s : Settings} {field : String × String} {refusal : Refusal}
    (hadd : s.addField field = .error refusal) :
    ∃ name value, refusal = .invalidParameter name value := by
  unfold addField at hadd
  dsimp only at hadd
  split_ifs at hadd
  · exact exists_invalid_of_number hadd
  · exact exists_invalid_of_number hadd
  · exact exists_invalid_of_number hadd

/-- So is a form, by induction over its fields. -/
theorem exists_invalid_of_addFields {s : Settings} {fields : List (String × String)}
    {refusal : Refusal} (hadd : s.addFields fields = .error refusal) :
    ∃ name value, refusal = .invalidParameter name value := by
  induction fields generalizing s with
  | nil => cases hadd
  | cons field rest ih =>
      unfold addFields at hadd
      split at hadd
      · exact ih hadd
      next hfield =>
        cases hadd
        exact exists_invalid_of_addField hfield

/-- A form that is no good is the client's fault. -/
theorem toFailure_of_ofForm {body : List UInt8} {refusal : Refusal}
    (hform : ofForm body = .error refusal) : refusal.toFailure = ⟨.client, refusal.message⟩ := by
  unfold ofForm ofFields at hform
  split at hform
  next hfields =>
    cases hform
    obtain ⟨name, value, rfl⟩ := exists_invalid_of_addFields hfields
    rfl
  · split at hform
    · cases hform
      rfl
    · cases hform

end Settings

namespace Connection

/-! ## Collecting the body -/

/-- Chunks that fit are collected, and what follows is looked at with what is left of the limit. -/
theorem collectFrom_chunks {size : Nat} {chunks : List (List UInt8)}
    (hfits : size + chunks.flatten.length ≤ maxBodySize) (seen : List (List UInt8))
    (rest : List BodyPart) :
    collectFrom size seen (chunks.map .chunk ++ rest) =
      collectFrom (size + chunks.flatten.length) (chunks.reverse ++ seen) rest := by
  induction chunks generalizing size seen with
  | nil => rfl
  | cons chunk chunks ih =>
      rw [List.flatten_cons, List.length_append] at hfits ⊢
      have hchunk : ¬ maxBodySize < size + chunk.length := by omega
      have hlater : size + chunk.length + chunks.flatten.length ≤ maxBodySize := by omega
      rw [List.map_cons, List.cons_append, collectFrom, if_neg hchunk, ih hlater,
        List.reverse_cons, List.append_assoc, List.singleton_append, Nat.add_assoc]

/-- The limit decides as soon as it is passed: what follows is not looked at. -/
theorem collectFrom_tooLarge {size : Nat} {chunks : List (List UInt8)} (hsize : size ≤ maxBodySize)
    (hlarge : maxBodySize < size + chunks.flatten.length) (seen : List (List UInt8))
    (rest : List BodyPart) :
    collectFrom size seen (chunks.map .chunk ++ rest) = .error .bodyTooLarge := by
  induction chunks generalizing size seen with
  | nil => exact absurd hlarge (Nat.not_lt.mpr hsize)
  | cons chunk chunks ih =>
      rw [List.flatten_cons, List.length_append, ← Nat.add_assoc] at hlarge
      rw [List.map_cons, List.cons_append, collectFrom]
      split
      · rfl
      next hchunk => exact ih (Nat.not_lt.mp hchunk) hlarge _

/-! ## The first time at which something is over -/

/-- The time that is found is the first one, and lies within the bound. -/
theorem firstFrom_eq_some {α : Type} {standing : Nat → Option α} {time count : Nat} {value : α}
    (hfirst : firstFrom standing time count = some value) :
    ∃ first, time ≤ first ∧ first ≤ time + count ∧ standing first = some value ∧
      ∀ early, time ≤ early → early < first → standing early = none := by
  induction count generalizing time with
  | zero =>
      refine ⟨time, Nat.le_refl _, Nat.le_refl _, hfirst, fun early hle hlt => ?_⟩
      exact absurd hlt (Nat.not_lt.mpr hle)
  | succ count ih =>
      unfold firstFrom at hfirst
      split at hfirst
      next found hnow =>
        cases hfirst
        refine ⟨time, Nat.le_refl _, Nat.le_add_right _ _, hnow, fun early hle hlt => ?_⟩
        exact absurd hlt (Nat.not_lt.mpr hle)
      next hnow =>
        obtain ⟨first, hle, hlast, hthen, hbefore⟩ := ih hfirst
        refine ⟨first, by omega, by omega, hthen, fun early hearly hlt => ?_⟩
        rcases Nat.eq_or_lt_of_le hearly with rfl | hlater
        · exact hnow
        · exact hbefore early hlater hlt

/-- Nothing found means nothing there within the bound. -/
theorem firstFrom_eq_none {α : Type} {standing : Nat → Option α} {time count : Nat}
    (hnone : firstFrom standing time count = none) :
    ∀ later, time ≤ later → later ≤ time + count → standing later = none := by
  induction count generalizing time with
  | zero =>
      intro later hle hlast
      rw [Nat.le_antisymm hlast hle]
      exact hnone
  | succ count ih =>
      unfold firstFrom at hnone
      split at hnone
      · cases hnone
      next hnow =>
        intro later hle hlast
        rcases Nat.eq_or_lt_of_le hle with rfl | hlater
        · exact hnow
        · exact ih hnone later hlater (by omega)

/-! ## The verdict on a daemon -/

section Verdicts

variable {c : Configuration} {network : Network} {settings : Settings} {time : Nat}

/-- In the time to connect, the daemon is reached and the handshake with it comes to this. -/
def ComesTo (c : Configuration) (network : Network) (settings : Settings)
    (outcome : Outcome Refusal String) (link : Link) : Prop :=
  ∃ time ≤ c.connectTimeout, ∃ peer,
    network.dial c.daemonHost c.daemonPort time = .connected peer ∧
      handshake settings peer.link = (outcome, link)

/-- Once the daemon is connected to, the handshake alone decides. -/
theorem attemptAt_of_connected {peer : Peer}
    (hdial : network.dial c.daemonHost c.daemonPort time = .connected peer) :
    attemptAt c network settings time = Attempt.ofHandshake? (handshake settings peer.link) := by
  rw [attemptAt, hdial]

/-- A tunnel is there in time only if the handshake has come to its end. -/
theorem comesTo_of_opened {connection : String} {link : Link} (htime : time ≤ c.connectTimeout)
    (hopened : attemptAt c network settings time = some (.opened connection link)) :
    ComesTo c network settings (.done connection) link := by
  cases hdial : network.dial c.daemonHost c.daemonPort time with
  | failed reason =>
      rw [attemptAt, hdial] at hopened
      cases hopened
  | unanswered =>
      rw [attemptAt, hdial] at hopened
      cases hopened
  | connected peer =>
      rw [attemptAt_of_connected hdial] at hopened
      cases hresult : handshake settings peer.link with
      | mk outcome last =>
          rw [hresult] at hopened
          cases outcome with
          | failed refusal => cases hopened
          | waiting => cases hopened
          | done found =>
              cases hopened
              exact ⟨time, htime, peer, hdial, hresult⟩

/-- No daemon that was dialed is taken for a fault of the client. -/
theorem kind_ne_client_of_attemptAt {refusal : Refusal} {link : Option Link}
    (hrefused : attemptAt c network settings time = some (.refused refusal link)) :
    refusal.toFailure.kind ≠ .client := by
  unfold attemptAt at hrefused
  split at hrefused
  · cases hrefused
    nofun
  · cases hrefused
  next peer _ =>
    have hreports := (Dialogue.reports_handshake settings).of_failed peer.link
    cases hresult : handshake settings peer.link with
    | mk outcome last =>
        rw [hresult] at hrefused hreports
        cases outcome with
        | done connection => cases hrefused
        | waiting => cases hrefused
        | failed found =>
            cases hrefused
            obtain ⟨failure, hreported⟩ :=
              hreports refusal (Reader.underway_fresh peer.sends none) rfl
            rw [hreported.toFailure_eq]
            exact hreported.kind_ne_client

/-- An attempt ends with what there is first within the time to connect, or when that is over. -/
theorem establish_cases (c : Configuration) (network : Network) (settings : Settings) :
    (∃ first ≤ c.connectTimeout,
      attemptAt c network settings first = some (establish c network settings) ∧
        ∀ early < first, attemptAt c network settings early = none) ∨
    ((∀ time ≤ c.connectTimeout, attemptAt c network settings time = none) ∧
      establish c network settings = .refused .timeout (linkInTheEnd c network settings)) := by
  unfold establish
  cases hfirst : firstFrom (attemptAt c network settings) 0 c.connectTimeout with
  | none =>
      refine Or.inr ⟨fun time htime => ?_, rfl⟩
      exact firstFrom_eq_none hfirst time (Nat.zero_le _) (by omega)
  | some found =>
      obtain ⟨first, _, hlast, hthen, hbefore⟩ := firstFrom_eq_some hfirst
      exact Or.inl ⟨first, by omega, hthen, fun early hlt => hbefore early (Nat.zero_le _) hlt⟩

/-- An attempt ends with what there is at any time within the time to connect at which it is over. -/
theorem establish_continues {attempt : Attempt} (htime : time ≤ c.connectTimeout)
    (hthen : attemptAt c network settings time = some attempt) :
    (establish c network settings).Continues attempt := by
  rcases establish_cases c network settings with ⟨first, _, hfirst, hbefore⟩ | ⟨hnone, _⟩
  · -- the attempt has ended by this time, and what it ended with stays so
    have hle : first ≤ time := by
      by_contra hlate
      rw [hbefore time (Nat.lt_of_not_le hlate)] at hthen
      cases hthen
    obtain ⟨next, hnext, hcontinues⟩ := exists_attemptAt_later hle hfirst
    rw [hthen] at hnext
    cases hnext
    exact hcontinues
  · rw [hnone time htime] at hthen
    cases hthen

/-- When the time to connect is over, nobody has answered or the handshake is still waiting. -/
inductive IsLate (c : Configuration) (network : Network) (settings : Settings) : Prop where
  | unanswered
      (hdial : network.dial c.daemonHost c.daemonPort c.connectTimeout = .unanswered)
  | waiting {peer : Peer}
      (hdial : network.dial c.daemonHost c.daemonPort c.connectTimeout = .connected peer)
      (hwait : (handshake settings peer.link).1 = .waiting)

/-- Who is late has come to nothing by the time of the timeout, whatever comes after. -/
theorem IsLate.attemptAt_eq_none (hlate : IsLate c network settings) :
    attemptAt c network settings c.connectTimeout = none := by
  cases hlate with
  | unanswered hdial => rw [attemptAt, hdial]
  | @waiting peer hdial hwait =>
      rw [attemptAt_of_connected hdial]
      generalize handshake settings peer.link = result at hwait
      obtain ⟨outcome, link⟩ := result
      cases hwait
      rfl

/-- What a request with good settings is answered with: a tunnel if the handshake is done in time,
and otherwise a failure that is never the client's. -/
structure Connects (c : Configuration) (network : Network) (settings : Settings)
    (identity : Identity) (answer : Except Failure Tunnel) : Prop where
  tunnel_iff : (∃ tunnel, answer = .ok tunnel) ↔
    ∃ connection link, ComesTo c network settings (.done connection) link
  of_tunnel : ∀ tunnel, answer = .ok tunnel → ∃ connection link,
    ComesTo c network settings (.done connection) link ∧ tunnel = tunnelOver c identity link
  of_failed : ∀ refusal link, ComesTo c network settings (.failed refusal) link →
    ∃ failure, refusal.Reported failure ∧ answer = .error failure
  of_unreachable : ∀ time ≤ c.connectTimeout, ∀ reason,
    network.dial c.daemonHost c.daemonPort time = .failed reason →
      answer = .error ⟨.server, reason⟩
  of_late : IsLate c network settings →
    answer = .error ⟨.server, "Timed out connecting to guacd"⟩
  kind_ne_client : ∀ failure, answer = .error failure → failure.kind ≠ .client

variable {parts : List BodyPart}

/-- With settings that are read, connecting is up to the network. -/
theorem attempt_of_readSettings (hread : readSettings parts = .ok settings) :
    attempt c network parts = establish c network settings := by
  rw [attempt, hread]

theorem openTunnel_of_readSettings (hread : readSettings parts = .ok settings)
    (identity : Identity) :
    openTunnel c network identity parts =
      match establish c network settings with
      | .opened _ link => .ok (tunnelOver c identity link)
      | .refused refusal _ => .error refusal.toFailure := by
  rw [← attempt_of_readSettings hread]
  rfl

/-- An attempt that opens in time gives a tunnel. -/
theorem exists_tunnel_of_opened (hread : readSettings parts = .ok settings) (identity : Identity)
    {connection : String} {link : Link} (htime : time ≤ c.connectTimeout)
    (hthen : attemptAt c network settings time = some (.opened connection link)) :
    ∃ tunnel, openTunnel c network identity parts = .ok tunnel := by
  have hcontinues := establish_continues htime hthen
  rw [openTunnel_of_readSettings hread]
  generalize establish c network settings = result at hcontinues
  cases hcontinues with
  | opened => exact ⟨_, rfl⟩

/-- An attempt that is refused in time gives the failure that the refusal stands for. -/
theorem openTunnel_of_refused (hread : readSettings parts = .ok settings) (identity : Identity)
    {refusal : Refusal} {link : Option Link} (htime : time ≤ c.connectTimeout)
    (hthen : attemptAt c network settings time = some (.refused refusal link)) :
    openTunnel c network identity parts = .error refusal.toFailure := by
  have hcontinues := establish_continues htime hthen
  rw [openTunnel_of_readSettings hread]
  generalize establish c network settings = result at hcontinues
  cases hcontinues with
  | refused => rfl

/-- An attempt that comes to nothing in time is a timeout. -/
theorem openTunnel_of_isLate (hread : readSettings parts = .ok settings) (identity : Identity)
    (hlate : IsLate c network settings) :
    openTunnel c network identity parts = .error (Refusal.toFailure .timeout) := by
  rw [openTunnel_of_readSettings hread]
  rcases establish_cases c network settings with ⟨time, htime, hthen, _⟩ | ⟨_, htimeout⟩
  · -- an attempt that was over before would be over in the end
    obtain ⟨next, hnext, _⟩ := exists_attemptAt_later htime hthen
    rw [hlate.attemptAt_eq_none] at hnext
    cases hnext
  · rw [htimeout]

/-- A tunnel goes over a link whose handshake has come to its end. -/
theorem exists_comesTo_of_openTunnel (hread : readSettings parts = .ok settings)
    {identity : Identity} {tunnel : Tunnel}
    (hopen : openTunnel c network identity parts = .ok tunnel) :
    ∃ connection link, ComesTo c network settings (.done connection) link ∧
      tunnel = tunnelOver c identity link := by
  rw [openTunnel_of_readSettings hread] at hopen
  rcases establish_cases c network settings with ⟨time, htime, hthen, _⟩ | ⟨_, htimeout⟩
  · cases hresult : establish c network settings with
    | opened connection link =>
        rw [hresult] at hopen hthen
        cases hopen
        exact ⟨connection, link, comesTo_of_opened htime hthen, rfl⟩
    | refused refusal link =>
        rw [hresult] at hopen
        cases hopen
  · rw [htimeout] at hopen
    cases hopen

/-- A client whose form was read is not to blame for anything. -/
theorem kind_ne_client_of_openTunnel (hread : readSettings parts = .ok settings)
    {identity : Identity} {failure : Failure}
    (herror : openTunnel c network identity parts = .error failure) : failure.kind ≠ .client := by
  rw [openTunnel_of_readSettings hread] at herror
  rcases establish_cases c network settings with ⟨time, htime, hthen, _⟩ | ⟨_, htimeout⟩
  · cases hresult : establish c network settings with
    | opened connection link =>
        rw [hresult] at herror
        cases herror
    | refused refusal link =>
        rw [hresult] at herror hthen
        cases herror
        exact kind_ne_client_of_attemptAt hthen
  · rw [htimeout] at herror
    cases herror
    nofun

theorem connects_openTunnel (hread : readSettings parts = .ok settings) (identity : Identity) :
    Connects c network settings identity (openTunnel c network identity parts) where
  tunnel_iff := by
    constructor
    · rintro ⟨tunnel, hopen⟩
      obtain ⟨connection, link, hcomes, _⟩ := exists_comesTo_of_openTunnel hread hopen
      exact ⟨connection, link, hcomes⟩
    · rintro ⟨connection, link, time, htime, peer, hdial, hdone⟩
      have hthen : attemptAt c network settings time = some (.opened connection link) := by
        rw [attemptAt_of_connected hdial, hdone]
        rfl
      exact exists_tunnel_of_opened hread identity htime hthen
  of_tunnel _ hopen := exists_comesTo_of_openTunnel hread hopen
  of_failed := by
    rintro refusal link ⟨time, htime, peer, hdial, hfailed⟩
    obtain ⟨failure, hreported⟩ := (Dialogue.reports_handshake settings).of_failed peer.link refusal
      (Reader.underway_fresh peer.sends none) (congrArg Prod.fst hfailed)
    have hthen : attemptAt c network settings time = some (.refused refusal (some link)) := by
      rw [attemptAt_of_connected hdial, hfailed]
      rfl
    exact ⟨failure, hreported,
      hreported.toFailure_eq ▸ openTunnel_of_refused hread identity htime hthen⟩
  of_unreachable time htime reason hdial := by
    have hthen : attemptAt c network settings time = some (.refused (.network reason) none) := by
      rw [attemptAt, hdial]
    exact openTunnel_of_refused hread identity htime hthen
  of_late hlate := openTunnel_of_isLate hread identity hlate
  kind_ne_client _ herror := kind_ne_client_of_openTunnel hread herror

end Verdicts

/-! ## The verdict on a body -/

/-- A request is answered with a failure, and the daemon hears nothing of it. -/
structure TurnsDown (c : Configuration) (network : Network) (identity : Identity)
    (parts : List BodyPart) (failure : Failure) : Prop where
  answer : openTunnel c network identity parts = .error failure
  received : (attempt c network parts).received = []

/-- Settings that are refused end the matter before anything is dialed or sent. -/
theorem turnsDown_of_readSettings {parts : List BodyPart} {refusal : Refusal}
    (hread : readSettings parts = .error refusal) (c : Configuration) (network : Network)
    (identity : Identity) : TurnsDown c network identity parts refusal.toFailure where
  answer := by
    unfold openTunnel attempt
    rw [hread]
  received := by
    unfold attempt
    rw [hread]
    rfl

/-- A body that is too large is refused as that, also if it breaks off later. -/
theorem readSettings_of_large {chunks : List (List UInt8)}
    (hlarge : maxBodySize < chunks.flatten.length) (rest : List BodyPart) :
    readSettings (chunks.map .chunk ++ rest) = .error .bodyTooLarge := by
  rw [readSettings, collectFrom_tooLarge (Nat.zero_le _) (by rwa [Nat.zero_add])]

/-- A body that breaks off within the limit is refused for that. -/
theorem readSettings_of_broken {chunks : List (List UInt8)}
    (hfits : chunks.flatten.length ≤ maxBodySize) (fault : BodyFault) (rest : List BodyPart) :
    readSettings (chunks.map .chunk ++ .broken fault :: rest) =
      .error (.bodyUnreadable fault.message) := by
  rw [readSettings, collectFrom_chunks (by rwa [Nat.zero_add]), collectFrom]

/-- How a body is cut into chunks does not matter. -/
theorem readSettings_chunks {chunks : List (List UInt8)}
    (hfits : chunks.flatten.length ≤ maxBodySize) :
    readSettings (chunks.map .chunk) = Settings.ofForm chunks.flatten := by
  have hcollect := collectFrom_chunks (by rwa [Nat.zero_add]) [] []
  rw [List.append_nil, List.append_nil] at hcollect
  rw [readSettings, hcollect, collectFrom, List.reverse_reverse]

/-- The chunks of a body are judged as they come: if they grow too large, that is the client's fault
whatever would have come after them, and a fault of the body that comes before is the server's. A
body that comes in full is judged by its form, however it was cut, and a bad form is the client's
fault. In none of these cases does the daemon hear anything. Only a good form connects. -/
theorem openTunnel_answers_body (c : Configuration) (network : Network) (identity : Identity)
    (parts : List BodyPart) :
    (∀ (chunks : List (List UInt8)) rest, parts = chunks.map .chunk ++ rest →
      65536 < chunks.flatten.length →
        TurnsDown c network identity parts ⟨.client, "Connect request body is too large"⟩) ∧
    (∀ (chunks : List (List UInt8)) fault rest, parts = chunks.map .chunk ++ .broken fault :: rest →
      chunks.flatten.length ≤ 65536 →
        TurnsDown c network identity parts
          ⟨.server, "Failed to read connect request body: " ++ fault.message⟩) ∧
    ∀ chunks : List (List UInt8), parts = chunks.map .chunk → chunks.flatten.length ≤ 65536 →
      (∀ others : List (List UInt8), others.flatten = chunks.flatten →
        openTunnel c network identity (others.map .chunk) =
          openTunnel c network identity parts) ∧
      (∀ refusal, Settings.ofForm chunks.flatten = .error refusal →
        TurnsDown c network identity parts ⟨.client, refusal.message⟩) ∧
      ∀ settings, Settings.ofForm chunks.flatten = .ok settings →
        Connects c network settings identity (openTunnel c network identity parts) := by
  refine ⟨?_, ?_, ?_⟩
  · rintro chunks rest rfl hlarge
    exact turnsDown_of_readSettings (readSettings_of_large hlarge rest) c network identity
  · rintro chunks fault rest rfl hfits
    exact turnsDown_of_readSettings (readSettings_of_broken hfits fault rest) c network identity
  · rintro chunks rfl hfits
    have hread := readSettings_chunks hfits
    refine ⟨fun others hothers => ?_, fun refusal hform => ?_, fun settings hform => ?_⟩
    · -- the settings are those of the bytes, and nothing else of a body is looked at
      have hother := readSettings_chunks (hothers ▸ hfits)
      rw [hothers, ← hread] at hother
      simp only [openTunnel, attempt, hother]
    · rw [← Settings.toFailure_of_ofForm hform]
      exact turnsDown_of_readSettings (hread.trans hform) c network identity
    · exact connects_openTunnel (hread.trans hform) identity

/-- A daemon that asks for nothing. -/
def askingForNothing : Peer where
  sends := [.data (Instruction.encode ⟨"args", []⟩ ++ Instruction.encode ⟨"ready", ["$1"]⟩)]

/-- A network where it answers after some milliseconds. -/
def answersAfter (milliseconds : Nat) : Network where
  dial _ _ time := if time < milliseconds then .unanswered else .connected askingForNothing
  grows := by
    intro host number early late hle
    by_cases hearly : early < milliseconds
    · rw [if_pos hearly]
      exact .unanswered
    · have hlate : ¬ late < milliseconds := fun hlate => hearly (Nat.lt_of_le_of_lt hle hlate)
      rw [if_neg hearly, if_neg hlate]
      exact .connected ⟨List.prefix_rfl, Sink.Manner.unfolds_refl _⟩

/-- The form of a request for a display, in two chunks. -/
def formInTwoChunks : List (List UInt8) :=
  [Utf8.encode "protocol=v".toList, Utf8.encode "nc".toList]

/-- More than a body may have. -/
def zeros : List UInt8 :=
  List.replicate 65537 0

theorem openTunnel_answers_body_in_two_chunks :
    (∃ tunnel, openTunnel {} (answersAfter 3) (.random 0) (formInTwoChunks.map .chunk) =
      .ok tunnel) ∧
    openTunnel {} (answersAfter 3) (.random 0)
        (formInTwoChunks.map .chunk ++ [.broken .incomplete]) =
      .error ⟨.server,
        "Failed to read connect request body: " ++ BodyFault.incomplete.message⟩ ∧
    openTunnel {} (answersAfter 3) (.random 0) ([zeros].map .chunk ++ [.broken .incomplete]) =
      .error ⟨.client, "Connect request body is too large"⟩ := by
  have hfits : formInTwoChunks.flatten.length ≤ 65536 := by decide +kernel
  have hform : Settings.ofForm formInTwoChunks.flatten = .ok { protocol := some "vnc" } := by
    decide +kernel
  have hlarge : 65536 < [zeros].flatten.length := by
    rw [List.flatten_singleton, zeros, List.length_replicate]
    decide
  have hdone : (handshake { protocol := some "vnc" } askingForNothing.link).1 = .done "$1" := by
    decide +kernel
  obtain ⟨-, -, hgood⟩ := openTunnel_answers_body {} (answersAfter 3) (.random 0)
    (formInTwoChunks.map .chunk)
  obtain ⟨-, hbroken, -⟩ := openTunnel_answers_body {} (answersAfter 3) (.random 0)
    (formInTwoChunks.map .chunk ++ [.broken .incomplete])
  obtain ⟨hrejected, -, -⟩ := openTunnel_answers_body {} (answersAfter 3) (.random 0)
    ([zeros].map .chunk ++ [.broken .incomplete])
  refine ⟨?_, (hbroken formInTwoChunks .incomplete [] rfl hfits).answer,
    (hrejected [zeros] [.broken .incomplete] rfl hlarge).answer⟩
  have hpair : ∀ result : Outcome Refusal String × Link, result.1 = .done "$1" →
      result = (.done "$1", result.2) :=
    fun _ hfirst => Prod.ext hfirst rfl
  exact ((hgood formInTwoChunks rfl hfits).2.2 _ hform).tunnel_iff.mpr
    ⟨"$1", _, 3, by decide, askingForNothing, rfl, hpair _ hdone⟩

end Connection

end LongPollTunnel
