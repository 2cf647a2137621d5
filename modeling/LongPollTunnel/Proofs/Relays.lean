import LongPollTunnel.Proofs.Errands
import LongPollTunnel.Proofs.Writing

/-! # How far a request that writes has got

A ledger tells what was seen of a request that writes to a tunnel: what its client sent,
what the sink took of it, whether the flush at its end succeeded and how it was answered.
Main statement: what each step of the handling adds to the ledger keeps it in order.
-/

namespace LongPollTunnel

namespace BodyPart

def isChunk : BodyPart → Bool
  | .chunk _ => true
  | .broken _ => false

/-- The bytes of a body, up to where it breaks. -/
def bytesOf : List BodyPart → List UInt8
  | .chunk bytes :: parts => bytes ++ bytesOf parts
  | .broken _ :: _ => []
  | [] => []

theorem bytesOf_chunks (chunks : List (List UInt8)) (parts : List BodyPart) :
    bytesOf (chunks.map .chunk ++ parts) = chunks.flatten ++ bytesOf parts := by
  induction chunks with
  | nil => rfl
  | cons bytes rest ih =>
      simp only [List.map_cons, List.cons_append, bytesOf, ih, List.flatten_cons,
        List.append_assoc]

/-- What comes later leaves the front of a body as it is. -/
theorem bytesOf_append (parts more : List BodyPart) :
    bytesOf parts <+: bytesOf (parts ++ more) := by
  induction parts with
  | nil => exact List.nil_prefix
  | cons part rest ih =>
      cases part with
      | chunk bytes => exact (List.prefix_append_right_inj bytes).mpr ih
      | broken fault => exact List.nil_prefix

end BodyPart

/-- How far a request has got that writes to the tunnel with this number. -/
def Errand.relay? (e : Errand) (number : Nat) : Option Handling :=
  match e.handling with
  | some (other, handling) =>
    if other = number ∧ handling.role = .writer then some handling else none
  | none => none

/-- Nothing but its handling makes a request relay. -/
theorem Errand.Later.relay?_of_relaying {e e' : Errand} {sent : List BodyPart}
    (hlater : e.Later sent e') {number ticket : Nat} {rest : Option (List UInt8)}
    (hrelay : e'.relay? number = some (.relaying ticket rest)) :
    e.relay? number = some (.relaying ticket rest) := by
  cases hlater with
  | stays => exact hrelay
  | @asks r handling _ hwaits =>
      cases handling with
      | none => simp [Errand.relay?] at hrelay
      | some found =>
          obtain ⟨other, handling⟩ := found
          obtain ⟨place, rfl | rfl⟩ := hwaits other handling rfl
          · simp [Errand.relay?, Handling.role] at hrelay
          · simp [Errand.relay?, Handling.role] at hrelay
  | sends _ _ _ => exact hrelay
  | drops => simp [Errand.relay?] at hrelay

/-- What was seen of a request that writes to a tunnel. -/
structure Ledger where
  /-- What its client sent. -/
  sent : List BodyPart := []
  /-- What the sink took of it. -/
  given : List UInt8 := []
  /-- How many flushes for it succeeded. -/
  flushes : Nat := 0
  answers : List Head := []
  /-- How often it was given the writer's seat. -/
  grants : Nat := 0

def Ledger.append (l entry : Ledger) : Ledger where
  sent := l.sent ++ entry.sent
  given := l.given ++ entry.given
  flushes := l.flushes + entry.flushes
  answers := l.answers ++ entry.answers
  grants := l.grants + entry.grants

/-- How an errand and its ledger fit together, with regard to the tunnel with this number;
`failed` is what is known once the relay has failed. -/
inductive Stands (number : Nat) (failed : Prop) : Errand → Ledger → Prop where
  | unasked : Stands number failed {} {}
  | waiting {upload : Upload} {ticket : Nat} :
      Stands number failed ⟨true, upload, some (number, .awaitWriter ticket)⟩
        { sent := upload.parts }
  | relaying {upload : Upload} {ticket : Nat} {rest : Option (List UInt8)}
      {used : List (List UInt8)} {given : List UInt8}
      (hgiven : used.flatten = given ++ rest.getD []) :
      Stands number failed ⟨true, upload, some (number, .relaying ticket rest)⟩
        { sent := used.map .chunk ++ upload.parts, given, grants := 1 }
  | closing {upload : Upload} {failure : Failure} {ticket : Nat} {sent : List BodyPart}
      {given : List UInt8} (hfailed : failed) (hkind : failure.kind = .server)
      (hgiven : given <+: BodyPart.bytesOf sent) :
      Stands number failed ⟨true, upload, some (number, .closing failure ticket)⟩
        { sent, given, grants := 1 }
  | written {e : Errand} {used : List (List UInt8)} (hover : e.relay? number = none)
      (hrequested : e.hasRequested = true) (hended : e.upload.isOpen = false) :
      Stands number failed e
        { sent := used.map .chunk, given := used.flatten, flushes := 1, answers := [.written],
          grants := 1 }
  | failed {e : Errand} {failure : Failure} {sent : List BodyPart} {given : List UInt8}
      (hover : e.relay? number = none) (hrequested : e.hasRequested = true) (hfailed : failed)
      (hkind : failure.kind = .server) (hgiven : given <+: BodyPart.bytesOf sent) :
      Stands number failed e { sent, given, answers := [.ofFailure failure], grants := 1 }
  | aside {e : Errand} {sent : List BodyPart} {given : List UInt8} {grants : Nat}
      (hover : e.relay? number = none) (hrequested : e.hasRequested = true)
      (hgiven : given <+: BodyPart.bytesOf sent)
      (hgrants : grants = 1 ∨ (grants = 0 ∧ given = [])) :
      Stands number failed e { sent, given, grants }

namespace Stands

variable {number : Nat} {failed : Prop} {e e' : Errand} {l : Ledger}

theorem mono {failed' : Prop} (hstands : Stands number failed e l) (himp : failed → failed') :
    Stands number failed' e l := by
  cases hstands with
  | unasked => exact .unasked
  | waiting => exact .waiting
  | relaying hgiven => exact .relaying hgiven
  | closing hfailed hkind hgiven => exact .closing (himp hfailed) hkind hgiven
  | written hover hrequested hended => exact .written hover hrequested hended
  | failed hover hrequested hfailed hkind hgiven =>
      exact .failed hover hrequested (himp hfailed) hkind hgiven
  | aside hover hrequested hgiven hgrants => exact .aside hover hrequested hgiven hgrants

/-- The sink takes the front of the body. -/
theorem given_le (hstands : Stands number failed e l) : l.given <+: BodyPart.bytesOf l.sent := by
  cases hstands with
  | unasked => exact List.nil_prefix
  | waiting => exact List.nil_prefix
  | @relaying upload ticket rest used given hgiven =>
      dsimp only
      rw [BodyPart.bytesOf_chunks, hgiven, List.append_assoc]
      exact List.prefix_append _ _
  | closing _ _ hgiven => exact hgiven
  | @written _ used _ _ _ =>
      have hbytes := BodyPart.bytesOf_chunks used []
      rw [List.append_nil] at hbytes
      dsimp only
      rw [hbytes]
      exact List.prefix_append _ _
  | failed _ _ _ _ hgiven => exact hgiven
  | aside _ _ hgiven _ => exact hgiven

theorem grants_le (hstands : Stands number failed e l) : l.grants ≤ 1 := by
  cases hstands with
  | unasked => exact Nat.zero_le _
  | waiting => exact Nat.zero_le _
  | aside _ _ _ hgrants =>
      dsimp only
      omega
  | _ => exact Nat.le_refl _

/-- Only who was given the seat has given the sink anything. -/
theorem given_eq_nil (hstands : Stands number failed e l) (hgrants : l.grants = 0) :
    l.given = [] := by
  cases hstands with
  | unasked => rfl
  | waiting => rfl
  | aside _ _ _ hwhen =>
      rcases hwhen with hgranted | ⟨_, hnone⟩
      · exact absurd (hgranted.symm.trans hgrants) Nat.one_ne_zero
      · exact hnone
  | _ => cases hgrants

/-- A request is answered once. With success if its body has ended whole, the sink took all
of it, and the flush succeeded; otherwise with a failure of the relay. -/
theorem answer_cases {head : Head} (hstands : Stands number failed e l) (hhead : head ∈ l.answers) :
    l.answers = [head] ∧
      ((head = .written ∧ l.sent.all BodyPart.isChunk = true ∧ e.upload.isOpen = false ∧
          l.given = BodyPart.bytesOf l.sent ∧ l.flushes = 1) ∨
        (∃ failure : Failure, head = .ofFailure failure ∧ failure.kind = .server ∧
          l.flushes = 0 ∧ failed)) := by
  cases hstands with
  | unasked => cases hhead
  | waiting => cases hhead
  | relaying _ => cases hhead
  | closing _ _ _ => cases hhead
  | @written _ used hover hrequested hended =>
      cases List.mem_singleton.mp hhead
      have hbytes := BodyPart.bytesOf_chunks used []
      rw [List.append_nil] at hbytes
      refine ⟨rfl, Or.inl ⟨rfl, by simp [BodyPart.isChunk], hended, ?_, rfl⟩⟩
      exact (hbytes.trans (List.append_nil _)).symm
  | failed hover hrequested hfailed hkind hgiven =>
      cases List.mem_singleton.mp hhead
      exact ⟨rfl, Or.inr ⟨_, rfl, hkind, rfl, hfailed⟩⟩
  | aside _ _ _ _ => cases hhead

/-- Dropping a request leaves its ledger as it is. -/
theorem drops (hstands : Stands number failed e l) :
    Stands number failed { e with handling := none } l := by
  have hle := hstands.given_le
  cases hstands with
  | unasked => exact .unasked
  | waiting => exact .aside rfl rfl hle (Or.inr ⟨rfl, rfl⟩)
  | relaying hgiven => exact .aside rfl rfl hle (Or.inl rfl)
  | closing _ _ _ => exact .aside rfl rfl hle (Or.inl rfl)
  | written _ hrequested hended => exact .written rfl hrequested hended
  | failed _ hrequested hfailed hkind hgiven => exact .failed rfl hrequested hfailed hkind hgiven
  | aside _ hrequested hgiven hgrants => exact .aside rfl hrequested hgiven hgrants

/-- More of the body may come. -/
theorem sends (hstands : Stands number failed e l) (parts : List BodyPart) (last : Bool)
    (hopen : e.upload.isOpen = true) :
    Stands number failed { e with upload := { parts := e.upload.parts ++ parts, isOpen := !last } }
      { l with sent := l.sent ++ parts } := by
  cases hstands with
  | unasked => cases hopen
  | waiting => exact .waiting
  | @relaying upload ticket rest used given hgiven =>
      have hrelaying : Stands number failed
          ⟨true, ⟨upload.parts ++ parts, !last⟩, some (number, .relaying ticket rest)⟩
          { sent := used.map .chunk ++ (upload.parts ++ parts), given, grants := 1 } :=
        .relaying hgiven
      rw [← List.append_assoc] at hrelaying
      exact hrelaying
  | closing hfailed hkind hgiven =>
      exact .closing hfailed hkind (hgiven.trans (BodyPart.bytesOf_append _ _))
  | written _ _ hended =>
      rw [hended] at hopen
      cases hopen
  | failed hover hrequested hfailed hkind hgiven =>
      exact .failed hover hrequested hfailed hkind (hgiven.trans (BodyPart.bytesOf_append _ _))
  | aside hover hrequested hgiven hgrants =>
      exact .aside hover hrequested (hgiven.trans (BodyPart.bytesOf_append _ _)) hgrants

/-- The request is made. -/
theorem asks (hstands : Stands number failed e l) (hfirst : e.hasRequested = false)
    (upload : Upload) {handling : Option (Nat × Handling)}
    (hwaits : ∀ other handling', handling = some (other, handling') →
      ∃ ticket, handling' = .awaitReader ticket ∨ handling' = .awaitWriter ticket) :
    Stands number failed ⟨true, upload, handling⟩ { l with sent := l.sent ++ upload.parts } := by
  cases hstands with
  | unasked =>
      cases handling with
      | none => exact .aside rfl rfl List.nil_prefix (Or.inr ⟨rfl, rfl⟩)
      | some pair =>
          obtain ⟨other, handling'⟩ := pair
          obtain ⟨ticket, rfl | rfl⟩ := hwaits other handling' rfl
          · exact .aside (by simp [Errand.relay?, Handling.role]) rfl List.nil_prefix
              (Or.inr ⟨rfl, rfl⟩)
          · -- a request for another tunnel is never heard of at this one
            by_cases hself : other = number
            · subst hself
              exact .waiting
            · exact .aside (by simp [Errand.relay?, hself]) rfl List.nil_prefix (Or.inr ⟨rfl, rfl⟩)
  | waiting => cases hfirst
  | relaying _ => cases hfirst
  | closing _ _ _ => cases hfirst
  | written _ hrequested _ =>
      rw [hrequested] at hfirst
      cases hfirst
  | failed _ hrequested _ _ _ =>
      rw [hrequested] at hfirst
      cases hfirst
  | aside _ hrequested _ _ =>
      rw [hrequested] at hfirst
      cases hfirst

/-- What happens besides its handling adds to a request only what its client sends. -/
theorem later {sent : List BodyPart} (hstands : Stands number failed e l)
    (hlater : e.Later sent e') : Stands number failed e' { l with sent := l.sent ++ sent } := by
  cases hlater with
  | stays =>
      rw [List.append_nil]
      exact hstands
  | asks r hfirst hwaits => exact hstands.asks hfirst r.upload hwaits
  | sends parts last hopen => exact hstands.sends sent last hopen
  | drops =>
      rw [List.append_nil]
      exact hstands.drops

end Stands

/-! ## A step of the handling -/

namespace Handling

/-- With which handling a request goes on. -/
def Progress.next? : Progress → Option Handling
  | .goOn handling => some handling
  | .answer _ | .stream _ => none

def Progress.heads : Progress → List Head
  | .answer head => [head]
  | .goOn _ | .stream _ => []

/-- Going on means to be given the writer's seat. -/
def grants (before : Handling) (after : Option Handling) : Nat :=
  match before, after with
  | .awaitWriter _, some (.relaying _ _) => 1
  | .awaitWriter _, _ | .awaitReader _, _ | .relaying _ _, _ | .closing _ _, _ => 0

/-- The flush of the tunnel does not have to wait, and it succeeds. -/
def flushesWell (t : Tunnel) : Bool :=
  t.flush?.any fun (result, _) => result.isOk

/-- The flushes between a tunnel and what became of it in one step that succeeded. -/
def flushesBetween (t after : Tunnel) : Nat :=
  if t.sink.flushes < after.sink.flushes ∧ flushesWell t = true then 1 else 0

/-- What a step of the handling adds to the ledger. -/
def entry (handling : Handling) (t : Tunnel) (progress : Progress) (after : Tunnel) : Ledger where
  given := after.sink.accepted.drop t.sink.accepted.length
  flushes := flushesBetween t after
  answers := progress.heads
  grants := handling.grants progress.next?

variable {handling : Handling} {t after used : Tunnel} {progress : Progress} {taken : List UInt8}
  {u left : Upload} {rest : Option (List UInt8)} {failure : Failure}

theorem entry_eq (haccepted : after.sink.accepted = t.sink.accepted ++ taken)
    (hflushes : after.sink.flushes = t.sink.flushes ∨ flushesWell t = false) :
    handling.entry t progress after =
      { given := taken, answers := progress.heads,
        grants := handling.grants progress.next? } := by
  have hnone : flushesBetween t after = 0 := by
    refine if_neg ?_
    rintro ⟨hmore, hok⟩
    rcases hflushes with hsame | herror
    · omega
    · rw [herror] at hok
      cases hok
  unfold entry
  rw [haccepted, List.drop_left, hnone]

theorem entry_of_unwritten (hunwritten : t.Unwritten after) :
    handling.entry t progress after =
      { answers := progress.heads,
        grants := handling.grants progress.next? } := by
  refine entry_eq ?_ (Or.inl hunwritten.flushes)
  rw [hunwritten.accepted, List.append_nil]

theorem Fails.kind (hfails : Fails t u rest failure used left) : failure.kind = .server := by
  cases hfails <;> rfl

/-- What was used of a body, and what is to be written next. -/
theorem exists_used_of_next {bytes given : List UInt8} {parts : List BodyPart}
    {chunks : List (List UInt8)} (hnext : u.Next rest bytes parts)
    (hgiven : chunks.flatten = given ++ rest.getD []) :
    ∃ chunks' : List (List UInt8), chunks'.flatten = given ++ bytes ∧
      chunks.map .chunk ++ u.parts = chunks'.map .chunk ++ parts := by
  cases hnext with
  | rest => exact ⟨chunks, hgiven, rfl⟩
  | part hparts =>
      rw [Option.getD_none, List.append_nil] at hgiven
      refine ⟨chunks ++ [bytes], ?_, ?_⟩
      · rw [List.flatten_append, hgiven, List.flatten_singleton]
      · rw [hparts, List.map_append, List.append_assoc]
        rfl

/-- A request that does not write to a tunnel never comes to do so. -/
theorem Step.relay?_eq_none {r : Registry} {e : Errand} {after : Surroundings} {number other : Nat}
    (hstep : handling.Step r t e.upload progress after) (hrelay : e.relay? number = none)
    (hhandling : e.handling = some (other, handling)) :
    Errand.relay? ⟨e.hasRequested, after.upload, progress.next?.map (other, ·)⟩ number = none := by
  simp only [Errand.relay?, hhandling] at hrelay ⊢
  by_cases hself : other = number
  · -- only a wait for the reader's seat is no relay, and it comes to its end
    cases hstep with
    | reads _ => rfl
    | _ => simp [hself, Handling.role] at hrelay
  · cases progress.next? with
    | none => rfl
    | some next => simp [hself]

/-- A relay that fails leaves the sink with the front of the body. -/
theorem Fails.exists_taken {given : List UInt8} {chunks : List (List UInt8)}
    (hfails : Fails t u rest failure used left) (hgiven : chunks.flatten = given ++ rest.getD []) :
    ∃ taken, used.sink.accepted = t.sink.accepted ++ taken ∧
      (used.sink.flushes = t.sink.flushes ∨ flushesWell t = false) ∧
      given ++ taken <+: BodyPart.bytesOf (chunks.map .chunk ++ u.parts) := by
  have hfront : given <+: BodyPart.bytesOf (chunks.map .chunk ++ u.parts) := by
    rw [BodyPart.bytesOf_chunks, hgiven, List.append_assoc]
    exact List.prefix_append _ _
  cases hfails with
  | write hnext hwrite =>
      obtain ⟨taken, left, rfl, haccepted, hflushes, _⟩ := Tunnel.exists_taken_of_writeAll hwrite
      obtain ⟨chunks', hflatten, hsent⟩ := exists_used_of_next hnext hgiven
      refine ⟨taken, haccepted, Or.inl hflushes, ?_⟩
      rw [hsent, BodyPart.bytesOf_chunks, hflatten, ← List.append_assoc, List.append_assoc]
      exact List.prefix_append _ _
  | body hparts =>
      refine ⟨[], (List.append_nil _).symm, Or.inl rfl, ?_⟩
      rw [List.append_nil]
      exact hfront
  | @flush cause after hparts hended hflush =>
      refine ⟨[], ?_, Or.inr ?_, ?_⟩
      · rw [List.append_nil]
        exact (Tunnel.sink_flush? hflush).1
      · rw [flushesWell, hflush]
        rfl
      · rw [List.append_nil]
        exact hfront

end Handling

namespace Stands

variable {number : Nat} {failed : Prop} {e : Errand} {l : Ledger} {r : Registry} {t : Tunnel}
  {progress : Handling.Progress} {after : Handling.Surroundings} {upload : Upload} {ticket : Nat}

theorem congr {l' : Ledger} (hstands : Stands number failed e l) (heq : l' = l) :
    Stands number failed e l' := by
  rw [heq]
  exact hstands

/-- A request that waits is given the seat. -/
theorem handle_waiting (hstep : Handling.Step r t upload (.awaitWriter ticket) progress after) :
    Stands number failed ⟨true, after.upload, progress.next?.map (number, ·)⟩
      (Ledger.append { sent := upload.parts }
        (Handling.entry (.awaitWriter ticket) t progress after.tunnel)) := by
  cases hstep with
  | writes hserving =>
      rw [Handling.entry_of_unwritten ⟨rfl, rfl⟩]
      have hrelaying : Stands number failed ⟨true, upload, some (number, .relaying ticket none)⟩
          { sent := ([] : List (List UInt8)).map .chunk ++ upload.parts, given := [],
            grants := 1 } := .relaying rfl
      exact hrelaying.congr (by simp [Ledger.append, Handling.Progress.heads, Handling.grants,
        Handling.Progress.next?])

/-- A relay that fails is answered so, or has to wait for the close of the tunnel first. -/
theorem handle_fails {rest : Option (List UInt8)} {failure : Failure} {used : Tunnel}
    {left : Upload} {chunks : List (List UInt8)} {given : List UInt8}
    (hgiven : chunks.flatten = given ++ rest.getD [])
    (hfails : Handling.Fails t upload rest failure used left) (hfailed : failed) :
    Stands number failed
      ⟨true, (Handling.failRelay ticket failure ⟨r, used, left⟩).2.upload,
        (Handling.failRelay ticket failure ⟨r, used, left⟩).1.next?.map (number, ·)⟩
      (Ledger.append { sent := chunks.map .chunk ++ upload.parts, given, grants := 1 }
        (Handling.entry (.relaying ticket rest) t
          (Handling.failRelay ticket failure ⟨r, used, left⟩).1
          (Handling.failRelay ticket failure ⟨r, used, left⟩).2.tunnel)) := by
  obtain ⟨taken, haccepted, hflushes, hfront⟩ := hfails.exists_taken hgiven
  rw [Handling.failRelay_eq]
  dsimp only
  -- neither giving the seat back nor closing the tunnel writes
  have hunwritten := (used.unwritten_leave .writer ticket).trans (Tunnel.unwritten_close _)
  rw [← hunwritten.accepted] at haccepted
  rw [← hunwritten.flushes] at hflushes
  rw [Handling.entry_eq haccepted hflushes]
  cases (used.leave .writer ticket).close.1 with
  | done result =>
      have hstands : Stands number failed ⟨true, left, none⟩
          { sent := chunks.map .chunk ++ upload.parts, given := given ++ taken,
            answers := [.ofFailure failure], grants := 1 } :=
        .failed rfl rfl hfailed hfails.kind hfront
      exact hstands.congr (by simp [Ledger.append, Handling.Progress.heads, Handling.grants,
        Handling.afterClosing])
  | waiting place =>
      have hstands : Stands number failed ⟨true, left, some (number, .closing failure place)⟩
          { sent := chunks.map .chunk ++ upload.parts, given := given ++ taken, grants := 1 } :=
        .closing hfailed hfails.kind hfront
      exact hstands.congr (by simp [Ledger.append, Handling.Progress.heads, Handling.grants,
        Handling.afterClosing])

/-- A relay goes on. -/
theorem handle_relaying {rest : Option (List UInt8)} {chunks : List (List UInt8)}
    {given : List UInt8} (hgiven : chunks.flatten = given ++ rest.getD [])
    (hstep : Handling.Step r t upload (.relaying ticket rest) progress after)
    (hfailed : ∀ failure used left, Handling.Fails t upload rest failure used left → failed) :
    Stands number failed ⟨true, after.upload, progress.next?.map (number, ·)⟩
      (Ledger.append { sent := chunks.map .chunk ++ upload.parts, given, grants := 1 }
        (Handling.entry (.relaying ticket rest) t progress after.tunnel)) := by
  cases hstep with
  | @takes _ _ bytes parts after hnext hwrite =>
      obtain ⟨taken, left, rfl, haccepted, hflushes, hdone, _⟩ :=
        Tunnel.exists_taken_of_writeAll hwrite
      obtain ⟨chunks', hflatten, hsent⟩ := Handling.exists_used_of_next hnext hgiven
      rw [hdone rfl, List.append_nil] at hflatten
      rw [Handling.entry_eq haccepted (Or.inl hflushes), hsent]
      have hstands : Stands number failed
          ⟨true, { upload with parts }, some (number, .relaying ticket none)⟩
          { sent := chunks'.map .chunk ++ parts, given := given ++ taken, grants := 1 } :=
        .relaying (by rw [hflatten]; exact (List.append_nil _).symm)
      exact hstands.congr (by simp [Ledger.append, Handling.Progress.heads, Handling.grants])
  | @blocks _ _ bytes left parts after hnext hwrite =>
      obtain ⟨taken, rest', rfl, haccepted, hflushes, _, hwaiting⟩ :=
        Tunnel.exists_taken_of_writeAll hwrite
      obtain ⟨chunks', hflatten, hsent⟩ := Handling.exists_used_of_next hnext hgiven
      rw [hwaiting left rfl, ← List.append_assoc] at hflatten
      rw [Handling.entry_eq haccepted (Or.inl hflushes), hsent]
      have hstands : Stands number failed
          ⟨true, { upload with parts }, some (number, .relaying ticket (some left))⟩
          { sent := chunks'.map .chunk ++ parts, given := given ++ taken, grants := 1 } :=
        .relaying hflatten
      exact hstands.congr (by simp [Ledger.append, Handling.Progress.heads, Handling.grants])
  | fails hfails => exact handle_fails hgiven hfails (hfailed _ _ _ hfails)
  | @finishes _ after hparts hended hflush =>
      rw [Option.getD_none, List.append_nil] at hgiven
      -- no part is left, and none of the last one: the sink has taken the whole body
      obtain ⟨haccepted, hflushes⟩ := Tunnel.sink_flush? hflush
      have hentry : Handling.entry (.relaying ticket none) t (.answer .written)
          (after.leave .writer ticket) = { flushes := 1, answers := [.written] } := by
        have hok : Handling.flushesWell t = true := by
          rw [Handling.flushesWell, hflush]
          rfl
        simp [Handling.entry, Handling.flushesBetween, haccepted, hflushes, hok,
          Handling.Progress.heads, Handling.grants]
      rw [hentry]
      have hstands : Stands number failed ⟨true, upload, none⟩
          { sent := chunks.map .chunk, given := chunks.flatten, flushes := 1,
            answers := [.written], grants := 1 } := .written rfl rfl hended
      exact hstands.congr (by simp [Ledger.append, hparts, hgiven])

/-- The close of a failed tunnel has come to its end. -/
theorem handle_closing {failure : Failure} {sent : List BodyPart} {given : List UInt8}
    (hfailed : failed) (hkind : failure.kind = .server) (hgiven : given <+: BodyPart.bytesOf sent)
    (hstep : Handling.Step r t upload (.closing failure ticket) progress after) :
    Stands number failed ⟨true, after.upload, progress.next?.map (number, ·)⟩
      (Ledger.append { sent, given, grants := 1 }
        (Handling.entry (.closing failure ticket) t progress after.tunnel)) := by
  cases hstep with
  | @closes _ _ result closed hclose =>
      have hunwritten := t.unwritten_resumeClose ticket
      rw [hclose] at hunwritten
      rw [Handling.entry_of_unwritten hunwritten]
      have hstands : Stands number failed ⟨true, upload, none⟩
          { sent, given, answers := [.ofFailure failure], grants := 1 } :=
        .failed rfl rfl hfailed hkind hgiven
      exact hstands.congr (by simp [Ledger.append, Handling.Progress.heads, Handling.grants])

/-- Each step of the handling of a request that writes keeps its ledger in order. -/
theorem handle {handling : Handling} (hstands : Stands number failed e l)
    (hrelay : e.relay? number = some handling)
    (hstep : handling.Step r t e.upload progress after)
    (hfailed : ∀ ticket rest failure used left, handling = .relaying ticket rest →
      Handling.Fails t e.upload rest failure used left → failed) :
    Stands number failed ⟨e.hasRequested, after.upload, progress.next?.map (number, ·)⟩
      (l.append (handling.entry t progress after.tunnel)) := by
  cases hstands with
  | unasked => cases hrelay
  | waiting =>
      simp only [Errand.relay?, Handling.role, and_self, if_true, Option.some.injEq] at hrelay
      subst hrelay
      exact handle_waiting hstep
  | relaying hgiven =>
      simp only [Errand.relay?, Handling.role, and_self, if_true, Option.some.injEq] at hrelay
      subst hrelay
      exact handle_relaying hgiven hstep fun failure used left => hfailed _ _ failure used left rfl
  | closing hknown hkind hgiven =>
      simp only [Errand.relay?, Handling.role, and_self, if_true, Option.some.injEq] at hrelay
      subst hrelay
      exact handle_closing hknown hkind hgiven hstep
  | written hover _ _ => simp [hover] at hrelay
  | failed hover _ _ _ _ => simp [hover] at hrelay
  | aside hover _ _ _ => simp [hover] at hrelay

/-- A request for another tunnel, or one that reads, is of no account to the ledger. -/
theorem handle_other {other : Nat} {handling : Handling} (hstands : Stands number failed e l)
    (hrelay : e.relay? number = none) (hhandling : e.handling = some (other, handling))
    (hstep : handling.Step r t e.upload progress after) :
    Stands number failed ⟨e.hasRequested, after.upload, progress.next?.map (other, ·)⟩ l := by
  have hover := hstep.relay?_eq_none hrelay hhandling
  have hended : after.upload.isOpen = e.upload.isOpen := by
    cases hstep with
    | fails hfails =>
        rw [Handling.failRelay_eq]
        cases hfails <;> rfl
    | _ => rfl
  cases hstands with
  | unasked => cases hhandling
  | waiting => simp [Errand.relay?, Handling.role] at hrelay
  | relaying _ => simp [Errand.relay?, Handling.role] at hrelay
  | closing _ _ _ => simp [Errand.relay?, Handling.role] at hrelay
  | written _ hrequested hclosed => exact .written hover hrequested (hended.trans hclosed)
  | failed _ hrequested hfailed hkind hgiven => exact .failed hover hrequested hfailed hkind hgiven
  | aside _ hrequested hgiven hgrants => exact .aside hover hrequested hgiven hgrants

end Stands

end LongPollTunnel
