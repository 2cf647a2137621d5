import Mathlib.Data.List.Infix
import LongPollTunnel.Proofs.Carrying
import LongPollTunnel.Proofs.TakingDown

/-! # What becomes of the batches

A stream is handed out batches, and its outlet holds them back until they are passed on. That
its client is gone is found when a chunk is to be passed on, and as long as the response goes
on this takes the tunnel down. At its very end it does not, and instructions that were held
back for the last chunk are lost to a tunnel that stays open. Main statement: on an open tunnel
they are lost in no other way.
-/

namespace LongPollTunnel

/-- The batch that these bytes are; no bytes are none. -/
def batchOf (bytes : List UInt8) : List (List UInt8) :=
  if bytes.isEmpty then [] else [bytes]

@[simp] theorem batchOf_nil : batchOf [] = [] := rfl

theorem batchOf_of_ne_nil {bytes : List UInt8} (hsome : bytes ≠ []) : batchOf bytes = [bytes] :=
  if_neg (by simpa using hsome)

/-- A batch is told as itself, and none as nothing. -/
theorem flatten_batchOf (bytes : List UInt8) : (batchOf bytes).flatten = bytes := by
  unfold batchOf
  split
  next hempty => exact (List.isEmpty_iff.mp hempty).symm
  · exact List.flatten_singleton

namespace Outlet

variable {o after : Outlet} {passed held : List (List UInt8)}

/-- The outlet has passed on the first of some batches and holds the others back. -/
structure Has (o : Outlet) (passed held : List (List UInt8)) : Prop where
  chunks : o.chunks.flatten = passed.flatten
  buffer : o.buffer = held.flatten

/-- What is written is held until the next flush. -/
theorem Has.write (hhas : o.Has passed held) (bytes : List UInt8) :
    (o.write bytes).Has passed (held ++ batchOf bytes) where
  chunks := hhas.chunks
  buffer := by
    rw [List.flatten_append, flatten_batchOf, ← hhas.buffer]
    rfl

/-- A flush passes on what is held. -/
theorem Has.flush (hhas : o.Has passed held) (hflush : o.flush = .passed after) :
    after.Has (passed ++ held) [] where
  chunks := by
    have hcontent := content_flush hflush
    rw [content, content, buffer_flush hflush, List.append_nil, hhas.chunks, hhas.buffer]
      at hcontent
    rw [hcontent, List.flatten_append]
  buffer := buffer_flush hflush

end Outlet

namespace Stream

variable {s s' : Stream} {batches : List (List UInt8)} {lost : Bool}

/-- What the stream was to do next when it finds its client gone. -/
def refused? (s : Stream) : Option Next :=
  match s.phase, s.outlet.flush with
  | .flushing next, .gone => some next
  | _, _ => none

theorem refused?_eq_some {next : Next} :
    s.refused? = some next ↔ s.phase = .flushing next ∧ s.outlet.flush = .gone := by
  unfold refused?
  split
  next found hphase hgone => simp [hphase, hgone]
  next hother =>
    refine ⟨nofun, ?_⟩
    rintro ⟨hphase, hgone⟩
    exact absurd hgone (hother next hphase)

/-- The stream finds its client gone at its very end, with more left to pass on than the
terminating instruction. -/
def losesEnd (s : Stream) : Bool :=
  s.refused? == some .leave && s.outlet.buffer != Instruction.terminator

/-- Each batch was passed on, or is held back in a response that goes on. -/
def Delivers (s : Stream) (batches : List (List UInt8)) : Prop :=
  ∃ passed held, batches = passed ++ held ∧ passed.flatten <+: s.outlet.chunks.flatten ∧
    held.flatten <+: s.outlet.buffer ∧ (s.phase = .ended → held = [])

/-- A response that has ended holds nothing back. -/
theorem Delivers.of_ended (hdelivers : s.Delivers batches) (hended : s.phase = .ended) :
    batches.flatten <+: s.outlet.chunks.flatten := by
  obtain ⟨passed, held, rfl, hpassed, _, hnone⟩ := hdelivers
  rw [hnone hended, List.append_nil]
  exact hpassed

/-- The stream reads, or flushes to go on after that. -/
def IsCopying (s : Stream) : Prop :=
  (∃ deadline, s.phase = .reading deadline) ∨ ∃ next, s.phase = .flushing next ∧ next ≠ .leave

theorem IsCopying.not_leaving (hcopying : s.IsCopying) : s.phase ≠ .flushing .leave := by
  rcases hcopying with ⟨_, heq⟩ | ⟨_, heq, hnext⟩
  · simp [heq]
  · simp [heq, hnext]

theorem IsCopying.not_closing (hcopying : s.IsCopying) (failure : Failure) (ticket : Nat) :
    s.phase ≠ .closing failure ticket := by
  rcases hcopying with ⟨_, heq⟩ | ⟨_, heq, _⟩ <;> simp [heq]

theorem IsCopying.not_ended (hcopying : s.IsCopying) : s.phase ≠ .ended := by
  rcases hcopying with ⟨_, heq⟩ | ⟨_, heq, _⟩ <;> simp [heq]

/-- Where the batches are that a stream on an open tunnel was handed out, and whether some
were lost. -/
inductive Account (s : Stream) (batches : List (List UInt8)) (lost : Bool) : Prop where
  | copying {passed held : List (List UInt8)} (hcopying : s.IsCopying)
      (hhas : s.outlet.Has passed held) (hbatches : batches = passed ++ held)
      (hkept : lost = false) : Account s batches lost
  | ending {passed held : List (List UInt8)} (hphase : s.phase = .flushing .leave)
      (hhas : s.outlet.Has passed (held ++ [Instruction.terminator]))
      (hbatches : batches = passed ++ held) (hkept : lost = false) : Account s batches lost
  | delivered (hphase : s.phase = .ended)
      (hchunks : batches.flatten <+: s.outlet.chunks.flatten) (hkept : lost = false) :
      Account s batches lost
  | lost {passed held : List (List UInt8)} (hphase : s.phase = .ended)
      (hchunks : s.outlet.chunks.flatten = passed.flatten) (hbatches : batches = passed ++ held)
      (hheld : held.flatten ≠ []) (hlost : lost = true) : Account s batches lost

namespace Account

theorem start (now number ticket : Nat) (t : Tunnel) :
    (Stream.start now number ticket t).Account [] false := by
  have hempty : ({} : Outlet).Has [] [] := ⟨rfl, rfl⟩
  exact .copying (Or.inl ⟨_, rfl⟩) hempty rfl rfl

/-- Whatever the client does takes nothing out of the account. -/
theorem sameButClient (haccount : s.Account batches lost) (hsame : s.SameButClient s') :
    s'.Account batches lost := by
  have hchunks : s'.outlet.chunks.flatten = s.outlet.chunks.flatten := by
    rw [hsame.chunks]
  have hhas {passed held : List (List UInt8)} (hhas : s.outlet.Has passed held) :
      s'.outlet.Has passed held :=
    ⟨hchunks.trans hhas.chunks, hsame.buffer.trans hhas.buffer⟩
  cases haccount with
  | copying hcopying hbefore hbatches hkept =>
      refine .copying ?_ (hhas hbefore) hbatches hkept
      rw [IsCopying, hsame.phase]
      exact hcopying
  | ending hphase hbefore hbatches hkept =>
      exact .ending (hsame.phase.trans hphase) (hhas hbefore) hbatches hkept
  | delivered hphase hbefore hkept =>
      refine .delivered (hsame.phase.trans hphase) ?_ hkept
      rw [hchunks]
      exact hbefore
  | lost hphase hbefore hbatches hheld hlost =>
      exact .lost (hsame.phase.trans hphase) (hchunks.trans hbefore) hbatches hheld hlost

/-- While a stream copies nothing is lost: what it was given is passed on or held. -/
theorem of_isCopying (haccount : s.Account batches lost) (hcopying : s.IsCopying) :
    ∃ passed held, s.outlet.Has passed held ∧ batches = passed ++ held ∧ lost = false := by
  cases haccount with
  | copying _ hhas hbatches hkept => exact ⟨_, _, hhas, hbatches, hkept⟩
  | ending hphase _ _ _ => exact absurd hphase hcopying.not_leaving
  | delivered hphase _ _ | lost hphase _ _ _ _ => exact absurd hphase hcopying.not_ended

/-- The same holds while it flushes for the last time. -/
theorem of_leaving (haccount : s.Account batches lost) (hphase : s.phase = .flushing .leave) :
    ∃ passed held, s.outlet.Has passed (held ++ [Instruction.terminator]) ∧
      batches = passed ++ held ∧ lost = false := by
  cases haccount with
  | ending _ hhas hbatches hkept => exact ⟨_, _, hhas, hbatches, hkept⟩
  | copying hcopying _ _ _ => exact absurd hphase hcopying.not_leaving
  | delivered heq _ _ | lost heq _ _ _ _ =>
      rw [hphase] at heq
      cases heq

theorem phase_ne_closing (haccount : s.Account batches lost) (failure : Failure) (ticket : Nat) :
    s.phase ≠ .closing failure ticket := by
  cases haccount with
  | copying hcopying _ _ _ => exact hcopying.not_closing failure ticket
  | ending heq _ _ _ | delivered heq _ _ | lost heq _ _ _ _ => simp [heq]

/-- What is lost is lost by a last flush that fails. -/
theorem delivers_iff (haccount : s.Account batches lost) : s.Delivers batches ↔ lost = false := by
  cases haccount with
  | @copying passed held hcopying hhas hbatches hkept =>
      refine ⟨fun _ => hkept, fun _ => ⟨passed, held, hbatches, ?_, ?_, ?_⟩⟩
      · rw [hhas.chunks]
      · rw [hhas.buffer]
      · exact fun hended => absurd hended hcopying.not_ended
  | @ending passed held hphase hhas hbatches hkept =>
      refine ⟨fun _ => hkept, fun _ => ⟨passed, held, hbatches, ?_, ?_, by simp [hphase]⟩⟩
      · rw [hhas.chunks]
      · rw [hhas.buffer, List.flatten_append]
        exact List.prefix_append _ _
  | delivered hphase hchunks hkept =>
      refine ⟨fun _ => hkept, fun _ => ⟨batches, [], (List.append_nil _).symm, hchunks, ?_, ?_⟩⟩
      · exact List.nil_prefix
      · exact fun _ => rfl
  | lost hphase hchunks hbatches hheld hlost =>
      refine ⟨fun hdelivers => ?_, fun hkept => ?_⟩
      · -- all that was passed on is shorter than the batches
        have hlength := (hdelivers.of_ended hphase).length_le
        rw [hchunks, hbatches, List.flatten_append, List.length_append] at hlength
        have hpositive := List.length_pos_of_ne_nil hheld
        omega
      · rw [hlost] at hkept
        cases hkept

end Account

section

variable {now : Nat} {r : Registry} {t : Tunnel} {around after : Surroundings}

theorem not_losesEnd_of_isCopying (hcopying : s.IsCopying) : s.losesEnd = false := by
  have hleave : s.refused? ≠ some .leave :=
    fun hrefused => hcopying.not_leaving (refused?_eq_some.mp hrefused).1
  simp [losesEnd, hleave]

theorem handedAt_of_flushing {next : Next} (hphase : s.phase = .flushing next) :
    s.handedAt now t = [] := by
  simp [handedAt, hphase]

/-- Looking ahead and giving way lose nothing. -/
theorem GoesOn.account {passed held : List (List UInt8)} (hgoesOn : s.GoesOn around after s')
    (hhas : s.outlet.Has passed held) : s'.Account (passed ++ held) false := by
  rcases hgoesOn.stream with rfl | ⟨deadline, rfl⟩ | rfl | rfl
  · exact .ending rfl (hhas.write Instruction.terminator) rfl rfl
  · exact .copying (Or.inl ⟨deadline, rfl⟩) hhas rfl rfl
  · exact .copying (Or.inr ⟨.lookAhead, rfl, by decide⟩) hhas rfl rfl
  · exact .copying (Or.inr ⟨.yield, rfl, by decide⟩) hhas rfl rfl

/-- At its end a stream passes everything on, or it loses what is left of its batches. -/
theorem Account.leave {outlet : Outlet} (haccount : s.Account batches lost)
    (around : Surroundings) (hphase : s.phase = .flushing .leave)
    (hflush : s.outlet.flush = .passed outlet ∨ (s.outlet.flush = .gone ∧ outlet = s.outlet)) :
    ({ s with outlet }.leave around).2.Account batches (lost || s.losesEnd) := by
  obtain ⟨passed, held, hhas, rfl, rfl⟩ := haccount.of_leaving hphase
  rw [Bool.false_or]
  rcases hflush with hpassed | ⟨hgone, rfl⟩
  · have hrefused : s.refused? = none := by
      simp [refused?, hphase, hpassed]
    refine .delivered rfl ?_ (by simp [losesEnd, hrefused])
    change _ <+: outlet.chunks.flatten
    have hall : (passed ++ (held ++ [Instruction.terminator])).flatten =
        (passed ++ held).flatten ++ Instruction.terminator := by
      simp
    rw [(hhas.flush hpassed).chunks, hall]
    exact List.prefix_append _ _
  · have hrefused : s.refused? = some .leave := refused?_eq_some.mpr ⟨hphase, hgone⟩
    have hbuffer : s.outlet.buffer = held.flatten ++ Instruction.terminator := by
      rw [hhas.buffer, List.flatten_append, List.flatten_singleton]
    -- with nothing held back, only the terminating instruction is lost
    by_cases hheld : held.flatten = []
    · refine .delivered rfl ?_ (by simp [losesEnd, hbuffer, hheld])
      change _ <+: s.outlet.chunks.flatten
      rw [hhas.chunks, List.flatten_append, hheld, List.append_nil]
    · exact .lost rfl hhas.chunks rfl hheld (by simp [losesEnd, hrefused, hbuffer, hheld])

/-- A step that leaves the tunnel open keeps the account, in which every batch is entered. -/
theorem Account.step (haccount : s.Account batches lost) (hstep : s.Step now r t after s')
    (hopen : after.tunnel.isOpen = true) :
    s'.Account (batches ++ batchOf (s.handedAt now t)) (lost || s.losesEnd) := by
  have hcopies (hcopying : s.IsCopying) : (lost || s.losesEnd) = false := by
    obtain ⟨_, _, _, _, hkept⟩ := haccount.of_isCopying hcopying
    rw [hkept, not_losesEnd_of_isCopying hcopying]
    rfl
  cases hstep with
  | @idles deadline read hphase hread =>
      have hcopying : s.IsCopying := Or.inl ⟨deadline, hphase⟩
      obtain ⟨passed, held, hhas, rfl, _⟩ := haccount.of_isCopying hcopying
      rw [hcopies hcopying, handedAt_eq hphase hread]
      exact .ending rfl (hhas.write Instruction.terminator) (List.append_nil _) rfl
  | @reads deadline batch read _ _ hphase hread hwrite =>
      have hcopying : s.IsCopying := Or.inl ⟨deadline, hphase⟩
      obtain ⟨passed, held, hhas, rfl, _⟩ := haccount.of_isCopying hcopying
      rw [hcopies hcopying, handedAt_eq hphase hread, List.append_assoc]
      exact hwrite.account (hhas.write batch)
  | @waits deadline read hphase hread =>
      have hcopying : s.IsCopying := Or.inl ⟨deadline, hphase⟩
      obtain ⟨passed, held, hhas, rfl, _⟩ := haccount.of_isCopying hcopying
      rw [hcopies hcopying, handedAt_eq hphase hread]
      exact .copying hcopying hhas (List.append_nil _) rfl
  | @flushes next outlet _ _ hphase hnext hflush hgoesOn =>
      have hcopying : s.IsCopying := Or.inr ⟨next, hphase, hnext⟩
      obtain ⟨passed, held, hhas, rfl, _⟩ := haccount.of_isCopying hcopying
      rw [hcopies hcopying, handedAt_of_flushing hphase]
      exact hgoesOn.account (hhas.flush hflush)
  | leaves hphase hflush =>
      rw [handedAt_of_flushing hphase]
      have hleft := haccount.leave ⟨r, t⟩ hphase hflush
      rw [← List.append_nil batches] at hleft
      exact hleft
  | fails _ _ | loses _ _ _ =>
      -- both take the tunnel down
      rw [s.isOpen_fail] at hopen
      cases hopen
  | closes hphase _ => exact absurd hphase (haccount.phase_ne_closing _ _)

/-- A client that is found gone at the very end changes nothing but who has the seat. -/
theorem Step.after_of_refused (hstep : s.Step now r t after s')
    (hrefused : s.refused? = some .leave) : after = ⟨r, t.leave .reader s.ticket⟩ := by
  have hleaving := (refused?_eq_some.mp hrefused).1
  cases hstep with
  | leaves _ _ => rfl
  | flushes hphase hnext _ _ | loses hphase hnext _ =>
      rw [hleaving] at hphase
      cases hphase
      exact absurd rfl hnext
  | idles hphase _ | reads hphase _ _ | waits hphase _ | fails hphase _ | closes hphase _ =>
      rw [hleaving] at hphase
      cases hphase

end

end Stream

namespace Hub

namespace Record

/-- The stream with this number as it was before it went on, if it did. -/
def stream? (r : Record) (j : Nat) : Option Stream :=
  match r.move with
  | .go (.stream k) => if k = j then r.before.streams[j]? else none
  | .go (.call _) | .go (.sweeper _) | .act _ | .takeNews => none

/-- The batch that the stream with this number was handed out, if it was. -/
def batches (r : Record) (j : Nat) : List (List UInt8) :=
  (r.stream? j).elim [] fun s => batchOf (r.handed s.tunnel)

/-- The stream with this number loses its end. -/
def losesEnd (r : Record) (j : Nat) : Bool :=
  (r.stream? j).any Stream.losesEnd

end Record

/-- The batches that the stream with this number was handed out, oldest first. -/
def batchesOf (log : List Record) (j : Nat) : List (List UInt8) :=
  log.flatMap (·.batches j)

variable {h next : Hub} {log : List Record} {j : Nat} {move : Move}

/-- The last move adds the batch that it handed out. -/
theorem batchesOf_snoc (log : List Record) (r : Record) (j : Nat) :
    batchesOf (log ++ [r]) j = batchesOf log j ++ r.batches j := by
  simp [batchesOf]

theorem any_losesEnd_snoc (log : List Record) (r : Record) (j : Nat) :
    (log ++ [r]).any (·.losesEnd j) = (log.any (·.losesEnd j) || r.losesEnd j) := by
  simp

theorem stream?_of_other (hother : ∀ j, move ≠ .go (.stream j)) :
    Record.stream? ⟨h, move, next⟩ j = none := by
  unfold Record.stream?
  split
  next k heq => exact absurd heq (hother k)
  · rfl
  · rfl
  · rfl
  · rfl

theorem exists_of_getElem?_forall₂ {α β : Type} {R : α → β → Prop} {l : List α} {l' : List β}
    (hrel : List.Forall₂ R l l') {b : β} (hb : l'[j]? = some b) : ∃ a, l[j]? = some a ∧ R a b := by
  obtain ⟨hlt, rfl⟩ := List.getElem?_eq_some_iff.mp hb
  have hlt' : j < l.length := by
    rw [hrel.length_eq]
    exact hlt
  exact ⟨l[j], List.getElem?_eq_getElem hlt', hrel.get hlt' hlt⟩

/-- What a move does to the stream with one number: no more than its client can do, starting it,
or letting it go on. -/
inductive StreamMove (h : Hub) (move : Move) (next : Hub) (j : Nat) : Prop where
  | same (hnone : Record.stream? ⟨h, move, next⟩ j = none)
      (hsame : ∀ s', next.streams[j]? = some s' → ∃ s, h.streams[j]? = some s ∧ s.SameButClient s')
      (habsent : next.streams[j]? = none → h.streams[j]? = none)
  | start {number ticket : Nat} {t : Tunnel} (hnone : Record.stream? ⟨h, move, next⟩ j = none)
      (habsent : h.streams[j]? = none) (ht : h.tunnels[number]? = some t)
      (hs : next.streams[j]? = some (Stream.start h.clock number ticket t))
  | step {s s' : Stream} {t : Tunnel} {after : Stream.Surroundings}
      (hmove : move = .go (.stream j)) (hs : h.streams[j]? = some s)
      (ht : h.tunnels[s.tunnel]? = some t) (hstep : s.Step h.clock h.registry t after s')
      (hs' : next.streams[j]? = some s') (ht' : next.tunnels[s.tunnel]? = some after.tunnel)
      (hregistry : next.registry = after.registry)
      (hothers : ∀ number, s.tunnel ≠ number → next.tunnels[number]? = h.tunnels[number]?)

theorem StreamMove.of_eq (hnone : Record.stream? ⟨h, move, next⟩ j = none)
    (heq : next.streams[j]? = h.streams[j]?) : h.StreamMove move next j := by
  refine .same hnone (fun s hs => ⟨s, ?_, s.sameButClient_refl⟩) fun habsent => ?_
  · rw [← heq]
    exact hs
  · rw [← heq]
    exact habsent

/-- A move drives a stream on, or leaves its account as it is. -/
theorem streamMove_after? (hmove : h.after? move = some next) (j : Nat) :
    h.StreamMove move next j := by
  cases streamsMove_after? hmove with
  | same hother hsame =>
      refine .same (stream?_of_other hother) (fun s' => exists_of_getElem?_forall₂ hsame) ?_
      intro habsent
      rw [List.getElem?_eq_none_iff] at habsent ⊢
      rw [hsame.length_eq]
      exact habsent
  | @start i number ticket _ hstart =>
      obtain ⟨_, _, t, _, _, ht, _, hstreams⟩ := hstart
      by_cases hlast : j = h.streams.length
      · have hs : next.streams[j]? = some (Stream.start h.clock number ticket t) := by
          rw [hstreams, hlast, List.getElem?_concat_length]
        exact .start rfl (List.getElem?_eq_none_iff.mpr (Nat.le_of_eq hlast.symm)) ht hs
      · refine .of_eq rfl ?_
        rw [hstreams, List.getElem?_append, List.getElem?_singleton]
        split
        · rfl
        next hge =>
          rw [if_neg (by omega), List.getElem?_eq_none_iff.mpr (Nat.le_of_not_lt hge)]
  | @step k s s' t after hs ht hstep =>
      by_cases hself : k = j
      · subst hself
        exact .step rfl hs ht hstep (getElem?_set_of_getElem? hs) (getElem?_set_of_getElem? ht)
          rfl fun _ hne => List.getElem?_set_ne hne
      · exact .of_eq (if_neg hself) (List.getElem?_set_ne hself)

/-- Nothing is entered for a stream that does not go on. -/
theorem log_of_stream?_eq_none (log : List Record) {r : Record} (hnone : r.stream? j = none) :
    batchesOf (log ++ [r]) j = batchesOf log j ∧
      (log ++ [r]).any (·.losesEnd j) = log.any (·.losesEnd j) := by
  rw [batchesOf_snoc, any_losesEnd_snoc]
  simp [Record.batches, Record.losesEnd, hnone]

/-- What is entered for a stream that goes on. -/
theorem batches_of_stream {s : Stream} {t : Tunnel} (hs : h.streams[j]? = some s)
    (ht : h.tunnels[s.tunnel]? = some t) :
    Record.batches ⟨h, .go (.stream j), next⟩ j = batchOf (s.handedAt h.clock t) := by
  simp only [Record.batches, Record.stream?, if_true, hs, Option.elim_some,
    handed_of_stream hs ht]

/-- The account of a stream is kept as long as its tunnel is not closed. -/
structure IsDelivering (h : Hub) (log : List Record) (j : Nat) : Prop where
  account : ∀ s, h.streams[j]? = some s → h.isClosedAt s.tunnel = false →
    s.Account (batchesOf log j) (log.any (·.losesEnd j))
  absent : h.streams[j]? = none → batchesOf log j = [] ∧ log.any (·.losesEnd j) = false

/-- What is open was open before. -/
theorem isClosedAt_before (hmove : h.after? move = some next) {number : Nat}
    (hopen : next.isClosedAt number = false) : h.isClosedAt number = false := by
  refine Bool.eq_false_iff.mpr fun hclosed => ?_
  rw [isClosedAt_after? hmove hclosed] at hopen
  cases hopen

/-- The step lemma of the account. -/
theorem IsDelivering.after? (hdelivering : h.IsDelivering log j)
    (hmove : h.after? move = some next) :
    next.IsDelivering (log ++ [⟨h, move, next⟩]) j := by
  cases streamMove_after? hmove j with
  | same hnone hsame habsent =>
      obtain ⟨hbatches, hlost⟩ := log_of_stream?_eq_none log hnone
      refine ⟨fun s' hs' hopen => ?_, fun hgone => ?_⟩
      · obtain ⟨s, hs, hlike⟩ := hsame s' hs'
        rw [hlike.tunnel] at hopen
        rw [hbatches, hlost]
        exact (hdelivering.account s hs (isClosedAt_before hmove hopen)).sameButClient hlike
      · rw [hbatches, hlost]
        exact hdelivering.absent (habsent hgone)
  | start hnone habsent ht hs =>
      -- a stream that has just been started was handed out nothing
      obtain ⟨hbatches, hlost⟩ := log_of_stream?_eq_none log hnone
      obtain ⟨hempty, hkept⟩ := hdelivering.absent habsent
      refine ⟨fun s hs' _ => ?_, by simp [hs]⟩
      rw [hs] at hs'
      cases hs'
      rw [hbatches, hlost, hempty, hkept]
      exact .start _ _ _ _
  | @step s s' t after hgo hs ht hstep hs' ht' _ _ =>
      subst hgo
      refine ⟨fun found hfound hopen => ?_, by simp [hs']⟩
      rw [hs'] at hfound
      cases hfound
      rw [hstep.place.1] at hopen
      have hbefore := hdelivering.account s hs (isClosedAt_before hmove hopen)
      have hopened : after.tunnel.isOpen = true := by
        simpa [isClosedAt, ht'] using hopen
      have hafter := hbefore.step hstep hopened
      rw [batchesOf_snoc, any_losesEnd_snoc, batches_of_stream hs ht]
      simp only [Record.losesEnd, Record.stream?, if_true, hs, Option.any_some]
      exact hafter

/-- The run lemma, by induction over the run. -/
theorem isDelivering_of_run (hrun : Run {} log h) (j : Nat) : h.IsDelivering log j := by
  induction hrun with
  | nil => exact ⟨nofun, fun _ => ⟨rfl, rfl⟩⟩
  | snoc _ hmove ih => exact ih.after? hmove

theorem stream?_eq_some {r : Record} {s : Stream} (hstream : r.stream? j = some s) :
    r.move = .go (.stream j) ∧ r.before.streams[j]? = some s := by
  unfold Record.stream? at hstream
  split at hstream
  next k hmove =>
    obtain ⟨rfl, hs⟩ := Option.ite_none_right_eq_some.mp hstream
    exact ⟨hmove, hs⟩
  · cases hstream
  · cases hstream
  · cases hstream
  · cases hstream

/-- A client that is found gone while the response goes on takes the tunnel down. -/
theorem isDown_of_refused {r : Record} {s : Stream} {t : Tunnel} {todo : Stream.Next}
    (hmove : r.before.after? r.move = some r.after) (hstream : r.stream? j = some s)
    (hrefused : s.refused? = some todo) (hgoesOn : todo ≠ .leave)
    (ht : r.before.tunnels[s.tunnel]? = some t) :
    r.after.IsDown s.tunnel t.identity.text := by
  obtain ⟨hgo, hs⟩ := stream?_eq_some hstream
  obtain ⟨hphase, hgone⟩ := Stream.refused?_eq_some.mp hrefused
  refine isDown_of_detectsFailure hmove ?_ ht
  rw [hgo]
  exact ⟨s, t, hs, rfl, ht, Or.inr ⟨todo, hphase, hgoesOn, hgone⟩⟩

/-- A step that changes neither the registry nor whether the tunnel is open changes this for no
tunnel. -/
theorem unchanged_of_step {s : Stream} {t after : Tunnel} (ht : h.tunnels[s.tunnel]? = some t)
    (hafter : next.tunnels[s.tunnel]? = some after) (hopen : after.isOpen = t.isOpen)
    (hregistry : next.registry = h.registry)
    (hothers : ∀ number, s.tunnel ≠ number → next.tunnels[number]? = h.tunnels[number]?) :
    next.registry = h.registry ∧ ∀ number, next.isOpenAt number = h.isOpenAt number := by
  refine ⟨hregistry, fun number => ?_⟩
  by_cases hself : s.tunnel = number
  · subst hself
    simp [isOpenAt, hafter, ht, hopen]
  · rw [isOpenAt, isOpenAt, hothers number hself]

/-- A client that is found gone at the very end leaves every tunnel as open and as registered
as it was. -/
theorem unchanged_of_refused {r : Record} {s : Stream}
    (hmove : r.before.after? r.move = some r.after) (hstream : r.stream? j = some s)
    (hrefused : s.refused? = some .leave) :
    r.after.registry = r.before.registry ∧
      ∀ number, r.after.isOpenAt number = r.before.isOpenAt number := by
  obtain ⟨hgo, hs⟩ := stream?_eq_some hstream
  rw [hgo] at hmove
  obtain ⟨s₀, s', t, after, hs₀, ht, hstep, hafter⟩ := streamStep_resumeStream hmove
  rw [hs] at hs₀
  cases hs₀
  rw [hstep.after_of_refused hrefused] at hafter
  rw [hafter]
  exact unchanged_of_step ht (getElem?_set_of_getElem? ht) (Tunnel.isOpen_leave _ _ _) rfl
    fun _ hne => List.getElem?_set_ne hne

/-- Along every run from an empty hub, whatever clients do: when a stream finds its client gone
before the very end of its response, its tunnel is closed and taken out of the registry in the
same step. At the very end nothing of that happens. On a tunnel that is open, each batch that a
stream was handed out was passed on, or is held back in a response that goes on, exactly if the
stream has not lost its end. -/
theorem delivered_unless_end_is_lost {log : List Record} (hrun : Run {} log h) :
    (∀ r ∈ log, ∀ j s t todo, r.stream? j = some s → s.refused? = some todo →
      todo ≠ .leave → r.before.tunnels[s.tunnel]? = some t →
      r.after.IsDown s.tunnel t.identity.text) ∧
    (∀ r ∈ log, ∀ j s, r.stream? j = some s → s.refused? = some .leave →
      r.after.registry = r.before.registry ∧
        ∀ number, r.after.isOpenAt number = r.before.isOpenAt number) ∧
    ∀ j s, h.streams[j]? = some s → h.isOpenAt s.tunnel = true →
      (s.Delivers (batchesOf log j) ↔ ∀ r ∈ log, r.losesEnd j = false) := by
  have hmoves : ∀ r ∈ log, r.before.after? r.move = some r.after := by
    intro r hr
    obtain ⟨pre, post, rfl⟩ := List.append_of_mem hr
    exact hrun.record.2.1
  refine ⟨?_, ?_, ?_⟩
  · intro r hr j s t todo hstream hrefused hgoesOn ht
    exact isDown_of_refused (hmoves r hr) hstream hrefused hgoesOn ht
  · intro r hr j s hstream hrefused
    exact unchanged_of_refused (hmoves r hr) hstream hrefused
  · intro j s hs hopen
    have hclosed : h.isClosedAt s.tunnel = false := by
      obtain ⟨t, ht, hopen⟩ := isOpenAt_iff.mp hopen
      simp [isClosedAt, ht, hopen]
    rw [((isDelivering_of_run hrun j).account s hs hclosed).delivers_iff]
    simp

/-- Two requests read from a tunnel, and the first gives way to the second with one batch held
back. Something may happen before the source brings that batch and the next one. -/
def givingWay (between : List Move) : List Move :=
  let read : Request :=
    { query := Operation.readPrefix ++ (Identity.random 0).text, connection := .error .notCreated }
  [.act (.open (Identity.random 0) none {} []), .act (.put (Identity.random 0).text 0),
    .act (.call "first" (.request read)), .act (.call "second" (.request read)),
    .go (.call 0)] ++ between ++
  [.act (.feed 0 [.data (Utf8.ofString "3.nop;"), .data (Utf8.ofString "4.sync,1.0;")]),
    .go (.stream 0), .go (.stream 0)]

theorem delivered_when_giving_way :
    ∃ s, (({} : Hub).replay (givingWay [])).2.streams[0]? = some s ∧ s.phase = .ended ∧
      batchesOf (({} : Hub).replay (givingWay [])).1 0 = [Utf8.ofString "3.nop;"] ∧
      s.Delivers (batchesOf (({} : Hub).replay (givingWay [])).1 0) := by
  obtain ⟨_, _, hdelivers⟩ := delivered_unless_end_is_lost (run_replay {} (givingWay []))
  exact ⟨_, rfl, by decide, by decide, (hdelivers 0 _ rfl (by decide)).mpr (by decide)⟩

/-- If the client of the first request is gone by then, the batch is lost, and the tunnel stays
open and registered. -/
theorem lost_when_giving_way :
    ∃ s, (({} : Hub).replay (givingWay [.act (.call "first" .drop)])).2.streams[0]? = some s ∧
      s.tunnel = 0 ∧
      (({} : Hub).replay (givingWay [.act (.call "first" .drop)])).2.isOpenAt 0 = true ∧
      (({} : Hub).replay (givingWay [.act (.call "first" .drop)])).2.registry.find?
        (Identity.random 0).text = some 0 ∧
      ¬ s.Delivers
        (batchesOf (({} : Hub).replay (givingWay [.act (.call "first" .drop)])).1 0) := by
  refine ⟨_, rfl, rfl, by decide, by decide, fun hdelivers => ?_⟩
  have hpassed := hdelivers.of_ended (by decide)
  revert hpassed
  decide

end Hub

end LongPollTunnel
