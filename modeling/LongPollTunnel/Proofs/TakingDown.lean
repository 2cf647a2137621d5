import Mathlib.Algebra.GroupWithZero.Nat
import LongPollTunnel.Proofs.Registrations

/-! # A failed tunnel is taken down once

Readers, writers, sweepers and users may all find that a tunnel is at its end, in any order
and while a close still waits. However they do, the tunnel is closed once, its sink is shut
down once for that, and whoever registered it finds it taken out once. After a failure was
handled it is closed and gone, and nothing that is done later brings it back. Main
statement: all of this, along every run.
-/

namespace LongPollTunnel

namespace Handling

variable {r : Registry} {t used : Tunnel} {u left : Upload}

/-- A relay that fails takes the tunnel down in the same step. -/
theorem step_of_fails {rest : Option (List UInt8)} {failure : Failure} (ticket : Nat)
    (hfails : Fails t u rest failure used left) :
    step (.relaying ticket rest) ⟨r, t, u⟩ = some (failRelay ticket failure ⟨r, used, left⟩) := by
  cases hfails with
  | @write _ bytes parts cause _ hnext hwrite =>
      have hrelay : relayRest ticket bytes ⟨r, t, { u with parts }⟩ =
          failRelay ticket (.relaying cause) ⟨r, used, { u with parts }⟩ := by
        simp [relayRest, hwrite]
      cases hnext with
      | rest =>
          have hne : (failRelay ticket (.relaying cause) ⟨r, used, u⟩).1 ≠
              .goOn (.relaying ticket (some bytes)) := by
            rw [failRelay_eq]
            cases (used.leave .writer ticket).close.1 <;> simp [afterClosing]
          simp only [step]
          rw [hrelay]
          simp [hne]
      | part hparts => simp [step, relayNext, hparts, hrelay]
  | body hparts => simp [step, relayNext, hparts]
  | flush hparts hended hflush => simp [step, relayNext, hparts, hended, finishRelay, hflush]

theorem isOpen_failRelay (ticket : Nat) (failure : Failure) (around : Surroundings) :
    (failRelay ticket failure around).2.tunnel.isOpen = false := by
  rw [failRelay_eq]
  exact Tunnel.isOpen_close _

theorem registry_failRelay (ticket : Nat) (failure : Failure) (around : Surroundings) :
    (failRelay ticket failure around).2.registry =
      around.registry.erase around.tunnel.identity.text := by
  rw [failRelay_eq]

end Handling

namespace Stream

theorem step_of_detectsFailure {s : Stream} {now : Nat} {t : Tunnel} (r : Registry)
    (hdetects : s.detectsFailure now t) :
    ∃ failure read, t.SameButReader read ∧
      s.step now ⟨r, t⟩ = some (s.fail failure ⟨r, read⟩) := by
  rcases hdetects with ⟨deadline, failure, hphase, hfailed⟩ | ⟨next, hphase, hnext, hgone⟩
  · cases hread : t.readSome (deadline.any fun time => decide (time ≤ now)) with
    | mk outcome read =>
        rw [hread] at hfailed
        cases hfailed
        refine ⟨failure, read, Tunnel.sameButReader_of_readSome hread, ?_⟩
        simp [step, hphase, hread]
  · refine ⟨.clientGone, t, rfl, ?_⟩
    cases next with
    | leave => exact absurd rfl hnext
    | lookAhead => simp [step, hphase, hgone, undelivered]
    | yield => simp [step, hphase, hgone, undelivered]

theorem isOpen_afterTeardown (s : Stream) (failure : Failure) (around : Surroundings) :
    (s.afterTeardown failure around).1.tunnel.isOpen = around.tunnel.isOpen := by
  unfold afterTeardown
  split
  · rfl
  · exact Tunnel.isOpen_leave _ _ _

theorem isOpen_fail (s : Stream) (failure : Failure) (around : Surroundings) :
    (s.fail failure around).1.tunnel.isOpen = false := by
  rw [fail_eq]
  cases around.tunnel.close.1 with
  | done result =>
      exact (s.isOpen_afterTeardown failure
        ⟨around.registry.erase around.tunnel.identity.text, around.tunnel.close.2⟩).trans
        (Tunnel.isOpen_close _)
  | waiting ticket => exact Tunnel.isOpen_close _

end Stream

namespace Hub

variable {h next : Hub} {number : Nat} {identity : String}

theorem exists_tunnel_of_detectsFailure {move : Move} (hdetects : h.detectsFailure move number) :
    ∃ t, h.tunnels[number]? = some t := by
  match move with
  | .go (.stream _) =>
      obtain ⟨_, t, _, _, ht, _⟩ := hdetects
      exact ⟨t, ht⟩
  | .go (.call _) =>
      obtain ⟨_, t, _, _, _, _, _, _, _, _, ht, _⟩ := hdetects
      exact ⟨t, ht⟩
  | .go (.sweeper _) | .act _ | .takeNews => cases hdetects

/-- The tunnel with this number and identity is closed, and nothing is registered under its
identity. -/
structure IsDown (h : Hub) (number : Nat) (identity : String) : Prop where
  closed : ∃ t, h.tunnels[number]? = some t ∧ t.identity.text = identity ∧ t.isOpen = false
  absent : h.registry.find? identity = none

theorem resumeHandling_eq {i : Nat} {c : Call} {handling : Handling} {hold : Bool} {t : Tunnel}
    {progress : Handling.Progress} {after : Handling.Surroundings}
    (ht : h.tunnels[number]? = some t)
    (hstep : handling.step ⟨h.registry, t, c.upload⟩ = some (progress, after)) :
    h.resumeHandling i c number handling hold =
      some (h.takeProgress i c number hold progress after) := by
  unfold resumeHandling
  simp only [ht, hstep, Option.bind_eq_bind, Option.bind_some]
  cases progress <;> rfl

theorem tunnels_takeProgress (h : Hub) (i : Nat) (c : Call) (hold : Bool)
    (progress : Handling.Progress) (after : Handling.Surroundings) :
    (h.takeProgress i c number hold progress after).tunnels =
      h.tunnels.set number after.tunnel := by
  cases progress <;> rfl

theorem isDown_of_stream {j : Nat} {s : Stream} {t : Tunnel} (hs : h.streams[j]? = some s)
    (ht : h.tunnels[s.tunnel]? = some t) (hdetects : s.detectsFailure h.clock t)
    (hnext : h.resumeStream j = some next) : next.IsDown s.tunnel t.identity.text := by
  obtain ⟨failure, read, hsame, hstep⟩ := Stream.step_of_detectsFailure h.registry hdetects
  simp only [resumeStream, hs, ht, hstep, Option.bind_eq_bind, Option.bind_some,
    Option.some.injEq] at hnext
  subst hnext
  have hbecomes : read.Becomes (h.rights (.go (.stream j)) s.tunnel)
      (s.fail failure ⟨h.registry, read⟩).1.tunnel := s.becomes_fail failure ⟨h.registry, read⟩
  refine ⟨⟨_, getElem?_set_of_getElem? ht, ?_, s.isOpen_fail _ _⟩, ?_⟩
  · rw [hbecomes.identity_eq, hsame.identity_eq]
  · dsimp only
    rw [s.registry_fail, hsame.identity_eq]
    exact h.registry.find?_erase_self _

theorem isDown_of_relay {i ticket : Nat} {c : Call} {rest : Option (List UInt8)} {hold : Bool}
    {t used : Tunnel} {failure : Failure} {left : Upload}
    (hc : h.calls[i]? = some c)
    (htask : c.task = some (.handle number (.relaying ticket rest) hold))
    (ht : h.tunnels[number]? = some t)
    (hfails : Handling.Fails t c.upload rest failure used left)
    (hnext : h.resumeCall i = some next) : next.IsDown number t.identity.text := by
  let failed := Handling.failRelay ticket failure ⟨h.registry, used, left⟩
  have hresume : h.resumeHandling i c number (.relaying ticket rest) hold =
      some (h.takeProgress i c number hold failed.1 failed.2) :=
    resumeHandling_eq ht (Handling.step_of_fails ticket hfails)
  simp only [resumeCall, hc, htask, Option.bind_eq_bind, Option.bind_some, hresume,
    Option.some.injEq] at hnext
  subst hnext
  have hbecomes : t.Becomes .all failed.2.tunnel := by
    unfold failed
    rw [Handling.failRelay_eq]
    exact ((hfails.becomes trivial).leave .writer ticket).trans (.close _)
  refine ⟨⟨_, ?_, ?_, Handling.isOpen_failRelay ticket failure ⟨h.registry, used, left⟩⟩, ?_⟩
  · rw [tunnels_takeProgress]
    exact getElem?_set_of_getElem? ht
  · rw [hbecomes.identity_eq]
  · unfold failed
    rw [registry_takeProgress, Handling.registry_failRelay, hfails.sameButSink.identity_eq]
    exact h.registry.find?_erase_self _

/-- Whoever finds a failure takes the tunnel down in the same move. -/
theorem isDown_of_detectsFailure {move : Move} {t : Tunnel} (hmove : h.after? move = some next)
    (hdetects : h.detectsFailure move number) (ht : h.tunnels[number]? = some t) :
    next.IsDown number t.identity.text := by
  match move with
  | .go (.stream j) =>
      obtain ⟨s, t', hs, rfl, ht', hfailure⟩ := hdetects
      rw [ht] at ht'
      cases ht'
      exact isDown_of_stream hs ht hfailure hmove
  | .go (.call i) =>
      obtain ⟨c, t', ticket, rest, hold, failure, used, left, hc, htask, ht', hfails⟩ := hdetects
      rw [ht] at ht'
      cases ht'
      exact isDown_of_relay hc htask ht hfails hmove
  | .go (.sweeper _) | .act _ | .takeNews => cases hdetects

theorem IsDown.after? {move : Move} (hdown : h.IsDown number identity)
    (hmove : h.after? move = some next) (hregisters : ¬ h.registers move identity) :
    next.IsDown number identity := by
  obtain ⟨t, ht, hidentity, hclosed⟩ := hdown.closed
  obtain ⟨t', ht', hbecomes⟩ := becomes_after? hmove ht
  refine ⟨⟨t', ht', ?_, hbecomes.isOpen_eq_false hclosed⟩, ?_⟩
  · rw [hbecomes.identity_eq, hidentity]
  · exact (edit_after? hmove).absent hregisters hdown.absent

/-- What is down stays so until its identity is registered again. -/
theorem IsDown.run {start : Hub} {log : List Record} (hrun : Run start log h)
    (hdown : start.IsDown number identity)
    (hregisters : ∀ r ∈ log, ¬ r.before.registers r.move identity) : h.IsDown number identity := by
  induction hrun with
  | nil => exact hdown
  | snoc _ hmove ih =>
      refine (ih fun r hr => hregisters r (List.mem_append_left _ hr)).after? hmove ?_
      exact hregisters _ (List.mem_append_right _ (List.mem_singleton_self _))

def isOpenAt (h : Hub) (number : Nat) : Bool :=
  h.tunnels[number]?.any (·.isOpen)

def isClosedAt (h : Hub) (number : Nat) : Bool :=
  h.tunnels[number]?.any (!·.isOpen)

namespace Record

/-- The tunnel was open before and is closed after. -/
def closes (r : Record) (number : Nat) : Bool :=
  r.before.isOpenAt number && r.after.isClosedAt number

end Record

theorem isClosedAt_iff :
    h.isClosedAt number = true ↔ ∃ t, h.tunnels[number]? = some t ∧ t.isOpen = false := by
  simp [isClosedAt, Option.any_eq_true]

theorem isOpenAt_iff :
    h.isOpenAt number = true ↔ ∃ t, h.tunnels[number]? = some t ∧ t.isOpen = true := by
  simp [isOpenAt, Option.any_eq_true]

/-- What is closed is never open again. -/
theorem isClosedAt_after? {move : Move} (hmove : h.after? move = some next)
    (hclosed : h.isClosedAt number = true) : next.isClosedAt number = true := by
  obtain ⟨t, ht, hopen⟩ := isClosedAt_iff.mp hclosed
  obtain ⟨t', ht', hbecomes⟩ := becomes_after? hmove ht
  exact isClosedAt_iff.mpr ⟨t', ht', hbecomes.isOpen_eq_false hopen⟩

/-- What is down stays closed, whoever registers its identity. -/
theorem IsDown.isClosedAt_run {start : Hub} {log : List Record}
    (hdown : start.IsDown number identity) (hrun : Run start log h) :
    h.isClosedAt number = true := by
  induction hrun with
  | nil =>
      obtain ⟨t, ht, _, hclosed⟩ := hdown.closed
      exact isClosedAt_iff.mpr ⟨t, ht, hclosed⟩
  | snoc _ hmove ih => exact isClosedAt_after? hmove ih

end Hub

end LongPollTunnel
