import Mathlib.Data.List.Forall2
import LongPollTunnel.Proofs.Payloads

/-! # What a move does to the streams

Streams are started by requests that come to have the reader's seat and go on by themselves.
Main statement: besides these two, no move does more to a stream than a client can do to its
outlet.
-/

namespace LongPollTunnel

/-- Taking a chunk leaves the writing end alone. -/
theorem Outlet.eq_of_take {o after : Outlet} {bytes : List UInt8}
    (htake : o.take = .chunk bytes after) : after = { o with taken := o.taken + 1 } := by
  unfold take at htake
  split at htake
  · cases htake
    rfl
  · split at htake <;> cases htake

/-- The same stream, up to what its client does to the outlet. -/
structure Stream.SameButClient (s s' : Stream) : Prop where
  tunnel : s'.tunnel = s.tunnel
  ticket : s'.ticket = s.ticket
  phase : s'.phase = s.phase
  chunks : s'.outlet.chunks = s.outlet.chunks
  buffer : s'.outlet.buffer = s.outlet.buffer
  finished : s'.outlet.finished = s.outlet.finished
  abandoned : s'.outlet.abandoned = false → s.outlet.abandoned = false
  takes : s'.outlet.abandoned = false →
    s'.outlet = s.outlet ∨ ∃ bytes, s.outlet.take = .chunk bytes s'.outlet

namespace Stream

variable {s s' : Stream}

theorem sameButClient_refl (s : Stream) : s.SameButClient s :=
  ⟨rfl, rfl, rfl, rfl, rfl, rfl, id, fun _ => Or.inl rfl⟩

/-- What a client takes, or leaves when it goes, stays part of what was put into the outlet. -/
theorem SameButClient.content (hsame : s.SameButClient s') :
    s'.outlet.content = s.outlet.content := by
  rw [Outlet.content, Outlet.content, hsame.chunks, hsame.buffer]

/-- The client does not touch the instructions that a stream has written. -/
theorem SameButClient.payload (hsame : s.SameButClient s') : s'.payload = s.payload := by
  unfold Stream.payload
  rw [hsame.phase, hsame.content]

theorem SameButClient.tidy (hsame : s.SameButClient s') (htidy : s.Tidy) : s'.Tidy where
  whole := by
    rw [hsame.payload]
    exact htidy.whole
  content := by
    rw [hsame.payload, hsame.content]
    exact htidy.content
  passed := by
    rw [hsame.phase, hsame.buffer]
    exact fun hended hthere => htidy.passed hended (hsame.abandoned hthere)

/-- To take a chunk is up to the client. -/
theorem sameButClient_take {bytes : List UInt8} {outlet : Outlet}
    (htake : s.outlet.take = .chunk bytes outlet) : s.SameButClient { s with outlet } := by
  have heq := Outlet.eq_of_take htake
  subst heq
  exact ⟨rfl, rfl, rfl, rfl, rfl, rfl, id, fun _ => Or.inr ⟨bytes, htake⟩⟩

/-- So is to go away. -/
theorem sameButClient_abandon (s : Stream) :
    s.SameButClient { s with outlet := { s.outlet with abandoned := true } } :=
  ⟨rfl, rfl, rfl, rfl, rfl, rfl, nofun, nofun⟩

end Stream

namespace Hub

variable {h next : Hub} {i : Nat} {c : Call}

/-- Every stream is the same, up to what its client does. -/
def SameStreams (h next : Hub) : Prop :=
  List.Forall₂ Stream.SameButClient h.streams next.streams

theorem sameStreams_of_eq (heq : next.streams = h.streams) : h.SameStreams next := by
  unfold SameStreams
  rw [heq]
  exact List.forall₂_same.mpr fun s _ => s.sameButClient_refl

theorem forall₂_set {α : Type} {R : α → α → Prop} (hrefl : ∀ a, R a a) {l : List α} {j : Nat}
    {a b : α} (hget : l[j]? = some a) (hrel : R a b) : List.Forall₂ R l (l.set j b) := by
  induction l generalizing j with
  | nil => cases hget
  | cons head tail ih =>
      cases j with
      | zero =>
          cases hget
          exact .cons hrel (List.forall₂_same.mpr fun a _ => hrefl a)
      | succ j => exact .cons (hrefl head) (ih hget)

/-- It is enough that one stream changes for its client only. -/
theorem sameStreams_set {j : Nat} {s s' : Stream} (hs : h.streams[j]? = some s)
    (hsame : s.SameButClient s') (heq : next.streams = h.streams.set j s') :
    h.SameStreams next := by
  unfold SameStreams
  rw [heq]
  exact forall₂_set Stream.sameButClient_refl hs hsame

theorem streams_giveBack (h : Hub) (claims : List Claim) (awaited : Option Claim) :
    (h.giveBack claims awaited).streams = h.streams := by
  rw [giveBack_eq]

theorem streams_abortTask (h : Hub) (i : Nat) (c : Call) :
    (h.abortTask i c).streams = h.streams := by
  rw [abortTask_eq]
  exact streams_giveBack h _ _

theorem streams_releaseAll (h : Hub) (i : Nat) (c : Call) :
    (h.releaseAll i c).streams = h.streams := by
  rw [releaseAll_eq]
  exact streams_giveBack h _ _

/-- A client that goes away takes no stream with it: the stream finds out when it flushes. -/
theorem sameStreams_dropClient (h : Hub) (i : Nat) (c : Call) :
    h.SameStreams (h.dropClient i c) := by
  unfold dropClient
  dsimp only
  split
  next body _ =>
    rcases (h.abortTask i c).dropBody_cases body with heq | ⟨j, s, hs, heq⟩
    · refine sameStreams_of_eq ?_
      rw [heq]
      exact streams_abortTask h i c
    · rw [streams_abortTask] at hs
      refine sameStreams_set hs s.sameButClient_abandon ?_
      change ((h.abortTask i c).dropBody body).streams = _
      rw [heq, ← streams_abortTask h i c]
  · exact sameStreams_of_eq (streams_abortTask h i c)

/-- A request starts no stream before it has the seat. -/
theorem Starts.streams {r : Request} (hstarts : h.Starts i c r next) :
    next.streams = h.streams := by
  cases hstarts <;> rfl

/-- A request that reads becomes a stream. -/
def StartsStream (h next : Hub) (i number ticket : Nat) : Prop :=
  ∃ c hold t, h.calls[i]? = some c ∧
    c.task = some (.handle number (.awaitReader ticket) hold) ∧ h.tunnels[number]? = some t ∧
    t.readerSeat.isServing ticket = true ∧
    next.streams = h.streams ++ [Stream.start h.clock number ticket t]

/-- A call makes no stream go on, and starts one only as it goes on by itself. -/
theorem CallStep.streams {cause : Option CallAction} (hstep : CallStep h i c cause next)
    (hc : h.calls[i]? = some c) :
    h.SameStreams next ∨ cause = none ∧ ∃ number ticket, h.StartsStream next i number ticket := by
  cases hstep with
  | acquired htask ht hserving =>
      rw [unqueue_leave?_eq_giveBack]
      exact Or.inl (sameStreams_of_eq (streams_giveBack h _ _))
  | sweep timeout hidle =>
      simp only [startSweep, keepSweep_eq]
      exact Or.inl (sameStreams_of_eq rfl)
  | sweepOn htask hresume =>
      rw [keepSweep_eq]
      exact Or.inl (sameStreams_of_eq rfl)
  | request hidle hfirst hstarts => exact Or.inl (sameStreams_of_eq hstarts.streams)
  | @handle number handling hold t progress after htask ht hstep =>
      cases hstep with
      | @reads ticket hserving =>
          exact Or.inr ⟨rfl, number, ticket, c, hold, t, hc, htask, ht, hserving, rfl⟩
      | fails hfails =>
          rw [Handling.failRelay_eq]
          cases (Tunnel.leave _ .writer _).close.1 <;> exact Or.inl (sameStreams_of_eq rfl)
      | _ => exact Or.inl (sameStreams_of_eq rfl)
  | take hs htake hquiet => exact Or.inl (sameStreams_set hs (Stream.sameButClient_take htake) rfl)
  | abort => exact Or.inl (sameStreams_of_eq (streams_abortTask h i c))
  | release => exact Or.inl (sameStreams_of_eq (streams_releaseAll h i c))
  | drop => exact Or.inl (sameStreams_dropClient h i c)
  | _ => exact Or.inl (sameStreams_of_eq rfl)

theorem streams_withCall (h : Hub) (name : String) : (h.withCall name).2.streams = h.streams := by
  unfold withCall
  split <;> rfl

/-- No action starts a stream or drives one on. -/
theorem sameStreams_apply (h : Hub) (action : Action) : h.SameStreams (h.apply action).2 := by
  cases action with
  | call name action =>
      have hcall {hub : Hub} (hsame : (h.withCall name).2.SameStreams hub) : h.SameStreams hub := by
        unfold SameStreams at hsame ⊢
        rw [← streams_withCall h name]
        exact hsame
      rcases callStep_apply h name action with heq | ⟨c, hc, hstep⟩
      · rw [heq]
        exact sameStreams_of_eq (streams_withCall h name)
      · rcases hstep.streams hc with hsame | ⟨hnone, _⟩
        · exact hcall hsame
        · cases hnone
  | put identity number =>
      unfold apply
      dsimp only
      split <;> exact sameStreams_of_eq rfl
  | describe number shownAs =>
      unfold apply
      dsimp only
      split <;> exact sameStreams_of_eq rfl
  | «open» _ _ _ _ | feed _ _ | setManner _ _ | get _ | remove _ | advance _ =>
      exact sameStreams_of_eq rfl

/-- Sweepers leave streams alone. -/
theorem streams_resumeSweeper {k : Nat} (hnext : h.resumeSweeper k = some next) :
    next.streams = h.streams := by
  obtain ⟨_, _, _, _, _, _, rfl⟩ := sweeperStep_resumeSweeper hnext
  rfl

/-- What a move does to the streams: nothing, starting one, or letting one go on. -/
inductive StreamsMove (h : Hub) : Move → Hub → Prop where
  | same {move : Move} {next : Hub} (hother : ∀ j, move ≠ .go (.stream j))
      (hsame : h.SameStreams next) : StreamsMove h move next
  | start {i number ticket : Nat} {next : Hub} (hstart : h.StartsStream next i number ticket) :
      StreamsMove h (.go (.call i)) next
  | step {j : Nat} {s s' : Stream} {t : Tunnel} {after : Stream.Surroundings}
      (hs : h.streams[j]? = some s) (ht : h.tunnels[s.tunnel]? = some t)
      (hstep : s.Step h.clock h.registry t after s') :
      StreamsMove h (.go (.stream j))
        { h with
          registry := after.registry
          tunnels := h.tunnels.set s.tunnel after.tunnel
          streams := h.streams.set j s' }

/-- The step lemma: a move starts a stream, drives one on, or leaves them all to their clients. -/
theorem streamsMove_after? {move : Move} (hmove : h.after? move = some next) :
    h.StreamsMove move next := by
  cases move with
  | act action =>
      cases hmove
      exact .same (by simp) (sameStreams_apply h action)
  | takeNews =>
      cases hmove
      exact .same (by simp) (sameStreams_of_eq rfl)
  | go agent =>
      cases agent with
      | call i =>
          obtain ⟨c, hc, hstep⟩ := callStep_resumeCall hmove
          rcases hstep.streams hc with hsame | ⟨_, number, ticket, hstart⟩
          · exact .same (by simp) hsame
          · exact .start hstart
      | stream j =>
          obtain ⟨s, s', t, after, hs, ht, hstep, rfl⟩ := streamStep_resumeStream hmove
          exact .step hs ht hstep
      | sweeper k => exact .same (by simp) (sameStreams_of_eq (streams_resumeSweeper hmove))

end Hub

end LongPollTunnel
