import LongPollTunnel.Proofs.Relaying

/-! # What answers there are

A response is a success or reports a failure. A report bears the status of the kind of its
failure and one line of printable characters, which renders the text of a fault of the client
and hides every other. Main statement: along every run the heads that are told are successes and
reports of three kinds of failures.
-/

namespace LongPollTunnel

namespace Head

/-- Of a character it shows the character itself, or a question mark if it may not be shown. -/
def Shows (c shown : Char) : Prop :=
  (0x20 ≤ shown.toNat ∧ shown.toNat ≤ 0x7E) ∧ (shown = c ∨ shown = '?')

/-- The head reports a failure with an HTTP status and a code of the protocol, and renders a
message, each of its characters as one that is printable. -/
structure Reports (head : Head) (message : String) (status code : Nat) : Prop where
  status : head.status = status
  code : head.headers.lookup statusCodeHeader = some code.repr
  message : ∃ shown, head.headers.lookup errorMessageHeader = some shown ∧
    List.Forall₂ Shows message.toList shown.toList

/-- The head answers with success, or reports a failure of one of three kinds. -/
inductive IsAnswer : Head → Prop where
  | created : IsAnswer .created
  | reading : IsAnswer .reading
  | written : IsAnswer .written
  | client {head : Head} {message : String} (hreports : head.Reports message 400 768) :
      IsAnswer head
  | notFound {head : Head} {message : String} (hreports : head.Reports message 404 516) :
      IsAnswer head
  | server {head : Head} (hreports : head.Reports internalMessage 500 512) : IsAnswer head

/-- What may stand in a header is kept, character by character, and the rest is replaced. -/
theorem forall₂_shows_headerSafe (text : String) :
    List.Forall₂ Shows text.toList (headerSafe text).toList := by
  rw [headerSafe, String.toList_ofList, List.forall₂_map_right_iff, List.forall₂_same]
  intro c _
  split
  next hsafe => exact ⟨of_decide_eq_true hsafe, Or.inl rfl⟩
  · exact ⟨by decide, Or.inr rfl⟩

theorem forall₂_shows_internalMessage :
    List.Forall₂ Shows internalMessage.toList internalMessage.toList := by
  have hsafe : internalMessage.toList.all isHeaderSafe = true := by decide
  rw [List.forall₂_same]
  intro c hc
  exact ⟨of_decide_eq_true (List.all_eq_true.mp hsafe c hc), Or.inl rfl⟩

/-- The message that a report of a failure renders. -/
def rendered (failure : Failure) : String :=
  if failure.isClientFault then failure.message else internalMessage

/-- The head for a failure has the status of its kind and shows its message, as far as that is for
clients to see. -/
theorem reports_ofFailure (failure : Failure) :
    (ofFailure failure).Reports (rendered failure) failure.status.http failure.status.code where
  status := rfl
  code := rfl
  message := by
    refine ⟨publicMessage failure, rfl, ?_⟩
    unfold publicMessage rendered
    split
    · exact forall₂_shows_headerSafe failure.message
    · exact forall₂_shows_internalMessage

section

variable {failure : Failure}

/-- Who sent a faulty request is told what is wrong with it. -/
theorem reports_client (hkind : failure.kind = .client) :
    (ofFailure failure).Reports failure.message 400 768 := by
  have hreports := reports_ofFailure failure
  simp only [rendered, Failure.isClientFault, Failure.status, hkind] at hreports
  exact hreports

/-- A tunnel that is not there is reported as such. -/
theorem reports_notFound (hkind : failure.kind = .notFound) :
    (ofFailure failure).Reports failure.message 404 516 := by
  have hreports := reports_ofFailure failure
  simp only [rendered, Failure.isClientFault, Failure.status, hkind] at hreports
  exact hreports

/-- What goes wrong inside is not told. -/
theorem reports_server (hkind : failure.kind = .server) :
    (ofFailure failure).Reports internalMessage 500 512 := by
  have hreports := reports_ofFailure failure
  simp only [rendered, Failure.isClientFault, Failure.status, hkind] at hreports
  exact hreports

end

end Head

/-! ## How the handling of a request goes on -/

namespace Handling

/-- The failure that the handling of a request is going to report. -/
def closing? : Handling → Option Failure
  | .closing failure _ => some failure
  | .awaitReader _ | .awaitWriter _ | .relaying _ _ => none

/-- What is told is an answer, and a failure that is reported later is one inside. -/
def Progress.IsAnswered : Progress → Prop
  | .goOn handling => ∀ failure, handling.closing? = some failure → failure.kind = .server
  | .answer head => head.IsAnswer
  | .stream _ => True

/-- A relay that fails is answered as a failure of the server, or closes the tunnel first. -/
theorem isAnswered_failRelay (ticket : Nat) {failure : Failure} (around : Surroundings)
    (hkind : failure.kind = .server) : (failRelay ticket failure around).1.IsAnswered := by
  rw [failRelay_eq]
  cases (around.tunnel.leave .writer ticket).close.1 with
  | done result => exact Head.IsAnswer.server (Head.reports_server hkind)
  | waiting place =>
      intro other hother
      cases hother
      exact hkind

/-- Whatever a handling comes to, its answer is a proper one, or there is none yet. -/
theorem Step.isAnswered {r : Registry} {t : Tunnel} {u : Upload} {handling : Handling}
    {progress : Progress} {after : Surroundings} (hstep : Step r t u handling progress after)
    (hclosing : ∀ failure, handling.closing? = some failure → failure.kind = .server) :
    progress.IsAnswered := by
  cases hstep with
  | reads hserving => trivial
  | writes hserving => exact fun _ hnone => by cases hnone
  | takes hnext hwrite => exact fun _ hnone => by cases hnone
  | blocks hnext hwrite => exact fun _ hnone => by cases hnone
  | fails hfails => exact isAnswered_failRelay _ _ hfails.kind
  | finishes hparts hended hflush => exact Head.IsAnswer.written
  | closes hclose => exact Head.IsAnswer.server (Head.reports_server (hclosing _ rfl))

end Handling

/-! ## What a call is told -/

/-- The failure that a task is going to report to a client. -/
def Task.closing? : Task → Option Failure
  | .handle _ handling _ => handling.closing?
  | .acquire _ _ | .readSome _ _ | .readInstruction _ | .write _ _ _ | .flush _ | .shutdown _
  | .close _ | .sweep _ | .watch _ | .readBody _ => none

namespace Call

def heads (c : Call) : List Head :=
  c.events.filterMap Event.head?

def closing? (c : Call) : Option Failure :=
  c.task.bind Task.closing?

/-- The call was told answers only, and will be told no other by the close that it waits for. -/
structure IsAnswered (c : Call) : Prop where
  heads : ∀ head ∈ c.heads, head.IsAnswer
  closing : ∀ failure, c.closing? = some failure → failure.kind = .server

theorem isAnswered_new (name : String) : ({ name } : Call).IsAnswered where
  heads := by simp [Call.heads]
  closing := by simp [Call.closing?]

theorem heads_tell (c : Call) (event : Event) :
    (c.tell event).heads = c.heads ++ event.head?.toList := by
  cases event <;> simp [heads, tell, Event.head?]

variable {c after : Call}

/-- Whoever is told no head and waits for no close is answered as before. -/
theorem IsAnswered.of_heads_eq (hanswered : c.IsAnswered) (hheads : after.heads = c.heads)
    (hclosing : after.closing? = none ∨ after.closing? = c.closing?) : after.IsAnswered where
  heads := by
    rw [hheads]
    exact hanswered.heads
  closing := by
    intro failure hfailure
    rcases hclosing with hnone | hsame
    · rw [hnone] at hfailure
      cases hfailure
    · rw [hsame] at hfailure
      exact hanswered.closing failure hfailure

/-- News that are no head leave the answers of a call as they are. -/
theorem IsAnswered.tell (hanswered : c.IsAnswered) {event : Event} (hevent : event.head? = none) :
    (c.tell event).IsAnswered := by
  refine hanswered.of_heads_eq ?_ (Or.inr rfl)
  rw [heads_tell, hevent]
  simp

theorem IsAnswered.finish (hanswered : c.IsAnswered) {event : Event}
    (hevent : event.head? = none) : (c.finish event).IsAnswered :=
  (hanswered.tell hevent).of_heads_eq rfl (Or.inl rfl)

theorem IsAnswered.assign (hanswered : c.IsAnswered) {task : Task} (htask : task.closing? = none) :
    ({ c with task := some task } : Call).IsAnswered :=
  hanswered.of_heads_eq rfl (Or.inl htask)

/-- A call that was given a proper head is answered. -/
theorem IsAnswered.answered (hanswered : c.IsAnswered) {head : Head} (hhead : head.IsAnswer)
    (body : Body) (hold : Bool) : (c.answered head body hold).IsAnswered where
  heads := by
    have hheads : (c.answered head body hold).heads = c.heads ++ [head] :=
      c.heads_tell (.head head)
    rw [hheads]
    intro other hother
    rcases List.mem_append.mp hother with hbefore | hnew
    · exact hanswered.heads other hbefore
    · rw [List.mem_singleton.mp hnew]
      exact hhead
  closing := by
    intro failure hfailure
    cases hold <;> cases hfailure

end Call

theorem Event.head?_ofResult (result : Except Failure Unit) :
    (Event.ofResult result).head? = none := by
  cases result <;> rfl

namespace Hub

/-- Every call was told answers only. -/
def AreAnswered (h : Hub) : Prop :=
  ∀ c ∈ h.calls, c.IsAnswered

variable {h next : Hub} {i : Nat} {c after : Call}

theorem AreAnswered.of_call (hanswered : h.AreAnswered) (hc : h.calls[i]? = some c) :
    c.IsAnswered :=
  hanswered c (List.mem_of_getElem? hc)

theorem AreAnswered.of_calls_eq (hanswered : h.AreAnswered) (hcalls : next.calls = h.calls) :
    next.AreAnswered := by
  intro c hmem
  rw [hcalls] at hmem
  exact hanswered c hmem

/-- It is enough to look at the one call that changes. -/
theorem AreAnswered.set (hanswered : h.AreAnswered) (hafter : after.IsAnswered)
    (hcalls : next.calls = h.calls.set i after) : next.AreAnswered := by
  intro c hmem
  rw [hcalls] at hmem
  rcases List.mem_or_eq_of_mem_set hmem with hbefore | rfl
  · exact hanswered c hbefore
  · exact hafter

theorem AreAnswered.withCall (hanswered : h.AreAnswered) (name : String) :
    (h.withCall name).2.AreAnswered := by
  rcases h.calls_withCall name with hsame | ⟨_, hnew⟩
  · exact hanswered.of_calls_eq hsame
  · intro c hmem
    rw [hnew] at hmem
    rcases List.mem_append.mp hmem with hbefore | hlast
    · exact hanswered c hbefore
    · rw [List.mem_singleton.mp hlast]
      exact Call.isAnswered_new name

/-! ## How a call goes on -/

theorem AreAnswered.finish (hanswered : h.AreAnswered) (hc : h.calls[i]? = some c) {event : Event}
    (hevent : event.head? = none) (hcalls : next.calls = h.calls.set i (c.finish event)) :
    next.AreAnswered :=
  hanswered.set ((hanswered.of_call hc).finish hevent) hcalls

/-- The call whose request is handled is answered when the handling says so. -/
theorem AreAnswered.takeProgress (hanswered : h.AreAnswered) (hc : c.IsAnswered) (number : Nat)
    (hold : Bool) {progress : Handling.Progress} (hprogress : progress.IsAnswered)
    (after : Handling.Surroundings) :
    (h.takeProgress i c number hold progress after).AreAnswered := by
  have hupload : ({ c with upload := after.upload } : Call).IsAnswered :=
    hc.of_heads_eq rfl (Or.inr rfl)
  cases progress with
  | goOn handling =>
      have hgoesOn : ({ c with
          upload := after.upload
          task := some (.handle number handling hold) } : Call).IsAnswered :=
        ⟨hupload.heads, hprogress⟩
      exact hanswered.set hgoesOn rfl
  | answer head => exact hanswered.set (hupload.answered hprogress _ hold) rfl
  | stream ticket => exact hanswered.set (hupload.answered .reading _ hold) rfl

theorem AreAnswered.keepSweep (hanswered : h.AreAnswered) (hc : c.IsAnswered)
    (progress : Sweep.Progress) {middle : Hub} (hcalls : middle.calls = h.calls) :
    (middle.keepSweep i c progress).AreAnswered := by
  have hmiddle := hanswered.of_calls_eq hcalls
  cases progress with
  | done count => exact hmiddle.set (hc.finish rfl) rfl
  | waiting sweep => exact hmiddle.set (hc.assign rfl) rfl

/-- The client reads the body only, which comes after the head. -/
theorem AreAnswered.resumeReadBody (hanswered : h.AreAnswered) (hc : c.IsAnswered)
    {appetite : Appetite} (hnext : h.resumeReadBody i c appetite = some next) :
    next.AreAnswered := by
  have hend (hub : Hub) (hcalls : hub.calls = h.calls) :
      (hub.endBody i c appetite).AreAnswered := by
    have hhub := hanswered.of_calls_eq hcalls
    cases appetite with
    | everything =>
        have hended : ({ c.finish .finished with body := none } : Call).IsAnswered :=
          (hc.finish rfl).of_heads_eq rfl (Or.inr rfl)
        exact hhub.set hended rfl
    | oneChunk => exact hhub.set (hc.finish rfl) rfl
  have htake (hub : Hub) (hcalls : hub.calls = h.calls) (body : Body) (bytes : List UInt8) :
      (hub.takeChunk i c body bytes appetite).AreAnswered := by
    have hhub := hanswered.of_calls_eq hcalls
    have hbody : ({ c with body := some body } : Call).IsAnswered :=
      hc.of_heads_eq rfl (Or.inr rfl)
    cases appetite with
    | everything => exact hhub.set (hbody.tell rfl) rfl
    | oneChunk => exact hhub.set (hbody.finish rfl) rfl
  obtain ⟨body, _, hrest⟩ := exists_of_bind_eq_some hnext
  cases body with
  | empty =>
      cases hrest
      exact hend h rfl
  | text bytes =>
      cases hrest
      exact htake h rfl _ _
  | stream index =>
      obtain ⟨s, _, hportion⟩ := exists_of_bind_eq_some hrest
      split at hportion
      · cases hportion
        exact htake _ rfl _ _
      · cases hportion
        exact hend h rfl
      · cases hportion

/-- The step lemma for a call that goes on: heads come from handlings alone. -/
theorem AreAnswered.resumeCall (hanswered : h.AreAnswered) (hnext : h.resumeCall i = some next) :
    next.AreAnswered := by
  obtain ⟨c, hc, hrest⟩ := exists_of_bind_eq_some hnext
  obtain ⟨task, htask, hstep⟩ := exists_of_bind_eq_some hrest
  have hcall := hanswered.of_call hc
  cases task with
  | acquire role hold =>
      obtain ⟨t, _, hserved⟩ := exists_of_bind_eq_some hstep
      split at hserved
      · cases hserved
        rw [unqueue_leave?_eq_giveBack]
        have hheld : (c.setHold role (some hold)).IsAnswered := by
          cases role <;> exact hcall.of_heads_eq rfl (Or.inr rfl)
        exact (hanswered.of_calls_eq (calls_giveBack h _ _)).set (hheld.finish rfl) rfl
      · cases hserved
  | readSome tunnel deadline =>
      obtain ⟨t, _, hread⟩ := exists_of_bind_eq_some hstep
      split at hread
      · cases hread
        exact hanswered.finish hc rfl rfl
      · cases hread
        exact hanswered.finish hc rfl rfl
      · split at hread
        · cases hread
        · cases hread
          exact hanswered.of_calls_eq rfl
  | readInstruction tunnel =>
      obtain ⟨t, _, hread⟩ := exists_of_bind_eq_some hstep
      split at hread
      · cases hread
        exact hanswered.finish hc rfl rfl
      · cases hread
        exact hanswered.finish hc rfl rfl
      · split at hread
        · cases hread
        · cases hread
          exact hanswered.of_calls_eq rfl
  | write tunnel rest thenFlush =>
      obtain ⟨t, _, hwrite⟩ := exists_of_bind_eq_some hstep
      split at hwrite
      · cases hwrite
        unfold finishWrite
        split
        · exact hanswered.set (hcall.assign rfl) rfl
        · exact hanswered.finish hc rfl rfl
      · cases hwrite
        exact hanswered.finish hc rfl rfl
      · split at hwrite
        · cases hwrite
        · cases hwrite
          exact hanswered.set (hcall.assign rfl) rfl
  | flush tunnel =>
      obtain ⟨t, _, hflush⟩ := exists_of_bind_eq_some hstep
      obtain ⟨⟨result, after⟩, _, hend⟩ := exists_of_bind_eq_some hflush
      cases hend
      exact hanswered.finish hc (Event.head?_ofResult _) rfl
  | shutdown tunnel =>
      obtain ⟨t, _, hshutdown⟩ := exists_of_bind_eq_some hstep
      obtain ⟨⟨result, after⟩, _, hend⟩ := exists_of_bind_eq_some hshutdown
      cases hend
      exact hanswered.finish hc (Event.head?_ofResult _) rfl
  | close hold =>
      obtain ⟨t, _, hclose⟩ := exists_of_bind_eq_some hstep
      split at hclose
      · cases hclose
        exact hanswered.finish hc (Event.head?_ofResult _) rfl
      · cases hclose
  | sweep s =>
      obtain ⟨⟨progress, tunnels⟩, _, hend⟩ := exists_of_bind_eq_some hstep
      cases hend
      exact hanswered.keepSweep hcall progress rfl
  | watch sweeper =>
      obtain ⟨s, _, hend⟩ := exists_of_bind_eq_some hstep
      split at hend
      · cases hend
        exact hanswered.finish hc rfl rfl
      · cases hend
  | handle number handling hold =>
      obtain ⟨t, progress, after, _, hhandling, rfl⟩ := exists_of_resumeHandling hstep
      refine hanswered.takeProgress hcall number hold (hhandling.isAnswered ?_) after
      intro failure hfailure
      refine hcall.closing failure ?_
      rw [Call.closing?, htask]
      exact hfailure
  | readBody appetite => exact hanswered.resumeReadBody hcall hstep

/-! ## What a call is made to do -/

/-- A query that means nothing is the fault of the client. -/
theorem kind_of_ofQuery {query : String} {failure : Failure}
    (hquery : Operation.ofQuery query = .error failure) : failure.kind = .client := by
  unfold Operation.ofQuery at hquery
  split at hquery
  · cases hquery
    rfl
  · split at hquery
    · cases hquery
    · split at hquery
      · cases hquery
      · split at hquery <;> cases hquery
        rfl

/-- A request that is answered at once is answered properly, and one that has to wait not at all. -/
theorem AreAnswered.starts (hanswered : h.AreAnswered) (hc : c.IsAnswered) {r : Request}
    (hstarts : h.Starts i c r next) : next.AreAnswered := by
  have hasking : (c.asking r).IsAnswered := hc.of_heads_eq rfl (Or.inr rfl)
  cases hstarts with
  | invalid hquery =>
      have hhead := Head.IsAnswer.client (Head.reports_client (kind_of_ofQuery hquery))
      exact hanswered.set (hasking.answered hhead _ r.hold) rfl
  | uncreated hquery hnone =>
      have hhead : Head.IsAnswer (.ofFailure .notCreated) := .notFound (Head.reports_notFound rfl)
      exact hanswered.set (hasking.answered hhead _ r.hold) rfl
  | created hquery hconnection ht => exact hanswered.set (hasking.answered .created _ r.hold) rfl
  | absent hquery hseeks hnone =>
      have hhead : Head.IsAnswer (.ofFailure .noSuchTunnel) :=
        .notFound (Head.reports_notFound rfl)
      exact hanswered.set (hasking.answered hhead _ r.hold) rfl
  | @waits operation role identity number t hquery hseeks hfound ht =>
      have htask : (Task.handle number (.await role (t.seat role).next) r.hold).closing? = none := by
        cases role <;> rfl
      exact hanswered.set (hasking.assign htask) rfl

/-- A call that holds no seat is refused, and nothing changes. -/
theorem AreAnswered.withHeld (hanswered : h.AreAnswered) (hold : Option Hold)
    {use : Nat → Tunnel → Result × Hub} (huse : ∀ number t, (use number t).2.AreAnswered) :
    (h.withHeld hold use).2.AreAnswered := by
  unfold Hub.withHeld
  split
  · exact hanswered
  · split
    · exact hanswered
    · exact huse _ _

/-- The step lemma for what a user does: only a request can bring a head at once. -/
theorem AreAnswered.applyCall (hanswered : h.AreAnswered) (hc : c.IsAnswered)
    (action : CallAction) : (h.applyCall i c action).2.AreAnswered := by
  have hassign (hub : Hub) (hcalls : hub.calls = h.calls) {task : Task}
      (htask : task.closing? = none) : (hub.assign i c task).2.AreAnswered :=
    (hanswered.of_calls_eq hcalls).set (hc.assign htask) rfl
  have htell (hub : Hub) (hcalls : hub.calls = h.calls) {event : Event}
      (hevent : event.head? = none) : (hub.tell i c event).2.AreAnswered :=
    (hanswered.of_calls_eq hcalls).set (hc.tell hevent) rfl
  have hidle {after : Call} (hheads : after.heads = c.heads) (htask : after.task = none) :
      after.IsAnswered :=
    hc.of_heads_eq hheads (Or.inl (by rw [Call.closing?, htask, Option.bind_none]))
  cases action with
  | acquire number role =>
      simp only [Hub.applyCall, startAcquire]
      split
      · exact hanswered
      · exact hassign _ rfl rfl
  | readSome => exact hanswered.withHeld _ fun number t => hassign h rfl rfl
  | readInstruction => exact hanswered.withHeld _ fun number t => hassign h rfl rfl
  | available => exact hanswered.withHeld _ fun number t => htell _ rfl rfl
  | writeAll bytes => exact hanswered.withHeld _ fun number t => hassign h rfl rfl
  | writeInstruction instruction => exact hanswered.withHeld _ fun number t => hassign h rfl rfl
  | flush => exact hanswered.withHeld _ fun number t => hassign h rfl rfl
  | shutdown => exact hanswered.withHeld _ fun number t => hassign h rfl rfl
  | close number =>
      simp only [Hub.applyCall, startClose]
      split
      · exact hanswered
      · split
        · exact htell _ rfl (Event.head?_ofResult _)
        · exact hassign _ rfl rfl
  | sweep timeout => exact hanswered.keepSweep hc _ rfl
  | keepSweeping interval timeout =>
      simp only [Hub.applyCall, startSweeper]
      split
      · exact htell h rfl rfl
      · exact hassign _ rfl rfl
  | stopSweeping =>
      refine hanswered.set ?_ rfl
      exact hc.of_heads_eq rfl (Or.inr rfl)
  | request r => exact hanswered.starts hc (h.starts_startRequest i c r)
  | upload parts last =>
      simp only [Hub.applyCall]
      split
      · refine hanswered.set ?_ rfl
        exact hc.of_heads_eq rfl (Or.inr rfl)
      · exact hanswered
  | pull =>
      simp only [Hub.applyCall]
      split
      · exact hassign h rfl rfl
      · exact hanswered
  | abort =>
      refine hanswered.set ?_ (calls_abortTask h i c)
      exact hidle rfl rfl
  | release =>
      refine hanswered.set ?_ (calls_releaseAll h i c)
      exact hidle rfl rfl
  | drop =>
      refine hanswered.set ?_ (calls_dropClient h i c)
      exact hidle rfl rfl

/-! ## Moves -/

theorem AreAnswered.apply (hanswered : h.AreAnswered) (action : Action) :
    (h.apply action).2.AreAnswered := by
  cases action with
  | call name action =>
      have hthere := hanswered.withCall name
      unfold Hub.apply
      dsimp only
      split
      · exact hthere
      next c hc =>
        split
        · exact hthere
        · exact hthere.applyCall (hthere.of_call hc) action
  | _ => exact hanswered.of_calls_eq (calls_apply h (by simp))

/-- Every call stays answered in a move. -/
theorem AreAnswered.after? {move : Move} (hanswered : h.AreAnswered)
    (hmove : h.after? move = some next) : next.AreAnswered := by
  cases move with
  | act action =>
      cases hmove
      exact hanswered.apply action
  | go agent =>
      cases agent with
      | call i => exact hanswered.resumeCall hmove
      | stream j =>
          obtain ⟨_, _, _, _, _, _, _, rfl⟩ := streamStep_resumeStream hmove
          exact hanswered.of_calls_eq rfl
      | sweeper k => exact hanswered.of_calls_eq (calls_resumeSweeper hmove)
  | takeNews =>
      cases hmove
      intro c hmem
      obtain ⟨before, hbefore, rfl⟩ := List.mem_map.mp hmem
      exact ⟨by simp [Call.heads], (hanswered before hbefore).closing⟩

/-- Along every run the heads that are told are answers. -/
theorem areAnswered_of_reaches (hreaches : Reaches {} h) : h.AreAnswered :=
  hreaches.invariant (by simp [AreAnswered]) fun _ _ _ hanswered hmove => hanswered.after? hmove

end Hub

end LongPollTunnel
