import LongPollTunnel.Proofs.Indifference
import LongPollTunnel.Proofs.Relaying

/-! # What responses keep to themselves

Two hubs to which the same is done stay alike, however the failures inside are worded. Main
statement: along two such runs every response is the same, in its head and in the bytes of its
body.
-/

namespace LongPollTunnel

/-! ## What is done from outside -/

/-- The connector makes the same tunnel, or none. -/
inductive Request.AlikeConnections : Except Failure Nat → Except Failure Nat → Prop where
  | ok (number : Nat) : AlikeConnections (.ok number) (.ok number)
  | error (f f' : Failure) : AlikeConnections (.error f) (.error f')

structure Request.Alike (r r' : Request) : Prop where
  query : r.query = r'.query
  connection : AlikeConnections r.connection r'.connection
  upload : r.upload.Alike r'.upload
  hold : r.hold = r'.hold

inductive CallAction.Alike : CallAction → CallAction → Prop where
  | same (action : CallAction) : Alike action action
  | request {r r' : Request} (hrequest : r.Alike r') : Alike (.request r) (.request r')
  | upload {parts parts' : List BodyPart} (hparts : List.Forall₂ BodyPart.Alike parts parts')
      (last : Bool) : Alike (.upload parts last) (.upload parts' last)

inductive Action.Alike : Action → Action → Prop where
  | same (action : Action) : Alike action action
  | open (identity : Identity) (idleTimeout : Option Nat) {manner manner' : Sink.Manner}
      (hmanner : manner.Alike manner') {arrivals arrivals' : List Arrival}
      (harrivals : List.Forall₂ Arrival.Alike arrivals arrivals') :
      Alike (.open identity idleTimeout manner arrivals)
        (.open identity idleTimeout manner' arrivals')
  | feed (number : Nat) {arrivals arrivals' : List Arrival}
      (harrivals : List.Forall₂ Arrival.Alike arrivals arrivals') :
      Alike (.feed number arrivals) (.feed number arrivals')
  | setManner (number : Nat) {manner manner' : Sink.Manner} (hmanner : manner.Alike manner') :
      Alike (.setManner number manner) (.setManner number manner')
  | call (name : String) {action action' : CallAction} (haction : action.Alike action') :
      Alike (.call name action) (.call name action')

/-- The moves are the same, but for how failures are worded: what a source, a sink and a request
body say of an error, and what the connector says if it makes no tunnel. -/
inductive Move.Alike : Move → Move → Prop where
  | act {action action' : Action} (haction : action.Alike action') :
      Alike (.act action) (.act action')
  | go (agent : Agent) : Alike (.go agent) (.go agent)
  | takeNews : Alike .takeNews .takeNews

theorem BodyPart.alike_refl (part : BodyPart) : part.Alike part := by
  cases part with
  | chunk bytes => exact .chunk bytes
  | broken fault => exact .broken fault fault

theorem Upload.alike_refl (u : Upload) : u.Alike u :=
  ⟨List.forall₂_same.mpr fun part _ => part.alike_refl, rfl⟩

theorem Request.alike_refl (r : Request) : r.Alike r := by
  refine ⟨rfl, ?_, r.upload.alike_refl, rfl⟩
  cases r.connection with
  | error failure => exact .error failure failure
  | ok number => exact .ok number

theorem CallAction.Alike.startsTask {action action' : CallAction} (halike : action.Alike action') :
    action.startsTask = action'.startsTask := by
  cases halike <;> rfl

theorem CallAction.Alike.isRequest {action action' : CallAction} (halike : action.Alike action') :
    action.isRequest = action'.isRequest := by
  cases halike <;> rfl

/-- What a call has to say against an action does not depend on any wording. -/
theorem Call.Alike.objection? {c c' : Call} (hc : c.Alike c') {action action' : CallAction}
    (haction : action.Alike action') : c.objection? action = c'.objection? action' := by
  unfold Call.objection?
  rw [haction.startsTask, haction.isRequest, hc.hasRequested, hc.isBusy]

namespace Hub

variable {h h' : Hub} {c c' : Call}

/-- A call that holds no seat is refused in both hubs. -/
theorem Alike.withHeld (halike : h.Alike h') (hold : Option Hold)
    {use use' : Nat → Tunnel → Result × Hub}
    (huse : ∀ number t t', t.Alike t' → (use number t).2.Alike (use' number t').2) :
    (h.withHeld hold use).2.Alike (h'.withHeld hold use').2 := by
  unfold Hub.withHeld
  cases hold with
  | none => exact halike
  | some hold =>
      have ht := rel_getElem? halike.tunnels hold.tunnel
      dsimp only
      generalize h.tunnels[hold.tunnel]? = t, h'.tunnels[hold.tunnel]? = t' at ht
      cases ht with
      | none => exact halike
      | some ht => exact huse _ _ _ ht

theorem Alike.startAcquire (halike : h.Alike h') (i : Nat) (hc : c.Alike c') (number : Nat)
    (role : Role) :
    (h.startAcquire i c number role).2.Alike (h'.startAcquire i c' number role).2 := by
  have ht := rel_getElem? halike.tunnels number
  unfold Hub.startAcquire
  generalize h.tunnels[number]? = t, h'.tunnels[number]? = t' at ht
  cases ht with
  | none => exact halike
  | @some t t' ht =>
      dsimp only
      rw [t.fst_draw, t'.fst_draw, ← ht.seat role]
      exact (halike.setTunnel number (ht.draw role)).setCall i (hc.assign rfl)

theorem Alike.startClose (halike : h.Alike h') (i : Nat) (hc : c.Alike c') (number : Nat) :
    (h.startClose i c number).2.Alike (h'.startClose i c' number).2 := by
  have ht := rel_getElem? halike.tunnels number
  unfold Hub.startClose
  generalize h.tunnels[number]? = t, h'.tunnels[number]? = t' at ht
  cases ht with
  | none => exact halike
  | @some t t' ht =>
      have hclose := ht.close
      dsimp only
      generalize t.close = closing, t'.close = closing' at hclose
      cases hclose with
      | done hresult hafter =>
          exact (halike.setTunnel number hafter).setCall i
            (hc.tell (Event.alike_ofResult hresult))
      | waiting ticket hafter => exact (halike.setTunnel number hafter).setCall i (hc.assign rfl)

/-- A sweep begins the same in both hubs. -/
theorem Alike.startSweep (halike : h.Alike h') (i : Nat) (hc : c.Alike c') (timeout : Nat) :
    (h.startSweep i c timeout).2.Alike (h'.startSweep i c' timeout).2 := by
  obtain ⟨hprogress, hregistry, htunnels⟩ :=
    Sweep.alike_start halike.registry halike.now timeout halike.tunnels
  exact ((halike.withTunnels htunnels).withRegistry hregistry).keepSweep i hc hprogress

theorem Alike.startSweeper (halike : h.Alike h') (i : Nat) (hc : c.Alike c')
    (interval timeout : Nat) :
    (h.startSweeper i c interval timeout).2.Alike (h'.startSweeper i c' interval timeout).2 := by
  unfold Hub.startSweeper
  split
  · exact halike.setCall i (hc.tell (.same _))
  · refine (halike.withSweepers ?_).setCall i (hc.assign ?_)
    · rw [halike.sweepers, halike.clock, hc.wantsNoSweeps]
    · rw [halike.sweepers]

theorem Alike.stopSweepers (halike : h.Alike h') (i : Nat) (hc : c.Alike c') :
    (h.stopSweepers i c).Alike (h'.stopSweepers i c') := by
  unfold Hub.stopSweepers
  have hwanting : Call.Alike { c with wantsNoSweeps := true } { c' with wantsNoSweeps := true } :=
    { hc with wantsNoSweeps := rfl }
  refine (halike.withSweepers ?_).setCall i hwanting
  rw [halike.sweepers]

/-- Why no tunnel was made is not told, so neither does the answer differ. -/
theorem Alike.connect (halike : h.Alike h') (i : Nat) (hc : c.Alike c') {r r' : Request}
    (hr : r.Alike r') : (h.connect i c r).Alike (h'.connect i c' r') := by
  have hconnection := hr.connection
  unfold Hub.connect
  rw [← hr.hold]
  generalize r.connection = connection, r'.connection = connection' at hconnection
  cases hconnection with
  | error f f' => exact halike.respond i hc _ rfl r.hold
  | ok number =>
      have ht := rel_getElem? halike.tunnels number
      dsimp only
      generalize h.tunnels[number]? = t, h'.tunnels[number]? = t' at ht
      cases ht with
      | none => exact halike.respond i hc _ rfl r.hold
      | some ht =>
          dsimp only
          rw [← ht.identity]
          refine (halike.withRegistry ?_).respond i hc _ rfl r.hold
          rw [halike.registry, halike.now]

/-- The same tunnel is found, and the same ticket drawn. -/
theorem Alike.enqueue (halike : h.Alike h') (i : Nat) (hc : c.Alike c') {r r' : Request}
    (hr : r.Alike r') (identity : String) (role : Role) (handling : Nat → Handling) :
    (h.enqueue i c r identity role handling).Alike
      (h'.enqueue i c' r' identity role handling) := by
  have hget : h.registry.get identity h.now = h'.registry.get identity h'.now := by
    rw [halike.registry, halike.now]
  unfold Hub.enqueue
  rw [← hget, ← hr.hold]
  dsimp only
  cases (h.registry.get identity h.now).1 with
  | none => exact halike.respond i hc _ rfl r.hold
  | some number =>
      have ht := rel_getElem? halike.tunnels number
      dsimp only
      generalize h.tunnels[number]? = t, h'.tunnels[number]? = t' at ht
      cases ht with
      | none => exact halike.respond i hc _ rfl r.hold
      | @some t t' ht =>
          dsimp only
          rw [t.fst_draw, t'.fst_draw, ← ht.seat role]
          exact ((halike.withRegistry rfl).setTunnel number (ht.draw role)).setCall i (hc.assign rfl)

/-- A request is read the same in both hubs: its query is a client's, and the same. -/
theorem Alike.startRequest (halike : h.Alike h') (i : Nat) (hc : c.Alike c') {r r' : Request}
    (hr : r.Alike r') : (h.startRequest i c r).Alike (h'.startRequest i c' r') := by
  have hasking : (c.asking r).Alike (c'.asking r') :=
    { hc with hasRequested := rfl, upload := hr.upload }
  unfold Hub.startRequest
  rw [← hr.query]
  dsimp only
  cases Operation.ofQuery r.query with
  | error failure =>
      dsimp only
      rw [← hr.hold]
      exact halike.respond i hasking _ rfl r.hold
  | ok operation =>
      cases operation with
      | connect => exact halike.connect i hasking hr
      | read identity => exact halike.enqueue i hasking hr identity .reader _
      | write identity => exact halike.enqueue i hasking hr identity .writer _

theorem Alike.abortTask (halike : h.Alike h') (i : Nat) (hc : c.Alike c') :
    (h.abortTask i c).Alike (h'.abortTask i c') := by
  have htask := hc.task
  unfold Hub.abortTask
  refine Alike.setCall ?_ i (hc.withTask .none)
  generalize c.task = task, c'.task = task' at htask
  cases htask with
  | none => exact halike
  | some htask => exact halike.abandon htask

theorem Alike.releaseAll (halike : h.Alike h') (i : Nat) (hc : c.Alike c') :
    (h.releaseAll i c).Alike (h'.releaseAll i c') := by
  unfold Hub.releaseAll
  rw [← hc.readerHold, ← hc.writerHold]
  exact (((halike.abortTask i hc).leave? .reader _).leave? .writer _).setCall i
    { hc with task := .none, readerHold := rfl, writerHold := rfl }

/-- A client goes away in both hubs. -/
theorem Alike.dropClient (halike : h.Alike h') (i : Nat) (hc : c.Alike c') :
    (h.dropClient i c).Alike (h'.dropClient i c') := by
  have haborted := halike.abortTask i hc
  unfold Hub.dropClient
  rw [← hc.body]
  refine Alike.setCall ?_ i { hc with task := .none, body := rfl }
  cases c.body with
  | none => exact haborted
  | some body => exact haborted.dropBody body

/-- The step lemma for what a user does through a call, one case per action. -/
theorem Alike.applyCall (halike : h.Alike h') (i : Nat) (hc : c.Alike c')
    {action action' : CallAction} (haction : action.Alike action') :
    (h.applyCall i c action).2.Alike (h'.applyCall i c' action').2 := by
  have hupload {parts parts' : List BodyPart} (hparts : List.Forall₂ BodyPart.Alike parts parts')
      (last : Bool) :
      (h.applyCall i c (.upload parts last)).2.Alike
        (h'.applyCall i c' (.upload parts' last)).2 := by
    simp only [Hub.applyCall]
    rw [← hc.upload.isOpen]
    split
    · exact halike.setCall i
        { hc with upload := ⟨List.rel_append hc.upload.parts hparts, rfl⟩ }
    · exact halike
  cases haction with
  | request hr => exact halike.startRequest i hc hr
  | upload hparts last => exact hupload hparts last
  | same =>
      cases action with
      | acquire number role => exact halike.startAcquire i hc number role
      | readSome =>
          simp only [Hub.applyCall]
          rw [← hc.readerHold]
          refine halike.withHeld _ fun number t t' ht => halike.setCall i (hc.withTask ?_)
          rw [Stream.deadline, Stream.deadline, halike.clock, ht.reader.idleTimeout]
          exact .some (.same _)
      | readInstruction =>
          simp only [Hub.applyCall]
          rw [← hc.readerHold]
          exact halike.withHeld _ fun number t t' ht => halike.setCall i (hc.assign rfl)
      | available =>
          simp only [Hub.applyCall]
          rw [← hc.readerHold]
          refine halike.withHeld _ fun number t t' ht => ?_
          obtain ⟨hanswer, hafter⟩ := ht.available
          rw [hanswer]
          exact (halike.setTunnel number hafter).setCall i (hc.tell (.same _))
      | writeAll bytes =>
          simp only [Hub.applyCall]
          rw [← hc.writerHold]
          exact halike.withHeld _ fun number t t' ht => halike.setCall i (hc.assign rfl)
      | writeInstruction instruction =>
          simp only [Hub.applyCall]
          rw [← hc.writerHold]
          exact halike.withHeld _ fun number t t' ht => halike.setCall i (hc.assign rfl)
      | flush =>
          simp only [Hub.applyCall]
          rw [← hc.writerHold]
          exact halike.withHeld _ fun number t t' ht => halike.setCall i (hc.assign rfl)
      | shutdown =>
          simp only [Hub.applyCall]
          rw [← hc.writerHold]
          exact halike.withHeld _ fun number t t' ht => halike.setCall i (hc.assign rfl)
      | close number => exact halike.startClose i hc number
      | sweep timeout => exact halike.startSweep i hc timeout
      | keepSweeping interval timeout => exact halike.startSweeper i hc interval timeout
      | stopSweeping => exact halike.stopSweepers i hc
      | request r => exact halike.startRequest i hc r.alike_refl
      | upload parts last =>
          exact hupload (List.forall₂_same.mpr fun part _ => part.alike_refl) last
      | pull =>
          simp only [Hub.applyCall]
          rw [← hc.body]
          split
          · exact halike.setCall i (hc.assign rfl)
          · exact halike
      | abort => exact halike.abortTask i hc
      | release => exact halike.releaseAll i hc
      | drop => exact halike.dropClient i hc

/-- Calls that are alike go by the same names. -/
theorem Alike.callNumber? (halike : h.Alike h') (name : String) :
    h.callNumber? name = h'.callNumber? name := by
  have hnames : h.calls.map (·.name) = h'.calls.map (·.name) := by
    rw [← List.forall₂_eq_eq_eq, List.forall₂_map_left_iff, List.forall₂_map_right_iff]
    exact halike.calls.imp fun _ _ hc => hc.name
  have hfind (calls : List Call) : calls.findIdx? (·.name = name) =
      (calls.map (·.name)).findIdx? (· = name) := by
    rw [List.findIdx?_map]
    rfl
  rw [Hub.callNumber?, Hub.callNumber?, hfind, hfind, hnames]

theorem alike_new (name : String) : Call.Alike { name } { name } where
  name := rfl
  task := .none
  readerHold := rfl
  writerHold := rfl
  hasRequested := rfl
  upload := Upload.alike_refl _
  body := rfl
  wantsNoSweeps := rfl
  events := .nil

/-- The call is found or made at the same place. -/
theorem Alike.withCall (halike : h.Alike h') (name : String) :
    (h.withCall name).1 = (h'.withCall name).1 ∧
      (h.withCall name).2.Alike (h'.withCall name).2 := by
  unfold Hub.withCall
  rw [← halike.callNumber? name]
  cases h.callNumber? name with
  | some i => exact ⟨rfl, halike⟩
  | none =>
      exact ⟨halike.calls.length_eq,
        { halike with calls := List.rel_append halike.calls (.cons (alike_new name) .nil) }⟩

theorem Alike.call (halike : h.Alike h') (name : String) {action action' : CallAction}
    (haction : action.Alike action') :
    (h.apply (.call name action)).2.Alike (h'.apply (.call name action')).2 := by
  obtain ⟨hnumber, hcalled⟩ := halike.withCall name
  unfold Hub.apply
  dsimp only
  rw [← hnumber]
  have hc := rel_getElem? hcalled.calls (h.withCall name).1
  generalize (h.withCall name).2.calls[(h.withCall name).1]? = c,
    (h'.withCall name).2.calls[(h.withCall name).1]? = c' at hc
  cases hc with
  | none => exact hcalled
  | some hc =>
      dsimp only
      rw [← hc.objection? haction]
      split
      · exact hcalled
      · exact hcalled.applyCall _ hc haction

theorem Alike.open (halike : h.Alike h') (identity : Identity) (idleTimeout : Option Nat)
    {manner manner' : Sink.Manner} (hmanner : manner.Alike manner')
    {arrivals arrivals' : List Arrival} (harrivals : List.Forall₂ Arrival.Alike arrivals arrivals') :
    (h.apply (.open identity idleTimeout manner arrivals)).2.Alike
      (h'.apply (.open identity idleTimeout manner' arrivals')).2 := by
  have hempty : Reader.Alike { idleTimeout } { idleTimeout } :=
    ⟨.nil, rfl, rfl, rfl, .none, rfl⟩
  exact halike.withTunnels (List.rel_append halike.tunnels
    (.cons ⟨rfl, hempty.feed harrivals, ⟨hmanner, rfl, rfl, rfl⟩, rfl, rfl, rfl, rfl⟩ .nil))

/-- Sources that bring alike things stay alike. -/
theorem Alike.feed (halike : h.Alike h') (number : Nat) {arrivals arrivals' : List Arrival}
    (harrivals : List.Forall₂ Arrival.Alike arrivals arrivals') :
    (h.apply (.feed number arrivals)).2.Alike (h'.apply (.feed number arrivals')).2 :=
  halike.withTunnels (rel_modify halike.tunnels number fun _ _ ht =>
    ht.withReader (ht.reader.feed harrivals))

/-- Sinks whose manners are alike stay alike. -/
theorem Alike.setManner (halike : h.Alike h') (number : Nat) {manner manner' : Sink.Manner}
    (hmanner : manner.Alike manner') :
    (h.apply (.setManner number manner)).2.Alike (h'.apply (.setManner number manner')).2 :=
  halike.withTunnels (rel_modify halike.tunnels number fun _ _ ht =>
    ht.withSink { ht.sink with manner := hmanner })

/-- The same done to alike hubs leaves alike hubs. -/
theorem Alike.apply (halike : h.Alike h') {action action' : Action}
    (haction : action.Alike action') : (h.apply action).2.Alike (h'.apply action').2 := by
  cases haction with
  | «open» identity idleTimeout hmanner harrivals =>
      exact halike.open identity idleTimeout hmanner harrivals
  | feed number harrivals => exact halike.feed number harrivals
  | setManner number hmanner => exact halike.setManner number hmanner
  | call name haction => exact halike.call name haction
  | same =>
      cases action with
      | «open» identity idleTimeout manner arrivals =>
          exact halike.open identity idleTimeout manner.alike_refl
            (List.forall₂_same.mpr fun a _ => a.alike_refl)
      | feed number arrivals =>
          exact halike.feed number (List.forall₂_same.mpr fun a _ => a.alike_refl)
      | setManner number manner => exact halike.setManner number manner.alike_refl
      | describe number shownAs =>
          simp only [Hub.apply]
          split <;> split <;> exact halike
      | put identity number =>
          simp only [Hub.apply]
          rw [← halike.tunnels.length_eq]
          split
          · refine halike.withRegistry ?_
            rw [halike.registry, halike.now]
          · exact halike
      | get identity =>
          refine halike.withRegistry ?_
          rw [halike.registry, halike.now]
      | remove identity =>
          refine halike.withRegistry ?_
          rw [halike.registry]
      | advance time =>
          exact { halike with
            clock := congrArg (· + time) halike.clock, now := congrArg (· + time) halike.now }
      | call name action => exact halike.call name (.same action)

/-- News are taken from all calls. -/
theorem Alike.withoutNews (halike : h.Alike h') : h.withoutNews.Alike h'.withoutNews := by
  refine { halike with calls := ?_ }
  refine List.rel_map (fun _ _ hc => ?_) halike.calls
  exact { hc with events := .nil }

/-- Alike hubs can make alike moves, and stay alike. -/
theorem Alike.after? (halike : h.Alike h') {move move' : Move} (hmove : move.Alike move') :
    Option.Rel Hub.Alike (h.after? move) (h'.after? move') := by
  cases hmove with
  | act haction => exact .some (halike.apply haction)
  | go agent => exact halike.resume agent
  | takeNews => exact .some halike.withoutNews

/-! ## Runs -/

namespace Record

/-- The records are of alike moves between alike hubs. -/
structure Alike (r r' : Record) : Prop where
  before : r.before.Alike r'.before
  move : r.move.Alike r'.move
  after : r.after.Alike r'.after

end Record

theorem forall₂_snoc {α β : Type} {R : α → β → Prop} {l : List α} {l' : List β} {a : α} {b : β}
    (hrel : List.Forall₂ R (l ++ [a]) (l' ++ [b])) : List.Forall₂ R l l' ∧ R a b := by
  rw [← List.forall₂_reverse_iff, List.reverse_append, List.reverse_append] at hrel
  cases hrel with
  | cons hlast hrest => exact ⟨List.forall₂_reverse_iff.mp hrest, hlast⟩

variable {start start' : Hub} {log log' : List Record}

/-- Runs from alike hubs with alike moves are alike. -/
theorem Run.alike (hrun : Run start log h) (hrun' : Run start' log' h')
    (hstart : start.Alike start')
    (hmoves : List.Forall₂ Move.Alike (log.map (·.move)) (log'.map (·.move))) :
    List.Forall₂ Record.Alike log log' ∧ h.Alike h' := by
  induction hrun generalizing log' h' with
  | nil =>
      cases hrun' with
      | nil => exact ⟨.nil, hstart⟩
      | snoc => simp at hmoves
  | @snoc log h next move hrun hmove ih =>
      cases hrun' with
      | nil => simp at hmoves
      | @snoc log' h' next' move' hrun' hmove' =>
          rw [List.map_append, List.map_append] at hmoves
          obtain ⟨hbefore, hlast⟩ := forall₂_snoc hmoves
          obtain ⟨hlogs, hhubs⟩ := ih hrun' hbefore
          have hnext := hhubs.after? hlast
          rw [hmove, hmove'] at hnext
          cases hnext with
          | some hafter =>
              exact ⟨List.rel_append hlogs (.cons ⟨hhubs, hlast, hafter⟩ .nil), hafter⟩

/-- What is done in a run can be done to an alike hub, too. -/
theorem Run.exists_alike (hrun : Run start log h) (hstart : start.Alike start')
    {moves : List Move} (hmoves : List.Forall₂ Move.Alike (log.map (·.move)) moves) :
    ∃ log' h', Run start' log' h' ∧ log'.map (·.move) = moves ∧ h.Alike h' := by
  induction hrun generalizing moves with
  | nil =>
      cases hmoves
      exact ⟨[], start', .nil, rfl, hstart⟩
  | @snoc log h next move hrun hmove ih =>
      induction moves using List.reverseRecOn with
      | nil => simp at hmoves
      | append_singleton moves move' =>
          rw [List.map_append] at hmoves
          obtain ⟨hbefore, hlast⟩ := forall₂_snoc hmoves
          obtain ⟨log', h', hrun', rfl, hhubs⟩ := ih hbefore
          have hnext := hhubs.after? hlast
          rw [hmove] at hnext
          generalize hmove' : h'.after? move' = next' at hnext
          cases hnext with
          | some hafter =>
              exact ⟨_, _, hrun'.snoc hmove', by rw [List.map_append]; rfl, hafter⟩

/-! ## Responses -/

end Hub

/-- The client of a request gets to know this: it is a part of the response. -/
def Event.isOfResponse : Event → Bool
  | .head _ | .chunk _ | .finished => true
  | .acquired | .batch _ | .instruction _ | .available _ | .succeeded | .failed _ | .swept _
  | .stopped | .notStarted => false

/-- News of a response are the same: heads, chunks and ends have no wording of their own. -/
theorem Event.filter_eq_of_alike {events events' : List Event}
    (halike : List.Forall₂ Event.Alike events events') :
    events.filter isOfResponse = events'.filter isOfResponse := by
  induction halike with
  | nil => rfl
  | cons hevent _ ih =>
      cases hevent with
      | same event => rw [List.filter_cons, List.filter_cons, ih]
      | failed hfailure => exact ih

namespace Hub

/-- What the client of the call with number `i` gets of its response in this move. -/
def Record.response (r : Record) (i : Nat) : List Event :=
  ((r.after.eventsAt i).drop (r.before.eventsAt i).length).filter Event.isOfResponse

/-- In both moves every client gets the same of its response, the responses have the same bodies
then, and the same was written to those that are streamed. -/
structure Record.RespondsAs (r r' : Record) : Prop where
  response : ∀ i, r.response i = r'.response i
  body : r.after.calls.map (·.body) = r'.after.calls.map (·.body)
  outlet : r.after.streams.map (·.outlet) = r'.after.streams.map (·.outlet)

variable {start start' h h' : Hub} {log : List Record}

/-- A call is told alike things in both hubs. -/
theorem Alike.eventsAt (halike : h.Alike h') (i : Nat) :
    List.Forall₂ Event.Alike (h.eventsAt i) (h'.eventsAt i) := by
  have hc := rel_getElem? halike.calls i
  unfold Hub.eventsAt
  generalize h.calls[i]? = c, h'.calls[i]? = c' at hc
  cases hc with
  | none => exact .nil
  | some hc => exact hc.events

theorem map_eq_of_forall₂ {α β : Type} {R : α → α → Prop} {f : α → β}
    (hsame : ∀ a b, R a b → f a = f b) {l l' : List α} (hrel : List.Forall₂ R l l') :
    l.map f = l'.map f := by
  rw [← List.forall₂_eq_eq_eq, List.forall₂_map_left_iff, List.forall₂_map_right_iff]
  exact hrel.imp hsame

/-- Records that are alike show the same responses. -/
theorem Record.Alike.respondsAs {r r' : Record} (halike : r.Alike r') : r.RespondsAs r' where
  response i := by
    have hafter := halike.after.eventsAt i
    unfold Record.response
    rw [(halike.before.eventsAt i).length_eq]
    exact Event.filter_eq_of_alike (List.forall₂_drop _ hafter)
  body := map_eq_of_forall₂ (fun _ _ hc => hc.body) halike.after.calls
  outlet := map_eq_of_forall₂ (fun _ _ hs => hs.outlet) halike.after.streams

/-- What is done in a run can be done with every other wording of the failures inside, and each
time every response is the same, move by move: its head, the bytes of its body, and its end. -/
theorem responses_do_not_tell (hrun : Run start log h) (hstart : start.Alike start')
    {moves : List Move} (hmoves : List.Forall₂ Move.Alike (log.map (·.move)) moves) :
    (∃ log' h', Run start' log' h' ∧ log'.map (·.move) = moves) ∧
      ∀ log' h', Run start' log' h' → log'.map (·.move) = moves →
        List.Forall₂ Record.RespondsAs log log' := by
  constructor
  · obtain ⟨log', h', hrun', hmoves', _⟩ := hrun.exists_alike hstart hmoves
    exact ⟨log', h', hrun', hmoves'⟩
  · intro log' h' hrun' hmoves'
    rw [← hmoves'] at hmoves
    exact (hrun.alike hrun' hstart hmoves).1.imp fun _ _ halike => halike.respondsAs

/-- A sink that breaks after two bytes, and again when it is shut down. -/
def breakingSink (reason : String) : Sink.Manner where
  errorAt := some 2
  errorText := reason
  shutdownError := some reason

/-- A request whose connector makes no tunnel, for the given failure. -/
def unconnected (query : String) (parts : List BodyPart) (failure : Failure) : Request where
  query := query
  connection := .error failure
  upload := { parts }

/-- A connector, a sink, a source and a body fail. -/
def failingInside (failure : Failure) (fault : BodyFault) : List Move :=
  let toFirst : String := Operation.writePrefix ++ (Identity.random 0).text
  let fromSecond : String := Operation.readPrefix ++ (Identity.random 1).text
  let toSecond : String := Operation.writePrefix ++ (Identity.random 1).text
  [.act (.open (Identity.random 0) none (breakingSink failure.message) []),
    .act (.open (Identity.random 1) none {} [.data (Utf8.ofString "3.nop;"), .fail failure.message]),
    .act (.put (Identity.random 0).text 0), .act (.put (Identity.random 1).text 1),
    .act (.call "connects" (.request (unconnected Operation.connectQuery [] failure))),
    .act (.call "writes" (.request
      (unconnected toFirst [.chunk (Utf8.ofString "3.nop;")] failure))),
    .act (.call "reads" (.request (unconnected fromSecond [] failure))),
    .act (.call "breaks" (.request (unconnected toSecond [.broken fault] failure))),
    .go (.call 1), .go (.call 1), .go (.call 2), .go (.stream 0), .go (.stream 0),
    .go (.stream 0), .go (.call 3), .go (.call 3), .go (.call 2)]

theorem alike_breakingSink (reason reason' : String) :
    (breakingSink reason).Alike (breakingSink reason') :=
  ⟨rfl, rfl, rfl, rfl, rfl, rfl, rfl, rfl, rfl⟩

theorem alike_unconnected (query : String) {parts parts' : List BodyPart}
    (hparts : List.Forall₂ BodyPart.Alike parts parts') (f f' : Failure) :
    (unconnected query parts f).Alike (unconnected query parts' f') :=
  ⟨rfl, .error f f', ⟨hparts, rfl⟩, rfl⟩

theorem alike_failingInside (f f' : Failure) (fault fault' : BodyFault) :
    List.Forall₂ Move.Alike (failingInside f fault) (failingInside f' fault') := by
  have hask (name query : String) {parts parts' : List BodyPart}
      (hparts : List.Forall₂ BodyPart.Alike parts parts') :=
    Move.Alike.act (.call name (.request (alike_unconnected query hparts f f')))
  have hsame (action : Action) : Move.Alike (.act action) (.act action) := .act (.same action)
  refine .cons (.act (.open _ _ (alike_breakingSink _ _) .nil)) ?_
  refine .cons (.act (.open _ _ (Sink.Manner.alike_refl _)
    (.cons (.data _) (.cons (.fail _ _) .nil)))) ?_
  refine .cons (hsame _) (.cons (hsame _) ?_)
  refine .cons (hask _ _ .nil) (.cons (hask _ _ (.cons (.chunk _) .nil)) ?_)
  refine .cons (hask _ _ .nil) (.cons (hask _ _ (.cons (.broken _ _) .nil)) ?_)
  refine .cons (.go _) (.cons (.go _) (.cons (.go _) (.cons (.go _) (.cons (.go _) ?_))))
  exact .cons (.go _) (.cons (.go _) (.cons (.go _) (.cons (.go _) .nil)))

/-- The statuses that the clients are answered with, and what the one that reads is told. -/
theorem responses_do_not_tell_what_failed :
    let first := (({} : Hub).replay (failingInside ⟨.server, "no space left"⟩ .overflow)).1
    let second := (({} : Hub).replay (failingInside ⟨.client, "not a socket"⟩ .incomplete)).1
    List.Forall₂ Record.RespondsAs first second ∧
      ([0, 1, 2, 3].map fun i =>
        ((first.flatMap (·.response i)).filterMap Event.head?).map (·.status)) =
        [[404], [500], [200], [500]] := by
  intro first second
  have hfirst : first.map (·.move) = failingInside ⟨.server, "no space left"⟩ .overflow :=
    map_move_replay (by decide)
  have hsecond : second.map (·.move) = failingInside ⟨.client, "not a socket"⟩ .incomplete :=
    map_move_replay (by decide)
  have hempty : Hub.Alike {} {} := ⟨rfl, rfl, rfl, .nil, .nil, rfl, .nil⟩
  have hmoves : List.Forall₂ Move.Alike (first.map (·.move))
      (failingInside ⟨.client, "not a socket"⟩ .incomplete) := by
    rw [hfirst]
    exact alike_failingInside _ _ _ _
  obtain ⟨_, hresponds⟩ := responses_do_not_tell (run_replay {} _) hempty hmoves
  exact ⟨hresponds _ _ (run_replay {} _) hsecond, by decide⟩

end Hub

end LongPollTunnel
