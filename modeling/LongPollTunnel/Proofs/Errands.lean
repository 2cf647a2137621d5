import LongPollTunnel.Proofs.Histories
import LongPollTunnel.Proofs.Holders

/-! # The request of a call

A call makes one request. Its client may send more of the body later, and the request is
handled until it is answered or dropped. Main statement: what a move does to the request of
a call, if it is not a step of its handling.
-/

namespace LongPollTunnel

/-- The number of the tunnel that a request is for, and how far its handling got. -/
def Task.handling? : Task → Option (Nat × Handling)
  | .handle number handling _ => some (number, handling)
  | .acquire _ _ | .readSome _ _ | .readInstruction _ | .write _ _ _ | .flush _ | .shutdown _
  | .close _ | .sweep _ | .watch _ | .readBody _ => none

/-- What a call has to do with its request. -/
structure Errand where
  hasRequested : Bool := false
  upload : Upload := {}
  handling : Option (Nat × Handling) := none

def Call.errand (c : Call) : Errand :=
  ⟨c.hasRequested, c.upload, c.task.bind Task.handling?⟩

/-- What becomes of an errand besides its handling, and what its client sends. -/
inductive Errand.Later (e : Errand) : (sent : List BodyPart) → Errand → Prop where
  | stays : Later e [] e
  | asks (r : Request) {handling : Option (Nat × Handling)} (hfirst : e.hasRequested = false)
      (hwaits : ∀ number handling', handling = some (number, handling') →
        ∃ ticket, handling' = .awaitReader ticket ∨ handling' = .awaitWriter ticket) :
      Later e r.upload.parts ⟨true, r.upload, handling⟩
  | sends (parts : List BodyPart) (last : Bool) (hopen : e.upload.isOpen = true) :
      Later e parts { e with upload := { parts := e.upload.parts ++ parts, isOpen := !last } }
  | drops : Later e [] { e with handling := none }

/-- What the client of a call sends with an action to which the call has no objection. -/
def Call.sentBy (c : Call) : CallAction → List BodyPart
  | .request r => r.upload.parts
  | .upload parts _ => if c.upload.isOpen then parts else []
  | .acquire _ _ | .readSome | .readInstruction | .available | .writeAll _ | .writeInstruction _
  | .flush | .shutdown | .close _ | .sweep _ | .keepSweeping _ _ | .stopSweeping | .pull | .abort
  | .release | .drop => []

/-- The action makes a request, sends more of it or drops it. -/
def CallAction.isErrand : CallAction → Bool
  | .request _ | .upload _ _ | .abort | .release | .drop => true
  | .acquire _ _ | .readSome | .readInstruction | .available | .writeAll _ | .writeInstruction _
  | .flush | .shutdown | .close _ | .sweep _ | .keepSweeping _ _ | .stopSweeping | .pull => false

/-- A quiet step has nothing to do with the request. -/
theorem Call.Quiet.errand_eq {c after : Call} (hquiet : c.Quiet after) :
    after.errand = c.errand := by
  have hfree {c : Call} (hclaim : c.taskClaim? = none) : c.task.bind Task.handling? = none := by
    unfold Call.taskClaim? at hclaim
    cases htask : c.task with
    | none => rfl
    | some task =>
        rw [htask] at hclaim
        cases task <;> first | rfl | cases hclaim
  unfold Call.errand
  rw [hquiet.hasRequested, hquiet.upload]
  rcases hquiet.task with hsame | ⟨hbefore, hafter⟩
  · rw [hsame]
  · rw [hfree hbefore, hfree hafter]

namespace Hub

variable {h next : Hub} {i j : Nat} {c after : Call}

/-- The errand of the call with a number; a call that there is not yet has none to do. -/
def errand (h : Hub) (i : Nat) : Errand :=
  (h.calls[i]?.map Call.errand).getD {}

/-- What the client of the call with a number sends in a move. -/
def sentBy (h : Hub) (move : Move) (i : Nat) : List BodyPart :=
  match move with
  | .act (.call name action) =>
    if (h.withCall name).1 = i then
      match (h.withCall name).2.calls[i]? with
      | some c => if (c.objection? action).isNone then c.sentBy action else []
      | none => []
    else []
  | .act _ | .go _ | .takeNews => []

theorem errand_of_call (hc : h.calls[i]? = some c) : h.errand i = c.errand := by
  simp [errand, hc]

theorem errand_of_calls_eq (heq : next.calls = h.calls) (i : Nat) : next.errand i = h.errand i := by
  unfold errand
  rw [heq]

theorem errand_of_set (hc : h.calls[i]? = some c) (heq : next.calls = h.calls.set i after) :
    next.errand i = after.errand := by
  refine errand_of_call ?_
  rw [heq]
  exact getElem?_set_of_getElem? hc

theorem errand_setCall {middle : Hub} (hc : h.calls[i]? = some c) (hcalls : middle.calls = h.calls)
    (after : Call) : (middle.setCall i after).errand i = after.errand := by
  rw [← hcalls] at hc
  exact errand_of_set hc rfl

/-- Another call that changes leaves the errand where it is. -/
theorem errand_of_set_ne (hne : j ≠ i) (heq : next.calls = h.calls.set j after) :
    next.errand i = h.errand i := by
  unfold errand
  rw [heq, List.getElem?_set_ne hne]

/-- A name that is new gives a new call behind the others. -/
theorem calls_withCall (h : Hub) (name : String) :
    (h.withCall name).2.calls = h.calls ∨
      ((h.withCall name).1 = h.calls.length ∧
        (h.withCall name).2.calls = h.calls ++ [({ name } : Call)]) := by
  unfold withCall
  split
  · exact Or.inl rfl
  · exact Or.inr ⟨rfl, rfl⟩

/-- A new call has no errand yet, which is also what stands for no call. -/
theorem errand_withCall (h : Hub) (name : String) (i : Nat) :
    (h.withCall name).2.errand i = h.errand i := by
  rcases h.calls_withCall name with heq | ⟨_, heq⟩
  · exact errand_of_calls_eq heq i
  · unfold errand
    rw [heq]
    by_cases hlt : i < h.calls.length
    · rw [List.getElem?_append_left hlt]
    · rw [List.getElem?_eq_none (Nat.le_of_not_lt hlt)]
      rcases hnew : (h.calls ++ [({ name } : Call)])[i]? with _ | c
      · rfl
      · rcases getElem?_append_singleton hnew with hold | ⟨_, rfl⟩
        · rw [List.getElem?_eq_none (Nat.le_of_not_lt hlt)] at hold
          cases hold
        · rfl

/-! ## Steps of a call -/

theorem calls_giveBack (h : Hub) (claims : List Claim) (awaited : Option Claim) :
    (h.giveBack claims awaited).calls = h.calls := by
  rw [giveBack_eq]

/-- A request changes the call that makes it. -/
theorem Starts.calls {r : Request} (hstarts : h.Starts i c r next) :
    ∃ after, next.calls = h.calls.set i after ∧ after.name = c.name := by
  cases hstarts <;> exact ⟨_, rfl, rfl⟩

theorem calls_abortTask (h : Hub) (i : Nat) (c : Call) :
    (h.abortTask i c).calls = h.calls.set i { c with task := none } := by
  rw [abortTask_eq]
  exact congrArg (·.set i { c with task := none }) (calls_giveBack h _ _)

theorem calls_dropClient (h : Hub) (i : Nat) (c : Call) :
    (h.dropClient i c).calls = h.calls.set i { c with task := none, body := none } := by
  have hset : (h.abortTask i c).calls.set i { c with task := none, body := none } =
      h.calls.set i { c with task := none, body := none } := by
    rw [calls_abortTask, List.set_set]
  unfold dropClient
  dsimp only
  split
  next body _ => cases body <;> exact hset
  · exact hset

/-- Who lets go of everything keeps its name and its news. -/
theorem calls_releaseAll (h : Hub) (i : Nat) (c : Call) :
    (h.releaseAll i c).calls =
      h.calls.set i { c with task := none, readerHold := none, writerHold := none } := by
  rw [releaseAll_eq]
  change (h.giveBack c.claims c.awaited?).calls.set i _ = _
  rw [calls_giveBack]

/-- Whoever comes to be served is the only call that changes. -/
theorem calls_acquired (h : Hub) (i : Nat) (c : Call) (role : Role) (new : Hold) :
    (((h.unqueue role new.tunnel).leave? role (c.hold role)).setCall i
      ((c.setHold role (some new)).finish .acquired)).calls =
      h.calls.set i ((c.setHold role (some new)).finish .acquired) := by
  rw [unqueue_leave?_eq_giveBack]
  exact congrArg (·.set i ((c.setHold role (some new)).finish .acquired)) (calls_giveBack h _ _)

theorem name_takeClosing (c : Call) (number : Nat) (closing : Tunnel.Closing) :
    (c.takeClosing number closing).name = c.name := by
  cases closing <;> rfl

theorem name_takeSweep (c : Call) (progress : Sweep.Progress) :
    (c.takeSweep progress).name = c.name := by
  cases progress <;> rfl

/-- A step of a call puts no other call back, and the call under its own name. -/
theorem CallStep.calls {cause : Option CallAction} (hstep : CallStep h i c cause next) :
    ∃ after, next.calls = h.calls.set i after ∧ after.name = c.name := by
  cases hstep with
  | quiet hquiet => exact ⟨_, rfl, hquiet.name⟩
  | use ht huse hquiet => exact ⟨_, rfl, hquiet.name⟩
  | look ht huse hquiet => exact ⟨_, rfl, hquiet.name⟩
  | take hs htake hquiet => exact ⟨_, rfl, hquiet.name⟩
  | keepSweeping hfree hquiet => exact ⟨_, rfl, hquiet.name⟩
  | @acquired role hold t htask ht hserving =>
      refine ⟨_, calls_acquired h i c role hold, ?_⟩
      cases role <;> rfl
  | close hidle ht => exact ⟨_, rfl, name_takeClosing c _ _⟩
  | closeOn htask ht => exact ⟨_, rfl, name_takeClosing c _ _⟩
  | sweep timeout hidle =>
      simp only [startSweep, keepSweep_eq]
      exact ⟨_, rfl, name_takeSweep c _⟩
  | sweepOn htask hresume =>
      rw [keepSweep_eq]
      exact ⟨_, rfl, name_takeSweep c _⟩
  | request hidle hfirst hstarts => exact hstarts.calls
  | @handle number handling hold t progress after htask ht hstep =>
      cases progress <;> exact ⟨_, rfl, rfl⟩
  | abort => exact ⟨_, calls_abortTask h i c, rfl⟩
  | release => exact ⟨_, calls_releaseAll h i c, rfl⟩
  | drop => exact ⟨_, calls_dropClient h i c, rfl⟩
  | _ => exact ⟨_, rfl, rfl⟩

/-- Whatever has nothing to do with the request of a call leaves it as it is. -/
theorem CallStep.errand_of_other {cause : Option CallAction} (hstep : CallStep h i c cause next)
    (hc : h.calls[i]? = some c) (hfree : cause = none → c.errand.handling = none)
    (hother : cause.any CallAction.isErrand = false) : next.errand i = c.errand := by
  cases hstep with
  | quiet hquiet => exact (errand_of_set hc rfl).trans hquiet.errand_eq
  | use ht huse hquiet => exact (errand_of_set hc rfl).trans hquiet.errand_eq
  | look ht huse hquiet => exact (errand_of_set hc rfl).trans hquiet.errand_eq
  | take hs htake hquiet => exact (errand_of_set hc rfl).trans hquiet.errand_eq
  | keepSweeping hfree hquiet => exact (errand_of_set hc rfl).trans hquiet.errand_eq
  | stopSweeping => exact errand_setCall hc rfl _
  | draw role hidle ht =>
      rw [errand_of_set hc rfl]
      simp [Call.errand, hidle, Task.handling?]
  | @acquired role hold t htask ht hserving =>
      rw [errand_of_set hc (calls_acquired h i c role hold)]
      cases role <;> simp [Call.errand, Call.setHold, Call.finish, Call.tell, htask, Task.handling?]
  | @close number t hidle ht =>
      rw [errand_of_set hc rfl]
      cases t.close.1 <;>
        simp [Call.errand, Call.takeClosing, Call.finish, Call.tell, hidle, Task.handling?]
  | @closeOn hold t htask ht =>
      rw [errand_of_set hc rfl]
      cases (t.resumeClose hold.ticket).1 <;>
        simp [Call.errand, Call.takeClosing, Call.finish, Call.tell, htask, Task.handling?]
  | sweep timeout hidle =>
      simp only [startSweep, keepSweep_eq]
      rw [errand_of_set hc rfl]
      cases (Sweep.start h.registry h.tunnels h.now timeout).1 <;>
        simp [Call.errand, Call.takeSweep, Call.finish, Call.tell, hidle, Task.handling?]
  | @sweepOn s progress tunnels htask hresume =>
      rw [keepSweep_eq, errand_of_set hc rfl]
      cases progress <;>
        simp [Call.errand, Call.takeSweep, Call.finish, Call.tell, htask, Task.handling?]
  | handle htask ht hstep =>
      have hnone := hfree rfl
      simp [Call.errand, htask, Task.handling?] at hnone
  | upload _ | request _ _ _ | abort | release | drop => cases hother

/-! ## What a client does -/

/-- With its answer an errand is over, and its body stays as far as it was read. -/
theorem errand_answered (c : Call) (head : Head) (body : Body) (hold : Bool) :
    (c.answered head body hold).errand = { c.errand with handling := none } := by
  cases hold <;> rfl

/-- A request is answered at once, or waits for a seat. -/
theorem Starts.later {r : Request} (hstarts : h.Starts i c r next) (hc : h.calls[i]? = some c)
    (hfirst : c.hasRequested = false) : c.errand.Later r.upload.parts (next.errand i) := by
  have hanswered (registry : Registry) (head : Head) (body : Body) :
      c.errand.Later r.upload.parts
        (({ h with registry }.respond i (c.asking r) head body r.hold).errand i) := by
    have hasks : c.errand.Later r.upload.parts ⟨true, r.upload, none⟩ := .asks r hfirst (by simp)
    rw [respond_eq, errand_of_set hc rfl, errand_answered]
    exact hasks
  cases hstarts with
  | invalid _ => exact hanswered h.registry _ _
  | uncreated _ _ => exact hanswered h.registry _ _
  | created _ _ _ => exact hanswered _ _ _
  | absent _ _ _ => exact hanswered h.registry _ _
  | @waits _ role _ number t _ _ _ _ =>
      rw [errand_of_set hc rfl]
      refine .asks r hfirst ?_
      intro other handling heq
      cases heq
      cases role
      · exact ⟨_, Or.inl rfl⟩
      · exact ⟨_, Or.inr rfl⟩

/-- What a client does to the request of its call. -/
theorem errand_applyCall (hc : h.calls[i]? = some c) {action : CallAction}
    (hobjection : c.objection? action = none) :
    (h.errand i).Later (c.sentBy action) ((h.applyCall i c action).2.errand i) := by
  rw [errand_of_call hc]
  cases herrand : action.isErrand with
  | false =>
      have hstep := callStep_applyCall hc hobjection
      rw [hstep.errand_of_other hc (fun hnone => by cases hnone) herrand]
      cases action <;> first | exact .stays | cases herrand
  | true =>
      cases action with
      | request r =>
          exact (h.starts_startRequest i c r).later hc (hasRequested_of_objection? hobjection)
      | upload parts last =>
          simp only [applyCall, Call.sentBy]
          split
          next hopen =>
            rw [errand_of_set hc rfl]
            exact .sends parts last hopen
          · rw [errand_of_call hc]
            exact .stays
      | abort =>
          simp only [applyCall]
          rw [errand_of_set hc (calls_abortTask h i c)]
          exact .drops
      | release =>
          simp only [applyCall]
          rw [errand_of_set hc (calls_releaseAll h i c)]
          exact .drops
      | drop =>
          simp only [applyCall]
          rw [errand_of_set hc (calls_dropClient h i c)]
          exact .drops
      | _ => cases herrand

/-! ## Moves -/

/-- What a move does to the request of the call with this number. -/
inductive ErrandMove (h : Hub) (i : Nat) : Move → Hub → Prop where
  | other {move : Move} {next : Hub} (hfree : move = .go (.call i) → (h.errand i).handling = none)
      (hlater : (h.errand i).Later (h.sentBy move i) (next.errand i)) : ErrandMove h i move next
  | handle {c : Call} {number : Nat} {handling : Handling} {hold : Bool} {t : Tunnel}
      {progress : Handling.Progress} {after : Handling.Surroundings} (hc : h.calls[i]? = some c)
      (htask : c.task = some (.handle number handling hold)) (ht : h.tunnels[number]? = some t)
      (hstep : handling.Step h.registry t c.upload progress after) :
      ErrandMove h i (.go (.call i)) (h.takeProgress i c number hold progress after)

theorem errandMove_of_eq {move : Move} (hother : move ≠ .go (.call i))
    (hsent : h.sentBy move i = []) (heq : next.errand i = h.errand i) :
    ErrandMove h i move next := by
  refine .other (fun hmove => absurd hmove hother) ?_
  rw [hsent, heq]
  exact .stays

/-- An errand that is handled is a task. -/
theorem task_of_handling {number : Nat} {handling : Handling}
    (hhandling : c.errand.handling = some (number, handling)) :
    ∃ hold, c.task = some (.handle number handling hold) := by
  obtain ⟨task, htask, hhandle⟩ := Option.bind_eq_some_iff.mp hhandling
  cases task with
  | handle number' handling' hold =>
      cases hhandle
      exact ⟨hold, htask⟩
  | _ => cases hhandle

/-- The step lemma for a call that goes on. -/
theorem errandMove_resumeCall (hnext : h.resumeCall j = some next) (i : Nat) :
    ErrandMove h i (.go (.call j)) next := by
  obtain ⟨c, hc, hstep⟩ := callStep_resumeCall hnext
  by_cases hself : j = i
  · subst hself
    cases hhandling : c.errand.handling with
    | none =>
        have herrand := hstep.errand_of_other hc (fun _ => hhandling) rfl
        rw [← errand_of_call hc] at hhandling herrand
        refine .other (fun _ => hhandling) ?_
        rw [herrand]
        exact .stays
    | some found =>
        obtain ⟨hold, htask⟩ := task_of_handling hhandling
        simp only [resumeCall, hc, htask, Option.bind_eq_bind, Option.bind_some] at hnext
        obtain ⟨t, progress, after, ht, hhandle, rfl⟩ := exists_of_resumeHandling hnext
        exact .handle hc htask ht hhandle
  · obtain ⟨after, hcalls, _⟩ := hstep.calls
    exact errandMove_of_eq (by simp [hself]) rfl (errand_of_set_ne hself hcalls)

/-- The step lemma for what a user does through a call. -/
theorem errandMove_applyCall (h : Hub) (name : String) (action : CallAction) (i : Nat) :
    ErrandMove h i (.act (.call name action)) (h.apply (.call name action)).2 := by
  refine .other (fun hmove => by cases hmove) ?_
  rw [← h.errand_withCall name]
  simp only [sentBy]
  unfold apply
  dsimp only
  by_cases hself : (h.withCall name).1 = i
  · rw [if_pos hself, ← hself]
    cases hc : (h.withCall name).2.calls[(h.withCall name).1]? with
    | none => exact .stays
    | some c =>
        dsimp only
        cases hobjection : c.objection? action with
        | none => exact errand_applyCall hc hobjection
        | some objection => exact .stays
  · rw [if_neg hself]
    split
    · exact .stays
    next c hc =>
      split
      · exact .stays
      next hobjection =>
        obtain ⟨after, hcalls, _⟩ := (callStep_applyCall hc hobjection).calls
        rw [errand_of_set_ne hself hcalls]
        exact .stays

theorem calls_resumeSweeper {k : Nat} (hnext : h.resumeSweeper k = some next) :
    next.calls = h.calls := by
  obtain ⟨_, _, _, _, _, _, rfl⟩ := sweeperStep_resumeSweeper hnext
  rfl

theorem calls_apply (h : Hub) {action : Action}
    (hother : ∀ name action', action ≠ .call name action') :
    (h.apply action).2.calls = h.calls := by
  cases action with
  | call name action => exact absurd rfl (hother name action)
  | put identity number =>
      unfold apply
      dsimp only
      split <;> rfl
  | describe number shownAs =>
      unfold apply
      dsimp only
      split <;> rfl
  | «open» _ _ _ _ | feed _ _ | setManner _ _ | get _ | remove _ | advance _ => rfl

theorem errand_withoutNews (h : Hub) (i : Nat) : h.withoutNews.errand i = h.errand i := by
  unfold errand withoutNews
  rw [List.getElem?_map, Option.map_map]
  rfl

/-- What any move does to the request of any call. -/
theorem errandMove_after? {move : Move} (hmove : h.after? move = some next) (i : Nat) :
    ErrandMove h i move next := by
  cases move with
  | takeNews =>
      cases hmove
      exact errandMove_of_eq (by simp) rfl (errand_withoutNews h i)
  | go agent =>
      cases agent with
      | call j => exact errandMove_resumeCall hmove i
      | stream j =>
          obtain ⟨s, s', t, after, _, _, _, rfl⟩ := streamStep_resumeStream hmove
          exact errandMove_of_eq (by simp) rfl rfl
      | sweeper k =>
          exact errandMove_of_eq (by simp) rfl (errand_of_calls_eq (calls_resumeSweeper hmove) i)
  | act action =>
      cases hmove
      cases action with
      | call name action => exact errandMove_applyCall h name action i
      | _ => exact errandMove_of_eq (by simp) rfl (errand_of_calls_eq (calls_apply h (by simp)) i)

end Hub

end LongPollTunnel
