import LongPollTunnel.Configuration
import LongPollTunnel.Proofs.Numbers
import LongPollTunnel.Proofs.Refusing

/-! # What a configuration is read from

Numbers are asked for in a fixed order, each in its own range, and the port that is given as an
argument takes the place of its variable. A sweeper that is started with the interval of a
configuration is at work until it is asked to stop. Main statement: a configuration is read exactly
if no number that is asked for is bad, and else the first bad one is reported; and how often unused
tunnels are looked for, which is never all the time.
-/

namespace LongPollTunnel

namespace Configuration

/-! ## Numbers that are asked for -/

/-- Where the text of a number comes from. -/
inductive Origin where
  | argument
  | named (name : String)
  deriving DecidableEq, Repr

/-- A number that is asked for, and the largest that it may be. -/
structure Numeral where
  origin : Origin
  limit : Nat
  deriving DecidableEq, Repr

/-- The number of the port to listen on is the argument, if there is one. -/
def portNumeral (argument : Option String) : Numeral where
  origin := if argument.isSome then .argument else .named "PORT"
  limit := Unsigned.max16

/-- The numbers in the order in which they are asked for. -/
def numerals (argument : Option String) : List Numeral :=
  [portNumeral argument, ⟨.named "ACTIX_WORKERS", Unsigned.max64⟩,
    ⟨.named "GUACD_PORT", Unsigned.max16⟩, ⟨.named "GUACD_CONNECT_TIMEOUT_SECS", Unsigned.max64⟩,
    ⟨.named "TUNNEL_IDLE_TIMEOUT_SECS", Unsigned.max64⟩,
    ⟨.named "TUNNEL_READ_TIMEOUT_MS", Unsigned.max64⟩]

section

variable (lookup : String → Option String) (argument : Option String)

/-- The text of a number, if it is given. -/
def Numeral.text? (n : Numeral) : Option String :=
  match n.origin with
  | .argument => argument
  | .named name => lookup name

/-- The number is not given, or it is one in its range. -/
def Numeral.IsGood (n : Numeral) : Prop :=
  ∀ value, n.text? lookup argument = some value →
    ∃ number ≤ n.limit, Unsigned.Denotes value.toList number

/-- How a text that is no number in its range is reported. -/
def Numeral.fault (n : Numeral) (value : String) (reason : Unsigned.Fault) : Fault :=
  match n.origin with
  | .argument => .portArgument value reason
  | .named name => .invalidNumber name value reason

/-- The number, if it is given. -/
def Numeral.read (n : Numeral) : Except Fault (Option Nat) :=
  match n.text? lookup argument with
  | none => .ok none
  | some value =>
    match Unsigned.read n.limit value.toList with
    | .ok number => .ok (some number)
    | .error reason => .error (n.fault value reason)

/-- The numbers that are asked for are good and there is an outcome, or the first bad one is
reported with its text. -/
inductive Reports {α : Type} : List Numeral → Except Fault α → Prop where
  | nothing (outcome : α) : Reports [] (.ok outcome)
  | good {n : Numeral} {later : List Numeral} {outcome : Except Fault α}
      (hgood : n.IsGood lookup argument) (hlater : Reports later outcome) :
      Reports (n :: later) outcome
  | bad {n : Numeral} {later : List Numeral} {value : String} {reason : Unsigned.Fault}
      (htext : n.text? lookup argument = some value)
      (hread : Unsigned.read n.limit value.toList = .error reason) :
      Reports (n :: later) (.error (n.fault value reason))

/-- What a text gives: nothing if there is none, and else the number that it denotes. -/
inductive Gives : Option String → Option Nat → Prop where
  | nothing : Gives none none
  | number {value : String} {number : Nat} (hdenotes : Unsigned.Denotes value.toList number) :
      Gives (some value) (some number)

/-- The configuration holds what was given, and defaults for what was not. -/
structure Holds (c : Configuration) : Prop where
  listenPort : ∃ given, Gives ((portNumeral argument).text? lookup argument) given ∧
    c.listenPort = given.getD 8080
  bindAddress : c.bindAddress = (lookup "BIND_ADDR").getD "0.0.0.0"
  workers : Gives (lookup "ACTIX_WORKERS") c.workers
  daemonHost : c.daemonHost = (lookup "GUACD_HOST").getD "127.0.0.1"
  daemonPort : ∃ given, Gives (lookup "GUACD_PORT") given ∧ c.daemonPort = given.getD 4822
  connectTimeout : ∃ given, Gives (lookup "GUACD_CONNECT_TIMEOUT_SECS") given ∧
    c.connectTimeout = given.getD 10 * 1000
  idleTimeout : ∃ given, Gives (lookup "TUNNEL_IDLE_TIMEOUT_SECS") given ∧
    c.idleTimeout = given.map (· * 1000)
  readTimeout : Gives (lookup "TUNNEL_READ_TIMEOUT_MS") c.readTimeout
  tunnelPath : c.tunnelPath = (lookup "TUNNEL_PATH").getD "/tunnel"

end

variable {lookup : String → Option String} {argument : Option String} {n : Numeral}
  {given : Option Nat}

/-- What is read of a number. -/
theorem Numeral.gives_of_read (hread : n.read lookup argument = .ok given) :
    Gives (n.text? lookup argument) given := by
  unfold Numeral.read at hread
  split at hread
  next htext =>
    cases hread
    rw [htext]
    exact .nothing
  next value htext =>
    rw [htext]
    split at hread
    next number hnumber =>
      cases hread
      exact .number (Unsigned.read_eq_ok_iff.mp hnumber).1
    · cases hread

theorem Numeral.isGood_of_read (hread : n.read lookup argument = .ok given) :
    n.IsGood lookup argument := by
  intro value htext
  simp only [Numeral.read, htext] at hread
  split at hread
  next number hnumber =>
    obtain ⟨hdenotes, hlimit⟩ := Unsigned.read_eq_ok_iff.mp hnumber
    exact ⟨number, hlimit, hdenotes⟩
  · cases hread

theorem Numeral.exists_of_read_error {fault : Fault}
    (hread : n.read lookup argument = .error fault) :
    ∃ value reason, n.text? lookup argument = some value ∧
      Unsigned.read n.limit value.toList = .error reason ∧ fault = n.fault value reason := by
  unfold Numeral.read at hread
  split at hread
  · cases hread
  next value htext =>
    split at hread
    · cases hread
    next reason hreason =>
      cases hread
      exact ⟨value, reason, htext, hreason, rfl⟩

/-- A text that cannot be read is no number in its range. -/
theorem Numeral.not_isGood_of_read_error {value : String} {reason : Unsigned.Fault}
    (htext : n.text? lookup argument = some value)
    (hread : Unsigned.read n.limit value.toList = .error reason) :
    ¬ n.IsGood lookup argument := by
  intro hgood
  obtain ⟨number, hlimit, hdenotes⟩ := hgood value htext
  rw [hdenotes.read_eq hlimit] at hread
  cases hread

/-! ## The first bad number -/

section

variable {α : Type} {asked later : List Numeral} {outcome : Except Fault α}

/-- To read a number before others is to ask for it first. -/
theorem Reports.read_bind {next : Option Nat → Except Fault α}
    (hnext : ∀ given, Reports lookup argument later (next given)) :
    Reports lookup argument (n :: later) (n.read lookup argument >>= next) := by
  cases hread : n.read lookup argument with
  | error fault =>
      obtain ⟨value, reason, htext, hreason, rfl⟩ := Numeral.exists_of_read_error hread
      exact .bad htext hreason
  | ok given => exact .good (Numeral.isGood_of_read hread) (hnext given)

theorem Reports.exists_ok (hreports : Reports lookup argument asked outcome)
    (hgood : ∀ n ∈ asked, n.IsGood lookup argument) : ∃ value, outcome = .ok value := by
  induction hreports with
  | nothing value => exact ⟨value, rfl⟩
  | good _ _ ih => exact ih (List.forall_mem_cons.mp hgood).2
  | bad htext hread =>
      exact absurd (List.forall_mem_cons.mp hgood).1 (Numeral.not_isGood_of_read_error htext hread)

theorem Reports.isGood {value : α} (hreports : Reports lookup argument asked (.ok value)) :
    ∀ n ∈ asked, n.IsGood lookup argument := by
  generalize houtcome : Except.ok value = outcome at hreports
  induction hreports with
  | nothing => exact List.forall_mem_nil _
  | good hgood _ ih => exact List.forall_mem_cons.mpr ⟨hgood, ih houtcome⟩
  | bad => cases houtcome

/-- What is reported is the first bad number. -/
theorem Reports.exists_bad {fault : Fault}
    (hreports : Reports lookup argument asked (.error fault : Except Fault α)) :
    ∃ front n rest value reason, asked = front ++ n :: rest ∧
      (∀ earlier ∈ front, earlier.IsGood lookup argument) ∧ ¬ n.IsGood lookup argument ∧
      n.text? lookup argument = some value ∧
      Unsigned.read n.limit value.toList = .error reason ∧ fault = n.fault value reason := by
  generalize houtcome : (Except.error fault : Except Fault α) = outcome at hreports
  induction hreports with
  | nothing => cases houtcome
  | @good n later _ hgood _ ih =>
      obtain ⟨front, bad, rest, value, reason, rfl, hfront, hbad⟩ := ih houtcome
      exact ⟨n :: front, bad, rest, value, reason, rfl, List.forall_mem_cons.mpr ⟨hgood, hfront⟩,
        hbad⟩
  | @bad n later value reason htext hread =>
      cases houtcome
      exact ⟨[], n, later, value, reason, rfl, List.forall_mem_nil _,
        Numeral.not_isGood_of_read_error htext hread, htext, hread, rfl⟩

end

/-! ## The configuration -/

theorem readListenPort_bind {α : Type} (next : Nat → Except Fault α) :
    readListenPort lookup argument >>= next =
      (portNumeral argument).read lookup argument >>= fun given => next (given.getD 8080) := by
  cases argument with
  | none =>
      change Except.bind (Except.map _ (number? lookup "PORT" Unsigned.max16)) next =
        Except.bind (number? lookup "PORT" Unsigned.max16) _
      cases number? lookup "PORT" Unsigned.max16 <;> rfl
  | some value =>
      simp only [readListenPort, Numeral.read, Numeral.text?, portNumeral, Option.isSome_some,
        if_true]
      cases Unsigned.read Unsigned.max16 value.toList <;> rfl

/-- A configuration is read by asking for its numbers in their order. -/
theorem reports_read (lookup : String → Option String) (argument : Option String) :
    Reports lookup argument (numerals argument) (Configuration.read lookup argument) := by
  unfold Configuration.read
  rw [readListenPort_bind]
  refine Reports.read_bind fun _ => ?_
  refine Reports.read_bind fun _ => ?_
  refine Reports.read_bind fun _ => ?_
  refine Reports.read_bind fun _ => ?_
  refine Reports.read_bind fun _ => ?_
  exact Reports.read_bind fun _ => .nothing _

theorem exists_of_bind_eq_ok {ε α β : Type} {first : Except ε α} {next : α → Except ε β} {value : β}
    (hbind : first >>= next = .ok value) : ∃ made, first = .ok made ∧ next made = .ok value := by
  cases first with
  | error fault => cases hbind
  | ok made => exact ⟨made, rfl, hbind⟩

theorem gives_of_number? {name : String} {limit : Nat}
    (hread : number? lookup name limit = .ok given) : Gives (lookup name) given := by
  have hnumeral : Numeral.read lookup none ⟨.named name, limit⟩ = .ok given := hread
  exact Numeral.gives_of_read hnumeral

theorem holds_of_read {c : Configuration} (hread : Configuration.read lookup argument = .ok c) :
    c.Holds lookup argument := by
  unfold Configuration.read at hread
  rw [readListenPort_bind] at hread
  obtain ⟨port, hport, hread⟩ := exists_of_bind_eq_ok hread
  obtain ⟨workers, hworkers, hread⟩ := exists_of_bind_eq_ok hread
  obtain ⟨daemonPort, hdaemonPort, hread⟩ := exists_of_bind_eq_ok hread
  obtain ⟨connect, hconnect, hread⟩ := exists_of_bind_eq_ok hread
  obtain ⟨idle, hidle, hread⟩ := exists_of_bind_eq_ok hread
  obtain ⟨readTimeout, hreadTimeout, hread⟩ := exists_of_bind_eq_ok hread
  cases hread
  constructor
  case listenPort => exact ⟨port, Numeral.gives_of_read hport, rfl⟩
  case bindAddress => rfl
  case workers => exact gives_of_number? hworkers
  case daemonHost => rfl
  case daemonPort => exact ⟨daemonPort, gives_of_number? hdaemonPort, rfl⟩
  case connectTimeout => exact ⟨connect, gives_of_number? hconnect, rfl⟩
  case idleTimeout => exact ⟨idle, gives_of_number? hidle, rfl⟩
  case readTimeout => exact gives_of_number? hreadTimeout
  case tunnelPath => rfl

/-- The variable of the port is of no account where the port is given as an argument. -/
theorem read_of_argument {other : String → Option String}
    (hsame : ∀ name, name ≠ "PORT" → other name = lookup name) (value : String) :
    Configuration.read other (some value) = Configuration.read lookup (some value) := by
  have hnumber (name : String) (limit : Nat) (hname : name ≠ "PORT") :
      number? other name limit = number? lookup name limit := by
    rw [number?, number?, hsame name hname]
  have hport : readListenPort other (some value) = readListenPort lookup (some value) := rfl
  unfold Configuration.read
  rw [hport, hnumber _ _ (by decide), hnumber _ _ (by decide), hnumber _ _ (by decide),
    hnumber _ _ (by decide), hnumber _ _ (by decide), hsame "BIND_ADDR" (by decide),
    hsame "GUACD_HOST" (by decide), hsame "TUNNEL_PATH" (by decide)]

/-! ## How often unused tunnels are looked for -/

theorem isSome_sweepInterval (c : Configuration) :
    c.sweepInterval.isSome = c.idleTimeout.isSome := by
  rw [sweepInterval, Option.isSome_map]

/-- Timeouts are whole seconds, so half of one is not rounded. -/
theorem Holds.sweepInterval {c : Configuration} (hc : c.Holds lookup argument)
    {timeout interval : Nat} (htimeout : c.idleTimeout = some timeout)
    (hinterval : c.sweepInterval = some interval) :
    2 * interval = max timeout 2000 ∧ 0 < interval ∧ interval ≤ max timeout 1000 := by
  obtain ⟨given, -, hidle⟩ := hc.idleTimeout
  rw [htimeout] at hidle
  obtain ⟨seconds, -, hseconds⟩ := Option.map_eq_some_iff.mp hidle.symm
  rw [Configuration.sweepInterval, htimeout, Option.map_some, Option.some.injEq] at hinterval
  omega

end Configuration

/-! ## Sweepers that go on -/

/-- The sweeper has this interval and this timeout, and has not stopped unless it was asked to. -/
structure Sweeper.Works (w : Sweeper) (interval timeout : Nat) : Prop where
  interval : w.interval = interval
  timeout : w.timeout = timeout
  asked : w.hasStopped = true → w.isStopping = true

namespace Hub

variable {h next : Hub} {k interval timeout : Nat} {w after : Sweeper} {move : Move}

/-- The sweeper with this number is at work. -/
def KeepsSweeping (h : Hub) (k interval timeout : Nat) : Prop :=
  ∃ w : Sweeper, h.sweepers[k]? = some w ∧ w.Works interval timeout

theorem Asked.works (hasked : Asked w after) (hworks : w.Works interval timeout) :
    after.Works interval timeout := by
  obtain ⟨isStopping, hmore, rfl⟩ := hasked
  exact ⟨hworks.interval, hworks.timeout, fun hstopped => hmore (hworks.asked hstopped)⟩

theorem works_keep (hworks : w.Works interval timeout) (progress : Sweep.Progress) :
    (w.keep progress).Works interval timeout := by
  cases progress <;> exact ⟨hworks.interval, hworks.timeout, hworks.asked⟩

/-- A sweeper that goes on sweeps, or stops because it was asked to. -/
theorem works_of_step {clock now : Nat} {r r' : Registry} {tunnels tunnels' : List Tunnel}
    (hstep : w.Step clock now r tunnels after r' tunnels') (hworks : w.Works interval timeout) :
    after.Works interval timeout := by
  cases hstep with
  | resumes hongoing hsweep hresume => exact works_keep hworks _
  | stops hongoing hsweep hstopping => exact ⟨hworks.interval, hworks.timeout, fun _ => hstopping⟩
  | sweeps hongoing hsweep hstopping hdue =>
      have hlater : ({ w with due := w.due + w.interval } : Sweeper).Works interval timeout :=
        ⟨hworks.interval, hworks.timeout, hworks.asked⟩
      exact works_keep hlater _

theorem KeepsSweeping.after? (hkeeps : h.KeepsSweeping k interval timeout)
    (hmove : h.after? move = some next) : next.KeepsSweeping k interval timeout := by
  obtain ⟨w, hw, hworks⟩ := hkeeps
  by_cases hturn : move = .go (.sweeper k)
  · subst hturn
    obtain ⟨w', after, _, _, hw', hstep, rfl⟩ := sweeperStep_resumeSweeper hmove
    rw [hw] at hw'
    cases hw'
    exact ⟨after, getElem?_set_of_getElem? hw, works_of_step hstep hworks⟩
  · obtain ⟨after, hafter, hasked⟩ := sweeper_of_others hmove hturn hw
    exact ⟨after, hafter, hasked.works hworks⟩

theorem KeepsSweeping.of_reaches (hkeeps : h.KeepsSweeping k interval timeout)
    (hreaches : Reaches h next) : next.KeepsSweeping k interval timeout :=
  hreaches.invariant hkeeps fun _ _ _ hbefore hmove => KeepsSweeping.after? hbefore hmove

/-- An idle call that starts a sweeper with this interval is told nothing and watches it, and the
sweeper is at work from then on, in whatever order everything goes on. -/
def CanSweep (h : Hub) (name : String) (interval timeout : Nat) : Prop :=
  ∀ c : Call, (h.withCall name).2.calls[(h.withCall name).1]? = some c → c.task = none →
    ∃ next : Hub, h.apply (.call name (.keepSweeping interval timeout)) = (.nothing, next) ∧
      next.calls[(h.withCall name).1]? = some { c with task := some (.watch h.sweepers.length) } ∧
      ∀ last, Reaches next last → last.KeepsSweeping h.sweepers.length interval timeout

/-- A sweeper that does not sweep all the time is started, and its call told nothing. -/
theorem exists_sweeper_of_pos (h : Hub) (i : Nat) (c : Call) (hinterval : 0 < interval)
    (timeout : Nat) :
    ∃ w : Sweeper, w.Works interval timeout ∧
      h.applyCall i c (.keepSweeping interval timeout) =
        (.nothing, { h with sweepers := h.sweepers ++ [w] }.setCall i
          { c with task := some (.watch h.sweepers.length) }) := by
  rw [applyCall, startSweeper, if_neg (Nat.ne_of_gt hinterval)]
  refine ⟨_, ?_, rfl⟩
  exact ⟨rfl, rfl, fun hstopped => absurd hstopped Bool.false_ne_true⟩

theorem canSweep_of_pos (h : Hub) (name : String) (hinterval : 0 < interval) (timeout : Nat) :
    h.CanSweep name interval timeout := by
  intro c hc hidle
  have hobjection : c.objection? (.keepSweeping interval timeout) = none :=
    objection?_of_idle hidle rfl
  obtain ⟨w, hworks, hstart⟩ :=
    exists_sweeper_of_pos (h.withCall name).2 (h.withCall name).1 c hinterval timeout
  rw [h.sweepers_withCall name] at hstart
  have happly : h.apply (.call name (.keepSweeping interval timeout)) =
      (h.withCall name).2.applyCall (h.withCall name).1 c (.keepSweeping interval timeout) := by
    simp only [apply, hc, hobjection]
  refine ⟨_, happly.trans hstart, ?_, fun last hreaches => ?_⟩
  · exact getElem?_set_of_getElem? hc
  · refine KeepsSweeping.of_reaches ⟨w, ?_, hworks⟩ hreaches
    exact List.getElem?_concat_length

end Hub

namespace Configuration

/-- A configuration is read exactly if every number that is asked for is absent or in its range,
and else the first one that is neither is reported with its text; the variable of the port is not
asked for if there is an argument. A configuration that was read holds what was given. It has unused
tunnels looked for exactly if it has a timeout for them, twice in that time but at most once a
second, so a sweeper can be started with that interval and goes on until it is asked to stop. -/
theorem read_by_numbers (lookup : String → Option String) (argument : Option String) :
    ((∃ c, Configuration.read lookup argument = .ok c) ↔
      ∀ n ∈ numerals argument, n.IsGood lookup argument) ∧
    (∀ fault, Configuration.read lookup argument = .error fault →
      ∃ front n rest value reason, numerals argument = front ++ n :: rest ∧
        (∀ earlier ∈ front, earlier.IsGood lookup argument) ∧ ¬ n.IsGood lookup argument ∧
        n.text? lookup argument = some value ∧
        Unsigned.read n.limit value.toList = .error reason ∧ fault = n.fault value reason) ∧
    (∀ other value, argument = some value → (∀ name, name ≠ "PORT" → other name = lookup name) →
      Configuration.read other argument = Configuration.read lookup argument) ∧
    ∀ c, Configuration.read lookup argument = .ok c →
      c.Holds lookup argument ∧ c.sweepInterval.isSome = c.idleTimeout.isSome ∧
      ∀ timeout interval, c.idleTimeout = some timeout → c.sweepInterval = some interval →
        (2 * interval = max timeout 2000 ∧ 0 < interval ∧ interval ≤ max timeout 1000) ∧
        ∀ (h : Hub) (name : String) (age : Nat), h.CanSweep name interval age := by
  have hreports := reports_read lookup argument
  refine ⟨⟨?_, hreports.exists_ok⟩, ?_, ?_, ?_⟩
  · rintro ⟨c, hread⟩
    rw [hread] at hreports
    exact hreports.isGood
  · intro fault hread
    rw [hread] at hreports
    exact hreports.exists_bad
  · rintro other value rfl hsame
    exact read_of_argument hsame value
  · intro c hread
    have hholds := holds_of_read hread
    refine ⟨hholds, isSome_sweepInterval c, ?_⟩
    intro timeout interval htimeout hinterval
    have hevery := hholds.sweepInterval htimeout hinterval
    exact ⟨hevery, fun h name age => h.canSweep_of_pos name hevery.2.1 age⟩

/-- A port that is no number is of no account beside an argument, half of an odd timeout is not
rounded, and of two bad numbers the one that is asked for first is reported. -/
theorem read_by_numbers_of_odd_timeout :
    let vague : String → Option String := fun name =>
      if name = "PORT" then some "http"
      else if name = "TUNNEL_IDLE_TIMEOUT_SECS" then some "301" else none
    let bad : String → Option String := fun name =>
      if name = "TUNNEL_READ_TIMEOUT_MS" then some "soon"
      else if name = "GUACD_PORT" then some "70000" else none
    (∃ c, Configuration.read vague (some "+7000") = .ok c ∧ c.Holds vague (some "+7000") ∧
      c.listenPort = 7000 ∧ c.sweepInterval = some 150500 ∧
      Hub.CanSweep {} "sweeper" 150500 301000) ∧
    (∃ n ∈ numerals none, ¬ n.IsGood bad none) ∧
    Configuration.read bad none = .error (.invalidNumber "GUACD_PORT" "70000" .tooLarge) := by
  intro vague bad
  have hvague : Configuration.read vague (some "+7000") =
      .ok { listenPort := 7000, idleTimeout := some 301000 } := by decide
  have hbad : Configuration.read bad none =
      .error (.invalidNumber "GUACD_PORT" "70000" .tooLarge) := by decide
  refine ⟨?_, ?_, hbad⟩
  · obtain ⟨hholds, -, hevery⟩ := (read_by_numbers vague (some "+7000")).2.2.2 _ hvague
    exact ⟨_, hvague, hholds, rfl, rfl, (hevery 301000 150500 rfl rfl).2 {} "sweeper" 301000⟩
  · obtain ⟨front, n, rest, _, _, hasked, -, hn, -⟩ := (read_by_numbers bad none).2.1 _ hbad
    refine ⟨n, ?_, hn⟩
    rw [hasked]
    exact List.mem_append_right front List.mem_cons_self

end Configuration

end LongPollTunnel
