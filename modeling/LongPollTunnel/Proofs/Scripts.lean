import Mathlib.Data.List.Forall2
import Mathlib.Tactic.SplitIfs
import LongPollTunnel.Proofs.Handshakes
import LongPollTunnel.Proofs.Sessions
import LongPollTunnel.Proofs.Writing

/-! # What a client says in a handshake

A client's part of a handshake is a script: a selection, and once the daemon has asked for
arguments, the display and an answer to each of the names, in their order. Main statement: whatever
the daemon does and wherever the sink stops taking bytes, what was written is the front of that
script, and all of it if the sink takes everything; and no form puts a field of its own among the
answers.
-/

namespace LongPollTunnel

/-! ## Fields that are no parameters -/

namespace Settings

/-- The fields of a form that are settings of their own. -/
def ownNames : List String :=
  ["protocol", "connection_id", "width", "height", "dpi", "audio", "video", "image", "timezone"]

variable {s next : Settings}

theorem parameters_of_number {name value : String} {set : Nat → Settings}
    (hread : (readNumber name value).map set = .ok next)
    (hset : ∀ n, (set n).parameters = s.parameters) : next.parameters = s.parameters := by
  cases hnumber : readNumber name value with
  | error refusal =>
      rw [hnumber] at hread
      cases hread
  | ok n =>
      rw [hnumber] at hread
      cases hread
      exact hset n

/-- Only a field that is no setting of its own becomes a parameter. -/
theorem parameters_addField {field : String × String} (hadd : s.addField field = .ok next) :
    next.parameters = s.parameters ∨
      field.1 ∉ ownNames ∧ next.parameters = setParameter field.1 field.2 s.parameters := by
  unfold addField at hadd
  dsimp only at hadd
  split_ifs at hadd with hprotocol hid hwidth hheight hdpi haudio hvideo himage hzone
  · cases hadd
    exact Or.inl rfl
  · cases hadd
    exact Or.inl rfl
  · exact Or.inl (parameters_of_number hadd fun _ => rfl)
  · exact Or.inl (parameters_of_number hadd fun _ => rfl)
  · exact Or.inl (parameters_of_number hadd fun _ => rfl)
  · cases hadd
    exact Or.inl rfl
  · cases hadd
    exact Or.inl rfl
  · cases hadd
    exact Or.inl rfl
  · cases hadd
    exact Or.inl rfl
  · cases hadd
    refine Or.inr ⟨?_, rfl⟩
    simp only [ownNames, List.mem_cons, List.not_mem_nil, or_false, not_or]
    exact ⟨hprotocol, hid, hwidth, hheight, hdpi, haudio, hvideo, himage, hzone⟩

theorem parameter?_addField {field : String × String} {name : String}
    (hname : name ∈ ownNames) (hadd : s.addField field = .ok next) :
    next.parameter? name = s.parameter? name := by
  rcases parameters_addField hadd with hsame | ⟨hother, hset⟩
  · rw [parameter?, parameter?, hsame]
  · rw [parameter?, parameter?, hset]
    refine lookup_setParameter_of_ne _ _ ?_
    rintro rfl
    exact hother hname

/-- No form gives a parameter under the name of a setting. -/
theorem parameter?_addFields {fields : List (String × String)} {name : String}
    (hname : name ∈ ownNames) (hadd : s.addFields fields = .ok next) :
    next.parameter? name = s.parameter? name := by
  induction fields generalizing s with
  | nil =>
      cases hadd
      rfl
  | cons field rest ih =>
      unfold addFields at hadd
      split at hadd
      next middle hfield =>
        exact (ih hadd).trans (parameter?_addField hname hfield)
      · cases hadd

/-- A form makes no parameter of a field of its own. -/
theorem parameter?_of_ofForm {body : List UInt8} {name : String} (hname : name ∈ ownNames)
    (hform : ofForm body = .ok s) : s.parameter? name = none := by
  unfold ofForm ofFields at hform
  split at hform
  · cases hform
  next hfields =>
    split at hform
    · cases hform
    · cases hform
      exact parameter?_addFields hname hfields

/-! ## The script -/

/-- The value that stands in for a name: the version of the protocol for a name of a version, else
the parameter of that name, else nothing. -/
inductive Answers (s : Settings) : String → String → Prop where
  | version {name : String} (hversion : "VERSION_".toList <+: name.toList) :
      Answers s name "VERSION_1_5_0"
  | parameter {name value : String} (hother : ¬ "VERSION_".toList <+: name.toList)
      (hparameter : s.parameter? name = some value) : Answers s name value
  | missing {name : String} (hother : ¬ "VERSION_".toList <+: name.toList)
      (hnone : s.parameter? name = none) : Answers s name ""

theorem answers_answer (s : Settings) (name : String) : s.Answers name (s.answer name) := by
  unfold answer
  split
  next hversion => exact .version (List.isPrefixOf_iff_prefix.mp hversion)
  next hother =>
    rw [List.isPrefixOf_iff_prefix] at hother
    cases hparameter : s.parameter? name with
    | some value => exact .parameter hother hparameter
    | none => exact .missing hother hparameter

/-- No setting has the name of a version. -/
theorem not_version_of_mem_ownNames {name : String} (hname : name ∈ ownNames) :
    ¬ "VERSION_".toList <+: name.toList := by
  revert name
  decide

/-- What is said to a daemon that has not asked for arguments yet, or that has asked for these. -/
inductive Script (s : Settings) : Option (List String) → List Instruction → Prop where
  | unasked : Script s none [⟨"select", [(s.connectionId.or s.protocol).getD ""]⟩]
  | asked {names values : List String} (hvalues : List.Forall₂ s.Answers names values) :
      Script s (some names)
        ([⟨"select", [(s.connectionId.or s.protocol).getD ""]⟩,
            ⟨"size", [s.width.repr, s.height.repr, s.dpi.repr]⟩, ⟨"audio", s.audio⟩,
            ⟨"video", s.video⟩, ⟨"image", s.image⟩] ++
          (s.timezone.map fun zone => ⟨"timezone", [zone]⟩).toList ++ [⟨"connect", values⟩])

/-- Before the daemon asks, the client only selects. -/
theorem script_unasked (s : Settings) : s.Script none [s.selectInstruction] :=
  .unasked

/-- Asked, it answers every argument in its place. -/
theorem script_asked (s : Settings) (names : List String) :
    s.Script (some names) (s.selectInstruction :: s.answers names) := by
  have hvalues : List.Forall₂ s.Answers names (names.map s.answer) := by
    rw [List.forall₂_map_right_iff, List.forall₂_same]
    exact fun name _ => s.answers_answer name
  exact .asked hvalues

end Settings

namespace Reader

variable {r next : Reader}

theorem Hands.unread_eq {bytes : List UInt8} (hhands : r.Hands bytes next) :
    r.unread = bytes ++ next.unread := by
  obtain ⟨taken, hsource, hbytes⟩ := hhands
  rw [unread, unread, hsource, List.flatMap_append, ← List.append_assoc, hbytes, List.append_assoc]

/-- An instruction that was read is off the front of what was there. -/
theorem exists_front_of_readInstruction (hr : r.Sound) {i : Instruction}
    (hread : r.readInstruction false = (.done i, next)) :
    ∃ front, Instruction.decode front = .ok i ∧ r.unread = front ++ next.unread := by
  have hsound := hr.await false
  have hunread := r.unread_await false
  unfold readInstruction at hread
  cases hawait : r.await false with
  | mk outcome middle =>
      rw [hawait] at hread hsound hunread
      cases outcome with
      | done value =>
          obtain ⟨front, rest, hbuffer, _, hend, _, _⟩ :=
            exists_first_of_complete hsound (complete_pos_of_await hawait)
          dsimp only at hread
          rw [takeInstruction_eq hbuffer hend] at hread
          cases hdecode : Instruction.decode front with
          | error fault =>
              rw [hdecode] at hread
              cases hread
          | ok found =>
              rw [hdecode] at hread
              cases hread
              refine ⟨front, hdecode, ?_⟩
              rw [← hunread, unread, hbuffer, List.append_assoc]
              rfl
      | failed failure => cases hread
      | waiting => cases hread

end Reader

namespace Dialogue

open Reader (firstInstruction)

variable {α β : Type}

/-! ## What is written -/

/-- Of these bytes the sink has taken what stands in front, and all of them if this part of the
dialogue is done or the sink takes everything; and what is gone from the reader was in front. -/
structure Says (link : Link) (bytes : List UInt8) (result : Outcome Refusal α × Link) : Prop where
  taken : ∃ taken rest, bytes = taken ++ rest ∧
    result.2.sink.accepted = link.sink.accepted ++ taken ∧
    ((∃ value, result.1 = .done value) ∨ link.sink.manner.Flows → rest = [])
  flows : link.sink.manner.Flows → result.2.sink.manner.Flows
  gone : ∃ gone, link.reader.unread = gone ++ result.2.reader.unread

/-- What is sent is written, as far as the sink takes it. -/
theorem says_send (link : Link) (i : Instruction) : Says link i.encode (send i link) where
  taken := by
    by_cases hflows : link.sink.manner.Flows
    · obtain ⟨sink, hsend, _, haccepted⟩ := send_of_flows link hflows i
      rw [hsend]
      exact ⟨i.encode, [], (List.append_nil _).symm, haccepted, fun _ => rfl⟩
    have hsends := sends_send link i
    generalize send i link = result at hsends ⊢
    cases hsends with
    | failed hput =>
        obtain ⟨taken, rest, hbytes, haccepted, _⟩ := Sink.exists_taken_of_put hput
        refine ⟨taken, rest, hbytes, haccepted, ?_⟩
        rintro (⟨_, ⟨⟩⟩ | hall)
        exact absurd hall hflows
    | waiting hput =>
        obtain ⟨taken, rest, hbytes, haccepted, _⟩ := Sink.exists_taken_of_put hput
        refine ⟨taken, rest, hbytes, haccepted, ?_⟩
        rintro (⟨_, ⟨⟩⟩ | hall)
        exact absurd hall hflows
    | flushing hput _ =>
        obtain ⟨taken, rest, hbytes, haccepted, _, hrest, _⟩ := Sink.exists_taken_of_put hput
        exact ⟨taken, rest, hbytes, haccepted, fun _ => hrest rfl⟩
    | unflushed hput hflush | done hput hflush =>
        obtain ⟨taken, rest, hbytes, haccepted, _, hrest, _⟩ := Sink.exists_taken_of_put hput
        rw [Sink.eq_of_flushOut? hflush]
        exact ⟨taken, rest, hbytes, haccepted, fun _ => hrest rfl⟩
  flows := by
    intro hflows
    obtain ⟨sink, hsend, hmanner, _⟩ := send_of_flows link hflows i
    rw [hsend]
    exact hmanner ▸ hflows
  gone := ⟨[], by rw [reader_send]; rfl⟩

/-- What two parts of a dialogue say comes one after the other. Over a sink that takes everything,
the first of them has to be done unless the second says nothing. -/
theorem Says.andThen {first : Dialogue α} {next : α → Dialogue β} {link : Link}
    {bytes more : List UInt8} (hfirst : Says link bytes (first link))
    (hends : link.sink.manner.Flows → (∃ value, (first link).1 = .done value) ∨ more = [])
    (hnext : ∀ value middle, first link = (.done value, middle) →
      Says middle more (next value middle)) :
    Says link (bytes ++ more) (first.andThen next link) := by
  obtain ⟨⟨taken, rest, hbytes, haccepted, hrest⟩, hflows, gone, hgone⟩ := hfirst
  rcases exists_done_or_not first link with ⟨value, middle, hdone⟩ | hnot
  · rw [hdone] at haccepted hrest hflows hgone
    rw [andThen_of_done hdone]
    obtain ⟨⟨taken', rest', hmore, haccepted', hrest'⟩, hflows', gone', hgone'⟩ :=
      hnext value middle hdone
    have hnone := hrest (Or.inl ⟨value, rfl⟩)
    rw [hnone, List.append_nil] at hbytes
    refine ⟨⟨bytes ++ taken', rest', ?_, ?_, ?_⟩, fun hall => hflows' (hflows hall),
      gone ++ gone', ?_⟩
    · rw [hmore, List.append_assoc]
    · rw [haccepted', haccepted, ← hbytes, List.append_assoc]
    · exact fun hall => hrest' (hall.imp_right hflows)
    · rw [hgone, hgone', List.append_assoc]
  · -- the second part says nothing then; over a sink that takes everything it had nothing to say
    obtain ⟨hlast, hneither⟩ := @andThen_of_not_done α β first next link hnot
    refine ⟨⟨taken, rest ++ more, ?_, hlast ▸ haccepted, ?_⟩, hlast ▸ hflows, gone, hlast ▸ hgone⟩
    · rw [hbytes, List.append_assoc]
    · rintro (⟨value, hdone⟩ | hall)
      · exact absurd hdone (hneither value)
      · rcases hends hall with ⟨value, hdone⟩ | rfl
        · exact absurd hdone (hnot value)
        · rw [List.append_nil, hrest (Or.inr hall)]

theorem says_sendAll (link : Link) (instructions : List Instruction) :
    Says link (instructions.flatMap Instruction.encode) (sendAll instructions link) := by
  induction instructions generalizing link with
  | nil => exact ⟨⟨[], [], rfl, (List.append_nil _).symm, fun _ => rfl⟩, id, [], rfl⟩
  | cons i rest ih =>
      rw [List.flatMap_cons]
      refine (says_send link i).andThen ?_ fun _ middle _ => ih middle
      intro hflows
      obtain ⟨sink, hsend, _⟩ := send_of_flows link hflows i
      exact Or.inl ⟨(), congrArg Prod.fst hsend⟩

/-- Who expects an instruction writes nothing. -/
theorem sink_expect (expected : String) (link : Link) : (expect expected link).2.sink = link.sink := by
  unfold expect andThen receive
  generalize link.reader.readInstruction false = read
  obtain ⟨outcome, reader⟩ := read
  cases outcome with
  | done i => dsimp only; split <;> rfl
  | failed failure => rfl
  | waiting => rfl

theorem reader_expect (expected : String) (link : Link) :
    (expect expected link).2.reader = (link.reader.readInstruction false).2 := by
  unfold expect andThen receive
  generalize link.reader.readInstruction false = read
  obtain ⟨outcome, reader⟩ := read
  cases outcome with
  | done i => dsimp only; split <;> rfl
  | failed failure => rfl
  | waiting => rfl

/-- Who listens says nothing. -/
theorem says_expect (expected : String) {link : Link} (hlink : link.reader.Sound) :
    Says link [] (expect expected link) where
  taken := ⟨[], [], rfl, by rw [sink_expect, List.append_nil], fun _ => rfl⟩
  flows := by
    rw [sink_expect]
    exact id
  gone := ⟨_, by rw [reader_expect]; exact (Reader.hands_readInstruction hlink).unread_eq⟩

/-- Who sends reads nothing. -/
theorem reader_sendAll (link : Link) (instructions : List Instruction) :
    (sendAll instructions link).2.reader = link.reader := by
  induction instructions generalizing link with
  | nil => rfl
  | cons i rest ih =>
      have hfirst := reader_send link i
      rw [sendAll]
      rcases exists_done_or_not (send i) link with ⟨value, middle, hdone⟩ | hnot
      · rw [hdone] at hfirst
        rw [andThen_of_done hdone]
        exact (ih middle).trans hfirst
      · rw [(andThen_of_not_done hnot).1]
        exact hfirst

/-- The names that the daemon asks for, if a request for arguments stands in front of its stream. -/
def asked? (stream : List UInt8) (ending : Option (Option String)) : Option (List String) :=
  match firstInstruction stream ending with
  | .done (i, _) => if i.opcode = "args" then some i.args else none
  | .failed _ | .waiting => none

/-- Once the daemon has asked it has asked, whatever comes later. -/
theorem asked?_append {stream : List UInt8} {ending : Option (Option String)} {names : List String}
    (hasked : asked? stream ending = some names) (more : List UInt8)
    (later : Option (Option String)) : asked? (stream ++ more) later = some names := by
  unfold asked? at hasked
  split at hasked
  next i rest hfirst =>
    simp only [asked?, Reader.firstInstruction_append hfirst]
    exact hasked
  · cases hasked
  · cases hasked

/-- What comes at the end of a source leaves a request alone that stands in front of it. -/
theorem asked?_of_source_append {source : List Arrival} {names : List String}
    (hasked : asked? (Arrival.stream source) (Arrival.ending? source) = some names)
    (later : List Arrival) :
    asked? (Arrival.stream (source ++ later)) (Arrival.ending? (source ++ later)) = some names := by
  by_cases hopen : Arrival.ending? source = none
  · rw [Arrival.stream_append hopen]
    exact asked?_append hasked _ _
  · obtain ⟨hstream, hending⟩ := Arrival.append_of_ended hopen later
    rw [hstream, hending]
    exact hasked

/-- The client hears of a request for arguments if and only if there is one. -/
theorem Expects.asked {link : Link} {result : Outcome Refusal Instruction × Link}
    (hresult : Expects "args" link result) :
    (∃ i, result.1 = .done i ∧ link.reader.readInstruction false = (.done i, result.2.reader) ∧
        result.2.reader.Underway ∧
        asked? link.reader.stream link.reader.ending? = some i.args) ∨
      (∀ i, result.1 ≠ .done i) ∧ asked? link.reader.stream link.reader.ending? = none := by
  cases hresult with
  | failed hfirst => exact Or.inr ⟨nofun, by simp only [asked?, hfirst]⟩
  | waiting hfirst => exact Or.inr ⟨nofun, by simp only [asked?, hfirst]⟩
  | refused hfirst herror =>
      have hother : _ ≠ "args" := herror.trans_ne (by decide)
      exact Or.inr ⟨nofun, by simp only [asked?, hfirst, if_neg hother]⟩
  | unexpected hfirst _ hother => exact Or.inr ⟨nofun, by simp only [asked?, hfirst, if_neg hother]⟩
  | done hfirst _ hopcode hread hnext =>
      exact Or.inl ⟨_, rfl, hread, hnext.underway, by simp only [asked?, hfirst, if_pos hopcode]⟩

/-! ## The client's part -/

/-- The part of the handshake that follows the daemon's first turn. -/
def answering (settings : Settings) (args : Instruction) : Dialogue String :=
  (sendAll (settings.answers args.args)).andThen fun _ =>
    (expect "ready").andThen fun ready => give (ready.args.headD "")

theorem says_answering (settings : Settings) (args : Instruction) {link : Link}
    (hlink : link.reader.Underway) :
    Says link ((settings.answers args.args).flatMap Instruction.encode)
      (answering settings args link) := by
  rw [← List.append_nil ((settings.answers args.args).flatMap Instruction.encode)]
  refine (says_sendAll link _).andThen (fun _ => Or.inr rfl) fun _ middle hmiddle => ?_
  have hreader := reader_sendAll link (settings.answers args.args)
  rw [hmiddle] at hreader
  have hsound : middle.reader.Sound := hreader ▸ hlink.sound
  rw [← List.append_nil []]
  refine (says_expect "ready" hsound).andThen (fun _ => Or.inr rfl) fun _ last _ => ?_
  exact ⟨⟨[], [], rfl, (List.append_nil _).symm, fun _ => rfl⟩, id, [], rfl⟩

/-- What the client says for certain, and what it answers if it is asked. -/
def script (settings : Settings) (names? : Option (List String)) : List Instruction :=
  settings.selectInstruction :: (names?.map settings.answers).getD []

/-- The script that is followed is one as it should be. -/
theorem isScript_script (settings : Settings) (names? : Option (List String)) :
    settings.Script names? (script settings names?) := by
  cases names? with
  | none => exact settings.script_unasked
  | some names => exact settings.script_asked names

/-- The script goes on when the daemon asks. -/
theorem exists_script_of_later (settings : Settings) (source later : List Arrival) :
    ∃ more, settings.Script
      (asked? (Arrival.stream (source ++ later)) (Arrival.ending? (source ++ later)))
      (script settings (asked? (Arrival.stream source) (Arrival.ending? source)) ++ more) := by
  cases hasked : asked? (Arrival.stream source) (Arrival.ending? source) with
  | none => exact ⟨_, isScript_script settings _⟩
  | some names =>
      rw [asked?_of_source_append hasked later]
      exact ⟨[], by rw [List.append_nil]; exact isScript_script settings (some names)⟩

theorem handshake_eq (settings : Settings) :
    handshake settings = (send settings.selectInstruction).andThen fun _ =>
      (expect "args").andThen (answering settings) :=
  rfl

/-- A handshake writes its script and nothing else, as far as it comes. -/
theorem says_handshake (settings : Settings) (link : Link) (hlink : link.reader.Underway) :
    Says link
      ((script settings (asked? link.reader.stream link.reader.ending?)).flatMap Instruction.encode)
      (handshake settings link) := by
  rw [handshake_eq, script, List.flatMap_cons]
  refine (says_send link _).andThen ?_ fun _ middle hmiddle => ?_
  · intro hflows
    obtain ⟨sink, hsend, _⟩ := send_of_flows link hflows settings.selectInstruction
    exact Or.inl ⟨(), congrArg Prod.fst hsend⟩
  have hreader := reader_send link settings.selectInstruction
  rw [hmiddle] at hreader
  rw [← hreader] at hlink ⊢
  rw [← List.nil_append (List.flatMap _ _)]
  rcases (expects_expect "args" hlink).asked with ⟨i, hdone, _, hunderway, hasked⟩ | ⟨hnot, hasked⟩
  · refine (says_expect "args" hlink.sound).andThen (fun _ => Or.inl ⟨i, hdone⟩) ?_
    intro args last hargs
    rw [hargs] at hdone hunderway
    cases hdone
    rw [hasked]
    exact says_answering settings i hunderway
  · rw [hasked]
    refine (says_expect "args" hlink.sound).andThen (fun _ => Or.inr rfl) ?_
    intro args last hargs
    exact absurd (congrArg Prod.fst hargs) (hnot args)

/-- Who has said more than the selection has read a request for arguments. -/
theorem exists_request_of_handshake (settings : Settings) {link : Link}
    (hlink : link.reader.Underway) {written : List UInt8}
    (haccepted : (handshake settings link).2.sink.accepted = link.sink.accepted ++ written)
    (hlong : settings.selectInstruction.encode.length < written.length) :
    ∃ args front gone, asked? link.reader.stream link.reader.ending? = some args.args ∧
      Instruction.decode front = .ok args ∧
      link.reader.unread = front ++ (gone ++ (handshake settings link).2.reader.unread) := by
  obtain ⟨taken, rest, hbytes, htaken, _⟩ := (says_send link settings.selectInstruction).taken
  have hreader := reader_send link settings.selectInstruction
  have hshort : taken.length ≤ settings.selectInstruction.encode.length := by
    rw [hbytes, List.length_append]
    exact Nat.le_add_right _ _
  -- without a request, the sink has what the selection has put there
  have hsilent : (handshake settings link).2.sink ≠
      (send settings.selectInstruction link).2.sink := by
    intro hsame
    rw [hsame, htaken, List.append_cancel_left_eq] at haccepted
    rw [haccepted] at hshort
    exact absurd hlong (Nat.not_lt.mpr hshort)
  rw [handshake_eq] at hsilent ⊢
  rcases exists_done_or_not (send settings.selectInstruction) link with
    ⟨_, middle, hselect⟩ | hnot
  · rw [andThen_of_done hselect, hselect] at hsilent
    rw [andThen_of_done hselect]
    rw [hselect] at hreader
    have hmiddle : middle.reader.Underway := hreader ▸ hlink
    have hsink := sink_expect "args" middle
    rcases (expects_expect "args" hmiddle).asked with
      ⟨args, hdone, hread, hunderway, hasked⟩ | ⟨hnot, _⟩
    · have hargs : expect "args" middle = (.done args, (expect "args" middle).2) :=
        Prod.ext hdone rfl
      rw [andThen_of_done hargs]
      obtain ⟨front, hdecode, hunread⟩ := Reader.exists_front_of_readInstruction hmiddle.sound hread
      obtain ⟨gone, hgone⟩ := (says_answering settings args hunderway).gone
      rw [hreader] at hasked hunread
      exact ⟨args, front, gone, hasked, hdecode, by rw [hunread, hgone]⟩
    · rw [(andThen_of_not_done hnot).1] at hsilent
      exact absurd hsink hsilent
  · rw [(andThen_of_not_done hnot).1] at hsilent
    exact absurd rfl hsilent

end Dialogue

/-- Whatever the daemon sends and wherever the client's sink stops taking bytes, what the sink has
taken is the front of the script, and all of it if the sink takes everything. The script only grows
as more arrives, and more of it than the selection is said only when a request for arguments was
read. The settings that a form makes answer a field of the form's own with nothing. -/
theorem handshake_follows_script (settings : Settings) (source : List Arrival)
    (idleTimeout : Option Nat) (sink : Sink) :
    (∃ instructions written rest,
      settings.Script (Dialogue.asked? (Arrival.stream source) (Arrival.ending? source)) instructions ∧
      (∀ later, ∃ more, settings.Script
        (Dialogue.asked? (Arrival.stream (source ++ later)) (Arrival.ending? (source ++ later)))
        (instructions ++ more)) ∧
      (handshake settings { reader := { source, idleTimeout }, sink }).2.sink.accepted =
        sink.accepted ++ written ∧
      instructions.flatMap Instruction.encode = written ++ rest ∧
      (sink.manner.Flows → rest = []) ∧
      (settings.selectInstruction.encode.length < written.length →
        ∃ args front gone,
          Dialogue.asked? (Arrival.stream source) (Arrival.ending? source) = some args.args ∧
          Instruction.decode front = .ok args ∧
          source.flatMap Arrival.bytes = front ++ (gone ++
            (handshake settings { reader := { source, idleTimeout }, sink }).2.reader.unread))) ∧
    ∀ body, Settings.ofForm body = .ok settings → ∀ name ∈ Settings.ownNames, ∀ value,
      settings.Answers name value → value = "" := by
  have hfresh := Reader.underway_fresh source idleTimeout
  refine ⟨?_, ?_⟩
  · obtain ⟨⟨written, rest, hbytes, haccepted, hrest⟩, _, _⟩ :=
      Dialogue.says_handshake settings { reader := { source, idleTimeout }, sink } hfresh
    refine ⟨_, written, rest, Dialogue.isScript_script settings _, ?_, haccepted, hbytes,
      fun hflows => hrest (Or.inr hflows), ?_⟩
    · exact Dialogue.exists_script_of_later settings source
    · exact Dialogue.exists_request_of_handshake settings hfresh haccepted
  · intro body hform name hname value hanswer
    have hnone := Settings.parameter?_of_ofForm hname hform
    cases hanswer with
    | version hversion => exact absurd hversion (Settings.not_version_of_mem_ownNames hname)
    | parameter _ hparameter =>
        rw [hnone] at hparameter
        cases hparameter
    | missing => rfl

/-- A form with a field of its own beside a parameter. -/
def formWithWidth : List UInt8 :=
  Utf8.encode "protocol=vnc&width=800&password=x".toList

def settingsWithWidth : Settings where
  protocol := some "vnc"
  width := 800
  parameters := [("password", "x")]

/-- A request for both of them, and for the version between them, that comes in two reads. -/
def requestInTwoReads : List Arrival :=
  let request := Instruction.encode ⟨"args", ["password", "VERSION_1_0_0", "width"]⟩
  [.data (request.take 5), .data (request.drop 5)]

theorem handshake_follows_script_of_form :
    (∃ instructions,
      settingsWithWidth.Script (some ["password", "VERSION_1_0_0", "width"]) instructions ∧
      (handshake settingsWithWidth
        { reader := { source := requestInTwoReads },
          sink := { manner := { maxWrite := some 2 } } }).2.sink.accepted =
        instructions.flatMap Instruction.encode) ∧
      ∀ value, settingsWithWidth.Answers "width" value → value = "" := by
  obtain ⟨⟨instructions, written, rest, hscript, _, haccepted, hbytes, hrest, _⟩, hown⟩ :=
    handshake_follows_script settingsWithWidth requestInTwoReads none
      { manner := { maxWrite := some 2 } }
  have hasked : Dialogue.asked? (Arrival.stream requestInTwoReads)
      (Arrival.ending? requestInTwoReads) = some ["password", "VERSION_1_0_0", "width"] := by
    decide +kernel
  have hform : Settings.ofForm formWithWidth = .ok settingsWithWidth := by decide +kernel
  rw [hasked] at hscript
  rw [hrest (by decide), List.append_nil] at hbytes
  refine ⟨⟨instructions, hscript, ?_⟩, hown formWithWidth hform "width" (by decide)⟩
  rw [haccepted, hbytes]
  rfl

end LongPollTunnel
