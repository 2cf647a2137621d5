import LongPollTunnel.Connection.FormData
import LongPollTunnel.Connection.Refusal
import LongPollTunnel.Instruction.Basic
import LongPollTunnel.Text.Unsigned

/-! # Settings of a connection

The settings come as form fields. Nine names are settings of their own; any other field
is a parameter, which the daemon asks for by name. A field given twice counts last,
except that audio, video and image formats add up.
-/

namespace LongPollTunnel

/-- What a client asks of its connection to the daemon. -/
structure Settings where
  protocol : Option String := none
  /-- A running connection to join. -/
  connectionId : Option String := none
  width : Nat := 1024
  height : Nat := 768
  dpi : Nat := 96
  audio : List String := []
  video : List String := []
  image : List String := []
  timezone : Option String := none
  /-- Parameters by name; no name comes twice. -/
  parameters : List (String × String) := []
  deriving DecidableEq, Repr, Inhabited

namespace Settings

/-- The version of the protocol that is announced to the daemon. -/
def protocolVersion : String := "VERSION_1_5_0"

/-- Gives a parameter its value; one of the same name is replaced. -/
def setParameter (name value : String) :
    List (String × String) → List (String × String)
  | [] => [(name, value)]
  | (other, old) :: rest =>
    if other = name then (name, value) :: rest
    else (other, old) :: setParameter name value rest

/-- The value of a name in a list of parameters. -/
def lookup (parameters : List (String × String)) (name : String) : Option String :=
  (parameters.find? (·.1 = name)).map (·.2)

theorem lookup_setParameter_self (name value : String) (parameters : List (String × String)) :
    lookup (setParameter name value parameters) name = some value := by
  induction parameters with
  | nil => simp [lookup, setParameter]
  | cons first rest ih =>
      unfold setParameter
      split
      · simp [lookup]
      · rename_i hne
        simpa [lookup, hne] using ih

theorem lookup_setParameter_of_ne {name other : String} (value : String)
    (parameters : List (String × String)) (hne : other ≠ name) :
    lookup (setParameter name value parameters) other = lookup parameters other := by
  induction parameters with
  | nil => simp [lookup, setParameter, Ne.symm hne]
  | cons first rest ih =>
      unfold setParameter
      split
      · rename_i heq
        simp [lookup, heq, Ne.symm hne]
      · simp only [lookup, List.find?_cons] at ih ⊢
        split <;> simp_all

/-- The value of a parameter. -/
def parameter? (s : Settings) (name : String) : Option String :=
  lookup s.parameters name

/-- Reads one of the numbers that describe the display. -/
def readNumber (name value : String) : Except Refusal Nat :=
  match Unsigned.read Unsigned.max32 value.toList with
  | .ok number => .ok number
  | .error _ => .error (.invalidParameter name value)

/-- Takes up one form field. -/
def addField (s : Settings) (field : String × String) : Except Refusal Settings :=
  let (name, value) := field
  if name = "protocol" then .ok { s with protocol := some value }
  else if name = "connection_id" then .ok { s with connectionId := some value }
  else if name = "width" then (readNumber name value).map fun n => { s with width := n }
  else if name = "height" then (readNumber name value).map fun n => { s with height := n }
  else if name = "dpi" then (readNumber name value).map fun n => { s with dpi := n }
  else if name = "audio" then .ok { s with audio := s.audio ++ [value] }
  else if name = "video" then .ok { s with video := s.video ++ [value] }
  else if name = "image" then .ok { s with image := s.image ++ [value] }
  else if name = "timezone" then .ok { s with timezone := some value }
  else .ok { s with parameters := setParameter name value s.parameters }

/-- Takes up form fields in order, up to the first that is no good. -/
def addFields (s : Settings) : List (String × String) → Except Refusal Settings
  | [] => .ok s
  | field :: rest =>
    match s.addField field with
    | .ok s => addFields s rest
    | .error refusal => .error refusal

/-- The settings that form fields make. A protocol or a connection has to be named. -/
def ofFields (fields : List (String × String)) : Except Refusal Settings :=
  match addFields {} fields with
  | .error refusal => .error refusal
  | .ok s =>
    if s.protocol.isNone && s.connectionId.isNone then .error .missingProtocol else .ok s

/-- The settings that a form body makes. -/
def ofForm (body : List UInt8) : Except Refusal Settings :=
  ofFields (FormData.readFields body)

/-- What is selected: the connection to join, else the protocol. -/
def selection (s : Settings) : String :=
  (s.connectionId.or s.protocol).getD ""

/-- The instruction that opens the handshake. -/
def selectInstruction (s : Settings) : Instruction :=
  ⟨"select", [s.selection]⟩

/-- What is answered to one name that the daemon asks for. -/
def answer (s : Settings) (name : String) : String :=
  if "VERSION_".toList.isPrefixOf name.toList then protocolVersion
  else (s.parameter? name).getD ""

/-- The instructions that answer the names that the daemon asks for. -/
def answers (s : Settings) (names : List String) : List Instruction :=
  [⟨"size", [s.width.repr, s.height.repr, s.dpi.repr]⟩, ⟨"audio", s.audio⟩,
    ⟨"video", s.video⟩, ⟨"image", s.image⟩] ++
  (s.timezone.map fun zone => (⟨"timezone", [zone]⟩ : Instruction)).toList ++
  [⟨"connect", names.map s.answer⟩]

end Settings

end LongPollTunnel
