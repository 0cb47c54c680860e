import Parley.Json.Reader
import Parley.Json.Record

/-!
# Settings

What a host may configure: the conversation to start with, the speed of the reveal, how much to
record, and how many choices have a key of their own. Settings come from fields or from a JSON file,
and can be changed one by one. A change that is refused changes nothing.
-/

namespace Parley

/-- The settings of a host. -/
structure Settings where
  startingConversation : Text
  charsPerSecond : Float
  logLevel : Text
  maxChoiceKeys : Int

namespace Settings

/-- The settings a host has that configures nothing. -/
def default : Settings := ⟨"start".toList, 20.0, "WARNING".toList, 9⟩

/-- The upper-case form of a character, as far as it can occur in the name of a log level. -/
def upper (c : Char) : Char :=
  if c = 'ı' then 'I' else if c = 'ſ' then 'S' else c.toUpper

/-- The names of log levels. -/
def logLevels : List String :=
  ["CRITICAL", "FATAL", "ERROR", "WARN", "WARNING", "INFO", "DEBUG", "NOTSET"]

/-- A log level by its name in any case. -/
def asLogLevel (v : Json) : Except FieldFault Text := do
  let t := (← v.asText).map upper
  if logLevels.contains (String.ofList t) then return t else throw .unknownName

/-- A speed, which must be positive. -/
def asSpeed (x : Float) : Except FieldFault Float :=
  if x > 0.0 then .ok x else .error .greaterThan

/-- A number of keys, from one to nine. -/
def asKeys (v : Json) : Except FieldFault Int := do
  let n ← v.asInt
  if n < 1 then throw .greaterThanEqual
  else if 9 < n then throw .lessThanEqual
  else return n

/-- Put a value into a field of settings, floats being read by `real`. -/
def take (real : Json → Except FieldFault Float) (s : Settings) (name : Text) (v : Json) :
    Option (Except (List FieldError) Settings) :=
  if name = "starting_conversation".toList then
    some (Record.field name v.asText fun t => { s with startingConversation := t })
  else if name = "chars_per_second".toList then
    some (Record.field name (real v >>= asSpeed) fun x => { s with charsPerSecond := x })
  else if name = "log_level".toList then
    some (Record.field name (asLogLevel v) fun t => { s with logLevel := t })
  else if name = "max_choice_keys".toList then
    some (Record.field name (asKeys v) fun n => { s with maxChoiceKeys := n })
  else none

/-- Settings as a kind of record, floats being read by `real`. -/
def record (real : Json → Except FieldFault Float) : Record Settings :=
  ⟨"EngineConfig".toList, ["seconds_per_char".toList], take real⟩

/-- Settings from fields. -/
def ofFields : List (Text × Json) → Except (List FieldError) Settings :=
  (record Json.asReal).fill default

/-- Change one setting. -/
def assign (s : Settings) (name : Text) (v : Json) : Except Record.Refusal Settings :=
  (record Json.asReal).assign s name v

/-- What a settings file may hold. -/
def limits : Json.Limits := ⟨200, maxDigits⟩

/-- Settings from the text of a file. In a file no number is too large, whole or not. -/
def ofText (t : Text) : Except (List FieldError) Settings :=
  match Json.read? limits t with
  | none => .error [⟨[], .notJson⟩]
  | some (.object es) => (record Json.asWideReal).fill default es
  | some _ => .error [⟨[], .notObject⟩]

/-- Settings from the bytes of a file, which have to be UTF-8; `none` when they are not. -/
def ofBytes? (bytes : ByteArray) : Option (Except (List FieldError) Settings) :=
  (String.fromUTF8? bytes).map fun s => ofText s.toList

/-- The seconds one character of a reveal takes. -/
def secondsPerChar (s : Settings) : Float := 1.0 / s.charsPerSecond

/-- Where a player starts that is told `start`: the configured conversation if it is told
nothing. -/
def startOr (s : Settings) : Option Text → Text
  | none | some [] => s.startingConversation
  | some id => id

end Settings

end Parley
