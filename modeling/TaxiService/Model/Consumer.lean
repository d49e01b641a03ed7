import TaxiService.Lib.Prog
import TaxiService.Lib.PyJsonLimits

/-!
# The event consumer

`consumer.py`: a message of the audit queue is parsed and printed, and a
message about a ride is folded into the read model, a JSON file that is loaded
and rewritten for every event. What the code between `load_read_model` and
`save_read_model` does to the model is `applyEvent`, over whatever JSON the
file and the message hold. Python checks nothing here, so every access may
raise.

The interpreter has limits, and which values are past them depends on the place
(`PyLimits`). Going past one is an exception like any other.

The calls to the file system, to the standard output and to the broker are
effects. A text that cannot be encoded raises before anything of it is written:
for the file that is a text UTF-8 has no encoding for, for the standard output
it depends on its error handler. Otherwise the calls do not fail: no full disk,
no lost connection.
-/

namespace TaxiService.Model

open TaxiService.Lib

/-! ## Exceptions -/

/-- What the consumer can raise, with what the message of the exception is
made from. -/
inductive PyExc (F : Type) where
  | unicodeDecode (bytes : List UInt8)
  | unicodeEncode (text : PyStr)
  -- What `json.loads` raises for a text, the limits among it.
  | jsonDecode (text : PyStr)
  -- `RecursionError`, or `ValueError` for an integer with too many digits.
  | limit (op : PyStr) (v : PyJson F)
  | keyError (key : PyStr)
  | typeError (op : PyStr) (v : PyJson F)
  | attributeError (v : PyJson F) (name : PyStr)

/-! ## The interpreter -/

/-- How deep the interpreter follows a value at each place of the code, and how
many digits of an integer it converts. Reading, `json.dumps` and `str` are
written in C. `json.dump` with an indentation is written in Python and gives up
earlier, so what it has written can be read. -/
structure PyLimits where
  parse : Nat
  format : Nat
  dumps : Nat
  load : Nat
  rideId : Nat
  save : Nat
  publish : Nat
  digits : Nat
  save_le_load : save ≤ load
  publish_le_parse : publish ≤ parse
  dumps_pos : 0 < dumps
  rideId_pos : 0 < rideId
  four_le_save : 4 ≤ save

theorem PyLimits.three_le_save (limits : PyLimits) : 3 ≤ limits.save :=
  Nat.le_of_succ_le limits.four_le_save

/-- The interpreter: its floats, its character table, its limits, the characters
its standard output takes, and `str` of an exception, which escapes what it
quotes. -/
structure Python (F : Type) where
  float : PyFloat F
  printable : Printable
  limits : PyLimits
  stdout : Nat → Bool
  stdout_scalar : ∀ c, isScalar c = true → stdout c = true
  errorText : PyExc F → PyStr
  errorText_encodable : ∀ error, Encodable (errorText error)

/-- The standard output takes the text. -/
def Python.Prints {F : Type} (python : Python F) (text : PyStr) : Prop :=
  ∀ c ∈ text, python.stdout c = true

instance {F : Type} (python : Python F) (text : PyStr) :
    Decidable (python.Prints text) :=
  inferInstanceAs (Decidable (∀ c ∈ text, _))

theorem Python.prints_encodable {F : Type} (python : Python F) {text : PyStr}
    (h : Encodable text) : python.Prints text :=
  fun c hc => python.stdout_scalar c (h c hc)

/-- PyLimits like those of CPython 3.12 when nothing is set. -/
def PyLimits.cpython : PyLimits where
  parse := 9995
  format := 9990
  dumps := 9995
  load := 9995
  rideId := 9990
  save := 985
  publish := 9995
  digits := 4300
  save_le_load := by decide
  publish_le_parse := by decide
  dumps_pos := by decide
  rideId_pos := by decide
  four_le_save := by decide

/-- An interpreter to evaluate with. It takes no character beyond ASCII to be
printable, its standard output escapes undecodable bytes (`surrogateescape`),
and of what a text cannot encode it tells the first character. -/
def Python.ascii : Python {t : FloatText // t.Canonical} where
  float := .literal
  printable := .ascii
  limits := .cpython
  stdout c := isScalar c || (56448 ≤ c && c < 56576)
  stdout_scalar c h := by rw [h, Bool.true_or]
  errorText
    | .unicodeDecode _ => py "'utf-8' codec can't decode byte"
    | .unicodeEncode text =>
        let before := text.takeWhile isScalar
        py "'utf-8' codec can't encode character '\\u" ++
          hexText 4 ((text.drop before.length).headD 0) ++
          py "' in position " ++ intText before.length ++
          py ": surrogates not allowed"
    | .jsonDecode _ => py "Expecting value"
    | .limit .. => py "maximum recursion depth exceeded"
    | .keyError key => reprString .ascii key
    | .typeError .. => py "unsupported operand type"
    | .attributeError .. => py "object has no such attribute"
  errorText_encodable error := by
    cases error with
    | unicodeEncode text =>
        refine encodable_append (encodable_append (encodable_append
          (encodable_append (t := hexText 4 _) (by decide) ?_) (by decide)) ?_)
          (by decide)
        · exact encodable_plain (plain_hexText 4 _)
        · exact encodable_plain (plain_intText _)
    | keyError key => exact encodable_reprString .ascii key
    | unicodeDecode _ =>
        exact encodable_plain (s := py "'utf-8' codec can't decode byte")
          (by decide)
    | jsonDecode _ =>
        exact encodable_plain (s := py "Expecting value") (by decide)
    | limit _ _ =>
        exact encodable_plain (s := py "maximum recursion depth exceeded")
          (by decide)
    | typeError _ _ =>
        exact encodable_plain (s := py "unsupported operand type") (by decide)
    | attributeError _ _ =>
        exact encodable_plain (s := py "object has no such attribute")
          (by decide)

variable {F : Type}

namespace Py

/-! ## Operations on JSON values -/

/-- `v[key]`. -/
def getItem (v : PyJson F) (key : PyStr) : Except (PyExc F) (PyJson F) :=
  match v with
  | .dict m =>
      match Assoc.get? m key with
      | some w => .ok w
      | none => .error (.keyError key)
  | v => .error (.typeError (py "subscript") v)

/-- `v[key] = w`, as the value `v` is then. -/
def setItem (v : PyJson F) (key : PyStr) (w : PyJson F) :
    Except (PyExc F) (PyJson F) :=
  match v with
  | .dict m => .ok (.dict (Assoc.set m key w))
  | v => .error (.typeError (py "item assignment") v)

/-- `v.get(key, default)`. -/
def get (v : PyJson F) (key : PyStr) (default : PyJson F) :
    Except (PyExc F) (PyJson F) :=
  match v with
  | .dict m => .ok ((Assoc.get? m key).getD default)
  | v => .error (.attributeError v (py "get"))

/-- `v.pop(key, default)`, and the value `v` is then. A list has a `pop` that
takes one argument. -/
def pop (v : PyJson F) (key : PyStr) (default : PyJson F) :
    Except (PyExc F) (PyJson F × PyJson F) :=
  match v with
  | .dict m => .ok ((Assoc.get? m key).getD default, .dict (Assoc.erase m key))
  | .list items => .error (.typeError (py "pop") (.list items))
  | v => .error (.attributeError v (py "pop"))

/-- `v.update(w)`, as the value `v` is then. -/
def update (v w : PyJson F) : Except (PyExc F) (PyJson F) :=
  match v, w with
  | .dict m, .dict m' => .ok (.dict (Assoc.update m m'))
  -- Not reached: the payload has been subscripted with a string before.
  | .dict _, w => .error (.typeError (py "update") w)
  | v, _ => .error (.attributeError v (py "update"))

/-- The items of `v`, for `v.append(..)`. -/
def appendable (v : PyJson F) : Except (PyExc F) (List (PyJson F)) :=
  match v with
  | .list items => .ok items
  | v => .error (.attributeError v (py "append"))

/-- `items[-n:]`. -/
def lastItems {α : Type} (n : Nat) (items : List α) : List α :=
  items.drop (items.length - n)

/-- `v == s`. -/
def isStr (v : PyJson F) (s : PyStr) : Bool :=
  match v with
  | .str t => t == s
  | _ => false

/-- `v.startswith(s)`. -/
def startsWith (v : PyJson F) (s : PyStr) : Except (PyExc F) Bool :=
  match v with
  | .str t => .ok (s.isPrefixOf t)
  | v => .error (.attributeError v (py "startswith"))

/-- `bytes.decode("utf-8")`. -/
def decode (bytes : List UInt8) : Except (PyExc F) PyStr :=
  match decodeUtf8 bytes with
  | some text => .ok text
  | none => .error (.unicodeDecode bytes)

variable (python : Python F)

/-- `json.loads(text)`. -/
def jsonLoads (nesting : Nat) (text : PyStr) : Except (PyExc F) (PyJson F) :=
  match loads python.float nesting python.limits.digits text with
  | some v => .ok v
  | none => .error (.jsonDecode text)

/-- `json.dumps(v, ensure_ascii=False)`. -/
def jsonDumps (nesting : Nat) (v : PyJson F) : Except (PyExc F) PyStr :=
  if v.nesting ≤ nesting ∧ v.digits ≤ python.limits.digits then
    .ok (dumps python.float v)
  else .error (.limit (py "json.dumps") v)

/-- `str(v)`. -/
def str (depth : Nat) (v : PyJson F) : Except (PyExc F) PyStr :=
  if v.strDepth ≤ depth ∧ v.digits ≤ python.limits.digits then
    .ok (pyStr python.float python.printable v)
  else .error (.limit (py "str") v)

end Py

open Py (getItem setItem isStr)

/-! ## Events -/

/-- `make_event`, with the readings of the two clocks. -/
def makeEvent (eventType : PyStr) (payload : PyJson F) (millis : Int)
    (utcNow : PyStr) : Assoc PyStr (PyJson F) :=
  [(py "event_id", .str (eventType ++ py "-" ++ intText millis)),
    (py "event_type", .str eventType), (py "occurred_at", .str utcNow),
    (py "source", .str (py "taxi-service")), (py "payload", payload)]

/-! ## The read model -/

def emptyModel : PyJson F :=
  .dict [(py "active_rides", .dict []), (py "accepted_rides", .dict []),
    (py "completed_rides", .dict []), (py "last_events", .list [])]

/-- `model[section][ride_id] = ride`. -/
def putRide (model : PyJson F) (section_ rideId : PyStr) (ride : PyJson F) :
    Except (PyExc F) (PyJson F) := do
  let rides ← getItem model section_
  setItem model section_ (← setItem rides rideId ride)

/-- `model[section].pop(ride_id, {})`. -/
def popRide (model : PyJson F) (section_ rideId : PyStr) :
    Except (PyExc F) (PyJson F × PyJson F) := do
  let (ride, rides) ← Py.pop (← getItem model section_) rideId (.dict [])
  return (ride, ← setItem model section_ rides)

/-- Taking a ride out of one section and merging the payload into it for
another. -/
def moveRide (model : PyJson F) (source target rideId : PyStr)
    (payload : PyJson F) : Except (PyExc F) (PyJson F) := do
  let (ride, model) ← popRide model source rideId
  putRide model target rideId (← Py.update ride payload)

variable (python : Python F)

/-- `str(payload["ride_id"])`. -/
def rideIdOf (payload : PyJson F) : Except (PyExc F) PyStr := do
  Py.str python python.limits.rideId (← getItem payload (py "ride_id"))

/-- What the event does to the three sections of rides. -/
def applyRide (model eventType payload : PyJson F) :
    Except (PyExc F) (PyJson F) := do
  if isStr eventType (py "ride.created") then
    putRide model (py "active_rides") (← rideIdOf python payload) payload
  else if isStr eventType (py "ride.accepted") then
    moveRide model (py "active_rides") (py "accepted_rides")
      (← rideIdOf python payload) payload
  else if isStr eventType (py "ride.completed") then
    moveRide model (py "accepted_rides") (py "completed_rides")
      (← rideIdOf python payload) payload
  else return model

/-- What the event does to `last_events`. -/
def logEvent (model event eventType : PyJson F) :
    Except (PyExc F) (PyJson F) := do
  let items ← Py.appendable (← getItem model (py "last_events"))
  let entry : PyJson F := .dict [(py "event_type", eventType),
    (py "event_id", ← getItem event (py "event_id")),
    (py "occurred_at", ← getItem event (py "occurred_at"))]
  setItem model (py "last_events") (.list (Py.lastItems 20 (items ++ [entry])))

/-- `update_read_model` between loading the model and saving it. -/
def applyEvent (model event : PyJson F) : Except (PyExc F) (PyJson F) := do
  let eventType ← getItem event (py "event_type")
  let payload ← getItem event (py "payload")
  logEvent (← applyRide python model eventType payload) event eventType

/-! ## Texts -/

/-- What a file opened as text makes of its line ends. -/
def universalNewlines : PyStr → PyStr
  | [] => []
  | 13 :: 10 :: rest => 10 :: universalNewlines rest
  | 13 :: rest => 10 :: universalNewlines rest
  | c :: rest => c :: universalNewlines rest

/-- `json.loads(body.decode("utf-8"))`. -/
def parseBody (body : List UInt8) : Except (PyExc F) (PyJson F) := do
  Py.jsonLoads python python.limits.parse (← Py.decode body)

/-- The line printed for a message. -/
def receivedText (event : PyJson F) : Except (PyExc F) PyStr := do
  let eventType ← Py.str python python.limits.format
    (← getItem event (py "event_type"))
  let source ← Py.str python python.limits.format
    (← Py.get event (py "source") (.str (py "unknown")))
  let payload ← Py.jsonDumps python python.limits.dumps
    (← getItem event (py "payload"))
  return py "received " ++ eventType ++ py " from " ++ source ++ py ": " ++
    payload

/-! ## Effects -/

inductive ConsumerEffect where
  | exists_
  | read
  | mkdir
  | openWrite
  | write (bytes : List UInt8)
  | close
  | print (text : PyStr)
  | ack (deliveryTag : Nat)
  | nack (deliveryTag : Nat) (requeue : Bool)

abbrev ConsumerEffect.Result : ConsumerEffect → Type
  | .exists_ => Bool
  | .read => List UInt8
  | _ => Unit

abbrev Consumer (F : Type) :=
  Prog ConsumerEffect ConsumerEffect.Result (PyExc F)

def act (e : ConsumerEffect) : Consumer F e.Result := .perform e

/-- `print`. -/
def printText (text : PyStr) : Consumer F Unit :=
  if python.Prints text then act (.print text)
  else .throw (.unicodeEncode text)

/-- `file.write`. -/
def writeText (text : PyStr) : Consumer F Unit :=
  if Encodable text then act (.write (encodeUtf8 text))
  else .throw (.unicodeEncode text)

/-- `json.dump`: the generator for the value makes its next text, if the
limits let it, and that is written. -/
def writeChunks (v : PyJson F) : List Chunk → Consumer F Unit
  | [] => pure ()
  | c :: cs => do
      if c.frames ≤ python.limits.save ∧ c.digits ≤ python.limits.digits then
        writeText c.text
      else .throw (.limit (py "json.dump") v)
      writeChunks v cs

/-! ## The functions of `consumer.py` -/

def loadReadModel : Consumer F (PyJson F) := do
  if !(← act .exists_) then return emptyModel
  let bytes : List UInt8 ← act .read
  let text ← .ofExcept (Py.decode bytes)
  .ofExcept (Py.jsonLoads python python.limits.load (universalNewlines text))

def saveReadModel (model : PyJson F) : Consumer F Unit := do
  act .mkdir
  act .openWrite
  -- The `with` block closes the file before an exception leaves it.
  (writeChunks python model (iterencode python.float 0 model)).tryCatch
      fun error => do
        act .close
        .throw error
  act .close

def updateReadModel (event : PyJson F) : Consumer F Unit := do
  let model ← loadReadModel python
  let model ← .ofExcept (applyEvent python model event)
  saveReadModel python model

/-- The `try` block of `handle_message`. -/
def tryMessage (deliveryTag : Nat) (body : List UInt8) : Consumer F Unit := do
  let event ← .ofExcept (parseBody python body)
  printText python (← .ofExcept (receivedText python event))
  let eventType ← .ofExcept (getItem event (py "event_type"))
  if ← .ofExcept (Py.startsWith eventType (py "ride.")) then
    updateReadModel python event
  act (.ack deliveryTag)

def handleMessage (deliveryTag : Nat) (body : List UInt8) : Consumer F Unit :=
  (tryMessage python deliveryTag body).tryCatch fun error => do
    printText python
      (py "failed to process message: " ++ python.errorText error)
    act (.nack deliveryTag true)

/-! ## The host -/

/-- Which broker call was made. -/
inductive Verdict where
  | ack
  | nack
  deriving DecidableEq, Repr

/-- The file, the bytes written to it since it was opened for writing, and the
broker calls so far. What is written reaches the disk when the file is
closed, at the latest. -/
structure Host where
  disk : Option (List UInt8)
  writer : Option (List UInt8)
  verdicts : List (Nat × Verdict)
  deriving DecidableEq, Repr

def callHost : (e : ConsumerEffect) → Host → e.Result × Host
  | .exists_, h => (h.disk.isSome, h)
  | .read, h => (h.disk.getD [], h)
  | .mkdir, h => ((), h)
  | .openWrite, h => ((), { h with disk := some [], writer := some [] })
  | .write bytes, h => ((), { h with writer := h.writer.map (· ++ bytes) })
  | .close, h =>
      ((), { h with disk := h.writer.or h.disk, writer := none })
  | .print _, h => ((), h)
  | .ack tag, h => ((), { h with verdicts := h.verdicts ++ [(tag, .ack)] })
  | .nack tag _, h =>
      ((), { h with verdicts := h.verdicts ++ [(tag, .nack)] })

end TaxiService.Model
