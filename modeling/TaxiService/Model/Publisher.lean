import TaxiService.Lib.Threads
import TaxiService.Model.Consumer

/-!
# Publishing events

`rabbitmq_client.py` and `producer.py`: an event is made of a payload, a
connection is opened, the exchange, its queues and their bindings are declared,
and the event is published under its type. The `main` of `consumer.py` opens
its connection the same way.

The clocks, the standard output and the library that talks to the broker are
effects. A call to the broker answers, or raises. A call that raises may have
reached the broker nevertheless.
-/

namespace TaxiService.Model

open TaxiService.Lib

/-! ## Calls and exceptions -/

/-- What the library raises, with the text of the exception. -/
inductive PikaError where
  | amqpConnection (text : PyStr)
  | other (text : PyStr)
  deriving DecidableEq, Repr

structure BasicProperties where
  contentType : PyStr
  persistent : Bool
  deriving DecidableEq, Repr

/-- The calls to the broker. -/
inductive PikaCall where
  | blockingConnection
  | channel
  | exchangeDeclare (exchange exchangeType : PyStr) (durable : Bool)
  | queueDeclare (queue : PyStr) (durable : Bool)
  | queueBind (exchange queue routingKey : PyStr)
  | basicPublish (exchange routingKey : PyStr) (body : List UInt8)
      (properties : BasicProperties)
  | basicQos (prefetchCount : Nat)
  | basicConsume (queue : PyStr)
  | close
  deriving DecidableEq, Repr

/-- `receive` is the library waiting for a message to call back with, and
`host` are the calls of the callback. -/
inductive MessagingEffect where
  | time
  | utcNow
  | sleep (seconds : Nat)
  | print (text : PyStr)
  | pika (call : PikaCall)
  | startConsuming
  | receive
  | host (e : ConsumerEffect)

abbrev MessagingEffect.Result : MessagingEffect → Type
  | .time => Int
  | .utcNow => PyStr
  | .pika _ => Except PikaError Unit
  | .receive => Option (Nat × List UInt8)
  | .host e => e.Result
  | _ => Unit

/-- What ends a process. -/
inductive ServiceExc (F : Type) where
  | valueError (text : PyStr)
  | runtimeError (text : PyStr)
  | pika (error : PikaError)
  | python (error : PyExc F)

abbrev Messenger (F : Type) :=
  Prog MessagingEffect MessagingEffect.Result (ServiceExc F)

variable {F : Type}

def ask (e : MessagingEffect) : Messenger F e.Result := .perform e

/-- A call to the broker, and its exception. -/
def pika (call : PikaCall) : Messenger F Unit := do
  let answer : Except PikaError Unit ← ask (.pika call)
  match answer with
  | .ok () => pure ()
  | .error error => .throw (.pika error)

/-- `print`. -/
def printLine (python : Python F) (text : PyStr) : Messenger F Unit :=
  if python.Prints text then ask (.print text)
  else .throw (.python (.unicodeEncode text))

/-! ## The connection -/

/-- `n` attempts, after one that ended in `lastError`. -/
def connectAttempts (lastError : PyStr) : Nat → Messenger F Unit
  | 0 => .throw (.runtimeError (py "RabbitMQ is not available: " ++ lastError))
  | n + 1 => do
      let answer : Except PikaError Unit ← ask (.pika .blockingConnection)
      match answer with
      | .ok () => pure ()
      | .error (.amqpConnection text) => do
          ask (.sleep 2)
          connectAttempts text n
      | .error error => .throw (.pika error)

def getConnection : Messenger F Unit := connectAttempts (py "None") 20

/-! ## The topology -/

def exchangeName : PyStr := py "taxi.events"

def exchangeType : PyStr := py "topic"

/-- The queues with their routing keys. -/
def queues : Assoc PyStr (List PyStr) :=
  [(py "taxi.notifications", [py "user.created", py "driver.registered",
      py "ride.created", py "ride.accepted", py "ride.completed"]),
    (py "taxi.ride_read_model", [py "ride.created", py "ride.accepted",
      py "ride.completed"]),
    (py "taxi.audit", [py "#"])]

def bindKeys (queue : PyStr) : List PyStr → Messenger F Unit
  | [] => pure ()
  | key :: keys => do
      pika (.queueBind exchangeName queue key)
      bindKeys queue keys

def declareQueues : List (PyStr × List PyStr) → Messenger F Unit
  | [] => pure ()
  | (queue, keys) :: rest => do
      pika (.queueDeclare queue true)
      bindKeys queue keys
      declareQueues rest

def declareTopology : Messenger F Unit := do
  pika (.exchangeDeclare exchangeName exchangeType true)
  declareQueues queues

/-! ## `publish_event` -/

/-- `str.encode("utf-8")`. -/
def encodeText (text : PyStr) : Except (PyExc F) (List UInt8) :=
  if Encodable text then .ok (encodeUtf8 text) else .error (.unicodeEncode text)

/-- What the interpreter raises ends the process. -/
def orRaise {α : Type} : Except (PyExc F) α → Messenger F α
  | .ok a => pure a
  | .error error => .throw (.python error)

def eventProperties : BasicProperties where
  contentType := py "application/json"
  persistent := true

variable (python : Python F)

def publishEvent (eventType : PyStr) (payload : PyJson F) :
    Messenger F Unit := do
  let millis : Int ← ask .time
  let utcNow : PyStr ← ask .utcNow
  let event : PyJson F := .dict (makeEvent eventType payload millis utcNow)
  getConnection
  pika .channel
  declareTopology
  let text ← orRaise (Py.jsonDumps python python.limits.publish event)
  let body ← orRaise (encodeText text)
  pika (.basicPublish exchangeName eventType body eventProperties)
  let text ← orRaise (Py.jsonDumps python python.limits.publish event)
  printLine python (py "published " ++ eventType ++ py ": " ++ text)
  pika .close

/-! ## `producer.py` -/

/-- The arguments of the command line. -/
structure ProducerArgs (F : Type) where
  eventType : PyStr
  userId : Int
  driverId : Int
  rideId : Int
  login : PyStr
  fullName : PyStr
  carModel : PyStr
  carNumber : PyStr
  fromAddress : PyStr
  toAddress : PyStr
  price : F

/-- `event_payload`, of the type the arguments ask for. -/
def eventPayload (args : ProducerArgs F) :
    Except (ServiceExc F) (Assoc PyStr (PyJson F)) :=
  if args.eventType = py "user.created" then
    .ok [(py "user_id", .int args.userId), (py "login", .str args.login),
      (py "full_name", .str args.fullName)]
  else if args.eventType = py "driver.registered" then
    .ok [(py "driver_id", .int args.driverId), (py "user_id", .int args.userId),
      (py "car_model", .str args.carModel),
      (py "car_number", .str args.carNumber)]
  else if args.eventType = py "ride.created" then
    .ok [(py "ride_id", .int args.rideId), (py "user_id", .int args.userId),
      (py "from_address", .str args.fromAddress),
      (py "to_address", .str args.toAddress), (py "status", .str (py "active"))]
  else if args.eventType = py "ride.accepted" then
    .ok [(py "ride_id", .int args.rideId), (py "driver_id", .int args.driverId),
      (py "status", .str (py "accepted"))]
  else if args.eventType = py "ride.completed" then
    .ok [(py "ride_id", .int args.rideId), (py "driver_id", .int args.driverId),
      (py "user_id", .int args.userId), (py "status", .str (py "completed")),
      (py "price", .float args.price)]
  else .error (.valueError (py "Unsupported event type: " ++ args.eventType))

/-- `main` of `producer.py`. -/
def producerMain (args : ProducerArgs F) : Messenger F Unit := do
  let payload ← .ofExcept (eventPayload args)
  publishEvent python args.eventType (.dict payload)

/-! ## `main` of `consumer.py` -/

def startedText : PyStr :=
  py "event consumer started; audit queue logs all events, " ++
    py "ride events update read model"

/-- Up to the loop that waits for messages. -/
def consumerMain : Messenger F Unit := do
  getConnection
  pika .channel
  declareTopology
  pika (.basicQos 1)
  pika (.basicConsume (py "taxi.audit"))
  printLine python startedText
  ask .startConsuming

/-- One round of that loop: a message, and the callback for it. -/
def consumerRound : Messenger F Unit := do
  let message : Option (Nat × List UInt8) ← ask .receive
  match message with
  | none => pure ()
  | some (deliveryTag, body) =>
      ((handleMessage python deliveryTag body).embed .host fun _ r => r).tryCatch
        fun error => .throw (.python error)

end TaxiService.Model
