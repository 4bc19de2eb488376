import Hwfa.GoStructs
import Hwfa.JsonBodies
import Hwfa.RelayFrames

/-!
The wire between the client (`packages/client/src/relay.ts`, `packages/models`) and the
relay (`backend/relay/envelope.go`, `client.go`), byte by byte.

The types of both sides are kept in step by hand.  Here the relay's are the codecs that
their tags say, and the client's are the objects that it builds and the properties that
it reads.  A number of the client is an integer below two to the power 53, as its device
numbers and its clock are; a number of the relay is any integer of 64 bits.
-/

namespace Hwfa.RelayWire

open Hwfa.Json (Text utf16)
open Hwfa.GoJson (Bytes)
open Hwfa.GoStructs Hwfa.JsonBodies Hwfa.JsonWriters Hwfa.JsonReaders
open Hwfa.Machines Hwfa.RelayEnvelope Hwfa.RelayHub Hwfa.RelayProcess Hwfa.RelayFrames

/-! ### The relay's types -/

def envelopeFields : List (StructField Envelope) := [
  field "id" string (·.id) fun e id => { e with id },
  field "recipientId" string (·.recipientID) fun e recipientID => { e with recipientID },
  field "recipientDevice" int (·.recipientDevice) fun e recipientDevice => { e with recipientDevice },
  field "senderId" string (·.senderID) fun e senderID => { e with senderID },
  field "senderDevice" int (·.senderDevice) fun e senderDevice => { e with senderDevice },
  field "type" int (·.type) fun e type => { e with type },
  field "ciphertext" string (·.ciphertext) fun e ciphertext => { e with ciphertext },
  field "timestamp" int (·.timestamp) fun e timestamp => { e with timestamp }]

def envelope : Codec Envelope := struct ⟨"", "", 0, "", 0, 0, "", 0⟩ envelopeFields

def messageFields : List (StructField RelayMessage) := [
  field "kind" string (·.kind) fun m kind => { m with kind },
  omitempty "envelope" (pointer envelope) (·.envelope) fun m envelope => { m with envelope },
  omitempty "envelopeId" string (·.envelopeID) fun m envelopeID => { m with envelopeID },
  omitempty "acceptedAt" int64 (·.acceptedAt) fun m acceptedAt => { m with acceptedAt },
  omitempty "clientRef" string (·.clientRef) fun m clientRef => { m with clientRef },
  omitempty "status" string (·.status) fun m status => { m with status },
  omitempty "targetId" string (·.targetID) fun m targetID => { m with targetID },
  omitempty "targetDevice" int (·.targetDevice) fun m targetDevice => { m with targetDevice },
  omitempty "token" string (·.token) fun m token => { m with token }]

def relayMessage : Codec RelayMessage := struct { kind := "" } messageFields

/-- `json.Unmarshal` of a frame, as `readPump` calls it. -/
def unmarshal (data : Bytes) : Option RelayMessage := relayMessage.unmarshal data

/-- `conn.WriteJSON`, as `writePump` calls it. -/
def writeJSON (msg : RelayMessage) : Bytes := encodeLine (relayMessage.encode msg)

/-! ### The client's types -/

/-- `Omit<Envelope, "id">`, in the order in which `sendText` builds it. -/
structure Outgoing where
  recipientId : Text
  recipientDevice : Int
  senderId : Text
  senderDevice : Int
  type : Int
  ciphertext : Text
  timestamp : Int

def Outgoing.value (e : Outgoing) : Json.Value := object [
  ("recipientId", .string e.recipientId), ("recipientDevice", number e.recipientDevice),
  ("senderId", .string e.senderId), ("senderDevice", number e.senderDevice),
  ("type", number e.type), ("ciphertext", .string e.ciphertext), ("timestamp", number e.timestamp)]

/-- The numbers of an envelope are integers that the client can hold. -/
structure Outgoing.IsSafe (e : Outgoing) : Prop where
  recipientDevice : JsonWriters.IsSafe e.recipientDevice
  senderDevice : JsonWriters.IsSafe e.senderDevice
  type : JsonWriters.IsSafe e.type
  timestamp : JsonWriters.IsSafe e.timestamp

/-- What the client says to the relay. -/
inductive Request where
  | sendEnvelope (envelope : Outgoing) (clientRef : Option Text)
  | sendReceipt (envelopeId status targetId : Text) (targetDevice : Int)
  | registerPush (token : Text)

/-- The message that a method of `RelayConnection` hands to `send`. -/
def Request.value : Request → Json.Value
  | .sendEnvelope envelope clientRef => object [("kind", .string (utf16 "send")),
      ("envelope", envelope.value), ("clientRef", (clientRef.map .string).getD .undefined)]
  | .sendReceipt envelopeId status targetId targetDevice => object [
      ("kind", .string (utf16 "receipt")), ("envelopeId", .string envelopeId),
      ("status", .string status), ("targetId", .string targetId),
      ("targetDevice", number targetDevice)]
  | .registerPush token => object [("kind", .string (utf16 "register-push")), ("token", .string token)]

def Request.IsSafe : Request → Prop
  | .sendEnvelope envelope _ => envelope.IsSafe
  | .sendReceipt _ _ _ targetDevice => JsonWriters.IsSafe targetDevice
  | .registerPush _ => True

/-- `send`: the frame that the socket puts on the wire. -/
def Request.frame (request : Request) : Option Bytes :=
  (Json.stringify request.value).map utf8Text

/-- What the relay makes of an envelope of the client. -/
def Outgoing.received (e : Outgoing) : Envelope where
  id := ""
  recipientID := goString e.recipientId
  recipientDevice := Int64.ofInt e.recipientDevice
  senderID := goString e.senderId
  senderDevice := Int64.ofInt e.senderDevice
  type := Int64.ofInt e.type
  ciphertext := goString e.ciphertext
  timestamp := Int64.ofInt e.timestamp

def Request.received : Request → RelayMessage
  | .sendEnvelope envelope clientRef =>
    { kind := "send", envelope := some envelope.received, clientRef := (clientRef.map goString).getD "" }
  | .sendReceipt envelopeId status targetId targetDevice =>
    { kind := "receipt", envelopeID := goString envelopeId, status := goString status,
      targetID := goString targetId, targetDevice := Int64.ofInt targetDevice }
  | .registerPush token => { kind := "register-push", token := goString token }

/-- What the listener of a message calls. -/
inductive Heard where
  | deliver (envelope : Json.Value)
  | ack (clientRef envelopeId : Json.Value)
  | status (envelopeId status : Json.Value)
  | nothing

/-- The listener, of a message that is parsed; `none` where reading a property throws. -/
def listen (msg : Json.Value) : Option Heard :=
  if msg.nullish then none
  else if msg.get "kind" = .string (utf16 "deliver") ∧ (msg.get "envelope").truthy then
    some (.deliver (msg.get "envelope"))
  else if msg.get "kind" = .string (utf16 "ack") then
    some (.ack (msg.get "clientRef") (msg.get "envelopeId"))
  else if msg.get "kind" = .string (utf16 "status") then
    some (.status (msg.get "envelopeId") (msg.get "status"))
  else some .nothing

/-- What the listener calls for the bytes of a frame. -/
def hear (data : Bytes) : Option Heard := ((receiveText data).bind Json.parse).bind listen

/-- The envelope that the client is given. -/
def envelopeValue (e : Envelope) : Json.Value := object [
  ("id", .string (utf16 e.id)), ("recipientId", .string (utf16 e.recipientID)),
  ("recipientDevice", number e.recipientDevice.toInt), ("senderId", .string (utf16 e.senderID)),
  ("senderDevice", number e.senderDevice.toInt), ("type", number e.type.toInt),
  ("ciphertext", .string (utf16 e.ciphertext)), ("timestamp", number e.timestamp.toInt)]

/-- A property that is not there when the relay has nothing to say in it. -/
def unlessEmpty (s : String) : Json.Value := if s = "" then .undefined else .string (utf16 s)

/-- What the client is to hear of a message of the relay. -/
def meant (msg : RelayMessage) : Heard :=
  if msg.kind = "deliver" ∧ msg.envelope.isSome then
    .deliver ((msg.envelope.map envelopeValue).getD .undefined)
  else if msg.kind = "ack" then .ack (unlessEmpty msg.clientRef) (unlessEmpty msg.envelopeID)
  else if msg.kind = "status" then .status (unlessEmpty msg.envelopeID) (unlessEmpty msg.status)
  else .nothing

/-! ### From the client to the relay -/

theorem isInt64_of_safe {n : Int} (safe : IsSafe n) : GoJson.IsInt64 n := by
  obtain ⟨low, high⟩ := safe
  constructor <;> omega

theorem store_int {n : Int} (safe : IsSafe n) (held : Int64) :
    int.store held (.scalar (.number (GoJson.appendInt n))) = some (Int64.ofInt n) := by
  change (GoJson.parseInt (GoJson.appendInt n)).map Int64.ofInt = _
  rw [GoJson.parseInt_appendInt (isInt64_of_safe safe), Option.map_some]

theorem outgoing_names : AreNames ["recipientId", "recipientDevice", "senderId", "senderDevice",
    "type", "ciphertext", "timestamp"] := ⟨by decide, by decide⟩

theorem sends_outgoing {e : Outgoing} (safe : e.IsSafe) : Sends e.value (.object [
    ("recipientId", .scalar (.string (goString e.recipientId))),
    ("recipientDevice", .scalar (.number (GoJson.appendInt e.recipientDevice))),
    ("senderId", .scalar (.string (goString e.senderId))),
    ("senderDevice", .scalar (.number (GoJson.appendInt e.senderDevice))),
    ("type", .scalar (.number (GoJson.appendInt e.type))),
    ("ciphertext", .scalar (.string (goString e.ciphertext))),
    ("timestamp", .scalar (.number (GoJson.appendInt e.timestamp)))]) 1 :=
  sends_object outgoing_names <|
    .cons (sends_string _ _) <| .cons (sends_number safe.recipientDevice _) <|
    .cons (sends_string _ _) <| .cons (sends_number safe.senderDevice _) <|
    .cons (sends_number safe.type _) <| .cons (sends_string _ _) <|
    .cons (sends_number safe.timestamp _) .nil

/-- The names of the client's envelopes are those of the relay's. -/
theorem store_outgoing {e : Outgoing} (safe : e.IsSafe) :
    envelope.store envelope.zero (goValue (written e.value)) = some e.received := by
  rw [(sends_outgoing safe).read]
  simp [envelope, struct, envelopeFields, storeMember, fieldOf, field, Outgoing.received,
    store_int safe.recipientDevice, store_int safe.senderDevice, store_int safe.type,
    store_int safe.timestamp]

open GoJson (Value Scalar)

/-- What the relay is told in a property that may be missing. -/
def told (name : String) (v : Option Value) : List (String × Value) := (v.map (name, ·)).toList

/-- The members of a request, as Go reads them. -/
def Request.members : Request → List (String × Value)
  | .sendEnvelope e clientRef =>
    [("kind", .scalar (.string "send")), ("envelope", goValue (written e.value))] ++
      told "clientRef" (clientRef.map fun ref => .scalar (.string (goString ref)))
  | .sendReceipt envelopeId status targetId targetDevice =>
    [("kind", .scalar (.string "receipt")), ("envelopeId", .scalar (.string (goString envelopeId))),
      ("status", .scalar (.string (goString status))), ("targetId", .scalar (.string (goString targetId))),
      ("targetDevice", .scalar (.number (GoJson.appendInt targetDevice)))]
  | .registerPush token =>
    [("kind", .scalar (.string "register-push")), ("token", .scalar (.string (goString token)))]

theorem send_names : AreNames ["kind", "envelope", "clientRef"] := ⟨by decide, by decide⟩

theorem receipt_names : AreNames ["kind", "envelopeId", "status", "targetId", "targetDevice"] :=
  ⟨by decide, by decide⟩

theorem register_names : AreNames ["kind", "token"] := ⟨by decide, by decide⟩

/-- A request is sent property by property. -/
theorem sends_request {request : Request} (safe : request.IsSafe) :
    Sends request.value (.object request.members) 2 := by
  have text (s : String) : Sends (.string (utf16 s)) (.scalar (.string s)) 1 := by
    have sends := sends_string (utf16 s) 1
    rw [goString_utf16] at sends
    exact sends
  cases request with
  | sendEnvelope e clientRef =>
    have inner : Sends e.value (goValue (written e.value)) 1 :=
      ⟨(sends_outgoing safe).held, (sends_outgoing safe).there, rfl, (sends_outgoing safe).within⟩
    have behind : SendsMembers 1 [("clientRef", (clientRef.map Json.Value.string).getD .undefined)]
        (told "clientRef" (clientRef.map fun ref => .scalar (.string (goString ref)))) := by
      cases clientRef with
      | none => exact .absent .nil
      | some ref => exact .cons (sends_string ref 1) .nil
    exact sends_object send_names (.cons (text _) (.cons inner behind))
  | sendReceipt envelopeId status targetId targetDevice =>
    exact sends_object receipt_names <| .cons (text _) <| .cons (sends_string _ _) <|
      .cons (sends_string _ _) <| .cons (sends_string _ _) <| .cons (sends_number safe _) .nil
  | registerPush token =>
    exact sends_object register_names <| .cons (text _) <| .cons (sends_string _ _) .nil

/-- A frame of the client, as the relay parses it. -/
theorem parse_frame {request : Request} (safe : request.IsSafe) :
    ∃ data, request.frame = some data ∧ GoJson.parse data = some (.object request.members) := by
  obtain ⟨t, text, parsed⟩ := (sends_request safe).parsed (by decide)
  exact ⟨utf8Text t, by rw [Request.frame, text]; rfl, parsed⟩

theorem store_envelope {e : Outgoing} (safe : e.IsSafe) :
    (pointer envelope).store none (goValue (written e.value)) = some (some e.received) := by
  have stored := store_outgoing safe
  have something : isNull (goValue (written e.value)) = false := by
    rw [(sends_outgoing safe).read]
    rfl
  simp [pointer, something, stored]

/-- A submission, whatever its envelope is. -/
theorem store_send {v : Value} {e : Envelope} (stored : (pointer envelope).store none v = some (some e))
    (ref : Option String) : relayMessage.store relayMessage.zero (.object
      ([("kind", .scalar (.string "send")), ("envelope", v)] ++
        told "clientRef" (ref.map fun s => .scalar (.string s)))) =
      some { kind := "send", envelope := some e, clientRef := ref.getD "" } := by
  cases ref <;>
    simp [told, relayMessage, struct, messageFields, storeMember, fieldOf, field, omitempty, stored]

theorem store_members {request : Request} (safe : request.IsSafe) :
    relayMessage.store relayMessage.zero (.object request.members) = some request.received := by
  cases request with
  | sendEnvelope e clientRef =>
    have stored := store_send (store_envelope safe) (clientRef.map goString)
    rw [Option.map_map] at stored
    exact stored
  | sendReceipt envelopeId status targetId targetDevice =>
    have stored := store_int safe 0
    simp [Request.members, relayMessage, struct, messageFields, storeMember, fieldOf, field, omitempty,
      Request.received, stored]
  | registerPush token =>
    simp [Request.members, relayMessage, struct, messageFields, storeMember, fieldOf, field, omitempty,
      Request.received]

/-- The relay reads a frame of the client. -/
theorem unmarshal_frame {request : Request} (safe : request.IsSafe) :
    ∃ data, request.frame = some data ∧ unmarshal data = some request.received := by
  obtain ⟨data, sent, parsed⟩ := parse_frame safe
  refine ⟨data, sent, ?_⟩
  rw [unmarshal, Codec.unmarshal, parsed, Option.bind_some, store_members safe]

/-! ### From the relay to the client -/

theorem plain_envelope : envelope.Plain := by
  apply plain_struct
  simp only [envelopeFields, List.forall_mem_cons]
  exact ⟨plain_field plain_string, plain_field plain_string, plain_field plain_int,
    plain_field plain_string, plain_field plain_int, plain_field plain_int, plain_field plain_string,
    plain_field plain_int, List.forall_mem_nil _⟩

theorem plain_relayMessage : relayMessage.Plain := by
  apply plain_struct
  simp only [messageFields, List.forall_mem_cons]
  exact ⟨plain_field plain_string, plain_omitempty (plain_pointer plain_envelope),
    plain_omitempty plain_string, plain_omitempty plain_int64, plain_omitempty plain_string,
    plain_omitempty plain_string, plain_omitempty plain_string, plain_omitempty plain_int,
    plain_omitempty plain_string, List.forall_mem_nil _⟩

theorem envelope_distinct : (envelopeFields.map StructField.name).Nodup := by decide

theorem message_distinct : (messageFields.map StructField.name).Nodup := by decide

/-- The client is given the envelope of the relay. -/
theorem jsValue_envelope (e : Envelope) : jsValue (shown (envelope.encode e)) = envelopeValue e := by
  have members : shownFields envelopeFields e = [("id", string.encode e.id),
      ("recipientId", string.encode e.recipientID), ("recipientDevice", int.encode e.recipientDevice),
      ("senderId", string.encode e.senderID), ("senderDevice", int.encode e.senderDevice),
      ("type", int.encode e.type), ("ciphertext", string.encode e.ciphertext),
      ("timestamp", int.encode e.timestamp)] := rfl
  have distinct := envelope_distinct.sublist (shownFields_names envelopeFields e)
  change jsValue (shown (.object (shownFields envelopeFields e))) = _
  rw [jsValue_object distinct, members]
  simp only [List.map_cons, List.map_nil, jsValue_number, jsValue_text]
  rfl

/-- A property that `omitempty` leaves out. -/
theorem getD_omitted {s : String} :
    ((if s = string.zero then none else some (string.encode s)).map fun v => jsValue (shown v)).getD
      .undefined = unlessEmpty s := by
  have zero : string.zero = "" := rfl
  rw [unlessEmpty, zero]
  by_cases empty : s = ""
  · rw [if_pos empty, if_pos empty]
    rfl
  · rw [if_neg empty, if_neg empty]
    exact jsValue_text s

/-- The properties of a message of the relay. -/
theorem get_message (msg : RelayMessage) {v : Json.Value}
    (read : v = jsValue (shown (relayMessage.encode msg))) :
    v.get "kind" = .string (utf16 msg.kind) ∧
      v.get "envelope" = (msg.envelope.map envelopeValue).getD .undefined ∧
      v.get "envelopeId" = unlessEmpty msg.envelopeID ∧
      v.get "clientRef" = unlessEmpty msg.clientRef ∧ v.get "status" = unlessEmpty msg.status := by
  have property {f : StructField RelayMessage} (member : f ∈ messageFields) : v.get f.name =
      ((f.shows msg).map fun v => jsValue (shown v)).getD .undefined := by
    rw [read]
    exact get_shown message_distinct member msg
  refine ⟨?_, ?_, ?_, ?_, ?_⟩
  · exact (property (.head _)).trans (jsValue_text msg.kind)
  · refine (property (.tail _ (.head _))).trans ?_
    cases carried : msg.envelope with
    | none => simp [omitempty, pointer, carried]
    | some e => simp [omitempty, pointer, carried, jsValue_envelope]
  · exact (property (.tail _ (.tail _ (.head _)))).trans getD_omitted
  · exact (property (.tail _ (.tail _ (.tail _ (.tail _ (.head _)))))).trans getD_omitted
  · exact (property (.tail _ (.tail _ (.tail _ (.tail _ (.tail _ (.head _))))))).trans getD_omitted

theorem truthy_envelope (carried : Option Envelope) :
    ((carried.map envelopeValue).getD .undefined).truthy = carried.isSome := by
  cases carried <;> rfl

/-- The client hears a frame of the relay. -/
theorem hear_writeJSON (msg : RelayMessage) : hear (writeJSON msg) = some (meant msg) := by
  have parsed := json_parse_encodeLine (plain_relayMessage msg)
  rw [hear, writeJSON, parsed, Option.bind_some]
  obtain ⟨kind, carried, envelopeID, clientRef, status⟩ := get_message msg rfl
  have solid : (jsValue (shown (relayMessage.encode msg))).nullish = false := by
    have distinct := message_distinct.sublist (shownFields_names messageFields msg)
    change (jsValue (shown (.object (shownFields messageFields msg)))).nullish = false
    rw [jsValue_object distinct]
    rfl
  have same (name : String) : Json.Value.string (utf16 msg.kind) = .string (utf16 name) ↔
      msg.kind = name :=
    ⟨fun same => utf16_injective (Json.Primitive.string.inj (Json.Value.primitive.inj same)),
      congrArg fun s => Json.Value.string (utf16 s)⟩
  simp only [listen, meant, solid, kind, carried, envelopeID, clientRef, status, truthy_envelope, same,
    Bool.false_eq_true, if_false]
  split
  · rfl
  split
  · rfl
  split
  · rfl
  · rfl

/-- The message that the listener hands to `send` after `onDeliver`. -/
def confirmation (envelope : Json.Value) : Json.Value := object [
  ("kind", .string (utf16 "receipt")), ("envelopeId", envelope.get "id"),
  ("status", .string (utf16 "delivered")), ("targetId", envelope.get "senderId"),
  ("targetDevice", envelope.get "senderDevice")]

/-- The receipt of an envelope, as the relay reads it. -/
def receipt (e : Envelope) : RelayMessage where
  kind := "receipt"
  envelopeID := e.id
  status := "delivered"
  targetID := e.senderID
  targetDevice := e.senderDevice

theorem confirmation_value (e : Envelope) : confirmation (envelopeValue e) = (Request.sendReceipt
    (utf16 e.id) (utf16 "delivered") (utf16 e.senderID) e.senderDevice.toInt).value := by
  have id : (envelopeValue e).get "id" = .string (utf16 e.id) := by
    rw [envelopeValue, get_object]
    rfl
  have sender : (envelopeValue e).get "senderId" = .string (utf16 e.senderID) := by
    rw [envelopeValue, get_object]
    rfl
  have device : (envelopeValue e).get "senderDevice" = number e.senderDevice.toInt := by
    rw [envelopeValue, get_object]
    rfl
  rw [confirmation, id, sender, device, Request.value]

theorem unmarshal_confirmation {e : Envelope} (safe : IsSafe e.senderDevice.toInt) :
    ∃ data, (Json.stringify (confirmation (envelopeValue e))).map utf8Text = some data ∧
      unmarshal data = some (receipt e) := by
  have confirms : (Request.sendReceipt (utf16 e.id) (utf16 "delivered") (utf16 e.senderID)
      e.senderDevice.toInt).IsSafe := safe
  obtain ⟨data, sent, understood⟩ := unmarshal_frame confirms
  refine ⟨data, by rw [confirmation_value]; exact sent, understood.trans ?_⟩
  simp only [Request.received, receipt, goString_utf16, Int64.ofInt_toInt]

/-- **The two programs speak one language.** Whatever the client submits, confirms or
registers, its frame is read by the relay to the same message: every property by the
name and the type that the relay knows it under, a missing one as the zero value, and
text with half a surrogate pair replaced. Whatever the relay writes, with integers of any
size, the client calls what is meant, with the properties that the relay filled in and
nothing in place of those that it left out. And where the relay delivers an envelope, the
receipt that comes back names its id and its sender, unless the sender's device number is
beyond what the client can hold. -/
theorem client_and_relay_speak_one_language :
    (∀ request : Request, request.IsSafe →
      ∃ data, request.frame = some data ∧ unmarshal data = some request.received) ∧
    (∀ msg : RelayMessage, hear (writeJSON msg) = some (meant msg)) ∧
    ∀ e : Envelope, IsSafe e.senderDevice.toInt →
      ∃ v data, hear (writeJSON (deliver e)) = some (.deliver v) ∧
        (Json.stringify (confirmation v)).map utf8Text = some data ∧ unmarshal data = some (receipt e) := by
  refine ⟨fun _ safe => unmarshal_frame safe, hear_writeJSON, fun e safe => ?_⟩
  obtain ⟨data, sent, understood⟩ := unmarshal_confirmation safe
  exact ⟨envelopeValue e, data, hear_writeJSON (deliver e), sent, understood⟩

/-- A letter for Bob, under Alice's name. -/
def letter : Outgoing where
  recipientId := utf16 "bob"
  recipientDevice := 2
  senderId := utf16 "alice"
  senderDevice := 1
  type := 3
  ciphertext := utf16 "AAEC"
  timestamp := 1700000000000

theorem letter_safe : letter.IsSafe := by
  constructor <;> (unfold letter; constructor <;> decide)

def letterFrame : RelayMessage :=
  { kind := "send", envelope := some ⟨"", "bob", 2, "alice", 1, 3, "AAEC", 1700000000000⟩ }

theorem letter_received : (Request.sendEnvelope letter none).received = letterFrame := by
  simp [Request.received, Outgoing.received, letter, letterFrame, goString_utf16]

/-- What Bob is delivered. -/
def arrived : Envelope := ⟨"env-1", "bob", 2, "mallory", 9, 3, "AAEC", 1700000000000⟩

/-- The letter, its delivery and the receipt of it. -/
theorem letter_is_understood :
    (∃ data, (Request.sendEnvelope letter none).frame = some data ∧
      unmarshal data = some letterFrame) ∧
    hear (writeJSON (deliver arrived)) = some (.deliver (envelopeValue arrived)) ∧
    ∃ v data, hear (writeJSON (deliver arrived)) = some (.deliver v) ∧
      (Json.stringify (confirmation v)).map utf8Text = some data ∧
      unmarshal data = some
        { kind := "receipt", envelopeID := "env-1", status := "delivered", targetID := "mallory"
          targetDevice := 9 } := by
  obtain ⟨submits, hears, confirms⟩ := client_and_relay_speak_one_language
  have sent := submits (.sendEnvelope letter none) letter_safe
  rw [letter_received] at sent
  exact ⟨sent, hears (deliver arrived), confirms arrived (by constructor <;> decide)⟩

/-! ### From one client to another -/

/-- A frame that the relay has read. -/
structure Sent where
  userID : String
  deviceID : Int64
  data : Bytes

/-- The relay and what it has read, frame by frame. -/
structure Wire where
  relay : Relay
  sent : List Sent := []

/-- The bytes of a frame from a connection, or anything else that happens. -/
inductive Event where
  | data (c : ConnId) (data : Bytes) (enqueuedAt now : Int) (wrote : Bool)
  | other (e : RelayProcess.Event)

/-- The relay is told frames as bytes only. -/
def Unframed : RelayProcess.Event → Prop
  | .act (.at _ (.frame ..)) => False
  | _ => True

instance : DecidablePred Unframed
  | .act (.connect ..) => .isTrue trivial
  | .act (.at _ move) => by cases move <;> first | exact .isTrue trivial | exact .isFalse id
  | .restart .. => .isTrue trivial

/-- The relay reads a frame, as `readPump` does. -/
def Wire.read (w : Wire) (c : ConnId) (data : Bytes) (enqueuedAt now : Int) (wrote : Bool) :
    Option Wire := do
  let cl ← w.relay.clients c
  let relay ← service.step w.relay (.act (.at c (.frame (unmarshal data) enqueuedAt now wrote)))
  return { relay, sent := ⟨cl.userID, cl.deviceID, data⟩ :: w.sent }

def wire : Machine Wire Event where
  start w := service.start w.relay ∧ w.sent = []
  step w
    | .data c data enqueuedAt now wrote => w.read c data enqueuedAt now wrote
    | .other e =>
      if Unframed e then (service.step w.relay e).map fun relay => { w with relay } else none

variable {s s' : Relay} {w w' : Wire} {a : Action} {c : ConnId} {cl : Client}

/-- What a connection has in its channel, in the writer's hand and behind it was placed
on its channel. -/
structure Carried (cl : Client) : Prop where
  out : ∀ msg ∈ cl.out, msg ∈ cl.placed
  hand : ∀ msg, cl.writer = .writing msg → msg ∈ cl.placed
  written : ∀ msg ∈ cl.written, msg ∈ cl.placed

def AllCarried (s : Relay) : Prop := ∀ c cl, s.clients c = some cl → Carried cl

theorem AllCarried.modify (all : AllCarried s) {f : Client → Client}
    (kept : ∀ cl, s.clients c = some cl → Carried cl → Carried (f cl)) : AllCarried (s.modify c f) := by
  intro d cl' after
  rcases modify_found after with ⟨rfl, cl, before, rfl⟩ | ⟨_, before⟩
  · exact kept cl before (all d cl before)
  · exact all d cl' before

/-- A move of a handler leaves the frames alone. -/
theorem AllCarried.goto (all : AllCarried s) (c : ConnId) (pc : Pc) : AllCarried (s.goto c pc) :=
  all.modify fun _ _ carried => ⟨carried.out, carried.hand, carried.written⟩

theorem AllCarried.sent {target : ConnId} {msg : RelayMessage} (all : AllCarried s)
    (sent : s.send target msg = some s') : AllCarried s' := by
  obtain ⟨_, _, _, ⟨_, rfl⟩ | ⟨_, rfl⟩⟩ := send_cases sent
  · refine all.modify fun cl _ carried => ⟨?_, ?_, ?_⟩
    · intro msg' member
      rcases List.mem_append.mp member with before | new
      · exact List.mem_append_left _ (carried.out msg' before)
      · exact List.mem_append_right _ new
    · exact fun msg' writing => List.mem_append_left _ (carried.hand msg' writing)
    · exact fun msg' member => List.mem_append_left _ (carried.written msg' member)
  · exact all

/-- No step shows a socket anything that was not placed on its channel. -/
theorem step_carried (all : AllCarried s) (moved : s.step a = some s') : AllCarried s' := by
  cases step_moves moved with
  | connect userID deviceID =>
    intro d cl' after
    rcases connect_found after with rfl | before
    · exact ⟨List.forall_mem_nil _, fun _ writing => Writer.noConfusion writing, List.forall_mem_nil _⟩
    · exact all d cl' before
  | flush _ _ sent => exact (all.sent sent).goto _ _
  | startWriter _ _ =>
    exact all.modify fun _ _ carried =>
      ⟨carried.out, fun _ writing => Writer.noConfusion writing, carried.written⟩
  | take found writer out =>
    refine all.modify fun cl' found' carried => ?_
    rw [found] at found'
    cases found'
    have waiting := carried.out
    rw [out] at waiting
    refine ⟨fun msg member => waiting msg (List.mem_cons_of_mem _ member), ?_, carried.written⟩
    intro msg writing
    cases writing
    exact waiting _ List.mem_cons_self
  | write found writer =>
    refine all.modify fun cl' found' carried => ?_
    rw [found] at found'
    cases found'
    refine ⟨carried.out, fun _ writing => Writer.noConfusion writing, ?_⟩
    intro msg member
    rcases List.mem_append.mp member with before | new
    · exact carried.written msg before
    · rw [List.mem_singleton.mp new]
      exact carried.hand _ writer
  | writeError _ _ =>
    exact all.modify fun _ _ carried =>
      ⟨carried.out, fun _ writing => Writer.noConfusion writing, carried.written⟩
  | drained _ _ _ _ =>
    exact all.modify fun _ _ carried =>
      ⟨carried.out, fun _ writing => Writer.noConfusion writing, carried.written⟩
  | ignore _ _ => exact all
  | registerPush _ _ => exact all
  | sendLive _ _ sent => exact (all.sent sent).goto _ _
  | ack _ _ _ sent => exact (all.sent sent).goto _ _
  | forward _ _ sent => exact (all.sent sent).goto _ _
  | closeOut _ _ _ => exact all.modify fun _ _ carried => ⟨carried.out, carried.hand, carried.written⟩
  | closeConn _ _ => exact all.modify fun _ _ carried => ⟨carried.out, carried.hand, carried.written⟩
  | expire _ => exact all.modify fun _ _ carried => ⟨carried.out, carried.hand, carried.written⟩
  | _ => exact all.goto _ _

/-- Every submission came in a frame of the connection that it is of. -/
def AllSent (w : Wire) : Prop :=
  ∀ sub ∈ w.relay.submissions, ∃ sent ∈ w.sent, ∃ msg, unmarshal sent.data = some msg ∧
    msg.kind = "send" ∧ msg.envelope = some sub.envelope ∧ sent.userID = sub.userID ∧
    sent.deviceID = sub.deviceID

theorem AllSent.kept (all : AllSent w) (same : w'.relay.submissions = w.relay.submissions)
    (grown : w.sent ⊆ w'.sent) : AllSent w' := by
  intro sub member
  rw [same] at member
  obtain ⟨sent, before, rest⟩ := all sub member
  exact ⟨sent, grown before, rest⟩

/-- An event that is not a frame submits nothing. -/
theorem submissions_of_unframed {e : RelayProcess.Event} (unframed : Unframed e)
    (moved : service.step s e = some s') : s'.submissions = s.submissions := by
  cases e with
  | restart pusher readable now =>
    cases moved
    rfl
  | act a =>
    rcases step_submissions moved with same | ⟨c, cl, msg, sub, enqueuedAt, now, wrote, rfl, _⟩
    · exact same
    · exact unframed.elim

/-- What a frame submits is what its bytes say. -/
theorem read_sent {data : Bytes} {enqueuedAt now : Int} {wrote : Bool} (all : AllSent w)
    (read : w.read c data enqueuedAt now wrote = some w') : AllSent w' := by
  simp only [Wire.read, Option.bind_eq_bind, Option.bind_eq_some_iff, Option.pure_def,
    Option.some.injEq] at read
  obtain ⟨cl, found, relay, moved, rfl⟩ := read
  change w.relay.step (.at c (.frame (unmarshal data) enqueuedAt now wrote)) = some relay at moved
  have older := List.subset_cons_self (⟨cl.userID, cl.deviceID, data⟩ : Sent) w.sent
  rcases step_submissions moved with same | ⟨d, cl', msg, sub, _, _, _, step, found', submitted, added⟩
  · exact all.kept same older
  · have own : c = d ∧ unmarshal data = some msg := by
      injection step with own frame
      injection frame with message
      exact ⟨own, message⟩
    obtain ⟨rfl, message⟩ := own
    rw [found] at found'
    cases found'
    intro sub' member
    rw [show _ = _ from added] at member
    rcases List.mem_cons.mp member with rfl | before
    · simp only [submits, Option.ite_none_right_eq_some, Option.map_eq_some_iff] at submitted
      obtain ⟨send, envelope, carried, rfl⟩ := submitted
      exact ⟨_, List.mem_cons_self, msg, message, send, carried, rfl, rfl⟩
    · obtain ⟨sent, earlier, rest⟩ := all sub' before
      exact ⟨sent, older earlier, rest⟩

/-- What holds of the relay over the wire: it is a run of the relay, and it only shows
what it was sent. -/
structure Honest (w : Wire) : Prop where
  reachable : service.Reachable w.relay
  carried : AllCarried w.relay
  sent : AllSent w

theorem carried_of_step {e : RelayProcess.Event} (all : AllCarried s)
    (moved : service.step s e = some s') : AllCarried s' := by
  cases e with
  | act a => exact step_carried all moved
  | restart pusher readable now =>
    cases moved
    intro c cl found
    cases found

theorem reachable_honest (reached : wire.Reachable w) : Honest w := by
  refine reached.invariant Honest ?_ ?_
  · rintro w ⟨started, nothing⟩
    have fresh := started
    obtain ⟨path, pusher, begun⟩ := started
    refine ⟨.start fresh, ?_, ?_⟩
    · intro c cl found
      rw [begun] at found
      cases found
    · intro sub member
      rw [begun] at member
      cases member
  · rintro w event w' honest _ moved
    cases event with
    | data c data enqueuedAt now wrote =>
      have read := read_sent honest.sent moved
      simp only [wire, Wire.read, Option.bind_eq_bind, Option.bind_eq_some_iff, Option.pure_def,
        Option.some.injEq] at moved
      obtain ⟨cl, found, relay, moved, rfl⟩ := moved
      exact ⟨.step honest.reachable trivial moved, carried_of_step honest.carried moved, read⟩
    | other e =>
      simp only [wire, Option.ite_none_right_eq_some, Option.map_eq_some_iff] at moved
      obtain ⟨unframed, relay, moved, rfl⟩ := moved
      refine ⟨.step honest.reachable trivial moved, carried_of_step honest.carried moved, ?_⟩
      exact honest.sent.kept (submissions_of_unframed unframed moved) fun _ member => member

/-- The envelope that is sent on: what was submitted, under a new id and the name of who
submitted it. -/
def stamped (sent : Sent) (id : String) (envelope : Envelope) : Envelope :=
  { envelope with id, senderID := sent.userID, senderDevice := sent.deviceID }

/-- A message that is heard as an envelope is one that delivers it. -/
theorem deliver_of_meant {msg : RelayMessage} {v : Json.Value} (heard : meant msg = .deliver v) :
    msg.kind = "deliver" ∧ ∃ env, msg.envelope = some env ∧ v = envelopeValue env := by
  unfold meant at heard
  split at heard
  · next delivers =>
    obtain ⟨kind, carried⟩ := delivers
    obtain ⟨env, carried⟩ := Option.isSome_iff_exists.mp carried
    rw [carried] at heard
    cases heard
    exact ⟨kind, env, carried, rfl⟩
  split at heard
  · cases heard
  split at heard
  · cases heard
  · cases heard

/-- What a client hears is what a frame carried to it, under the name of who sent the frame. -/
theorem sent_of_heard {msg : RelayMessage} {v : Json.Value} (reached : wire.Reachable w)
    (found : w.relay.clients c = some cl) (written : msg ∈ cl.written)
    (heard : hear (writeJSON msg) = some (.deliver v)) :
    ∃ sent ∈ w.sent, ∃ m envelope id, unmarshal sent.data = some m ∧ m.kind = "send" ∧
      m.envelope = some envelope ∧ v = envelopeValue (stamped sent id envelope) ∧
      envelope.recipientID = cl.userID ∧ envelope.recipientDevice = cl.deviceID := by
  have honest := reachable_honest reached
  obtain ⟨wired, sound⟩ := RelayAddressing.reachable_sound honest.reachable
  have placed := (honest.carried c cl found).written msg written
  rw [hear_writeJSON, Option.some_inj] at heard
  obtain ⟨deliver, env, carried, rfl⟩ := deliver_of_meant heard
  obtain ⟨env', carried', keyed, sub, member, made⟩ := sound.frames c cl found msg placed deliver
  rw [carried] at carried'
  cases carried'
  rw [wired.keys c cl found] at keyed
  obtain ⟨user, device⟩ := routeKey_injective keyed
  obtain ⟨sent, frame, m, message, send, submitted, by_user, by_device⟩ := honest.sent sub member
  refine ⟨sent, frame, m, sub.envelope, sub.id, message, send, submitted, ?_, ?_, ?_⟩
  · rw [made, stamped, by_user, by_device]
  · rw [← user, made]
  · rw [← device, made]

/-- A frame of the client's own that sends an envelope is one it was asked to send. -/
theorem asked_of_frame {request : Request} {data : Bytes} {m : RelayMessage} {envelope : Envelope}
    (safe : request.IsSafe) (own : request.frame = some data) (message : unmarshal data = some m)
    (submitted : m.envelope = some envelope) :
    ∃ e ref, request = .sendEnvelope e ref ∧ envelope = e.received := by
  obtain ⟨data, put, understood⟩ := unmarshal_frame safe
  rw [own] at put
  cases put
  rw [message, Option.some_inj] at understood
  subst understood
  cases request with
  | sendEnvelope e ref => exact ⟨e, ref, rfl, (Option.some.inj submitted).symm⟩
  | sendReceipt _ _ _ _ => cases submitted
  | registerPush _ => cases submitted

/-- **What a client hears was sent to it, by whom it says.** Over any run of the relay,
with bytes of any kind from anyone: an envelope that the listener of a connection is
called with is one that a frame carried, to the user and the device of the connection,
and its sender is the one that the connection of that frame had proved to be. Where the
frame is one of the client's own, with numbers that it can hold, it is an envelope that the
client was asked to send, but for half surrogate pairs. -/
theorem heard_envelopes_were_sent {msg : RelayMessage} {v : Json.Value} (reached : wire.Reachable w)
    (found : w.relay.clients c = some cl) (written : msg ∈ cl.written)
    (heard : hear (writeJSON msg) = some (.deliver v)) :
    ∃ sent ∈ w.sent, ∃ m envelope id, unmarshal sent.data = some m ∧ m.kind = "send" ∧
      m.envelope = some envelope ∧ v = envelopeValue (stamped sent id envelope) ∧
      envelope.recipientID = cl.userID ∧ envelope.recipientDevice = cl.deviceID ∧
      ∀ request : Request, request.IsSafe → request.frame = some sent.data →
        ∃ e ref, request = .sendEnvelope e ref ∧ envelope = e.received := by
  obtain ⟨sent, frame, m, envelope, id, message, send, submitted, stamp, user, device⟩ :=
    sent_of_heard reached found written heard
  exact ⟨sent, frame, m, envelope, id, message, send, submitted, stamp, user, device,
    fun _ safe own => asked_of_frame safe own message submitted⟩

/-- A schedule without frames is a schedule of the relay. -/
theorem reachable_of_unframed {schedule : List RelayProcess.Event} (reached : wire.Reachable w)
    (unframed : ∀ e ∈ schedule, Unframed e) (ran : service.run w.relay schedule = some s) :
    wire.Reachable { w with relay := s } := by
  induction schedule generalizing w with
  | nil =>
    cases ran
    exact reached
  | cons e rest ih =>
    simp only [Machine.run, Option.bind_eq_some_iff] at ran
    obtain ⟨middle, moved, ran⟩ := ran
    have step : wire.step w (.other e) = some { w with relay := middle } := by
      simp [wire, unframed e List.mem_cons_self, moved]
    have later : wire.Reachable { w with relay := middle } := .step reached trivial step
    exact @ih ⟨middle, w.sent⟩ later (fun e member => unframed e (List.mem_cons_of_mem _ member)) ran

/-- Both connect, as Mallory and as Bob; what Mallory has Alice say arrives. -/
def beforeLetter : List RelayProcess.Event :=
  [ .act (.connect "mallory" 9), .act (.at 0 (.register 0 true)), .act (.at 0 .startWriter),
    .act (.connect "bob" 2), .act (.at 1 (.register 0 true)), .act (.at 1 .startWriter) ]

def afterLetter : List RelayProcess.Event :=
  [ .act (.at 0 .sendLive), .act (.at 1 .take), .act (.at 1 (.write true)) ]

theorem letter_is_heard_from_mallory : ∃ w cl, wire.Reachable w ∧ w.relay.clients 1 = some cl ∧
    deliver arrived ∈ cl.written ∧
    hear (writeJSON (deliver arrived)) = some (.deliver (envelopeValue arrived)) ∧
    ∃ sent ∈ w.sent, ∃ m envelope id, unmarshal sent.data = some m ∧ m.kind = "send" ∧
      m.envelope = some envelope ∧ envelopeValue arrived = envelopeValue (stamped sent id envelope) ∧
      envelope.recipientID = cl.userID ∧ envelope.recipientDevice = cl.deviceID ∧
      ∀ request : Request, request.IsSafe → request.frame = some sent.data →
        ∃ e ref, request = .sendEnvelope e ref ∧ envelope = e.received := by
  have safe : (Request.sendEnvelope letter none).IsSafe := letter_safe
  obtain ⟨data, put, understood⟩ := unmarshal_frame safe
  rw [letter_received] at understood
  let fresh := started (newHub "relay.json" true) none
  have observed : ((service.run fresh beforeLetter).bind fun s => (s.clients 0).bind fun cl =>
      (s.step (.at 0 (.frame (some letterFrame) 1 1 true))).bind fun s =>
        (service.run s afterLetter).bind fun s => (s.clients 1).map fun cl => cl.written) =
      some [deliver arrived] := by decide +kernel
  simp only [Option.bind_eq_some_iff, Option.map_eq_some_iff] at observed
  obtain ⟨before, ran, mallory, connected, routed, moved, after, delivered, bob, found, written⟩ :=
    observed
  have begun : wire.Reachable ⟨fresh, []⟩ := .start ⟨⟨"relay.json", true, rfl⟩, rfl⟩
  have ready := reachable_of_unframed begun (by decide) ran
  have read : wire.step ⟨before, []⟩ (.data 0 data 1 1 true) =
      some ⟨routed, [⟨mallory.userID, mallory.deviceID, data⟩]⟩ := by
    have step : service.step before (.act (.at 0 (.frame (some letterFrame) 1 1 true))) = some routed :=
      moved
    simp [wire, Wire.read, connected, understood, step]
  have reached := reachable_of_unframed (.step ready trivial read) (by decide) delivered
  have member : deliver arrived ∈ bob.written := by
    rw [written]
    exact List.mem_singleton_self _
  have heard : hear (writeJSON (deliver arrived)) = some (.deliver (envelopeValue arrived)) :=
    hear_writeJSON _
  exact ⟨_, bob, reached, found, member, heard, heard_envelopes_were_sent reached found member heard⟩

end Hwfa.RelayWire
