import Hwfa.DiscoveryClientRecovery
import Hwfa.DiscoveryHandlers
import Hwfa.JsonBodies
import Hwfa.MediaService
import Hwfa.Urls

/-!
Discovery over HTTP: the requests of `packages/client/src/discovery.ts`, the routes of
`backend/discovery/main.go` that they come in by, and what the client makes of the replies.

The types of both sides are kept in step by hand.  A number of the client is an integer
below two to the power 53, as the numbers of its keys and its devices are.
-/

namespace Hwfa.DiscoveryApi

open Hwfa.DiscoveryClientRecovery (Failure Response elements member settles thrown)
open Hwfa.DiscoveryHandlers
open Hwfa.DiscoveryService (Service)
open Hwfa.DiscoveryStore
open Hwfa.GoJson (Bytes Scalar Value)
open Hwfa.GoStructs Hwfa.JsonBodies Hwfa.JsonReaders Hwfa.JsonWriters
open Hwfa.Json (Text utf16)
open Hwfa.MediaService (authHeaders textOf)
open Hwfa.MediaSigner (text)
open Hwfa.Urls (slash dot)

/-! ### Routes -/

/-- A segment of a path, decoded; the router sends a path with an empty one, or one that
leads elsewhere, away. -/
def segment (raw : Bytes) : Option String :=
  if raw = [] ∨ raw = [dot] ∨ raw = [dot, dot] then none
  else ((PercentCoding.decode raw).bind decode8).map String.ofList

def segments (path : Bytes) : Option (List String) := ((path.splitOn slash).drop 1).mapM segment

/-- The patterns of `main`, of which a literal goes before a wildcard. -/
def mux (method : String) : List String → Option Route
  | ["v1", "accounts"] => if method = "DELETE" then some .deleteAccount else none
  | ["v1", "accounts", "register"] => if method = "POST" then some .register else none
  | ["v1", "accounts", "verify"] => if method = "POST" then some .verify else none
  | ["v1", "auth", "refresh"] => if method = "POST" then some .refresh else none
  | ["v1", "keys", name] =>
    if method = "GET" then some (if name = "pool" then .keyPool else .fetchKeys name)
    else if method = "PUT" ∧ name = "upload" then some .uploadKeys else none
  | ["v1", "contacts", "salt"] => if method = "GET" then some .salt else none
  | ["v1", "contacts", "intersect"] => if method = "POST" then some .intersect else none
  | ["v1", "devices"] => if method = "GET" then some .myDevices else none
  | ["v1", "devices", name] =>
    if method = "POST" then
      if name = "link-token" then some .linkToken else if name = "link" then some .link else none
    else if method = "DELETE" then some (.removeDevice name) else none
  | ["v1", "accounts", accountID, "devices"] =>
    if method = "GET" then some (.devices accountID) else none
  | ["v1", "accounts", userID, "account"] => if method = "GET" then some (.account userID) else none
  | _ => none

/-- What `fetch` puts on the wire; a header that is not sent is empty. -/
structure Sent where
  method : String
  path : Bytes
  authorization : Bytes
  body : Bytes

/-- What a handler is called for. -/
def Sent.received (sent : Sent) : Option HttpRequest := do
  let path ← segments sent.path
  let route ← mux sent.method path
  return ⟨route, sent.authorization, sent.body⟩

/-- A handler from where it may need the store to its end, with one draw for each of its
critical sections. -/
def perform (h : Handlers) (d d' : Draws) (s : Service) : Except Reply Call → Service × Reply
  | .error reply => (s, reply)
  | .ok call =>
    let turn := h.run d s call
    match turn.next with
    | .replies reply => (turn.service, reply)
    | .asks call =>
      let turn := h.run d' turn.service call
      match turn.next with
      | .replies reply => (turn.service, reply)
      -- no section asks for a third one
      | .asks _ => (turn.service, .noContent)

/-! ### The client -/

/-- `identity.ts::PublishedKeyBundle` -/
structure PublishedBundle where
  registrationId : Int
  deviceId : Int
  identityKeyB64 : Text
  signedPreKeyId : Int
  signedPreKeyPublicB64 : Text
  signedPreKeySignatureB64 : Text
  kyberPreKeyId : Int
  kyberPreKeyPublicB64 : Text
  kyberPreKeySignatureB64 : Text
  oneTimePreKeyId : Option Int
  oneTimePreKeyPublicB64 : Option Text

/-- What spreading a bundle into an object puts there. -/
def PublishedBundle.properties (b : PublishedBundle) : List (String × Json.Value) := [
  ("registrationId", number b.registrationId), ("deviceId", number b.deviceId),
  ("identityKeyB64", .string b.identityKeyB64), ("signedPreKeyId", number b.signedPreKeyId),
  ("signedPreKeyPublicB64", .string b.signedPreKeyPublicB64),
  ("signedPreKeySignatureB64", .string b.signedPreKeySignatureB64),
  ("kyberPreKeyId", number b.kyberPreKeyId), ("kyberPreKeyPublicB64", .string b.kyberPreKeyPublicB64),
  ("kyberPreKeySignatureB64", .string b.kyberPreKeySignatureB64),
  ("oneTimePreKeyId", (b.oneTimePreKeyId.map number).getD .null),
  ("oneTimePreKeyPublicB64", (b.oneTimePreKeyPublicB64.map .string).getD .null)]

/-- `identity.ts::OneTimePreKeyPublic` -/
structure OneTimePreKeyPublic where
  id : Int
  publicB64 : Text

def OneTimePreKeyPublic.value (key : OneTimePreKeyPublic) : Json.Value :=
  object [("id", number key.id), ("publicB64", .string key.publicB64)]

def keysValue (keys : List OneTimePreKeyPublic) : Json.Value :=
  .array (keys.map OneTimePreKeyPublic.value)

/-- The methods of `DiscoveryClient` that make a request. -/
inductive Method where
  | register (publishedBundle : PublishedBundle) (oneTimePreKeys : List OneTimePreKeyPublic)
      (phoneNumber : Text)
  | submitOtp (userId code : Text)
  | refresh (refreshToken : Text)
  | fetchBundle (userId : Text)
  | createLinkToken
  | linkDevice (token : Text) (publishedBundle : PublishedBundle)
      (oneTimePreKeys : List OneTimePreKeyPublic)
  | listMyDevices
  | removeDevice (userId : Text)
  | listDevices (accountId : Text)
  | resolveAccount (userId : Text)
  | uploadOneTimePreKeys (oneTimePreKeys : List OneTimePreKeyPublic)
  | poolSize
  | getSalt
  | intersect (phoneHashesB64 : List Text)
  | deleteAccount

namespace Method

def verb : Method → String
  | register .. | submitOtp .. | refresh _ | createLinkToken | linkDevice .. | intersect _ => "POST"
  | uploadOneTimePreKeys _ => "PUT"
  | removeDevice _ | deleteAccount => "DELETE"
  | _ => "GET"

/-- The path as it is named in an error. -/
def pathname : Method → Text
  | register .. => utf16 "/v1/accounts/register"
  | submitOtp .. => utf16 "/v1/accounts/verify"
  | refresh _ => utf16 "/v1/auth/refresh"
  | fetchBundle userId => utf16 "/v1/keys/" ++ userId
  | createLinkToken => utf16 "/v1/devices/link-token"
  | linkDevice .. => utf16 "/v1/devices/link"
  | listMyDevices | removeDevice _ => utf16 "/v1/devices"
  | listDevices accountId => utf16 "/v1/accounts/" ++ accountId ++ utf16 "/devices"
  | resolveAccount userId => utf16 "/v1/accounts/" ++ userId ++ utf16 "/account"
  | uploadOneTimePreKeys _ => utf16 "/v1/keys/upload"
  | poolSize => utf16 "/v1/keys/pool"
  | getSalt => utf16 "/v1/contacts/salt"
  | intersect _ => utf16 "/v1/contacts/intersect"
  | deleteAccount => utf16 "/v1/accounts"

/-- The path of the URL; only `removeDevice` escapes what it puts into it. -/
def path : Method → Option Bytes
  | removeDevice userId => (Queries.encodeURIComponent userId).map (text "/v1/devices/" ++ ·)
  | m => some (utf8Text m.pathname)

/-- The object that is sent, if one is. -/
def body : Method → Option Json.Value
  | register bundle keys phoneNumber => some <| object <|
    ("phoneNumber", .string phoneNumber) :: (bundle.properties ++ [("oneTimePreKeys", keysValue keys)])
  | submitOtp userId code => some (object [("userId", .string userId), ("code", .string code)])
  | refresh refreshToken => some (object [("refreshToken", .string refreshToken)])
  | createLinkToken => some (object [])
  | linkDevice token bundle keys => some <| object <|
    ("token", .string token) :: (bundle.properties ++ [("oneTimePreKeys", keysValue keys)])
  | uploadOneTimePreKeys keys => some (object [("oneTimePreKeys", keysValue keys)])
  | intersect hashes => some (object [("phoneHashesB64", .array (hashes.map .string))])
  | _ => none

/-- Whether the access token goes with it. -/
def auth : Method → Bool
  | submitOtp .. | refresh _ | linkDevice .. => false
  | _ => true

/-- Whether a refresh follows where the token is refused. -/
def retries : Method → Bool
  | removeDevice _ | deleteAccount => false
  | m => m.auth

/-- The bytes of the body. -/
def content (m : Method) : Option Bytes :=
  m.body.elim (some []) fun v => (Json.stringify v).map utf8Text

/-- The request, in which the token is that of the client. -/
def sent (m : Method) (token : Option Bytes) : Option Sent := do
  let path ← m.path
  let body ← m.content
  return ⟨m.verb, path, if m.auth then authHeaders token else [], body⟩

end Method

/-- The tokens of a client. -/
structure Client where
  token : Option Text := none
  refresh_ : Option Text := none

/-- A property that is a text with something in it. -/
def textIn (v : Json.Value) (name : String) : Option Text := (textOf v name).filter (· ≠ [])

/-- What a method makes of the JSON that it gets, and of the tokens that are in it. -/
def Method.takes (m : Method) (c : Client) (v : Json.Value) : Client × Except Failure Json.Value :=
  match m with
  | .submitOtp .. =>
    if (v.get "verified").truthy then
      match textIn v "token" with
      | some token => ({ token := some token, refresh_ := textOf v "refreshToken" }, .ok (.string token))
      | none => (c, .error .other)
    else (c, .error .other)
  | .refresh _ =>
    if v.nullish then (c, .error .other)
    else
      ({ token := textOf v "token"
         refresh_ := textIn v "refreshToken" <|> c.refresh_ }, .ok .undefined)
  | .linkDevice .. =>
    match textIn v "token" with
    | some token => ({ token := some token, refresh_ := textOf v "refreshToken" }, .ok v)
    | none => (c, .error .other)
  | .listMyDevices | .listDevices _ => (c, elements "devices" v)
  | .resolveAccount _ => (c, member "accountId" v)
  | .poolSize => (c, member "poolSize" v)
  | .getSalt => (c, member "saltB64" v)
  | .intersect _ => (c, member "matches" v)
  | _ => (c, .ok v)

/-- What a method comes to at the response to its request. -/
def Method.ends (m : Method) (c : Client) (res : Response) : Client × Except Failure Json.Value :=
  match m with
  | .removeDevice _ => (c, if res.ok then .ok .undefined else .error (thrown m.pathname res))
  | .deleteAccount =>
    if res.ok then ({ c with token := none }, .ok .undefined) else (c, .error (thrown m.pathname res))
  | _ =>
    match settles m.pathname res with
    | .ok v => m.takes c v
    | .error failure => (c, .error failure)

/-- A response as it comes in. -/
def response (status : Nat) (body : Bytes) : Response :=
  ⟨status, receiveText body, (receiveText body).bind Json.parse⟩

/-- What comes from outside while a method runs: the draws of each of its requests, and what
others do to Discovery before it. -/
structure Course where
  draws : Nat → Draws × Draws
  others : Nat → Service → Service

/-- How a request of a method is answered: the number of the request, and the access token. -/
abbrev Exchange := Nat → Method → Option Text → Service → Option (Service × Response)

/-- By bytes: those that are sent, the handler that is called with them, and those that come
back. -/
def overHttp (h : Handlers) (o : Course) : Exchange := fun n m token s => do
  let (d, d') := o.draws n
  let sent ← m.sent (token.map utf8Text)
  let request ← sent.received
  let (s, reply) := perform h d d' (o.others n s) (h.admission request d.now)
  return (s, response reply.bytes.1 reply.bytes.2)

/-- A call of a method.  If the access token is refused, a refresh comes first and the request
once more. -/
def Method.call (exchange : Exchange) (m : Method) (c : Client) (s : Service) :
    Option (Service × Client × Except Failure Json.Value) := do
  let (s, res) ← exchange 0 m c.token s
  match c.refresh_.filter (· ≠ []) with
  | some refreshToken =>
    if res.status = 401 ∧ m.retries then
      let (s, answer) ← exchange 1 (.refresh refreshToken) c.token s
      let (c, outcome) := (Method.refresh refreshToken).ends c answer
      if outcome.isOk then
        let (s, res) ← exchange 2 m c.token s
        return (s, m.ends c res)
      else return (s, c, .error (thrown m.pathname res))
    else return (s, m.ends c res)
  | none => return (s, m.ends c res)

/-! ### Without HTTP -/

/-- A key as Discovery holds it. -/
def OneTimePreKeyPublic.received (key : OneTimePreKeyPublic) : OneTimePreKey :=
  ⟨Int64.ofInt key.id, goString key.publicB64⟩

/-- A bundle and its pool as Discovery holds them; the prekey of the bundle is not kept. -/
def PublishedBundle.received (b : PublishedBundle) (keys : List OneTimePreKeyPublic)
    (phoneNumber : Text) : RegisterRequest where
  phoneNumber := goString phoneNumber
  deviceID := Int64.ofInt b.deviceId
  registrationID := Int64.ofInt b.registrationId
  identityKeyB64 := goString b.identityKeyB64
  signedPreKeyID := Int64.ofInt b.signedPreKeyId
  signedPreKeyPublicB64 := goString b.signedPreKeyPublicB64
  signedPreKeySignatureB64 := goString b.signedPreKeySignatureB64
  kyberPreKeyID := Int64.ofInt b.kyberPreKeyId
  kyberPreKeyPublicB64 := goString b.kyberPreKeyPublicB64
  kyberPreKeySignatureB64 := goString b.kyberPreKeySignatureB64
  oneTimePreKeys := keys.map OneTimePreKeyPublic.received

/-- The device number that is taken where there is none. -/
def numbered (req : RegisterRequest) : RegisterRequest :=
  if req.deviceID = 0 then { req with deviceID := 1 } else req

/-- What a method asks of the store for the user of a token. -/
def Method.asks (m : Method) (user : Option String) : Except Reply Call :=
  let authed (k : String → Except Reply Call) : Except Reply Call :=
    user.elim (.error (.error 401 "missing or invalid token")) k
  match m with
  | .register bundle keys phoneNumber =>
    if phoneNumber = [] ∨ bundle.identityKeyB64 = [] then
      .error (.error 400 "missing phoneNumber or identity key")
    else .ok (.register (numbered (bundle.received keys phoneNumber)))
  | .submitOtp userId code => .ok (.verify (goString userId) (goString code))
  | .refresh refreshToken => .ok (.refresh (utf8Text refreshToken))
  | .fetchBundle userId => authed fun _ => .ok (.bundleFor (goString userId))
  | .createLinkToken => authed fun userID => .ok (.mintFor userID)
  | .linkDevice token bundle keys =>
    if token = [] ∨ bundle.identityKeyB64 = [] then
      .error (.error 400 "missing token or identity key")
    else .ok (.linkDevice (goString token) (bundle.received keys []))
  | .listMyDevices => authed fun userID => .ok (.accountDevices userID)
  | .removeDevice target => authed fun userID => .ok (.removeDevice userID (goString target))
  | .listDevices accountId => authed fun _ => .ok (.devicesFor (goString accountId))
  | .resolveAccount userId => authed fun _ => .ok (.accountIDFor (goString userId))
  | .uploadOneTimePreKeys keys =>
    authed fun userID => .ok (.addOneTime userID (keys.map OneTimePreKeyPublic.received))
  | .poolSize => authed fun userID => .ok (.poolSize userID)
  | .getSalt => authed fun _ => .ok .saltB64
  | .intersect hashes => authed fun userID =>
    if ContactsDiscovery.maxIntersectHashes < hashes.length then
      .error (.error 400 "too many hashes in one request")
    else .ok (.allowIntersect userID (hashes.map goString))
  | .deleteAccount => authed fun userID => .ok (.deleteAccount userID)

def bundleValue (b : PublishedKeyBundle) : Json.Value := object [
  ("registrationId", number b.registrationID.toInt), ("deviceId", number b.deviceID.toInt),
  ("identityKeyB64", .string (utf16 b.identityKeyB64)),
  ("signedPreKeyId", number b.signedPreKeyID.toInt),
  ("signedPreKeyPublicB64", .string (utf16 b.signedPreKeyPublicB64)),
  ("signedPreKeySignatureB64", .string (utf16 b.signedPreKeySignatureB64)),
  ("kyberPreKeyId", number b.kyberPreKeyID.toInt),
  ("kyberPreKeyPublicB64", .string (utf16 b.kyberPreKeyPublicB64)),
  ("kyberPreKeySignatureB64", .string (utf16 b.kyberPreKeySignatureB64)),
  ("oneTimePreKeyId", (b.oneTimePreKeyID.map fun id => number id.toInt).getD .null),
  ("oneTimePreKeyPublicB64", (b.oneTimePreKeyPublicB64.map fun key => .string (utf16 key)).getD .null)]

def deviceValue (device : DeviceInfo) : Json.Value := object [
  ("userId", .string (utf16 device.userID)), ("deviceId", number device.deviceID.toInt),
  ("primary", .boolean device.primary)]

def matchValue (hit : IntersectMatch) : Json.Value := object [
  ("phoneHashB64", .string (utf16 hit.phoneHashB64)), ("userId", .string (utf16 hit.userID))]

/-- The value that the client is given of a reply. -/
def replyValue : Reply → Option Json.Value
  | .error _ msg => some (object [("error", .string (utf16 msg))])
  | .registered r => some <| object <|
    [("userId", .string (utf16 r.userID)), ("otpSent", .boolean r.otpSent)] ++
      if r.devOTP = "" then [] else [("devOtp", .string (utf16 r.devOTP))]
  | .verified r => some <| object [("verified", .boolean r.verified), ("token", .string (utf16 r.token)),
    ("refreshToken", .string (utf16 r.refreshToken))]
  | .refreshed r => some <| object [("token", .string (utf16 r.token)),
    ("refreshToken", .string (utf16 r.refreshToken))]
  | .bundle b => some (bundleValue b)
  | .noContent => none
  | .poolSize size => some (object [("poolSize", number size.toInt)])
  | .linkToken r => some <| object [("token", .string (utf16 r.token)),
    ("expiresInSec", number r.expiresInSec.toInt)]
  | .linked r => some <| object [("userId", .string (utf16 r.userID)),
    ("accountId", .string (utf16 r.accountID)), ("token", .string (utf16 r.token)),
    ("refreshToken", .string (utf16 r.refreshToken))]
  | .devices ids => some <| object [
    ("devices", (ids.map fun ids => .array (ids.map fun id => .string (utf16 id))).getD .null)]
  | .myDevices owned => some (object [("devices", .array (owned.map deviceValue))])
  | .account accountID => some (object [("accountId", .string (utf16 accountID))])
  | .salt saltB64 => some (object [("saltB64", .string (utf16 saltB64))])
  | .found hits => some (object [("matches", .array (hits.map matchValue))])

/-- By the store itself, for the user of the token. -/
def directly (h : Handlers) (o : Course) : Exchange := fun n m token s =>
  let (d, d') := o.draws n
  let user := h.bearerUser (authHeaders (token.map utf8Text)) d.now
  let (s, reply) := perform h d d' (o.others n s) (m.asks user)
  some (s, ⟨reply.status, receiveText reply.bytes.2, replyValue reply⟩)

/-! ### The path of a request -/

/-- A name that stands in a path as it is. -/
structure IsName (name : Text) : Prop where
  wellFormed : Queries.WellFormed name
  unescaped : (utf8Text name).all Queries.unescaped = true
  leads : utf8Text name ≠ [] ∧ utf8Text name ≠ [dot] ∧ utf8Text name ≠ [dot, dot]

instance (name : Text) : Decidable (IsName name) :=
  decidable_of_iff (Queries.WellFormed name ∧ (utf8Text name).all Queries.unescaped = true ∧
    utf8Text name ≠ [] ∧ utf8Text name ≠ [dot] ∧ utf8Text name ≠ [dot, dot])
    ⟨fun h => ⟨h.1, h.2.1, h.2.2⟩, fun h => ⟨h.1, h.2, h.3⟩⟩

def rooted (raws : List Bytes) : Bytes := raws.flatMap (slash :: ·)

theorem splitOn_rooted {raw : Bytes} {raws : List Bytes} (whole : ∀ r ∈ raw :: raws, slash ∉ r) :
    (raw ++ rooted raws).splitOn slash = raw :: raws := by
  induction raws generalizing raw with
  | nil =>
    rw [rooted, List.flatMap_nil, List.append_nil]
    exact List.splitOn_eq_singleton (whole raw List.mem_cons_self)
  | cons next rest ih =>
    rw [List.forall_mem_cons] at whole
    have behind := ih whole.2
    have shown : raw ++ rooted (next :: rest) = raw ++ slash :: (next ++ rooted rest) := rfl
    rw [shown, List.splitOn_append_cons_self_of_not_mem whole.1, behind]

theorem segments_rooted {raws : List Bytes} (whole : ∀ raw ∈ raws, slash ∉ raw) :
    segments (rooted raws) = raws.mapM segment := by
  have split : (rooted raws).splitOn slash = [] :: raws :=
    splitOn_rooted (List.forall_mem_cons.mpr ⟨List.not_mem_nil, whole⟩)
  rw [segments, split]
  rfl

/-- What is escaped comes back, if it does not lead elsewhere. -/
theorem segment_encode {t : Text} {raw : Bytes}
    (escaped : raw = PercentCoding.encode Queries.unescaped (utf8Text t))
    (leads : raw ≠ [] ∧ raw ≠ [dot] ∧ raw ≠ [dot, dot]) : segment raw = some (goString t) := by
  rw [segment, if_neg (by simpa using leads), escaped,
    PercentCoding.decode_encode Queries.quotes_unescaped.separates.percent, Option.bind_some, utf8Text,
    decode8_encode8]
  rfl

theorem IsName.escaped {name : Text} (named : IsName name) :
    utf8Text name = PercentCoding.encode Queries.unescaped (utf8Text name) :=
  (PercentCoding.encode_of_kept fun b member => List.all_eq_true.mp named.unescaped b member).symm

theorem slash_notMem {t : Text} : slash ∉ PercentCoding.encode Queries.unescaped (utf8Text t) :=
  PercentCoding.notMem_encode (by decide) (by decide) (by decide) _

/-- The names of a path. -/
theorem segments_names {names : List Text} (named : ∀ name ∈ names, IsName name) :
    segments (rooted (names.map utf8Text)) = some (names.map goString) := by
  rw [segments_rooted]
  · induction names with
    | nil => rfl
    | cons name rest ih =>
      rw [List.forall_mem_cons] at named
      rw [List.map_cons, List.mapM_cons, segment_encode named.1.escaped named.1.leads, ih named.2]
      rfl
  · intro raw member
    obtain ⟨name, inside, rfl⟩ := List.mem_map.mp member
    rw [(named name inside).escaped]
    exact slash_notMem

theorem scalars_append {t : Text} (whole : Queries.WellFormed t) (u : Text) :
    scalars (t ++ u) = scalars t ++ scalars u := by
  suffices general : ∀ cs, scalars (encode16 cs ++ u) = cs ++ scalars u by
    have split := general (scalars t)
    rw [whole] at split
    exact split
  intro cs
  induction cs with
  | nil => rfl
  | cons c rest ih =>
    have shown : encode16 (c :: rest) ++ u = JsonGrammar.units c ++ (encode16 rest ++ u) := by
      rw [encode16, List.flatMap_cons, List.append_assoc]
      rfl
    rw [shown, scalars_units, ih]
    rfl

theorem utf8Text_append {t : Text} (whole : Queries.WellFormed t) (u : Text) :
    utf8Text (t ++ u) = utf8Text t ++ utf8Text u := by
  rw [utf8Text, scalars_append whole, encode8_append]
  rfl

/-- A path of names, in the bytes of the URL. -/
theorem utf8Text_names {names : List Text} (named : ∀ name ∈ names, IsName name) :
    utf8Text (names.flatMap (Json.unit '/' :: ·)) = rooted (names.map utf8Text) := by
  induction names with
  | nil => rfl
  | cons name rest ih =>
    rw [List.forall_mem_cons] at named
    have mark : Queries.WellFormed [Json.unit '/'] := by decide
    have shown : (name :: rest).flatMap (Json.unit '/' :: ·) =
        [Json.unit '/'] ++ (name ++ rest.flatMap (Json.unit '/' :: ·)) := rfl
    rw [shown, utf8Text_append mark, utf8Text_append named.1.wellFormed, ih named.2]
    rfl

/-! ### The route of a method -/

/-- The integers are integers of the client. -/
structure PublishedBundle.IsSafe (b : PublishedBundle) : Prop where
  registrationId : JsonWriters.IsSafe b.registrationId
  deviceId : JsonWriters.IsSafe b.deviceId
  signedPreKeyId : JsonWriters.IsSafe b.signedPreKeyId
  kyberPreKeyId : JsonWriters.IsSafe b.kyberPreKeyId
  oneTimePreKeyId : ∀ id ∈ b.oneTimePreKeyId, JsonWriters.IsSafe id

def AreSafe (keys : List OneTimePreKeyPublic) : Prop := ∀ key ∈ keys, JsonWriters.IsSafe key.id

/-- A user whose path is not another route's. -/
structure IsUser (userId : Text) : Prop extends IsName userId where
  other : userId ≠ utf16 "pool"

/-- What is asked of the arguments of a method: integers that the client can hold, and
names that can stand in a path. -/
def Method.IsSafe : Method → Prop
  | .register bundle keys _ | .linkDevice _ bundle keys => bundle.IsSafe ∧ AreSafe keys
  | .uploadOneTimePreKeys keys => AreSafe keys
  | .fetchBundle userId => IsUser userId
  | .listDevices name | .resolveAccount name => IsName name
  | .removeDevice userId => Queries.WellFormed userId ∧ userId ≠ [] ∧
    userId ≠ utf16 "." ∧ userId ≠ utf16 ".."
  | _ => True

/-- The route that a method is for. -/
def Method.route : Method → Route
  | .register .. => .register
  | .submitOtp .. => .verify
  | .refresh _ => .refresh
  | .fetchBundle userId => .fetchKeys (goString userId)
  | .createLinkToken => .linkToken
  | .linkDevice .. => .link
  | .listMyDevices => .myDevices
  | .removeDevice userId => .removeDevice (goString userId)
  | .listDevices accountId => .devices (goString accountId)
  | .resolveAccount userId => .account (goString userId)
  | .uploadOneTimePreKeys _ => .uploadKeys
  | .poolSize => .keyPool
  | .getSalt => .salt
  | .intersect _ => .intersect
  | .deleteAccount => .deleteAccount

/-- The names of a path that are literals are names. -/
theorem named_of_all {names : List Text} (all : names.all (fun name => decide (IsName name)) = true) :
    ∀ name ∈ names, IsName name :=
  fun name member => of_decide_eq_true (List.all_eq_true.mp all name member)

theorem goString_eq {t : Text} (whole : Queries.WellFormed t) (s : String) :
    goString t = s ↔ t = utf16 s := by
  constructor
  · rintro rfl
    rw [goString, JsonGrammar.utf16_eq]
    exact whole.symm
  · rintro rfl
    exact goString_utf16 s

theorem routed {m : Method} (names : List Text)
    (same : m.pathname = names.flatMap (Json.unit '/' :: ·)) (named : ∀ name ∈ names, IsName name)
    (known : mux m.verb (names.map goString) = some m.route) :
    (segments (utf8Text m.pathname)).bind (mux m.verb) = some m.route := by
  rw [same, utf8Text_names named, segments_names named]
  exact known

/-- A path without names of users. -/
theorem routed_literal {m : Method} (names : List String)
    (same : m.pathname = (names.map utf16).flatMap (Json.unit '/' :: ·))
    (all : (names.map utf16).all (fun name => decide (IsName name)) = true)
    (known : mux m.verb names = some m.route) :
    (segments (utf8Text m.pathname)).bind (mux m.verb) = some m.route := by
  refine routed (names.map utf16) same (named_of_all all) ?_
  have read : (names.map utf16).map goString = names := by
    rw [List.map_map]
    exact (List.map_congr_left fun name _ => goString_utf16 name).trans (List.map_id names)
  rw [read, known]

/-- Texts that are not the same are not escaped to the same bytes. -/
theorem encode_ne {t : Text} (whole : Queries.WellFormed t) {s : String} (other : t ≠ utf16 s) :
    PercentCoding.encode Queries.unescaped (utf8Text t) ≠
      PercentCoding.encode Queries.unescaped (utf8Text (utf16 s)) := by
  intro same
  have bytes := PercentCoding.encode_injective Queries.quotes_unescaped.separates.percent same
  have chars := congrArg decode8 bytes
  rw [utf8Text, utf8Text, decode8_encode8, decode8_encode8, Option.some_inj] at chars
  have strings : goString t = goString (utf16 s) := congrArg String.ofList chars
  rw [goString_utf16] at strings
  exact other ((goString_eq whole s).mp strings)

theorem names_v1 {first : String} {name : Text} (plain : IsName (utf16 first)) (named : IsName name)
    {more : List Text} (others : ∀ n ∈ more, IsName n) :
    ∀ n ∈ utf16 "v1" :: utf16 first :: name :: more, IsName n := by
  have version : IsName (utf16 "v1") := by decide
  simp only [List.forall_mem_cons]
  exact ⟨version, plain, named, others⟩

theorem routed_sent {m : Method} (safe : m.IsSafe) :
    ∃ path, m.path = some path ∧ (segments path).bind (mux m.verb) = some m.route := by
  cases m with
  | removeDevice userId =>
    obtain ⟨whole, some_name, no_dot, no_dots⟩ := safe
    let raw := PercentCoding.encode Queries.unescaped (utf8Text userId)
    have leads : raw ≠ [] ∧ raw ≠ [dot] ∧ raw ≠ [dot, dot] :=
      ⟨encode_ne whole (s := "") some_name, encode_ne whole (s := ".") no_dot,
        encode_ne whole (s := "..") no_dots⟩
    have path : (Method.removeDevice userId).path =
        some (rooted [utf8Text (utf16 "v1"), utf8Text (utf16 "devices"), raw]) := by
      rw [Method.path, Queries.encodeURIComponent, if_pos whole]
      simp only [rooted, List.flatMap_cons, List.flatMap_nil, List.append_nil]
      rfl
    have version : segment (utf8Text (utf16 "v1")) = some "v1" :=
      segment_encode (t := utf16 "v1") (by decide) (by decide)
    have devices : segment (utf8Text (utf16 "devices")) = some "devices" :=
      segment_encode (t := utf16 "devices") (by decide) (by decide)
    have free : ∀ r ∈ [utf8Text (utf16 "v1"), utf8Text (utf16 "devices"), raw], slash ∉ r := by
      simp only [List.forall_mem_cons]
      exact ⟨by decide, by decide, slash_notMem, List.forall_mem_nil _⟩
    refine ⟨_, path, ?_⟩
    rw [segments_rooted free, List.mapM_cons, List.mapM_cons, List.mapM_cons, version, devices,
      segment_encode rfl leads]
    rfl
  | fetchBundle userId =>
    have named : IsName userId := safe.toIsName
    have other := mt (goString_eq named.wellFormed "pool").mp safe.other
    refine ⟨_, rfl, routed [utf16 "v1", utf16 "keys", userId] ?_ ?_ ?_⟩
    · simp [Method.pathname]
      rfl
    · exact names_v1 (by decide) named (List.forall_mem_nil _)
    · simp [mux, Method.verb, goString_utf16, Method.route, other]
  | listDevices accountId =>
    refine ⟨_, rfl, routed [utf16 "v1", utf16 "accounts", accountId, utf16 "devices"] ?_ ?_ ?_⟩
    · simp [Method.pathname]
      rfl
    · exact names_v1 (by decide) safe (by decide)
    · simp [mux, Method.verb, goString_utf16, Method.route]
  | resolveAccount userId =>
    refine ⟨_, rfl, routed [utf16 "v1", utf16 "accounts", userId, utf16 "account"] ?_ ?_ ?_⟩
    · simp [Method.pathname]
      rfl
    · exact names_v1 (by decide) safe (by decide)
    · simp [mux, Method.verb, goString_utf16, Method.route]
  | register bundle keys phoneNumber =>
    exact ⟨_, rfl, routed_literal ["v1", "accounts", "register"] rfl (by decide) rfl⟩
  | submitOtp userId code =>
    exact ⟨_, rfl, routed_literal ["v1", "accounts", "verify"] rfl (by decide) rfl⟩
  | refresh refreshToken =>
    exact ⟨_, rfl, routed_literal ["v1", "auth", "refresh"] rfl (by decide) rfl⟩
  | createLinkToken =>
    exact ⟨_, rfl, routed_literal ["v1", "devices", "link-token"] rfl (by decide) rfl⟩
  | linkDevice token bundle keys =>
    exact ⟨_, rfl, routed_literal ["v1", "devices", "link"] rfl (by decide) rfl⟩
  | listMyDevices => exact ⟨_, rfl, routed_literal ["v1", "devices"] rfl (by decide) rfl⟩
  | uploadOneTimePreKeys keys =>
    exact ⟨_, rfl, routed_literal ["v1", "keys", "upload"] rfl (by decide) rfl⟩
  | poolSize => exact ⟨_, rfl, routed_literal ["v1", "keys", "pool"] rfl (by decide) rfl⟩
  | getSalt => exact ⟨_, rfl, routed_literal ["v1", "contacts", "salt"] rfl (by decide) rfl⟩
  | intersect hashes =>
    exact ⟨_, rfl, routed_literal ["v1", "contacts", "intersect"] rfl (by decide) rfl⟩
  | deleteAccount => exact ⟨_, rfl, routed_literal ["v1", "accounts"] rfl (by decide) rfl⟩

/-! ### The body of a request -/

/-- A number and a text, as they are sent. -/
def sentNumber (n : Int) : Value := .scalar (.number (GoJson.appendInt n))

def sentText (t : Text) : Value := .scalar (.string (goString t))

def OneTimePreKeyPublic.sent (key : OneTimePreKeyPublic) : Value :=
  .object [("id", sentNumber key.id), ("publicB64", sentText key.publicB64)]

/-- The members of a bundle with its pool. -/
def PublishedBundle.members (b : PublishedBundle) (keys : List OneTimePreKeyPublic) :
    List (String × Value) := [
  ("registrationId", sentNumber b.registrationId), ("deviceId", sentNumber b.deviceId),
  ("identityKeyB64", sentText b.identityKeyB64), ("signedPreKeyId", sentNumber b.signedPreKeyId),
  ("signedPreKeyPublicB64", sentText b.signedPreKeyPublicB64),
  ("signedPreKeySignatureB64", sentText b.signedPreKeySignatureB64),
  ("kyberPreKeyId", sentNumber b.kyberPreKeyId),
  ("kyberPreKeyPublicB64", sentText b.kyberPreKeyPublicB64),
  ("kyberPreKeySignatureB64", sentText b.kyberPreKeySignatureB64),
  ("oneTimePreKeyId", (b.oneTimePreKeyId.map sentNumber).getD (.scalar .null)),
  ("oneTimePreKeyPublicB64", (b.oneTimePreKeyPublicB64.map sentText).getD (.scalar .null)),
  ("oneTimePreKeys", .array (keys.map OneTimePreKeyPublic.sent))]

theorem key_names : AreNames ["id", "publicB64"] := ⟨by decide, by decide⟩

theorem sends_oneTimeKeys {keys : List OneTimePreKeyPublic} (safe : AreSafe keys) :
    Sends (keysValue keys) (.array (keys.map OneTimePreKeyPublic.sent)) 2 := by
  apply sends_map
  intro key member
  exact sends_object key_names (.cons (sends_number (safe key member) _) (.cons (sends_string _ _) .nil))

theorem sends_bundle {b : PublishedBundle} (safe : b.IsSafe) {keys : List OneTimePreKeyPublic}
    (safe_keys : AreSafe keys) : SendsMembers 2 (b.properties ++ [("oneTimePreKeys", keysValue keys)])
      (b.members keys) := by
  have id : Sends ((b.oneTimePreKeyId.map number).getD .null)
      ((b.oneTimePreKeyId.map sentNumber).getD (.scalar .null)) 2 := by
    cases held : b.oneTimePreKeyId with
    | none => exact sends_null 2
    | some id => exact sends_number (safe.oneTimePreKeyId id held) 2
  have key : Sends ((b.oneTimePreKeyPublicB64.map Json.Value.string).getD .null)
      ((b.oneTimePreKeyPublicB64.map sentText).getD (.scalar .null)) 2 := by
    cases b.oneTimePreKeyPublicB64 with
    | none => exact sends_null 2
    | some key => exact sends_string key 2
  exact .cons (sends_number safe.registrationId _) <| .cons (sends_number safe.deviceId _) <|
    .cons (sends_string _ _) <| .cons (sends_number safe.signedPreKeyId _) <|
    .cons (sends_string _ _) <| .cons (sends_string _ _) <|
    .cons (sends_number safe.kyberPreKeyId _) <| .cons (sends_string _ _) <|
    .cons (sends_string _ _) <| .cons id <| .cons key <| .cons (sends_oneTimeKeys safe_keys) .nil

/-- What a handler decodes of an object that is sent. -/
theorem decode_sent {α : Type} {c : Codec α} {v : Json.Value} {members : List (String × Value)}
    {depth : Nat} (sends : Sends v (.object members) depth) (shallow : depth ≤ GoJson.maxNestingDepth) :
    ∃ t, Json.stringify v = some t ∧
      GoStreams.decode c (utf8Text t) = c.store c.zero (.object members) := by
  obtain ⟨t, text, parsed⟩ := sends.parsed shallow
  exact ⟨t, text, GoStreams.decode_of_parse parsed⟩

theorem store_number {n : Int} (safe : JsonWriters.IsSafe n) (held : Int64) :
    int.store held (sentNumber n) = some (Int64.ofInt n) := by
  have low := safe.1
  have high := safe.2
  have fits : GoJson.IsInt64 n := by constructor <;> omega
  change (GoJson.parseInt (GoJson.appendInt n)).map Int64.ofInt = _
  rw [GoJson.parseInt_appendInt fits, Option.map_some]

theorem store_oneTimeKey {key : OneTimePreKeyPublic} (safe : JsonWriters.IsSafe key.id) :
    DiscoveryFile.oneTimePreKey.store DiscoveryFile.oneTimePreKey.zero key.sent = some key.received := by
  have id := store_number safe 0
  simp [DiscoveryFile.oneTimePreKey, DiscoveryFile.oneTimePreKeyFields, struct, storeMember, fieldOf, field,
    OneTimePreKeyPublic.sent, OneTimePreKeyPublic.received, sentText, id]

theorem store_oneTimeKeys {keys : List OneTimePreKeyPublic} (safe : AreSafe keys) :
    (GoStreams.reused DiscoveryFile.oneTimePreKey).store {} (.array (keys.map OneTimePreKeyPublic.sent)) =
      some ⟨keys.map OneTimePreKeyPublic.received, []⟩ := by
  have each : (keys.map OneTimePreKeyPublic.sent).mapM
      (DiscoveryFile.oneTimePreKey.store DiscoveryFile.oneTimePreKey.zero) =
        some (keys.map OneTimePreKeyPublic.received) := by
    induction keys with
    | nil => rfl
    | cons key rest ih =>
      rw [AreSafe, List.forall_mem_cons] at safe
      rw [List.map_cons, List.mapM_cons, store_oneTimeKey safe.1, ih safe.2]
      rfl
  rw [GoStreams.store_reused, each]
  rfl

/-- The members of a bundle go into the fields that are common to both requests. -/
theorem foldlM_agree {all some_of : List (StructField Posted)} {members : List (String × Value)}
    (agree : ∀ m ∈ members, fieldOf all m.1 = fieldOf some_of m.1) (p : Posted) :
    members.foldlM (storeMember all) p = members.foldlM (storeMember some_of) p := by
  induction members generalizing p with
  | nil => rfl
  | cons m rest ih =>
    rw [List.forall_mem_cons] at agree
    rw [List.foldlM_cons, List.foldlM_cons, storeMember, storeMember, agree.1]
    exact congrArg _ (funext fun p => ih agree.2 p)

/-- A bundle is stored member by member; its own prekey is passed over. -/
theorem store_bundle {b : PublishedBundle} (safe : b.IsSafe) {keys : List OneTimePreKeyPublic}
    (safe_keys : AreSafe keys) (token : String) (req : RegisterRequest) :
    (b.members keys).foldlM (storeMember keyFields) ⟨token, req, {}⟩ =
      some ⟨token, { b.received [] [] with
        phoneNumber := req.phoneNumber, oneTimePreKeys := req.oneTimePreKeys },
        ⟨keys.map OneTimePreKeyPublic.received, []⟩⟩ := by
  have pool := store_oneTimeKeys safe_keys
  have id : fieldOf keyFields "oneTimePreKeyId" = none :=
    Option.isNone_iff_eq_none.mp (by decide)
  have key : fieldOf keyFields "oneTimePreKeyPublicB64" = none :=
    Option.isNone_iff_eq_none.mp (by decide)
  simp [PublishedBundle.members, storeMember, id, key]
  simp [fieldOf, keyFields, field, sentText, store_number safe.registrationId, store_number safe.deviceId,
    store_number safe.signedPreKeyId, store_number safe.kyberPreKeyId, pool, PublishedBundle.received]

/-- A field that is named by no member is not in the way of others. -/
theorem agrees {f : StructField Posted} {fields : List (StructField Posted)} {members : List (String × Value)}
    (other : (members.map Prod.fst).all (fun key => f.name ≠ key && !GoJson.names key f.name) = true) :
    ∀ m ∈ members, fieldOf (f :: fields) m.1 = fieldOf fields m.1 := by
  intro m member
  have unnamed := List.all_eq_true.mp other m.1 (List.mem_map_of_mem member)
  rw [Bool.and_eq_true, decide_eq_true_eq, Bool.not_eq_true'] at unnamed
  rw [fieldOf, fieldOf, List.find?_cons_of_neg (by simpa using unnamed.1),
    List.find?_cons_of_neg (by simpa using unnamed.2)]

/-- The names of a bundle with its pool. -/
def bundleNames : List String := ["registrationId", "deviceId", "identityKeyB64", "signedPreKeyId",
  "signedPreKeyPublicB64", "signedPreKeySignatureB64", "kyberPreKeyId", "kyberPreKeyPublicB64",
  "kyberPreKeySignatureB64", "oneTimePreKeyId", "oneTimePreKeyPublicB64", "oneTimePreKeys"]

/-- A text and a bundle with its pool, as a handler decodes them. -/
theorem decode_posted {b : PublishedBundle} (safe : b.IsSafe) {keys : List OneTimePreKeyPublic}
    (safe_keys : AreSafe keys) {name : String} (t : Text) (f : StructField Posted) (token : String)
    (req : RegisterRequest) (names : AreNames (name :: bundleNames)) (first : f.name = name)
    (stored : f.store {} (sentText t) = some ⟨token, req, {}⟩)
    (other : bundleNames.all (fun key => f.name ≠ key && !GoJson.names key f.name) = true) :
    ∃ content, (Json.stringify (object ((name, .string t) ::
        (b.properties ++ [("oneTimePreKeys", keysValue keys)])))).map utf8Text = some content ∧
      GoStreams.decode (struct {} (f :: keyFields)) content =
        some ⟨token, { b.received [] [] with
          phoneNumber := req.phoneNumber, oneTimePreKeys := req.oneTimePreKeys },
          ⟨keys.map OneTimePreKeyPublic.received, []⟩⟩ := by
  have members : SendsMembers 2
      ((name, .string t) :: (b.properties ++ [("oneTimePreKeys", keysValue keys)]))
      ((name, sentText t) :: b.members keys) := .cons (sends_string t 2) (sends_bundle safe safe_keys)
  have sends : Sends (object ((name, .string t) :: (b.properties ++ [("oneTimePreKeys", keysValue keys)])))
      (.object ((name, sentText t) :: b.members keys)) 3 := sends_object names members
  have agree : ∀ m ∈ b.members keys, fieldOf (f :: keyFields) m.1 = fieldOf keyFields m.1 := agrees other
  obtain ⟨body, text, decoded⟩ := decode_sent (c := struct {} (f :: keyFields)) sends (by decide)
  refine ⟨utf8Text body, by rw [text]; rfl, decoded.trans ?_⟩
  have named : fieldOf (f :: keyFields) name = some f := by
    rw [fieldOf, List.find?_cons_of_pos (by simpa using first), Option.some_or]
  have begins : storeMember (f :: keyFields) {} (name, sentText t) = some ⟨token, req, {}⟩ := by
    rw [storeMember, named]
    exact stored
  change List.foldlM (storeMember (f :: keyFields)) {} (_ :: b.members keys) = _
  rw [List.foldlM_cons, begins, Option.bind_eq_bind, Option.bind_some, foldlM_agree agree]
  exact store_bundle safe safe_keys token req

theorem decode_register {b : PublishedBundle} (safe : b.IsSafe) {keys : List OneTimePreKeyPublic}
    (safe_keys : AreSafe keys) (phoneNumber : Text) :
    ∃ content, (Json.stringify (object (("phoneNumber", .string phoneNumber) ::
        (b.properties ++ [("oneTimePreKeys", keysValue keys)])))).map utf8Text = some content ∧
      GoStreams.decode registerRequest content =
        some ⟨"", b.received [] phoneNumber, ⟨keys.map OneTimePreKeyPublic.received, []⟩⟩ :=
  decode_posted safe safe_keys phoneNumber phoneNumberField ""
    ⟨goString phoneNumber, 0, 0, "", 0, "", "", 0, "", "", []⟩
    ⟨by decide, by decide⟩ rfl rfl (by decide)

theorem decode_link {b : PublishedBundle} (safe : b.IsSafe) {keys : List OneTimePreKeyPublic}
    (safe_keys : AreSafe keys) (token : Text) :
    ∃ content, (Json.stringify (object (("token", .string token) ::
        (b.properties ++ [("oneTimePreKeys", keysValue keys)])))).map utf8Text = some content ∧
      GoStreams.decode linkRequest content =
        some ⟨goString token, b.received [] [], ⟨keys.map OneTimePreKeyPublic.received, []⟩⟩ :=
  decode_posted safe safe_keys token tokenField (goString token) _ ⟨by decide, by decide⟩ rfl rfl (by decide)

theorem empty_iff {t : Text} : goString t = "" ↔ t = [] := by
  constructor
  · intro same
    have chars : scalars t = [] := String.ofList_injective same
    cases t with
    | nil => rfl
    | cons u rest =>
      cases rest with
      | nil => cases chars
      | cons v rest =>
        rw [scalars] at chars
        split at chars <;> cases chars
  · rintro rfl
    rfl

theorem utf8_goString (t : Text) : utf8 (goString t) = utf8Text t := by
  rw [ClientHashing.utf8_eq, goString, String.toList_ofList]
  rfl

/-- Methods whose body is one object. -/
theorem content_of {α : Type} {c : Codec α} {m : Method} {v : Json.Value} {a : α}
    {members : List (String × Value)} {depth : Nat} (body : m.body = some v)
    (sends : Sends v (.object members) depth) (shallow : depth ≤ GoJson.maxNestingDepth)
    (stored : c.store c.zero (.object members) = some a) :
    ∃ content, m.content = some content ∧ GoStreams.decode c content = some a := by
  obtain ⟨t, text, decoded⟩ := decode_sent (c := c) sends shallow
  refine ⟨utf8Text t, ?_, decoded.trans stored⟩
  rw [Method.content, body, Option.elim_some, text]
  rfl

theorem decoded_eq {α : Type} {c : Codec α} {route : Route} {authorization content : Bytes} {a : α}
    (read : GoStreams.decode c content = some a) (k : α → Except Reply Call) :
    decoded c ⟨route, authorization, content⟩ k = k a := by
  rw [decoded, read]

theorem authed_eq (h : Handlers) (r : HttpRequest) (now : Int) (k : String → Except Reply Call) :
    h.authed r now k = (h.bearerUser r.authorization now).elim
      (.error (.error 401 "missing or invalid token")) k := by
  rw [Handlers.authed]
  cases h.bearerUser r.authorization now <;> rfl

theorem store_hashes (hashes : List Text) :
    (GoStreams.reused string).store {} (.array (hashes.map sentText)) =
      some ⟨hashes.map goString, []⟩ := by
  have each : (hashes.map sentText).mapM (string.store string.zero) = some (hashes.map goString) := by
    induction hashes with
    | nil => rfl
    | cons t rest ih =>
      have first : string.store string.zero (sentText t) = some (goString t) := rfl
      rw [List.map_cons, List.mapM_cons, first, ih]
      rfl
  rw [GoStreams.store_reused, each]
  rfl

/-- A handler asks the store for what the method is to ask of it. -/
theorem admission_content {m : Method} (safe : m.IsSafe) : ∃ content, m.content = some content ∧
    ∀ (h : Handlers) (token : Option Bytes) (now : Int),
      h.admission ⟨m.route, if m.auth then authHeaders token else [], content⟩ now =
        m.asks (h.bearerUser (authHeaders token) now) := by
  cases m with
  | register b keys phoneNumber =>
    obtain ⟨content, text, read⟩ := decode_register safe.1 safe.2 phoneNumber
    refine ⟨content, text, fun h token now => (decoded_eq read _).trans ?_⟩
    have missing : (goString phoneNumber = "" ∨ goString b.identityKeyB64 = "") ↔
        (phoneNumber = [] ∨ b.identityKeyB64 = []) := or_congr empty_iff empty_iff
    rw [Method.asks]
    exact if_congr missing rfl rfl
  | linkDevice token b keys =>
    obtain ⟨content, text, read⟩ := decode_link safe.1 safe.2 token
    refine ⟨content, text, fun h bearer now => (decoded_eq read _).trans ?_⟩
    have missing : (goString token = "" ∨ goString b.identityKeyB64 = "") ↔
        (token = [] ∨ b.identityKeyB64 = []) := or_congr empty_iff empty_iff
    rw [Method.asks]
    exact if_congr missing rfl rfl
  | submitOtp userId code =>
    have names : AreNames ["userId", "code"] := ⟨by decide, by decide⟩
    have members : SendsMembers 0 [("userId", .string userId), ("code", .string code)]
        [("userId", sentText userId), ("code", sentText code)] :=
      .cons (sends_string _ _) (.cons (sends_string _ _) .nil)
    obtain ⟨content, text, read⟩ := content_of (c := verifyRequest) (a := ⟨goString userId, goString code⟩)
      (m := .submitOtp userId code) rfl (sends_object names members) (by decide) rfl
    exact ⟨content, text, fun h token now => decoded_eq read _⟩
  | refresh refreshToken =>
    have names : AreNames ["refreshToken"] := ⟨by decide, by decide⟩
    have members : SendsMembers 0 [("refreshToken", .string refreshToken)]
        [("refreshToken", sentText refreshToken)] := .cons (sends_string _ _) .nil
    obtain ⟨content, text, read⟩ := content_of (c := refreshRequest) (a := ⟨goString refreshToken⟩)
      (m := .refresh refreshToken) rfl (sends_object names members) (by decide) rfl
    refine ⟨content, text, fun h token now => (decoded_eq read _).trans ?_⟩
    rw [utf8_goString]
    rfl
  | uploadOneTimePreKeys keys =>
    have names : AreNames ["oneTimePreKeys"] := ⟨by decide, by decide⟩
    have members : SendsMembers 2 [("oneTimePreKeys", keysValue keys)]
        [("oneTimePreKeys", .array (keys.map OneTimePreKeyPublic.sent))] :=
      .cons (sends_oneTimeKeys safe) .nil
    have stored : uploadRequest.store uploadRequest.zero
        (.object [("oneTimePreKeys", .array (keys.map OneTimePreKeyPublic.sent))]) =
          some ⟨⟨keys.map OneTimePreKeyPublic.received, []⟩⟩ := by
      simp [uploadRequest, struct, storeMember, fieldOf, field, store_oneTimeKeys safe]
    obtain ⟨content, text, read⟩ := content_of (m := .uploadOneTimePreKeys keys) rfl
      (sends_object names members) (by decide) stored
    refine ⟨content, text, fun h token now => (authed_eq h _ now _).trans ?_⟩
    simp only [decoded_eq read]
    rfl
  | intersect hashes =>
    have names : AreNames ["phoneHashesB64"] := ⟨by decide, by decide⟩
    have array : Sends (.array (hashes.map .string)) (.array (hashes.map sentText)) 1 :=
      sends_map fun t _ => sends_string t 0
    have members : SendsMembers 1 [("phoneHashesB64", .array (hashes.map .string))]
        [("phoneHashesB64", .array (hashes.map sentText))] := .cons array .nil
    have stored : intersectRequest.store intersectRequest.zero
        (.object [("phoneHashesB64", .array (hashes.map sentText))]) =
          some ⟨⟨hashes.map goString, []⟩⟩ := by
      simp [intersectRequest, struct, storeMember, fieldOf, field, store_hashes]
    obtain ⟨content, text, read⟩ := content_of (m := .intersect hashes) rfl
      (sends_object names members) (by decide) stored
    refine ⟨content, text, fun h token now => (authed_eq h _ now _).trans ?_⟩
    simp only [decoded_eq read, List.length_map]
    rfl
  | createLinkToken =>
    have names : AreNames [] := ⟨by decide, by decide⟩
    have sends : Sends (object []) (.object []) 1 := sends_object names .nil
    obtain ⟨t, text, _⟩ := sends.parsed (by decide)
    refine ⟨utf8Text t, ?_, fun h token now => authed_eq h _ now _⟩
    rw [Method.content, Method.body, Option.elim_some, text]
    rfl
  | _ => exact ⟨[], rfl, fun h token now => authed_eq h _ now _⟩

/-! ### The body of a reply -/

theorem shownFields_field {σ α : Type} (name : String) (c : Codec α) (get : σ → α) (set : σ → α → σ)
    (rest : List (StructField σ)) (s : σ) : shownFields (field name c get set :: rest) s =
      (name, c.encode (get s)) :: shownFields rest s := rfl

theorem shownFields_nil {σ : Type} (s : σ) : shownFields [] s = [] := rfl

theorem jsValue_wrapped {α : Type} (name : String) {c : Codec α} {a : α} {v : Json.Value}
    (same : jsValue (shown (c.encode a)) = v) :
    jsValue (shown ((wrapped name c).encode a)) = object [(name, v)] := by
  have one : ([field name c id fun _ a => a].map StructField.name).Nodup := List.nodup_singleton name
  rw [wrapped, jsValue_struct one, shownFields_field, shownFields_nil, List.map_cons, List.map_nil, ← same]
  rfl

theorem jsValue_bundle (b : PublishedKeyBundle) :
    jsValue (shown (publishedKeyBundle.encode b)) = bundleValue b := by
  have id : jsValue (shown ((pointer int).encode b.oneTimePreKeyID)) =
      (b.oneTimePreKeyID.map fun id => number id.toInt).getD .null := by
    cases b.oneTimePreKeyID with
    | none => exact jsValue_null
    | some id => exact jsValue_number id
  have key : jsValue (shown ((pointer string).encode b.oneTimePreKeyPublicB64)) =
      (b.oneTimePreKeyPublicB64.map fun key => .string (utf16 key)).getD .null := by
    cases b.oneTimePreKeyPublicB64 with
    | none => exact jsValue_null
    | some key => exact jsValue_text key
  rw [publishedKeyBundle, jsValue_struct (by decide)]
  simp only [publishedKeyBundleFields, shownFields_field, shownFields_nil, List.map_cons, List.map_nil,
    jsValue_number, jsValue_text, id, key]
  rfl

theorem jsValue_device (device : DeviceInfo) :
    jsValue (shown (deviceInfo.encode device)) = deviceValue device := by
  rw [deviceInfo, jsValue_struct (by decide)]
  simp only [deviceInfoFields, shownFields_field, shownFields_nil, List.map_cons, List.map_nil,
    jsValue_number, jsValue_text, jsValue_boolean]
  rfl

theorem jsValue_match (hit : IntersectMatch) :
    jsValue (shown (intersectMatch.encode hit)) = matchValue hit := by
  rw [intersectMatch, jsValue_struct (by decide)]
  simp only [intersectMatchFields, shownFields_field, shownFields_nil, List.map_cons, List.map_nil,
    jsValue_text]
  rfl

theorem jsValue_registered (r : RegisterResponse) :
    some (jsValue (shown (registerResponse.encode r))) = replyValue (.registered r) := by
  rw [registerResponse, jsValue_struct (by decide)]
  by_cases empty : r.devOTP = ""
  · have members : shownFields registerResponseFields r =
        [("userId", string.encode r.userID), ("otpSent", boolean.encode r.otpSent)] := by
      simp [registerResponseFields, shownFields, field, omitempty, empty, string]
    rw [members, replyValue, if_pos empty]
    simp only [List.map_cons, List.map_nil, jsValue_text, jsValue_boolean]
    rfl
  · have members : shownFields registerResponseFields r = [("userId", string.encode r.userID),
        ("otpSent", boolean.encode r.otpSent), ("devOtp", string.encode r.devOTP)] := by
      have there : r.devOTP ≠ string.zero := empty
      simp [registerResponseFields, shownFields, field, omitempty, there]
    rw [members, replyValue, if_neg empty]
    simp only [List.map_cons, List.map_nil, jsValue_text, jsValue_boolean]
    rfl

/-- What a reply shows is the value that the client is to be given. -/
theorem jsValue_shows (reply : Reply) :
    reply.shows.map (fun v => jsValue (shown v)) = replyValue reply := by
  cases reply with
  | error status msg => exact congrArg some (jsValue_wrapped "error" (jsValue_text msg))
  | registered r => exact jsValue_registered r
  | verified r =>
    refine congrArg some ((jsValue_struct (by decide) r).trans ?_)
    simp only [verifyResponseFields, shownFields_field, shownFields_nil, List.map_cons, List.map_nil,
      jsValue_text, jsValue_boolean]
  | refreshed r =>
    refine congrArg some ((jsValue_struct (by decide) r).trans ?_)
    simp only [refreshResponseFields, shownFields_field, shownFields_nil, List.map_cons, List.map_nil,
      jsValue_text]
  | bundle b => exact congrArg some (jsValue_bundle b)
  | noContent => rfl
  | poolSize size => exact congrArg some (jsValue_wrapped "poolSize" (jsValue_number size))
  | linkToken r =>
    refine congrArg some ((jsValue_struct (by decide) r).trans ?_)
    simp only [linkTokenResponseFields, shownFields_field, shownFields_nil, List.map_cons, List.map_nil,
      jsValue_text, jsValue_number]
  | linked r =>
    refine congrArg some ((jsValue_struct (by decide) r).trans ?_)
    simp only [linkResponseFields, shownFields_field, shownFields_nil, List.map_cons, List.map_nil,
      jsValue_text]
  | devices ids =>
    refine congrArg some (jsValue_wrapped "devices" ?_)
    cases ids with
    | none => exact jsValue_null
    | some ids => exact (jsValue_slice ids).trans (by simp only [jsValue_text]; rfl)
  | myDevices owned =>
    refine congrArg some (jsValue_wrapped "devices" ((jsValue_slice owned).trans ?_))
    simp only [jsValue_device]
  | account accountID => exact congrArg some (jsValue_wrapped "accountId" (jsValue_text accountID))
  | salt saltB64 => exact congrArg some (jsValue_wrapped "saltB64" (jsValue_text saltB64))
  | found hits =>
    refine congrArg some (jsValue_wrapped "matches" ((jsValue_slice hits).trans ?_))
    simp only [jsValue_match]

theorem plain_wrapped {α : Type} {name : String} {c : Codec α} (plain : c.Plain) :
    (wrapped name c).Plain :=
  plain_struct (List.forall_mem_singleton.mpr (plain_field plain))

theorem plain_publishedKeyBundle : publishedKeyBundle.Plain := by
  apply plain_struct
  simp only [publishedKeyBundleFields, List.forall_mem_cons]
  exact ⟨plain_field plain_int, plain_field plain_int, plain_field plain_string, plain_field plain_int,
    plain_field plain_string, plain_field plain_string, plain_field plain_int, plain_field plain_string,
    plain_field plain_string, plain_field (plain_pointer plain_int),
    plain_field (plain_pointer plain_string), List.forall_mem_nil _⟩

theorem plain_deviceInfo : deviceInfo.Plain := by
  apply plain_struct
  simp only [deviceInfoFields, List.forall_mem_cons]
  exact ⟨plain_field plain_string, plain_field plain_int, plain_field plain_boolean, List.forall_mem_nil _⟩

theorem plain_intersectMatch : intersectMatch.Plain := by
  apply plain_struct
  simp only [intersectMatchFields, List.forall_mem_cons]
  exact ⟨plain_field plain_string, plain_field plain_string, List.forall_mem_nil _⟩

theorem plain_registerResponse : registerResponse.Plain := by
  apply plain_struct
  simp only [registerResponseFields, List.forall_mem_cons]
  exact ⟨plain_field plain_string, plain_field plain_boolean, plain_omitempty plain_string,
    List.forall_mem_nil _⟩

theorem plain_verifyResponse : verifyResponse.Plain := by
  apply plain_struct
  simp only [verifyResponseFields, List.forall_mem_cons]
  exact ⟨plain_field plain_boolean, plain_field plain_string, plain_field plain_string,
    List.forall_mem_nil _⟩

theorem plain_refreshResponse : refreshResponse.Plain := by
  apply plain_struct
  simp only [refreshResponseFields, List.forall_mem_cons]
  exact ⟨plain_field plain_string, plain_field plain_string, List.forall_mem_nil _⟩

theorem plain_linkTokenResponse : linkTokenResponse.Plain := by
  apply plain_struct
  simp only [linkTokenResponseFields, List.forall_mem_cons]
  exact ⟨plain_field plain_string, plain_field plain_int, List.forall_mem_nil _⟩

theorem plain_linkResponse : linkResponse.Plain := by
  apply plain_struct
  simp only [linkResponseFields, List.forall_mem_cons]
  exact ⟨plain_field plain_string, plain_field plain_string, plain_field plain_string,
    plain_field plain_string, List.forall_mem_nil _⟩

theorem numbered_shows {reply : Reply} {v : Value} (shows : reply.shows = some v) : Numbered v := by
  cases reply <;> cases shows
  case error status msg => exact plain_wrapped plain_string msg
  case registered r => exact plain_registerResponse r
  case verified r => exact plain_verifyResponse r
  case refreshed r => exact plain_refreshResponse r
  case bundle b => exact plain_publishedKeyBundle b
  case poolSize size => exact plain_wrapped plain_int size
  case linkToken r => exact plain_linkTokenResponse r
  case linked r => exact plain_linkResponse r
  case devices ids => exact plain_wrapped (plain_sliceOrNil plain_string) ids
  case myDevices owned => exact plain_wrapped (plain_slice plain_deviceInfo) owned
  case account accountID => exact plain_wrapped plain_string accountID
  case salt saltB64 => exact plain_wrapped plain_string saltB64
  case found hits => exact plain_wrapped (plain_slice plain_intersectMatch) hits

/-- The client reads a reply. -/
theorem response_bytes (reply : Reply) : response reply.bytes.1 reply.bytes.2 =
    ⟨reply.status, receiveText reply.bytes.2, replyValue reply⟩ := by
  suffices read : (receiveText reply.bytes.2).bind Json.parse = replyValue reply by
    rw [response, read]
    rfl
  rw [← jsValue_shows]
  cases shows : reply.shows with
  | none =>
    have empty : reply.bytes.2 = [] := by
      rw [Reply.bytes, shows]
      rfl
    rw [empty]
    rfl
  | some v =>
    have line : reply.bytes.2 = encodeLine v := by
      rw [Reply.bytes, shows]
      rfl
    rw [line, json_parse_encodeLine (numbered_shows shows)]
    rfl

/-- A request comes in by the route of its method. -/
theorem received_sent {m : Method} (safe : m.IsSafe) {content : Bytes} (text : m.content = some content)
    (token : Option Bytes) : (m.sent token).bind Sent.received =
      some ⟨m.route, if m.auth then authHeaders token else [], content⟩ := by
  obtain ⟨path, named, route⟩ := routed_sent safe
  obtain ⟨names, split, known⟩ := Option.bind_eq_some_iff.mp route
  rw [Method.sent, named, text]
  simp only [Option.bind_eq_bind, Option.bind_some, Option.pure_def, Sent.received, split, known]

theorem overHttp_eq {m : Method} (safe : m.IsSafe) (h : Handlers) (o : Course) (n : Nat)
    (token : Option Text) (s : Service) : overHttp h o n m token s = directly h o n m token s := by
  obtain ⟨content, text, admitted⟩ := admission_content safe
  have received := received_sent safe text (token.map utf8Text)
  obtain ⟨sent, wire, called⟩ := Option.bind_eq_some_iff.mp received
  simp only [overHttp, wire, Option.bind_eq_bind, Option.bind_some, called, admitted, response_bytes,
    directly]
  rfl

/-- A service for tests, which echoes its codes, and nobody else. -/
def echoing : Handlers := { secret := text "secret", devOTP := true }

def quiet : Course where
  draws n := ({ now := n, userID := "alice", otp := "123456" }, { now := n })
  others _ s := s

def alice : PublishedBundle where
  registrationId := 7
  deviceId := 1
  identityKeyB64 := utf16 "BQ=="
  signedPreKeyId := 1
  signedPreKeyPublicB64 := utf16 "BQ=="
  signedPreKeySignatureB64 := utf16 "AA=="
  kyberPreKeyId := 1
  kyberPreKeyPublicB64 := utf16 "CA=="
  kyberPreKeySignatureB64 := utf16 "AA=="
  oneTimePreKeyId := some 1
  oneTimePreKeyPublicB64 := some (utf16 "BQ==")

end Hwfa.DiscoveryApi
