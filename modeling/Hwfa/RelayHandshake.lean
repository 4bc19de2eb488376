import Hwfa.MediaServer
import Hwfa.Queries
import Hwfa.RelayNumbers
import Hwfa.RelayWire

/-!
How a connection of the relay begins: the URL of `RelayConnection.connect`
(`packages/client/src/relay.ts`), and the handler of `/v1/relay` (`backend/relay/main.go`).

Who a connection is of is what the token in its query says, and which device, what the
query itself says.  Upgrading is left to the library, which asks `originAllowed` first.
-/

namespace Hwfa.RelayHandshake

open Hwfa.AuthToken (Claims b64 decodeString hmac kindAccess parse segment verifyAccess)
open Hwfa.DiscoveryStore (unix)
open Hwfa.GoJson (Bytes byte)
open Hwfa.GoStructs Hwfa.JsonReaders Hwfa.JsonWriters
open Hwfa.Json (Text utf16)
open Hwfa.Machines
open Hwfa.MediaServer (trimSpace)
open Hwfa.MediaSigner (text)
open Hwfa.Queries (encodeURIComponent parseQuery)
open Hwfa.RelayEnvelope Hwfa.RelayHub Hwfa.RelayProcess Hwfa.RelayWire
open Hwfa.RelayNumbers (atoi)

/-! ### The handler -/

/-- `main.go::originAllowed`; no header is an empty one. -/
def originAllowed (origin : Bytes) (prod : Bool) (allowed : List Bytes) : Bool :=
  if !prod then true
  else if origin = [] then true
  else allowed.contains origin

/-- `main.go::allowedOriginsFromEnv` -/
def allowedOriginsFromEnv (raw : Bytes) : List Bytes :=
  (raw.splitOn (byte ',')).filterMap fun o =>
    if trimSpace o ≠ [] then some (trimSpace o) else none

/-- What `main` has from its environment: the secret, whether it is in production, and
`HWFA_ALLOWED_ORIGINS`. -/
structure Config where
  secret : Bytes
  prod : Bool
  origins : Bytes

def Config.allowedOrigins (cfg : Config) : List Bytes := allowedOriginsFromEnv cfg.origins

/-- What the handler reads of a request. -/
structure Dial where
  origin : Bytes
  query : Bytes

/-- A request that has passed, when, and for whom. -/
structure Handshake where
  dial : Dial
  time : Int
  userID : String
  deviceID : Int64
  exp : Int

/-- A parameter of the query. -/
def Dial.parameter (dial : Dial) (name : String) : Bytes :=
  Queries.get (parseQuery dial.query) (text name)

/-- The handler of `/v1/relay` before the upgrade, or what it answers. -/
def admission (cfg : Config) (dial : Dial) (now : Int) : Except (Nat × String) Handshake :=
  match atoi (ofBytes (dial.parameter "deviceId")) with
  | none => .error (400, "missing deviceId")
  | some deviceID =>
    match verifyAccess hmac cfg.secret (dial.parameter "token") now with
    | none => .error (401, "missing or invalid token")
    | some (userID, exp) => .ok ⟨dial, now, userID, deviceID, exp⟩

/-- The relay with its handler, and the requests that have opened a connection, the last
one first. -/
structure Front where
  wire : Wire
  opened : List (ConnId × Handshake) := []

/-- The request that opened a connection; a relay that restarts numbers them from the
beginning. -/
def Front.opener (f : Front) (c : ConnId) : Option Handshake :=
  (f.opened.find? fun entry => entry.1 = c).map (·.2)

/-- A request, which the library may find unfit to upgrade, or anything that happens
afterwards. -/
inductive Knock where
  | dial (dial : Dial) (now : Int) (upgradable : Bool)
  | wire (e : RelayWire.Event)

/-- Connections begin with a request only. -/
def begins : RelayWire.Event → Bool
  | .other (.act (.connect ..)) => true
  | _ => false

def Front.serve (f : Front) (cfg : Config) (dial : Dial) (now : Int) (upgradable : Bool) : Front :=
  match admission cfg dial now with
  | .error _ => f
  | .ok h =>
    if upgradable && originAllowed dial.origin cfg.prod cfg.allowedOrigins then
      { wire := { f.wire with relay := f.wire.relay.connect h.userID h.deviceID }
        opened := (f.wire.relay.nextConn, h) :: f.opened }
    else f

def front (cfg : Config) : Machine Front Knock where
  start f := wire.start f.wire ∧ f.opened = []
  step f
    | .dial dial now upgradable => some (f.serve cfg dial now upgradable)
    | .wire e =>
      if begins e then none else (wire.step f.wire e).map fun wire => { f with wire }

/-! ### Who is let in -/

/-- The secret has signed the token: for access, by that user, until then. -/
structure Grants (secret token : Bytes) (userID : String) (exp : Int) : Prop where
  signed : token = segment token ++ [byte '.'] ++ b64 (hmac secret (segment token))
  claims : (decodeString (segment token)).bind Claims.unmarshal = some ⟨userID, kindAccess, exp⟩

/-- What a connection was opened with. -/
structure Admitted (cfg : Config) (h : Handshake) : Prop where
  origin : originAllowed h.dial.origin cfg.prod cfg.allowedOrigins = true
  device : atoi (ofBytes (h.dial.parameter "deviceId")) = some h.deviceID
  grants : Grants cfg.secret (h.dial.parameter "token") h.userID h.exp
  fresh : unix h.time < h.exp

variable {cfg : Config} {dial : Dial} {now : Int} {f f' : Front} {c : ConnId} {cl : Client}

/-- A token that verifies is one that the secret has signed. -/
theorem grants_of_verifyAccess {token : Bytes} {userID : String} {exp : Int}
    (accepted : verifyAccess hmac cfg.secret token now = some (userID, exp)) :
    Grants cfg.secret token userID exp ∧ unix now < exp := by
  unfold verifyAccess at accepted
  split at accepted
  · cases accepted
  · next claims parsed =>
    split at accepted
    · cases accepted
    · next access =>
      cases accepted
      have whole := AuthToken.eq_of_parse hmac cfg.secret parsed
      unfold parse at parsed
      split at parsed
      · cases parsed
      · next payload signature halves =>
        obtain ⟨_, rfl⟩ := AuthToken.eq_of_splitN halves
        split at parsed
        · cases parsed
        split at parsed
        · cases parsed
        · next read decoded =>
          split at parsed
          · cases parsed
          · next later =>
            cases parsed
            refine ⟨⟨whole, ?_⟩, Int.not_le.mp later⟩
            rw [decoded, ← Decidable.not_not.mp access]

theorem admission_spec {h : Handshake} (passed : admission cfg dial now = .ok h)
    (origin : originAllowed dial.origin cfg.prod cfg.allowedOrigins = true) : Admitted cfg h := by
  unfold admission at passed
  split at passed
  · cases passed
  · next deviceID device =>
    split at passed
    · cases passed
    · next userID exp accepted =>
      cases passed
      obtain ⟨grants, fresh⟩ := grants_of_verifyAccess accepted
      exact ⟨origin, device, grants, fresh⟩

/-! ### Over a run -/

/-- The connection is of that user and that device, as its request was. -/
def OpenedAs (f : Front) (c : ConnId) (userID : String) (deviceID : Int64) : Prop :=
  ∃ h, f.opener c = some h ∧ h.userID = userID ∧ h.deviceID = deviceID

/-- A request has opened a connection of that user and that device. -/
def Opened (f : Front) (userID : String) (deviceID : Int64) : Prop :=
  ∃ entry ∈ f.opened, entry.2.userID = userID ∧ entry.2.deviceID = deviceID

/-- Every connection, and everyone a frame was read of, has been let in. -/
structure Guarded (cfg : Config) (f : Front) : Prop where
  run : wire.Reachable f.wire
  admitted : ∀ entry ∈ f.opened, Admitted cfg entry.2
  clients : ∀ c cl, f.wire.relay.clients c = some cl → OpenedAs f c cl.userID cl.deviceID
  sent : ∀ sent ∈ f.wire.sent, Opened f sent.userID sent.deviceID

/-- The request of a connection is among those that have opened one. -/
theorem mem_of_opener {h : Handshake} (opener : f.opener c = some h) : (c, h) ∈ f.opened := by
  obtain ⟨⟨d, h'⟩, found, rfl⟩ := Option.map_eq_some_iff.mp opener
  obtain rfl : d = c := by simpa using List.find?_some found
  exact List.mem_of_find?_eq_some found

theorem OpenedAs.opened {userID : String} {deviceID : Int64}
    (opened : OpenedAs f c userID deviceID) : Opened f userID deviceID := by
  obtain ⟨h, opener, same⟩ := opened
  exact ⟨(c, h), mem_of_opener opener, same⟩

theorem Opened.kept {userID : String} {deviceID : Int64} (opened : Opened f userID deviceID)
    (grown : f.opened ⊆ f'.opened) : Opened f' userID deviceID := by
  obtain ⟨h, member, same⟩ := opened
  exact ⟨h, grown member, same⟩

/-- A connection after a step that opens none was there before, as the same. -/
theorem client_before {s s' : Relay} {a : Action} {cl' : Client} (wired : RelayWiring.Wired s)
    (moved : s.step a = some s') (other : ∀ userID deviceID, a ≠ .connect userID deviceID)
    (found : s'.clients c = some cl') :
    ∃ cl, s.clients c = some cl ∧ cl'.userID = cl.userID ∧ cl'.deviceID = cl.deviceID := by
  cases before : s.clients c with
  | none =>
    obtain ⟨userID, deviceID, connected, _⟩ := RelayFrames.step_new moved before found
    exact absurd connected (other userID deviceID)
  | some cl =>
    obtain ⟨cl₁, found₁, same, _⟩ := RelayFrames.step_channel wired moved before
    rw [found] at found₁
    cases found₁
    exact ⟨cl, rfl, same.1, same.2.1⟩

theorem clients_of_event {s s' : Relay} {e : RelayProcess.Event} (wired : RelayWiring.Wired s)
    (moved : service.step s e = some s') (other : begins (.other e) = false)
    (held : ∀ c cl, s.clients c = some cl → OpenedAs f c cl.userID cl.deviceID) :
    ∀ c cl, s'.clients c = some cl → OpenedAs f c cl.userID cl.deviceID := by
  intro c cl' found
  cases e with
  | restart pusher readable now =>
    cases moved
    cases found
  | act a =>
    have own : ∀ userID deviceID, a ≠ .connect userID deviceID := by
      rintro userID deviceID rfl
      cases other
    obtain ⟨cl, before, user, device⟩ := client_before wired moved own found
    rw [user, device]
    exact held c cl before

theorem Guarded.serve {upgradable : Bool} (guarded : Guarded cfg f) :
    Guarded cfg (f.serve cfg dial now upgradable) := by
  unfold Front.serve
  split
  · exact guarded
  · next h passed =>
    split
    · next open_to =>
      rw [Bool.and_eq_true] at open_to
      have older : f.opened ⊆ (f.wire.relay.nextConn, h) :: f.opened := List.subset_cons_self _ _
      have step : wire.step f.wire (.other (.act (.connect h.userID h.deviceID))) =
          some { f.wire with relay := f.wire.relay.connect h.userID h.deviceID } := rfl
      refine ⟨.step guarded.run trivial step, ?_, ?_, ?_⟩
      · exact List.forall_mem_cons.mpr ⟨admission_spec passed open_to.2, guarded.admitted⟩
      · intro c cl found
        by_cases own : f.wire.relay.nextConn = c
        · subst own
          rw [connect_new] at found
          cases found
          exact ⟨h, by simp [Front.opener], rfl, rfl⟩
        · rw [connect_ne (Ne.symm own)] at found
          obtain ⟨h', opener, same⟩ := guarded.clients c cl found
          refine ⟨h', ?_, same⟩
          rw [Front.opener, List.find?_cons_of_neg (by simpa using own)]
          exact opener
      · exact fun sent member => (guarded.sent sent member).kept older
    · exact guarded

theorem Guarded.event {e : RelayWire.Event} {w : Wire} (guarded : Guarded cfg f)
    (other : begins e = false) (moved : wire.step f.wire e = some w) :
    Guarded cfg { f with wire := w } := by
  have honest := reachable_honest guarded.run
  obtain ⟨wired, _⟩ := RelayAddressing.reachable_sound honest.reachable
  have later := guarded.run.step trivial moved
  cases e with
  | data c data enqueuedAt now wrote =>
    simp only [RelayWire.wire, Wire.read, Option.bind_eq_bind, Option.bind_eq_some_iff,
      Option.pure_def, Option.some.injEq] at moved
    obtain ⟨cl, found, relay, read, rfl⟩ := moved
    refine ⟨later, guarded.admitted, ?_, ?_⟩
    · exact clients_of_event wired read rfl guarded.clients
    · exact List.forall_mem_cons.mpr ⟨(guarded.clients c cl found).opened, guarded.sent⟩
  | other e =>
    simp only [RelayWire.wire, Option.ite_none_right_eq_some, Option.map_eq_some_iff] at moved
    obtain ⟨_, relay, happened, rfl⟩ := moved
    exact ⟨later, guarded.admitted, clients_of_event wired happened other guarded.clients,
      guarded.sent⟩

theorem reachable_guarded (reached : (front cfg).Reachable f) : Guarded cfg f := by
  refine reached.invariant (Guarded cfg) ?_ ?_
  · rintro f ⟨⟨⟨path, pusher, fresh⟩, silent⟩, nobody⟩
    refine ⟨.start ⟨⟨path, pusher, fresh⟩, silent⟩, ?_, ?_, ?_⟩
    · rw [nobody]
      exact List.forall_mem_nil _
    · intro c cl found
      rw [fresh] at found
      cases found
    · rw [silent]
      exact List.forall_mem_nil _
  · rintro f knock f' guarded _ moved
    cases knock with
    | dial dial now upgradable =>
      cases moved
      exact guarded.serve
    | wire e =>
      simp only [front, Option.ite_none_left_eq_some, Option.map_eq_some_iff] at moved
      obtain ⟨other, w, happened, rfl⟩ := moved
      exact guarded.event (Bool.eq_false_iff.mpr other) happened

/-- **Only holders of a token hear, and are heard.** Over any run of the relay, whoever asks
for connections and whatever bytes come over them: an envelope that the listener of a
connection is called with is heard by someone who has opened that connection with an access
token of the user that it is for, under the device number that it is for, and carries what
came in a frame of someone who has opened a connection with an access token of the user that
it names as its sender.  Either token had been signed with the secret of the service, and had
not expired. -/
theorem only_token_holders_hear_and_are_heard {msg : RelayMessage} {v : Json.Value}
    (reached : (front cfg).Reachable f) (found : f.wire.relay.clients c = some cl)
    (written : msg ∈ cl.written) (heard : hear (writeJSON msg) = some (.deliver v)) :
    ∃ listener d speaker, ∃ sent ∈ f.wire.sent, ∃ m envelope id,
      f.opener c = some listener ∧ Admitted cfg listener ∧
      listener.userID = cl.userID ∧ listener.deviceID = cl.deviceID ∧
      (d, speaker) ∈ f.opened ∧ Admitted cfg speaker ∧ speaker.userID = sent.userID ∧ speaker.deviceID = sent.deviceID ∧
      unmarshal sent.data = some m ∧ m.envelope = some envelope ∧
      v = envelopeValue { envelope with
        id, senderID := speaker.userID, senderDevice := speaker.deviceID } ∧
      envelope.recipientID = listener.userID ∧ envelope.recipientDevice = listener.deviceID := by
  have guarded := reachable_guarded reached
  obtain ⟨sent, frame, m, envelope, id, message, _, submitted, stamp, user, device⟩ :=
    sent_of_heard guarded.run found written heard
  obtain ⟨listener, let_in, same_user, same_device⟩ := guarded.clients c cl found
  obtain ⟨⟨d, speaker⟩, spoke, own_user, own_device⟩ := guarded.sent sent frame
  refine ⟨listener, d, speaker, sent, frame, m, envelope, id, let_in,
    guarded.admitted _ (mem_of_opener let_in), same_user, same_device, spoke,
    guarded.admitted _ spoke, own_user, own_device, message, submitted, ?_, ?_, ?_⟩
  · rw [stamp, stamped, own_user, own_device]
  · rw [user, same_user]
  · rw [device, same_device]

/-! ### The URL of the client -/

/-- What `RelayConnection.connect` puts behind the question mark. -/
def connectQuery (token : Text) (deviceId : Int) : Option Bytes :=
  (encodeURIComponent token).map fun component =>
    text "token=" ++ component ++ text "&deviceId=" ++ utf8Text (Doubles.ofInt deviceId).text

theorem utf8Text_number {n : Int} (safe : IsSafe n) :
    utf8Text (Doubles.ofInt n).text = GoJson.ascii n.repr.toList := by
  have low := GoJson.repr_ascii n
  rw [text_ofInt safe, ← encode16_low low, utf8Text, scalars_encode16, encode8_low low]

theorem atoi_number {n : Int} (safe : IsSafe n) :
    atoi (ofBytes (GoJson.ascii n.repr.toList)) = some (Int64.ofInt n) := by
  have whole : (Int64.ofInt n).toInt = n := by
    obtain ⟨low, high⟩ := safe
    exact Int64.toInt_ofInt_of_le (by omega) (by omega)
  rw [← encode8_low (GoJson.repr_ascii n), ofBytes_encode8, String.ofList_toList]
  conv => lhs; rw [← whole]
  exact RelayNumbers.atoi_repr _

theorem encode_number (n : Int) : PercentCoding.encode Queries.unescaped (GoJson.ascii n.repr.toList) =
    GoJson.ascii n.repr.toList := by
  refine PercentCoding.encode_of_kept fun b member => ?_
  obtain ⟨c, inside, rfl⟩ := List.mem_map.mp member
  rcases Decimals.repr_chars n c inside with rfl | digit
  · decide
  · have range := Doubles.digit_range digit
    have all : ∀ k : Fin 58, 48 ≤ k.val → Queries.unescaped (UInt8.ofNat k.val) = true := by decide
    exact all ⟨c.toNat, by omega⟩ range.1

/-- The relay reads what the client has written. -/
theorem parameters_of_connectQuery {token : Text} {deviceId : Int} {query : Bytes}
    (safe : IsSafe deviceId) (written : connectQuery token deviceId = some query) (origin : Bytes) :
    (Dial.mk origin query).parameter "token" = utf8Text token ∧
      atoi (ofBytes ((Dial.mk origin query).parameter "deviceId")) = some (Int64.ofInt deviceId) := by
  obtain ⟨component, encoded, rfl⟩ := Option.map_eq_some_iff.mp written
  rw [encodeURIComponent, Option.ite_none_right_eq_some, Option.some_inj] at encoded
  obtain ⟨_, rfl⟩ := encoded
  let digits := GoJson.ascii deviceId.repr.toList
  have pairs : text "token=" ++ PercentCoding.encode Queries.unescaped (utf8Text token) ++
      text "&deviceId=" ++ utf8Text (Doubles.ofInt deviceId).text =
        PercentCoding.writePairs Queries.unescaped
          ([(text "token", utf8Text token)] ++ [(text "deviceId", digits)]) := by
    have token_name : PercentCoding.encode Queries.unescaped (text "token") = text "token" := by decide
    have device_name : PercentCoding.encode Queries.unescaped (text "deviceId") = text "deviceId" := by
      decide
    have token_mark : text "token=" = text "token" ++ [PercentCoding.equals] := by decide
    have device_mark : text "&deviceId=" =
        PercentCoding.ampersand :: (text "deviceId" ++ [PercentCoding.equals]) := by decide
    rw [PercentCoding.writePairs_append (List.cons_ne_nil _ _), PercentCoding.writePairs,
      List.map_singleton, List.intercalate_singleton, PercentCoding.writePair, PercentCoding.writePair,
      token_name, device_name, encode_number, utf8Text_number safe, token_mark, device_mark]
    simp only [List.append_assoc, List.cons_append, List.nil_append]
  have parsed := Queries.parseQuery_writePairs Queries.quotes_unescaped
    (List.append_ne_nil_of_left_ne_nil (List.cons_ne_nil (text "token", utf8Text token) [])
      [(text "deviceId", digits)])
  rw [Dial.parameter, Dial.parameter, pairs, parsed]
  have device : Queries.get ([(text "token", utf8Text token)] ++ [(text "deviceId", digits)])
      (text "deviceId") = digits := rfl
  refine ⟨rfl, ?_⟩
  rw [device]
  exact atoi_number safe

/-- What the relay answers to a token that the services have signed. -/
theorem admission_sign (now : Int) {uid kind : String} {ttl t : Int} {deviceID : Int64}
    (fits : GoJson.IsInt64 (unix (t + ttl)))
    (device : atoi (ofBytes (dial.parameter "deviceId")) = some deviceID)
    (token : dial.parameter "token" = AuthToken.sign hmac cfg.secret uid kind ttl t) :
    admission cfg dial now = if kind = kindAccess ∧ unix now < unix (t + ttl) then
      .ok ⟨dial, now, uid, deviceID, unix (t + ttl)⟩ else .error (401, "missing or invalid token") := by
  have verified : verifyAccess hmac cfg.secret (dial.parameter "token") now =
      if kind = kindAccess ∧ unix now < unix (t + ttl) then some (uid, unix (t + ttl)) else none := by
    rw [token, verifyAccess, AuthToken.parse_sign hmac cfg.secret fits]
    by_cases expired : unix (t + ttl) ≤ unix now
    · rw [if_pos expired, if_neg fun fresh => Int.not_le.mpr fresh.2 expired]
    · rw [if_neg expired]
      by_cases access : kind = kindAccess
      · rw [if_pos ⟨access, Int.not_le.mp expired⟩]
        exact if_neg fun other => other access
      · rw [if_neg fun fresh => access fresh.1]
        exact if_pos access
  rw [admission, device, verified]
  by_cases valid : kind = kindAccess ∧ unix now < unix (t + ttl)
  · rw [if_pos valid, if_pos valid]
  · rw [if_neg valid, if_neg valid]

theorem connectQuery_sign (cfg : Config) (uid kind : String) (ttl t deviceId : Int) :
    ∃ query, connectQuery (utf16 (ofBytes (AuthToken.sign hmac cfg.secret uid kind ttl t))) deviceId =
        some query ∧ (IsSafe deviceId → ∀ origin,
      (Dial.mk origin query).parameter "token" = AuthToken.sign hmac cfg.secret uid kind ttl t ∧
        atoi (ofBytes ((Dial.mk origin query).parameter "deviceId")) = some (Int64.ofInt deviceId)) := by
  have low : ∀ b ∈ AuthToken.sign hmac cfg.secret uid kind ttl t, b < 128 := fun b member =>
    UInt8.lt_iff_toNat_lt.mpr (AuthToken.sign_ascii hmac cfg.secret uid kind ttl t b member)
  obtain ⟨query, written⟩ : ∃ query,
      connectQuery (utf16 (ofBytes (AuthToken.sign hmac cfg.secret uid kind ttl t))) deviceId =
        some query := by
    rw [connectQuery, encodeURIComponent, if_pos (Queries.wellFormed_utf16 _), Option.map_some]
    exact ⟨_, rfl⟩
  refine ⟨query, written, fun safe origin => ?_⟩
  obtain ⟨token, device⟩ := parameters_of_connectQuery safe written origin
  rw [utf8Text_ofBytes low] at token
  exact ⟨token, device⟩

/-- **The URL of the client opens its connection.** The relay reads the token and the device
number back from the URL of a client that has a token that the services signed.  Its request
opens, if it may be upgraded, exactly the connection of the user of the token and of the
client's own device: if it is an access token that has not expired.  Otherwise it changes
nothing. -/
theorem client_url_opens_its_connection (uid kind : String) {ttl t deviceId : Int}
    (fits : GoJson.IsInt64 (unix (t + ttl))) (safe : IsSafe deviceId) :
    ∃ query, connectQuery (utf16 (ofBytes (AuthToken.sign hmac cfg.secret uid kind ttl t))) deviceId =
        some query ∧
      (∀ origin,
        (Dial.mk origin query).parameter "token" = AuthToken.sign hmac cfg.secret uid kind ttl t ∧
        atoi (ofBytes ((Dial.mk origin query).parameter "deviceId")) = some (Int64.ofInt deviceId)) ∧
      ∀ f origin now upgradable, (front cfg).step f (.dial ⟨origin, query⟩ now upgradable) =
        some (if (upgradable && originAllowed origin cfg.prod cfg.allowedOrigins) ∧
            kind = kindAccess ∧ unix now < unix (t + ttl) then
          { wire := { f.wire with relay := f.wire.relay.connect uid (Int64.ofInt deviceId) }
            opened := (f.wire.relay.nextConn,
              ⟨⟨origin, query⟩, now, uid, Int64.ofInt deviceId, unix (t + ttl)⟩) :: f.opened }
        else f) := by
  obtain ⟨query, written, reads⟩ := connectQuery_sign cfg uid kind ttl t deviceId
  refine ⟨query, written, reads safe, fun f origin now upgradable => ?_⟩
  obtain ⟨token, device⟩ := reads safe origin
  have answer := admission_sign now fits device token
  change some (f.serve cfg ⟨origin, query⟩ now upgradable) = _
  rw [Front.serve, answer]
  by_cases valid : kind = kindAccess ∧ unix now < unix (t + ttl)
  · rw [if_pos valid]
    by_cases open_to : (upgradable && originAllowed origin cfg.prod cfg.allowedOrigins) = true
    · rw [if_pos ⟨open_to, valid⟩]
      exact congrArg some (if_pos open_to)
    · rw [if_neg fun both => open_to both.1]
      exact congrArg some (if_neg open_to)
  · rw [if_neg valid, if_neg fun both => valid both.2]

/-- A relay in production, without pages of its own. -/
def relay : Config where
  secret := [1, 2, 3]
  prod := true
  origins := []

/-- Bob's own URL, in the quarter of an hour that his token lives, and after. -/
theorem bob_dials : ∃ query, connectQuery (utf16 (ofBytes (AuthToken.sign hmac relay.secret "bob"
      kindAccess 900000000000 1700000000000000000))) 2 = some query ∧
    (∀ origin,
      (Dial.mk origin query).parameter "token" =
        AuthToken.sign hmac relay.secret "bob" kindAccess 900000000000 1700000000000000000 ∧
      atoi (ofBytes ((Dial.mk origin query).parameter "deviceId")) = some (Int64.ofInt 2)) ∧
    ∀ f origin now upgradable, (front relay).step f (.dial ⟨origin, query⟩ now upgradable) =
      some (if (upgradable && originAllowed origin relay.prod relay.allowedOrigins) ∧
          kindAccess = kindAccess ∧ unix now < unix (1700000000000000000 + 900000000000) then
        { wire := { f.wire with relay := f.wire.relay.connect "bob" (Int64.ofInt 2) }
          opened := (f.wire.relay.nextConn, ⟨⟨origin, query⟩, now, "bob", Int64.ofInt 2,
            unix (1700000000000000000 + 900000000000)⟩) :: f.opened }
      else f) :=
  client_url_opens_its_connection "bob" kindAccess (by decide) (by constructor <;> decide)

/-! ### Letting in -/

/-- Someone has a token for a connection. -/
def HasToken (cfg : Config) (userID : String) (deviceID : Int64) : Prop :=
  ∃ dial now h, admission cfg dial now = .ok h ∧
    originAllowed dial.origin cfg.prod cfg.allowedOrigins = true ∧ h.userID = userID ∧ h.deviceID = deviceID

/-- Whatever the relay can do, it can do behind its handler, if whoever connects has a token. -/
theorem follow {schedule : List RelayProcess.Event} {s : Relay} (reached : (front cfg).Reachable f)
    (unframed : ∀ e ∈ schedule, Unframed e)
    (tokens : ∀ userID deviceID, .act (.connect userID deviceID) ∈ schedule →
      HasToken cfg userID deviceID)
    (ran : service.run f.wire.relay schedule = some s) :
    ∃ f', (front cfg).Reachable f' ∧ f'.wire = { f.wire with relay := s } := by
  induction schedule generalizing f with
  | nil =>
    cases ran
    exact ⟨f, reached, rfl⟩
  | cons e rest ih =>
    simp only [Machine.run, Option.bind_eq_some_iff] at ran
    obtain ⟨middle, moved, ran⟩ := ran
    rw [List.forall_mem_cons] at unframed
    have one : ∃ f₁, (front cfg).Reachable f₁ ∧ f₁.wire = { f.wire with relay := middle } := by
      by_cases starts : begins (.other e) = true
      · obtain ⟨userID, deviceID, rfl⟩ : ∃ userID deviceID, e = .act (.connect userID deviceID) := by
          unfold begins at starts
          split at starts
          · next same => exact ⟨_, _, RelayWire.Event.other.inj same⟩
          · cases starts
        cases moved
        obtain ⟨dial, now, h, passed, open_to, rfl, rfl⟩ :=
          tokens userID deviceID List.mem_cons_self
        refine ⟨_, .step (a := .dial dial now true) reached trivial rfl, ?_⟩
        rw [Front.serve, passed]
        exact congrArg Front.wire (if_pos open_to)
      · have step : (front cfg).step f (.wire (.other e)) =
            some { f with wire := { f.wire with relay := middle } } := by
          simp [front, starts, RelayWire.wire, unframed.1, moved]
        exact ⟨_, .step reached trivial step, rfl⟩
    obtain ⟨f₁, reached₁, wire₁⟩ := one
    have later : service.run f₁.wire.relay rest = some s := by
      rw [wire₁]
      exact ran
    obtain ⟨f', reached', same⟩ := ih reached₁ unframed.2
      (fun userID deviceID member => tokens userID deviceID (List.mem_cons_of_mem _ member)) later
    refine ⟨f', reached', ?_⟩
    rw [same, wire₁]

theorem hasToken (userID : String) {n : Int} (safe : IsSafe n) :
    HasToken relay userID (Int64.ofInt n) := by
  obtain ⟨query, _, reads⟩ :=
    connectQuery_sign relay userID kindAccess 900000000000 1700000000000000000 n
  obtain ⟨token, device⟩ := reads safe []
  have answer := admission_sign 1700000001000000000 (by decide) device token
  rw [if_pos (by decide)] at answer
  exact ⟨_, _, _, answer, rfl, rfl, rfl⟩

/-- Mallory's letter under Alice's name, behind the handler. -/
theorem letter_is_heard_by_bob : ∃ f cl, (front relay).Reachable f ∧
    f.wire.relay.clients 1 = some cl ∧ deliver arrived ∈ cl.written ∧
    ∃ listener d speaker, ∃ sent ∈ f.wire.sent, ∃ m envelope id,
      f.opener 1 = some listener ∧ Admitted relay listener ∧
      listener.userID = cl.userID ∧ listener.deviceID = cl.deviceID ∧
      (d, speaker) ∈ f.opened ∧ Admitted relay speaker ∧ speaker.userID = sent.userID ∧ speaker.deviceID = sent.deviceID ∧
      unmarshal sent.data = some m ∧ m.envelope = some envelope ∧
      envelopeValue arrived = envelopeValue { envelope with
        id, senderID := speaker.userID, senderDevice := speaker.deviceID } ∧
      envelope.recipientID = listener.userID ∧ envelope.recipientDevice = listener.deviceID := by
  have safe : (Request.sendEnvelope letter none).IsSafe := letter_safe
  obtain ⟨data, put, understood⟩ := unmarshal_frame safe
  rw [letter_received] at understood
  let fresh := started (newHub "relay.json" true) none
  have observed : ((service.run fresh beforeLetter).bind fun s => (s.clients 0).bind fun cl =>
      (s.step (.at 0 (.frame (some letterFrame) 1 1 true))).bind fun s =>
        (service.run s afterLetter).bind fun s => (s.clients 1).map fun cl => cl.written) =
      some [deliver arrived] := by decide +kernel
  simp only [Option.bind_eq_some_iff, Option.map_eq_some_iff] at observed
  obtain ⟨before, ran, mallory, connected, routed, moved, after, delivered, bob, found, written⟩ :=
    observed
  have begun : (front relay).Reachable ⟨⟨fresh, []⟩, []⟩ :=
    .start ⟨⟨⟨"relay.json", true, rfl⟩, rfl⟩, rfl⟩
  have tokens (userID : String) (deviceID : Int64)
      (member : .act (.connect userID deviceID) ∈ beforeLetter) : HasToken relay userID deviceID := by
    have one : (userID = "mallory" ∧ deviceID = 9) ∨ (userID = "bob" ∧ deviceID = 2) := by
      simpa [beforeLetter] using member
    rcases one with ⟨rfl, rfl⟩ | ⟨rfl, rfl⟩
    · exact hasToken "mallory" (n := 9) (by constructor <;> decide)
    · exact hasToken "bob" (n := 2) (by constructor <;> decide)
  obtain ⟨f, reached, same⟩ := follow begun (by decide) tokens ran
  have connected : f.wire.relay.clients 0 = some mallory := by
    rw [same]
    exact connected
  have read : (front relay).step f (.wire (.data 0 data 1 1 true)) =
      some { f with wire := ⟨routed, ⟨mallory.userID, mallory.deviceID, data⟩ :: f.wire.sent⟩ } := by
    have step : service.step f.wire.relay (.act (.at 0 (.frame (some letterFrame) 1 1 true))) =
        some routed := by
      rw [same]
      exact moved
    simp [front, begins, RelayWire.wire, Wire.read, connected, understood, step]
  obtain ⟨f', reached', same'⟩ := follow (.step reached trivial read) (by decide)
    (fun userID deviceID member => by simp [afterLetter] at member) delivered
  have found : f'.wire.relay.clients 1 = some bob := by
    rw [same']
    exact found
  have member : deliver arrived ∈ bob.written := by
    rw [written]
    exact List.mem_singleton_self _
  have heard : hear (writeJSON (deliver arrived)) = some (.deliver (envelopeValue arrived)) :=
    hear_writeJSON _
  exact ⟨f', bob, reached', found, member,
    only_token_holders_hear_and_are_heard reached' found member heard⟩

end Hwfa.RelayHandshake
