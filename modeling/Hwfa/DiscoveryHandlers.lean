import Hwfa.AuthToken
import Hwfa.ContactsDiscovery
import Hwfa.DiscoveryFile
import Hwfa.GoStreams
import Hwfa.MediaServer

/-!
The HTTP handlers of Discovery (`backend/discovery/handlers.go`, `types.go`).

A handler first does what looks at no state (`admission`): it verifies the bearer token, reads
the body and checks it.  What it then asks of the store is a `Call`, one critical section
(`run`); two handlers have a second one, and any other request may come in between.  The
path of a request is what it names.
-/

namespace Hwfa.DiscoveryHandlers

open Hwfa.AuthToken (hmac kindAccess)
open Hwfa.ContactsDiscovery (maxIntersectHashes)
open Hwfa.DiscoveryFile (oneTimePreKey)
open Hwfa.DiscoveryService (Service)
open Hwfa.DiscoveryStore
open Hwfa.GoJson (Bytes Value byte)
open Hwfa.GoStreams (Slice decode reused)
open Hwfa.GoStructs Hwfa.JsonWriters
open Hwfa.MediaServer (trimSpace)
open Hwfa.MediaSigner (text)

/-! ### Requests -/

/-- A `RegisterRequest` or a `LinkRequest` as it is read: `asRegister` makes the one of the
other, without a phone number. -/
structure Posted where
  token : String := ""
  req : RegisterRequest := ⟨"", 0, 0, "", 0, "", "", 0, "", "", []⟩
  oneTimePreKeys : Slice OneTimePreKey := {}

def keyFields : List (StructField Posted) := [
  field "deviceId" int (·.req.deviceID) fun p deviceID => { p with req := { p.req with deviceID } },
  field "registrationId" int (·.req.registrationID)
    fun p registrationID => { p with req := { p.req with registrationID } },
  field "identityKeyB64" string (·.req.identityKeyB64)
    fun p identityKeyB64 => { p with req := { p.req with identityKeyB64 } },
  field "signedPreKeyId" int (·.req.signedPreKeyID)
    fun p signedPreKeyID => { p with req := { p.req with signedPreKeyID } },
  field "signedPreKeyPublicB64" string (·.req.signedPreKeyPublicB64)
    fun p signedPreKeyPublicB64 => { p with req := { p.req with signedPreKeyPublicB64 } },
  field "signedPreKeySignatureB64" string (·.req.signedPreKeySignatureB64)
    fun p signedPreKeySignatureB64 => { p with req := { p.req with signedPreKeySignatureB64 } },
  field "kyberPreKeyId" int (·.req.kyberPreKeyID)
    fun p kyberPreKeyID => { p with req := { p.req with kyberPreKeyID } },
  field "kyberPreKeyPublicB64" string (·.req.kyberPreKeyPublicB64)
    fun p kyberPreKeyPublicB64 => { p with req := { p.req with kyberPreKeyPublicB64 } },
  field "kyberPreKeySignatureB64" string (·.req.kyberPreKeySignatureB64)
    fun p kyberPreKeySignatureB64 => { p with req := { p.req with kyberPreKeySignatureB64 } },
  field "oneTimePreKeys" (reused oneTimePreKey) (·.oneTimePreKeys)
    fun p oneTimePreKeys => { p with oneTimePreKeys }]

def phoneNumberField : StructField Posted := field "phoneNumber" string (·.req.phoneNumber)
  fun p phoneNumber => { p with req := { p.req with phoneNumber } }

def tokenField : StructField Posted := field "token" string (·.token) fun p token => { p with token }

def registerRequest : Codec Posted := struct {} (phoneNumberField :: keyFields)

def linkRequest : Codec Posted := struct {} (tokenField :: keyFields)

/-- The request, with the keys that the slice ends up with. -/
def Posted.asRegister (p : Posted) : RegisterRequest :=
  { p.req with oneTimePreKeys := p.oneTimePreKeys.elements }

/-- `types.go::VerifyRequest` -/
structure VerifyRequest where
  userID : String := ""
  code : String := ""

def verifyRequest : Codec VerifyRequest := struct {} [
  field "userId" string (·.userID) fun r userID => { r with userID },
  field "code" string (·.code) fun r code => { r with code }]

/-- `types.go::RefreshRequest` -/
structure RefreshRequest where
  refreshToken : String := ""

def refreshRequest : Codec RefreshRequest := struct {} [
  field "refreshToken" string (·.refreshToken) fun r refreshToken => { r with refreshToken }]

/-- `types.go::UploadRequest` -/
structure UploadRequest where
  oneTimePreKeys : Slice OneTimePreKey := {}

def uploadRequest : Codec UploadRequest := struct {} [
  field "oneTimePreKeys" (reused oneTimePreKey) (·.oneTimePreKeys)
    fun r oneTimePreKeys => { r with oneTimePreKeys }]

/-- `types.go::IntersectRequest` -/
structure IntersectRequest where
  phoneHashesB64 : Slice String := {}

def intersectRequest : Codec IntersectRequest := struct {} [
  field "phoneHashesB64" (reused string) (·.phoneHashesB64)
    fun r phoneHashesB64 => { r with phoneHashesB64 }]

/-! ### Replies -/

/-- `types.go::RegisterResponse` -/
structure RegisterResponse where
  userID : String := ""
  otpSent : Bool := false
  devOTP : String := ""

def registerResponseFields : List (StructField RegisterResponse) := [
  field "userId" string (·.userID) fun r userID => { r with userID },
  field "otpSent" boolean (·.otpSent) fun r otpSent => { r with otpSent },
  omitempty "devOtp" string (·.devOTP) fun r devOTP => { r with devOTP }]

/-- `types.go::VerifyResponse` -/
structure VerifyResponse where
  verified : Bool := false
  token : String := ""
  refreshToken : String := ""

def verifyResponseFields : List (StructField VerifyResponse) := [
  field "verified" boolean (·.verified) fun r verified => { r with verified },
  field "token" string (·.token) fun r token => { r with token },
  field "refreshToken" string (·.refreshToken) fun r refreshToken => { r with refreshToken }]

/-- `types.go::RefreshResponse` -/
structure RefreshResponse where
  token : String := ""
  refreshToken : String := ""

def refreshResponseFields : List (StructField RefreshResponse) := [
  field "token" string (·.token) fun r token => { r with token },
  field "refreshToken" string (·.refreshToken) fun r refreshToken => { r with refreshToken }]

def publishedKeyBundleFields : List (StructField PublishedKeyBundle) := [
  field "registrationId" int (·.registrationID) fun b registrationID => { b with registrationID },
  field "deviceId" int (·.deviceID) fun b deviceID => { b with deviceID },
  field "identityKeyB64" string (·.identityKeyB64) fun b identityKeyB64 => { b with identityKeyB64 },
  field "signedPreKeyId" int (·.signedPreKeyID) fun b signedPreKeyID => { b with signedPreKeyID },
  field "signedPreKeyPublicB64" string (·.signedPreKeyPublicB64)
    fun b signedPreKeyPublicB64 => { b with signedPreKeyPublicB64 },
  field "signedPreKeySignatureB64" string (·.signedPreKeySignatureB64)
    fun b signedPreKeySignatureB64 => { b with signedPreKeySignatureB64 },
  field "kyberPreKeyId" int (·.kyberPreKeyID) fun b kyberPreKeyID => { b with kyberPreKeyID },
  field "kyberPreKeyPublicB64" string (·.kyberPreKeyPublicB64)
    fun b kyberPreKeyPublicB64 => { b with kyberPreKeyPublicB64 },
  field "kyberPreKeySignatureB64" string (·.kyberPreKeySignatureB64)
    fun b kyberPreKeySignatureB64 => { b with kyberPreKeySignatureB64 },
  field "oneTimePreKeyId" (pointer int) (·.oneTimePreKeyID)
    fun b oneTimePreKeyID => { b with oneTimePreKeyID },
  field "oneTimePreKeyPublicB64" (pointer string) (·.oneTimePreKeyPublicB64)
    fun b oneTimePreKeyPublicB64 => { b with oneTimePreKeyPublicB64 }]

/-- `types.go::LinkTokenResponse` -/
structure LinkTokenResponse where
  token : String := ""
  expiresInSec : Int64 := 0

def linkTokenResponseFields : List (StructField LinkTokenResponse) := [
  field "token" string (·.token) fun r token => { r with token },
  field "expiresInSec" int (·.expiresInSec) fun r expiresInSec => { r with expiresInSec }]

/-- `types.go::LinkResponse` -/
structure LinkResponse where
  userID : String := ""
  accountID : String := ""
  token : String := ""
  refreshToken : String := ""

def linkResponseFields : List (StructField LinkResponse) := [
  field "userId" string (·.userID) fun r userID => { r with userID },
  field "accountId" string (·.accountID) fun r accountID => { r with accountID },
  field "token" string (·.token) fun r token => { r with token },
  field "refreshToken" string (·.refreshToken) fun r refreshToken => { r with refreshToken }]

def deviceInfoFields : List (StructField DeviceInfo) := [
  field "userId" string (·.userID) fun d userID => { d with userID },
  field "deviceId" int (·.deviceID) fun d deviceID => { d with deviceID },
  field "primary" boolean (·.primary) fun d primary => { d with primary }]

def intersectMatchFields : List (StructField IntersectMatch) := [
  field "phoneHashB64" string (·.phoneHashB64) fun m phoneHashB64 => { m with phoneHashB64 },
  field "userId" string (·.userID) fun m userID => { m with userID }]

def registerResponse : Codec RegisterResponse := struct {} registerResponseFields
def verifyResponse : Codec VerifyResponse := struct {} verifyResponseFields
def refreshResponse : Codec RefreshResponse := struct {} refreshResponseFields
def publishedKeyBundle : Codec PublishedKeyBundle :=
  struct ⟨0, 0, "", 0, "", "", 0, "", "", none, none⟩ publishedKeyBundleFields
def linkTokenResponse : Codec LinkTokenResponse := struct {} linkTokenResponseFields
def linkResponse : Codec LinkResponse := struct {} linkResponseFields
def deviceInfo : Codec DeviceInfo := struct ⟨"", 0, false⟩ deviceInfoFields
def intersectMatch : Codec IntersectMatch := struct ⟨"", ""⟩ intersectMatchFields

/-- A struct with one field. -/
def wrapped {α : Type} (name : String) (c : Codec α) : Codec α :=
  struct c.zero [field name c id fun _ a => a]

def uploadResponse : Codec Int64 := wrapped "poolSize" int
def saltResponse : Codec String := wrapped "saltB64" string
def devicesResponse : Codec (Option (List String)) := wrapped "devices" (sliceOrNil string)
def myDevicesResponse : Codec (List DeviceInfo) := wrapped "devices" (slice deviceInfo)
def accountResponse : Codec String := wrapped "accountId" string
def intersectResponse : Codec (List IntersectMatch) := wrapped "matches" (slice intersectMatch)

/-- `writeError`, of a map with one key. -/
def errorResponse : Codec String := wrapped "error" string

/-- What a handler writes. -/
inductive Reply where
  | error (status : Nat) (msg : String)
  | registered (r : RegisterResponse)
  | verified (r : VerifyResponse)
  | refreshed (r : RefreshResponse)
  | bundle (b : PublishedKeyBundle)
  | noContent
  | poolSize (size : Int64)
  | linkToken (r : LinkTokenResponse)
  | linked (r : LinkResponse)
  | devices (ids : Option (List String))
  | myDevices (owned : List DeviceInfo)
  | account (accountID : String)
  | salt (saltB64 : String)
  | found (hits : List IntersectMatch)

def Reply.status : Reply → Nat
  | .error status _ => status
  | .noContent => 204
  | _ => 200

/-- What is encoded, if there is a body. -/
def Reply.shows : Reply → Option Value
  | .error _ msg => some (errorResponse.encode msg)
  | .registered r => some (registerResponse.encode r)
  | .verified r => some (verifyResponse.encode r)
  | .refreshed r => some (refreshResponse.encode r)
  | .bundle b => some (publishedKeyBundle.encode b)
  | .noContent => none
  | .poolSize size => some (uploadResponse.encode size)
  | .linkToken r => some (linkTokenResponse.encode r)
  | .linked r => some (linkResponse.encode r)
  | .devices ids => some (devicesResponse.encode ids)
  | .myDevices owned => some (myDevicesResponse.encode owned)
  | .account accountID => some (accountResponse.encode accountID)
  | .salt saltB64 => some (saltResponse.encode saltB64)
  | .found hits => some (intersectResponse.encode hits)

/-- `writeJSON` -/
def Reply.bytes (reply : Reply) : Nat × Bytes :=
  (reply.status, (reply.shows.map encodeLine).getD [])

/-! ### Handlers -/

/-- The routes of `main`, with the user or the account that a path names. -/
inductive Route where
  | register
  | verify
  | refresh
  | fetchKeys (userID : String)
  | deleteAccount
  | keyPool
  | uploadKeys
  | linkToken
  | link
  | devices (accountID : String)
  | myDevices
  | removeDevice (userID : String)
  | account (userID : String)
  | salt
  | intersect
  deriving DecidableEq

/-- What a handler reads of a request; a header that is missing is empty. -/
structure HttpRequest where
  route : Route
  authorization : Bytes := []
  body : Bytes := []

/-- A critical section that a handler asks of the store. -/
inductive Call where
  | register (req : RegisterRequest)
  | verify (userID code : String)
  | refresh (refreshToken : Bytes)
  | bundleFor (userID : String)
  | deleteAccount (userID : String)
  | poolSize (userID : String)
  | addOneTime (userID : String) (keys : List OneTimePreKey)
  | mintFor (userID : String)
  | createLinkToken (accountID : String)
  | linkDevice (token : String) (req : RegisterRequest)
  | devicesFor (accountID : String)
  | accountDevices (userID : String)
  | removeDevice (callerUserID targetUserID : String)
  | accountIDFor (userID : String)
  | saltB64
  | allowIntersect (userID : String) (hashes : List String)
  | intersect (hashes : List String)

/-- `handlers.go::handlers`, and the secret of its store. -/
structure Handlers where
  secret : Bytes
  devOTP : Bool := false

section

variable (h : Handlers)

/-- `Store.userForToken`, of the bytes of a token. -/
def Handlers.userForToken (token : Bytes) (now : Int) : Option String :=
  match AuthToken.verify hmac h.secret token now with
  | some (uid, kind) => if kind ≠ kindAccess then none else some uid
  | none => none

/-- `handlers.go::bearerUser` -/
def Handlers.bearerUser (authorization : Bytes) (now : Int) : Option String :=
  if (text "Bearer ").isPrefixOf authorization then
    let token := trimSpace (authorization.drop (text "Bearer ").length)
    if token = [] then none else h.userForToken token now
  else none

/-- What a handler does for the user of the token. -/
def Handlers.authed (r : HttpRequest) (now : Int) (k : String → Except Reply Call) :
    Except Reply Call :=
  match h.bearerUser r.authorization now with
  | some userID => k userID
  | none => .error (.error 401 "missing or invalid token")

/-- The body of a request, if it can be read. -/
def decoded {α : Type} (c : Codec α) (r : HttpRequest) (k : α → Except Reply Call) :
    Except Reply Call :=
  match decode c r.body with
  | some a => k a
  | none => .error (.error 400 "invalid JSON")

/-- A handler, up to where it needs the store. -/
def Handlers.admission (r : HttpRequest) (now : Int) : Except Reply Call :=
  match r.route with
  | .register => decoded registerRequest r fun p =>
    if p.req.phoneNumber = "" ∨ p.req.identityKeyB64 = "" then
      .error (.error 400 "missing phoneNumber or identity key")
    else
      let req := p.asRegister
      .ok (.register (if req.deviceID = 0 then { req with deviceID := 1 } else req))
  | .verify => decoded verifyRequest r fun req => .ok (.verify req.userID req.code)
  | .refresh => decoded refreshRequest r fun req => .ok (.refresh (utf8 req.refreshToken))
  | .fetchKeys target => h.authed r now fun _ => .ok (.bundleFor target)
  | .deleteAccount => h.authed r now fun userID => .ok (.deleteAccount userID)
  | .keyPool => h.authed r now fun userID => .ok (.poolSize userID)
  | .uploadKeys => h.authed r now fun userID => decoded uploadRequest r fun req =>
    .ok (.addOneTime userID req.oneTimePreKeys.elements)
  | .linkToken => h.authed r now fun userID => .ok (.mintFor userID)
  | .link => decoded linkRequest r fun p =>
    if p.token = "" ∨ p.req.identityKeyB64 = "" then
      .error (.error 400 "missing token or identity key")
    else .ok (.linkDevice p.token p.asRegister)
  | .devices accountID => h.authed r now fun _ => .ok (.devicesFor accountID)
  | .myDevices => h.authed r now fun userID => .ok (.accountDevices userID)
  | .removeDevice target => h.authed r now fun userID => .ok (.removeDevice userID target)
  | .account userID => h.authed r now fun _ => .ok (.accountIDFor userID)
  | .salt => h.authed r now fun _ => .ok .saltB64
  | .intersect => h.authed r now fun userID => decoded intersectRequest r fun req =>
    if maxIntersectHashes < req.phoneHashesB64.elements.length then
      .error (.error 400 "too many hashes in one request")
    else .ok (.allowIntersect userID req.phoneHashesB64.elements)

/-- What comes from outside while a critical section runs: the clock, the random names, the
outcome of the file write, and the order in which a map is gone through. -/
structure Draws where
  now : Int
  userID : String := ""
  otp : String := ""
  token : String := ""
  wrote : Bool := true
  order : List (String × Account) → List (String × Account) := id
  same : ∀ entries, (order entries).Perm entries := by exact fun entries => .refl entries

/-- The accounts with their keys, in the order in which this section meets them. -/
def Draws.entries (d : Draws) (s : Store) : List (String × Account) :=
  d.order (s.accounts.entries.map fun entry => (entry.1, entry.2))

/-- `Store.issueTokens`, in bytes that are text. -/
def Handlers.issueTokens (uid : String) (now : Int) : String × String :=
  (ofBytes (AuthToken.sign hmac h.secret uid kindAccess accessTTL now),
    ofBytes (AuthToken.sign hmac h.secret uid "refresh" refreshTTL now))

/-- `Store.refresh`, of the bytes of a token. -/
def Handlers.refreshTokens (s : Store) (refreshToken : Bytes) (now : Int) :
    Option (String × String) :=
  match AuthToken.verify hmac h.secret refreshToken now with
  | none => none
  | some (uid, kind) =>
    if kind ≠ "refresh" then none
    else
      match s.accounts.lookup uid with
      | none => none
      | some acct => if acct.verified then some (h.issueTokens uid now) else none

/-- A slice that is nil until something is appended to it. -/
def appended {α : Type} (items : List α) : Option (List α) := if items = [] then none else some items

/-- Where a handler is after a critical section. -/
inductive Next where
  | replies (reply : Reply)
  | asks (call : Call)

/-- What a critical section leaves, and what it hands to the SMS gateway. -/
structure Turn where
  service : Service
  next : Next
  sms : List (String × String) := []

/-- The same section of the service, with what is answered to its result. -/
def Service.after (s : Service) (d : Draws) (r : DiscoveryService.Request) (reply : Reply) : Turn :=
  ⟨s.handle d.wrote r, .replies reply, []⟩

def Handlers.run (d : Draws) (s : Service) : Call → Turn
  | .register req =>
    match (s.store.register req d.userID d.otp d.now).result with
    | none => Service.after s d (.register req d.userID d.otp d.now)
      (.error 429 "a code was just sent — wait a moment before retrying")
    | some (userID, otp) =>
      { service := s.handle d.wrote (.register req d.userID d.otp d.now)
        next := .replies (.registered ⟨userID, true, if h.devOTP then otp else ""⟩)
        sms := [(req.phoneNumber, otp)] }
  | .verify userID code =>
    Service.after s d (.verify userID code d.now) <|
      match (s.store.verify userID code d.now).result with
      | none => .error 401 "invalid userId or code"
      | some _ =>
        let tokens := h.issueTokens userID d.now
        .verified ⟨true, tokens.1, tokens.2⟩
  | .refresh refreshToken =>
    { service := s
      next := .replies <|
        match h.refreshTokens s.store refreshToken d.now with
        | none => .error 401 "invalid or revoked refresh token"
        | some (access, refresh) => .refreshed ⟨access, refresh⟩ }
  | .bundleFor userID =>
    Service.after s d (.bundleFor userID) <|
      match (s.store.bundleFor userID).result with
      | none => .error 404 "no verified account for that user"
      | some b => .bundle b
  | .deleteAccount userID =>
    Service.after s d (.deleteAccount userID) <|
      if (s.store.deleteAccount userID).result then .noContent else .error 404 "account not found"
  | .poolSize userID =>
    { service := s
      next := .replies <|
        match s.store.poolSize userID with
        | none => .error 404 "account not found"
        | some size => .poolSize (Int64.ofNat size) }
  | .addOneTime userID keys =>
    Service.after s d (.addOneTime userID keys) <|
      match (s.store.addOneTime userID keys).result with
      | none => .error 404 "account not found"
      | some size => .poolSize (Int64.ofNat size)
  | .mintFor userID =>
    { service := s
      next :=
        match s.store.accountIDFor userID with
        | none => .replies (.error 404 "account not found")
        | some accountID => .asks (.createLinkToken accountID) }
  | .createLinkToken accountID =>
    Service.after s d (.createLinkToken accountID d.token d.now) (.linkToken ⟨d.token, 300⟩)
  | .linkDevice token req =>
    Service.after s d (.linkDevice token req d.userID d.now) <|
      match (s.store.linkDevice token req d.userID d.now).result with
      | none => .error 401 "invalid or expired link token"
      | some (userID, accountID, _, _) =>
        let tokens := h.issueTokens userID d.now
        .linked ⟨userID, accountID, tokens.1, tokens.2⟩
  | .devicesFor accountID =>
    { service := s
      next := .replies (.devices (appended
        (devicesFor ((d.entries s.store).map Prod.snd) accountID))) }
  | .accountDevices userID =>
    { service := s
      next := .replies <|
        let owned := s.store.accountDevices (d.entries s.store) userID
        if owned = [] then .error 404 "account not found" else .myDevices owned }
  | .removeDevice caller target =>
    Service.after s d (.removeDevice caller target) <|
      if (s.store.removeDevice caller target).result then .noContent
      else .error 400 "not a removable linked device on your account"
  | .accountIDFor userID =>
    { service := s
      next := .replies <|
        match s.store.accountIDFor userID with
        | none => .error 404 "no verified account for that user"
        | some accountID => .account accountID }
  | .saltB64 => { service := s, next := .replies (.salt s.store.saltB64) }
  | .allowIntersect userID hashes =>
    { service := s.handle d.wrote (.allowIntersect userID hashes.length d.now)
      next :=
        if (s.store.allowIntersect userID hashes.length d.now).result then .asks (.intersect hashes)
        else .replies (.error 429 "contact-discovery rate limit exceeded; try again later") }
  | .intersect hashes =>
    { service := s
      next := .replies (.found (intersect ((d.entries s.store).map Prod.snd) hashes)) }

end

end Hwfa.DiscoveryHandlers
