import Hwfa.GoStructs
import Hwfa.MediaAttachments
import Hwfa.MediaServer
import Hwfa.Queries

/-!
The media service over HTTP: `HttpMediaService` of `packages/client/src/media/service.ts`,
the handlers of `backend/media/main.go` behind it, and the store that the presigned URLs
are for.

A request carries the bearer token of the client and the locator in its query; a reply is
JSON, in which every `&` of a URL is an escape.  The store is not part of the repository:
it is asked to honour the URLs of the service, and nothing else.
-/

namespace Hwfa.MediaService

open Hwfa.Json (Text utf16)
open Hwfa.GoJson (Bytes byte)
open Hwfa.GoStructs Hwfa.JsonWriters Hwfa.JsonReaders
open Hwfa.AuthToken (kindAccess)
open Hwfa.ConversationPhone (MediaReference)
open Hwfa.ConversationStore (buildMediaBody parseMediaBody)
open Hwfa.DiscoveryStore (unix)
open Hwfa.MediaAttachments (MediaCipher MediaPlaintext Platform Presigned Response Uint8Array
  downloadMedia nonempty uploadMedia)
open Hwfa.MediaServer (Reply Request Server authed downloadExpiry downloadURL locatorPattern objectPath
  uploadExpiry uploadURL)
open Hwfa.MediaSigner (hmacSHA256 passes presign text)
open Hwfa.JsonGrammar (utf16_eq)

/-! ### The server -/

/-- `main.go::uploadURLResponse` -/
structure UploadURLResponse where
  url : String := ""
  locator : String := ""
  expiresIn : Int64 := 0

def uploadURLFields : List (StructField UploadURLResponse) := [
  field "url" string (·.url) fun r url => { r with url },
  field "locator" string (·.locator) fun r locator => { r with locator },
  field "expiresIn" int (·.expiresIn) fun r expiresIn => { r with expiresIn }]

def uploadURLResponse : Codec UploadURLResponse := struct {} uploadURLFields

/-- `main.go::downloadURLResponse` -/
structure DownloadURLResponse where
  url : String := ""
  expiresIn : Int64 := 0

def downloadURLFields : List (StructField DownloadURLResponse) := [
  field "url" string (·.url) fun r url => { r with url },
  field "expiresIn" int (·.expiresIn) fun r expiresIn => { r with expiresIn }]

def downloadURLResponse : Codec DownloadURLResponse := struct {} downloadURLFields

/-- The status and the body of a reply; `http.Error` ends the line. -/
def respond : Reply → Nat × Bytes
  | .error status body => (status, text body ++ [byte '\n'])
  | .uploadURL url locator expiresIn =>
    (200, encodeLine (uploadURLResponse.encode ⟨ofBytes url, ofBytes locator, Int64.ofInt expiresIn⟩))
  | .downloadURL url expiresIn =>
    (200, encodeLine (downloadURLResponse.encode ⟨ofBytes url, Int64.ofInt expiresIn⟩))

/-- What is outside of client and service: the clock, the random bytes, and the store. -/
structure Outside (ω : Type) where
  time : ω → Int
  /-- what a reading of the clock leaves behind -/
  tick : ω → ω
  random : ω → Option (Vector UInt8 16) × ω
  object : ω → Bytes → Option Uint8Array
  put (url : Bytes) (body : Uint8Array) : StateT ω Option Bool
  get (url : Bytes) : StateT ω Option Response

section

variable {ω : Type} (o : Outside ω) (s : Server)

/-- POST /v1/media/upload-url; a handler that panics sends no response. -/
def serveUploadURL (authorization : Bytes) : StateT ω Option (Nat × Bytes) := fun w =>
  let verified := o.time w
  let (random, w) := o.random (o.tick w)
  (uploadURL s ⟨authorization, []⟩ random verified (o.time w)).map fun reply =>
    (respond reply, o.tick w)

/-- GET /v1/media/download-url -/
def serveDownloadURL (authorization query : Bytes) : StateT ω Option (Nat × Bytes) := fun w =>
  let verified := o.time w
  let w := o.tick w
  let locator := Queries.get (Queries.parseQuery query) (text "locator")
  some (respond (downloadURL s ⟨authorization, locator⟩ verified (o.time w)), o.tick w)

/-! ### The client -/

/-- `authHeaders`: a header that is not sent is empty. -/
def authHeaders (token : Option Bytes) : Bytes :=
  match token with
  | none => []
  | some token => if token = [] then [] else text "Bearer " ++ token

/-- `res.json()` of a response that is `ok`. -/
def json (response : Nat × Bytes) : Option Json.Value :=
  if 200 ≤ response.1 ∧ response.1 < 300 then (receiveText response.2).bind Json.parse else none

/-- A property that is a text, which is all that the service answers with. -/
def textOf (v : Json.Value) (name : String) : Option Text :=
  match v.get name with
  | .primitive (.string t) => some t
  | _ => none

/-- `HttpMediaService`, and `fetch`. -/
def platform (token : Option Bytes) : Platform ω where
  uploadUrl := do
    let response ← serveUploadURL o s (authHeaders token)
    let reply ← json response
    let url ← textOf reply "url"
    let locator ← textOf reply "locator"
    return { url, locator }
  downloadUrl locator :=
    match locator with
    | .primitive (.string locator) => do
      let component ← Queries.encodeURIComponent locator
      let response ← serveDownloadURL o s (authHeaders token) (text "locator=" ++ component)
      let reply ← json response
      textOf reply "url"
    -- a locator that an upload returned is a text
    | _ => failure
  put url body := o.put (utf8Text url) body
  get url := o.get (utf8Text url)

end

/-! ### Text over the wire -/

section

variable {cfg : MediaSigner.SignerConfig} {method path : Bytes} {expires now : Int}

theorem low_of_all {s : Bytes} (all : s.all (· < 128) = true) : ∀ b ∈ s, b < 128 :=
  fun b member => of_decide_eq_true (List.all_eq_true.mp all b member)

theorem high_of_not {b : UInt8} (high : ¬ b < 128) : 128 ≤ b.toNat := by
  rw [UInt8.lt_iff_toNat_lt] at high
  exact Nat.not_lt.mp high

theorem not_passes {b : UInt8} (high : ¬ b < 128) (encodeSlash : Bool) :
    passes encodeSlash b = false := by
  have size := high_of_not high
  have differs (c : Char) (low : (byte c).toNat < 128) : b ≠ byte c := by
    rintro rfl
    omega
  have above (c : Char) (low : (byte c).toNat < 128) : ¬ b ≤ byte c := by
    rw [UInt8.le_iff_toNat_le]
    omega
  simp [passes, MediaSigner.isUnreserved, above 'Z' (by decide), above 'z' (by decide),
    above '9' (by decide), differs '-' (by decide), differs '_' (by decide), differs '.' (by decide),
    differs '~' (by decide), differs '/' (by decide)]

theorem digitValue_high {b : UInt8} (high : ¬ b < 128) : PercentCoding.digitValue b = none := by
  have size := high_of_not high
  have above (n : UInt8) (low : n.toNat < 128) : ¬ b ≤ n := by
    rw [UInt8.le_iff_toNat_le]
    omega
  rw [PercentCoding.digitValue, if_neg fun range => above 57 (by decide) range.2,
    if_neg fun range => above 70 (by decide) range.2, if_neg fun range => above 102 (by decide) range.2]

/-- A presigned URL is of ASCII, if its origin is. -/
theorem presign_low (scheme : ∀ b ∈ cfg.scheme, b < 128) (host : ∀ b ∈ cfg.host, b < 128) :
    ∀ b ∈ presign cfg method path expires now, b < 128 := by
  intro b member
  by_contra high
  have differs (c : UInt8) (low : c < 128) : b ≠ c := fun same => high (same ▸ low)
  have path_absent : b ∉ MediaSigner.awsURIEncodePath path :=
    PercentCoding.notMem_encode (not_passes high false) (differs _ (by decide)) (digitValue_high high) path
  have query_absent : b ∉ MediaSigner.sentQuery cfg method path expires now := by
    rw [MediaSigner.sentQuery_eq]
    exact PercentCoding.notMem_writePairs (not_passes high true) (differs _ (by decide))
      (digitValue_high high) (differs _ (by decide)) (differs _ (by decide)) _
  have origin_absent : b ∉ MediaSigner.origin cfg := by
    have fixed : ∀ c ∈ text "https" ++ text "://", c < 128 := low_of_all (by decide)
    intro inside
    simp only [MediaSigner.origin, List.mem_append] at inside
    rcases inside with (named | mark) | address
    · split at named
      · exact high (fixed b (List.mem_append_left _ named))
      · exact high (scheme b named)
    · exact high (fixed b (List.mem_append_right _ mark))
    · exact high (host b address)
  rw [MediaSigner.presign_eq, List.mem_append, List.mem_append, List.mem_cons] at member
  rcases member with there | there | there | there
  · exact origin_absent there
  · exact path_absent there
  · exact differs _ (by decide) there
  · exact query_absent there

end

/-! ### Replies -/

theorem plain_uploadURL : uploadURLResponse.Plain := by
  apply plain_struct
  simp only [uploadURLFields, List.forall_mem_cons]
  exact ⟨plain_field plain_string, plain_field plain_string, plain_field plain_int, List.forall_mem_nil _⟩

theorem plain_downloadURL : downloadURLResponse.Plain := by
  apply plain_struct
  simp only [downloadURLFields, List.forall_mem_cons]
  exact ⟨plain_field plain_string, plain_field plain_int, List.forall_mem_nil _⟩

/-- A field of a reply that is a string is read as a property that is a text. -/
theorem textOf_field {σ : Type} {fields : List (StructField σ)} {name : String} {get : σ → String}
    {set : σ → String → σ} (distinct : (fields.map StructField.name).Nodup)
    (member : field name string get set ∈ fields) (r : σ) :
    textOf (jsValue (shown (.object (shownFields fields r)))) name = some (utf16 (get r)) := by
  have text : jsValue (shown (string.encode (get r))) = .string (utf16 (get r)) := by
    change jsValue (shown (.scalar (.string (get r)))) = _
    rw [shown, jsValue]
  have property : (jsValue (shown (.object (shownFields fields r)))).get name =
      jsValue (shown (string.encode (get r))) := get_shown distinct member r
  rw [textOf, property, text]

theorem json_encodeLine {v : GoJson.Value} (numbered : Numbered v) :
    json (200, encodeLine v) = some (jsValue (shown v)) := by
  have fine : 200 ≤ 200 ∧ 200 < 300 := by decide
  rw [json, if_pos fine]
  exact json_parse_encodeLine numbered

/-- What the client makes of the answer to an upload. -/
theorem read_uploadURL (url locator : Bytes) (expiresIn : Int) :
    ∃ reply, json (respond (.uploadURL url locator expiresIn)) = some reply ∧
      textOf reply "url" = some (utf16 (ofBytes url)) ∧
      textOf reply "locator" = some (utf16 (ofBytes locator)) := by
  have distinct : (uploadURLFields.map StructField.name).Nodup := by decide
  refine ⟨_, json_encodeLine (plain_uploadURL _), ?_, ?_⟩
  · exact textOf_field distinct (.head _) _
  · exact textOf_field distinct (.tail _ (.head _)) _

theorem read_downloadURL (url : Bytes) (expiresIn : Int) :
    ∃ reply, json (respond (.downloadURL url expiresIn)) = some reply ∧
      textOf reply "url" = some (utf16 (ofBytes url)) := by
  have distinct : (downloadURLFields.map StructField.name).Nodup := by decide
  exact ⟨_, json_encodeLine (plain_downloadURL _), textOf_field distinct (.head _) _⟩

/-! ### Requests -/

/-- A locator is read by the server as it was given. -/
theorem get_locator (t : Text) (component : Bytes) (encoded : Queries.encodeURIComponent t = some component) :
    Queries.get (Queries.parseQuery (text "locator=" ++ component)) (text "locator") = utf8Text t := by
  rw [Queries.encodeURIComponent, Option.ite_none_right_eq_some, Option.some_inj] at encoded
  obtain ⟨_, rfl⟩ := encoded
  have query : text "locator=" ++ PercentCoding.encode Queries.unescaped (utf8Text t) =
      PercentCoding.writePairs Queries.unescaped [(text "locator", utf8Text t)] := by
    have name : PercentCoding.encode Queries.unescaped (text "locator") = text "locator" := by decide
    rw [PercentCoding.writePairs, List.map_singleton, List.intercalate_singleton,
      PercentCoding.writePair, name]
    rfl
  rw [query, Queries.parseQuery_writePairs Queries.quotes_unescaped (List.cons_ne_nil _ _)]
  rfl

variable {ω : Type} {o : Outside ω} {s : Server} {token : Option Bytes}

/-- The server refuses, or it signs for an object with a name of its own. -/
theorem uploadURL_cases {r : Request} {random : Option (Vector UInt8 16)} {verified now : Int}
    {reply : Reply} (answered : uploadURL s r random verified now = some reply) :
    (∃ status body, reply = .error status body ∧ 300 ≤ status) ∨
      s.ready = true ∧ ∃ key, locatorPattern key = true ∧ reply = .uploadURL
        (presign s.cfg (text "PUT") (objectPath s key) uploadExpiry now) key
        (MediaSigner.seconds uploadExpiry) := by
  rw [uploadURL] at answered
  split at answered
  · cases answered
    exact .inl ⟨401, _, rfl, by decide⟩
  split at answered
  · cases answered
    exact .inl ⟨503, _, rfl, by decide⟩
  · next ready =>
    obtain ⟨key, minted, rfl⟩ := Option.map_eq_some_iff.mp answered
    rw [Bool.not_eq_true, Bool.not_eq_false'] at ready
    exact .inr ⟨ready, key, MediaServer.locatorPattern_newObjectKey minted, rfl⟩

theorem json_error {status : Nat} (refused : 300 ≤ status) (body : String) :
    json (respond (.error status body)) = none := by
  have failed : ¬(200 ≤ status ∧ status < 300) := by omega
  rw [respond, json, if_neg failed]

/-- What an `uploadUrl` that answers has been told. -/
theorem uploadUrl_spec {w w' : ω} {presigned : Presigned}
    (asked : (platform o s token).uploadUrl w = some (presigned, w')) :
    s.ready = true ∧ ∃ key signed, locatorPattern key = true ∧ presigned.locator = utf16 (ofBytes key) ∧
      presigned.url = utf16 (ofBytes
        (presign s.cfg (text "PUT") (objectPath s key) uploadExpiry signed)) := by
  obtain ⟨response, w₁, served, asked⟩ := MediaAttachments.bind_eq_some asked
  obtain ⟨reply, w₂, read, asked⟩ := MediaAttachments.bind_eq_some asked
  obtain ⟨url, w₃, first, asked⟩ := MediaAttachments.bind_eq_some asked
  obtain ⟨locator, w₄, second, asked⟩ := MediaAttachments.bind_eq_some asked
  cases asked
  have parsed := (MediaAttachments.lift_eq_some read).1
  have address := (MediaAttachments.lift_eq_some first).1
  have name := (MediaAttachments.lift_eq_some second).1
  obtain ⟨answer, answered, same⟩ := Option.map_eq_some_iff.mp served
  cases same
  rcases uploadURL_cases answered with ⟨status, body, rfl, refused⟩ | ⟨ready, key, named, rfl⟩
  · rw [json_error refused] at parsed
    cases parsed
  · obtain ⟨reply', read', url', locator'⟩ := read_uploadURL
      (presign s.cfg (text "PUT") (objectPath s key) uploadExpiry (o.time (o.random (o.tick w)).2)) key
      (MediaSigner.seconds uploadExpiry)
    rw [read', Option.some_inj] at parsed
    subst parsed
    rw [url', Option.some_inj] at address
    rw [locator', Option.some_inj] at name
    exact ⟨ready, key, _, named, name.symm, address.symm⟩

/-! ### An object comes back -/

/-- An upload with a token is answered. -/
theorem uploadUrl_of (ready : s.ready = true) {w w₁ : ω} {random : Option (Vector UInt8 16)}
    {key : Bytes} (allowed : authed s ⟨authHeaders token, []⟩ (o.time w) = true)
    (drawn : o.random (o.tick w) = (random, w₁)) (minted : MediaServer.newObjectKey random = some key) :
    (platform o s token).uploadUrl w = some (⟨utf16 (ofBytes
      (presign s.cfg (text "PUT") (objectPath s key) uploadExpiry (o.time w₁))),
        utf16 (ofBytes key)⟩, o.tick w₁) := by
  let url := presign s.cfg (text "PUT") (objectPath s key) uploadExpiry (o.time w₁)
  have answer : uploadURL s ⟨authHeaders token, []⟩ random (o.time w) (o.time w₁) =
      some (.uploadURL url key (MediaSigner.seconds uploadExpiry)) :=
    MediaServer.uploadURL_eq allowed ready minted (o.time w₁)
  have served : serveUploadURL o s (authHeaders token) w =
      some (respond (.uploadURL url key (MediaSigner.seconds uploadExpiry)), o.tick w₁) := by
    rw [serveUploadURL]
    simp only [drawn, answer, Option.map_some]
  obtain ⟨reply, read, address, name⟩ := read_uploadURL url key (MediaSigner.seconds uploadExpiry)
  have parsed : (liftM (json (respond (.uploadURL url key (MediaSigner.seconds uploadExpiry)))) :
      StateT ω Option Json.Value) (o.tick w₁) = some (reply, o.tick w₁) := by
    rw [read]
    rfl
  refine (MediaAttachments.bind_apply served _).trans ?_
  refine (MediaAttachments.bind_apply parsed _).trans ?_
  rw [address, name]
  rfl

/-- What is asked of what is outside: the store honours the URLs that the service presigns,
a PUT that succeeds by storing its body under the path, a GET by returning what is there in
the seconds that its URL is good for; and reading the clock takes less than the shorter of
the expiries. -/
structure Honours (o : Outside ω) (cfg : MediaSigner.SignerConfig) : Prop where
  puts {path signed body w w'} : path.head? = some (byte '/') →
    o.put (presign cfg (text "PUT") path uploadExpiry signed) body w = some (true, w') →
      o.object w' path = some body
  gets {path signed body w} : path.head? = some (byte '/') → o.object w path = some body →
    unix signed ≤ unix (o.time w) →
    unix (o.time w) < unix signed + MediaSigner.seconds downloadExpiry →
      ∃ w', o.get (presign cfg (text "GET") path downloadExpiry signed) w = some (⟨true, body⟩, w')
  keeps : ∀ w, o.object (o.tick w) = o.object w
  passes : ∀ w, o.time w ≤ o.time (o.tick w) ∧ o.time (o.tick w) ≤ o.time w + uploadExpiry

theorem locator_low {key : Bytes} (named : locatorPattern key = true) : ∀ b ∈ key, b < 128 := by
  intro b member
  by_contra high
  have unreserved := (MediaServer.of_locatorPattern named b member).1
  have passing := not_passes high true
  rw [passes, unreserved] at passing
  cases passing

theorem rooted (s : Server) (key : Bytes) : (objectPath s key).head? = some (byte '/') := by
  rw [MediaServer.objectPath_eq]
  rfl

/-- An object of the bucket is downloaded by its name. -/
theorem download_object (honours : Honours o s.cfg) (ready : s.ready = true) {key : Bytes}
    (named : locatorPattern key = true) (scheme : ∀ b ∈ s.cfg.scheme, b < 128)
    (host : ∀ b ∈ s.cfg.host, b < 128) {w : ω} {body : Uint8Array}
    (there : o.object w (objectPath s key) = some body)
    (allowed : authed s ⟨authHeaders token, []⟩ (o.time w) = true) :
    ∃ url w₁ w₂, (platform o s token).downloadUrl (.string (utf16 (ofBytes key))) w = some (url, w₁) ∧
      (platform o s token).get url w₁ = some (⟨true, body⟩, w₂) := by
  let signed := o.time (o.tick w)
  let url := presign s.cfg (text "GET") (objectPath s key) downloadExpiry signed
  have component : Queries.encodeURIComponent (utf16 (ofBytes key)) =
      some (PercentCoding.encode Queries.unescaped (utf8Text (utf16 (ofBytes key)))) :=
    if_pos (Queries.wellFormed_utf16 _)
  have locator := (get_locator _ _ component).trans (utf8Text_ofBytes (locator_low named))
  have served : serveDownloadURL o s (authHeaders token) (text "locator=" ++
      PercentCoding.encode Queries.unescaped (utf8Text (utf16 (ofBytes key)))) w =
        some (respond (.downloadURL url (MediaSigner.seconds downloadExpiry)), o.tick (o.tick w)) := by
    have answer : downloadURL s ⟨authHeaders token, key⟩ (o.time w) signed =
        .downloadURL url (MediaSigner.seconds downloadExpiry) :=
      MediaServer.downloadURL_eq (show authed s ⟨authHeaders token, key⟩ (o.time w) = true from allowed)
        ready named signed
    rw [serveDownloadURL, locator, answer]
  obtain ⟨reply, read, named'⟩ := read_downloadURL url (MediaSigner.seconds downloadExpiry)
  obtain ⟨earlier, soon⟩ := honours.passes (o.tick w)
  have upload_seconds : uploadExpiry = 900000000000 := by decide
  have good_for : MediaSigner.seconds downloadExpiry = 3600 :=
    MediaSigner.seconds_of_whole (n := 3600) (by decide)
  have signed_before : unix signed ≤ unix (o.time (o.tick (o.tick w))) :=
    Int.ediv_le_ediv (by decide) earlier
  have in_time : unix (o.time (o.tick (o.tick w))) <
      unix signed + MediaSigner.seconds downloadExpiry := by
    rw [good_for]
    rw [upload_seconds] at soon
    simp only [unix, DiscoveryStore.second]
    omega
  have still : o.object (o.tick (o.tick w)) (objectPath s key) = some body := by
    rw [honours.keeps, honours.keeps]
    exact there
  obtain ⟨w₂, got⟩ := honours.gets (rooted s key) still signed_before in_time
  refine ⟨utf16 (ofBytes url), o.tick (o.tick w), w₂, ?_, ?_⟩
  · have encoded : (liftM (Queries.encodeURIComponent (utf16 (ofBytes key))) : StateT ω Option Bytes) w =
        some (PercentCoding.encode Queries.unescaped (utf8Text (utf16 (ofBytes key))), w) := by
      rw [component]
      rfl
    have parsed : (liftM (json (respond (.downloadURL url (MediaSigner.seconds downloadExpiry)))) :
        StateT ω Option Json.Value) (o.tick (o.tick w)) = some (reply, o.tick (o.tick w)) := by
      rw [read]
      rfl
    refine (MediaAttachments.bind_apply encoded _).trans ?_
    refine (MediaAttachments.bind_apply served _).trans ?_
    refine (MediaAttachments.bind_apply parsed _).trans ?_
    rw [named']
    rfl
  · have sent : utf8Text (utf16 (ofBytes url)) = url := utf8Text_ofBytes (presign_low scheme host)
    change o.get (utf8Text (utf16 (ofBytes url))) _ = _
    rw [sent]
    exact got

/-- A reference is downloaded once its object is. -/
theorem downloadMedia_of {ω : Type} {cipher : MediaCipher ω} {platform : Platform ω}
    {ref : MediaReference} {url : Text} {body : Uint8Array} {w w₁ w₂ : ω}
    (asked : platform.downloadUrl (.string ref.locator) w = some (url, w₁))
    (got : platform.get url w₁ = some (⟨true, body⟩, w₂)) :
    downloadMedia cipher platform ref.value w =
      (MediaAttachments.decryptMedia cipher body ref.value).map fun media => (media, w₂) := by
  have present : ref.value.nullish = false := rfl
  rw [downloadMedia, present, if_neg Bool.false_ne_true, MediaAttachments.get_locator,
    MediaAttachments.bind_apply asked, MediaAttachments.bind_apply got, if_pos rfl]
  cases MediaAttachments.decryptMedia cipher body ref.value <;> rfl

/-- What is decrypted of what was encrypted for a reference. -/
theorem decryptMedia_uploaded {ω : Type} {cipher : MediaCipher ω} (inverts : cipher.Inverts)
    {media : MediaPlaintext} {ref : MediaReference} {sent : Uint8Array}
    (encrypted : cipher.encrypt ref.keyB64 ref.ivB64 media.bytes = some sent)
    (mime : ref.mime = media.mime) (digest : ref.sha256B64 = cipher.sha256B64 media.bytes)
    (name : ref.name = nonempty media.name) :
    MediaAttachments.decryptMedia cipher sent ref.value =
      some ⟨media.bytes, .string media.mime, (nonempty media.name).map .string⟩ := by
  have once : nonempty (nonempty media.name) = nonempty media.name := by
    rw [nonempty, nonempty, Option.filter_filter]
    simp
  rw [MediaAttachments.decryptMedia_value, inverts _ _ _ _ encrypted, Option.bind_some,
    if_pos digest.symm, mime, name, once]

/-- **Attachments come back over HTTP.** What `uploadMedia` has uploaded through the media
service is stored under the locator of the reference that it returns, in the bucket. For as
long as it is there, whoever has the text of the message and an access token of Discovery
that has not expired downloads and decrypts exactly the attachment, with its type and its
name. -/
theorem attachments_come_back_over_http {cipher : MediaCipher ω} (inverts : cipher.Inverts)
    (honours : Honours o s.cfg) (scheme : ∀ b ∈ s.cfg.scheme, b < 128)
    (host : ∀ b ∈ s.cfg.host, b < 128) {media : MediaPlaintext} {ref : MediaReference} {w w' : ω}
    (uploaded : uploadMedia cipher (platform o s token) media w = some (ref, w')) :
    ∃ sent, o.object w' (objectPath s (utf8Text ref.locator)) = some sent ∧
      ∀ later uid ttl t, o.object later (objectPath s (utf8Text ref.locator)) = some sent →
        GoJson.IsInt64 (unix (t + ttl)) → unix (o.time later) < unix (t + ttl) →
        ∃ after, downloadMedia cipher
            (platform o s (some (AuthToken.sign hmacSHA256 s.secret uid kindAccess ttl t)))
            (parseMediaBody (buildMediaBody ref.value (ref.value.get "locator"))) later =
          some (⟨media.bytes, .string media.mime, (nonempty media.name).map .string⟩, after) := by
  obtain ⟨sent, presigned, w₁, w₂, encrypted, asked, put, mime, size, digest, name, located⟩ :=
    MediaAttachments.uploadMedia_spec uploaded
  obtain ⟨ready, key, signed, named, locator, address⟩ := uploadUrl_spec asked
  have sent_to : utf8Text presigned.url =
      presign s.cfg (text "PUT") (objectPath s key) uploadExpiry signed := by
    rw [address]
    exact utf8Text_ofBytes (presign_low scheme host)
  have put : o.put (utf8Text presigned.url) sent w₂ = some (true, w') := put
  rw [sent_to] at put
  have path : utf8Text ref.locator = key := by
    rw [located, locator]
    exact utf8Text_ofBytes (locator_low named)
  rw [path]
  refine ⟨sent, honours.puts (rooted s key) put, ?_⟩
  intro later uid ttl t there fits fresh
  let bearer := AuthToken.sign hmacSHA256 s.secret uid kindAccess ttl t
  have held : authHeaders (some bearer) = text "Bearer " ++ bearer := by
    have some_token : bearer ≠ [] := by simp [bearer, AuthToken.sign]
    rw [authHeaders, if_neg some_token]
  have allowed : authed s ⟨authHeaders (some bearer), []⟩ (o.time later) = true := by
    rw [held, MediaServer.authed_sign uid kindAccess ttl t fits, decide_eq_true_eq]
    exact ⟨fresh, rfl⟩
  obtain ⟨url, w₄, w₅, asked', got⟩ := download_object honours ready named scheme host there allowed
  rw [← locator, ← located] at asked'
  refine ⟨w₅, ?_⟩
  rw [MediaAttachments.parseMediaBody_buildMediaBody (size ▸ media.bytes.length_lt),
    downloadMedia_of asked' got, decryptMedia_uploaded inverts encrypted mime digest name]
  rfl

/-! ### A photo -/

open Hwfa.MediaAttachments (Memory aes photo)
open Hwfa.MediaServer (store)

/-- A store that reads its URLs, at one second, with one source of random bytes. -/
def deposit : Outside Memory where
  time _ := 1760227201000000000
  tick w := w
  random w := (some (Vector.replicate 16 0xAB), w)
  object w path := w.lookup (GoJson.latin1 path)
  put url body w := (Urls.read url).map fun named => (true, w.insert (GoJson.latin1 named.1) body)
  get url w := (Urls.read url).bind fun named =>
    (w.lookup (GoJson.latin1 named.1)).map fun body => (⟨true, body⟩, w)

theorem deposit_honours : Honours deposit store.cfg := by
  have read {path : Bytes} (begins : path.head? = some (byte '/')) (method : Bytes) (expires now : Int) :=
    MediaSigner.read_presign store.cfg (by decide) (List.all_eq_true.mp (by decide)) begins method
      expires now
  have soon : (1760227201000000000 : Int) ≤ 1760227201000000000 + uploadExpiry := by decide
  refine ⟨?_, ?_, fun _ => rfl, fun _ => ⟨Int.le_refl _, soon⟩⟩
  · intro path signed body w w' begins put
    have stored := put
    simp only [deposit, read begins, Option.map_some, Option.some_inj] at stored
    cases stored
    exact AList.lookup_insert _
  · intro path signed body w begins there _ _
    refine ⟨w, ?_⟩
    simp only [deposit, read begins, Option.bind_some]
    have there : w.lookup (GoJson.latin1 path) = some body := there
    rw [there]
    rfl

def bearer : Bytes :=
  AuthToken.sign hmacSHA256 (text "secret") "user-1" kindAccess 900000000000 1760227200000000000

theorem bearer_allowed (w : Memory) :
    authed store ⟨authHeaders (some bearer), []⟩ (deposit.time w) = true := by
  have held : authHeaders (some bearer) = text "Bearer " ++ bearer := by
    have some_token : bearer ≠ [] := by simp [bearer, AuthToken.sign]
    rw [authHeaders, if_neg some_token]
  rw [held]
  exact (MediaServer.authed_sign (s := store) "user-1" kindAccess 900000000000 1760227200000000000
    (by decide) [] 1760227201000000000).trans (by decide)

theorem deposit_put {path : Bytes} (begins : path.head? = some (byte '/')) (w : Memory) :
    (platform deposit store (some bearer)).put (utf16 (ofBytes
        (presign store.cfg (text "PUT") path uploadExpiry 1760227201000000000)))
      MediaAttachments.ciphertext w =
        some (true, w.insert (GoJson.latin1 path) MediaAttachments.ciphertext) := by
  have low : utf8Text (utf16 (ofBytes
      (presign store.cfg (text "PUT") path uploadExpiry 1760227201000000000))) =
        presign store.cfg (text "PUT") path uploadExpiry 1760227201000000000 :=
    utf8Text_ofBytes (presign_low (low_of_all (by decide)) (low_of_all (by decide)))
  have read := MediaSigner.read_presign store.cfg (by decide) (List.all_eq_true.mp (by decide)) begins
    (text "PUT") uploadExpiry 1760227201000000000
  have through (url : Text) (body : Uint8Array) :
      (platform deposit store (some bearer)).put url body = deposit.put (utf8Text url) body := rfl
  have puts (url : Bytes) (body : Uint8Array) : deposit.put url body w =
      (Urls.read url).map fun named => (true, w.insert (GoJson.latin1 named.1) body) := rfl
  rw [through, low, puts, read, Option.map_some]

theorem photo_comes_back : ∃ ref w', uploadMedia aes (platform deposit store (some bearer)) photo ∅ =
    some (ref, w') ∧ ∃ after, downloadMedia aes (platform deposit store (some bearer))
        (parseMediaBody (buildMediaBody ref.value (ref.value.get "locator"))) w' =
      some (⟨photo.bytes, .string photo.mime, (nonempty photo.name).map .string⟩, after) := by
  let key := MediaSigner.hexEncode (List.replicate 16 0xAB)
  have asked : (platform deposit store (some bearer)).uploadUrl ∅ = some (⟨utf16 (ofBytes
      (presign store.cfg (text "PUT") (objectPath store key) uploadExpiry 1760227201000000000)),
        utf16 (ofBytes key)⟩, ∅) := uploadUrl_of rfl (bearer_allowed ∅) rfl rfl
  have put := deposit_put (rooted store key) ∅
  obtain ⟨ref, w', uploaded⟩ : ∃ ref w',
      uploadMedia aes (platform deposit store (some bearer)) photo ∅ = some (ref, w') := by
    rw [uploadMedia, MediaAttachments.bind_apply MediaAttachments.photo_encrypted,
      MediaAttachments.bind_apply asked, MediaAttachments.bind_apply put, if_pos rfl]
    exact ⟨_, _, rfl⟩
  obtain ⟨sent, stored, back⟩ := attachments_come_back_over_http MediaAttachments.aes_inverts
    deposit_honours (low_of_all (by decide)) (low_of_all (by decide)) uploaded
  have fresh : unix 1760227201000000000 < unix (1760227200000000000 + 900000000000) := by decide
  exact ⟨ref, w', uploaded, back w' "user-1" 900000000000 1760227200000000000 stored (by decide) fresh⟩

end Hwfa.MediaService
