import Hwfa.MediaSigner

/-!
The media service (`backend/media/main.go`), which hands out presigned URLs.

A request is what the handlers read of it, and a reply what they write, before it is
JSON.  The service asks the time twice: when it verifies a token and when it signs.
-/

namespace Hwfa.MediaServer

open Hwfa.AuthToken (kindAccess)
open Hwfa.DiscoveryStore (second unix)
open Hwfa.GoJson (Bytes byte)
open Hwfa.MediaSigner (FourDigitYear SignerConfig awsURIEncodePath canonicalRequest dateStamp
  hexEncode hmacSHA256 isUnreserved params presign seconds sentQuery signature stringToSign text)
open Hwfa.PercentCoding (decode readPairs)

def uploadExpiry : Int := 15 * 60 * second

def downloadExpiry : Int := 60 * 60 * second

/-- `main.go::server` -/
structure Server where
  cfg : SignerConfig
  bucket : Bytes
  ready : Bool
  secret : Bytes

/-- A header and a parameter, which are empty where there is none. -/
structure Request where
  authorization : Bytes
  locator : Bytes

inductive Reply where
  | error (status : Nat) (body : String)
  | uploadURL (url locator : Bytes) (expiresIn : Int)
  | downloadURL (url : Bytes) (expiresIn : Int)
  deriving DecidableEq

/-! ### Requests -/

/-- The UTF-8 of the characters that are spaces. -/
def spaces : List Bytes :=
  [[9], [10], [11], [12], [13], [32], [0xC2, 0x85], [0xC2, 0xA0], [0xE1, 0x9A, 0x80]] ++
    (List.range 11).map (fun n => [0xE2, 0x80, UInt8.ofNat (0x80 + n)]) ++
    [[0xE2, 0x80, 0xA8], [0xE2, 0x80, 0xA9], [0xE2, 0x80, 0xAF], [0xE2, 0x81, 0x9F],
      [0xE3, 0x80, 0x80]]

/-- Without what it begins with of some strings; the fuel is its length. -/
def trimStart (cut : List Bytes) : Nat → Bytes → Bytes
  | 0, s => s
  | fuel + 1, s =>
    match cut.find? (·.isPrefixOf s) with
    | some space => trimStart cut fuel (s.drop space.length)
    | none => s

/-- `strings.TrimSpace` -/
def trimSpace (s : Bytes) : Bytes :=
  let rest := trimStart spaces s.length s
  (trimStart (spaces.map List.reverse) rest.length rest.reverse).reverse

/-- `[A-Za-z0-9_-]` -/
def isLocatorByte (c : UInt8) : Bool :=
  byte 'A' ≤ c && c ≤ byte 'Z' || byte 'a' ≤ c && c ≤ byte 'z' || byte '0' ≤ c && c ≤ byte '9' ||
    c = byte '_' || c = byte '-'

/-- `^[A-Za-z0-9_-]{1,128}$` -/
def locatorPattern (locator : Bytes) : Bool :=
  1 ≤ locator.length && locator.length ≤ 128 && locator.all isLocatorByte

/-- `main.go::newObjectKey`; without random bytes it panics. -/
def newObjectKey (random : Option (Vector UInt8 16)) : Option Bytes :=
  random.map fun b => hexEncode b.toList

section

variable (s : Server) (r : Request)

/-- `main.go::authed` -/
def authed (now : Int) : Bool :=
  let auth := r.authorization
  if (text "Bearer ").isPrefixOf auth then
    match AuthToken.verify hmacSHA256 s.secret (trimSpace (auth.drop (text "Bearer ").length)) now with
    | some (_, kind) => kind = kindAccess
    | none => false
  else false

/-- `main.go::objectPath` -/
def objectPath (key : Bytes) : Bytes := text "/" ++ s.bucket ++ text "/" ++ key

/-- `main.go::uploadURL`; `none` is the panic of `newObjectKey`. -/
def uploadURL (random : Option (Vector UInt8 16)) (verified now : Int) : Option Reply :=
  if !authed s r verified then
    some (.error 401 "\x7b\"error\":\"missing or invalid token\"\x7d")
  else if !s.ready then
    some (.error 503 "\x7b\"error\":\"media storage not configured\"\x7d")
  else
    (newObjectKey random).map fun key =>
      .uploadURL (presign s.cfg (text "PUT") (objectPath s key) uploadExpiry now) key
        (seconds uploadExpiry)

/-- `main.go::downloadURL` -/
def downloadURL (verified now : Int) : Reply :=
  if !authed s r verified then
    .error 401 "\x7b\"error\":\"missing or invalid token\"\x7d"
  else if !s.ready then
    .error 503 "\x7b\"error\":\"media storage not configured\"\x7d"
  else if !locatorPattern r.locator then
    .error 400 "\x7b\"error\":\"invalid locator\"\x7d"
  else
    .downloadURL (presign s.cfg (text "GET") (objectPath s r.locator) downloadExpiry now)
      (seconds downloadExpiry)

/-! ### Object keys -/

/-- The path of the bucket. -/
def bucketPath : Bytes := byte '/' :: s.bucket

/-- A locator names an object of the bucket: it is sent as it is, and the path leads
directly below the bucket, whether it is resolved before or after it is decoded. -/
structure InBucket (locator : Bytes) : Prop where
  path : objectPath s locator = byte '/' :: (s.bucket ++ byte '/' :: locator)
  unescaped : awsURIEncodePath (objectPath s locator) =
    awsURIEncodePath (bucketPath s) ++ byte '/' :: locator
  below : Urls.resolve (objectPath s locator) = Urls.resolve (bucketPath s) ++ [locator]
  below_sent : Urls.resolve (awsURIEncodePath (objectPath s locator)) =
    Urls.resolve (awsURIEncodePath (bucketPath s)) ++ [locator]

theorem objectPath_eq (key : Bytes) : objectPath s key = bucketPath s ++ byte '/' :: key := by
  have mark : text "/" = [byte '/'] := rfl
  simp only [objectPath, bucketPath, mark, List.append_assoc, List.cons_append, List.nil_append]

variable {s} {r} {locator : Bytes}

/-- A byte of a locator is unreserved, and it is neither a slash nor a dot. -/
theorem of_isLocatorByte {c : UInt8} (accepted : isLocatorByte c) :
    isUnreserved c ∧ c ≠ Urls.slash ∧ c ≠ Urls.dot := by
  refine ⟨?_, ?_, ?_⟩
  · simp only [isLocatorByte, Bool.or_eq_true] at accepted
    simp only [isUnreserved, Bool.or_eq_true]
    rcases accepted with ((letter | digit) | line) | minus
    · exact .inl (.inl (.inl (.inl (.inl letter))))
    · exact .inl (.inl (.inl (.inl (.inr digit))))
    · exact .inl (.inl (.inr line))
    · exact .inl (.inl (.inl (.inr minus)))
  · rintro rfl
    revert accepted
    decide
  · rintro rfl
    revert accepted
    decide

theorem of_locatorPattern (accepted : locatorPattern locator) :
    ∀ c ∈ locator, isUnreserved c ∧ c ≠ Urls.slash ∧ c ≠ Urls.dot := by
  rw [locatorPattern, Bool.and_eq_true] at accepted
  intro c member
  exact of_isLocatorByte (List.all_eq_true.mp accepted.2 c member)

theorem plain_of_locatorPattern (accepted : locatorPattern locator) : Urls.Plain locator := by
  have bytes := of_locatorPattern accepted
  have undotted : Urls.dot ∉ locator := fun member => (bytes _ member).2.2 rfl
  refine ⟨fun member => (bytes _ member).2.1 rfl, ?_, ?_⟩
  · rintro rfl
    exact undotted List.mem_cons_self
  · rintro rfl
    exact undotted List.mem_cons_self

theorem InBucket.of_locatorPattern (accepted : locatorPattern locator) : InBucket s locator := by
  have plain := plain_of_locatorPattern accepted
  have kept : MediaSigner.awsURIEncode locator false = locator :=
    MediaSigner.awsURIEncode_of_unreserved
      (fun c member => (MediaServer.of_locatorPattern accepted c member).1) false
  have sent : awsURIEncodePath (objectPath s locator) =
      awsURIEncodePath (bucketPath s) ++ byte '/' :: locator := by
    have slash : MediaSigner.awsURIEncode [byte '/'] false = [byte '/'] := rfl
    have parts : objectPath s locator = bucketPath s ++ ([byte '/'] ++ locator) := objectPath_eq s locator
    rw [MediaSigner.awsURIEncode] at kept slash
    rw [parts, awsURIEncodePath, MediaSigner.awsURIEncode, PercentCoding.encode_append,
      PercentCoding.encode_append, kept, slash]
    rfl
  refine ⟨objectPath_eq s locator, sent, ?_, ?_⟩
  · rw [objectPath_eq]
    exact Urls.resolve_append plain (bucketPath s)
  · rw [sent]
    exact Urls.resolve_append plain (awsURIEncodePath (bucketPath s))

theorem locatorPattern_newObjectKey {random : Option (Vector UInt8 16)} {key : Bytes}
    (minted : newObjectKey random = some key) : locatorPattern key := by
  obtain ⟨b, -, rfl⟩ := Option.map_eq_some_iff.mp minted
  have length : (hexEncode b.toList).length = 32 := by
    rw [MediaSigner.length_hexEncode, Vector.length_toList]
  have bytes : (hexEncode b.toList).all isLocatorByte = true :=
    List.all_eq_true.mpr (MediaSigner.forall_mem_hexEncode (by decide) b.toList)
  rw [locatorPattern, length, bytes]
  rfl

/-! ### Tokens -/

/-- A byte of ASCII that is no space. -/
def visible (c : UInt8) : Bool := 32 < c && c < 128

theorem trimStart_eq {cut : List Bytes} (invisible : ∀ space ∈ cut, (space.head?.any visible) = false)
    (there : ∀ space ∈ cut, space ≠ []) {token : Bytes} (all : ∀ c ∈ token, visible c) (fuel : Nat) :
    trimStart cut fuel token = token := by
  have none_begins : cut.find? (·.isPrefixOf token) = none := by
    rw [List.find?_eq_none]
    intro space member begins
    cases space with
    | nil => exact there [] member rfl
    | cons b rest =>
      obtain ⟨more, whole⟩ := List.isPrefixOf_iff_prefix.mp begins
      have seen : visible b = true := all b (by rw [← whole]; exact List.mem_cons_self)
      have unseen := invisible (b :: rest) member
      rw [List.head?_cons, Option.any_some, seen] at unseen
      cases unseen
  cases fuel with
  | zero => rfl
  | succ fuel => rw [trimStart, none_begins]

/-- Nothing is trimmed off where there are no spaces. -/
theorem trimSpace_eq {token : Bytes} (all : ∀ c ∈ token, visible c) : trimSpace token = token := by
  have back : ∀ c ∈ token.reverse, visible c := fun c member => all c (List.mem_reverse.mp member)
  rw [trimSpace, trimStart_eq (by decide) (by decide) all]
  rw [trimStart_eq (by decide) (by decide) back, List.reverse_reverse]

theorem visible_b64 (bytes : Bytes) : ∀ c ∈ AuthToken.b64 bytes, visible c := by
  have symbols : ∀ n : Fin 64, visible (byte (Base64.urlSymbol (Base64.symbol n.val))) = true := by
    decide
  obtain ⟨sextets, few, written, -, small, -⟩ := Base64.encodeRawUrl_shape bytes
  intro c member
  rw [AuthToken.b64, written] at member
  obtain ⟨d, inside, rfl⟩ := List.mem_map.mp member
  obtain ⟨n, sextet, rfl⟩ := List.mem_map.mp inside
  exact symbols ⟨n, small n sextet⟩

/-- A signed token opens the service until it expires, if it gives access. -/
theorem authed_sign (uid kind : String) (ttl t : Int) (fits : GoJson.IsInt64 (unix (t + ttl)))
    (locator : Bytes) (now : Int) :
    authed s ⟨text "Bearer " ++ AuthToken.sign hmacSHA256 s.secret uid kind ttl t, locator⟩ now =
      decide (unix now < unix (t + ttl) ∧ kind = kindAccess) := by
  have begins : (text "Bearer ").isPrefixOf
      (text "Bearer " ++ AuthToken.sign hmacSHA256 s.secret uid kind ttl t) = true :=
    List.isPrefixOf_iff_prefix.mpr (List.prefix_append _ _)
  have seen : ∀ c ∈ AuthToken.sign hmacSHA256 s.secret uid kind ttl t, visible c := by
    intro c member
    rw [AuthToken.sign, List.mem_append, List.mem_append, List.mem_singleton] at member
    rcases member with (payload | rfl) | signature
    · exact visible_b64 _ c payload
    · decide
    · exact visible_b64 _ c signature
  rw [authed]
  simp only [begins, if_true, List.drop_left, trimSpace_eq seen,
    AuthToken.verify_sign hmacSHA256 s.secret fits, AuthToken.verify_eq]
  by_cases fresh : unix now < unix (t + ttl)
  · simp [fresh]
  · simp [fresh]

/-! ### Replies -/

theorem uploadURL_eq {random : Option (Vector UInt8 16)} {verified : Int} {key : Bytes}
    (allowed : authed s r verified) (ready : s.ready) (minted : newObjectKey random = some key)
    (now : Int) : uploadURL s r random verified now =
      some (.uploadURL (presign s.cfg (text "PUT") (objectPath s key) uploadExpiry now) key
        (seconds uploadExpiry)) := by
  rw [uploadURL, allowed, ready, minted]
  rfl

theorem downloadURL_eq {verified : Int} (allowed : authed s r verified) (ready : s.ready)
    (accepted : locatorPattern r.locator) (now : Int) : downloadURL s r verified now =
      .downloadURL (presign s.cfg (text "GET") (objectPath s r.locator) downloadExpiry now)
        (seconds downloadExpiry) := by
  rw [downloadURL, allowed, ready, accepted]
  rfl

theorem of_uploadURL {random : Option (Vector UInt8 16)} {verified now : Int} {url : Bytes}
    {expiresIn : Int}
    (answered : uploadURL s r random verified now = some (.uploadURL url locator expiresIn)) :
    url = presign s.cfg (text "PUT") (objectPath s locator) uploadExpiry now ∧
      expiresIn = seconds uploadExpiry ∧ InBucket s locator := by
  rw [uploadURL] at answered
  split at answered
  · cases answered
  · split at answered
    · cases answered
    · obtain ⟨key, minted, same⟩ := Option.map_eq_some_iff.mp answered
      cases same
      exact ⟨rfl, rfl, .of_locatorPattern (locatorPattern_newObjectKey minted)⟩

theorem of_downloadURL {verified now : Int} {url : Bytes} {expiresIn : Int}
    (answered : downloadURL s r verified now = .downloadURL url expiresIn) :
    url = presign s.cfg (text "GET") (objectPath s r.locator) downloadExpiry now ∧
      expiresIn = seconds downloadExpiry ∧ InBucket s r.locator := by
  rw [downloadURL] at answered
  split at answered
  · cases answered
  · split at answered
    · cases answered
    · split at answered
      · cases answered
      · next accepted =>
        cases answered
        rw [Bool.not_eq_true, Bool.not_eq_false'] at accepted
        exact ⟨rfl, rfl, .of_locatorPattern accepted⟩

end

/-! ### One operation on one object -/

/-- What a presigned URL authorizes, from when on, and for how long. -/
structure Grant where
  method : Bytes
  path : Bytes
  expiry : Int
  time : Int

def grant (method path : Bytes) (expires now : Int) : Grant := ⟨method, path, seconds expires, unix now⟩

/-- SHA-256 tells two messages from each other. -/
def CollisionFree (message message' : Bytes) : Prop :=
  Sha256.sha256 message = Sha256.sha256 message' → message = message'

theorem grant_of_canonicalRequest {cfg : SignerConfig} {method method' path path' : Bytes}
    {expires expires' now now' : Int} (line : byte '\n' ∉ method) (line' : byte '\n' ∉ method')
    (year : FourDigitYear now) (year' : FourDigitYear now')
    (same : canonicalRequest cfg method path expires now =
      canonicalRequest cfg method' path' expires' now') :
    grant method path expires now = grant method' path' expires' now' := by
  obtain ⟨methods, paths, expiries, times⟩ :=
    MediaSigner.canonicalRequest_injective cfg line line' year year' same
  rw [grant, grant, methods, paths, expiries, times]

theorem presigned_urls :
    (∀ cfg method method' path path' expires expires' now now', byte '\n' ∉ method →
      byte '\n' ∉ method' → FourDigitYear now → FourDigitYear now' →
      grant method path expires now ≠ grant method' path' expires' now' →
      canonicalRequest cfg method path expires now ≠
        canonicalRequest cfg method' path' expires' now' ∧
      (CollisionFree (canonicalRequest cfg method path expires now)
          (canonicalRequest cfg method' path' expires' now') →
        stringToSign cfg method path expires now ≠
          stringToSign cfg method' path' expires' now')) ∧
    (∀ cfg method path expires now, signature cfg method path expires now =
      hexEncode (AuthToken.hmac
        ([dateStamp now, cfg.region, cfg.service, text "aws4_request"].foldl AuthToken.hmac
          (text "AWS4" ++ cfg.secretAccessKey))
        (stringToSign cfg method path expires now))) ∧
    (∀ n, GoJson.IsInt64 (n * second) → seconds (n * second) = n) ∧
    (∀ expires : Int, expires.natAbs < 8388608000000000 →
      seconds expires = expires.tdiv second) ∧
    (∀ cfg method path expires now,
      presign cfg method path expires now = MediaSigner.origin cfg ++
        (awsURIEncodePath path ++ byte '?' :: sentQuery cfg method path expires now) ∧
      byte '?' ∉ awsURIEncodePath path ∧ decode (awsURIEncodePath path) = some path ∧
      readPairs (sentQuery cfg method path expires now) = some (params cfg expires now ++
        [(text "X-Amz-Signature", signature cfg method path expires now)])) ∧
    (∀ cfg method path expires now, byte ':' ∉ cfg.scheme →
      (∀ b ∈ cfg.host, !Urls.delimits b) → path.head? = some (byte '/') →
      Urls.read (presign cfg method path expires now) = some (path, params cfg expires now ++
        [(text "X-Amz-Signature", signature cfg method path expires now)])) ∧
    (∀ s r random verified now url locator expiresIn,
      uploadURL s r random verified now = some (.uploadURL url locator expiresIn) →
      url = presign s.cfg (text "PUT") (objectPath s locator) uploadExpiry now ∧
        InBucket s locator) ∧
    (∀ s r verified now url expiresIn,
      downloadURL s r verified now = .downloadURL url expiresIn →
      url = presign s.cfg (text "GET") (objectPath s r.locator) downloadExpiry now ∧
        InBucket s r.locator) := by
  refine ⟨?_, fun _ _ _ _ _ => rfl, ?_, ?_, ?_, ?_, ?_, ?_⟩
  · intro cfg method method' path path' expires expires' now now' line line' year year' other
    have requests : canonicalRequest cfg method path expires now ≠
        canonicalRequest cfg method' path' expires' now' := fun same =>
      other (grant_of_canonicalRequest line line' year year' same)
    refine ⟨requests, ?_⟩
    intro collision_free same
    exact requests (collision_free (MediaSigner.stringToSign_injective cfg same))
  · intro n fits
    exact MediaSigner.seconds_of_whole fits
  · intro expires short
    exact MediaSigner.seconds_of_short short
  · intro cfg method path expires now
    exact ⟨MediaSigner.presign_eq cfg method path expires now,
      MediaSigner.question_notMem_awsURIEncodePath path, MediaSigner.decode_awsURIEncodePath path,
      MediaSigner.readPairs_sentQuery cfg method path expires now⟩
  · intro cfg method path expires now named host rooted
    exact MediaSigner.read_presign cfg named host rooted method expires now
  · intro s r random verified now url locator expiresIn answered
    obtain ⟨signed, -, inside⟩ := of_uploadURL answered
    exact ⟨signed, inside⟩
  · intro s r verified now url expiresIn answered
    obtain ⟨signed, -, inside⟩ := of_downloadURL answered
    exact ⟨signed, inside⟩

/-- A bucket of a development store. -/
def store : Server where
  cfg := ⟨text "test-key", text "test-secret", text "auto", text "s3", text "localhost:9099",
    text "http"⟩
  bucket := text "hwfa-media"
  ready := true
  secret := text "secret"

/-- A request for an object with a token that is good for a quarter of an hour. -/
def asking : Request where
  authorization := text "Bearer " ++
    AuthToken.sign hmacSHA256 (text "secret") "user-1" kindAccess 900000000000 1760227200000000000
  locator := text "obj-abc"

theorem asking_authed : authed store asking 1760227201000000000 = true := by
  have signed := authed_sign (s := store) "user-1" kindAccess 900000000000 1760227200000000000
    (by decide) (text "obj-abc") 1760227201000000000
  exact signed.trans (by decide)

/-- To read an object and to replace it are signed apart, each below the bucket. -/
theorem presigned_urls_object :
    stringToSign store.cfg (text "GET") (text "/hwfa-media/obj-abc") downloadExpiry
        1760227201000000000 ≠
      stringToSign store.cfg (text "PUT") (text "/hwfa-media/obj-abc") uploadExpiry
        1760227201000000000 ∧
    signature store.cfg (text "GET") (text "/hwfa-media/obj-abc") downloadExpiry
        1760227201000000000 =
      hexEncode (AuthToken.hmac
        ([text "20251012", text "auto", text "s3", text "aws4_request"].foldl AuthToken.hmac
          (text "AWS4test-secret"))
        (stringToSign store.cfg (text "GET") (text "/hwfa-media/obj-abc") downloadExpiry
          1760227201000000000)) ∧
    seconds uploadExpiry = 900 ∧ seconds 1500000000 = 1 ∧
    Urls.read (presign store.cfg (text "GET") (text "/hwfa-media/obj-abc") downloadExpiry
        1760227201000000000) =
      some (text "/hwfa-media/obj-abc", params store.cfg downloadExpiry 1760227201000000000 ++
        [(text "X-Amz-Signature", signature store.cfg (text "GET") (text "/hwfa-media/obj-abc")
          downloadExpiry 1760227201000000000)]) ∧
    InBucket store (text "obj-abc") ∧
    InBucket store (text "abababababababababababababababab") := by
  obtain ⟨distinct, signed, whole, short, -, parts, upload, download⟩ := presigned_urls
  have year : FourDigitYear 1760227201000000000 := ⟨by decide, by decide⟩
  have apart : grant (text "GET") (text "/hwfa-media/obj-abc") downloadExpiry
      1760227201000000000 ≠
        grant (text "PUT") (text "/hwfa-media/obj-abc") uploadExpiry 1760227201000000000 :=
    fun same => absurd (congrArg Grant.method same) (by decide)
  have digests : Sha256.sha256 (canonicalRequest store.cfg (text "GET")
      (text "/hwfa-media/obj-abc") downloadExpiry 1760227201000000000) ≠
        Sha256.sha256 (canonicalRequest store.cfg (text "PUT") (text "/hwfa-media/obj-abc")
          uploadExpiry 1760227201000000000) := by
    rw [MediaSigner.canonicalRequest_eq, MediaSigner.canonicalRequest_eq,
      MediaSigner.canonicalQuery_eq, MediaSigner.canonicalQuery_eq]
    decide +kernel
  have minted : newObjectKey (some (Vector.replicate 16 0xAB)) =
      some (text "abababababababababababababababab") := by decide
  have day : dateStamp 1760227201000000000 = text "20251012" := by decide +kernel
  refine ⟨?_, ?_, ?_, ?_, ?_, ?_, ?_⟩
  · exact (distinct store.cfg _ _ _ _ _ _ _ _ (by decide) (by decide) year year apart).2
      fun same => absurd same digests
  · rw [signed, day]
    rfl
  · exact whole 900 (by decide)
  · exact short 1500000000 (by decide)
  · exact parts store.cfg _ _ _ _ (by decide) (List.all_eq_true.mp (by decide)) (by decide)
  · exact (download store asking 1760227201000000000 1760227201000000000 _ _
      (downloadURL_eq asking_authed rfl (by decide) _)).2
  · exact (upload store asking (some (Vector.replicate 16 0xAB)) 1760227201000000000
      1760227201000000000 _ _ _ (uploadURL_eq asking_authed rfl minted _)).2

end Hwfa.MediaServer
