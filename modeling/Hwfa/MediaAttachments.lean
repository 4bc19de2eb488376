import Hwfa.ClientHashing
import Hwfa.ConversationPhone
import Hwfa.JsonRoundTrip

/-!
Encrypted attachments (`packages/client/src/media/media.ts`, `service.ts`).

The sender encrypts with a key of its own for each attachment and uploads what comes
out; the reference to it travels as JSON in the text of a message.  The recipient
downloads, decrypts and compares the digest.  The cipher and the services are
interfaces: an operation of theirs answers in one world and leaves another, in which
anyone may have acted in between.
-/

namespace Hwfa.MediaAttachments

open Hwfa.ClientHashing (bytesToBase64)
open Hwfa.ConversationPhone (MediaReference)
open Hwfa.ConversationStore (MEDIA_PREFIX buildMediaBody parseMediaBody)
open Hwfa.Json (Text Value one utf16)
open Hwfa.JsonRoundTrip (Held)

/-- Bytes in a typed array, which has fewer elements than two to the power 53. -/
structure Uint8Array where
  bytes : List UInt8
  length_lt : bytes.length < 9007199254740992
  deriving DecidableEq

/-- The cipher seam.  What the recipient decrypts with is whatever the reference holds. -/
structure MediaCipher (ω : Type) where
  encrypt (keyB64 ivB64 : Text) (plaintext : Uint8Array) : Option Uint8Array
  /-- throws on auth failure -/
  decrypt (keyB64 ivB64 : Value) (ciphertext : Uint8Array) : Option Uint8Array
  randomBytes (length : Nat) : StateT ω Option Uint8Array
  /-- base64 sha256 of `data` -/
  sha256B64 (data : Uint8Array) : Text

/-- The plaintext side of one attachment, ready to encrypt. -/
structure MediaPlaintext where
  bytes : Uint8Array
  mime : Text
  name : Option Text

structure MediaKeyMaterial where
  keyB64 : Text
  ivB64 : Text
  mime : Text
  size : Nat
  sha256B64 : Text
  name : Option Text

/-- Ciphertext to upload and the reference minus its locator. -/
structure EncryptedMedia where
  ciphertext : Uint8Array
  keyMaterial : MediaKeyMaterial

/-- What `decryptMedia` returns: the metadata is that of the reference, unchecked. -/
structure Decrypted where
  bytes : Uint8Array
  mime : Value
  name : Option Value
  deriving DecidableEq

/-- A name that is empty counts as none. -/
def nonempty (name : Option Text) : Option Text := name.filter fun name => name ≠ []

/-- What `uploadUrl` answers. -/
structure Presigned where
  url : Text
  locator : Text

structure Response where
  ok : Bool
  body : Uint8Array

/-- `MediaService`, and `fetch` as it is used here. -/
structure Platform (ω : Type) where
  uploadUrl : StateT ω Option Presigned
  /-- the `url` of the answer -/
  downloadUrl (locator : Value) : StateT ω Option Text
  /-- whether the answer to a PUT is `ok` -/
  put (url : Text) (body : Uint8Array) : StateT ω Option Bool
  get (url : Text) : StateT ω Option Response

variable {ω : Type}

def encryptMedia (cipher : MediaCipher ω) (media : MediaPlaintext) :
    StateT ω Option EncryptedMedia := do
  let keyBytes ← cipher.randomBytes 32
  let ivBytes ← cipher.randomBytes 12
  let keyB64 := bytesToBase64 keyBytes.bytes
  let ivB64 := bytesToBase64 ivBytes.bytes
  let ciphertext ← cipher.encrypt keyB64 ivB64 media.bytes
  return {
    ciphertext
    keyMaterial := {
      keyB64
      ivB64
      mime := media.mime
      size := media.bytes.bytes.length
      sha256B64 := cipher.sha256B64 media.bytes
      name := nonempty media.name } }

/-- `none` where the cipher or the comparison of the digests throws. -/
def decryptMedia (cipher : MediaCipher ω) (ciphertext : Uint8Array) (ref : Value) :
    Option Decrypted := do
  let bytes ← cipher.decrypt (ref.get "keyB64") (ref.get "ivB64") ciphertext
  if .string (cipher.sha256B64 bytes) ≠ ref.get "sha256B64" then none
  else
    let name := ref.get "name"
    some { bytes, mime := ref.get "mime", name := if name.truthy then some name else none }

def uploadMedia (cipher : MediaCipher ω) (platform : Platform ω) (media : MediaPlaintext) :
    StateT ω Option MediaReference := do
  let enc ← encryptMedia cipher media
  let presigned ← platform.uploadUrl
  let ok ← platform.put presigned.url enc.ciphertext
  if ok then
    return {
      keyB64 := enc.keyMaterial.keyB64
      ivB64 := enc.keyMaterial.ivB64
      mime := enc.keyMaterial.mime
      size := enc.keyMaterial.size
      sha256B64 := enc.keyMaterial.sha256B64
      name := enc.keyMaterial.name
      locator := presigned.locator }
  else failure

/-- `null` has no properties to ask for. -/
def downloadMedia (cipher : MediaCipher ω) (platform : Platform ω) (ref : Value) :
    StateT ω Option Decrypted := do
  if ref.nullish then failure
  else
    let url ← platform.downloadUrl (ref.get "locator")
    let resp ← platform.get url
    if resp.ok then decryptMedia cipher resp.body ref else failure

/-! ### What is asked of the cipher and of the store -/

/-- Decrypting undoes encrypting under the same key and IV. -/
def MediaCipher.Inverts (cipher : MediaCipher ω) : Prop :=
  ∀ keyB64 ivB64 plaintext ciphertext, cipher.encrypt keyB64 ivB64 plaintext = some ciphertext →
    cipher.decrypt (.string keyB64) (.string ivB64) ciphertext = some plaintext

def MediaCipher.Digests (cipher : MediaCipher ω) : Prop :=
  ∀ data, cipher.sha256B64 data = bytesToBase64 (Sha256.sha256 data.bytes)

/-- What is stored under a locator in a world: a PUT to the address that came with the
locator stores its body there, and what is stored there is what a GET returns. -/
structure Store (platform : Platform ω) where
  blob : ω → Text → Option Uint8Array
  stores {w w₁ w₂ presigned body} : platform.uploadUrl w = some (presigned, w₁) →
    platform.put presigned.url body w₁ = some (true, w₂) → blob w₂ presigned.locator = some body
  returns {w locator body} : blob w locator = some body → ∃ url w₁ w₂,
    platform.downloadUrl (.string locator) w = some (url, w₁) ∧
      platform.get url w₁ = some (⟨true, body⟩, w₂)

/-! ### The reference in the text of a message -/

section

variable (ref : MediaReference)

@[simp] theorem get_keyB64 : ref.value.get "keyB64" = .string ref.keyB64 := by
  obtain ⟨_, _, _, _, _, name, _⟩ := ref
  cases name <;> rfl

@[simp] theorem get_ivB64 : ref.value.get "ivB64" = .string ref.ivB64 := by
  obtain ⟨_, _, _, _, _, name, _⟩ := ref
  cases name <;> rfl

@[simp] theorem get_mime : ref.value.get "mime" = .string ref.mime := by
  obtain ⟨_, _, _, _, _, name, _⟩ := ref
  cases name <;> rfl

@[simp] theorem get_sha256B64 : ref.value.get "sha256B64" = .string ref.sha256B64 := by
  obtain ⟨_, _, _, _, _, name, _⟩ := ref
  cases name <;> rfl

@[simp] theorem get_locator : ref.value.get "locator" = .string ref.locator := by
  obtain ⟨_, _, _, _, _, name, _⟩ := ref
  cases name <;> rfl

/-- A name that is not there is not asked for in vain. -/
@[simp] theorem get_name : ref.value.get "name" = (ref.name.map Value.string).getD .undefined := by
  obtain ⟨_, _, _, _, _, name, _⟩ := ref
  cases name <;> rfl

/-- The locator is where it was when it is set once more. -/
theorem buildMediaBody_value : buildMediaBody ref.value (ref.value.get "locator") =
    ConversationStore.buildBody MEDIA_PREFIX ref.value := by
  obtain ⟨_, _, _, _, _, name, _⟩ := ref
  cases name <;> rfl

end

/-- The names of the properties of a reference, with that of the attachment. -/
def fields : List Text :=
  [utf16 "keyB64", utf16 "ivB64", utf16 "mime", utf16 "size", utf16 "sha256B64", utf16 "name",
    utf16 "locator"]

/-- What `MediaReference.value` consists of. -/
theorem value_members (ref : MediaReference) : ∃ members, ref.value = .object members ∧
    (members.map Prod.fst).Sublist fields ∧
    ∀ m ∈ members, m.2 = .number (.finite (ref.size * one : Nat)) ∨ ∃ t, m.2 = .string t := by
  obtain ⟨keyB64, ivB64, mime, size, sha256B64, name, locator⟩ := ref
  have text (t : Text) : Value.string t = .number (.finite (size * one : Nat)) ∨
      ∃ t', Value.string t = .string t' := .inr ⟨t, rfl⟩
  cases name with
  | none =>
    have unnamed : [utf16 "keyB64", utf16 "ivB64", utf16 "mime", utf16 "size", utf16 "sha256B64",
      utf16 "locator"].Sublist fields := by decide
    refine ⟨_, rfl, unnamed, ?_⟩
    simp only [List.forall_mem_cons, List.forall_mem_append]
    exact ⟨⟨⟨text _, text _, text _, .inl rfl, text _, List.forall_mem_nil _⟩,
      List.forall_mem_nil _⟩, text _, List.forall_mem_nil _⟩
  | some name =>
    refine ⟨_, rfl, List.Sublist.refl fields, ?_⟩
    simp only [List.forall_mem_cons, List.forall_mem_append, Option.toList_some, List.map_cons,
      List.map_nil]
    exact ⟨⟨⟨text _, text _, text _, .inl rfl, text _, List.forall_mem_nil _⟩,
      text _, List.forall_mem_nil _⟩, text _, List.forall_mem_nil _⟩

theorem value_held {ref : MediaReference} (small : ref.size < 9007199254740992) :
    Held ref.value := by
  obtain ⟨members, whole, names, values⟩ := value_members ref
  have distinct : fields.Nodup := by decide
  rw [whole]
  refine .object (distinct.sublist names) fun m member => ?_
  rcases values m member with number | ⟨t, text⟩
  · rw [number]
    refine .primitive fun quanta same => ?_
    cases same
    exact JsonRoundTrip.readNumber_natCast small
  · rw [text]
    exact .primitive (by simp)

theorem reread_value (ref : MediaReference) : Json.reread ref.value = ref.value := by
  obtain ⟨members, whole, names, values⟩ := value_members ref
  have plain : ∀ m ∈ members, m.2 ≠ .undefined ∧ Json.reread m.2 = m.2 := by
    intro m member
    rcases values m member with number | ⟨t, text⟩
    · rw [number]
      refine ⟨?_, rfl⟩
      intro absent
      cases absent
    · rw [text]
      refine ⟨?_, rfl⟩
      intro absent
      cases absent
  have all : members.filter (·.2 ≠ .undefined) = members :=
    List.filter_eq_self.mpr fun m member => decide_eq_true (plain m member).1
  have same : members.map (fun m => (m.1, Json.reread m.2)) = members := by
    have each : members.map (fun m => (m.1, Json.reread m.2)) = members.map id :=
      List.map_congr_left fun m member => Prod.ext rfl (plain m member).2
    rw [each, List.map_id]
  have indices : ∀ name ∈ fields, Json.arrayIndex name = none := by
    simp only [fields, List.forall_mem_cons]
    exact ⟨by decide, by decide, by decide, by decide, by decide, by decide, by decide,
      List.forall_mem_nil _⟩
  rw [whole, Json.reread, Json.rereadMembers_eq, all, same, JsonRoundTrip.indexFirst_eq_self]
  exact fun m member => indices _ (names.subset (List.mem_map_of_mem member))

/-- A reference is read back from the text it is sent in. -/
theorem parseMediaBody_buildMediaBody {ref : MediaReference} (small : ref.size < 9007199254740992) :
    parseMediaBody (buildMediaBody ref.value (ref.value.get "locator")) = ref.value := by
  obtain ⟨json, written⟩ : ∃ json, Json.stringify ref.value = some json := ⟨_, rfl⟩
  have marked : ConversationStore.hasMarker MEDIA_PREFIX (MEDIA_PREFIX ++ json) = true :=
    List.isPrefixOf_iff_prefix.mpr (List.prefix_append _ _)
  rw [buildMediaBody_value, ConversationStore.buildBody, written, Option.getD_some, parseMediaBody,
    ConversationStore.parseBody, if_pos marked, List.drop_left,
    JsonRoundTrip.parse_stringify (value_held small) written, reread_value]
  rfl

/-! ### Uploading -/

theorem bind_eq_some {α β : Type} {x : StateT ω Option α} {f : α → StateT ω Option β} {w : ω}
    {r : β × ω} (done : (x >>= f) w = some r) : ∃ a w₁, x w = some (a, w₁) ∧ f a w₁ = some r := by
  obtain ⟨⟨a, w₁⟩, first, second⟩ := Option.bind_eq_some_iff.mp done
  exact ⟨a, w₁, first, second⟩

theorem bind_apply {α β : Type} {x : StateT ω Option α} {w w₁ : ω} {a : α}
    (first : x w = some (a, w₁)) (f : α → StateT ω Option β) : (x >>= f) w = f a w₁ := by
  change (x w).bind _ = _
  rw [first]
  rfl

/-- What is no operation of the world leaves it alone. -/
theorem lift_eq_some {α : Type} {x : Option α} {w w₁ : ω} {a : α}
    (done : (liftM x : StateT ω Option α) w = some (a, w₁)) : x = some a ∧ w₁ = w := by
  obtain ⟨b, first, second⟩ := Option.bind_eq_some_iff.mp done
  cases second
  exact ⟨first, rfl⟩

variable {cipher : MediaCipher ω} {platform : Platform ω} {media : MediaPlaintext}

/-- What an upload has done when it returns. -/
theorem uploadMedia_spec {ref : MediaReference} {w w₃ : ω}
    (uploaded : uploadMedia cipher platform media w = some (ref, w₃)) :
    ∃ sent presigned w₁ w₂, cipher.encrypt ref.keyB64 ref.ivB64 media.bytes = some sent ∧
      platform.uploadUrl w₁ = some (presigned, w₂) ∧
      platform.put presigned.url sent w₂ = some (true, w₃) ∧
      ref.mime = media.mime ∧ ref.size = media.bytes.bytes.length ∧
      ref.sha256B64 = cipher.sha256B64 media.bytes ∧ ref.name = nonempty media.name ∧
      ref.locator = presigned.locator := by
  obtain ⟨enc, w₁, encrypted, uploaded⟩ := bind_eq_some uploaded
  obtain ⟨presigned, w₂, asked, uploaded⟩ := bind_eq_some uploaded
  obtain ⟨ok, w₄, put, uploaded⟩ := bind_eq_some uploaded
  obtain ⟨keyBytes, _, _, encrypted⟩ := bind_eq_some encrypted
  obtain ⟨ivBytes, _, _, encrypted⟩ := bind_eq_some encrypted
  obtain ⟨ciphertext, _, lifted, encrypted⟩ := bind_eq_some encrypted
  cases ok with
  | false => cases uploaded
  | true =>
    cases encrypted
    cases uploaded
    exact ⟨ciphertext, presigned, w₁, w₂, (lift_eq_some lifted).1, asked, put, rfl, rfl, rfl, rfl, rfl⟩

/-! ### Downloading -/

theorem decryptMedia_value (ref : MediaReference) (body : Uint8Array) :
    decryptMedia cipher body ref.value =
      (cipher.decrypt (.string ref.keyB64) (.string ref.ivB64) body).bind fun bytes =>
        if cipher.sha256B64 bytes = ref.sha256B64 then
          some ⟨bytes, .string ref.mime, (nonempty ref.name).map .string⟩
        else none := by
  have named : (if ((ref.name.map Value.string).getD .undefined).truthy then
      some ((ref.name.map Value.string).getD .undefined) else none) =
      (nonempty ref.name).map Value.string := by
    rcases ref.name with _ | _ | ⟨u, more⟩ <;> rfl
  rw [decryptMedia]
  simp only [get_keyB64, get_ivB64, get_sha256B64, get_mime, get_name, named]
  cases cipher.decrypt (.string ref.keyB64) (.string ref.ivB64) body with
  | none => rfl
  | some bytes => by_cases same : cipher.sha256B64 bytes = ref.sha256B64 <;> simp [same]

/-- What is stored in a world is what is decrypted in it. -/
theorem downloadMedia_value (store : Store platform) {ref : MediaReference} {w : ω} {body : Uint8Array}
    (there : store.blob w ref.locator = some body) :
    ∃ w₁, downloadMedia cipher platform ref.value w =
      (decryptMedia cipher body ref.value).map fun media => (media, w₁) := by
  obtain ⟨url, w₁, w₂, asked, got⟩ := store.returns there
  have present : ref.value.nullish = false := rfl
  refine ⟨w₂, ?_⟩
  rw [downloadMedia, present, if_neg Bool.false_ne_true, get_locator, bind_apply asked,
    bind_apply got, if_pos rfl]
  cases decryptMedia cipher body ref.value <;> rfl

theorem bytesToBase64_injective {xs ys : List UInt8} (same : bytesToBase64 xs = bytesToBase64 ys) :
    xs = ys := by
  have back := ClientHashing.base64ToBytes_salt ⟨true⟩ xs
  rw [same, ClientHashing.base64ToBytes_salt] at back
  exact (Option.some.inj back).symm

/-- Attachments come back from the text they are sent in, for as long as what was PUT is
what is stored; a blob in its place that decrypts to something of another digest is
rejected. -/
theorem attachments_round_trip (inverts : cipher.Inverts) (digests : cipher.Digests)
    (store : Store platform) {ref : MediaReference} {w w₁ : ω}
    (uploaded : uploadMedia cipher platform media w = some (ref, w₁)) :
    ∃ locator sent, ref.value.get "locator" = .string locator ∧ store.blob w₁ locator = some sent ∧
      (∀ later, store.blob later locator = some sent → ∃ after,
        downloadMedia cipher platform
            (parseMediaBody (buildMediaBody ref.value (ref.value.get "locator"))) later =
          some (⟨media.bytes, .string media.mime, (nonempty media.name).map .string⟩, after)) ∧
      ∀ later blob bytes, store.blob later locator = some blob →
        cipher.decrypt (ref.value.get "keyB64") (ref.value.get "ivB64") blob = some bytes →
        Sha256.sha256 bytes.bytes ≠ Sha256.sha256 media.bytes.bytes →
        downloadMedia cipher platform
          (parseMediaBody (buildMediaBody ref.value (ref.value.get "locator"))) later = none := by
  obtain ⟨sent, presigned, _, _, encrypted, asked, put, mime, size, digest, name, located⟩ :=
    uploadMedia_spec uploaded
  have stored := store.stores asked put
  rw [← located] at stored
  have read := parseMediaBody_buildMediaBody (size ▸ media.bytes.length_lt)
  refine ⟨ref.locator, sent, get_locator ref, stored, ?_, ?_⟩
  · intro later there
    obtain ⟨after, downloaded⟩ := downloadMedia_value store there
    have once : nonempty (nonempty media.name) = nonempty media.name := by
      rw [nonempty, nonempty, Option.filter_filter]
      simp
    refine ⟨after, ?_⟩
    rw [read, downloaded, decryptMedia_value, inverts _ _ _ _ encrypted, Option.bind_some,
      if_pos digest.symm, mime, name, once]
    rfl
  · intro later blob bytes there decrypted different
    obtain ⟨after, downloaded⟩ : ∃ after, downloadMedia cipher platform ref.value later =
        (decryptMedia cipher blob ref.value).map fun media => (media, after) :=
      downloadMedia_value store there
    rw [get_keyB64, get_ivB64] at decrypted
    have rejected : cipher.sha256B64 bytes ≠ ref.sha256B64 := by
      intro same
      rw [digest, digests, digests] at same
      exact different (bytesToBase64_injective same)
    rw [read, downloaded, decryptMedia_value, decrypted, Option.bind_some, if_neg rejected]
    rfl

/-! ### An attachment -/

def nulls (n : Nat) (short : n < 9007199254740992) : Uint8Array :=
  ⟨List.replicate n 0, by rwa [List.length_replicate]⟩

/-- Sixteen null bytes under the key and the IV that are all null. -/
def ciphertext : Uint8Array := ⟨[0xce, 0xa7, 0x40, 0x3d, 0x4d, 0x60, 0x6b, 0x6e, 0x07, 0x4e, 0xc5, 0xd3,
  0xba, 0xf3, 0x9d, 0x18, 0xd0, 0xd1, 0xc8, 0xa7, 0x99, 0x99, 0x6b, 0xf0, 0x26, 0x5b, 0x98, 0xb5, 0xd4,
  0x8a, 0xb9, 0x19], by decide⟩

/-- No byte at all under them. -/
def tag : Uint8Array := ⟨[0x53, 0x0f, 0x8a, 0xfb, 0xc7, 0x45, 0x36, 0xb9, 0xa9, 0x63, 0xb4, 0xf1, 0xc4,
  0xcb, 0x73, 0x8b], by decide⟩

/-- What AES-256-GCM makes of both. -/
def sealed : List (Uint8Array × Uint8Array) :=
  [(nulls 16 (by decide), ciphertext), (nulls 0 (by decide), tag)]

def key : Text := bytesToBase64 (List.replicate 32 0)

def iv : Text := bytesToBase64 (List.replicate 12 0)

abbrev Memory := Maps.FinMap Text Uint8Array

/-- AES-256-GCM where it is known, with a source of randomness that draws nothing else. -/
def aes : MediaCipher Memory where
  encrypt keyB64 ivB64 plaintext :=
    if keyB64 = key ∧ ivB64 = iv then (sealed.find? fun p => p.1 = plaintext).map (·.2) else none
  decrypt keyB64 ivB64 ciphertext :=
    if keyB64 = .string key ∧ ivB64 = .string iv then
      (sealed.find? fun p => p.2 = ciphertext).map (·.1)
    else none
  randomBytes length w :=
    if short : length < 9007199254740992 then some (nulls length short, w) else none
  sha256B64 data := bytesToBase64 (Sha256.sha256 data.bytes)

def base : Text := utf16 "https://r2/"

/-- One bucket, which has given out the locator `"a"`. -/
def bucket : Platform Memory where
  uploadUrl w := some (⟨base ++ utf16 "a", utf16 "a"⟩, w)
  downloadUrl locator w :=
    match locator with
    | .string locator => some (base ++ locator, w)
    | _ => none
  put url body w := some (true, w.insert url body)
  get url w := (w.lookup url).map fun body => (⟨true, body⟩, w)

def bucketStore : Store bucket where
  blob w locator := w.lookup (base ++ locator)
  stores asked put := by
    cases asked
    cases put
    exact AList.lookup_insert _
  returns {w locator body} there := ⟨base ++ locator, w, w, rfl, by
    change (w.lookup (base ++ locator)).map _ = _
    rw [there]
    rfl⟩

theorem blob_insert (w : Memory) (locator : Text) (body : Uint8Array) :
    bucketStore.blob (w.insert (base ++ locator) body) locator = some body := by
  change (w.insert (base ++ locator) body).lookup (base ++ locator) = some body
  rw [AList.lookup_insert]

theorem aes_inverts : aes.Inverts := by
  intro keyB64 ivB64 plaintext ciphertext encrypted
  have pairs : ∀ p ∈ sealed, (sealed.find? fun q => q.2 = p.2).map (·.1) = some p.1 := by decide
  obtain ⟨⟨rfl, rfl⟩, found⟩ := Option.ite_none_right_eq_some.mp encrypted
  obtain ⟨p, first, rfl⟩ := Option.map_eq_some_iff.mp found
  have test := List.find?_some first
  have same := of_decide_eq_true test
  have known : aes.decrypt (.string key) (.string iv) p.2 =
      (sealed.find? fun q => q.2 = p.2).map (·.1) := by simp [aes]
  rw [known, ← same]
  exact pairs p (List.mem_of_find?_eq_some first)

def photo : MediaPlaintext := ⟨nulls 16 (by decide), utf16 "image/jpeg", some (utf16 "a.jpg")⟩

def photoReference : MediaReference where
  keyB64 := key
  ivB64 := iv
  mime := photo.mime
  size := 16
  sha256B64 := aes.sha256B64 photo.bytes
  name := photo.name
  locator := utf16 "a"

theorem photo_encrypted : encryptMedia aes photo ∅ = some (⟨ciphertext, {
    keyB64 := key
    ivB64 := iv
    mime := photo.mime
    size := 16
    sha256B64 := aes.sha256B64 photo.bytes
    name := photo.name }⟩, ∅) := by
  have drawn (length : Nat) (short : length < 9007199254740992) :
      aes.randomBytes length ∅ = some (nulls length short, ∅) := dif_pos short
  have encrypted : aes.encrypt key iv photo.bytes = some ciphertext := by
    have known : aes.encrypt key iv photo.bytes =
        (sealed.find? fun p => p.1 = photo.bytes).map (·.2) := by simp [aes]
    rw [known]
    decide
  have lifted : (liftM (aes.encrypt key iv photo.bytes) : StateT Memory Option Uint8Array) ∅ =
      some (ciphertext, ∅) := by
    rw [encrypted]
    rfl
  rw [encryptMedia, bind_apply (drawn 32 (by decide)), bind_apply (drawn 12 (by decide))]
  exact bind_apply lifted _

theorem photo_uploaded : uploadMedia aes bucket photo ∅ =
    some (photoReference, (∅ : Memory).insert (base ++ utf16 "a") ciphertext) := by
  have asked : bucket.uploadUrl ∅ = some (⟨base ++ utf16 "a", utf16 "a"⟩, ∅) := rfl
  have put : bucket.put (base ++ utf16 "a") ciphertext ∅ =
      some (true, (∅ : Memory).insert (base ++ utf16 "a") ciphertext) := rfl
  have returned (ref : MediaReference) (w : Memory) :
      (pure ref : StateT Memory Option MediaReference) w = some (ref, w) := rfl
  rw [uploadMedia, bind_apply photo_encrypted, bind_apply asked, bind_apply put, if_pos rfl, returned,
    photoReference]

/-- The photo comes back, and the tag in its place does not pass for it. -/
theorem attachments_round_trip_photo :
    (∃ after, downloadMedia aes bucket
        (parseMediaBody (buildMediaBody photoReference.value (photoReference.value.get "locator")))
        ((∅ : Memory).insert (base ++ utf16 "a") ciphertext) =
      some (⟨photo.bytes, .string (utf16 "image/jpeg"), some (.string (utf16 "a.jpg"))⟩, after)) ∧
    downloadMedia aes bucket
      (parseMediaBody (buildMediaBody photoReference.value (photoReference.value.get "locator")))
      ((∅ : Memory).insert (base ++ utf16 "a") tag) = none := by
  obtain ⟨locator, sent, located, stored, back, rejected⟩ :=
    attachments_round_trip aes_inverts (fun _ => rfl) bucketStore photo_uploaded
  rw [get_locator] at located
  cases located
  have opened : aes.decrypt (.string key) (.string iv) tag = some (nulls 0 (by decide)) := by
    have known : aes.decrypt (.string key) (.string iv) tag =
        (sealed.find? fun q => q.2 = tag).map (·.1) := by simp [aes]
    rw [known]
    decide
  have located : photoReference.locator = utf16 "a" := by rw [photoReference]
  have replaced : bucketStore.blob ((∅ : Memory).insert (base ++ utf16 "a") tag)
      photoReference.locator = some tag := by
    rw [located]
    exact blob_insert ∅ (utf16 "a") tag
  refine ⟨back _ stored, rejected _ tag (nulls 0 (by decide)) replaced ?_ ?_⟩
  · rw [get_keyB64, get_ivB64]
    exact opened
  · decide +kernel

end Hwfa.MediaAttachments
