import Mathlib.Tactic.Tauto
import Hwfa.DeviceKeyStore
import Hwfa.DiscoveryService

/-!
Sessions from the bundles that Discovery serves, on the two platforms
(`packages/crypto/src/identity.ts`, `HwfaCryptoModule.kt`).

`bundleFor` leaves the one-time fields nil once the pool is used up, and they
arrive as null.  `toPreKeyBundle` builds a libsignal bundle without a one-time
prekey from them; the module on Android throws.  An id is read as a number on
Node and as an `Int` on Android, which cuts off what does not fit.
-/

namespace Hwfa.SessionBundles

open Hwfa.Maps Hwfa.DiscoveryStore

/-- libsignal's `PreKeyBundle`. -/
structure PreKeyBundle (PublicKey KEMPublicKey : Type) where
  registrationId : Int
  deviceId : Int
  preKey : Option (Int × PublicKey)
  signedPreKeyId : Int
  signedPreKeyPublic : PublicKey
  signedPreKeySignature : List UInt8
  identityKey : PublicKey
  kyberPreKeyId : Int
  kyberPreKeyPublic : KEMPublicKey
  kyberPreKeySignature : List UInt8

/-- What the two platforms use of libsignal, which is one core under both. -/
structure Libsignal where
  PublicKey : Type
  KEMPublicKey : Type
  /-- `PublicKey.deserialize`, `Curve.decodePoint` and the constructor of `IdentityKey`. -/
  deserialize : List UInt8 → Option PublicKey
  deserializeKEM : List UInt8 → Option KEMPublicKey
  /-- Whether a session can be built: the ids are in range and the signatures verify. -/
  process : PreKeyBundle PublicKey KEMPublicKey → Bool

abbrev Libsignal.Bundle (lib : Libsignal) := PreKeyBundle lib.PublicKey lib.KEMPublicKey

variable (lib : Libsignal)

/-! ### Node -/

def unb64 (s : String) : List UInt8 := Base64.decodeLoose s.toList

/-- The one-time prekey of `toPreKeyBundle`, if the bundle has both fields. -/
def oneTimeOnNode (pub : PublishedKeyBundle) : Option (Option (Int × lib.PublicKey)) :=
  match pub.oneTimePreKeyID, pub.oneTimePreKeyPublicB64 with
  | some id, some publicB64 =>
    (lib.deserialize (unb64 publicB64)).map fun key => some (id.toInt, key)
  | _, _ => some none

/-- `identity.ts::toPreKeyBundle`; `none` is an exception. -/
def toPreKeyBundle (pub : PublishedKeyBundle) : Option lib.Bundle := do
  let preKey ← oneTimeOnNode lib pub
  let signedPreKeyPublic ← lib.deserialize (unb64 pub.signedPreKeyPublicB64)
  let identityKey ← lib.deserialize (unb64 pub.identityKeyB64)
  let kyberPreKeyPublic ← lib.deserializeKEM (unb64 pub.kyberPreKeyPublicB64)
  some
    { registrationId := pub.registrationID.toInt
      deviceId := pub.deviceID.toInt
      preKey := preKey
      signedPreKeyId := pub.signedPreKeyID.toInt
      signedPreKeyPublic := signedPreKeyPublic
      signedPreKeySignature := unb64 pub.signedPreKeySignatureB64
      identityKey := identityKey
      kyberPreKeyId := pub.kyberPreKeyID.toInt
      kyberPreKeyPublic := kyberPreKeyPublic
      kyberPreKeySignature := unb64 pub.kyberPreKeySignatureB64 }

/-- `NodeCryptoProvider.establishSession`: the bundle it starts a session from. -/
def establishOnNode (pub : PublishedKeyBundle) : Option lib.Bundle :=
  (toPreKeyBundle lib pub).filter lib.process

/-! ### Android -/

/-- `ReadableMap.getInt` of a whole number. -/
def getInt (n : Int64) : Int := max Int32.minValue.toInt (min n.toInt Int32.maxValue.toInt)

/-- `HwfaCryptoModule.establishSession`: the bundle it starts a session from; `none`
is a rejection. -/
def establishOnAndroid (pub : PublishedKeyBundle) : Option lib.Bundle := do
  -- `hasOneTime`, or the exception
  let oneTimePreKeyId ← pub.oneTimePreKeyID
  let oneTimePreKeyPublicB64 ← pub.oneTimePreKeyPublicB64
  let preKeyPublic ← (DeviceKeyStore.dec oneTimePreKeyPublicB64).bind lib.deserialize
  let signedPreKeyPublic ← (DeviceKeyStore.dec pub.signedPreKeyPublicB64).bind lib.deserialize
  let signedPreKeySignature ← DeviceKeyStore.dec pub.signedPreKeySignatureB64
  let identityKey ← (DeviceKeyStore.dec pub.identityKeyB64).bind lib.deserialize
  let kyberPreKeyPublic ← (DeviceKeyStore.dec pub.kyberPreKeyPublicB64).bind lib.deserializeKEM
  let kyberPreKeySignature ← DeviceKeyStore.dec pub.kyberPreKeySignatureB64
  let built : lib.Bundle :=
    { registrationId := getInt pub.registrationID
      deviceId := getInt pub.deviceID
      preKey := some (getInt oneTimePreKeyId, preKeyPublic)
      signedPreKeyId := getInt pub.signedPreKeyID
      signedPreKeyPublic := signedPreKeyPublic
      signedPreKeySignature := signedPreKeySignature
      identityKey := identityKey
      kyberPreKeyId := getInt pub.kyberPreKeyID
      kyberPreKeyPublic := kyberPreKeyPublic
      kyberPreKeySignature := kyberPreKeySignature }
  if lib.process built then some built else none

/-! ### What is registered -/

/-- A text that both platforms read as bytes that `decode` accepts. -/
def Readable (decode : List UInt8 → Option κ) (text : String) : Prop :=
  ∃ bytes, text = String.ofList (Base64.encode bytes) ∧ (decode bytes).isSome

/-- The bundle of an account, with one of its one-time prekeys or without. -/
def bundleWith (acct : Account) (otk : Option OneTimePreKey) : PublishedKeyBundle :=
  { longTermBundle acct with
    oneTimePreKeyID := otk.map (·.id)
    oneTimePreKeyPublicB64 := otk.map (·.publicB64) }

/-- The keys of an account deserialize, and its signatures verify, so that libsignal
builds a session with each of its one-time prekeys and without one. -/
structure Registered (acct : Account) : Prop where
  identity : Readable lib.deserialize acct.identityKeyB64
  signedPreKey : Readable lib.deserialize acct.signedPreKeyPublicB64
  signedSignature : Readable some acct.signedPreKeySignatureB64
  kyberPreKey : Readable lib.deserializeKEM acct.kyberPreKeyPublicB64
  kyberSignature : Readable some acct.kyberPreKeySignatureB64
  pool : ∀ otk ∈ acct.oneTime, Readable lib.deserialize otk.publicB64
  accepted : ∀ otk : Option OneTimePreKey, (∀ key ∈ otk, key ∈ acct.oneTime) →
    ∀ built, toPreKeyBundle lib (bundleWith acct otk) = some built → lib.process built = true

/-- Every id of the bundle is an `Int`. -/
def Fits (pub : PublishedKeyBundle) : Prop :=
  ∀ id ∈ [pub.registrationID, pub.deviceID, pub.signedPreKeyID, pub.kyberPreKeyID] ++
    pub.oneTimePreKeyID.toList, getInt id = id.toInt

/-- The store after so many fetches of a user's bundle. -/
def fetched (s : Store) (userID : String) : Nat → Store
  | 0 => s
  | k + 1 => ((fetched s userID k).bundleFor userID).store

variable {lib} {s : Store} {userID : String} {acct : Account} {pub : PublishedKeyBundle}

/-- What is readable is read as the same key on both platforms. -/
theorem Readable.both {decode : List UInt8 → Option κ} {text : String}
    (readable : Readable decode text) :
    ∃ key, decode (unb64 text) = some key ∧ (DeviceKeyStore.dec text).bind decode = some key := by
  obtain ⟨bytes, rfl, decodes⟩ := readable
  obtain ⟨key, decoded⟩ := Option.isSome_iff_exists.mp decodes
  refine ⟨key, ?_, ?_⟩
  · rw [unb64, String.toList_ofList, Base64.decodeLoose_encode]
    exact decoded
  · rw [DeviceKeyStore.dec, String.toList_ofList, Base64.decodeSkipping_encode]
    exact decoded

theorem Readable.signature {text : String} (readable : Readable some text) :
    DeviceKeyStore.dec text = some (unb64 text) := by
  obtain ⟨bytes, node, android⟩ := readable.both
  rw [Option.bind_fun_some] at android
  rw [android, Option.some.inj node]

/-- Each fetch takes the first prekey of the pool. -/
theorem lookup_fetched (found : s.accounts.lookup userID = some acct) (verified : acct.verified)
    (k : Nat) : (fetched s userID k).accounts.lookup userID =
      some { acct with oneTime := acct.oneTime.drop k } := by
  induction k with
  | zero => exact found
  | succ k ih =>
    have next : acct.oneTime.drop (k + 1) = (acct.oneTime.drop k).tail := by
      rw [List.tail_drop]
    unfold fetched Store.bundleFor
    rw [ih]
    dsimp only
    rw [if_pos verified, next]
    cases pool : acct.oneTime.drop k with
    | nil =>
      rw [pool] at ih
      exact ih
    | cons otk rest => simp

/-- The bundle that is served after so many fetches. -/
theorem bundleFor_fetched (found : s.accounts.lookup userID = some acct)
    (verified : acct.verified) (k : Nat) :
    ((fetched s userID k).bundleFor userID).result = some (bundleWith acct acct.oneTime[k]?) := by
  unfold Store.bundleFor
  rw [lookup_fetched found verified]
  dsimp only
  rw [if_pos verified, ← List.head?_drop]
  cases acct.oneTime.drop k with
  | nil => rfl
  | cons otk rest => rfl

/-- The bundle of libsignal that either platform fills in, reading ids its own way. -/
def filled (acct : Account) (number : Int64 → Int) (preKey : Option (Int × lib.PublicKey))
    (signed identity : lib.PublicKey) (kyber : lib.KEMPublicKey) : lib.Bundle where
  registrationId := number acct.registrationID
  deviceId := number acct.deviceID
  preKey := preKey
  signedPreKeyId := number acct.signedPreKeyID
  signedPreKeyPublic := signed
  signedPreKeySignature := unb64 acct.signedPreKeySignatureB64
  identityKey := identity
  kyberPreKeyId := number acct.kyberPreKeyID
  kyberPreKeyPublic := kyber
  kyberPreKeySignature := unb64 acct.kyberPreKeySignatureB64

/-- What the platforms make of a registered bundle without a one-time prekey, and of one
with a prekey of the pool. -/
theorem Registered.built (registered : Registered lib acct) : ∃ signed identity kyber,
    (establishOnNode lib (bundleWith acct none) =
        some (filled acct Int64.toInt none signed identity kyber) ∧
      establishOnAndroid lib (bundleWith acct none) = none) ∧
    ∀ otk ∈ acct.oneTime, ∃ key,
      establishOnNode lib (bundleWith acct (some otk)) =
          some (filled acct Int64.toInt (some (otk.id.toInt, key)) signed identity kyber) ∧
        establishOnAndroid lib (bundleWith acct (some otk)) =
          (some (filled acct getInt (some (getInt otk.id, key)) signed identity kyber)).filter
            lib.process := by
  obtain ⟨signed, signedNode, signedAndroid⟩ := registered.signedPreKey.both
  obtain ⟨identity, identityNode, identityAndroid⟩ := registered.identity.both
  obtain ⟨kyber, kyberNode, kyberAndroid⟩ := registered.kyberPreKey.both
  have signedSignature := registered.signedSignature.signature
  have kyberSignature := registered.kyberSignature.signature
  refine ⟨signed, identity, kyber, ⟨?_, rfl⟩, ?_⟩
  · have built : toPreKeyBundle lib (bundleWith acct none) =
        some (filled acct Int64.toInt none signed identity kyber) := by
      simp [toPreKeyBundle, oneTimeOnNode, bundleWith, longTermBundle, signedNode, identityNode,
        kyberNode, filled]
    rw [establishOnNode, built, Option.filter_some,
      if_pos (registered.accepted none (by simp) _ built)]
  · intro otk member
    obtain ⟨key, keyNode, keyAndroid⟩ := (registered.pool otk member).both
    have built : toPreKeyBundle lib (bundleWith acct (some otk)) =
        some (filled acct Int64.toInt (some (otk.id.toInt, key)) signed identity kyber) := by
      simp [toPreKeyBundle, oneTimeOnNode, bundleWith, longTermBundle, signedNode, identityNode,
        kyberNode, keyNode, filled]
    refine ⟨key, ?_, ?_⟩
    · rw [establishOnNode, built, Option.filter_some,
        if_pos (registered.accepted (some otk) (by simpa using member) _ built)]
    · simp only [establishOnAndroid, bundleWith, longTermBundle, Option.map_some,
        Option.bind_eq_bind, Option.bind_some, signedAndroid, identityAndroid, kyberAndroid,
        keyAndroid, signedSignature, kyberSignature, filled, Option.filter_some]
      rfl

/-- The two ways to read ids fill in one bundle exactly if every id is an `Int`. -/
theorem filled_eq_iff (otk : OneTimePreKey) (key signed identity : lib.PublicKey)
    (kyber : lib.KEMPublicKey) :
    filled acct getInt (some (getInt otk.id, key)) signed identity kyber =
        filled acct Int64.toInt (some (otk.id.toInt, key)) signed identity kyber ↔
      Fits (bundleWith acct (some otk)) := by
  simp only [filled, PreKeyBundle.mk.injEq, Option.some.injEq, Prod.mk.injEq, Fits, bundleWith,
    longTermBundle, Option.map_some, Option.toList_some, List.cons_append, List.nil_append,
    List.forall_mem_cons, List.not_mem_nil, false_imp_iff, implies_true, and_true, true_and]
  tauto

/-- **When a served bundle starts a session everywhere.** However often an account's
bundle has been fetched before, the one that is served next starts a session on
Node and on Android, from the same libsignal bundle, if and only if the pool held
more prekeys than there were fetches and every id of the bundle is an `Int`. -/
theorem bundle_starts_sessions_iff (found : s.accounts.lookup userID = some acct)
    (verified : acct.verified) (registered : Registered lib acct) (k : Nat)
    (served : ((fetched s userID k).bundleFor userID).result = some pub) :
    (∃ built, establishOnNode lib pub = some built ∧ establishOnAndroid lib pub = some built) ↔
      k < acct.oneTime.length ∧ Fits pub := by
  rw [bundleFor_fetched found verified] at served
  obtain rfl := Option.some.inj served
  obtain ⟨signed, identity, kyber, ⟨-, exhausted⟩, withPreKey⟩ := registered.built
  cases held : acct.oneTime[k]? with
  | none =>
    rw [List.getElem?_eq_none_iff] at held
    rw [exhausted]
    constructor
    · rintro ⟨built, -, rejected⟩
      cases rejected
    · rintro ⟨more, -⟩
      omega
  | some otk =>
    obtain ⟨key, node, android⟩ := withPreKey otk (List.mem_of_getElem? held)
    have more := (List.getElem?_eq_some_iff.mp held).1
    rw [node, android, ← filled_eq_iff otk key signed identity kyber]
    constructor
    · rintro ⟨built, same, accepted⟩
      cases same
      exact ⟨more, Option.some.inj (Option.filter_eq_some_iff.mp accepted).1⟩
    · rintro ⟨-, same⟩
      refine ⟨_, rfl, ?_⟩
      rw [same, Option.filter_some, if_pos (Option.filter_eq_some_iff.mp node).2]

/-- A libsignal whose keys are their bytes, and whose ids are unsigned. -/
def bytesSignal : Libsignal where
  PublicKey := List UInt8
  KEMPublicKey := List UInt8
  deserialize bytes := some bytes
  deserializeKEM bytes := some bytes
  process b := 0 ≤ b.registrationId && 0 ≤ b.deviceId && 0 ≤ b.signedPreKeyId && 0 ≤ b.kyberPreKeyId

def b64 (bytes : List UInt8) : String := String.ofList (Base64.encode bytes)

/-- Bob registers with one one-time prekey. -/
def bobsKeys : RegisterRequest where
  phoneNumber := "+2348012345678"
  deviceID := 1
  registrationID := 77
  identityKeyB64 := b64 [1]
  signedPreKeyID := 1
  signedPreKeyPublicB64 := b64 [2]
  signedPreKeySignatureB64 := b64 [3]
  kyberPreKeyID := 1
  kyberPreKeyPublicB64 := b64 [4]
  kyberPreKeySignatureB64 := b64 [5]
  oneTimePreKeys := [⟨1, b64 [6]⟩]

def bobsAccount (pool : List OneTimePreKey) : Account :=
  { newAccount "bob" (hashPhone [7] "+2348012345678") bobsKeys with oneTime := pool, verified := true }

theorem bobs_account_registered (pool : List OneTimePreKey)
    (readable : ∀ otk ∈ pool, Readable bytesSignal.deserialize otk.publicB64) :
    Registered bytesSignal (bobsAccount pool) where
  identity := ⟨[1], rfl, rfl⟩
  signedPreKey := ⟨[2], rfl, rfl⟩
  signedSignature := ⟨[3], rfl, rfl⟩
  kyberPreKey := ⟨[4], rfl, rfl⟩
  kyberSignature := ⟨[5], rfl, rfl⟩
  pool := readable
  accepted otk _ built fills := by
    cases otk with
    | none =>
      cases fills
      rfl
    | some otk =>
      cases fills
      rfl

/-- He verifies his number, and his bundle is fetched so many times. -/
def bobIsFetched (k : Nat) : List DiscoveryService.Action :=
  [.request (.register bobsKeys "bob" "123456" 0) true, .request (.verify "bob" "123456" 1) true] ++
    List.replicate k (.request (.bundleFor "bob") true)

/-- The first to fetch bob's bundle can start a session from a phone. -/
theorem first_bundle_starts_sessions : ∃ s pub, DiscoveryService.service.Reachable s ∧
    s.store.accounts.lookup "bob" = some (bobsAccount [⟨1, b64 [6]⟩]) ∧
    ((fetched s.store "bob" 0).bundleFor "bob").result = some pub ∧
    ∃ built, establishOnNode bytesSignal pub = some built ∧
      establishOnAndroid bytesSignal pub = some built := by
  have observed : (DiscoveryService.service.run (DiscoveryService.started "" [7]) (bobIsFetched 0)).map
      (fun s => (s.store.accounts.lookup "bob", (s.store.bundleFor "bob").result)) =
        some (some (bobsAccount [⟨1, b64 [6]⟩]),
          some (bundleWith (bobsAccount []) (some ⟨1, b64 [6]⟩))) := by decide +kernel
  obtain ⟨s, reachable, seen⟩ := Machines.Machine.reachable_of_observed observed ⟨"", [7], rfl⟩
  obtain ⟨found, served⟩ := Prod.mk.inj seen
  have registered : Registered bytesSignal (bobsAccount [⟨1, b64 [6]⟩]) := by
    refine bobs_account_registered _ fun otk member => ?_
    rw [List.mem_singleton.mp member]
    exact ⟨[6], rfl, rfl⟩
  have fits : Fits (bundleWith (bobsAccount []) (some ⟨1, b64 [6]⟩)) := by
    change ∀ id ∈ ([77, 1, 1, 1, 1] : List Int64), getInt id = id.toInt
    simp only [List.forall_mem_cons, List.not_mem_nil, false_imp_iff, implies_true, and_true]
    decide +kernel
  exact ⟨s, _, reachable, found, served,
    (bundle_starts_sessions_iff found rfl registered 0 served).mpr ⟨Nat.one_pos, fits⟩⟩

/-- The second gets a bundle that a phone refuses. -/
theorem second_bundle_is_refused : ∃ s, DiscoveryService.service.Reachable s ∧
    ∃ acct pub, s.store.accounts.lookup "bob" = some acct ∧ acct.verified = true ∧
      Registered bytesSignal acct ∧ (s.store.bundleFor "bob").result = some pub ∧
      (establishOnNode bytesSignal pub).isSome ∧ establishOnAndroid bytesSignal pub = none := by
  have observed : (DiscoveryService.service.run (DiscoveryService.started "" [7]) (bobIsFetched 1)).map
      (fun s => (s.store.accounts.lookup "bob", (s.store.bundleFor "bob").result)) =
        some (some (bobsAccount []), some (longTermBundle (bobsAccount []))) := by decide +kernel
  obtain ⟨s, reachable, seen⟩ := Machines.Machine.reachable_of_observed observed ⟨"", [7], rfl⟩
  obtain ⟨found, served⟩ := Prod.mk.inj seen
  refine ⟨s, reachable, _, _, found, rfl, bobs_account_registered [] (by simp), served, ?_, rfl⟩
  decide +kernel

end Hwfa.SessionBundles
