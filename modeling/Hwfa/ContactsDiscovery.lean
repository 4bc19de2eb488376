import Hwfa.ClientHashing
import Hwfa.DiscoveryDirectory
import Hwfa.PhoneNormalization

/-!
Finding a contact by number (`OnboardingScreen.tsx`, `ContactsScreen.tsx`,
`packages/client/src/client.ts`) in the directory of Discovery.

Three places hash a number: the registration, the search for a typed number and
the scan of the address book.  Only the scan brings the number to E.164 first;
the other two hash what was typed, without the white space around it.  A request
is answered in some order of the accounts; that it is refused, or that a number
is too long to be hashed, is `none`.
-/

namespace Hwfa.ContactsDiscovery

open Hwfa.Maps Hwfa.Machines Hwfa.Json Hwfa.DiscoveryStore Hwfa.DiscoveryService
open Hwfa.DiscoveryDirectory Hwfa.ClientHashing Hwfa.ConversationInbound Hwfa.PhoneNormalization

/-! ### Texts on the wire -/

/-- A code unit that is not part of a pair, as Go reads it out of JSON: half a pair
becomes the replacement character. -/
def receivedUnit (u : UInt16) : Char :=
  if isLeading u ∨ isTrailing u then '\uFFFD' else Char.ofNat u.toNat

/-- The characters Go reads of a text that was sent as JSON. -/
def received : Text → List Char
  | [] => []
  | [u] => [receivedUnit u]
  | u :: lo :: after =>
    if isLeading u ∧ isTrailing lo then Char.ofNat (pairCode u.toNat lo.toNat) :: received after
    else receivedUnit u :: received (lo :: after)

/-- A text as a Go string. -/
def goString (t : Text) : String := String.ofList (received t)

/-- A code unit that is not half a pair is read as its character. -/
private theorem received_unit {u : UInt16} (leads : ¬isLeading u = true)
    (trails : ¬isTrailing u = true) (rest : Text) :
    received (u :: rest) = Char.ofNat u.toNat :: received rest := by
  have single : receivedUnit u = Char.ofNat u.toNat := if_neg (not_or.mpr ⟨leads, trails⟩)
  cases rest with
  | nil => exact congrArg (fun c => [c]) single
  | cons lo after => rw [received, if_neg fun both => leads both.1, single]

/-- A well-formed text arrives as it is. -/
theorem received_of_characters {t : Text} {cs : List Char} (read : characters t = some cs) :
    received t = cs := by
  induction t using characters.induct generalizing cs with
  | case1 =>
    cases read
    rfl
  | case2 u leads =>
    rw [characters, if_pos leads] at read
    cases read
  | case3 u leads lo rest trails ih =>
    rw [characters, if_pos leads, if_pos trails] at read
    obtain ⟨others, known, rfl⟩ := Option.map_eq_some_iff.mp read
    rw [received, if_pos ⟨leads, trails⟩, ih known]
  | case4 u leads lo rest trails =>
    rw [characters, if_pos leads, if_neg trails] at read
    cases read
  | case5 u rest leads trails =>
    rw [characters.eq_def] at read
    dsimp only at read
    rw [if_neg leads, if_pos trails] at read
    cases read
  | case6 u rest leads trails ih =>
    rw [characters.eq_def] at read
    dsimp only at read
    rw [if_neg leads, if_neg trails] at read
    obtain ⟨others, known, rfl⟩ := Option.map_eq_some_iff.mp read
    rw [received_unit leads trails, ih known]

/-- A string goes to the client and back unchanged. -/
theorem goString_utf16 (s : String) : goString (utf16 s) = s := by
  have read := characters_utf16 s.toList
  rw [String.ofList_toList] at read
  rw [goString, received_of_characters read, String.ofList_toList]

/-! ### Registration -/

/-- What the onboarding screen asks Discovery for; the keys are fresh. -/
def handleRequestCode (keys : RegisterRequest) (phone : Text) : RegisterRequest :=
  { keys with phoneNumber := goString (trim phone) }

/-! ### Looking up -/

def maxIntersectHashes : Nat := 1000

/-- Who asks, and when. -/
structure Caller where
  host : Host
  userID : String
  now : Int

/-- `handlers.intersect` of a caller whose token has been checked. -/
def respond (s : Store) (caller : Caller) (order : List Account) (hashes : List String) :
    Option (List IntersectMatch) :=
  if maxIntersectHashes < hashes.length then none
  else if (s.allowIntersect caller.userID hashes.length caller.now).result then
    some (intersect order hashes)
  else none

/-- `client.ts::findContact`. -/
def findContact (s : Store) (caller : Caller) (order : List Account) (phoneNumber : Text) :
    Option (Option String) := do
  let hash ← ClientHashing.hashPhone caller.host (utf16 s.saltB64) phoneNumber
  let matches' ← respond s caller order [goString hash]
  some (matches'.head?.map (·.userID))

/-- `handleFind` of the contacts screen, up to opening the chat. -/
def handleFind (s : Store) (caller : Caller) (order : List Account) (phone : Text) :
    Option (Option String) := findContact s caller order (trim phone)

structure Contact where
  phoneNumber : Text
  userId : String
  deriving DecidableEq

/-- The elements of a `Set`, in the order in which they were added. -/
def distinct (numbers : List Text) : List Text :=
  numbers.foldl (fun seen number => if seen.contains number then seen else seen ++ [number]) []

/-- `hashToPhone` -/
def hashTable (s : Store) (host : Host) (numbers : List Text) : Option (FinMap Text Text) :=
  numbers.foldlM (fun table phone => do
    let hash ← ClientHashing.hashPhone host (utf16 s.saltB64) phone
    some (table.put hash phone)) ∅

/-- The matches whose hash is in the table, with the number it stands for. -/
def namedContacts (hashToPhone : FinMap Text Text) (matches' : List IntersectMatch) : List Contact :=
  matches'.filterMap fun m =>
    ((hashToPhone.lookup (utf16 m.phoneHashB64)).filter (· ≠ [])).map fun phone => ⟨phone, m.userID⟩

/-- `client.ts::discoverContacts`. -/
def discoverContacts (s : Store) (caller : Caller) (order : List Account)
    (phoneNumbers : List Text) : Option (List Contact) :=
  let unique := distinct phoneNumbers
  if unique = [] then some []
  else do
    let hashToPhone ← hashTable s caller.host unique
    let matches' ← respond s caller order (hashToPhone.keys.map goString)
    some (namedContacts hashToPhone matches')

structure DeviceContact where
  name : Text
  number : Text

/-- The calling code of the user, told by the number saved at registration. -/
def defaultCallingCode (ownPhone : Option Text) : Option Text :=
  (ownPhone.filter (· ≠ [])).bind callingCodeOf

/-- A contact of the address book: the first name of a number is kept. -/
def noteContact (ownPhone : Option Text) (names : FinMap Text Text) (c : DeviceContact) :
    FinMap Text Text :=
  match normalizeE164 c.number (defaultCallingCode ownPhone) with
  | none => names
  | some e164 =>
    if some e164 = ownPhone then names
    else if (names.lookup e164).isSome then names
    else names.put e164 (if c.name = [] then e164 else c.name)

/-- `nameByNumber` of a scan. -/
def nameByNumber (ownPhone : Option Text) (contacts : List DeviceContact) : FinMap Text Text :=
  contacts.foldl (noteContact ownPhone) ∅

structure Match where
  userId : String
  phoneNumber : Text
  name : Text

/-- `handleScan` of the contacts screen: the rows, which are then sorted by name. -/
def handleScan (s : Store) (caller : Caller) (order : List Account) (ownPhone : Option Text)
    (contacts : List DeviceContact) : Option (List Match) :=
  let names := nameByNumber ownPhone contacts
  if names.keys = [] then some []
  else do
    let found ← discoverContacts s caller order names.keys
    some (found.map fun f => ⟨f.userId, f.phoneNumber, (names.lookup f.phoneNumber).getD f.phoneNumber⟩)

/-! ### What a lookup answers -/

/-- The number an entry registers an account with. -/
def registeredNumber (u : String) : Entry → Option String
  | .registered userID req => if userID = u then some req.phoneNumber else none
  | _ => none

/-- An account that was registered on the onboarding screen, with this number and
no other, and is verified. -/
structure Onboarded (s : Service) (u : String) (r : Text) : Prop where
  number : ∀ number ∈ s.log.filterMap (registeredNumber u), number = goString (trim r)
  account : ∃ acct, s.store.accounts.lookup u = some acct ∧ acct.verified = true ∧
    acct.phoneHashB64 ≠ ""

/-- The client hashes the one text as Discovery hashed the other: they are one
text, or their salted digests collide. -/
def HashesAs (s : Store) (asked registered : Text) : Prop :=
  ClientHashing.sha256 (s.salt ++ utf8Encode asked) =
    some (Sha256.sha256 (s.salt ++ utf8 (goString registered)))

/-- No other verified account carries the account's hash. -/
def Alone (s : Store) (u : String) : Prop :=
  ∀ acct, s.accounts.lookup u = some acct → ∀ k other, s.accounts.lookup k = some other →
    other.verified = true → other.phoneHashB64 = acct.phoneHashB64 → k = u

/-- Discovery accepts a batch of this many hashes. -/
def Accepts (s : Store) (caller : Caller) (count : Nat) : Prop :=
  count ≤ maxIntersectHashes ∧ (s.allowIntersect caller.userID count caller.now).result = true

variable {s : Service} {store : Store} {u h : String} {r q : Text} {acct : Account}

/-- The hash of an onboarded account. -/
theorem Onboarded.hash (onboarded : Onboarded s u r) (reachable : service.Reachable s) :
    ∃ acct, s.store.accounts.lookup u = some acct ∧ acct.verified = true ∧
      acct.phoneHashB64 = DiscoveryStore.hashPhone s.store.salt (goString (trim r)) := by
  obtain ⟨acct, found, verified, carries⟩ := onboarded.account
  obtain ⟨own, sound⟩ := (reached_sound reachable).memory u acct found
  obtain ⟨-, req, member, hashed⟩ := sound carries
  rw [own] at member
  refine ⟨acct, found, verified, ?_⟩
  have number := onboarded.number req.phoneNumber
    (List.mem_filterMap.mpr ⟨_, member, if_pos rfl⟩)
  rw [← hashed, number]

/-- The index names an account in every order of the accounts exactly when the
account carries the hash and no other does. -/
theorem lookup_everywhere_iff (keyed : ∀ k a, store.accounts.lookup k = some a → a.userID = k)
    (found : store.accounts.lookup u = some acct) (verified : acct.verified = true) :
    (∀ order, Iterates store order → (byHash order).lookup h = some u) ↔
      h = acct.phoneHashB64 ∧ Alone store u := by
  constructor
  · intro everywhere
    obtain ⟨named, member, -, carried, own⟩ := lookup_byHash (everywhere _ (.refl _))
    obtain ⟨k, inStore⟩ := FinMap.mem_values.mp member
    obtain rfl : k = u := (keyed k named inStore).symm.trans own
    obtain rfl := Option.some.inj (found.symm.trans inStore)
    refine ⟨carried.symm, ?_⟩
    intro acct' found' k' other inStore' verified' same
    obtain rfl := Option.some.inj (found.symm.trans found')
    -- An order that has the other account last names it.
    obtain ⟨before, after, split⟩ := List.append_of_mem (FinMap.mem_values.mpr ⟨k', inStore'⟩)
    have last : Iterates store (before ++ after ++ [other]) := by
      rw [Iterates, split, List.append_assoc]
      exact List.Perm.append_left before List.perm_append_comm
    have names := everywhere _ last
    rw [byHash_append, if_pos verified', FinMap.lookup_insert_apply,
      if_pos (carried.symm.trans same.symm)] at names
    exact (keyed k' other inStore').symm.trans (Option.some.inj names)
  · rintro ⟨rfl, alone⟩ order iterates
    have member : acct ∈ order := iterates.mem_iff.mpr (FinMap.mem_values.mpr ⟨u, found⟩)
    obtain ⟨uid, indexed⟩ := exists_lookup_byHash member verified
    obtain ⟨other, inside, verified', carried, own⟩ := lookup_byHash indexed
    obtain ⟨k, inStore⟩ := FinMap.mem_values.mp (iterates.mem_iff.mp inside)
    obtain rfl : k = uid := (keyed k other inStore).symm.trans own
    rw [indexed, alone acct found k other inStore verified' carried]

/-- What the client hashes a text to. -/
theorem hashPhone_saltB64 (host : Host) (store : Store) (phone : Text) :
    ClientHashing.hashPhone host (utf16 store.saltB64) phone =
      (ClientHashing.sha256 (store.salt ++ utf8Encode phone)).map bytesToBase64 := by
  have salt := base64ToBytes_salt host store.salt
  rw [bytesToBase64] at salt
  rw [ClientHashing.hashPhone, Store.saltB64, salt, Option.bind_eq_bind, Option.bind_some]
  generalize ClientHashing.sha256 (store.salt ++ utf8Encode phone) = digest
  cases digest <;> rfl

/-- The client's hash of a text is an account's exactly when it hashes as the
account's number. -/
theorem hashesAs_iff {host : Host} {asked registered : Text} {hash : Text}
    (hashed : ClientHashing.hashPhone host (utf16 store.saltB64) asked = some hash) :
    HashesAs store asked registered ↔
      goString hash = DiscoveryStore.hashPhone store.salt (goString registered) := by
  rw [hashPhone_saltB64] at hashed
  obtain ⟨digest, known, rfl⟩ := Option.map_eq_some_iff.mp hashed
  rw [HashesAs, known, bytesToBase64, goString_utf16, DiscoveryStore.hashPhone, String.ofList_inj,
    Option.some.injEq]
  exact ⟨fun same => by rw [same], fun same => Base64.encode_injective same⟩

theorem HashesAs.hash {asked registered : Text} (alike : HashesAs store asked registered)
    (host : Host) : ∃ hash, ClientHashing.hashPhone host (utf16 store.saltB64) asked = some hash :=
  ⟨_, by rw [hashPhone_saltB64, alike, Option.map_some]⟩

theorem respond_eq_some {caller : Caller} {order : List Account} {hashes : List String}
    {answer : List IntersectMatch} :
    respond store caller order hashes = some answer ↔
      Accepts store caller hashes.length ∧ intersect order hashes = answer := by
  unfold respond Accepts
  split
  · next tooMany => simp [Nat.not_le.mpr tooMany]
  · next within => simp [Nat.not_lt.mp within]

theorem head_intersect (order : List Account) (h : String) :
    (intersect order [h]).head?.map (·.userID) = (byHash order).lookup h := by
  simp only [intersect, intersectLoop, List.not_mem_nil, if_false]
  cases (byHash order).lookup h <;> rfl

/-- A typed number finds the account exactly when the request is accepted, what
was typed hashes as what was registered, and no other account has the hash. -/
theorem handleFind_iff (reachable : service.Reachable s) (onboarded : Onboarded s u r)
    (caller : Caller) :
    (∀ order, Iterates s.store order → handleFind s.store caller order q = some (some u)) ↔
      Accepts s.store caller 1 ∧ HashesAs s.store (trim q) (trim r) ∧ Alone s.store u := by
  obtain ⟨acct, found, verified, carried⟩ := onboarded.hash reachable
  have keyed (k : String) (a : Account) (inStore : s.store.accounts.lookup k = some a) :
      a.userID = k := ((reached_sound reachable).memory k a inStore).1
  have finds (order : List Account) : handleFind s.store caller order q = some (some u) ↔
      ∃ hash, ClientHashing.hashPhone caller.host (utf16 s.store.saltB64) (trim q) = some hash ∧
        Accepts s.store caller 1 ∧ (byHash order).lookup (goString hash) = some u := by
    simp only [handleFind, findContact, Option.bind_eq_bind, Option.bind_eq_some_iff,
      respond_eq_some, List.length_singleton, Option.some.injEq, ← head_intersect]
    constructor
    · rintro ⟨hash, hashed, answer, ⟨accepts, rfl⟩, first⟩
      exact ⟨hash, hashed, accepts, first⟩
    · rintro ⟨hash, hashed, accepts, first⟩
      exact ⟨hash, hashed, _, ⟨accepts, rfl⟩, first⟩
  constructor
  · intro everywhere
    obtain ⟨hash, hashed, accepts, -⟩ := (finds _).mp (everywhere _ (.refl _))
    have named : ∀ order, Iterates s.store order →
        (byHash order).lookup (goString hash) = some u := by
      intro order iterates
      obtain ⟨hash', hashed', -, first⟩ := (finds order).mp (everywhere order iterates)
      rw [Option.some.inj (hashed.symm.trans hashed')]
      exact first
    obtain ⟨same, alone⟩ := (lookup_everywhere_iff keyed found verified).mp named
    exact ⟨accepts, (hashesAs_iff hashed).mpr (same.trans carried), alone⟩
  · rintro ⟨accepts, alike, alone⟩ order iterates
    obtain ⟨hash, hashed⟩ := alike.hash caller.host
    have same := (hashesAs_iff hashed).mp alike
    exact (finds order).mpr ⟨hash, hashed, accepts,
      (lookup_everywhere_iff keyed found verified).mpr ⟨same.trans carried.symm, alone⟩ order iterates⟩

/-! ### The scan -/

/-- A contact's E.164 number is looked up unless it is the user's own. -/
def Scanned (ownPhone : Option Text) (contacts : List DeviceContact) (e164 : Text) : Prop :=
  some e164 ≠ ownPhone ∧ ∃ c ∈ contacts,
    normalizeE164 c.number (defaultCallingCode ownPhone) = some e164

theorem mem_keys_put {table : FinMap Text Text} {k k' x : Text} :
    k' ∈ (table.put k x).keys ↔ k' = k ∨ k' ∈ table.keys := by
  rw [← AList.mem_keys, ← AList.mem_keys, ← AList.lookup_isSome, ← AList.lookup_isSome,
    FinMap.lookup_put_apply]
  split
  · next same => simp [same]
  · next other => simp [other]

theorem mem_noteContact {ownPhone : Option Text} {names : FinMap Text Text} {c : DeviceContact}
    {e164 : Text} : e164 ∈ (noteContact ownPhone names c).keys ↔ e164 ∈ names.keys ∨
      some e164 ≠ ownPhone ∧ normalizeE164 c.number (defaultCallingCode ownPhone) = some e164 := by
  unfold noteContact
  split
  · next junk => simp [junk]
  · next number normal =>
    rw [normal, Option.some.injEq]
    split
    · next own =>
      constructor
      · exact .inl
      · rintro (inside | ⟨other, rfl⟩)
        · exact inside
        · exact absurd own other
    · next other =>
      split
      · next known =>
        constructor
        · exact .inl
        · rintro (inside | ⟨-, rfl⟩)
          · exact inside
          · exact AList.mem_keys.mp (AList.lookup_isSome.mp known)
      · rw [mem_keys_put]
        constructor
        · rintro (rfl | inside)
          · exact .inr ⟨other, rfl⟩
          · exact .inl inside
        · rintro (inside | ⟨-, rfl⟩)
          · exact .inr inside
          · exact .inl rfl

/-- The numbers of a scan. -/
theorem mem_nameByNumber {ownPhone : Option Text} {contacts : List DeviceContact} {e164 : Text} :
    e164 ∈ (nameByNumber ownPhone contacts).keys ↔ Scanned ownPhone contacts e164 := by
  suffices general : ∀ names, e164 ∈ (contacts.foldl (noteContact ownPhone) names).keys ↔
      e164 ∈ names.keys ∨ Scanned ownPhone contacts e164 by
    simpa [nameByNumber] using general ∅
  induction contacts with
  | nil => simp [Scanned]
  | cons c rest ih =>
    intro names
    rw [List.foldl_cons, ih, mem_noteContact]
    simp only [Scanned, List.exists_mem_cons_iff, and_or_left, or_assoc]

theorem mem_distinct {numbers : List Text} {number : Text} :
    number ∈ distinct numbers ↔ number ∈ numbers := by
  suffices general : ∀ seen : List Text, number ∈ numbers.foldl
      (fun seen number => if seen.contains number then seen else seen ++ [number]) seen ↔
      number ∈ seen ∨ number ∈ numbers by
    simpa [distinct] using general []
  induction numbers with
  | nil => simp
  | cons first rest ih =>
    intro seen
    rw [List.foldl_cons, ih, List.mem_cons]
    split
    · next known =>
      constructor
      · rintro (inside | inside)
        · exact .inl inside
        · exact .inr (.inr inside)
      · rintro (inside | rfl | inside)
        · exact .inl inside
        · exact .inl (List.contains_iff_mem.mp known)
        · exact .inr inside
    · rw [List.mem_append, List.mem_singleton, or_assoc]

/-- The table has the hash of every number, and a number for every hash. -/
theorem hashTable_lookup {host : Host} {numbers : List Text} {table : FinMap Text Text}
    (hashed : hashTable store host numbers = some table) (hash : Text) :
    ((table.lookup hash).isSome ↔ ∃ number ∈ numbers,
        ClientHashing.hashPhone host (utf16 store.saltB64) number = some hash) ∧
      ∀ number, table.lookup hash = some number → number ∈ numbers := by
  suffices general : ∀ start : FinMap Text Text, numbers.foldlM (fun table phone => do
      let hash ← ClientHashing.hashPhone host (utf16 store.saltB64) phone
      some (table.put hash phone)) start = some table →
      ((table.lookup hash).isSome ↔ (start.lookup hash).isSome ∨ ∃ number ∈ numbers,
        ClientHashing.hashPhone host (utf16 store.saltB64) number = some hash) ∧
      ∀ number, table.lookup hash = some number →
        start.lookup hash = some number ∨ number ∈ numbers by
    have known := general ∅ hashed
    simpa using known
  clear hashed
  induction numbers with
  | nil =>
    rintro start same
    cases same
    simp
  | cons first rest ih =>
    intro start hashed
    rw [List.foldlM_cons, Option.bind_eq_bind, Option.bind_eq_some_iff] at hashed
    obtain ⟨next, put, hashed⟩ := hashed
    rw [Option.bind_eq_bind, Option.bind_eq_some_iff] at put
    obtain ⟨own, hash_first, put⟩ := put
    cases put
    obtain ⟨present, named⟩ := ih _ hashed
    rw [FinMap.lookup_put_apply] at present named
    constructor
    · rw [present, List.exists_mem_cons_iff, hash_first, Option.some.injEq]
      split
      · next same => simp [same]
      · next other => simp [Ne.symm other]
    · intro number found
      rcases named number found with here | inside
      · split at here
        · rw [Option.some.inj here]
          exact .inr List.mem_cons_self
        · exact .inl here
      · exact .inr (List.mem_cons_of_mem _ inside)

/-- The numbers of a scan can be hashed, and Discovery accepts the batch. -/
def ScanAccepted (store : Store) (caller : Caller) (numbers : List Text) : Prop :=
  ∃ table, hashTable store caller.host (distinct numbers) = some table ∧
    Accepts store caller table.keys.length

/-- What the client keeps of the answer: a match of a hash it submitted. -/
theorem mem_contacts {host : Host} {numbers : List Text} {table : FinMap Text Text}
    (hashed : hashTable store host (distinct numbers) = some table)
    (full : ∀ number ∈ numbers, number ≠ []) (order : List Account) :
    u ∈ (namedContacts table (intersect order (table.keys.map goString))).map (·.userId) ↔
      ∃ number ∈ numbers, ∃ hash,
        ClientHashing.hashPhone host (utf16 store.saltB64) number = some hash ∧
        (byHash order).lookup (goString hash) = some u := by
  have back {number hash : Text} (own : ClientHashing.hashPhone host (utf16 store.saltB64) number =
      some hash) : utf16 (goString hash) = hash := by
    rw [hashPhone_saltB64] at own
    obtain ⟨digest, -, rfl⟩ := Option.map_eq_some_iff.mp own
    rw [bytesToBase64, goString_utf16]
  constructor
  · intro named
    obtain ⟨contact, kept, rfl⟩ := List.mem_map.mp named
    obtain ⟨⟨h, uid⟩, answered, kept⟩ := List.mem_filterMap.mp kept
    obtain ⟨phone, -, rfl⟩ := Option.map_eq_some_iff.mp kept
    obtain ⟨submitted, indexed⟩ := mem_intersect.mp answered
    obtain ⟨hash, key, rfl⟩ := List.mem_map.mp submitted
    have present := AList.lookup_isSome.mpr (AList.mem_keys.mpr key)
    obtain ⟨number, inside, own⟩ := (hashTable_lookup hashed hash).1.mp present
    exact ⟨number, mem_distinct.mp inside, hash, own, indexed⟩
  · rintro ⟨number, inside, hash, own, indexed⟩
    obtain ⟨present, among⟩ := hashTable_lookup hashed hash
    have some_phone := present.mpr ⟨number, mem_distinct.mpr inside, own⟩
    obtain ⟨phone, found⟩ := Option.isSome_iff_exists.mp some_phone
    have nonempty := full phone (mem_distinct.mp (among phone found))
    have key : hash ∈ table.keys := AList.mem_keys.mp (AList.lookup_isSome.mp some_phone)
    refine List.mem_map.mpr ⟨⟨phone, u⟩, List.mem_filterMap.mpr ⟨⟨goString hash, u⟩, ?_, ?_⟩, rfl⟩
    · exact mem_intersect.mpr ⟨List.mem_map_of_mem key, indexed⟩
    · show ((table.lookup (utf16 (goString hash))).filter _).map _ = _
      rw [back own, found]
      simp [nonempty]

/-- What a scan finds, in one order of the accounts. -/
theorem handleScan_names {caller : Caller} {order : List Account} {ownPhone : Option Text}
    {contacts : List DeviceContact} :
    (∃ rows, handleScan store caller order ownPhone contacts = some rows ∧
        u ∈ rows.map (·.userId)) ↔
      ScanAccepted store caller (nameByNumber ownPhone contacts).keys ∧
      ∃ e164, Scanned ownPhone contacts e164 ∧ ∃ hash,
        ClientHashing.hashPhone caller.host (utf16 store.saltB64) e164 = some hash ∧
        (byHash order).lookup (goString hash) = some u := by
  have scanned (e164 : Text) : e164 ∈ (nameByNumber ownPhone contacts).keys ↔
      Scanned ownPhone contacts e164 := mem_nameByNumber
  have full : ∀ e164 ∈ (nameByNumber ownPhone contacts).keys, e164 ≠ [] := by
    intro e164 inside
    obtain ⟨-, c, -, normal⟩ := (scanned e164).mp inside
    exact normalizeE164_ne_nil normal
  by_cases none_left : (nameByNumber ownPhone contacts).keys = []
  · constructor
    · rintro ⟨rows, found, named⟩
      simp only [handleScan, none_left, if_true, Option.some.injEq] at found
      subst found
      cases named
    · rintro ⟨-, e164, inside, -⟩
      have member := (scanned e164).mpr inside
      rw [none_left] at member
      cases member
  · have left : distinct (nameByNumber ownPhone contacts).keys ≠ [] := by
      obtain ⟨e164, inside⟩ := List.exists_mem_of_ne_nil _ none_left
      exact List.ne_nil_of_mem (mem_distinct.mpr inside)
    simp only [handleScan, discoverContacts, none_left, left, if_false, Option.bind_eq_bind,
      Option.bind_eq_some_iff, respond_eq_some, Option.some.injEq, List.length_map, ScanAccepted]
    constructor
    · rintro ⟨_, ⟨_, ⟨table, hashed, _, ⟨accepts, rfl⟩, rfl⟩, rfl⟩, named⟩
      rw [List.map_map] at named
      obtain ⟨e164, inside, found⟩ := (mem_contacts hashed full order).mp named
      exact ⟨⟨table, hashed, accepts⟩, e164, (scanned e164).mp inside, found⟩
    · rintro ⟨⟨table, hashed, accepts⟩, e164, inside, found⟩
      have named := (mem_contacts hashed full order).mpr ⟨e164, (scanned e164).mpr inside, found⟩
      refine ⟨_, ⟨_, ⟨table, hashed, _, ⟨accepts, rfl⟩, rfl⟩, rfl⟩, ?_⟩
      rw [List.map_map]
      exact named

/-- A scan finds the account exactly when the batch is accepted, some contact's
E.164 number other than the user's own hashes as what was registered, and no other
account has the hash. -/
theorem handleScan_iff (reachable : service.Reachable s) (onboarded : Onboarded s u r)
    (caller : Caller) (ownPhone : Option Text) (contacts : List DeviceContact) :
    (∀ order, Iterates s.store order → ∃ rows,
        handleScan s.store caller order ownPhone contacts = some rows ∧
          u ∈ rows.map (·.userId)) ↔
      ScanAccepted s.store caller (nameByNumber ownPhone contacts).keys ∧
      (∃ e164, Scanned ownPhone contacts e164 ∧ HashesAs s.store e164 (trim r)) ∧
      Alone s.store u := by
  obtain ⟨acct, found, verified, carried⟩ := onboarded.hash reachable
  have keyed (k : String) (a : Account) (inStore : s.store.accounts.lookup k = some a) :
      a.userID = k := ((reached_sound reachable).memory k a inStore).1
  simp only [handleScan_names]
  constructor
  · intro everywhere
    -- The index names the account only under the hash it carries.
    have carries {order : List Account} {hash : String} (iterates : Iterates s.store order)
        (indexed : (byHash order).lookup hash = some u) : hash = acct.phoneHashB64 := by
      obtain ⟨named, member, -, own, same⟩ := lookup_byHash indexed
      obtain ⟨k, inStore⟩ := FinMap.mem_values.mp (iterates.mem_iff.mp member)
      obtain rfl : k = u := (keyed k named inStore).symm.trans same
      rw [← own, Option.some.inj (found.symm.trans inStore)]
    obtain ⟨accepted, e164, inside, hash, hashed, indexed⟩ := everywhere _ (.refl _)
    have same := carries (.refl _) indexed
    refine ⟨accepted, ⟨e164, inside, (hashesAs_iff hashed).mpr (same.trans carried)⟩, ?_⟩
    refine ((lookup_everywhere_iff (h := acct.phoneHashB64) keyed found verified).mp ?_).2
    intro order iterates
    obtain ⟨-, -, -, hash', -, indexed'⟩ := everywhere order iterates
    rw [← carries iterates indexed']
    exact indexed'
  · rintro ⟨accepted, ⟨e164, inside, alike⟩, alone⟩ order iterates
    obtain ⟨hash, hashed⟩ := alike.hash caller.host
    have same := (hashesAs_iff hashed).mp alike
    exact ⟨accepted, e164, inside, hash, hashed,
      (lookup_everywhere_iff keyed found verified).mpr ⟨same.trans carried.symm, alone⟩ order iterates⟩

/-- **A lookup finds the account exactly when both sides hash the same text.** An
account was registered with `r`, and `q` has the same E.164 form.  The search for
`q` finds it exactly when `q`, trimmed, is hashed as `r` was, trimmed; a scan of an
address book that has `q` exactly when the E.164 form, other than the user's own
number, is hashed as `r` was, trimmed, or another contact's form is.  Both besides
need that Discovery accepts the request and that no other verified account
carries the hash. -/
theorem found_iff_hashed_alike (reachable : service.Reachable s) (onboarded : Onboarded s u r)
    {e164 : Text} {cc : Option Text} (normal : normalizeE164 r cc = some e164)
    (alike : normalizeE164 q cc = normalizeE164 r cc) (caller : Caller) :
    ((∀ order, Iterates s.store order → handleFind s.store caller order q = some (some u)) ↔
      Accepts s.store caller 1 ∧ HashesAs s.store (trim q) (trim r) ∧ Alone s.store u) ∧
    ∀ ownPhone contacts, defaultCallingCode ownPhone = cc → (∃ c ∈ contacts, c.number = q) →
      ((∀ order, Iterates s.store order → ∃ rows,
          handleScan s.store caller order ownPhone contacts = some rows ∧
            u ∈ rows.map (·.userId)) ↔
        ScanAccepted s.store caller (nameByNumber ownPhone contacts).keys ∧
        ((some e164 ≠ ownPhone ∧ HashesAs s.store e164 (trim r)) ∨
          ∃ other, other ≠ e164 ∧ Scanned ownPhone contacts other ∧
            HashesAs s.store other (trim r)) ∧
        Alone s.store u) := by
  refine ⟨handleFind_iff reachable onboarded caller, ?_⟩
  rintro ownPhone contacts code ⟨c, inside, rfl⟩
  rw [handleScan_iff reachable onboarded]
  have own_number : some e164 ≠ ownPhone → Scanned ownPhone contacts e164 :=
    fun other => ⟨other, c, inside, by rw [code, alike, normal]⟩
  have split : (∃ number, Scanned ownPhone contacts number ∧ HashesAs s.store number (trim r)) ↔
      (some e164 ≠ ownPhone ∧ HashesAs s.store e164 (trim r)) ∨
        ∃ other, other ≠ e164 ∧ Scanned ownPhone contacts other ∧
          HashesAs s.store other (trim r) := by
    constructor
    · rintro ⟨number, scanned, hashes⟩
      by_cases same : number = e164
      · subst same
        exact .inl ⟨scanned.1, hashes⟩
      · exact .inr ⟨number, same, scanned, hashes⟩
    · rintro (⟨other, hashes⟩ | ⟨number, -, scanned, hashes⟩)
      · exact ⟨e164, own_number other, hashes⟩
      · exact ⟨number, scanned, hashes⟩
  rw [split]

/-- An account is registered with a number as it was typed, and verified. -/
def registerTyped (r : Text) : List Action :=
  [ .request (.register (handleRequestCode (deviceKeys "") r) "u1" "000000" 0) true,
    .request (.verify "u1" "000000" 1) true ]

/-- Another user, whose own number is Nigerian. -/
def asker : Caller := ⟨⟨true⟩, "u2", 2⟩

def askerPhone : Option Text := some (utf16 "+2348099999999")

/-- What is looked at after a registration and the lookups of a number. -/
structure Looked where
  salt : List UInt8
  numbers : List String
  accounts : List String
  hash : Option String
  verified : Bool
  typed : Option (Option String)
  scanned : Option (List String)
  deriving DecidableEq

def lookupsOf (q : Text) (s : Service) : Looked where
  salt := s.store.salt
  numbers := s.log.filterMap (registeredNumber "u1")
  accounts := s.store.accounts.keys
  hash := (s.store.accounts.lookup "u1").map (·.phoneHashB64)
  verified := (s.store.accounts.lookup "u1").any (·.verified)
  typed := handleFind s.store asker s.store.accounts.values q
  scanned := (handleScan s.store asker s.store.accounts.values askerPhone [⟨utf16 "Ada", q⟩]).map
    (·.map (·.userId))

theorem onboarded_of_looked {n hash : String} {r : Text} (typed : n = goString (trim r))
    (carries : hash ≠ "") (numbers : (lookupsOf q s).numbers = [n])
    (hashed : (lookupsOf q s).hash = some hash) (verified : (lookupsOf q s).verified = true) :
    Onboarded s "u1" r := by
  obtain ⟨acct, found, rfl⟩ := Option.map_eq_some_iff.mp hashed
  simp only [lookupsOf, found, Option.any_some] at numbers verified
  refine ⟨?_, acct, found, verified, carries⟩
  rw [numbers]
  rintro _ member
  rw [List.mem_singleton.mp member, typed]

/-- A number was typed with spaces: neither a search for its E.164 form nor a scan
of a book that has it finds the account. -/
theorem spaced_number_is_not_found : ∃ s, service.Reachable s ∧
    Onboarded s "u1" (utf16 "+234 801 234 5678") ∧
    normalizeE164 (utf16 "+234 801 234 5678") (some (utf16 "234")) = some (utf16 "+2348012345678") ∧
    normalizeE164 (utf16 "+2348012345678") (some (utf16 "234")) =
      normalizeE164 (utf16 "+234 801 234 5678") (some (utf16 "234")) ∧
    defaultCallingCode askerPhone = some (utf16 "234") ∧
    Iterates s.store s.store.accounts.values ∧
    handleFind s.store asker s.store.accounts.values (utf16 "+2348012345678") = some none ∧
    (handleScan s.store asker s.store.accounts.values askerPhone
      [⟨utf16 "Ada", utf16 "+2348012345678"⟩]).map (·.map (·.userId)) = some [] := by
  have observed : (service.run (started "" [1, 2]) (registerTyped (utf16 "+234 801 234 5678"))).map
      (lookupsOf (utf16 "+2348012345678")) = some
        { salt := [1, 2]
          numbers := ["+234 801 234 5678"]
          accounts := ["u1"]
          hash := some (DiscoveryStore.hashPhone [1, 2] "+234 801 234 5678")
          verified := true
          typed := some none
          scanned := some [] } := by
    decide +kernel
  obtain ⟨s, reachable, seen⟩ := Machine.reachable_of_observed observed ⟨"", [1, 2], rfl⟩
  have onboarded : Onboarded s "u1" (utf16 "+234 801 234 5678") :=
    onboarded_of_looked (n := "+234 801 234 5678") (by decide +kernel)
      (hashPhone_ne_empty [1, 2] "+234 801 234 5678") (by rw [seen]) (by rw [seen]) (by rw [seen])
  obtain ⟨-, -, -, -, -, typed, scanned⟩ : _ ∧ _ ∧ _ ∧ _ ∧ _ ∧ _ ∧ _ := by
    simpa only [lookupsOf, Looked.mk.injEq] using seen
  refine ⟨s, reachable, onboarded, ?_, ?_, ?_, .refl _, typed, scanned⟩
  · decide +kernel
  · decide +kernel
  · decide +kernel

/-- A number was typed in its E.164 form, with a space behind it: a scan of a book
that has its local form finds the account. -/
theorem local_number_is_scanned : ∃ s, service.Reachable s ∧
    Onboarded s "u1" (utf16 "+2348012345678 ") ∧
    ∀ order, Iterates s.store order → ∃ rows,
      handleScan s.store asker order askerPhone [⟨utf16 "Ada", utf16 "0801 234 5678"⟩] = some rows ∧
        "u1" ∈ rows.map (·.userId) := by
  have observed : (service.run (started "" [1, 2]) (registerTyped (utf16 "+2348012345678 "))).map
      (lookupsOf (utf16 "0801 234 5678")) = some
        { salt := [1, 2]
          numbers := ["+2348012345678"]
          accounts := ["u1"]
          hash := some (DiscoveryStore.hashPhone [1, 2] "+2348012345678")
          verified := true
          typed := some none
          scanned := some ["u1"] } := by
    decide +kernel
  obtain ⟨s, reachable, seen⟩ := Machine.reachable_of_observed observed ⟨"", [1, 2], rfl⟩
  have onboarded : Onboarded s "u1" (utf16 "+2348012345678 ") :=
    onboarded_of_looked (n := "+2348012345678") (by decide +kernel)
      (hashPhone_ne_empty [1, 2] "+2348012345678") (by rw [seen]) (by rw [seen]) (by rw [seen])
  obtain ⟨salt, -, accounts, -, -, -, scanned⟩ : _ ∧ _ ∧ _ ∧ _ ∧ _ ∧ _ ∧ _ := by
    simpa only [lookupsOf, Looked.mk.injEq] using seen
  have normal : normalizeE164 (utf16 "+2348012345678 ") (some (utf16 "234")) =
      some (utf16 "+2348012345678") := by decide +kernel
  have alike : normalizeE164 (utf16 "0801 234 5678") (some (utf16 "234")) =
      normalizeE164 (utf16 "+2348012345678 ") (some (utf16 "234")) := by decide +kernel
  have code : defaultCallingCode askerPhone = some (utf16 "234") := by decide +kernel
  have other : some (utf16 "+2348012345678") ≠ askerPhone := by decide +kernel
  have hashes : HashesAs s.store (utf16 "+2348012345678") (trim (utf16 "+2348012345678 ")) := by
    have trimmed : utf8Encode (utf16 "+2348012345678") =
        utf8 (goString (trim (utf16 "+2348012345678 "))) := by decide +kernel
    rw [HashesAs, salt, trimmed, sha256_eq (by decide +kernel)]
  have alone : Alone s.store "u1" := by
    intro acct _ k held inStore _ _
    have key : k ∈ s.store.accounts.keys :=
      AList.mem_keys.mp (AList.lookup_isSome.mp (Option.isSome_iff_exists.mpr ⟨held, inStore⟩))
    rw [accounts] at key
    exact List.mem_singleton.mp key
  obtain ⟨rows, found, ids⟩ := Option.map_eq_some_iff.mp scanned
  have accepted := (handleScan_names.mp ⟨rows, found, ids ▸ List.mem_singleton.mpr rfl⟩).1
  exact ⟨s, reachable, onboarded,
    ((found_iff_hashed_alike reachable onboarded normal alike asker).2 askerPhone _ code
      ⟨_, List.mem_singleton.mpr rfl, rfl⟩).mpr ⟨accepted, .inl ⟨other, hashes⟩, alone⟩⟩

end Hwfa.ContactsDiscovery
