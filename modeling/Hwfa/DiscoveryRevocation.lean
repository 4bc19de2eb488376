import Hwfa.DiscoveryCredentials

/-!
Revocation: what the holder of a removed device's credentials can still do.

The service runs with a clock.  The names it draws (user ids and link tokens)
are new and not empty, and a bearer token is one that it has issued.  The
`linkToken` handler takes the store's mutex twice, so it is three steps; every
other handler reads and writes the store in one critical section, and what it
does before that looks at no state.  The clock only goes forward, as the
readings that Go compares within one process do.

A token pair is charged to the device whose credential bought it: the user of
the refresh token or of the one-time code, the device that minted the link
token.  `late` are the pairs that a device bought after it had been revoked.
-/

namespace Hwfa.DiscoveryRevocation

open Hwfa.Machines Hwfa.Maps Hwfa.DiscoveryStore Hwfa.DiscoveryService Hwfa.DiscoveryRecords
  Hwfa.DiscoveryCredentials

/-- Where a `linkToken` handler is. -/
inductive Call where
  /-- `bearerUser` has told who calls -/
  | authenticated (userID : String)
  /-- `accountIDFor` has answered -/
  | resolved (userID accountID : String)
  deriving DecidableEq

/-- A token pair for `userID`, bought with a credential of `holder`. -/
structure Grant where
  holder : String
  userID : String
  access : Token
  refresh : Token
  deriving DecidableEq

structure Realm where
  service : Service
  now : Int
  issued : List Token := []
  drawn : List String := [""]
  /-- the device that minted a link token -/
  minter : FinMap String String := ∅
  calls : FinMap Nat Call := ∅
  begun : Nat := 0
  revoked : List String := []
  late : List Grant := []

inductive Action where
  | tick (elapsed : Nat)
  | request (r : Request) (wrote : Bool)
  | refresh (refreshToken : Token)
  /-- `linkToken` up to its first critical section -/
  | linkToken (token : Token)
  | accountIDFor (call : Nat)
  | createLinkToken (call : Nat) (token : String)
  | restart (freshSalt : List UInt8) (readable : Bool)

/-- The request draws new names and reads the clock; link tokens are minted by
the handler only. -/
def Realm.fits (s : Realm) : Request → Bool
  | .register _ userID _ now => userID ∉ s.drawn && now = s.now
  | .verify _ _ now => now = s.now
  | .createLinkToken .. => false
  | .linkDevice _ _ userID now => userID ∉ s.drawn && now = s.now
  | .allowIntersect _ _ now => now = s.now
  | _ => true

/-- The token pairs that a request returns. -/
def Realm.grants (s : Realm) : Request → List Grant
  | .verify userID code now =>
    match (s.service.store.verify userID code now).result with
    | some (access, refresh) => [⟨userID, userID, access, refresh⟩]
    | none => []
  | .linkDevice token req userID now =>
    match (s.service.store.linkDevice token req userID now).result with
    | some (_, _, access, refresh) =>
      (s.minter.lookup token).toList.map fun holder => ⟨holder, userID, access, refresh⟩
    | none => []
  | _ => []

/-- The devices that a request revokes. -/
def revokes (s : Store) : Request → List String
  | .removeDevice caller target => if (s.removeDevice caller target).result then [target] else []
  | .deleteAccount userID =>
    match s.accounts.lookup userID with
    | some caller => (s.accounts.keep fun _ a => a.accountID = caller.accountID).keys
    | none => []
  | _ => []

/-- Token pairs are handed out. -/
def Realm.grant (s : Realm) (grants : List Grant) : Realm :=
  { s with
    issued := s.issued ++ grants.flatMap fun g => [g.access, g.refresh]
    late := s.late ++ grants.filter fun g => g.holder ∈ s.revoked }

def Realm.request (s : Realm) (r : Request) (wrote : Bool) : Realm :=
  { s.grant (s.grants r) with
    service := s.service.handle wrote r
    drawn := draws r ++ s.drawn
    revoked := revokes s.service.store r ++ s.revoked }

def Realm.refresh (s : Realm) (refreshToken : Token) : Realm :=
  match s.service.store.refresh refreshToken s.now with
  | some (access, refresh) => s.grant [⟨refreshToken.uid, refreshToken.uid, access, refresh⟩]
  | none => s

def Realm.linkToken (s : Realm) (token : Token) : Realm :=
  match userForToken token s.now with
  | some userID =>
    { s with calls := s.calls.insert s.begun (.authenticated userID), begun := s.begun + 1 }
  | none => s

def Realm.accountIDFor (s : Realm) (call : Nat) (userID : String) : Realm :=
  match s.service.store.accountIDFor userID with
  | some accountID => { s with calls := s.calls.insert call (.resolved userID accountID) }
  | none => { s with calls := s.calls.erase call }

def Realm.createLinkToken (s : Realm) (call : Nat) (userID accountID token : String) : Realm :=
  { s with
    service := s.service.handle false (.createLinkToken accountID token s.now)
    drawn := token :: s.drawn
    minter := s.minter.insert token userID
    calls := s.calls.erase call }

def Realm.step (s : Realm) : Action → Option Realm
  | .tick elapsed => some { s with now := s.now + elapsed }
  | .request r wrote => if s.fits r then some (s.request r wrote) else none
  | .refresh refreshToken => if refreshToken ∈ s.issued then some (s.refresh refreshToken) else none
  | .linkToken token => if token ∈ s.issued then some (s.linkToken token) else none
  | .accountIDFor call =>
    match s.calls.lookup call with
    | some (.authenticated userID) => some (s.accountIDFor call userID)
    | _ => none
  | .createLinkToken call token =>
    match s.calls.lookup call with
    | some (.resolved userID accountID) =>
      if token ∈ s.drawn then none else some (s.createLinkToken call userID accountID token)
    | _ => none
  | .restart freshSalt readable =>
    (s.service.step (.restart freshSalt readable)).map fun service =>
      { s with service := service, calls := ∅ }

/-- The service over a fresh file. -/
def realm : Machine Realm Action where
  start s := ∃ path salt now, s = { service := started path salt, now := now }
  step := Realm.step

/-- A link token is of no use any more. -/
def Spent (s : Realm) (token : String) : Prop :=
  (s.service.store.linkTokens.lookup token).all (·.expiresAt < s.now)

/-- The handler is about to mint a link token for the device. -/
def Call.mintsFor (device : String) : Call → Bool
  | .authenticated _ => false
  | .resolved userID _ => userID = device

/-- No link token that the device minted is alive, and no handler is about to
mint one for it. -/
def Unburdened (s : Realm) (device : String) : Prop :=
  (∀ token ∈ s.minter.keys, s.minter.lookup token = some device → Spent s token) ∧
    ∀ call ∈ s.calls.values, call.mintsFor device = false

/-- A device is removed without link tokens of its own, and no restart brings
back the verified record of a revoked device. -/
def Careful (s : Realm) : Action → Prop
  | .request (.removeDevice caller target) _ =>
    (s.service.store.removeDevice caller target).result = true → Unburdened s target
  | .restart freshSalt readable =>
    ∀ device ∈ s.revoked, ((boot s.service.store.path freshSalt
      (if readable then s.service.disk else none)).accounts.lookup device).all (! ·.verified)
  | _ => True

instance (s : Realm) (token : String) : Decidable (Spent s token) := by
  unfold Spent
  infer_instance

instance (s : Realm) (device : String) : Decidable (Unburdened s device) := by
  unfold Unburdened
  infer_instance

instance (s : Realm) (a : Action) : Decidable (Careful s a) := by
  unfold Careful
  split <;> infer_instance

/-! ## Names -/

variable {s s' : Service} {r : Request} {wrote : Bool} {k u : String} {a : Account}

def IsRegistered (log : List Entry) (userID : String) : Prop :=
  ∃ req, .registered userID req ∈ log

def IsLinked (log : List Entry) (userID : String) : Prop :=
  ∃ req, .linked userID req ∈ log

/-- An account is named after a device that was registered, and has that device
and linked ones. -/
def Rooted (log : List Entry) (_ : List UInt8) (acct : Account) : Prop :=
  acct.accountID ≠ "" ∧ IsRegistered log acct.accountID ∧
    (acct.accountID = acct.userID ∨ IsLinked log acct.userID)

variable {log more : List Entry} {salt : List UInt8}

theorem isRegistered_append : IsRegistered (log ++ more) u ↔
    IsRegistered log u ∨ IsRegistered more u := by
  simp [IsRegistered, exists_or]

theorem isLinked_append : IsLinked (log ++ more) u ↔ IsLinked log u ∨ IsLinked more u := by
  simp [IsLinked, exists_or]

theorem Rooted.later (rooted : Rooted log salt a) : Rooted (log ++ more) salt a := by
  obtain ⟨named, registered, own | linked⟩ := rooted
  · exact ⟨named, isRegistered_append.mpr (.inl registered), .inl own⟩
  · exact ⟨named, isRegistered_append.mpr (.inl registered),
      .inr (isLinked_append.mpr (.inl linked))⟩

theorem Rooted.restored (rooted : Rooted log salt a) : Rooted log salt (restored a) := by
  obtain ⟨named, registered, own⟩ := rooted
  refine ⟨?_, ?_, ?_⟩
  · simp [DiscoveryStore.restored, named]
  · simpa [DiscoveryStore.restored, named] using registered
  · simpa [DiscoveryStore.restored, named] using own

/-- What is logged as registered or linked was registered or linked before, or is
new. -/
theorem log_of_step (moved : s.step (.request r wrote) = some s') :
    ∃ more, s'.log = s.log ++ more ∧
      (∀ u, IsRegistered more u → ∃ req otp now, r = .register req u otp now) ∧
      ∀ u, IsLinked more u → ∃ token req now, r = .linkDevice token req u now := by
  have nothing (same : s'.log = s.log) : ∃ more, s'.log = s.log ++ more ∧
      (∀ u, IsRegistered more u → ∃ req otp now, r = .register req u otp now) ∧
      ∀ u, IsLinked more u → ∃ token req now, r = .linkDevice token req u now :=
    ⟨[], by rw [same, List.append_nil], by simp [IsRegistered], by simp [IsLinked]⟩
  cases step_moves moved with
  | idle _ _ _ _ same => exact nothing same
  | serveReusable =>
    exact ⟨_, rfl, by simp [IsRegistered], by simp [IsLinked]⟩
  | store stores _ _ _ _ appended =>
    refine ⟨_, appended, ?_, ?_⟩
    · cases stores with
      | register => simp [IsRegistered]
      | _ => simp [IsRegistered]
    · cases stores with
      | linkDevice => simp [IsLinked]
      | _ => simp [IsLinked]
  | deleteAccount _ _ _ _ _ same => exact nothing same
  | removeDevice _ _ _ _ _ _ same => exact nothing same

/-- The link tokens are for accounts. -/
def TokensRooted (s : Service) : Prop :=
  ∀ t lt, s.store.linkTokens.lookup t = some lt →
    lt.accountID ≠ "" ∧ IsRegistered s.log lt.accountID

theorem linkDevice_rooted {token userID : String} {req : RegisterRequest} {now : Int}
    (kept : Kept Rooted s) (tokens : TokensRooted s) :
    Kept Rooted (s.handle wrote (.linkDevice token req userID now)) := by
  have idle (store : Store) (accounts : store.accounts = s.store.accounts)
      (path : store.path = s.store.path) (salt : store.salt = s.store.salt) :
      Kept Rooted { s with store := store, log := s.log ++ [] } := by
    refine ⟨?_, ?_, kept.distinct, path ▸ kept.unwritten⟩
    · simp only [List.append_nil, accounts, salt]
      exact kept.memory
    · simp only [List.append_nil]
      exact kept.disk
  simp only [Service.handle, Service.commit, Store.linkDevice]
  split
  · exact idle s.store rfl rfl rfl
  · next lt alive =>
    split
    · exact idle _ rfl rfl rfl
    · split
      · exact idle s.store rfl rfl rfl
      · next acct primary =>
        obtain ⟨named, registered⟩ := tokens token lt alive
        refine kept.persisted ?_ ?_ rfl rfl
        · intro k a found
          rw [FinMap.lookup_insert_apply] at found
          split at found
          · next own =>
            cases found
            refine ⟨own.symm, named, isRegistered_append.mpr (.inl registered), .inr ?_⟩
            exact isLinked_append.mpr (.inr ⟨req, List.mem_cons_self⟩)
          · obtain ⟨keyed, rooted⟩ := kept.memory k a found
            exact ⟨keyed, rooted.later⟩
        · exact fun _ _ _ _ _ _ rooted => rooted.later

/-- A request keeps accounts rooted, where the names it draws are not empty. -/
theorem handle_rooted (kept : Kept Rooted s) (tokens : TokensRooted s)
    (named : ∀ u ∈ draws r, u ≠ "") : Kept Rooted (s.handle wrote r) := by
  by_cases links : ∃ token req userID now, r = .linkDevice token req userID now
  · obtain ⟨token, req, userID, now, rfl⟩ := links
    exact linkDevice_rooted kept tokens
  · refine kept.step (a := .request r wrote) rfl ?_ ?_ ?_ ?_ ?_
    · exact fun _ _ _ rooted => rooted.restored
    · exact fun _ _ _ _ _ _ rooted => rooted.later
    · intro r' wrote' k acct entry same stores
      cases same
      cases stores with
      | register =>
        refine ⟨named _ List.mem_cons_self, ?_, .inl rfl⟩
        exact isRegistered_append.mpr (.inr ⟨_, List.mem_cons_self⟩)
      | linkDevice => exact absurd ⟨_, _, _, _, rfl⟩ links
      | verify found =>
        have rooted := (kept.memory _ _ found).2
        exact rooted.later
      | bundleFor found =>
        have rooted := (kept.memory _ _ found).2
        exact rooted.later
      | addOneTime found =>
        have rooted := (kept.memory _ _ found).2
        exact rooted.later
    · exact fun _ _ _ _ _ _ _ _ _ _ _ rooted => rooted.later
    · exact fun _ _ _ _ _ _ _ _ _ _ _ rooted => rooted.later

/-! ## What holds in every run -/

/-- Every name in use was drawn, and belongs to one device or one link token. -/
structure Named (s : Realm) : Prop where
  empty : "" ∈ s.drawn
  registered : ∀ u, IsRegistered s.service.log u → u ∈ s.drawn ∧ u ≠ ""
  linked : ∀ u, IsLinked s.service.log u → u ∈ s.drawn ∧ ¬ IsRegistered s.service.log u
  kept : Kept Rooted s.service

/-- The device a credential is charged to has the account that it is for. -/
structure OnAccount (s : Realm) (device accountID : String) : Prop where
  drawn : device ∈ s.drawn
  registered : IsRegistered s.service.log accountID
  own : ∀ a, s.service.store.accounts.lookup device = some a → a.accountID = accountID

/-- Link tokens, and handlers about to mint one, are charged to devices of their
accounts. -/
structure Charged (s : Realm) : Prop where
  tokens : ∀ t lt, s.service.store.linkTokens.lookup t = some lt → t ∈ s.drawn ∧
    ∃ device, s.minter.lookup t = some device ∧ OnAccount s device lt.accountID
  calls : ∀ n device accountID, s.calls.lookup n = some (.resolved device accountID) →
    OnAccount s device accountID

/-- A revoked device is not verified and has no code pending, and no link token
charged to it is alive for an account that exists. -/
structure Powerless (s : Realm) (device : String) : Prop where
  drawn : device ∈ s.drawn
  record : ∀ a, s.service.store.accounts.lookup device = some a →
    a.verified = false ∧ s.service.store.pending.lookup device = none
  tokens : ∀ t lt, s.service.store.linkTokens.lookup t = some lt →
    s.minter.lookup t = some device →
      lt.expiresAt < s.now ∨ s.service.store.accounts.lookup lt.accountID = none
  calls : ∀ n accountID, s.calls.lookup n = some (.resolved device accountID) →
    s.service.store.accounts.lookup accountID = none

/-- Everything that holds in a careful run. -/
structure Revoked (s : Realm) : Prop where
  named : Named s
  charged : Charged s
  powerless : ∀ device ∈ s.revoked, Powerless s device
  late : s.late = []

variable {w w' : Realm} {device accountID : String}

/-- Every record has a drawn name. -/
theorem Named.record (named : Named w)
    (found : w.service.store.accounts.lookup k = some a) : k ∈ w.drawn := by
  obtain ⟨keyed, -, registered, own | linked⟩ := named.kept.memory k a found
  · rw [← keyed, ← own]
    exact (named.registered _ registered).1
  · rw [← keyed]
    exact (named.linked _ linked).1

/-- The device an account is named after is on this account. -/
theorem Named.root (named : Named w) (registered : IsRegistered w.service.log accountID)
    (found : w.service.store.accounts.lookup accountID = some a) : a.accountID = accountID := by
  obtain ⟨keyed, -, -, own | linked⟩ := named.kept.memory accountID a found
  · exact own.trans keyed
  · rw [keyed] at linked
    exact absurd registered (named.linked _ linked).2

theorem fresh_of_fits (fits : w.fits r = true) : ∀ u ∈ draws r, u ∉ w.drawn := by
  intro u drawn
  cases r with
  | register | linkDevice =>
    obtain rfl := List.mem_singleton.mp drawn
    simp only [Realm.fits, Bool.and_eq_true, decide_eq_true_eq] at fits
    exact fits.1
  | _ => cases drawn

theorem other_of_fits (fits : w.fits r = true) : mints r = false := by
  cases r with
  | createLinkToken => cases fits
  | _ => rfl

theorem tokensRooted (named : Named w) (charged : Charged w) : TokensRooted w.service := by
  intro t lt found
  obtain ⟨-, device, -, on⟩ := charged.tokens t lt found
  exact ⟨(named.registered _ on.registered).2, on.registered⟩

/-- A request's names are drawn for it alone. -/
theorem Named.request (named : Named w) (charged : Charged w) (fits : w.fits r = true)
    (wrote : Bool) : Named (w.request r wrote) := by
  have fresh := fresh_of_fits fits
  have nonempty : ∀ u ∈ draws r, u ≠ "" := by
    rintro u drawn rfl
    exact fresh _ drawn named.empty
  obtain ⟨more, appended, registers, links⟩ :=
    log_of_step (rfl : w.service.step (.request r wrote) = some (w.service.handle wrote r))
  refine ⟨List.mem_append_right _ named.empty, ?_, ?_,
    handle_rooted named.kept (tokensRooted named charged) nonempty⟩
  · intro u registered
    rw [Realm.request, appended, isRegistered_append] at registered
    rcases registered with before | new
    · obtain ⟨drawn, nonempty⟩ := named.registered u before
      exact ⟨List.mem_append_right _ drawn, nonempty⟩
    · obtain ⟨req, otp, now, rfl⟩ := registers u new
      exact ⟨List.mem_append_left _ List.mem_cons_self, nonempty u List.mem_cons_self⟩
  · intro u linked
    rw [Realm.request, appended, isLinked_append] at linked
    rw [Realm.request, appended, isRegistered_append]
    rcases linked with before | new
    · obtain ⟨drawn, unregistered⟩ := named.linked u before
      refine ⟨List.mem_append_right _ drawn, ?_⟩
      rintro (registered | registered)
      · exact unregistered registered
      · obtain ⟨req, otp, now, rfl⟩ := registers u registered
        exact fresh u List.mem_cons_self drawn
    · obtain ⟨token, req, now, rfl⟩ := links u new
      refine ⟨List.mem_append_left _ List.mem_cons_self, ?_⟩
      rintro (registered | registered)
      · exact fresh u List.mem_cons_self (named.registered u registered).1
      · obtain ⟨_, _, _, same⟩ := registers u registered
        cases same

theorem registered_of_handle (wrote : Bool) (registered : IsRegistered s.log u) :
    IsRegistered (s.handle wrote r).log u := by
  obtain ⟨more, appended, -⟩ :=
    log_of_step (rfl : s.step (.request r wrote) = some (s.handle wrote r))
  rw [appended]
  exact isRegistered_append.mpr (.inl registered)

/-- No record appears under a name that was drawn before. -/
theorem absent_of_handle (wrote : Bool) (fresh : ∀ u ∈ draws r, u ∉ w.drawn) (drawn : k ∈ w.drawn)
    (absent : w.service.store.accounts.lookup k = none) :
    (w.service.handle wrote r).store.accounts.lookup k = none := by
  refine Option.eq_none_iff_forall_ne_some.mpr ?_
  intro a found
  rcases accounts_of_step rfl found with ⟨b, before, -⟩ | new
  · rw [absent] at before
    cases before
  · exact fresh k new drawn

theorem OnAccount.request (on : OnAccount w device accountID) (fits : w.fits r = true)
    (wrote : Bool) : OnAccount (w.request r wrote) device accountID := by
  refine ⟨List.mem_append_right _ on.drawn, registered_of_handle wrote on.registered, ?_⟩
  intro a found
  rcases accounts_of_step rfl found with ⟨b, before, same, -⟩ | new
  · exact same.symm.trans (on.own b before)
  · exact absurd on.drawn (fresh_of_fits fits device new)

theorem Charged.request (charged : Charged w) (fits : w.fits r = true) (wrote : Bool) :
    Charged (w.request r wrote) := by
  refine ⟨?_, ?_⟩
  · intro t lt found
    have before := (handle_credentials w.service r wrote).linkTokens (other_of_fits fits) t lt found
    obtain ⟨drawn, device, minted, on⟩ := charged.tokens t lt before
    exact ⟨List.mem_append_right _ drawn, device, minted, on.request fits wrote⟩
  · intro n device accountID found
    exact (charged.calls n device accountID found).request fits wrote

/-- A request gives no power back. -/
theorem Powerless.request (powerless : Powerless w device) (named : Named w) (charged : Charged w)
    (fits : w.fits r = true) (wrote : Bool) : Powerless (w.request r wrote) device := by
  have fresh := fresh_of_fits fits
  have credentials := handle_credentials w.service r wrote
  refine ⟨List.mem_append_right _ powerless.drawn, ?_, ?_, ?_⟩
  · intro a found
    rcases accounts_of_step rfl found with ⟨b, before, -, becomes⟩ | new
    · obtain ⟨unverified, nothing⟩ := powerless.record b before
      refine ⟨?_, Option.eq_none_iff_forall_ne_some.mpr ?_⟩
      · refine Bool.eq_false_iff.mpr ?_
        intro verified
        rcases becomes verified with verified | pending
        · exact absurd verified (Bool.eq_false_iff.mp unverified)
        · rw [nothing] at pending
          cases pending
      · intro p pending
        rcases credentials.pending device p pending with ⟨_, before, -⟩ | new
        · rw [nothing] at before
          cases before
        · exact fresh device new powerless.drawn
    · exact absurd powerless.drawn (fresh device new)
  · intro t lt found minted
    have before := credentials.linkTokens (other_of_fits fits) t lt found
    obtain ⟨-, _, -, on⟩ := charged.tokens t lt before
    rcases powerless.tokens t lt before minted with expired | absent
    · exact .inl expired
    · exact .inr (absent_of_handle wrote fresh (named.registered _ on.registered).1 absent)
  · intro n accountID found
    have on := charged.calls n device accountID found
    exact absent_of_handle wrote fresh (named.registered _ on.registered).1
      (powerless.calls n accountID found)

/-! ## A device is revoked -/

/-- What a successful removal leaves. -/
theorem removeDevice_found {store : Store} {caller target : String}
    (removed : (store.removeDevice caller target).result = true) :
    (∃ a, store.accounts.lookup target = some a) ∧
      (store.removeDevice caller target).store.accounts.lookup target = none := by
  unfold Store.removeDevice at removed ⊢
  split at removed
  · next found =>
    split at removed
    · cases removed
    · next same =>
      split at removed
      · cases removed
      · next secondary =>
        refine ⟨⟨_, found⟩, ?_⟩
        rw [if_neg same, if_neg secondary]
        exact AList.lookup_erase _ _
  · cases removed

theorem powerless_of_removed {caller : String} (named : Named w)
    (removed : (w.service.store.removeDevice caller device).result = true)
    (unburdened : Unburdened w device) (wrote : Bool) :
    Powerless (w.request (.removeDevice caller device) wrote) device := by
  obtain ⟨⟨a, found⟩, absent⟩ := removeDevice_found removed
  obtain ⟨spent, idle⟩ := unburdened
  refine ⟨named.record found, ?_, ?_, ?_⟩
  · intro b after
    exact absurd (absent.symm.trans after) (by simp)
  · intro t lt after minted
    have before := (handle_credentials w.service (.removeDevice caller device) wrote).linkTokens rfl
      t lt after
    have charged : w.minter.lookup t = some device := minted
    have known : t ∈ w.minter := AList.lookup_isSome.mp (by rw [charged]; rfl)
    have expired := spent t (AList.mem_keys.mp known) charged
    simp only [Spent, before, Option.all_some, decide_eq_true_eq] at expired
    exact .inl expired
  · intro n accountID called
    have mints := idle _ (FinMap.mem_values.mpr ⟨n, called⟩)
    simp [Call.mintsFor] at mints

theorem powerless_of_deleted {userID : String} {caller : Account} (named : Named w)
    (charged : Charged w) (found : w.service.store.accounts.lookup userID = some caller)
    (own : w.service.store.accounts.lookup device = some a) (same : a.accountID = caller.accountID)
    (wrote : Bool) : Powerless (w.request (.deleteAccount userID) wrote) device := by
  have absent {accountID : String} (on : OnAccount w device accountID) :
      (w.service.store.deleteAccount userID).store.accounts.lookup accountID = none := by
    refine Option.eq_none_iff_forall_ne_some.mpr ?_
    intro b after
    obtain ⟨before, other⟩ := (lookup_deleteAccount found).mp after
    have root := named.root on.registered before
    exact other (root.trans ((on.own a own).symm.trans same))
  refine ⟨named.record own, ?_, ?_, ?_⟩
  · intro b after
    obtain ⟨before, other⟩ := (lookup_deleteAccount found).mp after
    cases own.symm.trans before
    exact absurd same other
  · intro t lt after minted
    have before := (handle_credentials w.service (.deleteAccount userID) wrote).linkTokens rfl t lt after
    obtain ⟨-, _, minted', on⟩ := charged.tokens t lt before
    cases minted.symm.trans minted'
    exact .inr (absent on)
  · intro n accountID called
    exact absent (charged.calls n device accountID called)

/-- What a careful request revokes is powerless. -/
theorem powerless_of_revokes (named : Named w) (charged : Charged w)
    (careful : Careful w (.request r wrote)) (revoked : device ∈ revokes w.service.store r) :
    Powerless (w.request r wrote) device := by
  cases r with
  | removeDevice caller target =>
    simp only [revokes] at revoked
    split at revoked
    · next removed =>
      obtain rfl := List.mem_singleton.mp revoked
      exact powerless_of_removed named removed (careful removed) wrote
    · cases revoked
  | deleteAccount userID =>
    simp only [revokes] at revoked
    split at revoked
    · next caller found =>
      obtain ⟨a, kept⟩ := Option.isSome_iff_exists.mp
        (AList.lookup_isSome.mpr (AList.mem_keys.mpr revoked))
      obtain ⟨own, same⟩ := FinMap.lookup_keep.mp kept
      exact powerless_of_deleted named charged found own (of_decide_eq_true same) wrote
    · cases revoked
  | _ => cases revoked

/-! ## What a powerless device cannot buy -/

theorem refresh_of_powerless {token : Token} {now : Int} (powerless : Powerless w token.uid) :
    w.service.store.refresh token now = none := by
  unfold Store.refresh Token.verify
  split
  · rfl
  · next uid kind valid =>
    obtain rfl : token.uid = uid := by
      split at valid
      · cases valid
      · cases valid
        rfl
    split
    · rfl
    · split
      · rfl
      · next acct found => rw [(powerless.record acct found).1, if_neg Bool.false_ne_true]

theorem verify_of_powerless {code : String} {now : Int} (powerless : Powerless w device) :
    (w.service.store.verify device code now).result = none := by
  unfold Store.verify
  split
  · rfl
  · next p pending =>
    split
    · rfl
    · split
      · split <;> rfl
      · split
        · rfl
        · next acct found =>
          rw [(powerless.record acct found).2] at pending
          cases pending

theorem linkDevice_of_powerless {token userID : String} {req : RegisterRequest}
    (powerless : Powerless w device) (minted : w.minter.lookup token = some device) :
    (w.service.store.linkDevice token req userID w.now).result = none := by
  unfold Store.linkDevice
  split
  · rfl
  · next lt found =>
    split
    · rfl
    · next alive =>
      split
      · rfl
      · next acct primary =>
        rcases powerless.tokens token lt found minted with expired | absent
        · exact absurd expired alive
        · rw [absent] at primary
          cases primary

theorem accountIDFor_of_powerless (powerless : Powerless w device) :
    w.service.store.accountIDFor device = none := by
  unfold Store.accountIDFor
  split
  · rfl
  · next a found => rw [(powerless.record a found).1, if_neg Bool.false_ne_true]

/-- No request hands out a token pair for a credential of a powerless device. -/
theorem holder_ne_of_powerless (powerless : Powerless w device) (fits : w.fits r = true) {g : Grant}
    (granted : g ∈ w.grants r) : g.holder ≠ device := by
  rintro rfl
  cases r with
  | verify userID code now =>
    simp only [Realm.grants] at granted
    split at granted
    · next bought =>
      obtain rfl := List.mem_singleton.mp granted
      rw [verify_of_powerless powerless] at bought
      cases bought
    · cases granted
  | linkDevice token req userID now =>
    simp only [Realm.fits, Bool.and_eq_true, decide_eq_true_eq] at fits
    obtain ⟨-, rfl⟩ := fits
    simp only [Realm.grants] at granted
    split at granted
    · next bought =>
      obtain ⟨holder, minted, rfl⟩ := List.mem_map.mp granted
      rw [linkDevice_of_powerless powerless (Option.mem_toList.mp minted)] at bought
      cases bought
    · cases granted
  | _ => cases granted

theorem grant_late {grants : List Grant} (late : w.late = [])
    (spared : ∀ g ∈ grants, g.holder ∉ w.revoked) : (w.grant grants).late = [] := by
  simp only [Realm.grant, late, List.nil_append, List.filter_eq_nil_iff, decide_eq_true_eq]
  exact spared

/-! ## Runs -/

theorem Revoked.request (revoked : Revoked w) (fits : w.fits r = true)
    (careful : Careful w (.request r wrote)) : Revoked (w.request r wrote) := by
  refine ⟨revoked.named.request revoked.charged fits wrote, revoked.charged.request fits wrote,
    ?_, ?_⟩
  · intro device member
    rcases List.mem_append.mp member with new | before
    · exact powerless_of_revokes revoked.named revoked.charged careful new
    · exact (revoked.powerless device before).request revoked.named revoked.charged fits wrote
  · refine grant_late revoked.late ?_
    intro g granted inside
    exact holder_ne_of_powerless (revoked.powerless _ inside) fits granted rfl

/-- A step that changes neither the store nor who minted what. -/
theorem Revoked.frame (revoked : Revoked w) (service : w'.service = w.service)
    (drawn : w'.drawn = w.drawn) (minter : w'.minter = w.minter) (now : w.now ≤ w'.now)
    (same : w'.revoked = w.revoked) (late : w'.late = [])
    (calls : ∀ n device accountID, w'.calls.lookup n = some (.resolved device accountID) →
      w.calls.lookup n = some (.resolved device accountID) ∨
        (OnAccount w device accountID ∧ device ∉ w.revoked)) : Revoked w' := by
  have onAccount {device accountID : String} (on : OnAccount w device accountID) :
      OnAccount w' device accountID := by
    refine ⟨?_, ?_, ?_⟩
    · rw [drawn]
      exact on.drawn
    · rw [service]
      exact on.registered
    · rw [service]
      exact on.own
  refine ⟨⟨?_, ?_, ?_, ?_⟩, ⟨?_, ?_⟩, ?_, late⟩
  · rw [drawn]
    exact revoked.named.empty
  · rw [service, drawn]
    exact revoked.named.registered
  · rw [service, drawn]
    exact revoked.named.linked
  · rw [service]
    exact revoked.named.kept
  · intro t lt found
    rw [service] at found
    obtain ⟨known, device, minted, on⟩ := revoked.charged.tokens t lt found
    rw [drawn, minter]
    exact ⟨known, device, minted, onAccount on⟩
  · intro n device accountID found
    rcases calls n device accountID found with before | ⟨on, -⟩
    · exact onAccount (revoked.charged.calls n device accountID before)
    · exact onAccount on
  · intro device member
    rw [same] at member
    have powerless := revoked.powerless device member
    refine ⟨?_, ?_, ?_, ?_⟩
    · rw [drawn]
      exact powerless.drawn
    · rw [service]
      exact powerless.record
    · rw [service, minter]
      intro t lt found minted
      rcases powerless.tokens t lt found minted with expired | absent
      · exact .inl (Int.lt_of_lt_of_le expired now)
      · exact .inr absent
    · rw [service]
      intro n accountID found
      rcases calls n device accountID found with before | ⟨-, spared⟩
      · exact powerless.calls n accountID before
      · exact absurd member spared

theorem Revoked.refresh (revoked : Revoked w) (token : Token) : Revoked (w.refresh token) := by
  unfold Realm.refresh
  split
  · next access refresh bought =>
    refine revoked.frame rfl rfl rfl (Int.le_refl _) rfl ?_ fun _ _ _ before => .inl before
    refine grant_late revoked.late ?_
    intro g granted inside
    obtain rfl := List.mem_singleton.mp granted
    rw [refresh_of_powerless (revoked.powerless _ inside)] at bought
    cases bought
  · exact revoked

theorem Revoked.linkToken (revoked : Revoked w) (token : Token) : Revoked (w.linkToken token) := by
  unfold Realm.linkToken
  split
  · next userID =>
    refine revoked.frame rfl rfl rfl (Int.le_refl _) rfl revoked.late ?_
    intro n device accountID found
    rw [FinMap.lookup_insert_apply] at found
    split at found
    · cases found
    · exact .inl found
  · exact revoked

/-- `accountIDFor` answers for devices that are not revoked. -/
theorem Revoked.accountIDFor (revoked : Revoked w) (call : Nat) (userID : String) :
    Revoked (w.accountIDFor call userID) := by
  unfold Realm.accountIDFor
  split
  · next accountID answered =>
    refine revoked.frame rfl rfl rfl (Int.le_refl _) rfl revoked.late ?_
    intro n device accountID' found
    rw [FinMap.lookup_insert_apply] at found
    split at found
    · cases found
      right
      unfold Store.accountIDFor at answered
      split at answered
      · cases answered
      · next a record =>
        split at answered
        · next verified =>
          cases answered
          refine ⟨⟨revoked.named.record record, ?_, ?_⟩, ?_⟩
          · exact (revoked.named.kept.memory userID a record).2.2.1
          · intro b same
            cases record.symm.trans same
            rfl
          · intro member
            have unverified := ((revoked.powerless userID member).record a record).1
            rw [verified] at unverified
            cases unverified
        · cases answered
    · exact .inl found
  · refine revoked.frame rfl rfl rfl (Int.le_refl _) rfl revoked.late ?_
    intro n device accountID found
    rw [FinMap.lookup_erase_apply] at found
    split at found
    · cases found
    · exact .inl found

theorem Revoked.createLinkToken (revoked : Revoked w) {call : Nat} {token : String}
    (called : w.calls.lookup call = some (.resolved device accountID)) (new : token ∉ w.drawn) :
    Revoked (w.createLinkToken call device accountID token) := by
  have onAccount {device' accountID' : String} (on : OnAccount w device' accountID') :
      OnAccount (w.createLinkToken call device accountID token) device' accountID' :=
    ⟨List.mem_cons_of_mem _ on.drawn, on.registered, on.own⟩
  have others {n : Nat} {device' accountID' : String}
      (found : (w.calls.erase call).lookup n = some (.resolved device' accountID')) :
      w.calls.lookup n = some (.resolved device' accountID') := by
    rw [FinMap.lookup_erase_apply] at found
    split at found
    · cases found
    · exact found
  have kept : Kept Rooted (w.service.handle false (.createLinkToken accountID token w.now)) := by
    refine handle_rooted revoked.named.kept (tokensRooted revoked.named revoked.charged) ?_
    intro u drawn
    cases drawn
  have on := revoked.charged.calls call device accountID called
  refine ⟨⟨?_, ?_, ?_, ?_⟩, ⟨?_, ?_⟩, ?_, revoked.late⟩
  · exact List.mem_cons_of_mem _ revoked.named.empty
  · intro u registered
    obtain ⟨drawn, nonempty⟩ := revoked.named.registered u registered
    exact ⟨List.mem_cons_of_mem _ drawn, nonempty⟩
  · intro u linked
    obtain ⟨drawn, unregistered⟩ := revoked.named.linked u linked
    exact ⟨List.mem_cons_of_mem _ drawn, unregistered⟩
  · exact kept
  · intro t lt found
    simp only [Realm.createLinkToken, Service.handle, Store.createLinkToken,
      FinMap.lookup_insert_apply] at found
    split at found
    · next own =>
      cases found
      subst own
      exact ⟨List.mem_cons_self, device, AList.lookup_insert _, onAccount on⟩
    · next other =>
      obtain ⟨drawn, device', minted, on'⟩ := revoked.charged.tokens t lt found
      exact ⟨List.mem_cons_of_mem _ drawn, device', (AList.lookup_insert_ne other).trans minted,
        onAccount on'⟩
  · intro n device' accountID' found
    exact onAccount (revoked.charged.calls n device' accountID' (others found))
  · intro device' member
    have powerless := revoked.powerless device' member
    refine ⟨List.mem_cons_of_mem _ powerless.drawn, powerless.record, ?_, ?_⟩
    · intro t lt found minted
      simp only [Realm.createLinkToken, Service.handle, Store.createLinkToken,
        FinMap.lookup_insert_apply] at found minted
      by_cases own : t = token
      · rw [if_pos own] at found minted
        cases found
        cases minted
        exact .inr (powerless.calls call accountID called)
      · rw [if_neg own] at found minted
        exact powerless.tokens t lt found minted
    · intro n accountID' found
      exact powerless.calls n accountID' (others found)

/-- A restart forgets codes, link tokens and handlers, and reads records back. -/
theorem Revoked.restart (revoked : Revoked w) {freshSalt : List UInt8} {readable : Bool}
    {service : Service} (careful : Careful w (.restart freshSalt readable))
    (moved : w.service.step (.restart freshSalt readable) = some service) :
    Revoked { w with service := service, calls := ∅ } := by
  have kept : Kept Rooted service := by
    refine revoked.named.kept.step moved ?_ ?_ ?_ ?_ ?_
    · exact fun _ _ _ rooted => rooted.restored
    · exact fun _ _ _ _ _ _ rooted => rooted.later
    · intro r wrote k acct entry same
      cases same
    · intro r wrote k acct entry same
      cases same
    · intro r k acct entry same
      cases same
  cases moved
  obtain ⟨pending, linkTokens⟩ := boot_empty w.service.store.path freshSalt
    (if readable then w.service.disk else none)
  refine ⟨⟨revoked.named.empty, revoked.named.registered, revoked.named.linked, kept⟩,
    ⟨?_, ?_⟩, ?_, revoked.late⟩
  · intro t lt found
    rw [linkTokens] at found
    cases found
  · intro n device accountID found
    cases found
  · intro device member
    refine ⟨(revoked.powerless device member).drawn, ?_, ?_, ?_⟩
    · intro a found
      have unverified := careful device member
      rw [found, Option.all_some, Bool.not_eq_true'] at unverified
      refine ⟨unverified, ?_⟩
      rw [pending]
      rfl
    · intro t lt found
      rw [linkTokens] at found
      cases found
    · intro n accountID found
      cases found

theorem step_revoked {a : Action} (revoked : Revoked w) (careful : Careful w a)
    (moved : w.step a = some w') : Revoked w' := by
  cases a with
  | tick elapsed =>
    cases moved
    refine revoked.frame rfl rfl rfl ?_ rfl revoked.late fun _ _ _ before => .inl before
    exact Int.le_add_of_nonneg_right (Int.natCast_nonneg elapsed)
  | request r wrote =>
    simp only [Realm.step, Option.ite_none_right_eq_some, Option.some.injEq] at moved
    obtain ⟨fits, rfl⟩ := moved
    exact revoked.request fits careful
  | refresh token =>
    simp only [Realm.step, Option.ite_none_right_eq_some, Option.some.injEq] at moved
    obtain ⟨-, rfl⟩ := moved
    exact revoked.refresh token
  | linkToken token =>
    simp only [Realm.step, Option.ite_none_right_eq_some, Option.some.injEq] at moved
    obtain ⟨-, rfl⟩ := moved
    exact revoked.linkToken token
  | accountIDFor call =>
    simp only [Realm.step] at moved
    split at moved
    · cases moved
      exact revoked.accountIDFor call _
    · cases moved
  | createLinkToken call token =>
    simp only [Realm.step] at moved
    split at moved
    · next called =>
      split at moved
      · cases moved
      · next new =>
        cases moved
        exact revoked.createLinkToken called new
    · cases moved
  | restart freshSalt readable =>
    simp only [Realm.step, Option.map_eq_some_iff] at moved
    obtain ⟨service, restarted, rfl⟩ := moved
    exact revoked.restart careful restarted

theorem reached_revoked (reached : realm.Reached Careful w) : Revoked w := by
  refine reached.invariant Revoked ?_ fun _ _ _ revoked careful moved =>
    step_revoked revoked careful moved
  rintro w ⟨path, salt, now, rfl⟩
  have start : DiscoveryService.service.start (started path salt) := ⟨path, salt, rfl⟩
  refine ⟨⟨List.mem_cons_self, ?_, ?_, kept_start start⟩, ⟨?_, ?_⟩, ?_, rfl⟩
  · rintro u ⟨req, member⟩
    cases member
  · rintro u ⟨req, member⟩
    cases member
  · intro t lt found
    cases found
  · intro n device accountID found
    cases found
  · intro device member
    cases member

/-- **Revocation is complete, in every careful run.** In every run that removes a
device only when it has no link token alive and no handler about to mint one,
and that never restarts over a file with the verified record of a revoked
device, no token pair is bought with a credential of a device that had been
revoked: its refresh tokens and codes are refused, its handler calls find no
account, and no link token that it minted enrols a device. -/
theorem revocation_is_complete (reached : realm.Reached Careful w) :
    w.late = [] ∧ ∀ device ∈ w.revoked,
      (∀ token now, token.uid = device → w.service.store.refresh token now = none) ∧
      (∀ code now, (w.service.store.verify device code now).result = none) ∧
      w.service.store.accountIDFor device = none ∧
      ∀ token req userID, w.minter.lookup token = some device →
        (w.service.store.linkDevice token req userID w.now).result = none := by
  have revoked := reached_revoked reached
  refine ⟨revoked.late, ?_⟩
  intro device member
  have powerless := revoked.powerless device member
  refine ⟨?_, ?_, ?_, ?_⟩
  · rintro token now rfl
    exact refresh_of_powerless powerless
  · exact fun code now => verify_of_powerless powerless
  · exact accountIDFor_of_powerless powerless
  · exact fun token req userID minted => linkDevice_of_powerless powerless minted

/-- A phone registers and links a laptop. -/
def phoneAndLaptop : List Action :=
  [ .request (.register (deviceKeys "+15550100") "phone" "000000" 0) true,
    .request (.verify "phone" "000000" 0) true,
    .linkToken ⟨"phone", "access", accessTTL⟩,
    .accountIDFor 0,
    .createLinkToken 0 "first",
    .request (.linkDevice "first" (deviceKeys "") "laptop" 0) true ]

/-- The laptop mints a link token, is removed, and the token is used. -/
def removedTooLate : List Action :=
  [ .linkToken ⟨"laptop", "access", accessTTL⟩,
    .accountIDFor 1,
    .createLinkToken 1 "second",
    .request (.removeDevice "phone" "laptop") true,
    .request (.linkDevice "second" (deviceKeys "") "thief" 0) true ]

/-- The laptop is removed, and tries to refresh and to mint a link token. -/
def removedInTime : List Action :=
  [ .request (.removeDevice "phone" "laptop") true,
    .refresh ⟨"laptop", "refresh", refreshTTL⟩,
    .linkToken ⟨"laptop", "access", accessTTL⟩,
    .accountIDFor 1 ]

/-- The revoked devices, who bought something late for which device, and the
thief's account. -/
structure Observed where
  revoked : List String
  late : List (String × String)
  thief : Option String
  deriving DecidableEq

def observe (w : Realm) : Observed :=
  ⟨w.revoked, w.late.map fun g => (g.holder, g.userID),
    (w.service.store.accounts.lookup "thief").map (·.accountID)⟩

theorem removed_laptop_is_powerless : ∃ w, realm.Reached Careful w ∧
    observe w = ⟨["laptop"], [], none⟩ ∧ w.late = [] ∧ ∀ device ∈ w.revoked,
      (∀ token now, token.uid = device → w.service.store.refresh token now = none) ∧
      (∀ code now, (w.service.store.verify device code now).result = none) ∧
      w.service.store.accountIDFor device = none ∧
      ∀ token req userID, w.minter.lookup token = some device →
        (w.service.store.linkDevice token req userID w.now).result = none := by
  have observed : (realm.checkedRun Careful { service := started "" [1, 2], now := 0 }
      (phoneAndLaptop ++ removedInTime)).map observe = some ⟨["laptop"], [], none⟩ := by
    decide +kernel
  obtain ⟨w, ran, seen⟩ := Option.map_eq_some_iff.mp observed
  have reached : realm.Reached Careful w := .checkedRun (.start ⟨"", [1, 2], 0, rfl⟩) _ ran
  exact ⟨w, reached, seen, revocation_is_complete reached⟩

/-- The link token outlives the device that minted it. -/
theorem removed_laptop_enrols_thief : ∃ w, realm.Reachable w ∧
    observe w = ⟨["laptop"], [("laptop", "thief")], some "phone"⟩ ∧ w.late ≠ [] := by
  have observed : (realm.run { service := started "" [1, 2], now := 0 }
      (phoneAndLaptop ++ removedTooLate)).map observe =
      some ⟨["laptop"], [("laptop", "thief")], some "phone"⟩ := by
    decide +kernel
  obtain ⟨w, reachable, seen⟩ := Machine.reachable_of_observed observed ⟨"", [1, 2], 0, rfl⟩
  refine ⟨w, reachable, seen, ?_⟩
  intro nothing
  obtain ⟨-, late, -⟩ := Observed.mk.inj seen
  rw [nothing] at late
  cases late

end Hwfa.DiscoveryRevocation
