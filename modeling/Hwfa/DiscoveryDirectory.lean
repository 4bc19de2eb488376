import Mathlib.Data.List.Induction
import Hwfa.DiscoveryRecords

/-!
Contact discovery: what `intersect` answers, and for whom.

`intersect` collapses the verified accounts by phone hash.  A registered account
carries the hash of its number and is its own account, a linked device carries
the empty hash, and no number hashes to the empty string; so what a probe can
learn about a linked device is decided by whether it submits the empty string.
That at most one account carries a hash is not kept by `verify`, which looks at
no other account.
-/

namespace Hwfa.DiscoveryDirectory

open Hwfa.Machines Hwfa.Maps Hwfa.DiscoveryStore Hwfa.DiscoveryService Hwfa.DiscoveryRecords

/-! ## The answer of `intersect` -/

variable {index : FinMap String String} {order : List Account} {hashes seen : List String}
variable {h uid : String}

theorem byHash_append (order : List Account) (acct : Account) :
    byHash (order ++ [acct]) = if acct.verified then
      (byHash order).insert acct.phoneHashB64 acct.userID else byHash order := by
  unfold byHash
  rw [List.foldl_append]
  rfl

/-- The index only names verified accounts, under their own hash. -/
theorem lookup_byHash (found : (byHash order).lookup h = some uid) :
    ∃ acct ∈ order, acct.verified = true ∧ acct.phoneHashB64 = h ∧ acct.userID = uid := by
  induction order using List.reverseRecOn with
  | nil => cases found
  | append_singleton order acct ih =>
    have before (found : (byHash order).lookup h = some uid) : ∃ acct' ∈ order ++ [acct],
        acct'.verified = true ∧ acct'.phoneHashB64 = h ∧ acct'.userID = uid := by
      obtain ⟨acct', member, meets⟩ := ih found
      exact ⟨acct', List.mem_append_left _ member, meets⟩
    rw [byHash_append] at found
    split at found
    · next verified =>
      rw [FinMap.lookup_insert_apply] at found
      split at found
      · next own =>
        cases found
        exact ⟨acct, by simp, verified, own.symm, rfl⟩
      · exact before found
    · exact before found

/-- Every verified account's hash is in the index, under this account or another. -/
theorem exists_lookup_byHash {acct : Account} (member : acct ∈ order)
    (verified : acct.verified = true) :
    ∃ uid, (byHash order).lookup acct.phoneHashB64 = some uid := by
  induction order using List.reverseRecOn with
  | nil => cases member
  | append_singleton order last ih =>
    rw [byHash_append]
    rcases List.mem_append.mp member with inside | final
    · obtain ⟨uid, found⟩ := ih inside
      split
      · rw [FinMap.lookup_insert_apply]
        split
        · exact ⟨last.userID, rfl⟩
        · exact ⟨uid, found⟩
      · exact ⟨uid, found⟩
    · obtain rfl := List.mem_singleton.mp final
      rw [if_pos verified, AList.lookup_insert]
      exact ⟨acct.userID, rfl⟩

theorem mem_intersectLoop : ⟨h, uid⟩ ∈ intersectLoop index hashes seen ↔
    h ∈ hashes ∧ h ∉ seen ∧ index.lookup h = some uid := by
  induction hashes generalizing seen with
  | nil => simp [intersectLoop]
  | cons first rest ih =>
    unfold intersectLoop
    split
    · next repeated =>
      rw [ih]
      constructor
      · rintro ⟨member, rest⟩
        exact ⟨List.mem_cons_of_mem _ member, rest⟩
      · rintro ⟨member, unseen, found⟩
        refine ⟨?_, unseen, found⟩
        rcases List.mem_cons.mp member with rfl | later
        · exact absurd repeated unseen
        · exact later
    · next fresh =>
      by_cases own : h = first
      · subst own
        split
        · next uid' found => simp [ih, fresh, found, eq_comm]
        · next missing => simp [ih, missing]
      · split
        · simp [ih, own]
        · simp [ih, own]

/-- What `intersect` matches: the submitted strings the index has. -/
theorem mem_intersect : ⟨h, uid⟩ ∈ intersect order hashes ↔
    h ∈ hashes ∧ (byHash order).lookup h = some uid := by
  simp [intersect, mem_intersectLoop]

/-- A repeated string is answered once. -/
theorem nodup_intersect : ((intersect order hashes).map (·.phoneHashB64)).Nodup := by
  unfold intersect
  generalize byHash order = index, ([] : List String) = seen
  induction hashes generalizing seen with
  | nil => exact List.nodup_nil
  | cons first rest ih =>
    unfold intersectLoop
    split
    · exact ih seen
    · split
      · next uid found =>
        rw [List.map_cons, List.nodup_cons]
        refine ⟨?_, ih (first :: seen)⟩
        intro again
        obtain ⟨⟨h, uid'⟩, member, rfl⟩ := List.mem_map.mp again
        exact (mem_intersectLoop.mp member).2.1 List.mem_cons_self
      · exact ih (first :: seen)

/-- A match names a verified account of the store, whatever the order. -/
theorem intersect_names {s : Store} (iterates : Iterates s order)
    (keyed : ∀ k a, s.accounts.lookup k = some a → a.userID = k)
    (named : ⟨h, uid⟩ ∈ intersect order hashes) :
    h ∈ hashes ∧ ∃ acct, s.accounts.lookup uid = some acct ∧ acct.verified = true ∧
      acct.phoneHashB64 = h := by
  obtain ⟨submitted, found⟩ := mem_intersect.mp named
  obtain ⟨acct, member, verified, carried, own⟩ := lookup_byHash found
  obtain ⟨k, inStore⟩ := FinMap.mem_values.mp (iterates.mem_iff.mp member)
  obtain rfl : k = uid := (keyed k acct inStore).symm.trans own
  exact ⟨submitted, acct, inStore, verified, carried⟩

/-- A verified account's hash is matched when it is submitted. -/
theorem intersect_answers {s : Store} {k : String} {acct : Account} (iterates : Iterates s order)
    (found : s.accounts.lookup k = some acct) (verified : acct.verified = true)
    (submitted : acct.phoneHashB64 ∈ hashes) :
    ∃ uid, ⟨acct.phoneHashB64, uid⟩ ∈ intersect order hashes := by
  have member : acct ∈ order := iterates.mem_iff.mpr (FinMap.mem_values.mpr ⟨k, found⟩)
  obtain ⟨uid, indexed⟩ := exists_lookup_byHash member verified
  exact ⟨uid, mem_intersect.mpr ⟨submitted, indexed⟩⟩

/-- No number hashes to the empty string. -/
theorem hashPhone_ne_empty (salt : List UInt8) (phone : String) : hashPhone salt phone ≠ "" := by
  intro empty
  have encoded : Base64.encode (Sha256.sha256 (salt ++ utf8 phone)) = [] := by
    have chars := congrArg String.toList empty
    simpa [hashPhone] using chars
  have digest := (Base64.encode_eq_nil_iff _).mp encoded
  have width := Sha256.length_sha256 (salt ++ utf8 phone)
  rw [digest] at width
  cases width

/-! ## Soundness -/

/-- An account that carries a hash is its own account, registered with a number
that hashes to it. -/
def Sound (log : List Entry) (salt : List UInt8) (acct : Account) : Prop :=
  acct.phoneHashB64 ≠ "" → acct.accountID = acct.userID ∧
    ∃ req, .registered acct.userID req ∈ log ∧ hashPhone salt req.phoneNumber = acct.phoneHashB64

/-- What contact discovery may disclose in a match. -/
structure SoundMatch (s : Service) (hashes : List String) (found : IntersectMatch) : Prop where
  submitted : found.phoneHashB64 ∈ hashes
  primary : ∃ acct, s.store.accounts.lookup found.userID = some acct ∧ acct.verified = true ∧
    acct.accountID = found.userID
  number : ∃ req, .registered found.userID req ∈ s.log ∧
    hashPhone s.store.salt req.phoneNumber = found.phoneHashB64

/-- Every match may be disclosed, and no submitted string has two. -/
structure SoundMatches (s : Service) (hashes : List String) (matches' : List IntersectMatch) :
    Prop where
  each : ∀ found ∈ matches', SoundMatch s hashes found
  once : (matches'.map (·.phoneHashB64)).Nodup

/-- The probe submits the empty string, and some verified account carries it. -/
def ProbesUnhashed (s : Store) (hashes : List String) : Prop :=
  "" ∈ hashes ∧ ∃ k acct, s.accounts.lookup k = some acct ∧ acct.verified = true ∧
    acct.phoneHashB64 = ""

variable {s s' : Service} {log : List Entry} {salt : List UInt8} {acct : Account}

theorem Sound.later (sound : Sound log salt acct) (entry : Entry) :
    Sound (log ++ [entry]) salt acct := by
  intro carries
  obtain ⟨own, req, member, hashed⟩ := sound carries
  exact ⟨own, req, List.mem_append_left _ member, hashed⟩

theorem Sound.restored (sound : Sound log salt acct) : Sound log salt (restored acct) := by
  intro carries
  obtain ⟨own, number⟩ := sound carries
  refine ⟨?_, number⟩
  unfold DiscoveryStore.restored
  split
  · rfl
  · exact own

theorem step_sound {a : Action} (kept : Kept Sound s) (moved : s.step a = some s') :
    Kept Sound s' := by
  refine kept.step moved (fun _ _ _ sound => sound.restored) (fun _ _ _ _ _ _ sound => sound.later _)
    ?_ (fun _ _ _ _ _ _ _ _ _ _ _ sound => sound.later _)
    (fun _ _ _ _ _ _ _ _ _ _ _ sound => sound.later _)
  rintro r wrote k acct entry rfl stores
  have before (acct : Account) (found : s.store.accounts.lookup k = some acct) :
      Sound s.log s.store.salt acct := (kept.memory k acct found).2
  cases stores with
  | register => exact fun _ => ⟨rfl, _, List.mem_append_right _ (List.mem_singleton.mpr rfl), rfl⟩
  | linkDevice primary => exact fun carries => absurd rfl carries
  | verify found => exact (before _ found).later _
  | bundleFor found => exact (before _ found).later _
  | addOneTime found => exact (before _ found).later _

theorem reached_sound {ok : Service → Action → Prop} (reached : service.Reached ok s) :
    Kept Sound s :=
  reached.invariant (Kept Sound) (fun _ started => kept_start started)
    fun _ _ _ kept _ moved => step_sound kept moved

/-- **Contact discovery is sound but for the empty string.** In every reachable
state and for every list of submitted strings and order of the accounts, the
answer discloses only verified primary accounts under the hash of a number they
registered with, each string at most once, exactly when the probe does not
submit the empty string to a directory in which some verified account, such as
a linked device, carries it. -/
theorem matches_sound_iff_not_probed (reachable : service.Reachable s) (order : List Account)
    (iterates : Iterates s.store order) (hashes : List String) :
    SoundMatches s hashes (intersect order hashes) ↔ ¬ ProbesUnhashed s.store hashes := by
  have kept := reached_sound reachable
  have keyed (k : String) (a : Account) (found : s.store.accounts.lookup k = some a) :
      a.userID = k := (kept.memory k a found).1
  constructor
  · rintro sound ⟨submitted, k, acct, found, verified, unhashed⟩
    obtain ⟨uid, named⟩ := intersect_answers iterates found verified (unhashed ▸ submitted)
    obtain ⟨req, _, hashed⟩ := (sound.each _ named).number
    exact hashPhone_ne_empty _ _ (hashed.trans unhashed)
  · intro unprobed
    refine ⟨?_, nodup_intersect⟩
    rintro ⟨h, uid⟩ named
    obtain ⟨submitted, acct, found, verified, carried⟩ := intersect_names iterates keyed named
    have carries : acct.phoneHashB64 ≠ "" := by
      intro unhashed
      refine unprobed ⟨?_, uid, acct, found, verified, unhashed⟩
      rw [← unhashed, carried]
      exact submitted
    obtain ⟨own, req, member, hashed⟩ := (kept.memory uid acct found).2 carries
    rw [keyed uid acct found] at own member
    exact ⟨submitted, ⟨acct, found, verified, own⟩, req, member, hashed.trans carried⟩

/-- A verified account links a second device. -/
def linkSecondDevice : List Action :=
  [ .request (.register (deviceKeys "+15550100") "u1" "000000" 0) true,
    .request (.verify "u1" "000000" 1) true,
    .request (.createLinkToken "u1" "token" 2) true,
    .request (.linkDevice "token" (deviceKeys "") "u2" 3) true ]

theorem empty_string_discloses_linked_device : ∃ s, service.Reachable s ∧
    Iterates s.store s.store.accounts.values ∧
    (s.store.accounts.lookup "u2").map (·.accountID) = some "u1" ∧
    intersect s.store.accounts.values [""] = [⟨"", "u2"⟩] ∧
    ¬ SoundMatches s [""] (intersect s.store.accounts.values [""]) := by
  have observed : (service.run (started "" [1, 2]) linkSecondDevice).map (fun s =>
      ((s.store.accounts.lookup "u2").map (·.accountID), intersect s.store.accounts.values [""])) =
      some (some "u1", [⟨"", "u2"⟩]) := by
    decide +kernel
  obtain ⟨s, reachable, seen⟩ := Machine.reachable_of_observed observed ⟨"", [1, 2], rfl⟩
  obtain ⟨account, answer⟩ := Prod.mk.inj seen
  refine ⟨s, reachable, .refl _, account, answer, ?_⟩
  intro sound
  rw [answer] at sound
  obtain ⟨acct, found, _, own⟩ := (sound.each _ List.mem_cons_self).primary
  rw [found] at account
  have linked : acct.accountID = "u1" := Option.some.inj account
  rw [linked] at own
  exact absurd own (by decide)

/-- The same account is found by its number, and soundly. -/
theorem number_discloses_primary_device : ∃ s, service.Reachable s ∧
    intersect s.store.accounts.values [hashPhone [1, 2] "+15550100"] =
      [⟨hashPhone [1, 2] "+15550100", "u1"⟩] ∧
    SoundMatches s [hashPhone [1, 2] "+15550100"]
      (intersect s.store.accounts.values [hashPhone [1, 2] "+15550100"]) := by
  have observed : (service.run (started "" [1, 2]) linkSecondDevice).map (fun s =>
      intersect s.store.accounts.values [hashPhone [1, 2] "+15550100"]) =
      some [⟨hashPhone [1, 2] "+15550100", "u1"⟩] := by
    decide +kernel
  obtain ⟨s, reachable, answer⟩ := Machine.reachable_of_observed observed ⟨"", [1, 2], rfl⟩
  refine ⟨s, reachable, answer, (matches_sound_iff_not_probed reachable _ (.refl _) _).mpr ?_⟩
  rintro ⟨submitted, _⟩
  exact hashPhone_ne_empty _ _ (List.mem_singleton.mp submitted).symm

/-! ## Ownership -/

/-- The account an entry verifies under a phone hash. -/
def verifiedUnder (h : String) : Entry → Option String
  | .verified userID phoneHash => if phoneHash = h then some userID else none
  | _ => none

/-- The account that was verified last under a phone hash. -/
def lastVerified (log : List Entry) (h : String) : Option String :=
  log.reverse.findSome? (verifiedUnder h)

/-- For one phone hash, the directory is a function of ownership. -/
structure Resolves (s : Service) (h : String) : Prop where
  unique : ∀ k j a b, s.store.accounts.lookup k = some a → s.store.accounts.lookup j = some b →
    a.verified = true → b.verified = true → a.phoneHashB64 = h → b.phoneHashB64 = h → k = j
  latest : ∀ k a, s.store.accounts.lookup k = some a → a.verified = true →
    a.phoneHashB64 = h → lastVerified s.log h = some k
  steady : ∀ order order', Iterates s.store order → Iterates s.store order' → ∀ hashes uid,
    ⟨h, uid⟩ ∈ intersect order hashes → ⟨h, uid⟩ ∈ intersect order' hashes
  deleted : ∀ k a userID caller, s.store.accounts.lookup k = some a → a.verified = true →
    a.phoneHashB64 = h → s.store.accounts.lookup userID = some caller →
    caller.accountID = a.accountID → ∀ order,
    Iterates (s.store.deleteAccount userID).store order → ∀ hashes uid,
    ⟨h, uid⟩ ∉ intersect order hashes

/-- Every phone number resolves by ownership. -/
def Directory (s : Service) : Prop := ∀ phone, Resolves s (hashPhone s.store.salt phone)

/-- The account a `verify` request would verify. -/
def verifies (s : Store) (userID code : String) (now : Int) : Option Account :=
  if (s.pending.lookup userID).any fun p => ¬ p.expiresAt < now ∧ p.code = code then
    s.accounts.lookup userID
  else none

/-- Another verified account under the same phone hash. -/
def Rival (acct other : Account) : Prop :=
  acct.phoneHashB64 ≠ "" ∧ other.verified = true ∧ other.phoneHashB64 = acct.phoneHashB64 ∧
    other.userID ≠ acct.userID

instance (acct other : Account) : Decidable (Rival acct other) := by
  unfold Rival
  infer_instance

/-- The accounts of the file. -/
def onDisk (s : Service) : List Account := (s.disk.map (·.accounts)).getD []

/-- A verification that will succeed finds no rival of the account in the store,
nor, if its write fails, in the file. -/
def Uncontested (s : Service) : Action → Prop
  | .request (.verify userID code now) wrote =>
    ∀ acct ∈ verifies s.store userID code now,
      (∀ other ∈ s.store.accounts.values, ¬ Rival acct other) ∧
        (wrote = true ∨ ∀ other ∈ onDisk s, ¬ Rival acct other)
  | _ => True

instance (s : Service) (a : Action) : Decidable (Uncontested s a) := by
  unfold Uncontested
  split
  · infer_instance
  · infer_instance

/-- A verified account that carries a hash was verified last under it. -/
def Latest (log : List Entry) (_salt : List UInt8) (acct : Account) : Prop :=
  acct.verified = true → acct.phoneHashB64 ≠ "" →
    lastVerified log acct.phoneHashB64 = some acct.userID

theorem lastVerified_append (log : List Entry) (entry : Entry) (h : String) :
    lastVerified (log ++ [entry]) h = (verifiedUnder h entry).or (lastVerified log h) := by
  unfold lastVerified
  rw [List.reverse_append, List.findSome?_append]
  cases verified : verifiedUnder h entry <;> simp [verified]

theorem Latest.later (latest : Latest log salt acct) {entry : Entry}
    (apart : verifiedUnder acct.phoneHashB64 entry = none) :
    Latest (log ++ [entry]) salt acct := by
  intro verified carries
  rw [lastVerified_append, apart]
  exact latest verified carries

/-- A record stays the latest when no rival of it is verified. -/
theorem Latest.unrivalled (latest : Latest log salt acct) {verified : Account} {k : String}
    (keyed : verified.userID = k) (unrivalled : ¬ Rival verified acct) :
    Latest (log ++ [.verified k verified.phoneHashB64]) salt acct := by
  intro isVerified carries
  rw [lastVerified_append]
  by_cases same : verified.phoneHashB64 = acct.phoneHashB64
  · have own : acct.userID = verified.userID := by
      refine not_not.mp fun other => unrivalled ⟨?_, isVerified, same.symm, other⟩
      rw [same]
      exact carries
    simp [verifiedUnder, same, own, keyed]
  · simp [verifiedUnder, same, latest isVerified carries]

theorem verifies_of_pending {store : Store} {userID code : String} {now : Int} {p : PendingOTP}
    (found : store.accounts.lookup userID = some acct)
    (pending : store.pending.lookup userID = some p) (inTime : ¬ p.expiresAt < now)
    (right : p.code = code) : verifies store userID code now = some acct := by
  unfold verifies
  rw [pending, if_pos (by simp [Int.not_lt.mp inTime, right]), found]

theorem mem_onDisk {other : Account} {p : PersistedState} (written : s.disk = some p) :
    other ∈ onDisk s ↔ other ∈ p.accounts := by
  simp [onDisk, written]

theorem step_latest {a : Action} (kept : Kept Latest s) (uncontested : Uncontested s a)
    (moved : s.step a = some s') : Kept Latest s' := by
  have keyed (k : String) (a : Account) (found : s.store.accounts.lookup k = some a) :
      a.userID = k := (kept.memory k a found).1
  refine kept.step moved (fun _ _ _ latest => latest) (fun _ _ _ _ _ _ latest => latest.later rfl)
    ?_ ?_ ?_
  · rintro r wrote k acct entry rfl stores
    have before (acct : Account) (found : s.store.accounts.lookup k = some acct) :
        Latest s.log s.store.salt acct := (kept.memory k acct found).2
    cases stores with
    | register => exact fun verified => absurd verified (by simp [newAccount])
    | linkDevice primary => exact fun _ carries => absurd rfl carries
    | verify found =>
      intro _ _
      rw [lastVerified_append]
      simp [verifiedUnder, keyed _ _ found]
    | bundleFor found => exact (before _ found).later rfl
    | addOneTime found => exact (before _ found).later rfl
  · rintro r wrote k acct entry rfl stores j b found other latest
    cases stores with
    | verify inStore pending inTime right =>
      have unrivalled := (uncontested _ (verifies_of_pending inStore pending inTime right)).1
      exact latest.unrivalled (keyed _ _ inStore)
        (unrivalled b (FinMap.mem_values.mpr ⟨j, found⟩))
    | register | linkDevice | bundleFor | addOneTime => exact latest.later rfl
  · rintro r k acct entry rfl stores p written fileSalt b member latest
    cases stores with
    | verify inStore pending inTime right =>
      have unrivalled := (uncontested _ (verifies_of_pending inStore pending inTime right)).2
      refine latest.unrivalled (keyed _ _ inStore) ?_
      exact unrivalled.resolve_left (by simp) b ((mem_onDisk written).mpr member)
    | register | linkDevice | bundleFor | addOneTime => exact latest.later rfl

theorem reached_latest (reached : service.Reached Uncontested s) : Kept Latest s :=
  reached.invariant (Kept Latest) (fun _ started => kept_start started)
    fun _ _ _ kept uncontested moved => step_latest kept uncontested moved

/-- A store of latest records resolves every hash by ownership. -/
theorem resolves_of_latest (kept : Kept Latest s) (carried : h ≠ "") : Resolves s h := by
  have keyed (k : String) (a : Account) (found : s.store.accounts.lookup k = some a) :
      a.userID = k := (kept.memory k a found).1
  have latest (k : String) (a : Account) (found : s.store.accounts.lookup k = some a)
      (verified : a.verified = true) (same : a.phoneHashB64 = h) :
      lastVerified s.log h = some k := by
    obtain ⟨own, last⟩ := kept.memory k a found
    rw [← same, ← own]
    exact last verified (same ▸ carried)
  have unique (k j : String) (a b : Account) (found : s.store.accounts.lookup k = some a)
      (found' : s.store.accounts.lookup j = some b) (verified : a.verified = true)
      (verified' : b.verified = true) (same : a.phoneHashB64 = h) (same' : b.phoneHashB64 = h) :
      k = j :=
    Option.some.inj ((latest k a found verified same).symm.trans (latest j b found' verified' same'))
  refine ⟨unique, latest, ?_, ?_⟩
  · intro order order' iterates iterates' hashes uid named
    obtain ⟨submitted, a, found, verified, same⟩ := intersect_names iterates keyed named
    obtain ⟨uid', named'⟩ := intersect_answers iterates' found verified (same ▸ submitted)
    rw [same] at named'
    obtain ⟨_, b, found', verified', same'⟩ := intersect_names iterates' keyed named'
    rw [unique uid uid' a b found found' verified verified' same same']
    exact named'
  · intro k a userID caller found verified same inStore account order iterates hashes uid named
    have remains (j : String) (b : Account) := lookup_deleteAccount (k := j) (a := b) inStore
    obtain ⟨_, b, found', verified', same'⟩ := intersect_names iterates
      (fun j b kept' => keyed j b ((remains j b).mp kept').1) named
    obtain ⟨before, other⟩ := (remains uid b).mp found'
    obtain rfl := unique k uid a b found before verified verified' same same'
    obtain rfl := Option.some.inj (found.symm.trans before)
    exact other account.symm

theorem reached_directory (reached : service.Reached Uncontested s) : Directory s :=
  fun _ => resolves_of_latest (reached_latest reached) (hashPhone_ne_empty _ _)

/-- What a verification that succeeds leaves. -/
theorem handle_verify {userID code : String} {now : Int} (wrote : Bool)
    (verifying : verifies s.store userID code now = some acct) :
    s.store.accounts.lookup userID = some acct ∧
      (s.handle wrote (.verify userID code now)).store.accounts =
        s.store.accounts.insert userID { acct with verified := true } ∧
      (s.handle wrote (.verify userID code now)).store.salt = s.store.salt ∧
      (s.handle wrote (.verify userID code now)).store.path = s.store.path ∧
      (s.handle wrote (.verify userID code now)).log =
        s.log ++ [.verified userID acct.phoneHashB64] ∧
      (wrote = false → (s.handle wrote (.verify userID code now)).disk = s.disk) := by
  unfold verifies at verifying
  split at verifying
  · next met =>
    obtain ⟨p, pending, inTime, right⟩ : ∃ p, s.store.pending.lookup userID = some p ∧
        ¬ p.expiresAt < now ∧ p.code = code := by
      simpa [Option.any_eq_true] using met
    refine ⟨verifying, ?_⟩
    simp +contextual [Service.handle, Store.verify, Service.commit, phoneHashOf, pending, inTime,
      right, verifying, Store.persistLocked]
  · cases verifying

/-- Verifying an account with a rival in the store leaves two owners. -/
theorem contested_store_breaks (kept : Kept Sound s) {userID code : String} {now : Int}
    {wrote : Bool} {other : Account}
    (verifying : verifies s.store userID code now = some acct)
    (stored : other ∈ s.store.accounts.values) (rival : Rival acct other) :
    ¬ Directory (s.handle wrote (.verify userID code now)) := by
  obtain ⟨found, accounts, salt, -, -, -⟩ := handle_verify wrote verifying
  obtain ⟨carries, verified, same, apart⟩ := rival
  obtain ⟨keyed, sound⟩ := kept.memory userID acct found
  obtain ⟨-, req, -, hashed⟩ := sound carries
  obtain ⟨k, inStore⟩ := FinMap.mem_values.mp stored
  have own : other.userID = k := (kept.memory k other inStore).1
  have elsewhere : k ≠ userID := by
    rw [← own, ← keyed]
    exact apart
  intro directory
  have resolves := directory req.phoneNumber
  rw [salt, hashed] at resolves
  refine elsewhere (resolves.unique k userID other { acct with verified := true } ?_ ?_ verified
    rfl same rfl)
  · rw [accounts, FinMap.lookup_insert_apply, if_neg elsewhere, inStore]
  · rw [accounts, AList.lookup_insert]

/-- Verifying an account with a rival in a file that is not written leaves the
rival to the next restart. -/
theorem contested_file_breaks (kept : Kept Sound s) {userID code : String} {now : Int}
    {other : Account} (freshSalt : List UInt8)
    (verifying : verifies s.store userID code now = some acct) (written : other ∈ onDisk s)
    (rival : Rival acct other) :
    ∀ s', (s.handle false (.verify userID code now)).step (.restart freshSalt true) = some s' →
      ¬ Directory s' := by
  rintro s' restarted directory
  obtain ⟨found, -, -, path, log, disk⟩ := handle_verify false verifying
  obtain ⟨carries, verified, same, apart⟩ := rival
  obtain ⟨keyed, -⟩ := kept.memory userID acct found
  obtain ⟨p, file⟩ : ∃ p, s.disk = some p := by
    cases file : s.disk with
    | none => simp [onDisk, file] at written
    | some p => exact ⟨p, rfl⟩
  have member : other ∈ p.accounts := (mem_onDisk file).mp written
  have persistent : s.store.path ≠ "" := by
    intro inMemory
    have nothing := kept.unwritten inMemory
    rw [file] at nothing
    cases nothing
  obtain ⟨fileSalt, encoded, records⟩ := kept.disk p file
  obtain ⟨-, req, -, hashed⟩ := records other member (same ▸ carries)
  obtain ⟨back, salt⟩ := lookup_boot_of_mem freshSalt persistent encoded
    (kept.distinct p file) member
  simp only [Service.step, if_true, disk rfl, file, path] at restarted
  cases restarted
  have resolves := directory req.phoneNumber
  simp only [salt, hashed] at resolves
  have latest := resolves.latest other.userID (restored other) back verified rfl
  rw [log, lastVerified_append] at latest
  have own : userID = other.userID := by simpa [verifiedUnder, same] using latest
  exact apart (own.symm.trans keyed.symm)

/-- **The directory is a function of ownership while verifications are
uncontested.** In every run whose every step is uncontested, each number's hash
is carried by at most one verified account, the one verified last; the answer
for it does not depend on the order of the accounts; and deleting the owner's
account leaves the number to nobody.  The next step keeps this, also across a
restart right after it, exactly when it is uncontested. -/
theorem directory_kept_iff_uncontested (reached : service.Reached Uncontested s) :
    Directory s ∧ ∀ a s', s.step a = some s' →
      (Uncontested s a ↔ Directory s' ∧ ∀ freshSalt s'',
        s'.step (.restart freshSalt true) = some s'' → Directory s'') := by
  refine ⟨reached_directory reached, ?_⟩
  intro a s' moved
  constructor
  · intro uncontested
    have next : service.Reached Uncontested s' := .step reached uncontested moved
    refine ⟨reached_directory next, ?_⟩
    intro freshSalt s'' restarted
    have free : Uncontested s' (.restart freshSalt true) := trivial
    exact reached_directory (.step next free restarted)
  · rintro ⟨directory, lasting⟩
    have kept := reached_sound reached
    cases a with
    | restart => trivial
    | request r wrote =>
      cases r with
      | verify userID code now =>
        cases moved
        intro acct verifying
        refine ⟨fun other stored rival =>
          contested_store_breaks kept verifying stored rival directory, ?_⟩
        cases wrote with
        | true => exact .inl rfl
        | false =>
          refine .inr fun other written rival => ?_
          exact contested_file_breaks kept [] verifying written rival _ rfl (lasting [] _ rfl)
      | _ => trivial

/-- A number is deleted and registered again. -/
def numberChangesHands : List Action :=
  [ .request (.register (deviceKeys "+15550100") "u1" "000000" 0) true,
    .request (.verify "u1" "000000" 1) true,
    .request (.deleteAccount "u1") true,
    .request (.register (deviceKeys "+15550100") "u2" "111111" 2) true,
    .request (.verify "u2" "111111" 3) true ]

theorem number_follows_its_owner : ∃ s, service.Reached Uncontested s ∧
    intersect s.store.accounts.values [hashPhone [1, 2] "+15550100"] =
      [⟨hashPhone [1, 2] "+15550100", "u2"⟩] ∧
    Directory s ∧ ∀ a s', s.step a = some s' →
      (Uncontested s a ↔ Directory s' ∧ ∀ freshSalt s'',
        s'.step (.restart freshSalt true) = some s'' → Directory s'') := by
  have observed : (service.checkedRun Uncontested (started "" [1, 2]) numberChangesHands).map
      (fun s => intersect s.store.accounts.values [hashPhone [1, 2] "+15550100"]) =
      some [⟨hashPhone [1, 2] "+15550100", "u2"⟩] := by
    decide +kernel
  obtain ⟨s, ran, answer⟩ := Option.map_eq_some_iff.mp observed
  have reached : service.Reached Uncontested s :=
    .checkedRun (.start ⟨"", [1, 2], rfl⟩) numberChangesHands ran
  exact ⟨s, reached, answer, directory_kept_iff_uncontested reached⟩

/-- A number is registered again, past the cooldown, while its account lives. -/
def numberRegisteredTwice : List Action :=
  [ .request (.register (deviceKeys "+15550100") "u1" "000000" 0) true,
    .request (.verify "u1" "000000" 1) true,
    .request (.register (deviceKeys "+15550100") "u2" "111111" registerCooldown) true,
    .request (.verify "u2" "111111" registerCooldown) true ]

theorem number_has_two_owners : ∃ s, service.Reachable s ∧
    Iterates s.store s.store.accounts.values ∧ Iterates s.store s.store.accounts.values.reverse ∧
    intersect s.store.accounts.values [hashPhone [1, 2] "+15550100"] =
      [⟨hashPhone [1, 2] "+15550100", "u1"⟩] ∧
    intersect s.store.accounts.values.reverse [hashPhone [1, 2] "+15550100"] =
      [⟨hashPhone [1, 2] "+15550100", "u2"⟩] ∧ ¬ Directory s := by
  have observed : (service.run (started "" [1, 2]) numberRegisteredTwice).map (fun s =>
      (s.store.salt, intersect s.store.accounts.values [hashPhone [1, 2] "+15550100"],
        intersect s.store.accounts.values.reverse [hashPhone [1, 2] "+15550100"])) =
      some ([1, 2], [⟨hashPhone [1, 2] "+15550100", "u1"⟩],
        [⟨hashPhone [1, 2] "+15550100", "u2"⟩]) := by
    decide +kernel
  obtain ⟨s, reachable, seen⟩ := Machine.reachable_of_observed observed ⟨"", [1, 2], rfl⟩
  obtain ⟨salt, answers⟩ := Prod.mk.inj seen
  obtain ⟨first, second⟩ := Prod.mk.inj answers
  have reversed : Iterates s.store s.store.accounts.values.reverse := List.reverse_perm _
  refine ⟨s, reachable, .refl _, reversed, first, second, ?_⟩
  intro directory
  have steady := (directory "+15550100").steady _ _ (.refl _) reversed
    [hashPhone [1, 2] "+15550100"] "u1"
  rw [salt, first, second] at steady
  exact absurd (steady (by simp)) (by simp)

end Hwfa.DiscoveryDirectory
