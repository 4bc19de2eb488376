import Hwfa.DiscoveryGroups

/-!
Link tokens over whole runs.

`Enrolled` says what stands behind a device that has been linked: the token it
used was minted for the account in time, by a handler whose caller was a verified
device of the account when `accountIDFor` answered it.  The history is sound when
every `linked` in it is enrolled by what came before and no token is used twice.
-/

namespace Hwfa.DiscoveryLinking

open Hwfa.Machines Hwfa.Maps Hwfa.DiscoveryStore Hwfa.DiscoveryService Hwfa.DiscoveryCredentials
  Hwfa.DiscoveryHistory Hwfa.DiscoveryGroups

/-- The handler of the call was answered that its caller is on the account, and
the caller was a verified device of it. -/
def Asked (events : List Event) (call : Nat) (accountID : String) : Prop :=
  ∃ caller accounts, .resolved call caller accountID accounts ∈ events ∧
    VerifiedDevice accounts caller accountID

/-- The token was minted for the account, by a handler that had asked for it. -/
def Minted (events : List Event) (token accountID : String) (time : Int) : Prop :=
  ∃ since call earlier, events = since ++ .minted call token accountID time :: earlier ∧
    Asked earlier call accountID

/-- The token that a linked device has used. -/
def usedToken : Event → Option String
  | .linked token _ _ _ _ => some token
  | _ => none

/-- A device was linked with a token that was still good. -/
structure Enrolled (before : List Event) (token accountID : String) (time : Int)
    (accounts : Accounts) : Prop where
  minted : ∃ mintedAt, Minted before token accountID mintedAt ∧ time ≤ mintedAt + linkTTL
  primary : VerifiedDevice accounts accountID accountID
  unused : token ∉ before.filterMap usedToken

/-- What an event claims, given the events before it. -/
def Justified (before : List Event) : Event → Prop
  | .linked token _ accountID time accounts => Enrolled before token accountID time accounts
  | _ => True

def SoundHistory : List Event → Prop
  | [] => True
  | e :: before => Justified before e ∧ SoundHistory before

structure Linkable (s : Chronicle) : Prop where
  tokens : ∀ t lt, s.service.store.linkTokens.lookup t = some lt →
    t ∈ s.drawn ∧ t ∉ s.events.filterMap usedToken ∧
      ∃ mintedAt, Minted s.events t lt.accountID mintedAt ∧ lt.expiresAt = mintedAt + linkTTL
  calls : ∀ n u accountID, s.calls.lookup n = some (.resolved u accountID) →
    Asked s.events n accountID
  used : ∀ t ∈ s.events.filterMap usedToken, t ∈ s.drawn
  sound : SoundHistory s.events

variable {s s' : Chronicle} {events more : List Event} {e : Event} {call : Nat}
  {token accountID : String} {time : Int}

theorem Asked.later (asked : Asked events call accountID) : Asked (more ++ events) call accountID := by
  obtain ⟨caller, accounts, member, verified⟩ := asked
  exact ⟨caller, accounts, List.mem_append_right _ member, verified⟩

theorem Minted.later (minted : Minted events token accountID time) :
    Minted (more ++ events) token accountID time := by
  obtain ⟨since, call, earlier, rfl, asked⟩ := minted
  exact ⟨more ++ since, call, earlier, (List.append_assoc ..).symm, asked⟩

theorem SoundHistory.suffix {since : List Event} (sound : SoundHistory (since ++ e :: events)) :
    Justified events e := by
  induction since with
  | nil => exact sound.1
  | cons first rest ih => exact ih sound.2

/-- In a sound history no token is used twice. -/
theorem SoundHistory.nodup (sound : SoundHistory events) :
    (events.filterMap usedToken).Nodup := by
  induction events with
  | nil => exact List.nodup_nil
  | cons e before ih =>
    obtain ⟨justified, sound⟩ := sound
    cases e with
    | linked token userID accountID time accounts =>
      exact List.nodup_cons.mpr ⟨justified.unused, ih sound⟩
    | _ => exact ih sound

/-- A step that adds nothing about link tokens. -/
theorem Linkable.frame (linkable : Linkable s) (more : List Event)
    (events : s'.events = more ++ s.events) (unused : more.filterMap usedToken = [])
    (tokens : ∀ t lt, s'.service.store.linkTokens.lookup t = some lt →
      s.service.store.linkTokens.lookup t = some lt)
    (calls : ∀ n u accountID, s'.calls.lookup n = some (.resolved u accountID) →
      s.calls.lookup n = some (.resolved u accountID) ∨ Asked s'.events n accountID)
    (drawn : ∀ t ∈ s.drawn, t ∈ s'.drawn) : Linkable s' := by
  have same : s'.events.filterMap usedToken = s.events.filterMap usedToken := by
    rw [events, List.filterMap_append, unused, List.nil_append]
  refine ⟨?_, ?_, ?_, ?_⟩
  · intro t lt found
    obtain ⟨known, fresh, mintedAt, minted, expires⟩ := linkable.tokens t lt (tokens t lt found)
    rw [same, events]
    exact ⟨drawn t known, fresh, mintedAt, minted.later, expires⟩
  · intro n u accountID found
    rcases calls n u accountID found with before | asked
    · rw [events]
      exact (linkable.calls n u accountID before).later
    · exact asked
  · rw [same]
    exact fun t member => drawn t (linkable.used t member)
  · rw [events]
    clear events same
    induction more with
    | nil => exact linkable.sound
    | cons first rest ih =>
      cases first with
      | linked => cases unused
      | _ => exact ⟨trivial, ih unused⟩

/-- A device has been linked with a token that is still good. -/
theorem Linkable.link (linkable : Linkable s) (grouped : Grouped s) {lt : LinkToken}
    {userID : String} {acct : Account}
    (alive : s.service.store.linkTokens.lookup token = some lt) (inTime : ¬ lt.expiresAt < time)
    (primary : s.service.store.accounts.lookup lt.accountID = some acct)
    (events : s'.events =
      .linked token userID lt.accountID time s.service.store.accounts :: s.events)
    (tokens : s'.service.store.linkTokens = s.service.store.linkTokens.erase token)
    (calls : s'.calls = s.calls) (drawn : ∀ t ∈ s.drawn, t ∈ s'.drawn) : Linkable s' := by
  obtain ⟨known, fresh, mintedAt, minted, expires⟩ := linkable.tokens token lt alive
  obtain ⟨own, verified⟩ := (grouped.tokens token lt alive).primary acct primary
  have grown : s'.events =
      [.linked token userID lt.accountID time s.service.store.accounts] ++ s.events := events
  have used : s'.events.filterMap usedToken = token :: s.events.filterMap usedToken := by
    rw [events]
    rfl
  refine ⟨?_, ?_, ?_, ?_⟩
  · intro t other found
    rw [tokens, FinMap.lookup_erase_apply] at found
    split at found
    · cases found
    · next apart =>
      obtain ⟨known, fresh, mintedAt, minted, expires⟩ := linkable.tokens t other found
      rw [used, grown]
      exact ⟨drawn t known, List.not_mem_cons_of_ne_of_not_mem apart fresh, mintedAt, minted.later,
        expires⟩
  · rw [calls, grown]
    exact fun n u accountID found => (linkable.calls n u accountID found).later
  · rw [used]
    intro t member
    rcases List.mem_cons.mp member with rfl | before
    · exact drawn t known
    · exact drawn t (linkable.used t before)
  · rw [events]
    refine ⟨⟨⟨mintedAt, minted, ?_⟩, ⟨acct, primary, verified, own⟩, fresh⟩, linkable.sound⟩
    rw [← expires]
    exact Int.not_lt.mp inTime

theorem Linkable.request (linkable : Linkable s) (grouped : Grouped s) {r : Request} {wrote : Bool}
    (fits : s.fits r = true) : Linkable (s.request r wrote) := by
  obtain ⟨unminted, -⟩ := Bool.and_eq_true_iff.mp fits
  have unminted : mints r = false := by simpa using unminted
  have handled := handle_handled (r := r) s.service wrote unminted
  have keeps := (handle_credentials s.service r wrote).linkTokens unminted
  have drawn : ∀ u ∈ s.drawn, u ∈ (s.request r wrote).drawn :=
    fun _ member => List.mem_append_right _ member
  have quiet (unused : (told s.service.store r).filterMap usedToken = []) :
      Linkable (s.request r wrote) :=
    linkable.frame _ rfl unused keeps (fun _ _ _ found => .inl found) drawn
  generalize after : (s.service.handle wrote r).store = store at handled
  cases handled with
  | idle _ nothing => exact quiet (by rw [nothing]; rfl)
  | register result =>
    refine quiet ?_
    simp only [told, result]
    rfl
  | refused | wrong | missing | verify => exact quiet rfl
  | expired nothing => exact quiet (by rw [nothing]; rfl)
  | linkDevice alive inTime primary result _ _ linkTokens =>
    exact linkable.link grouped alive inTime primary (congrArg (· ++ s.events) result)
      ((congrArg Store.linkTokens after).trans linkTokens) rfl drawn
  | deleteAccount => exact quiet rfl
  | removeDevice => exact quiet rfl
  | pool _ nothing => exact quiet (by rw [nothing]; rfl)

theorem Linkable.accountIDFor (linkable : Linkable s) (call : Nat) (userID : String) :
    Linkable (s.accountIDFor call userID) := by
  unfold Chronicle.accountIDFor
  split
  · next accountID answered =>
    refine linkable.frame [.resolved call userID accountID s.service.store.accounts] rfl rfl
      (fun _ _ found => found) ?_ fun _ member => member
    intro n u accountID' found
    rw [FinMap.lookup_insert_apply] at found
    split at found
    · next own =>
      cases found
      subst own
      right
      refine ⟨userID, s.service.store.accounts, List.mem_cons_self, ?_⟩
      unfold Store.accountIDFor at answered
      split at answered
      · cases answered
      · next a record =>
        split at answered
        · next verified =>
          cases answered
          exact ⟨a, record, verified, rfl⟩
        · cases answered
    · exact .inl found
  · refine linkable.frame [] rfl rfl (fun _ _ found => found) ?_ fun _ member => member
    intro n u accountID found
    rw [FinMap.lookup_erase_apply] at found
    split at found
    · cases found
    · exact .inl found

theorem Linkable.createLinkToken (linkable : Linkable s) {userID : String}
    (called : s.calls.lookup call = some (.resolved userID accountID)) (new : token ∉ s.drawn) :
    Linkable (s.createLinkToken call accountID token time) := by
  have asked := linkable.calls call userID accountID called
  have unused : token ∉ s.events.filterMap usedToken := fun member => new (linkable.used token member)
  have grown : (s.createLinkToken call accountID token time).events =
      [.minted call token accountID time] ++ s.events := rfl
  refine ⟨?_, ?_, ?_, ⟨trivial, linkable.sound⟩⟩
  · intro t lt found
    simp only [Chronicle.createLinkToken, Service.handle, Store.createLinkToken,
      FinMap.lookup_insert_apply] at found
    split at found
    · next own =>
      cases found
      subst own
      exact ⟨List.mem_cons_self, unused, time, ⟨[], call, s.events, rfl, asked⟩, rfl⟩
    · obtain ⟨known, fresh, mintedAt, minted, expires⟩ := linkable.tokens t lt found
      rw [grown]
      exact ⟨List.mem_cons_of_mem _ known, fresh, mintedAt, minted.later, expires⟩
  · intro n u accountID' found
    simp only [Chronicle.createLinkToken, FinMap.lookup_erase_apply] at found
    rw [grown]
    split at found
    · cases found
    · exact (linkable.calls n u accountID' found).later
  · exact fun t member => List.mem_cons_of_mem _ (linkable.used t member)

theorem step_linkable {a : DiscoveryHistory.Action} (grouped : Grouped s) (linkable : Linkable s)
    (moved : s.step a = some s') : Linkable s' := by
  cases a with
  | request r wrote =>
    simp only [Chronicle.step, Option.ite_none_right_eq_some, Option.some.injEq] at moved
    obtain ⟨fits, rfl⟩ := moved
    exact linkable.request grouped fits
  | linkToken token now =>
    cases moved
    unfold Chronicle.linkToken
    split
    · refine linkable.frame [] rfl rfl (fun _ _ found => found) ?_ fun _ member => member
      intro n u accountID found
      rw [FinMap.lookup_insert_apply] at found
      split at found
      · cases found
      · exact .inl found
    · exact linkable
  | accountIDFor call =>
    simp only [Chronicle.step] at moved
    split at moved
    · cases moved
      exact linkable.accountIDFor call _
    · cases moved
  | createLinkToken call token now =>
    simp only [Chronicle.step] at moved
    split at moved
    · next called =>
      split at moved
      · cases moved
      · next new =>
        cases moved
        exact linkable.createLinkToken called new
    · cases moved
  | restart freshSalt readable =>
    cases moved
    obtain ⟨-, linkTokens⟩ := boot_empty s.service.store.path freshSalt
      (if readable then s.service.disk else none)
    refine linkable.frame [.restarted] rfl rfl ?_ ?_ fun _ member => member
    · intro t lt found
      simp only [Chronicle.restart, linkTokens] at found
      cases found
    · intro n u accountID found
      cases found

theorem reached_linkable (reached : chronicle.Reachable s) : Linkable s := by
  refine reached.invariant_under Linkable (fun _ => reached_grouped) ?_
    fun _ _ _ grouped linkable _ moved => step_linkable grouped linkable moved
  rintro s ⟨path, salt, rfl⟩
  refine ⟨?_, ?_, ?_, trivial⟩
  · intro t lt found
    cases found
  · intro n u accountID found
    cases found
  · intro t member
    cases member

/-- `linkDevice` places a device on the account of its token, or changes no account. -/
theorem linkDevice_places (store : Store) (token : String) (req : RegisterRequest)
    (userID : String) (now : Int) :
    ((store.linkDevice token req userID now).result = none ∧
      (store.linkDevice token req userID now).store.accounts = store.accounts ∧
      (store.linkDevice token req userID now).persists = false) ∨
    ∃ lt device access refresh, store.linkTokens.lookup token = some lt ∧
      (store.linkDevice token req userID now).result =
        some (userID, lt.accountID, access, refresh) ∧
      (store.linkDevice token req userID now).store.accounts =
        store.accounts.insert userID device ∧
      device.accountID = lt.accountID := by
  cases alive : store.linkTokens.lookup token with
  | none => simp [Store.linkDevice, alive]
  | some lt =>
    by_cases expired : lt.expiresAt < now
    · simp [Store.linkDevice, alive, expired]
    · cases primary : store.accounts.lookup lt.accountID with
      | none => simp [Store.linkDevice, alive, expired, primary]
      | some acct =>
        right
        refine ⟨lt, linkedAccount userID lt.accountID req, (issueTokens userID now).1,
          (issueTokens userID now).2, rfl, ?_, ?_, rfl⟩
        · simp [Store.linkDevice, alive, expired, primary]
        · simp [Store.linkDevice, alive, expired, primary, linkedAccount]

/-- **A link token enrols one device, in time, on its account.** In every run and
in any order of `linkToken` and `link` requests, the tokens that linked devices
have used are distinct, and each was minted no more than `linkTTL` before for the
account the device was linked to, whose primary existed then, by a handler whose
caller was a verified device of that account when the handler resolved it.  A
`linkDevice` that succeeds puts its device on the account of its token; one that
fails changes no account. -/
theorem link_tokens_enrol_one_device (reached : chronicle.Reachable s) :
    (s.events.filterMap usedToken).Nodup ∧
    (∀ since token userID accountID time accounts before,
      s.events = since ++ .linked token userID accountID time accounts :: before →
        Enrolled before token accountID time accounts) ∧
    ∀ token req userID now,
      ((s.service.store.linkDevice token req userID now).result = none ∧
        (s.service.store.linkDevice token req userID now).store.accounts =
          s.service.store.accounts ∧
        (s.service.store.linkDevice token req userID now).persists = false) ∨
      ∃ lt device access refresh, s.service.store.linkTokens.lookup token = some lt ∧
        (s.service.store.linkDevice token req userID now).result =
          some (userID, lt.accountID, access, refresh) ∧
        (s.service.store.linkDevice token req userID now).store.accounts =
          s.service.store.accounts.insert userID device ∧
        device.accountID = lt.accountID := by
  have linkable := reached_linkable reached
  refine ⟨linkable.sound.nodup, ?_, linkDevice_places s.service.store⟩
  intro since token userID accountID time accounts before history
  have sound := linkable.sound
  rw [history] at sound
  exact sound.suffix

/-- Two devices race for one token. -/
def twoForOneToken : List DiscoveryHistory.Action :=
  [ .request (.register (deviceKeys "+15550100") "phone" "000000" 0) true,
    .request (.verify "phone" "000000" 0) true,
    .linkToken ⟨"phone", "access", accessTTL⟩ 0,
    .accountIDFor 0,
    .createLinkToken 0 "link" 0,
    .request (.linkDevice "link" (deviceKeys "") "laptop" linkTTL) true,
    .request (.linkDevice "link" (deviceKeys "") "tablet" linkTTL) true ]

theorem first_of_two_is_linked : ∃ s, chronicle.Reachable s ∧
    s.events.filterMap usedToken = ["link"] ∧ (s.events.filterMap usedToken).Nodup ∧
    ∀ since token userID accountID time accounts before,
      s.events = since ++ .linked token userID accountID time accounts :: before →
        Enrolled before token accountID time accounts := by
  have observed : (chronicle.run { service := started "" [1, 2] } twoForOneToken).map
      (fun s => s.events.filterMap usedToken) = some ["link"] := by decide +kernel
  obtain ⟨s, ran, seen⟩ := Option.map_eq_some_iff.mp observed
  have reached := Machine.reachable_of_run (m := chronicle) ⟨"", [1, 2], rfl⟩ twoForOneToken ran
  obtain ⟨distinct, enrolled, -⟩ := link_tokens_enrol_one_device reached
  exact ⟨s, reached, seen, distinct, enrolled⟩

end Hwfa.DiscoveryLinking
