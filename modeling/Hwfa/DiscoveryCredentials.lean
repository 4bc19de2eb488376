import Hwfa.DiscoveryRecords

/-!
What a request does to the records, the pending codes and the link tokens of
the store, name by name: a record, or a code, appears only under a name that the
request draws; a record is verified only by its pending code; a link token is
added only by the request that mints it.
-/

namespace Hwfa.DiscoveryCredentials

open Hwfa.Machines Hwfa.Maps Hwfa.DiscoveryStore Hwfa.DiscoveryService Hwfa.DiscoveryRecords

/-- The user id that a request draws. -/
def draws : Request → List String
  | .register _ userID _ _ => [userID]
  | .linkDevice _ _ userID _ => [userID]
  | _ => []

variable {s s' : Service} {r : Request} {wrote : Bool} {k u : String} {a : Account}

/-- A record is new, or was there with the same account; it becomes verified only
by its pending code. -/
theorem accounts_of_step (moved : s.step (.request r wrote) = some s')
    (found : s'.store.accounts.lookup k = some a) :
    (∃ b, s.store.accounts.lookup k = some b ∧ b.accountID = a.accountID ∧
      (a.verified = true → b.verified = true ∨ (s.store.pending.lookup k).isSome)) ∨
    k ∈ draws r := by
  have kept (before : s.store.accounts.lookup k = some a) :
      (∃ b, s.store.accounts.lookup k = some b ∧ b.accountID = a.accountID ∧
        (a.verified = true → b.verified = true ∨ (s.store.pending.lookup k).isSome)) ∨
      k ∈ draws r := .inl ⟨a, before, rfl, .inl⟩
  cases step_moves moved with
  | idle accounts => exact kept (accounts ▸ found)
  | serveReusable => exact kept found
  | store stores accounts =>
    rw [accounts, FinMap.lookup_insert_apply] at found
    split at found
    · next own =>
      cases found
      subst own
      cases stores with
      | register | linkDevice => exact .inr List.mem_cons_self
      | verify before pending => exact .inl ⟨_, before, rfl, fun _ => .inr (by rw [pending]; rfl)⟩
      | bundleFor before => exact .inl ⟨_, before, rfl, .inl⟩
      | addOneTime before => exact .inl ⟨_, before, rfl, .inl⟩
    · exact kept found
  | deleteAccount _ accounts => exact kept ((accounts k a).mp found).1
  | removeDevice _ _ accounts => exact kept ((accounts k a).mp found).1

theorem lookup_foldl_erase {ν : Type} (names : List String) (m : FinMap String ν) {x : ν}
    (found : (names.foldl (fun m name => m.erase name) m).lookup k = some x) :
    m.lookup k = some x := by
  induction names generalizing m with
  | nil => exact found
  | cons name rest ih =>
    have before := ih (m.erase name) found
    rw [FinMap.lookup_erase_apply] at before
    split at before
    · cases before
    · exact before

/-- The names of link tokens are drawn by the handler. -/
def mints : Request → Bool
  | .createLinkToken .. => true
  | _ => false

/-- A code is pending only for a new record, or where one was that expires at the
same time, and a link token is alive only where it was. -/
structure Credentials (before after : Store) (r : Request) : Prop where
  pending : ∀ k p, after.pending.lookup k = some p →
    (∃ q, before.pending.lookup k = some q ∧ q.expiresAt = p.expiresAt) ∨ k ∈ draws r
  linkTokens : mints r = false → ∀ t lt, after.linkTokens.lookup t = some lt →
    before.linkTokens.lookup t = some lt

section Credentials

variable {before after : Store}

theorem credentials_same (pending : after.pending = before.pending)
    (linkTokens : after.linkTokens = before.linkTokens) : Credentials before after r := by
  refine ⟨?_, ?_⟩
  · intro k p found
    rw [pending] at found
    exact .inl ⟨p, found, rfl⟩
  · intro _ t lt found
    rwa [linkTokens] at found

theorem credentials_erase_pending (userID : String)
    (pending : after.pending = before.pending.erase userID)
    (linkTokens : after.linkTokens = before.linkTokens) : Credentials before after r := by
  refine ⟨?_, (credentials_same rfl linkTokens : Credentials before { after with
    pending := before.pending } r).linkTokens⟩
  intro k p found
  rw [pending, FinMap.lookup_erase_apply] at found
  split at found
  · cases found
  · exact .inl ⟨p, found, rfl⟩

theorem credentials_erase_linkToken (token : String) (pending : after.pending = before.pending)
    (linkTokens : after.linkTokens = before.linkTokens.erase token) :
    Credentials before after r := by
  refine ⟨(credentials_same pending rfl : Credentials before { after with
    linkTokens := before.linkTokens } r).pending, ?_⟩
  intro _ t lt found
  rw [linkTokens, FinMap.lookup_erase_apply] at found
  split at found
  · cases found
  · exact found

theorem credentials_insert_pending (userID : String) (otp : PendingOTP)
    (known : (∃ q, before.pending.lookup userID = some q ∧ q.expiresAt = otp.expiresAt) ∨
      userID ∈ draws r)
    (pending : after.pending = before.pending.insert userID otp)
    (linkTokens : after.linkTokens = before.linkTokens) : Credentials before after r := by
  refine ⟨?_, (credentials_same rfl linkTokens : Credentials before { after with
    pending := before.pending } r).linkTokens⟩
  intro k p found
  rw [pending, FinMap.lookup_insert_apply] at found
  split at found
  · next own =>
    cases found
    exact own ▸ known
  · exact .inl ⟨p, found, rfl⟩

end Credentials

theorem handle_credentials (s : Service) (r : Request) (wrote : Bool) :
    Credentials s.store (s.handle wrote r).store r := by
  cases r with
  | register req userID otp now =>
    simp only [Service.handle, Service.commit, Store.register]
    split
    · exact credentials_same rfl rfl
    · exact credentials_insert_pending userID _ (.inr List.mem_cons_self) rfl rfl
  | verify userID code now =>
    simp only [Service.handle, Service.commit, Store.verify]
    split
    · exact credentials_same rfl rfl
    · next p pending =>
      split
      · exact credentials_erase_pending userID rfl rfl
      · split
        · split
          · exact credentials_erase_pending userID rfl rfl
          · exact credentials_insert_pending userID { p with attempts := p.attempts + 1 }
              (.inl ⟨p, pending, rfl⟩) rfl rfl
        · split
          · exact credentials_same rfl rfl
          · exact credentials_erase_pending userID rfl rfl
  | createLinkToken accountID token now =>
    refine ⟨(credentials_same rfl rfl : Credentials s.store s.store _).pending, ?_⟩
    intro other
    cases other
  | linkDevice token req userID now =>
    simp only [Service.handle, Service.commit, Store.linkDevice]
    split
    · exact credentials_same rfl rfl
    · split
      · exact credentials_erase_linkToken token rfl rfl
      · split
        · exact credentials_same rfl rfl
        · exact credentials_erase_linkToken token rfl rfl
  | deleteAccount userID =>
    simp only [Service.handle, Service.commit, Store.deleteAccount]
    split
    · exact credentials_same rfl rfl
    · refine ⟨?_, fun _ _ _ found => found⟩
      intro k p found
      exact .inl ⟨p, lookup_foldl_erase _ _ found, rfl⟩
  | removeDevice caller target =>
    simp only [Service.handle, Service.commit, Store.removeDevice]
    split
    · split
      · exact credentials_same rfl rfl
      · split
        · exact credentials_same rfl rfl
        · exact credentials_erase_pending target rfl rfl
    · exact credentials_same rfl rfl
  | bundleFor userID =>
    simp only [Service.handle, Service.commit, Store.bundleFor]
    split
    · exact credentials_same rfl rfl
    · split
      · split
        · exact credentials_same rfl rfl
        · exact credentials_same rfl rfl
      · exact credentials_same rfl rfl
  | addOneTime userID keys =>
    simp only [Service.handle, Service.commit, Store.addOneTime]
    split
    · exact credentials_same rfl rfl
    · exact credentials_same rfl rfl
  | allowIntersect uid n now =>
    simp only [Service.handle, Service.commit, Store.allowIntersect]
    split
    · exact credentials_same rfl rfl
    · exact credentials_same rfl rfl

/-- A restart forgets codes and link tokens. -/
theorem boot_empty (path : String) (salt : List UInt8) (disk : Option PersistedState) :
    (boot path salt disk).pending = ∅ ∧ (boot path salt disk).linkTokens = ∅ := by
  unfold boot Store.load
  split
  · exact ⟨rfl, rfl⟩
  · split
    · exact ⟨rfl, rfl⟩
    · split
      · exact ⟨rfl, rfl⟩
      · exact ⟨rfl, rfl⟩

end Hwfa.DiscoveryCredentials
