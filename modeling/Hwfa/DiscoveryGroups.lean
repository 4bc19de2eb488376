import Hwfa.DiscoveryHistory
import Hwfa.DiscoveryRestart

/-!
Account groups.

`WellFormed` is about a map of accounts: every account belongs to one that is its
own, and a device that is not the primary of its group is verified, is not found
by phone, and has a verified primary.  It holds of the store and of what a
restart would read, in every run; link tokens, and handlers about to mint one,
may outlive their account, but then nobody takes its name (`Joinable`).
-/

namespace Hwfa.DiscoveryGroups

open Hwfa.Machines Hwfa.Maps Hwfa.DiscoveryStore Hwfa.DiscoveryService Hwfa.DiscoveryRecords
  Hwfa.DiscoveryCredentials Hwfa.DiscoveryRestart Hwfa.DiscoveryHistory

structure WellFormed (accounts : Accounts) : Prop where
  keyed : ∀ k a, accounts.lookup k = some a → a.userID = k ∧ k ≠ ""
  primary : ∀ k a, accounts.lookup k = some a →
    ∃ root, accounts.lookup a.accountID = some root ∧ root.accountID = a.accountID ∧
      (k ≠ a.accountID → a.verified = true ∧ a.phoneHashB64 = "" ∧ root.verified = true)

variable {accounts accounts' : Accounts} {k : String} {a : Account}

theorem wellFormed_empty : WellFormed ∅ := by
  refine ⟨?_, ?_⟩
  · intro k a found
    cases found
  · intro k a found
    cases found

theorem WellFormed.named (formed : WellFormed accounts) (found : accounts.lookup k = some a) :
    a.accountID ≠ "" := by
  obtain ⟨root, above, -⟩ := formed.primary k a found
  exact (formed.keyed _ _ above).2

/-- The same accounts in another map. -/
theorem WellFormed.congr (formed : WellFormed accounts)
    (same : ∀ k, accounts'.lookup k = accounts.lookup k) : WellFormed accounts' := by
  refine ⟨?_, ?_⟩
  · simpa only [same] using formed.keyed
  · simpa only [same] using formed.primary

/-- A record is stored that is a primary, or has one, and takes nothing back that
the record it replaces said. -/
theorem WellFormed.insert (formed : WellFormed accounts) (keyed : a.userID = k ∧ k ≠ "")
    (rooted : k = a.accountID ∨ a.verified = true ∧ a.phoneHashB64 = "" ∧
      ∃ root, accounts.lookup a.accountID = some root ∧ root.accountID = a.accountID ∧
        root.verified = true)
    (replaces : ∀ b, accounts.lookup k = some b →
      b.accountID = a.accountID ∧ (b.verified = true → a.verified = true)) :
    WellFormed (accounts.insert k a) := by
  refine ⟨?_, ?_⟩
  · intro j b found
    rw [FinMap.lookup_insert_apply] at found
    split at found
    · next own =>
      cases found
      exact own ▸ keyed
    · exact formed.keyed j b found
  · intro j b found
    have root_of {root : Account} (above : accounts.lookup b.accountID = some root)
        (primary : root.accountID = b.accountID) :
        ∃ root', (accounts.insert k a).lookup b.accountID = some root' ∧
          root'.accountID = b.accountID ∧ (root.verified = true → root'.verified = true) := by
      rw [FinMap.lookup_insert_apply]
      split
      · next own =>
        rw [own] at above
        obtain ⟨account, verified⟩ := replaces root above
        exact ⟨a, rfl, account.symm.trans primary, verified⟩
      · exact ⟨root, above, primary, id⟩
    rw [FinMap.lookup_insert_apply] at found
    split at found
    · next own =>
      cases found
      rcases rooted with self | ⟨verified, hidden, root, above, primary, rootVerified⟩
      · refine ⟨a, ?_, rfl, fun other => absurd (own.trans self) other⟩
        rw [FinMap.lookup_insert_apply, if_pos self.symm]
      · obtain ⟨root', above', primary', kept⟩ := root_of above primary
        exact ⟨root', above', primary', fun _ => ⟨verified, hidden, kept rootVerified⟩⟩
    · obtain ⟨root, above, primary, linked⟩ := formed.primary j b found
      obtain ⟨root', above', primary', kept⟩ := root_of above primary
      refine ⟨root', above', primary', ?_⟩
      intro other
      obtain ⟨verified, hidden, rootVerified⟩ := linked other
      exact ⟨verified, hidden, kept rootVerified⟩

/-- A record is replaced by one that differs in keys, or has become verified. -/
theorem WellFormed.update {b : Account} (formed : WellFormed accounts)
    (found : accounts.lookup k = some b) (userID : a.userID = b.userID)
    (accountID : a.accountID = b.accountID) (phoneHash : a.phoneHashB64 = b.phoneHashB64)
    (verified : b.verified = true → a.verified = true) : WellFormed (accounts.insert k a) := by
  refine formed.insert (userID ▸ formed.keyed k b found) ?_ ?_
  · rw [accountID, phoneHash]
    by_cases self : k = b.accountID
    · exact .inl self
    · obtain ⟨root, above, primary, linked⟩ := formed.primary k b found
      obtain ⟨own, hidden, rootVerified⟩ := linked self
      exact .inr ⟨verified own, hidden, root, above, primary, rootVerified⟩
  · intro c before
    cases found.symm.trans before
    exact ⟨accountID.symm, verified⟩

/-- Records go, but no primary before its devices. -/
theorem WellFormed.restrict (formed : WellFormed accounts)
    (fewer : ∀ k a, accounts'.lookup k = some a → accounts.lookup k = some a)
    (closed : ∀ k a root, accounts'.lookup k = some a → accounts.lookup a.accountID = some root →
      root.accountID = a.accountID → accounts'.lookup a.accountID = some root) :
    WellFormed accounts' := by
  refine ⟨fun k a found => formed.keyed k a (fewer k a found), ?_⟩
  intro k a found
  obtain ⟨root, above, primary, linked⟩ := formed.primary k a (fewer k a found)
  exact ⟨root, closed k a root found above primary, primary, linked⟩

/-! ## Over whole runs -/

/-- The account, if it still exists, is a verified primary, and nobody else will
be called like it. -/
structure Joinable (s : Chronicle) (accountID : String) : Prop where
  drawn : accountID ∈ s.drawn
  primary : ∀ a, s.service.store.accounts.lookup accountID = some a →
    a.accountID = accountID ∧ a.verified = true

/-- What holds of the accounts in every run. -/
structure Grouped (s : Chronicle) : Prop where
  memory : WellFormed s.service.store.accounts
  file : ∀ freshSalt, WellFormed (boot s.service.store.path freshSalt s.service.disk).accounts
  pending : ∀ u p, s.service.store.pending.lookup u = some p →
    ∃ a, s.service.store.accounts.lookup u = some a ∧ a.verified = false ∧ a.accountID = u
  tokens : ∀ t lt, s.service.store.linkTokens.lookup t = some lt → Joinable s lt.accountID
  calls : ∀ n u accountID, s.calls.lookup n = some (.resolved u accountID) → Joinable s accountID
  empty : "" ∈ s.drawn
  drawn : ∀ k a, s.service.store.accounts.lookup k = some a → k ∈ s.drawn
  drawnOnFile : ∀ freshSalt k a,
    (boot s.service.store.path freshSalt s.service.disk).accounts.lookup k = some a → k ∈ s.drawn

variable {s s' : Chronicle}

/-- The accounts after a step: a name is new, or was an account of the same group,
as verified as before. -/
structure Succeeds (s s' : Chronicle) : Prop where
  drawn : ∀ u ∈ s.drawn, u ∈ s'.drawn
  accounts : ∀ k a, s'.service.store.accounts.lookup k = some a → k ∉ s.drawn ∨
    ∃ b, s.service.store.accounts.lookup k = some b ∧ b.accountID = a.accountID ∧
      (b.verified = true → a.verified = true)

theorem Joinable.later {accountID : String} (joinable : Joinable s accountID)
    (succeeds : Succeeds s s') : Joinable s' accountID := by
  refine ⟨succeeds.drawn _ joinable.drawn, ?_⟩
  intro a found
  rcases succeeds.accounts accountID a found with new | ⟨b, before, account, verified⟩
  · exact absurd joinable.drawn new
  · obtain ⟨own, was⟩ := joinable.primary b before
    exact ⟨account.symm.trans own, verified was⟩

/-- What a restart would read is what it would have read before, or the store. -/
theorem lookup_boot_of_handle {wrote : Bool} (memory : WellFormed s'.service.store.accounts)
    (path : s'.service.store.path = s.service.store.path)
    (disk : s'.service.disk = s.service.disk ∨
      s'.service.disk = s'.service.store.persistLocked wrote s.service.disk)
    (freshSalt : List UInt8) :
    (∀ k, (boot s'.service.store.path freshSalt s'.service.disk).accounts.lookup k =
      (boot s.service.store.path freshSalt s.service.disk).accounts.lookup k) ∨
    ∀ k, (boot s'.service.store.path freshSalt s'.service.disk).accounts.lookup k =
      s'.service.store.accounts.lookup k := by
  rcases disk with same | persisted
  · left
    rw [path, same]
    exact fun _ => rfl
  · unfold Store.persistLocked at persisted
    split at persisted
    · left
      rw [path, persisted]
      exact fun _ => rfl
    · next persistent =>
      split at persisted
      · right
        rw [persisted]
        exact (alike_boot_persisted persistent (fun k a found => (memory.keyed k a found).1)
          (fun k a found => memory.named found) freshSalt).accounts
      · left
        rw [path, persisted]
        exact fun _ => rfl

/-- Pending codes are for primaries that are not verified yet. -/
def PendingPrimaries (s : Store) : Prop :=
  ∀ u p, s.pending.lookup u = some p →
    ∃ a, s.accounts.lookup u = some a ∧ a.verified = false ∧ a.accountID = u

/-- A step that is a request, or leaves the accounts and the file alone. -/
theorem Grouped.next (grouped : Grouped s) (wrote : Bool) (succeeds : Succeeds s s')
    (memory : WellFormed s'.service.store.accounts)
    (named : ∀ k a, s'.service.store.accounts.lookup k = some a → k ∈ s'.drawn)
    (pending : PendingPrimaries s'.service.store)
    (path : s'.service.store.path = s.service.store.path)
    (disk : s'.service.disk = s.service.disk ∨
      s'.service.disk = s'.service.store.persistLocked wrote s.service.disk)
    (tokens : ∀ t lt, s'.service.store.linkTokens.lookup t = some lt →
      s.service.store.linkTokens.lookup t = some lt ∨ Joinable s lt.accountID)
    (calls : ∀ n u accountID, s'.calls.lookup n = some (.resolved u accountID) →
      s.calls.lookup n = some (.resolved u accountID) ∨ Joinable s accountID) : Grouped s' := by
  have read := lookup_boot_of_handle memory path disk
  refine ⟨memory, ?_, pending, ?_, ?_, succeeds.drawn _ grouped.empty, named, ?_⟩
  · intro freshSalt
    rcases read freshSalt with before | now
    · exact (grouped.file freshSalt).congr before
    · exact memory.congr now
  · intro t lt found
    rcases tokens t lt found with before | joinable
    · exact (grouped.tokens t lt before).later succeeds
    · exact joinable.later succeeds
  · intro n u accountID found
    rcases calls n u accountID found with before | joinable
    · exact (grouped.calls n u accountID before).later succeeds
    · exact joinable.later succeeds
  · intro freshSalt k a found
    rcases read freshSalt with before | now
    · rw [before] at found
      exact succeeds.drawn k (grouped.drawnOnFile freshSalt k a found)
    · rw [now] at found
      exact named k a found

/-- What a request does to the accounts and the pending codes. -/
structure Regroups (s : Chronicle) (r : Request) (after : Store) : Prop where
  memory : WellFormed after.accounts
  pending : PendingPrimaries after
  accounts : ∀ k a, after.accounts.lookup k = some a → k ∈ draws r ∨
    ∃ b, s.service.store.accounts.lookup k = some b ∧ b.accountID = a.accountID ∧
      (b.verified = true → a.verified = true)

variable {r : Request} {after : Store}

theorem Grouped.idle (grouped : Grouped s) (accounts : after.accounts = s.service.store.accounts)
    (pending : ∀ k p, after.pending.lookup k = some p →
      ∃ q, s.service.store.pending.lookup k = some q) : Regroups s r after := by
  refine ⟨accounts ▸ grouped.memory, ?_, ?_⟩
  · intro u p found
    obtain ⟨q, before⟩ := pending u p found
    rw [accounts]
    exact grouped.pending u q before
  · rw [accounts]
    exact fun k a found => .inr ⟨a, found, rfl, id⟩

/-- A record takes the place of an older one, with the same names. -/
theorem Grouped.update (grouped : Grouped s) {a b : Account}
    (found : s.service.store.accounts.lookup k = some b)
    (accounts : after.accounts = s.service.store.accounts.insert k a)
    (userID : a.userID = b.userID) (accountID : a.accountID = b.accountID)
    (phoneHash : a.phoneHashB64 = b.phoneHashB64) (verified : b.verified = true → a.verified = true)
    (pending : ∀ u p, after.pending.lookup u = some p →
      s.service.store.pending.lookup u = some p ∧ (u = k → a.verified = b.verified)) :
    Regroups s r after := by
  refine ⟨?_, ?_, ?_⟩
  · rw [accounts]
    exact grouped.memory.update found userID accountID phoneHash verified
  · intro u p pended
    obtain ⟨before, same⟩ := pending u p pended
    obtain ⟨c, record, unverified, own⟩ := grouped.pending u p before
    rw [accounts, FinMap.lookup_insert_apply]
    split
    · next here =>
      subst here
      cases found.symm.trans record
      exact ⟨a, rfl, (same rfl).trans unverified, accountID.trans own⟩
    · exact ⟨c, record, unverified, own⟩
  · intro j c record
    rw [accounts, FinMap.lookup_insert_apply] at record
    split at record
    · next here =>
      cases record
      exact .inr ⟨b, here ▸ found, accountID.symm, verified⟩
    · exact .inr ⟨c, record, rfl, id⟩

/-- A new device takes a name that nobody has. -/
theorem Grouped.insert (grouped : Grouped s) {a : Account} (new : k ∉ s.drawn)
    (member : k ∈ draws r) (userID : a.userID = k)
    (accounts : after.accounts = s.service.store.accounts.insert k a)
    (rooted : k = a.accountID ∨ a.verified = true ∧ a.phoneHashB64 = "" ∧
      ∃ root, s.service.store.accounts.lookup a.accountID = some root ∧
        root.accountID = a.accountID ∧ root.verified = true)
    (pending : ∀ u p, after.pending.lookup u = some p →
      s.service.store.pending.lookup u = some p ∨ u = k ∧ a.verified = false ∧ a.accountID = k) :
    Regroups s r after := by
  have nonempty : k ≠ "" := by
    rintro rfl
    exact new grouped.empty
  have unused (b : Account) : s.service.store.accounts.lookup k ≠ some b :=
    fun found => new (grouped.drawn k b found)
  refine ⟨?_, ?_, ?_⟩
  · rw [accounts]
    exact grouped.memory.insert ⟨userID, nonempty⟩ rooted fun b found => absurd found (unused b)
  · intro u p pended
    rw [accounts, FinMap.lookup_insert_apply]
    rcases pending u p pended with before | ⟨rfl, unverified, own⟩
    · obtain ⟨b, record, unverified, own⟩ := grouped.pending u p before
      split
      · next here => exact absurd (here ▸ record) (unused b)
      · exact ⟨b, record, unverified, own⟩
    · exact ⟨a, if_pos rfl, unverified, own⟩
  · intro j b found
    rw [accounts, FinMap.lookup_insert_apply] at found
    split at found
    · next here => exact .inl (here ▸ member)
    · exact .inr ⟨b, found, rfl, id⟩

/-- A whole group goes. -/
theorem Grouped.delete (grouped : Grouped s) {accountID : String}
    (accounts : ∀ k a, after.accounts.lookup k = some a ↔
      s.service.store.accounts.lookup k = some a ∧ a.accountID ≠ accountID)
    (pending : ∀ k p, after.pending.lookup k = some p →
      s.service.store.pending.lookup k = some p ∧
        ∀ a, s.service.store.accounts.lookup k = some a → a.accountID ≠ accountID) :
    Regroups s r after := by
  refine ⟨?_, ?_, ?_⟩
  · refine grouped.memory.restrict (fun k a found => ((accounts k a).mp found).1) ?_
    intro k a root found above primary
    refine (accounts a.accountID root).mpr ⟨above, ?_⟩
    rw [primary]
    exact ((accounts k a).mp found).2
  · intro u p pended
    obtain ⟨before, spared⟩ := pending u p pended
    obtain ⟨b, record, unverified, own⟩ := grouped.pending u p before
    exact ⟨b, (accounts u b).mpr ⟨record, spared b record⟩, unverified, own⟩
  · exact fun k a found => .inr ⟨a, ((accounts k a).mp found).1, rfl, id⟩

/-- A device goes that is not the primary of its group. -/
theorem Grouped.remove (grouped : Grouped s) {target : String} {acct : Account}
    (found : s.service.store.accounts.lookup target = some acct)
    (secondary : target ≠ acct.accountID)
    (accounts : after.accounts = s.service.store.accounts.erase target)
    (pending : after.pending = s.service.store.pending.erase target) : Regroups s r after := by
  have kept {j : String} {b : Account} (there : after.accounts.lookup j = some b) :
      s.service.store.accounts.lookup j = some b := by
    rw [accounts, FinMap.lookup_erase_apply] at there
    split at there
    · cases there
    · exact there
  refine ⟨?_, ?_, fun j b there => .inr ⟨b, kept there, rfl, id⟩⟩
  · refine grouped.memory.restrict (fun j b there => kept there) ?_
    intro j b root _ above primary
    rw [accounts, FinMap.lookup_erase_apply]
    split
    · next gone =>
      -- the removed device would be its own account
      rw [gone] at above primary
      cases found.symm.trans above
      exact absurd primary.symm secondary
    · exact above
  · intro u p pended
    rw [pending, FinMap.lookup_erase_apply] at pended
    split at pended
    · cases pended
    · next other =>
      obtain ⟨b, record, unverified, own⟩ := grouped.pending u p pended
      refine ⟨b, ?_, unverified, own⟩
      rw [accounts, AList.lookup_erase_ne other]
      exact record

theorem Grouped.regroups (grouped : Grouped s) (new : ∀ u ∈ draws r, u ∉ s.drawn)
    (handled : Handled s.service.store r after) : Regroups s r after := by
  cases handled with
  | idle _ _ accounts pending =>
    exact grouped.idle accounts fun k p found => ⟨p, pending ▸ found⟩
  | register _ accounts pending =>
    refine grouped.insert (new _ List.mem_cons_self) List.mem_cons_self rfl accounts (.inl rfl) ?_
    intro u p pended
    rw [pending, FinMap.lookup_insert_apply] at pended
    split at pended
    · next here => exact .inr ⟨here, rfl, rfl⟩
    · exact .inl pended
  | refused _ _ accounts pending =>
    exact grouped.idle accounts fun k p found => ⟨p, (pending k p found).1⟩
  | wrong found _ _ _ accounts pending =>
    refine grouped.idle accounts fun k p pended => ?_
    rcases pending with ⟨gone, -⟩ | ⟨counted, -⟩
    · rw [gone, FinMap.lookup_erase_apply] at pended
      split at pended
      · cases pended
      · exact ⟨p, pended⟩
    · rw [counted, FinMap.lookup_insert_apply] at pended
      split at pended
      · next here => exact ⟨_, here ▸ found⟩
      · exact ⟨p, pended⟩
  | missing _ _ _ _ _ accounts pending =>
    exact grouped.idle accounts fun k p found => ⟨p, pending ▸ found⟩
  | verify _ _ _ record _ accounts pending =>
    refine grouped.update record accounts rfl rfl rfl (fun _ => rfl) ?_
    intro u p pended
    rw [pending, FinMap.lookup_erase_apply] at pended
    split at pended
    · cases pended
    · next other => exact ⟨pended, fun here => absurd here other⟩
  | expired _ accounts pending =>
    exact grouped.idle accounts fun k p found => ⟨p, pending ▸ found⟩
  | linkDevice alive _ primary _ accounts pending =>
    obtain ⟨own, verified⟩ := (grouped.tokens _ _ alive).primary _ primary
    refine grouped.insert (new _ List.mem_cons_self) List.mem_cons_self rfl accounts
      (.inr ⟨rfl, rfl, _, primary, own, verified⟩) ?_
    exact fun u p pended => .inl (pending ▸ pended)
  | deleteAccount _ accounts pending => exact grouped.delete accounts pending
  | removeDevice found secondary accounts pending =>
    exact grouped.remove found secondary accounts pending
  | pool _ _ _ found accounts pending =>
    refine grouped.update found accounts rfl rfl rfl id ?_
    exact fun u p pended => ⟨pending ▸ pended, fun _ => rfl⟩

theorem Grouped.request (grouped : Grouped s) {wrote : Bool} (fits : s.fits r = true) :
    Grouped (s.request r wrote) := by
  simp only [Chronicle.fits, Bool.and_eq_true, Bool.not_eq_true', List.all_eq_true,
    decide_eq_true_eq] at fits
  obtain ⟨unminted, new⟩ := fits
  have regroups := grouped.regroups new (handle_handled s.service wrote unminted)
  have keeps := (handle_credentials s.service r wrote).linkTokens unminted
  refine grouped.next wrote ⟨?_, ?_⟩ regroups.memory ?_ regroups.pending
    (handle_path ..) (handle_disk ..) (fun t lt found => .inl (keeps t lt found))
    (fun _ _ _ found => .inl found)
  · exact fun u drawn => List.mem_append_right _ drawn
  · intro k a found
    exact (regroups.accounts k a found).imp (new k) id
  · intro k a found
    rcases regroups.accounts k a found with drawn | ⟨b, before, -⟩
    · exact List.mem_append_left _ drawn
    · exact List.mem_append_right _ (grouped.drawn k b before)

/-- The `linkToken` handler between its sections. -/
theorem Grouped.handler (grouped : Grouped s) {s' : Chronicle} (service : s'.service = s.service)
    (drawn : s'.drawn = s.drawn)
    (calls : ∀ n u accountID, s'.calls.lookup n = some (.resolved u accountID) →
      s.calls.lookup n = some (.resolved u accountID) ∨ Joinable s accountID) : Grouped s' := by
  refine grouped.next false ⟨?_, ?_⟩ ?_ ?_ ?_ ?_ ?_ ?_ calls
  · rw [drawn]
    exact fun _ member => member
  · rw [service]
    exact fun k a found => .inr ⟨a, found, rfl, id⟩
  · rw [service]
    exact grouped.memory
  · rw [service, drawn]
    exact grouped.drawn
  · rw [service]
    exact grouped.pending
  · rw [service]
  · exact .inl (by rw [service])
  · rw [service]
    exact fun _ _ found => .inl found

theorem Grouped.accountIDFor (grouped : Grouped s) (call : Nat) (userID : String) :
    Grouped (s.accountIDFor call userID) := by
  unfold Chronicle.accountIDFor
  split
  · next accountID answered =>
    refine grouped.handler rfl rfl ?_
    intro n u accountID' found
    rw [FinMap.lookup_insert_apply] at found
    split at found
    · cases found
      right
      unfold Store.accountIDFor at answered
      split at answered
      · cases answered
      · next a record =>
        split at answered
        · next verified =>
          cases answered
          obtain ⟨root, above, primary, linked⟩ := grouped.memory.primary userID a record
          refine ⟨grouped.drawn _ root above, ?_⟩
          intro b same
          cases above.symm.trans same
          refine ⟨primary, ?_⟩
          by_cases own : userID = a.accountID
          · rw [own] at record
            cases above.symm.trans record
            exact verified
          · exact (linked own).2.2
        · cases answered
    · exact .inl found
  · refine grouped.handler rfl rfl ?_
    intro n u accountID found
    rw [FinMap.lookup_erase_apply] at found
    split at found
    · cases found
    · exact .inl found

theorem Grouped.createLinkToken (grouped : Grouped s) {call : Nat} {userID accountID : String}
    (called : s.calls.lookup call = some (.resolved userID accountID)) (token : String)
    (now : Int) : Grouped (s.createLinkToken call accountID token now) := by
  refine grouped.next false ⟨?_, ?_⟩ grouped.memory ?_ grouped.pending rfl (.inl rfl) ?_
    ?_
  · exact fun _ member => List.mem_cons_of_mem _ member
  · exact fun k a found => .inr ⟨a, found, rfl, id⟩
  · exact fun k a found => List.mem_cons_of_mem _ (grouped.drawn k a found)
  · intro t lt found
    simp only [Chronicle.createLinkToken, Service.handle, Store.createLinkToken,
      FinMap.lookup_insert_apply] at found
    split at found
    · cases found
      exact .inr (grouped.calls call userID accountID called)
    · exact .inl found
  · intro n u accountID' found
    simp only [Chronicle.createLinkToken, FinMap.lookup_erase_apply] at found
    split at found
    · cases found
    · exact .inl found

/-- A restart reads accounts back, and forgets everything else. -/
theorem Grouped.restart (grouped : Grouped s) (freshSalt : List UInt8) (readable : Bool) :
    Grouped (s.restart freshSalt readable) := by
  obtain ⟨pending, linkTokens⟩ := boot_empty s.service.store.path freshSalt
    (if readable then s.service.disk else none)
  have path : (s.restart freshSalt readable).service.store.path = s.service.store.path :=
    boot_path ..
  refine ⟨?_, ?_, ?_, ?_, ?_, grouped.empty, ?_, ?_⟩
  · cases readable with
    | true => exact grouped.file freshSalt
    | false =>
      refine wellFormed_empty.congr fun k => ?_
      simp only [Chronicle.restart, Bool.false_eq_true, ↓reduceIte, boot, Store.load, ite_self]
  · intro salt
    rw [path]
    exact grouped.file salt
  · intro u p found
    simp only [Chronicle.restart, pending] at found
    cases found
  · intro t lt found
    simp only [Chronicle.restart, linkTokens] at found
    cases found
  · intro n u accountID found
    cases found
  · intro k a found
    cases readable with
    | true => exact grouped.drawnOnFile freshSalt k a found
    | false =>
      simp only [Chronicle.restart, Bool.false_eq_true, ↓reduceIte, boot, Store.load,
        ite_self] at found
      cases found
  · intro salt
    rw [path]
    exact grouped.drawnOnFile salt

theorem step_grouped {a : DiscoveryHistory.Action} (grouped : Grouped s)
    (moved : s.step a = some s') : Grouped s' := by
  cases a with
  | request r wrote =>
    simp only [Chronicle.step, Option.ite_none_right_eq_some, Option.some.injEq] at moved
    obtain ⟨fits, rfl⟩ := moved
    exact grouped.request fits
  | linkToken token now =>
    cases moved
    unfold Chronicle.linkToken
    split
    · refine grouped.handler rfl rfl ?_
      intro n u accountID found
      rw [FinMap.lookup_insert_apply] at found
      split at found
      · cases found
      · exact .inl found
    · exact grouped
  | accountIDFor call =>
    simp only [Chronicle.step] at moved
    split at moved
    · cases moved
      exact grouped.accountIDFor call _
    · cases moved
  | createLinkToken call token now =>
    simp only [Chronicle.step] at moved
    split at moved
    · next called =>
      split at moved
      · cases moved
      · cases moved
        exact grouped.createLinkToken called token now
    · cases moved
  | restart freshSalt readable =>
    cases moved
    exact grouped.restart freshSalt readable

theorem reached_grouped (reached : chronicle.Reachable s) : Grouped s := by
  refine reached.invariant Grouped ?_ fun _ _ _ grouped _ moved => step_grouped grouped moved
  rintro s ⟨path, salt, rfl⟩
  have nothing (freshSalt : List UInt8) : (boot path freshSalt none).accounts = ∅ := by
    simp [boot, Store.load]
  refine ⟨wellFormed_empty, ?_, ?_, ?_, ?_, List.mem_cons_self, ?_, ?_⟩
  · intro freshSalt
    exact wellFormed_empty.congr fun k => by rw [← nothing freshSalt]; rfl
  · intro u p found
    cases found
  · intro t lt found
    cases found
  · intro n u accountID found
    cases found
  · intro k a found
    cases found
  · intro freshSalt k a found
    simp only [started, nothing] at found
    cases found

/-! ## What the device lists say -/

/-- The user is a verified device of the account. -/
def VerifiedDevice (accounts : Accounts) (userID accountID : String) : Prop :=
  ∃ a, accounts.lookup userID = some a ∧ a.verified = true ∧ a.accountID = accountID

variable {store : Store} {order : List (String × Account)} {order' : List Account} {u : String}

theorem mem_ranges (ranges : Ranges store order) :
    (k, a) ∈ order ↔ store.accounts.lookup k = some a := by
  rw [ranges.mem_iff, List.mem_map, ← Option.mem_def, AList.mem_lookup_iff]
  constructor
  · rintro ⟨⟨j, b⟩, inside, same⟩
    cases same
    exact inside
  · exact fun inside => ⟨⟨k, a⟩, inside, rfl⟩

theorem nodup_ranges (ranges : Ranges store order) : (order.map Prod.fst).Nodup := by
  have keys : (order.map Prod.fst).Perm store.accounts.keys := by
    refine (ranges.map Prod.fst).trans ?_
    rw [List.map_map]
    exact List.Perm.refl _
  exact keys.nodup_iff.mpr store.accounts.keys_nodup

theorem accountDevices_of_found (found : store.accounts.lookup k = some a) :
    store.accountDevices order k =
      (order.filter fun entry => entry.2.verified && entry.2.accountID = a.accountID).map
        fun entry => { userID := entry.1, deviceID := entry.2.deviceID,
                       primary := entry.1 = entry.2.accountID } := by
  unfold Store.accountDevices
  rw [found]

theorem mem_accountDevices (ranges : Ranges store order) (found : store.accounts.lookup k = some a)
    {device : DeviceInfo} : device ∈ store.accountDevices order k ↔
      ∃ b, store.accounts.lookup device.userID = some b ∧ b.verified = true ∧
        b.accountID = a.accountID ∧ device.deviceID = b.deviceID ∧
        device.primary = decide (device.userID = b.accountID) := by
  rw [accountDevices_of_found found, List.mem_map]
  constructor
  · rintro ⟨⟨id, b⟩, inside, rfl⟩
    obtain ⟨member, group⟩ := List.mem_filter.mp inside
    simp only [Bool.and_eq_true, decide_eq_true_eq] at group
    exact ⟨b, (mem_ranges ranges).mp member, group.1, group.2, rfl, rfl⟩
  · rintro ⟨b, record, verified, group, deviceID, primary⟩
    refine ⟨(device.userID, b), List.mem_filter.mpr ⟨(mem_ranges ranges).mpr record, ?_⟩, ?_⟩
    · simp [verified, group]
    · dsimp only
      rw [← deviceID, ← primary]

theorem nodup_accountDevices (ranges : Ranges store order)
    (found : store.accounts.lookup k = some a) :
    ((store.accountDevices order k).map (·.userID)).Nodup := by
  rw [accountDevices_of_found found, List.map_map]
  exact (nodup_ranges ranges).sublist ((List.filter_sublist).map _)

theorem mem_map_accountDevices (ranges : Ranges store order)
    (found : store.accounts.lookup k = some a) :
    u ∈ (store.accountDevices order k).map (·.userID) ↔
      VerifiedDevice store.accounts u a.accountID := by
  rw [List.mem_map]
  constructor
  · rintro ⟨device, member, rfl⟩
    obtain ⟨b, record, verified, group, -⟩ := (mem_accountDevices ranges found).mp member
    exact ⟨b, record, verified, group⟩
  · rintro ⟨b, record, verified, group⟩
    exact ⟨⟨u, b.deviceID, u = b.accountID⟩,
      (mem_accountDevices ranges found).mpr ⟨b, record, verified, group, rfl, rfl⟩, rfl⟩

theorem mem_devicesFor (formed : WellFormed store.accounts) (iterates : Iterates store order')
    (accountID : String) :
    u ∈ devicesFor order' accountID ↔ VerifiedDevice store.accounts u accountID := by
  unfold devicesFor
  rw [List.mem_map]
  constructor
  · rintro ⟨b, inside, rfl⟩
    obtain ⟨member, group⟩ := List.mem_filter.mp inside
    obtain ⟨j, record⟩ := FinMap.mem_values.mp (iterates.mem_iff.mp member)
    simp only [Bool.and_eq_true, decide_eq_true_eq] at group
    rw [← (formed.keyed j b record).1] at record
    exact ⟨b, record, group⟩
  · rintro ⟨b, record, verified, group⟩
    refine ⟨b, List.mem_filter.mpr ⟨?_, by simp [verified, group]⟩, (formed.keyed u b record).1⟩
    exact iterates.mem_iff.mpr (FinMap.mem_values.mpr ⟨u, record⟩)

/-- The primary of a verified device's account is verified. -/
theorem WellFormed.primary_verified (formed : WellFormed store.accounts)
    (found : store.accounts.lookup k = some a) (verified : a.verified = true) :
    VerifiedDevice store.accounts a.accountID a.accountID := by
  obtain ⟨root, above, primary, linked⟩ := formed.primary k a found
  refine ⟨root, above, ?_, primary⟩
  by_cases own : k = a.accountID
  · rw [own] at found
    cases above.symm.trans found
    exact verified
  · exact (linked own).2.2

/-- One device of the list is flagged, and it is the primary. -/
theorem flagged_accountDevices (formed : WellFormed store.accounts) (ranges : Ranges store order)
    (found : store.accounts.lookup k = some a) (verified : a.verified = true) :
    ((store.accountDevices order k).filter (·.primary)).map (·.userID) = [a.accountID] := by
  apply List.perm_singleton.mp
  refine (List.perm_ext_iff_of_nodup ?_ (List.nodup_singleton _)).mpr ?_
  · exact (nodup_accountDevices ranges found).sublist (List.filter_sublist.map _)
  · intro u
    rw [List.mem_map, List.mem_singleton]
    constructor
    · rintro ⟨device, member, rfl⟩
      obtain ⟨inside, flagged⟩ := List.mem_filter.mp member
      obtain ⟨b, -, -, group, -, primary⟩ := (mem_accountDevices ranges found).mp inside
      rw [primary, decide_eq_true_eq] at flagged
      exact flagged.trans group
    · rintro rfl
      obtain ⟨root, above, rootVerified, primary⟩ := formed.primary_verified found verified
      refine ⟨⟨a.accountID, root.deviceID, true⟩, List.mem_filter.mpr ⟨?_, rfl⟩, rfl⟩
      exact (mem_accountDevices ranges found).mpr
        ⟨root, above, rootVerified, primary, rfl, by simp [primary]⟩

/-- **Account groups are well formed.** In every run, failing writes and restarts
included, every account belongs to one that is its own, the only primary of the
group; a device that is not the primary is verified, has an empty phone hash and a
verified primary; and every pending code belongs to a primary that is not
verified.  So `accountDevices` of a verified device lists every verified device of
the group once, flags its primary and no other, and names the same devices as
`devicesFor` of the account. -/
theorem account_groups_are_well_formed (reached : chronicle.Reachable s) :
    (∀ k a, s.service.store.accounts.lookup k = some a → a.userID = k ∧
      (∃ root, s.service.store.accounts.lookup a.accountID = some root ∧
        root.userID = a.accountID ∧ root.accountID = a.accountID ∧
        (a.userID ≠ a.accountID →
          a.verified = true ∧ a.phoneHashB64 = "" ∧ root.verified = true)) ∧
      ∀ j b, s.service.store.accounts.lookup j = some b → b.accountID = a.accountID →
        b.userID = b.accountID → j = a.accountID) ∧
    (∀ u p, s.service.store.pending.lookup u = some p →
      ∃ a, s.service.store.accounts.lookup u = some a ∧ a.verified = false ∧ a.accountID = u) ∧
    ∀ k a order order', s.service.store.accounts.lookup k = some a → a.verified = true →
      Ranges s.service.store order → Iterates s.service.store order' →
      ((s.service.store.accountDevices order k).map (·.userID)).Nodup ∧
      (∀ u, u ∈ (s.service.store.accountDevices order k).map (·.userID) ↔
        VerifiedDevice s.service.store.accounts u a.accountID) ∧
      ((s.service.store.accountDevices order k).filter (·.primary)).map (·.userID) =
        [a.accountID] ∧
      ∀ u, u ∈ (s.service.store.accountDevices order k).map (·.userID) ↔
        u ∈ devicesFor order' a.accountID := by
  have grouped := reached_grouped reached
  have formed := grouped.memory
  refine ⟨?_, grouped.pending, ?_⟩
  · intro k a found
    obtain ⟨root, above, primary, linked⟩ := formed.primary k a found
    have own := (formed.keyed k a found).1
    refine ⟨own, ⟨root, above, (formed.keyed _ root above).1, primary, ?_⟩, ?_⟩
    · rw [own]
      exact linked
    · intro j b record group self
      rw [← (formed.keyed j b record).1, self, group]
  · intro k a order order' found verified ranges iterates
    refine ⟨nodup_accountDevices ranges found, fun u => mem_map_accountDevices ranges found,
      flagged_accountDevices formed ranges found verified, ?_⟩
    intro u
    rw [mem_map_accountDevices ranges found, mem_devicesFor formed iterates]

/-- A phone registers and links a laptop, over a file that cannot be written any
more when the laptop is removed. -/
def laptopComesBack : List DiscoveryHistory.Action :=
  [ .request (.register (deviceKeys "+15550100") "phone" "000000" 0) true,
    .request (.verify "phone" "000000" 0) true,
    .linkToken ⟨"phone", "access", accessTTL⟩ 0,
    .accountIDFor 0,
    .createLinkToken 0 "link" 0,
    .request (.linkDevice "link" (deviceKeys "") "laptop" 0) true,
    .request (.removeDevice "phone" "laptop") false,
    .restart [3, 4] true ]

theorem returned_laptop_is_listed : ∃ s, chronicle.Reachable s ∧
    ((s.service.store.accounts.lookup "laptop").map (·.accountID) = some "phone") ∧
    ∀ a order order', s.service.store.accounts.lookup "laptop" = some a → a.verified = true →
      Ranges s.service.store order → Iterates s.service.store order' →
      ((s.service.store.accountDevices order "laptop").map (·.userID)).Nodup ∧
      (∀ u, u ∈ (s.service.store.accountDevices order "laptop").map (·.userID) ↔
        VerifiedDevice s.service.store.accounts u a.accountID) ∧
      ((s.service.store.accountDevices order "laptop").filter (·.primary)).map (·.userID) =
        [a.accountID] ∧
      ∀ u, u ∈ (s.service.store.accountDevices order "laptop").map (·.userID) ↔
        u ∈ devicesFor order' a.accountID := by
  have observed : (chronicle.run { service := started "discovery.json" [1, 2] }
      laptopComesBack).map (fun s =>
        (s.service.store.accounts.lookup "laptop").map (·.accountID)) = some (some "phone") := by
    decide +kernel
  obtain ⟨s, ran, seen⟩ := Option.map_eq_some_iff.mp observed
  have reached := Machine.reachable_of_run (m := chronicle)
    ⟨"discovery.json", [1, 2], rfl⟩ laptopComesBack ran
  exact ⟨s, reached, seen, (account_groups_are_well_formed reached).2.2 "laptop"⟩

end Hwfa.DiscoveryGroups
