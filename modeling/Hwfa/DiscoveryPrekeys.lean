import Hwfa.DiscoveryRecords

/-!
Conservation of one-time prekeys.

For each account, what the log says was handed out, followed by the pool, is what
the log says was supplied: the registered list, then the uploads.  The same holds
of the account's record in the file, which is why a restart reissues nothing.
A slice that is re-sliced on consume and appended to on upload is a list here:
`register` copies the caller's keys, and nothing else keeps the array.
-/

namespace Hwfa.DiscoveryPrekeys

open Hwfa.Machines Hwfa.Maps Hwfa.DiscoveryStore Hwfa.DiscoveryService Hwfa.DiscoveryRecords

/-- The account an entry is about. -/
def subject : Entry → String
  | .registered userID _ | .verified userID _ | .linked userID _ | .served userID _
  | .uploaded userID _ => userID

/-- The one-time prekey a bundle carries. -/
def oneTimeOf (bundle : PublishedKeyBundle) : List OneTimePreKey :=
  match bundle.oneTimePreKeyID, bundle.oneTimePreKeyPublicB64 with
  | some id, some publicB64 => [⟨id, publicB64⟩]
  | _, _ => []

def handedBy : Entry → List OneTimePreKey
  | .served _ bundle => oneTimeOf bundle
  | _ => []

def suppliedBy : Entry → List OneTimePreKey
  | .registered _ req | .linked _ req => req.oneTimePreKeys
  | .uploaded _ keys => keys
  | _ => []

def longTermBy : Entry → Option PublishedKeyBundle
  | .registered userID req => some (longTermBundle (newAccount userID "" req))
  | .linked userID req => some (longTermBundle (linkedAccount userID "" req))
  | _ => none

/-- The entries about one account, the oldest first. -/
def about (log : List Entry) (userID : String) : List Entry :=
  log.filter fun entry => subject entry = userID

/-- The one-time prekeys handed out so far, in order. -/
def handedOut (log : List Entry) (userID : String) : List OneTimePreKey :=
  (about log userID).flatMap handedBy

/-- The registered one-time prekeys followed by the uploads. -/
def supplied (log : List Entry) (userID : String) : List OneTimePreKey :=
  (about log userID).flatMap suppliedBy

/-- The long-term fields an account was registered with. -/
def registeredBundle (log : List Entry) (userID : String) : Option PublishedKeyBundle :=
  (about log userID).findSome? longTermBy

/-- No account has had this id before. -/
def Unused (log : List Entry) (userID : String) : Prop := about log userID = []

instance (log : List Entry) (userID : String) : Decidable (Unused log userID) :=
  decidable_of_iff ((about log userID).isEmpty = true) List.isEmpty_iff

/-- Every file write goes through, and `newUUID` never repeats an id. -/
def Durable (s : Service) : Action → Prop
  | .request r wrote => wrote = true ∧
    match r with
    | .register _ userID _ _ | .linkDevice _ _ userID _ => Unused s.log userID
    | _ => True
  | .restart .. => True

instance (s : Service) (a : Action) : Decidable (Durable s a) := by
  unfold Durable
  split
  · refine @instDecidableAnd _ _ inferInstance ?_
    split <;> infer_instance
  · infer_instance

/-- The record conserves the one-time prekeys of its account and has kept the
long-term fields. -/
structure Conserves (log : List Entry) (userID : String) (acct : Account) : Prop where
  conserved : handedOut log userID ++ acct.oneTime = supplied log userID
  longTerm : registeredBundle log userID = some (longTermBundle acct)

/-- The salt has no part in it. -/
def Conserved (log : List Entry) (_salt : List UInt8) (acct : Account) : Prop :=
  Conserves log acct.userID acct

variable {s s' : Service} {log : List Entry} {userID : String} {acct : Account}

theorem about_append (log : List Entry) (entry : Entry) (userID : String) :
    about (log ++ [entry]) userID =
      about log userID ++ if subject entry = userID then [entry] else [] := by
  unfold about
  rw [List.filter_append]
  by_cases own : subject entry = userID <;> simp [own]

/-- An entry about another account changes nothing for this one. -/
theorem Conserves.other (conserves : Conserves log userID acct) {entry : Entry}
    (other : subject entry ≠ userID) : Conserves (log ++ [entry]) userID acct := by
  have same : about (log ++ [entry]) userID = about log userID := by
    rw [about_append, if_neg other, List.append_nil]
  refine ⟨?_, ?_⟩
  · unfold handedOut supplied
    rw [same]
    exact conserves.conserved
  · unfold registeredBundle
    rw [same]
    exact conserves.longTerm

/-- An entry about this account moves its prekeys from the supply to the pool
or from the pool to the requester. -/
theorem Conserves.own (conserves : Conserves log userID acct) {entry : Entry} {acct' : Account}
    (own : subject entry = userID)
    (pool : ∀ handed, handed ++ handedBy entry ++ acct'.oneTime =
      handed ++ acct.oneTime ++ suppliedBy entry)
    (longTerm : longTermBundle acct' = longTermBundle acct) :
    Conserves (log ++ [entry]) userID acct' := by
  have grown : about (log ++ [entry]) userID = about log userID ++ [entry] := by
    rw [about_append, if_pos own]
  refine ⟨?_, ?_⟩
  · unfold handedOut supplied
    rw [grown, List.flatMap_append, List.flatMap_append, List.flatMap_singleton,
      List.flatMap_singleton, pool]
    exact congrArg (· ++ suppliedBy entry) conserves.conserved
  · unfold registeredBundle
    rw [grown, List.findSome?_append, longTerm]
    have before := conserves.longTerm
    unfold registeredBundle at before
    rw [before]
    rfl

/-- A first entry about an account supplies exactly its pool. -/
theorem conserves_of_unused {entry : Entry} (unused : Unused log userID)
    (own : subject entry = userID) (handed : handedBy entry = [])
    (pool : suppliedBy entry = acct.oneTime)
    (longTerm : longTermBy entry = some (longTermBundle acct)) :
    Conserves (log ++ [entry]) userID acct := by
  have first : about (log ++ [entry]) userID = [entry] := by
    rw [about_append, if_pos own, show about log userID = [] from unused, List.nil_append]
  refine ⟨?_, ?_⟩
  · simp [handedOut, supplied, first, handed, pool]
  · simp [registeredBundle, first, longTerm]

/-- The record a request stores conserves, if the one it replaces did. -/
theorem stores_conserves {r : Request} {k : String} {entry : Entry} {wrote : Bool}
    (stores : Stores s.store r k acct entry) (kept : Kept Conserved s)
    (durable : Durable s (.request r wrote)) :
    subject entry = k ∧ Conserves (s.log ++ [entry]) k acct := by
  have before (acct : Account) (found : s.store.accounts.lookup k = some acct) :
      Conserves s.log k acct := by
    obtain ⟨keyed, conserves⟩ := kept.memory k acct found
    exact keyed ▸ conserves
  cases stores with
  | register => exact ⟨rfl, conserves_of_unused durable.2 rfl rfl rfl rfl⟩
  | linkDevice primary => exact ⟨rfl, conserves_of_unused durable.2 rfl rfl rfl rfl⟩
  | verify found =>
    exact ⟨rfl, (before _ found).own rfl (by simp [handedBy, suppliedBy]) rfl⟩
  | bundleFor found verified pool =>
    refine ⟨rfl, (before _ found).own rfl ?_ rfl⟩
    simp [handedBy, oneTimeOf, suppliedBy, pool]
  | addOneTime found =>
    exact ⟨rfl, (before _ found).own rfl (by simp [handedBy, suppliedBy]) rfl⟩

/-- No step loses, repeats or reorders a one-time prekey. -/
theorem step_conserved {a : Action} (kept : Kept Conserved s) (durable : Durable s a)
    (moved : s.step a = some s') : Kept Conserved s' := by
  refine kept.step moved (fun _ _ _ conserves => ⟨conserves.conserved, conserves.longTerm⟩)
    ?_ ?_ ?_ ?_
  · intro userID acct _ b _ _ conserves
    by_cases own : userID = b.userID
    · exact conserves.own own (by simp [handedBy, oneTimeOf, longTermBundle, suppliedBy]) rfl
    · exact conserves.other own
  · rintro r wrote k acct entry rfl stores
    have keyed := stores_keyed stores fun j b found => (kept.memory j b found).1
    obtain ⟨_, conserves⟩ := stores_conserves stores kept durable
    unfold Conserved
    rw [keyed]
    exact conserves
  · rintro r wrote k acct entry rfl stores j b found other conserves
    obtain ⟨own, _⟩ := stores_conserves stores kept durable
    refine conserves.other ?_
    rw [own, (kept.memory j b found).1]
    exact other.symm
  · rintro r k acct entry rfl
    exact absurd durable.1 (by simp)

theorem reached_conserved (reached : service.Reached Durable s) : Kept Conserved s :=
  reached.invariant (Kept Conserved) (fun _ started => kept_start started)
    fun _ _ _ kept durable moved => step_conserved kept durable moved

/-- A stored account conserves under the name it is stored under. -/
theorem lookup_conserves (reached : service.Reached Durable s)
    (found : s.store.accounts.lookup userID = some acct) : Conserves s.log userID acct := by
  obtain ⟨keyed, conserves⟩ := (reached_conserved reached).memory userID acct found
  exact keyed ▸ conserves

/-- What `bundleFor` returns of a stored account: its long-term fields, and the
head of its pool or nothing. -/
theorem bundleFor_result {store : Store} {bundle : PublishedKeyBundle}
    (served : (store.bundleFor userID).result = some bundle) :
    ∃ acct, store.accounts.lookup userID = some acct ∧ acct.verified = true ∧
      ((∃ otk rest, acct.oneTime = otk :: rest ∧
          bundle = { longTermBundle acct with
            oneTimePreKeyID := some otk.id
            oneTimePreKeyPublicB64 := some otk.publicB64 }) ∨
        acct.oneTime = [] ∧ bundle = longTermBundle acct) := by
  unfold Store.bundleFor at served
  split at served
  · cases served
  · next acct found =>
    split at served
    · next verified =>
      split at served
      · next pool =>
        cases served
        exact ⟨acct, found, verified, .inr ⟨pool, rfl⟩⟩
      · next otk rest pool =>
        cases served
        exact ⟨acct, found, verified, .inl ⟨otk, rest, pool, rfl⟩⟩
    · cases served

/-- **One-time prekeys are conserved.** In every run with durable writes and
fresh ids, for every account the one-time prekeys handed out so far followed by
the pool are the registered ones followed by the uploads, in order, restarts
included; and whatever bundle would be served next carries the registered
long-term fields, with the head of the pool in both one-time fields, or with
neither when the pool is empty. -/
theorem one_time_prekeys_conserved (reached : service.Reached Durable s) :
    (∀ userID acct, s.store.accounts.lookup userID = some acct →
      handedOut s.log userID ++ acct.oneTime = supplied s.log userID) ∧
    ∀ userID bundle, (s.store.bundleFor userID).result = some bundle →
      ∃ acct, s.store.accounts.lookup userID = some acct ∧
        registeredBundle s.log userID =
          some { bundle with oneTimePreKeyID := none, oneTimePreKeyPublicB64 := none } ∧
        bundle.oneTimePreKeyID = acct.oneTime.head?.map (·.id) ∧
        bundle.oneTimePreKeyPublicB64 = acct.oneTime.head?.map (·.publicB64) := by
  refine ⟨fun userID acct found => (lookup_conserves reached found).conserved, ?_⟩
  intro userID bundle served
  obtain ⟨acct, found, _, ⟨otk, rest, pool, rfl⟩ | ⟨pool, rfl⟩⟩ := bundleFor_result served
  · exact ⟨acct, found, (lookup_conserves reached found).longTerm, by rw [pool]; rfl,
      by rw [pool]; rfl⟩
  · exact ⟨acct, found, (lookup_conserves reached found).longTerm, by rw [pool]; rfl,
      by rw [pool]; rfl⟩

/-- The pool is drained across a restart and replenished. -/
def drainAndReplenish : List Action :=
  [ .request (.register (deviceKeys "+15550100" [⟨1, "b25l"⟩, ⟨2, "dHdv"⟩]) "u1" "000000" 0) true,
    .request (.verify "u1" "000000" 1) true,
    .request (.bundleFor "u1") true,
    .restart [9, 9] true,
    .request (.bundleFor "u1") true,
    .request (.bundleFor "u1") true,
    .request (.addOneTime "u1" [⟨3, "dGhyZWU="⟩, ⟨4, "Zm91cg=="⟩]) true,
    .request (.bundleFor "u1") true ]

theorem drained_pool_is_conserved : ∃ s, service.Reached Durable s ∧
    handedOut s.log "u1" = [⟨1, "b25l"⟩, ⟨2, "dHdv"⟩, ⟨3, "dGhyZWU="⟩] ∧
    (∀ userID acct, s.store.accounts.lookup userID = some acct →
      handedOut s.log userID ++ acct.oneTime = supplied s.log userID) ∧
    ∀ userID bundle, (s.store.bundleFor userID).result = some bundle →
      ∃ acct, s.store.accounts.lookup userID = some acct ∧
        registeredBundle s.log userID =
          some { bundle with oneTimePreKeyID := none, oneTimePreKeyPublicB64 := none } ∧
        bundle.oneTimePreKeyID = acct.oneTime.head?.map (·.id) ∧
        bundle.oneTimePreKeyPublicB64 = acct.oneTime.head?.map (·.publicB64) := by
  have observed : (service.checkedRun Durable (started "discovery.json" [1, 2]) drainAndReplenish).map
      (fun s => handedOut s.log "u1") = some [⟨1, "b25l"⟩, ⟨2, "dHdv"⟩, ⟨3, "dGhyZWU="⟩] := by
    decide +kernel
  obtain ⟨s, ran, handed⟩ := Option.map_eq_some_iff.mp observed
  have reached : service.Reached Durable s :=
    .checkedRun (.start ⟨"discovery.json", [1, 2], rfl⟩) drainAndReplenish ran
  exact ⟨s, reached, handed, one_time_prekeys_conserved reached⟩

end Hwfa.DiscoveryPrekeys
