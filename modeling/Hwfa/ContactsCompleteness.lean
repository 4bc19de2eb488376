import Mathlib.Data.List.Dedup
import Mathlib.Algebra.Order.BigOperators.Group.List
import Mathlib.Data.Nat.Digits.Defs
import Hwfa.ContactsDiscovery

/-!
When a scan of many numbers finds every account.

`discoverContacts` sends the hashes of all numbers in one batch, which Discovery
refuses beyond `maxIntersectHashes`; the client's table has one number for each
hash, and the index of Discovery one account.
-/

namespace Hwfa.ContactsCompleteness

open Hwfa.Maps Hwfa.Machines Hwfa.Json Hwfa.DiscoveryStore Hwfa.DiscoveryService
open Hwfa.DiscoveryDirectory Hwfa.ClientHashing Hwfa.ContactsDiscovery

/-- The client's hash of a number. -/
def hashOf (store : Store) (host : Host) (number : Text) : Option Text :=
  ClientHashing.hashPhone host (utf16 store.saltB64) number

/-- The hash of the number is a verified account's. -/
def Belongs (store : Store) (host : Host) (number : Text) (u : String) : Prop :=
  ∃ hash, hashOf store host number = some hash ∧ ∃ acct ∈ store.accounts.values,
    acct.verified = true ∧ acct.phoneHashB64 = goString hash ∧ acct.userID = u

/-- The client is told of exactly the numbers whose hash is a verified account's, each
once, in whatever order Discovery goes through the accounts. -/
def Complete (store : Store) (caller : Caller) (numbers : List Text) : Prop :=
  ∀ order, Iterates store order → ∃ contacts,
    discoverContacts store caller order numbers = some contacts ∧
    (∀ number u, ⟨number, u⟩ ∈ contacts ↔ number ∈ numbers ∧ Belongs store caller.host number u) ∧
    (contacts.map (·.phoneNumber)).Nodup

/-- The hashes of the numbers, each once. -/
def hashes (store : Store) (host : Host) (numbers : List Text) : List Text :=
  (numbers.filterMap (hashOf store host)).dedup

/-- The distinct numbers fit in what the caller's budget has left. -/
def WithinBudget (store : Store) (caller : Caller) (numbers : List Text) : Prop :=
  (chargedWindow (store.intersectUse.lookup caller.userID) caller.now).used +
    (distinct numbers).length ≤ intersectBudget

/-- The numbers can be hashed and sent in one batch, and those that belong to an account
are not empty, belong to no other, and share their hash with no other of the numbers. -/
structure Manageable (store : Store) (caller : Caller) (numbers : List Text) : Prop where
  hashable : ∀ number ∈ numbers, (hashOf store caller.host number).isSome
  oneBatch : (hashes store caller.host numbers).length ≤ maxIntersectHashes
  full : ∀ number ∈ numbers, ∀ u, Belongs store caller.host number u → number ≠ []
  alone : ∀ number ∈ numbers, ∀ u u', Belongs store caller.host number u →
    Belongs store caller.host number u' → u = u'
  apart : ∀ number ∈ numbers, ∀ number' ∈ numbers, ∀ u, Belongs store caller.host number u →
    hashOf store caller.host number = hashOf store caller.host number' → number = number'

variable {store : Store} {host : Host} {caller : Caller} {order : List Account}
variable {numbers : List Text} {acct : Account} {table : FinMap Text Text} {number hash : Text} {u : String}

/-! ### The table of hashes -/

/-- The table can be built exactly if every number can be hashed. -/
theorem hashTable_isSome_iff : (hashTable store host numbers).isSome ↔
    ∀ number ∈ numbers, (hashOf store host number).isSome := by
  unfold hashTable
  generalize (∅ : FinMap Text Text) = start
  induction numbers generalizing start with
  | nil => simp
  | cons first rest ih =>
    rw [List.foldlM_cons, List.forall_mem_cons, hashOf]
    cases ClientHashing.hashPhone host (utf16 store.saltB64) first with
    | none => simp
    | some hash =>
      simp only [Option.bind_eq_bind, Option.bind_some, Option.isSome_some, true_and]
      exact ih _

/-- A number in the table stands for its own hash. -/
theorem hashOf_of_lookup (hashed : hashTable store host numbers = some table)
    (found : table.lookup hash = some number) : hashOf store host number = some hash := by
  suffices general : ∀ start : FinMap Text Text, numbers.foldlM (fun table phone => do
      let hash ← ClientHashing.hashPhone host (utf16 store.saltB64) phone
      some (table.put hash phone)) start = some table →
      start.lookup hash = some number ∨ hashOf store host number = some hash by
    exact (general ∅ hashed).elim (fun nothing => by cases nothing) id
  clear hashed
  induction numbers with
  | nil =>
    rintro start same
    cases same
    exact .inl found
  | cons first rest ih =>
    intro start hashed
    rw [List.foldlM_cons, Option.bind_eq_bind, Option.bind_eq_some_iff] at hashed
    obtain ⟨next, put, hashed⟩ := hashed
    rw [Option.bind_eq_bind, Option.bind_eq_some_iff] at put
    obtain ⟨own, hash_first, put⟩ := put
    cases put
    rcases ih _ hashed with here | stands
    · rw [FinMap.lookup_put_apply] at here
      split at here
      · next same =>
        cases here
        rw [same]
        exact .inr hash_first
      · exact .inl here
    · exact .inr stands

theorem mem_keys_iff (hashed : hashTable store host (distinct numbers) = some table) :
    hash ∈ table.keys ↔ ∃ number ∈ numbers, hashOf store host number = some hash := by
  rw [← AList.mem_keys, ← AList.lookup_isSome, (hashTable_lookup hashed hash).1]
  simp only [mem_distinct, hashOf]

/-- A hash comes back from Discovery as it was sent. -/
theorem utf16_goString (hashed : hashTable store host (distinct numbers) = some table)
    (key : hash ∈ table.keys) : utf16 (goString hash) = hash := by
  obtain ⟨number, -, own⟩ := (mem_keys_iff hashed).mp key
  rw [hashOf, hashPhone_saltB64] at own
  obtain ⟨digest, -, rfl⟩ := Option.map_eq_some_iff.mp own
  rw [bytesToBase64, goString_utf16]

/-- The keys of the table are the hashes. -/
theorem length_keys (hashed : hashTable store host (distinct numbers) = some table) :
    table.keys.length = (hashes store host numbers).length := by
  refine List.Perm.length_eq ((List.perm_ext_iff_of_nodup table.nodupKeys (List.nodup_dedup _)).mpr ?_)
  intro hash
  rw [List.mem_dedup, List.mem_filterMap]
  exact mem_keys_iff hashed

theorem nodup_distinct (numbers : List Text) : (distinct numbers).Nodup := by
  unfold distinct
  refine List.foldlRecOn (motive := List.Nodup) numbers _ List.nodup_nil ?_
  intro seen fresh number _
  split
  · exact fresh
  · next new =>
    rw [List.contains_iff_mem] at new
    exact fresh.append (List.nodup_singleton number) (List.disjoint_singleton.mpr new)

/-- There are no more hashes than distinct numbers. -/
theorem length_hashes_le (numbers : List Text) :
    (hashes store host numbers).length ≤ (distinct numbers).length := by
  have among : (hashes store host numbers) ⊆ (distinct numbers).filterMap (hashOf store host) := by
    intro hash inside
    obtain ⟨number, listed, own⟩ := List.mem_filterMap.mp (List.mem_dedup.mp inside)
    exact List.mem_filterMap.mpr ⟨number, mem_distinct.mpr listed, own⟩
  exact (List.subperm_of_subset (List.nodup_dedup _) among).length_le.trans (List.length_filterMap_le _ _)

theorem accepts_iff (within : WithinBudget store caller numbers)
    (hashed : hashTable store caller.host (distinct numbers) = some table) :
    Accepts store caller table.keys.length ↔
      (hashes store caller.host numbers).length ≤ maxIntersectHashes := by
  have fewer : (hashes store caller.host numbers).length ≤ _ := length_hashes_le numbers
  have charged : (store.allowIntersect caller.userID table.keys.length caller.now).result = true := by
    unfold WithinBudget at within
    unfold Store.allowIntersect
    dsimp only
    rw [if_neg]
    rw [length_keys hashed]
    omega
  rw [Accepts, charged, length_keys hashed]
  exact and_iff_left rfl

/-! ### What the client is told -/

/-- A contact is a number of the table with the account that the index has for its hash. -/
theorem mem_namedContacts (hashed : hashTable store host (distinct numbers) = some table) :
    ⟨number, u⟩ ∈ namedContacts table (intersect order (table.keys.map goString)) ↔
      number ≠ [] ∧ ∃ hash, table.lookup hash = some number ∧
        (byHash order).lookup (goString hash) = some u := by
  constructor
  · intro told
    obtain ⟨⟨h, uid⟩, answered, kept⟩ := List.mem_filterMap.mp told
    obtain ⟨phone, found, same⟩ := Option.map_eq_some_iff.mp kept
    cases same
    obtain ⟨submitted, indexed⟩ := mem_intersect.mp answered
    obtain ⟨hash, key, rfl⟩ := List.mem_map.mp submitted
    rw [Option.filter_eq_some_iff, utf16_goString hashed key] at found
    exact ⟨by simpa using found.2, hash, found.1, indexed⟩
  · rintro ⟨full, hash, found, indexed⟩
    have key : hash ∈ table.keys :=
      AList.mem_keys.mp (AList.lookup_isSome.mp (Option.isSome_iff_exists.mpr ⟨number, found⟩))
    refine List.mem_filterMap.mpr ⟨⟨goString hash, u⟩, ?_, ?_⟩
    · exact mem_intersect.mpr ⟨List.mem_map_of_mem key, indexed⟩
    · rw [utf16_goString hashed key, found, Option.filter_some, if_pos (by simpa using full), Option.map_some]

/-- Every number is told at most once. -/
theorem nodup_namedContacts (hashed : hashTable store host (distinct numbers) = some table)
    (order : List Account) :
    ((namedContacts table (intersect order (table.keys.map goString))).map (·.phoneNumber)).Nodup := by
  have apart : ((intersect order (table.keys.map goString)).map (·.phoneHashB64)).Nodup :=
    nodup_intersect
  rw [List.Nodup, List.pairwise_map] at apart
  rw [List.Nodup, List.pairwise_map, namedContacts, List.pairwise_filterMap]
  refine apart.imp_of_mem ?_
  -- A number stands for its own hash only.
  intro m m' member member' differ c kept c' kept' same
  obtain ⟨hash, key, own⟩ := List.mem_map.mp (mem_intersect.mp member).1
  obtain ⟨hash', key', own'⟩ := List.mem_map.mp (mem_intersect.mp member').1
  obtain ⟨phone, found, rfl⟩ := Option.map_eq_some_iff.mp kept
  obtain ⟨phone', found', rfl⟩ := Option.map_eq_some_iff.mp kept'
  rw [← own, utf16_goString hashed key, Option.filter_eq_some_iff] at found
  rw [← own', utf16_goString hashed key', Option.filter_eq_some_iff] at found'
  obtain rfl : phone = phone' := same
  have hashes := hashOf_of_lookup hashed found.1
  rw [hashOf_of_lookup hashed found'.1, Option.some.injEq] at hashes
  rw [← own, ← own', hashes] at differ
  exact differ rfl

/-- What a number belongs to is in the index, in some account's name. -/
theorem Belongs.indexed (belongs : Belongs store host number u) (iterates : Iterates store order) :
    ∃ hash u', hashOf store host number = some hash ∧
      (byHash order).lookup (goString hash) = some u' := by
  obtain ⟨hash, own, acct, inside, verified, carried, -⟩ := belongs
  obtain ⟨u', indexed⟩ := exists_lookup_byHash (iterates.mem_iff.mpr inside) verified
  exact ⟨hash, u', own, carried ▸ indexed⟩

theorem belongs_of_indexed (iterates : Iterates store order)
    (own : hashOf store host number = some hash)
    (indexed : (byHash order).lookup (goString hash) = some u) : Belongs store host number u := by
  obtain ⟨acct, inside, verified, carried, same⟩ := lookup_byHash indexed
  exact ⟨hash, own, acct, iterates.mem_iff.mp inside, verified, carried, same⟩

/-- In a manageable scan the client is told of exactly what belongs. -/
theorem Manageable.told (manageable : Manageable store caller numbers)
    (hashed : hashTable store caller.host (distinct numbers) = some table)
    (iterates : Iterates store order) :
    ⟨number, u⟩ ∈ namedContacts table (intersect order (table.keys.map goString)) ↔
      number ∈ numbers ∧ Belongs store caller.host number u := by
  rw [mem_namedContacts hashed]
  constructor
  · rintro ⟨-, hash, found, indexed⟩
    exact ⟨mem_distinct.mp ((hashTable_lookup hashed hash).2 number found),
      belongs_of_indexed iterates (hashOf_of_lookup hashed found) indexed⟩
  · rintro ⟨listed, belongs⟩
    obtain ⟨hash, u', own, indexed⟩ := belongs.indexed iterates
    have present := (hashTable_lookup hashed hash).1.mpr ⟨number, mem_distinct.mpr listed, own⟩
    obtain ⟨number', found⟩ := Option.isSome_iff_exists.mp present
    have listed' := mem_distinct.mp ((hashTable_lookup hashed hash).2 number' found)
    have own' := hashOf_of_lookup hashed found
    obtain rfl := manageable.apart number listed number' listed' u belongs (own.trans own'.symm)
    obtain rfl := manageable.alone number listed u u' belongs (belongs_of_indexed iterates own indexed)
    exact ⟨manageable.full number listed u belongs, hash, found, indexed⟩

/-- What a complete scan says of the table. -/
theorem Complete.manageable (complete : Complete store caller numbers)
    (hashed : hashTable store caller.host (distinct numbers) = some table)
    (oneBatch : (hashes store caller.host numbers).length ≤ maxIntersectHashes)
    (computed : ∀ contacts, discoverContacts store caller store.accounts.values numbers = some contacts →
      contacts = namedContacts table (intersect store.accounts.values (table.keys.map goString))) :
    Manageable store caller numbers := by
  obtain ⟨contacts, found, told, once⟩ := complete _ (.refl _)
  have same := computed contacts found
  have stands {number u} (listed : number ∈ numbers) (belongs : Belongs store caller.host number u) :
      number ≠ [] ∧ ∃ hash, table.lookup hash = some number := by
    have inside := (told number u).mpr ⟨listed, belongs⟩
    rw [same, mem_namedContacts hashed] at inside
    obtain ⟨full, hash, held, -⟩ := inside
    exact ⟨full, hash, held⟩
  refine ⟨?_, oneBatch, ?_, ?_, ?_⟩
  · intro number listed
    have some_table := Option.isSome_iff_exists.mpr ⟨table, hashed⟩
    exact hashTable_isSome_iff.mp some_table number (mem_distinct.mpr listed)
  · intro number listed u belongs
    exact (stands listed belongs).1
  · intro number listed u u' belongs belongs'
    have first := (told number u).mpr ⟨listed, belongs⟩
    have second := (told number u').mpr ⟨listed, belongs'⟩
    have one := List.inj_on_of_nodup_map once first second rfl
    exact congrArg Contact.userId one
  · intro number listed number' listed' u belongs alike
    have belongs' : Belongs store caller.host number' u := by
      obtain ⟨hash, own, carried⟩ := belongs
      exact ⟨hash, alike.symm.trans own, carried⟩
    obtain ⟨-, hash, held⟩ := stands listed belongs
    obtain ⟨-, hash', held'⟩ := stands listed' belongs'
    have own := hashOf_of_lookup hashed held
    rw [alike, hashOf_of_lookup hashed held', Option.some.injEq] at own
    rw [own, held, Option.some.injEq] at held'
    exact held'

/-- A scan of some numbers sends all their hashes at once. -/
theorem discoverContacts_eq (some_left : distinct numbers ≠ []) (order : List Account) :
    discoverContacts store caller order numbers =
      (hashTable store caller.host (distinct numbers)).bind fun table =>
        (respond store caller order (table.keys.map goString)).bind fun answer =>
          some (namedContacts table answer) := by
  simp only [discoverContacts, some_left, if_false]
  rfl

theorem Complete.toManageable (complete : Complete store caller numbers)
    (within : WithinBudget store caller numbers) (some_left : distinct numbers ≠ []) :
    Manageable store caller numbers := by
  obtain ⟨contacts, found, -⟩ := complete _ (.refl _)
  rw [discoverContacts_eq some_left, Option.bind_eq_some_iff] at found
  obtain ⟨table, hashed, found⟩ := found
  obtain ⟨answer, responded, -⟩ := Option.bind_eq_some_iff.mp found
  rw [respond_eq_some, List.length_map] at responded
  have accepted := responded.1
  refine complete.manageable hashed ((accepts_iff within hashed).mp accepted) ?_
  intro contacts' found'
  rw [discoverContacts_eq some_left, hashed, Option.bind_some, respond_eq_some.mpr ⟨_, rfl⟩] at found'
  · exact (Option.some.inj found').symm
  · rw [List.length_map]
    exact accepted

theorem Manageable.complete (manageable : Manageable store caller numbers)
    (within : WithinBudget store caller numbers) (some_left : distinct numbers ≠ []) :
    Complete store caller numbers := by
  intro order iterates
  have some_table : (hashTable store caller.host (distinct numbers)).isSome :=
    hashTable_isSome_iff.mpr fun number listed => manageable.hashable number (mem_distinct.mp listed)
  obtain ⟨table, hashed⟩ := Option.isSome_iff_exists.mp some_table
  have accepts := (accepts_iff within hashed).mpr manageable.oneBatch
  refine ⟨namedContacts table (intersect order (table.keys.map goString)), ?_, ?_, ?_⟩
  · rw [discoverContacts_eq some_left, hashed, Option.bind_some, respond_eq_some.mpr ⟨_, rfl⟩]
    · rfl
    · rw [List.length_map]
      exact accepts
  · exact fun number u => manageable.told hashed iterates
  · exact nodup_namedContacts hashed order

theorem eq_nil_of_distinct (none_left : distinct numbers = []) : numbers = [] := by
  rw [List.eq_nil_iff_forall_not_mem] at none_left ⊢
  exact fun number listed => none_left number (mem_distinct.mpr listed)

/-! ### Numbers in the directory -/

/-- The digits of a number, another for every contact. -/
def digitsOf (i : Nat) : List Char := '+' :: Nat.toDigits 10 (2348000000000 + i)

def numberOf (i : Nat) : Text := utf16 (String.ofList (digitsOf i))

theorem numberOf_injective : Function.Injective numberOf := by
  intro i j same
  have texts := congrArg goString same
  rw [numberOf, numberOf, goString_utf16, goString_utf16, String.ofList_inj, digitsOf, digitsOf,
    List.cons_inj_right] at texts
  have read := congrArg (Nat.ofDigitChars 10 · 0) texts
  rw [Nat.ofDigitChars_ten_toDigits, Nat.ofDigitChars_ten_toDigits] at read
  omega

/-- The numbers are short enough for the client to hash. -/
theorem length_utf8Encode_numberOf {i : Nat} (inside : i < maxIntersectHashes + 1) :
    (utf8Encode (numberOf i)).length ≤ 56 := by
  have digits : (Nat.toDigits 10 (2348000000000 + i)).length ≤ 13 := by
    apply Nat.toDigits_length _ _ _ (by decide)
    unfold maxIntersectHashes at inside
    omega
  rw [numberOf, utf8Encode_of_characters (characters_utf16 _), List.length_flatMap]
  have each : ∀ size ∈ (digitsOf i).map (fun c => (String.utf8EncodeChar c).length), size ≤ 4 := by
    intro size inside
    obtain ⟨c, -, rfl⟩ := List.mem_map.mp inside
    rw [String.length_utf8EncodeChar]
    exact c.utf8Size_le_four
  calc _ ≤ ((digitsOf i).map fun c => (String.utf8EncodeChar c).length).length • 4 :=
        List.sum_le_card_nsmul _ _ each
    _ ≤ 56 := by
      rw [List.length_map, digitsOf, List.length_cons]
      change (_ + 1) * 4 ≤ 56
      omega

/-- Someone who has not asked before. -/
def newcomer : Caller := ⟨⟨true⟩, "u2", 2⟩

/-- Any number may be registered and verified. -/
theorem exists_registered (phone : String) : ∃ s, service.Reachable s ∧ s.store.salt = [7] ∧
    s.store.intersectUse = ∅ ∧ ∃ acct, s.store.accounts.values = [acct] ∧ acct.verified = true ∧
      acct.phoneHashB64 = DiscoveryStore.hashPhone [7] phone := by
  have first : service.Reachable ((started "" [7]).handle true
      (.register (deviceKeys phone) "u1" "000000" 0)) :=
    .step (a := .request (.register (deviceKeys phone) "u1" "000000" 0) true)
      (.start ⟨"", [7], rfl⟩) trivial rfl
  refine ⟨_, .step (a := .request (.verify "u1" "000000" 1) true) first trivial rfl, ?_⟩
  simp only [Service.handle, Service.commit, Store.register, started, AList.lookup_empty,
    Option.any_none, Bool.false_eq_true, if_false, Store.verify, AList.lookup_insert]
  rw [if_neg (by decide), if_neg (by decide)]
  exact ⟨rfl, rfl, _, rfl, rfl, rfl⟩

/-- The hash depends on the salt of Discovery only. -/
theorem hashOf_salt {store' : Store} (same : store.salt = store'.salt) :
    hashOf store host = hashOf store' host := by
  funext number
  rw [hashOf, hashOf, Store.saltB64, Store.saltB64, same]

/-- The number of a contact belongs to the account that was registered with it. -/
theorem belongs_numberOf {i : Nat} (inside : i < maxIntersectHashes + 1) (salt : store.salt = [7])
    (member : acct ∈ store.accounts.values) (verified : acct.verified = true)
    (carried : acct.phoneHashB64 = DiscoveryStore.hashPhone [7] (String.ofList (digitsOf i)))
    (host : Host) : Belongs store host (numberOf i) acct.userID := by
  have short := length_utf8Encode_numberOf inside
  have alike : HashesAs store (numberOf i) (numberOf i) := by
    rw [HashesAs, sha256_eq, numberOf, goString_utf16, utf8_eq, utf8Encode_of_characters (characters_utf16 _),
      String.toList_ofList]
    rw [salt, List.length_append, List.length_singleton]
    omega
  obtain ⟨hash, hashed⟩ := alike.hash host
  have same := (hashesAs_iff hashed).mp alike
  rw [numberOf, goString_utf16, salt, ← carried] at same
  exact ⟨hash, hashed, acct, member, verified, same.symm, rfl⟩

/-! ### Completeness -/

/-- **A scan within the budget is complete exactly if one batch holds it.** In any state
of Discovery, whatever the numbers and however often each is listed, the client is told
of every number that belongs to a verified account, of no other and of none twice,
exactly when there are no more distinct hashes than `maxIntersectHashes`; besides, no
number is too long to be hashed, none that belongs to an account is empty, and no hash
is that of two accounts, or of two numbers of which one belongs to an account. -/
theorem scan_is_complete_iff (within : WithinBudget store caller numbers) :
    Complete store caller numbers ↔ Manageable store caller numbers := by
  by_cases none_left : distinct numbers = []
  · obtain rfl := eq_nil_of_distinct none_left
    refine iff_of_true ?_ ?_
    · intro order _
      exact ⟨[], rfl, by simp, List.nodup_nil⟩
    · exact ⟨by simp, Nat.zero_le _, by simp, by simp, by simp⟩
  · constructor
    · intro complete
      exact complete.toManageable within none_left
    · intro manageable
      exact manageable.complete within none_left

/-- A contact that is in the address book twice is told once. -/
theorem doubled_contact_is_told_once : ∃ s u, service.Reachable s ∧
    WithinBudget s.store newcomer [numberOf 0, numberOf 0] ∧
    Belongs s.store newcomer.host (numberOf 0) u ∧
    Complete s.store newcomer [numberOf 0, numberOf 0] := by
  obtain ⟨s, reachable, salt, unused, acct, only, verified, carried⟩ :=
    exists_registered (String.ofList (digitsOf 0))
  have once : distinct [numberOf 0, numberOf 0] = [numberOf 0] := by simp [distinct]
  have within : WithinBudget s.store newcomer [numberOf 0, numberOf 0] := by
    have unspent : (chargedWindow none newcomer.now).used = 0 := rfl
    rw [WithinBudget, unused, AList.lookup_empty, unspent, once]
    decide
  have belongs := belongs_numberOf (Nat.zero_lt_succ _) salt (only ▸ List.mem_singleton_self acct)
    verified carried newcomer.host
  have listed {number : Text} (member : number ∈ [numberOf 0, numberOf 0]) : number = numberOf 0 := by
    simpa using member
  have named {number : Text} {u : String} (owned : Belongs s.store newcomer.host number u) :
      u = acct.userID := by
    obtain ⟨-, -, held, inside, -, -, same⟩ := owned
    rw [only, List.mem_singleton] at inside
    rw [← same, inside]
  have few : (hashes s.store newcomer.host [numberOf 0, numberOf 0]).length ≤ 1 := by
    have fewer : (hashes s.store newcomer.host [numberOf 0, numberOf 0]).length ≤ _ :=
      length_hashes_le _
    rw [once] at fewer
    exact fewer
  refine ⟨s, acct.userID, reachable, within, belongs, (scan_is_complete_iff within).mpr
    { hashable := ?_, oneBatch := few.trans (by decide), full := ?_, alone := ?_, apart := ?_ }⟩
  · intro number member
    obtain ⟨hash, hashed, -⟩ := belongs
    rw [listed member, hashed]
    rfl
  · intro number member u owned
    rw [listed member]
    decide +kernel
  · intro number member u u' owned owned'
    rw [named owned, named owned']
  · intro number member number' member' u owned alike
    rw [listed member, listed member']

/-! ### A contact too many -/

/-- An address book with one contact more than a batch holds. -/
def addressBook : List Text := (List.range (maxIntersectHashes + 1)).map numberOf

theorem mem_addressBook {number : Text} :
    number ∈ addressBook ↔ ∃ i < maxIntersectHashes + 1, numberOf i = number := by
  simp only [addressBook, List.mem_map, List.mem_range]

theorem length_addressBook : addressBook.length = maxIntersectHashes + 1 := by
  rw [addressBook, List.length_map, List.length_range]

theorem nodup_addressBook : addressBook.Nodup :=
  List.nodup_range.map numberOf_injective

/-- A complete scan of the book would need that its numbers have different hashes, once
one of them is registered. -/
theorem exists_manageable (always : ∀ s, service.Reachable s → ∀ caller numbers,
      WithinBudget s.store caller numbers → Complete s.store caller numbers)
    {i : Nat} (inside : i < maxIntersectHashes + 1) : ∃ store : Store, store.salt = [7] ∧
      Manageable store newcomer addressBook ∧ ∃ u, Belongs store newcomer.host (numberOf i) u := by
  obtain ⟨s, reachable, salt, unused, acct, only, verified, carried⟩ :=
    exists_registered (String.ofList (digitsOf i))
  have some_left : distinct addressBook ≠ [] := by
    have listed : numberOf i ∈ addressBook := mem_addressBook.mpr ⟨i, inside, rfl⟩
    exact List.ne_nil_of_mem (mem_distinct.mpr listed)
  have within : WithinBudget s.store newcomer addressBook := by
    have fewer := (List.subperm_of_subset (nodup_distinct addressBook)
      fun number listed => mem_distinct.mp listed).length_le
    rw [length_addressBook] at fewer
    have unspent : (chargedWindow none newcomer.now).used = 0 := rfl
    rw [WithinBudget, unused, AList.lookup_empty, unspent, Nat.zero_add]
    exact fewer.trans (by decide)
  have complete := always s reachable newcomer addressBook within
  exact ⟨s.store, salt, complete.toManageable within some_left, acct.userID,
    belongs_numberOf inside salt (only ▸ List.mem_singleton_self acct) verified carried newcomer.host⟩

/-- Not every book within the budget is told in full: this one has no two numbers with
one hash, as either can be registered, and so too many hashes for a batch. -/
theorem long_book_is_not_complete : ¬ ∀ s, service.Reachable s → ∀ caller numbers,
    WithinBudget s.store caller numbers → Complete s.store caller numbers := by
  intro always
  obtain ⟨store, salt, manageable, -⟩ := exists_manageable always (Nat.zero_lt_succ _)
  have apart : ∀ number ∈ addressBook, ∀ number' ∈ addressBook,
      hashOf store newcomer.host number = hashOf store newcomer.host number' → number = number' := by
    intro number listed number' listed' alike
    obtain ⟨i, inside, rfl⟩ := mem_addressBook.mp listed
    obtain ⟨store', salt', manageable', u, belongs⟩ := exists_manageable always inside
    rw [hashOf_salt (salt.trans salt'.symm)] at alike
    exact manageable'.apart _ listed _ listed' u belongs alike
  have sent : (addressBook.map (hashOf store newcomer.host)).Nodup := nodup_addressBook.map_on apart
  have among : addressBook.map (hashOf store newcomer.host) ⊆
      (hashes store newcomer.host addressBook).map some := by
    intro hash inside
    obtain ⟨number, listed, rfl⟩ := List.mem_map.mp inside
    obtain ⟨own, hashed⟩ := Option.isSome_iff_exists.mp (manageable.hashable number listed)
    rw [hashed]
    exact List.mem_map_of_mem (List.mem_dedup.mpr (List.mem_filterMap.mpr ⟨number, listed, hashed⟩))
  have fewer := (List.subperm_of_subset sent among).length_le
  have oneBatch := manageable.oneBatch
  rw [List.length_map, List.length_map, length_addressBook] at fewer
  omega

end Hwfa.ContactsCompleteness
