import Hwfa.DiscoveryCredentials
import Hwfa.DiscoveryPrekeys

/-!
Where the keys of an account record come from.

The long-term keys of a record are those of a registration or a link under its
name, and every one-time prekey in its pool was supplied under its name; both
can be read off the log, also after restarts.
-/

namespace Hwfa.DiscoveryPublications

open Hwfa.Machines Hwfa.Maps Hwfa.DiscoveryStore Hwfa.DiscoveryService Hwfa.DiscoveryRecords
  Hwfa.DiscoveryCredentials Hwfa.DiscoveryPrekeys

/-- The identity key and the two signed prekeys, by their public halves. -/
structure LongTermKeys where
  identityKeyB64 : String
  signedPreKeyID : Int64
  signedPreKeyPublicB64 : String
  signedPreKeySignatureB64 : String
  kyberPreKeyID : Int64
  kyberPreKeyPublicB64 : String
  kyberPreKeySignatureB64 : String
  deriving DecidableEq

def requestKeys (req : RegisterRequest) : LongTermKeys where
  identityKeyB64 := req.identityKeyB64
  signedPreKeyID := req.signedPreKeyID
  signedPreKeyPublicB64 := req.signedPreKeyPublicB64
  signedPreKeySignatureB64 := req.signedPreKeySignatureB64
  kyberPreKeyID := req.kyberPreKeyID
  kyberPreKeyPublicB64 := req.kyberPreKeyPublicB64
  kyberPreKeySignatureB64 := req.kyberPreKeySignatureB64

def accountKeys (acct : Account) : LongTermKeys where
  identityKeyB64 := acct.identityKeyB64
  signedPreKeyID := acct.signedPreKeyID
  signedPreKeyPublicB64 := acct.signedPreKeyPublicB64
  signedPreKeySignatureB64 := acct.signedPreKeySignatureB64
  kyberPreKeyID := acct.kyberPreKeyID
  kyberPreKeyPublicB64 := acct.kyberPreKeyPublicB64
  kyberPreKeySignatureB64 := acct.kyberPreKeySignatureB64

/-- The long-term keys an entry publishes. -/
def publishedBy : Entry → Option LongTermKeys
  | .registered _ req => some (requestKeys req)
  | .linked _ req => some (requestKeys req)
  | _ => none

/-- The record's keys were published and supplied under its name. -/
structure Published (log : List Entry) (_salt : List UInt8) (acct : Account) : Prop where
  longTerm : ∃ entry ∈ log, subject entry = acct.userID ∧
    publishedBy entry = some (accountKeys acct)
  oneTime : ∀ otk ∈ acct.oneTime, ∃ entry ∈ log, subject entry = acct.userID ∧
    otk ∈ suppliedBy entry

variable {s s' : Service} {log more : List Entry} {salt : List UInt8} {acct acct' : Account}
variable {r : Request} {wrote : Bool} {entry : Entry}

theorem Published.later (published : Published log salt acct) :
    Published (log ++ more) salt acct := by
  obtain ⟨entry, member, own, keys⟩ := published.longTerm
  refine ⟨⟨entry, List.mem_append_left _ member, own, keys⟩, ?_⟩
  intro otk inside
  obtain ⟨entry, member, own, supplied⟩ := published.oneTime otk inside
  exact ⟨entry, List.mem_append_left _ member, own, supplied⟩

/-- A record that keeps its name and long-term keys, with a pool supplied by what
is logged. -/
theorem Published.update (published : Published log salt acct) (name : acct'.userID = acct.userID)
    (keys : accountKeys acct' = accountKeys acct)
    (pool : ∀ otk ∈ acct'.oneTime, otk ∈ acct.oneTime ∨
      subject entry = acct.userID ∧ otk ∈ suppliedBy entry) :
    Published (log ++ [entry]) salt acct' := by
  refine ⟨?_, ?_⟩
  · rw [name, keys]
    exact published.later.longTerm
  · intro otk inside
    rw [name]
    rcases pool otk inside with before | ⟨own, supplied⟩
    · exact published.later.oneTime otk before
    · exact ⟨entry, List.mem_append_right _ List.mem_cons_self, own, supplied⟩

/-- A new record has the keys of its own entry. -/
theorem published_of_entry (own : subject entry = acct.userID)
    (keys : publishedBy entry = some (accountKeys acct))
    (pool : suppliedBy entry = acct.oneTime) : Published (log ++ [entry]) salt acct := by
  have member : entry ∈ log ++ [entry] := List.mem_append_right _ List.mem_cons_self
  refine ⟨⟨entry, member, own, keys⟩, ?_⟩
  intro otk inside
  rw [← pool] at inside
  exact ⟨entry, member, own, inside⟩

theorem step_published {a : Action} (kept : Kept Published s) (moved : s.step a = some s') :
    Kept Published s' := by
  refine kept.step moved ?_ ?_ ?_ ?_ ?_
  · exact fun _ _ _ published => ⟨published.longTerm, published.oneTime⟩
  · exact fun _ _ _ _ _ _ published => published.later
  · intro r wrote k acct entry _ stores
    cases stores with
    | register => exact published_of_entry rfl rfl rfl
    | linkDevice => exact published_of_entry rfl rfl rfl
    | verify found =>
      have before := (kept.memory _ _ found).2
      exact before.update rfl rfl fun otk inside => .inl inside
    | bundleFor found _ pool =>
      have before := (kept.memory _ _ found).2
      refine before.update rfl rfl ?_
      intro otk inside
      rw [pool]
      exact .inl (List.mem_cons_of_mem _ inside)
    | addOneTime found =>
      obtain ⟨keyed, before⟩ := kept.memory _ _ found
      refine before.update rfl rfl ?_
      intro otk inside
      rcases List.mem_append.mp inside with held | added
      · exact .inl held
      · exact .inr ⟨keyed.symm, added⟩
  · exact fun _ _ _ _ _ _ _ _ _ _ _ published => published.later
  · exact fun _ _ _ _ _ _ _ _ _ _ _ published => published.later

/-- What a request logs when it succeeds. -/
def Says (r : Request) (entry : Entry) : Prop :=
  match r with
  | .register req userID _ _ => entry = .registered userID req
  | .linkDevice _ req userID _ => entry = .linked userID req
  | .addOneTime userID keys => entry = .uploaded userID keys
  | _ => publishedBy entry = none ∧ suppliedBy entry = []

/-- A new entry is what the request says, about a new name or a record that is
there. -/
theorem log_of_step (moved : s.step (.request r wrote) = some s') (member : entry ∈ s'.log) :
    entry ∈ s.log ∨ Says r entry ∧
      (subject entry ∈ draws r ∨ (s.store.accounts.lookup (subject entry)).isSome) := by
  cases step_moves moved with
  | idle _ _ _ _ same => exact .inl (same ▸ member)
  | serveReusable found =>
    rcases List.mem_append.mp member with before | new
    · exact .inl before
    · obtain rfl := List.mem_singleton.mp new
      exact .inr ⟨⟨rfl, rfl⟩, .inr (by rw [subject, found]; rfl)⟩
  | store stores _ _ _ _ appended =>
    rw [appended] at member
    rcases List.mem_append.mp member with before | new
    · exact .inl before
    · obtain rfl := List.mem_singleton.mp new
      right
      cases stores with
      | register => exact ⟨rfl, .inl List.mem_cons_self⟩
      | linkDevice => exact ⟨rfl, .inl List.mem_cons_self⟩
      | verify found => exact ⟨⟨rfl, rfl⟩, .inr (by rw [subject, found]; rfl)⟩
      | bundleFor found => exact ⟨⟨rfl, rfl⟩, .inr (by rw [subject, found]; rfl)⟩
      | addOneTime found => exact ⟨rfl, .inr (by rw [subject, found]; rfl)⟩
  | deleteAccount _ _ _ _ _ same => exact .inl (same ▸ member)
  | removeDevice _ _ _ _ _ _ same => exact .inl (same ▸ member)

end Hwfa.DiscoveryPublications
