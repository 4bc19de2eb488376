import Hwfa.Machines
import Hwfa.Maps
import Hwfa.Numbering

/-!
The one-time prekeys of `NodeCryptoProvider` (`packages/client/src/node/provider.ts`)
and of `packages/crypto/src/identity.ts`.

The provider keeps its stores in memory: a new process has none, and starts with a
registration of its own.  Counts and ids are whole numbers.
-/

namespace Hwfa.NodeCryptoProvider

open Hwfa.Machines Hwfa.Maps Hwfa.Numbering

/-- What the provider uses of libsignal. -/
structure Libsignal where
  PrivateKey : Type
  /-- The ids that `PreKeyRecord.new` takes; it throws at others. -/
  takes : Int → Bool

variable {lib : Libsignal}

/-- `InMemoryPreKeyStore.keys`; the record of an id holds its key pair. -/
abbrev PreKeys (lib : Libsignal) := FinMap Int lib.PrivateKey

/-- A loop that saves new prekeys: the store, those it has saved, and whether it threw. -/
structure Minting (lib : Libsignal) where
  preKey : PreKeys lib
  out : List (Int × lib.PrivateKey) := []
  threw : Bool := false

/-- One round, `savePreKey(id, PreKeyRecord.new(id, pub, kp))`. -/
def Minting.mint (m : Minting lib) (id : Int) (kp : lib.PrivateKey) : Minting lib :=
  if m.threw then m
  else if lib.takes id then
    { m with preKey := m.preKey.insert id kp, out := m.out ++ [(id, kp)] }
  else { m with threw := true }

/-- `n` rounds, from the id `startId` on; `kps` are what `PrivateKey.generate` draws. -/
def mintFrom (preKey : PreKeys lib) (startId : Int) (kps : Nat → lib.PrivateKey) : Nat → Minting lib
  | 0 => { preKey := preKey }
  | i + 1 => (mintFrom preKey startId kps i).mint (startId + i) (kps i)

/-- `identity.ts::mintOneTimePreKeys`. -/
def mintOneTimePreKeys (preKey : PreKeys lib) (count startId : Int) (kps : Nat → lib.PrivateKey) :
    Minting lib :=
  mintFrom preKey startId kps count.toNat

/-- The provider: `stores.preKey`, once it has stores, and `preKeyHigh`. -/
structure Provider (lib : Libsignal) where
  stores : Option (PreKeys lib) := none
  preKeyHigh : Int := 0

/-- A provider and the one-time prekeys that its present identity has minted. -/
structure Ledger (lib : Libsignal) where
  provider : Provider lib := {}
  minted : List (Int × lib.PrivateKey) := []

inductive Event (lib : Libsignal) where
  | generateRegistration (oneTimePreKeyCount : Int) (kps : Nat → lib.PrivateKey)
  | replenishOneTimePreKeys (count : Int) (kps : Nat → lib.PrivateKey)
  /-- an inbound session has used the prekey -/
  | removePreKey (id : Int)
  | restart

/-- `NodeCryptoProvider.generateRegistration`; what throws leaves the provider alone. -/
def Ledger.generateRegistration (l : Ledger lib) (oneTimePreKeyCount : Int)
    (kps : Nat → lib.PrivateKey) : Ledger lib :=
  let m := mintFrom ∅ 1 kps oneTimePreKeyCount.toNat
  if m.threw then l
  else
    { provider :=
        { stores := some m.preKey
          preKeyHigh := m.out.foldl (fun high k => max high k.1) 0 }
      minted := m.out }

/-- `NodeCryptoProvider.replenishOneTimePreKeys`; the keys that were saved before it
threw stay in the store. -/
def Ledger.replenishOneTimePreKeys (l : Ledger lib) (count : Int) (kps : Nat → lib.PrivateKey) :
    Option (Ledger lib) :=
  l.provider.stores.map fun preKey =>
    let m := NodeCryptoProvider.mintOneTimePreKeys preKey count (l.provider.preKeyHigh + 1) kps
    { provider :=
        { stores := some m.preKey
          preKeyHigh := if m.threw then l.provider.preKeyHigh else l.provider.preKeyHigh + count }
      minted := l.minted ++ m.out }

def Ledger.step (l : Ledger lib) : Event lib → Option (Ledger lib)
  | .generateRegistration oneTimePreKeyCount kps =>
    some (l.generateRegistration oneTimePreKeyCount kps)
  | .replenishOneTimePreKeys count kps => l.replenishOneTimePreKeys count kps
  | .removePreKey id =>
    l.provider.stores.map fun preKey =>
      { l with provider.stores := some (preKey.erase id) }
  | .restart => some {}

/-- The runs of a provider. -/
def node (lib : Libsignal) : Machine (Ledger lib) (Event lib) where
  start l := l = {}
  step := Ledger.step

def ids (minted : List (Int × lib.PrivateKey)) : List Int := minted.map fun k => k.1

/-- No two prekeys have one id. -/
def Distinct (l : Ledger lib) : Prop := (ids l.minted).Nodup

/-- A round that is to mint anything starts behind every id that the identity has minted. -/
def Marked (l : Ledger lib) : Event lib → Prop
  | .replenishOneTimePreKeys count _ => 0 < count → ∀ k ∈ l.minted, k.1 ≤ l.provider.preKeyHigh
  | _ => True

instance (l : Ledger lib) (e : Event lib) : Decidable (Marked l e) := by
  unfold Marked
  split <;> infer_instance

variable {preKey : PreKeys lib} {startId : Int} {kps : Nat → lib.PrivateKey}

/-- A loop mints a stretch of ids. -/
theorem ids_mintFrom (preKey : PreKeys lib) (startId : Int) (kps : Nat → lib.PrivateKey) (k : Nat) :
    ∃ n, ids (mintFrom preKey startId kps k).out = stretch startId n ∧ n ≤ k ∧
      ((mintFrom preKey startId kps k).threw = false → n = k) := by
  induction k with
  | zero => exact ⟨0, rfl, Nat.le_refl 0, fun _ => rfl⟩
  | succ k ih =>
    obtain ⟨n, numbered, fewer, through⟩ := ih
    unfold mintFrom Minting.mint
    split
    · next threw =>
      refine ⟨n, numbered, Nat.le_succ_of_le fewer, fun running => ?_⟩
      rw [threw] at running
      cases running
    · next running =>
      have all : n = k := through (by simpa using running)
      subst all
      split
      · refine ⟨n + 1, ?_, Nat.le_refl _, fun _ => rfl⟩
        rw [ids, List.map_append, ← ids, numbered]
        rfl
      · exact ⟨n, numbered, Nat.le_succ n, fun running => by cases running⟩

variable {l l' : Ledger lib} {e : Event lib}

/-- A marked step keeps the ids distinct. -/
theorem step_distinct (distinct : Distinct l) (marked : Marked l e) (moved : l.step e = some l') :
    Distinct l' := by
  unfold Distinct at distinct ⊢
  cases e with
  | generateRegistration count kps =>
    cases moved
    unfold Ledger.generateRegistration
    dsimp only
    split
    · exact distinct
    · obtain ⟨n, numbered, -⟩ := ids_mintFrom (∅ : PreKeys lib) 1 kps count.toNat
      rw [numbered]
      exact nodup_stretch 1 n
  | replenishOneTimePreKeys count kps =>
    obtain ⟨preKey, -, rfl⟩ := Option.map_eq_some_iff.mp moved
    obtain ⟨n, numbered, fewer, -⟩ := ids_mintFrom preKey (l.provider.preKeyHigh + 1) kps count.toNat
    dsimp only [mintOneTimePreKeys]
    rw [ids, List.map_append, ← ids, ← ids, numbered]
    by_cases asked : 0 < count
    · refine nodup_append_stretch distinct fun i listed => ?_
      obtain ⟨k, member, rfl⟩ := List.mem_map.mp listed
      have below := marked asked k member
      omega
    · have nothing : n = 0 := by omega
      rw [nothing]
      simpa [stretch] using distinct
  | removePreKey id =>
    obtain ⟨preKey, -, rfl⟩ := Option.map_eq_some_iff.mp moved
    exact distinct
  | restart =>
    cases moved
    exact List.nodup_nil

theorem reached_distinct (reached : (node lib).Reached Marked l) : Distinct l := by
  refine reached.invariant Distinct ?_ fun _ _ _ distinct marked moved =>
    step_distinct distinct marked moved
  rintro l rfl
  exact List.nodup_nil

/-- No fewer than no prekeys are asked for, and libsignal takes all their ids. -/
def Counting (l : Ledger lib) : Event lib → Prop
  | .replenishOneTimePreKeys count kps =>
    0 ≤ count ∧ ∀ preKey, (mintOneTimePreKeys preKey count (l.provider.preKeyHigh + 1) kps).threw = false
  | _ => True

/-- The mark is not below an id minted. -/
def Ahead (l : Ledger lib) : Prop := ∀ k ∈ l.minted, k.1 ≤ l.provider.preKeyHigh

theorem le_foldl_max (minted : List (Int × lib.PrivateKey)) (start : Int) :
    start ≤ minted.foldl (fun high k => max high k.1) start ∧
      ∀ k ∈ minted, k.1 ≤ minted.foldl (fun high k => max high k.1) start := by
  induction minted generalizing start with
  | nil => simp
  | cons first rest ih =>
    obtain ⟨above, all⟩ := ih (max start first.1)
    rw [List.foldl_cons]
    refine ⟨by omega, ?_⟩
    rintro k (_ | ⟨_, later⟩)
    · omega
    · exact all k later

theorem step_ahead (ahead : Ahead l) (counting : Counting l e) (moved : l.step e = some l') :
    Ahead l' := by
  cases e with
  | generateRegistration count kps =>
    cases moved
    unfold Ledger.generateRegistration
    dsimp only
    split
    · exact ahead
    · exact (le_foldl_max _ 0).2
  | replenishOneTimePreKeys count kps =>
    obtain ⟨preKey, -, rfl⟩ := Option.map_eq_some_iff.mp moved
    obtain ⟨nonneg, through⟩ := counting
    obtain ⟨n, numbered, fewer, -⟩ := ids_mintFrom preKey (l.provider.preKeyHigh + 1) kps count.toNat
    intro k member
    dsimp only at member ⊢
    rw [through preKey]
    rcases List.mem_append.mp member with before | new
    · have below := ahead k before
      simp only [Bool.false_eq_true, if_false]
      omega
    · have listed : k.1 ∈ stretch (l.provider.preKeyHigh + 1) n := by
        rw [← numbered]
        exact List.mem_map_of_mem new
      rw [mem_stretch] at listed
      simp only [Bool.false_eq_true, if_false]
      omega
  | removePreKey id =>
    obtain ⟨preKey, -, rfl⟩ := Option.map_eq_some_iff.mp moved
    exact ahead
  | restart =>
    cases moved
    simp [Ahead]

/-- Where prekeys are only ever added, and within libsignal's range, the mark is kept. -/
theorem reached_marked_of_counting (reached : (node lib).Reached Counting l) :
    (node lib).Reached Marked l := by
  suffices both : Ahead l ∧ (node lib).Reached Marked l from both.2
  induction reached with
  | start begun =>
    refine ⟨?_, .start begun⟩
    cases begun
    simp [Ahead]
  | step _ counting moved ih =>
    obtain ⟨ahead, reached⟩ := ih
    refine ⟨step_ahead ahead counting moved, .step reached ?_ moved⟩
    unfold Marked
    split
    · exact fun _ => ahead
    · trivial

end Hwfa.NodeCryptoProvider
