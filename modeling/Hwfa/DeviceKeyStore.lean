import Hwfa.Base64
import Hwfa.Decimals
import Hwfa.Machines
import Hwfa.Maps
import Hwfa.Texts

/-!
The Android key store (`PersistentSignalProtocolStore.kt`) and what
`HwfaCryptoModule.kt` does with the same preferences.

libsignal is a parameter (`Libsignal`): its records are any types that are read
back from their serialized form.  Its in-memory store, the superclass, keeps
every record as serialized bytes in one map a kind; here that is one map over
`Slot`, which says the kind and the id or address.  Peer identities and used
Kyber prekeys are not persisted and are left out.  Each method of the module
runs on React Native's one module thread.
-/

namespace Hwfa.DeviceKeyStore

open Hwfa.Machines Hwfa.Maps Hwfa.Texts

inductive Kind where
  | identityKeyPair
  | preKey
  | signedPreKey
  | kyberPreKey
  | session

/-- What the store uses of libsignal. -/
structure Libsignal where
  Record : Kind → Type
  KeyPair : Type
  serialize : ∀ {kind}, Record kind → List UInt8
  /-- A record's constructor from bytes, which throws on bytes it does not accept. -/
  deserialize : ∀ kind, List UInt8 → Option (Record kind)
  deserialize_serialize : ∀ {kind} (record : Record kind),
    deserialize kind (serialize record) = some record
  /-- The constructor `PreKeyRecord(id, keyPair)`, at an id that it takes. -/
  preKeyRecord : Int32 → KeyPair → Record .preKey
  takes : Int32 → Bool
  /-- libsignal's ids are unsigned; the constructor throws at a negative one. -/
  nonneg_of_takes : ∀ {id}, takes id = true → 0 ≤ id.toInt

structure SignalProtocolAddress where
  name : String
  deviceId : Int32
  deriving DecidableEq

/-- Where a record is kept. -/
inductive Slot where
  | preKey (id : Int32)
  | signedPreKey (id : Int32)
  | kyberPreKey (id : Int32)
  | session (address : SignalProtocolAddress)
  deriving DecidableEq

abbrev Slot.kind : Slot → Kind
  | .preKey _ => .preKey
  | .signedPreKey _ => .signedPreKey
  | .kyberPreKey _ => .kyberPreKey
  | .session _ => .session

/-- A value of the preferences. -/
inductive PrefValue where
  | str (value : String)
  | int (value : Int32)
  deriving DecidableEq

abbrev Prefs := FinMap String PrefValue

/-- The entries of the preferences, in the order of some iteration. -/
abbrev Entries := List (Sigma fun _ : String => PrefValue)

inductive Thrown where
  | badBase64
  | numberFormat
  | invalidRecord
  | classCast
  | illegalArgument

def orThrow (thrown : Thrown) : Option ρ → Except Thrown ρ
  | some value => .ok value
  | none => .error thrown

def IDENTITY_KEYPAIR : String := "identityKeyPair"
def REGISTRATION_ID : String := "registrationId"
def PRE : String := "pk:"
def SIGNED : String := "spk:"
def KYBER : String := "kpk:"
def SESSION : String := "sess:"
def PK_HIGH : String := "pkHighWater"
def ACCOUNT_ID : String := "account:id"
def ACCOUNT_PHONE : String := "account:phone"
def ACCOUNT_TOKEN : String := "account:token"
def ACCOUNT_REFRESH : String := "account:refresh"
def ACCOUNT_DEVICE : String := "account:device"
def MESSAGES : String := "messages"
def REPORTS : String := "reports"

def enc (bytes : List UInt8) : String := String.ofList (Base64.encode bytes)

/-- `android.util.Base64.decode`. -/
def dec (s : String) : Option (List UInt8) := Base64.decodeSkipping s.toList

/-- `toIntOrNull`, on the digits that an `Int` is printed with. -/
def toIntOrNull (s : List Char) : Option Int32 :=
  let read := match s with
    | '+' :: digits => (Decimals.readNat digits).map Int.ofNat
    | s => Decimals.readInt s
  read.bind fun n =>
    if Int32.minValue.toInt ≤ n ∧ n ≤ Int32.maxValue.toInt then some (Int32.ofInt n) else none

def addrKey (front : String) (a : SignalProtocolAddress) : String :=
  front ++ a.name ++ ":" ++ a.deviceId.toInt.repr

/-- The preference a record is mirrored into. -/
def Slot.key : Slot → String
  | .preKey id => PRE ++ id.toInt.repr
  | .signedPreKey id => SIGNED ++ id.toInt.repr
  | .kyberPreKey id => KYBER ++ id.toInt.repr
  | .session address => addrKey SESSION address

/-- `prefs.getInt`. -/
def getInt (prefs : Prefs) (key : String) (default : Int32) : Except Thrown Int32 :=
  match prefs.lookup key with
  | some (.int value) => .ok value
  | some (.str _) => .error .classCast
  | none => .ok default

/-- The superclass: what the store holds in memory. -/
structure InMemoryStore (lib : Libsignal) where
  identityKeyPair : lib.Record .identityKeyPair
  registrationId : Int32
  records : FinMap Slot (List UInt8) := ∅

variable {lib : Libsignal}

def InMemoryStore.put (memory : InMemoryStore lib) (slot : Slot) (record : lib.Record slot.kind) :
    InMemoryStore lib :=
  { memory with records := memory.records.insert slot (lib.serialize record) }

/-- `PersistentSignalProtocolStore`, outside `restore`. -/
structure PersistentStore (lib : Libsignal) where
  prefs : Prefs
  memory : InMemoryStore lib

namespace PersistentStore

/-- A write-through `store*`. -/
def storeRecord (s : PersistentStore lib) (slot : Slot) (record : lib.Record slot.kind) :
    PersistentStore lib where
  prefs := s.prefs.insert slot.key (.str (enc (lib.serialize record)))
  memory := s.memory.put slot record

/-- A write-through `remove*` or `delete*`. -/
def removeRecord (s : PersistentStore lib) (slot : Slot) : PersistentStore lib where
  prefs := s.prefs.erase slot.key
  memory := { s.memory with records := s.memory.records.erase slot }

def storePreKey (s : PersistentStore lib) (preKeyId : Int32) (record : lib.Record .preKey) :
    PersistentStore lib :=
  s.storeRecord (.preKey preKeyId) record

def removePreKey (s : PersistentStore lib) (preKeyId : Int32) : PersistentStore lib :=
  s.removeRecord (.preKey preKeyId)

def storeSignedPreKey (s : PersistentStore lib) (signedPreKeyId : Int32)
    (record : lib.Record .signedPreKey) : PersistentStore lib :=
  s.storeRecord (.signedPreKey signedPreKeyId) record

def removeSignedPreKey (s : PersistentStore lib) (signedPreKeyId : Int32) : PersistentStore lib :=
  s.removeRecord (.signedPreKey signedPreKeyId)

def storeKyberPreKey (s : PersistentStore lib) (kyberPreKeyId : Int32)
    (record : lib.Record .kyberPreKey) : PersistentStore lib :=
  s.storeRecord (.kyberPreKey kyberPreKeyId) record

def storeSession (s : PersistentStore lib) (address : SignalProtocolAddress)
    (record : lib.Record .session) : PersistentStore lib :=
  s.storeRecord (.session address) record

def deleteSession (s : PersistentStore lib) (address : SignalProtocolAddress) :
    PersistentStore lib :=
  s.removeRecord (.session address)

/-- Whether a slot is a session with this name. -/
def named (name : String) : Slot → Bool
  | .session address => address.name = name
  | _ => false

def deleteAllSessions (s : PersistentStore lib) (name : String) : PersistentStore lib where
  prefs := s.prefs.keep fun key _ => (after (SESSION ++ name ++ ":").toList key.toList).isNone
  memory := { s.memory with records := s.memory.records.keep fun slot _ => ! named name slot }

/-- The highest id among the one-time prekeys of the preferences. -/
def scanned (prefs : Prefs) : Int32 :=
  prefs.keys.foldl (fun scanned key =>
    match (after PRE.toList key.toList).bind toIntOrNull with
    | some it => if it > scanned then it else scanned
    | none => scanned) 0

/-- A loop that stores new prekeys: the store, those it has stored, and what stopped it. -/
structure Minting (lib : Libsignal) where
  store : PersistentStore lib
  out : List (Int32 × lib.KeyPair) := []
  thrown : Option Thrown := none

/-- One round, `storePreKey(id, PreKeyRecord(id, keyPair))`. -/
def Minting.mint (m : Minting lib) (id : Int32) (keyPair : lib.KeyPair) : Minting lib :=
  if m.thrown.isSome then m
  else if lib.takes id then
    { m with
      store := m.store.storePreKey id (lib.preKeyRecord id keyPair)
      out := m.out ++ [(id, keyPair)] }
  else { m with thrown := some .illegalArgument }

/-- `n` rounds, from the id `start` on; `keyPairs` are what `Curve.generateKeyPair` draws. -/
def mintFrom (s : PersistentStore lib) (start : Int32) (keyPairs : Nat → lib.KeyPair) :
    Nat → Minting lib
  | 0 => { store := s }
  | i + 1 => (mintFrom s start keyPairs i).mint (start + Int32.ofNat i) (keyPairs i)

/-- `mintOneTimePreKeys`.  What the loop has stored when it throws stays, and the
high-water mark is written behind the loop. -/
def mintOneTimePreKeys (s : PersistentStore lib) (count : Int32) (keyPairs : Nat → lib.KeyPair) :
    Minting lib :=
  match getInt s.prefs PK_HIGH 0 with
  | .error thrown => { store := s, thrown := some thrown }
  | .ok high =>
    let start := max (scanned s.prefs) high + 1
    -- `ArrayList(count)`
    if count < 0 then { store := s, thrown := some .illegalArgument }
    else
      let m := s.mintFrom start keyPairs count.toInt.toNat
      if m.thrown.isSome then m
      else { m with store.prefs := m.store.prefs.insert PK_HIGH (.int (start + count - 1)) }

end PersistentStore

/-- `parseAddr`. -/
def parseAddr (s : List Char) : Option SignalProtocolAddress :=
  match splitAtLast ':' s with
  | none => none
  | some (front, back) =>
    if front = [] then none
    else (toIntOrNull back).map fun device => ⟨String.ofList front, device⟩

/-- `restore` of a record under an id: the id, then the record, or what they throw. -/
def InMemoryStore.restoreAt (memory : InMemoryStore lib) (slot : Int32 → Slot) (id : List Char)
    (bytes : List UInt8) : Except Thrown (InMemoryStore lib) := do
  let id ← orThrow .numberFormat (toIntOrNull id)
  let record ← orThrow .invalidRecord (lib.deserialize (slot id).kind bytes)
  .ok (memory.put (slot id) record)

/-- One round of `restore`. -/
def InMemoryStore.restoreEntry (memory : InMemoryStore lib) (key : String) :
    PrefValue → Except Thrown (InMemoryStore lib)
  | .int _ => .ok memory
  | .str value => do
    let bytes ← orThrow .badBase64 (dec value)
    match after PRE.toList key.toList with
    | some id => memory.restoreAt .preKey id bytes
    | none =>
      match after SIGNED.toList key.toList with
      | some id => memory.restoreAt .signedPreKey id bytes
      | none =>
        match after KYBER.toList key.toList with
        | some id => memory.restoreAt .kyberPreKey id bytes
        | none =>
          match after SESSION.toList key.toList with
          | none => .ok memory
          | some addr =>
            match parseAddr addr with
            | none => .ok memory
            | some address => do
              let record ← orThrow .invalidRecord (lib.deserialize .session bytes)
              .ok (memory.put (.session address) record)

/-- `restore`, where the preferences are iterated in the given order. -/
def InMemoryStore.restore (memory : InMemoryStore lib) : Entries → Except Thrown (InMemoryStore lib)
  | [] => .ok memory
  | ⟨key, value⟩ :: rest => do
    let memory ← memory.restoreEntry key value
    memory.restore rest

/-- `load`: throws, or answers null when no identity has been created, or a store. -/
def load (lib : Libsignal) (prefs : Prefs) (order : Entries) :
    Except Thrown (Option (InMemoryStore lib)) :=
  match prefs.lookup IDENTITY_KEYPAIR with
  | none => .ok none
  | some (.int _) => .error .classCast
  | some (.str idB64) => do
    let regId ← getInt prefs REGISTRATION_ID 0
    let bytes ← orThrow .badBase64 (dec idB64)
    let identity ← orThrow .invalidRecord (lib.deserialize .identityKeyPair bytes)
    let memory ← ({ identityKeyPair := identity, registrationId := regId } :
      InMemoryStore lib).restore order
    .ok (some memory)

/-- `HwfaCryptoModule` on a device. -/
structure Device (lib : Libsignal) where
  prefs : Prefs
  store : Option (InMemoryStore lib)
  localDeviceId : Int32

/-- A call on the store, which every caller gets from `requireStore`. -/
def Device.call (d : Device lib) (method : PersistentStore lib → PersistentStore lib) :
    Option (Device lib) :=
  d.store.map fun memory =>
    let s := method ⟨d.prefs, memory⟩
    { d with prefs := s.prefs, store := some s.memory }

/-- `create`, from `generateRegistration`, which goes on with the store's methods. -/
def Device.create (identityKeyPair : lib.Record .identityKeyPair) (registrationId deviceId : Int32) :
    Device lib where
  prefs := ((∅ : Prefs).insert IDENTITY_KEYPAIR (.str (enc (lib.serialize identityKeyPair)))).insert
    REGISTRATION_ID (.int registrationId)
  store := some { identityKeyPair := identityKeyPair, registrationId := registrationId }
  localDeviceId := if deviceId > 0 then deviceId else 1

/-- `replenishOneTimePreKeys`, which turns what the store throws into a rejection. -/
def Device.mintOneTimePreKeys (d : Device lib) (count : Int32) (keyPairs : Nat → lib.KeyPair) :
    Option (Device lib) :=
  d.call fun s => (s.mintOneTimePreKeys count keyPairs).store

def Device.saveAccount (d : Device lib) (accountId phone token refreshToken : String) :
    Device lib :=
  { d with prefs := ((((d.prefs.insert ACCOUNT_ID (.str accountId)).insert
      ACCOUNT_PHONE (.str phone)).insert ACCOUNT_TOKEN (.str token)).insert
      ACCOUNT_REFRESH (.str refreshToken)).insert ACCOUNT_DEVICE (.int d.localDeviceId) }

def Device.saveMessages (d : Device lib) (json : String) : Device lib :=
  { d with prefs := d.prefs.insert MESSAGES (.str json) }

def Device.saveReports (d : Device lib) (json : String) : Device lib :=
  { d with prefs := d.prefs.insert REPORTS (.str json) }

/-- The module's `reset`, and the state of a fresh installation. -/
def Device.fresh : Device lib where
  prefs := ∅
  store := none
  localDeviceId := 1

/-- The module's constructor in a new process, over the preferences in some order. -/
def Device.restart (d : Device lib) (order : Entries) : Except Thrown (Device lib) := do
  let store ← load lib d.prefs order
  let localDeviceId ← getInt d.prefs ACCOUNT_DEVICE 1
  .ok { d with store := store, localDeviceId := localDeviceId }

inductive Action (lib : Libsignal) where
  | create (identityKeyPair : lib.Record .identityKeyPair) (registrationId deviceId : Int32)
  | storePreKey (preKeyId : Int32) (record : lib.Record .preKey)
  | removePreKey (preKeyId : Int32)
  | storeSignedPreKey (signedPreKeyId : Int32) (record : lib.Record .signedPreKey)
  | removeSignedPreKey (signedPreKeyId : Int32)
  | storeKyberPreKey (kyberPreKeyId : Int32) (record : lib.Record .kyberPreKey)
  | storeSession (address : SignalProtocolAddress) (record : lib.Record .session)
  | deleteSession (address : SignalProtocolAddress)
  | deleteAllSessions (name : String)
  | mintOneTimePreKeys (count : Int32) (keyPairs : Nat → lib.KeyPair)
  | saveAccount (accountId phone token refreshToken : String)
  | saveMessages (json : String)
  | saveReports (json : String)
  | reset
  | restart (order : Entries)

/-- A restart that throws leaves no module to go on with. -/
def Device.step (d : Device lib) : Action lib → Option (Device lib)
  | .create identityKeyPair registrationId deviceId =>
    some (.create identityKeyPair registrationId deviceId)
  | .storePreKey preKeyId record => d.call (·.storePreKey preKeyId record)
  | .removePreKey preKeyId => d.call (·.removePreKey preKeyId)
  | .storeSignedPreKey id record => d.call (·.storeSignedPreKey id record)
  | .removeSignedPreKey id => d.call (·.removeSignedPreKey id)
  | .storeKyberPreKey id record => d.call (·.storeKyberPreKey id record)
  | .storeSession address record => d.call (·.storeSession address record)
  | .deleteSession address => d.call (·.deleteSession address)
  | .deleteAllSessions name => d.call (·.deleteAllSessions name)
  | .mintOneTimePreKeys count keyPairs => d.mintOneTimePreKeys count keyPairs
  | .saveAccount accountId phone token refreshToken =>
    some (d.saveAccount accountId phone token refreshToken)
  | .saveMessages json => some (d.saveMessages json)
  | .saveReports json => some (d.saveReports json)
  | .reset => some .fresh
  | .restart order =>
    if order.Perm d.prefs.entries then (d.restart order).toOption else none

def device (lib : Libsignal) : Machine (Device lib) (Action lib) where
  start d := d = .fresh
  step := Device.step

end Hwfa.DeviceKeyStore
