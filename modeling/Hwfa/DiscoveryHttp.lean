import Hwfa.DiscoveryApi
import Hwfa.DiscoveryPrekeys

/-!
Discovery as it is reached over HTTP: requests of anybody, with any bytes, whose critical
sections interleave in any order, and restarts.

A request arrives, waits for its next critical section under a number of its own, and is
answered.  `answered` is the transcript; no step reads it.  What the log of the service says
was published and served is what the transcript says (`log_of_transcript`), so what is known
of the service is known of what goes over the wire: of the one-time prekeys that they are
conserved.
-/

namespace Hwfa.DiscoveryHttp

open Hwfa.Machines Hwfa.Maps
open Hwfa.DiscoveryApi (numbered echoing quiet)
open Hwfa.DiscoveryHandlers
open Hwfa.DiscoveryPrekeys hiding Durable
open Hwfa.DiscoveryService
open Hwfa.DiscoveryStore
open Hwfa.GoJson (Bytes)
open Hwfa.GoStreams (decode)
open Hwfa.MediaSigner (text)

/-- A request that waits for a critical section: when it was let in, and what it asks. -/
structure Waiting where
  request : HttpRequest
  now : Int
  call : Call

/-- A request with what it was answered. -/
structure Answered where
  request : HttpRequest
  now : Int
  reply : Reply

structure Front where
  service : Service
  waiting : FinMap Nat Waiting := ∅
  /-- the transcript, the oldest first -/
  answered : List Answered := []
  /-- what was handed to the SMS gateway, the oldest first -/
  texts : List (String × String) := []

inductive Event where
  | arrives (id : Nat) (request : HttpRequest) (now : Int)
  | enters (id : Nat) (draws : Draws)
  | restart (freshSalt : List UInt8) (readable : Bool)

section

variable (h : Handlers)

def Front.arrive (f : Front) (id : Nat) (request : HttpRequest) (now : Int) : Front :=
  match h.admission request now with
  | .ok call => { f with waiting := f.waiting.insert id ⟨request, now, call⟩ }
  | .error reply => { f with answered := f.answered ++ [⟨request, now, reply⟩] }

def Front.enter (f : Front) (id : Nat) (w : Waiting) (d : Draws) : Front :=
  let turn := h.run d f.service w.call
  match turn.next with
  | .replies reply =>
    { service := turn.service
      waiting := f.waiting.erase id
      answered := f.answered ++ [⟨w.request, w.now, reply⟩]
      texts := f.texts ++ turn.sms }
  | .asks call =>
    { f with
      service := turn.service
      waiting := f.waiting.insert id { w with call }
      texts := f.texts ++ turn.sms }

/-- Whoever waited is cut off. -/
def Front.restart (f : Front) (freshSalt : List UInt8) (readable : Bool) : Front :=
  { f with
    service := { f.service with
      store := boot f.service.store.path freshSalt (if readable then f.service.disk else none) }
    waiting := ∅ }

def Front.step (f : Front) : Event → Option Front
  | .arrives id request now =>
    if (f.waiting.lookup id).isSome then none else some (f.arrive h id request now)
  | .enters id d => (f.waiting.lookup id).map fun w => f.enter h id w d
  | .restart freshSalt readable => some (f.restart freshSalt readable)

def http : Machine Front Event where
  start f := ∃ path salt, f = { service := started path salt }
  step := Front.step h

end

/-! ### What a request asks -/

variable {h : Handlers} {r : HttpRequest} {now : Int}

/-- Every way a request gets to the store. -/
inductive Admits (h : Handlers) (r : HttpRequest) (now : Int) : Call → Prop where
  | register {p : Posted} (route : r.route = .register) (read : decode registerRequest r.body = some p)
      (phone : p.req.phoneNumber ≠ "") (identity : p.req.identityKeyB64 ≠ "") :
      Admits h r now (.register (numbered p.asRegister))
  | verify {req : VerifyRequest} (route : r.route = .verify) (read : decode verifyRequest r.body = some req) :
      Admits h r now (.verify req.userID req.code)
  | refresh {req : RefreshRequest} (route : r.route = .refresh)
      (read : decode refreshRequest r.body = some req) :
      Admits h r now (.refresh (utf8 req.refreshToken))
  | bundleFor {userID target : String} (route : r.route = .fetchKeys target)
      (user : h.bearerUser r.authorization now = some userID) : Admits h r now (.bundleFor target)
  | deleteAccount {userID : String} (route : r.route = .deleteAccount)
      (user : h.bearerUser r.authorization now = some userID) : Admits h r now (.deleteAccount userID)
  | poolSize {userID : String} (route : r.route = .keyPool)
      (user : h.bearerUser r.authorization now = some userID) : Admits h r now (.poolSize userID)
  | addOneTime {userID : String} {req : UploadRequest} (route : r.route = .uploadKeys)
      (user : h.bearerUser r.authorization now = some userID)
      (read : decode uploadRequest r.body = some req) :
      Admits h r now (.addOneTime userID req.oneTimePreKeys.elements)
  | mintFor {userID : String} (route : r.route = .linkToken)
      (user : h.bearerUser r.authorization now = some userID) : Admits h r now (.mintFor userID)
  | linkDevice {p : Posted} (route : r.route = .link) (read : decode linkRequest r.body = some p)
      (token : p.token ≠ "") (identity : p.req.identityKeyB64 ≠ "") :
      Admits h r now (.linkDevice p.token p.asRegister)
  | devicesFor {userID accountID : String} (route : r.route = .devices accountID)
      (user : h.bearerUser r.authorization now = some userID) : Admits h r now (.devicesFor accountID)
  | accountDevices {userID : String} (route : r.route = .myDevices)
      (user : h.bearerUser r.authorization now = some userID) : Admits h r now (.accountDevices userID)
  | removeDevice {userID target : String} (route : r.route = .removeDevice target)
      (user : h.bearerUser r.authorization now = some userID) :
      Admits h r now (.removeDevice userID target)
  | accountIDFor {userID target : String} (route : r.route = .account target)
      (user : h.bearerUser r.authorization now = some userID) : Admits h r now (.accountIDFor target)
  | saltB64 {userID : String} (route : r.route = .salt)
      (user : h.bearerUser r.authorization now = some userID) : Admits h r now .saltB64
  | allowIntersect {userID : String} {req : IntersectRequest} (route : r.route = .intersect)
      (user : h.bearerUser r.authorization now = some userID)
      (read : decode intersectRequest r.body = some req) :
      Admits h r now (.allowIntersect userID req.phoneHashesB64.elements)

theorem authed_ok {k : String → Except Reply Call} {call : Call} (passed : h.authed r now k = .ok call) :
    ∃ userID, h.bearerUser r.authorization now = some userID ∧ k userID = .ok call := by
  rw [Handlers.authed] at passed
  split at passed
  · next userID user => exact ⟨userID, user, passed⟩
  · cases passed

theorem decoded_ok {α : Type} {c : GoStructs.Codec α} {k : α → Except Reply Call} {call : Call}
    (passed : decoded c r k = .ok call) : ∃ a, decode c r.body = some a ∧ k a = .ok call := by
  rw [decoded] at passed
  split at passed
  · next a read => exact ⟨a, read, passed⟩
  · cases passed

/-- The executable check only lets in what is listed. -/
theorem admits_of_admission {call : Call} (passed : h.admission r now = .ok call) :
    Admits h r now call := by
  rw [Handlers.admission] at passed
  cases route : r.route with
  | register =>
    rw [route] at passed
    obtain ⟨p, read, passed⟩ := decoded_ok passed
    split at passed
    · cases passed
    · next named =>
      rw [not_or] at named
      cases passed
      exact .register route read named.1 named.2
  | verify =>
    rw [route] at passed
    obtain ⟨req, read, passed⟩ := decoded_ok passed
    cases passed
    exact .verify route read
  | refresh =>
    rw [route] at passed
    obtain ⟨req, read, passed⟩ := decoded_ok passed
    cases passed
    exact .refresh route read
  | fetchKeys target =>
    rw [route] at passed
    obtain ⟨userID, user, passed⟩ := authed_ok passed
    cases passed
    exact .bundleFor route user
  | deleteAccount =>
    rw [route] at passed
    obtain ⟨userID, user, passed⟩ := authed_ok passed
    cases passed
    exact .deleteAccount route user
  | keyPool =>
    rw [route] at passed
    obtain ⟨userID, user, passed⟩ := authed_ok passed
    cases passed
    exact .poolSize route user
  | uploadKeys =>
    rw [route] at passed
    obtain ⟨userID, user, passed⟩ := authed_ok passed
    obtain ⟨req, read, passed⟩ := decoded_ok passed
    cases passed
    exact .addOneTime route user read
  | linkToken =>
    rw [route] at passed
    obtain ⟨userID, user, passed⟩ := authed_ok passed
    cases passed
    exact .mintFor route user
  | link =>
    rw [route] at passed
    obtain ⟨p, read, passed⟩ := decoded_ok passed
    split at passed
    · cases passed
    · next named =>
      rw [not_or] at named
      cases passed
      exact .linkDevice route read named.1 named.2
  | devices accountID =>
    rw [route] at passed
    obtain ⟨userID, user, passed⟩ := authed_ok passed
    cases passed
    exact .devicesFor route user
  | myDevices =>
    rw [route] at passed
    obtain ⟨userID, user, passed⟩ := authed_ok passed
    cases passed
    exact .accountDevices route user
  | removeDevice target =>
    rw [route] at passed
    obtain ⟨userID, user, passed⟩ := authed_ok passed
    cases passed
    exact .removeDevice route user
  | account target =>
    rw [route] at passed
    obtain ⟨userID, user, passed⟩ := authed_ok passed
    cases passed
    exact .accountIDFor route user
  | salt =>
    rw [route] at passed
    obtain ⟨userID, user, passed⟩ := authed_ok passed
    cases passed
    exact .saltB64 route user
  | intersect =>
    rw [route] at passed
    obtain ⟨userID, user, passed⟩ := authed_ok passed
    obtain ⟨req, read, passed⟩ := decoded_ok passed
    split at passed
    · cases passed
    · cases passed
      exact .allowIntersect route user read

theorem authed_error {k : String → Except Reply Call} {reply : Reply}
    (refused : h.authed r now k = .error reply) :
    (∃ status msg, reply = .error status msg) ∨ ∃ userID, k userID = .error reply := by
  rw [Handlers.authed] at refused
  split at refused
  · next userID _ => exact .inr ⟨userID, refused⟩
  · cases refused
    exact .inl ⟨_, _, rfl⟩

theorem decoded_error {α : Type} {c : GoStructs.Codec α} {k : α → Except Reply Call} {reply : Reply}
    (refused : decoded c r k = .error reply) :
    (∃ status msg, reply = .error status msg) ∨ ∃ a, k a = .error reply := by
  rw [decoded] at refused
  split at refused
  · next a _ => exact .inr ⟨a, refused⟩
  · cases refused
    exact .inl ⟨_, _, rfl⟩

/-- Who does not get to the store is told of an error. -/
theorem admission_error {reply : Reply} (refused : h.admission r now = .error reply) :
    ∃ status msg, reply = .error status msg := by
  rw [Handlers.admission] at refused
  split at refused
  case h_1 | h_9 =>
    rcases decoded_error refused with told | ⟨p, refused⟩
    · exact told
    · split at refused
      · cases refused
        exact ⟨_, _, rfl⟩
      · cases refused
  case h_2 | h_3 =>
    rcases decoded_error refused with told | ⟨p, refused⟩
    · exact told
    · cases refused
  case h_7 =>
    rcases authed_error refused with told | ⟨userID, refused⟩
    · exact told
    rcases decoded_error refused with told | ⟨req, refused⟩
    · exact told
    · cases refused
  case h_15 =>
    rcases authed_error refused with told | ⟨userID, refused⟩
    · exact told
    rcases decoded_error refused with told | ⟨req, refused⟩
    · exact told
    · split at refused
      · cases refused
        exact ⟨_, _, rfl⟩
      · cases refused
  all_goals
    rcases authed_error refused with told | ⟨userID, refused⟩
    · exact told
    · cases refused

/-! ### What a step does -/

/-- The request of the service that a critical section is, unless it only reads. -/
def storeRequest (d : Draws) : Call → Option Request
  | .register req => some (.register req d.userID d.otp d.now)
  | .verify userID code => some (.verify userID code d.now)
  | .bundleFor userID => some (.bundleFor userID)
  | .deleteAccount userID => some (.deleteAccount userID)
  | .addOneTime userID keys => some (.addOneTime userID keys)
  | .createLinkToken accountID => some (.createLinkToken accountID d.token d.now)
  | .linkDevice token req => some (.linkDevice token req d.userID d.now)
  | .removeDevice caller target => some (.removeDevice caller target)
  | .allowIntersect userID hashes => some (.allowIntersect userID hashes.length d.now)
  | _ => none

theorem run_service (d : Draws) (s : Service) (call : Call) :
    (h.run d s call).service = (storeRequest d call).elim s (s.handle d.wrote) := by
  cases call with
  | register req =>
    rw [Handlers.run]
    split <;> rfl
  | _ => rfl

/-- Every way a front moves. -/
inductive Goes (h : Handlers) (f : Front) : Event → Front → Prop where
  | waits {id : Nat} {r : HttpRequest} {now : Int} {call : Call} (passed : h.admission r now = .ok call) :
      Goes h f (.arrives id r now) { f with waiting := f.waiting.insert id ⟨r, now, call⟩ }
  | refused {id : Nat} {r : HttpRequest} {now : Int} {status : Nat} {msg : String}
      (refused : h.admission r now = .error (.error status msg)) :
      Goes h f (.arrives id r now) { f with answered := f.answered ++ [⟨r, now, .error status msg⟩] }
  | replies {id : Nat} {w : Waiting} {d : Draws} {reply : Reply} (found : f.waiting.lookup id = some w)
      (next : (h.run d f.service w.call).next = .replies reply) :
      Goes h f (.enters id d)
        { service := (h.run d f.service w.call).service
          waiting := f.waiting.erase id
          answered := f.answered ++ [⟨w.request, w.now, reply⟩]
          texts := f.texts ++ (h.run d f.service w.call).sms }
  | asks {id : Nat} {w : Waiting} {d : Draws} {call : Call} (found : f.waiting.lookup id = some w)
      (next : (h.run d f.service w.call).next = .asks call) :
      Goes h f (.enters id d)
        { f with
          service := (h.run d f.service w.call).service
          waiting := f.waiting.insert id { w with call }
          texts := f.texts ++ (h.run d f.service w.call).sms }
  | restart {freshSalt : List UInt8} {readable : Bool} :
      Goes h f (.restart freshSalt readable) (f.restart freshSalt readable)

variable {f f' : Front} {e : Event}

theorem step_goes (moved : f.step h e = some f') : Goes h f e f' := by
  cases e with
  | arrives id r now =>
    simp only [Front.step, Option.ite_none_left_eq_some, Option.some_inj] at moved
    obtain ⟨_, rfl⟩ := moved
    rw [Front.arrive]
    cases passed : h.admission r now with
    | ok call => exact .waits passed
    | error reply =>
      obtain ⟨status, msg, rfl⟩ := admission_error passed
      exact .refused passed
  | enters id d =>
    obtain ⟨w, found, rfl⟩ := Option.map_eq_some_iff.mp moved
    rw [Front.enter]
    cases next : (h.run d f.service w.call).next with
    | replies reply => exact .replies found next
    | asks call => exact .asks found next
  | restart freshSalt readable =>
    cases moved
    exact .restart

/-- A call that waits is what its request asked, or the second section of it. -/
inductive Begun (h : Handlers) (r : HttpRequest) (now : Int) : Call → Prop where
  | first {call : Call} (admits : Admits h r now call) : Begun h r now call
  | mints {userID accountID : String} (admits : Admits h r now (.mintFor userID)) :
      Begun h r now (.createLinkToken accountID)
  | intersects {userID : String} {hashes : List String}
      (admits : Admits h r now (.allowIntersect userID hashes)) : Begun h r now (.intersect hashes)

/-- The sections that are followed by a second one. -/
theorem asks_cases {d : Draws} {s : Service} {call call' : Call}
    (next : (h.run d s call).next = .asks call') :
    (∃ userID accountID, call = .mintFor userID ∧ s.store.accountIDFor userID = some accountID ∧
        call' = .createLinkToken accountID) ∨
      ∃ userID hashes, call = .allowIntersect userID hashes ∧
        (s.store.allowIntersect userID hashes.length d.now).result = true ∧ call' = .intersect hashes := by
  cases call with
  | mintFor userID =>
    simp only [Handlers.run] at next
    split at next
    · cases next
    · next accountID found =>
      cases next
      exact .inl ⟨userID, accountID, rfl, found, rfl⟩
  | allowIntersect userID hashes =>
    simp only [Handlers.run] at next
    split at next
    · next allowed =>
      cases next
      exact .inr ⟨userID, hashes, rfl, allowed, rfl⟩
    · cases next
  | register req =>
    rw [Handlers.run] at next
    split at next <;> cases next
  | _ => cases next

/-- Whoever waits has been let in. -/
def Orderly (h : Handlers) (f : Front) : Prop :=
  ∀ id w, f.waiting.lookup id = some w → Begun h w.request w.now w.call

theorem step_orderly (orderly : Orderly h f) (moved : f.step h e = some f') : Orderly h f' := by
  intro id w found
  cases step_goes moved with
  | waits passed =>
    rw [FinMap.lookup_insert_apply] at found
    split at found
    · cases found
      exact .first (admits_of_admission passed)
    · exact orderly id w found
  | refused => exact orderly id w found
  | replies =>
    rw [FinMap.lookup_erase_apply] at found
    split at found
    · cases found
    · exact orderly id w found
  | asks waited next =>
    rw [FinMap.lookup_insert_apply] at found
    split at found
    · cases found
      have begun := orderly _ _ waited
      rcases asks_cases next with ⟨userID, accountID, same, _, rfl⟩ | ⟨userID, hashes, same, _, rfl⟩
      · rw [same] at begun
        cases begun with
        | first admits => exact .mints admits
      · rw [same] at begun
        cases begun with
        | first admits => exact .intersects admits
    · exact orderly id w found
  | restart => cases found

theorem reachable_orderly (reached : (http h).Reachable f) : Orderly h f := by
  refine reached.invariant (Orderly h) ?_ fun f e f' orderly _ moved => step_orderly orderly moved
  rintro f ⟨path, salt, rfl⟩ id w found
  cases found

/-- Behind the front the service runs, at any condition that its steps meet. -/
theorem reached_service {ok : Front → Event → Prop} {ok' : Service → Action → Prop}
    (reached : (http h).Reached ok f)
    (met : ∀ f id d w r, ok f (.enters id d) → f.waiting.lookup id = some w →
      storeRequest d w.call = some r → ok' f.service (.request r d.wrote))
    (restarts : ∀ s freshSalt readable, ok' s (.restart freshSalt readable)) :
    service.Reached ok' f.service := by
  refine reached.invariant (fun f => service.Reached ok' f.service) ?_ ?_
  · rintro f ⟨path, salt, rfl⟩
    exact .start ⟨path, salt, rfl⟩
  · intro f e f' before fine moved
    have entered {id : Nat} {w : Waiting} {d : Draws} (fine : ok f (.enters id d))
        (found : f.waiting.lookup id = some w) :
        service.Reached ok' (h.run d f.service w.call).service := by
      rw [run_service]
      cases asked : storeRequest d w.call with
      | none => exact before
      | some r => exact .step before (met f id d w r fine found asked) rfl
    cases step_goes moved with
    | waits => exact before
    | refused => exact before
    | replies found => exact entered fine found
    | asks found => exact entered fine found
    | restart => exact .step before (restarts _ _ _) rfl

/-! ### The transcript -/

/-- What an answer says of the records: a device was registered or linked, a bundle was
served, prekeys were uploaded. -/
def logged (h : Handlers) (x : Answered) : Option Entry :=
  match x.reply, x.request.route with
  | .registered r, _ => (decode registerRequest x.request.body).map fun p =>
    .registered r.userID (numbered p.asRegister)
  | .linked r, _ => (decode linkRequest x.request.body).map fun p => .linked r.userID p.asRegister
  | .bundle b, .fetchKeys target => some (.served target b)
  | .poolSize _, .uploadKeys => (h.bearerUser x.request.authorization x.now).bind fun userID =>
    (decode uploadRequest x.request.body).map fun req => .uploaded userID req.oneTimePreKeys.elements
  | _, _ => none

/-- Everything but that a code was right. -/
def spoken : Entry → Bool
  | .verified .. => false
  | _ => true

theorem register_result {store : Store} {req : RegisterRequest} {userID otp u code : String}
    {now : Int} (result : (store.register req userID otp now).result = some (u, code)) :
    u = userID ∧ code = otp := by
  rw [Store.register] at result
  split at result
  · cases result
  · cases result
    exact ⟨rfl, rfl⟩

theorem linkDevice_result {store : Store} {token : String} {req : RegisterRequest} {userID u a : String}
    {now : Int} {access refresh : Token}
    (result : (store.linkDevice token req userID now).result = some (u, a, access, refresh)) :
    u = userID := by
  rw [Store.linkDevice] at result
  split at result
  · cases result
  · split at result
    · cases result
    · split at result
      · cases result
      · cases result
        rfl

/-- What a request adds to the log. -/
def entries (s : Store) : Request → List Entry
  | .register req userID otp now =>
    if (s.register req userID otp now).result.isSome then [.registered userID req] else []
  | .verify userID code now =>
    if (s.verify userID code now).result.isSome then [.verified userID (phoneHashOf s userID)] else []
  | .linkDevice token req userID now =>
    if (s.linkDevice token req userID now).result.isSome then [.linked userID req] else []
  | .bundleFor userID => (s.bundleFor userID).result.toList.map (.served userID)
  | .addOneTime userID keys =>
    if (s.addOneTime userID keys).result.isSome then [.uploaded userID keys] else []
  | _ => []

theorem handle_log (s : Service) (wrote : Bool) (r : Request) :
    (s.handle wrote r).log = s.log ++ entries s.store r := by
  cases r with
  | createLinkToken => exact (List.append_nil _).symm
  | _ => rfl

/-- Sections with a reply to whatever the store answers. -/
theorem log_after {d : Draws} {s : Service} {q : Request} {answer reply : Reply}
    (next : (Service.after s d q answer).next = .replies reply)
    (told : (entries s.store q).filter spoken = (logged h ⟨r, now, answer⟩).toList) :
    (Service.after s d q answer).service.log.filter spoken =
      s.log.filter spoken ++ (logged h ⟨r, now, reply⟩).toList := by
  cases next
  have log : (Service.after s d q answer).service.log = s.log ++ entries s.store q :=
    handle_log s d.wrote q
  rw [log, List.filter_append, told]

/-- Sections that only read. -/
theorem log_silent {s : Service} {reply : Reply} (silent : logged h ⟨r, now, reply⟩ = none) :
    s.log.filter spoken = s.log.filter spoken ++ (logged h ⟨r, now, reply⟩).toList := by
  rw [silent, Option.toList_none, List.append_nil]

/-- What a section adds to the log is what its reply says. -/
theorem run_log {d : Draws} {s : Service} {call : Call} {reply : Reply} (begun : Begun h r now call)
    (next : (h.run d s call).next = .replies reply) :
    (h.run d s call).service.log.filter spoken =
      s.log.filter spoken ++ (logged h ⟨r, now, reply⟩).toList := by
  cases begun with
  | mints admits => exact log_after next rfl
  | intersects admits =>
    cases next
    exact log_silent rfl
  | first admits =>
    cases admits with
    | @register p route read phone identity =>
      cases result : (s.store.register (numbered p.asRegister) d.userID d.otp d.now).result with
      | none =>
        simp only [Handlers.run, result] at next ⊢
        refine log_after next ?_
        simp [entries, result, logged]
      | some issued =>
        obtain ⟨u, code⟩ := issued
        obtain ⟨rfl, rfl⟩ := register_result result
        simp only [Handlers.run, result] at next ⊢
        cases next
        rw [handle_log]
        simp [entries, result, logged, read, spoken]
    | @linkDevice p route read token identity =>
      refine log_after next ?_
      cases result : (s.store.linkDevice p.token p.asRegister d.userID d.now).result with
      | none => simp [entries, result, logged]
      | some linked =>
        obtain ⟨u, accountID, access, refresh⟩ := linked
        obtain rfl := linkDevice_result result
        simp [entries, result, logged, read, spoken]
    | @verify req route read =>
      refine log_after next ?_
      cases result : (s.store.verify req.userID req.code d.now).result <;>
        simp [entries, result, logged, spoken]
    | @bundleFor userID target route user =>
      refine log_after next ?_
      cases result : (s.store.bundleFor target).result <;>
        simp [entries, result, logged, route, spoken]
    | @addOneTime userID req route user read =>
      refine log_after next ?_
      cases result : (s.store.addOneTime userID req.oneTimePreKeys.elements).result <;>
        simp [entries, result, logged, route, user, read, spoken]
    | @deleteAccount userID route user =>
      refine log_after next ?_
      cases result : (s.store.deleteAccount userID).result <;> simp [entries, logged]
    | @removeDevice userID target route user =>
      refine log_after next ?_
      cases result : (s.store.removeDevice userID target).result <;> simp [entries, logged]
    | @refresh req route read =>
      cases next
      apply log_silent
      cases result : h.refreshTokens s.store (utf8 req.refreshToken) d.now <;> simp [logged]
    | @poolSize userID route user =>
      cases next
      apply log_silent
      cases result : s.store.poolSize userID <;> simp [logged, route]
    | @accountIDFor userID target route user =>
      cases next
      apply log_silent
      cases result : s.store.accountIDFor target <;> simp [logged]
    | @accountDevices userID route user =>
      cases next
      apply log_silent
      by_cases none_owned : s.store.accountDevices (d.entries s.store) userID = [] <;>
        simp [logged, none_owned]
    | @mintFor userID route user =>
      simp only [Handlers.run] at next ⊢
      split at next
      · cases next
        exact log_silent rfl
      · cases next
    | @allowIntersect userID req route user read =>
      simp only [Handlers.run] at next ⊢
      split at next
      · cases next
      · cases next
        rw [handle_log]
        simp [entries, logged]
    | devicesFor =>
      cases next
      exact log_silent rfl
    | saltB64 =>
      cases next
      exact log_silent rfl

/-- A section that is not the last one says nothing of the records. -/
theorem asks_log {d : Draws} {s : Service} {call call' : Call} (next : (h.run d s call).next = .asks call') :
    (h.run d s call).service.log = s.log := by
  rcases asks_cases next with ⟨_, _, rfl, _, _⟩ | ⟨_, _, rfl, _, _⟩
  · rfl
  · exact (handle_log s d.wrote _).trans (List.append_nil _)

/-- The log of the service is what the transcript says. -/
theorem log_of_transcript (reached : (http h).Reachable f) :
    f.service.log.filter spoken = f.answered.filterMap (logged h) := by
  refine reached.invariant_under (fun f => f.service.log.filter spoken = f.answered.filterMap (logged h))
    (fun f before => reachable_orderly before) ?_ ?_
  · rintro f ⟨path, salt, rfl⟩
    rfl
  · intro f e f' orderly same _ moved
    have later (x : Answered) : (f.answered ++ [x]).filterMap (logged h) =
        f.answered.filterMap (logged h) ++ (logged h x).toList := by
      rw [List.filterMap_append]
      congr 1
    cases step_goes moved with
    | waits => exact same
    | refused =>
      refine same.trans ((later _).trans ?_).symm
      exact List.append_nil _
    | replies found next =>
      rw [later, ← same]
      exact run_log (orderly _ _ found) next
    | asks found next =>
      change (h.run _ _ _).service.log.filter spoken = _
      rw [asks_log next]
      exact same
    | restart => exact same

/-! ### One-time prekeys over the wire -/

/-- The answers that say something of the records, the oldest first. -/
def transcript (h : Handlers) (f : Front) : List Entry := f.answered.filterMap (logged h)

/-- Every file write goes through, and `newUUID` never repeats an id. -/
def Durable (f : Front) : Event → Prop
  | .enters _ d => d.wrote = true ∧ Unused f.service.log d.userID
  | _ => True

instance (f : Front) (e : Event) : Decidable (Durable f e) := by
  unfold Durable
  split <;> infer_instance

/-- What is told of an account is what the entries that are spoken of tell. -/
theorem flatMap_spoken {γ : Type} {told : Entry → List γ}
    (silent : ∀ entry, spoken entry = false → told entry = []) (log : List Entry) (userID : String) :
    (about (log.filter spoken) userID).flatMap told = (about log userID).flatMap told := by
  induction log with
  | nil => rfl
  | cons entry rest ih =>
    by_cases own : subject entry = userID
    · by_cases speaks : spoken entry = true
      · simpa [about, speaks, own] using ih
      · simpa [about, speaks, own, silent entry (Bool.eq_false_iff.mpr speaks)] using ih
    · by_cases speaks : spoken entry = true <;> simpa [about, speaks, own] using ih

theorem durable_of_entered {id : Nat} {d : Draws} {w : Waiting} {r : Request}
    (durable : Durable f (.enters id d)) (asked : storeRequest d w.call = some r) :
    DiscoveryPrekeys.Durable f.service (.request r d.wrote) := by
  refine ⟨durable.1, ?_⟩
  obtain ⟨_, _, call⟩ := w
  cases call <;> cases asked
  case register => exact durable.2
  case linkDevice => exact durable.2
  all_goals trivial

/-- **One-time prekeys are conserved over HTTP.** In every run with durable writes and fresh
ids, whatever requests come in, with whatever bytes, and however their critical sections
interleave: for every account, the one-time prekeys that the replies to its requesters carried
so far, followed by its pool, are those that the body of its registration or link was read to
hold, followed by those of the uploads that were answered with a pool size, in order. -/
theorem prekeys_over_http_are_conserved (reached : (http h).Reached Durable f) {userID : String}
    {acct : Account} (found : f.service.store.accounts.lookup userID = some acct) :
    handedOut (transcript h f) userID ++ acct.oneTime = supplied (transcript h f) userID := by
  have behind : service.Reached DiscoveryPrekeys.Durable f.service :=
    reached_service reached (fun _ _ _ _ _ durable _ asked => durable_of_entered durable asked)
      fun _ _ _ => trivial
  have conserved := (lookup_conserves behind found).conserved
  rw [handedOut, supplied, transcript, ← log_of_transcript reached.reachable,
    flatMap_spoken (by rintro (_ | _ | _ | _ | _) <;> simp [spoken, handedBy]),
    flatMap_spoken (by rintro (_ | _ | _ | _ | _) <;> simp [spoken, suppliedBy])]
  exact conserved

/-- A registration with two prekeys. -/
def registration : Bytes := text <| "\x7b\"phoneNumber\":\"+41790000000\",\"identityKeyB64\":\"BQ==\"," ++
  "\"oneTimePreKeys\":[\x7b\"id\":1,\"publicB64\":\"b25l\"\x7d,\x7b\"id\":2,\"publicB64\":\"dHdv\"\x7d]\x7d"

def bearer : Bytes := text "Bearer " ++
  AuthToken.sign AuthToken.hmac echoing.secret "alice" AuthToken.kindAccess accessTTL 1

/-- A user registers, is verified, and asks for the keys of its own account. -/
def registerAndFetch : List Event :=
  [.arrives 0 ⟨.register, [], registration⟩ 0,
    .enters 0 (quiet.draws 0).1,
    .arrives 1 ⟨.verify, [], text "\x7b\"userId\":\"alice\",\"code\":\"123456\"\x7d"⟩ 1,
    .enters 1 (quiet.draws 1).2,
    .arrives 2 ⟨.fetchKeys "alice", bearer, []⟩ 2,
    .enters 2 (quiet.draws 2).2]

theorem fetched_prekey_is_conserved : ∃ f, (http echoing).Reached Durable f ∧
    handedOut (transcript echoing f) "alice" = [⟨1, "b25l"⟩] ∧
    ∃ acct, f.service.store.accounts.lookup "alice" = some acct ∧ acct.oneTime = [⟨2, "dHdv"⟩] ∧
      handedOut (transcript echoing f) "alice" ++ acct.oneTime =
        supplied (transcript echoing f) "alice" := by
  have observed : ((http echoing).checkedRun Durable
      { service := started "discovery.json" [1, 2] } registerAndFetch).map (fun f =>
        (handedOut (transcript echoing f) "alice",
          (f.service.store.accounts.lookup "alice").map (·.oneTime))) =
      some ([⟨1, "b25l"⟩], some [⟨2, "dHdv"⟩]) := by
    decide +kernel
  obtain ⟨f, reached, seen⟩ := Machine.reached_of_observed observed (.start ⟨_, _, rfl⟩)
  rw [Prod.mk.injEq, Option.map_eq_some_iff] at seen
  obtain ⟨handed, acct, found, pool⟩ := seen
  exact ⟨f, reached, handed, acct, found, pool, prekeys_over_http_are_conserved reached found⟩

end Hwfa.DiscoveryHttp
