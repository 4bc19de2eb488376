import Hwfa.ClientHashing
import Hwfa.DiscoveryClient

/-!
What a call of the client of Discovery comes to when its access token has expired
(`request`, `removeDevice` and `deleteAccount` of `packages/client/src/discovery.ts`).

Discovery lets a request in by its access token or answers it with 401, and nothing else
makes it say so; what it does with a request that is let in is left open, and so is what
other calls do whenever a call waits.  `survives_iff` compares a call whose token is refused
with the same call made once the refresh is through: they are the same but for the two
methods that fetch by themselves.
-/

namespace Hwfa.DiscoveryClientRecovery

open Hwfa.Json
open Hwfa.DiscoveryClient (Operation)

universe u

/-! ### Requests -/

structure Request where
  method : String
  pathname : Text
  body : Option Value := none
  authorization : Option Text

/-- A response; its body may be cut off, and need not be JSON. -/
structure Response where
  status : Nat
  text : Option Text
  json : Option Value

def Response.ok (res : Response) : Bool := 200 ≤ res.status && res.status < 300

inductive Failure where
  | discovery (status : Nat) (pathname text : Text)
  /-- whatever else is thrown -/
  | other

/-- What a refresh comes back with. -/
structure Refreshed where
  token : Text
  refreshToken : Option Text

/-- What the client holds. -/
structure Session where
  token : Option Text := none
  refresh_ : Option Text := none
  /-- a refresh that is under way, and what it will come to -/
  refreshing : Option (Option Refreshed) := none

/-- Discovery, and what else goes on around a call. -/
structure Server (σ : Type u) where
  accepts : σ → Option Text → Bool
  /-- a request that is let in; the response may be lost -/
  handle : σ → Request → Option Response × σ
  /-- a request that is not -/
  refuse : σ → Request → Response
  /-- the tokens that a refresh token is exchanged for, if it is -/
  refresh : σ → Text → Option Refreshed × σ
  /-- what other calls do while a call waits -/
  others : Session → σ → Session × σ
  refuse_status : ∀ s r, (refuse s r).status = 401
  handle_status : ∀ s r, ∀ res ∈ (handle s r).1, res.status ≠ 401

/-- The state of Discovery, and the requests of a call that it has let in. -/
structure World (σ : Type u) where
  state : σ
  handled : List Request := []

/-- What a method comes to, with what it leaves behind. -/
structure Result (σ : Type u) where
  outcome : Except Failure Value
  session : Session
  world : World σ

section

variable {σ : Type u} (server : Server σ)

/-- A call waits. -/
def waits (c : Session) (w : World σ) : Session × World σ :=
  let (c, state) := server.others c w.state
  (c, { w with state })

def fetch (c : Session) (w : World σ) (r : Request) : Option Response × Session × World σ :=
  if server.accepts w.state r.authorization then
    let (res, state) := server.handle w.state r
    (res, waits server c { state, handled := w.handled ++ [r] })
  else (some (server.refuse w.state r), waits server c w)

/-- `Bearer`, if there is a token. -/
def bearer (c : Session) : Option Text := c.token.filter (· ≠ [])

def Session.settle (c : Session) : Option Refreshed → Session
  | some tokens =>
    { token := some tokens.token
      refresh_ := tokens.refreshToken.filter (· ≠ []) <|> c.refresh_
      refreshing := none }
  | none => { c with refreshing := none }

/-- Waits for the refresh that is under way, or for one of its own; whether it resolved. -/
def refresh (refreshToken : Text) (c : Session) (w : World σ) : Bool × Session × World σ :=
  let (tokens, state) := match c.refreshing with
    | some tokens => (tokens, w.state)
    | none => server.refresh w.state refreshToken
  (tokens.isSome, waits server (c.settle tokens) { w with state })

/-- The error of a response; reading its text may fail. -/
def thrown (pathname : Text) (res : Response) : Failure :=
  match res.text with
  | some text => .discovery res.status pathname text
  | none => .other

/-- What a response comes to that is not followed by a refresh. -/
def settles (pathname : Text) (res : Response) : Except Failure Value :=
  if res.ok then res.json.elim (.error .other) .ok else .error (thrown pathname res)

/-- `request` with `auth`; it has a retry left unless it is the retry. -/
def request : Nat → String → Text → Option Value → Session → World σ → Result σ
  | retries, method, pathname, body, c, w =>
    let (res, c, w) := fetch server c w { method, pathname, body, authorization := bearer c }
    match res, retries, c.refresh_.filter (· ≠ []) with
    | none, _, _ => ⟨.error .other, c, w⟩
    | some res, retries + 1, some refreshToken =>
      if res.status = 401 then
        let (resolved, c, w) := refresh server refreshToken c w
        if resolved then request retries method pathname body c w
        else ⟨.error (thrown pathname res), c, w⟩
      else ⟨settles pathname res, c, w⟩
    | some res, _, _ => ⟨settles pathname res, c, w⟩

/-- What a method makes of the JSON that it gets. -/
def Result.andThen (r : Result σ) (f : Value → Except Failure Value) : Result σ :=
  { r with outcome := r.outcome.bind f }

def get (pathname : Text) : Session → World σ → Result σ :=
  request server 1 "GET" pathname none

def post (pathname : Text) (body : Value) : Session → World σ → Result σ :=
  request server 1 "POST" pathname (some body)

def put (pathname : Text) (body : Value) : Session → World σ → Result σ :=
  request server 1 "PUT" pathname (some body)

/-! ### Methods -/

/-- A member of what comes back; there is none of `null`. -/
def member (field : String) (v : Value) : Except Failure Value :=
  if v.nullish then .error .other else .ok (v.get field)

/-- The same, an empty list if it is missing. -/
def elements (field : String) (v : Value) : Except Failure Value :=
  (member field v).map fun devices => if devices.nullish then .array [] else devices

def poolSize (c : Session) (w : World σ) : Result σ :=
  (get server (utf16 "/v1/keys/pool") c w).andThen (member "poolSize")

def uploadOneTimePreKeys (oneTimePreKeys : Value) (c : Session) (w : World σ) : Result σ :=
  put server (utf16 "/v1/keys/upload") (.object [(utf16 "oneTimePreKeys", oneTimePreKeys)]) c w

def fetchBundle (userId : Text) (c : Session) (w : World σ) : Result σ :=
  get server (utf16 "/v1/keys/" ++ userId) c w

def listDevices (accountId : Text) (c : Session) (w : World σ) : Result σ :=
  (get server (utf16 "/v1/accounts/" ++ accountId ++ utf16 "/devices") c w).andThen
    (elements "devices")

def listMyDevices (c : Session) (w : World σ) : Result σ :=
  (get server (utf16 "/v1/devices") c w).andThen (elements "devices")

def resolveAccount (userId : Text) (c : Session) (w : World σ) : Result σ :=
  (get server (utf16 "/v1/accounts/" ++ userId ++ utf16 "/account") c w).andThen
    (member "accountId")

def createLinkToken (c : Session) (w : World σ) : Result σ :=
  post server (utf16 "/v1/devices/link-token") (.object []) c w

def getSalt (c : Session) (w : World σ) : Result σ :=
  (get server (utf16 "/v1/contacts/salt") c w).andThen (member "saltB64")

def intersect (phoneHashesB64 : Value) (c : Session) (w : World σ) : Result σ :=
  (post server (utf16 "/v1/contacts/intersect")
    (.object [(utf16 "phoneHashesB64", phoneHashesB64)]) c w).andThen (member "matches")

def hexDigit (n : Nat) : UInt16 :=
  if n < 10 then unit '0' + UInt16.ofNat n else unit 'A' + UInt16.ofNat (n - 10)

def isUnreserved (c : Char) : Bool :=
  c.isAlphanum || ['-', '_', '.', '!', '~', '*', Char.ofNat 39, '(', ')'].contains c

/-- `encodeURIComponent`, which throws where half of a surrogate pair is missing. -/
def encodeURIComponent (t : Text) : Option Text :=
  (ClientHashing.characters t).map fun cs => cs.flatMap fun c =>
    if isUnreserved c then [unit c]
    else (String.utf8EncodeChar c).flatMap fun b =>
      [unit '%', hexDigit (b.toNat / 16), hexDigit (b.toNat % 16)]

/-- `fetch`, and its error under a path of its own. -/
def delete (pathname named : Text) (c : Session) (w : World σ) : Result σ :=
  let (res, c, w) := fetch server c w { method := "DELETE", pathname, authorization := bearer c }
  match res with
  | none => ⟨.error .other, c, w⟩
  | some res => ⟨if res.ok then .ok .undefined else .error (thrown named res), c, w⟩

def removeDevice (userId : Text) (c : Session) (w : World σ) : Result σ :=
  match encodeURIComponent userId with
  | some id => delete server (utf16 "/v1/devices/" ++ id) (utf16 "/v1/devices") c w
  | none => ⟨.error .other, c, w⟩

def deleteAccount (c : Session) (w : World σ) : Result σ :=
  let r := delete server (utf16 "/v1/accounts") (utf16 "/v1/accounts") c w
  if r.outcome.isOk then { r with session := { r.session with token := none } } else r

/-- The methods that send the access token, with their arguments. -/
inductive Call where
  | poolSize
  | uploadOneTimePreKeys (oneTimePreKeys : Value)
  | fetchBundle (userId : Text)
  | listDevices (accountId : Text)
  | listMyDevices
  | resolveAccount (userId : Text)
  | createLinkToken
  | getSalt
  | intersect (phoneHashesB64 : Value)
  | removeDevice (userId : Text)
  | deleteAccount

def Call.operation : Call → Operation
  | .poolSize => .poolSize
  | .uploadOneTimePreKeys _ => .uploadOneTimePreKeys
  | .fetchBundle _ => .fetchBundle
  | .listDevices _ => .listDevices
  | .listMyDevices => .listMyDevices
  | .resolveAccount _ => .resolveAccount
  | .createLinkToken => .createLinkToken
  | .getSalt => .getSalt
  | .intersect _ => .intersect
  | .removeDevice _ => .removeDevice
  | .deleteAccount => .deleteAccount

def run : Call → Session → World σ → Result σ
  | .poolSize => poolSize server
  | .uploadOneTimePreKeys keys => uploadOneTimePreKeys server keys
  | .fetchBundle userId => fetchBundle server userId
  | .listDevices accountId => listDevices server accountId
  | .listMyDevices => listMyDevices server
  | .resolveAccount userId => resolveAccount server userId
  | .createLinkToken => createLinkToken server
  | .getSalt => getSalt server
  | .intersect hashes => intersect server hashes
  | .removeDevice userId => removeDevice server userId
  | .deleteAccount => deleteAccount server

/-! ### Calls whose token has expired -/

/-- The access token is refused, and the refresh that follows resolves to one that is accepted
when the call goes on. -/
structure Expired (c : Session) (w : World σ) (c' : Session) (w' : World σ) : Prop where
  refused : server.accepts w.state (bearer c) = false
  renewed : ∃ refreshToken, (waits server c w).1.refresh_.filter (· ≠ []) = some refreshToken ∧
    refresh server refreshToken (waits server c w).1 (waits server c w).2 = (true, c', w')
  fresh : server.accepts w'.state (bearer c') = true

/-- The call comes to what it comes to where the refresh has been made before, and Discovery
lets in one request of it, with the fresh token. -/
structure Survives (call : Call) (c : Session) (w : World σ) (c' : Session) (w' : World σ) :
    Prop where
  same : run server call c w = run server call c' w'
  once : ∃ r : Request, r.authorization = bearer c' ∧
    (run server call c w).world.handled = w.handled ++ [r]

variable {server} {c c' : Session} {w w' : World σ} {method : String} {pathname : Text}
variable {body : Option Value} {r : Request}

theorem waits_handled : (waits server c w).2.handled = w.handled := rfl

theorem refresh_handled {refreshToken : Text} {resolved : Bool}
    (ended : refresh server refreshToken c w = (resolved, c', w')) : w'.handled = w.handled := by
  unfold refresh at ended
  dsimp only at ended
  cases ended
  rfl

theorem Expired.handled (expired : Expired server c w c' w') : w'.handled = w.handled := by
  obtain ⟨refreshToken, -, ended⟩ := expired.renewed
  rw [refresh_handled ended, waits_handled]

theorem fetch_refused (refused : server.accepts w.state r.authorization = false) :
    fetch server c w r = (some (server.refuse w.state r), waits server c w) := by
  unfold fetch
  rw [if_neg (by rw [refused]; exact Bool.false_ne_true)]

theorem fetch_accepted (accepted : server.accepts w.state r.authorization = true) :
    fetch server c w r = ((server.handle w.state r).1,
      waits server c { state := (server.handle w.state r).2, handled := w.handled ++ [r] }) := by
  unfold fetch
  rw [if_pos accepted]

/-- A request that is let in is not retried. -/
theorem request_accepted (accepted : server.accepts w.state (bearer c) = true) (retries : Nat) :
    request server retries method pathname body c w = request server 0 method pathname body c w := by
  cases retries with
  | zero => rfl
  | succ retries =>
    have admitted := server.handle_status w.state { method, pathname, body, authorization := bearer c }
    rw [request, request, fetch_accepted accepted]
    dsimp only
    cases answered : (server.handle w.state { method, pathname, body, authorization := bearer c }).1 with
    | none => rfl
    | some res =>
      cases (waits server c _).1.refresh_.filter (· ≠ []) with
      | none => rfl
      | some refreshToken => exact if_neg (admitted res answered)

theorem request_handled (accepted : server.accepts w.state (bearer c) = true) :
    (request server 0 method pathname body c w).world.handled =
      w.handled ++ [{ method, pathname, body, authorization := bearer c }] := by
  rw [request, fetch_accepted accepted]
  dsimp only
  cases (server.handle w.state { method, pathname, body, authorization := bearer c }).1 <;> rfl

/-- A request whose token has expired is made again. -/
theorem request_expired (expired : Expired server c w c' w') :
    request server 1 method pathname body c w = request server 0 method pathname body c' w' := by
  obtain ⟨refreshToken, held, ended⟩ := expired.renewed
  rw [request, fetch_refused expired.refused]
  dsimp only
  rw [held]
  dsimp only
  rw [if_pos (server.refuse_status ..), ended]
  rfl

/-- What `request` is asked for is let in once, with the fresh token. -/
theorem request_survives (expired : Expired server c w c' w') (method : String) (pathname : Text)
    (body : Option Value) :
    request server 1 method pathname body c w = request server 1 method pathname body c' w' ∧
      (request server 1 method pathname body c w).world.handled =
        w.handled ++ [{ method, pathname, body, authorization := bearer c' }] := by
  rw [request_expired expired, request_accepted expired.fresh 1, request_handled expired.fresh,
    expired.handled]
  exact ⟨rfl, rfl⟩

theorem andThen_ok (r : Result σ) : r.andThen .ok = r := by
  obtain ⟨outcome, c, w⟩ := r
  cases outcome <;> rfl

/-- A method that makes something of what `request` comes to. -/
theorem survives_of_request {call : Call} (f : Value → Except Failure Value)
    (made : ∀ c w, run server call c w = (request server 1 method pathname body c w).andThen f)
    (expired : Expired server c w c' w') : Survives server call c w c' w' := by
  obtain ⟨same, once⟩ := request_survives expired method pathname body
  refine ⟨?_, { method, pathname, body, authorization := bearer c' }, rfl, ?_⟩
  · rw [made, made, same]
  · rw [made]
    exact once

theorem delete_refused (refused : server.accepts w.state (bearer c) = false)
    (pathname named : Text) : (delete server pathname named c w).world.handled = w.handled := by
  unfold delete
  rw [fetch_refused refused]
  rfl

/-- The methods that fetch by themselves are not let in. -/
theorem direct_refused {call : Call} (direct : call.operation.direct = true)
    (refused : server.accepts w.state (bearer c) = false) :
    (run server call c w).world.handled = w.handled := by
  cases call with
  | removeDevice userId =>
    change (removeDevice server userId c w).world.handled = w.handled
    unfold removeDevice
    split
    · exact delete_refused refused ..
    · rfl
  | deleteAccount =>
    change (deleteAccount server c w).world.handled = w.handled
    unfold deleteAccount
    dsimp only
    split <;> exact delete_refused refused ..
  | _ => cases direct

theorem not_survives_of_direct {call : Call} (direct : call.operation.direct = true)
    (expired : Expired server c w c' w') : ¬ Survives server call c w c' w' := by
  intro survives
  obtain ⟨r, -, once⟩ := survives.once
  rw [direct_refused direct expired.refused] at once
  have nothing : [] = [r] := (List.self_eq_append_right.mp once).symm
  cases nothing

/-- A call survives the expiry of its token exactly if it goes through `request`. -/
theorem survives_iff (expired : Expired server c w c' w') (call : Call) :
    Survives server call c w c' w' ↔ ¬ call.operation.direct := by
  constructor
  · exact fun survives direct => not_survives_of_direct direct expired survives
  · intro through
    cases call with
    | poolSize | getSalt | intersect | resolveAccount =>
      exact survives_of_request (member _) (fun _ _ => rfl) expired
    | listDevices | listMyDevices =>
      exact survives_of_request (elements _) (fun _ _ => rfl) expired
    | uploadOneTimePreKeys | fetchBundle | createLinkToken =>
      exact survives_of_request .ok (fun _ _ => (andThen_ok _).symm) expired
    | removeDevice | deleteAccount => cases through rfl

/-! ### No effect is repeated -/

/-- Discovery lets in one request at most. -/
def LetInOnce (w : World σ) (r : Result σ) : Prop :=
  r.world.handled = w.handled ∨ ∃ request, r.world.handled = w.handled ++ [request]

theorem request_once (retries : Nat) :
    LetInOnce w (request server retries method pathname body c w) := by
  induction retries generalizing c w with
  | zero =>
    by_cases accepted : server.accepts w.state (bearer c) = true
    · exact .inr ⟨_, request_handled accepted⟩
    · left
      rw [request, fetch_refused (Bool.eq_false_iff.mpr accepted)]
      rfl
  | succ retries ih =>
    by_cases accepted : server.accepts w.state (bearer c) = true
    · rw [request_accepted accepted]
      exact .inr ⟨_, request_handled accepted⟩
    · rw [request, fetch_refused (Bool.eq_false_iff.mpr accepted)]
      dsimp only
      cases (waits server c w).1.refresh_.filter (· ≠ []) with
      | none => exact .inl rfl
      | some refreshToken =>
        rcases ended : refresh server refreshToken (waits server c w).1 (waits server c w).2 with
          ⟨resolved, c', w'⟩
        have kept : w'.handled = w.handled := (refresh_handled ended).trans waits_handled
        dsimp only
        rw [if_pos (server.refuse_status ..), ended]
        cases resolved with
        | true =>
          have retried := ih (c := c') (w := w')
          rwa [LetInOnce, kept] at retried
        | false => exact .inl kept

theorem delete_once (pathname named : Text) : LetInOnce w (delete server pathname named c w) := by
  by_cases accepted : server.accepts w.state (bearer c) = true
  · right
    unfold delete
    rw [fetch_accepted accepted]
    dsimp only
    refine ⟨{ method := "DELETE", pathname, authorization := bearer c }, ?_⟩
    split <;> rfl
  · exact .inl (delete_refused (Bool.eq_false_iff.mpr accepted) ..)

/-- In any state, whatever Discovery answers and whatever else goes on. -/
theorem run_once (call : Call) : LetInOnce w (run server call c w) := by
  cases call with
  | removeDevice userId =>
    change LetInOnce w (removeDevice server userId c w)
    unfold removeDevice
    split
    · exact delete_once ..
    · exact .inl rfl
  | deleteAccount =>
    change LetInOnce w (deleteAccount server c w)
    unfold deleteAccount
    dsimp only
    split <;> exact delete_once ..
  | _ => exact request_once ..

end

/-! ### A device that stays -/

/-- Discovery as a count of what it has done; any token but the fresh one has expired. -/
def counting : Server Nat where
  accepts _ token := token = some (utf16 "fresh")
  handle s _ := (some ⟨204, some [], none⟩, s + 1)
  refuse _ _ := ⟨401, some (utf16 "missing or invalid token"), none⟩
  refresh s _ := (some ⟨utf16 "fresh", none⟩, s)
  others c s := (c, s)
  refuse_status _ _ := rfl
  handle_status := by
    rintro _ _ _ ⟨⟩
    decide

def stale : Session := { token := some (utf16 "stale"), refresh_ := some (utf16 "refresh") }

def renewed : Session := { token := some (utf16 "fresh"), refresh_ := some (utf16 "refresh") }

theorem stale_expired : Expired counting stale { state := 0 } renewed { state := 0 } where
  refused := by decide +kernel
  renewed := ⟨utf16 "refresh", by decide +kernel, rfl⟩
  fresh := by decide +kernel

/-- The pool is counted where its token has expired. -/
theorem pool_is_counted : Survives counting .poolSize stale { state := 0 } renewed { state := 0 } :=
  (survives_iff stale_expired .poolSize).mpr (by decide)

/-- Neither a device nor the account is removed where the token has expired: the call fails
with the 401 that a refresh would have healed, and Discovery has done nothing. -/
theorem device_stays : Expired counting stale { state := 0 } renewed { state := 0 } ∧
    ∀ call ∈ [Call.removeDevice (utf16 "laptop"), .deleteAccount],
      ¬ Survives counting call stale { state := 0 } renewed { state := 0 } ∧
      (run counting call stale { state := 0 }).outcome.isOk = false ∧
      (run counting call stale { state := 0 }).world.state = 0 ∧
      (run counting call renewed { state := 0 }).outcome.isOk = true ∧
      (run counting call renewed { state := 0 }).world.state = 1 := by
  refine ⟨stale_expired, ?_⟩
  simp only [List.forall_mem_cons, List.not_mem_nil, false_imp_iff, implies_true, and_true]
  constructor
  · exact ⟨not_survives_of_direct rfl stale_expired, by decide +kernel⟩
  · exact ⟨not_survives_of_direct rfl stale_expired, by decide +kernel⟩

end Hwfa.DiscoveryClientRecovery
