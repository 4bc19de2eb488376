import Hwfa.Machines
import Hwfa.Maps

/-!
The client of Discovery and its tokens (`packages/client/src/discovery.ts`).

A call runs at once from one await to the next; `fetch`, the body of a response and a
refresh answer in steps of their own.  A token is what is signed in it, as far as the
client can read it.  Of a call only what concerns the tokens is kept: which method it is,
and every `fetch` it makes.  `onboard` is a `register` and a `submitOtp`, which here any
caller may call at any time.
-/

namespace Hwfa.DiscoveryClient

open Hwfa.Machines Hwfa.Maps

/-- A signed token: whom it is for, and when it expires, in seconds. -/
structure Token where
  uid : String
  exp : Option Int
  deriving DecidableEq

/-- Within a minute, if it can be told at all. -/
def expiringSoon (token : Token) (now : Int) : Bool :=
  match token.exp with
  | some exp => exp * 1000 - now < 60000
  | none => true

/-- The methods that make requests, and what of their arguments comes back in tokens. -/
inductive Operation where
  | refresh (refreshToken : Token)
  | register
  | submitOtp (userId : String)
  | linkDevice
  | fetchBundle
  | createLinkToken
  | listMyDevices
  | listDevices
  | resolveAccount
  | uploadOneTimePreKeys
  | poolSize
  | getSalt
  | intersect
  | removeDevice
  | deleteAccount
  deriving DecidableEq

def Operation.isRefresh : Operation → Bool
  | .refresh _ => true
  | _ => false

/-- Whether a call goes through `request` with the access token, which a refresh follows
where it is refused. -/
def Operation.auth : Operation → Bool
  | .refresh _ | .submitOtp _ | .linkDevice | .removeDevice | .deleteAccount => false
  | _ => true

/-- Whether a call sends the access token, if there is one. -/
def Operation.bearer : Operation → Bool
  | .refresh _ | .submitOtp _ | .linkDevice => false
  | _ => true

/-- Whether a call fetches by itself and does not read what comes back. -/
def Operation.direct : Operation → Bool
  | .removeDevice | .deleteAccount => true
  | _ => false

/-- What a call waits for. -/
inductive Stage where
  /-- `fetch`, of a request that may have been retried -/
  | fetching (retried : Bool)
  /-- the body of the response -/
  | reading
  /-- a refresh, by its number -/
  | awaiting (refresh : Nat)
  deriving DecidableEq

structure Task where
  operation : Operation
  stage : Stage
  deriving DecidableEq

/-- A `fetch`, with the call it is made for and the token it carries. -/
structure Fetch where
  call : Nat
  operation : Operation
  authorization : Option Token
  deriving DecidableEq

/-- What the body of a response says of tokens. -/
structure Body where
  verified : Bool := true
  token : Option Token := none
  refreshToken : Option Token := none
  deriving DecidableEq

/-- What Discovery may say: it issues both tokens for one user, the one that the request
is about. -/
def Operation.issues (operation : Operation) (body : Body) : Bool :=
  match operation with
  | .refresh sent => body.token.any (·.uid = sent.uid) && body.refreshToken.all (·.uid = sent.uid)
  | .submitOtp userId => body.token.all (·.uid = userId) && body.refreshToken.all (·.uid = userId)
  | .linkDevice =>
    match body.token with
    | some token => body.refreshToken.all (·.uid = token.uid)
    | none => true
  | _ => true

structure Client where
  token : Option Token := none
  refresh_ : Option Token := none
  /-- the number of the call that refreshes -/
  refreshing : Option Nat := none
  tasks : FinMap Nat Task := ∅
  calls : Nat := 0
  /-- the refreshes that have ended, and whether they resolved -/
  settled : FinMap Nat Bool := ∅
  fetches : List Fetch := []
  /-- whose credentials were installed, the last first; `none` where the account was deleted -/
  installed : List (Option String) := []

namespace Client

/-- A call of `fetch` on behalf of a call. -/
def sends (c : Client) (id : Nat) (operation : Operation) (retried : Bool) : Client :=
  { c with
    tasks := c.tasks.insert id ⟨operation, .fetching retried⟩
    fetches := c.fetches ++ [⟨id, operation, if operation.bearer then c.token else none⟩] }

/-- A method is called, up to its `fetch`. -/
def begins (c : Client) (operation : Operation) : Client :=
  { c.sends c.calls operation false with calls := c.calls + 1 }

/-- A call waits for something else. -/
def proceeds (c : Client) (id : Nat) (operation : Operation) (stage : Stage) : Client :=
  { c with tasks := c.tasks.insert id ⟨operation, stage⟩ }

/-- A call ends; if it is a refresh, the calls that wait for it will learn how. -/
def ends (c : Client) (id : Nat) (operation : Operation) (resolved : Bool) : Client :=
  match operation with
  | .refresh _ =>
    { c with
      tasks := c.tasks.erase id, refreshing := none, settled := c.settled.insert id resolved }
  | _ => { c with tasks := c.tasks.erase id }

/-- `refresh`, where there is a refresh token: a new one, unless one is under way. -/
def refresh (c : Client) : Client :=
  match c.refresh_, c.refreshing with
  | some refreshToken, none =>
    { c.begins (.refresh refreshToken) with refreshing := some c.calls }
  | _, _ => c

def setToken (c : Client) (token : Token) : Client :=
  { c with token := some token, installed := some token.uid :: c.installed }

def setTokens (c : Client) (access refresh : Token) : Client :=
  { c with
    token := some access, refresh_ := some refresh, installed := some access.uid :: c.installed }

def ensureAccess (c : Client) (now : Int) : Client :=
  if c.token.any (! expiringSoon · now) then c else c.refresh

/-- What `submitOtp` and `linkDevice` make of the tokens that they get. -/
def installs (c : Client) (token : Token) (refreshToken : Option Token) : Client :=
  { c with
    token := some token, refresh_ := refreshToken, installed := some token.uid :: c.installed }

/-- The response to a `fetch`, by its status, or none. -/
def responded (c : Client) (id : Nat) (status : Option Nat) (task : Task) : Option Client :=
  match task.stage with
  | .fetching retried =>
    let operation := task.operation
    match status with
    | none => some (c.ends id operation false)
    | some status =>
      if status = 401 ∧ operation.auth ∧ retried = false ∧ c.refresh_.isSome then
        let c := c.refresh
        c.refreshing.map fun refresh => c.proceeds id operation (.awaiting refresh)
      else if ¬ (200 ≤ status ∧ status < 300) then some (c.ends id operation false)
      else if operation.direct then
        let c := c.ends id operation true
        some (if operation = .deleteAccount then
          { c with token := none, installed := none :: c.installed } else c)
      else some (c.proceeds id operation .reading)
  | _ => none

/-- What a method does with the body of its response; whether it resolves comes with it. -/
def takes (c : Client) (operation : Operation) (body : Body) : Client × Bool :=
  match operation with
  | .refresh _ =>
    ({ c with token := body.token, refresh_ := body.refreshToken <|> c.refresh_ }, true)
  | .submitOtp _ =>
    match body.token with
    | some token => if body.verified then (c.installs token body.refreshToken, true) else (c, false)
    | none => (c, false)
  | .linkDevice =>
    match body.token with
    | some token => (c.installs token body.refreshToken, true)
    | none => (c, false)
  | _ => (c, true)

/-- The body of a response is read, or cannot be. -/
def read (c : Client) (id : Nat) (body : Option Body) (task : Task) : Option Client :=
  match task.stage, body with
  | .reading, none => some (c.ends id task.operation false)
  | .reading, some body =>
    if task.operation.issues body then
      let (c, resolved) := c.takes task.operation body
      some (c.ends id task.operation resolved)
    else none
  | _, _ => none

/-- The refresh that a call waited for has ended: the call is retried, or fails. -/
def resumed (c : Client) (id : Nat) (task : Task) : Option Client :=
  match task.stage with
  | .awaiting refresh =>
    (c.settled.lookup refresh).map fun resolved =>
      if resolved then c.sends id task.operation true else c.ends id task.operation false
  | _ => none

end Client

inductive Action where
  | setToken (token : Token)
  | setTokens (access refresh : Token)
  | ensureAccess (now : Int)
  | refresh
  /-- any of the other methods is called -/
  | call (operation : Operation)
  | responded (id : Nat) (status : Option Nat)
  | read (id : Nat) (body : Option Body)
  | resumed (id : Nat)

def Client.step (c : Client) : Action → Option Client
  | .setToken token => some (c.setToken token)
  | .setTokens access refresh => some (c.setTokens access refresh)
  | .ensureAccess now => some (c.ensureAccess now)
  | .refresh => some c.refresh
  | .call operation => if operation.isRefresh then none else some (c.begins operation)
  | .responded id status => (c.tasks.lookup id).bind (c.responded id status)
  | .read id body => (c.tasks.lookup id).bind (c.read id body)
  | .resumed id => (c.tasks.lookup id).bind (c.resumed id)

def discovery : Machine Client Action where
  start := fun c => c = {}
  step := Client.step

end Hwfa.DiscoveryClient
