import Hwfa.ClientHashing
import Hwfa.DiscoveryClient
import Hwfa.JsonInterchange
import Hwfa.RelaySessions

/-!
The signed tokens (`backend/authtoken/token.go`), and how the client looks into them
(`packages/client/src/discovery.ts`).

A Go string is a list of bytes here and a string of the client a list of code units;
a signed token is ASCII, so the client has its bytes for code units.  Times are in
nanoseconds, the clock of the client is in milliseconds.  The code of a message is
`hmac`, of which nothing is used but that it is a function of the secret and the message,
so `mac` stands for any.
-/

namespace Hwfa.AuthToken

open Hwfa.ClientHashing (Host letters)
open Hwfa.DiscoveryStore (unix)
open Hwfa.GoJson (Bytes Value ascii appendInt byte latin1 names quote storeInt64 storeString)
open Hwfa.Json (Text unit utf16)
open Hwfa.Lexers (Run)

/-- A key as long as a block of SHA-256. -/
def blockKey (key : Bytes) : Bytes :=
  let key := if 64 < key.length then Sha256.sha256 key else key
  key ++ List.replicate (64 - key.length) 0

/-- `crypto/hmac` with `crypto/sha256` -/
def hmac (key message : Bytes) : Bytes :=
  let inner := Sha256.sha256 ((blockKey key).map (· ^^^ 0x36) ++ message)
  Sha256.sha256 ((blockKey key).map (· ^^^ 0x5C) ++ inner)

def kindAccess : String := "access"

/-- `token.go::claims` -/
structure Claims where
  uid : String := ""
  kind : String := ""
  exp : Int := 0
  deriving DecidableEq

namespace Claims

/-- `json.Marshal` -/
def marshal (c : Claims) : Bytes :=
  [0x7B] ++ (quote "uid" ++ [byte ':'] ++ quote c.uid ++ [byte ',']) ++
    (quote "k" ++ [byte ':'] ++ quote c.kind ++ [byte ',']) ++
    (quote "exp" ++ [byte ':'] ++ appendInt c.exp ++ [0x7D])

/-- A member goes to the field that its key names; the others are skipped. -/
def store (c : Claims) (key : String) (v : Value) : Option Claims :=
  if names key "uid" then (storeString c.uid v).map fun uid => { c with uid }
  else if names key "k" then (storeString c.kind v).map fun kind => { c with kind }
  else if names key "exp" then (storeInt64 c.exp v).map fun exp => { c with exp }
  else some c

/-- `json.Unmarshal` into no claims -/
def unmarshal (data : Bytes) : Option Claims :=
  match GoJson.parse data with
  | some (.object members) => members.foldlM (fun c m => c.store m.1 m.2) {}
  | some (.scalar .null) => some {}
  | _ => none

end Claims

/-- `token.go::b64` -/
def b64 (b : Bytes) : Bytes := ascii (Base64.encodeRawUrl b)

/-- `base64.RawURLEncoding.DecodeString` -/
def decodeString (s : Bytes) : Option Bytes :=
  Base64.decodeRawUrl (s.map fun b => Char.ofNat b.toNat)

/-- What is before the first dot. -/
def segment (token : Bytes) : Bytes := token.takeWhile (· ≠ byte '.')

/-- `strings.SplitN` at the first dot, where there is one. -/
def splitN (token : Bytes) : Option (Bytes × Bytes) :=
  match token.dropWhile (· ≠ byte '.') with
  | [] => none
  | _ :: rest => some (segment token, rest)

section Signing

variable (mac : Bytes → Bytes → Bytes) (secret : Bytes)

/-- `token.go::Sign` -/
def sign (uid kind : String) (ttl now : Int) : Bytes :=
  let payload := Claims.marshal { uid, kind, exp := unix (now + ttl) }
  let p := b64 payload
  p ++ [byte '.'] ++ b64 (mac secret p)

/-- `token.go::parse` -/
def parse (token : Bytes) (now : Int) : Option Claims :=
  match splitN token with
  | none => none
  | some (p, signature) =>
    if b64 (mac secret p) ≠ signature then none
    else
      match (decodeString p).bind Claims.unmarshal with
      | none => none
      | some c => if c.exp ≤ unix now then none else some c

/-- `token.go::Verify` -/
def verify (token : Bytes) (now : Int) : Option (String × String) :=
  (parse mac secret token now).map fun c => (c.uid, c.kind)

/-- `token.go::VerifyAccess` -/
def verifyAccess (token : Bytes) (now : Int) : Option (String × Int) :=
  match parse mac secret token now with
  | none => none
  | some c => if c.kind ≠ kindAccess then none else some (c.uid, c.exp)

end Signing

/-! ### The client -/

/-- What `Date.now()` can be. -/
def IsTimeValue (now : Int) : Prop := -8640000000000000 ≤ now ∧ now ≤ 8640000000000000

def replaceAll (u v : UInt16) (s : Text) : Text := s.map fun w => if w = u then v else w

/-- The loop of `decodeBase64Url`. -/
def padded (s : Text) : Text :=
  if s.length % 4 = 0 then s else padded (s ++ [unit '='])
termination_by 3 - (s.length + 3) % 4
decreasing_by
  rw [List.length_append, List.length_singleton]
  omega

/-- `discovery.ts::decodeBase64Url`.  A text that `atob` refuses is an exception. -/
def decodeBase64Url (host : Host) (s : Text) : Option Text :=
  let s := padded (replaceAll (unit '_') (unit '/') (replaceAll (unit '-') (unit '+') s))
  (ClientHashing.base64ToBytes host s).map latin1

/-- `discovery.ts::expiringSoon`, at a time `now`. -/
def expiringSoon (host : Host) (token : Text) (now : Int) : Bool :=
  match token.idxOf? (unit '.') with
  | none | some 0 => true
  | some dot =>
    match (decodeBase64Url host (token.take dot)).bind Json.parse with
    | none => true
    | some v =>
      match v.get "exp" with
      | .number exp => Doubles.below (Doubles.minus (Doubles.times exp 1000) now) 60000
      | _ => true

/-! ### The payload -/

theorem run_member (key v : String) :
    Run GoJson.lexer .between (quote key ++ [byte ':'] ++ quote v ++ [byte ','])
      [.scalar (.string key), .colon, .scalar (.string v), .comma] .between := by
  have colon : GoJson.lexer.read .between (byte ':') = some ([.colon], .between) := rfl
  have comma : GoJson.lexer.read .between (byte ',') = some ([.comma], .between) := rfl
  exact (((GoJson.run_quote key).append (Run.one colon)).append (GoJson.run_quote v)).append
    (Run.one comma)

theorem run_last (key : String) (n : Int) :
    Run GoJson.lexer .between (quote key ++ [byte ':'] ++ appendInt n ++ [0x7D])
      [.scalar (.string key), .colon, .scalar (.number (appendInt n)), .closeObject] .between := by
  have colon : GoJson.lexer.read .between (byte ':') = some ([.colon], .between) := rfl
  exact (((GoJson.run_quote key).append (Run.one colon)).append (GoJson.run_appendInt n)).append
    (Run.one (GoJson.read_closing n))

theorem parse_marshal (c : Claims) : GoJson.parse c.marshal = some (.object [
    ("uid", .scalar (.string c.uid)), ("k", .scalar (.string c.kind)),
    ("exp", .scalar (.number (appendInt c.exp)))]) := by
  have opened : GoJson.lexer.read .between 0x7B = some ([.openObject], .between) := rfl
  have run := (((Run.one opened).append (run_member "uid" c.uid)).append
    (run_member "k" c.kind)).append (run_last "exp" c.exp)
  rw [GoJson.parse, Claims.marshal, run.lex rfl]
  rfl

/-- The claims come back, if the expiry is an `int64`. -/
theorem unmarshal_marshal {c : Claims} (fits : GoJson.IsInt64 c.exp) :
    Claims.unmarshal c.marshal = some c := by
  have uid : names "uid" "uid" = true := by decide
  have k : names "k" "uid" = false ∧ names "k" "k" = true := by decide
  have exp : names "exp" "uid" = false ∧ names "exp" "k" = false ∧ names "exp" "exp" = true := by
    decide
  rw [Claims.unmarshal, parse_marshal]
  simp [Claims.store, uid, k, exp, storeString, storeInt64, GoJson.parseInt_appendInt fits]

/-! ### The segments -/

theorem b64_ascii (b : Bytes) : ∀ c ∈ Base64.encodeRawUrl b, c.toNat < 128 :=
  fun c member => (Base64.encodeRawUrl_ascii b c member).1

theorem decodeString_b64 (b : Bytes) : decodeString (b64 b) = some b := by
  rw [decodeString, b64, GoJson.ofNat_ascii (b64_ascii b), Base64.decodeRawUrl_encodeRawUrl]

theorem dot_notMem_b64 (b : Bytes) : byte '.' ∉ b64 b := by
  intro member
  obtain ⟨c, inside, same⟩ := List.mem_map.mp member
  have number := congrArg UInt8.toNat same
  rw [GoJson.toNat_byte (b64_ascii b c inside)] at number
  exact (Base64.encodeRawUrl_ascii b c inside).2 (Char.toNat_inj.mp number)

theorem b64_ne_nil {b : Bytes} (there : b ≠ []) : b64 b ≠ [] := by
  intro nothing
  exact Base64.encodeRawUrl_ne_nil there (List.map_eq_nil_iff.mp nothing)

theorem splitN_append {p : Bytes} (undotted : byte '.' ∉ p) (rest : Bytes) :
    splitN (p ++ [byte '.'] ++ rest) = some (p, rest) := by
  have kept : ∀ b ∈ p, decide (b ≠ byte '.') = true := by
    intro b member
    apply decide_eq_true
    rintro rfl
    exact undotted member
  rw [splitN, segment, List.append_assoc, List.dropWhile_append_of_pos kept,
    List.takeWhile_append_of_pos kept]
  simp

/-- The dot is between the parts. -/
theorem eq_of_splitN {token p rest : Bytes} (split : splitN token = some (p, rest)) :
    token = p ++ [byte '.'] ++ rest ∧ p = segment token := by
  unfold splitN at split
  split at split
  · cases split
  · next b _ dropped =>
    cases split
    have first : b = byte '.' := by
      have stops := List.head?_dropWhile_not (· ≠ byte '.') token
      rw [dropped] at stops
      simpa using stops
    have behind : [byte '.'] ++ rest = token.dropWhile (· ≠ byte '.') := by
      rw [dropped, first]
      rfl
    refine ⟨?_, rfl⟩
    rw [List.append_assoc, behind]
    exact List.takeWhile_append_dropWhile.symm

/-! ### Signing and verifying -/

section Signing

variable (mac : Bytes → Bytes → Bytes) (secret : Bytes)

theorem parse_sign {uid kind : String} {ttl now : Int}
    (fits : GoJson.IsInt64 (unix (now + ttl))) (t : Int) :
    parse mac secret (sign mac secret uid kind ttl now) t =
      if unix (now + ttl) ≤ unix t then none else some { uid, kind, exp := unix (now + ttl) } := by
  have read := unmarshal_marshal (c := { uid, kind, exp := unix (now + ttl) }) fits
  rw [parse, sign, splitN_append (dot_notMem_b64 _)]
  simp only [ne_eq, not_true, if_false, decodeString_b64, Option.bind_some, read]

/-- A signed token is the token of the store. -/
theorem verify_sign {uid kind : String} {ttl now : Int}
    (fits : GoJson.IsInt64 (unix (now + ttl))) (t : Int) :
    verify mac secret (sign mac secret uid kind ttl now) t =
      DiscoveryStore.Token.verify ⟨uid, kind, now + ttl⟩ t := by
  rw [verify, parse_sign mac secret fits, DiscoveryStore.Token.verify]
  split <;> rfl

/-- It is the token of the relay. -/
theorem verifyAccess_sign {uid kind : String} {ttl now : Int}
    (fits : GoJson.IsInt64 (unix (now + ttl))) (t : Int) :
    verifyAccess mac secret (sign mac secret uid kind ttl now) t =
      RelaySessions.verifyAccess ⟨uid, kind, now + ttl⟩ t := by
  rw [verifyAccess, parse_sign mac secret fits, RelaySessions.verifyAccess,
    DiscoveryStore.Token.verify]
  by_cases expired : unix (now + ttl) ≤ unix t
  · rw [if_pos expired, if_pos expired]
  · rw [if_neg expired, if_neg expired]
    by_cases access : kind = kindAccess
    · exact (if_neg fun other => other access).trans (if_pos access).symm
    · exact (if_pos access).trans (if_neg access).symm

/-- A signed token is ASCII: its text is its bytes. -/
theorem sign_ascii (uid kind : String) (ttl now : Int) :
    ∀ b ∈ sign mac secret uid kind ttl now, b.toNat < 128 := by
  have encoded : ∀ data : Bytes, ∀ b ∈ b64 data, b.toNat < 128 := by
    intro data b member
    obtain ⟨c, inside, rfl⟩ := List.mem_map.mp member
    rw [GoJson.toNat_byte (b64_ascii data c inside)]
    exact b64_ascii data c inside
  intro b member
  rw [sign, List.mem_append, List.mem_append, List.mem_singleton] at member
  rcases member with (payload | rfl) | signature
  · exact encoded _ b payload
  · decide
  · exact encoded _ b signature

/-- An accepted token is its first segment and the code of that. -/
theorem eq_of_parse {token : Bytes} {now : Int} {c : Claims}
    (accepted : parse mac secret token now = some c) :
    token = segment token ++ [byte '.'] ++ b64 (mac secret (segment token)) := by
  unfold parse at accepted
  split at accepted
  · cases accepted
  · next p signature split =>
    obtain ⟨whole, first⟩ := eq_of_splitN split
    split at accepted
    · cases accepted
    · next signed =>
      rw [← first, Decidable.not_not.mp signed]
      exact whole

end Signing

/-! ### The client reads the same expiry -/

theorem run_member_client (key : String) (lower : (utf16 key).all Json.isLower)
    (written : latin1 (quote key) = unit '"' :: (utf16 key ++ [unit '"'])) (v : String) :
    ∃ w, Run JsonInterchange.lexer .between
      (latin1 (quote key ++ [byte ':'] ++ quote v ++ [byte ',']))
      [.scalar (.string (utf16 key)), .colon, .scalar (.string w), .comma] .between := by
  have colon : JsonInterchange.lexer.read .between (unit ':') = some ([.colon], .between) := rfl
  have comma : JsonInterchange.lexer.read .between (unit ',') = some ([.comma], .between) := rfl
  have named := JsonInterchange.run_key lower
  obtain ⟨w, valued⟩ := JsonInterchange.run_quote v
  refine ⟨w, ?_⟩
  rw [JsonInterchange.latin1_append, JsonInterchange.latin1_append, JsonInterchange.latin1_append,
    written]
  exact ((named.append (Run.one colon)).append valued).append (Run.one comma)

theorem run_last_client (key : String) (lower : (utf16 key).all Json.isLower)
    (written : latin1 (quote key) = unit '"' :: (utf16 key ++ [unit '"'])) (n : Int) :
    Run JsonInterchange.lexer .between
      (latin1 (quote key ++ [byte ':'] ++ appendInt n ++ [0x7D]))
      [.scalar (.string (utf16 key)), .colon, .scalar (.number (Doubles.ofInt n)), .closeObject]
      .between := by
  have colon : JsonInterchange.lexer.read .between (unit ':') = some ([.colon], .between) := rfl
  have named := JsonInterchange.run_key lower
  rw [JsonInterchange.latin1_append, JsonInterchange.latin1_append, JsonInterchange.latin1_append,
    written]
  exact ((named.append (Run.one colon)).append (JsonInterchange.run_appendInt n)).append
    (Run.one (JsonInterchange.read_closing n))

theorem parse_marshal_client (c : Claims) :
    ∃ v, Json.parse (latin1 c.marshal) = some v ∧ v.get "exp" = .number (Doubles.ofInt c.exp) := by
  have opened : JsonInterchange.lexer.read .between 0x7B = some ([.openObject], .between) := rfl
  obtain ⟨uid, first⟩ := run_member_client "uid" (by decide) (by decide) c.uid
  obtain ⟨kind, second⟩ := run_member_client "k" (by decide) (by decide) c.kind
  have last := run_last_client "exp" (by decide) (by decide) c.exp
  have run := (((Run.one opened).append first).append second).append last
  refine ⟨.object [(utf16 "uid", .string uid), (utf16 "k", .string kind),
    (utf16 "exp", .number (Doubles.ofInt c.exp))], ?_, ?_⟩
  · have text : latin1 c.marshal = [0x7B] ++
        latin1 (quote "uid" ++ [byte ':'] ++ quote c.uid ++ [byte ',']) ++
        latin1 (quote "k" ++ [byte ':'] ++ quote c.kind ++ [byte ',']) ++
        latin1 (quote "exp" ++ [byte ':'] ++ appendInt c.exp ++ [0x7D]) := by
      rw [Claims.marshal, JsonInterchange.latin1_append, JsonInterchange.latin1_append,
        JsonInterchange.latin1_append]
      rfl
    rw [Json.parse, JsonInterchange.lex_eq, text, run.lex rfl]
    rfl
  · rfl

theorem padded_eq {s : Text} {few : Nat} (short : few < 4) (whole : (s.length + few) % 4 = 0) :
    padded s = s ++ List.replicate few (unit '=') := by
  induction few generalizing s with
  | zero =>
    rw [Nat.add_zero] at whole
    rw [padded, if_pos whole, List.replicate_zero, List.append_nil]
  | succ few ih =>
    have length : (s ++ [unit '=']).length = s.length + 1 := by simp
    rw [padded, if_neg (by omega), ih (by omega) (by rw [length]; omega), List.append_assoc,
      List.replicate_succ, List.singleton_append]

/-- The two characters of file names become those of the alphabet again. -/
theorem letter_replaced {n : Nat} (small : n < 64) :
    letters (replaceAll (unit '_') (unit '/') (replaceAll (unit '-') (unit '+')
      (latin1 [byte (Base64.urlSymbol (Base64.symbol n))]))) = [Base64.symbol n] := by
  have all : ∀ n : Fin 64, letters (replaceAll (unit '_') (unit '/') (replaceAll (unit '-')
    (unit '+') (latin1 [byte (Base64.urlSymbol (Base64.symbol n))]))) = [Base64.symbol n] := by decide
  exact all ⟨n, small⟩

theorem letters_replaced {sextets : List Nat} (small : ∀ n ∈ sextets, n < 64) :
    letters (replaceAll (unit '_') (unit '/') (replaceAll (unit '-') (unit '+')
      (latin1 (ascii (sextets.map fun n => Base64.urlSymbol (Base64.symbol n)))))) =
        sextets.map Base64.symbol := by
  induction sextets with
  | nil => rfl
  | cons n rest ih =>
    rw [List.forall_mem_cons] at small
    exact congrArg₂ (· ++ ·) (letter_replaced small.1) (ih small.2)

/-- The client decodes what was encoded, whichever decoder it has. -/
theorem decodeBase64Url_b64 (host : Host) (b : Bytes) :
    decodeBase64Url host (latin1 (b64 b)) = some (latin1 b) := by
  obtain ⟨sextets, few, written, encoded, small, -, -, short, whole⟩ := Base64.encodeRawUrl_shape b
  have replaced := letters_replaced small
  rw [← written] at replaced
  rw [decodeBase64Url, b64]
  generalize replaceAll (unit '_') (unit '/') (replaceAll (unit '-') (unit '+')
    (latin1 (ascii (Base64.encodeRawUrl b)))) = s at replaced
  have length : s.length = sextets.length := by
    have same := congrArg List.length replaced
    rwa [letters, List.length_map, List.length_map] at same
  have restored : letters (padded s) = Base64.encode b := by
    rw [padded_eq short (by rw [length]; exact whole), encoded, ← replaced, letters, letters,
      List.map_append, List.map_replicate]
    rfl
  rw [ClientHashing.base64ToBytes, restored, Base64.decodeForgiving_encode,
    Base64.decodeLoose_encode, ite_self]
  rfl

theorem exact_of {m : Int} (low : -9007199254740992 ≤ m) (high : m ≤ 9007199254740992) :
    Doubles.Exact m := ⟨low, high⟩

/-- In doubles the comparison is exact, however large the expiry. -/
theorem below_iff {exp now : Int} (clock : IsTimeValue now) :
    Doubles.below (Doubles.minus (Doubles.times (Doubles.ofInt exp) 1000) now) 60000 = true ↔
      exp * 1000 - now < 60000 := by
  obtain ⟨early, late⟩ := clock
  -- a bound that is no double itself is replaced by the nearest power of two
  constructor
  · intro soon
    apply Int.not_le.mp
    intro far
    have read : Doubles.AtLeast (Doubles.ofInt exp) (min exp 9007199254740992) :=
      Doubles.ofInt_atLeast (exact_of (by omega) (by omega)) (by omega)
    have scaled : Doubles.AtLeast (Doubles.times (Doubles.ofInt exp) 1000)
        (min (exp * 1000) 9007199254740992) :=
      Doubles.AtLeast.times read (exact_of (by omega) (by omega)) (by omega)
    have left : Doubles.AtLeast (Doubles.minus (Doubles.times (Doubles.ofInt exp) 1000) now)
        60000 := Doubles.AtLeast.minus scaled (exact_of (by omega) (by omega)) (by omega)
    rw [Doubles.AtLeast.not_below left (Int.le_refl _)] at soon
    cases soon
  · intro soon
    have read : Doubles.AtMost (Doubles.ofInt exp) (max exp (-9007199254740992)) :=
      Doubles.ofInt_atMost (exact_of (by omega) (by omega)) (by omega)
    have scaled : Doubles.AtMost (Doubles.times (Doubles.ofInt exp) 1000)
        (max (exp * 1000) (-9007199254740992)) :=
      Doubles.AtMost.times read (exact_of (by omega) (by omega)) (by omega)
    have left : Doubles.AtMost (Doubles.minus (Doubles.times (Doubles.ofInt exp) 1000) now)
        59999 := Doubles.AtMost.minus scaled (exact_of (by omega) (by omega)) (by omega)
    exact Doubles.AtMost.below left (by omega)

theorem idxOf?_append {u : UInt16} {front : Text} (absent : u ∉ front) (rest : Text) :
    (front ++ u :: rest).idxOf? u = some front.length := by
  induction front with
  | nil => simp [List.idxOf?_cons]
  | cons v front ih =>
    rw [List.mem_cons, not_or] at absent
    have other : (v == u) = false := beq_false_of_ne (Ne.symm absent.1)
    rw [List.cons_append, List.idxOf?_cons, other, ih absent.2]
    rfl

theorem dot_notMem_text {p : Bytes} (undotted : byte '.' ∉ p) : unit '.' ∉ latin1 p := by
  intro member
  obtain ⟨b, inside, same⟩ := List.mem_map.mp member
  have dot : b = byte '.' := UInt8.toUInt16_inj.mp same
  exact undotted (dot ▸ inside)

/-- It is the token of the client, which sees of it when it expires. -/
theorem expiringSoon_sign (mac : Bytes → Bytes → Bytes) (secret : Bytes) (uid kind : String)
    (ttl t : Int) (host : Host) {now : Int} (clock : IsTimeValue now) :
    expiringSoon host (latin1 (sign mac secret uid kind ttl t)) now =
      DiscoveryClient.expiringSoon ⟨uid, some (unix (t + ttl))⟩ now := by
  obtain ⟨v, parsed, found⟩ := parse_marshal_client { uid, kind, exp := unix (t + ttl) }
  have there : b64 (Claims.marshal { uid, kind, exp := unix (t + ttl) }) ≠ [] :=
    b64_ne_nil (List.cons_ne_nil _ _)
  have undotted := dot_notMem_text (dot_notMem_b64 (Claims.marshal { uid, kind, exp := unix (t + ttl) }))
  have decoded := decodeBase64Url_b64 host (Claims.marshal { uid, kind, exp := unix (t + ttl) })
  rw [sign]
  generalize b64 (Claims.marshal { uid, kind, exp := unix (t + ttl) }) = p at there undotted decoded
  have text : latin1 (p ++ [byte '.'] ++ b64 (mac secret p)) =
      latin1 p ++ unit '.' :: latin1 (b64 (mac secret p)) := by
    rw [List.append_assoc, JsonInterchange.latin1_append]
    rfl
  obtain ⟨k, long⟩ : ∃ k, (latin1 p).length = k + 1 := by
    cases p with
    | nil => exact absurd rfl there
    | cons b p => exact ⟨p.length, by simp [latin1]⟩
  have index := idxOf?_append undotted (latin1 (b64 (mac secret p)))
  have first : (latin1 p ++ unit '.' :: latin1 (b64 (mac secret p))).take (k + 1) = latin1 p := by
    rw [← long]
    exact List.take_left
  rw [text, expiringSoon, index, long]
  simp only [first, decoded, Option.bind_some, parsed, found]
  rw [DiscoveryClient.expiringSoon, Bool.eq_iff_iff, decide_eq_true_eq]
  exact below_iff clock

/-- A token says what was signed while its expiry is ahead. -/
theorem verify_eq (uid kind : String) (expiresAt t : Int) :
    DiscoveryStore.Token.verify ⟨uid, kind, expiresAt⟩ t =
      if unix t < unix expiresAt then some (uid, kind) else none := by
  rw [DiscoveryStore.Token.verify]
  by_cases expired : unix expiresAt ≤ unix t
  · rw [if_pos expired, if_neg (Int.not_lt.mpr expired)]
  · rw [if_neg expired, if_pos (Int.not_le.mp expired)]

theorem verifyAccess_eq (uid kind : String) (expiresAt t : Int) :
    RelaySessions.verifyAccess ⟨uid, kind, expiresAt⟩ t =
      if unix t < unix expiresAt ∧ kind = kindAccess then some (uid, unix expiresAt) else none := by
  rw [RelaySessions.verifyAccess, verify_eq]
  by_cases fresh : unix t < unix expiresAt
  · rw [if_pos fresh]
    by_cases access : kind = kindAccess
    · rw [if_pos ⟨fresh, access⟩]
      exact if_pos access
    · rw [if_neg fun both => access both.2]
      exact if_neg access
  · rw [if_neg fresh, if_neg fun both => fresh both.1]

theorem tokens_agree (mac : Bytes → Bytes → Bytes) (secret : Bytes) :
    (∀ (uid kind : String) (ttl t0 : Int), GoJson.IsInt64 (unix (t0 + ttl)) →
      (∀ t, verify mac secret (sign mac secret uid kind ttl t0) t =
        if unix t < unix (t0 + ttl) then some (uid, kind) else none) ∧
      (∀ t, verifyAccess mac secret (sign mac secret uid kind ttl t0) t =
        if unix t < unix (t0 + ttl) ∧ kind = kindAccess then some (uid, unix (t0 + ttl))
        else none) ∧
      (∀ host now, IsTimeValue now →
        (expiringSoon host (latin1 (sign mac secret uid kind ttl t0)) now = true ↔
          unix (t0 + ttl) * 1000 - now < 60000))) ∧
    (∀ token t, (verify mac secret token t).isSome →
      token = segment token ++ [byte '.'] ++ b64 (mac secret (segment token))) ∧
    (∀ token token' t t', (verify mac secret token t).isSome →
      (verify mac secret token' t').isSome → segment token = segment token' → token = token') := by
  have spelled : ∀ token t, (verify mac secret token t).isSome →
      token = segment token ++ [byte '.'] ++ b64 (mac secret (segment token)) := by
    intro token t accepted
    rw [verify, Option.isSome_map] at accepted
    obtain ⟨c, read⟩ := Option.isSome_iff_exists.mp accepted
    exact eq_of_parse mac secret read
  refine ⟨?_, spelled, ?_⟩
  · intro uid kind ttl t0 fits
    refine ⟨?_, ?_, ?_⟩
    · intro t
      rw [verify_sign mac secret fits, verify_eq]
    · intro t
      rw [verifyAccess_sign mac secret fits, verifyAccess_eq]
    · intro host now clock
      rw [expiringSoon_sign mac secret uid kind ttl t0 host clock]
      exact decide_eq_true_iff
  · intro token token' t t' accepted accepted' same
    rw [spelled token t accepted, spelled token' t' accepted', same]

/-- A token signed with HMAC for a quarter of an hour. -/
def freshToken : Bytes := sign hmac [1, 2, 3] "<é>" "access" 900000000000 1700000000999999999

theorem fresh_token_agrees :
    verify hmac [1, 2, 3] freshToken 1700000899999999999 = some ("<é>", "access") ∧
    expiringSoon ⟨true⟩ (latin1 freshToken) 1700000840000 = false ∧
    freshToken = segment freshToken ++ [byte '.'] ++ b64 (hmac [1, 2, 3] (segment freshToken)) ∧
    ∀ token, (verify hmac [1, 2, 3] token 1700000000000000000).isSome →
      segment token = segment freshToken → token = freshToken := by
  obtain ⟨signed, spelled, unique⟩ := tokens_agree hmac [1, 2, 3]
  obtain ⟨verified, -, seen⟩ := signed "<é>" "access" 900000000000 1700000000999999999 (by decide)
  have valid : verify hmac [1, 2, 3] freshToken 1700000899999999999 = some ("<é>", "access") := by
    rw [freshToken, verified]
    rfl
  have accepted : (verify hmac [1, 2, 3] freshToken 1700000899999999999).isSome := by
    rw [valid]
    rfl
  refine ⟨valid, ?_, spelled freshToken _ accepted, ?_⟩
  · rw [freshToken, Bool.eq_false_iff, ne_eq, seen ⟨true⟩ 1700000840000 ⟨by decide, by decide⟩]
    decide
  · intro token other same
    exact unique token freshToken _ _ other accepted same

end Hwfa.AuthToken
