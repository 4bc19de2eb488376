import Hwfa.ConversationInbound

/-!
Status updates, as they come from peers that may send anything.

A payload is taken as it was parsed.  Comparing its times converts them to
numbers, which an object can refuse; and the sort of the store compares the
times of whatever is kept, so one status may make the next one throw.
-/

namespace Hwfa.StatusStore

open Hwfa.Json Hwfa.ConversationStore Hwfa.ConversationInbound

/-! ### Numbers -/

/-- The number of a digit string in a base, if all of it is one. -/
def readRadix (radix : Nat) (t : Text) : Option Number := do
  guard (t ≠ [])
  let digits ← t.mapM fun u => (hexDigit u).filter (· < radix)
  return .ofDecimal false (digits.foldl (fun n d => n * radix + d) 0) 0

/-- A decimal literal with an optional sign, if all of the text is one. -/
def readDecimal (t : Text) : Option Number := do
  let negative := t.head? = some (unit '-')
  let t := if negative ∨ t.head? = some (unit '+') then t.drop 1 else t
  if t = utf16 "Infinity" then return .infinite negative
  let whole := t.takeWhile isDigit
  let t := t.dropWhile isDigit
  let dotted := t.head? = some (unit '.')
  let fraction := if dotted then (t.drop 1).takeWhile isDigit else []
  guard (whole ++ fraction ≠ [])
  let t := if dotted then (t.drop 1).dropWhile isDigit else t
  let scaled := t.head? = some (unit 'e') ∨ t.head? = some (unit 'E')
  let signed := t[1]? = some (unit '+') ∨ t[1]? = some (unit '-')
  let exponent := if scaled then t.drop (if signed then 2 else 1) else []
  guard (if scaled then exponent ≠ [] ∧ exponent.all isDigit else t = [])
  let e : Int := if t[1]? = some (unit '-') then -(readDigits exponent) else readDigits exponent
  return .ofDecimal negative (readDigits (whole ++ fraction)) (e - fraction.length)

/-- `Number` of a text; `none` is NaN. -/
def textToNumber (t : Text) : Option Number :=
  let t := trim t
  let marked (lower upper : Char) : Bool :=
    t.take 2 = [unit '0', unit lower] || t.take 2 = [unit '0', unit upper]
  if t = [] then some (.finite 0)
  else if marked 'x' 'X' then readRadix 16 (t.drop 2)
  else if marked 'o' 'O' then readRadix 8 (t.drop 2)
  else if marked 'b' 'B' then readRadix 2 (t.drop 2)
  else readDecimal t

/-- `Number` of a value, `none` where it throws; `some none` is NaN. -/
def toNumber : Value → Option (Option Number)
  | .primitive p => match p with
    | .undefined => some none
    | .null => some (some (.finite 0))
    | .boolean b => some (some (.finite (if b then one else 0)))
    | .number n => some (some n)
    | .string t => some (textToNumber t)
  | v => (toText v).map textToNumber

/-- Whether a value can be converted to a number, NaN included. -/
def converts (v : Value) : Bool := (toNumber v).isSome

def less : Number → Number → Bool
  | .finite a, .finite b => a < b
  | .infinite negative, .infinite other => negative && ! other
  | .infinite negative, .finite _ => negative
  | .finite _, .infinite negative => ! negative

/-- A comparison with NaN is false. -/
def lessThan (v w : Value) : Bool :=
  match toNumber v, toNumber w with
  | some (some n), some (some k) => less n k
  | _, _ => false

def clock (now : Nat) : Value := .number (.finite (now * one))

/-! ### The store -/

def STATUS_TTL_MS : Nat := 24 * 60 * 60 * 1000

structure StatusItem where
  id : Value
  text : Value
  at_ : Value
  expiresAt : Value
  fromUserId : Text
  fromPhone : Option Text := none
  mine : Bool

/-- `===` of values that were parsed apart: no two of them are one object. -/
def identical : Value → Value → Bool
  | .primitive p, .primitive q => p = q
  | _, _ => false

/-- What is left of the other items, and the new one, at that time. -/
def kept (items : List StatusItem) (item : StatusItem) (now : Nat) : List StatusItem :=
  (items.filter (fun s => ! identical s.id item.id) ++ [item]).filter fun s =>
    lessThan (clock now) s.expiresAt

/-- The order of `b.at - a.at`, in which NaN is no difference. -/
def newestFirst (a b : StatusItem) : Bool := ! lessThan a.at_ b.at_

/-- The items with a new one among them, unless a comparison throws: of a time at
which an item expires, or, where there is something to sort, of one at which it
was posted. -/
def upsert (items : List StatusItem) (item : StatusItem) (now : Nat) :
    Option (List StatusItem) :=
  let others := items.filter fun s => ! identical s.id item.id
  let next := kept items item now
  if (∀ s ∈ others ++ [item], converts s.expiresAt) ∧
      (next.length ≤ 1 ∨ ∀ s ∈ next, converts s.at_) then
    some (next.mergeSort newestFirst)
  else none

/-- What `postStatus` records of one's own. -/
def own (text : Text) (at_ : Nat) (random : Text) : StatusItem where
  id := .string (utf16 "s-" ++ base36 at_ ++ unit '-' :: random)
  text := .string text
  at_ := clock at_
  expiresAt := clock (at_ + STATUS_TTL_MS)
  fromUserId := utf16 "me"
  mine := true

def addOwn (items : List StatusItem) (text : Text) (at_ now : Nat) (random : Text) :
    Option (List StatusItem) :=
  upsert items (own text at_ random) now

/-- A payload as it was parsed, and who sent it. -/
def received (fromUserId : Text) (payload : Value) (fromPhone : Option Text) : StatusItem where
  id := payload.get "id"
  text := payload.get "text"
  at_ := payload.get "at"
  expiresAt := payload.get "expiresAt"
  fromUserId := fromUserId
  fromPhone := fromPhone
  mine := false

def receiveStatus (items : List StatusItem) (fromUserId : Text) (payload : Value)
    (fromPhone : Option Text) (now : Nat) : Option (List StatusItem) :=
  upsert items (received fromUserId payload fromPhone) now

/-- Drops what has expired, unless a comparison throws. -/
def prune (items : List StatusItem) (now : Nat) : Option (List StatusItem) :=
  if ∀ s ∈ items, converts s.expiresAt then
    some (items.filter fun s => lessThan (clock now) s.expiresAt)
  else none

/-! ### When a status is taken -/

/-- What the conversions have to accept of a new item: the time at which it
expires and, if it is kept with another one, every time to sort by. -/
structure Sortable (items : List StatusItem) (item : StatusItem) (now : Nat) : Prop where
  expires : converts item.expiresAt
  sorts : (kept items item now).length ≤ 1 ∨ ∀ s ∈ kept items item now, converts s.at_

instance (items : List StatusItem) (item : StatusItem) (now : Nat) :
    Decidable (Sortable items item now) :=
  decidable_of_iff (converts item.expiresAt ∧
    ((kept items item now).length ≤ 1 ∨ ∀ s ∈ kept items item now, converts s.at_))
    ⟨fun h => ⟨h.1, h.2⟩, fun h => ⟨h.expires, h.sorts⟩⟩

/-- Items whose expiry has been compared before. -/
def Comparable (items : List StatusItem) : Prop := ∀ s ∈ items, converts s.expiresAt

theorem upsert_isSome_iff {items : List StatusItem} (comparable : Comparable items)
    (item : StatusItem) (now : Nat) :
    (upsert items item now).isSome ↔ Sortable items item now := by
  unfold upsert
  rw [Option.isSome_ite]
  constructor
  · rintro ⟨expires, sorts⟩
    exact ⟨expires item (by simp), sorts⟩
  · intro sortable
    refine ⟨fun s member => ?_, sortable.sorts⟩
    rcases List.mem_append.mp member with before | new
    · exact comparable s (List.mem_of_mem_filter before)
    · rw [List.mem_singleton.mp new]
      exact sortable.expires

theorem upsert_comparable {items items' : List StatusItem} {item : StatusItem} {now : Nat}
    (taken : upsert items item now = some items') : Comparable items' := by
  unfold upsert at taken
  obtain ⟨⟨expires, -⟩, same⟩ := Option.ite_none_right_eq_some.mp taken
  cases same
  intro s member
  exact expires s (List.mem_of_mem_filter (List.mem_mergeSort.mp member))

theorem prune_comparable {items items' : List StatusItem} {now : Nat}
    (pruned : prune items now = some items') : Comparable items' := by
  unfold prune at pruned
  obtain ⟨expires, same⟩ := Option.ite_none_right_eq_some.mp pruned
  cases same
  exact fun s member => expires s (List.mem_of_mem_filter member)

end Hwfa.StatusStore
