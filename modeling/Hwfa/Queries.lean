import Hwfa.JsonWriters
import Hwfa.PercentCoding

/-!
The queries of URLs: as `encodeURIComponent` builds them, and as the `net/url` of Go
reads them.

A plus sign is a blank in a query, and a part that is no pair of a key and a value is
passed over.  `encodeURIComponent` keeps neither of the separators, nor the plus sign, nor
the semicolon, so every text comes back.
-/

namespace Hwfa.Queries

open Hwfa.Json (Text utf16)
open Hwfa.JsonGrammar (utf16_eq)
open Hwfa.GoJson (Bytes byte)
open Hwfa.JsonReaders (encode16 scalars scalars_encode16)
open Hwfa.JsonWriters (utf8Text)
open Hwfa.PercentCoding

/-! ### Reading -/

/-- `url.QueryUnescape` -/
def queryUnescape (s : Bytes) : Option Bytes :=
  decode (s.map fun b => if b = byte '+' then byte ' ' else b)

/-- A part of a query, if it is a key and a value. -/
def parsePart (part : Bytes) : Option (Bytes × Bytes) :=
  if part = [] ∨ part.contains (byte ';') then none
  else do
    let key ← queryUnescape (cut equals part).1
    let value ← queryUnescape (cut equals part).2
    return (key, value)

/-- `url.ParseQuery`, where its error is dropped, as `URL.Query` does. -/
def parseQuery (query : Bytes) : List (Bytes × Bytes) :=
  (query.splitOn ampersand).filterMap parsePart

/-- `Values.Get` -/
def get (values : List (Bytes × Bytes)) (key : Bytes) : Bytes :=
  ((values.find? fun v => v.1 = key).map Prod.snd).getD []

/-! ### Writing -/

/-- The bytes that `encodeURIComponent` keeps. -/
def unescaped (b : UInt8) : Bool :=
  byte 'A' ≤ b && b ≤ byte 'Z' || byte 'a' ≤ b && b ≤ byte 'z' || byte '0' ≤ b && b ≤ byte '9' ||
    ['-', '_', '.', '!', '~', '*', '\'', '(', ')'].any fun c => b = byte c

/-- A text without half a surrogate pair. -/
def WellFormed (t : Text) : Prop := encode16 (scalars t) = t

instance (t : Text) : Decidable (WellFormed t) := inferInstanceAs (Decidable (_ = _))

/-- `encodeURIComponent`, which throws at half a surrogate pair. -/
def encodeURIComponent (t : Text) : Option Bytes :=
  if WellFormed t then some (encode unescaped (utf8Text t)) else none

theorem wellFormed_utf16 (s : String) : WellFormed (utf16 s) := by
  have same : utf16 s = encode16 s.toList := (congrArg utf16 String.ofList_toList.symm).trans (utf16_eq _)
  rw [WellFormed, same, scalars_encode16]

/-! ### What is written is read -/

variable {kept : UInt8 → Bool}

/-- Nothing of what is written means something else in a query. -/
structure Quotes (kept : UInt8 → Bool) : Prop where
  separates : Separates kept
  plus : kept (byte '+') = false
  semicolon : kept (byte ';') = false

theorem quotes_unescaped : Quotes unescaped := ⟨⟨by decide, by decide, by decide⟩, by decide, by decide⟩

theorem queryUnescape_encode (quotes : Quotes kept) (s : Bytes) :
    queryUnescape (encode kept s) = some s := by
  have absent : byte '+' ∉ encode kept s := notMem_encode quotes.plus (by decide) (by decide) s
  have same : (encode kept s).map (fun b => if b = byte '+' then byte ' ' else b) = encode kept s := by
    refine (List.map_congr_left fun b member => ?_).trans (List.map_id _)
    exact if_neg fun plus : b = byte '+' => absent (plus ▸ member)
  rw [queryUnescape, same, decode_encode quotes.separates.percent]

theorem parsePart_writePair (quotes : Quotes kept) (pair : Bytes × Bytes) :
    parsePart (writePair kept pair) = some pair := by
  have absent (s : Bytes) : byte ';' ∉ encode kept s :=
    notMem_encode quotes.semicolon (by decide) (by decide) s
  have there : writePair kept pair ≠ [] := by simp [writePair]
  have whole : byte ';' ∉ writePair kept pair := by
    rw [writePair, List.mem_append, List.mem_cons, not_or, not_or]
    exact ⟨absent _, by decide, absent _⟩
  have unequal : equals ∉ encode kept pair.1 :=
    notMem_encode quotes.separates.equals (by decide) (by decide) pair.1
  rw [parsePart, if_neg (by simp [there, whole]), writePair, cut_append unequal,
    queryUnescape_encode quotes, queryUnescape_encode quotes]
  rfl

/-- The pairs of a query that is written are read. -/
theorem parseQuery_writePairs (quotes : Quotes kept) {pairs : List (Bytes × Bytes)}
    (some_pair : pairs ≠ []) : parseQuery (writePairs kept pairs) = pairs := by
  have parts : ∀ part ∈ pairs.map (writePair kept), ampersand ∉ part := by
    intro part member
    obtain ⟨pair, -, rfl⟩ := List.mem_map.mp member
    exact ampersand_notMem_writePair quotes.separates pair
  have split : (writePairs kept pairs).splitOn ampersand = pairs.map (writePair kept) :=
    List.splitOn_intercalate ampersand parts (by simpa using some_pair)
  rw [parseQuery, split]
  clear some_pair parts split
  induction pairs with
  | nil => rfl
  | cons pair rest ih => rw [List.map_cons, List.filterMap_cons, parsePart_writePair quotes, ih]

end Hwfa.Queries
