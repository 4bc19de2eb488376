import Hwfa.PercentCoding

/-!
What a URL names: the path behind its authority and the parameters of its query.

A path is resolved segment by segment.  A single dot stays where it is and two dots go
one segment back, so a last segment that is neither of them names something directly
below the path before it.
-/

namespace Hwfa.Urls

open Hwfa.PercentCoding (cut decode readPairs)

abbrev Bytes := List UInt8

def hash : UInt8 := 35

def dot : UInt8 := 46

def slash : UInt8 := 47

def colon : UInt8 := 58

def question : UInt8 := 63

/-- What ends the authority of a URL. -/
def delimits (b : UInt8) : Bool := b = slash || b = question || b = hash

/-- What is behind the scheme and the authority of a URL, without its fragment. -/
def target (url : Bytes) : Bytes :=
  let rest := (cut colon url).2.drop 2
  (cut hash (rest.dropWhile fun b => !delimits b)).1

/-- The path and the parameters, decoded. -/
def read (url : Bytes) : Option (Bytes × List (Bytes × Bytes)) := do
  let path ← decode (cut question (target url)).1
  let query ← readPairs (cut question (target url)).2
  return (path, query)

/-- One segment after another. -/
def enter (above : List Bytes) (segment : Bytes) : List Bytes :=
  if segment = [dot] then above
  else if segment = [dot, dot] then above.dropLast
  else above ++ [segment]

/-- Where a path leads, from the root on. -/
def resolve (path : Bytes) : List Bytes := ((path.splitOn slash).drop 1).foldl enter []

/-- A segment that names something. -/
structure Plain (segment : Bytes) : Prop where
  whole : slash ∉ segment
  no_dot : segment ≠ [dot]
  no_dots : segment ≠ [dot, dot]

/-- A path leads directly below the path before its last segment. -/
theorem resolve_append {segment : Bytes} (plain : Plain segment) (path : Bytes) :
    resolve (path ++ slash :: segment) = resolve path ++ [segment] := by
  have last : segment.splitOn slash = [segment] := List.splitOn_eq_singleton plain.whole
  have root : 1 ≤ (path.splitOn slash).length :=
    List.length_pos_of_ne_nil (List.splitOn_ne_nil slash path)
  rw [resolve, List.splitOn_append_cons_self, last, List.drop_append_of_le_length root,
    List.foldl_append]
  exact (if_neg plain.no_dot).trans (if_neg plain.no_dots)

/-- A URL that was put together from a path that begins with a slash is read as its parts. -/
theorem read_append {scheme authority path query : Bytes} (named : colon ∉ scheme)
    (host : ∀ b ∈ authority, !delimits b) (rooted : path.head? = some slash)
    (question_free : question ∉ path) (hash_free : hash ∉ path ++ question :: query) :
    read (scheme ++ colon :: slash :: slash :: (authority ++ (path ++ question :: query))) = do
      let path ← decode path
      let query ← readPairs query
      return (path, query) := by
  have behind : target (scheme ++ colon :: slash :: slash ::
      (authority ++ (path ++ question :: query))) = path ++ question :: query := by
    have first : (path ++ question :: query).dropWhile (fun b => !delimits b) =
        path ++ question :: query := by
      cases path with
      | nil => cases rooted
      | cons b rest =>
        rw [Option.some.inj rooted]
        rfl
    have others : ∀ b ∈ path ++ question :: query, decide (b ≠ hash) = true := by
      intro b member
      exact decide_eq_true fun same => hash_free (same ▸ member)
    rw [target, PercentCoding.cut_append named]
    change (cut hash ((authority ++ (path ++ question :: query)).dropWhile _)).1 = _
    rw [List.dropWhile_append_of_pos host, first, cut, List.takeWhile_eq_self_iff.mpr others]
  rw [read, behind, PercentCoding.cut_append question_free]

end Hwfa.Urls
