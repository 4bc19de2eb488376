import Hwfa.ClientHashing
import Hwfa.Doubles

/-!
The number two users compare (`packages/client/src/safety-number.ts`).

It is symmetric because the keys are sorted before they are hashed, and it binds both
keys because sorted keys of one length can be told apart in what is hashed.
-/

namespace Hwfa.SafetyNumber

open Hwfa.Json Hwfa.ClientHashing

def ITERATIONS : Nat := 5200
def GROUPS : Nat := 12
def GROUP_MOD : Nat := 100000

def concat (a b : List UInt8) : List UInt8 := a ++ b

/-- Negative, zero or positive; the loop ends at the first two bytes that differ. -/
def compareBytes (a b : List UInt8) : Int :=
  match (a.zip b).find? fun pair => pair.1 ≠ pair.2 with
  | some pair => if pair.1 < pair.2 then -1 else 1
  | none => (a.length : Int) - b.length

/-- `[lo, hi]` -/
def sortKeys (a b : List UInt8) : List UInt8 × List UInt8 :=
  if compareBytes a b ≤ 0 then (a, b) else (b, a)

/-- `h` after so many iterations. -/
def hashKeys (keys : List UInt8 × List UInt8) : Nat → Option (List UInt8)
  | 0 => sha256 (concat keys.1 keys.2)
  | i + 1 => (hashKeys keys i).bind fun h => sha256 (concat h (concat keys.1 keys.2))

/-- `n` of a block -/
def blockNumber (block : List UInt8) : Nat :=
  (block.take 5).foldl (fun n byte => (n * 256 + byte.toNat) % GROUP_MOD) 0

/-- `String(n).padStart(5, "0")` -/
def group (n : Nat) : Text := (decimal n).leftpad 5 (unit '0')

/-- `safetyNumber`, unless a key is not base64 or a typed array would be too long. -/
def safetyNumber (host : Host) (identityKeyAB64 identityKeyBB64 : Text) : Option Text := do
  let a ← base64ToBytes host identityKeyAB64
  let b ← base64ToBytes host identityKeyBB64
  let h ← hashKeys (sortKeys a b) ITERATIONS
  let digits ← (List.range GROUPS).mapM fun k =>
    (sha256 (concat h [UInt8.ofNat k])).map fun block => group (blockNumber block)
  some ([unit ' '].intercalate digits)

variable {a b a' b' : List UInt8} {keys : List UInt8 × List UInt8}

/-! ### The order -/

theorem compareBytes_cons (x y : UInt8) (a b : List UInt8) :
    compareBytes (x :: a) (y :: b) =
      if x = y then compareBytes a b else if x < y then -1 else 1 := by
  unfold compareBytes
  rw [List.zip_cons_cons, List.find?_cons]
  by_cases same : x = y
  · simp [same]
  · simp [same]

/-- The comparison is that of the lexicographic order. -/
theorem compareBytes_le_iff : compareBytes a b ≤ 0 ↔ a ≤ b := by
  induction a generalizing b with
  | nil =>
    have shorter : compareBytes [] b ≤ 0 := by
      simp [compareBytes]
    exact iff_of_true shorter (List.nil_le b)
  | cons x a ih =>
    cases b with
    | nil =>
      have longer : ¬ compareBytes (x :: a) [] ≤ 0 := by
        simp [compareBytes]
      exact iff_of_false longer (List.not_le.mpr (List.nil_lt_cons x a))
    | cons y b =>
      rw [compareBytes_cons, List.cons_le_cons_iff, ← ih]
      by_cases same : x = y
      · subst same
        simp
      · rw [if_neg same]
        by_cases less : x < y
        · simp [less]
        · simp [less, same]

theorem sortKeys_eq (a b : List UInt8) : sortKeys a b = if a ≤ b then (a, b) else (b, a) := by
  unfold sortKeys
  simp only [compareBytes_le_iff]

/-- Whichever key is given first. -/
theorem sortKeys_comm (a b : List UInt8) : sortKeys a b = sortKeys b a := by
  rw [sortKeys_eq, sortKeys_eq]
  by_cases first : a ≤ b
  · rw [if_pos first]
    by_cases second : b ≤ a
    · rw [if_pos second, List.le_antisymm first second]
    · rw [if_neg second]
  · rw [if_neg first, if_pos ((List.le_total a b).resolve_left first)]

theorem sortKeys_cases (a b : List UInt8) : sortKeys a b = (a, b) ∨ sortKeys a b = (b, a) := by
  unfold sortKeys
  split
  · exact .inl rfl
  · exact .inr rfl

/-- What is hashed of two keys. -/
def sortedConcat (a b : List UInt8) : List UInt8 := concat (sortKeys a b).1 (sortKeys a b).2

/-- Sorted keys of one length are known from what they are joined to. -/
theorem sortedConcat_injective {n : Nat} (la : a.length = n) (lb : b.length = n)
    (la' : a'.length = n) (lb' : b'.length = n) (same : sortedConcat a b = sortedConcat a' b') :
    a = a' ∧ b = b' ∨ a = b' ∧ b = a' := by
  have parts : sortKeys a b = sortKeys a' b' := by
    have sizes : (sortKeys a b).1.length = n ∧ (sortKeys a' b').1.length = n := by
      constructor
      · rcases sortKeys_cases a b with sorted | sorted <;> rw [sorted] <;> assumption
      · rcases sortKeys_cases a' b' with sorted | sorted <;> rw [sorted] <;> assumption
    obtain ⟨first, second⟩ := List.append_inj same (sizes.1.trans sizes.2.symm)
    exact Prod.ext first second
  rcases sortKeys_cases a b with sorted | sorted <;> rw [sorted] at parts <;>
    rcases sortKeys_cases a' b' with sorted' | sorted' <;> rw [sorted'] at parts <;> cases parts
  · exact .inl ⟨rfl, rfl⟩
  · exact .inr ⟨rfl, rfl⟩
  · exact .inr ⟨rfl, rfl⟩
  · exact .inl ⟨rfl, rfl⟩

/-! ### What is hashed -/

/-- What is hashed at an iteration: the keys, from the second one on behind the digest of
what was hashed before. -/
def hashInput (joined : List UInt8) : Nat → List UInt8
  | 0 => joined
  | i + 1 => Sha256.sha256 (hashInput joined i) ++ joined

/-- The iterations are those of the standard's hash. -/
theorem hashKeys_eq {i : Nat} {h : List UInt8} (hashes : hashKeys keys i = some h) :
    h = Sha256.sha256 (hashInput (concat keys.1 keys.2) i) := by
  induction i generalizing h with
  | zero => exact (digest_of_sha256 hashes).2
  | succ i ih =>
    obtain ⟨before, earlier, hashes⟩ := Option.bind_eq_some_iff.mp hashes
    have same := ih earlier
    rw [hashInput, ← same]
    exact (digest_of_sha256 hashes).2

theorem length_of_hashKeys {i : Nat} {h : List UInt8} (hashes : hashKeys keys i = some h) :
    h.length = 32 := by
  rw [hashKeys_eq hashes]
  exact Sha256.length_sha256 _

/-- What is hashed ends in the two keys, behind nothing or behind a digest. -/
theorem hashInput_parts (joined : List UInt8) (i : Nat) :
    ∃ h : List UInt8, hashInput joined i = h ++ joined ∧ h.length = if i = 0 then 0 else 32 := by
  cases i with
  | zero => exact ⟨[], rfl, rfl⟩
  | succ i => exact ⟨_, rfl, Sha256.length_sha256 _⟩

/-- At every iteration the keys can be read off what is hashed. -/
theorem hashInput_injective {joined joined' : List UInt8} {i : Nat}
    (same : hashInput joined i = hashInput joined' i) : joined = joined' := by
  obtain ⟨h, input, size⟩ := hashInput_parts joined i
  obtain ⟨h', input', size'⟩ := hashInput_parts joined' i
  rw [input, input'] at same
  exact (List.append_inj same (size.trans size'.symm)).2

/-- The typed arrays are long enough for the keys at every iteration. -/
theorem hashKeys_isSome (short : 32 + (keys.1.length + keys.2.length) < 2147483576) (i : Nat) :
    (hashKeys keys i).isSome := by
  induction i with
  | zero =>
    rw [hashKeys, sha256_eq (by rw [concat, List.length_append]; omega)]
    rfl
  | succ i ih =>
    obtain ⟨h, hashes⟩ := Option.isSome_iff_exists.mp ih
    have size := length_of_hashKeys hashes
    rw [hashKeys, hashes, Option.bind_some, sha256_eq]
    · rfl
    · rw [concat, concat, List.length_append, List.length_append, size]
      omega

/-! ### The digits -/

/-- The number whose digits to the base 256 are the bytes. -/
def bigEndian (bytes : List UInt8) : Nat := bytes.foldl (fun n byte => n * 256 + byte.toNat) 0

/-- Reducing at every byte is reducing at the end. -/
theorem blockNumber_eq (block : List UInt8) :
    blockNumber block = bigEndian (block.take 5) % GROUP_MOD := by
  unfold blockNumber bigEndian
  suffices general : ∀ (bytes : List UInt8) (n : Nat),
      bytes.foldl (fun n byte => (n * 256 + byte.toNat) % GROUP_MOD) (n % GROUP_MOD) =
        bytes.foldl (fun n byte => n * 256 + byte.toNat) n % GROUP_MOD from
    general (block.take 5) 0
  intro bytes
  induction bytes with
  | nil => exact fun n => rfl
  | cons byte rest ih =>
    intro n
    have reduced : (n % GROUP_MOD * 256 + byte.toNat) % GROUP_MOD =
        (n * 256 + byte.toNat) % GROUP_MOD := by
      unfold GROUP_MOD
      omega
    rw [List.foldl_cons, List.foldl_cons, reduced, ih]

theorem length_group {n : Nat} (small : n < GROUP_MOD) : (group n).length = 5 := by
  have digits : (Nat.toDigits 10 n).length ≤ 5 :=
    (Nat.length_toDigits_le_iff (by decide) (by decide)).mpr small
  rw [group, List.length_leftpad, decimal, List.length_map]
  omega

theorem isDigit_group (n : Nat) : ∀ u ∈ group n, isDigit u := by
  intro u member
  rcases List.mem_append.mp member with zero | digit
  · rw [List.eq_of_mem_replicate zero]
    rfl
  · obtain ⟨c, inside, rfl⟩ := List.mem_map.mp digit
    exact Doubles.isDigit_unit (List.all_eq_true.mp (Decimals.digits_are_digits n) c inside)

/-- Leading noughts do not count. -/
theorem readDigits_group (n : Nat) : readDigits (group n) = n := by
  have noughts (k : Nat) (t : Text) :
      readDigits (List.replicate k (unit '0') ++ t) = readDigits t := by
    induction k with
    | zero => rfl
    | succ k ih =>
      rw [← ih]
      rfl
  have digits : ∀ c ∈ Nat.toDigits 10 n, c.isDigit :=
    List.all_eq_true.mp (Decimals.digits_are_digits n)
  unfold group List.leftpad
  rw [noughts, decimal, Doubles.readDigits_units digits, Nat.ofDigitChars_ten_toDigits]

/-! ### The number -/

/-- The blocks are short enough to be hashed, and their digests are the standard's. -/
theorem mapM_groups {h : List UInt8} (size : h.length = 32) (ks : List Nat) :
    (ks.mapM fun k => (sha256 (concat h [UInt8.ofNat k])).map fun block =>
      group (blockNumber block)) =
    some (ks.map fun k =>
      group (bigEndian ((Sha256.sha256 (h ++ [UInt8.ofNat k])).take 5) % GROUP_MOD)) := by
  have hashes (k : Nat) : ((sha256 (concat h [UInt8.ofNat k])).map fun block =>
      group (blockNumber block)) =
      some (group (bigEndian ((Sha256.sha256 (h ++ [UInt8.ofNat k])).take 5) % GROUP_MOD)) := by
    have short : (concat h [UInt8.ofNat k]).length < 2147483576 := by
      rw [concat, List.length_append, size, List.length_singleton]
      decide
    rw [sha256_eq short, Option.map_some, blockNumber_eq]
    rfl
  simp only [hashes]
  exact List.mapM_pure

theorem safetyNumber_comm (host : Host) (identityKeyAB64 identityKeyBB64 : Text) :
    safetyNumber host identityKeyAB64 identityKeyBB64 =
      safetyNumber host identityKeyBB64 identityKeyAB64 := by
  unfold safetyNumber
  simp only [Option.bind_eq_bind]
  cases base64ToBytes host identityKeyAB64 with
  | none =>
    cases base64ToBytes host identityKeyBB64 with
    | none => rw [Option.bind_none]
    | some b => rw [Option.bind_none, Option.bind_some, Option.bind_none]
  | some a =>
    cases base64ToBytes host identityKeyBB64 with
    | none => rw [Option.bind_some, Option.bind_none, Option.bind_none]
    | some b =>
      rw [Option.bind_some, Option.bind_some, Option.bind_some, Option.bind_some, sortKeys_comm]

/-- What the number is once the keys are hashed. -/
theorem safetyNumber_of_hashKeys {host : Host} {identityKeyAB64 identityKeyBB64 : Text}
    {h : List UInt8} (read : base64ToBytes host identityKeyAB64 = some a)
    (read' : base64ToBytes host identityKeyBB64 = some b)
    (hashes : hashKeys (sortKeys a b) ITERATIONS = some h) :
    safetyNumber host identityKeyAB64 identityKeyBB64 = some ([unit ' '].intercalate
      ((List.range GROUPS).map fun k =>
        group (bigEndian ((Sha256.sha256 (h ++ [UInt8.ofNat k])).take 5) % GROUP_MOD))) := by
  have digits := mapM_groups (length_of_hashKeys hashes) (List.range GROUPS)
  unfold safetyNumber
  simp only [Option.bind_eq_bind]
  rw [read, Option.bind_some, read', Option.bind_some, hashes, Option.bind_some, digits,
    Option.bind_some]

/-- The number does not depend on whose key comes first.  It is twelve groups of five
digits, the k-th of them the first 40 bits of the hash of `h` and `k` modulo 100000, where
`h` is what hashing makes of the sorted keys when they are hashed once and 5200 times more
behind the digest so far; every two keys that are base64 and can be held in a typed array
have a number.  The sorted keys end what is hashed at every iteration, and what is hashed
tells two keys of one length from every other two. -/
theorem safetyNumber_spec (host : Host) (identityKeyAB64 identityKeyBB64 : Text) :
    safetyNumber host identityKeyAB64 identityKeyBB64 =
        safetyNumber host identityKeyBB64 identityKeyAB64 ∧
      (∀ number, safetyNumber host identityKeyAB64 identityKeyBB64 = some number →
        ∃ a b h groups, base64ToBytes host identityKeyAB64 = some a ∧
          base64ToBytes host identityKeyBB64 = some b ∧
          hashKeys (sortKeys a b) ITERATIONS = some h ∧
          h = Sha256.sha256 (hashInput (sortedConcat a b) 5200) ∧
          number = [unit ' '].intercalate groups ∧ groups.length = 12 ∧
          ∀ k g, groups[k]? = some g → g.length = 5 ∧ (∀ u ∈ g, isDigit u) ∧
            readDigits g = bigEndian ((Sha256.sha256 (h ++ [UInt8.ofNat k])).take 5) % 100000) ∧
      (∀ a b, base64ToBytes host identityKeyAB64 = some a →
        base64ToBytes host identityKeyBB64 = some b → 32 + (a.length + b.length) < 2147483576 →
          (safetyNumber host identityKeyAB64 identityKeyBB64).isSome) ∧
      (∀ (a b : List UInt8) (i : Nat), sortedConcat a b <:+ hashInput (sortedConcat a b) i) ∧
      ∀ a b a' b' : List UInt8, a.length = b.length → a'.length = a.length → b'.length = a.length →
        ∀ i, hashInput (sortedConcat a b) i = hashInput (sortedConcat a' b') i →
          a = a' ∧ b = b' ∨ a = b' ∧ b = a' := by
  refine ⟨safetyNumber_comm .., ?_, ?_, ?_, ?_⟩
  · intro number shown
    have parts := shown
    unfold safetyNumber at parts
    simp only [Option.bind_eq_bind, Option.bind_eq_some_iff] at parts
    obtain ⟨a, read, b, read', h, hashes, -⟩ := parts
    have same := shown.symm.trans (safetyNumber_of_hashKeys read read' hashes)
    injection same with same
    refine ⟨a, b, h, _, read, read', hashes, hashKeys_eq hashes, same, ?_, ?_⟩
    · rw [List.length_map, List.length_range]
      rfl
    · intro k g found
      rw [List.getElem?_map] at found
      obtain ⟨j, inside, rfl⟩ := Option.map_eq_some_iff.mp found
      obtain ⟨within, rfl⟩ := List.getElem?_eq_some_iff.mp inside
      rw [List.getElem_range]
      exact ⟨length_group (Nat.mod_lt _ (by decide)), isDigit_group _, readDigits_group _⟩
  · intro a b read read' short
    have sizes : (sortKeys a b).1.length + (sortKeys a b).2.length = a.length + b.length := by
      rcases sortKeys_cases a b with sorted | sorted <;> rw [sorted]
      exact Nat.add_comm ..
    rw [← sizes] at short
    obtain ⟨h, hashes⟩ := Option.isSome_iff_exists.mp (hashKeys_isSome short ITERATIONS)
    rw [safetyNumber_of_hashKeys read read' hashes]
    rfl
  · intro a b i
    obtain ⟨h, input, -⟩ := hashInput_parts (sortedConcat a b) i
    exact ⟨h, input.symm⟩
  · intro a b a' b' lb la' lb' i same
    exact sortedConcat_injective rfl lb.symm la' lb' (hashInput_injective same)

end Hwfa.SafetyNumber
