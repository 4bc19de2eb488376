import Hwfa.JsonWriters

/-!
The types of Go as the `encoding/json` of Go writes and reads them.

A `Codec` is what the encoder shows of a variable of a type and what the decoder stores
in one.  A struct is made of its fields, in their order: the encoder leaves out what is
empty and marked so, the decoder takes the members of an object one after the other, each
for the field that it names.  A codec is `Lawful` when a new variable is filled with what
was shown; a struct is when each field fills its own part of it (`Fills`).

A `none` is an error of the decoder, at which its callers give the whole text up.
-/

namespace Hwfa.GoStructs

open Hwfa.GoJson (Scalar Value appendInt names)
open Hwfa.Json (utf16)
open Hwfa.JsonWriters
open Hwfa.JsonGrammar (Document)
open Hwfa.JsonReaders (jsElements_eq jsValue)

/-- A type: its zero value, what is shown of a variable, and what a value stores in one. -/
structure Codec (α : Type) where
  zero : α
  encode : α → Value
  store : α → Value → Option α

variable {α β σ : Type}

/-- A new variable is filled with what was shown of one that holds `a`. -/
def Codec.Keeps (c : Codec α) (a : α) : Prop := c.store c.zero (c.encode a) = some a

def Codec.Lawful (c : Codec α) : Prop := ∀ a, c.Keeps a

/-- What is shown has only numbers that are literals. -/
def Codec.Plain (c : Codec α) : Prop := ∀ a, Numbered (c.encode a)

/-! ### Values -/

def string : Codec String where
  zero := ""
  encode s := .scalar (.string s)
  store := GoJson.storeString

/-- The type `bool`. -/
def boolean : Codec Bool where
  zero := false
  encode b := .scalar (.boolean b)
  store held
    | .scalar .null => some held
    | .scalar (.boolean b) => some b
    | _ => none

/-- The types `int` and `int64` of a machine with 64 bits. -/
def int : Codec Int64 where
  zero := 0
  encode n := .scalar (.number (appendInt n.toInt))
  store held v := (GoJson.storeInt64 held.toInt v).map Int64.ofInt

/-- The type `int64`, where the model has integers. -/
def int64 : Codec Int where
  zero := 0
  encode n := .scalar (.number (appendInt n))
  store := GoJson.storeInt64

/-- `strconv.ParseUint`, in base 10 and 64 bits, of a number. -/
def parseUint (literal : GoJson.Bytes) : Option UInt64 :=
  match Decimals.readNat (literal.map fun b => Char.ofNat b.toNat) with
  | some n => if n < UInt64.size then some (UInt64.ofNat n) else none
  | none => none

def uint64 : Codec UInt64 where
  zero := 0
  encode n := .scalar (.number (appendInt n.toNat))
  store held
    | .scalar .null => some held
    | .scalar (.number literal) => parseUint literal
    | _ => none

/-- A slice; `null` is one without elements. -/
def slice (c : Codec α) : Codec (List α) where
  zero := []
  encode items := .array (items.map c.encode)
  store
    | _, .scalar .null => some []
    | _, .array elements => elements.mapM (c.store c.zero)
    | _, _ => none

/-- A slice that may be nil, which is shown as `null`. -/
def sliceOrNil (c : Codec α) : Codec (Option (List α)) where
  zero := none
  encode items := (items.map (slice c).encode).getD (.scalar .null)
  store
    | _, .scalar .null => some none
    | _, v => ((slice c).store [] v).map some

def isNull : Value → Bool
  | .scalar .null => true
  | _ => false

/-- A pointer; `null` is none. -/
def pointer (c : Codec α) : Codec (Option α) where
  zero := none
  encode held := (held.map c.encode).getD (.scalar .null)
  store held v := if isNull v then some none else (c.store (held.getD c.zero) v).map some

@[simp] theorem store_string (held s : String) :
    string.store held (.scalar (.string s)) = some s := by
  simp only [string, GoJson.storeString]

theorem lawful_string : string.Lawful := fun _ => rfl

theorem lawful_boolean : boolean.Lawful := fun _ => rfl

theorem isInt64_toInt (n : Int64) : GoJson.IsInt64 n.toInt := by
  have low := n.le_toInt
  have high := n.toInt_lt
  constructor
  · exact low
  · omega

theorem lawful_int : int.Lawful := by
  intro n
  change (GoJson.parseInt (appendInt n.toInt)).map Int64.ofInt = some n
  rw [GoJson.parseInt_appendInt (isInt64_toInt n), Option.map_some, Int64.ofInt_toInt]

theorem keeps_int64 {n : Int} (fits : GoJson.IsInt64 n) : int64.Keeps n :=
  GoJson.parseInt_appendInt fits

theorem lawful_uint64 : uint64.Lawful := by
  intro n
  have digits : (n.toNat : Int).repr.toList = Nat.toDigits 10 n.toNat := by
    rw [Int.repr_eq_if, if_pos (Int.natCast_nonneg _), Int.toNat_natCast, Nat.toList_repr]
  have small := n.toNat_lt
  change parseUint (appendInt n.toNat) = some n
  rw [parseUint, appendInt, GoJson.ofNat_ascii (GoJson.repr_ascii _), digits, Decimals.readNat_digits]
  exact (if_pos small).trans (congrArg some (UInt64.ofNat_toNat))

theorem keeps_slice {c : Codec α} {items : List α} (keeps : ∀ a ∈ items, c.Keeps a) :
    (slice c).Keeps items := by
  change (items.map c.encode).mapM (c.store c.zero) = some items
  induction items with
  | nil => rfl
  | cons a rest ih =>
    rw [List.forall_mem_cons] at keeps
    have head : c.store c.zero (c.encode a) = some a := keeps.1
    rw [List.map_cons, List.mapM_cons, head, ih keeps.2]
    rfl

theorem lawful_slice {c : Codec α} (lawful : c.Lawful) : (slice c).Lawful :=
  fun _ => keeps_slice fun a _ => lawful a

theorem keeps_sliceOrNil {c : Codec α} {items : Option (List α)}
    (keeps : ∀ held, items = some held → ∀ a ∈ held, c.Keeps a) : (sliceOrNil c).Keeps items := by
  cases items with
  | none => rfl
  | some held =>
    have kept : (slice c).store [] ((slice c).encode held) = some held := keeps_slice (keeps held rfl)
    exact congrArg (Option.map some) kept

theorem isLiteral_repr (n : Int) : JsonGrammar.IsLiteral n.repr.toList := by
  obtain ⟨c, more, split, first, _⟩ := Decimals.repr_cons n
  refine ⟨⟨c, more, split, first⟩, ?_, ?_⟩
  · intro d member
    rcases Decimals.repr_chars n d member with rfl | digit
    · exact .inr (by decide)
    · exact .inl digit
  · rw [Doubles.readNumber_repr]
    rfl

theorem plain_string : string.Plain := fun s => .string s

theorem plain_boolean : boolean.Plain := fun b => .boolean b

theorem plain_int : int.Plain := fun n => .number (isLiteral_repr n.toInt)

theorem plain_int64 : int64.Plain := fun n => .number (isLiteral_repr n)

theorem plain_uint64 : uint64.Plain := fun n => .number (isLiteral_repr n.toNat)

theorem plain_slice {c : Codec α} (plain : c.Plain) : (slice c).Plain := by
  intro items
  refine .array fun v member => ?_
  obtain ⟨a, _, rfl⟩ := List.mem_map.mp member
  exact plain a

theorem plain_sliceOrNil {c : Codec α} (plain : c.Plain) : (sliceOrNil c).Plain := by
  intro items
  cases items with
  | none => exact .null
  | some held => exact plain_slice plain held

theorem plain_pointer {c : Codec α} (plain : c.Plain) : (pointer c).Plain := by
  intro held
  cases held with
  | none => exact .null
  | some a => exact plain a

/-! ### Structs -/

/-- A field of a struct: its name, what is shown of it if anything, and what a value
stores in it. -/
structure StructField (σ : Type) where
  name : String
  shows : σ → Option Value
  store : σ → Value → Option σ

/-- A field without options. -/
def field (name : String) (c : Codec α) (get : σ → α) (set : σ → α → σ) : StructField σ where
  name := name
  shows s := some (c.encode (get s))
  store s v := (c.store (get s) v).map (set s)

/-- A field with `omitempty`, which is not shown when it is the zero value. -/
def omitempty [DecidableEq α] (name : String) (c : Codec α) (get : σ → α) (set : σ → α → σ) :
    StructField σ where
  name := name
  shows s := if get s = c.zero then none else some (c.encode (get s))
  store s v := (c.store (get s) v).map (set s)

/-- The field that a key names: the one of this name, or one up to case. -/
def fieldOf (fields : List (StructField σ)) (key : String) : Option (StructField σ) :=
  (fields.find? fun f => f.name = key).or (fields.find? fun f => names key f.name)

/-- One member, of a field or of none. -/
def storeMember (fields : List (StructField σ)) (held : σ) (m : String × Value) : Option σ :=
  (fieldOf fields m.1).elim (some held) fun f => f.store held m.2

/-- The members of an object that is shown of a struct. -/
def shownFields (fields : List (StructField σ)) (s : σ) : List (String × Value) :=
  fields.filterMap fun f => (f.shows s).map fun v => (f.name, v)

/-- A struct. -/
def struct (zero : σ) (fields : List (StructField σ)) : Codec σ where
  zero := zero
  encode s := .object (shownFields fields s)
  store
    | held, .scalar .null => some held
    | held, .object members => members.foldlM (storeMember fields) held
    | _, _ => none

theorem fieldOf_name {fields : List (StructField σ)} (distinct : (fields.map StructField.name).Nodup)
    {f : StructField σ} (member : f ∈ fields) : fieldOf fields f.name = some f := by
  suffices found : fields.find? (fun g => g.name = f.name) = some f by
    rw [fieldOf, found, Option.some_or]
  induction fields with
  | nil => exact absurd member List.not_mem_nil
  | cons g rest ih =>
    rw [List.map_cons, List.nodup_cons] at distinct
    rcases List.mem_cons.mp member with rfl | behind
    · exact List.find?_cons_of_pos (by simp)
    · have other : g.name ≠ f.name := fun same =>
        distinct.1 (same ▸ List.mem_map_of_mem behind)
      rw [List.find?_cons_of_neg (by simpa using other)]
      exact ih distinct.2 behind

/-- What is shown of a field of `s` makes `b` of `a`; if nothing is shown, they are the
same already. -/
structure Takes (f : StructField σ) (s a b : σ) : Prop where
  shown : ∀ v, f.shows s = some v → f.store a v = some b
  hidden : f.shows s = none → a = b

/-- Field by field, what is shown of `s` makes the last of these of the first one. -/
inductive Fills (s : σ) : σ → List (StructField σ) → σ → Prop where
  | nil (a : σ) : Fills s a [] a
  | cons {f : StructField σ} {rest : List (StructField σ)} {a b c : σ} (takes : Takes f s a b)
      (fills : Fills s b rest c) : Fills s a (f :: rest) c

theorem takes_field {name : String} {c : Codec α} {get : σ → α} {set : σ → α → σ} {s a : σ}
    (keeps : c.Keeps (get s)) (fresh : get a = c.zero) :
    Takes (field name c get set) s a (set a (get s)) where
  shown v same := by
    cases same
    have kept : c.store c.zero (c.encode (get s)) = some (get s) := keeps
    change (c.store (get a) (c.encode (get s))).map (set a) = _
    rw [fresh, kept]
    rfl
  hidden same := by cases same

theorem takes_omitempty [DecidableEq α] {name : String} {c : Codec α} {get : σ → α}
    {set : σ → α → σ} {s a : σ} (keeps : c.Keeps (get s)) (fresh : get a = c.zero)
    (same : set a (get a) = a) : Takes (omitempty name c get set) s a (set a (get s)) where
  shown v shown := by
    change (if get s = c.zero then none else some (c.encode (get s))) = some v at shown
    split at shown
    · cases shown
    · cases shown
      have kept : c.store c.zero (c.encode (get s)) = some (get s) := keeps
      change (c.store (get a) (c.encode (get s))).map (set a) = _
      rw [fresh, kept]
      rfl
  hidden hidden := by
    change (if get s = c.zero then none else some (c.encode (get s))) = none at hidden
    split at hidden
    · next empty => rw [empty, ← fresh, same]
    · cases hidden

theorem foldlM_fills {all fields : List (StructField σ)} (distinct : (all.map StructField.name).Nodup)
    (some_of : ∀ f ∈ fields, f ∈ all) {s a c : σ} (fills : Fills s a fields c) :
    (shownFields fields s).foldlM (storeMember all) a = some c := by
  induction fills with
  | nil => rfl
  | @cons f rest a b c takes fills ih =>
    rw [List.forall_mem_cons] at some_of
    have behind := ih some_of.2
    cases shows : f.shows s with
    | none =>
      have nothing : shownFields (f :: rest) s = shownFields rest s := by
        rw [shownFields, List.filterMap_cons, shows]
        rfl
      rw [nothing, takes.hidden shows]
      exact behind
    | some v =>
      have more : shownFields (f :: rest) s = (f.name, v) :: shownFields rest s := by
        rw [shownFields, List.filterMap_cons, shows]
        rfl
      have stored : storeMember all a (f.name, v) = some b := by
        rw [storeMember, fieldOf_name distinct some_of.1]
        exact takes.shown v shows
      rw [more, List.foldlM_cons, stored]
      exact behind

/-- A struct is kept when its fields fill it. -/
theorem keeps_struct {zero s : σ} {fields : List (StructField σ)}
    (distinct : (fields.map StructField.name).Nodup) (fills : Fills s zero fields s) :
    (struct zero fields).Keeps s :=
  foldlM_fills distinct (fun _ member => member) fills

/-- The numbers that a field shows are literals. -/
def StructField.Plain (f : StructField σ) : Prop := ∀ s v, f.shows s = some v → Numbered v

theorem plain_field {name : String} {c : Codec α} {get : σ → α} {set : σ → α → σ} (plain : c.Plain) :
    (field name c get set).Plain := by
  intro s v shows
  cases shows
  exact plain _

theorem plain_omitempty [DecidableEq α] {name : String} {c : Codec α} {get : σ → α}
    {set : σ → α → σ} (plain : c.Plain) : (omitempty name c get set).Plain := by
  intro s v shows
  change (if get s = c.zero then none else some (c.encode (get s))) = some v at shows
  split at shows
  · cases shows
  · cases shows
    exact plain _

theorem plain_struct {zero : σ} {fields : List (StructField σ)} (plain : ∀ f ∈ fields, f.Plain) :
    (struct zero fields).Plain := by
  intro s
  refine .object fun m member => ?_
  obtain ⟨f, inside, shown⟩ := List.mem_filterMap.mp member
  obtain ⟨v, shows, rfl⟩ := Option.map_eq_some_iff.mp shown
  exact plain f inside s v shows

theorem shownFields_names (fields : List (StructField σ)) (s : σ) :
    ((shownFields fields s).map Prod.fst).Sublist (fields.map StructField.name) := by
  induction fields with
  | nil => exact .slnil
  | cons f rest ih =>
    rw [shownFields, List.filterMap_cons]
    cases f.shows s with
    | none => exact ih.cons f.name
    | some v => exact ih.cons_cons f.name

/-- The member of a field. -/
theorem find?_shownFields {fields : List (StructField σ)} (distinct : (fields.map StructField.name).Nodup)
    {f : StructField σ} (member : f ∈ fields) (s : σ) :
    (shownFields fields s).find? (fun m => m.1 = f.name) = (f.shows s).map fun v => (f.name, v) := by
  induction fields with
  | nil => exact absurd member List.not_mem_nil
  | cons g rest ih =>
    rw [List.map_cons, List.nodup_cons] at distinct
    have behind : (shownFields (g :: rest) s) =
        ((g.shows s).map fun v => (g.name, v)).toList ++ shownFields rest s := by
      rw [shownFields, List.filterMap_cons]
      cases g.shows s <;> rfl
    rw [behind, List.find?_append]
    rcases List.mem_cons.mp member with rfl | later
    · have gone : (shownFields rest s).find? (fun m => m.1 = f.name) = none := by
        rw [List.find?_eq_none]
        intro m inside same
        rw [decide_eq_true_eq] at same
        exact distinct.1 (same ▸ (shownFields_names rest s).subset (List.mem_map_of_mem inside))
      rw [gone, Option.or_none]
      cases f.shows s with
      | none => rfl
      | some v => simp
    · have other : g.name ≠ f.name := fun same =>
        distinct.1 (same ▸ List.mem_map_of_mem later)
      rw [ih distinct.2 later]
      cases g.shows s with
      | none => rfl
      | some v => simp [other]

/-- What JavaScript reads in the property of a field. -/
theorem get_shown {fields : List (StructField σ)} {f : StructField σ}
    (distinct : (fields.map StructField.name).Nodup) (member : f ∈ fields) (s : σ) :
    (JsonReaders.jsValue (JsonWriters.shown (.object (shownFields fields s)))).get f.name =
      ((f.shows s).map fun v => JsonReaders.jsValue (JsonWriters.shown v)).getD .undefined := by
  rw [JsonWriters.jsValue_object (distinct.sublist (shownFields_names fields s)),
    JsonWriters.get_object, List.find?_map]
  have found := find?_shownFields distinct member s
  have same : (shownFields fields s).find? ((fun m : String × Json.Value => decide (m.1 = f.name)) ∘
      fun m => (m.1, JsonReaders.jsValue (JsonWriters.shown m.2))) =
        (f.shows s).map fun v => (f.name, v) := found
  rw [same, Option.map_map, Option.map_map]
  rfl

/-! ### Maps with keys that are strings -/

/-- The entry of a key is put in, or replaces one that is there. -/
def putEntry (entries : List (String × α)) (key : String) (a : α) : List (String × α) :=
  if entries.any (fun e => e.1 = key) then
    entries.map fun e => if e.1 = key then (key, a) else e
  else entries ++ [(key, a)]

/-- A map, as its entries in some order. -/
def stringMap (c : Codec α) : Codec (List (String × α)) where
  zero := []
  encode entries := .object (entries.map fun e => (e.1, c.encode e.2))
  store
    | _, .scalar .null => some []
    | held, .object members => members.foldlM (fun entries m =>
        (c.store c.zero m.2).map (putEntry entries m.1)) held
    | _, _ => none

theorem plain_stringMap {c : Codec α} (plain : c.Plain) : (stringMap c).Plain := by
  intro entries
  refine .object fun m member => ?_
  obtain ⟨e, _, rfl⟩ := List.mem_map.mp member
  exact plain e.2

/-- Entries of different keys come back in their order. -/
theorem keeps_stringMap {c : Codec α} {entries : List (String × α)}
    (keeps : ∀ e ∈ entries, c.Keeps e.2) (distinct : (entries.map Prod.fst).Nodup) :
    (stringMap c).Keeps entries := by
  suffices general : ∀ done : List (String × α), ((done ++ entries).map Prod.fst).Nodup →
      (entries.map fun e => (e.1, c.encode e.2)).foldlM (fun entries m =>
        (c.store c.zero m.2).map (putEntry entries m.1)) done = some (done ++ entries) from
    general [] distinct
  clear distinct
  intro done distinct
  induction entries generalizing done with
  | nil => rw [List.append_nil]; rfl
  | cons e rest ih =>
    have new : done.any (fun d => d.1 = e.1) = false := by
      rw [List.map_append, List.map_cons, List.nodup_append] at distinct
      rw [List.any_eq_false]
      intro d member same
      rw [decide_eq_true_eq] at same
      exact distinct.2.2 d.1 (List.mem_map_of_mem member) e.1 List.mem_cons_self same
    have shifted : done ++ e :: rest = (done ++ [(e.1, e.2)]) ++ rest := by
      rw [List.append_assoc]
      rfl
    rw [List.forall_mem_cons] at keeps
    have kept : c.store c.zero (c.encode e.2) = some e.2 := keeps.1
    rw [shifted] at distinct
    rw [List.map_cons, List.foldlM_cons, kept, Option.map_some, putEntry, new, shifted]
    exact ih keeps.2 _ distinct

/-! ### Strings of bytes -/

/-- The characters of a string of bytes, as ranging over it gives them; the fuel is its
length. -/
def runes : Nat → GoJson.Bytes → List Char
  | 0, _ => []
  | _, [] => []
  | fuel + 1, b :: rest =>
    match (b :: rest).toByteArray.utf8DecodeChar? 0 with
    | some c => c :: runes fuel ((b :: rest).drop c.utf8Size)
    | none => GoJson.replacement :: runes fuel rest

/-- What the encoder shows of a string of bytes: what is not UTF-8 is replaced. -/
def ofBytes (s : GoJson.Bytes) : String := String.ofList (runes s.length s)

theorem runes_encode8 (cs : List Char) (fuel : Nat)
    (enough : (JsonReaders.encode8 cs).length ≤ fuel) : runes fuel (JsonReaders.encode8 cs) = cs := by
  induction cs generalizing fuel with
  | nil => cases fuel <;> rfl
  | cons c rest ih =>
    obtain ⟨b, more, split⟩ : ∃ b more, String.utf8EncodeChar c = b :: more := by
      apply List.exists_cons_of_length_pos
      rw [String.length_utf8EncodeChar]
      exact c.utf8Size_pos
    have decoded : (b :: (more ++ JsonReaders.encode8 rest)).toByteArray.utf8DecodeChar? 0 = some c := by
      have read := ByteArray.utf8DecodeChar?_utf8EncodeChar_append
        (b := (JsonReaders.encode8 rest).toByteArray) (c := c)
      rw [split, ← List.toByteArray_append] at read
      exact read
    have left : (b :: (more ++ JsonReaders.encode8 rest)).drop c.utf8Size = JsonReaders.encode8 rest := by
      rw [← String.length_utf8EncodeChar, split, ← List.cons_append]
      exact List.drop_left
    rw [JsonReaders.encode8_cons, split, List.cons_append] at enough ⊢
    rw [List.length_cons, List.length_append] at enough
    cases fuel with
    | zero => omega
    | succ fuel =>
      rw [runes, decoded]
      dsimp only
      rw [left, ih fuel (by omega)]

/-- A string in UTF-8 is shown as it is. -/
theorem ofBytes_encode8 (cs : List Char) : ofBytes (JsonReaders.encode8 cs) = String.ofList cs := by
  rw [ofBytes, runes_encode8 cs _ (Nat.le_refl _)]

/-- Bytes of ASCII are the same text everywhere. -/
theorem utf8Text_ofBytes {s : GoJson.Bytes} (low : ∀ b ∈ s, b < 128) : utf8Text (Json.utf16 (ofBytes s)) = s := by
  let cs := s.map fun b => Char.ofNat b.toNat
  have number {b : UInt8} (small : b < 128) : (Char.ofNat b.toNat).toNat = b.toNat := by
    have all : ∀ n : Fin 128, (Char.ofNat n.val).toNat = n.val := by decide
    exact all ⟨b.toNat, UInt8.lt_iff_toNat_lt.mp small⟩
  have chars : ∀ c ∈ cs, c.toNat < 128 := by
    intro c member
    obtain ⟨b, inside, rfl⟩ := List.mem_map.mp member
    rw [number (low b inside)]
    exact UInt8.lt_iff_toNat_lt.mp (low b inside)
  have bytes : JsonReaders.encode8 cs = s := by
    rw [JsonReaders.encode8_low chars, GoJson.ascii, List.map_map]
    refine (List.map_congr_left fun b member => ?_).trans (List.map_id s)
    change UInt8.ofNat (Char.ofNat b.toNat).toNat = b
    rw [number (low b member), UInt8.ofNat_toNat]
  have shown : ofBytes s = String.ofList cs := by
    rw [← bytes, ofBytes_encode8]
  rw [shown, JsonGrammar.utf16_eq, utf8Text]
  exact (congrArg JsonReaders.encode8 (JsonReaders.scalars_encode16 cs)).trans bytes

/-! ### Whole texts -/

/-- What is shown is nested so deep at most. -/
def Codec.Within (c : Codec α) (depth : Nat) : Prop := ∀ a, (shown (c.encode a)).depth ≤ depth

theorem within_string (depth : Nat) : string.Within depth := fun _ => Nat.zero_le depth

theorem within_boolean (depth : Nat) : boolean.Within depth := fun _ => Nat.zero_le depth

theorem within_int (depth : Nat) : int.Within depth := fun _ => Nat.zero_le depth

theorem within_int64 (depth : Nat) : int64.Within depth := fun _ => Nat.zero_le depth

theorem within_uint64 (depth : Nat) : uint64.Within depth := fun _ => Nat.zero_le depth

theorem within_slice {c : Codec α} {depth : Nat} (within : c.Within depth) :
    (slice c).Within (depth + 1) := by
  intro items
  change (shown (.array (items.map c.encode))).depth ≤ depth + 1
  rw [shown, Document.depth, shownElements_eq]
  apply Nat.succ_le_succ
  apply elementsDepth_le
  intro d member
  obtain ⟨v, inside, rfl⟩ := List.mem_map.mp member
  obtain ⟨a, _, rfl⟩ := List.mem_map.mp inside
  exact within a

theorem within_sliceOrNil {c : Codec α} {depth : Nat} (within : c.Within depth) :
    (sliceOrNil c).Within (depth + 1) := by
  intro items
  cases items with
  | none => exact Nat.zero_le _
  | some held => exact within_slice within held

/-- The depth of an object from those of its members. -/
theorem depth_members {members : List (String × Value)} {depth : Nat}
    (each : ∀ m ∈ members, (shown m.2).depth ≤ depth) : (shown (.object members)).depth ≤ depth + 1 := by
  rw [shown, Document.depth, shownMembers_eq]
  apply Nat.succ_le_succ
  apply membersDepth_le
  intro d member
  obtain ⟨m, inside, rfl⟩ := List.mem_map.mp member
  exact each m inside

theorem within_stringMap {c : Codec α} {depth : Nat} (within : c.Within depth) :
    (stringMap c).Within (depth + 1) := by
  intro entries
  apply depth_members
  intro m member
  obtain ⟨e, _, rfl⟩ := List.mem_map.mp member
  exact within e.2

def StructField.Within (f : StructField σ) (depth : Nat) : Prop :=
  ∀ s v, f.shows s = some v → (shown v).depth ≤ depth

theorem within_field {name : String} {c : Codec α} {get : σ → α} {set : σ → α → σ} {depth : Nat}
    (within : c.Within depth) : (field name c get set).Within depth := by
  intro s v shows
  cases shows
  exact within _

theorem within_omitempty [DecidableEq α] {name : String} {c : Codec α} {get : σ → α}
    {set : σ → α → σ} {depth : Nat} (within : c.Within depth) :
    (omitempty name c get set).Within depth := by
  intro s v shows
  change (if get s = c.zero then none else some (c.encode (get s))) = some v at shows
  split at shows
  · cases shows
  · cases shows
    exact within _

theorem within_struct {zero : σ} {fields : List (StructField σ)} {depth : Nat}
    (within : ∀ f ∈ fields, f.Within depth) : (struct zero fields).Within (depth + 1) := by
  intro s
  apply depth_members
  intro m member
  obtain ⟨f, inside, shown⟩ := List.mem_filterMap.mp member
  obtain ⟨v, shows, rfl⟩ := Option.map_eq_some_iff.mp shown
  exact within f inside s v shows

/-- `json.Unmarshal` into a new variable. -/
def Codec.unmarshal (c : Codec α) (data : GoJson.Bytes) : Option α :=
  (GoJson.parse data).bind (c.store c.zero)

/-- What is marshalled, in any layout, is unmarshalled to what it was. -/
theorem unmarshal_marshalWith {c : Codec α} {a : α} {layout : Layout} {depth : Nat}
    (blank : layout.IsBlank) (plain : c.Plain) (within : c.Within depth)
    (shallow : depth ≤ GoJson.maxNestingDepth) (keeps : c.Keeps a) :
    c.unmarshal (marshalWith layout 0 (c.encode a)) = some a := by
  rw [Codec.unmarshal, parse_marshalWith blank (plain a) (Nat.le_trans (within a) shallow)]
  exact keeps

/-! ### What a program of JavaScript reads of it -/

theorem jsValue_text (s : String) : jsValue (shown (string.encode s)) = .string (utf16 s) := by
  change jsValue (shown (.scalar (.string s))) = _
  rw [shown, jsValue]

theorem jsValue_boolean (b : Bool) : jsValue (shown (boolean.encode b)) = .boolean b := by
  change jsValue (shown (.scalar (.boolean b))) = _
  rw [shown, jsValue]

theorem jsValue_number (n : Int64) : jsValue (shown (int.encode n)) = number n.toInt :=
  jsValue_int n.toInt

theorem jsValue_null : jsValue (shown (.scalar .null)) = .null := by
  rw [shown, jsValue]

theorem jsValue_slice {α : Type} {c : Codec α} (items : List α) :
    jsValue (shown ((slice c).encode items)) =
      .array (items.map fun a => jsValue (shown (c.encode a))) := by
  change jsValue (shown (.array (items.map c.encode))) = _
  rw [shown, shownElements_eq, jsValue, jsElements_eq, List.map_map, List.map_map]
  rfl

/-- What is read of a struct: property by property, what is read of its fields. -/
theorem jsValue_struct {σ : Type} {zero : σ} {fields : List (StructField σ)}
    (distinct : (fields.map StructField.name).Nodup) (s : σ) :
    jsValue (shown ((struct zero fields).encode s)) =
      object ((shownFields fields s).map fun m => (m.1, jsValue (shown m.2))) :=
  jsValue_object (distinct.sublist (shownFields_names fields s))

end Hwfa.GoStructs
