import Hwfa.JsonWriters

/-!
What a program of JavaScript says to a program of Go.

`Sends` relates a value of the one to the value that the other reads of its text.  It is
built as a program builds the value, part by part; a property that is `undefined` is not
sent at all.
-/

namespace Hwfa.JsonBodies

open Hwfa.Json (Text)
open Hwfa.GoJson (Value)
open Hwfa.JsonReaders Hwfa.JsonWriters

/-- The text of a value is read as this one, and is nested so deep at most. -/
structure Sends (v : Json.Value) (g : Value) (depth : Nat) : Prop where
  held : JsonRoundTrip.Held v
  there : v ≠ .undefined
  read : goValue (written v) = g
  within : (written v).depth ≤ depth

/-- The properties of an object, and the members that are read of it. -/
inductive SendsMembers (depth : Nat) : List (String × Json.Value) → List (String × Value) → Prop where
  | nil : SendsMembers depth [] []
  | cons {name : String} {v : Json.Value} {g : Value} {properties : List (String × Json.Value)}
      {members : List (String × Value)} (sends : Sends v g depth)
      (rest : SendsMembers depth properties members) :
      SendsMembers depth ((name, v) :: properties) ((name, g) :: members)
  | absent {name : String} {properties : List (String × Json.Value)} {members : List (String × Value)}
      (rest : SendsMembers depth properties members) :
      SendsMembers depth ((name, .undefined) :: properties) members

variable {v : Json.Value} {g : Value} {depth : Nat}

theorem sends_null (depth : Nat) : Sends .null (.scalar .null) depth where
  held := .primitive (by simp)
  there := by simp
  read := by rw [written, goValue]
  within := Nat.zero_le depth

theorem sends_string (t : Text) (depth : Nat) :
    Sends (.string t) (.scalar (.string (goString t))) depth where
  held := held_string t
  there := by simp
  read := by rw [written, goValue]
  within := by
    rw [written]
    exact Nat.zero_le depth

theorem sends_number {n : Int} (safe : IsSafe n) (depth : Nat) :
    Sends (.number (Doubles.ofInt n)) (.scalar (.number (GoJson.appendInt n))) depth where
  held := held_ofInt safe
  there := by simp
  read := by
    rw [written_ofInt safe, goValue]
    rfl
  within := by
    rw [written_ofInt safe]
    exact Nat.zero_le depth

/-- The elements of an array are sent one by one. -/
theorem sends_map {α : Type} {items : List α} {value : α → Json.Value} {read : α → Value}
    (each : ∀ a ∈ items, Sends (value a) (read a) depth) :
    Sends (.array (items.map value)) (.array (items.map read)) (depth + 1) where
  held := by
    refine .array fun v member => ?_
    obtain ⟨a, inside, rfl⟩ := List.mem_map.mp member
    exact (each a inside).held
  there := by simp
  read := by
    rw [written, writtenElements_eq, goValue, goElements_eq, List.map_map, List.map_map]
    exact congrArg Value.array (List.map_congr_left fun a inside => (each a inside).read)
  within := by
    rw [written, writtenElements_eq, JsonGrammar.Document.depth]
    refine Nat.succ_le_succ (elementsDepth_le fun d member => ?_)
    rw [List.map_map] at member
    obtain ⟨a, inside, rfl⟩ := List.mem_map.mp member
    exact (each a inside).within

section

variable {properties : List (String × Json.Value)} {members : List (String × Value)}

theorem SendsMembers.held (sends : SendsMembers depth properties members) :
    ∀ m ∈ properties, JsonRoundTrip.Held m.2 := by
  induction sends with
  | nil => exact List.forall_mem_nil _
  | cons first _ ih => exact List.forall_mem_cons.mpr ⟨first.held, ih⟩
  | absent _ ih => exact List.forall_mem_cons.mpr ⟨.primitive (by simp), ih⟩

theorem SendsMembers.within (sends : SendsMembers depth properties members) :
    ∀ m ∈ properties, (written m.2).depth ≤ depth := by
  induction sends with
  | nil => exact List.forall_mem_nil _
  | cons first _ ih => exact List.forall_mem_cons.mpr ⟨first.within, ih⟩
  | absent _ ih => exact List.forall_mem_cons.mpr ⟨Nat.zero_le depth, ih⟩

theorem SendsMembers.read (sends : SendsMembers depth properties members) :
    ((properties.filter (·.2 ≠ .undefined)).map fun m => (m.1, goValue (written m.2))) = members := by
  induction sends with
  | nil => rfl
  | cons first _ ih =>
    rw [List.filter_cons_of_pos (by simpa using first.there), List.map_cons, ih, first.read]
  | absent _ ih => rw [List.filter_cons_of_neg (by simp), ih]

/-- An object is sent by its properties. -/
theorem sends_object (names : AreNames (properties.map Prod.fst))
    (sends : SendsMembers depth properties members) :
    Sends (object properties) (.object members) (depth + 1) where
  held := held_object names sends.held
  there := by simp [object]
  read := by rw [goValue_object names, sends.read]
  within := depth_object names sends.within

end

/-- What is sent is read. -/
theorem Sends.parsed (sends : Sends v g depth) (shallow : depth ≤ GoJson.maxNestingDepth) :
    ∃ t, Json.stringify v = some t ∧ GoJson.parse (utf8Text t) = some g := by
  obtain ⟨t, text⟩ := Option.ne_none_iff_exists'.mp (mt JsonRoundTrip.stringify_eq_none.mp sends.there)
  refine ⟨t, text, ?_⟩
  rw [go_parse_stringify sends.held text (Nat.le_trans sends.within shallow), sends.read]

end Hwfa.JsonBodies
