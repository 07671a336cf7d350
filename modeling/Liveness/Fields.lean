import Liveness.Json.Basic
import Liveness.Toml.Basic
/-!
# Records read and written by their fields

A record type is described once by the list of its fields; from that list come its JSON form and
its readers. A reader starts from given values and changes those that the document names: members
of an object in any order, or the items of an array in the order of the fields.
-/
namespace Liveness

structure Field (α : Type) where
  name : String
  toJson : α → Json
  readJson : Json → α → Option α
  readToml : Toml → α → Option α

namespace Field

variable {α : Type}

def ofLens {β : Type} (name : String) (get : α → β) (set : β → α → α) (toJson : β → Json)
    (ofJson? : Json → Option β) (ofToml? : Toml → Option β) : Field α :=
  { name
    toJson := fun a => toJson (get a)
    readJson := fun j a => (ofJson? j).map (set · a)
    readToml := fun t a => (ofToml? t).map (set · a) }

def uint32 (name : String) (get : α → UInt32) (set : UInt32 → α → α) : Field α :=
  ofLens name get set (fun n => .nat n.toNat) Json.uint32? Toml.uint32?

def uint64 (name : String) (get : α → UInt64) (set : UInt64 → α → α) : Field α :=
  ofLens name get set (fun n => .nat n.toNat) Json.uint64? Toml.uint64?

def bool (name : String) (get : α → Bool) (set : Bool → α → α) : Field α :=
  ofLens name get set .bool Json.bool? Toml.bool?

end Field

namespace Fields

variable {α : Type}

def toJson (fields : List (Field α)) (a : α) : Json :=
  .record (fields.map fun f => (f.name, f.toJson a))

/-- Members of an object from left to right: unknown ones are passed over, a known one must not
have been `seen` before. The answer also has the names seen. -/
def readMembers (fields : List (Field α)) :
    List (Option String × Json) → List String → α → Option (List String × α)
  | [], seen, a => some (seen, a)
  | (none, _) :: _, _, _ => none
  | (some key, value) :: rest, seen, a =>
    match fields.find? (·.name = key) with
    | none => readMembers fields rest seen a
    | some f =>
      if key ∈ seen then none
      else (f.readJson value a).bind (readMembers fields rest (key :: seen))

/-- Items of an array, field by field; the items may end early, not the fields. -/
def readItems : List (Field α) → List Json → α → Option α
  | _, [], a => some a
  | [], _ :: _, _ => none
  | f :: fields, item :: items, a => (f.readJson item a).bind (readItems fields items)

/-- The record in a document; members that are left out keep their value in `base`. -/
def ofJson? (fields : List (Field α)) (base : α) : Json → Option α
  | .object members => (readMembers fields members [] base).map (·.2)
  | .array items => readItems fields items base
  | _ => none

def ofFullJson? (fields : List (Field α)) (base : α) : Json → Option α
  | .object members =>
    (readMembers fields members [] base).bind fun (seen, a) =>
      if fields.all (·.name ∈ seen) then some a else none
  | .array items => if items.length = fields.length then readItems fields items base else none
  | _ => none

/-- Entries of a table; their keys differ already. -/
def readEntries (fields : List (Field α)) : Toml.Entries → α → Option α
  | [], a => some a
  | (key, value) :: rest, a =>
    match fields.find? (·.name = key) with
    | none => readEntries fields rest a
    | some f => (f.readToml value a).bind (readEntries fields rest)

/-- Items of an array, field by field, as far as both go. -/
def readTomlItems : List (Field α) → List Toml → α → Option α
  | f :: fields, item :: items, a => (f.readToml item a).bind (readTomlItems fields items)
  | _, _, a => some a

/-- The record in a table or array; a date stands for a table without any known key. -/
def ofToml? (fields : List (Field α)) (base : α) : Toml → Option α
  | .table _ entries => readEntries fields entries base
  | .array items => readTomlItems fields items base
  | .tableArray tables => readTomlItems fields (tables.map (.table .header ·)) base
  | .dateTime => some base
  | _ => none

end Fields

/-- A choice among named values: written as the name, or as an object or table that has the name as
its one key and nothing behind it: null in an object, an empty table or array in a table. -/
structure Choice (α : Type) where
  options : List (String × α)

namespace Choice

variable {α : Type}

def ofJson? (c : Choice α) : Json → Option α
  | .string (some name) => c.options.lookup name
  | .object [(some name, .null)] => c.options.lookup name
  | _ => none

def ofToml? (c : Choice α) : Toml → Option α
  | .string name => c.options.lookup name
  | .table _ [(name, .table _ [])] | .table _ [(name, .array [])] => c.options.lookup name
  | _ => none

end Choice

end Liveness
