import Liveness.Settings.Basic
/-!
# What a document gives for a field

Reading a record assigns written values to its fields one after the other, whether they stand as members of
an object, as entries of a table or as items of an array. What a field is in the end was given last under its
name; a field that nothing is given for stays as it was.
-/
namespace Liveness

section Assign

variable {α β γ δ : Type}

def lastValue? (name : String) (pairs : List (String × δ)) : Option δ := pairs.reverse.lookup name

theorem lastValue?_cons (name : String) (pair : String × δ) (pairs : List (String × δ)) :
    lastValue? name (pair :: pairs) = (lastValue? name pairs).or ([pair].lookup name) := by
  rw [lastValue?, List.reverse_cons, List.lookup_append, lastValue?]

theorem lookup_singleton_of_ne {name key : String} (h : key ≠ name) (value : δ) :
    [(key, value)].lookup name = none := by
  rw [List.lookup_cons, beq_false_of_ne h.symm, List.lookup_nil]

/-- What is given replaces what there was; if nothing is given, that stays. -/
def Settles (value? : δ → Option β) (given : Option δ) (old new : β) : Prop :=
  given.elim (some old) value? = some new

theorem Settles.trans {value? : δ → Option β} {earlier later : Option δ} {old between new : β}
    (hearlier : Settles value? earlier old between) (hlater : Settles value? later between new) :
    Settles value? (later.or earlier) old new := by
  cases later with
  | none =>
    obtain rfl := Option.some.inj hlater
    exact hearlier
  | some value => exact hlater

theorem Settles.eq {value? : δ → Option β} {given : Option δ} {old new : β}
    (h : Settles value? given old new) : new = (given.bind value?).getD old := by
  cases given with
  | none => exact (Option.some.inj h).symm
  | some value =>
    have hvalue : value? value = some new := h
    rw [Option.bind_some, hvalue, Option.getD_some]

/-- Assigns values to the fields of their names from left to right; unknown names are passed over. -/
def Fields.assign (read : Field α → δ → α → Option α) (fields : List (Field α)) :
    List (String × δ) → α → Option α
  | [], a => some a
  | (key, value) :: rest, a =>
    match fields.find? (·.name = key) with
    | none => assign read fields rest a
    | some f => (read f value a).bind (assign read fields rest)

variable {read : Field α → δ → α → Option α} {fields : List (Field α)} {name : String} {get : α → β}
  {value? : δ → Option β} {a b : α}

theorem Fields.assign_known {key : String} {value : δ} {rest : List (String × δ)} {f : Field α}
    {next : α → Option γ} {result : γ} (hfind : fields.find? (·.name = key) = some f)
    (h : (read f value a).bind next = some result)
    (hnext : ∀ {c}, next c = some result → assign read fields rest c = some b) :
    assign read fields ((key, value) :: rest) a = some b := by
  obtain ⟨c, hread, hrest⟩ := Option.bind_eq_some_iff.mp h
  rw [assign, hfind]
  show (read f value a).bind (assign read fields rest) = some b
  rw [hread, Option.bind_some]
  exact hnext hrest

/-- A row of assignments settles what its last assignment to a name gives, if only the field of this name
bears on it. -/
theorem Fields.assign_settles {pairs : List (String × δ)} (hknown : name ∈ fields.map Field.name)
    (hsets : ∀ f ∈ fields, f.name = name → ∀ {value a b}, read f value a = some b →
      value? value = some (get b))
    (hspares : ∀ f ∈ fields, f.name ≠ name → ∀ {value a b}, read f value a = some b → get b = get a)
    (h : assign read fields pairs a = some b) :
    Settles value? (lastValue? name pairs) (get a) (get b) := by
  induction pairs generalizing a with
  | nil =>
    obtain rfl := Option.some.inj h
    rfl
  | cons pair pairs ih =>
    obtain ⟨key, value⟩ := pair
    rw [lastValue?_cons]
    rw [assign] at h
    split at h
    case h_1 hfind =>
      have hother : key ≠ name := by
        rintro rfl
        obtain ⟨f, hf, hname⟩ := List.mem_map.mp hknown
        exact List.find?_eq_none.mp hfind f hf (decide_eq_true hname)
      rw [lookup_singleton_of_ne hother, Option.or_none]
      exact ih h
    case h_2 f hfind =>
      obtain ⟨c, hread, hrest⟩ := Option.bind_eq_some_iff.mp h
      have hf : f ∈ fields := List.mem_of_find?_eq_some hfind
      obtain rfl : f.name = key := by simpa using List.find?_some hfind
      -- What the rest says about the name prevails; where it says nothing, this assignment stands.
      refine Settles.trans ?_ (ih hrest)
      by_cases hname : f.name = name
      · subst hname
        rw [List.lookup_cons_self]
        exact hsets f hf rfl hread
      · rw [lookup_singleton_of_ne hname]
        exact congrArg some (hspares f hf hname hread).symm

end Assign

/-- The values in a document by their names: the members of an object, or the items of an array under the
given names in turn. Members whose names are no texts are left out; no record is read from these. -/
def Json.pairs (names : List String) : Json → List (String × Json)
  | .object members => members.filterMap fun (key, value) => key.map (·, value)
  | .array items => names.zip items
  | _ => []

def Json.given? (names : List String) (name : String) (j : Json) : Option Json :=
  lastValue? name (j.pairs names)

def Toml.pairs (names : List String) : Toml → List (String × Toml)
  | .table _ entries => entries
  | .array items => names.zip items
  | .tableArray tables => names.zip (tables.map (.table .header ·))
  | _ => []

def Toml.given? (names : List String) (name : String) (t : Toml) : Option Toml :=
  lastValue? name (t.pairs names)

namespace Field

variable {α β γ : Type}

structure Sets (f : Field α) (get : α → β) (json? : Json → Option β) (toml? : Toml → Option β) : Prop where
  json : ∀ {value a b}, f.readJson value a = some b → json? value = some (get b)
  toml : ∀ {value a b}, f.readToml value a = some b → toml? value = some (get b)

structure Spares (f : Field α) (get : α → β) : Prop where
  json : ∀ {value a b}, f.readJson value a = some b → get b = get a
  toml : ∀ {value a b}, f.readToml value a = some b → get b = get a

variable {name : String} {get : α → β} {set : β → α → α} {toJson : β → Json} {json? : Json → Option β}
  {toml? : Toml → Option β}

theorem ofLens_sets (h : ∀ x a, get (set x a) = x) :
    (ofLens name get set toJson json? toml?).Sets get json? toml? := by
  constructor
  · intro value a b hread
    obtain ⟨x, hx, rfl⟩ := Option.map_eq_some_iff.mp hread
    rw [hx, h]
  · intro value a b hread
    obtain ⟨x, hx, rfl⟩ := Option.map_eq_some_iff.mp hread
    rw [hx, h]

theorem ofLens_spares {other : α → γ} (h : ∀ x a, other (set x a) = other a) :
    (ofLens name get set toJson json? toml?).Spares other := by
  constructor
  · intro value a b hread
    obtain ⟨x, hx, rfl⟩ := Option.map_eq_some_iff.mp hread
    exact h x a
  · intro value a b hread
    obtain ⟨x, hx, rfl⟩ := Option.map_eq_some_iff.mp hread
    exact h x a

end Field

namespace Fields

variable {α β : Type} {fields rest : List (Field α)} {a b base : α}

/-- Of all the fields, only that of this name bears on what `get` gives, and it decides it. -/
structure Governs (fields : List (Field α)) (name : String) (get : α → β) (json? : Json → Option β)
    (toml? : Toml → Option β) : Prop where
  nodup : (fields.map Field.name).Nodup
  known : name ∈ fields.map Field.name
  sets : ∀ f ∈ fields, f.name = name → f.Sets get json? toml?
  spares : ∀ f ∈ fields, f.name ≠ name → f.Spares get

theorem find?_of_nodup (hnodup : (fields.map Field.name).Nodup) :
    ∀ f ∈ fields, fields.find? (·.name = f.name) = some f := by
  induction fields with
  | nil => nofun
  | cons g fields ih =>
    obtain ⟨hfresh, hnodup⟩ := List.nodup_cons.mp hnodup
    intro f hf
    rcases List.mem_cons.mp hf with rfl | hf
    · exact List.find?_cons_of_pos (decide_eq_true rfl)
    · have hother : g.name ≠ f.name := fun heq => hfresh (heq ▸ List.mem_map_of_mem hf)
      rw [List.find?_cons_of_neg (by simpa using hother)]
      exact ih hnodup f hf

theorem readMembers_assigns {members : List (Option String × Json)} {seen after : List String}
    (h : readMembers fields members seen a = some (after, b)) :
    assign Field.readJson fields (members.filterMap fun (key, value) => key.map (·, value)) a =
      some b := by
  induction members generalizing seen a with
  | nil =>
    obtain ⟨-, rfl⟩ := Prod.mk.inj (Option.some.inj h)
    rfl
  | cons member members ih =>
    obtain ⟨name, value⟩ := member
    cases name with
    | none => cases h
    | some key =>
      change assign Field.readJson fields ((key, value) :: members.filterMap _) a = some b
      rw [readMembers] at h
      split at h
      case h_1 hfind =>
        rw [assign, hfind]
        exact ih h
      case h_2 f hfind =>
        by_cases hseen : key ∈ seen
        · rw [if_pos hseen] at h
          cases h
        · rw [if_neg hseen] at h
          exact assign_known hfind h ih

/-- The items of an array are read into the fields in turn. -/
theorem readItems_assigns (hfind : ∀ f ∈ rest, fields.find? (·.name = f.name) = some f)
    {items : List Json} (h : readItems rest items a = some b) :
    assign Field.readJson fields ((rest.map Field.name).zip items) a = some b := by
  induction rest generalizing items a with
  | nil =>
    cases items with
    | nil => exact h
    | cons item items => cases h
  | cons f rest ih =>
    cases items with
    | nil => exact h
    | cons item items =>
      obtain ⟨hfirst, hfind⟩ := List.forall_mem_cons.mp hfind
      exact assign_known hfirst h (ih hfind)

theorem readEntries_assigns (entries : Toml.Entries) (a : α) :
    readEntries fields entries a = assign Field.readToml fields entries a := by
  induction entries generalizing a with
  | nil => rfl
  | cons entry entries ih =>
    obtain ⟨key, value⟩ := entry
    cases hfind : fields.find? (·.name = key) with
    | none =>
      rw [readEntries, assign, hfind]
      exact ih a
    | some f =>
      rw [readEntries, assign, hfind]
      exact congrArg (f.readToml value a).bind (funext ih)

theorem readTomlItems_assigns (hfind : ∀ f ∈ rest, fields.find? (·.name = f.name) = some f)
    {items : List Toml} (h : readTomlItems rest items a = some b) :
    assign Field.readToml fields ((rest.map Field.name).zip items) a = some b := by
  induction rest generalizing items a with
  | nil =>
    cases items with
    | nil => exact h
    | cons item items => exact h
  | cons f rest ih =>
    cases items with
    | nil => exact h
    | cons item items =>
      obtain ⟨hfirst, hfind⟩ := List.forall_mem_cons.mp hfind
      exact assign_known hfirst h (ih hfind)

theorem ofJson?_assigns (hnodup : (fields.map Field.name).Nodup) {j : Json}
    (h : ofJson? fields base j = some a) :
    assign Field.readJson fields (j.pairs (fields.map Field.name)) base = some a := by
  cases j with
  | object members =>
    obtain ⟨⟨after, a⟩, hread, rfl⟩ := Option.map_eq_some_iff.mp h
    exact readMembers_assigns hread
  | array items => exact readItems_assigns (find?_of_nodup hnodup) h
  | null | bool | number | string => cases h

theorem ofToml?_assigns (hnodup : (fields.map Field.name).Nodup) {t : Toml}
    (h : ofToml? fields base t = some a) :
    assign Field.readToml fields (t.pairs (fields.map Field.name)) base = some a := by
  cases t with
  | table form entries =>
    rw [ofToml?, readEntries_assigns] at h
    exact h
  | array items => exact readTomlItems_assigns (find?_of_nodup hnodup) h
  | tableArray tables => exact readTomlItems_assigns (find?_of_nodup hnodup) h
  | dateTime => exact h
  | string | integer | float | bool => cases h

variable {name : String} {get : α → β} {json? : Json → Option β} {toml? : Toml → Option β}

theorem Governs.ofJson?_settles (hgoverns : Governs fields name get json? toml?) {j : Json}
    (h : ofJson? fields base j = some a) :
    Settles json? (j.given? (fields.map Field.name) name) (get base) (get a) :=
  assign_settles hgoverns.known (fun f hf hname => (hgoverns.sets f hf hname).json)
    (fun f hf hname => (hgoverns.spares f hf hname).json) (ofJson?_assigns hgoverns.nodup h)

theorem Governs.ofToml?_settles (hgoverns : Governs fields name get json? toml?) {t : Toml}
    (h : ofToml? fields base t = some a) :
    Settles toml? (t.given? (fields.map Field.name) name) (get base) (get a) :=
  assign_settles hgoverns.known (fun f hf hname => (hgoverns.sets f hf hname).toml)
    (fun f hf hname => (hgoverns.spares f hf hname).toml) (ofToml?_assigns hgoverns.nodup h)

end Fields

end Liveness
