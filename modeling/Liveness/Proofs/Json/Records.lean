import Liveness.Fields
import Liveness.Proofs.Json.RoundTrip
import Mathlib.Data.List.Perm.Subperm
/-!
# Records in JSON objects

A record is read from the members of an object one by one. What they make of it depends on the names that
were seen, if each member does its part; a name that is seen twice, or a value that is not understood,
spoils the whole.
-/
namespace Liveness

def reread {α : Type} (read : Json → Option α) (j : Json) : Option α := (Json.parse? j.text).bind read

theorem reread_eq {α : Type} (read : Json → Option α) (j : Json) : reread read j = read j := by
  rw [reread, Json.parse?_text, Option.bind_some]

theorem Json.natBelow?_nat {n bound : Nat} (h : n < bound) :
    Json.natBelow? bound (.nat n) = some n := by
  show (some n).filter (· < bound) = some n
  rw [Option.filter_some, if_pos (decide_eq_true h)]

theorem Json.uint32?_nat (n : UInt32) : Json.uint32? (.nat n.toNat) = some n := by
  rw [Json.uint32?, Json.natBelow?_nat n.toNat_lt, Option.map_some, UInt32.ofNat_toNat]

theorem Json.uint64?_nat (n : UInt64) : Json.uint64? (.nat n.toNat) = some n := by
  rw [Json.uint64?, Json.natBelow?_nat n.toNat_lt, Option.map_some, UInt64.ofNat_toNat]

namespace Fields

variable {α : Type} {fields : List (Field α)} {members : List (Option String × Json)}
  {seen : List String} {key : String} {f : Field α} {a : α}

/-- A member that adds its name to those that the record is determined by. -/
def Completes (fields : List (Field α)) (filled : List String → α) (member : String × Json) : Prop :=
  ∃ f, fields.find? (·.name = member.1) = some f ∧
    ∀ seen, f.readJson member.2 (filled seen) = some (filled (member.1 :: seen))

/-- What has to hold of members that are read: a known name is new and there once, its value is understood,
and no other name is seen. -/
structure Accepted (fields : List (Field α)) (members : List (Option String × Json))
    (seen after : List String) : Prop where
  fresh : ∀ {key f}, fields.find? (·.name = key) = some f →
    some key ∈ members.map Prod.fst → key ∉ seen
  once : ∀ {key f}, fields.find? (·.name = key) = some f →
    (members.map Prod.fst).count (some key) ≤ 1
  understood : ∀ {key f value}, fields.find? (·.name = key) = some f →
    (some key, value) ∈ members → ∃ a, f.readJson value a ≠ none
  named : ∀ key ∈ after, key ∈ seen ∨ some key ∈ members.map Prod.fst

theorem readMembers_filled {filled : List String → α} {given : List (String × Json)}
    (h : ∀ member ∈ given, Completes fields filled member) (hnodup : (given.map Prod.fst).Nodup)
    (hseen : ∀ key ∈ given.map Prod.fst, key ∉ seen) :
    readMembers fields (given.map fun (key, value) => (some key, value)) seen (filled seen) =
      some ((given.map Prod.fst).reverse ++ seen, filled ((given.map Prod.fst).reverse ++ seen)) := by
  induction given generalizing seen with
  | nil => rfl
  | cons member given ih =>
    obtain ⟨key, value⟩ := member
    obtain ⟨f, hfind, hread⟩ := h _ List.mem_cons_self
    obtain ⟨hkey, hnodup⟩ := List.nodup_cons.mp hnodup
    have hfresh : key ∉ seen := hseen key List.mem_cons_self
    have hrest : ∀ name ∈ given.map Prod.fst, name ∉ key :: seen := by
      intro name hname hmem
      rcases List.mem_cons.mp hmem with rfl | hmem
      · exact hkey hname
      · exact hseen name (List.mem_cons_of_mem _ hname) hmem
    have htail := ih (fun m hm => h m (List.mem_cons_of_mem _ hm)) hnodup hrest
    simp only [List.map_cons, readMembers, hfind, if_neg hfresh, hread seen, Option.bind_some, htail,
      List.reverse_cons, List.append_assoc, List.singleton_append]

theorem Accepted.unknown {after : List String} {value : Json} (h : Accepted fields members seen after)
    (hfind : fields.find? (·.name = key) = none) :
    Accepted fields ((some key, value) :: members) seen after := by
  have hne : ∀ {name f}, fields.find? (·.name = name) = some f → some key ≠ some name := by
    rintro name f hname ⟨⟩
    rw [hfind] at hname
    cases hname
  constructor
  · intro name f hname hmem
    apply h.fresh hname
    exact (List.mem_cons.mp hmem).resolve_left (hne hname).symm
  · intro name f hname
    rw [List.map_cons, List.count_cons_of_ne (hne hname)]
    exact h.once hname
  · intro name f value hname hmem
    apply h.understood hname
    rcases List.mem_cons.mp hmem with heq | hmem
    · exact absurd (Prod.mk.inj heq).1.symm (hne hname)
    · exact hmem
  · intro name hname
    exact (h.named name hname).imp_right (List.mem_cons_of_mem _)

theorem Accepted.known {after : List String} {value : Json}
    (h : Accepted fields members (key :: seen) after)
    (hfind : fields.find? (·.name = key) = some f) (hseen : key ∉ seen)
    (hread : f.readJson value a ≠ none) :
    Accepted fields ((some key, value) :: members) seen after := by
  have hother : some key ∉ members.map Prod.fst :=
    fun hmem => h.fresh hfind hmem List.mem_cons_self
  constructor
  · intro name g hname hmem
    rcases List.mem_cons.mp hmem with heq | hmem
    · obtain rfl := Option.some.inj heq
      exact hseen
    · exact fun hold => h.fresh hname hmem (List.mem_cons_of_mem _ hold)
  · intro name g hname
    rw [List.map_cons]
    by_cases heq : key = name
    · subst heq
      rw [List.count_cons_self, List.count_eq_zero_of_not_mem hother]
    · rw [List.count_cons_of_ne (fun hsome => heq (Option.some.inj hsome))]
      exact h.once hname
  · intro name g value' hname hmem
    rcases List.mem_cons.mp hmem with heq | hmem
    · obtain ⟨rfl, rfl⟩ := heq
      rw [hfind] at hname
      obtain rfl := Option.some.inj hname
      exact ⟨a, hread⟩
    · exact h.understood hname hmem
  · intro name hname
    rcases h.named name hname with hmem | hmem
    · rcases List.mem_cons.mp hmem with rfl | hmem
      · exact .inr List.mem_cons_self
      · exact .inl hmem
    · exact .inr (List.mem_cons_of_mem _ hmem)

theorem readMembers_accepted {after : List String} {b : α}
    (h : readMembers fields members seen a = some (after, b)) :
    Accepted fields members seen after := by
  induction members generalizing seen a with
  | nil =>
    obtain ⟨rfl, rfl⟩ := Prod.mk.inj (Option.some.inj h)
    exact ⟨nofun, fun _ => Nat.zero_le _, nofun, fun _ => .inl⟩
  | cons member members ih =>
    obtain ⟨name, value⟩ := member
    cases name with
    | none => cases h
    | some key =>
      rw [readMembers] at h
      split at h
      case h_1 hfind => exact (ih h).unknown hfind
      case h_2 f hfind =>
        by_cases hseen : key ∈ seen
        · rw [if_pos hseen] at h
          cases h
        · rw [if_neg hseen] at h
          obtain ⟨c, hread, hrest⟩ := Option.bind_eq_some_iff.mp h
          have hunderstood : f.readJson value a ≠ none := by
            rw [hread]
            exact nofun
          exact (ih hrest).known hfind hseen hunderstood

section Objects

variable {filled : List String → α} {written part : List (String × Json)}

theorem nodup_names (hnodup : (written.map Prod.fst).Nodup) (h : part.Subperm written) :
    (part.map Prod.fst).Nodup := by
  obtain ⟨kept, hperm, hsub⟩ := h
  exact (hperm.map Prod.fst).nodup_iff.mp ((hsub.map Prod.fst).nodup hnodup)

theorem readMembers_part (hall : ∀ member ∈ written, Completes fields filled member)
    (hnodup : (written.map Prod.fst).Nodup) (h : part.Subperm written) :
    readMembers fields (part.map fun (key, value) => (some key, value)) [] (filled []) =
      some ((part.map Prod.fst).reverse, filled (part.map Prod.fst).reverse) := by
  have hread := readMembers_filled (fun member hmem => hall member (h.subset hmem))
    (nodup_names hnodup h) (fun key _ => List.not_mem_nil)
  rwa [List.append_nil] at hread

theorem ofJson?_part (hall : ∀ member ∈ written, Completes fields filled member)
    (hnodup : (written.map Prod.fst).Nodup) (h : part.Subperm written) :
    ofJson? fields (filled []) (.record part) = some (filled (part.map Prod.fst).reverse) := by
  rw [Json.record, ofJson?, readMembers_part hall hnodup h, Option.map_some]

theorem readMembers_repeated (hfind : fields.find? (·.name = key) = some f)
    (hcount : 2 ≤ (members.map Prod.fst).count (some key)) :
    readMembers fields members seen a = none := by
  by_contra hsome
  obtain ⟨⟨after, b⟩, hread⟩ := Option.ne_none_iff_exists'.mp hsome
  have honce := (readMembers_accepted hread).once hfind
  omega

theorem ofJson?_repeated (hfind : fields.find? (·.name = key) = some f)
    (hcount : 2 ≤ (members.map Prod.fst).count (some key)) :
    ofJson? fields a (.object members) = none := by
  rw [ofJson?, readMembers_repeated hfind hcount, Option.map_none]

/-- A member whose value is never understood spoils the record. -/
theorem ofJson?_refused {value : Json} (hfind : fields.find? (·.name = key) = some f)
    (hmem : (some key, value) ∈ members) (hrefused : ∀ a, f.readJson value a = none) :
    ofJson? fields a (.object members) = none := by
  rw [ofJson?, Option.map_eq_none_iff]
  by_contra hsome
  obtain ⟨⟨after, b⟩, hread⟩ := Option.ne_none_iff_exists'.mp hsome
  obtain ⟨c, hunderstood⟩ := (readMembers_accepted hread).understood hfind hmem
  exact hunderstood (hrefused c)

theorem ofFullJson?_repeated (hfind : fields.find? (·.name = key) = some f)
    (hcount : 2 ≤ (members.map Prod.fst).count (some key)) :
    ofFullJson? fields a (.object members) = none := by
  rw [ofFullJson?, readMembers_repeated hfind hcount, Option.bind_none]

theorem ofFullJson?_missing (hmem : f ∈ fields) (hmissing : some f.name ∉ members.map Prod.fst) :
    ofFullJson? fields a (.object members) = none := by
  rw [ofFullJson?, Option.bind_eq_none_iff]
  rintro ⟨after, b⟩ hread
  have hunseen : f.name ∉ after := by
    intro hafter
    rcases (readMembers_accepted hread).named _ hafter with hold | hnew
    · cases hold
    · exact hmissing hnew
  apply if_neg
  intro hall
  exact hunseen (of_decide_eq_true (List.all_eq_true.mp hall f hmem))

theorem ofFullJson?_whole (hall : ∀ member ∈ written, Completes fields filled member)
    (hnodup : (written.map Prod.fst).Nodup) (hnames : ∀ f ∈ fields, f.name ∈ written.map Prod.fst)
    (h : part.Perm written) :
    ofFullJson? fields (filled []) (.record part) = some (filled (part.map Prod.fst).reverse) := by
  have hseen : fields.all (·.name ∈ (part.map Prod.fst).reverse) = true := by
    rw [List.all_eq_true]
    intro f hf
    rw [decide_eq_true_eq, List.mem_reverse, (h.map Prod.fst).mem_iff]
    exact hnames f hf
  rw [Json.record, ofFullJson?, readMembers_part hall hnodup h.subperm, Option.bind_some]
  simp only [hseen, if_true]

end Objects

end Fields

end Liveness
