import Liveness.Occupancy
import Liveness.Proofs.Json.Records
import Liveness.Proofs.Numeric.ReadBack
import Liveness.Settings.Basic
/-!
# Settings in JSON documents

What is written for settings, policies and thresholds is read back, in any order of the members, and a
member that is left out has its standard value. An occupancy has to be complete. No member may stand twice,
and a multiplier that is not a number has no text.
-/
namespace Liveness

/-- Reading undoes writing: an object with some of the members, in any order, gives the standard value
`filled` in with these, and an object with all of them the value itself. -/
structure RoundTrips {α : Type} (read : Json → Option α) (document : Json)
    (members : List (String × Json)) (filled : List String → α) (v : α) : Prop where
  written : document = .record members
  part : ∀ part : List (String × Json), part.Subperm members →
    reread read (.record part) = some (filled (part.map Prod.fst))
  whole : ∀ part : List (String × Json), part.Perm members → reread read (.record part) = some v

def RefusesRepeats {α : Type} (read : Json → Option α) (names : List String) : Prop :=
  ∀ (text : String) (members : List (Option String × Json)),
    Json.parse? text = some (.object members) → ∀ name ∈ names,
      2 ≤ (members.map Prod.fst).count (some name) → (Json.parse? text).bind read = none

def RefusesGaps {α : Type} (read : Json → Option α) (names : List String) : Prop :=
  ∀ (text : String) (members : List (Option String × Json)),
    Json.parse? text = some (.object members) → ∀ name ∈ names,
      some name ∉ members.map Prod.fst → (Json.parse? text).bind read = none

section Fields

variable {α : Type} {fields : List (Field α)} {filled : List String → α}

theorem Fields.find?_of_mem {name : String} (h : name ∈ fields.map (·.name)) :
    ∃ f, fields.find? (·.name = name) = some f := by
  obtain ⟨f, hf, rfl⟩ := List.mem_map.mp h
  apply Option.isSome_iff_exists.mp
  rw [List.find?_isSome]
  exact ⟨f, hf, decide_eq_true rfl⟩

theorem Fields.completes_of_lens {β : Type} {name : String} {get : α → β} {set : β → α → α}
    {toJson : β → Json} {ofJson? : Json → Option β} {ofToml? : Toml → Option β} {value : Json} {x : β}
    (hfind : fields.find? (·.name = name) = some (.ofLens name get set toJson ofJson? ofToml?))
    (hread : ofJson? value = some x) (hset : ∀ seen, set x (filled seen) = filled (name :: seen)) :
    Completes fields filled (name, value) := by
  refine ⟨_, hfind, fun seen => ?_⟩
  simp only [Field.ofLens, hread, Option.map_some, hset]

/-- Members that each add their name make a record that is read back. -/
theorem RoundTrips.of_completes {members : List (String × Json)} {v : α}
    (hall : ∀ member ∈ members, Fields.Completes fields filled member)
    (hnodup : (members.map Prod.fst).Nodup) (hreverse : ∀ given, filled given.reverse = filled given)
    (hwhole : ∀ {given}, (∀ name ∈ members.map Prod.fst, name ∈ given) → filled given = v) :
    RoundTrips (Fields.ofJson? fields (filled [])) (.record members) members filled v := by
  have hpart : ∀ part : List (String × Json), part.Subperm members →
      reread (Fields.ofJson? fields (filled [])) (.record part) = some (filled (part.map Prod.fst)) := by
    intro part h
    rw [reread_eq, Fields.ofJson?_part hall hnodup h, hreverse]
  refine ⟨rfl, hpart, fun part h => ?_⟩
  rw [hpart part h.subperm, hwhole]
  intro name hname
  exact (h.map Prod.fst).mem_iff.mpr hname

theorem Fields.ofJson?_lens_refused {β : Type} {name : String} {get : α → β} {set : β → α → α}
    {toJson : β → Json} {ofJson? : Json → Option β} {ofToml? : Toml → Option β} {value : Json}
    {members : List (Option String × Json)} {base : α}
    (hfind : fields.find? (·.name = name) = some (.ofLens name get set toJson ofJson? ofToml?))
    (hmem : (some name, value) ∈ members) (hrefused : ofJson? value = none) :
    Fields.ofJson? fields base (.object members) = none := by
  apply ofJson?_refused hfind hmem
  intro a
  simp only [Field.ofLens, hrefused, Option.map_none]

/-- Whatever stands in a part under a name from the members is the value that was written. -/
theorem mem_record_of_subperm {part members : List (String × Json)} {name : String} (value : Json)
    (hpart : part.Subperm members) (hgiven : name ∈ part.map Prod.fst)
    (hwritten : ∀ other, (name, other) ∈ members → other = value) :
    (some name, value) ∈ part.map fun (key, value) => (some key, value) := by
  obtain ⟨⟨key, other⟩, hmem, rfl⟩ := List.mem_map.mp hgiven
  obtain rfl := hwritten other (hpart.subset hmem)
  exact List.mem_map.mpr ⟨_, hmem, rfl⟩

theorem refusesRepeats_of_eq_none {read : Json → Option α} {names : List String}
    (h : ∀ name ∈ names, ∀ members, 2 ≤ (members.map Prod.fst).count (some name) →
      read (.object members) = none) : RefusesRepeats read names := by
  intro text members hparse name hname hcount
  rw [hparse, Option.bind_some]
  exact h name hname members hcount

/-- No record that is filled up from standard values is read from an object with a repeated name. -/
theorem Fields.refusesRepeats (fields : List (Field α)) (base : α) :
    RefusesRepeats (ofJson? fields base) (fields.map (·.name)) := by
  apply refusesRepeats_of_eq_none
  intro name hname members hcount
  obtain ⟨f, hfind⟩ := find?_of_mem hname
  exact ofJson?_repeated hfind hcount

theorem Fields.refusesRepeats_full (fields : List (Field α)) (base : α) :
    RefusesRepeats (ofFullJson? fields base) (fields.map (·.name)) := by
  apply refusesRepeats_of_eq_none
  intro name hname members hcount
  obtain ⟨f, hfind⟩ := find?_of_mem hname
  exact ofFullJson?_repeated hfind hcount

theorem Fields.refusesGaps (fields : List (Field α)) (base : α) :
    RefusesGaps (ofFullJson? fields base) (fields.map (·.name)) := by
  intro text members hparse name hname hmissing
  obtain ⟨f, hf, rfl⟩ := List.mem_map.mp hname
  rw [hparse, Option.bind_some]
  exact ofFullJson?_missing hf hmissing

end Fields

namespace LatencyBands

def members (b : LatencyBands) : List (String × Json) := fields.map fun f => (f.name, f.toJson b)

def filled (b : LatencyBands) (given : List String) : LatencyBands :=
  { fastMs := if "fast_ms" ∈ given then b.fastMs else standard.fastMs
    elevatedMs := if "elevated_ms" ∈ given then b.elevatedMs else standard.elevatedMs }

theorem members_eq (b : LatencyBands) :
    b.members = [("fast_ms", .nat b.fastMs.toNat), ("elevated_ms", .nat b.elevatedMs.toNat)] := rfl

theorem completes (b : LatencyBands) : ∀ member ∈ b.members, Fields.Completes fields b.filled member := by
  intro member hmem
  simp only [members_eq, List.mem_cons, List.not_mem_nil, or_false] at hmem
  rcases hmem with rfl | rfl
  · exact Fields.completes_of_lens rfl (Json.uint64?_nat b.fastMs) (fun seen => by simp [filled])
  · exact Fields.completes_of_lens rfl (Json.uint64?_nat b.elevatedMs) (fun seen => by simp [filled])

theorem filled_nil (b : LatencyBands) : b.filled [] = standard := by
  simp only [filled, List.not_mem_nil, if_false]

theorem filled_reverse (b : LatencyBands) (given : List String) : b.filled given.reverse = b.filled given := by
  simp only [filled, List.mem_reverse]

theorem filled_whole (b : LatencyBands) {given : List String}
    (h : ∀ name ∈ b.members.map Prod.fst, name ∈ given) : b.filled given = b := by
  simp only [members_eq, List.map_cons, List.map_nil, List.forall_mem_cons] at h
  obtain ⟨hfast, helevated, -⟩ := h
  simp only [filled, hfast, helevated, if_true]

theorem nodup_names (b : LatencyBands) : (b.members.map Prod.fst).Nodup := by
  rw [members_eq]
  simp only [List.map_cons, List.map_nil]
  decide

theorem roundTrips (b : LatencyBands) : RoundTrips ofJson? b.toJson b.members b.filled b := by
  have h := RoundTrips.of_completes b.completes b.nodup_names b.filled_reverse b.filled_whole
  rw [filled_nil] at h
  exact h

end LatencyBands

namespace Policy

variable {read : Numeral → Binary64}

def members (p : Policy) : List (String × Json) :=
  (fields Numeral.toBinary64).map fun f => (f.name, f.toJson p)

def filled (p : Policy) (given : List String) : Policy :=
  { maxAttempts := if "max_attempts" ∈ given then p.maxAttempts else standard.maxAttempts
    initialBackoffMs :=
      if "initial_backoff_ms" ∈ given then p.initialBackoffMs else standard.initialBackoffMs
    maxBackoffMs := if "max_backoff_ms" ∈ given then p.maxBackoffMs else standard.maxBackoffMs
    multiplier := if "backoff_multiplier" ∈ given then p.multiplier else standard.multiplier
    jitter := if "jitter" ∈ given then p.jitter else standard.jitter
    maxElapsedMs := if "max_elapsed_ms" ∈ given then p.maxElapsedMs else standard.maxElapsedMs }

theorem members_eq (p : Policy) :
    p.members =
      [ ("max_attempts", .nat p.maxAttempts.toNat),
        ("initial_backoff_ms", .nat p.initialBackoffMs.toNat),
        ("max_backoff_ms", .nat p.maxBackoffMs.toNat),
        ("backoff_multiplier", doubleToJson p.multiplier),
        ("jitter", .bool p.jitter),
        ("max_elapsed_ms", .nat p.maxElapsedMs.toNat) ] := rfl

def Rereads (read : Numeral → Binary64) (x : Binary64) : Prop :=
  ∀ n, FloatLayout.document.numeral? x = some n → read n = x

/-- So does a reader that rounds to the nearest double. -/
theorem rereads_nearest {x : Binary64} (hfinite : x.isFinite = true) :
    Rereads Numeral.toBinary64 x := by
  obtain ⟨n, hnumeral, hnearest⟩ := FloatLayout.document.numeral?_reads_back hfinite
  intro n' hnumeral'
  obtain rfl := Option.some.inj (hnumeral.symm.trans hnumeral')
  exact hnearest

theorem double?_doubleToJson {x : Binary64} (hfinite : x.isFinite = true) (hread : Rereads read x) :
    Json.double? read (doubleToJson x) = some x := by
  obtain ⟨n, hnumeral, -⟩ := FloatLayout.document.numeral?_reads_back hfinite
  have hwritten : doubleToJson x = .number n := by
    rw [doubleToJson, hnumeral]
  rw [hwritten]
  show (some (read n)).filter Binary64.isFinite = some x
  rw [hread n hnumeral, Option.filter_some, if_pos hfinite]

theorem doubleToJson_infinite {x : Binary64} (hinfinite : x.isFinite = false) :
    doubleToJson x = .null := by
  cases x with
  | nan => rfl
  | infinite => rfl
  | finite => cases hinfinite

theorem completes {p : Policy} (hfinite : p.multiplier.isFinite = true)
    (hread : Rereads read p.multiplier) :
    ∀ member ∈ p.members, Fields.Completes (fields read) p.filled member := by
  intro member hmem
  simp only [members_eq, List.mem_cons, List.not_mem_nil, or_false] at hmem
  rcases hmem with rfl | rfl | rfl | rfl | rfl | rfl
  · exact Fields.completes_of_lens rfl (Json.uint32?_nat p.maxAttempts) (fun seen => by simp [filled])
  · exact Fields.completes_of_lens rfl (Json.uint64?_nat p.initialBackoffMs) (fun seen => by simp [filled])
  · exact Fields.completes_of_lens rfl (Json.uint64?_nat p.maxBackoffMs) (fun seen => by simp [filled])
  · exact Fields.completes_of_lens rfl (double?_doubleToJson hfinite hread)
      (fun seen => by simp [filled])
  · exact Fields.completes_of_lens rfl (x := p.jitter) rfl (fun seen => by simp [filled])
  · exact Fields.completes_of_lens rfl (Json.uint64?_nat p.maxElapsedMs) (fun seen => by simp [filled])

theorem filled_nil (p : Policy) : p.filled [] = standard := by
  simp only [filled, List.not_mem_nil, if_false]

theorem filled_reverse (p : Policy) (given : List String) : p.filled given.reverse = p.filled given := by
  simp only [filled, List.mem_reverse]

theorem filled_whole (p : Policy) {given : List String}
    (h : ∀ name ∈ p.members.map Prod.fst, name ∈ given) : p.filled given = p := by
  simp only [members_eq, List.map_cons, List.map_nil, List.forall_mem_cons] at h
  obtain ⟨hattempts, hinitial, hcap, hmultiplier, hjitter, helapsed, -⟩ := h
  simp only [filled, hattempts, hinitial, hcap, hmultiplier, hjitter, helapsed, if_true]

theorem nodup_names (p : Policy) : (p.members.map Prod.fst).Nodup := by
  rw [members_eq]
  simp only [List.map_cons, List.map_nil]
  decide

theorem roundTrips {p : Policy} (hfinite : p.multiplier.isFinite = true)
    (hread : Rereads read p.multiplier) :
    RoundTrips (ofJson? read) p.toJson p.members p.filled p := by
  have h := RoundTrips.of_completes (completes hfinite hread) p.nodup_names p.filled_reverse
    p.filled_whole
  rw [filled_nil] at h
  exact h

/-- Neither the policy is read back nor any part of it with the multiplier. -/
structure Unreadable (read : Numeral → Binary64) (p : Policy) : Prop where
  written : reread (ofJson? read) p.toJson = none
  part : ∀ part : List (String × Json), part.Subperm p.members →
    "backoff_multiplier" ∈ part.map Prod.fst → reread (ofJson? read) (.record part) = none

/-- A multiplier that is not finite is written as null, which is not read. -/
theorem ofJson?_infinite {p : Policy} (hinfinite : p.multiplier.isFinite = false)
    {part : List (String × Json)} (hpart : part.Subperm p.members)
    (hgiven : "backoff_multiplier" ∈ part.map Prod.fst) : ofJson? read (.record part) = none := by
  have hnull := doubleToJson_infinite hinfinite
  have hwritten := mem_record_of_subperm .null hpart hgiven fun other h => by
    simpa [members_eq, hnull] using h
  exact Fields.ofJson?_lens_refused rfl hwritten rfl

theorem multiplier_mem_members (p : Policy) : "backoff_multiplier" ∈ p.members.map Prod.fst := by
  simp [members_eq]

theorem unreadable {p : Policy} (hinfinite : p.multiplier.isFinite = false) :
    p.Unreadable read := by
  constructor
  · rw [reread_eq]
    exact ofJson?_infinite hinfinite (List.Subperm.refl _) p.multiplier_mem_members
  · intro part hpart hgiven
    rw [reread_eq]
    exact ofJson?_infinite hinfinite hpart hgiven

end Policy

namespace Settings

variable {read : Numeral → Binary64}

def members (s : Settings) (policyDocument bandsDocument : Json) : List (String × Json) :=
  [ ("interval_ms", .nat s.intervalMs.toNat),
    ("timeout_ms", .nat s.timeoutMs.toNat),
    ("failure_threshold", .nat s.failureThreshold.toNat),
    ("success_threshold", .nat s.successThreshold.toNat),
    ("enable_auto_reconnect", .bool s.autoReconnect),
    ("check_mode", s.checkMode.toJson),
    ("reconnect_policy", policyDocument),
    ("latency_thresholds", bandsDocument) ]

def filled (s : Settings) (p : Policy) (b : LatencyBands) (given : List String) : Settings :=
  { intervalMs := if "interval_ms" ∈ given then s.intervalMs else standard.intervalMs
    timeoutMs := if "timeout_ms" ∈ given then s.timeoutMs else standard.timeoutMs
    failureThreshold :=
      if "failure_threshold" ∈ given then s.failureThreshold else standard.failureThreshold
    successThreshold :=
      if "success_threshold" ∈ given then s.successThreshold else standard.successThreshold
    autoReconnect :=
      if "enable_auto_reconnect" ∈ given then s.autoReconnect else standard.autoReconnect
    checkMode := if "check_mode" ∈ given then s.checkMode else standard.checkMode
    policy := if "reconnect_policy" ∈ given then p else standard.policy
    bands := if "latency_thresholds" ∈ given then b else standard.bands }

theorem toJson_eq (s : Settings) : s.toJson = .record (s.members s.policy.toJson s.bands.toJson) := rfl

theorem ofJson?_checkMode (m : CheckMode) : CheckMode.choice.ofJson? m.toJson = some m := by
  cases m <;> rfl

section Filled

variable {s : Settings} {policyDocument bandsDocument : Json} {p : Policy} {b : LatencyBands}
  {given : List String}

theorem completes (hp : Policy.ofJson? read policyDocument = some p)
    (hb : LatencyBands.ofJson? bandsDocument = some b) :
    ∀ member ∈ s.members policyDocument bandsDocument,
      Fields.Completes (fields read) (s.filled p b) member := by
  intro member hmem
  simp only [members, List.mem_cons, List.not_mem_nil, or_false] at hmem
  rcases hmem with rfl | rfl | rfl | rfl | rfl | rfl | rfl | rfl
  · exact Fields.completes_of_lens rfl (Json.uint64?_nat s.intervalMs) (fun seen => by simp [filled])
  · exact Fields.completes_of_lens rfl (Json.uint64?_nat s.timeoutMs) (fun seen => by simp [filled])
  · exact Fields.completes_of_lens rfl (Json.uint32?_nat s.failureThreshold) (fun seen => by simp [filled])
  · exact Fields.completes_of_lens rfl (Json.uint32?_nat s.successThreshold) (fun seen => by simp [filled])
  · exact Fields.completes_of_lens rfl (x := s.autoReconnect) rfl (fun seen => by simp [filled])
  · exact Fields.completes_of_lens rfl (ofJson?_checkMode s.checkMode) (fun seen => by simp [filled])
  · exact Fields.completes_of_lens rfl hp (fun seen => by simp [filled])
  · exact Fields.completes_of_lens rfl hb (fun seen => by simp [filled])

theorem filled_nil : s.filled p b [] = standard := by
  simp only [filled, List.not_mem_nil, if_false]

theorem filled_reverse : s.filled p b given.reverse = s.filled p b given := by
  simp only [filled, List.mem_reverse]

theorem filled_whole (h : ∀ name ∈ (s.members policyDocument bandsDocument).map Prod.fst, name ∈ given) :
    s.filled s.policy s.bands given = s := by
  simp only [members, List.map_cons, List.map_nil, List.forall_mem_cons] at h
  obtain ⟨hinterval, htimeout, hfailures, hsuccesses, hauto, hmode, hpolicy, hbands, -⟩ := h
  simp only [filled, hinterval, htimeout, hfailures, hsuccesses, hauto, hmode, hpolicy, hbands, if_true]

end Filled

theorem nodup_names (s : Settings) (policyDocument bandsDocument : Json) :
    ((s.members policyDocument bandsDocument).map Prod.fst).Nodup := by
  simp only [members, List.map_cons, List.map_nil]
  decide

/-- Some members of the settings, of the policy and of the thresholds, each in any order. -/
structure ReadsBack (read : Numeral → Binary64) (s : Settings) : Prop where
  written : s.toJson = .record (s.members s.policy.toJson s.bands.toJson)
  part : ∀ policyPart bandsPart part : List (String × Json),
    policyPart.Subperm s.policy.members → bandsPart.Subperm s.bands.members →
    part.Subperm (s.members (.record policyPart) (.record bandsPart)) →
    reread (ofJson? read) (.record part) =
      some (s.filled (s.policy.filled (policyPart.map Prod.fst)) (s.bands.filled (bandsPart.map Prod.fst))
        (part.map Prod.fst))
  whole : ∀ policyPart bandsPart part : List (String × Json),
    policyPart.Perm s.policy.members → bandsPart.Perm s.bands.members →
    part.Perm (s.members (.record policyPart) (.record bandsPart)) →
    reread (ofJson? read) (.record part) = some s

theorem readsBack {s : Settings} (hfinite : s.policy.multiplier.isFinite = true)
    (hread : Policy.Rereads read s.policy.multiplier) : s.ReadsBack read := by
  have hpolicy := Policy.roundTrips hfinite hread
  have hbands := s.bands.roundTrips
  constructor
  · exact s.toJson_eq
  · intro policyPart bandsPart part hpolicyPart hbandsPart hpart
    have hp := hpolicy.part policyPart hpolicyPart
    have hb := hbands.part bandsPart hbandsPart
    rw [reread_eq] at hp hb ⊢
    have hread := Fields.ofJson?_part (completes hp hb) (s.nodup_names _ _) hpart
    rw [filled_nil, filled_reverse] at hread
    exact hread
  · intro policyPart bandsPart part hpolicyPart hbandsPart hpart
    have hp := hpolicy.whole policyPart hpolicyPart
    have hb := hbands.whole bandsPart hbandsPart
    rw [reread_eq] at hp hb ⊢
    have hread := Fields.ofJson?_part (completes hp hb) (s.nodup_names _ _) hpart.subperm
    rw [filled_nil, filled_reverse, filled_whole] at hread
    · exact hread
    · intro name hname
      exact (hpart.map Prod.fst).mem_iff.mpr hname

structure Unreadable (read : Numeral → Binary64) (s : Settings) : Prop where
  written : reread (ofJson? read) s.toJson = none
  part : ∀ (policyPart part : List (String × Json)) (bandsDocument : Json),
    policyPart.Subperm s.policy.members → "backoff_multiplier" ∈ policyPart.map Prod.fst →
    part.Subperm (s.members (.record policyPart) bandsDocument) →
    "reconnect_policy" ∈ part.map Prod.fst → reread (ofJson? read) (.record part) = none

theorem ofJson?_infinite {s : Settings} {policyDocument bandsDocument : Json}
    (hpolicy : Policy.ofJson? read policyDocument = none) {part : List (String × Json)}
    (hpart : part.Subperm (s.members policyDocument bandsDocument))
    (hgiven : "reconnect_policy" ∈ part.map Prod.fst) : ofJson? read (.record part) = none := by
  have hwritten := mem_record_of_subperm policyDocument hpart hgiven fun other h => by
    simpa [members] using h
  exact Fields.ofJson?_lens_refused rfl hwritten hpolicy

theorem unreadable {s : Settings} (hinfinite : s.policy.multiplier.isFinite = false) :
    s.Unreadable read := by
  constructor
  · have hpolicy : Policy.ofJson? read s.policy.toJson = none :=
      Policy.ofJson?_infinite hinfinite (List.Subperm.refl _) s.policy.multiplier_mem_members
    rw [reread_eq, toJson_eq]
    apply ofJson?_infinite hpolicy (List.Subperm.refl _)
    simp [members]
  · intro policyPart part bandsDocument hpolicyPart hmultiplier hpart hgiven
    have hpolicy : Policy.ofJson? read (.record policyPart) = none :=
      Policy.ofJson?_infinite hinfinite hpolicyPart hmultiplier
    rw [reread_eq]
    exact ofJson?_infinite hpolicy hpart hgiven

def RefusesInnerRepeats (read : Numeral → Binary64) : Prop :=
  ∀ (text : String) (members inner : List (Option String × Json)),
    Json.parse? text = some (.object members) → ∀ name,
      2 ≤ (inner.map Prod.fst).count (some name) →
      ((some "reconnect_policy", .object inner) ∈ members ∧ name ∈ (Policy.fields read).map (·.name) ∨
        (some "latency_thresholds", .object inner) ∈ members ∧
          name ∈ LatencyBands.fields.map (·.name)) →
      (Json.parse? text).bind (ofJson? read) = none

theorem refusesInnerRepeats : RefusesInnerRepeats read := by
  intro text members inner hparse name hcount hinner
  rw [hparse, Option.bind_some]
  rcases hinner with ⟨hmem, hname⟩ | ⟨hmem, hname⟩
  · obtain ⟨f, hfind⟩ := Fields.find?_of_mem hname
    have hpolicy : Policy.ofJson? read (.object inner) = none := Fields.ofJson?_repeated hfind hcount
    exact Fields.ofJson?_lens_refused rfl hmem hpolicy
  · obtain ⟨f, hfind⟩ := Fields.find?_of_mem hname
    have hbands : LatencyBands.ofJson? (.object inner) = none := Fields.ofJson?_repeated hfind hcount
    exact Fields.ofJson?_lens_refused rfl hmem hbands

end Settings

namespace Occupancy

def members (o : Occupancy) : List (String × Json) := fields.map fun f => (f.name, f.toJson o)

def filled (o : Occupancy) (given : List String) : Occupancy :=
  { total := if "total" ∈ given then o.total else 0
    idle := if "idle" ∈ given then o.idle else 0
    active := if "active" ∈ given then o.active else 0
    waiting := if "waiting" ∈ given then o.waiting else 0 }

theorem members_eq (o : Occupancy) :
    o.members =
      [ ("total", .nat o.total.toNat), ("idle", .nat o.idle.toNat), ("active", .nat o.active.toNat),
        ("waiting", .nat o.waiting.toNat) ] := rfl

theorem completes (o : Occupancy) : ∀ member ∈ o.members, Fields.Completes fields o.filled member := by
  intro member hmem
  simp only [members_eq, List.mem_cons, List.not_mem_nil, or_false] at hmem
  rcases hmem with rfl | rfl | rfl | rfl
  · exact Fields.completes_of_lens rfl (Json.uint64?_nat o.total) (fun seen => by simp [filled])
  · exact Fields.completes_of_lens rfl (Json.uint64?_nat o.idle) (fun seen => by simp [filled])
  · exact Fields.completes_of_lens rfl (Json.uint64?_nat o.active) (fun seen => by simp [filled])
  · exact Fields.completes_of_lens rfl (Json.uint64?_nat o.waiting) (fun seen => by simp [filled])

theorem filled_nil (o : Occupancy) : o.filled [] = empty := by
  simp only [filled, List.not_mem_nil, if_false, empty]

theorem filled_whole (o : Occupancy) {given : List String}
    (h : ∀ name ∈ o.members.map Prod.fst, name ∈ given) : o.filled given = o := by
  simp only [members_eq, List.map_cons, List.map_nil, List.forall_mem_cons] at h
  obtain ⟨htotal, hidle, hactive, hwaiting, -⟩ := h
  simp only [filled, htotal, hidle, hactive, hwaiting, if_true]

theorem nodup_names (o : Occupancy) : (o.members.map Prod.fst).Nodup := by
  rw [members_eq]
  simp only [List.map_cons, List.map_nil]
  decide

structure ReadsBack (o : Occupancy) : Prop where
  written : o.toJson = .record o.members
  whole : ∀ part : List (String × Json), part.Perm o.members →
    reread ofJson? (.record part) = some o

theorem readsBack (o : Occupancy) : o.ReadsBack := by
  refine ⟨rfl, fun part h => ?_⟩
  have hnames : ∀ f ∈ fields, f.name ∈ o.members.map Prod.fst := by
    intro f hf
    exact List.mem_map.mpr ⟨_, List.mem_map.mpr ⟨f, hf, rfl⟩, rfl⟩
  have hread := Fields.ofFullJson?_whole o.completes o.nodup_names hnames h
  rw [filled_nil, filled_whole] at hread
  · rw [reread_eq]
    exact hread
  · intro name hname
    rw [List.mem_reverse, (h.map Prod.fst).mem_iff]
    exact hname

end Occupancy

/-- What is written is read back, whatever the order of the members, and what is left out is filled up from
the standard of the record that it belongs to. Of multipliers it is asked that their text is read as the
same double, which a reader does that rounds to the nearest one. An occupancy is read only as a whole, no
object is read in which a known name stands twice, and none that was written with a multiplier that is not
finite. -/
theorem documents_read_back :
    (∀ b : LatencyBands, RoundTrips LatencyBands.ofJson? b.toJson b.members b.filled b) ∧
    (∀ (read : Numeral → Binary64) (p : Policy), p.multiplier.isFinite = true →
      Policy.Rereads read p.multiplier →
      RoundTrips (Policy.ofJson? read) p.toJson p.members p.filled p) ∧
    (∀ (read : Numeral → Binary64) (s : Settings), s.policy.multiplier.isFinite = true →
      Policy.Rereads read s.policy.multiplier → s.ReadsBack read) ∧
    (∀ x : Binary64, x.isFinite = true → Policy.Rereads Numeral.toBinary64 x) ∧
    (∀ o : Occupancy, o.ReadsBack) ∧
    RefusesGaps Occupancy.ofJson? (Occupancy.fields.map (·.name)) ∧
    RefusesRepeats LatencyBands.ofJson? (LatencyBands.fields.map (·.name)) ∧
    (∀ read, RefusesRepeats (Policy.ofJson? read) ((Policy.fields read).map (·.name))) ∧
    (∀ read, RefusesRepeats (Settings.ofJson? read) ((Settings.fields read).map (·.name))) ∧
    (∀ read, Settings.RefusesInnerRepeats read) ∧
    RefusesRepeats Occupancy.ofJson? (Occupancy.fields.map (·.name)) ∧
    (∀ read (p : Policy), p.multiplier.isFinite = false → p.Unreadable read) ∧
    (∀ read (s : Settings), s.policy.multiplier.isFinite = false → s.Unreadable read) := by
  refine ⟨LatencyBands.roundTrips, fun _ _ => Policy.roundTrips, fun _ _ => Settings.readsBack,
    fun _ => Policy.rereads_nearest, Occupancy.readsBack, ?_, ?_, ?_, ?_,
    fun _ => Settings.refusesInnerRepeats, ?_, fun _ _ => Policy.unreadable,
    fun _ _ => Settings.unreadable⟩
  · exact Fields.refusesGaps Occupancy.fields .empty
  · exact Fields.refusesRepeats LatencyBands.fields .standard
  · exact fun read => Fields.refusesRepeats (Policy.fields read) .standard
  · exact fun read => Fields.refusesRepeats (Settings.fields read) .standard
  · exact Fields.refusesRepeats_full Occupancy.fields .empty

/-- Numbers at the ends of their ranges, among them the largest double. -/
def Settings.extreme : Settings :=
  { Settings.new 18446744073709551615 0 with
    checkMode := .deep
    policy :=
      { Policy.new 4294967295 0 18446744073709551615 with
        multiplier := .finite false (Fin.last 2046) (Fin.last 4503599627370495) }
    bands := ⟨18446744073709551615, 7⟩ }

/-- The whole is read back, and of a part with two members what it has, one of them a part itself. -/
theorem documents_read_back_extreme :
    reread (Settings.ofJson? Numeral.toBinary64) Settings.extreme.toJson = some Settings.extreme ∧
      reread (Settings.ofJson? Numeral.toBinary64) (.record
        [ ("latency_thresholds", .record [("elevated_ms", .nat 7)]),
          ("interval_ms", .nat 18446744073709551615) ]) =
        some { Settings.standard with intervalMs := 18446744073709551615, bands := ⟨100, 7⟩ } := by
  obtain ⟨-, -, hreads, hnearest, -⟩ := documents_read_back
  have hread := hreads Numeral.toBinary64 Settings.extreme rfl (hnearest _ rfl)
  constructor
  · rw [hread.written]
    exact hread.whole _ _ _ (List.Perm.refl _) (List.Perm.refl _) (List.Perm.refl _)
  · have hinner : [("elevated_ms", Json.nat 7)].Subperm Settings.extreme.bands.members :=
      List.Sublist.subperm (.cons _ (.cons_cons _ .slnil))
    have houter :
        [ ("latency_thresholds", Json.record [("elevated_ms", .nat 7)]),
          ("interval_ms", .nat 18446744073709551615) ].Subperm
          (Settings.extreme.members (.record []) (.record [("elevated_ms", .nat 7)])) := by
      refine ⟨_, .swap _ _ _, ?_⟩
      exact .cons_cons _ (.cons _ (.cons _ (.cons _ (.cons _ (.cons _ (.cons _
        (.cons_cons _ .slnil)))))))
    rw [hread.part _ _ _ List.nil_subperm hinner houter]
    rfl

end Liveness
