import Liveness.Json.Reader
import Liveness.Proofs.Settings.Assignments
/-!
# Acceptable latencies

A latency is acceptable if it is within the higher of the two thresholds. That is the elevated one for
thresholds that are in order, as the standard ones are and those made of two numbers. A document is taken at
its word: thresholds that are read from one are in order only if they are written so, where one that is left
out counts as written with its standard value.
-/
namespace Liveness

def LatencyClass.rank : LatencyClass → Nat
  | .fast => 0
  | .elevated => 1
  | .slow => 2

theorem LatencyClass.rank_le (c : LatencyClass) : c.rank ≤ 2 := by
  cases c <;> decide

section Classes

variable {b : LatencyBands} {latency shorter longer : Duration}

theorem Duration.le_trans {x y z : Duration} (hxy : x ≤ y) (hyz : y ≤ z) : x ≤ z :=
  Nat.le_trans (n := x.nanos) hxy hyz

theorem LatencyClass.isAcceptable_classify :
    (classify latency b).isAcceptable = true ↔ latency ≤ b.fast ∨ latency ≤ b.elevated := by
  unfold classify
  by_cases hfast : latency ≤ b.fast
  · rw [if_pos hfast]
    exact iff_of_true rfl (.inl hfast)
  · rw [if_neg hfast]
    by_cases helevated : latency ≤ b.elevated
    · rw [if_pos helevated]
      exact iff_of_true rfl (.inr helevated)
    · rw [if_neg helevated]
      exact iff_of_false Bool.false_ne_true (fun h => h.elim hfast helevated)

/-- The class of a longer latency is at least as high, also where the thresholds are out of order. -/
theorem LatencyClass.rank_classify_mono (h : shorter ≤ longer) :
    (classify shorter b).rank ≤ (classify longer b).rank := by
  by_cases hfast : shorter ≤ b.fast
  · have hlowest : classify shorter b = .fast := if_pos hfast
    rw [hlowest]
    exact Nat.zero_le _
  · have hnotFast : ¬longer ≤ b.fast := fun hlonger => hfast (Duration.le_trans h hlonger)
    by_cases helevated : longer ≤ b.elevated
    · have hwithin : shorter ≤ b.elevated := Duration.le_trans h helevated
      simp only [classify, if_neg hfast, if_neg hnotFast, if_pos helevated, if_pos hwithin, Nat.le_refl]
    · simp only [classify, if_neg hnotFast, if_neg helevated]
      exact rank_le _

end Classes

namespace LatencyBands

variable {b : LatencyBands}

theorem fast_le_elevated_iff : b.fast ≤ b.elevated ↔ b.fastMs ≤ b.elevatedMs := by
  rw [UInt64.le_iff_toNat_le]
  exact Nat.mul_le_mul_right_iff (by decide)

/-- Out of order, the fast threshold itself is acceptable and beyond the elevated one. -/
theorem acceptable_elevated_iff :
    (∀ latency, (LatencyClass.classify latency b).isAcceptable = true ↔ latency ≤ b.elevated) ↔
      b.fastMs ≤ b.elevatedMs := by
  rw [← fast_le_elevated_iff]
  constructor
  · intro h
    have hacceptable : (LatencyClass.classify b.fast b).isAcceptable = true :=
      LatencyClass.isAcceptable_classify.mpr (.inl (Nat.le_refl b.fast.nanos))
    exact (h b.fast).mp hacceptable
  · intro hordered latency
    rw [LatencyClass.isAcceptable_classify]
    exact or_iff_right_of_imp fun hfast => Duration.le_trans hfast hordered

theorem ordered_new (fastMs elevatedMs : UInt64) :
    (new fastMs elevatedMs).fastMs ≤ (new fastMs elevatedMs).elevatedMs := by
  show fastMs ≤ if elevatedMs ≤ fastMs then fastMs else elevatedMs
  split
  case isTrue => exact UInt64.le_refl fastMs
  case isFalse h => exact UInt64.le_of_lt (UInt64.not_le.mp h)

theorem governs_fast : Fields.Governs fields "fast_ms" fastMs Json.uint64? Toml.uint64? := by
  refine ⟨by decide, by decide, ?_, ?_⟩
  · simp only [fields, List.forall_mem_cons]
    exact ⟨fun _ => Field.ofLens_sets fun _ _ => rfl, fun h => absurd h (by decide), nofun⟩
  · simp only [fields, List.forall_mem_cons]
    exact ⟨fun h => absurd rfl h, fun _ => Field.ofLens_spares fun _ _ => rfl, nofun⟩

theorem governs_elevated :
    Fields.Governs fields "elevated_ms" elevatedMs Json.uint64? Toml.uint64? := by
  refine ⟨by decide, by decide, ?_, ?_⟩
  · simp only [fields, List.forall_mem_cons]
    exact ⟨fun h => absurd h (by decide), fun _ => Field.ofLens_sets fun _ _ => rfl, nofun⟩
  · simp only [fields, List.forall_mem_cons]
    exact ⟨fun _ => Field.ofLens_spares fun _ _ => rfl, fun h => absurd rfl h, nofun⟩

def written (number? : String → Option UInt64) : LatencyBands :=
  { fastMs := (number? "fast_ms").getD standard.fastMs
    elevatedMs := (number? "elevated_ms").getD standard.elevatedMs }

def writtenInJson (document : Option Json) : LatencyBands :=
  written fun name => (document.bind (·.given? (fields.map Field.name) name)).bind Json.uint64?

def writtenInToml (document : Option Toml) : LatencyBands :=
  written fun name => (document.bind (·.given? (fields.map Field.name) name)).bind Toml.uint64?

theorem eq_writtenInJson {document : Option Json} (h : Settles ofJson? document standard b) :
    b = writtenInJson document := by
  cases document with
  | none => exact (Option.some.inj h).symm
  | some j =>
    have hfast := (governs_fast.ofJson?_settles h).eq
    have helevated := (governs_elevated.ofJson?_settles h).eq
    cases b
    exact congr (congrArg mk hfast) helevated

theorem eq_writtenInToml {document : Option Toml} (h : Settles ofToml? document standard b) :
    b = writtenInToml document := by
  cases document with
  | none => exact (Option.some.inj h).symm
  | some t =>
    have hfast := (governs_fast.ofToml?_settles h).eq
    have helevated := (governs_elevated.ofToml?_settles h).eq
    cases b
    exact congr (congrArg mk hfast) helevated

end LatencyBands

theorem Settings.names_eq (read : Numeral → Binary64) : (fields read).map Field.name =
    [ "interval_ms", "timeout_ms", "failure_threshold", "success_threshold", "enable_auto_reconnect",
      "check_mode", "reconnect_policy", "latency_thresholds" ] := rfl

theorem Settings.governs_bands (read : Numeral → Binary64) : Fields.Governs (fields read)
    "latency_thresholds" bands LatencyBands.ofJson? LatencyBands.ofToml? := by
  refine ⟨by rw [names_eq]; decide, by rw [names_eq]; decide, ?_, ?_⟩
  · simp only [fields, List.forall_mem_cons]
    refine ⟨?_, ?_, ?_, ?_, ?_, ?_, ?_, fun _ => Field.ofLens_sets fun _ _ => rfl, nofun⟩
    all_goals exact fun h => absurd h (of_decide_eq_false rfl)
  · simp only [fields, List.forall_mem_cons]
    refine ⟨?_, ?_, ?_, ?_, ?_, ?_, ?_, fun h => absurd rfl h, nofun⟩
    all_goals exact fun _ => Field.ofLens_spares fun _ _ => rfl

/-- Where thresholds come from: two numbers, the standard ones, or a text, in which they stand by themselves
or among the settings. -/
inductive LatencyBands.Origin where
  | numbers (fastMs elevatedMs : UInt64)
  | standard
  | json (text : String)
  | toml (text : String)
  | settingsJson (read : Numeral → Binary64) (text : String)
  | settingsToml (text : String)

namespace LatencyBands.Origin

def bands? : Origin → Option LatencyBands
  | numbers fastMs elevatedMs => some (.new fastMs elevatedMs)
  | standard => some .standard
  | json text => (Json.parse? text).bind LatencyBands.ofJson?
  | toml text => (Toml.parse? text).bind LatencyBands.ofToml?
  | settingsJson read text => ((Json.parse? text).bind (Settings.ofJson? read)).map Settings.bands
  | settingsToml text => (Settings.parseToml? text).map Settings.bands

def written? : Origin → Option LatencyBands
  | numbers _ _ => none
  | standard => none
  | json text => some (writtenInJson (Json.parse? text))
  | toml text => some (writtenInToml (Toml.parse? text))
  | settingsJson read text =>
    some (writtenInJson ((Json.parse? text).bind
      (·.given? ((Settings.fields read).map Field.name) "latency_thresholds")))
  | settingsToml text =>
    some (writtenInToml ((Toml.parse? text).bind
      (·.given? ((Settings.fields Numeral.toBinary64).map Field.name) "latency_thresholds")))

variable {origin : Origin} {b w : LatencyBands}

/-- A text is taken at its word. -/
theorem bands?_written (h : origin.bands? = some b) (hwritten : origin.written? = some w) : b = w := by
  cases origin with
  | numbers | standard => cases hwritten
  | json text =>
    obtain ⟨j, hparse, hread⟩ := Option.bind_eq_some_iff.mp h
    obtain rfl := Option.some.inj hwritten
    rw [hparse]
    exact eq_writtenInJson hread
  | toml text =>
    obtain ⟨t, hparse, hread⟩ := Option.bind_eq_some_iff.mp h
    obtain rfl := Option.some.inj hwritten
    rw [hparse]
    exact eq_writtenInToml hread
  | settingsJson read text =>
    obtain ⟨s, hsettings, rfl⟩ := Option.map_eq_some_iff.mp h
    obtain ⟨j, hparse, hread⟩ := Option.bind_eq_some_iff.mp hsettings
    obtain rfl := Option.some.inj hwritten
    rw [hparse]
    exact eq_writtenInJson ((Settings.governs_bands read).ofJson?_settles hread)
  | settingsToml text =>
    obtain ⟨s, hsettings, rfl⟩ := Option.map_eq_some_iff.mp h
    obtain ⟨t, hparse, hread⟩ := Option.bind_eq_some_iff.mp hsettings
    obtain rfl := Option.some.inj hwritten
    rw [hparse]
    exact eq_writtenInToml ((Settings.governs_bands _).ofToml?_settles hread)

theorem bands?_of_unwritten (h : origin.bands? = some b) (hunwritten : origin.written? = none) :
    b.fastMs ≤ b.elevatedMs := by
  cases origin with
  | numbers fastMs elevatedMs =>
    obtain rfl := Option.some.inj h
    exact ordered_new fastMs elevatedMs
  | standard =>
    obtain rfl := Option.some.inj h
    exact ordered_new 100 500
  | json | toml | settingsJson | settingsToml => cases hunwritten

theorem bands?_ordered_iff (h : origin.bands? = some b) :
    b.fastMs ≤ b.elevatedMs ↔ ∀ w ∈ origin.written?, w.fastMs ≤ w.elevatedMs := by
  cases hwritten : origin.written? with
  | none => exact iff_of_true (bands?_of_unwritten h hwritten) nofun
  | some w =>
    obtain rfl := bands?_written h hwritten
    exact ⟨fun hordered _ hmem => Option.some.inj hmem ▸ hordered, fun hall => hall b rfl⟩

/-- Acceptable means within the elevated threshold, unless the thresholds come from a text in which they are
out of order; then the fast threshold is the one that counts. The class never falls as the latency grows. -/
theorem acceptable_within_elevated (h : origin.bands? = some b) :
    ((∀ latency, (LatencyClass.classify latency b).isAcceptable = true ↔ latency ≤ b.elevated) ↔
      ∀ w ∈ origin.written?, w.fastMs ≤ w.elevatedMs) ∧
    (∀ latency, (LatencyClass.classify latency b).isAcceptable = true ↔
      latency ≤ b.fast ∨ latency ≤ b.elevated) ∧
    ∀ shorter longer : Duration, shorter ≤ longer →
      (LatencyClass.classify shorter b).rank ≤ (LatencyClass.classify longer b).rank := by
  refine ⟨?_, fun _ => LatencyClass.isAcceptable_classify, fun _ _ => LatencyClass.rank_classify_mono⟩
  rw [acceptable_elevated_iff, bands?_ordered_iff h]

/-- Settings that lower the elevated threshold to the standard fast one. -/
def lowered : Origin := .settingsToml "[latency_thresholds]\nelevated_ms = 100\n"

/-- A fast threshold above the standard elevated one, which is left out. -/
def crossed : Origin := .json "\x7b\"fast_ms\":1000\x7d"

theorem acceptable_within_elevated_partial :
    lowered.bands? = some ⟨100, 100⟩ ∧
    (∀ latency, (LatencyClass.classify latency ⟨100, 100⟩).isAcceptable = true ↔
      latency ≤ elevated ⟨100, 100⟩) ∧
    crossed.bands? = some ⟨1000, 500⟩ ∧
    (LatencyClass.classify (.ofMillis 1000) ⟨1000, 500⟩).isAcceptable = true ∧
    (LatencyClass.classify (.ofMillis 700) ⟨1000, 500⟩).rank ≤
      (LatencyClass.classify (.ofMillis 1001) ⟨1000, 500⟩).rank := by
  have hlowered : lowered.bands? = some ⟨100, 100⟩ := by decide +kernel
  have hwritten : lowered.written? = some ⟨100, 100⟩ := by decide +kernel
  have hcrossed : crossed.bands? = some ⟨1000, 500⟩ := by decide +kernel
  obtain ⟨hwithin, -, -⟩ := acceptable_within_elevated hlowered
  obtain ⟨-, hacceptable, hgrows⟩ := acceptable_within_elevated hcrossed
  refine ⟨hlowered, hwithin.mpr ?_, hcrossed, (hacceptable _).mpr (.inl ?_), hgrows _ _ ?_⟩
  · intro w hw
    obtain rfl := Option.some.inj (hwritten.symm.trans hw)
    exact UInt64.le_refl 100
  · exact Nat.le_refl _
  · decide

/-- Thresholds from a document may be out of order, and then a latency between them is acceptable. -/
theorem acceptable_beyond_elevated : ¬ ∀ (origin : Origin) (b : LatencyBands), origin.bands? = some b →
    (∀ latency, (LatencyClass.classify latency b).isAcceptable = true ↔ latency ≤ b.elevated) ∧
    ∀ shorter longer : Duration, shorter ≤ longer →
      (LatencyClass.classify shorter b).rank ≤ (LatencyClass.classify longer b).rank := by
  intro hall
  have hcrossed : crossed.bands? = some ⟨1000, 500⟩ := by decide +kernel
  obtain ⟨hwithin, -⟩ := hall crossed ⟨1000, 500⟩ hcrossed
  have hacceptable : (LatencyClass.classify (.ofMillis 700) ⟨1000, 500⟩).isAcceptable = true := by decide
  exact absurd ((hwithin (.ofMillis 700)).mp hacceptable) (by decide)

end LatencyBands.Origin

end Liveness
