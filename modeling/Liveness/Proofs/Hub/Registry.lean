import Liveness.Proofs.Hub.FanOut
import Mathlib.Data.List.Infix
import Mathlib.Data.List.Range
/-!
# The registry and its past

Handlers come and go by registrations and removals, which are asked for from outside or by other
handlers in the middle of a dispatch. At every moment the entries of a hub are the registrations
that no removal after them has named, and the answer to a removal tells whether there was one.
-/
namespace Liveness

variable {σ : Type}

inductive Change where
  | registered (id : HandlerId) (handler : Handler)
  | unregistered (id : HandlerId) (found : Bool)

namespace Change

def entry? : Change → Option (HandlerId × Handler)
  | .registered id handler => some (id, handler)
  | .unregistered .. => none

def names (id : HandlerId) : Change → Bool
  | .registered .. => false
  | .unregistered target _ => target = id

def removed? : Change → Option HandlerId
  | .unregistered id true => some id
  | _ => none

def told : Change → HandlerId × Option Bool
  | .registered id _ => (id, none)
  | .unregistered id found => (id, some found)

end Change

def granted (changes : List Change) : List HandlerId := (changes.filterMap Change.entry?).map (·.1)

def removed (changes : List Change) : List HandlerId := changes.filterMap Change.removed?

/-- The registrations in order, without those that a later removal names. -/
def surviving : List Change → List (HandlerId × Handler)
  | [] => []
  | .registered id handler :: later =>
    if later.any (Change.names id) then surviving later else (id, handler) :: surviving later
  | .unregistered .. :: later => surviving later

section Changes

variable (changes : List Change) (id : HandlerId) (handler : Handler) (found : Bool)

theorem granted_append (more : List Change) :
    granted (changes ++ more) = granted changes ++ granted more := by
  simp [granted]

theorem granted_registered :
    granted (changes ++ [.registered id handler]) = granted changes ++ [id] := by
  simp [granted, Change.entry?]

theorem granted_unregistered :
    granted (changes ++ [.unregistered id found]) = granted changes := by
  simp [granted, Change.entry?]

theorem removed_registered :
    removed (changes ++ [.registered id handler]) = removed changes := by
  simp [removed, Change.removed?]

theorem removed_unregistered :
    removed (changes ++ [.unregistered id found]) =
      removed changes ++ if found then [id] else [] := by
  cases found <;> simp [removed, Change.removed?]

theorem surviving_registered :
    surviving (changes ++ [.registered id handler]) = surviving changes ++ [(id, handler)] := by
  induction changes with
  | nil => rfl
  | cons c changes ih =>
    cases c with
    | unregistered target found => exact ih
    | registered id' handler' =>
      have hnames : (changes ++ [Change.registered id handler]).any (Change.names id') =
          changes.any (Change.names id') := by
        simp [Change.names]
      simp only [List.cons_append, surviving, hnames, ih]
      split <;> rfl

theorem surviving_unregistered :
    surviving (changes ++ [.unregistered id found]) = (surviving changes).filter (·.1 ≠ id) := by
  induction changes with
  | nil => rfl
  | cons c changes ih =>
    cases c with
    | unregistered target found' => exact ih
    | registered id' handler' =>
      have hnames : (changes ++ [Change.unregistered id found]).any (Change.names id') =
          (changes.any (Change.names id') || decide (id = id')) := by
        simp [Change.names]
      simp only [List.cons_append, surviving, hnames, ih]
      by_cases hlater : changes.any (Change.names id') = true
      · simp [hlater]
      · by_cases hid : id = id'
        · simp [hlater, hid]
        · simp [hlater, hid, Ne.symm hid]

theorem surviving_sublist : (surviving changes).Sublist (changes.filterMap Change.entry?) := by
  induction changes with
  | nil => exact .slnil
  | cons c changes ih =>
    cases c with
    | unregistered target found => exact ih
    | registered id handler =>
      simp only [surviving, List.filterMap_cons, Change.entry?]
      split
      · exact ih.cons _
      · exact ih.cons_cons _

end Changes

namespace Hub

variable {hub hub' : Hub} {id : HandlerId}

theorem unregister_found_iff : (hub.unregister id).2 = true ↔ id ∈ hub.ids := by
  have hall : (hub.entries.filter (·.1 ≠ id)).length = hub.entries.length ↔ id ∉ hub.ids := by
    rw [List.length_filter_eq_length_iff]
    simp only [ids, List.mem_map, decide_eq_true_eq]
    constructor
    · rintro h ⟨entry, hentry, hid⟩
      exact h entry hentry hid
    · intro h entry hentry hid
      exact h ⟨entry, hentry, hid⟩
  simp only [unregister, decide_eq_true_eq, ne_eq, hall, not_not]

theorem unregister_unknown (h : id ∉ hub.ids) : (hub.unregister id).1 = hub := by
  have hkept : hub.entries.filter (·.1 ≠ id) = hub.entries := by
    rw [List.filter_eq_self]
    intro entry hentry
    rw [decide_eq_true_eq]
    rintro rfl
    exact h (List.mem_map_of_mem hentry)
  simp only [unregister, hkept]

theorem unregister_known (ho : hub.Ordered) (h : id ∈ hub.ids) :
    ∃ before handler after, hub.entries = before ++ (id, handler) :: after ∧
      (hub.unregister id).1.entries = before ++ after := by
  obtain ⟨⟨target, handler⟩, hentry, hid⟩ := List.mem_map.mp h
  change target = id at hid
  subst hid
  obtain ⟨before, after, hsplit⟩ := List.append_of_mem hentry
  have hinc := ho.increasing
  simp only [ids, hsplit, List.map_append, List.map_cons, List.pairwise_append,
    List.pairwise_cons, List.mem_cons, List.mem_map] at hinc
  obtain ⟨-, ⟨hafter, -⟩, hbefore⟩ := hinc
  have hothers : ∀ entry ∈ before ++ after, decide (entry.1 ≠ target) = true := by
    intro entry hentry
    rw [decide_eq_true_eq]
    rcases List.mem_append.mp hentry with hentry | hentry
    · exact Nat.ne_of_lt (hbefore _ ⟨entry, hentry, rfl⟩ _ (Or.inl rfl))
    · exact Nat.ne_of_gt (hafter _ ⟨entry, hentry, rfl⟩)
  refine ⟨before, handler, after, hsplit, ?_⟩
  have hkept := List.filter_eq_self.mpr hothers
  simpa [unregister, hsplit] using hkept

/-- The hub after all changes that have been asked of it since it was empty, by whomever. What
handlers keep in their cells is no change. -/
inductive Past : List Change → Hub → Prop where
  | empty (levels : Nat) : Past [] (empty levels)
  | register {changes hub} (handler : Handler) : Past changes hub →
      Past (changes ++ [.registered (hub.register handler).2 handler]) (hub.register handler).1
  | unregister {changes hub} (id : HandlerId) : Past changes hub →
      Past (changes ++ [.unregistered id (hub.unregister id).2]) (hub.unregister id).1
  | store {changes hub} (cell value : Nat) : Past changes hub → Past changes (hub.store cell value)

/-- How a registry stands to the changes behind it. Ids count the registrations from one on. -/
structure Records (hub : Hub) (changes : List Change) : Prop where
  ordered : hub.Ordered
  entries : hub.entries = surviving changes
  next : hub.nextId = (granted changes).length + 1
  granted : granted changes = List.range' 1 (granted changes).length
  removed : (removed changes).Nodup
  gone : ∀ id ∈ Liveness.removed changes, id ∈ Liveness.granted changes ∧ id ∉ hub.ids

namespace Records

variable {changes : List Change}

theorem mem_granted_iff (h : hub.Records changes) :
    id ∈ Liveness.granted changes ↔ 0 < id ∧ id < hub.nextId := by
  rw [h.granted, List.mem_range'_1, h.next, Nat.add_comm 1]
  exact Iff.rfl

theorem mem_granted (h : hub.Records changes) (hid : id ∈ hub.ids) :
    id ∈ Liveness.granted changes := by
  have hsub : hub.ids.Sublist (Liveness.granted changes) := by
    rw [ids, h.entries]
    exact (surviving_sublist changes).map _
  exact hsub.subset hid

theorem register (h : hub.Records changes) (handler : Handler) :
    (hub.register handler).1.Records
      (changes ++ [.registered (hub.register handler).2 handler]) := by
  have hgranted := granted_registered changes (hub.register handler).2 handler
  have hremoved := removed_registered changes (hub.register handler).2 handler
  constructor
  · exact h.ordered.register handler
  · rw [surviving_registered, ← h.entries]
    rfl
  · rw [hgranted, List.length_append]
    exact congrArg (· + 1) h.next
  · rw [hgranted, List.length_append, List.length_singleton, List.range'_concat, ← h.granted]
    rw [Nat.one_mul, Nat.add_comm 1, ← h.next]
    rfl
  · rw [hremoved]
    exact h.removed
  · rw [hremoved]
    intro id hid
    obtain ⟨hgiven, hgone⟩ := h.gone id hid
    have hold := (h.mem_granted_iff.mp hgiven).2
    constructor
    · rw [hgranted]
      exact List.mem_append_left _ hgiven
    · -- the id that is given out now is a new one
      intro hin
      simp only [Hub.register, ids, List.map_append, List.mem_append, List.map_cons,
        List.map_nil, List.mem_singleton] at hin
      rcases hin with hin | rfl
      · exact hgone hin
      · exact Nat.lt_irrefl _ hold

theorem unregister (h : hub.Records changes) (id : HandlerId) :
    (hub.unregister id).1.Records (changes ++ [.unregistered id (hub.unregister id).2]) := by
  have hgranted := granted_unregistered changes id (hub.unregister id).2
  have hremoved := removed_unregistered changes id (hub.unregister id).2
  have hids : ∀ kept ∈ (hub.unregister id).1.ids, kept ∈ hub.ids ∧ kept ≠ id := by
    intro kept hkept
    obtain ⟨entry, hentry, rfl⟩ := List.mem_map.mp hkept
    obtain ⟨hentry, hne⟩ := List.mem_filter.mp hentry
    exact ⟨List.mem_map_of_mem hentry, of_decide_eq_true hne⟩
  constructor
  · exact h.ordered.unregister id
  · rw [surviving_unregistered, ← h.entries]
    rfl
  · rw [hgranted]
    exact h.next
  · rw [hgranted]
    exact h.granted
  · rw [hremoved]
    split
    · rename_i hfound
      refine List.nodup_append.mpr ⟨h.removed, by simp, ?_⟩
      intro gone hgone target htarget
      rw [List.mem_singleton.mp htarget]
      rintro rfl
      exact (h.gone gone hgone).2 (unregister_found_iff.mp hfound)
    · rw [List.append_nil]
      exact h.removed
  · rw [hgranted, hremoved]
    intro gone hgone
    rcases List.mem_append.mp hgone with hgone | hgone
    · obtain ⟨hgiven, hout⟩ := h.gone gone hgone
      exact ⟨hgiven, fun hin => hout (hids gone hin).1⟩
    · split at hgone
      · rename_i hfound
        rw [List.mem_singleton.mp hgone]
        exact ⟨h.mem_granted (unregister_found_iff.mp hfound), fun hin => (hids id hin).2 rfl⟩
      · cases hgone

theorem store (h : hub.Records changes) (cell value : Nat) :
    (hub.store cell value).Records changes :=
  ⟨⟨h.ordered.increasing, h.ordered.below⟩, h.entries, h.next, h.granted, h.removed, h.gone⟩

theorem empty (levels : Nat) : (Hub.empty levels).Records [] :=
  ⟨⟨List.Pairwise.nil, nofun⟩, rfl, rfl, rfl, List.nodup_nil, nofun⟩

end Records

variable {changes : List Change}

theorem Past.records (h : Past changes hub) : hub.Records changes := by
  induction h with
  | empty levels => exact .empty levels
  | register handler _ ih => exact ih.register handler
  | unregister id _ ih => exact ih.unregister id
  | store cell value _ ih => exact ih.store cell value

theorem Past.before (h : Past changes hub) {before : List Change} (hb : before <+: changes) :
    ∃ mid, Past before mid := by
  induction h with
  | empty levels =>
    rw [List.prefix_nil.mp hb]
    exact ⟨_, .empty levels⟩
  | register handler hp ih =>
    rcases List.prefix_concat_iff.mp hb with rfl | hb
    · exact ⟨_, .register handler hp⟩
    · exact ih hb
  | unregister id hp ih =>
    rcases List.prefix_concat_iff.mp hb with rfl | hb
    · exact ⟨_, .unregister id hp⟩
    · exact ih hb
  | store cell value _ ih => exact ih hb

/-- A removal was answered by the hub as it was then, and since then only cells can have changed. -/
theorem Past.answered {found : Bool} (h : Past (changes ++ [.unregistered id found]) hub) :
    ∃ mid, Past changes mid ∧ found = (mid.unregister id).2 ∧
      hub.entries = (mid.unregister id).1.entries ∧ hub.nextId = mid.nextId := by
  generalize hall : changes ++ [Change.unregistered id found] = all at h
  induction h with
  | empty levels => simp at hall
  | register handler hp =>
    have hlast := (List.append_inj' hall rfl).2
    cases hlast
  | @unregister changes' mid id' hp =>
    obtain ⟨rfl, hlast⟩ := List.append_inj' hall rfl
    cases hlast
    exact ⟨mid, hp, rfl, rfl, rfl⟩
  | store cell value _ ih => exact ih hall

end Hub

namespace Occurrence

mutual

/-- What an occurrence tells of changes: a removal of an id that was never given finds nothing. -/
def changes : Occurrence σ → List (HandlerId × Option Bool)
  | .delivered _ _ _ _ _ inside => allChanges inside
  | .registered id => [(id, none)]
  | .unregistered _ id found => [(id, some (found.getD false))]
  | .emitted _ deliveries => allChanges deliveries
  | .panicked .. => []

def allChanges : List (Occurrence σ) → List (HandlerId × Option Bool)
  | [] => []
  | o :: rest => o.changes ++ allChanges rest

end

end Occurrence

namespace Hub

variable {hub hub' : Hub} {changes : List Change}

theorem Records.answer (h : hub.Records changes) (id : HandlerId) :
    (if hub.issued id then some (hub.unregister id).2 else none).getD false =
      (hub.unregister id).2 := by
  by_cases hissued : hub.issued id = true
  · rw [if_pos hissued]
    rfl
  · rw [if_neg hissued]
    have hout : id ∉ hub.ids := by
      intro hin
      have hbetween := h.mem_granted_iff.mp (h.mem_granted hin)
      exact hissued (decide_eq_true hbetween)
    exact (Bool.eq_false_iff.mpr (mt unregister_found_iff.mp hout)).symm

/-- However a hub goes through a job, it only adds to its past, and the log tells what. -/
theorem Goes.past {reset : σ → σ} {job : Job} {x x' : σ} {log : List (Occurrence σ)}
    (h : Goes reset job hub x log hub' x') (hp : Past changes hub) :
    ∃ more, Past (changes ++ more) hub' ∧ more.map Change.told = Occurrence.allChanges log := by
  induction h generalizing changes with
  | delivered | done | panics =>
    refine ⟨[], ?_, rfl⟩
    rw [List.append_nil]
    exact hp
  | delivers _ _ ihinside ihrest | emits _ _ ihinside ihrest =>
    obtain ⟨inside, hinside, htold⟩ := ihinside hp
    obtain ⟨rest, hrest, htold'⟩ := ihrest hinside
    rw [List.append_assoc] at hrest
    refine ⟨inside ++ rest, hrest, ?_⟩
    rw [List.map_append, htold, htold']
    rfl
  | registers _ ih =>
    obtain ⟨more, hmore, htold⟩ := ih (hp.register _)
    rw [List.append_assoc] at hmore
    refine ⟨_, hmore, ?_⟩
    rw [List.map_append, htold]
    rfl
  | @unregisters _ _ _ target _ _ _ _ _ _ _ ih =>
    obtain ⟨more, hmore, htold⟩ := ih (hp.unregister target)
    rw [List.append_assoc] at hmore
    refine ⟨_, hmore, ?_⟩
    simp only [List.map_append, htold, Occurrence.allChanges, Occurrence.changes,
      hp.records.answer target]
    rfl
  | stores _ ih => exact ih (hp.store _ _)
  | counts _ ih | loads _ ih | resets _ ih => exact ih hp

/-- Whoever uses a hub from outside does what a handler can do as well. -/
def serve (reset : σ → σ) (levels : Nat) (requests : Reaction) (x : σ) : Option (Dispatch σ) :=
  Dispatch.act reset (Hub.emit reset levels) 0 "" .healthy requests ⟨.empty levels, x, []⟩

structure Drops (hub : Hub) (id : HandlerId) (hub' : Hub) : Prop where
  known : id ∈ hub.ids → ∃ before handler after,
    hub.entries = before ++ (id, handler) :: after ∧ hub'.entries = before ++ after
  unknown : id ∉ hub.ids → hub'.entries = hub.entries
  next : hub'.nextId = hub.nextId

theorem Records.drops (h : hub.Records changes) (id : HandlerId) :
    hub.Drops id (hub.unregister id).1 := by
  refine ⟨unregister_known h.ordered, ?_, rfl⟩
  intro hout
  rw [unregister_unknown hout]

theorem serve_past {reset : σ → σ} {levels : Nat} {requests : Reaction} {x : σ}
    {d : Dispatch σ} (h : serve reset levels requests x = some d) :
    ∃ changes, Past changes d.hub ∧ changes.map Change.told = Occurrence.allChanges d.log := by
  obtain ⟨log, hlog, hgoes⟩ := Dispatch.act_goes (fun _ _ _ _ he => emit_goes he) h
  obtain ⟨changes, hpast, htold⟩ := hgoes.past (.empty levels)
  rw [hlog]
  exact ⟨changes, hpast, htold⟩

theorem serve_result (reset : σ → σ) {levels : Nat} {requests : Reaction} {rank : Event → Nat}
    {bound : Nat} (h : requests.Descends rank bound) (hl : bound ≤ levels) (x : σ) :
    ∃ d, serve reset levels requests x = some d := by
  have hemit : ∀ e hub (x : σ), rank e < bound → hub.Descends rank →
      ∃ d, Hub.emit reset levels e hub x = some d ∧ d.hub.Descends rank :=
    fun e hub x he hd => emit_result reset (Nat.lt_of_lt_of_le he hl) hd x
  obtain ⟨d, hd, -⟩ := Dispatch.act_result reset hemit 0 "" .healthy
    (d := ⟨.empty levels, x, []⟩) h (.empty rank levels)
  exact ⟨d, hd⟩

/-- Whatever is asked of a hub, from outside or by its handlers while they are called, at every
moment its entries are the registrations so far that no later removal has named, under ids that
grow and are given once. A removal is answered with yes exactly if the id is registered then, takes
out that entry alone, and the id is never given again. All requests are served unless handlers emit
in circles, as handlers that only register and unregister do not. -/
theorem serve_records (reset : σ → σ) (levels : Nat) (requests : Reaction) (x : σ) :
    (∀ rank bound, requests.Descends rank bound → bound ≤ levels →
      ∃ d, serve reset levels requests x = some d) ∧
    ∀ d, serve reset levels requests x = some d →
      ∃ changes, changes.map Change.told = Occurrence.allChanges d.log ∧
        Past changes d.hub ∧ d.hub.Records changes ∧
        (∀ before after, changes = before ++ after →
          ∃ hub, Past before hub ∧ hub.Records before) ∧
        ∀ before id found after, changes = before ++ .unregistered id found :: after →
          ∃ hub hub', Past before hub ∧ Past (before ++ [.unregistered id found]) hub' ∧
            (found = true ↔ id ∈ hub.ids) ∧ hub.Drops id hub' ∧
            (found = true → id ∉ granted after) := by
  refine ⟨fun rank bound h hl => serve_result reset h hl x, ?_⟩
  intro d h
  obtain ⟨changes, hpast, htold⟩ := serve_past h
  refine ⟨changes, htold, hpast, hpast.records, ?_, ?_⟩
  · rintro before after rfl
    obtain ⟨hub, hbefore⟩ := hpast.before (List.prefix_append before after)
    exact ⟨hub, hbefore, hbefore.records⟩
  · rintro before id found after rfl
    have hprefix : before ++ [.unregistered id found] <+:
        before ++ .unregistered id found :: after := ⟨after, by simp⟩
    obtain ⟨hub', hthen⟩ := hpast.before hprefix
    obtain ⟨hub, hbefore, rfl, hentries, hnext⟩ := hthen.answered
    have hdrops := hbefore.records.drops id
    refine ⟨hub, hub', hbefore, hthen, unregister_found_iff,
      ⟨fun hin => hentries ▸ hdrops.known hin, fun hout => hentries ▸ hdrops.unknown hout, hnext⟩,
      ?_⟩
    intro hfound hagain
    have hgiven := hbefore.records.mem_granted (unregister_found_iff.mp hfound)
    have honce : (granted (before ++ .unregistered id (hub.unregister id).2 :: after)).Nodup := by
      rw [hpast.records.granted]
      exact List.nodup_range'
    rw [granted_append] at honce
    exact (List.nodup_append.mp honce).2.2 id hgiven id hagain rfl

/-- The first handler unregisters itself and an id that is not there yet, and registers another,
whose id is kept. -/
def restless : Reaction :=
  .register "restless" false (fun e => if e.kind = .healthy then
      .unregister 1 fun _ => .unregister 9 fun _ => .register "late" false (fun _ => .done)
        fun new => .store 0 new .done
    else .done) fun _ =>
  .register "steady" false (fun _ => .done) fun steady => .unregister 3 fun _ =>
  .emit (.healthy "pg") <| .emit (.healthy "pg") <| .unregister steady fun _ =>
  .unregister steady fun _ => .load 0 fun kept => .unregister kept fun _ => .done

theorem restless_descends : restless.Descends (fun _ => 0) 1 := by
  refine .register ?_ fun _ => .register (fun _ => .done) fun _ => .unregister fun _ =>
    .emit Nat.zero_lt_one <| .emit Nat.zero_lt_one <| .unregister fun _ => .unregister fun _ =>
    .load fun _ => .unregister fun _ => .done
  intro e
  split
  · exact .unregister fun _ => .unregister fun _ => .register (fun _ => .done) fun _ =>
      .store .done
  · exact .done

theorem serve_records_restless : ∃ (d : Dispatch Unit) (changes : List Change),
    serve id 1 restless () = some d ∧ d.hub.ids = [] ∧
    changes.map Change.told = [(1, none), (2, none), (3, some false), (1, some true),
      (9, some false), (3, none), (2, some true), (2, some false), (3, some true)] ∧
    Past changes d.hub ∧ d.hub.Records changes := by
  obtain ⟨hresult, hrecords⟩ := serve_records id 1 restless ()
  obtain ⟨d, hd⟩ := hresult _ 1 restless_descends (Nat.le_refl 1)
  have hs : (serve id 1 restless ()).map (fun d => (d.hub.ids, Occurrence.allChanges d.log)) =
      some ([], [(1, none), (2, none), (3, some false), (1, some true), (9, some false),
        (3, none), (2, some true), (2, some false), (3, some true)]) := by
    decide +kernel
  rw [hd] at hs
  obtain ⟨hids, hlog⟩ := Prod.mk.inj (Option.some.inj hs)
  obtain ⟨changes, htold, hpast, hrecord, -⟩ := hrecords d hd
  exact ⟨d, changes, hd, hids, htold.trans hlog, hpast, hrecord⟩

end Hub

end Liveness
