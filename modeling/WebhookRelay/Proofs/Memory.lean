import WebhookRelay.Proofs.Rejections

/-!
# Stores in memory

Stores in memory refuse no call, keep audit records in memory and never mark a key twice.
They stay so whatever the pipeline does, in whatever order.  In a store of marks without
double entries, a key is live exactly if it outlives a purge, so looking a key up and marking
it unless it is live agree on what is live.
-/

set_option autoImplicit false

namespace WebhookRelay

/-! ## Live keys -/

namespace ExpiringSet

variable {set : ExpiringSet} {key other : String} {now expiresAt : Instant} {ttl : Duration}

def Unique (set : ExpiringSet) : Prop :=
  (set.entries.map Prod.fst).Nodup

theorem Unique.of_sublist (unique : set.Unique) {entries : List (String × Instant)}
    (sublist : entries.Sublist set.entries) : Unique ⟨entries⟩ :=
  List.Nodup.sublist (sublist.map Prod.fst) unique

theorem Unique.purge (unique : set.Unique) (now : Instant) : (set.purge now).Unique :=
  unique.of_sublist List.filter_sublist

theorem Unique.erase (unique : set.Unique) (key : String) : (set.erase key).Unique :=
  unique.of_sublist List.filter_sublist

theorem Unique.put (unique : set.Unique) (key : String) (expiresAt : Instant) :
    (set.put key expiresAt).Unique := by
  have others : (set.erase key).Unique := unique.erase key
  have absent : key ∉ (set.erase key).entries.map Prod.fst := by
    intro member
    obtain ⟨entry, kept, same⟩ := List.mem_map.mp member
    have different := (List.mem_filter.mp kept).2
    simp [same] at different
  exact List.nodup_cons.mpr ⟨absent, others⟩

theorem Unique.expiry? (unique : set.Unique) (member : (key, expiresAt) ∈ set.entries) :
    set.expiry? key = some expiresAt := by
  cases found : set.entries.find? fun entry => entry.1 = key with
  | none =>
      have nothing := List.find?_eq_none.mp found (key, expiresAt) member
      simp at nothing
  | some entry =>
      have same : entry.1 = key := by simpa using List.find?_some found
      have isEntry : entry = (key, expiresAt) :=
        List.inj_on_of_nodup_map unique (List.mem_of_find?_eq_some found) member same
      rw [ExpiringSet.expiry?, found, isEntry]
      rfl

theorem has_purge : (set.purge now).Has key ↔
    ∃ expiresAt, (key, expiresAt) ∈ set.entries ∧ now < expiresAt := by
  constructor
  · rintro ⟨⟨_, expiresAt⟩, member, rfl⟩
    obtain ⟨stored, live⟩ := List.mem_filter.mp member
    exact ⟨expiresAt, stored, of_decide_eq_true live⟩
  · rintro ⟨expiresAt, stored, live⟩
    exact ⟨(key, expiresAt), List.mem_filter.mpr ⟨stored, decide_eq_true live⟩, rfl⟩

theorem Unique.contains_iff (unique : set.Unique) :
    set.contains now key = true ↔ (set.purge now).Has key := by
  constructor
  · exact live_of_contains
  · intro live
    obtain ⟨expiresAt, stored, live⟩ := has_purge.mp live
    rw [contains, unique.expiry? stored]
    exact decide_eq_true live

theorem insertIfAbsent?_live (live : (set.purge now).Has key) :
    set.insertIfAbsent? now key ttl = some (false, set.purge now) := by
  unfold insertIfAbsent?
  dsimp only
  split
  · rfl
  · rename_i absent
    obtain ⟨entry, member, same⟩ := live
    rw [ExpiringSet.expiry?, Option.map_eq_none_iff] at absent
    have nothing := List.find?_eq_none.mp absent entry member
    simp [same] at nothing

theorem insertIfAbsent?_absent (absent : ¬(set.purge now).Has key) :
    set.insertIfAbsent? now key ttl =
      (now.plus? ttl).map fun expiresAt => (true, (set.purge now).put key expiresAt) := by
  unfold insertIfAbsent?
  dsimp only
  split
  · rename_i found
    exact absurd (has_of_expiry? found) absent
  · rfl

end ExpiringSet

theorem World.Reliable.tryMark_beyond {world : World} {marks : Marks} {key : String}
    {ttl : Duration} (reliable : world.Reliable)
    (absent : ¬((world.marks marks).purge world.clock).Has key)
    (beyond : world.clock.plus? ttl = none) :
    world.perform (.tryMark marks key ttl) = none := by
  rw [reliable.tryMark, World.tryMarkKey, ExpiringSet.insertIfAbsent?_absent absent, beyond]
  rfl

/-! ## Stores in memory -/

/-- No call is refused, records are kept in memory, and no key is marked twice: so it is
where nothing is stored yet, and so it stays. -/
structure World.Regular (world : World) : Prop where
  reliable : world.Reliable
  works : world.audit.Works
  unique : ∀ marks, (world.marks marks).Unique

def Circumstance.Mild : Circumstance → Prop
  | .refuse _ _ => False
  | .audit trail => trail.Works
  | _ => True

def Move.Mild : Move → Prop
  | .change circumstance => circumstance.Mild
  | _ => True

namespace World.Regular

variable {world after : World}

theorem of_empty (reliable : world.Reliable) (works : world.audit.Works)
    (unmarked : ∀ marks, (world.marks marks).entries = []) : world.Regular where
  reliable := reliable
  works := works
  unique marks := by simp [ExpiringSet.Unique, unmarked marks]

theorem perform_works (regular : world.Regular) {request : Call} {answer : request.Answer}
    (performed : world.perform request = some (answer, after)) : after.audit.Works := by
  cases audits : request.audits with
  | false =>
      rw [perform_audit audits performed]
      exact regular.works
  | true =>
      cases request with
      | createAudit record =>
          obtain ⟨trail, created, _, works⟩ := regular.works.create_eq record
          have written := Receiver.perform_createAudit performed
          obtain ⟨_, rfl⟩ := Prod.mk.inj (written.trans created)
          exact works
      | _ => cases audits

theorem perform_unique (regular : world.Regular) {request : Call} {answer : request.Answer}
    (performed : world.perform request = some (answer, after)) (marks : Marks) :
    (after.marks marks).Unique := by
  cases touches : request.touches marks with
  | false =>
      rw [(perform_unmarked touches performed).same]
      exact regular.unique marks
  | true =>
      have unique := regular.unique marks
      cases request with
      | mark own key ttl =>
          obtain rfl : own = marks := of_decide_eq_true touches
          rw [perform, regular.reliable.unlessRefused] at performed
          obtain ⟨set, inserted, same⟩ := Option.map_eq_some_iff.mp performed
          cases same
          rw [setMarks_marks, (ExpiringSet.insert?_eq_some inserted).2]
          exact (unique.purge _).put ..
      | tryMark own key ttl =>
          obtain rfl : own = marks := of_decide_eq_true touches
          rw [regular.reliable.tryMark] at performed
          obtain ⟨⟨fresh, set⟩, inserted, same⟩ := Option.map_eq_some_iff.mp performed
          cases same
          rw [setMarks_marks]
          cases fresh with
          | false =>
              rw [(ExpiringSet.insertIfAbsent?_known inserted).1]
              exact unique.purge _
          | true =>
              obtain ⟨_, put⟩ := ExpiringSet.insertIfAbsent?_fresh inserted
              rw [(ExpiringSet.insert?_eq_some put).2]
              exact (unique.purge _).put ..
      | unmark own key =>
          obtain rfl : own = marks := of_decide_eq_true touches
          rw [perform, regular.reliable.unlessRefused] at performed
          cases performed
          rw [setMarks_marks]
          exact unique.erase key
      | _ => cases touches

theorem performed (regular : world.Regular) {request : Call} {answer : request.Answer}
    (performed : world.perform request = some (answer, after)) : after.Regular where
  reliable := regular.reliable.performed performed
  works := regular.perform_works performed
  unique := regular.perform_unique performed

theorem under (regular : world.Regular) {circumstance : Circumstance}
    (mild : circumstance.Mild) : (world.under circumstance).Regular where
  reliable := by
    apply regular.reliable.under
    cases circumstance with
    | refuse site plan => exact mild
    | _ => exact trivial
  works := by
    cases circumstance with
    | audit trail => exact mild
    | _ => exact regular.works
  unique marks := by
    rw [under_marks]
    exact regular.unique marks

/-- Whatever the pipeline does, and in whatever order, stores in memory stay as they are. -/
theorem play {pipeline : Pipeline} {moves : List Move} (regular : world.Regular)
    (mild : ∀ next ∈ moves, next.Mild) {scene : Scene}
    (played : (Scene.opening world).play pipeline moves = some scene) : scene.world.Regular := by
  apply Scene.play_preserves (fun scene => scene.world.Regular) _ regular played
  intro next member before after kept moved
  have isMild := mild next member
  obtain ⟨task, rfl, rfl⟩ | ⟨who, task, request, rest, answer, last, rfl, _, performed, rfl⟩ |
    ⟨circumstance, rfl, rfl⟩ := Scene.move_cases moved
  · exact kept
  · exact kept.performed performed
  · exact kept.under isMild

end World.Regular

end WebhookRelay
