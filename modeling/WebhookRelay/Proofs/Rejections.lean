import WebhookRelay.Proofs.Chronicle
import WebhookRelay.Proofs.Endings

/-!
# What a rejection leaves behind

A request that is not verified, or whose body is a replay, is recorded in the audit trail,
and nothing else is.  A request that is turned away leaves the events, the jobs and the
live fingerprints as they were.  If the record cannot be written, the sender is told so in
place of the reason, and still nothing has changed.
-/

set_option autoImplicit false

namespace WebhookRelay

/-! ## Calls that write no audit record -/

def Call.audits : Call → Bool
  | .createAudit _ => true
  | _ => false

abbrev Call.Silent (request : Call) : Prop :=
  request.audits = false

namespace World

variable {world after : World}

theorem perform_audit {request : Call} {answer : request.Answer} (silent : request.Silent)
    (performed : world.perform request = some (answer, after)) : after.audit = world.audit := by
  have differs := perform_differs performed
  cases request with
  | createAudit record => cases silent
  | _ => exact differs.audit (by simp [Call.part?])

end World

namespace Program

variable {α β : Type} {world last : World} {calls : List Answered}

theorem record_audit {program : Program α} {value : α}
    (recorded : program.record world = some (value, calls, last))
    (silent : ∀ made ∈ calls, made.request.Silent) : last.audit = world.audit := by
  induction program generalizing world calls with
  | done result =>
      cases recorded
      rfl
  | call request next ih =>
      obtain ⟨answer, middle, later, performed, goesOn, rfl⟩ :=
        record_call_eq_some.mp recorded
      have first := World.perform_audit (silent _ List.mem_cons_self) performed
      have rest := ih answer goesOn fun made member => silent made (List.mem_cons_of_mem _ member)
      exact rest.trans first

/-- However its calls are answered, the program makes calls of one kind only and ends as
promised. -/
def Keeps (kind : Call → Prop) (promise : α → Prop) : Program α → Prop
  | .done value => promise value
  | .call request next => kind request ∧ ∀ answer, (next answer).Keeps kind promise

theorem Keeps.record {kind : Call → Prop} {promise : α → Prop} {program : Program α}
    (keeps : program.Keeps kind promise) {value : α}
    (recorded : program.record world = some (value, calls, last)) :
    promise value ∧ ∀ made ∈ calls, kind made.request := by
  induction program generalizing world calls with
  | done result =>
      cases recorded
      refine ⟨keeps, ?_⟩
      intro made member
      cases member
  | call request next ih =>
      obtain ⟨answer, middle, later, _, goesOn, rfl⟩ := record_call_eq_some.mp recorded
      obtain ⟨promised, rest⟩ := ih answer (keeps.2 answer) goesOn
      refine ⟨promised, ?_⟩
      intro made member
      rcases List.mem_cons.mp member with rfl | after
      · exact keeps.1
      · exact rest made after

end Program

/-! ## What a request leaves as it is -/

theorem ExpiringSet.purge_purge (set : ExpiringSet) (now : Instant) :
    (set.purge now).purge now = set.purge now := by
  simp [purge]

/-- The events, the jobs and the dead letters are the same, and so are the live
fingerprints. -/
structure World.Quiet (before after : World) : Prop where
  stores : before.SameStores after
  clock : after.clock = before.clock
  live : after.fingerprints.purge after.clock = before.fingerprints.purge before.clock

namespace World

variable {world after : World}

theorem Quiet.refl (world : World) : world.Quiet world :=
  ⟨.refl world, rfl, rfl⟩

theorem Quiet.trans {first second third : World} (before : first.Quiet second)
    (after : second.Quiet third) : first.Quiet third :=
  ⟨before.stores.trans after.stores, after.clock.trans before.clock,
    after.live.trans before.live⟩

theorem Still.quiet (still : world.Still after) : world.Quiet after where
  stores := still.stores
  clock := still.marks.clock
  live := by
    have same : after.fingerprints = world.fingerprints := still.marks.same
    rw [same, still.marks.clock]

/-- A fingerprint that is not new leaves the live ones as they were. -/
theorem tryMark_quiet {key : String} {ttl : Duration}
    (performed : world.perform (.tryMark .fingerprints key ttl) = some (.ok false, after)) :
    world.Quiet after := by
  have quiet : (Call.tryMark .fingerprints key ttl).writes = false := rfl
  have stores := perform_sameStores quiet performed
  have clock := perform_clock performed
  have inserted := perform_tryMark_inserts performed
  obtain ⟨purged, _⟩ := ExpiringSet.insertIfAbsent?_known inserted
  refine ⟨stores, clock, ?_⟩
  rw [clock]
  exact (congrArg (·.purge world.clock) purged).trans (ExpiringSet.purge_purge _ _)

end World

theorem markIfAbsent_quiet {mode : MarkMode} {key : String} {ttl : Duration}
    {world after : World} {calls : List Answered}
    (recorded : (markIfAbsent .fingerprints mode key ttl).outcome.record world =
      some (.ok false, calls, after)) : world.Quiet after := by
  rw [markIfAbsent_outcome] at recorded
  cases mode with
  | atomic =>
      obtain ⟨answer, middle, _, performed, goesOn, _⟩ :=
        Program.record_call_eq_some.mp recorded
      cases goesOn
      exact World.tryMark_quiet performed
  | stepwise =>
      obtain ⟨answer, middle, _, performed, goesOn, _⟩ :=
        Program.record_call_eq_some.mp recorded
      match answer with
      | .error error => cases goesOn
      | .ok true =>
          cases goesOn
          have idle : (Call.seen .fingerprints key).Idle := ⟨rfl, rfl, nofun⟩
          exact (World.perform_still idle performed).quiet
      | .ok false =>
          obtain ⟨answer, _, _, _, goesOn, _⟩ := Program.record_call_eq_some.mp goesOn
          cases answer <;> cases goesOn

/-! ## How a request ends -/

/-- A request is rejected for want of a valid signature, or because its body is a replay. -/
def ReceiveError.Rejects : ReceiveError → Prop
  | .verification _ => True
  | .replayDetected => True
  | _ => False

/-- What a sender is told in the end, once the rejection was to be recorded. -/
def ReceiveError.recorded (error : ReceiveError) :
    Except AuditError Unit → Except ReceiveError Receipt
  | .ok () => .error error
  | .error failure => .error (.internal s!"audit store: {failure.message}")

namespace Receiver

def Settles : Except ReceiveError Receipt → Prop
  | .ok _ => True
  | .error (.internal _) => True
  | .error _ => False

def turnAway (request : Request) (error : ReceiveError) : Program (Except ReceiveError Receipt) :=
  (auditRejection request error.code).outcome.andThen fun _ => .done (.error error)

/-- The ways in which a request ends, with the calls that it took. -/
inductive Closes (request : Request) (world : World) (calls : List Answered) (last : World) :
    Except ReceiveError Receipt → Prop where
  | settled {result : Except ReceiveError Receipt} (settles : Settles result)
      (silent : ∀ made ∈ calls, made.request.Silent) : Closes request world calls last result
  | unreadable {error : ReceiveError}
      (reason : error = .invalidBody ∨ error = .missingRequiredFields)
      (silent : ∀ made ∈ calls, made.request.Silent) (quiet : world.Quiet last) :
      Closes request world calls last (.error error)
  | rejected {error : ReceiveError} {answer : Except AuditError Unit} (early : List Answered)
      (id : Uuid) (rejects : error.Rejects)
      (silent : ∀ made ∈ early, made.request.Silent)
      (made : calls = early ++
        [⟨.newId .audit, id⟩, ⟨.createAudit (rejection request error.code id), answer⟩])
      (written : (answer, last.audit) = world.audit.create (rejection request error.code id))
      (quiet : world.Quiet last) : Closes request world calls last (error.recorded answer)

variable {request : Request} {world middle last : World} {calls early : List Answered}
  {result : Except ReceiveError Receipt}

theorem Closes.after (closes : Closes request middle calls last result)
    (quiet : world.Quiet middle) (audit : middle.audit = world.audit)
    (silent : ∀ made ∈ early, made.request.Silent) :
    Closes request world (early ++ calls) last result := by
  have both {later : List Answered} (others : ∀ made ∈ later, made.request.Silent) :
      ∀ made ∈ early ++ later, made.request.Silent := by
    intro made member
    rcases List.mem_append.mp member with before | after
    · exact silent made before
    · exact others made after
  cases closes with
  | settled settles others => exact .settled settles (both others)
  | unreadable reason others still => exact .unreadable reason (both others) (quiet.trans still)
  | rejected prior id rejects others made written still =>
      refine .rejected (early ++ prior) id rejects (both others) ?_ ?_ (quiet.trans still)
      · rw [made, List.append_assoc]
      · rw [← audit]
        exact written

theorem Closes.afterCall {call : Call} {answer : call.Answer}
    (closes : Closes request middle calls last result)
    (performed : world.perform call = some (answer, middle)) (idle : call.Idle)
    (silent : call.Silent) : Closes request world (⟨call, answer⟩ :: calls) last result := by
  have alone : ∀ made ∈ [Answered.mk call answer], made.request.Silent := by
    intro made member
    rw [List.mem_singleton.mp member]
    exact silent
  exact closes.after (World.perform_still idle performed).quiet
    (World.perform_audit silent performed) alone

/-! ## Turning away -/

theorem perform_createAudit {record : AuditRecord} {answer : Except AuditError Unit}
    (performed : world.perform (.createAudit record) = some (answer, last)) :
    (answer, last.audit) = world.audit.create record := by
  cases performed
  rfl

theorem turnAway_closes {error : ReceiveError} (rejects : error.Rejects)
    (recorded : (turnAway request error).record world = some (result, calls, last)) :
    Closes request world calls last result := by
  unfold turnAway Program.andThen at recorded
  rw [auditRejection_outcome] at recorded
  obtain ⟨id, drawn, later, draws, goesOn, rfl⟩ := Program.record_call_eq_some.mp recorded
  obtain ⟨answer, written, after, writes, ends, rfl⟩ := Program.record_call_eq_some.mp goesOn
  have ended : error.recorded answer = result ∧ [] = after ∧ written = last := by
    cases answer with
    | ok done =>
        cases ends
        exact ⟨rfl, rfl, rfl⟩
    | error failure =>
        cases ends
        exact ⟨rfl, rfl, rfl⟩
  obtain ⟨rfl, rfl, rfl⟩ := ended
  have drawing : (Call.newId .audit).Idle := ⟨rfl, rfl, nofun⟩
  have writing : (Call.createAudit (rejection request error.code id)).Idle := ⟨rfl, rfl, nofun⟩
  have still := (World.perform_still drawing draws).trans (World.perform_still writing writes)
  have silent : (Call.newId .audit).Silent := rfl
  refine .rejected [] id rejects (List.forall_mem_nil _) rfl ?_ still.quiet
  rw [← World.perform_audit silent draws]
  exact perform_createAudit writes

/-! ## Acknowledging and storing -/

theorem settle_keeps (now : Timestamp) (eventId : String) (receipt : Receipt) :
    (settle now eventId receipt).Keeps Call.Silent Settles :=
  ⟨rfl, fun _ => trivial⟩

theorem supply_keeps (now : Timestamp) (eventId payload : String) (receipt : Uuid → Receipt) :
    (supply now eventId payload receipt).Keeps Call.Silent Settles := by
  unfold supply
  rw [enqueue_outcome]
  refine ⟨rfl, fun id => ⟨rfl, fun answer => ?_⟩⟩
  cases answer with
  | error error => exact trivial
  | ok created => exact settle_keeps ..

theorem acknowledge_keeps (now : Timestamp) (known : Event) (payload : String) :
    (acknowledge now known payload).outcome.Keeps Call.Silent Settles := by
  cases status : known.status with
  | processed =>
      rw [acknowledge_outcome_processed status]
      exact trivial
  | received =>
      rw [acknowledge_outcome_received status]
      refine ⟨rfl, fun answer => ?_⟩
      match answer with
      | .error error => exact trivial
      | .ok [] => exact supply_keeps ..
      | .ok (_ :: _) => exact settle_keeps ..

theorem persist_keeps (now : Timestamp) (event : Event) (payload : String) :
    (persist now event payload).outcome.Keeps Call.Silent Settles := by
  rw [persist_outcome]
  refine ⟨rfl, fun answer => ?_⟩
  match answer with
  | .ok () => exact supply_keeps ..
  | .error (.duplicate key) =>
      refine ⟨rfl, fun answer => ?_⟩
      match answer with
      | .error error => exact trivial
      | .ok none => exact trivial
      | .ok (some known) => exact acknowledge_keeps ..
  | .error (.notFound key) => exact ⟨rfl, fun _ => trivial⟩
  | .error (.unavailable reason) => exact ⟨rfl, fun _ => trivial⟩

theorem closes_of_keeps {program : Program (Except ReceiveError Receipt)}
    (keeps : program.Keeps Call.Silent Settles)
    (recorded : program.record world = some (result, calls, last)) :
    Closes request world calls last result := by
  obtain ⟨settles, silent⟩ := keeps.record recorded
  exact .settled settles silent

/-! ## The whole course -/

theorem reject_closes {error : VerificationError}
    (recorded : (reject request error).outcome.record world = some (result, calls, last)) :
    Closes request world calls last result := by
  have rejects : (ReceiveError.verification error).Rejects := trivial
  by_cases replayed : error = .signatureReplayed
  · -- A signature that was used before may belong to a request for a known event.
    subst replayed
    rw [reject_outcome_replayed, knownEvent_outcome] at recorded
    cases known : knownFields? request.body with
    | none =>
        rw [known] at recorded
        exact turnAway_closes rejects recorded
    | some read =>
        rw [known] at recorded
        obtain ⟨answer, middle, later, finds, goesOn, rfl⟩ :=
          Program.record_call_eq_some.mp recorded
        refine Closes.afterCall ?_ finds ⟨rfl, rfl, nofun⟩ rfl
        match answer with
        | .error error =>
            cases goesOn
            exact .settled trivial (List.forall_mem_nil _)
        | .ok none => exact turnAway_closes rejects goesOn
        | .ok (some event) => exact closes_of_keeps (acknowledge_keeps ..) goesOn
  · rw [reject_outcome_other replayed] at recorded
    exact turnAway_closes rejects recorded

theorem readBody_reason {body : Bytes} {error : ReceiveError}
    (unreadable : readBody body = .error error) :
    error = .invalidBody ∨ error = .missingRequiredFields := by
  unfold readBody at unreadable
  split at unreadable
  · cases unreadable
    exact Or.inl rfl
  · split at unreadable
    · cases unreadable
      exact Or.inl rfl
    · split at unreadable
      · cases unreadable
        exact Or.inr rfl
      · cases unreadable

theorem takeIn_closes {receiver : Receiver}
    (recorded : (receiver.takeIn request).outcome.record world = some (result, calls, last)) :
    Closes request world calls last result := by
  cases readable : readBody request.body with
  | error error =>
      rw [takeIn_outcome_unreadable readable] at recorded
      cases recorded
      exact .unreadable (readBody_reason readable) (List.forall_mem_nil _) (.refl world)
  | ok read =>
      rw [takeIn_outcome readable] at recorded
      obtain ⟨answer, middle, later, finds, goesOn, rfl⟩ :=
        Program.record_call_eq_some.mp recorded
      refine Closes.afterCall ?_ finds ⟨rfl, rfl, nofun⟩ rfl
      match answer with
      | .error error =>
          cases goesOn
          exact .settled trivial (List.forall_mem_nil _)
      | .ok (some known) => exact closes_of_keeps (acknowledge_keeps ..) goesOn
      | .ok none =>
          obtain ⟨marked, early, marking, late, marks, goesOn, rfl⟩ :=
            Program.record_bind goesOn
          have silent : ∀ made ∈ early, made.request.Silent := by
            refine Program.Uses.record ?_ marks
            refine markIfAbsent_uses ?_ ?_ ?_ _ <;> rfl
          match marked with
          | .error error =>
              cases goesOn
              exact .settled trivial (by simpa using silent)
          | .ok true =>
              obtain ⟨settles, others⟩ := (persist_keeps ..).record goesOn
              refine .settled settles ?_
              intro made member
              rcases List.mem_append.mp member with before | after
              · exact silent made before
              · exact others made after
          -- The fingerprint is live already, so trying to mark it has changed nothing live.
          | .ok false =>
              have rejects : ReceiveError.replayDetected.Rejects := trivial
              have closes : Closes request marking late last result :=
                turnAway_closes rejects goesOn
              exact closes.after (markIfAbsent_quiet marks) (Program.record_audit marks silent)
                silent

theorem receive_closes {receiver : Receiver}
    (recorded : (receiver.receive request).outcome.record world = some (result, calls, last)) :
    Closes request world calls last result := by
  by_cases empty : request.body = []
  · rw [receive_outcome_empty empty] at recorded
    cases recorded
    exact .unreadable (Or.inl rfl) (List.forall_mem_nil _) (.refl world)
  · rw [receive_outcome empty] at recorded
    obtain ⟨verdict, early, verified, late, verifies, goesOn, rfl⟩ :=
      Program.record_bind recorded
    have silent : ∀ made ∈ early, made.request.Silent := by
      refine Program.Uses.record ?_ verifies
      refine (receiver.verifier.verify_checks ..).imp fun call checks => ?_
      cases call <;> first | rfl | cases checks
    have still := (receiver.verifier.verify_idle ..).still (Program.run_of_record verifies)
    have closes : Closes request verified late last result := by
      cases verdict with
      | error error => exact reject_closes goesOn
      | ok value => exact takeIn_closes goesOn
    exact closes.after still.quiet (Program.record_audit verifies silent) silent

/-! ## What a closed request leaves behind -/

/-- An error that is not internal leaves everything but the trail as it was. -/
theorem Closes.quiet (closes : Closes request world calls last result) {error : ReceiveError}
    (ended : result = .error error) (external : ∀ reason, error ≠ .internal reason) :
    world.Quiet last := by
  cases closes with
  | settled settles silent =>
      subst ended
      cases error with
      | internal reason => exact absurd rfl (external reason)
      | _ => exact settles.elim
  | unreadable reason silent quiet => exact quiet
  | rejected early id rejects silent made written quiet => exact quiet

/-- A record that cannot be written makes the error internal and changes nothing. -/
theorem Closes.unwritten (closes : Closes request world calls last result)
    {record : AuditRecord} {failure : AuditError}
    (failed : Answered.mk (.createAudit record) (.error failure) ∈ calls) :
    result = .error (.internal s!"audit store: {failure.message}") ∧ world.Quiet last := by
  cases closes with
  | settled settles silent => cases silent _ failed
  | unreadable reason silent quiet => cases silent _ failed
  | rejected early id rejects silent made written quiet =>
      rw [made] at failed
      rcases List.mem_append.mp failed with before | own
      · cases silent _ before
      · rcases List.mem_cons.mp own with drawn | own
        · cases congrArg Answered.request drawn
        · obtain ⟨same, answered⟩ := Answered.mk.inj (List.mem_singleton.mp own)
          obtain rfl := Call.createAudit.inj same
          obtain rfl := eq_of_heq answered
          exact ⟨rfl, quiet⟩

end Receiver

/-! ## The audit trail -/

def AuditTrail.Works (trail : AuditTrail) : Prop :=
  ∃ state, trail.sinks = [.memory state] ∧ ∀ refusal ∈ state.refusals, refusal = none

theorem AuditTrail.Works.create_eq {trail : AuditTrail} (works : trail.Works)
    (record : AuditRecord) :
    ∃ after, trail.create record = (.ok (), after) ∧
      after.records = trail.records ++ [record] ∧ after.Works := by
  obtain ⟨state, sinks, calm⟩ := works
  let kept : AuditMemory := { state with
    records := state.records ++ [record]
    refusals := state.refusals.drop 1 }
  have accepted : AuditSink.create (.memory state) trail.files record =
      (.ok (), .memory kept, trail.files) := by
    unfold AuditSink.create
    dsimp only
    split
    · rename_i error rest planned
      have planned : some error ∈ state.refusals := by
        rw [planned]
        exact List.mem_cons_self
      cases calm (some error) planned
    · rfl
  refine ⟨⟨[.memory kept], trail.files⟩, ?_, ?_, kept, rfl, ?_⟩
  · simp only [AuditTrail.create, sinks, AuditTrail.createIn, accepted]
  · simp only [AuditTrail.records, sinks, kept]
  · intro refusal planned
    exact calm refusal (List.mem_of_mem_drop planned)

theorem AuditTrail.Works.create {trail after : AuditTrail} (works : trail.Works)
    {record : AuditRecord} {answer : Except AuditError Unit}
    (written : (answer, after) = trail.create record) :
    answer = .ok () ∧ after.records = trail.records ++ [record] := by
  obtain ⟨other, created, records, _⟩ := works.create_eq record
  obtain ⟨rfl, rfl⟩ := Prod.mk.inj (written.trans created)
  exact ⟨rfl, records⟩

/-- Where the trail works, a request adds the record of its rejection, if it is rejected. -/
theorem Receiver.Closes.records {request : Request} {world last : World} {calls : List Answered}
    {result : Except ReceiveError Receipt} (closes : Closes request world calls last result)
    (works : world.audit.Works) (silently : (∀ made ∈ calls, made.request.Silent) →
      last.audit = world.audit) :
    (∀ error, result = .error error → error.Rejects → ∃ id,
      last.audit.records = world.audit.records ++ [rejection request error.code id]) ∧
    ((∀ error, result = .error error → ¬error.Rejects) →
      last.audit.records = world.audit.records) := by
  cases closes with
  | settled settles silent =>
      refine ⟨?_, fun _ => congrArg AuditTrail.records (silently silent)⟩
      rintro error rfl rejects
      cases error with
      | verification _ | replayDetected => exact settles.elim
      | _ => exact rejects.elim
  | unreadable reason silent quiet =>
      refine ⟨?_, fun _ => congrArg AuditTrail.records (silently silent)⟩
      intro error same rejects
      cases same
      rcases reason with rfl | rfl
      · exact rejects.elim
      · exact rejects.elim
  | @rejected error answer early id rejects silent made written quiet =>
      obtain ⟨rfl, records⟩ := works.create written
      refine ⟨?_, fun noRejection => absurd rejects (noRejection error rfl)⟩
      rintro _ ⟨⟩ _
      exact ⟨id, records⟩

/-- Where the audit trail works, a request that ends with a verification error or as a replay
adds one record of itself to the trail, and any other request adds none.  A request that ends
with an error that is not internal leaves the events, the jobs, the dead letters and the live
fingerprints as they were.  So does one whose record cannot be written, and it ends with an
internal error. -/
theorem rejections_are_recorded_and_change_nothing {receiver : Receiver}
    {request : Receiver.Request} {world last : World} {calls : List Answered}
    {result : Except ReceiveError Receipt}
    (recorded : (receiver.receive request).outcome.record world = some (result, calls, last)) :
    (world.audit.Works →
      (∀ error, result = .error error → error.Rejects → ∃ id,
        last.audit.records =
          world.audit.records ++ [Receiver.rejection request error.code id]) ∧
      ((∀ error, result = .error error → ¬error.Rejects) →
        last.audit.records = world.audit.records)) ∧
    (∀ error, result = .error error → (∀ reason, error ≠ .internal reason) →
      world.Quiet last) ∧
    ∀ record failure, Answered.mk (.createAudit record) (.error failure) ∈ calls →
      result = .error (.internal s!"audit store: {failure.message}") ∧ world.Quiet last := by
  have closes := Receiver.receive_closes recorded
  refine ⟨?_, ?_, ?_⟩
  · intro works
    exact closes.records works (Program.record_audit recorded)
  · intro error ended external
    exact closes.quiet ended external
  · intro record failure failed
    exact closes.unwritten failed

namespace Sample

set_option maxRecDepth 100000 in
theorem unsigned_request_is_recorded : ∃ calls last id,
    (({} : Receiver).receive request).outcome.record {} =
        some (.error (.verification .missingSignature), calls, last) ∧
      last.audit.records = [Receiver.rejection request "missing_signature" id] ∧
      World.Quiet {} last := by
  have missing : ((({} : Receiver).receive request).outcome.record {}).map Prod.fst =
      some (.error (.verification .missingSignature)) := by decide +kernel
  obtain ⟨⟨result, calls, last⟩, recorded, ended⟩ := Option.map_eq_some_iff.mp missing
  obtain rfl : result = .error (.verification .missingSignature) := ended
  have works : AuditTrail.Works ({} : World).audit := ⟨{}, rfl, List.forall_mem_nil _⟩
  obtain ⟨audited, quiet, _⟩ := rejections_are_recorded_and_change_nothing recorded
  obtain ⟨id, records⟩ := (audited works).1 _ rfl trivial
  exact ⟨calls, last, id, recorded, records, quiet _ rfl nofun⟩

end Sample

end WebhookRelay
