import WebhookRelay.Proofs.Construction
import WebhookRelay.Proofs.Enqueueing

/-!
# Which accepted events can be delivered

The header that tells a target the event id takes no control characters, and reading a body
only trims the ends of the id.  So an event is accepted whose id the header refuses: its
request is never made, whatever the target would answer.  Every other event is delivered to
a target that answers well-formed requests.
-/

set_option autoImplicit false

namespace WebhookRelay

/-! ## Web URLs have hosts -/

namespace Host

theorem ipv6_of_parseIpv6 {text : List Char} {host : Host}
    (parsed : parseIpv6 text = .ok host) : ∃ pieces, host = .ipv6 pieces := by
  unfold parseIpv6 at parsed
  split at parsed
  all_goals
    dsimp only at parsed
    split at parsed
    · cases parsed
      exact ⟨_, rfl⟩
    · cases parsed

theorem ipv4_of_parseIpv4 {text : List Char} {host : Host}
    (parsed : parseIpv4 text = .ok host) : ∃ address, host = .ipv4 address := by
  unfold parseIpv4 at parsed
  split at parsed
  · cases parsed
  · dsimp only at parsed
    split at parsed
    · split at parsed
      · cases parsed
        exact ⟨_, rfl⟩
      · cases parsed
    · cases parsed

theorem chars_ipv4_ne_nil (address : Nat) : (Host.ipv4 address).chars ≠ [] :=
  List.append_ne_nil_of_right_ne_nil _ (List.cons_ne_nil _ _)

theorem chars_ne_nil_of_parse {text : List Char} {host : Host}
    (parsed : parse text = .ok host) : host.chars ≠ [] := by
  unfold parse at parsed
  split at parsed
  · split at parsed
    · obtain ⟨pieces, rfl⟩ := ipv6_of_parseIpv6 parsed
      exact List.cons_ne_nil _ _
    · cases parsed
  · split at parsed
    · cases parsed
    · cases parsed
    · rename_i name nonempty _
      split at parsed
      · obtain ⟨address, rfl⟩ := ipv4_of_parseIpv4 parsed
        exact chars_ipv4_ne_nil address
      · cases parsed
        exact nonempty

end Host

namespace Url

theorem host_of_authorityOf {port : Nat} {text : List Char} {authority : Authority}
    (read : authorityOf (.web port) text = .ok authority) :
    ∃ hostText, Host.parse hostText = .ok authority.host := by
  unfold authorityOf at read
  dsimp only at read
  split at read
  · cases read
  · obtain ⟨host, parsed, rest⟩ := Except.of_bind_ok read
    obtain ⟨portOf, _, same⟩ := Except.of_bind_ok rest
    cases same
    exact ⟨_, parsed⟩

theorem hasHost_of_parseAuthority {port : Nat} {scheme text : List Char} {url : Url}
    (parsed : parseAuthority (.web port) scheme text = .ok url) : url.hasHost = true := by
  unfold parseAuthority at parsed
  obtain ⟨authority, read, built⟩ := Except.of_bind_ok parsed
  cases built
  obtain ⟨hostText, host⟩ := host_of_authorityOf read
  simpa [hasHost, build] using Host.chars_ne_nil_of_parse host

theorem scheme_of_parseFile {scheme text : List Char} {url : Url}
    (parsed : parseFile scheme text = .ok url) : url.scheme = scheme := by
  unfold parseFile at parsed
  split at parsed
  · split at parsed
    · dsimp only at parsed
      split at parsed
      all_goals
        obtain ⟨host, _, built⟩ := Except.of_bind_ok parsed
        cases built
        rfl
    · cases parsed
      rfl
  · cases parsed
    rfl

theorem scheme_of_parseAuthority {kind : SchemeKind} {scheme text : List Char} {url : Url}
    (parsed : parseAuthority kind scheme text = .ok url) : url.scheme = scheme := by
  unfold parseAuthority at parsed
  obtain ⟨authority, _, built⟩ := Except.of_bind_ok parsed
  cases built
  rfl

theorem kind_of_isHttp {url : Url} (web : url.isHttp = true) :
    ∃ port, schemeKind url.scheme = .web port := by
  rcases (Bool.or_eq_true _ _).mp web with http | https
  · rw [of_decide_eq_true http]
    exact ⟨80, rfl⟩
  · rw [of_decide_eq_true https]
    exact ⟨443, rfl⟩

theorem hasHost_of_isHttp {text : String} {url : Url} (parsed : parse text = .ok url)
    (web : url.isHttp = true) : url.hasHost = true := by
  obtain ⟨port, kind⟩ := kind_of_isHttp web
  unfold parse ofChars at parsed
  split at parsed
  · cases parsed
  · rename_i scheme rest _
    have same : url.scheme = scheme := by
      split at parsed
      · exact scheme_of_parseFile parsed
      · exact scheme_of_parseAuthority parsed
      · exact scheme_of_parseAuthority parsed
      · cases parsed
        rfl
      · cases parsed
        rfl
    rw [same] at kind
    rw [kind] at parsed
    exact hasHost_of_parseAuthority parsed

end Url

/-! ## Requests to a target -/

/-- A request that can be made: it goes to a host on the web, and headers can hold the
values of its headers. -/
structure OutgoingRequest.WellFormed (request : OutgoingRequest) : Prop where
  web : request.url.isHttp = true
  host : request.url.hasHost = true
  headers : ∀ header ∈ request.headers, isHeaderValue header.2 = true

structure OutgoingRequest.Carries (request : OutgoingRequest) (eventId payload : String) :
    Prop where
  posted : request.method = "POST"
  body : request.body = Text.utf8 payload
  named : ∀ value, (Sender.eventIdHeader, value) ∈ request.headers ↔ value = eventId

def Network.Welcomes (network : Network) (url : Url) : Prop :=
  ∀ request : OutgoingRequest, request.url = url → request.WellFormed →
    ∃ status body, network.exchange request = .response status body ∧ isSuccess status = true

namespace Sender

variable {sender : Sender} {target : Url} {eventId payload : String}

/-- What the sender is made of: a target that was read from its configuration, and a user
agent that a header can hold. -/
theorem of_build {config : DeliveryConfig} (built : build config = .ok sender)
    {address : String} (given : config.url = some address)
    (parsed : Url.parse address = .ok target) :
    sender.target = some target ∧ isHeaderValue sender.config.userAgent = true := by
  unfold build at built
  rw [given, Option.mapM_some, parsed] at built
  dsimp only [Functor.map, Except.map] at built
  split at built
  · cases built
    exact ⟨rfl, ‹_›⟩
  · cases built

theorem request_wellFormed_iff (web : target.isHttp = true) (host : target.hasHost = true)
    (agent : isHeaderValue sender.config.userAgent = true) :
    (sender.request target eventId payload).WellFormed ↔ isHeaderValue eventId = true := by
  constructor
  · intro wellFormed
    exact wellFormed.headers (eventIdHeader, eventId) (by simp [request])
  · intro legal
    refine ⟨web, host, ?_⟩
    simp [request, legal, agent]
    decide

/-- The event id cannot stand in a header: no request is made. -/
theorem send_outcome_refused (aimed : sender.target = some target)
    (host : target.hasHost = true) (illegal : isHeaderValue eventId = false) :
    (sender.send eventId payload).outcome =
      .done (.error (.transport HttpFailure.builder.message)) := by
  have obstacle : obstacle? target eventId = some HttpFailure.builder.message := by
    simp [obstacle?, host, illegal]
  unfold send
  rw [aimed]
  simp only [obstacle]
  rfl

theorem send_outcome_made (aimed : sender.target = some target) (web : target.isHttp = true)
    (legal : isHeaderValue eventId = true) :
    (sender.send eventId payload).outcome =
      .call (.exchange (sender.request target eventId payload)) fun
        | .failed => .done (.error (.transport (HttpFailure.transport.messageFor target)))
        | .timedOut => .done (.error .timedOut)
        | .response status _ =>
            .done (if isSuccess status then .ok () else .error (.unexpectedStatus status)) := by
  have clear : obstacle? target eventId = none := by
    simp [obstacle?, web, legal]
  unfold send
  rw [aimed]
  simp only [clear]
  refine congrArg (Program.call _) (funext fun exchange => ?_)
  cases exchange with
  | failed | timedOut => rfl
  | response status body =>
      show ExceptT.run (if isSuccess status then _ else _) =
        Program.done (if isSuccess status then _ else _)
      cases isSuccess status <;> rfl

theorem request_carries : (sender.request target eventId payload).Carries eventId payload where
  posted := rfl
  body := rfl
  named value := by
    simp only [request, List.mem_cons, Prod.mk.injEq, List.not_mem_nil, or_false]
    simp [eventIdHeader]

/-- Sending succeeds with one request, by which the target has got the payload under the
event id. -/
def Delivers (sender : Sender) (target : Url) (eventId payload : String) (world : World) :
    Prop :=
  ∃ sent status body, sent.url = target ∧ sent.Carries eventId payload ∧
    (sender.send eventId payload).outcome.record world =
      some (.ok (), [⟨.exchange sent, .response status body⟩], world)

/-- A target that welcomes requests gets what is sent to it unless a header cannot hold the
event id. -/
theorem delivers_iff {world : World} (aimed : sender.target = some target)
    (agent : isHeaderValue sender.config.userAgent = true) (web : target.isHttp = true)
    (host : target.hasHost = true) (welcomes : world.network.Welcomes target) :
    sender.Delivers target eventId payload world ↔ isHeaderValue eventId = true := by
  constructor
  · rintro ⟨sent, status, body, _, _, recorded⟩
    by_contra illegal
    rw [send_outcome_refused aimed host (Bool.eq_false_iff.mpr illegal)] at recorded
    cases recorded
  · intro legal
    have wellFormed : (sender.request target eventId payload).WellFormed :=
      (request_wellFormed_iff web host agent).mpr legal
    obtain ⟨status, body, answered, success⟩ := welcomes _ rfl wellFormed
    refine ⟨sender.request target eventId payload, status, body, rfl, request_carries, ?_⟩
    rw [send_outcome_made aimed web legal]
    refine Program.record_call_eq_some.mpr ⟨.response status body, world, [], ?_, ?_, rfl⟩
    · rw [← answered]
      rfl
    · simp only [success]
      rfl

end Sender

/-- Whatever else goes on: what a request enqueues is the event that its body names with the
body as the payload, and if the request is accepted, it has enqueued a job for the accepted
event.  Given to a sender with a target that welcomes requests, such a job is delivered
exactly if a header can hold the event id, that is if it has no control character but tabs. -/
theorem enqueued_event_is_delivered_iff (pipeline : Pipeline) {world : World}
    {moves : List Move} {scene : Scene}
    (played : (Scene.opening world).play pipeline moves = some scene) {who : Nat}
    {request : Receiver.Request} (begun : scene.tasks[who]? = some (.receive request))
    {config : DeliveryConfig} {address : String} {target : Url} {sender : Sender}
    (given : config.url = some address) (parsed : Url.parse address = .ok target)
    (web : target.isHttp = true) (built : Sender.build config = .ok sender)
    {there : World} (welcomes : there.network.Welcomes target) :
    (∀ eventId id, scene.outcome who = some (.received (.ok (.accepted eventId id))) →
      ∃ job, job.id = id ∧ job.eventId = eventId ∧ scene.Enqueued who job) ∧
    ∀ job, scene.Enqueued who job →
      request.Names job.eventId ∧ Text.utf8 job.payload = request.body ∧
      (sender.Delivers target job.eventId job.payload there ↔
        isHeaderValue job.eventId = true) := by
  have abides := Scene.abides_of_play played
  obtain ⟨aimed, agent⟩ := Sender.of_build built given parsed
  refine ⟨fun eventId id accepted => abides.enqueued accepted, fun job enqueued => ?_⟩
  obtain ⟨id, eventId, text, names, carries, rfl⟩ := abides.enqueues begun enqueued
  have host := Url.hasHost_of_isHttp parsed web
  exact ⟨names, carries, Sender.delivers_iff aimed agent web host welcomes⟩

namespace Sample

def requestFor (written : String) : Receiver.Request where
  now := ⟨0, 0⟩
  claim := {}
  body := Text.utf8 ("\x7b\"event_id\":\"" ++ written ++
    "\",\"order\":\x7b\"id\":1\x7d\x7d")

def alone (written : String) : List Move :=
  .start (.receive (requestFor written)) :: List.replicate 6 (.proceed 0)

def hook : DeliveryConfig where
  url := some "http://target.test/hook"

def welcoming : World where
  network := ⟨fun _ => .response 204 []⟩

theorem welcoming_welcomes (target : Url) : welcoming.network.Welcomes target :=
  fun _ _ _ => ⟨204, [], rfl, rfl⟩

theorem hook_builds : ∃ target sender, Url.parse "http://target.test/hook" = .ok target ∧
    target.isHttp = true ∧ Sender.build hook = .ok sender := by
  obtain ⟨target, parsed, web⟩ : ∃ target, Url.parse "http://target.test/hook" = .ok target ∧
      target.isHttp = true := ⟨_, rfl, rfl⟩
  have reads : ∀ url ∈ hook.url, Url.Reads url := by
    intro url given
    cases given
    exact ⟨target, parsed⟩
  obtain ⟨sender, built⟩ := (Sender.build_ok_iff hook).mpr ⟨reads, by decide +kernel⟩
  exact ⟨target, sender, parsed, web, built⟩

set_option maxRecDepth 100000 in
theorem event_with_a_tab_is_delivered :
    ∃ scene target sender, (Scene.opening {}).play pipeline (alone "a\\tb") = some scene ∧
      scene.receipt? 0 = some (.accepted "a\tb" (Uuid.ofNat 0)) ∧
      Url.parse "http://target.test/hook" = .ok target ∧ target.isHttp = true ∧
      Sender.build hook = .ok sender ∧ welcoming.network.Welcomes target ∧
      ∃ job, scene.Enqueued 0 job ∧ job.eventId = "a\tb" ∧
        Text.utf8 job.payload = (requestFor "a\\tb").body ∧
        sender.Delivers target job.eventId job.payload welcoming := by
  have ran : ((Scene.opening {}).play pipeline (alone "a\\tb")).bind
      (fun scene => scene.receipt? 0) = some (.accepted "a\tb" (Uuid.ofNat 0)) := by
    decide +kernel
  obtain ⟨scene, played, accepted⟩ := Option.bind_eq_some_iff.mp ran
  obtain ⟨target, sender, parsed, web, built⟩ := hook_builds
  obtain ⟨enqueues, delivers⟩ := enqueued_event_is_delivered_iff pipeline played
    (Scene.tasks_of_start played) rfl parsed web built (welcoming_welcomes target)
  obtain ⟨job, _, same, enqueued⟩ := enqueues _ _ (Scene.receipt?_eq_some accepted)
  obtain ⟨_, carried, delivered⟩ := delivers job enqueued
  refine ⟨scene, target, sender, played, accepted, parsed, web, built,
    welcoming_welcomes target, job, enqueued, same, carried, delivered.mpr ?_⟩
  rw [same]
  decide

set_option maxRecDepth 100000 in
/-- An id with a line break inside is accepted, and the job cannot be delivered to the same
target. -/
theorem event_with_a_line_break_is_not_delivered :
    ∃ scene target sender, (Scene.opening {}).play pipeline (alone "a\\nb") = some scene ∧
      scene.receipt? 0 = some (.accepted "a\nb" (Uuid.ofNat 0)) ∧
      Url.parse "http://target.test/hook" = .ok target ∧ target.isHttp = true ∧
      Sender.build hook = .ok sender ∧ welcoming.network.Welcomes target ∧
      ∃ job, scene.Enqueued 0 job ∧ job.eventId = "a\nb" ∧
        (∀ world, (sender.send job.eventId job.payload).outcome.run world =
          some (.error (.transport "builder error"), world)) ∧
        ¬sender.Delivers target job.eventId job.payload welcoming := by
  have ran : ((Scene.opening {}).play pipeline (alone "a\\nb")).bind
      (fun scene => scene.receipt? 0) = some (.accepted "a\nb" (Uuid.ofNat 0)) := by
    decide +kernel
  obtain ⟨scene, played, accepted⟩ := Option.bind_eq_some_iff.mp ran
  obtain ⟨target, sender, parsed, web, built⟩ := hook_builds
  obtain ⟨job, _, same, enqueued⟩ :=
    (Scene.abides_of_play played).enqueued (Scene.receipt?_eq_some accepted)
  have refused : (sender.send job.eventId job.payload).outcome =
      .done (.error (.transport "builder error")) := by
    rw [same]
    exact Sender.send_outcome_refused (Sender.of_build built rfl parsed).1
      (Url.hasHost_of_isHttp parsed web) (by decide)
  refine ⟨scene, target, sender, played, accepted, parsed, web, built,
    welcoming_welcomes target, job, enqueued, same, fun world => by rw [refused]; rfl, ?_⟩
  rintro ⟨sent, status, body, _, _, recorded⟩
  rw [refused] at recorded
  cases recorded

end Sample

end WebhookRelay
