import WebhookRelay.Config.Loading
import WebhookRelay.Proofs.Alarms
import WebhookRelay.Service

/-!
# From settings to a service

Making the parts of the service fails on three values only: the URL of the key set, the URL of
deliveries and the user agent.  Loading settings checks the second one always, the first one
unless signatures are not verified, and the third one never.  So loaded settings make a service
exactly if the unchecked values happen to be right.
-/

set_option autoImplicit false

namespace WebhookRelay

def Url.Reads (text : String) : Prop :=
  ∃ url, Url.parse text = .ok url

theorem Url.mapM_parse_ok_iff (text : Option String) :
    (∃ url, text.mapM Url.parse = .ok url) ↔ ∀ given ∈ text, Url.Reads given := by
  cases text with
  | none => simp [pure, Except.pure]
  | some given =>
      constructor
      · rintro ⟨url, read⟩ other same
        obtain rfl := Option.mem_some_iff.mp same
        cases parsed : Url.parse given with
        | ok url => exact ⟨url, parsed⟩
        | error reason => simp [parsed, Functor.map, Except.map] at read
      · intro reads
        obtain ⟨url, parsed⟩ := reads given rfl
        exact ⟨some url, by simp [parsed, Functor.map, Except.map]⟩

namespace Service

theorem keySource?_ok_iff (settings : VerifierSettings) :
    (∃ source, keySource? settings = .ok source) ↔
      ∀ url ∈ settings.jwkSetUrl, Url.Reads url := by
  rw [← Url.mapM_parse_ok_iff]
  unfold keySource?
  split
  · rename_i reason refused
    simp [refused]
  · rename_i url read
    simp [read]

end Service

theorem Sender.build_ok_iff (config : DeliveryConfig) :
    (∃ sender, build config = .ok sender) ↔
      (∀ url ∈ config.url, Url.Reads url) ∧ isHeaderValue config.userAgent = true := by
  rw [← Url.mapM_parse_ok_iff]
  unfold build
  split
  · rename_i reason refused
    simp [refused]
  · rename_i target read
    by_cases legal : isHeaderValue config.userAgent = true <;> simp [read, legal]

/-- The parts of the service can be made if the three values are right. -/
theorem Service.build_ok_iff (settings : Settings) :
    (∃ service, build settings = .ok service) ↔
      (∀ url ∈ settings.verifier.jwkSetUrl, Url.Reads url) ∧
      (∀ url ∈ settings.delivery.url, Url.Reads url) ∧
      isHeaderValue settings.delivery.userAgent = true := by
  have sender : (∃ sender, Sender.build (deliveryOf settings.delivery) = .ok sender) ↔
      (∀ url ∈ settings.delivery.url, Url.Reads url) ∧
        isHeaderValue settings.delivery.userAgent = true :=
    Sender.build_ok_iff (deliveryOf settings.delivery)
  rw [← keySource?_ok_iff, ← sender]
  unfold build
  split
  · rename_i error refused
    simp [refused]
  · rename_i source found
    split
    · rename_i error refused
      simp [refused]
    · rename_i sender made
      simp [found, made]

/-! ## What loading checks -/

theorem Url.IsWeb.reads {text : String} (isWeb : IsWeb text) : Reads text := by
  obtain ⟨url, parsed, _⟩ := isWeb
  exact ⟨url, parsed⟩

/-- Valid settings have URLs that can be read, except that the one of the key set is looked at
only where signatures are verified. -/
theorem Settings.reads_of_validate {settings : Settings} (valid : settings.validate = .ok ()) :
    (settings.verifier.skipVerification = false →
      ∀ url ∈ settings.verifier.jwkSetUrl, Url.Reads url) ∧
    ∀ url ∈ settings.delivery.url, Url.Reads url := by
  have rules := validate_ok_iff.mp valid
  refine ⟨fun verified url given => ?_, fun url given => (rules.deliveryUrl url given).reads⟩
  obtain ⟨checked, same, isWeb⟩ := rules.keySource verified
  cases Option.mem_unique given same
  exact isWeb.reads

theorem Settings.validate_of_load {files : Directory} {path : Option String}
    {env : List (String × String)} {settings : Settings}
    (loaded : load files path env = .ok settings) : settings.validate = .ok () := by
  unfold load at loaded
  split at loaded
  all_goals
    obtain ⟨_, _, loaded⟩ := Except.of_bind_ok loaded
    obtain ⟨_, _, loaded⟩ := Except.of_bind_ok loaded
    obtain ⟨_, valid, same⟩ := Except.of_bind_ok loaded
    cases same
    exact valid

/-- Settings that are loaded make a service exactly if their user agent can stand in a header
and, where signatures are not verified, the URL of a key set that is given can be read. -/
theorem loaded_settings_build_iff {files : Directory} {path : Option String}
    {env : List (String × String)} {settings : Settings}
    (loaded : Settings.load files path env = .ok settings) :
    (∃ service, Service.build settings = .ok service) ↔
      isHeaderValue settings.delivery.userAgent = true ∧
      (settings.verifier.skipVerification = true →
        ∀ url ∈ settings.verifier.jwkSetUrl, Url.Reads url) := by
  obtain ⟨keySet, delivery⟩ := Settings.reads_of_validate (Settings.validate_of_load loaded)
  rw [Service.build_ok_iff]
  constructor
  · rintro ⟨source, _, agent⟩
    exact ⟨agent, fun _ => source⟩
  · rintro ⟨agent, skipped⟩
    refine ⟨?_, delivery, agent⟩
    cases skips : settings.verifier.skipVerification with
    | true => exact skipped skips
    | false => exact keySet skips

namespace Sample

/-- Signatures are not verified; where the key set would be is set all the same. -/
def unverified (keySet : String) : List (String × String) :=
  [("ORDERHOOK__VERIFIER__JWK_SET_URL", keySet),
    ("ORDERHOOK__VERIFIER__SKIP_VERIFICATION", "true")]

def unverifiedSettings (keySet : String) : Settings where
  verifier := { jwkSetUrl := some keySet, skipVerification := true }

theorem overrides_unverified {keySet : String}
    (given : (unverified keySet).filterMap (Overlay.override? Overlay.defaultMark) =
      [⟨["verifier", "jwk_set_url"], .str keySet⟩,
        ⟨["verifier", "skip_verification"], .bool true⟩]) :
    Overlay.overrides Overlay.defaultMark (unverified keySet) =
      [⟨["verifier", "jwk_set_url"], .str keySet⟩,
        ⟨["verifier", "skip_verification"], .bool true⟩] := by
  rw [Overlay.overrides, given]
  exact List.mergeSort_of_pairwise (by simp; decide +kernel)

set_option maxRecDepth 100000 in
theorem readable_key_set_builds :
    Settings.load {} none (unverified "http://keys.test/set") =
        .ok (unverifiedSettings "http://keys.test/set") ∧
      ∃ service, Service.build (unverifiedSettings "http://keys.test/set") = .ok service := by
  have loaded : Settings.load {} none (unverified "http://keys.test/set") =
      .ok (unverifiedSettings "http://keys.test/set") := by
    rw [Settings.load, overrides_unverified (by rfl)]
    rfl
  have reads : Url.Reads "http://keys.test/set" := ⟨_, rfl⟩
  exact ⟨loaded, (loaded_settings_build_iff loaded).mpr ⟨by decide +kernel, by
    rintro - url given
    obtain rfl := Option.mem_some_iff.mp given
    exact reads⟩⟩

set_option maxRecDepth 100000 in
/-- The same settings with a text that is no URL load and make no service. -/
theorem unreadable_key_set_loads_and_builds_nothing :
    Settings.load {} none (unverified "not a url") = .ok (unverifiedSettings "not a url") ∧
      ¬∃ service, Service.build (unverifiedSettings "not a url") = .ok service := by
  constructor
  · rw [Settings.load, overrides_unverified (by rfl)]
    rfl
  · have refused : Url.parse "not a url" = .error .relativeWithoutBase := by rfl
    rw [Service.build_ok_iff]
    rintro ⟨reads, -⟩
    obtain ⟨url, read⟩ := reads "not a url" rfl
    rw [refused] at read
    cases read

end Sample

end WebhookRelay
