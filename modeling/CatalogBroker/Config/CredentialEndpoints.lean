import CatalogBroker.Config.Reading

/-! Where a credential may be sent: what an accepted crawler config says about its participants. -/

set_option autoImplicit false

namespace CatalogBroker

open Library Fallible

/-- An endpoint a credential may be sent to. -/
def Acceptable (text : ConfigText) (endpoint : String) : Prop :=
  ∃ url, text.parseUrl endpoint = some url ∧ remoteAllowed text url = true

/-- What reading a participant's properties checks. -/
structure ParticipantEntry.Checked (text : ConfigText) (entry : ParticipantEntry) : Prop where
  id_nonblank : Text.trimmed entry.id ≠ ""
  catalog : entry.credentialProtocol ≠ .none → Acceptable text entry.catalogRequestUrl
  response : ∀ uri ∈ entry.oid4vpResponseUri, Acceptable text uri

variable {text : ConfigText} {props : NodeProperties} {property value : String}

theorem NodeProperties.nonEmpty_trimmed (read : props.nonEmpty text property = .ok value) :
    Text.trimmed value ≠ "" := by
  obtain ⟨found, _, checked⟩ := bind_eq_ok.mp read
  obtain ⟨filled, same⟩ := guard_eq_ok.mp checked
  cases same
  exact filled

theorem NodeProperties.gated_acceptable (read : props.optionalEndpointUrl text property true = .ok (some value)) :
    Acceptable text value := by
  obtain ⟨found, _, checked⟩ := bind_eq_ok.mp read
  cases found with
  | none => cases checked
  | some found =>
    dsimp only at checked
    cases parsed : text.parseUrl found with
    | none =>
      rw [parsed] at checked
      cases checked
    | some url =>
      rw [parsed] at checked
      obtain ⟨allowed, checked⟩ := guard_eq_ok.mp checked
      obtain ⟨scheme, same⟩ := require_eq_ok.mp checked
      cases same
      refine ⟨url, parsed, ?_⟩
      -- plain http was let through, so it goes to a loopback address
      rcases scheme with http | https
      · simpa [http] using allowed
      · simp [remoteAllowed, https]

theorem NodeProperties.participantEntry_checked {entry : ParticipantEntry}
    (read : props.participantEntry text = .ok entry) : entry.Checked text := by
  unfold participantEntry at read
  obtain ⟨protocol, _, read⟩ := bind_eq_ok.mp read
  obtain ⟨id, idRead, read⟩ := bind_eq_ok.mp read
  obtain ⟨name, _, read⟩ := bind_eq_ok.mp read
  obtain ⟨requestUrl, urlRead, read⟩ := bind_eq_ok.mp read
  obtain ⟨required, present, read⟩ := bind_eq_ok.mp read
  obtain ⟨did, _, read⟩ := bind_eq_ok.mp read
  obtain ⟨⟨⟩, _, read⟩ := bind_eq_ok.mp read
  obtain ⟨responseUri, uriRead, read⟩ := bind_eq_ok.mp read
  obtain ⟨⟨⟩, _, same⟩ := bind_eq_ok.mp read
  cases same
  obtain rfl := okOr_eq_ok.mp present
  constructor
  · exact nonEmpty_trimmed idRead
  · intro gated
    rw [decide_eq_true gated] at urlRead
    exact gated_acceptable urlRead
  · intro uri member
    obtain rfl := Option.mem_def.mp member
    exact gated_acceptable uriRead

/-- A crawler config whose credentials go nowhere they should not. -/
structure ParticipantsConfig.Guarded (text : ConfigText) (config : ParticipantsConfig HolderConfig) : Prop where
  ids_nodup : (config.participants.map ParticipantEntry.id).Nodup
  ids_nonblank : ∀ entry ∈ config.participants, Text.trimmed entry.id ≠ ""
  dcp : ∀ entry ∈ config.participants, entry.credentialProtocol = .dcp → entry.providerDid.isSome = true
  oid4Vp : ∀ entry ∈ config.participants, entry.credentialProtocol = .oid4Vp → entry.oid4vpResponseUri.isSome = true
  holder : ∀ entry ∈ config.participants, entry.credentialProtocol ≠ .none → config.holder.isSome = true
  catalog : ∀ entry ∈ config.participants, entry.credentialProtocol ≠ .none →
    Acceptable text entry.catalogRequestUrl
  response : ∀ entry ∈ config.participants, ∀ uri ∈ entry.oid4vpResponseUri, Acceptable text uri

variable {graph : ConfigGraph}

theorem ParticipantsConfig.new_guarded {intervalSecs : Nat} {entries : List ParticipantEntry}
    {holder : Option HolderConfig} {config : ParticipantsConfig HolderConfig}
    (accepted : ParticipantsConfig.new intervalSecs entries holder = .ok config)
    (checked : ∀ entry ∈ entries, entry.Checked text) : config.Guarded text := by
  obtain ⟨passed, rfl⟩ := ParticipantsConfig.new_eq_ok accepted
  have credentials (entry : ParticipantEntry) (member : entry ∈ entries) :=
    checkCredentials_eq_ok.mp (checkParticipants_credentials passed entry member)
  exact {
    ids_nodup := ParticipantsConfig.ids_nodup accepted
    ids_nonblank := fun entry member => (checked entry member).id_nonblank
    dcp := fun entry member => (credentials entry member).1
    oid4Vp := fun entry member => (credentials entry member).2.1
    holder := fun entry member => (credentials entry member).2.2
    catalog := fun entry member => (checked entry member).catalog
    response := fun entry member => (checked entry member).response }

theorem ConfigGraph.readCrawler_guarded {settings : BrokerSettings} {resource : String}
    {participants holders : List Term} {config : ParticipantsConfig HolderConfig}
    (read : graph.readCrawler text settings resource participants holders = .ok (some config)) :
    config.Guarded text := by
  unfold readCrawler at read
  obtain ⟨⟨⟩, _, read⟩ := bind_eq_ok.mp read
  obtain ⟨⟨⟩, _, read⟩ := bind_eq_ok.mp read
  obtain ⟨_, read⟩ := guard_eq_ok.mp read
  obtain ⟨holder, _, read⟩ := bind_eq_ok.mp read
  by_cases none : participants = []
  · rw [if_pos none] at read
    cases read
  · rw [if_neg none] at read
    obtain ⟨entries, entriesRead, read⟩ := bind_eq_ok.mp read
    obtain ⟨found, accepted, same⟩ := bind_eq_ok.mp read
    cases same
    refine ParticipantsConfig.new_guarded (mapError_eq_ok.mp accepted) ?_
    intro entry member
    obtain ⟨term, _, reads⟩ := Listing.exists_of_forall₂ (mapM_eq_ok.mp entriesRead) (List.mem_mergeSort.mp member)
    obtain ⟨node, _, reads⟩ := bind_eq_ok.mp reads
    obtain ⟨props, _, checks⟩ := bind_eq_ok.mp reads
    exact NodeProperties.participantEntry_checked checks

/-- Whatever graph a crawler config was accepted from, a credential, a token or a presentation only leaves for an
endpoint that is https or a loopback address, and only where the config says who presents it. -/
theorem credentials_only_to_acceptable_endpoints (text : ConfigText) (graph : ConfigGraph) {settings : BrokerSettings}
    {config : ParticipantsConfig HolderConfig} (read : BrokerSettings.fromGraph text graph = .ok settings)
    (accepted : settings.crawler = some config) : config.Guarded text := by
  unfold BrokerSettings.fromGraph at read
  obtain ⟨⟨⟩, _, read⟩ := bind_eq_ok.mp read
  split at read
  · obtain ⟨⟨⟩, _, same⟩ := bind_eq_ok.mp read
    cases same
    cases accepted
  · unfold ConfigGraph.readConfig at read
    obtain ⟨values, _, read⟩ := bind_eq_ok.mp read
    obtain ⟨pairs, _, read⟩ := bind_eq_ok.mp read
    obtain ⟨checked, _, read⟩ := bind_eq_ok.mp read
    obtain ⟨crawler, crawlerRead, read⟩ := bind_eq_ok.mp read
    obtain ⟨⟨⟩, _, same⟩ := bind_eq_ok.mp read
    cases same
    dsimp only at accepted
    rw [accepted] at crawlerRead
    exact graph.readCrawler_guarded crawlerRead
  · cases read

theorem gatedConfig_guarded : ∃ settings config, BrokerSettings.fromGraph gatedText gatedConfig = .ok settings ∧
    settings.crawler = some config ∧ config.Guarded gatedText := by
  obtain ⟨settings, config, read, accepted⟩ := gatedConfig_read
  exact ⟨settings, config, read, accepted,
    credentials_only_to_acceptable_endpoints gatedText gatedConfig read accepted⟩

end CatalogBroker
