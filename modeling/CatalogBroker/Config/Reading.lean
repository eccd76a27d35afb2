import CatalogBroker.Config.Graph

/-! Reading the participants, the holder and the settings out of the config graph. -/

set_option autoImplicit false

namespace CatalogBroker

open Library Fallible

/-- `str::parse::<IpAddr>` of a host without the brackets an IPv6 address has in a URL. -/
def isLoopbackHost (text : ConfigText) (host : String) : Bool :=
  let bare := (host.toList.dropWhile (· = '[')).reverse.dropWhile (· = ']')
  (text.parseIpAddr (String.ofList bare.reverse)).any IpAddr.isLoopback

/-- Whether a credential may be sent there: over https, or over plain http to a loopback address. -/
def remoteAllowed (text : ConfigText) (url : Url) : Bool :=
  match url.scheme with
  | "https" => true
  | "http" => url.hostStr.any (isLoopbackHost text)
  | _ => false

def CredentialProtocol.fromStr (text : ConfigText) (raw : String) : Except String CredentialProtocol :=
  match raw with
  | "none" => .ok .none
  | "dcp" => .ok .dcp
  | "oid4vp" => .ok .oid4Vp
  | other => .error ("unknown credential protocol " ++ text.debugText other ++ " (expected none, dcp or oid4vp)")

/-- A resource's known, single-valued `broker:` properties. -/
structure NodeProperties where
  resource : String
  values : Std.ExtTreeMap String Term

def iriValued : List String := [catalogRequestUrl, oid4vpResponseUri]

namespace NodeProperties

def read (text : ConfigText) (graph : ConfigGraph) (node : NamedOrBlankNode) (className : String)
    (known : List String) : Except BrokerConfigError NodeProperties := do
  let resource := "broker:" ++ className ++ " " ++ graph.describe text node
  let values ← singleValues resource (graph.properties node) known
  return { resource, values }

variable (props : NodeProperties) (text : ConfigText)

def invalid (property value reason : String) : BrokerConfigError :=
  .invalidValue props.resource property value reason

def missing (property : String) : BrokerConfigError := .missingProperty props.resource property

def optional (property : String) : Except BrokerConfigError (Option String) :=
  match props.values[property]? with
  | none => .ok none
  | some (.literal literal) => .ok (some literal.value)
  | some (.namedNode node) =>
    if property ∈ iriValued then .ok (some node.iri)
    else .error (props.invalid property (text.displayTerm (.namedNode node)) "expected a string literal")
  | some other => .error (props.invalid property (text.displayTerm other) "expected a string literal")

def required (property : String) : Except BrokerConfigError String := do
  let value ← props.optional text property
  okOr value (props.missing property)

def nonEmpty (property : String) : Except BrokerConfigError String := do
  let value ← props.required text property
  if Text.trimmed value = "" then .error (props.invalid property value "empty") else return value

/-- An absolute http or https URL; where the endpoint receives the crawler's credential (`gated`), plain http is
accepted only to a loopback address. -/
def optionalEndpointUrl (property : String) (gated : Bool) : Except BrokerConfigError (Option String) := do
  match ← props.optional text property with
  | none => return none
  | some value => match text.parseUrl value with
    | some url =>
      if gated ∧ remoteAllowed text url = false ∧ url.scheme = "http" then
        .error (props.invalid property value
          "this endpoint receives the crawler's credential: expected https, or plain http to a loopback address")
      else if url.scheme = "http" ∨ url.scheme = "https" then return some value
      else .error (props.invalid property value "expected an absolute http or https URL")
    | none => .error (props.invalid property value "expected an absolute http or https URL")

def isDid (value : String) : Bool :=
  match (Text.stripPrefix value "did:").bind (Text.splitOnce · ':') with
  | some (method, id) => method ≠ "" && method.toList.all (fun c => c.isLower || c.isDigit) && id ≠ ""
  | none => false

def optionalDid (property : String) : Except BrokerConfigError (Option String) := do
  match ← props.optional text property with
  | none => return none
  | some value =>
    if isDid value then return some value
    else .error (props.invalid property value "expected a DID (did:<method>:<id>)")

/-- Fail when a property is set but the protocol is not the one that reads it. -/
def onlyFor (property : String) (value : Option String) (protocol wanted : CredentialProtocol)
    (wantedName : String) : Except BrokerConfigError Unit :=
  match value with
  | some value =>
    if protocol ≠ wanted then
      .error (props.invalid property value
        ("only read when broker:" ++ credentialProtocol ++ " is \"" ++ wantedName ++ "\""))
    else .ok ()
  | none => .ok ()

def filePathFromUrl (raw : String) : Except BrokerConfigError (Option String) :=
  match text.parseUrl raw with
  | some url =>
    if url.scheme = "file" then match url.filePath with
      | some path => .ok (some path)
      | none => .error (props.invalid credentialJwsFile raw "not a local file path")
    else .error (props.invalid credentialJwsFile raw "the credential must be a local file")
  | none => .ok none

/-- A path, or a `file:` URL written as a string or an IRI. -/
def credentialFile : Except BrokerConfigError String :=
  match props.values[credentialJwsFile]? with
  | none => .error (props.missing credentialJwsFile)
  | some (.literal literal) => do
    let raw := literal.value
    if Text.trimmed raw = "" then .error (props.invalid credentialJwsFile raw "empty path")
    else
      let looksLikeUrl : Bool :=
        (raw.toList.take 5).map Char.toLower = "file:".toList ∨ "://".toList <:+: raw.toList
      let urlPath ← if looksLikeUrl then props.filePathFromUrl text raw else .ok none
      return urlPath.getD raw
  | some (.namedNode node) => do
    let path ← props.filePathFromUrl text node.iri
    okOr path (props.invalid credentialJwsFile node.iri "not a local file path")
  | some other => .error (props.invalid credentialJwsFile (text.displayTerm other) "expected a path or a file: IRI")

def protocol : Except BrokerConfigError CredentialProtocol := do
  match ← props.optional text credentialProtocol with
  | some raw => (CredentialProtocol.fromStr text raw).mapError fun e => props.invalid credentialProtocol raw e
  | none => return .none

def participantEntry : Except BrokerConfigError ParticipantEntry := do
  let protocol ← props.protocol text
  let id ← props.nonEmpty text participantId
  let name ← props.nonEmpty text participantName
  let gated : Bool := protocol ≠ .none
  let requestUrl ← props.optionalEndpointUrl text catalogRequestUrl gated
  let requestUrl ← okOr requestUrl (props.missing catalogRequestUrl)
  let did ← props.optionalDid text providerDid
  props.onlyFor providerDid did protocol .dcp "dcp"
  let responseUri ← props.optionalEndpointUrl text oid4vpResponseUri true
  props.onlyFor oid4vpResponseUri responseUri protocol .oid4Vp "oid4vp"
  return ⟨id, name, requestUrl, protocol, did, responseUri⟩

def insecure : Except BrokerConfigError Bool := do
  match ← props.optional text insecureHttp with
  | none => return false
  | some raw => okOr (parseBoolean raw) (props.invalid insecureHttp raw booleanReason)

def holderConfig : Except BrokerConfigError HolderConfig := do
  let insecure ← props.insecure text
  let file ← props.credentialFile text
  let host ← props.required text ownDidHost
  let scope ← props.required text requiredScope
  return ⟨host, insecure, file, scope⟩

end NodeProperties

namespace ConfigGraph

variable (graph : ConfigGraph) (text : ConfigText)

def readParticipant (node : NamedOrBlankNode) : Except BrokerConfigError ParticipantEntry := do
  let props ← NodeProperties.read text graph node "Participant" participantProperties
  props.participantEntry text

def readHolder (node : NamedOrBlankNode) : Except BrokerConfigError HolderConfig := do
  let props ← NodeProperties.read text graph node "Holder" holderProperties
  props.holderConfig text

def linkedParticipant (term : Term) : Except BrokerConfigError ParticipantEntry := do
  let node ← graph.linked text term participantLink "Participant"
  graph.readParticipant text node

def linkedHolder (term : Term) : Except BrokerConfigError HolderConfig := do
  let node ← graph.linked text term holderLink "Holder"
  graph.readHolder text node

/-- The crawler config from the resources that are linked, sorted by id; none where no participant is listed. -/
def readCrawler (settings : BrokerSettings) (resource : String) (participants holders : List Term) :
    Except BrokerConfigError (Option (ParticipantsConfig HolderConfig)) := do
  graph.rejectUnlinked text participants "Participant" participantLink
  graph.rejectUnlinked text holders "Holder" holderLink
  if 1 < holders.length then .error (.multipleValues resource holderLink holders.length)
  else
    let holder ← holders.head?.mapM (graph.linkedHolder text)
    if participants = [] then return none
    else
      let entries ← participants.mapM (graph.linkedParticipant text)
      let entries := entries.mergeSort fun first second => first.id ≤ second.id
      let intervalSecs := (settings.positiveInteger crawlIntervalSecs).getD defaultCrawlIntervalSecs
      let config ← (ParticipantsConfig.new intervalSecs entries holder).mapError .crawler
      return some config

def settingText (entry : String × Term) : Except BrokerConfigError (String × String) :=
  match entry.2 with
  | .blankNode node =>
    .error (.invalidValue configResource entry.1 (text.displayTerm (.blankNode node)) "expected a literal or an IRI")
  | term => .ok (entry.1, termValue text term)

def readConfig (config : NamedOrBlankNode) : Except BrokerConfigError BrokerSettings := do
  let properties := graph.properties config
  let participants := properties.getD participantLink []
  let holders := properties.getD holderLink []
  let settingValues ← singleValues configResource ((properties.erase participantLink).erase holderLink)
    (allSettings.map Setting.property)
  let values ← settingValues.toList.mapM (settingText text)
  let settings ← BrokerSettings.fromValues values
  let crawler ← graph.readCrawler text settings configResource participants holders
  graph.rejectUnattached text (config.toTerm :: (participants ++ holders))
  return { settings with crawler }

end ConfigGraph

def BrokerSettings.fromGraph (text : ConfigText) (graph : ConfigGraph) : Except BrokerConfigError BrokerSettings := do
  graph.rejectUnknownClasses text
  match graph.subjectsOfType "BrokerConfig" with
  | [] => do
    graph.rejectUnattached text []
    return {}
  | [config] => graph.readConfig text config
  | configs => .error (.multipleConfigResources configs.length)

-- One participant that asks for a credential, and the holder that has one.
def gatedText : ConfigText where
  displayTerm := printTerm
  debugText value := "\"" ++ value ++ "\""
  parseUrl value := (Text.splitOnce value ':').map fun parts => ⟨parts.1, some "provider.example", none⟩
  parseIpAddr _ := none

def gatedGraph : NamedNode := ⟨"urn:config"⟩

def gatedQuad (subject : String) (predicate : NamedNode) (object : Term) : Quad :=
  ⟨.namedNode ⟨subject⟩, predicate, object, .namedNode gatedGraph⟩

def gatedQuads : List Quad :=
  [gatedQuad "urn:c" rdfType (.namedNode (brokerNode "BrokerConfig")),
    gatedQuad "urn:c" (brokerNode participantLink) (.namedNode ⟨"urn:p"⟩),
    gatedQuad "urn:c" (brokerNode holderLink) (.namedNode ⟨"urn:h"⟩),
    gatedQuad "urn:p" rdfType (.namedNode (brokerNode "Participant")),
    gatedQuad "urn:p" (brokerNode participantId) (.literal (.ofString "p")),
    gatedQuad "urn:p" (brokerNode participantName) (.literal (.ofString "P")),
    gatedQuad "urn:p" (brokerNode catalogRequestUrl) (.literal (.ofString "https://provider.example/catalog")),
    gatedQuad "urn:p" (brokerNode credentialProtocol) (.literal (.ofString "dcp")),
    gatedQuad "urn:p" (brokerNode providerDid) (.literal (.ofString "did:web:provider.example")),
    gatedQuad "urn:h" rdfType (.namedNode (brokerNode "Holder")),
    gatedQuad "urn:h" (brokerNode ownDidHost) (.literal (.ofString "holder.example")),
    gatedQuad "urn:h" (brokerNode credentialJwsFile) (.literal (.ofString "/run/holder.jws")),
    gatedQuad "urn:h" (brokerNode requiredScope) (.literal (.ofString "read"))]

def gatedConfig : ConfigGraph where
  store := ⟨gatedQuads, by decide +kernel⟩
  graph := gatedGraph
  order _ _ _ := ⟨id, List.Perm.refl, id, List.Perm.refl⟩

theorem gatedConfig_read : ∃ settings config,
    BrokerSettings.fromGraph gatedText gatedConfig = .ok settings ∧ settings.crawler = some config := by
  have decided : ((BrokerSettings.fromGraph gatedText gatedConfig).toOption.bind BrokerSettings.crawler).isSome =
      true := by
    decide +kernel
  cases read : BrokerSettings.fromGraph gatedText gatedConfig with
  | error e =>
    rw [read] at decided
    cases decided
  | ok settings =>
    rw [read] at decided
    obtain ⟨config, crawler⟩ := Option.isSome_iff_exists.mp decided
    exact ⟨settings, config, rfl, crawler⟩

end CatalogBroker
