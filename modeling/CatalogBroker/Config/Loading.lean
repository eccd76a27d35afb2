import CatalogBroker.Crawler.Http

/-! Where the config comes from: a local file, or a document fetched over https or from a loopback address. -/

set_option autoImplicit false

namespace CatalogBroker

open Library Fallible Redirects

inductive ConfigLocation where
  | localPath (path : String)
  | remoteUrl (url : HttpUrl)

inductive ConfigLoadError where
  | invalidUrl (raw reason : String)
  | unsupportedScheme (raw : String)
  | insecureRemote (url : String)
  | read (location source : String)
  | fetch (location source : String)
  | parse (location reason : String)
  | graph (error : BrokerConfigError)

structure Files where
  isDir : String → Bool
  join : String → String → String
  read : String → Except String (List UInt8)
  baseUrl : String → Option String

def configGraphFile : String := "config_graph.ttl"

/-- How a URL that does not parse is refused, how a URL prints, and the Turtle parser. -/
structure Loaders where
  parseError : String → String
  urlText : HttpUrl → String
  fromTurtle : List UInt8 → Option String → Except String ConfigGraph
  /-- The error a status is reported with. -/
  statusError : Nat → String

section

variable (text : HttpText) (loaders : Loaders)

def ConfigLocation.parse (raw : String) : Except ConfigLoadError ConfigLocation :=
  if ¬"://".toList <:+: raw.toList then .ok (.localPath raw)
  else match text.parse raw with
    | none => .error (.invalidUrl raw (loaders.parseError raw))
    | some url =>
      -- The config decides where the crawler sends its credential.
      if (url.scheme = "http" ∨ url.scheme = "https") ∧ remoteAllowed text.config url.toUrl then .ok (.remoteUrl url)
      else if url.scheme = "http" then .error (.insecureRemote (text.redacted url))
      else if url.scheme = "file" then match url.filePath with
        | some path => .ok (.localPath path)
        | none => .error (.invalidUrl raw "not a local file path")
      else .error (.unsupportedScheme raw)

def ConfigLocation.display : ConfigLocation → String
  | .localPath path => path
  | .remoteUrl url => text.redacted url

def BrokerSettings.fromTurtle (turtle : List UInt8) (baseIri : Option String) (location : String) :
    Except ConfigLoadError BrokerSettings := do
  let graph ← (loaders.fromTurtle turtle baseIri).mapError (.parse location)
  (BrokerSettings.fromGraph text.config graph).mapError .graph

/-- `error_for_status`: 4xx and 5xx are errors. -/
def HttpResponse.isError (response : HttpResponse) : Bool := 400 ≤ response.status ∧ response.status < 600

def HttpResponse.bytes (response : HttpResponse) : Except String (List UInt8) :=
  match received response.chunks with
  | (bytes, none) => .ok bytes
  | (_, some error) => .error error

def readDocument (answer : Except String HttpResponse) : Except String (List UInt8) := do
  let response ← answer
  if response.isError then .error (loaders.statusError response.status) else response.bytes

/-- The file a path names: the document itself, or the one of a datadir. -/
def Files.document (files : Files) (path : String) : String :=
  if files.isDir path then files.join path configGraphFile else path

def BrokerSettings.fromLocation (files : Files) (proxies : HttpUrl → Option String)
    (network : List HttpRequest → HttpReply) :
    ConfigLocation → List SentRequest × Except ConfigLoadError BrokerSettings
  | .localPath path =>
    let file := files.document path
    ([], do
      let turtle ← (files.read file).mapError (.read file)
      BrokerSettings.fromTurtle text loaders turtle (files.baseUrl file) file)
  | .remoteUrl url =>
    let location := text.redacted url
    if remoteAllowed text.config url.toUrl = false then ([], .error (.insecureRemote location))
    else
      -- the scheme of the first URL decides about the proxy for all of them
      let client := configClient text url
      let (hops, answer) := HttpClient.send text client network [] { method := .get, url }
      (hops.map (client.dispatch proxies), do
        let turtle ← (readDocument loaders answer).mapError (.fetch location)
        BrokerSettings.fromTurtle text loaders turtle (some (loaders.urlText url)) location)

/-- The location `CONFIG_STORE_PATH` names; unset or empty, the default datadir, if it holds a config. -/
def configuredLocation (variableValue default : Option String) : Option (Except ConfigLoadError ConfigLocation) :=
  match variableValue.filter fun value => value ≠ "" with
  | some raw => some (ConfigLocation.parse text loaders raw)
  | none => default.map fun path => .ok (.localPath path)

def BrokerSettings.load (files : Files) (proxies : HttpUrl → Option String) (network : List HttpRequest → HttpReply)
    (variableValue default : Option String) : List SentRequest × Except ConfigLoadError BrokerSettings :=
  match configuredLocation text loaders variableValue default with
  | none => ([], .ok {})
  | some (.error e) => ([], .error e)
  | some (.ok location) => fromLocation text loaders files proxies network location

variable {text loaders} {files : Files} {proxies : HttpUrl → Option String} {network : List HttpRequest → HttpReply}

variable (network) in
theorem config_allowed (url : HttpUrl) (request : HttpRequest)
    (allowed : remoteAllowed text.config request.url.toUrl = true) :
    ∀ hop ∈ (HttpClient.send text (configClient text url) network [] request).1,
      remoteAllowed text.config hop.url.toUrl = true := by
  rw [HttpClient.send_hops]
  refine Client.follow_forall ?_ (by simp) allowed
  intro sent redirected target reply _ read permitted
  unfold configClient permitsConfig at permitted
  dsimp only at permitted
  split at permitted
  · cases permitted
  · split at permitted
    · rename_i allowed
      exact allowed
    · cases permitted

theorem readDocument_eq_ok {answer : Except String HttpResponse} {document : List UInt8}
    (read : readDocument loaders answer = .ok document) : ∃ response, answer = .ok response ∧
      response.isError = false ∧ received response.chunks = (document, none) := by
  obtain ⟨response, answered, read⟩ := bind_eq_ok.mp read
  obtain ⟨success, read⟩ := guard_eq_ok.mp read
  refine ⟨response, answered, by simpa using success, ?_⟩
  unfold HttpResponse.bytes at read
  generalize received response.chunks = transfer at read ⊢
  obtain ⟨bytes, broken⟩ := transfer
  cases broken with
  | none =>
    cases read
    rfl
  | some error => cases read

/-- A document that was read is the whole of what an allowed server answered. -/
structure FetchedWhole (text : HttpText) (network : List HttpRequest → HttpReply) (hops : List HttpRequest)
    (document : List UInt8) : Prop where
  allowed : ∀ hop ∈ hops, remoteAllowed text.config hop.url.toUrl = true
  answered : ∃ response, network hops = .response response ∧ response.isError = false ∧
    received response.chunks = (document, none)

theorem fetched_whole {client : HttpClient} (reads : client.reads = readReply) {request : HttpRequest}
    (allowed : ∀ hop ∈ (HttpClient.send text client network [] request).1,
      remoteAllowed text.config hop.url.toUrl = true)
    {document : List UInt8}
    (read : readDocument loaders (HttpClient.send text client network [] request).2 = .ok document) :
    FetchedWhole text network (HttpClient.send text client network [] request).1 document := by
  obtain ⟨response, answered, success, whole⟩ := readDocument_eq_ok read
  obtain ⟨hops, last, sent, replied⟩ := HttpClient.send_answer reads answered
  refine ⟨allowed, response, ?_, success, whole⟩
  rw [sent]
  exact replied

theorem fromLocation_remote {url : HttpUrl} (allowed : remoteAllowed text.config url.toUrl = true) :
    BrokerSettings.fromLocation text loaders files proxies network (.remoteUrl url) =
      let exchanged := HttpClient.send text (configClient text url) network [] { method := .get, url }
      (exchanged.1.map ((configClient text url).dispatch proxies), do
        let turtle ← (readDocument loaders exchanged.2).mapError (.fetch (text.redacted url))
        BrokerSettings.fromTurtle text loaders turtle (some (loaders.urlText url)) (text.redacted url)) := by
  unfold BrokerSettings.fromLocation
  dsimp only
  rw [if_neg (by rw [allowed]; exact Bool.noConfusion)]

theorem HttpClient.map_dispatch (client : HttpClient) (hops : List HttpRequest) :
    (hops.map (client.dispatch proxies)).map SentRequest.request = hops := by
  rw [List.map_map]
  exact List.map_id hops

/-- Settings read from a location: those of its own file, or of the whole document its own URL led to. -/
def LoadedFrom (text : HttpText) (loaders : Loaders) (files : Files) (network : List HttpRequest → HttpReply)
    (sent : List SentRequest) (settings : BrokerSettings) : ConfigLocation → Prop
  | .localPath path => sent = [] ∧ ∃ turtle, files.read (files.document path) = .ok turtle ∧
      BrokerSettings.fromTurtle text loaders turtle (files.baseUrl (files.document path)) (files.document path) =
        .ok settings
  | .remoteUrl url => (sent.head?.map SentRequest.request = some { method := .get, url }) ∧
      ∃ document, FetchedWhole text network (sent.map SentRequest.request) document ∧
        BrokerSettings.fromTurtle text loaders document (some (loaders.urlText url)) (text.redacted url) = .ok settings

/-- Where the requests for a config at a location may go, and how. -/
structure SentFor (text : HttpText) (location : ConfigLocation) (sent : List SentRequest) : Prop where
  short : sent.length ≤ 10
  allowed : ∀ hop ∈ sent, remoteAllowed text.config hop.request.url.toUrl = true
  direct : ∀ url, location = .remoteUrl url → url.scheme = "http" → ∀ hop ∈ sent, hop.proxy = none

theorem SentFor.nothing (location : ConfigLocation) : SentFor text location [] :=
  ⟨Nat.zero_le _, by simp, by simp⟩

variable (text loaders files proxies network)

theorem fromLocation_spec (location : ConfigLocation) :
    let loaded := BrokerSettings.fromLocation text loaders files proxies network location
    SentFor text location loaded.1 ∧
      ∀ settings, loaded.2 = .ok settings → LoadedFrom text loaders files network loaded.1 settings location := by
  cases location with
  | localPath path =>
    refine ⟨SentFor.nothing _, ?_⟩
    intro settings read
    obtain ⟨turtle, found, parsed⟩ := bind_eq_ok.mp read
    exact ⟨rfl, turtle, mapError_eq_ok.mp found, parsed⟩
  | remoteUrl url =>
    by_cases allowed : remoteAllowed text.config url.toUrl = true
    · dsimp only
      rw [fromLocation_remote allowed]
      have within := config_allowed network url { method := .get, url } allowed
      refine ⟨⟨?_, ?_, ?_⟩, ?_⟩
      · rw [List.length_map]
        exact HttpClient.send_length (configClient text url)
      · exact List.forall_mem_map.mpr within
      -- the client of an http URL uses no proxy, on the way of a redirect either
      · intro other same plain
        cases same
        refine List.forall_mem_map.mpr fun hop _ => ?_
        simp [HttpClient.dispatch, configClient, plain]
      · intro settings read
        obtain ⟨document, found, parsed⟩ := bind_eq_ok.mp read
        have whole := fetched_whole rfl within (mapError_eq_ok.mp found)
        refine ⟨?_, document, ?_, parsed⟩
        · rw [← List.head?_map, HttpClient.map_dispatch, HttpClient.send_head]
        · rwa [HttpClient.map_dispatch]
    · have refused : BrokerSettings.fromLocation text loaders files proxies network (.remoteUrl url) =
          ([], .error (.insecureRemote (text.redacted url))) := by
        unfold BrokerSettings.fromLocation
        dsimp only
        rw [if_pos (by simpa using allowed)]
      dsimp only
      rw [refused]
      refine ⟨SentFor.nothing _, ?_⟩
      intro settings read
      cases read

/-- The config decides where credentials go. With no location there is none; any other is read from the file that the
location names, or is the whole of the response its URL led to. Every request for it is https or to a loopback address,
and none goes through a proxy where the location is plain http itself. -/
theorem config_from_file_or_trusted_server (variableValue default : Option String) :
    let loaded := BrokerSettings.load text loaders files proxies network variableValue default
    match configuredLocation text loaders variableValue default with
    | none => loaded = ([], .ok {})
    | some (.error e) => loaded = ([], .error e)
    | some (.ok location) => SentFor text location loaded.1 ∧
        ∀ settings, loaded.2 = .ok settings → LoadedFrom text loaders files network loaded.1 settings location := by
  unfold BrokerSettings.load
  cases configuredLocation text loaders variableValue default with
  | none => rfl
  | some location =>
    cases location with
    | error e => rfl
    | ok location => exact fromLocation_spec text loaders files proxies network location

end

end CatalogBroker
