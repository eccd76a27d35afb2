import CatalogBroker.Crawler.CatalogRequest
import CatalogBroker.Crawler.Scheduler
import CatalogBroker.Dcp.IssuedPresentations

/-! Where a participant's credential goes, and where a catalog comes from, whatever the network answers. -/

set_option autoImplicit false

namespace CatalogBroker

open Library Fallible Redirects Transitions

theorem BrokerSettings.fromGraph_guarded {text : ConfigText} {graph : ConfigGraph} {settings : BrokerSettings}
    {config : ParticipantsConfig HolderConfig} (read : BrokerSettings.fromGraph text graph = .ok settings)
    (accepted : settings.crawler = some config) : config.Guarded text := by
  unfold BrokerSettings.fromGraph at read
  obtain ⟨⟨⟩, _, read⟩ := bind_eq_ok.mp read
  split at read
  · obtain ⟨⟨⟩, _, same⟩ := bind_eq_ok.mp read
    cases same
    cases accepted
  · unfold ConfigGraph.readConfig at read
    obtain ⟨values, _, read⟩ := bind_eq_ok.mp read
    obtain ⟨pairs, _, read⟩ := bind_eq_ok.mp read
    obtain ⟨checked, _, read⟩ := bind_eq_ok.mp read
    obtain ⟨crawler, crawlerRead, read⟩ := bind_eq_ok.mp read
    obtain ⟨⟨⟩, _, same⟩ := bind_eq_ok.mp read
    cases same
    dsimp only at accepted
    rw [accepted] at crawlerRead
    exact graph.readCrawler_guarded crawlerRead
  · cases read

theorem ParticipantsConfig.Guarded.checked {text : ConfigText} {config : ParticipantsConfig HolderConfig}
    (guarded : config.Guarded text) {participant : ParticipantEntry} (member : participant ∈ config.participants) :
    participant.Checked text :=
  ⟨guarded.ids_nonblank participant member, guarded.catalog participant member, guarded.response participant member⟩

section

variable {SigningKey VerifyingKey Signature : Type} (primitives : Primitives SigningKey VerifyingKey Signature)
  (text : HttpText) (network : List HttpRequest → HttpReply)

/-- Whatever answers a participant's crawl, and wherever it redirects: the presentation reaches only the response
endpoint's origin and the authorization only the catalog endpoint's, in at most eleven requests each, and for a
participant with a credential protocol all of them go to https or to a loopback address. -/
theorem credentials_stay_at_their_endpoints (graph : ConfigGraph) {settings : BrokerSettings}
    {config : ParticipantsConfig HolderConfig} (read : BrokerSettings.fromGraph text.config graph = .ok settings)
    (accepted : settings.crawler = some config) {participant : ParticipantEntry}
    (member : participant ∈ config.participants) (holder : Option (HolderIdentity SigningKey))
    (issued : IssuedTokens) (maxResponseBytes : Nat) (run : CredentialRun) :
    let fetched := fetchCatalog primitives text network holder issued participant maxResponseBytes run
    ∃ asked sent, fetched.hops = asked ++ sent ∧ asked.length ≤ 11 ∧ sent.length ≤ 11 ∧
      (∀ hop ∈ asked, PresentationHop primitives text holder participant run hop) ∧
      (∀ hop ∈ sent, CatalogHop primitives text network holder issued participant maxResponseBytes run hop) ∧
      (participant.credentialProtocol ≠ .none → ∀ hop ∈ fetched.hops,
        remoteAllowed text.config hop.url.toUrl = true) := by
  intro fetched
  have checked := (BrokerSettings.fromGraph_guarded read accepted).checked member
  obtain ⟨asked, sent, hops, asks, sends, presents, requests⟩ :=
    fetchCatalog_hops primitives text network holder issued participant maxResponseBytes run
  refine ⟨asked, sent, hops, asks, sends, presents, requests, ?_⟩
  intro gated hop member
  rcases List.mem_append.mp (hops ▸ member : hop ∈ asked ++ sent) with presented | requested
  · exact (presents hop presented).allowed checked
  · exact (requests hop requested).allowed checked gated

end

def gatedHttpText : HttpText where
  displayTerm := printTerm
  debugText value := "\"" ++ value ++ "\""
  parse value := (Text.splitOnce value ':').map fun parts =>
    ⟨⟨parts.1, some "provider.example", none⟩, some 443, parts.2⟩
  parseIpAddr _ := none
  originText url := url.scheme ++ "://" ++ url.hostStr.getD ""
  redacted url := url.scheme ++ "://" ++ url.hostStr.getD "" ++ url.rest
  statusText status := toString status
  invalidUrl url := "builder error for " ++ url
  redirectError _ reason := "error following redirect: " ++ reason

theorem gatedHttpText_config : gatedHttpText.config = gatedText := by
  unfold HttpText.config gatedHttpText gatedText
  simp only [Option.map_map]
  rfl

/-- The provider answers with a redirect to another scheme, and then with its catalog. -/
def redirectingNetwork (sent : List HttpRequest) : HttpReply :=
  if sent.length = 1 then .redirect 307 ⟨⟨"http", some "provider.example", none⟩, some 80, "/catalog"⟩
  else .response ⟨200, none, [.ok [123, 125]]⟩

theorem redirected_credential_stays : ∃ settings config participant,
    BrokerSettings.fromGraph gatedHttpText.config gatedConfig = .ok settings ∧ settings.crawler = some config ∧
    participant ∈ config.participants ∧
    let fetched := fetchCatalog (exchangePrimitives []) gatedHttpText redirectingNetwork (some exchangeHolder) ∅
      participant 1000 ⟨exchangeMint, ⟨1000, "nonce", "submission"⟩⟩
    ∃ asked sent, fetched.hops = asked ++ sent ∧ asked.length ≤ 11 ∧ sent.length ≤ 11 ∧
      (participant.credentialProtocol ≠ .none → ∀ hop ∈ fetched.hops,
        remoteAllowed gatedHttpText.config hop.url.toUrl = true) := by
  have decided : (((BrokerSettings.fromGraph gatedText gatedConfig).toOption.bind BrokerSettings.crawler).bind
      fun config => config.participants.head?).isSome = true := by
    decide +kernel
  obtain ⟨participant, found⟩ := Option.isSome_iff_exists.mp decided
  obtain ⟨config, read, first⟩ := Option.bind_eq_some_iff.mp found
  obtain ⟨settings, read, accepted⟩ := Option.bind_eq_some_iff.mp read
  have member : participant ∈ config.participants := List.mem_of_mem_head? first
  cases outcome : BrokerSettings.fromGraph gatedText gatedConfig with
  | error e =>
    rw [outcome] at read
    cases read
  | ok whole =>
    rw [outcome] at read
    cases read
    rw [← gatedHttpText_config] at outcome
    obtain ⟨asked, sent, hops, asks, sends, _, _, allowed⟩ := credentials_stay_at_their_endpoints
      (exchangePrimitives []) gatedHttpText redirectingNetwork gatedConfig outcome accepted member
      (some exchangeHolder) ∅ 1000 ⟨exchangeMint, ⟨1000, "nonce", "submission"⟩⟩
    exact ⟨settings, config, participant, outcome, accepted, member, asked, sent, hops, asks, sends, allowed⟩

section

variable {SigningKey VerifyingKey Signature : Type} (primitives : Primitives SigningKey VerifyingKey Signature)
  (text : HttpText) (network : List HttpRequest → HttpReply)

theorem readCatalogBody_eq_ok {url : String} {maxResponseBytes : Nat} {answer : Except String HttpResponse}
    {body : Json} (read : readCatalogBody primitives text url maxResponseBytes answer = .ok body) :
    ∃ response bytes, answer = .ok response ∧ response.isSuccess = true ∧
      readBodyLimited response maxResponseBytes = .ok bytes ∧ primitives.fromSlice bytes = .ok body := by
  obtain ⟨response, answered, read⟩ := bind_eq_ok.mp read
  obtain ⟨success, read⟩ := guard_eq_ok.mp read
  obtain ⟨bytes, bounded, parsed⟩ := bind_eq_ok.mp read
  exact ⟨response, bytes, mapError_eq_ok.mp answered, by simpa using success, mapError_eq_ok.mp bounded,
    mapError_eq_ok.mp parsed⟩

/-- A body that is the whole of a successful response, within the limit, to a request that came to the participant's
own origin with its own authorization. -/
structure FromOwnOrigin (holder : Option (HolderIdentity SigningKey)) (issued : IssuedTokens)
    (participant : ParticipantEntry) (maxResponseBytes : Nat) (run : CredentialRun) (body : Json)
    (before : List HttpRequest) (last : HttpRequest) (response : HttpResponse) : Prop where
  sent : (fetchCatalog primitives text network holder issued participant maxResponseBytes run).hops =
    before ++ [last]
  answered : network (before ++ [last]) = .response response
  success : response.isSuccess = true
  origin : ∃ url, text.parse participant.catalogRequestUrl = some url ∧ url.Reaches last.url
  authorized : ∃ authorization, last.authorization = some authorization ∧
    (authorize primitives text network holder issued participant maxResponseBytes run).2.2 = .ok authorization
  whole : ∃ bytes, received response.chunks = (bytes, none) ∧ bytes.length ≤ maxResponseBytes ∧
    primitives.fromSlice bytes = .ok body

theorem fetchCatalog_fromOwnOrigin {holder : Option (HolderIdentity SigningKey)} {issued : IssuedTokens}
    {participant : ParticipantEntry} {maxResponseBytes : Nat} {run : CredentialRun} {body : Json}
    (fetched : (fetchCatalog primitives text network holder issued participant maxResponseBytes run).body = .ok body) :
    ∃ before last response,
      FromOwnOrigin primitives text network holder issued participant maxResponseBytes run body before last
        response := by
  rcases authorizes : authorize primitives text network holder issued participant maxResponseBytes run with
    ⟨minted, asked, authorized⟩
  unfold fetchCatalog at fetched
  rw [authorizes] at fetched
  cases authorized with
  | error e => cases fetched
  | ok authorization =>
    obtain ⟨response, bytes, answered, success, bounded, parsed⟩ := readCatalogBody_eq_ok primitives text fetched
    obtain ⟨_, complete, short⟩ := readBodyLimited_eq_ok.mp bounded
    unfold post at answered
    cases target : text.parse participant.catalogRequestUrl with
    | none =>
      rw [target] at answered
      cases answered
    | some url =>
      rw [target] at answered
      -- the last request is one for the catalog: those for the presentation come before
      obtain ⟨hops, last, sent, replied⟩ := HttpClient.send_answer rfl answered
      have carries := outbound_carries network asked
        ⟨.post, url, some authorization, some (.json catalogRequestMessage)⟩ last (by rw [sent]; simp)
      refine ⟨asked ++ hops, last, response, ?_, ?_, success, ⟨url, target, carries.reaches⟩,
        ⟨authorization, carries.authorization, by rw [authorizes]⟩, bytes, complete, short, parsed⟩
      · unfold fetchCatalog post
        rw [authorizes, target]
        dsimp only
        rw [sent, List.append_assoc]
      · rw [List.append_assoc]
        exact replied

/-- `crawl_and_cache` up to the cache: a catalog that is not there in time is a failure. -/
def fetchWithin (participant : ParticipantEntry) (timeout : String) (timedOut : Bool) (fetched : Fetched) :
    Except String Json :=
  if timedOut then .error ("crawl of " ++ participant.catalogRequestUrl ++ " timed out after " ++ timeout)
  else fetched.body

/-- One participant's crawl: who answers it and with whose credential it asks, and how the rest of it goes. -/
structure NetworkCrawl (SigningKey : Type) where
  network : List HttpRequest → HttpReply
  holder : Option (HolderIdentity SigningKey)
  issued : IssuedTokens
  run : CredentialRun
  timedOut : Bool
  freshId : String
  upserted : StoreResult Unit
  finishedAt : SystemTime
  finishedInstant : Instant

def NetworkCrawl.crawl (asks : NetworkCrawl SigningKey) (participant : ParticipantEntry) (maxResponseBytes : Nat)
    (timeout : String) : Crawl where
  fetched := fetchWithin participant timeout asks.timedOut
    (fetchCatalog primitives text asks.network asks.holder asks.issued participant maxResponseBytes asks.run)
  freshId := asks.freshId
  upserted := asks.upserted
  finishedAt := asks.finishedAt
  finishedInstant := asks.finishedInstant

/-- The crawls a tick begins are what the network makes of asking each participant. -/
def AsksNetwork (participants : List ParticipantEntry) (maxResponseBytes : Nat) (timeout : String)
    (crawls : Nat → Crawl) (asks : Nat → NetworkCrawl SigningKey) : Prop :=
  ∀ index participant, participants[index]? = some participant →
    crawls index = (asks index).crawl primitives text participant maxResponseBytes timeout

end

section

variable {participants : List ParticipantEntry} {id : String}

theorem latestSuccess_mem {runs : List CycleRun} {found : Catalog × Instant}
    (latest : latestSuccess participants runs id = some found) :
    ∃ run ∈ runs, crawledIn participants run id = some found := by
  induction runs using List.reverseRecOn with
  | nil => cases latest
  | append_singleton runs run ih =>
    rw [latestSuccess_append] at latest
    cases crawled : crawledIn participants run id with
    | none =>
      rw [crawled, Option.none_or] at latest
      obtain ⟨earlier, member, same⟩ := ih latest
      exact ⟨earlier, List.mem_append_left _ member, same⟩
    | some other =>
      rw [crawled, Option.some_or] at latest
      exact ⟨run, List.mem_append_right _ (List.mem_singleton_self run), crawled.trans latest⟩

theorem ownCrawl_crawlOne {crawls : Nat → Crawl} {catalog : Catalog} {instant : Instant}
    (crawled : ownCrawl participants crawls id = some (catalog, instant)) : ∃ index participant,
      participants[index]? = some participant ∧ participant.id = id ∧
        crawlOne participant (crawls index) = .ok catalog := by
  obtain ⟨⟨index, participant⟩, found, cached⟩ := Option.bind_eq_some_iff.mp crawled
  obtain ⟨position, bound, same⟩ := List.mem_mapIdx.mp (List.mem_of_find?_eq_some found)
  cases same
  have own : participants[index].id = id := by simpa using List.find?_some found
  refine ⟨index, participants[index], List.getElem?_eq_getElem bound, own, ?_⟩
  unfold Crawl.cached at cached
  split at cached
  · rename_i fetched _
    cases cached
    exact fetched
  · cases cached

theorem Scheduler.held_crawled {limits : CrawlLimits} {concurrency : Nat}
    {allowed : Scheduler → SchedulerEvent → Prop} {events : List SchedulerEvent} {scheduler : Scheduler}
    (distinct : (participants.map ParticipantEntry.id).Nodup)
    (run : Run (Scheduler.step concurrency) allowed (Scheduler.start participants limits) events scheduler)
    {catalog : Catalog} (held : scheduler.contents ⟨id⟩ = some catalog) :
    ∃ crawls ∈ ticks events, ∃ instant, ownCrawl participants crawls id = some (catalog, instant) := by
  obtain ⟨runs, begun, ticked, after, sound⟩ := Scheduler.traced_of_run distinct run
  obtain ⟨same, _, knowsOf⟩ := Harvester.after_knowsOf distinct limits runs
  have apart : (scheduler.harvester.participants.map ParticipantEntry.id).Nodup := by rwa [after, same]
  have explains : scheduler.harvester.Explains begun (lastSettled events) id (scheduler.contents ⟨id⟩) :=
    sound.explains apart id
  rw [after, held] at explains
  have known {found : Catalog × Instant} (latest : latestSuccess participants runs id = some found) :
      ∃ crawls ∈ ticks events, ownCrawl participants crawls id = some found := by
    obtain ⟨cycle, member, crawled⟩ := latestSuccess_mem latest
    refine ⟨cycle.crawls, ?_, crawled⟩
    rw [ticked]
    exact List.mem_append_left _ (List.mem_map_of_mem member)
  -- kept from an earlier cycle, or written by the one in progress
  rcases explains.latest distinct with kept | ⟨found, instant, own, crawled⟩ | ⟨gone, _⟩
  · obtain ⟨instant, latest⟩ := (knowsOf id).latest_of_held kept.symm
    obtain ⟨crawls, member, own⟩ := known latest
    exact ⟨crawls, member, instant, own⟩
  · cases crawled
    obtain ⟨crawls, same, own⟩ := Option.bind_eq_some_iff.mp own
    refine ⟨crawls, ?_, instant, own⟩
    rw [ticked, same]
    simp
  · cases gone

end

section

variable {SigningKey VerifyingKey Signature : Type} (primitives : Primitives SigningKey VerifyingKey Signature)
  (text : HttpText)

theorem NetworkCrawl.fromOwnOrigin {asks : NetworkCrawl SigningKey} {participant : ParticipantEntry}
    {maxResponseBytes : Nat} {timeout : String} {catalog : Catalog}
    (parsed : crawlOne participant (asks.crawl primitives text participant maxResponseBytes timeout) = .ok catalog) :
    asks.timedOut = false ∧ ∃ body before last response,
      FromOwnOrigin primitives text asks.network asks.holder asks.issued participant maxResponseBytes asks.run body
        before last response ∧
      catalog = parseCatalogResponse asks.freshId body participant := by
  obtain ⟨body, fetched, rfl⟩ := map_eq_ok.mp parsed
  unfold crawl fetchWithin at fetched
  dsimp only at fetched
  split at fetched
  · cases fetched
  · rename_i inTime
    obtain ⟨before, last, response, origin⟩ := fetchCatalog_fromOwnOrigin primitives text asks.network fetched
    exact ⟨eq_false_of_ne_true inTime, body, before, last, response, origin, rfl⟩

/-- At any moment of any run whose ticks ask the network, a cached catalog is what its own participant's origin said in
one of these crawls: the whole body, within the limit, of a successful response to that participant's own request. -/
theorem cached_catalog_from_own_origin (participants : List ParticipantEntry)
    (distinct : (participants.map ParticipantEntry.id).Nodup) (limits : CrawlLimits)
    (concurrency maxResponseBytes : Nat) (timeout : String) {events : List SchedulerEvent} {scheduler : Scheduler}
    (run : Run (Scheduler.step concurrency) (fun _ _ => True) (Scheduler.start participants limits) events scheduler)
    (asked : List (Nat → NetworkCrawl SigningKey))
    (asks : List.Forall₂ (AsksNetwork primitives text participants maxResponseBytes timeout) (ticks events) asked)
    {id : String} {catalog : Catalog} (held : scheduler.contents ⟨id⟩ = some catalog) :
    ∃ crawls ∈ asked, ∃ index participant, participants[index]? = some participant ∧ participant.id = id ∧
      (crawls index).timedOut = false ∧ ∃ body before last response,
        FromOwnOrigin primitives text (crawls index).network (crawls index).holder (crawls index).issued participant
          maxResponseBytes (crawls index).run body before last response ∧
        catalog = parseCatalogResponse (crawls index).freshId body participant := by
  obtain ⟨begun, member, instant, crawled⟩ := Scheduler.held_crawled distinct run held
  obtain ⟨index, participant, listed, own, parsed⟩ := ownCrawl_crawlOne crawled
  have made : List.Forall₂ (flip (AsksNetwork primitives text participants maxResponseBytes timeout)) asked
      (ticks events) := .flip asks
  obtain ⟨crawls, asker, made⟩ := Listing.exists_of_forall₂ made member
  rw [made index participant listed] at parsed
  obtain ⟨inTime, origin⟩ := NetworkCrawl.fromOwnOrigin primitives text parsed
  exact ⟨crawls, asker, index, participant, listed, own, inTime, origin⟩

end

/-- The provider moves the request once within its origin, and then sends an empty catalog in two chunks. -/
def movingNetwork (sent : List HttpRequest) : HttpReply :=
  if sent.length = 1 then .redirect 307 ⟨⟨"https", some "provider.example", none⟩, some 443, "/moved"⟩
  else .response ⟨200, some 2, [.ok [123], .ok [125]]⟩

def openProvider : ParticipantEntry :=
  ⟨"provider", "Provider", "https://provider.example/catalog", .none, none, none⟩

def movedFetch : Fetched :=
  fetchCatalog (exchangePrimitives [.object []]) gatedHttpText movingNetwork none ∅ openProvider 2
    ⟨exchangeMint, ⟨0, "nonce", "submission"⟩⟩

theorem movedFetch_body : ∃ body, movedFetch.body = .ok body := by
  have decided : movedFetch.body.toOption.isSome = true := by decide +kernel
  cases fetched : movedFetch.body with
  | error e =>
    rw [fetched] at decided
    cases decided
  | ok body => exact ⟨body, rfl⟩

def movedCrawls (_ : Nat) : NetworkCrawl UInt8 :=
  ⟨movingNetwork, none, ∅, ⟨exchangeMint, ⟨0, "nonce", "submission"⟩⟩, false, "urn:uuid:fresh", .ok (), 5, 5⟩

theorem moved_catalog_cached : ∃ catalog, ∃ crawls ∈ [movedCrawls], ∃ index participant,
    [openProvider][index]? = some participant ∧ participant.id = "provider" ∧ (crawls index).timedOut = false ∧
    ∃ body before last response,
      FromOwnOrigin (exchangePrimitives [.object []]) gatedHttpText (crawls index).network (crawls index).holder
        (crawls index).issued participant 2 (crawls index).run body before last response ∧
      catalog = parseCatalogResponse (crawls index).freshId body participant := by
  obtain ⟨body, fetched⟩ := movedFetch_body
  let crawls (_ : Nat) : Crawl := ⟨.ok body, "urn:uuid:fresh", .ok (), 5, 5⟩
  have asks : List.Forall₂ (AsksNetwork (exchangePrimitives [.object []]) gatedHttpText [openProvider] 2 "30s")
      [crawls] [movedCrawls] := by
    refine .cons ?_ .nil
    intro index participant listed
    obtain ⟨rfl, rfl⟩ : index = 0 ∧ openProvider = participant := by
      cases index with
      | zero => exact ⟨rfl, Option.some.inj listed⟩
      | succ index => cases listed
    have answered : fetchWithin openProvider "30s" false movedFetch = .ok body := fetched
    unfold movedFetch at answered
    simp only [crawls, NetworkCrawl.crawl, movedCrawls, answered]
  have run : ∃ scheduler, scheduler.contents ⟨"provider"⟩ =
        some (parseCatalogResponse "urn:uuid:fresh" body openProvider) ∧
      Run (Scheduler.step 1) (fun _ _ => True) (Scheduler.start [openProvider] ⟨60⟩)
        [.tick crawls, .crawl .start, .crawl (.work 0 ()), .crawl (.work 0 ())] scheduler :=
    ⟨_, rfl, .cons trivial rfl (.cons trivial rfl (.cons trivial rfl (.cons trivial rfl (.nil _))))⟩
  obtain ⟨scheduler, held, run⟩ := run
  exact ⟨_, cached_catalog_from_own_origin _ _ [openProvider] (by decide) ⟨60⟩ 1 2 "30s" run [movedCrawls] asks held⟩

end CatalogBroker
