import CatalogBroker.Broker.AllowListKey
import CatalogBroker.Broker.OAuth2
import CatalogBroker.Broker.ServedCatalogs
import CatalogBroker.Broker.ServedOffers
import CatalogBroker.Crawler.CredentialFlow
import CatalogBroker.Store.CacheRefinement

/-! `GET /catalog` and the management API, from the request to the quads they are answered from.

Both decode one state of the store, filter it for the caller and render what is left, so a
caller learns what the filter leaves and nothing else.
-/

set_option autoImplicit false

namespace CatalogBroker

open Library Fallible Transitions

def catalogVisibilityAction : String := "odrl:use"

structure RequestTime where
  seconds : Nat
  rfc3339 : String

structure CatalogState (Material DecodingKey : Type) extends GateState Material DecodingKey where
  policyFilter : PolicyFilterConfig
  evaluateRequest : EngineRequest → WireDecision

section

variable {Material DecodingKey : Type} (state : CatalogState Material DecodingKey)

def CatalogState.visibleTo (now : RequestTime) (claims : Option Json) (dataset : Dataset) : Bool :=
  datasetIsVisible state.policyFilter state.evaluateRequest dataset (engineClaimsFromBearer now.rfc3339 claims)
    catalogVisibilityAction

def CatalogQuery.all : CatalogQuery := ⟨none, 0, none⟩

def CatalogQuery.forNode (node : NodeId) : CatalogQuery := ⟨some node, 0, none⟩

variable (text : IriText) (store : QuadStore) (order : ReadOrder)

/-- The catalogs a route renders, or why it cannot. -/
def CatalogState.renderVisibleCatalogs (now : RequestTime) (query : CatalogQuery) (claims : Option Json)
    (services : ServiceFiltering) : Except RouteResponse (List Catalog) :=
  match store.catalogs order text query with
  | .error error => .error (internalError error.display)
  | .ok catalogs =>
    .ok (filterCatalogsByPolicy (state.visibleTo now claims) state.shouldFilterByPolicy services catalogs)

/-- `GET /catalog`, up to the spelling of its JSON. -/
def CatalogState.getCatalog (now : RequestTime) (headers : RequestHeaders) (nodeId : Option String) :
    Except RouteResponse (List Catalog) := do
  let claims ← checkOauth2Bearer state.jwt state.oauth2 now.seconds headers
  let query := match nodeId with
    | some nodeId => CatalogQuery.forNode ⟨nodeId⟩
    | none => CatalogQuery.all
  state.renderVisibleCatalogs text store order now query claims .hideGatedOnly

/-- `POST /api/management/v4/catalogs/request`. -/
def CatalogState.catalogRequestRoute (fromSlice : List UInt8 → Option CatalogRequestBody) (now : RequestTime)
    (headers : RequestHeaders) (body : List UInt8) : Except RouteResponse Json := do
  let claims ← checkOauth2Bearer state.jwt state.oauth2 now.seconds headers
  let catalogs ← state.renderVisibleCatalogs text store order now .all claims .keepAll
  return renderOffers fromSlice catalogs body

def CatalogState.shown (now : RequestTime) (claims : Option Json) (services : ServiceFiltering) (catalog : Catalog) :
    Catalog :=
  if state.shouldFilterByPolicy then filterCatalog (state.visibleTo now claims) services catalog else catalog

end

section

variable {Material DecodingKey : Type} {state : CatalogState Material DecodingKey} {text : IriText} {store : QuadStore}
  {contents : Contents}

theorem CatalogState.filterCatalogsByPolicy_eq (now : RequestTime) (claims : Option Json)
    (services : ServiceFiltering) (catalogs : List Catalog) :
    filterCatalogsByPolicy (state.visibleTo now claims) state.shouldFilterByPolicy services catalogs =
      catalogs.map (state.shown now claims services) := by
  unfold filterCatalogsByPolicy shown
  cases state.shouldFilterByPolicy with
  | true => rfl
  | false => simp

theorem CatalogState.shown_sortKey (now : RequestTime) (claims : Option Json) (services : ServiceFiltering)
    (catalog : Catalog) : (state.shown now claims services catalog).sortKey = catalog.sortKey ∧
      (state.shown now claims services catalog).originNode = catalog.originNode := by
  unfold shown filterCatalog
  split
  · cases services <;> exact ⟨rfl, rfl⟩
  · exact ⟨rfl, rfl⟩

theorem CatalogState.shown_participantId (now : RequestTime) (claims : Option Json) (services : ServiceFiltering)
    (catalog : Catalog) : (state.shown now claims services catalog).participantId = catalog.participantId := by
  unfold shown filterCatalog
  split
  · cases services <;> rfl
  · rfl

theorem CatalogState.renderVisibleCatalogs_node (represents : Represents text store contents)
    (wellFormed : contents.WellFormed text) (order : ReadOrder) (now : RequestTime) (node : NodeId)
    (claims : Option Json) (services : ServiceFiltering) :
    state.renderVisibleCatalogs text store order now (.forNode node) claims services =
      .ok ((contents node).map (state.shown now claims services)).toList := by
  unfold renderVisibleCatalogs CatalogQuery.forNode
  rw [represents.catalogs_node wellFormed]
  dsimp only [CatalogQuery.page]
  rw [filterCatalogsByPolicy_eq, List.drop_zero, Option.toList_map]

theorem CatalogState.renderVisibleCatalogs_all (represents : Represents text store contents)
    (wellFormed : contents.WellFormed text) {listing : List Catalog} (lists : contents.Lists listing)
    (order : ReadOrder) (now : RequestTime) (claims : Option Json) (services : ServiceFiltering) :
    state.renderVisibleCatalogs text store order now .all claims services =
      .ok (listing.map (state.shown now claims services)) := by
  unfold renderVisibleCatalogs CatalogQuery.all
  rw [represents.catalogs_all wellFormed lists]
  dsimp only [CatalogQuery.page]
  rw [filterCatalogsByPolicy_eq, List.drop_zero]

theorem Contents.Lists.shown_eq {other : Contents} {shown : Catalog → Catalog}
    (kept : ∀ catalog, (shown catalog).sortKey = catalog.sortKey ∧ (shown catalog).originNode = catalog.originNode)
    (own : ∀ node catalog, contents node = some catalog → catalog.originNode = node)
    (ownOther : ∀ node catalog, other node = some catalog → catalog.originNode = node)
    (same : ∀ node, (contents node).map shown = (other node).map shown) {first second : List Catalog}
    (left : contents.Lists first) (right : other.Lists second) : first.map shown = second.map shown := by
  -- Both are the listing of one map: what is shown for each node.
  have listed {held : Contents} (owns : ∀ node catalog, held node = some catalog → catalog.originNode = node)
      {listing : List Catalog} (lists : held.Lists listing) :
      Contents.Lists (fun node => (held node).map shown) (listing.map shown) := by
    constructor
    · rw [List.pairwise_map]
      exact lists.sorted.imp fun {a b} before => by rwa [(kept a).1, (kept b).1]
    · intro catalog
      rw [List.mem_map]
      constructor
      · rintro ⟨found, member, rfl⟩
        rw [(kept found).2, (lists.mem_iff found).mp member, Option.map_some]
      · intro held
        obtain ⟨found, there, rfl⟩ := Option.map_eq_some_iff.mp held
        refine ⟨found, (lists.mem_iff found).mpr ?_, rfl⟩
        rw [owns _ _ there]
        exact there
  have equal : (fun node => (contents node).map shown) = fun node => (other node).map shown := funext same
  have second := listed ownOther right
  rw [← equal] at second
  exact (listed own left).unique second

theorem getCatalog_node (represents : Represents text store contents) (wellFormed : contents.WellFormed text)
    (order : ReadOrder) {now : RequestTime} {headers : RequestHeaders} {claims : Option Json}
    (admitted : checkOauth2Bearer state.jwt state.oauth2 now.seconds headers = .ok claims) (nodeId : String) :
    state.getCatalog text store order now headers (some nodeId) =
      .ok ((contents ⟨nodeId⟩).map (state.shown now claims .hideGatedOnly)).toList := by
  unfold CatalogState.getCatalog
  rw [admitted]
  exact CatalogState.renderVisibleCatalogs_node represents wellFormed order now ⟨nodeId⟩ claims .hideGatedOnly

theorem getCatalog_all (represents : Represents text store contents) (wellFormed : contents.WellFormed text)
    {listing : List Catalog} (lists : contents.Lists listing) (order : ReadOrder) {now : RequestTime}
    {headers : RequestHeaders} {claims : Option Json}
    (admitted : checkOauth2Bearer state.jwt state.oauth2 now.seconds headers = .ok claims) :
    state.getCatalog text store order now headers none =
      .ok (listing.map (state.shown now claims .hideGatedOnly)) := by
  unfold CatalogState.getCatalog
  rw [admitted]
  exact CatalogState.renderVisibleCatalogs_all represents wellFormed lists order now claims .hideGatedOnly

theorem catalogRequestRoute_eq (represents : Represents text store contents) (wellFormed : contents.WellFormed text)
    {listing : List Catalog} (lists : contents.Lists listing) (order : ReadOrder)
    (fromSlice : List UInt8 → Option CatalogRequestBody) {now : RequestTime} {headers : RequestHeaders}
    {claims : Option Json} (admitted : checkOauth2Bearer state.jwt state.oauth2 now.seconds headers = .ok claims)
    (body : List UInt8) : state.catalogRequestRoute text store order fromSlice now headers body =
      .ok (renderOffers fromSlice (listing.map (state.shown now claims .keepAll)) body) := by
  unfold CatalogState.catalogRequestRoute
  rw [admitted]
  simp only [bind, Except.bind, pure, Except.pure,
    CatalogState.renderVisibleCatalogs_all represents wellFormed lists order now claims .keepAll]

def CatalogRequestBody.datasetId? (body : CatalogRequestBody) : Option String :=
  body.filterExpression.findSome? fun constraint =>
    if constraint.operandLeft = "datasets.id" ∧ constraint.operator = "=" then some constraint.operandRight else none

theorem renderOffers_absent {fromSlice : List UInt8 → Option CatalogRequestBody} {catalogs : List Catalog}
    {body : List UInt8} {request : CatalogRequestBody} (read : fromSlice body = some request) {id : String}
    (asked : request.datasetId? = some id)
    (absent : ∀ catalog ∈ catalogs, ∀ dataset ∈ catalog.datasets, dataset.id ≠ id) :
    renderOffers fromSlice catalogs body = .array [] := by
  unfold CatalogRequestBody.datasetId? at asked
  unfold renderOffers
  simp only [read, Option.getD_some, asked]
  have none_left : (catalogs.filterMap catalogToOffer).filter (fun offer : CatalogRequestOffer =>
      offer.dataset.any fun dataset => dataset.id = id) = [] := by
    rw [List.filter_eq_nil_iff]
    intro offer made listed
    obtain ⟨catalog, member, offered⟩ := List.mem_filterMap.mp made
    obtain ⟨service, _, rfl⟩ := Option.map_eq_some_iff.mp offered
    obtain ⟨wire, among, same⟩ := List.any_eq_true.mp listed
    obtain ⟨dataset, held, rfl⟩ := List.mem_map.mp among
    exact absent catalog member dataset held (by simpa [datasetToOffer] using same)
  rw [none_left]
  rfl

/-- Two histories of the cache leave what looks the same to the caller of a request. -/
def LooksSame (state : CatalogState Material DecodingKey) (now : RequestTime) (headers : RequestHeaders)
    (services : ServiceFiltering) (first second : Contents) : Prop :=
  ∀ claims, checkOauth2Bearer state.jwt state.oauth2 now.seconds headers = .ok claims → ∀ node,
    (first node).map (state.shown now claims services) = (second node).map (state.shown now claims services)

theorem exists_lists (represents : Represents text store contents) (wellFormed : contents.WellFormed text) :
    ∃ listing, contents.Lists listing :=
  ⟨_, represents.lists wellFormed ⟨id, List.Perm.refl, id, List.Perm.refl⟩⟩

end

section

variable {Material DecodingKey : Type} (state : CatalogState Material DecodingKey) (text : IriText)
  (fromSlice : List UInt8 → Option CatalogRequestBody) (now : RequestTime) (headers : RequestHeaders)

/-- Whatever was stored and removed, and in whatever order the store is read, a caller is answered from what the caller
may see: stores that look the same to the caller give the same answers, and asking for a dataset that is hidden,
wherever it is stored, is answered like asking for one that does not exist. -/
theorem catalog_routes_noninterference (calls others : List CacheCall)
    (admissible : ∀ call ∈ calls, call.Admissible text) (admissibleOthers : ∀ call ∈ others, call.Admissible text) :
    (LooksSame state now headers .hideGatedOnly (contentsAfter calls) (contentsAfter others) →
      ∀ order other nodeId, state.getCatalog text (storeAfter text calls) order now headers nodeId =
        state.getCatalog text (storeAfter text others) other now headers nodeId) ∧
    (LooksSame state now headers .keepAll (contentsAfter calls) (contentsAfter others) →
      ∀ order other body, state.catalogRequestRoute text (storeAfter text calls) order fromSlice now headers body =
        state.catalogRequestRoute text (storeAfter text others) other fromSlice now headers body) ∧
    ∀ claims id body request, checkOauth2Bearer state.jwt state.oauth2 now.seconds headers = .ok claims →
      fromSlice body = some request → request.datasetId? = some id → state.shouldFilterByPolicy = true →
      (∀ node catalog, contentsAfter calls node = some catalog → ∀ dataset ∈ catalog.datasets, dataset.id = id →
        state.visibleTo now claims dataset = false) →
      ∀ order, state.catalogRequestRoute text (storeAfter text calls) order fromSlice now headers body =
        .ok (.array []) := by
  have represents := represents_after text calls
  have represented := represents_after text others
  have wellFormed := contentsAfter_wellFormed admissible
  have wellFormedOthers := contentsAfter_wellFormed admissibleOthers
  -- both stores are replaced by what they hold; from there on nothing depends on how they are read
  obtain ⟨listing, lists⟩ := exists_lists represents wellFormed
  obtain ⟨listed, listsOthers⟩ := exists_lists represented wellFormedOthers
  refine ⟨?_, ?_, ?_⟩
  · intro same order other nodeId
    cases admitted : checkOauth2Bearer state.jwt state.oauth2 now.seconds headers with
    | error response =>
      unfold CatalogState.getCatalog
      rw [admitted]
      rfl
    | ok claims =>
      cases nodeId with
      | some nodeId =>
        rw [getCatalog_node represents wellFormed order admitted,
          getCatalog_node represented wellFormedOthers other admitted, same claims admitted]
      | none =>
        rw [getCatalog_all represents wellFormed lists order admitted,
          getCatalog_all represented wellFormedOthers listsOthers other admitted,
          lists.shown_eq (state.shown_sortKey now claims _) represents.own represented.own (same claims admitted)
            listsOthers]
  · intro same order other body
    cases admitted : checkOauth2Bearer state.jwt state.oauth2 now.seconds headers with
    | error response =>
      unfold CatalogState.catalogRequestRoute
      rw [admitted]
      rfl
    | ok claims =>
      rw [catalogRequestRoute_eq represents wellFormed lists order fromSlice admitted,
        catalogRequestRoute_eq represented wellFormedOthers listsOthers other fromSlice admitted,
        lists.shown_eq (state.shown_sortKey now claims _) represents.own represented.own (same claims admitted)
          listsOthers]
  · intro claims id body request admitted read asked filters hidden order
    rw [catalogRequestRoute_eq represents wellFormed lists order fromSlice admitted, renderOffers_absent read asked]
    intro served member dataset shown same
    obtain ⟨catalog, held, rfl⟩ := List.mem_map.mp member
    unfold CatalogState.shown at shown
    rw [if_pos filters] at shown
    -- a dataset that is shown was visible, which the asked one is not
    obtain ⟨among, visible⟩ := List.mem_filter.mp shown
    rw [hidden _ catalog ((lists.mem_iff catalog).mp held) dataset among same] at visible
    cases visible

end

def closedState : CatalogState Unit Unit :=
  ⟨⟨oneKeyLibrary, none, true⟩, ⟨.hideDataset, .closed⟩, fun _ => .deny⟩

def listingOf (datasets : List Dataset) : Catalog := ⟨"catalog", ⟨"provider"⟩, none, datasets, [], ∅⟩

def secretDataset : Dataset := ⟨"secret", ∅, [], []⟩

theorem listingOf_wellFormed (datasets : List Dataset) (within : datasets = [] ∨ datasets = [secretDataset]) :
    (listingOf datasets).WellFormed .urlencoding where
  datasetIds := by rcases within with rfl | rfl <;> simp [listingOf]
  serviceIds := by simp [listingOf]
  nesting := by rcases within with rfl | rfl <;> simp [listingOf, secretDataset, Catalog.NestsWithin]
  keys := by constructor <;> simp [listingOf]
  datasetKeys := by
    rcases within with rfl | rfl <;> intro dataset member
    · cases member
    · rw [List.mem_singleton.mp member]
      constructor <;> simp [secretDataset]

theorem contentsAfter_listingOf (datasets : List Dataset) (within : datasets = [] ∨ datasets = [secretDataset]) :
    contentsAfter [.store (listingOf datasets)] =
      Function.update (fun _ => none) ⟨"provider"⟩ (some (listingOf datasets)) := by
  have nests := (listingOf_wellFormed datasets within).nesting
  simp only [contentsAfter, List.foldl_cons, List.foldl_nil, Contents.update, if_pos nests]
  rfl

def backwards : ReadOrder := ⟨List.reverse, List.reverse_perm, id, List.Perm.refl⟩

theorem secret_dataset_not_seen :
    closedState.getCatalog .urlencoding (storeAfter .urlencoding [.store (listingOf [secretDataset])]) backwards
        ⟨0, ""⟩ ⟨none, none⟩ none =
      closedState.getCatalog .urlencoding (storeAfter .urlencoding [.store (listingOf [])])
        ⟨id, List.Perm.refl, id, List.Perm.refl⟩ ⟨0, ""⟩ ⟨none, none⟩ none := by
  have admissible {datasets : List Dataset} (within : datasets = [] ∨ datasets = [secretDataset]) :
      ∀ call ∈ [CacheCall.store (listingOf datasets)], call.Admissible .urlencoding := by
    intro call member
    rw [List.mem_singleton.mp member]
    exact .inl (listingOf_wellFormed datasets within)
  refine (catalog_routes_noninterference closedState .urlencoding (fun _ => none) ⟨0, ""⟩ ⟨none, none⟩ _ _
    (admissible (.inr rfl)) (admissible (.inl rfl))).1 ?_ backwards ⟨id, List.Perm.refl, id, List.Perm.refl⟩ none
  intro claims _ node
  rw [contentsAfter_listingOf _ (.inr rfl), contentsAfter_listingOf _ (.inl rfl)]
  by_cases own : node = ⟨"provider"⟩
  · subst own
    rfl
  · rw [Function.update_of_ne own, Function.update_of_ne own]

end CatalogBroker
