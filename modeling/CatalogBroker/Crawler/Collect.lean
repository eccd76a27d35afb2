import CatalogBroker.Crawler.Participants
import CatalogBroker.Crawler.PolicyParser

/-! The catalog the crawler collects from a response: its own entries and those of every catalog
nested in it, the first of each id.
-/

set_option autoImplicit false

namespace CatalogBroker

def readId (value : Json) : Option String := ((value.get? "@id").or (value.get? "id")).bind Json.asStr?

def readString (value : Json) (key : String) : Option String := (value.get? key).bind Json.asStr?

def readArray (value : Json) (key : String) : List Json := ((value.get? key).bind Json.asArray?).getD []

def dataServiceOf (id : String) (value : Json) : DataService :=
  { id
    endpointUrl := (readString value "endpointURL").getD ""
    endpointDescription := readString value "endpointDescription" }

def parseDataService (value : Json) : Option DataService := (readId value).map fun id => dataServiceOf id value

def datasetPropertyKeys : List String :=
  ["title", "description", "version", "creatorName", "thumbnail", "keywords"]

def parseProperties (datasetValue : Json) : Properties :=
  datasetPropertyKeys.foldl (fun properties key =>
    match readString datasetValue key with
    | some value => properties.insert key value
    | none => properties) ∅

def inlineAccessService (distributionValue : Json) : Option Json :=
  match distributionValue.get? "accessService" with
  | some (.object members) => some (.object members)
  | _ => none

def parseDistribution (distributionValue : Json) : Distribution :=
  { format := (readString distributionValue "format").getD ""
    accessService := match distributionValue.get? "accessService" with
      | some (.string id) => id
      | some (.object members) => (readId (.object members)).getD ""
      | _ => "" }

def parseDataset (id : String) (datasetValue : Json) : Dataset :=
  { id
    properties := parseProperties datasetValue
    distributions := (readArray datasetValue "distribution").map parseDistribution
    policies := parsePolicies datasetValue }

/-- Ids already collected from one response, across all nesting levels. -/
structure SeenIds where
  datasets : Finset String := ∅
  services : Finset String := ∅

/-- What a walk over a response has collected so far. -/
structure Collection where
  datasets : List Dataset := []
  dataServices : List DataService := []
  seen : SeenIds := {}

def collectService (state : Collection) (serviceValue : Json) : Collection :=
  match parseDataService serviceValue with
  | some service =>
    if service.id ∈ state.seen.services then state
    else
      { state with
        dataServices := state.dataServices ++ [service]
        seen := { state.seen with services := insert service.id state.seen.services } }
  | none => state

def collectServices (state : Collection) (serviceValues : List Json) : Collection :=
  serviceValues.foldl collectService state

def collectDataset (state : Collection) (datasetValue : Json) : Collection :=
  match readId datasetValue with
  | none => state
  | some id =>
    if id ∈ state.seen.datasets then state
    else
      let state := { state with seen := { state.seen with datasets := insert id state.seen.datasets } }
      -- services that only a distribution mentions are listed like the catalog's own
      let state := collectServices state ((readArray datasetValue "distribution").filterMap inlineAccessService)
      { state with datasets := state.datasets ++ [parseDataset id datasetValue] }

/-- A catalog node's own services, then its own datasets. -/
def collectNode (state : Collection) (value : Json) : Collection :=
  (readArray value "dataset").foldl collectDataset (collectServices state (readArray value "service"))

mutual
def collectDatasetsAndServices (value : Json) (state : Collection) : Collection :=
  match value with
  | .object members => collectNested members (collectNode state (.object members))
  | _ => state

/-- The recursion into the entries of the `catalog` member. -/
def collectNested (members : List (String × Json)) (state : Collection) : Collection :=
  match members with
  | [] => state
  | (key, value) :: members => if key = "catalog" then collectEntries value state else collectNested members state

def collectEntries (value : Json) (state : Collection) : Collection :=
  match value with
  | .array items => collectAll items state
  | _ => state

def collectAll (items : List Json) (state : Collection) : Collection :=
  match items with
  | [] => state
  | item :: items => collectAll items (collectDatasetsAndServices item state)
end

/-- `freshId` is the id taken for a response that has none. -/
def parseCatalogResponse (freshId : String) (value : Json) (participant : ParticipantEntry) : Catalog :=
  let collected := collectDatasetsAndServices value {}
  { id := (readString value "@id").getD freshId
    originNode := ⟨participant.id⟩
    participantId := participant.providerDid
    datasets := collected.datasets
    dataServices := collected.dataServices
    properties := ∅ }

end CatalogBroker
