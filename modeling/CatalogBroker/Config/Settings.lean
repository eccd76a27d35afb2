import CatalogBroker.Crawler.Participants
import CatalogBroker.Library.Fallible
import CatalogBroker.Library.Text

/-! The settings of the broker: what each value must look like, and the check of all of them. -/

set_option autoImplicit false

namespace CatalogBroker

open Library Fallible

inductive SettingKind where
  | text
  | positiveInteger
  | boolean
  | oneOf (allowed : List String)
  deriving DecidableEq, Repr

structure Setting where
  property : String
  kind : SettingKind
  deriving DecidableEq, Repr

/-- A value that does not fit `usize` is no integer here. -/
def parsePositiveInteger (value : String) : Option Nat :=
  (Text.parseUsize (Text.trimmed value)).toOption.filter fun n => 0 < n ∧ n < 2 ^ 64

def parseBoolean (value : String) : Option Bool :=
  match Text.trimmed value with
  | "true" | "1" => some true
  | "false" | "0" => some false
  | _ => none

def booleanReason : String := "expected true, false, 1 or 0"

/-- The error is the reason a value does not fit. -/
def Setting.check (setting : Setting) (value : String) : Except String Unit :=
  match setting.kind with
  | .text => .ok ()
  | .positiveInteger => (okOr (parsePositiveInteger value) "expected a positive integer").map fun _ => ()
  | .boolean => (okOr (parseBoolean value) booleanReason).map fun _ => ()
  | .oneOf allowed =>
    if value ∈ allowed then .ok () else .error ("expected one of " ++ String.intercalate ", " allowed)

def unmappableConstraintActions : List String := ["skip", "drop_policy", "hide_dataset"]

def noPolicyVisibilities : List String := ["open", "closed"]

def crawlIntervalSecs : Setting := ⟨"crawlIntervalSecs", .positiveInteger⟩

def allSettings : List Setting :=
  [⟨"httpApiAddr", .text⟩, crawlIntervalSecs, ⟨"crawlTimeoutMs", .positiveInteger⟩,
    ⟨"crawlConcurrency", .positiveInteger⟩, ⟨"crawlMaxResponseBytes", .positiveInteger⟩,
    ⟨"catalogMaxAgeSecs", .positiveInteger⟩, ⟨"oauth2JwksUri", .text⟩, ⟨"oauth2Issuer", .text⟩,
    ⟨"oauth2Audience", .text⟩, ⟨"oauth2RequiredScope", .text⟩, ⟨"sparqlQueryTimeoutMs", .positiveInteger⟩,
    ⟨"sparqlMaxRows", .positiveInteger⟩, ⟨"sparqlMaxConcurrent", .positiveInteger⟩,
    ⟨"policyFilterUnmappableConstraintAction", .oneOf unmappableConstraintActions⟩,
    ⟨"policyFilterNoPolicyVisibility", .oneOf noPolicyVisibilities⟩,
    ⟨"policyFilterRunWhenOauth2Disabled", .boolean⟩, ⟨"shutdownDelaySecs", .positiveInteger⟩]

def configResource : String := "the broker:BrokerConfig resource"

def defaultCrawlIntervalSecs : Nat := 300

inductive BrokerConfigError where
  | multipleConfigResources (count : Nat)
  | multipleValues (resource property : String) (count : Nat)
  | unknownProperty (resource property : String)
  | unattached (resource term : String)
  | unknownClass (resource className : String)
  | missingProperty (resource property : String)
  | invalidValue (resource property value reason : String)
  | notAResource (property value : String)
  | wrongType (resource property expected : String)
  | unlinkedResource (resource className property : String)
  | crawler (error : ConfigError)
  deriving DecidableEq, Repr

structure HolderConfig where
  ownDidHost : String
  insecureHttp : Bool
  credentialJwsFile : String
  requiredScope : String
  deriving DecidableEq, Repr

/-- The settings read, by property; no crawler where the config lists no participant. -/
structure BrokerSettings where
  values : Std.ExtTreeMap String String := ∅
  crawler : Option (ParticipantsConfig HolderConfig) := none

namespace BrokerSettings

def checkValue (entry : String × String) : Except BrokerConfigError Unit := do
  let setting ← okOr (allSettings.find? fun setting => setting.property = entry.1)
    (.unknownProperty configResource entry.1)
  (setting.check entry.2).mapError fun reason => .invalidValue configResource entry.1 entry.2 reason

def fromValues (values : List (String × String)) : Except BrokerConfigError BrokerSettings := do
  let values := Std.ExtTreeMap.ofList values compare
  values.toList.forM checkValue
  return { values }

def positiveInteger (settings : BrokerSettings) (setting : Setting) : Option Nat :=
  settings.values[setting.property]?.bind parsePositiveInteger

end BrokerSettings

end CatalogBroker
