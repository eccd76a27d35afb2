import CatalogBroker.Config.Reading
import CatalogBroker.Library.Maps

/-! Every triple in the broker's vocabulary is accounted for when the settings are read. -/

set_option autoImplicit false

namespace CatalogBroker

open Library Fallible Maps

inductive NodeKind where
  | brokerConfig
  | participant
  | holder
  deriving DecidableEq, Repr

def NodeKind.className : NodeKind → String
  | .brokerConfig => "BrokerConfig"
  | .participant => "Participant"
  | .holder => "Holder"

def NodeKind.known : NodeKind → List String
  | .brokerConfig => participantLink :: holderLink :: allSettings.map Setting.property
  | .participant => participantProperties
  | .holder => holderProperties

namespace ConfigGraph

def OnlyConfig (graph : ConfigGraph) (config : NamedOrBlankNode) : Prop :=
  ∀ subject, graph.Holds subject rdfType (.namedNode (brokerNode "BrokerConfig")) ↔ subject = config

/-- A resource typed as what it is: the config, or linked from it. -/
structure Attached (graph : ConfigGraph) (config subject : NamedOrBlankNode) (kind : NodeKind) : Prop where
  typed : graph.Holds subject rdfType (.namedNode (brokerNode kind.className))
  linked : match kind with
    | .brokerConfig => subject = config
    | .participant => graph.Holds config (brokerNode participantLink) subject.toTerm
    | .holder => graph.Holds config (brokerNode holderLink) subject.toTerm

/-- Every triple with a property or a class of the broker's vocabulary belongs to a resource of the config, under a
property or class of its kind, and but for the participant link no other triple has the same property there. -/
structure ReadCompletely (graph : ConfigGraph) : Prop where
  properties : ∀ subject name object, graph.Holds subject (brokerNode name) object →
    ∃ config kind, graph.OnlyConfig config ∧ graph.Attached config subject kind ∧ name ∈ kind.known ∧
      (name ≠ participantLink → ∀ other, graph.Holds subject (brokerNode name) other → other = object)
  classes : ∀ subject name, graph.Holds subject rdfType (.namedNode (brokerNode name)) →
    ∃ config kind, graph.OnlyConfig config ∧ graph.Attached config subject kind ∧ name = kind.className

/-- Only known properties, each with one value. -/
def SingleKnown (graph : ConfigGraph) (subject : NamedOrBlankNode) (known : List String) : Prop :=
  ∀ name object, graph.Holds subject (brokerNode name) object →
    name ∈ known ∧ ∀ other, graph.Holds subject (brokerNode name) other → other = object

variable {graph : ConfigGraph} {text : ConfigText} {subject config : NamedOrBlankNode} {name resource : String}
  {known : List String} {object term : Term}

theorem getElem?_properties_of_holds (holds : graph.Holds subject (brokerNode name) object) :
    (graph.properties subject)[name]? = some (graph.valuesOf subject name) := by
  rw [getElem?_properties, if_neg (List.ne_nil_of_mem (mem_valuesOf.mpr holds))]

theorem single_of_valuesOf (single : ∃ term, graph.valuesOf subject name = [term])
    (holds : graph.Holds subject (brokerNode name) object) :
    ∀ other, graph.Holds subject (brokerNode name) other → other = object := by
  intro other also
  obtain ⟨term, only⟩ := single
  rw [← mem_valuesOf, only, List.mem_singleton] at holds also
  rw [holds, also]

theorem singleKnown_of_singleValues {values : Std.ExtTreeMap String Term}
    (single : singleValues resource (graph.properties subject) known = .ok values) :
    graph.SingleKnown subject known := by
  intro name object holds
  obtain ⟨listed, only⟩ := (singleValues_eq_ok.mp single).1 name _ (getElem?_properties_of_holds holds)
  exact ⟨listed, single_of_valuesOf only holds⟩

theorem singleKnown_of_read {className : String} {props : NodeProperties}
    (read : NodeProperties.read text graph subject className known = .ok props) :
    graph.SingleKnown subject known := by
  obtain ⟨values, single, _⟩ := bind_eq_ok.mp read
  exact singleKnown_of_singleValues single

/-- What a link that was read says about the resource it points to. -/
structure LinkRead (graph : ConfigGraph) (kind : NodeKind) (subject : NamedOrBlankNode) : Prop where
  typed : graph.Holds subject rdfType (.namedNode (brokerNode kind.className))
  single : graph.SingleKnown subject kind.known

theorem linkRead_of_checks {kind : NodeKind} {property : String} {node : NamedOrBlankNode} {props : NodeProperties}
    (points : graph.linked text subject.toTerm property kind.className = .ok node)
    (read : NodeProperties.read text graph node kind.className kind.known = .ok props) :
    graph.LinkRead kind subject := by
  obtain ⟨same, typed⟩ := linked_eq_ok.mp points
  obtain rfl := NamedOrBlankNode.toTerm_injective same
  exact ⟨typed, singleKnown_of_read read⟩

theorem linkRead_of_participant {entry : ParticipantEntry}
    (read : graph.linkedParticipant text subject.toTerm = .ok entry) : graph.LinkRead .participant subject := by
  obtain ⟨node, points, read⟩ := bind_eq_ok.mp read
  obtain ⟨props, properties, _⟩ := bind_eq_ok.mp read
  exact linkRead_of_checks points properties

theorem linkRead_of_holder {holder : HolderConfig}
    (read : graph.linkedHolder text subject.toTerm = .ok holder) : graph.LinkRead .holder subject := by
  obtain ⟨node, points, read⟩ := bind_eq_ok.mp read
  obtain ⟨props, properties, _⟩ := bind_eq_ok.mp read
  exact linkRead_of_checks points properties

/-- The checks behind a crawler config. -/
structure CrawlerRead (graph : ConfigGraph) (text : ConfigText) (participants holders : List Term) : Prop where
  participantsLinked : ∀ subject, graph.Holds subject rdfType (.namedNode (brokerNode "Participant")) →
    subject.toTerm ∈ participants
  holdersLinked : ∀ subject, graph.Holds subject rdfType (.namedNode (brokerNode "Holder")) →
    subject.toTerm ∈ holders
  oneHolder : holders.length ≤ 1
  participants : ∀ term ∈ participants, ∃ entry, graph.linkedParticipant text term = .ok entry
  holders : ∀ term ∈ holders, ∃ holder, graph.linkedHolder text term = .ok holder

theorem crawlerRead_of_readCrawler {settings : BrokerSettings} {participants holders : List Term}
    {crawler : Option (ParticipantsConfig HolderConfig)}
    (read : graph.readCrawler text settings resource participants holders = .ok crawler) :
    graph.CrawlerRead text participants holders := by
  unfold readCrawler at read
  obtain ⟨⟨⟩, participantsLinked, read⟩ := bind_eq_ok.mp read
  obtain ⟨⟨⟩, holdersLinked, read⟩ := bind_eq_ok.mp read
  obtain ⟨single, read⟩ := guard_eq_ok.mp read
  obtain ⟨holder, holderRead, read⟩ := bind_eq_ok.mp read
  have oneHolder : holders.length ≤ 1 := not_lt.mp single
  constructor
  · exact rejectUnlinked_eq_ok.mp participantsLinked
  · exact rejectUnlinked_eq_ok.mp holdersLinked
  · exact oneHolder
  · intro term member
    rw [if_neg (List.ne_nil_of_mem member)] at read
    obtain ⟨entries, entriesRead, _⟩ := bind_eq_ok.mp read
    obtain ⟨entry, _, reads⟩ := exists_of_mapM entriesRead member
    exact ⟨entry, reads⟩
  · intro term member
    obtain ⟨only, rfl⟩ := List.length_eq_one_iff.mp (le_antisymm oneHolder (List.length_pos_of_mem member))
    obtain rfl := List.mem_singleton.mp member
    rw [List.head?_cons, Option.mapM_some] at holderRead
    obtain ⟨value, reads, _⟩ := map_eq_ok.mp holderRead
    exact ⟨value, reads⟩

structure ConfigRead (graph : ConfigGraph) (text : ConfigText) (config : NamedOrBlankNode) : Prop where
  single : ∀ name object, name ≠ participantLink → name ≠ holderLink → graph.Holds config (brokerNode name) object →
    name ∈ allSettings.map Setting.property ∧ ∀ other, graph.Holds config (brokerNode name) other → other = object
  crawler : graph.CrawlerRead text (graph.valuesOf config participantLink) (graph.valuesOf config holderLink)
  attached : ∀ subject, graph.UsesBroker subject →
    subject = config ∨ graph.Holds config (brokerNode participantLink) subject.toTerm ∨
      graph.Holds config (brokerNode holderLink) subject.toTerm

theorem configRead_of_readConfig {settings : BrokerSettings} (read : graph.readConfig text config = .ok settings) :
    graph.ConfigRead text config := by
  unfold readConfig at read
  simp only [getD_properties] at read
  obtain ⟨values, single, read⟩ := bind_eq_ok.mp read
  obtain ⟨pairs, _, read⟩ := bind_eq_ok.mp read
  obtain ⟨checked, _, read⟩ := bind_eq_ok.mp read
  obtain ⟨crawler, crawlerRead, read⟩ := bind_eq_ok.mp read
  obtain ⟨⟨⟩, unattached, _⟩ := bind_eq_ok.mp read
  constructor
  · intro name object notParticipant notHolder holds
    have kept : (((graph.properties config).erase participantLink).erase holderLink)[name]? =
        some (graph.valuesOf config name) := by
      rw [getElem?_erase_of_ne notHolder, getElem?_erase_of_ne notParticipant, getElem?_properties_of_holds holds]
    obtain ⟨listed, only⟩ := (singleValues_eq_ok.mp single).1 name _ kept
    exact ⟨listed, single_of_valuesOf only holds⟩
  · exact crawlerRead_of_readCrawler crawlerRead
  · intro subject uses
    have member := rejectUnattached_eq_ok.mp unattached subject uses
    rw [List.mem_cons, List.mem_append, mem_valuesOf, mem_valuesOf] at member
    exact member.imp_left fun same => NamedOrBlankNode.toTerm_injective same

theorem ConfigRead.attached_of_link (read : graph.ConfigRead text config) (kind : NodeKind)
    (linked : match kind with
      | .brokerConfig => False
      | .participant => graph.Holds config (brokerNode participantLink) subject.toTerm
      | .holder => graph.Holds config (brokerNode holderLink) subject.toTerm) :
    graph.Attached config subject kind ∧ graph.SingleKnown subject kind.known := by
  cases kind with
  | brokerConfig => cases linked
  | participant =>
    obtain ⟨entry, reads⟩ := read.crawler.participants _ (mem_valuesOf.mpr linked)
    obtain ⟨typed, single⟩ := linkRead_of_participant reads
    exact ⟨⟨typed, linked⟩, single⟩
  | holder =>
    obtain ⟨holder, reads⟩ := read.crawler.holders _ (mem_valuesOf.mpr linked)
    obtain ⟨typed, single⟩ := linkRead_of_holder reads
    exact ⟨⟨typed, linked⟩, single⟩

theorem ConfigRead.config_property (read : graph.ConfigRead text config)
    (holds : graph.Holds config (brokerNode name) object) :
    name ∈ NodeKind.known .brokerConfig ∧
      (name ≠ participantLink → ∀ other, graph.Holds config (brokerNode name) other → other = object) := by
  by_cases participant : name = participantLink
  · exact ⟨by simp [NodeKind.known, participant], fun apart => absurd participant apart⟩
  by_cases holder : name = holderLink
  · subst holder
    refine ⟨by simp [NodeKind.known], fun _ other also => ?_⟩
    have one := read.crawler.oneHolder
    rw [← mem_valuesOf] at holds also
    have only := List.length_eq_one_iff.mp (le_antisymm one (List.length_pos_of_mem holds))
    exact single_of_valuesOf only (mem_valuesOf.mp holds) other (mem_valuesOf.mp also)
  · obtain ⟨listed, only⟩ := read.single name object participant holder holds
    exact ⟨by simp [NodeKind.known, listed], fun _ => only⟩

/-- The checks of one config account for every triple. -/
theorem ConfigRead.readCompletely (read : graph.ConfigRead text config)
    (known : ∀ subject name, graph.Holds subject rdfType (.namedNode (brokerNode name)) → name ∈ knownClasses)
    (only : graph.OnlyConfig config) : graph.ReadCompletely := by
  have typed : graph.Attached config config .brokerConfig := ⟨(only config).mpr rfl, rfl⟩
  constructor
  · intro subject name object holds
    rcases read.attached subject (.inl ⟨name, object, holds⟩) with rfl | participant | holder
    · obtain ⟨listed, single⟩ := read.config_property holds
      exact ⟨subject, .brokerConfig, only, typed, listed, single⟩
    · obtain ⟨attached, single⟩ := read.attached_of_link .participant participant
      exact ⟨config, .participant, only, attached, (single name object holds).1, fun _ => (single name object holds).2⟩
    · obtain ⟨attached, single⟩ := read.attached_of_link .holder holder
      exact ⟨config, .holder, only, attached, (single name object holds).1, fun _ => (single name object holds).2⟩
  · intro subject name holds
    have listed := known subject name holds
    simp only [knownClasses, List.mem_cons, List.not_mem_nil, or_false] at listed
    rcases listed with rfl | rfl | rfl
    · obtain rfl := (only subject).mp holds
      exact ⟨subject, .brokerConfig, only, typed, rfl⟩
    · have linked := mem_valuesOf.mp (read.crawler.participantsLinked subject holds)
      exact ⟨config, .participant, only, (read.attached_of_link .participant linked).1, rfl⟩
    · have linked := mem_valuesOf.mp (read.crawler.holdersLinked subject holds)
      exact ⟨config, .holder, only, (read.attached_of_link .holder linked).1, rfl⟩

theorem readCompletely_of_fromGraph {settings : BrokerSettings}
    (read : BrokerSettings.fromGraph text graph = .ok settings) : graph.ReadCompletely := by
  unfold BrokerSettings.fromGraph at read
  obtain ⟨⟨⟩, classes, read⟩ := bind_eq_ok.mp read
  have known := rejectUnknownClasses_eq_ok.mp classes
  split at read
  · obtain ⟨⟨⟩, unattached, _⟩ := bind_eq_ok.mp read
    have none (subject : NamedOrBlankNode) (uses : graph.UsesBroker subject) : False := by
      cases rejectUnattached_eq_ok.mp unattached subject uses
    constructor
    · intro subject name object holds
      exact (none subject (.inl ⟨name, object, holds⟩)).elim
    · intro subject name holds
      exact (none subject (.inr ⟨name, holds⟩)).elim
  · rename_i config only
    refine (configRead_of_readConfig read).readCompletely known ?_
    intro subject
    rw [← mem_subjectsOfType, only, List.mem_singleton]
  · cases read

end ConfigGraph

end CatalogBroker
