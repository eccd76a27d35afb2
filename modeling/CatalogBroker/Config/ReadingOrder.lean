import CatalogBroker.Config.AccountedTriples

/-! Neither whether a config is accepted nor the settings it yields depend on the order its triples are visited in. -/

set_option autoImplicit false

namespace CatalogBroker

open Library Fallible Maps

namespace ConfigGraph

/-- One graph, read in two ways. -/
structure SameTriples (first second : ConfigGraph) : Prop where
  graph : first.graph = second.graph
  triples : ∀ subject predicate object, first.Holds subject predicate object ↔ second.Holds subject predicate object

variable {first second : ConfigGraph} {text : ConfigText}

theorem SameTriples.symm (same : SameTriples first second) : SameTriples second first :=
  ⟨same.graph.symm, fun subject predicate object => (same.triples subject predicate object).symm⟩

theorem nodup_quadsForPattern (graph : ConfigGraph) (subject : Option NamedOrBlankNode)
    (predicate : Option NamedNode) (object : Option Term) :
    (graph.quadsForPattern subject predicate object).Nodup := by
  unfold quadsForPattern QuadStore.quadsForPattern
  apply List.Nodup.filter
  exact ((graph.order subject predicate object).scan_perm _).nodup_iff.mpr graph.store.nodup

theorem erase_rel {first second : Std.ExtTreeMap String (List Term)} {erased : String}
    (related : ∀ name : String, Option.Rel List.Perm first[name]? second[name]?) (name : String) :
    Option.Rel List.Perm (first.erase erased)[name]? (second.erase erased)[name]? := by
  by_cases same : name = erased
  · subst same
    rw [Std.ExtTreeMap.getElem?_erase_self, Std.ExtTreeMap.getElem?_erase_self]
    exact .none
  · rw [getElem?_erase_of_ne same, getElem?_erase_of_ne same]
    exact related name

namespace SameTriples

variable (same : SameTriples first second)

include same

theorem quads_perm (subject : Option NamedOrBlankNode) (predicate : Option NamedNode) (object : Option Term) :
    (first.quadsForPattern subject predicate object).Perm (second.quadsForPattern subject predicate object) := by
  rw [List.perm_ext_iff_of_nodup (first.nodup_quadsForPattern ..) (second.nodup_quadsForPattern ..)]
  intro quad
  rw [mem_quads, mem_quads, same.triples, same.graph]

theorem valuesOf_perm (subject : NamedOrBlankNode) (name : String) :
    (first.valuesOf subject name).Perm (second.valuesOf subject name) :=
  Grouping.group_perm (same.quads_perm ..) name

theorem properties_rel (subject : NamedOrBlankNode) (name : String) :
    Option.Rel List.Perm (first.properties subject)[name]? (second.properties subject)[name]? := by
  rw [getElem?_properties, getElem?_properties]
  have perm := same.valuesOf_perm subject name
  by_cases empty : first.valuesOf subject name = []
  · rw [if_pos empty, if_pos (List.nil_perm.mp (empty ▸ perm))]
    exact .none
  · have other : second.valuesOf subject name ≠ [] := by
      intro none
      rw [none] at perm
      exact empty (List.perm_nil.mp perm)
    rw [if_neg empty, if_neg other]
    exact .some perm

theorem describe_eq (node : NamedOrBlankNode) : first.describe text node = second.describe text node := by
  cases node with
  | namedNode node => rfl
  | blankNode node =>
    unfold describe
    exact describeBlank_rel (same.properties_rel (.blankNode node) participantId)

theorem read {node : NamedOrBlankNode} {className : String} {known : List String} {props : NodeProperties}
    (read : NodeProperties.read text first node className known = .ok props) :
    NodeProperties.read text second node className known = .ok props := by
  obtain ⟨values, single, built⟩ := bind_eq_ok.mp read
  rw [same.describe_eq] at single built
  exact bind_eq_ok.mpr ⟨values, singleValues_rel (same.properties_rel node) single, built⟩

theorem linked {term : Term} {property className : String} {node : NamedOrBlankNode}
    (points : first.linked text term property className = .ok node) :
    second.linked text term property className = .ok node := by
  rw [linked_eq_ok] at points ⊢
  exact ⟨points.1, (same.triples ..).mp points.2⟩

theorem linkedParticipant {term : Term} {entry : ParticipantEntry}
    (read : first.linkedParticipant text term = .ok entry) : second.linkedParticipant text term = .ok entry := by
  obtain ⟨node, points, read⟩ := bind_eq_ok.mp read
  obtain ⟨props, properties, checked⟩ := bind_eq_ok.mp read
  exact bind_eq_ok.mpr ⟨node, same.linked points, bind_eq_ok.mpr ⟨props, same.read properties, checked⟩⟩

theorem linkedHolder {term : Term} {holder : HolderConfig}
    (read : first.linkedHolder text term = .ok holder) : second.linkedHolder text term = .ok holder := by
  obtain ⟨node, points, read⟩ := bind_eq_ok.mp read
  obtain ⟨props, properties, checked⟩ := bind_eq_ok.mp read
  exact bind_eq_ok.mpr ⟨node, same.linked points, bind_eq_ok.mpr ⟨props, same.read properties, checked⟩⟩

theorem rejectUnknownClasses (checked : first.rejectUnknownClasses text = .ok ()) :
    second.rejectUnknownClasses text = .ok () := by
  rw [rejectUnknownClasses_eq_ok] at checked ⊢
  exact fun subject name holds => checked subject name ((same.triples ..).mpr holds)

theorem rejectUnlinked {terms others : List Term} (perm : terms.Perm others) {className property : String}
    (checked : first.rejectUnlinked text terms className property = .ok ()) :
    second.rejectUnlinked text others className property = .ok () := by
  rw [rejectUnlinked_eq_ok] at checked ⊢
  exact fun subject holds => perm.mem_iff.mp (checked subject ((same.triples ..).mpr holds))

theorem rejectUnattached {terms others : List Term} (perm : terms.Perm others)
    (checked : first.rejectUnattached text terms = .ok ()) : second.rejectUnattached text others = .ok () := by
  rw [rejectUnattached_eq_ok] at checked ⊢
  intro subject uses
  apply perm.mem_iff.mp
  apply checked
  rcases uses with ⟨name, object, holds⟩ | ⟨name, holds⟩
  · exact .inl ⟨name, object, (same.triples ..).mpr holds⟩
  · exact .inr ⟨name, (same.triples ..).mpr holds⟩

theorem holder {holders others : List Term} (perm : holders.Perm others) (one : holders.length ≤ 1)
    {holder : Option HolderConfig} (read : holders.head?.mapM (first.linkedHolder text) = .ok holder) :
    others.head?.mapM (second.linkedHolder text) = .ok holder := by
  cases holders with
  | nil =>
    rw [List.nil_perm.mp perm]
    rw [List.head?_nil, Option.mapM_none] at read ⊢
    exact read
  | cons term rest =>
    have alone : rest = [] := List.length_eq_zero_iff.mp (by simpa using one)
    subst alone
    rw [List.perm_singleton.mp perm.symm]
    rw [List.head?_cons, Option.mapM_some] at read ⊢
    obtain ⟨found, reads, same'⟩ := map_eq_ok.mp read
    exact map_eq_ok.mpr ⟨found, same.linkedHolder reads, same'⟩

theorem participants {participants others : List Term} (perm : participants.Perm others)
    {entries : List ParticipantEntry} (read : participants.mapM (first.linkedParticipant text) = .ok entries) :
    ∃ reordered, others.mapM (second.linkedParticipant text) = .ok reordered ∧ entries.Perm reordered := by
  have carried : participants.mapM (second.linkedParticipant text) = .ok entries :=
    mapM_eq_ok.mpr ((mapM_eq_ok.mp read).imp fun _ _ reads => same.linkedParticipant reads)
  obtain ⟨reordered, passed, entriesPerm⟩ := Listing.mapM_perm perm.symm carried
  exact ⟨reordered, passed, entriesPerm.symm⟩

theorem readCrawler {settings : BrokerSettings} {resource : String}
    {participants otherParticipants holders otherHolders : List Term}
    (participantsPerm : participants.Perm otherParticipants) (holdersPerm : holders.Perm otherHolders)
    {crawler : Option (ParticipantsConfig HolderConfig)}
    (read : first.readCrawler text settings resource participants holders = .ok crawler) :
    second.readCrawler text settings resource otherParticipants otherHolders = .ok crawler := by
  unfold ConfigGraph.readCrawler at read ⊢
  obtain ⟨⟨⟩, participantsLinked, read⟩ := bind_eq_ok.mp read
  obtain ⟨⟨⟩, holdersLinked, read⟩ := bind_eq_ok.mp read
  obtain ⟨single, read⟩ := guard_eq_ok.mp read
  obtain ⟨holder, holderRead, read⟩ := bind_eq_ok.mp read
  refine bind_eq_ok.mpr ⟨⟨⟩, same.rejectUnlinked participantsPerm participantsLinked, ?_⟩
  refine bind_eq_ok.mpr ⟨⟨⟩, same.rejectUnlinked holdersPerm holdersLinked, ?_⟩
  refine guard_eq_ok.mpr ⟨holdersPerm.length_eq ▸ single, ?_⟩
  refine bind_eq_ok.mpr ⟨holder, same.holder holdersPerm (not_lt.mp single) holderRead, ?_⟩
  by_cases none : participants = []
  · rw [if_pos none] at read
    rw [if_pos (List.nil_perm.mp (none ▸ participantsPerm))]
    exact read
  · have some : otherParticipants ≠ [] := fun empty => none (List.perm_nil.mp (empty ▸ participantsPerm))
    rw [if_neg none] at read
    rw [if_neg some]
    obtain ⟨entries, entriesRead, read⟩ := bind_eq_ok.mp read
    obtain ⟨config, accepted, read⟩ := bind_eq_ok.mp read
    -- sorting by id forgets the order, since a config with a repeated id is refused
    have distinct : (entries.map ParticipantEntry.id).Nodup :=
      ((List.mergeSort_perm ..).map _).nodup_iff.mp (ParticipantsConfig.ids_nodup (mapError_eq_ok.mp accepted))
    obtain ⟨others, othersRead, entriesPerm⟩ := same.participants participantsPerm entriesRead
    rw [Listing.mergeSort_eq_of_perm entriesPerm distinct] at accepted
    exact bind_eq_ok.mpr ⟨others, othersRead, bind_eq_ok.mpr ⟨config, accepted, read⟩⟩

theorem readConfig {config : NamedOrBlankNode} {settings : BrokerSettings}
    (read : first.readConfig text config = .ok settings) : second.readConfig text config = .ok settings := by
  have participants := same.valuesOf_perm config participantLink
  have holders := same.valuesOf_perm config holderLink
  unfold ConfigGraph.readConfig at read ⊢
  simp only [getD_properties] at read ⊢
  obtain ⟨values, single, read⟩ := bind_eq_ok.mp read
  obtain ⟨pairs, texts, read⟩ := bind_eq_ok.mp read
  obtain ⟨checked, valid, read⟩ := bind_eq_ok.mp read
  obtain ⟨crawler, crawlerRead, read⟩ := bind_eq_ok.mp read
  obtain ⟨⟨⟩, unattached, read⟩ := bind_eq_ok.mp read
  refine bind_eq_ok.mpr ⟨values, singleValues_rel ?_ single, bind_eq_ok.mpr ⟨pairs, texts, ?_⟩⟩
  · exact erase_rel (erase_rel (same.properties_rel config))
  refine bind_eq_ok.mpr ⟨checked, valid, bind_eq_ok.mpr ⟨crawler, ?_, ?_⟩⟩
  · exact same.readCrawler participants holders crawlerRead
  exact bind_eq_ok.mpr ⟨⟨⟩, same.rejectUnattached ((participants.append holders).cons _) unattached, read⟩

theorem fromGraph {settings : BrokerSettings} (read : BrokerSettings.fromGraph text first = .ok settings) :
    BrokerSettings.fromGraph text second = .ok settings := by
  unfold BrokerSettings.fromGraph at read ⊢
  obtain ⟨⟨⟩, classes, read⟩ := bind_eq_ok.mp read
  refine bind_eq_ok.mpr ⟨⟨⟩, same.rejectUnknownClasses classes, ?_⟩
  have configs : (first.subjectsOfType "BrokerConfig").Perm (second.subjectsOfType "BrokerConfig") :=
    (same.quads_perm ..).map Quad.subject
  split at read
  · rename_i none
    obtain ⟨⟨⟩, unattached, read⟩ := bind_eq_ok.mp read
    rw [none] at configs
    rw [List.nil_perm.mp configs]
    exact bind_eq_ok.mpr ⟨⟨⟩, same.rejectUnattached (.refl _) unattached, read⟩
  · rename_i config only
    rw [only] at configs
    rw [List.perm_singleton.mp configs.symm]
    exact same.readConfig read
  · cases read

end SameTriples

theorem SameTriples.fromGraph_toOption (same : SameTriples first second) :
    (BrokerSettings.fromGraph text second).toOption = (BrokerSettings.fromGraph text first).toOption := by
  cases read : BrokerSettings.fromGraph text first with
  | ok settings => rw [same.fromGraph read]
  | error e =>
    cases other : BrokerSettings.fromGraph text second with
    | error e' => rfl
    | ok settings =>
      rw [same.symm.fromGraph other] at read
      cases read

end ConfigGraph

/-- Settings are only read from a graph whose every triple in the broker's vocabulary is accounted for; any other graph
is refused, and how the graph's triples are ordered makes no difference. -/
theorem config_read_completely_or_refused (text : ConfigText) (graph : ConfigGraph) :
    (∀ settings, BrokerSettings.fromGraph text graph = .ok settings → graph.ReadCompletely) ∧
    (¬graph.ReadCompletely → ∃ error, BrokerSettings.fromGraph text graph = .error error) ∧
    ∀ other, graph.SameTriples other →
      (BrokerSettings.fromGraph text other).toOption = (BrokerSettings.fromGraph text graph).toOption := by
  refine ⟨fun _ read => ConfigGraph.readCompletely_of_fromGraph read, ?_, fun _ same => same.fromGraph_toOption⟩
  intro incomplete
  cases read : BrokerSettings.fromGraph text graph with
  | error e => exact ⟨e, rfl⟩
  | ok settings => exact absurd (ConfigGraph.readCompletely_of_fromGraph read) incomplete

theorem gatedConfig_read_completely : gatedConfig.ReadCompletely := by
  obtain ⟨settings, _, read, _⟩ := gatedConfig_read
  exact (config_read_completely_or_refused gatedText gatedConfig).1 settings read

end CatalogBroker
