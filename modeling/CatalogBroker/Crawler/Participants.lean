import Mathlib

/-! The participants a crawler is configured with. -/

set_option autoImplicit false

namespace CatalogBroker

inductive CredentialProtocol where
  | none
  | dcp
  | oid4Vp
  deriving DecidableEq, Repr

structure ParticipantEntry where
  id : String
  name : String
  catalogRequestUrl : String
  credentialProtocol : CredentialProtocol
  providerDid : Option String
  oid4vpResponseUri : Option String
  deriving DecidableEq, Repr

inductive ConfigError where
  | duplicateParticipantId (id : String)
  | missingProviderDid (id : String)
  | missingOid4VpResponseUri (id : String)
  | missingHolder (id : String)
  deriving DecidableEq, Repr

structure ParticipantsConfig (Holder : Type) where
  intervalSecs : Nat
  participants : List ParticipantEntry
  holder : Option Holder

def checkCredentials {Holder : Type} (participant : ParticipantEntry) (holder : Option Holder) :
    Except ConfigError Unit :=
  let holderConfigured := if holder.isNone then .error (.missingHolder participant.id) else .ok ()
  match participant.credentialProtocol with
  | .none => .ok ()
  | .dcp => if participant.providerDid.isNone then .error (.missingProviderDid participant.id) else holderConfigured
  | .oid4Vp =>
    if participant.oid4vpResponseUri.isNone then .error (.missingOid4VpResponseUri participant.id)
    else holderConfigured

/-- The loop of `ParticipantsConfig::new`, `ids` being those already met. -/
def checkParticipants {Holder : Type} (holder : Option Holder) (ids : List String) :
    List ParticipantEntry → Except ConfigError Unit
  | [] => .ok ()
  | participant :: participants =>
    if participant.id ∈ ids then .error (.duplicateParticipantId participant.id)
    else match checkCredentials participant holder with
      | .error e => .error e
      | .ok () => checkParticipants holder (participant.id :: ids) participants

def ParticipantsConfig.new {Holder : Type} (intervalSecs : Nat) (participants : List ParticipantEntry)
    (holder : Option Holder) : Except ConfigError (ParticipantsConfig Holder) :=
  match checkParticipants holder [] participants with
  | .error e => .error e
  | .ok () => .ok ⟨intervalSecs, participants, holder⟩

theorem checkParticipants_cons_eq_ok {Holder : Type} {holder : Option Holder} {ids : List String}
    {participant : ParticipantEntry} {participants : List ParticipantEntry} :
    checkParticipants holder ids (participant :: participants) = .ok () ↔
      participant.id ∉ ids ∧ checkCredentials participant holder = .ok () ∧
        checkParticipants holder (participant.id :: ids) participants = .ok () := by
  rw [checkParticipants]
  by_cases known : participant.id ∈ ids
  · simp [known]
  · rw [if_neg known]
    cases checkCredentials participant holder with
    | error e => simp
    | ok _ => simp [known]

theorem checkParticipants_ids {Holder : Type} {holder : Option Holder} {ids : List String}
    {participants : List ParticipantEntry} (checked : checkParticipants holder ids participants = .ok ()) :
    (participants.map ParticipantEntry.id).Nodup ∧ ∀ participant ∈ participants, participant.id ∉ ids := by
  induction participants generalizing ids with
  | nil => simp
  | cons participant participants ih =>
    obtain ⟨unknown, _, rest⟩ := checkParticipants_cons_eq_ok.mp checked
    -- The others are checked against the ids so far and this one.
    obtain ⟨distinct, apart⟩ := ih rest
    rw [List.map_cons, List.nodup_cons]
    refine ⟨⟨?_, distinct⟩, ?_⟩
    · intro member
      obtain ⟨other, listed, same⟩ := List.mem_map.mp member
      exact apart other listed (by simp [same])
    · intro other listed
      rcases List.mem_cons.mp listed with rfl | later
      · exact unknown
      · exact fun earlier => apart other later (List.mem_cons_of_mem _ earlier)

theorem checkParticipants_credentials {Holder : Type} {holder : Option Holder} {ids : List String}
    {participants : List ParticipantEntry} (checked : checkParticipants holder ids participants = .ok ()) :
    ∀ participant ∈ participants, checkCredentials participant holder = .ok () := by
  induction participants generalizing ids with
  | nil => simp
  | cons participant participants ih =>
    obtain ⟨_, credentials, rest⟩ := checkParticipants_cons_eq_ok.mp checked
    exact List.forall_mem_cons.mpr ⟨credentials, ih rest⟩

theorem checkCredentials_eq_ok {Holder : Type} {holder : Option Holder} {participant : ParticipantEntry} :
    checkCredentials participant holder = .ok () ↔
      (participant.credentialProtocol = .dcp → participant.providerDid.isSome = true) ∧
      (participant.credentialProtocol = .oid4Vp → participant.oid4vpResponseUri.isSome = true) ∧
      (participant.credentialProtocol ≠ .none → holder.isSome = true) := by
  unfold checkCredentials
  cases participant.credentialProtocol with
  | none => simp
  | dcp => cases participant.providerDid <;> cases holder <;> simp
  | oid4Vp => cases participant.oid4vpResponseUri <;> cases holder <;> simp

namespace ParticipantsConfig

variable {Holder : Type} {intervalSecs : Nat} {participants : List ParticipantEntry} {holder : Option Holder}
  {config : ParticipantsConfig Holder}

theorem new_eq_ok (accepted : ParticipantsConfig.new intervalSecs participants holder = .ok config) :
    checkParticipants holder [] participants = .ok () ∧ config = ⟨intervalSecs, participants, holder⟩ := by
  unfold ParticipantsConfig.new at accepted
  cases checked : checkParticipants holder [] participants with
  | error e =>
    rw [checked] at accepted
    cases accepted
  | ok _ =>
    rw [checked] at accepted
    cases accepted
    exact ⟨rfl, rfl⟩

theorem ids_nodup (accepted : ParticipantsConfig.new intervalSecs participants holder = .ok config) :
    (participants.map ParticipantEntry.id).Nodup :=
  (checkParticipants_ids (new_eq_ok accepted).1).1

end ParticipantsConfig

end CatalogBroker
