import CatalogBroker.Dcp.Holder

/-! A provider this holder approached is answered.

It was sent a token; it wraps that token in one of its own, signs with a key of its DID
document and calls back in time.
-/

set_option autoImplicit false

namespace CatalogBroker

open Library Fallible Transitions

theorem rememberIssuedCapped_self (issued : IssuedTokens) (cap : Nat) (jti providerDid : String) (exp now : Nat)
    (order : HashOrder IssuedToken) :
    (rememberIssuedCapped issued cap jti providerDid exp now order)[jti]? = some ⟨providerDid, exp⟩ := by
  unfold rememberIssuedCapped
  rw [Std.ExtTreeMap.getElem?_insert_self]

section

variable {SigningKey VerifyingKey Signature : Type} {primitives : Primitives SigningKey VerifyingKey Signature}
  {holder : HolderIdentity SigningKey} {issued : IssuedTokens} {target kid : String} {mintRun : MintRun}
  {payload : Json} (callerKey : SigningKey)

/-- What an approached provider puts into the token it calls back with. -/
structure Wraps (primitives : Primitives SigningKey VerifyingKey Signature) (holder : HolderIdentity SigningKey)
    (target kid : String) (mintRun : MintRun) (payload : Json) : Prop where
  iss : readString payload "iss" = some target
  token : readString payload "token" = some (signJws primitives (accessTokenPayload holder mintRun)
    holder.keyPair.signingKey holder.keyPair.ownKeyId)
  aud : readString payload "aud" = some holder.keyPair.ownDid
  /-- Both tokens are JSON the parser reads back. -/
  parses : ∀ value ∈ [jwsHeader kid, payload, jwsHeader holder.keyPair.ownKeyId, accessTokenPayload holder mintRun],
    primitives.Parses value

theorem acceptCall_of_wraps (lawful : primitives.Lawful) (wraps : Wraps primitives holder target kid mintRun payload)
    {now : Nat} (held : issued[mintRun.accessJti]? = some ⟨target, mintRun.now + 300⟩)
    (unexpired : now < mintRun.now + 300) :
    acceptCall primitives holder issued (signJws primitives payload callerKey kid) now =
      .ok ⟨payload, kid, target, mintRun.accessJti⟩ := by
  obtain ⟨outerHeader, outer, nestedHeader, nested⟩ := by
    have parses := wraps.parses
    simpa only [List.forall_mem_cons, List.not_mem_nil, false_implies, implies_true, and_true] using parses
  have kidRead : readString (jwsHeader kid) "kid" = some kid := rfl
  have jtiRead : readString (accessTokenPayload holder mintRun) "jti" = some mintRun.accessJti := rfl
  have issuedToTarget : issuedTo issued mintRun.accessJti now = some target := by
    unfold issuedTo
    rw [held, Option.filter_some, if_pos (decide_eq_true unexpired)]
    rfl
  unfold acceptCall
  simp only [decodeJwsUnverified_signJws callerKey lawful outerHeader outer, bind, Except.bind, wraps.iss, okOr,
    kidRead, wraps.token, decodeJwsUnverified_signJws holder.keyPair.signingKey lawful nestedHeader nested, jtiRead,
    issuedToTarget, ne_eq, not_true_eq_false, if_false, verifyJwsSignature_signJws holder.keyPair.signingKey lawful]
  rfl

theorem presentTo_of_wraps (lawful : primitives.Lawful) (wraps : Wraps primitives holder target kid mintRun payload)
    {document : DidDocument}
    (found : findVerifyingKey primitives document kid = .ok (primitives.verifyingKey callerKey))
    {exp : Nat} (expRead : (payload.get? "exp").bind Json.asU64? = some exp) {run : PresentRun}
    (valid : run.checkedAt < exp) (nonce : String) :
    presentTo primitives holder (signJws primitives payload callerKey kid) ⟨payload, kid, target, nonce⟩
        (.ok document) run =
      .ok ⟨[signJws primitives (presentationPayload holder ⟨payload, kid, target, nonce⟩ run)
        holder.keyPair.signingKey holder.keyPair.ownKeyId]⟩ := by
  unfold presentTo
  simp only [bind, Except.bind, found, verifyJwsSignature_signJws callerKey lawful, wraps.aud, Option.getD_some,
    ne_eq, not_true_eq_false, if_false, expRead, if_neg (not_le.mpr valid)]
  rfl

/-- Whatever was minted and asked before, the provider gets its presentation if it calls back within the five
minutes and its own token is valid when its DID has been resolved. -/
theorem approached_provider_answered (lawful : primitives.Lawful)
    (wraps : Wraps primitives holder target kid mintRun payload) (state : HolderState)
    (resolveDid : Nat → String → Except String DidDocument) (moment : Nat) {document : DidDocument}
    (resolves : resolveDid moment target = .ok document)
    (found : findVerifyingKey primitives document kid = .ok (primitives.verifyingKey callerKey)) {exp : Nat}
    (expRead : (payload.get? "exp").bind Json.asU64? = some exp) (run : PresentRun) (valid : run.checkedAt < exp)
    (index now : Nat) (unexpired : now < mintRun.now + 300) (fresh : state.calls index = none) :
    ∃ last, Run (HolderState.step primitives holder resolveDid) (fun _ _ => True) state
        [.mint target mintRun, .query index (signJws primitives payload callerKey kid) now,
          .resolved index moment run] last ∧
      last.calls index = some (.replied (.ok
        ⟨[signJws primitives (presentationPayload holder ⟨payload, kid, target, mintRun.accessJti⟩ run)
          holder.keyPair.signingKey holder.keyPair.ownKeyId]⟩)) := by
  have accepted := acceptCall_of_wraps callerKey lawful wraps
    (rememberIssuedCapped_self state.issued maxIssuedTokens _ _ _ mintRun.rememberedAt mintRun.order) unexpired
  have presented := presentTo_of_wraps callerKey lawful wraps found expRead valid mintRun.accessJti
  -- The three states in a row: minted, waiting for the caller's document, answered.
  let token := signJws primitives payload callerKey kid
  let minted : HolderState :=
    { state with issued := (mintSelfIssuedToken primitives holder state.issued target mintRun).1 }
  let answering := answerPresentationQuery primitives holder minted.issued token now
  let waiting : HolderState := { minted with calls := Function.update minted.calls index (some answering) }
  have resolving : answering =
      .resolving target (presentTo primitives holder token ⟨payload, kid, target, mintRun.accessJti⟩) := by
    unfold answering answerPresentationQuery
    rw [show acceptCall primitives holder minted.issued token now = _ from accepted]
  have queries : minted.step primitives holder resolveDid (.query index token now) = some waiting := by
    simp only [HolderState.step, minted, fresh, waiting, answering]
  have waits : waiting.calls index = some (.resolving target
      (presentTo primitives holder token ⟨payload, kid, target, mintRun.accessJti⟩)) := by
    simp only [waiting, Function.update_self, resolving]
  refine ⟨{ waiting with calls := Function.update waiting.calls index (some (.replied _)) },
    .cons trivial rfl (.cons trivial queries (.cons trivial ?_ (.nil _))), Function.update_self ..⟩
  simp only [HolderState.step, waits, resolves, token, presented]

end

end CatalogBroker
