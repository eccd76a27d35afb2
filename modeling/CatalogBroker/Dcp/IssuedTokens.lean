import CatalogBroker.Dcp.IssuedPresentations
import CatalogBroker.Library.CappedMap

/-! The map of issued tokens is bounded, and gives up a valid token only when it is full of them. -/

set_option autoImplicit false

namespace CatalogBroker

open Library CappedMap Maps

/-- One call of `remember_issued_capped`: the clock it reads and the order it visits the map in. -/
structure RememberCall where
  jti : String
  providerDid : String
  exp : Nat
  now : Nat
  order : HashOrder IssuedToken

def RememberCall.apply (cap : Nat) (issued : IssuedTokens) (call : RememberCall) : IssuedTokens :=
  rememberIssuedCapped issued cap call.jti call.providerDid call.exp call.now call.order

def issuedAfter (cap : Nat) (calls : List RememberCall) : IssuedTokens :=
  calls.foldl (RememberCall.apply cap) ∅

def unexpired (issued : IssuedTokens) (now : Nat) : IssuedTokens := issued.filter fun _ token => now < token.exp

/-- The call drops a token that is still valid. -/
def Evicts (cap : Nat) (issued : IssuedTokens) (call : RememberCall) (jti : String) : Prop :=
  ∃ token, (unexpired issued call.now)[jti]? = some token ∧ (call.apply cap issued)[jti]? = none

/-- The map is full of valid tokens, this one is the first of them to expire, and it goes alone. -/
structure LastResort (cap : Nat) (issued : IssuedTokens) (call : RememberCall) (jti : String) : Prop where
  full : (unexpired issued call.now).size = cap
  earliest : ∃ token, Oldest IssuedToken.exp (unexpired issued call.now) jti token
  alone : ∀ other token, other ≠ jti → (unexpired issued call.now)[other]? = some token →
    (call.apply cap issued)[other]? = some token

section

variable {cap : Nat} {issued : IssuedTokens} {call : RememberCall} {jti : String} {token : IssuedToken}

theorem getElem?_unexpired {now : Nat} :
    (unexpired issued now)[jti]? = some token ↔ issued[jti]? = some token ∧ now < token.exp := by
  unfold unexpired
  rw [getElem?_filter_eq_some, decide_eq_true_eq]

theorem RememberCall.apply_eq (issued : IssuedTokens) (call : RememberCall) :
    call.apply cap issued = (evictOldest cap IssuedToken.exp
      (call.order.visit (unexpired issued call.now).toList) (unexpired issued call.now)).insert call.jti
        ⟨call.providerDid, call.exp⟩ := by
  unfold RememberCall.apply rememberIssuedCapped evictOldest unexpired
  dsimp only
  congr 1
  split
  · split
    · rename_i found
      rw [found]
    · rename_i nothing
      rw [nothing]
  · rfl

/-- A call drops the expired tokens, then one more if that made no room, and adds its own. -/
theorem RememberCall.apply_cases (room : 0 < cap) (issued : IssuedTokens) (call : RememberCall) :
    ((unexpired issued call.now).size < cap ∧
      call.apply cap issued = (unexpired issued call.now).insert call.jti ⟨call.providerDid, call.exp⟩) ∨
    (cap ≤ (unexpired issued call.now).size ∧
      ∃ old token, Oldest IssuedToken.exp (unexpired issued call.now) old token ∧
        call.apply cap issued =
          ((unexpired issued call.now).erase old).insert call.jti ⟨call.providerDid, call.exp⟩) := by
  rw [RememberCall.apply_eq]
  rcases evictOldest_cases IssuedToken.exp room (call.order.visit_perm (unexpired issued call.now).toList)
    with ⟨below, same⟩ | ⟨full, old, token, oldest, less⟩
  · rw [same]
    exact .inl ⟨below, rfl⟩
  · rw [less]
    exact .inr ⟨full, old, token, oldest, rfl⟩

theorem size_unexpired_le (issued : IssuedTokens) (now : Nat) : (unexpired issued now).size ≤ issued.size :=
  Std.ExtTreeMap.size_filter_le_size

theorem RememberCall.size_apply_le (room : 0 < cap) (bounded : issued.size ≤ cap) :
    (call.apply cap issued).size ≤ cap := by
  have kept : (unexpired issued call.now).size ≤ cap := (size_unexpired_le issued call.now).trans bounded
  have below := size_evictOldest_lt IssuedToken.exp room kept (call.order.visit_perm _)
  rw [RememberCall.apply_eq]
  exact Std.ExtTreeMap.size_insert_le.trans below

theorem size_issuedAfter_le (room : 0 < cap) (calls : List RememberCall) : (issuedAfter cap calls).size ≤ cap := by
  induction calls using List.reverseRecOn with
  | nil => exact Nat.zero_le cap
  | append_singleton done call ih =>
    unfold issuedAfter
    rw [List.foldl_append]
    exact RememberCall.size_apply_le room ih

theorem issuedAfter_append_singleton (done : List RememberCall) (call : RememberCall) :
    issuedAfter cap (done ++ [call]) = call.apply cap (issuedAfter cap done) := by
  unfold issuedAfter
  rw [List.foldl_append]
  rfl

theorem issuedAfter_some {calls : List RememberCall} (found : (issuedAfter cap calls)[jti]? = some token) :
    ∃ call ∈ calls, call.jti = jti ∧ token = ⟨call.providerDid, call.exp⟩ := by
  induction calls using List.reverseRecOn with
  | nil => cases found
  | append_singleton done call ih =>
    rw [issuedAfter_append_singleton] at found
    rcases rememberIssuedCapped_some found with ⟨named, rfl⟩ | ⟨_, held⟩
    · exact ⟨call, by simp, named, rfl⟩
    · obtain ⟨earlier, member, named, rfl⟩ := ih held
      exact ⟨earlier, List.mem_append_left _ member, named, rfl⟩

theorem Evicts.lastResort (room : 0 < cap) (bounded : issued.size ≤ cap) (fresh : issued[call.jti]? = none)
    (evicts : Evicts cap issued call jti) : LastResort cap issued call jti := by
  obtain ⟨token, valid, gone⟩ := evicts
  have held_apart {other : String} {held : IssuedToken} (found : (unexpired issued call.now)[other]? = some held) :
      other ≠ call.jti := by
    intro same
    rw [same, getElem?_unexpired, fresh] at found
    cases found.1
  rcases RememberCall.apply_cases room issued call with ⟨_, applied⟩ | ⟨full, old, oldToken, oldest, applied⟩
  · rw [applied, getElem?_insert_of_ne (held_apart valid), valid] at gone
    cases gone
  · have same : jti = old := by
      by_contra apart
      rw [applied, getElem?_insert_of_ne (held_apart valid), getElem?_erase_of_ne apart, valid] at gone
      cases gone
    subst same
    refine ⟨le_antisymm ((size_unexpired_le issued call.now).trans bounded) full, ⟨oldToken, oldest⟩, ?_⟩
    intro other held apart found
    rw [applied, getElem?_insert_of_ne (held_apart found), getElem?_erase_of_ne apart]
    exact found

theorem issuedAfter_fresh {done : List RememberCall} (fresh : ((done ++ [call]).map RememberCall.jti).Nodup) :
    (issuedAfter cap done)[call.jti]? = none := by
  cases found : (issuedAfter cap done)[call.jti]? with
  | none => rfl
  | some token =>
    obtain ⟨earlier, member, named, _⟩ := issuedAfter_some found
    rw [List.map_append, List.nodup_append] at fresh
    exact absurd named (fresh.2.2 earlier.jti (List.mem_map_of_mem member) call.jti (by simp))

/-- A remembered token is held while it is valid, unless a call dropped it. -/
theorem remembered_or_evicted {calls : List RememberCall} (fresh : (calls.map RememberCall.jti).Nodup)
    {remembered : RememberCall} (member : remembered ∈ calls) (valid : ∀ call ∈ calls, call.now < remembered.exp) :
    (issuedAfter cap calls)[remembered.jti]? = some ⟨remembered.providerDid, remembered.exp⟩ ∨
      ∃ before evicting, before ++ [evicting] <+: calls ∧
        Evicts cap (issuedAfter cap before) evicting remembered.jti := by
  induction calls using List.reverseRecOn with
  | nil => cases member
  | append_singleton done call ih =>
    rw [issuedAfter_append_singleton]
    rcases List.mem_append.mp member with earlier | last
    · rw [List.map_append, List.nodup_append] at fresh
      have apart : call.jti ≠ remembered.jti := fun same =>
        fresh.2.2 remembered.jti (List.mem_map_of_mem earlier) call.jti (by simp) same.symm
      have validBefore : ∀ other ∈ done, other.now < remembered.exp := fun other listed =>
        valid other (List.mem_append_left _ listed)
      rcases ih fresh.1 earlier validBefore with held | ⟨before, evicting, first, evicts⟩
      -- it is still there after this call, or this is the call that evicted it
      · cases kept : (call.apply cap (issuedAfter cap done))[remembered.jti]? with
        | some token =>
          rcases rememberIssuedCapped_some kept with ⟨same, _⟩ | ⟨_, found⟩
          · exact absurd same apart
          · exact .inl (found.symm.trans held)
        | none =>
          have unexpiredNow := getElem?_unexpired.mpr ⟨held, valid call (by simp)⟩
          exact .inr ⟨done, call, List.prefix_refl _, _, unexpiredNow, kept⟩
      · exact .inr ⟨before, evicting, first.trans (List.prefix_append _ _), evicts⟩
    · rw [List.mem_singleton.mp last]
      exact .inl (rememberIssuedCapped_self _ cap call.jti call.providerDid call.exp call.now call.order)

/-- Over any calls with fresh ids and a clock that does not go back, the map stays below its cap, a
valid token is dropped only as a last resort, and every other valid token remembered so far is answered
with its provider. -/
theorem issued_tokens_bounded (room : 0 < cap) {calls : List RememberCall}
    (fresh : (calls.map RememberCall.jti).Nodup)
    (clock : calls.Pairwise fun earlier later => earlier.now ≤ later.now) :
    (∀ done, done <+: calls → (issuedAfter cap done).size ≤ cap) ∧
    ∀ done call, done ++ [call] <+: calls →
      (∀ jti, Evicts cap (issuedAfter cap done) call jti → LastResort cap (issuedAfter cap done) call jti) ∧
      ∀ remembered ∈ done ++ [call], ∀ now, call.now ≤ now → now < remembered.exp →
        issuedTo (issuedAfter cap (done ++ [call])) remembered.jti now = some remembered.providerDid ∨
          ∃ before evicting, before ++ [evicting] <+: done ++ [call] ∧
            Evicts cap (issuedAfter cap before) evicting remembered.jti := by
  refine ⟨fun done _ => size_issuedAfter_le room done, ?_⟩
  intro done call first
  have freshSoFar : ((done ++ [call]).map RememberCall.jti).Nodup := (first.sublist.map _).nodup fresh
  constructor
  · intro jti evicts
    exact evicts.lastResort room (size_issuedAfter_le room done) (issuedAfter_fresh freshSoFar)
  · intro remembered member now later valid
    have clockSoFar := clock.sublist first.sublist
    rw [List.pairwise_append] at clockSoFar
    -- nothing made later than now could have found the token expired
    have validSoFar : ∀ other ∈ done ++ [call], other.now < remembered.exp := by
      intro other listed
      rcases List.mem_append.mp listed with earlier | last
      · exact (clockSoFar.2.2 other earlier call (by simp)).trans_lt (later.trans_lt valid)
      · rw [List.mem_singleton.mp last]
        exact later.trans_lt valid
    apply (remembered_or_evicted freshSoFar member validSoFar).imp_left
    intro held
    exact issuedTo_eq_some.mpr ⟨remembered.exp, held, valid⟩

end

def fullCalls : List RememberCall :=
  [⟨"first", "did:web:one", 300, 0, .asListed⟩, ⟨"second", "did:web:two", 200, 0, .asListed⟩,
    ⟨"third", "did:web:three", 310, 10, .asListed⟩]

/-- Room for two of three tokens: the one that expires first is dropped. -/
theorem full_calls_drop_earliest :
    LastResort 2 (issuedAfter 2 (fullCalls.take 2)) (fullCalls.get ⟨2, by decide⟩) "second" ∧
      (issuedAfter 2 fullCalls).size ≤ 2 := by
  have bounded := @issued_tokens_bounded 2 (by decide) fullCalls (by decide) (by decide)
  have evicts : Evicts 2 (issuedAfter 2 (fullCalls.take 2)) (fullCalls.get ⟨2, by decide⟩) "second" :=
    ⟨⟨"did:web:two", 200⟩, by decide +kernel, by decide +kernel⟩
  have last := bounded.2 (fullCalls.take 2) (fullCalls.get ⟨2, by decide⟩) (List.prefix_refl fullCalls)
  exact ⟨last.1 "second" evicts, bounded.1 fullCalls (List.prefix_refl fullCalls)⟩

end CatalogBroker
