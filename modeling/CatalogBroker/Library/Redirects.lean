import Mathlib

/-! A client that follows redirects, against a server that answers by all it was sent before. -/

set_option autoImplicit false

namespace Library.Redirects

variable {Request Reply Answer Refusal : Type}

/-- What a client makes of a reply, and which redirects it follows, a limited number at most. -/
structure Client (Request Reply Answer Refusal : Type) where
  reads : Request → Reply → Request ⊕ Answer
  /-- The redirected requests, the latest last, and the one to send next. -/
  permits : List Request → Request → Except Refusal Unit
  limit : Nat
  limited : ∀ sent target, permits sent target = .ok () → sent.length ≤ limit

namespace Client

variable (client : Client Request Reply Answer Refusal) (server : List Request → Reply)

/-- Every request sent, and the answer or the redirect that was refused. -/
def follow (previous : List Request) (request : Request) : List Request × Except (Request × Refusal) Answer :=
  match client.reads request (server (previous ++ [request])) with
  | .inr answer => (previous ++ [request], .ok answer)
  | .inl target => match _ : client.permits (previous ++ [request]) target with
    | .error refusal => (previous ++ [request], .error (target, refusal))
    | .ok () => follow (previous ++ [request]) target
termination_by client.limit + 1 - previous.length
decreasing_by
  have bound := client.limited _ _ ‹client.permits _ _ = .ok ()›
  simp only [List.length_append, List.length_singleton] at bound ⊢
  omega

variable {client server}

theorem follow_cases (client : Client Request Reply Answer Refusal) (server : List Request → Reply)
    (previous : List Request) (request : Request) :
    (∃ answer, client.reads request (server (previous ++ [request])) = .inr answer ∧
      client.follow server previous request = (previous ++ [request], .ok answer)) ∨
    ∃ target, client.reads request (server (previous ++ [request])) = .inl target ∧
      ((∃ refusal, client.permits (previous ++ [request]) target = .error refusal ∧
        client.follow server previous request = (previous ++ [request], .error (target, refusal))) ∨
      (client.permits (previous ++ [request]) target = .ok () ∧
        client.follow server previous request = client.follow server (previous ++ [request]) target)) := by
  rw [Client.follow]
  cases read : client.reads request (server (previous ++ [request])) with
  | inr answer => exact .inl ⟨answer, rfl, rfl⟩
  | inl target =>
    refine .inr ⟨target, rfl, ?_⟩
    dsimp only
    split
    · rename_i refusal refused
      exact .inl ⟨refusal, refused, rfl⟩
    · rename_i permitted
      exact .inr ⟨permitted, rfl⟩

/-- What holds of the first request, and of a redirect where it held of what was redirected, holds of every
request sent. -/
theorem follow_forall {Inv : Request → Prop} {previous : List Request} {request : Request}
    (keeps : ∀ (sent : List Request) (redirected target : Request) (reply : Reply), Inv redirected →
      client.reads redirected reply = .inl target → client.permits (sent ++ [redirected]) target = .ok () →
      Inv target)
    (before : ∀ hop ∈ previous, Inv hop) (first : Inv request) :
    ∀ hop ∈ (client.follow server previous request).1, Inv hop := by
  have sent : ∀ hop ∈ previous ++ [request], Inv hop := by
    rw [List.forall_mem_append, List.forall_mem_singleton]
    exact ⟨before, first⟩
  rcases follow_cases client server previous request with ⟨answer, _, same⟩ |
    ⟨target, read, ⟨refusal, _, same⟩ | ⟨permitted, same⟩⟩
  · rw [same]
    exact sent
  · rw [same]
    exact sent
  · rw [same]
    exact follow_forall keeps sent (keeps _ _ _ _ first read permitted)
termination_by client.limit + 1 - previous.length
decreasing_by
  have bound := client.limited _ _ permitted
  simp only [List.length_append, List.length_singleton] at bound ⊢
  omega

theorem follow_length {previous : List Request} {request : Request} (within : previous.length ≤ client.limit) :
    (client.follow server previous request).1.length ≤ client.limit + 1 := by
  rcases follow_cases client server previous request with ⟨answer, _, same⟩ |
    ⟨target, read, ⟨refusal, _, same⟩ | ⟨permitted, same⟩⟩
  · rw [same, List.length_append, List.length_singleton]
    omega
  · rw [same, List.length_append, List.length_singleton]
    omega
  · rw [same]
    exact follow_length (client.limited _ _ permitted)
termination_by client.limit + 1 - previous.length
decreasing_by
  have bound := client.limited _ _ permitted
  simp only [List.length_append, List.length_singleton] at bound ⊢
  omega

theorem follow_earlier (previous : List Request) (request : Request) :
    previous ++ [request] <+: (client.follow server previous request).1 := by
  rcases follow_cases client server previous request with ⟨answer, _, same⟩ |
    ⟨target, read, ⟨refusal, _, same⟩ | ⟨permitted, same⟩⟩
  · rw [same]
  · rw [same]
  · rw [same]
    exact (List.prefix_append _ _).trans (follow_earlier (previous ++ [request]) target)
termination_by client.limit + 1 - previous.length
decreasing_by
  have bound := client.limited _ _ permitted
  simp only [List.length_append, List.length_singleton] at bound ⊢
  omega

theorem follow_answer {previous : List Request} {request : Request} {answer : Answer}
    (answered : (client.follow server previous request).2 = .ok answer) :
    ∃ hops last, (client.follow server previous request).1 = hops ++ [last] ∧
      client.reads last (server (hops ++ [last])) = .inr answer := by
  rcases follow_cases client server previous request with ⟨found, read, same⟩ |
    ⟨target, read, ⟨refusal, _, same⟩ | ⟨permitted, same⟩⟩
  · rw [same] at answered ⊢
    cases answered
    exact ⟨previous, request, rfl, read⟩
  · rw [same] at answered
    cases answered
  · rw [same] at answered ⊢
    exact follow_answer answered
termination_by client.limit + 1 - previous.length
decreasing_by
  have bound := client.limited _ _ permitted
  simp only [List.length_append, List.length_singleton] at bound ⊢
  omega

end Client

end Library.Redirects
